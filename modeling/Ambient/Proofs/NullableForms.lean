import Ambient.Proofs.ExtractedDescriptors
import Ambient.Proofs.TypeTexts

/-!
# Two ways to let `null` in

A descriptor is made nullable in two places: for an optional field, by `nullable`, and for a
documented type, by `makeNullable`.  Both leave a descriptor alone that admits `null`, put a mark
before a single alternative and add `null` to several, but each tells one from several in its own
way, and one of them drops what stands around a single alternative.

`WithNull` is where the two meet.  On a `Tidy` descriptor both follow it, and it determines the
result, so they agree (`nullable_forms_agree`).  The result admits `null`, which is why neither of
them changes it again.
-/

namespace Ambient

namespace Text

/-- A mark before a text that is its own only part becomes part of it. -/
theorem Sole.mark {text : List Char} (h : Sole text) : Sole ('?' :: text) where
  some := List.cons_ne_nil _ _
  first := by rintro _ ⟨⟩; rfl
  last c hc := by
    rw [List.getLast?_cons_of_ne_nil h.some] at hc
    exact h.last c hc
  uncut := by
    rw [Uncut, pieces_cons_of_not_cut (by decide)]
    exact h.uncut

end Text

namespace Descriptor

open Extraction Text

variable {text : List Char}

/-! ## Tidy descriptors -/

/-- A descriptor without blanks at its ends, in which brackets are nested and no alternative is left
out.  So it has at least one alternative. -/
structure Tidy (text : List Char) : Prop where
  nested : Nested text
  trimmed : trim text = text
  filled : ∀ piece ∈ (pieces '|' 0 text).1 :: (pieces '|' 0 text).2, trim piece ≠ []

namespace Tidy

/-- Every piece of a tidy descriptor is one of its alternatives. -/
theorem parts_eq_map (h : Tidy text) :
    parts '|' text = ((pieces '|' 0 text).1 :: (pieces '|' 0 text).2).map trim := by
  rw [Text.parts_eq, List.filter_eq_self]
  intro part hPart
  obtain ⟨piece, hPiece, rfl⟩ := List.mem_map.mp hPart
  simpa using h.filled piece hPiece

/-- A tidy descriptor that is not cut is its own only alternative: nothing around it is dropped. -/
theorem sole (h : Tidy text) (hUncut : Uncut '|' text) : Sole text := by
  have hSome := h.filled _ (.head _)
  rw [hUncut.pieces_eq] at hSome
  rw [← h.trimmed] at hUncut ⊢
  exact sole_trim hSome hUncut

theorem sole_or_several (h : Tidy text) : Sole text ∨ 1 < (parts '|' text).length := by
  cases hMore : (pieces '|' 0 text).2 with
  | nil => exact .inl (h.sole hMore)
  | cons next others =>
    refine .inr ?_
    rw [h.parts_eq_map, hMore]
    simp

end Tidy

/-! ## What both rules give -/

/-- A descriptor with `null` let in. -/
inductive WithNull (text : List Char) : List Char → Prop
  /-- Some alternative admits `null` already. -/
  | kept (hNull : isNullable text = true) : WithNull text text
  /-- The only alternative gets a mark. -/
  | marked (hNull : isNullable text = false) (hSole : Sole text) : WithNull text ('?' :: text)
  /-- Several alternatives get `null` beside them. -/
  | extended (hNull : isNullable text = false) (hSeveral : 1 < (parts '|' text).length) :
    WithNull text (text ++ "|null".toList)

theorem WithNull.unique {result result' : List Char} (h : WithNull text result)
    (h' : WithNull text result') : result = result' := by
  -- a text that is its only alternative does not have several
  have hOne : Sole text → ¬1 < (parts '|' text).length := by
    intro hSole
    rw [hSole.parts_eq]
    simp
  cases h with
  | kept hNull =>
    cases h' with
    | kept => rfl
    | marked hNull' | extended hNull' => rw [hNull] at hNull'; cases hNull'
  | marked hNull hSole =>
    cases h' with
    | kept hNull' => rw [hNull] at hNull'; cases hNull'
    | marked => rfl
    | extended _ hSeveral => exact absurd hSeveral (hOne hSole)
  | extended hNull hSeveral =>
    cases h' with
    | kept hNull' => rw [hNull] at hNull'; cases hNull'
    | marked _ hSole => exact absurd hSeveral (hOne hSole)
    | extended => rfl

theorem Tidy.withNull_makeNullable (h : Tidy text) : WithNull text (makeNullable text) := by
  unfold makeNullable
  split
  · rename_i hNull
    exact .kept hNull
  · rename_i hNull
    rw [Bool.not_eq_true] at hNull
    rcases h.sole_or_several with hSole | hSeveral
    · -- the alternative alone is marked, which is all of the text
      rw [hSole.parts_eq]
      exact .marked hNull hSole
    · split
      · rename_i hSingle
        rw [hSingle] at hSeveral
        exact absurd hSeveral (lt_irrefl 1)
      · exact .extended hNull hSeveral

theorem Tidy.withNull_nullable {descriptor : String} (h : Tidy descriptor.toList) :
    WithNull descriptor.toList (nullable descriptor).toList := by
  unfold nullable
  dsimp only
  split
  · rename_i hNull
    exact .kept hNull
  · rename_i hNull
    rw [Bool.not_eq_true] at hNull
    split
    · rename_i hSeveral
      rw [String.toList_append]
      exact .extended hNull hSeveral
    · rename_i hOne
      rw [toList_mark]
      exact .marked hNull (h.sole_or_several.resolve_right hOne)

/-- How the alternatives change when `null` is let in. -/
theorem WithNull.parts_eq {result : List Char} (h : WithNull text result) (hNested : Nested text) :
    (isNullable text = true ∧ parts '|' result = parts '|' text) ∨
    (isNullable text = false ∧ ∃ part, parts '|' text = [part] ∧
      parts '|' result = ['?' :: part]) ∨
    (isNullable text = false ∧ 1 < (parts '|' text).length ∧
      parts '|' result = parts '|' text ++ ["null".toList]) := by
  cases h with
  | kept hNull => exact .inl ⟨hNull, rfl⟩
  | marked hNull hSole => exact .inr (.inl ⟨hNull, text, hSole.parts_eq, hSole.mark.parts_eq⟩)
  | extended hNull hSeveral =>
    refine .inr (.inr ⟨hNull, hSeveral, ?_⟩)
    -- no bracket is open where the new alternative is added
    show parts '|' (text ++ '|' :: "null".toList) = _
    rw [parts_append_separator (by decide) (hNested.depthAfterAll 0)]
    rfl

/-! ## Nullable descriptors -/

theorem makeNullable_of_isNullable (h : isNullable text = true) : makeNullable text = text := by
  rw [makeNullable, if_pos h]

theorem nullable_of_isNullable {descriptor : String} (h : isNullable descriptor.toList = true) :
    nullable descriptor = descriptor :=
  if_pos h

theorem exists_part_of_isNullable (h : isNullable text = true) :
    ∃ part ∈ parts '|' text, part.head? = some '?' ∨ part = "null".toList := by
  obtain ⟨part, hPart, hNull⟩ := List.any_eq_true.mp h
  refine ⟨part, hPart, ?_⟩
  simp only [admitsNull, Bool.or_eq_true, beq_iff_eq] at hNull
  exact hNull.imp_right fun hWord => by rw [← hWord, String.toList_ofList]

/-- Both rules turn a tidy descriptor into the same text, and neither changes that text again.  Some
alternative of it starts with `?` or is `null`.  Its alternatives are those of the descriptor if one
of them is such already; otherwise a single one is marked with `?`, and several are followed by
`null`. -/
theorem nullable_forms_agree (descriptor : String) (h : Tidy descriptor.toList) :
    ∃ result : String,
      nullable descriptor = result ∧ makeNullable descriptor.toList = result.toList ∧
      nullable result = result ∧ makeNullable result.toList = result.toList ∧
      (∃ part ∈ parts '|' result.toList, part.head? = some '?' ∨ part = "null".toList) ∧
      ((isNullable descriptor.toList = true ∧
          parts '|' result.toList = parts '|' descriptor.toList) ∨
        (isNullable descriptor.toList = false ∧ ∃ part, parts '|' descriptor.toList = [part] ∧
          parts '|' result.toList = ['?' :: part]) ∨
        (isNullable descriptor.toList = false ∧ 1 < (parts '|' descriptor.toList).length ∧
          parts '|' result.toList = parts '|' descriptor.toList ++ ["null".toList])) := by
  have hAgree : makeNullable descriptor.toList = (nullable descriptor).toList :=
    h.withNull_makeNullable.unique h.withNull_nullable
  have hNull : isNullable (nullable descriptor).toList = true :=
    hAgree ▸ isNullable_makeNullable h.nested
  exact ⟨nullable descriptor, rfl, hAgree, nullable_of_isNullable hNull,
    makeNullable_of_isNullable hNull, exists_part_of_isNullable hNull,
    h.withNull_nullable.parts_eq h.nested⟩

/-- Bars and `null` inside of brackets do not count, so `null` is added behind the union. -/
theorem choice_made_nullable :
    Tidy "list<int|null>|app::User".toList ∧
    nullable "list<int|null>|app::User" = "list<int|null>|app::User|null" ∧
    makeNullable "list<int|null>|app::User".toList = "list<int|null>|app::User|null".toList ∧
    nullable "list<int|null>|app::User|null" = "list<int|null>|app::User|null" ∧
    makeNullable "list<int|null>|app::User|null".toList =
      "list<int|null>|app::User|null".toList := by
  have hTidy : Tidy "list<int|null>|app::User".toList :=
    ⟨by decide +kernel, by decide +kernel, by decide +kernel⟩
  have hResult : nullable "list<int|null>|app::User" = "list<int|null>|app::User|null" := by
    decide +kernel
  obtain ⟨result, hFirst, hSecond, hAgain, hAgain', -, -⟩ :=
    nullable_forms_agree "list<int|null>|app::User" hTidy
  obtain rfl := hFirst.symm.trans hResult
  exact ⟨hTidy, hFirst, hSecond, hAgain, hAgain'⟩

-- An alternative that is left out counts for neither rule, but only one of them drops its bar.
example : nullable "|int" = "?|int" ∧ makeNullable "|int".toList = "?int".toList := by
  decide +kernel

-- Behind a bracket that is not closed, `null` is no alternative of its own.
example : isNullable (makeNullable "int|(string".toList) = false := by decide +kernel

end Descriptor

end Ambient
