import Ambient.Proofs.TypeTexts

/-!
# The elements of array suffixes

An array suffix binds closer than a bar, so the text in front of it has to be one alternative:
`string | number[]` is not an array of both.  Whether parentheses are put around an element is
decided by its type, and only unions get them.

`suffix_covers` says when that is enough, for the containers at any depth of what a descriptor means
outside of properties.  A suffix covers its whole element unless it is written, directly or behind
other suffixes, after a replacement that shows several alternatives; then it covers the last of them
only.

Names and replacements have to have nested brackets, for otherwise a bracket of their own ends the
parentheses around them.
-/

namespace Ambient

open Text

/-! ## Text with more text behind it -/

namespace Text

theorem trim_append_ne_nil {text : List Char} (h : trim text ≠ []) (rest : List Char) :
    trim (text ++ rest) ≠ [] := by
  have hMem : ∃ c ∈ text, isBlank c = false := by
    by_contra hNone
    simp only [not_exists, not_and, Bool.not_eq_false] at hNone
    exact h (trim_append_right hNone [])
  obtain ⟨c, hc, hBlank⟩ := hMem
  exact List.ne_nil_of_mem (mem_trim (List.mem_append_left rest hc) hBlank)

/-- A text does not lose parts by what is written behind it. -/
theorem length_parts_le_append (separator : Char) (text rest : List Char) :
    (parts separator text).length ≤ (parts separator (text ++ rest)).length := by
  have hJoin : ∀ new first more,
      (((first :: more).map trim).filter (!·.isEmpty)).length ≤
        ((((join new first more).1 :: (join new first more).2).map trim).filter
          (!·.isEmpty)).length := by
    intro new first more
    induction more generalizing first with
    | nil =>
      -- the last piece is made longer, and more pieces can follow
      by_cases hSome : trim first = []
      · simp [hSome]
      · have hLonger : trim (first ++ new.1) ≠ [] := trim_append_ne_nil hSome _
        simp [join, hSome, hLonger]
    | cons next more ih =>
      show ((trim first :: (next :: more).map trim).filter (!·.isEmpty)).length ≤
        ((trim first :: ((join new next more).1 :: (join new next more).2).map trim).filter
          (!·.isEmpty)).length
      by_cases hSome : trim first = []
      · rw [List.filter_cons_of_neg (by simp [hSome]), List.filter_cons_of_neg (by simp [hSome])]
        exact ih next
      · rw [List.filter_cons_of_pos (by simp [hSome]), List.filter_cons_of_pos (by simp [hSome])]
        exact Nat.succ_le_succ (ih next)
  rw [Text.parts_eq, Text.parts_eq, pieces_append]
  exact hJoin _ _ _

end Text

namespace TsType

/-! ## Containers below a type -/

/-- The type has a container of this kind and element somewhere. -/
inductive HasContainer : TsType → ContainerKind → TsType → Prop
  | here {kind : ContainerKind} {element : TsType} :
    HasContainer (.container kind element) kind element
  | member {type : TsType} {members : List TsType} {kind : ContainerKind} {element : TsType}
    (hMember : type ∈ members) (hHas : HasContainer type kind element) :
    HasContainer (.union members) kind element
  | element {around : ContainerKind} {type : TsType} {kind : ContainerKind} {element : TsType}
    (hHas : HasContainer type kind element) : HasContainer (.container around type) kind element
  | property {name : String} {type : TsType} {properties : List (String × TsType)}
    {kind : ContainerKind} {element : TsType} (hProperty : (name, type) ∈ properties)
    (hHas : HasContainer type kind element) : HasContainer (.inlineRecord properties) kind element

/-- A suffix behind the text of an element covers all of it: the text is one alternative, and if
the element by itself shows several then it stands in parentheses. -/
def Covered (layout : Layout) (element : TsType) : Prop :=
  (alternativesIn (element.elementText layout)).length ≤ 1 ∧
    (2 ≤ (alternativesIn (element.renderMember layout)).length →
      element.elementText layout = "(" ++ element.renderMember layout ++ ")")

variable {world : World} {type element : TsType} {kind : ContainerKind} {layout : Layout}

theorem HasContainer.unexpanded (h : type.HasContainer kind element)
    (hType : type.Unexpanded world) : element.Unexpanded world := by
  induction h with
  | here =>
    cases hType with
    | container kind hElement => exact hElement
  | member hMember hHas ih =>
    cases hType with
    | union hMembers => exact ih (hMembers _ hMember)
  | element hHas ih =>
    cases hType with
    | container around hElement => exact ih hElement
  | property hProperty hHas ih => cases hType

/-- Outside of properties the text of a container is a piece of the text around it. -/
theorem HasContainer.exists_text (h : type.HasContainer kind element) (layout : Layout)
    (hType : type.Unexpanded world) : ∃ before after,
      type.renderMember layout = before ++ wrap kind (element.elementText layout) ++ after := by
  -- each step outwards adds text on both sides
  induction h with
  | here =>
    refine ⟨"", "", ?_⟩
    rw [renderMember_container, String.empty_append, String.append_empty]
  | member hMember hHas ih =>
    cases hType with
    | union hMembers =>
      obtain ⟨before, after, hText⟩ := ih (hMembers _ hMember)
      obtain ⟨before', after', hUnion⟩ := exists_around_member hMember layout
      refine ⟨before' ++ before, after ++ after', ?_⟩
      rw [hUnion, hText]
      simp only [String.append_assoc]
  | @element around type kind element hHas ih =>
    cases hType with
    | container around hElement =>
      obtain ⟨before, after, hText⟩ := ih hElement
      obtain ⟨before', after', hContainer⟩ := exists_around_element around type layout
      refine ⟨before' ++ before, after ++ after', ?_⟩
      rw [hContainer, hText]
      simp only [String.append_assoc]
  | property hProperty hHas ih => cases hType

/-- Arrays and tuples have a suffix behind the text of their element. -/
theorem exists_suffix (hKind : kind = .list ∨ kind = .nonEmptyList) (text : String) :
    ∃ before after, wrap kind text = before ++ (text ++ "[]") ++ after := by
  rcases hKind with rfl | rfl
  · refine ⟨"", "", ?_⟩
    rw [String.empty_append, String.append_empty]
    rfl
  · refine ⟨"[" ++ text ++ ", ...", "]", ?_⟩
    have hEnd : "[]]" = "[]" ++ "]" := rfl
    show "[" ++ text ++ ", ..." ++ text ++ "[]]" = _
    rw [hEnd]
    simp only [String.append_assoc]

/-! ## What is written in front of suffixes -/

/-- What is written out as it is comes from a replacement. -/
theorem Unexpanded.exists_replacement (h : type.Unexpanded world) {text : String}
    (hCore : type.core = .raw text) : ∃ atom, Table.find? world.replacements atom = some text := by
  have hUnexpanded := h.core
  rw [hCore] at hUnexpanded
  cases hUnexpanded with
  | replacement hFound => exact ⟨_, hFound⟩

theorem Unexpanded.covered (h : type.Unexpanded world)
    (hNames : ∀ entry ∈ world.registry, Text.Nested entry.1.toList)
    (hTexts : ∀ entry ∈ world.replacements, Text.Nested entry.2.toList)
    (hCore : ∀ text, type.core = .raw text → Uncut '|' text.toList) : type.Covered layout := by
  have hUncut : Uncut '|' (type.elementText layout).toList :=
    h.uncut_elementText hNames hTexts hCore
  have hOne : (alternativesIn (type.elementText layout)).length ≤ 1 := by
    rw [alternativesIn, List.length_map]
    exact hUncut.length_parts_le
  refine ⟨hOne, fun hSeveral => ?_⟩
  by_cases hGrouped : type.isGrouped = true
  · rw [elementText, if_pos hGrouped]
  · -- without parentheses the text would have been cut
    rw [elementText, if_neg hGrouped] at hOne
    exact absurd hOne (Nat.not_le.mpr hSeveral)

/-- Behind a replacement at the core there are only suffixes. -/
theorem Unexpanded.exists_suffixes (h : type.Unexpanded world) (layout : Layout) {text : String}
    (hCore : type.core = .raw text) : ∃ suffixes, type.elementText layout = text ++ suffixes := by
  induction h with
  | replacement hFound =>
    obtain rfl := TsType.raw.inj hCore
    exact ⟨"", (String.append_empty ..).symm⟩
  | @container kind element hElement ih =>
    cases kind with
    | list =>
      obtain ⟨suffixes, hText⟩ := ih hCore
      have hSuffix : (TsType.container .list element).elementText layout =
          element.elementText layout ++ "[]" := renderMember_container layout .list element
      exact ⟨suffixes ++ "[]", by rw [hSuffix, hText, String.append_assoc]⟩
    | _ => cases hCore
  | _ => cases hCore

theorem Unexpanded.not_covered (h : type.Unexpanded world) {text : String}
    (hCore : type.core = .raw text) (hSeveral : 2 ≤ (alternativesIn text).length) :
    ¬type.Covered layout := by
  rintro ⟨hOne, -⟩
  obtain ⟨suffixes, hText⟩ := h.exists_suffixes layout hCore
  have hLonger : (alternativesIn text).length ≤
      (alternativesIn (type.elementText layout)).length := by
    rw [alternativesIn, alternativesIn, List.length_map, List.length_map, hText,
      String.toList_append]
    exact length_parts_le_append ..
  omega

end TsType

namespace World

open TsType

/-- The array suffixes of what a descriptor means outside of properties, at any depth: a suffix is
written behind the text of its element, and covers all of it unless there is a replacement in front
of it which shows several alternatives. -/
theorem suffix_covers (world : World) (text : String) (type : TsType) (layout : Layout)
    (kind : ContainerKind) (element : TsType)
    (hNames : ∀ entry ∈ world.registry, Text.Nested entry.1.toList)
    (hTexts : ∀ entry ∈ world.replacements, Text.Nested entry.2.toList)
    (hConvert : (world.convert none text).outcome = .ok type)
    (hKind : kind = .list ∨ kind = .nonEmptyList) (hHas : type.HasContainer kind element) :
    (∃ before after,
      type.render layout = before ++ (element.elementText layout ++ "[]") ++ after) ∧
    (∀ written, element.core = .raw written →
      ∃ atom, Table.find? world.replacements atom = some written) ∧
    ((∀ written, element.core = .raw written → Uncut '|' written.toList) →
      element.Covered layout) ∧
    (∀ written, element.core = .raw written → 2 ≤ (alternativesIn written).length →
      ¬element.Covered layout) := by
  obtain ⟨types, rfl, hTypes⟩ := convert_ok_outside hConvert
  have hType := unexpanded_ofAlternatives hTypes
  have hElement := hHas.unexpanded hType
  refine ⟨?_, fun written hCore => hElement.exists_replacement hCore,
    hElement.covered hNames hTexts, fun written hCore => hElement.not_covered hCore⟩
  obtain ⟨before, after, hText⟩ := hHas.exists_text layout hType
  obtain ⟨before', after', hSuffix⟩ := exists_suffix hKind (element.elementText layout)
  refine ⟨before ++ before', after' ++ after, ?_⟩
  rw [hType.render_eq, hText, hSuffix]
  simp only [String.append_assoc]

/-- A replacement whose bar stands in brackets. -/
def labelled : World :=
  ofNames [] [("Labels", "Record<string, string | number>")]

/-- A list of nullable lists of a replacement. -/
theorem labels_covered :
    (labelled.convert none "list<?Labels[]>").outcome =
      .ok (.container .list (.union [.container .list (.raw "Record<string, string | number>"),
        .null])) ∧
    (TsType.container .list (.union [.container .list (.raw "Record<string, string | number>"),
        .null])).render {} = "(Record<string, string | number>[] | null)[]" ∧
    (TsType.raw "Record<string, string | number>").Covered {} ∧
    (TsType.union [.container .list (.raw "Record<string, string | number>"), .null]).Covered
      {} := by
  have hTexts : ∀ entry ∈ labelled.replacements, Text.Nested entry.2.toList := by decide
  have hConvert : (labelled.convert none "list<?Labels[]>").outcome =
      .ok (.container .list (.union [.container .list (.raw "Record<string, string | number>"),
        .null])) := by
    decide +kernel
  have hCore : ∀ written, TsType.raw "Record<string, string | number>" = .raw written →
      Uncut '|' written.toList := by
    rintro _ ⟨⟩
    unfold Uncut
    decide
  obtain ⟨-, -, hInner, -⟩ := suffix_covers labelled _ _ {} .list _ (List.forall_mem_nil _) hTexts
    hConvert (.inl rfl) (.element (.member (.head _) .here))
  obtain ⟨-, -, hOuter, -⟩ := suffix_covers labelled _ _ {} .list _ (List.forall_mem_nil _) hTexts
    hConvert (.inl rfl) .here
  exact ⟨hConvert, rfl, hInner hCore, hOuter fun _ hUnion => by cases hUnion⟩

/-- A suffix behind a replacement with a bar covers its last alternative only, and so does one
behind a class name with a bracket that ends the parentheses. -/
theorem suffix_misses_alternatives :
    Text.Nested "string | number".toList ∧
    ((ofNames [] [("Id", "string | number")]).convert none "Id[]").outcome =
        .ok (.container .list (.raw "string | number")) ∧
      (TsType.container .list (.raw "string | number")).render {} = "string | number[]" ∧
      ¬(TsType.raw "string | number").Covered {} ∧
    ((ofNames [] [("Id", "string | number")]).convert none "non-empty-list<Id>").outcome =
        .ok (.container .nonEmptyList (.raw "string | number")) ∧
      (TsType.container .nonEmptyList (.raw "string | number")).render {} =
        "[string | number, ...string | number[]]" ∧
    ((ofNames ["a)"] []).convert none "list<list<?a)>>").outcome =
        .ok (.container .list (.container .list (.union [.reference "a)", .null]))) ∧
      (TsType.container .list (.container .list
        (.union [.reference "a)", .null]))).render {} = "(a) | null)[][]" ∧
      ¬(TsType.container .list (.union [.reference "a)", .null])).Covered {} := by
  have hBar : ¬(alternativesIn ((TsType.raw "string | number").elementText {})).length ≤ 1 := by
    decide
  have hBracket : ¬(alternativesIn ((TsType.container .list
      (.union [.reference "a)", .null])).elementText {})).length ≤ 1 := by
    decide
  refine ⟨by decide, ?_, rfl, fun hCovered => hBar hCovered.1, ?_, rfl, ?_, rfl,
    fun hCovered => hBracket hCovered.1⟩
  · decide +kernel
  · decide +kernel
  · decide +kernel

end World

end Ambient
