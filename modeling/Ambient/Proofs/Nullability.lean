import Ambient.Proofs.Denotation

/-!
# Nullability is kept

A declared type that lets `null` in leads to a TypeScript type that does, unless a marker takes the
place of every alternative.  The fact goes through three stages, each with a lemma of its own: the
choice between the declared and the documented type (`isNullable_choose`), the replacement of
pseudo-types (`isNullable_substitute?`), and the conversion (`admitsNull_of_isNullable`).
-/

namespace Ambient

/-- Types that let `null` in: the keywords that do, and unions with such a member. -/
inductive TsType.AdmitsNull : TsType → Prop
  | scalar {keyword : Scalar} (h : keyword ∈ [Scalar.null, .any, .unknown]) :
    AdmitsNull (.scalar keyword)
  | union {members : List TsType} {type : TsType} (hMember : type ∈ members)
    (h : AdmitsNull type) : AdmitsNull (.union members)

namespace TsType

theorem admitsNull_nullable (type : TsType) : type.nullable.AdmitsNull := by
  have hNull : (scalar .null).AdmitsNull := .scalar (by decide)
  have hUnion : (union [type, null]).AdmitsNull := .union (.tail _ (.head _)) hNull
  unfold nullable
  split
  · rename_i keyword
    split
    · rename_i hKeyword
      refine .scalar ?_
      revert hKeyword
      cases keyword <;> decide
    · exact hUnion
  · exact hUnion

theorem admitsNull_ofAlternatives {types : List TsType} {type : TsType} (hMem : type ∈ types)
    (h : type.AdmitsNull) : (ofAlternatives types).AdmitsNull := by
  unfold ofAlternatives
  split
  · cases hMem
  · exact List.mem_singleton.mp hMem ▸ h
  · exact .union hMem h

end TsType

namespace Descriptor

open Text

/-! ## Nullable descriptors -/

/-- A descriptor is nullable just if one of its pieces is, apart from the blanks around it. -/
theorem isNullable_iff {text : List Char} : isNullable text = true ↔
    ∃ piece ∈ (pieces '|' 0 text).1 :: (pieces '|' 0 text).2, admitsNull (trim piece) = true := by
  rw [isNullable, parts_eq, List.any_eq_true]
  constructor
  · rintro ⟨part, hPart, hNull⟩
    obtain ⟨piece, hPiece, rfl⟩ := List.mem_map.mp (List.mem_filter.mp hPart).1
    exact ⟨piece, hPiece, hNull⟩
  · rintro ⟨piece, hPiece, hNull⟩
    refine ⟨trim piece, List.mem_filter.mpr ⟨List.mem_map_of_mem hPiece, ?_⟩, hNull⟩
    -- an empty part is not nullable
    cases hTrim : trim piece with
    | nil => rw [hTrim] at hNull; revert hNull; decide
    | cons c rest => rfl

theorem isNullable_trim (text : List Char) : isNullable (trim text) = isNullable text := by
  rw [isNullable, isNullable, parts_trim rfl]

theorem isNullable_mark (text : List Char) : isNullable ('?' :: text) = true := by
  refine isNullable_iff.mpr ⟨_, List.mem_cons_self .., ?_⟩
  rw [pieces_cons_of_not_cut (by decide), admitsNull, head?_trim (by decide)]
  rfl

/-- A documented type with nested brackets lets `null` in once it is made to. -/
theorem isNullable_makeNullable {documented : List Char} (h : Nested documented) :
    isNullable (makeNullable documented) = true := by
  unfold makeNullable
  split
  · assumption
  · split
    · exact isNullable_mark _
    · -- no bracket is open where the new alternative is added
      show isNullable (documented ++ '|' :: "null".toList) = true
      rw [isNullable, parts_append_separator (by decide) (h.depthAfterAll 0), List.any_append]
      have hNew : (parts '|' "null".toList).any admitsNull = true := by decide
      rw [hNew, Bool.or_true]

/-- The descriptor that counts for a property is nullable if the declared one is. -/
theorem isNullable_choose {declared documented : Option String}
    (hDeclared : isNullable (declared.getD "").toList = true)
    (hDocumented : Nested (documented.getD "").toList) :
    isNullable (choose declared documented) = true := by
  unfold choose
  dsimp only
  rw [← isNullable_trim] at hDeclared
  split
  · exact hDeclared
  · exact isNullable_makeNullable hDocumented.trim

/-! ## Pseudo-types -/

section Substitute

variable {self : String} {parent : Option String} {text text' : List Char}

/-- A leading `?` stays in front when names are put in the place of pseudo-types. -/
theorem head?_trim_substitute? (h : substitute? self parent text = some text')
    (hMark : (trim text).head? = some '?') : (trim text').head? = some '?' := by
  induction text using wordInduction generalizing text' with
  | word text hText =>
    obtain ⟨before, after, hTrim, -, -⟩ := exists_trim text
    have hMem : '?' ∈ text := by
      rw [hTrim]
      exact List.mem_append_left _ (List.mem_append_right _ (List.mem_of_mem_head? hMark))
    exact absurd rfl (hText.ne hMem (by decide))
  | mark text c rest hText hNoWord ih =>
    obtain ⟨word, rest', hWord, hRest, rfl⟩ := (substitute?_mark hText hNoWord).mp h
    cases text with
    | cons first others =>
      -- a text that starts with a word does not start with the mark
      have hFirst : isBlank first = false := isBlank_of_isWordChar (hText first (.head _))
      rw [List.cons_append, head?_trim hFirst] at hMark
      exact absurd (Option.some.inj hMark) (hText.ne (.head _) (by decide))
    | nil =>
      obtain rfl : [] = word := Option.some.inj hWord
      rw [List.nil_append] at hMark ⊢
      cases hBlank : isBlank c with
      | true =>
        have hSingle : ∀ other ∈ [c], isBlank other = true := by simpa using hBlank
        rw [← List.singleton_append, trim_append_left hSingle] at hMark ⊢
        exact ih hRest hMark
      | false =>
        rw [head?_trim hBlank] at hMark ⊢
        exact hMark

theorem admitsNull_substitute? (h : substitute? self parent text = some text')
    (hNull : admitsNull (trim text) = true) : admitsNull (trim text') = true := by
  simp only [admitsNull, Bool.or_eq_true, beq_iff_eq] at hNull ⊢
  rcases hNull with hMark | hWord
  · exact .inl (head?_trim_substitute? h hMark)
  · -- the word `null` has none of the letters that make a pseudo-type
    have hText : trim text = "null".toList := by rw [← hWord, String.toList_ofList]
    have hLetter : ∀ c, isBlank c = false → c ∉ "null".toList → c ∉ text :=
      fun c hBlank hOther hMem => hOther (hText ▸ mem_trim hMem hBlank)
    rw [substitute?_of_not_mem (hLetter 's' (by decide) (by decide))
      (hLetter 'p' (by decide) (by decide))] at h
    exact .inr (Option.some.inj h ▸ hWord)

/-- A nullable descriptor stays so when names are put in the place of pseudo-types. -/
theorem isNullable_substitute? (hSelf : IsWord self.toList)
    (hParent : ∀ name, parent = some name → IsWord name.toList)
    (h : substitute? self parent text = some text') (hNull : isNullable text = true) :
    isNullable text' = true := by
  obtain ⟨piece, hPiece, hNull⟩ := isNullable_iff.mp hNull
  obtain ⟨piece', hPiece', hSame⟩ :=
    exists_mem_of_forall₂ (pieces_substitute? hSelf hParent (by decide) h 0) hPiece
  exact isNullable_iff.mpr ⟨piece', hPiece', admitsNull_substitute? hSame hNull⟩

end Substitute

end Descriptor

/-! ## Conversion -/

namespace Reading

open Conversion Descriptor Text

variable {reading : Reading}

/-- What a part after a `?` gives is unknown or has been made nullable. -/
theorem alternative_mark_ok {part : List Char} {type : TsType}
    (h : (reading.alternative (alternativeOf ('?' :: part))).outcome = .ok type) :
    type.AdmitsNull := by
  have hNullable : ∀ conversion : Conversion TsType,
      (nullableIf true <$> conversion).outcome = .ok type → type.AdmitsNull := by
    intro conversion hOk
    obtain ⟨base, -, rfl⟩ := map_ok hOk
    exact TsType.admitsNull_nullable base
  have hUnmark : unmark ('?' :: part) = (true, trim part) := rfl
  simp only [alternativeOf, hUnmark] at h
  split at h
  · rw [alternative] at h
    obtain rfl : TsType.unknown = type := Except.ok.inj h
    exact .scalar (by decide)
  · split at h <;> rw [alternative] at h <;> exact hNullable _ h

/-- Where nothing takes the place of `null`, a nullable descriptor has a type that admits it. -/
theorem admitsNull_of_isNullable (hFree : reading.override? "null" = none) {text : List Char}
    {type : TsType} (hNull : isNullable text = true)
    (h : (reading.convert (parse text)).outcome = .ok type) : type.AdmitsNull := by
  obtain ⟨types, hTypes, rfl⟩ := map_ok h
  obtain ⟨part, hPart, hNull⟩ := List.any_eq_true.mp hNull
  have hMem : alternativeOf part ∈ parse text := parse_eq_map text ▸ List.mem_map_of_mem hPart
  obtain ⟨type, hType, hOk⟩ := exists_mem_of_forall₂ (forall₂_of_alternatives_ok hTypes) hMem
  refine TsType.admitsNull_ofAlternatives hType ?_
  simp only [admitsNull, Bool.or_eq_true, beq_iff_eq] at hNull
  rcases hNull with hMark | hWord
  · obtain ⟨rest, rfl⟩ := List.head?_eq_some_iff.mp hMark
    exact alternative_mark_ok hOk
  · obtain rfl : part = "null".toList := by rw [← hWord, String.toList_ofList]
    -- the keyword is read as such
    have hAlternative : alternativeOf "null".toList = .word false "null" :=
      Plain.alternativeOf_eq (by decide) (by decide) (by decide)
    rw [hAlternative, alternative, hFree] at hOk
    obtain rfl : TsType.null = type := Except.ok.inj hOk
    exact .scalar (by decide)

end Reading

namespace World

open Descriptor

theorem marked?_eq_none {property : Property} (hLiteral : property.literal? = none)
    (hTemplate : property.template? = none) (owner : Class) :
    Reading.marked? (some ⟨property, owner⟩) = none := by
  simp [Reading.marked?, hLiteral, hTemplate]

/-- A property without a literal or a template, in a class whose name and whose parent's name are
words, keeps its nullability: if some alternative of its declared type starts with `?` or is `null`,
then the type that its descriptor has, if it has one, admits `null`.  This holds whatever the
property is documented to be, as long as the brackets in its documented type are nested, and
whatever is being expanded, if nothing replaces `null`. -/
theorem nullability_kept (world : World) (path : List String) (property : Property) (owner : Class)
    (declared : String) (text : List Char) (type : TsType)
    (hLiteral : property.literal? = none) (hTemplate : property.template? = none)
    (hFree : Table.find? world.replacements "null" = none)
    (hName : IsWord owner.name.toList)
    (hParent : ∀ parent, owner.parent = some parent → IsWord parent.toList)
    (hDeclared : property.declared = some declared)
    (hNull : ∃ part ∈ Text.parts '|' declared.toList,
      part.head? = some '?' ∨ part = "null".toList)
    (hDocumented : ∀ documented, property.documented = some documented →
      Text.Nested documented.toList)
    (hResolve : resolve property owner = .ok text)
    (hConvert : (world.convertWithin path (some ⟨property, owner⟩)
      (String.ofList text)).outcome = .ok type) : type.AdmitsNull := by
  have hDeclaredNull : isNullable (property.declared.getD "").toList = true := by
    obtain ⟨part, hPart, hNull⟩ := hNull
    rw [hDeclared]
    refine List.any_eq_true.mpr ⟨part, hPart, ?_⟩
    rcases hNull with hMark | rfl
    · simp [admitsNull, hMark]
    · decide
  -- without documentation there are no brackets to be nested
  have hNested : Text.Nested (property.documented.getD "").toList := by
    cases hCase : property.documented with
    | none => decide
    | some documented => exact hDocumented documented hCase
  have hChosen := isNullable_choose hDeclaredNull hNested
  have hResolved := isNullable_substitute? hName hParent (resolve_ok_iff.mp hResolve) hChosen
  unfold World.convertWithin at hConvert
  rw [String.toList_ofList] at hConvert
  refine Reading.admitsNull_of_isNullable ?_ hResolved hConvert
  simp [Reading.override?, marked?_eq_none hLiteral hTemplate owner, hFree]

/-- A list that may be missing, of which the documentation says that it holds the own class. -/
def siblings : Property where
  name := "siblings"
  declared := some "?array"
  documented := some "list<self>"

def sibling : Class where
  name := "app::Child"
  shape := .record [siblings]
  parent := some "app::Base"

def household : World := { registry := [("app::Child", sibling)], replacements := [] }

theorem siblings_nullable :
    resolve siblings sibling = .ok "?list<app::Child>".toList ∧
    (household.convertWithin [] (some ⟨siblings, sibling⟩)
      (String.ofList "?list<app::Child>".toList)).outcome =
        .ok (.union [.container .list (.reference "app::Child"), .null]) ∧
    (TsType.union [.container .list (.reference "app::Child"), .null]).AdmitsNull := by
  have hResolve : resolve siblings sibling = .ok "?list<app::Child>".toList :=
    resolve_ok_iff.mpr (by decide +kernel)
  have hConvert : (household.convertWithin [] (some ⟨siblings, sibling⟩)
      (String.ofList "?list<app::Child>".toList)).outcome =
        .ok (.union [.container .list (.reference "app::Child"), .null]) := by
    -- read off the reading rules, without evaluating the conversion
    have hReading := household.undisturbed [] rfl siblings sibling rfl
    have hName : IsClassName "app::Child".toList := ⟨by decide, by decide⟩
    have hClass := Reading.reads_className hReading hName
    have hList := hClass.container hReading hClass.solid.listOf (alternativeOf_listOf hClass.solid)
    exact (hList.mark (by decide)).convert
  have hParent : ∀ parent, sibling.parent = some parent → IsWord parent.toList := by
    rintro parent ⟨⟩
    decide +kernel
  have hDocumented : ∀ documented, siblings.documented = some documented →
      Text.Nested documented.toList := by
    rintro documented ⟨⟩
    decide +kernel
  have hNull : ∃ part ∈ Text.parts '|' "?array".toList,
      part.head? = some '?' ∨ part = "null".toList := by decide +kernel
  exact ⟨hResolve, hConvert, nullability_kept household [] siblings sibling "?array" _ _ rfl rfl rfl
    (by decide +kernel) hParent rfl hNull hDocumented hResolve hConvert⟩

end World

end Ambient
