import Ambient.Proofs.Nullability

/-!
# Properties with a literal or a template

A literal or template marker is looked at before the atom that it is applied to, so every atom of
the descriptor becomes the text of the marker, the atom `null` like any other.  What the descriptor
keeps is its form: the number of its alternatives, and the `?` in front of each of them.

* `convert_of_overridden`: a descriptor in which one type stands for every atom always has a type,
  and that type is made of copies of the one, some of them nullable.
* `allowsNull_iff_of_marked`: so it lets `null` in just if some alternative starts with `?`, if
  there is no alternative at all, or if the text of the marker is itself `null`.
-/

namespace Ambient

/-- Types that let `null` in, where a text that is `null` counts as much as the keyword. -/
inductive TsType.AllowsNull : TsType → Prop
  | scalar {keyword : Scalar} (h : keyword ∈ [Scalar.null, .any, .unknown]) :
    AllowsNull (.scalar keyword)
  | raw : AllowsNull (.raw "null")
  | union {members : List TsType} {type : TsType} (hMember : type ∈ members)
    (h : AllowsNull type) : AllowsNull (.union members)

namespace TsType

theorem AdmitsNull.allowsNull {type : TsType} (h : type.AdmitsNull) : type.AllowsNull := by
  induction h with
  | scalar hKeyword => exact .scalar hKeyword
  | union hMember _ ih => exact .union hMember ih

theorem allowsNull_raw {text : String} : (raw text).AllowsNull ↔ text = "null" := by
  constructor
  · rintro ⟨⟩
    rfl
  · rintro rfl
    exact .raw

theorem allowsNull_union {members : List TsType} :
    (union members).AllowsNull ↔ ∃ type ∈ members, type.AllowsNull := by
  constructor
  · intro h
    cases h with
    | union hMember h => exact ⟨_, hMember, h⟩
  · rintro ⟨type, hMember, h⟩
    exact .union hMember h

/-- Alternatives let `null` in if one of them does, or if there is none. -/
theorem allowsNull_ofAlternatives {types : List TsType} :
    (ofAlternatives types).AllowsNull ↔ types = [] ∨ ∃ type ∈ types, type.AllowsNull := by
  unfold ofAlternatives
  split
  · have hUnknown : unknown.AllowsNull := .scalar (by decide)
    simp [hUnknown]
  · simp
  · rename_i hSome _
    rw [allowsNull_union]
    exact ⟨.inr, fun h => h.resolve_left hSome⟩

end TsType

/-! ## One type for every atom -/

/-- What an alternative becomes when a type stands for its atom. -/
def Alternative.standIn (type : TsType) : Alternative → TsType
  | .empty => .unknown
  | .word nullable _ | .malformed nullable _ _ | .container nullable _ _ _ =>
    Reading.nullableIf nullable type

namespace Reading

open Conversion Descriptor

variable {reading : Reading} {type : TsType}

theorem alternative_of_overridden (h : ∀ atom, reading.override? atom = some type)
    (part : Alternative) : reading.alternative part = pure (part.standIn type) := by
  -- the form of the alternative is not looked at, apart from the empty one
  cases part with
  | empty => rw [alternative]; rfl
  | word nullable atom => rw [alternative, h]; rfl
  | malformed nullable atom reason => rw [alternative, h]; rfl
  | container nullable atom kind element => rw [alternative, h]; rfl

/-- Where one type stands for every atom, a descriptor asks for nothing and always has a type. -/
theorem convert_of_overridden (h : ∀ atom, reading.override? atom = some type)
    (descriptor : Descriptor) : reading.convert descriptor =
      pure (.ofAlternatives (descriptor.map (Alternative.standIn type))) := by
  have hAll : ∀ parts : List Alternative,
      reading.alternatives parts = pure (parts.map (Alternative.standIn type)) := by
    intro parts
    induction parts with
    | nil => rw [alternatives]; rfl
    | cons first rest ih => rw [alternatives, alternative_of_overridden h, ih]; rfl
  rw [convert, hAll]
  rfl

/-- What a part of a descriptor becomes: nothing but its leading `?` is seen of it. -/
theorem standIn_alternativeOf (part : List Char) : (alternativeOf part).standIn type =
    if (unmark part).2.isEmpty then .unknown else nullableIf (unmark part).1 type := by
  rw [alternativeOf]
  by_cases hEmpty : (unmark part).2.isEmpty = true
  · rw [if_pos hEmpty, if_pos hEmpty]
    rfl
  · rw [if_neg hEmpty, if_neg hEmpty]
    cases arrayForm? (unmark part).2 with
    | none => rfl
    | some form => cases form <;> rfl

/-- A text that stands for the atom of a part lets `null` in just if a `?` in front of the atom does
or if it is the text `null`. -/
theorem allowsNull_standIn {part : List Char} (hSome : part ≠ []) (text : String) :
    ((alternativeOf part).standIn (.raw text)).AllowsNull ↔
      part.head? = some '?' ∨ text = "null" := by
  rw [standIn_alternativeOf]
  by_cases hMark : part.head? = some '?'
  · -- after the mark there is an atom, which becomes nullable, or nothing, which is unknown
    refine iff_of_true ?_ (.inl hMark)
    obtain ⟨rest, rfl⟩ := List.head?_eq_some_iff.mp hMark
    rw [unmark_mark]
    split
    · exact .scalar (by decide)
    · exact (TsType.admitsNull_nullable (.raw text)).allowsNull
  · have hAtom : ¬part.isEmpty = true := by simpa using hSome
    rw [unmark_of_ne hMark, if_neg hAtom]
    show (TsType.raw text).AllowsNull ↔ _
    rw [TsType.allowsNull_raw]
    exact ⟨.inr, fun h => h.resolve_left hMark⟩

/-- Where one text stands for every atom, the type of a descriptor lets `null` in just if some part
starts with `?`, if there is no part, or if the text is `null`. -/
theorem allowsNull_standIns (descriptor : List Char) (text : String) :
    (TsType.ofAlternatives
      ((parse descriptor).map (Alternative.standIn (.raw text)))).AllowsNull ↔
      (∃ part ∈ Text.parts '|' descriptor, part.head? = some '?') ∨
        Text.parts '|' descriptor = [] ∨ text = "null" := by
  have hSome : ∀ part ∈ Text.parts '|' descriptor, part ≠ [] := by
    intro part hPart
    rw [Text.parts_eq] at hPart
    simpa using (List.mem_filter.mp hPart).2
  rw [TsType.allowsNull_ofAlternatives, parse_eq_map, List.map_map, List.map_eq_nil_iff]
  constructor
  · rintro (hNone | ⟨type, hType, hNull⟩)
    · exact .inr (.inl hNone)
    · obtain ⟨part, hPart, rfl⟩ := List.mem_map.mp hType
      rcases (allowsNull_standIn (hSome part hPart) text).mp hNull with hMark | hText
      · exact .inl ⟨part, hPart, hMark⟩
      · exact .inr (.inr hText)
  · have hMember : ∀ part ∈ Text.parts '|' descriptor, part.head? = some '?' ∨ text = "null" →
        ∃ type ∈ (Text.parts '|' descriptor).map
          (Alternative.standIn (.raw text) ∘ alternativeOf), type.AllowsNull :=
      fun part hPart h =>
        ⟨_, List.mem_map_of_mem hPart, (allowsNull_standIn (hSome part hPart) text).mpr h⟩
    rintro (⟨part, hPart, hMark⟩ | hNone | hText)
    · exact .inr (hMember part hPart (.inl hMark))
    · exact .inl hNone
    · -- with the text `null` any part will do
      cases hParts : Text.parts '|' descriptor with
      | nil => exact .inl rfl
      | cons first rest =>
        rw [← hParts]
        exact .inr (hMember first (by rw [hParts]; exact .head _) (.inr hText))

end Reading

/-! ## Literals and templates -/

namespace World

/-- A template is written between backticks. -/
theorem template_ne_null (pattern : String) : Spelling.template pattern ≠ "null" := by
  intro h
  have hFirst : (Spelling.template pattern).toList.head? = some '`' := by
    rw [Spelling.template, String.toList_ofList]
    rfl
  rw [h] at hFirst
  revert hFirst
  decide

/-- A property with a literal or a template has one text for every atom.  That text is `null` just
if it is the text of the first literal. -/
theorem marked?_of_mem {property : Property} (hMarked : ∃ marker ∈ property.markers,
    marker ≠ .inline) (owner : Class) :
    ∃ text, Reading.marked? (some ⟨property, owner⟩) = some (.raw text) ∧
      (text = "null" ↔ property.literal?.map Spelling.literal = some "null") := by
  cases hLiteral : property.literal? with
  | some value => exact ⟨Spelling.literal value, by simp [Reading.marked?, hLiteral], by simp⟩
  | none =>
    cases hTemplate : property.template? with
    | some pattern =>
      refine ⟨Spelling.template pattern, by simp [Reading.marked?, hLiteral, hTemplate], ?_⟩
      simp [template_ne_null]
    | none =>
      -- without a literal and without a template all markers are of the third kind
      obtain ⟨marker, hMem, hOther⟩ := hMarked
      rw [Property.literal?, List.findSome?_eq_none_iff] at hLiteral
      rw [Property.template?, List.findSome?_eq_none_iff] at hTemplate
      cases marker with
      | literal value => cases hLiteral _ hMem
      | template pattern => cases hTemplate _ hMem
      | inline => exact absurd rfl hOther

/-- The type of a descriptor where a marker gives one text for every atom. -/
theorem outcome_of_marked {world : World} {path : List String} {scope : Scope} {marker : String}
    (hMarker : Reading.marked? (some scope) = some (.raw marker)) (text : String) :
    (world.convertWithin path (some scope) text).outcome =
      .ok (.ofAlternatives ((Descriptor.parse text.toList).map
        (Alternative.standIn (.raw marker)))) := by
  let reading : Reading :=
    { scope := some scope
      replacements := world.replacements
      named := world.named path [] ((some scope).any (·.property.isInline)) }
  have hOverride : ∀ atom, reading.override? atom = some (.raw marker) := by
    intro atom
    rw [Reading.override?, hMarker]
  exact congrArg Conversion.outcome (Reading.convert_of_overridden hOverride _)

/-- A property with a literal or a template has a type for every descriptor, whatever its class and
whatever is being expanded.  The type lets `null` in just if some part of the descriptor starts with
`?`, if the descriptor has no part at all, or if the first literal is written `null`.  A part that
is the word `null` makes no difference. -/
theorem allowsNull_iff_of_marked (world : World) (path : List String) (property : Property)
    (owner : Class) (text : String) (hMarked : ∃ marker ∈ property.markers, marker ≠ .inline) :
    ∃ type, (world.convertWithin path (some ⟨property, owner⟩) text).outcome = .ok type ∧
      (type.AllowsNull ↔
        (∃ part ∈ Text.parts '|' text.toList, part.head? = some '?') ∨
          Text.parts '|' text.toList = [] ∨
          property.literal?.map Spelling.literal = some "null") := by
  obtain ⟨marker, hMarker, hNull⟩ := marked?_of_mem hMarked owner
  refine ⟨_, outcome_of_marked hMarker text, ?_⟩
  rw [← hNull]
  exact Reading.allowsNull_standIns text.toList marker

/-- A property whose type is a template, with a class that it would expand in place otherwise. -/
def serial : Property where
  name := "serial"
  markers := [.inline, .template "no-{number}"]

theorem serial_allowsNull :
    (∃ marker ∈ serial.markers, marker ≠ .inline) ∧
    ∃ type, (household.convertWithin [] (some ⟨serial, sibling⟩)
      "int | ? app::Child").outcome = .ok type ∧ type.AllowsNull := by
  have hMarked : ∃ marker ∈ serial.markers, marker ≠ .inline := ⟨.template "no-{number}", by decide⟩
  obtain ⟨type, hType, hNull⟩ :=
    allowsNull_iff_of_marked household [] serial sibling "int | ? app::Child" hMarked
  exact ⟨hMarked, type, hType, hNull.mpr (.inl (by decide +kernel))⟩

/-- A property whose type is the string `unset`. -/
def unset : Property where
  name := "unset"
  markers := [.literal (.text "unset")]

/-- With a literal `?string` lets `null` in and `string|null` does not. -/
theorem literal_hides_null :
    "null".toList ∈ Text.parts '|' "string|null".toList ∧
    (household.convert (some ⟨unset, sibling⟩) "string|null").outcome =
      .ok (.union [.raw "\"unset\"", .raw "\"unset\""]) ∧
    ¬(TsType.union [.raw "\"unset\"", .raw "\"unset\""]).AllowsNull ∧
    (household.convert (some ⟨unset, sibling⟩) "?string").outcome =
      .ok (.union [.raw "\"unset\"", .null]) ∧
    (TsType.union [.raw "\"unset\"", .null]).AllowsNull := by
  have hMarker : Reading.marked? (some ⟨unset, sibling⟩) = some (.raw "\"unset\"") := rfl
  -- each part becomes the text of the literal, with its own `?`
  have hUnion : Text.parts '|' "string|null".toList = ["string".toList, "null".toList] := by
    decide +kernel
  have hMarked : Text.parts '|' "?string".toList = ["?string".toList] := by decide +kernel
  refine ⟨?_, ?_, fun hNull => ?_, ?_, ?_⟩
  · rw [hUnion]
    exact .tail _ (.head _)
  · rw [convert, outcome_of_marked hMarker, Descriptor.parse_eq_map, hUnion]
    rfl
  · obtain ⟨type, hType, hNull⟩ := TsType.allowsNull_union.mp hNull
    obtain rfl : type = .raw "\"unset\"" := by simpa using hType
    exact absurd (TsType.allowsNull_raw.mp hNull) (by decide)
  · rw [convert, outcome_of_marked hMarker, Descriptor.parse_eq_map, hMarked]
    rfl
  · exact .union (.tail _ (.head _)) (.scalar (by decide))

end World

end Ambient
