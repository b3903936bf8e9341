import Ambient.Proofs.Expansion
import Ambient.Proofs.Parsing
import Ambient.Proofs.PseudoTypes
import Ambient.Proofs.QualifiedName

/-!
# What descriptors denote

The form of a descriptor tells which type it stands for, from the words and class names in it
outwards.  This reading of the text is the relation `Denotes`.  The conversion agrees with it once
the own class has been named (`Denotes.reads`), if neither a marker nor a replacement interferes
(`Reading.Undisturbed`).
-/

namespace Ambient

open Descriptor Text

/-- What the name of a class denotes: a reference, if the class is known. -/
def classType (registry : Registry) (name : String) : TsType :=
  if (Table.find? registry name).isSome then .reference name else .unknown

/-- The descriptors of single words, with the keywords they denote. -/
def scalarWords : List (String × Scalar) :=
  [("int", .number), ("float", .number), ("bool", .boolean), ("string", .string), ("null", .null),
   ("mixed", .any)]

/-- The type that a descriptor denotes by its form, in a class named `owner`. -/
inductive Denotes (registry : Registry) (owner : String) : String → TsType → Prop
  | scalar {word : String} {keyword : Scalar} (h : (word, keyword) ∈ scalarWords) :
    Denotes registry owner word (.scalar keyword)
  | ownClass : Denotes registry owner "self" (classType registry owner)
  /-- A path of two or more names. -/
  | path {segments : List String} (hLength : 2 ≤ segments.length)
    (hSegments : ∀ segment ∈ segments, Spelling.isIdentifier segment.toList = true) :
    Denotes registry owner (QualifiedName.ofSegments segments)
      (classType registry (QualifiedName.ofSegments segments))
  /-- The mark is not put twice. -/
  | nullable {inner : String} {type : TsType} (hInner : Denotes registry owner inner type)
    (hMark : inner.toList.head? ≠ some '?') :
    Denotes registry owner ("?" ++ inner) type.nullable
  | list {inner : String} {type : TsType} (hInner : Denotes registry owner inner type) :
    Denotes registry owner ("list<" ++ inner ++ ">") (.container .list type)
  | map {inner : String} {type : TsType} (hInner : Denotes registry owner inner type) :
    Denotes registry owner ("array<string, " ++ inner ++ ">") (.container .stringMap type)

theorem toList_mark (inner : String) : ("?" ++ inner).toList = '?' :: inner.toList := by
  rw [String.toList_append]
  rfl

theorem toList_list (inner : String) : ("list<" ++ inner ++ ">").toList = listOf inner.toList := by
  rw [String.toList_append, String.toList_append]
  rfl

theorem toList_map (inner : String) :
    ("array<string, " ++ inner ++ ">").toList = mapOf inner.toList := by
  rw [String.toList_append, String.toList_append]
  rfl

/-! ## Names of classes -/

/-- A text that names a class and nothing else: no keyword has a colon. -/
structure IsClassName (text : List Char) : Prop where
  plain : Plain text
  colon : ':' ∈ text

/-- The digits and letters of ASCII. -/
theorem isAlphanumeric_ascii : ∀ codePoint < 0x80,
    48 ≤ codePoint ∧ codePoint ≤ 57 ∨ 65 ≤ codePoint ∧ codePoint ≤ 90 ∨
      97 ≤ codePoint ∧ codePoint ≤ 122 →
    within false Boundaries.alphanumeric codePoint = true := by
  decide +kernel

theorem isWordChar_of_continuesIdentifier {c : Char} (h : Spelling.continuesIdentifier c = true) :
    isWordChar c = true := by
  -- letters and digits are told by their codes, and the two marks are checked
  have hAscii : 48 ≤ c.toNat ∧ c.toNat ≤ 57 ∨ 65 ≤ c.toNat ∧ c.toNat ≤ 90 ∨
      97 ≤ c.toNat ∧ c.toNat ≤ 122 → isWordChar c = true := by
    intro hCode
    have hLetter : isAlphanumeric c = true := isAlphanumeric_ascii c.toNat (by omega) hCode
    rw [isWordChar, hLetter]
    rfl
  simp only [Spelling.continuesIdentifier, Spelling.startsIdentifier, Spelling.isLetter,
    Spelling.isDigit, Bool.or_eq_true, Bool.and_eq_true, decide_eq_true_eq, beq_iff_eq,
    Char.le_def, UInt32.le_iff_toNat_le] at h
  rcases h with (((h | h) | rfl) | rfl) | h
  · exact hAscii (.inr (.inr h))
  · exact hAscii (.inr (.inl h))
  · decide +kernel
  · decide +kernel
  · exact hAscii (.inl h)

theorem isWord_of_isIdentifier {text : List Char} (h : Spelling.isIdentifier text = true) :
    IsWord text := by
  cases text with
  | nil => cases h
  | cons first rest =>
    simp only [Spelling.isIdentifier, Bool.and_eq_true, List.all_eq_true] at h
    intro c hc
    refine isWordChar_of_continuesIdentifier ?_
    rcases List.mem_cons.mp hc with rfl | hc
    · rw [Spelling.continuesIdentifier, h.1, Bool.true_or]
    · exact h.2 c hc

theorem plain_of_isWord {text : List Char} (h : IsWord text) : Plain text := by
  intro c hc
  refine ⟨isBlank_of_isWordChar (h c hc), fun hMark => ?_⟩
  have hOther : marks.all (!isWordChar ·) = true := by decide +kernel
  have hc' : isWordChar c = false := by simpa using List.all_eq_true.mp hOther c hMark
  exact h.ne hc hc' rfl

/-- No blank and no mark is part of a name in a source. -/
theorem plain_of_continuesName {text : List Char} (h : ∀ c ∈ text, continuesName c = true) :
    Plain text := by
  have hTable : ∀ codePoint ∈ blanks ++ marks.map Char.toNat,
      within false Boundaries.identifierContinue codePoint = false := by
    decide +kernel
  intro c hc
  have hSpecial : c.toNat ∉ blanks ++ marks.map Char.toNat := by
    intro hMem
    exact Bool.false_ne_true ((hTable _ hMem).symm.trans (h c hc))
  rw [List.mem_append, not_or] at hSpecial
  refine ⟨?_, fun hMark => hSpecial.2 (List.mem_map_of_mem hMark)⟩
  by_contra hBlank
  exact hSpecial.1 (mem_blanks (Bool.not_eq_false _ ▸ hBlank))

/-- A join of two or more names is the name of a class. -/
theorem isClassName_ofSegments {segments : List String} (hLength : 2 ≤ segments.length)
    (hSegments : ∀ segment ∈ segments, segment ≠ "" ∧ Plain segment.toList) :
    IsClassName (QualifiedName.ofSegments segments).toList := by
  rw [QualifiedName.ofSegments_eq fun segment hSegment => (hSegments segment hSegment).1]
  refine ⟨fun c hc => ?_, QualifiedName.colon_mem_intercalate hLength⟩
  rcases QualifiedName.mem_intercalate hc with rfl | ⟨segment, hSegment, hc⟩
  · decide
  · exact (hSegments segment hSegment).2 c hc

theorem plain_of_isIdentifier {name : String} (h : Spelling.isIdentifier name.toList = true) :
    name ≠ "" ∧ Plain name.toList := by
  refine ⟨?_, plain_of_isWord (isWord_of_isIdentifier h)⟩
  rintro rfl
  cases h

theorem isClassName_path {segments : List String} (hLength : 2 ≤ segments.length)
    (hSegments : ∀ segment ∈ segments, Spelling.isIdentifier segment.toList = true) :
    IsClassName (QualifiedName.ofSegments segments).toList :=
  isClassName_ofSegments hLength fun segment hSegment =>
    plain_of_isIdentifier (hSegments segment hSegment)

/-- A path of names is not taken apart into words. -/
theorem isWord_ofSegments {segments : List String}
    (hSegments : ∀ segment ∈ segments, Spelling.isIdentifier segment.toList = true) :
    IsWord (QualifiedName.ofSegments segments).toList := by
  rw [QualifiedName.ofSegments_eq fun segment hSegment =>
    (plain_of_isIdentifier (hSegments segment hSegment)).1]
  intro c hc
  rcases QualifiedName.mem_intercalate hc with rfl | ⟨segment, hSegment, hc⟩
  · decide +kernel
  · exact isWord_of_isIdentifier (hSegments segment hSegment) c hc

/-! ## Reading what a text denotes -/

namespace IsClassName

variable {text : List Char}

theorem ne (h : IsClassName text) {word : List Char} (hWord : ':' ∉ word) : text ≠ word := by
  rintro rfl
  exact hWord h.colon

theorem ne_nil (h : IsClassName text) : text ≠ [] := h.ne List.not_mem_nil

theorem not_mem_pseudoTypes (h : IsClassName text) : text ∉ pseudoTypes := by
  intro hMem
  have hColon : ∀ word ∈ pseudoTypes, ':' ∉ word := by decide
  exact hColon text hMem h.colon

theorem keyword?_eq_none {name : String} (h : IsClassName name.toList) :
    Reading.keyword? name = none := by
  unfold Reading.keyword?
  split
  all_goals first | rfl | exact absurd h.colon (by decide)

/-- The name of a class is read as such. -/
theorem word_eq {name : String} (h : IsClassName name.toList) (reading : Reading) :
    reading.word name = reading.named name := by
  have hExpressible : name ∉ Reading.inexpressible := by
    intro hMem
    have hColon : ∀ word ∈ Reading.inexpressible, ':' ∉ word.toList := by decide
    exact hColon name hMem h.colon
  rw [Reading.word, h.keyword?_eq_none, if_neg hExpressible]

end IsClassName

/-- A reading in which nothing takes the place of an atom and the name of a class denotes what it
does anywhere. -/
structure Reading.Undisturbed (reading : Reading) (registry : Registry) : Prop where
  override : ∀ atom, reading.override? atom = none
  named : ∀ name, (reading.named name).outcome = .ok (classType registry name)

/-- A text is read as a single alternative, which has the type. -/
structure Reading.Reads (reading : Reading) (text : List Char) (type : TsType) : Prop where
  solid : Solid text
  outcome : (reading.alternative (alternativeOf text)).outcome = .ok type

namespace Reading

open Conversion

variable {reading : Reading} {registry : Registry} {text : List Char} {type : TsType}

theorem Reads.alternatives (h : reading.Reads text type) :
    (reading.alternatives (parse text)).outcome = .ok [type] := by
  rw [h.solid.parse_eq, Reading.alternatives, bind_of_ok h.outcome]
  rfl

theorem Reads.convert (h : reading.Reads text type) :
    (reading.convert (parse text)).outcome = .ok type :=
  map_of_ok h.alternatives _

/-- A mark before a text makes its type nullable. -/
theorem Reads.mark (h : reading.Reads text type) (hMark : text.head? ≠ some '?') :
    reading.Reads ('?' :: text) type.nullable := by
  refine ⟨h.solid.mark, ?_⟩
  have hBoth : ∀ conversion : Conversion TsType,
      (nullableIf false <$> conversion).outcome = .ok type →
        (nullableIf true <$> conversion).outcome = .ok type.nullable := by
    intro conversion hOk
    obtain ⟨base, hBase, rfl⟩ := map_ok hOk
    exact map_of_ok hBase _
  -- the two texts are read as the same form of alternative
  have hOk := h.outcome
  simp only [alternativeOf, unmark_of_ne hMark, unmark_mark, h.solid.trim_eq] at hOk ⊢
  rw [if_neg (by simpa using h.solid.some)] at hOk ⊢
  split at hOk <;> rw [alternative] at hOk ⊢ <;> exact hBoth _ hOk

section Undisturbed

variable (hReading : reading.Undisturbed registry)
include hReading

theorem reads_word (hPlain : Plain text) (hSome : text ≠ []) (hName : text ≠ "array".toList)
    (hWord : (reading.word (String.ofList text)).outcome = .ok type) : reading.Reads text type := by
  refine ⟨hPlain.solid hSome, ?_⟩
  rw [hPlain.alternativeOf_eq hSome hName, alternative, hReading.override]
  exact map_of_ok hWord _

theorem reads_scalar {word : String} {keyword : Scalar} (h : (word, keyword) ∈ scalarWords) :
    reading.Reads word.toList (.scalar keyword) := by
  have hWords : ∀ entry ∈ scalarWords, Plain entry.1.toList ∧ entry.1.toList ≠ [] ∧
      entry.1.toList ≠ "array".toList ∧ keyword? entry.1 = some entry.2 := by
    decide +kernel
  obtain ⟨hPlain, hSome, hName, hKeyword⟩ := hWords _ h
  refine reads_word hReading hPlain hSome hName ?_
  rw [String.ofList_toList, Reading.word, hKeyword]
  rfl

theorem reads_className {name : String} (h : IsClassName name.toList) :
    reading.Reads name.toList (classType registry name) := by
  refine reads_word hReading h.plain h.ne_nil (h.ne (by decide)) ?_
  rw [String.ofList_toList, h.word_eq]
  exact hReading.named name

theorem Reads.container {kind : ContainerKind} {outer : List Char} (h : reading.Reads text type)
    (hSolid : Solid outer) {atom : String}
    (hForm : alternativeOf outer = .container false atom kind (parse text)) :
    reading.Reads outer (.container kind type) := by
  refine ⟨hSolid, ?_⟩
  rw [hForm, alternative, hReading.override]
  exact map_of_ok (map_of_ok h.alternatives _) _

end Undisturbed

end Reading

/-- A descriptor that denotes a type is read as a whole. -/
theorem Denotes.solid {registry : Registry} {owner descriptor : String} {type : TsType}
    (h : Denotes registry owner descriptor type) : Solid descriptor.toList := by
  -- each way to denote puts a solid text into one more pair of brackets or behind a mark
  induction h with
  | @scalar word keyword h =>
    have hWords : ∀ entry ∈ scalarWords, Plain entry.1.toList ∧ entry.1.toList ≠ [] := by
      decide +kernel
    obtain ⟨hPlain, hSome⟩ := hWords _ h
    exact hPlain.solid hSome
  | ownClass => exact Plain.solid (by decide) (by decide)
  | @path segments hLength hSegments =>
    have hName := isClassName_path hLength hSegments
    exact hName.plain.solid hName.ne_nil
  | @nullable inner type hInner hMark ih =>
    rw [toList_mark]
    exact ih.mark
  | @list inner type hInner ih =>
    rw [toList_list]
    exact ih.listOf
  | @map inner type hInner ih =>
    rw [toList_map]
    exact ih.mapOf

section Substitute

variable {self : String} {parent : Option String} {name text text' : List Char}

theorem substitute?_cons_mark {c : Char} (hMark : isWordChar c = false)
    (h : substitute? self parent text = some text') :
    substitute? self parent (c :: text) = some (c :: text') := by
  have hStep := @substitute?_append_mark self parent [] c hMark text
  rw [h] at hStep
  exact hStep

theorem substitute?_generic (hName : substitute? self parent name = some name)
    (h : substitute? self parent text = some text') :
    substitute? self parent (name ++ '<' :: (text ++ ['>'])) =
      some (name ++ '<' :: (text' ++ ['>'])) := by
  have hOpen : isWordChar '<' = false := by decide +kernel
  have hClose : isWordChar '>' = false := by decide +kernel
  rw [substitute?_append_mark _ hOpen, hName, substitute?_append_mark _ hClose, h]
  rfl

theorem substitute?_listOf (h : substitute? self parent text = some text') :
    substitute? self parent (listOf text) = some (listOf text') :=
  substitute?_generic (substitute?_of_word (by decide +kernel)) h

theorem substitute?_mapOf (h : substitute? self parent text = some text') :
    substitute? self parent (mapOf text) = some (mapOf text') := by
  have hComma : isWordChar ',' = false := by decide +kernel
  have hBlank : isWordChar ' ' = false := by decide +kernel
  refine substitute?_generic (substitute?_of_word (by decide +kernel)) ?_
  rw [substitute?_append_mark _ hComma, substitute?_of_word (by decide +kernel),
    substitute?_cons_mark hBlank h]
  rfl

end Substitute

/-- A descriptor that denotes a type is read as that type once the name of the owner is put in. -/
theorem Denotes.reads {registry : Registry} {owner descriptor : String} {type : TsType}
    (h : Denotes registry owner descriptor type) (hOwner : IsClassName owner.toList)
    (parent : Option String) {reading : Reading} (hReading : reading.Undisturbed registry) :
    ∃ text, substitute? owner parent descriptor.toList = some text ∧ reading.Reads text type ∧
      (text.head? = some '?' → descriptor.toList.head? = some '?') := by
  -- the form of the text stays the same, so each step of the derivation is a step of reading; that
  -- no mark comes in front is carried along, as the conversion takes off only one
  induction h with
  | @scalar word keyword h =>
    have hWords : ∀ entry ∈ scalarWords, IsWord entry.1.toList ∧
        entry.1.toList ∉ pseudoTypes := by decide +kernel
    exact ⟨word.toList, substitute?_of_word (hWords _ h), Reading.reads_scalar hReading h, id⟩
  | ownClass =>
    refine ⟨owner.toList, ?_, Reading.reads_className hReading hOwner, fun hMark => ?_⟩
    · rw [substitute?_word (by decide +kernel)]
      rfl
    · exact absurd hMark (hOwner.plain.head?_ne (by decide))
  | @path segments hLength hSegments =>
    have hName := isClassName_path hLength hSegments
    exact ⟨_, substitute?_of_word ⟨isWord_ofSegments hSegments, hName.not_mem_pseudoTypes⟩,
      Reading.reads_className hReading hName, id⟩
  | @nullable inner type hInner hMark ih =>
    obtain ⟨text, hText, hReads, hHead⟩ := ih
    rw [toList_mark]
    exact ⟨'?' :: text, substitute?_cons_mark (by decide +kernel) hText,
      hReads.mark fun hText => hMark (hHead hText), fun _ => rfl⟩
  | @list inner type hInner ih =>
    obtain ⟨text, hText, hReads, -⟩ := ih
    rw [toList_list]
    exact ⟨listOf text, substitute?_listOf hText, hReads.container hReading hReads.solid.listOf
      (alternativeOf_listOf hReads.solid), fun hHead => by cases hHead⟩
  | @map inner type hInner ih =>
    obtain ⟨text, hText, hReads, -⟩ := ih
    rw [toList_map]
    exact ⟨mapOf text, substitute?_mapOf hText, hReads.container hReading hReads.solid.mapOf
      (alternativeOf_mapOf hReads.solid), fun hHead => by cases hHead⟩

/-- Properties without markers are read without disturbance if nothing is replaced. -/
theorem World.undisturbed (world : World) (path : List String)
    (hReplacements : world.replacements = []) (property : Property) (owner : Class)
    (hMarkers : property.markers = []) :
    Reading.Undisturbed
      { scope := some ⟨property, owner⟩
        replacements := world.replacements
        named := world.named path [] property.isInline }
      world.registry where
  override atom := by
    simp [Reading.override?, Reading.marked?, Property.literal?, Property.template?, hMarkers,
      hReplacements]
  named name := by
    have hInline : property.isInline = false := by simp [Property.isInline, hMarkers]
    dsimp only
    rw [hInline, classType]
    cases hFound : Table.find? world.registry name with
    | none =>
      rw [named_unknown hFound]
      rfl
    | some c =>
      rw [named_refers hFound rfl]
      rfl

end Ambient
