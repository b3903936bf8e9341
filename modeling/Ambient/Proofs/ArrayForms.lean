import Ambient.Proofs.Parsing
import Mathlib.Data.List.Basic

/-!
# The shapes of array forms

What the atoms that denote containers look like, said without the steps by which they are read:

* `Element`: what is left of the text before a final `[]` when its blanks and one pair of
  parentheses around all of it are dropped;
* `KeyFor`: the kind of container that a key type asks for;
* `Holds`: an atom is a container with a certain element;
* `Malformed`: an atom has the shape of an array form and no meaning.

The last two are the two answers of `arrayForm?` (`arrayForm?_eq_container`,
`arrayForm?_eq_malformed`).
-/

namespace Ambient.Descriptor

open Text

/-! ## Parentheses around a text -/

/-- Whether a text leaves a parenthesis open that stands before it: no beginning of the text closes
more parentheses than it opens. -/
def KeepsOpen (text : List Char) : Prop :=
  ∀ start, start <+: text → start.count ')' ≤ start.count '('

/-- A fact about the beginnings of a text, by the first character. -/
theorem forall_prefix_cons {c : Char} {rest : List Char} {motive : List Char → Prop} :
    (∀ start, start <+: c :: rest → motive start) ↔
      motive [] ∧ ∀ start, start <+: rest → motive (c :: start) := by
  constructor
  · exact fun h => ⟨h [] List.nil_prefix, fun start hStart =>
      h _ ((List.prefix_cons_inj c).mpr hStart)⟩
  · rintro ⟨hNil, hCons⟩ start hStart
    rcases List.prefix_cons_iff.mp hStart with rfl | ⟨start', rfl, hStart'⟩
    · exact hNil
    · exact hCons start' hStart'

theorem closesEarly_eq_false_iff {depth : Nat} {text : List Char} :
    closesEarly depth text = false ↔
      ∀ start, start <+: text → start.count ')' ≤ depth + start.count '(' := by
  induction text generalizing depth with
  | nil => simp [closesEarly]
  | cons c rest ih =>
    rw [forall_prefix_cons]
    by_cases hOpens : c = '('
    · subst hOpens
      simp [closesEarly, ih, Nat.add_assoc, Nat.add_comm 1]
    by_cases hCloses : c = ')'
    · subst hCloses
      cases depth with
      | zero =>
        -- the parenthesis before the text is the one that is closed
        have hFirst : ¬([')'] : List Char).count ')' ≤ 0 + ([')'] : List Char).count '(' := by
          decide
        refine iff_of_false (by simp [closesEarly]) fun h => hFirst (h.2 [] List.nil_prefix)
      | succ depth =>
        simp [closesEarly, ih, Nat.add_right_comm depth 1]
    · simp [closesEarly, ih, hOpens, hCloses]

theorem keepsOpen_iff {text : List Char} : KeepsOpen text ↔ closesEarly 0 text = false := by
  rw [closesEarly_eq_false_iff]
  simp [KeepsOpen]

theorem unwrap_enclosed {inner : List Char} (h : KeepsOpen inner) :
    unwrap ('(' :: (inner ++ [')'])) = trim inner := by
  simp [unwrap, keepsOpen_iff.mp h]

theorem unwrap_bare {text : List Char}
    (h : ∀ inner, KeepsOpen inner → text ≠ '(' :: (inner ++ [')'])) : unwrap text = text := by
  unfold unwrap
  split
  · rename_i rest
    split
    · -- the parentheses would enclose the whole text
      rename_i hEnclosed
      simp only [Bool.and_eq_true, beq_iff_eq, Bool.not_eq_true'] at hEnclosed
      obtain ⟨hLast, hOpen⟩ := hEnclosed
      have hRest : rest.dropLast ++ [')'] = rest := List.dropLast_append_getLast? _ hLast
      exact absurd (by rw [hRest]) (h _ (keepsOpen_iff.mpr hOpen))
    · rfl
  · rfl

/-- A text without the blanks around it and without one pair of parentheses that encloses it. -/
inductive Element (text : List Char) : List Char → Prop
  | enclosed {inner : List Char} (hText : trim text = '(' :: (inner ++ [')']))
    (hOpen : KeepsOpen inner) : Element text (trim inner)
  | bare (hBare : ∀ inner, KeepsOpen inner → trim text ≠ '(' :: (inner ++ [')'])) :
    Element text (trim text)

theorem element_iff {text element : List Char} :
    Element text element ↔ unwrap (trim text) = element := by
  constructor
  · rintro (⟨hText, hOpen⟩ | hBare)
    · rw [hText, unwrap_enclosed hOpen]
    · exact unwrap_bare hBare
  · rintro rfl
    by_cases hEnclosed : ∃ inner, KeepsOpen inner ∧ trim text = '(' :: (inner ++ [')'])
    · obtain ⟨inner, hOpen, hText⟩ := hEnclosed
      rw [hText, unwrap_enclosed hOpen]
      exact .enclosed hText hOpen
    · have hBare : ∀ inner, KeepsOpen inner → trim text ≠ '(' :: (inner ++ [')']) :=
        fun inner hOpen hText => hEnclosed ⟨inner, hOpen, hText⟩
      rw [unwrap_bare hBare]
      exact .bare hBare

/-! ## Keys -/

/-- Whether a key type has a meaning: it is made of one or more of three words. -/
def IsKey (key : List Char) : Prop :=
  parts '|' key ≠ [] ∧ ∀ word ∈ parts '|' key, String.ofList word ∈ ["int", "string", "array-key"]

/-- The kind of container that a key type asks for. -/
inductive KeyFor (key : List Char) : ContainerKind → Prop
  | list (hSome : parts '|' key ≠ []) (hInt : ∀ word ∈ parts '|' key, String.ofList word = "int") :
    KeyFor key .list
  | stringMap
    (hWords : ∀ word ∈ parts '|' key, String.ofList word ∈ ["int", "string", "array-key"])
    (hOther : ∃ word ∈ parts '|' key, String.ofList word ≠ "int") : KeyFor key .stringMap

section Keys

variable {key : List Char} {kind : ContainerKind}

theorem KeyFor.isKey (h : KeyFor key kind) : IsKey key := by
  cases h with
  | list hSome hInt => exact ⟨hSome, fun word hWord => by rw [hInt word hWord]; decide⟩
  | stringMap hWords hOther =>
    obtain ⟨word, hWord, -⟩ := hOther
    exact ⟨List.ne_nil_of_mem hWord, hWords⟩

theorem KeyFor.keyed?_eq (h : KeyFor key kind) : keyed? key = some kind := by
  obtain ⟨hSome, hWords⟩ := h.isKey
  have hKey : ((parts '|' key).map String.ofList).isEmpty = false := by simpa using hSome
  have hAll : ((parts '|' key).map String.ofList).all
      (· ∈ ["int", "string", "array-key"]) = true := by
    simpa using hWords
  rw [keyed?]
  cases h with
  | list _ hInt =>
    have hInts : ((parts '|' key).map String.ofList).all (· == "int") = true := by simpa using hInt
    simp only [hKey, hAll, hInts, Bool.not_true, Bool.or_self, Bool.false_eq_true, if_false,
      if_true]
  | stringMap _ hOther =>
    have hInts : ((parts '|' key).map String.ofList).all (· == "int") = false := by
      simpa using hOther
    simp only [hKey, hAll, hInts, Bool.not_true, Bool.or_self, Bool.false_eq_true, if_false]

/-- Every key with a meaning asks for one kind or the other. -/
theorem IsKey.exists_keyFor (h : IsKey key) : ∃ kind, KeyFor key kind := by
  by_cases hInt : ∀ word ∈ parts '|' key, String.ofList word = "int"
  · exact ⟨.list, .list h.1 hInt⟩
  · refine ⟨.stringMap, .stringMap h.2 ?_⟩
    simpa using hInt

theorem keyed?_eq_some_iff : keyed? key = some kind ↔ KeyFor key kind := by
  refine ⟨fun h => ?_, KeyFor.keyed?_eq⟩
  have hKey : IsKey key := by
    unfold keyed? at h
    simp only at h
    split at h
    · cases h
    · rename_i hWords
      simpa [IsKey, or_iff_not_imp_left] using hWords
  obtain ⟨kind', hFor⟩ := hKey.exists_keyFor
  obtain rfl : kind' = kind := Option.some.inj (hFor.keyed?_eq.symm.trans h)
  exact hFor

theorem keyed?_eq_none_iff : keyed? key = none ↔ ¬IsKey key := by
  rw [← not_iff_not, ← ne_eq, Option.ne_none_iff_exists', not_not]
  constructor
  · rintro ⟨kind, hKind⟩
    exact (keyed?_eq_some_iff.mp hKind).isKey
  · intro hKey
    obtain ⟨kind, hFor⟩ := hKey.exists_keyFor
    exact ⟨kind, hFor.keyed?_eq⟩

end Keys

/-! ## Names -/

/-- A name with arguments between angle brackets. -/
def applied (name arguments : List Char) : List Char :=
  name ++ '<' :: (arguments ++ ['>'])

/-- Whether a text can stand before the angle brackets: it consists of ASCII letters and hyphens. -/
def IsGenericName (name : List Char) : Prop :=
  name ≠ [] ∧ ∀ c ∈ name, isGenericLetter c = true

/-- A name without regard to letter case. -/
def lowercase (name : List Char) : String :=
  String.ofList (name.map Char.toLower)

theorem isGenericLetter_of_toLower {c : Char} (h : isGenericLetter c.toLower = true) :
    isGenericLetter c = true := by
  unfold Char.toLower at h
  split at h
  · -- a capital is a letter whatever it becomes
    rename_i hCapital
    have hRange : ('A' ≤ c && c ≤ 'Z') = true := by
      simpa [Char.le_def] using hCapital
    simp [isGenericLetter, Spelling.isLetter, hRange]
  · exact h

theorem isGenericName_of_mem {name : List Char}
    (h : lowercase name ∈ ["list", "non-empty-list", "array"]) : IsGenericName name := by
  have hLetters : ∀ word ∈ ["list", "non-empty-list", "array"],
      word ≠ "" ∧ word.toList.all isGenericLetter = true := by decide
  obtain ⟨hSome, hAll⟩ := hLetters _ h
  refine ⟨?_, fun c hc => isGenericLetter_of_toLower ?_⟩
  · rintro rfl
    exact hSome rfl
  · refine List.all_eq_true.mp hAll _ ?_
    rw [lowercase, String.toList_ofList]
    exact List.mem_map_of_mem hc

/-! ## The forms -/

/-- Whether an atom is a container of a kind, with the text of its element. -/
inductive Holds : List Char → ContainerKind → List Char → Prop
  | brackets {before element : List Char} (hElement : Element before element)
    (hSome : element ≠ []) : Holds (before ++ ['[', ']']) .list element
  | list {name arguments element : List Char} (hName : lowercase name = "list")
    (hParts : parts ',' arguments = [element]) : Holds (applied name arguments) .list element
  | nonEmptyList {name arguments element : List Char} (hName : lowercase name = "non-empty-list")
    (hParts : parts ',' arguments = [element]) :
    Holds (applied name arguments) .nonEmptyList element
  | array {name arguments key value : List Char} {kind : ContainerKind}
    (hName : lowercase name = "array") (hParts : parts ',' arguments = [key, value])
    (hKey : KeyFor key kind) : Holds (applied name arguments) kind value

/-- Whether an atom has the shape of an array form but no meaning, and why. -/
inductive Malformed : List Char → Reason → Prop
  | bare : Malformed "array".toList .unsupportedArray
  | noElement {before : List Char} (hElement : Element before []) :
    Malformed (before ++ ['[', ']']) .unsupportedArray
  | oneArgument {name arguments : List Char} (hName : lowercase name ∈ ["list", "non-empty-list"])
    (hParts : ∀ element, parts ',' arguments ≠ [element]) :
    Malformed (applied name arguments) .oneArgumentExpected
  | twoArguments {name arguments : List Char} (hName : lowercase name = "array")
    (hParts : ∀ key value, parts ',' arguments ≠ [key, value]) :
    Malformed (applied name arguments) .twoArgumentsExpected
  | key {name arguments key value : List Char} (hName : lowercase name = "array")
    (hParts : parts ',' arguments = [key, value]) (hKey : ¬IsKey key) :
    Malformed (applied name arguments) .unsupportedArrayKey
  | otherName {name arguments : List Char} (hGeneric : IsGenericName name)
    (hName : lowercase name ∉ ["list", "non-empty-list", "array"]) :
    Malformed (applied name arguments) .unsupportedArray

section Forms

variable {name arguments : List Char}

/-! ### Reading -/

theorem beforeBrackets?_eq_some {atom before : List Char} :
    beforeBrackets? atom = some before ↔ atom = before ++ ['[', ']'] := by
  constructor
  · intro h
    unfold beforeBrackets? at h
    split at h
    · rename_i rest hReverse
      obtain rfl := Option.some.inj h
      rw [← List.reverse_reverse atom, hReverse]
      simp
    · cases h
  · rintro rfl
    simp [beforeBrackets?]

theorem generic?_eq_some {atom : List Char} (h : generic? atom = some (name, arguments)) :
    IsGenericName name ∧ atom = applied name arguments := by
  unfold generic? at h
  split at h
  · cases h
  · rename_i c rest hDrop
    dsimp only at h
    split at h
    · rename_i hShape
      simp only [Bool.and_eq_true, beq_iff_eq, Bool.not_eq_true', List.isEmpty_eq_false_iff,
        List.all_eq_true] at hShape
      obtain ⟨⟨hLast, hSome⟩, hLetters⟩ := hShape
      obtain ⟨rfl, rfl⟩ := Prod.mk.inj (Option.some.inj h)
      -- what the name is cut off at is an angle bracket
      have hOpens : c = '<' := by
        have hFirst := List.head?_dropWhile_not (· != '<') atom
        rw [hDrop] at hFirst
        simpa using hFirst
      have hRest : rest.dropLast ++ ['>'] = rest := List.dropLast_append_getLast? _ hLast
      refine ⟨⟨hSome, hLetters⟩, ?_⟩
      rw [applied, hRest, ← congrArg (· :: rest) hOpens, ← hDrop, List.takeWhile_append_dropWhile]
    · cases h

theorem arrayForm?_brackets (before : List Char) :
    arrayForm? (before ++ ['[', ']']) = some
      (if (unwrap (trim before)).isEmpty then .malformed .unsupportedArray
        else .container .list (unwrap (trim before))) := by
  rw [arrayForm?, beforeBrackets?_eq_some.mpr rfl]

theorem arrayForm?_applied (hName : IsGenericName name) :
    arrayForm? (applied name arguments) = some (ofGeneric name arguments) :=
  arrayForm?_generic (List.all_eq_true.mpr hName.2) hName.1

/-- An array form has one of three shapes. -/
theorem arrayForm?_cases {atom : List Char} {form : ArrayForm} (h : arrayForm? atom = some form) :
    (∃ before, atom = before ++ ['[', ']']) ∨
      (∃ name arguments, IsGenericName name ∧ atom = applied name arguments ∧
        ofGeneric name arguments = form) ∨
      (atom = "array".toList ∧ form = .malformed .unsupportedArray) := by
  unfold arrayForm? at h
  split at h
  · rename_i before hBefore
    exact .inl ⟨before, beforeBrackets?_eq_some.mp hBefore⟩
  · split at h
    · rename_i name arguments hGeneric
      obtain ⟨hName, hAtom⟩ := generic?_eq_some hGeneric
      exact .inr (.inl ⟨name, arguments, hName, hAtom, Option.some.inj h⟩)
    · split at h
      · rename_i hBare
        have hAtom : atom = "array".toList := by
          rw [← eq_of_beq hBare, String.toList_ofList]
        exact .inr (.inr ⟨hAtom, (Option.some.inj h).symm⟩)
      · cases h

/-! ### Names with a meaning -/

theorem ofGeneric_list (hName : lowercase name = "list") :
    ofGeneric name arguments = singleArgument .list arguments := by
  unfold lowercase at hName
  rw [ofGeneric, hName]
  rfl

theorem ofGeneric_nonEmptyList (hName : lowercase name = "non-empty-list") :
    ofGeneric name arguments = singleArgument .nonEmptyList arguments := by
  unfold lowercase at hName
  rw [ofGeneric, hName]
  rfl

theorem ofGeneric_array (hName : lowercase name = "array") :
    ofGeneric name arguments = keyAndValue arguments := by
  unfold lowercase at hName
  rw [ofGeneric, hName]
  rfl

theorem ofGeneric_other (hName : lowercase name ∉ ["list", "non-empty-list", "array"]) :
    ofGeneric name arguments = .malformed .unsupportedArray := by
  simp only [lowercase, List.mem_cons, List.not_mem_nil, or_false, not_or] at hName
  unfold ofGeneric
  split
  · exact absurd ‹_› hName.1
  · exact absurd ‹_› hName.2.1
  · exact absurd ‹_› hName.2.2
  · rfl

/-! ### Both answers -/

variable {atom element : List Char} {kind : ContainerKind} {reason : Reason}

theorem singleArgument_eq (hParts : parts ',' arguments = [element]) :
    singleArgument kind arguments = .container kind element := by
  rw [singleArgument, hParts]

theorem singleArgument_of_ne (hParts : ∀ element, parts ',' arguments ≠ [element]) :
    singleArgument kind arguments = .malformed .oneArgumentExpected := by
  unfold singleArgument
  split
  · exact absurd ‹_› (hParts _)
  · rfl

theorem keyAndValue_of_ne (hParts : ∀ key value, parts ',' arguments ≠ [key, value]) :
    keyAndValue arguments = .malformed .twoArgumentsExpected := by
  unfold keyAndValue
  split
  · exact absurd ‹_› (hParts _ _)
  · rfl

theorem Holds.arrayForm?_eq (h : Holds atom kind element) :
    arrayForm? atom = some (.container kind element) := by
  cases h with
  | brackets hElement hSome =>
    rw [arrayForm?_brackets, element_iff.mp hElement, if_neg (by simpa using hSome)]
  | list hName hParts =>
    rw [arrayForm?_applied (isGenericName_of_mem (by simp [hName])), ofGeneric_list hName,
      singleArgument_eq hParts]
  | nonEmptyList hName hParts =>
    rw [arrayForm?_applied (isGenericName_of_mem (by simp [hName])), ofGeneric_nonEmptyList hName,
      singleArgument_eq hParts]
  | array hName hParts hKey =>
    rw [arrayForm?_applied (isGenericName_of_mem (by simp [hName])), ofGeneric_array hName,
      keyAndValue, hParts]
    dsimp only
    rw [hKey.keyed?_eq]

theorem Malformed.arrayForm?_eq (h : Malformed atom reason) :
    arrayForm? atom = some (.malformed reason) := by
  cases h with
  | bare => decide
  | noElement hElement =>
    rw [arrayForm?_brackets, element_iff.mp hElement]
    rfl
  | oneArgument hName hParts =>
    rcases List.mem_pair.mp hName with hName | hName
    · rw [arrayForm?_applied (isGenericName_of_mem (by simp [hName])), ofGeneric_list hName,
        singleArgument_of_ne hParts]
    · rw [arrayForm?_applied (isGenericName_of_mem (by simp [hName])),
        ofGeneric_nonEmptyList hName, singleArgument_of_ne hParts]
  | twoArguments hName hParts =>
    rw [arrayForm?_applied (isGenericName_of_mem (by simp [hName])), ofGeneric_array hName,
      keyAndValue_of_ne hParts]
  | key hName hParts hKey =>
    rw [arrayForm?_applied (isGenericName_of_mem (by simp [hName])), ofGeneric_array hName,
      keyAndValue, hParts]
    dsimp only
    rw [keyed?_eq_none_iff.mpr hKey]
  | otherName hGeneric hName => rw [arrayForm?_applied hGeneric, ofGeneric_other hName]

/-- Every array form either holds an element or is malformed. -/
theorem holds_or_malformed {form : ArrayForm} (h : arrayForm? atom = some form) :
    (∃ kind element, Holds atom kind element) ∨ ∃ reason, Malformed atom reason := by
  rcases arrayForm?_cases h with ⟨before, rfl⟩ | ⟨name, arguments, hGeneric, rfl, -⟩ | ⟨rfl, -⟩
  · by_cases hSome : unwrap (trim before) = []
    · exact .inr ⟨_, .noElement (element_iff.mpr hSome)⟩
    · exact .inl ⟨_, _, .brackets (element_iff.mpr rfl) hSome⟩
  · -- the names of generics are tried in the order of `ofGeneric`
    have hOne : (∃ element, parts ',' arguments = [element]) ∨
        ∀ element, parts ',' arguments ≠ [element] := by
      rw [← not_exists]
      exact Classical.em _
    by_cases hList : lowercase name = "list"
    · rcases hOne with ⟨element, hParts⟩ | hParts
      · exact .inl ⟨_, _, .list hList hParts⟩
      · exact .inr ⟨_, .oneArgument (by simp [hList]) hParts⟩
    by_cases hNonEmpty : lowercase name = "non-empty-list"
    · rcases hOne with ⟨element, hParts⟩ | hParts
      · exact .inl ⟨_, _, .nonEmptyList hNonEmpty hParts⟩
      · exact .inr ⟨_, .oneArgument (by simp [hNonEmpty]) hParts⟩
    by_cases hArray : lowercase name = "array"
    · by_cases hTwo : ∃ key value, parts ',' arguments = [key, value]
      · obtain ⟨key, value, hParts⟩ := hTwo
        by_cases hKey : IsKey key
        · obtain ⟨kind, hFor⟩ := hKey.exists_keyFor
          exact .inl ⟨_, _, .array hArray hParts hFor⟩
        · exact .inr ⟨_, .key hArray hParts hKey⟩
      · exact .inr ⟨_, .twoArguments hArray fun key value hParts => hTwo ⟨key, value, hParts⟩⟩
    · exact .inr ⟨_, .otherName hGeneric (by simp [hList, hNonEmpty, hArray])⟩
  · exact .inr ⟨_, .bare⟩

theorem ne_nil_of_arrayForm? {form : ArrayForm} (h : arrayForm? atom = some form) : atom ≠ [] := by
  rintro rfl
  have hNone : arrayForm? [] = none := by decide
  cases hNone.symm.trans h

theorem arrayForm?_eq_container :
    arrayForm? atom = some (.container kind element) ↔ Holds atom kind element := by
  refine ⟨fun h => ?_, Holds.arrayForm?_eq⟩
  rcases holds_or_malformed h with ⟨kind', element', hHolds⟩ | ⟨reason, hMalformed⟩
  · obtain ⟨rfl, rfl⟩ := ArrayForm.container.inj
      (Option.some.inj (hHolds.arrayForm?_eq.symm.trans h))
    exact hHolds
  · cases hMalformed.arrayForm?_eq.symm.trans h

theorem arrayForm?_eq_malformed :
    arrayForm? atom = some (.malformed reason) ↔ Malformed atom reason := by
  refine ⟨fun h => ?_, Malformed.arrayForm?_eq⟩
  rcases holds_or_malformed h with ⟨kind, element, hHolds⟩ | ⟨reason', hMalformed⟩
  · cases hHolds.arrayForm?_eq.symm.trans h
  · obtain rfl := ArrayForm.malformed.inj
      (Option.some.inj (hMalformed.arrayForm?_eq.symm.trans h))
    exact hMalformed

end Forms

end Ambient.Descriptor
