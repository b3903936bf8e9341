import Ambient.Proofs.PseudoTypes

/-!
# Names in the place of whole words

Pseudo-types are replaced while a descriptor is read once from left to right.  Here the outcome is
said without the reading.  The words of a text are its maximal runs of word characters (`HasRun`),
and `Replaced` puts a name in the place of each of them and keeps every other character.

* `substitute?_eq_some_iff`, `substitute?_eq_none_iff`: what the reading gives, and when it fails.
* `Replaced.parts`: the parts of a text are replaced one by one.
* `Replaced.again`: where names are no pseudo-types, nothing is left to be replaced.
* `whole_words_replaced`: all of it for the descriptor of a property.
-/

namespace Ambient.Descriptor

open Text

/-! ## Maximal runs -/

/-- A run of word characters that goes on to neither side. -/
structure MaximalRun (before run after : List Char) : Prop where
  ne_nil : run ≠ []
  isWord : IsWord run
  starts : ∀ c ∈ before.getLast?, isWordChar c = false
  ends : ∀ c ∈ after.head?, isWordChar c = false

/-- Whether a maximal run of a text is the given one. -/
def HasRun (text run : List Char) : Prop :=
  ∃ before after, text = before ++ run ++ after ∧ MaximalRun before run after

/-- A word in front of what is none is read whole. -/
theorem IsWord.takeWhile_append {word rest : List Char} (h : IsWord word)
    (hRest : ∀ c ∈ rest.head?, isWordChar c = false) :
    (word ++ rest).takeWhile isWordChar = word := by
  rw [List.takeWhile_append_of_pos h]
  cases rest with
  | nil => simp
  | cons c more => simp [hRest c rfl]

/-- Nothing but word characters comes before a run at the start of a text that begins with a
word. -/
theorem MaximalRun.before_eq_nil {before run after word : List Char}
    (h : MaximalRun before run after) (hWord : IsWord word) (hPrefix : before <+: word) :
    before = [] := by
  rw [List.eq_nil_iff_forall_not_mem]
  intro c hMem
  -- the last character before the run would be one of the word, and the run would go on to it
  cases hLast : before.getLast? with
  | none => exact List.not_mem_nil (List.getLast?_eq_none_iff.mp hLast ▸ hMem)
  | some last =>
    have hIn := hWord last (hPrefix.subset (List.mem_of_getLast? hLast))
    rw [h.starts last hLast] at hIn
    cases hIn

theorem hasRun_word {word run : List Char} (hWord : IsWord word) :
    HasRun word run ↔ run = word ∧ run ≠ [] := by
  constructor
  · rintro ⟨before, after, hText, hRun⟩
    rw [List.append_assoc] at hText
    obtain rfl := hRun.before_eq_nil hWord ⟨_, hText.symm⟩
    have hRead := hRun.isWord.takeWhile_append hRun.ends
    rw [List.nil_append] at hText
    rw [← hText, List.takeWhile_eq_self_iff.mpr hWord] at hRead
    exact ⟨hRead.symm, hRun.ne_nil⟩
  · rintro ⟨rfl, hSome⟩
    exact ⟨[], [], by simp, hSome, hWord, by simp, by simp⟩

/-- A text that begins with a word and goes on behind a mark has the word as a run, and the runs
behind the mark. -/
theorem hasRun_mark {word rest run : List Char} {c : Char} (hWord : IsWord word)
    (hMark : isWordChar c = false) :
    HasRun (word ++ c :: rest) run ↔ (run = word ∧ run ≠ []) ∨ HasRun rest run := by
  have hEnds : ∀ other ∈ (c :: rest).head?, isWordChar other = false := by
    simpa using hMark
  constructor
  · rintro ⟨before, after, hText, hRun⟩
    rw [List.append_assoc] at hText
    -- the run begins either at or behind the mark, or within the word and so at its start
    rcases List.append_eq_append_iff.mp hText with ⟨more, hBefore, hMore⟩ | ⟨more, hIn, hMore⟩
    · cases more with
      | nil =>
        -- the run begins right at the mark, which is no word character
        have hFirst : (run ++ after).head? = some c := by
          rw [List.nil_append] at hMore
          rw [← hMore]
          rfl
        obtain ⟨first, others, rfl⟩ := List.exists_cons_of_ne_nil hRun.ne_nil
        obtain rfl : first = c := Option.some.inj hFirst
        rw [hRun.isWord first (.head _)] at hMark
        cases hMark
      | cons other more =>
        rw [List.cons_append, ← List.append_assoc] at hMore
        obtain ⟨rfl, hRest⟩ := List.cons.inj hMore
        refine .inr ⟨more, after, hRest, hRun.ne_nil, hRun.isWord, ?_, hRun.ends⟩
        intro last hLast
        refine hRun.starts last ?_
        rw [hBefore, List.getLast?_append_cons, List.getLast?_cons, hLast]
        rfl
    · obtain rfl := hRun.before_eq_nil hWord ⟨more, hIn.symm⟩
      rw [List.nil_append] at hIn
      subst hIn
      have hRead := hRun.isWord.takeWhile_append hRun.ends
      rw [hMore, hWord.takeWhile_append hEnds] at hRead
      exact .inl ⟨hRead.symm, hRun.ne_nil⟩
  · rintro (⟨rfl, hSome⟩ | ⟨before, after, rfl, hRun⟩)
    · exact ⟨[], c :: rest, by simp, hSome, hWord, by simp, hEnds⟩
    · refine ⟨word ++ c :: before, after, by simp, hRun.ne_nil, hRun.isWord, ?_, hRun.ends⟩
      intro last hLast
      rw [List.getLast?_append_cons, List.getLast?_cons] at hLast
      cases hBefore : before.getLast? with
      | none =>
        rw [hBefore] at hLast
        exact Option.some.inj hLast ▸ hMark
      | some other =>
        rw [hBefore] at hLast
        exact Option.some.inj hLast ▸ hRun.starts other hBefore

section Replaced

variable {self : String} {parent : Option String}

/-! ## What becomes of words -/

/-- The text that a word is replaced by. -/
inductive StandsFor (self : String) (parent : Option String) : List Char → List Char → Prop
  | self : StandsFor self parent "self".toList self.toList
  | static : StandsFor self parent "static".toList self.toList
  | parent {name : String} (h : parent = some name) :
    StandsFor self parent "parent".toList name.toList
  | other {word : List Char} (h : word ∉ pseudoTypes) : StandsFor self parent word word

theorem substituteWord_eq_some_iff {word name : List Char} :
    substituteWord self parent word = some name ↔ StandsFor self parent word name := by
  constructor
  · intro h
    -- one case for each pseudo-type, and one for all other words
    by_cases hPseudo : word ∈ pseudoTypes
    · rcases mem_pseudoTypes.mp hPseudo with rfl | rfl | rfl
      · exact Option.some.inj h ▸ .self
      · exact Option.some.inj h ▸ .static
      · obtain ⟨name, hName, rfl⟩ := Option.map_eq_some_iff.mp h
        exact .parent hName
    · rw [substituteWord_of_not_mem hPseudo] at h
      exact Option.some.inj h ▸ .other hPseudo
  · rintro (_ | _ | hName | hOther)
    · rfl
    · rfl
    · subst hName
      rfl
    · exact substituteWord_of_not_mem hOther

theorem substituteWord_eq_none_iff {word : List Char} :
    substituteWord self parent word = none ↔ parent = none ∧ word = "parent".toList := by
  constructor
  · intro h
    by_cases hPseudo : word ∈ pseudoTypes
    · rcases mem_pseudoTypes.mp hPseudo with rfl | rfl | rfl
      · cases h
      · cases h
      · exact ⟨Option.map_eq_none_iff.mp h, rfl⟩
    · rw [substituteWord_of_not_mem hPseudo] at h
      cases h
  · rintro ⟨rfl, rfl⟩
    rfl

/-- A text with the maximal runs of word characters replaced, each by what it stands for, and all
else kept in place. -/
inductive Replaced (self : String) (parent : Option String) : List Char → List Char → Prop
  | nil : Replaced self parent [] []
  | mark {c : Char} {rest rest' : List Char} (hMark : isWordChar c = false)
    (hRest : Replaced self parent rest rest') : Replaced self parent (c :: rest) (c :: rest')
  | word {word name rest rest' : List Char} (hSome : word ≠ []) (hWord : IsWord word)
    (hEnds : ∀ c ∈ rest.head?, isWordChar c = false) (hName : StandsFor self parent word name)
    (hRest : Replaced self parent rest rest') :
    Replaced self parent (word ++ rest) (name ++ rest')

/-- A character that is none of a word is kept. -/
theorem substitute?_cons {c : Char} (hMark : isWordChar c = false) (rest : List Char) :
    substitute? self parent (c :: rest) = (substitute? self parent rest).map (c :: ·) := by
  have hNil : substitute? self parent [] = some [] := rfl
  have hStep := @substitute?_append_mark self parent [] c hMark rest
  rw [hNil] at hStep
  exact hStep

/-- A text that does not begin within a word is replaced apart from what comes before it. -/
theorem substitute?_append (text : List Char) {rest : List Char}
    (hRest : ∀ c ∈ rest.head?, isWordChar c = false) : substitute? self parent (text ++ rest) =
      (substitute? self parent text).bind fun first =>
        (substitute? self parent rest).map (first ++ ·) := by
  cases rest with
  | nil =>
    have hNil : substitute? self parent [] = some [] := rfl
    rw [hNil, List.append_nil]
    simp
  | cons c more =>
    have hMark := hRest c rfl
    rw [substitute?_append_mark text hMark, substitute?_cons hMark]
    simp only [Option.map_map, Function.comp_def]

theorem substitute?_eq_some_iff {text text' : List Char} :
    substitute? self parent text = some text' ↔ Replaced self parent text text' := by
  constructor
  · intro h
    -- the reading replaces a word when it comes to the mark behind it, or to the end
    induction text using wordInduction generalizing text' with
    | word text hText =>
      rw [substitute?_word hText] at h
      by_cases hSome : text = []
      · subst hSome
        exact Option.some.inj h ▸ .nil
      · simpa using Replaced.word hSome hText (by simp) (substituteWord_eq_some_iff.mp h) .nil
    | mark text c rest hText hMark ih =>
      obtain ⟨name, rest', hName, hRest, rfl⟩ := (substitute?_mark hText hMark).mp h
      by_cases hSome : text = []
      · subst hSome
        obtain rfl := Option.some.inj hName
        exact .mark hMark (ih hRest)
      · exact .word hSome hText (by simpa using hMark) (substituteWord_eq_some_iff.mp hName)
          (.mark hMark (ih hRest))
  · intro h
    induction h with
    | nil => rfl
    | mark hMark _ ih =>
      rw [substitute?_cons hMark, ih]
      rfl
    | word _ hWord hEnds hName _ ih =>
      rw [substitute?_append _ hEnds, substitute?_word hWord, substituteWord_eq_some_iff.mpr hName,
        ih]
      rfl

/-- Replacing fails just where `parent` is a word and stands for no class. -/
theorem substitute?_eq_none_iff {text : List Char} :
    substitute? self parent text = none ↔ parent = none ∧ HasRun text "parent".toList := by
  have hSome : "parent".toList ≠ [] := by decide
  induction text using wordInduction with
  | word text hText =>
    rw [substitute?_word hText, substituteWord_eq_none_iff, hasRun_word hText]
    simp only [hSome, ne_eq, not_false_eq_true, and_true, eq_comm]
  | mark text c rest hText hMark ih =>
    rw [substitute?_append_mark text hMark, substitute?_word hText, hasRun_mark hText hMark]
    cases hName : substituteWord self parent text with
    | none =>
      obtain ⟨hNone, hWord⟩ := substituteWord_eq_none_iff.mp hName
      simp [hNone, hWord]
    | some name =>
      -- the word is no `parent` without a class, so that a failure comes from behind the mark
      have hOther : ¬(parent = none ∧ "parent".toList = text) := by
        rintro ⟨hNone, hWord⟩
        rw [substituteWord_eq_none_iff.mpr ⟨hNone, hWord.symm⟩] at hName
        cases hName
      rw [Option.bind_some, Option.map_eq_none_iff]
      simp only [ih, hSome, ne_eq, not_false_eq_true, and_true, and_or_left, hOther, false_or]

/-! ## Names that are words -/

/-- A name that is one word. -/
def IsWordName (name : String) : Prop :=
  name.toList ≠ [] ∧ IsWord name.toList

instance (name : String) : Decidable (IsWordName name) :=
  inferInstanceAs (Decidable (_ ∧ _))

/-- Characters that are none of words are kept where they are. -/
theorem substitute?_marks {marks : List Char} (h : ∀ c ∈ marks, isWordChar c = false)
    (rest : List Char) : substitute? self parent (marks ++ rest) =
      (substitute? self parent rest).map (marks ++ ·) := by
  induction marks with
  | nil => simp
  | cons c more ih =>
    rw [List.cons_append, substitute?_cons (h c (.head _)),
      ih fun other hOther => h other (.tail _ hOther)]
    simp only [Option.map_map, Function.comp_def, List.cons_append]

theorem isWordChar_of_isBlank {c : Char} (h : isBlank c = true) : isWordChar c = false := by
  cases hWord : isWordChar c with
  | false => rfl
  | true =>
    rw [isBlank_of_isWordChar hWord] at h
    cases h

section Names

variable {text text' : List Char} (hSelf : IsWordName self)
  (hParent : ∀ name, parent = some name → IsWordName name)
include hSelf hParent

/-- What a word stands for is a word. -/
theorem StandsFor.isWord {word name : List Char} (h : StandsFor self parent word name)
    (hSome : word ≠ []) (hWord : IsWord word) : name ≠ [] ∧ IsWord name := by
  cases h with
  | self => exact hSelf
  | static => exact hSelf
  | parent hName => exact hParent _ hName
  | other => exact ⟨hSome, hWord⟩

theorem Replaced.eq_nil_iff (h : Replaced self parent text text') : text' = [] ↔ text = [] := by
  cases h with
  | nil => rfl
  | mark => simp
  | word hSome hWord _ hName =>
    have hSome' := (hName.isWord hSelf hParent hSome hWord).1
    simp [hSome, hSome']

/-- A text with no blank at its start gets none there. -/
theorem Replaced.head_plain (h : Replaced self parent text text')
    (hPlain : ∀ c ∈ text.head?, isBlank c = false) : ∀ c ∈ text'.head?, isBlank c = false := by
  cases h with
  | nil => exact hPlain
  | mark => exact hPlain
  | word hSome hWord _ hName =>
    obtain ⟨hSome', hWord'⟩ := hName.isWord hSelf hParent hSome hWord
    obtain ⟨first, others, rfl⟩ := List.exists_cons_of_ne_nil hSome'
    intro c hFirst
    obtain rfl : first = c := Option.some.inj hFirst
    exact isBlank_of_isWordChar (hWord' first (.head _))

/-- A text with no blank at its end gets none there. -/
theorem Replaced.last_plain (h : Replaced self parent text text')
    (hPlain : ∀ c ∈ text.getLast?, isBlank c = false) :
    ∀ c ∈ text'.getLast?, isBlank c = false := by
  induction h with
  | nil => exact hPlain
  | @mark c rest rest' _ hRest ih =>
    -- the last character is that of the rest, unless nothing comes behind the mark
    by_cases hNone : rest = []
    · rw [hNone] at hPlain
      rw [(hRest.eq_nil_iff hSelf hParent).mpr hNone]
      exact hPlain
    · have hNone' := fun h => hNone ((hRest.eq_nil_iff hSelf hParent).mp h)
      rw [← List.singleton_append, List.getLast?_append_of_ne_nil _ hNone] at hPlain
      rw [← List.singleton_append, List.getLast?_append_of_ne_nil _ hNone']
      exact ih hPlain
  | @word word name rest rest' hSome hWord _ hName hRest ih =>
    obtain ⟨-, hWord'⟩ := hName.isWord hSelf hParent hSome hWord
    by_cases hNone : rest = []
    · rw [(hRest.eq_nil_iff hSelf hParent).mpr hNone, List.append_nil]
      exact fun c hLast => isBlank_of_isWordChar (hWord' c (List.mem_of_getLast? hLast))
    · have hNone' := fun h => hNone ((hRest.eq_nil_iff hSelf hParent).mp h)
      rw [List.getLast?_append_of_ne_nil _ hNone] at hPlain
      rw [List.getLast?_append_of_ne_nil _ hNone']
      exact ih hPlain

omit hSelf hParent in
/-- Where a mark comes first, it stays first. -/
theorem Replaced.starts_with_mark (h : Replaced self parent text text')
    (hMark : ∀ c ∈ text.head?, isWordChar c = false) : ∀ c ∈ text'.head?, isWordChar c = false := by
  cases h with
  | nil => exact hMark
  | mark => exact hMark
  | word hSome hWord =>
    obtain ⟨first, others, rfl⟩ := List.exists_cons_of_ne_nil hSome
    have hFirst := hMark first rfl
    rw [hWord first (.head _)] at hFirst
    cases hFirst

/-- Trimming and replacing can change places. -/
theorem Replaced.trim (h : Replaced self parent text text') :
    Replaced self parent (trim text) (trim text') := by
  obtain ⟨before, after, hText, hBefore, hAfter⟩ := exists_trim text
  -- the blanks around the text are kept, so that what is replaced is the text between them
  have hMarks : ∀ blanks : List Char, (∀ c ∈ blanks, isBlank c = true) →
      ∀ c ∈ blanks, isWordChar c = false :=
    fun blanks hBlanks c hMem => isWordChar_of_isBlank (hBlanks c hMem)
  have hEnds : ∀ c ∈ after.head?, isWordChar c = false :=
    fun c hFirst => hMarks after hAfter c (List.mem_of_mem_head? hFirst)
  have hAlone : substitute? self parent after = some after := by
    have hNil : substitute? self parent [] = some [] := rfl
    simpa [hNil] using @substitute?_marks self parent after (hMarks after hAfter) []
  have hWhole := substitute?_eq_some_iff.mpr h
  rw [hText, List.append_assoc, substitute?_marks (hMarks before hBefore),
    substitute?_append _ hEnds, hAlone] at hWhole
  obtain ⟨inner, hInner, rfl⟩ := Option.map_eq_some_iff.mp hWhole
  obtain ⟨kept, hKept, hAppended⟩ := Option.bind_eq_some_iff.mp hInner
  obtain rfl : kept ++ after = inner := Option.some.inj hAppended
  have hCore := substitute?_eq_some_iff.mp hKept
  have hTrimmed : Text.trim kept = kept :=
    trim_eq_self (hCore.head_plain hSelf hParent (head?_trim_plain text))
      (hCore.last_plain hSelf hParent (getLast?_trim_plain text))
  rw [trim_append_left hBefore, trim_append_right hAfter, hTrimmed]
  exact hCore

/-- Splitting and replacing can change places: the parts are replaced one by one. -/
theorem Replaced.parts (h : Replaced self parent text text') {separator : Char}
    (hSeparator : isWordChar separator = false) :
    List.Forall₂ (Replaced self parent) (parts separator text) (parts separator text') := by
  have hPieces := pieces_substitute? hSelf.2 (fun name hName => (hParent name hName).2) hSeparator
    (substitute?_eq_some_iff.mpr h) 0
  rw [parts_eq, parts_eq]
  -- a part is a piece that is not empty when trimmed, and stays so
  refine List.rel_filter ?_ (List.rel_map ?_ hPieces)
  · intro part part' hPart
    simp [hPart.eq_nil_iff hSelf hParent]
  · intro piece piece' hPiece
    exact (substitute?_eq_some_iff.mp hPiece).trim hSelf hParent

/-- Replacing a second time changes nothing where the names are no pseudo-types. -/
theorem Replaced.again (h : Replaced self parent text text') (hOther : self.toList ∉ pseudoTypes)
    (hOtherParent : ∀ name, parent = some name → name.toList ∉ pseudoTypes) :
    Replaced self parent text' text' := by
  induction h with
  | nil => exact .nil
  | mark hMark _ ih => exact .mark hMark ih
  | word hSome hWord hEnds hName hRest ih =>
    obtain ⟨hSome', hWord'⟩ := hName.isWord hSelf hParent hSome hWord
    -- the name is a maximal run of the new text, and only pseudo-types are replaced
    refine .word hSome' hWord' (hRest.starts_with_mark hEnds) (.other ?_) ih
    cases hName with
    | self => exact hOther
    | static => exact hOther
    | parent hFound => exact hOtherParent _ hFound
    | other hPlain => exact hPlain

end Names

end Replaced

/-! ## The descriptor of a property -/

/-- A property of a class whose name, and whose parent's name, are words.  Its descriptor is that of
the declaration or the documentation, with each maximal run of word characters replaced by what it
stands for, and there is none just if `parent` is such a run and the class has no parent.  Splitting
gives the parts of the descriptor replaced one by one, and where the names are no pseudo-types, to
replace them again changes nothing. -/
theorem whole_words_replaced (property : Property) (owner : Class) (hOwner : IsWordName owner.name)
    (hParent : ∀ name, owner.parent = some name → IsWordName name) :
    ((∃ fault, resolve property owner = .error fault) ↔ owner.parent = none ∧
      HasRun (choose property.declared property.documented) "parent".toList) ∧
    (∀ text, resolve property owner = .ok text ↔
      Replaced owner.name owner.parent (choose property.declared property.documented) text) ∧
    ∀ text, resolve property owner = .ok text →
      (∀ separator, isWordChar separator = false →
        List.Forall₂ (Replaced owner.name owner.parent)
          (parts separator (choose property.declared property.documented))
          (parts separator text)) ∧
      (owner.name.toList ∉ pseudoTypes →
        (∀ name, owner.parent = some name → name.toList ∉ pseudoTypes) →
        substitute? owner.name owner.parent text = some text) := by
  have hOk : ∀ text, resolve property owner = .ok text ↔
      Replaced owner.name owner.parent (choose property.declared property.documented) text :=
    fun text => resolve_ok_iff.trans substitute?_eq_some_iff
  refine ⟨?_, hOk, fun text hText => ?_⟩
  · rw [← substitute?_eq_none_iff, resolve]
    cases substitute? owner.name owner.parent (choose property.declared property.documented) with
    | none => simp
    | some text => simp
  · have hReplaced := (hOk text).mp hText
    refine ⟨fun separator => hReplaced.parts hOwner hParent, fun hOther hOtherParent => ?_⟩
    exact substitute?_eq_some_iff.mpr (hReplaced.again hOwner hParent hOther hOtherParent)

/-- A property documented with `self` and `parent` on their own and within longer words. -/
def relatives : Property :=
  { name := "relatives"
    declared := some "?array"
    documented := some "list<self|parents>|array<my_self, parent >" }

/-- A class with a property of its relatives. -/
def descendant (parent : Option String) : Class :=
  { name := "app::Child", shape := .record [relatives], parent := parent }

theorem choose_relatives : choose relatives.declared relatives.documented =
    "list<self|parents>|array<my_self, parent >|null".toList := by
  decide +kernel

theorem relatives_replaced :
    resolve relatives (descendant (some "app::Base")) =
      .ok "list<app::Child|parents>|array<my_self, app::Base >|null".toList ∧
    List.Forall₂ (Replaced "app::Child" (some "app::Base"))
      ["list<self|parents>".toList, "array<my_self, parent >".toList, "null".toList]
      ["list<app::Child|parents>".toList, "array<my_self, app::Base >".toList, "null".toList] ∧
    substitute? "app::Child" (some "app::Base")
        "list<app::Child|parents>|array<my_self, app::Base >|null".toList =
      some "list<app::Child|parents>|array<my_self, app::Base >|null".toList ∧
    ∃ fault, resolve relatives (descendant none) = .error fault := by
  have hChild : IsWordName "app::Child" := by decide +kernel
  have hBase : ∀ name, some "app::Base" = some name → IsWordName name := by
    rintro name ⟨⟩
    decide +kernel
  obtain ⟨-, -, hReplaced⟩ :=
    whole_words_replaced relatives (descendant (some "app::Base")) hChild hBase
  have hText : resolve relatives (descendant (some "app::Base")) =
      .ok "list<app::Child|parents>|array<my_self, app::Base >|null".toList := by
    rw [resolve, choose_relatives]
    decide +kernel
  obtain ⟨hParts, hAgain⟩ := hReplaced _ hText
  refine ⟨hText, ?_, hAgain (by decide) (by rintro name ⟨⟩; decide), ?_⟩
  · have hBefore : parts '|' "list<self|parents>|array<my_self, parent >|null".toList =
        ["list<self|parents>".toList, "array<my_self, parent >".toList, "null".toList] := by
      decide +kernel
    have hAfter : parts '|' "list<app::Child|parents>|array<my_self, app::Base >|null".toList =
        ["list<app::Child|parents>".toList, "array<my_self, app::Base >".toList,
          "null".toList] := by
      decide +kernel
    have hAlternatives := hParts '|' (by decide +kernel)
    rw [choose_relatives, hBefore, hAfter] at hAlternatives
    exact hAlternatives
  · have hNone : ∀ name, none = some name → IsWordName name := by simp
    obtain ⟨hFails, -⟩ := whole_words_replaced relatives (descendant none) hChild hNone
    rw [choose_relatives] at hFails
    have hBefore : "list<self|parents>|array<my_self, ".toList.getLast? = some ' ' := by
      decide +kernel
    have hSpace : ∀ c ∈ some ' ', isWordChar c = false := by
      rintro c ⟨⟩
      decide
    refine hFails.mpr ⟨rfl, "list<self|parents>|array<my_self, ".toList, " >|null".toList, rfl, ?_⟩
    exact ⟨by decide, by decide +kernel, hBefore ▸ hSpace, hSpace⟩

end Ambient.Descriptor
