import Ambient.Descriptor.Resolution
import Ambient.Proofs.Splitting
import Mathlib.Data.List.Forall2

/-!
# Putting names in the place of pseudo-types

Only whole words are replaced, so a text is best taken as words between other characters.
`wordInduction` is induction on that form, and `substitute?_word` and `substitute?_mark` say what
happens to it.  Since words are never cut, splitting and replacing can change places
(`pieces_substitute?`).
-/

namespace Ambient.Descriptor

open Text

/-! ## Words -/

/-- Text made of word characters. -/
def IsWord (text : List Char) : Prop :=
  ∀ c ∈ text, isWordChar c = true

instance (text : List Char) : Decidable (IsWord text) :=
  decidable_of_iff (text.all isWordChar = true) List.all_eq_true

/-- The code points of the blanks. -/
def blanks : List Nat :=
  [0x09, 0x0A, 0x0B, 0x0C, 0x0D, 0x20, 0x85, 0xA0, 0x1680, 0x2000, 0x2001, 0x2002, 0x2003, 0x2004,
   0x2005, 0x2006, 0x2007, 0x2008, 0x2009, 0x200A, 0x2028, 0x2029, 0x202F, 0x205F, 0x3000]

theorem mem_blanks {c : Char} (hBlank : isBlank c = true) : c.toNat ∈ blanks := by
  simp only [isBlank, Bool.or_eq_true, Bool.and_eq_true, decide_eq_true_eq, beq_iff_eq] at hBlank
  generalize c.toNat = codePoint at hBlank
  simp only [blanks, List.mem_cons, List.not_mem_nil, or_false]
  omega

theorem isAlphanumeric_of_isBlank {c : Char} (hBlank : isBlank c = true) :
    isAlphanumeric c = false := by
  have hTable : ∀ codePoint ∈ blanks, within false Boundaries.alphanumeric codePoint = false := by
    decide +kernel
  exact hTable c.toNat (mem_blanks hBlank)

theorem isBlank_of_isWordChar {c : Char} (hWord : isWordChar c = true) : isBlank c = false := by
  by_contra hBlank
  rw [Bool.not_eq_false] at hBlank
  simp only [isWordChar, isAlphanumeric_of_isBlank hBlank, Bool.false_or, Bool.or_eq_true,
    beq_iff_eq] at hWord
  rcases hWord with (((rfl | rfl) | rfl) | rfl) | rfl <;> revert hBlank <;> decide

/-- A character that is none of a word differs from those of a word. -/
theorem IsWord.ne {text : List Char} (h : IsWord text) {c other : Char} (hMem : c ∈ text)
    (hOther : isWordChar other = false) : c ≠ other := by
  rintro rfl
  rw [h c hMem] at hOther
  cases hOther

/-- Words are neither cut nor counted. -/
theorem IsWord.inert {text : List Char} (h : IsWord text) {separator : Char}
    (hSeparator : isWordChar separator = false) : Inert separator text :=
  inert_of_forall hSeparator (by decide +kernel) h

/-- Induction on a text as words between other characters. -/
theorem wordInduction {motive : List Char → Prop} (word : ∀ text, IsWord text → motive text)
    (mark : ∀ text c rest, IsWord text → isWordChar c = false → motive rest →
      motive (text ++ c :: rest)) (text : List Char) : motive text := by
  -- the word under way is carried along, as it is only known at its end whether it is the last
  have hFrom : ∀ done, IsWord done → motive (done ++ text) := by
    induction text with
    | nil =>
      intro done hDone
      rw [List.append_nil]
      exact word done hDone
    | cons c rest ih =>
      intro done hDone
      cases hWord : isWordChar c with
      | false => exact mark done c rest hDone hWord (ih [] (by simp [IsWord]))
      | true =>
        have hMore : IsWord (done ++ [c]) := by
          intro other hOther
          rcases List.mem_append.mp hOther with hOther | hOther
          · exact hDone other hOther
          · exact List.mem_singleton.mp hOther ▸ hWord
        simpa using ih (done ++ [c]) hMore
  exact hFrom [] (by simp [IsWord])

/-! ## Runs -/

theorem runs_word {text : List Char} (h : IsWord text) (hSome : text ≠ []) :
    runs text = [.word text] := by
  induction text with
  | nil => exact absurd rfl hSome
  | cons c rest ih =>
    have hRest : IsWord rest := fun other hOther => h other (List.mem_cons_of_mem _ hOther)
    rw [runs, if_pos (h c (List.mem_cons_self ..))]
    cases rest with
    | nil => rfl
    | cons next others => rw [ih hRest (List.cons_ne_nil _ _)]

theorem runs_append_mark (text : List Char) {c : Char} (hMark : isWordChar c = false)
    (rest : List Char) : runs (text ++ c :: rest) = runs text ++ .mark c :: runs rest := by
  induction text with
  | nil =>
    rw [List.nil_append, runs]
    simp [hMark, runs]
  | cons first others ih =>
    rw [List.cons_append, runs, runs, ih]
    split
    · -- the first word grows by a character, or a new one starts before what comes first
      cases runs others with
      | nil => rfl
      | cons run more => cases run <;> rfl
    · rfl

section Substitute

variable {self : String} {parent : Option String}

theorem substitute?_word {text : List Char} (h : IsWord text) :
    substitute? self parent text = substituteWord self parent text := by
  by_cases hSome : text = []
  · subst hSome
    rfl
  · rw [substitute?, runs_word h hSome, List.mapM_cons, List.mapM_nil]
    show ((substituteWord self parent text).bind fun word => some [word]).map _ = _
    cases substituteWord self parent text <;> simp

theorem substitute?_append_mark (text : List Char) {c : Char} (hMark : isWordChar c = false)
    (rest : List Char) : substitute? self parent (text ++ c :: rest) =
      (substitute? self parent text).bind fun first =>
        (substitute? self parent rest).map (first ++ c :: ·) := by
  unfold substitute?
  rw [runs_append_mark text hMark, List.mapM_append, List.mapM_cons]
  cases (runs text).mapM (substituteRun self parent) with
  | none => rfl
  | some texts =>
    cases (runs rest).mapM (substituteRun self parent) with
    | none => rfl
    | some texts' => simp [substituteRun]

/-- What a text of words between other characters becomes. -/
theorem substitute?_mark {text rest : List Char} {c : Char} (hText : IsWord text)
    (hMark : isWordChar c = false) {text' : List Char} :
    substitute? self parent (text ++ c :: rest) = some text' ↔
      ∃ word rest', substituteWord self parent text = some word ∧
        substitute? self parent rest = some rest' ∧ word ++ c :: rest' = text' := by
  rw [substitute?_append_mark text hMark, substitute?_word hText, Option.bind_eq_some_iff]
  simp only [Option.map_eq_some_iff, exists_and_left]

/-- The words that stand for classes. -/
def pseudoTypes : List (List Char) :=
  ["self", "static", "parent"].map String.toList

theorem mem_pseudoTypes {text : List Char} : text ∈ pseudoTypes ↔
    text = "self".toList ∨ text = "static".toList ∨ text = "parent".toList := by
  simp only [pseudoTypes, List.map_cons, List.map_nil, List.mem_cons, List.not_mem_nil, or_false]

theorem substituteWord_of_not_mem {text : List Char} (h : text ∉ pseudoTypes) :
    substituteWord self parent text = some text := by
  unfold substituteWord
  split
  · rename_i hSame
    exact absurd (by simp [pseudoTypes, ← hSame]) h
  · rename_i hSame
    exact absurd (by simp [pseudoTypes, ← hSame]) h
  · rename_i hSame
    exact absurd (by simp [pseudoTypes, ← hSame]) h
  · rfl

/-- Other words stand for themselves. -/
theorem substitute?_of_word {text : List Char} (h : IsWord text ∧ text ∉ pseudoTypes) :
    substitute? self parent text = some text :=
  (substitute?_word h.1).trans (substituteWord_of_not_mem h.2)

/-- The descriptor of a property is the one that counts, with names put in. -/
theorem resolve_ok_iff {property : Property} {owner : Class} {text : List Char} :
    resolve property owner = .ok text ↔ substitute? owner.name owner.parent
      (choose property.declared property.documented) = some text := by
  unfold resolve
  dsimp only
  cases substitute? owner.name owner.parent (choose property.declared property.documented) with
  | none => simp
  | some found => simp

/-- Every pseudo-type has an s or a p. -/
theorem substitute?_of_not_mem {text : List Char} (hS : 's' ∉ text) (hP : 'p' ∉ text) :
    substitute? self parent text = some text := by
  have hWord : ∀ word : List Char, 's' ∉ word → 'p' ∉ word →
      substituteWord self parent word = some word := by
    intro word hS hP
    refine substituteWord_of_not_mem fun hMem => ?_
    have hLetter : ∀ word ∈ pseudoTypes, 's' ∈ word ∨ 'p' ∈ word := by decide
    exact (hLetter word hMem).elim hS hP
  induction text using wordInduction with
  | word text hText => rw [substitute?_word hText, hWord text hS hP]
  | mark text c rest hText hMark ih =>
    simp only [List.mem_append, List.mem_cons, not_or] at hS hP
    exact (substitute?_mark hText hMark).mpr
      ⟨text, rest, hWord text hS.1 hP.1, ih hS.2.2 hP.2.2, rfl⟩

theorem exists_mem_of_forall₂ {α β : Type} {related : α → β → Prop} {first : List α}
    {second : List β} (h : List.Forall₂ related first second) {item : α} (hItem : item ∈ first) :
    ∃ other ∈ second, related item other := by
  induction h with
  | nil => cases hItem
  | cons hHead hTail ih =>
    rcases List.mem_cons.mp hItem with rfl | hItem
    · exact ⟨_, .head _, hHead⟩
    · obtain ⟨other, hOther, hRelated⟩ := ih hItem
      exact ⟨other, .tail _ hOther, hRelated⟩

section Names

variable (hSelf : IsWord self.toList) (hParent : ∀ name, parent = some name → IsWord name.toList)
include hSelf hParent

theorem isWord_of_substituteWord {text word : List Char} (hText : IsWord text)
    (h : substituteWord self parent text = some word) : IsWord word := by
  unfold substituteWord at h
  split at h
  · exact Option.some.inj h ▸ hSelf
  · exact Option.some.inj h ▸ hSelf
  · obtain ⟨name, hName, rfl⟩ := Option.map_eq_some_iff.mp h
    exact hParent name hName
  · exact Option.some.inj h ▸ hText

/-- Where names are words, the pieces of a text are replaced one by one. -/
theorem pieces_substitute? {separator : Char} (hSeparator : isWordChar separator = false)
    {text text' : List Char} (h : substitute? self parent text = some text') (depth : Nat) :
    List.Forall₂ (fun piece piece' => substitute? self parent piece = some piece')
      ((pieces separator depth text).1 :: (pieces separator depth text).2)
      ((pieces separator depth text').1 :: (pieces separator depth text').2) := by
  induction text using wordInduction generalizing text' depth with
  | word text hText =>
    have hWord := isWord_of_substituteWord hSelf hParent hText (substitute?_word hText ▸ h)
    rw [(hText.inert hSeparator).pieces, (hWord.inert hSeparator).pieces]
    exact .cons h .nil
  | mark text c rest hText hMark ih =>
    obtain ⟨word, rest', hWord, hRest, rfl⟩ := (substitute?_mark hText hMark).mp h
    have hInert := (isWord_of_substituteWord hSelf hParent hText hWord).inert hSeparator
    rw [(hText.inert hSeparator).pieces_append, hInert.pieces_append]
    by_cases hCut : cutsAt separator depth c
    · -- the words before the cut are a piece of their own
      rw [pieces_cons_of_cut hCut, pieces_cons_of_cut hCut, List.append_nil, List.append_nil]
      exact .cons (substitute?_word hText ▸ hWord) (ih hRest depth)
    · rw [pieces_cons_of_not_cut hCut, pieces_cons_of_not_cut hCut]
      obtain ⟨hFirst, hMore⟩ := List.forall₂_cons.mp (ih hRest (depthAfter depth c))
      exact .cons ((substitute?_mark hText hMark).mpr ⟨word, _, hWord, hFirst, rfl⟩) hMore

end Names

end Substitute

end Ambient.Descriptor
