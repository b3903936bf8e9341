import Ambient.Text.Brackets
import Mathlib.Data.List.TakeWhile

/-!
# Splitting text

How the parts of a text change when something is put before, after or around it.

The count of open brackets is all that a split remembers, so the pieces of two texts in a row are
the pieces of each, the last of the first being joined with the first of the second
(`pieces_append`).  Text with nested brackets leaves the count as it is, and is not cut where a
bracket is open (`Nested.inside`).
-/

namespace Ambient.Text

/-! ## Trimming -/

/-- A text is what trimming keeps of it, between blanks. -/
theorem exists_trim (text : List Char) : ∃ before after, text = before ++ trim text ++ after ∧
    (∀ c ∈ before, isBlank c = true) ∧ ∀ c ∈ after, isBlank c = true := by
  let kept := trimStart text
  refine ⟨text.takeWhile isBlank, (kept.reverse.takeWhile isBlank).reverse, ?_, ?_, ?_⟩
  · have hEnd : kept = trimEnd kept ++ (kept.reverse.takeWhile isBlank).reverse := by
      rw [trimEnd, ← List.reverse_append, List.takeWhile_append_dropWhile, List.reverse_reverse]
    calc text = text.takeWhile isBlank ++ kept := List.takeWhile_append_dropWhile.symm
      _ = text.takeWhile isBlank ++ (trimEnd kept ++ (kept.reverse.takeWhile isBlank).reverse) := by
          rw [← hEnd]
      _ = _ := (List.append_assoc ..).symm
  · exact fun c hc => List.mem_takeWhile_imp hc
  · exact fun c hc => List.mem_takeWhile_imp (List.mem_reverse.mp hc)

/-- What is no blank is kept. -/
theorem mem_trim {text : List Char} {c : Char} (hMem : c ∈ text) (hBlank : isBlank c = false) :
    c ∈ trim text := by
  obtain ⟨before, after, hText, hBefore, hAfter⟩ := exists_trim text
  rw [hText, List.mem_append, List.mem_append] at hMem
  rcases hMem with (hMem | hMem) | hMem
  · rw [hBefore c hMem] at hBlank
    cases hBlank
  · exact hMem
  · rw [hAfter c hMem] at hBlank
    cases hBlank

/-- Blanks before a text are dropped. -/
theorem trim_append_left {blanks : List Char} (h : ∀ c ∈ blanks, isBlank c = true)
    (text : List Char) : trim (blanks ++ text) = trim text := by
  rw [trim, trim, trimStart, trimStart, List.dropWhile_append_of_pos h]

theorem trimEnd_append_right {blanks : List Char} (h : ∀ c ∈ blanks, isBlank c = true)
    (text : List Char) : trimEnd (text ++ blanks) = trimEnd text := by
  have hReverse : ∀ c ∈ blanks.reverse, isBlank c = true := fun c hc => h c (List.mem_reverse.mp hc)
  rw [trimEnd, trimEnd, List.reverse_append, List.dropWhile_append_of_pos hReverse]

/-- Blanks after a text are dropped. -/
theorem trim_append_right {blanks : List Char} (h : ∀ c ∈ blanks, isBlank c = true)
    (text : List Char) : trim (text ++ blanks) = trim text := by
  rw [trim, trim, trimStart, trimStart, List.dropWhile_append]
  split
  · -- with nothing before them the blanks go as well
    rename_i hNone
    rw [List.isEmpty_iff.mp hNone, List.dropWhile_eq_nil_iff.mpr h]
  · exact trimEnd_append_right h _

/-- A text with no blank at either end is kept whole. -/
theorem trim_eq_self {text : List Char} (hFirst : ∀ c ∈ text.head?, isBlank c = false)
    (hLast : ∀ c ∈ text.getLast?, isBlank c = false) : trim text = text := by
  have hStart : trimStart text = text := by
    cases text with
    | nil => rfl
    | cons c rest => rw [trimStart, List.dropWhile_cons, hFirst c rfl, if_neg Bool.false_ne_true]
  rw [trim, hStart, trimEnd]
  cases hReverse : text.reverse with
  | nil => rw [← List.reverse_reverse text, hReverse]; rfl
  | cons c rest =>
    have hc : isBlank c = false := hLast c (by rw [← List.head?_reverse, hReverse]; rfl)
    rw [List.dropWhile_cons, hc, if_neg Bool.false_ne_true, ← hReverse, List.reverse_reverse]

/-- A character at the start of a text that is no blank stays there. -/
theorem head?_trim {c : Char} (h : isBlank c = false) (rest : List Char) :
    (trim (c :: rest)).head? = some c := by
  rw [trim, trimStart, List.dropWhile_cons, h, if_neg Bool.false_ne_true, trimEnd,
    List.head?_reverse, List.reverse_cons, List.dropWhile_append]
  split
  · rw [List.dropWhile_cons, h, if_neg Bool.false_ne_true]
    rfl
  · rw [List.getLast?_append]
    rfl

theorem head?_trimStart_plain (text : List Char) :
    ∀ c ∈ (trimStart text).head?, isBlank c = false := by
  intro c hFirst
  have hKept := List.head?_dropWhile_not isBlank text
  rw [← trimStart, Option.mem_def.mp hFirst] at hKept
  exact hKept

/-- A trimmed text does not end in a blank. -/
theorem getLast?_trim_plain (text : List Char) : ∀ c ∈ (trim text).getLast?, isBlank c = false := by
  intro c hLast
  rw [trim, trimEnd, List.getLast?_reverse] at hLast
  exact head?_trimStart_plain (trimStart text).reverse c hLast

/-- A trimmed text does not begin with a blank. -/
theorem head?_trim_plain (text : List Char) : ∀ c ∈ (trim text).head?, isBlank c = false := by
  intro c hFirst
  obtain ⟨more, hMore⟩ : trim text <+: trimStart text := by
    have hSuffix := List.dropWhile_suffix isBlank (l := (trimStart text).reverse)
    rw [trim, trimEnd]
    simpa using hSuffix.reverse
  refine head?_trimStart_plain text c ?_
  rw [← hMore, List.head?_append, Option.mem_def.mp hFirst]
  rfl

/-- Trimming twice is trimming once. -/
theorem trim_trim (text : List Char) : trim (trim text) = trim text :=
  trim_eq_self (head?_trim_plain text) (getLast?_trim_plain text)

/-! ## Pieces -/

section Pieces

variable {separator : Char} {depth : Nat}

theorem pieces_cons_of_cut {c : Char} (hCut : cutsAt separator depth c = true) (rest : List Char) :
    pieces separator depth (c :: rest) =
      ([], (pieces separator depth rest).1 :: (pieces separator depth rest).2) := by
  rw [pieces, if_pos hCut]

theorem pieces_cons_of_not_cut {c : Char} (hCut : ¬cutsAt separator depth c = true)
    (rest : List Char) : pieces separator depth (c :: rest) =
      (c :: (pieces separator (depthAfter depth c) rest).1,
        (pieces separator (depthAfter depth c) rest).2) := by
  rw [pieces, if_neg hCut]

/-- A cut leaves the count of open brackets as it is. -/
theorem depthAfter_of_cut {c : Char} (hCut : cutsAt separator depth c = true) :
    depthAfter depth c = depth := by
  simp only [cutsAt, Bool.and_eq_true, Bool.not_eq_true'] at hCut
  simp [depthAfter, hCut]

/-- How many brackets are open after a text, with `depth` open before it. -/
def depthAfterAll (depth : Nat) (text : List Char) : Nat :=
  text.foldl depthAfter depth

theorem depthAfterAll_append (depth : Nat) (text rest : List Char) :
    depthAfterAll depth (text ++ rest) = depthAfterAll (depthAfterAll depth text) rest :=
  List.foldl_append

/-- Pieces with more text after them: the first of the new ones goes on with the last of the old. -/
def join (new : List Char × List (List Char)) :
    List Char → List (List Char) → List Char × List (List Char)
  | last, [] => (last ++ new.1, new.2)
  | first, next :: others => (first, (join new next others).1 :: (join new next others).2)

theorem join_cons (new : List Char × List (List Char)) (c : Char) (first : List Char)
    (more : List (List Char)) :
    join new (c :: first) more = (c :: (join new first more).1, (join new first more).2) := by
  cases more <;> rfl

/-- Pieces that start with a cut are simply put after the old ones. -/
theorem join_of_cut (new first : List Char) (others more : List (List Char)) :
    (join ([], new :: others) first more).1 :: (join ([], new :: others) first more).2 =
      (first :: more) ++ new :: others := by
  induction more generalizing first with
  | nil => rw [join, List.append_nil]; rfl
  | cons next more ih => rw [join, ih]; rfl

theorem pieces_append (depth : Nat) (text rest : List Char) :
    pieces separator depth (text ++ rest) =
      join (pieces separator (depthAfterAll depth text) rest)
        (pieces separator depth text).1 (pieces separator depth text).2 := by
  induction text generalizing depth with
  | nil => rfl
  | cons c others ih =>
    rw [List.cons_append, depthAfterAll, List.foldl_cons]
    by_cases hCut : cutsAt separator depth c
    · rw [pieces_cons_of_cut hCut, pieces_cons_of_cut hCut, ih, depthAfter_of_cut hCut]
      rfl
    · rw [pieces_cons_of_not_cut hCut, pieces_cons_of_not_cut hCut, ih, join_cons]
      rfl

/-! ### Text without brackets -/

/-- Text in which nothing is cut or counted. -/
def Inert (separator : Char) (text : List Char) : Prop :=
  ∀ c ∈ text, c ≠ separator ∧ isOpener c = false ∧ isCloser c = false

instance (separator : Char) (text : List Char) : Decidable (Inert separator text) :=
  List.decidableBAll (fun c => c ≠ separator ∧ isOpener c = false ∧ isCloser c = false) text

theorem Inert.tail {c : Char} {text : List Char} (h : Inert separator (c :: text)) :
    Inert separator text :=
  fun other hOther => h other (List.mem_cons_of_mem _ hOther)

theorem Inert.depthAfterAll {text : List Char} (h : Inert separator text) (depth : Nat) :
    depthAfterAll depth text = depth := by
  induction text with
  | nil => rfl
  | cons c rest ih =>
    obtain ⟨-, hOpener, hCloser⟩ := h c (List.mem_cons_self ..)
    have hStep : depthAfter depth c = depth := by simp [depthAfter, hOpener, hCloser]
    rw [Text.depthAfterAll, List.foldl_cons, hStep]
    exact ih h.tail

theorem Inert.pieces {text : List Char} (h : Inert separator text) (depth : Nat) :
    pieces separator depth text = (text, []) := by
  induction text with
  | nil => rfl
  | cons c rest ih =>
    obtain ⟨hOther, hOpener, hCloser⟩ := h c (List.mem_cons_self ..)
    have hStep : depthAfter depth c = depth := by simp [depthAfter, hOpener, hCloser]
    rw [pieces_cons_of_not_cut (by simp [cutsAt, hOther]), hStep, ih h.tail]

theorem Inert.pieces_append {text : List Char} (h : Inert separator text) (depth : Nat)
    (rest : List Char) : Text.pieces separator depth (text ++ rest) =
      (text ++ (Text.pieces separator depth rest).1, (Text.pieces separator depth rest).2) := by
  rw [Text.pieces_append, h.depthAfterAll, h.pieces]
  rfl

def brackets : List Char :=
  ['<', '(', '[', '{', '>', ')', ']', '}']

/-- Text of characters of one kind is inert, if the separator and the brackets are of another. -/
theorem inert_of_forall {kind : Char → Bool} (hSeparator : kind separator = false)
    (hBrackets : brackets.all (!kind ·) = true) {text : List Char}
    (h : ∀ c ∈ text, kind c = true) : Inert separator text := by
  intro c hc
  have hBracket : c ∉ brackets := by
    intro hMem
    have hOther : kind c = false := by simpa using List.all_eq_true.mp hBrackets c hMem
    rw [h c hc] at hOther
    cases hOther
  simp only [brackets, List.mem_cons, List.not_mem_nil, or_false, not_or] at hBracket
  refine ⟨?_, by simp [isOpener, hBracket], by simp [isCloser, hBracket]⟩
  rintro rfl
  rw [h c hc] at hSeparator
  cases hSeparator

theorem inert_of_isBlank (hSeparator : isBlank separator = false) {text : List Char}
    (h : ∀ c ∈ text, isBlank c = true) : Inert separator text :=
  inert_of_forall hSeparator (by decide) h

theorem depthAfterAll_blanks {blanks : List Char} (h : ∀ c ∈ blanks, isBlank c = true)
    (depth : Nat) : depthAfterAll depth blanks = depth :=
  (@inert_of_isBlank '|' rfl blanks h).depthAfterAll depth

/-- No bracket is lost by trimming. -/
theorem depthAfterAll_trim (depth : Nat) (text : List Char) :
    depthAfterAll depth (trim text) = depthAfterAll depth text := by
  obtain ⟨before, after, hText, hBefore, hAfter⟩ := exists_trim text
  calc depthAfterAll depth (trim text)
      = depthAfterAll depth (before ++ trim text ++ after) := by
        rw [depthAfterAll_append, depthAfterAll_append, depthAfterAll_blanks hBefore,
          depthAfterAll_blanks hAfter]
    _ = depthAfterAll depth text := by rw [← hText]

/-! ### Nested brackets -/

/-- How many brackets are open after a text, with `depth` open before it; nothing if a bracket is
closed that was not opened. -/
def openAfter? : Nat → List Char → Option Nat
  | depth, [] => some depth
  | depth, c :: rest =>
    if isOpener c then openAfter? (depth + 1) rest
    else if isCloser c then
      if depth = 0 then none else openAfter? (depth - 1) rest
    else openAfter? depth rest

/-- Whether the brackets of a text are properly nested.  A bracket may be closed by one of another
kind, as they are counted together. -/
def Nested (text : List Char) : Prop :=
  openAfter? 0 text = some 0

instance (text : List Char) : Decidable (Nested text) :=
  inferInstanceAs (Decidable (openAfter? 0 text = some 0))

theorem openAfter?_append (depth : Nat) (text rest : List Char) :
    openAfter? depth (text ++ rest) = (openAfter? depth text).bind (openAfter? · rest) := by
  induction text generalizing depth with
  | nil => rfl
  | cons c others ih =>
    rw [List.cons_append, openAfter?, openAfter?]
    split
    · exact ih _
    · split
      · split
        · rfl
        · exact ih _
      · exact ih _

theorem openAfter?_of_inert {text : List Char} (h : Inert separator text) (depth : Nat) :
    openAfter? depth text = some depth := by
  induction text with
  | nil => rfl
  | cons c rest ih =>
    obtain ⟨-, hOpener, hCloser⟩ := h c (List.mem_cons_self ..)
    rw [openAfter?, hOpener, hCloser]
    exact ih h.tail

/-- Where no bracket is closed too early, the same holds with `outer` more brackets open around the
text, the count is right, and nothing is cut as long as one bracket is open. -/
theorem inside_of_openAfter? {text : List Char} {depth depth' : Nat}
    (h : openAfter? depth text = some depth') (outer : Nat) :
    openAfter? (depth + outer) text = some (depth' + outer) ∧
      depthAfterAll (depth + outer) text = depth' + outer ∧
      pieces separator (depth + outer + 1) text = (text, []) := by
  induction text generalizing depth with
  | nil =>
    obtain rfl : depth = depth' := Option.some.inj h
    exact ⟨rfl, rfl, rfl⟩
  | cons c rest ih =>
    have hKept : ¬cutsAt separator (depth + outer + 1) c = true := by simp [cutsAt]
    rw [pieces_cons_of_not_cut hKept, depthAfterAll, List.foldl_cons]
    rw [openAfter?] at h ⊢
    by_cases hOpener : isOpener c
    · rw [if_pos hOpener] at h ⊢
      obtain ⟨hOpen, hDepth, hPieces⟩ := ih h
      simp only [depthAfter, hOpener, if_true]
      rw [show depth + outer + 1 = depth + 1 + outer by omega]
      exact ⟨hOpen, hDepth, by rw [hPieces]⟩
    · rw [if_neg hOpener] at h ⊢
      by_cases hCloser : isCloser c
      · rw [if_pos hCloser] at h ⊢
        -- the bracket that is closed is one that the text has opened, not one around it
        cases depth with
        | zero => simp at h
        | succ depth =>
          rw [if_neg (Nat.succ_ne_zero depth), Nat.add_sub_cancel] at h
          obtain ⟨hOpen, hDepth, hPieces⟩ := ih h
          simp only [depthAfter, hOpener, hCloser, if_true, Bool.false_eq_true, if_false]
          rw [if_neg (by omega), show depth + 1 + outer - 1 = depth + outer by omega,
            show depth + 1 + outer + 1 - 1 = depth + outer + 1 by omega]
          exact ⟨hOpen, hDepth, by rw [hPieces]⟩
      · rw [if_neg hCloser] at h ⊢
        obtain ⟨hOpen, hDepth, hPieces⟩ := ih h
        simp only [depthAfter, hOpener, hCloser, Bool.false_eq_true, if_false]
        exact ⟨hOpen, hDepth, by rw [hPieces]⟩

namespace Nested

variable {text : List Char}

/-- Nested text leaves as many brackets open as there are around it, and is not cut where there are
any. -/
theorem inside (h : Nested text) (depth : Nat) : openAfter? depth text = some depth ∧
    Text.depthAfterAll depth text = depth ∧ pieces separator (depth + 1) text = (text, []) := by
  have hInside := @inside_of_openAfter? separator text 0 0 h depth
  rwa [Nat.zero_add] at hInside

theorem depthAfterAll (h : Nested text) (depth : Nat) : depthAfterAll depth text = depth :=
  (@inside '|' text h depth).2.1

/-- Nested text between two brackets is not cut, and leaves the count as it was before them. -/
theorem enclosed (h : Nested text) {opener closer : Char} (hOpens : isOpener opener = true)
    (hOther : isOpener closer = false) (hCloses : isCloser closer = true) (depth : Nat)
    (rest : List Char) :
    openAfter? depth (opener :: (text ++ closer :: rest)) = openAfter? depth rest ∧
      pieces separator depth (opener :: (text ++ closer :: rest)) =
        (opener :: (text ++ closer :: (pieces separator depth rest).1),
          (pieces separator depth rest).2) := by
  obtain ⟨-, -, hInside⟩ := @inside separator text h depth
  constructor
  · rw [openAfter?, if_pos hOpens, openAfter?_append, (@inside separator text h (depth + 1)).1,
      Option.bind_some, openAfter?, hOther, hCloses]
    rfl
  · have hFirst : ¬cutsAt separator depth opener = true := by simp [cutsAt, hOpens]
    have hLast : ¬cutsAt separator (depth + 1) closer = true := by simp [cutsAt]
    have hUp : depthAfter depth opener = depth + 1 := by simp [depthAfter, hOpens]
    have hDown : depthAfter (depth + 1) closer = depth := by simp [depthAfter, hOther, hCloses]
    rw [pieces_cons_of_not_cut hFirst, hUp, pieces_append, h.depthAfterAll, hInside,
      pieces_cons_of_not_cut hLast, hDown]
    rfl

theorem trim (h : Nested text) : Nested (trim text) := by
  obtain ⟨before, after, hText, hBefore, hAfter⟩ := exists_trim text
  have hInert : Inert '|' before := inert_of_isBlank rfl hBefore
  have hInert' : Inert '|' after := inert_of_isBlank rfl hAfter
  unfold Nested at h ⊢
  rw [hText, openAfter?_append, openAfter?_append, openAfter?_of_inert hInert,
    Option.bind_some] at h
  obtain ⟨depth, hDepth, hRest⟩ := Option.bind_eq_some_iff.mp h
  rw [openAfter?_of_inert hInert'] at hRest
  exact Option.some.inj hRest ▸ hDepth

end Nested

/-! ## Parts -/

/-- The parts of a text are made of its pieces. -/
theorem parts_eq (separator : Char) (text : List Char) : parts separator text =
    (((pieces separator 0 text).1 :: (pieces separator 0 text).2).map trim).filter
      (!·.isEmpty) := rfl

/-- A text that is neither cut nor trimmed is its only part. -/
theorem parts_of_uncut {text : List Char} (hSome : text ≠ []) (hTrim : trim text = text)
    (hUncut : pieces separator 0 text = (text, [])) : parts separator text = [text] := by
  rw [parts_eq, hUncut]
  simp [hTrim, hSome]

/-- A separator after nested text cuts, so the parts of both sides are the parts of the whole. -/
theorem parts_append_separator (hCut : cutsAt separator 0 separator = true) {text : List Char}
    (h : depthAfterAll 0 text = 0) (rest : List Char) :
    parts separator (text ++ separator :: rest) = parts separator text ++ parts separator rest := by
  rw [parts_eq, pieces_append, h, pieces_cons_of_cut hCut, join_of_cut, List.map_append,
    List.filter_append]
  rfl

/-- Blanks before a text are no part of it. -/
theorem parts_append_left (hSeparator : isBlank separator = false) {blanks : List Char}
    (h : ∀ c ∈ blanks, isBlank c = true) (text : List Char) :
    parts separator (blanks ++ text) = parts separator text := by
  rw [parts_eq, parts_eq, (inert_of_isBlank hSeparator h).pieces_append, List.map_cons,
    List.map_cons, trim_append_left h]

/-- Blanks after a text are no part of it. -/
theorem parts_append_right (hSeparator : isBlank separator = false) {blanks : List Char}
    (h : ∀ c ∈ blanks, isBlank c = true) (text : List Char) :
    parts separator (text ++ blanks) = parts separator text := by
  have hJoin : ∀ first more, ((join (blanks, []) first more).1 ::
      (join (blanks, []) first more).2).map trim = (first :: more).map trim := by
    intro first more
    induction more generalizing first with
    | nil => simp [join, trim_append_right h]
    | cons next more ih => simpa [join] using ih next
  rw [parts_eq, parts_eq, pieces_append, (inert_of_isBlank hSeparator h).pieces, hJoin]

/-- Trimming a text leaves its parts as they are. -/
theorem parts_trim (hSeparator : isBlank separator = false) (text : List Char) :
    parts separator (trim text) = parts separator text := by
  obtain ⟨before, after, hText, hBefore, hAfter⟩ := exists_trim text
  calc parts separator (trim text)
      = parts separator (before ++ trim text ++ after) := by
        rw [parts_append_right hSeparator hAfter, parts_append_left hSeparator hBefore]
    _ = parts separator text := by rw [← hText]

end Pieces

end Ambient.Text
