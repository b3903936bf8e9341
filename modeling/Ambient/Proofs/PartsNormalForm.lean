import Ambient.Proofs.TypeTexts

/-!
# A normal form of texts

Splitting a text gives parts that are done with: none of them is empty, begins or ends with a blank,
has a separator outside its brackets, or is cut once more.  Joined by the separator they are cut
where they were joined, so splitting the joined text gives the same parts.  And the parts are all
there is in the text, for what lies between them are blanks and the separators that cut (`Divided`).

All of this holds for texts with any brackets.  A bracket that is closed without having been opened
leaves the count at zero, and one that is never closed can only be in the last part, since the count
is zero at every cut (`balanced_pieces`).
-/

namespace Ambient.Text

variable {separator : Char} {text rest : List Char}

/-- What is cut from a text is neither cut nor trimmed any further. -/
theorem parts_of_mem_parts {part : List Char} (h : part ∈ parts separator text) :
    part ≠ [] ∧ trim part = part ∧ parts separator part = [part] := by
  have hUncut : Uncut separator part := uncut_of_mem_parts h
  rw [parts_eq, List.mem_filter, List.mem_map] at h
  obtain ⟨⟨piece, -, rfl⟩, hSome⟩ := h
  have hSome : trim piece ≠ [] := by simpa using hSome
  exact ⟨hSome, trim_trim piece, parts_of_uncut hSome (trim_trim piece) hUncut.pieces_eq⟩

/-- A separator in an uncut text stands inside brackets, unless it is a bracket itself. -/
theorem Uncut.depth_ne_zero {before after : List Char}
    (h : Uncut separator (before ++ separator :: after)) (hOpener : isOpener separator = false)
    (hCloser : isCloser separator = false) : depthAfterAll 0 before ≠ 0 := by
  intro hDepth
  have hCut : cutsAt separator 0 separator = true := by simp [cutsAt, hOpener, hCloser]
  rw [Uncut, pieces_append, hDepth, pieces_cons_of_cut hCut] at h
  -- the cut leaves a piece on each side
  have hPieces := join_of_cut (pieces separator 0 after).1 (pieces separator 0 before).1
    (pieces separator 0 after).2 (pieces separator 0 before).2
  rw [h] at hPieces
  simpa using congrArg List.length hPieces

/-! ## Pieces as they stand in the text -/

/-- Only a separator that is no bracket cuts. -/
theorem cutsAt_separator {depth : Nat} (h : (pieces separator depth text).2 ≠ []) :
    cutsAt separator 0 separator = true := by
  induction text generalizing depth with
  | nil => exact absurd rfl h
  | cons c rest ih =>
    by_cases hCut : cutsAt separator depth c = true
    · have hSame := hCut
      simp only [cutsAt, Bool.and_eq_true, beq_iff_eq] at hSame
      obtain ⟨⟨⟨rfl, rfl⟩, -⟩, -⟩ := hSame
      exact hCut
    · rw [pieces_cons_of_not_cut hCut] at h
      exact ih h

/-- The pieces and the separators between them make up the text. -/
theorem append_pieces (separator : Char) (depth : Nat) (text : List Char) :
    (pieces separator depth text).1 ++
      (pieces separator depth text).2.flatMap (separator :: ·) = text := by
  induction text generalizing depth with
  | nil => rfl
  | cons c rest ih =>
    by_cases hCut : cutsAt separator depth c = true
    · have hSame := hCut
      simp only [cutsAt, Bool.and_eq_true, beq_iff_eq] at hSame
      rw [pieces_cons_of_cut hCut, List.flatMap_cons, List.nil_append, List.cons_append, ih,
        hSame.1.1.1]
    · rw [pieces_cons_of_not_cut hCut, List.cons_append, ih]

/-- A piece with another one behind it closes all brackets, since it ends at a cut. -/
theorem depthAfterAll_pieces (separator : Char) (depth : Nat) (text : List Char) :
    ((pieces separator depth text).2 ≠ [] →
      depthAfterAll depth (pieces separator depth text).1 = 0) ∧
    (pieces separator depth text).2.Pairwise fun piece _ => depthAfterAll 0 piece = 0 := by
  induction text generalizing depth with
  | nil => exact ⟨fun h => absurd rfl h, .nil⟩
  | cons c rest ih =>
    by_cases hCut : cutsAt separator depth c = true
    · have hDepth : depth = 0 := by
        simp only [cutsAt, Bool.and_eq_true, beq_iff_eq] at hCut
        exact hCut.1.1.2
      subst hDepth
      obtain ⟨hFirst, hMore⟩ := ih 0
      rw [pieces_cons_of_cut hCut]
      exact ⟨fun _ => rfl, List.pairwise_cons.mpr
        ⟨fun later hLater => hFirst (List.ne_nil_of_mem hLater), hMore⟩⟩
    · rw [pieces_cons_of_not_cut hCut]
      exact ih (depthAfter depth c)

theorem balanced_pieces (separator : Char) (text : List Char) :
    ((pieces separator 0 text).1 :: (pieces separator 0 text).2).Pairwise
      fun piece _ => depthAfterAll 0 piece = 0 := by
  obtain ⟨hFirst, hMore⟩ := depthAfterAll_pieces separator 0 text
  exact List.pairwise_cons.mpr ⟨fun later hLater => hFirst (List.ne_nil_of_mem hLater), hMore⟩

/-! ## Joining -/

theorem balanced_parts (separator : Char) (text : List Char) :
    (parts separator text).Pairwise fun part _ => depthAfterAll 0 part = 0 := by
  rw [parts_eq]
  refine List.Pairwise.filter _ (List.pairwise_map.mpr ?_)
  simpa only [depthAfterAll_trim] using balanced_pieces separator text

/-- Parts that are joined by a separator come apart there, and only there. -/
theorem parts_intercalate {sole : List (List Char)}
    (hSole : ∀ part ∈ sole, parts separator part = [part])
    (hBalanced : sole.Pairwise fun part _ => depthAfterAll 0 part = 0)
    (hCut : sole.tail ≠ [] → cutsAt separator 0 separator = true) :
    parts separator (List.intercalate [separator] sole) = sole := by
  induction sole with
  | nil => rfl
  | cons part more ih =>
    have hPart := hSole part (.head _)
    cases more with
    | nil => simpa using hPart
    | cons next others =>
      have hCut := hCut (List.cons_ne_nil next others)
      -- all brackets of the first part are closed, so the separator behind it cuts
      have hDepth := List.rel_of_pairwise_cons hBalanced (.head others)
      rw [List.intercalate_cons_cons, List.append_assoc, List.singleton_append,
        parts_append_separator hCut hDepth, hPart,
        ih (fun other hOther => hSole other (.tail _ hOther)) hBalanced.of_cons (fun _ => hCut)]
      rfl

/-- A text has further parts only if its separator cuts. -/
theorem tail_parts (h : (parts separator text).tail ≠ []) :
    cutsAt separator 0 separator = true := by
  by_contra hNone
  have hUncut : Uncut separator text := by_contra fun hCut => hNone (cutsAt_separator hCut)
  have hLength := hUncut.length_parts_le
  exact h (List.length_eq_zero_iff.mp (by rw [List.length_tail]; omega))

/-! ## The layout of a text -/

/-- How parts lie in a text, with `depth` brackets open before it: in their order, and outside them
only blanks, and separators where no bracket is open.  A part may start only where `ready` says so,
which is at the start of the text and behind each separator. -/
inductive Divided (separator : Char) : Bool → Nat → List Char → List (List Char) → Prop
  | done {ready : Bool} {depth : Nat} : Divided separator ready depth [] []
  | blank {ready : Bool} {depth : Nat} {c : Char} {rest : List Char} {parts : List (List Char)} :
      isBlank c = true → Divided separator ready depth rest parts →
      Divided separator ready depth (c :: rest) parts
  | separator {ready : Bool} {rest : List Char} {parts : List (List Char)} :
      isOpener separator = false → isCloser separator = false →
      Divided separator true 0 rest parts → Divided separator ready 0 (separator :: rest) parts
  | part {part rest : List Char} {parts : List (List Char)} :
      Divided separator false (depthAfterAll 0 part) rest parts →
      Divided separator true 0 (part ++ rest) (part :: parts)

theorem Divided.blanks {ready : Bool} {depth : Nat} {parts : List (List Char)} {blanks : List Char}
    (hBlanks : ∀ c ∈ blanks, isBlank c = true) (h : Divided separator ready depth rest parts) :
    Divided separator ready depth (blanks ++ rest) parts := by
  induction blanks with
  | nil => exact h
  | cons c others ih =>
    exact .blank (hBlanks c (.head _)) (ih fun other hOther => hBlanks other (.tail _ hOther))

/-- A piece is blank, or a part between blanks. -/
theorem Divided.piece {more : List (List Char)} (piece : List Char)
    (h : ∀ ready, Divided separator ready (depthAfterAll 0 piece) rest more) :
    Divided separator true 0 (piece ++ rest)
      ([trim piece].filter (!·.isEmpty) ++ more) := by
  obtain ⟨before, after, hText, hBefore, hAfter⟩ := exists_trim piece
  -- blanks close no brackets, so what follows may be read as behind the part alone
  rw [← depthAfterAll_trim] at h
  have hRest := fun ready => (h ready).blanks hAfter
  have hPiece : piece ++ rest = before ++ (trim piece ++ (after ++ rest)) := by
    rw [← List.append_assoc, ← List.append_assoc, ← hText]
  rw [hPiece]
  refine Divided.blanks hBefore ?_
  by_cases hNone : trim piece = []
  · rw [hNone] at hRest ⊢
    exact hRest true
  · have hKept : [trim piece].filter (!·.isEmpty) = [trim piece] := by simp [hNone]
    rw [hKept]
    exact .part (hRest false)

theorem divided_pieces (first : List Char) (more : List (List Char))
    (hBalanced : (first :: more).Pairwise fun piece _ => depthAfterAll 0 piece = 0)
    (hCut : more ≠ [] → cutsAt separator 0 separator = true) :
    Divided separator true 0 (first ++ more.flatMap (separator :: ·))
      (((first :: more).map trim).filter (!·.isEmpty)) := by
  induction more generalizing first with
  | nil =>
    have hEnd : ∀ ready, Divided separator ready (depthAfterAll 0 first) [] [] := fun _ => .done
    simpa using Divided.piece first hEnd
  | cons next others ih =>
    have hCut := hCut (List.cons_ne_nil next others)
    have hSeparator := hCut
    simp only [cutsAt, Bool.and_eq_true, Bool.not_eq_true'] at hSeparator
    have hDepth := List.rel_of_pairwise_cons hBalanced (.head others)
    have hRest := ih next hBalanced.of_cons fun _ => hCut
    have hPiece := @Divided.piece separator _ _ first fun ready =>
      hDepth ▸ Divided.separator hSeparator.1.2 hSeparator.2 hRest
    rwa [← List.filter_append] at hPiece

/-- Splitting brings a text into a normal form, whatever brackets it has.  Each part is not empty,
has no blank at its ends and no separator outside its brackets, and splits into itself alone; the
parts joined by the separator split into the same parts; and they stand in the text one after the
other, with nothing around them but blanks and separators outside brackets. -/
theorem parts_normal_form (separator : Char) (text : List Char) :
    (∀ part ∈ parts separator text,
      part ≠ [] ∧ trim part = part ∧ parts separator part = [part] ∧
      (isOpener separator = false → isCloser separator = false →
        ∀ before after, part = before ++ separator :: after → depthAfterAll 0 before ≠ 0)) ∧
    parts separator (List.intercalate [separator] (parts separator text)) =
      parts separator text ∧
    Divided separator true 0 text (parts separator text) := by
  refine ⟨fun part hPart => ?_, ?_, ?_⟩
  · obtain ⟨hSome, hTrim, hSole⟩ := parts_of_mem_parts hPart
    refine ⟨hSome, hTrim, hSole, fun hOpener hCloser before after hEq => ?_⟩
    have hUncut : Uncut separator part := uncut_of_mem_parts hPart
    rw [hEq] at hUncut
    exact hUncut.depth_ne_zero hOpener hCloser
  · exact parts_intercalate (fun part hPart => (parts_of_mem_parts hPart).2.2)
      (balanced_parts separator text) tail_parts
  · have hDivided := divided_pieces _ _ (balanced_pieces separator text) cutsAt_separator
    rwa [append_pieces] at hDivided

end Ambient.Text
