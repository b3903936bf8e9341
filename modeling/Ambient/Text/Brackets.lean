import Ambient.Text.Blank

/-!
# Text with brackets

Descriptors nest through four kinds of brackets, `<>`, `()`, `[]` and `{}`, which are counted
together: a separator splits a text only where no bracket is open.  A closer without an opener
leaves the count at zero, so every text splits somehow, however malformed.
-/

namespace Ambient.Text

def isOpener (c : Char) : Bool :=
  c == '<' || c == '(' || c == '[' || c == '{'

def isCloser (c : Char) : Bool :=
  c == '>' || c == ')' || c == ']' || c == '}'

/-- How many brackets are open after a character, with `depth` open before it. -/
def depthAfter (depth : Nat) (c : Char) : Nat :=
  if isOpener c then depth + 1 else if isCloser c then depth - 1 else depth

/-- Whether a character read at a depth ends a part: it is the separator, it is no bracket, and no
bracket is open. -/
def cutsAt (separator : Char) (depth : Nat) (c : Char) : Bool :=
  c == separator && depth == 0 && !isOpener c && !isCloser c

/-- The text up to the first cut, and the texts after each cut, with `depth` brackets open at the
start. -/
def pieces (separator : Char) : Nat → List Char → List Char × List (List Char)
  | _, [] => ([], [])
  | depth, c :: rest =>
    if cutsAt separator depth c then
      let (first, more) := pieces separator depth rest
      ([], first :: more)
    else
      let (first, more) := pieces separator (depthAfter depth c) rest
      (c :: first, more)

/-- The parts of a text between the separators outside all brackets, trimmed, the empty ones
dropped. -/
def parts (separator : Char) (text : List Char) : List (List Char) :=
  let (first, more) := pieces separator 0 text
  ((first :: more).map trim).filter (!·.isEmpty)

theorem length_pieces_le (separator : Char) (depth : Nat) (text : List Char) :
    (pieces separator depth text).1.length ≤ text.length ∧
      ∀ piece ∈ (pieces separator depth text).2, piece.length ≤ text.length := by
  induction text generalizing depth with
  | nil => simp [pieces]
  | cons c rest ih =>
    by_cases h : cutsAt separator depth c
    · obtain ⟨first, more⟩ := ih depth
      simp only [pieces, h, if_true]
      refine ⟨Nat.zero_le _, fun piece hp => ?_⟩
      rcases List.mem_cons.mp hp with rfl | hp
      · exact Nat.le_succ_of_le first
      · exact Nat.le_succ_of_le (more piece hp)
    · obtain ⟨first, more⟩ := ih (depthAfter depth c)
      simp only [pieces, h, if_false, Bool.false_eq_true]
      exact ⟨Nat.succ_le_succ first, fun piece hp => Nat.le_succ_of_le (more piece hp)⟩

/-- No part is longer than the text it is cut from. -/
theorem length_le_of_mem_parts {separator : Char} {text part : List Char}
    (h : part ∈ parts separator text) : part.length ≤ text.length := by
  obtain ⟨first, more⟩ := length_pieces_le separator 0 text
  simp only [parts, List.mem_filter, List.mem_map] at h
  obtain ⟨⟨piece, hp, rfl⟩, -⟩ := h
  refine Nat.le_trans (length_trim_le piece) ?_
  rcases List.mem_cons.mp hp with rfl | hp
  · exact first
  · exact more piece hp

end Ambient.Text
