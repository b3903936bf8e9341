import Ambient.Descriptor.ArrayForm

/-!
# Descriptors

A descriptor is a text that names a type, such as `?int|list<app::User>`.  It is a list of
alternatives between `|`, each with an optional leading `?`, and each either a word or an array
form with a descriptor inside.  Every text is a descriptor: words without a meaning and array forms
without one are kept as such, so that a replacement can still give them a meaning.
-/

namespace Ambient

/-- One alternative of a descriptor.  Apart from the empty one, each keeps its text without the
leading `?`. -/
inductive Alternative
  /-- A `?` with nothing after it. -/
  | empty
  /-- A keyword, the name of a class, or a text that means nothing. -/
  | word (nullable : Bool) (text : String)
  /-- An array form without a meaning. -/
  | malformed (nullable : Bool) (text : String) (reason : Reason)
  /-- An array form with the alternatives of its element. -/
  | container (nullable : Bool) (text : String) (kind : ContainerKind)
      (element : List Alternative)
  deriving Repr, Inhabited

/-- The alternatives of a descriptor, in order. -/
abbrev Descriptor := List Alternative

namespace Descriptor

open Text

/-- Takes the leading `?` off an alternative. -/
def unmark (part : List Char) : Bool × List Char :=
  match part with
  | '?' :: rest => (true, trim rest)
  | _ => (false, part)

theorem length_unmark_le (part : List Char) : (unmark part).2.length ≤ part.length := by
  unfold unmark
  split
  · exact Nat.le_succ_of_le (length_trim_le _)
  · exact Nat.le_refl _

set_option linter.unusedVariables false in
def parse (text : List Char) : Descriptor :=
  (parts '|' text).attach.map fun part =>
    let nullable := (unmark part.1).1
    let atom := String.ofList (unmark part.1).2
    if (unmark part.1).2.isEmpty then .empty
    else
      match h : arrayForm? (unmark part.1).2 with
      | none => .word nullable atom
      | some (.malformed reason) => .malformed nullable atom reason
      | some (.container kind element) => .container nullable atom kind (parse element)
termination_by text.length
decreasing_by
  exact Nat.lt_of_lt_of_le (length_element_lt h)
    (Nat.le_trans (length_unmark_le _) (length_le_of_mem_parts part.2))

/-- Whether a part of a descriptor lets `null` in by itself. -/
def admitsNull (part : List Char) : Bool :=
  part.head? == some '?' || String.ofList part == "null"

end Descriptor

end Ambient
