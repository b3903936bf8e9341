/-!
# The texts of the system

The paths and names that the system keeps are bytes.  Most of them are text, and whatever is not is
kept as it is.  Only a text that is made of a name has a replacement for it.
-/

namespace Ambient

/-- What a name of the system is made of. -/
inductive SystemUnit
  | char (c : Char)
  /-- Bytes that are part of no character, as many as are replaced together. -/
  | stray (bytes : List UInt8)
  deriving DecidableEq, Repr, Inhabited

namespace SystemUnit

/-- The character that a text has for a unit. -/
def shown : SystemUnit → Char
  | char c => c
  | stray _ => '\uFFFD'

def char? : SystemUnit → Option Char
  | char c => some c
  | stray _ => none

end SystemUnit

/-- A path or a name as the system keeps it. -/
abbrev SystemText := List SystemUnit

namespace SystemText

def ofString (text : String) : SystemText :=
  text.toList.map .char

instance : Coe String SystemText := ⟨ofString⟩

/-- The text of a name, in which every stray unit counts as one replacement character. -/
def text (name : SystemText) : String :=
  String.ofList (name.map SystemUnit.shown)

/-- The text of a name without stray units. -/
def unicode? (name : SystemText) : Option String :=
  (name.mapM SystemUnit.char?).map String.ofList

@[simp] theorem text_ofString (text : String) : (ofString text).text = text := by
  refine String.toList_injective ?_
  simp [SystemText.text, ofString, SystemUnit.shown, Function.comp_def]

@[simp] theorem unicode?_ofString (text : String) : (ofString text).unicode? = some text := by
  have hChars : (text.toList.map SystemUnit.char).mapM SystemUnit.char? = some text.toList := by
    induction text.toList with
    | nil => rfl
    | cons c rest ih => simp [SystemUnit.char?, ih]
  simp [unicode?, ofString, hChars]

end SystemText

end Ambient
