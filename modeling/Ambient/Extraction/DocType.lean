import Ambient.Text.Brackets

/-!
# Documented types

The descriptor after the tag `@var` in the documentation of a field.  It ends at the first blank
outside brackets, so `array<string, int>` is read whole.
-/

namespace Ambient.Extraction

open Text

def typeTag : List Char := ['@', 'v', 'a', 'r']

/-- The text after the first tag that a blank follows; `@variable` holds no tag. -/
def afterTag? : List Char → Option (List Char)
  | [] => none
  | c :: rest =>
    if typeTag.isPrefixOf (c :: rest) && (rest.drop 3).head?.any isBlank then some (rest.drop 3)
    else afterTag? rest

/-- The text up to the first blank outside brackets, with `depth` brackets open before it. -/
def upToBlank : Nat → List Char → List Char
  | _, [] => []
  | depth, c :: rest =>
    if depth == 0 && isBlank c then [] else c :: upToBlank (depthAfter depth c) rest

def documentedType? (documentation : List Char) : Option String :=
  match afterTag? documentation with
  | none => none
  | some rest =>
    let type := trim (upToBlank 0 (trimStart rest))
    if type.isEmpty then none else some (String.ofList type)

end Ambient.Extraction
