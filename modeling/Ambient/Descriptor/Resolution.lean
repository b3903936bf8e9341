import Ambient.Descriptor
import Ambient.Text.Letters

/-!
# The descriptor of a property

A property has a declared type and may have a documented one.  The documented type counts only
where the declared one says nothing about elements: it is missing, `mixed`, or an array form.  In
the descriptor chosen, the words `self`, `static` and `parent` stand for classes and are replaced
by their names.
-/

namespace Ambient

/-- A property with the class that declares it. -/
structure Scope where
  property : Property
  owner : Class
  deriving DecidableEq, Repr, Inhabited

namespace Scope

/-- The place of the property: its own line, or else the line of its class. -/
def location (scope : Scope) : Location :=
  { owner := scope.owner.name
    property := scope.property.name
    file := scope.owner.file
    line := scope.property.line.or scope.owner.line }

end Scope

namespace Descriptor

open Text

/-- Whether a declared type leaves room for a documented one: apart from `null` it consists of
array forms and `mixed`. -/
def isOpen (declared : List Char) : Bool :=
  let atoms := (parts '|' declared).map fun part => trim (part.dropWhile (· == '?'))
  (atoms.filter fun atom => String.ofList atom != "null").all fun atom =>
    String.ofList atom == "mixed" || isArrayForm atom

/-- Whether some part of a descriptor lets `null` in. -/
def isNullable (text : List Char) : Bool :=
  (parts '|' text).any admitsNull

/-- Lets `null` into a documented type that does not admit it. -/
def makeNullable (documented : List Char) : List Char :=
  if isNullable documented then documented
  else
    match parts '|' documented with
    | [single] => '?' :: single
    | _ => documented ++ "|null".toList

/-- The descriptor that counts for a property; empty if there is none. -/
def choose (declared documented : Option String) : List Char :=
  let declared := trim ((declared.getD "").toList)
  let documented := trim ((documented.getD "").toList)
  if documented.isEmpty || !isOpen declared then declared
  else if isNullable declared then makeNullable documented
  else documented

/-! ## Pseudo-types -/

def isWordChar (c : Char) : Bool :=
  isAlphanumeric c || c == '_' || c == '$' || c == ':' || c == '\\' || c == '-'

/-- A maximal run of word characters, or a single other character. -/
inductive Run
  | word (text : List Char)
  | mark (c : Char)
  deriving DecidableEq, Repr

def runs : List Char → List Run
  | [] => []
  | c :: rest =>
    if isWordChar c then
      match runs rest with
      | .word text :: more => .word (c :: text) :: more
      | more => .word [c] :: more
    else .mark c :: runs rest

/-- A word with the class it stands for put in its place; nothing if that class is missing. -/
def substituteWord (self : String) (parent : Option String) (text : List Char) :
    Option (List Char) :=
  match String.ofList text with
  | "self" => some self.toList
  | "static" => some self.toList
  | "parent" => parent.map String.toList
  | _ => some text

/-- A run with the class it stands for put in its place. -/
def substituteRun (self : String) (parent : Option String) : Run → Option (List Char)
  | .word text => substituteWord self parent text
  | .mark c => some [c]

/-- Puts class names in the place of `self`, `static` and `parent`; nothing if `parent` stands for
no class. -/
def substitute? (self : String) (parent : Option String) (text : List Char) :
    Option (List Char) :=
  ((runs text).mapM (substituteRun self parent)).map List.flatten

/-- The descriptor of a property, or the fault that its class has no parent. -/
def resolve (property : Property) (owner : Class) : Except Fault (List Char) :=
  let text := choose property.declared property.documented
  match substitute? owner.name owner.parent text with
  | some text => .ok text
  | none =>
    .error
      { reason := .noParent
        text := String.ofList text
        location := some (Scope.location ⟨property, owner⟩) }

end Descriptor

end Ambient
