import Ambient.Decimal.Binary64
import Ambient.QualifiedName

/-!
# Classes

What is known about a type of the described program: a *record* with named properties, or an
*enumeration* with valued cases.  A class says nothing about TypeScript.  The types of its
properties are descriptors, texts such as `?int` or `list<app::User>`, and its properties may carry
markers that override what a descriptor would become.
-/

namespace Ambient

/-- A literal that a marker puts in the place of a type. -/
inductive Literal
  | text (value : String)
  | int (value : Int)
  | float (value : Binary64)
  | bool (value : Bool)
  | null
  /-- A TypeScript expression, written out as it is. -/
  | raw (expression : String)
  deriving DecidableEq, Repr, Inhabited

/-- A wish about the type of one property. -/
inductive Marker
  /-- The type is this literal. -/
  | literal (value : Literal)
  /-- The type is a template literal with this pattern. -/
  | template (pattern : String)
  /-- Classes that the descriptor names are expanded in place. -/
  | inline
  deriving DecidableEq, Repr, Inhabited

/-- A public property of a record. -/
structure Property where
  name : String
  /-- The descriptor of the declared type. -/
  declared : Option String := none
  /-- The descriptor given in the documentation. -/
  documented : Option String := none
  markers : List Marker := []
  line : Option Nat := none
  deriving DecidableEq, Repr, Inhabited

namespace Property

def literal? (property : Property) : Option Literal :=
  property.markers.findSome? fun
    | .literal value => some value
    | _ => none

def template? (property : Property) : Option String :=
  property.markers.findSome? fun
    | .template pattern => some pattern
    | _ => none

/-- Whether the classes that the property names are expanded in place. -/
def isInline (property : Property) : Bool :=
  property.markers.any fun
    | .inline => true
    | _ => false

end Property

inductive CaseValue
  | text (value : String)
  | int (value : Int)
  deriving DecidableEq, Repr, Inhabited

structure Case where
  name : String
  value : CaseValue
  deriving DecidableEq, Repr, Inhabited

inductive Shape
  | record (properties : List Property)
  | enumeration (cases : List Case)
  deriving DecidableEq, Repr, Inhabited

/-- A described type. -/
structure Class where
  /-- The qualified name. -/
  name : String
  shape : Shape
  /-- The qualified name of the parent class. -/
  parent : Option String := none
  /-- Whether the class asks to be generated without being named. -/
  marked : Bool := false
  file : Option String := none
  line : Option Nat := none
  deriving DecidableEq, Repr, Inhabited

namespace Class

def shortName (c : Class) : String :=
  QualifiedName.short c.name

def isEnumeration (c : Class) : Bool :=
  match c.shape with
  | .enumeration _ => true
  | .record _ => false

end Class

end Ambient
