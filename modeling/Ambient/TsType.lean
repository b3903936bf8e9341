import Ambient.Class
import Ambient.Table

/-!
# TypeScript types

The type expressions that properties have, and the declarations that are made of them.
-/

namespace Ambient

inductive Scalar
  | boolean | number | string | true | false | null | undefined | object | any | unknown | never
  deriving DecidableEq, Repr, Inhabited

namespace Scalar

def keyword : Scalar → String
  | boolean => "boolean"
  | number => "number"
  | string => "string"
  | true => "true"
  | false => "false"
  | null => "null"
  | undefined => "undefined"
  | object => "object"
  | any => "any"
  | unknown => "unknown"
  | never => "never"

/-- Whether the keyword admits `null` without a union. -/
def admitsNull : Scalar → Bool
  | unknown | any | null => Bool.true
  | _ => Bool.false

end Scalar

/-- The shapes of a container of elements `T`. -/
inductive ContainerKind
  /-- The array type `T[]`. -/
  | list
  /-- The tuple type `[T, ...T[]]`. -/
  | nonEmptyList
  /-- An object type with an index signature on string keys. -/
  | stringMap
  deriving DecidableEq, Repr, Inhabited

/-- A TypeScript type expression. -/
inductive TsType
  | scalar (keyword : Scalar)
  /-- TypeScript text, written out as it is. -/
  | raw (text : String)
  /-- The declaration of the class with this qualified name. -/
  | reference (name : String)
  | union (members : List TsType)
  | container (kind : ContainerKind) (element : TsType)
  /-- An object type expanded in place. -/
  | inlineRecord (properties : List (String × TsType))
  /-- The values of an enumeration expanded in place. -/
  | inlineEnum (values : List CaseValue)
  deriving Repr, Inhabited

namespace TsType

def unknown : TsType := scalar .unknown

/-- The type of `null`. -/
def null : TsType := scalar .null

/-- Adds `null` to a type, unless it is a keyword that admits `null` already. -/
def nullable (type : TsType) : TsType :=
  match type with
  | scalar keyword => if keyword.admitsNull then type else union [type, null]
  | _ => union [type, null]

/-- The type with these alternatives: no alternative says nothing, and a single one stands for
itself. -/
def ofAlternatives : List TsType → TsType
  | [] => unknown
  | [type] => type
  | types => union types

mutual

/-- The names of the classes that a type refers to, at any depth. -/
def references : TsType → List String
  | reference name => [name]
  | union members => referencesOfMembers members
  | container _ element => element.references
  | inlineRecord properties => referencesOfProperties properties
  | scalar _ | raw _ | inlineEnum _ => []

def referencesOfMembers : List TsType → List String
  | [] => []
  | type :: rest => type.references ++ referencesOfMembers rest

def referencesOfProperties : List (String × TsType) → List String
  | [] => []
  | (_, type) :: rest => type.references ++ referencesOfProperties rest

end

theorem mem_referencesOfMembers {members : List TsType} {name : String} :
    name ∈ referencesOfMembers members ↔ ∃ type ∈ members, name ∈ type.references := by
  induction members with
  | nil => simp [referencesOfMembers]
  | cons type rest ih => simp [referencesOfMembers, ih]

theorem mem_referencesOfProperties {properties : List (String × TsType)} {name : String} :
    name ∈ referencesOfProperties properties ↔
      ∃ entry ∈ properties, name ∈ entry.2.references := by
  induction properties with
  | nil => simp [referencesOfProperties]
  | cons entry rest ih => simp [referencesOfProperties, ih]

/-! ## Equality

Types stand in lists and pairs inside other types, where equality cannot be derived. -/

mutual

/-- Whether two types are the same. -/
def same : TsType → TsType → Bool
  | scalar keyword, scalar other => keyword == other
  | raw text, raw other => text == other
  | reference name, reference other => name == other
  | union members, union others => sameMembers members others
  | container kind element, container kind' element' => kind == kind' && same element element'
  | inlineRecord properties, inlineRecord others => sameProperties properties others
  | inlineEnum values, inlineEnum others => values == others
  | _, _ => false

def sameMembers : List TsType → List TsType → Bool
  | [], [] => true
  | type :: rest, other :: others => same type other && sameMembers rest others
  | _, _ => false

def sameProperties : List (String × TsType) → List (String × TsType) → Bool
  | [], [] => true
  | (name, type) :: rest, (name', type') :: others =>
    name == name' && same type type' && sameProperties rest others
  | _, _ => false

end

mutual

theorem same_iff : ∀ {type other : TsType}, same type other = true ↔ type = other
  | scalar _, other | raw _, other | reference _, other | inlineEnum _, other => by
    cases other <;> simp [same]
  | union members, other => by
    cases other <;> simp [same, @sameMembers_iff members]
  | container _ element, other => by
    cases other <;> simp [same, @same_iff element]
  | inlineRecord properties, other => by
    cases other <;> simp [same, @sameProperties_iff properties]

theorem sameMembers_iff : ∀ {members others : List TsType},
    sameMembers members others = true ↔ members = others
  | [], others => by cases others <;> simp [sameMembers]
  | type :: rest, others => by
    cases others <;> simp [sameMembers, @same_iff type, @sameMembers_iff rest]

theorem sameProperties_iff : ∀ {properties others : List (String × TsType)},
    sameProperties properties others = true ↔ properties = others
  | [], others => by cases others <;> simp [sameProperties]
  | (_, type) :: rest, others => by
    cases others <;>
      simp [sameProperties, Prod.ext_iff, @same_iff type, @sameProperties_iff rest]

end

instance : DecidableEq TsType := fun _ _ => decidable_of_iff _ same_iff

end TsType

/-- A named item of a declaration file. -/
inductive Declaration
  | record (name : String) (properties : Table TsType)
  | enumeration (name : String) (cases : Table CaseValue)
  deriving DecidableEq, Repr, Inhabited

namespace Declaration

def name : Declaration → String
  | record name _ => name
  | enumeration name _ => name

def isEnumeration : Declaration → Bool
  | record _ _ => false
  | enumeration _ _ => true

/-- The properties of the item; an enumeration has none. -/
def properties : Declaration → Table TsType
  | record _ properties => properties
  | enumeration _ _ => []

/-- The names of the classes that the item refers to. -/
def references (declaration : Declaration) : List String :=
  TsType.referencesOfProperties declaration.properties

end Declaration

end Ambient
