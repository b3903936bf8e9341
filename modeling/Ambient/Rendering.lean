import Ambient.Spelling
import Ambient.TsType

/-!
# Rendering

The text of types and declarations.  A `Layout` holds what the text depends on besides the thing
itself: the unit of indentation, the current depth, and the styles of declarations.
-/

namespace Ambient

inductive EnumStyle
  /-- As an `enum` with members. -/
  | native
  /-- As a type alias for the union of the values. -/
  | union
  deriving DecidableEq, Repr, Inhabited

inductive RecordStyle
  /-- As an `interface`. -/
  | interface
  /-- As a type alias for an object type. -/
  | typeAlias
  deriving DecidableEq, Repr, Inhabited

structure Layout where
  unit : String := "\t"
  depth : Nat := 0
  enumStyle : EnumStyle := .native
  recordStyle : RecordStyle := .interface
  deriving DecidableEq, Repr, Inhabited

namespace Layout

def deeper (layout : Layout) : Layout :=
  { layout with depth := layout.depth + 1 }

/-- The indentation `extra` levels below the current depth. -/
def indentation (layout : Layout) (extra : Nat) : String :=
  String.join (List.replicate (layout.depth + extra) layout.unit)

end Layout

/-- The texts of a list without repetitions, each at its first place. -/
def distinct (texts : List String) : List String :=
  texts.foldl (fun seen text => if text ∈ seen then seen else seen ++ [text]) []

namespace TsType

/-- Whether the text of a container's element is put in parentheses: it is a union, written as one
or made of several values. -/
def isGrouped : TsType → Bool
  | union _ => true
  | inlineEnum values => 1 < values.length
  | _ => false

/-- What follows a type that is the whole type of a property: a semicolon after the values of an
enumeration. -/
def ending : TsType → String
  | inlineEnum _ => ";"
  | _ => ""

def wrap (kind : ContainerKind) (element : String) : String :=
  match kind with
  | .list => element ++ "[]"
  | .nonEmptyList => "[" ++ element ++ ", ..." ++ element ++ "[]]"
  | .stringMap => "\x7b [key: string]: " ++ element ++ " \x7d"

mutual

def renderMember (layout : Layout) : TsType → String
  | scalar keyword => keyword.keyword
  | raw text => text
  | reference name => QualifiedName.dotted name
  | union members => " | ".intercalate (distinct (renderMembers layout members))
  | container kind element =>
    let text := element.renderMember layout
    wrap kind (if element.isGrouped then "(" ++ text ++ ")" else text)
  | inlineRecord properties =>
    "\x7b\n" ++ renderInline layout properties ++ layout.indentation 1 ++ "\x7d"
  | inlineEnum values => Spelling.caseUnion values

def renderMembers (layout : Layout) : List TsType → List String
  | [] => []
  | type :: rest => type.renderMember layout :: renderMembers layout rest

/-- The lines of the properties of an object type expanded in place. -/
def renderInline (layout : Layout) : List (String × TsType) → String
  | [] => ""
  | (name, type) :: rest =>
    layout.indentation 2 ++ Spelling.key name ++ ": " ++ type.renderMember layout.deeper ++
      type.ending ++ "\n" ++ renderInline layout rest

end

def render (layout : Layout) (type : TsType) : String :=
  type.renderMember layout ++ type.ending

end TsType

namespace Declaration

def propertyLine (layout : Layout) (name : String) (type : TsType) : String :=
  layout.indentation 1 ++ Spelling.key name ++ ": " ++ type.render layout ++ "\n"

def caseLine (layout : Layout) (name : String) (value : CaseValue) : String :=
  layout.indentation 1 ++ Spelling.key name ++ " = " ++ Spelling.caseValue value ++ ",\n"

def render (layout : Layout) : Declaration → String
  | record name properties =>
    let header :=
      match layout.recordStyle with
      | .interface => "export interface " ++ name ++ " \x7b\n"
      | .typeAlias => "export type " ++ name ++ " = \x7b\n"
    layout.indentation 0 ++ header ++
      String.join (properties.map fun entry => propertyLine layout entry.1 entry.2) ++
      layout.indentation 0 ++ "\x7d\n"
  | enumeration name cases =>
    match layout.enumStyle with
    | .native =>
      layout.indentation 0 ++ "export enum " ++ name ++ " \x7b\n" ++
        String.join (cases.map fun entry => caseLine layout entry.1 entry.2) ++
        layout.indentation 0 ++ "\x7d\n"
    | .union =>
      layout.indentation 0 ++ "export type " ++ name ++ " = " ++
        Spelling.caseUnion (cases.map Prod.snd) ++ ";\n"

end Declaration

end Ambient
