import Ambient.Source.Token

/-!
# Items

What a source declares, as far as classes can be made of it.  Structs, enums, modules and imports
are kept in detail; every other item is only known to be there.  The same holds of types and
expressions: forms that describe no class and no value are all alike.
-/

namespace Ambient.Source

/-- A type.  Of the arguments of a path only the types of its last segment are kept; lifetimes and
constants are not. -/
inductive TypeExpr
  | path (qualifiers : List Ident) (last : Ident) (arguments : List TypeExpr)
  | reference (target : TypeExpr)
  | slice (element : TypeExpr)
  | array (element : TypeExpr)
  | parenthesized (inner : TypeExpr)
  | unit
  /-- A single trait that is no plain path. -/
  | bound
  | other
  deriving Repr, Inhabited

/-- The forms of an expression that matter only for what may follow it. -/
inductive ExprForm
  | plain
  /-- Ends a statement without a semicolon. -/
  | blockLike
  /-- A macro call in braces, which ends a statement but not a match arm. -/
  | bracedCall
  /-- Takes no further operator. -/
  | range
  /-- Takes no further comparison. -/
  | comparison
  deriving DecidableEq, Repr, Inhabited

inductive Expr
  | literal (value : Lit)
  | negative (operand : Expr)
  | parenthesized (inner : Expr)
  /-- A single word without arguments. -/
  | word (ident : Ident)
  | other (form : ExprForm)
  deriving Repr, Inhabited

/-- The path of an attribute, or of an entry of its arguments. -/
structure MetaPath where
  /-- Whether the path starts with `::`. -/
  rooted : Bool
  segments : List Ident
  deriving DecidableEq, Repr, Inhabited

/-- Whether a path is the single word `name`, spelled that way. -/
def MetaPath.isWord (path : MetaPath) (name : String) : Bool :=
  match path.segments with
  | [ident] => !path.rooted && ident.spelling == name
  | _ => false

inductive MetaItem
  | flag (path : MetaPath)
  | value (path : MetaPath) (value : Expr)
  | list (path : MetaPath)
  deriving Repr, Inhabited

inductive AttributeBody
  | none
  | value (value : Expr)
  /-- Arguments in delimiters, read as entries and as paths, each where they can be read so.  Of a
  path the words are kept. -/
  | arguments (items : Option (List MetaItem)) (paths : Option (List (List Ident)))
  deriving Repr, Inhabited

/-- An attribute of an item, a field or a variant. -/
structure Attribute where
  path : MetaPath
  body : AttributeBody
  deriving Repr, Inhabited

/-- What a `use` item imports. -/
inductive UseTree
  | path (ident : Ident) (tree : UseTree)
  | name (ident : Ident)
  | rename (ident bound : Ident)
  | glob
  | group (trees : List UseTree)
  deriving Repr, Inhabited

structure Field where
  attributes : List Attribute
  /-- Whether the field is `pub` without a restriction. -/
  isPublic : Bool
  ident : Ident
  type : TypeExpr
  deriving Repr, Inhabited

inductive Fields
  | named (fields : List Field)
  | unnamed
  | unit
  deriving Repr, Inhabited

structure Variant where
  attributes : List Attribute
  ident : Ident
  /-- Whether the variant carries data. -/
  hasFields : Bool
  discriminant : Option Expr
  deriving Repr, Inhabited

structure StructItem where
  attributes : List Attribute
  ident : Ident
  fields : Fields
  deriving Repr, Inhabited

structure EnumItem where
  attributes : List Attribute
  ident : Ident
  variants : List Variant
  deriving Repr, Inhabited

inductive Item
  | use (tree : UseTree)
  | struct (item : StructItem)
  | enum (item : EnumItem)
  /-- A module with its items, or one that is kept in another file. -/
  | module (ident : Ident) (content : Option (List Item))
  | other
  deriving Repr, Inhabited

end Ambient.Source
