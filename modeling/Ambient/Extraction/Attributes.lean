import Ambient.Class
import Ambient.Extraction.DocType
import Ambient.Extraction.Renaming
import Ambient.Extraction.Module

/-!
# What attributes say

Markers, names, values and documentation, as far as attributes tell them.  An entry of an unknown
kind, or with a value of a wrong kind, is passed over.
-/

namespace Ambient.Extraction

open Source

/-- The entries of the arguments of every attribute with a name.  Arguments that cannot be read as
entries count for nothing. -/
def entries (attributes : List Attribute) (name : String) : List MetaItem :=
  attributes.flatMap fun attr =>
    if attr.path.isWord name then
      match attr.body with
      | .arguments (some items) _ => items
      | _ => []
    else []

def valueOf? (key : String) : MetaItem → Option Expr
  | .value path value => if path.isWord key then some value else none
  | _ => none

def asText? : Expr → Option String
  | .literal (.text value) => some value
  | _ => none

/-- The first string among the entries with a key. -/
def textOf? (items : List MetaItem) (key : String) : Option String :=
  items.findSome? fun item => (valueOf? key item).bind asText?

def hasFlag (items : List MetaItem) (key : String) : Bool :=
  items.any fun
    | .flag path => path.isWord key
    | _ => false

def isSkipped (serde : List MetaItem) : Bool :=
  hasFlag serde "skip" || hasFlag serde "skip_serializing"

def renamingOf (serde : List MetaItem) : Renaming :=
  ((textOf? serde "rename_all").map Renaming.ofName).getD .none

/-! ## Values -/

/-- Whether an integer has 64 bits, one of them for its sign. -/
def isInt64 (value : Int) : Bool :=
  -9223372036854775808 ≤ value && value ≤ 9223372036854775807

def inRange? (value : Int) : Option Int :=
  if isInt64 value then some value else none

/-- The integer that an expression is: a number, possibly in parentheses or with minus signs. -/
def asInt? : Expr → Option Int
  | .literal (.int value _) => inRange? value
  | .negative operand => (asInt? operand).map fun value => -value
  | .parenthesized inner => asInt? inner
  | _ => none

def asLiteral? : Expr → Option Literal
  | .literal (.text value) => some (.text value)
  | .literal (.int value _) => (inRange? value).map .int
  | .literal (.float value _) => some (.float value)
  | .literal (.bool value) => some (.bool value)
  | .word ident => if ident.spelling == "null" then some .null else none
  | .negative operand =>
    match asLiteral? operand with
    | some (.int value) => some (.int (-value))
    | some (.float value) => some (.float value.neg)
    | _ => none
  | _ => none

def asCaseValue? (expr : Expr) : Option CaseValue :=
  match asLiteral? expr with
  | some (.text value) => some (.text value)
  | some (.int value) => some (.int value)
  | _ => none

def caseValue? (ts : List MetaItem) : Option CaseValue :=
  ts.findSome? fun item => (valueOf? "value" item).bind asCaseValue?

/-! ## Markers -/

def markerOf? : MetaItem → Option Marker
  | .flag path => if path.isWord "inline" then some .inline else none
  | .value path value =>
    if path.isWord "literal" then (asLiteral? value).map .literal
    else if path.isWord "raw" then (asText? value).map fun text => .literal (.raw text)
    else if path.isWord "template" then (asText? value).map .template
    else none
  | .list _ => none

def markersOf (ts : List MetaItem) : List Marker :=
  ts.filterMap markerOf?

/-! ## Documentation and derives -/

def documentation? (attr : Attribute) : Option (List Char) :=
  match attr.body with
  | .value value =>
    if attr.path.isWord "doc" then (asText? value).map String.toList else none
  | _ => none

/-- The documentation of a field, each attribute of it on lines of its own. -/
def documentation (attributes : List Attribute) : List Char :=
  (attributes.filterMap documentation?).flatMap (· ++ ['\n'])

def docType? (attributes : List Attribute) : Option String :=
  documentedType? (documentation attributes)

def derives (attributes : List Attribute) : List (List Ident) :=
  attributes.flatMap fun attr =>
    if attr.path.isWord "derive" then
      match attr.body with
      | .arguments _ (some paths) => paths
      | _ => []
    else []

/-- The name that a derived path ends in, an imported one under the name it was imported from. -/
def derivedName? (module : Module) (path : List Ident) : Option String :=
  match path with
  | [ident] =>
    match (module.imports.find? ident.spelling).bind List.getLast? with
    | some name => some name
    | none => some ident.spelling
  | _ => path.getLast?.map Ident.spelling

/-- Whether a type derives one of the markers that ask for generation. -/
def derivesMarker (module : Module) (markers : List String) (attributes : List Attribute) :
    Bool :=
  (derives attributes).any fun path => (derivedName? module path).any (· ∈ markers)

end Ambient.Extraction
