import Ambient.Source.Grammar.Generics

/-!
# Types
-/

namespace Ambient.Source.Grammar

open TokenParser

/-! ## Function types -/

def abi? : TokenParser Bool := do
  if ← word? "extern" then
    let _ ← text?
    return true
  return false

/-- Whether the next tokens are `mut self`. -/
def atMutableSelf (tokens : List Token) : Bool :=
  atWord "mut" tokens && atWord "self" (tokens.drop 1)

/-- Whether the next tokens are a name, or one of some words, before the colon of a type. -/
def atParameterName (words : List String) (tokens : List Token) : Bool :=
  let next := tokens.drop 1
  (atName tokens || atWords words tokens) && atOp ":" next && !atOp "::" next

/-- A parameter of a function type, which may have a name, and whether it is the dots that end the
list.  Only the first one may be the receiver. -/
def functionTypeParameter (g : Grammar) (isFirst : Bool) : TokenParser Bool := do
  let _ ← g.attributes
  if (← sees (atParameterName ["_"])) && (← seesAfter 2 (atOp "...")) then skip 2
  if ← op? "..." then return true
  let isMutable ← if isFirst then sees atMutableSelf else pure false
  if isMutable then skip 1
  let isNamedSelf := isFirst && (← sees (atWord "self")) && (← sees (atParameterName ["self"]))
  let isNamed := isNamedSelf || (← sees (atParameterName ["_"]))
  if isNamed then skip 2
  if isFirst && !isNamedSelf && (← sees atMutableSelf) then skip 2
  else if isMutable && !isNamed then word "self"
  else
    let _ ← g.type true
  return false

def functionType (g : Grammar) : TokenParser Unit := do
  let _ ← word? "unsafe"
  let _ ← abi?
  word "fn"
  group .parenthesis (commaSeparatedUntilLast g.functionTypeParameter)
  g.output false

/-! ## Parentheses -/

/-- What parentheses hold in a type: nothing, a bound with a `?`, a type, or the elements of a
tuple. -/
def parenthesizedContent (g : Grammar) : TokenParser TypeExpr := do
  if ← atEnd then return .unit
  if ← sees atLifetime then
    g.traitBounds .object true
    return .parenthesized .other
  if ← sees (atOp "?") then
    g.traitBound .object
    return .bound
  let first ← g.type true
  if ← op? "," then
    let _ ← commaSeparated (g.type true)
    return .other
  return .parenthesized first

/-- Whether a sum of bounds may start with a type in parentheses. -/
def isBoundLike (type : TypeExpr) : Bool :=
  match type with
  | .path _ _ _ => true
  | .bound => true
  | _ => false

/-- A type in parentheses, a tuple, or a sum of bounds whose first one is in parentheses. -/
def parenthesizedType (g : Grammar) (allowPlus : Bool) : TokenParser TypeExpr := do
  let content ← group .parenthesis g.parenthesizedContent
  let startsSum :=
    match content with
    | .bound => true
    | .parenthesized first => allowPlus && isBoundLike first
    | _ => false
  if startsSum && (← sees (atOp "+")) then
    let _ ← many do
      if ← op? "+" then return some (← g.bound .object)
      return none
    return .other
  return content

/-! ## Other types -/

/-- Whether a type is given by tokens that only a compiler understands: a word after
`builtin #`. -/
def atBuiltin (tokens : List Token) : Bool :=
  atWord "builtin" tokens && atOp "#" (tokens.drop 1)

/-- What only a compiler understands: a word after `builtin #` with arguments of any form. -/
def builtin : TokenParser Unit := do
  word "builtin"
  op "#"
  let _ ← name
  require (atGroup .parenthesis)
  let _ ← anyGroup

def pathType (g : Grammar) (allowPlus hasBinder : Bool) : TokenParser TypeExpr := do
  let (qualified, path) ← g.qualifiedPath false
  if qualified then return .other
  if (← sees (atOp "!")) && !(← sees (atOp "!=")) && path.isPlain then
    op "!"
    let _ ← anyGroup
    return .other
  if allowPlus && (← sees (atOp "+")) then
    let _ ← g.furtherBounds .object
    return .other
  return if hasBinder then .bound else path.toType

def bracketType (g : Grammar) : TokenParser TypeExpr := do
  let element ← g.type true
  if ← op? ";" then
    let _ ← g.expr true
    return .array element
  return .slice element

/-- A type; a sum of bounds only where it is allowed. -/
def typeRule (g : Grammar) (allowPlus : Bool) : TokenParser TypeExpr := do
  let hasBinder ← sees (atWord "for")
  if hasBinder then
    g.binder
    unless (← sees atPathWord) || (← sees (atWords ["fn", "unsafe", "extern"])) do failure
  if ← sees (atGroup .parenthesis) then return ← g.parenthesizedType allowPlus
  if ← sees (atWords ["fn", "unsafe", "extern"]) then
    g.functionType
    return .other
  if ← sees atBuiltin then
    builtin
    return .other
  if (← sees atPathWord) || (← sees (atOps ["::", "<"])) then
    return ← g.pathType allowPlus hasBinder
  if ← word? "dyn" then
    let _ ← op? "*"
    g.traitBounds .object allowPlus
    return .other
  if ← sees (atGroup .bracket) then return ← group .bracket g.bracketType
  if ← op? "*" then
    unless ← word? "const" do word "mut"
    let _ ← g.type false
    return .other
  if ← op? "&" then
    let _ ← lifetime?
    let _ ← word? "mut"
    return .reference (← g.type false)
  if ← op? "!" then return .other
  if ← word? "impl" then
    g.traitBounds .hidden allowPlus
    return .other
  if ← word? "_" then return .other
  if ← sees atLifetime then
    g.traitBounds .object true
    return .other
  failure

end Ambient.Source.Grammar
