import Ambient.Source.TokenParser

/-!
# Paths

The grammar of a source nests: types hold types, expressions hold statements, and modules hold
items.  Every rule below takes the readers of what may stand inside it as a `Grammar`, and reads
only its own level.
-/

namespace Ambient.Source

/-- What a bound belongs to.  This decides what it may be besides a lifetime and a plain trait. -/
inductive BoundPlace
  /-- A trait object or an alias of bounds: nothing else. -/
  | object
  /-- A parameter, a predicate, a trait or an associated type: a constant trait. -/
  | declaration
  /-- A hidden type: a constant trait, or what the type captures. -/
  | hidden
  deriving DecidableEq, Repr

/-- The readers of the nested constructs of a source. -/
structure Grammar where
  /-- A type, which may be a sum of bounds if the flag allows it. -/
  type : Bool → TokenParser TypeExpr
  /-- An expression, which may be a struct literal if the flag allows it. -/
  expr : Bool → TokenParser Expr
  /-- The operand of an operator. -/
  operand : Bool → TokenParser Expr
  /-- What operators of at least a given precedence make of an expression. -/
  operators : Bool → Nat → Expr → TokenParser Expr
  /-- An expression that starts a statement, or the body of a match arm. -/
  leading : TokenParser Expr
  /-- A bound, and whether it names a trait. -/
  bound : BoundPlace → TokenParser Bool
  /-- A pattern without alternatives, and whether it is a range that lacks one of its ends. -/
  pattern : TokenParser Bool
  /-- A named field. -/
  field : TokenParser Field
  /-- The content of a block, which may start with inner attributes if the flag allows it. -/
  statements : Bool → TokenParser Unit
  item : TokenParser Item

structure Segment where
  ident : Ident
  /-- The arguments in angle brackets, where there are such brackets; of them, the types. -/
  arguments : Option (List (Option TypeExpr))

/-- Whether no argument has been given to a segment. -/
def Segment.lacksArguments (segment : Segment) : Bool :=
  (segment.arguments.getD []).isEmpty

structure Path where
  rooted : Bool
  qualifiers : List Segment
  last : Segment

namespace Path

def words (path : Path) : List Ident :=
  (path.qualifiers ++ [path.last]).map Segment.ident

def isPlain (path : Path) : Bool :=
  (path.qualifiers ++ [path.last]).all (·.arguments.isNone)

def toType (path : Path) : TypeExpr :=
  .path (path.qualifiers.map Segment.ident) path.last.ident
    ((path.last.arguments.getD []).filterMap id)

def ofSegments (rooted : Bool) (first : Segment) (rest : List Segment) : Path :=
  { rooted := rooted
    qualifiers := (first :: rest).dropLast
    last := rest.getLastD first }

end Path

namespace Grammar

open TokenParser

def block (g : Grammar) : TokenParser Unit :=
  group .brace (g.statements true)

def plainBlock (g : Grammar) : TokenParser Unit :=
  group .brace (g.statements false)

def plainPath : TokenParser MetaPath := do
  let rooted ← op? "::"
  unless ← sees atPathWord do failure
  let first ← anyWord
  let rest ← many do
    if ← op? "::" then
      unless ← sees atPathWord do failure
      return some (← anyWord)
    return none
  return ⟨rooted, first :: rest⟩

/-! ## Arguments -/

def constant (g : Grammar) : TokenParser Unit := do
  if ← sees atLiteral then
    let _ ← literal
  else if ← sees atName then
    let _ ← name
  else g.block

/-- Bounds joined by `+` up to a token that ends them; a `+` may come last. -/
def boundsUntil (g : Grammar) (place : BoundPlace) (ends : List Token → Bool) :
    TokenParser Unit := do
  let _ ← many do
    if (← atEnd) || (← sees ends) then return none
    let _ ← g.bound place
    unless (← atEnd) || (← sees ends) do op "+"
    return some ()

/-- What follows the name of an associated type or constant among the arguments of a path, where the
next token shows that it is one: what it equals, or its bounds.  Says whether it was one. -/
def association? (g : Grammar) : TokenParser Bool := do
  if ← op? "=" then
    if (← sees atLiteral) || (← sees (atGroup .brace)) then g.constant
    else
      let _ ← g.type true
    return true
  if ← op? ":" then
    g.boundsUntil .declaration (atOps [",", ">"])
    return true
  return false

/-- An argument of a path; of one that is no type, nothing is known. -/
def argument (g : Grammar) : TokenParser (Option TypeExpr) := do
  if (← sees atLifetime) && !(← seesAfter 1 (atOp "+")) then
    lifetime
    return none
  if (← sees atLiteral) || (← sees (atGroup .brace)) then
    g.constant
    return none
  let isRooted ← sees (atOp "::")
  let type ← g.type true
  match type with
  | .path [] _ _ =>
    unless isRooted do
      if ← g.association? then return none
    return some type
  | _ => return some type

def angleArguments (g : Grammar) : TokenParser (List (Option TypeExpr)) := do
  op "<"
  let arguments ← many do
    if ← sees (atOp ">") then return none
    let argument ← g.argument
    unless ← sees (atOp ">") do op ","
    return some argument
  op ">"
  return arguments

/-! ## Paths -/

/-- A segment of a path; in an expression, arguments need `::` before them. -/
def segment (g : Grammar) (inExpr : Bool) : TokenParser Segment := do
  if ← sees (atWords ["super", "self", "crate", "try"]) then
    return ⟨← anyWord, none⟩
  let ident ← if ← sees (atWord "Self") then anyWord else name
  if !inExpr && (← sees (atOp "<")) && !(← sees (atOps ["<=", "<<="])) then
    return ⟨ident, some (← g.angleArguments)⟩
  if (← sees (atOp "::")) && (← seesAfter 2 (atOp "<")) then
    op "::"
    return ⟨ident, some (← g.angleArguments)⟩
  return ⟨ident, none⟩

/-- A path; in an expression, arguments need `::` before them. -/
def path (g : Grammar) (inExpr : Bool) : TokenParser Path := do
  let rooted ← op? "::"
  let first ← g.segment inExpr
  let rest ← many do
    if (← sees (atOp "::")) && !(← seesAfter 2 (atGroup .parenthesis)) then
      op "::"
      return some (← g.segment inExpr)
    return none
  return Path.ofSegments rooted first rest

/-- A path that may start with a type and a trait in angle brackets, and whether it does. -/
def qualifiedPath (g : Grammar) (inExpr : Bool) : TokenParser (Bool × Path) := do
  if ← sees (atOp "<") then
    op "<"
    let _ ← g.type true
    if ← word? "as" then
      let _ ← g.path false
    op ">"
    op "::"
    let first ← g.segment inExpr
    let rest ← many do
      if ← op? "::" then return some (← g.segment inExpr)
      return none
    return (true, Path.ofSegments false first rest)
  return (false, ← g.path inExpr)

end Grammar

end Ambient.Source
