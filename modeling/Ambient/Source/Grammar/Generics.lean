import Ambient.Source.Grammar.Attribute

/-!
# Generics and bounds

What types, functions and traits are generic over, and which traits and lifetimes bound it.  None
of it describes a class, so it is only checked.
-/

namespace Ambient.Source.Grammar

open TokenParser

/-! ## Parameters -/

/-- The bounds of a lifetime up to a token that ends them. -/
def lifetimeBounds (ends : List Token → Bool) : TokenParser Unit := do
  let _ ← many do
    if (← atEnd) || (← sees ends) then return none
    lifetime
    unless (← atEnd) || (← sees ends) do op "+"
    return some ()

/-- A generic parameter; a type may be without a name if the flag allows it. -/
def genericParameter (g : Grammar) (allowBlank : Bool) : TokenParser Unit := do
  let _ ← g.attributes
  if ← sees atLifetime then
    lifetime
    if ← op? ":" then lifetimeBounds (atOps [",", ">"])
  else if ← word? "const" then
    let _ ← name
    op ":"
    let _ ← g.type true
    if ← op? "=" then g.constant
  else if allowBlank && (← sees (atWord "_")) then skip 1
  else
    let _ ← name
    if ← op? ":" then g.boundsUntil .declaration (atOps [",", ">", "="])
    if ← op? "=" then
      let _ ← g.type true

def genericParameters (g : Grammar) (allowBlank : Bool) : TokenParser Unit := do
  op "<"
  let _ ← many do
    if ← sees (atOp ">") then return none
    g.genericParameter allowBlank
    unless ← sees (atOp ">") do op ","
    return some ()
  op ">"

def generics (g : Grammar) : TokenParser Unit := do
  if ← sees (atOp "<") then g.genericParameters true

/-- The parameters that a bound, a function type or a closure is made for. -/
def binder (g : Grammar) : TokenParser Unit := do
  word "for"
  g.genericParameters false

/-- Whether angle brackets hold parameters, and not the type that a path starts with. -/
def atGenerics (tokens : List Token) : Bool :=
  let next := tokens.drop 1
  let third := tokens.drop 2
  atOp "<" tokens &&
    (atOps [">", "#"] next || atWord "const" next ||
      ((atName next || atLifetime next) && atOps [":", ",", ">", "="] third && !atOp "::" third))

/-! ## Bounds -/

def output (g : Grammar) (allowPlus : Bool) : TokenParser Unit := do
  if ← op? "->" then
    let _ ← g.type allowPlus

def captures : TokenParser Unit := do
  word "use"
  op "<"
  let _ ← many do
    if ← sees (atOp ">") then return none
    unless ← lifetime? do
      unless (← sees atName) || (← sees (atWord "Self")) do failure
      skip 1
    unless ← sees (atOp ">") do op ","
    return some ()
  op ">"

/-- The arguments and the output of a function trait, where they follow its path. -/
def traitArguments (g : Grammar) (path : Path) : TokenParser Unit := do
  let isSeparated := (← sees (atOp "::")) && (← seesAfter 2 (atGroup .parenthesis))
  if path.last.lacksArguments && (isSeparated || (← sees (atGroup .parenthesis))) then
    let _ ← op? "::"
    let _ ← group .parenthesis (commaSeparated (g.type true))
    g.output false

/-- The mark of a constant trait, in brackets if it is one only where its parameters are.  Says
whether it was there. -/
def constantMark? : TokenParser Bool := do
  if ← sees (atGroup .bracket) then
    group .bracket (word "const")
    return true
  word? "const"

/-- A bound that names a trait.  One with parameters of its own cannot be relaxed by `?`. -/
def traitBound (g : Grammar) (place : BoundPlace) : TokenParser Unit := do
  let hasBinder ← sees (atWord "for")
  if hasBinder then g.binder
  let isConstant ← constantMark?
  if isConstant && place = .object then failure
  let isRelaxed ← op? "?"
  if isRelaxed && hasBinder then failure
  g.traitArguments (← g.path false)

/-- A bound: a lifetime, what is captured, or a trait, which may be in parentheses. -/
def boundRule (g : Grammar) (place : BoundPlace) : TokenParser Bool := do
  if ← lifetime? then return false
  if ← sees (atWord "use") then
    captures
    if place = .hidden then return false else failure
  if ← sees (atGroup .parenthesis) then group .parenthesis (g.traitBound place)
  else g.traitBound place
  return true

def atBound (place : BoundPlace) (tokens : List Token) : Bool :=
  atAnyWord tokens || atOps ["::", "?"] tokens || atLifetime tokens ||
    atGroup .parenthesis tokens || (place ≠ .object && atGroup .bracket tokens)

/-- The bounds after the first one of a sum, each with whether it names a trait; a `+` may come
last. -/
def furtherBounds (g : Grammar) (place : BoundPlace) : TokenParser (List Bool) :=
  many do
    if ← op? "+" then
      if ← sees (atBound place) then return some (← g.bound place)
    return none

/-- Bounds joined by `+`, of which one must name a trait. -/
def traitBounds (g : Grammar) (place : BoundPlace) (allowPlus : Bool) : TokenParser Unit := do
  let first ← g.bound place
  let rest ← if allowPlus then g.furtherBounds place else pure []
  unless first || rest.any id do failure

/-! ## Predicates -/

/-- Whether the next token ends the predicates of a where clause. -/
def endsWhere (tokens : List Token) : Bool :=
  tokens.isEmpty || atGroup .brace tokens || atOps [",", ";", "="] tokens ||
    (atOp ":" tokens && !atOp "::" tokens)

/-- A predicate: the bounds of a lifetime or of a type. -/
def predicate (g : Grammar) : TokenParser Unit := do
  if (← sees atLifetime) && (← seesAfter 1 (atOp ":")) then
    lifetime
    op ":"
    lifetimeBounds endsWhere
  else
    if ← sees (atWord "for") then g.binder
    let _ ← g.type true
    op ":"
    g.boundsUntil .declaration endsWhere

/-- A where clause, where there is one.  It has no parameters of its own. -/
def whereClause (g : Grammar) : TokenParser Unit := do
  if ← word? "where" then
    if ← sees atGenerics then failure
    let _ ← many do
      if ← sees endsWhere then return none
      g.predicate
      unless ← op? "," do
        unless ← sees endsWhere do failure
      return some ()

end Ambient.Source.Grammar
