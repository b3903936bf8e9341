import Ambient.Source.Grammar.Type

/-!
# Patterns

Patterns describe no class, so they are only checked.  Of a pattern it matters whether it is a range
that lacks one of its ends, as such a range is no element of a slice.
-/

namespace Ambient.Source.Grammar

open TokenParser

/-- A pattern with alternatives, and whether it is a range that lacks an end. -/
def patterns (g : Grammar) : TokenParser Bool := do
  let isMarked ← op? "|"
  let isOpenRange ← g.pattern
  let further ← many do
    if (← sees (atOp "|")) && !(← sees (atOps ["||", "|="])) then
      op "|"
      return some (← g.pattern)
    return none
  return isOpenRange && !isMarked && further.isEmpty

def endsRange (tokens : List Token) : Bool :=
  tokens.isEmpty || atOps ["|", "=", ",", ";"] tokens ||
    (atOp ":" tokens && !atOp "::" tokens) || atWord "if" tokens

def rangeBound (g : Grammar) : TokenParser Unit := do
  if ← sees atLiteral then
    let _ ← literal
  else if (← sees atPathWord) || (← sees (atOps ["::", "<"])) then
    let _ ← g.qualifiedPath true
  else
    word "const"
    g.block

/-- The dots and the end of a range, and whether the end is missing. -/
def rangeEndPattern (g : Grammar) : TokenParser Bool := do
  if ← sees (atOps ["..=", "..."]) then
    skip 3
    g.rangeBound
    return false
  op ".."
  if ← sees endsRange then return true
  g.rangeBound
  return false

/-- A range without a start, or the dots that stand for the rest, and whether it is a range. -/
def rangeToPattern (g : Grammar) : TokenParser Bool := do
  if ← op? "..=" then
    g.rangeBound
    return true
  if ← sees (atOp "...") then failure
  op ".."
  if ← sees endsRange then return false
  g.rangeBound
  return true

/-- A field of a struct pattern, or the dots that stand for the rest; whether it is the dots. -/
def fieldPattern (g : Grammar) : TokenParser Bool := do
  let _ ← g.attributes
  if ← op? ".." then return true
  let isBoxed ← word? "box"
  let isRef ← word? "ref"
  let isMut ← word? "mut"
  if isBoxed || isRef || isMut then
    let _ ← name
  else
    let isNumbered ← fieldNumber?
    unless isNumbered do
      let _ ← name
    if isNumbered || (← sees (atOp ":")) then
      op ":"
      let _ ← g.patterns
  return false

/-- The fields of a struct pattern.  Nothing follows the dots. -/
def fieldPatterns (g : Grammar) : TokenParser Unit := do
  let _ ← all do
    if ← g.fieldPattern then require List.isEmpty
    else
      unless ← atEnd do op ","

/-- A pattern that starts with a path, and whether it is a range that lacks its end. -/
def pathPattern (g : Grammar) : TokenParser Bool := do
  let (qualified, path) ← g.qualifiedPath true
  if !qualified && path.isPlain && (← sees (atOp "!")) && !(← sees (atOp "!=")) then
    op "!"
    let _ ← anyGroup
    return false
  if ← sees (atGroup .brace) then
    group .brace g.fieldPatterns
    return false
  if ← sees (atGroup .parenthesis) then
    let _ ← group .parenthesis (commaSeparated g.patterns)
    return false
  if ← sees (atOp "..") then return ← g.rangeEndPattern
  return false

/-- Whether the next tokens start a pattern with a path of more than one word, or with arguments. -/
def atPathPattern (tokens : List Token) : Bool :=
  let next := tokens.drop 1
  (atName tokens &&
    (atOps ["::", "!", ".."] next || atGroup .brace next || atGroup .parenthesis next)) ||
  (atWord "self" tokens && atOp "::" next) || atOps ["::", "<"] tokens ||
  atWords ["Self", "super", "crate"] tokens

def namePattern (g : Grammar) : TokenParser Unit := do
  let _ ← word? "ref"
  let _ ← word? "mut"
  unless ← word? "self" do
    let _ ← name
  if ← op? "@" then
    let _ ← g.pattern

def elementPattern (g : Grammar) : TokenParser Unit := do
  if ← g.patterns then failure

/-- A pattern without alternatives, and whether it is a range that lacks one of its ends. -/
def patternRule (g : Grammar) : TokenParser Bool := do
  if ← sees atPathPattern then return ← g.pathPattern
  if ← word? "_" then return false
  if ← word? "box" then
    let _ ← g.pattern
    return false
  if (← sees (atOp "-")) || (← sees atLiteral) || (← sees (atWord "const")) then
    g.rangeBound
    if ← sees (atOp "..") then return ← g.rangeEndPattern
    return false
  if (← sees atName) || (← sees (atWords ["ref", "mut", "self"])) then
    g.namePattern
    return false
  if ← op? "&" then
    let _ ← word? "mut"
    let _ ← g.pattern
    return false
  if ← sees (atGroup .parenthesis) then
    let _ ← group .parenthesis (commaSeparated g.patterns)
    return false
  if ← sees (atGroup .bracket) then
    let _ ← group .bracket (commaSeparated g.elementPattern)
    return false
  g.rangeToPattern

end Ambient.Source.Grammar
