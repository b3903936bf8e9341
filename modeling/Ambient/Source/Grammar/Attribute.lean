import Ambient.Source.Grammar.Path

/-!
# Attributes

An attribute has a path and either arguments in delimiters, a value, or nothing.  Arguments may be
any tokens; they are read as entries and as paths, and one or both readings may fail without
harming the source.
-/

namespace Ambient.Source.Grammar

open TokenParser

/-- The value of an attribute.  A literal that ends it may carry its own sign; no attribute may
stand in front of the value. -/
def attributeValue (g : Grammar) : TokenParser Expr := do
  match literalAt? (← get) with
  | some (value, []) =>
    set ([] : List Token)
    return .literal value
  | _ =>
    if (← sees (atOp "#")) && (← seesAfter 1 (atGroup .bracket)) then failure
    g.expr true

/-- The path of an attribute or of an entry of its arguments. -/
def attributePath : TokenParser MetaPath := do
  if ← sees (atWord "unsafe") then return ⟨false, [← anyWord]⟩
  plainPath

def atAnyGroup (tokens : List Token) : Bool :=
  match tokens with
  | .group _ _ :: _ => true
  | _ => false

def metaItem (g : Grammar) : TokenParser MetaItem := do
  let path ← attributePath
  if ← sees atAnyGroup then
    let _ ← anyGroup
    return .list path
  if ← op? "=" then return .value path (← g.attributeValue)
  return .flag path

/-- What stands between the brackets of an attribute. -/
def attributeContent (g : Grammar) : TokenParser Attribute := do
  let path ← attributePath
  if ← sees atAnyGroup then
    let (_, content) ← anyGroup
    let items := whole (commaSeparated g.metaItem) content
    let paths := whole (commaSeparated (g.path false)) content
    return ⟨path, .arguments items (paths.map (·.map Path.words))⟩
  if ← op? "=" then return ⟨path, .value (← g.attributeValue)⟩
  return ⟨path, .none⟩

def attributes (g : Grammar) : TokenParser (List Attribute) :=
  many do
    if ← op? "#" then return some (← group .bracket g.attributeContent)
    return none

/-- The attributes at the start of what they belong to. -/
def innerAttributes (g : Grammar) : TokenParser Unit := do
  let _ ← many do
    if (← sees (atOp "#")) && (← seesAfter 1 (atOp "!")) then
      skip 2
      return some (← group .bracket g.attributeContent)
    return none

end Ambient.Source.Grammar
