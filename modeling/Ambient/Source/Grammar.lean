import Ambient.Source.Grammar.Item
import Ambient.Source.Lexer

/-!
# Source files

The rules of the grammar tied together.  A grammar of a given depth reads constructs that nest at
most that deep, and every construct takes a token before it reads another one inside itself, so the
size of a source bounds the depth it needs.
-/

namespace Ambient.Source

namespace Grammar

open TokenParser

/-- The grammar that reads nothing. -/
def void : Grammar where
  type _ := failure
  expr _ := failure
  operand _ := failure
  operators _ _ _ := failure
  leading := failure
  bound _ := failure
  pattern := failure
  field := failure
  statements _ := failure
  item := failure

/-- The grammar whose constructs hold those of another one. -/
def around (g : Grammar) : Grammar where
  type := g.typeRule
  expr := g.exprRule
  operand := g.operandRule
  operators := g.operatorsRule
  leading := g.leadingRule
  bound := g.boundRule
  pattern := g.patternRule
  field := g.fieldRule
  statements := g.statementsRule
  item := g.itemRule

/-- The grammar of constructs that nest at most so deep. -/
def ofDepth : Nat → Grammar
  | 0 => void
  | depth + 1 => around (ofDepth depth)

def depthFor (tokens : List Token) : Nat :=
  4 * tokenCount tokens + 4

end Grammar

open TokenParser in
/-- The items of a source file; nothing if any part of it is malformed. -/
def parseFile? (text : String) : Option (List Item) := do
  let tokens ← tokenizeFile text.toList
  let g := Grammar.ofDepth (Grammar.depthFor tokens)
  whole (do
    g.innerAttributes
    all g.item) tokens

/-- The words of a path of types that is written alone; nothing if the text is no such path. -/
def parsePath? (text : String) : Option (List Ident) := do
  let tokens ← tokenize text.toList
  let g := Grammar.ofDepth (Grammar.depthFor tokens)
  let path ← TokenParser.whole (g.path false) tokens
  pure path.words

end Ambient.Source
