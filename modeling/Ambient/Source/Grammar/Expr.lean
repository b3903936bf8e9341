import Ambient.Source.Grammar.Pattern
import Ambient.Source.Literal

/-!
# Expressions

Operators bind by precedence, and some expressions restrict what may follow them: a comparison
takes no second one, a range no further operator, and the conditions before a block hold no struct
literals.
-/

namespace Ambient.Source

/-- Which restrictions an expression puts on what follows. -/
def Expr.form : Expr → ExprForm
  | .other form => form
  | _ => .plain

/-- Whether an expression ends a statement, or a match arm, by itself. -/
def Expr.isBlockLike (expr : Expr) : Bool :=
  expr.form == .blockLike

namespace Grammar

open TokenParser

/-! ## Operators -/

/-- The precedence of `=` and of the operators that assign. -/
def assignment : Nat := 1

def range : Nat := 2

def comparison : Nat := 6

/-- The precedence of `as`. -/
def cast : Nat := 13

/-- The operators between two operands with their precedences.  An operator comes before those that
it starts with. -/
def binaryOperators : List (String × Nat) :=
  [("+=", assignment), ("-=", assignment), ("*=", assignment), ("/=", assignment),
   ("%=", assignment), ("^=", assignment), ("&=", assignment), ("|=", assignment),
   ("<<=", assignment), (">>=", assignment), ("&&", 4), ("||", 3), ("<<", 10), (">>", 10),
   ("==", comparison), ("<=", comparison), ("!=", comparison), (">=", comparison),
   ("+", 11), ("-", 11), ("*", 12), ("/", 12), ("%", 12), ("^", 8), ("&", 9), ("|", 7),
   ("<", comparison), (">", comparison)]

def operatorAt? (tokens : List Token) : Option (String × Nat) :=
  binaryOperators.find? fun operator => atOp operator.1 tokens

/-- Whether the next token is an equals sign that is no arrow. -/
def atAssign (tokens : List Token) : Bool :=
  atOp "=" tokens && !atOp "=>" tokens

/-- The precedence of what the next tokens do to an expression; zero for nothing. -/
def precedenceAhead (tokens : List Token) : Nat :=
  match operatorAt? tokens with
  | some (_, precedence) => precedence
  | none =>
    if atAssign tokens then assignment
    else if atOp ".." tokens then range
    else if atWord "as" tokens then cast
    else 0

/-- The right operand of an operator, with the operators that bind more tightly. -/
def rightOperand (g : Grammar) (allowStruct : Bool) (precedence : Nat) : TokenParser Unit := do
  let first ← g.operand allowStruct
  let _ ← extended (fun (operand : Expr) => do
    let next := precedenceAhead (← get)
    if precedence < next || (next == precedence && precedence == assignment) then
      let before := (← get).length
      let operand ← g.operators allowStruct next operand
      return if (← get).length == before then none else some operand
    return none) first

def atRangeEnd (allowStruct : Bool) (tokens : List Token) : Bool :=
  tokens.isEmpty ||
    atOps [",", ";", "?", "=>", "=", "+", "/", "%", "^", ">", "<=", "!=", "-=", "*=", "&=", "|=",
      "<<="] tokens ||
    (atOp "." tokens && !atOp ".." tokens) || (!allowStruct && atGroup .brace tokens) ||
    atWord "as" tokens

def rangeRest (g : Grammar) (allowStruct : Bool) : TokenParser Unit := do
  if ← op? "..=" then g.rightOperand allowStruct range
  else
    if ← sees (atOp "...") then failure
    op ".."
    unless ← sees (atRangeEnd allowStruct) do g.rightOperand allowStruct range

/-- Whether the next tokens would extend an operand, which a cast cannot be. -/
def atPostfix (tokens : List Token) : Bool :=
  (atOp "." tokens && !atOp ".." tokens) || atOp "?" tokens || atGroup .bracket tokens ||
    atGroup .parenthesis tokens

/-- Applies the next operator of at least the given precedence, where there is one. -/
def operatorStep (g : Grammar) (allowStruct : Bool) (least : Nat) (left : Expr) :
    TokenParser (Option Expr) := do
  if left.form == .range then return none
  match operatorAt? (← get) with
  | some (text, precedence) =>
    if precedence < least then return none
    if precedence == comparison && left.form == .comparison then failure
    op text
    g.rightOperand allowStruct precedence
    return some (.other (if precedence == comparison then .comparison else .plain))
  | none =>
    if least ≤ assignment && (← sees atAssign) then
      op "="
      g.rightOperand allowStruct assignment
      return some (.other .plain)
    if least ≤ range && (← sees (atOp "..")) then
      g.rangeRest allowStruct
      return some (.other .range)
    if least ≤ cast && (← sees (atWord "as")) then
      word "as"
      let _ ← g.type false
      if ← sees atPostfix then failure
      return some (.other .plain)
    return none

/-- What operators of at least the given precedence make of an expression. -/
def operatorsRule (g : Grammar) (allowStruct : Bool) (least : Nat) (left : Expr) :
    TokenParser Expr :=
  extended (g.operatorStep allowStruct least) left

/-! ## Operands -/

/-- Whether the next tokens can start an expression. -/
def atExpr (tokens : List Token) : Bool :=
  (atAnyWord tokens && !atWord "as" tokens) || atAnyGroup tokens || atLiteral tokens ||
    (atOp "!" tokens && !atOp "!=" tokens) || (atOp "-" tokens && !atOps ["-=", "->"] tokens) ||
    (atOp "*" tokens && !atOp "*=" tokens) || (atOp "|" tokens && !atOp "|=" tokens) ||
    (atOp "&" tokens && !atOp "&=" tokens) || atOp ".." tokens ||
    (atOp "<" tokens && !atOps ["<=", "<<="] tokens) || atOp "::" tokens || atLifetime tokens ||
    atOp "#" tokens

def fieldValue (g : Grammar) : TokenParser Unit := do
  let _ ← g.attributes
  let isNumbered ← fieldNumber?
  unless isNumbered do
    let _ ← name
  if isNumbered || (← sees (atOp ":")) then
    op ":"
    let _ ← g.expr true

/-- The fields of a struct literal.  Nothing follows the value that gives the rest of them. -/
def fieldValues (g : Grammar) : TokenParser Unit := do
  let _ ← all do
    if ← op? ".." then
      unless ← atEnd do
        let _ ← g.expr true
      require List.isEmpty
    else
      g.fieldValue
      unless ← atEnd do op ","

def pathExpr (g : Grammar) (allowStruct : Bool) : TokenParser Expr := do
  let (qualified, path) ← g.qualifiedPath true
  if !qualified && path.isPlain && (← sees (atOp "!")) && !(← sees (atOp "!=")) then
    op "!"
    let (delimiter, _) ← anyGroup
    return .other (if delimiter == .brace then .bracedCall else .plain)
  if allowStruct && (← sees (atGroup .brace)) then
    group .brace g.fieldValues
    return .other .plain
  if !qualified && path.isPlain && !path.rooted && path.qualifiers.isEmpty then
    return .word path.last.ident
  return .other .plain

def parenthesizedExpr (g : Grammar) : TokenParser Expr := do
  if ← atEnd then return .other .plain
  let first ← g.expr true
  if ← atEnd then return .parenthesized first
  op ","
  let _ ← commaSeparated (g.expr true)
  return .other .plain

/-- The elements of an array, or an element and a length. -/
def arrayExpr (g : Grammar) : TokenParser Unit := do
  unless ← atEnd do
    let _ ← g.expr true
    if ← op? ";" then
      let _ ← g.expr true
    else
      unless ← atEnd do
        op ","
        let _ ← commaSeparated (g.expr true)

def closureParameter (g : Grammar) : TokenParser Unit := do
  let _ ← g.attributes
  let _ ← g.pattern
  if ← op? ":" then
    let _ ← g.type true

def closure (g : Grammar) (allowStruct : Bool) : TokenParser Unit := do
  if ← sees (atWord "for") then g.binder
  let _ ← word? "const"
  let _ ← word? "static"
  let _ ← word? "async"
  let _ ← word? "move"
  op "|"
  let _ ← many do
    if ← sees (atOp "|") then return none
    g.closureParameter
    unless ← sees (atOp "|") do op ","
    return some ()
  op "|"
  if ← op? "->" then
    let _ ← g.type true
    g.plainBlock
  else
    let _ ← g.expr allowStruct

/-- Conditions and blocks joined by `else`. -/
def conditional (g : Grammar) : TokenParser Unit := do
  let branch : TokenParser Unit := do
    word "if"
    let _ ← g.expr false
    g.plainBlock
  branch
  let _ ← many do
    if ← word? "else" then
      if ← sees (atWord "if") then
        branch
        return some ()
      g.plainBlock
    return none

def loopExpr (g : Grammar) : TokenParser Unit := do
  if ← word? "while" then
    let _ ← g.expr false
    g.block
  else if ← word? "for" then
    let _ ← g.patterns
    word "in"
    let _ ← g.expr false
    g.block
  else
    word "loop"
    g.block

/-- What follows a point: a field, a call of a method, or `await`. -/
def selection (g : Grammar) : TokenParser Unit := do
  if ← word? "await" then return
  unless ← fieldNumber? do
    let _ ← name
    let hasArguments ← op? "::"
    if hasArguments then
      let _ ← g.angleArguments
    if hasArguments || (← sees (atGroup .parenthesis)) then
      let _ ← group .parenthesis (commaSeparated (g.expr true))

/-- What follows a point, where two fields may be read as one number, as in `x.0.1`. -/
def selections (g : Grammar) : TokenParser Unit := do
  match ← get with
  | .literal (.float _ spelling) :: rest =>
    match endsInPoint? spelling with
    | some endsInPoint =>
      set rest
      if endsInPoint then g.selection
    | none => failure
  | _ => g.selection

/-- Extends an operand by calls, fields, indices and question marks. -/
def postfixStep (g : Grammar) (operand : Expr) : TokenParser (Option Expr) := do
  let isRange := operand.form == .range
  if ← sees (atGroup .parenthesis) then
    let _ ← group .parenthesis (commaSeparated (g.expr true))
    return some (.other .plain)
  if ← sees (atGroup .bracket) then
    let _ ← group .bracket (g.expr true)
    return some (.other .plain)
  if isRange then return none
  if ← op? "?" then return some (.other .plain)
  if (← sees (atOp ".")) && !(← sees (atOp "..")) then
    op "."
    g.selections
    return some (.other .plain)
  return none

def postfixes (g : Grammar) (operand : Expr) : TokenParser Expr :=
  extended g.postfixStep operand

def atClosure (tokens : List Token) : Bool :=
  let next := tokens.drop 1
  atOp "|" tokens || atWords ["move", "static"] tokens ||
    (atWord "for" tokens && atGenerics next) ||
    (atWord "const" tokens && !atGroup .brace next) ||
    (atWord "async" tokens && (atOp "|" next || atWord "move" next))

/-- Whether the next tokens start an asynchronous block. -/
def atAsyncBlock (tokens : List Token) : Bool :=
  atWord "async" tokens &&
    (atGroup .brace (tokens.drop 1) ||
      (atWord "move" (tokens.drop 1) && atGroup .brace (tokens.drop 2)))

/-- A match arm.  Its body needs a comma after it unless it is a block or comes last. -/
def arm (g : Grammar) : TokenParser Unit := do
  let _ ← g.attributes
  let _ ← g.patterns
  if ← word? "if" then
    let _ ← g.expr true
  op "=>"
  let value ← g.leading
  if !value.isBlockLike && !(← atEnd) then op ","
  else
    let _ ← op? ","

/-- An expression made of blocks, where the next tokens start one: it ends a statement by
itself. -/
def blockLike? (g : Grammar) : TokenParser (Option Expr) := do
  let done : Option Expr := some (.other .blockLike)
  if ← sees (atWord "if") then
    g.conditional
    return done
  if ← word? "match" then
    let _ ← g.expr false
    group .brace do
      g.innerAttributes
      let _ ← all g.arm
    return done
  let tokens ← get
  if atWords ["while", "loop"] tokens || (atWord "for" tokens && !atGenerics (tokens.drop 1)) then
    g.loopExpr
    return done
  if atWords ["unsafe", "const"] tokens && atGroup .brace (tokens.drop 1) then
    skip 1
    g.block
    return done
  if atWord "try" tokens && atGroup .brace (tokens.drop 1) then
    skip 1
    g.plainBlock
    return done
  if atGroup .brace tokens then
    g.block
    return done
  if atLifetime tokens then
    lifetime
    op ":"
    if ← sees (atGroup .brace) then g.block else g.loopExpr
    return done
  return none

def atom (g : Grammar) (allowStruct : Bool) : TokenParser Expr := do
  if ← sees atLiteral then return .literal (← literal)
  if ← sees atAsyncBlock then
    word "async"
    let _ ← word? "move"
    g.plainBlock
    return .other .plain
  if ← sees atClosure then
    g.closure allowStruct
    return .other .plain
  if let some value ← g.blockLike? then return value
  if ← sees atBuiltin then
    builtin
    return .other .plain
  let isTryPath := (← sees (atWord "try")) && (← seesAfter 1 (atOps ["!", "::"]))
  if (← sees atPathWord) || (← sees (atOps ["::", "<"])) || isTryPath then
    return ← g.pathExpr allowStruct
  if ← sees (atGroup .parenthesis) then return ← group .parenthesis g.parenthesizedExpr
  if ← word? "break" then
    let _ ← lifetime?
    if (← sees atExpr) && (allowStruct || !(← sees (atGroup .brace))) then
      let _ ← g.expr true
    return .other .plain
  if ← word? "continue" then
    let _ ← lifetime?
    return .other .plain
  if ← sees (atWords ["return", "yield"]) then
    skip 1
    if ← sees atExpr then
      let _ ← g.expr true
    return .other .plain
  if ← word? "become" then
    let _ ← g.expr true
    return .other .plain
  if ← sees (atGroup .bracket) then
    group .bracket g.arrayExpr
    return .other .plain
  if ← word? "let" then
    let _ ← g.patterns
    op "="
    let scrutinee ← g.operand allowStruct
    let _ ← g.operators allowStruct comparison scrutinee
    return .other .plain
  if ← sees (atOp "..") then
    g.rangeRest allowStruct
    return .other .range
  if ← word? "_" then return .other .plain
  failure

/-- An operand with the signs in front of it.  A range without a start has no attributes. -/
def operandRule (g : Grammar) (allowStruct : Bool) : TokenParser Expr := do
  let attributes ← g.attributes
  if ← op? "&" then
    if (← sees (atWord "raw")) && (← seesAfter 1 (atWords ["mut", "const"])) then skip 2
    else
      let _ ← word? "mut"
    let _ ← g.operand allowStruct
    return .other .plain
  if ← op? "-" then return .negative (← g.operand allowStruct)
  if ← sees (atOps ["*", "!"]) then
    skip 1
    let _ ← g.operand allowStruct
    return .other .plain
  let operand ← g.postfixes (← g.atom allowStruct)
  if operand.form == .range && !attributes.isEmpty then failure
  return operand

def exprRule (g : Grammar) (allowStruct : Bool) : TokenParser Expr := do
  g.operatorsRule allowStruct 0 (← g.operandRule allowStruct)

/-- An expression that starts a statement, or the body of a match arm: one that is made of blocks
goes on only with a point or a question mark. -/
def leadingRule (g : Grammar) : TokenParser Expr := do
  let _ ← g.attributes
  match ← g.blockLike? with
  | some value =>
    if ((← sees (atOp ".")) && !(← sees (atOp ".."))) || (← sees (atOp "?")) then
      g.operatorsRule true 0 (← g.postfixes value)
    else return value
  | none => g.exprRule true

end Grammar

end Ambient.Source
