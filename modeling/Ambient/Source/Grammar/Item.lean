import Ambient.Source.Grammar.Expr

/-!
# Statements and items
-/

namespace Ambient.Source.Grammar

open TokenParser

/-! ## Visibility and signatures -/

/-- The visibility of an item or a field, and whether it is `pub` without a restriction. -/
def visibility : TokenParser Bool := do
  if ← word? "pub" then
    match ← get with
    | .group .parenthesis content :: rest =>
      if atWords ["crate", "self", "super"] content && content.length == 1 then
        set rest
        return false
      if atWord "in" content then
        match whole (do word "in"; plainPath) content with
        | some _ =>
          set rest
          return false
        | none => failure
      return true
    | _ => return true
  return false

def hasVisibility : TokenParser Bool := do
  let isGiven ← sees (atWord "pub")
  let _ ← visibility
  return isGiven

/-- The words in front of `fn`, which may say that the function is safe if the flag allows it. -/
def signatureStart (allowSafe : Bool) : TokenParser Unit := do
  let _ ← word? "const"
  let _ ← word? "async"
  let isUnsafe ← word? "unsafe"
  if allowSafe && !isUnsafe then
    let _ ← word? "safe"
  let _ ← abi?
  word "fn"

def atSignature (allowSafe : Bool) (tokens : List Token) : Bool :=
  (signatureStart allowSafe tokens).isSome

/-- The value that a method is called on, as a parameter.  A path that starts with `self` is
none. -/
def receiver (g : Grammar) : TokenParser Unit := do
  let isReference ← op? "&"
  if isReference then
    let _ ← lifetime?
  let _ ← word? "mut"
  word "self"
  if ← sees (atOp "::") then failure
  if !isReference then
    if ← op? ":" then
      let _ ← g.type true

/-- A parameter of a function other than the receiver, and whether it is the dots that end the
list.  A type with arguments may stand without a pattern. -/
def typedParameter (g : Grammar) : TokenParser Bool := do
  if !((← sees atName) && (← seesAfter 1 (atOp "<"))) then
    let _ ← g.pattern
    op ":"
    if ← op? "..." then return true
  let _ ← g.type true
  return false

/-- A parameter of a function, and whether it is the dots that end the list.  Only the first one may
be the receiver. -/
def parameter (g : Grammar) (isFirst : Bool) : TokenParser Bool := do
  let _ ← g.attributes
  if ← op? "..." then return true
  let isReceiver ← (do g.receiver; return true) <|> return false
  if isReceiver then
    if isFirst then return false else failure
  g.typedParameter

def signature (g : Grammar) (allowSafe : Bool) : TokenParser Unit := do
  signatureStart allowSafe
  let _ ← name
  g.generics
  group .parenthesis (commaSeparatedUntilLast g.parameter)
  g.output true
  g.whereClause

/-- The body of a function, or the semicolon in its place. -/
def bodyOrSemicolon (g : Grammar) : TokenParser Unit := do
  unless ← op? ";" do g.block

/-! ## Fields and variants -/

def namedFields (g : Grammar) : TokenParser (List Field) :=
  group .brace (commaSeparated g.field)

/-- Whether the next tokens start a struct or a union without a name, as the type of a field. -/
def atNamelessStruct (tokens : List Token) : Bool :=
  atWord "struct" tokens || (atWord "union" tokens && atGroup .brace (tokens.drop 1))

/-- A named field.  One whose name is left blank may have fields of its own in place of a type. -/
def fieldRule (g : Grammar) : TokenParser Field := do
  let attributes ← g.attributes
  let isPublic ← visibility
  let isBlank ← sees (atWord "_")
  let ident ← if isBlank then anyWord else name
  op ":"
  if isBlank && (← sees atNamelessStruct) then
    skip 1
    let _ ← g.namedFields
    return ⟨attributes, isPublic, ident, .other⟩
  return ⟨attributes, isPublic, ident, ← g.type true⟩

def unnamedField (g : Grammar) : TokenParser Unit := do
  let _ ← g.attributes
  let _ ← visibility
  let _ ← g.type true

def structFields (g : Grammar) : TokenParser Fields := do
  let hasWhere ← sees (atWord "where")
  g.whereClause
  if !hasWhere && (← sees (atGroup .parenthesis)) then
    let _ ← group .parenthesis (commaSeparated g.unnamedField)
    g.whereClause
    op ";"
    return .unnamed
  if ← sees (atGroup .brace) then
    return .named (← g.namedFields)
  op ";"
  return .unit

def variant (g : Grammar) : TokenParser Variant := do
  let attributes ← g.attributes
  let _ ← visibility
  let ident ← name
  let hasFields ← do
    if ← sees (atGroup .brace) then
      let _ ← g.namedFields
      pure true
    else if ← sees (atGroup .parenthesis) then
      let _ ← group .parenthesis (commaSeparated g.unnamedField)
      pure true
    else pure false
  let discriminant ← do
    if ← op? "=" then pure (some (← g.expr true)) else pure none
  return ⟨attributes, ident, hasFields, discriminant⟩

/-! ## Imports -/

/-- The trees of an import in braces.  A tree that starts with `::` is no import that could be
followed, and neither is the whole then.  `tree` reads a tree at the next nesting. -/
def useGroup (tree : Bool → TokenParser (Option UseTree)) (allowRoot : Bool) :
    TokenParser (Option UseTree) := do
  let trees ← group .brace <| commaSeparated do
    let isRooted ← if allowRoot then op? "::" else pure false
    let tree? ← tree (allowRoot && !isRooted)
    return if isRooted then none else tree?
  return (trees.mapM id).map .group

/-- An import; nothing for one that starts with `::` in braces.  Every step of a path and every
pair of braces is one level of nesting. -/
def useTree : Nat → Bool → TokenParser (Option UseTree)
  | 0, _ => failure
  | depth + 1, allowRoot => do
    if (← sees atName) || (← sees (atWords ["self", "super", "crate", "try"])) then
      let ident ← anyWord
      if ← op? "::" then return (← useTree depth false).map (.path ident)
      if ← word? "as" then
        if ← sees (atWord "_") then return some (.rename ident (← anyWord))
        return some (.rename ident (← name))
      return some (.name ident)
    if ← op? "*" then return some .glob
    useGroup (useTree depth) allowRoot

mutual

/-- The number of tokens of a source, those inside groups included. -/
def tokenCount : List Token → Nat
  | [] => 0
  | token :: rest => tokenSize token + tokenCount rest

/-- The number of tokens that a token holds, itself included. -/
def tokenSize : Token → Nat
  | .group _ content => tokenCount content + 1
  | _ => 1

end

/-- A `use` item after its visibility. -/
def useItem : TokenParser Item := do
  word "use"
  let isRooted ← op? "::"
  let tree? ← useTree (tokenCount (← get) + 1) !isRooted
  op ";"
  return match tree? with
    | some tree => .use tree
    | none => .other

/-! ## Other items -/

/-- A constant after its visibility; its value may be missing. -/
def constantItem (g : Grammar) : TokenParser Unit := do
  word "const"
  unless (← sees atName) || (← sees (atWord "_")) do failure
  let _ ← anyWord
  g.generics
  op ":"
  let _ ← g.type true
  if ← op? "=" then
    let _ ← g.expr true
  g.whereClause
  op ";"

def staticItem (g : Grammar) : TokenParser Unit := do
  word "static"
  let _ ← word? "mut"
  let _ ← name
  if ← op? ":" then
    let _ ← g.type true
    if ← op? "=" then
      let _ ← g.expr true
  else
    op "="
    let _ ← g.expr true
  op ";"

inductive Surroundings
  | file
  | trait
  | implementation
  | foreign
  deriving DecidableEq

/-- A type alias or an associated type after its visibility.  Where it stands decides on which side
of the type it may have a where clause. -/
def typeItem (g : Grammar) (surroundings : Surroundings) : TokenParser Unit := do
  word "type"
  let _ ← name
  g.generics
  if ← op? ":" then
    g.boundsUntil .declaration fun tokens => atWord "where" tokens || atOps ["=", ";"] tokens
  let hasWhere ← sees (atWord "where")
  if surroundings ∈ [.file, .foreign] then g.whereClause
  if ← op? "=" then
    let _ ← g.type true
  if surroundings ∈ [.trait, .implementation] || (surroundings = .foreign && !hasWhere) then
    g.whereClause
  op ";"

/-- The delimiters of a macro call as an item, and the semicolon after all but braces. -/
def macroBody : TokenParser Unit := do
  let (delimiter, _) ← anyGroup
  unless delimiter == .brace do op ";"

/-- A macro call in a trait, an implementation or a foreign block. -/
def memberMacro : TokenParser Unit := do
  let _ ← plainPath
  op "!"
  macroBody

/-- A macro call as an item, which may define a name. -/
def macroItem : TokenParser Unit := do
  let _ ← plainPath
  op "!"
  if (← sees atName) || (← sees (atWord "try")) then
    let _ ← anyWord
  macroBody

def atMacro (tokens : List Token) : Bool :=
  atName tokens || atWords ["self", "super", "crate"] tokens || atOp "::" tokens

/-- Whether `default` comes next as a word in front of a member. -/
def atDefault (surroundings : Surroundings) (tokens : List Token) : Bool :=
  atWord "default" tokens &&
    (match surroundings with
      | .trait => true
      | .implementation => !atOp "!" (tokens.drop 1)
      | _ => false)

/-- A static in a foreign block after its visibility. -/
def foreignStatic (g : Grammar) : TokenParser Unit := do
  unless ← sees (atWord "static") do skip 1
  word "static"
  let _ ← word? "mut"
  let _ ← name
  op ":"
  let _ ← g.type true
  if ← op? "=" then
    let _ ← g.expr true
  op ";"

/-- An item of a trait, an implementation or a foreign block. -/
def memberItem (g : Grammar) (surroundings : Surroundings) : TokenParser Unit := do
  let _ ← g.attributes
  let isVisible ← hasVisibility
  let isDefault ← sees (atDefault surroundings)
  if isDefault then skip 1
  let isForeign := surroundings = .foreign
  let isStatic := (← sees (atWord "static")) ||
    ((← sees (atWords ["safe", "unsafe"])) && (← seesAfter 1 (atWord "static")))
  if ← sees (atSignature isForeign) then
    g.signature isForeign
    g.bodyOrSemicolon
  else if !isForeign && (← sees (atWord "const")) then g.constantItem
  else if isForeign && isStatic then g.foreignStatic
  else if ← sees (atWord "type") then g.typeItem surroundings
  else
    if isVisible || isDefault then failure
    unless ← sees atMacro do failure
    memberMacro

def members (g : Grammar) (surroundings : Surroundings) : TokenParser Unit := do
  let _ ← group .brace do
    g.innerAttributes
    all (g.memberItem surroundings)

/-- An implementation.  Only one of a trait may be negative. -/
def implItem (g : Grammar) : TokenParser Unit := do
  let _ ← word? "default"
  let _ ← word? "unsafe"
  word "impl"
  if ← sees atGenerics then g.generics
  if (← sees (atOp "?")) && (← seesAfter 1 (atWord "const")) then skip 1
  let _ ← word? "const"
  let isNegative := (← sees (atOp "!")) && !(← seesAfter 1 (atGroup .brace))
  if isNegative then op "!"
  let _ ← g.type true
  if ← word? "for" then
    let _ ← g.type true
  else if isNegative then failure
  g.whereClause
  g.members .implementation

/-- A trait, or an alias for a sum of bounds, in front of which no other word stands. -/
def traitItem (g : Grammar) : TokenParser Unit := do
  let isAlias ← sees (atWord "trait")
  let _ ← word? "unsafe"
  let _ ← word? "auto"
  word "trait"
  let _ ← name
  g.generics
  let hasValue ← sees (atOp "=")
  if isAlias && hasValue then
    op "="
    g.boundsUntil .object fun tokens => atWord "where" tokens || atOp ";" tokens
    g.whereClause
    op ";"
  else
    if ← op? ":" then
      g.boundsUntil .declaration fun tokens => atWord "where" tokens || atGroup .brace tokens
    g.whereClause
    g.members .trait

/-- A macro definition with its parameters and its body. -/
def macroDefinition : TokenParser Unit := do
  word "macro"
  let _ ← name
  if ← sees (atGroup .parenthesis) then
    let _ ← anyGroup
  require (atGroup .brace)
  let _ ← anyGroup

/-- An item that starts with `extern` and is no function.  A foreign block has no visibility. -/
def foreignItem (g : Grammar) (isVisible : Bool) : TokenParser Unit := do
  let isUnsafe ← word? "unsafe"
  word "extern"
  if !isUnsafe && (← sees (atWord "crate")) then
    skip 1
    unless ← word? "self" do
      let _ ← name
    if ← word? "as" then
      unless ← word? "_" do
        let _ ← name
    op ";"
  else
    if isVisible then failure
    let _ ← text?
    g.members .foreign

def moduleItem (g : Grammar) : TokenParser Item := do
  let _ ← word? "unsafe"
  word "mod"
  let ident ← if ← sees (atWord "try") then anyWord else name
  if ← op? ";" then return .module ident none
  let items ← group .brace do
    g.innerAttributes
    all g.item
  return .module ident (some items)

def structItem (g : Grammar) (attributes : List Attribute) : TokenParser Item := do
  word "struct"
  let ident ← name
  g.generics
  let fields ← g.structFields
  return .struct ⟨attributes, ident, fields⟩

def enumItem (g : Grammar) (attributes : List Attribute) : TokenParser Item := do
  word "enum"
  let ident ← name
  g.generics
  g.whereClause
  let variants ← group .brace (commaSeparated g.variant)
  return .enum ⟨attributes, ident, variants⟩

def unionItem (g : Grammar) : TokenParser Unit := do
  word "union"
  let _ ← name
  g.generics
  g.whereClause
  let _ ← g.namedFields

def itemWith (g : Grammar) (attributes : List Attribute) : TokenParser Item := do
  let isVisible ← hasVisibility
  let tokens ← get
  let next := tokens.drop 1
  let kept (parser : TokenParser Unit) : TokenParser Item := do
    parser
    return .other
  if atSignature false tokens then
    kept do
      g.signature false
      g.bodyOrSemicolon
  else if atWord "extern" tokens then kept (g.foreignItem isVisible)
  else if atWord "use" tokens then useItem
  else if atWord "static" tokens then kept g.staticItem
  else if atWord "const" tokens then kept g.constantItem
  else if atWord "unsafe" tokens then
    if atWord "trait" next || (atWord "auto" next && atWord "trait" (next.drop 1)) then
      kept g.traitItem
    else if atWord "impl" next then kept g.implItem
    else if atWord "extern" next then kept (g.foreignItem isVisible)
    else g.moduleItem
  else if atWord "mod" tokens then g.moduleItem
  else if atWord "type" tokens then kept (g.typeItem .file)
  else if atWord "struct" tokens then g.structItem attributes
  else if atWord "enum" tokens then g.enumItem attributes
  else if atWord "union" tokens && atName next then kept g.unionItem
  else if atWord "trait" tokens || (atWord "auto" tokens && atWord "trait" next) then
    kept g.traitItem
  else if atWord "impl" tokens || (atWord "default" tokens && !atOp "!" next) then
    kept g.implItem
  else if atWord "macro" tokens then kept macroDefinition
  else if !isVisible && atMacro tokens then kept macroItem
  else failure

def itemRule (g : Grammar) : TokenParser Item := do
  g.itemWith (← g.attributes)

/-! ## Statements -/

/-- Whether the next tokens start an item, and no expression. -/
def atItem (tokens : List Token) : Bool :=
  let next := tokens.drop 1
  let third := tokens.drop 2
  atWords ["pub", "extern", "use", "fn", "mod", "type", "struct", "enum", "trait", "impl",
    "macro"] tokens ||
  (atWord "crate" tokens && !atOp "::" next) ||
  (atWord "static" tokens &&
    (atWord "mut" next ||
      (atName next && !(atWord "async" next && (atWord "move" third || atOp "|" third))))) ||
  (atWord "const" tokens &&
    !(atGroup .brace next || atWords ["static", "move"] next || atOp "|" next ||
      (atWord "async" next && !atWords ["unsafe", "extern", "fn"] third))) ||
  (atWord "unsafe" tokens && !atGroup .brace next) ||
  (atWord "async" tokens && atWords ["unsafe", "extern", "fn"] next) ||
  (atWord "union" tokens && atName next) ||
  (atWord "auto" tokens && atWord "trait" next) ||
  (atWord "default" tokens && atWords ["unsafe", "impl"] next)

/-- What a macro call at the start of a statement is. -/
inductive CallStatement
  /-- A definition such as that of `macro_rules`. -/
  | definition
  /-- A call in braces, which ends the statement. -/
  | braced
  | none

/-- What the macro call at the start of a statement is, if one stands there. -/
def callAhead (tokens : List Token) : CallStatement :=
  match plainPath tokens with
  | some (_, .punct '!' _ :: rest) =>
    let after := rest.drop 1
    if atName rest || atWord "try" rest then .definition
    else if atGroup .brace rest && !((atOp "." after && !atOp ".." after) || atOp "?" after) then
      .braced
    else .none
  | _ => .none

/-- Whether the last of some tokens is a group in braces. -/
def endsInBraces (tokens : List Token) : Bool :=
  match tokens.getLast? with
  | some (.group .brace _) => true
  | _ => false

/-- A binding after its attributes.  A value that ends in braces takes no `else`. -/
def letStatement (g : Grammar) : TokenParser Unit := do
  word "let"
  let _ ← g.pattern
  if ← op? ":" then
    let _ ← g.type true
  if ← op? "=" then
    let before ← get
    let _ ← g.expr true
    let value := before.take (before.length - (← get).length)
    unless endsInBraces value do
      if ← word? "else" then g.plainBlock
  op ";"

/-- A statement.  One that needs a semicolon may do without it at the end of its block only. -/
def statement (g : Grammar) : TokenParser Unit := do
  let attributes ← g.attributes
  let tokens ← get
  match callAhead tokens with
  | .braced =>
    let _ ← plainPath
    op "!"
    let _ ← anyGroup
    let _ ← op? ";"
  | call =>
    if atWord "let" tokens then g.letStatement
    else if atItem tokens || call matches .definition then
      let _ ← g.itemWith attributes
    else
      let value ← g.leading
      unless (← op? ";") || value.isBlockLike || value.form == .bracedCall do
        unless ← atEnd do failure

/-- The content of a block, which may start with inner attributes if they are allowed. -/
def statementsRule (g : Grammar) (allowInner : Bool) : TokenParser Unit := do
  if allowInner then g.innerAttributes
  let _ ← all do
    unless ← op? ";" do g.statement

end Ambient.Source.Grammar
