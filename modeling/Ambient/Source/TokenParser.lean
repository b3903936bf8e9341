import Ambient.Source.Item

/-!
# Reading tokens

A parser takes tokens from the front of a list and gives a value with the tokens that are left, or
fails.  A failed alternative takes nothing.
-/

namespace Ambient.Source

/-- A reader of tokens. -/
abbrev TokenParser := StateT (List Token) Option

/-! ## Looking ahead -/

/-- The words that name nothing unless they are spelled raw. -/
def reserved : List String :=
  ["_", "abstract", "as", "async", "await", "become", "box", "break", "const", "continue", "crate",
   "do", "dyn", "else", "enum", "extern", "false", "final", "fn", "for", "if", "impl", "in", "let",
   "loop", "macro", "match", "mod", "move", "mut", "override", "priv", "pub", "ref", "return",
   "Self", "self", "static", "struct", "super", "trait", "true", "try", "type", "typeof", "unsafe",
   "unsized", "use", "virtual", "where", "while", "yield"]

def Ident.isName (ident : Ident) : Bool :=
  ident.raw || ident.name ∉ reserved

/-- Whether the next token is a given word in plain spelling. -/
def atWord (word : String) (tokens : List Token) : Bool :=
  match tokens with
  | .ident ident :: _ => !ident.raw && ident.name == word
  | _ => false

/-- Whether the next token is one of some words in plain spelling. -/
def atWords (words : List String) (tokens : List Token) : Bool :=
  words.any (atWord · tokens)

def atName (tokens : List Token) : Bool :=
  match tokens with
  | .ident ident :: _ => ident.isName
  | _ => false

def atAnyWord (tokens : List Token) : Bool :=
  match tokens with
  | .ident _ :: _ => true
  | _ => false

/-- Whether the next token is a name or one of the words that paths start with. -/
def atPathWord (tokens : List Token) : Bool :=
  atName tokens || atWords ["super", "self", "Self", "crate"] tokens

/-- Whether the next tokens are the characters of an operator, all but the last of them joint. -/
def atChars : List Char → List Token → Bool
  | [], _ => true
  | [c], .punct other _ :: _ => c == other
  | c :: rest, .punct other joint :: tokens => c == other && joint && atChars rest tokens
  | _, _ => false

def atOp (op : String) (tokens : List Token) : Bool :=
  atChars op.toList tokens

/-- Whether the next tokens form one of some operators. -/
def atOps (ops : List String) (tokens : List Token) : Bool :=
  ops.any (atOp · tokens)

def atGroup (delimiter : Delimiter) (tokens : List Token) : Bool :=
  match tokens with
  | .group other _ :: _ => delimiter == other
  | _ => false

def atLifetime (tokens : List Token) : Bool :=
  match tokens with
  | .lifetime :: _ => true
  | _ => false

/-- The literal at the front, with the tokens after it.  A minus belongs to the number after
it. -/
def literalAt? (tokens : List Token) : Option (Lit × List Token) :=
  match tokens with
  | .literal value :: rest => some (value, rest)
  | .ident ident :: rest =>
    if ident.raw then none
    else if ident.name == "true" then some (.bool true, rest)
    else if ident.name == "false" then some (.bool false, rest)
    else none
  | .punct '-' _ :: .literal (.int value isSuffixed) :: rest =>
    some (.int (-value) isSuffixed, rest)
  | .punct '-' _ :: .literal (.float value spelling) :: rest =>
    some (.float value.neg ("-" ++ spelling), rest)
  | _ => none

def atLiteral (tokens : List Token) : Bool :=
  (literalAt? tokens).isSome

namespace TokenParser

/-! ## Taking tokens -/

def sees (test : List Token → Bool) : TokenParser Bool := do
  return test (← get)

/-- Whether the tokens after the next ones satisfy a test. -/
def seesAfter (count : Nat) (test : List Token → Bool) : TokenParser Bool := do
  return test ((← get).drop count)

def atEnd : TokenParser Bool :=
  sees List.isEmpty

def require (test : List Token → Bool) : TokenParser Unit := do
  unless ← sees test do failure

def skip (count : Nat) : TokenParser Unit :=
  modify (List.drop count)

def op (text : String) : TokenParser Unit := do
  require (atOp text)
  skip text.length

/-- Takes an operator if it is next, and says whether it was. -/
def op? (text : String) : TokenParser Bool := do
  if ← sees (atOp text) then
    skip text.length
    return true
  return false

def word (text : String) : TokenParser Unit := do
  require (atWord text)
  skip 1

/-- Takes a word in plain spelling if it is next, and says whether it was. -/
def word? (text : String) : TokenParser Bool := do
  if ← sees (atWord text) then
    skip 1
    return true
  return false

def anyWord : TokenParser Ident := do
  match ← get with
  | .ident ident :: rest =>
    set rest
    return ident
  | _ => failure

def name : TokenParser Ident := do
  let ident ← anyWord
  if ident.isName then return ident else failure

def lifetime : TokenParser Unit := do
  require atLifetime
  skip 1

/-- Takes a lifetime if it is next, and says whether it was. -/
def lifetime? : TokenParser Bool := do
  if ← sees atLifetime then
    skip 1
    return true
  return false

def literal : TokenParser Lit := do
  match literalAt? (← get) with
  | some (value, rest) =>
    set rest
    return value
  | none => failure

/-- Takes a string literal if it is next, and says whether it was. -/
def text? : TokenParser Bool := do
  match ← get with
  | .literal (.text _) :: rest =>
    set rest
    return true
  | _ => return false

/-- Takes the number of a field if it is next, and says whether it was. -/
def fieldNumber? : TokenParser Bool := do
  match ← get with
  | .literal value :: rest =>
    if value.isFieldNumber then
      set rest
      return true
    return false
  | _ => return false

def whole {α : Type} (parser : TokenParser α) (tokens : List Token) : Option α :=
  match parser tokens with
  | some (value, []) => some value
  | _ => none

/-- Takes a group and reads its content to the last token. -/
def group {α : Type} (delimiter : Delimiter) (parser : TokenParser α) : TokenParser α := do
  match ← get with
  | .group other content :: rest =>
    if delimiter != other then failure
    match whole parser content with
    | some value =>
      set rest
      return value
    | none => failure
  | _ => failure

/-- Takes a group of any kind, whatever it holds, and gives its delimiter and its content. -/
def anyGroup : TokenParser (Delimiter × List Token) := do
  match ← get with
  | .group delimiter content :: rest =>
    set rest
    return (delimiter, content)
  | _ => failure

/-! ## Repetition -/

/-- Repeats a reader until it gives nothing, at most so many times. -/
def repeated {α : Type} (next? : TokenParser (Option α)) : Nat → TokenParser (List α)
  | 0 => failure
  | budget + 1 => do
    match ← next? with
    | none => return []
    | some value => return value :: (← repeated next? budget)

/-- Repeats a reader until it gives nothing.  Each round must take a token, so a budget of one round
per token is enough. -/
def many {α : Type} (next? : TokenParser (Option α)) : TokenParser (List α) := do
  repeated next? ((← get).length + 1)

def all {α : Type} (parser : TokenParser α) : TokenParser (List α) :=
  many do
    if ← atEnd then return none
    return some (← parser)

/-- Reads values separated by commas to the last token; a comma may come last. -/
def commaSeparated {α : Type} (parser : TokenParser α) : TokenParser (List α) :=
  all do
    let value ← parser
    unless ← atEnd do op ","
    return value

/-- Reads values separated by commas to the last token; a comma may come last.  The reader is told
which value is the first, and says after which one no further may come. -/
def commaSeparatedUntilLast (parser : Bool → TokenParser Bool) : TokenParser Unit := do
  let next (isFirst : Bool) : TokenParser Unit := do
    let isLast ← parser isFirst
    unless ← atEnd do op ","
    if isLast then require List.isEmpty
  unless ← atEnd do
    next true
    let _ ← all (next false)

/-- Extends a value round by round until no round applies, at most so many times. -/
def extendedBy {α : Type} (round : α → TokenParser (Option α)) : Nat → α → TokenParser α
  | 0, _ => failure
  | budget + 1, value => do
    match ← round value with
    | none => return value
    | some next => extendedBy round budget next

/-- Extends a value round by round until no round applies. -/
def extended {α : Type} (round : α → TokenParser (Option α)) (value : α) : TokenParser α := do
  extendedBy round ((← get).length + 1) value

end TokenParser

end Ambient.Source
