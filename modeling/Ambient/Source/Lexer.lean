import Ambient.Source.Literal

/-!
# From text to tokens

A source is read from left to right.  Blanks and ordinary comments separate tokens; a documentation
comment stands for a `doc` attribute that holds its text.  Delimiters must match, and a text that
fits no token makes the whole source unreadable.
-/

namespace Ambient.Source

inductive Lexeme
  | single (token : Token)
  | openGroup (delimiter : Delimiter)
  | closeGroup (delimiter : Delimiter)
  deriving Repr, Inhabited

/-- The blanks of a source: those of Unicode and the two marks of writing direction. -/
def isSpace (c : Char) : Bool :=
  Text.isBlank c || c.toNat == 0x200E || c.toNat == 0x200F

def punctuation : List Char := "~!@#$%^&*-=+|;:,<.>/?'".toList

/-- Whether a source starts with a punctuation character that opens no comment. -/
def startsPunct (source : List Char) : Bool :=
  match source with
  | [] => false
  | c :: _ => c ∈ punctuation && !startsWith "//" source && !startsWith "/*" source

/-- The number of line ends that were read when `rest` is left of `source`. -/
def linesRead (source rest : List Char) : Nat :=
  (source.take (source.length - rest.length)).count '\n'

/-! ## Comments -/

/-- Whether a source starts with an ordinary comment to the end of the line. -/
def startsLineComment (source : List Char) : Bool :=
  startsWith "//" source && (!startsWith "///" source || startsWith "////" source) &&
    !startsWith "//!" source

/-- Whether a source starts with an ordinary comment between `/*` and `*/`. -/
def startsBlockComment (source : List Char) : Bool :=
  startsWith "/**/" source ||
    (startsWith "/*" source && (!startsWith "/**" source || startsWith "/***" source) &&
      !startsWith "/*!" source)

/-- The text of a block comment up to the end of the outermost of `depth` open ones, and what
follows it. -/
def blockBody : Nat → List Char → Option (List Char × List Char)
  | _, [] => none
  | depth, '/' :: '*' :: rest =>
    (blockBody (depth + 1) rest).map fun (body, rest) => ('/' :: '*' :: body, rest)
  | depth, '*' :: '/' :: rest =>
    if depth ≤ 1 then some ([], rest)
    else (blockBody (depth - 1) rest).map fun (body, rest) => ('*' :: '/' :: body, rest)
  | depth, c :: rest => (blockBody depth rest).map fun (body, rest) => (c :: body, rest)

/-- The text up to the end of the line, and what follows it.  A carriage return before the line
feed belongs to the end of the line. -/
def lineBody : List Char → List Char × List Char
  | [] => ([], [])
  | '\r' :: '\n' :: rest => ([], '\n' :: rest)
  | c :: rest =>
    if c == '\n' then ([], c :: rest)
    else
      let (body, rest) := lineBody rest
      (c :: body, rest)

/-- The text of a documentation comment, whether it documents what encloses it, and what follows
it. -/
def scanDoc (source : List Char) : Option (List Char × Bool × List Char) :=
  match source with
  | '/' :: '/' :: '!' :: rest =>
    let (body, rest) := lineBody rest
    some (body, true, rest)
  | '/' :: '*' :: '!' :: rest => (blockBody 1 rest).map fun (body, rest) => (body, true, rest)
  | '/' :: '/' :: '/' :: rest =>
    if rest.head? == some '/' then none
    else
      let (body, rest) := lineBody rest
      some (body, false, rest)
  | '/' :: '*' :: '*' :: rest =>
    if rest.head? == some '*' then none
    else (blockBody 1 rest).map fun (body, rest) => (body, false, rest)
  | _ => none

/-- Whether a carriage return stands in a text without its line feed. -/
def hasBareReturn : List Char → Bool
  | [] => false
  | '\r' :: '\n' :: rest => hasBareReturn rest
  | '\r' :: _ => true
  | _ :: rest => hasBareReturn rest

/-- The attribute that a documentation comment stands for. -/
def docLexemes (line : Nat) (isInner : Bool) (body : List Char) : List Lexeme :=
  let content : Token :=
    .group .bracket
      [.ident ⟨"doc", false, line⟩, .punct '=' false, .literal (.text (String.ofList body))]
  .single (.punct '#' false) ::
    ((if isInner then [.single (.punct '!' false)] else []) ++ [.single content])

/-! ## Tokens -/

/-- The text that stands for what could not be expanded.  It is a literal, and no group. -/
def errorMark : String := "(/*ERROR*/)"

/-- What a quote starts that opens no literal: a lifetime, or only the quote where the word after it
is the beginning of a literal. -/
def scanQuote (line : Nat) (source : List Char) : Option (Token × List Char) := do
  let (_, rest) ← scanSpelled line source
  if rest.head? == some '\'' || (rest.head? == some '#' && !startsWith "r#" source) then none
  else if (scanLiteral source).isSome then some (.punct '\'' true, source)
  else (scanIdent line source).map fun (_, rest) => (.lifetime, rest)

def scanSingle (line : Nat) (source : List Char) : Option (Token × List Char) :=
  match scanLiteral source with
  | some (value, rest) => some (.literal value, rest)
  | none =>
    if startsPunct source then
      match source with
      | [] => none
      | '\'' :: rest => scanQuote line rest
      | c :: rest => some (.punct c (startsPunct rest), rest)
    else if startsWith errorMark source then
      some (.literal .other, source.drop errorMark.length)
    else (scanIdent line source).map fun (ident, rest) => (.ident ident, rest)

def opens? (source : List Char) : Option Delimiter :=
  match source with
  | '(' :: _ => if startsWith errorMark source then none else some .parenthesis
  | '[' :: _ => some .bracket
  | '{' :: _ => some .brace
  | _ => none

def closes? (c : Char) : Option Delimiter :=
  match c with
  | ')' => some .parenthesis
  | ']' => some .bracket
  | '}' => some .brace
  | _ => none

/-- The lexemes of a source that starts in a given line.  Every step reads a character, so a budget
of one step per character suffices. -/
def lexemes : Nat → Nat → List Char → Option (List Lexeme)
  | _, _, [] => some []
  | 0, _, _ => none
  | budget + 1, line, c :: rest =>
    if isSpace c then lexemes budget (if c == '\n' then line + 1 else line) rest
    else if startsLineComment (c :: rest) then lexemes budget line (lineBody rest).2
    else if startsBlockComment (c :: rest) then
      match blockBody 1 (rest.drop 1) with
      | none => none
      | some (body, rest) => lexemes budget (line + body.count '\n') rest
    else
      match scanDoc (c :: rest) with
      | some (body, isInner, rest) =>
        if hasBareReturn body then none
        else
          (lexemes budget (line + body.count '\n') rest).map (docLexemes line isInner body ++ ·)
      | none =>
        match opens? (c :: rest), closes? c with
        | some delimiter, _ => (lexemes budget line rest).map (.openGroup delimiter :: ·)
        | _, some delimiter => (lexemes budget line rest).map (.closeGroup delimiter :: ·)
        | none, none =>
          match scanSingle line (c :: rest) with
          | none => none
          | some (token, after) =>
            (lexemes budget (line + linesRead (c :: rest) after) after).map (.single token :: ·)

/-- Matches the delimiters: `outer` holds the open groups, innermost first, each with the tokens
before it in reverse, and `done` the tokens of the innermost group in reverse. -/
def assemble : List (Delimiter × List Token) → List Token → List Lexeme → Option (List Token)
  | [], done, [] => some done.reverse
  | _ :: _, _, [] => none
  | outer, done, .single token :: rest => assemble outer (token :: done) rest
  | outer, done, .openGroup delimiter :: rest => assemble ((delimiter, done) :: outer) [] rest
  | [], _, .closeGroup _ :: _ => none
  | (opened, before) :: outer, done, .closeGroup delimiter :: rest =>
    if opened == delimiter then
      assemble outer (.group delimiter done.reverse :: before) rest
    else none

def dropMark (source : List Char) : List Char :=
  match source with
  | c :: rest => if c.toNat == 0xFEFF then rest else source
  | [] => []

def tokenize (source : List Char) : Option (List Token) :=
  let source := dropMark source
  (lexemes source.length 1 source).bind (assemble [] [])

/-! ## Files -/

def skipBlanks : Nat → List Char → List Char
  | 0, source => source
  | _, [] => []
  | budget + 1, c :: rest =>
    if isSpace c then skipBlanks budget rest
    else if startsLineComment (c :: rest) then skipBlanks budget (lineBody rest).2
    else if startsBlockComment (c :: rest) then
      match blockBody 1 (rest.drop 1) with
      | none => c :: rest
      | some (_, rest) => skipBlanks budget rest
    else c :: rest

/-- Drops a first line that starts with `#!`, unless this is the start of an attribute. -/
def dropShebang (source : List Char) : List Char :=
  match source with
  | '#' :: '!' :: rest =>
    if (skipBlanks rest.length rest).head? == some '[' then source
    else source.dropWhile (· != '\n')
  | _ => source

/-- The tokens of a source file.  It may start with a byte order mark, and so may what follows. -/
def tokenizeFile (source : List Char) : Option (List Token) :=
  tokenize (dropShebang (dropMark source))

end Ambient.Source
