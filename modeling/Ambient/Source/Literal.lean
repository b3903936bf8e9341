import Ambient.Source.Token
import Ambient.Text.Blank
import Ambient.Text.Letters

/-!
# Words and literals

The spelling of words, numbers, strings and characters.  Each scanner takes the rest of a source
and gives what it read with what is left, or nothing if the source starts otherwise.
-/

namespace Ambient.Source

def startsWord (c : Char) : Bool :=
  c == '_' || Text.startsName c

def continuesWord (c : Char) : Bool :=
  Text.continuesName c

def scanWord (source : List Char) : Option (String × List Char) :=
  match source with
  | [] => none
  | c :: rest =>
    if startsWord c then
      some (String.ofList (c :: rest.takeWhile continuesWord), rest.dropWhile continuesWord)
    else none

/-- Drops the word that follows a literal directly. -/
def dropSuffix (source : List Char) : List Char :=
  match scanWord source with
  | some (_, rest) => rest
  | none => source

def startsWith (text : String) (source : List Char) : Bool :=
  text.toList.isPrefixOf source

/-! ## Numbers -/

/-- The decimal digits and the underscores between them. -/
def isDecimalPart (c : Char) : Bool :=
  c.isDigit || c == '_'

def hexDigit? (c : Char) : Option Nat :=
  if '0' ≤ c && c ≤ '9' then some (c.toNat - '0'.toNat)
  else if 'a' ≤ c && c ≤ 'f' then some (c.toNat - 'a'.toNat + 10)
  else if 'A' ≤ c && c ≤ 'F' then some (c.toNat - 'A'.toNat + 10)
  else none

/-- The exponent of a number after its `e`: a sign, and digits of which there is at least one. -/
def scanExponent (source : List Char) : Option (List Char × List Char) :=
  let underscores := source.takeWhile (· == '_')
  let (sign, rest) : List Char × List Char :=
    match source.dropWhile (· == '_') with
    | '+' :: rest => ([], rest)
    | '-' :: rest => (['-'], rest)
    | rest => ([], rest)
  let digits := rest.takeWhile isDecimalPart
  if digits.any Char.isDigit then
    some (underscores ++ sign ++ digits, rest.dropWhile isDecimalPart)
  else none

/-- The digits of a number with a point or an exponent. -/
def scanFloatDigits (source : List Char) : Option (List Char × List Char) :=
  let whole := source.takeWhile isDecimalPart
  if !(source.head?.any Char.isDigit) then none
  else
    match source.dropWhile isDecimalPart with
    | '.' :: rest =>
      if rest.head?.any fun c => c == '.' || startsWord c then none
      else
        let digits := whole ++ '.' :: rest.takeWhile isDecimalPart
        let rest := rest.dropWhile isDecimalPart
        match rest with
        | [] => some (digits, rest)
        | c :: after =>
          if c == 'e' || c == 'E' then
            match scanExponent after with
            | some (exponent, rest) => some (digits ++ 'e' :: exponent, rest)
            | none => some (digits, rest)
          else some (digits, rest)
    | c :: rest =>
      if c == 'e' || c == 'E' then
        (scanExponent rest).map fun (exponent, rest) => (whole ++ 'e' :: exponent, rest)
      else none
    | [] => none

/-- The digits of a whole number in a base, and their value. -/
def scanDigits (base : Nat) : Nat → Bool → List Char → Option (Nat × List Char)
  | value, seen, [] => if seen then some (value, []) else none
  | value, seen, c :: rest =>
    if c == '_' then
      if seen || base != 10 then scanDigits base value seen rest else none
    else
      match hexDigit? c with
      | some digit =>
        if digit < base then scanDigits base (value * base + digit) true rest
        else if c.isDigit || !seen then none
        else some (value, c :: rest)
      | none => if seen then some (value, c :: rest) else none

/-- A whole number with the base that its first characters tell. -/
def scanWhole (source : List Char) : Option (Nat × List Char) :=
  match source with
  | '0' :: 'x' :: rest => scanDigits 16 0 false rest
  | '0' :: 'o' :: rest => scanDigits 8 0 false rest
  | '0' :: 'b' :: rest => scanDigits 2 0 false rest
  | _ => scanDigits 10 0 false source

/-- What is left after a number and its suffix, unless a word goes on there. -/
def endNumber (source : List Char) : Option (List Char) :=
  let rest := dropSuffix source
  if rest.head?.any continuesWord then none else some rest

def scanFloat (source : List Char) : Option (Lit × List Char) := do
  let (digits, rest) ← scanFloatDigits source
  let value ← Binary64.ofDigits? false (digits.filter (· != '_'))
  let rest ← endNumber rest
  pure (.float value (String.ofList (source.take (source.length - rest.length))), rest)

def scanInt (source : List Char) : Option (Lit × List Char) := do
  let (value, afterDigits) ← scanWhole source
  let rest ← endNumber afterDigits
  pure (.int value (rest.length < afterDigits.length), rest)

/-- Whether some characters spell the number of a field. -/
def spellsFieldNumber (source : List Char) : Bool :=
  match scanInt source with
  | some (value, []) => value.isFieldNumber
  | _ => false

/-- Reads a number with a point as the numbers of fields of fields: whether the point ends it, so
that a further field follows, or nothing if it is no such number. -/
def endsInPoint? (spelling : String) : Option Bool :=
  let whole := spelling.toList.takeWhile (· != '.')
  let fraction := (spelling.toList.dropWhile (· != '.')).drop 1
  if spellsFieldNumber whole && (fraction.isEmpty || spellsFieldNumber fraction) then
    some fraction.isEmpty
  else none

/-! ## Strings and characters -/

inductive QuotedKind
  | text
  | bytes
  /-- Text that ends before a zero, so that it can hold none. -/
  | cText
  deriving DecidableEq, Repr

/-- Whether a character may stand in a literal as itself. -/
def QuotedKind.allows (kind : QuotedKind) (c : Char) : Bool :=
  match kind with
  | text => true
  | bytes => c.toNat < 0x80
  | cText => c.toNat != 0

inductive Progress
  | plain
  /-- After a carriage return, which only a line feed may follow. -/
  | carriageReturn
  | backslash
  /-- Before the two digits of `\x`. -/
  | hexFirst
  | hexSecond (first : Nat)
  /-- Before the brace of `\u`. -/
  | unicodeOpen
  | unicode (value : Nat) (digits : Nat)
  /-- After the line break of `\` at the end of a line. -/
  | lineBreak
  /-- After a carriage return among the blanks that follow a line break. -/
  | lineBreakReturn
  deriving DecidableEq, Repr

def simpleEscape? (kind : QuotedKind) (c : Char) : Option Char :=
  match c with
  | 'n' => some '\n'
  | 'r' => some '\r'
  | 't' => some '\t'
  | '\\' => some '\\'
  | '\'' => some '\''
  | '"' => some '"'
  | '0' => if kind == .cText then none else some '\x00'
  | _ => none

/-- The character with a code point, if there is one and the literal may hold it. -/
def unicodeEscape? (kind : QuotedKind) (codePoint : Nat) : Option Char :=
  if codePoint.isValidChar then
    if kind == .cText && codePoint == 0 then none else some (Char.ofNat codePoint)
  else none

/-- Reads one character of an escape or of plain text: the next standing, and the character it
completes. -/
def Progress.next? (kind : QuotedKind) (progress : Progress) (c : Char) :
    Option (Progress × Option Char) :=
  let plainNext : Option (Progress × Option Char) :=
    if c == '\\' then some (.backslash, none)
    else if c == '\r' then some (.carriageReturn, none)
    else if kind.allows c then some (.plain, some c)
    else none
  match progress with
  | plain => plainNext
  | carriageReturn => if c == '\n' then some (.plain, some '\n') else none
  | backslash =>
    if c == 'x' then some (.hexFirst, none)
    else if c == 'u' then if kind == .bytes then none else some (.unicodeOpen, none)
    else if c == '\n' then some (.lineBreak, none)
    else if c == '\r' then some (.lineBreakReturn, none)
    else (simpleEscape? kind c).map fun escaped => (.plain, some escaped)
  | hexFirst => do
    let digit ← hexDigit? c
    if kind == .text && 8 ≤ digit then none else some (.hexSecond digit, none)
  | hexSecond first => do
    let digit ← hexDigit? c
    if kind == .cText && first * 16 + digit == 0 then none
    else some (.plain, some (Char.ofNat (first * 16 + digit)))
  | unicodeOpen => if c == '{' then some (.unicode 0 0, none) else none
  | unicode value digits =>
    if c == '_' then if digits == 0 then none else some (.unicode value digits, none)
    else if c == '}' then
      if digits == 0 then none
      else (unicodeEscape? kind value).map fun escaped => (.plain, some escaped)
    else do
      let digit ← hexDigit? c
      if digits == 6 then none else some (.unicode (value * 16 + digit) (digits + 1), none)
  | lineBreak =>
    if c == ' ' || c == '\t' || c == '\n' then some (.lineBreak, none)
    else if c == '\r' then some (.lineBreakReturn, none)
    else plainNext
  | lineBreakReturn => if c == '\n' then some (.lineBreak, none) else none

/-- Whether a quote at this standing closes the literal. -/
def Progress.mayClose : Progress → Bool
  | plain => true
  | lineBreak => true
  | _ => false

/-- The value of a literal up to its closing quote. -/
def scanQuoted (kind : QuotedKind) : Progress → List Char → Option (List Char × List Char)
  | _, [] => none
  | progress, c :: rest =>
    if c == '"' && progress.mayClose then some ([], rest)
    else
      match progress.next? kind c with
      | none => none
      | some (next, none) => scanQuoted kind next rest
      | some (next, some value) =>
        (scanQuoted kind next rest).map fun (values, rest) => (value :: values, rest)

/-- The value of a raw literal up to its closing quote and the hashes after it. -/
def scanRaw (kind : QuotedKind) (hashes : List Char) : List Char → Option (List Char × List Char)
  | [] => none
  | c :: rest =>
    if c == '"' && hashes.isPrefixOf rest then some ([], rest.drop hashes.length)
    else if !kind.allows c || (c == '\r' && rest.head? != some '\n') then none
    else (scanRaw kind hashes rest).map fun (values, rest) => (c :: values, rest)

/-- A raw literal after its `r`. -/
def scanRawString (kind : QuotedKind) (source : List Char) : Option (List Char × List Char) :=
  let hashes := source.takeWhile (· == '#')
  match source.dropWhile (· == '#') with
  | '"' :: rest => if 255 < hashes.length then none else scanRaw kind hashes rest
  | _ => none

def scanString (source : List Char) : Option (Lit × List Char) :=
  let finish (lit : List Char → Lit) (read : Option (List Char × List Char)) :=
    read.map fun (value, rest) => (lit value, dropSuffix rest)
  let text (value : List Char) : Lit := .text (String.ofList value)
  let other (_ : List Char) : Lit := .other
  match source with
  | '"' :: rest => finish text (scanQuoted .text .plain rest)
  | 'r' :: rest => finish text (scanRawString .text rest)
  | 'b' :: '"' :: rest => finish other (scanQuoted .bytes .plain rest)
  | 'b' :: 'r' :: rest => finish other (scanRawString .bytes rest)
  | 'c' :: '"' :: rest => finish other (scanQuoted .cText .plain rest)
  | 'c' :: 'r' :: rest => finish other (scanRawString .cText rest)
  | _ => none

/-- The escape of a character after its backslash. -/
def scanEscape (kind : QuotedKind) : Progress → List Char → Option (List Char)
  | _, [] => none
  | progress, c :: rest =>
    match progress.next? kind c with
    | none => none
    | some (_, some _) => some rest
    | some (.lineBreak, none) => none
    | some (.lineBreakReturn, none) => none
    | some (next, none) => scanEscape kind next rest

def scanCharacter (kind : QuotedKind) (source : List Char) : Option (Lit × List Char) := do
  let rest ←
    match source with
    | [] => none
    | '\\' :: rest => scanEscape kind .backslash rest
    | c :: rest => if kind.allows c then some rest else none
  match rest with
  | '\'' :: rest => pure (.other, dropSuffix rest)
  | _ => none

def scanLiteral (source : List Char) : Option (Lit × List Char) :=
  scanString source
    <|> (match source with
      | 'b' :: '\'' :: rest => scanCharacter .bytes rest
      | '\'' :: rest => scanCharacter .text rest
      | _ => none)
    <|> scanFloat source
    <|> scanInt source

/-! ## Words -/

/-- The beginnings of a literal that are no words even if the literal is broken. -/
def literalMarks : List String :=
  ["r\"", "r#\"", "r##", "b\"", "b'", "br\"", "br#", "c\"", "cr\"", "cr#"]

def neverRaw : List String :=
  ["_", "super", "self", "Self", "crate"]

def scanSpelled (line : Nat) (source : List Char) : Option (Ident × List Char) :=
  match source with
  | 'r' :: '#' :: rest => do
    let (name, rest) ← scanWord rest
    if name ∈ neverRaw then none else pure (⟨name, true, line⟩, rest)
  | _ => do
    let (name, rest) ← scanWord source
    pure (⟨name, false, line⟩, rest)

def scanIdent (line : Nat) (source : List Char) : Option (Ident × List Char) :=
  if literalMarks.any (startsWith · source) then none else scanSpelled line source

end Ambient.Source
