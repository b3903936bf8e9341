import Ambient.Class
import Ambient.Decimal.Shortest
import Ambient.Text.Substitution

/-!
# Spelling

How names, strings and literals are written in TypeScript.  A key is written bare when it is an
identifier and as a quoted string otherwise; a string literal of the form `Enum.MEMBER` stands for
the member itself and is not quoted.
-/

namespace Ambient.Spelling

def isLetter (c : Char) : Bool :=
  ('a' ≤ c && c ≤ 'z') || ('A' ≤ c && c ≤ 'Z')

def isDigit (c : Char) : Bool :=
  '0' ≤ c && c ≤ '9'

def isCapital (c : Char) : Bool :=
  'A' ≤ c && c ≤ 'Z'

/-- The characters that an identifier starts with. -/
def startsIdentifier (c : Char) : Bool :=
  isLetter c || c == '_' || c == '$'

/-- The characters of an identifier after its first. -/
def continuesIdentifier (c : Char) : Bool :=
  startsIdentifier c || isDigit c

/-- Whether a text is an identifier of ASCII characters. -/
def isIdentifier : List Char → Bool
  | [] => false
  | first :: rest => startsIdentifier first && rest.all continuesIdentifier

/-- Puts a backslash before each backslash and each double quote. -/
def escape : List Char → List Char
  | [] => []
  | c :: rest => if c == '\\' || c == '"' then '\\' :: c :: escape rest else c :: escape rest

def quote (value : String) : String :=
  String.ofList ('"' :: escape value.toList ++ ['"'])

/-- The name of a property or of an enumeration member. -/
def key (name : String) : String :=
  if isIdentifier name.toList then name else quote name

/-- Whether a text has the form `Enum.MEMBER`: a capital with letters and digits, a point, and
capitals with underscores and digits. -/
def isMember (text : List Char) : Bool :=
  match text with
  | [] => false
  | first :: rest =>
    isCapital first &&
      match rest.dropWhile fun c => isLetter c || isDigit c with
      | '.' :: second :: rest =>
        (isCapital second || second == '_') &&
          rest.all fun c => isCapital c || isDigit c || c == '_'
      | _ => false

def literal : Literal → String
  | .text value => if isMember value.toList then value else quote value
  | .int value => toString value
  | .float value => value.toText
  | .bool value => if value then "true" else "false"
  | .null => "null"
  | .raw expression => expression

/-- The placeholder for any string, as it is written in a pattern. -/
def stringPlaceholder : List Char := ['{', 's', 't', 'r', 'i', 'n', 'g', '}']

/-- The placeholder for any number, as it is written in a pattern. -/
def numberPlaceholder : List Char := ['{', 'n', 'u', 'm', 'b', 'e', 'r', '}']

/-- The text of a pattern within the backticks: each placeholder gets a dollar sign. -/
def templateBody (pattern : List Char) : List Char :=
  Text.replaceAll numberPlaceholder ('$' :: numberPlaceholder)
    (Text.replaceAll stringPlaceholder ('$' :: stringPlaceholder) pattern)

def template (pattern : String) : String :=
  String.ofList ('`' :: templateBody pattern.toList ++ ['`'])

def caseValue : CaseValue → String
  | .text value => quote value
  | .int value => toString value

/-- The union of the values of an enumeration; without values it is the empty type. -/
def caseUnion (values : List CaseValue) : String :=
  if values.isEmpty then "never" else " | ".intercalate (values.map caseValue)

end Ambient.Spelling
