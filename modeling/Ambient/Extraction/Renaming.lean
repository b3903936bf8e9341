import Ambient.Text.Letters

/-!
# Renaming rules

How serde's `rename_all` respells the names of fields, which are written in snake case, and of
variants, which are written in Pascal case.
-/

namespace Ambient.Extraction

/-- A rule of `rename_all`. -/
inductive Renaming
  | none
  | lower
  | upper
  | pascal
  | camel
  | snake
  | screamingSnake
  | kebab
  | screamingKebab
  deriving DecidableEq, Repr, Inhabited

namespace Renaming

/-- The rule with a name; an unknown name changes nothing. -/
def ofName (name : String) : Renaming :=
  match name with
  | "lowercase" => lower
  | "UPPERCASE" => upper
  | "PascalCase" => pascal
  | "camelCase" => camel
  | "snake_case" => snake
  | "SCREAMING_SNAKE_CASE" => screamingSnake
  | "kebab-case" => kebab
  | "SCREAMING-KEBAB-CASE" => screamingKebab
  | _ => none

def toLower (text : List Char) : List Char :=
  text.map Char.toLower

def toUpper (text : List Char) : List Char :=
  text.map Char.toUpper

def toKebab (text : List Char) : List Char :=
  text.map fun c => if c == '_' then '-' else c

def lowerFirst : List Char → List Char
  | [] => []
  | c :: rest => c.toLower :: rest

/-- Every character in lower case, each capital with an underscore before it. -/
def underscored : List Char → List Char
  | [] => []
  | c :: rest =>
    if Text.isUppercase c then '_' :: c.toLower :: underscored rest
    else c.toLower :: underscored rest

def variantSnake : List Char → List Char
  | [] => []
  | c :: rest => c.toLower :: underscored rest

/-- Drops the underscores and writes the character after each run of them in upper case, and the
first one too if `capital` holds. -/
def joined (capital : Bool) : List Char → List Char
  | [] => []
  | c :: rest =>
    if c == '_' then joined true rest
    else (if capital then c.toUpper else c) :: joined false rest

def variantChars (rule : Renaming) (name : List Char) : List Char :=
  match rule with
  | none => name
  | pascal => name
  | lower => toLower name
  | upper => toUpper name
  | camel => lowerFirst name
  | snake => variantSnake name
  | screamingSnake => toUpper (variantSnake name)
  | kebab => toKebab (variantSnake name)
  | screamingKebab => toKebab (toUpper (variantSnake name))

def fieldChars (rule : Renaming) (name : List Char) : List Char :=
  match rule with
  | none => name
  | lower => name
  | snake => name
  | upper => toUpper name
  | screamingSnake => toUpper name
  | kebab => toKebab name
  | screamingKebab => toKebab (toUpper name)
  | pascal => joined true name
  | camel => joined false name

def variant (rule : Renaming) (name : String) : String :=
  String.ofList (rule.variantChars name.toList)

def field (rule : Renaming) (name : String) : String :=
  String.ofList (rule.fieldChars name.toList)

end Renaming

end Ambient.Extraction
