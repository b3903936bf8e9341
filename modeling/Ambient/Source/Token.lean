import Ambient.Decimal.Binary64

/-!
# Tokens

A source text as a tree of tokens: words, lifetimes, single punctuation characters, literals, and
groups of tokens between matching delimiters.
-/

namespace Ambient.Source

/-- A word of the source.  A *raw* one is spelled with a leading `r#`, which is not part of its
name. -/
structure Ident where
  name : String
  raw : Bool
  line : Nat
  deriving DecidableEq, Repr, Inhabited

def Ident.spelling (ident : Ident) : String :=
  if ident.raw then "r#" ++ ident.name else ident.name

inductive Lit
  /-- A string, its escapes resolved. -/
  | text (value : String)
  /-- A whole number, and whether a word such as the name of its type follows it directly. -/
  | int (value : Int) (isSuffixed : Bool)
  /-- A number with a point or an exponent, and its spelling. -/
  | float (value : Binary64) (spelling : String)
  | bool (value : Bool)
  /-- A character, byte, byte string or C string, or the mark of an error. -/
  | other
  deriving DecidableEq, Repr, Inhabited

/-- Whether a literal may stand for the name of a field: a plain number of 32 bits. -/
def Lit.isFieldNumber : Lit → Bool
  | .int value isSuffixed => !isSuffixed && 0 ≤ value && value < 4294967296
  | _ => false

inductive Delimiter
  | parenthesis
  | bracket
  | brace
  deriving DecidableEq, Repr, Inhabited

/-- A token.  A punctuation character is *joint* if another one follows it directly, so that the
two may form one operator. -/
inductive Token
  | ident (ident : Ident)
  | lifetime
  | punct (c : Char) (joint : Bool)
  | literal (value : Lit)
  | group (delimiter : Delimiter) (content : List Token)
  deriving Repr, Inhabited

end Ambient.Source
