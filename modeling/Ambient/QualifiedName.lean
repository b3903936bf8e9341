/-!
# Qualified names

A class is named by the path of its module and its own name, joined by `::` as in
`app::models::User`.  Empty segments carry no meaning: a leading or doubled separator is ignored
when the path is read, in the namespaces and in the dotted form alike.
-/

namespace Ambient.QualifiedName

def separator : String := "::"

/-- The text before the first separator, and the texts after each one. -/
def splitAtSeparators : List Char → List Char × List (List Char)
  | [] => ([], [])
  | ':' :: ':' :: rest =>
    let (first, more) := splitAtSeparators rest
    ([], first :: more)
  | c :: rest =>
    let (first, more) := splitAtSeparators rest
    (c :: first, more)

/-- The non-empty segments of a name. -/
def segments (name : String) : List String :=
  let (first, more) := splitAtSeparators name.toList
  ((first :: more).filter (!·.isEmpty)).map String.ofList

/-- Joins segments to a name; empty ones are left out. -/
def ofSegments (segments : List String) : String :=
  separator.intercalate (segments.filter (!·.isEmpty))

def upToSeparator : List Char → List Char
  | [] => []
  | ':' :: ':' :: _ => []
  | c :: rest => c :: upToSeparator rest

/-- The text after the last separator: the name of a class within its module. -/
def short (name : String) : String :=
  String.ofList (upToSeparator name.toList.reverse).reverse

/-- The namespaces that a declaration of this name is filed under, outermost first. -/
def namespaces (name : String) : List String :=
  (segments name).dropLast

/-- The name as a TypeScript path. -/
def dotted (name : String) : String :=
  ".".intercalate (segments name)

end Ambient.QualifiedName
