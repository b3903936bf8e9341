import Ambient.QualifiedName
import Ambient.Rendering

/-!
# The tree of namespaces

Declarations filed under the namespaces of their names.  A namespace comes into being with the
first declaration filed below it, and of two declarations with the same name in the same namespace
the first one stays.
-/

namespace Ambient

/-- Namespaces and declarations, each in the order of first use. -/
inductive NamespaceTree
  | node (namespaces : List (String × NamespaceTree)) (declarations : List (String × Declaration))
  deriving Repr, Inhabited

namespace NamespaceTree

def empty : NamespaceTree := node [] []

def namespaces : NamespaceTree → Table NamespaceTree
  | node namespaces _ => namespaces

/-- The declarations outside the child namespaces. -/
def declarations : NamespaceTree → Table Declaration
  | node _ declarations => declarations

def isEmpty (tree : NamespaceTree) : Bool :=
  tree.namespaces.isEmpty && tree.declarations.isEmpty

/-- Files a declaration under a path of namespaces. -/
def file (tree : NamespaceTree) (path : List String) (declaration : Declaration) :
    NamespaceTree :=
  match path with
  | [] => node tree.namespaces (tree.declarations.add declaration.name declaration)
  | first :: rest =>
    let child := (tree.namespaces.find? first).getD empty
    node (tree.namespaces.set first (child.file rest declaration)) tree.declarations

/-- Files a declaration under the namespaces of a qualified name. -/
def add (tree : NamespaceTree) (name : String) (declaration : Declaration) : NamespaceTree :=
  tree.file (QualifiedName.namespaces name) declaration

def ofList (entries : List (String × Declaration)) : NamespaceTree :=
  entries.foldl (fun tree entry => tree.add entry.1 entry.2) empty

/-- The header of a namespace: only the outermost ones are declared, the others are exported. -/
def header (layout : Layout) (name : String) : String :=
  (if layout.depth == 0 then "declare namespace " else "export namespace ") ++ name ++ " \x7b\n"

def renderDeclarations (layout : Layout) (declarations : Table Declaration) : String :=
  String.join (declarations.map fun entry => entry.2.render layout)

mutual

/-- The text of a tree, the namespaces before the declarations. -/
def render (layout : Layout) : NamespaceTree → String
  | node namespaces declarations =>
    renderNamespaces layout namespaces ++ renderDeclarations layout declarations

/-- The texts of namespaces, each with its header and its closing brace. -/
def renderNamespaces (layout : Layout) : List (String × NamespaceTree) → String
  | [] => ""
  | (name, tree) :: rest =>
    layout.indentation 0 ++ header layout name ++ tree.render layout.deeper ++
      layout.indentation 0 ++ "\x7d\n" ++ renderNamespaces layout rest

end

def renderNamespace (layout : Layout) (name : String) (tree : NamespaceTree) : String :=
  renderNamespaces layout [(name, tree)]

end NamespaceTree

end Ambient
