import Ambient.QualifiedName
import Ambient.Source.Item
import Ambient.Table

/-!
# Modules and their imports

A path in a source means something only together with the module it is written in: `crate`, `self`
and `super` refer to that module's own path, and the first segment may be a name that a `use` item
of the module brought in.
-/

namespace Ambient.Extraction

open Source

/-- A module of a source: its path, crate first, and the absolute paths of the names it imports. -/
structure Module where
  path : List String
  imports : Table (List String)
  deriving Repr, Inhabited

mutual

/-- The names that an import brings in, with their paths as written, below a path that leads to
it.  What a glob brings in is not known. -/
def importsOf (leading : List String) : UseTree → List (String × List String)
  | .path ident tree => importsOf (leading ++ [ident.spelling]) tree
  | .name ident =>
    if ident.spelling == "self" then
      match leading.getLast? with
      | some last => [(last, leading)]
      | none => []
    else [(ident.spelling, leading ++ [ident.spelling])]
  | .rename ident bound => [(bound.spelling, leading ++ [ident.spelling])]
  | .glob => []
  | .group trees => importsOfAll leading trees

def importsOfAll (leading : List String) : List UseTree → List (String × List String)
  | [] => []
  | tree :: rest => importsOf leading tree ++ importsOfAll leading rest

end

namespace Module

/-- Follows the leading `super` segments of a path upwards from a module. -/
def ascend (base : List String) : List String → List String
  | "super" :: rest => ascend base.dropLast rest
  | segments => base ++ segments

/-- The absolute path of a path that may start with `crate`, `self` or `super`. -/
def absolute (module : List String) (segments : List String) : List String :=
  match segments with
  | "crate" :: rest => ascend (module.take 1) rest
  | "self" :: rest => ascend module rest
  | "super" :: _ => ascend module segments
  | _ => segments

/-- The trees of the `use` items among some items. -/
def useTrees (items : List Item) : List UseTree :=
  items.filterMap fun
    | .use tree => some tree
    | _ => none

/-- The module with a path and some items.  Of two imports of one name the later one counts. -/
def ofItems (path : List String) (items : List Item) : Module :=
  let written := importsOfAll [] (useTrees items)
  { path := path
    imports := Table.ofLast (written.map fun entry => (entry.1, absolute path entry.2)) }

/-- The absolute path of a path as it is written in a module.  A single name that is not imported
belongs to the module itself. -/
def resolve (module : Module) (segments : List String) : List String :=
  match segments with
  | [] => []
  | first :: rest =>
    match module.imports.find? first with
    | some path => path ++ rest
    | none =>
      if first ∈ ["crate", "self", "super"] then absolute module.path segments
      else if rest.isEmpty then module.path ++ [first]
      else segments

/-- The qualified name of a class that a module declares. -/
def qualify (module : Module) (name : String) : String :=
  QualifiedName.ofSegments (module.path ++ [name])

end Module

end Ambient.Extraction
