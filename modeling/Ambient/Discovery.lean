import Ambient.Fault
import Ambient.FileSystem
import Ambient.Registry

/-!
# Discovery

The marked classes whose source file lies under one of some directories.  All that discovery asks of
the files around it is where a path leads, which places are directories, and which places lie under
which.
-/

namespace Ambient

/-- Where paths lead. -/
structure Locations (α : Type) where
  /-- The place that a path leads to, if it exists. -/
  resolve? : String → Option α
  isDirectory : α → Bool
  /-- Whether a place is a given one or lies below it. -/
  isUnder : α → α → Bool

def FileSystem.locations (fs : FileSystem) : Locations Place where
  resolve? := fs.resolve?
  isDirectory := fs.isDirectory
  isUnder := Place.isUnder

namespace Discovery

section Locations

variable {α : Type} (locations : Locations α)

/-- The place of a directory, or why there is none. -/
def directory (path : String) : Except Failure α :=
  match locations.resolve? path with
  | none => .error (.missingDirectory path)
  | some place =>
    if locations.isDirectory place then .ok place else .error (.notDirectory path)

/-- The classes with a file that exists, and the place of that file. -/
def places (registry : Registry) : List (String × α) :=
  registry.files.filterMap fun (name, file) =>
    (locations.resolve? file).map fun place => (name, place)

def isMarked (registry : Registry) (name : String) : Bool :=
  (Table.find? registry name).any Class.marked

def under (registry : Registry) (places : List (String × α)) (directory : α) : List String :=
  (places.filter fun (name, place) =>
    locations.isUnder place directory && isMarked registry name).map Prod.fst

/-- The marked classes under the directories, in the order of the directories and then of the
registry, each once.  All directories must exist. -/
def discoverIn (registry : Registry) (directories : List String) :
    Except Failure (List String) := do
  let roots ← directories.mapM (directory locations)
  pure (roots.flatMap (under locations registry (places locations registry))).eraseDups

end Locations

def discover (fs : FileSystem) (registry : Registry) (directories : List String) :
    Except Failure (List String) :=
  discoverIn fs.locations registry directories

end Discovery

end Ambient
