import Ambient.QualifiedName
import Ambient.SystemText

/-!
# File paths

Paths and their components, as the system keeps them, and the module that a source file holds by its
place in a source directory.
-/

namespace Ambient.FilePath

def slash : SystemUnit := .char '/'

def point : SystemUnit := .char '.'

/-- What stands before, between and after the slashes of a path. -/
def splitAtSlashes : SystemText → SystemText × List SystemText
  | [] => ([], [])
  | unit :: rest =>
    let (first, more) := splitAtSlashes rest
    if unit == slash then ([], first :: more) else (unit :: first, more)

/-- What stands between the slashes of a path, empty texts and single points included. -/
def steps (path : SystemText) : List SystemText :=
  let (first, more) := splitAtSlashes path
  first :: more

/-- Whether a path starts at the root of the file system. -/
def isAbsolute (path : SystemText) : Bool :=
  path.head? == some slash

/-- The components of a path.  Empty steps vanish, and so do single points unless the path starts
with one; a leading slash is a component of its own. -/
def components (path : SystemText) : List SystemText :=
  let isKept (step : SystemText) : Bool := step != [] && step != [point]
  match steps path with
  | [] => []
  | first :: rest =>
    if isAbsolute path then [slash] :: rest.filter isKept
    else if first == [point] then first :: rest.filter isKept
    else (first :: rest).filter isKept

/-- The name of the file that a list of components leads to. -/
def fileName? (components : List SystemText) : Option SystemText :=
  components.getLast?.filter fun last =>
    last != [slash] && last != [point] && last != [point, point]

/-- Splits a file name at its last point into stem and extension.  A name without a point, or with
its only point in front, has no extension. -/
def splitName (name : SystemText) : SystemText × Option SystemText :=
  let reversed := name.reverse
  let extension := reversed.takeWhile (· != point)
  match reversed.dropWhile (· != point) with
  | [] => (name, none)
  | _ :: stem => if stem.isEmpty then (name, none) else (stem.reverse, some extension.reverse)

/-- The extension of the file that a path leads to. -/
def extension? (path : SystemText) : Option SystemText :=
  (fileName? (components path)).bind fun name => (splitName name).2

/-- The components with the extension of the last one taken off, and the point before it.  Where
nothing but points would be left of a name, as of `..rs`, its point stays. -/
def withoutExtension (components : List SystemText) : List SystemText :=
  match fileName? components with
  | some name =>
    let stem := (splitName name).1
    components.dropLast ++ [if stem == [point] then [point, point] else stem]
  | none => components

def join (directory name : SystemText) : SystemText :=
  if directory.isEmpty || directory.getLast? == some slash then directory ++ name
  else directory ++ slash :: name

/-- The components after those of a root; all of them if the root is not in front. -/
def relativeTo (root components : List SystemText) : List SystemText :=
  if root.isPrefixOf components then components.drop root.length else components

/-- The file stems that stand for the directory they lie in. -/
def directoryStems : List String := ["lib", "main", "mod"]

/-- The name of a crate as the first segment of its modules. -/
def crateSegment (crate : String) : String :=
  String.ofList (crate.toList.map fun c => if c == '-' then '_' else c)

/-- The segments of a module below its crate, from the components that lead to its file. -/
def fileModule (components : List SystemText) : List String :=
  let parts := (withoutExtension components).map SystemText.text
  match parts.getLast? with
  | some last => if last ∈ directoryStems then parts.dropLast else parts
  | none => []

/-- The module that `file` holds in the crate whose sources lie below `root`. -/
def modulePath (root file : SystemText) (crate : String) : String :=
  QualifiedName.ofSegments
    (crateSegment crate :: fileModule (relativeTo (components root) (components file)))

end Ambient.FilePath
