import Ambient.FilePath

/-!
# File systems

What a run can see and change of the files around it: directories and files below a working
directory, as data.  The places above the working directory exist and contain it, but nothing else
is known of them.
-/

namespace Ambient

inductive Content
  | text (text : String)
  /-- Bytes that are no text. -/
  | binary
  deriving DecidableEq, Repr, Inhabited

inductive Entry
  | directory
  | file (content : Content) (readonly : Bool)
  deriving DecidableEq, Repr, Inhabited

/-- The entries below the working directory, by the names that lead to them. -/
structure FileSystem where
  entries : List (List String × Entry) := []
  deriving Repr, Inhabited

inductive Place
  /-- The entry that these names lead to from the working directory; the directory itself for no
  names. -/
  | below (names : List String)
  /-- The directory so many levels above the working directory. -/
  | above (levels : Nat)
  /-- The root of all directories. -/
  | root
  deriving DecidableEq, Repr, Inhabited

namespace Place

/-- Whether a place is a given directory or lies below it. -/
def isUnder : Place → Place → Bool
  | _, root => true
  | root, _ => false
  | below names, below directory => directory.isPrefixOf names
  | below _, above _ => true
  | above _, below _ => false
  | above levels, above directory => levels ≤ directory

end Place

namespace FileSystem

def entry? (fs : FileSystem) (names : List String) : Option Entry :=
  if names.isEmpty then some .directory else List.lookup names fs.entries

/-- The entry at a place; outside the working directory there are only directories. -/
def at? (fs : FileSystem) : Place → Option Entry
  | .below names => fs.entry? names
  | .above _ => some .directory
  | .root => some .directory

def isDirectory (fs : FileSystem) (place : Place) : Bool :=
  fs.at? place == some .directory

def put (fs : FileSystem) (names : List String) (entry : Entry) : FileSystem :=
  { entries := (names, entry) :: fs.entries.filter fun other => other.1 != names }

/-- Takes one step from a place.  Only a directory can be stepped from. -/
def step? (fs : FileSystem) (place : Place) (name : String) : Option Place :=
  if !fs.isDirectory place then none
  else if name == "" || name == "." then some place
  else if name == ".." then
    match place with
    | .below [] => some (.above 1)
    | .below names => some (.below names.dropLast)
    | .above levels => some (.above (levels + 1))
    | .root => some .root
  else
    match place with
    | .below names =>
      if (fs.entry? (names ++ [name])).isSome then some (.below (names ++ [name])) else none
    | _ => none

def follow? (fs : FileSystem) (place : Place) (steps : List String) : Option Place :=
  steps.foldlM (fs.step? · ·) place

/-- The steps of a path. -/
def stepsOf (path : String) : List String :=
  (FilePath.steps path).map SystemText.text

def start (path : String) : Place :=
  if FilePath.isAbsolute path then .root else .below []

/-- The place that a path leads to, if it exists.  The empty path leads nowhere. -/
def resolve? (fs : FileSystem) (path : String) : Option Place :=
  if path.isEmpty then none else fs.follow? (start path) (stepsOf path)

def read? (fs : FileSystem) (path : String) : Option String :=
  match (fs.resolve? path).bind fs.at? with
  | some (.file (.text text) _) => some text
  | _ => none

/-- Where a new file of a path goes: its directory must exist, and its last step must be a name. -/
def newFile? (fs : FileSystem) (path : String) : Option (List String) :=
  let steps := stepsOf path
  match steps.getLast?, fs.follow? (start path) steps.dropLast with
  | some name, some (.below names) =>
    if name == "" || name == "." || name == ".." || !fs.isDirectory (.below names) then none
    else some (names ++ [name])
  | _, _ => none

/-- Writes the file at a path, unless it is a directory, a read-only file, or has no directory to
lie in. -/
def write? (fs : FileSystem) (path : String) (text : String) : Option FileSystem :=
  match fs.resolve? path with
  | some (.below names) =>
    match fs.entry? names with
    | some (.file _ false) => some (fs.put names (.file (.text text) false))
    | _ => none
  | some _ => none
  | none => (fs.newFile? path).map fun names => fs.put names (.file (.text text) false)

/-- The names in a path. -/
def namesOf (path : String) : List String :=
  ((FilePath.components path).map SystemText.text).filter (· != ".")

def makeDirectories (fs : FileSystem) (path : String) : FileSystem :=
  let names := namesOf path
  (List.range names.length).foldl
    (fun fs count =>
      let names := names.take (count + 1)
      if (fs.entry? names).isSome then fs else fs.put names .directory)
    fs

/-- Puts a file at a path and makes the directories it lies in. -/
def makeFile (fs : FileSystem) (path : String) (content : Content) (readonly : Bool) :
    FileSystem :=
  let names := namesOf path
  (fs.makeDirectories ("/".intercalate names.dropLast)).put names (.file content readonly)

/-! ## Walking -/

/-- Whether one list of names comes before another in a walk: a directory before what it holds,
and names in the order of their code points. -/
def comesBefore : List String → List String → Bool
  | [], _ => true
  | _ :: _, [] => false
  | first :: rest, other :: others =>
    if first == other then comesBefore rest others else first < other

/-- The names below a place, relative to it, in the order of a walk; the place itself comes first
with no names. -/
def walk (fs : FileSystem) (place : Place) : List (List String) :=
  match place with
  | .below directory =>
    let below := fs.entries.filterMap fun entry =>
      if directory.isPrefixOf entry.1 then some (entry.1.drop directory.length) else none
    [] :: (below.filter (!·.isEmpty)).mergeSort comesBefore
  | _ => [[]]

end FileSystem

end Ambient
