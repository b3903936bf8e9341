import Ambient.FileSystem

/-!
# Sources

What a scan of a source directory asks of the files around it: what a walk comes across, and what
can be read.
-/

namespace Ambient

/-- Where sources are found. -/
structure Sources where
  /-- The names that lead from a directory to whatever is below it, in the order of a walk; the
  directory itself comes first with no names.  A directory that does not exist has none. -/
  walk : SystemText → List (List SystemText)
  /-- The text of the file at a path, if it can be read. -/
  read? : SystemText → Option String
  /-- What is kept of a path where it is recorded.  It may tell all paths apart. -/
  label : SystemText → String

/-- The paths of the source files of a directory, in the order of a walk. -/
def Sources.files (sources : Sources) (directory : SystemText) : List SystemText :=
  ((sources.walk directory).map fun names => names.foldl FilePath.join directory).filter
    fun path => FilePath.extension? path == some (SystemText.ofString "rs")

/-- The names in a file system are text, and so no path with stray units leads anywhere.  Of a path
that leads to a file, the label keeps everything. -/
def FileSystem.sources (fs : FileSystem) : Sources where
  walk directory :=
    match directory.unicode?.bind fs.resolve? with
    | none => []
    | some place => (fs.walk place).map fun names => names.map SystemText.ofString
  read? path := path.unicode?.bind fs.read?
  label := SystemText.text

namespace FileSystem

variable (fs : FileSystem) (path : String)

theorem sources_walk {place : Place} (h : fs.resolve? path = some place) :
    fs.sources.walk path = (fs.walk place).map fun names => names.map SystemText.ofString := by
  simp [sources, h]

@[simp] theorem sources_read? : fs.sources.read? path = fs.read? path := by
  simp [sources]

@[simp] theorem sources_label : fs.sources.label path = path :=
  SystemText.text_ofString path

end FileSystem

end Ambient
