import Ambient.Discovery
import Ambient.Extraction
import Ambient.Generation
import Ambient.Sources

/-!
# The generator

A generator collects classes, by hand or from sources, together with the wishes about the output,
and makes declaration files of them.  It changes nothing outside itself but the file it writes.
-/

namespace Ambient

/-- What a generator knows and how it writes. -/
structure Generator where
  registry : Registry := []
  replacements : Replacements := []
  unit : String := "\t"
  enumStyle : EnumStyle := .native
  recordStyle : RecordStyle := .interface
  /-- The file that is written if none is named. -/
  output : String := "generated.d.ts"
  /-- The directories whose marked classes are generated without being named. -/
  directories : List String := []
  /-- The derived names that mark a class for generation. -/
  markers : List String := ["TypeScript"]
  /-- The classes that are always generated. -/
  requested : List String := []
  deriving Repr, Inhabited

namespace Generator

/-! ## Collecting classes -/

/-- Adds a name that marks classes, unless it marks them already. -/
def addMarker (generator : Generator) (name : String) : Generator :=
  if name ∈ generator.markers then generator
  else { generator with markers := generator.markers ++ [name] }

def addClass (generator : Generator) (c : Class) : Generator :=
  { generator with registry := generator.registry.insert c }

/-- Adds the classes of a source; a malformed one is passed over. -/
def addSource (generator : Generator) (moduleName source : String) (file : Option String) :
    Generator :=
  let classes := (Extraction.classesOfSource? ⟨generator.markers, file⟩ moduleName source).getD []
  { generator with registry := generator.registry.insertAll classes }

/-- Adds the classes of the source file at a path, which must be one that can be read. -/
def addSourceFileIn (generator : Generator) (sources : Sources) (path : SystemText)
    (moduleName : String) : Except Failure Generator :=
  match sources.read? path with
  | some source => .ok (generator.addSource moduleName source (some (sources.label path)))
  | none => .error (.unreadable (sources.label path))

/-- Adds source files one after the other, until one cannot be read. -/
def addSourceFilesIn (generator : Generator) (sources : Sources) (directory : SystemText)
    (crate : String) : List SystemText → Generator × Option Failure
  | [] => (generator, none)
  | path :: rest =>
    match generator.addSourceFileIn sources path (FilePath.modulePath directory path crate) with
    | .ok next => next.addSourceFilesIn sources directory crate rest
    | .error failure => (generator, some failure)

/-- Adds the classes of all source files of a directory.  If a file cannot be read, the classes of
those before it stay. -/
def addSourceDirectoryIn (generator : Generator) (sources : Sources) (directory : SystemText)
    (crate : String) : Generator × Option Failure :=
  generator.addSourceFilesIn sources directory crate (sources.files directory)

def addSourceFile (generator : Generator) (fs : FileSystem) (path moduleName : String) :
    Except Failure Generator :=
  generator.addSourceFileIn fs.sources path moduleName

def addSourceDirectory (generator : Generator) (fs : FileSystem) (directory crate : String) :
    Generator × Option Failure :=
  generator.addSourceDirectoryIn fs.sources directory crate

/-! ## Generating -/

def layout (generator : Generator) : Layout :=
  { unit := generator.unit
    enumStyle := generator.enumStyle
    recordStyle := generator.recordStyle }

/-- The marked classes of the discovery directories. -/
def discovered {α : Type} (generator : Generator) (locations : Locations α) :
    Except Failure (List String) :=
  Discovery.discoverIn locations generator.registry generator.directories

def knows (generator : Generator) (name : String) : Bool :=
  (Table.find? generator.registry name).isSome

/-- The classes to start from, each once: those asked for, those always generated, and those
discovered. -/
def seedsIn {α : Type} (generator : Generator) (locations : Locations α) (names : List String) :
    Except Failure (List String) :=
  let explicit := names ++ generator.requested
  match explicit.find? fun name => !generator.knows name with
  | some name => .error (.unknownClass name)
  | none => do
    let seeds := (explicit ++ (← generator.discovered locations)).eraseDups
    if seeds.isEmpty then .error .nothingToGenerate else .ok seeds

def seeds (generator : Generator) (fs : FileSystem) (names : List String) :
    Except Failure (List String) :=
  generator.seedsIn fs.locations names

/-- The tree of declarations of the classes asked for and of all they refer to. -/
def declarations (generator : Generator) (fs : FileSystem) (names : List String) :
    Except Failure NamespaceTree := do
  let world : World := ⟨generator.registry, generator.replacements⟩
  world.declarations (← generator.seeds fs names)

def generate (generator : Generator) (fs : FileSystem) (names : List String) :
    Except Failure String :=
  (generator.declarations fs names).map fun tree => tree.render generator.layout

/-- Writes the declarations to a file.  Nothing is written if they cannot be generated. -/
def writeFile (generator : Generator) (fs : FileSystem) (path : String) (names : List String) :
    Except Failure FileSystem := do
  let text ← generator.generate fs names
  match fs.write? path text with
  | some fs => .ok fs
  | none => .error (.unwritable (some path))

/-- Writes the declarations to a stream that takes `room` bytes, or any number of them: what the
stream received, and whether that went well. -/
def writeStream (generator : Generator) (fs : FileSystem) (names : List String)
    (room : Option Nat) : List UInt8 × Except Failure Unit :=
  match generator.generate fs names with
  | .error failure => ([], .error failure)
  | .ok text =>
    let bytes := text.toUTF8.toList
    match room with
    | none => (bytes, .ok ())
    | some room =>
      if bytes.length ≤ room then (bytes, .ok ()) else (bytes.take room, .error (.unwritable none))

end Generator

end Ambient
