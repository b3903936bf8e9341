import Ambient.Descriptor
import Ambient.Extraction.Module

/-!
# The descriptors of field types

Numbers, texts, options, sequences, maps and pointers of the standard library and of its
best-known companions are known by their structure; any other path names a class.  Tuples,
function pointers, trait objects and the like have no descriptor.
-/

namespace Ambient.Extraction

open Source Text

/-- The crates whose types are known by their structure. -/
def knownCrates : List String :=
  ["std", "core", "alloc", "hashbrown", "indexmap", "smallvec", "tinyvec", "arrayvec", "thin_vec",
   "smol_str"]

/-- The structure of a type, which gives its descriptor. -/
inductive Structure
  /-- A descriptor without arguments. -/
  | fixed (descriptor : String)
  /-- The first argument, or `null`. -/
  | optional
  /-- A list of the first argument. -/
  | sequence
  /-- A map from texts to the second argument; keys are written as texts whatever they are. -/
  | mapping
  /-- The first argument itself. -/
  | pointer
  deriving DecidableEq, Repr

def integerTypes : List String :=
  ["i8", "i16", "i32", "i64", "i128", "isize", "u8", "u16", "u32", "u64", "u128", "usize"]

def textTypes : List String :=
  ["String", "str", "char", "PathBuf", "Path", "OsString", "SmolStr"]

def sequenceTypes : List String :=
  ["Vec", "VecDeque", "LinkedList", "BinaryHeap", "HashSet", "BTreeSet", "IndexSet", "SmallVec",
   "TinyVec", "ArrayVec", "ThinVec"]

/-- The structure of a type of a known crate by its name. -/
def structure? (name : String) : Option Structure :=
  if name ∈ integerTypes then some (.fixed "int")
  else if name ∈ ["f32", "f64"] then some (.fixed "float")
  else if name == "bool" then some (.fixed "bool")
  else if name ∈ textTypes then some (.fixed "string")
  else if name == "Option" then some .optional
  else if name ∈ sequenceTypes then some .sequence
  else if name ∈ ["HashMap", "BTreeMap", "IndexMap"] then some .mapping
  else if name ∈ ["Box", "Rc", "Arc", "Cow"] then some .pointer
  else none

/-- Lets `null` into a descriptor that does not admit it. -/
def nullable (descriptor : String) : String :=
  let parts := parts '|' descriptor.toList
  if parts.any Descriptor.admitsNull then descriptor
  else if 1 < parts.length then descriptor ++ "|null"
  else "?" ++ descriptor

/-- The descriptor of a type with a known structure, from those of its type arguments. -/
def Structure.apply (structural : Structure) (arguments : List (Option String)) : Option String :=
  match structural with
  | fixed descriptor => some descriptor
  | optional => (arguments[0]?.join).map nullable
  | sequence => (arguments[0]?.join).map fun element => "list<" ++ element ++ ">"
  | mapping => (arguments[1]?.join).map fun value => "array<string, " ++ value ++ ">"
  | pointer => arguments[0]?.join

/-- The descriptor of a path, from the descriptors of its type arguments. -/
def pathDescriptor (module : Module) (segments : List String) (last : String)
    (arguments : List (Option String)) : Option String :=
  if segments == ["Self"] then some "self"
  else
    let isImported := (segments.head?.bind module.imports.find?).isSome
    let path := module.resolve segments
    let isKnown :=
      (segments.length == 1 && !isImported) || path.head?.any (· ∈ knownCrates)
    if path == ["serde_json", "Value"] then some "mixed"
    else
      match if isKnown then structure? last else none with
      | some structural => structural.apply arguments
      | none => some (QualifiedName.ofSegments path)

mutual

def typeDescriptor (module : Module) : TypeExpr → Option String
  | .path qualifiers last arguments =>
    pathDescriptor module ((qualifiers ++ [last]).map Ident.spelling) last.spelling
      (argumentDescriptors module arguments)
  | .reference target => typeDescriptor module target
  | .slice element => (typeDescriptor module element).map fun d => "list<" ++ d ++ ">"
  | .array element => (typeDescriptor module element).map fun d => "list<" ++ d ++ ">"
  | .parenthesized inner => typeDescriptor module inner
  | .unit => some "null"
  | .bound => none
  | .other => none

/-- The descriptors of type arguments.  An array among them stands for its element, as it gives the
capacity of a sequence. -/
def argumentDescriptors (module : Module) : List TypeExpr → List (Option String)
  | [] => []
  | .array element :: rest => typeDescriptor module element :: argumentDescriptors module rest
  | type :: rest => typeDescriptor module type :: argumentDescriptors module rest

end

end Ambient.Extraction
