import Ambient.Extraction.FieldType
import Mathlib.Data.String.Basic

/-!
# The descriptors of types that hold another

An option, a sequence, a map or a pointer gets its descriptor from that of the type it holds, and
from nothing else of it (`HeldAs`).  There is one exception.  An array among the arguments counts as
its element, which is right where it gives a sequence its capacity, as in `SmallVec<[u8; 4]>`, but
happens in every type: `Option<[u8; 4]>` is described as an optional number and not as an optional
list.  `holders_compositional` says both.
-/

namespace Ambient.Extraction

open Source

/-! ## Paths to structural types -/

theorem structure?_sequence : ∀ name ∈ ["Vec", "VecDeque", "LinkedList", "BinaryHeap", "HashSet",
    "BTreeSet", "IndexSet"], structure? name = some .sequence := by
  decide

theorem structure?_mapping : ∀ name ∈ ["HashMap", "BTreeMap", "IndexMap"],
    structure? name = some .mapping := by
  decide

theorem structure?_pointer : ∀ name ∈ ["Box", "Rc", "Arc", "Cow"],
    structure? name = some .pointer := by
  decide

/-- The segments of a type path, as they are spelled. -/
def spellings (qualifiers : List Ident) (last : Ident) : List String :=
  (qualifiers ++ [last]).map Ident.spelling

/-- Whether a path may stand for a type that is known by its structure: it is a single word that the
module does not import, or it leads into one of the known crates. -/
def Module.Knows (module : Module) (segments : List String) : Prop :=
  (segments.length = 1 ∧ segments.head?.bind module.imports.find? = none) ∨
    ∃ root ∈ knownCrates, (module.resolve segments).head? = some root

section StructuralPath

variable {module : Module} {qualifiers : List Ident} {last : Ident} {structural : Structure}

/-- A single word that is not imported belongs to the module it is in. -/
theorem resolve_word {name : String} (hFree : module.imports.find? name = none)
    (hName : name ∉ ["crate", "self", "super"]) :
    module.resolve [name] = module.path ++ [name] := by
  rw [Module.resolve, hFree]
  simp [hName]

/-- A structural type is never that of any value. -/
theorem resolve_ne_value (hKnown : module.Knows (spellings qualifiers last))
    (hStructure : structure? last.spelling = some structural) :
    module.resolve (spellings qualifiers last) ≠ ["serde_json", "Value"] := by
  intro hValue
  rcases hKnown with ⟨hSingle, hFree⟩ | ⟨root, hRoot, hHead⟩
  · -- the only word is the last segment of the whole path as well
    obtain rfl : qualifiers = [] := by simpa [spellings] using hSingle
    have hName : last.spelling ∉ ["crate", "self", "super"] := by
      intro hMem
      simp only [List.mem_cons, List.not_mem_nil, or_false] at hMem
      rcases hMem with h | h | h <;> rw [h] at hStructure <;> cases hStructure
    change module.resolve [last.spelling] = _ at hValue
    rw [resolve_word hFree hName] at hValue
    have hLast : last.spelling = "Value" := by
      simpa using congrArg List.getLast? hValue
    rw [hLast] at hStructure
    cases hStructure
  · rw [hValue] at hHead
    obtain rfl : "serde_json" = root := Option.some.inj hHead
    revert hRoot
    decide

theorem typeDescriptor_path (module : Module) (qualifiers : List Ident) (last : Ident)
    (arguments : List TypeExpr) : typeDescriptor module (.path qualifiers last arguments) =
      pathDescriptor module (spellings qualifiers last) last.spelling
        (argumentDescriptors module arguments) := by
  rw [typeDescriptor]
  rfl

/-- What a path to a structural type is described as. -/
theorem pathDescriptor_structural (hKnown : module.Knows (spellings qualifiers last))
    (hStructure : structure? last.spelling = some structural) (arguments : List (Option String)) :
    pathDescriptor module (spellings qualifiers last) last.spelling arguments =
      structural.apply arguments := by
  have hSelf : (spellings qualifiers last == ["Self"]) = false := by
    rw [beq_eq_false_iff_ne]
    intro hSelf
    have hLast : last.spelling = "Self" := by
      simpa [spellings] using congrArg List.getLast? hSelf
    rw [hLast] at hStructure
    cases hStructure
  have hValue := resolve_ne_value hKnown hStructure
  unfold pathDescriptor
  simp only [hSelf, beq_eq_false_iff_ne.mpr hValue, Bool.false_eq_true, if_false]
  rw [if_pos, hStructure]
  rcases hKnown with ⟨hSingle, hFree⟩ | ⟨root, hRoot, hHead⟩
  · simp [hSingle, hFree]
  · simp [hHead, hRoot]

theorem typeDescriptor_structural (hKnown : module.Knows (spellings qualifiers last))
    (hStructure : structure? last.spelling = some structural) (arguments : List TypeExpr) :
    typeDescriptor module (.path qualifiers last arguments) =
      structural.apply (argumentDescriptors module arguments) := by
  rw [typeDescriptor_path]
  exact pathDescriptor_structural hKnown hStructure _

/-- Every other path is described by the name that it resolves to. -/
theorem typeDescriptor_named (hOther : ¬(module.Knows (spellings qualifiers last) ∧
      (structure? last.spelling).isSome))
    (hSelf : spellings qualifiers last ≠ ["Self"])
    (hValue : module.resolve (spellings qualifiers last) ≠ ["serde_json", "Value"])
    (arguments : List TypeExpr) :
    typeDescriptor module (.path qualifiers last arguments) =
      some (QualifiedName.ofSegments (module.resolve (spellings qualifiers last))) := by
  rw [typeDescriptor_path]
  unfold pathDescriptor
  simp only [beq_eq_false_iff_ne.mpr hSelf, beq_eq_false_iff_ne.mpr hValue, Bool.false_eq_true,
    if_false]
  -- what is left to rule out is the structure, which `hOther` forbids for this path
  split
  · rename_i hStructure
    split at hStructure
    · rename_i hKnown
      refine absurd ⟨?_, by rw [hStructure]; rfl⟩ hOther
      rw [Bool.or_eq_true] at hKnown
      rcases hKnown with hSingle | hRoot
      · exact .inl (by simpa using hSingle)
      · obtain ⟨root, hHead, hRoot⟩ := (Option.any_eq_true _ _).mp hRoot
        exact .inr ⟨root, of_decide_eq_true hRoot, hHead⟩
    · cases hStructure
  · rfl

end StructuralPath

/-! ## The type that is held -/

/-- Whether a type is written as an array. -/
def isArray : TypeExpr → Bool
  | .array _ => true
  | _ => false

theorem argumentDescriptors_cons {module : Module} {type : TypeExpr} (hShape : isArray type = false)
    (more : List TypeExpr) : argumentDescriptors module (type :: more) =
      typeDescriptor module type :: argumentDescriptors module more := by
  cases type with
  | array element => cases hShape
  | _ => rfl

theorem argumentDescriptors_array (module : Module) (element : TypeExpr) (more : List TypeExpr) :
    argumentDescriptors module (.array element :: more) =
      typeDescriptor module element :: argumentDescriptors module more := by
  rw [argumentDescriptors]

/-- The types that hold `type` have the descriptors that a held type with the descriptor `inner`
gives them. -/
structure HeldAs (module : Module) (type : TypeExpr) (inner : String) : Prop where
  optional : ∀ qualifiers last more, module.Knows (spellings qualifiers last) →
    last.spelling = "Option" →
    typeDescriptor module (.path qualifiers last (type :: more)) = some (nullable inner)
  sequence : ∀ qualifiers last more, module.Knows (spellings qualifiers last) →
    last.spelling ∈ ["Vec", "VecDeque", "LinkedList", "BinaryHeap", "HashSet", "BTreeSet",
      "IndexSet"] →
    typeDescriptor module (.path qualifiers last (type :: more)) = some ("list<" ++ inner ++ ">")
  mapping : ∀ qualifiers last key more, module.Knows (spellings qualifiers last) →
    last.spelling ∈ ["HashMap", "BTreeMap", "IndexMap"] →
    typeDescriptor module (.path qualifiers last (key :: type :: more)) =
      some ("array<string, " ++ inner ++ ">")
  pointer : ∀ qualifiers last more, module.Knows (spellings qualifiers last) →
    last.spelling ∈ ["Box", "Rc", "Arc", "Cow"] →
    typeDescriptor module (.path qualifiers last (type :: more)) = some inner

/-- A type is held as what it counts as among the arguments of a path. -/
theorem heldAs {module : Module} {type : TypeExpr} {inner : String}
    (hArgument : ∀ more, argumentDescriptors module (type :: more) =
      some inner :: argumentDescriptors module more) : HeldAs module type inner where
  optional qualifiers last more hKnown hName := by
    have hStructure : structure? last.spelling = some .optional := by rw [hName]; rfl
    rw [typeDescriptor_structural hKnown hStructure, hArgument]
    rfl
  sequence qualifiers last more hKnown hName := by
    have hStructure := structure?_sequence _ hName
    rw [typeDescriptor_structural hKnown hStructure, hArgument]
    rfl
  mapping qualifiers last key more hKnown hName := by
    have hStructure := structure?_mapping _ hName
    -- the key has some descriptor or none; only its place counts
    have hArguments : ∃ first, argumentDescriptors module (key :: type :: more) =
        first :: some inner :: argumentDescriptors module more := by
      cases hShape : isArray key with
      | false => exact ⟨_, by rw [argumentDescriptors_cons hShape, hArgument]⟩
      | true =>
        cases key with
        | array element => exact ⟨_, by rw [argumentDescriptors_array, hArgument]⟩
        | _ => cases hShape
    obtain ⟨first, hArguments⟩ := hArguments
    rw [typeDescriptor_structural hKnown hStructure, hArguments]
    rfl
  pointer qualifiers last more hKnown hName := by
    have hStructure := structure?_pointer _ hName
    rw [typeDescriptor_structural hKnown hStructure, hArgument]
    rfl

theorem length_nullable (descriptor : String) :
    descriptor.length ≤ (nullable descriptor).length ∧
      (nullable descriptor).length ≤ descriptor.length + 5 := by
  have hBar : "|null".length = 5 := rfl
  have hMark : "?".length = 1 := rfl
  unfold nullable
  dsimp only
  split
  · omega
  · split <;> rw [String.length_append] <;> omega

/-- A type of any shape but an array gives the types that hold it their descriptors through its own.
An array counts as its element in all of them, so none gets the descriptor that the array's own
would give it. -/
theorem holders_compositional (module : Module) (type : TypeExpr) (descriptor : String)
    (hType : typeDescriptor module type = some descriptor) :
    (isArray type = false → HeldAs module type descriptor) ∧
    ∀ element, type = .array element → ∃ inner, typeDescriptor module element = some inner ∧
      descriptor = "list<" ++ inner ++ ">" ∧ HeldAs module type inner ∧
      nullable inner ≠ nullable descriptor ∧
      "list<" ++ inner ++ ">" ≠ "list<" ++ descriptor ++ ">" ∧
      "array<string, " ++ inner ++ ">" ≠ "array<string, " ++ descriptor ++ ">" ∧
      inner ≠ descriptor := by
  refine ⟨fun hShape => heldAs fun more => ?_, ?_⟩
  · rw [argumentDescriptors_cons hShape, hType]
  · rintro element rfl
    rw [typeDescriptor, Option.map_eq_some_iff] at hType
    obtain ⟨inner, hInner, rfl⟩ := hType
    have hHeld : HeldAs module (.array element) inner := heldAs fun more => by
      rw [argumentDescriptors_array, hInner]
    -- the array's own descriptor is longer by more than what an option adds
    have hOuter : ("list<" ++ inner ++ ">").length = inner.length + 6 := by
      have hOpen : "list<".length = 5 := rfl
      have hClose : ">".length = 1 := rfl
      rw [String.length_append, String.length_append]
      omega
    have hNullable := length_nullable inner
    have hNullable' := length_nullable ("list<" ++ inner ++ ">")
    refine ⟨inner, hInner, rfl, hHeld, fun h => ?_, fun h => ?_, fun h => ?_, fun h => ?_⟩ <;>
      have hLength := congrArg String.length h <;>
      simp only [String.length_append] at hLength hOuter hNullable' <;> omega

/-- The plain name of a type. -/
def plain (name : String) : Ident := { name := name, raw := false, line := 1 }

/-- A module that imports the map type of the standard library. -/
def importing : Module where
  path := ["app"]
  imports := [("HashMap", ["std", "collections", "HashMap"])]

/-- The type `&[u8]`. -/
def byteSlice : TypeExpr := .reference (.slice (.path [] (plain "u8") []))

/-- The type `[u8; 4]`. -/
def byteArray : TypeExpr := .array (.path [] (plain "u8") [])

theorem importing_knows_option : importing.Knows (spellings [] (plain "Option")) :=
  .inl ⟨rfl, rfl⟩

theorem importing_knows_vec : importing.Knows (spellings [] (plain "Vec")) :=
  .inl ⟨rfl, rfl⟩

theorem importing_knows_hashMap : importing.Knows (spellings [] (plain "HashMap")) :=
  .inr ⟨"std", by decide, rfl⟩

theorem importing_knows_box : importing.Knows (spellings [] (plain "Box")) :=
  .inl ⟨rfl, rfl⟩

theorem byteSlice_held :
    typeDescriptor importing byteSlice = some "list<int>" ∧
    typeDescriptor importing (.path [] (plain "Option") [byteSlice]) = some "?list<int>" ∧
    typeDescriptor importing (.path [] (plain "Vec") [byteSlice]) = some "list<list<int>>" ∧
    typeDescriptor importing (.path [] (plain "HashMap") [byteSlice, byteSlice]) =
      some "array<string, list<int>>" ∧
    typeDescriptor importing (.path [] (plain "Box") [byteSlice]) = some "list<int>" := by
  have hType : typeDescriptor importing byteSlice = some "list<int>" := by
    decide +kernel
  have hHeld := (holders_compositional importing byteSlice "list<int>" hType).1 rfl
  have hNullable : nullable "list<int>" = "?list<int>" := by decide
  refine ⟨hType, ?_, ?_, ?_, ?_⟩
  · rw [hHeld.optional [] (plain "Option") [] importing_knows_option rfl, hNullable]
  · exact hHeld.sequence [] (plain "Vec") [] importing_knows_vec (by decide)
  · exact hHeld.mapping [] (plain "HashMap") byteSlice [] importing_knows_hashMap (by decide)
  · exact hHeld.pointer [] (plain "Box") [] importing_knows_box (by decide)

/-- An array is described as a list, but an option, a vector, a map or a box of arrays as one of
numbers. -/
theorem byteArray_held_as_byte :
    typeDescriptor importing byteArray = some "list<int>" ∧
    nullable "list<int>" = "?list<int>" ∧
    typeDescriptor importing (.path [] (plain "Option") [byteArray]) = some "?int" ∧
    typeDescriptor importing (.path [] (plain "Vec") [byteArray]) = some "list<int>" ∧
    typeDescriptor importing (.path [] (plain "HashMap") [byteArray, byteArray]) =
      some "array<string, int>" ∧
    typeDescriptor importing (.path [] (plain "Box") [byteArray]) = some "int" ∧
    ¬HeldAs importing byteArray "list<int>" := by
  have hByte : typeDescriptor importing (.path [] (plain "u8") []) = some "int" := by
    decide +kernel
  have hHeld : HeldAs importing byteArray "int" := heldAs fun more => by
    rw [byteArray, argumentDescriptors_array, hByte]
  have hNullable : nullable "int" = "?int" := by decide
  have hBox := hHeld.pointer [] (plain "Box") [] importing_knows_box (by decide)
  refine ⟨by decide +kernel, by decide, ?_, ?_, ?_, hBox, fun hLaw => ?_⟩
  · rw [hHeld.optional [] (plain "Option") [] importing_knows_option rfl, hNullable]
  · exact hHeld.sequence [] (plain "Vec") [] importing_knows_vec (by decide)
  · exact hHeld.mapping [] (plain "HashMap") byteArray [] importing_knows_hashMap (by decide)
  · have hBox' := hLaw.pointer [] (plain "Box") [] importing_knows_box (by decide)
    have hSame : "int" = "list<int>" := Option.some.inj (hBox.symm.trans hBox')
    revert hSame
    decide

end Ambient.Extraction
