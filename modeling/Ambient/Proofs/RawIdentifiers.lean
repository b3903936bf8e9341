import Ambient.Proofs.FieldType
import Ambient.Proofs.Imports
import Ambient.Proofs.ModuleTree

/-!
# Raw identifiers

What a source declares is named without the mark of a raw spelling, so it makes no difference which
of the declared names are spelled raw (`classesOfItems_unraw`).  Imports and paths keep the mark.
So a path that is left with it, after imports have been followed, names no class of the source at
all (`raw_identifiers`).
-/

namespace Ambient.Source

/-! ## Declarations without raw spellings -/

def Ident.unraw (ident : Ident) : Ident :=
  { ident with raw := false }

def Field.unraw (field : Field) : Field :=
  { field with ident := field.ident.unraw }

def Fields.unraw : Fields → Fields
  | .named fields => .named (fields.map Field.unraw)
  | .unnamed => .unnamed
  | .unit => .unit

def Variant.unraw (variant : Variant) : Variant :=
  { variant with ident := variant.ident.unraw }

mutual

/-- An item with every declared name in plain spelling. -/
def Item.unraw : Item → Item
  | .use tree => .use tree
  | .struct item => .struct { item with ident := item.ident.unraw, fields := item.fields.unraw }
  | .enum item =>
    .enum { item with ident := item.ident.unraw, variants := item.variants.map Variant.unraw }
  | .module ident none => .module ident.unraw none
  | .module ident (some items) => .module ident.unraw (some (unrawAll items))
  | .other => .other

def unrawAll : List Item → List Item
  | [] => []
  | item :: rest => item.unraw :: unrawAll rest

end

end Ambient.Source

namespace Ambient.Extraction

open Source

theorem propertyOf?_unraw (module : Module) (rule : Renaming) (field : Field) :
    propertyOf? module rule field.unraw = propertyOf? module rule field :=
  rfl

theorem recordOf?_unraw (origin : Origin) (module : Module) (item : StructItem) :
    recordOf? origin module { item with ident := item.ident.unraw, fields := item.fields.unraw } =
      recordOf? origin module item := by
  obtain ⟨attributes, ident, fields⟩ := item
  cases fields with
  | named fields =>
    have hProperties (rule : Renaming) : (fields.map Field.unraw).filterMap
        (propertyOf? module rule) = fields.filterMap (propertyOf? module rule) := by
      rw [List.filterMap_map]
      exact List.filterMap_congr fun field _ => propertyOf?_unraw module rule field
    simp only [recordOf?, Fields.unraw, Option.map_some, hProperties]
    rfl
  | unnamed => rfl
  | unit => rfl

theorem discriminants_unraw (next : Int) (variants : List Variant) :
    discriminants next (variants.map Variant.unraw) =
      (discriminants next variants).map fun entry => (entry.1.unraw, entry.2) := by
  induction variants generalizing next with
  | nil => rfl
  | cons variant rest ih =>
    rw [List.map_cons, discriminants, discriminants, List.map_cons]
    dsimp only
    rw [ih]
    rfl

theorem enumerationOf?_unraw (origin : Origin) (module : Module) (item : EnumItem) :
    enumerationOf? origin module
        { item with ident := item.ident.unraw, variants := item.variants.map Variant.unraw } =
      enumerationOf? origin module item := by
  have hAny (test : Variant → Bool) (hTest : ∀ variant, test variant.unraw = test variant) :
      (item.variants.map Variant.unraw).any test = item.variants.any test := by
    rw [List.any_map]
    exact congrArg _ (funext hTest)
  unfold enumerationOf?
  dsimp only
  rw [hAny Variant.hasFields fun _ => rfl, hAny (·.discriminant.isSome) fun _ => rfl,
    discriminants_unraw]
  simp only [List.filterMap_map]
  rfl

theorem useTrees_unraw (items : List Item) :
    Module.useTrees (unrawAll items) = Module.useTrees items := by
  induction items with
  | nil => rfl
  | cons item rest ih =>
    unfold Module.useTrees at ih ⊢
    rw [unrawAll]
    match item with
    | .use tree => simp [Item.unraw, ih]
    | .struct _ => simp [Item.unraw, ih]
    | .enum _ => simp [Item.unraw, ih]
    | .module _ none => simp [Item.unraw, ih]
    | .module _ (some _) => simp [Item.unraw, ih]
    | .other => simp [Item.unraw, ih]

theorem ofItems_unraw (path : List String) (items : List Item) :
    Module.ofItems path (unrawAll items) = Module.ofItems path items := by
  rw [Module.ofItems, useTrees_unraw, Module.ofItems]

mutual

theorem classesOfItem_unraw (origin : Origin) (module : Module) (item : Item) :
    classesOfItem origin module item.unraw = classesOfItem origin module item := by
  match item with
  | .use _ => rfl
  | .struct item =>
    rw [Item.unraw, classesOfItem, classesOfItem, recordOf?_unraw]
  | .enum item =>
    rw [Item.unraw, classesOfItem, classesOfItem, enumerationOf?_unraw]
  | .module _ none => rfl
  | .module ident (some items) =>
    rw [Item.unraw, classesOfItem, classesOfItem, ofItems_unraw, classesOfItems_unraw]
    rfl
  | .other => rfl

/-- It makes no difference which of the declared names are spelled raw. -/
theorem classesOfItems_unraw (origin : Origin) (module : Module) (items : List Item) :
    classesOfItems origin module (unrawAll items) = classesOfItems origin module items := by
  match items with
  | [] => rfl
  | item :: rest =>
    rw [unrawAll, classesOfItems, classesOfItems, classesOfItem_unraw, classesOfItems_unraw]

end

/-! ## Marks in names -/

/-- Whether a text has the mark of a raw spelling. -/
def IsMarked (text : String) : Prop :=
  '#' ∈ text.toList

instance (text : String) : Decidable (IsMarked text) :=
  inferInstanceAs (Decidable (_ ∈ _))

/-- The segments of a name are made of its characters. -/
theorem not_isMarked_segments {name : String} (h : ¬IsMarked name) :
    ∀ segment ∈ QualifiedName.segments name, ¬IsMarked segment := by
  intro segment hSegment hMark
  obtain ⟨part, hPart, rfl⟩ := List.mem_map.mp hSegment
  rw [IsMarked, String.toList_ofList] at hMark
  exact h (QualifiedName.subset_of_mem_parts _ part (List.mem_of_mem_filter hPart) hMark)

/-- A name is marked just if one of its segments is. -/
theorem isMarked_ofSegments {parts : List String} :
    IsMarked (QualifiedName.ofSegments parts) ↔ ∃ part ∈ parts, IsMarked part := by
  constructor
  · intro h
    rcases QualifiedName.mem_intercalate h with hColon | ⟨part, hPart, hMark⟩
    · exact absurd hColon (by decide)
    · exact ⟨part, List.mem_of_mem_filter hPart, hMark⟩
  · rintro ⟨part, hPart, hMark⟩
    have hSome : part.isEmpty = false := by
      rw [Bool.eq_false_iff]
      intro hEmpty
      rw [IsMarked, String.isEmpty_iff.mp hEmpty] at hMark
      cases hMark
    exact QualifiedName.mem_intercalate_of_mem
      (List.mem_filter.mpr ⟨hPart, by rw [hSome]; rfl⟩) hMark

/-- Whether a path, written in a module, is left with a mark when imports have been followed. -/
def KeepsMark (module : Module) (written : List String) : Prop :=
  ∃ word ∈ module.resolve written, IsMarked word

/-- What it means that no path with a mark stands for a class.  A type that is known by its
structure is described by its arguments, which may well name the class. -/
structure MarksMiss (module : Module) (name : String) : Prop where
  asType : ∀ qualifiers last arguments, KeepsMark module (spellings qualifiers last) →
    ¬(module.Knows (spellings qualifiers last) ∧ (structure? last.spelling).isSome) →
    typeDescriptor module (.path qualifiers last arguments) ≠ some name
  asParent : ∀ attributes text idents, textOf? (entries attributes "ts") "extends" = some text →
    parsePath? text = some idents → KeepsMark module (idents.map Ident.spelling) →
    parentOf? module attributes ≠ some name

section Marks

variable {origin : Origin} {root path : List String} {items content : List Item}

/-- The name of an extracted class has no mark. -/
theorem not_isMarked_name {c : Class} (hItems : WellNamed items)
    (hRoot : ∀ segment ∈ root, ¬IsMarked segment)
    (hc : c ∈ classesOfItems origin (Module.ofItems root items) items) : ¬IsMarked c.name := by
  obtain ⟨below, -, hBelow, hName, -⟩ := placed_of_mem_classesOfItems hItems hc
  rw [hName, isMarked_ofSegments]
  rintro ⟨part, hPart, hMark⟩
  rcases List.mem_append.mp hPart with hPart | hPart
  · exact hRoot part hPart hMark
  · obtain ⟨ident, hIdent, rfl⟩ := List.mem_map.mp hPart
    exact (hBelow ident hIdent).hash_not_mem hMark

/-- `Self` has no mark, nor has the module it is resolved in. -/
theorem not_keepsMark_self (h : Contains root items path content) (hItems : WellNamed items)
    (hRoot : ∀ segment ∈ root, ¬IsMarked segment) :
    ¬KeepsMark (Module.ofItems path content) ["Self"] := by
  have hFree := find?_imports_eq_none path fun target (hImport : Imports content "Self" target) =>
    hImport.ne_self (h.wellNamed hItems) rfl
  obtain ⟨below, hPath, hBelow⟩ := h.declarable hItems
  rw [KeepsMark, resolve_word hFree (by decide)]
  rintro ⟨word, hWord, hMark⟩
  rcases List.mem_append.mp hWord with hModule | hSelf
  · rw [Module.ofItems, hPath] at hModule
    rcases List.mem_append.mp hModule with hOuter | hInner
    · exact hRoot word hOuter hMark
    · obtain ⟨ident, hIdent, rfl⟩ := List.mem_map.mp hInner
      exact (hBelow ident hIdent).hash_not_mem hMark
  · rw [List.mem_singleton.mp hSelf] at hMark
    exact absurd hMark (by decide)

theorem marksMiss {name : String} (h : Contains root items path content)
    (hItems : WellNamed items) (hRoot : ∀ segment ∈ root, ¬IsMarked segment)
    (hName : ¬IsMarked name) : MarksMiss (Module.ofItems path content) name where
  asType qualifiers last arguments hMark hStructure hType := by
    have hSelf : spellings qualifiers last ≠ ["Self"] := fun hSelf =>
      not_keepsMark_self h hItems hRoot (hSelf ▸ hMark)
    have hValue : (Module.ofItems path content).resolve (spellings qualifiers last) ≠
        ["serde_json", "Value"] := by
      intro hValue
      rw [KeepsMark, hValue] at hMark
      exact absurd hMark (by decide)
    rw [typeDescriptor_named hStructure hSelf hValue] at hType
    exact hName (Option.some.inj hType ▸ isMarked_ofSegments.mpr hMark)
  asParent attributes text idents hText hIdents hMark hParent := by
    rw [parentOf?, hText, Option.bind_some, hIdents] at hParent
    exact hName (Option.some.inj hParent ▸ isMarked_ofSegments.mpr hMark)

end Marks

/-- Raw spellings make no difference where names are declared, and a path that keeps one names no
class of the source. -/
theorem raw_identifiers (origin : Origin) {moduleName source : String} {items : List Item}
    (hSource : parseFile? source = some items) (hModule : ¬IsMarked moduleName) :
    (∀ source' items', parseFile? source' = some items' → unrawAll items' = unrawAll items →
      classesOfSource? origin moduleName source' = classesOfSource? origin moduleName source) ∧
    ∃ classes, classesOfSource? origin moduleName source = some classes ∧
      ∀ c ∈ classes, ∀ path content,
        Contains (QualifiedName.segments moduleName) items path content →
          MarksMiss (Module.ofItems path content) c.name := by
  have hItems := parseFile?_wellNamed hSource
  have hRoot := not_isMarked_segments hModule
  constructor
  · intro source' items' hSource' hUnraw
    rw [classesOfSource?, classesOfSource?, hSource, hSource', Option.map_some, Option.map_some,
      ← classesOfItems_unraw, ← ofItems_unraw, hUnraw, classesOfItems_unraw, ofItems_unraw]
  · refine ⟨_, by rw [classesOfSource?, hSource, Option.map_some], ?_⟩
    intro c hc path content hContains
    exact marksMiss hContains hItems hRoot (not_isMarked_name hItems hRoot hc)

/-! ## A class and a path to it -/

def rawly (name : String) : Ident := { plain name with raw := true }

/-- A class, and a record with a property of it that is written as a path. -/
def linkedItems (named property last : Ident) : List Item :=
  [.struct ⟨[], named, .unit⟩,
   .struct ⟨[], plain "S", .named [⟨[], true, property, .path [plain "crate"] last []⟩]⟩]

def linkedTokens (named property last : Ident) : List Token :=
  [.ident (plain "struct"), .ident named, .punct ';' false, .ident (plain "struct"),
   .ident (plain "S"), .group .brace [.ident (plain "pub"), .ident property, .punct ':' false,
     .ident (plain "crate"), .punct ':' true, .punct ':' false, .ident last]]

set_option maxRecDepth 10000 in
theorem parse_plain : parseFile? "struct T; struct S \x7b pub a: crate::T \x7d" =
    some (linkedItems (plain "T") (plain "a") (plain "T")) := by
  have hTokens : tokenizeFile "struct T; struct S \x7b pub a: crate::T \x7d".toList =
      some (linkedTokens (plain "T") (plain "a") (plain "T")) := rfl
  rw [parseFile?, hTokens]
  rfl

set_option maxRecDepth 10000 in
theorem parse_rawDeclarations :
    parseFile? "struct r#T; struct S \x7b pub r#a: crate::T \x7d" =
      some (linkedItems (rawly "T") (rawly "a") (plain "T")) := by
  have hTokens : tokenizeFile "struct r#T; struct S \x7b pub r#a: crate::T \x7d".toList =
      some (linkedTokens (rawly "T") (rawly "a") (plain "T")) := rfl
  rw [parseFile?, hTokens]
  rfl

set_option maxRecDepth 10000 in
theorem parse_rawPath : parseFile? "struct T; struct S \x7b pub a: crate::r#T \x7d" =
    some (linkedItems (plain "T") (plain "a") (rawly "T")) := by
  have hTokens : tokenizeFile "struct T; struct S \x7b pub a: crate::r#T \x7d".toList =
      some (linkedTokens (plain "T") (plain "a") (rawly "T")) := rfl
  rw [parseFile?, hTokens]
  rfl

def linkedClasses (declared : String) : List Class :=
  [{ name := "app::T", shape := .record [], line := some 1 },
   { name := "app::S"
     shape := .record [{ name := "a", declared := some declared, line := some 1 }]
     line := some 1 }]

theorem classes_plain :
    classesOfSource? ⟨[], none⟩ "app" "struct T; struct S \x7b pub a: crate::T \x7d" =
      some (linkedClasses "app::T") := by
  rw [classesOfSource?, parse_plain]
  decide

/-- Raw declarations change no class, and a raw path misses the class. -/
theorem linked_raw_identifiers :
    ¬IsMarked "app" ∧
      classesOfSource? ⟨[], none⟩ "app" "struct r#T; struct S \x7b pub r#a: crate::T \x7d" =
        classesOfSource? ⟨[], none⟩ "app" "struct T; struct S \x7b pub a: crate::T \x7d" ∧
      typeDescriptor
          (Module.ofItems ["app"] (linkedItems (plain "T") (plain "a") (plain "T")))
          (.path [plain "crate"] (rawly "T") []) ≠ some "app::T" := by
  have hModule : ¬IsMarked "app" := by decide
  have hRoot : QualifiedName.segments "app" = ["app"] := by decide
  obtain ⟨hDeclarations, classes, hClasses, hPaths⟩ :=
    raw_identifiers ⟨[], none⟩ parse_plain hModule
  obtain rfl : linkedClasses "app::T" = classes :=
    Option.some.inj (classes_plain.symm.trans hClasses)
  rw [hRoot] at hPaths
  have hMisses := hPaths _ (.head _) _ _ .root
  -- the raw path keeps its mark when it is resolved
  have hResolve : (Module.ofItems ["app"] (linkedItems (plain "T") (plain "a") (plain "T"))).resolve
      (spellings [plain "crate"] (rawly "T")) = ["app", "r#T"] := by
    decide
  refine ⟨hModule, hDeclarations _ _ parse_rawDeclarations rfl, hMisses.asType _ _ _ ?_ ?_⟩
  · rw [KeepsMark, hResolve]
    decide
  · rintro ⟨-, hStructure⟩
    exact absurd hStructure (by decide)

/-- A path to a class names another class when its last word is spelled raw. -/
theorem rawPath_changes_class :
    classesOfSource? ⟨[], none⟩ "app" "struct T; struct S \x7b pub a: crate::T \x7d" =
        some (linkedClasses "app::T") ∧
      classesOfSource? ⟨[], none⟩ "app" "struct T; struct S \x7b pub a: crate::r#T \x7d" =
        some (linkedClasses "app::r#T") := by
  refine ⟨classes_plain, ?_⟩
  rw [classesOfSource?, parse_rawPath]
  decide

end Ambient.Extraction
