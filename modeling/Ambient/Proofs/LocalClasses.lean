import Ambient.Proofs.FieldType
import Ambient.Proofs.Imports
import Ambient.Proofs.ModuleTree

/-!
# Classes of the own module

A bare name that no import brings in belongs to the module it is written in.  So a field with such a
type is described by the class that the module declares under this name (`local_class_described`),
unless the name is one that is known before any module is looked at:

* a type that is known by its structure keeps it, even where the module has a class of that name;
* the JSON value keeps its place in the root of its crate.
-/

namespace Ambient.Extraction

open Source

/-! ## Bare names -/

section BareName

variable {path : List String} {content : List Item} {ident last : Ident}

/-- A declared name that is not imported stands for a place in the module. -/
theorem resolve_declared (hIdent : ident.IsDeclarable)
    (hFree : ∀ target, ¬Imports content ident.name target) :
    (Module.ofItems path content).resolve [ident.name] = path ++ [ident.name] := by
  refine resolve_word (find?_imports_eq_none path hFree) fun hStart => ?_
  have hStarts : ["crate", "self", "super"] ⊆ neverRaw := by decide
  exact hIdent.notPathWord (hStarts hStart)

theorem spellings_bare (hLast : last.spelling = ident.name) : spellings [] last = [ident.name] :=
  congrArg (fun word => [word]) hLast

/-- The structure of a bare name is looked up without regard to what the module declares. -/
theorem knows_bare (hFree : ∀ target, ¬Imports content ident.name target)
    (hLast : last.spelling = ident.name) :
    (Module.ofItems path content).Knows (spellings [] last) := by
  rw [spellings_bare hLast]
  exact .inl ⟨rfl, find?_imports_eq_none path hFree⟩

/-- A path that resolves to the JSON value is described as such. -/
theorem typeDescriptor_value {module : Module} {qualifiers : List Ident}
    (hSelf : spellings qualifiers last ≠ ["Self"])
    (hValue : module.resolve (spellings qualifiers last) = ["serde_json", "Value"])
    (arguments : List TypeExpr) :
    typeDescriptor module (.path qualifiers last arguments) = some "mixed" := by
  rw [typeDescriptor_path]
  unfold pathDescriptor
  simp only [beq_eq_false_iff_ne.mpr hSelf, hValue, Bool.false_eq_true, if_false, beq_self_eq_true,
    if_true]

end BareName

/-! ## Fields with a bare name -/

/-- Whether a record of a module has a public field of the type `word`, a bare name that is not
spelled raw, and `property` is what that field is extracted as. -/
def HasField (path : List String) (content : List Item) (word : String) (property : Property) :
    Prop :=
  ∃ item fields field last, .struct item ∈ content ∧ item.fields = .named fields ∧
    field ∈ fields ∧ field.type = .path [] last [] ∧ last.spelling = word ∧
    propertyOf? (Module.ofItems path content) (renamingOf (entries item.attributes "serde")) field =
      some property

theorem declared_of_propertyOf? {module : Module} {rule : Renaming} {field : Field}
    {property : Property} (h : propertyOf? module rule field = some property) :
    property.declared = typeDescriptor module field.type := by
  unfold propertyOf? at h
  dsimp only at h
  split at h
  · cases h
  · rw [← Option.some.inj h]

/-- The property of a field belongs to the record that is extracted for its struct. -/
theorem HasField.exists_record {origin : Origin} {root path : List String}
    {items content : List Item} {word : String} {property : Property}
    (h : HasField path content word property) (hContains : Contains root items path content) :
    ∃ record ∈ classesOfItems origin (Module.ofItems root items) items,
      ∃ properties, record.shape = .record properties ∧ property ∈ properties := by
  obtain ⟨item, fields, field, last, hItem, hFields, hField, -, -, hProperty⟩ := h
  have hRecord : ∃ record, classOf? origin (Module.ofItems path content) (.struct item) =
      some record ∧ record.shape = .record (fields.filterMap
        (propertyOf? (Module.ofItems path content)
          (renamingOf (entries item.attributes "serde")))) := by
    rw [classOf?, recordOf?, hFields]
    exact ⟨_, rfl, rfl⟩
  obtain ⟨record, hClass, hShape⟩ := hRecord
  refine ⟨record, ?_, _, hShape, List.mem_filterMap.mpr ⟨field, hField, hProperty⟩⟩
  exact mem_classesOfItems.mpr ⟨path, content, hContains, _, hItem, hClass⟩

/-- A field whose type is the bare name of a class of its module, not imported and not spelled raw,
is described by that class, whatever the class holds.  A name that is known by its structure is
described by it instead, with no arguments, and the name of the JSON value by what that stands
for. -/
theorem local_class_described (origin : Origin) {moduleName source : String} {items : List Item}
    (hSource : parseFile? source = some items) {path : List String} {content : List Item}
    (hContains : Contains (QualifiedName.segments moduleName) items path content) {item : Item}
    (hItem : item ∈ content) {c : Class}
    (hClass : classOf? origin (Module.ofItems path content) item = some c) {ident : Ident}
    (hIdent : declaredName? item = some ident)
    (hFree : ∀ target, ¬Imports content ident.name target) :
    ∃ classes, classesOfSource? origin moduleName source = some classes ∧ c ∈ classes ∧
      ∀ property, HasField path content ident.name property →
        (∃ record ∈ classes, ∃ properties,
          record.shape = .record properties ∧ property ∈ properties) ∧
        (structure? ident.name = none → path ++ [ident.name] ≠ ["serde_json", "Value"] →
          property.declared = some c.name) ∧
        (∀ structural, structure? ident.name = some structural →
          property.declared = structural.apply []) ∧
        (path ++ [ident.name] = ["serde_json", "Value"] → property.declared = some "mixed") := by
  have hItems := parseFile?_wellNamed hSource
  have hDeclarable := declarable_of_declaredName?
    (wellNamed_iff.mp (hContains.wellNamed hItems) item hItem) hIdent
  have hName : c.name = QualifiedName.ofSegments (path ++ [ident.name]) := by
    obtain ⟨ident', hIdent', hName, -⟩ := name_of_classOf? hClass
    obtain rfl : ident = ident' := Option.some.inj (hIdent.symm.trans hIdent')
    exact hName
  -- a name that is declared here and not imported is looked up in its own module
  have hResolve : (Module.ofItems path content).resolve [ident.name] = path ++ [ident.name] :=
    resolve_declared hDeclarable hFree
  refine ⟨_, by rw [classesOfSource?, hSource, Option.map_some],
    mem_classesOfItems.mpr ⟨path, content, hContains, item, hItem, hClass⟩, ?_⟩
  intro property hField
  refine ⟨hField.exists_record hContains, ?_⟩
  obtain ⟨_, _, field, last, -, -, -, hType, hLast, hProperty⟩ := hField
  have hBare := spellings_bare hLast
  have hSelf : spellings [] last ≠ ["Self"] := by
    rw [hBare]
    intro hSelf
    exact hDeclarable.notPathWord ((List.cons.inj hSelf).1 ▸ by decide)
  rw [declared_of_propertyOf? hProperty, hType]
  refine ⟨fun hNone hOther => ?_, fun structural hStructure => ?_, fun hValue => ?_⟩
  · rw [typeDescriptor_named ?_ hSelf (by rwa [hBare, hResolve]), hBare, hResolve, hName]
    rintro ⟨-, hStructure⟩
    rw [hLast, hNone] at hStructure
    cases hStructure
  · exact typeDescriptor_structural (knows_bare hFree hLast) (by rwa [hLast]) []
  · exact typeDescriptor_value hSelf (by rw [hBare, hResolve, hValue]) []

/-! ## A class with the name of a library type -/

/-- Two classes and a record with a field of each. -/
def localItems : List Item :=
  [.struct ⟨[], plain "User", .unit⟩,
   .struct ⟨[], plain "Path", .unit⟩,
   .struct ⟨[], plain "S", .named
     [⟨[], true, plain "u", .path [] (plain "User") []⟩,
      ⟨[], true, plain "p", .path [] (plain "Path") []⟩]⟩]

set_option maxRecDepth 10000 in
theorem parse_localItems :
    parseFile? "struct User; struct Path; struct S \x7b pub u: User, pub p: Path \x7d" =
      some localItems := by
  let word (name : String) : Token := .ident (plain name)
  have hTokens : tokenizeFile
      "struct User; struct Path; struct S \x7b pub u: User, pub p: Path \x7d".toList =
        some [word "struct", word "User", .punct ';' false, word "struct", word "Path",
          .punct ';' false, word "struct", word "S",
          .group .brace [word "pub", word "u", .punct ':' false, word "User", .punct ',' false,
            word "pub", word "p", .punct ':' false, word "Path"]] := rfl
  rw [parseFile?, hTokens]
  rfl

theorem not_imports_localItems (name : String) (target : List String) :
    ¬Imports localItems name target := by
  rintro ⟨tree, hTree, -⟩
  simp [localItems] at hTree

theorem localUser_described :
    (∀ target, ¬Imports localItems "User" target) ∧
    ∃ classes, classesOfSource? ⟨[], none⟩ "app"
        "struct User; struct Path; struct S \x7b pub u: User, pub p: Path \x7d" = some classes ∧
      (∃ c ∈ classes, c.name = "app::User") ∧
      ∃ property, HasField ["app"] localItems "User" property ∧ property.name = "u" ∧
        property.declared = some "app::User" := by
  have hRoot : Contains (QualifiedName.segments "app") localItems ["app"] localItems := by
    rw [show QualifiedName.segments "app" = ["app"] by decide]
    exact .root
  have hFree := not_imports_localItems "User"
  obtain ⟨c, hClass, hName⟩ : ∃ c, classOf? ⟨[], none⟩ (Module.ofItems ["app"] localItems)
      (.struct ⟨[], plain "User", .unit⟩) = some c ∧ c.name = "app::User" :=
    ⟨_, rfl, by decide⟩
  have hField : HasField ["app"] localItems "User"
      { name := "u", declared := some "app::User", line := some 1 } :=
    ⟨_, _, _, plain "User", .tail _ (.tail _ (.head _)), rfl, .head _, rfl, rfl, by decide⟩
  obtain ⟨classes, hClasses, hMem, hFields⟩ := local_class_described ⟨[], none⟩ parse_localItems
    hRoot (.head _) hClass rfl hFree
  obtain ⟨-, hDeclared, -, -⟩ := hFields _ hField
  exact ⟨hFree, classes, hClasses, ⟨c, hMem, hName⟩, _, hField, rfl,
    hName ▸ hDeclared (by decide) (by decide)⟩

/-- A class `Path` of the module does not describe a field of the type `Path`: that is a text. -/
theorem localPath_described_as_text :
    (∀ target, ¬Imports localItems "Path" target) ∧
    classesOfSource? ⟨[], none⟩ "app"
        "struct User; struct Path; struct S \x7b pub u: User, pub p: Path \x7d" =
      some
        [{ name := "app::User", shape := .record [], line := some 1 },
         { name := "app::Path", shape := .record [], line := some 1 },
         { name := "app::S"
           shape := .record
             [{ name := "u", declared := some "app::User", line := some 1 },
              { name := "p", declared := some "string", line := some 1 }]
           line := some 1 }] ∧
    HasField ["app"] localItems "Path" { name := "p", declared := some "string", line := some 1 } ∧
    some "string" ≠ some "app::Path" := by
  refine ⟨not_imports_localItems "Path", ?_, ?_, by decide⟩
  · rw [classesOfSource?, parse_localItems]
    decide
  · exact ⟨_, _, _, plain "Path", .tail _ (.tail _ (.head _)), rfl, .tail _ (.head _), rfl, rfl,
      by decide⟩

end Ambient.Extraction
