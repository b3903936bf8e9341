import Ambient.Extraction.Attributes
import Ambient.Extraction.FieldType
import Ambient.Source.Grammar

/-!
# Classes of a source

Every struct with named fields, or with none, is a record, and every enum without data is an
enumeration; other items describe no class.  Only public fields are properties.
-/

namespace Ambient.Extraction

open Source

structure Origin where
  /-- The derived names that ask for generation. -/
  markers : List String
  file : Option String
  deriving Repr, Inhabited

/-- The property that a field is, unless it is hidden or skipped. -/
def propertyOf? (module : Module) (rule : Renaming) (field : Field) : Option Property :=
  let serde := entries field.attributes "serde"
  if !field.isPublic || isSkipped serde then none
  else some
    { name := (textOf? serde "rename").getD (rule.field field.ident.name)
      declared := typeDescriptor module field.type
      documented := docType? field.attributes
      markers := markersOf (entries field.attributes "ts")
      line := some field.ident.line }

/-- The parent that a struct names, if the text is a path. -/
def parentOf? (module : Module) (attributes : List Attribute) : Option String :=
  (textOf? (entries attributes "ts") "extends").bind fun text =>
    (parsePath? text).map fun path =>
      QualifiedName.ofSegments (module.resolve (path.map Ident.spelling))

def recordOf? (origin : Origin) (module : Module) (item : StructItem) : Option Class :=
  let fields? : Option (List Field) :=
    match item.fields with
    | .named fields => some fields
    | .unit => some []
    | .unnamed => none
  fields?.map fun fields =>
    let rule := renamingOf (entries item.attributes "serde")
    { name := module.qualify item.ident.name
      shape := .record (fields.filterMap (propertyOf? module rule))
      parent := parentOf? module item.attributes
      marked := derivesMarker module origin.markers item.attributes
      file := origin.file
      line := some item.ident.line }

/-- The next discriminant; after the greatest comes the least. -/
def successor (value : Int) : Int :=
  (value + 1).bmod 18446744073709551616

/-- The variants of an enum with their discriminants: the explicit one, or else the one that is
next.  An expression that is no integer counts as if there were none. -/
def discriminants (next : Int) : List Variant → List (Variant × Int)
  | [] => []
  | variant :: rest =>
    let value := (variant.discriminant.bind asInt?).getD next
    (variant, value) :: discriminants (successor value) rest

/-- The case that a variant is, unless it is skipped. -/
def caseOf? (rule : Renaming) (isNumeric : Bool) (variant : Variant) (discriminant : Int) :
    Option Case :=
  let serde := entries variant.attributes "serde"
  let name := variant.ident.name
  if isSkipped serde then none
  else some
    { name := name
      value :=
        match caseValue? (entries variant.attributes "ts") with
        | some value => value
        | none =>
          if isNumeric then .int discriminant
          else .text ((textOf? serde "rename").getD (rule.variant name)) }

/-- The class that an enum describes: a numeric one if any variant has a discriminant. -/
def enumerationOf? (origin : Origin) (module : Module) (item : EnumItem) : Option Class :=
  if item.variants.any Variant.hasFields then none
  else
    let rule := renamingOf (entries item.attributes "serde")
    let isNumeric := item.variants.any (·.discriminant.isSome)
    some
      { name := module.qualify item.ident.name
        shape := .enumeration <|
          (discriminants 0 item.variants).filterMap fun entry =>
            caseOf? rule isNumeric entry.1 entry.2
        marked := derivesMarker module origin.markers item.attributes
        file := origin.file
        line := some item.ident.line }

mutual

def classesOfItem (origin : Origin) (module : Module) : Item → List Class
  | .struct item => (recordOf? origin module item).toList
  | .enum item => (enumerationOf? origin module item).toList
  | .module ident (some items) =>
    classesOfItems origin (Module.ofItems (module.path ++ [ident.name]) items) items
  | _ => []

/-- The classes of some items of a module, in the order of the source. -/
def classesOfItems (origin : Origin) (module : Module) : List Item → List Class
  | [] => []
  | item :: rest => classesOfItem origin module item ++ classesOfItems origin module rest

end

/-- The classes of a source that holds the module with the given name; nothing if the source is
malformed. -/
def classesOfSource? (origin : Origin) (moduleName source : String) : Option (List Class) :=
  (parseFile? source).map fun items =>
    classesOfItems origin (Module.ofItems (QualifiedName.segments moduleName) items) items

end Ambient.Extraction
