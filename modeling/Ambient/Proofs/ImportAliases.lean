import Ambient.Extraction
import Ambient.Proofs.FieldType
import Ambient.Proofs.Imports
import Mathlib.Data.List.Forall2

/-!
# Import aliases

An import may give what it imports another name.  If one plain name of an import is replaced by a
fresh one, and so are its uses, then every lookup gives what it gave before (`Alike`), and the
classes stay as they are (`classes_of_aliased`).

Two kinds of alias are left out, since they do change classes.  A type that is known by its
structure is recognized by the word it is written as, so an alias of it must be such a word for the
same structure.  And a module that is imported as `self` has no alias, since `self as` leaves a
segment `self` in every path below it (`selfAlias_changes_class`).
-/

namespace Ambient.Source

/-! ## Renaming -/

/-- The word that stands for an identifier after `old` has been renamed. -/
def Ident.aliased (ident : Ident) (old : String) (fresh : Ident) : Ident :=
  if ident.spelling = old then fresh else ident

/-- A path with its first word renamed. -/
def aliasHead (old fresh : String) : List String → List String
  | [] => []
  | first :: rest => (if first = old then fresh else first) :: rest

/-- An import in which one plain name is given an alias. -/
inductive UseTree.Aliased (old : String) (fresh : Ident) : UseTree → UseTree → Prop
  | name {ident : Ident} : ident.isName = true → ident.spelling = old →
      Aliased old fresh (.name ident) (.rename ident fresh)
  | path {ident : Ident} {tree tree' : UseTree} :
      Aliased old fresh tree tree' → Aliased old fresh (.path ident tree) (.path ident tree')
  | group {before after : List UseTree} {tree tree' : UseTree} :
      Aliased old fresh tree tree' →
      Aliased old fresh (.group (before ++ tree :: after)) (.group (before ++ tree' :: after))

mutual

/-- A type with the first word of each of its paths renamed. -/
def TypeExpr.aliased (old : String) (fresh : Ident) : TypeExpr → TypeExpr
  | .path [] last arguments => .path [] (last.aliased old fresh) (allAliased old fresh arguments)
  | .path (first :: rest) last arguments =>
    .path (first.aliased old fresh :: rest) last (allAliased old fresh arguments)
  | .reference target => .reference (target.aliased old fresh)
  | .slice element => .slice (element.aliased old fresh)
  | .array element => .array (element.aliased old fresh)
  | .parenthesized inner => .parenthesized (inner.aliased old fresh)
  | .unit => .unit
  | .bound => .bound
  | .other => .other

def allAliased (old : String) (fresh : Ident) : List TypeExpr → List TypeExpr
  | [] => []
  | type :: rest => type.aliased old fresh :: allAliased old fresh rest

end

mutual

/-- The first words of the paths in a type. -/
def TypeExpr.heads : TypeExpr → List String
  | .path qualifiers last arguments => (qualifiers.headD last).spelling :: headsOf arguments
  | .reference target => target.heads
  | .slice element => element.heads
  | .array element => element.heads
  | .parenthesized inner => inner.heads
  | .unit => []
  | .bound => []
  | .other => []

def headsOf : List TypeExpr → List String
  | [] => []
  | type :: rest => type.heads ++ headsOf rest

end

def Fields.aliased (old : String) (fresh : Ident) : Fields → Fields
  | .named fields => .named (fields.map fun field =>
    { field with type := field.type.aliased old fresh })
  | .unnamed => .unnamed
  | .unit => .unit

def Fields.heads : Fields → List String
  | .named fields => fields.flatMap (·.type.heads)
  | .unnamed => []
  | .unit => []

end Ambient.Source

namespace Ambient.Extraction

open Source

/-! ## Modules that look names up alike -/

/-- What two modules share if one has `fresh` where the other has `old` among its imports. -/
structure Alike (old fresh : String) (module module' : Module) : Prop where
  path : module'.path = module.path
  found : ∃ target, target ≠ [] ∧ module.imports.find? old = some target ∧
    module'.imports.find? fresh = some target
  other : ∀ name, name ≠ old → name ≠ fresh →
    module'.imports.find? name = module.imports.find? name
  notSelf : old ≠ "Self" ∧ fresh ≠ "Self"
  /-- An alias of a type of a known crate must be known by the same structure. -/
  known : ∀ target, module.imports.find? old = some target → target.head?.any (· ∈ knownCrates) →
    structure? fresh = structure? old

section Alike

variable {old fresh : String} {module module' : Module}

theorem Alike.find?_eq (h : Alike old fresh module module') {name : String} (hName : name ≠ fresh) :
    module'.imports.find? (if name = old then fresh else name) = module.imports.find? name := by
  split
  · rename_i hOld
    obtain ⟨target, -, hModule, hModule'⟩ := h.found
    rw [hOld, hModule, hModule']
  · rename_i hOld
    exact h.other name hOld hName

theorem Alike.resolve_eq (h : Alike old fresh module module') {segments : List String}
    (hHead : segments.head? ≠ some fresh) :
    module'.resolve (aliasHead old fresh segments) = module.resolve segments := by
  cases segments with
  | nil => rfl
  | cons first rest =>
    have hFirst : first ≠ fresh := by simpa using hHead
    rw [aliasHead, Module.resolve, Module.resolve, h.find?_eq hFirst]
    cases hFind : module.imports.find? first with
    | some target => rfl
    | none =>
      -- a name that is not found has not been renamed
      obtain ⟨target, -, hOld, -⟩ := h.found
      have hOther : first ≠ old := by
        rintro rfl
        cases hFind.symm.trans hOld
      rw [if_neg hOther, h.path]

/-- A path keeps its descriptor.  `last` is the last word of the path, which the renaming changes
only if it is the only one. -/
theorem Alike.pathDescriptor_eq (h : Alike old fresh module module') {segments : List String}
    {last last' : String} (hHead : segments.head? ≠ some fresh)
    (hLast : segments = [last] ∧ last' = (if last = old then fresh else last) ∨
      2 ≤ segments.length ∧ last' = last) (arguments : List (Option String)) :
    pathDescriptor module' (aliasHead old fresh segments) last' arguments =
      pathDescriptor module segments last arguments := by
  have hSelf : (aliasHead old fresh segments == ["Self"]) = (segments == ["Self"]) := by
    rw [Bool.eq_iff_iff, beq_iff_eq, beq_iff_eq]
    cases segments with
    | nil => rfl
    | cons first rest =>
      rw [aliasHead]
      split
      · rename_i hOld
        simp [hOld, h.notSelf]
      · rfl
  have hImported : (aliasHead old fresh segments).head?.bind module'.imports.find? =
      segments.head?.bind module.imports.find? := by
    cases segments with
    | nil => rfl
    | cons first rest => exact h.find?_eq (by simpa using hHead)
  have hLength : (aliasHead old fresh segments).length = segments.length := by
    cases segments <;> rfl
  unfold pathDescriptor
  dsimp only
  rw [hSelf, hImported, hLength, h.resolve_eq hHead]
  rcases hLast with ⟨hSingle, hLast⟩ | ⟨hLong, rfl⟩
  · by_cases hOld : last = old
    · -- the path is the old name alone, which is imported
      obtain ⟨target, -, hTarget, -⟩ := h.found
      have hResolve : module.resolve segments = target := by
        rw [hSingle, hOld, Module.resolve, hTarget]
        exact List.append_nil target
      have hFound : (segments.head?.bind module.imports.find?).isSome = true := by
        rw [hSingle, hOld, List.head?_cons, Option.bind_some, hTarget]
        rfl
      rw [hLast, if_pos hOld, hResolve, hFound, hOld]
      cases hKnown : target.head?.any (· ∈ knownCrates) with
      | true => rw [h.known target hTarget hKnown]
      | false => simp
    · rw [hLast, if_neg hOld]
  · rfl

/-! ## Types -/

theorem spelling_aliased (ident : Ident) (old : String) (fresh : Ident) :
    (ident.aliased old fresh).spelling =
      if ident.spelling = old then fresh.spelling else ident.spelling :=
  apply_ite Ident.spelling _ _ _

theorem isArray_aliased (type : TypeExpr) (old : String) (fresh : Ident) :
    isArray (type.aliased old fresh) = isArray type := by
  cases type with
  | path qualifiers last arguments => cases qualifiers <;> rfl
  | _ => rfl

-- The descriptor of a type follows its structure, and so do those of its arguments.
mutual

theorem Alike.typeDescriptor_eq {old : String} {fresh : Ident}
    (h : Alike old fresh.spelling module module') {type : TypeExpr}
    (hHeads : fresh.spelling ∉ type.heads) :
    typeDescriptor module' (type.aliased old fresh) = typeDescriptor module type := by
  -- only the first word of a path can be the alias, and no path starts with the fresh name
  match type, hHeads with
  | .path [] last arguments, hHeads =>
    rw [TypeExpr.heads, List.mem_cons, not_or] at hHeads
    have hHead : [last.spelling].head? ≠ some fresh.spelling := by
      simpa using Ne.symm hHeads.1
    rw [TypeExpr.aliased, typeDescriptor, typeDescriptor, h.argumentDescriptors_eq hHeads.2]
    simp only [List.nil_append, List.map_cons, List.map_nil, spelling_aliased]
    exact h.pathDescriptor_eq hHead (.inl ⟨rfl, rfl⟩) _
  | .path (first :: rest) last arguments, hHeads =>
    rw [TypeExpr.heads, List.mem_cons, not_or] at hHeads
    have hHead : ((first :: rest ++ [last]).map Ident.spelling).head? ≠ some fresh.spelling := by
      simpa using Ne.symm hHeads.1
    have hLong : 2 ≤ ((first :: rest ++ [last]).map Ident.spelling).length := by
      simp
    rw [TypeExpr.aliased, typeDescriptor, typeDescriptor, h.argumentDescriptors_eq hHeads.2]
    have hPath := h.pathDescriptor_eq hHead (.inr ⟨hLong, (rfl : last.spelling = _)⟩)
      (argumentDescriptors module arguments)
    simpa only [List.cons_append, List.map_cons, spelling_aliased, aliasHead] using hPath
  | .reference target, hHeads =>
    rw [TypeExpr.heads] at hHeads
    rw [TypeExpr.aliased, typeDescriptor, typeDescriptor, h.typeDescriptor_eq hHeads]
  | .slice element, hHeads =>
    rw [TypeExpr.heads] at hHeads
    rw [TypeExpr.aliased, typeDescriptor, typeDescriptor, h.typeDescriptor_eq hHeads]
  | .array element, hHeads =>
    rw [TypeExpr.heads] at hHeads
    rw [TypeExpr.aliased, typeDescriptor, typeDescriptor, h.typeDescriptor_eq hHeads]
  | .parenthesized inner, hHeads =>
    rw [TypeExpr.heads] at hHeads
    rw [TypeExpr.aliased, typeDescriptor, typeDescriptor, h.typeDescriptor_eq hHeads]
  | .unit, _ => rfl
  | .bound, _ => rfl
  | .other, _ => rfl

theorem Alike.argumentDescriptors_eq {old : String} {fresh : Ident}
    (h : Alike old fresh.spelling module module') {types : List TypeExpr}
    (hHeads : fresh.spelling ∉ headsOf types) :
    argumentDescriptors module' (allAliased old fresh types) =
      argumentDescriptors module types := by
  match types, hHeads with
  | [], _ => rfl
  | type :: rest, hHeads =>
    rw [headsOf, List.mem_append, not_or] at hHeads
    have hRest := h.argumentDescriptors_eq hHeads.2
    -- an array among the arguments stands for its element
    cases hShape : isArray type with
    | true =>
      obtain ⟨element, rfl⟩ : ∃ element, type = .array element := by
        cases type with
        | array element => exact ⟨element, rfl⟩
        | _ => cases hShape
      rw [TypeExpr.heads] at hHeads
      rw [allAliased, TypeExpr.aliased, argumentDescriptors_array, argumentDescriptors_array, hRest,
        h.typeDescriptor_eq hHeads.1]
    | false =>
      have hShape' := (isArray_aliased type old fresh).trans hShape
      rw [allAliased, argumentDescriptors_cons hShape', argumentDescriptors_cons hShape, hRest,
        h.typeDescriptor_eq hHeads.1]

end

/-! ## Attributes -/

/-- The words of the path that a struct names as its parent. -/
def parentPath? (attributes : List Attribute) : Option (List Ident) :=
  (textOf? (entries attributes "ts") "extends").bind parsePath?

theorem parentOf?_eq (module : Module) (attributes : List Attribute) :
    parentOf? module attributes = ((parentPath? attributes).map (·.map Ident.spelling)).map
      fun path => QualifiedName.ofSegments (module.resolve path) := by
  rw [parentOf?, parentPath?]
  cases textOf? (entries attributes "ts") "extends" with
  | none => rfl
  | some text =>
    rw [Option.bind_some, Option.bind_some, Option.map_map]
    rfl

/-- The words of a path, the first one renamed. -/
def aliasWords (old : String) (fresh : Ident) : List Ident → List Ident
  | [] => []
  | first :: rest => first.aliased old fresh :: rest

/-- An entry of `ts` whose path, if it is a parent, has its first word renamed. -/
inductive AliasedEntry (old fresh : String) : MetaItem → MetaItem → Prop
  | parent {path : MetaPath} {text text' : String} : path.isWord "extends" = true →
      (parsePath? text').map (·.map Ident.spelling) =
        (parsePath? text).map (fun path => aliasHead old fresh (path.map Ident.spelling)) →
      AliasedEntry old fresh (.value path (.literal (.text text)))
        (.value path (.literal (.text text')))
  | other {entry : MetaItem} : (valueOf? "extends" entry).bind asText? = none →
      AliasedEntry old fresh entry entry

/-- An attribute in which the first words of derived paths and of a parent are renamed. -/
inductive AliasedAttribute (old : String) (fresh : Ident) : Attribute → Attribute → Prop
  | derive {path : MetaPath} {entries entries' : Option (List MetaItem)}
      {paths : List (List Ident)} : path.isWord "derive" = true →
      AliasedAttribute old fresh ⟨path, .arguments entries (some paths)⟩
        ⟨path, .arguments entries' (some (paths.map (aliasWords old fresh)))⟩
  | parent {path : MetaPath} {entries entries' : List MetaItem}
      {paths paths' : Option (List (List Ident))} : path.isWord "ts" = true →
      List.Forall₂ (AliasedEntry old fresh.spelling) entries entries' →
      AliasedAttribute old fresh ⟨path, .arguments (some entries) paths⟩
        ⟨path, .arguments (some entries') paths'⟩
  | other {attr : Attribute} : derives [attr] = [] →
      textOf? (entries [attr] "ts") "extends" = none → AliasedAttribute old fresh attr attr

/-- A path is a single word in one way only. -/
theorem isWord_eq_false {path : MetaPath} {name other : String} (h : path.isWord name = true)
    (hOther : name ≠ other) : path.isWord other = false := by
  unfold MetaPath.isWord at h ⊢
  split at h
  · rw [Bool.and_eq_true, beq_iff_eq] at h
    rw [h.2, beq_false_of_ne hOther, Bool.and_false]
  · cases h

section Attributes

variable {old : String} {fresh : Ident} {attributes attributes' : List Attribute}

theorem derives_cons (attr : Attribute) (rest : List Attribute) :
    derives (attr :: rest) = derives [attr] ++ derives rest := by
  simp [derives]

theorem entries_cons (attr : Attribute) (rest : List Attribute) (name : String) :
    entries (attr :: rest) name = entries [attr] name ++ entries rest name := by
  simp [entries]

theorem derives_aliased (h : List.Forall₂ (AliasedAttribute old fresh) attributes attributes') :
    derives attributes' = (derives attributes).map (aliasWords old fresh) := by
  induction h with
  | nil => rfl
  | @cons attr attr' rest rest' hFirst _ ih =>
    rw [derives_cons, derives_cons attr, List.map_append, ih]
    congr 1
    cases hFirst with
    | derive hPath => simp [derives, hPath]
    | parent hPath _ => simp [derives, isWord_eq_false hPath (by decide : "ts" ≠ "derive")]
    | other hNone _ => simp [hNone]

theorem entries_aliased (h : List.Forall₂ (AliasedAttribute old fresh) attributes attributes')
    {name : String} (hDerive : "derive" ≠ name) (hTs : "ts" ≠ name) :
    entries attributes' name = entries attributes name := by
  induction h with
  | nil => rfl
  | @cons attr attr' rest rest' hFirst _ ih =>
    rw [entries_cons, entries_cons attr, ih]
    congr 1
    cases hFirst with
    | derive hPath => simp [entries, isWord_eq_false hPath hDerive]
    | parent hPath _ => simp [entries, isWord_eq_false hPath hTs]
    | other _ _ => rfl

theorem entries_ts_aliased
    (h : List.Forall₂ (AliasedAttribute old fresh) attributes attributes') :
    List.Forall₂ (AliasedEntry old fresh.spelling) (entries attributes "ts")
      (entries attributes' "ts") := by
  induction h with
  | nil => exact .nil
  | @cons attr attr' rest rest' hFirst _ ih =>
    rw [entries_cons, entries_cons attr']
    refine List.rel_append ?_ ih
    cases hFirst with
    | derive hPath => simp [entries, isWord_eq_false hPath (by decide : "derive" ≠ "ts")]
    | parent hPath hEntries => simpa [entries, hPath] using hEntries
    | other _ hNone =>
      rw [List.forall₂_same]
      exact fun entry hEntry => .other (List.findSome?_eq_none_iff.mp hNone entry hEntry)

/-- The paths that name the parent, before and after. -/
theorem parentPath?_aliased
    (h : List.Forall₂ (AliasedAttribute old fresh) attributes attributes') :
    (parentPath? attributes').map (·.map Ident.spelling) =
      (parentPath? attributes).map
        fun path => aliasHead old fresh.spelling (path.map Ident.spelling) := by
  have hEntries := entries_ts_aliased h
  unfold parentPath? textOf?
  generalize entries attributes "ts" = before, entries attributes' "ts" = after at hEntries ⊢
  induction hEntries with
  | nil => rfl
  | @cons entry entry' rest rest' hFirst _ ih =>
    cases hFirst with
    | parent hPath hText => simpa [valueOf?, hPath, asText?] using hText
    | other hNone =>
      rw [List.findSome?_cons, hNone, List.findSome?_cons, hNone]
      exact ih

end Attributes

/-- The first words of the paths that some attributes derive or name as a parent. -/
def pathHeads (attributes : List Attribute) : List String :=
  (derives attributes ++ (parentPath? attributes).toList).filterMap fun path =>
    path.head?.map Ident.spelling

section Attributes

variable {old : String} {fresh : Ident} {attributes attributes' : List Attribute}

theorem Alike.derivedName?_eq (h : Alike old fresh.spelling module module') {path : List Ident}
    (hHead : path.head?.map Ident.spelling ≠ some fresh.spelling) :
    derivedName? module' (aliasWords old fresh path) = derivedName? module path := by
  match path, hHead with
  | [], _ => rfl
  | [ident], hHead =>
    have hName : ident.spelling ≠ fresh.spelling := by simpa using hHead
    rw [aliasWords, derivedName?, derivedName?, spelling_aliased, h.find?_eq hName]
    cases hLast : (module.imports.find? ident.spelling).bind List.getLast? with
    | some name => rfl
    | none =>
      -- an import leads somewhere, so a name that leads nowhere has not been renamed
      dsimp only
      rw [if_neg]
      rintro rfl
      obtain ⟨target, hSome, hOld, -⟩ := h.found
      rw [hOld, Option.bind_some, List.getLast?_eq_none_iff] at hLast
      exact hSome hLast
  | first :: second :: rest, _ => rfl

theorem Alike.derivesMarker_eq (h : Alike old fresh.spelling module module')
    (hAttributes : List.Forall₂ (AliasedAttribute old fresh) attributes attributes')
    (hHeads : fresh.spelling ∉ pathHeads attributes) (markers : List String) :
    derivesMarker module' markers attributes' = derivesMarker module markers attributes := by
  rw [derivesMarker, derivesMarker, derives_aliased hAttributes, List.any_map]
  rw [Bool.eq_iff_iff, List.any_eq_true, List.any_eq_true]
  refine exists_congr fun path => and_congr_right fun hPath => ?_
  have hHead : path.head?.map Ident.spelling ≠ some fresh.spelling := fun hFresh =>
    hHeads (List.mem_filterMap.mpr ⟨path, List.mem_append_left _ hPath, hFresh⟩)
  rw [Function.comp_apply, h.derivedName?_eq hHead]

theorem Alike.parentOf?_eq (h : Alike old fresh.spelling module module')
    (hAttributes : List.Forall₂ (AliasedAttribute old fresh) attributes attributes')
    (hHeads : fresh.spelling ∉ pathHeads attributes) :
    parentOf? module' attributes' = parentOf? module attributes := by
  rw [Extraction.parentOf?_eq, Extraction.parentOf?_eq, parentPath?_aliased hAttributes]
  cases hPath : parentPath? attributes with
  | none => rfl
  | some path =>
    have hHead : (path.map Ident.spelling).head? ≠ some fresh.spelling := by
      rw [List.head?_map]
      refine fun hFresh => hHeads (List.mem_filterMap.mpr ⟨path, ?_, hFresh⟩)
      exact List.mem_append_right _ (by simp [hPath])
    simp only [Option.map_some, h.resolve_eq hHead]

end Attributes

/-! ## Items -/

/-- The first words of the paths that a struct or an enum is described by. -/
def itemHeads : Item → List String
  | .struct item => item.fields.heads ++ pathHeads item.attributes
  | .enum item => pathHeads item.attributes
  | _ => []

/-- An item in which the uses of a name are renamed.  A module inside has its own imports. -/
inductive AliasedItem (old : String) (fresh : Ident) : Item → Item → Prop
  | struct {attributes attributes' : List Attribute} {ident : Ident} {fields : Fields} :
      List.Forall₂ (AliasedAttribute old fresh) attributes attributes' →
      AliasedItem old fresh (.struct ⟨attributes, ident, fields⟩)
        (.struct ⟨attributes', ident, fields.aliased old fresh⟩)
  | enum {attributes attributes' : List Attribute} {ident : Ident} {variants : List Variant} :
      List.Forall₂ (AliasedAttribute old fresh) attributes attributes' →
      AliasedItem old fresh (.enum ⟨attributes, ident, variants⟩)
        (.enum ⟨attributes', ident, variants⟩)
  | use {tree : UseTree} : AliasedItem old fresh (.use tree) (.use tree)
  | module {ident : Ident} {content : Option (List Item)} :
      AliasedItem old fresh (.module ident content) (.module ident content)
  | other : AliasedItem old fresh .other .other

section Items

variable {old : String} {fresh : Ident}

theorem Alike.propertyOf?_eq (h : Alike old fresh.spelling module module') {field : Field}
    (hHeads : fresh.spelling ∉ field.type.heads) (rule : Renaming) :
    propertyOf? module' rule { field with type := field.type.aliased old fresh } =
      propertyOf? module rule field := by
  unfold propertyOf?
  dsimp only
  rw [h.typeDescriptor_eq hHeads]

theorem Alike.qualify_eq {old fresh : String} (h : Alike old fresh module module')
    (name : String) : module'.qualify name = module.qualify name := by
  rw [Module.qualify, Module.qualify, h.path]

theorem Alike.recordOf?_eq (h : Alike old fresh.spelling module module')
    {attributes attributes' : List Attribute} {ident : Ident} {fields : Fields}
    (hAttributes : List.Forall₂ (AliasedAttribute old fresh) attributes attributes')
    (hFields : fresh.spelling ∉ fields.heads) (hHeads : fresh.spelling ∉ pathHeads attributes)
    (origin : Origin) :
    recordOf? origin module' ⟨attributes', ident, fields.aliased old fresh⟩ =
      recordOf? origin module ⟨attributes, ident, fields⟩ := by
  unfold recordOf?
  dsimp only
  rw [h.qualify_eq, h.parentOf?_eq hAttributes hHeads, h.derivesMarker_eq hAttributes hHeads,
    entries_aliased hAttributes (by decide) (by decide)]
  cases fields with
  | named fields =>
    -- fields are extracted one by one, each against the alike modules
    have hProperties : (fields.map fun field =>
        { field with type := field.type.aliased old fresh }).filterMap
          (propertyOf? module' (renamingOf (entries attributes "serde"))) =
        fields.filterMap (propertyOf? module (renamingOf (entries attributes "serde"))) := by
      rw [List.filterMap_map]
      refine List.filterMap_congr fun field hField => h.propertyOf?_eq ?_ _
      exact fun hHead => hFields (List.mem_flatMap.mpr ⟨field, hField, hHead⟩)
    simp only [Fields.aliased, Option.map_some, hProperties]
  | unnamed => rfl
  | unit => rfl

theorem Alike.enumerationOf?_eq (h : Alike old fresh.spelling module module')
    {attributes attributes' : List Attribute} {ident : Ident} {variants : List Variant}
    (hAttributes : List.Forall₂ (AliasedAttribute old fresh) attributes attributes')
    (hHeads : fresh.spelling ∉ pathHeads attributes) (origin : Origin) :
    enumerationOf? origin module' ⟨attributes', ident, variants⟩ =
      enumerationOf? origin module ⟨attributes, ident, variants⟩ := by
  unfold enumerationOf?
  dsimp only
  rw [h.qualify_eq, h.derivesMarker_eq hAttributes hHeads,
    entries_aliased hAttributes (by decide) (by decide)]

theorem Alike.classesOfItem_eq (h : Alike old fresh.spelling module module') {item item' : Item}
    (hItem : AliasedItem old fresh item item') (hHeads : fresh.spelling ∉ itemHeads item)
    (origin : Origin) : classesOfItem origin module' item' = classesOfItem origin module item := by
  cases hItem with
  | struct hAttributes =>
    rw [itemHeads, List.mem_append, not_or] at hHeads
    rw [classesOfItem, classesOfItem, h.recordOf?_eq hAttributes hHeads.1 hHeads.2]
  | enum hAttributes =>
    rw [classesOfItem, classesOfItem, h.enumerationOf?_eq hAttributes hHeads]
  | use => rfl
  | @module ident content =>
    cases content with
    | none => rfl
    | some items => rw [classesOfItem, classesOfItem, h.path]
  | other => rfl

theorem Alike.classesOfItems_eq (h : Alike old fresh.spelling module module')
    {items items' : List Item} (hItems : List.Forall₂ (AliasedItem old fresh) items items')
    (hHeads : ∀ item ∈ items, fresh.spelling ∉ itemHeads item) (origin : Origin) :
    classesOfItems origin module' items' = classesOfItems origin module items := by
  induction hItems with
  | nil => rfl
  | cons hFirst _ ih =>
    obtain ⟨hHead, hRest⟩ := List.forall_mem_cons.mp hHeads
    rw [classesOfItems, classesOfItems, h.classesOfItem_eq hFirst hHead, ih hRest]

end Items

end Alike

/-! ## Imports -/

theorem importsOfAll_append (leading : List String) (trees more : List UseTree) :
    importsOfAll leading (trees ++ more) =
      importsOfAll leading trees ++ importsOfAll leading more := by
  induction trees with
  | nil => rfl
  | cons tree rest ih => rw [List.cons_append, importsOfAll, ih, importsOfAll, List.append_assoc]

theorem not_mem_reserved_of_aliased {old : String} {fresh : Ident} {tree tree' : UseTree}
    (h : tree.Aliased old fresh tree') : old ∉ reserved := by
  induction h with
  | name hName hOld => exact hOld ▸ Ident.spelling_not_mem_reserved hName
  | path _ ih => exact ih
  | group _ ih => exact ih

/-- An alias changes one entry of what an import brings in. -/
theorem importsOf_aliased {old : String} {fresh : Ident} {tree tree' : UseTree}
    (h : tree.Aliased old fresh tree') (leading : List String) :
    ∃ before path after, importsOf leading tree = before ++ (old, path ++ [old]) :: after ∧
      importsOf leading tree' = before ++ (fresh.spelling, path ++ [old]) :: after := by
  induction h generalizing leading with
  | @name ident hName hOld =>
    have hOther : ident.spelling ≠ "self" := fun hSelf =>
      Ident.spelling_not_mem_reserved hName (hSelf ▸ by decide)
    subst hOld
    exact ⟨[], leading, [], by simp [importsOf, hOther], rfl⟩
  | path _ ih =>
    rw [importsOf, importsOf]
    exact ih _
  | @group before after tree tree' _ ih =>
    obtain ⟨first, path, rest, hTree, hTree'⟩ := ih leading
    refine ⟨importsOfAll leading before ++ first, path, rest ++ importsOfAll leading after, ?_, ?_⟩
    · simp [importsOf, importsOfAll_append, importsOfAll, hTree]
    · simp [importsOf, importsOfAll_append, importsOfAll, hTree']

/-- Only struct and enum items change with a name that they use. -/
theorem useTrees_aliased {old : String} {fresh : Ident} {items items' : List Item}
    (h : List.Forall₂ (AliasedItem old fresh) items items') :
    Module.useTrees items' = Module.useTrees items := by
  induction h with
  | nil => rfl
  | cons hFirst _ ih =>
    unfold Module.useTrees at ih ⊢
    cases hFirst <;> simp [ih]

theorem useTrees_append (items more : List Item) :
    Module.useTrees (items ++ more) = Module.useTrees items ++ Module.useTrees more :=
  List.filterMap_append ..

/-- The items of a module in which one plain name of a `use` item is given an alias, and the uses of
that name are renamed. -/
inductive AliasedItems (old : String) (fresh : Ident) : List Item → List Item → Prop
  | intro {before before' after after' : List Item} {tree tree' : UseTree} :
      tree.Aliased old fresh tree' → List.Forall₂ (AliasedItem old fresh) before before' →
      List.Forall₂ (AliasedItem old fresh) after after' →
      AliasedItems old fresh (before ++ .use tree :: after) (before' ++ .use tree' :: after')

/-- What lets an alias be transparent in a module with the given path and items. -/
structure MayAlias (old : String) (fresh : Ident) (path : List String) (items : List Item) :
    Prop where
  isName : fresh.isName = true
  /-- The alias is fresh: nothing is imported under it, and no path starts with it. -/
  unbound : ∀ target, ¬Imports items fresh.spelling target
  unused : ∀ item ∈ items, fresh.spelling ∉ itemHeads item
  once : ∀ target other, Imports items old target → Imports items old other → target = other
  /-- A name of a known crate is a word for the same structure before and after. -/
  known : ∀ target, Imports items old target →
    (Module.absolute path target).head?.any (· ∈ knownCrates) →
      structure? fresh.spelling = structure? old

/-- An alias changes one entry of what the imports of a module bind. -/
theorem imports_aliased {old : String} {fresh : Ident} {items items' : List Item}
    (h : AliasedItems old fresh items items') :
    old ∉ reserved ∧ ∃ before path after,
      importsOfAll [] (Module.useTrees items) = before ++ (old, path ++ [old]) :: after ∧
        importsOfAll [] (Module.useTrees items') =
          before ++ (fresh.spelling, path ++ [old]) :: after := by
  obtain @⟨before, before', after, after', tree, tree', hTree, hBefore, hAfter⟩ := h
  refine ⟨not_mem_reserved_of_aliased hTree, ?_⟩
  obtain ⟨first, path, rest, hImports, hImports'⟩ := importsOf_aliased hTree []
  -- the tree with the alias is cut out of the items, and of the imports with them
  have hSplit (before after : List Item) (tree : UseTree) :
      importsOfAll [] (Module.useTrees (before ++ .use tree :: after)) =
        importsOfAll [] (Module.useTrees before) ++
          (importsOf [] tree ++ importsOfAll [] (Module.useTrees after)) := by
    rw [useTrees_append, importsOfAll_append]
    rfl
  refine ⟨importsOfAll [] (Module.useTrees before) ++ first, path,
    rest ++ importsOfAll [] (Module.useTrees after), ?_, ?_⟩
  · rw [hSplit, hImports]
    simp
  · rw [hSplit, hImports', useTrees_aliased hBefore, useTrees_aliased hAfter]
    simp

theorem getLast?_ascend (base segments : List String) {name : String} (h : name ≠ "super") :
    (Module.ascend base (segments ++ [name])).getLast? = some name := by
  induction segments generalizing base with
  | nil =>
    unfold Module.ascend
    split
    · rename_i hSuper
      exact absurd (List.cons.inj hSuper).1 h
    · simp
  | cons first rest ih =>
    -- each leading `super` is dropped; the first other word ends the ascent
    by_cases hFirst : first = "super"
    · rw [hFirst, List.cons_append, Module.ascend]
      exact ih _
    · unfold Module.ascend
      split
      · rename_i hSuper
        exact absurd (List.cons.inj hSuper).1 hFirst
      · rw [← List.append_assoc, List.getLast?_concat]

/-- A path that ends in a name still does so when it is made absolute. -/
theorem getLast?_absolute (module segments : List String) {name : String} (h : name ∉ reserved) :
    (Module.absolute module (segments ++ [name])).getLast? = some name := by
  have hSuper : name ≠ "super" := fun hName => h (hName ▸ by decide)
  -- a reserved word in front is not the name at the end
  have hRest : ∀ {first : String} {rest : List String}, first ∈ reserved →
      segments ++ [name] = first :: rest → ∃ more, rest = more ++ [name] := by
    intro first rest hFirst hPath
    rcases List.append_eq_cons_iff.mp hPath with ⟨-, hName⟩ | ⟨more, -, hMore⟩
    · exact absurd ((List.cons.inj hName).1 ▸ hFirst) h
    · exact ⟨more, hMore⟩
  unfold Module.absolute
  split
  · rename_i rest hPath
    obtain ⟨more, rfl⟩ := hRest (by decide) hPath
    exact getLast?_ascend _ more hSuper
  · rename_i rest hPath
    obtain ⟨more, rfl⟩ := hRest (by decide) hPath
    exact getLast?_ascend _ more hSuper
  · exact getLast?_ascend _ segments hSuper
  · simp

theorem alike_of_aliased {old : String} {fresh : Ident} {path : List String}
    {items items' : List Item} (h : AliasedItems old fresh items items')
    (hMay : MayAlias old fresh path items) :
    Alike old fresh.spelling (Module.ofItems path items) (Module.ofItems path items') := by
  obtain ⟨hOld, before, target, after, hBefore, hAfter⟩ := imports_aliased h
  have hImports : Imports items old (target ++ [old]) :=
    mem_imports.mp (hBefore ▸ List.mem_append_right _ (List.mem_cons_self ..))
  have hImports' : Imports items' fresh.spelling (target ++ [old]) :=
    mem_imports.mp (hAfter ▸ List.mem_append_right _ (List.mem_cons_self ..))
  have hFind := find?_imports path hImports fun other hOther =>
    hMay.once other _ hOther hImports
  -- the fresh name is bound by the alias only: it was unbound before
  have hFind' := find?_imports path hImports' fun other hOther => by
    rw [← mem_imports, hAfter, List.mem_append, List.mem_cons] at hOther
    have hUnbound := hMay.unbound other
    rw [← mem_imports, hBefore, List.mem_append, List.mem_cons, not_or, not_or] at hUnbound
    rcases hOther with hBefore | hThis | hAfter
    · exact absurd hBefore hUnbound.1
    · exact (Prod.mk.inj hThis).2
    · exact absurd hAfter hUnbound.2.2
  exact
    { path := rfl
      found := by
        refine ⟨_, fun hNil => ?_, hFind, hFind'⟩
        have hLast := getLast?_absolute path target hOld
        rw [hNil] at hLast
        cases hLast
      other := by
        intro name hName hName'
        rw [Module.ofItems, Module.ofItems, Table.find?_ofLast, Table.find?_ofLast, hBefore, hAfter]
        simp only [List.map_append, List.map_cons, List.reverse_append, List.reverse_cons,
          List.append_assoc, Table.find?_append, Table.find?_cons, List.cons_append,
          List.nil_append, if_neg hName, if_neg hName']
      notSelf := by
        refine ⟨fun hSelf => hOld (hSelf ▸ by decide), fun hSelf => ?_⟩
        exact Ident.spelling_not_mem_reserved hMay.isName (hSelf ▸ by decide)
      known := by
        intro found hFound hKnown
        rw [hFind] at hFound
        cases hFound
        exact hMay.known _ hImports hKnown }

/-! ## Sources -/

/-- A source in which a module, at any depth, gives an import an alias. -/
inductive Aliasing (old : String) (fresh : Ident) : List String → List Item → List Item → Prop
  | here {path : List String} {items items' : List Item} : AliasedItems old fresh items items' →
      MayAlias old fresh path items → Aliasing old fresh path items items'
  | inner {path : List String} {before after inner inner' : List Item} {ident : Ident} :
      Aliasing old fresh (path ++ [ident.name]) inner inner' →
      Aliasing old fresh path (before ++ .module ident (some inner) :: after)
        (before ++ .module ident (some inner') :: after)

theorem classesOfItems_append (origin : Origin) (module : Module) (items more : List Item) :
    classesOfItems origin module (items ++ more) =
      classesOfItems origin module items ++ classesOfItems origin module more := by
  induction items with
  | nil => rfl
  | cons item rest ih =>
    rw [List.cons_append, classesOfItems, ih, classesOfItems, List.append_assoc]

theorem classesOfItems_aliased {old : String} {fresh : Ident} {path : List String}
    {items items' : List Item} (h : Aliasing old fresh path items items') (origin : Origin) :
    classesOfItems origin (Module.ofItems path items') items' =
      classesOfItems origin (Module.ofItems path items) items := by
  induction h with
  | here hItems hMay =>
    have hAlike := alike_of_aliased hItems hMay
    obtain @⟨before, before', after, after', tree, tree', hTree, hBefore, hAfter⟩ := hItems
    have hUnused := List.forall_mem_append.mp hMay.unused
    rw [classesOfItems_append, classesOfItems_append, classesOfItems, classesOfItems,
      hAlike.classesOfItems_eq hBefore hUnused.1,
      hAlike.classesOfItems_eq hAfter (List.forall_mem_cons.mp hUnused.2).2]
    rfl
  | @inner path before after inner inner' ident _ ih =>
    -- the imports of the outer module are the same
    have hModule : Module.ofItems path (before ++ .module ident (some inner') :: after) =
        Module.ofItems path (before ++ .module ident (some inner) :: after) := by
      unfold Module.ofItems
      rw [useTrees_append, useTrees_append]
      rfl
    rw [hModule, classesOfItems_append, classesOfItems_append, classesOfItems, classesOfItems,
      classesOfItem, classesOfItem]
    congr 2

/-- Import aliases are transparent: a source in which a plain name of an import is given a fresh
alias, and the uses of that name are renamed, has the same classes. -/
theorem classes_of_aliased (origin : Origin) {moduleName source source' old : String}
    {fresh : Ident} {items items' : List Item} (hSource : parseFile? source = some items)
    (hSource' : parseFile? source' = some items')
    (h : Aliasing old fresh (QualifiedName.segments moduleName) items items') :
    classesOfSource? origin moduleName source' = classesOfSource? origin moduleName source := by
  rw [classesOfSource?, classesOfSource?, hSource, hSource', Option.map_some, Option.map_some,
    classesOfItems_aliased h]

/-- A list of a class that the module imports from `m`. -/
def importedItems : List Item :=
  [.use (.path (plain "m") (.name (plain "A"))),
   .struct ⟨[], plain "S", .named [⟨[], true, plain "a", .path [] (plain "Vec")
     [.path [] (plain "A") []]⟩]⟩]

def aliasedItems : List Item :=
  [.use (.path (plain "m") (.rename (plain "A") (plain "B"))),
   .struct ⟨[], plain "S", .named [⟨[], true, plain "a", .path [] (plain "Vec")
     [.path [] (plain "B") []]⟩]⟩]

set_option maxRecDepth 10000 in
theorem parse_importedItems :
    parseFile? "use m::A; struct S \x7b pub a: Vec<A> \x7d" = some importedItems := by
  have hTokens : tokenizeFile "use m::A; struct S \x7b pub a: Vec<A> \x7d".toList =
      some [.ident (plain "use"), .ident (plain "m"), .punct ':' true, .punct ':' false,
        .ident (plain "A"), .punct ';' false, .ident (plain "struct"), .ident (plain "S"),
        .group .brace [.ident (plain "pub"), .ident (plain "a"), .punct ':' false,
          .ident (plain "Vec"), .punct '<' false, .ident (plain "A"), .punct '>' false]] := rfl
  rw [parseFile?, hTokens]
  rfl

set_option maxRecDepth 10000 in
theorem parse_aliasedItems :
    parseFile? "use m::A as B; struct S \x7b pub a: Vec<B> \x7d" = some aliasedItems := by
  have hTokens : tokenizeFile "use m::A as B; struct S \x7b pub a: Vec<B> \x7d".toList =
      some [.ident (plain "use"), .ident (plain "m"), .punct ':' true, .punct ':' false,
        .ident (plain "A"), .ident (plain "as"), .ident (plain "B"), .punct ';' false,
        .ident (plain "struct"), .ident (plain "S"),
        .group .brace [.ident (plain "pub"), .ident (plain "a"), .punct ':' false,
          .ident (plain "Vec"), .punct '<' false, .ident (plain "B"), .punct '>' false]] := rfl
  rw [parseFile?, hTokens]
  rfl

theorem aliasing_importedItems : Aliasing "A" (plain "B") ["app"] importedItems aliasedItems := by
  have hImports : importsOfAll [] (Module.useTrees importedItems) = [("A", ["m", "A"])] := rfl
  refine .here (@AliasedItems.intro _ _ [] [] _ _ _ _ ?_ .nil (.cons ?_ .nil)) ?_
  · exact .path (.name (by decide) rfl)
  · exact .struct .nil
  · refine ⟨by decide, fun target h => ?_, by decide, fun target other h hOther => ?_,
      fun target h => ?_⟩
    · rw [← mem_imports, hImports] at h
      simp [Ident.spelling, plain] at h
    · rw [← mem_imports, hImports, List.mem_singleton] at h hOther
      exact (Prod.mk.inj h).2.trans (Prod.mk.inj hOther).2.symm
    · rw [← mem_imports, hImports] at h
      simp only [List.mem_singleton, Prod.mk.injEq, true_and] at h
      subst h
      decide

theorem importedItems_classes :
    Aliasing "A" (plain "B") (QualifiedName.segments "app") importedItems aliasedItems ∧
      classesOfSource? ⟨[], none⟩ "app" "use m::A as B; struct S \x7b pub a: Vec<B> \x7d" =
        classesOfSource? ⟨[], none⟩ "app" "use m::A; struct S \x7b pub a: Vec<A> \x7d" := by
  have hModule : QualifiedName.segments "app" = ["app"] := by decide
  have hAliasing := hModule ▸ aliasing_importedItems
  exact ⟨hAliasing, classes_of_aliased ⟨[], none⟩ parse_importedItems parse_aliasedItems hAliasing⟩

/-! ## Aliases that are not transparent -/

/-- A single word that is imported and is no word for a structure stands for what it is imported
from, even if that is a type that is known by its structure. -/
theorem typeDescriptor_of_imported {module : Module} {ident : Ident} {target : List String}
    (hImport : module.imports.find? ident.spelling = some target) (hSelf : ident.spelling ≠ "Self")
    (hValue : target ≠ ["serde_json", "Value"]) (hStructure : structure? ident.spelling = none)
    (arguments : List TypeExpr) :
    typeDescriptor module (.path [] ident arguments) = some (QualifiedName.ofSegments target) := by
  have hResolve : module.resolve (spellings [] ident) = target := by
    change module.resolve [ident.spelling] = target
    rw [Module.resolve, hImport]
    exact List.append_nil target
  rw [← hResolve]
  refine typeDescriptor_named ?_ ?_ (hResolve ▸ hValue) arguments
  · rw [hStructure]
    rintro ⟨-, ⟨⟩⟩
  · exact fun hEq => hSelf (List.cons.inj hEq).1

/-- A module imported as `self`, with a class of it. -/
def selfItems : List Item :=
  [.use (.path (plain "m") (.group [.name (plain "self")])),
   .struct ⟨[], plain "S", .named [⟨[], true, plain "a", .path [plain "m"] (plain "A") []⟩]⟩]

def selfAliasItems : List Item :=
  [.use (.path (plain "m") (.group [.rename (plain "self") (plain "n")])),
   .struct ⟨[], plain "S", .named [⟨[], true, plain "a", .path [plain "n"] (plain "A") []⟩]⟩]

set_option maxRecDepth 10000 in
theorem parse_selfItems :
    parseFile? "use m::\x7bself\x7d; struct S \x7b pub a: m::A \x7d" = some selfItems := by
  have hTokens : tokenizeFile "use m::\x7bself\x7d; struct S \x7b pub a: m::A \x7d".toList =
      some [.ident (plain "use"), .ident (plain "m"), .punct ':' true, .punct ':' false,
        .group .brace [.ident (plain "self")], .punct ';' false, .ident (plain "struct"),
        .ident (plain "S"), .group .brace [.ident (plain "pub"), .ident (plain "a"),
          .punct ':' false, .ident (plain "m"), .punct ':' true, .punct ':' false,
          .ident (plain "A")]] := rfl
  rw [parseFile?, hTokens]
  rfl

set_option maxRecDepth 10000 in
theorem parse_selfAliasItems :
    parseFile? "use m::\x7bself as n\x7d; struct S \x7b pub a: n::A \x7d" =
      some selfAliasItems := by
  have hTokens : tokenizeFile
      "use m::\x7bself as n\x7d; struct S \x7b pub a: n::A \x7d".toList =
      some [.ident (plain "use"), .ident (plain "m"), .punct ':' true, .punct ':' false,
        .group .brace [.ident (plain "self"), .ident (plain "as"), .ident (plain "n")],
        .punct ';' false, .ident (plain "struct"), .ident (plain "S"),
        .group .brace [.ident (plain "pub"), .ident (plain "a"), .punct ':' false,
          .ident (plain "n"), .punct ':' true, .punct ':' false, .ident (plain "A")]] := rfl
  rw [parseFile?, hTokens]
  rfl

/-- The record `S` whose property `a` has the given descriptor. -/
def recordS (declared : String) : Class where
  name := "app::S"
  shape := .record [{ name := "a", declared := some declared, line := some 1 }]
  line := some 1

/-- An alias of a module that is imported as `self` leaves a segment too many. -/
theorem selfAlias_changes_class :
    classesOfSource? ⟨[], none⟩ "app" "use m::\x7bself\x7d; struct S \x7b pub a: m::A \x7d" =
        some [recordS "m::A"] ∧
      classesOfSource? ⟨[], none⟩ "app"
          "use m::\x7bself as n\x7d; struct S \x7b pub a: n::A \x7d" =
        some [recordS "m::self::A"] := by
  rw [classesOfSource?, classesOfSource?, parse_selfItems, parse_selfAliasItems]
  exact ⟨by decide, by decide⟩

end Ambient.Extraction
