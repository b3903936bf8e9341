import Ambient.Proofs.FieldType
import Ambient.Proofs.Imports
import Ambient.Proofs.ModuleTree
import Ambient.Proofs.PathText

/-!
# Paths to extracted classes

The extraction names a class on its way down the modules of a source, and it resolves a path from
the words of that path alone.  The two meet: whichever way a path leads to the place where a class
is declared, by `crate`, `self`, `super` or an import (`Names`), it stands for that class
(`class_paths_resolve`).
-/

namespace Ambient.Extraction

open Source

/-! ## Paths that name a place -/

/-- Whether a path, written in a module with the given path, leads to a place by one of the words
that start from the module itself.  At most so many steps go up that a segment is left. -/
inductive Addresses (module : List String) : List String → List String → Prop
  | fromCrate (below : List String) : Addresses module ("crate" :: below) (module.take 1 ++ below)
  | fromSelf (count : Nat) (below : List String) : count < module.length →
      Addresses module ("self" :: (List.replicate count "super" ++ below))
        (module.take (module.length - count) ++ below)
  | fromSuper (count : Nat) (below : List String) : 0 < count → count < module.length →
      Addresses module (List.replicate count "super" ++ below)
        (module.take (module.length - count) ++ below)

/-- Whether a path names a place in a module: it leads there, or an import binds its first word to a
path that leads there or to a module above.  A blank is no name. -/
inductive Names (module : List String) (items : List Item) : List String → List String → Prop
  | address {written place : List String} :
      Addresses module written place → Names module items written place
  | imported {name : String} {written place : List String} (rest : List String) : name ≠ "_" →
      Imports items name written → Addresses module written place →
      Names module items (name :: rest) (place ++ rest)

/-- Whether the imports among some items bind no name to two paths, and leave the words that paths
start with alone. -/
structure ClearImports (items : List Item) : Prop where
  once : ∀ name path other, name ≠ "_" → Imports items name path → Imports items name other →
    path = other
  notStart : ∀ name ∈ ["crate", "self", "super"], ∀ path, ¬Imports items name path

/-- Whether a class is declared at a place: a module of the source has an item that describes the
class, and the place is the path of that module and the word in the declaration. -/
def DeclaredAt (origin : Origin) (root : List String) (items : List Item) (place : List String)
    (c : Class) : Prop :=
  ∃ path content, Contains root items path content ∧
    ∃ item ∈ content, classOf? origin (Module.ofItems path content) item = some c ∧
      ∃ ident, declaredName? item = some ident ∧ place = path ++ [ident.name]

/-- Whether a word may be a segment of a path that is not spelled raw. -/
def IsPathWord (word : String) : Prop :=
  SpellsWord word.toList ∧ (word ∉ reserved ∨ word ∈ ["crate", "self", "super"])

/-! ## Going up -/

theorem ascend_of_not_mem {base below : List String} (h : "super" ∉ below) :
    Module.ascend base below = base ++ below := by
  unfold Module.ascend
  split
  · exact absurd (List.mem_cons_self ..) h
  · rfl

/-- Every `super` in front takes a segment away. -/
theorem ascend_replicate (base below : List String) (count : Nat) (h : "super" ∉ below) :
    Module.ascend base (List.replicate count "super" ++ below) =
      base.take (base.length - count) ++ below := by
  induction count generalizing base with
  | zero =>
    rw [List.replicate_zero, List.nil_append, Nat.sub_zero, List.take_length, ascend_of_not_mem h]
  | succ count ih =>
    rw [List.replicate_succ, List.cons_append, Module.ascend, ih, List.dropLast_eq_take,
      List.take_take, List.length_take]
    congr 2
    omega

section Addresses

variable {module written place : List String}

theorem Addresses.exists_append (h : Addresses module written place) (hModule : module ≠ []) :
    ∃ stem below, place = stem ++ below ∧ stem ≠ [] ∧ stem <+: module := by
  have hLength := List.length_pos_iff.mpr hModule
  cases h with
  | fromCrate below =>
    refine ⟨_, below, rfl, ?_, List.take_prefix _ _⟩
    rw [← List.length_pos_iff, List.length_take]
    omega
  | fromSelf count below hCount =>
    refine ⟨_, below, rfl, ?_, List.take_prefix _ _⟩
    rw [← List.length_pos_iff, List.length_take]
    omega
  | fromSuper count below _ hCount =>
    refine ⟨_, below, rfl, ?_, List.take_prefix _ _⟩
    rw [← List.length_pos_iff, List.length_take]
    omega

/-- A path that leads to a place is made that place. -/
theorem Addresses.absolute_eq (h : Addresses module written place) (hModule : module ≠ [])
    (hPlace : "super" ∉ place.tail) : Module.absolute module written = place := by
  have hLength := List.length_pos_iff.mpr hModule
  -- what is below the module that is reached is in the tail of the place
  have hBelow (count : Nat) (below : List String) (hCount : 0 < count)
      (hPlace : "super" ∉ (module.take count ++ below).tail) : "super" ∉ below := by
    obtain ⟨first, rest, rfl⟩ := List.exists_cons_of_ne_nil hModule
    obtain ⟨count, rfl⟩ : ∃ less, count = less + 1 := ⟨count - 1, by omega⟩
    exact fun hMem => hPlace (List.mem_append_right _ hMem)
  cases h with
  | fromCrate below =>
    exact ascend_of_not_mem (hBelow 1 below Nat.one_pos hPlace)
  | fromSelf count below hCount =>
    exact ascend_replicate module below count (hBelow _ below (by omega) hPlace)
  | fromSuper count below hSome hCount =>
    have hFree := hBelow _ below (by omega) hPlace
    obtain ⟨count, rfl⟩ : ∃ less, count = less + 1 := ⟨count - 1, by omega⟩
    exact ascend_replicate module below (count + 1) hFree

/-- The first word of a path that leads to a place is one that paths start with. -/
theorem Addresses.head_mem (h : Addresses module written place) :
    ∃ first rest, written = first :: rest ∧ first ∈ ["crate", "self", "super"] := by
  cases h with
  | fromCrate below => exact ⟨_, _, rfl, by decide⟩
  | fromSelf count below _ => exact ⟨_, _, rfl, by decide⟩
  | fromSuper count below hSome _ =>
    obtain ⟨count, rfl⟩ : ∃ less, count = less + 1 := ⟨count - 1, by omega⟩
    exact ⟨_, _, rfl, by decide⟩

end Addresses

/-! ## Resolving -/

section Names

variable {path : List String} {content : List Item} {written place : List String}

/-- A path that names a place resolves to it. -/
theorem Names.resolve_eq (h : Names path content written place) (hPath : path ≠ [])
    (hPlace : "super" ∉ place.tail) (hImports : ClearImports content) :
    (Module.ofItems path content).resolve written = place := by
  cases h with
  | address hAddress =>
    have hAbsolute := hAddress.absolute_eq hPath hPlace
    obtain ⟨first, rest, rfl, hFirst⟩ := hAddress.head_mem
    rw [Module.resolve, find?_imports_eq_none path (hImports.notStart first hFirst)]
    dsimp only
    rw [if_pos hFirst]
    exact hAbsolute
  | @imported name written place rest hName hImport hAddress =>
    have hTail : "super" ∉ place.tail := by
      obtain ⟨stem, below, hStem, hSome, -⟩ := hAddress.exists_append hPath
      have hPlaceSome : place ≠ [] := hStem ▸ List.append_ne_nil_of_left_ne_nil hSome below
      rw [List.tail_append_of_ne_nil hPlaceSome] at hPlace
      exact fun hMem => hPlace (List.mem_append_left _ hMem)
    have hFind := find?_imports path hImport fun other hOther =>
      hImports.once name other written hName hOther hImport
    rw [Module.resolve, hFind]
    dsimp only
    rw [hAddress.absolute_eq hPath hTail]

/-- A single word that names a place is bound by an import, or known to be no structure. -/
theorem Names.single {word : String} (h : Names path content [word] place)
    (hImports : ClearImports content) :
    ((Module.ofItems path content).imports.find? word).isSome ∨ structure? word = none := by
  generalize hWritten : [word] = written at h
  cases h with
  | address hAddress =>
    obtain ⟨first, rest, rfl, hFirst⟩ := hAddress.head_mem
    obtain ⟨rfl, -⟩ := List.cons.inj hWritten
    have hStarts : ∀ word ∈ ["crate", "self", "super"], structure? word = none := by decide
    exact .inr (hStarts word hFirst)
  | @imported name written place rest hName hImport hAddress =>
    obtain ⟨rfl, -⟩ := List.cons.inj hWritten
    have hFind := find?_imports path hImport fun other hOther =>
      hImports.once word other written hName hOther hImport
    exact .inl (by rw [hFind]; rfl)

theorem Names.ne_self (h : Names path content written place) (hContent : WellNamed content) :
    written ≠ ["Self"] := by
  rintro rfl
  generalize hWritten : ["Self"] = written at h
  cases h with
  | address hAddress =>
    obtain ⟨first, rest, rfl, hFirst⟩ := hAddress.head_mem
    obtain ⟨rfl, -⟩ := List.cons.inj hWritten
    exact absurd hFirst (by decide)
  | imported rest _ hImport _ =>
    obtain ⟨rfl, -⟩ := List.cons.inj hWritten
    exact hImport.ne_self hContent rfl

end Names

/-! ## Descriptors and parents -/

/-- What it means that a path, written in a module, stands for a class. -/
structure StandsFor (module : Module) (written : List String) (name : String) : Prop where
  asType : ∀ qualifiers last arguments, spellings qualifiers last = written →
    typeDescriptor module (.path qualifiers last arguments) = some name
  /-- In `extends` the path may be written in any way that is read as its words. -/
  asParent : ∀ attributes text idents, textOf? (entries attributes "ts") "extends" = some text →
    parsePath? text = some idents → idents.map Ident.spelling = written →
    parentOf? module attributes = some name
  /-- It may be written as its words with separators between them, if they are path words. -/
  asJoin : (∀ word ∈ written, IsPathWord word) → ∀ attributes,
    textOf? (entries attributes "ts") "extends" =
      some (QualifiedName.separator.intercalate written) →
    parentOf? module attributes = some name

theorem standsFor_of_names {path : List String} {content : List Item}
    {written place : List String} {crate : String} {rest : List String}
    (h : Names path content written place) (hPath : path ≠ []) (hContent : WellNamed content)
    (hImports : ClearImports content) (hPlace : place = crate :: rest) (hRest : "super" ∉ rest)
    (hCrate : crate ∉ knownCrates) (hValue : crate ≠ "serde_json") :
    StandsFor (Module.ofItems path content) written (QualifiedName.ofSegments place) := by
  subst hPlace
  have hResolve := h.resolve_eq hPath hRest hImports
  have hSome : written ≠ [] := by
    rintro rfl
    cases hResolve
  have hParent : ∀ attributes text idents,
      textOf? (entries attributes "ts") "extends" = some text → parsePath? text = some idents →
      idents.map Ident.spelling = written →
      parentOf? (Module.ofItems path content) attributes =
        some (QualifiedName.ofSegments (crate :: rest)) := by
    rintro attributes text idents hText hIdents rfl
    rw [parentOf?, hText, Option.bind_some, hIdents, Option.map_some, hResolve]
  refine ⟨?_, hParent, ?_⟩
  · rintro qualifiers last arguments rfl
    rw [← hResolve]
    refine typeDescriptor_named ?_ (h.ne_self hContent) ?_ arguments
    · rintro ⟨⟨hLength, hFree⟩ | ⟨root, hRoot, hHead⟩, hStructure⟩
      · -- a single word that names a place is imported or no word for a structure
        obtain rfl : qualifiers = [] := by simpa [spellings] using hLength
        rcases h.single hImports with hFound | hNone
        · rw [Option.isSome_iff_ne_none] at hFound
          exact hFound hFree
        · rw [hNone] at hStructure
          cases hStructure
      · rw [hResolve] at hHead
        exact hCrate (Option.some.inj hHead ▸ hRoot)
    · rw [hResolve]
      exact fun hJson => hValue (List.cons.inj hJson).1
  · intro hWords attributes hText
    obtain ⟨idents, hIdents, hSpellings⟩ := parsePath?_intercalate hSome
      (fun word hWord => (hWords word hWord).1) fun word hWord => (hWords word hWord).2
    exact hParent attributes _ idents hText hIdents hSpellings

/-- Every path that names the place of an extracted class stands for this class, in every module of
the source whose imports are clear. -/
theorem class_paths_resolve (origin : Origin) {moduleName source crate : String}
    {outer : List String} {items : List Item} (hSource : parseFile? source = some items)
    (hModule : QualifiedName.segments moduleName = crate :: outer) (hOuter : "super" ∉ outer)
    (hCrate : crate ∉ knownCrates) (hValue : crate ≠ "serde_json") :
    ∃ classes, classesOfSource? origin moduleName source = some classes ∧ ∀ c ∈ classes,
      (∃ place, DeclaredAt origin (crate :: outer) items place c) ∧
      ∀ place, DeclaredAt origin (crate :: outer) items place c →
        ∀ path content, Contains (crate :: outer) items path content → ClearImports content →
          ∀ written, Names path content written place →
            StandsFor (Module.ofItems path content) written c.name := by
  have hItems := parseFile?_wellNamed hSource
  refine ⟨classesOfItems origin (Module.ofItems (crate :: outer) items) items, ?_, ?_⟩
  · rw [classesOfSource?, hSource, Option.map_some, hModule]
  intro c hc
  constructor
  · obtain ⟨path, content, hContains, item, hItem, hClass⟩ := mem_classesOfItems.mp hc
    obtain ⟨ident, hIdent, -, -⟩ := name_of_classOf? hClass
    exact ⟨_, path, content, hContains, item, hItem, hClass, ident, hIdent, rfl⟩
  · rintro place ⟨home, homeContent, hHome, item, hItem, hClass, ident, hIdent, rfl⟩ path content
      hContains hImports written hNames
    obtain ⟨ident', hIdent', hName, -⟩ := name_of_classOf? hClass
    obtain rfl : ident = ident' := Option.some.inj (hIdent.symm.trans hIdent')
    obtain ⟨below, rfl, hBelow⟩ := hHome.declarable hItems
    have hDeclarable := declarable_of_declaredName?
      (wellNamed_iff.mp (hHome.wellNamed hItems) item hItem) hIdent
    -- no word that is declared, and no module of the source's own path, is a `super`
    have hFree : "super" ∉ outer ++ below.map Ident.name ++ [ident.name] := by
      rw [List.mem_append, List.mem_append, not_or, not_or]
      refine ⟨⟨hOuter, ?_⟩, ?_⟩
      · intro hMem
        obtain ⟨word, hWord, hSuper⟩ := List.mem_map.mp hMem
        exact (hBelow word hWord).notPathWord (hSuper ▸ by decide)
      · intro hMem
        exact hDeclarable.notPathWord (List.mem_singleton.mp hMem ▸ by decide)
    have hPath : path ≠ [] := by
      obtain ⟨lower, rfl⟩ := hContains.exists_append
      exact List.cons_ne_nil _ _
    rw [hName]
    exact standsFor_of_names hNames hPath (hContains.wellNamed hItems) hImports rfl hFree hCrate
      hValue

/-- The imports of a module inside `m`: the outer module, and a class of it by another name. -/
def innerItems : List Item :=
  [.use (.path (plain "crate") (.path (plain "m")
    (.group [.name (plain "self"), .rename (plain "A") (plain "B")])))]

def outerItems : List Item :=
  [.struct ⟨[], plain "A", .unit⟩, .module (plain "n") (some innerItems)]

def nestedTokens : List Token :=
  let word (name : String) : Token := .ident (plain name)
  let separator : List Token := [.punct ':' true, .punct ':' false]
  [word "mod", word "m", .group .brace
    [word "struct", word "A", .punct ';' false, word "mod", word "n", .group .brace
      ([word "use", word "crate"] ++ separator ++ [word "m"] ++ separator ++
        [.group .brace [word "self", .punct ',' false, word "A", word "as", word "B"],
          .punct ';' false])]]

set_option maxRecDepth 10000 in
theorem parse_outerItems : parseFile?
    "mod m \x7b struct A; mod n \x7b use crate::m::\x7bself, A as B\x7d; \x7d \x7d" =
      some [.module (plain "m") (some outerItems)] := by
  have hTokens : tokenizeFile
      "mod m \x7b struct A; mod n \x7b use crate::m::\x7bself, A as B\x7d; \x7d \x7d".toList =
        some nestedTokens := rfl
  rw [parseFile?, hTokens]
  rfl

theorem imports_innerItems {name : String} {path : List String} : Imports innerItems name path ↔
    (name = "m" ∧ path = ["crate", "m"]) ∨ (name = "B" ∧ path = ["crate", "m", "A"]) := by
  have hTable : importsOfAll [] (Module.useTrees innerItems) =
      [("m", ["crate", "m"]), ("B", ["crate", "m", "A"])] := rfl
  rw [← mem_imports, hTable]
  simp

theorem clearImports_innerItems : ClearImports innerItems where
  once name path other _ hPath hOther := by
    rw [imports_innerItems] at hPath hOther
    grind
  notStart name hName path hPath := by
    rw [imports_innerItems] at hPath
    grind

/-- The class is found by its new name, below its module, and by the words that paths start with. -/
theorem inner_paths_resolve :
    QualifiedName.segments "app" = ["app"] ∧
      Contains ["app"] [.module (plain "m") (some outerItems)] ["app", "m", "n"] innerItems ∧
        ClearImports innerItems ∧
          ∀ written ∈ [["B"], ["m", "A"], ["super", "A"], ["self", "super", "A"],
              ["crate", "m", "A"]],
            StandsFor (Module.ofItems ["app", "m", "n"] innerItems) written "app::m::A" := by
  let origin : Origin := ⟨[], none⟩
  have hModule : QualifiedName.segments "app" = ["app"] := by decide
  have hOuter : Contains ["app"] [.module (plain "m") (some outerItems)] ["app", "m"] outerItems :=
    Contains.root.inner (.head _)
  have hInner : Contains ["app"] [.module (plain "m") (some outerItems)] ["app", "m", "n"]
      innerItems :=
    hOuter.inner (.tail _ (.head _))
  obtain ⟨c, hClass, hName⟩ : ∃ c, classOf? origin (Module.ofItems ["app", "m"] outerItems)
      (.struct ⟨[], plain "A", .unit⟩) = some c ∧ c.name = "app::m::A" :=
    ⟨_, rfl, by decide⟩
  obtain ⟨classes, hClasses, hResolve⟩ := class_paths_resolve origin parse_outerItems hModule
    (by decide) (by decide) (by decide)
  have hDeclared : DeclaredAt origin ["app"] [.module (plain "m") (some outerItems)]
      ["app", "m", "A"] c :=
    ⟨_, _, hOuter, _, .head _, hClass, _, rfl, rfl⟩
  have hMem : c ∈ classes := by
    rw [classesOfSource?, parse_outerItems, Option.map_some, hModule] at hClasses
    rw [← Option.some.inj hClasses, mem_classesOfItems]
    exact ⟨_, _, hOuter, _, .head _, hClass⟩
  have hPaths := (hResolve c hMem).2 _ hDeclared _ _ hInner clearImports_innerItems
  rw [hName] at hPaths
  -- what the imports bind, and then one form of address for each path
  have hModuleImport : Imports innerItems "m" ["crate", "m"] :=
    imports_innerItems.mpr (.inl ⟨rfl, rfl⟩)
  have hClassImport : Imports innerItems "B" ["crate", "m", "A"] :=
    imports_innerItems.mpr (.inr ⟨rfl, rfl⟩)
  refine ⟨hModule, hInner, clearImports_innerItems, ?_⟩
  simp only [List.forall_mem_cons]
  refine ⟨hPaths _ (.imported [] (by decide) hClassImport (.fromCrate ["m", "A"])),
    hPaths _ (.imported ["A"] (by decide) hModuleImport (.fromCrate ["m"])),
    hPaths _ (.address (.fromSuper 1 ["A"] (by decide) (by decide))),
    hPaths _ (.address (.fromSelf 1 ["A"] (by decide))),
    hPaths _ (.address (.fromCrate ["m", "A"])), ?_⟩
  intro written hWritten
  cases hWritten

end Ambient.Extraction
