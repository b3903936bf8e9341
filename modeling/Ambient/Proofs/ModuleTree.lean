import Ambient.Extraction
import Ambient.Proofs.DeclaredNames

/-!
# The modules of a source

The modules of a source form a tree, and the extraction goes down this tree: it makes a class of an
item just if a module contains that item and the item is a record or an enumeration there
(`mem_classesOfItems`).  So every extracted class has a place, which is the path of its module and
the word it is declared under (`placed_of_mem_classesOfItems`).
-/

namespace Ambient.Extraction

open Source

/-- The modules of a source that is the module `root` and has the given items, each with its path
and its own items. -/
inductive Contains (root : List String) (items : List Item) : List String → List Item → Prop
  | root : Contains root items root items
  | inner {path : List String} {content inner : List Item} {ident : Ident} :
      Contains root items path content → .module ident (some inner) ∈ content →
      Contains root items (path ++ [ident.name]) inner

/-- The word that a record or an enumeration is declared under. -/
def declaredName? : Item → Option Ident
  | .struct item => some item.ident
  | .enum item => some item.ident
  | _ => none

/-- The class that an item of a module describes by itself. -/
def classOf? (origin : Origin) (module : Module) : Item → Option Class
  | .struct item => recordOf? origin module item
  | .enum item => enumerationOf? origin module item
  | _ => none

/-! ## Going down -/

section Contains

variable {root path : List String} {items content : List Item}

theorem Contains.trans {lower : List String} {deep : List Item}
    (h : Contains root items path content) (hLower : Contains path content lower deep) :
    Contains root items lower deep := by
  induction hLower with
  | root => exact h
  | inner hUpper hMem ih => exact .inner ih hMem

/-- The module of a source is a part of every path in it. -/
theorem Contains.exists_append (h : Contains root items path content) :
    ∃ below, path = root ++ below := by
  induction h with
  | root => exact ⟨[], (List.append_nil root).symm⟩
  | inner _ _ ih =>
    obtain ⟨below, rfl⟩ := ih
    exact ⟨_, List.append_assoc ..⟩

/-- Items without modules are all of their module. -/
theorem Contains.eq_of_no_module (hItems : ∀ ident inner, .module ident (some inner) ∉ items)
    (h : Contains root items path content) : path = root ∧ content = items := by
  induction h with
  | root => exact ⟨rfl, rfl⟩
  | inner _ hMem ih => exact absurd (ih.2 ▸ hMem) (hItems _ _)

theorem Contains.wellNamed (h : Contains root items path content) (hItems : WellNamed items) :
    WellNamed content := by
  induction h with
  | root => exact hItems
  | inner _ hMem ih => exact (wellNamed_iff.mp ih _ hMem).2

/-- Below the module of the source the segments of a path are words that can be declared. -/
theorem Contains.declarable (h : Contains root items path content) (hItems : WellNamed items) :
    ∃ below : List Ident, path = root ++ below.map Ident.name ∧
      ∀ ident ∈ below, ident.IsDeclarable := by
  induction h with
  | root => exact ⟨[], (List.append_nil root).symm, fun ident hMem => by cases hMem⟩
  | @inner path content _ ident hUpper hMem ih =>
    obtain ⟨below, rfl, hBelow⟩ := ih
    refine ⟨below ++ [ident], ?_, ?_⟩
    · rw [List.map_append, ← List.append_assoc]
      rfl
    · have hIdent := (wellNamed_iff.mp (hUpper.wellNamed hItems) _ hMem).1
      exact List.forall_mem_append.mpr ⟨hBelow, List.forall_mem_singleton.mpr hIdent⟩

end Contains

/-! ## The classes of a source -/

section Classes

variable {origin : Origin}

-- The items of a module are taken one by one, but they all belong to one module: so both statements
-- are about some of its items.
mutual

theorem contains_of_mem_classesOfItem {root : List String} {items : List Item} {item : Item}
    {c : Class} (hItem : item ∈ items)
    (h : c ∈ classesOfItem origin (Module.ofItems root items) item) :
    ∃ path content, Contains root items path content ∧
      ∃ item ∈ content, classOf? origin (Module.ofItems path content) item = some c := by
  match item with
  | .struct item => exact ⟨root, items, .root, _, hItem, Option.mem_toList.mp h⟩
  | .enum item => exact ⟨root, items, .root, _, hItem, Option.mem_toList.mp h⟩
  | .module ident (some inner) =>
    obtain ⟨path, content, hContains, hClass⟩ :=
      contains_of_mem_part (List.Subset.refl inner) h
    exact ⟨path, content, (Contains.root.inner hItem).trans hContains, hClass⟩
  | .module ident none => cases h
  | .use tree => cases h
  | .other => cases h

theorem contains_of_mem_part {root : List String} {items part : List Item} {c : Class}
    (hPart : part ⊆ items) (h : c ∈ classesOfItems origin (Module.ofItems root items) part) :
    ∃ path content, Contains root items path content ∧
      ∃ item ∈ content, classOf? origin (Module.ofItems path content) item = some c := by
  match part with
  | [] => cases h
  | item :: rest =>
    have hPart := List.cons_subset.mp hPart
    rcases List.mem_append.mp h with hFirst | hRest
    · exact contains_of_mem_classesOfItem hPart.1 hFirst
    · exact contains_of_mem_part hPart.2 hRest

end

theorem classesOfItem_subset {module : Module} {items : List Item} {item : Item}
    (h : item ∈ items) : classesOfItem origin module item ⊆ classesOfItems origin module items := by
  induction items with
  | nil => cases h
  | cons first rest ih =>
    intro c hc
    rcases List.mem_cons.mp h with rfl | hRest
    · exact List.mem_append_left _ hc
    · exact List.mem_append_right _ (ih hRest hc)

/-- The classes of a module are among those of the source. -/
theorem Contains.classesOfItems_subset {root path : List String} {items content : List Item}
    (h : Contains root items path content) :
    classesOfItems origin (Module.ofItems path content) content ⊆
      classesOfItems origin (Module.ofItems root items) items := by
  induction h with
  | root => exact List.Subset.refl _
  | @inner path content inner ident _ hMem ih =>
    intro c hc
    have hItem : c ∈ classesOfItem origin (Module.ofItems path content)
        (.module ident (some inner)) := by
      rw [classesOfItem]
      exact hc
    exact ih (classesOfItem_subset hMem hItem)

/-- The extraction makes a class of an item just if a module contains that item and the item
describes a class there. -/
theorem mem_classesOfItems {root : List String} {items : List Item} {c : Class} :
    c ∈ classesOfItems origin (Module.ofItems root items) items ↔
      ∃ path content, Contains root items path content ∧
        ∃ item ∈ content, classOf? origin (Module.ofItems path content) item = some c := by
  refine ⟨contains_of_mem_part (List.Subset.refl items), ?_⟩
  rintro ⟨path, content, hContains, item, hItem, hClass⟩
  refine hContains.classesOfItems_subset (classesOfItem_subset hItem ?_)
  match item, hClass with
  | .struct item, hClass => exact Option.mem_toList.mpr hClass
  | .enum item, hClass => exact Option.mem_toList.mpr hClass

/-! ## Places -/

/-- A class is named by the path of its module and the word that it is declared under. -/
theorem name_of_classOf? {module : Module} {item : Item} {c : Class}
    (h : classOf? origin module item = some c) :
    ∃ ident, declaredName? item = some ident ∧ c.name = module.qualify ident.name ∧
      c.file = origin.file := by
  match item, h with
  | .struct item, h =>
    obtain ⟨fields, -, rfl⟩ := Option.map_eq_some_iff.mp h
    exact ⟨item.ident, rfl, rfl, rfl⟩
  | .enum item, h =>
    rw [classOf?, enumerationOf?] at h
    split at h
    · cases h
    · cases h
      exact ⟨item.ident, rfl, rfl, rfl⟩

theorem declarable_of_declaredName? {item : Item} {ident : Ident} (hItem : item.WellNamed)
    (h : declaredName? item = some ident) : ident.IsDeclarable := by
  match item, h with
  | .struct item, h =>
    cases h
    exact hItem
  | .enum item, h =>
    cases h
    exact hItem

/-- Where a class of a source is declared: its name is that of the source's own module, of the
modules below it, and the word in its declaration, and all but the first are words that can be
declared. -/
theorem placed_of_mem_classesOfItems {root : List String} {items : List Item} {c : Class}
    (hItems : WellNamed items) (h : c ∈ classesOfItems origin (Module.ofItems root items) items) :
    ∃ below : List Ident, below ≠ [] ∧ (∀ ident ∈ below, ident.IsDeclarable) ∧
      c.name = QualifiedName.ofSegments (root ++ below.map Ident.name) ∧ c.file = origin.file := by
  obtain ⟨path, content, hContains, item, hItem, hClass⟩ := mem_classesOfItems.mp h
  obtain ⟨outer, rfl, hOuter⟩ := hContains.declarable hItems
  obtain ⟨ident, hIdent, hName, hFile⟩ := name_of_classOf? hClass
  have hDeclarable := declarable_of_declaredName?
    (wellNamed_iff.mp (hContains.wellNamed hItems) item hItem) hIdent
  refine ⟨outer ++ [ident], by simp, ?_, ?_, hFile⟩
  · exact List.forall_mem_append.mpr ⟨hOuter, List.forall_mem_singleton.mpr hDeclarable⟩
  · rw [hName, List.map_append, ← List.append_assoc]
    rfl

end Classes

end Ambient.Extraction
