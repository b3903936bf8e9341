import Ambient.Extraction.Module
import Ambient.Proofs.DeclaredNames

/-!
# What the imports of a module bind

An import is a tree, and what it binds is said by the tree's leaves: each binds a name to the path
that leads to it (`UseTree.Binds`).  A name that the imports of a module bind to one path only is
found there, made absolute (`find?_imports`), and a name that they bind to none is not found
(`find?_imports_eq_none`).
-/

namespace Ambient.Source

/-- Whether an import, below a path that leads to it, binds a name to a path.  A `self` binds the
module that leads to it. -/
inductive UseTree.Binds : List String → UseTree → String → List String → Prop
  | name {leading : List String} {ident : Ident} : ident.spelling ≠ "self" →
      Binds leading (.name ident) ident.spelling (leading ++ [ident.spelling])
  | itself {leading : List String} {last : String} {ident : Ident} : ident.spelling = "self" →
      leading.getLast? = some last → Binds leading (.name ident) last leading
  | rename {leading : List String} {ident bound : Ident} :
      Binds leading (.rename ident bound) bound.spelling (leading ++ [ident.spelling])
  | path {leading : List String} {ident : Ident} {tree : UseTree} {name : String}
      {path : List String} :
      Binds (leading ++ [ident.spelling]) tree name path →
      Binds leading (.path ident tree) name path
  | group {leading : List String} {trees : List UseTree} {tree : UseTree} {name : String}
      {path : List String} :
      tree ∈ trees → Binds leading tree name path → Binds leading (.group trees) name path

/-- Whether a `use` item among some items binds a name to a path. -/
def Imports (items : List Item) (name : String) (path : List String) : Prop :=
  ∃ tree, .use tree ∈ items ∧ tree.Binds [] name path

theorem words_subset_wordsOfTrees {trees : List UseTree} {tree : UseTree} (h : tree ∈ trees) :
    tree.words ⊆ wordsOfTrees trees := by
  induction trees with
  | nil => cases h
  | cons first rest ih =>
    intro ident hIdent
    rcases List.mem_cons.mp h with rfl | hRest
    · exact List.mem_append_left _ hIdent
    · exact List.mem_append_right _ (ih hRest hIdent)

/-- A bound name is a word of the import, or one that leads to it. -/
theorem UseTree.Binds.mem_words {leading path : List String} {tree : UseTree} {name : String}
    (h : tree.Binds leading name path) :
    name ∈ leading ∨ ∃ ident ∈ tree.words, ident.spelling = name := by
  induction h with
  | @name _ ident _ => exact .inr ⟨ident, List.mem_singleton_self ident, rfl⟩
  | itself _ hLast => exact .inl (List.mem_of_getLast? hLast)
  | @rename _ ident bound => exact .inr ⟨bound, List.mem_cons_of_mem _ (.head _), rfl⟩
  | @path _ ident _ _ _ _ ih =>
    rcases ih with hLeading | ⟨word, hWord, hSpelling⟩
    · rcases List.mem_append.mp hLeading with hLeading | hLast
      · exact .inl hLeading
      · exact .inr ⟨ident, .head _, (List.mem_singleton.mp hLast).symm⟩
    · exact .inr ⟨word, List.mem_cons_of_mem _ hWord, hSpelling⟩
  | group hMem _ ih =>
    exact ih.imp_right fun ⟨word, hWord, hSpelling⟩ =>
      ⟨word, words_subset_wordsOfTrees hMem hWord, hSpelling⟩

/-- No import of a source binds `Self`. -/
theorem Imports.ne_self {items : List Item} {name : String} {path : List String}
    (hItems : WellNamed items) (h : Imports items name path) : name ≠ "Self" := by
  obtain ⟨tree, hTree, hBinds⟩ := h
  rcases hBinds.mem_words with hLeading | ⟨ident, hIdent, rfl⟩
  · cases hLeading
  · exact wellNamed_iff.mp hItems _ hTree ident hIdent

end Ambient.Source

namespace Ambient.Extraction

open Source

/-! ## The table of imports -/

mutual

theorem mem_importsOf {leading : List String} {tree : UseTree} {name : String}
    {path : List String} :
    (name, path) ∈ importsOf leading tree ↔ tree.Binds leading name path := by
  -- along the form of the tree; `self` alone needs to know what leads to it
  match tree with
  | .path ident tree =>
    rw [importsOf, mem_importsOf]
    exact ⟨.path, fun | .path h => h⟩
  | .name ident =>
    rw [importsOf]
    split
    · rename_i hSelf
      have hSelf : ident.spelling = "self" := by simpa using hSelf
      constructor
      · intro h
        cases hLast : leading.getLast? with
        | none =>
          rw [hLast] at h
          cases h
        | some last =>
          rw [hLast] at h
          obtain ⟨rfl, rfl⟩ := Prod.mk.inj (List.mem_singleton.mp h)
          exact .itself hSelf hLast
      · intro h
        cases h with
        | name hOther => exact absurd hSelf hOther
        | itself _ hLast =>
          rw [hLast]
          exact List.mem_singleton_self _
    · rename_i hOther
      have hOther : ident.spelling ≠ "self" := by simpa using hOther
      constructor
      · intro h
        obtain ⟨rfl, rfl⟩ := Prod.mk.inj (List.mem_singleton.mp h)
        exact .name hOther
      · intro h
        cases h with
        | name _ => exact List.mem_singleton_self _
        | itself hSelf _ => exact absurd hSelf hOther
  | .rename ident bound =>
    rw [importsOf, List.mem_singleton]
    constructor
    · rintro ⟨⟩
      exact .rename
    · rintro ⟨⟩
      rfl
  | .glob =>
    exact ⟨fun h => (by cases h), fun h => (by cases h)⟩
  | .group trees =>
    rw [importsOf, mem_importsOfAll]
    constructor
    · rintro ⟨tree, hTree, h⟩
      exact .group hTree h
    · rintro ⟨⟩
      exact ⟨_, ‹_›, ‹_›⟩

theorem mem_importsOfAll {leading : List String} {trees : List UseTree} {name : String}
    {path : List String} : (name, path) ∈ importsOfAll leading trees ↔
      ∃ tree ∈ trees, tree.Binds leading name path := by
  match trees with
  | [] => simp [importsOfAll]
  | tree :: rest =>
    rw [importsOfAll, List.mem_append, mem_importsOf, mem_importsOfAll]
    simp

end

theorem mem_useTrees {items : List Item} {tree : UseTree} :
    tree ∈ Module.useTrees items ↔ .use tree ∈ items := by
  rw [Module.useTrees, List.mem_filterMap]
  constructor
  · rintro ⟨item, hItem, hTree⟩
    cases item with
    | use other =>
      cases hTree
      exact hItem
    | _ => cases hTree
  · exact fun h => ⟨_, h, rfl⟩

theorem mem_imports {items : List Item} {name : String} {path : List String} :
    (name, path) ∈ importsOfAll [] (Module.useTrees items) ↔ Imports items name path := by
  rw [mem_importsOfAll]
  exact exists_congr fun tree => and_congr_left fun _ => mem_useTrees

section Imports

variable {items : List Item} {name : String} {path : List String}

/-- A name that is bound to one path only is found there. -/
theorem find?_imports (root : List String) (h : Imports items name path)
    (hOnce : ∀ other, Imports items name other → other = path) :
    (Module.ofItems root items).imports.find? name = some (Module.absolute root path) := by
  rw [Module.ofItems, Table.find?_ofLast]
  refine Table.find?_eq_of_forall ?_ ?_
  · exact List.mem_reverse.mpr (List.mem_map.mpr ⟨(name, path), mem_imports.mpr h, rfl⟩)
  · intro other hOther
    obtain ⟨⟨_, written⟩, hWritten, hEq⟩ := List.mem_map.mp (List.mem_reverse.mp hOther)
    obtain ⟨rfl, rfl⟩ := Prod.mk.inj hEq
    rw [hOnce written (mem_imports.mp hWritten)]

/-- A name that is bound to no path is not found. -/
theorem find?_imports_eq_none (root : List String) (h : ∀ path, ¬Imports items name path) :
    (Module.ofItems root items).imports.find? name = none := by
  rw [Module.ofItems, Table.find?_ofLast, Table.find?_eq_none]
  intro hMem
  obtain ⟨⟨_, value⟩, hEntry, rfl⟩ := List.mem_map.mp hMem
  obtain ⟨⟨_, written⟩, hWritten, hEq⟩ := List.mem_map.mp (List.mem_reverse.mp hEntry)
  obtain ⟨rfl, rfl⟩ := Prod.mk.inj hEq
  exact h written (mem_imports.mp hWritten)

end Imports

end Ambient.Extraction
