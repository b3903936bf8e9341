import Ambient.NamespaceTree
import Mathlib.Data.List.Induction

/-!
# What a tree holds

There are two views of a tree.  `declaration?` looks a declaration up by its path and name, and
`entries` lists all declarations with their paths.  Filing changes each view in one place at most
(`declaration?_file`, `entries_file`), and so a tree made of entries with different places holds
these entries and nothing else (`entries_ofList`, `declaration?_ofList_of_mem`).
-/

namespace Ambient

namespace NamespaceTree

/-- The tree below a path of namespaces. -/
def within? (tree : NamespaceTree) : List String → Option NamespaceTree
  | [] => some tree
  | first :: rest => (tree.namespaces.find? first).bind (·.within? rest)

/-- The declaration of a name in the namespace at a path. -/
def declaration? (tree : NamespaceTree) (path : List String) (name : String) :
    Option Declaration :=
  (tree.within? path).bind (·.declarations.find? name)

mutual

/-- All declarations of a tree, each with its path. -/
def entries : NamespaceTree → List (List String × Declaration)
  | node namespaces declarations =>
    entriesOfNamespaces namespaces ++ declarations.map fun entry => ([], entry.2)

/-- All declarations of namespaces. -/
def entriesOfNamespaces : List (String × NamespaceTree) → List (List String × Declaration)
  | [] => []
  | (name, tree) :: rest =>
    tree.entries.map (fun entry => (name :: entry.1, entry.2)) ++ entriesOfNamespaces rest

end

/-- Where a declaration is filed: its path of namespaces and its name. -/
def place (entry : String × Declaration) : List String × String :=
  (QualifiedName.namespaces entry.1, entry.2.name)

/-! ## Looking up -/

theorem declaration?_nil (tree : NamespaceTree) (name : String) :
    tree.declaration? [] name = tree.declarations.find? name := rfl

theorem declaration?_cons (tree : NamespaceTree) (first : String) (rest : List String)
    (name : String) : tree.declaration? (first :: rest) name =
      (tree.namespaces.find? first).bind (·.declaration? rest name) := by
  unfold declaration?
  rw [within?, Option.bind_assoc]

theorem declaration?_empty (path : List String) (name : String) :
    empty.declaration? path name = none := by
  cases path <;> rfl

/-- A declaration is found where it was filed, unless an earlier one is there, and nothing else
changes. -/
theorem declaration?_file (tree : NamespaceTree) (path : List String) (declaration : Declaration)
    (path' : List String) (name : String) :
    (tree.file path declaration).declaration? path' name =
      if path' = path ∧ name = declaration.name then
        (tree.declaration? path' name).or (some declaration)
      else tree.declaration? path' name := by
  -- the path of the declaration leads down one branch; a path that leaves it finds the old tree
  induction path generalizing tree path' with
  | nil =>
    cases path' with
    | nil =>
      rw [file, declaration?_nil, declaration?_nil]
      show Table.find? (Table.add tree.declarations declaration.name declaration) name = _
      rw [Table.find?_add]
      simp
    | cons first rest => simp [file, declaration?_cons, namespaces]
  | cons first rest ih =>
    cases path' with
    | nil => simp [file, declaration?_nil, declarations]
    | cons first' rest' =>
      rw [file, declaration?_cons, declaration?_cons]
      show Option.bind (Table.find? (Table.set tree.namespaces first _) first') _ = _
      rw [Table.find?_set]
      by_cases hFirst : first' = first
      · subst hFirst
        rw [if_pos rfl, Option.bind_some, ih]
        -- a namespace that does not exist yet holds what the empty tree holds
        cases tree.namespaces.find? first' with
        | none => simp [declaration?_empty]
        | some child => simp
      · rw [if_neg hFirst, if_neg fun h => hFirst (List.cons.inj h.1).1]

/-! ## Listing -/

theorem entriesOfNamespaces_set {namespaces : Table NamespaceTree} {name : String}
    {tree : NamespaceTree} {entry : List String × Declaration}
    (h : tree.entries.Perm (entry :: ((namespaces.find? name).getD empty).entries)) :
    (entriesOfNamespaces (namespaces.set name tree)).Perm
      ((name :: entry.1, entry.2) :: entriesOfNamespaces namespaces) := by
  induction namespaces with
  | nil =>
    have hEntries : tree.entries.Perm [entry] := h
    rw [Table.set, entriesOfNamespaces]
    show (_ ++ []).Perm _
    rw [List.append_nil]
    exact hEntries.map _
  | cons first rest ih =>
    obtain ⟨other, old⟩ := first
    rw [Table.find?_cons] at h
    rw [Table.set]
    by_cases hName : name = other
    · -- the namespace is there: its entries get the new one
      subst hName
      rw [if_pos rfl, Option.getD_some] at h
      rw [if_pos BEq.rfl, entriesOfNamespaces, entriesOfNamespaces, ← List.cons_append]
      exact (h.map _).append_right _
    · rw [if_neg hName] at h
      rw [if_neg (by simpa using hName), entriesOfNamespaces, entriesOfNamespaces]
      exact ((ih h).append_left _).trans List.perm_middle

/-- Filing a declaration where there is none adds it. -/
theorem entries_file {tree : NamespaceTree} {path : List String} {declaration : Declaration}
    (hFree : tree.declaration? path declaration.name = none) :
    (tree.file path declaration).entries.Perm ((path, declaration) :: tree.entries) := by
  induction path generalizing tree with
  | nil =>
    obtain ⟨namespaces, declarations⟩ := tree
    have hNew : declaration.name ∉ Table.names declarations := Table.find?_eq_none.mp hFree
    show (node namespaces (Table.add declarations _ _)).entries.Perm _
    rw [Table.add, if_neg hNew, entries, entries, List.map_append, ← List.append_assoc]
    exact List.perm_append_singleton _ _
  | cons first rest ih =>
    obtain ⟨namespaces, declarations⟩ := tree
    -- a namespace that does not exist yet is free everywhere
    have hFreeBelow : ((Table.find? namespaces first).getD empty).declaration? rest
        declaration.name = none := by
      rw [declaration?_cons] at hFree
      change (Table.find? namespaces first).bind _ = none at hFree
      cases hChild : Table.find? namespaces first with
      | none => exact declaration?_empty _ _
      | some child =>
        rw [hChild] at hFree
        exact hFree
    show (node (Table.set namespaces first _) declarations).entries.Perm _
    rw [entries, entries, ← List.cons_append]
    exact (entriesOfNamespaces_set (ih hFreeBelow)).append_right _

/-- What a namespace lists comes from what was there, or from the tree that was put in its place. -/
theorem mem_entriesOfNamespaces_set {namespaces : Table NamespaceTree} {name : String}
    {tree : NamespaceTree} {entry : List String × Declaration}
    (h : entry ∈ entriesOfNamespaces (namespaces.set name tree)) :
    entry ∈ entriesOfNamespaces namespaces ∨
      ∃ below ∈ tree.entries, entry = (name :: below.1, below.2) := by
  have hTree : ∀ other, entry ∈ tree.entries.map (fun below => (other :: below.1, below.2)) →
      ∃ below ∈ tree.entries, entry = (other :: below.1, below.2) := by
    intro other hMem
    obtain ⟨below, hBelow, hEntry⟩ := List.mem_map.mp hMem
    exact ⟨below, hBelow, hEntry.symm⟩
  induction namespaces with
  | nil =>
    rw [Table.set, entriesOfNamespaces, List.mem_append] at h
    rcases h with h | h
    · exact .inr (hTree name h)
    · cases h
  | cons first rest ih =>
    obtain ⟨other, old⟩ := first
    rw [Table.set] at h
    rw [entriesOfNamespaces, List.mem_append]
    -- the tree takes the place of the one of its name, or comes last
    split at h
    · rename_i hName
      obtain rfl : name = other := by simpa using hName
      rw [entriesOfNamespaces, List.mem_append] at h
      rcases h with h | h
      · exact .inr (hTree name h)
      · exact .inl (.inr h)
    · rw [entriesOfNamespaces, List.mem_append] at h
      rcases h with h | h
      · exact .inl (.inl h)
      · exact (ih h).imp_left .inr

/-- The namespaces of a tree list what each of them lists. -/
theorem mem_entriesOfNamespaces_of_find? {namespaces : Table NamespaceTree} {name : String}
    {tree : NamespaceTree} (hFound : namespaces.find? name = some tree)
    {below : List String × Declaration} (hBelow : below ∈ tree.entries) :
    (name :: below.1, below.2) ∈ entriesOfNamespaces namespaces := by
  have hMem := Table.mem_of_find? hFound
  clear hFound
  induction namespaces with
  | nil => cases hMem
  | cons first rest ih =>
    obtain ⟨other, old⟩ := first
    rw [entriesOfNamespaces, List.mem_append]
    rcases List.mem_cons.mp hMem with hFirst | hMem
    · obtain ⟨rfl, rfl⟩ := Prod.mk.inj hFirst
      exact .inl (List.mem_map_of_mem (f := fun below => (name :: below.1, below.2)) hBelow)
    · exact .inr (ih hMem)

/-- Filing a declaration makes nothing else up. -/
theorem mem_entries_file {tree : NamespaceTree} {path : List String} {declaration : Declaration}
    {entry : List String × Declaration} (h : entry ∈ (tree.file path declaration).entries) :
    entry = (path, declaration) ∨ entry ∈ tree.entries := by
  induction path generalizing tree entry with
  | nil =>
    obtain ⟨namespaces, declarations⟩ := tree
    rw [file, entries, List.mem_append] at h
    rw [entries, List.mem_append]
    rcases h with h | h
    · exact .inr (.inl h)
    · obtain ⟨item, hItem, rfl⟩ := List.mem_map.mp h
      rcases Table.mem_of_mem_add hItem with hOld | rfl
      · exact .inr (.inr (List.mem_map_of_mem (f := fun entry => ([], entry.2)) hOld))
      · exact .inl rfl
  | cons first rest ih =>
    obtain ⟨namespaces, declarations⟩ := tree
    rw [file, entries, List.mem_append] at h
    rw [entries, List.mem_append]
    rcases h with h | h
    · rcases mem_entriesOfNamespaces_set h with hOld | ⟨below, hBelow, rfl⟩
      · exact .inr (.inl hOld)
      · rcases ih hBelow with rfl | hBelow
        · exact .inl rfl
        · -- what the namespace listed before it still lists, if it was there
          cases hChild : Table.find? namespaces first with
          | none =>
            have hNone : below ∈ ((Table.find? namespaces first).getD empty).entries := hBelow
            rw [hChild] at hNone
            cases hNone
          | some child =>
            have hSome : below ∈ ((Table.find? namespaces first).getD empty).entries := hBelow
            rw [hChild] at hSome
            exact .inr (.inl (mem_entriesOfNamespaces_of_find? hChild hSome))
    · exact .inr (.inr h)

/-! ## Trees made of a list -/

theorem ofList_concat (list : List (String × Declaration)) (entry : String × Declaration) :
    ofList (list ++ [entry]) = (ofList list).add entry.1 entry.2 := by
  simp [ofList]

/-- A place of a tree holds the first declaration that was filed there. -/
theorem declaration?_ofList (list : List (String × Declaration)) (path : List String)
    (name : String) : (ofList list).declaration? path name =
      (list.find? fun entry => place entry = (path, name)).map Prod.snd := by
  induction list using List.reverseRec with
  | nil => exact declaration?_empty path name
  | append_singleton list entry ih =>
    rw [ofList_concat, add, declaration?_file, ih, List.find?_append, List.find?_singleton]
    by_cases hPlace : place entry = (path, name)
    · have hHere : path = QualifiedName.namespaces entry.1 ∧ name = entry.2.name := by
        simpa [place, eq_comm] using hPlace
      rw [if_pos hHere, if_pos (decide_eq_true hPlace)]
      cases list.find? fun entry => place entry = (path, name) <;> rfl
    · have hElsewhere : ¬(path = QualifiedName.namespaces entry.1 ∧ name = entry.2.name) := by
        rintro ⟨rfl, rfl⟩
        exact hPlace rfl
      rw [if_neg hElsewhere, if_neg (by simpa using hPlace), Option.or_none]

/-- A declaration is found under its own name. -/
theorem name_of_declaration?_ofList {list : List (String × Declaration)} {path : List String}
    {name : String} {declaration : Declaration}
    (h : (ofList list).declaration? path name = some declaration) : declaration.name = name := by
  rw [declaration?_ofList] at h
  obtain ⟨entry, hEntry, rfl⟩ := Option.map_eq_some_iff.mp h
  have hPlace : place entry = (path, name) := by simpa using List.find?_some hEntry
  exact congrArg Prod.snd hPlace

/-- A tree lists nothing that was not filed. -/
theorem mem_of_mem_entries_ofList {list : List (String × Declaration)}
    {entry : List String × Declaration} (h : entry ∈ (ofList list).entries) :
    ∃ name, (name, entry.2) ∈ list ∧ entry.1 = QualifiedName.namespaces name := by
  induction list using List.reverseRec with
  | nil => cases h
  | append_singleton list last ih =>
    rw [ofList_concat, add] at h
    rcases mem_entries_file h with rfl | h
    · exact ⟨last.1, List.mem_append_right _ (.head _), rfl⟩
    · obtain ⟨name, hMem, hPath⟩ := ih h
      exact ⟨name, List.mem_append_left _ hMem, hPath⟩

section Distinct

variable {list : List (String × Declaration)} (hDistinct : (list.map place).Nodup)
include hDistinct

/-- Where all places are different, every declaration is found at its own. -/
theorem declaration?_ofList_of_mem {entry : String × Declaration} (hEntry : entry ∈ list) :
    (ofList list).declaration? (QualifiedName.namespaces entry.1) entry.2.name = some entry.2 := by
  rw [declaration?_ofList]
  induction list with
  | nil => cases hEntry
  | cons first rest ih =>
    rw [List.map_cons, List.nodup_cons] at hDistinct
    rw [List.find?_cons]
    rcases List.mem_cons.mp hEntry with rfl | hEntry
    · simp [place]
    · have hFirst : place first ≠ (QualifiedName.namespaces entry.1, entry.2.name) := fun h =>
        hDistinct.1 (h ▸ List.mem_map_of_mem (f := place) hEntry)
      rw [decide_eq_false hFirst]
      exact ih hDistinct.2 hEntry

/-- Where all places are different, the tree holds just what was filed. -/
theorem entries_ofList : (ofList list).entries.Perm
    (list.map fun entry => (QualifiedName.namespaces entry.1, entry.2)) := by
  induction list using List.reverseRec with
  | nil => exact .nil
  | append_singleton list entry ih =>
    rw [List.map_append, List.nodup_append] at hDistinct
    -- the last entry finds its place empty, since no earlier one has gone there
    have hFree : (ofList list).declaration? (QualifiedName.namespaces entry.1) entry.2.name =
        none := by
      rw [declaration?_ofList, Option.map_eq_none_iff, List.find?_eq_none]
      intro earlier hEarlier hSame
      exact hDistinct.2.2 (place earlier) (List.mem_map_of_mem hEarlier) (place entry)
        (List.mem_singleton_self _) (of_decide_eq_true hSame)
    rw [ofList_concat, add, List.map_append]
    exact (entries_file hFree).trans
      (((ih hDistinct.1).cons _).trans (List.perm_append_singleton _ _).symm)

end Distinct

end NamespaceTree

end Ambient
