import Ambient.Proofs.FirstEntries
import Ambient.Proofs.NamespaceTree
import Mathlib.Data.List.Infix

/-!
# Filing

A tree is filled from a row of filings, each a declaration with the path of namespaces that it goes
to.  What it looks like afterwards can be read off the row (`fileAll_eq`): its namespaces are the
first parts of the paths, each filled from what goes below it, and its declarations are the first
ones of their names with an empty path.

* `within?_fileAll`: the same at any depth.
* `Listed.file`, `listed_fileAll`: a tree lists each place once, and lists there what is found
  there.
-/

namespace Ambient

namespace Table

variable {α : Type} {names : List String} {name : String}

theorem set_of_not_mem {table : Table α} (h : name ∉ table.names) (value : α) :
    table.set name value = table ++ [(name, value)] := by
  induction table with
  | nil => rfl
  | cons entry rest ih =>
    obtain ⟨hFirst, hRest⟩ := List.ne_and_not_mem_of_not_mem_cons h
    rw [set, if_neg (by simpa using hFirst), ih hRest]
    rfl

theorem mem_of_mem_set {table : Table α} {value : α} {entry : String × α}
    (h : entry ∈ table.set name value) : entry ∈ table ∨ entry = (name, value) := by
  induction table with
  | nil => exact .inr (List.mem_singleton.mp h)
  | cons first rest ih =>
    obtain ⟨other, old⟩ := first
    rw [set] at h
    split at h
    · rename_i hName
      obtain rfl : name = other := by simpa using hName
      exact (List.mem_cons.mp h).symm.imp_left (.tail _)
    · rcases List.mem_cons.mp h with rfl | h
      · exact .inl (.head _)
      · exact (ih h).imp_left (.tail _)

/-- Putting in what is there changes nothing. -/
theorem set_of_find? {table : Table α} {value : α} (h : table.find? name = some value) :
    table.set name value = table := by
  induction table with
  | nil => cases h
  | cons entry rest ih =>
    obtain ⟨other, old⟩ := entry
    rw [find?_cons] at h
    by_cases hName : name = other
    · rw [if_pos hName] at h
      obtain rfl : old = value := Option.some.inj h
      rw [set, if_pos (by simpa using hName)]
    · rw [if_neg hName] at h
      rw [set, if_neg (by simpa using hName), ih h]

/-- The table in which the value of a name is made from it. -/
def ofNames (names : List String) (value : String → α) : Table α :=
  names.map fun name => (name, value name)

theorem names_ofNames (names : List String) (value : String → α) :
    (ofNames names value).names = names := by
  rw [Table.names, ofNames, List.map_map]
  exact List.map_id _

theorem ofNames_congr {value value' : String → α} (h : ∀ name ∈ names, value name = value' name) :
    ofNames names value = ofNames names value' :=
  List.map_congr_left fun name hName => congrArg (Prod.mk name) (h name hName)

theorem find?_ofNames (value : String → α) :
    (ofNames names value).find? name = if name ∈ names then some (value name) else none := by
  induction names with
  | nil => rfl
  | cons first rest ih =>
    rw [ofNames, List.map_cons, find?_cons]
    by_cases hName : name = first
    · rw [if_pos hName, if_pos (hName ▸ .head _), hName]
    · rw [if_neg hName, ← ofNames, ih]
      simp only [List.mem_cons, hName, false_or]

/-- A name that is there has its value replaced. -/
theorem set_ofNames_of_mem (hNodup : names.Nodup) (h : name ∈ names) (old : String → α)
    (value : α) : (ofNames names old).set name value =
      ofNames names fun other => if other = name then value else old other := by
  induction names with
  | nil => cases h
  | cons first rest ih =>
    obtain ⟨hNew, hRest⟩ := List.nodup_cons.mp hNodup
    rw [ofNames, List.map_cons, set, ofNames, List.map_cons, ← ofNames, ← ofNames]
    by_cases hName : name = first
    · subst hName
      -- the name is not repeated, so the others keep their values
      have hOthers : ofNames rest old =
          ofNames rest fun other => if other = name then value else old other :=
        ofNames_congr fun other hOther =>
          (if_neg fun hSame : other = name => hNew (hSame ▸ hOther)).symm
      rw [if_pos BEq.rfl, if_pos rfl, hOthers]
    · rw [if_neg (by simpa using hName), if_neg (Ne.symm hName),
        ih hRest ((List.mem_cons.mp h).resolve_left hName)]

/-- Setting one value is adding its name to the names and changing what is made from it. -/
theorem set_ofNames_eraseDups {old new : String → α}
    (h : ∀ other ∈ names, other ≠ name → new other = old other) :
    (ofNames names.eraseDups old).set name (new name) =
      ofNames (names ++ [name]).eraseDups new := by
  rw [eraseDups_concat]
  by_cases hMem : name ∈ names
  · rw [if_pos hMem, set_ofNames_of_mem (nodup_eraseDups names) (List.mem_eraseDups.mpr hMem)]
    refine ofNames_congr fun other hOther => ?_
    split
    · rename_i hSame
      rw [hSame]
    · rename_i hName
      exact (h other (List.mem_eraseDups.mp hOther) hName).symm
  · -- a new name goes to the end
    have hNew : name ∉ (ofNames names.eraseDups old).names := by
      rw [names_ofNames, List.mem_eraseDups]
      exact hMem
    have hOld : ofNames names.eraseDups old = ofNames names.eraseDups new :=
      ofNames_congr fun other hOther =>
        have hOther := List.mem_eraseDups.mp hOther
        (h other hOther fun hSame => hMem (hSame ▸ hOther)).symm
    rw [if_neg hMem, set_of_not_mem hNew, hOld, ofNames, ofNames, List.map_append,
      List.map_singleton]

end Table

/-! ## Rows of filings -/

/-- Declarations in the order of their filing, each with its path of namespaces. -/
abbrev Filings := List (List String × Declaration)

namespace Filings

/-- The first parts of the paths. -/
def heads (filings : Filings) : List String :=
  filings.filterMap (·.1.head?)

/-- What goes below a path, with the rest of its own path. -/
def below (path : List String) (filings : Filings) : Filings :=
  filings.filterMap fun filing => (path.isPrefixOf? filing.1).map (·, filing.2)

/-- What goes to no namespace, by its name. -/
def here (filings : Filings) : List (String × Declaration) :=
  filings.filterMap fun filing =>
    if filing.1 = [] then some (filing.2.name, filing.2) else none

variable {filings : Filings} {path : List String} {name : String}

theorem mem_heads : name ∈ heads filings ↔ ∃ filing ∈ filings, [name] <+: filing.1 := by
  simp only [heads, List.mem_filterMap]
  refine exists_congr fun filing => and_congr_right fun _ => ?_
  cases filing.1 with
  | nil => simp
  | cons first rest => simp [eq_comm]

theorem below_nil (filings : Filings) : below [] filings = filings := by
  simp [below, List.isPrefixOf?]

theorem below_cons (first : String) (rest : List String) (filings : Filings) :
    below (first :: rest) filings = below rest (below [first] filings) := by
  simp only [below, List.filterMap_filterMap]
  congr 1
  funext filing
  cases filing.1 with
  | nil => rfl
  | cons first' rest' =>
    by_cases hFirst : first = first'
    · simp [List.isPrefixOf?, hFirst]
    · simp [List.isPrefixOf?, hFirst]

theorem mem_below {rest : List String} {declaration : Declaration} :
    (rest, declaration) ∈ below path filings ↔ (path ++ rest, declaration) ∈ filings := by
  simp only [below, List.mem_filterMap, Option.map_eq_some_iff, Prod.mk.injEq,
    List.isPrefixOf?_eq_some_iff_append_eq]
  constructor
  · rintro ⟨⟨whole, declaration'⟩, hMem, rest', rfl, rfl, rfl⟩
    exact hMem
  · intro hMem
    exact ⟨_, hMem, rest, rfl, rfl, rfl⟩

theorem below_singleton_of_not_mem_heads (h : name ∉ heads filings) :
    below [name] filings = [] := by
  refine List.eq_nil_iff_forall_not_mem.mpr fun ⟨rest, declaration⟩ hMem => h ?_
  exact mem_heads.mpr ⟨_, mem_below.mp hMem, List.prefix_append _ _⟩

theorem below_singleton_concat (name first : String) (rest : List String)
    (declaration : Declaration) :
    below [name] (filings ++ [(first :: rest, declaration)]) =
      below [name] filings ++ if name = first then [(rest, declaration)] else [] := by
  rw [below, List.filterMap_append]
  by_cases hName : name = first
  · simp [hName, List.isPrefixOf?, below]
  · simp [hName, List.isPrefixOf?, below]

theorem heads_concat (filings : Filings) (first : String) (rest : List String)
    (declaration : Declaration) :
    heads (filings ++ [(first :: rest, declaration)]) = heads filings ++ [first] := by
  simp [heads]

theorem here_concat (filings : Filings) (first : String) (rest : List String)
    (declaration : Declaration) :
    here (filings ++ [(first :: rest, declaration)]) = here filings := by
  simp [here]

theorem heads_below (path : List String) (filings : Filings) :
    heads (below path filings) =
      filings.filterMap fun filing => (path.isPrefixOf? filing.1).bind List.head? := by
  rw [heads, below, List.filterMap_filterMap]
  congr 1
  funext filing
  cases path.isPrefixOf? filing.1 <;> rfl

/-- What is filed under a path itself. -/
theorem here_below (path : List String) (filings : Filings) :
    here (below path filings) =
      (filings.filter (·.1 = path)).map fun filing => (filing.2.name, filing.2) := by
  induction filings with
  | nil => rfl
  | cons first rest ih =>
    by_cases hPath : first.1 = path
    · have hFirst : path.isPrefixOf? first.1 = some [] := by
        simp [hPath]
      rw [List.filter_cons_of_pos (by simpa using hPath), List.map_cons, ← ih]
      simp [here, below, hFirst]
    · rw [List.filter_cons_of_neg (by simpa using hPath), ← ih]
      cases hRest : path.isPrefixOf? first.1 with
      | none => simp [below, hRest]
      | some below' =>
        -- it goes to a namespace below the path
        have hBelow : below' ≠ [] := by
          rintro rfl
          exact hPath (by simpa using (List.isPrefixOf?_eq_some_iff_append_eq.mp hRest).symm)
        simp [here, below, hRest, hBelow]

/-- The path is the start of the path of a filing; the empty path is used without one. -/
def Uses (filings : Filings) (path : List String) : Prop :=
  path = [] ∨ ∃ filing ∈ filings, path <+: filing.1

theorem uses_cons {first : String} {rest : List String} :
    Uses filings (first :: rest) ↔ first ∈ heads filings ∧ Uses (below [first] filings) rest := by
  rw [mem_heads]
  constructor
  · rintro (hNil | ⟨⟨whole, declaration⟩, hMem, last, rfl⟩)
    · cases hNil
    · have hBelow : (rest ++ last, declaration) ∈ below [first] filings := mem_below.mpr hMem
      exact ⟨⟨_, hMem, List.prefix_append [first] (rest ++ last)⟩,
        .inr ⟨_, hBelow, List.prefix_append _ _⟩⟩
  · rintro ⟨hFirst, rfl | ⟨⟨more, declaration⟩, hMem, hRest⟩⟩
    · exact .inr hFirst
    · exact .inr ⟨_, mem_below.mp hMem, List.prefix_cons_iff.mpr (.inr ⟨rest, rfl, hRest⟩)⟩

end Filings

namespace NamespaceTree

open Filings

/-! ## The tree of a row of filings -/

/-- Files declarations, each under its path of namespaces. -/
def fileAll (filings : Filings) : NamespaceTree :=
  filings.foldl (fun tree filing => tree.file filing.1 filing.2) empty

theorem ofList_eq_fileAll (calls : List (String × Declaration)) :
    ofList calls =
      fileAll (calls.map fun call => (QualifiedName.namespaces call.1, call.2)) := by
  rw [fileAll, List.foldl_map]
  rfl

theorem fileAll_concat (filings : Filings) (path : List String) (declaration : Declaration) :
    fileAll (filings ++ [(path, declaration)]) = (fileAll filings).file path declaration := by
  simp [fileAll]

theorem file_node_cons (namespaces : Table NamespaceTree) (declarations : Table Declaration)
    (first : String) (rest : List String) (declaration : Declaration) :
    (node namespaces declarations).file (first :: rest) declaration =
      node (namespaces.set first (((namespaces.find? first).getD empty).file rest declaration))
        declarations := rfl

/-- The tree of what goes below each of the first parts. -/
def children (filings : Filings) : Table NamespaceTree :=
  Table.ofNames (heads filings).eraseDups fun name => fileAll (below [name] filings)

theorem find?_children (filings : Filings) (name : String) : (children filings).find? name =
    if name ∈ heads filings then some (fileAll (below [name] filings)) else none := by
  rw [children, Table.find?_ofNames]
  simp only [List.mem_eraseDups]

/-- A namespace that is not there holds what goes below it, which is nothing. -/
theorem getD_find?_children (filings : Filings) (name : String) :
    ((children filings).find? name).getD empty = fileAll (below [name] filings) := by
  rw [find?_children]
  split
  · rfl
  · rename_i hNew
    rw [below_singleton_of_not_mem_heads hNew]
    rfl

/-- A filing below a namespace changes that namespace only. -/
theorem children_concat (filings : Filings) (first : String) (rest : List String)
    (declaration : Declaration) :
    children (filings ++ [(first :: rest, declaration)]) =
      (children filings).set first ((fileAll (below [first] filings)).file rest declaration) := by
  have hFirst : fileAll (below [first] (filings ++ [(first :: rest, declaration)])) =
      (fileAll (below [first] filings)).file rest declaration := by
    rw [below_singleton_concat, if_pos rfl, fileAll_concat]
  have hOther (name : String) (hName : name ≠ first) :
      fileAll (below [name] (filings ++ [(first :: rest, declaration)])) =
        fileAll (below [name] filings) := by
    rw [below_singleton_concat, if_neg hName, List.append_nil]
  rw [children, heads_concat, ← Table.set_ofNames_eraseDups fun name _ => hOther name, hFirst,
    children]

/-- The namespaces of a tree stand in the order of their first use, and each is the tree of what was
filed below it.  Its declarations are the first ones of their names. -/
theorem fileAll_eq (filings : Filings) :
    fileAll filings = node (children filings) (Table.ofFirst (here filings)) := by
  -- filing is a fold, so the last filing is the one that acts on a known tree
  induction filings using List.reverseRec with
  | nil => rfl
  | append_singleton filings last ih =>
    obtain ⟨path, declaration⟩ := last
    rw [fileAll_concat, ih]
    cases path with
    | nil =>
      -- a declaration at the root leaves the namespaces as they are
      have hHeads : heads (filings ++ [([], declaration)]) = heads filings := by simp [heads]
      have hBelow (name : String) :
          below [name] (filings ++ [([], declaration)]) = below [name] filings := by
        simp [below, List.isPrefixOf?]
      have hChildren : children (filings ++ [([], declaration)]) = children filings := by
        simp only [children, hHeads, hBelow]
      have hHere : here (filings ++ [([], declaration)]) =
          here filings ++ [(declaration.name, declaration)] := by simp [here]
      rw [hChildren, hHere, Table.ofFirst_concat]
      rfl
    | cons first rest =>
      rw [file_node_cons, getD_find?_children, children_concat, here_concat]

/-- The namespaces of a tree are the starts of the paths, and each is the tree of what was filed
below it. -/
theorem within?_fileAll {filings : Filings} {path : List String} {tree : NamespaceTree} :
    (fileAll filings).within? path = some tree ↔
      Uses filings path ∧ tree = fileAll (below path filings) := by
  induction path generalizing filings with
  | nil =>
    rw [within?, below_nil, Option.some.injEq, eq_comm]
    exact ⟨fun h => ⟨.inl rfl, h⟩, And.right⟩
  | cons first rest ih =>
    have hFound : (fileAll filings).namespaces.find? first =
        if first ∈ heads filings then some (fileAll (below [first] filings)) else none := by
      rw [fileAll_eq]
      exact find?_children filings first
    rw [within?, hFound, uses_cons, below_cons first rest filings]
    by_cases hFirst : first ∈ heads filings
    · rw [if_pos hFirst, Option.bind_some, ih, and_assoc, and_iff_right hFirst]
    · rw [if_neg hFirst, Option.bind_none, and_assoc]
      exact iff_of_false (fun h => by cases h) fun h => hFirst h.1

/-! ## What a tree lists -/

theorem mem_entries_of_declaration? {tree : NamespaceTree} {path : List String} {name : String}
    {declaration : Declaration} (h : tree.declaration? path name = some declaration) :
    (path, declaration) ∈ tree.entries := by
  induction path generalizing tree with
  | nil =>
    obtain ⟨namespaces, declarations⟩ := tree
    rw [entries]
    exact List.mem_append_right _
      (List.mem_map_of_mem (f := fun entry => ([], entry.2)) (Table.mem_of_find? h))
  | cons first rest ih =>
    obtain ⟨namespaces, declarations⟩ := tree
    rw [declaration?_cons] at h
    obtain ⟨child, hChild, hBelow⟩ := Option.bind_eq_some_iff.mp h
    rw [entries]
    exact List.mem_append_left _ (mem_entriesOfNamespaces_of_find? hChild (ih hBelow))

/-- Where a declaration is already, another one is not filed. -/
theorem file_of_declaration? {tree : NamespaceTree} {path : List String}
    {declaration old : Declaration} (h : tree.declaration? path declaration.name = some old) :
    tree.file path declaration = tree := by
  induction path generalizing tree with
  | nil =>
    obtain ⟨namespaces, declarations⟩ := tree
    have hName : declaration.name ∈ Table.names declarations :=
      List.mem_map_of_mem (f := Prod.fst) (Table.mem_of_find? h)
    show node namespaces (Table.add declarations _ _) = _
    rw [Table.add, if_pos hName]
  | cons first rest ih =>
    obtain ⟨namespaces, declarations⟩ := tree
    rw [declaration?_cons] at h
    obtain ⟨child, hChild, hBelow⟩ := Option.bind_eq_some_iff.mp h
    have hChild : Table.find? namespaces first = some child := hChild
    rw [file_node_cons, hChild, Option.getD_some, ih hBelow, Table.set_of_find? hChild]

/-- After a filing a tree lists something. -/
theorem entries_file_ne_nil (tree : NamespaceTree) (path : List String)
    (declaration : Declaration) : (tree.file path declaration).entries ≠ [] := by
  have hFound := declaration?_file tree path declaration path declaration.name
  rw [if_pos ⟨rfl, rfl⟩] at hFound
  cases hOld : tree.declaration? path declaration.name with
  | none =>
    rw [hOld, Option.none_or] at hFound
    exact List.ne_nil_of_mem (mem_entries_of_declaration? hFound)
  | some old =>
    rw [hOld, Option.some_or] at hFound
    exact List.ne_nil_of_mem (mem_entries_of_declaration? hFound)

theorem entries_fileAll_ne_nil {filings : Filings} (h : filings ≠ []) :
    (fileAll filings).entries ≠ [] := by
  obtain ⟨init, ⟨path, declaration⟩, rfl⟩ := (List.eq_nil_or_concat filings).resolve_left h
  rw [List.concat_eq_append, fileAll_concat]
  exact entries_file_ne_nil _ _ _

/-- A tree lists each place once, and each declaration at the place where it is found. -/
structure Listed (tree : NamespaceTree) : Prop where
  nodup : (tree.entries.map fun entry => (entry.1, entry.2.name)).Nodup
  found : ∀ entry ∈ tree.entries, tree.declaration? entry.1 entry.2.name = some entry.2

theorem listed_empty : Listed empty where
  nodup := List.nodup_nil
  found entry hEntry := by cases hEntry

theorem Listed.file {tree : NamespaceTree} (h : tree.Listed) (path : List String)
    (declaration : Declaration) : (tree.file path declaration).Listed := by
  cases hPlace : tree.declaration? path declaration.name with
  | some old =>
    rw [file_of_declaration? hPlace]
    exact h
  | none =>
    have hEntries := entries_file hPlace
    -- the new place is none of the old ones
    have hNew : ∀ entry ∈ tree.entries, (entry.1, entry.2.name) ≠ (path, declaration.name) := by
      intro entry hEntry hSame
      have hFound := h.found entry hEntry
      obtain ⟨hPath, hName⟩ := Prod.mk.inj hSame
      rw [hPath, hName, hPlace] at hFound
      cases hFound
    refine ⟨?_, fun entry hEntry => ?_⟩
    · rw [(hEntries.map fun entry => (entry.1, entry.2.name)).nodup_iff, List.map_cons,
        List.nodup_cons]
      refine ⟨fun hMem => ?_, h.nodup⟩
      obtain ⟨entry, hEntry, hSame⟩ := List.mem_map.mp hMem
      exact hNew entry hEntry hSame
    · rw [declaration?_file]
      rcases List.mem_cons.mp (hEntries.mem_iff.mp hEntry) with rfl | hOld
      · rw [if_pos ⟨rfl, rfl⟩, hPlace, Option.none_or]
      · rw [if_neg fun hSame => hNew entry hOld (Prod.ext hSame.1 hSame.2)]
        exact h.found entry hOld

theorem listed_fileAll (filings : Filings) : (fileAll filings).Listed := by
  induction filings using List.reverseRec with
  | nil => exact listed_empty
  | append_singleton filings last ih =>
    rw [fileAll_concat]
    exact ih.file last.1 last.2

theorem Listed.mem_entries_iff {tree : NamespaceTree} (h : tree.Listed) {path : List String}
    {declaration : Declaration} : (path, declaration) ∈ tree.entries ↔
      tree.declaration? path declaration.name = some declaration :=
  ⟨h.found (path, declaration), mem_entries_of_declaration?⟩

end NamespaceTree

end Ambient
