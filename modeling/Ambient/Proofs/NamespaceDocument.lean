import Ambient.Proofs.Filing
import Mathlib.Algebra.Order.BigOperators.Group.List
import Mathlib.Algebra.Order.Group.Nat

/-!
# The document of a tree

The text of a tree is written piece by piece: an opening and a closing for each namespace, and the
declarations between them (`write_outline`).  Followed from the start, the openings give the paths
of the namespaces (`opened_outline`), and in the tree of a row of filings these are the starts of
the paths, each once (`mem_paths_fileAll`, `nodup_paths_fileAll`).

A namespace may hold its own name besides the key that it is found under.  Filing gives it the key
as its name and does not change it later (`NamedTree.Consistent.file`), so nothing is lost without
it (`NamedTree.forget_file`).

`tree_first_wins` puts together what filing makes of any row of declarations.
-/

namespace Ambient

/-- The layout one level less deep. -/
def Layout.higher (layout : Layout) : Layout :=
  { layout with depth := layout.depth - 1 }

namespace NamespaceTree

/-! ## Pieces of the document -/

inductive Piece
  /-- The header of a namespace. -/
  | opening (name : String)
  | declaration (declaration : Declaration)
  /-- The closing brace of the innermost namespace that is open. -/
  | closing
  deriving Repr, Inhabited

mutual

/-- The pieces of a tree, the namespaces before the declarations. -/
def outline : NamespaceTree → List Piece
  | node namespaces declarations =>
    outlineOfNamespaces namespaces ++ declarations.map fun entry => .declaration entry.2

def outlineOfNamespaces : List (String × NamespaceTree) → List Piece
  | [] => []
  | (name, tree) :: rest =>
    .opening name :: (tree.outline ++ .closing :: outlineOfNamespaces rest)

end

/-- The text of pieces.  An opening makes what follows one level deeper, and a closing less deep. -/
def write (layout : Layout) : List Piece → String
  | [] => ""
  | .opening name :: rest =>
    layout.indentation 0 ++ header layout name ++ write layout.deeper rest
  | .declaration declaration :: rest => declaration.render layout ++ write layout rest
  | .closing :: rest =>
    layout.higher.indentation 0 ++ "\x7d\n" ++ write layout.higher rest

/-- The paths of the namespaces that pieces open, within the namespaces of `path`. -/
def opened (path : List String) : List Piece → List (List String)
  | [] => []
  | .opening name :: rest => (path ++ [name]) :: opened (path ++ [name]) rest
  | .declaration _ :: rest => opened path rest
  | .closing :: rest => opened path.dropLast rest

theorem write_declarations (layout : Layout) (declarations : Table Declaration)
    (rest : List Piece) :
    write layout ((declarations.map fun entry => .declaration entry.2) ++ rest) =
      renderDeclarations layout declarations ++ write layout rest := by
  induction declarations with
  | nil => rw [List.map_nil, List.nil_append, renderDeclarations, List.map_nil, String.join_nil,
      String.empty_append]
  | cons first others ih =>
    rw [List.map_cons, List.cons_append, write, ih, renderDeclarations, renderDeclarations,
      List.map_cons, String.join_cons, String.append_assoc]

mutual

/-- The pieces of a tree are written as the tree is. -/
theorem write_outline (layout : Layout) (tree : NamespaceTree) (rest : List Piece) :
    write layout (tree.outline ++ rest) = tree.render layout ++ write layout rest := by
  cases tree with
  | node namespaces declarations =>
    rw [outline, List.append_assoc, write_outlineOfNamespaces, write_declarations, render,
      String.append_assoc]

theorem write_outlineOfNamespaces (layout : Layout) (namespaces : List (String × NamespaceTree))
    (rest : List Piece) :
    write layout (outlineOfNamespaces namespaces ++ rest) =
      renderNamespaces layout namespaces ++ write layout rest := by
  cases namespaces with
  | nil => rw [outlineOfNamespaces, List.nil_append, renderNamespaces, String.empty_append]
  | cons first others =>
    obtain ⟨name, tree⟩ := first
    have hHigher : layout.deeper.higher = layout := rfl
    rw [outlineOfNamespaces, List.cons_append, List.append_assoc, List.cons_append, write,
      write_outline, write, hHigher, write_outlineOfNamespaces, renderNamespaces]
    simp only [String.append_assoc]

end

/-! ## The paths of namespaces -/

mutual

/-- The paths of the namespaces in a tree. -/
def paths : NamespaceTree → List (List String)
  | node namespaces _ => pathsOfNamespaces namespaces

def pathsOfNamespaces : List (String × NamespaceTree) → List (List String)
  | [] => []
  | (name, tree) :: rest => [name] :: tree.paths.map (name :: ·) ++ pathsOfNamespaces rest

end

theorem pathsOfNamespaces_eq (namespaces : List (String × NamespaceTree)) :
    pathsOfNamespaces namespaces =
      namespaces.flatMap fun entry => [entry.1] :: entry.2.paths.map (entry.1 :: ·) := by
  induction namespaces with
  | nil => rfl
  | cons first rest ih => rw [pathsOfNamespaces, ih, List.flatMap_cons]

theorem opened_declarations (path : List String) (declarations : Table Declaration)
    (rest : List Piece) :
    opened path ((declarations.map fun entry => .declaration entry.2) ++ rest) =
      opened path rest := by
  induction declarations with
  | nil => rfl
  | cons first others ih => rw [List.map_cons, List.cons_append, opened, ih]

mutual

/-- The pieces of a tree open its namespaces, and leave as many of them open as there were. -/
theorem opened_outline (path : List String) (tree : NamespaceTree) (rest : List Piece) :
    opened path (tree.outline ++ rest) = tree.paths.map (path ++ ·) ++ opened path rest := by
  cases tree with
  | node namespaces declarations =>
    rw [outline, List.append_assoc, opened_outlineOfNamespaces, opened_declarations, paths]

theorem opened_outlineOfNamespaces (path : List String)
    (namespaces : List (String × NamespaceTree)) (rest : List Piece) :
    opened path (outlineOfNamespaces namespaces ++ rest) =
      (pathsOfNamespaces namespaces).map (path ++ ·) ++ opened path rest := by
  cases namespaces with
  | nil => rw [outlineOfNamespaces, pathsOfNamespaces, List.map_nil, List.nil_append,
      List.nil_append]
  | cons first others =>
    obtain ⟨name, tree⟩ := first
    rw [outlineOfNamespaces, List.cons_append, List.append_assoc, List.cons_append, opened,
      opened_outline, opened, List.dropLast_concat, opened_outlineOfNamespaces, pathsOfNamespaces]
    simp only [List.map_cons, List.map_append, List.map_map, List.cons_append, List.append_assoc,
      Function.comp_def, List.nil_append]

end

open Filings

theorem paths_fileAll (filings : Filings) :
    (fileAll filings).paths = (heads filings).eraseDups.flatMap fun name =>
      [name] :: (fileAll (below [name] filings)).paths.map (name :: ·) := by
  rw [fileAll_eq, paths, pathsOfNamespaces_eq, children, Table.ofNames, List.flatMap_map]

/-- The namespaces of a tree are those that something was filed in or below. -/
theorem mem_paths_fileAll {filings : Filings} {path : List String} :
    path ∈ (fileAll filings).paths ↔ path ≠ [] ∧ Uses filings path := by
  induction path generalizing filings with
  | nil =>
    rw [paths_fileAll]
    simp
  | cons first rest ih =>
    -- a longer path leads into one of the children
    have hMem : first :: rest ∈ (fileAll filings).paths ↔
        first ∈ heads filings ∧ (rest = [] ∨ rest ∈ (fileAll (below [first] filings)).paths) := by
      rw [paths_fileAll, List.mem_flatMap]
      simp only [List.mem_eraseDups, List.mem_cons, List.mem_map, List.cons.injEq]
      constructor
      · rintro ⟨name, hName, ⟨rfl, rfl⟩ | ⟨_, hBelow, rfl, rfl⟩⟩
        · exact ⟨hName, .inl rfl⟩
        · exact ⟨hName, .inr hBelow⟩
      · rintro ⟨hFirst, rfl | hBelow⟩
        · exact ⟨first, hFirst, .inl ⟨rfl, rfl⟩⟩
        · exact ⟨first, hFirst, .inr ⟨rest, hBelow, rfl, rfl⟩⟩
    rw [hMem, ih, uses_cons, and_iff_right (List.cons_ne_nil first rest)]
    refine and_congr_right fun _ => ?_
    by_cases hRest : rest = []
    · exact iff_of_true (.inl hRest) (.inl hRest)
    · rw [or_iff_right hRest, and_iff_right hRest]

/-- A namespace and the ones below it have paths that start with its name. -/
theorem head?_of_mem_paths {name : String} {tree : NamespaceTree} {path : List String}
    (h : path ∈ [name] :: tree.paths.map (name :: ·)) : path.head? = some name := by
  rcases List.mem_cons.mp h with rfl | h
  · rfl
  · obtain ⟨rest, -, rfl⟩ := List.mem_map.mp h
    rfl

theorem nodup_paths_of_le {filings : Filings} (bound : Nat)
    (hBound : ∀ filing ∈ filings, filing.1.length ≤ bound) : (fileAll filings).paths.Nodup := by
  -- below a namespace the paths of the filings are shorter
  induction bound generalizing filings with
  | zero =>
    have hHeads : heads filings = [] := by
      refine List.eq_nil_iff_forall_not_mem.mpr fun name hName => ?_
      obtain ⟨filing, hFiling, hPrefix⟩ := mem_heads.mp hName
      have hLength := Nat.le_trans hPrefix.length_le (hBound filing hFiling)
      simp at hLength
    rw [paths_fileAll, hHeads]
    exact List.nodup_nil
  | succ bound ih =>
    rw [paths_fileAll, List.nodup_flatMap]
    constructor
    · intro name _
      have hShorter : ∀ filing ∈ below [name] filings, filing.1.length ≤ bound := by
        rintro ⟨rest, declaration⟩ hMem
        have hLength := hBound _ (mem_below.mp hMem)
        simpa using hLength
      have hBelow : ((fileAll (below [name] filings)).paths.map (name :: ·)).Nodup :=
        (ih hShorter).map fun _ _ hCons => (List.cons.inj hCons).2
      refine List.nodup_cons.mpr ⟨fun hMem => ?_, hBelow⟩
      -- the path of the namespace itself is shorter than those below it
      obtain ⟨path, hPath, hName⟩ := List.mem_map.mp hMem
      exact (mem_paths_fileAll.mp hPath).1 (List.cons.inj hName).2
    · -- paths of different namespaces differ in their first part
      refine (nodup_eraseDups (heads filings)).imp fun {first second} hOther path hPath hPath' => ?_
      have hSame := (head?_of_mem_paths hPath).symm.trans (head?_of_mem_paths hPath')
      exact hOther (Option.some.inj hSame)

theorem nodup_paths_fileAll (filings : Filings) : (fileAll filings).paths.Nodup :=
  nodup_paths_of_le (filings.map (·.1.length)).sum fun _ hFiling =>
    List.le_sum_of_mem (List.mem_map_of_mem hFiling)

end NamespaceTree

/-! ## Namespaces with their own names -/

/-- A tree in which each namespace has a name of its own, besides the key that it stands under. -/
inductive NamedTree
  | node (name : String) (namespaces : List (String × NamedTree))
    (declarations : List (String × Declaration))
  deriving Repr, Inhabited

namespace NamedTree

def name : NamedTree → String
  | node name _ _ => name

def namespaces : NamedTree → Table NamedTree
  | node _ namespaces _ => namespaces

def declarations : NamedTree → Table Declaration
  | node _ _ declarations => declarations

/-- A namespace with nothing in it. -/
def new (name : String) : NamedTree := node name [] []

/-- Files a declaration under a path.  A namespace that is not there yet is made with its name. -/
def file (tree : NamedTree) (path : List String) (declaration : Declaration) : NamedTree :=
  match path with
  | [] => node tree.name tree.namespaces (tree.declarations.add declaration.name declaration)
  | first :: rest =>
    let child := (tree.namespaces.find? first).getD (new first)
    node tree.name (tree.namespaces.set first (child.file rest declaration)) tree.declarations

/-- The tree of a row of declarations.  Its root is no namespace, and the name is never read. -/
def ofList (calls : List (String × Declaration)) : NamedTree :=
  calls.foldl (fun tree call => tree.file (QualifiedName.namespaces call.1) call.2) (new "")

mutual

/-- The tree without the names of the namespaces. -/
def forget : NamedTree → NamespaceTree
  | node _ namespaces declarations => .node (forgetAll namespaces) declarations

def forgetAll : List (String × NamedTree) → List (String × NamespaceTree)
  | [] => []
  | (key, tree) :: rest => (key, tree.forget) :: forgetAll rest

end

/-- Every namespace stands under its own name, at any depth. -/
inductive Consistent : NamedTree → Prop
  | node {name : String} {namespaces : List (String × NamedTree)}
    {declarations : List (String × Declaration)}
    (hNames : ∀ entry ∈ namespaces, entry.2.name = entry.1)
    (hBelow : ∀ entry ∈ namespaces, Consistent entry.2) :
    Consistent (.node name namespaces declarations)

theorem find?_forgetAll (namespaces : Table NamedTree) (name : String) :
    Table.find? (forgetAll namespaces) name = (namespaces.find? name).map forget := by
  induction namespaces with
  | nil => rfl
  | cons first rest ih =>
    rw [forgetAll, Table.find?_cons, Table.find?_cons, ih]
    split <;> rfl

theorem forgetAll_set (namespaces : Table NamedTree) (name : String) (tree : NamedTree) :
    forgetAll (namespaces.set name tree) =
      Table.set (forgetAll namespaces) name tree.forget := by
  induction namespaces with
  | nil => rfl
  | cons first rest ih =>
    rw [Table.set, forgetAll, Table.set, ← ih]
    split <;> rfl

/-- Names that are not read change nothing. -/
theorem forget_file (tree : NamedTree) (path : List String) (declaration : Declaration) :
    (tree.file path declaration).forget = tree.forget.file path declaration := by
  induction path generalizing tree with
  | nil =>
    obtain ⟨name, namespaces, declarations⟩ := tree
    rfl
  | cons first rest ih =>
    obtain ⟨name, namespaces, declarations⟩ := tree
    show NamespaceTree.node (forgetAll (Table.set namespaces first _)) _ = _
    rw [forgetAll_set, ih, forget, NamespaceTree.file_node_cons, find?_forgetAll]
    show NamespaceTree.node (Table.set _ first (((Table.find? namespaces first).getD (new first)
      ).forget.file rest declaration)) _ = _
    cases Table.find? namespaces first with
    | none => rfl
    | some child => rfl

theorem name_file (tree : NamedTree) (path : List String) (declaration : Declaration) :
    (tree.file path declaration).name = tree.name := by
  cases path <;> rfl

theorem consistent_new (name : String) : (new name).Consistent :=
  .node (fun _ hEntry => by cases hEntry) fun _ hEntry => by cases hEntry

theorem Consistent.file {tree : NamedTree} (h : tree.Consistent) (path : List String)
    (declaration : Declaration) : (tree.file path declaration).Consistent := by
  induction path generalizing tree with
  | nil =>
    obtain ⟨hNames, hBelow⟩ := h
    exact .node hNames hBelow
  | cons first rest ih =>
    obtain ⟨hNames, hBelow⟩ := h
    rename_i name namespaces declarations
    -- the namespace that the path goes on in, there already or new
    have hChild : ((Table.find? namespaces first).getD (new first)).name = first ∧
        ((Table.find? namespaces first).getD (new first)).Consistent := by
      cases hFound : Table.find? namespaces first with
      | none => exact ⟨rfl, consistent_new first⟩
      | some child =>
        have hMem := Table.mem_of_find? hFound
        exact ⟨hNames _ hMem, hBelow _ hMem⟩
    refine .node (fun entry hEntry => ?_) fun entry hEntry => ?_
    · rcases Table.mem_of_mem_set hEntry with hOld | rfl
      · exact hNames entry hOld
      · exact (name_file _ _ _).trans hChild.1
    · rcases Table.mem_of_mem_set hEntry with hOld | rfl
      · exact hBelow entry hOld
      · exact ih hChild.2

theorem ofList_concat (calls : List (String × Declaration)) (call : String × Declaration) :
    ofList (calls ++ [call]) =
      (ofList calls).file (QualifiedName.namespaces call.1) call.2 := by
  simp [ofList]

theorem consistent_ofList (calls : List (String × Declaration)) : (ofList calls).Consistent := by
  induction calls using List.reverseRec with
  | nil => exact consistent_new ""
  | append_singleton calls call ih =>
    rw [ofList_concat]
    exact ih.file _ _

theorem forget_ofList (calls : List (String × Declaration)) :
    (ofList calls).forget = NamespaceTree.ofList calls := by
  induction calls using List.reverseRec with
  | nil => rfl
  | append_singleton calls call ih =>
    rw [ofList_concat, forget_file, ih, NamespaceTree.ofList_concat, NamespaceTree.add]

end NamedTree

/-! ## First filings -/

namespace NamespaceTree

/-- What becomes of a row of declarations with qualified names.

* At each place the tree holds the first declaration that was filed there, and nothing else.
* In each namespace the namespaces and the declarations stand in the order of their first use, and a
  namespace has a declaration in it or below it.
* A namespace that has a name of its own has its key as the name, so the keys do for the names.
* The document is written piece by piece, and the pieces open each namespace once: just those that
  something was filed in or below. -/
theorem tree_first_wins (calls : List (String × Declaration)) :
    ((∀ path name, (ofList calls).declaration? path name =
        (calls.find? fun call => place call = (path, name)).map Prod.snd) ∧
      ((ofList calls).entries.map fun entry => (entry.1, entry.2.name)).Nodup ∧
      ∀ path declaration, (path, declaration) ∈ (ofList calls).entries ↔
        (ofList calls).declaration? path declaration.name = some declaration) ∧
    (∀ path tree, (ofList calls).within? path = some tree →
      tree.namespaces.names = (calls.filterMap fun call =>
        (path.isPrefixOf? (QualifiedName.namespaces call.1)).bind List.head?).eraseDups ∧
      tree.declarations.names =
        ((calls.filter (QualifiedName.namespaces ·.1 = path)).map (·.2.name)).eraseDups ∧
      (path ≠ [] → tree.entries ≠ [])) ∧
    ((NamedTree.ofList calls).Consistent ∧ (NamedTree.ofList calls).forget = ofList calls) ∧
    (∀ layout, (ofList calls).render layout = write layout (ofList calls).outline) ∧
    (opened [] (ofList calls).outline).Nodup ∧
    ∀ path, path ∈ opened [] (ofList calls).outline ↔
      path ≠ [] ∧ ∃ call ∈ calls, path <+: QualifiedName.namespaces call.1 := by
  have hTree := ofList_eq_fileAll calls
  have hListed : (ofList calls).Listed := hTree ▸ listed_fileAll _
  -- the pieces of the outline open what the tree has as paths
  have hOpened : opened [] (ofList calls).outline = (ofList calls).paths := by
    have hPieces := opened_outline [] (ofList calls) []
    rw [List.append_nil, opened, List.append_nil] at hPieces
    rw [hPieces]
    exact List.map_id _
  refine ⟨⟨declaration?_ofList calls, hListed.nodup, fun _ _ => hListed.mem_entries_iff⟩,
    fun path tree hWithin => ?_, ⟨NamedTree.consistent_ofList calls, NamedTree.forget_ofList calls⟩,
    fun layout => ?_, ?_, fun path => ?_⟩
  · rw [hTree, within?_fileAll] at hWithin
    obtain ⟨hUses, rfl⟩ := hWithin
    refine ⟨?_, ?_, fun hPath => entries_fileAll_ne_nil ?_⟩
    · rw [fileAll_eq]
      show Table.names (children _) = _
      rw [children, Table.names_ofNames, Filings.heads_below, List.filterMap_map]
      rfl
    · rw [fileAll_eq]
      show Table.names (Table.ofFirst _) = _
      rw [Table.names_ofFirst, Filings.here_below, List.filter_map, Table.names, List.map_map,
        List.map_map]
      rfl
    · obtain ⟨⟨whole, declaration⟩, hMem, rest, rfl⟩ := hUses.resolve_left hPath
      exact List.ne_nil_of_mem (Filings.mem_below.mpr hMem)
  · have hPieces := write_outline layout (ofList calls) []
    rw [List.append_nil, write, String.append_empty] at hPieces
    exact hPieces.symm
  · rw [hOpened, hTree]
    exact nodup_paths_fileAll _
  · rw [hOpened, hTree, mem_paths_fileAll]
    refine and_congr_right fun hPath => ?_
    rw [Filings.Uses, or_iff_right hPath]
    simp only [List.mem_map, exists_exists_and_eq_and]

/-- Paths that share a start, an empty segment, and a place that is taken. -/
example :
    opened [] (ofList
      [ ("a::b::X", .record "X" []), ("X", .record "X" []), ("a::::b::X", .enumeration "X" []),
        ("c::Y", .record "Y" []), ("a::c::Y", .record "Y" []) ]).outline =
      [["a"], ["a", "b"], ["a", "c"], ["c"]] := by
  decide +kernel

end NamespaceTree

end Ambient
