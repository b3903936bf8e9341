import Ambient.Proofs.Closure
import Mathlib.Data.List.Infix

/-!
# What references mean to TypeScript

A reference is written as the dotted name of its class, from the outermost namespace on.  TypeScript
reads it from the inside: it looks for the first piece of the name in the innermost namespace around
the reference, then in the next one, and only at last at the root.  So a reference means its class
just if no namespace on the way has something of that name, and if no segment has a dot of its own,
which would be read as two pieces.
-/

namespace Ambient

namespace NamespaceTree

/-- The pieces of a dotted name. -/
def pieces (text : String) : List String :=
  (text.toList.splitOn '.').map String.ofList

/-- Whether a namespace has what the first piece of a name is looked up for: a declaration if there
is no other piece, and a child namespace otherwise. -/
def binds (tree : NamespaceTree) (parts : List String) (path : List String) : Bool :=
  match parts with
  | [] => false
  | [name] => (tree.declaration? path name).isSome
  | first :: _ => (tree.within? (path ++ [first])).isSome

/-- The innermost of the namespaces around a place, the root included, that has a property. -/
def innermost? (path : List String) (has : List String → Bool) : Option (List String) :=
  path.inits.reverse.find? has

/-- Follows the pieces of a name downwards from a namespace. -/
def follow? (tree : NamespaceTree) (path : List String) :
    List String → Option (List String × Declaration)
  | [] => none
  | [name] => (tree.declaration? path name).map (path, ·)
  | first :: rest => tree.follow? (path ++ [first]) rest

/-- The declaration that a dotted name means in the namespace at a path, with its own path. -/
def resolve? (tree : NamespaceTree) (path : List String) (text : String) :
    Option (List String × Declaration) :=
  (innermost? path (tree.binds (pieces text))).bind fun outer => tree.follow? outer (pieces text)

/-! ## Pieces -/

theorem not_mem_of_mem_splitOn {text piece : List Char} {c : Char}
    (h : piece ∈ text.splitOn c) : c ∉ piece := by
  induction text generalizing piece with
  | nil =>
    obtain rfl : piece = [] := by simpa using h
    simp
  | cons first rest ih =>
    rw [List.splitOn_cons_eq_if_modifyHead] at h
    split at h
    · rcases List.mem_cons.mp h with rfl | h
      · simp
      · exact ih h
    · -- the first character joins the first piece of the rest
      rename_i hFirst
      cases hRest : rest.splitOn c with
      | nil => exact absurd hRest (List.splitOn_ne_nil c rest)
      | cons head tail =>
        rw [hRest, List.modifyHead_cons] at h
        rw [hRest] at ih
        rcases List.mem_cons.mp h with rfl | h
        · intro hMem
          rcases List.mem_cons.mp hMem with rfl | hMem
          · simp at hFirst
          · exact ih (List.mem_cons_self ..) hMem
        · exact ih (List.mem_cons_of_mem _ h)

theorem not_mem_of_mem_pieces {text piece : String} (h : piece ∈ pieces text) :
    '.' ∉ piece.toList := by
  obtain ⟨chars, hChars, rfl⟩ := List.mem_map.mp h
  rw [String.toList_ofList]
  exact not_mem_of_mem_splitOn hChars

theorem pieces_ne_nil (text : String) : pieces text ≠ [] := by
  unfold pieces
  rw [Ne, List.map_eq_nil_iff]
  exact List.splitOn_ne_nil _ _

theorem intercalate_pieces (text : String) : ".".intercalate (pieces text) = text := by
  rw [← String.toList_inj, String.toList_intercalate, pieces, List.map_map]
  have hSame : String.toList ∘ String.ofList = id := funext fun _ => String.toList_ofList
  rw [hSame, List.map_id]
  exact List.intercalate_splitOn '.'

/-- The pieces of a dotted name are its parts if these have no dots. -/
theorem pieces_intercalate {parts : List String} (hSome : parts ≠ [])
    (hDots : ∀ part ∈ parts, '.' ∉ part.toList) : pieces (".".intercalate parts) = parts := by
  have hChars : (['.'].intercalate (parts.map String.toList)).splitOn '.' =
      parts.map String.toList := by
    refine List.splitOn_intercalate '.' (fun chars hChars => ?_) (by simpa using hSome)
    obtain ⟨part, hPart, rfl⟩ := List.mem_map.mp hChars
    exact hDots part hPart
  unfold pieces
  rw [String.toList_intercalate]
  change ((['.'].intercalate _).splitOn '.').map _ = _
  rw [hChars, List.map_map]
  have hSame : String.ofList ∘ String.toList = id := funext fun _ => String.ofList_toList
  rw [hSame, List.map_id]

/-- No proper tail of the parts of a dotted name is the list of its pieces. -/
theorem eq_nil_of_append_pieces {outer parts : List String}
    (h : outer ++ pieces (".".intercalate parts) = parts) : outer = [] := by
  refine Classical.byContradiction fun hOuter => ?_
  -- joined again the pieces give the whole text, so there is no room for parts before them
  have hText := congrArg String.length (intercalate_pieces (".".intercalate parts))
  conv at hText =>
    rhs
    rw [← h, String.intercalate_append_of_ne_nil hOuter (pieces_ne_nil _)]
  rw [String.length_append, String.length_append] at hText
  have hDot : ".".length = 1 := rfl
  omega

/-! ## Looking outwards and downwards -/

theorem innermost?_eq_nil {path : List String} {has : List String → Bool} :
    innermost? path has = some [] ↔
      has [] = true ∧ ∀ outer, outer <+: path → outer ≠ [] → has outer = false := by
  -- the root is the last namespace that is looked at
  obtain ⟨others, hInits, hOthers⟩ : ∃ others, path.inits = [] :: others ∧
      ∀ outer ∈ others, outer ≠ [] := by
    cases path with
    | nil => exact ⟨[], rfl, by simp⟩
    | cons first rest => exact ⟨_, rfl, by simp⟩
  have hMem : ∀ outer, outer <+: path ↔ outer = [] ∨ outer ∈ others := by
    intro outer
    rw [← List.mem_inits, hInits, List.mem_cons]
  rw [innermost?, hInits, List.reverse_cons, List.find?_append]
  cases hFind : others.reverse.find? has with
  | some inner =>
    have hInner : inner ∈ others := List.mem_reverse.mp (List.mem_of_find?_eq_some hFind)
    rw [Option.some_or]
    constructor
    · intro h
      exact absurd (Option.some.inj h) (hOthers inner hInner)
    · rintro ⟨-, hNone⟩
      have hHas := List.find?_some hFind
      rw [hNone inner ((hMem inner).mpr (.inr hInner)) (hOthers inner hInner)] at hHas
      cases hHas
  | none =>
    rw [List.find?_eq_none] at hFind
    rw [Option.none_or, List.find?_singleton]
    constructor
    · intro h
      split at h
      · rename_i hRoot
        refine ⟨hRoot, fun outer hOuter hSome => ?_⟩
        have hOuter : outer ∈ others := ((hMem outer).mp hOuter).resolve_left hSome
        simpa using hFind outer (List.mem_reverse.mpr hOuter)
      · cases h
    · rintro ⟨hRoot, -⟩
      rw [if_pos hRoot]

theorem follow?_concat (tree : NamespaceTree) (path init : List String) (name : String) :
    tree.follow? path (init ++ [name]) =
      (tree.declaration? (path ++ init) name).map (path ++ init, ·) := by
  induction init generalizing path with
  | nil => rw [List.nil_append, follow?, List.append_nil]
  | cons first rest ih =>
    rw [List.cons_append, follow?, ih, List.append_assoc]
    · rfl
    · simp

theorem binds_root {tree : NamespaceTree} {init : List String} {last : String}
    {target : Declaration} (hTarget : tree.declaration? init last = some target) :
    tree.binds (init ++ [last]) [] = true := by
  cases init with
  | nil =>
    show (tree.declaration? [] last).isSome = true
    rw [hTarget]
    rfl
  | cons first rest =>
    -- the namespaces of the declaration exist, the outermost one among them
    rw [declaration?_cons] at hTarget
    obtain ⟨child, hChild, -⟩ := Option.bind_eq_some_iff.mp hTarget
    have hWithin : tree.within? [first] = some child := by
      rw [within?, hChild]
      rfl
    rw [List.cons_append, binds]
    · rw [List.nil_append, hWithin]
      rfl
    · simp

/-- A dotted name means the declaration at its own place just if its parts have no dots and no
namespace inside the root binds its first piece. -/
theorem resolve?_eq_some_iff {tree : NamespaceTree}
    (hNames : ∀ path name declaration, tree.declaration? path name = some declaration →
      declaration.name = name)
    {init : List String} {last : String} {target : Declaration}
    (hTarget : tree.declaration? init last = some target) (path : List String) :
    tree.resolve? path (".".intercalate (init ++ [last])) = some (init, target) ↔
      (∀ part ∈ init ++ [last], '.' ∉ part.toList) ∧
        ∀ outer, outer <+: path → outer ≠ [] → tree.binds (init ++ [last]) outer = false := by
  let text := ".".intercalate (init ++ [last])
  constructor
  · intro h
    obtain ⟨outer, hOuter, hFollow⟩ := Option.bind_eq_some_iff.mp h
    obtain ⟨init', last', hPieces⟩ : ∃ init' last', pieces text = init' ++ [last'] :=
      ⟨_, _, (List.dropLast_concat_getLast (pieces_ne_nil text)).symm⟩
    rw [hPieces, follow?_concat] at hFollow
    obtain ⟨found, hFound, hSame⟩ := Option.map_eq_some_iff.mp hFollow
    obtain ⟨hInit, rfl⟩ := Prod.mk.inj hSame
    -- the declaration found has the last piece for a name, and the last part as well
    have hLast : last' = last := (hNames _ _ _ hFound).symm.trans (hNames _ _ _ hTarget)
    have hAll : outer ++ pieces text = init ++ [last] := by
      rw [hPieces, ← List.append_assoc, hInit, hLast]
    obtain rfl : outer = [] := eq_nil_of_append_pieces hAll
    rw [List.nil_append] at hAll
    rw [hAll] at hOuter
    refine ⟨fun part hPart => ?_, (innermost?_eq_nil.mp hOuter).2⟩
    exact not_mem_of_mem_pieces (hAll ▸ hPart)
  · rintro ⟨hDots, hFree⟩
    have hPieces : pieces text = init ++ [last] := pieces_intercalate (by simp) hDots
    have hRoot : innermost? path (tree.binds (init ++ [last])) = some [] :=
      innermost?_eq_nil.mpr ⟨binds_root hTarget, hFree⟩
    show (innermost? path (tree.binds (pieces text))).bind (tree.follow? · (pieces text)) = _
    rw [hPieces, hRoot, Option.bind_some, follow?_concat, List.nil_append, hTarget]
    rfl

end NamespaceTree

namespace World

open QualifiedName

/-- In a finished tree the text of a reference means the declaration of its class just if no segment
of the class name has a dot and no namespace around the reference, other than the root, binds the
first of them. -/
theorem reference_resolves_iff (world : World) (seeds : List String) (tree : NamespaceTree)
    (hKeyed : world.registry.Keyed) (hNamed : world.registry.WellNamed)
    (hTree : world.declarations seeds = .ok tree) (layout : Layout) :
    ∀ entry ∈ tree.entries, ∀ name ∈ entry.2.references,
      ∃ target, tree.declaration? (namespaces name) (short name) = some target ∧
        (tree.resolve? entry.1 ((TsType.reference name).renderMember layout) =
            some (namespaces name, target) ↔
          (∀ part ∈ segments name, '.' ∉ part.toList) ∧
            ∀ outer, outer <+: entry.1 → outer ≠ [] →
              tree.binds (segments name) outer = false) := by
  intro entry hEntry name hReference
  obtain ⟨expanded, hOutcome, rfl⟩ := declarations_eq_ok.mp hTree
  have hRun := expandAll_eq_ok.mp hOutcome
  obtain ⟨owner, hOwner, -⟩ := hRun.mem_entries hKeyed hNamed hEntry
  obtain ⟨target, hMem⟩ := hRun.declared_reference hKeyed hOwner hReference
  have hTarget := hRun.declaration?_eq hKeyed hNamed hMem
  have hName : WellFormed name := hRun.wellFormed hKeyed hNamed hMem
  refine ⟨target, hTarget, ?_⟩
  rw [TsType.renderMember, dotted, hName.segments_eq]
  exact NamespaceTree.resolve?_eq_some_iff
    (fun _ _ _ hFound => NamespaceTree.name_of_declaration?_ofList hFound) hTarget entry.1

theorem scattered_resolves :
    scattered.registry.Keyed ∧ scattered.registry.WellNamed ∧
    ∃ tree, scattered.declarations ["R"] = .ok tree ∧
      (∀ layout : Layout, ∀ entry ∈ tree.entries, ∀ name ∈ entry.2.references,
        ∃ target, tree.declaration? (namespaces name) (short name) = some target ∧
          (tree.resolve? entry.1 ((TsType.reference name).renderMember layout) =
              some (namespaces name, target) ↔
            (∀ part ∈ segments name, '.' ∉ part.toList) ∧
              ∀ outer, outer <+: entry.1 → outer ≠ [] →
                tree.binds (segments name) outer = false)) ∧
      (tree.resolve? ["a"] "b.c.E").map Prod.fst = some ["b", "c"] := by
  have hKeyed : scattered.registry.Keyed := by decide
  have hNamed : scattered.registry.WellNamed := by decide
  have hPath : (scattered.declarations ["R"]).map (fun tree =>
      (tree.resolve? ["a"] "b.c.E").map Prod.fst) = .ok (some ["b", "c"]) := by decide +kernel
  obtain ⟨tree, hTree, hPath⟩ := map_eq_ok.mp hPath
  exact ⟨hKeyed, hNamed, tree, hTree,
    reference_resolves_iff scattered ["R"] tree hKeyed hNamed hTree, hPath⟩

/-- A module that has the name of the one it is in, with a reference out of it, and a class outside
all modules with a namesake beside the reference to it. -/
def captured : World where
  registry := Registry.insertAll []
    [ { name := "a::U", shape := .record [] },
      { name := "a::a::T", shape := .record [{ name := "u", declared := some "a::U" }] },
      { name := "U", shape := .record [] },
      { name := "m::U", shape := .record [{ name := "u", declared := some "U" }] } ]
  replacements := []

/-- The reference to `a::U` means nothing, as it is looked for in `a.a`, and the one to `U` means
the class that makes it. -/
theorem captured_reference :
    captured.registry.Keyed ∧ captured.registry.WellNamed ∧
    ∃ tree, captured.declarations ["a::a::T", "m::U"] = .ok tree ∧
      (∃ entry ∈ tree.entries, entry.1 = ["a", "a"] ∧ "a::U" ∈ entry.2.references) ∧
      (∀ layout : Layout,
        tree.resolve? ["a", "a"] ((TsType.reference "a::U").renderMember layout) = none) ∧
      (∃ entry ∈ tree.entries, entry.1 = ["m"] ∧ "U" ∈ entry.2.references) ∧
      ∀ layout : Layout,
        (tree.resolve? ["m"] ((TsType.reference "U").renderMember layout)).map Prod.fst =
          some ["m"] := by
  -- one evaluation of the run answers all the questions about its tree
  have hAnswers : (captured.declarations ["a::a::T", "m::U"]).map (fun tree =>
      (tree.entries.map fun entry => (entry.1, entry.2.references),
        (tree.resolve? ["a", "a"] (dotted "a::U")).map Prod.fst,
        (tree.resolve? ["m"] (dotted "U")).map Prod.fst)) =
      .ok ([(["a", "a"], ["a::U"]), (["a"], []), (["m"], ["U"]), ([], [])], none, some ["m"]) := by
    decide +kernel
  obtain ⟨tree, hTree, hSame⟩ := map_eq_ok.mp hAnswers
  obtain ⟨hEntries, hRest⟩ := Prod.mk.inj hSame
  obtain ⟨hInA, hInM⟩ := Prod.mk.inj hRest
  have hListed : ∀ path name, (path, [name]) ∈ [(["a", "a"], ["a::U"]), (["a"], []),
      (["m"], ["U"]), ([], [])] →
      ∃ entry ∈ tree.entries, entry.1 = path ∧ name ∈ entry.2.references := by
    intro path name hMem
    rw [← hEntries] at hMem
    obtain ⟨entry, hEntry, hEq⟩ := List.mem_map.mp hMem
    obtain ⟨hPath, hReferences⟩ := Prod.mk.inj hEq
    exact ⟨entry, hEntry, hPath, hReferences ▸ List.mem_singleton_self name⟩
  refine ⟨by decide, by decide, tree, hTree, hListed _ _ (by simp), fun layout => ?_,
    hListed _ _ (by simp), fun layout => ?_⟩
  · rw [TsType.renderMember]
    exact Option.map_eq_none_iff.mp hInA
  · rw [TsType.renderMember]
    exact hInM

end World

end Ambient
