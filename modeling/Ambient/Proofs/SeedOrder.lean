import Ambient.Proofs.Closure

/-!
# The order of the seeds

A run takes its seeds in some order, and what it meets first it expands first.  Nothing else depends
on that order.  Whether a run succeeds is a matter of the set of seeds alone
(`exists_run_iff`), since the names it expands are the smallest set that has the seeds and is closed
under asking, and each of them has one declaration, whenever it is expanded.
-/

namespace Ambient.World

open QualifiedName
open NamespaceTree (ofList entries_ofList)

variable {world : World} {seeds seeds' : List String} {expanded expanded' : Table Declaration}

/-! ## Success -/

/-- A set of names that can all be expanded: each is that of a known class with a declaration, and
asks for names of the set only. -/
structure SelfContained (world : World) (names : String → Prop) : Prop where
  declared : ∀ name, names name → ∃ c declaration, Table.find? world.registry name = some c ∧
    (world.declare c).outcome = .ok declaration
  asked_mem : ∀ name, names name → ∀ other ∈ world.asked name, names other

/-- The names that a run from seeds expands are such a set. -/
theorem Run.selfContained (hRun : world.Run (.ofNames seeds) expanded) :
    world.SelfContained (· ∈ expanded.names) where
  declared name hName := by
    obtain ⟨entry, hEntry, rfl⟩ := List.mem_map.mp hName
    obtain ⟨c, hFound, hDeclared⟩ := hRun.declared entry hEntry
    exact ⟨c, entry.2, hFound, hDeclared⟩
  asked_mem := hRun.breadthFirst.smallestClosed.asked_mem

/-- A queue that waits for names of such a set never leaves the set, so nothing stops it. -/
theorem SelfContained.exists_run {names : String → Prop} (h : world.SelfContained names)
    {queue : WorkQueue} (hPending : ∀ name ∈ queue.pending, names name) :
    ∃ expanded, world.Run queue expanded := by
  -- the names that are asked for stay in the set, so each step can be taken
  induction queue using World.expandAll.induct world with
  | case1 queue taken => exact ⟨[], .done taken⟩
  | case2 queue name rest taken found =>
    have hName := hPending name (by rw [WorkQueue.pending_of_shift? taken]; exact .head _)
    obtain ⟨c, declaration, hFound, -⟩ := h.declared name hName
    rw [found] at hFound
    cases hFound
  | case3 queue name rest taken c found conversion failure =>
    rename_i hOutcome
    have hName := hPending name (by rw [WorkQueue.pending_of_shift? taken]; exact .head _)
    obtain ⟨c', declaration, hFound, hDeclared⟩ := h.declared name hName
    obtain rfl : c = c' := Option.some.inj (found.symm.trans hFound)
    cases hOutcome.symm.trans hDeclared
  | case4 queue name rest taken c found conversion declaration hOutcome =>
    rename_i ih
    have hName := hPending name (by rw [WorkQueue.pending_of_shift? taken]; exact .head _)
    obtain ⟨expanded, hRun⟩ := ih fun other hOther => by
      rcases WorkQueue.mem_pending_enqueueAll hOther with hOld | hNew
      · exact hPending other (by rw [WorkQueue.pending_of_shift? taken]; exact .tail _ hOld)
      · exact h.asked_mem name hName other (asks_declare found hOutcome ▸ hNew)
    exact ⟨_, .step taken found hOutcome hRun⟩

/-- Seeds lead to a run just if they lie in a set of names that can all be expanded. -/
theorem exists_run_iff : (∃ expanded, world.Run (.ofNames seeds) expanded) ↔
    ∃ names, world.SelfContained names ∧ ∀ name ∈ seeds, names name := by
  constructor
  · rintro ⟨expanded, hRun⟩
    exact ⟨_, hRun.selfContained, hRun.breadthFirst.smallestClosed.seeds_mem⟩
  · rintro ⟨names, hNames, hSeeds⟩
    exact hNames.exists_run fun name hName =>
      hSeeds name (WorkQueue.mem_of_mem_pending_ofNames hName)

/-! ## Two runs -/

section SameSeeds

variable (hRun : world.Run (.ofNames seeds) expanded)
  (hRun' : world.Run (.ofNames seeds') expanded')
include hRun hRun'

/-- What a run expands is expanded by every run whose seeds include its own. -/
theorem Run.names_subset (hSeeds : seeds ⊆ seeds') : expanded.names ⊆ expanded'.names := by
  have hClosed := hRun'.breadthFirst.smallestClosed
  exact hRun.breadthFirst.smallestClosed.smallest (· ∈ expanded'.names)
    ⟨fun name hName => hClosed.seeds_mem name (hSeeds hName), hClosed.asked_mem⟩

/-- A name that two runs expand has the same declaration in both. -/
theorem Run.subset (hSeeds : seeds ⊆ seeds') : expanded ⊆ expanded' := by
  rintro ⟨name, declaration⟩ hEntry
  have hName := hRun.names_subset hRun' hSeeds (List.mem_map_of_mem hEntry)
  obtain ⟨⟨name', declaration'⟩, hEntry', rfl⟩ := List.mem_map.mp hName
  obtain ⟨c, hFound, hDeclared⟩ := hRun.declared _ hEntry
  obtain ⟨c', hFound', hDeclared'⟩ := hRun'.declared _ hEntry'
  obtain rfl : c = c' := Option.some.inj (hFound.symm.trans hFound')
  obtain rfl : declaration = declaration' := Except.ok.inj (hDeclared.symm.trans hDeclared')
  exact hEntry'

/-- Two runs from the same seeds expand the same classes, in some order each. -/
theorem Run.perm (hSame : ∀ name, name ∈ seeds ↔ name ∈ seeds') : expanded.Perm expanded' := by
  have hNodup : expanded.Nodup := .of_map _ hRun.breadthFirst.nodup
  have hNodup' : expanded'.Nodup := .of_map _ hRun'.breadthFirst.nodup
  refine (List.perm_ext_iff_of_nodup hNodup hNodup').mpr fun entry => ⟨?_, ?_⟩
  · exact fun hEntry => hRun.subset hRun' (fun name => (hSame name).mp) hEntry
  · exact fun hEntry => hRun'.subset hRun (fun name => (hSame name).mpr) hEntry

end SameSeeds

/-! ## Two trees -/

/-- How generation can fail in a keyed registry: at a descriptor without a type, or at a seed that
nobody described. -/
theorem declarations_fails (hKeyed : world.registry.Keyed) {failure : Failure}
    (hFailure : world.declarations seeds = .error failure) :
    (∃ fault, failure = .unresolved fault) ∨
      ∃ name ∈ seeds, Table.find? world.registry name = none ∧ failure = .unknownClass name := by
  rcases expandAll_stops hKeyed (map_eq_error.mp hFailure) with hFault | ⟨name, hName, hUnknown⟩
  · exact .inl hFault
  · exact .inr ⟨name, WorkQueue.mem_of_mem_pending_ofNames hName, hUnknown⟩

/-- In a keyed registry of well-formed names, two lists of the same seeds either give trees with the
same declarations in the same namespaces, or both fail: each at a descriptor without a type or at a
seed that nobody described. -/
theorem declarations_seed_order (world : World) (seeds seeds' : List String)
    (hKeyed : world.registry.Keyed) (hNamed : world.registry.WellNamed)
    (hSame : ∀ name, name ∈ seeds ↔ name ∈ seeds') :
    match world.declarations seeds, world.declarations seeds' with
    | .ok tree, .ok tree' => tree.entries.Perm tree'.entries
    | .error failure, .error failure' =>
      ((∃ fault, failure = .unresolved fault) ∨ ∃ name ∈ seeds,
        Table.find? world.registry name = none ∧ failure = .unknownClass name) ∧
      ((∃ fault, failure' = .unresolved fault) ∨ ∃ name ∈ seeds',
        Table.find? world.registry name = none ∧ failure' = .unknownClass name)
    | _, _ => False := by
  have hRuns : (∃ expanded, world.expandAll (.ofNames seeds) = .ok expanded) ↔
      ∃ expanded, world.expandAll (.ofNames seeds') = .ok expanded := by
    simp only [expandAll_eq_ok, exists_run_iff, hSame]
  cases hTree : world.declarations seeds with
  | ok tree =>
    obtain ⟨expanded, hExpanded, rfl⟩ := declarations_eq_ok.mp hTree
    obtain ⟨expanded', hExpanded'⟩ := hRuns.mp ⟨expanded, hExpanded⟩
    rw [declarations_eq_ok.mpr ⟨expanded', hExpanded', rfl⟩]
    have hRun := expandAll_eq_ok.mp hExpanded
    have hRun' := expandAll_eq_ok.mp hExpanded'
    -- each tree lists what its run expanded, and nothing was dropped from either
    have hEntries := entries_ofList (hRun.distinct_places hKeyed hNamed)
    have hEntries' := entries_ofList (hRun'.distinct_places hKeyed hNamed)
    exact (hEntries.trans ((hRun.perm hRun' hSame).map _)).trans hEntries'.symm
  | error failure =>
    cases hTree' : world.declarations seeds' with
    | ok tree' =>
      obtain ⟨expanded', hExpanded', -⟩ := declarations_eq_ok.mp hTree'
      obtain ⟨expanded, hExpanded⟩ := hRuns.mpr ⟨expanded', hExpanded'⟩
      cases hTree.symm.trans (declarations_eq_ok.mpr ⟨expanded, hExpanded, rfl⟩)
    | error failure' =>
      exact ⟨declarations_fails hKeyed hTree, declarations_fails hKeyed hTree'⟩

/-- The same seeds in another order, one of them twice: the namespaces change places. -/
theorem scattered_seed_order :
    scattered.registry.Keyed ∧ scattered.registry.WellNamed ∧
    (∀ name, name ∈ ["a::U", "b::c::E"] ↔ name ∈ ["b::c::E", "a::U", "b::c::E"]) ∧
    ∃ tree tree', scattered.declarations ["a::U", "b::c::E"] = .ok tree ∧
      scattered.declarations ["b::c::E", "a::U", "b::c::E"] = .ok tree' ∧
      tree.entries.Perm tree'.entries ∧
      tree.entries.map Prod.fst = [["a"], ["b", "c"]] ∧
      tree'.entries.map Prod.fst = [["b", "c"], ["a"]] := by
  obtain ⟨hPaths, hPaths'⟩ :
      (scattered.declarations ["a::U", "b::c::E"]).map (·.entries.map Prod.fst) =
        .ok [["a"], ["b", "c"]] ∧
      (scattered.declarations ["b::c::E", "a::U", "b::c::E"]).map (·.entries.map Prod.fst) =
        .ok [["b", "c"], ["a"]] := ⟨by decide +kernel, by decide +kernel⟩
  have hKeyed : scattered.registry.Keyed := Registry.keyed_insertAll _
  have hNamed : scattered.registry.WellNamed := by decide
  have hSame : ∀ name, name ∈ ["a::U", "b::c::E"] ↔ name ∈ ["b::c::E", "a::U", "b::c::E"] := by
    intro name
    simp only [List.mem_cons, List.not_mem_nil, or_false]
    tauto
  obtain ⟨tree, hTree, hPaths⟩ := map_eq_ok.mp hPaths
  obtain ⟨tree', hTree', hPaths'⟩ := map_eq_ok.mp hPaths'
  have hPerm := declarations_seed_order scattered _ _ hKeyed hNamed hSame
  rw [hTree, hTree'] at hPerm
  exact ⟨hKeyed, hNamed, hSame, tree, tree', hTree, hTree', hPerm, hPaths, hPaths'⟩

end Ambient.World
