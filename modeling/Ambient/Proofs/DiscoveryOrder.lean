import Ambient.Proofs.Generation

/-!
# The order of discovery

Classes are declared in breadth-first order: first the seeds, then what the first class asks for,
then what the second one asks for, and so on, each name at its first mention.  `BreadthFirst` says
so without a queue.  It leaves no choice (`BreadthFirst.unique`), and the names in such an order
are the smallest set that has the seeds and is closed under asking (`BreadthFirst.smallestClosed`).

The queue comes in with `Run.names_eq` and `Run.grounded`.  Both are inductions on the run with the
names already handed out as the part of the order that is settled.
-/

namespace Ambient

/-- The breadth-first order of the names that `seeds` lead to, when each name asks for others. -/
structure BreadthFirst (asks : String → List String) (seeds order : List String) : Prop where
  /-- First come the seeds and then what each name of the order asks for, without repetition. -/
  names_eq : order = (seeds ++ order.flatMap asks).eraseDups
  /-- A name is a seed or asked for by a name before it. -/
  grounded : ∀ before name after, order = before ++ name :: after →
    name ∈ seeds ++ before.flatMap asks

/-- A set of names that has the seeds and what its names ask for. -/
structure ClosedUnder (asks : String → List String) (seeds : List String)
    (names : String → Prop) : Prop where
  seeds_mem : ∀ name ∈ seeds, names name
  asked_mem : ∀ name, names name → ∀ other ∈ asks name, names other

/-- The smallest closed set of names. -/
structure SmallestClosed (asks : String → List String) (seeds : List String)
    (names : String → Prop) : Prop extends ClosedUnder asks seeds names where
  smallest : ∀ names', ClosedUnder asks seeds names' → ∀ name, names name → names' name

namespace BreadthFirst

variable {asks : String → List String} {seeds order order' : List String}

theorem nodup (h : BreadthFirst asks seeds order) : order.Nodup := by
  rw [h.names_eq]
  exact nodup_eraseDups _

theorem mem_iff (h : BreadthFirst asks seeds order) {name : String} :
    name ∈ order ↔ name ∈ seeds ∨ ∃ other ∈ order, name ∈ asks other := by
  have hMem : name ∈ order ↔ name ∈ (seeds ++ order.flatMap asks).eraseDups :=
    h.names_eq ▸ Iff.rfl
  rw [hMem, List.mem_eraseDups, List.mem_append, List.mem_flatMap]

theorem smallestClosed (h : BreadthFirst asks seeds order) :
    SmallestClosed asks seeds (· ∈ order) where
  seeds_mem name hName := h.mem_iff.mpr (.inl hName)
  asked_mem name hName other hOther := h.mem_iff.mpr (.inr ⟨name, hName, hOther⟩)
  smallest names' hClosed := by
    -- the order is read from the left, so what grounds a name is known to be in the set
    have hPrefix : ∀ before, before <+: order → ∀ name ∈ before, names' name := by
      intro before
      induction before using List.reverseRec with
      | nil => simp
      | append_singleton before last ih =>
        intro hBefore name hName
        have hEarlier := ih ((List.prefix_append before [last]).trans hBefore)
        rcases List.mem_append.mp hName with hName | hName
        · exact hEarlier name hName
        obtain rfl := List.mem_singleton.mp hName
        obtain ⟨after, hOrder⟩ := hBefore
        rw [List.append_assoc] at hOrder
        rcases List.mem_append.mp (h.grounded before name after hOrder.symm) with hSeed | hAsked
        · exact hClosed.seeds_mem name hSeed
        · obtain ⟨other, hOther, hAsked⟩ := List.mem_flatMap.mp hAsked
          exact hClosed.asked_mem other (hEarlier other hOther) name hAsked
    exact hPrefix order (List.prefix_refl order)

/-- What the names of a prefix of the order settle: the seeds and what these names ask for come
first. -/
theorem settled_prefix (h : BreadthFirst asks seeds order) {before : List String}
    (hBefore : before <+: order) : (seeds ++ before.flatMap asks).eraseDups <+: order := by
  obtain ⟨after, rfl⟩ := hBefore
  have hOrder := h.names_eq
  rw [List.flatMap_append, ← List.append_assoc, List.eraseDups_append] at hOrder
  exact hOrder ▸ List.prefix_append _ _

/-- An order goes on in the one way that its settled part allows. -/
theorem next_eq (h : BreadthFirst asks seeds order) (h' : BreadthFirst asks seeds order')
    {before : List String} {name : String} (hNext : before ++ [name] <+: order)
    (hBefore : before <+: order') : before ++ [name] <+: order' := by
  let settled := (seeds ++ before.flatMap asks).eraseDups
  have hSettled : settled <+: order :=
    h.settled_prefix ((List.prefix_append before [name]).trans hNext)
  -- what comes next is grounded in what came before, so it is settled
  have hGrounded : name ∈ settled := by
    obtain ⟨after, hOrder⟩ := hNext
    rw [List.append_assoc] at hOrder
    exact List.mem_eraseDups.mpr (h.grounded before name after hOrder.symm)
  have hNew : name ∉ before := by
    have hNodup := h.nodup.sublist hNext.sublist
    rw [List.nodup_append] at hNodup
    exact fun hMem => hNodup.2.2 name hMem name (List.mem_singleton_self _) rfl
  -- the settled part has a name that is not among the earlier ones, so it reaches beyond them
  have hReach : before ++ [name] <+: settled := by
    rcases List.prefix_or_prefix_of_prefix hSettled hNext with hShort | hLong
    · rcases List.prefix_concat_iff.mp hShort with hEq | hShort
      · exact hEq ▸ List.prefix_refl _
      · exact absurd (hShort.subset hGrounded) hNew
    · exact hLong
  exact hReach.trans (h'.settled_prefix hBefore)

theorem isPrefix (h : BreadthFirst asks seeds order) (h' : BreadthFirst asks seeds order') :
    order <+: order' := by
  -- induction on how far the two orders are known to agree
  have hPrefix : ∀ before, before <+: order → before <+: order' := by
    intro before
    induction before using List.reverseRec with
    | nil => exact fun _ => List.nil_prefix
    | append_singleton before name ih =>
      intro hNext
      exact h.next_eq h' hNext (ih ((List.prefix_append before [name]).trans hNext))
  exact hPrefix order (List.prefix_refl order)

/-- There is at most one breadth-first order. -/
theorem unique (h : BreadthFirst asks seeds order) (h' : BreadthFirst asks seeds order') :
    order' = order :=
  (h'.isPrefix h).eq_of_length_le (h.isPrefix h').length_le

end BreadthFirst

namespace World

variable {world : World}

/-! ## The order of a run -/

/-- The names a run hands out, behind those handed out before, are the names the queue has seen and
then what each name of the run asks for. -/
theorem Run.names_eq {queue : WorkQueue} {expanded : Table Declaration}
    (hRun : world.Run queue expanded) :
    queue.handed ++ expanded.names =
      (queue.offered ++ expanded.names.flatMap world.asked).eraseDups := by
  induction hRun with
  | done hEmpty =>
    rename_i queue
    have hOffered : queue.offered = queue.handed ++ [] := by
      rw [WorkQueue.offered, WorkQueue.pending_of_shift?_eq_none hEmpty]
    show queue.handed ++ [] = (queue.offered ++ []).eraseDups
    rw [← hOffered, List.append_nil, eraseDups_of_nodup queue.offered_nodup]
  | step hTaken hFound hDeclared hRest ih =>
    rename_i queue rest name c declaration expanded
    -- the rest of the run starts from a queue that has seen what the name asks for
    rw [WorkQueue.handed_enqueueAll, WorkQueue.handed_of_shift? hTaken,
      WorkQueue.offered_enqueueAll, WorkQueue.offered_of_shift? hTaken,
      eraseDups_eraseDups_append, asks_declare hFound hDeclared] at ih
    calc queue.handed ++ name :: expanded.names
        = queue.handed ++ [name] ++ expanded.names := by rw [List.append_assoc]; rfl
      _ = (queue.offered ++ world.asked name ++
            expanded.names.flatMap world.asked).eraseDups := ih
      _ = (queue.offered ++ (name :: expanded.names).flatMap world.asked).eraseDups := by
          rw [List.flatMap_cons, List.append_assoc]

/-- A name of a run was waiting at its start, or an earlier name asks for it. -/
theorem Run.grounded {queue : WorkQueue} {expanded : Table Declaration}
    (hRun : world.Run queue expanded) :
    ∀ before name after, expanded.names = before ++ name :: after →
      name ∈ queue.pending ++ before.flatMap world.asked := by
  induction hRun with
  | done hEmpty =>
    intro before name after hNames
    cases before <;> cases hNames
  | step hTaken hFound hDeclared hRest ih =>
    rename_i queue rest first c declaration expanded
    intro before name after hNames
    change first :: expanded.names = before ++ name :: after at hNames
    rw [WorkQueue.pending_of_shift? hTaken]
    cases before with
    | nil =>
      -- the first name of the run is the one that has waited longest
      obtain ⟨rfl, -⟩ := List.cons.inj hNames
      exact List.mem_append_left _ (List.mem_cons_self ..)
    | cons first' before =>
      obtain ⟨rfl, hRestNames⟩ := List.cons.inj hNames
      rw [List.flatMap_cons, ← asks_declare hFound hDeclared]
      -- a name that waits afterwards has waited before or is asked for by the first name
      rcases List.mem_append.mp (ih before name after hRestNames) with hPending | hAsked
      · rcases WorkQueue.mem_pending_enqueueAll hPending with hOld | hNew
        · exact List.mem_append_left _ (List.mem_cons_of_mem _ hOld)
        · exact List.mem_append_right _ (List.mem_append_left _ hNew)
      · exact List.mem_append_right _ (List.mem_append_right _ hAsked)

/-- A run from seeds hands out names in breadth-first order. -/
theorem Run.breadthFirst {seeds : List String} {expanded : Table Declaration}
    (hRun : world.Run (.ofNames seeds) expanded) :
    BreadthFirst world.asked seeds expanded.names where
  names_eq := by
    have hNames := hRun.names_eq
    rw [WorkQueue.handed_ofNames, List.nil_append, WorkQueue.offered_ofNames,
      eraseDups_eraseDups_append] at hNames
    exact hNames
  grounded before name after hNames := by
    rcases List.mem_append.mp (hRun.grounded before name after hNames) with hPending | hAsked
    · refine List.mem_append_left _ (WorkQueue.mem_of_mem_pending_ofNames hPending)
    · exact List.mem_append_right _ hAsked

/-- In a keyed registry, from seeds that it knows, generation either succeeds or stops at a
descriptor without a type.  If it succeeds, the classes are expanded once each and in the one
breadth-first order, and they are the smallest set that has the seeds and is closed under asking. -/
theorem declarations_discovery_order (world : World) (seeds : List String)
    (hKeyed : world.registry.Keyed)
    (hKnown : ∀ name ∈ seeds, (Table.find? world.registry name).isSome) :
    match world.declarations seeds with
    | .error failure => ∃ fault, failure = .unresolved fault
    | .ok tree => ∃ expanded : Table Declaration,
        world.expandAll (.ofNames seeds) = .ok expanded ∧ tree = .ofList expanded ∧
        expanded.names.Nodup ∧ BreadthFirst world.asked seeds expanded.names ∧
        (∀ order, BreadthFirst world.asked seeds order → order = expanded.names) ∧
        SmallestClosed world.asked seeds (· ∈ expanded.names) := by
  unfold declarations
  cases hOutcome : world.expandAll (.ofNames seeds) with
  | error failure =>
    exact expandAll_fails hKeyed
      (fun name hName => hKnown name (WorkQueue.mem_of_mem_pending_ofNames hName)) hOutcome
  | ok expanded =>
    have hOrder := (expandAll_eq_ok.mp hOutcome).breadthFirst
    exact ⟨expanded, rfl, rfl, hOrder.nodup, hOrder, fun _ => hOrder.unique, hOrder.smallestClosed⟩

/-- Two records that refer to each other and to themselves.  The first one expands a third in place,
and drops a property that has the name of another. -/
def entangled : World where
  registry := Registry.insertAll []
    [ { name := "A"
        shape := .record
          [ { name := "x", declared := some "list<B>|A" },
            { name := "x", declared := some "C" },
            { name := "y", declared := some "D", markers := [.inline] } ] },
      { name := "B", shape := .record [{ name := "a", declared := some "?A" }] },
      { name := "C", shape := .enumeration [{ name := "One", value := .int 1 }] },
      { name := "D", shape := .record [{ name := "e", declared := some "E" }] },
      { name := "E", shape := .record [] } ]
  replacements := []

theorem entangled_discovery_order :
    ∃ expanded : Table Declaration,
      entangled.expandAll (.ofNames ["B", "A", "B"]) = .ok expanded ∧
      expanded.names = ["B", "A", "C", "E"] ∧
      BreadthFirst entangled.asked ["B", "A", "B"] expanded.names ∧
      SmallestClosed entangled.asked ["B", "A", "B"] (· ∈ expanded.names) := by
  have hNames : (entangled.expandAll (.ofNames ["B", "A", "B"])).map Table.names =
      .ok ["B", "A", "C", "E"] := by decide +kernel
  have hOrder := declarations_discovery_order entangled ["B", "A", "B"]
    (Registry.keyed_insertAll _) (by decide)
  obtain ⟨expanded, hOutcome, hNames⟩ := map_eq_ok.mp hNames
  rw [declarations, hOutcome] at hOrder
  obtain ⟨expanded', hExpanded, -, -, hBreadth, -, hSmallest⟩ := hOrder
  cases hExpanded
  exact ⟨expanded, hOutcome, hNames, hBreadth, hSmallest⟩

end World

end Ambient
