import Ambient.Generation
import Ambient.Proofs.Expansion
import Ambient.Proofs.WorkQueue

/-!
# Runs of the queue

`Run` describes how the queue is emptied, one class after the other, and `expandAll_eq_ok` says that
these are exactly the runs that `expandAll` makes.  What holds along a run is proved by induction on
it: its steps are the discovery of one class each.

* `Run.declared`: every name of a run is that of a known class, with the declaration of that class.
* `expandAll_fails`: a run in a keyed registry stops only at a descriptor without a type.
-/

namespace Ambient

/-! ## Outcomes -/

section Outcomes

variable {ε α β : Type} {f : α → β} {outcome : Except ε α}

theorem map_eq_ok {value : β} :
    outcome.map f = .ok value ↔ ∃ first, outcome = .ok first ∧ f first = value := by
  cases outcome <;> simp [Except.map]

theorem map_eq_error {failure : ε} : outcome.map f = .error failure ↔ outcome = .error failure := by
  cases outcome <;> simp [Except.map]

end Outcomes

namespace World

/-! ## Runs -/

/-- The names that the properties of a class ask for, one property after the other.  A property
that is dropped from the declaration because of its name asks all the same. -/
def asked (world : World) (name : String) : List String :=
  match Table.find? world.registry name with
  | none => []
  | some c =>
    match c.shape with
    | .enumeration _ => []
    | .record properties => properties.flatMap fun property =>
        (convertProperty world.replacements (world.named [] []) c property).asks

/-- The runs of a queue that succeed, with the declarations in the order of their expansion. -/
inductive Run (world : World) : WorkQueue → Table Declaration → Prop
  | done {queue : WorkQueue} (hEmpty : queue.shift? = none) : Run world queue []
  | step {queue rest : WorkQueue} {name : String} {c : Class} {declaration : Declaration}
      {expanded : Table Declaration} (hTaken : queue.shift? = some (name, rest))
      (hFound : Table.find? world.registry name = some c)
      (hDeclared : (world.declare c).outcome = .ok declaration)
      (hRest : Run world (rest.enqueueAll (world.declare c).asks) expanded) :
      Run world queue ((name, declaration) :: expanded)

variable {world : World}

theorem Run.expandAll {queue : WorkQueue} {expanded : Table Declaration}
    (hRun : world.Run queue expanded) : world.expandAll queue = .ok expanded := by
  induction hRun with
  | done hEmpty => exact expandAll_empty hEmpty
  | step hTaken hFound hDeclared hRest ih =>
    rw [expandAll_found hTaken hFound, hDeclared]
    show Except.map _ (world.expandAll _) = _
    rw [ih]
    rfl

/-- A queue is emptied by the steps of a run, or not at all. -/
theorem expandAll_eq_ok {queue : WorkQueue} {expanded : Table Declaration} :
    world.expandAll queue = .ok expanded ↔ world.Run queue expanded := by
  refine ⟨fun hOk => ?_, Run.expandAll⟩
  -- of the four ways to go on, two fail at once and so do not give a list
  induction queue using World.expandAll.induct world generalizing expanded with
  | case1 queue taken =>
    rw [expandAll_empty taken] at hOk
    cases hOk
    exact .done taken
  | case2 queue name rest taken found =>
    rw [expandAll_unknown taken found] at hOk
    cases hOk
  | case3 queue name rest taken c found conversion failure =>
    rename_i hOutcome
    rw [expandAll_found taken found, hOutcome] at hOk
    cases hOk
  | case4 queue name rest taken c found conversion declaration hOutcome =>
    rename_i ih
    rw [expandAll_found taken found, hOutcome] at hOk
    obtain ⟨others, hOthers, rfl⟩ := map_eq_ok.mp hOk
    exact .step taken found hOutcome (ih hOthers)

theorem declarations_eq_ok {seeds : List String} {tree : NamespaceTree} :
    world.declarations seeds = .ok tree ↔
      ∃ expanded, world.expandAll (.ofNames seeds) = .ok expanded ∧ tree = .ofList expanded := by
  rw [declarations, map_eq_ok]
  simp only [eq_comm]

/-! ## What is expanded -/

/-- Every name of a run is that of a known class, and comes with its declaration. -/
theorem Run.declared {queue : WorkQueue} {expanded : Table Declaration}
    (hRun : world.Run queue expanded) :
    ∀ entry ∈ expanded, ∃ c, Table.find? world.registry entry.1 = some c ∧
      (world.declare c).outcome = .ok entry.2 := by
  induction hRun with
  | done hEmpty => simp
  | step hTaken hFound hDeclared hRest ih =>
    intro entry hEntry
    rcases List.mem_cons.mp hEntry with rfl | hEntry
    · exact ⟨_, hFound, hDeclared⟩
    · exact ih entry hEntry

/-- A declared class asks for what its properties ask for. -/
theorem asks_declare {name : String} {c : Class} {declaration : Declaration}
    (hFound : Table.find? world.registry name = some c)
    (hDeclared : (world.declare c).outcome = .ok declaration) :
    (world.declare c).asks = world.asked name := by
  cases hShape : c.shape with
  | enumeration cases => simp [asked, hFound, hShape, declare_enumeration hShape]
  | record properties =>
    -- without success the properties after the failing one would not have asked
    rw [declare_record hShape] at hDeclared ⊢
    obtain ⟨table, hTable, -⟩ := Conversion.map_ok hDeclared
    simp only [asked, hFound, hShape, Conversion.asks_map]
    exact asks_convertProperties hTable

/-! ## How a run fails -/

/-- In a keyed registry a run is stopped by a descriptor without a type, or by an unknown name that
was waiting from the start. -/
theorem expandAll_stops (hKeyed : world.registry.Keyed) {queue : WorkQueue} {failure : Failure}
    (hFailure : world.expandAll queue = .error failure) :
    (∃ fault, failure = .unresolved fault) ∨
      ∃ name ∈ queue.pending, Table.find? world.registry name = none ∧
        failure = .unknownClass name := by
  -- what joins the queue later is asked for by a class, and a class asks for known names only
  induction queue using World.expandAll.induct world generalizing failure with
  | case1 queue taken =>
    rw [expandAll_empty taken] at hFailure
    cases hFailure
  | case2 queue name rest taken found =>
    rw [expandAll_unknown taken found] at hFailure
    obtain rfl := Except.error.inj hFailure
    exact .inr ⟨name, by rw [WorkQueue.pending_of_shift? taken]; exact .head _, found, rfl⟩
  | case3 queue name rest taken c found conversion failure' =>
    rename_i hOutcome
    rw [expandAll_found taken found, hOutcome] at hFailure
    obtain rfl : failure' = failure := Except.error.inj hFailure
    exact .inl ((declare_meets hKeyed c).fails _ hOutcome)
  | case4 queue name rest taken c found conversion declaration hOutcome =>
    rename_i ih
    rw [expandAll_found taken found, hOutcome] at hFailure
    rcases ih (map_eq_error.mp hFailure) with hFault | ⟨other, hOther, hUnknown, hStopped⟩
    · exact .inl hFault
    · refine .inr ⟨other, ?_, hUnknown, hStopped⟩
      rw [WorkQueue.pending_of_shift? taken]
      rcases WorkQueue.mem_pending_enqueueAll hOther with hOld | hNew
      · exact .tail _ hOld
      · have hKnown := (declare_meets hKeyed c).asks other hNew
        rw [hUnknown] at hKnown
        cases hKnown

/-- In a keyed registry a queue of known names stays one of known names, so nothing but a descriptor
without a type stops it. -/
theorem expandAll_fails (hKeyed : world.registry.Keyed) {queue : WorkQueue} {failure : Failure}
    (hKnown : ∀ name ∈ queue.pending, (Table.find? world.registry name).isSome)
    (hFailure : world.expandAll queue = .error failure) :
    ∃ fault, failure = .unresolved fault := by
  rcases expandAll_stops hKeyed hFailure with hFault | ⟨name, hName, hUnknown, -⟩
  · exact hFault
  · have hSome := hKnown name hName
    rw [hUnknown] at hSome
    cases hSome

end World

end Ambient
