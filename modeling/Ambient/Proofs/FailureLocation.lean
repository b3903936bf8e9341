import Ambient.Proofs.Flaws
import Ambient.Proofs.Generation
import Ambient.Proofs.Termination
import Mathlib.Logic.Relation

/-!
# Failures point at their cause

A descriptor without a type may lie deep below the class that a run is about to declare: in a
container, in a union, or in a property of a class that is expanded in place for it.  Its failure
stops all the conversions around it, and none of them changes it, so the place that it carries is
the innermost one.

* `expandAll_eq_error`: a run is stopped at the head of a queue that it has reached.
* `Stopped.cause`: the conversions that a failure stops lead to a property with that fault.
* `failure_points_at_cause`: the whole way from the seeds to that property.
-/

namespace Ambient

open Conversion

theorem convertProperties_error {replacements : Replacements}
    {named : Bool → String → Conversion TsType} {owner : Class} {properties : List Property}
    {failure : Failure}
    (h : (convertProperties replacements named owner properties).outcome = .error failure) :
    ∃ property ∈ properties,
      (convertProperty replacements named owner property).outcome = .error failure := by
  rcases bind_error h with h | ⟨entries, -, h⟩
  · obtain ⟨property, hProperty, h⟩ := mapM_error h
    exact ⟨property, hProperty, map_error h⟩
  · cases h

namespace World

variable {world : World} {failure : Failure}

/-! ## How far a run gets -/

/-- One step of a run: the class at the head of the queue is declared, and what it asks for joins
the queue. -/
inductive Step (world : World) : WorkQueue → WorkQueue → Prop
  | declare {queue rest : WorkQueue} {name : String} {c : Class} {declaration : Declaration}
      (hTaken : queue.shift? = some (name, rest))
      (hFound : Table.find? world.registry name = some c)
      (hDeclared : (world.declare c).outcome = .ok declaration) :
      Step world queue (rest.enqueueAll (world.declare c).asks)

/-- A run that fails gets to a queue with an unknown class at its head, or with one whose
declaration fails. -/
theorem expandAll_eq_error {queue : WorkQueue} (h : world.expandAll queue = .error failure) :
    ∃ (reached rest : WorkQueue) (name : String),
      Relation.ReflTransGen world.Step queue reached ∧ reached.shift? = some (name, rest) ∧
        ((Table.find? world.registry name = none ∧ failure = .unknownClass name) ∨
          ∃ c, Table.find? world.registry name = some c ∧
            (world.declare c).outcome = .error failure) := by
  -- each class declared on the way is one more step of the chain
  induction queue using World.expandAll.induct world with
  | case1 queue taken =>
    rw [expandAll_empty taken] at h
    cases h
  | case2 queue name rest taken found =>
    rw [expandAll_unknown taken found] at h
    exact ⟨queue, rest, name, .refl, taken, .inl ⟨found, (Except.error.inj h).symm⟩⟩
  | case3 queue name rest taken c found conversion failure' =>
    rename_i hOutcome
    rw [expandAll_found taken found, hOutcome] at h
    obtain rfl : failure' = failure := Except.error.inj h
    exact ⟨queue, rest, name, .refl, taken, .inr ⟨c, found, hOutcome⟩⟩
  | case4 queue name rest taken c found conversion declaration hOutcome =>
    rename_i ih
    rw [expandAll_found taken found, hOutcome] at h
    obtain ⟨reached, rest', name', hReached, hStops⟩ := ih (map_eq_error.mp h)
    exact ⟨reached, rest', name', hReached.head (.declare taken found hOutcome), hStops⟩

/-! ## What a failure stops -/

/-- The properties whose conversion a failure stops while `root` is being declared, each with its
class and with the names of the expansions under way there, innermost first: a property of `root`
itself, or one of a class that is expanded in place for a property that is stopped. -/
inductive Stopped (world : World) (failure : Failure) (root : Class) :
    List String → Class → Property → Prop
  | root {properties : List Property} {property : Property}
      (hShape : root.shape = .record properties) (hProperty : property ∈ properties)
      (hFails : (convertProperty world.replacements (world.named [] []) root property).outcome =
        .error failure) :
      Stopped world failure root [] root property
  | inner {path : List String} {outer c : Class} {around property : Property} {name : String}
      {properties : List Property} (hAround : Stopped world failure root path outer around)
      (hInline : around.isInline = true)
      (hMention : name ∈ around.mentions world.replacements outer)
      (hFound : Table.find? world.registry name = some c) (hNew : name ∉ path)
      (hShape : c.shape = .record properties) (hProperty : property ∈ properties)
      (hFails : (convertProperty world.replacements (world.named (c.name :: path) []) c
        property).outcome = .error failure) :
      Stopped world failure root (c.name :: path) c property

namespace Stopped

variable {root owner : Class} {path : List String} {property : Property}

theorem fails (h : world.Stopped failure root path owner property) :
    (convertProperty world.replacements (world.named path []) owner property).outcome =
      .error failure := by
  cases h with
  | root hShape hProperty hFails => exact hFails
  | inner hAround hInline hMention hFound hNew hShape hProperty hFails => exact hFails

theorem shape (h : world.Stopped failure root path owner property) :
    ∃ properties, owner.shape = .record properties ∧ property ∈ properties := by
  cases h with
  | root hShape hProperty hFails => exact ⟨_, hShape, hProperty⟩
  | inner hAround hInline hMention hFound hNew hShape hProperty hFails =>
    exact ⟨_, hShape, hProperty⟩

/-- A failure stops conversions of known classes only. -/
theorem found (hKeyed : world.registry.Keyed)
    (hRoot : Table.find? world.registry root.name = some root)
    (h : world.Stopped failure root path owner property) :
    Table.find? world.registry owner.name = some owner := by
  cases h with
  | root hShape hProperty hFails => exact hRoot
  | inner hAround hInline hMention hFound hNew hShape hProperty hFails =>
    rw [hKeyed.name_eq hFound]
    exact hFound

end Stopped

/-- A class name that stops the property around it leads to a property with a fault of its own. -/
theorem cause_of_named_error (hKeyed : world.registry.Keyed) {root outer : Class}
    {around : Property} (path entered : List String) (inPlace : Bool) (name : String)
    (hAround : world.Stopped failure root path outer around) (hInPlace : around.isInline = inPlace)
    (hMention : name ∈ around.mentions world.replacements outer)
    (h : (world.named path entered inPlace name).outcome = .error failure) :
    ∃ path owner property, world.Stopped failure root path owner property ∧
      ∃ fault ∈ property.faults world.replacements owner, failure = .unresolved fault := by
  -- one class further in the failing property is again stopped, so the induction can go on there
  induction path, entered, inPlace, name using World.named.induct world generalizing outer around
    with
  | case1 path entered inPlace name found =>
    rw [named_unknown found] at h
    cases h
  | case2 path entered inPlace name c found refers =>
    rw [named_refers found refers] at h
    cases h
  | case3 path entered inPlace name c found expands cases shape =>
    rw [named_enumeration found expands shape] at h
    cases h
  | case4 path entered inPlace name c found expands properties shape new ih =>
    rw [named_enters found expands shape new] at h
    obtain ⟨hInline, hNew⟩ := expands_iff.mp expands
    obtain ⟨property, hProperty, hFails⟩ := convertProperties_error (map_error h)
    have hStopped : world.Stopped failure root (c.name :: path) c property :=
      .inner hAround (hInPlace.trans hInline) hMention found hNew shape hProperty hFails
    rcases convertProperty_error hFails with hFault | ⟨other, hOther, hNamed⟩
    · exact ⟨_, c, property, hStopped, hFault⟩
    · exact ih property.isInline other hStopped rfl hOther hNamed
  | case5 path entered inPlace name c found expands properties shape old new ih =>
    exact absurd (new_of_expands hKeyed found expands).2 old
  | case6 path entered inPlace name c found expands properties shape old again =>
    exact absurd (new_of_expands hKeyed found expands).2 old

/-- From a property that a failure stops it can be followed to a property with that fault. -/
theorem Stopped.cause (hKeyed : world.registry.Keyed) {root outer : Class} {path : List String}
    {around : Property} (h : world.Stopped failure root path outer around) :
    ∃ path owner property, world.Stopped failure root path owner property ∧
      ∃ fault ∈ property.faults world.replacements owner, failure = .unresolved fault := by
  rcases convertProperty_error h.fails with hFault | ⟨name, hName, hNamed⟩
  · exact ⟨path, outer, around, h, hFault⟩
  · exact cause_of_named_error hKeyed path [] _ name h rfl hName hNamed

/-- A declaration that fails is stopped at one of the properties of its class. -/
theorem stopped_of_declare_error {c : Class} (h : (world.declare c).outcome = .error failure) :
    ∃ property, world.Stopped failure c [] c property := by
  cases hShape : c.shape with
  | enumeration cases =>
    rw [declare_enumeration hShape] at h
    cases h
  | record properties =>
    rw [declare_record hShape] at h
    obtain ⟨property, hProperty, hFails⟩ := convertProperties_error (map_error h)
    exact ⟨property, .root hShape hProperty hFails⟩

/-- In a keyed registry a property with a fault of its own is reported to have no type when it is
converted by itself, though not always because of that fault: without the expansions around it more
names are expanded. -/
theorem unresolved_of_mem_faults (hKeyed : world.registry.Keyed) {owner : Class}
    {property : Property} {fault : Fault}
    (hFault : fault ∈ property.faults world.replacements owner) :
    ∃ fault, (convertProperty world.replacements (world.named [] []) owner property).outcome =
      .error (.unresolved fault) := by
  have hMeets : (convertProperty world.replacements (world.named [] []) owner property).Meets
      (fun _ => True) (fun failure => ∃ fault, failure = .unresolved fault) fun _ _ => True :=
    meets_convertProperty compositional_true.toHereditary (fun fault => ⟨fault, rfl⟩)
      fun name _ => meets_named compositional_true (fun _ _ => trivial) (fun _ _ => trivial)
        (fun fault => ⟨fault, rfl⟩) (.inr hKeyed) [] [] _ name
  cases hOutcome : (convertProperty world.replacements (world.named [] []) owner
      property).outcome with
  | ok type => exact absurd hOutcome (not_ok_of_mem_faults hFault _ type)
  | error failure =>
    obtain ⟨fault', rfl⟩ := hMeets.fails failure hOutcome
    exact ⟨fault', rfl⟩

/-! ## Whole runs -/

/-- A run from known seeds fails only at a property `property` of a class `owner` that it was
expanding: `root`, the class at the head of the queue, or one expanded in place for it.  The failure
carries the place of that property, and it quotes its resolved descriptor, or all of its
descriptor if `owner` has no parent to resolve.  The property fails by itself, too. -/
theorem failure_points_at_cause (world : World) (seeds : List String) (failure : Failure)
    (hKeyed : world.registry.Keyed)
    (hKnown : ∀ name ∈ seeds, (Table.find? world.registry name).isSome)
    (hFailure : world.declarations seeds = .error failure) :
    ∃ (fault : Fault) (queue rest : WorkQueue) (root : Class) (path : List String) (owner : Class)
      (property : Property),
      failure = .unresolved fault ∧
      Relation.ReflTransGen world.Step (.ofNames seeds) queue ∧
      queue.shift? = some (root.name, rest) ∧
      Table.find? world.registry root.name = some root ∧
      (world.declare root).outcome = .error failure ∧
      world.Stopped failure root path owner property ∧
      Table.find? world.registry owner.name = some owner ∧
      (∃ properties, owner.shape = .record properties ∧ property ∈ properties) ∧
      fault.location = some
        { owner := owner.name
          property := property.name
          file := owner.file
          line := property.line.or owner.line } ∧
      ((∃ text, Descriptor.resolve property owner = .ok text ∧ fault.text.toList <:+: text) ∨
        (Descriptor.resolve property owner = .error fault ∧ fault.reason = .noParent ∧
          owner.parent = none ∧
          fault.text.toList = Descriptor.choose property.declared property.documented)) ∧
      ∃ fault', (convertProperty world.replacements (world.named [] []) owner property).outcome =
        .error (.unresolved fault') := by
  have hExpand : world.expandAll (.ofNames seeds) = .error failure := map_eq_error.mp hFailure
  obtain ⟨fault', hFault'⟩ := expandAll_fails hKeyed
    (fun name hName => hKnown name (WorkQueue.mem_of_mem_pending_ofNames hName)) hExpand
  obtain ⟨queue, rest, name, hReached, hTaken, hStops⟩ := expandAll_eq_error hExpand
  rcases hStops with ⟨-, hUnknown⟩ | ⟨root, hFound, hDeclare⟩
  · -- a queue of known names never comes to an unknown one
    rw [hFault'] at hUnknown
    cases hUnknown
  · obtain rfl : root.name = name := hKeyed.name_eq hFound
    obtain ⟨around, hAround⟩ := stopped_of_declare_error hDeclare
    obtain ⟨path, owner, property, hStopped, fault, hFault, hCause⟩ := hAround.cause hKeyed
    refine ⟨fault, queue, rest, root, path, owner, property, hCause, hReached, hTaken, hFound,
      hDeclare, hStopped, hStopped.found hKeyed hFound, hStopped.shape,
      location_of_mem_faults hFault, text_of_mem_faults hFault,
      unresolved_of_mem_faults hKeyed hFault⟩

/-- A run that fails in its second class: in the record that `Cart` expands in place for a list. -/
def broken : World where
  registry := Registry.insertAll []
    [ { name := "User", shape := .record [{ name := "cart", declared := some "Cart" }] },
      { name := "Cart"
        shape := .record
          [{ name := "items", declared := some "list<Item>", markers := [.inline], line := some 7 }]
        file := some "cart.rs"
        line := some 3 },
      { name := "Item"
        shape := .record [{ name := "tag", declared := some "int|?resource" }]
        file := some "item.rs"
        line := some 12 } ]
  replacements := []

theorem broken_points_at_tag :
    broken.registry.Keyed ∧
    ∃ fault, broken.declarations ["User"] = .error (.unresolved fault) ∧
      fault.text = "resource" ∧
      ∃ (root : Class) (path : List String) (owner : Class) (property : Property),
        broken.Stopped (.unresolved fault) root path owner property ∧
        owner.name = "Item" ∧ property.name = "tag" ∧
        fault.location = some ⟨"Item", "tag", some "item.rs", some 12⟩ ∧
        ∃ fault', (convertProperty broken.replacements (broken.named [] []) owner
          property).outcome = .error (.unresolved fault') := by
  have hKeyed : broken.registry.Keyed := Registry.keyed_insertAll _
  have hExpansion : broken.expandAll (.ofNames ["User"]) = .error (.unresolved
      { reason := .unsupportedKeyword
        text := "resource"
        location := some ⟨"Item", "tag", some "item.rs", some 12⟩ }) := by decide +kernel
  have hFailure := congrArg (Except.map NamespaceTree.ofList) hExpansion
  obtain ⟨fault, queue, rest, root, path, owner, property, hCause, -, -, -, -, hStopped, -, -,
    hLocation, -, hAlone⟩ := failure_points_at_cause broken ["User"] _ hKeyed (by decide) hFailure
  obtain rfl := Failure.unresolved.inj hCause
  obtain ⟨hOwner, hProperty, -, -⟩ := Location.mk.inj (Option.some.inj hLocation)
  exact ⟨hKeyed, _, hFailure, rfl, root, path, owner, property, hStopped, hOwner.symm,
    hProperty.symm, rfl, hAlone⟩

end World

end Ambient
