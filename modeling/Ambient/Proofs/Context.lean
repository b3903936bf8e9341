import Ambient.Proofs.Termination
import Ambient.Proofs.WorkQueue

/-!
# Conversion on a context

A conversion says what it asks for and which expansions are under way around it.  A generator that
works step by step has a context instead: a queue that names are put into as they come up, and a
stack of the expansions under way, where a class is pushed before its properties are converted and
popped after that, whether or not they all have a type.

Here conversion is written down in that way, each step an `Action` on a context that outlasts
failures.  An action `Performs` a conversion if it has the same outcome, puts what the conversion
asks for into the queue and leaves the stack alone.  Every step keeps to that, so whole actions do,
and `context_kept` says what it means for the context on every exit.

How deep expansions are nested is not known beforehand, so an action is cut off below some depth.
In a registry filled with `insert` the cut makes no difference from some depth on.
-/

namespace Ambient

/-- What a generator changes as it goes along. -/
structure Context where
  queue : WorkQueue
  /-- The classes being expanded, innermost first. -/
  underWay : List String

/-- A step of a generator: it gives a value or fails, and may change the context either way. -/
abbrev Action (α : Type) := ExceptT Failure (StateM Context) α

namespace Action

/-! ## Steps -/

section Steps

variable {α : Type}

/-- The outcome of an action and the context that it leaves. -/
def on (action : Action α) (context : Context) : Except Failure α × Context :=
  StateT.run (ExceptT.run action) context

/-- Puts a name into the queue, if the queue has never seen it. -/
def enqueue (name : String) : Action Unit :=
  modify fun context => { context with queue := (context.queue.enqueue name).1 }

/-- The classes being expanded. -/
def stack : Action (List String) :=
  Context.underWay <$> get

/-- Carries out the expansion of a class, which is on the stack until the expansion has ended in one
way or the other. -/
def expanding (name : String) (expansion : Action α) : Action α := do
  modify fun context => { context with underWay := name :: context.underWay }
  let outcome ← observing expansion
  modify fun context => { context with underWay := context.underWay.tail }
  ofExcept outcome

end Steps

/-! ## Descriptors -/

section Descriptors

variable (scope : Option Scope) (replacements : Replacements) (named : String → Action TsType)

/-- The type that stands for an atom whatever its form. -/
def override? (atom : String) : Option TsType :=
  match Reading.marked? scope with
  | some type => some type
  | none => (Table.find? replacements atom).map .raw

def fault (reason : Reason) (atom : String) : Action TsType :=
  throw (.unresolved
    { reason := reason, text := atom, location := scope.map Scope.location })

def word (atom : String) : Action TsType :=
  match Reading.keyword? atom with
  | some keyword => pure (.scalar keyword)
  | none =>
    if atom ∈ Reading.inexpressible then fault scope .unsupportedKeyword atom else named atom

mutual

def alternative : Alternative → Action TsType
  | .empty => pure .unknown
  | .word nullable atom =>
    Reading.nullableIf nullable <$>
      match override? scope replacements atom with
      | some type => pure type
      | none => word scope named atom
  | .malformed nullable atom reason =>
    Reading.nullableIf nullable <$>
      match override? scope replacements atom with
      | some type => pure type
      | none => fault scope reason atom
  | .container nullable atom kind element =>
    Reading.nullableIf nullable <$>
      match override? scope replacements atom with
      | some type => pure type
      | none => (fun types => .container kind (.ofAlternatives types)) <$> alternatives element

def alternatives : List Alternative → Action (List TsType)
  | [] => pure []
  | first :: rest => do
    let type ← alternative first
    let types ← alternatives rest
    pure (type :: types)

end

def descriptor (text : List Char) : Action TsType :=
  .ofAlternatives <$> alternatives scope replacements named (Descriptor.parse text)

end Descriptors

/-! ## Properties and classes -/

def property (replacements : Replacements) (named : Bool → String → Action TsType) (owner : Class)
    (property : Property) : Action TsType :=
  match Descriptor.resolve property owner with
  | .ok text =>
    descriptor (some ⟨property, owner⟩) replacements (named property.isInline) text
  | .error fault => throw (.unresolved fault)

def properties (replacements : Replacements) (named : Bool → String → Action TsType)
    (owner : Class) (properties : List Property) : Action (Table TsType) := do
  let entries ← properties.mapM fun property =>
    (property.name, ·) <$> Action.property replacements named owner property
  pure (Table.ofFirst entries)

/-- Refers to a class and puts it into the queue, or expands it if the property asks for that and
the class is not on the stack. -/
def named (world : World) (depth : Nat) (inPlace : Bool) (name : String) : Action TsType :=
  match Table.find? world.registry name with
  | none => pure .unknown
  | some c => do
    let underWay ← stack
    if !inPlace || name ∈ underWay then do
      enqueue name
      pure (.reference name)
    else
      match c.shape with
      | .enumeration cases => pure (.inlineEnum (cases.map Case.value))
      | .record fields =>
        match depth with
        | 0 => throw .endless
        | depth + 1 =>
          .inlineRecord <$>
            expanding c.name (properties world.replacements (named world depth) c fields)

/-- Converts a descriptor. -/
def convert (world : World) (depth : Nat) (scope : Option Scope) (text : String) : Action TsType :=
  let inPlace := scope.any (·.property.isInline)
  descriptor scope world.replacements (named world depth inPlace) text.toList

/-! ## Performing conversions -/

/-- Whatever the queue holds, the action has the outcome of the conversion, puts what the conversion
asks for into the queue, and leaves the stack as it was. -/
def Performs {α : Type} (underWay : List String) (action : Action α) (conversion : Conversion α) :
    Prop :=
  ∀ queue, action.on ⟨queue, underWay⟩ =
    (conversion.outcome, ⟨queue.enqueueAll conversion.asks, underWay⟩)

section Performs

variable {α β : Type} {underWay : List String}

theorem on_bind (action : Action α) (next : α → Action β) (context : Context) :
    (action >>= next).on context =
      match action.on context with
      | (.ok value, after) => (next value).on after
      | (.error failure, after) => (.error failure, after) := by
  unfold on
  rw [ExceptT.run_bind, StateT.run_bind]
  rcases (ExceptT.run action).run context with ⟨outcome, after⟩
  cases outcome <;> rfl

theorem on_tryCatch (action : Action α) (handler : Failure → Action α) (context : Context) :
    (tryCatch action handler).on context =
      match action.on context with
      | (.ok value, after) => (.ok value, after)
      | (.error failure, after) => (handler failure).on after := by
  unfold on
  rw [ExceptT.run_tryCatch, StateT.run_bind]
  rcases (ExceptT.run action).run context with ⟨outcome, after⟩
  cases outcome <;> rfl

/-- What an action comes to can be observed without failing. -/
theorem on_observing (action : Action α) (context : Context) :
    (observing action).on context = (.ok (action.on context).1, (action.on context).2) := by
  rw [observing, on_tryCatch, on_bind]
  rcases action.on context with ⟨outcome, after⟩
  cases outcome <;> rfl

theorem performs_pure (value : α) : Performs underWay (pure value) (pure value) :=
  fun _ => rfl

theorem performs_throw (failure : Failure) :
    Performs underWay (throw failure : Action α) (.fail failure) :=
  fun _ => rfl

theorem performs_enqueue (name : String) (value : α) :
    Performs underWay (enqueue name >>= fun _ => pure value) (.ask name value) :=
  fun _ => rfl

theorem performs_stack {next : List String → Action α} {conversion : Conversion α}
    (h : Performs underWay (next underWay) conversion) :
    Performs underWay (stack >>= next) conversion :=
  fun queue => h queue

theorem Performs.bind {action : Action α} {conversion : Conversion α} {next : α → Action β}
    {next' : α → Conversion β} (h : Performs underWay action conversion)
    (hNext : ∀ value, Performs underWay (next value) (next' value)) :
    Performs underWay (action >>= next) (conversion >>= next') := by
  intro queue
  rw [on_bind, h queue]
  cases hOutcome : conversion.outcome with
  | error failure => rw [Conversion.bind_of_error hOutcome]
  | ok value =>
    rw [Conversion.bind_of_ok hOutcome]
    dsimp only
    rw [hNext value, WorkQueue.enqueueAll_append]

theorem Performs.map {action : Action α} {conversion : Conversion α} (f : α → β)
    (h : Performs underWay action conversion) :
    Performs underWay (f <$> action) (f <$> conversion) := by
  rw [map_eq_pure_bind, map_eq_pure_bind]
  exact h.bind fun value => performs_pure (f value)

theorem performs_mapM {ι : Type} {act : ι → Action α} {convert : ι → Conversion α}
    {items : List ι} (h : ∀ item ∈ items, Performs underWay (act item) (convert item)) :
    Performs underWay (items.mapM act) (items.mapM convert) := by
  induction items with
  | nil => exact performs_pure []
  | cons item rest ih =>
    rw [List.mapM_cons, List.mapM_cons]
    refine (h item (List.mem_cons_self ..)).bind fun value => ?_
    exact (ih fun other hOther => h other (List.mem_cons_of_mem _ hOther)).bind fun values =>
      performs_pure _

/-- An expansion takes off the stack what it has put there, however it ends. -/
theorem Performs.expanding {name : String} {expansion : Action α} {conversion : Conversion α}
    (h : Performs (name :: underWay) expansion conversion) :
    Performs underWay (expanding name expansion) conversion := by
  intro queue
  show (observing expansion >>= fun outcome => do
    modify fun context => { context with underWay := context.underWay.tail }
    ofExcept outcome : Action α).on ⟨queue, name :: underWay⟩ = _
  rw [on_bind, on_observing, h queue]
  cases conversion.outcome <;> rfl

/-! ### Descriptors -/

section Descriptors

variable {reading : Reading} {named : String → Action TsType}

theorem performs_word (hNamed : ∀ name, Performs underWay (named name) (reading.named name))
    (atom : String) : Performs underWay (word reading.scope named atom) (reading.word atom) := by
  unfold word Reading.word
  cases Reading.keyword? atom with
  | some keyword => exact performs_pure _
  | none =>
    by_cases hInexpressible : atom ∈ Reading.inexpressible
    · simp only [if_pos hInexpressible]
      exact performs_throw _
    · simp only [if_neg hInexpressible]
      exact hNamed atom

/-- An atom is looked at only where nothing stands for it. -/
theorem performs_atom (override : Option TsType) (nullable : Bool) {action : Action TsType}
    {conversion : Conversion TsType} (h : Performs underWay action conversion) :
    Performs underWay
      (Reading.nullableIf nullable <$>
        match override with
        | some type => pure type
        | none => action)
      (Reading.nullableIf nullable <$>
        match override with
        | some type => pure type
        | none => conversion) := by
  refine Performs.map _ ?_
  cases override with
  | some type => exact performs_pure type
  | none => exact h

mutual

theorem performs_alternative
    (hNamed : ∀ name, Performs underWay (named name) (reading.named name)) (part : Alternative) :
    Performs underWay (alternative reading.scope reading.replacements named part)
      (reading.alternative part) := by
  cases part with
  | empty =>
    rw [alternative, Reading.alternative]
    exact performs_pure _
  | word nullable atom =>
    rw [alternative, Reading.alternative]
    exact performs_atom (reading.override? atom) nullable (performs_word hNamed atom)
  | malformed nullable atom reason =>
    rw [alternative, Reading.alternative]
    exact performs_atom (reading.override? atom) nullable (performs_throw _)
  | container nullable atom kind element =>
    rw [alternative, Reading.alternative]
    exact performs_atom (reading.override? atom) nullable
      ((performs_alternatives hNamed element).map _)

theorem performs_alternatives
    (hNamed : ∀ name, Performs underWay (named name) (reading.named name))
    (parts : List Alternative) :
    Performs underWay (alternatives reading.scope reading.replacements named parts)
      (reading.alternatives parts) := by
  cases parts with
  | nil =>
    rw [alternatives, Reading.alternatives]
    exact performs_pure []
  | cons first rest =>
    rw [alternatives, Reading.alternatives]
    refine (performs_alternative hNamed first).bind fun type => ?_
    exact (performs_alternatives hNamed rest).bind fun types => performs_pure _

end

theorem performs_descriptor
    (hNamed : ∀ name, Performs underWay (named name) (reading.named name)) (text : List Char) :
    Performs underWay (descriptor reading.scope reading.replacements named text)
      (reading.convert (Descriptor.parse text)) :=
  (performs_alternatives hNamed (Descriptor.parse text)).map _

end Descriptors

/-! ### Properties and classes -/

section Properties

variable {replacements : Replacements} {named : Bool → String → Action TsType}
  {named' : Bool → String → Conversion TsType} {owner : Class}

theorem performs_property
    (hNamed : ∀ inPlace name, Performs underWay (named inPlace name) (named' inPlace name))
    (property : Property) :
    Performs underWay (Action.property replacements named owner property)
      (convertProperty replacements named' owner property) := by
  unfold Action.property
  cases hResolve : Descriptor.resolve property owner with
  | ok text =>
    rw [convertProperty_of_ok hResolve]
    exact @performs_descriptor _ (Reading.ofProperty replacements named' owner property) _
      (hNamed property.isInline) text
  | error fault =>
    rw [convertProperty_of_error hResolve]
    exact performs_throw _

theorem performs_properties
    (hNamed : ∀ inPlace name, Performs underWay (named inPlace name) (named' inPlace name))
    (fields : List Property) :
    Performs underWay (properties replacements named owner fields)
      (convertProperties replacements named' owner fields) := by
  refine Performs.bind (performs_mapM fun property _ => ?_) fun entries => performs_pure _
  exact (performs_property hNamed property).map _

end Properties

/-- A class name is looked up as it is unfolded, with the stack for the classes around it. -/
theorem performs_named (world : World) (depth : Nat) (underWay : List String) (inPlace : Bool)
    (name : String) :
    Performs underWay (named world depth inPlace name)
      (world.unfolded depth underWay inPlace name) := by
  induction depth using Nat.strong_induction_on generalizing underWay inPlace name with
  | _ depth ih =>
    rw [named.eq_def, World.unfolded.eq_def]
    cases Table.find? world.registry name with
    | none => exact performs_pure _
    | some c =>
      refine performs_stack ?_
      dsimp only
      split
      · exact performs_enqueue name _
      · cases c.shape with
        | enumeration cases => exact performs_pure _
        | record fields =>
          cases depth with
          | zero => exact performs_throw _
          | succ depth =>
            -- the class is on the stack for as long as its properties are converted
            have hNamed := ih depth (Nat.lt_succ_self depth) (c.name :: underWay)
            exact (Performs.expanding (performs_properties hNamed fields)).map _

theorem performs_convert (world : World) (depth : Nat) (underWay : List String)
    (scope : Option Scope) (text : String) :
    Performs underWay (convert world depth scope text)
      (world.convertTo depth underWay scope text) := by
  let inPlace := scope.any (·.property.isInline)
  let reading : Reading :=
    { scope := scope
      replacements := world.replacements
      named := world.unfolded depth underWay inPlace }
  exact @performs_descriptor _ reading _ (performs_named world depth underWay inPlace) text.toList

end Performs

end Action

/-! ## The context on every exit -/

/-- What conversion makes of a context: the stack is what it was, and the queue has got names at its
end that it had never seen, each the name of a class. -/
structure Context.Kept (world : World) (before after : Context) : Prop where
  underWay : after.underWay = before.underWay
  queue : ∃ names : List String, after.queue.pending = before.queue.pending ++ names ∧
    (∀ name, after.queue.hasSeen name = true ↔ before.queue.hasSeen name = true ∨ name ∈ names) ∧
    names.Nodup ∧ ∀ name ∈ names, before.queue.hasSeen name = false ∧
      (Table.find? world.registry name).isSome

/-- Started in a context, the action has an outcome that cutting it off deeper does not change. -/
def Action.Settles {α : Type} (action : Nat → Action α) (before : Context)
    (outcome : Except Failure α) (after : Context) : Prop :=
  ∃ limit, ∀ depth, limit ≤ depth → (action depth).on before = (outcome, after)

namespace World

open Conversion

variable {world : World}

/-- Putting names of classes into the queue keeps the context. -/
theorem kept_enqueueAll {names : List String}
    (hKnown : ∀ name ∈ names, (Table.find? world.registry name).isSome) (queue : WorkQueue)
    (underWay : List String) :
    Context.Kept world ⟨queue, underWay⟩ ⟨queue.enqueueAll names, underWay⟩ := by
  have hNew : ∀ name, name ∈ (names.removeAll queue.offered).eraseDups ↔
      name ∈ names ∧ name ∉ queue.offered := by
    intro name
    rw [List.mem_eraseDups]
    simp [List.removeAll]
  refine ⟨rfl, _, queue.pending_enqueueAll names, fun name => ?_, nodup_eraseDups _,
    fun name hName => ?_⟩
  · rw [WorkQueue.hasSeen_iff, WorkQueue.hasSeen_iff, WorkQueue.mem_offered_enqueueAll, hNew]
    tauto
  · obtain ⟨hName, hOffered⟩ := (hNew name).mp hName
    refine ⟨?_, hKnown name hName⟩
    rw [← Bool.not_eq_true, WorkQueue.hasSeen_iff]
    exact hOffered

/-- The action comes to an end, with one outcome whatever the queue holds, and keeps the context. -/
def Returns {α : Type} (world : World) (underWay : List String) (action : Nat → Action α)
    (outcome : Except Failure α) : Prop :=
  outcome ≠ .error .endless ∧ ∀ queue, ∃ after,
    Action.Settles action ⟨queue, underWay⟩ outcome after ∧
      Context.Kept world ⟨queue, underWay⟩ after

/-- An action that performs a conversion, cut off deep enough, returns if the conversion asks for
classes only and is not endless. -/
theorem returns_of_performs {α : Type} {underWay : List String} {action : Nat → Action α}
    {conversion : Conversion α} {gives : List String → α → Prop} (limit : Nat)
    (hPerforms : ∀ depth, limit ≤ depth → Action.Performs underWay (action depth) conversion)
    (hMeets : conversion.Meets (fun name => (Table.find? world.registry name).isSome)
      (· ≠ .endless) gives) :
    world.Returns underWay action conversion.outcome := by
  refine ⟨fun hEndless => hMeets.fails _ hEndless rfl, fun queue => ?_⟩
  refine ⟨⟨queue.enqueueAll conversion.asks, underWay⟩, ⟨limit, fun depth hDepth => ?_⟩, ?_⟩
  · exact hPerforms depth hDepth queue
  · exact kept_enqueueAll hMeets.asks queue underWay

section Keyed

variable (hKeyed : world.registry.Keyed) (underWay : List String)
include hKeyed

/-- In a registry filled with `insert` class names ask for classes only and are not endless. -/
theorem named_meets (inPlace : Bool) (name : String) : (world.named underWay [] inPlace name).Meets
    (fun name => (Table.find? world.registry name).isSome) (· ≠ .endless) fun _ _ => True := by
  refine meets_named compositional_true (fun _ hKnown => hKnown) (fun _ _ => trivial) ?_
    (.inr hKeyed) underWay [] inPlace name
  intro fault hEndless
  cases hEndless

theorem convert_returns (scope : Option Scope) (text : String) :
    world.Returns underWay (fun depth => Action.convert world depth scope text)
      (world.convertWithin underWay scope text).outcome := by
  have hMeets : (world.convertWithin underWay scope text).Meets
      (fun name => (Table.find? world.registry name).isSome) (· ≠ .endless) fun _ _ => True := by
    refine Reading.meets_convert compositional_true.toHereditary ?_ fun name _ =>
      named_meets hKeyed underWay _ name
    intro reason atom hEndless
    cases hEndless
  have hEnds : (world.convertWithin underWay scope text).outcome ≠ .error .endless :=
    fun hEndless => hMeets.fails _ hEndless rfl
  refine returns_of_performs (world.effort underWay [] + 1) (fun depth hDepth => ?_) hMeets
  -- cut off this deep the conversion is what it is without a cut
  have hSame :
      world.convertTo depth underWay scope text = world.convertWithin underWay scope text :=
    Reading.approximates_convert _ (named_approximates depth underWay [] hDepth _) hEnds
  exact hSame ▸ Action.performs_convert world depth underWay scope text

theorem properties_return (owner : Class) (fields : List Property) :
    world.Returns underWay
      (fun depth => Action.properties world.replacements (Action.named world depth) owner fields)
      (convertProperties world.replacements (world.named underWay []) owner fields).outcome := by
  have hMeets := meets_convertProperties compositional_true.toHereditary
    (fun fault (hEndless : Failure.unresolved fault = .endless) => by cases hEndless)
    fun property (_ : property ∈ fields) name
      (_ : name ∈ property.mentions world.replacements owner) =>
        named_meets hKeyed underWay property.isInline name
  have hEnds : (convertProperties world.replacements (world.named underWay []) owner
      fields).outcome ≠ .error .endless :=
    fun hEndless => hMeets.fails _ hEndless rfl
  refine returns_of_performs (world.effort underWay [] + 1) (fun depth hDepth => ?_) hMeets
  have hSame : convertProperties world.replacements (world.unfolded depth underWay) owner fields =
      convertProperties world.replacements (world.named underWay []) owner fields :=
    approximates_convertProperties (named_approximates depth underWay [] hDepth) hEnds
  exact hSame ▸ Action.performs_properties (Action.performs_named world depth underWay) fields

end Keyed

/-- In a registry filled with `insert` every conversion comes to an end and keeps the context it is
carried out on, whatever has been put into the queue before and whichever expansions are under way,
and also if it fails in the middle of one. -/
theorem context_kept (world : World) (hKeyed : world.registry.Keyed) (underWay : List String) :
    (∀ scope text, world.Returns underWay (fun depth => Action.convert world depth scope text)
      (world.convertWithin underWay scope text).outcome) ∧
    ∀ owner fields, world.Returns underWay
      (fun depth => Action.properties world.replacements (Action.named world depth) owner fields)
      (convertProperties world.replacements (world.named underWay []) owner fields).outcome :=
  ⟨convert_returns hKeyed underWay, properties_return hKeyed underWay⟩

/-- A property that expands a class in place. -/
def items : Property where
  name := "items"
  declared := some "list<Item>"
  markers := [.inline]

def cart : Class where
  name := "Cart"
  shape := .record [items]

/-- A world in which the expansion of `Item` fails, after it has come across `Owner`. -/
def faltering : World where
  registry := Registry.insertAll []
    [ cart,
      { name := "Item"
        shape := .record
          [ { name := "owner", declared := some "Owner" },
            { name := "tag", declared := some "?resource" } ] },
      { name := "Owner", shape := .record [] } ]
  replacements := []

theorem faltering_context_kept :
    faltering.registry.Keyed ∧
    ∃ after, Action.Settles
        (fun depth => Action.properties faltering.replacements (Action.named faltering depth) cart
          [items])
        ⟨.ofNames ["User", "Cart"], ["Cart", "User"]⟩
        (.error (.unresolved
          { reason := .unsupportedKeyword
            text := "resource"
            location := some ⟨"Item", "tag", none, none⟩ }))
        after ∧
      after.underWay = ["Cart", "User"] ∧
      Context.Kept faltering ⟨.ofNames ["User", "Cart"], ["Cart", "User"]⟩ after := by
  have hKeyed : faltering.registry.Keyed := Registry.keyed_insertAll _
  have hOutcome : (convertProperties faltering.replacements
      (faltering.named ["Cart", "User"] []) cart [items]).outcome =
        .error (.unresolved
          { reason := .unsupportedKeyword
            text := "resource"
            location := some ⟨"Item", "tag", none, none⟩ }) := by decide +kernel
  obtain ⟨-, hReturns⟩ := (context_kept faltering hKeyed ["Cart", "User"]).2 cart [items]
  obtain ⟨after, hSettles, hKept⟩ := hReturns (.ofNames ["User", "Cart"])
  exact ⟨hKeyed, after, hOutcome ▸ hSettles, hKept.underWay, hKept⟩

end World

end Ambient
