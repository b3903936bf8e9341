import Ambient.Proofs.Context

/-!
# How deep expansions are nested

Classes can expand each other in place in any way, directly, in turn, or below lists and unions.
However they do it, in a registry filled with `insert` no class is pushed onto the stack while it is
there already, and only records are pushed.  So there are never more expansions under way than there
are records, and no type nests object types deeper than that.

What holds *during* a run is said by a run that is watched: `namedChecked` looks at the stack each
time a class has been pushed, and fails as soon as the stack breaks a rule.

* `StackOf.push`: a class that is expanded is a record that is not on the stack yet.
* `performs_convertChecked`: so a watched run performs the conversion that the plain run performs.
* `meets_unfolded`: with `k` expansions under way a type nests at most as many object types as there
  are records left.
-/

namespace Ambient

/-- The names under which the records of a registry are found. -/
def Registry.records (registry : Registry) : List String :=
  (registry.filter fun entry => !entry.2.isEnumeration).map Prod.fst

/-! ## Object types inside each other -/

namespace TsType

mutual

/-- How many object types expanded in place lie inside each other, along the deepest path. -/
def expansionDepth : TsType → Nat
  | union members => depthOfMembers members
  | container _ element => element.expansionDepth
  | inlineRecord properties => depthOfProperties properties + 1
  | scalar _ | raw _ | reference _ | inlineEnum _ => 0

def depthOfMembers : List TsType → Nat
  | [] => 0
  | type :: rest => max type.expansionDepth (depthOfMembers rest)

def depthOfProperties : List (String × TsType) → Nat
  | [] => 0
  | (_, type) :: rest => max type.expansionDepth (depthOfProperties rest)

end

theorem depthOfMembers_le {members : List TsType} {bound : Nat} :
    depthOfMembers members ≤ bound ↔ ∀ type ∈ members, type.expansionDepth ≤ bound := by
  induction members with
  | nil => simp [depthOfMembers]
  | cons type rest ih => rw [depthOfMembers, Nat.max_le, ih, List.forall_mem_cons]

theorem depthOfProperties_le {properties : List (String × TsType)} {bound : Nat} :
    depthOfProperties properties ≤ bound ↔
      ∀ entry ∈ properties, entry.2.expansionDepth ≤ bound := by
  induction properties with
  | nil => simp [depthOfProperties]
  | cons entry rest ih => rw [depthOfProperties, Nat.max_le, ih, List.forall_mem_cons]

/-- Unions and containers go no deeper than their parts. -/
theorem hereditary_expansionDepth (bound : Nat) :
    Hereditary fun _ type => type.expansionDepth ≤ bound where
  mono _ h := h
  scalar _ := Nat.zero_le _
  raw _ := Nat.zero_le _
  union h := depthOfMembers_le.mpr h
  container _ h := h

end TsType

/-! ## The stack -/

namespace World

variable {world : World}

/-- What is on the stack of expansions: records of the registry, none of them twice. -/
structure StackOf (world : World) (underWay : List String) : Prop where
  nodup : underWay.Nodup
  records : underWay ⊆ world.registry.records

/-- No class is on the stack twice, and there are no more of them than records in the registry. -/
def Bounded (world : World) (underWay : List String) : Prop :=
  underWay.Nodup ∧ underWay.length ≤ world.registry.records.length

instance (world : World) : DecidablePred world.Bounded :=
  fun _ => inferInstanceAs (Decidable (_ ∧ _))

namespace StackOf

variable {underWay : List String}

theorem nil : world.StackOf [] :=
  ⟨List.nodup_nil, List.nil_subset _⟩

theorem length_le (h : world.StackOf underWay) :
    underWay.length ≤ world.registry.records.length :=
  h.nodup.length_le_of_subset h.records

theorem bounded (h : world.StackOf underWay) : world.Bounded underWay :=
  ⟨h.nodup, h.length_le⟩

/-- A class that is expanded is a record that is not on the stack yet. -/
theorem push (h : world.StackOf underWay) (hKeyed : world.registry.Keyed) {inPlace : Bool}
    {name : String} {c : Class} {fields : List Property}
    (hFound : Table.find? world.registry name = some c)
    (hExpands : ¬(!inPlace || name ∈ underWay) = true) (hShape : c.shape = .record fields) :
    world.StackOf (c.name :: underWay) := by
  -- the guard looks for the lookup name, which is the class's own name here
  have hNew : c.name ∉ underWay := (new_of_expands hKeyed hFound hExpands).2
  have hRecord : c.isEnumeration = false := by rw [Class.isEnumeration, hShape]
  have hEntry : (name, c) ∈ world.registry.filter fun entry => !entry.2.isEnumeration :=
    List.mem_filter.mpr ⟨Table.mem_of_find? hFound, by simp [hRecord]⟩
  have hName : c.name ∈ world.registry.records := by
    rw [hKeyed.name_eq hFound]
    exact List.mem_map_of_mem hEntry
  exact ⟨List.nodup_cons.mpr ⟨hNew, h.nodup⟩, List.cons_subset.mpr ⟨hName, h.records⟩⟩

end StackOf

end World

/-! ## Runs that are watched -/

namespace Action

section Checks

variable (passes : List String → Prop) [DecidablePred passes] (failure : Failure)

/-- Carries out an action if the stack passes a check. -/
def checking {α : Type} (action : Action α) : Action α := do
  let underWay ← stack
  if passes underWay then action else throw failure

/-- `named` with a check of the stack each time a class has been pushed onto it. -/
def namedChecked (world : World) (depth : Nat) (inPlace : Bool) (name : String) : Action TsType :=
  match Table.find? world.registry name with
  | none => pure .unknown
  | some c => do
    let underWay ← stack
    if !inPlace || name ∈ underWay then do
      enqueue name
      pure (.reference name)
    else
      match c.shape with
      | .enumeration cases => pure (.inlineEnum (cases.map Case.value))
      | .record fields =>
        match depth with
        | 0 => throw .endless
        | depth + 1 =>
          .inlineRecord <$>
            expanding c.name
              (checking passes failure
                (properties world.replacements (namedChecked world depth) c fields))

/-- `convert` with a check of the stack at the start and each time a class has been pushed. -/
def convertChecked (world : World) (depth : Nat) (scope : Option Scope) (text : String) :
    Action TsType :=
  let inPlace := scope.any (·.property.isInline)
  checking passes failure
    (descriptor scope world.replacements (namedChecked passes failure world depth inPlace)
      text.toList)

variable {passes} {failure} {underWay : List String}

theorem performs_checking {α : Type} {action : Action α} {conversion : Conversion α}
    (hPasses : passes underWay) (h : Performs underWay action conversion) :
    Performs underWay (checking passes failure action) conversion := by
  refine performs_stack ?_
  rw [if_pos hPasses]
  exact h

variable {world : World} (hKeyed : world.registry.Keyed)
  (hPasses : ∀ underWay, world.StackOf underWay → passes underWay)
include hKeyed hPasses

/-- A check that every stack of records passes makes no difference to a class name. -/
theorem performs_namedChecked (depth : Nat) (hStack : world.StackOf underWay) (inPlace : Bool)
    (name : String) :
    Performs underWay (namedChecked passes failure world depth inPlace name)
      (world.unfolded depth underWay inPlace name) := by
  induction depth using Nat.strong_induction_on generalizing underWay inPlace name with
  | _ depth ih =>
    rw [namedChecked.eq_def, World.unfolded.eq_def]
    cases hFound : Table.find? world.registry name with
    | none => exact performs_pure _
    | some c =>
      refine performs_stack ?_
      dsimp only
      split
      · exact performs_enqueue name _
      · rename_i hExpands
        cases hShape : c.shape with
        | enumeration cases => exact performs_pure _
        | record fields =>
          cases depth with
          | zero => exact performs_throw _
          | succ depth =>
            -- the check comes when the class is on the stack, which is then a stack of records
            have hPushed : world.StackOf (c.name :: underWay) :=
              hStack.push hKeyed hFound hExpands hShape
            have hFields : Performs (c.name :: underWay)
                (properties world.replacements (namedChecked passes failure world depth) c fields)
                (convertProperties world.replacements
                  (world.unfolded depth (c.name :: underWay)) c fields) :=
              performs_properties (ih depth (Nat.lt_succ_self depth) hPushed) fields
            exact (Performs.expanding (performs_checking (hPasses _ hPushed) hFields)).map _

theorem performs_convertChecked (depth : Nat) (hStack : world.StackOf underWay)
    (scope : Option Scope) (text : String) :
    Performs underWay (convertChecked passes failure world depth scope text)
      (world.convertTo depth underWay scope text) := by
  let inPlace := scope.any (·.property.isInline)
  let reading : Reading :=
    { scope := scope
      replacements := world.replacements
      named := world.unfolded depth underWay inPlace }
  have hNamed : ∀ name, Performs underWay (namedChecked passes failure world depth inPlace name)
      (reading.named name) :=
    performs_namedChecked hKeyed hPasses depth hStack inPlace
  exact performs_checking (hPasses _ hStack) (performs_descriptor hNamed text.toList)

end Checks

end Action

/-! ## The depth of types -/

namespace World

open Conversion

variable {world : World}

/-- With some expansions under way a type nests at most as many object types as there are records
left. -/
theorem meets_unfolded (hKeyed : world.registry.Keyed) (depth : Nat) {underWay : List String}
    (hStack : world.StackOf underWay) (inPlace : Bool) (name : String) :
    (world.unfolded depth underWay inPlace name).Meets (fun _ => True) (fun _ => True)
      fun _ type => type.expansionDepth ≤ world.registry.records.length - underWay.length := by
  induction depth using Nat.strong_induction_on generalizing underWay inPlace name with
  | _ depth ih =>
    rw [unfolded.eq_def]
    cases hFound : Table.find? world.registry name with
    | none => exact meets_pure (Nat.zero_le _)
    | some c =>
      dsimp only
      split
      · exact meets_ask trivial (Nat.zero_le _)
      · rename_i hExpands
        cases hShape : c.shape with
        | enumeration cases => exact meets_pure (Nat.zero_le _)
        | record fields =>
          cases depth with
          | zero => exact meets_fail trivial
          | succ depth =>
            have hPushed : world.StackOf (c.name :: underWay) :=
              hStack.push hKeyed hFound hExpands hShape
            have hNamed := ih depth (Nat.lt_succ_self depth) hPushed
            have hFields : (convertProperties world.replacements
                (world.unfolded depth (c.name :: underWay)) c fields).Meets
                (fun _ => True) (fun _ => True) fun _ table => ∀ entry ∈ table,
                  entry.2.expansionDepth ≤
                    world.registry.records.length - (c.name :: underWay).length :=
              meets_convertProperties (TsType.hereditary_expansionDepth _) (fun _ => trivial)
                fun property _ name _ => hNamed property.isInline name
            -- the class that has been pushed pays for the object type around its properties
            have hLength : underWay.length + 1 ≤ world.registry.records.length := hPushed.length_le
            refine hFields.map fun _ table hTable => ?_
            have hInner := TsType.depthOfProperties_le.mpr hTable
            rw [List.length_cons] at hInner
            show TsType.depthOfProperties table + 1 ≤ _
            omega

/-- Cut off at any depth, a conversion that starts with an empty stack gives no deeper types. -/
theorem expansionDepth_le_of_convertTo (hKeyed : world.registry.Keyed) {depth : Nat}
    {scope : Option Scope} {text : String} {type : TsType}
    (h : (world.convertTo depth [] scope text).outcome = .ok type) :
    type.expansionDepth ≤ world.registry.records.length := by
  have hMeets : (world.convertTo depth [] scope text).Meets (fun _ => True) (fun _ => True)
      fun _ type => type.expansionDepth ≤ world.registry.records.length :=
    Reading.meets_convert (TsType.hereditary_expansionDepth _) (fun _ _ => trivial)
      fun name _ => meets_unfolded hKeyed depth .nil _ name
  exact hMeets.gives type h

/-- In a registry filled with `insert` a conversion that starts with an empty stack never has a
class on the stack twice nor more classes than there are records: a run that fails as soon as that
happens is the plain run.  And the types that it gives, cut off at some depth or not, nest no more
object types than there are records. -/
theorem expansion_bounded (world : World) (hKeyed : world.registry.Keyed) (scope : Option Scope)
    (text : String) :
    (∀ depth queue failure,
      (Action.convertChecked world.Bounded failure world depth scope text).on ⟨queue, []⟩ =
        (Action.convert world depth scope text).on ⟨queue, []⟩) ∧
      (∀ depth queue type after,
        (Action.convert world depth scope text).on ⟨queue, []⟩ = (.ok type, after) →
          type.expansionDepth ≤ world.registry.records.length) ∧
      ∀ type, (world.convert scope text).outcome = .ok type →
        type.expansionDepth ≤ world.registry.records.length := by
  refine ⟨fun depth queue failure => ?_, fun depth queue type after hRun => ?_,
    fun type hType => ?_⟩
  · have hChecked : Action.Performs [] (Action.convertChecked world.Bounded failure world depth
        scope text) (world.convertTo depth [] scope text) :=
      Action.performs_convertChecked hKeyed (fun _ hStack => hStack.bounded) depth .nil scope text
    rw [hChecked queue, Action.performs_convert world depth [] scope text queue]
  · rw [Action.performs_convert world depth [] scope text queue] at hRun
    exact expansionDepth_le_of_convertTo hKeyed (congrArg Prod.fst hRun)
  · -- deep enough, a cut makes no difference to a conversion with a type
    have hDeep := named_approximates (world.effort [] [] + 1) [] [] (Nat.lt_succ_self _)
    have hEnds : (world.convertWithin [] scope text).outcome ≠ .error .endless := by
      intro hEndless
      cases hEndless.symm.trans hType
    have hSame : world.convertTo (world.effort [] [] + 1) [] scope text =
        world.convertWithin [] scope text := Reading.approximates_convert _ (hDeep _) hEnds
    exact expansionDepth_le_of_convertTo hKeyed ((congrArg Conversion.outcome hSame).trans hType)

/-- A property that expands a class in place. -/
def root : Scope where
  property := { name := "root", declared := some "Branch", markers := [.inline] }
  owner := { name := "Tree", shape := .record [] }

/-- Two records that expand each other in place, below lists and `null`. -/
def entwined : World where
  registry := Registry.insertAll []
    [ { name := "Branch"
        shape := .record
          [{ name := "twigs", declared := some "list<Twig>", markers := [.inline] }] },
      { name := "Kind", shape := .enumeration [] },
      { name := "Twig"
        shape := .record
          [{ name := "branch", declared := some "?Branch", markers := [.inline] }] } ]
  replacements := []

/-- The bound is reached. -/
theorem entwined_bounded :
    entwined.registry.Keyed ∧ entwined.registry.records.length = 2 ∧
    (∀ failure, (Action.convertChecked entwined.Bounded failure entwined 3 (some root) "Branch").on
        ⟨.empty, []⟩ = (Action.convert entwined 3 (some root) "Branch").on ⟨.empty, []⟩) ∧
    ∃ type after, (Action.convert entwined 3 (some root) "Branch").on ⟨.empty, []⟩ =
        (.ok type, after) ∧
      type.expansionDepth = 2 ∧ type.expansionDepth ≤ entwined.registry.records.length := by
  have hKeyed : entwined.registry.Keyed := Registry.keyed_insertAll _
  obtain ⟨hChecked, hDepth, -⟩ := expansion_bounded entwined hKeyed (some root) "Branch"
  have hOutcome : (entwined.convertTo 3 [] (some root) "Branch").outcome =
      .ok (.inlineRecord [("twigs", .container .list
        (.inlineRecord [("branch", .union [.reference "Branch", .null])]))]) := by decide +kernel
  have hRun := Action.performs_convert entwined 3 [] (some root) "Branch" .empty
  rw [hOutcome] at hRun
  exact ⟨hKeyed, by decide, hChecked 3 .empty, _, _, hRun, rfl, hDepth 3 .empty _ _ hRun⟩

end World

end Ambient
