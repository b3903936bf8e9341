import Ambient.Proofs.Unfolding
import Mathlib.Data.List.Chain

/-!
# When inline expansion ends

A class that is being expanded is recognised by the name it is looked up under, but remembered
under its own name.  Where the two differ, a class can hide: it is entered again inside its own
expansion.  Expansion goes on forever only in a `Trap`, a set of lookup names that find classes with
other names and lead back into the set.

* `trap_of_endless`: an endless expansion reveals a trap.  The names entered since the last new
  class form a chain in which each leads to the next one, and it closes.
* `Trap.not_ok`: a trapped name never gets a type.
* `named_eq_guarded`: where classes are found under their own names there are no traps, and
  expansion is the recursion that enters no class inside its own expansion.
-/

namespace Ambient.World

open Conversion

/-- The class names that the properties of a class expand in place. -/
def inlined (world : World) (name : String) : List String :=
  match Table.find? world.registry name with
  | none => []
  | some c =>
    match c.shape with
    | .enumeration _ => []
    | .record properties =>
      (properties.filter (·.isInline)).flatMap (·.mentions world.replacements c)

/-- Lookup names of classes whose own names are others, each with a property that expands one of
them in place. -/
structure Trap (world : World) (names : List String) : Prop where
  nonempty : names ≠ []
  hidden : ∀ name ∈ names, ∃ c, Table.find? world.registry name = some c ∧ c.name ∉ names
  closed : ∀ name ∈ names, ∃ other ∈ world.inlined name, other ∈ names

variable {world : World}

theorem mem_inlined {name other : String} {c : Class} {properties : List Property}
    (hFound : Table.find? world.registry name = some c) (hShape : c.shape = .record properties) :
    other ∈ world.inlined name ↔ ∃ property ∈ properties, property.isInline = true ∧
      other ∈ property.mentions world.replacements c := by
  simp [inlined, hFound, hShape, and_assoc]

/-! ## Endless expansions reveal traps -/

/-- In a chain that ends every later item is related to an earlier one. -/
theorem exists_inner_of_isChain {α : Type} {related : α → α → Prop} {first last : α}
    {items : List α} (h : List.IsChain related (first :: (items ++ [last]))) :
    ∀ outer ∈ items ++ [last], ∃ inner ∈ first :: items, related inner outer := by
  induction items generalizing first with
  | nil =>
    intro outer hOuter
    obtain rfl := List.mem_singleton.mp hOuter
    exact ⟨first, List.mem_singleton_self _, (List.isChain_cons_cons.mp h).1⟩
  | cons item rest ih =>
    rw [List.cons_append, List.isChain_cons_cons] at h
    intro outer hOuter
    rcases List.mem_cons.mp hOuter with rfl | hOuter
    · exact ⟨first, List.mem_cons_self .., h.1⟩
    · obtain ⟨inner, hInner, hRelated⟩ := ih h.2 outer hOuter
      exact ⟨inner, List.mem_cons_of_mem _ hInner, hRelated⟩

/-- How expansion has come to a name: the names entered since `path` last got a new name hide
classes of `path`, and each of them, innermost first, is expanded in place by the next one. -/
structure Chained (world : World) (path entered : List String) (inPlace : Bool) (name : String) :
    Prop where
  hidden : ∀ other ∈ entered, other ∉ path ∧
    ∃ c, Table.find? world.registry other = some c ∧ c.name ∈ path
  linked : inPlace = true →
    List.IsChain (fun inner outer => inner ∈ world.inlined outer) (name :: entered)

/-- A chain that comes back to a name closes a trap. -/
theorem Chained.trap {path entered : List String} {name : String}
    (h : world.Chained path entered true name) (hAgain : name ∈ entered) :
    ∃ names, world.Trap names := by
  -- the trap is the part of the chain between the two occurrences of the name
  obtain ⟨inner, outer, rfl⟩ := List.append_of_mem hAgain
  have hSub : ∀ other ∈ name :: inner, other ∈ inner ++ name :: outer := by
    intro other hOther
    rcases List.mem_cons.mp hOther with rfl | hOther
    · exact hAgain
    · exact List.mem_append_left _ hOther
  have hLoop : List.IsChain (fun inner outer => inner ∈ world.inlined outer)
      (name :: (inner ++ [name])) := by
    have hSplit : name :: (inner ++ name :: outer) = name :: (inner ++ [name]) ++ outer := by simp
    exact (hSplit ▸ h.linked rfl).left_of_append
  refine ⟨name :: inner, List.cons_ne_nil _ _, fun other hOther => ?_, fun other hOther => ?_⟩
  · obtain ⟨-, c, hFound, hPath⟩ := h.hidden other (hSub other hOther)
    exact ⟨c, hFound, fun hName => (h.hidden c.name (hSub _ hName)).1 hPath⟩
  · have hOuter : other ∈ inner ++ [name] := by simpa [or_comm] using hOther
    obtain ⟨next, hNext, hInlined⟩ := exists_inner_of_isChain hLoop other hOuter
    exact ⟨next, hInlined, hNext⟩

theorem compositional_true : TsType.Compositional fun _ _ => True where
  mono _ _ := trivial
  scalar _ := trivial
  raw _ := trivial
  union _ := trivial
  container _ _ := trivial
  inlineEnum _ := trivial
  inlineRecord _ := trivial

/-- Whatever is reached by a chain fails as endless only if there is a trap. -/
theorem trap_of_endless (path entered : List String) (inPlace : Bool) (name : String)
    (hChained : world.Chained path entered inPlace name) :
    (world.named path entered inPlace name).Meets (fun _ => True)
      (fun failure => failure = .endless → ∃ names, world.Trap names) fun _ _ => True := by
  -- only an endless expansion leads to a trap, and faults are none
  have hFault : ∀ fault, Failure.unresolved fault = .endless → ∃ names, world.Trap names := by
    intro fault h
    cases h
  induction path, entered, inPlace, name using World.named.induct world with
  | case1 path entered inPlace name found =>
    rw [named_unknown found]
    exact meets_pure trivial
  | case2 path entered inPlace name c found refers =>
    rw [named_refers found refers]
    exact meets_ask trivial trivial
  | case3 path entered inPlace name c found expands cases shape =>
    rw [named_enumeration found expands shape]
    exact meets_pure trivial
  | case4 path entered inPlace name c found expands properties shape new ih =>
    rw [named_enters found expands shape new]
    -- with a new class the chain starts anew
    exact meets_inlineRecord compositional_true hFault fun property _ other _ =>
      ih property.isInline other ⟨by simp, fun _ => List.isChain_singleton _⟩
  | case5 path entered inPlace name c found expands properties shape old new ih =>
    rw [named_reenters found expands shape (Decidable.of_not_not old) new]
    obtain ⟨hInPlace, hNew⟩ := expands_iff.mp expands
    -- the name that is entered hides a class of the path and becomes the innermost of the chain
    refine meets_inlineRecord compositional_true hFault fun property hProperty other hOther => ?_
    refine ih property.isInline other ⟨fun earlier hEarlier => ?_, fun hInline => ?_⟩
    · rcases List.mem_cons.mp hEarlier with rfl | hEarlier
      · exact ⟨hNew, c, found, Decidable.of_not_not old⟩
      · exact hChained.hidden earlier hEarlier
    · have hInlined : other ∈ world.inlined name :=
        (mem_inlined found shape).mpr ⟨property, hProperty, hInline, hOther⟩
      exact List.isChain_cons_cons.mpr ⟨hInlined, hChained.linked hInPlace⟩
  | case6 path entered inPlace name c found expands properties shape old again =>
    rw [named_endless found expands shape (Decidable.of_not_not old) (Decidable.of_not_not again)]
    obtain ⟨rfl, -⟩ := expands_iff.mp expands
    exact meets_fail fun _ => hChained.trap (Decidable.of_not_not again)

/-- Without traps nothing fails as endless. -/
theorem convertWithin_ne_endless (hFree : ∀ names, ¬world.Trap names) (path : List String)
    (scope : Option Scope) (text : String) :
    (world.convertWithin path scope text).outcome ≠ .error .endless := by
  intro hEndless
  have hMeets : (world.convertWithin path scope text).Meets (fun _ => True)
      (fun failure => failure = .endless → ∃ names, world.Trap names) fun _ _ => True := by
    refine Reading.meets_convert compositional_true.toHereditary ?_ fun name _ => ?_
    · intro reason atom h
      cases h
    · exact trap_of_endless path [] _ name ⟨by simp, fun _ => List.isChain_singleton _⟩
  obtain ⟨names, hTrap⟩ := hMeets.fails _ hEndless rfl
  exact hFree names hTrap

/-! ## Traps do not let go -/

/-- A trapped class is not written out if trapped names get no types in place. -/
theorem Trap.inlineRecord_not_ok {names : List String} (hTrap : world.Trap names) {name : String}
    (hName : name ∈ names) {c : Class} {properties : List Property}
    (found : Table.find? world.registry name = some c) (shape : c.shape = .record properties)
    {named : Bool → String → Conversion TsType}
    (hNamed : ∀ other ∈ names, ∀ type, (named true other).outcome ≠ .ok type) (type : TsType) :
    (TsType.inlineRecord <$> convertProperties world.replacements named c properties).outcome ≠
      .ok type := by
  intro hOk
  obtain ⟨table, hTable, -⟩ := map_ok hOk
  -- some property of the class expands a trapped name in its turn
  obtain ⟨other, hOther, hMem⟩ := hTrap.closed name hName
  obtain ⟨property, hProperty, hInline, hMention⟩ := (mem_inlined found shape).mp hOther
  obtain ⟨type', hType⟩ := convertProperties_ok_named hTable property hProperty other hMention
  exact hNamed other hMem type' (hInline ▸ hType)

/-- A trapped name never gets a type, as long as no trapped name is being expanded. -/
theorem Trap.not_ok {names : List String} (hTrap : world.Trap names)
    (path entered : List String) (inPlace : Bool) (name : String)
    (hPath : ∀ other ∈ names, other ∉ path) (hInPlace : inPlace = true) (hName : name ∈ names)
    (type : TsType) : (world.named path entered inPlace name).outcome ≠ .ok type := by
  -- `named` itself comes to an end, so induction on it follows the way through the trap
  induction path, entered, inPlace, name using World.named.induct world generalizing type with
  | case1 path entered inPlace name found =>
    obtain ⟨c, hFound, -⟩ := hTrap.hidden name hName
    rw [found] at hFound
    cases hFound
  | case2 path entered inPlace name c found refers =>
    simp only [hInPlace, Bool.not_true, Bool.false_or, decide_eq_true_eq] at refers
    exact absurd refers (hPath name hName)
  | case3 path entered inPlace name c found expands cases shape =>
    obtain ⟨other, hOther, -⟩ := hTrap.closed name hName
    simp [inlined, found, shape] at hOther
  | case4 path entered inPlace name c found expands properties shape new ih =>
    rw [named_enters found expands shape new]
    -- the class that is entered has a name outside the trap
    have hPathNow : ∀ other ∈ names, other ∉ c.name :: path := by
      obtain ⟨c', hFound, hOutside⟩ := hTrap.hidden name hName
      obtain rfl : c = c' := Option.some.inj (found.symm.trans hFound)
      intro other hOther hCons
      rcases List.mem_cons.mp hCons with rfl | hCons
      · exact hOutside hOther
      · exact hPath other hOther hCons
    exact hTrap.inlineRecord_not_ok hName found shape
      (fun other hOther => ih true other hPathNow rfl hOther) type
  | case5 path entered inPlace name c found expands properties shape old new ih =>
    rw [named_reenters found expands shape (Decidable.of_not_not old) new]
    exact hTrap.inlineRecord_not_ok hName found shape
      (fun other hOther => ih true other hPath rfl hOther) type
  | case6 path entered inPlace name c found expands properties shape old again =>
    rw [named_endless found expands shape (Decidable.of_not_not old) (Decidable.of_not_not again)]
    intro hOk
    cases hOk

/-- A conversion fails only on a descriptor without a type or as endless. -/
theorem convertWithin_fails {path : List String} {scope : Option Scope} {text : String}
    {failure : Failure}
    (hFailure : (world.convertWithin path scope text).outcome = .error failure) :
    failure = .endless ∨ ∃ fault, failure = .unresolved fault := by
  have hMeets : (world.convertWithin path scope text).Meets (fun _ => True)
      (fun failure => failure = .endless ∨ ∃ fault, failure = .unresolved fault)
      fun _ _ => True := by
    refine Reading.meets_convert compositional_true.toHereditary (fun _ _ => .inr ⟨_, rfl⟩)
      fun name _ => ?_
    exact meets_named compositional_true (fun _ _ => trivial) (fun _ _ => trivial)
      (fun fault => .inr ⟨fault, rfl⟩) (.inl (.inl rfl)) path [] _ name
  exact hMeets.fails _ hFailure

/-- A property that expands a trapped name in place ends only if it is cut short by a descriptor
without a type. -/
theorem Trap.ends_iff_unresolved {names : List String} (hTrap : world.Trap names) {scope : Scope}
    (hInline : scope.property.isInline = true) {text name : String} (hName : name ∈ names)
    (hMention : name ∈ Descriptor.mentions (overrides (some scope) world.replacements)
      (Descriptor.parse text.toList)) :
    world.Ends [] (some scope) text ↔
      ∃ fault, (world.convert (some scope) text).outcome = .error (.unresolved fault) := by
  rw [ends_iff]
  show (world.convert (some scope) text).outcome ≠ _ ↔ _
  cases hOutcome : (world.convert (some scope) text).outcome with
  | ok type =>
    obtain ⟨type', hType⟩ := Reading.convert_ok_named hOutcome name hMention
    exact absurd hType (hTrap.not_ok [] [] _ name (by simp) hInline hName type')
  | error failure =>
    rcases convertWithin_fails hOutcome with rfl | ⟨fault, rfl⟩
    · simp
    · simp

/-! ## Classes found under their own names -/

theorem not_trap_of_keyed (hKeyed : world.registry.Keyed) (names : List String) :
    ¬world.Trap names := by
  intro hTrap
  obtain ⟨name, hName⟩ := List.exists_mem_of_ne_nil names hTrap.nonempty
  obtain ⟨c, hFound, hOutside⟩ := hTrap.hidden name hName
  exact hOutside (hKeyed.name_eq hFound ▸ hName)

/-- Where a class is found under its own name, one that is expanded is not being expanded yet. -/
theorem new_of_expands (hKeyed : world.registry.Keyed) {path : List String} {inPlace : Bool}
    {name : String} {c : Class} (hFound : Table.find? world.registry name = some c)
    (hExpands : ¬(!inPlace || name ∈ path) = true) : inPlace = true ∧ c.name ∉ path := by
  rw [hKeyed.name_eq hFound]
  exact expands_iff.mp hExpands

set_option linter.unusedVariables false in
/-- The meaning of a class name if expansion recognises the classes of `path` by their own names: no
class is entered inside its own expansion, and every cycle ends in a reference. -/
def guarded (world : World) (path : List String) (inPlace : Bool) (name : String) :
    Conversion TsType :=
  match found : Table.find? world.registry name with
  | none => pure .unknown
  | some c =>
    if new : inPlace = true ∧ c.name ∉ path then
      match c.shape with
      | .enumeration cases => pure (.inlineEnum (cases.map Case.value))
      | .record properties =>
        .inlineRecord <$>
          convertProperties world.replacements (world.guarded (c.name :: path)) c properties
    else .ask name (.reference name)
termination_by (fresh world.registry path).length
decreasing_by exact length_fresh_cons_lt found new.2

theorem guarded_unknown {path : List String} {inPlace : Bool} {name : String}
    (found : Table.find? world.registry name = none) :
    world.guarded path inPlace name = pure .unknown := by
  rw [guarded]
  split
  · rfl
  · rename_i found'
    rw [found] at found'
    contradiction

theorem guarded_found {path : List String} {inPlace : Bool} {name : String} {c : Class}
    (found : Table.find? world.registry name = some c) :
    world.guarded path inPlace name =
      if inPlace = true ∧ c.name ∉ path then
        match c.shape with
        | .enumeration cases => pure (.inlineEnum (cases.map Case.value))
        | .record properties =>
          .inlineRecord <$>
            convertProperties world.replacements (world.guarded (c.name :: path)) c properties
      else .ask name (.reference name) := by
  rw [guarded]
  split
  · rename_i found'
    rw [found] at found'
    contradiction
  · rename_i c' found'
    obtain rfl : c = c' := Option.some.inj (found.symm.trans found')
    rfl

/-- In a keyed registry expansion enters no class inside its own expansion. -/
theorem named_eq_guarded (hKeyed : world.registry.Keyed) (path entered : List String)
    (inPlace : Bool) (name : String) :
    world.named path entered inPlace name = world.guarded path inPlace name := by
  -- a class is found under its own name only, so no class of the path is entered again
  induction path, entered, inPlace, name using World.named.induct world with
  | case1 path entered inPlace name found =>
    rw [named_unknown found, guarded_unknown found]
  | case2 path entered inPlace name c found refers =>
    have hName : c.name = name := hKeyed.name_eq found
    rw [named_refers found refers, guarded_found found, if_neg]
    rintro ⟨rfl, hNew⟩
    simp only [Bool.not_true, Bool.false_or, decide_eq_true_eq] at refers
    exact hNew (hName ▸ refers)
  | case3 path entered inPlace name c found expands cases shape =>
    rw [named_enumeration found expands shape, guarded_found found,
      if_pos (new_of_expands hKeyed found expands), shape]
  | case4 path entered inPlace name c found expands properties shape new ih =>
    have hBelow : world.named (c.name :: path) [] = world.guarded (c.name :: path) :=
      funext fun inPlace => funext fun name => ih inPlace name
    rw [named_enters found expands shape new, guarded_found found,
      if_pos (new_of_expands hKeyed found expands), shape, hBelow]
  | case5 path entered inPlace name c found expands properties shape old new ih =>
    exact absurd (new_of_expands hKeyed found expands).2 old
  | case6 path entered inPlace name c found expands properties shape old again =>
    exact absurd (new_of_expands hKeyed found expands).2 old

/-! ## The whole picture -/

/-- The conversion of a descriptor ends unless it is noticed to be endless, and what it gives is
what the plain recursion gives.  It always ends where there is no trap, and a property that expands
a trapped name in place ends only if it is cut short by a descriptor without a type.  In a keyed
registry there are no traps, no class is entered inside its own expansion, and every cycle ends in
a reference. -/
theorem convert_ends (world : World) :
    (∀ path scope text, world.Ends path scope text ↔
      (world.convertWithin path scope text).outcome ≠ .error .endless) ∧
    (∀ depth path scope text,
      (world.convertTo depth path scope text).outcome ≠ .error .endless →
        world.convertWithin path scope text = world.convertTo depth path scope text) ∧
    ((∀ names, ¬world.Trap names) → ∀ path scope text, world.Ends path scope text) ∧
    (∀ names, world.Trap names → ∀ scope : Scope, scope.property.isInline = true →
      ∀ text, ∀ name ∈ names,
        name ∈ Descriptor.mentions (overrides (some scope) world.replacements)
          (Descriptor.parse text.toList) →
        (world.Ends [] (some scope) text ↔
          ∃ fault, (world.convert (some scope) text).outcome = .error (.unresolved fault))) ∧
    (world.registry.Keyed → (∀ names, ¬world.Trap names) ∧
      ∀ path inPlace name,
        world.named path [] inPlace name = world.guarded path inPlace name) := by
  refine ⟨fun path scope text => ends_iff, convertTo_approximates, fun hFree path scope text => ?_,
    ?_, fun hKeyed => ?_⟩
  · exact ends_iff.mpr (convertWithin_ne_endless hFree path scope text)
  · intro names hTrap scope hInline text name hName hMention
    exact hTrap.ends_iff_unresolved hInline hName hMention
  · exact ⟨not_trap_of_keyed hKeyed, fun path => named_eq_guarded hKeyed path []⟩

/-- A property that expands the class found under `a` in place. -/
def expandsA : Scope where
  property := { name := "z", declared := some "a", markers := [.inline] }
  owner := { name := "r", shape := .record [] }

/-- A tree that expands itself in place. -/
def selfExpanding : World where
  registry := Registry.insertAll []
    [ { name := "a"
        shape := .record
          [{ name := "x", declared := some "?a", markers := [.inline] }] } ]
  replacements := []

theorem selfExpanding_ends :
    selfExpanding.registry.Keyed ∧
    (∀ path scope text, selfExpanding.Ends path scope text) ∧
    (selfExpanding.convert (some expandsA) "a").outcome =
      .ok (.inlineRecord [("x", .union [.reference "a", .null])]) := by
  have hKeyed : selfExpanding.registry.Keyed := Registry.keyed_insertAll _
  obtain ⟨-, -, hEnds, -, hOwnNames⟩ := convert_ends selfExpanding
  exact ⟨hKeyed, hEnds (hOwnNames hKeyed).1, by decide +kernel⟩

/-- The class `k` under another name, by which it expands itself in place. -/
def aliased : World where
  registry :=
    [ ("a",
        { name := "k"
          shape := .record
            [{ name := "x", declared := some "a", markers := [.inline] }] }) ]
  replacements := []

/-- The class `k` under another name, and a class through which it expands itself in place. -/
def aliasedThroughM : World where
  registry :=
    [ ("a",
        { name := "k"
          shape := .record
            [{ name := "x", declared := some "m", markers := [.inline] }] }),
      ("m",
        { name := "m"
          shape := .record
            [{ name := "y", declared := some "a", markers := [.inline] }] }) ]
  replacements := []

theorem aliased_trap : aliased.Trap ["a"] := by
  have hInlined : aliased.inlined "a" = ["a"] := by decide +kernel
  refine ⟨List.cons_ne_nil _ _, fun name hName => ?_, fun name hName => ?_⟩
  · obtain rfl := List.mem_singleton.mp hName
    exact ⟨_, rfl, by decide⟩
  · obtain rfl := List.mem_singleton.mp hName
    exact ⟨"a", hInlined ▸ List.mem_singleton_self _, List.mem_singleton_self _⟩

/-- Under another name a class is entered inside its own expansion: without end, or until another
class closes the cycle. -/
theorem aliased_reentered :
    aliased.Trap ["a"] ∧ ¬aliased.Ends [] (some expandsA) "a" ∧
    (aliasedThroughM.convert (some expandsA) "a").outcome = .ok
      (.inlineRecord [("x", .inlineRecord [("y", .inlineRecord [("x", .reference "m")])])]) := by
  refine ⟨aliased_trap, fun hEnds => ends_iff.mp hEnds ?_, ?_⟩
  · decide +kernel
  · decide +kernel

end Ambient.World
