import Ambient.Conversion

/-!
# Class names and inline expansion

A class name in a descriptor is a reference to its declaration, unless the property asks for the
class to be expanded in place.  An expansion converts the properties of the class in its stead, and
these may expand further classes.  A class whose own expansion is under way is not entered again:
it is referred to, so a cycle of classes ends in a reference.

Classes are entered under the name they are looked up by, while the expansions under way are known
by the classes' own names.  Where both always agree every expansion ends.  Where they differ, a
class can be entered again and again in the same surroundings; that is noticed and fails.
-/

namespace Ambient

/-- What descriptors are converted against. -/
structure World where
  registry : Registry
  replacements : Replacements

namespace World

/-- The entries whose class is not being expanded. -/
def fresh (registry : Registry) (path : List String) : Registry :=
  registry.filter fun entry => entry.2.name ∉ path

/-- The entries not entered since the last expansion of a new class. -/
def unentered (registry : Registry) (entered : List String) : Registry :=
  registry.filter fun entry => entry.1 ∉ entered

theorem length_filter_lt {α : Type} {p q : α → Bool} {items : List α} (item : α)
    (sub : ∀ x, p x = true → q x = true) (mem : item ∈ items) (hq : q item = true)
    (hp : p item = false) : (items.filter p).length < (items.filter q).length := by
  induction items with
  | nil => simp at mem
  | cons first rest ih =>
    -- the rest loses nothing, so that it is enough to find the item that only `q` keeps
    have le : (rest.filter p).length ≤ (rest.filter q).length := by
      simp only [← List.countP_eq_length_filter]
      exact List.countP_mono_left fun x _ hx => sub x hx
    rcases List.mem_cons.mp mem with rfl | mem
    · simp only [List.filter_cons, hp, hq, if_true, Bool.false_eq_true, if_false,
        List.length_cons]
      omega
    · have lt := ih mem
      cases hp : p first with
      | true =>
        simp only [List.filter_cons, hp, sub first hp, if_true, List.length_cons]
        omega
      | false =>
        cases hq : q first with
        | true =>
          simp only [List.filter_cons, hp, hq, if_true, Bool.false_eq_true, if_false,
            List.length_cons]
          omega
        | false => simpa only [List.filter_cons, hp, hq, Bool.false_eq_true, if_false] using lt

theorem length_fresh_cons_lt {registry : Registry} {name : String} {c : Class}
    {path : List String} (found : Table.find? registry name = some c) (new : c.name ∉ path) :
    (fresh registry (c.name :: path)).length < (fresh registry path).length := by
  refine length_filter_lt (name, c) ?_ (Table.mem_of_find? found) (by simpa using new)
    (by simp)
  intro entry h
  simp only [List.mem_cons, not_or, decide_eq_true_eq] at h ⊢
  exact h.2

theorem length_unentered_cons_lt {registry : Registry} {name : String} {c : Class}
    {entered : List String} (found : Table.find? registry name = some c)
    (new : name ∉ entered) :
    (unentered registry (name :: entered)).length < (unentered registry entered).length := by
  refine length_filter_lt (name, c) ?_ (Table.mem_of_find? found) (by simpa using new)
    (by simp)
  intro entry h
  simp only [List.mem_cons, not_or, decide_eq_true_eq] at h ⊢
  exact h.2

/-- A bound on the nested expansions that `named` enters: the classes not being expanded yet, and
for each of them all lookup names. -/
def effort (world : World) (path entered : List String) : Nat :=
  (fresh world.registry path).length * (world.registry.length + 1) +
    (unentered world.registry entered).length

section Effort

variable {world : World} {path entered : List String} {name : String} {c : Class}

theorem effort_cons_lt (found : Table.find? world.registry name = some c) (new : c.name ∉ path) :
    world.effort (c.name :: path) [] < world.effort path entered := by
  have fewer := length_fresh_cons_lt found new
  have bound : (unentered world.registry []).length ≤ world.registry.length :=
    List.length_filter_le _ _
  -- the new class takes away a whole round of lookup names, which pays for starting another
  have product := Nat.mul_le_mul_right (world.registry.length + 1) (Nat.succ_le_of_lt fewer)
  rw [Nat.succ_mul] at product
  unfold effort
  omega

theorem effort_entered_lt (found : Table.find? world.registry name = some c)
    (new : name ∉ entered) : world.effort path (name :: entered) < world.effort path entered :=
  Nat.add_lt_add_left (length_unentered_cons_lt found new) _

end Effort

set_option linter.unusedVariables false in
/-- The meaning of a class name, in a property that expands in place or in one that does not.
`path` holds the own names of the classes being expanded, innermost first, and `entered` the lookup
names under which classes were entered since `path` last got a new name. -/
def named (world : World) (path entered : List String) (inPlace : Bool) (name : String) :
    Conversion TsType :=
  match found : Table.find? world.registry name with
  | none => pure .unknown
  | some c =>
    if !inPlace || name ∈ path then .ask name (.reference name)
    else
      match c.shape with
      | .enumeration cases => pure (.inlineEnum (cases.map Case.value))
      | .record properties =>
        if new : c.name ∉ path then
          .inlineRecord <$>
            convertProperties world.replacements (world.named (c.name :: path) []) c properties
        else if new : name ∉ entered then
          .inlineRecord <$>
            convertProperties world.replacements (world.named path (name :: entered)) c properties
        else .fail .endless
termination_by world.effort path entered
decreasing_by
  · exact effort_cons_lt found new
  · exact effort_entered_lt found new

/-- When a class name is expanded. -/
theorem expands_iff {path : List String} {inPlace : Bool} {name : String} :
    ¬(!inPlace || name ∈ path) = true ↔ inPlace = true ∧ name ∉ path := by
  simp only [Bool.or_eq_true, Bool.not_eq_true', decide_eq_true_eq, not_or, Bool.not_eq_false]

section Named

variable {world : World} {path entered : List String} {inPlace : Bool} {name : String} {c : Class}

theorem named_unknown (found : Table.find? world.registry name = none) :
    world.named path entered inPlace name = pure .unknown := by
  rw [named]
  split
  · rfl
  · rename_i found'
    rw [found] at found'
    contradiction

/-- What a class name means when it is found. -/
theorem named_found (found : Table.find? world.registry name = some c) :
    world.named path entered inPlace name =
      if !inPlace || name ∈ path then .ask name (.reference name)
      else
        match c.shape with
        | .enumeration cases => pure (.inlineEnum (cases.map Case.value))
        | .record properties =>
          if c.name ∉ path then
            .inlineRecord <$>
              convertProperties world.replacements (world.named (c.name :: path) []) c properties
          else if name ∉ entered then
            .inlineRecord <$>
              convertProperties world.replacements (world.named path (name :: entered)) c
                properties
          else .fail .endless := by
  rw [named]
  split
  · rename_i found'
    rw [found] at found'
    contradiction
  · rename_i c' found'
    obtain rfl : c = c' := Option.some.inj (found.symm.trans found')
    rfl

theorem named_refers (found : Table.find? world.registry name = some c)
    (refers : (!inPlace || name ∈ path) = true) :
    world.named path entered inPlace name = .ask name (.reference name) := by
  rw [named_found found, if_pos refers]

theorem named_enumeration (found : Table.find? world.registry name = some c)
    (expands : ¬(!inPlace || name ∈ path) = true) {cases : List Case}
    (shape : c.shape = .enumeration cases) :
    world.named path entered inPlace name = pure (.inlineEnum (cases.map Case.value)) := by
  rw [named_found found, if_neg expands, shape]

/-- A class whose expansion is not under way is entered. -/
theorem named_enters (found : Table.find? world.registry name = some c)
    (expands : ¬(!inPlace || name ∈ path) = true) {properties : List Property}
    (shape : c.shape = .record properties) (new : c.name ∉ path) :
    world.named path entered inPlace name =
      .inlineRecord <$>
        convertProperties world.replacements (world.named (c.name :: path) []) c properties := by
  rw [named_found found, if_neg expands, shape]
  exact if_pos new

/-- A class whose expansion is under way is entered again, once under each name that hides it. -/
theorem named_reenters (found : Table.find? world.registry name = some c)
    (expands : ¬(!inPlace || name ∈ path) = true) {properties : List Property}
    (shape : c.shape = .record properties) (old : c.name ∈ path) (new : name ∉ entered) :
    world.named path entered inPlace name =
      .inlineRecord <$>
        convertProperties world.replacements (world.named path (name :: entered)) c
          properties := by
  rw [named_found found, if_neg expands, shape]
  exact (if_neg (not_not_intro old)).trans (if_pos new)

theorem named_endless (found : Table.find? world.registry name = some c)
    (expands : ¬(!inPlace || name ∈ path) = true) {properties : List Property}
    (shape : c.shape = .record properties) (old : c.name ∈ path) (again : name ∈ entered) :
    world.named path entered inPlace name = .fail .endless := by
  rw [named_found found, if_neg expands, shape]
  exact (if_neg (not_not_intro old)).trans (if_neg (not_not_intro again))

end Named

/-- Converts the descriptor of a property, or one that belongs to no property, while the classes of
`path` are being expanded. -/
def convertWithin (world : World) (path : List String) (scope : Option Scope) (text : String) :
    Conversion TsType :=
  let reading : Reading :=
    { scope := scope
      replacements := world.replacements
      named := world.named path [] (scope.any (·.property.isInline)) }
  reading.convert (Descriptor.parse text.toList)

/-- Converts a descriptor with no expansion under way. -/
def convert (world : World) (scope : Option Scope) (text : String) : Conversion TsType :=
  world.convertWithin [] scope text

/-- Converts the properties of a record that is declared by name. -/
def properties (world : World) (owner : Class) (properties : List Property) :
    Conversion (Table TsType) :=
  convertProperties world.replacements (world.named [] []) owner properties

/-- The declaration of a class. -/
def declare (world : World) (c : Class) : Conversion Declaration :=
  match c.shape with
  | .record properties => .record c.shortName <$> world.properties c properties
  | .enumeration cases =>
    pure (.enumeration c.shortName (Table.ofFirst (cases.map fun case => (case.name, case.value))))

theorem declare_record {world : World} {c : Class} {properties : List Property}
    (shape : c.shape = .record properties) :
    world.declare c = .record c.shortName <$> world.properties c properties := by
  rw [declare, shape]

theorem declare_enumeration {world : World} {c : Class} {cases : List Case}
    (shape : c.shape = .enumeration cases) :
    world.declare c = pure (.enumeration c.shortName
      (Table.ofFirst (cases.map fun case => (case.name, case.value)))) := by
  rw [declare, shape]

end World

end Ambient
