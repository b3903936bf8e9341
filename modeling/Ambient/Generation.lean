import Ambient.Expansion
import Ambient.NamespaceTree
import Ambient.WorkQueue

/-!
# Generation

From a few seed classes to the declarations of everything they refer to.  Classes are expanded in
the order of their discovery, each once: what a class asks for is queued behind what others asked
for before.
-/

namespace Ambient.World

/-- The lookup names of the registry that were not handed out. -/
def waiting (world : World) (queue : WorkQueue) : Registry :=
  unentered world.registry queue.handed

theorem length_waiting_lt {world : World} {queue rest : WorkQueue} {name : String} {c : Class}
    (taken : queue.shift? = some (name, rest))
    (found : Table.find? world.registry name = some c) (asks : List String) :
    (world.waiting (rest.enqueueAll asks)).length < (world.waiting queue).length := by
  have new := WorkQueue.not_mem_handed_of_shift? taken
  refine length_filter_lt (name, c) ?_ (Table.mem_of_find? found) (by simpa using new) ?_
  · intro entry h
    rw [WorkQueue.handed_enqueueAll, WorkQueue.handed_of_shift? taken] at h
    simp only [List.mem_append, not_or, decide_eq_true_eq] at h ⊢
    exact h.1
  · rw [WorkQueue.handed_enqueueAll, WorkQueue.handed_of_shift? taken]
    simp

set_option linter.unusedVariables false in
/-- The declarations of the queued classes and of all they ask for, in the order of expansion, each
with the name it was asked for by. -/
def expandAll (world : World) (queue : WorkQueue) : Except Failure (List (String × Declaration)) :=
  match taken : queue.shift? with
  | none => .ok []
  | some (name, rest) =>
    match found : Table.find? world.registry name with
    | none => .error (.unknownClass name)
    | some c =>
      let conversion := world.declare c
      match conversion.outcome with
      | .error failure => .error failure
      | .ok declaration =>
        (world.expandAll (rest.enqueueAll conversion.asks)).map ((name, declaration) :: ·)
termination_by (world.waiting queue).length
decreasing_by exact length_waiting_lt taken found _

section ExpandAll

variable {world : World} {queue rest : WorkQueue} {name : String} {c : Class}

theorem expandAll_empty (taken : queue.shift? = none) : world.expandAll queue = .ok [] := by
  rw [expandAll]
  split
  · rfl
  · rename_i taken'
    rw [taken] at taken'
    contradiction

theorem expandAll_unknown (taken : queue.shift? = some (name, rest))
    (found : Table.find? world.registry name = none) :
    world.expandAll queue = .error (.unknownClass name) := by
  rw [expandAll]
  split
  · rename_i taken'
    rw [taken] at taken'
    contradiction
  · rename_i name' rest' taken'
    obtain ⟨rfl, rfl⟩ := Prod.mk.inj (Option.some.inj (taken.symm.trans taken'))
    split
    · rfl
    · rename_i found'
      rw [found] at found'
      contradiction

/-- What a known class at the head of the queue leads to. -/
theorem expandAll_found (taken : queue.shift? = some (name, rest))
    (found : Table.find? world.registry name = some c) :
    world.expandAll queue =
      match (world.declare c).outcome with
      | .error failure => .error failure
      | .ok declaration =>
        (world.expandAll (rest.enqueueAll (world.declare c).asks)).map
          ((name, declaration) :: ·) := by
  rw [expandAll]
  split
  · rename_i taken'
    rw [taken] at taken'
    contradiction
  · rename_i name' rest' taken'
    obtain ⟨rfl, rfl⟩ := Prod.mk.inj (Option.some.inj (taken.symm.trans taken'))
    split
    · rename_i found'
      rw [found] at found'
      contradiction
    · rename_i c' found'
      obtain rfl : c = c' := Option.some.inj (found.symm.trans found')
      rfl

end ExpandAll

/-- The tree of declarations of the seeds and of all they refer to. -/
def declarations (world : World) (seeds : List String) : Except Failure NamespaceTree :=
  (world.expandAll (WorkQueue.ofNames seeds)).map NamespaceTree.ofList

end Ambient.World
