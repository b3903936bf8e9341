import Ambient.Proofs.QueueHistory
import Mathlib.Data.Finset.Insert

/-!
# A queue in two containers

A queue need not keep the names that it has handed out.  It can do with the names that wait and a
set of all names ever accepted.  Nothing in the form of these two containers makes them agree, only
what the calls do to them.

One call leaves the containers in step with the queue that keeps everything, and gets the same
answer from both (`Represents.after`, `Represents.answer_eq`).  So both give the same answers in the
course of any history (`answersIn_eq`), and the containers agree at its end: what waits are the
names seen that were not given out, in the order of their first offers (`containers_agree`).
-/

namespace Ambient

/-- What a queue answers to a call. -/
inductive WorkQueue.Answer
  | accepted (isNew : Bool)
  | given (name : Option String)
  deriving DecidableEq, Repr

open WorkQueue (Call Answer offeredIn)

namespace WorkQueue

def answer (queue : WorkQueue) : Call → Answer
  | .enqueue name => .accepted (queue.enqueue name).2
  | .shift => .given (queue.shift?.map Prod.fst)

/-- The answers in the course of a history. -/
def answersIn (queue : WorkQueue) : List Call → List Answer
  | [] => []
  | call :: calls => queue.answer call :: (queue.after call).answersIn calls

end WorkQueue

/-- The names that wait, and a set of names. -/
structure Containers where
  pending : List String := []
  seen : Finset String := ∅

namespace Containers

/-- Appends a name unless it was seen, and says whether it did. -/
def enqueue (containers : Containers) (name : String) : Containers × Bool :=
  if name ∈ containers.seen then (containers, false)
  else
    ({ pending := containers.pending ++ [name], seen := insert name containers.seen }, true)

def ofNames (names : List String) : Containers :=
  names.foldl (fun containers name => (containers.enqueue name).1) {}

def shift? (containers : Containers) : Option (String × Containers) :=
  match containers.pending with
  | [] => none
  | name :: rest => some (name, { containers with pending := rest })

def hasSeen (containers : Containers) (name : String) : Bool :=
  name ∈ containers.seen

def answer (containers : Containers) : Call → Answer
  | .enqueue name => .accepted (containers.enqueue name).2
  | .shift => .given (containers.shift?.map Prod.fst)

def after (containers : Containers) : Call → Containers
  | .enqueue name => (containers.enqueue name).1
  | .shift =>
    match containers.shift? with
    | some (_, rest) => rest
    | none => containers

def afterAll (containers : Containers) (calls : List Call) : Containers :=
  calls.foldl after containers

def answersIn (containers : Containers) : List Call → List Answer
  | [] => []
  | call :: calls => containers.answer call :: (containers.after call).answersIn calls

/-- Whether containers hold what a queue does. -/
structure Represents (containers : Containers) (queue : WorkQueue) : Prop where
  pending : containers.pending = queue.pending
  seen : ∀ name, name ∈ containers.seen ↔ name ∈ queue.offered

/-! ## One call -/

namespace Represents

variable {containers : Containers} {queue : WorkQueue}

theorem empty : Represents {} WorkQueue.empty where
  pending := rfl
  seen := fun name => by simp [WorkQueue.empty, WorkQueue.offered]

theorem enqueue_eq (h : containers.Represents queue) (name : String) :
    (containers.enqueue name).2 = (queue.enqueue name).2 := by
  rw [Bool.eq_iff_iff, WorkQueue.enqueue_eq_true_iff, ← h.seen, enqueue]
  split <;> simp_all

theorem enqueue (h : containers.Represents queue) (name : String) :
    (containers.enqueue name).1.Represents (queue.enqueue name).1 := by
  unfold Containers.enqueue WorkQueue.enqueue
  -- both know the same names, so they refuse or append together
  by_cases hSeen : name ∈ queue.handed ++ queue.pending
  · rw [if_pos ((h.seen name).mpr hSeen), dif_pos hSeen]
    exact h
  · rw [if_neg fun hMem => hSeen ((h.seen name).mp hMem), dif_neg hSeen]
    refine ⟨congrArg (· ++ [name]) h.pending, fun other => ?_⟩
    have hOffered : other ∈ queue.handed ++ (queue.pending ++ [name]) ↔
        other ∈ queue.offered ∨ other = name := by
      rw [← List.append_assoc, List.mem_append, List.mem_singleton]
      rfl
    rw [Finset.mem_insert, h.seen, or_comm]
    exact hOffered.symm

/-- Either both have nothing to give, or they give the same name and are in step after it. -/
theorem shift? (h : containers.Represents queue) :
    (containers.shift? = none ∧ queue.shift? = none) ∨
      ∃ name restContainers rest, containers.shift? = some (name, restContainers) ∧
        queue.shift? = some (name, rest) ∧ restContainers.Represents rest := by
  cases hShift : queue.shift? with
  | none =>
    refine .inl ⟨?_, rfl⟩
    rw [Containers.shift?, h.pending, WorkQueue.pending_of_shift?_eq_none hShift]
  | some taken =>
    obtain ⟨name, rest⟩ := taken
    refine .inr ⟨name, { containers with pending := rest.pending }, rest, ?_, rfl, rfl, ?_⟩
    · rw [Containers.shift?, h.pending, WorkQueue.pending_of_shift? hShift]
    · -- what was handed out stays seen
      intro other
      rw [WorkQueue.offered_of_shift? hShift]
      exact h.seen other

theorem answer_eq (h : containers.Represents queue) (call : Call) :
    containers.answer call = queue.answer call := by
  cases call with
  | enqueue name => exact congrArg Answer.accepted (h.enqueue_eq name)
  | shift =>
    rw [Containers.answer, WorkQueue.answer]
    rcases h.shift? with ⟨hNone, hNone'⟩ | ⟨name, _, _, hSome, hSome', -⟩
    · rw [hNone, hNone']
      rfl
    · rw [hSome, hSome']
      rfl

theorem after (h : containers.Represents queue) (call : Call) :
    (containers.after call).Represents (queue.after call) := by
  cases call with
  | enqueue name => exact h.enqueue name
  | shift =>
    rw [Containers.after, WorkQueue.after]
    rcases h.shift? with ⟨hNone, hNone'⟩ | ⟨name, _, _, hSome, hSome', hRest⟩
    · rw [hNone, hNone']
      exact h
    · rw [hSome, hSome']
      exact hRest

/-! ## A history -/

theorem afterAll (h : containers.Represents queue) (calls : List Call) :
    (containers.afterAll calls).Represents (queue.afterAll calls) := by
  induction calls generalizing containers queue with
  | nil => exact h
  | cons call calls ih => exact ih (h.after call)

theorem answersIn_eq (h : containers.Represents queue) (calls : List Call) :
    containers.answersIn calls = queue.answersIn calls := by
  induction calls generalizing containers queue with
  | nil => rfl
  | cons call calls ih =>
    rw [Containers.answersIn, WorkQueue.answersIn, h.answer_eq call, ih (h.after call)]

theorem enqueueAll (h : containers.Represents queue) (names : List String) :
    (names.foldl (fun containers name => (containers.enqueue name).1) containers).Represents
      (queue.enqueueAll names) := by
  induction names generalizing containers queue with
  | nil => exact h
  | cons name rest ih => exact ih (h.enqueue name)

theorem ofNames (names : List String) : (ofNames names).Represents (WorkQueue.ofNames names) :=
  empty.enqueueAll names

end Represents

/-- Containers filled from seeds give the answers of the queue in every history, and agree with one
another at its end: no name waits twice, whatever waits was seen, and the names seen are those that
were ever offered. -/
theorem containers_agree (seeds : List String) (calls : List Call) :
    let containers := (ofNames seeds).afterAll calls
    let queue := (WorkQueue.ofNames seeds).afterAll calls
    (ofNames seeds).answersIn calls = (WorkQueue.ofNames seeds).answersIn calls ∧
    (∀ call, containers.answer call = queue.answer call) ∧
    (∀ name, containers.hasSeen name = queue.hasSeen name) ∧
    containers.pending.Nodup ∧
    (∀ name ∈ containers.pending, name ∈ containers.seen) ∧
    ∀ name, name ∈ containers.seen ↔ name ∈ seeds ++ offeredIn calls := by
  intro containers queue
  have hSeeds := Represents.ofNames seeds
  have h : containers.Represents queue := hSeeds.afterAll calls
  have hOffered : queue.offered = (seeds ++ offeredIn calls).eraseDups := by
    rw [WorkQueue.offered_afterAll, WorkQueue.offered_ofNames, eraseDups_eraseDups_append]
  refine ⟨hSeeds.answersIn_eq calls, h.answer_eq, fun name => ?_, ?_, fun name hName => ?_,
    fun name => ?_⟩
  · rw [Bool.eq_iff_iff, WorkQueue.hasSeen_iff, ← h.seen, hasSeen, decide_eq_true_iff]
  · rw [h.pending]
    exact (List.nodup_append.mp queue.nodup).2.1
  · rw [h.seen]
    exact List.mem_append_right _ (h.pending ▸ hName)
  · rw [h.seen, hOffered, List.mem_eraseDups]

end Containers
end Ambient
