import Ambient.Proofs.WorkQueue

/-!
# Histories of a queue

A history is a list of calls that offer names to a queue or ask it for one.  The names that it
offers are read off the calls (`offeredIn`), and those that the queue gives out in the course of it
off what it answers (`givenIn`).  Neither looks into the queue, which keeps no record of offers:
what it has seen is what it has handed out and what still waits.

One call extends the names accepted by the name that it offers, unless the queue has seen it, and
the names handed out by the one that it gives (`offered_after`, `handed_after`).  By induction the
same holds of a history (`offered_afterAll`, `handed_afterAll`), and what a queue made from seeds
answers at the end of any history follows (`given_once`).
-/

namespace Ambient.WorkQueue

/-- A call on a queue: a name is offered to it, or it is asked for one. -/
inductive Call
  | enqueue (name : String)
  | shift
  deriving DecidableEq, Repr

def Call.offers : Call → List String
  | enqueue name => [name]
  | shift => []

/-- The names that a history offers, in order and as often as it does. -/
def offeredIn (calls : List Call) : List String :=
  calls.flatMap Call.offers

/-- The queue that a call leaves; one with nothing to give is left as it is. -/
def after (queue : WorkQueue) : Call → WorkQueue
  | .enqueue name => (queue.enqueue name).1
  | .shift =>
    match queue.shift? with
    | some (_, rest) => rest
    | none => queue

/-- The queue at the end of a history. -/
def afterAll (queue : WorkQueue) (calls : List Call) : WorkQueue :=
  calls.foldl after queue

/-- The name that the queue gives out on a call, if any. -/
def gives (queue : WorkQueue) : Call → List String
  | .enqueue _ => []
  | .shift => (queue.shift?.map Prod.fst).toList

/-- The names that the queue gives out in the course of a history, in order. -/
def givenIn (queue : WorkQueue) : List Call → List String
  | [] => []
  | call :: calls => queue.gives call ++ (queue.after call).givenIn calls

/-! ## One call -/

theorem shift?_eq_none_iff {queue : WorkQueue} : queue.shift? = none ↔ queue.pending = [] := by
  constructor
  · exact pending_of_shift?_eq_none
  · intro hEmpty
    cases hShift : queue.shift? with
    | none => rfl
    | some taken =>
      -- a name that is handed out was waiting
      rw [pending_of_shift? hShift] at hEmpty
      cases hEmpty

theorem enqueue_eq_true_iff {queue : WorkQueue} {name : String} :
    (queue.enqueue name).2 = true ↔ name ∉ queue.offered := by
  unfold enqueue offered
  split <;> simp_all

theorem offered_after (queue : WorkQueue) (call : Call) :
    (queue.after call).offered = (queue.offered ++ call.offers).eraseDups := by
  cases call with
  | enqueue name => exact offered_enqueueAll queue [name]
  | shift =>
    rw [Call.offers, List.append_nil, eraseDups_of_nodup queue.offered_nodup, after]
    split
    · rename_i hShift
      exact offered_of_shift? hShift
    · rfl

theorem handed_after (queue : WorkQueue) (call : Call) :
    (queue.after call).handed = queue.handed ++ queue.gives call := by
  cases call with
  | enqueue name =>
    rw [gives, List.append_nil]
    exact handed_enqueue queue name
  | shift =>
    rw [after, gives]
    split
    · rename_i hShift
      rw [hShift]
      exact handed_of_shift? hShift
    · rename_i hShift
      rw [hShift]
      exact (List.append_nil _).symm

/-! ## A history -/

theorem offered_afterAll (queue : WorkQueue) (calls : List Call) :
    (queue.afterAll calls).offered = (queue.offered ++ offeredIn calls).eraseDups := by
  induction calls generalizing queue with
  | nil =>
    show queue.offered = (queue.offered ++ []).eraseDups
    rw [List.append_nil, eraseDups_of_nodup queue.offered_nodup]
  | cons call calls ih =>
    -- the rest of the history starts from the queue that the first call leaves
    calc (queue.afterAll (call :: calls)).offered
        = ((queue.after call).offered ++ offeredIn calls).eraseDups := ih _
      _ = (queue.offered ++ offeredIn (call :: calls)).eraseDups := by
          rw [offered_after, eraseDups_eraseDups_append, List.append_assoc]
          rfl

theorem handed_afterAll (queue : WorkQueue) (calls : List Call) :
    (queue.afterAll calls).handed = queue.handed ++ queue.givenIn calls := by
  induction calls generalizing queue with
  | nil => exact (List.append_nil _).symm
  | cons call calls ih =>
    calc (queue.afterAll (call :: calls)).handed
        = (queue.after call).handed ++ (queue.after call).givenIn calls := ih _
      _ = queue.handed ++ queue.givenIn (call :: calls) := by
          rw [handed_after, List.append_assoc]
          rfl

/-- The names given out in a history from seeds, followed by those that wait at its end, are the
distinct names that were ever offered, each at its first offer.  What the queue answers next depends
on nothing else: it accepts just the names that were never offered, whether or not they still wait,
has seen just those that were, and has nothing to give just if it has given out all of them. -/
theorem given_once (seeds : List String) (calls : List Call) :
    let queue := (ofNames seeds).afterAll calls
    let given := (ofNames seeds).givenIn calls
    let offered := seeds ++ offeredIn calls
    given ++ queue.pending = offered.eraseDups ∧
    (∀ name, (queue.enqueue name).2 = true ↔ name ∉ offered) ∧
    (∀ name, queue.hasSeen name = true ↔ name ∈ offered) ∧
    (queue.shift? = none ↔ given = offered.eraseDups) := by
  intro queue given offered
  have hOffered : queue.offered = offered.eraseDups := by
    rw [offered_afterAll, offered_ofNames, eraseDups_eraseDups_append]
  have hHanded : queue.handed = given := by
    rw [handed_afterAll, handed_ofNames, List.nil_append]
  have hOrder : given ++ queue.pending = offered.eraseDups := by
    rw [← hHanded, ← hOffered]
    rfl
  refine ⟨hOrder, fun name => ?_, fun name => ?_, ?_⟩
  · rw [enqueue_eq_true_iff, hOffered, List.mem_eraseDups]
  · rw [hasSeen_iff, hOffered, List.mem_eraseDups]
  · rw [shift?_eq_none_iff, ← hOrder, List.self_eq_append_right]

-- The first name is offered twice more, the second time after it was handed out.
example : (ofNames ["x", "y", "x"]).givenIn
    [.shift, .enqueue "x", .enqueue "z", .shift, .shift, .shift] = ["x", "y", "z"] := by decide

end Ambient.WorkQueue
