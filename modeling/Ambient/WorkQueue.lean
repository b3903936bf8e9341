/-!
# The work queue

Names waiting to be expanded, first in, first out.  A name is accepted once in the life of a queue:
after it has been handed out it is still known, so cycles of references come to an end.
-/

namespace Ambient

/-- A queue of names: those handed out already and those still waiting, no name twice. -/
structure WorkQueue where
  handed : List String
  pending : List String
  nodup : (handed ++ pending).Nodup

namespace WorkQueue

/-- The queue that has seen nothing. -/
def empty : WorkQueue := ⟨[], [], List.nodup_nil⟩

/-- Every name ever accepted, in order. -/
def offered (queue : WorkQueue) : List String :=
  queue.handed ++ queue.pending

def hasSeen (queue : WorkQueue) (name : String) : Bool :=
  queue.offered.contains name

/-- Appends a name that the queue has never seen, and says whether it did. -/
def enqueue (queue : WorkQueue) (name : String) : WorkQueue × Bool :=
  if h : name ∈ queue.handed ++ queue.pending then (queue, false)
  else
    ({ handed := queue.handed
       pending := queue.pending ++ [name]
       nodup := by
         rw [← List.append_assoc, List.nodup_append]
         refine ⟨queue.nodup, by simp, ?_⟩
         intro a ha b hb hab
         rw [List.mem_singleton] at hb
         exact h (hb ▸ hab ▸ ha) }, true)

def enqueueAll (queue : WorkQueue) (names : List String) : WorkQueue :=
  names.foldl (fun queue name => (queue.enqueue name).1) queue

/-- A queue with the given names waiting, each once. -/
def ofNames (names : List String) : WorkQueue :=
  empty.enqueueAll names

def shift? (queue : WorkQueue) : Option (String × WorkQueue) :=
  match h : queue.pending with
  | [] => none
  | name :: rest =>
    some (name,
      { handed := queue.handed ++ [name]
        pending := rest
        nodup := by simpa [h] using queue.nodup })

def drain (queue : WorkQueue) : List String × WorkQueue :=
  (queue.pending,
    { handed := queue.handed ++ queue.pending
      pending := []
      nodup := by simpa using queue.nodup })

theorem handed_of_shift? {queue rest : WorkQueue} {name : String}
    (h : queue.shift? = some (name, rest)) : rest.handed = queue.handed ++ [name] := by
  unfold shift? at h
  split at h
  · contradiction
  · simp only [Option.some.injEq, Prod.mk.injEq] at h
    obtain ⟨rfl, rfl⟩ := h
    rfl

theorem not_mem_handed_of_shift? {queue rest : WorkQueue} {name : String}
    (h : queue.shift? = some (name, rest)) : name ∉ queue.handed := by
  unfold shift? at h
  split at h
  · contradiction
  · rename_i head tail hp
    simp only [Option.some.injEq, Prod.mk.injEq] at h
    obtain ⟨rfl, -⟩ := h
    intro hm
    have := queue.nodup
    rw [hp, List.nodup_append] at this
    exact this.2.2 _ hm _ (List.mem_cons_self ..) rfl

theorem handed_enqueue (queue : WorkQueue) (name : String) :
    (queue.enqueue name).1.handed = queue.handed := by
  unfold enqueue
  split <;> rfl

theorem handed_enqueueAll (queue : WorkQueue) (names : List String) :
    (queue.enqueueAll names).handed = queue.handed := by
  induction names generalizing queue with
  | nil => rfl
  | cons name rest ih =>
    simp only [enqueueAll, List.foldl_cons] at ih ⊢
    rw [ih, handed_enqueue]

end WorkQueue

end Ambient
