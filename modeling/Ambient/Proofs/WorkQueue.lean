import Ambient.WorkQueue
import Mathlib.Data.List.Induction

/-!
# The names a queue has seen

`WorkQueue.offered` is the view of a queue that all of its laws are about: the names handed out and
then those waiting.  Enqueueing only ever extends it by what is new (`offered_enqueueAll`), and
handing out a name moves the border between the two parts (`offered_of_shift?`).
-/

namespace Ambient

/-! ## Distinct names -/

section Distinct

variable {α : Type} [BEq α] [LawfulBEq α]

open Classical in
-- The recursion of `eraseDups` drops the later copies of the first item, while a queue grows at its
-- end: all laws here are proved by induction from the end, with this equation for the step.
theorem eraseDups_concat (items : List α) (item : α) :
    (items ++ [item]).eraseDups =
      if item ∈ items then items.eraseDups else items.eraseDups ++ [item] := by
  rw [List.eraseDups_append]
  by_cases hMem : item ∈ items
  · rw [if_pos hMem, show [item].removeAll items = [] by simp [List.removeAll, hMem],
      List.eraseDups_nil, List.append_nil]
  · rw [if_neg hMem, show [item].removeAll items = [item] by simp [List.removeAll, hMem],
      List.eraseDups_cons, List.filter_nil, List.eraseDups_nil]

theorem nodup_eraseDups (items : List α) : items.eraseDups.Nodup := by
  induction items using List.reverseRec with
  | nil => simp
  | append_singleton items item ih =>
    rw [eraseDups_concat]
    split
    · exact ih
    · -- the item that is added is none of the earlier ones
      rename_i hNew
      rw [List.nodup_append]
      refine ⟨ih, by simp, fun a ha b hb hab => ?_⟩
      rw [List.mem_singleton] at hb
      exact hNew (List.mem_eraseDups.mp (hb ▸ hab ▸ ha))

theorem eraseDups_of_nodup {items : List α} (h : items.Nodup) : items.eraseDups = items := by
  induction items using List.reverseRec with
  | nil => rfl
  | append_singleton items item ih =>
    rw [List.nodup_append] at h
    have hNew : item ∉ items := fun hMem => h.2.2 item hMem item (List.mem_singleton_self _) rfl
    rw [eraseDups_concat, if_neg hNew, ih h.1]

theorem eraseDups_eraseDups_append (items more : List α) :
    (items.eraseDups ++ more).eraseDups = (items ++ more).eraseDups := by
  induction more using List.reverseRec with
  | nil =>
    rw [List.append_nil, List.append_nil]
    exact eraseDups_of_nodup (nodup_eraseDups items)
  | append_singleton more item ih =>
    rw [← List.append_assoc, ← List.append_assoc, eraseDups_concat, eraseDups_concat, ih]
    simp only [List.mem_append, List.mem_eraseDups]

end Distinct

namespace WorkQueue

/-! ## Enqueueing -/

theorem offered_nodup (queue : WorkQueue) : queue.offered.Nodup :=
  queue.nodup

theorem hasSeen_iff {queue : WorkQueue} {name : String} :
    queue.hasSeen name = true ↔ name ∈ queue.offered := by
  simp [hasSeen]

theorem offered_enqueue (queue : WorkQueue) (name : String) :
    (queue.enqueue name).1.offered =
      if name ∈ queue.offered then queue.offered else queue.offered ++ [name] := by
  unfold enqueue offered
  split
  · rfl
  · exact (List.append_assoc ..).symm

/-- Names extend the view by what is new, in the order of their first mention. -/
theorem offered_enqueueAll (queue : WorkQueue) (names : List String) :
    (queue.enqueueAll names).offered = (queue.offered ++ names).eraseDups := by
  induction names using List.reverseRec with
  | nil =>
    rw [List.append_nil, eraseDups_of_nodup queue.offered_nodup]
    rfl
  | append_singleton names name ih =>
    -- the last name is enqueued in the queue that the names before it have left
    have hLast : queue.enqueueAll (names ++ [name]) =
        ((queue.enqueueAll names).enqueue name).1 := by
      simp [enqueueAll]
    rw [hLast, offered_enqueue, ih, ← List.append_assoc, eraseDups_concat]
    simp only [List.mem_eraseDups]

theorem enqueueAll_append (queue : WorkQueue) (names more : List String) :
    queue.enqueueAll (names ++ more) = (queue.enqueueAll names).enqueueAll more :=
  List.foldl_append

/-- What is new among the names waits after what has waited before. -/
theorem pending_enqueueAll (queue : WorkQueue) (names : List String) :
    (queue.enqueueAll names).pending =
      queue.pending ++ (names.removeAll queue.offered).eraseDups := by
  have hOffered := offered_enqueueAll queue names
  rw [List.eraseDups_append, eraseDups_of_nodup queue.offered_nodup, offered, offered,
    handed_enqueueAll, List.append_assoc] at hOffered
  exact List.append_cancel_left hOffered

theorem offered_ofNames (names : List String) : (ofNames names).offered = names.eraseDups :=
  offered_enqueueAll empty names

theorem handed_ofNames (names : List String) : (ofNames names).handed = [] :=
  handed_enqueueAll empty names

theorem mem_offered_enqueueAll {queue : WorkQueue} {names : List String} {name : String} :
    name ∈ (queue.enqueueAll names).offered ↔ name ∈ queue.offered ∨ name ∈ names := by
  rw [offered_enqueueAll, List.mem_eraseDups, List.mem_append]

/-- What waits after names were enqueued has waited before, or is one of the names. -/
theorem mem_pending_enqueueAll {queue : WorkQueue} {names : List String} {name : String}
    (h : name ∈ (queue.enqueueAll names).pending) : name ∈ queue.pending ∨ name ∈ names := by
  have hOffered : name ∈ (queue.enqueueAll names).offered := List.mem_append_right _ h
  rcases mem_offered_enqueueAll.mp hOffered with hOld | hNew
  · rcases List.mem_append.mp hOld with hHanded | hPending
    · -- nothing that was handed out waits again
      rw [← handed_enqueueAll queue names] at hHanded
      have hDisjoint := (List.nodup_append.mp (queue.enqueueAll names).nodup).2.2
      exact absurd rfl (hDisjoint name hHanded name h)
    · exact .inl hPending
  · exact .inr hNew

theorem mem_of_mem_pending_ofNames {names : List String} {name : String}
    (h : name ∈ (ofNames names).pending) : name ∈ names := by
  rcases mem_pending_enqueueAll h with hOld | hNew
  · cases hOld
  · exact hNew

/-! ## Handing out -/

theorem pending_of_shift?_eq_none {queue : WorkQueue} (h : queue.shift? = none) :
    queue.pending = [] := by
  unfold shift? at h
  split at h
  · assumption
  · contradiction

theorem pending_of_shift? {queue rest : WorkQueue} {name : String}
    (h : queue.shift? = some (name, rest)) : queue.pending = name :: rest.pending := by
  unfold shift? at h
  split at h
  · contradiction
  · rename_i first others hPending
    simp only [Option.some.injEq, Prod.mk.injEq] at h
    obtain ⟨rfl, rfl⟩ := h
    exact hPending

theorem offered_of_shift? {queue rest : WorkQueue} {name : String}
    (h : queue.shift? = some (name, rest)) : rest.offered = queue.offered := by
  unfold offered
  rw [handed_of_shift? h, pending_of_shift? h, List.append_assoc]
  rfl

end WorkQueue

end Ambient
