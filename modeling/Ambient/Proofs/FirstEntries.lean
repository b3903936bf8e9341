import Ambient.Proofs.WorkQueue
import Ambient.Table
import Mathlib.Data.List.Nodup
import Mathlib.Data.List.Perm.Subperm

/-!
# Tables of first values

A table that is filled from entries, where each name keeps its first value, is determined by two
views of it: its names in their order (`names_ofFirst`) and the value of each (`find?_ofFirst`).
Nothing is dropped just if no name is repeated (`length_ofFirst_eq_iff`).
-/

namespace Ambient.Table

variable {α : Type}

theorem ofFirst_concat (entries : List (String × α)) (entry : String × α) :
    ofFirst (entries ++ [entry]) = (ofFirst entries).add entry.1 entry.2 := by
  simp [ofFirst]

theorem names_add (table : Table α) (name : String) (value : α) :
    (table.add name value).names =
      if name ∈ table.names then table.names else table.names ++ [name] := by
  rw [add]
  split
  · rfl
  · rw [names, List.map_append]
    rfl

theorem names_set (table : Table α) (name : String) (value : α) :
    (table.set name value).names =
      if name ∈ table.names then table.names else table.names ++ [name] := by
  induction table with
  | nil => rfl
  | cons entry rest ih =>
    obtain ⟨first, old⟩ := entry
    rw [set]
    split
    · rename_i hName
      exact (if_pos (beq_iff_eq.mp hName ▸ List.mem_cons_self ..)).symm
    · rename_i hName
      -- another entry in front neither is the one that is set nor hides it
      have hRest : name ∈ names ((first, old) :: rest) ↔ name ∈ names rest := by
        rw [names, List.map_cons, List.mem_cons]
        exact or_iff_right (mt beq_iff_eq.mpr hName)
      have hCons : names ((first, old) :: set rest name value) =
        first :: names (set rest name value) := rfl
      rw [hCons, ih, if_congr hRest rfl rfl]
      split <;> rfl

/-- The names stand in the order of their first entries. -/
theorem names_ofFirst (entries : List (String × α)) :
    (ofFirst entries).names = (names entries).eraseDups := by
  induction entries using List.reverseRec with
  | nil => rfl
  | append_singleton entries entry ih =>
    have hNames : names (entries ++ [entry]) = names entries ++ [entry.1] := List.map_append
    rw [ofFirst_concat, names_add, ih, hNames, eraseDups_concat]
    simp only [List.mem_eraseDups]

/-- Each name has the value of its first entry. -/
theorem find?_ofFirst (entries : List (String × α)) (name : String) :
    (ofFirst entries).find? name = find? entries name := by
  induction entries using List.reverseRec with
  | nil => rfl
  | append_singleton entries entry ih =>
    rw [ofFirst_concat, find?_add, find?_append, find?_cons, find?_nil, ih]
    split
    · rfl
    · rw [Option.or_none]

theorem find?_eq_some_iff {table : Table α} (h : table.names.Nodup) {name : String} {value : α} :
    table.find? name = some value ↔ (name, value) ∈ table := by
  refine ⟨mem_of_find?, fun hMem => find?_eq_of_forall hMem fun other hOther => ?_⟩
  have hSame : (name, other) = (name, value) := List.inj_on_of_nodup_map h hOther hMem rfl
  exact (Prod.mk.inj hSame).2

theorem mem_ofFirst {entries : List (String × α)} {name : String} {value : α} :
    (name, value) ∈ ofFirst entries ↔ find? entries name = some value := by
  have hNames : (ofFirst entries).names.Nodup := names_ofFirst entries ▸ nodup_eraseDups _
  rw [← find?_eq_some_iff hNames, find?_ofFirst]

theorem ofFirst_of_nodup {entries : List (String × α)} (h : (names entries).Nodup) :
    ofFirst entries = entries := by
  induction entries using List.reverseRec with
  | nil => rfl
  | append_singleton entries entry ih =>
    rw [names, List.map_append, List.nodup_append] at h
    have hNew : entry.1 ∉ names entries := fun hMem =>
      h.2.2 entry.1 hMem entry.1 (List.mem_singleton_self _) rfl
    rw [ofFirst_concat, ih h.1, add, if_neg hNew]

theorem length_ofFirst_eq_iff {entries : List (String × α)} :
    (ofFirst entries).length = entries.length ↔ (names entries).Nodup := by
  refine ⟨fun h => ?_, fun h => by rw [ofFirst_of_nodup h]⟩
  have hNames : (names entries).length ≤ (names entries).eraseDups.length := by
    rw [← names_ofFirst, names, names, List.length_map, List.length_map]
    exact Nat.le_of_eq h.symm
  -- the names without repetitions are as many, so they are the same names
  have hNodup := nodup_eraseDups (names entries)
  have hSubset : (names entries).eraseDups ⊆ names entries := fun _ => List.mem_eraseDups.mp
  exact ((List.subperm_of_subset hNodup hSubset).perm_of_length_le hNames).nodup_iff.mp hNodup

end Ambient.Table
