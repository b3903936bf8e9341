/-!
# Tables

Finite maps that keep their order: a list of names with values, in which a name is found at its
first occurrence.  Two ways of adding differ in who wins: `set` replaces the value in place, while
`add` leaves a name that is already there as it is.
-/

namespace Ambient

/-- Names with values, in order. -/
abbrev Table (α : Type) := List (String × α)

namespace Table

variable {α : Type}

def find? (table : Table α) (name : String) : Option α :=
  List.lookup name table

def names (table : Table α) : List String :=
  table.map Prod.fst

/-- Gives a name a value.  A name that is present keeps its place and loses its old value; a new
one goes to the end. -/
def set (table : Table α) (name : String) (value : α) : Table α :=
  match table with
  | [] => [(name, value)]
  | (other, old) :: rest =>
    if name == other then (other, value) :: rest else (other, old) :: set rest name value

/-- Adds a name at the end, unless it is present. -/
def add (table : Table α) (name : String) (value : α) : Table α :=
  if name ∈ table.names then table else table ++ [(name, value)]

def erase (table : Table α) (name : String) : Table α :=
  table.filter fun entry => entry.1 != name

/-- The table in which each name has its first value. -/
def ofFirst (entries : List (String × α)) : Table α :=
  entries.foldl (fun table entry => table.add entry.1 entry.2) []

/-- The table in which each name has its last value, at the place of its first. -/
def ofLast (entries : List (String × α)) : Table α :=
  entries.foldl (fun table entry => table.set entry.1 entry.2) []

/-! ## What is found -/

@[simp] theorem find?_nil (name : String) : find? ([] : Table α) name = none := rfl

theorem find?_cons (entry : String × α) (rest : Table α) (name : String) :
    find? (entry :: rest) name = if name = entry.1 then some entry.2 else find? rest name := by
  rw [find?, List.lookup_cons]
  by_cases h : name = entry.1
  · simp [h]
  · rw [if_neg h, beq_eq_false_iff_ne.mpr h, find?]

theorem mem_of_find? {table : Table α} {name : String} {value : α}
    (h : find? table name = some value) : (name, value) ∈ table := by
  induction table with
  | nil => cases h
  | cons entry rest ih =>
    rw [find?_cons] at h
    split at h
    · rename_i hName
      cases h
      exact hName ▸ List.mem_cons_self ..
    · exact List.mem_cons_of_mem _ (ih h)

theorem find?_eq_none {table : Table α} {name : String} :
    find? table name = none ↔ name ∉ table.names := by
  induction table with
  | nil => simp [names]
  | cons entry rest ih =>
    rw [find?_cons]
    split
    · rename_i hName
      simp [names, hName]
    · rename_i hName
      simp only [names, List.map_cons, List.mem_cons, hName, false_or] at ih ⊢
      exact ih

theorem find?_set (table : Table α) (name other : String) (value : α) :
    find? (table.set name value) other =
      if other = name then some value else find? table other := by
  -- the entry is replaced where it stands, or put behind all others
  induction table with
  | nil => rw [set, find?_cons]
  | cons entry rest ih =>
    obtain ⟨first, old⟩ := entry
    rw [set]
    split
    · rename_i hName
      obtain rfl : name = first := by simpa using hName
      rw [find?_cons, find?_cons]
      split <;> rfl
    · rename_i hName
      have hName : name ≠ first := by simpa using hName
      rw [find?_cons, find?_cons, ih]
      by_cases hFirst : other = first
      · rw [if_pos hFirst, if_pos hFirst, if_neg fun h => hName (h.symm.trans hFirst)]
      · rw [if_neg hFirst, if_neg hFirst]

theorem find?_append (table more : Table α) (name : String) :
    find? (table ++ more) name = (find? table name).or (find? more name) := by
  induction table with
  | nil => rfl
  | cons entry rest ih =>
    rw [List.cons_append, find?_cons, find?_cons, ih]
    split <;> rfl

theorem find?_add (table : Table α) (name other : String) (value : α) :
    find? (table.add name value) other =
      if other = name then (find? table other).or (some value) else find? table other := by
  unfold add
  split
  · -- the table stays as it is, and the name has a value already
    rename_i hMem
    split
    · rename_i hOther
      cases h : find? table other with
      | none => exact absurd hMem (hOther ▸ find?_eq_none.mp h)
      | some old => rfl
    · rfl
  · rw [find?_append, find?_cons]
    split
    · rfl
    · simp

theorem mem_of_mem_add {table : Table α} {name : String} {value : α} {entry : String × α}
    (h : entry ∈ table.add name value) : entry ∈ table ∨ entry = (name, value) := by
  unfold add at h
  split at h
  · exact .inl h
  · simpa using h

/-- Filling a table makes nothing up. -/
theorem mem_of_mem_ofFirst {entries : List (String × α)} {entry : String × α}
    (h : entry ∈ ofFirst entries) : entry ∈ entries := by
  -- the fold is followed from any table, since it does not stay at the empty one
  have hFold : ∀ (entries : List (String × α)) (table : Table α),
      entry ∈ entries.foldl (fun table entry => table.add entry.1 entry.2) table →
        entry ∈ table ∨ entry ∈ entries := by
    intro entries
    induction entries with
    | nil => exact fun table hMem => .inl hMem
    | cons first rest ih =>
      intro table hMem
      rcases ih _ hMem with hTable | hRest
      · rcases mem_of_mem_add hTable with hTable | rfl
        · exact .inl hTable
        · exact .inr (List.mem_cons_self ..)
      · exact .inr (List.mem_cons_of_mem _ hRest)
  rcases hFold entries [] h with hMem | hMem
  · cases hMem
  · exact hMem

/-- In a table of last values a name has the value of its last entry. -/
theorem find?_ofLast (entries : List (String × α)) (name : String) :
    find? (ofLast entries) name = find? entries.reverse name := by
  -- again the fold is followed from any table
  have hFold : ∀ (entries : List (String × α)) (table : Table α),
      find? (entries.foldl (fun table entry => table.set entry.1 entry.2) table) name =
        (find? entries.reverse name).or (find? table name) := by
    intro entries
    induction entries with
    | nil => exact fun table => rfl
    | cons entry rest ih =>
      intro table
      rw [List.foldl_cons, ih, List.reverse_cons, find?_append, find?_set, find?_cons]
      by_cases hName : name = entry.1
      · rw [if_pos hName, if_pos hName]
        cases find? rest.reverse name <;> rfl
      · rw [if_neg hName, if_neg hName, find?_nil, Option.or_none]
  rw [ofLast, hFold, find?_nil, Option.or_none]

/-- A name whose entries all have one value has that value. -/
theorem find?_eq_of_forall {table : Table α} {name : String} {value : α}
    (hMem : (name, value) ∈ table) (hOnly : ∀ other, (name, other) ∈ table → other = value) :
    find? table name = some value := by
  cases h : find? table name with
  | none => exact absurd (List.mem_map_of_mem hMem) (find?_eq_none.mp h)
  | some other => rw [hOnly other (mem_of_find? h)]

end Table

end Ambient
