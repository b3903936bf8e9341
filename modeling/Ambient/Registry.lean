import Ambient.Class
import Ambient.Table

/-!
# The registry of classes

Classes under the names by which descriptors find them.  A registry filled with `insert` finds each
class under its own name; one made by hand may use other names.
-/

namespace Ambient

/-- Classes by lookup name, in order of first insertion. -/
abbrev Registry := Table Class

namespace Registry

/-- Adds a class under its own name; an earlier class of that name gives up its place. -/
def insert (registry : Registry) (c : Class) : Registry :=
  Table.set registry c.name c

def insertAll (registry : Registry) (classes : List Class) : Registry :=
  classes.foldl insert registry

def classes (registry : Registry) : List Class :=
  registry.map Prod.snd

/-- The classes with a known source file: their names and files, in order. -/
def files (registry : Registry) : List (String × String) :=
  registry.classes.filterMap fun c => c.file.map fun file => (c.name, file)

/-! ## Registries filled with `insert` -/

/-- Every class is found under its own name. -/
def Keyed (registry : Registry) : Prop :=
  ∀ entry ∈ registry, entry.2.name = entry.1

instance (registry : Registry) : Decidable registry.Keyed :=
  inferInstanceAs (Decidable (∀ entry ∈ registry, entry.2.name = entry.1))

theorem Keyed.name_eq {registry : Registry} (h : registry.Keyed) {name : String} {c : Class}
    (hFound : Table.find? registry name = some c) : c.name = name :=
  h _ (Table.mem_of_find? hFound)

theorem Keyed.insert {registry : Registry} (h : registry.Keyed) (c : Class) :
    (registry.insert c).Keyed := by
  unfold Registry.insert
  induction registry with
  | nil => simp [Keyed, Table.set]
  | cons entry rest ih =>
    obtain ⟨other, old⟩ := entry
    have hRest : Keyed rest := fun entry hEntry => h entry (List.mem_cons_of_mem _ hEntry)
    rw [Table.set]
    split
    · -- the new class takes the place of one that was found under its name
      rename_i hName
      intro entry hEntry
      rcases List.mem_cons.mp hEntry with rfl | hEntry
      · simpa using hName
      · exact hRest entry hEntry
    · intro entry hEntry
      rcases List.mem_cons.mp hEntry with rfl | hEntry
      · exact h _ (List.mem_cons_self ..)
      · exact ih hRest entry hEntry

theorem keyed_insertAll (classes : List Class) : (insertAll [] classes).Keyed := by
  have hFold : ∀ (classes : List Class) (registry : Registry), registry.Keyed →
      (registry.insertAll classes).Keyed := by
    intro classes
    induction classes with
    | nil => exact fun _ h => h
    | cons c rest ih => exact fun registry h => ih _ (h.insert c)
  exact hFold classes [] (fun _ hEntry => by cases hEntry)

end Registry

end Ambient
