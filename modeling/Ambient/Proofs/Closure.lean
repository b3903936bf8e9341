import Ambient.Proofs.DiscoveryOrder
import Ambient.Proofs.NamespaceTree
import Ambient.Proofs.QualifiedName
import Mathlib.Data.List.Nodup

/-!
# Closed trees

A reference is made long before the class that it names is expanded.  When the run is over the
class has been expanded: a declaration refers to nothing that it did not ask for (`declare_meets`),
and the names of a run are closed under asking.  Where names are well-formed, different classes go
to different places, and so no declaration of a run is lost in the tree.

* `Run.declared_reference`: what a declaration of a run refers to is declared by the run.
* `Run.distinct_places`: no two declarations of a run go to the same place.

The last section puts the two together for the finished tree.
-/

namespace Ambient

/-- All classes have well-formed names. -/
def Registry.WellNamed (registry : Registry) : Prop :=
  ∀ entry ∈ registry, QualifiedName.WellFormed entry.2.name

instance (registry : Registry) : Decidable registry.WellNamed :=
  inferInstanceAs (Decidable (∀ entry ∈ registry, QualifiedName.WellFormed entry.2.name))

namespace World.Run

open QualifiedName
open NamespaceTree (place ofList entries_ofList declaration?_ofList_of_mem)

variable {world : World} {seeds : List String} {expanded : Table Declaration}

/-- A declaration of a run has the short name and the kind of its class. -/
theorem declared_as {queue : WorkQueue} (hRun : world.Run queue expanded)
    (hKeyed : world.registry.Keyed) {entry : String × Declaration} (hEntry : entry ∈ expanded) :
    ∃ c, Table.find? world.registry entry.1 = some c ∧
      (world.declare c).outcome = .ok entry.2 ∧ entry.2.name = short entry.1 ∧
      entry.2.isEnumeration = c.isEnumeration := by
  obtain ⟨c, hFound, hDeclared⟩ := hRun.declared entry hEntry
  obtain ⟨hName, hKind, -⟩ := (declare_meets hKeyed c).gives _ hDeclared
  refine ⟨c, hFound, hDeclared, ?_, hKind⟩
  rw [hName, Class.shortName, hKeyed.name_eq hFound]

/-- What a declaration of a run refers to is declared by the run. -/
theorem declared_reference (hRun : world.Run (.ofNames seeds) expanded)
    (hKeyed : world.registry.Keyed) {entry : String × Declaration} (hEntry : entry ∈ expanded)
    {name : String} (hReference : name ∈ entry.2.references) :
    ∃ declaration, (name, declaration) ∈ expanded := by
  obtain ⟨c, hFound, hDeclared⟩ := hRun.declared entry hEntry
  obtain ⟨-, -, hAsked⟩ := (declare_meets hKeyed c).gives _ hDeclared
  -- a reference is asked for by the class that makes it
  have hName : name ∈ world.asked entry.1 := asks_declare hFound hDeclared ▸ hAsked hReference
  have hExpanded : name ∈ expanded.names :=
    hRun.breadthFirst.smallestClosed.asked_mem entry.1 (List.mem_map_of_mem hEntry) name hName
  obtain ⟨⟨name', declaration⟩, hMem, rfl⟩ := List.mem_map.mp hExpanded
  exact ⟨declaration, hMem⟩

theorem wellFormed {queue : WorkQueue} (hRun : world.Run queue expanded)
    (hKeyed : world.registry.Keyed) (hNamed : world.registry.WellNamed)
    {entry : String × Declaration} (hEntry : entry ∈ expanded) : WellFormed entry.1 := by
  obtain ⟨c, hFound, -⟩ := hRun.declared entry hEntry
  have hName := hNamed _ (Table.mem_of_find? hFound)
  rw [hKeyed.name_eq hFound] at hName
  exact hName

/-- A declaration of a run goes to the place that the segments of its name give. -/
theorem place_eq {queue : WorkQueue} (hRun : world.Run queue expanded)
    (hKeyed : world.registry.Keyed) {entry : String × Declaration} (hEntry : entry ∈ expanded) :
    place entry = (namespaces entry.1, short entry.1) := by
  obtain ⟨-, -, -, hShort, -⟩ := hRun.declared_as hKeyed hEntry
  rw [place, hShort]

/-- No two declarations of a run go to the same place. -/
theorem distinct_places (hRun : world.Run (.ofNames seeds) expanded)
    (hKeyed : world.registry.Keyed) (hNamed : world.registry.WellNamed) :
    (expanded.map place).Nodup := by
  -- the names of a run are distinct, and the place of a well-formed name determines the name
  have hNames : (expanded.map Prod.fst).Nodup := hRun.breadthFirst.nodup
  refine List.Nodup.map_on ?_ (List.Nodup.of_map _ hNames)
  intro entry hEntry entry' hEntry' hPlace
  rw [hRun.place_eq hKeyed hEntry, hRun.place_eq hKeyed hEntry', Prod.mk.injEq] at hPlace
  have hSame : entry.1 = entry'.1 := (hRun.wellFormed hKeyed hNamed hEntry).eq_of_place
    (hRun.wellFormed hKeyed hNamed hEntry') hPlace.1 hPlace.2
  exact List.inj_on_of_nodup_map hNames hEntry hEntry' hSame

/-- The tree of a run holds the declaration of each name at its own place. -/
theorem declaration?_eq (hRun : world.Run (.ofNames seeds) expanded)
    (hKeyed : world.registry.Keyed) (hNamed : world.registry.WellNamed)
    {entry : String × Declaration} (hEntry : entry ∈ expanded) :
    (ofList expanded).declaration? (namespaces entry.1) (short entry.1) = some entry.2 := by
  obtain ⟨-, -, -, hShort, -⟩ := hRun.declared_as hKeyed hEntry
  rw [← hShort]
  exact declaration?_ofList_of_mem (hRun.distinct_places hKeyed hNamed) hEntry

/-- What the tree of a run lists comes from the run. -/
theorem mem_entries (hRun : world.Run (.ofNames seeds) expanded)
    (hKeyed : world.registry.Keyed) (hNamed : world.registry.WellNamed)
    {entry : List String × Declaration} (hEntry : entry ∈ (ofList expanded).entries) :
    ∃ name, (name, entry.2) ∈ expanded ∧ entry.1 = namespaces name := by
  rw [(entries_ofList (hRun.distinct_places hKeyed hNamed)).mem_iff] at hEntry
  obtain ⟨⟨name, declaration⟩, hMem, rfl⟩ := List.mem_map.mp hEntry
  exact ⟨name, hMem, rfl⟩

end World.Run

namespace World

open QualifiedName
open NamespaceTree (place ofList entries_ofList declaration?_ofList_of_mem)

/-- Where names are well-formed, a finished tree is closed and loses nothing.  Every reference in it
names a class that is declared where the segments of the reference say, and every expanded class is
declared once, at its own place and with its own kind. -/
theorem declarations_closed (world : World) (seeds : List String) (tree : NamespaceTree)
    (hKeyed : world.registry.Keyed) (hNamed : world.registry.WellNamed)
    (hTree : world.declarations seeds = .ok tree) :
    (∀ entry ∈ tree.entries, ∀ name ∈ entry.2.references,
      (Table.find? world.registry name).isSome ∧
        ∃ path last declaration, segments name = path ++ [last] ∧
          tree.declaration? path last = some declaration ∧ declaration.name = last) ∧
    ∃ expanded : Table Declaration, world.expandAll (.ofNames seeds) = .ok expanded ∧
      tree.entries.length = expanded.length ∧
      tree.entries.Perm (expanded.map fun entry => (namespaces entry.1, entry.2)) ∧
      (expanded.map fun entry => (namespaces entry.1, short entry.1)).Nodup ∧
      ∀ entry ∈ expanded, ∃ c, Table.find? world.registry entry.1 = some c ∧
        (world.declare c).outcome = .ok entry.2 ∧ entry.2.isEnumeration = c.isEnumeration ∧
        tree.declaration? (namespaces entry.1) (short entry.1) = some entry.2 := by
  obtain ⟨expanded, hOutcome, rfl⟩ := declarations_eq_ok.mp hTree
  have hRun := expandAll_eq_ok.mp hOutcome
  have hPlaces := hRun.distinct_places hKeyed hNamed
  have hEntries := entries_ofList hPlaces
  refine ⟨fun entry hEntry name hReference => ?_, expanded, hOutcome, ?_, hEntries, ?_,
    fun entry hEntry => ?_⟩
  · -- what a declaration refers to was asked for, so it was expanded and filed itself
    obtain ⟨owner, hOwner, -⟩ := hRun.mem_entries hKeyed hNamed hEntry
    obtain ⟨declaration, hMem⟩ := hRun.declared_reference hKeyed hOwner hReference
    obtain ⟨c, hFound, -, hShort, -⟩ := hRun.declared_as hKeyed hMem
    have hName : WellFormed name := hRun.wellFormed hKeyed hNamed hMem
    have hDeclared := hRun.declaration?_eq hKeyed hNamed hMem
    exact ⟨Option.isSome_iff_exists.mpr ⟨c, hFound⟩, namespaces name, short name, declaration,
      hName.segments_eq, hDeclared, hShort⟩
  · rw [hEntries.length_eq, List.length_map]
  · -- the places are those of the names, because a declaration keeps its short name
    have hMap : expanded.map (fun entry => (namespaces entry.1, short entry.1)) =
        expanded.map place :=
      List.map_congr_left fun entry hEntry => (hRun.place_eq hKeyed hEntry).symm
    exact hMap ▸ hPlaces
  · obtain ⟨c, hFound, hDeclared, -, hKind⟩ := hRun.declared_as hKeyed hEntry
    exact ⟨c, hFound, hDeclared, hKind, hRun.declaration?_eq hKeyed hNamed hEntry⟩

/-- Classes of two modules and one outside all modules.  References to `a::U` and `b::c::E` occur
inside a union, a container and a record expanded in place. -/
def scattered : World where
  registry := Registry.insertAll []
    [ { name := "R", shape := .record [{ name := "u", declared := some "a::U" }] },
      { name := "a::U"
        shape := .record
          [ { name := "m", declared := some "list<?a::U>" },
            { name := "w", declared := some "a::W", markers := [.inline] } ] },
      { name := "a::W", shape := .record [{ name := "e", declared := some "b::c::E" }] },
      { name := "b::c::E", shape := .enumeration [{ name := "One", value := .int 1 }] } ]
  replacements := []

theorem scattered_closed :
    scattered.registry.Keyed ∧ scattered.registry.WellNamed ∧
    ∃ tree, scattered.declarations ["R"] = .ok tree ∧
      (∀ entry ∈ tree.entries, ∀ name ∈ entry.2.references,
        (Table.find? scattered.registry name).isSome ∧
          ∃ path last declaration, segments name = path ++ [last] ∧
            tree.declaration? path last = some declaration ∧ declaration.name = last) ∧
      (tree.entries.map fun entry => (entry.1, entry.2.references)) =
        [(["a"], ["a::U", "b::c::E"]), (["b", "c"], []), ([], ["a::U"])] := by
  have hKeyed : scattered.registry.Keyed := Registry.keyed_insertAll _
  have hNamed : scattered.registry.WellNamed := by decide
  have hEntries : (scattered.declarations ["R"]).map (fun tree =>
      tree.entries.map fun entry => (entry.1, entry.2.references)) =
        .ok [(["a"], ["a::U", "b::c::E"]), (["b", "c"], []), ([], ["a::U"])] := by decide +kernel
  obtain ⟨tree, hTree, hEntries⟩ := map_eq_ok.mp hEntries
  have hClosed := declarations_closed scattered ["R"] tree hKeyed hNamed hTree
  exact ⟨hKeyed, hNamed, tree, hTree, hClosed.1, hEntries⟩

end World

end Ambient
