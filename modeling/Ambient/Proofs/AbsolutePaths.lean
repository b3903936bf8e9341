import Ambient.Proofs.Seeding
import Mathlib.Data.List.Infix

/-!
# Absolute paths

A file system names its places from the working directory on, and counts the levels above it.  If
the working directory lies deep enough for the paths at hand, each place has an absolute path, which
is a list of names, and lies under another place just if that path begins with the path of the other
(`Place.isUnder_eq_isPrefixOf`).

Discovery asks for nothing else (`Discovery.Represents.discoverIn_eq`).  So seeding from a file
system is seeding from absolute paths (`Generator.seeds_eq_absolute`).
-/

namespace Ambient

/-! ## Places -/

theorem isPrefixOf_eq_false {short long : List String} (h : short.length < long.length) :
    long.isPrefixOf short = false := by
  rw [Bool.eq_false_iff, Ne, List.isPrefixOf_iff_prefix]
  exact fun hPrefix => Nat.not_le_of_lt h hPrefix.length_le

namespace Place

/-- The absolute path of a place, where `work` is the path of the working directory. -/
def components (work : List String) : Place → List String
  | below names => work ++ names
  | above levels => work.take (work.length - levels)
  | root => []

/-- Whether a place lies at most so many levels above the working directory.  The directory itself
is not counted as one above it. -/
def Within (levels : Nat) : Place → Prop
  | below _ => True
  | above count => 0 < count ∧ count ≤ levels
  | root => True

variable {work : List String} {levels : Nat} {place directory : Place}

theorem Within.mono {more : Nat} (h : place.Within levels) (hMore : levels ≤ more) :
    place.Within more := by
  cases place with
  | above count => exact ⟨h.1, h.2.trans hMore⟩
  | _ => trivial

/-- To lie under a place is to have a path that begins with its path. -/
theorem isUnder_eq_isPrefixOf (hDeep : levels < work.length) (hPlace : place.Within levels)
    (hDirectory : directory.Within levels) :
    place.isUnder directory = (directory.components work).isPrefixOf (place.components work) := by
  -- only a place above has a path that is cut short, and `hDeep` leaves some of it
  cases directory with
  | root => cases place <;> rfl
  | below names =>
    cases place with
    | below others =>
      rw [Bool.eq_iff_iff, isUnder, components, components, List.isPrefixOf_iff_prefix,
        List.isPrefixOf_iff_prefix, List.prefix_append_right_inj]
    | above count =>
      have hCount : 0 < count := hPlace.1
      refine (isPrefixOf_eq_false ?_).symm
      simp only [components, List.length_append, List.length_take]
      omega
    | root =>
      refine (isPrefixOf_eq_false ?_).symm
      simp only [components, List.length_append, List.length_nil]
      omega
  | above count =>
    have hCount : count ≤ levels := hDirectory.2
    cases place with
    | below others =>
      have hPrefix : work.take (work.length - count) <+: work ++ others :=
        (List.take_prefix _ work).trans (List.prefix_append work others)
      exact (List.isPrefixOf_iff_prefix.mpr hPrefix).symm
    | above other =>
      obtain ⟨hSome, hOther⟩ : 0 < other ∧ other ≤ levels := hPlace
      rw [Bool.eq_iff_iff, isUnder, components, components, List.isPrefixOf_iff_prefix,
        List.take_isPrefix_take, decide_eq_true_iff]
      omega
    | root =>
      refine (isPrefixOf_eq_false ?_).symm
      simp only [components, List.length_take, List.length_nil]
      omega

end Place

namespace FileSystem

variable {fs : FileSystem} {levels : Nat} {place next : Place}

/-- A step climbs by one level at most. -/
theorem within_step? {name : String} (h : place.Within levels)
    (hStep : fs.step? place name = some next) : next.Within (levels + 1) := by
  unfold step? at hStep
  split at hStep
  · cases hStep
  split at hStep
  · -- an empty step, or a point
    obtain rfl := Option.some.inj hStep
    exact h.mono (Nat.le_succ _)
  split at hStep
  · -- two points, from each kind of place
    split at hStep
    all_goals obtain rfl := Option.some.inj hStep
    · exact ⟨Nat.one_pos, Nat.le_add_left ..⟩
    · trivial
    · exact ⟨Nat.succ_pos _, Nat.succ_le_succ h.2⟩
    · trivial
  · -- a name, which leads somewhere only below the working directory
    split at hStep
    · split at hStep
      · obtain rfl := Option.some.inj hStep
        trivial
      · cases hStep
    · cases hStep

theorem within_follow? {steps : List String} (h : place.Within levels)
    (hFollow : fs.follow? place steps = some next) : next.Within (levels + steps.length) := by
  induction steps generalizing place levels with
  | nil =>
    obtain rfl := Option.some.inj hFollow
    exact h
  | cons name rest ih =>
    rw [follow?, List.foldlM_cons] at hFollow
    obtain ⟨first, hFirst, hRest⟩ := Option.bind_eq_some_iff.mp hFollow
    have hLast := ih (within_step? h hFirst) hRest
    rw [List.length_cons]
    exact hLast.mono (by omega)

/-- A path climbs by as many levels as it has steps, at most. -/
theorem within_resolve? {path : String} (h : fs.resolve? path = some place) :
    place.Within (FilePath.steps path).length := by
  rw [resolve?] at h
  split at h
  · cases h
  · have hStart : (start path).Within 0 := by
      rw [start]
      split <;> trivial
    exact (within_follow? hStart h).mono (by rw [stepsOf, List.length_map]; omega)

/-- The locations of a file system as absolute paths, where `work` is that of the working
directory.  Outside the working directory there are only directories. -/
def absolute (fs : FileSystem) (work : List String) : Locations (List String) :=
  Locations.ofComponents (fun path => (fs.resolve? path).map (Place.components work))
    fun names => !work.isPrefixOf names || fs.isDirectory (.below (names.drop work.length))

theorem isDirectory_absolute_of_short {work names : List String}
    (h : names.length < work.length) : (fs.absolute work).isDirectory names = true := by
  have hOutside : work.isPrefixOf names = false := isPrefixOf_eq_false h
  simp [absolute, Locations.ofComponents, hOutside]

theorem isDirectory_absolute {work : List String} (hDeep : levels < work.length)
    (h : place.Within levels) :
    (fs.absolute work).isDirectory (place.components work) = fs.isDirectory place := by
  cases place with
  | below names =>
    have hPrefix : work.isPrefixOf (work ++ names) = true :=
      List.isPrefixOf_iff_prefix.mpr (List.prefix_append work names)
    simp [absolute, Locations.ofComponents, Place.components, hPrefix]
  | above count =>
    have hCount : 0 < count := h.1
    refine isDirectory_absolute_of_short ?_
    rw [Place.components, List.length_take]
    omega
  | root => exact isDirectory_absolute_of_short (Nat.zero_lt_of_lt hDeep)

end FileSystem

/-! ## Discovery from other locations -/

namespace Discovery

/-- Whether places can be told by what a function makes of them, as far as paths lead to them. -/
structure Represents {α β : Type} (represent : α → β) (paths : List String)
    (locations : Locations α) (represented : Locations β) : Prop where
  resolve : ∀ path, represented.resolve? path = (locations.resolve? path).map represent
  isDirectory : ∀ path ∈ paths, ∀ place, locations.resolve? path = some place →
    represented.isDirectory (represent place) = locations.isDirectory place
  isUnder : ∀ path ∈ paths, ∀ other ∈ paths, ∀ place directory,
    locations.resolve? path = some place → locations.resolve? other = some directory →
    represented.isUnder (represent place) (represent directory) =
      locations.isUnder place directory

namespace Represents

variable {α β : Type} {represent : α → β} {paths : List String} {locations : Locations α}
  {represented : Locations β} {registry : Registry}

theorem directory_eq (h : Represents represent paths locations represented) {path : String}
    (hPath : path ∈ paths) :
    directory represented path = (directory locations path).map represent := by
  rw [directory, directory, h.resolve]
  cases hPlace : locations.resolve? path with
  | none => rfl
  | some place =>
    rw [Option.map_some]
    dsimp only
    rw [h.isDirectory path hPath place hPlace]
    split <;> rfl

theorem mapM_directory_eq (h : Represents represent paths locations represented)
    {directories : List String} (hDirectories : directories ⊆ paths) :
    directories.mapM (directory represented) =
      (directories.mapM (directory locations)).map (List.map represent) := by
  induction directories with
  | nil => rfl
  | cons path rest ih =>
    rw [List.cons_subset] at hDirectories
    rw [List.mapM_cons, List.mapM_cons, h.directory_eq hDirectories.1, ih hDirectories.2]
    cases directory locations path with
    | error => rfl
    | ok root => cases rest.mapM (directory locations) <;> rfl

theorem places_eq (h : Represents represent paths locations represented) (registry : Registry) :
    places represented registry = (places locations registry).map (Prod.map id represent) := by
  rw [places, places, List.map_filterMap]
  refine List.filterMap_congr fun entry _ => ?_
  dsimp only
  rw [h.resolve, Option.map_map, Option.map_map]
  rfl

theorem under_eq (h : Represents represent paths locations represented)
    (hFiles : registry.files.map Prod.snd ⊆ paths) {path : String} (hPath : path ∈ paths) {root : α}
    (hRoot : locations.resolve? path = some root) :
    under represented registry (places represented registry) (represent root) =
      under locations registry (places locations registry) root := by
  rw [under, under, h.places_eq, List.filter_map, List.map_map]
  refine congrArg (List.map Prod.fst) (List.filter_congr fun entry hEntry => ?_)
  obtain ⟨⟨name, file⟩, hFile, hEntry⟩ := List.mem_filterMap.mp hEntry
  obtain ⟨place, hPlace, rfl⟩ := Option.map_eq_some_iff.mp hEntry
  have hUnder := h.isUnder file (hFiles (List.mem_map_of_mem hFile)) path hPath place root
    hPlace hRoot
  simp only [Function.comp_apply, Prod.map_apply, id_eq, hUnder]

/-- Discovery finds the same classes, or fails in the same way. -/
theorem discoverIn_eq (h : Represents represent paths locations represented)
    (hFiles : registry.files.map Prod.snd ⊆ paths) {directories : List String}
    (hDirectories : directories ⊆ paths) :
    discoverIn represented registry directories = discoverIn locations registry directories := by
  rw [discoverIn, discoverIn, h.mapM_directory_eq hDirectories]
  -- the directories resolve alike, so both fail at once or go on from related roots
  by_cases hPaths : ∀ path ∈ directories, Resolves locations path
  · obtain ⟨roots, hRoots, hResolved⟩ := mapM_directory_eq_ok hPaths
    have hFound : (roots.map represent).flatMap
        (under represented registry (places represented registry)) =
          roots.flatMap (under locations registry (places locations registry)) := by
      clear hPaths hRoots
      induction hResolved with
      | nil => rfl
      | cons hRoot _ ih =>
        rw [List.cons_subset] at hDirectories
        rw [List.map_cons, List.flatMap_cons, List.flatMap_cons, ih hDirectories.2,
          h.under_eq hFiles hDirectories.1 hRoot]
    rw [hRoots]
    exact congrArg (Except.ok ·.eraseDups) hFound
  · obtain ⟨failure, hFailure, -⟩ := mapM_directory_eq_error hPaths
    rw [hFailure]
    rfl

end Represents

end Discovery

namespace Generator

/-- The paths that discovery asks for. -/
def paths (generator : Generator) : List String :=
  generator.directories ++ generator.registry.files.map Prod.snd

/-- Seeding from a file system is seeding from absolute paths, if the working directory lies deep
enough for the paths that are asked for. -/
theorem seeds_eq_absolute (generator : Generator) (fs : FileSystem) (work : List String)
    (hDeep : ∀ path ∈ generator.paths, (FilePath.steps path).length < work.length)
    (names : List String) :
    generator.seeds fs names = generator.seedsIn (fs.absolute work) names := by
  have hRepresents : Discovery.Represents (Place.components work) generator.paths fs.locations
      (fs.absolute work) := {
    resolve := fun path => rfl
    isDirectory := fun path hPath place hPlace =>
      FileSystem.isDirectory_absolute (hDeep path hPath) (FileSystem.within_resolve? hPlace)
    isUnder := fun path hPath other hOther place directory hPlace hDirectory => by
      have hWork : work.length - 1 < work.length := Nat.sub_one_lt_of_lt (hDeep path hPath)
      exact (Place.isUnder_eq_isPrefixOf hWork
        ((FileSystem.within_resolve? hPlace).mono (Nat.le_sub_one_of_lt (hDeep path hPath)))
        ((FileSystem.within_resolve? hDirectory).mono
          (Nat.le_sub_one_of_lt (hDeep other hOther)))).symm }
  have hDiscovered : generator.discovered (fs.absolute work) = generator.discovered fs.locations :=
    hRepresents.discoverIn_eq (List.subset_append_right _ _) (List.subset_append_left _ _)
  rw [seeds, seedsIn, seedsIn, hDiscovered]

end Generator
end Ambient
