import Ambient.Generator
import Ambient.Proofs.FirstEntries

/-!
# Seeding

A run starts from the classes asked for, those always generated, and those that are discovered, and
each of them is a class that the generator knows.

* Every state of a generator knows its classes by their own names, each once (`Built.collected`).
  So the files of the classes can be told by name, and discovery goes through the names
  (`Discovery.under_eq`).
* Discovery picks classes directory by directory.  Keeping each at its first occurrence leaves them
  in the order of the first directory that holds them (`pairwise_picked`).
* Seeding ends in one of four ways, and what was asked for decides which (`seedsIn_cases`).
-/

namespace Ambient

/-! ## What a generator knows -/

/-- A registry as it comes from collecting classes: each stands under its own name, and none of the
names is repeated. -/
structure Registry.Collected (registry : Registry) : Prop where
  keyed : registry.Keyed
  nodup : (Table.names registry).Nodup

namespace Registry.Collected

variable {registry : Registry}

theorem nil : Collected [] where
  keyed := fun _ hEntry => by cases hEntry
  nodup := .nil

theorem insert (h : registry.Collected) (c : Class) : (registry.insert c).Collected where
  keyed := h.keyed.insert c
  nodup := by
    rw [Registry.insert, Table.names_set]
    split
    · exact h.nodup
    · rename_i hNew
      rw [List.nodup_append]
      refine ⟨h.nodup, List.nodup_singleton _, fun name hName other hOther hSame => hNew ?_⟩
      exact List.mem_singleton.mp hOther ▸ hSame ▸ hName

theorem insertAll (h : registry.Collected) (classes : List Class) :
    (registry.insertAll classes).Collected := by
  induction classes generalizing registry with
  | nil => exact h
  | cons c rest ih => exact ih (h.insert c)

theorem find?_eq (h : registry.Collected) {entry : String × Class} (hEntry : entry ∈ registry) :
    Table.find? registry entry.2.name = some entry.2 := by
  rw [h.keyed entry hEntry]
  exact (Table.find?_eq_some_iff h.nodup).mpr hEntry

end Registry.Collected

namespace Generator

/-- The states of a generator: it starts with no classes, takes classes in one by one or from
sources, wherever these are found, and is otherwise set up in any way. -/
inductive Built : Generator → Prop
  | start {generator : Generator} : generator.registry = [] → Built generator
  | addClass {generator : Generator} (c : Class) : Built generator → Built (generator.addClass c)
  | addSource {generator : Generator} (moduleName source : String) (file : Option String) :
      Built generator → Built (generator.addSource moduleName source file)
  | addSourceFile {generator next : Generator} {sources : Sources} {path : SystemText}
      {moduleName : String} :
      generator.addSourceFileIn sources path moduleName = .ok next → Built generator → Built next
  | addSourceDirectory {generator : Generator} (sources : Sources) (directory : SystemText)
      (crate : String) :
      Built generator → Built (generator.addSourceDirectoryIn sources directory crate).1
  | setUp {generator next : Generator} :
      next.registry = generator.registry → Built generator → Built next

theorem collected_addSourceFileIn {generator next : Generator} {sources : Sources}
    {path : SystemText} {moduleName : String} (h : generator.registry.Collected)
    (hNext : generator.addSourceFileIn sources path moduleName = .ok next) :
    next.registry.Collected := by
  rw [addSourceFileIn] at hNext
  split at hNext
  · obtain rfl := Except.ok.inj hNext
    exact h.insertAll _
  · cases hNext

theorem collected_addSourceFilesIn {generator : Generator} (h : generator.registry.Collected)
    (sources : Sources) (directory : SystemText) (crate : String) (paths : List SystemText) :
    (generator.addSourceFilesIn sources directory crate paths).1.registry.Collected := by
  induction paths generalizing generator with
  | nil => exact h
  | cons path rest ih =>
    rw [addSourceFilesIn]
    split
    · rename_i hNext
      exact ih (collected_addSourceFileIn h hNext)
    · -- a file that cannot be read ends the scan, and what was collected stays
      exact h

theorem Built.collected {generator : Generator} (h : generator.Built) :
    generator.registry.Collected := by
  induction h with
  | start hNone => exact hNone ▸ .nil
  | addClass c _ ih => exact ih.insert c
  | addSource _ _ _ _ ih => exact ih.insertAll _
  | addSourceFile hNext _ ih => exact collected_addSourceFileIn ih hNext
  | addSourceDirectory sources directory crate _ ih =>
    exact collected_addSourceFilesIn ih sources directory crate _
  | setUp hSame _ ih => exact hSame ▸ ih

end Generator

/-! ## Picking items -/

section Picking

variable {α β : Type} [BEq α] [LawfulBEq α]

theorem mem_removeAll {items others : List α} {a : α} :
    a ∈ items.removeAll others ↔ a ∈ items ∧ a ∉ others := by
  simp [List.removeAll]

theorem pairwise_idxOf {items : List α} (h : items.Nodup) :
    items.Pairwise fun a b => items.idxOf a < items.idxOf b := by
  rw [List.pairwise_iff_getElem]
  intro i j hi hj hLess
  rwa [h.idxOf_getElem, h.idxOf_getElem]

/-- The items that tests pick, test by test. -/
def picked (picks : β → α → Bool) (items : List α) (tests : List β) : List α :=
  tests.flatMap fun test => items.filter (picks test)

variable {picks : β → α → Bool} {items : List α} {tests : List β} {a : α}

omit [BEq α] [LawfulBEq α] in
theorem mem_picked : a ∈ picked picks items tests ↔ a ∈ items ∧ ∃ test ∈ tests, picks test a := by
  simp only [picked, List.mem_flatMap, List.mem_filter]
  exact ⟨fun ⟨test, hTest, hItem, hPicks⟩ => ⟨hItem, test, hTest, hPicks⟩,
    fun ⟨hItem, test, hTest, hPicks⟩ => ⟨test, hTest, hItem, hPicks⟩⟩

/-- Items that are picked stand in the order of the first tests that pick them, and those of one
test in their own order. -/
theorem pairwise_picked (picks : β → α → Bool) (hItems : items.Nodup) (tests : List β) :
    (picked picks items tests).eraseDups.Pairwise fun a b =>
      tests.findIdx (picks · a) < tests.findIdx (picks · b) ∨
        tests.findIdx (picks · a) = tests.findIdx (picks · b) ∧ items.idxOf a < items.idxOf b := by
  induction tests using List.reverseRec with
  | nil => exact .nil
  | append_singleton tests test ih =>
    have hConcat : picked picks items (tests ++ [test]) =
        picked picks items tests ++ items.filter (picks test) := by
      rw [picked, List.flatMap_append, List.flatMap_singleton]
      rfl
    -- one more test changes nothing for what was picked before it, and is the first for the rest
    have hEarly {a : α} (h : a ∈ picked picks items tests) :
        (tests ++ [test]).findIdx (picks · a) = tests.findIdx (picks · a) ∧
          tests.findIdx (picks · a) < tests.length := by
      have hFirst := List.findIdx_lt_length.mpr (mem_picked.mp h).2
      exact ⟨by rw [List.findIdx_append, if_pos hFirst], hFirst⟩
    have hLate {a : α} (h : a ∈ (items.filter (picks test)).removeAll (picked picks items tests)) :
        (tests ++ [test]).findIdx (picks · a) = tests.length := by
      rw [mem_removeAll, List.mem_filter, mem_picked] at h
      obtain ⟨⟨hItem, hPicks⟩, hNew⟩ := h
      have hNone : ¬tests.findIdx (picks · a) < tests.length :=
        fun hFirst => hNew ⟨hItem, List.findIdx_lt_length.mp hFirst⟩
      rw [List.findIdx_append, if_neg hNone, List.findIdx_cons, hPicks]
      exact Nat.zero_add _
    have hSublist : ((items.filter (picks test)).removeAll (picked picks items tests)).Sublist
        items := List.filter_sublist.trans List.filter_sublist
    rw [hConcat, List.eraseDups_append, eraseDups_of_nodup (hSublist.nodup hItems)]
    -- so the rest comes last, and in the order of the items
    refine List.pairwise_append.mpr ⟨?_, ?_, ?_⟩
    · refine ih.imp_of_mem fun ha hb hBefore => ?_
      rw [List.mem_eraseDups] at ha hb
      rwa [(hEarly ha).1, (hEarly hb).1]
    · refine ((pairwise_idxOf hItems).sublist hSublist).imp_of_mem fun ha hb hBefore => .inr ?_
      exact ⟨(hLate ha).trans (hLate hb).symm, hBefore⟩
    · intro a ha b hb
      obtain ⟨hSame, hFirst⟩ := hEarly (List.mem_eraseDups.mp ha)
      exact .inl (by rwa [hSame, hLate hb])

end Picking

/-! ## Discovery -/

namespace Failure

def isConfiguration : Failure → Bool
  | unknownClass _ | nothingToGenerate => true
  | _ => false

def isDiscovery : Failure → Bool
  | missingDirectory _ | notDirectory _ => true
  | _ => false

theorem isConfiguration_eq_false {failure : Failure} (h : failure.isDiscovery = true) :
    failure.isConfiguration = false := by
  cases failure <;> first | rfl | cases h

end Failure

namespace Discovery

variable {α : Type} (locations : Locations α) (registry : Registry)

/-- Whether a path leads to a directory. -/
def Resolves (path : String) : Prop :=
  ∃ place, locations.resolve? path = some place ∧ locations.isDirectory place = true

instance (path : String) : Decidable (Resolves locations path) :=
  decidable_of_iff _ (Option.any_eq_true _ _)

/-- The place of the file of a class. -/
def placeOf? (name : String) : Option α :=
  ((Table.find? registry name).bind Class.file).bind locations.resolve?

/-- Whether the file of a class lies under the place that a path leads to. -/
def holds (path name : String) : Bool :=
  (locations.resolve? path).any fun root =>
    (placeOf? locations registry name).any (locations.isUnder · root)

theorem holds_eq {path : String} {root : α} (hRoot : locations.resolve? path = some root) :
    holds locations registry path =
      fun name => (placeOf? locations registry name).any (locations.isUnder · root) := by
  funext name
  rw [holds, hRoot]
  rfl

section Collected

variable {locations registry}

theorem directory_eq_ok {path : String} {root : α} (hRoot : locations.resolve? path = some root)
    (hDirectory : locations.isDirectory root = true) : directory locations path = .ok root := by
  rw [directory, hRoot]
  exact if_pos hDirectory

theorem directory_eq_error {path : String} (h : ¬Resolves locations path) :
    ∃ failure, directory locations path = .error failure ∧ failure.isDiscovery = true := by
  rw [directory]
  cases hRoot : locations.resolve? path with
  | none => exact ⟨_, rfl, rfl⟩
  | some root => exact ⟨_, if_neg fun hDirectory => h ⟨root, hRoot, hDirectory⟩, rfl⟩

/-- The places of directories are found one by one. -/
theorem mapM_directory_eq_ok {paths : List String} (h : ∀ path ∈ paths, Resolves locations path) :
    ∃ roots, paths.mapM (directory locations) = .ok roots ∧
      List.Forall₂ (fun path root => locations.resolve? path = some root) paths roots := by
  induction paths with
  | nil => exact ⟨[], rfl, .nil⟩
  | cons path rest ih =>
    obtain ⟨root, hRoot, hDirectory⟩ := h path (.head _)
    obtain ⟨roots, hRoots, hRest⟩ := ih fun other hOther => h other (.tail _ hOther)
    refine ⟨root :: roots, ?_, .cons hRoot hRest⟩
    rw [List.mapM_cons, directory_eq_ok hRoot hDirectory, hRoots]
    rfl

theorem mapM_directory_eq_error {paths : List String}
    (h : ¬∀ path ∈ paths, Resolves locations path) :
    ∃ failure, paths.mapM (directory locations) = .error failure ∧ failure.isDiscovery = true := by
  induction paths with
  | nil => exact absurd (List.forall_mem_nil _) h
  | cons path rest ih =>
    rw [List.mapM_cons]
    -- the first directory that is not there decides how it fails
    by_cases hPath : Resolves locations path
    · obtain ⟨failure, hFailure, hKind⟩ := ih fun hRest =>
        h (List.forall_mem_cons.mpr ⟨hPath, hRest⟩)
      obtain ⟨root, hRoot, hDirectory⟩ := hPath
      rw [directory_eq_ok hRoot hDirectory, hFailure]
      exact ⟨failure, rfl, hKind⟩
    · obtain ⟨failure, hFailure, hKind⟩ := directory_eq_error hPath
      rw [hFailure]
      exact ⟨failure, rfl, hKind⟩

theorem places_cons (entry : String × Class) (rest : Registry) :
    places locations (entry :: rest) =
      ((entry.2.file.bind locations.resolve?).map (entry.2.name, ·)).toList ++
        places locations rest := by
  unfold places Registry.files Registry.classes
  rw [List.map_cons, List.filterMap_cons]
  cases hFile : entry.2.file with
  | none => rfl
  | some file =>
    rw [Option.map_some, List.filterMap_cons, Option.bind_some]
    dsimp only
    cases locations.resolve? file <;> rfl

theorem placeOf?_of_mem (hCollected : registry.Collected) {entry : String × Class}
    (hEntry : entry ∈ registry) :
    placeOf? locations registry entry.2.name = entry.2.file.bind locations.resolve? := by
  rw [placeOf?, hCollected.find?_eq hEntry]
  rfl

/-- The classes under a place are told by their names, in the order of the registry. -/
theorem under_eq (hCollected : registry.Collected) (root : α) :
    under locations registry (places locations registry) root =
      (Table.names registry).filter fun name => isMarked registry name &&
        (placeOf? locations registry name).any (locations.isUnder · root) := by
  -- the entries are taken one by one, while names are looked up among all of them
  suffices h : ∀ table : Registry, (∀ entry ∈ table, entry ∈ registry) →
      under locations registry (places locations table) root =
        (Table.names table).filter fun name => isMarked registry name &&
          (placeOf? locations registry name).any (locations.isUnder · root) from
    h registry fun _ hEntry => hEntry
  intro table hEntries
  induction table with
  | nil => rfl
  | cons entry rest ih =>
    have hRest := ih fun other hOther => hEntries other (.tail _ hOther)
    have hEntry := hEntries entry (.head _)
    have hName : Table.names (entry :: rest) = entry.2.name :: Table.names rest := by
      rw [hCollected.keyed entry hEntry]
      rfl
    rw [under] at hRest ⊢
    rw [places_cons, List.filter_append, List.map_append, hRest, hName, List.filter_cons,
      placeOf?_of_mem hCollected hEntry]
    cases entry.2.file.bind locations.resolve? with
    | none => simp
    | some place =>
      simp only [Option.map_some, Option.toList_some, List.filter_cons, Option.any_some,
        Bool.and_comm (locations.isUnder place root)]
      split <;> rfl

/-- With all directories there, discovery picks the marked classes that each path holds. -/
theorem discoverIn_eq (hCollected : registry.Collected) {paths : List String}
    (hPaths : ∀ path ∈ paths, Resolves locations path) :
    discoverIn locations registry paths = .ok (picked
      (fun path name => isMarked registry name && holds locations registry path name)
      (Table.names registry) paths).eraseDups := by
  obtain ⟨roots, hRoots, hResolved⟩ := mapM_directory_eq_ok hPaths
  have hFound : roots.flatMap (under locations registry (places locations registry)) =
      picked (fun path name => isMarked registry name && holds locations registry path name)
        (Table.names registry) paths := by
    unfold picked
    clear hPaths hRoots
    induction hResolved with
    | nil => rfl
    | cons hRoot _ ih =>
      have hHolds := holds_eq locations registry hRoot
      rw [List.flatMap_cons, List.flatMap_cons, ih, under_eq hCollected]
      simp only [hHolds]
  rw [discoverIn, hRoots]
  exact congrArg (Except.ok ·.eraseDups) hFound

theorem discoverIn_eq_error {paths : List String} (h : ¬∀ path ∈ paths, Resolves locations path) :
    ∃ failure, discoverIn locations registry paths = .error failure ∧
      failure.isDiscovery = true := by
  obtain ⟨failure, hFailure, hKind⟩ := mapM_directory_eq_error h
  refine ⟨failure, ?_, hKind⟩
  rw [discoverIn, hFailure]
  rfl

end Collected

end Discovery

/-! ## Seeds -/

namespace Generator

variable {α : Type} (generator : Generator) (locations : Locations α) (names : List String)

/-- Whether all classes are known that are asked for or always generated. -/
def KnowsAll : Prop :=
  ∀ name ∈ names ++ generator.requested, name ∈ Table.names generator.registry

/-- Whether all discovery directories are there. -/
def FindsDirectories : Prop :=
  ∀ path ∈ generator.directories, Discovery.Resolves locations path

instance : Decidable (generator.KnowsAll names) :=
  inferInstanceAs (Decidable (∀ name ∈ names ++ generator.requested, _))

instance : Decidable (generator.FindsDirectories locations) :=
  inferInstanceAs (Decidable (∀ path ∈ generator.directories, Discovery.Resolves locations path))

/-- Whether a class is marked, and its file lies under one of the discovery directories. -/
def Discovers (name : String) : Prop :=
  Discovery.isMarked generator.registry name = true ∧
    ∃ path ∈ generator.directories,
      Discovery.holds locations generator.registry path name = true

/-- Whether one class is discovered before another: under an earlier directory, or under the same
one and as the earlier class. -/
def DiscoversBefore (a b : String) : Prop :=
  let first (name : String) := generator.directories.findIdx
    (Discovery.holds locations generator.registry · name)
  first a < first b ∨ first a = first b ∧
    (Table.names generator.registry).idxOf a < (Table.names generator.registry).idxOf b

/-- Whether there is a class to start from. -/
def HasSeed : Prop :=
  ∃ name, name ∈ names ++ generator.requested ∨ generator.Discovers locations name

/-- What the classes to start from are. -/
structure SeedList (seeds : List String) : Prop where
  nodup : seeds.Nodup
  known : ∀ name ∈ seeds, name ∈ Table.names generator.registry
  /-- The classes asked for and those always generated stand at their first occurrences, and behind
  them the other classes that are discovered. -/
  exists_discovered : ∃ discovered,
    seeds = (names ++ generator.requested).eraseDups ++ discovered ∧
      (∀ name, name ∈ discovered ↔
        name ∉ names ++ generator.requested ∧ generator.Discovers locations name) ∧
      discovered.Pairwise (generator.DiscoversBefore locations)

section Seeds

variable {generator locations names}

theorem known_of_isMarked {registry : Registry} {name : String}
    (h : Discovery.isMarked registry name = true) : name ∈ Table.names registry := by
  by_contra hUnknown
  rw [Discovery.isMarked, Table.find?_eq_none.mpr hUnknown] at h
  cases h

/-- The classes that are discovered. -/
theorem discovered_eq_ok (hCollected : generator.registry.Collected)
    (hDirectories : generator.FindsDirectories locations) :
    ∃ found, generator.discovered locations = .ok found ∧ found.Nodup ∧
      (∀ name, name ∈ found ↔ generator.Discovers locations name) ∧
      found.Pairwise (generator.DiscoversBefore locations) := by
  refine ⟨_, Discovery.discoverIn_eq hCollected hDirectories, nodup_eraseDups _, ?_, ?_⟩
  · intro name
    rw [List.mem_eraseDups, mem_picked]
    simp only [Bool.and_eq_true]
    constructor
    · rintro ⟨-, path, hPath, hMarked, hHolds⟩
      exact ⟨hMarked, path, hPath, hHolds⟩
    · rintro ⟨hMarked, path, hPath, hHolds⟩
      exact ⟨known_of_isMarked hMarked, path, hPath, hMarked, hHolds⟩
  · refine (pairwise_picked _ hCollected.nodup _).imp_of_mem fun ha hb hBefore => ?_
    rw [List.mem_eraseDups, mem_picked] at ha hb
    -- both classes are marked, so only the directories make a difference
    obtain ⟨-, _, -, ha⟩ := ha
    obtain ⟨-, _, -, hb⟩ := hb
    rw [(Bool.and_eq_true_iff.mp ha).1, (Bool.and_eq_true_iff.mp hb).1] at hBefore
    simpa only [DiscoversBefore, Bool.true_and] using hBefore

theorem find?_unknown_eq_none_iff :
    ((names ++ generator.requested).find? fun name => !generator.knows name) = none ↔
      generator.KnowsAll names := by
  rw [List.find?_eq_none]
  refine forall₂_congr fun name _ => ?_
  rw [knows, Bool.not_eq_true', Bool.not_eq_false, Option.isSome_iff_ne_none, Ne,
    Table.find?_eq_none, not_not]

theorem hasSeed_iff {found : List String}
    (hFound : ∀ name, name ∈ found ↔ generator.Discovers locations name) :
    generator.HasSeed locations names ↔ (names ++ generator.requested ++ found).eraseDups ≠ [] := by
  rw [Ne, List.eq_nil_iff_forall_not_mem, not_forall]
  refine exists_congr fun name => ?_
  rw [not_not, List.mem_eraseDups, ← hFound]
  exact List.mem_append.symm

theorem seedList (hKnown : generator.KnowsAll names) {found : List String} (hNodup : found.Nodup)
    (hFound : ∀ name, name ∈ found ↔ generator.Discovers locations name)
    (hOrder : found.Pairwise (generator.DiscoversBefore locations)) :
    generator.SeedList locations names (names ++ generator.requested ++ found).eraseDups where
  nodup := nodup_eraseDups _
  known := by
    intro name hName
    rcases List.mem_append.mp (List.mem_eraseDups.mp hName) with hName | hName
    · exact hKnown name hName
    · exact known_of_isMarked ((hFound name).mp hName).1
  exists_discovered := by
    have hSublist : (found.removeAll (names ++ generator.requested)).Sublist found :=
      List.filter_sublist
    refine ⟨found.removeAll (names ++ generator.requested), ?_, fun name => ?_,
      hOrder.sublist hSublist⟩
    · rw [List.eraseDups_append, eraseDups_of_nodup (hSublist.nodup hNodup)]
    · rw [mem_removeAll, hFound, and_comm]

/-- How seeding ends. -/
theorem seedsIn_cases (hCollected : generator.registry.Collected) :
    (¬generator.KnowsAll names ∧
      ∃ name, generator.seedsIn locations names = .error (.unknownClass name)) ∨
    (generator.KnowsAll names ∧ ¬generator.FindsDirectories locations ∧
      ∃ failure, generator.seedsIn locations names = .error failure ∧
        failure.isDiscovery = true) ∨
    (generator.KnowsAll names ∧ generator.FindsDirectories locations ∧
      ¬generator.HasSeed locations names ∧
      generator.seedsIn locations names = .error .nothingToGenerate) ∨
    (generator.KnowsAll names ∧ generator.FindsDirectories locations ∧
      generator.HasSeed locations names ∧
      ∃ seeds, generator.seedsIn locations names = .ok seeds ∧
        generator.SeedList locations names seeds) := by
  rw [seedsIn]
  cases hUnknown : (names ++ generator.requested).find? fun name => !generator.knows name with
  | some name =>
    refine .inl ⟨fun hKnown => ?_, name, rfl⟩
    rw [find?_unknown_eq_none_iff.mpr hKnown] at hUnknown
    cases hUnknown
  | none =>
    have hKnown := find?_unknown_eq_none_iff.mp hUnknown
    -- only now are the directories looked for, and nothing to start from is told last
    by_cases hDirectories : generator.FindsDirectories locations
    · obtain ⟨found, hOk, hNodup, hFound, hOrder⟩ := discovered_eq_ok hCollected hDirectories
      have hSeeds := seedList hKnown hNodup hFound hOrder
      rw [hOk]
      by_cases hSome : generator.HasSeed locations names
      · refine .inr (.inr (.inr ⟨hKnown, hDirectories, hSome, _, if_neg ?_, hSeeds⟩))
        exact fun hNone => (hasSeed_iff hFound).mp hSome (List.isEmpty_iff.mp hNone)
      · refine .inr (.inr (.inl ⟨hKnown, hDirectories, hSome, if_pos ?_⟩))
        exact List.isEmpty_iff.mpr (not_not.mp fun hNone => hSome ((hasSeed_iff hFound).mpr hNone))
    · obtain ⟨failure, hFailure, hKind⟩ := Discovery.discoverIn_eq_error hDirectories
      refine .inr (.inl ⟨hKnown, hDirectories, failure, ?_, hKind⟩)
      rw [discovered, hFailure]
      rfl

end Seeds

end Generator

/-- Locations as the components of absolute paths tell them: every path that exists leads to one
list of components, and a place is under another just if its components begin with those of the
other. -/
def Locations.ofComponents (resolve? : String → Option (List String))
    (isDirectory : List String → Bool) : Locations (List String) where
  resolve? := resolve?
  isDirectory := isDirectory
  isUnder place directory := directory.isPrefixOf place

namespace Generator

/-- Seeding is exact, wherever paths lead.  It fails over what was asked for just if a class is
unknown, or there is nothing to start from although all directories are there.  It fails over
discovery just if all classes are known and a directory is not there.  In all other cases it gives
the classes asked for, those always generated and those discovered, each once. -/
theorem seeds_exact (generator : Generator) (hBuilt : generator.Built)
    (resolve? : String → Option (List String)) (isDirectory : List String → Bool)
    (names : List String) :
    let locations := Locations.ofComponents resolve? isDirectory
    ((∃ failure, generator.seedsIn locations names = .error failure ∧
        failure.isConfiguration = true) ↔
      ¬generator.KnowsAll names ∨ generator.KnowsAll names ∧
        generator.FindsDirectories locations ∧ ¬generator.HasSeed locations names) ∧
    ((∃ failure, generator.seedsIn locations names = .error failure ∧
        failure.isDiscovery = true) ↔
      generator.KnowsAll names ∧ ¬generator.FindsDirectories locations) ∧
    (generator.KnowsAll names → generator.FindsDirectories locations →
      generator.HasSeed locations names →
      ∃ seeds, generator.seedsIn locations names = .ok seeds ∧
        generator.SeedList locations names seeds) := by
  intro locations
  rcases @seedsIn_cases _ generator locations names hBuilt.collected with
    ⟨hUnknown, name, hOutcome⟩ | ⟨hKnown, hMissing, failure, hOutcome, hKind⟩ |
    ⟨hKnown, hDirectories, hNone, hOutcome⟩ | ⟨hKnown, hDirectories, hSome, seeds, hOutcome, hSeeds⟩
  · simp [hOutcome, hUnknown, Failure.isConfiguration, Failure.isDiscovery]
  · simp [hOutcome, hKnown, hMissing, hKind, Failure.isConfiguration_eq_false hKind]
  · simp [hOutcome, hKnown, hDirectories, hNone, Failure.isConfiguration, Failure.isDiscovery]
  · simp [hOutcome, hKnown, hDirectories, hSome, hSeeds]

/-- A generator with two marked classes and three discovery directories, one of them twice. -/
def siblings : Generator :=
  ({ directories := ["src/models", "src", "src/models/"] } : Generator)
    |>.addClass { name := "app::Old", shape := .record [], file := some "old.rs", marked := true }
    |>.addClass { name := "app::User", shape := .record [], file := some "user.rs", marked := true }
    |>.addClass { name := "app::Asked", shape := .record [] }

/-- Where the paths of `siblings` lead.  The directory of the older class has a name that begins
with the name of the other one. -/
def siblingPaths : List (String × List String) :=
  [("src", ["work", "src"]), ("src/models", ["work", "src", "models"]),
    ("src/models/", ["work", "src", "models"]),
    ("user.rs", ["work", "src", "models", "user.rs"]),
    ("old.rs", ["work", "src", "models_old", "old.rs"])]

/-- The older class comes last, as only the second directory holds it. -/
theorem siblings_seeded :
    siblings.Built ∧
    let locations := Locations.ofComponents (List.lookup · siblingPaths) (·.length ≤ 3)
    siblings.SeedList locations ["app::Asked", "app::Asked"]
      ["app::Asked", "app::User", "app::Old"] := by
  have hBuilt : siblings.Built := (((Built.start rfl).addClass _).addClass _).addClass _
  refine ⟨hBuilt, ?_⟩
  intro locations
  obtain ⟨-, -, hSeeded⟩ := seeds_exact siblings hBuilt (List.lookup · siblingPaths) (·.length ≤ 3)
    ["app::Asked", "app::Asked"]
  obtain ⟨seeds, hOk, hSeeds⟩ := hSeeded (by decide) (by decide)
    ⟨"app::Asked", .inl (.head _)⟩
  have hOutcome : siblings.seedsIn locations ["app::Asked", "app::Asked"] =
    .ok ["app::Asked", "app::User", "app::Old"] := by rfl
  obtain rfl := Except.ok.inj (hOk.symm.trans hOutcome)
  exact hSeeds

end Generator
end Ambient
