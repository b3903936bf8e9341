import Ambient.Extraction
import Ambient.Proofs.ModulePaths
import Ambient.Sources

/-!
# The source files of a directory

A scan asks for what a walk comes across and what can be read, and it makes no difference where the
directory is: the directories of a file system are directories for a scan
(`FileSystem.Proper.isDirectory`), and they hold the same source files by their absolute paths
(`Sources.IsDirectory.sourceFile_absolute_iff`).
-/

namespace Ambient

open Source

/-! ## Files -/

/-- Whether a path is that of a directory: it has no text of its own, and whatever a walk comes
across is reached by names. -/
structure Sources.IsDirectory (sources : Sources) (directory : SystemText) : Prop where
  unread : sources.read? directory = none
  proper : ∀ names ∈ sources.walk directory, ∀ name ∈ names, FilePath.IsName name

/-- A file of a directory that can be read as a source with some items. -/
structure SourceFile (sources : Sources) (directory : SystemText) (names : List SystemText)
    (items : List Item) : Prop where
  walked : names ∈ sources.walk directory
  extension : FilePath.extension? (names.foldl FilePath.join directory) =
    some (SystemText.ofString "rs")
  parsed : ∃ source, sources.read? (names.foldl FilePath.join directory) = some source ∧
    parseFile? source = some items

section Directory

variable {sources : Sources} {directory : SystemText} {names : List SystemText} {items : List Item}

/-- The directory itself is no file. -/
theorem Sources.IsDirectory.ne_nil (h : sources.IsDirectory directory) {source : String}
    (hRead : sources.read? (names.foldl FilePath.join directory) = some source) : names ≠ [] := by
  rintro rfl
  cases h.unread.symm.trans hRead

theorem SourceFile.isSource (h : SourceFile sources directory names items)
    (hDirectory : sources.IsDirectory directory) : FilePath.IsSource names := by
  obtain ⟨source, hRead, -⟩ := h.parsed
  exact (FilePath.extension?_foldl_join_iff directory (hDirectory.proper _ h.walked)
    (hDirectory.ne_nil hRead)).mp h.extension

end Directory

/-! ## File systems -/

namespace FileSystem

/-- Whether all entries have names that entries can have. -/
def Proper (fs : FileSystem) : Prop :=
  ∀ entry ∈ fs.entries, ∀ name ∈ entry.1, FilePath.IsName (SystemText.ofString name)

variable {fs : FileSystem} {place : Place}

theorem Proper.walk (h : fs.Proper) {names : List String} (hNames : names ∈ fs.walk place) :
    ∀ name ∈ names, FilePath.IsName (SystemText.ofString name) := by
  intro name hName
  unfold FileSystem.walk at hNames
  split at hNames
  · rcases List.mem_cons.mp hNames with rfl | hBelow
    · cases hName
    · have hFound := (List.mem_filter.mp (List.mem_mergeSort.mp hBelow)).1
      obtain ⟨entry, hEntry, hDrop⟩ := List.mem_filterMap.mp hFound
      split at hDrop
      · obtain rfl := Option.some.inj hDrop
        exact h entry hEntry name (List.mem_of_mem_drop hName)
      · cases hDrop
  · obtain rfl := List.mem_singleton.mp hNames
    cases hName

/-- The directories of a file system are directories for a scan. -/
theorem Proper.isDirectory (h : fs.Proper) {directory : String}
    (hPlace : fs.resolve? directory = some place) (hDirectory : fs.isDirectory place = true) :
    fs.sources.IsDirectory directory where
  unread := by
    have hEntry : fs.at? place = some .directory := beq_iff_eq.mp hDirectory
    rw [sources_read?, read?, hPlace, Option.bind_some, hEntry]
  proper := by
    intro names hNames
    rw [sources_walk fs directory hPlace] at hNames
    obtain ⟨walked, hWalked, rfl⟩ := List.mem_map.mp hNames
    exact List.forall_mem_map.mpr (h.walk hWalked)

end FileSystem

namespace Sources

/-- A path from a directory on, if it leads through that directory. -/
def after (directory path : SystemText) : SystemText :=
  if (directory ++ [FilePath.slash]).isPrefixOf path then path.drop (directory.length + 1) else path

/-- Sources as they are found from the root of all directories, where `work` is the path of the
directory that other paths start from. -/
def absolute (sources : Sources) (work : SystemText) : Sources where
  walk directory := sources.walk (after work directory)
  read? path := sources.read? (after work path)
  label := sources.label

theorem after_append (directory path : SystemText) :
    after directory (directory ++ FilePath.slash :: path) = path := by
  have hPrefix : (directory ++ [FilePath.slash]).isPrefixOf (directory ++ FilePath.slash :: path) :=
    List.isPrefixOf_iff_prefix.mpr ⟨path, by simp⟩
  rw [after, if_pos hPrefix, List.drop_append]
  simp

theorem join_append {directory : SystemText} (h : directory ≠ []) (work name : SystemText) :
    FilePath.join (work ++ FilePath.slash :: directory) name =
      work ++ FilePath.slash :: FilePath.join directory name := by
  have hLast : (work ++ FilePath.slash :: directory).getLast? = directory.getLast? := by
    rw [List.getLast?_append, List.getLast?_cons_of_ne_nil h, List.getLast?_eq_some_getLast h]
    rfl
  have hSome : directory.isEmpty = false := by simpa using h
  have hSome' : (work ++ FilePath.slash :: directory).isEmpty = false := by simp
  rw [FilePath.join, hSome', hLast, FilePath.join, hSome]
  split <;> simp

theorem foldl_join_append {directory : SystemText} (h : directory ≠ []) (work : SystemText)
    (names : List SystemText) :
    names.foldl FilePath.join (work ++ FilePath.slash :: directory) =
      work ++ FilePath.slash :: names.foldl FilePath.join directory := by
  induction names generalizing directory with
  | nil => rfl
  | cons name rest ih =>
    rw [List.foldl_cons, join_append h, ih]
    · rfl
    · -- a path that names were joined to is not empty
      unfold FilePath.join
      split <;> simp [h]

variable {sources : Sources} {directory : SystemText} (work path : SystemText)

theorem absolute_walk :
    (sources.absolute work).walk (work ++ FilePath.slash :: path) = sources.walk path :=
  congrArg sources.walk (after_append work path)

theorem absolute_read? :
    (sources.absolute work).read? (work ++ FilePath.slash :: path) = sources.read? path :=
  congrArg sources.read? (after_append work path)

/-- A directory has the same source files by its absolute path. -/
theorem IsDirectory.sourceFile_absolute_iff (hDirectory : sources.IsDirectory directory)
    (hSome : directory ≠ []) {names : List SystemText} {items : List Item} :
    SourceFile (sources.absolute work) (work ++ FilePath.slash :: directory) names items ↔
      SourceFile sources directory names items := by
  have hPath := foldl_join_append hSome work names
  -- either path ends in the names of the file, and these decide whether it is a source
  constructor
  · rintro ⟨hWalked, hExtension, source, hRead, hParse⟩
    rw [absolute_walk] at hWalked
    rw [hPath, absolute_read?] at hRead
    rw [FilePath.extension?_foldl_join_iff _ (hDirectory.proper _ hWalked)
      (hDirectory.ne_nil hRead)] at hExtension
    exact ⟨hWalked, (FilePath.extension?_foldl_join_iff _ (hDirectory.proper _ hWalked)
      (hDirectory.ne_nil hRead)).mpr hExtension, source, hRead, hParse⟩
  · intro h
    obtain ⟨source, hRead, hParse⟩ := h.parsed
    refine ⟨(absolute_walk work directory).symm ▸ h.walked, ?_, source, ?_, hParse⟩
    · exact (FilePath.extension?_foldl_join_iff _ (hDirectory.proper _ h.walked)
        (hDirectory.ne_nil hRead)).mpr (h.isSource hDirectory)
    · rw [hPath, absolute_read?, hRead]

end Sources

end Ambient
