import Ambient.Generator
import Ambient.Proofs.FieldType
import Ambient.Proofs.ModuleTree
import Ambient.Proofs.SourceFiles
import Mathlib.Data.List.Nodup

/-!
# The classes of a source directory

A class that is added takes the place of an earlier one with its name.  So a scan of a directory
keeps what it extracts just as far as no two classes share a name.  The name of a class tells the
module that it is in: hence if no two files hold or contain the same module, nothing is lost, and no
file takes a class from another (`sourceDirectory_kept`).

Files do hold the same module where one of them is named `lib.rs`, `main.rs` or `mod.rs`: these name
the module of their directory, and the last one of them wins (`mainClass_replaces_libClass`).
-/

namespace Ambient

open Source Extraction

/-! ## Registries -/

/-- A class is found under its name if it is the only one of that name. -/
theorem Registry.find?_insertAll {classes : List Class} {c : Class} (hMem : c ∈ classes)
    (hOnly : ∀ other ∈ classes, other.name = c.name → other = c) :
    Table.find? (Registry.insertAll [] classes) c.name = some c := by
  have hTable : Registry.insertAll [] classes =
      Table.ofLast (classes.map fun c => (c.name, c)) := by
    rw [Table.ofLast, List.foldl_map]
    rfl
  rw [hTable, Table.find?_ofLast]
  refine Table.find?_eq_of_forall ?_ ?_
  · exact List.mem_reverse.mpr (List.mem_map.mpr ⟨c, hMem, rfl⟩)
  · intro other hOther
    obtain ⟨found, hFound, hEq⟩ := List.mem_map.mp (List.mem_reverse.mp hOther)
    obtain ⟨hName, rfl⟩ := Prod.mk.inj hEq
    exact hOnly found hFound hName

/-! ## Files -/

/-- The path of the module that a file of a directory holds. -/
def moduleOf (directory : SystemText) (crate : String) (names : List SystemText) : List String :=
  QualifiedName.segments
    (FilePath.modulePath directory (names.foldl FilePath.join directory) crate)

/-- The classes of a file, as it is extracted with some markers. -/
def classesOfFile (sources : Sources) (directory : SystemText) (crate : String)
    (markers : List String) (names : List SystemText) (items : List Item) : List Class :=
  classesOfItems ⟨markers, some (sources.label (names.foldl FilePath.join directory))⟩
    (Module.ofItems (moduleOf directory crate names) items) items

/-- What keeps the source files of a directory apart. -/
structure Separate (sources : Sources) (directory : SystemText) (crate : String)
    (markers : List String) : Prop where
  /-- No file declares a path twice. -/
  once : ∀ names items, SourceFile sources directory names items →
    ((classesOfFile sources directory crate markers names items).map Class.name).Nodup
  /-- No two files hold one module. -/
  files : ∀ names items names' items', SourceFile sources directory names items →
    SourceFile sources directory names' items' → names ≠ names' →
    moduleOf directory crate names ≠ moduleOf directory crate names'
  /-- No module inside a file has the name of a module of another file. -/
  inner : ∀ names items names' items', SourceFile sources directory names items →
    SourceFile sources directory names' items' → names ≠ names' →
    ∀ path content, Contains (moduleOf directory crate names) items path content →
      path ≠ moduleOf directory crate names →
      ∀ path' content', Contains (moduleOf directory crate names') items' path' content' →
        QualifiedName.ofSegments path ≠ QualifiedName.ofSegments path'

section Directory

variable {sources : Sources} {directory : SystemText} {crate : String} {markers : List String}
  {names names' : List SystemText} {items items' : List Item}

theorem moduleOf_congr (crate : String) (hNames : ∀ name ∈ names, FilePath.IsName name)
    (hNames' : ∀ name ∈ names', FilePath.IsName name)
    (h : FilePath.fileModule names = FilePath.fileModule names') :
    moduleOf directory crate names = moduleOf directory crate names' := by
  rw [moduleOf, moduleOf, FilePath.modulePath_foldl_join directory hNames,
    FilePath.modulePath_foldl_join directory hNames', h]

section Modules

variable (h : SourceFile sources directory names items)
  (h' : SourceFile sources directory names' items') (hDirectory : sources.IsDirectory directory)
  (hColon : ∀ name ∈ names, ':' ∉ name.text.toList)
  (hColon' : ∀ name ∈ names', ':' ∉ name.text.toList)

include h h' hDirectory hColon hColon'

/-- The name of a module tells what the names of its file give. -/
theorem SourceFile.fileModule_eq
    (hName : QualifiedName.ofSegments (moduleOf directory crate names) =
      QualifiedName.ofSegments (moduleOf directory crate names')) :
    FilePath.fileModule names = FilePath.fileModule names' :=
  FilePath.fileModule_eq_of_modulePath (h.isSource hDirectory) (h'.isSource hDirectory)
    (hDirectory.proper _ h.walked) (hDirectory.proper _ h'.walked) hColon hColon' hName

/-- Two files hold one module just if the texts of their names say so. -/
theorem SourceFile.moduleOf_eq_iff :
    moduleOf directory crate names = moduleOf directory crate names' ↔
      FilePath.OneModule (names.map SystemText.text) (names'.map SystemText.text) := by
  have hNames := hDirectory.proper _ h.walked
  have hNames' := hDirectory.proper _ h'.walked
  rw [← FilePath.fileModule_eq_iff (h.isSource hDirectory) (h'.isSource hDirectory) hNames hNames']
  refine ⟨fun hEq => ?_, moduleOf_congr crate hNames hNames'⟩
  exact h.fileModule_eq h' hDirectory hColon hColon' (congrArg QualifiedName.ofSegments hEq)

end Modules

/-- A class of a file is named by a module in that file and a segment. -/
theorem SourceFile.placed (h : SourceFile sources directory names items) {c : Class}
    (hc : c ∈ classesOfFile sources directory crate markers names items) :
    ∃ path content name, Contains (moduleOf directory crate names) items path content ∧
      QualifiedName.IsSegment name ∧ c.name = QualifiedName.ofSegments (path ++ [name]) := by
  obtain ⟨source, -, hParse⟩ := h.parsed
  obtain ⟨path, content, hContains, item, hItem, hClass⟩ := mem_classesOfItems.mp hc
  obtain ⟨ident, hIdent, hName, -⟩ := name_of_classOf? hClass
  have hWell := hContains.wellNamed (parseFile?_wellNamed hParse)
  have hDeclarable := declarable_of_declaredName? (wellNamed_iff.mp hWell item hItem) hIdent
  exact ⟨path, content, ident.name, hContains, hDeclarable.isSegment, hName⟩

/-- Two files have no class name in common. -/
theorem SourceFile.name_ne (h : SourceFile sources directory names items)
    (h' : SourceFile sources directory names' items') (hDirectory : sources.IsDirectory directory)
    (hColon : ∀ name ∈ names, ':' ∉ name.text.toList)
    (hColon' : ∀ name ∈ names', ':' ∉ name.text.toList)
    (hSeparate : Separate sources directory crate markers) (hNames : names ≠ names')
    {c c' : Class} (hc : c ∈ classesOfFile sources directory crate markers names items)
    (hc' : c' ∈ classesOfFile sources directory crate markers names' items') :
    c.name ≠ c'.name := by
  obtain ⟨path, content, name, hContains, hSegment, hName⟩ := h.placed hc
  obtain ⟨path', content', name', hContains', hSegment', hName'⟩ := h'.placed hc'
  intro hEq
  rw [hName, hName'] at hEq
  -- the modules have the same name
  have hModules := (QualifiedName.ofSegments_concat_injective hSegment hSegment' hEq).1
  by_cases hOwn : path = moduleOf directory crate names
  · by_cases hOwn' : path' = moduleOf directory crate names'
    · -- both are the modules of their files
      rw [hOwn, hOwn'] at hModules
      have hFile := h.fileModule_eq h' hDirectory hColon hColon' hModules
      exact hSeparate.files _ _ _ _ h h' hNames
        (moduleOf_congr crate (hDirectory.proper _ h.walked) (hDirectory.proper _ h'.walked) hFile)
    · exact hSeparate.inner _ _ _ _ h' h (Ne.symm hNames) _ _ hContains' hOwn' _ _ hContains
        hModules.symm
  · exact hSeparate.inner _ _ _ _ h h' hNames _ _ hContains hOwn _ _ hContains' hModules

end Directory

/-! ## Scans -/

/-- The classes that a scan finds in the file at a path; none if the source is malformed. -/
def scannedClasses (sources : Sources) (directory : SystemText) (crate : String)
    (markers : List String) (path : SystemText) : List Class :=
  ((sources.read? path).bind fun source =>
    classesOfSource? ⟨markers, some (sources.label path)⟩
      (FilePath.modulePath directory path crate) source).getD []

section Scan

variable {sources : Sources} {directory : SystemText} {crate : String} {markers : List String}

/-- A scan that reads all files adds their classes one after the other. -/
theorem registry_addSourceFilesIn {paths : List SystemText} {start generator : Generator}
    (h : start.addSourceFilesIn sources directory crate paths = (generator, none)) :
    generator.registry = start.registry.insertAll
      (paths.flatMap (scannedClasses sources directory crate start.markers)) := by
  induction paths generalizing start with
  | nil =>
    cases h
    rfl
  | cons path rest ih =>
    rw [Generator.addSourceFilesIn, Generator.addSourceFileIn] at h
    -- a file that cannot be read would have ended the scan
    cases hRead : sources.read? path with
    | none =>
      rw [hRead] at h
      cases h
    | some source =>
      rw [hRead] at h
      rw [ih h, Generator.addSource, List.flatMap_cons, Registry.insertAll, Registry.insertAll,
        Registry.insertAll, List.foldl_append, scannedClasses, hRead]
      rfl

theorem Sources.mem_files {path : SystemText} :
    path ∈ sources.files directory ↔ ∃ names ∈ sources.walk directory,
      names.foldl FilePath.join directory = path ∧
        FilePath.extension? path = some (SystemText.ofString "rs") := by
  rw [Sources.files, List.mem_filter]
  simp only [List.mem_map, beq_iff_eq]
  constructor
  · rintro ⟨⟨names, hNames, hPath⟩, hExtension⟩
    exact ⟨names, hNames, hPath, hExtension⟩
  · rintro ⟨names, hNames, hPath, hExtension⟩
    exact ⟨⟨names, hNames, hPath⟩, hExtension⟩

/-- What a scan finds are the classes of the source files. -/
theorem mem_scannedClasses {c : Class} :
    c ∈ (sources.files directory).flatMap (scannedClasses sources directory crate markers) ↔
      ∃ names items, SourceFile sources directory names items ∧
        c ∈ classesOfFile sources directory crate markers names items := by
  rw [List.mem_flatMap]
  constructor
  · rintro ⟨path, hPath, hc⟩
    obtain ⟨names, hNames, rfl, hExtension⟩ := Sources.mem_files.mp hPath
    unfold scannedClasses classesOfSource? at hc
    cases hRead : sources.read? (names.foldl FilePath.join directory) with
    | none =>
      rw [hRead] at hc
      cases hc
    | some source =>
      rw [hRead, Option.bind_some] at hc
      -- a file that cannot be parsed adds no class
      cases hParse : parseFile? source with
      | none =>
        rw [hParse] at hc
        cases hc
      | some items =>
        rw [hParse] at hc
        exact ⟨names, items, ⟨hNames, hExtension, source, hRead, hParse⟩, hc⟩
  · rintro ⟨names, items, ⟨hNames, hExtension, source, hRead, hParse⟩, hc⟩
    refine ⟨_, Sources.mem_files.mpr ⟨names, hNames, rfl, hExtension⟩, ?_⟩
    rw [scannedClasses, hRead, Option.bind_some, classesOfSource?, hParse]
    exact hc

end Scan

/-- Nothing that a scan extracts is lost, wherever the sources of a directory are found.  Two files
hold one module just if the texts of their names say so.  If no two files hold or contain one
module, every class of every source file is found under its name just as it was extracted, and no
two files have a class name in common. -/
theorem sourceDirectory_kept {sources : Sources} {directory : SystemText}
    (hDirectory : sources.IsDirectory directory) (crate : String)
    (hColon : ∀ names items, SourceFile sources directory names items →
      ∀ name ∈ names, ':' ∉ name.text.toList) :
    (∀ names items names' items', SourceFile sources directory names items →
      SourceFile sources directory names' items' →
      (moduleOf directory crate names = moduleOf directory crate names' ↔
        FilePath.OneModule (names.map SystemText.text) (names'.map SystemText.text))) ∧
    ∀ start generator : Generator, start.registry = [] →
      Separate sources directory crate start.markers →
      start.addSourceDirectoryIn sources directory crate = (generator, none) →
      (∀ names items, SourceFile sources directory names items →
        ∀ c ∈ classesOfFile sources directory crate start.markers names items,
          Table.find? generator.registry c.name = some c) ∧
      ∀ names items names' items', SourceFile sources directory names items →
        SourceFile sources directory names' items' → names ≠ names' →
        ∀ c ∈ classesOfFile sources directory crate start.markers names items,
        ∀ c' ∈ classesOfFile sources directory crate start.markers names' items',
          c.name ≠ c'.name := by
  refine ⟨fun names items names' items' h h' =>
    h.moduleOf_eq_iff h' hDirectory (hColon _ _ h) (hColon _ _ h'), ?_⟩
  intro start generator hStart hSeparate hScan
  have hApart := fun names items names' items' (h : SourceFile sources directory names items)
      (h' : SourceFile sources directory names' items') (hNames : names ≠ names') c
      (hc : c ∈ classesOfFile sources directory crate start.markers names items) c'
      (hc' : c' ∈ classesOfFile sources directory crate start.markers names' items') =>
    h.name_ne h' hDirectory (hColon _ _ h) (hColon _ _ h') hSeparate hNames hc hc'
  refine ⟨fun names items h c hc => ?_, hApart⟩
  rw [registry_addSourceFilesIn hScan, hStart]
  refine Registry.find?_insertAll (mem_scannedClasses.mpr ⟨names, items, h, hc⟩) ?_
  intro other hOther hName
  obtain ⟨names', items', h', hc'⟩ := mem_scannedClasses.mp hOther
  by_cases hNames : names = names'
  · -- the classes are those of one file, which has no name twice
    subst hNames
    obtain ⟨source, hRead, hParse⟩ := h.parsed
    obtain ⟨source', hRead', hParse'⟩ := h'.parsed
    obtain rfl := Option.some.inj (hRead.symm.trans hRead')
    obtain rfl := Option.some.inj (hParse.symm.trans hParse')
    exact List.inj_on_of_nodup_map (hSeparate.once _ _ h) hc' hc hName
  · exact absurd hName.symm (hApart _ _ _ _ h h' hNames c hc other hc')

/-! ## Two files of one directory -/

/-- A directory with a source `lib.rs` and another one next to it. -/
def besideLibrary (name : String) : FileSystem :=
  { entries := [(["src"], .directory), (["src", "lib.rs"], .file (.text "struct A;") false),
      (["src", name], .file (.text "enum A \x7b\x7d") false)] }

/-- The names that the second file has below. -/
def fileNames : List String := ["main.rs", "model.rs"]

/-- Whether a path is that of a directory like `src` above. -/
structure Beside (sources : Sources) (directory : SystemText) (name : String) : Prop where
  known : name ∈ fileNames
  walk : sources.walk directory = [[], [SystemText.ofString "lib.rs"], [SystemText.ofString name]]
  unread : sources.read? directory = none
  extension : FilePath.extension? directory ≠ some (SystemText.ofString "rs")
  library : sources.read? (FilePath.join directory "lib.rs") = some "struct A;"
  other : sources.read? (FilePath.join directory name) = some "enum A \x7b\x7d"

def libraryItems : List Item :=
  [.struct ⟨[], plain "A", .unit⟩]

def otherItems : List Item :=
  [.enum ⟨[], plain "A", []⟩]

theorem parse_library : parseFile? "struct A;" = some libraryItems := by
  have hTokens : tokenizeFile "struct A;".toList =
      some [.ident (plain "struct"), .ident (plain "A"), .punct ';' false] := rfl
  rw [parseFile?, hTokens]
  rfl

theorem parse_other : parseFile? "enum A \x7b\x7d" = some otherItems := by
  have hTokens : tokenizeFile "enum A \x7b\x7d".toList =
      some [.ident (plain "enum"), .ident (plain "A"), .group .brace []] := rfl
  rw [parseFile?, hTokens]
  rfl

/-- The class of the file `lib.rs`. -/
def libraryClass (file : String) : Class :=
  { name := "app::A", shape := .record [], file := some file, line := some 1 }

/-- The class of the other file. -/
def otherClass (name file : String) : Class :=
  { name := if name = "main.rs" then "app::A" else "app::model::A"
    shape := .enumeration []
    file := some file
    line := some 1 }

theorem walk_besideLibrary : ∀ name ∈ fileNames,
    (besideLibrary name).walk (.below ["src"]) = [[], ["lib.rs"], [name]] := by
  intro name hName
  have hBelow : ((besideLibrary name).entries.filterMap fun entry =>
      if ["src"].isPrefixOf entry.1 then some (entry.1.drop ["src"].length) else none).filter
        (!·.isEmpty) = [["lib.rs"], [name]] := rfl
  have hOrder : ∀ name ∈ fileNames, FileSystem.comesBefore ["lib.rs"] [name] := by decide
  rw [FileSystem.walk, hBelow, List.mergeSort_of_pairwise]
  simp [hOrder name hName]

theorem beside_besideLibrary {name : String} (hName : name ∈ fileNames) :
    Beside (besideLibrary name).sources "src" name where
  known := hName
  walk := by
    have hPlace : (besideLibrary name).resolve? "src" = some (.below ["src"]) := rfl
    rw [FileSystem.sources_walk _ _ hPlace, walk_besideLibrary name hName]
    rfl
  unread := by rfl
  extension := by decide
  library := by
    revert name
    decide
  other := by
    revert name
    decide

/-- The directory is the same by its absolute path. -/
theorem Beside.absolute {sources : Sources} {directory : SystemText} {name : String}
    (h : Beside sources directory name) (hSome : directory ≠ []) {work : SystemText}
    (hExtension : FilePath.extension? (work ++ FilePath.slash :: directory) ≠
      some (SystemText.ofString "rs")) :
    Beside (sources.absolute work) (work ++ FilePath.slash :: directory) name where
  known := h.known
  walk := by rw [Sources.absolute_walk, h.walk]
  unread := by rw [Sources.absolute_read?, h.unread]
  extension := hExtension
  library := by rw [Sources.join_append hSome, Sources.absolute_read?, h.library]
  other := by rw [Sources.join_append hSome, Sources.absolute_read?, h.other]

section Beside

variable {sources : Sources} {directory : SystemText} {name : String}
  (h : Beside sources directory name)

include h

theorem Beside.isDirectory : sources.IsDirectory directory where
  unread := h.unread
  proper := by
    rw [h.walk]
    have hProper : ∀ name ∈ fileNames, ∀ names ∈
        [[], [SystemText.ofString "lib.rs"], [SystemText.ofString name]],
        ∀ name ∈ names, FilePath.IsName name := by
      decide
    exact hProper name h.known

/-- The source files are the two files with the items that they hold. -/
theorem Beside.sourceFile {names : List SystemText} {items : List Item}
    (hFile : SourceFile sources directory names items) :
    (names = [SystemText.ofString "lib.rs"] ∧ items = libraryItems) ∨
      (names = [SystemText.ofString name] ∧ items = otherItems) := by
  obtain ⟨hWalked, -, source, hSource, hParse⟩ := hFile
  rw [h.walk] at hWalked
  simp only [List.mem_cons, List.not_mem_nil, or_false] at hWalked
  rcases hWalked with rfl | rfl | rfl
  · cases h.unread.symm.trans hSource
  · obtain rfl := Option.some.inj (h.library.symm.trans hSource)
    exact .inl ⟨rfl, (Option.some.inj (parse_library.symm.trans hParse)).symm⟩
  · obtain rfl := Option.some.inj (h.other.symm.trans hSource)
    exact .inr ⟨rfl, (Option.some.inj (parse_other.symm.trans hParse)).symm⟩

theorem Beside.library_sourceFile :
    SourceFile sources directory [SystemText.ofString "lib.rs"] libraryItems where
  walked := by simp [h.walk]
  extension := (FilePath.extension?_foldl_join_iff directory (by decide) (by decide)).mpr
    ⟨[], SystemText.ofString "lib", by decide, by decide⟩
  parsed := ⟨_, h.library, parse_library⟩

theorem Beside.other_sourceFile :
    SourceFile sources directory [SystemText.ofString name] otherItems where
  walked := by simp [h.walk]
  extension := by
    have hSource : ∀ name ∈ fileNames, FilePath.IsSource [SystemText.ofString name] :=
      List.forall_mem_cons.mpr ⟨⟨[], SystemText.ofString "main", by decide, by decide⟩,
        List.forall_mem_singleton.mpr ⟨[], SystemText.ofString "model", by decide, by decide⟩⟩
    have hNames := h.isDirectory.proper [SystemText.ofString name] (by simp [h.walk])
    exact (FilePath.extension?_foldl_join_iff directory hNames (List.cons_ne_nil _ _)).mpr
      (hSource name h.known)
  parsed := ⟨_, h.other, parse_other⟩

theorem Beside.modulePath_library :
    FilePath.modulePath directory (FilePath.join directory "lib.rs") "app" = "app" := by
  have hNames := h.isDirectory.proper _ h.library_sourceFile.walked
  refine (FilePath.modulePath_foldl_join directory hNames "app").trans ?_
  decide

theorem Beside.modulePath_other :
    FilePath.modulePath directory (FilePath.join directory name) "app" =
      if name = "main.rs" then "app" else "app::model" := by
  have hNames := h.isDirectory.proper _ h.other_sourceFile.walked
  refine (FilePath.modulePath_foldl_join directory hNames "app").trans ?_
  have hModule : ∀ name ∈ fileNames, QualifiedName.ofSegments
      (FilePath.crateSegment "app" :: FilePath.fileModule [SystemText.ofString name]) =
        if name = "main.rs" then "app" else "app::model" := by
    decide
  exact hModule name h.known

theorem Beside.classes_library :
    classesOfFile sources directory "app" ["TypeScript"] [SystemText.ofString "lib.rs"]
        libraryItems =
      [libraryClass (sources.label (FilePath.join directory "lib.rs"))] := by
  rw [classesOfFile, moduleOf, List.foldl_cons, List.foldl_nil, h.modulePath_library]
  rfl

theorem Beside.classes_other :
    classesOfFile sources directory "app" ["TypeScript"] [SystemText.ofString name] otherItems =
      [otherClass name (sources.label (FilePath.join directory name))] := by
  rw [classesOfFile, moduleOf, List.foldl_cons, List.foldl_nil, h.modulePath_other, otherClass]
  split <;> rfl

theorem Beside.files : sources.files directory =
    [FilePath.join directory "lib.rs", FilePath.join directory name] := by
  have hLibrary := h.library_sourceFile.extension
  have hOther := h.other_sourceFile.extension
  rw [List.foldl_cons, List.foldl_nil] at hLibrary hOther
  rw [Sources.files, h.walk]
  simp [h.extension, hLibrary, hOther]

theorem Beside.addSourceDirectoryIn :
    ({} : Generator).addSourceDirectoryIn sources directory "app" =
      ({ registry := Registry.insertAll []
          [libraryClass (sources.label (FilePath.join directory "lib.rs")),
            otherClass name (sources.label (FilePath.join directory name))] }, none) := by
  have hLibrary := h.classes_library
  have hOther := h.classes_other
  rw [classesOfFile, moduleOf, List.foldl_cons, List.foldl_nil] at hLibrary hOther
  rw [Generator.addSourceDirectoryIn, h.files, Generator.addSourceFilesIn,
    Generator.addSourceFileIn, h.library]
  dsimp only
  rw [Generator.addSourceFilesIn, Generator.addSourceFileIn, h.other]
  dsimp only
  rw [Generator.addSource, Generator.addSource, classesOfSource?, classesOfSource?, parse_library,
    parse_other, Option.map_some, Option.map_some, hLibrary, hOther]
  rfl

/-- No file declares a class twice. -/
theorem Beside.once (names : List SystemText) (items : List Item)
    (hFile : SourceFile sources directory names items) :
    ((classesOfFile sources directory "app" ["TypeScript"] names items).map Class.name).Nodup := by
  rcases h.sourceFile hFile with ⟨rfl, rfl⟩ | ⟨rfl, rfl⟩
  · rw [h.classes_library]
    exact List.nodup_singleton _
  · rw [h.classes_other]
    exact List.nodup_singleton _

/-- The names of the files have no colon. -/
theorem Beside.colon_not_mem (names : List SystemText) (items : List Item)
    (hFile : SourceFile sources directory names items) :
    ∀ part ∈ names, ':' ∉ part.text.toList := by
  rcases h.sourceFile hFile with ⟨rfl, rfl⟩ | ⟨rfl, rfl⟩
  · decide
  · have hOther : ∀ name ∈ fileNames, ':' ∉ (SystemText.ofString name).text.toList := by decide
    exact List.forall_mem_singleton.mpr (hOther name h.known)

end Beside

theorem Beside.separate {sources : Sources} {directory : SystemText}
    (h : Beside sources directory "model.rs") :
    Separate sources directory "app" ["TypeScript"] where
  once := h.once
  files := by
    have hLibrary : moduleOf directory "app" [SystemText.ofString "lib.rs"] = ["app"] :=
      congrArg QualifiedName.segments h.modulePath_library
    have hOther : moduleOf directory "app" [SystemText.ofString "model.rs"] = ["app", "model"] :=
      congrArg QualifiedName.segments h.modulePath_other
    intro names items names' items' hFile hFile' hNames hModules
    rcases h.sourceFile hFile with ⟨rfl, -⟩ | ⟨rfl, -⟩ <;>
      rcases h.sourceFile hFile' with ⟨rfl, -⟩ | ⟨rfl, -⟩
    · exact hNames rfl
    · simp [hLibrary, hOther] at hModules
    · simp [hLibrary, hOther] at hModules
    · exact hNames rfl
  inner := by
    -- neither file has a module inside
    intro names items names' items' hFile hFile' hNames path content hContains hInner
    refine absurd (hContains.eq_of_no_module ?_).1 hInner
    rcases h.sourceFile hFile with ⟨rfl, rfl⟩ | ⟨rfl, rfl⟩ <;>
      intro ident inner hMem <;> simp [libraryItems, otherItems] at hMem

/-- The files `lib.rs` and `main.rs` hold one module, so a class of the former is lost: its name
leads to the class of the latter, although no file declares a class twice and there is no
`mod.rs`. -/
theorem mainClass_replaces_libClass :
    let sources := (besideLibrary "main.rs").sources
    (∀ names items, SourceFile sources "src" names items →
      ((classesOfFile sources "src" "app" ["TypeScript"] names items).map Class.name).Nodup) ∧
    (∀ names, names ++ [SystemText.ofString "mod.rs"] ∉ sources.walk "src") ∧
    (∃ items, SourceFile sources "src" [SystemText.ofString "lib.rs"] items ∧
      libraryClass "src/lib.rs" ∈
        classesOfFile sources "src" "app" ["TypeScript"] [SystemText.ofString "lib.rs"] items) ∧
    ∃ generator, ({} : Generator).addSourceDirectory (besideLibrary "main.rs") "src" "app" =
        (generator, none) ∧
      Table.find? generator.registry (libraryClass "src/lib.rs").name =
        some (otherClass "main.rs" "src/main.rs") ∧
      (libraryClass "src/lib.rs").isEnumeration ≠
        (otherClass "main.rs" "src/main.rs").isEnumeration ∧
      (libraryClass "src/lib.rs").file ≠ (otherClass "main.rs" "src/main.rs").file := by
  intro sources
  have h : Beside sources "src" "main.rs" := beside_besideLibrary (by decide)
  have hLabel : sources.label (FilePath.join "src" "lib.rs") = "src/lib.rs" := by decide
  have hLabel' : sources.label (FilePath.join "src" "main.rs") = "src/main.rs" := by decide
  have hScan := h.addSourceDirectoryIn
  rw [hLabel, hLabel'] at hScan
  refine ⟨h.once, ?_, ⟨_, h.library_sourceFile, ?_⟩, _, hScan, by decide, by decide, by decide⟩
  · intro names hWalked
    rw [h.walk] at hWalked
    simp only [List.mem_cons, List.not_mem_nil, or_false] at hWalked
    rcases hWalked with hLast | hLast | hLast <;>
      simpa [SystemText.ofString] using congrArg List.getLast? hLast
  · rw [h.classes_library, hLabel]
    exact .head _

/-- The files `lib.rs` and `model.rs` hold different modules, and the classes of both are found,
whether the path of their directory is relative or absolute. -/
theorem model_beside_library_kept :
    let sources := (besideLibrary "model.rs").sources
    let absolute := sources.absolute "/work"
    sources.IsDirectory "src" ∧ Separate sources "src" "app" ["TypeScript"] ∧
    absolute.IsDirectory "/work/src" ∧ Separate absolute "/work/src" "app" ["TypeScript"] ∧
    (∃ generator, ({} : Generator).addSourceDirectory (besideLibrary "model.rs") "src" "app" =
        (generator, none) ∧
      Table.find? generator.registry "app::A" = some (libraryClass "src/lib.rs") ∧
      Table.find? generator.registry "app::model::A" =
        some (otherClass "model.rs" "src/model.rs")) ∧
    ∃ generator, ({} : Generator).addSourceDirectoryIn absolute "/work/src" "app" =
        (generator, none) ∧
      Table.find? generator.registry "app::A" = some (libraryClass "/work/src/lib.rs") ∧
      Table.find? generator.registry "app::model::A" =
        some (otherClass "model.rs" "/work/src/model.rs") := by
  intro sources absolute
  have h : Beside sources "src" "model.rs" := beside_besideLibrary (by decide)
  have h' : Beside absolute "/work/src" "model.rs" :=
    h.absolute (by decide) (by decide : FilePath.extension? "/work/src" ≠ _)
  have hKept := ((sourceDirectory_kept h.isDirectory "app" h.colon_not_mem).2 {} _ rfl h.separate
    h.addSourceDirectoryIn).1
  have hKept' := ((sourceDirectory_kept h'.isDirectory "app" h'.colon_not_mem).2 {} _ rfl
    h'.separate h'.addSourceDirectoryIn).1
  refine ⟨h.isDirectory, h.separate, h'.isDirectory, h'.separate,
    ⟨_, h.addSourceDirectoryIn, ?_, ?_⟩, _, h'.addSourceDirectoryIn, ?_, ?_⟩
  · exact hKept _ _ h.library_sourceFile (libraryClass "src/lib.rs")
      (by rw [h.classes_library]; exact .head _)
  · exact hKept _ _ h.other_sourceFile (otherClass "model.rs" "src/model.rs")
      (by rw [h.classes_other]; exact .head _)
  · exact hKept' _ _ h'.library_sourceFile (libraryClass "/work/src/lib.rs")
      (by rw [h'.classes_library]; exact .head _)
  · exact hKept' _ _ h'.other_sourceFile (otherClass "model.rs" "/work/src/model.rs")
      (by rw [h'.classes_other]; exact .head _)

end Ambient
