import Ambient.FilePath
import Ambient.Proofs.QualifiedName

/-!
# The modules of source files

A walk through a directory reaches a file by joining names to the directory, and the components of
the path are these names again (`components_foldl_join`).  So the module of a source file depends on
the names alone, and on nothing of them but their texts (`fileModule_eq_textModule`).

The module determines the texts: two files stand for one module only if the texts of their names
agree, or each of them names that module by its directory, or one of them does and the other by its
own name (`SameModule`, `fileModule_eq_iff`).
-/

namespace Ambient

/-! ## Texts of names -/

theorem SystemUnit.shown_eq_iff {unit : SystemUnit} {c : Char} (h : c ≠ '\uFFFD') :
    unit.shown = c ↔ unit = .char c := by
  cases unit with
  | char other => simp [shown]
  | stray bytes => simp [shown, h.symm]

namespace SystemText

theorem toList_text (name : SystemText) : name.text.toList = name.map SystemUnit.shown :=
  String.toList_ofList

theorem text_append (name other : SystemText) :
    SystemText.text (name ++ other) = name.text ++ other.text := by
  refine String.toList_injective ?_
  rw [String.toList_append, toList_text, toList_text, toList_text, List.map_append]

theorem ofString_append (text other : String) :
    ofString (text ++ other) = ofString text ++ ofString other := by
  rw [ofString, String.toList_append, List.map_append]
  rfl

/-- There is one name of a given text if nothing in the text can be a replacement. -/
theorem text_eq_iff {name : SystemText} {text : String} (h : '\uFFFD' ∉ text.toList) :
    name.text = text ↔ name = ofString text := by
  constructor
  · rintro rfl
    rw [toList_text] at h
    -- no unit is shown as the replacement, so each is the character it is shown as
    have hUnits : ∀ unit ∈ name, SystemUnit.char unit.shown = unit := fun unit hUnit =>
      ((SystemUnit.shown_eq_iff fun hShown => h (hShown ▸ List.mem_map_of_mem hUnit)).mp rfl).symm
    rw [ofString, toList_text, List.map_map]
    exact ((List.map_congr_left hUnits).trans (List.map_id name)).symm
  · rintro rfl
    exact text_ofString text

end SystemText

namespace FilePath

/-! ## Joining names -/

/-- What the name of a file or a directory can be. -/
structure IsName (name : SystemText) : Prop where
  ne_nil : name ≠ []
  slash_not_mem : slash ∉ name
  ne_point : name ≠ [point]
  ne_points : name ≠ [point, point]

instance : DecidablePred IsName := fun name =>
  decidable_of_iff (name ≠ [] ∧ slash ∉ name ∧ name ≠ [point] ∧ name ≠ [point, point])
    ⟨fun ⟨hNil, hSlash, hPoint, hPoints⟩ => ⟨hNil, hSlash, hPoint, hPoints⟩,
      fun ⟨hNil, hSlash, hPoint, hPoints⟩ => ⟨hNil, hSlash, hPoint, hPoints⟩⟩

theorem splitAtSlashes_of_not_mem {path : SystemText} (h : slash ∉ path) :
    splitAtSlashes path = (path, []) := by
  induction path with
  | nil => rfl
  | cons unit rest ih =>
    have hFirst : (unit == slash) = false := by simpa using Ne.symm (List.ne_of_not_mem_cons h)
    rw [splitAtSlashes, ih (List.not_mem_of_not_mem_cons h), hFirst]
    rfl

theorem splitAtSlashes_append (path rest : SystemText) :
    splitAtSlashes (path ++ slash :: rest) = ((splitAtSlashes path).1,
      (splitAtSlashes path).2 ++ (splitAtSlashes rest).1 :: (splitAtSlashes rest).2) := by
  induction path with
  | nil => rfl
  | cons unit others ih =>
    rw [List.cons_append, splitAtSlashes, ih, splitAtSlashes]
    dsimp only
    split <;> rfl

/-- The steps of a path that is separated from a further name. -/
theorem steps_append (path : SystemText) {name : SystemText} (h : slash ∉ name) :
    steps (path ++ slash :: name) = steps path ++ [name] := by
  unfold steps
  rw [splitAtSlashes_append, splitAtSlashes_of_not_mem h]
  simp

theorem steps_ne_nil (path : SystemText) : steps path ≠ [] := by
  simp [steps]

/-- The components that some steps give. -/
def kept (absolute : Bool) (steps : List SystemText) : List SystemText :=
  let isKept (step : SystemText) : Bool := step != [] && step != [point]
  match steps with
  | [] => []
  | first :: rest =>
    if absolute then [slash] :: rest.filter isKept
    else if first == [point] then first :: rest.filter isKept
    else (first :: rest).filter isKept

theorem components_eq (path : SystemText) :
    components path = kept (isAbsolute path) (steps path) :=
  rfl

theorem kept_append {absolute : Bool} {steps : List SystemText} (h : steps ≠ [])
    (name : SystemText) : kept absolute (steps ++ [name]) =
      kept absolute steps ++ [name].filter fun step => step != [] && step != [point] := by
  cases steps with
  | nil => exact absurd rfl h
  | cons first rest =>
    unfold kept
    rw [List.cons_append]
    dsimp only
    rw [← List.cons_append, List.filter_append, List.filter_append]
    split
    · rfl
    · split <;> rfl

theorem isAbsolute_append {path : SystemText} (h : path ≠ []) (rest : SystemText) :
    isAbsolute (path ++ rest) = isAbsolute path := by
  obtain ⟨first, others, rfl⟩ := List.exists_cons_of_ne_nil h
  rfl

theorem IsName.filter_eq {name : SystemText} (h : IsName name) :
    [name].filter (fun step => step != [] && step != [point]) = [name] := by
  simp [h.ne_nil, h.ne_point]

/-- A name is the only component of its own. -/
theorem IsName.components_eq {name : SystemText} (h : IsName name) : components name = [name] := by
  have hRelative : isAbsolute name = false := by
    obtain ⟨first, rest, rfl⟩ := List.exists_cons_of_ne_nil h.ne_nil
    simpa [isAbsolute] using Ne.symm (List.ne_of_not_mem_cons h.slash_not_mem)
  have hSteps : steps name = [name] := by
    rw [steps, splitAtSlashes_of_not_mem h.slash_not_mem]
  rw [FilePath.components_eq, hRelative, hSteps]
  simp [kept, h.ne_nil, h.ne_point]

/-- Joining a name to a directory adds a component. -/
theorem components_join (directory : SystemText) {name : SystemText} (h : IsName name) :
    components (join directory name) = components directory ++ [name] := by
  by_cases hDirectory : directory = []
  · subst hDirectory
    exact h.components_eq
  have hAppend (path : SystemText) : kept (isAbsolute directory) (steps (path ++ slash :: name)) =
      kept (isAbsolute directory) (steps path) ++ [name] := by
    rw [steps_append path h.slash_not_mem, kept_append (steps_ne_nil path), h.filter_eq]
  unfold join
  split
  · -- the directory ends in a slash already, after which it has an empty step
    rename_i hSlash
    have hEnds : directory.getLast? = some slash := by simpa [hDirectory] using hSlash
    obtain ⟨path, rfl⟩ := List.getLast?_eq_some_iff.mp hEnds
    have hEmpty : steps (path ++ [slash]) = steps path ++ [[]] := steps_append path (by simp)
    rw [components_eq, isAbsolute_append hDirectory, List.append_assoc, List.singleton_append,
      hAppend, components_eq, hEmpty, kept_append (steps_ne_nil path)]
    simp
  · rw [components_eq, isAbsolute_append hDirectory, hAppend, components_eq]

/-- The components of a path in a walk. -/
theorem components_foldl_join (directory : SystemText) {names : List SystemText}
    (h : ∀ name ∈ names, IsName name) :
    components (names.foldl join directory) = components directory ++ names := by
  induction names generalizing directory with
  | nil => exact (List.append_nil _).symm
  | cons name rest ih =>
    obtain ⟨hName, hRest⟩ := List.forall_mem_cons.mp h
    rw [List.foldl_cons, ih _ hRest, components_join directory hName, List.append_assoc]
    rfl

theorem relativeTo_append (root names : List SystemText) :
    relativeTo root (root ++ names) = names := by
  have hPrefix : root.isPrefixOf (root ++ names) = true :=
    List.isPrefixOf_iff_prefix.mpr (List.prefix_append root names)
  rw [relativeTo, if_pos hPrefix, List.drop_left]

theorem modulePath_foldl_join (directory : SystemText) {names : List SystemText}
    (h : ∀ name ∈ names, IsName name) (crate : String) :
    modulePath directory (names.foldl join directory) crate =
      QualifiedName.ofSegments (crateSegment crate :: fileModule names) := by
  unfold modulePath
  rw [components_foldl_join directory h, relativeTo_append]

/-! ## Source files -/

/-- The name of a source file, from its stem. -/
def source (stem : SystemText) : SystemText :=
  stem ++ SystemText.ofString ".rs"

theorem text_source (stem : SystemText) : (source stem).text = stem.text ++ ".rs" := by
  rw [source, SystemText.text_append, SystemText.text_ofString]

theorem source_ofString (stem : String) : source stem = SystemText.ofString (stem ++ ".rs") :=
  (SystemText.ofString_append stem ".rs").symm

theorem splitName_source {stem : SystemText} (h : stem ≠ []) :
    splitName (source stem) = (stem, some (SystemText.ofString "rs")) := by
  have hReverse : (source stem).reverse = .char 's' :: .char 'r' :: point :: stem.reverse := by
    rw [source, List.reverse_append]
    rfl
  unfold splitName
  rw [hReverse]
  simp [h, point, SystemText.ofString]

/-- A file is a source file just if its name is a stem with the extension. -/
theorem exists_of_splitName {name : SystemText}
    (h : (splitName name).2 = some (SystemText.ofString "rs")) :
    ∃ stem, stem ≠ [] ∧ name = source stem := by
  unfold splitName at h
  dsimp only at h
  split at h
  · cases h
  · rename_i unit stem hDrop
    split at h
    · cases h
    · rename_i hStem
      -- the name is read from its end, so the first point that is met is the last one
      have hPoint : unit = point := by
        have hHead := List.head?_dropWhile_not (· != point) name.reverse
        rw [hDrop] at hHead
        simpa using hHead
      have hWhole := List.takeWhile_append_dropWhile (p := (· != point)) (l := name.reverse)
      refine ⟨stem.reverse, by simpa using hStem, ?_⟩
      rw [hDrop, hPoint] at hWhole
      rw [← List.reverse_reverse name, ← hWhole, List.reverse_append, Option.some.inj h,
        List.reverse_cons, List.append_assoc]
      rfl

/-- Whether some names lead to a source file. -/
def IsSource (names : List SystemText) : Prop :=
  ∃ (directory : List SystemText) (stem : SystemText),
    stem ≠ [] ∧ names = directory ++ [source stem]

/-- In a walk, the source files are told by the extensions of their paths. -/
theorem extension?_foldl_join_iff (directory : SystemText) {names : List SystemText}
    (hNames : ∀ name ∈ names, IsName name) (hSome : names ≠ []) :
    extension? (names.foldl join directory) = some (SystemText.ofString "rs") ↔
      IsSource names := by
  obtain ⟨above, last, rfl⟩ : ∃ above last, names = above ++ [last] :=
    ⟨_, _, (List.dropLast_concat_getLast hSome).symm⟩
  have hLast : IsName last := hNames last (by simp)
  have hFile : fileName? (components directory ++ (above ++ [last])) = some last := by
    have hSlash : last ≠ [slash] := fun hEq => hLast.slash_not_mem (hEq ▸ List.mem_singleton_self _)
    rw [← List.append_assoc, fileName?, List.getLast?_concat]
    simp [hSlash, hLast.ne_point, hLast.ne_points]
  rw [extension?, components_foldl_join directory hNames, hFile, Option.bind_some]
  constructor
  · intro h
    obtain ⟨stem, hStem, rfl⟩ := exists_of_splitName h
    exact ⟨above, stem, hStem, rfl⟩
  · rintro ⟨directory, stem, hStem, hEq⟩
    obtain ⟨-, hName⟩ := List.append_inj' hEq rfl
    rw [(List.cons.inj hName).1, splitName_source hStem]

/-- The segment that a stem gives its module, from their texts. -/
def stemSegment (stem : String) : String :=
  if stem = "." then ".." else stem

theorem text_withoutPoint (stem : SystemText) :
    SystemText.text (if stem == [point] then [point, point] else stem) = stemSegment stem.text := by
  have hPoint : stem.text = "." ↔ stem = [point] := SystemText.text_eq_iff (by decide)
  unfold stemSegment
  split
  · rename_i hStem
    rw [if_pos (hPoint.mpr (beq_iff_eq.mp hStem))]
    rfl
  · rename_i hStem
    rw [if_neg fun hText => hStem (beq_iff_eq.mpr (hPoint.mp hText))]

theorem fileModule_source (directory : List SystemText) {stem : SystemText} (h : stem ≠ []) :
    fileModule (directory ++ [source stem]) =
      if stemSegment stem.text ∈ directoryStems then directory.map SystemText.text
      else directory.map SystemText.text ++ [stemSegment stem.text] := by
  -- the extension keeps the name apart from a root and from points
  have hLast : (source stem).getLast? = some (.char 's') := by
    rw [source, List.getLast?_append]
    rfl
  have hNone : ∀ name ∈ [[slash], [point], [point, point]],
      name.getLast? ≠ some (SystemUnit.char 's') := by
    decide
  have hOther : ∀ name ∈ [[slash], [point], [point, point]], source stem ≠ name :=
    fun name hName hEq => hNone name hName (hEq ▸ hLast)
  have hFile : fileName? (directory ++ [source stem]) = some (source stem) := by
    simp only [List.forall_mem_cons] at hOther
    simp [fileName?, hOther]
  have hParts : (withoutExtension (directory ++ [source stem])).map SystemText.text =
      directory.map SystemText.text ++ [stemSegment stem.text] := by
    unfold withoutExtension
    rw [hFile]
    dsimp only
    rw [splitName_source h, List.dropLast_concat, List.map_append, List.map_singleton,
      text_withoutPoint]
  unfold fileModule
  rw [hParts]
  simp

/-! ## Modules from texts -/

/-- The segments of the module of a file whose names have the given texts. -/
def textModule (names : List String) : List String :=
  fileModule (names.map SystemText.ofString)

theorem textModule_source (directory : List String) {stem : String} (h : stem ≠ "") :
    textModule (directory ++ [stem ++ ".rs"]) =
      if stemSegment stem ∈ directoryStems then directory
      else directory ++ [stemSegment stem] := by
  have hStem : SystemText.ofString stem ≠ [] := fun hNil =>
    h (String.toList_eq_nil_iff.mp (List.map_eq_nil_iff.mp hNil))
  rw [textModule, List.map_append, List.map_singleton, ← source_ofString,
    fileModule_source _ hStem, SystemText.text_ofString, List.map_map]
  simp [Function.comp_def]

/-- The module of a source file depends on the texts of its names. -/
theorem fileModule_eq_textModule {names : List SystemText} (h : IsSource names) :
    fileModule names = textModule (names.map SystemText.text) := by
  obtain ⟨directory, stem, hStem, rfl⟩ := h
  have hText : stem.text ≠ "" := fun hEmpty =>
    hStem ((SystemText.text_eq_iff (by decide)).mp hEmpty)
  rw [fileModule_source directory hStem, List.map_append, List.map_singleton, text_source,
    textModule_source _ hText]

/-- Two files that stand for the same module, as texts of the names below the source directory. -/
inductive SameModule : List String → List String → Prop
  /-- Both name the module by their directory. -/
  | directory {directory : List String} {stem stem' : String} : stem ∈ directoryStems →
      stem' ∈ directoryStems →
      SameModule (directory ++ [stem ++ ".rs"]) (directory ++ [stem' ++ ".rs"])
  /-- One is next to a directory, and the other names the module by that directory. -/
  | nested {directory : List String} {name stem : String} : name ∉ directoryStems →
      stem ∈ directoryStems →
      SameModule (directory ++ [name ++ ".rs"]) (directory ++ [name, stem ++ ".rs"])
  /-- One has a point for its stem, which counts as two. -/
  | points {directory : List String} :
      SameModule (directory ++ ["..rs"]) (directory ++ ["...rs"])

theorem stemSegment_eq {stem : String} (h : stem ≠ ".") : stemSegment stem = stem :=
  if_neg h

theorem ne_point_of_mem {stem : String} (h : stem ∈ directoryStems) : stem ≠ "" ∧ stem ≠ "." := by
  constructor <;> (rintro rfl; revert h; decide)

/-- A file that names its directory has that directory's module. -/
theorem textModule_of_mem (directory : List String) {stem : String} (h : stem ∈ directoryStems) :
    textModule (directory ++ [stem ++ ".rs"]) = directory := by
  obtain ⟨hSome, hPoint⟩ := ne_point_of_mem h
  rw [textModule_source directory hSome, stemSegment_eq hPoint, if_pos h]

/-- Every other file has a module of its own name. -/
theorem textModule_of_not_mem (directory : List String) {stem : String} (hSome : stem ≠ "")
    (h : stem ∉ directoryStems) :
    textModule (directory ++ [stem ++ ".rs"]) = directory ++ [stemSegment stem] := by
  rw [textModule_source directory hSome, if_neg]
  unfold stemSegment
  split
  · decide
  · exact h

/-- What the text of a name can be. -/
structure IsNameText (text : String) : Prop where
  ne_empty : text ≠ ""
  ne_point : text ≠ "."
  ne_points : text ≠ ".."

theorem IsName.text {name : SystemText} (h : IsName name) : IsNameText name.text where
  ne_empty := fun hText => h.ne_nil ((SystemText.text_eq_iff (by decide)).mp hText)
  ne_point := fun hText => h.ne_point ((SystemText.text_eq_iff (by decide)).mp hText)
  ne_points := fun hText => h.ne_points ((SystemText.text_eq_iff (by decide)).mp hText)

theorem isNameText_of_mem_map {names : List SystemText} (h : ∀ name ∈ names, IsName name) :
    ∀ text ∈ names.map SystemText.text, IsNameText text :=
  List.forall_mem_map.mpr fun name hName => (h name hName).text

theorem SameModule.textModule_eq {names names' : List String} (h : SameModule names names')
    (hProper : ∀ name ∈ names', IsNameText name) : textModule names = textModule names' := by
  cases h with
  | directory hStem hStem' => rw [textModule_of_mem _ hStem, textModule_of_mem _ hStem']
  | @nested directory name stem hName hStem =>
    have hProper := hProper name (by simp)
    have hSplit : directory ++ [name, stem ++ ".rs"] = directory ++ [name] ++ [stem ++ ".rs"] := by
      simp
    rw [hSplit, textModule_of_mem _ hStem, textModule_of_not_mem _ hProper.ne_empty hName,
      stemSegment_eq hProper.ne_point]
  | @points directory =>
    exact (textModule_of_not_mem directory (by decide : "." ≠ "") (by decide)).trans
      (textModule_of_not_mem directory (by decide : ".." ≠ "") (by decide)).symm

/-- If one file names its directory and another has that directory's name, they are a pair. -/
theorem sameModule_of_nested {directory above : List String} {stem stem' : String}
    (hStem : stem ∈ directoryStems) (hStem' : stem' ∉ directoryStems)
    (hProper : ∀ name ∈ directory, IsNameText name) (h : directory = above ++ [stemSegment stem']) :
    SameModule (above ++ [stem' ++ ".rs"]) (directory ++ [stem ++ ".rs"]) := by
  have hName := hProper (stemSegment stem') (h ▸ by simp)
  have hSegment : stemSegment stem' = stem' := by
    refine stemSegment_eq ?_
    rintro rfl
    exact hName.ne_points rfl
  rw [h, hSegment, List.append_assoc]
  exact .nested hStem' hStem

/-- Whether two files hold one module, by the texts of their names. -/
def OneModule (names names' : List String) : Prop :=
  names = names' ∨ SameModule names names' ∨ SameModule names' names

/-- Two stems in one directory that stand for no directory have one segment if they are the same,
or a point and two points. -/
theorem oneModule_of_stemSegment_eq (directory : List String) {stem stem' : String}
    (h : stemSegment stem = stemSegment stem') :
    OneModule (directory ++ [stem ++ ".rs"]) (directory ++ [stem' ++ ".rs"]) := by
  unfold stemSegment at h
  split at h
  · rename_i hPoint
    subst hPoint
    split at h
    · rename_i hPoint'
      exact .inl (by rw [hPoint'])
    · exact .inr (.inl (h ▸ .points))
  · split at h
    · rename_i hPoint'
      exact .inr (.inr (by rw [hPoint', h]; exact .points))
    · exact .inl (by rw [h])

theorem oneModule_of_textModule_eq {directory directory' : List String} {stem stem' : String}
    (hSome : stem ≠ "") (hSome' : stem' ≠ "") (hProper : ∀ name ∈ directory, IsNameText name)
    (hProper' : ∀ name ∈ directory', IsNameText name)
    (h : textModule (directory ++ [stem ++ ".rs"]) = textModule (directory' ++ [stem' ++ ".rs"])) :
    OneModule (directory ++ [stem ++ ".rs"]) (directory' ++ [stem' ++ ".rs"]) := by
  by_cases hStem : stem ∈ directoryStems
  · rw [textModule_of_mem _ hStem] at h
    by_cases hStem' : stem' ∈ directoryStems
    · rw [textModule_of_mem _ hStem'] at h
      exact .inr (.inl (h ▸ .directory hStem hStem'))
    · rw [textModule_of_not_mem _ hSome' hStem'] at h
      exact .inr (.inr (sameModule_of_nested hStem hStem' hProper h))
  · rw [textModule_of_not_mem _ hSome hStem] at h
    by_cases hStem' : stem' ∈ directoryStems
    · rw [textModule_of_mem _ hStem'] at h
      exact .inr (.inl (sameModule_of_nested hStem' hStem hProper' h.symm))
    · rw [textModule_of_not_mem _ hSome' hStem'] at h
      obtain ⟨rfl, hSegments⟩ := List.append_inj' h rfl
      exact oneModule_of_stemSegment_eq directory (List.cons.inj hSegments).1

/-- The texts of the names of a source file. -/
theorem IsSource.texts {names : List SystemText} (h : IsSource names) :
    ∃ directory stem, stem ≠ "" ∧ names.map SystemText.text = directory ++ [stem ++ ".rs"] := by
  obtain ⟨directory, stem, hSome, rfl⟩ := h
  refine ⟨directory.map SystemText.text, stem.text, ?_, ?_⟩
  · exact fun hEmpty => hSome ((SystemText.text_eq_iff (by decide)).mp hEmpty)
  · rw [List.map_append, List.map_singleton, text_source]

/-- The files that hold one module have the same texts, or name it in one of the ways above. -/
theorem fileModule_eq_iff {names names' : List SystemText} (hNames : IsSource names)
    (hNames' : IsSource names') (hProper : ∀ name ∈ names, IsName name)
    (hProper' : ∀ name ∈ names', IsName name) :
    fileModule names = fileModule names' ↔
      OneModule (names.map SystemText.text) (names'.map SystemText.text) := by
  rw [fileModule_eq_textModule hNames, fileModule_eq_textModule hNames']
  have hTexts := isNameText_of_mem_map hProper
  have hTexts' := isNameText_of_mem_map hProper'
  constructor
  · obtain ⟨directory, stem, hSome, hEq⟩ := hNames.texts
    obtain ⟨directory', stem', hSome', hEq'⟩ := hNames'.texts
    rw [hEq] at hTexts
    rw [hEq'] at hTexts'
    rw [hEq, hEq']
    exact oneModule_of_textModule_eq hSome hSome' (List.forall_mem_append.mp hTexts).1
      (List.forall_mem_append.mp hTexts').1
  · rintro (h | h | h)
    · rw [h]
    · exact h.textModule_eq hTexts'
    · exact (h.textModule_eq hTexts).symm

-- the texts of two names can agree
example : fileModule [.stray [0xFE] :: source []] = fileModule [.stray [0xFF] :: source []] := by
  decide

/-! ## The names of modules -/

/-- The module of a source file has segments for its own if the names have no colon. -/
theorem fileModule_isSegment {names : List SystemText} (h : IsSource names)
    (hProper : ∀ name ∈ names, IsName name) (hColon : ∀ name ∈ names, ':' ∉ name.text.toList) :
    ∀ segment ∈ fileModule names, QualifiedName.IsSegment segment := by
  rw [fileModule_eq_textModule h]
  obtain ⟨directory, stem, hSome, hEq⟩ := h.texts
  have hTexts := isNameText_of_mem_map hProper
  have hColons : ∀ text ∈ names.map SystemText.text, ':' ∉ text.toList :=
    List.forall_mem_map.mpr hColon
  rw [hEq] at hTexts hColons ⊢
  have hDirectory : ∀ segment ∈ directory, QualifiedName.IsSegment segment := fun segment hMem =>
    ⟨(hTexts segment (List.mem_append_left _ hMem)).ne_empty,
      hColons segment (List.mem_append_left _ hMem)⟩
  by_cases hStem : stem ∈ directoryStems
  · rwa [textModule_of_mem _ hStem]
  · rw [textModule_of_not_mem _ hSome hStem]
    refine List.forall_mem_append.mpr ⟨hDirectory, List.forall_mem_singleton.mpr ?_⟩
    unfold stemSegment
    split
    · decide
    · refine ⟨hSome, fun hMem => hColons (stem ++ ".rs") (by simp) ?_⟩
      rw [String.toList_append]
      exact List.mem_append_left _ hMem

/-- The segments of a name are those of its join, even if it starts with an empty text. -/
theorem segments_ofSegments_cons (text : String) {segments : List String}
    (h : ∀ segment ∈ segments, QualifiedName.IsSegment segment) :
    QualifiedName.segments (QualifiedName.ofSegments (text :: segments)) =
      QualifiedName.segments (QualifiedName.separator.intercalate (text :: segments)) := by
  by_cases hText : text = ""
  · subst hText
    have hRest : QualifiedName.ofSegments ("" :: segments) =
        QualifiedName.separator.intercalate segments :=
      QualifiedName.ofSegments_eq fun segment hSegment => (h segment hSegment).1
    rw [hRest]
    cases segments with
    | nil => rfl
    | cons first rest =>
      rw [QualifiedName.segments_eq_parts, QualifiedName.segments_eq_parts,
        QualifiedName.toList_intercalate_cons]
      rfl
  · rw [QualifiedName.ofSegments_eq]
    exact List.forall_mem_cons.mpr ⟨hText, fun segment hSegment => (h segment hSegment).1⟩

/-- The name of a module tells the part of the path that is below the crate, whatever the name of
the crate is. -/
theorem fileModule_eq_of_modulePath {directory : SystemText} {crate : String}
    {names names' : List SystemText} (hSource : IsSource names) (hSource' : IsSource names')
    (hProper : ∀ name ∈ names, IsName name) (hProper' : ∀ name ∈ names', IsName name)
    (hColon : ∀ name ∈ names, ':' ∉ name.text.toList)
    (hColon' : ∀ name ∈ names', ':' ∉ name.text.toList)
    (h : QualifiedName.ofSegments (QualifiedName.segments
        (modulePath directory (names.foldl join directory) crate)) =
      QualifiedName.ofSegments (QualifiedName.segments
        (modulePath directory (names'.foldl join directory) crate))) :
    fileModule names = fileModule names' := by
  have hSegments := fileModule_isSegment hSource hProper hColon
  have hSegments' := fileModule_isSegment hSource' hProper' hColon'
  rw [modulePath_foldl_join directory hProper, modulePath_foldl_join directory hProper',
    segments_ofSegments_cons _ hSegments, segments_ofSegments_cons _ hSegments'] at h
  exact QualifiedName.ofSegments_segments_injective hSegments hSegments' h

-- a name with colons would count as several segments
example : modulePath "src" "src/a::b.rs" "app" = modulePath "src" "src/a/b.rs" "app" := by
  decide

end FilePath

end Ambient
