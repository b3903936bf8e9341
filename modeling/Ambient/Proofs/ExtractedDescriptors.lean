import Ambient.Proofs.Denotation
import Ambient.Proofs.FieldType

/-!
# Extracted descriptors are understood

The extraction writes descriptors and the conversion reads them.  The two meet at `Denotes`: what
the extraction writes for a type denotes something (`denotes_typeDescriptor`), and a descriptor that
denotes a type is converted to that type and no other (`Denotes.reads`).  So no type is lost between
the two, however deeply its parts are nested (`extracted_understood`).
-/

namespace Ambient

open Descriptor Text

/-! ## What the extraction writes -/

namespace Extraction

open Source

/-- Whether a path may be written in a type: it stands for the own class or for a type that is known
by its structure, or it resolves to a path of two or more identifiers. -/
def Module.Leads (module : Module) (qualifiers : List Ident) (last : Ident) : Prop :=
  spellings qualifiers last = ["Self"] ∨
    (module.Knows (spellings qualifiers last) ∧ (structure? last.spelling).isSome) ∨
    (2 ≤ (module.resolve (spellings qualifiers last)).length ∧
      ∀ segment ∈ module.resolve (spellings qualifiers last),
        Spelling.isIdentifier segment.toList = true)

mutual

/-- Whether every path in a type, at any depth, leads to a type. -/
def Written (module : Module) : TypeExpr → Prop
  | .path qualifiers last arguments => module.Leads qualifiers last ∧ WrittenAll module arguments
  | .reference target => Written module target
  | .slice element => Written module element
  | .array element => Written module element
  | .parenthesized inner => Written module inner
  | .unit => True
  | .bound => True
  | .other => True

def WrittenAll (module : Module) : List TypeExpr → Prop
  | [] => True
  | type :: rest => Written module type ∧ WrittenAll module rest

end

section Denotes

variable {module : Module} {registry : Registry} {owner descriptor : String}

/-- A descriptor that denotes a type is made nullable with a mark, unless it lets `null` in. -/
theorem denotes_nullable {type : TsType} (h : Denotes registry owner descriptor type) :
    ∃ type, Denotes registry owner (nullable descriptor) type := by
  have hParts : parts '|' descriptor.toList = [descriptor.toList] := h.solid.parts_eq (.inl rfl)
  unfold nullable
  simp only [hParts, List.any_cons, List.any_nil, Bool.or_false]
  split
  · exact ⟨type, h⟩
  · rename_i hNull
    rw [if_neg (by simp)]
    refine ⟨_, .nullable h fun hMark => hNull ?_⟩
    rw [admitsNull, hMark]
    rfl

theorem structure?_fixed {name : String} (h : structure? name = some (.fixed descriptor)) :
    ∃ keyword, (descriptor, keyword) ∈ scalarWords := by
  unfold structure? at h
  split_ifs at h <;> cases h <;> simp [scalarWords]

/-- A type that is known by its structure is described by what its arguments denote. -/
theorem denotes_apply {name : String} {structural : Structure}
    (hStructure : structure? name = some structural) {arguments : List (Option String)}
    (hArguments : ∀ inner, some inner ∈ arguments → ∃ type, Denotes registry owner inner type)
    (h : structural.apply arguments = some descriptor) :
    ∃ type, Denotes registry owner descriptor type := by
  -- a structure looks its arguments up by place, and some places may be missing
  have hArgument : ∀ (place : Nat) (inner : String), arguments[place]?.join = some inner →
      ∃ type, Denotes registry owner inner type := by
    intro place inner hPlace
    exact hArguments inner (List.mem_of_getElem? (Option.join_eq_some_iff.mp hPlace))
  cases structural with
  | fixed word =>
    obtain rfl : word = descriptor := Option.some.inj h
    obtain ⟨keyword, hKeyword⟩ := structure?_fixed hStructure
    exact ⟨_, .scalar hKeyword⟩
  | optional =>
    obtain ⟨inner, hInner, rfl⟩ := Option.map_eq_some_iff.mp h
    obtain ⟨type, hType⟩ := hArgument 0 inner hInner
    exact denotes_nullable hType
  | sequence =>
    obtain ⟨inner, hInner, rfl⟩ := Option.map_eq_some_iff.mp h
    obtain ⟨type, hType⟩ := hArgument 0 inner hInner
    exact ⟨_, .list hType⟩
  | mapping =>
    obtain ⟨inner, hInner, rfl⟩ := Option.map_eq_some_iff.mp h
    obtain ⟨type, hType⟩ := hArgument 1 inner hInner
    exact ⟨_, .map hType⟩
  | pointer => exact hArgument 0 descriptor h

theorem denotes_path {qualifiers : List Ident} {last : Ident}
    (hLeads : module.Leads qualifiers last) {arguments : List (Option String)}
    (hArguments : ∀ inner, some inner ∈ arguments → ∃ type, Denotes registry owner inner type)
    (h : pathDescriptor module (spellings qualifiers last) last.spelling arguments =
      some descriptor) : ∃ type, Denotes registry owner descriptor type := by
  rcases hLeads with hOwn | ⟨hKnown, hStructure⟩ | ⟨hLength, hSegments⟩
  · rw [hOwn] at h
    obtain rfl : "self" = descriptor := Option.some.inj h
    exact ⟨_, .ownClass⟩
  · obtain ⟨structural, hStructure⟩ := Option.isSome_iff_exists.mp hStructure
    rw [pathDescriptor_structural hKnown hStructure] at h
    exact denotes_apply hStructure hArguments h
  · -- a longer path can be that of a structural type all the same
    unfold pathDescriptor at h
    dsimp only at h
    split at h
    · obtain rfl : "self" = descriptor := Option.some.inj h
      exact ⟨_, .ownClass⟩
    · split at h
      · obtain rfl : "mixed" = descriptor := Option.some.inj h
        exact ⟨_, .scalar (by decide : ("mixed", Scalar.any) ∈ scalarWords)⟩
      · split at h
        · rename_i structural hStructure
          split at hStructure
          · exact denotes_apply hStructure hArguments h
          · cases hStructure
        · obtain rfl := Option.some.inj h
          exact ⟨_, .path hLength hSegments⟩

end Denotes

mutual

/-- What the extraction writes for a type denotes something. -/
theorem denotes_typeDescriptor {module : Module} {registry : Registry} {owner descriptor : String}
    (type : TypeExpr) (hWritten : Written module type)
    (h : typeDescriptor module type = some descriptor) :
    ∃ type, Denotes registry owner descriptor type := by
  -- references and parentheses are passed through, slices and arrays are both lists
  cases type with
  | path qualifiers last arguments =>
    rw [Written] at hWritten
    rw [typeDescriptor] at h
    exact denotes_path hWritten.1
      (fun inner hInner => denotes_argumentDescriptors arguments hWritten.2 hInner) h
  | reference target =>
    rw [Written] at hWritten
    rw [typeDescriptor] at h
    exact denotes_typeDescriptor target hWritten h
  | slice element =>
    rw [Written] at hWritten
    rw [typeDescriptor] at h
    obtain ⟨inner, hInner, rfl⟩ := Option.map_eq_some_iff.mp h
    obtain ⟨type, hType⟩ := denotes_typeDescriptor element hWritten hInner
    exact ⟨_, .list hType⟩
  | array element =>
    rw [Written] at hWritten
    rw [typeDescriptor] at h
    obtain ⟨inner, hInner, rfl⟩ := Option.map_eq_some_iff.mp h
    obtain ⟨type, hType⟩ := denotes_typeDescriptor element hWritten hInner
    exact ⟨_, .list hType⟩
  | parenthesized inner =>
    rw [Written] at hWritten
    rw [typeDescriptor] at h
    exact denotes_typeDescriptor inner hWritten h
  | unit =>
    rw [typeDescriptor] at h
    obtain rfl := Option.some.inj h
    exact ⟨_, .scalar (by decide : ("null", Scalar.null) ∈ scalarWords)⟩
  | bound =>
    rw [typeDescriptor] at h
    cases h
  | other =>
    rw [typeDescriptor] at h
    cases h

theorem denotes_argumentDescriptors {module : Module} {registry : Registry}
    {owner descriptor : String} (arguments : List TypeExpr)
    (hWritten : WrittenAll module arguments)
    (h : some descriptor ∈ argumentDescriptors module arguments) :
    ∃ type, Denotes registry owner descriptor type := by
  match arguments with
  | [] => cases h
  | first :: rest =>
    rw [WrittenAll] at hWritten
    -- an array stands for its element here, which has been written in the same way
    have hFirst : ∃ inner?, argumentDescriptors module (first :: rest) =
        inner? :: argumentDescriptors module rest ∧
          (inner? = some descriptor → ∃ type, Denotes registry owner descriptor type) := by
      cases first with
      | array element =>
        have hElement := hWritten.1
        rw [Written] at hElement
        exact ⟨_, argumentDescriptors_array module element rest,
          denotes_typeDescriptor element hElement⟩
      | _ => exact ⟨_, argumentDescriptors_cons rfl rest, denotes_typeDescriptor _ hWritten.1⟩
    obtain ⟨inner?, hArguments, hInner⟩ := hFirst
    rw [hArguments] at h
    rcases List.mem_cons.mp h with hHead | hTail
    · exact hInner hHead.symm
    · exact denotes_argumentDescriptors rest hWritten.2 hTail

end

/-! ### Paths of identifiers -/

namespace Module

theorem mem_ascend {base segments : List String} {segment : String}
    (h : segment ∈ ascend base segments) : segment ∈ base ∨ segment ∈ segments := by
  induction base, segments using ascend.induct with
  | case1 base rest ih =>
    rw [ascend] at h
    exact (ih h).imp (List.dropLast_subset _ ·) (.tail _ ·)
  | case2 base segments hOther =>
    rw [ascend] at h
    · exact List.mem_append.mp h
    · exact hOther

theorem mem_absolute {path segments : List String} {segment : String}
    (h : segment ∈ absolute path segments) : segment ∈ path ∨ segment ∈ segments := by
  unfold absolute at h
  split at h
  · exact (mem_ascend h).imp (List.mem_of_mem_take ·) (.tail _ ·)
  · exact (mem_ascend h).imp_right (.tail _ ·)
  · exact mem_ascend h
  · exact .inr h

/-- What a path resolves to is made of its own segments, those of the module and those of its
imports. -/
theorem mem_resolve {module : Module} {segments : List String} {segment : String}
    (h : segment ∈ module.resolve segments) :
    segment ∈ module.path ∨ segment ∈ segments ∨ ∃ entry ∈ module.imports, segment ∈ entry.2 := by
  -- a path is found among the imports, made absolute, or read below the module
  unfold resolve at h
  split at h
  · cases h
  · split at h
    · rename_i path hImport
      rcases List.mem_append.mp h with hPath | hRest
      · exact .inr (.inr ⟨_, Table.mem_of_find? hImport, hPath⟩)
      · exact .inr (.inl (.tail _ hRest))
    · split at h
      · exact (mem_absolute h).imp_right .inl
      · split at h
        · rcases List.mem_append.mp h with hPath | hFirst
          · exact .inl hPath
          · exact .inr (.inl (List.mem_singleton.mp hFirst ▸ List.mem_cons_self ..))
        · exact .inr (.inl h)

/-- A path of identifiers leads to a class if it resolves to two or more segments, in a module whose
own path and imports are made of identifiers as well. -/
theorem leads_of_isIdentifier {module : Module} {qualifiers : List Ident} {last : Ident}
    (hPath : ∀ segment ∈ module.path, Spelling.isIdentifier segment.toList = true)
    (hImports : ∀ entry ∈ module.imports, ∀ segment ∈ entry.2,
      Spelling.isIdentifier segment.toList = true)
    (hWritten : ∀ ident ∈ qualifiers ++ [last],
      ident.raw = false ∧ Spelling.isIdentifier ident.name.toList = true)
    (hLength : 2 ≤ (module.resolve (spellings qualifiers last)).length) :
    module.Leads qualifiers last := by
  refine .inr (.inr ⟨hLength, fun segment hSegment => ?_⟩)
  rcases mem_resolve hSegment with hModule | hOwn | ⟨entry, hEntry, hImport⟩
  · exact hPath segment hModule
  · obtain ⟨ident, hIdent, rfl⟩ := List.mem_map.mp hOwn
    obtain ⟨hRaw, hIdentifier⟩ := hWritten ident hIdent
    rwa [Ident.spelling, hRaw]
  · exact hImports entry hEntry segment hImport

end Module

end Extraction

/-! ## Both halves -/

namespace World

open Extraction Source

/-- Without documentation the declared type counts. -/
theorem choose_undocumented (declared : Option String) :
    choose declared none = trim (declared.getD "").toList := by
  unfold choose
  exact if_pos rfl

/-- The descriptor that is extracted for a type is converted to the one type that it denotes.  This
holds in every class of a module with a path of identifiers, whatever the registry, for properties
without markers and documentation, and if nothing is replaced. -/
theorem extracted_understood (world : World) (path : List String)
    (hReplacements : world.replacements = []) (module : Module) (hSome : module.path ≠ [])
    (hPath : ∀ segment ∈ module.path, Spelling.isIdentifier segment.toList = true)
    (type : TypeExpr) (hWritten : Written module type) (descriptor : String)
    (hType : typeDescriptor module type = some descriptor)
    (owner : Class) (name : String) (hName : name ≠ "" ∧ ∀ c ∈ name.toList, continuesName c = true)
    (hOwner : owner.name = module.qualify name) (property : Property)
    (hMarkers : property.markers = []) (hDocumented : property.documented = none)
    (hDeclared : property.declared = some descriptor) :
    ∃ text type, resolve property owner = .ok text ∧
      (world.convertWithin path (some ⟨property, owner⟩) (String.ofList text)).outcome = .ok type ∧
      ∀ other, Denotes world.registry owner.name descriptor other ↔ other = type := by
  -- the name has a colon, as there is a segment of the module before that of the class
  have hClass : IsClassName owner.name.toList := by
    rw [hOwner, Module.qualify]
    refine isClassName_ofSegments ?_ fun segment hSegment => ?_
    · have hLength := List.length_pos_of_ne_nil hSome
      rw [List.length_append]
      exact Nat.succ_le_succ hLength
    · rcases List.mem_append.mp hSegment with hModule | hLast
      · exact plain_of_isIdentifier (hPath segment hModule)
      · obtain rfl := List.mem_singleton.mp hLast
        exact ⟨hName.1, plain_of_continuesName hName.2⟩
  have hReading := world.undisturbed path hReplacements property owner hMarkers
  obtain ⟨type, hDenotes⟩ := @denotes_typeDescriptor module world.registry owner.name descriptor
    type hWritten hType
  obtain ⟨text, hText, hReads, -⟩ := hDenotes.reads hClass owner.parent hReading
  have hChoose : choose property.declared property.documented = descriptor.toList := by
    rw [hDeclared, hDocumented, choose_undocumented]
    exact hDenotes.solid.trim_eq
  refine ⟨text, type, resolve_ok_iff.mpr (hChoose ▸ hText), ?_, fun other => ⟨fun hOther => ?_, ?_⟩⟩
  · rw [convertWithin, String.toList_ofList]
    exact hReads.convert
  · -- what a descriptor denotes is what it is converted to
    obtain ⟨text', hText', hReads', -⟩ := hOther.reads hClass owner.parent hReading
    obtain rfl : text = text' := Option.some.inj (hText.symm.trans hText')
    exact Except.ok.inj (hReads'.outcome.symm.trans hReads.outcome)
  · rintro rfl
    exact hDenotes

/-- The type `HashMap<Id, Option<Vec<Self>>>`. -/
def childrenById : TypeExpr :=
  .path [] (plain "HashMap") [.path [] (plain "Id") [],
    .path [] (plain "Option") [.path [] (plain "Vec") [.path [] (plain "Self") []]]]

theorem childrenById_written : Written importing childrenById := by
  have hId : importing.Leads [] (plain "Id") :=
    Module.leads_of_isIdentifier (by decide) (by decide) (by decide) (by decide)
  have hSelf : importing.Leads [] (plain "Self") := .inl rfl
  simp only [childrenById, Written, WrittenAll, and_true]
  exact ⟨.inr (.inl ⟨importing_knows_hashMap, by decide⟩), hId,
    .inr (.inl ⟨importing_knows_option, by decide⟩), .inr (.inl ⟨importing_knows_vec, by decide⟩),
    hSelf⟩

/-- A property with the type `childrenById`. -/
def children : Property where
  name := "children"
  declared := some "array<string, ?list<self>>"

def node : Class where
  name := "app::Node"
  shape := .record [children]

def forest : World := { registry := [("app::Node", node)], replacements := [] }

theorem children_understood :
    typeDescriptor importing childrenById = some "array<string, ?list<self>>" ∧
    ∃ text, resolve children node = .ok text ∧
      (forest.convertWithin [] (some ⟨children, node⟩) (String.ofList text)).outcome =
        .ok (.container .stringMap
          (.union [.container .list (.reference "app::Node"), .null])) := by
  have hType : typeDescriptor importing childrenById = some "array<string, ?list<self>>" := by
    decide +kernel
  have hDenotes : Denotes forest.registry "app::Node" "array<string, ?list<self>>"
      (.container .stringMap (.union [.container .list (.reference "app::Node"), .null])) :=
    .map (.nullable (.list .ownClass) (by decide))
  have hName : "Node" ≠ "" ∧ ∀ c ∈ "Node".toList, continuesName c = true :=
    ⟨by decide, List.all_eq_true.mp (by decide +kernel)⟩
  obtain ⟨text, type, hResolve, hConvert, hOnly⟩ := extracted_understood forest [] rfl importing
    (by decide) (by decide) childrenById childrenById_written _ hType node "Node" hName (by decide)
    children rfl rfl rfl
  exact ⟨hType, text, hResolve, (hOnly _).mp hDenotes ▸ hConvert⟩

end World

end Ambient
