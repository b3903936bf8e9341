import Ambient.Proofs.Indentation

/-!
# The lines of properties

Object types can be expanded in place at any depth, below unions and containers, and each of them
starts new lines one level deeper.  `Nested` tells how deep a property of a declaration lies.

* `Nested.exists_propertyLine`: the text of such a property stands behind whole lines, and it is the
  one that the property has in a declaration so much deeper.
* `exists_declaration`: the same for the declarations of a tree and the namespaces around them.
* `rendering_uniform_in_depth`: what depth does to the text of declarations and namespaces.
-/

namespace Ambient

open Text

/-! ## Properties below properties -/

namespace TsType

/-- The type has an object type with these properties expanded in place: the type itself, or one
below unions and containers. -/
inductive Holds : TsType → List (String × TsType) → Prop
  | record {properties : List (String × TsType)} : Holds (.inlineRecord properties) properties
  | member {type : TsType} {members : List TsType} {properties : List (String × TsType)}
      (hMember : type ∈ members) (hHolds : Holds type properties) :
      Holds (.union members) properties
  | element {kind : ContainerKind} {type : TsType} {properties : List (String × TsType)}
      (hHolds : Holds type properties) : Holds (.container kind type) properties

/-- Among these properties, or those of object types expanded in place for them, is one with this
name and type, below as many object types as `depth` says. -/
inductive Nested : List (String × TsType) → (depth : Nat) → String → TsType → Prop
  | here {properties : List (String × TsType)} {name : String} {type : TsType}
      (hProperty : (name, type) ∈ properties) : Nested properties 0 name type
  | inner {properties inner : List (String × TsType)} {depth : Nat} {around name : String}
      {outer type : TsType} (hAround : (around, outer) ∈ properties) (hHolds : Holds outer inner)
      (hInner : Nested inner depth name type) : Nested properties (depth + 1) name type

theorem Holds.texts_subset {type : TsType} {properties : List (String × TsType)}
    (h : type.Holds properties) : textsOfProperties properties ⊆ type.texts := by
  induction h with
  | record => exact List.Subset.refl _
  | member hMember hHolds ih => exact List.Subset.trans ih (texts_subset_textsOfMembers hMember)
  | element hHolds ih => exact ih

theorem mem_renderMembers {layout : Layout} {type : TsType} {members : List TsType}
    (h : type ∈ members) : type.renderMember layout ∈ renderMembers layout members := by
  induction members with
  | nil => cases h
  | cons first rest ih =>
    rw [renderMembers]
    rcases List.mem_cons.mp h with rfl | h
    · exact .head _
    · exact .tail _ (ih h)

theorem renderInline_eq (layout : Layout) (properties : List (String × TsType)) :
    renderInline layout properties = Declaration.body layout.deeper properties := by
  induction properties with
  | nil => rfl
  | cons entry rest ih =>
    have hIndentation : layout.deeper.indentation 1 = layout.indentation 2 := rfl
    rw [renderInline, ih, Declaration.body, Declaration.body, List.map_cons, String.join_cons,
      Declaration.propertyLine, render, hIndentation]
    simp only [String.append_assoc]

end TsType

theorem mem_distinct {texts : List String} {text : String} (h : text ∈ texts) :
    text ∈ distinct texts := by
  -- what has been seen stays, and what comes is kept unless it has been seen
  have hFold : ∀ (texts seen : List String), text ∈ seen ∨ text ∈ texts →
      text ∈ texts.foldl (fun seen text => if text ∈ seen then seen else seen ++ [text]) seen := by
    intro texts
    induction texts with
    | nil => exact fun seen hMem => hMem.resolve_right List.not_mem_nil
    | cons first rest ih =>
      intro seen hMem
      rw [List.foldl_cons]
      refine ih _ ?_
      split
      · rename_i hSeen
        rcases hMem with hMem | hMem
        · exact .inl hMem
        · rcases List.mem_cons.mp hMem with rfl | hRest
          · exact .inl hSeen
          · exact .inr hRest
      · rcases hMem with hMem | hMem
        · exact .inl (List.mem_append_left _ hMem)
        · rcases List.mem_cons.mp hMem with rfl | hRest
          · exact .inl (List.mem_append_right _ (.head _))
          · exact .inr hRest
  exact hFold texts [] (.inr h)

theorem exists_intercalate {separator : String} {texts : List String} {text : String}
    (h : text ∈ texts) :
    ∃ before after, separator.intercalate texts = before ++ text ++ after := by
  induction texts with
  | nil => cases h
  | cons first rest ih =>
    cases rest with
    | nil =>
      obtain rfl := List.mem_singleton.mp h
      exact ⟨"", "", by simp⟩
    | cons second others =>
      rw [String.intercalate_cons_cons]
      rcases List.mem_cons.mp h with rfl | h
      · exact ⟨"", separator ++ separator.intercalate (second :: others),
          by simp [String.append_assoc]⟩
      · obtain ⟨before, after, hRest⟩ := ih h
        exact ⟨first ++ separator ++ before, after, by simp only [hRest, String.append_assoc]⟩

namespace TsType

theorem exists_wrap (kind : ContainerKind) (element : String) :
    ∃ before after, wrap kind element = before ++ element ++ after := by
  cases kind with
  | list =>
    refine ⟨"", "[]", ?_⟩
    show element ++ "[]" = _
    rw [String.empty_append]
  | nonEmptyList =>
    -- of the two copies of the element the first one will do
    refine ⟨"[", ", ..." ++ element ++ "[]]", ?_⟩
    show "[" ++ element ++ ", ..." ++ element ++ "[]]" = _
    simp only [String.append_assoc]
  | stringMap => exact ⟨"\x7b [key: string]: ", " \x7d", rfl⟩

/-- The text of a member stands in the text of its union. -/
theorem exists_around_member {members : List TsType} {type : TsType} (hMember : type ∈ members)
    (layout : Layout) : ∃ before after,
      (TsType.union members).renderMember layout =
        before ++ type.renderMember layout ++ after := by
  rw [renderMember]
  exact exists_intercalate (mem_distinct (mem_renderMembers hMember))

/-- The text of an element stands in the text of its container, in parentheses or bare. -/
theorem exists_around_element (kind : ContainerKind) (type : TsType) (layout : Layout) :
    ∃ before after, (TsType.container kind type).renderMember layout =
      before ++ type.renderMember layout ++ after := by
  rw [renderMember]
  obtain ⟨before, after, hWrap⟩ := exists_wrap kind
    (if type.isGrouped = true then "(" ++ type.renderMember layout ++ ")"
      else type.renderMember layout)
  rw [hWrap]
  split
  · refine ⟨before ++ "(", ")" ++ after, ?_⟩
    simp only [String.append_assoc]
  · exact ⟨before, after, rfl⟩

/-- An object type that is expanded in place has its lines in the text of the whole type, behind
the newline of its opening brace. -/
theorem Holds.exists_body {type : TsType} {properties : List (String × TsType)}
    (h : type.Holds properties) (layout : Layout) :
    ∃ before after, type.renderMember layout =
      before ++ "\n" ++ Declaration.body layout.deeper properties ++ after := by
  induction h with
  | @record properties =>
    -- the newline is that of the opening brace
    have hBrace : "\x7b\n" = "\x7b" ++ "\n" := rfl
    refine ⟨"\x7b", layout.indentation 1 ++ "\x7d", ?_⟩
    rw [renderMember, renderInline_eq, hBrace]
    simp only [String.append_assoc]
  | member hMember hHolds ih =>
    obtain ⟨before, after, hType⟩ := ih
    obtain ⟨before', after', hUnion⟩ := exists_around_member hMember layout
    refine ⟨before' ++ before, after ++ after', ?_⟩
    rw [hUnion, hType]
    simp only [String.append_assoc]
  | @element kind type properties hHolds ih =>
    obtain ⟨before, after, hType⟩ := ih
    obtain ⟨before', after', hContainer⟩ := exists_around_element kind type layout
    refine ⟨before' ++ before, after ++ after', ?_⟩
    rw [hContainer, hType]
    simp only [String.append_assoc]

theorem exists_propertyLine_of_mem {properties : List (String × TsType)} {name : String}
    {type : TsType} (h : (name, type) ∈ properties) (layout : Layout) :
    ∃ before after, Declaration.body layout properties =
      before ++ Declaration.propertyLine layout name type ++ after ∧ Whole before := by
  obtain ⟨above, below, rfl⟩ := List.append_of_mem h
  refine ⟨Declaration.body layout above, Declaration.body layout below, ?_, ?_⟩
  · rw [Declaration.body, List.map_append, List.map_cons, String.join_append, String.join_cons,
      ← String.append_assoc]
    rfl
  · refine whole_join fun text hText => ?_
    obtain ⟨entry, -, rfl⟩ := List.mem_map.mp hText
    exact whole_append_newline _

/-- A property that is nested somewhere below an object type has its text behind whole lines. -/
theorem Nested.exists_propertyLine {properties : List (String × TsType)} {depth : Nat}
    {name : String} {type : TsType} (h : Nested properties depth name type) (layout : Layout) :
    ∃ before after, Declaration.body layout properties =
      before ++ Declaration.propertyLine (layout.lower depth) name type ++ after ∧
        Whole before := by
  -- an object type expanded in place starts a new line one level deeper
  induction h generalizing layout with
  | here hProperty => exact exists_propertyLine_of_mem hProperty layout
  | @inner properties inner depth around name outer type hAround hHolds hInner ih =>
    obtain ⟨before, after, hBody, hBefore⟩ := exists_propertyLine_of_mem hAround layout
    obtain ⟨opening, closing, hOuter⟩ := hHolds.exists_body layout
    obtain ⟨before', after', hInnerBody, hBefore'⟩ := ih layout.deeper
    rw [Layout.lower_deeper] at hInnerBody
    refine ⟨before ++ (layout.indentation 1 ++ Spelling.key around ++ ": " ++ opening ++ "\n") ++
      before', after' ++ closing ++ outer.ending ++ "\n" ++ after, ?_,
      (hBefore.append (whole_append_newline _)).append hBefore'⟩
    have hLine : Declaration.propertyLine layout around outer =
        layout.indentation 1 ++ Spelling.key around ++ ": " ++ outer.render layout ++ "\n" := rfl
    rw [hBody, hLine, render, hOuter, hInnerBody]
    simp only [String.append_assoc]

theorem Nested.name_mem_texts {properties : List (String × TsType)} {depth : Nat} {name : String}
    {type : TsType} (h : Nested properties depth name type) :
    name ∈ textsOfProperties properties := by
  induction h with
  | here hProperty => exact (mem_textsOfProperties hProperty).1
  | inner hAround hHolds hInner ih =>
    exact (mem_textsOfProperties hAround).2 (hHolds.texts_subset ih)

end TsType

/-! ## Declarations and namespaces -/

theorem Layout.lower_lower (layout : Layout) (levels more : Nat) :
    (layout.lower levels).lower more = layout.lower (levels + more) := by
  simp only [lower, Layout.mk.injEq, true_and, and_true]
  omega

theorem Declaration.exists_propertyLine {declaration : Declaration} {depth : Nat} {name : String}
    {type : TsType} (h : TsType.Nested declaration.properties depth name type) (layout : Layout) :
    ∃ before after, declaration.render layout =
      before ++ propertyLine (layout.lower depth) name type ++ after ∧ Whole before := by
  cases declaration with
  | record owner properties =>
    obtain ⟨before, after, hBody, hBefore⟩ := TsType.Nested.exists_propertyLine h layout
    refine ⟨layout.indentation 0 ++ layout.recordStyle.opening owner ++ "\n" ++ before,
      after ++ layout.indentation 0 ++ "\x7d\n", ?_, (whole_append_newline _).append hBefore⟩
    have hBody : body layout properties = _ := hBody
    rw [render_record, block, hBody]
    simp only [String.append_assoc]
  | enumeration owner cases =>
    -- an enumeration has no properties
    cases h with
    | here hProperty => cases hProperty
    | inner hAround hHolds hInner => cases hAround

theorem Declaration.name_mem_texts {declaration : Declaration} {depth : Nat} {name : String}
    {type : TsType} (h : TsType.Nested declaration.properties depth name type) :
    name ∈ declaration.texts := by
  cases declaration with
  | record owner properties => exact .tail _ h.name_mem_texts
  | enumeration owner cases =>
    have hMem : name ∈ TsType.textsOfProperties [] := h.name_mem_texts
    cases hMem

namespace NamespaceTree

mutual

theorem texts_subset (tree : NamespaceTree) {entry : List String × Declaration}
    (h : entry ∈ tree.entries) : entry.2.texts ⊆ tree.texts := by
  cases tree with
  | node namespaces declarations =>
    rw [entries] at h
    rw [texts]
    rcases List.mem_append.mp h with h | h
    · exact List.subset_append_of_subset_left _ (texts_subset_namespaces namespaces h)
    · obtain ⟨declared, hDeclared, rfl⟩ := List.mem_map.mp h
      exact fun text hText =>
        List.mem_append_right _ (List.mem_flatMap.mpr ⟨declared, hDeclared, hText⟩)

theorem texts_subset_namespaces (namespaces : List (String × NamespaceTree))
    {entry : List String × Declaration} (h : entry ∈ entriesOfNamespaces namespaces) :
    entry.2.texts ⊆ textsOfNamespaces namespaces := by
  cases namespaces with
  | nil =>
    rw [entriesOfNamespaces] at h
    cases h
  | cons first rest =>
    obtain ⟨name, tree⟩ := first
    rw [entriesOfNamespaces] at h
    rw [textsOfNamespaces]
    refine List.subset_cons_of_subset _ ?_
    rcases List.mem_append.mp h with h | h
    · obtain ⟨below, hBelow, rfl⟩ := List.mem_map.mp h
      have hTree : below.2.texts ⊆ tree.texts := texts_subset tree hBelow
      exact List.subset_append_of_subset_left _ hTree
    · exact List.subset_append_of_subset_right _ (texts_subset_namespaces rest h)

end

mutual

/-- A declaration of a tree has its text behind whole lines, as deep as there are namespaces around
it. -/
theorem exists_declaration (layout : Layout) (tree : NamespaceTree)
    {entry : List String × Declaration} (h : entry ∈ tree.entries) :
    ∃ before after, tree.render layout =
      before ++ entry.2.render (layout.lower entry.1.length) ++ after ∧ Whole before := by
  cases tree with
  | node namespaces declarations =>
    rw [entries] at h
    rw [render]
    -- namespaces stand before declarations, and either are whole lines
    rcases List.mem_append.mp h with h | h
    · obtain ⟨before, after, hText, hBefore⟩ := exists_declaration_namespaces layout namespaces h
      refine ⟨before, after ++ renderDeclarations layout declarations, ?_, hBefore⟩
      rw [hText]
      simp only [String.append_assoc]
    · obtain ⟨declared, hDeclared, rfl⟩ := List.mem_map.mp h
      obtain ⟨above, below, rfl⟩ := List.append_of_mem hDeclared
      refine ⟨renderNamespaces layout namespaces ++ renderDeclarations layout above,
        renderDeclarations layout below, ?_, ?_⟩
      · have hLayout : layout.lower 0 = layout := rfl
        rw [renderDeclarations, List.map_append, List.map_cons, String.join_append,
          String.join_cons, List.length_nil, hLayout]
        simp only [renderDeclarations, String.append_assoc]
      · refine (whole_renderNamespaces layout namespaces).append (whole_join fun text hText => ?_)
        obtain ⟨other, -, rfl⟩ := List.mem_map.mp hText
        exact other.2.whole_render layout

theorem exists_declaration_namespaces (layout : Layout)
    (namespaces : List (String × NamespaceTree)) {entry : List String × Declaration}
    (h : entry ∈ entriesOfNamespaces namespaces) :
    ∃ before after, renderNamespaces layout namespaces =
      before ++ entry.2.render (layout.lower entry.1.length) ++ after ∧ Whole before := by
  cases namespaces with
  | nil =>
    rw [entriesOfNamespaces] at h
    cases h
  | cons first rest =>
    obtain ⟨name, tree⟩ := first
    rw [entriesOfNamespaces] at h
    rw [renderNamespaces_cons]
    -- it lies in the first namespace, one level deeper, or in one of the others
    rcases List.mem_append.mp h with h | h
    · obtain ⟨below, hBelow, rfl⟩ := List.mem_map.mp h
      obtain ⟨before, after, hText, hBefore⟩ := exists_declaration layout.deeper tree hBelow
      rw [Layout.lower_deeper] at hText
      refine ⟨layout.indentation 0 ++ opening layout name ++ "\n" ++ before,
        after ++ layout.indentation 0 ++ "\x7d\n" ++ renderNamespaces layout rest, ?_,
        (whole_append_newline _).append hBefore⟩
      rw [block, hText]
      simp only [List.length_cons, String.append_assoc]
    · obtain ⟨before, after, hText, hBefore⟩ := exists_declaration_namespaces layout rest h
      refine ⟨block (layout.indentation 0) (opening layout name) (tree.render layout.deeper) ++
        before, after, ?_, (whole_block _ _ _).append hBefore⟩
      rw [hText]
      simp only [String.append_assoc]

end

/-- A property of a declaration in a namespace has its text behind whole lines. -/
theorem exists_propertyLine (layout : Layout) (name : String) {tree : NamespaceTree}
    {entry : List String × Declaration} (hEntry : entry ∈ tree.entries) {depth : Nat}
    {property : String} {type : TsType}
    (hNested : TsType.Nested entry.2.properties depth property type) :
    ∃ before after, tree.renderNamespace layout name =
      before ++
        Declaration.propertyLine (layout.lower (entry.1.length + 1 + depth)) property type ++
        after ∧ Whole before := by
  -- the namespace itself is the outermost one around the declaration
  have hMem : (name :: entry.1, entry.2) ∈ entriesOfNamespaces [(name, tree)] := by
    rw [entriesOfNamespaces]
    exact List.mem_append_left _ (List.mem_map_of_mem hEntry)
  obtain ⟨before, after, hText, hBefore⟩ :=
    exists_declaration_namespaces layout [(name, tree)] hMem
  obtain ⟨before', after', hDeclaration, hBefore'⟩ :=
    Declaration.exists_propertyLine hNested (layout.lower (entry.1.length + 1))
  refine ⟨before ++ before', after' ++ after, ?_, hBefore.append hBefore'⟩
  rw [renderNamespace, hText, List.length_cons, hDeclaration, Layout.lower_lower]
  simp only [String.append_assoc]

/-- The lines of a namespace, and what becomes of them one level deeper. -/
theorem exists_lines (layout : Layout) (hUnit : OneLine layout.unit) {name : String}
    {tree : NamespaceTree} (hName : OneLine name) (hTexts : ∀ text ∈ tree.texts, OneLine text) :
    ∃ lines, IsLines (tree.renderNamespace layout name) lines ∧
      (0 < layout.depth →
        tree.renderNamespace layout.deeper name = unlines (lines.map (layout.unit ++ ·))) := by
  have hAll : ∀ text ∈ textsOfNamespaces [(name, tree)], OneLine text := by
    rw [textsOfNamespaces, textsOfNamespaces, List.append_nil]
    exact List.forall_mem_cons.mpr ⟨hName, hTexts⟩
  by_cases hDepth : 0 < layout.depth
  · obtain ⟨lines, hLines, hDeeper⟩ := indented_renderNamespaces layout hUnit hDepth _ hAll
    exact ⟨lines, hLines, fun _ => hDeeper⟩
  · -- the header of an outermost namespace is another one deeper inside
    obtain ⟨lines, hLines⟩ := whole_renderNamespaces layout [(name, tree)]
    exact ⟨lines, hLines, fun hInner => absurd hInner hDepth⟩

end NamespaceTree

/-! ## The whole picture -/

/-- Among the lines stands a property, in an object type that is opened at this depth: some lines in
a row are its text, and the first one has its key right behind the indentation, one level below
that depth. -/
def Layout.Shows (layout : Layout) (depth : Nat) (lines : List String) (name : String)
    (type : TsType) : Prop :=
  ∃ (above more below : List String) (line tail : String),
    lines = above ++ line :: more ++ below ∧
    line = String.join (List.replicate (depth + 1) layout.unit) ++ Spelling.key name ++ ": " ++
      tail ∧
    unlines (line :: more) = Declaration.propertyLine { layout with depth := depth } name type

theorem Layout.shows_of_isLines {layout : Layout} (hUnit : OneLine layout.unit) {levels : Nat}
    {lines : List String} {name before after : String} {type : TsType} (hName : OneLine name)
    (hBefore : Whole before)
    (h : IsLines (before ++ Declaration.propertyLine (layout.lower levels) name type ++ after)
      lines) :
    layout.Shows (layout.depth + levels) lines name type := by
  rw [String.append_assoc] at h
  obtain ⟨above, rest, rfl, -, hRest⟩ := h.split hBefore
  obtain ⟨own, below, rfl, hOwn, -⟩ := hRest.split (whole_append_newline _)
  have hUnitBelow : OneLine (layout.lower levels).unit := hUnit
  have hStart : OneLine ((layout.lower levels).indentation 1 ++ Spelling.key name ++ ": ") :=
    oneLine_append.mpr ⟨oneLine_append.mpr ⟨Layout.oneLine_indentation hUnitBelow 1,
      Spelling.oneLine_key hName⟩, by decide⟩
  obtain ⟨tail, more, rfl⟩ := IsLines.exists_first hStart hOwn
  exact ⟨above, more, below, _, tail, (List.append_assoc _ _ _).symm, rfl, hOwn.eq_unlines.symm⟩

/-- One level deeper a declaration has the same lines, with one more unit of indentation before
each, and so have namespaces that are not outermost.  A namespace is its header, the namespaces in
it and then the declarations in it, each one level deeper, and its closing brace.  So the line of a
property that lies `k` object types deep in a declaration starts with `1 + k` more units than the
declaration does, and with its key right behind them. -/
theorem rendering_uniform_in_depth (layout : Layout) (hUnit : OneLine layout.unit) :
    (∀ declaration : Declaration, (∀ text ∈ declaration.texts, OneLine text) →
      ∃ lines, IsLines (declaration.render layout) lines ∧
        declaration.render layout.deeper = unlines (lines.map (layout.unit ++ ·)) ∧
        ∀ k name type, TsType.Nested declaration.properties k name type →
          layout.Shows (layout.depth + k) lines name type) ∧
    (∀ (name : String) (tree : NamespaceTree), OneLine name → (∀ text ∈ tree.texts, OneLine text) →
      ∃ lines, IsLines (tree.renderNamespace layout name) lines ∧
        (0 < layout.depth →
          tree.renderNamespace layout.deeper name = unlines (lines.map (layout.unit ++ ·))) ∧
        ∀ entry ∈ tree.entries, ∀ k name type, TsType.Nested entry.2.properties k name type →
          layout.Shows (layout.depth + 1 + entry.1.length + k) lines name type) ∧
    ∀ name namespaces declarations,
      NamespaceTree.renderNamespace layout name (.node namespaces declarations) =
        layout.indentation 0 ++ NamespaceTree.header layout name ++
          String.join (namespaces.map fun entry =>
            NamespaceTree.renderNamespace layout.deeper entry.1 entry.2) ++
          String.join (declarations.map fun entry => entry.2.render layout.deeper) ++
          layout.indentation 0 ++ "\x7d\n" := by
  refine ⟨fun declaration hTexts => ?_, fun name tree hName hTexts => ?_,
    fun name namespaces declarations => ?_⟩
  · obtain ⟨lines, hLines, hDeeper⟩ := declaration.indented layout hUnit hTexts
    refine ⟨lines, hLines, hDeeper, fun k name type hNested => ?_⟩
    obtain ⟨before, after, hText, hBefore⟩ := Declaration.exists_propertyLine hNested layout
    rw [hText] at hLines
    have hName : name ∈ declaration.texts := Declaration.name_mem_texts hNested
    exact Layout.shows_of_isLines hUnit (hTexts name hName) hBefore hLines
  · obtain ⟨lines, hLines, hDeeper⟩ := NamespaceTree.exists_lines layout hUnit hName hTexts
    refine ⟨lines, hLines, hDeeper, fun entry hEntry k property type hNested => ?_⟩
    obtain ⟨before, after, hText, hBefore⟩ :=
      NamespaceTree.exists_propertyLine layout name hEntry hNested
    rw [hText] at hLines
    have hProperty : property ∈ tree.texts :=
      tree.texts_subset hEntry (Declaration.name_mem_texts hNested)
    have hShows := Layout.shows_of_isLines hUnit (hTexts property hProperty) hBefore hLines
    -- the namespace itself counts as one more level
    have hDepth : layout.depth + (entry.1.length + 1 + k) =
        layout.depth + 1 + entry.1.length + k := by omega
    exact hDepth ▸ hShows
  · rw [NamespaceTree.renderNamespace, NamespaceTree.renderNamespaces,
      NamespaceTree.renderNamespaces, NamespaceTree.render, NamespaceTree.renderNamespaces_eq_join,
      NamespaceTree.renderDeclarations, String.append_empty]
    simp only [String.append_assoc]

/-- A record in which the key `y-pos` lies two object types deep. -/
def polygon : Declaration :=
  .record "Polygon"
    [("corners", .container .list (.union
      [.inlineRecord [("at", .inlineRecord [("y-pos", .scalar .number)])], .scalar .null]))]

/-- The record in the namespace `geometry`. -/
def drawing : NamespaceTree :=
  .node [("geometry", .node [] [("Polygon", polygon)])] []

/-- Two blanks for each level, one level deep. -/
def twoBlanks : Layout where
  unit := "  "
  depth := 1

theorem drawing_uniform_in_depth :
    OneLine twoBlanks.unit ∧ (∀ text ∈ drawing.texts, OneLine text) ∧
    ∃ lines, IsLines (drawing.renderNamespace twoBlanks "app") lines ∧
      drawing.renderNamespace twoBlanks.deeper "app" = unlines (lines.map ("  " ++ ·)) ∧
      twoBlanks.Shows 5 lines "y-pos" (.scalar .number) := by
  have hUnit : OneLine twoBlanks.unit := by decide
  have hTexts : ∀ text ∈ drawing.texts, OneLine text := by decide
  obtain ⟨-, hNamespaces, -⟩ := rendering_uniform_in_depth twoBlanks hUnit
  obtain ⟨lines, hLines, hDeeper, hShows⟩ := hNamespaces "app" drawing (by decide) hTexts
  have hNested : TsType.Nested polygon.properties 2 "y-pos" (.scalar .number) :=
    .inner (.head _) (.element (.member (.head _) .record)) (.inner (.head _) .record
      (.here (.head _)))
  exact ⟨hUnit, hTexts, lines, hLines, hDeeper (by decide),
    hShows (["geometry"], polygon) (.head _) 2 "y-pos" _ hNested⟩

end Ambient
