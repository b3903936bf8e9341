import Ambient.Proofs.Lines
import Ambient.Proofs.NamespaceTree
import Ambient.Proofs.QualifiedName
import Mathlib.Data.List.Basic

/-!
# Indentation

How the text of a declaration depends on its depth.

* `renderMember_deeper`: one level deeper a type has the same text, with one more unit of
  indentation behind each of its newlines.
* `Declaration.indented`, `indented_renderNamespaces`: one level deeper whole declarations and
  namespaces have the same lines, with one more unit before each.

All of this holds of texts that bring no newlines of their own (`texts` lists them).
-/

namespace Ambient

open Text

/-! ## Texts from outside -/

/-- The string in the value of a case, if it is one. -/
def CaseValue.texts : CaseValue → List String
  | text value => [value]
  | int _ => []

namespace TsType

mutual

/-- The texts that a type is written with and that are not made up by the rendering: names, raw
texts and strings. -/
def texts : TsType → List String
  | scalar _ => []
  | raw text => [text]
  | reference name => [name]
  | union members => textsOfMembers members
  | container _ element => element.texts
  | inlineRecord properties => textsOfProperties properties
  | inlineEnum values => values.flatMap CaseValue.texts

def textsOfMembers : List TsType → List String
  | [] => []
  | type :: rest => type.texts ++ textsOfMembers rest

def textsOfProperties : List (String × TsType) → List String
  | [] => []
  | (name, type) :: rest => name :: (type.texts ++ textsOfProperties rest)

end

theorem texts_subset_textsOfMembers {type : TsType} {members : List TsType} (h : type ∈ members) :
    type.texts ⊆ textsOfMembers members := by
  induction members with
  | nil => cases h
  | cons first rest ih =>
    rw [textsOfMembers]
    rcases List.mem_cons.mp h with rfl | h
    · exact List.subset_append_left _ _
    · exact List.subset_append_of_subset_right _ (ih h)

theorem mem_textsOfProperties {properties : List (String × TsType)} {entry : String × TsType}
    (h : entry ∈ properties) :
    entry.1 ∈ textsOfProperties properties ∧ entry.2.texts ⊆ textsOfProperties properties := by
  induction properties with
  | nil => cases h
  | cons first rest ih =>
    obtain ⟨name, type⟩ := first
    rw [textsOfProperties]
    rcases List.mem_cons.mp h with rfl | h
    · exact ⟨.head _, fun text hText => .tail _ (List.mem_append_left _ hText)⟩
    · obtain ⟨hName, hType⟩ := ih h
      exact ⟨.tail _ (List.mem_append_right _ hName), fun text hText =>
        .tail _ (List.mem_append_right _ (hType hText))⟩

end TsType

/-- The texts that a declaration is written with and that are not made up by the rendering. -/
def Declaration.texts : Declaration → List String
  | record name properties => name :: TsType.textsOfProperties properties
  | enumeration name cases => name :: cases.flatMap fun entry => entry.1 :: entry.2.texts

namespace NamespaceTree

mutual

/-- The texts that a tree is written with and that are not made up by the rendering. -/
def texts : NamespaceTree → List String
  | node namespaces declarations =>
    textsOfNamespaces namespaces ++ declarations.flatMap fun entry => entry.2.texts

def textsOfNamespaces : List (String × NamespaceTree) → List String
  | [] => []
  | (name, tree) :: rest => name :: (tree.texts ++ textsOfNamespaces rest)

end

end NamespaceTree

/-! ## Spelling -/

namespace Spelling

theorem mem_escape {c : Char} {text : List Char} (h : c ∈ escape text) : c ∈ text ∨ c = '\\' := by
  induction text with
  | nil => cases h
  | cons first rest ih =>
    rw [escape] at h
    split at h
    · rcases List.mem_cons.mp h with rfl | h
      · exact .inr rfl
      · rcases List.mem_cons.mp h with rfl | h
        · exact .inl (.head _)
        · exact (ih h).imp_left (.tail _)
    · rcases List.mem_cons.mp h with rfl | h
      · exact .inl (.head _)
      · exact (ih h).imp_left (.tail _)

theorem oneLine_quote {value : String} (h : OneLine value) : OneLine (quote value) := by
  intro hMem
  rw [quote, String.toList_ofList] at hMem
  simp only [List.cons_append, List.mem_cons, List.mem_append, List.not_mem_nil, or_false] at hMem
  rcases hMem with hQuote | hEscape | hQuote
  · exact absurd hQuote (by decide)
  · rcases mem_escape hEscape with hValue | hBackslash
    · exact h hValue
    · exact absurd hBackslash (by decide)
  · exact absurd hQuote (by decide)

theorem oneLine_key {name : String} (h : OneLine name) : OneLine (key name) := by
  rw [key]
  split
  · exact h
  · exact oneLine_quote h

theorem oneLine_repr (n : Nat) : OneLine n.repr := by
  intro hMem
  rw [Nat.toList_repr] at hMem
  have hDigit := Nat.isDigit_of_mem_toDigits (by decide) (by decide) hMem
  exact absurd hDigit (by decide)

theorem oneLine_caseValue {value : CaseValue} (h : ∀ text ∈ value.texts, OneLine text) :
    OneLine (caseValue value) := by
  cases value with
  | text value => exact oneLine_quote (h value (.head _))
  | int value =>
    cases value with
    | ofNat n => exact oneLine_repr n
    | negSucc n => exact oneLine_append.mpr ⟨by decide, oneLine_repr (n + 1)⟩

theorem oneLine_caseUnion {values : List CaseValue}
    (h : ∀ text ∈ values.flatMap CaseValue.texts, OneLine text) : OneLine (caseUnion values) := by
  rw [caseUnion]
  split
  · decide
  · refine oneLine_intercalate (by decide) fun text hText => ?_
    obtain ⟨value, hValue, rfl⟩ := List.mem_map.mp hText
    exact oneLine_caseValue fun text hText => h text (List.mem_flatMap.mpr ⟨value, hValue, hText⟩)

end Spelling

theorem QualifiedName.oneLine_dotted {name : String} (h : OneLine name) :
    OneLine (dotted name) := by
  refine oneLine_intercalate (by decide) fun segment hSegment => ?_
  rw [segments_eq_parts] at hSegment
  obtain ⟨part, hPart, rfl⟩ := List.mem_map.mp hSegment
  intro hMem
  rw [String.toList_ofList] at hMem
  exact h (subset_of_mem_parts name.toList part (List.mem_filter.mp hPart).1 hMem)

theorem Scalar.oneLine_keyword (scalar : Scalar) : OneLine scalar.keyword := by
  cases scalar <;> decide

/-! ## Layouts -/

namespace Layout

variable {layout : Layout}

/-- The layout some levels deeper. -/
def lower (layout : Layout) (levels : Nat) : Layout :=
  { layout with depth := layout.depth + levels }

theorem lower_deeper (levels : Nat) : layout.deeper.lower levels = layout.lower (levels + 1) := by
  simp only [lower, deeper, Layout.mk.injEq, true_and, and_true]
  omega

theorem indentation_deeper (extra : Nat) :
    layout.deeper.indentation extra = layout.unit ++ layout.indentation extra := by
  show String.join (List.replicate (layout.depth + 1 + extra) layout.unit) = _
  rw [Nat.add_right_comm, List.replicate_succ, String.join_cons]
  rfl

theorem oneLine_indentation (hUnit : OneLine layout.unit) (extra : Nat) :
    OneLine (layout.indentation extra) := by
  refine oneLine_join fun text hText => ?_
  rw [List.eq_of_mem_replicate hText]
  exact hUnit

end Layout

theorem distinct_map {f : String → String} (hInjective : Function.Injective f)
    (texts : List String) : distinct (texts.map f) = (distinct texts).map f := by
  -- for the induction some texts have been seen already
  have hFold : ∀ seen : List String,
      (texts.map f).foldl (fun seen text => if text ∈ seen then seen else seen ++ [text])
        (seen.map f) =
      (texts.foldl (fun seen text => if text ∈ seen then seen else seen ++ [text]) seen).map f := by
    induction texts with
    | nil => exact fun seen => rfl
    | cons first rest ih =>
      intro seen
      rw [List.map_cons, List.foldl_cons, List.foldl_cons]
      by_cases hSeen : first ∈ seen
      · rw [if_pos hSeen, if_pos (List.mem_map_of_mem hSeen), ih]
      · rw [if_neg hSeen, if_neg fun hMem => hSeen ((List.mem_map_of_injective hInjective).mp hMem),
          ← ih, List.map_append]
        rfl
  exact hFold []

/-! ## Types one level deeper -/

namespace TsType

theorem hang_wrap {unit : String} (kind : ContainerKind) (element : String) :
    hang unit (wrap kind element) = wrap kind (hang unit element) := by
  -- what is put around the element is on one line, so only the element hangs
  cases kind with
  | list =>
    show hang unit (element ++ "[]") = hang unit element ++ "[]"
    rw [hang_append, hang_of_oneLine (by decide : OneLine "[]")]
  | nonEmptyList =>
    show hang unit ("[" ++ element ++ ", ..." ++ element ++ "[]]") =
      "[" ++ hang unit element ++ ", ..." ++ hang unit element ++ "[]]"
    rw [hang_append, hang_append, hang_append, hang_append,
      hang_of_oneLine (by decide : OneLine "["), hang_of_oneLine (by decide : OneLine ", ..."),
      hang_of_oneLine (by decide : OneLine "[]]")]
  | stringMap =>
    show hang unit ("\x7b [key: string]: " ++ element ++ " \x7d") =
      "\x7b [key: string]: " ++ hang unit element ++ " \x7d"
    rw [hang_append, hang_append, hang_of_oneLine (by decide : OneLine "\x7b [key: string]: "),
      hang_of_oneLine (by decide : OneLine " \x7d")]

theorem oneLine_ending (type : TsType) : OneLine type.ending := by
  unfold ending
  split
  · decide
  · decide

-- The induction goes down the type while the layout gets deeper with every inline record.
mutual

theorem renderMember_deeper (layout : Layout) (hUnit : OneLine layout.unit) (type : TsType)
    (hTexts : ∀ text ∈ type.texts, OneLine text) :
    type.renderMember layout.deeper = hang layout.unit (type.renderMember layout) := by
  cases type with
  | scalar keyword =>
    rw [renderMember, renderMember, hang_of_oneLine keyword.oneLine_keyword]
  | raw text =>
    rw [renderMember, renderMember, hang_of_oneLine (hTexts text (.head _))]
  | reference name =>
    rw [renderMember, renderMember,
      hang_of_oneLine (QualifiedName.oneLine_dotted (hTexts name (.head _)))]
  | union members =>
    -- members with different texts keep different texts, so the same ones are dropped
    rw [renderMember, renderMember, renderMembers_deeper layout hUnit members hTexts,
      distinct_map (hang_injective layout.unit), hang_intercalate (by decide)]
  | container kind element =>
    rw [renderMember, renderMember, renderMember_deeper layout hUnit element hTexts, hang_wrap]
    split
    · rw [hang_append, hang_append, hang_of_oneLine (by decide : OneLine "("),
        hang_of_oneLine (by decide : OneLine ")")]
    · rfl
  | inlineRecord properties =>
    have hInline := renderInline_deeper layout hUnit properties hTexts
    -- the newline after the opening brace indents the first property, and the unit that is left
    -- over behind the last one indents the closing brace
    have hOpening : hang layout.unit "\x7b\n" = "\x7b\n" ++ layout.unit := by
      rw [show "\x7b\n" = "\x7b" ++ "\n" from rfl, hang_append, hang_newline,
        hang_of_oneLine (by decide)]
      simp only [String.append_assoc]
    rw [renderMember, renderMember, hang_append, hang_append, hang_append, hOpening,
      hang_of_oneLine (Layout.oneLine_indentation hUnit 1),
      hang_of_oneLine (by decide : OneLine "\x7d"), Layout.indentation_deeper]
    calc "\x7b\n" ++ renderInline layout.deeper properties ++
          (layout.unit ++ layout.indentation 1) ++ "\x7d"
        = "\x7b\n" ++ (renderInline layout.deeper properties ++ layout.unit) ++
          layout.indentation 1 ++ "\x7d" := by simp only [String.append_assoc]
      _ = "\x7b\n" ++ (layout.unit ++ hang layout.unit (renderInline layout properties)) ++
          layout.indentation 1 ++ "\x7d" := by rw [hInline]
      _ = "\x7b\n" ++ layout.unit ++ hang layout.unit (renderInline layout properties) ++
          layout.indentation 1 ++ "\x7d" := by simp only [String.append_assoc]
  | inlineEnum values =>
    rw [renderMember, renderMember, hang_of_oneLine (Spelling.oneLine_caseUnion hTexts)]

theorem renderMembers_deeper (layout : Layout) (hUnit : OneLine layout.unit)
    (members : List TsType) (hTexts : ∀ text ∈ textsOfMembers members, OneLine text) :
    renderMembers layout.deeper members =
      (renderMembers layout members).map (hang layout.unit) := by
  cases members with
  | nil => rw [renderMembers, renderMembers, List.map_nil]
  | cons type rest =>
    rw [textsOfMembers, List.forall_mem_append] at hTexts
    rw [renderMembers, renderMembers, List.map_cons, renderMember_deeper layout hUnit type hTexts.1,
      renderMembers_deeper layout hUnit rest hTexts.2]

/-- The lines of the properties start with their indentation, so the unit for the first one stands
before all of them, and a unit for the closing line is left over. -/
theorem renderInline_deeper (layout : Layout) (hUnit : OneLine layout.unit)
    (properties : List (String × TsType))
    (hTexts : ∀ text ∈ textsOfProperties properties, OneLine text) :
    layout.unit ++ hang layout.unit (renderInline layout properties) =
      renderInline layout.deeper properties ++ layout.unit := by
  cases properties with
  | nil =>
    rw [renderInline, renderInline, hang_of_oneLine (by decide), String.append_empty,
      String.empty_append]
  | cons entry rest =>
    obtain ⟨name, type⟩ := entry
    rw [textsOfProperties, List.forall_mem_cons, List.forall_mem_append] at hTexts
    obtain ⟨hName, hType, hRest⟩ := hTexts
    -- the type of the property is itself written one level deeper
    have hMember : type.renderMember layout.deeper.deeper =
        hang layout.unit (type.renderMember layout.deeper) :=
      renderMember_deeper layout.deeper hUnit type hType
    have hOthers := renderInline_deeper layout hUnit rest hRest
    rw [renderInline, renderInline, hMember]
    simp only [hang_append, hang_newline, hang_of_oneLine (Layout.oneLine_indentation hUnit 2),
      hang_of_oneLine (Spelling.oneLine_key hName), hang_of_oneLine (by decide : OneLine ": "),
      hang_of_oneLine type.oneLine_ending, Layout.indentation_deeper, String.append_assoc]
    rw [hOthers]

end

theorem render_deeper (layout : Layout) (hUnit : OneLine layout.unit) (type : TsType)
    (hTexts : ∀ text ∈ type.texts, OneLine text) :
    type.render layout.deeper = hang layout.unit (type.render layout) := by
  rw [render, render, renderMember_deeper layout hUnit type hTexts, hang_append,
    hang_of_oneLine type.oneLine_ending]

end TsType

/-! ## Declarations one level deeper -/

/-- The text between braces with its opening line and its closing one. -/
def block (indentation opening body : String) : String :=
  indentation ++ opening ++ "\n" ++ body ++ indentation ++ "\x7d\n"

theorem indented_block {unit indentation opening body body' : String}
    (hIndentation : OneLine indentation) (hOpening : OneLine opening)
    (hBody : Indented unit body body') :
    Indented unit (block indentation opening body) (block (unit ++ indentation) opening body') := by
  have hFirst : Indented unit (indentation ++ opening ++ "\n") (unit ++ (indentation ++ opening) ++
      "\n") := indented_line (oneLine_append.mpr ⟨hIndentation, hOpening⟩)
  have hLast : Indented unit (indentation ++ "\x7d" ++ "\n") (unit ++ (indentation ++ "\x7d") ++
      "\n") := indented_line (oneLine_append.mpr ⟨hIndentation, by decide⟩)
  have hBlock := (hFirst.append hBody).append hLast
  have hBrace : "\x7d\n" = "\x7d" ++ "\n" := rfl
  unfold block
  rw [hBrace]
  simpa only [String.append_assoc] using hBlock

theorem whole_block (indentation opening body : String) :
    Whole (block indentation opening body) := by
  have hBrace : "\x7d\n" = "\x7d" ++ "\n" := rfl
  unfold block
  rw [hBrace, ← String.append_assoc]
  exact whole_append_newline _

/-- The opening line of a record. -/
def RecordStyle.opening (style : RecordStyle) (name : String) : String :=
  match style with
  | .interface => "export interface " ++ name ++ " \x7b"
  | .typeAlias => "export type " ++ name ++ " = \x7b"

theorem RecordStyle.oneLine_opening {name : String} (h : OneLine name) (style : RecordStyle) :
    OneLine (style.opening name) := by
  cases style with
  | interface => exact oneLine_append.mpr ⟨oneLine_append.mpr ⟨by decide, h⟩, by decide⟩
  | typeAlias => exact oneLine_append.mpr ⟨oneLine_append.mpr ⟨by decide, h⟩, by decide⟩

namespace Declaration

/-- The lines of the properties of an object type, in a declaration or expanded in place. -/
def body (layout : Layout) (properties : List (String × TsType)) : String :=
  String.join (properties.map fun entry => propertyLine layout entry.1 entry.2)

theorem render_record (layout : Layout) (name : String) (properties : Table TsType) :
    (record name properties).render layout =
      block (layout.indentation 0) (layout.recordStyle.opening name) (body layout properties) := by
  have hInterface : " \x7b\n" = " \x7b" ++ "\n" := rfl
  have hAlias : " = \x7b\n" = " = \x7b" ++ "\n" := rfl
  rw [render, block, body]
  cases layout.recordStyle with
  | interface =>
    unfold RecordStyle.opening
    simp only [hInterface, String.append_assoc]
  | typeAlias =>
    unfold RecordStyle.opening
    simp only [hAlias, String.append_assoc]

theorem render_native {layout : Layout} (hStyle : layout.enumStyle = .native) (name : String)
    (cases : Table CaseValue) :
    (enumeration name cases).render layout =
      block (layout.indentation 0) ("export enum " ++ name ++ " \x7b")
        (String.join (cases.map fun entry => caseLine layout entry.1 entry.2)) := by
  have hOpening : " \x7b\n" = " \x7b" ++ "\n" := rfl
  rw [render, hStyle, block]
  simp only [hOpening, String.append_assoc]

theorem render_union {layout : Layout} (hStyle : layout.enumStyle = .union) (name : String)
    (cases : Table CaseValue) :
    (enumeration name cases).render layout = layout.indentation 0 ++ "export type " ++ name ++
      " = " ++ Spelling.caseUnion (cases.map Prod.snd) ++ ";" ++ "\n" := by
  have hEnd : ";\n" = ";" ++ "\n" := rfl
  rw [render, hStyle]
  simp only [hEnd, String.append_assoc]

theorem indented_propertyLine {layout : Layout} (hUnit : OneLine layout.unit) {name : String}
    (hName : OneLine name) {type : TsType} (hType : ∀ text ∈ type.texts, OneLine text) :
    Indented layout.unit (propertyLine layout name type)
      (propertyLine layout.deeper name type) := by
  have hHang : hang layout.unit
      (layout.indentation 1 ++ Spelling.key name ++ ": " ++ type.render layout) =
        layout.indentation 1 ++ Spelling.key name ++ ": " ++ type.render layout.deeper := by
    rw [hang_append, hang_append, hang_append, ← type.render_deeper layout hUnit hType,
      hang_of_oneLine (Layout.oneLine_indentation hUnit 1),
      hang_of_oneLine (Spelling.oneLine_key hName), hang_of_oneLine (by decide : OneLine ": ")]
  have hLine := @indented_newline layout.unit
    (layout.indentation 1 ++ Spelling.key name ++ ": " ++ type.render layout)
  rw [hHang] at hLine
  unfold propertyLine
  rw [Layout.indentation_deeper]
  simpa only [String.append_assoc] using hLine

theorem indented_caseLine {layout : Layout} (hUnit : OneLine layout.unit) {name : String}
    (hName : OneLine name) {value : CaseValue} (hValue : ∀ text ∈ value.texts, OneLine text) :
    Indented layout.unit (caseLine layout name value) (caseLine layout.deeper name value) := by
  have hOne : OneLine (layout.indentation 1 ++ Spelling.key name ++ " = " ++
      Spelling.caseValue value ++ ",") := by
    simp only [oneLine_append]
    exact ⟨⟨⟨⟨Layout.oneLine_indentation hUnit 1, Spelling.oneLine_key hName⟩, by decide⟩,
      Spelling.oneLine_caseValue hValue⟩, by decide⟩
  have hLine := @indented_line layout.unit _ hOne
  have hComma : ",\n" = "," ++ "\n" := rfl
  unfold caseLine
  rw [Layout.indentation_deeper, hComma]
  simpa only [String.append_assoc] using hLine

theorem indented_body {layout : Layout} (hUnit : OneLine layout.unit)
    {properties : List (String × TsType)}
    (hTexts : ∀ text ∈ TsType.textsOfProperties properties, OneLine text) :
    Indented layout.unit (body layout properties) (body layout.deeper properties) := by
  refine indented_join fun entry hEntry => ?_
  obtain ⟨hName, hType⟩ := TsType.mem_textsOfProperties hEntry
  exact indented_propertyLine hUnit (hTexts _ hName) fun text hText => hTexts _ (hType hText)

/-- One level deeper a declaration has the same lines, with one more unit before each. -/
theorem indented (layout : Layout) (hUnit : OneLine layout.unit) (declaration : Declaration)
    (hTexts : ∀ text ∈ declaration.texts, OneLine text) :
    Indented layout.unit (declaration.render layout) (declaration.render layout.deeper) := by
  have hIndentation := Layout.oneLine_indentation hUnit 0
  -- the styles are those of the layout, and they are the same one level deeper
  cases declaration with
  | record name properties =>
    obtain ⟨hName, hProperties⟩ := List.forall_mem_cons.mp hTexts
    rw [render_record, render_record, Layout.indentation_deeper]
    exact indented_block hIndentation (RecordStyle.oneLine_opening hName _)
      (indented_body hUnit hProperties)
  | enumeration name cases =>
    obtain ⟨hName, hCases⟩ := List.forall_mem_cons.mp hTexts
    cases hStyle : layout.enumStyle with
    | native =>
      rw [render_native hStyle, render_native (show layout.deeper.enumStyle = .native from hStyle),
        Layout.indentation_deeper]
      refine indented_block hIndentation
        (oneLine_append.mpr ⟨oneLine_append.mpr ⟨by decide, hName⟩, by decide⟩)
        (indented_join fun entry hEntry => ?_)
      have hTexts : ∀ text ∈ entry.1 :: entry.2.texts, OneLine text := fun text hText =>
        hCases text (List.mem_flatMap.mpr ⟨entry, hEntry, hText⟩)
      exact indented_caseLine hUnit (hTexts _ (.head _)) fun text hText => hTexts _ (.tail _ hText)
    | union =>
      have hValues : OneLine (Spelling.caseUnion (cases.map Prod.snd)) := by
        refine Spelling.oneLine_caseUnion fun text hText => ?_
        obtain ⟨value, hValue, hText⟩ := List.mem_flatMap.mp hText
        obtain ⟨entry, hEntry, rfl⟩ := List.mem_map.mp hValue
        exact hCases text (List.mem_flatMap.mpr ⟨entry, hEntry, .tail _ hText⟩)
      rw [render_union hStyle, render_union (show layout.deeper.enumStyle = .union from hStyle),
        Layout.indentation_deeper]
      have hLine : OneLine (layout.indentation 0 ++ "export type " ++ name ++ " = " ++
          Spelling.caseUnion (cases.map Prod.snd) ++ ";") := by
        simp only [oneLine_append]
        exact ⟨⟨⟨⟨⟨hIndentation, by decide⟩, hName⟩, by decide⟩, hValues⟩, by decide⟩
      simpa only [String.append_assoc] using @indented_line layout.unit _ hLine

theorem whole_render (layout : Layout) (declaration : Declaration) :
    Whole (declaration.render layout) := by
  cases declaration with
  | record name properties =>
    rw [render_record]
    exact whole_block _ _ _
  | enumeration name cases =>
    cases hStyle : layout.enumStyle with
    | native =>
      rw [render_native hStyle]
      exact whole_block _ _ _
    | union =>
      rw [render_union hStyle]
      exact whole_append_newline _

end Declaration

/-! ## Namespaces one level deeper -/

namespace NamespaceTree

/-- The opening line of a namespace. -/
def opening (layout : Layout) (name : String) : String :=
  (if layout.depth == 0 then "declare namespace " else "export namespace ") ++ name ++ " \x7b"

theorem renderNamespaces_cons (layout : Layout) (name : String) (tree : NamespaceTree)
    (rest : List (String × NamespaceTree)) :
    renderNamespaces layout ((name, tree) :: rest) =
      block (layout.indentation 0) (opening layout name) (tree.render layout.deeper) ++
        renderNamespaces layout rest := by
  have hOpening : " \x7b\n" = " \x7b" ++ "\n" := rfl
  rw [renderNamespaces, block, header, opening]
  simp only [hOpening, String.append_assoc]

/-- Below the outermost level the opening lines do not depend on the depth. -/
theorem opening_deeper {layout : Layout} (hDepth : 0 < layout.depth) (name : String) :
    opening layout.deeper name = opening layout name := by
  have hInner : (layout.depth == 0) = false := by
    simpa using Nat.pos_iff_ne_zero.mp hDepth
  rw [opening, opening, hInner]
  rfl

theorem oneLine_opening {layout : Layout} {name : String} (h : OneLine name) :
    OneLine (opening layout name) := by
  rw [opening]
  split
  · exact oneLine_append.mpr ⟨oneLine_append.mpr ⟨by decide, h⟩, by decide⟩
  · exact oneLine_append.mpr ⟨oneLine_append.mpr ⟨by decide, h⟩, by decide⟩

mutual

theorem indented_render (layout : Layout) (hUnit : OneLine layout.unit) (hDepth : 0 < layout.depth)
    (tree : NamespaceTree) (hTexts : ∀ text ∈ tree.texts, OneLine text) :
    Indented layout.unit (tree.render layout) (tree.render layout.deeper) := by
  cases tree with
  | node namespaces declarations =>
    rw [texts, List.forall_mem_append] at hTexts
    rw [render, render]
    refine (indented_renderNamespaces layout hUnit hDepth namespaces hTexts.1).append
      (indented_join fun entry hEntry => ?_)
    exact entry.2.indented layout hUnit fun text hText =>
      hTexts.2 text (List.mem_flatMap.mpr ⟨entry, hEntry, hText⟩)

/-- One level deeper namespaces have the same lines, with one more unit before each. -/
theorem indented_renderNamespaces (layout : Layout) (hUnit : OneLine layout.unit)
    (hDepth : 0 < layout.depth) (namespaces : List (String × NamespaceTree))
    (hTexts : ∀ text ∈ textsOfNamespaces namespaces, OneLine text) :
    Indented layout.unit (renderNamespaces layout namespaces)
      (renderNamespaces layout.deeper namespaces) := by
  cases namespaces with
  | nil =>
    rw [renderNamespaces, renderNamespaces]
    exact indented_empty
  | cons entry rest =>
    obtain ⟨name, tree⟩ := entry
    rw [textsOfNamespaces, List.forall_mem_cons, List.forall_mem_append] at hTexts
    obtain ⟨hName, hTree, hRest⟩ := hTexts
    -- what is in the namespace is deeper than it, so it is not outermost in any case
    have hBelow : Indented layout.unit (tree.render layout.deeper)
        (tree.render layout.deeper.deeper) :=
      indented_render layout.deeper hUnit (Nat.succ_pos _) tree hTree
    rw [renderNamespaces_cons, renderNamespaces_cons, Layout.indentation_deeper,
      opening_deeper hDepth]
    have hIndentation : OneLine (layout.indentation 0) := Layout.oneLine_indentation hUnit 0
    exact (indented_block hIndentation (oneLine_opening hName) hBelow).append
      (indented_renderNamespaces layout hUnit hDepth rest hRest)

end

theorem whole_renderNamespaces (layout : Layout) (namespaces : List (String × NamespaceTree)) :
    Whole (renderNamespaces layout namespaces) := by
  induction namespaces with
  | nil =>
    rw [renderNamespaces]
    exact whole_empty
  | cons entry rest ih =>
    rw [renderNamespaces_cons]
    exact (whole_block _ _ _).append ih

/-- Namespaces are written one after the other. -/
theorem renderNamespaces_eq_join (layout : Layout) (namespaces : List (String × NamespaceTree)) :
    renderNamespaces layout namespaces =
      String.join (namespaces.map fun entry => renderNamespace layout entry.1 entry.2) := by
  induction namespaces with
  | nil => rw [renderNamespaces, List.map_nil, String.join_nil]
  | cons entry rest ih =>
    rw [List.map_cons, String.join_cons, ← ih, renderNamespace, renderNamespaces_cons,
      renderNamespaces_cons, renderNamespaces, String.append_empty]

end NamespaceTree

end Ambient
