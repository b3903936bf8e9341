import Ambient.Proofs.TypeTexts
import Mathlib.Algebra.Order.BigOperators.Group.List
import Mathlib.Algebra.Order.Ring.Nat

/-!
# Line breaks

A quoted string of TypeScript may not contain a line break.  Quoting puts backslashes before
backslashes and double quotes and leaves everything else as it is, so a name or a string value with
a line break in it breaks the line that it is written in.

* `TsType.Flat.mem_renderMember`: the line breaks in the text of a type are those of the string
  values in it, if no record is expanded in it.
* `one_line_each`: a record or an enumeration with members has a line for each of its entries, an
  opening and a closing one, and these lines are not broken just if no name and no string value is.
-/

namespace Ambient

namespace Text

/-- The characters that end a line: the line feed and the carriage return. -/
def isBreak (c : Char) : Bool :=
  c == '\n' || c == '\r'

/-- Text without a line break. -/
def Unbroken (text : String) : Prop :=
  ∀ c ∈ text.toList, isBreak c = false

instance : DecidablePred Unbroken := fun text =>
  decidable_of_iff (text.toList.all (!isBreak ·) = true) (by simp [Unbroken])

/-- The number of line breaks in a text. -/
def breaks (text : String) : Nat :=
  text.toList.countP isBreak

variable {c : Char}

theorem Unbroken.not_mem {text : String} (h : Unbroken text) (hBreak : isBreak c = true) :
    c ∉ text.toList := by
  intro hMem
  rw [h c hMem] at hBreak
  cases hBreak

theorem unbroken_iff {text : String} :
    Unbroken text ↔ ∀ c, isBreak c = true → c ∉ text.toList := by
  refine ⟨fun h c hBreak => h.not_mem hBreak, fun h c hMem => ?_⟩
  cases hBreak : isBreak c with
  | false => rfl
  | true => exact absurd hMem (h c hBreak)

theorem breaks_append (first second : String) :
    breaks (first ++ second) = breaks first + breaks second := by
  rw [breaks, String.toList_append, List.countP_append]
  rfl

theorem breaks_eq_zero_iff {text : String} : breaks text = 0 ↔ Unbroken text := by
  rw [breaks, List.countP_eq_zero]
  simp only [Unbroken, Bool.not_eq_true]

theorem unbroken_append {first second : String} (hFirst : Unbroken first)
    (hSecond : Unbroken second) : Unbroken (first ++ second) := by
  rw [← breaks_eq_zero_iff, breaks_append, breaks_eq_zero_iff.mpr hFirst,
    breaks_eq_zero_iff.mpr hSecond]

/-- Each line ends with a break, and may have more of them inside. -/
theorem breaks_unlines (lines : List String) :
    breaks (unlines lines) = lines.length + (lines.map breaks).sum := by
  induction lines with
  | nil => rfl
  | cons line rest ih =>
    have hNewline : breaks "\n" = 1 := rfl
    rw [unlines_cons, breaks_append, breaks_append, hNewline, ih, List.length_cons, List.map_cons,
      List.sum_cons]
    omega

theorem breaks_unlines_eq_length_iff {lines : List String} :
    breaks (unlines lines) = lines.length ↔ ∀ line ∈ lines, Unbroken line := by
  rw [breaks_unlines, Nat.add_eq_left, List.sum_eq_zero_iff, List.forall_mem_map]
  simp only [breaks_eq_zero_iff]

theorem mem_intercalate {separator : String} (h : c ∉ separator.toList) {texts : List String} :
    c ∈ (separator.intercalate texts).toList ↔ ∃ text ∈ texts, c ∈ text.toList := by
  induction texts with
  | nil => simp
  | cons first rest ih =>
    cases rest with
    | nil => simp
    | cons second others =>
      rw [String.intercalate_cons_cons, String.toList_append, String.toList_append,
        List.mem_append, List.mem_append, ih, List.exists_mem_cons_iff]
      simp [h]

end Text

open Text

variable {c : Char}

/-! ## Spelling -/

namespace Spelling

theorem mem_escape_of_mem {text : List Char} (h : c ∈ text) : c ∈ escape text := by
  induction text with
  | nil => cases h
  | cons first rest ih =>
    rw [escape]
    rcases List.mem_cons.mp h with rfl | h
    · split
      · exact .tail _ (.head _)
      · exact .head _
    · split
      · exact .tail _ (.tail _ (ih h))
      · exact .tail _ (ih h)

/-- Quoting keeps line breaks and adds none. -/
theorem mem_quote (hBreak : isBreak c = true) {value : String} :
    c ∈ (quote value).toList ↔ c ∈ value.toList := by
  have hOther (d : Char) (hd : isBreak d = false) : c ≠ d := by
    rintro rfl
    exact Bool.false_ne_true (hd.symm.trans hBreak)
  rw [quote, String.toList_ofList, List.cons_append, List.mem_cons, List.mem_append,
    List.mem_singleton]
  constructor
  · rintro (hQuote | hEscape | hQuote)
    · exact absurd hQuote (hOther '"' rfl)
    · exact (mem_escape hEscape).resolve_right (hOther '\\' rfl)
    · exact absurd hQuote (hOther '"' rfl)
  · exact fun hMem => .inr (.inl (mem_escape_of_mem hMem))

theorem mem_key (hBreak : isBreak c = true) {name : String} :
    c ∈ (key name).toList ↔ c ∈ name.toList := by
  rw [key]
  split
  · exact Iff.rfl
  · exact mem_quote hBreak

theorem unbroken_repr (n : Nat) : Unbroken n.repr := by
  intro c hMem
  rw [Nat.toList_repr] at hMem
  have hDigit := Nat.isDigit_of_mem_toDigits (by decide) (by decide) hMem
  cases hBreak : isBreak c with
  | false => rfl
  | true =>
    rw [isBreak, Bool.or_eq_true, beq_iff_eq, beq_iff_eq] at hBreak
    rcases hBreak with rfl | rfl <;> cases hDigit

theorem unbroken_int (value : Int) : Unbroken (toString value) := by
  cases value with
  | ofNat n => exact unbroken_repr n
  | negSucc n =>
    intro c hMem
    have hText : (toString (Int.negSucc n)).toList = '-' :: (n + 1).repr.toList := by
      show ("-" ++ (n + 1).repr).toList = _
      rw [String.toList_append]
      rfl
    rw [hText] at hMem
    rcases List.mem_cons.mp hMem with rfl | hMem
    · rfl
    · exact unbroken_repr (n + 1) c hMem

theorem mem_caseValue (hBreak : isBreak c = true) {value : CaseValue} :
    c ∈ (caseValue value).toList ↔ ∃ text ∈ value.texts, c ∈ text.toList := by
  cases value with
  | text value =>
    rw [caseValue, mem_quote hBreak]
    simp [CaseValue.texts]
  | int value =>
    refine iff_of_false ((unbroken_int value).not_mem hBreak) ?_
    rintro ⟨text, hText, -⟩
    cases hText

theorem mem_caseUnion (hBreak : isBreak c = true) {values : List CaseValue} :
    c ∈ (caseUnion values).toList ↔ ∃ text ∈ values.flatMap CaseValue.texts, c ∈ text.toList := by
  have hNever : Unbroken "never" := by decide
  have hBar : Unbroken " | " := by decide
  cases values with
  | nil => simpa [caseUnion] using hNever.not_mem hBreak
  | cons value rest =>
    rw [caseUnion, if_neg (by simp), mem_intercalate (hBar.not_mem hBreak)]
    simp only [List.mem_map, exists_exists_and_eq_and, mem_caseValue hBreak, List.mem_flatMap]
    constructor
    · rintro ⟨value, hValue, text, hText, hMem⟩
      exact ⟨text, ⟨value, hValue, hText⟩, hMem⟩
    · rintro ⟨text, ⟨value, hValue, hText⟩, hMem⟩
      exact ⟨value, hValue, text, hText, hMem⟩

end Spelling

theorem QualifiedName.unbroken_dotted {name : String} (h : Unbroken name) :
    Unbroken (dotted name) := by
  rw [unbroken_iff]
  intro c hBreak
  have hPoint : Unbroken "." := by decide
  rw [dotted, Text.mem_intercalate (hPoint.not_mem hBreak), segments_eq_parts]
  rintro ⟨segment, hSegment, hMem⟩
  obtain ⟨part, hPart, rfl⟩ := List.mem_map.mp hSegment
  rw [String.toList_ofList] at hMem
  exact h.not_mem hBreak
    (subset_of_mem_parts name.toList part (List.mem_filter.mp hPart).1 hMem)

theorem Layout.unbroken_indentation {layout : Layout} (h : Unbroken layout.unit) (extra : Nat) :
    Unbroken (layout.indentation extra) := by
  intro c hMem
  rw [indentation, String.toList_join] at hMem
  obtain ⟨unit, hUnit, hMem⟩ := List.mem_flatMap.mp hMem
  rw [List.eq_of_mem_replicate hUnit] at hMem
  exact h c hMem

/-! ## Types -/

namespace TsType

/-- No record is expanded in the type, and what stands in it as it is has no line break. -/
inductive Flat : TsType → Prop
  | scalar (keyword : Scalar) : Flat (.scalar keyword)
  | raw {text : String} (hText : Unbroken text) : Flat (.raw text)
  | reference {name : String} (hName : Unbroken name) : Flat (.reference name)
  | union {members : List TsType} (hMembers : ∀ member ∈ members, Flat member) :
    Flat (.union members)
  | container (kind : ContainerKind) {element : TsType} (hElement : Flat element) :
    Flat (.container kind element)
  | inlineEnum (values : List CaseValue) : Flat (.inlineEnum values)

/-- The type is written with this string, as a value of an enumeration that is expanded in it. -/
inductive HasValue : TsType → String → Prop
  | here {values : List CaseValue} {text : String} (hText : text ∈ values.flatMap CaseValue.texts) :
    HasValue (.inlineEnum values) text
  | member {members : List TsType} {type : TsType} {text : String} (hMember : type ∈ members)
    (hHas : HasValue type text) : HasValue (.union members) text
  | element {kind : ContainerKind} {type : TsType} {text : String} (hHas : HasValue type text) :
    HasValue (.container kind type) text

variable {layout : Layout} {type : TsType}

theorem mem_wrap (hBreak : isBreak c = true) {kind : ContainerKind} {element : String} :
    c ∈ (wrap kind element).toList ↔ c ∈ element.toList := by
  -- what is put around the element has no line break of its own
  have hFixed (text : String) (h : Unbroken text) : c ∉ text.toList := h.not_mem hBreak
  cases kind with
  | list =>
    have hSuffix := hFixed "[]" (by decide)
    rw [show wrap .list element = element ++ "[]" from rfl, String.toList_append, List.mem_append,
      or_iff_left hSuffix]
  | nonEmptyList =>
    have hOpening := hFixed "[" (by decide)
    have hSpread := hFixed ", ..." (by decide)
    have hClosing := hFixed "[]]" (by decide)
    rw [show wrap .nonEmptyList element = "[" ++ element ++ ", ..." ++ element ++ "[]]" from rfl]
    simp only [String.toList_append, List.mem_append, hOpening, hSpread, hClosing, false_or,
      or_false, or_self]
  | stringMap =>
    have hOpening := hFixed "\x7b [key: string]: " (by decide)
    have hClosing := hFixed " \x7d" (by decide)
    rw [show wrap .stringMap element = "\x7b [key: string]: " ++ element ++ " \x7d" from rfl]
    simp only [String.toList_append, List.mem_append, hOpening, hClosing, false_or, or_false]

theorem mem_elementText (hBreak : isBreak c = true) :
    c ∈ (type.elementText layout).toList ↔ c ∈ (type.renderMember layout).toList := by
  have hOpening : Unbroken "(" := by decide
  have hClosing : Unbroken ")" := by decide
  rw [elementText]
  split
  · rw [String.toList_append, String.toList_append, List.mem_append, List.mem_append,
      or_iff_left (hClosing.not_mem hBreak), or_iff_right (hOpening.not_mem hBreak)]
  · exact Iff.rfl

/-- The line breaks in the text of a type come from the string values in it. -/
theorem Flat.mem_renderMember (h : type.Flat) (hBreak : isBreak c = true) :
    c ∈ (type.renderMember layout).toList ↔ ∃ text, type.HasValue text ∧ c ∈ text.toList := by
  -- a type with no enumeration and no type in it has no string value
  have hNone {type : TsType} (hText : Unbroken (type.renderMember layout))
      (hNo : ∀ text, ¬type.HasValue text) :
      c ∈ (type.renderMember layout).toList ↔ ∃ text, type.HasValue text ∧ c ∈ text.toList :=
    iff_of_false (hText.not_mem hBreak) fun ⟨text, hHas, _⟩ => hNo text hHas
  induction h with
  | scalar keyword =>
    refine hNone ?_ fun text hHas => by cases hHas
    rw [renderMember]
    cases keyword <;> decide
  | raw hText =>
    refine hNone ?_ fun text hHas => by cases hHas
    rwa [renderMember]
  | reference hName =>
    refine hNone ?_ fun text hHas => by cases hHas
    rw [renderMember]
    exact QualifiedName.unbroken_dotted hName
  | union hMembers ih =>
    have hBar : Unbroken " | " := by decide
    rw [renderMember_union, mem_intercalate (hBar.not_mem hBreak)]
    simp only [List.mem_eraseDups, List.mem_map, exists_exists_and_eq_and]
    constructor
    · rintro ⟨member, hMember, hMem⟩
      obtain ⟨text, hHas, hText⟩ := (ih member hMember).mp hMem
      exact ⟨text, .member hMember hHas, hText⟩
    · rintro ⟨text, hHas, hText⟩
      cases hHas with
      | member hMember hHas => exact ⟨_, hMember, (ih _ hMember).mpr ⟨text, hHas, hText⟩⟩
  | container kind hElement ih =>
    rw [renderMember_container, mem_wrap hBreak, mem_elementText hBreak]
    constructor
    · intro hMem
      obtain ⟨text, hHas, hText⟩ := ih.mp hMem
      exact ⟨text, .element hHas, hText⟩
    · rintro ⟨text, hHas, hText⟩
      cases hHas with
      | element hHas => exact ih.mpr ⟨text, hHas, hText⟩
  | inlineEnum values =>
    rw [renderMember, Spelling.mem_caseUnion hBreak]
    constructor
    · rintro ⟨text, hValue, hText⟩
      exact ⟨text, .here hValue, hText⟩
    · rintro ⟨text, hHas, hText⟩
      cases hHas with
      | here hValue => exact ⟨text, hValue, hText⟩

theorem Flat.mem_render (h : type.Flat) (hBreak : isBreak c = true) :
    c ∈ (type.render layout).toList ↔ ∃ text, type.HasValue text ∧ c ∈ text.toList := by
  have hEnding : Unbroken type.ending := by
    unfold ending
    split
    · decide
    · decide
  rw [render, String.toList_append, List.mem_append, or_iff_left (hEnding.not_mem hBreak),
    h.mem_renderMember hBreak]

end TsType

/-! ## Declarations -/

namespace Declaration

/-- The number of properties or cases. -/
def size : Declaration → Nat
  | record _ properties => properties.length
  | enumeration _ cases => cases.length

/-- The declaration is written with this text, as the name of a property or of a case or as a string
value. -/
inductive HasText : Declaration → String → Prop
  | property {owner name : String} {properties : Table TsType} {type : TsType}
    (hProperty : (name, type) ∈ properties) : HasText (.record owner properties) name
  | propertyValue {owner name text : String} {properties : Table TsType} {type : TsType}
    (hProperty : (name, type) ∈ properties) (hType : type.HasValue text) :
    HasText (.record owner properties) text
  | case {owner name : String} {cases : Table CaseValue} {value : CaseValue}
    (hCase : (name, value) ∈ cases) : HasText (.enumeration owner cases) name
  | caseValue {owner name text : String} {cases : Table CaseValue} {value : CaseValue}
    (hCase : (name, value) ∈ cases) (hValue : text ∈ value.texts) :
    HasText (.enumeration owner cases) text

/-- The line that opens a record or an enumeration with members. -/
def openingLine (layout : Layout) : Declaration → String
  | record name _ => layout.indentation 0 ++ layout.recordStyle.opening name
  | enumeration name _ => layout.indentation 0 ++ ("export enum " ++ name ++ " \x7b")

/-- The line of a property or a case, up to what its key is followed by. -/
def entryLine (layout : Layout) (name after : String) : String :=
  layout.indentation 1 ++ Spelling.key name ++ after

/-- The lines of the properties, or of the cases. -/
def entryLines (layout : Layout) : Declaration → List String
  | record _ properties => properties.map fun entry =>
      entryLine layout entry.1 (": " ++ entry.2.render layout)
  | enumeration _ cases => cases.map fun entry =>
      entryLine layout entry.1 (" = " ++ Spelling.caseValue entry.2 ++ ",")

/-- The lines of a record or of an enumeration with members, one for each entry between the opening
line and the closing one. -/
def lines (layout : Layout) (declaration : Declaration) : List String :=
  declaration.openingLine layout ::
    (declaration.entryLines layout ++ [layout.indentation 0 ++ "\x7d"])

variable {layout : Layout} {declaration : Declaration}

theorem length_lines (layout : Layout) (declaration : Declaration) :
    (declaration.lines layout).length = declaration.size + 2 := by
  rw [lines, List.length_cons, List.length_append, List.length_singleton]
  cases declaration with
  | record name properties => rw [entryLines, List.length_map, size]
  | enumeration name cases => rw [entryLines, List.length_map, size]

theorem block_unlines (indentation opening : String) (lines : List String) :
    block indentation opening (unlines lines) =
      unlines ((indentation ++ opening) :: (lines ++ [indentation ++ "\x7d"])) := by
  have hBrace : "\x7d\n" = "\x7d" ++ "\n" := rfl
  rw [block, unlines_cons, unlines_append, unlines_cons (indentation ++ "\x7d"), unlines_nil,
    String.append_empty, hBrace]
  simp only [String.append_assoc]

theorem propertyLine_eq_entryLine (layout : Layout) (name : String) (type : TsType) :
    propertyLine layout name type = entryLine layout name (": " ++ type.render layout) ++ "\n" := by
  rw [propertyLine, entryLine]
  simp only [String.append_assoc]

theorem caseLine_eq_entryLine (layout : Layout) (name : String) (value : CaseValue) :
    caseLine layout name value =
      entryLine layout name (" = " ++ Spelling.caseValue value ++ ",") ++ "\n" := by
  have hComma : ",\n" = "," ++ "\n" := rfl
  rw [caseLine, entryLine, hComma]
  simp only [String.append_assoc]

theorem render_eq_unlines (hStyle : declaration.isEnumeration = true → layout.enumStyle = .native) :
    declaration.render layout = unlines (declaration.lines layout) := by
  cases declaration with
  | record name properties =>
    rw [render_record, lines, openingLine, ← block_unlines, body, entryLines, unlines,
      List.map_map]
    simp only [propertyLine_eq_entryLine, Function.comp_def]
  | enumeration name cases =>
    rw [render_native (hStyle rfl), lines, openingLine, ← block_unlines, entryLines, unlines,
      List.map_map]
    simp only [caseLine_eq_entryLine, Function.comp_def]

theorem mem_entryLine (hUnit : Unbroken layout.unit) (hBreak : isBreak c = true)
    (name after : String) : c ∈ (entryLine layout name after).toList ↔
      c ∈ name.toList ∨ c ∈ after.toList := by
  have hIndentation := (Layout.unbroken_indentation hUnit 1).not_mem hBreak
  rw [entryLine, String.toList_append, String.toList_append, List.mem_append, List.mem_append,
    or_iff_right hIndentation, Spelling.mem_key hBreak]

/-- The line breaks in the lines of the entries come from the names and the string values. -/
theorem mem_entryLines (hUnit : Unbroken layout.unit)
    (hTypes : ∀ entry ∈ declaration.properties, entry.2.Flat) (hBreak : isBreak c = true) :
    (∃ line ∈ declaration.entryLines layout, c ∈ line.toList) ↔
      ∃ text, declaration.HasText text ∧ c ∈ text.toList := by
  -- the fixed parts of a line have no break, which leaves the name and what follows it
  have hFixed (text : String) (h : Unbroken text) : c ∉ text.toList := h.not_mem hBreak
  cases declaration with
  | record owner properties =>
    have hColon := hFixed ": " (by decide)
    have hAfter (entry) (hEntry : entry ∈ properties) :
        c ∈ (": " ++ entry.2.render layout).toList ↔
          ∃ text, entry.2.HasValue text ∧ c ∈ text.toList := by
      rw [String.toList_append, List.mem_append, or_iff_right hColon,
        (hTypes entry hEntry).mem_render hBreak]
    simp only [entryLines, List.mem_map, exists_exists_and_eq_and, mem_entryLine hUnit hBreak]
    constructor
    · rintro ⟨entry, hEntry, hName | hType⟩
      · exact ⟨entry.1, .property hEntry, hName⟩
      · obtain ⟨text, hHas, hText⟩ := (hAfter entry hEntry).mp hType
        exact ⟨text, .propertyValue hEntry hHas, hText⟩
    · rintro ⟨text, hHas, hText⟩
      cases hHas with
      | property hProperty => exact ⟨_, hProperty, .inl hText⟩
      | propertyValue hProperty hType =>
        exact ⟨_, hProperty, .inr ((hAfter _ hProperty).mpr ⟨text, hType, hText⟩)⟩
  | enumeration owner cases =>
    have hEquals := hFixed " = " (by decide)
    have hComma := hFixed "," (by decide)
    have hAfter (value : CaseValue) :
        c ∈ (" = " ++ Spelling.caseValue value ++ ",").toList ↔
          ∃ text ∈ value.texts, c ∈ text.toList := by
      rw [String.toList_append, String.toList_append, List.mem_append, List.mem_append,
        or_iff_right hEquals, or_iff_left hComma, Spelling.mem_caseValue hBreak]
    simp only [entryLines, List.mem_map, exists_exists_and_eq_and, mem_entryLine hUnit hBreak,
      hAfter]
    constructor
    · rintro ⟨entry, hEntry, hName | ⟨text, hValue, hText⟩⟩
      · exact ⟨entry.1, .case hEntry, hName⟩
      · exact ⟨text, .caseValue hEntry hValue, hText⟩
    · rintro ⟨text, hHas, hText⟩
      cases hHas with
      | case hCase => exact ⟨_, hCase, .inl hText⟩
      | caseValue hCase hValue => exact ⟨_, hCase, .inr ⟨text, hValue, hText⟩⟩

theorem unbroken_openingLine (hUnit : Unbroken layout.unit) (hName : Unbroken declaration.name) :
    Unbroken (declaration.openingLine layout) := by
  have hIndentation := Layout.unbroken_indentation hUnit 0
  cases declaration with
  | record name properties =>
    refine unbroken_append hIndentation ?_
    cases layout.recordStyle with
    | interface => exact unbroken_append (unbroken_append (by decide) hName) (by decide)
    | typeAlias => exact unbroken_append (unbroken_append (by decide) hName) (by decide)
  | enumeration name cases =>
    exact unbroken_append hIndentation
      (unbroken_append (unbroken_append (by decide) hName) (by decide))

end Declaration

/-- A record, and an enumeration with members, is written in one line for each property or case and
two more, and the line breaks inside these lines are those of the names and the string values.  So
there are no more line breaks than lines just if no name and no string value has any.

The name of the declaration and its unit of indentation have no line breaks here, and its types
neither bring any nor expand records. -/
theorem one_line_each (layout : Layout) (declaration : Declaration)
    (hUnit : Unbroken layout.unit) (hName : Unbroken declaration.name)
    (hTypes : ∀ entry ∈ declaration.properties, entry.2.Flat)
    (hStyle : declaration.isEnumeration = true → layout.enumStyle = .native) :
    declaration.render layout = unlines (declaration.lines layout) ∧
    (declaration.lines layout).length = declaration.size + 2 ∧
    (∀ c, isBreak c = true → ((∃ line ∈ declaration.lines layout, c ∈ line.toList) ↔
      ∃ text, declaration.HasText text ∧ c ∈ text.toList)) ∧
    (breaks (declaration.render layout) = declaration.size + 2 ↔
      ∀ text, declaration.HasText text → Unbroken text) := by
  have hOpening := Declaration.unbroken_openingLine hUnit hName
  have hClosing : Unbroken (layout.indentation 0 ++ "\x7d") :=
    unbroken_append (Layout.unbroken_indentation hUnit 0) (by decide)
  have hRender := Declaration.render_eq_unlines hStyle
  have hBreaks (c : Char) (hBreak : isBreak c = true) :
      (∃ line ∈ declaration.lines layout, c ∈ line.toList) ↔
        ∃ text, declaration.HasText text ∧ c ∈ text.toList := by
    rw [← Declaration.mem_entryLines hUnit hTypes hBreak, Declaration.lines,
      List.exists_mem_cons_iff, or_iff_right (hOpening.not_mem hBreak)]
    simp only [List.mem_append, List.mem_singleton, or_and_right, exists_or, exists_eq_left,
      or_iff_left (hClosing.not_mem hBreak)]
  refine ⟨hRender, Declaration.length_lines layout declaration, hBreaks, ?_⟩
  -- there are as many breaks as lines just if no line has one inside
  rw [hRender, ← Declaration.length_lines layout declaration, breaks_unlines_eq_length_iff]
  constructor
  · intro hLines
    refine fun text hHas => unbroken_iff.mpr fun c hBreak hMem => ?_
    obtain ⟨line, hLine, hMem⟩ := (hBreaks c hBreak).mpr ⟨text, hHas, hMem⟩
    exact (hLines line hLine).not_mem hBreak hMem
  · intro hTexts
    refine fun line hLine => unbroken_iff.mpr fun c hBreak hMem => ?_
    obtain ⟨text, hHas, hMem⟩ := (hBreaks c hBreak).mp ⟨line, hLine, hMem⟩
    exact (hTexts text hHas).not_mem hBreak hMem

/-- A record with a name in quotes and the values of an enumeration. -/
def shape : Declaration :=
  .record "Shape"
    [("y-pos", .scalar .number), ("kind", .container .list (.inlineEnum [.text "\"", .int 2]))]

theorem shape_one_line_each :
    breaks (shape.render {}) = 4 ∧ ∀ text, shape.HasText text → Unbroken text := by
  have hTypes : ∀ entry ∈ shape.properties, entry.2.Flat := by
    rintro entry (_ | ⟨_, _ | ⟨_, ⟨⟩⟩⟩)
    · exact .scalar .number
    · exact .container .list (.inlineEnum _)
  obtain ⟨-, -, -, hBreaks⟩ := one_line_each {} shape (by decide) (by decide) hTypes nofun
  have hFour : breaks (shape.render {}) = 4 := by decide
  exact ⟨hFour, hBreaks.mp hFour⟩

/-- A line feed in the name of a property and a carriage return in the value of a case are written
as they are, inside the quotes, and there are more line breaks than lines. -/
theorem quoted_line_breaks :
    (Unbroken ({} : Layout).unit ∧ Unbroken "S" ∧ TsType.Flat (.scalar .number)) ∧
    ((Declaration.record "S" [("a\nb", .scalar .number)]).render {} =
        "export interface S \x7b\n\t\"a\nb\": number\n\x7d\n" ∧
      breaks ((Declaration.record "S" [("a\nb", .scalar .number)]).render {}) ≠ 1 + 2) ∧
    ((Declaration.enumeration "E" [("A", .text "a\rb")]).render {} =
        "export enum E \x7b\n\tA = \"a\rb\",\n\x7d\n" ∧
      breaks ((Declaration.enumeration "E" [("A", .text "a\rb")]).render {}) ≠ 1 + 2) := by
  refine ⟨⟨by decide, by decide, .scalar .number⟩, ⟨by decide, by decide⟩, by decide, by decide⟩

end Ambient
