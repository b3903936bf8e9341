import Mathlib.Logic.Function.Basic

/-!
# Text line by line

A text that ends with a newline, or is empty, consists of whole lines (`IsLines`), and whole lines
at its start are the first of them (`IsLines.split`).

There are two ways to move such a text to the right.  One puts a unit of indentation before each
line.  The other leaves the first line where it is and puts the unit behind each newline (`hang`);
it is the one that goes through concatenation, and `exists_lines` brings the two together.
-/

namespace Ambient.Text

/-! ## Text on one line -/

/-- Text without a newline. -/
def OneLine (text : String) : Prop :=
  '\n' ∉ text.toList

instance : DecidablePred OneLine := fun text =>
  inferInstanceAs (Decidable ('\n' ∉ text.toList))

theorem oneLine_append {first second : String} :
    OneLine (first ++ second) ↔ OneLine first ∧ OneLine second := by
  simp [OneLine]

theorem oneLine_join {texts : List String} (h : ∀ text ∈ texts, OneLine text) :
    OneLine (String.join texts) := by
  intro hMem
  rw [String.toList_join] at hMem
  obtain ⟨text, hText, hMem⟩ := List.mem_flatMap.mp hMem
  exact h text hText hMem

theorem oneLine_intercalate {separator : String} (hSeparator : OneLine separator)
    {texts : List String} (h : ∀ text ∈ texts, OneLine text) :
    OneLine (separator.intercalate texts) := by
  induction texts with
  | nil =>
    rw [String.intercalate_nil]
    decide
  | cons first rest ih =>
    obtain ⟨hFirst, hRest⟩ := List.forall_mem_cons.mp h
    cases rest with
    | nil =>
      rw [String.intercalate_singleton]
      exact hFirst
    | cons second others =>
      rw [String.intercalate_cons_cons]
      exact oneLine_append.mpr ⟨oneLine_append.mpr ⟨hFirst, hSeparator⟩, ih hRest⟩

/-! ## Hanging indentation -/

/-- The characters of a text with `unit` put in behind each newline. -/
def hangChars (unit : List Char) : List Char → List Char
  | [] => []
  | c :: rest => c :: ((if c = '\n' then unit else []) ++ hangChars unit rest)

/-- The text with `unit` behind each newline, so that all its lines but the first are indented. -/
def hang (unit text : String) : String :=
  String.ofList (hangChars unit.toList text.toList)

section Hang

variable {unit : String}

theorem hangChars_append (unit first second : List Char) :
    hangChars unit (first ++ second) = hangChars unit first ++ hangChars unit second := by
  induction first with
  | nil => rfl
  | cons c rest ih =>
    rw [List.cons_append, hangChars, hangChars, ih, List.cons_append, List.append_assoc]

theorem hangChars_of_not_mem {unit chars : List Char} (h : '\n' ∉ chars) :
    hangChars unit chars = chars := by
  induction chars with
  | nil => rfl
  | cons c rest ih =>
    rw [hangChars, if_neg fun hc : c = '\n' => h (hc ▸ .head _), ih fun hMem => h (.tail _ hMem)]
    rfl

/-- The first character of a text stays in its place, so nothing is lost. -/
theorem hangChars_injective (unit : List Char) : Function.Injective (hangChars unit) := by
  intro first
  induction first with
  | nil =>
    intro second h
    cases second with
    | nil => rfl
    | cons c rest => cases h
  | cons c rest ih =>
    intro second h
    cases second with
    | nil => cases h
    | cons c' rest' =>
      obtain ⟨rfl, hRest⟩ := List.cons.inj h
      rw [ih (List.append_cancel_left hRest)]

theorem hang_append (first second : String) :
    hang unit (first ++ second) = hang unit first ++ hang unit second := by
  rw [hang, String.toList_append, hangChars_append, String.ofList_append]
  rfl

theorem hang_of_oneLine {text : String} (h : OneLine text) : hang unit text = text := by
  rw [hang, hangChars_of_not_mem h, String.ofList_toList]

theorem hang_newline : hang unit "\n" = "\n" ++ unit := by
  rw [← String.toList_inj, hang, String.toList_ofList, String.toList_append]
  exact congrArg ('\n' :: ·) (List.append_nil _)

theorem hang_injective (unit : String) : Function.Injective (hang unit) := by
  intro first second h
  exact String.toList_inj.mp (hangChars_injective unit.toList (String.ofList_injective h))

theorem hang_intercalate {separator : String} (hSeparator : OneLine separator)
    (texts : List String) :
    hang unit (separator.intercalate texts) = separator.intercalate (texts.map (hang unit)) := by
  induction texts with
  | nil =>
    rw [List.map_nil, String.intercalate_nil]
    exact hang_of_oneLine (by decide)
  | cons first rest ih =>
    cases rest with
    | nil => rw [List.map_cons, List.map_nil, String.intercalate_singleton,
        String.intercalate_singleton]
    | cons second others =>
      rw [List.map_cons] at ih ⊢
      rw [List.map_cons, String.intercalate_cons_cons, String.intercalate_cons_cons, hang_append,
        hang_append, hang_of_oneLine hSeparator, ih]

end Hang

/-! ## Lines -/

/-- The text of lines, each of them ended by a newline. -/
def unlines (lines : List String) : String :=
  String.join (lines.map (· ++ "\n"))

theorem unlines_nil : unlines [] = "" := rfl

theorem unlines_cons (line : String) (lines : List String) :
    unlines (line :: lines) = line ++ "\n" ++ unlines lines := by
  rw [unlines, List.map_cons, String.join_cons]
  rfl

theorem unlines_append (first second : List String) :
    unlines (first ++ second) = unlines first ++ unlines second := by
  rw [unlines, List.map_append, String.join_append]
  rfl

/-- The text consists of these lines. -/
structure IsLines (text : String) (lines : List String) : Prop where
  oneLine : ∀ line ∈ lines, OneLine line
  eq_unlines : text = unlines lines

theorem IsLines.append {first second : String} {lines others : List String}
    (hFirst : IsLines first lines) (hSecond : IsLines second others) :
    IsLines (first ++ second) (lines ++ others) where
  oneLine line hLine := by
    rcases List.mem_append.mp hLine with hLine | hLine
    · exact hFirst.oneLine line hLine
    · exact hSecond.oneLine line hLine
  eq_unlines := by rw [unlines_append, ← hFirst.eq_unlines, ← hSecond.eq_unlines]

theorem isLines_empty : IsLines "" [] where
  oneLine line hLine := by cases hLine
  eq_unlines := rfl

/-- The text consists of whole lines. -/
def Whole (text : String) : Prop :=
  ∃ lines, IsLines text lines

/-- The lines of a text with a newline after it, and what hangs from its first line. -/
theorem exists_lines (unit text : String) :
    ∃ first more, OneLine first ∧ (∀ line ∈ more, OneLine line) ∧
      text ++ "\n" = unlines (first :: more) ∧
      hang unit text ++ "\n" = first ++ "\n" ++ unlines (more.map (unit ++ ·)) := by
  obtain ⟨chars, rfl⟩ : ∃ chars, text = String.ofList chars :=
    ⟨text.toList, String.ofList_toList.symm⟩
  -- a character before the text becomes a line of its own or joins the first line
  induction chars with
  | nil => exact ⟨"", [], by decide, by simp, rfl, rfl⟩
  | cons c rest ih =>
    obtain ⟨first, more, hFirst, hMore, hText, hHang⟩ := ih
    rw [String.ofList_cons, hang_append, String.append_assoc, String.append_assoc, hText, hHang]
    by_cases hNewline : c = '\n'
    · subst hNewline
      have hSingle : String.singleton '\n' = "\n" := rfl
      refine ⟨"", first :: more, by decide, List.forall_mem_cons.mpr ⟨hFirst, hMore⟩, ?_, ?_⟩
      · rw [unlines_cons "" (first :: more), hSingle]
        rfl
      · rw [hSingle, hang_newline, List.map_cons, unlines_cons]
        simp only [String.append_assoc, String.empty_append]
    · have hSingle : OneLine (String.singleton c) := by
        simpa [OneLine] using fun hc : '\n' = c => hNewline hc.symm
      refine ⟨String.singleton c ++ first, more, oneLine_append.mpr ⟨hSingle, hFirst⟩, hMore,
        ?_, ?_⟩
      · rw [unlines_cons, unlines_cons]
        simp only [String.append_assoc]
      · rw [hang_of_oneLine hSingle]
        simp only [String.append_assoc]

theorem whole_append_newline (text : String) : Whole (text ++ "\n") := by
  obtain ⟨first, more, hFirst, hMore, hText, -⟩ := exists_lines "" text
  exact ⟨first :: more, List.forall_mem_cons.mpr ⟨hFirst, hMore⟩, hText⟩

theorem whole_empty : Whole "" :=
  ⟨[], isLines_empty⟩

theorem Whole.append {first second : String} (hFirst : Whole first) (hSecond : Whole second) :
    Whole (first ++ second) := by
  obtain ⟨lines, hLines⟩ := hFirst
  obtain ⟨others, hOthers⟩ := hSecond
  exact ⟨lines ++ others, hLines.append hOthers⟩

theorem whole_join {texts : List String} (h : ∀ text ∈ texts, Whole text) :
    Whole (String.join texts) := by
  induction texts with
  | nil => exact whole_empty
  | cons first rest ih =>
    obtain ⟨hFirst, hRest⟩ := List.forall_mem_cons.mp h
    rw [String.join_cons]
    exact hFirst.append (ih hRest)

/-- A text is cut at its first newline in one way only. -/
theorem chars_eq_of_append_newline {first first' rest rest' : List Char} (hFirst : '\n' ∉ first)
    (hFirst' : '\n' ∉ first') (h : first ++ '\n' :: rest = first' ++ '\n' :: rest') :
    first = first' ∧ rest = rest' := by
  -- neither text has a newline, so the two come to theirs at the same character
  induction first generalizing first' with
  | nil =>
    cases first' with
    | nil => exact ⟨rfl, (List.cons.inj h).2⟩
    | cons c more => exact absurd ((List.cons.inj h).1 ▸ .head _) hFirst'
  | cons c more ih =>
    cases first' with
    | nil => exact absurd ((List.cons.inj h).1 ▸ .head _) hFirst
    | cons c' more' =>
      rw [List.cons_append, List.cons_append] at h
      obtain ⟨rfl, hTail⟩ := List.cons.inj h
      have hMore := List.not_mem_of_not_mem_cons hFirst
      have hMore' := List.not_mem_of_not_mem_cons hFirst'
      obtain ⟨rfl, hRest⟩ := ih hMore hMore' hTail
      exact ⟨rfl, hRest⟩

theorem eq_of_append_newline {line line' rest rest' : String} (hLine : OneLine line)
    (hLine' : OneLine line') (h : line ++ "\n" ++ rest = line' ++ "\n" ++ rest') :
    line = line' ∧ rest = rest' := by
  have hChars := congrArg String.toList h
  simp only [String.append_assoc, String.toList_append] at hChars
  obtain ⟨hSame, hRest⟩ := chars_eq_of_append_newline hLine hLine' hChars
  exact ⟨String.toList_inj.mp hSame, String.toList_inj.mp hRest⟩

/-- The first line of a text is what stands before its first newline. -/
theorem exists_cons_of_unlines {line rest : String} {lines : List String} (hLine : OneLine line)
    (hLines : ∀ line ∈ lines, OneLine line) (h : line ++ "\n" ++ rest = unlines lines) :
    ∃ more, lines = line :: more ∧ rest = unlines more := by
  cases lines with
  | nil =>
    have hNil := congrArg String.toList h
    simp [unlines_nil] at hNil
  | cons line' more =>
    rw [unlines_cons] at h
    obtain ⟨rfl, hRest⟩ := eq_of_append_newline hLine (hLines line' (.head _)) h
    exact ⟨more, rfl, hRest⟩

/-- Whole lines at the start of a text are the first of its lines. -/
theorem IsLines.split {first rest : String} {lines : List String}
    (h : IsLines (first ++ rest) lines) (hFirst : Whole first) :
    ∃ above below, lines = above ++ below ∧ IsLines first above ∧ IsLines rest below := by
  obtain ⟨above, hAbove, rfl⟩ := hFirst
  obtain ⟨hLines, hText⟩ := h
  -- both texts start with the same line, and it ends at the first newline
  induction above generalizing lines with
  | nil => exact ⟨[], lines, rfl, ⟨hAbove, rfl⟩, hLines, by simpa [unlines_nil] using hText⟩
  | cons line above ih =>
    rw [unlines_cons, String.append_assoc] at hText
    obtain ⟨more, rfl, hRest⟩ := exists_cons_of_unlines (hAbove line (.head _)) hLines hText
    obtain ⟨above', below, rfl, hAbove', hBelow⟩ := ih
      (fun other hOther => hAbove other (.tail _ hOther))
      (fun other hOther => hLines other (.tail _ hOther)) hRest
    refine ⟨line :: above', below, rfl, ⟨fun other hOther => hLines other ?_, ?_⟩, hBelow⟩
    · exact List.mem_append_left _ hOther
    · rw [unlines_cons, unlines_cons, hAbove'.eq_unlines]

/-- The first line of a text starts with what the text starts with. -/
theorem IsLines.exists_first {start rest : String} (hStart : OneLine start) {lines : List String}
    (h : IsLines (start ++ rest ++ "\n") lines) :
    ∃ tail more, lines = (start ++ tail) :: more := by
  obtain ⟨tail, others, hTail, -, hRest, -⟩ := exists_lines "" rest
  have hText : (start ++ tail) ++ "\n" ++ unlines others = unlines lines := by
    have hAssoc : start ++ rest ++ "\n" = start ++ (rest ++ "\n") := String.append_assoc
    rw [← h.eq_unlines, hAssoc, hRest, unlines_cons]
    simp only [String.append_assoc]
  obtain ⟨more, hLines, -⟩ :=
    exists_cons_of_unlines (oneLine_append.mpr ⟨hStart, hTail⟩) h.oneLine hText
  exact ⟨tail, more, hLines⟩

/-! ## Indented lines -/

/-- The second text has the lines of the first one, each with `unit` before it. -/
def Indented (unit text indented : String) : Prop :=
  ∃ lines, IsLines text lines ∧ indented = unlines (lines.map (unit ++ ·))

section Indented

variable {unit : String}

theorem indented_newline (text : String) :
    Indented unit (text ++ "\n") (unit ++ hang unit text ++ "\n") := by
  obtain ⟨first, more, hFirst, hMore, hText, hHang⟩ := exists_lines unit text
  refine ⟨first :: more, ⟨List.forall_mem_cons.mpr ⟨hFirst, hMore⟩, hText⟩, ?_⟩
  rw [List.map_cons, unlines_cons, String.append_assoc, hHang]
  simp only [String.append_assoc]

theorem indented_line {line : String} (h : OneLine line) :
    Indented unit (line ++ "\n") (unit ++ line ++ "\n") := by
  have hLine : Indented unit (line ++ "\n") (unit ++ hang unit line ++ "\n") :=
    indented_newline line
  rwa [hang_of_oneLine h] at hLine

theorem Indented.append {first first' second second' : String} (hFirst : Indented unit first first')
    (hSecond : Indented unit second second') :
    Indented unit (first ++ second) (first' ++ second') := by
  obtain ⟨lines, hLines, rfl⟩ := hFirst
  obtain ⟨others, hOthers, rfl⟩ := hSecond
  exact ⟨lines ++ others, hLines.append hOthers, by rw [List.map_append, unlines_append]⟩

theorem indented_empty : Indented unit "" "" :=
  ⟨[], isLines_empty, rfl⟩

theorem indented_join {α : Type} {items : List α} {text indented : α → String}
    (h : ∀ item ∈ items, Indented unit (text item) (indented item)) :
    Indented unit (String.join (items.map text)) (String.join (items.map indented)) := by
  induction items with
  | nil => exact indented_empty
  | cons first rest ih =>
    obtain ⟨hFirst, hRest⟩ := List.forall_mem_cons.mp h
    rw [List.map_cons, List.map_cons, String.join_cons, String.join_cons]
    exact hFirst.append (ih hRest)

end Indented

end Ambient.Text
