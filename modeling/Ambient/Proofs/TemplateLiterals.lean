import Ambient.Spelling
import Mathlib.Data.List.Infix

/-!
# Template literals

A pattern becomes a template literal in two passes, one for each placeholder, and the second pass
runs over what the first one has written.  That makes no difference: both passes together are a
single pass with two rules (`Rewritten`), since neither rule writes anything that the other one
could read (`Independent`, `Rewritten.two_passes`).

Nothing is lost either.  A dollar sign stands before every placeholder of the new text, so the rules
can be read backwards (`Rewritten.swap`), and the way back is again a single pass or two passes.
Both ways meet in `template_simultaneous`.
-/

namespace Ambient

namespace Text

/-- What a single pass from left to right makes of a text.  Where the pattern of a rule stands, its
replacement is written and the pass goes on behind the pattern; every other character is kept. -/
inductive Rewritten (rules : List (List Char × List Char)) : List Char → List Char → Prop
  | done : Rewritten rules [] []
  | rule {pattern replacement rest text : List Char} : (pattern, replacement) ∈ rules →
      Rewritten rules rest text → Rewritten rules (pattern ++ rest) (replacement ++ text)
  | kept {c : Char} {rest text : List Char} : (∀ rule ∈ rules, ¬rule.1 <+: c :: rest) →
      Rewritten rules rest text → Rewritten rules (c :: rest) (c :: text)

/-- Whether a word neither stands in a text nor begins in it. -/
def Apart (word text : List Char) : Prop :=
  ∀ tail ∈ text.tails, tail ≠ [] → ¬word <+: tail ∧ ¬tail <+: word

instance (word text : List Char) : Decidable (Apart word text) :=
  inferInstanceAs (Decidable (∀ tail ∈ text.tails, tail ≠ [] → ¬word <+: tail ∧ ¬tail <+: word))

namespace Apart

variable {word text : List Char}

theorem tail {c : Char} (h : Apart word (c :: text)) : Apart word text :=
  fun tail hTail => h tail (by rw [List.tails_cons]; exact .tail _ hTail)

/-- Of two texts that are apart neither begins what begins with the other. -/
theorem not_begins (h : Apart word text) (hSome : text ≠ []) {whole : List Char}
    (hText : text <+: whole) : ¬word <+: whole := by
  intro hWord
  obtain ⟨hLonger, hShorter⟩ := h text ((List.mem_tails _ _).mpr (List.suffix_refl text)) hSome
  rcases List.prefix_or_prefix_of_prefix hWord hText with hPrefix | hPrefix
  · exact hLonger hPrefix
  · exact hShorter hPrefix

end Apart

/-! ## One pass -/

section Pass

variable {rules : List (List Char × List Char)} {text text' : List Char}

theorem exists_rewritten (hRules : ∀ rule ∈ rules, rule.1 ≠ []) (text : List Char) :
    ∃ text', Rewritten rules text text' := by
  induction hLength : text.length using Nat.strong_induction_on generalizing text with
  | _ length ih =>
    -- a match takes its whole pattern away, so what is left is shorter
    by_cases hMatch : ∃ rule ∈ rules, rule.1 <+: text
    · obtain ⟨⟨pattern, replacement⟩, hRule, rest, rfl⟩ := hMatch
      have hShorter : rest.length < length := by
        have hSome := List.length_pos_iff.mpr (hRules _ hRule)
        rw [← hLength, List.length_append]
        omega
      obtain ⟨text', hRest⟩ := ih _ hShorter rest rfl
      exact ⟨_, .rule hRule hRest⟩
    · cases text with
      | nil => exact ⟨[], .done⟩
      | cons c rest =>
        obtain ⟨text', hRest⟩ := ih _ (by rw [← hLength]; exact Nat.lt_succ_self _) rest rfl
        exact ⟨_, .kept (fun rule hRule hPrefix => hMatch ⟨rule, hRule, hPrefix⟩) hRest⟩

theorem Rewritten.congr {rules' : List (List Char × List Char)}
    (hSame : ∀ rule, rule ∈ rules ↔ rule ∈ rules') (h : Rewritten rules text text') :
    Rewritten rules' text text' := by
  induction h with
  | done => exact .done
  | rule hRule _ ih => exact .rule ((hSame _).mp hRule) ih
  | kept hKept _ ih => exact .kept (fun rule hRule => hKept rule ((hSame rule).mpr hRule)) ih

/-- A word that is apart from all that the rules write begins the new text only if it began the
old one. -/
theorem Rewritten.begins_before (h : Rewritten rules text text') {word : List Char}
    (hWord : ∀ rule ∈ rules, Apart rule.2 word) (hPrefix : word <+: text') : word <+: text := by
  induction h generalizing word with
  | done => exact hPrefix
  | @rule pattern replacement rest text hRule _ _ =>
    by_cases hNone : word = []
    · exact hNone ▸ List.nil_prefix
    · exact absurd (List.prefix_append _ _) ((hWord _ hRule).not_begins hNone hPrefix)
  | @kept c rest text _ _ ih =>
    cases word with
    | nil => exact List.nil_prefix
    | cons first others =>
      obtain ⟨rfl, hOthers⟩ := List.cons_prefix_cons.mp hPrefix
      exact List.cons_prefix_cons.mpr ⟨rfl, ih (fun rule hRule => (hWord rule hRule).tail) hOthers⟩

/-- Whether each rule only puts a character before its pattern, one that begins no pattern and
stands in none. -/
def Marks (rules : List (List Char × List Char)) : Prop :=
  ∀ rule ∈ rules, rule.2.tail = rule.1 ∧ rule.1 ≠ [] ∧ ∀ other ∈ rules, Apart other.2 rule.1

instance (rules : List (List Char × List Char)) : Decidable (Marks rules) :=
  inferInstanceAs (Decidable (∀ rule ∈ rules,
    rule.2.tail = rule.1 ∧ rule.1 ≠ [] ∧ ∀ other ∈ rules, Apart other.2 rule.1))

/-- After marking, no pattern begins the text: what comes first is the mark before it. -/
theorem Rewritten.not_begins (hMarks : Marks rules) (h : Rewritten rules text text')
    {rule : List Char × List Char} (hRule : rule ∈ rules) : ¬rule.1 <+: text' := by
  obtain ⟨-, hSome, hApart⟩ := hMarks rule hRule
  intro hPrefix
  have hBefore := h.begins_before hApart hPrefix
  cases h with
  | done => exact hSome (List.prefix_nil.mp hBefore)
  | rule hOther => exact (hApart _ hOther).not_begins hSome hPrefix (List.prefix_append _ _)
  | kept hKept => exact hKept rule hRule hBefore

/-- Marking is undone by the rules read backwards. -/
theorem Rewritten.swap (hMarks : Marks rules) (h : Rewritten rules text text') :
    Rewritten (rules.map Prod.swap) text' text := by
  induction h with
  | done => exact .done
  | rule hRule _ ih => exact .rule (List.mem_map_of_mem hRule) ih
  | @kept c rest text _ hRest ih =>
    refine .kept (fun back hBack hPrefix => ?_) ih
    obtain ⟨rule, hRule, rfl⟩ := List.mem_map.mp hBack
    -- behind a mark that was kept there would be a pattern without a mark of its own
    refine hRest.not_begins hMarks hRule ?_
    obtain ⟨hTail, -, -⟩ := hMarks rule hRule
    rw [← hTail, ← List.drop_one]
    exact List.IsPrefix.drop hPrefix 1

end Pass

/-! ## Replacing one pattern -/

section Replacing

variable {pattern replacement text text' : List Char}

theorem replaceFrom_append (skipped rest : List Char) :
    replaceFrom pattern replacement skipped.length (skipped ++ rest) =
      replaceAll pattern replacement rest := by
  induction skipped with
  | nil => rfl
  | cons c others ih => exact ih

/-- A pattern that comes first is replaced. -/
theorem replaceAll_append (hPattern : pattern ≠ []) (rest : List Char) :
    replaceAll pattern replacement (pattern ++ rest) =
      replacement ++ replaceAll pattern replacement rest := by
  obtain ⟨c, others, rfl⟩ := List.exists_cons_of_ne_nil hPattern
  have hHere : (c :: others).isPrefixOf (c :: (others ++ rest)) = true :=
    List.isPrefixOf_iff_prefix.mpr (List.prefix_append (c :: others) rest)
  rw [List.cons_append, replaceAll, replaceFrom, if_pos hHere, List.length_cons,
    Nat.add_sub_cancel, replaceFrom_append]

/-- A character at which the pattern does not stand is kept. -/
theorem replaceAll_cons {c : Char} {rest : List Char} (h : ¬pattern <+: c :: rest) :
    replaceAll pattern replacement (c :: rest) = c :: replaceAll pattern replacement rest := by
  have hElsewhere : ¬pattern.isPrefixOf (c :: rest) = true :=
    fun hHere => h (List.isPrefixOf_iff_prefix.mp hHere)
  rw [replaceAll, replaceFrom, if_neg hElsewhere]
  rfl

/-- Text apart from the pattern is passed over. -/
theorem replaceAll_append_of_apart {kept : List Char} (h : Apart pattern kept) (rest : List Char) :
    replaceAll pattern replacement (kept ++ rest) =
      kept ++ replaceAll pattern replacement rest := by
  induction kept with
  | nil => rfl
  | cons c others ih =>
    have hElsewhere : ¬pattern <+: c :: (others ++ rest) :=
      h.not_begins (List.cons_ne_nil c others) (List.prefix_append (c :: others) rest)
    rw [List.cons_append, replaceAll_cons hElsewhere, ih h.tail, List.cons_append]

theorem Rewritten.eq_replaceAll (hPattern : pattern ≠ [])
    (h : Rewritten [(pattern, replacement)] text text') :
    text' = replaceAll pattern replacement text := by
  induction h with
  | done => rfl
  | rule hRule _ ih =>
    obtain ⟨rfl, rfl⟩ := Prod.mk.inj (List.mem_singleton.mp hRule)
    rw [replaceAll_append hPattern, ih]
  | kept hKept _ ih => rw [replaceAll_cons (hKept _ (List.mem_singleton_self _)), ih]

/-- Replacing a pattern is a pass with one rule. -/
theorem rewritten_replaceAll (hPattern : pattern ≠ []) (text : List Char) :
    Rewritten [(pattern, replacement)] text (replaceAll pattern replacement text) := by
  obtain ⟨text', h⟩ := @exists_rewritten [(pattern, replacement)] (by simpa using hPattern) text
  exact h.eq_replaceAll hPattern ▸ h

end Replacing

/-! ## Two passes -/

/-- Two rules that do not get in each other's way. -/
structure Independent (first second : List Char × List Char) : Prop where
  first_some : first.1 ≠ []
  second_some : second.1 ≠ []
  /-- The first pass leaves the second pattern alone. -/
  patterns : Apart first.1 second.1
  /-- The second pass leaves alone what the first one has written. -/
  written : Apart second.1 first.2
  /-- The first pass writes nothing that could be a piece of the second pattern. -/
  pieces : Apart first.2 second.1

section Independent

variable {first second : List Char × List Char} {text text' : List Char}

/-- Two passes, one with each rule, give what a single pass with both gives. -/
theorem Rewritten.two_passes (hApart : Independent first second)
    (h : Rewritten [first, second] text text') :
    replaceAll second.1 second.2 (replaceAll first.1 first.2 text) = text' := by
  induction h with
  | done => rfl
  | rule hRule _ ih =>
    simp only [List.mem_cons, List.not_mem_nil, or_false] at hRule
    rcases hRule with rfl | rfl
    · rw [replaceAll_append hApart.first_some, replaceAll_append_of_apart hApart.written, ih]
    · rw [replaceAll_append_of_apart hApart.patterns, replaceAll_append hApart.second_some, ih]
  | @kept c rest text hKept _ ih =>
    have hFirst : ¬first.1 <+: c :: rest := hKept first (by simp)
    have hSecond : ¬second.1 <+: c :: rest := hKept second (by simp)
    -- the first pass has not made the second pattern stand here
    have hStill : ¬second.1 <+: c :: replaceAll first.1 first.2 rest := by
      rw [← replaceAll_cons hFirst]
      exact fun hPrefix => hSecond ((rewritten_replaceAll hApart.first_some _).begins_before
        (by simpa using hApart.pieces) hPrefix)
    rw [replaceAll_cons hFirst, replaceAll_cons hStill, ih]

theorem rewritten_iff (hApart : Independent first second) :
    Rewritten [first, second] text text' ↔
      text' = replaceAll second.1 second.2 (replaceAll first.1 first.2 text) := by
  refine ⟨fun h => (h.two_passes hApart).symm, ?_⟩
  rintro rfl
  obtain ⟨text', h⟩ := @exists_rewritten [first, second]
    (by simpa using ⟨hApart.first_some, hApart.second_some⟩) text
  rwa [h.two_passes hApart]

end Independent

end Text

namespace Spelling

open Text

/-- How the placeholders of a pattern are written in a template literal. -/
def placeholderRules : List (List Char × List Char) :=
  [("{string}".toList, "${string}".toList), ("{number}".toList, "${number}".toList)]

/-- The text of a pattern is what one pass makes of it that writes a dollar sign before each
placeholder. -/
theorem rewritten_templateBody {pattern text : List Char} :
    Rewritten placeholderRules pattern text ↔ text = templateBody pattern :=
  rewritten_iff (by constructor <;> decide)

/-- The dollar signs before placeholders can be taken away again, in two passes or in one. -/
theorem undo_templateBody (pattern : List Char) :
    Rewritten (placeholderRules.map Prod.swap) (templateBody pattern) pattern :=
  (rewritten_templateBody.mpr rfl).swap (by decide)

/-- Making a template literal of a pattern is a single pass that writes a dollar sign before each
placeholder of the pattern and changes nothing else.  The pass that takes the dollar signs before
placeholders away gives the pattern back, as one pass or as two in either order, so no two patterns
have the same template literal. -/
theorem template_simultaneous :
    (∀ pattern : String, ∃ body : List Char,
      (template pattern).toList = '`' :: (body ++ ['`']) ∧
      (∀ text, Rewritten placeholderRules pattern.toList text ↔ text = body) ∧
      (∀ text, Rewritten (placeholderRules.map Prod.swap) body text ↔ text = pattern.toList) ∧
      replaceAll "${number}".toList "{number}".toList
        (replaceAll "${string}".toList "{string}".toList body) = pattern.toList ∧
      replaceAll "${string}".toList "{string}".toList
        (replaceAll "${number}".toList "{number}".toList body) = pattern.toList) ∧
    Function.Injective template := by
  -- no occurrence of one placeholder overlaps the other, so passes can be taken one by one
  have hString : Independent ("${string}".toList, "{string}".toList)
      ("${number}".toList, "{number}".toList) := by constructor <;> decide
  have hNumber : Independent ("${number}".toList, "{number}".toList)
      ("${string}".toList, "{string}".toList) := by constructor <;> decide
  have hBack (pattern : List Char) : replaceAll "${number}".toList "{number}".toList
      (replaceAll "${string}".toList "{string}".toList (templateBody pattern)) = pattern :=
    (undo_templateBody pattern).two_passes hString
  constructor
  · intro pattern
    have hUndo := undo_templateBody pattern.toList
    refine ⟨templateBody pattern.toList, by rw [template, String.toList_ofList]; rfl,
      fun _ => rewritten_templateBody, fun text => ?_, hBack _, ?_⟩
    · refine (rewritten_iff hString).trans ?_
      rw [hBack]
    · exact Rewritten.two_passes hNumber (hUndo.congr fun _ => (List.Perm.swap _ _ []).mem_iff)
  · intro pattern other hSame
    have hBody : templateBody pattern.toList = templateBody other.toList := by
      have hText := congrArg String.toList hSame
      rw [template, template, String.toList_ofList, String.toList_ofList] at hText
      exact List.append_cancel_right (List.cons.inj hText).2
    rw [← String.toList_inj, ← hBack pattern.toList, hBody, hBack]

end Spelling

end Ambient
