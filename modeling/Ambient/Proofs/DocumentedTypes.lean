import Ambient.Extraction
import Ambient.Proofs.FieldType
import Ambient.Proofs.Renaming
import Ambient.Proofs.Splitting

/-!
# Documented types

A field may name its type in its doc comment, behind the first tag `@var` that a blank follows.
What stands there is read up to the first blank outside brackets.  So a type is read back whole
wherever nothing before it looks like its tag, however its brackets nest and however many lines it
goes over; and a comment gives no type just if nothing but blanks stands behind its tags
(`documented_type_kept`).
-/

namespace Ambient.Extraction

open Source Text
open Renaming (isShown)

/-! ## Tags -/

/-- Whether the first character of a text is a blank. -/
def startsBlank (text : List Char) : Bool :=
  text.head?.any isBlank

/-- Whether a tag stands in a text with `rest` behind it.  A tag is followed by a blank. -/
def Tagged (text rest : List Char) : Prop :=
  startsBlank rest = true ∧ ∃ before, text = before ++ typeTag ++ rest

theorem Tagged.cons {text rest : List Char} (h : Tagged text rest) (c : Char) :
    Tagged (c :: text) rest := by
  obtain ⟨hBlank, before, rfl⟩ := h
  exact ⟨hBlank, c :: before, rfl⟩

theorem afterTag?_here {rest : List Char} (h : startsBlank rest = true) :
    afterTag? (typeTag ++ rest) = some rest := by
  have hPrefix : typeTag.isPrefixOf (typeTag ++ rest) = true :=
    List.isPrefixOf_iff_prefix.mpr (List.prefix_append _ _)
  have hTag : (typeTag.isPrefixOf (typeTag ++ rest) && startsBlank rest) = true := by
    rw [hPrefix, h, Bool.and_self]
  exact if_pos hTag

theorem afterTag?_later {c : Char} {text : List Char}
    (h : ∀ rest, startsBlank rest = true → c :: text ≠ typeTag ++ rest) :
    afterTag? (c :: text) = afterTag? text := by
  rw [afterTag?, if_neg]
  rw [Bool.and_eq_true, List.isPrefixOf_iff_prefix]
  rintro ⟨⟨rest, hText⟩, hBlank⟩
  have hDrop : text.drop 3 = rest := congrArg (List.drop 4) hText.symm
  exact h rest (hDrop ▸ hBlank) hText.symm

theorem tagged_of_afterTag? {text rest : List Char} (h : afterTag? text = some rest) :
    Tagged text rest := by
  induction text with
  | nil => cases h
  | cons c text ih =>
    by_cases hHere : ∃ rest, startsBlank rest = true ∧ c :: text = typeTag ++ rest
    · obtain ⟨rest', hBlank, hText⟩ := hHere
      rw [hText, afterTag?_here hBlank] at h
      obtain rfl := Option.some.inj h
      exact ⟨hBlank, [], hText⟩
    · rw [afterTag?_later (by simpa using hHere)] at h
      exact (ih h).cons c

/-- Wherever a tag stands, one is found, and it is no later one. -/
theorem Tagged.exists_afterTag? {text rest : List Char} (h : Tagged text rest) :
    ∃ first, afterTag? text = some first ∧ rest <:+ first := by
  obtain ⟨hBlank, before, rfl⟩ := h
  induction before with
  | nil => exact ⟨rest, afterTag?_here hBlank, List.suffix_refl rest⟩
  | cons c before ih =>
    by_cases hHere : ∃ rest', startsBlank rest' = true ∧
        c :: (before ++ typeTag ++ rest) = typeTag ++ rest'
    · obtain ⟨first, hFirst, hText⟩ := hHere
      refine ⟨first, by rw [← afterTag?_here hFirst, ← hText]; rfl, ?_⟩
      -- the tag in front leaves more text behind it
      have hSuffix : rest <:+ typeTag ++ first := ⟨c :: before ++ typeTag, hText⟩
      refine List.suffix_of_suffix_length_le hSuffix (List.suffix_append _ _) ?_
      have hLength := congrArg List.length hText
      simp only [List.length_cons, List.length_append] at hLength
      omega
    · rw [List.cons_append, List.cons_append, afterTag?_later (by simpa using hHere)]
      exact ih

theorem afterTag?_eq_none_iff {text : List Char} :
    afterTag? text = none ↔ ∀ rest, ¬Tagged text rest := by
  constructor
  · intro hNone rest hTagged
    obtain ⟨first, hFirst, -⟩ := hTagged.exists_afterTag?
    cases hNone.symm.trans hFirst
  · intro hNone
    cases hFirst : afterTag? text with
    | none => rfl
    | some first => exact absurd (tagged_of_afterTag? hFirst) (hNone first)

/-- Text without a tag is passed over, also where it ends like a tag. -/
theorem afterTag?_append {before rest : List Char} (hBefore : ∀ rest, ¬Tagged before rest)
    (hRest : startsBlank rest = true) : afterTag? (before ++ typeTag ++ rest) = some rest := by
  induction before with
  | nil => exact afterTag?_here hRest
  | cons c before ih =>
    rw [List.cons_append, List.cons_append, afterTag?_later]
    · exact ih fun rest hTagged => hBefore rest (hTagged.cons c)
    · intro first hFirst hText
      -- a tag here would lie in the text before, or overlap with the one behind it
      match before with
      | [] => cases hText
      | [_] => cases hText
      | [_, _] => cases hText
      | [_, _, _] =>
        obtain rfl : typeTag ++ rest = first := congrArg (List.drop 4) hText
        cases hFirst
      | b :: d :: e :: f :: others =>
        obtain rfl : f :: others ++ typeTag ++ rest = first := congrArg (List.drop 4) hText
        have hTag : [c, b, d, e] = typeTag := congrArg (List.take 4) hText
        refine hBefore (f :: others) ⟨hFirst, [], ?_⟩
        rw [List.nil_append, ← hTag]
        rfl

/-! ## The type behind a tag -/

/-- Whether every blank of a text stands where some bracket is open, with `depth` open before the
text. -/
def BlanksEnclosed (depth : Nat) (text : List Char) : Prop :=
  ∀ before c after, text = before ++ c :: after → isBlank c = true →
    depthAfterAll depth before ≠ 0

theorem blanksEnclosed_cons {depth : Nat} {c : Char} {rest : List Char} :
    BlanksEnclosed depth (c :: rest) ↔
      (isBlank c = true → depth ≠ 0) ∧ BlanksEnclosed (depthAfter depth c) rest := by
  constructor
  · intro h
    refine ⟨h [] c rest rfl, fun before d after hText => h (c :: before) d after ?_⟩
    rw [hText]
    rfl
  · rintro ⟨hFirst, hRest⟩ before d after hText hBlank
    cases before with
    | nil =>
      obtain ⟨rfl, -⟩ := List.cons.inj hText
      exact hFirst hBlank
    | cons first others =>
      obtain ⟨rfl, hOthers⟩ := List.cons.inj hText
      exact hRest others d after hOthers hBlank

instance decidableBlanksEnclosed : ∀ depth text, Decidable (BlanksEnclosed depth text)
  | _, [] => isTrue fun before _ _ hText => by cases before <;> cases hText
  | depth, c :: rest =>
    have := decidableBlanksEnclosed (depthAfter depth c) rest
    decidable_of_iff _ blanksEnclosed_cons.symm

/-- A text with its blanks enclosed is read whole, if all brackets are closed at its end and a
blank follows. -/
theorem upToBlank_append {type after : List Char} {depth : Nat} (hType : BlanksEnclosed depth type)
    (hDepth : depthAfterAll depth type = 0) (hAfter : startsBlank after = true) :
    upToBlank depth (type ++ after) = type := by
  induction type generalizing depth with
  | nil =>
    obtain rfl : depth = 0 := hDepth
    cases after with
    | nil => cases hAfter
    | cons c rest =>
      have hBlank : isBlank c = true := hAfter
      rw [List.nil_append, upToBlank, hBlank]
      rfl
  | cons c rest ih =>
    obtain ⟨hFirst, hRest⟩ := blanksEnclosed_cons.mp hType
    -- this character is not the blank that ends the type
    have hKept : ¬(depth == 0 && isBlank c) = true := by
      rw [Bool.and_eq_true, beq_iff_eq]
      exact fun h => hFirst h.2 h.1
    rw [List.cons_append, upToBlank, if_neg hKept, ih hRest hDepth]

/-- The text of a type, with properly nested brackets and no blank outside of them. -/
structure IsTypeText (type : List Char) : Prop where
  some : type ≠ []
  nested : Nested type
  enclosed : BlanksEnclosed 0 type

namespace IsTypeText

variable {type : List Char}

theorem head_plain (h : IsTypeText type) : ∀ c ∈ type.head?, isBlank c = false := by
  intro c hFirst
  obtain ⟨rest, rfl⟩ := List.head?_eq_some_iff.mp hFirst
  exact Bool.not_eq_true _ ▸ fun hBlank => (blanksEnclosed_cons.mp h.enclosed).1 hBlank rfl

/-- At the end all brackets are closed, so no blank can stand there. -/
theorem last_plain (h : IsTypeText type) : ∀ c ∈ type.getLast?, isBlank c = false := by
  intro c hLast
  obtain ⟨before, rfl⟩ := List.getLast?_eq_some_iff.mp hLast
  refine Bool.not_eq_true _ ▸ fun hBlank => h.enclosed before c [] rfl hBlank ?_
  have hDepth : depthAfterAll 0 (before ++ [c]) = 0 := h.nested.depthAfterAll 0
  rwa [depthAfterAll_append, depthAfterAll_blanks (by simpa using hBlank)] at hDepth

/-- The type is what stands between the blanks behind its tag and the next blank. -/
theorem read_back (h : IsTypeText type) {blanks after : List Char}
    (hBlanks : ∀ c ∈ blanks, isBlank c = true) (hAfter : startsBlank after = true) :
    trim (upToBlank 0 (trimStart (blanks ++ type ++ after))) = type := by
  have hStart : trimStart (blanks ++ type ++ after) = type ++ after := by
    obtain ⟨c, rest, hType⟩ := List.exists_cons_of_ne_nil h.some
    have hFirst := h.head_plain c (by rw [hType]; rfl)
    rw [List.append_assoc, trimStart, List.dropWhile_append_of_pos hBlanks, hType,
      List.cons_append, List.dropWhile_cons, hFirst, if_neg Bool.false_ne_true]
  rw [hStart, upToBlank_append h.enclosed (h.nested.depthAfterAll 0) hAfter]
  exact trim_eq_self h.head_plain h.last_plain

end IsTypeText

theorem trim_upToBlank_eq_nil_iff {text : List Char} :
    trim (upToBlank 0 (trimStart text)) = [] ↔ ∀ c ∈ text, isBlank c = true := by
  rw [← List.dropWhile_eq_nil_iff, ← trimStart]
  cases hStart : trimStart text with
  | nil => exact iff_of_true rfl rfl
  | cons c rest =>
    -- the first character is no blank, so it is read and not trimmed
    have hFirst : isBlank c = false := head?_trimStart_plain text c (by rw [hStart]; rfl)
    have hKept : ¬(0 == 0 && isBlank c) = true := by simp [hFirst]
    refine iff_of_false ?_ (List.cons_ne_nil c rest)
    rw [upToBlank, if_neg hKept]
    exact List.ne_nil_of_mem (mem_trim (.head _) hFirst)

theorem documentedType?_eq_none_iff {text : List Char} :
    documentedType? text = none ↔ ∀ rest, Tagged text rest → ∀ c ∈ rest, isBlank c = true := by
  unfold documentedType?
  cases hFirst : afterTag? text with
  | none =>
    exact iff_of_true rfl fun rest hTagged =>
      absurd hTagged (afterTag?_eq_none_iff.mp hFirst rest)
  | some first =>
    have hNone : (if (trim (upToBlank 0 (trimStart first))).isEmpty then none
        else some (String.ofList (trim (upToBlank 0 (trimStart first))))) = none ↔
        ∀ c ∈ first, isBlank c = true := by
      rw [← trim_upToBlank_eq_nil_iff, ← List.isEmpty_iff]
      split <;> simp_all
    refine hNone.trans
      ⟨fun hBlank rest hTagged c hMem => ?_, fun h => h first (tagged_of_afterTag? hFirst)⟩
    -- what stands behind a later tag is a suffix of what stands behind the first one
    obtain ⟨first', hFirst', hSuffix⟩ := hTagged.exists_afterTag?
    obtain rfl := Option.some.inj (hFirst.symm.trans hFirst')
    exact hBlank c (hSuffix.subset hMem)

/-! ## Doc comments -/

/-- The doc comment of a field: the texts of its attributes, one line each. -/
def docComment (attributes : List Attribute) : List Char :=
  List.intercalate ['\n'] (attributes.filterMap documentation?)

theorem flatMap_lines {lines : List (List Char)} (h : lines ≠ []) :
    lines.flatMap (· ++ ['\n']) = List.intercalate ['\n'] lines ++ ['\n'] := by
  induction lines with
  | nil => exact absurd rfl h
  | cons line more ih =>
    cases more with
    | nil => simp
    | cons next others =>
      rw [List.flatMap_cons, ih (List.cons_ne_nil next others), List.intercalate_cons_cons]
      simp only [List.append_assoc]

/-- What is read is the comment and a line break, or nothing if there is no comment. -/
theorem documentation_eq (attributes : List Attribute) :
    documentation attributes = docComment attributes ++ ['\n'] ∨
      documentation attributes = [] ∧ docComment attributes = [] := by
  unfold documentation docComment
  by_cases hNone : attributes.filterMap documentation? = []
  · rw [hNone]
    exact .inr ⟨rfl, rfl⟩
  · exact .inl (flatMap_lines hNone)

theorem tagged_lineBreak {text : List Char} :
    (∀ rest, Tagged (text ++ ['\n']) rest → ∀ c ∈ rest, isBlank c = true) ↔
      ∀ rest, Tagged text rest → ∀ c ∈ rest, isBlank c = true := by
  constructor
  · rintro h rest ⟨hBlank, before, rfl⟩ c hMem
    refine h (rest ++ ['\n']) ⟨?_, before, ?_⟩ c (List.mem_append_left _ hMem)
    · cases rest with
      | nil => rfl
      | cons => exact hBlank
    · simp only [List.append_assoc]
  · rintro h rest' ⟨hBlank, before, hText⟩ c hMem
    -- the line break is no character of the tag, so it is the last one behind it
    rcases List.eq_nil_or_concat rest' with rfl | ⟨rest, last, rfl⟩
    · cases hMem
    rw [List.concat_eq_append] at hBlank hText hMem
    rw [← List.append_assoc] at hText
    obtain ⟨hBefore, hLast⟩ := List.append_inj' hText rfl
    obtain rfl : '\n' = last := List.singleton_inj.mp hLast
    rcases List.mem_append.mp hMem with hMem | hMem
    · have hSame : startsBlank rest = startsBlank (rest ++ ['\n']) := by
        cases rest with
        | nil => cases hMem
        | cons => rfl
      exact h rest ⟨hSame.trans hBlank, before, hBefore⟩ c hMem
    · rw [List.mem_singleton.mp hMem]
      rfl

theorem docType?_eq_none_iff {attributes : List Attribute} : docType? attributes = none ↔
    ∀ rest, Tagged (docComment attributes) rest → ∀ c ∈ rest, isBlank c = true := by
  rw [docType?, documentedType?_eq_none_iff]
  rcases documentation_eq attributes with hComment | ⟨hNone, hNone'⟩
  · rw [hComment, tagged_lineBreak]
  · rw [hNone, hNone']

/-- A type behind the first tag of a comment is read back, if a blank or nothing follows it. -/
theorem docType?_eq_some {attributes : List Attribute} {before blanks type after : List Char}
    (hComment : docComment attributes = before ++ typeTag ++ (blanks ++ type ++ after))
    (hBefore : ∀ rest, ¬Tagged before rest) (hSome : blanks ≠ [])
    (hBlanks : ∀ c ∈ blanks, isBlank c = true) (hType : IsTypeText type)
    (hAfter : after = [] ∨ startsBlank after = true) :
    docType? attributes = some (String.ofList type) := by
  rcases documentation_eq attributes with hText | ⟨-, hNone⟩
  · -- the line break behind the comment ends a type that nothing else follows
    have hTag : startsBlank (blanks ++ type ++ (after ++ ['\n'])) = true := by
      obtain ⟨c, more, rfl⟩ := List.exists_cons_of_ne_nil hSome
      exact hBlanks c (.head _)
    have hEnd : startsBlank (after ++ ['\n']) = true := by
      cases after with
      | nil => rfl
      | cons => exact hAfter.resolve_left (List.cons_ne_nil _ _)
    have hFirst : afterTag? (documentation attributes) =
        some (blanks ++ type ++ (after ++ ['\n'])) := by
      rw [← afterTag?_append hBefore hTag, hText, hComment]
      simp only [List.append_assoc]
    rw [docType?, documentedType?, hFirst]
    dsimp only
    rw [hType.read_back hBlanks hEnd]
    simp [hType.some]
  · -- without a comment there is no tag
    rw [hNone] at hComment
    simp [typeTag] at hComment

theorem exists_propertyOf? (module : Module) (rule : Renaming) {field : Field}
    (hShown : isShown field = true) : ∃ property,
      propertyOf? module rule field = some property ∧
      property.documented = docType? field.attributes := by
  have hKept : ¬(!field.isPublic || isSkipped (entries field.attributes "serde")) = true := by
    rw [isShown, Bool.and_eq_true, Bool.not_eq_true'] at hShown
    simp [hShown]
  exact ⟨_, if_neg hKept, rfl⟩

/-- A type in a doc comment is read back exactly.  If the comment of a field consists of some text
without a tag, a tag, blanks, the text of a type, and nothing else or something that a blank starts,
then the type is that of the property, over however many lines the comment goes.  The property has
no documented type just if nothing but blanks stands behind every tag of the comment. -/
theorem documented_type_kept (module : Module) (rule : Renaming) (field : Field)
    (hShown : isShown field = true) :
    ∃ property, propertyOf? module rule field = some property ∧
      (∀ before blanks type after : List Char,
        docComment field.attributes = before ++ typeTag ++ (blanks ++ type ++ after) →
        (∀ rest, ¬Tagged before rest) →
        blanks ≠ [] → (∀ c ∈ blanks, isBlank c = true) →
        IsTypeText type →
        (after = [] ∨ startsBlank after = true) →
        property.documented = some (String.ofList type)) ∧
      (property.documented = none ↔
        ∀ rest, Tagged (docComment field.attributes) rest → ∀ c ∈ rest, isBlank c = true) := by
  obtain ⟨property, hProperty, hDocumented⟩ := exists_propertyOf? module rule hShown
  refine ⟨property, hProperty, ?_, hDocumented ▸ docType?_eq_none_iff⟩
  intro before blanks type after hComment hBefore hSome hBlanks hType hAfter
  rw [hDocumented]
  exact docType?_eq_some hComment hBefore hSome hBlanks hType hAfter

/-- A public field with a line of documentation for each text. -/
def documentedField (lines : List String) : Field where
  attributes := lines.map fun line =>
    ⟨⟨false, [plain "doc"]⟩, .value (.literal (.text line))⟩
  isPublic := true
  ident := plain "scores"
  type := .path [] (plain "Value") []

/-- A type that goes over two lines, behind a word that is no tag; and a tag without a type. -/
theorem scores_documented :
    (∃ property,
      propertyOf? ⟨["app"], []⟩ .none (documentedField
        [" See @variable.", " @var array<string,", " list<int>> by player"]) = some property ∧
      IsTypeText "array<string,\n list<int>>".toList ∧
      property.documented = some "array<string,\n list<int>>") ∧
    ∃ property,
      propertyOf? ⟨["app"], []⟩ .none (documentedField [" @variable", " @var  "]) =
        some property ∧
      property.documented = none := by
  have hType : IsTypeText "array<string,\n list<int>>".toList :=
    ⟨by decide, by decide, by decide⟩
  obtain ⟨property, hProperty, hKept, -⟩ := documented_type_kept ⟨["app"], []⟩ .none
    (documentedField [" See @variable.", " @var array<string,", " list<int>> by player"]) rfl
  obtain ⟨untyped, hUntyped, -, hNone⟩ := documented_type_kept ⟨["app"], []⟩ .none
    (documentedField [" @variable", " @var  "]) rfl
  refine ⟨⟨property, hProperty, hType, ?_⟩, untyped, hUntyped, ?_⟩
  · exact hKept " See @variable.\n ".toList [' '] _ " by player".toList rfl
      (afterTag?_eq_none_iff.mp (by decide)) (List.cons_ne_nil _ _)
      (List.forall_mem_singleton.mpr rfl) hType (by decide)
  · exact hNone.mpr (docType?_eq_none_iff.mp (by decide))

end Ambient.Extraction
