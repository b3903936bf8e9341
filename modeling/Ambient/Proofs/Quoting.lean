import Ambient.Proofs.Indentation
import Mathlib.Computability.RegularExpressions

/-!
# Quoting

Names and strings are written bare or in double quotes.  A quoted text ends at its first double
quote that is not escaped (`unescapedQuote?_escape`), and what stands before that gives the string
back (`unescape_escape`).  A bare name starts with none of the characters of a quoted one.  So every
name and every value can be read off a text that goes on behind it (`key_append_inj`,
`caseValue_append_inj`), and no two of them are ever written alike.

`quoting_faithful` puts this together, up to the lines of declarations.
-/

namespace Ambient.Spelling

/-! ## Reading quoted text -/

/-- How many characters stand before the first double quote that no backslash escapes. -/
def unescapedQuote? : List Char → Option Nat
  | [] => none
  | '"' :: _ => some 0
  | '\\' :: _ :: rest => (unescapedQuote? rest).map (· + 2)
  | _ :: rest => (unescapedQuote? rest).map (· + 1)

/-- Takes away each backslash that escapes the character behind it. -/
def unescape : List Char → List Char
  | [] => []
  | '\\' :: c :: rest => c :: unescape rest
  | c :: rest => c :: unescape rest

theorem escape_special {c : Char} (h : (c == '\\' || c == '"') = true) (rest : List Char) :
    escape (c :: rest) = '\\' :: c :: escape rest := by
  rw [escape, if_pos h]

theorem escape_plain {c : Char} (h : ¬(c == '\\' || c == '"') = true) (rest : List Char) :
    escape (c :: rest) = c :: escape rest := by
  rw [escape, if_neg h]

theorem unescapedQuote?_escape (value after : List Char) :
    unescapedQuote? (escape value ++ '"' :: after) = some (escape value).length := by
  induction value with
  | nil => rfl
  | cons c rest ih =>
    by_cases hSpecial : (c == '\\' || c == '"') = true
    · -- the backslash is passed over together with the character that it escapes
      rw [escape_special hSpecial, List.cons_append, List.cons_append, unescapedQuote?, ih]
      rfl
    · have hPlain : c ≠ '\\' ∧ c ≠ '"' := by simpa using hSpecial
      rw [escape_plain hSpecial, List.cons_append, unescapedQuote?, ih]
      · rfl
      · exact fun hQuote => hPlain.2 hQuote
      · exact fun _ _ hBackslash => absurd hBackslash hPlain.1

theorem unescape_escape (value : List Char) : unescape (escape value) = value := by
  induction value with
  | nil => rfl
  | cons c rest ih =>
    by_cases hSpecial : (c == '\\' || c == '"') = true
    · rw [escape_special hSpecial, unescape, ih]
    · have hPlain : c ≠ '\\' ∧ c ≠ '"' := by simpa using hSpecial
      rw [escape_plain hSpecial, unescape, ih]
      exact fun _ _ hBackslash => absurd hBackslash hPlain.1

/-- A quoted text ends in one way only, so the value and the text behind it are determined. -/
theorem escape_append_inj {value other after after' : List Char}
    (h : escape value ++ '"' :: after = escape other ++ '"' :: after') :
    value = other ∧ after = after' := by
  have hLength : some (escape value).length = some (escape other).length := by
    rw [← unescapedQuote?_escape value after, h, unescapedQuote?_escape]
  obtain ⟨hEscape, hAfter⟩ := List.append_inj h (Option.some.inj hLength)
  refine ⟨?_, (List.cons.inj hAfter).2⟩
  rw [← unescape_escape value, hEscape, unescape_escape]

theorem toList_quote (value : String) :
    (quote value).toList = '"' :: (escape value.toList ++ ['"']) := by
  rw [quote, String.toList_ofList, List.cons_append]

theorem quote_append_inj {value other after after' : String}
    (h : quote value ++ after = quote other ++ after') : value = other ∧ after = after' := by
  have hChars := congrArg String.toList h
  simp only [String.toList_append, toList_quote, List.cons_append, List.append_assoc,
    List.nil_append, List.cons.injEq, true_and] at hChars
  obtain ⟨hValue, hAfter⟩ := escape_append_inj hChars
  exact ⟨String.toList_inj.mp hValue, String.toList_inj.mp hAfter⟩

theorem quote_injective : Function.Injective quote := by
  intro value other h
  exact (quote_append_inj (congrArg (· ++ "") h)).1

theorem quote_ne_self (value : String) : quote value ≠ value := by
  intro h
  -- the quotes alone make a text longer, and escaping does not make it shorter
  have hLonger : ∀ text : List Char, text.length ≤ (escape text).length := by
    intro text
    induction text with
    | nil => exact Nat.le_refl _
    | cons c rest ih =>
      rw [escape]
      split
      · exact Nat.succ_le_succ (Nat.le_succ_of_le ih)
      · exact Nat.succ_le_succ ih
  have hLength := congrArg (·.toList.length) h
  simp only [toList_quote, List.length_cons, List.length_append, List.length_nil] at hLength
  have hValue := hLonger value.toList
  omega

/-! ## Bare text -/

/-- The text starts with nothing that an identifier or a number could go on with. -/
def Ends (text : String) : Prop :=
  ∀ c ∈ text.toList.head?, continuesIdentifier c = false

instance : DecidablePred Ends := fun text =>
  decidable_of_iff (text.toList.head?.all (!continuesIdentifier ·) = true)
    (by simp [Ends, Option.all_eq_true])

theorem ends_empty : Ends "" := by decide

theorem Ends.append {text : String} (h : Ends text) (hSome : text ≠ "") (rest : String) :
    Ends (text ++ rest) := by
  intro c hc
  refine h c ?_
  rw [String.toList_append, List.head?_append_of_ne_nil] at hc
  · exact hc
  · simpa using hSome

/-- A run of characters of one kind ends where the kind changes. -/
theorem run_append_inj {kind : Char → Bool} {run run' after after' : List Char}
    (hRun : ∀ c ∈ run, kind c = true) (hRun' : ∀ c ∈ run', kind c = true)
    (hAfter : ∀ c ∈ after.head?, kind c = false) (hAfter' : ∀ c ∈ after'.head?, kind c = false)
    (h : run ++ after = run' ++ after') : run = run' ∧ after = after' := by
  have hEnd : ∀ text : List Char, (∀ c ∈ text.head?, kind c = false) →
      text.takeWhile kind = [] := by
    intro text hText
    cases text with
    | nil => rfl
    | cons c rest => exact List.takeWhile_cons_of_neg (by simp [hText c rfl])
  have hSame := congrArg (List.takeWhile kind) h
  rw [List.takeWhile_append_of_pos hRun, List.takeWhile_append_of_pos hRun', hEnd _ hAfter,
    hEnd _ hAfter', List.append_nil, List.append_nil] at hSame
  subst hSame
  exact ⟨rfl, List.append_cancel_left h⟩

theorem continues_of_isIdentifier {text : List Char} (h : isIdentifier text = true) :
    ∀ c ∈ text, continuesIdentifier c = true := by
  cases text with
  | nil => exact fun c hc => by cases hc
  | cons first rest =>
    obtain ⟨hFirst, hRest⟩ := (Bool.and_eq_true _ _).mp h
    refine List.forall_mem_cons.mpr ⟨?_, List.all_eq_true.mp hRest⟩
    rw [continuesIdentifier, hFirst, Bool.true_or]

/-- A bare name is no start of a text in quotes. -/
theorem identifier_append_ne_quote {name value : String}
    (hName : isIdentifier name.toList = true) (after after' : String) :
    name ++ after ≠ quote value ++ after' := by
  intro h
  have hChars := congrArg String.toList h
  rw [String.toList_append, String.toList_append, toList_quote] at hChars
  cases hText : name.toList with
  | nil =>
    rw [hText] at hName
    cases hName
  | cons first rest =>
    rw [hText] at hName hChars
    obtain rfl := (List.cons.inj hChars).1
    exact absurd hName (by simp [isIdentifier, startsIdentifier, isLetter])

theorem key_of_isIdentifier {name : String} (h : isIdentifier name.toList = true) :
    key name = name := by
  rw [key, if_pos h]

theorem key_of_not_isIdentifier {name : String} (h : ¬isIdentifier name.toList = true) :
    key name = quote name := by
  rw [key, if_neg h]

/-- A written name can be told from the text that follows it. -/
theorem key_append_inj {name other after after' : String} (hAfter : Ends after)
    (hAfter' : Ends after') (h : key name ++ after = key other ++ after') :
    name = other ∧ after = after' := by
  -- bare names end before what follows, quoted ones at their quote, and no bare one is quoted
  by_cases hName : isIdentifier name.toList = true
  · rw [key_of_isIdentifier hName] at h
    by_cases hOther : isIdentifier other.toList = true
    · rw [key_of_isIdentifier hOther] at h
      have hChars := congrArg String.toList h
      rw [String.toList_append, String.toList_append] at hChars
      obtain ⟨hSame, hRest⟩ := run_append_inj (continues_of_isIdentifier hName)
        (continues_of_isIdentifier hOther) hAfter hAfter' hChars
      exact ⟨String.toList_inj.mp hSame, String.toList_inj.mp hRest⟩
    · rw [key_of_not_isIdentifier hOther] at h
      exact absurd h (identifier_append_ne_quote hName _ _)
  · rw [key_of_not_isIdentifier hName] at h
    by_cases hOther : isIdentifier other.toList = true
    · rw [key_of_isIdentifier hOther] at h
      exact absurd h.symm (identifier_append_ne_quote hOther _ _)
    · rw [key_of_not_isIdentifier hOther] at h
      exact quote_append_inj h

theorem key_injective : Function.Injective key := by
  intro name other h
  exact (key_append_inj ends_empty ends_empty (congrArg (· ++ "") h)).1

/-! ## Values -/

theorem continues_of_isDigit {c : Char} (h : c.isDigit = true) : continuesIdentifier c = true := by
  simp only [Char.isDigit, Bool.and_eq_true, decide_eq_true_eq] at h
  have hDigit : isDigit c = true := by
    simp only [isDigit, Bool.and_eq_true, decide_eq_true_eq]
    exact h
  rw [continuesIdentifier, hDigit, Bool.or_true]

theorem continues_of_mem_repr {n : Nat} {c : Char} (h : c ∈ n.repr.toList) :
    continuesIdentifier c = true := by
  rw [Nat.toList_repr] at h
  exact continues_of_isDigit (Nat.isDigit_of_mem_toDigits (by decide) (by decide) h)

theorem repr_append_inj {m n : Nat} {after after' : String} (hAfter : Ends after)
    (hAfter' : Ends after') (h : m.repr ++ after = n.repr ++ after') : m = n ∧ after = after' := by
  have hChars := congrArg String.toList h
  rw [String.toList_append, String.toList_append] at hChars
  obtain ⟨hSame, hRest⟩ := run_append_inj (fun c hc => continues_of_mem_repr hc)
    (fun c hc => continues_of_mem_repr hc) hAfter hAfter' hChars
  refine ⟨?_, String.toList_inj.mp hRest⟩
  rw [Nat.toList_repr, Nat.toList_repr] at hSame
  rw [← Nat.ofDigitChars_ten_toDigits (n := m), hSame, Nat.ofDigitChars_ten_toDigits]

/-- A number starts with a digit or, if it is negative, with its sign. -/
theorem exists_toList_int (value : Int) :
    ∃ c rest, (toString value).toList = c :: rest ∧ (c = '-' ∨ c.isDigit = true) := by
  cases value with
  | ofNat n =>
    have hSome : n.repr.toList ≠ [] := by
      rw [Nat.toList_repr]
      exact Nat.toDigits_ne_nil
    obtain ⟨c, rest, hText⟩ := List.exists_cons_of_ne_nil hSome
    have hMem : c ∈ Nat.toDigits 10 n := by
      rw [← Nat.toList_repr, hText]
      exact .head _
    exact ⟨c, rest, hText, .inr (Nat.isDigit_of_mem_toDigits (by decide) (by decide) hMem)⟩
  | negSucc n => exact ⟨'-', (n + 1).repr.toList, String.toList_append, .inl rfl⟩

theorem repr_append_ne_minus {n : Nat} {after after' : String} :
    n.repr ++ after ≠ "-" ++ after' := by
  intro h
  have hChars := congrArg String.toList h
  rw [String.toList_append, String.toList_append] at hChars
  cases hText : n.repr.toList with
  | nil => exact Nat.repr_ne_empty (String.toList_eq_nil_iff.mp hText)
  | cons c rest =>
    rw [hText] at hChars
    obtain rfl : c = '-' := (List.cons.inj hChars).1
    have hContinues : continuesIdentifier '-' = true :=
      continues_of_mem_repr (n := n) (hText ▸ .head _)
    exact absurd hContinues (by decide)

theorem int_append_inj {value other : Int} {after after' : String} (hAfter : Ends after)
    (hAfter' : Ends after') (h : toString value ++ after = toString other ++ after') :
    value = other ∧ after = after' := by
  match value, other with
  | .ofNat m, .ofNat n =>
    obtain ⟨rfl, hRest⟩ := repr_append_inj (m := m) (n := n) hAfter hAfter' h
    exact ⟨rfl, hRest⟩
  | .ofNat m, .negSucc n =>
    exact absurd ((show m.repr ++ after = _ from h).trans String.append_assoc) repr_append_ne_minus
  | .negSucc m, .ofNat n =>
    exact absurd ((show n.repr ++ after' = _ from h.symm).trans String.append_assoc)
      repr_append_ne_minus
  | .negSucc m, .negSucc n =>
    -- behind the sign stand the numbers, counted from zero
    have hRepr : "-" ++ ((m + 1).repr ++ after) = "-" ++ ((n + 1).repr ++ after') := by
      rw [← String.append_assoc, ← String.append_assoc]
      exact h
    obtain ⟨hNumber, hRest⟩ := repr_append_inj hAfter hAfter' ((String.append_right_inj _).mp hRepr)
    exact ⟨congrArg Int.negSucc (Nat.succ.inj hNumber), hRest⟩

theorem quote_append_ne_int {value : String} {number : Int} {after after' : String} :
    quote value ++ after ≠ toString number ++ after' := by
  intro h
  have hChars := congrArg String.toList h
  obtain ⟨c, rest, hText, hFirst⟩ := exists_toList_int number
  rw [String.toList_append, String.toList_append, toList_quote, hText] at hChars
  obtain rfl : '"' = c := (List.cons.inj hChars).1
  exact absurd hFirst (by decide)

/-- A written value can be told from the text that follows it. -/
theorem caseValue_append_inj {value other : CaseValue} {after after' : String}
    (hAfter : Ends after) (hAfter' : Ends after')
    (h : caseValue value ++ after = caseValue other ++ after') :
    value = other ∧ after = after' := by
  match value, other with
  | .text value, .text other =>
    have hText : quote value ++ after = quote other ++ after' := h
    obtain ⟨rfl, hRest⟩ := quote_append_inj hText
    exact ⟨rfl, hRest⟩
  | .text value, .int other => exact absurd h quote_append_ne_int
  | .int value, .text other => exact absurd h.symm quote_append_ne_int
  | .int value, .int other =>
    have hText : toString value ++ after = toString other ++ after' := h
    obtain ⟨rfl, hRest⟩ := int_append_inj hAfter hAfter' hText
    exact ⟨rfl, hRest⟩

/-- What stands behind the first of the values that are separated by bars. -/
def unionTail (values : List CaseValue) : String :=
  if values.isEmpty then "" else " | " ++ caseUnion values

theorem caseUnion_cons (value : CaseValue) (rest : List CaseValue) :
    caseUnion (value :: rest) = caseValue value ++ unionTail rest := by
  cases rest with
  | nil => simp [caseUnion, unionTail]
  | cons second others =>
    simp [caseUnion, unionTail, String.intercalate_cons_cons, String.append_assoc]

theorem ends_unionTail (values : List CaseValue) : Ends (unionTail values) := by
  rw [unionTail]
  split
  · exact ends_empty
  · exact Ends.append (by decide) (by decide) _

/-- No values are written as a word, which no value is. -/
theorem caseUnion_cons_ne_never (value : CaseValue) (rest : List CaseValue) :
    caseUnion (value :: rest) ≠ "never" := by
  intro h
  rw [caseUnion_cons] at h
  have hChars : (caseValue value).toList ++ (unionTail rest).toList = "never".toList := by
    rw [← String.toList_append, h]
  cases value with
  | text value =>
    rw [caseValue, toList_quote] at hChars
    exact absurd (List.cons.inj hChars).1 (by decide)
  | int number =>
    obtain ⟨c, more, hText, hFirst⟩ := exists_toList_int number
    rw [caseValue, hText] at hChars
    obtain rfl : c = 'n' := (List.cons.inj hChars).1
    exact absurd hFirst (by decide)

theorem caseUnion_injective : Function.Injective caseUnion := by
  intro values
  induction values with
  | nil =>
    intro others h
    cases others with
    | nil => rfl
    | cons other rest => exact absurd h.symm (caseUnion_cons_ne_never other rest)
  | cons value rest ih =>
    intro others h
    cases others with
    | nil => exact absurd h (caseUnion_cons_ne_never value rest)
    | cons other rest' =>
      rw [caseUnion_cons, caseUnion_cons] at h
      obtain ⟨rfl, hTail⟩ := caseValue_append_inj (ends_unionTail _) (ends_unionTail _) h
      rw [List.cons.injEq]
      refine ⟨rfl, ?_⟩
      -- behind the first value there is nothing, or a bar and the union of the others
      have hBar (text : String) : " | " ++ text ≠ "" := by simp
      cases rest with
      | nil =>
        cases rest' with
        | nil => rfl
        | cons second others => exact absurd hTail.symm (hBar _)
      | cons second others =>
        cases rest' with
        | nil => exact absurd hTail (hBar _)
        | cons second' others' => exact ih ((String.append_right_inj " | ").mp hTail)

/-! ## Patterns -/

/-- The characters from one to another. -/
def charsFrom (first last : Char) : List Char :=
  (List.range' first.toNat (last.toNat + 1 - first.toNat)).map Char.ofNat

/-- One character out of a list. -/
def oneOf (chars : List Char) : RegularExpression Char :=
  (chars.map .char).sum

/-- Any number of characters out of a list. -/
def anyOf (chars : List Char) : RegularExpression Char :=
  .star (oneOf chars)

/-- The pattern `[A-Za-z_$][A-Za-z0-9_$]*` of identifiers. -/
def identifierPattern : RegularExpression Char :=
  oneOf (charsFrom 'A' 'Z' ++ charsFrom 'a' 'z' ++ ['_', '$']) *
    anyOf (charsFrom 'A' 'Z' ++ charsFrom 'a' 'z' ++ charsFrom '0' '9' ++ ['_', '$'])

/-- The pattern `[A-Z][a-zA-Z0-9]*\.[A-Z_][A-Z0-9_]*` of members of enumerations. -/
def memberPattern : RegularExpression Char :=
  oneOf (charsFrom 'A' 'Z') * anyOf (charsFrom 'A' 'Z' ++ charsFrom 'a' 'z' ++ charsFrom '0' '9') *
    .char '.' * oneOf (charsFrom 'A' 'Z' ++ ['_']) *
    anyOf (charsFrom 'A' 'Z' ++ charsFrom '0' '9' ++ ['_'])

theorem mem_charsFrom {first last c : Char} (hAscii : last.toNat < 128) :
    c ∈ charsFrom first last ↔ first ≤ c ∧ c ≤ last := by
  show _ ↔ first.toNat ≤ c.toNat ∧ c.toNat ≤ last.toNat
  simp only [charsFrom, List.mem_map, List.mem_range'_1]
  constructor
  · rintro ⟨n, hRange, rfl⟩
    have hValid : n.isValidChar := .inl (by omega)
    have hNat : (Char.ofNat n).toNat = n := by
      rw [Char.ofNat, dif_pos hValid]
      rfl
    omega
  · rintro ⟨hFirst, hLast⟩
    exact ⟨c.toNat, by omega, Char.ofNat_toNat c⟩

theorem mem_oneOf {chars text : List Char} :
    text ∈ (oneOf chars).matches' ↔ ∃ c ∈ chars, text = [c] := by
  induction chars with
  | nil =>
    refine iff_of_false (Language.notMem_zero text) ?_
    rintro ⟨c, hc, -⟩
    cases hc
  | cons first rest ih =>
    rw [oneOf, List.map_cons, List.sum_cons, RegularExpression.matches'_add, Language.mem_add,
      ← oneOf, ih, List.exists_mem_cons_iff]
    rfl

theorem mem_anyOf {chars text : List Char} :
    text ∈ (anyOf chars).matches' ↔ ∀ c ∈ text, c ∈ chars := by
  rw [anyOf, RegularExpression.matches'_star, Language.mem_kstar]
  constructor
  · rintro ⟨words, rfl, hWords⟩ c hc
    obtain ⟨word, hWord, hc⟩ := List.mem_flatten.mp hc
    obtain ⟨d, hd, rfl⟩ := mem_oneOf.mp (hWords word hWord)
    rwa [List.mem_singleton.mp hc]
  · intro hChars
    refine ⟨text.map ([·]), ?_, fun word hWord => ?_⟩
    · rw [← List.flatMap_def, List.flatMap_singleton']
    obtain ⟨c, hc, rfl⟩ := List.mem_map.mp hWord
    exact mem_oneOf.mpr ⟨c, hChars c hc, rfl⟩

theorem mem_letters {c : Char} :
    c ∈ charsFrom 'A' 'Z' ++ charsFrom 'a' 'z' ↔ isLetter c = true := by
  rw [List.mem_append, mem_charsFrom (by decide), mem_charsFrom (by decide), isLetter]
  simp [or_comm]

theorem isIdentifier_iff {text : List Char} :
    isIdentifier text = true ↔ text ∈ identifierPattern.matches' := by
  -- the character classes of the pattern are those of the check
  have hStart (c : Char) : c ∈ charsFrom 'A' 'Z' ++ charsFrom 'a' 'z' ++ ['_', '$'] ↔
      startsIdentifier c = true := by
    rw [List.mem_append, mem_letters]
    simp [startsIdentifier, or_assoc]
  have hContinue (c : Char) :
      c ∈ charsFrom 'A' 'Z' ++ charsFrom 'a' 'z' ++ charsFrom '0' '9' ++ ['_', '$'] ↔
        continuesIdentifier c = true := by
    rw [List.mem_append, List.mem_append, mem_letters, mem_charsFrom (by decide)]
    simp only [continuesIdentifier, startsIdentifier, isDigit, Bool.or_eq_true, Bool.and_eq_true,
      decide_eq_true_eq, beq_iff_eq, List.mem_cons, List.not_mem_nil, or_false]
    constructor
    · rintro ((hLetter | hDigit) | hScore | hDollar)
      · exact .inl (.inl (.inl hLetter))
      · exact .inr hDigit
      · exact .inl (.inl (.inr hScore))
      · exact .inl (.inr hDollar)
    · rintro (((hLetter | hScore) | hDollar) | hDigit)
      · exact .inl (.inl hLetter)
      · exact .inr (.inl hScore)
      · exact .inr (.inr hDollar)
      · exact .inl (.inr hDigit)
  rw [identifierPattern, RegularExpression.matches'_mul, Language.mem_mul]
  simp only [mem_oneOf, mem_anyOf, hStart, hContinue]
  cases text with
  | nil => simp [isIdentifier]
  | cons first rest =>
    rw [isIdentifier, Bool.and_eq_true, List.all_eq_true]
    constructor
    · rintro ⟨hFirst, hRest⟩
      exact ⟨[first], ⟨first, hFirst, rfl⟩, rest, hRest, rfl⟩
    · rintro ⟨_, ⟨c, hc, rfl⟩, others, hOthers, hText⟩
      obtain ⟨rfl, rfl⟩ := List.cons.inj hText
      exact ⟨hc, hOthers⟩

theorem mem_memberPattern {text : List Char} :
    text ∈ memberPattern.matches' ↔ ∃ first word second rest,
      text = first :: (word ++ '.' :: second :: rest) ∧ isCapital first = true ∧
        (∀ c ∈ word, (isLetter c || isDigit c) = true) ∧
        (isCapital second || second == '_') = true ∧
        ∀ c ∈ rest, (isCapital c || isDigit c || c == '_') = true := by
  -- each character class of the pattern as a condition on characters
  have hFirst (c : Char) : c ∈ charsFrom 'A' 'Z' ↔ isCapital c = true := by
    rw [mem_charsFrom (by decide)]
    simp [isCapital]
  have hWord (c : Char) :
      c ∈ charsFrom 'A' 'Z' ++ charsFrom 'a' 'z' ++ charsFrom '0' '9' ↔
        (isLetter c || isDigit c) = true := by
    rw [List.mem_append, mem_letters, mem_charsFrom (by decide)]
    simp [isDigit]
  have hSecond (c : Char) : c ∈ charsFrom 'A' 'Z' ++ ['_'] ↔ (isCapital c || c == '_') = true := by
    rw [List.mem_append, hFirst]
    simp
  have hRest (c : Char) : c ∈ charsFrom 'A' 'Z' ++ charsFrom '0' '9' ++ ['_'] ↔
      (isCapital c || isDigit c || c == '_') = true := by
    rw [List.mem_append, List.mem_append, hFirst, mem_charsFrom (by decide)]
    simp [isDigit]
  simp only [memberPattern, RegularExpression.matches'_mul, Language.mem_mul, mem_oneOf, mem_anyOf,
    hFirst, hWord, hSecond, hRest, RegularExpression.matches'_char]
  constructor
  · rintro ⟨_, ⟨_, ⟨_, ⟨_, ⟨first, hCapital, rfl⟩, word, hLetters, rfl⟩, _, rfl, rfl⟩, _,
      ⟨second, hStart, rfl⟩, rfl⟩, rest, hTail, rfl⟩
    exact ⟨first, word, second, rest, by simp, hCapital, hLetters, hStart, hTail⟩
  · rintro ⟨first, word, second, rest, rfl, hCapital, hLetters, hStart, hTail⟩
    exact ⟨_, ⟨_, ⟨_, ⟨_, ⟨first, hCapital, rfl⟩, word, hLetters, rfl⟩, _, rfl, rfl⟩, _,
      ⟨second, hStart, rfl⟩, rfl⟩, rest, hTail, by simp⟩

theorem isMember_iff {text : List Char} :
    isMember text = true ↔ text ∈ memberPattern.matches' := by
  rw [mem_memberPattern]
  constructor
  · intro h
    cases text with
    | nil => cases h
    | cons first more =>
      rw [isMember, Bool.and_eq_true] at h
      obtain ⟨hCapital, hMore⟩ := h
      -- the word goes as far as it can, and a point has to stand behind it
      split at hMore
      · rename_i second rest hPoint
        rw [Bool.and_eq_true, List.all_eq_true] at hMore
        refine ⟨first, more.takeWhile fun c => isLetter c || isDigit c, second, rest, ?_, hCapital,
          List.all_eq_true.mp List.all_takeWhile, hMore.1, hMore.2⟩
        rw [← hPoint, List.takeWhile_append_dropWhile]
      · cases hMore
  · rintro ⟨first, word, second, rest, rfl, hCapital, hLetters, hStart, hTail⟩
    have hPoint : (word ++ '.' :: second :: rest).dropWhile (fun c => isLetter c || isDigit c) =
        '.' :: second :: rest := by
      rw [List.dropWhile_append_of_pos hLetters, List.dropWhile_cons_of_neg (by decide)]
    rw [isMember, hCapital, Bool.true_and, hPoint]
    show ((isCapital second || second == '_') && rest.all _) = true
    rw [hStart, Bool.true_and, List.all_eq_true]
    exact hTail

/-! ## Bare or in quotes -/

theorem key_eq_self_iff {name : String} :
    key name = name ↔ name.toList ∈ identifierPattern.matches' := by
  rw [← isIdentifier_iff]
  refine ⟨fun h => ?_, key_of_isIdentifier⟩
  by_contra hOther
  rw [key_of_not_isIdentifier hOther] at h
  exact quote_ne_self name h

theorem literal_text_eq_self_iff {value : String} :
    literal (.text value) = value ↔ value.toList ∈ memberPattern.matches' := by
  rw [← isMember_iff, literal]
  refine ⟨fun h => ?_, fun h => if_pos h⟩
  by_contra hOther
  rw [if_neg hOther] at h
  exact quote_ne_self value h

theorem member_ne_quote {value other : String} (h : isMember value.toList = true) :
    value ≠ quote other := by
  rintro rfl
  obtain ⟨first, word, second, rest, hText, hCapital, -⟩ := mem_memberPattern.mp (isMember_iff.mp h)
  rw [toList_quote] at hText
  obtain rfl := (List.cons.inj hText).1
  exact absurd hCapital (by decide)

theorem literal_text_injective : Function.Injective fun value => literal (.text value) := by
  intro value other h
  simp only [literal] at h
  split at h
  · rename_i hValue
    split at h
    · exact h
    · exact absurd h (member_ne_quote hValue)
  · split at h
    · rename_i hOther
      exact absurd h.symm (member_ne_quote hOther)
    · exact quote_injective h

end Ambient.Spelling

namespace Ambient

open Spelling

theorem Declaration.propertyLine_inj {layout : Layout} {name other : String}
    {type type' : TsType} :
    propertyLine layout name type = propertyLine layout other type' ↔
      name = other ∧ type.render layout = type'.render layout := by
  constructor
  · intro h
    simp only [propertyLine, String.append_assoc, String.append_right_inj] at h
    obtain ⟨rfl, hRest⟩ := key_append_inj (Ends.append (by decide) (by decide) _)
      (Ends.append (by decide) (by decide) _) h
    rw [String.append_right_inj, String.append_left_inj] at hRest
    exact ⟨rfl, hRest⟩
  · rintro ⟨rfl, hType⟩
    rw [propertyLine, propertyLine, hType]

theorem Declaration.caseLine_inj {layout : Layout} {name other : String}
    {value value' : CaseValue} :
    caseLine layout name value = caseLine layout other value' ↔ name = other ∧ value = value' := by
  constructor
  · intro h
    simp only [caseLine, String.append_assoc, String.append_right_inj] at h
    obtain ⟨rfl, hRest⟩ := key_append_inj (Ends.append (by decide) (by decide) _)
      (Ends.append (by decide) (by decide) _) h
    rw [String.append_right_inj] at hRest
    exact ⟨rfl, (caseValue_append_inj (by decide) (by decide) hRest).1⟩
  · rintro ⟨rfl, rfl⟩
    rfl

/-- Quoting loses nothing, and no two names or values are written alike.

* A quoted string starts with a double quote, ends at the first one behind it that is not escaped,
  and without the quotes and the escaping backslashes it is the string.
* Names are written bare just if they are identifiers, string literals just if they have the form of
  a member, and in quotes otherwise.
* Names, string literals and values stay different, and they can be read off the lines that they
  stand in, and off the union of the values of an enumeration. -/
theorem quoting_faithful :
    (∀ value, ∃ body, (quote value).toList = '"' :: (body ++ ['"']) ∧
      unescapedQuote? (body ++ ['"']) = some body.length ∧ unescape body = value.toList) ∧
    ((∀ name, key name = name ↔ name.toList ∈ identifierPattern.matches') ∧
      (∀ name, key name = name ∨ key name = quote name) ∧ Function.Injective key) ∧
    ((∀ value, literal (.text value) = value ↔ value.toList ∈ memberPattern.matches') ∧
      (∀ value, literal (.text value) = value ∨ literal (.text value) = quote value) ∧
      Function.Injective fun value => literal (.text value)) ∧
    (∀ layout name other type type',
      Declaration.propertyLine layout name type = Declaration.propertyLine layout other type' ↔
        name = other ∧ type.render layout = type'.render layout) ∧
    (∀ layout name other value value',
      Declaration.caseLine layout name value = Declaration.caseLine layout other value' ↔
        name = other ∧ value = value') ∧
    Function.Injective caseUnion := by
  have hKey (name : String) : key name = name ∨ key name = quote name := by
    by_cases h : isIdentifier name.toList = true
    · exact .inl (key_of_isIdentifier h)
    · exact .inr (key_of_not_isIdentifier h)
  have hLiteral (value : String) :
      literal (.text value) = value ∨ literal (.text value) = quote value := by
    rw [literal]
    split
    · exact .inl rfl
    · exact .inr rfl
  refine ⟨fun value => ?_, ⟨fun _ => key_eq_self_iff, hKey, key_injective⟩,
    ⟨fun _ => literal_text_eq_self_iff, hLiteral, literal_text_injective⟩,
    fun _ _ _ _ _ => Declaration.propertyLine_inj, fun _ _ _ _ _ => Declaration.caseLine_inj,
    caseUnion_injective⟩
  exact ⟨escape value.toList, toList_quote value, unescapedQuote?_escape _ _, unescape_escape _⟩

end Ambient
