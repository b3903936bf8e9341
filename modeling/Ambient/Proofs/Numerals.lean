import Ambient.Source.Literal
import Mathlib.Data.Nat.Digits.Defs
import Mathlib.Tactic.Ring

/-!
# Numerals

A whole number is written in one of four bases, with underscores between its digits.  Main result:
wherever a numeral ends, it is read as the number that its digits denote, and what is left is what
stands behind it and behind the name of a type (`scanLiteral_numeral`).
-/

namespace Ambient.Source

/-- The marks that numerals start with, and their bases. -/
def bases : List (String × Nat) :=
  [("", 10), ("0x", 16), ("0o", 8), ("0b", 2)]

/-- The digits of a numeral behind its mark: at least one, and underscores, with which a numeral
without a mark does not start. -/
structure IsNumeral (base : Nat) (digits : List Char) : Prop where
  isDigit : ∀ c ∈ digits, c = '_' ∨ ∃ digit < base, hexDigit? c = some digit
  exists_digit : ∃ c ∈ digits, c ≠ '_'
  starts : base = 10 → digits.head? ≠ some '_'

/-- The number that some digits denote, the most significant one first. -/
def digitsValue (base : Nat) (digits : List Char) : Nat :=
  Nat.ofDigits base (digits.filterMap hexDigit?).reverse

/-- Whether a numeral may end before a text: no digit of any base, underscore or point goes on, nor
a mark. -/
def EndsNumeral (rest : List Char) : Prop :=
  ∀ c ∈ rest.head?, hexDigit? c = none ∧ c ∉ ['_', '.', 'x', 'o']

theorem digitsValue_eq_foldl (base : Nat) (digits : List Char) : digitsValue base digits =
    (digits.filterMap hexDigit?).foldl (fun value digit => value * base + digit) 0 := by
  rw [digitsValue, Nat.ofDigits_eq_foldr, List.foldr_reverse]
  congr 1
  funext value digit
  push_cast
  ring

/-- The digits are read one by one, as long as there are any. -/
theorem scanDigits_append {base : Nat} {digits rest : List Char}
    (hDigits : ∀ c ∈ digits, c = '_' ∨ ∃ digit < base, hexDigit? c = some digit)
    (hRest : EndsNumeral rest) (value : Nat) {seen : Bool}
    (hSeen : seen = true ∨ ∃ c ∈ digits, c ≠ '_')
    (hFirst : seen = true ∨ base ≠ 10 ∨ digits.head? ≠ some '_') :
    scanDigits base value seen (digits ++ rest) =
      some ((digits.filterMap hexDigit?).foldl (fun value digit => value * base + digit) value,
        rest) := by
  induction digits generalizing value seen with
  | nil =>
    obtain rfl : seen = true := hSeen.resolve_right (by simp)
    cases rest with
    | nil => rfl
    | cons c more =>
      obtain ⟨hDigit, hOther⟩ := hRest c rfl
      have hc : c ≠ '_' := fun h => hOther (h ▸ .head _)
      rw [List.nil_append, scanDigits, beq_eq_false_iff_ne.mpr hc, hDigit]
      rfl
  | cons c more ih =>
    have hMore := fun other hOther => hDigits other (.tail _ hOther)
    rw [List.cons_append, scanDigits]
    by_cases hc : c = '_'
    · -- an underscore is passed over, and leaves a digit still to come if there was none
      subst hc
      have hFirst' : seen = true ∨ base ≠ 10 := by simpa using hFirst
      have hSeen' : seen = true ∨ ∃ c ∈ more, c ≠ '_' := by simpa using hSeen
      have hGoesOn : (seen || base != 10) = true := by simpa using hFirst'
      rw [if_pos (beq_self_eq_true _), if_pos hGoesOn,
        ih hMore value hSeen' (hFirst'.imp_right .inl)]
      rfl
    · obtain ⟨digit, hLess, hDigit⟩ := (hDigits c (.head _)).resolve_left hc
      rw [beq_eq_false_iff_ne.mpr hc, if_neg Bool.false_ne_true, List.filterMap_cons, hDigit]
      simp only [hLess, if_true, List.foldl_cons]
      exact ih hMore _ (.inl rfl) (.inl rfl)

section Numeral

variable {mark : String} {base : Nat} {digits rest : List Char}

theorem IsNumeral.scanDigits (h : IsNumeral base digits) (hRest : EndsNumeral rest) :
    scanDigits base 0 false (digits ++ rest) = some (digitsValue base digits, rest) := by
  rw [digitsValue_eq_foldl]
  refine scanDigits_append h.isDigit hRest 0 (.inr h.exists_digit) (.inr ?_)
  by_cases hBase : base = 10
  · exact .inr (h.starts hBase)
  · exact .inl hBase

theorem isDigit_of_hexDigit? {c : Char} {digit : Nat} (h : hexDigit? c = some digit)
    (hLess : digit < 10) : c.isDigit = true := by
  unfold hexDigit? at h
  split_ifs at h with hDecimal hLower hUpper
  · rw [Bool.and_eq_true, decide_eq_true_eq, decide_eq_true_eq] at hDecimal
    rw [Char.isDigit, Bool.and_eq_true, decide_eq_true_eq, decide_eq_true_eq]
    exact hDecimal
  · have hDigit := Option.some.inj h
    omega
  · have hDigit := Option.some.inj h
    omega

/-- A numeral without a mark is made of digits and underscores, with a digit first. -/
theorem IsNumeral.decimal (h : IsNumeral 10 digits) :
    (∀ c ∈ digits, isDecimalPart c = true) ∧ ∃ c more, digits = c :: more ∧ c.isDigit = true := by
  have hDigit : ∀ c ∈ digits, c ≠ '_' → c.isDigit = true := by
    intro c hMem hc
    obtain ⟨digit, hLess, hFound⟩ := (h.isDigit c hMem).resolve_left hc
    exact isDigit_of_hexDigit? hFound hLess
  refine ⟨fun c hMem => ?_, ?_⟩
  · by_cases hc : c = '_'
    · rw [hc]
      rfl
    · rw [isDecimalPart, hDigit c hMem hc, Bool.true_or]
  · obtain ⟨other, hOther, -⟩ := h.exists_digit
    obtain ⟨c, more, rfl⟩ := List.exists_cons_of_ne_nil (List.ne_nil_of_mem hOther)
    have hc : c ≠ '_' := fun hc => h.starts rfl (hc ▸ rfl)
    exact ⟨c, more, rfl, hDigit c (.head _) hc⟩

/-- What ends a numeral is no part of it, nor of a number with a point, nor of a mark. -/
theorem EndsNumeral.not_decimal (h : EndsNumeral rest) :
    ∀ c ∈ rest.head?, isDecimalPart c = false ∧ c ∉ ['.', 'e', 'E', 'x', 'o', 'b'] := by
  intro c hFirst
  obtain ⟨hDigit, hOther⟩ := h c hFirst
  have hNumber : c.isDigit = false := by
    rw [Bool.eq_false_iff]
    intro hTen
    rw [Char.isDigit, Bool.and_eq_true, decide_eq_true_eq, decide_eq_true_eq] at hTen
    have hRange : ('0' ≤ c && c ≤ '9') = true := by
      rw [Bool.and_eq_true, decide_eq_true_eq, decide_eq_true_eq]
      exact hTen
    rw [hexDigit?, if_pos hRange] at hDigit
    cases hDigit
  -- the marks of an exponent and of the binary base are hexadecimal digits as well
  have hNot : ∀ other, (hexDigit? other).isSome = true ∨ other ∈ ['_', '.', 'x', 'o'] →
      c ≠ other := by
    rintro other (hSome | hMark) rfl
    · rw [hDigit] at hSome
      cases hSome
    · exact hOther hMark
  constructor
  · rw [isDecimalPart, hNumber, Bool.false_or, beq_eq_false_iff_ne]
    exact hNot '_' (by decide)
  · simp only [List.mem_cons, List.not_mem_nil, or_false, not_or]
    exact ⟨hNot '.' (by decide), hNot 'e' (by decide), hNot 'E' (by decide), hNot 'x' (by decide),
      hNot 'o' (by decide), hNot 'b' (by decide)⟩

/-! ## Reading -/

/-- What starts with a digit and has no point or exponent behind its decimal digits is read as a
whole number. -/
theorem scanLiteral_eq_scanInt {c : Char} {more : List Char} (hFirst : c.isDigit = true)
    (hAfter : ∀ other ∈ ((c :: more).dropWhile isDecimalPart).head?, other ∉ ['.', 'e', 'E']) :
    scanLiteral (c :: more) = scanInt (c :: more) := by
  -- a number with a point is tried first, and wants a point or an exponent behind the digits
  have hFloat : scanFloatDigits (c :: more) = none := by
    unfold scanFloatDigits
    dsimp only
    rw [List.head?_cons, Option.any_some, hFirst, Bool.not_true, if_neg Bool.false_ne_true]
    cases hRest : (c :: more).dropWhile isDecimalPart with
    | nil => rfl
    | cons other rest =>
      have hOther := hAfter other (by rw [hRest]; rfl)
      simp only [List.mem_cons, List.not_mem_nil, or_false, not_or] at hOther
      simp [hOther]
  have hNot : ∀ other, other.isDigit = false → c ≠ other := by
    rintro other hOther rfl
    rw [hFirst] at hOther
    cases hOther
  -- no text, and no character, starts with a digit
  have hString : scanString (c :: more) = none := by
    unfold scanString
    dsimp only
    split
    · exact absurd (List.cons.inj ‹_›).1 (hNot '"' rfl)
    · exact absurd (List.cons.inj ‹_›).1 (hNot 'r' rfl)
    · exact absurd (List.cons.inj ‹_›).1 (hNot 'b' rfl)
    · exact absurd (List.cons.inj ‹_›).1 (hNot 'b' rfl)
    · exact absurd (List.cons.inj ‹_›).1 (hNot 'c' rfl)
    · exact absurd (List.cons.inj ‹_›).1 (hNot 'c' rfl)
    · rfl
  unfold scanLiteral
  rw [hString, scanFloat, hFloat]
  split
  · exact absurd (List.cons.inj ‹_›).1 (hNot 'b' rfl)
  · exact absurd (List.cons.inj ‹_›).1 (hNot '\'' rfl)
  · rfl

/-- The characters of a mark and of digits behind it, before what ends a numeral. -/
theorem scanWhole_numeral (hBase : (mark, base) ∈ bases) (h : IsNumeral base digits)
    (hRest : EndsNumeral rest) : scanWhole (mark.toList ++ (digits ++ rest)) =
      some (digitsValue base digits, rest) := by
  simp only [bases, List.mem_cons, Prod.mk.injEq, List.not_mem_nil, or_false] at hBase
  rcases hBase with ⟨rfl, rfl⟩ | ⟨rfl, rfl⟩ | ⟨rfl, rfl⟩ | ⟨rfl, rfl⟩
  · rw [String.toList_empty, List.nil_append, ← h.scanDigits hRest]
    -- the second character is none of a mark, whether it belongs to the digits or is behind them
    have hSecond : ∀ first second others, digits ++ rest = first :: second :: others →
        second ∉ ['x', 'o', 'b'] := by
      intro first second others hText
      obtain ⟨hParts, c, more, rfl, -⟩ := h.decimal
      obtain ⟨-, hMore⟩ := List.cons.inj hText
      cases more with
      | nil =>
        obtain rfl : rest = second :: others := hMore
        obtain ⟨-, hOther⟩ := hRest.not_decimal second rfl
        exact fun hMem => hOther (List.mem_append_right ['.', 'e', 'E'] hMem)
      | cons next more =>
        obtain ⟨rfl, -⟩ := List.cons.inj hMore
        have hPart := hParts next (.tail _ (.head _))
        intro hMem
        simp only [List.mem_cons, List.not_mem_nil, or_false] at hMem
        rcases hMem with rfl | rfl | rfl <;> cases hPart
    unfold scanWhole
    split
    · exact absurd (.head _) (hSecond _ _ _ ‹_›)
    · exact absurd (.tail _ (.head _)) (hSecond _ _ _ ‹_›)
    · exact absurd (.tail _ (.tail _ (.head _))) (hSecond _ _ _ ‹_›)
    · rfl
  · exact h.scanDigits hRest
  · exact h.scanDigits hRest
  · exact h.scanDigits hRest

/-- A numeral in any base is read as the number that its digits denote, with the name of a type
behind it passed over. -/
theorem scanLiteral_numeral (hBase : (mark, base) ∈ bases) (h : IsNumeral base digits)
    (hRest : EndsNumeral rest) : scanLiteral (mark.toList ++ (digits ++ rest)) =
      (endNumber rest).map fun after =>
        (.int (digitsValue base digits) (after.length < rest.length), after) := by
  have hWhole := scanWhole_numeral hBase h hRest
  have hInt : scanLiteral (mark.toList ++ (digits ++ rest)) =
      scanInt (mark.toList ++ (digits ++ rest)) := by
    simp only [bases, List.mem_cons, Prod.mk.injEq, List.not_mem_nil, or_false] at hBase
    rcases hBase with ⟨rfl, rfl⟩ | ⟨rfl, rfl⟩ | ⟨rfl, rfl⟩ | ⟨rfl, rfl⟩
    · -- behind a numeral without a mark the digits end where the numeral does
      obtain ⟨hParts, c, more, rfl, hFirst⟩ := h.decimal
      have hAfter : ((c :: more) ++ rest).dropWhile isDecimalPart = rest := by
        rw [List.dropWhile_append_of_pos hParts]
        cases rest with
        | nil => rfl
        | cons other others =>
          rw [List.dropWhile_cons, (hRest.not_decimal other rfl).1, if_neg Bool.false_ne_true]
      refine scanLiteral_eq_scanInt hFirst fun other hOther => ?_
      change other ∈ (((c :: more) ++ rest).dropWhile isDecimalPart).head? at hOther
      rw [hAfter] at hOther
      have hNot := (hRest.not_decimal other hOther).2
      exact fun hMem => hNot (List.mem_append_left ['x', 'o', 'b'] hMem)
    · exact scanLiteral_eq_scanInt rfl (by rintro other ⟨⟩; decide)
    · exact scanLiteral_eq_scanInt rfl (by rintro other ⟨⟩; decide)
    · exact scanLiteral_eq_scanInt rfl (by rintro other ⟨⟩; decide)
  rw [hInt, scanInt, hWhole]
  cases hEnd : endNumber rest with
  | none => simp [hEnd]
  | some after => simp [hEnd]

end Numeral

end Ambient.Source
