import Ambient.Proofs.TokenParser
import Ambient.Source.Grammar

/-!
# Reading a path back

Path words joined by separators are read as the path of these very words
(`parsePath?_intercalate`): no word runs into the separator after it, none is taken for the
beginning of a literal, and none for that of arguments.
-/

namespace Ambient.Source

/-! ## Words in front of a separator -/

/-- Whether nothing follows a word, or a separator. -/
def EndsWord (source : List Char) : Prop :=
  source = [] ∨ ∃ rest, source = ':' :: ':' :: rest

variable {word source : List Char}

/-- A text without a colon that a source starts with is a part of its first word. -/
theorem mem_of_startsWith {text : String} (hText : ':' ∉ text.toList)
    (hSource : EndsWord source) (h : startsWith text (word ++ source) = true) :
    ∀ c ∈ text.toList, c ∈ word := by
  have hPrefix : text.toList <+: word ++ source := List.isPrefixOf_iff_prefix.mp h
  have hWord : text.toList <+: word := by
    rcases List.prefix_or_prefix_of_prefix hPrefix (List.prefix_append word source) with
      hWord | ⟨more, hMore⟩
    · exact hWord
    · -- what goes on after the word is the start of a separator
      rw [← hMore] at hPrefix hText
      have hSeparator := (List.prefix_append_right_inj word).mp hPrefix
      cases more with
      | nil => rw [← hMore]; simp
      | cons c more =>
        rcases hSource with rfl | ⟨rest, rfl⟩
        · cases List.prefix_nil.mp hSeparator
        · obtain ⟨rfl, -⟩ := List.cons_prefix_cons.mp hSeparator
          exact absurd (List.mem_append_right word (List.mem_cons_self ..)) hText
  exact fun c hc => hWord.subset hc

/-- A text with a character that stands in no word starts no source that starts with a word. -/
theorem startsWith_eq_false (h : SpellsWord word) (hSource : EndsWord source) (text : String)
    (hText : ':' ∉ text.toList)
    (hMark : ∃ c ∈ text.toList, startsWord c = false ∧ continuesWord c = false) :
    startsWith text (word ++ source) = false := by
  obtain ⟨c, hc, hStarts, hContinues⟩ := hMark
  rw [Bool.eq_false_iff]
  exact fun hStart => h.not_mem hStarts hContinues (mem_of_startsWith hText hSource hStart c hc)

theorem literalMarks_eq_false (h : SpellsWord word) (hSource : EndsWord source) :
    literalMarks.any (startsWith · (word ++ source)) = false := by
  have hMarks : ∀ mark ∈ literalMarks, ':' ∉ mark.toList ∧
      mark.toList.any (fun c => !startsWord c && !continuesWord c) = true := by
    decide
  rw [List.any_eq_false]
  intro mark hMark
  obtain ⟨hColon, hSome⟩ := hMarks mark hMark
  obtain ⟨c, hc, hNone⟩ := List.any_eq_true.mp hSome
  rw [Bool.and_eq_true, Bool.not_eq_true', Bool.not_eq_true'] at hNone
  rw [startsWith_eq_false h hSource mark hColon ⟨c, hc, hNone⟩]
  exact Bool.false_ne_true

/-- A word takes a source to its first character that no word holds. -/
theorem scanWord_append (h : SpellsWord word) (hSource : EndsWord source) :
    scanWord (word ++ source) = some (String.ofList word, source) := by
  obtain ⟨first, rest, rfl, hFirst, hRest⟩ := h
  have hColon : continuesWord ':' = false := by decide
  -- the word ends at the end of the source or at a colon
  have hTake : (rest ++ source).takeWhile continuesWord = rest := by
    rcases hSource with rfl | ⟨after, rfl⟩
    · rw [List.append_nil, List.takeWhile_eq_self_iff]
      exact hRest
    · rw [List.takeWhile_append_of_pos hRest, List.takeWhile_cons, hColon]
      simp
  have hDrop : (rest ++ source).dropWhile continuesWord = source := by
    rcases hSource with rfl | ⟨after, rfl⟩
    · rw [List.append_nil, List.dropWhile_eq_nil_iff]
      exact hRest
    · rw [List.dropWhile_append_of_pos hRest, List.dropWhile_cons, hColon]
      simp
  rw [List.cons_append, scanWord, if_pos hFirst, hTake, hDrop]

theorem scanIdent_append (h : SpellsWord word) (hSource : EndsWord source) (line : Nat) :
    scanIdent line (word ++ source) = some (⟨String.ofList word, false, line⟩, source) := by
  rw [scanIdent, literalMarks_eq_false h hSource, if_neg Bool.false_ne_true]
  have hRaw := startsWith_eq_false h hSource "r#" (by decide) ⟨'#', by decide, by decide⟩
  unfold scanSpelled
  split
  · rename_i heq
    rw [heq] at hRaw
    cases hRaw
  · rw [scanWord_append h hSource]
    rfl

/-! ## Words are no literals -/

/-- A raw literal goes on after its `r` with a hash or a quote. -/
theorem scanRawString_eq_none {kind : QuotedKind} {source : List Char}
    (hHash : source.head? ≠ some '#') (hQuote : source.head? ≠ some '"') :
    scanRawString kind source = none := by
  unfold scanRawString
  cases source with
  | nil => rfl
  | cons c rest =>
    have hc : (c == '#') = false := by simpa using hHash
    rw [List.dropWhile_cons, hc]
    dsimp only
    split
    · rename_i heq
      cases heq
      exact absurd rfl hQuote
    · rfl

theorem head?_ne_of_startsWith {before rest : List Char} {c : Char}
    (h : startsWith (String.ofList (before ++ [c])) (before ++ rest) = false) :
    rest.head? ≠ some c := by
  intro hHead
  obtain ⟨after, rfl⟩ := List.head?_eq_some_iff.mp hHead
  refine Bool.eq_false_iff.mp h (List.isPrefixOf_iff_prefix.mpr ?_)
  rw [String.toList_ofList]
  exact ⟨after, by simp⟩

theorem scanString_eq_none (h : SpellsWord word) (hSource : EndsWord source) :
    scanString (word ++ source) = none := by
  have hNone (text : String) (hText : ':' ∉ text.toList)
      (hMark : '"' ∈ text.toList ∨ '#' ∈ text.toList) :
      startsWith text (word ++ source) = false := by
    refine startsWith_eq_false h hSource text hText ?_
    rcases hMark with hMark | hMark
    · exact ⟨_, hMark, by decide⟩
    · exact ⟨_, hMark, by decide⟩
  -- each prefix of a string literal has a character that no word holds
  unfold scanString
  dsimp only
  split
  · rename_i heq
    rw [heq] at hNone
    cases hNone "\"" (by decide) (by decide)
  · rename_i heq
    rw [heq] at hNone
    rw [scanRawString_eq_none
      (@head?_ne_of_startsWith ['r'] _ '#' (hNone "r#" (by decide) (by decide)))
      (@head?_ne_of_startsWith ['r'] _ '"' (hNone "r\"" (by decide) (by decide)))]
    rfl
  · rename_i heq
    rw [heq] at hNone
    cases hNone "b\"" (by decide) (by decide)
  · rename_i heq
    rw [heq] at hNone
    rw [scanRawString_eq_none
      (@head?_ne_of_startsWith ['b', 'r'] _ '#' (hNone "br#" (by decide) (by decide)))
      (@head?_ne_of_startsWith ['b', 'r'] _ '"' (hNone "br\"" (by decide) (by decide)))]
    rfl
  · rename_i heq
    rw [heq] at hNone
    cases hNone "c\"" (by decide) (by decide)
  · rename_i heq
    rw [heq] at hNone
    rw [scanRawString_eq_none
      (@head?_ne_of_startsWith ['c', 'r'] _ '#' (hNone "cr#" (by decide) (by decide)))
      (@head?_ne_of_startsWith ['c', 'r'] _ '"' (hNone "cr\"" (by decide) (by decide)))]
    rfl
  · rfl

/-- Words start with letters, which come after the digits. -/
theorem le_toNat_of_startsWord {c : Char} (h : startsWord c = true) : 0x41 ≤ c.toNat := by
  rw [startsWord, Bool.or_eq_true] at h
  rcases h with hBlank | hLetter
  · rw [beq_iff_eq.mp hBlank]
    decide
  · by_contra hLess
    rw [Text.startsName, Text.Boundaries.identifierStart, Text.within, if_pos (by omega)] at hLetter
    cases hLetter

theorem not_isDigit_of_startsWord {c : Char} (h : startsWord c = true) : c.isDigit = false := by
  have hLetter := le_toNat_of_startsWord h
  rw [Bool.eq_false_iff]
  intro hDigit
  simp only [Char.isDigit, Bool.and_eq_true, decide_eq_true_eq, UInt32.le_iff_toNat_le] at hDigit
  have hUpper : c.toNat ≤ 57 := hDigit.2
  omega

theorem hexDigit?_of_startsWord {c : Char} (h : startsWord c = true) :
    ∀ digit ∈ hexDigit? c, 10 ≤ digit := by
  have hLetter := le_toNat_of_startsWord h
  intro digit hDigit
  unfold hexDigit? at hDigit
  split_ifs at hDigit with hDecimal hLower hUpper
  · simp only [Bool.and_eq_true, decide_eq_true_eq, Char.le_def, UInt32.le_iff_toNat_le] at hDecimal
    have hNine : c.toNat ≤ 57 := hDecimal.2
    omega
  · cases hDigit
    omega
  · cases hDigit
    omega
  · cases hDigit

theorem scanInt_eq_none {c : Char} {rest : List Char} (h : startsWord c = true) :
    scanInt (c :: rest) = none := by
  -- a letter that could be a digit is none to the base ten
  have hDigits : scanDigits 10 0 false (c :: rest) = none := by
    rw [scanDigits]
    split
    · rfl
    · split
      · rename_i digit hDigit
        rw [if_neg (by have := hexDigit?_of_startsWord h digit hDigit; omega),
          not_isDigit_of_startsWord h]
        rfl
      · rfl
  have hZero : c ≠ '0' := by
    rintro rfl
    exact absurd h (by decide)
  have hWhole : scanWhole (c :: rest) = none := by
    unfold scanWhole
    split
    · exact absurd (List.cons.inj ‹_›).1 hZero
    · exact absurd (List.cons.inj ‹_›).1 hZero
    · exact absurd (List.cons.inj ‹_›).1 hZero
    · exact hDigits
  rw [scanInt, hWhole]
  rfl

theorem scanLiteral_eq_none (h : SpellsWord word) (hSource : EndsWord source) :
    scanLiteral (word ++ source) = none := by
  have hCharacter := startsWith_eq_false h hSource "b'" (by decide)
    ⟨'\'', by decide, by decide⟩
  have hQuote := startsWith_eq_false h hSource "'" (by decide) ⟨'\'', by decide, by decide⟩
  obtain ⟨first, rest, hWord, hFirst, -⟩ := id h
  -- numbers start with a digit
  have hFloat : scanFloat (word ++ source) = none := by
    rw [hWord, List.cons_append, scanFloat, scanFloatDigits]
    simp [not_isDigit_of_startsWord hFirst]
  have hInt : scanInt (word ++ source) = none := by
    rw [hWord]
    exact scanInt_eq_none hFirst
  unfold scanLiteral
  rw [scanString_eq_none h hSource, hFloat, hInt]
  split
  · rename_i heq
    rw [heq] at hCharacter
    cases hCharacter
  · rename_i heq
    rw [heq] at hQuote
    cases hQuote
  · rfl

/-! ## Reading words and separators -/

/-- A character that starts a word is none of those that do not. -/
theorem not_mem_of_startsWord {c : Char} (h : startsWord c = true) {others : List Char}
    (hOthers : others.all (!startsWord ·) = true) : c ∉ others := by
  intro hMem
  have hOther := List.all_eq_true.mp hOthers c hMem
  rw [h] at hOther
  cases hOther

/-- The code points of the spaces beyond ASCII, and of the byte order mark. -/
def wideSpaces : List Nat :=
  [0x85, 0xA0, 0x1680, 0x2000, 0x2001, 0x2002, 0x2003, 0x2004, 0x2005, 0x2006, 0x2007, 0x2008,
    0x2009, 0x200A, 0x200E, 0x200F, 0x2028, 0x2029, 0x202F, 0x205F, 0x3000, 0xFEFF]

theorem not_mem_wideSpaces {c : Char} (h : startsWord c = true) : c.toNat ∉ wideSpaces := by
  have hSpaces : ∀ n ∈ wideSpaces, startsWord (Char.ofNat n) = false := by
    decide +kernel
  intro hMem
  have hFalse := hSpaces _ hMem
  rw [Char.ofNat_toNat, h] at hFalse
  cases hFalse

theorem isSpace_of_startsWord {c : Char} (h : startsWord c = true) : isSpace c = false := by
  have hLetter := le_toNat_of_startsWord h
  have hOther := not_mem_wideSpaces h
  simp only [wideSpaces, List.mem_cons, List.not_mem_nil, or_false, not_or] at hOther
  simp only [isSpace, Text.isBlank, Bool.or_eq_false_iff, Bool.and_eq_false_iff,
    decide_eq_false_iff_not, beq_eq_false_iff_ne]
  omega

theorem scanSingle_append (h : SpellsWord word) (hSource : EndsWord source) (line : Nat) :
    scanSingle line (word ++ source) =
      some (.ident ⟨String.ofList word, false, line⟩, source) := by
  have hMark := startsWith_eq_false h hSource errorMark (by decide)
    ⟨'(', by decide, by decide⟩
  have hPunct : startsPunct (word ++ source) = false := by
    obtain ⟨first, rest, rfl, hFirst, -⟩ := h
    have hOther : first ∉ punctuation := not_mem_of_startsWord hFirst (by decide)
    simp [startsPunct, hOther]
  unfold scanSingle
  rw [scanLiteral_eq_none h hSource]
  dsimp only
  rw [hPunct, hMark, if_neg Bool.false_ne_true, if_neg Bool.false_ne_true,
    scanIdent_append h hSource]
  rfl

theorem lexemes_word (h : SpellsWord word) (hSource : EndsWord source) (budget line : Nat) :
    ∃ after, lexemes (budget + 1) line (word ++ source) = (lexemes budget after source).map
      (.single (.ident ⟨String.ofList word, false, line⟩) :: ·) := by
  -- nothing that comes before the words in the order of the scanner starts like one
  have hSlash (text : String) (hText : ':' ∉ text.toList) (hc : '/' ∈ text.toList) :
      startsWith text (word ++ source) = false :=
    startsWith_eq_false h hSource text hText ⟨'/', hc, by decide⟩
  have hLine : startsLineComment (word ++ source) = false := by
    rw [startsLineComment, hSlash "//" (by decide) (by decide)]
    rfl
  have hBlock : startsBlockComment (word ++ source) = false := by
    rw [startsBlockComment, hSlash "/**/" (by decide) (by decide),
      hSlash "/*" (by decide) (by decide)]
    rfl
  have hSingle := scanSingle_append h hSource line
  obtain ⟨first, rest, rfl, hFirst, -⟩ := h
  have hOther : first ∉ ['/', '(', '[', '{', ')', ']', '}'] :=
    not_mem_of_startsWord hFirst (by decide)
  simp only [List.mem_cons, List.not_mem_nil, or_false, not_or] at hOther
  have hDoc : scanDoc (first :: rest ++ source) = none := by
    unfold scanDoc
    split <;> first
      | exact absurd (List.cons.inj ‹_›).1 hOther.1
      | rfl
  have hOpens : opens? (first :: rest ++ source) = none := by
    unfold opens?
    split
    · exact absurd (List.cons.inj ‹_›).1 hOther.2.1
    · exact absurd (List.cons.inj ‹_›).1 hOther.2.2.1
    · exact absurd (List.cons.inj ‹_›).1 hOther.2.2.2.1
    · rfl
  have hCloses : closes? first = none := by
    simp [closes?, hOther]
  rw [List.cons_append] at *
  rw [lexemes, isSpace_of_startsWord hFirst, hLine, hBlock, hDoc, hOpens, hCloses, hSingle]
  exact ⟨_, rfl⟩

theorem lexemes_separator {first : Char} {rest : List Char} (h : startsWord first = true)
    (budget line : Nat) :
    ∃ after, lexemes (budget + 2) line (':' :: ':' :: first :: rest) =
      (lexemes budget after (first :: rest)).map fun found =>
        .single (.punct ':' true) :: .single (.punct ':' false) :: found := by
  have hPunct : startsPunct (first :: rest) = false := by
    have hOther : first ∉ punctuation := not_mem_of_startsWord h (by decide)
    simp [startsPunct, hOther]
  have hLiteral (rest : List Char) : scanLiteral (':' :: rest) = none := by
    rfl
  have hSingle (line : Nat) (rest : List Char) :
      scanSingle line (':' :: rest) = some (.punct ':' (startsPunct rest), rest) := by
    unfold scanSingle
    rw [hLiteral]
    rfl
  -- a colon is always a token of its own; the next character says if it is joint
  have hColon (budget line : Nat) (rest : List Char) : lexemes (budget + 1) line (':' :: rest) =
      (lexemes budget (line + linesRead (':' :: rest) rest) rest).map
        (.single (.punct ':' (startsPunct rest)) :: ·) := by
    have hSpace : isSpace ':' = false := by decide
    have hLine : startsLineComment (':' :: rest) = false := rfl
    have hBlock : startsBlockComment (':' :: rest) = false := rfl
    have hDoc : scanDoc (':' :: rest) = none := rfl
    have hOpens : opens? (':' :: rest) = none := rfl
    have hCloses : closes? ':' = none := rfl
    rw [lexemes, hSpace, hLine, hBlock, hDoc, hOpens, hCloses, hSingle]
    rfl
  have hJoint : startsPunct (':' :: first :: rest) = true := rfl
  rw [hColon, hColon, hPunct, hJoint, Option.map_map]
  exact ⟨_, rfl⟩

/-- The tokens of the segments that follow the first one, each after a separator. -/
def furtherTokens : List Ident → List Token
  | [] => []
  | ident :: rest => .punct ':' true :: .punct ':' false :: .ident ident :: furtherTokens rest

/-- The tokens of a path without arguments. -/
def pathTokens : List Ident → List Token
  | [] => []
  | ident :: rest => .ident ident :: furtherTokens rest

theorem starts_intercalate {word : String} (h : SpellsWord word.toList) (more : List String) :
    ∃ first rest, (QualifiedName.separator.intercalate (word :: more)).toList = first :: rest ∧
      startsWord first = true := by
  obtain ⟨first, rest, hWord, hFirst, -⟩ := h
  cases more with
  | nil => exact ⟨first, rest, by rw [String.intercalate_singleton, hWord], hFirst⟩
  | cons second others =>
    rw [QualifiedName.toList_intercalate_cons, hWord]
    exact ⟨first, _, rfl, hFirst⟩

/-- Words joined by separators are read as these words. -/
theorem lexemes_intercalate {words : List String} (h : ∀ word ∈ words, SpellsWord word.toList)
    {budget : Nat} (hBudget : 3 * words.length ≤ budget + 2) (line : Nat) :
    ∃ idents : List Ident, idents.map Ident.name = words ∧ (∀ ident ∈ idents, ident.raw = false) ∧
      lexemes budget line (QualifiedName.separator.intercalate words).toList =
        some ((pathTokens idents).map .single) := by
  induction words generalizing budget line with
  | nil => exact ⟨[], rfl, by simp, by simp [pathTokens, lexemes]⟩
  | cons first rest ih =>
    obtain ⟨hFirst, hRest⟩ := List.forall_mem_cons.mp h
    obtain ⟨budget, rfl⟩ : ∃ less, budget = less + 1 :=
      ⟨budget - 1, by simp only [List.length_cons] at hBudget; omega⟩
    cases rest with
    | nil =>
      obtain ⟨after, hWord⟩ := lexemes_word hFirst (.inl rfl) budget line
      rw [List.append_nil] at hWord
      refine ⟨[⟨first, false, line⟩], rfl, by simp, ?_⟩
      rw [String.intercalate_singleton, hWord, lexemes, String.ofList_toList]
      rfl
    | cons second others =>
      -- the word and the two colons take a step each, and the rest is a shorter path
      obtain ⟨budget, rfl⟩ : ∃ less, budget = less + 2 :=
        ⟨budget - 2, by simp only [List.length_cons] at hBudget; omega⟩
      obtain ⟨c, more, hMore, hStarts⟩ :=
        starts_intercalate (List.forall_mem_cons.mp hRest).1 others
      obtain ⟨separated, hWord⟩ := lexemes_word hFirst (.inr ⟨_, rfl⟩) (budget + 2) line
      obtain ⟨after, hSeparator⟩ := lexemes_separator hStarts budget separated
      rw [← hMore] at hSeparator
      have hLess : 3 * (second :: others).length ≤ budget + 2 := by
        simp only [List.length_cons] at hBudget ⊢
        omega
      obtain ⟨idents, hNames, hPlain, hFound⟩ := ih hRest hLess after
      refine ⟨⟨first, false, line⟩ :: idents, by rw [List.map_cons, hNames],
        List.forall_mem_cons.mpr ⟨rfl, hPlain⟩, ?_⟩
      cases idents with
      | nil => cases hNames
      | cons next more =>
        rw [QualifiedName.toList_intercalate_cons, hWord, hSeparator, hFound, String.ofList_toList]
        rfl

theorem length_intercalate {words : List String} (h : ∀ word ∈ words, SpellsWord word.toList) :
    3 * words.length ≤ (QualifiedName.separator.intercalate words).toList.length + 2 := by
  induction words with
  | nil => simp
  | cons first rest ih =>
    obtain ⟨⟨c, more, hFirst, -⟩, hRest⟩ := List.forall_mem_cons.mp h
    have hLess := ih hRest
    cases rest with
    | nil =>
      rw [String.intercalate_singleton, hFirst]
      simp only [List.length_cons, List.length_nil]
      omega
    | cons second others =>
      rw [QualifiedName.toList_intercalate_cons, hFirst]
      simp only [List.length_cons, List.length_append] at hLess ⊢
      omega

theorem assemble_single (done tokens : List Token) :
    assemble [] done (tokens.map .single) = some (done.reverse ++ tokens) := by
  induction tokens generalizing done with
  | nil => simp [assemble]
  | cons token rest ih =>
    rw [List.map_cons, assemble, ih]
    simp

theorem tokenize_intercalate {words : List String} (h : ∀ word ∈ words, SpellsWord word.toList) :
    ∃ idents : List Ident, idents.map Ident.name = words ∧ (∀ ident ∈ idents, ident.raw = false) ∧
      tokenize (QualifiedName.separator.intercalate words).toList = some (pathTokens idents) := by
  obtain ⟨idents, hNames, hPlain, hFound⟩ := lexemes_intercalate h (length_intercalate h) 1
  refine ⟨idents, hNames, hPlain, ?_⟩
  -- a byte order mark would be dropped, but a word does not start with one
  have hMark : dropMark (QualifiedName.separator.intercalate words).toList =
      (QualifiedName.separator.intercalate words).toList := by
    cases words with
    | nil => rfl
    | cons first rest =>
      obtain ⟨c, more, hMore, hStarts⟩ :=
        starts_intercalate (List.forall_mem_cons.mp h).1 rest
      rw [hMore, dropMark, if_neg]
      intro hMark
      rw [beq_iff_eq] at hMark
      exact not_mem_wideSpaces hStarts (hMark ▸ by decide)
  rw [tokenize, hMark, hFound, Option.bind_some, assemble_single]
  rfl

/-! ## Reading a path -/

/-- Whether a word may be a segment of a path: it is a name, or one of the words that paths start
with. -/
def Ident.isSegment (ident : Ident) : Bool :=
  ident.isName || (!ident.raw && ident.name ∈ ["crate", "self", "super", "Self", "try"])

namespace Grammar

open TokenParser

/-- After a word of a path nothing follows, or a separator and a word. -/
theorem cases_furtherTokens (rest : List Ident) : furtherTokens rest = [] ∨
    ∃ ident more,
      furtherTokens rest = .punct ':' true :: .punct ':' false :: .ident ident :: more := by
  cases rest with
  | nil => exact .inl rfl
  | cons ident more => exact .inr ⟨ident, _, rfl⟩

theorem segment_furtherTokens {g : Grammar} {ident : Ident} (h : ident.isSegment = true)
    (rest : List Ident) : g.segment false (.ident ident :: furtherTokens rest) =
      some (⟨ident, none⟩, furtherTokens rest) := by
  have hWord (rest : List Token) : anyWord (.ident ident :: rest) = some (ident, rest) := rfl
  have hAngle : atOp "<" (furtherTokens rest) = false := by
    rcases cases_furtherTokens rest with hEnd | ⟨next, more, hNext⟩
    · rw [hEnd]
      rfl
    · rw [hNext]
      rfl
  have hTurbofish : (atOp "::" (furtherTokens rest) &&
      atOp "<" ((furtherTokens rest).drop 2)) = false := by
    rcases cases_furtherTokens rest with hEnd | ⟨next, more, hNext⟩
    · rw [hEnd]
      rfl
    · rw [hNext]
      rfl
  have hEnd : (do
      if !false && (← sees (atOp "<")) && !(← sees (atOps ["<=", "<<="])) then
        return ⟨ident, some (← g.angleArguments)⟩
      if (← sees (atOp "::")) && (← seesAfter 2 (atOp "<")) then
        op "::"
        return ⟨ident, some (← g.angleArguments)⟩
      return ⟨ident, none⟩ : TokenParser Segment) (furtherTokens rest) =
        some (⟨ident, none⟩, furtherTokens rest) := by
    rw [bind_of_eq (rfl : sees _ _ = some (_, _)),
      bind_of_eq (rfl : sees _ _ = some (_, _)), hAngle]
    rw [if_neg (by simp), bind_of_eq (rfl : sees _ _ = some (_, _)),
      bind_of_eq (rfl : seesAfter _ _ _ = some (_, _)), hTurbofish, if_neg Bool.false_ne_true]
    rfl
  unfold segment
  by_cases hStart : atWords ["super", "self", "crate", "try"] (.ident ident :: furtherTokens rest)
  · rw [bind_of_eq (rfl : sees _ _ = some (_, _)), if_pos hStart, bind_of_eq (hWord _)]
    rfl
  · rw [bind_of_eq (rfl : sees _ _ = some (_, _)), if_neg hStart]
    by_cases hSelf : atWord "Self" (.ident ident :: furtherTokens rest) = true
    · dsimp only
      rw [bind_of_eq (rfl : sees _ _ = some (_, _)), if_pos hSelf, bind_of_eq (hWord _)]
      exact hEnd
    · have hName :
          name (.ident ident :: furtherTokens rest) = some (ident, furtherTokens rest) := by
        have hIsName : ident.isName = true := by
          rw [Ident.isSegment, Bool.or_eq_true] at h
          refine h.resolve_right fun hReserved => ?_
          -- the words that paths start with have been seen to
          rw [Bool.and_eq_true, decide_eq_true_iff] at hReserved
          obtain ⟨hPlain, hWord⟩ := hReserved
          simp only [atWords, atWord, hPlain, Bool.true_and, List.any_cons, List.any_nil,
            Bool.or_false, Bool.or_eq_true, beq_iff_eq, not_or] at hStart hSelf
          simp only [List.mem_cons, List.not_mem_nil, or_false] at hWord
          grind
        rw [name, bind_of_eq (hWord _), if_pos hIsName]
        rfl
      dsimp only
      rw [bind_of_eq (rfl : sees _ _ = some (_, _)), if_neg hSelf, bind_of_eq hName]
      exact hEnd

theorem length_le_furtherTokens (rest : List Ident) :
    rest.length ≤ (furtherTokens rest).length := by
  induction rest with
  | nil => exact Nat.le_refl _
  | cons ident more ih =>
    rw [furtherTokens]
    simp only [List.length_cons]
    omega

/-- The segments after the first one are read round by round. -/
theorem many_furtherTokens {g : Grammar} {rest : List Ident}
    (h : ∀ ident ∈ rest, ident.isSegment = true) :
    many (do
      if (← sees (atOp "::")) && !(← seesAfter 2 (atGroup .parenthesis)) then
        op "::"
        return some (← g.segment false)
      return none) (furtherTokens rest) =
        some (rest.map fun ident => ⟨ident, none⟩, []) := by
  have hBudget := length_le_furtherTokens rest
  rw [many, bind_of_eq (rfl : (get : TokenParser _) _ = some (_, _))]
  -- the budget is the number of tokens, of which each round takes at least one
  generalize (furtherTokens rest).length = budget at hBudget ⊢
  induction rest generalizing budget with
  | nil => rfl
  | cons ident more ih =>
    obtain ⟨hIdent, hMore⟩ := List.forall_mem_cons.mp h
    obtain ⟨budget, rfl⟩ : ∃ less, budget = less + 1 :=
      ⟨budget - 1, by simp only [List.length_cons] at hBudget; omega⟩
    have hRest := ih hMore budget (by simpa using hBudget)
    -- a round reads a separator and the word behind it
    have hRound : (do
        if (← sees (atOp "::")) && !(← seesAfter 2 (atGroup .parenthesis)) then
          op "::"
          return some (← g.segment false)
        return none : TokenParser (Option Segment)) (furtherTokens (ident :: more)) =
          some (some ⟨ident, none⟩, furtherTokens more) := by
      have hStarts : (atOp "::" (furtherTokens (ident :: more)) &&
          !atGroup .parenthesis ((furtherTokens (ident :: more)).drop 2)) = true := rfl
      rw [bind_of_eq (rfl : sees _ _ = some (_, _)),
        bind_of_eq (rfl : seesAfter _ _ _ = some (_, _)), if_pos hStarts,
        bind_of_eq (rfl : op _ _ = some (_, .ident ident :: furtherTokens more)),
        bind_of_eq (segment_furtherTokens hIdent more)]
      rfl
    rw [repeated, bind_of_eq hRound]
    dsimp only
    rw [bind_of_eq hRest]
    rfl

theorem path_pathTokens {g : Grammar} {first : Ident} {rest : List Ident}
    (h : ∀ ident ∈ first :: rest, ident.isSegment = true) :
    ∃ path, g.path false (pathTokens (first :: rest)) = some (path, []) ∧
      path.words = first :: rest := by
  obtain ⟨hFirst, hRest⟩ := List.forall_mem_cons.mp h
  refine ⟨Path.ofSegments false ⟨first, none⟩ (rest.map fun ident => ⟨ident, none⟩), ?_, ?_⟩
  · rw [path, pathTokens, bind_of_eq (rfl : op? _ _ = some (_, _)),
      bind_of_eq (segment_furtherTokens hFirst rest)]
    rw [bind_of_eq (many_furtherTokens hRest)]
    rfl
  · rw [Path.words, Path.ofSegments, ← List.getLast_eq_getLastD (List.cons_ne_nil _ _),
      List.dropLast_concat_getLast, List.map_cons, List.map_map]
    exact congrArg _ (List.map_id rest)

end Grammar

/-- Path words joined by separators are read as the path of these words. -/
theorem parsePath?_intercalate {words : List String} (hSome : words ≠ [])
    (hSpelled : ∀ word ∈ words, SpellsWord word.toList)
    (hSegments : ∀ word ∈ words, word ∉ reserved ∨ word ∈ ["crate", "self", "super"]) :
    ∃ idents, parsePath? (QualifiedName.separator.intercalate words) = some idents ∧
      idents.map Ident.spelling = words := by
  obtain ⟨idents, hNames, hPlain, hTokens⟩ := tokenize_intercalate hSpelled
  have hSpellings : idents.map Ident.spelling = words := by
    rw [← hNames]
    exact List.map_congr_left fun ident hIdent => by rw [Ident.spelling, hPlain ident hIdent]; rfl
  -- the words that start a path are segments though they are reserved
  have hIdents : ∀ ident ∈ idents, ident.isSegment = true := by
    intro ident hIdent
    rw [Ident.isSegment, Ident.isName, hPlain ident hIdent]
    rcases hSegments ident.name (hNames ▸ List.mem_map_of_mem hIdent) with hName | hStart
    · simp [hName]
    · have hSubset : ["crate", "self", "super"] ⊆ ["crate", "self", "super", "Self", "try"] := by
        decide
      simp [-List.mem_cons, hSubset hStart]
  cases idents with
  | nil => exact absurd hNames.symm hSome
  | cons first rest =>
    obtain ⟨path, hPath, hWords⟩ := Grammar.path_pathTokens
      (g := Grammar.ofDepth (Grammar.depthFor (pathTokens (first :: rest)))) hIdents
    refine ⟨first :: rest, ?_, hSpellings⟩
    rw [parsePath?, hTokens]
    simp [TokenParser.whole, hPath, hWords]

end Ambient.Source
