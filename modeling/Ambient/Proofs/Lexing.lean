import Ambient.Proofs.QualifiedName
import Ambient.Source.Lexer
import Ambient.Source.TokenParser
import Mathlib.Data.List.TakeWhile

/-!
# The words of a source

Whatever a source says, its words are words: the lexer makes identifiers of characters that may
stand in one (`tokenize_words`), so none holds a colon or the `#` of a raw spelling
(`Ident.IsWord.isSegment`, `Ident.IsWord.hash_not_mem`).  Parsers in turn make no word up: what one
leaves of its tokens holds no word that they did not hold (`TokenParser.Keeps`).
-/

namespace Ambient.Source

/-! ## Words -/

/-- Whether some characters start and go on like a word. -/
def SpellsWord (word : List Char) : Prop :=
  ∃ first rest, word = first :: rest ∧ startsWord first = true ∧
    ∀ c ∈ rest, continuesWord c = true

/-- A character that neither starts nor continues a word is in none. -/
theorem SpellsWord.not_mem {word : List Char} (h : SpellsWord word) {c : Char}
    (hStarts : startsWord c = false) (hContinues : continuesWord c = false) : c ∉ word := by
  obtain ⟨first, rest, rfl, hFirst, hRest⟩ := h
  intro hMem
  rcases List.mem_cons.mp hMem with rfl | hMem
  · exact Bool.noConfusion (hFirst.symm.trans hStarts)
  · exact Bool.noConfusion ((hRest c hMem).symm.trans hContinues)

/-- What every identifier of a source is: it is spelled like a word, and those words that have no
raw spelling are not spelled raw. -/
structure Ident.IsWord (ident : Ident) : Prop where
  spelled : SpellsWord ident.name.toList
  raw : ident.raw = true → ident.name ∉ neverRaw

namespace Ident.IsWord

variable {ident : Ident}

theorem isSegment (h : ident.IsWord) : QualifiedName.IsSegment ident.name := by
  refine ⟨fun hEmpty => ?_, h.spelled.not_mem (by decide) (by decide)⟩
  obtain ⟨first, rest, hName, -, -⟩ := h.spelled
  rw [hEmpty] at hName
  cases hName

theorem hash_not_mem (h : ident.IsWord) : '#' ∉ ident.name.toList :=
  h.spelled.not_mem (by decide) (by decide)

end Ident.IsWord

theorem scanWord_spelled {source rest : List Char} {name : String}
    (h : scanWord source = some (name, rest)) : SpellsWord name.toList := by
  unfold scanWord at h
  split at h
  · cases h
  · split at h <;> cases h
    rename_i first others hFirst
    refine ⟨first, others.takeWhile continuesWord, String.toList_ofList, hFirst, fun c hc => ?_⟩
    exact List.mem_takeWhile_imp hc

theorem scanSpelled_isWord {line : Nat} {source rest : List Char} {ident : Ident}
    (h : scanSpelled line source = some (ident, rest)) : ident.IsWord := by
  unfold scanSpelled at h
  split at h
  · obtain ⟨⟨name, after⟩, hScan, h⟩ := Option.bind_eq_some_iff.mp h
    dsimp only at h
    split at h
    · cases h
    · rename_i hRaw
      cases h
      exact ⟨scanWord_spelled hScan, fun _ => hRaw⟩
  · obtain ⟨⟨name, after⟩, hScan, h⟩ := Option.bind_eq_some_iff.mp h
    cases h
    exact ⟨scanWord_spelled hScan, fun hRaw => by cases hRaw⟩

theorem scanIdent_isWord {line : Nat} {source rest : List Char} {ident : Ident}
    (h : scanIdent line source = some (ident, rest)) : ident.IsWord := by
  unfold scanIdent at h
  split at h
  · cases h
  · exact scanSpelled_isWord h

/-! ## Words among tokens -/

mutual

/-- The words of a token; a group has those of the tokens inside it. -/
def Token.words : Token → List Ident
  | .ident ident => [ident]
  | .group _ content => wordsIn content
  | .lifetime => []
  | .punct _ _ => []
  | .literal _ => []

def wordsIn : List Token → List Ident
  | [] => []
  | token :: rest => token.words ++ wordsIn rest

end

theorem wordsIn_append (tokens more : List Token) :
    wordsIn (tokens ++ more) = wordsIn tokens ++ wordsIn more := by
  induction tokens with
  | nil => rfl
  | cons token rest ih =>
    rw [List.cons_append, wordsIn, ih, wordsIn, List.append_assoc]

theorem wordsIn_tail (token : Token) (rest : List Token) :
    wordsIn rest ⊆ wordsIn (token :: rest) := by
  exact List.subset_append_right _ _

theorem wordsIn_drop (count : Nat) (tokens : List Token) :
    wordsIn (tokens.drop count) ⊆ wordsIn tokens := by
  induction count generalizing tokens with
  | zero => exact List.Subset.refl _
  | succ count ih =>
    cases tokens with
    | nil => exact List.Subset.refl _
    | cons token rest => exact List.Subset.trans (ih rest) (wordsIn_tail token rest)

/-- Whether every identifier among some tokens is a word. -/
def AllWords (tokens : List Token) : Prop :=
  ∀ ident ∈ wordsIn tokens, ident.IsWord

theorem allWords_nil : AllWords [] := by
  intro ident h
  cases h

theorem allWords_cons {token : Token} {rest : List Token} :
    AllWords (token :: rest) ↔ (∀ ident ∈ token.words, ident.IsWord) ∧ AllWords rest :=
  List.forall_mem_append

theorem allWords_append {tokens more : List Token} :
    AllWords (tokens ++ more) ↔ AllWords tokens ∧ AllWords more := by
  unfold AllWords
  rw [wordsIn_append]
  exact List.forall_mem_append

theorem allWords_reverse {tokens : List Token} : AllWords tokens.reverse ↔ AllWords tokens := by
  induction tokens with
  | nil => rfl
  | cons token rest ih =>
    rw [List.reverse_cons, allWords_append, ih, allWords_cons, allWords_cons, and_comm,
      and_iff_left allWords_nil]

/-! ## The lexer -/

/-- The words of a lexeme. -/
def Lexeme.words : Lexeme → List Ident
  | .single token => token.words
  | .openGroup _ => []
  | .closeGroup _ => []

theorem scanQuote_words {line : Nat} {source rest : List Char} {token : Token}
    (h : scanQuote line source = some (token, rest)) : token.words = [] := by
  obtain ⟨⟨word, after⟩, -, h⟩ := Option.bind_eq_some_iff.mp h
  dsimp only at h
  split_ifs at h
  · cases h
    rfl
  · obtain ⟨⟨ident, left⟩, -, h⟩ := Option.map_eq_some_iff.mp h
    cases h
    rfl

theorem scanSingle_words {line : Nat} {source rest : List Char} {token : Token}
    (h : scanSingle line source = some (token, rest)) : ∀ ident ∈ token.words, ident.IsWord := by
  intro word hWord
  -- of what is scanned only identifiers have words
  unfold scanSingle at h
  split at h
  · cases h
    cases hWord
  · split_ifs at h
    · split at h
      · cases h
      · rw [scanQuote_words h] at hWord
        cases hWord
      · cases h
        cases hWord
    · cases h
      cases hWord
    · obtain ⟨⟨ident, left⟩, hIdent, h⟩ := Option.map_eq_some_iff.mp h
      cases h
      obtain rfl := List.mem_singleton.mp hWord
      exact scanIdent_isWord hIdent

/-- The only word of a documentation comment is that of the attribute it stands for. -/
theorem docLexemes_words {line : Nat} {isInner : Bool} {body : List Char} :
    ∀ lexeme ∈ docLexemes line isInner body, ∀ ident ∈ lexeme.words, ident.IsWord := by
  intro lexeme hLexeme ident hIdent
  have hDoc : ident = ⟨"doc", false, line⟩ := by
    cases isInner <;> simp only [docLexemes, if_true, Bool.false_eq_true, if_false,
      List.cons_append, List.nil_append, List.mem_cons, List.not_mem_nil, or_false] at hLexeme
    · rcases hLexeme with rfl | rfl
      · cases hIdent
      · simpa [Lexeme.words, Token.words, wordsIn] using hIdent
    · rcases hLexeme with rfl | rfl | rfl
      · cases hIdent
      · cases hIdent
      · simpa [Lexeme.words, Token.words, wordsIn] using hIdent
  rw [hDoc]
  have hSpelled : "doc".toList = ['d', 'o', 'c'] := rfl
  exact ⟨⟨'d', ['o', 'c'], hSpelled, by decide, List.all_eq_true.mp (by decide)⟩,
    fun hRaw => by cases hRaw⟩

theorem lexemes_words {budget line : Nat} {source : List Char} {found : List Lexeme}
    (h : lexemes budget line source = some found) :
    ∀ lexeme ∈ found, ∀ ident ∈ lexeme.words, ident.IsWord := by
  induction budget generalizing line source found with
  | zero =>
    cases source with
    | nil =>
      cases h
      intro lexeme hLexeme
      cases hLexeme
    | cons c rest => cases h
  | succ budget ih =>
    cases source with
    | nil =>
      cases h
      intro lexeme hLexeme
      cases hLexeme
    | cons c rest =>
      -- in turn: spaces, line comments, block comments, documentation, brackets, other tokens
      rw [lexemes] at h
      split at h
      · exact ih h
      · split at h
        · exact ih h
        · split at h
          · split at h
            · cases h
            · exact ih h
          · split at h
            · split at h
              · cases h
              · obtain ⟨later, hLater, rfl⟩ := Option.map_eq_some_iff.mp h
                exact List.forall_mem_append.mpr ⟨docLexemes_words, ih hLater⟩
            · split at h
              · obtain ⟨later, hLater, rfl⟩ := Option.map_eq_some_iff.mp h
                exact List.forall_mem_cons.mpr ⟨fun ident hIdent => (by cases hIdent), ih hLater⟩
              · obtain ⟨later, hLater, rfl⟩ := Option.map_eq_some_iff.mp h
                exact List.forall_mem_cons.mpr ⟨fun ident hIdent => (by cases hIdent), ih hLater⟩
              · split at h
                · cases h
                · rename_i hSingle
                  obtain ⟨later, hLater, rfl⟩ := Option.map_eq_some_iff.mp h
                  exact List.forall_mem_cons.mpr ⟨scanSingle_words hSingle, ih hLater⟩

theorem assemble_words {outer : List (Delimiter × List Token)} {done tokens : List Token}
    {found : List Lexeme} (h : assemble outer done found = some tokens)
    (hOuter : ∀ entry ∈ outer, AllWords entry.2) (hDone : AllWords done)
    (hFound : ∀ lexeme ∈ found, ∀ ident ∈ lexeme.words, ident.IsWord) : AllWords tokens := by
  -- words are only moved between what is done, what is open and what is still to come
  induction outer, done, found using assemble.induct with
  | case1 done =>
    cases h
    exact allWords_reverse.mpr hDone
  | case2 => cases h
  | case3 outer done token rest ih =>
    rw [assemble] at h
    have hLexemes := List.forall_mem_cons.mp hFound
    exact ih h hOuter (allWords_cons.mpr ⟨hLexemes.1, hDone⟩) hLexemes.2
  | case4 outer done delimiter rest ih =>
    rw [assemble] at h
    exact ih h (List.forall_mem_cons.mpr ⟨hDone, hOuter⟩) allWords_nil
      (List.forall_mem_cons.mp hFound).2
  | case5 => cases h
  | case6 opened before outer done delimiter rest hMatch ih =>
    rw [assemble, if_pos hMatch] at h
    have hEntries := List.forall_mem_cons.mp hOuter
    exact ih h hEntries.2 (allWords_cons.mpr ⟨allWords_reverse.mpr hDone, hEntries.1⟩)
      (List.forall_mem_cons.mp hFound).2
  | case7 opened before outer done delimiter rest hOther =>
    rw [assemble, if_neg hOther] at h
    cases h

theorem tokenize_words {source : List Char} {tokens : List Token}
    (h : tokenize source = some tokens) : AllWords tokens := by
  obtain ⟨found, hFound, hTokens⟩ := Option.bind_eq_some_iff.mp h
  exact assemble_words hTokens (fun entry hEntry => by cases hEntry) allWords_nil
    (lexemes_words hFound)

end Ambient.Source
