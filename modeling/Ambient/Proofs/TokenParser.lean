import Ambient.Proofs.Lexing

/-!
# Parsers make no word up

What a parser leaves of its tokens holds no word that they did not hold (`TokenParser.Keeps`).  This
is an instance for every parser of the project, found from those of the parsers it is made of, so
that a rule of the grammar needs no proof of its own.
-/

namespace Ambient.Source.TokenParser

variable {α β : Type}

/-- A parser leaves no words but those it was given. -/
class Keeps (parser : TokenParser α) : Prop where
  subset : ∀ ⦃tokens value rest⦄, parser tokens = some (value, rest) →
    wordsIn rest ⊆ wordsIn tokens

/-! ## The monad -/

/-- A parser that is through hands its result and its tokens on. -/
theorem bind_of_eq {parser : TokenParser α} {next : α → TokenParser β} {tokens rest : List Token}
    {value : α} (h : parser tokens = some (value, rest)) :
    (parser >>= next) tokens = next value rest := by
  simp [bind, StateT.bind, h]

instance keeps_pure (value : α) : Keeps (pure value : TokenParser α) where
  subset tokens value rest h := by
    cases h
    exact List.Subset.refl _

instance keeps_failure : Keeps (failure : TokenParser α) where
  subset tokens value rest h := by cases h

instance keeps_bind {parser : TokenParser α} {next : α → TokenParser β}
    [hParser : Keeps parser] [hNext : ∀ value, Keeps (next value)] : Keeps (parser >>= next) where
  subset tokens value rest h := by
    obtain ⟨⟨first, between⟩, hFirst, hSecond⟩ := Option.bind_eq_some_iff.mp h
    exact List.Subset.trans ((hNext first).subset hSecond) (hParser.subset hFirst)

instance keeps_map {parser : TokenParser α} (f : α → β) [hParser : Keeps parser] :
    Keeps (f <$> parser) := by
  rw [map_eq_pure_bind]
  infer_instance

instance keeps_ite {condition : Prop} [Decidable condition] {parser other : TokenParser α}
    [Keeps parser] [Keeps other] :
    Keeps (if condition then parser else other) := by
  split <;> infer_instance

/-- What is done first and what is done next, where the next parser is known only once the first is
through. -/
theorem Keeps.andThen {parser : TokenParser α} {next : α → TokenParser β} [Keeps parser]
    (hNext : ∀ value, Keeps (next value)) : Keeps (parser >>= next) :=
  keeps_bind

theorem Keeps.either {condition : Prop} [Decidable condition] {parser other : TokenParser α}
    (hParser : Keeps parser) (hOther : Keeps other) :
    Keeps (if condition then parser else other) :=
  keeps_ite

instance keeps_orElse {parser : TokenParser α} {other : Unit → TokenParser α}
    [hParser : Keeps parser] [hOther : Keeps (other ())] :
    Keeps (HOrElse.hOrElse parser other) where
  subset tokens value rest h := by
    change (parser tokens <|> other () tokens) = some (value, rest) at h
    cases hFirst : parser tokens with
    | none => exact hOther.subset (by rwa [hFirst] at h)
    | some result =>
      rw [hFirst] at h
      cases h
      exact hParser.subset hFirst

/-! ## Taking tokens -/

instance keeps_get : Keeps (get : TokenParser (List Token)) where
  subset tokens value rest h := by
    cases h
    exact List.Subset.refl _

instance keeps_skip (count : Nat) : Keeps (skip count) where
  subset tokens value rest h := by
    cases h
    exact wordsIn_drop count tokens

instance keeps_sees (test : List Token → Bool) : Keeps (sees test) := by
  unfold sees
  infer_instance

instance keeps_seesAfter (count : Nat) (test : List Token → Bool) :
    Keeps (seesAfter count test) := by
  unfold seesAfter
  infer_instance

instance keeps_atEnd : Keeps atEnd := by
  unfold atEnd
  infer_instance

instance keeps_require (test : List Token → Bool) : Keeps (require test) := by
  unfold require
  infer_instance

instance keeps_op (text : String) : Keeps (op text) := by
  unfold op
  infer_instance

instance keeps_op? (text : String) : Keeps (op? text) := by
  unfold op?
  infer_instance

instance keeps_word (text : String) : Keeps (word text) := by
  unfold word
  infer_instance

instance keeps_word? (text : String) : Keeps (word? text) := by
  unfold word?
  infer_instance

/-- What a parser does at some tokens leaves no words but theirs. -/
def KeepsAt (tokens : List Token) (parser : TokenParser α) : Prop :=
  ∀ ⦃value rest⦄, parser tokens = some (value, rest) → wordsIn rest ⊆ wordsIn tokens

theorem keeps_take {next : List Token → TokenParser α}
    (hNext : ∀ tokens, KeepsAt tokens (next tokens)) : Keeps (get >>= next) where
  subset tokens _ _ h := hNext tokens h

theorem keepsAt (tokens : List Token) (parser : TokenParser α) [hParser : Keeps parser] :
    KeepsAt tokens parser := by
  intro value rest h
  exact hParser.subset h

theorem keepsAt_set {tokens rest : List Token} (h : wordsIn rest ⊆ wordsIn tokens)
    {next : PUnit → TokenParser α} [hNext : ∀ done, Keeps (next done)] :
    KeepsAt tokens (set rest >>= next) := by
  intro value left hLeft
  exact List.Subset.trans ((hNext _).subset hLeft) h

instance keeps_anyWord : Keeps anyWord := by
  refine keeps_take fun tokens => ?_
  split
  · exact keepsAt_set (wordsIn_tail _ _)
  · exact keepsAt _ _

instance keeps_name : Keeps name := by
  unfold name
  infer_instance

instance keeps_lifetime : Keeps lifetime := by
  unfold lifetime
  infer_instance

instance keeps_lifetime? : Keeps lifetime? := by
  unfold lifetime?
  infer_instance

theorem wordsIn_literalAt? {tokens rest : List Token} {value : Lit}
    (h : literalAt? tokens = some (value, rest)) : wordsIn rest ⊆ wordsIn tokens := by
  unfold literalAt? at h
  split at h
  · cases h
    exact wordsIn_tail _ _
  · split_ifs at h <;> cases h <;> exact wordsIn_tail _ _
  · cases h
    exact List.Subset.trans (wordsIn_tail _ _) (wordsIn_tail _ _)
  · cases h
    exact List.Subset.trans (wordsIn_tail _ _) (wordsIn_tail _ _)
  · cases h

instance keeps_literal : Keeps literal := by
  refine keeps_take fun tokens => ?_
  split
  · rename_i hLiteral
    exact keepsAt_set (wordsIn_literalAt? hLiteral)
  · exact keepsAt _ _

instance keeps_text? : Keeps text? := by
  refine keeps_take fun tokens => ?_
  split
  · exact keepsAt_set (wordsIn_tail _ _)
  · exact keepsAt _ _

instance keeps_fieldNumber? : Keeps fieldNumber? := by
  refine keeps_take fun tokens => ?_
  split
  · split
    · exact keepsAt_set (wordsIn_tail _ _)
    · exact keepsAt _ _
  · exact keepsAt _ _

instance keeps_group {delimiter : Delimiter} {parser : TokenParser α} :
    Keeps (group delimiter parser) := by
  refine keeps_take fun tokens => ?_
  split
  · dsimp only
    split
    · intro value rest h
      cases h
    · split
      · exact keepsAt_set (wordsIn_tail _ _)
      · exact keepsAt _ _
  · exact keepsAt _ _

instance keeps_anyGroup : Keeps anyGroup := by
  refine keeps_take fun tokens => ?_
  split
  · exact keepsAt_set (wordsIn_tail _ _)
  · exact keepsAt _ _

/-! ## Repetition -/

instance keeps_repeated {next? : TokenParser (Option α)} [hNext : Keeps next?]
    (budget : Nat) : Keeps (repeated next? budget) := by
  induction budget with
  | zero => exact keeps_failure
  | succ budget ih =>
    have hRound (value : Option α) : Keeps (match value with
        | none => return []
        | some value => return value :: (← repeated next? budget)) := by
      cases value <;> infer_instance
    exact keeps_bind

instance keeps_many {next? : TokenParser (Option α)} [Keeps next?] : Keeps (many next?) := by
  unfold many
  infer_instance

instance keeps_all {parser : TokenParser α} [Keeps parser] : Keeps (all parser) := by
  unfold all
  infer_instance

instance keeps_commaSeparated {parser : TokenParser α} [Keeps parser] :
    Keeps (commaSeparated parser) := by
  unfold commaSeparated
  infer_instance

instance keeps_commaSeparatedUntilLast {parser : Bool → TokenParser Bool}
    [∀ isFirst, Keeps (parser isFirst)] : Keeps (commaSeparatedUntilLast parser) := by
  unfold commaSeparatedUntilLast
  extract_lets next
  have hNext (isFirst : Bool) : Keeps (next isFirst) := by
    dsimp only [next]
    infer_instance
  clear_value next
  infer_instance

instance keeps_extendedBy {round : α → TokenParser (Option α)}
    [hRound : ∀ value, Keeps (round value)] (budget : Nat) (value : α) :
    Keeps (extendedBy round budget value) := by
  induction budget generalizing value with
  | zero => exact keeps_failure
  | succ budget ih =>
    have hNext (next : Option α) : Keeps (match next with
        | none => return value
        | some next => extendedBy round budget next) := by
      cases next <;> infer_instance
    exact keeps_bind

instance keeps_extended {round : α → TokenParser (Option α)}
    [∀ value, Keeps (round value)] (value : α) : Keeps (extended round value) := by
  unfold extended
  infer_instance

end Ambient.Source.TokenParser
