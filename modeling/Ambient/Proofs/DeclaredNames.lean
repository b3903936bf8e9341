import Ambient.Proofs.Grammar

/-!
# The names that a source declares

A struct, an enum or a module is declared under a word that is none of those that paths start with,
and an import mentions no `Self`.  So the items of every source are well named
(`parseFile?_wellNamed`): declared names can be told apart from the rest of a path.
-/

namespace Ambient.Source

/-! ## Well-named items -/

/-- Whether a word can be declared: it is no `_`, and none of the words that paths start with. -/
structure Ident.IsDeclarable (ident : Ident) : Prop extends ident.IsWord where
  notPathWord : ident.name ∉ neverRaw

/-- A raw spelling tells itself apart. -/
theorem Ident.spelling_ne_of_raw {ident : Ident} (h : ident.raw = true) {text : String}
    (hText : '#' ∉ text.toList) : ident.spelling ≠ text := by
  rintro rfl
  rw [Ident.spelling, if_pos h, String.toList_append] at hText
  exact hText (List.mem_append_left _ (by decide))

/-- No name is spelled like a reserved word. -/
theorem Ident.spelling_not_mem_reserved {ident : Ident} (h : ident.isName = true) :
    ident.spelling ∉ reserved := by
  cases hRaw : ident.raw with
  | true =>
    have hWords : ∀ word ∈ reserved, '#' ∉ word.toList := by decide
    exact fun hMem => Ident.spelling_ne_of_raw hRaw (hWords _ hMem) rfl
  | false => simpa [Ident.isName, Ident.spelling, hRaw] using h

theorem Ident.IsDeclarable.spelling_ne_self {ident : Ident} (h : ident.IsDeclarable) :
    ident.spelling ≠ "Self" := by
  cases hRaw : ident.raw with
  | true => exact Ident.spelling_ne_of_raw hRaw (by decide)
  | false =>
    intro hSelf
    have hName : ident.name = "Self" := by simpa [Ident.spelling, hRaw] using hSelf
    exact h.notPathWord (hName ▸ by decide)

mutual

/-- The words of an import. -/
def UseTree.words : UseTree → List Ident
  | .path ident tree => ident :: tree.words
  | .name ident => [ident]
  | .rename ident bound => [ident, bound]
  | .glob => []
  | .group trees => wordsOfTrees trees

def wordsOfTrees : List UseTree → List Ident
  | [] => []
  | tree :: rest => tree.words ++ wordsOfTrees rest

end

mutual

/-- Whether the names that an item declares, at any depth, can be declared, and its imports mention
no `Self`. -/
def Item.WellNamed : Item → Prop
  | .use tree => ∀ ident ∈ tree.words, ident.spelling ≠ "Self"
  | .struct item => item.ident.IsDeclarable
  | .enum item => item.ident.IsDeclarable
  | .module ident (some items) => ident.IsDeclarable ∧ WellNamed items
  | .module _ none => True
  | .other => True

def WellNamed : List Item → Prop
  | [] => True
  | item :: rest => item.WellNamed ∧ WellNamed rest

end

theorem wellNamed_iff {items : List Item} : WellNamed items ↔ ∀ item ∈ items, item.WellNamed := by
  induction items with
  | nil => simp [WellNamed]
  | cons item rest ih => rw [WellNamed, ih, List.forall_mem_cons]

/-! ## What a parser gives -/

namespace TokenParser

variable {α β : Type}

/-- What a parser gives at tokens whose identifiers are words has a property. -/
def Yields (parser : TokenParser α) (property : α → Prop) : Prop :=
  ∀ ⦃tokens value rest⦄, AllWords tokens → parser tokens = some (value, rest) → property value

theorem yields_pure {value : α} {property : α → Prop} (h : property value) :
    Yields (pure value) property := by
  rintro tokens value rest - ⟨⟩
  exact h

theorem yields_failure {property : α → Prop} : Yields failure property := by
  rintro tokens value rest - ⟨⟩

theorem Yields.mono {parser : TokenParser α} {property other : α → Prop}
    (h : Yields parser property) (hOther : ∀ value, property value → other value) :
    Yields parser other :=
  fun _ _ _ hWords hValue => hOther _ (h hWords hValue)

theorem Yields.bind {parser : TokenParser α} {next : α → TokenParser β} {property : α → Prop}
    {result : β → Prop} [hKeeps : Keeps parser] (hParser : Yields parser property)
    (hNext : ∀ value, property value → Yields (next value) result) :
    Yields (parser >>= next) result := by
  intro tokens value rest hWords h
  obtain ⟨⟨first, between⟩, hFirst, hSecond⟩ := Option.bind_eq_some_iff.mp h
  have hBetween : AllWords between := fun ident hIdent =>
    hWords ident (hKeeps.subset hFirst hIdent)
  exact hNext first (hParser hWords hFirst) hBetween hSecond

theorem yields_after {parser : TokenParser α} {next : α → TokenParser β} {result : β → Prop}
    [Keeps parser] (hNext : ∀ value, Yields (next value) result) :
    Yields (parser >>= next) result :=
  Yields.bind (fun _ _ _ _ _ => trivial) fun value _ => hNext value

theorem yields_ite {condition : Prop} [Decidable condition] {parser other : TokenParser α}
    {property : α → Prop} (hParser : Yields parser property) (hOther : Yields other property) :
    Yields (if condition then parser else other) property := by
  split
  · exact hParser
  · exact hOther

theorem yields_anyWord : Yields anyWord Ident.IsWord := by
  intro tokens value rest hWords h
  match tokens, h with
  | .ident ident :: _, h =>
    cases h
    exact (allWords_cons.mp hWords).1 _ (List.mem_singleton_self _)

/-- A name can be declared. -/
theorem yields_name : Yields name Ident.IsDeclarable := by
  refine yields_anyWord.bind fun ident hIdent => ?_
  split
  · rename_i hName
    refine yields_pure ⟨hIdent, ?_⟩
    cases hRaw : ident.raw with
    | true => exact hIdent.raw hRaw
    | false =>
      -- the words without a raw spelling are reserved
      have hReserved : ident.name ∉ reserved := by
        simpa [Ident.isName, hRaw] using hName
      have hSubset : neverRaw ⊆ reserved := by decide
      exact fun hMem => hReserved (hSubset hMem)
  · exact yields_failure

/-- A group is taken if it has the right delimiter and its content can be read. -/
theorem group_group (delimiter other : Delimiter) (parser : TokenParser α)
    (content rest : List Token) :
    group delimiter parser (.group other content :: rest) =
      if delimiter = other then (whole parser content).map (·, rest) else none := by
  unfold group
  rw [bind_of_eq (rfl : (get : TokenParser (List Token)) _ = some (_, _))]
  dsimp only
  by_cases hSame : delimiter = other
  · rw [if_neg (by simpa using hSame), if_pos hSame]
    cases whole parser content <;> rfl
  · rw [if_pos (bne_iff_ne.mpr hSame), if_neg hSame]
    rfl

/-- What a group gives, its content gives. -/
theorem whole_of_group {parser : TokenParser α} {delimiter : Delimiter} {tokens rest : List Token}
    {value : α} (h : group delimiter parser tokens = some (value, rest)) :
    ∃ content, tokens = .group delimiter content :: rest ∧ whole parser content = some value := by
  match tokens, h with
  | .group other content :: left, h =>
    rw [group_group] at h
    split at h
    · rename_i hSame
      obtain ⟨found, hWhole, hFound⟩ := Option.map_eq_some_iff.mp h
      cases hFound
      exact ⟨content, by rw [hSame], hWhole⟩
    · cases h

theorem exists_of_whole {parser : TokenParser α} {tokens : List Token} {value : α}
    (h : whole parser tokens = some value) : parser tokens = some (value, []) := by
  unfold whole at h
  split at h
  · rename_i hParser
    cases h
    exact hParser
  · cases h

theorem yields_group {parser : TokenParser α} {property : α → Prop} {delimiter : Delimiter}
    (h : Yields parser property) : Yields (group delimiter parser) property := by
  intro tokens value rest hWords hGroup
  obtain ⟨content, rfl, hWhole⟩ := whole_of_group hGroup
  exact h (allWords_cons.mp hWords).1 (exists_of_whole hWhole)

theorem yields_many {next? : TokenParser (Option α)} [Keeps next?] {property : α → Prop}
    (h : Yields next? fun value? => ∀ value ∈ value?, property value) :
    Yields (many next?) fun values => ∀ value ∈ values, property value := by
  refine yields_after fun tokens => ?_
  generalize tokens.length + 1 = budget
  induction budget with
  | zero => exact yields_failure
  | succ budget ih =>
    refine h.bind fun value? hValue => ?_
    cases value? with
    | none => exact yields_pure fun value hMem => by cases hMem
    | some value =>
      refine ih.bind fun values hValues => yields_pure ?_
      exact List.forall_mem_cons.mpr ⟨hValue value rfl, hValues⟩

theorem yields_all {parser : TokenParser α} [Keeps parser] {property : α → Prop}
    (h : Yields parser property) :
    Yields (all parser) fun values => ∀ value ∈ values, property value := by
  refine yields_many (yields_after fun isDone => yields_ite ?_ ?_)
  · exact yields_pure fun value hMem => by cases hMem
  · exact h.bind fun value hValue => yields_pure fun other hOther => by
      cases hOther
      exact hValue

theorem yields_commaSeparated {parser : TokenParser α} [Keeps parser] {property : α → Prop}
    (h : Yields parser property) :
    Yields (commaSeparated parser) fun values => ∀ value ∈ values, property value := by
  refine yields_all (h.bind fun value hValue => yields_after fun isDone => ?_)
  dsimp only
  exact yields_ite (yields_pure hValue) (yields_after fun _ => yields_pure hValue)

/-- What a parser gives at some tokens has a property. -/
def YieldsAt (tokens : List Token) (parser : TokenParser α) (property : α → Prop) : Prop :=
  ∀ ⦃value rest⦄, parser tokens = some (value, rest) → property value

theorem Yields.at {parser : TokenParser α} {property : α → Prop} (h : Yields parser property)
    {tokens : List Token} (hWords : AllWords tokens) : YieldsAt tokens parser property :=
  fun _ _ hValue => h hWords hValue

theorem yields_of_at {parser : TokenParser α} {property : α → Prop}
    (h : ∀ tokens, AllWords tokens → YieldsAt tokens parser property) : Yields parser property :=
  fun tokens _ _ hWords hValue => h tokens hWords hValue

/-- After a look at the tokens they are still there. -/
theorem YieldsAt.sees {tokens : List Token} {test : List Token → Bool}
    {next : Bool → TokenParser α} {property : α → Prop}
    (h : YieldsAt tokens (next (test tokens)) property) :
    YieldsAt tokens (TokenParser.sees test >>= next) property :=
  h

theorem YieldsAt.bind {tokens : List Token} {parser : TokenParser α} {next : α → TokenParser β}
    {property : α → Prop} {result : β → Prop} [hKeeps : Keeps parser]
    (hParser : YieldsAt tokens parser property) (hWords : AllWords tokens)
    (hNext : ∀ value, property value → Yields (next value) result) :
    YieldsAt tokens (parser >>= next) result := by
  intro value rest h
  obtain ⟨⟨first, between⟩, hFirst, hSecond⟩ := Option.bind_eq_some_iff.mp h
  have hBetween : AllWords between := fun ident hIdent =>
    hWords ident (hKeeps.subset hFirst hIdent)
  exact hNext first (hParser hFirst) hBetween hSecond

end TokenParser

namespace Grammar

open TokenParser

/-! ## Imports -/

theorem spelling_of_atWord {tokens rest : List Token} {word : String} {ident : Ident}
    (hTest : atWord word tokens = true) (h : anyWord tokens = some (ident, rest)) :
    ident.spelling = word := by
  match tokens, h with
  | .ident ident :: _, h =>
    cases h
    have hBoth : ident.raw = false ∧ ident.name = word := by
      simpa [atWord] using hTest
    rw [Ident.spelling, hBoth.1]
    exact hBoth.2

/-- A word that an import may start with is no `Self`. -/
theorem spelling_ne_self {tokens rest : List Token} {ident : Ident}
    (hTest : (atName tokens || atWords ["self", "super", "crate", "try"] tokens) = true)
    (h : anyWord tokens = some (ident, rest)) : ident.spelling ≠ "Self" := by
  rw [Bool.or_eq_true] at hTest
  rcases hTest with hName | hWords
  · match tokens, h with
    | .ident ident :: _, h =>
      cases h
      exact fun hSelf => Ident.spelling_not_mem_reserved hName (hSelf ▸ by decide)
  · obtain ⟨word, hMem, hWord⟩ := List.any_eq_true.mp hWords
    rw [spelling_of_atWord hWord h]
    rintro rfl
    revert hMem
    decide

/-- Whether none of the words that an import mentions is `Self`. -/
def Follows (tree? : Option UseTree) : Prop :=
  ∀ tree ∈ tree?, ∀ ident ∈ tree.words, ident.spelling ≠ "Self"

theorem follows_none : Follows none := by
  intro tree hTree
  cases hTree

theorem follows_some {tree : UseTree} (h : ∀ ident ∈ tree.words, ident.spelling ≠ "Self") :
    Follows (some tree) := by
  rintro other ⟨⟩
  exact h

theorem follows_group {trees : List (Option UseTree)} (h : ∀ tree? ∈ trees, Follows tree?) :
    Follows ((trees.mapM id).map .group) := by
  intro tree hTree
  obtain ⟨inner, hInner, rfl⟩ := Option.map_eq_some_iff.mp hTree
  clear hTree
  rw [UseTree.words]
  -- one tree that cannot be followed fails the whole group
  induction trees generalizing inner with
  | nil =>
    cases hInner
    intro ident hIdent
    cases hIdent
  | cons first rest ih =>
    rw [List.mapM_cons] at hInner
    obtain ⟨firstTree, hFirst, hInner⟩ := Option.bind_eq_some_iff.mp hInner
    obtain ⟨restTrees, hRest, hInner⟩ := Option.bind_eq_some_iff.mp hInner
    cases hInner
    have hHead := h first (List.mem_cons_self ..) firstTree hFirst
    have hTail := ih (fun tree? hMem => h tree? (List.mem_cons_of_mem _ hMem)) restTrees hRest
    rw [wordsOfTrees]
    exact List.forall_mem_append.mpr ⟨hHead, hTail⟩

theorem yields_useGroup {tree : Bool → TokenParser (Option UseTree)}
    [∀ allowRoot, Keeps (tree allowRoot)] (hTree : ∀ allowRoot, Yields (tree allowRoot) Follows)
    (allowRoot : Bool) : Yields (useGroup tree allowRoot) Follows := by
  refine Yields.bind (yields_group (yields_commaSeparated ?_)) fun trees h =>
    yields_pure (follows_group h)
  have hRest (isRooted : Bool) : Yields (do
      let tree? ← tree (allowRoot && !isRooted)
      return if isRooted then none else tree?) Follows := by
    refine (hTree _).bind fun tree? hFollows => yields_pure ?_
    split
    · exact follows_none
    · exact hFollows
  exact yields_ite (yields_after hRest) (yields_after hRest)

theorem yields_useTree (depth : Nat) (allowRoot : Bool) :
    Yields (useTree depth allowRoot) Follows := by
  induction depth generalizing allowRoot with
  | zero => exact yields_failure
  | succ depth ih =>
    unfold useTree
    refine yields_of_at fun tokens hWords => YieldsAt.sees (YieldsAt.sees ?_)
    split
    · rename_i hTest
      have hWord : YieldsAt tokens anyWord fun ident => ident.spelling ≠ "Self" :=
        fun _ _ h => spelling_ne_self hTest h
      refine hWord.bind hWords fun ident hIdent => ?_
      have hSingle : ∀ other ∈ [ident], other.spelling ≠ "Self" :=
        List.forall_mem_singleton.mpr hIdent
      refine yields_after fun isPath => yields_ite ?_ <|
        yields_after fun isRenamed => yields_ite ?_ ?_
      · -- a path goes on with a tree
        refine (ih false).bind fun tree? hFollows => yields_pure ?_
        rintro tree hTree
        obtain ⟨inner, hInner, rfl⟩ := Option.map_eq_some_iff.mp hTree
        exact List.forall_mem_cons.mpr ⟨hIdent, hFollows inner hInner⟩
      · -- the new name is a blank or a name
        have hRenamed : ∀ bound : Ident, bound.spelling ≠ "Self" →
            Follows (some (.rename ident bound)) := fun bound hBound =>
          follows_some (List.forall_mem_cons.mpr ⟨hIdent, List.forall_mem_singleton.mpr hBound⟩)
        refine yields_of_at fun tokens hWords => YieldsAt.sees ?_
        split
        · rename_i hBlank
          have hBound : YieldsAt tokens anyWord fun bound => bound.spelling ≠ "Self" := by
            intro bound rest h
            rw [spelling_of_atWord hBlank h]
            decide
          exact hBound.bind hWords fun bound hBound => yields_pure (hRenamed bound hBound)
        · exact (yields_name.bind fun bound hBound =>
            yields_pure (hRenamed bound hBound.spelling_ne_self)).at hWords
      · exact yields_pure (follows_some hSingle)
    · exact (yields_after fun isGlob => yields_ite
        (yields_pure (follows_some fun ident hIdent => by cases hIdent))
        (yields_useGroup ih allowRoot)).at hWords

/-! ## Items -/

theorem yields_useItem : Yields useItem Item.WellNamed := by
  refine yields_after fun _ => yields_after fun isRooted => yields_after fun tokens => ?_
  refine (yields_useTree _ _).bind fun tree? hFollows => yields_after fun _ => yields_pure ?_
  cases tree? with
  | none => trivial
  | some tree => exact hFollows tree rfl

section Rules

variable {g : Grammar} [g.KeepsAll]

theorem yields_structItem (attributes : List Attribute) :
    Yields (g.structItem attributes) Item.WellNamed := by
  refine yields_after fun _ => yields_name.bind fun ident hIdent => ?_
  exact yields_after fun _ => yields_after fun fields => yields_pure hIdent

theorem yields_enumItem (attributes : List Attribute) :
    Yields (g.enumItem attributes) Item.WellNamed := by
  refine yields_after fun _ => yields_name.bind fun ident hIdent => ?_
  exact yields_after fun _ => yields_after fun _ => yields_after fun variants => yields_pure hIdent

/-- A module may be called `try`, which is no name otherwise. -/
theorem yieldsAt_try {tokens : List Token} (hWords : AllWords tokens)
    (hTest : atWord "try" tokens = true) : YieldsAt tokens anyWord Ident.IsDeclarable := by
  intro ident rest h
  refine ⟨yields_anyWord hWords h, ?_⟩
  match tokens, h with
  | .ident ident :: _, h =>
    cases h
    have hBoth : ident.raw = false ∧ ident.name = "try" := by
      simpa [atWord] using hTest
    rw [hBoth.2]
    decide

theorem yields_moduleItem (hItem : Yields g.item Item.WellNamed) :
    Yields g.moduleItem Item.WellNamed := by
  have hContent : Yields (do
      g.innerAttributes
      all g.item) WellNamed :=
    yields_after fun _ => (yields_all hItem).mono fun items h => wellNamed_iff.mpr h
  -- the name may be `try` as well, and what follows is the same
  have hRest : ∀ ident : Ident, ident.IsDeclarable → Yields (do
      if ← op? ";" then return .module ident none
      let items ← group .brace do
        g.innerAttributes
        all g.item
      return .module ident (some items)) Item.WellNamed := by
    intro ident hIdent
    refine yields_after fun isEmpty => yields_ite (yields_pure trivial) ?_
    exact (yields_group hContent).bind fun items hItems => yields_pure ⟨hIdent, hItems⟩
  refine yields_after fun _ => yields_after fun _ => ?_
  dsimp only
  refine yields_of_at fun tokens hWords => YieldsAt.sees ?_
  split
  · rename_i hTry
    exact (yieldsAt_try hWords hTry).bind hWords hRest
  · exact (yields_name.bind hRest).at hWords

theorem yields_itemWith (hItem : Yields g.item Item.WellNamed) (attributes : List Attribute) :
    Yields (g.itemWith attributes) Item.WellNamed := by
  refine yields_after fun isVisible => yields_after fun tokens => ?_
  have hModule := yields_moduleItem hItem
  have hKept (parser : TokenParser Unit) [Keeps parser] : Yields (do
      parser
      return .other) Item.WellNamed :=
    yields_after fun _ => yields_pure trivial
  dsimp only
  refine yields_ite (hKept _) (yields_ite (hKept _) (yields_ite yields_useItem ?_))
  refine yields_ite (hKept _) (yields_ite (hKept _) (yields_ite ?_ ?_))
  · exact yields_ite (hKept _) (yields_ite (hKept _) (yields_ite (hKept _) hModule))
  · refine yields_ite hModule (yields_ite (hKept _) ?_)
    refine yields_ite (yields_structItem _) (yields_ite (yields_enumItem _) ?_)
    refine yields_ite (hKept _) (yields_ite (hKept _) (yields_ite (hKept _) ?_))
    exact yields_ite (hKept _) (yields_ite (hKept _) yields_failure)

theorem yields_itemRule (hItem : Yields g.item Item.WellNamed) :
    Yields g.itemRule Item.WellNamed :=
  yields_after fun attributes => yields_itemWith hItem attributes

end Rules

theorem yields_item_ofDepth (depth : Nat) : Yields (ofDepth depth).item Item.WellNamed := by
  induction depth with
  | zero => exact yields_failure
  | succ depth ih => exact yields_itemRule ih

end Grammar

open TokenParser in
/-- The items of every source are well named. -/
theorem parseFile?_wellNamed {text : String} {items : List Item}
    (h : parseFile? text = some items) : WellNamed items := by
  obtain ⟨tokens, hTokens, hItems⟩ := Option.bind_eq_some_iff.mp h
  have hWords : AllWords tokens := tokenize_words hTokens
  have hAll : Yields (do
      (Grammar.ofDepth (Grammar.depthFor tokens)).innerAttributes
      all (Grammar.ofDepth (Grammar.depthFor tokens)).item) WellNamed :=
    yields_after fun _ => (yields_all (Grammar.yields_item_ofDepth _)).mono fun items h =>
      wellNamed_iff.mpr h
  exact hAll hWords (exists_of_whole hItems)

end Ambient.Source
