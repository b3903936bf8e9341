import Ambient.Expansion
import Ambient.Proofs.ArrayForms
import Ambient.Proofs.Denotation
import Ambient.Proofs.Nullability

/-!
# The spellings of a container

The same container can be written in several ways: with a generic name, with brackets behind
parentheses, or with brackets alone.  Each of them is cut at other places.  `Spells` lists them for
the text of an element, and `spellings_agree` says that each means the container of what the element
means, and asks for the same classes.

The cuts fall at the right places because the brackets of the element are `Paired`.  So nothing in
it is cut off by a separator around it, it ends where its own brackets are closed, and parentheses
around it belong to each other.
-/

namespace Ambient.Text

/-! ## Paired brackets -/

/-- The brackets that belong together. -/
def bracketPairs : List (Char × Char) :=
  [('<', '>'), ('(', ')'), ('[', ']'), ('{', '}')]

/-- Text whose brackets are properly nested, each one closed by one of its own kind. -/
inductive Paired : List Char → Prop
  | nil : Paired []
  | other {c : Char} {rest : List Char} (hOpener : isOpener c = false)
    (hCloser : isCloser c = false) (hRest : Paired rest) : Paired (c :: rest)
  | brackets {opener closer : Char} {inner rest : List Char}
    (hPair : (opener, closer) ∈ bracketPairs) (hInner : Paired inner) (hRest : Paired rest) :
    Paired (opener :: (inner ++ closer :: rest))

theorem isOpener_of_pair {opener closer : Char} (h : (opener, closer) ∈ bracketPairs) :
    isOpener opener = true ∧ isOpener closer = false ∧ isCloser closer = true := by
  have hPairs : ∀ pair ∈ bracketPairs,
      isOpener pair.1 = true ∧ isOpener pair.2 = false ∧ isCloser pair.2 = true := by decide
  exact hPairs _ h

theorem Paired.nested {text : List Char} (h : Paired text) : Nested text := by
  induction h with
  | nil => rfl
  | other hOpener hCloser _ ih =>
    rw [Nested, openAfter?, hOpener, hCloser]
    exact ih
  | @brackets opener closer inner rest hPair _ _ ihInner ihRest =>
    obtain ⟨hOpener, hCloser, hCloses⟩ := isOpener_of_pair hPair
    exact (@Nested.enclosed '|' inner ihInner opener closer hOpener hCloser hCloses 0 rest).1.trans
      ihRest

/-- Paired text closes no parenthesis that stands before it. -/
theorem Paired.closesEarly_append {text : List Char} (h : Paired text) (depth : Nat)
    (rest : List Char) :
    Descriptor.closesEarly depth (text ++ rest) = Descriptor.closesEarly depth rest := by
  induction h generalizing depth rest with
  | nil => rfl
  | @other c others hOpener hCloser _ ih =>
    have hOpens : c ≠ '(' := by rintro rfl; cases hOpener
    have hCloses : c ≠ ')' := by rintro rfl; cases hCloser
    rw [List.cons_append, Descriptor.closesEarly]
    · exact ih depth rest
    · exact hOpens
    · exact fun _ => hCloses
    · exact fun _ _ => hCloses
  | @brackets opener closer inner others hPair _ _ ihInner ihRest =>
    simp only [bracketPairs, List.mem_cons, Prod.mk.injEq, List.not_mem_nil, or_false] at hPair
    rw [List.cons_append, List.append_assoc, List.cons_append]
    -- only parentheses are counted, and these two cancel each other
    rcases hPair with ⟨rfl, rfl⟩ | ⟨rfl, rfl⟩ | ⟨rfl, rfl⟩ | ⟨rfl, rfl⟩ <;>
      simp [Descriptor.closesEarly, ihInner, ihRest]

theorem Paired.keepsOpen {text : List Char} (h : Paired text) : Descriptor.KeepsOpen text := by
  have hEnd := h.closesEarly_append 0 []
  rw [List.append_nil] at hEnd
  exact Descriptor.keepsOpen_iff.mpr hEnd

/-- Text without brackets may stand before paired text. -/
theorem Paired.append_left {separator : Char} {text rest : List Char} (h : Inert separator text)
    (hRest : Paired rest) : Paired (text ++ rest) := by
  induction text with
  | nil => exact hRest
  | cons c others ih =>
    obtain ⟨-, hOpener, hCloser⟩ := h c (List.mem_cons_self ..)
    exact .other hOpener hCloser (ih h.tail)

/-! ## Uncut text -/

section Uncut

variable {separator : Char} {text rest : List Char}

/-- Whether no separator stands outside all brackets. -/
def Uncut (separator : Char) (text : List Char) : Prop :=
  (pieces separator 0 text).2 = []

/-- What is not cut is its own first piece. -/
theorem pieces_of_none {depth : Nat} (h : (pieces separator depth text).2 = []) :
    pieces separator depth text = (text, []) := by
  induction text generalizing depth with
  | nil => rfl
  | cons c rest ih =>
    by_cases hCut : cutsAt separator depth c = true
    · rw [pieces_cons_of_cut hCut] at h
      cases h
    · rw [pieces_cons_of_not_cut hCut] at h ⊢
      rw [ih h]

theorem Uncut.pieces_eq (h : Uncut separator text) : pieces separator 0 text = (text, []) :=
  pieces_of_none h

theorem Uncut.parts_eq (h : Uncut separator text) (hSome : trim text ≠ []) :
    parts separator text = [trim text] := by
  rw [Text.parts_eq, h.pieces_eq]
  simp [hSome]

theorem Nested.append (h : Nested text) (hRest : Nested rest) : Nested (text ++ rest) := by
  rw [Nested, openAfter?_append, show openAfter? 0 text = some 0 from h]
  exact hRest

/-- A text with a part is not blank. -/
theorem trim_ne_nil_of_parts (hSeparator : isBlank separator = false)
    (h : parts separator text ≠ []) : trim text ≠ [] := by
  intro hNone
  rw [← parts_trim hSeparator, hNone] at h
  exact h rfl

/-- Every character is a separator or stands in one of the pieces. -/
theorem mem_pieces {c : Char} (hMem : c ∈ text) (depth : Nat) :
    c = separator ∨ ∃ piece ∈ (pieces separator depth text).1 :: (pieces separator depth text).2,
      c ∈ piece := by
  induction text generalizing depth with
  | nil => cases hMem
  | cons first rest ih =>
    by_cases hCut : cutsAt separator depth first = true
    · rw [pieces_cons_of_cut hCut]
      rcases List.mem_cons.mp hMem with rfl | hMem
      · simp only [cutsAt, Bool.and_eq_true, beq_iff_eq] at hCut
        exact .inl hCut.1.1.1
      · rcases ih hMem depth with hSame | ⟨piece, hPiece, hc⟩
        · exact .inl hSame
        · exact .inr ⟨piece, .tail _ hPiece, hc⟩
    · rw [pieces_cons_of_not_cut hCut]
      rcases List.mem_cons.mp hMem with rfl | hMem
      · exact .inr ⟨_, .head _, .head _⟩
      · rcases ih hMem (depthAfter depth first) with hSame | ⟨piece, hPiece, hc⟩
        · exact .inl hSame
        · -- the first piece has got the character in front of it
          rcases List.mem_cons.mp hPiece with rfl | hPiece
          · exact .inr ⟨_, .head _, .tail _ hc⟩
          · exact .inr ⟨piece, .tail _ hPiece, hc⟩

/-- What is neither a separator nor a blank stands in one of the parts. -/
theorem exists_part_of_mem {c : Char} (hMem : c ∈ text) (hBlank : isBlank c = false)
    (hOther : c ≠ separator) : ∃ part ∈ parts separator text, c ∈ part := by
  obtain ⟨piece, hPiece, hc⟩ := (mem_pieces hMem 0).resolve_left hOther
  have hPart : c ∈ trim piece := mem_trim hc hBlank
  refine ⟨trim piece, ?_, hPart⟩
  rw [Text.parts_eq, List.mem_filter]
  exact ⟨List.mem_map_of_mem hPiece, by simpa using List.ne_nil_of_mem hPart⟩

end Uncut

end Ambient.Text

namespace Ambient.Descriptor

open Text

/-! ## Names and keys -/

theorem IsGenericName.plain {name : List Char} (h : IsGenericName name) : Plain name := by
  refine plain_of_isWord fun c hc => ?_
  have hLetter := h.2 c hc
  simp only [isGenericLetter, Bool.or_eq_true, beq_iff_eq] at hLetter
  rcases hLetter with hLetter | rfl
  · exact isWordChar_of_continuesIdentifier
      (by simp [Spelling.continuesIdentifier, Spelling.startsIdentifier, hLetter])
  · decide +kernel

/-- A key with a meaning holds no comma and no bracket. -/
theorem IsKey.inert {key : List Char} (h : IsKey key) : Inert ',' key := by
  intro c hc
  by_cases hBlank : isBlank c = true
  · have hBlanks : Inert ',' [c] := inert_of_isBlank rfl (by simpa using hBlank)
    exact hBlanks c (List.mem_singleton_self c)
  by_cases hBar : c = '|'
  · subst hBar
    decide
  · -- every other character stands in one of the words
    obtain ⟨word, hWord, hMem⟩ := exists_part_of_mem hc (Bool.not_eq_true _ ▸ hBlank) hBar
    have hWords : ∀ word ∈ ["int", "string", "array-key"], Inert ',' word.toList := by decide
    exact hWords _ (h.2 word hWord) c (by rwa [String.toList_ofList])

theorem KeyFor.trim {key : List Char} {kind : ContainerKind} (h : KeyFor key kind) :
    KeyFor (trim key) kind := by
  have hParts : parts '|' (Text.trim key) = parts '|' key := parts_trim rfl key
  cases h with
  | list hSome hInt => exact .list (by rwa [hParts]) (by rwa [hParts])
  | stringMap hWords hOther => exact .stringMap (by rwa [hParts]) (by rwa [hParts])

/-! ## Texts that are a single container -/

/-- A text is read as a container and nothing else: it is one part, which is not marked with `?`. -/
structure IsContainer (text : List Char) (kind : ContainerKind) (element : List Char) : Prop where
  single : parts '|' text = [trim text]
  unmarked : (trim text).head? ≠ some '?'
  holds : Holds (trim text) kind element

section Containers

variable {name arguments text element : List Char} {kind : ContainerKind}

/-- A name with nested arguments is read as a whole, and starts with a letter. -/
theorem isContainer_applied (hName : IsGenericName name) (hArguments : Nested arguments)
    (hHolds : Holds (applied name arguments) kind element) :
    IsContainer (applied name arguments) kind element := by
  have hSolid : Solid (applied name arguments) := solid_generic hName.plain hName.1 hArguments
  have hTrim : trim (applied name arguments) = applied name arguments := hSolid.trim_eq
  refine ⟨?_, ?_, ?_⟩
  · rw [hTrim]
    exact hSolid.parts_eq (.inl rfl)
  · rw [hTrim, applied, List.head?_append_of_ne_nil _ hName.1]
    exact hName.plain.head?_ne (by decide)
  · rwa [hTrim]

/-- Text in parentheses is not cut, and neither are the brackets after it. -/
theorem wrapped_solid (h : Nested text) : Solid ('(' :: (text ++ [')', '[', ']'])) where
  some := List.cons_ne_nil _ _
  first := by rintro _ ⟨⟩; rfl
  last c hc := by
    rw [← List.cons_append, List.getLast?_append] at hc
    obtain rfl : ']' = c := Option.some.inj hc
    rfl
  nested := (@Nested.enclosed '|' text h '(' ')' rfl rfl rfl 0 ['[', ']']).1
  uncut separator hSeparator := by
    have hEnd : pieces separator 0 ['[', ']'] = (['[', ']'], []) := by
      rcases hSeparator with rfl | rfl <;> decide
    have hEnclosed := (@Nested.enclosed separator text h '(' ')' rfl rfl rfl 0 ['[', ']']).2
    rw [hEnclosed, hEnd]

/-- The parentheses belong to each other, because the brackets between them do. -/
theorem isContainer_wrapped (hPaired : Paired text) (hSome : trim text ≠ []) :
    IsContainer ('(' :: (text ++ [')', '[', ']'])) .list (trim text) := by
  have hSolid := wrapped_solid hPaired.nested
  have hEnclosed : trim ('(' :: (text ++ [')'])) = '(' :: (text ++ [')']) := by
    refine trim_eq_self (by rintro _ ⟨⟩; rfl) fun c hc => ?_
    rw [← List.cons_append, List.getLast?_concat] at hc
    obtain rfl : ')' = c := Option.some.inj hc
    rfl
  -- the parentheses go when the element is unwrapped
  have hHolds : Holds ('(' :: (text ++ [')']) ++ ['[', ']']) .list (trim text) :=
    .brackets (.enclosed hEnclosed hPaired.keepsOpen) hSome
  refine ⟨?_, ?_, ?_⟩
  · rw [hSolid.trim_eq]
    exact hSolid.parts_eq (.inl rfl)
  · rw [hSolid.trim_eq]
    simp
  · rw [hSolid.trim_eq]
    simpa using hHolds

/-- Brackets behind a text are trimmed at the left only. -/
theorem trim_append_brackets (text : List Char) :
    trim (text ++ ['[', ']']) = trimStart text ++ ['[', ']'] := by
  have hStart : trimStart (text ++ ['[', ']']) = trimStart text ++ ['[', ']'] := by
    rw [trimStart, trimStart, List.dropWhile_append]
    split
    · rename_i hNone
      rw [List.isEmpty_iff.mp hNone]
      rfl
    · rfl
  rw [trim, hStart, trimEnd]
  simp [show isBlank ']' = false from rfl]

theorem trim_trimStart (text : List Char) : trim (trimStart text) = trim text :=
  calc trim (trimStart text)
      = trim (text.takeWhile isBlank ++ trimStart text) :=
        (trim_append_left (fun _ hc => List.mem_takeWhile_imp hc) _).symm
    _ = trim text := by rw [trimStart, List.takeWhile_append_dropWhile]

/-- Text that does not start with a `?` after its blanks, does not do so with something behind it
either. -/
theorem head?_trimStart_ne (hSome : trim text ≠ []) (hMark : (trim text).head? ≠ some '?')
    (rest : List Char) : (trimStart text ++ rest).head? ≠ some '?' := by
  intro hHead
  cases hStart : trimStart text with
  | nil =>
    rw [← trim_trimStart, hStart] at hSome
    exact hSome rfl
  | cons c more =>
    rw [hStart] at hHead
    obtain rfl : c = '?' := Option.some.inj hHead
    rw [← trim_trimStart, hStart] at hMark
    exact hMark (head?_trim rfl more)

/-- Brackets alone belong to all of a text that no bar cuts. -/
theorem isContainer_bare (hNested : Nested text) (hSome : trim text ≠ []) (hBar : Uncut '|' text)
    (hMark : (trim text).head? ≠ some '?')
    (hBare : ∀ inner, KeepsOpen inner → trim text ≠ '(' :: (inner ++ [')'])) :
    IsContainer (text ++ ['[', ']']) .list (trim text) := by
  have hDepth : depthAfterAll 0 text = 0 := hNested.depthAfterAll 0
  have hUncut : Uncut '|' (text ++ ['[', ']']) := by
    rw [Uncut, pieces_append, hDepth, hBar.pieces_eq]
    rfl
  have hTrim := trim_append_brackets text
  have hElement : Element (trimStart text) (trim text) := by
    rw [← trim_trimStart] at hBare ⊢
    exact .bare hBare
  refine ⟨hUncut.parts_eq (by simp [hTrim]), ?_, ?_⟩
  · rw [hTrim]
    exact head?_trimStart_ne hSome hMark _
  · rw [hTrim]
    exact .brackets hElement hSome

/-- The arguments of `array<K, V>` are cut at the one comma that is in neither of them. -/
theorem parts_keyAndValue {key blanks : List Char} (hKey : IsKey key)
    (hBlanks : ∀ c ∈ blanks, isBlank c = true) (hSome : trim text ≠ []) (hComma : Uncut ',' text) :
    parts ',' (key ++ ',' :: (blanks ++ text)) = [trim key, trim text] := by
  have hInert : Inert ',' key := hKey.inert
  have hUncut : Uncut ',' key := congrArg Prod.snd (hInert.pieces 0)
  have hKeySome : trim key ≠ [] := trim_ne_nil_of_parts rfl hKey.1
  rw [parts_append_separator (by decide) (hInert.depthAfterAll 0), parts_append_left rfl hBlanks,
    hComma.parts_eq hSome, hUncut.parts_eq hKeySome]
  rfl

end Containers

/-! ## Spellings -/

/-- The ways to write a container of a kind around the text of its element. -/
inductive Spells (text : List Char) : ContainerKind → List Char → Prop
  | list {name : List Char} (hName : lowercase name = "list") :
    Spells text .list (applied name text)
  | nonEmptyList {name : List Char} (hName : lowercase name = "non-empty-list") :
    Spells text .nonEmptyList (applied name text)
  | array {name key blanks : List Char} {kind : ContainerKind} (hName : lowercase name = "array")
    (hKey : KeyFor key kind) (hBlanks : ∀ c ∈ blanks, isBlank c = true) :
    Spells text kind (applied name (key ++ ',' :: (blanks ++ text)))
  | wrapped : Spells text .list ('(' :: (text ++ [')', '[', ']']))
  | bare (hBar : Uncut '|' text) (hMark : (trim text).head? ≠ some '?')
    (hBare : ∀ inner, KeepsOpen inner → trim text ≠ '(' :: (inner ++ [')'])) :
    Spells text .list (text ++ ['[', ']'])

/-- Every spelling is a single container, and holds the trimmed text of the element. -/
theorem Spells.isContainer {text spelled : List Char} {kind : ContainerKind}
    (h : Spells text kind spelled) (hPaired : Paired text) (hParts : parts '|' text ≠ [])
    (hComma : Uncut ',' text) : IsContainer spelled kind (trim text) := by
  have hNested : Nested text := hPaired.nested
  have hSome : trim text ≠ [] := trim_ne_nil_of_parts rfl hParts
  have hOne : parts ',' text = [trim text] := hComma.parts_eq hSome
  cases h with
  | list hName =>
    exact isContainer_applied (isGenericName_of_mem (by rw [hName]; decide)) hNested
      (.list hName hOne)
  | nonEmptyList hName =>
    exact isContainer_applied (isGenericName_of_mem (by rw [hName]; decide)) hNested
      (.nonEmptyList hName hOne)
  | @array name key blanks _ hName hKey hBlanks =>
    -- the comma behind the key is the only one outside of the brackets
    have hInert : Inert ',' key := hKey.isKey.inert
    have hBefore : Inert ',' blanks := inert_of_isBlank rfl hBlanks
    have hArguments : Nested (key ++ ',' :: (blanks ++ text)) :=
      Nested.append (openAfter?_of_inert hInert 0)
        (Nested.append (openAfter?_of_inert hBefore 0) hNested)
    exact isContainer_applied (isGenericName_of_mem (by rw [hName]; decide)) hArguments
      (.array hName (parts_keyAndValue hKey.isKey hBlanks hSome hComma) hKey.trim)
  | wrapped => exact isContainer_wrapped hPaired hSome
  | bare hBar hMark hBare => exact isContainer_bare hNested hSome hBar hMark hBare

end Ambient.Descriptor

namespace Ambient

open Text Descriptor

namespace Reading

/-- A descriptor that is a single container means the container of its element. -/
theorem convert_container {reading : Reading} {text element : List Char} {kind : ContainerKind}
    (h : IsContainer text kind element)
    (hFree : reading.override? (String.ofList (trim text)) = none) :
    reading.convert (parse text) = TsType.container kind <$> reading.convert (parse element) := by
  have hForm := h.holds.arrayForm?_eq
  have hSome : (trim text).isEmpty = false := by simpa using ne_nil_of_arrayForm? hForm
  -- what is read is one unmarked alternative, the container itself
  have hAlternative : parse text =
      [.container false (String.ofList (trim text)) kind (parse element)] := by
    rw [parse_eq_map, h.single, List.map_singleton, alternativeOf, unmark_of_ne h.unmarked, hSome,
      hForm]
    rfl
  have hOne : ∀ part : Alternative, reading.alternatives [part] =
      (fun type => [type]) <$> reading.alternative part := by
    intro part
    rw [alternatives_eq_mapM, List.mapM_cons, map_eq_pure_bind]
    rfl
  rw [hAlternative, convert, convert, hOne, alternative, hFree]
  simp only [Functor.map_map]
  rfl

end Reading

namespace World

/-- The spellings of a container agree: each gives the container of what its element gives, or
fails as the element does, and asks for the same classes.  Only a replacement for the spelling as a
whole tells them apart, and the markers of the property, which come before any atom is read. -/
theorem spellings_agree (world : World) (path : List String) {scope : Option Scope}
    (hUnmarked : ∀ around ∈ scope,
      around.property.literal? = none ∧ around.property.template? = none)
    {text spelled : List Char} {kind : ContainerKind} (hPaired : Paired text)
    (hSome : parts '|' text ≠ []) (hComma : Uncut ',' text) (hSpells : Spells text kind spelled)
    (hFree : Table.find? world.replacements (String.ofList (trim spelled)) = none) :
    (world.convertWithin path scope (String.ofList spelled)).outcome =
        (world.convertWithin path scope (String.ofList text)).outcome.map (.container kind) ∧
      (world.convertWithin path scope (String.ofList spelled)).asks =
        (world.convertWithin path scope (String.ofList text)).asks := by
  have hMarked : Reading.marked? scope = none := by
    cases scope with
    | none => rfl
    | some around =>
      obtain ⟨hLiteral, hTemplate⟩ := hUnmarked around rfl
      exact marked?_eq_none hLiteral hTemplate around.owner
  have hContainer := hSpells.isContainer hPaired hSome hComma
  -- blanks around the element are lost in reading
  have hParse : parse (trim text) = parse text := by
    rw [parse_eq_map, parse_eq_map, parts_trim rfl]
  have hEqual : world.convertWithin path scope (String.ofList spelled) =
      TsType.container kind <$> world.convertWithin path scope (String.ofList text) := by
    unfold convertWithin
    simp only [String.toList_ofList]
    rw [Reading.convert_container hContainer, hParse]
    simp [Reading.override?, hMarked, hFree]
  rw [hEqual]
  exact ⟨Conversion.outcome_map _ _, Conversion.asks_map _ _⟩

/-- A world with a single class. -/
def directory : World where
  registry := Registry.insertAll [] [{ name := "app::User", shape := .record [] }]
  replacements := []

theorem userMap_spellings_agree :
    Paired "?int|list<app::User>".toList ∧ parts '|' "?int|list<app::User>".toList ≠ [] ∧
    Uncut ',' "?int|list<app::User>".toList ∧
    Spells "?int|list<app::User>".toList .stringMap
      "Array<int|array-key, ?int|list<app::User>>".toList ∧
    (directory.convertWithin ["app::Order"] none
        "Array<int|array-key, ?int|list<app::User>>").outcome =
      .ok (.container .stringMap
        (.union [.union [.scalar .number, .scalar .null],
          .container .list (.reference "app::User")])) ∧
    (directory.convertWithin ["app::Order"] none
        "Array<int|array-key, ?int|list<app::User>>").asks = ["app::User"] := by
  have hPaired : Paired "?int|list<app::User>".toList := by
    have hName : Inert ',' "?int|list".toList := by decide
    have hClass : Inert ',' "app::User".toList := by decide
    have hArgument : Paired ('<' :: ("app::User".toList ++ '>' :: [])) :=
      .brackets (by decide) (Paired.append_left hClass .nil) .nil
    exact Paired.append_left hName hArgument
  have hSome : parts '|' "?int|list<app::User>".toList ≠ [] := by decide
  have hComma : Uncut ',' "?int|list<app::User>".toList := by unfold Uncut; decide
  have hKey : KeyFor "int|array-key".toList .stringMap :=
    .stringMap (by decide) (by decide)
  have hSpells : Spells "?int|list<app::User>".toList .stringMap
      "Array<int|array-key, ?int|list<app::User>>".toList :=
    @Spells.array _ "Array".toList _ [' '] _ (by decide) hKey (List.forall_mem_singleton.mpr rfl)
  obtain ⟨hOutcome, hAsks⟩ := @spellings_agree directory ["app::Order"] none (by simp) _ _ _
    hPaired hSome hComma hSpells (by decide)
  refine ⟨hPaired, hSome, hComma, hSpells, hOutcome.trans ?_, hAsks.trans ?_⟩
  · rw [String.ofList_toList]
    decide +kernel
  · rw [String.ofList_toList]
    decide +kernel

/-- A key of no words, of which it is true that all of them are `int`, has no meaning. -/
theorem keyless_array_unsupported :
    (∀ word ∈ parts '|' "|".toList, String.ofList word = "int") ∧
    Paired "int".toList ∧ parts '|' "int".toList ≠ [] ∧ Uncut ',' "int".toList ∧
    Table.find? directory.replacements "array<|, int>" = none ∧
    (directory.convertWithin [] none "int").outcome = .ok (.scalar .number) ∧
    (directory.convertWithin [] none "array<|, int>").outcome =
      .error (.unresolved { reason := .unsupportedArrayKey, text := "array<|, int>" }) := by
  have hInt : Inert ',' "int".toList := by decide
  refine ⟨by decide, Paired.append_left hInt .nil, by decide, by unfold Uncut; decide, rfl, ?_, ?_⟩
  · decide +kernel
  · decide +kernel

end World

end Ambient
