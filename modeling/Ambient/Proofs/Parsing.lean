import Ambient.Descriptor
import Ambient.Proofs.Splitting

/-!
# Descriptors part by part

A descriptor is read one part after the other, and each part gives one alternative
(`parse_eq_map`).  Text that is `Solid` is a single part, and its form says which alternative it is:
a word if it is `Plain`, a container if it is a name with an argument between angle brackets.  These
forms keep text solid, so it can be nested to any depth.
-/

namespace Ambient.Descriptor

open Text

/-- The alternative that a part of a descriptor is read as. -/
def alternativeOf (part : List Char) : Alternative :=
  let nullable := (unmark part).1
  let atom := String.ofList (unmark part).2
  if (unmark part).2.isEmpty then .empty
  else
    match arrayForm? (unmark part).2 with
    | none => .word nullable atom
    | some (.malformed reason) => .malformed nullable atom reason
    | some (.container kind element) => .container nullable atom kind (parse element)

theorem parse_eq_map (text : List Char) : parse text = (parts '|' text).map alternativeOf := by
  rw [parse]
  refine Eq.trans (List.map_congr_left fun part _ => ?_) List.attach_map_val
  simp only [alternativeOf]
  split
  · rfl
  · split <;> simp_all

theorem unmark_mark (part : List Char) : unmark ('?' :: part) = (true, trim part) := rfl

theorem unmark_of_ne {part : List Char} (h : part.head? ≠ some '?') :
    unmark part = (false, part) := by
  unfold unmark
  split
  · exact absurd rfl h
  · rfl

/-! ## Plain text -/

/-- The characters that mean something in a descriptor wherever they stand. -/
def marks : List Char :=
  ['|', ',', '?', '<', '>', '(', ')', '[', ']', '{', '}']

/-- Text without blanks and without characters that mean something by themselves. -/
def Plain (text : List Char) : Prop :=
  ∀ c ∈ text, isBlank c = false ∧ c ∉ marks

instance (text : List Char) : Decidable (Plain text) :=
  List.decidableBAll (fun c => isBlank c = false ∧ c ∉ marks) text

namespace Plain

variable {text : List Char}

theorem ne (h : Plain text) {c other : Char} (hMem : c ∈ text) (hOther : other ∈ marks) :
    c ≠ other := by
  rintro rfl
  exact (h c hMem).2 hOther

theorem inert (h : Plain text) {separator : Char} (hSeparator : separator ∈ marks) :
    Inert separator text := by
  have hMark : (!marks.contains separator) = false := by simpa using hSeparator
  have hOther : ∀ c ∈ text, (!marks.contains c) = true := fun c hc => by simpa using (h c hc).2
  exact @inert_of_forall separator (!marks.contains ·) hMark (by decide) text hOther

theorem head?_ne (h : Plain text) {other : Char} (hOther : other ∈ marks) :
    text.head? ≠ some other := by
  intro hHead
  exact h.ne (List.mem_of_mem_head? hHead) hOther rfl

/-- Plain text is no array form, but for one word. -/
theorem arrayForm?_eq_none (h : Plain text) (hName : text ≠ "array".toList) :
    arrayForm? text = none := by
  have hBrackets : beforeBrackets? text = none := by
    unfold beforeBrackets?
    split
    · rename_i rest hReverse
      have hMem : ']' ∈ text := List.mem_reverse.mp (hReverse ▸ List.mem_cons_self ..)
      exact absurd rfl (h.ne hMem (by decide))
    · rfl
  have hGeneric : generic? text = none := by
    have hDrop : text.dropWhile (· != '<') = [] :=
      List.dropWhile_eq_nil_iff.mpr fun c hc => by simpa using h.ne hc (by decide)
    rw [generic?, hDrop]
  have hWord : (String.ofList text == "array") = false := by
    rw [beq_eq_false_iff_ne]
    exact fun hText => hName (by rw [← hText, String.toList_ofList])
  rw [arrayForm?, hBrackets, hGeneric, hWord]
  rfl

theorem alternativeOf_eq (h : Plain text) (hSome : text ≠ []) (hName : text ≠ "array".toList) :
    alternativeOf text = .word false (String.ofList text) := by
  rw [alternativeOf, unmark_of_ne (h.head?_ne (by decide)), h.arrayForm?_eq_none hName]
  simp [hSome]

end Plain

/-! ## Solid text -/

/-- Text that is read as a whole: it starts and ends with no blank, its brackets are nested, and
nothing outside of them cuts it. -/
structure Solid (text : List Char) : Prop where
  some : text ≠ []
  first : ∀ c ∈ text.head?, isBlank c = false
  last : ∀ c ∈ text.getLast?, isBlank c = false
  nested : Nested text
  uncut : ∀ separator, separator = '|' ∨ separator = ',' → pieces separator 0 text = (text, [])

namespace Solid

variable {text : List Char}

theorem trim_eq (h : Solid text) : trim text = text :=
  trim_eq_self h.first h.last

theorem parts_eq (h : Solid text) {separator : Char}
    (hSeparator : separator = '|' ∨ separator = ',') :
    parts separator text = [text] :=
  parts_of_uncut h.some h.trim_eq (h.uncut separator hSeparator)

theorem parse_eq (h : Solid text) : parse text = [alternativeOf text] := by
  rw [parse_eq_map, h.parts_eq (.inl rfl)]
  rfl

theorem mark (h : Solid text) : Solid ('?' :: text) where
  some := List.cons_ne_nil _ _
  first := by rintro _ ⟨⟩; rfl
  last c hc := by
    rw [List.getLast?_cons_of_ne_nil h.some] at hc
    exact h.last c hc
  nested := h.nested
  uncut separator hSeparator := by
    have hCut : ¬cutsAt separator 0 '?' = true := by
      rcases hSeparator with rfl | rfl <;> decide
    rw [pieces_cons_of_not_cut hCut]
    show ('?' :: (pieces separator 0 text).1, (pieces separator 0 text).2) = _
    rw [h.uncut separator hSeparator]

end Solid

theorem Plain.solid {text : List Char} (h : Plain text) (hSome : text ≠ []) : Solid text where
  some := hSome
  first c hc := (h c (List.mem_of_mem_head? hc)).1
  last c hc := (h c (List.mem_of_mem_getLast? hc)).1
  nested := openAfter?_of_inert (h.inert (by decide : '|' ∈ marks)) 0
  uncut separator hSeparator := by
    have hMark : separator ∈ marks := by
      rcases hSeparator with rfl | rfl <;> decide
    exact (h.inert hMark).pieces 0

/-! ## Names with arguments -/

section Generic

variable {name arguments : List Char}

/-- Nested text between angle brackets is never cut. -/
theorem solid_generic (hName : Plain name) (hSome : name ≠ []) (hArguments : Nested arguments) :
    Solid (name ++ '<' :: (arguments ++ ['>'])) where
  some := List.append_ne_nil_of_left_ne_nil hSome _
  first c hc := by
    rw [List.head?_append, List.head?_eq_some_head hSome] at hc
    obtain rfl : name.head hSome = c := Option.some.inj hc
    exact (hName _ (List.head_mem hSome)).1
  last c hc := by
    rw [← List.cons_append, ← List.append_assoc, List.getLast?_append] at hc
    obtain rfl : '>' = c := Option.some.inj hc
    rfl
  nested := by
    have hInert : Inert '|' name := hName.inert (by decide)
    rw [Nested, openAfter?_append, openAfter?_of_inert hInert]
    exact (@Nested.enclosed '|' arguments hArguments '<' '>' rfl rfl rfl 0 []).1
  uncut separator hSeparator := by
    have hMark : separator ∈ marks := by
      rcases hSeparator with rfl | rfl <;> decide
    have hEnclosed := (@Nested.enclosed separator arguments hArguments '<' '>' rfl rfl rfl 0 []).2
    rw [(hName.inert hMark).pieces_append, hEnclosed]
    rfl

theorem arrayForm?_generic (hLetters : name.all isGenericLetter = true) (hSome : name ≠ []) :
    arrayForm? (name ++ '<' :: (arguments ++ ['>'])) = some (ofGeneric name arguments) := by
  have hBrackets : beforeBrackets? (name ++ '<' :: (arguments ++ ['>'])) = none := by
    simp [beforeBrackets?]
  have hOther : ∀ c ∈ name, (c != '<') = true := by
    intro c hc
    have hLetter := List.all_eq_true.mp hLetters c hc
    rw [bne_iff_ne]
    rintro rfl
    revert hLetter
    decide
  have hGeneric : generic? (name ++ '<' :: (arguments ++ ['>'])) = some (name, arguments) := by
    unfold generic?
    rw [List.takeWhile_append_of_pos hOther, List.dropWhile_append_of_pos hOther]
    simpa [hSome] using hLetters
  rw [arrayForm?, hBrackets, hGeneric]

/-- The text of a name with an argument, for names that make a container of it. -/
theorem alternativeOf_generic (hLetters : name.all isGenericLetter = true) (hSome : name ≠ [])
    (hMark : name.head? ≠ some '?') {kind : ContainerKind} {element : List Char}
    (hForm : ofGeneric name arguments = .container kind element) :
    alternativeOf (name ++ '<' :: (arguments ++ ['>'])) = .container false
      (String.ofList (name ++ '<' :: (arguments ++ ['>']))) kind (parse element) := by
  have hHead : (name ++ '<' :: (arguments ++ ['>'])).head? ≠ some '?' := by
    rwa [List.head?_append, List.head?_eq_some_head hSome, Option.some_or,
      ← List.head?_eq_some_head hSome]
  rw [alternativeOf, unmark_of_ne hHead, arrayForm?_generic hLetters hSome, hForm]
  simp

end Generic

section Containers

variable {text : List Char}

def listOf (text : List Char) : List Char :=
  "list".toList ++ '<' :: (text ++ ['>'])

def mapOf (text : List Char) : List Char :=
  "array".toList ++ '<' :: (("string".toList ++ ',' :: ' ' :: text) ++ ['>'])

theorem Solid.listOf (h : Solid text) : Solid (listOf text) :=
  solid_generic (by decide) (by decide) h.nested

theorem Solid.mapOf (h : Solid text) : Solid (mapOf text) := by
  refine solid_generic (by decide) (by decide) ?_
  rw [Nested, openAfter?_append]
  exact h.nested

theorem alternativeOf_listOf (h : Solid text) : alternativeOf (listOf text) =
    .container false (String.ofList (listOf text)) .list (parse text) := by
  refine alternativeOf_generic (by decide) (by decide) (by decide) ?_
  show singleArgument .list text = _
  rw [singleArgument, h.parts_eq (.inr rfl)]

theorem alternativeOf_mapOf (h : Solid text) : alternativeOf (mapOf text) =
    .container false (String.ofList (mapOf text)) .stringMap (parse text) := by
  refine alternativeOf_generic (by decide) (by decide) (by decide) ?_
  have hParts : parts ',' ("string".toList ++ ',' :: ' ' :: text) = ["string".toList, text] := by
    have hBlank : ∀ c ∈ [' '], isBlank c = true := by
      intro c hc
      obtain rfl := List.mem_singleton.mp hc
      rfl
    rw [parts_append_separator (by decide) (by decide), ← List.singleton_append,
      parts_append_left (by decide) hBlank, h.parts_eq (.inr rfl)]
    have hKey : parts ',' "string".toList = ["string".toList] := by decide
    rw [hKey]
    rfl
  have hKey : keyed? "string".toList = some .stringMap := by decide
  show keyAndValue ("string".toList ++ ',' :: ' ' :: text) = _
  rw [keyAndValue, hParts]
  dsimp only
  rw [hKey]

end Containers

end Ambient.Descriptor
