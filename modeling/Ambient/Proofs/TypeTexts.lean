import Ambient.Proofs.ListSpellings
import Ambient.Proofs.PropertyLines
import Ambient.Proofs.Rejection
import Ambient.Proofs.WorkQueue

/-!
# The texts of types

The text of a type can be cut at the bars outside its brackets, as a descriptor is.  What the cut
gives are the alternatives that the text shows (`alternativesIn`), and these are what a reader of
the text sees, whatever type it was made from.

* Text is cut in the same way if it has the same brackets and bars in the same order.  So the dotted
  form of a class name is cut as the name is.
* Outside of properties nothing is expanded in place.  A part of a descriptor then gives a type
  that is no union, with or without `null` (`convert_ok_outside`).
* The text of such a type has nested brackets if class names and replacements have
  (`Unexpanded.nested`), and is not cut if it is no union, unless a replacement is
  (`Unexpanded.uncut_elementText`).
-/

namespace Ambient

namespace Text

variable {separator : Char} {text rest : List Char}

/-! ## Text that is not cut -/

/-- After nested text no bracket is open, so each of two texts in a row is cut by itself. -/
theorem Nested.uncut_append (h : Nested text) (hText : Uncut separator text)
    (hRest : Uncut separator rest) : Uncut separator (text ++ rest) := by
  rw [Uncut, pieces_append, h.depthAfterAll, hText.pieces_eq]
  exact hRest

theorem Uncut.of_append (h : Uncut separator (text ++ rest)) : Uncut separator text := by
  rw [Uncut, pieces_append] at h
  rw [Uncut]
  cases hMore : (pieces separator 0 text).2 with
  | nil => rfl
  | cons next others =>
    rw [hMore] at h
    cases h

/-- Where no bracket is open before it, the end of an uncut text is not cut either. -/
theorem Uncut.of_append_right (h : Uncut separator (text ++ rest))
    (hDepth : depthAfterAll 0 text = 0) : Uncut separator rest := by
  rw [Uncut, pieces_append, hDepth] at h
  rw [Uncut]
  cases hMore : (pieces separator 0 text).2 with
  | nil => rwa [hMore] at h
  | cons next others =>
    rw [hMore] at h
    cases h

theorem Nested.nested_enclosed (h : Nested text) {opener closer : Char}
    (hOpens : isOpener opener = true) (hOther : isOpener closer = false)
    (hCloses : isCloser closer = true) (hRest : Nested rest) :
    Nested (opener :: (text ++ closer :: rest)) :=
  (@Nested.enclosed '|' text h opener closer hOpens hOther hCloses 0 rest).1.trans hRest

/-- Nested text between brackets is not cut. -/
theorem Nested.uncut_enclosed (h : Nested text) {opener closer : Char}
    (hOpens : isOpener opener = true) (hOther : isOpener closer = false)
    (hCloses : isCloser closer = true) (hRest : Uncut separator rest) :
    Uncut separator (opener :: (text ++ closer :: rest)) := by
  have hPieces := (@Nested.enclosed separator text h opener closer hOpens hOther hCloses 0 rest).2
  rw [Uncut, hPieces]
  exact hRest

/-- What a text is cut into is not cut any further. -/
theorem uncut_of_mem_pieces (depth : Nat) (text : List Char) :
    (pieces separator depth (pieces separator depth text).1).2 = [] ∧
      ∀ piece ∈ (pieces separator depth text).2, Uncut separator piece := by
  induction text generalizing depth with
  | nil => exact ⟨rfl, List.forall_mem_nil _⟩
  | cons c rest ih =>
    by_cases hCut : cutsAt separator depth c = true
    · -- a cut is only made where no bracket is open, so the next piece starts with none
      have hDepth : depth = 0 := by
        simp only [cutsAt, Bool.and_eq_true, beq_iff_eq] at hCut
        exact hCut.1.1.2
      obtain ⟨hFirst, hMore⟩ := ih depth
      rw [pieces_cons_of_cut hCut]
      exact ⟨rfl, List.forall_mem_cons.mpr ⟨hDepth ▸ hFirst, hMore⟩⟩
    · obtain ⟨hFirst, hMore⟩ := ih (depthAfter depth c)
      rw [pieces_cons_of_not_cut hCut]
      refine ⟨?_, hMore⟩
      rw [pieces_cons_of_not_cut hCut]
      exact hFirst

theorem Uncut.trim (h : Uncut separator text) : Uncut separator (trim text) := by
  obtain ⟨before, after, hText, hBefore, -⟩ := exists_trim text
  rw [hText, List.append_assoc] at h
  exact (h.of_append_right (depthAfterAll_blanks hBefore 0)).of_append

theorem uncut_of_mem_parts {part : List Char} (h : part ∈ parts separator text) :
    Uncut separator part := by
  rw [Text.parts_eq, List.mem_filter, List.mem_map] at h
  obtain ⟨⟨piece, hPiece, rfl⟩, -⟩ := h
  obtain ⟨hFirst, hMore⟩ := @uncut_of_mem_pieces separator 0 text
  have hUncut : Uncut separator piece := by
    rcases List.mem_cons.mp hPiece with rfl | hPiece
    · exact hFirst
    · exact hMore piece hPiece
  exact hUncut.trim

/-- An uncut text shows one part at most. -/
theorem Uncut.length_parts_le (h : Uncut separator text) : (parts separator text).length ≤ 1 := by
  rw [Text.parts_eq, h.pieces_eq]
  exact (List.length_filter_le _ _).trans (by simp)

/-! ## Brackets and separators -/

/-- The characters that cutting depends on. -/
def counts (separator c : Char) : Bool :=
  c == separator || isOpener c || isCloser c

theorem openAfter?_filter (depth : Nat) (text : List Char) :
    openAfter? depth (text.filter (counts separator)) = openAfter? depth text := by
  induction text generalizing depth with
  | nil => rfl
  | cons c rest ih =>
    rw [List.filter_cons]
    split
    · simp only [openAfter?, ih]
    · rename_i hOther
      simp only [counts, Bool.or_eq_true, not_or, Bool.not_eq_true] at hOther
      rw [ih, openAfter?, hOther.1.2, hOther.2]
      rfl

theorem pieces_filter (depth : Nat) (text : List Char) :
    (pieces separator depth (text.filter (counts separator))).2 = [] ↔
      (pieces separator depth text).2 = [] := by
  induction text generalizing depth with
  | nil => exact Iff.rfl
  | cons c rest ih =>
    -- separators and brackets are kept, and no other character moves the depth
    by_cases hCut : cutsAt separator depth c = true
    · have hKept : counts separator c = true := by
        simp only [cutsAt, Bool.and_eq_true] at hCut
        simp [counts, hCut.1.1.1]
      rw [List.filter_cons, if_pos hKept, pieces_cons_of_cut hCut, pieces_cons_of_cut hCut]
      simp
    · rw [pieces_cons_of_not_cut hCut, List.filter_cons]
      split
      · rw [pieces_cons_of_not_cut hCut]
        exact ih _
      · rename_i hOther
        simp only [counts, Bool.or_eq_true, not_or, Bool.not_eq_true] at hOther
        have hDepth : depthAfter depth c = depth := by simp [depthAfter, hOther.1.2, hOther.2]
        rw [hDepth]
        exact ih _

section Congr

variable {text' : List Char}

theorem nested_congr (h : text'.filter (counts separator) = text.filter (counts separator)) :
    Nested text' ↔ Nested text := by
  rw [Nested, Nested, ← openAfter?_filter 0 text', h, openAfter?_filter]

theorem uncut_congr (h : text'.filter (counts separator) = text.filter (counts separator)) :
    Uncut separator text' ↔ Uncut separator text := by
  rw [Uncut, Uncut, ← pieces_filter 0 text', h, pieces_filter]

end Congr

/-! ## Text that is one part -/

/-- Text that is its own only part between bars: it is not cut, and has no blank at its ends. -/
structure Sole (text : List Char) : Prop where
  some : text ≠ []
  first : ∀ c ∈ text.head?, isBlank c = false
  last : ∀ c ∈ text.getLast?, isBlank c = false
  uncut : Uncut '|' text

theorem Sole.parts_eq (h : Sole text) : parts '|' text = [text] :=
  parts_of_uncut h.some (trim_eq_self h.first h.last) h.uncut.pieces_eq

theorem sole_trim (hSome : trim text ≠ []) (h : Uncut '|' (trim text)) : Sole (trim text) where
  some := hSome
  first := head?_trim_plain text
  last := getLast?_trim_plain text
  uncut := h

end Text

namespace Descriptor

open Text

/-- The atom of a part is its own only part. -/
theorem sole_atom {text part : List Char} (hPart : part ∈ parts '|' text)
    (hSome : (unmark part).2 ≠ []) : Sole (unmark part).2 := by
  have hUncut : Uncut '|' part := uncut_of_mem_parts hPart
  by_cases hMark : part.head? = some '?'
  · obtain ⟨rest, rfl⟩ := List.head?_eq_some_iff.mp hMark
    rw [unmark_mark] at hSome ⊢
    refine sole_trim hSome (Uncut.trim ?_)
    rw [Uncut, pieces_cons_of_not_cut (by decide)] at hUncut
    exact hUncut
  · rw [unmark_of_ne hMark] at hSome ⊢
    rw [Text.parts_eq, List.mem_filter, List.mem_map] at hPart
    obtain ⟨⟨piece, -, rfl⟩, -⟩ := hPart
    exact sole_trim hSome hUncut

end Descriptor

/-! ## Dotted names -/

namespace QualifiedName

open Text

/-- The dotted form of a name has the characters of the name, but for colons and points. -/
theorem filter_dotted {kind : Char → Bool} (hPoint : kind '.' = false) (hColon : kind ':' = false)
    (name : String) : (dotted name).toList.filter kind = name.toList.filter kind := by
  have hOther : ∀ text : List Char, (text.filter (· != ':')).filter kind = text.filter kind := by
    intro text
    rw [List.filter_filter]
    refine List.filter_congr fun c _ => ?_
    by_cases hc : c = ':'
    · rw [hc, hColon]
      rfl
    · simp [hc]
  -- the two spellings differ in what stands between the segments
  calc (dotted name).toList.filter kind
      = ((segments name).flatMap String.toList).filter kind :=
        filter_toList_intercalate (fun c hc => List.mem_singleton.mp hc ▸ hPoint) _
    _ = (ofSegments (segments name)).toList.filter kind := by
        rw [ofSegments_segments]
        refine (filter_toList_intercalate (fun c hc => ?_) _).symm
        have hColons : separator.toList = [':', ':'] := rfl
        rw [hColons] at hc
        obtain rfl : c = ':' := by simpa using hc
        exact hColon
    _ = ((ofSegments (segments name)).toList.filter (· != ':')).filter kind := (hOther _).symm
    _ = name.toList.filter kind := by rw [filter_ofSegments_segments, hOther]

theorem nested_dotted {name : String} (h : Nested name.toList) : Nested (dotted name).toList :=
  (@nested_congr '|' _ _ (filter_dotted rfl rfl name)).mpr h

theorem uncut_dotted {name : String} (h : Uncut '|' name.toList) :
    Uncut '|' (dotted name).toList :=
  (uncut_congr (filter_dotted rfl rfl name)).mpr h

end QualifiedName

/-! ## Types outside of properties -/

/-- A world of records without properties under their own names, and of replacements. -/
def World.ofNames (names : List String) (replacements : Replacements) : World where
  registry := Registry.insertAll [] (names.map fun name => { name := name, shape := .record [] })
  replacements := replacements

/-- The alternatives that a text shows: its parts between the bars outside all brackets. -/
def alternativesIn (text : String) : List String :=
  (Text.parts '|' text.toList).map String.ofList

namespace TsType

/-- The types that stand beside each other at the top of a type. -/
def members : TsType → List TsType
  | union members => members
  | type => [type]

/-- The types that descriptors have outside of properties: there is nothing that is expanded in
place, and text that is written out as it is comes from a replacement. -/
inductive Unexpanded (world : World) : TsType → Prop
  | scalar (keyword : Scalar) : Unexpanded world (.scalar keyword)
  | replacement {atom text : String} (hFound : Table.find? world.replacements atom = some text) :
    Unexpanded world (.raw text)
  | reference {name : String} (hKnown : world.knows name = true)
    (hWord : Reading.keyword? name = none) (hSole : Text.Sole name.toList) :
    Unexpanded world (.reference name)
  | union {members : List TsType} (hMembers : ∀ member ∈ members, Unexpanded world member) :
    Unexpanded world (.union members)
  | container (kind : ContainerKind) {element : TsType} (hElement : Unexpanded world element) :
    Unexpanded world (.container kind element)

/-- What a part of a descriptor gives outside of properties: a type that is no union, with or
without `null`. -/
def IsAlternative (world : World) (type : TsType) : Prop :=
  ∃ nullable base, type = Reading.nullableIf nullable base ∧ base.isGrouped = false ∧
    base.Unexpanded world

/-- On request `null` is added in a union, but never to `null` itself. -/
theorem nullableIf_cases (nullable : Bool) (base : TsType) :
    Reading.nullableIf nullable base = base ∨
      Reading.nullableIf nullable base = union [base, null] ∧ base ≠ null := by
  unfold Reading.nullableIf TsType.nullable
  split
  · split
    · split
      · exact .inl rfl
      · rename_i hKeyword
        refine .inr ⟨rfl, ?_⟩
        rintro ⟨⟩
        exact hKeyword rfl
    · rename_i hOther
      exact .inr ⟨rfl, hOther _⟩
  · exact .inl rfl

variable {world : World}

theorem IsAlternative.unexpanded {type : TsType} (h : type.IsAlternative world) :
    type.Unexpanded world := by
  obtain ⟨nullable, base, rfl, -, hBase⟩ := h
  rcases nullableIf_cases nullable base with hSame | ⟨hUnion, -⟩
  · rwa [hSame]
  · rw [hUnion]
    refine .union (List.forall_mem_cons.mpr ⟨hBase, List.forall_mem_singleton.mpr ?_⟩)
    exact .scalar _

theorem unexpanded_ofAlternatives {types : List TsType}
    (h : ∀ type ∈ types, type.IsAlternative world) : (ofAlternatives types).Unexpanded world := by
  unfold ofAlternatives
  split
  · exact .scalar _
  · exact (h _ (.head _)).unexpanded
  · exact .union fun member hMember => (h member hMember).unexpanded

end TsType

namespace Reading

open Conversion

/-- Every type that a descriptor has among its members is that of one of its alternatives. -/
theorem alternatives_ok_of_mem {reading : Reading} {parts : List Alternative}
    {types : List TsType} (h : (reading.alternatives parts).outcome = .ok types) :
    ∀ type ∈ types, ∃ part ∈ parts, (reading.alternative part).outcome = .ok type := by
  intro type hType
  have hTypes : List.Forall₂ (fun type part => (reading.alternative part).outcome = .ok type)
      types parts := (forall₂_of_alternatives_ok h).flip
  exact Descriptor.exists_mem_of_forall₂ hTypes hType

end Reading

namespace World

open Conversion Descriptor Text TsType

variable {world : World} {type : TsType}

/-- The reading of descriptors outside of properties. -/
def outside (world : World) : Reading where
  scope := none
  replacements := world.replacements
  named := world.named [] [] false

theorem convert_outside (world : World) (text : String) :
    world.convert none text = world.outside.convert (parse text.toList) := rfl

/-- A replacement is the only thing that takes the place of an atom. -/
theorem override?_outside {atom : String} (h : world.outside.override? atom = some type) :
    type.isGrouped = false ∧ type.Unexpanded world := by
  obtain ⟨text, hFound, rfl⟩ := Option.map_eq_some_iff.mp h
  exact ⟨rfl, .replacement hFound⟩

theorem word_outside {atom : List Char} (hSole : Sole atom)
    (h : (world.outside.word (String.ofList atom)).outcome = .ok type) :
    type.isGrouped = false ∧ type.Unexpanded world := by
  unfold Reading.word at h
  split at h
  · obtain rfl := Except.ok.inj h
    exact ⟨rfl, .scalar _⟩
  · rename_i hWord
    split at h
    · cases h
    · -- a class name is referred to or says nothing
      have hNamed : (world.named [] [] false (String.ofList atom)).outcome = .ok type := h
      rw [named_of_not_inPlace] at hNamed
      split at hNamed
      · rename_i hKnown
        obtain rfl := Except.ok.inj hNamed
        exact ⟨rfl, .reference hKnown hWord (by rwa [String.toList_ofList])⟩
      · obtain rfl := Except.ok.inj hNamed
        exact ⟨rfl, .scalar _⟩

theorem alternative_outside {text part : List Char} (hPart : part ∈ parts '|' text)
    (h : (world.outside.alternative (alternativeOf part)).outcome = .ok type) :
    type.IsAlternative world := by
  -- a part of an element is shorter than the atom around it
  induction hLength : (unmark part).2.length using Nat.strong_induction_on
    generalizing text part type with
  | _ length ih =>
    subst hLength
    by_cases hSome : (unmark part).2 = []
    · have hEmpty : alternativeOf part = .empty := by rw [alternativeOf, hSome]; rfl
      rw [hEmpty, Reading.alternative] at h
      obtain rfl := Except.ok.inj h
      exact ⟨false, .unknown, rfl, rfl, .scalar _⟩
    rw [Reading.alternative_alternativeOf hSome] at h
    obtain ⟨base, hBase, rfl⟩ := map_ok h
    refine ⟨_, base, rfl, ?_⟩
    cases hOverride : world.outside.override? (String.ofList (unmark part).2) with
    | some replacement =>
      rw [hOverride] at hBase
      obtain rfl := Except.ok.inj hBase
      exact override?_outside hOverride
    | none =>
      rw [hOverride] at hBase
      cases hForm : arrayForm? (unmark part).2 with
      | none =>
        rw [hForm] at hBase
        exact word_outside (sole_atom hPart hSome) hBase
      | some form =>
        rw [hForm] at hBase
        cases form with
        | malformed reason => cases hBase
        | container kind element =>
          obtain ⟨types, hTypes, rfl⟩ := map_ok hBase
          refine ⟨rfl, .container kind (unexpanded_ofAlternatives fun member hMember => ?_)⟩
          obtain ⟨inner, hInner, hOk⟩ := Reading.alternatives_ok_of_mem hTypes member hMember
          rw [parse_eq_map] at hInner
          obtain ⟨innerPart, hInnerPart, rfl⟩ := List.mem_map.mp hInner
          have hShorter : (unmark innerPart).2.length < (unmark part).2.length :=
            Nat.lt_of_le_of_lt (length_atom_le_of_mem_parts hInnerPart) (length_element_lt hForm)
          exact ih _ hShorter hInnerPart hOk rfl

/-- What a descriptor means outside of properties. -/
theorem convert_ok_outside {text : String} (h : (world.convert none text).outcome = .ok type) :
    ∃ types, type = .ofAlternatives types ∧ ∀ member ∈ types, member.IsAlternative world := by
  rw [convert_outside] at h
  obtain ⟨types, hTypes, rfl⟩ := map_ok h
  refine ⟨types, rfl, fun member hMember => ?_⟩
  obtain ⟨part, hPart, hOk⟩ := Reading.alternatives_ok_of_mem hTypes member hMember
  rw [parse_eq_map] at hPart
  obtain ⟨inner, hInner, rfl⟩ := List.mem_map.mp hPart
  exact alternative_outside hInner hOk

end World

/-! ## The text of a union -/

theorem distinct_eq_eraseDups (texts : List String) : distinct texts = texts.eraseDups := by
  -- texts are taken in from the left, so the last one is met last
  induction texts using List.reverseRec with
  | nil => rfl
  | append_singleton texts last ih =>
    have hLast : distinct (texts ++ [last]) =
        if last ∈ distinct texts then distinct texts else distinct texts ++ [last] := by
      rw [distinct, List.foldl_append]
      rfl
    rw [hLast, ih, eraseDups_concat]
    simp only [List.mem_eraseDups]

section Joined

open Text

variable {texts : List String}

theorem nested_intercalate (h : ∀ text ∈ texts, Nested text.toList) :
    Nested (" | ".intercalate texts).toList := by
  induction texts with
  | nil => decide
  | cons first rest ih =>
    obtain ⟨hFirst, hRest⟩ := List.forall_mem_cons.mp h
    cases rest with
    | nil => rwa [String.intercalate_singleton]
    | cons second others =>
      rw [String.intercalate_cons_cons, String.toList_append, String.toList_append]
      exact (hFirst.append (by decide)).append (ih hRest)

/-- The bars that nested texts are joined with are the ones that the whole is cut at. -/
theorem alternativesIn_intercalate (h : ∀ text ∈ texts, Nested text.toList) :
    alternativesIn (" | ".intercalate texts) = texts.flatMap alternativesIn := by
  induction texts with
  | nil => decide
  | cons first rest ih =>
    obtain ⟨hFirst, hRest⟩ := List.forall_mem_cons.mp h
    cases rest with
    | nil => rw [String.intercalate_singleton, List.flatMap_singleton]
    | cons second others =>
      have hBlank : ∀ c ∈ [' '], isBlank c = true := List.forall_mem_singleton.mpr rfl
      have hText : (" | ".intercalate (first :: second :: others)).toList =
          (first.toList ++ [' ']) ++
            '|' :: ([' '] ++ (" | ".intercalate (second :: others)).toList) := by
        rw [String.intercalate_cons_cons, String.toList_append, String.toList_append]
        simp
      -- the brackets of the first text are closed where the bar comes
      have hDepth : depthAfterAll 0 (first.toList ++ [' ']) = 0 :=
        (hFirst.append (by decide)).depthAfterAll 0
      rw [List.flatMap_cons, ← ih hRest, alternativesIn, hText,
        parts_append_separator (by decide) hDepth, parts_append_right rfl hBlank,
        parts_append_left rfl hBlank, List.map_append]
      rfl

end Joined

/-! ## The texts of types outside of properties -/

namespace TsType

open Text

/-- The text that a container is made of: in parentheses if its type is a union. -/
def elementText (layout : Layout) (element : TsType) : String :=
  if element.isGrouped then "(" ++ element.renderMember layout ++ ")"
  else element.renderMember layout

theorem renderMember_container (layout : Layout) (kind : ContainerKind) (element : TsType) :
    (container kind element).renderMember layout = wrap kind (element.elementText layout) := by
  rw [renderMember, elementText]

/-- The type whose text a row of array suffixes is written behind. -/
def core : TsType → TsType
  | container .list element => element.core
  | type => type

theorem renderMembers_eq_map (layout : Layout) (members : List TsType) :
    renderMembers layout members = members.map (·.renderMember layout) := by
  induction members with
  | nil => rfl
  | cons first rest ih => rw [renderMembers, ih, List.map_cons]

theorem renderMember_union (layout : Layout) (members : List TsType) :
    (union members).renderMember layout =
      " | ".intercalate (members.map (·.renderMember layout)).eraseDups := by
  rw [renderMember, renderMembers_eq_map, distinct_eq_eraseDups]

/-- All containers but lists are written between brackets. -/
theorem exists_enclosed_wrap {kind : ContainerKind} (hKind : kind ≠ .list) (element : String) :
    ∃ opener inner closer, (wrap kind element).toList = opener :: (inner ++ [closer]) ∧
      isOpener opener = true ∧ isOpener closer = false ∧ isCloser closer = true ∧
      (Text.Nested element.toList → Text.Nested inner) := by
  -- the two copies in a tuple and the key of a map lie between the outer brackets
  cases kind with
  | list => exact absurd rfl hKind
  | nonEmptyList =>
    refine ⟨'[', element.toList ++ ", ...".toList ++ element.toList ++ "[]".toList, ']', ?_,
      rfl, rfl, rfl, fun h => ?_⟩
    · have hOpen : "[".toList = ['['] := rfl
      have hClose : "[]]".toList = "[]".toList ++ [']'] := rfl
      show ("[" ++ element ++ ", ..." ++ element ++ "[]]").toList = _
      simp only [String.toList_append, hOpen, hClose, List.append_assoc, List.cons_append,
        List.nil_append]
    · exact ((h.append (by decide)).append h).append (by decide)
  | stringMap =>
    refine ⟨'{', " [key: string]: ".toList ++ element.toList ++ " ".toList, '}', ?_,
      rfl, rfl, rfl, fun h => ?_⟩
    · have hOpen : "\x7b [key: string]: ".toList = '{' :: " [key: string]: ".toList := by decide
      have hClose : " \x7d".toList = " ".toList ++ ['}'] := by decide
      show ("\x7b [key: string]: " ++ element ++ " \x7d").toList = _
      simp only [String.toList_append, hOpen, hClose, List.append_assoc, List.cons_append]
    · have hKey : Text.Nested " [key: string]: ".toList := by decide
      exact (hKey.append h).append (by decide)

/-! ### Nesting and cuts -/

section Unexpanded

variable {world : World} {type : TsType} {layout : Layout}

theorem toList_parenthesized (text : String) :
    ("(" ++ text ++ ")").toList = '(' :: (text.toList ++ [')']) := by
  have hOpen : "(".toList = ['('] := rfl
  have hClose : ")".toList = [')'] := rfl
  rw [String.toList_append, String.toList_append, hOpen, hClose, List.append_assoc]
  rfl

theorem nested_elementText (h : Text.Nested (type.renderMember layout).toList) :
    Text.Nested (type.elementText layout).toList := by
  unfold elementText
  split
  · rw [toList_parenthesized]
    exact h.nested_enclosed rfl rfl rfl rfl
  · exact h

theorem nested_wrap (kind : ContainerKind) {element : String} (h : Text.Nested element.toList) :
    Text.Nested (wrap kind element).toList := by
  by_cases hKind : kind = .list
  · subst hKind
    show Text.Nested (element ++ "[]").toList
    rw [String.toList_append]
    exact h.append (by decide)
  · obtain ⟨opener, inner, closer, hText, hOpens, hOther, hCloses, hInner⟩ :=
      exists_enclosed_wrap hKind element
    rw [hText]
    exact (hInner h).nested_enclosed hOpens hOther hCloses rfl

/-- A type has nested brackets if the names and the replacements it is made of have. -/
theorem Unexpanded.nested (h : type.Unexpanded world)
    (hNames : ∀ entry ∈ world.registry, Text.Nested entry.1.toList)
    (hTexts : ∀ entry ∈ world.replacements, Text.Nested entry.2.toList) :
    Text.Nested (type.renderMember layout).toList := by
  -- brackets can only come from names and replacements; all others are put in pairs
  induction h with
  | scalar keyword =>
    rw [renderMember]
    cases keyword <;> decide
  | replacement hFound =>
    rw [renderMember]
    exact hTexts _ (Table.mem_of_find? hFound)
  | reference hKnown hWord hSole =>
    rw [renderMember]
    obtain ⟨c, hFound⟩ := Option.isSome_iff_exists.mp hKnown
    exact QualifiedName.nested_dotted (hNames _ (Table.mem_of_find? hFound))
  | union hMembers ih =>
    rw [renderMember_union]
    refine nested_intercalate fun text hText => ?_
    obtain ⟨member, hMember, rfl⟩ := List.mem_map.mp (List.mem_eraseDups.mp hText)
    exact ih member hMember
  | container kind hElement ih =>
    rw [renderMember_container]
    exact nested_wrap kind (nested_elementText ih)

/-- In a text that containers are made of no bar stands outside of brackets, unless the array
suffixes in it are written behind a replacement with such a bar. -/
theorem Unexpanded.uncut_elementText (h : type.Unexpanded world)
    (hNames : ∀ entry ∈ world.registry, Text.Nested entry.1.toList)
    (hTexts : ∀ entry ∈ world.replacements, Text.Nested entry.2.toList)
    (hCore : ∀ text, type.core = .raw text → Uncut '|' text.toList) :
    Uncut '|' (type.elementText layout).toList := by
  induction h with
  | scalar keyword =>
    unfold Uncut
    rw [elementText, renderMember]
    cases keyword <;> decide
  | @replacement atom text hFound =>
    rw [elementText, renderMember]
    exact hCore text rfl
  | reference hKnown hWord hSole =>
    rw [elementText, renderMember]
    exact QualifiedName.uncut_dotted hSole.uncut
  | @union members hMembers ih =>
    have hNested := @Unexpanded.nested _ _ layout (.union hMembers) hNames hTexts
    rw [elementText, isGrouped, if_pos rfl, toList_parenthesized]
    exact hNested.uncut_enclosed rfl rfl rfl rfl
  | @container kind element hElement ih =>
    have hNested := nested_elementText (@Unexpanded.nested _ _ layout hElement hNames hTexts)
    have hText : (TsType.container kind element).elementText layout =
        wrap kind (element.elementText layout) := renderMember_container layout kind element
    rw [hText]
    by_cases hKind : kind = .list
    · subst hKind
      have hSuffix : Uncut '|' "[]".toList := by unfold Uncut; decide
      show Uncut '|' (element.elementText layout ++ "[]").toList
      rw [String.toList_append]
      exact hNested.uncut_append (ih hCore) hSuffix
    · -- between brackets of its own the element can have any text
      obtain ⟨opener, inner, closer, hText, hOpens, hOther, hCloses, hInner⟩ :=
        exists_enclosed_wrap hKind (element.elementText layout)
      rw [hText]
      exact (hInner hNested).uncut_enclosed hOpens hOther hCloses rfl

theorem Unexpanded.core (h : type.Unexpanded world) : type.core.Unexpanded world := by
  induction h with
  | container kind hElement ih =>
    cases kind with
    | list => exact ih
    | _ => exact .container _ hElement
  | scalar keyword => exact .scalar keyword
  | replacement hFound => exact .replacement hFound
  | reference hKnown hWord hSole => exact .reference hKnown hWord hSole
  | union hMembers ih => exact .union hMembers

/-- Outside of properties a type is written alike in any place. -/
theorem Unexpanded.render_eq (h : type.Unexpanded world) :
    type.render layout = type.renderMember layout := by
  have hEnding : type.ending = "" := by cases h <;> rfl
  rw [render, hEnding, String.append_empty]

end Unexpanded

end TsType

end Ambient
