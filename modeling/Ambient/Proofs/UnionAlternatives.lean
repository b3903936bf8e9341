import Ambient.Proofs.TypeTexts
import Mathlib.Data.List.Lattice
import Mathlib.Data.List.Nodup
import Mathlib.Data.Set.Pairwise.List

/-!
# The alternatives of a union

The text of a union leaves out members whose text has occurred before.  It does so for the members
as they are, and a nullable member such as `number | null` is one of them: it is not taken apart, so
its `null` can occur a second time.

`union_alternatives` says what alternatives the text of a union shows, and when they are different
from each other: just if no nullable member stands beside another member that is nullable, that is
`null`, or that the nullable member is made of.

Class names have to be well-formed for this, with nested brackets.  Otherwise the text of a single
class can be cut, and two classes can differ by nothing but blanks.
-/

namespace Ambient

open Text

/-! ## Repetitions -/

/-- The first occurrences in a row of lists do not depend on lists that repeat an earlier one. -/
theorem eraseDups_flatMap_eraseDups (texts : List String) (f : String → List String) :
    (texts.eraseDups.flatMap f).eraseDups = (texts.flatMap f).eraseDups := by
  induction texts using List.reverseRec with
  | nil => rfl
  | append_singleton texts last ih =>
    have hBoth : ((texts ++ [last]).flatMap f).eraseDups =
        (texts.flatMap f).eraseDups ++ ((f last).removeAll (texts.flatMap f)).eraseDups := by
      rw [List.flatMap_append, List.flatMap_singleton, List.eraseDups_append]
    rw [hBoth, eraseDups_concat]
    split
    · -- all that the last list has has occurred before
      rename_i hSeen
      have hNone : (f last).removeAll (texts.flatMap f) = [] := by
        refine List.filter_eq_nil_iff.mpr fun text hText => ?_
        simpa using ⟨last, hSeen, hText⟩
      rw [hNone, List.eraseDups_nil, List.append_nil, ih]
    · have hSame : (f last).removeAll (texts.eraseDups.flatMap f) =
          (f last).removeAll (texts.flatMap f) := by
        refine List.filter_congr fun text _ => ?_
        simp
      rw [List.flatMap_append, List.flatMap_singleton, List.eraseDups_append, hSame, ih]

/-! ## Texts that are one alternative -/

namespace Text

variable {text : List Char}

theorem isBlank_of_isOpener {c : Char} (h : isOpener c = true) : isBlank c = false := by
  simp only [isOpener, Bool.or_eq_true, beq_iff_eq] at h
  rcases h with ((rfl | rfl) | rfl) | rfl <;> rfl

theorem isBlank_of_isCloser {c : Char} (h : isCloser c = true) : isBlank c = false := by
  simp only [isCloser, Bool.or_eq_true, beq_iff_eq] at h
  rcases h with ((rfl | rfl) | rfl) | rfl <;> rfl

theorem sole_enclosed {opener closer : Char} (hOpens : isOpener opener = true)
    (hCloses : isCloser closer = true) (h : Uncut '|' (opener :: (text ++ [closer]))) :
    Sole (opener :: (text ++ [closer])) where
  some := List.cons_ne_nil _ _
  first := by
    rintro _ ⟨⟩
    exact isBlank_of_isOpener hOpens
  last c hc := by
    rw [← List.cons_append, List.getLast?_concat] at hc
    exact Option.some.inj hc ▸ isBlank_of_isCloser hCloses
  uncut := h

/-- A text stays one part with an array suffix behind it. -/
theorem Sole.append_suffix (h : Sole text) (hUncut : Uncut '|' (text ++ "[]".toList)) :
    Sole (text ++ "[]".toList) where
  some := List.append_ne_nil_of_left_ne_nil h.some _
  first c hc := by
    rw [List.head?_append_of_ne_nil _ h.some] at hc
    exact h.first c hc
  last c hc := by
    rw [List.getLast?_append] at hc
    obtain rfl : ']' = c := Option.some.inj hc
    rfl
  uncut := hUncut

theorem Sole.alternativesIn_eq {text : String} (h : Sole text.toList) :
    alternativesIn text = [text] := by
  rw [alternativesIn, h.parts_eq, List.map_singleton, String.ofList_toList]

end Text

theorem Descriptor.Solid.sole {text : List Char} (h : Descriptor.Solid text) : Sole text where
  some := h.some
  first := h.first
  last := h.last
  uncut := congrArg Prod.snd (h.uncut '|' (.inl rfl))

namespace QualifiedName

/-- A join of segments starts as the first of them. -/
theorem head?_toList_intercalate {first : String} (hFirst : first ≠ "") (separator : String)
    (rest : List String) :
    (separator.intercalate (first :: rest)).toList.head? = first.toList.head? := by
  have hSome : first.toList ≠ [] := fun h => hFirst (String.toList_eq_nil_iff.mp h)
  cases rest with
  | nil => rw [String.intercalate_singleton]
  | cons second others =>
    rw [String.intercalate_cons_cons, String.toList_append, String.toList_append,
      List.append_assoc, List.head?_append_of_ne_nil _ hSome]

/-- A join of segments ends as the last of them. -/
theorem getLast?_toList_intercalate {last : String} (hLast : last ≠ "") (separator : String)
    (before : List String) :
    (separator.intercalate (before ++ [last])).toList.getLast? = last.toList.getLast? := by
  have hSome : last.toList ≠ [] := fun h => hLast (String.toList_eq_nil_iff.mp h)
  by_cases hBefore : before = []
  · rw [hBefore, List.nil_append, String.intercalate_singleton]
  · rw [String.intercalate_append_of_ne_nil hBefore (List.cons_ne_nil _ _),
      String.intercalate_singleton, String.toList_append, List.getLast?_append,
      List.getLast?_eq_some_getLast hSome]
    rfl

section Dotted

variable {name : String}

theorem head?_dotted (h : WellFormed name) :
    (dotted name).toList.head? = name.toList.head? := by
  obtain ⟨first, rest, hSegments⟩ := List.exists_cons_of_ne_nil (wellFormed_iff.mp h).1
  have hFirst : IsSegment first := h.isSegment first (by rw [hSegments]; exact .head _)
  calc (dotted name).toList.head? = first.toList.head? := by
        rw [dotted, hSegments, head?_toList_intercalate hFirst.1]
    _ = (separator.intercalate (segments name)).toList.head? := by
        rw [hSegments, head?_toList_intercalate hFirst.1]
    _ = name.toList.head? := by rw [h.intercalate_segments]

theorem getLast?_dotted (h : WellFormed name) :
    (dotted name).toList.getLast? = name.toList.getLast? := by
  have hSegments := h.segments_eq
  have hLast : IsSegment (short name) := h.isSegment _ (by rw [hSegments]; simp)
  calc (dotted name).toList.getLast? = (short name).toList.getLast? := by
        rw [dotted, hSegments, getLast?_toList_intercalate hLast.1]
    _ = (separator.intercalate (segments name)).toList.getLast? := by
        rw [hSegments, getLast?_toList_intercalate hLast.1]
    _ = name.toList.getLast? := by rw [h.intercalate_segments]

theorem sole_dotted (h : WellFormed name) (hSole : Sole name.toList) :
    Sole (dotted name).toList where
  some hNone := by
    have hHead := head?_dotted h
    rw [hNone] at hHead
    exact hSole.some (List.head?_eq_none_iff.mp hHead.symm)
  first c hc := hSole.first c (head?_dotted h ▸ hc)
  last c hc := hSole.last c (getLast?_dotted h ▸ hc)
  uncut := uncut_dotted hSole.uncut

/-- A name that is dotted to a text without points is that text. -/
theorem eq_of_dotted_eq (h : WellFormed name) {text : String} (hPoint : '.' ∉ text.toList)
    (hDotted : dotted name = text) : name = text := by
  obtain ⟨first, rest, hSegments⟩ := List.exists_cons_of_ne_nil (wellFormed_iff.mp h).1
  rw [dotted, hSegments] at hDotted
  cases rest with
  | nil =>
    rw [← h.intercalate_segments, hSegments, ← hDotted, String.intercalate_singleton,
      String.intercalate_singleton]
  | cons second others =>
    refine absurd ?_ hPoint
    rw [← hDotted, String.intercalate_cons_cons, String.toList_append, String.toList_append]
    exact List.mem_append_left _ (List.mem_append_right _ (List.mem_singleton.mpr rfl))

end Dotted

end QualifiedName

/-! ## Members and their alternatives -/

namespace TsType

variable {world : World} {type : TsType} {layout : Layout}

/-- A type is written as its members are, without repetitions. -/
theorem renderMember_eq_members (layout : Layout) (type : TsType) : type.renderMember layout =
    " | ".intercalate (type.members.map (·.renderMember layout)).eraseDups := by
  cases type with
  | union members => exact renderMember_union layout members
  | _ => exact (String.intercalate_singleton ..).symm

/-- How a member can show its alternatives: it is one of them, or it adds `null` to one. -/
inductive Shows (layout : Layout) : TsType → Prop
  | single {type : TsType} (hSingle : type.isGrouped = false)
    (hAlone : alternativesIn (type.renderMember layout) = [type.renderMember layout]) :
    Shows layout type
  | nullable {base : TsType}
    (hAlone : alternativesIn (base.renderMember layout) = [base.renderMember layout])
    (hOther : base.renderMember layout ≠ "null")
    (hBoth : alternativesIn ((union [base, null]).renderMember layout) =
      [base.renderMember layout, "null"]) :
    Shows layout (union [base, null])

section Sole

variable (hFree : world.replacements = [])
  (hNames : ∀ entry ∈ world.registry,
    QualifiedName.WellFormed entry.1 ∧ Text.Nested entry.1.toList)

include hFree in
theorem Unexpanded.ne_raw (h : type.Unexpanded world) (text : String) : type ≠ .raw text := by
  rintro rfl
  cases h with
  | replacement hFound =>
    rw [hFree] at hFound
    cases hFound

include hFree hNames in
/-- Without replacements the text that a container is made of is one alternative. -/
theorem Unexpanded.sole_elementText (h : type.Unexpanded world) (layout : Layout) :
    Sole (type.elementText layout).toList := by
  -- no bar shows outside of brackets; what is left is that the text is trimmed and there
  have hUncut : ∀ {type : TsType}, type.Unexpanded world →
      Uncut '|' (type.elementText layout).toList := fun h =>
    h.uncut_elementText (fun entry hEntry => (hNames entry hEntry).2) (by simp [hFree])
      fun text hRaw => absurd hRaw (h.core.ne_raw hFree text)
  induction h with
  | scalar keyword =>
    have hText : (TsType.scalar keyword).elementText layout = keyword.keyword := by
      rw [elementText, renderMember]
      rfl
    have hPlain : Descriptor.Plain keyword.keyword.toList ∧ keyword.keyword.toList ≠ [] := by
      cases keyword <;> decide
    rw [hText]
    exact (hPlain.1.solid hPlain.2).sole
  | replacement hFound => exact absurd rfl (Unexpanded.ne_raw hFree (.replacement hFound) _)
  | reference hKnown hWord hSole =>
    obtain ⟨c, hFound⟩ := Option.isSome_iff_exists.mp hKnown
    rw [elementText, renderMember]
    exact QualifiedName.sole_dotted (hNames _ (Table.mem_of_find? hFound)).1 hSole
  | @union members hMembers ih =>
    have hText : ((TsType.union members).elementText layout).toList =
        '(' :: (((TsType.union members).renderMember layout).toList ++ [')']) := by
      rw [elementText, isGrouped, if_pos rfl, toList_parenthesized]
    have hWhole := hUncut (.union hMembers)
    rw [hText] at hWhole ⊢
    exact sole_enclosed rfl rfl hWhole
  | @container kind element hElement ih =>
    have hText : (TsType.container kind element).elementText layout =
        wrap kind (element.elementText layout) := renderMember_container layout kind element
    have hWhole := hUncut (.container kind hElement)
    rw [hText] at hWhole ⊢
    by_cases hKind : kind = .list
    · subst hKind
      have hSuffix : (wrap .list (element.elementText layout)).toList =
          (element.elementText layout).toList ++ "[]".toList := String.toList_append ..
      rw [hSuffix] at hWhole ⊢
      exact ih.append_suffix hWhole
    · obtain ⟨opener, inner, closer, hEnclosed, hOpens, -, hCloses, -⟩ :=
        exists_enclosed_wrap hKind (element.elementText layout)
      rw [hEnclosed] at hWhole ⊢
      exact sole_enclosed hOpens hCloses hWhole

/-- No container is written as a word is. -/
theorem wrap_ne_null (kind : ContainerKind) (element : String) : wrap kind element ≠ "null" := by
  intro hText
  have hLast : (wrap kind element).toList.getLast? = some 'l' := by rw [hText]; rfl
  by_cases hKind : kind = .list
  · subst hKind
    have hSuffix : (wrap .list element).toList = element.toList ++ "[]".toList :=
      String.toList_append ..
    rw [hSuffix, List.getLast?_append] at hLast
    cases hLast
  · obtain ⟨opener, inner, closer, hEnclosed, -, -, hCloses, -⟩ :=
      exists_enclosed_wrap hKind element
    rw [hEnclosed, ← List.cons_append, List.getLast?_concat] at hLast
    obtain rfl : closer = 'l' := Option.some.inj hLast
    cases hCloses

include hFree hNames in
/-- Among the types that are no unions only `null` is written as `null`. -/
theorem Unexpanded.eq_null (h : type.Unexpanded world) (hSingle : type.isGrouped = false)
    (hText : type.renderMember layout = "null") : type = .null := by
  cases h with
  | scalar keyword =>
    have hWord : ∀ keyword : Scalar, keyword.keyword = "null" → keyword = .null := by
      intro keyword
      cases keyword <;> decide
    rw [renderMember] at hText
    rw [hWord keyword hText, TsType.null]
  | replacement hFound => exact absurd rfl (Unexpanded.ne_raw hFree (.replacement hFound) _)
  | @reference name hKnown hWord hSole =>
    -- a class of this name cannot be mentioned
    obtain ⟨c, hFound⟩ := Option.isSome_iff_exists.mp hKnown
    rw [renderMember] at hText
    obtain rfl : name = "null" := QualifiedName.eq_of_dotted_eq
      (hNames _ (Table.mem_of_find? hFound)).1 (by decide) hText
    cases hWord
  | union hMembers => cases hSingle
  | container kind hElement =>
    rw [renderMember_container] at hText
    exact absurd hText (wrap_ne_null _ _)

include hFree hNames in
theorem Unexpanded.alternativesIn_eq (h : type.Unexpanded world) (layout : Layout)
    (hSingle : type.isGrouped = false) :
    alternativesIn (type.renderMember layout) = [type.renderMember layout] := by
  have hSole := h.sole_elementText hFree hNames layout
  rw [elementText, hSingle, if_neg Bool.false_ne_true] at hSole
  exact hSole.alternativesIn_eq

include hFree hNames in
theorem IsAlternative.shows (h : type.IsAlternative world) : type.Shows layout := by
  obtain ⟨nullable, base, rfl, hSingle, hBase⟩ := h
  have hAlone := hBase.alternativesIn_eq hFree hNames layout hSingle
  -- a nullable alternative shows two texts, unless it is nullable by itself
  rcases nullableIf_cases nullable base with hSame | ⟨hUnion, hNull⟩
  · rw [hSame]
    exact .single hSingle hAlone
  · rw [hUnion]
    have hOther : base.renderMember layout ≠ "null" := fun hText =>
      hNull (hBase.eq_null hFree hNames hSingle hText)
    refine .nullable hAlone hOther ?_
    have hTexts : ([base, null].map (·.renderMember layout)).eraseDups =
        [base.renderMember layout, "null"] := by
      have hWord : null.renderMember layout = "null" := by rw [null, renderMember]; rfl
      simp [hWord, List.eraseDups_cons, hOther.symm]
    have hNested : Text.Nested (base.renderMember layout).toList :=
      hBase.nested (fun entry hEntry => (hNames entry hEntry).2) (by simp [hFree])
    have hBoth : ∀ text ∈ [base.renderMember layout, "null"], Text.Nested text.toList :=
      List.forall_mem_cons.mpr ⟨hNested, List.forall_mem_singleton.mpr (by decide)⟩
    have hWord : alternativesIn "null" = ["null"] := by decide
    rw [renderMember_union, hTexts, alternativesIn_intercalate hBoth, List.flatMap_cons, hAlone,
      List.flatMap_singleton, hWord]
    rfl

end Sole

/-- The members of what a descriptor means are what its parts give, or the two parts of one. -/
theorem isAlternative_of_mem_members {types : List TsType}
    (h : ∀ type ∈ types, type.IsAlternative world) :
    ∀ member ∈ (ofAlternatives types).members, member.IsAlternative world := by
  have hNull : null.IsAlternative world := ⟨false, null, rfl, rfl, .scalar _⟩
  -- an only alternative that is nullable has its own union taken apart
  match types with
  | [] => exact List.forall_mem_singleton.mpr ⟨false, unknown, rfl, rfl, .scalar _⟩
  | [type] =>
    obtain ⟨nullable, base, rfl, hSingle, hBase⟩ := h _ (.head _)
    have hAlone : base.IsAlternative world := ⟨false, base, rfl, hSingle, hBase⟩
    show ∀ member ∈ (Reading.nullableIf nullable base).members, member.IsAlternative world
    rcases nullableIf_cases nullable base with hSame | ⟨hUnion, -⟩
    · have hMembers : base.members = [base] := by
        cases base <;> first | rfl | cases hSingle
      rw [hSame, hMembers]
      exact List.forall_mem_singleton.mpr hAlone
    · rw [hUnion]
      exact List.forall_mem_cons.mpr ⟨hAlone, List.forall_mem_singleton.mpr hNull⟩
  | _ :: _ :: _ => exact h

/-- Beside a nullable type made of `base` this one shows something a second time: it is nullable
too, it is `null`, or it is `base`. -/
def Repeats (layout : Layout) (base type : TsType) : Prop :=
  (∃ base', type = union [base', null]) ∨ type.renderMember layout = "null" ∨
    type.renderMember layout = base.renderMember layout

theorem Shows.nodup (h : type.Shows layout) :
    (alternativesIn (type.renderMember layout)).Nodup := by
  cases h with
  | single hSingle hAlone =>
    rw [hAlone]
    exact List.nodup_singleton _
  | nullable hAlone hOther hBoth =>
    rw [hBoth]
    simpa using hOther

theorem Shows.disjoint_iff {base : TsType} (h : type.Shows layout) :
    List.Disjoint (alternativesIn (type.renderMember layout)) [base.renderMember layout, "null"] ↔
      ¬Repeats layout base type := by
  cases h with
  | single hSingle hAlone =>
    have hUnion : ¬∃ base', type = union [base', null] := by
      rintro ⟨base', rfl⟩
      cases hSingle
    rw [hAlone, List.singleton_disjoint, Repeats, or_iff_right hUnion]
    simp [or_comm]
  | nullable hAlone hOther hBoth =>
    rw [hBoth]
    refine iff_of_false (fun hDisjoint => ?_) fun hAlone => hAlone (.inl ⟨_, rfl⟩)
    exact hDisjoint (.tail _ (.head _)) (.tail _ (.head _))

theorem Shows.alternativesIn_nullable {base : TsType} (h : (union [base, null]).Shows layout) :
    alternativesIn ((union [base, null]).renderMember layout) =
      [base.renderMember layout, "null"] := by
  cases h with
  | single hSingle hAlone => cases hSingle
  | nullable hAlone hOther hBoth => exact hBoth

/-- Single members show different alternatives if they have different texts, and nullable ones if
they do not repeat each other. -/
theorem Shows.disjoint {other : TsType} (h : type.Shows layout) (hOther : other.Shows layout)
    (hTexts : type.renderMember layout ≠ other.renderMember layout)
    (hAlone : ∀ base, type = union [base, null] → ¬Repeats layout base other)
    (hAlone' : ∀ base, other = union [base, null] → ¬Repeats layout base type) :
    List.Disjoint (alternativesIn (type.renderMember layout))
      (alternativesIn (other.renderMember layout)) := by
  cases hOther with
  | nullable hBase hNull hBoth =>
    rw [hBoth]
    exact h.disjoint_iff.mpr (hAlone' _ rfl)
  | single hSingle hSelf =>
    have hShows : other.Shows layout := .single hSingle hSelf
    cases h with
    | nullable hBase hNull hBoth =>
      rw [hBoth]
      exact (hShows.disjoint_iff.mpr (hAlone _ rfl)).symm
    | single hSingle' hSelf' =>
      rw [hSelf, hSelf', List.singleton_disjoint]
      simpa using hTexts

/-- The members of a union show different alternatives just if no nullable one stands beside a
member with another text that shows something of it a second time. -/
theorem nodup_alternatives_iff {members : List TsType}
    (hShows : ∀ member ∈ members, member.Shows layout) :
    ((members.map (·.renderMember layout)).eraseDups.flatMap alternativesIn).Nodup ↔
      ∀ base other, union [base, null] ∈ members → other ∈ members →
        other.renderMember layout ≠ (union [base, null]).renderMember layout →
        ¬Repeats layout base other := by
  have hMem : ∀ {text}, text ∈ (members.map (·.renderMember layout)).eraseDups ↔
      ∃ member ∈ members, member.renderMember layout = text := by
    intro text
    rw [List.mem_eraseDups, List.mem_map]
  have hSymm : Std.Symm (Function.onFun List.Disjoint alternativesIn) :=
    ⟨fun _ _ hDisjoint => List.Disjoint.symm hDisjoint⟩
  -- texts are different already, so it comes down to what pairs of members share
  rw [List.nodup_flatMap, ← (nodup_eraseDups _).pairwise_coe]
  constructor
  · rintro ⟨-, hPairs⟩ base other hNullable hOther hTexts
    have hDisjoint : List.Disjoint (alternativesIn (other.renderMember layout))
        (alternativesIn ((union [base, null]).renderMember layout)) :=
      hPairs (hMem.mpr ⟨other, hOther, rfl⟩) (hMem.mpr ⟨_, hNullable, rfl⟩) hTexts
    rw [(hShows _ hNullable).alternativesIn_nullable] at hDisjoint
    exact (hShows _ hOther).disjoint_iff.mp hDisjoint
  · intro hAlone
    refine ⟨fun text hText => ?_, fun text hText text' hText' hTexts => ?_⟩
    · obtain ⟨member, hMember, rfl⟩ := hMem.mp hText
      exact (hShows member hMember).nodup
    · obtain ⟨first, hFirst, rfl⟩ := hMem.mp hText
      obtain ⟨second, hSecond, rfl⟩ := hMem.mp hText'
      refine (hShows _ hFirst).disjoint (hShows _ hSecond) hTexts ?_ ?_
      · rintro base rfl
        exact hAlone base second hFirst hSecond (Ne.symm hTexts)
      · rintro base rfl
        exact hAlone base first hSecond hFirst hTexts

end TsType

namespace World

open TsType

/-- The alternatives in the text of what a descriptor means, without replacements and outside of
properties:

* they are those of its members in order, where a member is left out if its text has occurred
  before, and apart from repetitions they are those of all members in order of their first
  occurrence;
* a member is one alternative, or it adds `null` to one;
* they are different from each other just if no nullable member stands beside a member with another
  text that is nullable, that is `null`, or that the nullable one is made of. -/
theorem union_alternatives (world : World) (text : String) (type : TsType) (layout : Layout)
    (hFree : world.replacements = [])
    (hNames : ∀ entry ∈ world.registry,
      QualifiedName.WellFormed entry.1 ∧ Text.Nested entry.1.toList)
    (hConvert : (world.convert none text).outcome = .ok type) :
    alternativesIn (type.render layout) =
        (type.members.map (·.renderMember layout)).eraseDups.flatMap alternativesIn ∧
      (alternativesIn (type.render layout)).eraseDups =
        (type.members.flatMap fun member => alternativesIn (member.renderMember layout)).eraseDups ∧
      (∀ member ∈ type.members,
        alternativesIn (member.renderMember layout) = [member.renderMember layout] ∨
          ∃ base, member = .union [base, .null] ∧
            alternativesIn (member.renderMember layout) = [base.renderMember layout, "null"]) ∧
      ((alternativesIn (type.render layout)).Nodup ↔
        ∀ base other, .union [base, .null] ∈ type.members → other ∈ type.members →
          other.renderMember layout ≠ (TsType.union [base, .null]).renderMember layout →
          ¬((∃ base', other = .union [base', .null]) ∨ other.renderMember layout = "null" ∨
            other.renderMember layout = base.renderMember layout)) := by
  obtain ⟨types, rfl, hTypes⟩ := convert_ok_outside hConvert
  have hMembers := isAlternative_of_mem_members hTypes
  have hShows : ∀ member ∈ (ofAlternatives types).members, member.Shows layout :=
    fun member hMember => (hMembers member hMember).shows hFree hNames
  -- all texts are nested, so the bars between them are where the union is cut
  have hNested : ∀ text ∈ ((ofAlternatives types).members.map (·.renderMember layout)).eraseDups,
      Text.Nested text.toList := by
    intro text hText
    obtain ⟨member, hMember, rfl⟩ := List.mem_map.mp (List.mem_eraseDups.mp hText)
    exact (hMembers member hMember).unexpanded.nested
      (fun entry hEntry => (hNames entry hEntry).2) (by simp [hFree])
  have hAlternatives : alternativesIn ((ofAlternatives types).render layout) =
      ((ofAlternatives types).members.map (·.renderMember layout)).eraseDups.flatMap
        alternativesIn := by
    rw [(unexpanded_ofAlternatives hTypes).render_eq, renderMember_eq_members,
      alternativesIn_intercalate hNested]
  refine ⟨hAlternatives, ?_, fun member hMember => ?_, ?_⟩
  · rw [hAlternatives, eraseDups_flatMap_eraseDups, List.flatMap_map]
  · cases hShows member hMember with
    | single hSingle hAlone => exact .inl hAlone
    | nullable hAlone hOther hBoth => exact .inr ⟨_, rfl, hBoth⟩
  · rw [hAlternatives]
    exact nodup_alternatives_iff hShows

/-- A nullable class, which occurs twice, beside types that share nothing with it. -/
theorem nullable_user_alternatives :
    (∀ entry ∈ directory.registry,
      QualifiedName.WellFormed entry.1 ∧ Text.Nested entry.1.toList) ∧
    (directory.convert none "?app::User|int|app::User[]|?app::User").outcome =
      .ok (.union [.union [.reference "app::User", .null], .scalar .number,
        .container .list (.reference "app::User"), .union [.reference "app::User", .null]]) ∧
    (TsType.union [.union [.reference "app::User", .null], .scalar .number,
        .container .list (.reference "app::User"),
        .union [.reference "app::User", .null]]).render {} =
      "app.User | null | number | app.User[]" ∧
    (alternativesIn "app.User | null | number | app.User[]").Nodup := by
  have hNames : ∀ entry ∈ directory.registry,
      QualifiedName.WellFormed entry.1 ∧ Text.Nested entry.1.toList := by
    intro entry hEntry
    obtain rfl := List.mem_singleton.mp hEntry
    exact ⟨⟨["app", "User"], by decide, by decide, by decide⟩, by decide⟩
  have hConvert : (directory.convert none "?app::User|int|app::User[]|?app::User").outcome =
      .ok (.union [.union [.reference "app::User", .null], .scalar .number,
        .container .list (.reference "app::User"), .union [.reference "app::User", .null]]) := by
    decide +kernel
  have hText : (TsType.union [.union [.reference "app::User", .null], .scalar .number,
        .container .list (.reference "app::User"),
        .union [.reference "app::User", .null]]).render {} =
      "app.User | null | number | app.User[]" := rfl
  obtain ⟨-, -, -, hNodup⟩ := union_alternatives directory _ _ {} rfl hNames hConvert
  refine ⟨hNames, hConvert, hText, hText ▸ hNodup.mpr ?_⟩
  -- only the class itself is nullable, and nothing else is written as it is or as `null`
  intro base other hNullable hOther hTexts
  obtain rfl : base = .reference "app::User" := by simpa [members, TsType.null] using hNullable
  simp only [members, List.mem_cons, List.not_mem_nil, or_false] at hOther
  rcases hOther with rfl | rfl | rfl | rfl
  · exact absurd rfl hTexts
  · rintro (⟨base', hUnion⟩ | hText | hText)
    · cases hUnion
    · exact absurd hText (by decide)
    · exact absurd hText (by decide)
  · rintro (⟨base', hUnion⟩ | hText | hText)
    · cases hUnion
    · exact absurd hText (by decide)
    · exact absurd hText (by decide)
  · exact absurd rfl hTexts

/-- Alternatives are repeated where `null` stands beside a nullable type, and also where classes
have names that differ in blanks only, or brackets that do not belong to each other. -/
theorem alternatives_repeated :
    ((ofNames [] []).convert none "?int|null").outcome =
        .ok (.union [.union [.scalar .number, .null], .null]) ∧
      (TsType.union [.union [.scalar .number, .null], .null]).render {} = "number | null | null" ∧
      ¬(alternativesIn "number | null | null").Nodup ∧
    ((ofNames ["a", ":: a"] []).convert none "a|:: a").outcome =
        .ok (.union [.reference "a", .reference ":: a"]) ∧
      (TsType.union [.reference "a", .reference ":: a"]).render {} = "a |  a" ∧
      ¬(alternativesIn "a |  a").Nodup ∧
    ((ofNames [")(", ")", ")([] | )"] []).convert none ")([] | )|list<)(>|)").outcome =
        .ok (.union [.reference ")([] | )", .container .list (.reference ")("),
          .reference ")"]) ∧
      (TsType.union [.reference ")([] | )", .container .list (.reference ")("),
        .reference ")"]).render {} = ")([] | ) | )([] | )" ∧
      ¬(alternativesIn ")([] | ) | )([] | )").Nodup := by
  refine ⟨?_, rfl, by decide, ?_, rfl, by decide, ?_, rfl, by decide⟩
  · decide +kernel
  · decide +kernel
  · decide +kernel

end World

end Ambient
