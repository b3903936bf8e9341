import Ambient.Expansion
import Ambient.Proofs.ArrayForms
import Ambient.Proofs.Flaws

/-!
# Descriptors that are rejected

Converted without a property, a descriptor fails for reasons that lie in its text alone: whatever
classes there are, a name among them is referred to and any other name says nothing.  `Bad` says
from the text which descriptors these are, and `Cause` where the conversion of one stops: at the
first bad part, and within a part at the outermost reason.

`rejects_exactly_bad` says that a conversion fails just on bad descriptors, with the cause in its
fault, and that it has asked for the classes that stand before the cause and for nothing else.
-/

namespace Ambient

namespace Descriptor

open Text

/-! ## Bad descriptors -/

/-- Whether an atom has no type, when `replaced` tells which atoms have a replacement. -/
inductive BadAtom (replaced : String → Bool) : List Char → Prop
  /-- A word that no type can express. -/
  | keyword {atom : List Char} (hFree : replaced (String.ofList atom) = false)
    (hKeyword : String.ofList atom ∈ ["void", "never", "callable", "iterable", "resource"]) :
    BadAtom replaced atom
  /-- An array form without a meaning. -/
  | malformed {atom : List Char} {reason : Reason} (hFree : replaced (String.ofList atom) = false)
    (hForm : Malformed atom reason) : BadAtom replaced atom
  /-- A container with a bad part in its element. -/
  | element {atom element part : List Char} {kind : ContainerKind}
    (hFree : replaced (String.ofList atom) = false) (hHolds : Holds atom kind element)
    (hPart : part ∈ parts '|' element) (hBad : BadAtom replaced (unmark part).2) :
    BadAtom replaced atom

/-- A part is bad if its atom is: what is left without a leading `?`. -/
def BadPart (replaced : String → Bool) (part : List Char) : Prop :=
  BadAtom replaced (unmark part).2

def Bad (replaced : String → Bool) (text : List Char) : Prop :=
  ∃ part ∈ parts '|' text, BadPart replaced part

/-- The bad part of a text that stands first, with the parts before it. -/
structure FirstBad (replaced : String → Bool) (text : List Char) (before : List (List Char))
    (part : List Char) : Prop where
  splits : ∃ after, parts '|' text = before ++ part :: after
  bad : BadPart replaced part
  first : ∀ earlier ∈ before, ¬BadPart replaced earlier

/-- The classes that parts refer to, in order, when `known` tells which classes there are. -/
def asked (replaced known : String → Bool) (parts : List (List Char)) : List String :=
  (mentions replaced (parts.map alternativeOf)).filter known

/-- Why an atom is bad: the outermost reason with the text that it is about, and the classes that
are referred to before that text. -/
inductive AtomCause (replaced known : String → Bool) :
    List Char → Reason → List Char → List String → Prop
  | keyword {atom : List Char} (hFree : replaced (String.ofList atom) = false)
    (hKeyword : String.ofList atom ∈ ["void", "never", "callable", "iterable", "resource"]) :
    AtomCause replaced known atom .unsupportedKeyword atom []
  | malformed {atom : List Char} {reason : Reason} (hFree : replaced (String.ofList atom) = false)
    (hForm : Malformed atom reason) : AtomCause replaced known atom reason atom []
  | element {atom element part culprit : List Char} {kind : ContainerKind} {reason : Reason}
    {before : List (List Char)} {names : List String}
    (hFree : replaced (String.ofList atom) = false) (hHolds : Holds atom kind element)
    (hFirst : FirstBad replaced element before part)
    (hCause : AtomCause replaced known (unmark part).2 reason culprit names) :
    AtomCause replaced known atom reason culprit (asked replaced known before ++ names)

/-- Why a descriptor is bad. -/
def Cause (replaced known : String → Bool) (text : List Char) (reason : Reason)
    (culprit : List Char) (names : List String) : Prop :=
  ∃ before part inner, FirstBad replaced text before part ∧
    AtomCause replaced known (unmark part).2 reason culprit inner ∧
    names = asked replaced known before ++ inner

section Causes

variable {replaced known : String → Bool} {text atom : List Char}

theorem Bad.exists_first (h : Bad replaced text) :
    ∃ before part, FirstBad replaced text before part := by
  classical
  have hFind : ((parts '|' text).find? (decide <| BadPart replaced ·)).isSome := by
    simpa [List.find?_isSome, Bad] using h
  obtain ⟨part, hPart⟩ := Option.isSome_iff_exists.mp hFind
  obtain ⟨hBad, before, after, hSplits, hFirst⟩ := List.find?_eq_some_iff_append.mp hPart
  exact ⟨before, part, ⟨after, hSplits⟩, by simpa using hBad, by simpa using hFirst⟩

theorem length_atom_le_of_mem_parts {part : List Char} (h : part ∈ parts '|' text) :
    (unmark part).2.length ≤ text.length :=
  Nat.le_trans (length_unmark_le part) (length_le_of_mem_parts h)

/-- Every bad atom has a cause. -/
theorem BadAtom.exists_cause (h : BadAtom replaced atom) :
    ∃ reason culprit names, AtomCause replaced known atom reason culprit names := by
  -- the bad part that makes the atom bad need not be the first one, so the induction is on length
  induction hLength : atom.length using Nat.strong_induction_on generalizing atom with
  | _ length ih =>
    subst hLength
    cases h with
    | keyword hFree hKeyword => exact ⟨_, _, _, .keyword hFree hKeyword⟩
    | malformed hFree hForm => exact ⟨_, _, _, .malformed hFree hForm⟩
    | @element _ element part kind hFree hHolds hPart hBad =>
      have hElement : Bad replaced element := ⟨part, hPart, hBad⟩
      obtain ⟨before, first, hFirst⟩ := hElement.exists_first
      obtain ⟨after, hSplits⟩ := hFirst.splits
      have hMem : first ∈ parts '|' element := by rw [hSplits]; simp
      have hShorter : (unmark first).2.length < atom.length :=
        Nat.lt_of_le_of_lt (length_atom_le_of_mem_parts hMem)
          (length_element_lt hHolds.arrayForm?_eq)
      obtain ⟨reason, culprit, names, hCause⟩ := ih _ hShorter hFirst.bad rfl
      exact ⟨reason, culprit, _, .element hFree hHolds hFirst hCause⟩

theorem Bad.exists_cause (h : Bad replaced text) :
    ∃ reason culprit names, Cause replaced known text reason culprit names := by
  obtain ⟨before, part, hFirst⟩ := h.exists_first
  obtain ⟨reason, culprit, inner, hCause⟩ := @BadAtom.exists_cause _ known _ hFirst.bad
  exact ⟨reason, culprit, _, before, part, inner, hFirst, hCause, rfl⟩

/-! ## The classes of a part -/

theorem mentions_eq_flatMap (alternatives : List Alternative) :
    mentions replaced alternatives = alternatives.flatMap (·.mentions replaced) := by
  induction alternatives with
  | nil => rfl
  | cons first rest ih => rw [mentions, ih, List.flatMap_cons]

theorem asked_eq_flatMap (texts : List (List Char)) :
    asked replaced known texts =
      texts.flatMap fun part => ((alternativeOf part).mentions replaced).filter known := by
  rw [asked, mentions_eq_flatMap, List.flatMap_map, List.filter_flatMap]

end Causes

end Descriptor

namespace Reading

open Conversion Descriptor Text

variable {reading : Reading} {part : List Char}

/-! ## Reading one part -/

/-- A part with an atom is read by the first rule that applies to the atom. -/
theorem alternative_alternativeOf (hSome : (unmark part).2 ≠ []) :
    reading.alternative (alternativeOf part) = nullableIf (unmark part).1 <$>
      match reading.override? (String.ofList (unmark part).2) with
      | some type => pure type
      | none =>
        match arrayForm? (unmark part).2 with
        | none => reading.word (String.ofList (unmark part).2)
        | some (.malformed reason) => reading.fault reason (String.ofList (unmark part).2)
        | some (.container kind element) =>
          (fun types => .container kind (.ofAlternatives types)) <$>
            reading.alternatives (parse element) := by
  have hEmpty : (unmark part).2.isEmpty = false := by simpa using hSome
  rw [alternativeOf, hEmpty]
  cases arrayForm? (unmark part).2 with
  | none => exact alternative.eq_2 reading _ _
  | some form =>
    cases form with
    | malformed reason => exact alternative.eq_3 reading _ _ _
    | container kind element => exact alternative.eq_4 reading _ _ _ _

theorem mentions_alternativeOf {taken : String → Bool} (hSome : (unmark part).2 ≠ []) :
    (alternativeOf part).mentions taken =
      if taken (String.ofList (unmark part).2) then []
      else
        match arrayForm? (unmark part).2 with
        | none =>
          if isKeyword (String.ofList (unmark part).2) then []
          else [String.ofList (unmark part).2]
        | some (.malformed _) => []
        | some (.container _ element) => mentions taken (parse element) := by
  have hEmpty : (unmark part).2.isEmpty = false := by simpa using hSome
  rw [alternativeOf, hEmpty]
  cases arrayForm? (unmark part).2 with
  | none =>
    show (if taken _ || isKeyword _ then _ else _) = _
    cases taken (String.ofList (unmark part).2) <;> rfl
  | some form =>
    cases form with
    | malformed reason => exact (ite_self _).symm
    | container kind element => rfl

/-! ## Good parts -/

/-- Class names always have a meaning, and the known ones are asked for. -/
def Refers (reading : Reading) (known : String → Bool) : Prop :=
  ∀ name, (∃ type, (reading.named name).outcome = .ok type) ∧
    (reading.named name).asks = if known name then [name] else []

/-- A part has a type and asks for the classes that it refers to. -/
def Accepts (reading : Reading) (known : String → Bool) (part : List Char) : Prop :=
  (∃ type, (reading.alternative (alternativeOf part)).outcome = .ok type) ∧
    (reading.alternative (alternativeOf part)).asks = asked reading.taken known [part]

variable {known : String → Bool}

theorem word_of_refers (hRefers : reading.Refers known) {atom : String}
    (hWord : atom ∉ inexpressible) :
    (∃ type, (reading.word atom).outcome = .ok type) ∧
      (reading.word atom).asks = (if isKeyword atom then [] else [atom]).filter known := by
  rw [word, isKeyword]
  cases keyword? atom with
  | some keyword => exact ⟨⟨_, rfl⟩, rfl⟩
  | none =>
    obtain ⟨hType, hAsks⟩ := hRefers atom
    simp only [if_neg hWord, Option.isSome_none, Bool.false_or, decide_eq_true_eq]
    refine ⟨hType, hAsks.trans ?_⟩
    rw [List.filter_singleton]
    cases known atom <;> rfl

theorem alternatives_of_accepts {texts : List (List Char)}
    (h : ∀ part ∈ texts, reading.Accepts known part) :
    (∃ types, (reading.alternatives (texts.map alternativeOf)).outcome = .ok types) ∧
      (reading.alternatives (texts.map alternativeOf)).asks =
        asked reading.taken known texts := by
  have hAll : ∃ types, ((texts.map alternativeOf).mapM reading.alternative).outcome = .ok types :=
    mapM_of_ok (by simpa using fun part hPart => (h part hPart).1)
  obtain ⟨types, hTypes⟩ := hAll
  rw [alternatives_eq_mapM]
  refine ⟨⟨types, hTypes⟩, ?_⟩
  rw [asks_mapM hTypes, asked_eq_flatMap, List.flatMap_map]
  refine List.flatMap_congr fun part hPart => ?_
  rw [(h part hPart).2, asked_eq_flatMap, List.flatMap_singleton]

/-- A part that is not bad has a type. -/
theorem accepts_of_good (hRefers : reading.Refers known)
    (hGood : ¬BadPart reading.taken part) : reading.Accepts known part := by
  induction hLength : (unmark part).2.length using Nat.strong_induction_on generalizing part with
  | _ length ih =>
    subst hLength
    rw [Accepts, asked_eq_flatMap, List.flatMap_singleton]
    by_cases hSome : (unmark part).2 = []
    · -- nothing behind a `?` says nothing
      have hEmpty : alternativeOf part = .empty := by rw [alternativeOf, hSome]; rfl
      rw [hEmpty, alternative]
      exact ⟨⟨_, rfl⟩, rfl⟩
    rw [alternative_alternativeOf hSome, mentions_alternativeOf hSome, asks_map, outcome_map]
    cases hOverride : reading.override? (String.ofList (unmark part).2) with
    | some type =>
      have hTaken : reading.taken (String.ofList (unmark part).2) = true := by
        rw [← Bool.not_eq_false, ← override?_eq_none, hOverride]
        simp
      rw [if_pos hTaken]
      exact ⟨⟨_, rfl⟩, rfl⟩
    | none =>
      have hFree := override?_eq_none.mp hOverride
      rw [hFree, if_neg Bool.false_ne_true]
      cases hForm : arrayForm? (unmark part).2 with
      | none =>
        have hWord : String.ofList (unmark part).2 ∉ inexpressible :=
          fun hKeyword => hGood (.keyword hFree hKeyword)
        obtain ⟨⟨type, hType⟩, hAsks⟩ := word_of_refers hRefers hWord
        exact ⟨⟨_, by rw [hType]; rfl⟩, hAsks⟩
      | some form =>
        cases form with
        | malformed reason =>
          exact absurd (.malformed hFree (arrayForm?_eq_malformed.mp hForm)) hGood
        | container kind element =>
          -- the parts of the element are shorter, and none of them is bad
          have hParts : ∀ inner ∈ parts '|' element, reading.Accepts known inner := by
            intro inner hInner
            have hShorter : (unmark inner).2.length < (unmark part).2.length :=
              Nat.lt_of_le_of_lt (length_atom_le_of_mem_parts hInner) (length_element_lt hForm)
            refine ih _ hShorter (fun hBad => hGood ?_) rfl
            exact .element hFree (arrayForm?_eq_container.mp hForm) hInner hBad
          obtain ⟨⟨types, hTypes⟩, hAsks⟩ := alternatives_of_accepts hParts
          dsimp only
          rw [parse_eq_map]
          simp only [asks_map, outcome_map, hTypes]
          exact ⟨⟨_, rfl⟩, hAsks⟩

/-! ## Bad parts -/

theorem arrayForm?_of_inexpressible {atom : List Char}
    (h : String.ofList atom ∈ inexpressible) : atom ≠ [] ∧ arrayForm? atom = none := by
  have hWords : ∀ word ∈ inexpressible, word.toList ≠ [] ∧ arrayForm? word.toList = none := by
    decide
  simpa only [String.toList_ofList] using hWords _ h

/-- Where the first bad part fails, all parts do. -/
theorem alternatives_of_firstBad (hRefers : reading.Refers known) {text : List Char}
    {before : List (List Char)} (hFirst : FirstBad reading.taken text before part)
    {failure : Failure}
    (hFails : (reading.alternative (alternativeOf part)).outcome = .error failure) :
    (reading.alternatives (parse text)).outcome = .error failure ∧
      (reading.alternatives (parse text)).asks = asked reading.taken known before ++
        (reading.alternative (alternativeOf part)).asks := by
  obtain ⟨after, hSplits⟩ := hFirst.splits
  have hBefore : ∀ earlier ∈ before, reading.Accepts known earlier :=
    fun earlier hEarlier => accepts_of_good hRefers (hFirst.first earlier hEarlier)
  have hTypes : ∀ alternative ∈ before.map alternativeOf,
      ∃ type, (reading.alternative alternative).outcome = .ok type := by
    simpa using fun earlier hEarlier => (hBefore earlier hEarlier).1
  obtain ⟨-, hAsks⟩ := alternatives_of_accepts hBefore
  obtain ⟨types, hAll⟩ := mapM_of_ok hTypes
  rw [alternatives_eq_mapM, asks_mapM hAll] at hAsks
  rw [parse_eq_map, hSplits, List.map_append, List.map_cons, alternatives_eq_mapM, ← hAsks]
  exact mapM_of_error hTypes hFails

/-- A part with a cause fails with it, and asks for what stands before it. -/
theorem alternative_of_cause (hRefers : reading.Refers known) {atom culprit : List Char}
    {reason : Reason} {names : List String}
    (hCause : AtomCause reading.taken known atom reason culprit names)
    (hAtom : (unmark part).2 = atom) :
    (reading.alternative (alternativeOf part)).outcome =
        .error (reading.faultOf reason (String.ofList culprit)) ∧
      (reading.alternative (alternativeOf part)).asks = names := by
  -- a cause within an element is first met when the element is converted
  induction hCause generalizing part with
  | keyword hFree hKeyword =>
    subst hAtom
    obtain ⟨hSome, hForm⟩ := arrayForm?_of_inexpressible hKeyword
    rw [alternative_alternativeOf hSome, override?_eq_none.mpr hFree, hForm]
    simp only [outcome_map, asks_map, word_eq_fault hKeyword]
    exact ⟨rfl, rfl⟩
  | malformed hFree hMalformed =>
    subst hAtom
    have hForm := hMalformed.arrayForm?_eq
    rw [alternative_alternativeOf (ne_nil_of_arrayForm? hForm), override?_eq_none.mpr hFree, hForm]
    simp only [outcome_map, asks_map]
    exact ⟨rfl, rfl⟩
  | element hFree hHolds hFirst hCause ih =>
    subst hAtom
    have hForm := hHolds.arrayForm?_eq
    rw [alternative_alternativeOf (ne_nil_of_arrayForm? hForm), override?_eq_none.mpr hFree, hForm]
    obtain ⟨hOutcome, hAsks⟩ := ih rfl
    obtain ⟨hFails, hAsked⟩ := alternatives_of_firstBad hRefers hFirst hOutcome
    simp only [outcome_map, asks_map, hFails, hAsked, hAsks]
    exact ⟨rfl, trivial⟩

/-- A descriptor that is not bad has a type and asks for the classes that it refers to. -/
theorem convert_of_good (hRefers : reading.Refers known) {text : List Char}
    (hGood : ¬Bad reading.taken text) :
    (∃ type, (reading.convert (parse text)).outcome = .ok type) ∧
      (reading.convert (parse text)).asks = asked reading.taken known (parts '|' text) := by
  have hParts : ∀ part ∈ parts '|' text, reading.Accepts known part :=
    fun part hPart => accepts_of_good hRefers fun hBad => hGood ⟨part, hPart, hBad⟩
  obtain ⟨⟨types, hTypes⟩, hAsks⟩ := alternatives_of_accepts hParts
  rw [← parse_eq_map] at hTypes hAsks
  rw [convert, outcome_map, asks_map, hTypes]
  exact ⟨⟨_, rfl⟩, hAsks⟩

/-- A descriptor with a cause fails with it and asks for what stands before it. -/
theorem convert_of_cause (hRefers : reading.Refers known) {text culprit : List Char}
    {reason : Reason} {names : List String}
    (hCause : Cause reading.taken known text reason culprit names) :
    (reading.convert (parse text)).outcome =
        .error (reading.faultOf reason (String.ofList culprit)) ∧
      (reading.convert (parse text)).asks = names := by
  obtain ⟨before, part, inner, hFirst, hAtom, rfl⟩ := hCause
  obtain ⟨hOutcome, hAsks⟩ := alternative_of_cause hRefers hAtom rfl
  obtain ⟨hFails, hAsked⟩ := alternatives_of_firstBad hRefers hFirst hOutcome
  rw [convert, outcome_map, asks_map, hFails, hAsked, hAsks]
  exact ⟨rfl, rfl⟩

end Reading

namespace World

open Descriptor Text

/-- Whether an atom has a replacement. -/
def replaces (world : World) (atom : String) : Bool :=
  (Table.find? world.replacements atom).isSome

/-- Whether there is a class of a name. -/
def knows (world : World) (name : String) : Bool :=
  (Table.find? world.registry name).isSome

/-- Outside of properties that expand in place a class is referred to. -/
theorem named_of_not_inPlace (world : World) (path entered : List String) (name : String) :
    world.named path entered false name =
      if world.knows name then .ask name (.reference name) else pure .unknown := by
  rw [knows]
  cases hFound : Table.find? world.registry name with
  | none => exact named_unknown hFound
  | some c => exact named_refers hFound rfl

/-- Converted without a property, a descriptor fails just if it is bad.  The fault states the cause
and no place.  Asked for are the classes before the cause, or all that are referred to if there is
none. -/
theorem rejects_exactly_bad (world : World) (path : List String) (text : String) :
    ((∃ failure, (world.convertWithin path none text).outcome = .error failure) ↔
      Bad world.replaces text.toList) ∧
    (∀ failure names,
      (world.convertWithin path none text).outcome = .error failure ∧
          (world.convertWithin path none text).asks = names ↔
        ∃ reason culprit, Cause world.replaces world.knows text.toList reason culprit names ∧
          failure = .unresolved { reason := reason, text := String.ofList culprit }) ∧
    (¬Bad world.replaces text.toList → (world.convertWithin path none text).asks =
      asked world.replaces world.knows (parts '|' text.toList)) := by
  let reading : Reading :=
    { scope := none
      replacements := world.replacements
      named := world.named path [] false }
  have hRefers : reading.Refers world.knows := by
    intro name
    show (∃ type, (world.named path [] false name).outcome = .ok type) ∧
      (world.named path [] false name).asks = _
    rw [named_of_not_inPlace]
    cases world.knows name <;> exact ⟨⟨_, rfl⟩, rfl⟩
  have hTaken : reading.taken = world.replaces := by
    funext atom
    exact Bool.false_or _
  have hConvert : world.convertWithin path none text = reading.convert (parse text.toList) := rfl
  rw [hConvert, ← hTaken]
  have hBad : Bad reading.taken text.toList → ∃ reason culprit names,
      Cause reading.taken world.knows text.toList reason culprit names := Bad.exists_cause
  have hFails : (∃ failure, (reading.convert (parse text.toList)).outcome = .error failure) ↔
      Bad reading.taken text.toList := by
    constructor
    · rintro ⟨failure, hFailure⟩
      by_contra hGood
      obtain ⟨⟨type, hType⟩, -⟩ := Reading.convert_of_good hRefers hGood
      cases hType.symm.trans hFailure
    · intro h
      obtain ⟨reason, culprit, names, hCause⟩ := hBad h
      exact ⟨_, (Reading.convert_of_cause hRefers hCause).1⟩
  refine ⟨hFails, fun failure names => ?_, fun hGood => ?_⟩
  · constructor
    · rintro ⟨hFailure, rfl⟩
      -- there is one cause at least, and the conversion fails with that
      obtain ⟨reason, culprit, names, hCause⟩ := hBad (hFails.mp ⟨failure, hFailure⟩)
      obtain ⟨hOutcome, hAsks⟩ := Reading.convert_of_cause hRefers hCause
      exact ⟨reason, culprit, hAsks ▸ hCause, Except.error.inj (hFailure.symm.trans hOutcome)⟩
    · rintro ⟨reason, culprit, hCause, rfl⟩
      exact Reading.convert_of_cause hRefers hCause
  · exact (Reading.convert_of_good hRefers hGood).2

end World

end Ambient
