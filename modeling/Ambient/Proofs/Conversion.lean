import Ambient.Conversion
import Mathlib.Data.List.Forall2

/-!
# What conversions keep to

A conversion does three things that can be watched: it asks for names, it may fail, and it may give
a value.  `Meets` bounds all three at once, and the lemmas of this module carry such a bound from
the meaning of class names to whole descriptors and properties:

* `meets_convert`: a descriptor meets a bound if the names it mentions do;
* `meets_convertProperties`: so do the properties of a class.

A second family of lemmas goes the other way: `convert_ok_named` reads off a successful conversion
that every name mentioned was converted as well.  The third compares two meanings of class names.
`Approximates` says that where the first one comes to an end the second one is the same, and
`approximates_convertProperties` lifts that to whole classes.
-/

namespace Ambient

/-! ## Bounds -/

namespace Conversion

variable {α β : Type}

/-- The conversion asks only for names of `asks`, fails only in ways of `fails`, and gives only
values that stand in the relation `gives` to the names asked for. -/
structure Meets (asks : String → Prop) (fails : Failure → Prop) (gives : List String → α → Prop)
    (conversion : Conversion α) : Prop where
  asks : ∀ name ∈ conversion.asks, asks name
  fails : ∀ failure, conversion.outcome = .error failure → fails failure
  gives : ∀ value, conversion.outcome = .ok value → gives conversion.asks value

variable {asks : String → Prop} {fails : Failure → Prop}

theorem meets_pure {gives : List String → α → Prop} {value : α} (h : gives [] value) :
    Meets asks fails gives (pure value) := by
  refine ⟨by simp, by simp, fun value' hValue => ?_⟩
  cases hValue
  exact h

theorem meets_fail {gives : List String → α → Prop} {failure : Failure} (h : fails failure) :
    Meets asks fails gives (.fail failure) := by
  refine ⟨by simp [fail], fun failure' hFailure => ?_, fun value hValue => by cases hValue⟩
  cases hFailure
  exact h

theorem meets_ask {gives : List String → α → Prop} {name : String} {value : α} (hAsk : asks name)
    (hGive : gives [name] value) : Meets asks fails gives (.ask name value) := by
  refine ⟨by simpa [ask] using hAsk, fun failure hFailure => ?_, fun value' hValue => ?_⟩
  · cases hFailure
  · cases hValue
    exact hGive

theorem Meets.bind {first : List String → α → Prop} {gives : List String → β → Prop}
    {conversion : Conversion α} {next : α → Conversion β}
    (h : Meets asks fails first conversion)
    (hNext : ∀ value, first conversion.asks value →
      Meets asks fails (fun names => gives (conversion.asks ++ names)) (next value)) :
    Meets asks fails gives (conversion >>= next) := by
  cases hOutcome : conversion.outcome with
  | error failure =>
    -- what was asked for before the failure has been asked for
    rw [bind_of_error hOutcome]
    refine ⟨h.asks, fun failure' hFailure => ?_, fun value hValue => by cases hValue⟩
    cases hFailure
    exact h.fails _ hOutcome
  | ok value =>
    rw [bind_of_ok hOutcome]
    have hRest := hNext value (h.gives _ hOutcome)
    refine ⟨fun name hName => ?_, hRest.fails, hRest.gives⟩
    rcases List.mem_append.mp hName with hName | hName
    · exact h.asks name hName
    · exact hRest.asks name hName

theorem Meets.map {first : List String → α → Prop} {gives : List String → β → Prop}
    {conversion : Conversion α} {f : α → β} (h : Meets asks fails first conversion)
    (hGive : ∀ names value, first names value → gives names (f value)) :
    Meets asks fails gives (f <$> conversion) := by
  rw [map_eq_pure_bind]
  refine h.bind fun value hValue => meets_pure ?_
  rw [List.append_nil]
  exact hGive _ _ hValue

theorem meets_mapM {ι : Type} {gives : List String → α → Prop} {convert : ι → Conversion α}
    {items : List ι} (hMono : ∀ {names names' value}, names ⊆ names' → gives names value →
      gives names' value)
    (h : ∀ item ∈ items, Meets asks fails gives (convert item)) :
    Meets asks fails (fun names values => ∀ value ∈ values, gives names value)
      (items.mapM convert) := by
  induction items with
  | nil => exact meets_pure (by simp)
  | cons item rest ih =>
    rw [List.mapM_cons]
    have hRest := ih fun other hOther => h other (List.mem_cons_of_mem _ hOther)
    refine (h item (List.mem_cons_self ..)).bind fun value hValue =>
      hRest.bind fun values hValues => meets_pure ?_
    -- each value is judged by its own names, which are some of all the names
    intro value' hMem
    rw [List.append_nil]
    rcases List.mem_cons.mp hMem with rfl | hMem
    · exact hMono (List.subset_append_left ..) hValue
    · exact hMono (List.subset_append_right ..) (hValues value' hMem)

/-! ### Success -/

theorem bind_ok {conversion : Conversion α} {next : α → Conversion β} {value : β}
    (h : (conversion >>= next).outcome = .ok value) :
    ∃ first, conversion.outcome = .ok first ∧ (next first).outcome = .ok value := by
  cases hOutcome : conversion.outcome with
  | error failure =>
    rw [bind_of_error hOutcome] at h
    cases h
  | ok first =>
    rw [bind_of_ok hOutcome] at h
    exact ⟨first, rfl, h⟩

theorem map_ok {conversion : Conversion α} {f : α → β} {value : β}
    (h : (f <$> conversion).outcome = .ok value) :
    ∃ first, conversion.outcome = .ok first ∧ f first = value := by
  rw [map_eq_pure_bind] at h
  obtain ⟨first, hFirst, h⟩ := bind_ok h
  exact ⟨first, hFirst, Except.ok.inj h⟩

theorem map_of_ok {conversion : Conversion α} {value : α} (h : conversion.outcome = .ok value)
    (f : α → β) : (f <$> conversion).outcome = .ok (f value) := by
  rw [map_eq_pure_bind, bind_of_ok h]
  rfl

theorem mapM_ok {ι : Type} {convert : ι → Conversion α} {items : List ι} {values : List α}
    (h : (items.mapM convert).outcome = .ok values) :
    ∀ item ∈ items, ∃ value, (convert item).outcome = .ok value := by
  induction items generalizing values with
  | nil => simp
  | cons first rest ih =>
    rw [List.mapM_cons] at h
    obtain ⟨value, hFirst, h⟩ := bind_ok h
    obtain ⟨values', hRest, -⟩ := bind_ok h
    intro item hItem
    rcases List.mem_cons.mp hItem with rfl | hItem
    · exact ⟨value, hFirst⟩
    · exact ih hRest item hItem

/-- Conversions that all succeed ask for what each of them asks for. -/
theorem asks_mapM {ι : Type} {convert : ι → Conversion α} {items : List ι} {values : List α}
    (h : (items.mapM convert).outcome = .ok values) :
    (items.mapM convert).asks = items.flatMap fun item => (convert item).asks := by
  induction items generalizing values with
  | nil => rfl
  | cons first rest ih =>
    rw [List.mapM_cons] at h ⊢
    obtain ⟨value, hFirst, h⟩ := bind_ok h
    obtain ⟨values', hRest, -⟩ := bind_ok h
    rw [bind_of_ok hFirst, bind_of_ok hRest, pure_eq, List.append_nil, ih hRest,
      List.flatMap_cons]

@[simp] theorem outcome_map (f : α → β) (conversion : Conversion α) :
    (f <$> conversion).outcome = conversion.outcome.map f := by
  rw [map_eq_pure_bind]
  cases h : conversion.outcome with
  | error failure => rw [bind_of_error h]; rfl
  | ok value => rw [bind_of_ok h]; rfl

theorem mapM_of_ok {ι : Type} {convert : ι → Conversion α} {items : List ι}
    (h : ∀ item ∈ items, ∃ value, (convert item).outcome = .ok value) :
    ∃ values, (items.mapM convert).outcome = .ok values := by
  induction items with
  | nil => exact ⟨[], rfl⟩
  | cons first rest ih =>
    obtain ⟨value, hFirst⟩ := h first (List.mem_cons_self ..)
    obtain ⟨values, hRest⟩ := ih fun item hItem => h item (List.mem_cons_of_mem _ hItem)
    rw [List.mapM_cons, bind_of_ok hFirst, bind_of_ok hRest]
    exact ⟨value :: values, rfl⟩

/-- The first of several conversions that fails is the last one that is carried out. -/
theorem mapM_of_error {ι : Type} {convert : ι → Conversion α} {before after : List ι} {item : ι}
    {failure : Failure} (hBefore : ∀ other ∈ before, ∃ value, (convert other).outcome = .ok value)
    (hItem : (convert item).outcome = .error failure) :
    ((before ++ item :: after).mapM convert).outcome = .error failure ∧
      ((before ++ item :: after).mapM convert).asks =
        (before.flatMap fun other => (convert other).asks) ++ (convert item).asks := by
  obtain ⟨values, hValues⟩ := mapM_of_ok hBefore
  rw [List.mapM_append, bind_of_ok hValues, List.mapM_cons, bind_of_error hItem,
    bind_of_error rfl, asks_mapM hValues]
  exact ⟨rfl, rfl⟩

/-! ### Comparison -/

/-- Where the first conversion comes to an end, the second one is the same. -/
def Approximates (first second : Conversion α) : Prop :=
  first.outcome ≠ .error .endless → second = first

protected theorem Approximates.rfl {conversion : Conversion α} :
    conversion.Approximates conversion :=
  fun _ => rfl

theorem Approximates.bind {first second : Conversion α} {next next' : α → Conversion β}
    (h : first.Approximates second) (hNext : ∀ value, (next value).Approximates (next' value)) :
    (first >>= next).Approximates (second >>= next') := by
  intro hEnds
  cases hFirst : first.outcome with
  | error failure =>
    -- the failure is that of the whole, so it is not the one that leaves things open
    have hFailure : failure ≠ .endless := fun hEndless => hEnds (by
      rw [bind_of_error hFirst, hEndless])
    obtain rfl : second = first := h (by rw [hFirst]; simpa using hFailure)
    rw [bind_of_error hFirst, bind_of_error hFirst]
  | ok value =>
    rw [bind_of_ok hFirst] at hEnds
    obtain rfl : second = first := h (by rw [hFirst]; simp)
    rw [bind_of_ok hFirst, bind_of_ok hFirst, hNext value hEnds]

theorem Approximates.map {first second : Conversion α} (f : α → β)
    (h : first.Approximates second) : (f <$> first).Approximates (f <$> second) := by
  rw [map_eq_pure_bind, map_eq_pure_bind]
  exact h.bind fun _ => .rfl

theorem approximates_mapM {ι : Type} {convert convert' : ι → Conversion α} {items : List ι}
    (h : ∀ item ∈ items, (convert item).Approximates (convert' item)) :
    (items.mapM convert).Approximates (items.mapM convert') := by
  induction items with
  | nil => exact .rfl
  | cons item rest ih =>
    rw [List.mapM_cons, List.mapM_cons]
    refine (h item (List.mem_cons_self ..)).bind fun value => ?_
    exact (ih fun other hOther => h other (List.mem_cons_of_mem _ hOther)).bind fun _ => .rfl

end Conversion

/-- A relation between names and types that holds of a type if it holds of its parts, and that more
names do not break. -/
structure TsType.Hereditary (gives : List String → TsType → Prop) : Prop where
  mono : ∀ {names names' type}, names ⊆ names' → gives names type → gives names' type
  scalar : ∀ keyword, gives [] (.scalar keyword)
  raw : ∀ text, gives [] (.raw text)
  union : ∀ {names members}, (∀ type ∈ members, gives names type) → gives names (.union members)
  container : ∀ {names type} kind, gives names type → gives names (.container kind type)

/-- A hereditary relation that inline expansion keeps as well. -/
structure TsType.Compositional (gives : List String → TsType → Prop) : Prop
    extends TsType.Hereditary gives where
  inlineEnum : ∀ values, gives [] (.inlineEnum values)
  inlineRecord : ∀ {names properties}, (∀ entry ∈ properties, gives names entry.2) →
    gives names (.inlineRecord properties)

namespace TsType.Hereditary

variable {gives : List String → TsType → Prop}

theorem nullable (h : Hereditary gives) {names : List String} {type : TsType}
    (hType : gives names type) : gives names type.nullable := by
  -- `null` is added in a union, or not at all
  have hUnion : gives names (.union [type, TsType.null]) := by
    refine h.union fun member hMember => ?_
    simp only [List.mem_cons, List.not_mem_nil, or_false] at hMember
    rcases hMember with rfl | rfl
    · exact hType
    · exact h.mono (List.nil_subset _) (h.scalar _)
  unfold TsType.nullable
  split
  · split
    · exact hType
    · exact hUnion
  · exact hUnion

theorem nullableIf (h : Hereditary gives) {names : List String} {type : TsType} (nullable : Bool)
    (hType : gives names type) : gives names (Reading.nullableIf nullable type) := by
  unfold Reading.nullableIf
  split
  · exact h.nullable hType
  · exact hType

theorem ofAlternatives (h : Hereditary gives) {names : List String} {types : List TsType}
    (hTypes : ∀ type ∈ types, gives names type) : gives names (.ofAlternatives types) := by
  unfold TsType.ofAlternatives
  split
  · exact h.mono (List.nil_subset _) (h.scalar _)
  · exact hTypes _ (List.mem_cons_self ..)
  · exact h.union hTypes

end TsType.Hereditary

/-! ## The names that descriptors mention -/

/-- Whether a marker or a replacement takes the place of an atom. -/
def overrides (scope : Option Scope) (replacements : Replacements) (atom : String) : Bool :=
  (Reading.marked? scope).isSome || (Table.find? replacements atom).isSome

/-- Whether a word is a keyword, with a type or without one. -/
def isKeyword (word : String) : Bool :=
  (Reading.keyword? word).isSome || word ∈ Reading.inexpressible

mutual

/-- The words of an alternative that are read as class names, in order, when `taken` tells which
atoms have another meaning already. -/
def Alternative.mentions (taken : String → Bool) : Alternative → List String
  | .empty => []
  | .word _ atom => if taken atom || isKeyword atom then [] else [atom]
  | .malformed _ _ _ => []
  | .container _ atom _ element => if taken atom then [] else Descriptor.mentions taken element

/-- The words of a descriptor that are read as class names, in order. -/
def Descriptor.mentions (taken : String → Bool) : List Alternative → List String
  | [] => []
  | first :: rest => first.mentions taken ++ Descriptor.mentions taken rest

end

namespace Reading

open Conversion

/-- The atoms that a marker or a replacement takes the place of. -/
def taken (reading : Reading) (atom : String) : Bool :=
  overrides reading.scope reading.replacements atom

/-- The fault that a reading finds in an atom. -/
def faultOf (reading : Reading) (reason : Reason) (atom : String) : Failure :=
  .unresolved { reason := reason, text := atom, location := reading.scope.map Scope.location }

theorem override?_eq_none {reading : Reading} {atom : String} :
    reading.override? atom = none ↔ reading.taken atom = false := by
  unfold override? taken overrides
  cases h : marked? reading.scope <;> simp

/-- What stands for a taken atom is a text. -/
theorem override?_raw {reading : Reading} {atom : String} {type : TsType}
    (h : reading.override? atom = some type) : ∃ text, type = .raw text := by
  unfold override? marked? at h
  split at h
  · -- a literal or a template, both written out
    rename_i marked hMarked
    obtain rfl : marked = type := Option.some.inj h
    obtain ⟨scope, -, hScope⟩ := Option.bind_eq_some_iff.mp hMarked
    split at hScope
    · exact ⟨_, (Option.some.inj hScope).symm⟩
    · obtain ⟨pattern, -, rfl⟩ := Option.map_eq_some_iff.mp hScope
      exact ⟨_, rfl⟩
  · obtain ⟨text, -, rfl⟩ := Option.map_eq_some_iff.mp h
    exact ⟨text, rfl⟩

variable {asks : String → Prop} {fails : Failure → Prop} {gives : List String → TsType → Prop}
  {reading : Reading}

theorem meets_word (hHered : TsType.Hereditary gives)
    (hFault : ∀ reason atom, fails (reading.faultOf reason atom)) {atom : String}
    (hNamed : isKeyword atom = false → (reading.named atom).Meets asks fails gives) :
    (reading.word atom).Meets asks fails gives := by
  unfold word
  cases hKeyword : keyword? atom with
  | some keyword => exact meets_pure (hHered.scalar keyword)
  | none =>
    by_cases hInexpressible : atom ∈ inexpressible
    · rw [if_pos hInexpressible]
      exact meets_fail (hFault _ _)
    · -- what is no keyword at all is read as a class name
      rw [if_neg hInexpressible]
      exact hNamed (by simp [isKeyword, hKeyword, hInexpressible])

/-- An atom meets a bound if what it means without an override does. -/
theorem meets_atom (hHered : TsType.Hereditary gives) {nullable : Bool} {atom : String}
    {otherwise : Conversion TsType}
    (h : reading.taken atom = false → otherwise.Meets asks fails gives) :
    (nullableIf nullable <$>
      match reading.override? atom with
      | some type => pure type
      | none => otherwise : Conversion TsType).Meets asks fails gives := by
  refine Meets.map ?_ fun names type hType => hHered.nullableIf nullable hType
  cases hOverride : reading.override? atom with
  | none => exact h (override?_eq_none.mp hOverride)
  | some type =>
    obtain ⟨text, rfl⟩ := override?_raw hOverride
    exact meets_pure (hHered.raw text)

-- The mutual recursion is that of the two conversions; the names are passed down with the part that
-- mentions them.
mutual

theorem meets_alternative (hHered : TsType.Hereditary gives)
    (hFault : ∀ reason atom, fails (reading.faultOf reason atom)) (part : Alternative)
    (hNamed : ∀ name ∈ part.mentions reading.taken,
      (reading.named name).Meets asks fails gives) :
    (reading.alternative part).Meets asks fails gives := by
  -- where nothing takes the place of the atom, its own mentions are those of the part
  cases part with
  | empty =>
    rw [alternative]
    exact meets_pure (hHered.scalar _)
  | word nullable atom =>
    rw [alternative]
    refine meets_atom hHered fun hFree => meets_word hHered hFault fun hKeyword => ?_
    exact hNamed atom (by simp [Alternative.mentions, hFree, hKeyword])
  | malformed nullable atom reason =>
    rw [alternative]
    exact meets_atom hHered fun _ => meets_fail (hFault _ _)
  | container nullable atom kind element =>
    rw [alternative]
    refine meets_atom hHered fun hFree => ?_
    refine (meets_alternatives hHered hFault element fun name hName => ?_).map
      fun names types hTypes => hHered.container kind (hHered.ofAlternatives hTypes)
    exact hNamed name (by simpa [Alternative.mentions, hFree] using hName)

theorem meets_alternatives (hHered : TsType.Hereditary gives)
    (hFault : ∀ reason atom, fails (reading.faultOf reason atom)) (parts : List Alternative)
    (hNamed : ∀ name ∈ Descriptor.mentions reading.taken parts,
      (reading.named name).Meets asks fails gives) :
    (reading.alternatives parts).Meets asks fails
      fun names types => ∀ type ∈ types, gives names type := by
  cases parts with
  | nil =>
    rw [alternatives]
    exact meets_pure (by simp)
  | cons first rest =>
    rw [alternatives]
    have hFirst := meets_alternative hHered hFault first fun name hName =>
      hNamed name (by rw [Descriptor.mentions]; exact List.mem_append_left _ hName)
    have hRest := meets_alternatives hHered hFault rest fun name hName =>
      hNamed name (by rw [Descriptor.mentions]; exact List.mem_append_right _ hName)
    -- each type has asked for a part of the names only, and `mono` lets it have them all
    refine hFirst.bind fun type hType => hRest.bind fun types hTypes => meets_pure ?_
    intro other hOther
    rw [List.append_nil]
    rcases List.mem_cons.mp hOther with rfl | hOther
    · exact hHered.mono (List.subset_append_left ..) hType
    · exact hHered.mono (List.subset_append_right ..) (hTypes other hOther)

end

/-- A descriptor meets a bound if the names it mentions do. -/
theorem meets_convert (hHered : TsType.Hereditary gives)
    (hFault : ∀ reason atom, fails (reading.faultOf reason atom)) {descriptor : Descriptor}
    (hNamed : ∀ name ∈ Descriptor.mentions reading.taken descriptor,
      (reading.named name).Meets asks fails gives) :
    (reading.convert descriptor).Meets asks fails gives :=
  (meets_alternatives hHered hFault descriptor hNamed).map
    fun _ _ hTypes => hHered.ofAlternatives hTypes

theorem alternatives_eq_mapM (reading : Reading) (parts : List Alternative) :
    reading.alternatives parts = parts.mapM reading.alternative := by
  induction parts with
  | nil => rw [alternatives]; rfl
  | cons first rest ih => rw [alternatives, ih, List.mapM_cons]

/-! ### Success -/

theorem alternatives_cons_ok {first : Alternative} {rest : List Alternative}
    {types : List TsType} (h : (reading.alternatives (first :: rest)).outcome = .ok types) :
    ∃ type others, types = type :: others ∧ (reading.alternative first).outcome = .ok type ∧
      (reading.alternatives rest).outcome = .ok others := by
  rw [alternatives] at h
  obtain ⟨type, hType, h⟩ := bind_ok h
  obtain ⟨others, hOthers, h⟩ := bind_ok h
  exact ⟨type, others, (Except.ok.inj h).symm, hType, hOthers⟩

/-- Alternatives have their types one by one and in their order. -/
theorem forall₂_of_alternatives_ok {parts : List Alternative} {types : List TsType}
    (h : (reading.alternatives parts).outcome = .ok types) :
    List.Forall₂ (fun part type => (reading.alternative part).outcome = .ok type) parts types := by
  induction parts generalizing types with
  | nil =>
    rw [alternatives] at h
    obtain rfl : [] = types := Except.ok.inj h
    exact .nil
  | cons first rest ih =>
    obtain ⟨type, others, rfl, hType, hOthers⟩ := alternatives_cons_ok h
    exact .cons hType (ih hOthers)

mutual

theorem alternative_ok_named {part : Alternative} {type : TsType}
    (h : (reading.alternative part).outcome = .ok type) :
    ∀ name ∈ part.mentions reading.taken, ∃ type, (reading.named name).outcome = .ok type := by
  intro name hName
  -- only a word that is neither taken nor a keyword is a mention, and only containers nest
  cases part with
  | empty => simp [Alternative.mentions] at hName
  | word nullable atom =>
    rw [alternative] at h
    obtain ⟨type', h, -⟩ := map_ok h
    rw [Alternative.mentions] at hName
    split at hName
    · cases hName
    · -- a word that is neither taken nor a keyword is converted as the class name it is
      rename_i hFree
      obtain rfl := List.mem_singleton.mp hName
      simp only [isKeyword, Bool.or_eq_true, decide_eq_true_eq, not_or, Bool.not_eq_true,
        Option.isSome_eq_false_iff, Option.isNone_iff_eq_none] at hFree
      rw [override?_eq_none.mpr hFree.1] at h
      refine ⟨type', ?_⟩
      simpa [word, hFree.2.1, hFree.2.2] using h
  | malformed nullable atom reason => simp [Alternative.mentions] at hName
  | container nullable atom kind element =>
    rw [alternative] at h
    obtain ⟨type', h, -⟩ := map_ok h
    rw [Alternative.mentions] at hName
    split at hName
    · -- what stands for a whole container hides the names in it
      cases hName
    · rename_i hFree
      rw [override?_eq_none.mpr (Bool.not_eq_true _ ▸ hFree)] at h
      obtain ⟨types, hTypes, -⟩ := map_ok h
      exact alternatives_ok_named hTypes name hName

theorem alternatives_ok_named {parts : List Alternative} {types : List TsType}
    (h : (reading.alternatives parts).outcome = .ok types) :
    ∀ name ∈ Descriptor.mentions reading.taken parts,
      ∃ type, (reading.named name).outcome = .ok type := by
  intro name hName
  cases parts with
  | nil => simp [Descriptor.mentions] at hName
  | cons first rest =>
    obtain ⟨type, others, -, hFirst, hRest⟩ := alternatives_cons_ok h
    rw [Descriptor.mentions] at hName
    rcases List.mem_append.mp hName with hName | hName
    · exact alternative_ok_named hFirst name hName
    · exact alternatives_ok_named hRest name hName

end

/-- A descriptor has a type only if every name that it mentions has one. -/
theorem convert_ok_named {descriptor : Descriptor} {type : TsType}
    (h : (reading.convert descriptor).outcome = .ok type) :
    ∀ name ∈ Descriptor.mentions reading.taken descriptor,
      ∃ type, (reading.named name).outcome = .ok type := by
  obtain ⟨types, hTypes, -⟩ := map_ok h
  exact alternatives_ok_named hTypes

/-! ### Comparison -/

variable {named : String → Conversion TsType}

theorem approximates_word (atom : String)
    (hNamed : (reading.named atom).Approximates (named atom)) :
    (reading.word atom).Approximates (word { reading with named := named } atom) := by
  unfold word
  cases keyword? atom with
  | some keyword => exact .rfl
  | none =>
    by_cases hInexpressible : atom ∈ inexpressible
    · simp only [if_pos hInexpressible]
      exact .rfl
    · simp only [if_neg hInexpressible]
      exact hNamed

theorem approximates_atom (override : Option TsType) (nullable : Bool)
    {first second : Conversion TsType} (h : first.Approximates second) :
    (nullableIf nullable <$>
      match override with
      | some type => pure type
      | none => first : Conversion TsType).Approximates
    (nullableIf nullable <$>
      match override with
      | some type => pure type
      | none => second) := by
  refine Approximates.map _ ?_
  cases override with
  | some type => exact .rfl
  | none => exact h

mutual

theorem approximates_alternative (part : Alternative)
    (hNamed : ∀ name, (reading.named name).Approximates (named name)) :
    (reading.alternative part).Approximates
      (Reading.alternative { reading with named := named } part) := by
  cases part with
  | empty => rw [alternative, alternative]; exact .rfl
  | word nullable atom =>
    rw [alternative, alternative]
    exact approximates_atom (reading.override? atom) _ (approximates_word atom (hNamed atom))
  | malformed nullable atom reason =>
    rw [alternative, alternative]
    exact .rfl
  | container nullable atom kind element =>
    rw [alternative, alternative]
    exact approximates_atom (reading.override? atom) _
      (.map _ (approximates_alternatives element hNamed))

theorem approximates_alternatives (parts : List Alternative)
    (hNamed : ∀ name, (reading.named name).Approximates (named name)) :
    (reading.alternatives parts).Approximates
      (Reading.alternatives { reading with named := named } parts) := by
  cases parts with
  | nil => rw [alternatives, alternatives]; exact .rfl
  | cons first rest =>
    rw [alternatives, alternatives]
    refine (approximates_alternative first hNamed).bind fun type => ?_
    exact (approximates_alternatives rest hNamed).bind fun types => .rfl

end

theorem approximates_convert (descriptor : Descriptor)
    (hNamed : ∀ name, (reading.named name).Approximates (named name)) :
    (reading.convert descriptor).Approximates
      (Reading.convert { reading with named := named } descriptor) :=
  Approximates.map _ (approximates_alternatives descriptor hNamed)

end Reading

/-! ## The names that properties mention -/

/-- The class names in the descriptor of a property, in order; none if it has no descriptor. -/
def Property.mentions (replacements : Replacements) (owner : Class) (property : Property) :
    List String :=
  match Descriptor.resolve property owner with
  | .ok text =>
    Descriptor.mentions (overrides (some ⟨property, owner⟩) replacements) (Descriptor.parse text)
  | .error _ => []

section Properties

open Conversion

variable {asks : String → Prop} {fails : Failure → Prop} {gives : List String → TsType → Prop}
  {replacements : Replacements} {named : Bool → String → Conversion TsType} {owner : Class}

theorem meets_convertProperty (hHered : TsType.Hereditary gives)
    (hFault : ∀ fault, fails (.unresolved fault)) {property : Property}
    (hNamed : ∀ name ∈ property.mentions replacements owner,
      (named property.isInline name).Meets asks fails gives) :
    (convertProperty replacements named owner property).Meets asks fails gives := by
  cases hResolve : Descriptor.resolve property owner with
  | error fault =>
    rw [convertProperty_of_error hResolve]
    exact meets_fail (hFault fault)
  | ok text =>
    rw [convertProperty_of_ok hResolve]
    refine Reading.meets_convert hHered (fun _ _ => hFault _) fun name hName => hNamed name ?_
    rw [Property.mentions, hResolve]
    exact hName

/-- The properties of a class meet a bound if the names they mention do. -/
theorem meets_convertProperties (hHered : TsType.Hereditary gives)
    (hFault : ∀ fault, fails (.unresolved fault)) {properties : List Property}
    (hNamed : ∀ property ∈ properties, ∀ name ∈ property.mentions replacements owner,
      (named property.isInline name).Meets asks fails gives) :
    (convertProperties replacements named owner properties).Meets asks fails
      fun names table => ∀ entry ∈ table, gives names entry.2 := by
  -- properties that the table drops are converted like the others
  have hEntries : (properties.mapM fun property =>
      (property.name, ·) <$> convertProperty replacements named owner property).Meets asks fails
      fun names entries => ∀ entry ∈ entries, gives names entry.2 := by
    refine meets_mapM (fun hSub hGive => hHered.mono hSub hGive) fun property hProperty => ?_
    exact (meets_convertProperty hHered hFault (hNamed property hProperty)).map
      fun _ _ hType => hType
  refine hEntries.bind fun entries hTypes => meets_pure fun entry hEntry => ?_
  rw [List.append_nil]
  exact hTypes entry (Table.mem_of_mem_ofFirst hEntry)

/-- So does a class that is written out in place. -/
theorem meets_inlineRecord (hComp : TsType.Compositional gives)
    (hFault : ∀ fault, fails (.unresolved fault)) {properties : List Property}
    (hNamed : ∀ property ∈ properties, ∀ name ∈ property.mentions replacements owner,
      (named property.isInline name).Meets asks fails gives) :
    (TsType.inlineRecord <$> convertProperties replacements named owner properties).Meets asks
      fails gives :=
  (meets_convertProperties hComp.toHereditary hFault hNamed).map
    fun _ _ hTable => hComp.inlineRecord hTable

/-- A class has all its types only if every name that its properties mention has one. -/
theorem convertProperties_ok_named {properties : List Property} {table : Table TsType}
    (h : (convertProperties replacements named owner properties).outcome = .ok table) :
    ∀ property ∈ properties, ∀ name ∈ property.mentions replacements owner,
      ∃ type, (named property.isInline name).outcome = .ok type := by
  intro property hProperty name hName
  obtain ⟨entries, hEntries, -⟩ := bind_ok h
  obtain ⟨entry, hEntry⟩ := mapM_ok hEntries property hProperty
  obtain ⟨type, hType, -⟩ := map_ok hEntry
  unfold Property.mentions at hName
  split at hName
  · rename_i text hResolve
    rw [convertProperty_of_ok hResolve] at hType
    exact Reading.convert_ok_named hType name hName
  · cases hName

/-- Properties that all have a type ask for what each of them asks for, whatever their names. -/
theorem asks_convertProperties {properties : List Property} {table : Table TsType}
    (h : (convertProperties replacements named owner properties).outcome = .ok table) :
    (convertProperties replacements named owner properties).asks =
      properties.flatMap fun property =>
        (convertProperty replacements named owner property).asks := by
  obtain ⟨entries, hEntries, -⟩ := bind_ok h
  unfold convertProperties
  rw [bind_of_ok hEntries, pure_eq, List.append_nil, asks_mapM hEntries]
  simp only [asks_map]

theorem approximates_convertProperties {named' : Bool → String → Conversion TsType}
    {properties : List Property}
    (hNamed : ∀ inPlace name, (named inPlace name).Approximates (named' inPlace name)) :
    (convertProperties replacements named owner properties).Approximates
      (convertProperties replacements named' owner properties) := by
  refine Approximates.bind (approximates_mapM fun property _ => .map _ ?_) fun _ => .rfl
  -- a descriptor is resolved in the same way whatever class names mean
  cases hResolve : Descriptor.resolve property owner with
  | error fault =>
    rw [convertProperty_of_error hResolve, convertProperty_of_error hResolve]
    exact .rfl
  | ok text =>
    rw [convertProperty_of_ok hResolve, convertProperty_of_ok hResolve]
    exact Reading.approximates_convert _ (hNamed property.isInline)

end Properties

end Ambient
