import Ambient.Proofs.Conversion
import Ambient.Proofs.Parsing

/-!
# Where conversions fail

A descriptor can be without a type for two reasons: one of its atoms has no type, whatever class
names mean, or a class that it mentions cannot be converted.  The atoms of the first kind are the
*flaws* of the descriptor.

* `convert_error`: a conversion fails at a flaw or at a name that is mentioned.
* `flaws_of_convert_ok`: a descriptor with a flaw never gets a type, so a flaw that is met in some
  surroundings is a flaw in all of them.
* `flaws_isInfix`: what a flaw quotes stands in the text of the descriptor.

`Property.faults` adds what can be wrong before a descriptor is parsed: a parent that is missing.
-/

namespace Ambient

/-! ## Failures of conversions in a row -/

namespace Conversion

variable {α β : Type} {failure : Failure}

theorem bind_error {conversion : Conversion α} {next : α → Conversion β}
    (h : (conversion >>= next).outcome = .error failure) :
    conversion.outcome = .error failure ∨
      ∃ first, conversion.outcome = .ok first ∧ (next first).outcome = .error failure := by
  cases hOutcome : conversion.outcome with
  | error failure' =>
    rw [bind_of_error hOutcome] at h
    obtain rfl := Except.error.inj h
    exact .inl rfl
  | ok first =>
    rw [bind_of_ok hOutcome] at h
    exact .inr ⟨first, rfl, h⟩

theorem map_error {conversion : Conversion α} {f : α → β}
    (h : (f <$> conversion).outcome = .error failure) : conversion.outcome = .error failure := by
  rw [map_eq_pure_bind] at h
  rcases bind_error h with h | ⟨first, -, h⟩
  · exact h
  · cases h

theorem mapM_error {ι : Type} {convert : ι → Conversion α} {items : List ι}
    (h : (items.mapM convert).outcome = .error failure) :
    ∃ item ∈ items, (convert item).outcome = .error failure := by
  induction items with
  | nil => cases h
  | cons first rest ih =>
    rw [List.mapM_cons] at h
    rcases bind_error h with hFirst | ⟨value, -, h⟩
    · exact ⟨first, .head _, hFirst⟩
    · rcases bind_error h with hRest | ⟨values, -, h⟩
      · obtain ⟨item, hItem, hFails⟩ := ih hRest
        exact ⟨item, .tail _ hItem, hFails⟩
      · cases h

end Conversion

/-! ## Flaws -/

mutual

/-- The atoms of an alternative that have no type whatever class names mean, in order, each with the
reason; `taken` tells which atoms have another meaning already. -/
def Alternative.flaws (taken : String → Bool) : Alternative → List (Reason × String)
  | .empty => []
  | .word _ atom =>
    if taken atom || atom ∉ Reading.inexpressible then [] else [(.unsupportedKeyword, atom)]
  | .malformed _ atom reason => if taken atom then [] else [(reason, atom)]
  | .container _ atom _ element => if taken atom then [] else Descriptor.flaws taken element

/-- The atoms of a descriptor that have no type whatever class names mean, in order. -/
def Descriptor.flaws (taken : String → Bool) : List Alternative → List (Reason × String)
  | [] => []
  | first :: rest => first.flaws taken ++ Descriptor.flaws taken rest

end

namespace Reading

open Conversion

variable {reading : Reading} {failure : Failure}

theorem keyword?_of_inexpressible {atom : String} (h : atom ∈ inexpressible) :
    keyword? atom = none := by
  revert atom
  decide

theorem word_eq_fault {atom : String} (h : atom ∈ inexpressible) :
    reading.word atom = reading.fault .unsupportedKeyword atom := by
  rw [word, keyword?_of_inexpressible h]
  exact if_pos h

theorem word_of_inexpressible {atom : String} (h : atom ∈ inexpressible) :
    (reading.word atom).outcome = .error (reading.faultOf .unsupportedKeyword atom) :=
  congrArg outcome (word_eq_fault h)

/-- A word fails because no type can express it or because of the class that it names. -/
theorem word_error {atom : String} (h : (reading.word atom).outcome = .error failure) :
    (atom ∈ inexpressible ∧ failure = reading.faultOf .unsupportedKeyword atom) ∨
      (isKeyword atom = false ∧ (reading.named atom).outcome = .error failure) := by
  by_cases hInexpressible : atom ∈ inexpressible
  · rw [word_of_inexpressible hInexpressible] at h
    exact .inl ⟨hInexpressible, (Except.error.inj h).symm⟩
  · rw [word] at h
    cases hKeyword : keyword? atom with
    | some keyword =>
      rw [hKeyword] at h
      cases h
    | none =>
      simp only [hKeyword, if_neg hInexpressible] at h
      exact .inr ⟨by simp [isKeyword, hKeyword, hInexpressible], h⟩

/-- An atom fails only where nothing takes its place. -/
theorem atom_error {nullable : Bool} {atom : String} {otherwise : Conversion TsType}
    (h : (nullableIf nullable <$>
      match reading.override? atom with
      | some type => pure type
      | none => otherwise : Conversion TsType).outcome = .error failure) :
    reading.taken atom = false ∧ otherwise.outcome = .error failure := by
  have h := map_error h
  cases hOverride : reading.override? atom with
  | some type =>
    rw [hOverride] at h
    cases h
  | none =>
    rw [hOverride] at h
    exact ⟨override?_eq_none.mp hOverride, h⟩

/-- An atom whose place nothing takes succeeds only by itself. -/
theorem atom_ok {nullable : Bool} {atom : String} {otherwise : Conversion TsType} {type : TsType}
    (hFree : reading.taken atom = false)
    (h : (nullableIf nullable <$>
      match reading.override? atom with
      | some type => pure type
      | none => otherwise : Conversion TsType).outcome = .ok type) :
    ∃ type, otherwise.outcome = .ok type := by
  obtain ⟨type', h, -⟩ := map_ok h
  rw [override?_eq_none.mpr hFree] at h
  exact ⟨type', h⟩

/-! ### How a descriptor fails -/

mutual

theorem alternative_error {part : Alternative}
    (h : (reading.alternative part).outcome = .error failure) :
    (∃ flaw ∈ part.flaws reading.taken, failure = reading.faultOf flaw.1 flaw.2) ∨
      ∃ name ∈ part.mentions reading.taken, (reading.named name).outcome = .error failure := by
  -- what takes the place of an atom hides both its flaws and its mentions
  cases part with
  | empty =>
    rw [alternative] at h
    cases h
  | word nullable atom =>
    rw [alternative] at h
    obtain ⟨hFree, h⟩ := atom_error h
    rcases word_error h with ⟨hInexpressible, rfl⟩ | ⟨hKeyword, hNamed⟩
    · exact .inl ⟨(.unsupportedKeyword, atom),
        by simp [Alternative.flaws, hFree, hInexpressible], rfl⟩
    · exact .inr ⟨atom, by simp [Alternative.mentions, hFree, hKeyword], hNamed⟩
  | malformed nullable atom reason =>
    rw [alternative] at h
    obtain ⟨hFree, h⟩ := atom_error h
    exact .inl ⟨(reason, atom), by simp [Alternative.flaws, hFree], (Except.error.inj h).symm⟩
  | container nullable atom kind element =>
    rw [alternative] at h
    obtain ⟨hFree, h⟩ := atom_error h
    simp only [Alternative.flaws, Alternative.mentions, hFree, Bool.false_eq_true, if_false]
    exact alternatives_error (map_error h)

theorem alternatives_error {parts : List Alternative}
    (h : (reading.alternatives parts).outcome = .error failure) :
    (∃ flaw ∈ Descriptor.flaws reading.taken parts, failure = reading.faultOf flaw.1 flaw.2) ∨
      ∃ name ∈ Descriptor.mentions reading.taken parts,
        (reading.named name).outcome = .error failure := by
  cases parts with
  | nil =>
    rw [alternatives] at h
    cases h
  | cons first rest =>
    rw [alternatives] at h
    simp only [Descriptor.flaws, Descriptor.mentions, List.mem_append]
    -- conversion stops at the first alternative that fails
    rcases bind_error h with hFirst | ⟨type, -, h⟩
    · rcases alternative_error hFirst with ⟨flaw, hFlaw, hFault⟩ | ⟨name, hName, hNamed⟩
      · exact .inl ⟨flaw, .inl hFlaw, hFault⟩
      · exact .inr ⟨name, .inl hName, hNamed⟩
    · rcases bind_error h with hRest | ⟨types, -, h⟩
      · rcases alternatives_error hRest with ⟨flaw, hFlaw, hFault⟩ | ⟨name, hName, hNamed⟩
        · exact .inl ⟨flaw, .inr hFlaw, hFault⟩
        · exact .inr ⟨name, .inr hName, hNamed⟩
      · cases h

end

/-- A descriptor fails at one of its flaws or at a name that it mentions. -/
theorem convert_error {descriptor : Descriptor}
    (h : (reading.convert descriptor).outcome = .error failure) :
    (∃ flaw ∈ Descriptor.flaws reading.taken descriptor,
        failure = reading.faultOf flaw.1 flaw.2) ∨
      ∃ name ∈ Descriptor.mentions reading.taken descriptor,
        (reading.named name).outcome = .error failure :=
  alternatives_error (map_error h)

/-! ### Flaws are always met -/

mutual

theorem flaws_of_alternative_ok {part : Alternative} {type : TsType}
    (h : (reading.alternative part).outcome = .ok type) : part.flaws reading.taken = [] := by
  -- a flaw that nothing hides would have stopped the conversion
  cases part with
  | empty => rw [Alternative.flaws]
  | word nullable atom =>
    rw [alternative] at h
    rw [Alternative.flaws]
    split
    · rfl
    · rename_i hFlaw
      simp only [Bool.or_eq_true, decide_eq_true_eq, not_or, Bool.not_eq_true,
        Decidable.not_not] at hFlaw
      obtain ⟨type', hWord⟩ := atom_ok hFlaw.1 h
      rw [word_of_inexpressible hFlaw.2] at hWord
      cases hWord
  | malformed nullable atom reason =>
    rw [alternative] at h
    rw [Alternative.flaws]
    split
    · rfl
    · rename_i hFree
      obtain ⟨type', hFault⟩ := atom_ok (Bool.not_eq_true _ ▸ hFree) h
      cases hFault
  | container nullable atom kind element =>
    rw [alternative] at h
    rw [Alternative.flaws]
    split
    · rfl
    · rename_i hFree
      obtain ⟨type', hElement⟩ := atom_ok (Bool.not_eq_true _ ▸ hFree) h
      obtain ⟨types, hTypes, -⟩ := map_ok hElement
      exact flaws_of_alternatives_ok hTypes

theorem flaws_of_alternatives_ok {parts : List Alternative} {types : List TsType}
    (h : (reading.alternatives parts).outcome = .ok types) :
    Descriptor.flaws reading.taken parts = [] := by
  cases parts with
  | nil => rw [Descriptor.flaws]
  | cons first rest =>
    obtain ⟨type, others, -, hFirst, hRest⟩ := alternatives_cons_ok h
    rw [Descriptor.flaws, flaws_of_alternative_ok hFirst, flaws_of_alternatives_ok hRest,
      List.append_nil]

end

/-- A descriptor with a flaw gets no type, whatever class names mean. -/
theorem flaws_of_convert_ok {descriptor : Descriptor} {type : TsType}
    (h : (reading.convert descriptor).outcome = .ok type) :
    Descriptor.flaws reading.taken descriptor = [] := by
  obtain ⟨types, hTypes, -⟩ := map_ok h
  exact flaws_of_alternatives_ok hTypes

end Reading

/-! ## The text of a flaw -/

namespace Text

theorem trim_isInfix (text : List Char) : trim text <:+: text := by
  obtain ⟨before, after, hText, -⟩ := exists_trim text
  exact ⟨before, after, hText.symm⟩

/-- The text is cut from left to right, so the first piece is a prefix. -/
theorem pieces_isInfix (separator : Char) (depth : Nat) (text : List Char) :
    (pieces separator depth text).1 <+: text ∧
      ∀ piece ∈ (pieces separator depth text).2, piece <:+: text := by
  induction text generalizing depth with
  | nil => simp [pieces]
  | cons c rest ih =>
    by_cases hCut : cutsAt separator depth c = true
    · rw [pieces_cons_of_cut hCut]
      obtain ⟨hFirst, hMore⟩ := ih depth
      refine ⟨List.nil_prefix, fun piece hPiece => ?_⟩
      rcases List.mem_cons.mp hPiece with rfl | hPiece
      · exact hFirst.isInfix.trans (List.suffix_cons c rest).isInfix
      · exact (hMore piece hPiece).trans (List.suffix_cons c rest).isInfix
    · rw [pieces_cons_of_not_cut hCut]
      obtain ⟨hFirst, hMore⟩ := ih (depthAfter depth c)
      exact ⟨(List.prefix_cons_inj c).mpr hFirst, fun piece hPiece =>
        (hMore piece hPiece).trans (List.suffix_cons c rest).isInfix⟩

theorem isInfix_of_mem_parts {separator : Char} {text part : List Char}
    (h : part ∈ parts separator text) : part <:+: text := by
  obtain ⟨hFirst, hMore⟩ := pieces_isInfix separator 0 text
  simp only [parts, List.mem_filter, List.mem_map] at h
  obtain ⟨⟨piece, hPiece, rfl⟩, -⟩ := h
  refine (trim_isInfix piece).trans ?_
  rcases List.mem_cons.mp hPiece with rfl | hPiece
  · exact hFirst.isInfix
  · exact hMore piece hPiece

end Text

namespace Descriptor

open Text

theorem unmark_isInfix (part : List Char) : (unmark part).2 <:+: part := by
  unfold unmark
  split
  · exact (trim_isInfix _).trans (List.suffix_cons _ _).isInfix
  · exact List.infix_refl _

theorem unwrap_isInfix (text : List Char) : unwrap text <:+: text := by
  unfold unwrap
  split
  · split
    · exact (trim_isInfix _).trans
        ((List.dropLast_prefix _).isInfix.trans (List.suffix_cons _ _).isInfix)
    · exact List.infix_refl _
  · exact List.infix_refl _

theorem beforeBrackets?_isPrefix {atom inner : List Char} (h : beforeBrackets? atom = some inner) :
    inner <+: atom := by
  unfold beforeBrackets? at h
  split at h
  · rename_i rest hReverse
    obtain rfl := Option.some.inj h
    rw [← List.reverse_suffix, List.reverse_reverse, hReverse]
    exact (List.suffix_cons '[' rest).trans (List.suffix_cons ']' _)
  · cases h

theorem generic?_isInfix {atom name arguments : List Char}
    (h : generic? atom = some (name, arguments)) : arguments <:+: atom := by
  unfold generic? at h
  split at h
  · cases h
  · rename_i c rest hDrop
    dsimp only at h
    split at h
    · simp only [Option.some.injEq, Prod.mk.injEq] at h
      obtain ⟨-, rfl⟩ := h
      have hRest : rest <:+ atom :=
        (List.suffix_cons c rest).trans (hDrop ▸ List.dropWhile_suffix _)
      exact (List.dropLast_prefix rest).isInfix.trans hRest.isInfix
    · cases h

theorem singleArgument_isInfix {asked kind : ContainerKind} {arguments element : List Char}
    (h : singleArgument asked arguments = .container kind element) : element <:+: arguments := by
  unfold singleArgument at h
  split at h
  · rename_i part hParts
    obtain ⟨-, rfl⟩ := ArrayForm.container.inj h
    exact isInfix_of_mem_parts (by rw [hParts]; exact .head _)
  · cases h

theorem ofGeneric_isInfix {name arguments element : List Char} {kind : ContainerKind}
    (h : ofGeneric name arguments = .container kind element) : element <:+: arguments := by
  unfold ofGeneric at h
  split at h
  · exact singleArgument_isInfix h
  · exact singleArgument_isInfix h
  · -- the element of `array<K, V>` is its second argument
    unfold keyAndValue at h
    split at h
    · rename_i key value hParts
      split at h
      · obtain ⟨-, rfl⟩ := ArrayForm.container.inj h
        exact isInfix_of_mem_parts (by rw [hParts]; exact .tail _ (.head _))
      · cases h
    · cases h
  · cases h

/-- The element of a container stands in the atom it is read from. -/
theorem element_isInfix {atom element : List Char} {kind : ContainerKind}
    (h : arrayForm? atom = some (.container kind element)) : element <:+: atom := by
  -- every reader on the way to the element only cuts something off
  unfold arrayForm? at h
  split at h
  · rename_i inner hInner
    have h := Option.some.inj h
    split at h
    · cases h
    · obtain ⟨-, rfl⟩ := ArrayForm.container.inj h
      exact (unwrap_isInfix _).trans
        ((trim_isInfix inner).trans (beforeBrackets?_isPrefix hInner).isInfix)
  · split at h
    · rename_i name arguments hGeneric
      exact (ofGeneric_isInfix (Option.some.inj h)).trans (generic?_isInfix hGeneric)
    · split at h
      · cases h
      · cases h

theorem mem_flaws {taken : String → Bool} {parts : List Alternative} {flaw : Reason × String} :
    flaw ∈ flaws taken parts ↔ ∃ part ∈ parts, flaw ∈ part.flaws taken := by
  induction parts with
  | nil => simp [flaws]
  | cons first rest ih => simp [flaws, ih]

/-- The text of a flaw stands in the descriptor. -/
theorem flaws_isInfix {taken : String → Bool} (text : List Char) :
    ∀ flaw ∈ flaws taken (parse text), flaw.2.toList <:+: text := by
  -- a flaw of a container is one of its element, and that is a shorter text
  induction hLength : text.length using Nat.strong_induction_on generalizing text with
  | _ length ih =>
    subst hLength
    intro flaw hFlaw
    rw [parse_eq_map] at hFlaw
    obtain ⟨alternative, hAlternative, hFlaw⟩ := mem_flaws.mp hFlaw
    obtain ⟨part, hPart, rfl⟩ := List.mem_map.mp hAlternative
    have hAtom : (unmark part).2 <:+: text :=
      (unmark_isInfix part).trans (isInfix_of_mem_parts hPart)
    unfold alternativeOf at hFlaw
    split at hFlaw
    · simp [Alternative.flaws] at hFlaw
    · split at hFlaw
      · rw [Alternative.flaws] at hFlaw
        split at hFlaw
        · cases hFlaw
        · obtain rfl := List.mem_singleton.mp hFlaw
          rw [String.toList_ofList]
          exact hAtom
      · rw [Alternative.flaws] at hFlaw
        split at hFlaw
        · cases hFlaw
        · obtain rfl := List.mem_singleton.mp hFlaw
          rw [String.toList_ofList]
          exact hAtom
      · rename_i kind element hForm
        rw [Alternative.flaws] at hFlaw
        split at hFlaw
        · cases hFlaw
        · have hShorter : element.length < text.length :=
            Nat.lt_of_lt_of_le (length_element_lt hForm) hAtom.length_le
          have hElement := ih element.length hShorter element rfl flaw hFlaw
          exact hElement.trans ((element_isInfix hForm).trans hAtom)

end Descriptor

/-! ## Faults of properties -/

namespace Descriptor

theorem exists_substituteRun (self parent : String) (run : Run) :
    ∃ text, substituteRun self (some parent) run = some text := by
  cases run with
  | mark c => exact ⟨[c], rfl⟩
  | word text =>
    rw [substituteRun, substituteWord]
    split
    · exact ⟨_, rfl⟩
    · exact ⟨_, rfl⟩
    · exact ⟨_, rfl⟩
    · exact ⟨_, rfl⟩

/-- Only where there is no parent something cannot be put in the place of a word. -/
theorem parent_of_substitute?_eq_none {self : String} {parent : Option String} {text : List Char}
    (h : substitute? self parent text = none) : parent = none := by
  cases parent with
  | none => rfl
  | some parent =>
    -- with a parent there is something for every run
    have hRuns : ∀ items : List Run, ∃ texts,
        items.mapM (substituteRun self (some parent)) = some texts := by
      intro items
      induction items with
      | nil => exact ⟨[], rfl⟩
      | cons first rest ih =>
        obtain ⟨text, hFirst⟩ := exists_substituteRun self parent first
        obtain ⟨texts, hRest⟩ := ih
        exact ⟨text :: texts, by rw [List.mapM_cons, hFirst, hRest]; rfl⟩
    obtain ⟨texts, hTexts⟩ := hRuns (runs text)
    rw [substitute?, hTexts] at h
    cases h

/-- A descriptor that cannot be resolved is quoted as it stands. -/
theorem resolve_error {property : Property} {owner : Class} {fault : Fault}
    (h : resolve property owner = .error fault) :
    owner.parent = none ∧ fault =
      { reason := .noParent
        text := String.ofList (choose property.declared property.documented)
        location := some (Scope.location ⟨property, owner⟩) } := by
  unfold resolve at h
  dsimp only at h
  split at h
  · cases h
  · rename_i hNone
    exact ⟨parent_of_substitute?_eq_none hNone, (Except.error.inj h).symm⟩

end Descriptor

/-- The faults of a property that lie in its own descriptor, in order: those that it has whatever
class names mean. -/
def Property.faults (replacements : Replacements) (owner : Class) (property : Property) :
    List Fault :=
  match Descriptor.resolve property owner with
  | .ok text =>
    (Descriptor.flaws (overrides (some ⟨property, owner⟩) replacements)
      (Descriptor.parse text)).map fun flaw =>
        { reason := flaw.1, text := flaw.2, location := some (Scope.location ⟨property, owner⟩) }
  | .error fault => [fault]

section Properties

open Conversion

variable {replacements : Replacements} {named : Bool → String → Conversion TsType} {owner : Class}
  {property : Property} {failure : Failure} {fault : Fault}

/-- A property fails with a fault of its own or with a name that it mentions. -/
theorem convertProperty_error
    (h : (convertProperty replacements named owner property).outcome = .error failure) :
    (∃ fault ∈ property.faults replacements owner, failure = .unresolved fault) ∨
      ∃ name ∈ property.mentions replacements owner,
        (named property.isInline name).outcome = .error failure := by
  cases hResolve : Descriptor.resolve property owner with
  | error fault =>
    rw [convertProperty_of_error hResolve] at h
    refine .inl ⟨fault, ?_, (Except.error.inj h).symm⟩
    rw [Property.faults, hResolve]
    exact .head _
  | ok text =>
    rw [convertProperty_of_ok hResolve] at h
    simp only [Property.faults, Property.mentions, hResolve]
    rcases Reading.convert_error h with ⟨flaw, hFlaw, rfl⟩ | hNamed
    · exact .inl ⟨_, List.mem_map_of_mem hFlaw, rfl⟩
    · exact .inr hNamed

/-- A property with a fault of its own has no type, whatever class names mean. -/
theorem not_ok_of_mem_faults (hFault : fault ∈ property.faults replacements owner)
    (named : Bool → String → Conversion TsType) (type : TsType) :
    (convertProperty replacements named owner property).outcome ≠ .ok type := by
  intro hOk
  cases hResolve : Descriptor.resolve property owner with
  | error fault =>
    rw [convertProperty_of_error hResolve] at hOk
    cases hOk
  | ok text =>
    rw [convertProperty_of_ok hResolve] at hOk
    rw [Property.faults, hResolve] at hFault
    obtain ⟨flaw, hFlaw, -⟩ := List.mem_map.mp hFault
    have hNone := Reading.flaws_of_convert_ok hOk
    exact List.not_mem_nil (hNone ▸ hFlaw)

/-- A fault of a property carries the place of the property. -/
theorem location_of_mem_faults (hFault : fault ∈ property.faults replacements owner) :
    fault.location = some (Scope.location ⟨property, owner⟩) := by
  unfold Property.faults at hFault
  split at hFault
  · obtain ⟨flaw, -, rfl⟩ := List.mem_map.mp hFault
    rfl
  · rename_i fault' hResolve
    obtain rfl := List.mem_singleton.mp hFault
    rw [(Descriptor.resolve_error hResolve).2]

/-- A fault of a property quotes a part of the resolved descriptor, or all of a descriptor that
cannot be resolved. -/
theorem text_of_mem_faults (hFault : fault ∈ property.faults replacements owner) :
    (∃ text, Descriptor.resolve property owner = .ok text ∧ fault.text.toList <:+: text) ∨
      (Descriptor.resolve property owner = .error fault ∧ fault.reason = .noParent ∧
        owner.parent = none ∧
        fault.text.toList = Descriptor.choose property.declared property.documented) := by
  unfold Property.faults at hFault
  split at hFault
  · rename_i text hResolve
    obtain ⟨flaw, hFlaw, rfl⟩ := List.mem_map.mp hFault
    exact .inl ⟨text, hResolve, Descriptor.flaws_isInfix text flaw hFlaw⟩
  · rename_i fault' hResolve
    obtain rfl := List.mem_singleton.mp hFault
    obtain ⟨hParent, hText⟩ := Descriptor.resolve_error hResolve
    refine .inr ⟨hResolve, ?_, hParent, ?_⟩
    · rw [hText]
    · rw [hText, String.toList_ofList]

end Properties

end Ambient
