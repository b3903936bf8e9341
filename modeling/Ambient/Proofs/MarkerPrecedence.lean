import Ambient.Proofs.Context
import Ambient.Proofs.Markers

/-!
# Markers come before everything else

A literal or a template is put in the place of an atom before the atom is looked at.  Whatever else
an atom could mean is then out of reach: replacements, array forms with or without a meaning,
keywords with or without a type, and the classes that there are.  Of a part of the descriptor
nothing is seen but its `PartForm`.

* `alternatives_of_marked`: the steps for a descriptor give one type for each part and do not touch
  the context, whatever class names mean.
* `marked_overrides`: so in any two contexts the conversion succeeds with the same type, leaves the
  context as it is, and tells two descriptors apart only by the forms of their parts.
-/

namespace Ambient

open Text Descriptor

/-- What is seen of a part of a descriptor when a marker stands for its atom. -/
inductive PartForm
  /-- A `?` with nothing after it. -/
  | empty
  /-- A `?` with an atom after it. -/
  | nullable
  /-- An atom alone. -/
  | plain
  deriving DecidableEq, Repr

namespace PartForm

def of (part : List Char) : PartForm :=
  match part with
  | '?' :: rest => if trim rest = [] then .empty else .nullable
  | _ => .plain

/-- The forms of the parts of a descriptor, in order. -/
def all (text : String) : List PartForm :=
  (parts '|' text.toList).map of

/-- The type of a part whose atom is this marker. -/
def type (marker : String) : PartForm → TsType
  | empty => .unknown
  | nullable => .union [.raw marker, .null]
  | plain => .raw marker

/-- A part with a text in the place of its atom has the type of its form. -/
theorem standIn_eq {part : List Char} (hSome : part ≠ []) (marker : String) :
    (alternativeOf part).standIn (.raw marker) = (of part).type marker := by
  rw [Reading.standIn_alternativeOf]
  -- a mark with nothing behind it is unknown, otherwise what is marked becomes nullable
  by_cases hMark : part.head? = some '?'
  · obtain ⟨rest, rfl⟩ := List.head?_eq_some_iff.mp hMark
    rw [unmark_mark, of]
    by_cases hRest : trim rest = []
    · rw [if_pos hRest, hRest]
      rfl
    · rw [if_neg hRest, if_neg (by simpa using hRest)]
      rfl
  · have hForm : of part = .plain := by
      unfold of
      split
      · exact absurd rfl hMark
      · rfl
    rw [unmark_of_ne hMark, hForm, if_neg (by simpa using hSome)]
    rfl

/-- The parts of a descriptor are never blank, so their forms say what they become. -/
theorem standIn_parse (text : String) (marker : String) :
    (parse text.toList).map (Alternative.standIn (.raw marker)) =
      (all text).map (type marker) := by
  rw [parse_eq_map, all, List.map_map, List.map_map]
  refine List.map_congr_left fun part hPart => standIn_eq ?_ marker
  rw [parts_eq] at hPart
  simpa using (List.mem_filter.mp hPart).2

end PartForm

namespace Action

variable {scope : Option Scope} {type : TsType}

theorem override?_of_marked (hMarker : Reading.marked? scope = some type)
    (replacements : Replacements) (atom : String) :
    override? scope replacements atom = some type := by
  rw [override?, hMarker]

/-- Where a marker stands for the atoms, a part becomes the marker and nothing else happens. -/
theorem alternative_of_marked (hMarker : Reading.marked? scope = some type)
    (replacements : Replacements) (named : String → Action TsType) (part : Alternative) :
    alternative scope replacements named part = pure (part.standIn type) := by
  cases part with
  | empty => rw [alternative]; rfl
  | word nullable atom => rw [alternative, override?_of_marked hMarker]; rfl
  | malformed nullable atom reason => rw [alternative, override?_of_marked hMarker]; rfl
  | container nullable atom kind element => rw [alternative, override?_of_marked hMarker]; rfl

theorem alternatives_of_marked (hMarker : Reading.marked? scope = some type)
    (replacements : Replacements) (named : String → Action TsType) (parts : List Alternative) :
    alternatives scope replacements named parts =
      pure (parts.map (Alternative.standIn type)) := by
  induction parts with
  | nil => rw [alternatives]; rfl
  | cons first rest ih =>
    rw [alternatives, alternative_of_marked hMarker, pure_bind, ih, pure_bind]
    rfl

end Action

/-- The text that a marker puts in the place of every atom: that of the first literal, or else that
of the first template. -/
def Property.fixed? (property : Property) : Option String :=
  match property.literal? with
  | some value => some (Spelling.literal value)
  | none => property.template?.map Spelling.template

namespace World

theorem marked?_eq_fixed? (property : Property) (owner : Class) :
    Reading.marked? (some ⟨property, owner⟩) = property.fixed?.map .raw := by
  unfold Reading.marked? Property.fixed?
  simp only [Option.bind_some]
  cases property.literal? with
  | some value => rfl
  | none => cases property.template? <;> rfl

/-- A property with a literal, or with a template and no literal, has a type for every descriptor,
whatever its class, whatever the replacements are and whatever class names mean.  The type is made
of the text of the marker and the forms of the parts alone, and the context, with its queue and its
stack, stays as it is.  In particular this holds of conversions in any two worlds. -/
theorem marked_overrides (property : Property)
    (hMarked : ∃ marker ∈ property.markers, marker ≠ .inline) :
    ∃ marker, property.fixed? = some marker ∧
      (∀ owner replacements (named : String → Action TsType) (text : String) context,
        (Action.descriptor (some ⟨property, owner⟩) replacements named text.toList).on context =
          (.ok (.ofAlternatives ((PartForm.all text).map (PartForm.type marker))), context)) ∧
      ∀ (world world' : World) depth depth' owner (text text' : String) context context',
        PartForm.all text = PartForm.all text' →
          ∃ type,
            (Action.convert world depth (some ⟨property, owner⟩) text).on context =
              (.ok type, context) ∧
            (Action.convert world' depth' (some ⟨property, owner⟩) text').on context' =
              (.ok type, context') := by
  -- the marker is the same for all classes
  obtain ⟨marker, hFixed⟩ : ∃ marker, property.fixed? = some marker := by
    obtain ⟨text, hText, -⟩ := marked?_of_mem hMarked default
    rw [marked?_eq_fixed?] at hText
    obtain ⟨marker, hMarker, -⟩ := Option.map_eq_some_iff.mp hText
    exact ⟨marker, hMarker⟩
  have hAny : ∀ owner replacements (named : String → Action TsType) (text : String) context,
      (Action.descriptor (some ⟨property, owner⟩) replacements named text.toList).on context =
        (.ok (.ofAlternatives ((PartForm.all text).map (PartForm.type marker))), context) := by
    intro owner replacements named text context
    have hMarker : Reading.marked? (some ⟨property, owner⟩) = some (.raw marker) := by
      rw [marked?_eq_fixed?, hFixed]
      rfl
    rw [Action.descriptor, Action.alternatives_of_marked hMarker, PartForm.standIn_parse, map_pure]
    rfl
  refine ⟨marker, hFixed, hAny, ?_⟩
  intro world world' depth depth' owner text text' context context' hForms
  refine ⟨_, hAny owner world.replacements _ text context, ?_⟩
  rw [hForms]
  exact hAny owner world'.replacements _ text' context'

/-- A literal is taken before a template, and neither a keyword without a type nor an array form
without a meaning comes to light. -/
def sealed : Property where
  name := "sealed"
  markers := [.inline, .template "no-{number}", .literal (.text "none")]

/-- A world without classes, in which a keyword is replaced. -/
def classless : World where
  registry := []
  replacements := [("string", "Text")]

theorem sealed_overrides :
    (∃ marker ∈ sealed.markers, marker ≠ .inline) ∧
    PartForm.all "? | ?void|list<>" = PartForm.all "?|?string|app::Child" ∧
    ∃ type,
      (Action.convert household 1 (some ⟨sealed, sibling⟩) "? | ?void|list<>").on
        ⟨.ofNames ["app::Child"], ["app::Child"]⟩ =
          (.ok type, ⟨.ofNames ["app::Child"], ["app::Child"]⟩) ∧
      (Action.convert classless 0 (some ⟨sealed, sibling⟩) "?|?string|app::Child").on
        ⟨.empty, []⟩ = (.ok type, ⟨.empty, []⟩) := by
  have hMarked : ∃ marker ∈ sealed.markers, marker ≠ .inline :=
    ⟨.literal (.text "none"), by decide⟩
  have hForms : PartForm.all "? | ?void|list<>" = PartForm.all "?|?string|app::Child" := by
    decide +kernel
  obtain ⟨marker, -, -, hTwo⟩ := marked_overrides sealed hMarked
  exact ⟨hMarked, hForms, hTwo household classless 1 0 sibling _ _ _ _ hForms⟩

end World

end Ambient
