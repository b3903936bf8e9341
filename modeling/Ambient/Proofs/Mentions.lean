import Ambient.Proofs.Expansion

/-!
# Only what is mentioned counts

A conversion looks up no names but those that its descriptor mentions.  So what the other names mean
makes no difference, neither to the type nor to the names asked for nor to a failure
(`convertProperties_congr`).

`World.Within` follows the mentions from one class to the next: it tells which classes have their
properties converted for one declaration, and in what surroundings.
-/

namespace Ambient

namespace Reading

variable {reading : Reading} {named : String → Conversion TsType}

theorem word_congr {atom : String}
    (hNamed : isKeyword atom = false → reading.named atom = named atom) :
    reading.word atom = word { reading with named := named } atom := by
  unfold word
  cases hKeyword : keyword? atom with
  | some keyword => rfl
  | none =>
    by_cases hInexpressible : atom ∈ inexpressible
    · simp only [if_pos hInexpressible]
      rfl
    · simp only [if_neg hInexpressible]
      exact hNamed (by simp [isKeyword, hKeyword, hInexpressible])

/-- An atom that has a meaning of its own hides what stands for it otherwise. -/
theorem atom_congr {nullable : Bool} {atom : String} {first second : Conversion TsType}
    (h : reading.taken atom = false → first = second) :
    (nullableIf nullable <$>
      match reading.override? atom with
      | some type => pure type
      | none => first : Conversion TsType) =
    (nullableIf nullable <$>
      match reading.override? atom with
      | some type => pure type
      | none => second : Conversion TsType) := by
  cases hOverride : reading.override? atom with
  | some type => rfl
  | none => rw [h (override?_eq_none.mp hOverride)]

mutual

theorem alternative_congr (part : Alternative)
    (hNamed : ∀ name ∈ part.mentions reading.taken, reading.named name = named name) :
    reading.alternative part = Reading.alternative { reading with named := named } part := by
  cases part with
  | empty => rw [alternative, alternative]
  | word nullable atom =>
    rw [alternative, alternative]
    refine atom_congr fun hFree => word_congr fun hKeyword => hNamed atom ?_
    simp [Alternative.mentions, hFree, hKeyword]
  | malformed nullable atom reason =>
    rw [alternative, alternative]
    rfl
  | container nullable atom kind element =>
    rw [alternative, alternative]
    refine atom_congr fun hFree => congrArg _ (alternatives_congr element fun name hName => ?_)
    exact hNamed name (by simpa [Alternative.mentions, hFree] using hName)

theorem alternatives_congr (parts : List Alternative)
    (hNamed : ∀ name ∈ Descriptor.mentions reading.taken parts,
      reading.named name = named name) :
    reading.alternatives parts = Reading.alternatives { reading with named := named } parts := by
  cases parts with
  | nil => rw [alternatives, alternatives]
  | cons first rest =>
    rw [alternatives, alternatives]
    have hFirst := alternative_congr first fun name hName =>
      hNamed name (by rw [Descriptor.mentions]; exact List.mem_append_left _ hName)
    have hRest := alternatives_congr rest fun name hName =>
      hNamed name (by rw [Descriptor.mentions]; exact List.mem_append_right _ hName)
    rw [hFirst, hRest]

end

/-- The names that a descriptor does not mention make no difference to it. -/
theorem convert_congr {descriptor : Descriptor}
    (hNamed : ∀ name ∈ Descriptor.mentions reading.taken descriptor,
      reading.named name = named name) :
    reading.convert descriptor = Reading.convert { reading with named := named } descriptor :=
  congrArg _ (alternatives_congr descriptor hNamed)

end Reading

section Properties

variable {replacements : Replacements} {named named' : Bool → String → Conversion TsType}
  {owner : Class}

theorem convertProperty_congr {property : Property}
    (hNamed : ∀ name ∈ property.mentions replacements owner,
      named property.isInline name = named' property.isInline name) :
    convertProperty replacements named owner property =
      convertProperty replacements named' owner property := by
  cases hResolve : Descriptor.resolve property owner with
  | error fault => rw [convertProperty_of_error hResolve, convertProperty_of_error hResolve]
  | ok text =>
    rw [convertProperty_of_ok hResolve, convertProperty_of_ok hResolve]
    refine Reading.convert_congr fun name hName => hNamed name ?_
    rw [Property.mentions, hResolve]
    exact hName

theorem mapM_congr {α β : Type} {convert convert' : α → Conversion β} {items : List α}
    (h : ∀ item ∈ items, convert item = convert' item) :
    items.mapM convert = items.mapM convert' := by
  induction items with
  | nil => rfl
  | cons first rest ih =>
    rw [List.mapM_cons, List.mapM_cons, h first (.head _),
      ih fun item hItem => h item (.tail _ hItem)]

/-- The names that the properties of a class do not mention make no difference to them. -/
theorem convertProperties_congr {properties : List Property}
    (hNamed : ∀ property ∈ properties, ∀ name ∈ property.mentions replacements owner,
      named property.isInline name = named' property.isInline name) :
    convertProperties replacements named owner properties =
      convertProperties replacements named' owner properties := by
  unfold convertProperties
  rw [mapM_congr fun property hProperty => by
    rw [convertProperty_congr (hNamed property hProperty)]]

end Properties

namespace World

/-- The classes whose properties are converted for the declaration of `root`: `root` itself, and
those that are expanded in place for it, at any depth.  `path` has the names of the expansions under
way, innermost first; the declaration is none of them. -/
inductive Within (world : World) (root : Class) : List String → Class → Prop
  | root : Within world root [] root
  | inner {path : List String} {outer c : Class} {properties : List Property}
      {property : Property} {name : String} (hOuter : Within world root path outer)
      (hShape : outer.shape = .record properties) (hProperty : property ∈ properties)
      (hInline : property.isInline = true)
      (hMention : name ∈ property.mentions world.replacements outer)
      (hFound : Table.find? world.registry name = some c) (hNew : name ∉ path) :
      Within world root (c.name :: path) c

end World

end Ambient
