import Ambient.Expansion
import Ambient.Proofs.Conversion

/-!
# Bounds on inline expansion

What a class name can ask for, how it can fail and what it can give, whatever is being expanded
around it.  `meets_named` is the induction over nested expansions, done once for all bounds that the
parts of a type hand on, and `declare_meets` is what it says of the declaration of a class.
-/

namespace Ambient

theorem TsType.compositional_references :
    TsType.Compositional fun names type => type.references ⊆ names where
  mono hSub hType := List.Subset.trans hType hSub
  scalar _ := List.nil_subset _
  raw _ := List.nil_subset _
  union hMembers := by
    intro name hName
    obtain ⟨type, hType, hName⟩ := TsType.mem_referencesOfMembers.mp hName
    exact hMembers type hType hName
  container _ hType := hType
  inlineEnum _ := List.nil_subset _
  inlineRecord hProperties := by
    intro name hName
    obtain ⟨entry, hEntry, hName⟩ := TsType.mem_referencesOfProperties.mp hName
    exact hProperties entry hEntry hName

namespace World

open Conversion

section Bounds

variable {world : World} {asks : String → Prop} {fails : Failure → Prop}
  {gives : List String → TsType → Prop}

/-- A bound that the parts of a type hand on is met by every class name, if references meet it and
endless expansions either meet it or cannot happen. -/
theorem meets_named (hComp : TsType.Compositional gives)
    (hAsk : ∀ name, (Table.find? world.registry name).isSome → asks name)
    (hReference : ∀ name, asks name → gives [name] (.reference name))
    (hFault : ∀ fault, fails (.unresolved fault))
    (hEndless : fails .endless ∨ world.registry.Keyed)
    (path entered : List String) (inPlace : Bool) (name : String) :
    (world.named path entered inPlace name).Meets asks fails gives := by
  -- the two cases that enter a class differ in the surroundings only, which the bound does not see
  induction path, entered, inPlace, name using World.named.induct world with
  | case1 path entered inPlace name found =>
    rw [named_unknown found]
    exact meets_pure (hComp.scalar _)
  | case2 path entered inPlace name c found refers =>
    rw [named_refers found refers]
    have hName := hAsk name (by rw [found]; rfl)
    exact meets_ask hName (hReference name hName)
  | case3 path entered inPlace name c found expands cases shape =>
    rw [named_enumeration found expands shape]
    exact meets_pure (hComp.inlineEnum _)
  | case4 path entered inPlace name c found expands properties shape new ih =>
    rw [named_enters found expands shape new]
    exact meets_inlineRecord hComp hFault fun property _ name _ => ih property.isInline name
  | case5 path entered inPlace name c found expands properties shape old new ih =>
    rw [named_reenters found expands shape (Decidable.of_not_not old) new]
    exact meets_inlineRecord hComp hFault fun property _ name _ => ih property.isInline name
  | case6 path entered inPlace name c found expands properties shape old again =>
    rw [named_endless found expands shape (Decidable.of_not_not old) (Decidable.of_not_not again)]
    refine meets_fail (hEndless.resolve_right fun hKeyed => ?_)
    -- under its own name a class whose expansion is under way is referred to
    have hName : c.name = name := hKeyed.name_eq found
    exact (expands_iff.mp expands).2 (hName ▸ Decidable.of_not_not old)

/-- What is said of class names holds of whole declarations, with the types of their properties in
the place of the type. -/
theorem meets_declare (hComp : TsType.Compositional gives)
    (hAsk : ∀ name, (Table.find? world.registry name).isSome → asks name)
    (hReference : ∀ name, asks name → gives [name] (.reference name))
    (hFault : ∀ fault, fails (.unresolved fault))
    (hEndless : fails .endless ∨ world.registry.Keyed) (c : Class) :
    (world.declare c).Meets asks fails fun names declaration =>
      declaration.name = c.shortName ∧ declaration.isEnumeration = c.isEnumeration ∧
        gives names (.inlineRecord declaration.properties) := by
  cases hShape : c.shape with
  | enumeration cases =>
    rw [declare_enumeration hShape]
    refine meets_pure ⟨rfl, ?_, hComp.inlineRecord fun _ hEntry => by cases hEntry⟩
    simp [Declaration.isEnumeration, Class.isEnumeration, hShape]
  | record properties =>
    rw [declare_record hShape]
    -- a declared record is converted with no expansion under way
    refine (meets_convertProperties hComp.toHereditary hFault fun property _ name _ =>
      meets_named hComp hAsk hReference hFault hEndless [] [] property.isInline name).map
        fun names table hTable => ⟨rfl, ?_, hComp.inlineRecord hTable⟩
    simp [Declaration.isEnumeration, Class.isEnumeration, hShape]

end Bounds

/-- In a keyed registry the declaration of a class asks for known classes only, fails only on a
descriptor without a type, has the name and the kind of its class, and refers to nothing that it
did not ask for. -/
theorem declare_meets {world : World} (hKeyed : world.registry.Keyed) (c : Class) :
    (world.declare c).Meets (fun name => (Table.find? world.registry name).isSome)
      (fun failure => ∃ fault, failure = .unresolved fault)
      fun names declaration => declaration.name = c.shortName ∧
        declaration.isEnumeration = c.isEnumeration ∧ declaration.references ⊆ names :=
  meets_declare TsType.compositional_references (fun _ hKnown => hKnown)
    (fun _ _ => List.Subset.refl _) (fun fault => ⟨fault, rfl⟩) (.inr hKeyed) c

end World

end Ambient
