import Ambient.Proofs.Closure
import Ambient.Proofs.Mentions
import Ambient.Proofs.Termination

/-!
# Replaced names

A replacement is looked for before an atom is read in any other way.  A name that has one is
therefore no mention of a class, wherever it stands: in a union, a container, a record expanded in
place, or in the place of a pseudo-type.

* `asks_named`: nothing that a class name leads to asks for a replaced name, so a run reaches
  replaced names through its seeds only.
* `Within.not_replaced`: no class with a replaced name is expanded in place.
* `declare_eq_of_agree`: what is found under a replaced name makes no difference to any
  declaration.  It may be another class, one that cannot be converted, or none.
-/

namespace Ambient

/-! ## Mentions -/

-- The recursion is that of the mentions: an atom with another meaning mentions nothing.
mutual

theorem Alternative.free_of_mem_mentions {taken : String → Bool} {part : Alternative}
    {name : String} (h : name ∈ part.mentions taken) : taken name = false := by
  -- a replaced atom mentions nothing, neither itself nor what it contains
  cases part with
  | empty => simp [Alternative.mentions] at h
  | word nullable atom =>
    rw [Alternative.mentions] at h
    split at h
    · cases h
    · rename_i hFree
      obtain rfl := List.mem_singleton.mp h
      simp only [Bool.or_eq_true, not_or, Bool.not_eq_true] at hFree
      exact hFree.1
  | malformed nullable atom reason => simp [Alternative.mentions] at h
  | container nullable atom kind element =>
    rw [Alternative.mentions] at h
    split at h
    · cases h
    · exact Descriptor.free_of_mem_mentions h

theorem Descriptor.free_of_mem_mentions {taken : String → Bool} {parts : List Alternative}
    {name : String} (h : name ∈ Descriptor.mentions taken parts) : taken name = false := by
  cases parts with
  | nil => simp [Descriptor.mentions] at h
  | cons first rest =>
    rw [Descriptor.mentions] at h
    rcases List.mem_append.mp h with h | h
    · exact Alternative.free_of_mem_mentions h
    · exact Descriptor.free_of_mem_mentions h

end

/-- A property mentions no name that has a replacement. -/
theorem Property.not_replaced_of_mem_mentions {replacements : Replacements} {owner : Class}
    {property : Property} {name : String} (h : name ∈ property.mentions replacements owner) :
    Table.find? replacements name = none := by
  unfold Property.mentions at h
  split at h
  · have hFree := Descriptor.free_of_mem_mentions h
    simp only [overrides, Bool.or_eq_false_iff] at hFree
    simpa using hFree.2
  · cases h

namespace World

open Conversion

variable {world : World}

/-! ## What is asked for -/

/-- A name without a replacement leads to no name that has one. -/
theorem asks_named (path entered : List String) (inPlace : Bool) (name : String)
    (hFree : Table.find? world.replacements name = none) :
    (world.named path entered inPlace name).Meets
      (fun other => Table.find? world.replacements other = none) (fun _ => True)
      fun _ _ => True := by
  -- below an expansion all names are mentioned, so they have no replacement either
  induction path, entered, inPlace, name using World.named.induct world with
  | case1 path entered inPlace name found =>
    rw [named_unknown found]
    exact meets_pure trivial
  | case2 path entered inPlace name c found refers =>
    rw [named_refers found refers]
    exact meets_ask hFree trivial
  | case3 path entered inPlace name c found expands cases shape =>
    rw [named_enumeration found expands shape]
    exact meets_pure trivial
  | case4 path entered inPlace name c found expands properties shape new ih =>
    rw [named_enters found expands shape new]
    exact meets_inlineRecord compositional_true (fun _ => trivial) fun property _ other hOther =>
      ih property.isInline other (Property.not_replaced_of_mem_mentions hOther)
  | case5 path entered inPlace name c found expands properties shape old new ih =>
    rw [named_reenters found expands shape (Decidable.of_not_not old) new]
    exact meets_inlineRecord compositional_true (fun _ => trivial) fun property _ other hOther =>
      ih property.isInline other (Property.not_replaced_of_mem_mentions hOther)
  | case6 path entered inPlace name c found expands properties shape old again =>
    rw [named_endless found expands shape (Decidable.of_not_not old) (Decidable.of_not_not again)]
    exact meets_fail trivial

/-- The declaration of a class asks for no replaced name. -/
theorem not_replaced_of_mem_asks {c : Class} :
    ∀ name ∈ (world.declare c).asks, Table.find? world.replacements name = none := by
  cases hShape : c.shape with
  | enumeration cases =>
    rw [declare_enumeration hShape]
    intro name hName
    cases hName
  | record properties =>
    rw [declare_record hShape, asks_map]
    intro name hName
    have hMeets : (world.properties c properties).Meets
        (fun other => Table.find? world.replacements other = none) (fun _ => True)
        fun _ table => ∀ entry ∈ table, True :=
      meets_convertProperties compositional_true.toHereditary (fun _ => trivial)
        fun property _ other hOther => asks_named [] [] property.isInline other
          (Property.not_replaced_of_mem_mentions hOther)
    exact hMeets.asks name hName

/-- A run expands a replaced name only if it starts from it. -/
theorem Run.seed_of_replaced {seeds : List String} {expanded : Table Declaration}
    (hRun : world.Run (.ofNames seeds) expanded) {name : String} (hName : name ∈ expanded.names)
    (hReplaced : (Table.find? world.replacements name).isSome) : name ∈ seeds := by
  rcases hRun.breadthFirst.mem_iff.mp hName with hSeed | ⟨other, hOther, hAsked⟩
  · exact hSeed
  · -- the class that asks for it has been declared
    obtain ⟨entry, hEntry, rfl⟩ := List.mem_map.mp hOther
    obtain ⟨c, hFound, hDeclared⟩ := hRun.declared entry hEntry
    rw [← asks_declare hFound hDeclared] at hAsked
    rw [not_replaced_of_mem_asks name hAsked] at hReplaced
    cases hReplaced

/-! ## What is expanded in place -/

/-- No class with a replaced name is among the expansions under way. -/
theorem Within.not_replaced (hKeyed : world.registry.Keyed) {root c : Class} {path : List String}
    (h : world.Within root path c) : ∀ name ∈ path, Table.find? world.replacements name = none := by
  induction h with
  | root => simp
  | inner hOuter hShape hProperty hInline hMention hFound hNew ih =>
    intro name hName
    rcases List.mem_cons.mp hName with rfl | hName
    · -- the class has the name that the property around it mentions
      rw [hKeyed.name_eq hFound]
      exact Property.not_replaced_of_mem_mentions hMention
    · exact ih name hName

/-! ## What makes no difference -/

section Agree

variable {registry : Registry} (hAgree : ∀ name, Table.find? world.replacements name = none →
  Table.find? registry name = Table.find? world.registry name)
include hAgree

/-- A name without a replacement means the same, whatever is found under replaced names. -/
theorem named_eq_of_agree (path entered : List String) (inPlace : Bool) (name : String)
    (hFree : Table.find? world.replacements name = none) :
    World.named { world with registry := registry } path entered inPlace name =
      world.named path entered inPlace name := by
  have hFind := hAgree name hFree
  -- both sides enter the same class, and the names that it mentions have no replacement
  induction path, entered, inPlace, name using World.named.induct world with
  | case1 path entered inPlace name found =>
    rw [named_unknown found, named_unknown (hFind.trans found)]
  | case2 path entered inPlace name c found refers =>
    rw [named_refers found refers, named_refers (hFind.trans found) refers]
  | case3 path entered inPlace name c found expands cases shape =>
    rw [named_enumeration found expands shape,
      named_enumeration (hFind.trans found) expands shape]
  | case4 path entered inPlace name c found expands properties shape new ih =>
    rw [named_enters found expands shape new, named_enters (hFind.trans found) expands shape new]
    refine congrArg _ (convertProperties_congr fun property _ other hOther => ?_)
    have hOther := Property.not_replaced_of_mem_mentions hOther
    exact ih property.isInline other hOther (hAgree other hOther)
  | case5 path entered inPlace name c found expands properties shape old new ih =>
    have hOld : c.name ∈ path := Decidable.of_not_not old
    rw [named_reenters found expands shape hOld new,
      named_reenters (hFind.trans found) expands shape hOld new]
    refine congrArg _ (convertProperties_congr fun property _ other hOther => ?_)
    have hOther := Property.not_replaced_of_mem_mentions hOther
    exact ih property.isInline other hOther (hAgree other hOther)
  | case6 path entered inPlace name c found expands properties shape old again =>
    have hOld : c.name ∈ path := Decidable.of_not_not old
    have hAgain : name ∈ entered := Decidable.of_not_not again
    rw [named_endless found expands shape hOld hAgain,
      named_endless (hFind.trans found) expands shape hOld hAgain]

/-- The declaration of a class is the same, whatever is found under replaced names. -/
theorem declare_eq_of_agree (c : Class) :
    World.declare { world with registry := registry } c = world.declare c := by
  cases hShape : c.shape with
  | enumeration cases => rw [declare_enumeration hShape, declare_enumeration hShape]
  | record properties =>
    rw [declare_record hShape, declare_record hShape]
    refine congrArg _ (convertProperties_congr fun property _ name hName => ?_)
    exact named_eq_of_agree hAgree [] [] property.isInline name
      (Property.not_replaced_of_mem_mentions hName)

end Agree

/-! ## Whole runs -/

/-- A finished tree has no reference to a replaced name, and of the replaced names only seeds were
expanded.  On the way to each declaration no class with a replaced name was expanded in place, and
what is found under such names, if anything, makes no difference to the declaration. -/
theorem replaced_names_never_leak (world : World) (seeds : List String) (tree : NamespaceTree)
    (hKeyed : world.registry.Keyed) (hTree : world.declarations seeds = .ok tree) :
    (∀ entry ∈ tree.entries, ∀ name ∈ entry.2.references,
      Table.find? world.replacements name = none) ∧
    ∃ expanded : Table Declaration, world.expandAll (.ofNames seeds) = .ok expanded ∧
      tree = .ofList expanded ∧
      (∀ name ∈ expanded.names, (Table.find? world.replacements name).isSome → name ∈ seeds) ∧
      ∀ entry ∈ expanded, ∃ c, Table.find? world.registry entry.1 = some c ∧
        (∀ path inner, world.Within c path inner →
          ∀ name ∈ path, Table.find? world.replacements name = none) ∧
        ∀ registry : Registry, (∀ name, Table.find? world.replacements name = none →
            Table.find? registry name = Table.find? world.registry name) →
          (World.declare { world with registry := registry } c).outcome = .ok entry.2 := by
  obtain ⟨expanded, hOutcome, rfl⟩ := declarations_eq_ok.mp hTree
  have hRun := expandAll_eq_ok.mp hOutcome
  refine ⟨fun entry hEntry name hName => ?_, expanded, hOutcome, rfl,
    fun name hName hReplaced => hRun.seed_of_replaced hName hReplaced, fun entry hEntry => ?_⟩
  · -- what a declaration refers to is what its class asked for
    obtain ⟨owner, hOwner, -⟩ := NamespaceTree.mem_of_mem_entries_ofList hEntry
    obtain ⟨c, -, hDeclared⟩ := hRun.declared _ hOwner
    obtain ⟨-, -, hAsked⟩ := (declare_meets hKeyed c).gives _ hDeclared
    exact not_replaced_of_mem_asks name (hAsked hName)
  · obtain ⟨c, hFound, hDeclared⟩ := hRun.declared entry hEntry
    refine ⟨c, hFound, fun path inner hWithin => hWithin.not_replaced hKeyed, ?_⟩
    intro registry hAgree
    rw [declare_eq_of_agree hAgree c]
    exact hDeclared

/-- A record that leads to the replaced class `B` by its parent, by a list, and by a record that it
expands in place and that would expand `B`. -/
def disguised : World where
  registry := Registry.insertAll []
    [ { name := "A"
        shape := .record
          [ { name := "x", declared := some "list<B>|?parent|C" },
            { name := "y", declared := some "array<string, D>", markers := [.inline] } ]
        parent := some "B" },
      { name := "B", shape := .record [{ name := "a", declared := some "A" }] },
      { name := "C", shape := .enumeration [{ name := "One", value := .int 1 }] },
      { name := "D"
        shape := .record [{ name := "b", declared := some "?B", markers := [.inline] }] } ]
  replacements := [("B", "Bee")]

/-- A class that cannot be converted. -/
def unconvertible : Class where
  name := "B"
  shape := .record [{ name := "f", declared := some "callable" }]

theorem disguised_never_leaks :
    disguised.registry.Keyed ∧
    ∃ tree, disguised.declarations ["A", "B"] = .ok tree ∧
      (∀ entry ∈ tree.entries, ∀ name ∈ entry.2.references,
        Table.find? disguised.replacements name = none) ∧
      tree.entries.map (·.2.references) = [["C"], ["A"], []] ∧
      ∃ expanded : Table Declaration, disguised.expandAll (.ofNames ["A", "B"]) = .ok expanded ∧
        (∀ name ∈ expanded.names,
          (Table.find? disguised.replacements name).isSome → name ∈ ["A", "B"]) ∧
        ∀ entry ∈ expanded, ∃ c, Table.find? disguised.registry entry.1 = some c ∧
          (World.declare { disguised with
            registry := Table.set disguised.registry "B" unconvertible } c).outcome =
              .ok entry.2 := by
  have hKeyed : disguised.registry.Keyed := Registry.keyed_insertAll _
  have hReferences : (disguised.declarations ["A", "B"]).map
      (·.entries.map (·.2.references)) = .ok [["C"], ["A"], []] := by decide +kernel
  obtain ⟨tree, hTree, hReferences⟩ := map_eq_ok.mp hReferences
  obtain ⟨hFree, expanded, hExpanded, -, hSeeds, hEntries⟩ :=
    replaced_names_never_leak disguised ["A", "B"] tree hKeyed hTree
  have hAgree : ∀ name, Table.find? disguised.replacements name = none →
      Table.find? (Table.set disguised.registry "B" unconvertible) name =
        Table.find? disguised.registry name := by
    intro name hFree
    rw [Table.find?_set, if_neg]
    rintro rfl
    revert hFree
    decide
  refine ⟨hKeyed, tree, hTree, hFree, hReferences, expanded, hExpanded, hSeeds, ?_⟩
  intro entry hEntry
  obtain ⟨c, hFound, -, hSame⟩ := hEntries entry hEntry
  exact ⟨c, hFound, hSame _ hAgree⟩

end World

end Ambient
