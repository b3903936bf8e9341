import Ambient.Proofs.Expansion

/-!
# Unfolding

`World.named` notices that an expansion is endless.  The plain meaning of a class name does not: it
enters class after class, and all it knows are the names of the classes around it.  `unfolded` is
that plain meaning, cut off below a number of nested expansions, and a descriptor `Ends` if some cut
is deep enough to make no difference.

Noticing changes nothing else:

* `unfolded_approximates`: what comes to an end within a cut is what `named` gives;
* `named_approximates`: what `named` gives is what every cut from a certain depth on gives;
* `ends_iff`: so a descriptor ends just if `named` does not fail as endless.
-/

namespace Ambient.World

open Conversion

/-- The meaning of a class name down to `depth` nested expansions.  The classes being expanded are
in `path` under their own names, as often as they were entered. -/
def unfolded (world : World) (depth : Nat) (path : List String) (inPlace : Bool) (name : String) :
    Conversion TsType :=
  match Table.find? world.registry name with
  | none => pure .unknown
  | some c =>
    if !inPlace || name ∈ path then .ask name (.reference name)
    else
      match c.shape with
      | .enumeration cases => pure (.inlineEnum (cases.map Case.value))
      | .record properties =>
        match depth with
        | 0 => .fail .endless
        | depth + 1 =>
          .inlineRecord <$>
            convertProperties world.replacements (world.unfolded depth (c.name :: path)) c
              properties

/-- The conversion of a descriptor down to `depth` nested expansions. -/
def convertTo (world : World) (depth : Nat) (path : List String) (scope : Option Scope)
    (text : String) : Conversion TsType :=
  let reading : Reading :=
    { scope := scope
      replacements := world.replacements
      named := world.unfolded depth path (scope.any (·.property.isInline)) }
  reading.convert (Descriptor.parse text.toList)

/-- The conversion of a descriptor comes to an end. -/
def Ends (world : World) (path : List String) (scope : Option Scope) (text : String) : Prop :=
  ∃ depth, (world.convertTo depth path scope text).outcome ≠ .error .endless

variable {world : World}

/-! ## One step -/

section Step

variable {depth : Nat} {path : List String} {inPlace : Bool} {name : String} {c : Class}
  {properties : List Property}

theorem unfolded_zero (found : Table.find? world.registry name = some c)
    (expands : ¬(!inPlace || name ∈ path) = true) (shape : c.shape = .record properties) :
    world.unfolded 0 path inPlace name = .fail .endless := by
  rw [unfolded, found]
  refine (if_neg expands).trans ?_
  rw [shape]

theorem unfolded_succ (found : Table.find? world.registry name = some c)
    (expands : ¬(!inPlace || name ∈ path) = true) (shape : c.shape = .record properties) :
    world.unfolded (depth + 1) path inPlace name =
      .inlineRecord <$>
        convertProperties world.replacements (world.unfolded depth (c.name :: path)) c
          properties := by
  rw [unfolded, found]
  refine (if_neg expands).trans ?_
  rw [shape]

end Step

/-- A class name has one meaning at all depths and for `named` alike, unless it is that of a record
to be entered. -/
theorem settled_or_enters (path : List String) (inPlace : Bool) (name : String) :
    (∃ conversion : Conversion TsType,
      (∀ depth, world.unfolded depth path inPlace name = conversion) ∧
        ∀ entered, world.named path entered inPlace name = conversion) ∨
    ∃ c properties, Table.find? world.registry name = some c ∧
      (¬(!inPlace || name ∈ path) = true) ∧ c.shape = .record properties := by
  -- unknown names, references and enumerations need no depth
  cases hFound : Table.find? world.registry name with
  | none =>
    refine .inl ⟨pure .unknown, fun depth => ?_, fun entered => named_unknown hFound⟩
    rw [unfolded, hFound]
  | some c =>
    by_cases hRefers : (!inPlace || name ∈ path) = true
    · refine .inl ⟨.ask name (.reference name), fun depth => ?_, fun entered =>
        named_refers hFound hRefers⟩
      rw [unfolded, hFound]
      exact if_pos hRefers
    · cases hShape : c.shape with
      | record properties => exact .inr ⟨c, properties, rfl, hRefers, hShape⟩
      | enumeration cases =>
        refine .inl ⟨pure (.inlineEnum (cases.map Case.value)), fun depth => ?_, fun entered =>
          named_enumeration hFound hRefers hShape⟩
        rw [unfolded, hFound]
        refine (if_neg hRefers).trans ?_
        rw [hShape]

/-! ## The cut -/

/-- Only which classes are being expanded counts, not how often they were entered. -/
theorem unfolded_congr {path path' : List String} (hPath : ∀ name, name ∈ path ↔ name ∈ path')
    (depth : Nat) : world.unfolded depth path = world.unfolded depth path' := by
  -- an expansion adds the same name to both paths
  induction depth generalizing path path' with
  | zero =>
    funext inPlace name
    unfold unfolded
    simp only [hPath name]
  | succ depth ih =>
    funext inPlace name
    have hBelow : ∀ c : Class, world.unfolded depth (c.name :: path) =
        world.unfolded depth (c.name :: path') := by
      intro c
      refine ih fun other => ?_
      rw [List.mem_cons, List.mem_cons, hPath other]
    unfold unfolded
    simp only [hPath name, hBelow]

theorem unfolded_cons_of_mem {path : List String} {name : String} (hMem : name ∈ path)
    (depth : Nat) : world.unfolded depth (name :: path) = world.unfolded depth path := by
  refine unfolded_congr (fun other => ?_) depth
  rw [List.mem_cons]
  exact ⟨fun h => h.elim (fun hName => hName ▸ hMem) id, .inr⟩

/-- A deeper cut changes nothing that has come to an end. -/
theorem unfolded_approximates_succ (depth : Nat) (path : List String) (inPlace : Bool)
    (name : String) : (world.unfolded depth path inPlace name).Approximates
      (world.unfolded (depth + 1) path inPlace name) := by
  -- the class that is entered is the same on both sides, one level less deep
  induction depth generalizing path inPlace name with
  | zero =>
    rcases settled_or_enters path inPlace name with
      ⟨conversion, hUnfolded, -⟩ | ⟨c, properties, hFound, hExpands, hShape⟩
    · rw [hUnfolded, hUnfolded]
      exact .rfl
    · rw [unfolded_zero hFound hExpands hShape]
      exact fun hEnds => absurd rfl hEnds
  | succ depth ih =>
    rcases settled_or_enters path inPlace name with
      ⟨conversion, hUnfolded, -⟩ | ⟨c, properties, hFound, hExpands, hShape⟩
    · rw [hUnfolded, hUnfolded]
      exact .rfl
    · rw [unfolded_succ hFound hExpands hShape, unfolded_succ hFound hExpands hShape]
      exact .map _ (approximates_convertProperties (ih (c.name :: path)))

theorem endless_of_succ {depth : Nat} {path : List String} {inPlace : Bool} {name : String}
    (h : (world.unfolded (depth + 1) path inPlace name).outcome = .error .endless) :
    (world.unfolded depth path inPlace name).outcome = .error .endless := by
  refine Classical.byContradiction fun hEnds => ?_
  rw [unfolded_approximates_succ depth path inPlace name hEnds] at h
  exact hEnds h

/-! ## What is noticed is endless -/

/-- What comes to an end within a cut is what `named` gives, as long as the names that were entered
already do not come to an end within that cut. -/
theorem unfolded_approximates (depth : Nat) (path entered : List String)
    (hEntered : ∀ other ∈ entered,
      (world.unfolded depth path true other).outcome = .error .endless)
    (inPlace : Bool) (name : String) : (world.unfolded depth path inPlace name).Approximates
      (world.named path entered inPlace name) := by
  induction depth generalizing path entered inPlace name with
  | zero =>
    rcases settled_or_enters path inPlace name with
      ⟨conversion, hUnfolded, hNamed⟩ | ⟨c, properties, hFound, hExpands, hShape⟩
    · rw [hUnfolded, hNamed]
      exact .rfl
    · rw [unfolded_zero hFound hExpands hShape]
      exact fun hEnds => absurd rfl hEnds
  | succ depth ih =>
    rcases settled_or_enters path inPlace name with
      ⟨conversion, hUnfolded, hNamed⟩ | ⟨c, properties, hFound, hExpands, hShape⟩
    · rw [hUnfolded, hNamed]
      exact .rfl
    · obtain ⟨rfl, -⟩ := expands_iff.mp hExpands
      have hBelow : ∀ other ∈ entered,
          (world.unfolded depth path true other).outcome = .error .endless :=
        fun other hOther => endless_of_succ (hEntered other hOther)
      intro hEnds
      by_cases hOld : c.name ∈ path
      · -- entered a second time in the same surroundings the name would not have come to an end
        have hNew : name ∉ entered := fun hMem => hEnds (hEntered name hMem)
        by_cases hAgain : (world.unfolded depth path true name).outcome = .error .endless
        · -- now the name itself can be counted among those that do not end one level below
          rw [unfolded_succ hFound hExpands hShape, unfolded_cons_of_mem hOld] at hEnds ⊢
          rw [named_reenters hFound hExpands hShape hOld hNew]
          have hEnteredNow : ∀ other ∈ name :: entered,
              (world.unfolded depth path true other).outcome = .error .endless := by
            intro other hOther
            rcases List.mem_cons.mp hOther with rfl | hOther
            · exact hAgain
            · exact hBelow other hOther
          exact Approximates.map _
            (approximates_convertProperties (ih path (name :: entered) hEnteredNow)) hEnds
        · -- one level less is enough, and there the hypotheses hold as they are
          rw [unfolded_approximates_succ depth path true name hAgain]
          exact ih path entered hBelow true name hAgain
      · rw [unfolded_succ hFound hExpands hShape] at hEnds ⊢
        rw [named_enters hFound hExpands hShape hOld]
        exact Approximates.map _
          (approximates_convertProperties (ih (c.name :: path) [] (by simp))) hEnds

/-! ## What is endless is noticed -/

/-- What `named` gives is what deep enough cuts give, unless it fails as endless. -/
theorem named_approximates (depth : Nat) (path entered : List String)
    (hDeep : world.effort path entered < depth) (inPlace : Bool) (name : String) :
    (world.named path entered inPlace name).Approximates
      (world.unfolded depth path inPlace name) := by
  induction depth generalizing path entered inPlace name with
  | zero => omega
  | succ depth ih =>
    rcases settled_or_enters path inPlace name with
      ⟨conversion, hUnfolded, hNamed⟩ | ⟨c, properties, hFound, hExpands, hShape⟩
    · rw [hUnfolded, hNamed]
      exact .rfl
    · rw [unfolded_succ hFound hExpands hShape]
      -- entering a class, for the first time or again, uses up some of the effort
      by_cases hOld : c.name ∈ path
      · by_cases hAgain : name ∈ entered
        · rw [named_endless hFound hExpands hShape hOld hAgain]
          exact fun hEnds => absurd rfl hEnds
        · rw [named_reenters hFound hExpands hShape hOld hAgain, unfolded_cons_of_mem hOld]
          have hLess : world.effort path (name :: entered) < world.effort path entered :=
            effort_entered_lt hFound hAgain
          exact .map _ (approximates_convertProperties
            (ih path (name :: entered) (by omega)))
      · rw [named_enters hFound hExpands hShape hOld]
        have hLess : world.effort (c.name :: path) [] < world.effort path entered :=
          effort_cons_lt hFound hOld
        exact .map _ (approximates_convertProperties (ih (c.name :: path) [] (by omega)))

/-! ## Descriptors -/

theorem convertTo_approximates (depth : Nat) (path : List String) (scope : Option Scope)
    (text : String) : (world.convertTo depth path scope text).Approximates
      (world.convertWithin path scope text) :=
  Reading.approximates_convert _ (unfolded_approximates depth path [] (by simp) _)

/-- A descriptor ends just if it is not noticed to be endless, and then with the same outcome. -/
theorem ends_iff {path : List String} {scope : Option Scope} {text : String} :
    world.Ends path scope text ↔
      (world.convertWithin path scope text).outcome ≠ .error .endless := by
  constructor
  · rintro ⟨depth, hEnds⟩
    rw [convertTo_approximates depth path scope text hEnds]
    exact hEnds
  · intro hEnds
    refine ⟨world.effort path [] + 1, ?_⟩
    have hSame : (world.convertWithin path scope text).Approximates
        (world.convertTo (world.effort path [] + 1) path scope text) :=
      Reading.approximates_convert _ (named_approximates _ path [] (Nat.lt_succ_self _) _)
    rw [hSame hEnds]
    exact hEnds

end Ambient.World
