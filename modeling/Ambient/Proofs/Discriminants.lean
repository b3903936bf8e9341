import Ambient.Extraction
import Ambient.Proofs.FieldType
import Ambient.Proofs.Numerals

/-!
# Discriminants

The discriminant of a variant is the explicit one, or else one more than that of the variant before,
or else zero.  That is the rule of the language (`Assigned`), over numbers without a bound.

The extraction counts in 64 bits and reads an explicit discriminant from its magnitude, which the
least number does not have within 64 bits (`IsNumber.asInt?_of_isInt64`).  So the least number
counts for no number at all, and the variant gets what is due behind the one before.

* `Assigned.getElem?_found_iff`: a variant gets what the language assigns to it just if the explicit
  discriminant that it counts from is not the least number, or is due anyway.
* `enumeration_discriminants`: the cases of an enumeration with these discriminants.
* `least_discriminant_lost`: an enumeration whose discriminants are all wrong.
-/

namespace Ambient.Extraction

open Source

/-! ## Numbers of 64 bits -/

/-- The least number of 64 bits. -/
def least : Int := -9223372036854775808

/-- The greatest number of 64 bits. -/
def greatest : Int := 9223372036854775807

theorem isInt64_iff {value : Int} : isInt64 value = true ↔ least ≤ value ∧ value ≤ greatest := by
  rw [isInt64, Bool.and_eq_true, decide_eq_true_eq, decide_eq_true_eq, least, greatest]

theorem successor_eq_bmod (value : Int) : successor value = (value + 1).bmod (2 ^ 64) :=
  rfl

theorem isInt64_successor (value : Int) : isInt64 (successor value) = true := by
  rw [isInt64_iff, least, greatest, successor, Int.bmod]
  split <;> omega

/-- Counting on within 64 bits is adding one, except behind the greatest number. -/
theorem successor_eq {value : Int} (h : isInt64 value = true) :
    successor value = if value = greatest then least else value + 1 := by
  rw [isInt64_iff, least, greatest] at h
  rw [successor, least, greatest, Int.bmod]
  split <;> split <;> omega

theorem successor_eq_least_iff {value : Int} (h : isInt64 value = true) :
    successor value = least ↔ value = greatest := by
  rw [successor_eq h]
  rw [isInt64_iff, least, greatest] at h
  rw [least, greatest]
  split <;> omega

/-- What is due next in 64 bits shows which number came before. -/
theorem successor_eq_bmod_iff {value other : Int} (h : isInt64 value = true)
    (hOther : isInt64 other = true) :
    successor value = (other + 1).bmod (2 ^ 64) ↔ value = other := by
  rw [← successor_eq_bmod, successor_eq h, successor_eq hOther]
  -- only the greatest number has the least one behind it, so the four cases are linear
  rw [isInt64_iff, least, greatest] at h hOther
  rw [least, greatest]
  split <;> split <;> omega

/-! ## Explicit discriminants -/

/-- The number that an expression denotes: a numeral, possibly in parentheses or with minus
signs. -/
inductive IsNumber : Expr → Int → Prop
  | numeral (value : Nat) (isSuffixed : Bool) : IsNumber (.literal (.int value isSuffixed)) value
  | negative {operand : Expr} {value : Int} (h : IsNumber operand value) :
    IsNumber (.negative operand) (-value)
  | parenthesized {inner : Expr} {value : Int} (h : IsNumber inner value) :
    IsNumber (.parenthesized inner) value

/-- A number is read just if its magnitude has 64 bits. -/
theorem IsNumber.asInt?_eq {expr : Expr} {value : Int} (h : IsNumber expr value) :
    asInt? expr = if value.natAbs ≤ greatest.natAbs then some value else none := by
  induction h with
  | numeral value isSuffixed =>
    -- a numeral is its own magnitude, so the lower bound is idle
    rw [asInt?, inRange?, Int.natAbs_natCast]
    refine if_congr ?_ rfl rfl
    rw [isInt64_iff, least, greatest]
    omega
  | @negative operand value _ ih =>
    -- the magnitude has been checked by now, and a minus sign does not change it
    rw [asInt?, ih, Int.natAbs_neg]
    split <;> rfl
  | parenthesized _ ih => rw [asInt?, ih]

/-- Of the numbers of 64 bits only the least one is not read. -/
theorem IsNumber.asInt?_of_isInt64 {expr : Expr} {value : Int} (h : IsNumber expr value)
    (hRange : isInt64 value = true) :
    asInt? expr = if value = least then none else some value := by
  rw [h.asInt?_eq]
  rw [isInt64_iff, least, greatest] at hRange
  rw [least, greatest]
  -- a number of 64 bits whose magnitude does not fit can only be the least one
  by_cases hLeast : value = -9223372036854775808
  · rw [if_pos hLeast, if_neg (by omega)]
  · rw [if_neg hLeast, if_pos (by omega)]

/-- No minus sign leads out of the numbers of 64 bits. -/
theorem IsNumber.isInt64_neg {operand : Expr} {value found : Int} (h : IsNumber operand value)
    (hFound : asInt? operand = some found) : isInt64 (-found) = true := by
  rw [h.asInt?_eq] at hFound
  split at hFound
  · rename_i hMagnitude
    obtain rfl := Option.some.inj hFound
    rw [greatest] at hMagnitude
    rw [isInt64_iff, least, greatest]
    omega
  · cases hFound

/-! ## Assigned discriminants -/

/-- The discriminants that the language assigns to variants, the first of which is due `next`. -/
inductive Assigned : Int → List Variant → List Int → Prop
  | nil (next : Int) : Assigned next [] []
  | explicit {next value : Int} {variant : Variant} {expr : Expr} {rest : List Variant}
    {values : List Int} (hExpr : variant.discriminant = some expr) (hValue : IsNumber expr value)
    (hRest : Assigned (value + 1) rest values) :
    Assigned next (variant :: rest) (value :: values)
  | implicit {next : Int} {variant : Variant} {rest : List Variant} {values : List Int}
    (hNone : variant.discriminant = none) (hRest : Assigned (next + 1) rest values) :
    Assigned next (variant :: rest) (next :: values)

/-- The place of the explicit discriminant that the one at a place counts from: the last one up to
there, if there is any. -/
def countedFrom? : List Variant → Nat → Option Nat
  | [], _ => none
  | variant :: _, 0 => if variant.discriminant.isSome then some 0 else none
  | variant :: rest, place + 1 =>
    match countedFrom? rest place with
    | some start => some (start + 1)
    | none => if variant.discriminant.isSome then some 0 else none

theorem map_fst_discriminants (next : Int) (variants : List Variant) :
    (discriminants next variants).map Prod.fst = variants := by
  induction variants generalizing next with
  | nil => rfl
  | cons variant rest ih => rw [discriminants, List.map_cons, ih]

/-- The discriminants that are extracted, where the first one is due `first`. -/
def found (first : Int) (variants : List Variant) : List Int :=
  (discriminants first variants).map Prod.snd

/-- The discriminant that is extracted for a variant, where `first` is due. -/
def foundFirst (first : Int) (variant : Variant) : Int :=
  (variant.discriminant.bind asInt?).getD first

theorem found_cons (first : Int) (variant : Variant) (rest : List Variant) :
    found first (variant :: rest) =
      foundFirst first variant :: found (successor (foundFirst first variant)) rest :=
  rfl

theorem discriminants_eq_zip (first : Int) (variants : List Variant) :
    discriminants first variants = variants.zip (found first variants) := by
  induction variants generalizing first with
  | nil => rfl
  | cons variant rest ih =>
    rw [discriminants, ih, found_cons, List.zip_cons_cons]
    rfl

theorem length_found (first : Int) (variants : List Variant) :
    (found first variants).length = variants.length := by
  rw [found, List.length_map, ← List.length_map Prod.fst, map_fst_discriminants]

/-- Of the explicit discriminants of 64 bits, only the least one gives way to what is due. -/
theorem foundFirst_explicit {variant : Variant} {expr : Expr} {value : Int}
    (hExpr : variant.discriminant = some expr) (hValue : IsNumber expr value)
    (hInt : isInt64 value = true) (first : Int) :
    foundFirst first variant = if value = least then first else value := by
  rw [foundFirst, hExpr, Option.bind_some, hValue.asInt?_of_isInt64 hInt]
  split <;> rfl

theorem isInt64_foundFirst {variant : Variant} {expr : Expr} {value : Int}
    (hExpr : variant.discriminant = some expr) (hValue : IsNumber expr value)
    (hInt : isInt64 value = true) {first : Int} (hFirst : isInt64 first = true) :
    isInt64 (foundFirst first variant) = true := by
  rw [foundFirst_explicit hExpr hValue hInt]
  split
  · exact hFirst
  · exact hInt

theorem foundFirst_implicit {variant : Variant} (hNone : variant.discriminant = none)
    (first : Int) : foundFirst first variant = first := by
  rw [foundFirst, hNone]
  rfl

/-- An implicit discriminant is found to be the successor of the one before. -/
theorem getElem?_found_succ {variants : List Variant} {place : Nat} {variant : Variant}
    (hVariant : variants[place + 1]? = some variant) (hNone : variant.discriminant = none)
    (first : Int) :
    (found first variants)[place + 1]? = (found first variants)[place]?.map successor := by
  induction variants generalizing place first with
  | nil => cases hVariant
  | cons head rest ih =>
    rw [found_cons, List.getElem?_cons_succ]
    rw [List.getElem?_cons_succ] at hVariant
    cases place with
    | zero =>
      obtain ⟨others, rfl⟩ : ∃ others, rest = variant :: others := by
        rw [← List.head?_eq_getElem?] at hVariant
        exact List.head?_eq_some_iff.mp hVariant
      rw [found_cons, foundFirst_implicit hNone]
      rfl
    | succ place => exact ih hVariant _

/-- What is due at each place: at the first one `first`, and then the successor of what is found. -/
def due (first : Int) (variants : List Variant) : List Int :=
  first :: (found first variants).map successor

/-! ## Two counts in step -/

/-- Whether the count in 64 bits, where `first` is due, starts right for the places that count from
`start`: an explicit discriminant is read or due anyway, and with none the first one is due. -/
def StartsRight (next first : Int) (variants : List Variant) (values : List Int) :
    Option Nat → Prop
  | some start => values[start]? = some least → (due first variants)[start]? = some least
  | none => first = next.bmod (2 ^ 64)

section Step

variable {next first value : Int} {variant : Variant} {rest : List Variant} {values : List Int}

/-- From one variant to the next: what starts right is carried on by adding one to both counts. -/
theorem startsRight_step
    (hHead : foundFirst first variant = value ↔
      StartsRight next first (variant :: rest) (value :: values)
        (if variant.discriminant.isSome then some 0 else none))
    (hFound : isInt64 (foundFirst first variant) = true) (hValue : isInt64 value = true)
    (ih : ∀ place other, values[place]? = some other →
      ((found (successor (foundFirst first variant)) rest)[place]? = some other ↔
        StartsRight (value + 1) (successor (foundFirst first variant)) rest values
          (countedFrom? rest place)))
    (place : Nat) (other : Int) (hOther : (value :: values)[place]? = some other) :
    (found first (variant :: rest))[place]? = some other ↔
      StartsRight next first (variant :: rest) (value :: values)
        (countedFrom? (variant :: rest) place) := by
  rw [found_cons]
  cases place with
  | zero =>
    obtain rfl : value = other := Option.some.inj hOther
    rw [List.getElem?_cons_zero, Option.some_inj, hHead, countedFrom?]
  | succ place =>
    rw [List.getElem?_cons_succ, ih place other hOther, countedFrom?]
    cases countedFrom? rest place with
    | some start =>
      -- the places of the rest are shifted by one on both sides
      rfl
    | none =>
      -- nothing in the rest is explicit: both counts go on from the head, and agree if it does
      show successor (foundFirst first variant) = (value + 1).bmod (2 ^ 64) ↔ _
      rw [successor_eq_bmod_iff hFound hValue]
      exact hHead

end Step

/-- A variant gets the discriminant that is assigned to it just if the count starts right where it
counts from. -/
theorem Assigned.getElem?_found_iff {next : Int} {variants : List Variant} {values : List Int}
    (h : Assigned next variants values) (hRange : ∀ value ∈ values, isInt64 value = true)
    {first : Int} (hFirst : isInt64 first = true) (place : Nat) (value : Int)
    (hValue : values[place]? = some value) :
    (found first variants)[place]? = some value ↔
      StartsRight next first variants values (countedFrom? variants place) := by
  -- the induction follows the assignment; what is found so far enters as the number that is due
  induction h generalizing first place value with
  | nil => cases hValue
  | @explicit next number variant expr rest values hExpr hNumber hRest ih =>
    have hInt := hRange number (.head _)
    have hFound := foundFirst_explicit hExpr hNumber hInt first
    refine startsRight_step ?_ (isInt64_foundFirst hExpr hNumber hInt hFirst) hInt
      (fun place other hOther => ?_) place value hValue
    · rw [hFound, hExpr, Option.isSome_some, if_pos rfl]
      show _ ↔ (some number = some least → some first = some least)
      rw [Option.some_inj, Option.some_inj]
      -- the least number is right just if it is due, and any other one is read
      by_cases hLeast : number = least
      · simp [hLeast]
      · simp [hLeast]
    · exact ih (fun other hOther => hRange other (.tail _ hOther)) (isInt64_successor _) place other
        hOther
  | @implicit next variant rest values hNone hRest ih =>
    have hInt := hRange next (.head _)
    have hFound := foundFirst_implicit hNone first
    refine startsRight_step ?_ (hFound.symm ▸ hFirst) hInt
      (fun place other hOther => ?_) place value hValue
    · rw [hFound, hNone, Option.isSome_none, if_neg Bool.false_ne_true]
      -- a number that is assigned does not wrap around
      show first = next ↔ first = next.bmod (2 ^ 64)
      rw [isInt64_iff, least, greatest] at hInt
      rw [Int.bmod_eq_of_le (by omega) (by omega)]
    · exact ih (fun other hOther => hRange other (.tail _ hOther)) (isInt64_successor _) place other
        hOther

/-- All that is extracted has 64 bits. -/
theorem Assigned.isInt64_of_mem_found {next : Int} {variants : List Variant} {values : List Int}
    (h : Assigned next variants values) (hRange : ∀ value ∈ values, isInt64 value = true)
    {first : Int} (hFirst : isInt64 first = true) :
    ∀ value ∈ found first variants, isInt64 value = true := by
  induction h generalizing first with
  | nil => simp [found, discriminants]
  | @explicit next number variant expr rest values hExpr hNumber hRest ih =>
    rw [found_cons, List.forall_mem_cons]
    refine ⟨isInt64_foundFirst hExpr hNumber (hRange number (.head _)) hFirst, ?_⟩
    exact ih (fun other hOther => hRange other (.tail _ hOther)) (isInt64_successor _)
  | @implicit next variant rest values hNone hRest ih =>
    rw [found_cons, List.forall_mem_cons, foundFirst_implicit hNone]
    exact ⟨hFirst, ih (fun other hOther => hRange other (.tail _ hOther)) (isInt64_successor _)⟩

/-- An implicit discriminant is assigned one more than the one before. -/
theorem Assigned.getElem?_succ {next : Int} {variants : List Variant} {values : List Int}
    (h : Assigned next variants values) {place : Nat} {variant : Variant}
    (hVariant : variants[place + 1]? = some variant) (hNone : variant.discriminant = none) :
    values[place + 1]? = values[place]?.map (· + 1) := by
  -- an implicit variant that comes first is assigned what is due
  have hHead : ∀ {next : Int} {rest : List Variant} {values : List Int},
      Assigned next rest values → rest[0]? = some variant → values[0]? = some next := by
    rintro _ _ _ (_ | ⟨hExpr, -, -⟩ | -) hFirst
    · cases hFirst
    · obtain rfl := Option.some.inj hFirst
      rw [hNone] at hExpr
      cases hExpr
    · rfl
  induction h generalizing place with
  | nil => cases hVariant
  | explicit hExpr hValue hRest ih =>
    cases place with
    | zero => exact hHead hRest hVariant
    | succ place => exact ih hVariant
  | implicit _ hRest ih =>
    cases place with
    | zero => exact hHead hRest hVariant
    | succ place => exact ih hVariant

/-- The least number is due just behind the greatest. -/
theorem getElem?_due_eq_least_iff {variants : List Variant}
    (hFound : ∀ value ∈ found 0 variants, isInt64 value = true) (start : Nat) :
    (due 0 variants)[start]? = some least ↔
      ∃ before, start = before + 1 ∧ (found 0 variants)[before]? = some greatest := by
  cases start with
  | zero =>
    have hZero : (0 : Int) ≠ least := by decide
    simp [due, hZero]
  | succ before =>
    rw [due, List.getElem?_cons_succ, List.getElem?_map, Option.map_eq_some_iff]
    constructor
    · rintro ⟨value, hValue, hLeast⟩
      have hInt := hFound value (List.mem_of_getElem? hValue)
      exact ⟨before, rfl, (successor_eq_least_iff hInt).mp hLeast ▸ hValue⟩
    · rintro ⟨place, hPlace, hValue⟩
      obtain rfl : before = place := Nat.succ.inj hPlace
      exact ⟨greatest, hValue, by decide⟩

/-! ## Enumerations -/

/-- The case of a variant that is not skipped, with its own value or else the given one. -/
def caseWith? (variant : Variant) (value : CaseValue) : Option Case :=
  if isSkipped (entries variant.attributes "serde") then none
  else some ⟨variant.ident.name, (caseValue? (entries variant.attributes "ts")).getD value⟩

theorem caseOf?_eq (rule : Renaming) (isNumeric : Bool) (variant : Variant) (number : Int) :
    caseOf? rule isNumeric variant number = caseWith? variant
      (if isNumeric then .int number
        else .text ((textOf? (entries variant.attributes "serde") "rename").getD
          (rule.variant variant.ident.name))) := by
  rw [caseOf?, caseWith?]
  split
  · rfl
  · cases caseValue? (entries variant.attributes "ts") <;> rfl

/-- The cases of variants with the given discriminants, in their order. -/
def numericCases (variants : List Variant) (numbers : List Int) : List Case :=
  (variants.zip numbers).filterMap fun entry => caseWith? entry.1 (.int entry.2)

/-- An enum without data is described by a class, with the cases of its variants. -/
theorem enumerationOf?_unit (origin : Origin) (module : Module) {item : EnumItem}
    (hUnit : ∀ variant ∈ item.variants, variant.hasFields = false) :
    ∃ c, enumerationOf? origin module item = some c ∧
      c.shape = .enumeration ((discriminants 0 item.variants).filterMap fun entry =>
        caseOf? (renamingOf (entries item.attributes "serde"))
          (item.variants.any (·.discriminant.isSome)) entry.1 entry.2) := by
  have hFields : item.variants.any Variant.hasFields = false := by
    rw [List.any_eq_false]
    intro variant hMem
    rw [hUnit variant hMem]
    exact Bool.false_ne_true
  exact ⟨_, by rw [enumerationOf?, hFields, if_neg Bool.false_ne_true], rfl⟩

theorem enumerationOf?_numeric (origin : Origin) (module : Module) {item : EnumItem}
    (hUnit : ∀ variant ∈ item.variants, variant.hasFields = false)
    (hExplicit : ∃ variant ∈ item.variants, variant.discriminant.isSome = true) :
    ∃ c, enumerationOf? origin module item = some c ∧
      c.shape = .enumeration (numericCases item.variants (found 0 item.variants)) := by
  obtain ⟨c, hClass, hShape⟩ := enumerationOf?_unit origin module hUnit
  have hNumeric : item.variants.any (·.discriminant.isSome) = true := List.any_eq_true.mpr hExplicit
  rw [hNumeric, discriminants_eq_zip] at hShape
  refine ⟨c, hClass, hShape.trans (congrArg Shape.enumeration ?_)⟩
  exact List.filterMap_congr fun entry _ => caseOf?_eq _ true entry.1 entry.2

/-- The class of an enumeration with an explicit discriminant.

* Its cases are those of the variants in their order, each one with the number found for it.
* A variant gets the discriminant that is assigned to it just if the last explicit discriminant up
  to there is not the least number, or stands behind a variant that gets the greatest one.
* Behind a variant that gets its own, an implicit one gets one more, without wrapping around.
* All numbers have 64 bits, those before a minus sign included.
* An explicit discriminant may be written in any base. -/
theorem enumeration_discriminants (origin : Origin) (module : Module) {item : EnumItem}
    {values : List Int} (hUnit : ∀ variant ∈ item.variants, variant.hasFields = false)
    (hExplicit : ∃ variant ∈ item.variants, variant.discriminant.isSome = true)
    (hAssigned : Assigned 0 item.variants values)
    (hRange : ∀ value ∈ values, isInt64 value = true) :
    (∃ c numbers, enumerationOf? origin module item = some c ∧
      c.shape = .enumeration (numericCases item.variants numbers) ∧
      numbers.length = item.variants.length ∧
      (∀ place value, values[place]? = some value →
        (numbers[place]? = some value ↔
          ∀ start, countedFrom? item.variants place = some start → values[start]? = some least →
            ∃ before, start = before + 1 ∧ numbers[before]? = some greatest)) ∧
      (∀ place variant value, item.variants[place + 1]? = some variant →
        variant.discriminant = none → values[place]? = some value →
        numbers[place]? = some value → numbers[place + 1]? = some (value + 1)) ∧
      ∀ number ∈ numbers, isInt64 number = true) ∧
    (∀ operand value number, IsNumber operand value → asInt? operand = some number →
      isInt64 (-number) = true) ∧
    ∀ mark base digits rest, (mark, base) ∈ bases → IsNumeral base digits → EndsNumeral rest →
      scanLiteral (mark.toList ++ (digits ++ rest)) =
        (endNumber rest).map fun after =>
          (.int (digitsValue base digits) (after.length < rest.length), after) := by
  obtain ⟨c, hClass, hShape⟩ := enumerationOf?_numeric origin module hUnit hExplicit
  have hZero : isInt64 0 = true := by decide
  have hFound := hAssigned.isInt64_of_mem_found hRange hZero
  refine ⟨⟨c, found 0 item.variants, hClass, hShape, length_found 0 item.variants, ?_, ?_, hFound⟩,
    fun operand value number h => h.isInt64_neg,
    fun mark base digits rest hBase h => scanLiteral_numeral hBase h⟩
  · intro place value hValue
    rw [hAssigned.getElem?_found_iff hRange hZero place value hValue]
    cases countedFrom? item.variants place with
    | none =>
      -- the first discriminant is due right
      exact iff_of_true (show (0 : Int) = Int.bmod 0 (2 ^ 64) by decide) (by simp)
    | some start =>
      rw [StartsRight, getElem?_due_eq_least_iff hFound]
      simp
  · intro place variant value hVariant hNone hValue hNumber
    have hNext : values[place + 1]? = some (value + 1) := by
      rw [hAssigned.getElem?_succ hVariant hNone, hValue]
      rfl
    -- one more than the greatest number is not assigned to any variant
    have hGreatest : value ≠ greatest := by
      intro hEq
      have hInt := hRange _ (List.mem_of_getElem? hNext)
      rw [isInt64_iff, hEq, greatest] at hInt
      omega
    rw [getElem?_found_succ hVariant hNone, hNumber, Option.map_some,
      successor_eq (hRange _ (List.mem_of_getElem? hValue)), if_neg hGreatest]

/-- A variant with some attributes, called `name` and without data. -/
def unitVariant (attributes : List Attribute) (name : String) (discriminant : Option Expr) :
    Variant where
  attributes := attributes
  ident := plain name
  hasFields := false
  discriminant := discriminant

/-- The number that a numeral of a source stands for. -/
def numeral (value : Nat) : Expr :=
  .literal (.int value false)

/-- An attribute with a single entry. -/
def singleEntry (name : String) (entry : MetaItem) : Attribute :=
  ⟨⟨false, [plain name]⟩, .arguments (some [entry]) none⟩

/-- An enumeration with a skipped variant, one with a value of its own and a negative one. -/
def mixed : EnumItem where
  attributes := []
  ident := plain "E"
  variants :=
    [unitVariant [] "A" (some (numeral 16)),
     unitVariant [singleEntry "serde" (.flag ⟨false, [plain "skip"]⟩)] "B" none,
     unitVariant [singleEntry "ts" (.value ⟨false, [plain "value"]⟩ (.literal (.text "c")))] "C"
       none,
     unitVariant [] "D" (some (.negative (.parenthesized (numeral 5)))),
     unitVariant [] "E" none]

theorem assigned_mixed : Assigned 0 mixed.variants [16, 17, 18, -5, -4] :=
  .explicit rfl (.numeral 16 false) <| .implicit rfl <| .implicit rfl <|
    .explicit rfl (.negative (.parenthesized (.numeral 5 false))) <| .implicit rfl <| .nil _

theorem mixed_discriminants :
    Assigned 0 mixed.variants [16, 17, 18, -5, -4] ∧
    ∃ c, enumerationOf? ⟨[], none⟩ ⟨["app"], []⟩ mixed = some c ∧
      c.shape = .enumeration [⟨"A", .int 16⟩, ⟨"C", .text "c"⟩, ⟨"D", .int (-5)⟩,
        ⟨"E", .int (-4)⟩] := by
  obtain ⟨⟨c, numbers, hClass, hShape, hLength, hExact, -⟩, -⟩ :=
    enumeration_discriminants ⟨[], none⟩ ⟨["app"], []⟩ (by decide) (by decide) assigned_mixed
      (by decide)
  have hNumbers : numbers = [16, 17, 18, -5, -4] := by
    refine List.ext_getElem? fun place => ?_
    cases hValue : [16, 17, 18, -5, -4][place]? with
    | none =>
      rw [List.getElem?_eq_none_iff] at hValue ⊢
      exact hLength.trans_le hValue
    | some value =>
      -- none of these numbers is the least one
      exact (hExact place value hValue).mpr fun start _ hLeast =>
        absurd (List.mem_of_getElem? hLeast) (by decide)
  refine ⟨assigned_mixed, c, hClass, ?_⟩
  rw [hShape, hNumbers]
  rfl

/-- An enumeration that starts with the least number. -/
def fromLeast : EnumItem where
  attributes := []
  ident := plain "E"
  variants :=
    [unitVariant [] "A" (some (.negative (numeral 9223372036854775808))), unitVariant [] "B" none]

set_option maxRecDepth 10000 in
theorem parse_fromLeast :
    parseFile? "enum E \x7b A = -9223372036854775808, B \x7d" = some [.enum fromLeast] := by
  have hTokens : tokenizeFile "enum E \x7b A = -9223372036854775808, B \x7d".toList =
      some [.ident (plain "enum"), .ident (plain "E"),
        .group .brace [.ident (plain "A"), .punct '=' false, .punct '-' false,
          .literal (.int 9223372036854775808 false), .punct ',' false, .ident (plain "B")]] := rfl
  rw [parseFile?, hTokens]
  rfl

/-- The least discriminant is passed over, and the ones behind it count from the wrong number. -/
theorem least_discriminant_lost :
    Assigned 0 fromLeast.variants [least, least + 1] ∧
    (∀ value ∈ [least, least + 1], isInt64 value = true) ∧
    classesOfSource? ⟨[], none⟩ "app" "enum E \x7b A = -9223372036854775808, B \x7d" =
      some [{ name := "app::E", shape := .enumeration [⟨"A", .int 0⟩, ⟨"B", .int 1⟩],
              line := some 1 }] := by
  refine ⟨?_, by decide, ?_⟩
  · exact .explicit rfl (.negative (.numeral 9223372036854775808 false)) <| .implicit rfl <| .nil _
  · rw [classesOfSource?, parse_fromLeast]
    decide

end Ambient.Extraction
