import Ambient.Proofs.Discriminants

/-!
# Laws of the renaming rules

Camel case is Pascal case with the first character in lower case, and the rules that split a name
before its capitals can be undone.

* `camel_decapitalizes`: the first law holds for every variant.  For fields it holds just if the
  name does not begin with a capital, nor with underscores before a letter (`BeginsLow`); a field
  that begins otherwise has the same name in both cases.
* `splitting_reversible`: a variant in Pascal case is recovered from its snake case by joining the
  words again, and the other three splittings determine the snake case (`unsplit`), so that no two
  variants are confused.

The rules change ASCII letters only.  A law about one character is therefore a table of the ASCII
characters, and says nothing about others.
-/

namespace Ambient.Extraction

open Source

namespace Renaming

/-! ## Letters in both cases -/

/-- What holds of the first 128 characters holds of every ASCII character. -/
theorem ascii_induction {motive : Char → Prop} (code : ∀ n < 128, motive (Char.ofNat n)) {c : Char}
    (hc : c.toNat < 128) : motive c := by
  have hCode := code c.toNat hc
  rwa [Char.ofNat_toNat] at hCode

theorem toUpper_of_not_ascii {c : Char} (hc : ¬c.toNat < 128) : c.toUpper = c := by
  unfold Char.toUpper
  rw [dif_neg]
  rintro ⟨-, hLast⟩
  rw [UInt32.le_iff_toNat_le] at hLast
  exact hc (Nat.lt_of_le_of_lt hLast (by decide))

theorem toLower_of_not_ascii {c : Char} (hc : ¬c.toNat < 128) : c.toLower = c := by
  unfold Char.toLower
  rw [dif_neg]
  rintro ⟨-, hLast⟩
  rw [UInt32.le_iff_toNat_le] at hLast
  exact hc (Nat.lt_of_le_of_lt hLast (by decide))

theorem ascii_of_isAlpha {c : Char} (h : c.isAlpha = true) : c.toNat < 128 := by
  unfold Char.isAlpha Char.isUpper Char.isLower at h
  simp only [Bool.or_eq_true, Bool.and_eq_true, decide_eq_true_eq, UInt32.le_iff_toNat_le,
    ge_iff_le] at h
  change 65 ≤ c.toNat ∧ c.toNat ≤ 90 ∨ 97 ≤ c.toNat ∧ c.toNat ≤ 122 at h
  omega

theorem ascii_of_isAlphanum {c : Char} (h : c.isAlphanum = true) : c.toNat < 128 := by
  unfold Char.isAlphanum at h
  rw [Bool.or_eq_true] at h
  rcases h with hAlpha | hDigit
  · exact ascii_of_isAlpha hAlpha
  · rw [Char.isDigit_iff_toNat] at hDigit
    change 48 ≤ c.toNat ∧ c.toNat ≤ 57 at hDigit
    omega

theorem ascii_of_isUpper {c : Char} (h : c.isUpper = true) : c.toNat < 128 :=
  ascii_of_isAlpha (Bool.or_eq_true_iff.mpr (.inl h))

/-- What is no ASCII character is no letter in either case. -/
theorem isAlpha_of_not_ascii {c : Char} (hc : ¬c.toNat < 128) : c.isAlpha = false := by
  rw [Bool.eq_false_iff]
  exact fun h => hc (ascii_of_isAlpha h)

/-- Lower case undoes upper case just for what is no capital. -/
theorem toLower_toUpper_iff {c : Char} : c = c.toUpper.toLower ↔ c.isUpper = false := by
  -- the table has all letters; what is not in it is the same in both cases
  by_cases hc : c.toNat < 128
  · exact ascii_induction (motive := fun c => c = c.toUpper.toLower ↔ c.isUpper = false)
      (by decide +kernel) hc
  · have hAlpha := isAlpha_of_not_ascii hc
    unfold Char.isAlpha at hAlpha
    rw [Bool.or_eq_false_iff] at hAlpha
    rw [toUpper_of_not_ascii hc, toLower_of_not_ascii hc]
    simp [hAlpha.1]

theorem toUpper_of_isUpper {c : Char} (h : c.isUpper = true) : c.toUpper = c := by
  exact ascii_induction (motive := fun c => c.isUpper = true → c.toUpper = c) (by decide +kernel)
    (ascii_of_isUpper h) h

/-- Lower case leaves a character in upper case just if it is no letter. -/
theorem toUpper_eq_toLower_iff {c : Char} : c.toUpper = c.toUpper.toLower ↔ c.isAlpha = false := by
  by_cases hc : c.toNat < 128
  · exact ascii_induction (motive := fun c => c.toUpper = c.toUpper.toLower ↔ c.isAlpha = false)
      (by decide +kernel) hc
  · rw [toUpper_of_not_ascii hc, toLower_of_not_ascii hc]
    simp [isAlpha_of_not_ascii hc]

/-- Among the letters and digits of ASCII the capitals are those from A to Z. -/
theorem isUppercase_of_isAlphanum {c : Char} (h : c.isAlphanum = true) :
    Text.isUppercase c = c.isUpper := by
  exact ascii_induction (motive := fun c => c.isAlphanum = true → Text.isUppercase c = c.isUpper)
    (by decide +kernel) (ascii_of_isAlphanum h) h

/-! ## Camel case -/

/-- A text with its first character in lower case. -/
def decapitalized (text : String) : String :=
  String.ofList (lowerFirst text.toList)

/-- Whether the name of a field begins low: with no capital, and behind underscores with no letter
at all.  A name of underscores has nothing to begin with. -/
def BeginsLow (name : String) : Prop :=
  ∀ c ∈ (name.toList.dropWhile (· == '_')).head?,
    c.isUpper = false ∧ (name.toList.head? = some '_' → c.isAlpha = false)

instance (name : String) : Decidable (BeginsLow name) :=
  Option.decidableForallMem _

theorem joined_underscore (capital : Bool) (rest : List Char) :
    joined capital ('_' :: rest) = joined true rest :=
  rfl

theorem joined_cons {c : Char} (hc : c ≠ '_') (capital : Bool) (rest : List Char) :
    joined capital (c :: rest) = (if capital then c.toUpper else c) :: joined false rest := by
  rw [joined, beq_eq_false_iff_ne.mpr hc, if_neg Bool.false_ne_true]

/-- Where a capital is due, the underscores before it make no difference. -/
theorem joined_true_dropWhile (name : List Char) :
    joined true (name.dropWhile (· == '_')) = joined true name := by
  induction name with
  | nil => rfl
  | cons c rest ih =>
    by_cases hc : c = '_'
    · subst hc
      rw [joined_underscore, ← ih]
      rfl
    · rw [List.dropWhile_cons, beq_eq_false_iff_ne.mpr hc, if_neg Bool.false_ne_true]

/-- A name without leading underscores begins in camel case as it is written. -/
theorem camelChars_of_ne {c : Char} (hc : c ≠ '_') (rest : List Char) :
    joined false (c :: rest) = lowerFirst (joined true (c :: rest)) ↔ c.isUpper = false := by
  rw [joined_cons hc, joined_cons hc, lowerFirst, ← toLower_toUpper_iff]
  simp

/-- A name with leading underscores is the same in both cases, so that only what is no letter
begins low. -/
theorem camelChars_underscore (rest : List Char) :
    joined false ('_' :: rest) = lowerFirst (joined true ('_' :: rest)) ↔
      ∀ c ∈ (('_' :: rest).dropWhile (· == '_')).head?, c.isAlpha = false := by
  have hDropped : ('_' :: rest).dropWhile (· == '_') = rest.dropWhile (· == '_') := rfl
  rw [joined_underscore, joined_underscore, ← joined_true_dropWhile, hDropped]
  have hFirst := List.head?_dropWhile_not (· == '_') rest
  cases hRest : rest.dropWhile (· == '_') with
  | nil => simp [joined, lowerFirst]
  | cons c more =>
    -- what the underscores leave begins with another character, which is written as a capital
    rw [hRest] at hFirst
    rw [joined_cons (beq_eq_false_iff_ne.mp hFirst), lowerFirst]
    simp [← toUpper_eq_toLower_iff]

/-- The name of a field in camel case is that in Pascal case with its first character in lower case
just if the name begins low. -/
theorem camel_field_iff (name : String) :
    camel.field name = decapitalized (pascal.field name) ↔ BeginsLow name := by
  rw [field, decapitalized, field, String.toList_ofList, String.ofList_inj, BeginsLow]
  show joined false name.toList = lowerFirst (joined true name.toList) ↔ _
  cases name.toList with
  | nil => simp [joined, lowerFirst]
  | cons c rest =>
    -- the first character decides whether a capital is due at once
    by_cases hc : c = '_'
    · subst hc
      rw [camelChars_underscore]
      refine forall₂_congr fun first _ => ?_
      -- a capital is a letter
      unfold Char.isAlpha
      simp only [List.head?_cons, true_implies, Bool.or_eq_false_iff]
      exact ⟨fun h => ⟨h.1, h⟩, And.right⟩
    · rw [camelChars_of_ne hc, List.dropWhile_cons, beq_eq_false_iff_ne.mpr hc,
        if_neg Bool.false_ne_true]
      simp [hc]

/-- A field that does not begin low is the same in camel case and in Pascal case. -/
theorem camel_field_of_not_beginsLow {name : String} (h : ¬BeginsLow name) :
    camel.field name = pascal.field name := by
  rw [field, field, String.ofList_inj]
  show joined false name.toList = joined true name.toList
  rw [BeginsLow] at h
  revert h
  cases name.toList with
  | nil => exact fun _ => rfl
  | cons c rest =>
    intro h
    by_cases hc : c = '_'
    · -- the first underscore makes the two rules the same
      subst hc
      rfl
    · rw [List.dropWhile_cons, beq_eq_false_iff_ne.mpr hc, if_neg Bool.false_ne_true] at h
      have hCapital : c.isUpper = true := by simpa [hc] using h
      rw [joined_cons hc, joined_cons hc, if_pos rfl, if_neg Bool.false_ne_true,
        toUpper_of_isUpper hCapital]

/-! ## Names in classes -/

/-- Whether a field is a property. -/
def isShown (field : Field) : Bool :=
  field.isPublic && !isSkipped (entries field.attributes "serde")

/-- Whether the value of a variant is up to the rule: the variant has a case, and neither a name nor
a value of its own. -/
structure FollowsRule (variant : Variant) : Prop where
  isShown : isSkipped (entries variant.attributes "serde") = false
  rename : textOf? (entries variant.attributes "serde") "rename" = Option.none
  value : caseValue? (entries variant.attributes "ts") = Option.none

/-- The cases of variants without discriminants, in their order: each with the name that serde gives
it, or else the one that the rule gives. -/
def textCases (rule : Renaming) (variants : List Variant) : List Case :=
  variants.filterMap fun variant => caseWith? variant
    (.text ((textOf? (entries variant.attributes "serde") "rename").getD
      (rule.variant variant.ident.name)))

theorem FollowsRule.mem_textCases {variant : Variant} (h : FollowsRule variant) (rule : Renaming)
    {variants : List Variant} (hMem : variant ∈ variants) :
    ⟨variant.ident.name, .text (rule.variant variant.ident.name)⟩ ∈ textCases rule variants := by
  refine List.mem_filterMap.mpr ⟨variant, hMem, ?_⟩
  rw [caseWith?, h.isShown, h.rename, h.value]
  rfl

theorem enumerationOf?_textual (origin : Origin) (module : Module) {item : EnumItem}
    (hUnit : ∀ variant ∈ item.variants, variant.hasFields = false)
    (hNone : ∀ variant ∈ item.variants, variant.discriminant = Option.none) :
    ∃ c, enumerationOf? origin module item = some c ∧ c.shape = .enumeration
      (textCases (renamingOf (entries item.attributes "serde")) item.variants) := by
  obtain ⟨c, hClass, hShape⟩ := enumerationOf?_unit origin module hUnit
  have hNumeric : item.variants.any (·.discriminant.isSome) = false := by
    rw [List.any_eq_false]
    intro variant hMem
    rw [hNone variant hMem]
    exact Bool.false_ne_true
  rw [hNumeric] at hShape
  refine ⟨c, hClass, hShape.trans (congrArg Shape.enumeration ?_)⟩
  -- the discriminants are counted all the same, but no case shows them
  rw [List.filterMap_congr fun entry _ => caseOf?_eq _ false entry.1 entry.2, textCases]
  conv_rhs => rw [← map_fst_discriminants 0 item.variants, List.filterMap_map]
  rfl

theorem name_of_propertyOf? (module : Module) (rule : Renaming) {field : Field}
    (hRename : isShown field = true →
      textOf? (entries field.attributes "serde") "rename" = Option.none) :
    (propertyOf? module rule field).map Property.name =
      if isShown field then some (rule.field field.ident.name) else Option.none := by
  have hHidden : (!field.isPublic || isSkipped (entries field.attributes "serde")) =
      !isShown field := by
    rw [isShown, Bool.not_and, Bool.not_not]
  rw [propertyOf?, hHidden]
  cases hShown : isShown field with
  | false => rfl
  | true =>
    rw [hRename hShown]
    rfl

theorem recordOf?_names (origin : Origin) (module : Module) {item : StructItem}
    {fields : List Field} (hFields : item.fields = .named fields)
    (hRename : ∀ field ∈ fields, isShown field = true →
      textOf? (entries field.attributes "serde") "rename" = Option.none) :
    ∃ c properties, recordOf? origin module item = some c ∧ c.shape = .record properties ∧
      properties.map Property.name = (fields.filter isShown).map fun field =>
        (renamingOf (entries item.attributes "serde")).field field.ident.name := by
  refine ⟨_, _, by rw [recordOf?, hFields]; rfl, rfl, ?_⟩
  rw [List.map_filterMap, List.filterMap_congr fun field hMem =>
    name_of_propertyOf? module _ (hRename field hMem), ← List.filterMap_filter]
  exact congrFun List.filterMap_eq_map _

theorem camel_variant (name : String) :
    camel.variant name = decapitalized (pascal.variant name) := by
  rw [decapitalized, variant, variant, String.toList_ofList]
  rfl

/-- Camel case is Pascal case with the first character in lower case: for every variant, and for the
fields that begin low.  The names of other fields are the same in both cases.

In a record without names of its own this holds of all its properties just if all of them begin
low, and in an enumeration of every variant whose value is up to the rule. -/
theorem camel_decapitalizes (origin : Origin) (module : Module) (name : String) :
    camel.variant name = decapitalized (pascal.variant name) ∧
    (camel.field name = decapitalized (pascal.field name) ↔ BeginsLow name) ∧
    (¬BeginsLow name → camel.field name = pascal.field name) ∧
    (∀ item : EnumItem, renamingOf (entries item.attributes "serde") = camel →
      (∀ variant ∈ item.variants,
        variant.hasFields = false ∧ variant.discriminant = Option.none) →
      ∃ c, enumerationOf? origin module item = some c ∧
        c.shape = .enumeration (textCases camel item.variants) ∧
        ∀ variant ∈ item.variants, FollowsRule variant →
          ⟨variant.ident.name, .text (decapitalized (pascal.variant variant.ident.name))⟩ ∈
            textCases camel item.variants) ∧
    ∀ (camelItem pascalItem : StructItem) (fields : List Field),
      camelItem.fields = .named fields → pascalItem.fields = .named fields →
      renamingOf (entries camelItem.attributes "serde") = camel →
      renamingOf (entries pascalItem.attributes "serde") = pascal →
      (∀ field ∈ fields, isShown field = true →
        textOf? (entries field.attributes "serde") "rename" = Option.none) →
      ∃ camelRecord pascalRecord camelProperties pascalProperties,
        recordOf? origin module camelItem = some camelRecord ∧
        camelRecord.shape = .record camelProperties ∧
        recordOf? origin module pascalItem = some pascalRecord ∧
        pascalRecord.shape = .record pascalProperties ∧
        (camelProperties.map Property.name =
            (pascalProperties.map Property.name).map decapitalized ↔
          ∀ field ∈ fields, isShown field = true → BeginsLow field.ident.name) := by
  refine ⟨camel_variant name, camel_field_iff name, camel_field_of_not_beginsLow, ?_, ?_⟩
  · intro item hRule hItem
    obtain ⟨c, hClass, hShape⟩ := enumerationOf?_textual origin module
      (fun variant hMem => (hItem variant hMem).1) (fun variant hMem => (hItem variant hMem).2)
    rw [hRule] at hShape
    refine ⟨c, hClass, hShape, fun variant hMem h => ?_⟩
    rw [← camel_variant]
    exact h.mem_textCases camel hMem
  · intro camelItem pascalItem fields hCamelFields hPascalFields hCamel hPascal hRename
    obtain ⟨camelRecord, camelProperties, hCamelClass, hCamelShape, hCamelNames⟩ :=
      recordOf?_names origin module hCamelFields hRename
    obtain ⟨pascalRecord, pascalProperties, hPascalClass, hPascalShape, hPascalNames⟩ :=
      recordOf?_names origin module hPascalFields hRename
    refine ⟨camelRecord, pascalRecord, camelProperties, pascalProperties, hCamelClass, hCamelShape,
      hPascalClass, hPascalShape, ?_⟩
    -- both lists of names come from the same fields, so they agree just if they do name by name
    rw [hCamelNames, hPascalNames, hCamel, hPascal, List.map_map, List.map_inj_left]
    simp only [Function.comp_apply, camel_field_iff, List.mem_filter, and_imp]

/-- The attribute that renames by the rule with a name. -/
def renameAll (rule : String) : Attribute :=
  singleEntry "serde" (.value ⟨false, [plain "rename_all"]⟩ (.literal (.text rule)))

/-- A struct whose public fields begin low, under the rule with a name. -/
def lowStruct (rule : String) : StructItem where
  attributes := [renameAll rule]
  ident := plain "S"
  fields := .named [⟨[], true, plain "user_id", .path [] (plain "u8") []⟩,
    ⟨[], true, plain "__3d__", .path [] (plain "bool") []⟩,
    ⟨[], false, plain "_Hidden", .path [] (plain "bool") []⟩]

theorem low_names_decapitalized :
    ∃ camelRecord pascalRecord camelProperties pascalProperties,
      recordOf? ⟨[], Option.none⟩ ⟨["app"], []⟩ (lowStruct "camelCase") = some camelRecord ∧
      camelRecord.shape = .record camelProperties ∧
      recordOf? ⟨[], Option.none⟩ ⟨["app"], []⟩ (lowStruct "PascalCase") = some pascalRecord ∧
      pascalRecord.shape = .record pascalProperties ∧
      camelProperties.map Property.name =
        (pascalProperties.map Property.name).map decapitalized := by
  obtain ⟨-, -, -, -, hRecords⟩ :=
    camel_decapitalizes ⟨[], Option.none⟩ ⟨["app"], []⟩ "user_id"
  obtain ⟨camelRecord, pascalRecord, camelProperties, pascalProperties, hCamel, hCamelShape,
    hPascal, hPascalShape, hNames⟩ := hRecords (lowStruct "camelCase") (lowStruct "PascalCase") _
      rfl rfl (by decide) (by decide) (by decide)
  exact ⟨camelRecord, pascalRecord, camelProperties, pascalProperties, hCamel, hCamelShape, hPascal,
    hPascalShape, hNames.mpr (by decide)⟩

/-- A struct with a field that begins with an underscore before a letter. -/
def underscoredStruct : StructItem where
  attributes := [renameAll "camelCase"]
  ident := plain "S"
  fields := .named [⟨[], true, plain "_id", .path [] (plain "u8") []⟩]

set_option maxRecDepth 10000 in
theorem parse_underscoredStruct :
    parseFile? "#[serde(rename_all = \"camelCase\")] struct S \x7b pub _id: u8 \x7d" =
      some [.struct underscoredStruct] := by
  have hTokens : tokenizeFile
      "#[serde(rename_all = \"camelCase\")] struct S \x7b pub _id: u8 \x7d".toList =
      some [.punct '#' false,
        .group .bracket [.ident (plain "serde"), .group .parenthesis [.ident (plain "rename_all"),
          .punct '=' false, .literal (.text "camelCase")]],
        .ident (plain "struct"), .ident (plain "S"),
        .group .brace [.ident (plain "pub"), .ident (plain "_id"), .punct ':' false,
          .ident (plain "u8")]] := rfl
  rw [parseFile?, hTokens]
  rfl

/-- A field that begins with an underscore keeps its capital in camel case. -/
theorem underscored_field_capitalized :
    decapitalized (pascal.field "_id") = "id" ∧
    classesOfSource? ⟨[], Option.none⟩ "app"
        "#[serde(rename_all = \"camelCase\")] struct S \x7b pub _id: u8 \x7d" =
      some [{ name := "app::S", line := some 1,
              shape := .record [{ name := "Id", declared := some "int", line := some 1 }] }] := by
  refine ⟨by decide, ?_⟩
  rw [classesOfSource?, parse_underscoredStruct]
  decide

/-! ## Splitting and joining -/

/-- The rules that split a name before its capitals. -/
def splitting : List Renaming :=
  [.snake, .screamingSnake, .kebab, .screamingKebab]

/-- A name in Pascal case: letters and digits of ASCII, the first one a capital. -/
structure IsPascal (name : String) : Prop where
  capital : ∃ c ∈ name.toList.head?, c.isUpper = true
  ascii : ∀ c ∈ name.toList, c.isAlphanum = true

instance (name : String) : Decidable (IsPascal name) :=
  decidable_of_iff (name.toList.head?.any Char.isUpper = true ∧
      name.toList.all Char.isAlphanum = true) <| by
    rw [Option.any_eq_true, List.all_eq_true]
    exact ⟨fun h => ⟨h.1, h.2⟩, fun h => ⟨h.1, h.2⟩⟩

/-- The snake case of a text that is split in any way. -/
def unsplit (text : String) : String :=
  String.ofList (text.toList.map fun c => if c == '-' then '_' else c.toLower)

/-- The characters of snake case. -/
def isSnakeChar (c : Char) : Bool :=
  c.isLower || c.isDigit || c == '_'

theorem ascii_of_isSnakeChar {c : Char} (h : isSnakeChar c = true) : c.toNat < 128 := by
  rw [isSnakeChar, Bool.or_eq_true, Bool.or_eq_true, beq_iff_eq] at h
  rcases h with (hLower | hDigit) | rfl
  · exact ascii_of_isAlpha (Bool.or_eq_true_iff.mpr (.inr hLower))
  · exact ascii_of_isAlphanum (Bool.or_eq_true_iff.mpr (.inr hDigit))
  · decide

/-- A letter or digit is split off in lower case. -/
theorem isSnakeChar_toLower {c : Char} (h : c.isAlphanum = true) :
    isSnakeChar c.toLower = true := by
  exact ascii_induction (motive := fun c => c.isAlphanum = true → isSnakeChar c.toLower = true)
    (by decide +kernel) (ascii_of_isAlphanum h) h

theorem isSnakeChar_of_mem_underscored {name : List Char} (h : ∀ c ∈ name, c.isAlphanum = true) :
    ∀ c ∈ underscored name, isSnakeChar c = true := by
  induction name with
  | nil => simp [underscored]
  | cons first rest ih =>
    intro c hMem
    have hFirst := isSnakeChar_toLower (h first (.head _))
    have hRest := ih fun other hOther => h other (.tail _ hOther)
    rw [underscored] at hMem
    -- a capital gives two characters, any other character one
    split at hMem
    · rcases List.mem_cons.mp hMem with rfl | hMem
      · rfl
      · rcases List.mem_cons.mp hMem with rfl | hMem
        · exact hFirst
        · exact hRest c hMem
    · rcases List.mem_cons.mp hMem with rfl | hMem
      · exact hFirst
      · exact hRest c hMem

theorem isSnakeChar_of_mem_variantSnake {name : List Char} (h : ∀ c ∈ name, c.isAlphanum = true) :
    ∀ c ∈ variantSnake name, isSnakeChar c = true := by
  cases name with
  | nil => simp [variantSnake]
  | cons first rest =>
    intro c hMem
    rcases List.mem_cons.mp hMem with rfl | hMem
    · exact isSnakeChar_toLower (h first (.head _))
    · exact isSnakeChar_of_mem_underscored (fun other hOther => h other (.tail _ hOther)) c hMem

/-- Each of the four splittings determines the snake case. -/
theorem unsplit_variant {rule : Renaming} (hRule : rule ∈ splitting) {name : String}
    (hName : IsPascal name) : unsplit (rule.variant name) = snake.variant name := by
  -- each rule changes the characters of the snake case one by one, so a table of these is enough
  have hChars : ∀ change : Char → Char,
      (∀ n < 128, isSnakeChar (.ofNat n) = true →
        (if change (.ofNat n) == '-' then '_' else (change (.ofNat n)).toLower) = .ofNat n) →
      ((variantSnake name.toList).map change).map (fun c => if c == '-' then '_' else c.toLower) =
        variantSnake name.toList := by
    intro change hCodes
    rw [List.map_map]
    refine (List.map_congr_left fun c hMem => ?_).trans (List.map_id _)
    have hSnake := isSnakeChar_of_mem_variantSnake hName.ascii c hMem
    exact ascii_induction (motive := fun c => isSnakeChar c = true →
      (if change c == '-' then '_' else (change c).toLower) = c) hCodes
      (ascii_of_isSnakeChar hSnake) hSnake
  rw [unsplit, variant, variant, String.toList_ofList, String.ofList_inj]
  simp only [splitting, List.mem_cons, List.not_mem_nil, or_false] at hRule
  rcases hRule with rfl | rfl | rfl | rfl
  -- snake case itself, then upper case, hyphens, and both
  · simpa [variantChars] using hChars id (by decide +kernel)
  · exact hChars Char.toUpper (by decide +kernel)
  · exact hChars (fun c => if c == '_' then '-' else c) (by decide +kernel)
  · have hBoth := hChars ((fun c => if c == '_' then '-' else c) ∘ Char.toUpper) (by decide +kernel)
    rw [← List.map_map] at hBoth
    exact hBoth

theorem toUpper_toLower_of_isUpper {c : Char} (h : c.isUpper = true) :
    c.toLower.toUpper = c ∧ c.toLower ≠ '_' := by
  exact ascii_induction
    (motive := fun c => c.isUpper = true → c.toLower.toUpper = c ∧ c.toLower ≠ '_')
    (by decide +kernel) (ascii_of_isUpper h) h

theorem toLower_of_not_isUpper {c : Char} (h : c.isAlphanum = true) (hOther : c.isUpper = false) :
    c.toLower = c ∧ c ≠ '_' := by
  exact ascii_induction
    (motive := fun c => c.isAlphanum = true → c.isUpper = false → c.toLower = c ∧ c ≠ '_')
    (by decide +kernel) (ascii_of_isAlphanum h) h hOther

/-- Joining the words again gives each capital back. -/
theorem joined_underscored {name : List Char} (h : ∀ c ∈ name, c.isAlphanum = true) :
    joined false (underscored name) = name := by
  induction name with
  | nil => rfl
  | cons c rest ih =>
    have hc := h c (.head _)
    rw [underscored, isUppercase_of_isAlphanum hc]
    cases hCapital : c.isUpper with
    | true =>
      -- the underscore that was put before the capital is dropped and brings it back
      obtain ⟨hUpper, hWord⟩ := toUpper_toLower_of_isUpper hCapital
      rw [if_pos rfl, joined_underscore, joined_cons hWord, if_pos rfl, hUpper,
        ih fun other hOther => h other (.tail _ hOther)]
    | false =>
      obtain ⟨hLower, hWord⟩ := toLower_of_not_isUpper hc hCapital
      rw [if_neg Bool.false_ne_true, hLower, joined_cons hWord, if_neg Bool.false_ne_true,
        ih fun other hOther => h other (.tail _ hOther)]

/-- The Pascal case of a field undoes the snake case of a variant. -/
theorem pascal_snake {name : String} (hName : IsPascal name) :
    pascal.field (snake.variant name) = name := by
  rw [← String.toList_inj, field, variant, String.toList_ofList, String.toList_ofList]
  show joined true (variantSnake name.toList) = name.toList
  obtain ⟨c, hFirst, hCapital⟩ := hName.capital
  obtain ⟨rest, hRest⟩ := List.head?_eq_some_iff.mp hFirst
  have hAscii := hName.ascii
  rw [hRest] at hAscii ⊢
  -- no underscore is put before the first capital, but Pascal case begins with one anyway
  obtain ⟨hUpper, hWord⟩ := toUpper_toLower_of_isUpper hCapital
  rw [variantSnake, joined_cons hWord, if_pos rfl, hUpper,
    joined_underscored fun other hOther => hAscii other (.tail _ hOther)]

/-- No splitting confuses two names. -/
theorem eq_of_variant_eq {rule : Renaming} (hRule : rule ∈ splitting) {name other : String}
    (hName : IsPascal name) (hOther : IsPascal other)
    (hSame : rule.variant name = rule.variant other) : name = other :=
  calc name = pascal.field (snake.variant name) := (pascal_snake hName).symm
    _ = pascal.field (unsplit (rule.variant name)) := by rw [unsplit_variant hRule hName]
    _ = pascal.field (unsplit (rule.variant other)) := by rw [hSame]
    _ = pascal.field (snake.variant other) := by rw [unsplit_variant hRule hOther]
    _ = other := pascal_snake hOther

/-- Splitting a name before its capitals can be undone: a name in Pascal case is the Pascal case of
its snake case, and the other splittings determine the snake case.  In an enumeration under one of
these rules, two variants with such names have different values. -/
theorem splitting_reversible (origin : Origin) (module : Module) {rule : Renaming}
    (hRule : rule ∈ splitting) :
    (∀ name, IsPascal name → pascal.field (snake.variant name) = name ∧
      unsplit (rule.variant name) = snake.variant name) ∧
    ∀ item : EnumItem, renamingOf (entries item.attributes "serde") = rule →
      (∀ variant ∈ item.variants,
        variant.hasFields = false ∧ variant.discriminant = Option.none) →
      ∃ c, enumerationOf? origin module item = some c ∧
        c.shape = .enumeration (textCases rule item.variants) ∧
        (∀ variant ∈ item.variants, FollowsRule variant →
          ⟨variant.ident.name, .text (rule.variant variant.ident.name)⟩ ∈
            textCases rule item.variants) ∧
        ∀ variant ∈ item.variants, ∀ other ∈ item.variants, IsPascal variant.ident.name →
          IsPascal other.ident.name → variant.ident.name ≠ other.ident.name →
          rule.variant variant.ident.name ≠ rule.variant other.ident.name := by
  refine ⟨fun name hName => ⟨pascal_snake hName, unsplit_variant hRule hName⟩, ?_⟩
  intro item hItemRule hItem
  obtain ⟨c, hClass, hShape⟩ := enumerationOf?_textual origin module
    (fun variant hMem => (hItem variant hMem).1) (fun variant hMem => (hItem variant hMem).2)
  rw [hItemRule] at hShape
  refine ⟨c, hClass, hShape, fun variant hMem h => h.mem_textCases rule hMem, ?_⟩
  intro variant _ other _ hName hOther hNe hSame
  exact hNe (eq_of_variant_eq hRule hName hOther hSame)

/-- An enumeration with an acronym, and with the same letters as a word. -/
def acronyms : EnumItem where
  attributes := [renameAll "kebab-case"]
  ident := plain "E"
  variants := [unitVariant [] "HTTPServer2" Option.none, unitVariant [] "HttpServer2" Option.none]

theorem acronyms_reversible :
    kebab ∈ splitting ∧ IsPascal "HTTPServer2" ∧
    pascal.field (snake.variant "HTTPServer2") = "HTTPServer2" ∧
    unsplit (kebab.variant "HTTPServer2") = snake.variant "HTTPServer2" ∧
    ∃ c, enumerationOf? ⟨[], Option.none⟩ ⟨["app"], []⟩ acronyms = some c ∧
      c.shape = .enumeration (textCases kebab acronyms.variants) ∧
      ⟨"HTTPServer2", .text "h-t-t-p-server2"⟩ ∈ textCases kebab acronyms.variants ∧
      kebab.variant "HTTPServer2" ≠ kebab.variant "HttpServer2" := by
  have hRule : kebab ∈ splitting := by decide
  have hName : IsPascal "HTTPServer2" := by decide
  have hOther : IsPascal "HttpServer2" := by decide
  obtain ⟨hNames, hClasses⟩ :=
    splitting_reversible ⟨[], Option.none⟩ ⟨["app"], []⟩ hRule
  obtain ⟨hJoined, hSplit⟩ := hNames _ hName
  obtain ⟨c, hClass, hShape, hMem, hDistinct⟩ := hClasses acronyms (by decide) (by decide)
  have hCase := hMem (unitVariant [] "HTTPServer2" Option.none) (.head _) ⟨rfl, rfl, rfl⟩
  have hText : kebab.variant "HTTPServer2" = "h-t-t-p-server2" := by decide
  refine ⟨hRule, hName, hJoined, hSplit, c, hClass, hShape, hText ▸ hCase, ?_⟩
  exact hDistinct (unitVariant [] "HTTPServer2" Option.none) (.head _)
    (unitVariant [] "HttpServer2" Option.none) (.tail _ (.head _)) hName hOther (by decide)

end Renaming

end Ambient.Extraction
