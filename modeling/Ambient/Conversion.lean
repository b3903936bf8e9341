import Ambient.Descriptor.Resolution
import Ambient.Rendering
import Ambient.Replacements
import Ambient.Registry

/-!
# Conversion of descriptors

What a descriptor means in TypeScript.  A conversion gives a type or fails, and on the way *asks*
for the classes it refers to, so that they get declared as well; what was asked for before a
failure has been asked for.

An alternative is read by the first rule that applies: a literal or template marker of the
property, a replacement for the whole atom, an array form, a keyword, a class.  What is none of
these is `unknown`.
-/

namespace Ambient

/-- The outcome of a conversion, with the names it asked for, in order. -/
structure Conversion (α : Type) where
  asks : List String
  outcome : Except Failure α

namespace Conversion

instance : Monad Conversion where
  pure value := ⟨[], .ok value⟩
  bind conversion next :=
    match conversion.outcome with
    | .error failure => ⟨conversion.asks, .error failure⟩
    | .ok value => ⟨conversion.asks ++ (next value).asks, (next value).outcome⟩

def fail {α : Type} (failure : Failure) : Conversion α :=
  ⟨[], .error failure⟩

/-- A conversion that asks for a class and gives a value. -/
def ask {α : Type} (name : String) (value : α) : Conversion α :=
  ⟨[name], .ok value⟩

def ofExcept {α : Type} (outcome : Except Fault α) : Conversion α :=
  ⟨[], outcome.mapError .unresolved⟩

/-! ## Conversions in a row -/

variable {α β : Type}

@[simp] theorem pure_eq (value : α) : (pure value : Conversion α) = ⟨[], .ok value⟩ := rfl

theorem bind_of_error {conversion : Conversion α} {failure : Failure}
    (h : conversion.outcome = .error failure) (next : α → Conversion β) :
    conversion >>= next = ⟨conversion.asks, .error failure⟩ := by
  show (match conversion.outcome with
    | .error failure => (⟨conversion.asks, .error failure⟩ : Conversion β)
    | .ok value => ⟨conversion.asks ++ (next value).asks, (next value).outcome⟩) = _
  rw [h]

theorem bind_of_ok {conversion : Conversion α} {value : α} (h : conversion.outcome = .ok value)
    (next : α → Conversion β) :
    conversion >>= next =
      ⟨conversion.asks ++ (next value).asks, (next value).outcome⟩ := by
  show (match conversion.outcome with
    | .error failure => (⟨conversion.asks, .error failure⟩ : Conversion β)
    | .ok value => ⟨conversion.asks ++ (next value).asks, (next value).outcome⟩) = _
  rw [h]

theorem id_map_eq (conversion : Conversion α) : id <$> conversion = conversion := by
  obtain ⟨asks, outcome⟩ := conversion
  cases outcome with
  | error failure => rfl
  | ok value => exact congrArg (Conversion.mk · _) (List.append_nil asks)

theorem bind_assoc_eq {γ : Type} (conversion : Conversion α) (next : α → Conversion β)
    (last : β → Conversion γ) :
    conversion >>= next >>= last = conversion >>= fun value => next value >>= last := by
  -- a failure is final, so the place of the first one decides what is compared
  cases h : conversion.outcome with
  | error failure =>
    rw [bind_of_error h, bind_of_error h, bind_of_error rfl]
  | ok value =>
    rw [bind_of_ok h, bind_of_ok h]
    cases hNext : (next value).outcome with
    | error failure => rw [bind_of_error rfl, bind_of_error hNext]
    | ok value' => rw [bind_of_ok rfl, bind_of_ok hNext, List.append_assoc]

instance : LawfulMonad Conversion :=
  LawfulMonad.mk' Conversion id_map_eq (fun _ _ => rfl) bind_assoc_eq

@[simp] theorem asks_map (f : α → β) (conversion : Conversion α) :
    (f <$> conversion).asks = conversion.asks := by
  rw [map_eq_pure_bind]
  cases h : conversion.outcome with
  | error failure => rw [bind_of_error h]
  | ok value => rw [bind_of_ok h, pure_eq, List.append_nil]

end Conversion

/-- How the words of a descriptor are read: the property it belongs to, the replacements that
apply, and the meaning of the words that are no keywords. -/
structure Reading where
  scope : Option Scope
  replacements : Replacements
  named : String → Conversion TsType

namespace Reading

/-- The type that a marker fixes for every alternative: a literal before a template. -/
def marked? (scope : Option Scope) : Option TsType :=
  scope.bind fun scope =>
    match scope.property.literal? with
    | some value => some (.raw (Spelling.literal value))
    | none => scope.property.template?.map fun pattern => .raw (Spelling.template pattern)

/-- The type that stands for an atom whatever its form: that of a marker, or a replacement. -/
def override? (reading : Reading) (atom : String) : Option TsType :=
  match marked? reading.scope with
  | some type => some type
  | none => (Table.find? reading.replacements atom).map .raw

def fault (reading : Reading) (reason : Reason) (atom : String) : Conversion TsType :=
  .fail (.unresolved
    { reason := reason, text := atom, location := reading.scope.map Scope.location })

def keyword? (word : String) : Option Scalar :=
  match word with
  | "int" => some .number
  | "float" => some .number
  | "string" => some .string
  | "bool" => some .boolean
  | "object" => some .object
  | "mixed" => some .any
  | "null" => some .null
  | "true" => some .true
  | "false" => some .false
  | _ => none

def inexpressible : List String :=
  ["void", "never", "callable", "iterable", "resource"]

def word (reading : Reading) (atom : String) : Conversion TsType :=
  match keyword? atom with
  | some keyword => pure (.scalar keyword)
  | none =>
    if atom ∈ inexpressible then reading.fault .unsupportedKeyword atom
    else reading.named atom

/-- Lets `null` into a type on request. -/
def nullableIf (nullable : Bool) (type : TsType) : TsType :=
  if nullable then type.nullable else type

mutual

def alternative (reading : Reading) : Alternative → Conversion TsType
  | .empty => pure .unknown
  | .word nullable atom =>
    nullableIf nullable <$>
      match reading.override? atom with
      | some type => pure type
      | none => reading.word atom
  | .malformed nullable atom reason =>
    nullableIf nullable <$>
      match reading.override? atom with
      | some type => pure type
      | none => reading.fault reason atom
  | .container nullable atom kind element =>
    nullableIf nullable <$>
      match reading.override? atom with
      | some type => pure type
      | none =>
        (fun types => .container kind (.ofAlternatives types)) <$> reading.alternatives element

def alternatives (reading : Reading) : List Alternative → Conversion (List TsType)
  | [] => pure []
  | first :: rest => do
    let type ← reading.alternative first
    let types ← reading.alternatives rest
    pure (type :: types)

end

/-- Converts a descriptor: a single alternative stands for itself, several form a union, and none
says nothing. -/
def convert (reading : Reading) (descriptor : Descriptor) : Conversion TsType :=
  .ofAlternatives <$> reading.alternatives descriptor

end Reading

/-- How the descriptor of a property is read.  `named` is the meaning of class names, in properties
that are expanded in place and in others. -/
def Reading.ofProperty (replacements : Replacements) (named : Bool → String → Conversion TsType)
    (owner : Class) (property : Property) : Reading :=
  { scope := some ⟨property, owner⟩
    replacements := replacements
    named := named property.isInline }

def convertProperty (replacements : Replacements) (named : Bool → String → Conversion TsType)
    (owner : Class) (property : Property) : Conversion TsType := do
  let text ← Conversion.ofExcept (Descriptor.resolve property owner)
  (Reading.ofProperty replacements named owner property).convert (Descriptor.parse text)

/-- Converts properties one after the other; of two with the same name the first gives the type. -/
def convertProperties (replacements : Replacements) (named : Bool → String → Conversion TsType)
    (owner : Class) (properties : List Property) : Conversion (Table TsType) := do
  let entries ← properties.mapM fun property =>
    (property.name, ·) <$> convertProperty replacements named owner property
  pure (Table.ofFirst entries)

section Properties

variable {replacements : Replacements} {named : Bool → String → Conversion TsType} {owner : Class}
  {property : Property}

theorem convertProperty_of_ok {text : List Char}
    (h : Descriptor.resolve property owner = .ok text) :
    convertProperty replacements named owner property =
      (Reading.ofProperty replacements named owner property).convert (Descriptor.parse text) := by
  rw [convertProperty, h]
  exact pure_bind text _

theorem convertProperty_of_error {fault : Fault}
    (h : Descriptor.resolve property owner = .error fault) :
    convertProperty replacements named owner property = .fail (.unresolved fault) := by
  rw [convertProperty, h]
  rfl

end Properties

end Ambient
