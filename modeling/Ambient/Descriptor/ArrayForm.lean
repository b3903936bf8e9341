import Ambient.Fault
import Ambient.Spelling
import Ambient.Text.Brackets
import Ambient.TsType

/-!
# Array forms

The atoms of a descriptor that denote containers:

* `T[]` and `(A|B)[]`, a list of what stands before the brackets;
* `list<T>` and `non-empty-list<T>`;
* `array<K, V>`, a list when all keys are `int` and otherwise a map from strings.

Generic names are read in any letter case.  An atom of one of these shapes is an array form even if
it has no meaning; it is then *malformed*, and so is the bare word `array`.  One step of reading
finds the container and the text of its element, which is always shorter than the atom.
-/

namespace Ambient.Descriptor

open Text

inductive ArrayForm
  | malformed (reason : Reason)
  | container (kind : ContainerKind) (element : List Char)
  deriving DecidableEq, Repr

def isGenericLetter (c : Char) : Bool :=
  Spelling.isLetter c || c == '-'

/-- The name and the argument text of `name<arguments>`. -/
def generic? (atom : List Char) : Option (List Char × List Char) :=
  let name := atom.takeWhile (· != '<')
  match atom.dropWhile (· != '<') with
  | [] => none
  | _ :: rest =>
    if rest.getLast? == some '>' && !name.isEmpty && name.all isGenericLetter then
      some (name, rest.dropLast)
    else none

/-- What stands before a final `[]`. -/
def beforeBrackets? (atom : List Char) : Option (List Char) :=
  match atom.reverse with
  | ']' :: '[' :: rest => some rest.reverse
  | _ => none

/-- Whether a closing parenthesis comes before its opening one, with `depth` parentheses open. -/
def closesEarly : Nat → List Char → Bool
  | _, [] => false
  | depth, '(' :: rest => closesEarly (depth + 1) rest
  | 0, ')' :: _ => true
  | depth + 1, ')' :: rest => closesEarly depth rest
  | depth, _ :: rest => closesEarly depth rest

/-- Drops one pair of parentheses that encloses the whole text, and the blanks within it. -/
def unwrap (text : List Char) : List Char :=
  match text with
  | '(' :: rest =>
    if rest.getLast? == some ')' && !closesEarly 0 rest.dropLast then trim rest.dropLast else text
  | _ => text

/-- The container that the key type of `array<K, V>` asks for. -/
def keyed? (key : List Char) : Option ContainerKind :=
  let words := (parts '|' key).map String.ofList
  if words.isEmpty || !words.all (· ∈ ["int", "string", "array-key"]) then none
  else if words.all (· == "int") then some .list
  else some .stringMap

def singleArgument (kind : ContainerKind) (arguments : List Char) : ArrayForm :=
  match parts ',' arguments with
  | [element] => .container kind element
  | _ => .malformed .oneArgumentExpected

def keyAndValue (arguments : List Char) : ArrayForm :=
  match parts ',' arguments with
  | [key, value] =>
    match keyed? key with
    | some kind => .container kind value
    | none => .malformed .unsupportedArrayKey
  | _ => .malformed .twoArgumentsExpected

/-- The reading of `name<arguments>`. -/
def ofGeneric (name arguments : List Char) : ArrayForm :=
  match String.ofList (name.map Char.toLower) with
  | "list" => singleArgument .list arguments
  | "non-empty-list" => singleArgument .nonEmptyList arguments
  | "array" => keyAndValue arguments
  | _ => .malformed .unsupportedArray

/-- Reads an atom as an array form, if it has the shape of one. -/
def arrayForm? (atom : List Char) : Option ArrayForm :=
  match beforeBrackets? atom with
  | some inner =>
    let element := unwrap (trim inner)
    some (if element.isEmpty then .malformed .unsupportedArray else .container .list element)
  | none =>
    match generic? atom with
    | some (name, arguments) => some (ofGeneric name arguments)
    | none =>
      if String.ofList atom == "array" then some (.malformed .unsupportedArray) else none

/-- Whether an atom has the shape of an array form. -/
def isArrayForm (atom : List Char) : Bool :=
  (arrayForm? atom).isSome

/-! ## Elements are shorter than their atoms -/

theorem length_unwrap_le (text : List Char) : (unwrap text).length ≤ text.length := by
  unfold unwrap
  split
  · rename_i rest
    split
    · refine Nat.le_trans (length_trim_le _) ?_
      simp only [List.length_dropLast, List.length_cons]
      omega
    · exact Nat.le_refl _
  · exact Nat.le_refl _

theorem length_beforeBrackets? {atom inner : List Char} (h : beforeBrackets? atom = some inner) :
    inner.length < atom.length := by
  unfold beforeBrackets? at h
  split at h
  · rename_i rest hr
    have : atom.length = atom.reverse.length := List.length_reverse.symm
    rw [this, hr]
    simp only [Option.some.injEq] at h
    subst h
    simp only [List.length_reverse, List.length_cons]
    omega
  · contradiction

theorem length_generic? {atom name arguments : List Char}
    (h : generic? atom = some (name, arguments)) : arguments.length < atom.length := by
  unfold generic? at h
  split at h
  · contradiction
  · rename_i c rest hr
    dsimp only at h
    split at h
    · simp only [Option.some.injEq, Prod.mk.injEq] at h
      obtain ⟨-, rfl⟩ := h
      have hle : (c :: rest).length ≤ atom.length :=
        hr ▸ (List.dropWhile_sublist _).length_le
      simp only [List.length_dropLast, List.length_cons] at hle ⊢
      omega
    · contradiction

theorem length_ofGeneric {name arguments element : List Char} {kind : ContainerKind}
    (h : ofGeneric name arguments = .container kind element) :
    element.length ≤ arguments.length := by
  have single : ∀ k, singleArgument k arguments = .container kind element →
      element.length ≤ arguments.length := by
    intro k hk
    unfold singleArgument at hk
    split at hk
    · rename_i part hp
      simp only [ArrayForm.container.injEq] at hk
      obtain ⟨-, rfl⟩ := hk
      have : part ∈ parts ',' arguments := by rw [hp]; exact List.mem_cons_self ..
      exact length_le_of_mem_parts this
    · contradiction
  -- lists hold their only argument, arrays the second of two
  unfold ofGeneric at h
  split at h
  · exact single _ h
  · exact single _ h
  · unfold keyAndValue at h
    split at h
    · rename_i key value hp
      split at h
      · simp only [ArrayForm.container.injEq] at h
        obtain ⟨-, rfl⟩ := h
        have : value ∈ parts ',' arguments := by rw [hp]; simp
        exact length_le_of_mem_parts this
      · contradiction
    · contradiction
  · contradiction

/-- The element of a container is shorter than the atom it is read from. -/
theorem length_element_lt {atom element : List Char} {kind : ContainerKind}
    (h : arrayForm? atom = some (.container kind element)) : element.length < atom.length := by
  -- either the brackets behind the element are left out, or the name before it
  unfold arrayForm? at h
  split at h
  · rename_i inner hi
    simp only [Option.some.injEq] at h
    split at h
    · contradiction
    · simp only [ArrayForm.container.injEq] at h
      obtain ⟨-, rfl⟩ := h
      exact Nat.lt_of_le_of_lt
        (Nat.le_trans (length_unwrap_le _) (length_trim_le _)) (length_beforeBrackets? hi)
  · split at h
    · rename_i name arguments hg
      simp only [Option.some.injEq] at h
      exact Nat.lt_of_le_of_lt (length_ofGeneric h) (length_generic? hg)
    · split at h <;> simp at h

end Ambient.Descriptor
