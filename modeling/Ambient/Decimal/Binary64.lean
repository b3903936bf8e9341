/-!
# Binary64 numbers

The double-precision numbers as data: sign, significand and binary exponent, so that what is read
and what is written can be reasoned about in exact arithmetic.  Reading rounds a decimal to the
nearest double, a tie to the even significand.
-/

namespace Ambient

/-- A double: `finite n m q` is `m · 2 ^ q`, negative where `n` holds.  The values built here keep
`m < 2 ^ 53` and `-1074 ≤ q`, with `2 ^ 52 ≤ m` unless `q = -1074`. -/
inductive Binary64
  | nan
  | infinity (negative : Bool)
  | finite (negative : Bool) (significand : Nat) (exponent : Int)
  deriving DecidableEq, Repr, Inhabited

namespace Binary64

def twoTo (n : Nat) : Nat := Nat.pow 2 n

def tenTo (n : Nat) : Nat := Nat.pow 10 n

/-- The least significand wherever the exponent is not the smallest one. -/
def leastSignificand : Nat := twoTo 52

/-- The least number that is too large for a significand. -/
def significandLimit : Nat := twoTo 53

def minExponent : Int := -1074

def maxExponent : Int := 971

/-- The quotient of two numbers rounded to the nearest integer, a tie to the even one. -/
def roundQuotient (num den : Nat) : Nat :=
  let floor := num / den
  let twice := 2 * (num % den)
  if twice < den then floor
  else if den < twice then floor + 1
  else if floor % 2 == 0 then floor else floor + 1

/-- `num / den · 2 ^ -exponent` as a fraction. -/
def scaled (num den : Nat) (exponent : Int) : Nat × Nat :=
  match exponent with
  | .ofNat n => (num, den * twoTo n)
  | .negSucc n => (num * twoTo (n + 1), den)

/-- The exponent at which the significand of `num / den` has 53 bits, or the least one. -/
def exponentOf (num den : Nat) : Int :=
  let estimate : Int := max minExponent ((num.log2 : Int) - den.log2 - 53)
  let (n, d) := scaled num den estimate
  if significandLimit ≤ n / d then estimate + 1 else estimate

/-- The double nearest to `num / den`, both positive. -/
def nearest (negative : Bool) (num den : Nat) : Binary64 :=
  let exponent := exponentOf num den
  let (n, d) := scaled num den exponent
  let significand := roundQuotient n d
  let (significand, exponent) :=
    if significand == significandLimit then (leastSignificand, exponent + 1)
    else (significand, exponent)
  if maxExponent < exponent then .infinity negative
  else .finite negative significand exponent

/-- The double nearest to `digits · 10 ^ exponent`.  Magnitudes far outside the range are decided
by their number of digits, so that no huge power is computed. -/
def ofDecimal (negative : Bool) (digits : Nat) (exponent : Int) : Binary64 :=
  if digits == 0 then .finite negative 0 minExponent
  else
    let magnitude : Int := exponent + (Nat.toDigits 10 digits).length
    if 400 < magnitude then .infinity negative
    else if magnitude < -400 then .finite negative 0 minExponent
    else match exponent with
      | .ofNat n => nearest negative (digits * tenTo n) 1
      | .negSucc n => nearest negative digits (tenTo (n + 1))

def neg : Binary64 → Binary64
  | .nan => .nan
  | .infinity negative => .infinity !negative
  | .finite negative significand exponent => .finite (!negative) significand exponent

def digitsValue (digits : List Char) : Nat :=
  digits.foldl (fun value c => value * 10 + (c.toNat - '0'.toNat)) 0

/-- Drops a leading sign and says whether it was a minus. -/
def signed : List Char → Bool × List Char
  | '-' :: rest => (true, rest)
  | '+' :: rest => (false, rest)
  | text => (false, text)

/-- The exponent part `e-5` of a decimal; an absent one is zero. -/
def exponentPart? (text : List Char) : Option Int :=
  match text with
  | [] => some 0
  | c :: rest =>
    if c == 'e' || c == 'E' then
      let (negative, digits) := signed rest
      if digits.isEmpty || !digits.all Char.isDigit then none
      else some (if negative then -(digitsValue digits : Int) else digitsValue digits)
    else none

/-- The double written as digits with an optional point and an optional exponent; at least one
digit stands before or after the point. -/
def ofDigits? (negative : Bool) (text : List Char) : Option Binary64 :=
  let whole := text.takeWhile Char.isDigit
  let rest := text.dropWhile Char.isDigit
  let (fraction, rest) :=
    match rest with
    | '.' :: rest => (rest.takeWhile Char.isDigit, rest.dropWhile Char.isDigit)
    | rest => ([], rest)
  if whole.isEmpty && fraction.isEmpty then none
  else (exponentPart? rest).map fun exponent =>
    ofDecimal negative (digitsValue (whole ++ fraction)) (exponent - fraction.length)

/-- Reads a decimal, `inf`, `infinity` or `nan`, in any letter case and with an optional sign. -/
def parse? (text : List Char) : Option Binary64 :=
  let (negative, rest) := signed text
  match String.ofList (rest.map Char.toLower) with
  | "inf" => some (.infinity negative)
  | "infinity" => some (.infinity negative)
  | "nan" => some .nan
  | _ => ofDigits? negative rest

end Binary64

end Ambient
