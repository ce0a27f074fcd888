import FlowService.Json.Basic

/-!
A numeral is read as a significand of at most 64 bits and a power of ten, and the double comes from
one rounded product or quotient of the two.
-/

namespace FlowService.Json

/-- A number as it is written in JSON. -/
structure Numeral where
  negative : Bool
  /-- The digits before the point. -/
  whole : List Nat
  /-- The digits behind the point, when there is one. -/
  fraction : Option (List Nat)
  /-- Whether the exponent is negative, and its digits, when there is one. -/
  exponent : Option (Bool × List Nat)
  deriving DecidableEq, Repr, Inhabited

namespace Numeral

/-- Takes digits into a significand while it fits in 64 bits, and gives back the others. -/
def gather (significand : Nat) : List Nat → Nat × List Nat
  | [] => (significand, [])
  | digit :: later =>
    if significand * 10 + digit < UInt64.size then gather (significand * 10 + digit) later
    else (significand, digit :: later)

/-- The number that digits spell. -/
def digitsValue (digits : List Nat) : Nat :=
  digits.foldl (fun value digit => value * 10 + digit) 0

/-- The largest exponent that counts as a number. -/
def exponentLimit : Nat := UInt32.size / 2 - 1

/-- The powers of ten up to this one are doubles to multiply and divide by. -/
def powerLimit : Nat := 308

/-- The double nearest to a power of ten. -/
def powerOfTen? (exponent : Nat) : Option Double := Double.ofNat? (Nat.pow 10 exponent)

/-- Multiplies by a power of ten; none when the result is too large. -/
def scaleUp? (value : Double) (exponent : Nat) : Option Double :=
  if value.significand = 0 then some value
  else if powerLimit < exponent then none
  else (powerOfTen? exponent).bind value.multiply?

/-- Divides by a power of ten after so many divisions by the largest one; zero stays as it is. -/
def scaleDown? (value : Double) (exponent : Nat) : Nat → Option Double
  | 0 => (powerOfTen? exponent).bind value.divide?
  | steps + 1 =>
    if value.significand = 0 then some value
    else do
      let divisor ← powerOfTen? powerLimit
      let smaller ← value.divide? divisor
      scaleDown? smaller (exponent - powerLimit) steps

/-- How many divisions by the largest power come before the last one. -/
def stepsDown (exponent : Nat) : Nat := (exponent - 1) / powerLimit

/-- A significand times a power of ten. -/
def scale? (significand : Nat) (exponent : Int) : Option Double := do
  let value ← Double.ofNat? significand
  if 0 ≤ exponent then scaleUp? value exponent.toNat
  else scaleDown? value (-exponent).toNat (stepsDown (-exponent).toNat)

/-- Gives a double the sign of its numeral. -/
def signed (numeral : Numeral) (value : Double) : Double :=
  if numeral.negative then value.negate else value

/-- The double that a numeral with a fraction, an exponent or too many digits stands for. -/
def double? (numeral : Numeral) : Option Double :=
  -- Whole digits beyond the significand count as powers of ten, and fraction digits not at all.
  let (front, dropped) := gather 0 numeral.whole
  let fraction := numeral.fraction.getD []
  let (significand, ignored) := gather front fraction
  let before : Int := (dropped.length : Int) - (fraction.length - ignored.length : Nat)
  let value := match numeral.exponent with
    | none => scale? significand before
    | some (negative, digits) =>
      let exponent := digitsValue digits
      if exponentLimit < exponent then
        if significand ≠ 0 ∧ !negative then none else some (Double.zero false)
      else scale? significand (if negative then before - exponent else before + exponent)
  value.map numeral.signed

/-- Whether a numeral is written without fraction and exponent and fits in 64 bits; the negative
zero does not count. -/
def isInteger (numeral : Numeral) : Bool :=
  let value := digitsValue numeral.whole
  numeral.fraction.isNone && numeral.exponent.isNone &&
    (if numeral.negative then 0 < value && value ≤ UInt64.size / 2
    else value < UInt64.size)

/-- The value of a numeral; none when it is too large for a double. -/
def value? (numeral : Numeral) : Option Json :=
  if numeral.isInteger then
    let value : Int := digitsValue numeral.whole
    some (.integer (if numeral.negative then -value else value))
  else numeral.double?.map .double

end Numeral

end FlowService.Json
