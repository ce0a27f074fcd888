/-!
Doubles are whole numbers of at most 53 bits times a power of two, and every operation rounds its
exact result to the nearest of them.
-/

namespace FlowService

/-- A finite double: a significand times a power of two, with a sign. -/
structure Double where
  negative : Bool
  significand : Nat
  exponent : Int
  deriving DecidableEq, Repr, Inhabited

namespace Double

/-- The least exponent, that of zero and of the smallest doubles. -/
def leastExponent : Int := -1074

/-- The exponent of the largest doubles. -/
def greatestExponent : Int := 971

/-- A power of two. -/
def power (exponent : Nat) : Nat := Nat.pow 2 exponent

/-- The least significand of 53 bits. -/
def leastNormal : Nat := power 52

/-- Zero, with a sign of its own. -/
def zero (negative : Bool) : Double := ⟨negative, 0, leastExponent⟩

/-- A quotient times a power of two as a quotient alone. -/
def scaled (numerator denominator : Nat) (exponent : Int) : Nat × Nat :=
  if 0 ≤ exponent then (numerator * power exponent.toNat, denominator)
  else (numerator, denominator * power (-exponent).toNat)

/-- The exponent at which a quotient has a significand of 53 bits, or the least one. -/
def exponentOf (numerator denominator : Nat) : Int :=
  -- The bit lengths leave two exponents to choose from.
  let guess : Int := (numerator.log2 : Int) - denominator.log2 - 52
  let (above, below) := scaled numerator denominator (-guess)
  max leastExponent (if above / below < leastNormal then guess - 1 else guess)

/-- The whole number nearest to a quotient; a tie goes to the even one. -/
def nearestWhole (numerator denominator : Nat) : Nat :=
  let quotient := numerator / denominator
  let rest := numerator % denominator
  if denominator < 2 * rest ∨ (denominator = 2 * rest ∧ quotient % 2 = 1) then quotient + 1
  else quotient

/-- The double nearest to a quotient; none when the quotient is too large. -/
def nearest? (negative : Bool) (numerator denominator : Nat) : Option Double :=
  if numerator = 0 then some (zero negative)
  else
    let exponent := exponentOf numerator denominator
    let (above, below) := scaled numerator denominator (-exponent)
    let whole := nearestWhole above below
    -- Rounding up may add a bit to the significand.
    let (significand, exponent) :=
      if whole = 2 * leastNormal then (leastNormal, exponent + 1) else (whole, exponent)
    if greatestExponent < exponent then none else some ⟨negative, significand, exponent⟩

/-- The double nearest to a whole number. -/
def ofNat? (value : Nat) : Option Double := nearest? false value 1

/-- The product of two doubles; none when it is too large. -/
def multiply? (left right : Double) : Option Double :=
  let (above, below) :=
    scaled (left.significand * right.significand) 1 (left.exponent + right.exponent)
  nearest? (left.negative != right.negative) above below

/-- The quotient of two doubles; none when it is too large or the divisor is zero. -/
def divide? (left right : Double) : Option Double :=
  if right.significand = 0 then none
  else
    let (above, below) :=
      scaled left.significand right.significand (left.exponent - right.exponent)
    nearest? (left.negative != right.negative) above below

/-- The double with the other sign. -/
def negate (value : Double) : Double := { value with negative := !value.negative }

/-- The 64 bits in which a double is stored. -/
def bits (value : Double) : UInt64 :=
  let sign := if value.negative then power 63 else 0
  let magnitude :=
    if value.significand < leastNormal then value.significand
    else (value.exponent + 1075).toNat * leastNormal + (value.significand - leastNormal)
  (sign + magnitude).toUInt64

end Double

end FlowService
