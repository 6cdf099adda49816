import ChipEight.Decimal.Numeral

/-!
# Single precision from decimal text

A decimal stands for the single precision number nearest to it; of two that are equally
near, for the one with the even last bit. Numbers are given by their 32 bits.
-/
namespace ChipEight.Decimal

/-- Bits of a single precision number. -/
abbrev Binary32 := UInt32

namespace Binary32

def infinity : Binary32 := 0x7F800000

def notANumber : Binary32 := 0x7FC00000

/-- The exponent bits are set and the fraction is not zero. -/
def isNaN (bits : Binary32) : Bool := decide (infinity < bits &&& 0x7FFFFFFF)

/-- Sets the sign of a number without one. -/
def signed (negative : Bool) (bits : Binary32) : Binary32 :=
  if negative then bits ||| 0x80000000 else bits

/-- Whole number nearest to `num / den`; a half goes to the even neighbour. -/
def roundHalfEven (num den : Nat) : Nat :=
  let quotient := num / den
  let twice := 2 * (num % den)
  if twice < den then quotient
  else if twice = den ∧ quotient % 2 = 0 then quotient
  else quotient + 1

/-- Says whether `2 ^ e` is at most `num / den`. -/
def reaches (num den : Nat) (e : Int) : Bool :=
  if 0 ≤ e then decide (den * Nat.pow 2 e.toNat ≤ num)
  else decide (den ≤ num * Nat.pow 2 (-e).toNat)

/-- Greatest exponent whose power of two is at most the positive quotient `num / den`. -/
def leadingExponent (num den : Nat) : Int :=
  let guess : Int := (num.log2 : Int) - den.log2
  if reaches num den guess then guess else guess - 1

/-- Bits of the number nearest to the positive quotient `num / den`. The quotient is
counted in units of the last place, of which there are at most `2 ^ 24`; the count
carries into the exponent by itself. -/
def ofQuotient (num den : Nat) : Binary32 :=
  let unit : Int := max (-149) (leadingExponent num den - 23)
  let count :=
    if 0 ≤ unit then roundHalfEven num (den * Nat.pow 2 unit.toNat)
    else roundHalfEven (num * Nat.pow 2 (-unit).toNat) den
  UInt32.ofNat (min infinity.toNat ((unit + 149).toNat * 8388608 + count))

/-- Bits of the number nearest to a decimal. Past forty places before the point every
decimal rounds to infinity, and past forty-six behind it to zero. -/
def ofScientific (value : Scientific) : Binary32 :=
  let places : Int := (Nat.toDigits 10 value.coefficient).length + value.exponent
  if value.coefficient = 0 ∨ places ≤ -46 then 0
  else if 40 ≤ places then infinity
  else if 0 ≤ value.exponent then
    ofQuotient (value.coefficient * Nat.pow 10 value.exponent.toNat) 1
  else ofQuotient value.coefficient (Nat.pow 10 (-value.exponent).toNat)

/-- A number without sign: a decimal, or a name in any case. -/
def readMagnitude? (cs : List Char) : Option Binary32 :=
  let name := String.ofList (cs.map Char.toLower)
  if name = "inf" ∨ name = "infinity" then some infinity
  else if name = "nan" then some notANumber
  else (readScientific? cs).map ofScientific

/-- A number with or without sign. -/
def read? (text : String) : Option Binary32 :=
  let (negative, cs) := splitSign text.toList
  (readMagnitude? cs).map (signed negative)

end Binary32

end ChipEight.Decimal
