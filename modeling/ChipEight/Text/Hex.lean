/-!
# Hexadecimal text

Numerals of base sixteen, in lower or upper case and padded with zeros on the
left to a least width.
-/
namespace ChipEight.Hex

/-- Puts zeros in front of `digits` up to `width` digits; longer ones stay as they are. -/
def pad (width : Nat) (digits : List Char) : List Char :=
  List.replicate (width - digits.length) '0' ++ digits

/-- Lower-case numeral of at least `width` digits. -/
def lower (width n : Nat) : String :=
  String.ofList (pad width (Nat.toDigits 16 n))

/-- Upper-case numeral of at least `width` digits. -/
def upper (width n : Nat) : String :=
  String.ofList (pad width ((Nat.toDigits 16 n).map Char.toUpper))

/-- Value of one hexadecimal digit of either case. -/
def digit? (c : Char) : Option Nat :=
  if '0' ≤ c ∧ c ≤ '9' then some (c.toNat - '0'.toNat)
  else if 'a' ≤ c ∧ c ≤ 'f' then some (c.toNat - 'a'.toNat + 10)
  else if 'A' ≤ c ∧ c ≤ 'F' then some (c.toNat - 'A'.toNat + 10)
  else none

end ChipEight.Hex
