import ChipEight.Text.Hex

/-!
# Instruction words

A word holds four nibbles. Instructions take their operands from fixed places in
it: an address from the low three nibbles, a byte from the low two, a small number
from the last, and registers from the second and the third. Addresses keep sixteen
bits, so that numbers that were not cut out of a word can be written too.
-/
namespace ChipEight

abbrev Word := UInt16

/-- One of the sixteen general registers. -/
abbrev Register := Fin 16

namespace Register

/-- The register named by the low nibble of `n`. -/
def ofNibble (n : Nat) : Register := ⟨n % 16, Nat.mod_lt n (by decide)⟩

/-- The register with exactly the number `n`. -/
def ofNumber? (n : Nat) : Option Register :=
  if h : n < 16 then some ⟨n, h⟩ else none

/-- The first register, which indexed calls add to their target. -/
def first : Register := ⟨0, by decide⟩

/-- The last register, which arithmetic writes its carry to. -/
def flag : Register := ⟨15, by decide⟩

/-- Name in assembly text. -/
def name (r : Register) : String := "V" ++ Hex.upper 1 r.val

/-- Name in dumps. -/
def dump (r : Register) : String := "V" ++ Hex.lower 1 r.val

end Register

namespace Word

/-- Number whose big-endian bytes are `bytes`. -/
def ofBytes (bytes : List UInt8) : Word :=
  bytes.foldl (fun word byte => word * 256 + byte.toUInt16) 0

/-- The low twelve bits. -/
def address (w : Word) : UInt16 := UInt16.ofNat (w.toNat % 4096)

/-- The low eight bits. -/
def byte (w : Word) : UInt8 := UInt8.ofNat (w.toNat % 256)

/-- The low four bits. -/
def nibble (w : Word) : UInt8 := UInt8.ofNat (w.toNat % 16)

/-- The register in the second nibble. -/
def x (w : Word) : Register := Register.ofNibble (w.toNat / 256)

/-- The register in the third nibble. -/
def y (w : Word) : Register := Register.ofNibble (w.toNat / 16)

/-- The first nibble, which selects the kind of instruction. -/
def family (w : Word) : Nat := w.toNat / 4096

/-- Four lower-case digits. -/
def text (w : Word) : String := Hex.lower 4 w.toNat

end Word

/-- Address in assembly text. -/
def addressText (addr : UInt16) : String := "0x" ++ Hex.upper 3 addr.toNat

/-- Byte in assembly text. -/
def byteText (byte : UInt8) : String := "0x" ++ Hex.upper 2 byte.toNat

end ChipEight
