import ChipEight.Instruction.Basic

/-!
# Words and instructions

`Instruction.decode?` reads a word and `Instruction.encode` writes the word of an
instruction. A word that fits none of the patterns stands for no instruction.
-/
namespace ChipEight

namespace Alu

/-- The operation with exactly the number `n`. -/
def ofNumber? : Nat → Option Alu
  | 0x0 => some .copy
  | 0x1 => some .bitOr
  | 0x2 => some .bitAnd
  | 0x3 => some .bitXor
  | 0x4 => some .add
  | 0x5 => some .subtract
  | 0x6 => some .shiftRight
  | 0x7 => some .subtractFrom
  | 0xE => some .shiftLeft
  | _ => none

/-- Last nibble of the words that select this operation. -/
def number : Alu → Nat
  | .copy => 0x0
  | .bitOr => 0x1
  | .bitAnd => 0x2
  | .bitXor => 0x3
  | .add => 0x4
  | .subtract => 0x5
  | .shiftRight => 0x6
  | .subtractFrom => 0x7
  | .shiftLeft => 0xE

end Alu

namespace Instruction

/-- Words of the key family, selected by their low byte. -/
def decodeKey? (w : Word) : Option Instruction :=
  match w.byte with
  | 0x9E => some (.skipKey w.x false)
  | 0xA1 => some (.skipKey w.x true)
  | _ => none

/-- Words of the last family, selected by their low byte. -/
def decodeDevice? (w : Word) : Option Instruction :=
  match w.byte with
  | 0x07 => some (.getDelay w.x)
  | 0x0A => some (.waitKey w.x)
  | 0x15 => some (.setDelay w.x)
  | 0x18 => some (.setSound w.x)
  | 0x1E => some (.addIndex w.x)
  | 0x29 => some (.glyph w.x)
  | 0x33 => some (.storeDecimal w.x)
  | 0x55 => some (.storeRegisters w.x)
  | 0x65 => some (.loadRegisters w.x)
  | _ => none

/-- The instruction that `w` stands for, if any. -/
def decode? (w : Word) : Option Instruction :=
  match w.family with
  | 0x0 =>
      if w = 0x00E0 then some .clearScreen
      else if w = 0x00EE then some .ret
      else some (.system w.address)
  | 0x1 => some (.jump w.address)
  | 0x2 => some (.call w.address)
  | 0x3 => some (.skipByte w.x w.byte false)
  | 0x4 => some (.skipByte w.x w.byte true)
  | 0x5 => if w.nibble = 0 then some (.skipRegister w.x w.y false) else none
  | 0x6 => some (.setByte w.x w.byte)
  | 0x7 => some (.addByte w.x w.byte)
  | 0x8 => (Alu.ofNumber? w.nibble.toNat).map (.combine w.x w.y)
  | 0x9 => if w.nibble = 0 then some (.skipRegister w.x w.y true) else none
  | 0xA => some (.setIndex w.address)
  | 0xB => some (.callIndexed w.address)
  | 0xC => some (.random w.x w.byte)
  | 0xD => some (.draw w.x w.y w.nibble)
  | 0xE => decodeKey? w
  | 0xF => decodeDevice? w
  | _ => none

/-- A word with an address in its low three nibbles. -/
def wordOfAddress (family : Nat) (target : UInt16) : Word :=
  UInt16.ofNat (family * 4096 + target.toNat)

/-- A word with a register and a byte. -/
def wordOfByte (family : Nat) (x : Register) (byte : UInt8) : Word :=
  UInt16.ofNat (family * 4096 + x.val * 256 + byte.toNat)

/-- A word with two registers and a last nibble. -/
def wordOfPair (family : Nat) (x y : Register) (last : Nat) : Word :=
  UInt16.ofNat (family * 4096 + x.val * 256 + y.val * 16 + last)

/-- The word of an instruction whose operands are in range. -/
def encode : Instruction → Word
  | .clearScreen => 0x00E0
  | .ret => 0x00EE
  | .system target => wordOfAddress 0x0 target
  | .jump target => wordOfAddress 0x1 target
  | .call target => wordOfAddress 0x2 target
  | .skipByte x byte false => wordOfByte 0x3 x byte
  | .skipByte x byte true => wordOfByte 0x4 x byte
  | .skipRegister x y false => wordOfPair 0x5 x y 0
  | .setByte x byte => wordOfByte 0x6 x byte
  | .addByte x byte => wordOfByte 0x7 x byte
  | .combine x y op => wordOfPair 0x8 x y op.number
  | .skipRegister x y true => wordOfPair 0x9 x y 0
  | .setIndex target => wordOfAddress 0xA target
  | .callIndexed target => wordOfAddress 0xB target
  | .random x mask => wordOfByte 0xC x mask
  | .draw x y height => wordOfPair 0xD x y height.toNat
  | .skipKey x false => wordOfByte 0xE x 0x9E
  | .skipKey x true => wordOfByte 0xE x 0xA1
  | .getDelay x => wordOfByte 0xF x 0x07
  | .waitKey x => wordOfByte 0xF x 0x0A
  | .setDelay x => wordOfByte 0xF x 0x15
  | .setSound x => wordOfByte 0xF x 0x18
  | .addIndex x => wordOfByte 0xF x 0x1E
  | .glyph x => wordOfByte 0xF x 0x29
  | .storeDecimal x => wordOfByte 0xF x 0x33
  | .storeRegisters x => wordOfByte 0xF x 0x55
  | .loadRegisters x => wordOfByte 0xF x 0x65

end Instruction

end ChipEight
