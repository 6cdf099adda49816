import ChipEight.Word

/-!
# Instructions

The operations of the machine with their operands taken apart. `InRange` says that
an instruction's operands fit the places that a word has for them.
-/
namespace ChipEight

/-- What `combine` writes to its first register. -/
inductive Alu where
  | copy | bitOr | bitAnd | bitXor | add | subtract | shiftRight | subtractFrom | shiftLeft
  deriving DecidableEq, Repr

inductive Instruction where
  /-- Switches every pixel off. -/
  | clearScreen
  /-- Goes back to the address on top of the call stack. -/
  | ret
  /-- Machine code of the host system, which acts as a jump. -/
  | system (target : UInt16)
  | jump (target : UInt16)
  | call (target : UInt16)
  /-- Skips the next instruction if register and byte agree, or differ when `negated`. -/
  | skipByte (x : Register) (byte : UInt8) (negated : Bool)
  /-- Skips the next instruction if the registers agree, or differ when `negated`. -/
  | skipRegister (x y : Register) (negated : Bool)
  | setByte (x : Register) (byte : UInt8)
  /-- Adds a byte; the flag stays as it is. -/
  | addByte (x : Register) (byte : UInt8)
  | combine (x y : Register) (op : Alu)
  | setIndex (target : UInt16)
  /-- Calls the address that lies the value of `V0` past `target`. -/
  | callIndexed (target : UInt16)
  /-- Draws a random byte and keeps the bits of `mask`. -/
  | random (x : Register) (mask : UInt8)
  /-- Draws the `height` sprite rows at the index. -/
  | draw (x y : Register) (height : UInt8)
  /-- Skips the next instruction if the key is down, or up when `negated`. -/
  | skipKey (x : Register) (negated : Bool)
  | getDelay (x : Register)
  /-- Waits for the next key that goes down. -/
  | waitKey (x : Register)
  | setDelay (x : Register)
  | setSound (x : Register)
  | addIndex (x : Register)
  /-- Points the index at the built-in glyph of a digit. -/
  | glyph (x : Register)
  /-- Stores hundreds, tens and ones at the index. -/
  | storeDecimal (x : Register)
  | storeRegisters (x : Register)
  | loadRegisters (x : Register)
  deriving DecidableEq, Repr

/-- Addresses have twelve bits and heights four. -/
def Instruction.InRange : Instruction → Prop
  | .system target | .jump target | .call target | .setIndex target | .callIndexed target =>
      target.toNat < 4096
  | .draw _ _ height => height.toNat < 16
  | _ => True

end ChipEight
