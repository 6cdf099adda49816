import ChipEight.Instruction.Basic
import ChipEight.Text.Dump

/-!
# Texts of instructions

The mnemonic is a line of assembly text. The dump shows the instruction's kind and
its operands, numbers in decimal.
-/
namespace ChipEight

namespace Alu

/-- Operation code in assembly text. -/
def mnemonic : Alu → String
  | .copy => "LD"
  | .bitOr => "OR"
  | .bitAnd => "AND"
  | .bitXor => "XOR"
  | .add => "ADD"
  | .subtract => "SUB"
  | .shiftRight => "SHR"
  | .subtractFrom => "SUBN"
  | .shiftLeft => "SHL"

/-- Name in dumps. -/
def dump : Alu → String
  | .copy => "Id"
  | .bitOr => "Or"
  | .bitAnd => "And"
  | .bitXor => "Xor"
  | .add => "Add"
  | .subtract => "Subtract"
  | .shiftRight => "ShiftRight"
  | .subtractFrom => "SubtractInv"
  | .shiftLeft => "ShiftLeft"

end Alu

namespace Instruction

/-- An operation code with its operands. -/
def line (code : String) (operands : List String) : String :=
  code ++ " " ++ Dump.commas operands

/-- Line of assembly text. -/
def mnemonic : Instruction → String
  | .clearScreen => "CLS"
  | .ret => "RET"
  | .system target => line "SYS" [addressText target]
  | .jump target => line "JP" [addressText target]
  | .call target => line "CALL" [addressText target]
  | .skipByte x byte negated => line (if negated then "SNE" else "SE") [x.name, byteText byte]
  | .skipRegister x y negated => line (if negated then "SNE" else "SE") [x.name, y.name]
  | .setByte x byte => line "LD" [x.name, byteText byte]
  | .addByte x byte => line "ADD" [x.name, byteText byte]
  | .combine x y op => line op.mnemonic [x.name, y.name]
  | .setIndex target => line "LD" ["I", addressText target]
  | .callIndexed target => line "JP" ["V0", addressText target]
  | .random x mask => line "RND" [x.name, byteText mask]
  | .draw x y height => line "DRW" [x.name, y.name, toString height.toNat]
  | .skipKey x negated => line (if negated then "SKNP" else "SKP") [x.name]
  | .getDelay x => line "LD" [x.name, "DT"]
  | .waitKey x => line "LD" [x.name, "K"]
  | .setDelay x => line "LD" ["DT", x.name]
  | .setSound x => line "LD" ["ST", x.name]
  | .addIndex x => line "ADD" ["I", x.name]
  | .glyph x => line "LD" ["F", x.name]
  | .storeDecimal x => line "LD" ["B", x.name]
  | .storeRegisters x => line "LD" ["[I]", x.name]
  | .loadRegisters x => line "LD" [x.name, "[I]"]

/-- An address operand in a dump. -/
def dumpAddress (target : UInt16) : String := Dump.call "Addr" [toString target.toNat]

/-- A byte operand in a dump. -/
def dumpByte (byte : UInt8) : String := Dump.call "Imm" [toString byte.toNat]

/-- Kind and operands. -/
def dump : Instruction → String
  | .clearScreen => "ClearScreen"
  | .ret => "Ret"
  | .system target => Dump.call "Sys" [dumpAddress target]
  | .jump target => Dump.call "Jump" [dumpAddress target]
  | .call target => Dump.call "Call" [dumpAddress target]
  | .skipByte x byte negated =>
      Dump.labelled "SkipEqImm"
        [("vx", x.dump), ("imm", dumpByte byte), ("inv", Dump.truth negated)]
  | .skipRegister x y negated =>
      Dump.labelled "SkipEqReg"
        [("vx", x.dump), ("vy", y.dump), ("inv", Dump.truth negated)]
  | .setByte x byte => Dump.labelled "PutImm" [("vx", x.dump), ("imm", dumpByte byte)]
  | .addByte x byte => Dump.labelled "AddImm" [("vx", x.dump), ("imm", dumpByte byte)]
  | .combine x y op => Dump.labelled "Apply" [("vx", x.dump), ("vy", y.dump), ("f", op.dump)]
  | .setIndex target => Dump.call "SetI" [dumpAddress target]
  | .callIndexed target => Dump.call "JumpPlusV0" [dumpAddress target]
  | .random x mask => Dump.labelled "Randomize" [("vx", x.dump), ("imm", dumpByte mask)]
  | .draw x y height =>
      Dump.labelled "Draw"
        [("vx", x.dump), ("vy", y.dump), ("n", Dump.call "Imm4" [toString height.toNat])]
  | .skipKey x negated =>
      Dump.labelled "SkipPressed" [("vx", x.dump), ("inv", Dump.truth negated)]
  | .getDelay x => Dump.call "GetDT" [x.dump]
  | .waitKey x => Dump.call "WaitKey" [x.dump]
  | .setDelay x => Dump.call "SetDT" [x.dump]
  | .setSound x => Dump.call "SetST" [x.dump]
  | .addIndex x => Dump.call "AddI" [x.dump]
  | .glyph x => Dump.call "LoadGlyph" [x.dump]
  | .storeDecimal x => Dump.call "StoreBCD" [x.dump]
  | .storeRegisters x => Dump.call "StoreRegs" [x.dump]
  | .loadRegisters x => Dump.call "LoadRegs" [x.dump]

end Instruction

end ChipEight
