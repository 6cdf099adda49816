import ChipEight.Instruction.Basic
import ChipEight.Machine.Basic
import ChipEight.Machine.Random

/-!
# Effects of instructions

What an instruction does once it was fetched and the program counter stands behind it.
An instruction that fails keeps the part of its effect that came before the failure.
-/
namespace ChipEight

/-- State after an instruction, and the fault that ended it early, if any. -/
structure Effect where
  machine : Machine
  random : RandomWords
  fault : Option Fault

namespace Machine

def setRegister (m : Machine) (x : Register) (value : UInt8) : Machine :=
  { m with registers := m.registers.set x value }

def setFlag (m : Machine) (flag : Bool) : Machine :=
  { m with registers := m.registers.setFlag flag }

/-- Passes over the next instruction if `condition` holds. -/
def skipIf (m : Machine) (condition : Bool) : Machine :=
  if condition then { m with pc := m.pc + 2 } else m

/-- Arithmetic writes its result first and its flag last, shifts the flag first. -/
def combine (m : Machine) (x y : Register) (op : Alu) : Machine :=
  let a := m.registers.get x
  let b := m.registers.get y
  let operand : UInt8 := match m.shift with
    | .inPlace => a
    | .vip => b
  match op with
  | .copy => m.setRegister x b
  | .bitOr => m.setRegister x (a ||| b)
  | .bitAnd => m.setRegister x (a &&& b)
  | .bitXor => m.setRegister x (a ^^^ b)
  | .add => (m.setRegister x (a + b)).setFlag (decide (255 < a.toNat + b.toNat))
  | .subtract => (m.setRegister x (a - b)).setFlag (decide (b ≤ a))
  | .subtractFrom => (m.setRegister x (b - a)).setFlag (decide (a ≤ b))
  | .shiftRight => (m.setFlag (operand &&& 1 != 0)).setRegister x (operand >>> 1)
  | .shiftLeft => (m.setFlag (operand &&& 0x80 != 0)).setRegister x (operand <<< 1)

/-- Goes to `target` and remembers where to come back to; `origin` is the address of the
calling instruction. -/
def callTo (m : Machine) (origin target : UInt16) : Machine × Option Fault :=
  match m.stack.push? m.pc with
  | some stack => ({ m with stack, pc := target }, none)
  | none => (m, some (.stackOverflow origin))

/-- Goes back to the address on top of the stack. -/
def returnFrom (m : Machine) (origin : UInt16) : Machine × Option Fault :=
  match m.stack.pop? with
  | some (addr, stack) => ({ m with stack, pc := addr }, none)
  | none => (m, some (.stackUnderflow origin))

/-- Reads and draws the next rows of a sprite one after the other. `hit` says whether an
earlier row collided. -/
def drawRows (memory : Memory) (x : Nat) :
    (rows : Nat) → (addr y : Nat) → Frame → (hit : Bool) → Frame × Except Fault Bool
  | 0, _, _, frame, hit => (frame, .ok hit)
  | rows + 1, addr, y, frame, hit =>
      match memory.read addr with
      | .error fault => (frame, .error fault)
      | .ok row =>
          let (frame, more) := frame.drawRow x y row
          drawRows memory x rows (addr + 1) (y + 1) frame (hit || more)

/-- Draws the `height` rows at the index. The flag is written only if all were read. -/
def drawSprite (m : Machine) (x y : Register) (height : UInt8) : Machine × Option Fault :=
  let (frame, result) := drawRows m.memory (m.registers.get x).toNat height.toNat
    m.index.toNat (m.registers.get y).toNat m.frame false
  match result with
  | .ok hit => ({ m with frame }.setFlag hit, none)
  | .error fault => ({ m with frame }, some fault)

/-- Stores bytes at the index. -/
def storeAtIndex (m : Machine) (values : List UInt8) : Machine × Option Fault :=
  let (memory, fault) := m.memory.store m.index.toNat values
  ({ m with memory }, fault)

/-- Hundreds, tens and ones of a byte. -/
def decimalDigits (value : UInt8) : List UInt8 := [value / 100, value / 10 % 10, value % 10]

/-- Loads the registers up to `last` from the index, all of them or none. -/
def loadRegisters (m : Machine) (last : Register) : Machine × Option Fault :=
  match m.memory.slice m.index.toNat (last.val + 1) with
  | .ok bytes =>
      ({ m with registers := m.registers.modifyUpTo last fun r _ => bytes.getD r.val 0 }, none)
  | .error fault => (m, some fault)

/-- Adds a register to the index, which keeps twelve bits; the flag tells what got lost. -/
def addIndex (m : Machine) (x : Register) : Machine :=
  let sum := m.index + (m.registers.get x).toUInt16
  { m.setFlag (decide (0x0FFF < sum)) with index := sum &&& 0x0FFF }

/-- The effect of an instruction that was fetched from `origin`. -/
def execute (m : Machine) (random : RandomWords) (origin : UInt16) : Instruction → Effect
  | .clearScreen => ⟨{ m with frame := .blank }, random, none⟩
  | .ret => let (m, fault) := m.returnFrom origin; ⟨m, random, fault⟩
  | .system target | .jump target => ⟨{ m with pc := target }, random, none⟩
  | .call target => let (m, fault) := m.callTo origin target; ⟨m, random, fault⟩
  | .skipByte x byte negated =>
      ⟨m.skipIf ((m.registers.get x == byte) != negated), random, none⟩
  | .skipRegister x y negated =>
      ⟨m.skipIf ((m.registers.get x == m.registers.get y) != negated), random, none⟩
  | .setByte x byte => ⟨m.setRegister x byte, random, none⟩
  | .addByte x byte => ⟨m.setRegister x (m.registers.get x + byte), random, none⟩
  | .combine x y op => ⟨m.combine x y op, random, none⟩
  | .setIndex target => ⟨{ m with index := target }, random, none⟩
  | .callIndexed target =>
      let (m, fault) := m.callTo origin ((target + (m.registers.get .first).toUInt16) &&& 0x0FFF)
      ⟨m, random, fault⟩
  | .random x mask =>
      let (byte, random) := random.nextByte
      ⟨m.setRegister x (byte &&& mask), random, none⟩
  | .draw x y height => let (m, fault) := m.drawSprite x y height; ⟨m, random, fault⟩
  | .skipKey x negated =>
      ⟨m.skipIf (m.keypad.isDown (m.registers.get x) != negated), random, none⟩
  | .getDelay x => ⟨m.setRegister x m.delay, random, none⟩
  | .waitKey x => ⟨{ m with keypad := m.keypad.beginWait, awaiting := some x }, random, none⟩
  | .setDelay x => ⟨{ m with delay := m.registers.get x }, random, none⟩
  | .setSound x => ⟨{ m with sound := m.registers.get x }, random, none⟩
  | .addIndex x => ⟨m.addIndex x, random, none⟩
  | .glyph x =>
      ⟨{ m with index := UInt16.ofNat ((m.registers.get x).toNat % 16 * Font.glyphSize) },
        random, none⟩
  | .storeDecimal x =>
      let (m, fault) := m.storeAtIndex (decimalDigits (m.registers.get x))
      ⟨m, random, fault⟩
  | .storeRegisters x =>
      let (m, fault) := m.storeAtIndex (m.registers.upTo x)
      ⟨m, random, fault⟩
  | .loadRegisters x => let (m, fault) := m.loadRegisters x; ⟨m, random, fault⟩

end Machine

end ChipEight
