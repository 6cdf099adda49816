import ChipEight.Machine.Execute

/-!
# Instructions field by field

`Machine.execute` says what each instruction does. Here the same is said the other way
round: for each part of the machine, which instructions change it and what to. A part
that an instruction is not named for keeps its value, also when the instruction fails.
-/
namespace ChipEight.Machine

/-- Bytes that an instruction stores from the index on. -/
def storedBytes (m : Machine) : Instruction → List UInt8
  | .storeDecimal x => decimalDigits (m.registers.get x)
  | .storeRegisters x => m.registers.upTo x
  | _ => []

def registersAfter (m : Machine) (random : RandomWords) : Instruction → Registers
  | .setByte x byte => m.registers.set x byte
  | .addByte x byte => m.registers.set x (m.registers.get x + byte)
  | .combine x y op => (m.combine x y op).registers
  | .random x mask => m.registers.set x (random.nextByte.1 &&& mask)
  | .draw x y height => (m.drawSprite x y height).1.registers
  | .getDelay x => m.registers.set x m.delay
  | .addIndex x => (m.addIndex x).registers
  | .loadRegisters last => (m.loadRegisters last).1.registers
  | _ => m.registers

def stackAfter (m : Machine) : Instruction → CallStack
  | .ret => (m.stack.pop?.map Prod.snd).getD m.stack
  | .call _ | .callIndexed _ => (m.stack.push? m.pc).getD m.stack
  | _ => m.stack

/-- Where an indexed call goes. -/
def indexedTarget (m : Machine) (target : UInt16) : UInt16 :=
  (target + (m.registers.get .first).toUInt16) &&& 0x0FFF

/-- Says whether an instruction passes over the next one. -/
def skips (m : Machine) : Instruction → Bool
  | .skipByte x byte negated => (m.registers.get x == byte) != negated
  | .skipRegister x y negated => (m.registers.get x == m.registers.get y) != negated
  | .skipKey x negated => m.keypad.isDown (m.registers.get x) != negated
  | _ => false

def pcAfter (m : Machine) (ins : Instruction) : UInt16 :=
  match ins with
  | .ret => (m.stack.pop?.map Prod.fst).getD m.pc
  | .system target | .jump target => target
  | .call target => if (m.stack.push? m.pc).isSome then target else m.pc
  | .callIndexed target => if (m.stack.push? m.pc).isSome then m.indexedTarget target else m.pc
  | _ => if m.skips ins then m.pc + 2 else m.pc

def indexAfter (m : Machine) : Instruction → UInt16
  | .setIndex target => target
  | .addIndex x => (m.index + (m.registers.get x).toUInt16) &&& 0x0FFF
  | .glyph x => UInt16.ofNat ((m.registers.get x).toNat % 16 * Font.glyphSize)
  | _ => m.index

def delayAfter (m : Machine) : Instruction → Timer
  | .setDelay x => m.registers.get x
  | _ => m.delay

def soundAfter (m : Machine) : Instruction → Timer
  | .setSound x => m.registers.get x
  | _ => m.sound

def frameAfter (m : Machine) : Instruction → Frame
  | .clearScreen => .blank
  | .draw x y height =>
      (drawRows m.memory (m.registers.get x).toNat height.toNat m.index.toNat
        (m.registers.get y).toNat m.frame false).1
  | _ => m.frame

def keypadAfter (m : Machine) : Instruction → Keypad
  | .waitKey _ => m.keypad.beginWait
  | _ => m.keypad

def awaitingAfter (m : Machine) : Instruction → Option Register
  | .waitKey x => some x
  | _ => m.awaiting

/-- The machine after an instruction, whether it failed or not. -/
def after (m : Machine) (random : RandomWords) (ins : Instruction) : Machine where
  memory := (m.memory.store m.index.toNat (m.storedBytes ins)).1
  registers := m.registersAfter random ins
  stack := m.stackAfter ins
  pc := m.pcAfter ins
  index := m.indexAfter ins
  delay := m.delayAfter ins
  sound := m.soundAfter ins
  frame := m.frameAfter ins
  keypad := m.keypadAfter ins
  awaiting := m.awaitingAfter ins
  shift := m.shift
  timers := m.timers

theorem skipIf_eq (m : Machine) (condition : Bool) :
    m.skipIf condition = { m with pc := if condition then m.pc + 2 else m.pc } := by
  cases condition <;> rfl

theorem combine_eq (m : Machine) (x y : Register) (op : Alu) :
    m.combine x y op = { m with registers := (m.combine x y op).registers } := by
  cases op <;> rfl

theorem callTo_fst (m : Machine) (origin target : UInt16) :
    (m.callTo origin target).1 =
      { m with
        stack := (m.stack.push? m.pc).getD m.stack
        pc := if (m.stack.push? m.pc).isSome then target else m.pc } := by
  unfold callTo
  cases m.stack.push? m.pc <;> rfl

theorem returnFrom_fst (m : Machine) (origin : UInt16) :
    (m.returnFrom origin).1 =
      { m with
        stack := (m.stack.pop?.map Prod.snd).getD m.stack
        pc := (m.stack.pop?.map Prod.fst).getD m.pc } := by
  unfold returnFrom
  cases m.stack.pop? <;> rfl

theorem drawSprite_fst (m : Machine) (x y : Register) (height : UInt8) :
    (m.drawSprite x y height).1 =
      { m with
        frame := m.frameAfter (.draw x y height)
        registers := (m.drawSprite x y height).1.registers } := by
  unfold drawSprite frameAfter
  dsimp only
  split <;> rfl

theorem loadRegisters_fst (m : Machine) (last : Register) :
    (m.loadRegisters last).1 = { m with registers := (m.loadRegisters last).1.registers } := by
  unfold loadRegisters
  split <;> rfl

/-- An instruction does to the machine what its fields say one by one. -/
theorem execute_machine (m : Machine) (random : RandomWords) (origin : UInt16)
    (ins : Instruction) : (m.execute random origin ins).machine = m.after random ins := by
  cases ins with
  | ret => exact m.returnFrom_fst origin
  | call target => exact m.callTo_fst origin target
  | callIndexed target => exact m.callTo_fst origin (m.indexedTarget target)
  | skipByte x byte negated => exact m.skipIf_eq _
  | skipRegister x y negated => exact m.skipIf_eq _
  | skipKey x negated => exact m.skipIf_eq _
  | combine x y op => exact m.combine_eq x y op
  | draw x y height => exact m.drawSprite_fst x y height
  | loadRegisters last => exact m.loadRegisters_fst last
  | _ => rfl

/-- Only the instruction for random bytes draws a word. -/
theorem execute_random (m : Machine) (random : RandomWords) (origin : UInt16)
    (ins : Instruction) :
    (m.execute random origin ins).random =
      match ins with
      | .random _ _ => random.nextByte.2
      | _ => random := by
  cases ins <;> rfl

end ChipEight.Machine
