import ChipEight.Proofs.Completion

/-!
# What an instruction depends on

Which way a cycle goes is settled by few parts of the machine (`Alike`). Two machines that have
these in common stay in a relation over a cycle if instructions, arriving keys and counted cycles
keep it (`Alike.cycle_coupled`), and the outcome is the same for both.

Of keypad and timers an instruction reads no more than the latch of a key and the delay timer.
So with other devices it does the same to the rest of the machine (`SameButDevices.after`), and
cycles of two machines that differ in their devices can be compared in this way
(`cycle_coupled`).
-/
namespace ChipEight

/-- The same outcome, on machines that stand in the relation `R`. -/
structure CycleReport.Agrees (R : Machine → Machine → Prop) (first second : CycleReport) :
    Prop where
  machine : R first.machine second.machine
  random : second.random = first.random
  result : second.result = first.result
  log : second.log = first.log

namespace Machine

variable {m n : Machine} {ins : Instruction}

/-! ## One equation for a cycle -/

/-- The random words after an instruction. -/
def randomAfter (random : RandomWords) : Instruction → RandomWords
  | .random _ _ => random.nextByte.2
  | _ => random

/-- A cycle that executes an instruction: it fails, arms a wait or is counted. -/
theorem Executes.cycle_report (hins : m.Executes ins) (hle : m.stack.depth ≤ 16)
    (hindex : m.index.toNat < Memory.size) (random : RandomWords) :
    m.cycle random =
      match m.faultOf m.pc ins with
      | some fault =>
          ⟨m.advance.after random ins, randomAfter random ins, .error fault,
            [.executing m.pc m.word ins]⟩
      | none =>
          if (m.advance.after random ins).isWaiting then
            ⟨m.advance.after random ins, randomAfter random ins, .ok .suspended,
              [.executing m.pc m.word ins, .waitingForKey m.pc]⟩
          else
            ⟨(m.advance.after random ins).countCycle, randomAfter random ins, .ok .executed,
              [.executing m.pc m.word ins]⟩ := by
  have hrandom : (m.advance.execute random m.pc ins).random = randomAfter random ins := by
    cases ins <;> rfl
  have hraised : (m.advance.execute random m.pc ins).fault = m.faultOf m.pc ins := by
    rw [execute_fault_of_bounds (m := m.advance) hle hindex, faultOf_advance]
  cases hfault : m.faultOf m.pc ins <;>
    simp only [hins.cycle_eq, step_eq, hraised, hfault, hrandom]

/-! ## Cycles of two machines -/

/-- The wait is over. -/
def endWait (m : Machine) : Machine :=
  { m with keypad := { m.keypad with waiting := false, pressed := none }, awaiting := none }

/-- What two machines have in common for a cycle to go the same way in both: the wait and its
answer, the word at the program counter, and what makes instructions fail. -/
structure Alike (m n : Machine) : Prop where
  awaiting : n.awaiting = m.awaiting
  pressed : ∀ x, m.awaiting = some x → n.keypad.pressed = m.keypad.pressed
  pc : n.pc = m.pc
  word : m.awaiting = none → m.pc.toNat ≤ 0xFFE → n.word = m.word
  depth : n.stack.depth = m.stack.depth
  index : n.index = m.index

namespace Alike

theorem executes (h : m.Alike n) (hins : m.Executes ins) : n.Executes ins where
  idle := h.awaiting.trans hins.idle
  pc_le := h.pc ▸ hins.pc_le
  decoded := h.word hins.idle hins.pc_le ▸ hins.decoded

theorem faultOf_eq (h : m.Alike n) (origin : UInt16) (ins : Instruction) :
    n.faultOf origin ins = m.faultOf origin ins := by
  cases ins <;> simp only [faultOf, storeFault, h.depth, h.index]

/-- To keep a relation over a cycle of two machines is to keep it when a key arrives, when an
instruction is executed, and when the timers count. The outcome is then the same for both. -/
theorem cycle_coupled {R : Machine → Machine → Prop} (random : RandomWords) (halike : m.Alike n)
    (hm : m.WellFormed) (h : R m n)
    (hawaiting : ∀ a b, R a b → b.awaiting = a.awaiting)
    (hkey : ∀ x key, m.awaiting = some x → m.keypad.pressed = some key →
      R (m.endWait.setRegister x key) (n.endWait.setRegister x key))
    (hins : ∀ ins, m.Executes ins → R (m.advance.after random ins) (n.advance.after random ins))
    (hcount : ∀ a b, R a b → R a.countCycle b.countCycle) :
    (m.cycle random).Agrees R (n.cycle random) := by
  -- Both machines are in the same of the four cases.
  rcases m.cycle_cases with ⟨x, hx⟩ | ⟨hidle, hend⟩ | ⟨hidle, hend, hnone⟩ | ⟨ins, hexecutes⟩
  · have hx' := halike.awaiting.trans hx
    cases hanswer : m.keypad.pressed with
    | none =>
      have hanswer' := (halike.pressed x hx).trans hanswer
      rw [cycle_of_unanswered hx hanswer, cycle_of_unanswered hx' hanswer']
      exact ⟨h, rfl, rfl, rfl⟩
    | some key =>
      have hanswer' := (halike.pressed x hx).trans hanswer
      rw [cycle_of_answered hx hanswer, cycle_of_answered hx' hanswer']
      exact ⟨hcount _ _ (hkey x key hx hanswer), rfl, rfl, rfl⟩
  · have hend' := halike.pc ▸ hend
    rw [cycle_of_past_end hidle hend, cycle_of_past_end (halike.awaiting.trans hidle) hend',
      halike.pc]
    exact ⟨h, rfl, rfl, rfl⟩
  · have hword := halike.word hidle hend
    have hend' := halike.pc ▸ hend
    have hnone' := hword ▸ hnone
    rw [cycle_of_undecoded hidle hend hnone,
      cycle_of_undecoded (halike.awaiting.trans hidle) hend' hnone', halike.pc, hword]
    exact ⟨h, rfl, rfl, rfl⟩
  · have hafter := hins ins hexecutes
    have hwaiting : (n.advance.after random ins).isWaiting =
        (m.advance.after random ins).isWaiting :=
      congrArg Option.isSome (hawaiting _ _ hafter)
    have hle : m.stack.depth ≤ 16 := hm.stack.depth_le
    have hindex : m.index.toNat < Memory.size := Nat.lt_succ_of_le hm.index_le
    rw [hexecutes.cycle_report hle hindex,
      (halike.executes hexecutes).cycle_report (halike.depth ▸ hle) (halike.index ▸ hindex),
      halike.pc, halike.word hexecutes.idle hexecutes.pc_le, halike.faultOf_eq]
    cases m.faultOf m.pc ins with
    | some fault => exact ⟨hafter, rfl, rfl, rfl⟩
    | none =>
      dsimp only
      rw [hwaiting]
      split
      · exact ⟨hafter, rfl, rfl, rfl⟩
      · exact ⟨hcount _ _ hafter, rfl, rfl, rfl⟩

end Alike

/-! ## Other devices -/

/-- Everything but the keypad and the timers is the same. -/
structure SameButDevices (m n : Machine) : Prop where
  memory : n.memory = m.memory
  registers : n.registers = m.registers
  stack : n.stack = m.stack
  pc : n.pc = m.pc
  index : n.index = m.index
  frame : n.frame = m.frame
  awaiting : n.awaiting = m.awaiting
  shift : n.shift = m.shift

namespace SameButDevices

theorem eq (h : m.SameButDevices n) :
    n =
      { m with
        keypad := n.keypad
        delay := n.delay
        sound := n.sound
        timers := n.timers } := by
  cases m
  cases n
  obtain ⟨rfl, rfl, rfl, rfl, rfl, rfl, rfl, rfl⟩ := h
  rfl

theorem word (h : m.SameButDevices n) : n.word = m.word := by
  rw [Machine.word, Machine.word, h.memory, h.pc]

theorem executes (h : m.SameButDevices n) (hins : m.Executes ins) : n.Executes ins where
  idle := h.awaiting.trans hins.idle
  pc_le := h.pc ▸ hins.pc_le
  decoded := h.word ▸ hins.decoded

theorem alike (h : m.SameButDevices n)
    (hpressed : ∀ x, m.awaiting = some x → n.keypad.pressed = m.keypad.pressed) : m.Alike n where
  awaiting := h.awaiting
  pressed := hpressed
  pc := h.pc
  word := fun _ _ => h.word
  depth := congrArg CallStack.depth h.stack
  index := h.index

theorem advance (h : m.SameButDevices n) : m.advance.SameButDevices n.advance :=
  { h with pc := congrArg (· + 2) h.pc }

end SameButDevices

theorem drawSprite_registers (m : Machine) (x y : Register) (height : UInt8) :
    (m.drawSprite x y height).1.registers =
      match (drawRows m.memory (m.registers.get x).toNat height.toNat m.index.toNat
        (m.registers.get y).toNat m.frame false).2 with
      | .ok hit => m.registers.setFlag hit
      | .error _ => m.registers := by
  unfold drawSprite
  cases hrows : (drawRows m.memory (m.registers.get x).toNat height.toNat m.index.toNat
    (m.registers.get y).toNat m.frame false).2 with
  | ok hit => simp only [hrows, setFlag]
  | error fault => simp only [hrows]

theorem loadRegisters_registers (m : Machine) (last : Register) :
    (m.loadRegisters last).1.registers =
      match m.memory.slice m.index.toNat (last.val + 1) with
      | .ok bytes => m.registers.modifyUpTo last fun r _ => bytes.getD r.val 0
      | .error _ => m.registers := by
  unfold loadRegisters
  cases m.memory.slice m.index.toNat (last.val + 1) <;> rfl

/-- What an instruction leaves in the registers. Neither the call stack nor the keypad has a part
in it, and of the timers one instruction alone moves a value into the registers. -/
theorem registersAfter_congr (hmemory : n.memory = m.memory)
    (hregisters : n.registers = m.registers) (hindex : n.index = m.index)
    (hframe : n.frame = m.frame) (hshift : n.shift = m.shift)
    (hdelay : ∀ x, ins = .getDelay x → n.delay = m.delay) (random : RandomWords) :
    n.registersAfter random ins = m.registersAfter random ins := by
  cases ins with
  | combine x y op =>
    cases op <;> simp [registersAfter, combine, setRegister, setFlag, hregisters, hshift]
  | draw x y height =>
    simp only [registersAfter, drawSprite_registers, hregisters, hmemory, hindex, hframe]
  | loadRegisters last =>
    simp only [registersAfter, loadRegisters_registers, hregisters, hmemory, hindex]
  | getDelay x => simp [registersAfter, hregisters, hdelay x rfl]
  | addIndex x => simp [registersAfter, addIndex, setFlag, hregisters, hindex]
  | _ => simp [registersAfter, hregisters]

/-- An instruction that sees no difference in the devices makes none in the rest. -/
theorem SameButDevices.after (h : m.SameButDevices n) (random : RandomWords)
    (hskips : n.skips ins = m.skips ins) (hdelay : ∀ x, ins = .getDelay x → n.delay = m.delay) :
    (m.after random ins).SameButDevices (n.after random ins) where
  memory := by
    have hstored : n.storedBytes ins = m.storedBytes ins := by
      rw [h.eq]
      cases ins <;> rfl
    simp only [Machine.after, hstored, h.memory, h.index]
  registers :=
    registersAfter_congr h.memory h.registers h.index h.frame h.shift hdelay random
  stack := by
    change n.stackAfter ins = m.stackAfter ins
    rw [h.eq]
    cases ins <;> rfl
  pc := by
    change n.pcAfter ins = m.pcAfter ins
    simp only [pcAfter, indexedTarget, hskips, h.stack, h.pc, h.registers]
  index := by
    change n.indexAfter ins = m.indexAfter ins
    rw [h.eq]
    cases ins <;> rfl
  frame := by
    change n.frameAfter ins = m.frameAfter ins
    rw [h.eq]
    cases ins <;> rfl
  awaiting := by
    change n.awaitingAfter ins = m.awaitingAfter ins
    rw [h.eq]
    cases ins <;> rfl
  shift := h.shift

/-- The same for two machines that differ in their devices. -/
theorem cycle_coupled {R : Machine → Machine → Prop} (random : RandomWords)
    (hm : m.WellFormed) (h : R m n)
    (hdevices : ∀ a b, R a b → a.SameButDevices b)
    (hpressed : ∀ x, m.awaiting = some x → n.keypad.pressed = m.keypad.pressed)
    (hkey : ∀ x key, m.awaiting = some x → m.keypad.pressed = some key →
      R (m.endWait.setRegister x key) (n.endWait.setRegister x key))
    (hins : ∀ ins, m.Executes ins → R (m.advance.after random ins) (n.advance.after random ins))
    (hcount : ∀ a b, R a b → R a.countCycle b.countCycle) :
    (m.cycle random).Agrees R (n.cycle random) := by
  have hawaiting : ∀ a b, R a b → b.awaiting = a.awaiting := fun a b hab =>
    (hdevices a b hab).awaiting
  exact ((hdevices m n h).alike hpressed).cycle_coupled random hm h hawaiting hkey hins hcount

end Machine

end ChipEight
