import ChipEight.Instruction.Decode
import ChipEight.Log
import ChipEight.Machine.Execute

/-!
# Cycles

A cycle fetches, decodes and executes one instruction, or asks whether a key has ended
the wait that is open. The timers count a cycle only if it was executed.
-/
namespace ChipEight

/-- How a cycle without fault ended. -/
inductive Progress where
  /-- An instruction was completed. -/
  | executed
  /-- The machine waits for a key. -/
  | suspended
  deriving DecidableEq, Repr

/-- State after a cycle, its result, and what it logged. -/
structure CycleReport where
  machine : Machine
  random : RandomWords
  result : Except Fault Progress
  log : List LogEntry

namespace Machine

/-- Counts an executed cycle, if the timers count cycles. -/
def countCycle (m : Machine) : Machine :=
  match m.timers with
  | .perCycle => m.elapse 1
  | .realtime => m

/-- Asks for the key that register `x` waits for. -/
def pollKey (m : Machine) (random : RandomWords) (x : Register) : CycleReport :=
  match m.keypad.takePress with
  | (none, _) => ⟨m, random, .ok .suspended, []⟩
  | (some key, keypad) =>
      ⟨({ m with keypad, awaiting := none }.setRegister x key).countCycle, random,
        .ok .executed, [.keyArrived key x]⟩

/-- The word at the program counter and the instruction that it stands for. -/
def fetch (m : Machine) : Except Fault (Word × Instruction) :=
  match m.memory.fetch m.pc with
  | .error fault => .error fault
  | .ok word =>
      match Instruction.decode? word with
      | none => .error (.unknownInstruction word m.pc)
      | some instruction => .ok (word, instruction)

/-- Executes an instruction that was fetched from the program counter. -/
def step (m : Machine) (random : RandomWords) (word : Word) (instruction : Instruction) :
    CycleReport :=
  let started := LogEntry.executing m.pc word instruction
  let effect := { m with pc := m.pc + 2 }.execute random m.pc instruction
  match effect.fault with
  | some fault => ⟨effect.machine, effect.random, .error fault, [started]⟩
  | none =>
      if effect.machine.isWaiting then
        ⟨effect.machine, effect.random, .ok .suspended, [started, .waitingForKey m.pc]⟩
      else ⟨effect.machine.countCycle, effect.random, .ok .executed, [started]⟩

/-- One cycle. -/
def cycle (m : Machine) (random : RandomWords) : CycleReport :=
  match m.awaiting with
  | some x => m.pollKey random x
  | none =>
      match m.fetch with
      | .error fault => ⟨m, random, .error fault, []⟩
      | .ok (word, instruction) => m.step random word instruction

end Machine

end ChipEight
