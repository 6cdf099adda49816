import ChipEight.CallStack
import ChipEight.Frame
import ChipEight.Keypad
import ChipEight.Memory.Basic
import ChipEight.Registers
import ChipEight.Settings
import ChipEight.Timer

/-!
# Machine

The state of the machine, how it starts, and the operations of the outside world on
it: loading a program, keys, and time.
-/
namespace ChipEight

structure Machine where
  memory : Memory
  registers : Registers
  stack : CallStack
  /-- Address of the next instruction. -/
  pc : UInt16
  /-- Address that instructions with an operand in memory work on. -/
  index : UInt16
  delay : Timer
  sound : Timer
  frame : Frame
  keypad : Keypad
  /-- Register that the key of an open wait goes to. -/
  awaiting : Option Register
  shift : ShiftRule
  timers : TimerMode
  deriving DecidableEq, Repr

namespace Machine

/-- Where programs start. -/
def entryPoint : UInt16 := 0x200

/-- A machine that never ran, with no program. -/
def fresh (settings : Settings) : Machine where
  memory := .fresh
  registers := .zero
  stack := .empty
  pc := entryPoint
  index := 0
  delay := 0
  sound := 0
  frame := .blank
  keypad := .idle
  awaiting := none
  shift := settings.shift
  timers := settings.timers

/-- Puts a program into memory and everything else into its first state. A program that
does not fit changes nothing. -/
def load (m : Machine) (program : Array UInt8) : Except Fault Machine :=
  (m.memory.load program).map fun memory =>
    { m with
      memory
      registers := .zero
      stack := .empty
      pc := entryPoint
      index := 0
      delay := 0
      sound := 0
      frame := .blank
      keypad := .idle
      awaiting := none }

def press (m : Machine) (key : UInt8) : Machine := { m with keypad := m.keypad.press key }

def release (m : Machine) (key : UInt8) : Machine := { m with keypad := m.keypad.release key }

/-- Lets both timers count down by `ticks`. -/
def elapse (m : Machine) (ticks : UInt8) : Machine :=
  { m with delay := m.delay.elapse ticks, sound := m.sound.elapse ticks }

/-- The machine waits for a key. -/
def isWaiting (m : Machine) : Bool := m.awaiting.isSome

/-- The sound timer runs. -/
def isBeeping (m : Machine) : Bool := m.sound != 0

/-- Registers, timers, stack and wait. -/
def dump (m : Machine) : String :=
  Dump.labelled "Vm"
    [("gpr", m.registers.dump),
     ("pc", Dump.plain (Hex.lower 4 m.pc.toNat)),
     ("i", Dump.plain (Hex.lower 4 m.index.toNat)),
     ("dt", Dump.plain (Hex.lower 2 m.delay.toNat)),
     ("st", Dump.plain (Hex.lower 2 m.sound.toNat)),
     ("stack", m.stack.dump),
     ("awaiting_key", Dump.optional (m.awaiting.map Register.dump))]

end Machine

end ChipEight
