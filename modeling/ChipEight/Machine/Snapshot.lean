import ChipEight.Machine.Basic

/-!
# Snapshots

A copy of what a machine shows: its registers, stack, memory, key latches and frame.
The wait for a key is not part of it.
-/
namespace ChipEight

/-- The registers and timers of a machine. -/
structure RegisterView where
  pc : UInt16
  index : UInt16
  values : Vector UInt8 16
  delay : UInt8
  sound : UInt8
  deriving DecidableEq, Repr

/-- All numbers in decimal. -/
def RegisterView.dump (view : RegisterView) : String :=
  Dump.labelled "Registers"
    [("pc", toString view.pc.toNat),
     ("i", toString view.index.toNat),
     ("v", Dump.list (view.values.toList.map fun value => toString value.toNat)),
     ("dt", toString view.delay.toNat),
     ("st", toString view.sound.toNat)]

structure Snapshot where
  view : RegisterView
  stack : CallStack
  memory : Memory
  keys : Vector Bool 16
  frame : Frame
  deriving DecidableEq, Repr

namespace Machine

def registerView (m : Machine) : RegisterView :=
  ⟨m.pc, m.index, m.registers.values, m.delay, m.sound⟩

def snapshot (m : Machine) : Snapshot :=
  ⟨m.registerView, m.stack, m.memory, m.keypad.down, m.frame⟩

end Machine

end ChipEight
