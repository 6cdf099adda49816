import ChipEight.Text.Dump
import ChipEight.Text.Hex
import ChipEight.Text.Quoted

/-!
# Faults

What can go wrong when a program is loaded or run, with the texts that report it:
the message with all numbers, the summary without them, and the dump.
-/
namespace ChipEight

inductive Fault where
  /-- The word at an address stands for no instruction. -/
  | unknownInstruction (word pc : UInt16)
  /-- The call at an address found no room on the call stack. -/
  | stackOverflow (pc : UInt16)
  /-- The return at an address found the call stack empty. -/
  | stackUnderflow (pc : UInt16)
  | addressOutOfRange (addr : Nat)
  /-- A program tried to write below its own area. -/
  | protectedWrite (addr : Nat)
  | programTooLarge (size : Nat)
  /-- The worker of a session ended by a panic. -/
  | workerPanicked
  /-- A failure that carries nothing but its text. -/
  | other (text : String)
  deriving DecidableEq, Repr

namespace Fault

/-- Full report. -/
def message : Fault → String
  | .unknownInstruction word pc =>
      "unknown instruction " ++ Hex.lower 4 word.toNat ++ " at " ++ Hex.lower 3 pc.toNat
  | .stackOverflow pc => "call stack overflow at " ++ Hex.lower 3 pc.toNat
  | .stackUnderflow pc => "return with empty call stack at " ++ Hex.lower 3 pc.toNat
  | .addressOutOfRange addr => "memory address 0x" ++ Hex.lower 1 addr ++ " is out of range"
  | .protectedWrite addr =>
      "write to reserved interpreter memory at 0x" ++ Hex.lower 3 addr
  | .programTooLarge size =>
      "rom is " ++ toString size ++ " bytes, at most 3584 fit into memory"
  | .workerPanicked => "interpreter thread panicked"
  | .other text => text

/-- Report without numbers. -/
def summary : Fault → String
  | .unknownInstruction _ _ => "unknown instruction"
  | .stackOverflow _ => "call stack overflow"
  | .stackUnderflow _ => "return with empty call stack"
  | .addressOutOfRange _ => "memory address out of range"
  | .protectedWrite _ => "write to reserved memory"
  | .programTooLarge _ => "rom does not fit into memory"
  | .workerPanicked => "interpreter thread panicked"
  | .other text => text

/-- Kind of a fault in dumps. -/
def kind : Fault → String
  | .unknownInstruction _ _ => "Decode"
  | .stackOverflow _ => "StackOverflow"
  | .stackUnderflow _ => "StackUnderflow"
  | .addressOutOfRange _ => "AddressOutOfRange"
  | .protectedWrite _ => "ProtectedWrite"
  | .programTooLarge _ => "RomTooLarge"
  | .workerPanicked => "WorkerPanicked"
  | .other _ => "Msg"

/-- What a fault carries, numbers in decimal and text quoted. -/
def details : Fault → List String
  | .unknownInstruction word pc => [toString word.toNat, toString pc.toNat]
  | .stackOverflow pc | .stackUnderflow pc => [toString pc.toNat]
  | .addressOutOfRange n | .protectedWrite n | .programTooLarge n => [toString n]
  | .workerPanicked => []
  | .other text => [Quoted.text text]

/-- Kind with what it carries. -/
def dump (fault : Fault) : String :=
  match fault.details with
  | [] => fault.kind
  | details => Dump.call fault.kind details

end Fault

end ChipEight
