import ChipEight.Fault
import ChipEight.Instruction.Mnemonic
import ChipEight.Text.Span

/-!
# Log

What a machine, a session and a start-up report while they run.
-/
namespace ChipEight

inductive LogLevel where
  | trace | debug | info | warn | error
  deriving DecidableEq, Repr

inductive LogEntry where
  /-- An instruction was fetched from an address and is about to run. -/
  | executing (pc : UInt16) (word : Word) (instruction : Instruction)
  /-- The instruction at an address began to wait for a key. -/
  | waitingForKey (pc : UInt16)
  /-- A key ended the wait of a register. -/
  | keyArrived (key : UInt8) (x : Register)
  | unknownPress (key : UInt8)
  | unknownRelease (key : UInt8)
  /-- A file was read. -/
  | fileRead (path : String) (size : Nat)
  /-- A session began; its interval is in nanoseconds. -/
  | starting (size interval : Nat)
  | stopping
  /-- A fault ended the program. -/
  | halted (fault : Fault)
  /-- A session that was given up had ended with a fault. -/
  | abandoned (fault : Fault)
  deriving DecidableEq, Repr

namespace LogEntry

def level : LogEntry → LogLevel
  | .executing _ _ _ => .trace
  | .waitingForKey _ | .keyArrived _ _ => .debug
  | .unknownPress _ | .unknownRelease _ | .abandoned _ => .warn
  | .fileRead _ _ | .starting _ _ | .stopping => .info
  | .halted _ => .error

def message : LogEntry → String
  | .executing pc word instruction =>
      Hex.lower 3 pc.toNat ++ ": " ++ word.text ++ " " ++ instruction.mnemonic
  | .waitingForKey pc => "waiting for key at " ++ Hex.lower 3 pc.toNat
  | .keyArrived key x => "key " ++ Hex.lower 1 key.toNat ++ " resolved wait of " ++ x.name
  | .unknownPress key => "ignoring press of unknown key 0x" ++ Hex.lower 1 key.toNat
  | .unknownRelease key => "ignoring release of unknown key 0x" ++ Hex.lower 1 key.toNat
  | .fileRead path size => "read " ++ path ++ " (" ++ toString size ++ " bytes)"
  | .starting size interval =>
      "starting " ++ toString size ++ " byte program, cycle every " ++ Span.text interval
  | .stopping => "stopping interpreter"
  | .halted fault => "interpreter halted: " ++ fault.message
  | .abandoned fault => "interpreter stopped with error: " ++ fault.message

/-- What the press of a key reports. -/
def ofPress (key : UInt8) : List LogEntry :=
  if key.toNat < 16 then [] else [.unknownPress key]

/-- What the release of a key reports. -/
def ofRelease (key : UInt8) : List LogEntry :=
  if key.toNat < 16 then [] else [.unknownRelease key]

end LogEntry

/-- Name of a level in log lines. -/
def LogLevel.name : LogLevel → String
  | .trace => "TRACE"
  | .debug => "DEBUG"
  | .info => "INFO"
  | .warn => "WARN"
  | .error => "ERROR"

/-- A log line: level and message. -/
def LogEntry.line (entry : LogEntry) : String := entry.level.name ++ " " ++ entry.message

end ChipEight
