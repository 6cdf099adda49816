import ChipEight.CommandLine.Options
import ChipEight.FileTree
import ChipEight.Session.Basic

/-!
# Launch

The way from options to a running session: the program file is read and its program
started, and either may fail.
-/
namespace ChipEight

inductive LaunchFault where
  | machine (fault : Fault)
  | file (fault : FileFault)
  deriving DecidableEq, Repr

def LaunchFault.message : LaunchFault → String
  | .machine fault => fault.message
  | .file fault => fault.message

/-- What was logged on the way, and the session or what went wrong. -/
structure Launch where
  log : List LogEntry
  result : Except LaunchFault Session

namespace Launch

/-- Launches the program in `bytes`, which were read from the file of the options. -/
def ofBytes (options : CommandLine.Options) (word : Nat → UInt32) (bytes : Array UInt8) :
    Launch :=
  let read := LogEntry.fileRead options.file bytes.size
  match Session.start options.settings word bytes false with
  | .ok session => ⟨[read], .ok session⟩
  | .error fault => ⟨[read], .error (.machine fault)⟩

/-- Launches what the options ask for; `read` gives the bytes of the file at a path. -/
def ofOptions (options : CommandLine.Options) (word : Nat → UInt32)
    (read : String → Except FileFault (Array UInt8)) : Launch :=
  match read options.file with
  | .ok bytes => ofBytes options word bytes
  | .error fault => ⟨[], .error (.file fault)⟩

end Launch

end ChipEight
