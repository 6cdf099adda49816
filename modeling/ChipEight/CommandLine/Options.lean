import ChipEight.CommandLine.Scan
import ChipEight.Decimal.Binary32
import ChipEight.Settings

/-!
# Options

What a command line asks for. A value that cannot be read counts as not given.
-/
namespace ChipEight.CommandLine

structure Options where
  file : String
  /-- Cycles per second. -/
  rate : UInt32
  /-- Seconds that a pixel takes to fade out. -/
  decay : Decimal.Binary32
  vipShift : Bool
  realtimeTimers : Bool
  seed : Option UInt64
  deriving DecidableEq, Repr

namespace Options

/-- Rate where none is given. -/
def standardRate : UInt32 := 500

/-- Decay time where none is given: three tenths of a second. -/
def standardDecay : Decimal.Binary32 := .ofScientific ⟨3, -1⟩

/-- The options of a scan with its program file. -/
def ofScan (scan : Scan) (file : String) : Options where
  file
  rate := ((scan.value? .rate).bind (Decimal.readBelow? UInt32.size)).elim standardRate UInt32.ofNat
  decay := ((scan.value? .decay).bind Decimal.Binary32.read?).getD standardDecay
  vipShift := scan.named.contains .vipShift
  realtimeTimers := scan.named.contains .realtimeTimers
  seed := ((scan.value? .seed).bind (Decimal.readBelow? UInt64.size)).map UInt64.ofNat

/-- The options that the arguments of a program ask for. -/
def ofArguments (args : List String) : Except Exit Options :=
  match Scan.empty.takeAll args with
  | .error exit => .error exit
  | .ok scan => scan.check.map (ofScan scan)

/-- The settings of the machine. -/
def settings (options : Options) : Settings :=
  { Settings.ofRate options.rate with
    shift := if options.vipShift then .vip else .inPlace
    timers := if options.realtimeTimers then .realtime else .perCycle
    seed := options.seed }

end Options

end ChipEight.CommandLine
