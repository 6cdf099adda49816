/-!
# Settings

How fast a machine runs and which of the customary rules it follows.
-/
namespace ChipEight

/-- Which register a shift takes its operand from. -/
inductive ShiftRule where
  /-- The register that receives the result. -/
  | inPlace
  /-- The second register, as on the COSMAC VIP. -/
  | vip
  deriving DecidableEq, Repr

/-- When the timers count down. -/
inductive TimerMode where
  /-- By one after every executed cycle. -/
  | perCycle
  /-- Sixty times a second, whatever the rate of cycles. -/
  | realtime
  deriving DecidableEq, Repr

structure Settings where
  /-- Nanoseconds from one cycle to the next. -/
  interval : Nat
  shift : ShiftRule
  timers : TimerMode
  /-- Seed of the random numbers; without one they start anywhere. -/
  seed : Option UInt64
  deriving DecidableEq, Repr

namespace Settings

/-- Five hundred cycles a second, shifts in place, timers per cycle, no seed. -/
def standard : Settings := ⟨2000000, .inPlace, .perCycle, none⟩

/-- Standard settings at a rate of cycles per second; a rate of zero counts as one. -/
def ofRate (rate : UInt32) : Settings :=
  { standard with interval := 1000000000 / max rate.toNat 1 }

end Settings

end ChipEight
