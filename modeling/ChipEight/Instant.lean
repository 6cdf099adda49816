/-!
# Instants

Readings of a clock that counts seconds and nanoseconds from its start. The count of seconds has
63 bits, so there is no instant for every time ahead.
-/
namespace ChipEight

/-- Nanoseconds that the clock can count: those of as many seconds as 63 bits can. -/
def clockSpan : Nat := 0x8000000000000000 * 1000000000

structure Instant where
  nanoseconds : Nat
  inSpan : nanoseconds < clockSpan
  deriving DecidableEq, Repr

namespace Instant

/-- The first reading. -/
def first : Instant := ⟨0, by decide⟩

/-- The last reading. -/
def last : Instant := ⟨clockSpan - 1, by decide⟩

/-- Says whether an instant comes before another one. -/
def isBefore (a b : Instant) : Bool := a.nanoseconds < b.nanoseconds

/-- The instant an interval later, if the clock goes that far. -/
def later? (start : Instant) (interval : Nat) : Option Instant :=
  if h : start.nanoseconds + interval < clockSpan then some ⟨start.nanoseconds + interval, h⟩
  else none

theorem later?_eq_none_iff {start : Instant} {interval : Nat} :
    start.later? interval = none ↔ clockSpan ≤ start.nanoseconds + interval := by
  unfold later?
  split <;> simp <;> omega

end Instant

end ChipEight
