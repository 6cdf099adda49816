import ChipEight.Session.Step

/-!
# Sessions in turns

A host that has the worker in its hands lets it go on in turns. Between two turns the worker has
passed on the snapshot of its last cycle, sleeps, or is gone.
-/
namespace ChipEight.Session

/-- The moves of a worker up to the end of its next cycle, before which `ticks` of the clock
pass. -/
def turnMoves (ticks : UInt8) (panics : Bool) : List Move :=
  [.wake, .reckon .first, .pace .last, .enter, .cycle ticks, .publish, .notify panics, .close]

/-- Lets the worker make those of these moves that are possible. -/
def turn (s : Session) (ticks : UInt8) (panics : Bool) : Session :=
  s.play (turnMoves ticks panics)

/-- Takes a turn for each of these counts of ticks, while no observer panics. -/
def turns (s : Session) (ticks : List UInt8) : Session :=
  ticks.foldl (fun s ticks => s.turn ticks false) s

/-- Clears the flag, lets the worker find out, and receives its outcome. -/
def halt (s : Session) (panics : Bool) : Session :=
  ((s.play [.stop]).turn 0 panics).play [.join]

/-- What the last call that ended the session returned. -/
def lastReturned (s : Session) : Option (Except Fault Unit) := s.returned.head?

/-- Gives the session up: it is halted, and a fault that this call is the first to receive is
logged. -/
def giveUp (s : Session) (panics : Bool) : Session :=
  let halted := s.halt panics
  match halted.lastReturned with
  | some (.error fault) => halted.logging [.abandoned fault]
  | _ => halted

end ChipEight.Session
