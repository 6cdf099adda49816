import ChipEight.Instant
import ChipEight.Machine.Operation
import ChipEight.Machine.Snapshot

/-!
# Sessions

A session runs a machine on a worker of its own while a host feeds it keys and may
stop it. The two share the machine, which a lock guards, a flag that says whether the
session runs, and the last published snapshot. A phase says where each of them stands
between two atomic steps and holds what it carries from one to the next.
-/
namespace ChipEight

/-- Where the worker stands. -/
inductive WorkerPhase where
  /-- Before the lock. -/
  | ready
  /-- Holds the lock and has seen the flag set. -/
  | admitted
  /-- Has a snapshot to publish. -/
  | storing (snapshot : Snapshot)
  /-- Has a snapshot to hand to the observer. -/
  | notifying (snapshot : Snapshot)
  /-- Is about to work out when the interval ends. -/
  | reckoning
  /-- Lets the rest of the interval pass. -/
  | pacing (deadline : Instant)
  /-- Sleeps because the machine waits for a key. -/
  | parked
  /-- Has left the loop and is about to clear the flag. -/
  | closing (outcome : Except Fault Unit)
  | finished (outcome : Except Fault Unit)
  /-- The observer panicked, which ended the worker on the spot. -/
  | panicked
  /-- The clock does not go as far as the end of the interval, and the worker panicked over it. -/
  | overran

/-- Says whether the worker holds the lock between two steps. -/
def WorkerPhase.holdsLock : WorkerPhase → Bool
  | .admitted => true
  | _ => false

/-- What the worker left behind, once it is gone. -/
def WorkerPhase.outcome? : WorkerPhase → Option (Except Fault Unit)
  | .finished outcome => some outcome
  | .panicked | .overran => some (.error .workerPanicked)
  | _ => none

/-- Where the host stands. -/
inductive HostPhase where
  /-- Between two calls. -/
  | idle
  /-- Has seen the flag set and is about to press a key. -/
  | pressing (key : UInt8)
  /-- Has seen the flag set and is about to release a key. -/
  | releasing (key : UInt8)
  /-- Waits for the worker to be gone. -/
  | joining
  deriving DecidableEq, Repr

structure Session where
  /-- The machine behind the lock, with its random words. -/
  console : Console
  /-- Nanoseconds from one cycle to the next. -/
  interval : Nat
  running : Bool
  published : Option Snapshot
  worker : WorkerPhase
  host : HostPhase
  /-- The worker's outcome was handed out. -/
  joined : Bool
  /-- An observer is attached. -/
  observed : Bool
  /-- What the observer received, the latest first. -/
  received : List Snapshot
  /-- What the calls that end a session returned, the latest first. -/
  returned : List (Except Fault Unit)
  /-- What was logged, the latest first. -/
  log : List LogEntry

/-- A session on a freshly loaded program. -/
def Session.start (settings : Settings) (word : Nat → UInt32) (program : Array UInt8)
    (observed : Bool) : Except Fault Session :=
  ((Machine.fresh settings).load program).map fun machine =>
    { console := ⟨machine, .ofSequence word⟩
      interval := settings.interval
      running := true
      published := none
      worker := .ready
      host := .idle
      joined := false
      observed
      received := []
      returned := []
      log := [.starting program.size settings.interval] }

end ChipEight
