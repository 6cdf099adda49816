import ChipEight.Session.Basic

/-!
# Steps of a session

Every move of the worker and of the host is one atomic step: one section under the lock,
one access to the flag, or one call of the observer. A move is possible only in the
phase that it belongs to, and what the lock guards only while the worker does not hold
it. Any order of possible moves is a run of the session.
-/
namespace ChipEight

inductive Move where
  /-- The worker takes the lock and looks at the flag. -/
  | enter
  /-- The worker runs a cycle and lets the lock go; `ticks` of the clock have passed. -/
  | cycle (ticks : UInt8)
  /-- The worker publishes its snapshot. -/
  | publish
  /-- The worker calls the observer, which may panic. -/
  | notify (panics : Bool)
  /-- The worker adds the interval to the instant at which it `began` this pass. -/
  | reckon (began : Instant)
  /-- The worker looks at the flag and at the clock. -/
  | pace (now : Instant)
  /-- The worker wakes up. -/
  | wake
  /-- The worker clears the flag and is gone. -/
  | close
  /-- The host looks at the flag to press a key. -/
  | press (key : UInt8)
  /-- The host looks at the flag to release a key. -/
  | release (key : UInt8)
  /-- The host takes the lock and does what it has in hand. -/
  | handle
  /-- The host clears the flag and turns to the worker's end. -/
  | stop
  /-- The host turns to the worker's end. -/
  | wait
  /-- The host receives the outcome of the worker. -/
  | join
  deriving DecidableEq, Repr

namespace Session

def machine (s : Session) : Machine := s.console.machine

/-- Adds entries to the log, the first of them first. -/
def logging (s : Session) (entries : List LogEntry) : Session :=
  { s with log := entries.reverse ++ s.log }

/-- Counts ticks of the clock, if the timers follow it. -/
def clocked (m : Machine) (ticks : UInt8) : Machine :=
  match m.timers with
  | .perCycle => m
  | .realtime => m.elapse ticks

/-- Phase of the worker after a cycle. -/
def phaseAfter (report : CycleReport) : WorkerPhase :=
  match report.result with
  | .ok .executed => .storing report.machine.snapshot
  | .ok .suspended => .parked
  | .error fault => .closing (.error fault)

/-- The cycle of an admitted worker. -/
def runCycle (s : Session) (ticks : UInt8) : Session :=
  let report := (clocked s.machine ticks).cycle s.console.random
  { s with console := ⟨report.machine, report.random⟩, worker := phaseAfter report }.logging
    report.log

/-- What a worker that clears the flag logs. -/
def closingLog : Except Fault Unit → List LogEntry
  | .ok () => []
  | .error fault => [.halted fault]

/-- Puts the outcome of the worker on the host's record. -/
def answering (s : Session) (outcome : Except Fault Unit) : Session :=
  { s with returned := outcome :: s.returned }

/-- The moves of the worker. -/
def workerStep (s : Session) : Move → Option Session
  | .enter =>
      match s.worker with
      | .ready => some { s with worker := if s.running then .admitted else .closing (.ok ()) }
      | _ => none
  | .cycle ticks =>
      match s.worker with
      | .admitted => some (s.runCycle ticks)
      | _ => none
  | .publish =>
      match s.worker with
      | .storing snapshot =>
          some { s with published := some snapshot, worker := .notifying snapshot }
      | _ => none
  | .notify panics =>
      match s.worker with
      | .notifying snapshot =>
          if !s.observed then some { s with worker := .reckoning }
          else if panics then some { s with worker := .panicked }
          else some { s with received := snapshot :: s.received, worker := .reckoning }
      | _ => none
  | .reckon began =>
      match s.worker with
      | .reckoning =>
          match began.later? s.interval with
          | some deadline => some { s with worker := .pacing deadline }
          | none => some { s with worker := .overran }
      | _ => none
  | .pace now =>
      match s.worker with
      | .pacing deadline =>
          some
            { s with
              worker := if s.running && now.isBefore deadline then .pacing deadline else .ready }
      | _ => none
  | .wake =>
      match s.worker with
      | .parked => some { s with worker := .ready }
      | _ => none
  | .close =>
      match s.worker with
      | .closing outcome =>
          some ({ s with running := false, worker := .finished outcome }.logging
            (closingLog outcome))
      | _ => none
  | _ => none

/-- A host that ends the session waits for the worker, but only the first time. -/
def turnToJoin (s : Session) : Session :=
  if s.joined then s.answering (.ok ()) else { s with host := .joining }

/-- The host's section under the lock. -/
def handleKey (s : Session) : Option Session :=
  match s.host with
  | .pressing key =>
      let report := s.console.perform (.press key)
      some ({ s with console := report.console, host := .idle }.logging report.log)
  | .releasing key =>
      let report := s.console.perform (.release key)
      some ({ s with console := report.console, host := .idle }.logging report.log)
  | _ => none

/-- The moves of the host. -/
def hostStep (s : Session) : Move → Option Session
  | .press key =>
      match s.host with
      | .idle => some (if s.running then { s with host := .pressing key } else s)
      | _ => none
  | .release key =>
      match s.host with
      | .idle => some (if s.running then { s with host := .releasing key } else s)
      | _ => none
  | .handle => if s.worker.holdsLock then none else s.handleKey
  | .stop =>
      match s.host with
      | .idle =>
          let s := if s.joined then s else s.logging [.stopping]
          some { s with running := false }.turnToJoin
      | _ => none
  | .wait =>
      match s.host with
      | .idle => some s.turnToJoin
      | _ => none
  | .join =>
      match s.host with
      | .joining =>
          s.worker.outcome?.map fun outcome =>
            { s with host := .idle, joined := true }.answering outcome
      | _ => none
  | _ => none

/-- The session after a move, if the move is possible. -/
def step (s : Session) (move : Move) : Option Session :=
  match s.workerStep move with
  | some after => some after
  | none => s.hostStep move

/-- The session after a list of moves, if each is possible in its turn. -/
def run (s : Session) : List Move → Option Session
  | [] => some s
  | move :: rest => (s.step move).bind fun after => after.run rest

/-- Makes those of the moves that are possible in their turn. -/
def play (s : Session) (moves : List Move) : Session :=
  moves.foldl (fun s move => (s.step move).getD s) s

end Session

end ChipEight
