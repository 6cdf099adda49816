import ChipEight.Session.Step

/-!
# What each move of a session does

A move that is possible is one of those that `Takes` lists, with what it leads to. Moves
that ask for a key to go down or up differ in the key only, and are listed as one.
-/
namespace ChipEight

/-- What the host is about to do under the lock. -/
def HostPhase.inHand : HostPhase → Option Operation
  | .pressing key => some (.press key)
  | .releasing key => some (.release key)
  | _ => none

/-- Where a host stands that asked for a key to go down or up while the session runs. -/
def Move.asks : Move → Option HostPhase
  | .press key => some (.pressing key)
  | .release key => some (.releasing key)
  | _ => none

namespace Session

/-- The possible moves and what they lead to. -/
inductive Takes (s : Session) : Move → Session → Prop where
  | enter (hworker : s.worker = .ready) :
      s.Takes .enter { s with worker := if s.running then .admitted else .closing (.ok ()) }
  | cycle (ticks : UInt8) (hworker : s.worker = .admitted) :
      s.Takes (.cycle ticks) (s.runCycle ticks)
  | publish {snapshot : Snapshot} (hworker : s.worker = .storing snapshot) :
      s.Takes .publish { s with published := some snapshot, worker := .notifying snapshot }
  | skip (panics : Bool) {snapshot : Snapshot} (hworker : s.worker = .notifying snapshot)
      (hobserved : s.observed = false) :
      s.Takes (.notify panics) { s with worker := .reckoning }
  | panic {snapshot : Snapshot} (hworker : s.worker = .notifying snapshot)
      (hobserved : s.observed = true) :
      s.Takes (.notify true) { s with worker := .panicked }
  | notify {snapshot : Snapshot} (hworker : s.worker = .notifying snapshot)
      (hobserved : s.observed = true) :
      s.Takes (.notify false) { s with received := snapshot :: s.received, worker := .reckoning }
  | reckon {began deadline : Instant} (hworker : s.worker = .reckoning)
      (hlater : began.later? s.interval = some deadline) :
      s.Takes (.reckon began) { s with worker := .pacing deadline }
  | overrun {began : Instant} (hworker : s.worker = .reckoning)
      (hlater : began.later? s.interval = none) :
      s.Takes (.reckon began) { s with worker := .overran }
  | pace (now : Instant) {deadline : Instant} (hworker : s.worker = .pacing deadline) :
      s.Takes (.pace now)
        { s with
          worker := if s.running && now.isBefore deadline then .pacing deadline else .ready }
  | wake (hworker : s.worker = .parked) : s.Takes .wake { s with worker := .ready }
  | close {outcome : Except Fault Unit} (hworker : s.worker = .closing outcome) :
      s.Takes .close
        ({ s with running := false, worker := .finished outcome }.logging (closingLog outcome))
  | ask {move : Move} {phase : HostPhase} (hasks : move.asks = some phase)
      (hhost : s.host = .idle) (hrunning : s.running = true) :
      s.Takes move { s with host := phase }
  | refuse {move : Move} {phase : HostPhase} (hasks : move.asks = some phase)
      (hhost : s.host = .idle) (hrunning : s.running = false) : s.Takes move s
  | handle {operation : Operation} (hhand : s.host.inHand = some operation)
      (hlock : s.worker.holdsLock = false) :
      s.Takes .handle
        ({ s with console := (s.console.perform operation).console, host := .idle }.logging
          (s.console.perform operation).log)
  | stop (hhost : s.host = .idle) (hjoined : s.joined = false) :
      s.Takes .stop { s.logging [.stopping] with running := false, host := .joining }
  | stopAgain (hhost : s.host = .idle) (hjoined : s.joined = true) :
      s.Takes .stop ({ s with running := false }.answering (.ok ()))
  | wait (hhost : s.host = .idle) (hjoined : s.joined = false) :
      s.Takes .wait { s with host := .joining }
  | waitAgain (hhost : s.host = .idle) (hjoined : s.joined = true) :
      s.Takes .wait (s.answering (.ok ()))
  | join {outcome : Except Fault Unit} (hhost : s.host = .joining)
      (houtcome : s.worker.outcome? = some outcome) :
      s.Takes .join ({ s with host := .idle, joined := true }.answering outcome)

variable {s after : Session} {move : Move}

theorem takes_of_workerStep (h : s.workerStep move = some after) : s.Takes move after := by
  cases move with
  | enter =>
    dsimp only [workerStep] at h
    split at h
    · cases h; exact .enter ‹_›
    · cases h
  | cycle ticks =>
    dsimp only [workerStep] at h
    split at h
    · cases h; exact .cycle ticks ‹_›
    · cases h
  | publish =>
    dsimp only [workerStep] at h
    split at h
    · cases h; exact .publish ‹_›
    · cases h
  | notify panics =>
    dsimp only [workerStep] at h
    split at h
    · rename_i hworker
      split at h
      · rename_i hnone
        cases h
        exact .skip panics hworker (by simpa using hnone)
      · rename_i hsome
        have hobserved : s.observed = true := by simpa using hsome
        cases panics with
        | false => cases h; exact .notify hworker hobserved
        | true => cases h; exact .panic hworker hobserved
    · cases h
  | reckon began =>
    dsimp only [workerStep] at h
    split at h
    · rename_i hworker
      split at h
      · cases h; exact .reckon hworker ‹_›
      · cases h; exact .overrun hworker ‹_›
    · cases h
  | pace now =>
    dsimp only [workerStep] at h
    split at h
    · cases h; exact .pace now ‹_›
    · cases h
  | wake =>
    dsimp only [workerStep] at h
    split at h
    · cases h; exact .wake ‹_›
    · cases h
  | close =>
    dsimp only [workerStep] at h
    split at h
    · cases h; exact .close ‹_›
    · cases h
  | _ => cases h

/-- Asking for a key takes the host on if the session runs. -/
theorem takes_of_asks {phase : HostPhase} (hasks : move.asks = some phase)
    (h : (match s.host with
      | .idle => some (if s.running then { s with host := phase } else s)
      | _ => none) = some after) : s.Takes move after := by
  split at h
  · rename_i hhost
    split at h
    · rename_i hrunning
      cases h
      exact .ask hasks hhost hrunning
    · rename_i hrunning
      cases h
      exact .refuse hasks hhost (Bool.eq_false_iff.mpr hrunning)
  · cases h

theorem takes_of_handleKey (hlock : s.worker.holdsLock = false) (h : s.handleKey = some after) :
    s.Takes .handle after := by
  unfold handleKey at h
  split at h
  · rename_i key hhost
    have hhand : s.host.inHand = some (.press key) := congrArg HostPhase.inHand hhost
    cases h
    exact .handle hhand hlock
  · rename_i key hhost
    have hhand : s.host.inHand = some (.release key) := congrArg HostPhase.inHand hhost
    cases h
    exact .handle hhand hlock
  · cases h

theorem turnToJoin_of_joined (h : s.joined = true) : s.turnToJoin = s.answering (.ok ()) :=
  if_pos h

theorem turnToJoin_of_not_joined (h : ¬ s.joined = true) :
    s.turnToJoin = { s with host := .joining } :=
  if_neg h

theorem takes_of_hostStep (h : s.hostStep move = some after) : s.Takes move after := by
  cases move with
  | press key => exact takes_of_asks rfl h
  | release key => exact takes_of_asks rfl h
  | handle =>
    dsimp only [hostStep] at h
    split at h
    · cases h
    · rename_i hlock
      exact takes_of_handleKey (Bool.eq_false_iff.mpr hlock) h
  | stop =>
    dsimp only [hostStep] at h
    split at h
    · rename_i hhost
      by_cases hjoined : s.joined = true
      · rw [if_pos hjoined, turnToJoin_of_joined (by exact hjoined)] at h
        cases h
        exact .stopAgain hhost hjoined
      · rw [if_neg hjoined, turnToJoin_of_not_joined (by exact hjoined)] at h
        cases h
        exact .stop hhost (Bool.eq_false_iff.mpr hjoined)
    · cases h
  | wait =>
    dsimp only [hostStep] at h
    split at h
    · rename_i hhost
      by_cases hjoined : s.joined = true
      · rw [turnToJoin_of_joined hjoined] at h
        cases h
        exact .waitAgain hhost hjoined
      · rw [turnToJoin_of_not_joined hjoined] at h
        cases h
        exact .wait hhost (Bool.eq_false_iff.mpr hjoined)
    · cases h
  | join =>
    dsimp only [hostStep] at h
    split at h
    · rename_i hhost
      obtain ⟨outcome, houtcome, rfl⟩ := Option.map_eq_some_iff.mp h
      exact .join hhost houtcome
    · cases h
  | _ => cases h

theorem takes_of_step (h : s.step move = some after) : s.Takes move after := by
  unfold step at h
  split at h
  · rename_i hworker
    cases h
    exact takes_of_workerStep hworker
  · exact takes_of_hostStep h

end Session

end ChipEight
