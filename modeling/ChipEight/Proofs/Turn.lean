import ChipEight.Proofs.Stopping
import ChipEight.Session.Turn

/-!
# Turns of a session

A worker that the host lets go on in turns rests between them (`WorkerPhase.atRest`), and each of
its turns is one of those that `Turned` lists. So as many turns as the host takes are as many
cycles, up to the end of the worker (`turns_console`), and a host that halts a session between two
turns finds the worker gone (`halt_over`). All of it is made of possible moves
(`exists_run_turns`), so that what holds of runs holds of turns.
-/
namespace ChipEight

theorem Instant.last_isBefore (instant : Instant) : Instant.last.isBefore instant = false := by
  have hbound := instant.inSpan
  have hlast : Instant.last.nanoseconds = clockSpan - 1 := rfl
  rw [isBefore, hlast, decide_eq_false_iff_not]
  omega

/-- The worker carries no snapshot, is not at a cycle, and does not have to clear the flag. -/
def WorkerPhase.atRest : WorkerPhase → Bool
  | .ready | .reckoning | .pacing _ | .parked | .finished _ | .panicked | .overran => true
  | _ => false

/-- The moves that a worker can make where it stands. -/
def WorkerPhase.makes : WorkerPhase → Move → Bool
  | .ready, .enter | .admitted, .cycle _ | .storing _, .publish | .notifying _, .notify _
  | .reckoning, .reckon _ | .pacing _, .pace _ | .parked, .wake | .closing _, .close => true
  | _, _ => false

/-- A move of the worker. -/
def Move.isWorkers : Move → Bool
  | .enter | .cycle _ | .publish | .notify _ | .reckon _ | .pace _ | .wake | .close => true
  | _ => false

namespace Session

variable {s after : Session} {move : Move} {rest : List Move} {ticks : UInt8} {panics : Bool}

/-! ## Moves that are made if they are possible -/

theorem play_nil (s : Session) : s.play [] = s := rfl

theorem play_cons (hstep : s.step move = some after) :
    s.play (move :: rest) = after.play rest := by
  rw [play, List.foldl_cons, hstep]
  rfl

theorem play_cons_none (hstep : s.step move = none) : s.play (move :: rest) = s.play rest := by
  rw [play, List.foldl_cons, hstep]
  rfl

/-- A worker makes a move only where it stands at it, and leaves the host alone. -/
theorem Takes.of_isWorkers (h : s.Takes move after) (hmove : move.isWorkers = true) :
    s.worker.makes move = true ∧ after.host = s.host ∧ after.joined = s.joined := by
  cases h with
  | enter hworker | cycle _ hworker | publish hworker | skip _ hworker _ | panic hworker _
  | notify hworker _ | reckon hworker _ | overrun hworker _ | pace _ hworker | wake hworker
  | close hworker =>
    rw [hworker]
    exact ⟨rfl, rfl, rfl⟩
  | ask hasks _ _ | refuse hasks _ _ =>
    cases move with
    | press key | release key => cases hmove
    | _ => cases hasks
  | handle _ _ | stop _ _ | stopAgain _ _ | wait _ _ | waitAgain _ _ | join _ _ => cases hmove

theorem step_eq_none (hmove : move.isWorkers = true) (h : s.worker.makes move = false) :
    s.step move = none := by
  refine Option.eq_none_iff_forall_ne_some.mpr fun after hstep => ?_
  obtain ⟨hmakes, -⟩ := (takes_of_step hstep).of_isWorkers hmove
  rw [h] at hmakes
  cases hmakes

theorem play_skip (hmove : move.isWorkers = true) (h : s.worker.makes move = false) :
    s.play (move :: rest) = s.play rest :=
  play_cons_none (step_eq_none hmove h)

/-- What is played is a run of those of the moves that are possible. -/
theorem exists_run_play (s : Session) (moves : List Move) :
    ∃ made, made.Sublist moves ∧ s.run made = some (s.play moves) := by
  induction moves generalizing s with
  | nil => exact ⟨[], .slnil, rfl⟩
  | cons move rest ih =>
    cases hstep : s.step move with
    | none =>
      obtain ⟨made, hsub, hrun⟩ := ih s
      rw [play_cons_none hstep]
      exact ⟨made, hsub.cons move, hrun⟩
    | some after =>
      obtain ⟨made, hsub, hrun⟩ := ih after
      rw [play_cons hstep]
      exact ⟨move :: made, hsub.cons_cons move, (run_cons hstep).trans hrun⟩

/-- Moves that do nothing to the machine leave it alone. -/
theorem play_console {moves : List Move}
    (hmoves : ∀ move ∈ moves, ∀ s : Session, s.effect move = []) :
    (s.play moves).console = s.console := by
  induction moves generalizing s with
  | nil => rfl
  | cons move rest ih =>
    obtain ⟨hfirst, hrest⟩ := List.forall_mem_cons.mp hmoves
    cases hstep : s.step move with
    | none =>
      rw [play_cons_none hstep]
      exact ih hrest
    | some after =>
      have hconsole := (takes_of_step hstep).simulates.console
      rw [hfirst] at hconsole
      rw [play_cons hstep, ih hrest]
      exact hconsole

/-- A worker that is gone makes no move. -/
theorem play_of_gone (hgone : s.worker.outcome?.isSome = true) {moves : List Move}
    (hmoves : ∀ move ∈ moves, move.isWorkers = true) : s.play moves = s := by
  have hnone : ∀ move, s.worker.makes move = false := by
    intro move
    cases hworker : s.worker with
    | finished _ | panicked | overran => rfl
    | _ =>
      rw [hworker] at hgone
      cases hgone
  induction moves with
  | nil => rfl
  | cons move rest ih =>
    obtain ⟨hfirst, hrest⟩ := List.forall_mem_cons.mp hmoves
    rw [play_skip hfirst (hnone move)]
    exact ih hrest

theorem isWorkers_turnMoves (ticks : UInt8) (panics : Bool) :
    ∀ move ∈ turnMoves ticks panics, move.isWorkers = true :=
  List.all_eq_true.mp rfl

theorem turn_of_gone (hgone : s.worker.outcome?.isSome = true) (ticks : UInt8) (panics : Bool) :
    s.turn ticks panics = s :=
  play_of_gone hgone (isWorkers_turnMoves ticks panics)

/-- The moves of the worker are nothing to the host. -/
theorem play_host {moves : List Move} (hmoves : ∀ move ∈ moves, move.isWorkers = true) :
    (s.play moves).host = s.host ∧ (s.play moves).joined = s.joined := by
  induction moves generalizing s with
  | nil => exact ⟨rfl, rfl⟩
  | cons move rest ih =>
    obtain ⟨hfirst, hrest⟩ := List.forall_mem_cons.mp hmoves
    cases hstep : s.step move with
    | none =>
      rw [play_cons_none hstep]
      exact ih hrest
    | some after =>
      obtain ⟨-, hhost, hjoined⟩ := (takes_of_step hstep).of_isWorkers hfirst
      obtain ⟨hhost', hjoined'⟩ := ih (s := after) hrest
      rw [play_cons hstep]
      exact ⟨hhost'.trans hhost, hjoined'.trans hjoined⟩

theorem turns_eq_play (s : Session) (ticks : List UInt8) :
    s.turns ticks = s.play (ticks.flatMap (turnMoves · false)) := by
  rw [turns, play, List.foldl_flatMap]
  rfl

theorem exists_run_turns (s : Session) (ticks : List UInt8) :
    ∃ made, s.run made = some (s.turns ticks) := by
  obtain ⟨made, -, hrun⟩ := s.exists_run_play (ticks.flatMap (turnMoves · false))
  exact ⟨made, s.turns_eq_play ticks ▸ hrun⟩

/-! ## One turn -/

/-- What a resting worker does in its next turn. -/
inductive Turned (s : Session) (ticks : UInt8) (panics : Bool) : Session → Prop where
  | gone (hgone : s.worker.outcome?.isSome = true) : s.Turned ticks panics s
  | overran (hworker : s.worker = .reckoning) (hinterval : clockSpan ≤ s.interval) :
      s.Turned ticks panics { s with worker := .overran }
  | left (hrunning : s.running = false) :
      s.Turned ticks panics { s with worker := .finished (.ok ()) }
  | ran (hrunning : s.running = true) :
      s.Turned ticks panics ((s.runCycle ticks).play [.publish, .notify panics, .close])

/-- At the last reading of the clock every interval has passed. -/
theorem step_pace_last {deadline : Instant} (h : s.worker = .pacing deadline) :
    s.step (.pace .last) = some { s with worker := .ready } := by
  dsimp only [step, workerStep]
  rw [h]
  dsimp only
  rw [deadline.last_isBefore, Bool.and_false]
  rfl

/-- From the first reading the clock goes as far as an interval that is shorter than its span. -/
theorem step_reckon_first (h : s.worker = .reckoning) :
    (s.interval < clockSpan ∧
        ∃ deadline, s.step (.reckon .first) = some { s with worker := .pacing deadline }) ∨
      clockSpan ≤ s.interval ∧
        s.step (.reckon .first) = some { s with worker := .overran } := by
  have hzero : Instant.first.nanoseconds + s.interval = s.interval := Nat.zero_add _
  dsimp only [step, workerStep]
  rw [h]
  dsimp only
  cases hlater : Instant.first.later? s.interval with
  | none =>
    rw [Instant.later?_eq_none_iff, hzero] at hlater
    exact Or.inr ⟨hlater, rfl⟩
  | some deadline =>
    have hinside : ¬ clockSpan ≤ Instant.first.nanoseconds + s.interval := by
      rw [← Instant.later?_eq_none_iff, hlater]
      nofun
    rw [hzero] at hinside
    exact Or.inl ⟨Nat.lt_of_not_le hinside, deadline, rfl⟩

/-- What a worker that has seen to its snapshot does goes for one that has woken up as well. -/
theorem Turned.of_ready {phase : WorkerPhase}
    (h : Turned { s with worker := .ready } ticks panics after) :
    Turned { s with worker := phase } ticks panics after := by
  cases h with
  | gone hgone => cases hgone
  | overran hworker _ => cases hworker
  | left hrunning => exact .left hrunning
  | ran hrunning => exact .ran hrunning

theorem turned_of_ready (s : Session) (ticks : UInt8) (panics : Bool) :
    Turned { s with worker := .ready } ticks panics
      (play { s with worker := .ready }
        [.enter, .cycle ticks, .publish, .notify panics, .close]) := by
  by_cases hrunning : s.running = true
  · have henter : step { s with worker := .ready } .enter =
        some { s with worker := .admitted } := by
      dsimp only [step, workerStep]
      rw [if_pos hrunning]
    have hcycle : step { s with worker := .admitted } (.cycle ticks) =
        some (s.runCycle ticks) := rfl
    rw [play_cons henter, play_cons hcycle]
    exact .ran hrunning
  · have henter : step { s with worker := .ready } .enter =
        some { s with worker := .closing (.ok ()) } := by
      dsimp only [step, workerStep]
      rw [if_neg hrunning]
    have hclose : step { s with worker := .closing (.ok ()) } .close =
        some { s with worker := .finished (.ok ()) } := by
      rw [Bool.eq_false_iff.mpr hrunning]
      rfl
    rw [play_cons henter, play_skip rfl rfl, play_skip rfl rfl, play_skip rfl rfl,
      play_cons hclose]
    exact .left (Bool.eq_false_iff.mpr hrunning)

theorem turned_turn (hrest : s.worker.atRest = true) :
    s.Turned ticks panics (s.turn ticks panics) := by
  suffices hphase : ∀ phase : WorkerPhase, phase.atRest = true →
      Turned { s with worker := phase } ticks panics
        (turn { s with worker := phase } ticks panics) from hphase s.worker hrest
  intro phase hphase
  rw [turn, turnMoves]
  cases phase with
  | ready =>
    rw [play_skip rfl rfl, play_skip rfl rfl, play_skip rfl rfl]
    exact s.turned_of_ready ticks panics
  | parked =>
    have hwake : step { s with worker := .parked } .wake = some { s with worker := .ready } := rfl
    rw [play_cons hwake, play_skip rfl rfl, play_skip rfl rfl]
    exact (s.turned_of_ready ticks panics).of_ready
  | pacing deadline =>
    rw [play_skip rfl rfl, play_skip rfl rfl, play_cons (step_pace_last rfl)]
    exact (s.turned_of_ready ticks panics).of_ready
  | reckoning =>
    rw [play_skip rfl rfl]
    rcases step_reckon_first (s := { s with worker := .reckoning }) rfl with
      ⟨hinside, deadline, hreckon⟩ | ⟨hbeyond, hreckon⟩
    · rw [play_cons hreckon, play_cons (step_pace_last rfl)]
      exact (s.turned_of_ready ticks panics).of_ready
    · rw [play_cons hreckon, play_of_gone rfl (List.all_eq_true.mp rfl)]
      exact .overran rfl hbeyond
  | finished outcome | panicked | overran =>
    rw [play_of_gone rfl (List.all_eq_true.mp rfl)]
    exact .gone rfl
  | admitted | storing _ | notifying _ | closing _ => cases hphase

/-- What the worker does after its cycle is nothing to the machine. -/
theorem console_after_cycle (s : Session) (ticks : UInt8) (panics : Bool) :
    ((s.runCycle ticks).play [.publish, .notify panics, .close]).console =
      s.console.run (s.effect (.cycle ticks)) := by
  rw [← s.runCycle_console ticks]
  apply play_console
  rw [List.forall_mem_cons, List.forall_mem_cons, List.forall_mem_singleton]
  exact ⟨fun _ => rfl, fun _ => rfl, fun _ => rfl⟩

theorem effect_cycle_of_timers (h : after.machine.timers = s.machine.timers) (ticks : UInt8) :
    after.effect (.cycle ticks) = s.effect (.cycle ticks) := by
  unfold effect
  rw [h]

theorem phaseAfter_cases (report : CycleReport) :
    (∃ snapshot, phaseAfter report = .storing snapshot) ∨ phaseAfter report = .parked ∨
      ∃ fault, phaseAfter report = .closing (.error fault) := by
  unfold phaseAfter
  split
  · exact Or.inl ⟨_, rfl⟩
  · exact Or.inr (Or.inl rfl)
  · exact Or.inr (Or.inr ⟨_, rfl⟩)

theorem step_notify (s : Session) (snapshot : Snapshot) (panics : Bool) :
    ∃ phase received, (phase = .reckoning ∨ phase = .panicked) ∧
      step { s with worker := .notifying snapshot } (.notify panics) =
        some { s with received, worker := phase } := by
  by_cases hobserved : s.observed = true
  · cases panics with
    | true =>
      refine ⟨.panicked, s.received, Or.inr rfl, ?_⟩
      dsimp only [step, workerStep]
      rw [hobserved]
      rfl
    | false =>
      refine ⟨.reckoning, snapshot :: s.received, Or.inl rfl, ?_⟩
      dsimp only [step, workerStep]
      rw [hobserved]
      rfl
  · refine ⟨.reckoning, s.received, Or.inl rfl, ?_⟩
    dsimp only [step, workerStep]
    rw [Bool.eq_false_iff.mpr hobserved]
    rfl

/-- A worker comes to rest after its cycle. -/
theorem atRest_after_cycle (s : Session) (ticks : UInt8) (panics : Bool) :
    ((s.runCycle ticks).play [.publish, .notify panics, .close]).worker.atRest = true := by
  let report := (clocked s.machine ticks).cycle s.console.random
  change (play { s.runCycle ticks with worker := phaseAfter report } _).worker.atRest = true
  generalize s.runCycle ticks = cycled
  rcases phaseAfter_cases report with ⟨snapshot, hstoring⟩ | hparked | ⟨fault, hclosing⟩
  · have hpublish : step { cycled with worker := .storing snapshot } .publish =
        some { cycled with published := some snapshot, worker := .notifying snapshot } := rfl
    obtain ⟨phase, received, hphase, hnotify⟩ :=
      step_notify { cycled with published := some snapshot } snapshot panics
    rw [hstoring, play_cons hpublish, play_cons hnotify]
    rcases hphase with rfl | rfl <;> rw [play_skip rfl rfl] <;> rfl
  · rw [hparked, play_skip rfl rfl, play_skip rfl rfl, play_skip rfl rfl]
    rfl
  · have hclose : step { cycled with worker := .closing (.error fault) } .close =
        some ({ cycled with running := false, worker := .finished (.error fault) }.logging
          [.halted fault]) := rfl
    rw [hclosing, play_skip rfl rfl, play_skip rfl rfl, play_cons hclose]
    rfl

theorem Turned.atRest (h : s.Turned ticks panics after) (hrest : s.worker.atRest = true) :
    after.worker.atRest = true := by
  cases h with
  | gone _ => exact hrest
  | overran _ _ | left _ => rfl
  | ran _ => exact s.atRest_after_cycle ticks panics

/-- A worker that finds the flag cleared is gone after its turn, and has done nothing else. -/
theorem Turned.of_stopped (h : s.Turned ticks panics after) (hrunning : s.running = false) :
    ∃ worker outcome, worker.outcome? = some outcome ∧ after = { s with worker } := by
  cases h with
  | gone hgone =>
    obtain ⟨outcome, houtcome⟩ := Option.isSome_iff_exists.mp hgone
    exact ⟨s.worker, outcome, houtcome, rfl⟩
  | overran _ _ => exact ⟨.overran, _, rfl, rfl⟩
  | left _ => exact ⟨.finished (.ok ()), _, rfl, rfl⟩
  | ran hset =>
    rw [hrunning] at hset
    cases hset

/-! ## Turn after turn -/

theorem turns_cons (s : Session) (first : UInt8) (rest : List UInt8) :
    s.turns (first :: rest) = (s.turn first false).turns rest :=
  List.foldl_cons ..

theorem turns_of_gone (hgone : s.worker.outcome?.isSome = true) (ticks : List UInt8) :
    s.turns ticks = s := by
  induction ticks with
  | nil => rfl
  | cons first rest ih => rw [turns_cons, turn_of_gone hgone, ih]

/-- The machine of a session that takes turns runs for a cycle in each of them, until the worker is
gone. -/
theorem turns_console (hrest : s.worker.atRest = true) (ticks : List UInt8) :
    ∃ taken, taken <+: ticks ∧
      (s.turns ticks).console =
        s.console.run (taken.flatMap fun count => s.effect (.cycle count)) ∧
      (s.turns ticks).worker.atRest = true ∧
      (taken = ticks ∨ (s.turns ticks).worker.outcome?.isSome = true) := by
  induction ticks generalizing s with
  | nil => exact ⟨[], List.nil_prefix, rfl, hrest, Or.inl rfl⟩
  | cons first rest ih =>
    have hturned : s.Turned first false (s.turn first false) := turned_turn hrest
    have hafter := hturned.atRest hrest
    rw [turns_cons]
    generalize s.turn first false = after at hturned hafter
    have hgone (hout : after.worker.outcome?.isSome = true) (hconsole : after.console = s.console) :
        ∃ taken, taken <+: first :: rest ∧
          (after.turns rest).console =
            s.console.run (taken.flatMap fun count => s.effect (.cycle count)) ∧
          (after.turns rest).worker.atRest = true ∧
          (taken = first :: rest ∨ (after.turns rest).worker.outcome?.isSome = true) := by
      rw [turns_of_gone hout]
      exact ⟨[], List.nil_prefix, hconsole, hafter, Or.inr hout⟩
    cases hturned with
    | gone hout => exact hgone hout rfl
    | overran _ _ | left _ => exact hgone rfl rfl
    | ran _ =>
      obtain ⟨taken, htaken, hconsole, hlast, hall⟩ := ih hafter
      have hcycled := s.console_after_cycle first false
      have htimers := s.console.run_timers (s.effect (.cycle first))
      rw [← hcycled] at htimers
      refine ⟨first :: taken, (List.prefix_cons_inj first).mpr htaken, ?_, hlast, ?_⟩
      · rw [hconsole, List.flatMap_cons, Console.run_append, ← hcycled]
        congr 2
        funext count
        exact effect_cycle_of_timers htimers count
      · exact hall.imp_left (congrArg _)

theorem turns_host (s : Session) (ticks : List UInt8) :
    (s.turns ticks).host = s.host ∧ (s.turns ticks).joined = s.joined := by
  rw [turns_eq_play]
  refine play_host fun move hmove => ?_
  obtain ⟨count, -, hturn⟩ := List.mem_flatMap.mp hmove
  exact isWorkers_turnMoves count false move hturn

/-! ## The end of a session -/

theorem exists_stop (hhost : s.host = .idle) : ∃ stopping, s.step .stop = some stopping := by
  dsimp only [step, workerStep, hostStep]
  rw [hhost]
  exact ⟨_, rfl⟩

theorem step_join (hhost : s.host = .joining) {outcome : Except Fault Unit}
    (houtcome : s.worker.outcome? = some outcome) :
    s.step .join = some ({ s with host := .idle, joined := true }.answering outcome) := by
  dsimp only [step, workerStep, hostStep]
  rw [hhost]
  dsimp only
  rw [houtcome]
  rfl

/-- Where a call was told the outcome before, only the call that halts the session again is
answered. -/
theorem halt_of_joined (hhost : s.host = .idle) (hjoined : s.joined = true)
    (hgone : s.worker.outcome?.isSome = true) (panics : Bool) :
    s.halt panics = { s with running := false }.answering (.ok ()) := by
  obtain ⟨stopping, hstop⟩ := exists_stop hhost
  cases takes_of_step hstop with
  | ask hasks _ _ | refuse hasks _ _ => cases hasks
  | stop _ hnone =>
    rw [hjoined] at hnone
    cases hnone
  | stopAgain _ _ =>
    have hjoin : ({ s with running := false }.answering (.ok ())).step .join = none := by
      dsimp only [step, workerStep, hostStep, answering]
      rw [hhost]
    rw [halt, play_cons hstop, play_nil, turn_of_gone (by exact hgone), play_cons_none hjoin,
      play_nil]

/-- The first call to be told waits for the worker, and takes its outcome. -/
theorem halt_of_not_joined (hrest : s.worker.atRest = true) (hhost : s.host = .idle)
    (hjoined : s.joined = false) (panics : Bool) :
    ∃ worker outcome, worker.outcome? = some outcome ∧
      s.halt panics =
        { s.logging [.stopping] with running := false, worker, host := .idle, joined := true
          }.answering outcome := by
  obtain ⟨stopping, hstop⟩ := exists_stop hhost
  cases takes_of_step hstop with
  | ask hasks _ _ | refuse hasks _ _ => cases hasks
  | stopAgain _ hsome =>
    rw [hjoined] at hsome
    cases hsome
  | stop _ _ =>
    rw [halt, play_cons hstop, play_nil]
    let stopped : Session := { s.logging [.stopping] with running := false, host := .joining }
    have hturned : stopped.Turned 0 panics (stopped.turn 0 panics) := turned_turn hrest
    obtain ⟨worker, outcome, houtcome, hturn⟩ := hturned.of_stopped rfl
    refine ⟨worker, outcome, houtcome, ?_⟩
    rw [hturn, play_cons (step_join rfl houtcome), play_nil]

/-- A session that is halted between two turns has ended when the call returns, which is told the
outcome of the worker if no call before it was. -/
theorem halt_over (hrest : s.worker.atRest = true) (hhost : s.host = .idle) (hs : s.Answered)
    (panics : Bool) :
    (s.halt panics).Over ∧ (s.halt panics).console = s.console ∧
      (s.halt panics).log = (if s.joined then s.log else .stopping :: s.log) ∧
      (s.halt panics).lastReturned =
        if s.joined then some (.ok ()) else (s.halt panics).worker.outcome? := by
  cases hs with
  | pending hjoined _ =>
    obtain ⟨worker, outcome, houtcome, hhalt⟩ := halt_of_not_joined hrest hhost hjoined panics
    rw [hhalt, hjoined]
    exact ⟨⟨rfl, rfl, rfl, Option.isSome_of_eq_some houtcome⟩, rfl, rfl, houtcome.symm⟩
  | handedOut hjoined _ houtcome _ _ =>
    have hgone := Option.isSome_of_eq_some houtcome
    rw [halt_of_joined hhost hjoined hgone, if_pos hjoined, if_pos hjoined]
    exact ⟨⟨rfl, hhost, hjoined, hgone⟩, rfl, rfl, rfl⟩

theorem giveUp_cases (s : Session) (panics : Bool) :
    (∃ fault, (s.halt panics).lastReturned = some (.error fault) ∧
        s.giveUp panics = (s.halt panics).logging [.abandoned fault]) ∨
      (∀ fault, (s.halt panics).lastReturned ≠ some (.error fault)) ∧
        s.giveUp panics = s.halt panics := by
  unfold giveUp
  dsimp only
  generalize s.halt panics = halted
  split
  · rename_i fault hfault
    exact Or.inl ⟨fault, hfault, rfl⟩
  · rename_i hnone
    exact Or.inr ⟨hnone, rfl⟩

/-- A session that is given up between two turns has ended. The fault of the worker is logged, if
there is one and no call before was told. -/
theorem giveUp_over (hrest : s.worker.atRest = true) (hhost : s.host = .idle) (hs : s.Answered)
    (panics : Bool) :
    (s.giveUp panics).Over ∧
      ∃ lines, (s.giveUp panics).log = lines ++ s.log ∧
        ∀ fault, .abandoned fault ∈ lines ↔
          s.joined = false ∧ (s.giveUp panics).worker.outcome? = some (.error fault) := by
  obtain ⟨hover, -, hlog, hreturned⟩ := halt_over hrest hhost hs panics
  rcases s.giveUp_cases panics with ⟨fault, hfault, hgiven⟩ | ⟨hnone, hgiven⟩
  · have hjoined : s.joined = false := by
      cases hjoined : s.joined with
      | false => rfl
      | true =>
        rw [hjoined] at hreturned
        cases hfault.symm.trans hreturned
    rw [hjoined] at hlog hreturned
    have houtcome : (s.halt panics).worker.outcome? = some (.error fault) :=
      hreturned.symm.trans hfault
    rw [hgiven]
    refine ⟨⟨hover.running, hover.host, hover.joined, hover.gone⟩,
      [.abandoned fault, .stopping], congrArg _ hlog, fun other => ?_⟩
    change _ ↔ _ ∧ (s.halt panics).worker.outcome? = _
    simp [hjoined, houtcome, eq_comm]
  · rw [hgiven]
    refine ⟨hover, if s.joined then [] else [.stopping], ?_, fun fault => iff_of_false ?_ ?_⟩
    · rw [hlog]
      split <;> rfl
    · split <;> simp
    · rintro ⟨hjoined, houtcome⟩
      rw [hjoined] at hreturned
      exact hnone fault (hreturned.trans houtcome)

/-- A program that is run in turns and then halted: the machine has run for a cycle in each turn
until the worker was gone, and the call is told the worker's outcome. -/
theorem halt_turns {settings : Settings} {word : Nat → UInt32} {program : Array UInt8}
    {observed : Bool} {start : Session}
    (hstart : Session.start settings word program observed = .ok start) (ticks : List UInt8)
    (panics : Bool) :
    let s := start.turns ticks
    let halted := s.halt panics
    halted.Over ∧ halted.lastReturned = halted.worker.outcome? ∧
      ∃ taken, taken <+: ticks ∧
        halted.console =
          start.console.run (taken.flatMap fun count => start.effect (.cycle count)) ∧
        (taken = ticks ∨ s.worker.outcome?.isSome = true) := by
  intro s halted
  obtain ⟨made, hrun⟩ := start.exists_run_turns ticks
  have hanswered := (tells_run hstart hrun).answered
  obtain ⟨hready, hidle, hnone⟩ :
      start.worker.atRest = true ∧ start.host = .idle ∧ start.joined = false := by
    obtain ⟨machine, -, rfl⟩ := start_ok hstart
    exact ⟨rfl, rfl, rfl⟩
  obtain ⟨hhost, hjoined⟩ := start.turns_host ticks
  obtain ⟨taken, htaken, hconsole, hrest, hall⟩ := turns_console hready ticks
  obtain ⟨hover, hkept, -, hreturned⟩ :=
    halt_over hrest (hhost.trans hidle) hanswered panics
  rw [hjoined, hnone] at hreturned
  exact ⟨hover, hreturned, taken, htaken, hkept.trans hconsole, hall⟩

end Session

end ChipEight
