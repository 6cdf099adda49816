import ChipEight.Proofs.Moves
import ChipEight.Proofs.Standing

/-!
# A session as one sequential run

Cycles and key events reach the machine of a session one at a time, under the lock, so what
happens to it is a list of operations. `Simulates` says that a part of a session agrees with
such a list: in the machine, in the key events of the host, and in the snapshots, of which
none gets lost or comes twice (`AccountsFor`). It holds of every move, and passes from moves
to runs.
-/
namespace ChipEight

/-- A key goes down or up. -/
def Operation.isKeyEvent : Operation → Bool
  | .press _ | .release _ => true
  | _ => false

theorem HostPhase.isKeyEvent_inHand {phase : HostPhase} {operation : Operation}
    (h : phase.inHand = some operation) : operation.isKeyEvent = true := by
  cases phase with
  | pressing key => cases h; rfl
  | releasing key => cases h; rfl
  | _ => cases h

/-- The state that a cycle left, if it was executed. -/
def OperationReport.executed? (report : OperationReport) : Option Snapshot :=
  match report.answer with
  | .cycled (.ok .executed) => some report.console.machine.snapshot
  | _ => none

namespace Console

/-- The states after the executed cycles of a run, in their order. -/
def executedSnapshots (c : Console) (operations : List Operation) : List Snapshot :=
  (c.reports operations).filterMap OperationReport.executed?

theorem executedSnapshots_nil (c : Console) : c.executedSnapshots [] = [] := rfl

theorem executedSnapshots_append (c : Console) (first later : List Operation) :
    c.executedSnapshots (first ++ later) =
      c.executedSnapshots first ++ (c.run first).executedSnapshots later := by
  rw [executedSnapshots, reports_append, List.filterMap_append]
  rfl

theorem executedSnapshots_single (c : Console) (operation : Operation) :
    c.executedSnapshots [operation] = (c.perform operation).executed?.toList := by
  rw [executedSnapshots, reports_cons, reports_nil]
  cases hexecuted : (c.perform operation).executed? with
  | none => exact List.filterMap_cons_none hexecuted
  | some snapshot => exact List.filterMap_cons_some hexecuted

theorem executedSnapshots_keyEvent (c : Console) {operation : Operation}
    (h : operation.isKeyEvent = true) : c.executedSnapshots [operation] = [] := by
  cases operation with
  | press key => rfl
  | release key => rfl
  | _ => cases h

end Console

namespace WorkerPhase

/-- The snapshot of an executed cycle that is not published yet. -/
def toPublish : WorkerPhase → List Snapshot
  | .storing snapshot => [snapshot]
  | _ => []

/-- The snapshot that is published and about to be handed to the observer. -/
def toDeliver : WorkerPhase → List Snapshot
  | .notifying snapshot => [snapshot]
  | _ => []

/-- The worker carries no snapshot, and has not been ended by the observer. -/
def EmptyHanded : WorkerPhase → Prop
  | .storing _ | .notifying _ | .panicked => False
  | _ => True

variable {phase : WorkerPhase}

theorem EmptyHanded.toPublish_eq (h : phase.EmptyHanded) : phase.toPublish = [] := by
  cases phase with
  | storing snapshot => exact h.elim
  | _ => rfl

theorem EmptyHanded.toDeliver_eq (h : phase.EmptyHanded) : phase.toDeliver = [] := by
  cases phase with
  | notifying snapshot => exact h.elim
  | _ => rfl

theorem EmptyHanded.ne_panicked (h : phase.EmptyHanded) : phase ≠ .panicked := by
  rintro rfl
  exact h

end WorkerPhase

namespace Session

/-- What a move does to the machine. -/
def effect (s : Session) : Move → List Operation
  | .cycle ticks =>
      match s.machine.timers with
      | .perCycle => [.cycle]
      | .realtime => [.elapse ticks, .cycle]
  | .handle => s.host.inHand.toList
  | _ => []

/-- The key event that a call of the host issues, if the session runs. -/
def issues (s : Session) (move : Move) : List Operation :=
  match move.asks with
  | some phase => if s.running then phase.inHand.toList else []
  | none => []

/-- Collects something of each move of a run. -/
def collect (part : Session → Move → List Operation) (s : Session) : List Move → List Operation
  | [] => []
  | move :: rest =>
      match s.step move with
      | some after => part s move ++ after.collect part rest
      | none => []

/-- The operations on the machine in a run of the session. -/
def applied (s : Session) (moves : List Move) : List Operation := s.collect effect moves

/-- The key events that the host issued in a run of the session. -/
def issued (s : Session) (moves : List Move) : List Operation := s.collect issues moves

/-- Each state after an executed cycle was published once, or is about to be, and what is
published is the last that was. If there is an observer that did not end the worker, it has
received each state or is about to. -/
structure AccountsFor (s : Session) (executed : List Snapshot) : Prop where
  stored : ∃ stored, executed = stored ++ s.worker.toPublish ∧ s.published = stored.getLast?
  received : s.observed = true → s.worker ≠ .panicked →
    executed = s.received.reverse ++ s.worker.toDeliver ++ s.worker.toPublish

/-- The session goes from `s` to `after` as the operations say, while the host issues key
events. -/
structure Simulates (s : Session) (operations issued : List Operation) (after : Session) :
    Prop where
  console : after.console = s.console.run operations
  keys : operations.filter (·.isKeyEvent) ++ after.host.inHand.toList =
    s.host.inHand.toList ++ issued
  observed : after.observed = s.observed
  accounts : ∀ executed, s.AccountsFor executed →
    after.AccountsFor (executed ++ s.console.executedSnapshots operations)

variable {s after : Session} {move : Move}

namespace AccountsFor

variable {executed : List Snapshot}

/-- What the host does is of no account. -/
theorem of_same (h : s.AccountsFor executed) (hworker : after.worker = s.worker)
    (hpublished : after.published = s.published) (hreceived : after.received = s.received)
    (hobserved : after.observed = s.observed) : after.AccountsFor executed where
  stored := by
    rw [hworker, hpublished]
    exact h.stored
  received := by
    rw [hworker, hreceived, hobserved]
    exact h.received

/-- A cycle adds the state that it left, if it was executed. -/
theorem cycle (h : s.AccountsFor executed) (hs : s.worker.EmptyHanded)
    (hdeliver : after.worker.toDeliver = []) (hpublished : after.published = s.published)
    (hreceived : after.received = s.received) (hobserved : after.observed = s.observed) :
    after.AccountsFor (executed ++ after.worker.toPublish) where
  stored := by
    obtain ⟨stored, hexecuted, hlast⟩ := h.stored
    rw [hs.toPublish_eq, List.append_nil] at hexecuted
    exact ⟨stored, by rw [hexecuted], hpublished.trans hlast⟩
  received hon _ := by
    have hall := h.received (hobserved.symm.trans hon) hs.ne_panicked
    rw [hs.toPublish_eq, hs.toDeliver_eq, List.append_nil] at hall
    rw [hdeliver, hreceived, hall]

theorem of_emptyHanded (h : s.AccountsFor executed) (hs : s.worker.EmptyHanded)
    (hafter : after.worker.EmptyHanded) (hpublished : after.published = s.published)
    (hreceived : after.received = s.received) (hobserved : after.observed = s.observed) :
    after.AccountsFor executed := by
  have hall := h.cycle hs hafter.toDeliver_eq hpublished hreceived hobserved
  rw [hafter.toPublish_eq, List.append_nil] at hall
  exact hall

/-- A snapshot that is published goes to the end of those that were. -/
theorem publish (h : s.AccountsFor executed) {snapshot : Snapshot}
    (hs : s.worker = .storing snapshot) :
    AccountsFor { s with published := some snapshot, worker := .notifying snapshot }
      executed where
  stored := by
    obtain ⟨stored, hexecuted, -⟩ := h.stored
    rw [hs] at hexecuted
    refine ⟨executed, (List.append_nil _).symm, ?_⟩
    rw [hexecuted]
    exact List.getLast?_concat.symm
  received hon _ := by
    have hall := h.received hon (by rw [hs]; nofun)
    rw [hs] at hall
    change executed = s.received.reverse ++ [] ++ [snapshot] at hall
    rw [List.append_nil] at hall
    rw [hall]
    exact (List.append_nil _).symm

/-- What the observer does with a snapshot is its own affair, if it comes back. -/
theorem deliver (h : s.AccountsFor executed) {snapshot : Snapshot}
    (hs : s.worker = .notifying snapshot) {received : List Snapshot} {phase : WorkerPhase}
    (hpublish : phase.toPublish = []) (hdeliver : phase.toDeliver = [])
    (hreceived : s.observed = true → phase ≠ .panicked → received = snapshot :: s.received) :
    AccountsFor { s with received, worker := phase } executed where
  stored := by
    obtain ⟨stored, hexecuted, hlast⟩ := h.stored
    rw [hs] at hexecuted
    rw [hpublish]
    exact ⟨stored, hexecuted, hlast⟩
  received hon hpanic := by
    have hall := h.received hon (by rw [hs]; nofun)
    rw [hs] at hall
    rw [hpublish, hdeliver, hreceived hon hpanic, List.reverse_cons, hall]
    exact (List.append_nil _).symm

end AccountsFor

namespace Simulates

variable {middle : Session} {first later issued reissued : List Operation}

theorem refl (s : Session) : s.Simulates [] [] s where
  console := rfl
  keys := (List.append_nil _).symm
  observed := rfl
  accounts executed h := by
    rw [Console.executedSnapshots_nil, List.append_nil]
    exact h

theorem trans (h : s.Simulates first issued middle)
    (h' : middle.Simulates later reissued after) :
    s.Simulates (first ++ later) (issued ++ reissued) after where
  console := by rw [h'.console, h.console, Console.run_append]
  keys := by
    rw [List.filter_append, List.append_assoc, h'.keys, ← List.append_assoc, h.keys,
      List.append_assoc]
  observed := h'.observed.trans h.observed
  accounts executed hs := by
    have hafter := h'.accounts _ (h.accounts executed hs)
    rw [h.console, List.append_assoc] at hafter
    rw [Console.executedSnapshots_append]
    exact hafter

/-- A move that leaves the machine and the key events alone. -/
theorem of_accounts (hconsole : after.console = s.console)
    (hhand : after.host.inHand = s.host.inHand) (hobserved : after.observed = s.observed)
    (haccounts : ∀ executed, s.AccountsFor executed → after.AccountsFor executed) :
    s.Simulates [] [] after where
  console := hconsole
  keys := by rw [hhand, List.filter_nil, List.nil_append, List.append_nil]
  observed := hobserved
  accounts executed hs := by
    rw [Console.executedSnapshots_nil, List.append_nil]
    exact haccounts executed hs

end Simulates

/-- The operations of a cycle end with the cycle of the machine as the clock left it. -/
theorem effect_cycle (s : Session) (ticks : UInt8) :
    ∃ timed, s.effect (.cycle ticks) = timed ++ [.cycle] ∧ s.console.executedSnapshots timed = [] ∧
      s.console.run timed = ⟨clocked s.machine ticks, s.console.random⟩ := by
  unfold effect clocked
  cases s.machine.timers with
  | perCycle => exact ⟨[], rfl, rfl, rfl⟩
  | realtime => exact ⟨[.elapse ticks], rfl, rfl, rfl⟩

theorem runCycle_console (s : Session) (ticks : UInt8) :
    (s.runCycle ticks).console = s.console.run (s.effect (.cycle ticks)) := by
  obtain ⟨timed, heffect, -, htimed⟩ := s.effect_cycle ticks
  rw [heffect, Console.run_append, htimed]
  rfl

theorem toPublish_phaseAfter (c : Console) :
    (phaseAfter (c.machine.cycle c.random)).toPublish = c.executedSnapshots [.cycle] := by
  have hanswer : (c.perform .cycle).answer = .cycled (c.machine.cycle c.random).result := rfl
  rw [phaseAfter, Console.executedSnapshots_single, OperationReport.executed?, hanswer]
  cases (c.machine.cycle c.random).result with
  | ok progress => cases progress <;> rfl
  | error fault => rfl

/-- The worker takes on the state of a cycle that was executed, and no other. -/
theorem runCycle_toPublish (s : Session) (ticks : UInt8) :
    (s.runCycle ticks).worker.toPublish =
      s.console.executedSnapshots (s.effect (.cycle ticks)) := by
  obtain ⟨timed, heffect, hnone, htimed⟩ := s.effect_cycle ticks
  rw [heffect, Console.executedSnapshots_append, hnone, htimed]
  exact toPublish_phaseAfter ⟨clocked s.machine ticks, s.console.random⟩

theorem runCycle_toDeliver (s : Session) (ticks : UInt8) :
    (s.runCycle ticks).worker.toDeliver = [] := by
  change (phaseAfter _).toDeliver = []
  unfold phaseAfter
  split <;> rfl

theorem filter_effect_cycle (s : Session) (ticks : UInt8) :
    (s.effect (.cycle ticks)).filter (·.isKeyEvent) = [] := by
  unfold effect
  cases s.machine.timers <;> rfl

theorem effect_perCycle (htimers : s.machine.timers = .perCycle) (ticks : UInt8) :
    s.effect (.cycle ticks) = [.cycle] := by
  dsimp only [effect]
  rw [htimers]

theorem effect_of_asks {phase : HostPhase} (h : move.asks = some phase) : s.effect move = [] := by
  cases move with
  | press key => rfl
  | release key => rfl
  | _ => cases h

theorem simulates_cycle (ticks : UInt8) (hworker : s.worker = .admitted) :
    s.Simulates (s.effect (.cycle ticks)) [] (s.runCycle ticks) where
  console := s.runCycle_console ticks
  keys := by
    rw [filter_effect_cycle, List.append_nil]
    rfl
  observed := rfl
  accounts executed hs := by
    rw [← runCycle_toPublish]
    exact hs.cycle (by rw [hworker]; trivial) (s.runCycle_toDeliver ticks) rfl rfl rfl

theorem simulates_handle {operation : Operation} (hhand : s.host.inHand = some operation) :
    s.Simulates [operation] []
      ({ s with console := (s.console.perform operation).console, host := .idle }.logging
        (s.console.perform operation).log) where
  console := rfl
  keys := by
    rw [hhand, List.filter_cons_of_pos (HostPhase.isKeyEvent_inHand hhand)]
    rfl
  observed := rfl
  accounts executed hs := by
    rw [Console.executedSnapshots_keyEvent _ (HostPhase.isKeyEvent_inHand hhand), List.append_nil]
    exact hs.of_same rfl rfl rfl rfl

theorem simulates_ask {phase : HostPhase} (hhost : s.host = .idle) :
    s.Simulates [] phase.inHand.toList { s with host := phase } where
  console := rfl
  keys := by
    rw [hhost]
    rfl
  observed := rfl
  accounts executed hs := by
    rw [Console.executedSnapshots_nil, List.append_nil]
    exact hs.of_same rfl rfl rfl rfl

theorem simulates_phase {phase : WorkerPhase} (hs : s.worker.EmptyHanded)
    (hphase : phase.EmptyHanded) : s.Simulates [] [] { s with worker := phase } :=
  .of_accounts rfl rfl rfl fun _ h => h.of_emptyHanded hs hphase rfl rfl rfl

/-- Every move agrees with what it does to the machine. -/
theorem Takes.simulates (h : s.Takes move after) :
    s.Simulates (s.effect move) (s.issues move) after := by
  cases h with
  | enter hworker =>
    refine simulates_phase (by rw [hworker]; trivial) ?_
    split <;> trivial
  | cycle ticks hworker => exact simulates_cycle ticks hworker
  | publish hworker => exact .of_accounts rfl rfl rfl fun _ hs => hs.publish hworker
  | skip panics hworker hunobserved =>
    refine .of_accounts rfl rfl rfl fun _ hs => hs.deliver hworker rfl rfl fun hobserved => ?_
    rw [hunobserved] at hobserved
    cases hobserved
  | panic hworker _ =>
    exact .of_accounts rfl rfl rfl fun _ hs =>
      hs.deliver hworker rfl rfl fun _ hpanic => absurd rfl hpanic
  | notify hworker _ =>
    exact .of_accounts rfl rfl rfl fun _ hs => hs.deliver hworker rfl rfl fun _ _ => rfl
  | reckon hworker _ | overrun hworker _ => exact simulates_phase (by rw [hworker]; trivial) trivial
  | pace now hworker =>
    refine simulates_phase (by rw [hworker]; trivial) ?_
    split <;> trivial
  | wake hworker => exact simulates_phase (by rw [hworker]; trivial) trivial
  | close hworker =>
    refine .of_accounts rfl rfl rfl fun _ hs => hs.of_emptyHanded ?_ trivial rfl rfl rfl
    rw [hworker]
    trivial
  | ask hasks hhost hrunning =>
    rw [effect_of_asks hasks, issues, hasks]
    dsimp only
    rw [if_pos hrunning]
    exact simulates_ask hhost
  | refuse hasks hhost hrunning =>
    rw [effect_of_asks hasks, issues, hasks]
    dsimp only
    rw [hrunning]
    exact .refl s
  | handle hhand hlock =>
    have heffect : s.effect .handle = [_] := congrArg Option.toList hhand
    rw [heffect]
    exact simulates_handle hhand
  | stop hhost _ =>
    exact .of_accounts rfl (by rw [hhost]; rfl) rfl fun _ hs => hs.of_same rfl rfl rfl rfl
  | stopAgain hhost _ => exact .of_accounts rfl rfl rfl fun _ hs => hs.of_same rfl rfl rfl rfl
  | wait hhost _ =>
    exact .of_accounts rfl (by rw [hhost]; rfl) rfl fun _ hs => hs.of_same rfl rfl rfl rfl
  | waitAgain hhost _ => exact .of_accounts rfl rfl rfl fun _ hs => hs.of_same rfl rfl rfl rfl
  | join hhost _ =>
    exact .of_accounts rfl (by rw [hhost]; rfl) rfl fun _ hs => hs.of_same rfl rfl rfl rfl

/-- Where cycles count, the clock has no part in a cycle. -/
theorem step_cycle (hworker : s.worker = .admitted) (htimers : s.machine.timers = .perCycle)
    {report : CycleReport} (h : s.machine.cycle s.console.random = report) (ticks : UInt8) :
    s.step (.cycle ticks) =
      some ({ s with console := ⟨report.machine, report.random⟩, worker := phaseAfter report }.logging
        report.log) := by
  have hstep : s.workerStep (.cycle ticks) = some (s.runCycle ticks) := by
    dsimp only [workerStep]
    rw [hworker]
  rw [step, hstep, runCycle, clocked, htimers]
  dsimp only
  rw [h]

/-! ## Runs -/

theorem collect_cons {part : Session → Move → List Operation} {rest : List Move}
    (hstep : s.step move = some after) :
    s.collect part (move :: rest) = part s move ++ after.collect part rest := by
  rw [collect, hstep]

theorem run_cons {rest : List Move} (hstep : s.step move = some after) :
    s.run (move :: rest) = after.run rest := by
  rw [run, hstep, Option.bind_some]

theorem simulates_run {moves : List Move} (h : s.run moves = some after) :
    s.Simulates (s.applied moves) (s.issued moves) after := by
  induction moves generalizing s with
  | nil =>
    cases h
    exact .refl after
  | cons move rest ih =>
    obtain ⟨middle, hstep, hrest⟩ := Option.bind_eq_some_iff.mp h
    have hfirst := (takes_of_step hstep).simulates
    rw [applied, issued, collect_cons hstep, collect_cons hstep]
    exact hfirst.trans (ih hrest)

theorem mem_effect (htimers : s.machine.timers = .perCycle) {operation : Operation}
    (h : operation ∈ s.effect move) : operation = .cycle ∨ operation.isKeyEvent = true := by
  cases move with
  | cycle ticks =>
    rw [effect_perCycle htimers] at h
    exact Or.inl (List.mem_singleton.mp h)
  | handle => exact Or.inr (HostPhase.isKeyEvent_inHand (Option.mem_toList.mp h))
  | _ => cases h

/-- Where cycles count, nothing but cycles and key events happens to the machine. -/
theorem mem_applied (htimers : s.machine.timers = .perCycle) {moves : List Move}
    {operation : Operation} (h : operation ∈ s.applied moves) :
    operation = .cycle ∨ operation.isKeyEvent = true := by
  induction moves generalizing s with
  | nil => cases h
  | cons move rest ih =>
    cases hstep : s.step move with
    | none =>
      rw [applied, collect, hstep] at h
      cases h
    | some middle =>
      have hconsole := (takes_of_step hstep).simulates.console
      have hmiddle : middle.machine.timers = .perCycle := by
        rw [machine, hconsole, Console.run_timers]
        exact htimers
      rw [applied, collect_cons hstep] at h
      rcases List.mem_append.mp h with hfirst | hlater
      · exact mem_effect htimers hfirst
      · exact ih hmiddle hlater

/-- A session that is about to begin. -/
def opening (console : Console) (interval : Nat) (observed : Bool) (log : List LogEntry) :
    Session where
  console := console
  interval := interval
  running := true
  published := none
  worker := .ready
  host := .idle
  joined := false
  observed := observed
  received := []
  returned := []
  log := log

section Start

variable {settings : Settings} {word : Nat → UInt32} {program : Array UInt8} {observed : Bool}
  {start : Session}

theorem start_of_load {machine : Machine} (h : (Machine.fresh settings).load program = .ok machine) :
    Session.start settings word program observed =
      .ok (opening ⟨machine, .ofSequence word⟩ settings.interval observed
        [.starting program.size settings.interval]) := by
  rw [Session.start, h]
  rfl

theorem start_ok (h : Session.start settings word program observed = .ok start) :
    ∃ machine, (Machine.fresh settings).load program = .ok machine ∧
      start = opening ⟨machine, .ofSequence word⟩ settings.interval observed
        [.starting program.size settings.interval] := by
  cases hload : (Machine.fresh settings).load program with
  | error fault =>
    rw [Session.start, hload] at h
    cases h
  | ok machine =>
    rw [start_of_load hload] at h
    exact ⟨machine, rfl, (Except.ok.inj h).symm⟩

theorem start_console (h : Session.start settings word program observed = .ok start) :
    ((Console.fresh settings word).perform (.load program)).console = start.console ∧
      (Console.fresh settings word).executedSnapshots [.load program] = [] := by
  obtain ⟨machine, hload, rfl⟩ := start_ok h
  have hperform : (Console.fresh settings word).perform (.load program) =
      ⟨⟨machine, .ofSequence word⟩, .loaded (.ok ()), []⟩ :=
    Console.perform_load_ok hload
  rw [Console.executedSnapshots_single, hperform]
  exact ⟨rfl, rfl⟩

theorem start_timers (h : Session.start settings word program observed = .ok start) :
    start.machine.timers = settings.timers := by
  obtain ⟨machine, hload, rfl⟩ := start_ok h
  obtain ⟨memory, -, rfl⟩ := Machine.load_ok hload
  rfl

theorem accountsFor_start (h : Session.start settings word program observed = .ok start) :
    start.AccountsFor [] := by
  obtain ⟨machine, -, rfl⟩ := start_ok h
  exact ⟨⟨[], rfl, rfl⟩, fun _ _ => rfl⟩

/-- However the moves of the host and of the worker are interleaved, the machine goes through
one sequential run of cycles and key events. Each key event of a host that saw the session
run is part of it once, in the order of the calls; only the last may still be in hand. The
observer receives the states after the executed cycles of that run, all of them in their
order; only the last may still be on its way. And what is published, at any time, is what the
observer was handed last. -/
theorem observer_sees_sequential_run (htimers : settings.timers = .perCycle)
    (hstart : Session.start settings word program true = .ok start) {moves : List Move}
    {s : Session} (hrun : start.run moves = some s) (hpanic : s.worker ≠ .panicked) :
    let operations := start.applied moves
    (∀ operation ∈ operations, operation = .cycle ∨ operation.isKeyEvent = true) ∧
      (Console.fresh settings word).run (.load program :: operations) = s.console ∧
      operations.filter (·.isKeyEvent) ++ s.host.inHand.toList = start.issued moves ∧
      (Console.fresh settings word).executedSnapshots (.load program :: operations) =
        s.received.reverse ++ s.worker.toDeliver ++ s.worker.toPublish ∧
      s.published = (s.received.reverse ++ s.worker.toDeliver).getLast? := by
  intro operations
  have hsimulates := simulates_run hrun
  obtain ⟨hloaded, hquiet⟩ := start_console hstart
  have haccounts := hsimulates.accounts [] (accountsFor_start hstart)
  rw [List.nil_append] at haccounts
  have hperCycle : start.machine.timers = .perCycle := (start_timers hstart).trans htimers
  obtain ⟨machine, -, rfl⟩ := start_ok hstart
  have hall := haccounts.received hsimulates.observed hpanic
  have hpublished : s.published = (s.received.reverse ++ s.worker.toDeliver).getLast? := by
    obtain ⟨stored, hstored, hlast⟩ := haccounts.stored
    rw [hlast, List.append_cancel_right (hstored.symm.trans hall)]
  have hexecuted :
      (Console.fresh settings word).executedSnapshots ([.load program] ++ operations) =
        s.received.reverse ++ s.worker.toDeliver ++ s.worker.toPublish := by
    rw [Console.executedSnapshots_append, hquiet, List.nil_append, Console.run_cons, hloaded]
    exact hall
  refine ⟨fun _ => mem_applied hperCycle, ?_, hsimulates.keys, hexecuted,
    hpublished⟩
  rw [Console.run_cons, hloaded]
  exact hsimulates.console.symm

/-- Puts 5 into the first register. -/
def setFive : Array UInt8 := #[0x60, 0x05]

/-- A key goes down while the worker is busy with a cycle, and is about to go up when the
observer has seen the result. -/
def pressDuringCycle : List Move :=
  [.enter, .press 9, .cycle 0, .publish, .handle, .notify false, .release 9]

theorem cycle_setFive :
    let random := RandomWords.ofSequence fun _ => 0
    ∃ ready executed log, (Machine.fresh .standard).load setFive = .ok ready ∧
      ready.timers = .perCycle ∧
      ready.cycle random = ⟨executed, random, .ok .executed, log⟩ := by
  intro random
  have hstands : (Machine.loaded .standard setFive).Stands setFive 0 :=
    Machine.stands_loaded .standard (by decide)
  have hins := hstands.executes (show 0 ≤ 0xDFE by decide)
    (show Instruction.decode? _ = some (.setByte 0 5) by decide)
  exact ⟨_, _, _, Machine.load_fresh .standard (by decide), rfl,
    hins.cycle_of_no_fault hstands.wellFormed random rfl nofun⟩

/-- What comes of that, whatever the cycle does. -/
theorem run_pressDuringCycle {ready executed : Machine} {random random' : RandomWords}
    {log : List LogEntry} (htimers : ready.timers = .perCycle)
    (hcycle : ready.cycle random = ⟨executed, random', .ok .executed, log⟩) (interval : Nat)
    (earlier : List LogEntry) :
    let start := opening ⟨ready, random⟩ interval true earlier
    ∃ s, start.run pressDuringCycle = some s ∧ s.worker = .reckoning ∧ s.host = .releasing 9 ∧
      s.received = [executed.snapshot] ∧ s.published = some executed.snapshot ∧
      start.applied pressDuringCycle = [.cycle, .press 9] := by
  intro start
  let entered : Session := { start with worker := .admitted }
  let busy : Session := { entered with host := .pressing 9 }
  have henter : start.step .enter = some entered := rfl
  have hpress : entered.step (.press 9) = some busy := rfl
  have hcycled := step_cycle (s := busy) rfl htimers hcycle 0
  let s : Session :=
    { start with
      console := ⟨executed.press 9, random'⟩
      published := some executed.snapshot
      worker := .reckoning
      host := .releasing 9
      received := [executed.snapshot]
      log := log.reverse ++ earlier }
  refine ⟨s, ?_, rfl, rfl, rfl, rfl, ?_⟩
  · rw [pressDuringCycle, run_cons henter, run_cons hpress, run_cons hcycled]
    rfl
  · rw [applied, pressDuringCycle, collect_cons henter, collect_cons hpress, collect_cons hcycled,
      effect_perCycle (s := busy) htimers]
    rfl

theorem pressDuringCycle_setFive :
    ∃ (start s : Session) (snapshot : Snapshot),
      Session.start .standard (fun _ => 0) setFive true = .ok start ∧
        start.run pressDuringCycle = some s ∧ s.worker = .reckoning ∧ s.host = .releasing 9 ∧
        s.received = [snapshot] ∧ s.published = some snapshot ∧
        start.applied pressDuringCycle = [.cycle, .press 9] := by
  obtain ⟨ready, executed, log, hload, htimers, hcycle⟩ := cycle_setFive
  obtain ⟨s, hrest⟩ := run_pressDuringCycle htimers hcycle Settings.standard.interval
    [.starting setFive.size Settings.standard.interval]
  exact ⟨_, s, executed.snapshot, start_of_load hload, hrest⟩

theorem press_waits_for_cycle :
    let fresh := Console.fresh .standard fun _ => 0
    ∃ start s : Session, Session.start .standard (fun _ => 0) setFive true = .ok start ∧
      start.run pressDuringCycle = some s ∧ s.worker ≠ .panicked ∧
      fresh.run [.load setFive, .cycle, .press 9] = s.console ∧
      start.issued pressDuringCycle = [.press 9, .release 9] ∧
      fresh.executedSnapshots [.load setFive, .cycle, .press 9] = s.received.reverse ∧
      s.published = s.received.head? ∧ s.received.length = 1 := by
  intro fresh
  obtain ⟨start, s, snapshot, hstart, hrun, hworker, hhost, hreceived, -, happlied⟩ :=
    pressDuringCycle_setFive
  have hpanic : s.worker ≠ .panicked := by
    rw [hworker]
    nofun
  obtain ⟨-, hconsole, hkeys, hexecuted, hpublished⟩ :=
    observer_sees_sequential_run rfl hstart hrun hpanic
  rw [happlied] at hconsole hkeys hexecuted
  rw [hhost] at hkeys
  rw [hworker, hreceived] at hexecuted hpublished
  refine ⟨start, s, hstart, hrun, hpanic, hconsole, hkeys.symm, ?_⟩
  rw [hreceived]
  exact ⟨hexecuted, hpublished, rfl⟩

end Start

end Session

end ChipEight
