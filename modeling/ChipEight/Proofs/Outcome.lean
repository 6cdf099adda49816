import ChipEight.Proofs.Aftermath
import ChipEight.Proofs.Handover

/-!
# How a session ends and who is told

A worker leaves because the session was stopped, because a cycle failed, or because it panicked,
in a call of the observer or over an interval that goes beyond the clock (`Ending`). What is left
of it goes to the first call that ends the session; all later ones are told nothing new. `Tells`
is what a session says about the moves that led to it, whatever its machine does, and `Ran` what
its worker says about the cycles.
-/
namespace ChipEight

/-- The fault of a failing cycle. -/
def OperationReport.fault? (report : OperationReport) : Option Fault :=
  match report.answer with
  | .cycled (.error fault) => some fault
  | _ => none

/-- The result that a worker leaves the loop with, or has left it with. -/
def WorkerPhase.ending : WorkerPhase → Option (Except Fault Unit)
  | .closing outcome | .finished outcome => some outcome
  | _ => none

def WorkerPhase.isFinished : WorkerPhase → Bool
  | .finished _ => true
  | _ => false

/-- The worker has published the snapshot of its last executed cycle. -/
def WorkerPhase.hasPublished : WorkerPhase → Bool
  | .notifying _ | .reckoning | .pacing _ | .panicked | .overran => true
  | _ => false

/-- A call of the host that ends the session or waits for its end. -/
def Move.isEnding : Move → Bool
  | .stop | .wait => true
  | _ => false

namespace Console

/-- The faults of the failing cycles of a run, in their order. -/
def faults (c : Console) (operations : List Operation) : List Fault :=
  (c.reports operations).filterMap OperationReport.fault?

/-- After `before`, in which no cycle fails, a cycle fails with `fault`, and then no more than
key events happens. -/
structure FailsLast (c : Console) (before later : List Operation) (fault : Fault) : Prop where
  faultless : c.faults before = []
  fails : ((c.run before).machine.cycle (c.run before).random).result = .error fault
  keys : ∀ operation ∈ later, operation.isKeyEvent = true

variable {c : Console}

theorem faults_append (first later : List Operation) :
    c.faults (first ++ later) = c.faults first ++ (c.run first).faults later := by
  rw [faults, reports_append, List.filterMap_append]
  rfl

theorem faults_of_ok {progress : Progress}
    (h : (c.machine.cycle c.random).result = .ok progress) : c.faults [.cycle] = [] := by
  apply List.filterMap_eq_nil_iff.mpr
  intro report hreport
  obtain rfl := List.mem_singleton.mp hreport
  rw [OperationReport.fault?, perform, h]

/-- Key events have no result. -/
theorem answer_keyEvents {operations : List Operation}
    (h : ∀ operation ∈ operations, operation.isKeyEvent = true) :
    ∀ report ∈ c.reports operations, report.answer = .done := by
  induction operations generalizing c with
  | nil => simp
  | cons operation rest ih =>
    have hfirst : (c.perform operation).answer = .done := by
      have hkey := h operation List.mem_cons_self
      cases operation with
      | press key | release key => rfl
      | _ => cases hkey
    intro report hreport
    rcases List.mem_cons.mp hreport with rfl | hlater
    · exact hfirst
    · exact ih (fun later hmem => h later (List.mem_cons_of_mem _ hmem)) report hlater

theorem faults_keyEvents {operations : List Operation}
    (h : ∀ operation ∈ operations, operation.isKeyEvent = true) : c.faults operations = [] := by
  apply List.filterMap_eq_nil_iff.mpr
  intro report hreport
  rw [OperationReport.fault?, answer_keyEvents h report hreport]

end Console

namespace Session

/-- A pass began so late that the clock does not go as far as the end of its interval. -/
def ClockOverruns (start : Session) (moves : List Move) : Prop :=
  ∃ began, .reckon began ∈ moves ∧ clockSpan ≤ began.nanoseconds + start.interval

variable {s after : Session} {move : Move}

theorem run_append {first later : List Move} :
    s.run (first ++ later) = (s.run first).bind fun middle => middle.run later := by
  induction first generalizing s with
  | nil => rfl
  | cons move rest ih =>
    rw [List.cons_append, run, run]
    cases s.step move with
    | none => rfl
    | some middle => exact ih

theorem applied_append {first later : List Move} {middle : Session}
    (h : s.run first = some middle) :
    s.applied (first ++ later) = s.applied first ++ middle.applied later := by
  induction first generalizing s with
  | nil =>
    cases h
    rfl
  | cons move rest ih =>
    obtain ⟨next, hstep, hrest⟩ := Option.bind_eq_some_iff.mp h
    rw [List.cons_append, applied_cons hstep, applied_cons hstep, ih hrest, List.append_assoc]

theorem applied_concat {passed : List Move} {found : Session} (hrun : s.run passed = some found)
    (hstep : found.step move = some after) :
    s.applied (passed ++ [move]) = s.applied passed ++ found.effect move := by
  rw [applied_append hrun, applied_cons hstep]
  exact congrArg _ (List.append_nil _)

/-- What a session says of the moves that led to it is true after a run, if it is true at first
and each move keeps it true. -/
theorem run_history {P : List Move → Session → Prop} (hfirst : P [] s)
    (hmove : ∀ passed found move after, s.run passed = some found → P passed found →
      found.step move = some after → P (passed ++ [move]) after)
    {moves : List Move} (hrun : s.run moves = some after) : P moves after := by
  have hrest : ∀ rest passed found, s.run passed = some found → P passed found →
      found.run rest = some after → P (passed ++ rest) after := by
    intro rest
    induction rest with
    | nil =>
      intro passed found _ hfound hlast
      cases hlast
      rw [List.append_nil]
      exact hfound
    | cons move rest ih =>
      intro passed found hpassed hfound hlast
      obtain ⟨middle, hstep, hlater⟩ := Option.bind_eq_some_iff.mp hlast
      have hmiddle := hmove passed found move middle hpassed hfound hstep
      have hreached : s.run (passed ++ [move]) = some middle := by
        rw [run_append, hpassed]
        exact run_cons hstep
      rw [List.append_cons]
      exact ih (passed ++ [move]) middle hreached hmiddle hlater
  exact hrest moves [] s rfl hfirst hrun

/-! ## What a session tells of its moves -/

section Phases

variable (report : CycleReport)

@[simp] theorem phaseAfter_isFinished : (phaseAfter report).isFinished = false := by
  unfold phaseAfter
  split <;> rfl

@[simp] theorem phaseAfter_ne_admitted : phaseAfter report ≠ .admitted := by
  unfold phaseAfter
  split <;> simp

@[simp] theorem phaseAfter_ne_panicked : phaseAfter report ≠ .panicked := by
  unfold phaseAfter
  split <;> simp

@[simp] theorem phaseAfter_ne_overran : phaseAfter report ≠ .overran := by
  unfold phaseAfter
  split <;> simp

@[simp] theorem phaseAfter_hasPublished : (phaseAfter report).hasPublished = false := by
  unfold phaseAfter
  split <;> rfl

theorem phaseAfter_ending : (phaseAfter report).ending =
    match report.result with
    | .ok _ => none
    | .error fault => some (.error fault) := by
  unfold phaseAfter
  split <;> rename_i h <;> rw [h] <;> rfl

end Phases

/-- The flag is set until the session is stopped or its worker is finished. -/
theorem Takes.running_iff {moves : List Move} (h : s.Takes move after)
    (hs : s.running = true ↔ .stop ∉ moves ∧ s.worker.isFinished = false) :
    after.running = true ↔ .stop ∉ moves ++ [move] ∧ after.worker.isFinished = false := by
  cases h with
  | enter hworker | pace now hworker =>
    rw [hworker] at hs
    split <;> simpa [WorkerPhase.isFinished] using hs
  | cycle ticks hworker =>
    change s.running = true ↔ _ ∧ (phaseAfter _).isFinished = false
    rw [hworker] at hs
    rw [phaseAfter_isFinished]
    simpa [WorkerPhase.isFinished] using hs
  | publish hworker | skip _ hworker _ | panic hworker _ | notify hworker _ | reckon hworker _
  | overrun hworker _ | wake hworker =>
    rw [hworker] at hs
    simpa [WorkerPhase.isFinished] using hs
  | close hworker => simp [logging, WorkerPhase.isFinished]
  | ask hasks _ _ | refuse hasks _ _ =>
    cases move with
    | press key | release key => simpa using hs
    | _ => cases hasks
  | handle _ _ | wait _ _ | waitAgain _ _ | join _ _ => simpa [logging, answering] using hs
  | stop _ _ | stopAgain _ _ => simp [logging, answering]

/-- Only a flag that was cleared makes the worker leave without a fault. -/
theorem Takes.stop_mem {moves : List Move} (h : s.Takes move after)
    (hrunning : s.running = true ↔ .stop ∉ moves ∧ s.worker.isFinished = false)
    (hs : s.worker.ending = some (.ok ()) → .stop ∈ moves)
    (hending : after.worker.ending = some (.ok ())) : .stop ∈ moves ++ [move] := by
  apply List.mem_append_left
  cases h with
  | enter hworker =>
    by_cases hrun : s.running = true
    · rw [if_pos hrun] at hending
      cases hending
    · rw [hrunning, hworker] at hrun
      simpa [WorkerPhase.isFinished] using hrun
  | cycle ticks hworker =>
    change (phaseAfter _).ending = _ at hending
    rw [phaseAfter_ending] at hending
    split at hending <;> cases hending
  | pace now hworker =>
    dsimp only at hending
    split at hending <;> cases hending
  | close hworker =>
    apply hs
    rw [hworker]
    exact hending
  | publish _ | skip _ _ _ | panic _ _ | notify _ _ | reckon _ _ | overrun _ _ | wake _ =>
    cases hending
  | _ => exact hs hending

/-- A panic of the observer is the end of the worker. -/
theorem Takes.panicked_iff {moves : List Move} (h : s.Takes move after)
    (hs : s.worker = .panicked ↔ s.observed = true ∧ .notify true ∈ moves) :
    after.worker = .panicked ↔ after.observed = true ∧ .notify true ∈ moves ++ [move] := by
  cases h with
  | enter hworker | pace now hworker =>
    rw [hworker] at hs
    split <;> simpa using hs
  | cycle ticks hworker =>
    change phaseAfter _ = _ ↔ s.observed = true ∧ _
    rw [hworker] at hs
    simpa using hs
  | publish hworker | notify hworker _ | reckon hworker _ | overrun hworker _ | wake hworker
  | close hworker =>
    rw [hworker] at hs
    simpa [logging] using hs
  | skip panics hworker hunobserved => simp [hunobserved]
  | panic hworker hobserved => simp [hobserved]
  | ask hasks _ _ | refuse hasks _ _ =>
    cases move with
    | press key | release key => simpa using hs
    | _ => cases hasks
  | _ => simpa [logging, answering] using hs

/-- So is an interval that goes beyond the clock. -/
theorem Takes.overran_iff {moves : List Move} (h : s.Takes move after)
    (hs : s.worker = .overran ↔ s.ClockOverruns moves) :
    after.worker = .overran ↔ after.ClockOverruns (moves ++ [move]) := by
  unfold ClockOverruns at hs ⊢
  cases h with
  | enter hworker | pace now hworker =>
    rw [hworker] at hs
    split <;> simpa using hs
  | cycle ticks hworker =>
    change phaseAfter _ = _ ↔ s.ClockOverruns _
    unfold ClockOverruns
    rw [hworker] at hs
    simpa using hs
  | publish hworker | skip _ hworker _ | panic hworker _ | notify hworker _ | wake hworker
  | close hworker =>
    rw [hworker] at hs
    simpa [logging] using hs
  | @reckon began deadline hworker hlater =>
    have hinside : began.nanoseconds + s.interval < clockSpan := by
      rw [← Nat.not_le, ← Instant.later?_eq_none_iff, hlater]
      nofun
    rw [hworker] at hs
    simp only [reduceCtorEq, false_iff, not_exists, not_and, Nat.not_le] at hs ⊢
    intro other hmem
    rcases List.mem_append.mp hmem with hearlier | hlast
    · exact hs other hearlier
    · cases List.mem_singleton.mp hlast
      exact hinside
  | @overrun began hworker hlater =>
    have hbeyond := Instant.later?_eq_none_iff.mp hlater
    exact iff_of_true rfl ⟨began, List.mem_append_right _ (List.mem_singleton.mpr rfl), hbeyond⟩
  | ask hasks _ _ | refuse hasks _ _ =>
    cases move with
    | press key | release key => simpa using hs
    | _ => cases hasks
  | _ => simpa [logging, answering] using hs

/-- What is published stays so, and the worker goes past the publication only by doing it. -/
theorem Takes.isSome_published (h : s.Takes move after)
    (hs : s.worker.hasPublished = true → s.published.isSome = true)
    (hafter : after.worker.hasPublished = true) : after.published.isSome = true := by
  cases h with
  | enter hworker =>
    dsimp only at hafter
    split at hafter <;> cases hafter
  | cycle ticks hworker =>
    change (phaseAfter _).hasPublished = true at hafter
    rw [phaseAfter_hasPublished] at hafter
    cases hafter
  | publish hworker => rfl
  | wake hworker | close hworker => cases hafter
  | skip _ hworker _ | panic hworker _ | notify hworker _ | reckon hworker _ | overrun hworker _
  | pace _ hworker =>
    apply hs
    rw [hworker]
    rfl
  | _ => exact hs hafter

/-- A worker that is gone does not move. -/
theorem Takes.outcome_eq {outcome : Except Fault Unit} (h : s.Takes move after)
    (hs : s.worker.outcome? = some outcome) : after.worker.outcome? = some outcome := by
  cases h with
  | enter hworker | cycle _ hworker | publish hworker | skip _ hworker _ | panic hworker _
  | notify hworker _ | reckon hworker _ | overrun hworker _ | pace _ hworker | wake hworker
  | close hworker =>
    rw [hworker] at hs
    cases hs
  | _ => exact hs

/-- Nothing was handed out yet, or the outcome of the worker once and `ok` since then. -/
inductive Answered (s : Session) : Prop where
  | pending (hjoined : s.joined = false) (hreturned : s.returned = [])
  | handedOut (hjoined : s.joined = true) (hhost : s.host ≠ .joining) {outcome : Except Fault Unit}
      (houtcome : s.worker.outcome? = some outcome) (calls : Nat)
      (hreturned : s.returned = List.replicate calls (.ok ()) ++ [outcome])

/-- A move that hands nothing out, and after which the host does not wait. -/
theorem Answered.of_same (hs : s.Answered)
    (hgone : ∀ outcome, s.worker.outcome? = some outcome → after.worker.outcome? = some outcome)
    (hjoined : after.joined = s.joined) (hreturned : after.returned = s.returned)
    (hhost : s.host ≠ .joining → after.host ≠ .joining) : after.Answered := by
  cases hs with
  | pending hnone hempty => exact .pending (hjoined.trans hnone) (hreturned.trans hempty)
  | handedOut hsome hidle houtcome calls hall =>
    exact .handedOut (hjoined.trans hsome) (hhost hidle) (hgone _ houtcome) calls
      (hreturned.trans hall)

/-- A call that ends a session whose outcome is known is told that all is well. -/
theorem Answered.again (hs : s.Answered) (hjoined : s.joined = true) (hhost : s.host = .idle) :
    (s.answering (.ok ())).Answered := by
  cases hs with
  | pending hnone _ =>
    rw [hnone] at hjoined
    cases hjoined
  | handedOut _ _ houtcome calls hall =>
    refine .handedOut hjoined (by simp [answering, hhost]) houtcome (calls + 1) ?_
    rw [answering, hall, List.replicate_succ, List.cons_append]

theorem Takes.answered (h : s.Takes move after) (hs : s.Answered) : after.Answered := by
  have hgone : ∀ outcome, s.worker.outcome? = some outcome →
      after.worker.outcome? = some outcome := fun _ => h.outcome_eq
  cases h with
  | stop hhost hjoined | wait hhost hjoined =>
    cases hs with
    | pending _ hempty => exact .pending hjoined hempty
    | handedOut hsome _ _ _ _ =>
      rw [hjoined] at hsome
      cases hsome
  | stopAgain hhost hjoined =>
    have hstopped : Answered { s with running := false } := hs.of_same hgone rfl rfl id
    exact hstopped.again hjoined hhost
  | waitAgain hhost hjoined => exact hs.again hjoined hhost
  | join hhost houtcome =>
    cases hs with
    | pending _ hempty =>
      exact .handedOut rfl (by simp [answering]) houtcome 0 (by simp [answering, hempty])
    | handedOut _ hidle _ _ _ => exact absurd hhost hidle
  | ask hasks _ _ =>
    refine hs.of_same hgone rfl rfl fun _ => ?_
    cases move with
    | press key | release key =>
      cases hasks
      simp
    | _ => cases hasks
  | handle _ _ => exact hs.of_same hgone rfl rfl fun _ => by simp [logging]
  | _ => exact hs.of_same hgone rfl rfl id

/-- Each call that ends the session has been answered, except for one that still waits. -/
theorem Takes.length_returned {moves : List Move} (h : s.Takes move after)
    (hs : s.returned.length + (if s.host = .joining then 1 else 0) = moves.countP Move.isEnding) :
    after.returned.length + (if after.host = .joining then 1 else 0) =
      (moves ++ [move]).countP Move.isEnding := by
  rw [List.countP_append, ← hs]
  cases h with
  | stop hhost _ | stopAgain hhost _ | wait hhost _ | waitAgain hhost _ =>
    simp [hhost, logging, answering, Move.isEnding]
  | join hhost _ => simp [hhost, answering, Move.isEnding]
  | ask hasks hhost _ =>
    cases move with
    | press key | release key =>
      cases hasks
      simp [hhost, Move.isEnding]
    | _ => cases hasks
  | refuse hasks hhost _ =>
    cases move with
    | press key | release key => simp [Move.isEnding]
    | _ => cases hasks
  | handle hhand _ =>
    have hhost : s.host ≠ .joining := by
      intro hjoining
      rw [hjoining] at hhand
      cases hhand
    simp [hhost, logging, Move.isEnding]
  | _ => rfl

/-! ## What the worker tells of its cycles -/

/-- No cycle of the run failed, or its last one did and the worker says how. -/
inductive Ran (start : Session) (moves : List Move) (s : Session) : Prop where
  | faultless (hending : ∀ fault, s.worker.ending ≠ some (.error fault))
      (hfaultless : start.console.faults (start.applied moves) = [])
  | failed {before later : List Operation} {fault : Fault}
      (hending : s.worker.ending = some (.error fault))
      (happlied : start.applied moves = before ++ .cycle :: later)
      (hfails : start.console.FailsLast before later fault)

theorem effect_keyEvents (s : Session) (hmove : ∀ ticks, move ≠ .cycle ticks) :
    ∀ operation ∈ s.effect move, operation.isKeyEvent = true := by
  intro operation hmem
  cases move with
  | cycle ticks => exact absurd rfl (hmove ticks)
  | handle => exact HostPhase.isKeyEvent_inHand (Option.mem_toList.mp hmem)
  | _ => cases hmem

/-- Only a cycle makes the worker leave with a fault, and then it is on its way out. -/
theorem Takes.ending_error_iff {fault : Fault} (h : s.Takes move after)
    (hmove : ∀ ticks, move ≠ .cycle ticks) :
    after.worker.ending = some (.error fault) ↔ s.worker.ending = some (.error fault) := by
  cases h with
  | cycle ticks _ => exact absurd rfl (hmove ticks)
  | enter hworker | pace now hworker =>
    rw [hworker]
    dsimp only
    split <;> simp [WorkerPhase.ending]
  | publish hworker | skip _ hworker _ | panic hworker _ | notify hworker _ | reckon hworker _
  | overrun hworker _ | wake hworker | close hworker =>
    simp [hworker, logging, WorkerPhase.ending]
  | _ => rfl

/-- The time that passes before a cycle does not fail. -/
theorem faults_timed {ticks : UInt8} {timed : List Operation}
    (h : s.effect (.cycle ticks) = timed ++ [.cycle]) : s.console.faults timed = [] := by
  unfold effect at h
  cases htimers : s.machine.timers with
  | perCycle =>
    rw [htimers] at h
    obtain rfl : timed = [] := by simpa using h
    rfl
  | realtime =>
    rw [htimers] at h
    change [.elapse ticks] ++ [.cycle] = timed ++ [.cycle] at h
    obtain rfl := List.append_cancel_right h
    rfl

/-- A cycle of the worker is the first to fail, or no cycle has failed yet. -/
theorem Ran.cycle {start : Session} {moves : List Move} {ticks : UInt8} (hs : start.Ran moves s)
    (hconsole : s.console = start.console.run (start.applied moves))
    (hworker : s.worker = .admitted)
    (happlied : start.applied (moves ++ [.cycle ticks]) =
      start.applied moves ++ s.effect (.cycle ticks)) :
    start.Ran (moves ++ [.cycle ticks]) (s.runCycle ticks) := by
  obtain ⟨timed, heffect, -, htimed⟩ := s.effect_cycle ticks
  let report := (clocked s.machine ticks).cycle s.console.random
  have hending : (s.runCycle ticks).worker.ending = (phaseAfter report).ending := rfl
  have hbefore : start.console.run (start.applied moves ++ timed) =
      ⟨clocked s.machine ticks, s.console.random⟩ := by
    rw [Console.run_append, ← hconsole, htimed]
  have hfaultless : start.console.faults (start.applied moves ++ timed) = [] := by
    cases hs with
    | faultless _ hnone =>
      rw [Console.faults_append, hnone, ← hconsole, faults_timed heffect]
      rfl
    | failed hleft _ _ =>
      rw [hworker] at hleft
      cases hleft
  rw [heffect, ← List.append_assoc] at happlied
  cases hresult : report.result with
  | error fault =>
    have hleft : (s.runCycle ticks).worker.ending = some (.error fault) := by
      rw [hending, phaseAfter_ending, hresult]
    have hfails : start.console.FailsLast (start.applied moves ++ timed) [] fault :=
      ⟨hfaultless, by rw [hbefore]; exact hresult, by simp⟩
    exact .failed hleft happlied hfails
  | ok progress =>
    have hok : (Console.mk (clocked s.machine ticks) s.console.random).faults [.cycle] = [] :=
      Console.faults_of_ok hresult
    refine .faultless (fun fault => ?_) ?_
    · rw [hending, phaseAfter_ending, hresult]
      simp
    · rw [happlied, Console.faults_append, hfaultless, hbefore, hok]
      rfl

theorem Ran.step {start : Session} {moves : List Move} (hrun : start.run moves = some s)
    (hs : start.Ran moves s) (hstep : s.step move = some after) :
    start.Ran (moves ++ [move]) after := by
  have hconsole := (simulates_run hrun).console
  have happlied := applied_concat hrun hstep
  have htakes := takes_of_step hstep
  by_cases hcycle : ∃ ticks, move = .cycle ticks
  · obtain ⟨ticks, rfl⟩ := hcycle
    cases htakes with
    | cycle _ hworker => exact hs.cycle hconsole hworker happlied
    | ask hasks _ _ | refuse hasks _ _ => cases hasks
  · have hmove : ∀ ticks, move ≠ .cycle ticks := fun ticks h => hcycle ⟨ticks, h⟩
    have hkeys := s.effect_keyEvents hmove
    cases hs with
    | faultless hending hnone =>
      refine .faultless (fun fault => ?_) ?_
      · rw [ne_eq, htakes.ending_error_iff hmove]
        exact hending fault
      · rw [happlied, Console.faults_append, hnone, Console.faults_keyEvents hkeys]
        rfl
    | @failed before later fault hending hall hfails =>
      have hlonger : start.applied (moves ++ [move]) =
          before ++ .cycle :: (later ++ s.effect move) := by
        rw [happlied, hall, List.append_assoc, List.cons_append]
      refine .failed ((htakes.ending_error_iff hmove).mpr hending) hlonger
        ⟨hfails.faultless, hfails.fails, ?_⟩
      intro operation hmem
      rcases List.mem_append.mp hmem with hlater | hlast
      · exact hfails.keys operation hlater
      · exact hkeys operation hlast

/-! ## Runs from their start -/

section Start

variable {settings : Settings} {word : Nat → UInt32} {program : Array UInt8} {observed : Bool}
  {start : Session} {moves : List Move}

/-- What a session tells of the moves that led to it. -/
structure Tells (start : Session) (moves : List Move) (s : Session) : Prop where
  running : s.running = true ↔ .stop ∉ moves ∧ s.worker.isFinished = false
  stopped : s.worker.ending = some (.ok ()) → .stop ∈ moves
  panicked : s.worker = .panicked ↔ s.observed = true ∧ .notify true ∈ moves
  overran : s.worker = .overran ↔ s.ClockOverruns moves
  shown : s.worker.hasPublished = true → s.published.isSome = true
  answered : s.Answered
  calls : s.returned.length + (if s.host = .joining then 1 else 0) = moves.countP Move.isEnding
  ran : start.Ran moves s

theorem tells_start (h : Session.start settings word program observed = .ok start) :
    start.Tells [] start := by
  obtain ⟨machine, -, rfl⟩ := start_ok h
  exact
    { running := by simp [opening, WorkerPhase.isFinished]
      stopped := nofun
      panicked := by simp [opening]
      overran := by simp [opening, ClockOverruns]
      shown := nofun
      answered := .pending rfl rfl
      calls := rfl
      ran := .faultless nofun rfl }

theorem Tells.step {found : Session} {passed : List Move} (hrun : start.run passed = some found)
    (h : start.Tells passed found) (hstep : found.step move = some after) :
    start.Tells (passed ++ [move]) after := by
  have htakes := takes_of_step hstep
  exact
    { running := htakes.running_iff h.running
      stopped := htakes.stop_mem h.running h.stopped
      panicked := htakes.panicked_iff h.panicked
      overran := htakes.overran_iff h.overran
      shown := htakes.isSome_published h.shown
      answered := htakes.answered h.answered
      calls := htakes.length_returned h.calls
      ran := h.ran.step hrun hstep }

theorem tells_run (hstart : Session.start settings word program observed = .ok start)
    (hrun : start.run moves = some s) : start.Tells moves s :=
  run_history (tells_start hstart) (fun _ _ _ _ hpassed h hstep => h.step hpassed hstep) hrun

/-- Puts 5 into the first register and returns, though nothing was called. -/
def setAndReturn : Array UInt8 := #[0x60, 0x05, 0x00, 0xEE]

/-- The first instruction is executed, and the second finds nothing to return to. -/
theorem cycles_setAndReturn :
    let random := RandomWords.ofSequence fun _ => 0
    ∃ (ready executed failed : Machine) (log later : List LogEntry),
      (Machine.fresh .standard).load setAndReturn = .ok ready ∧
        ready.timers = .perCycle ∧ executed.timers = .perCycle ∧
        ready.cycle random = ⟨executed, random, .ok .executed, log⟩ ∧
        executed.cycle random = ⟨failed, random, .error (.stackUnderflow 0x202), later⟩ := by
  intro random
  have hstands : (Machine.loaded .standard setAndReturn).Stands setAndReturn 0 :=
    Machine.stands_loaded .standard (by decide)
  have hset := hstands.executes (show 0 ≤ 0xDFE by decide)
    (show Instruction.decode? _ = some (.setByte 0 5) by decide)
  have hcycle := hset.cycle_of_no_fault hstands.wellFormed random rfl nofun
  obtain ⟨-, hbehind⟩ := hstands.next hset rfl rfl rfl random
  rw [hcycle] at hbehind
  have hret := hbehind.executes (show 2 ≤ 0xDFE by decide)
    (show Instruction.decode? _ = some .ret by decide)
  have hfailed := hret.cycle_of_fault hbehind.wellFormed random
    (show _ = some (.stackUnderflow 0x202) from rfl)
  exact ⟨_, _, _, _, _, Machine.load_fresh .standard (by decide), rfl, rfl, hcycle, hfailed⟩

end Start

end Session

end ChipEight
