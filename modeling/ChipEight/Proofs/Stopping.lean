import ChipEight.Proofs.Outcome

/-!
# Stopping a session

A stop clears the flag and waits for the worker. A worker that already has the lock and has
seen the flag set still runs its cycle, and one that carries a snapshot still passes it on;
no other cycle begins (`applied_of_stopping`). When the call returns the worker is gone, and
nothing but calls that change nothing is left (`Over`).
-/
namespace ChipEight.Session

variable {s after : Session} {move : Move}

/-- The flag is cleared and the call that did so has not returned, or will not have to wait
again. -/
structure Stopping (s : Session) : Prop where
  running : s.running = false
  host : s.host = .joining ∨ s.host = .idle ∧ s.joined = true

theorem stopping_of_stop (h : s.step .stop = some after) : after.Stopping := by
  cases takes_of_step h with
  | stop hhost hjoined => exact ⟨rfl, Or.inl rfl⟩
  | stopAgain hhost hjoined => exact ⟨rfl, Or.inr ⟨hhost, hjoined⟩⟩
  | ask hasks _ _ | refuse hasks _ _ => cases hasks

/-- A stop changes nothing of the machine, of its snapshots and of the worker. -/
theorem stop_keeps (h : s.step .stop = some after) :
    after.console = s.console ∧ after.worker = s.worker ∧ after.published = s.published := by
  cases takes_of_step h with
  | stop _ _ | stopAgain _ _ => exact ⟨rfl, rfl, rfl⟩
  | ask hasks _ _ | refuse hasks _ _ => cases hasks

theorem Stopping.inHand_eq (h : s.Stopping) : s.host.inHand = none := by
  rcases h.host with hhost | ⟨hhost, -⟩ <;> rw [hhost] <;> rfl

theorem Takes.stopping (h : s.Takes move after) (hs : s.Stopping) : after.Stopping := by
  have hrunning := hs.running
  cases h with
  | ask _ _ hset =>
    rw [hrunning] at hset
    cases hset
  | handle hhand _ =>
    rw [hs.inHand_eq] at hhand
    cases hhand
  | close _ => exact ⟨rfl, hs.host⟩
  | stop _ _ => exact ⟨rfl, Or.inl rfl⟩
  | stopAgain hhost hjoined => exact ⟨rfl, Or.inr ⟨hhost, hjoined⟩⟩
  | wait _ _ => exact ⟨hrunning, Or.inl rfl⟩
  | join _ _ => exact ⟨hrunning, Or.inr ⟨rfl, rfl⟩⟩
  | _ => exact ⟨hrunning, hs.host⟩

theorem stopping_run {moves : List Move} (hs : s.Stopping) (hrun : s.run moves = some after) :
    after.Stopping :=
  run_history (P := fun _ s => s.Stopping) hs
    (fun _ _ _ _ _ hfound hstep => (takes_of_step hstep).stopping hfound) hrun

/-- While a session stops only a worker that was let in before runs a cycle. -/
theorem Takes.effect_of_stopping (h : s.Takes move after) (hs : s.Stopping) :
    (s.effect move = [] ∧ (after.worker = .admitted → s.worker = .admitted)) ∨
      s.worker = .admitted ∧ after.worker ≠ .admitted ∧
        ∃ ticks, s.effect move = s.effect (.cycle ticks) := by
  cases h with
  | enter hworker =>
    refine Or.inl ⟨rfl, fun hadmitted => ?_⟩
    rw [hs.running] at hadmitted
    cases hadmitted
  | cycle ticks hworker => exact Or.inr ⟨hworker, phaseAfter_ne_admitted _, ticks, rfl⟩
  | pace now _ =>
    refine Or.inl ⟨rfl, fun hadmitted => ?_⟩
    dsimp only at hadmitted
    split at hadmitted <;> cases hadmitted
  | ask _ _ hset =>
    rw [hs.running] at hset
    cases hset
  | refuse hasks _ _ => exact Or.inl ⟨effect_of_asks hasks, id⟩
  | handle hhand _ =>
    rw [hs.inHand_eq] at hhand
    cases hhand
  | publish _ | skip _ _ _ | panic _ _ | notify _ _ | reckon _ _ | overrun _ _ | wake _ | close _ =>
    exact Or.inl ⟨rfl, nofun⟩
  | _ => exact Or.inl ⟨rfl, id⟩

theorem effect_cycle_congr {other : Session} (h : other.console = s.console) (ticks : UInt8) :
    other.effect (.cycle ticks) = s.effect (.cycle ticks) := by
  unfold effect machine
  rw [h]

/-- At most one cycle follows, the one that was under way. -/
theorem applied_of_stopping (hs : s.Stopping) {moves : List Move}
    (hrun : s.run moves = some after) :
    s.applied moves = [] ∨
      s.worker = .admitted ∧ ∃ ticks, s.applied moves = s.effect (.cycle ticks) := by
  induction moves generalizing s with
  | nil => exact Or.inl rfl
  | cons move rest ih =>
    obtain ⟨middle, hstep, hrest⟩ := Option.bind_eq_some_iff.mp hrun
    have htakes := takes_of_step hstep
    have hlater := ih (htakes.stopping hs) hrest
    rw [applied_cons hstep]
    rcases htakes.effect_of_stopping hs with ⟨hnone, hback⟩ | ⟨hworker, hleft, ticks, heffect⟩
    · have hconsole : middle.console = s.console := by
        rw [htakes.simulates.console, hnone]
        rfl
      rw [hnone, List.nil_append]
      rcases hlater with hempty | ⟨hadmitted, ticks, hcycle⟩
      · exact Or.inl hempty
      · exact Or.inr ⟨hback hadmitted, ticks, hcycle.trans (effect_cycle_congr hconsole ticks)⟩
    · refine Or.inr ⟨hworker, ticks, ?_⟩
      rcases hlater with hempty | ⟨hadmitted, -⟩
      · rw [heffect, hempty, List.append_nil]
      · exact absurd hadmitted hleft

/-- What was under way when the session was stopped, and what the cycle under way adds to it, is
one snapshot at most. -/
theorem length_inFlight_le {operations : List Operation}
    (h : operations = [] ∨
      s.worker = .admitted ∧ ∃ ticks, operations = s.effect (.cycle ticks)) :
    (s.worker.toDeliver ++
      (s.worker.toPublish ++ s.console.executedSnapshots operations)).length ≤ 1 := by
  rcases h with rfl | ⟨hadmitted, ticks, rfl⟩
  · rw [Console.executedSnapshots_nil, List.append_nil]
    exact length_carried_le s.worker
  · have hcarried := length_carried_le (s.runCycle ticks).worker
    rw [runCycle_toDeliver] at hcarried
    rw [← runCycle_toPublish, hadmitted]
    exact hcarried

/-- The session was stopped, its worker is gone, and the host has been told so. -/
structure Over (s : Session) : Prop where
  running : s.running = false
  host : s.host = .idle
  joined : s.joined = true
  gone : s.worker.outcome?.isSome = true

theorem Stopping.over (hs : s.Stopping) (hanswered : s.Answered) (hidle : s.host = .idle) :
    s.Over := by
  rcases hs.host with hjoining | ⟨-, hjoined⟩
  · rw [hidle] at hjoining
    cases hjoining
  · cases hanswered with
    | pending hnone _ =>
      rw [hjoined] at hnone
      cases hnone
    | handedOut _ _ houtcome _ _ =>
      exact ⟨hs.running, hidle, hjoined, Option.isSome_of_eq_some houtcome⟩

/-- What can still be called when a session is over leaves everything as it is. -/
theorem Takes.over (h : s.Takes move after) (hs : s.Over) :
    after.Over ∧ after.console = s.console ∧ after.published = s.published ∧
      s.hands move = [] := by
  have hgone := hs.gone
  cases h with
  | enter hworker | cycle _ hworker | publish hworker | skip _ hworker _ | panic hworker _
  | notify hworker _ | reckon hworker _ | overrun hworker _ | pace _ hworker | wake hworker
  | close hworker =>
    rw [hworker] at hgone
    cases hgone
  | ask _ _ hset =>
    rw [hs.running] at hset
    cases hset
  | refuse hasks _ _ =>
    cases move with
    | press key | release key => exact ⟨hs, rfl, rfl, rfl⟩
    | _ => cases hasks
  | handle hhand _ =>
    rw [hs.host] at hhand
    cases hhand
  | stop _ hnone | wait _ hnone =>
    rw [hs.joined] at hnone
    cases hnone
  | stopAgain _ _ => exact ⟨⟨rfl, hs.host, hs.joined, hgone⟩, rfl, rfl, rfl⟩
  | waitAgain _ _ => exact ⟨⟨hs.running, hs.host, hs.joined, hgone⟩, rfl, rfl, rfl⟩
  | join hjoining _ =>
    rw [hs.host] at hjoining
    cases hjoining

theorem over_run {moves : List Move} (hs : s.Over) (hrun : s.run moves = some after) :
    after.Over ∧ after.console = s.console ∧ after.published = s.published ∧
      s.handed moves = [] := by
  induction moves generalizing s with
  | nil =>
    cases hrun
    exact ⟨hs, rfl, rfl, rfl⟩
  | cons move rest ih =>
    obtain ⟨middle, hstep, hrest⟩ := Option.bind_eq_some_iff.mp hrun
    obtain ⟨hmiddle, hconsole, hpublished, hhands⟩ := (takes_of_step hstep).over hs
    obtain ⟨hover, hconsole', hpublished', hhanded⟩ := ih hmiddle hrest
    refine ⟨hover, hconsole'.trans hconsole, hpublished'.trans hpublished, ?_⟩
    rw [handed_cons hstep, hhands, hhanded]
    rfl

/-- Keys are refused once the flag is cleared. -/
theorem Over.step_key (h : s.Over) (key : UInt8) :
    s.step (.press key) = some s ∧ s.step (.release key) = some s := by
  constructor <;> dsimp only [step, workerStep, hostStep]
  · rw [h.host, h.running]
    rfl
  · rw [h.host, h.running]
    rfl

/-- A stop at any time. Until it returns, at most one more cycle is run, one that the worker had
been let in for, and at most one more snapshot is published and handed out, the one that was
under way. When it has returned, the machine and the last snapshot stay as they are whatever
is called, the observer is not called any more, the session does not run, and key events do
nothing. -/
theorem stop_is_final {settings : Settings} {word : Nat → UInt32} {program : Array UInt8}
    {observed : Bool} {start s stopping t : Session} {moves rest : List Move}
    (hstart : Session.start settings word program observed = .ok start)
    (hrun : start.run moves = some s) (hstop : s.step .stop = some stopping)
    (hrest : stopping.run rest = some t) :
    let operations := stopping.applied rest
    let inFlight := s.worker.toPublish ++ s.console.executedSnapshots operations
    (operations = [] ∨ s.worker = .admitted ∧ ∃ ticks, operations = s.effect (.cycle ticks)) ∧
      t.console = s.console.run operations ∧
      (s.worker.toDeliver ++ inFlight).length ≤ 1 ∧
      stopping.stored rest <+: inFlight ∧
      t.published = (s.published.toList ++ stopping.stored rest).getLast? ∧
      stopping.handed rest <+: s.worker.toDeliver ++ stopping.stored rest ∧
      t.running = false ∧
      (t.host = .idle → ∀ later u, t.run later = some u →
        u.console = t.console ∧ u.published = t.published ∧ t.handed later = [] ∧
          u.running = false ∧
          ∀ key, u.step (.press key) = some u ∧ u.step (.release key) = some u) := by
  intro operations inFlight
  obtain ⟨hconsole, hworker, hpublished⟩ := stop_keeps hstop
  have hstopping := stopping_of_stop hstop
  have hended := stopping_run hstopping hrest
  have hpasses := passes_run hrest
  have happlied := applied_of_stopping hstopping hrest
  have hstored := hpasses.stored_eq
  simp only [hworker, effect_cycle_congr hconsole] at happlied
  rw [hworker, hconsole] at hstored
  refine ⟨happlied, ?_, length_inFlight_le happlied, ⟨_, hstored.symm⟩, ?_, ?_, hended.running,
    ?_⟩
  · rw [← hconsole]
    exact (simulates_run hrest).console
  · rw [hpasses.published_eq, hpublished]
  · cases hobserved : stopping.observed with
    | true =>
      have hhanded := hpasses.handed_eq hobserved
      rw [hworker] at hhanded
      exact ⟨_, hhanded.symm⟩
    | false =>
      rw [hpasses.unobserved hobserved]
      exact List.nil_prefix
  · intro hidle later u hlater
    have htells : start.Tells (moves ++ .stop :: rest) t := by
      apply tells_run hstart
      rw [run_append, hrun]
      exact (run_cons hstop).trans hrest
    obtain ⟨hover, hconsole', hpublished', hhanded⟩ :=
      over_run (hended.over htells.answered hidle) hlater
    exact ⟨hconsole', hpublished', hhanded, hover.running, hover.step_key⟩

/-- The worker goes on from the middle of a cycle until it finds the flag cleared. -/
def runDown : List Move :=
  [.cycle 0, .publish, .notify false, .reckon .first, .pace .first, .enter, .close, .join]

/-- The stop comes while the first cycle is under way. -/
theorem stop_during_cycle :
    ∃ (start s stopping t : Session) (snapshot : Snapshot),
      Session.start .standard (fun _ => 0) setAndReturn true = .ok start ∧
        start.run [.enter] = some s ∧ s.step .stop = some stopping ∧
        stopping.run runDown = some t ∧ t.host = .idle ∧
        stopping.applied runDown = [.cycle] ∧ stopping.stored runDown = [snapshot] ∧
        stopping.handed runDown = [snapshot] ∧ t.published = some snapshot ∧
        ∀ later u, t.run later = some u →
          u.console = s.console.run [.cycle] ∧ u.published = some snapshot ∧
            t.handed later = [] ∧ u.running = false ∧ u.step (.press 9) = some u := by
  let random := RandomWords.ofSequence fun _ => 0
  obtain ⟨ready, executed, failed, log, -, hload, htimers, -, hfirst, -⟩ := cycles_setAndReturn
  let start := opening ⟨ready, random⟩ 2000000 true [.starting setAndReturn.size 2000000]
  have hstart : Session.start .standard (fun _ => 0) setAndReturn true = .ok start :=
    start_of_load hload
  let s : Session := { start with worker := .admitted }
  have hrun : start.run [.enter] = some s := rfl
  let stopping : Session := { s.logging [.stopping] with running := false, host := .joining }
  have hstop : s.step .stop = some stopping := rfl
  have hcycled := step_cycle (s := stopping) rfl htimers hfirst 0
  let t : Session :=
    { stopping with
      console := ⟨executed, random⟩
      published := some executed.snapshot
      received := [executed.snapshot]
      worker := .finished (.ok ())
      host := .idle
      joined := true
      returned := [.ok ()] }.logging log
  have hrest : stopping.run runDown = some t := run_cons hcycled
  have happlied : stopping.applied runDown = [.cycle] := by
    rw [runDown, applied_cons hcycled, effect_perCycle (s := stopping) htimers]
    rfl
  have hstored : stopping.stored runDown = [executed.snapshot] := by
    rw [runDown, stored_cons hcycled]
    rfl
  have hhanded : stopping.handed runDown = [executed.snapshot] := by
    rw [runDown, handed_cons hcycled]
    rfl
  obtain ⟨-, hconsole, -, -, hpublished, -, -, hover⟩ :=
    stop_is_final hstart hrun hstop hrest
  rw [happlied] at hconsole
  rw [hstored] at hpublished
  refine ⟨start, s, stopping, t, executed.snapshot, hstart, hrun, hstop, hrest, rfl, happlied,
    hstored, hhanded, hpublished, ?_⟩
  intro later u hlater
  obtain ⟨hsame, hkept, hquiet, hrunning, hkey⟩ := hover rfl later u hlater
  exact ⟨hsame.trans hconsole, hkept.trans hpublished, hquiet, hrunning, (hkey 9).1⟩

end ChipEight.Session
