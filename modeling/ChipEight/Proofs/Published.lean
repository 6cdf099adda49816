import ChipEight.Proofs.KeyWait
import ChipEight.Proofs.Sequential

/-!
# What a published snapshot tells

A snapshot leaves out the wait of the machine and the request of its keypad. Outside of a
wait both are at rest, so the machine can be had back from its snapshot, and a session
publishes no snapshots of a wait.
-/
namespace ChipEight

/-- The machine outside of a wait that shows a snapshot. -/
def Machine.ofSnapshot (snapshot : Snapshot) (shift : ShiftRule) (timers : TimerMode) :
    Machine where
  memory := snapshot.memory
  registers := ⟨snapshot.view.values⟩
  stack := snapshot.stack
  pc := snapshot.view.pc
  index := snapshot.view.index
  delay := snapshot.view.delay
  sound := snapshot.view.sound
  frame := snapshot.frame
  keypad := ⟨snapshot.keys, false, none⟩
  awaiting := none
  shift
  timers

/-- Nothing is lost in the snapshot of a machine that does not wait. -/
theorem Machine.WellFormed.ofSnapshot_snapshot {m : Machine} (h : m.WellFormed)
    (hidle : m.isWaiting = false) : Machine.ofSnapshot m.snapshot m.shift m.timers = m := by
  have hawaiting : m.awaiting = none :=
    Option.isNone_iff_eq_none.mp (Option.isSome_eq_false_iff.mp hidle)
  have hpressed := h.pressed_of_idle hawaiting
  have hwaiting : m.keypad.waiting = false := h.waiting.symm.trans hidle
  unfold Machine.ofSnapshot
  rw [← hawaiting, ← hpressed, ← hwaiting]
  rfl

namespace Console

/-- What is shown of executed cycles are states that the run went through. -/
theorem mem_executedSnapshots {c : Console} {operations : List Operation} {snapshot : Snapshot}
    (h : snapshot ∈ c.executedSnapshots operations) :
    ∃ first later, operations = first ++ .cycle :: later ∧
      let report := (c.run first).machine.cycle (c.run first).random
      report.result = .ok .executed ∧ report.machine.snapshot = snapshot := by
  induction operations generalizing c with
  | nil => cases h
  | cons operation rest ih =>
    rw [← List.singleton_append, executedSnapshots_append, executedSnapshots_single] at h
    rcases List.mem_append.mp h with hfirst | hlater
    · have hexecuted := Option.mem_toList.mp hfirst
      unfold OperationReport.executed? at hexecuted
      split at hexecuted
      · rename_i hanswer
        cases operation with
        | cycle => exact ⟨[], rest, rfl, Answer.cycled.inj hanswer, Option.some.inj hexecuted⟩
        | load program =>
          rw [perform] at hanswer
          split at hanswer <;> cases hanswer
        | _ => cases hanswer
      · cases hexecuted
    · obtain ⟨first, later, rfl, hresult, hsnapshot⟩ := ih hlater
      exact ⟨operation :: first, later, rfl, hresult, hsnapshot⟩

end Console

/-- Everything that a session ever publishes shows its machine in the course of its run, and
never waiting. -/
theorem Session.published_idle {settings : Settings} {word : Nat → UInt32}
    {program : Array UInt8} {observed : Bool} {start s : Session} {moves : List Move}
    {snapshot : Snapshot} (hstart : Session.start settings word program observed = .ok start)
    (hrun : start.run moves = some s) (hpublished : s.published = some snapshot) :
    ∃ first later, start.applied moves = first ++ later ∧
      let m := (start.console.run first).machine
      m.Reachable ∧ m.isWaiting = false ∧ m.Follows settings ∧ m.snapshot = snapshot := by
  have haccounts := (simulates_run hrun).accounts [] (accountsFor_start hstart)
  obtain ⟨stored, hexecuted, hlast⟩ := haccounts.stored
  rw [List.nil_append] at hexecuted
  have hmem : snapshot ∈ start.console.executedSnapshots (start.applied moves) := by
    rw [hexecuted]
    exact List.mem_append_left _ (List.mem_of_getLast? (hlast.symm.trans hpublished))
  obtain ⟨first, later, happlied, hresult, hsnapshot⟩ := Console.mem_executedSnapshots hmem
  have hafter : (start.console.run (first ++ [.cycle])).machine =
      ((start.console.run first).machine.cycle (start.console.run first).random).machine := by
    rw [Console.run_append]
    rfl
  have hcourse : (Console.fresh settings word).run (.load program :: (first ++ [.cycle])) =
      start.console.run (first ++ [.cycle]) := by
    rw [Console.run_cons, (start_console hstart).1]
  refine ⟨first ++ [.cycle], later, by rw [happlied, List.append_assoc]; rfl,
    ⟨settings, word, _, congrArg Console.machine hcourse⟩, ?_, ?_, ?_⟩
  · rw [hafter, Machine.isWaiting, Machine.idle_of_executed hresult]
    rfl
  · rw [← hcourse]
    exact Console.run_follows settings word _
  · rw [hafter]
    exact hsnapshot

/-- Two machines with the same rules that show the same outside of a wait cannot be told apart,
whatever is done to them. An executed cycle never ends in a wait, so this holds of all that
a session publishes. -/
theorem Console.snapshots_complete :
    (∀ m n : Machine, m.Reachable → n.Reachable → m.shift = n.shift → m.timers = n.timers →
      m.isWaiting = false → n.isWaiting = false → m.snapshot = n.snapshot →
      ∀ random operations, reports ⟨m, random⟩ operations = reports ⟨n, random⟩ operations) ∧
    (∀ (m : Machine) random, (m.cycle random).result = .ok .executed →
      (m.cycle random).machine.isWaiting = false) ∧
    ∀ settings word program observed start moves s snapshot,
      Session.start settings word program observed = .ok start → start.run moves = some s →
      s.published = some snapshot →
      ∃ first later, start.applied moves = first ++ later ∧
        let m := (start.console.run first).machine
        m.Reachable ∧ m.isWaiting = false ∧ m.shift = settings.shift ∧
          m.timers = settings.timers ∧ m.snapshot = snapshot := by
  refine ⟨?_, ?_, ?_⟩
  · intro m n hm hn hshift htimers hidle hidle' hsnapshot random operations
    have hsame : m = n := by
      rw [← hm.wellFormed.ofSnapshot_snapshot hidle, ← hn.wellFormed.ofSnapshot_snapshot hidle',
        hshift, htimers, hsnapshot]
    rw [hsame]
  · intro m random hexecuted
    rw [Machine.isWaiting, Machine.idle_of_executed hexecuted]
    rfl
  · intro settings word program observed start moves s snapshot hstart hrun hpublished
    obtain ⟨first, later, happlied, hreach, hidle, hfollows, hsnapshot⟩ :=
      Session.published_idle hstart hrun hpublished
    exact ⟨first, later, happlied, hreach, hidle, hfollows.shift, hfollows.timers, hsnapshot⟩

/-- Waits for a key in the first register, again and again. -/
def askForKey : Array UInt8 := #[0xF0, 0x0A, 0x12, 0x00]

/-- When the wait is over, the machine is back where it was after the load. -/
theorem Console.run_askForKey :
    let c := Console.fresh .standard fun _ => 0
    ∃ answered n : Machine,
      c.run [.load askForKey, .cycle, .press 0] = ⟨answered, c.random⟩ ∧
      (answered.cycle c.random).result = .ok .executed ∧
      c.run [.load askForKey, .cycle, .press 0, .cycle, .release 0, .cycle] = ⟨n, c.random⟩ ∧
      n.shift = .inPlace ∧ n.timers = .perCycle ∧ n.isWaiting = false ∧
      (Machine.loaded .standard askForKey).snapshot = n.snapshot := by
  intro c
  let random := RandomWords.ofSequence fun _ => 0
  let start := Machine.loaded .standard askForKey
  let waiting : Machine :=
    { start with pc := 0x202, keypad := ⟨start.keypad.down, true, none⟩, awaiting := some 0 }
  let answered := waiting.press 0
  let resumed : Machine :=
    { start with
      pc := 0x202
      registers := start.registers.set 0 0
      keypad := ⟨answered.keypad.down, false, none⟩ }
  let released := resumed.release 0
  let back : Machine := { released with pc := 0x200 }
  have hload : Memory.fresh.load askForKey = .ok start.memory :=
    Memory.hasFont_fresh.load_of_fits (by decide)
  have hwait : start.Executes (.waitKey 0) :=
    Machine.executes_of_load (m := start) hload rfl 0 rfl (by decide) (by decide)
  have hjump : released.Executes (.jump 0x200) :=
    Machine.executes_of_load (m := released) hload rfl 2 rfl (by decide) (by decide)
  have harm : ((Console.mk start random).perform .cycle).console = ⟨waiting, random⟩ := by
    rw [Console.perform_cycle hwait]
    rfl
  have hpress : ((Console.mk waiting random).perform (.press 0)).console = ⟨answered, random⟩ := rfl
  have hend : ((Console.mk answered random).perform .cycle).console = ⟨resumed, random⟩ := by
    rw [Console.perform, Machine.cycle_of_answered (m := answered) rfl rfl]
    rfl
  have hrelease : ((Console.mk resumed random).perform (.release 0)).console =
      ⟨released, random⟩ := rfl
  have hreturn : ((Console.mk released random).perform .cycle).console = ⟨back, random⟩ := by
    rw [Console.perform_cycle hjump]
    rfl
  refine ⟨answered, back, ?_, ?_, ?_, rfl, rfl, rfl, ?_⟩
  · rw [Console.run_cons, Console.perform_load _ _ (by decide), Console.run_cons, harm,
      Console.run_cons, hpress, Console.run_nil]
    rfl
  · rw [Machine.cycle_of_answered (m := answered) rfl rfl]
  · rw [Console.run_cons, Console.perform_load _ _ (by decide), Console.run_cons, harm,
      Console.run_cons, hpress, Console.run_cons, hend, Console.run_cons, hrelease,
      Console.run_cons, hreturn, Console.run_nil]
    rfl
  · have hregisters : start.registers = back.registers := by decide
    have hkeys : start.keypad.down = back.keypad.down := by decide
    change Snapshot.mk ⟨_, _, start.registers.values, _, _⟩ _ _ start.keypad.down _ = _
    rw [hregisters, hkeys]
    rfl

/-- A wait that is over cannot be noticed, and an observed session shows a machine that does
not wait. -/
theorem Console.past_wait_leaves_no_trace :
    let c := Console.fresh .standard fun _ => 0
    let loaded := (c.run [.load askForKey]).machine
    let later := (c.run [.load askForKey, .cycle, .press 0, .cycle, .release 0, .cycle]).machine
    (∀ random operations, reports ⟨loaded, random⟩ operations =
      reports ⟨later, random⟩ operations) ∧
    ((c.run [.load askForKey, .cycle, .press 0]).machine.cycle c.random).machine.isWaiting =
      false ∧
    ∃ (start s : Session) (snapshot : Snapshot), s.published = some snapshot ∧
      ∃ first rest, start.applied Session.pressDuringCycle = first ++ rest ∧
        (start.console.run first).machine.isWaiting = false ∧
        (start.console.run first).machine.snapshot = snapshot := by
  intro c loaded later
  obtain ⟨answered, n, hanswered, hexecuted, hn, hshift, htimers, hidle, hsnapshot⟩ :=
    run_askForKey
  obtain ⟨start, s, snapshot, hstart, hrun, -, -, -, hpublished, -⟩ :=
    Session.pressDuringCycle_setFive
  obtain ⟨hcomplete, hnever, hshown⟩ := snapshots_complete
  have hloaded : loaded = .loaded .standard askForKey := by
    change (run _ _).machine = _
    rw [run_cons, perform_load _ _ (by decide), run_nil]
  have hlater : later = n := congrArg Console.machine hn
  have hreach : loaded.Reachable := ⟨_, _, _, rfl⟩
  have hreach' : later.Reachable := ⟨_, _, _, rfl⟩
  clear_value loaded later
  subst hloaded hlater
  refine ⟨hcomplete _ _ hreach hreach' hshift.symm htimers.symm rfl hidle hsnapshot, ?_, start, s,
    snapshot, hpublished, ?_⟩
  · rw [hanswered]
    exact hnever answered _ hexecuted
  · obtain ⟨first, rest, happlied, -, hnone, -, -, hsame⟩ :=
      hshown _ _ _ _ _ _ _ _ hstart hrun hpublished
    exact ⟨first, rest, happlied, hnone, hsame⟩

end ChipEight
