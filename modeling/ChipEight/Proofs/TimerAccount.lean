import ChipEight.Proofs.Coupling
import ChipEight.Proofs.KeyWait
import Mathlib.Algebra.GroupWithZero.Nat

/-!
# Where the ticks of a timer go

Time that passes and executed cycles are the only things that make a timer count, and a timer
that stops at zero loses as much by several steps as by their sum. So over a run without a load
a timer loses the ticks of the run (`timer_run`), counted from the last cycle that has set it.
-/
namespace ChipEight

/-- One of the two timers. -/
inductive TimerName where
  | delay | sound
  deriving DecidableEq, Repr

/-- The instruction that sets the timer from a register. -/
def TimerName.set : TimerName → Register → Instruction
  | .delay, x => .setDelay x
  | .sound, x => .setSound x

/-- Ticks that pass by themselves. -/
def Operation.ticks : Operation → Nat
  | .elapse ticks => ticks.toNat
  | _ => 0

/-- The answer is that of a cycle that was executed. -/
def Answer.isExecuted : Answer → Bool
  | .cycled (.ok .executed) => true
  | _ => false

namespace Machine

/-- What a timer shows. -/
def timer (m : Machine) : TimerName → Timer
  | .delay => m.delay
  | .sound => m.sound

/-- Ticks of an executed cycle. -/
def ticksPerCycle (m : Machine) : Nat :=
  match m.timers with
  | .perCycle => 1
  | .realtime => 0

variable {m : Machine} {name : TimerName}

theorem toNat_timer_elapse (m : Machine) (ticks : UInt8) (name : TimerName) :
    ((m.elapse ticks).timer name).toNat = (m.timer name).toNat - ticks.toNat := by
  cases name with
  | delay => exact m.delay.toNat_elapse ticks
  | sound => exact m.sound.toNat_elapse ticks

theorem toNat_timer_countCycle (m : Machine) (name : TimerName) :
    (m.countCycle.timer name).toNat = (m.timer name).toNat - m.ticksPerCycle := by
  unfold countCycle ticksPerCycle
  cases m.timers with
  | perCycle => exact m.toNat_timer_elapse 1 name
  | realtime => rfl

theorem timer_after_set (m : Machine) (name : TimerName) (random : RandomWords) (x : Register) :
    (m.after random (name.set x)).timer name = m.registers.get x := by
  cases name <;> rfl

/-- Only the instruction that sets a timer has an effect on it. -/
theorem timer_after_of_ne (m : Machine) (random : RandomWords) {ins : Instruction}
    (hins : ∀ x, ins ≠ name.set x) : (m.after random ins).timer name = m.timer name := by
  cases name with
  | delay =>
    cases ins with
    | setDelay x => exact absurd rfl (hins x)
    | _ => rfl
  | sound =>
    cases ins with
    | setSound x => exact absurd rfl (hins x)
    | _ => rfl

/-- The next cycle does not set the timer. -/
def Leaves (m : Machine) (name : TimerName) : Prop := ∀ x, ¬ m.Executes (name.set x)

theorem Executes.leaves {ins : Instruction} (hins : m.Executes ins)
    (hother : ∀ x, ins ≠ name.set x) : m.Leaves name :=
  fun x hset => hother x (hins.unique hset)

theorem leaves_of_awaiting {x : Register} (h : m.awaiting = some x) : m.Leaves name := by
  intro y hins
  rw [hins.idle] at h
  cases h

/-- A cycle that does not set a timer takes its own ticks from it, if it is executed. -/
theorem Leaves.toNat_timer_cycle (hleaves : m.Leaves name) (h : m.WellFormed)
    (random : RandomWords) :
    ((m.cycle random).machine.timer name).toNat =
      (m.timer name).toNat -
        if (Answer.cycled (m.cycle random).result).isExecuted then m.ticksPerCycle else 0 := by
  rcases m.cycle_cases with ⟨x, hx⟩ | ⟨hidle, hend⟩ | ⟨hidle, hend, hnone⟩ | ⟨ins, hins⟩
  · cases hpressed : m.keypad.pressed with
    | none =>
      rw [cycle_of_unanswered hx hpressed]
      rfl
    | some key =>
      rw [cycle_of_answered hx hpressed]
      refine (toNat_timer_countCycle _ name).trans ?_
      cases name <;> rfl
  · rw [cycle_of_past_end hidle hend]
    rfl
  · rw [cycle_of_undecoded hidle hend hnone]
    rfl
  · have hother : ∀ x, ins ≠ name.set x := by
      rintro x rfl
      exact hleaves x hins
    have hafter : (m.advance.after random ins).timer name = m.timer name := by
      rw [timer_after_of_ne _ _ hother]
      cases name <;> rfl
    rw [hins.cycle_report h.stack.depth_le (Nat.lt_succ_of_le h.index_le)]
    split
    · rw [hafter]
      rfl
    · split
      · rw [hafter]
        rfl
      · refine (toNat_timer_countCycle _ name).trans ?_
        rw [hafter]
        rfl

/-- A cycle that sets a timer is executed, and takes its own ticks from what it has set. -/
theorem Executes.toNat_timer_cycle {x : Register} (hins : m.Executes (name.set x))
    (h : m.WellFormed) (random : RandomWords) :
    (m.cycle random).result = .ok .executed ∧
      ((m.cycle random).machine.timer name).toNat =
        (m.registers.get x).toNat - m.ticksPerCycle := by
  have hfault : m.faultOf m.pc (name.set x) = none := by cases name <;> rfl
  have hwait : ∀ y, name.set x ≠ .waitKey y := by
    cases name <;> rintro y ⟨⟩
  rw [hins.cycle_of_no_fault h random hfault hwait, toNat_timer_countCycle, timer_after_set]
  exact ⟨rfl, rfl⟩

end Machine

namespace Console

/-- Number of the cycles of a run that were executed. -/
def executedCycles (c : Console) (operations : List Operation) : Nat :=
  (c.reports operations).countP fun report => report.answer.isExecuted

theorem executedCycles_cons (c : Console) (operation : Operation) (rest : List Operation) :
    c.executedCycles (operation :: rest) =
      (if (c.perform operation).answer.isExecuted then 1 else 0) +
        (c.perform operation).console.executedCycles rest := by
  rw [executedCycles, reports_cons, List.countP_cons, Nat.add_comm, executedCycles]

theorem executedCycles_append (c : Console) (first later : List Operation) :
    c.executedCycles (first ++ later) =
      c.executedCycles first + (c.run first).executedCycles later := by
  rw [executedCycles, reports_append, List.countP_append]
  rfl

/-- Ticks of a run: those that passed by themselves, and those of its executed cycles if the
timers count cycles. -/
def ticks (c : Console) (operations : List Operation) : Nat :=
  (operations.map Operation.ticks).sum + c.machine.ticksPerCycle * c.executedCycles operations

variable {c : Console} {name : TimerName}

theorem perform_ticksPerCycle (c : Console) (operation : Operation) :
    (c.perform operation).console.machine.ticksPerCycle = c.machine.ticksPerCycle := by
  have htimers := c.run_timers [operation]
  rw [run_cons, run_nil] at htimers
  simp only [Machine.ticksPerCycle, htimers]

/-- Ticks of one operation of a run. -/
def ticksOf (c : Console) (operation : Operation) : Nat :=
  operation.ticks + if (c.perform operation).answer.isExecuted then c.machine.ticksPerCycle else 0

theorem ticks_cons (c : Console) (operation : Operation) (rest : List Operation) :
    c.ticks (operation :: rest) = c.ticksOf operation + (c.perform operation).console.ticks rest := by
  simp only [ticks, ticksOf, executedCycles_cons, List.map_cons, List.sum_cons,
    perform_ticksPerCycle, Nat.mul_add]
  split <;> omega

theorem ticksOf_cycle (c : Console) :
    c.ticksOf .cycle =
      if (Answer.cycled (c.machine.cycle c.random).result).isExecuted then c.machine.ticksPerCycle
      else 0 :=
  Nat.zero_add _

/-- An operation that neither loads nor sets the timer takes its ticks from it. -/
theorem perform_timer (hc : c.machine.WellFormed) {operation : Operation}
    (hload : ∀ program, operation ≠ .load program)
    (hleaves : operation = .cycle → c.machine.Leaves name) :
    ((c.perform operation).console.machine.timer name).toNat =
      (c.machine.timer name).toNat - c.ticksOf operation := by
  cases operation with
  | load program => exact absurd rfl (hload program)
  | cycle =>
    rw [ticksOf_cycle]
    exact (hleaves rfl).toNat_timer_cycle hc c.random
  | press key | release key => cases name <;> rfl
  | elapse ticks => exact c.machine.toNat_timer_elapse ticks name

/-- A run that neither loads nor sets the timer takes its ticks from it. -/
theorem run_timer (hc : c.machine.WellFormed) {operations : List Operation}
    (hload : ∀ program, .load program ∉ operations)
    (hleaves : c.EveryCycle (·.Leaves name) operations) :
    ((c.run operations).machine.timer name).toNat =
      (c.machine.timer name).toNat - c.ticks operations := by
  induction operations generalizing c with
  | nil => rfl
  | cons operation rest ih =>
    obtain ⟨hfirst, hrest⟩ := hleaves
    obtain ⟨hkind, hlater⟩ := loads_nothing_cons hload
    rw [run_cons, ih (perform_wellFormed c operation hc) hlater hrest,
      perform_timer hc hkind hfirst, ticks_cons, Nat.sub_sub]

/-- The cycle between `before` and `later` is the last one of the run that sets the timer. -/
structure LastSet (c : Console) (name : TimerName) (before later : List Operation)
    (x : Register) : Prop where
  sets : (c.run before).machine.Executes (name.set x)
  leaves : ((c.run before).perform .cycle).console.EveryCycle (·.Leaves name) later

theorem ticksOf_of_set (hc : c.machine.WellFormed) {x : Register}
    (hins : c.machine.Executes (name.set x)) : c.ticksOf .cycle = c.machine.ticksPerCycle := by
  rw [ticksOf_cycle, (hins.toNat_timer_cycle hc c.random).1]
  rfl

/-- The cycle that sets the timer is the first that counts. -/
theorem LastSet.run_timer {before later : List Operation} {x : Register}
    (h : c.LastSet name before later x) (hc : c.machine.WellFormed)
    (hload : ∀ program, .load program ∉ later) :
    ((c.run (before ++ .cycle :: later)).machine.timer name).toNat =
      ((c.run before).machine.registers.get x).toNat - (c.run before).ticks (.cycle :: later) := by
  have hbefore := run_wellFormed hc before
  have htimer := (h.sets.toNat_timer_cycle hbefore (c.run before).random).2
  rw [run_append, run_cons, Console.run_timer (hbefore.cycle _) hload h.leaves, ticks_cons,
    ticksOf_of_set hbefore h.sets, ← Nat.sub_sub]
  exact congrArg (· - _) htimer

/-- Of the cycles of a run that set the timer there is a last one. -/
theorem exists_lastSet {operations : List Operation}
    (hsets : ¬ c.EveryCycle (·.Leaves name) operations) :
    ∃ before later x, operations = before ++ .cycle :: later ∧ c.LastSet name before later x := by
  induction operations generalizing c with
  | nil => exact absurd trivial hsets
  | cons operation rest ih =>
    by_cases hrest : (c.perform operation).console.EveryCycle (·.Leaves name) rest
    · have hfirst : ¬ (operation = .cycle → c.machine.Leaves name) := fun hfirst =>
        hsets ⟨hfirst, hrest⟩
      obtain ⟨rfl, hset⟩ := Classical.not_imp.mp hfirst
      obtain ⟨x, hins⟩ := Classical.not_forall_not.mp hset
      exact ⟨[], rest, x, rfl, hins, hrest⟩
    · obtain ⟨before, later, x, rfl, hlast⟩ := ih hrest
      exact ⟨operation :: before, later, x, rfl, hlast.sets, hlast.leaves⟩

/-- Cycles that look at a wait in vain neither count nor set a timer. -/
theorem quiet_cycles {x : Register} {pc : UInt16} (h : c.machine.Waits x pc none)
    {operations : List Operation} (hquiet : ∀ operation ∈ operations, operation.Quiet) :
    c.executedCycles operations = 0 ∧ ∀ name, c.EveryCycle (·.Leaves name) operations := by
  induction operations generalizing c with
  | nil => exact ⟨rfl, fun _ => trivial⟩
  | cons operation rest ih =>
    obtain ⟨hfirst, hrest⟩ := List.forall_mem_cons.mp hquiet
    obtain ⟨hnone, hleaves⟩ := ih (waits_quiet h hfirst) hrest
    have hanswer : (c.perform operation).answer.isExecuted = false := by
      cases operation with
      | load program => exact hfirst.elim
      | cycle =>
        rw [perform, h.cycle_unanswered]
        rfl
      | _ => rfl
    rw [executedCycles_cons, hanswer, hnone]
    exact ⟨rfl, fun name => ⟨fun _ => Machine.leaves_of_awaiting h.awaiting, hleaves name⟩⟩

/-- The cycle after the press that ends a wait counts. -/
theorem press_counts {x : Register} {pc : UInt16} (h : c.machine.Waits x pc none) {key : UInt8}
    (hkey : key.toNat < 16) : c.executedCycles [.press key, .cycle] = 1 := by
  have hanswered := h.press hkey
  have hresult : ((c.machine.press key).cycle c.random).result = .ok .executed := by
    rw [Machine.cycle_of_answered hanswered.awaiting hanswered.pressed]
  have hcycle : (Console.mk (c.machine.press key) c.random).executedCycles [.cycle] = 1 := by
    rw [executedCycles_cons, perform, hresult]
    rfl
  rw [executedCycles_cons]
  exact congrArg (0 + ·) hcycle

/-- Of the cycles of a wait the one that ends it counts, and none sets a timer. -/
theorem wait_cycles {x : Register} (hins : c.machine.Executes (.waitKey x))
    {polls : List Operation} {key : UInt8} (hpolls : ∀ operation ∈ polls, operation.Quiet)
    (hkey : key.toNat < 16) :
    let operations := .cycle :: (polls ++ [.press key, .cycle])
    c.executedCycles operations = 1 ∧ ∀ name, c.EveryCycle (·.Leaves name) operations := by
  intro operations
  have hanswer : (c.perform .cycle).answer.isExecuted = false := by
    rw [perform, hins.cycle_of_waitKey]
    rfl
  have hwaits : (c.perform .cycle).console.machine.Waits x (c.machine.pc + 2) none :=
    hins.waits c.random
  have hopen := waits_run_quiet hwaits hpolls
  obtain ⟨hnone, hleaves⟩ := quiet_cycles hwaits hpolls
  constructor
  · rw [executedCycles_cons, hanswer, executedCycles_append, hnone, press_counts hopen hkey]
    rfl
  · intro name
    have hfirst : c.machine.Leaves name := hins.leaves fun y hset => by
      cases name <;> cases hset
    have hlast : Machine.Leaves _ name := Machine.leaves_of_awaiting (hopen.press hkey).awaiting
    exact ⟨fun _ => hfirst, everyCycle_append.mpr
      ⟨hleaves name, fun hpress => (by cases hpress), fun _ => hlast, trivial⟩⟩

/-- The account of a timer over a run without a load. If no cycle sets it, it ends at what it was
less the ticks of the run, or at zero. If some cycle does, the last of these gives the value to
start from, and the ticks count from that cycle on, which is itself among them. -/
theorem timer_accounting {m : Machine} (h : m.Reachable) (random : RandomWords)
    (name : TimerName) {operations : List Operation}
    (hload : ∀ program, .load program ∉ operations) :
    let c : Console := ⟨m, random⟩
    (c.EveryCycle (·.Leaves name) operations →
        ((c.run operations).machine.timer name).toNat =
          (m.timer name).toNat - c.ticks operations) ∧
      (¬ c.EveryCycle (·.Leaves name) operations →
        ∃ before later x, operations = before ++ .cycle :: later ∧
          c.LastSet name before later x) ∧
      ∀ before later x, operations = before ++ .cycle :: later → c.LastSet name before later x →
        ((c.run operations).machine.timer name).toNat =
          ((c.run before).machine.registers.get x).toNat -
            (c.run before).ticks (.cycle :: later) := by
  intro c
  have hc : c.machine.WellFormed := h.wellFormed
  refine ⟨?_, exists_lastSet, ?_⟩
  · intro hleaves
    exact run_timer hc hload hleaves
  · rintro before later x rfl hlast
    refine hlast.run_timer hc fun program hmem => hload program ?_
    exact List.mem_append_right before (List.mem_cons_of_mem _ hmem)

/-- Sets a register to 9, both timers from it, and waits for a key. -/
def setBoth : Array UInt8 := #[0x63, 0x09, 0xF3, 0x18, 0xF3, 0x15, 0xF4, 0x0A]

/-- After two cycles the sound timer has counted once, and the other one is about to be set. -/
theorem run_setBoth {c : Console} (h : c.machine.Stands setBoth 0)
    (htimers : c.machine.ticksPerCycle = 1) :
    let after := c.run [.cycle, .cycle]
    after.machine.Stands setBoth 4 ∧ after.machine.ticksPerCycle = 1 ∧
      (after.machine.registers.get 3).toNat = 9 ∧ (after.machine.timer .sound).toNat = 8 := by
  intro after
  let d := (c.perform .cycle).console
  obtain ⟨-, hset, h202⟩ := goes_on h (by decide)
    (show Instruction.decode? _ = some (.setByte 3 9) by decide) rfl rfl rfl
  obtain ⟨hbeeps, hkept, h204⟩ := goes_on (c := d) h202 (by decide)
    (show Instruction.decode? _ = some (.setSound 3) by decide) rfl rfl rfl
  have hcounts : d.machine.ticksPerCycle = 1 := (c.perform_ticksPerCycle .cycle).trans htimers
  have hnine : d.machine.registers.get 3 = 9 := by
    rw [show d.machine.registers = c.machine.registers.set 3 9 from hset.registers]
    exact (Registers.get_set _ 3 3 9).trans (if_pos rfl)
  have hsets : d.machine.Executes (TimerName.sound.set 3) := hbeeps
  obtain ⟨-, htimer⟩ := hsets.toNat_timer_cycle h202.wellFormed d.random
  rw [hnine, hcounts] at htimer
  refine ⟨h204, (d.perform_ticksPerCycle .cycle).trans hcounts, ?_, htimer⟩
  rw [show after.machine.registers = d.machine.registers from hkept.registers, hnine]
  rfl

/-- Two ticks pass by themselves, and of four cycles the one that sets the delay timer and the one
that ends the wait count, so the timers lose four. -/
theorem timers_across_wait :
    let c := (fresh .standard fun _ => 0).run [.load setBoth, .cycle, .cycle]
    let operations : List Operation := [.cycle, .elapse 2, .cycle, .cycle, .press 5, .cycle]
    c.machine.Reachable ∧ c.LastSet .delay [] operations.tail 3 ∧
      c.EveryCycle (·.Leaves .sound) operations ∧ c.ticks operations = 4 ∧
      (c.machine.registers.get 3).toNat = 9 ∧ (c.machine.timer .sound).toNat = 8 ∧
      ((c.run operations).machine.timer .delay).toNat = 5 ∧
      ((c.run operations).machine.timer .sound).toNat = 4 := by
  obtain ⟨loaded, hrun, hreached, hstands, hloaded, -⟩ :=
    exists_loaded .standard (fun _ => 0) (show setBoth.size ≤ _ by decide)
  obtain ⟨h204, hcounts, hregister, hbeeping⟩ :=
    run_setBoth hstands (show loaded.machine.ticksPerCycle = 1 by rw [hloaded]; rfl)
  rw [hrun]
  intro c operations
  have hreach : c.machine.Reachable := hreached _
  obtain ⟨hsets, hdone, h206⟩ := goes_on (c := c) h204 (by decide)
    (show Instruction.decode? _ = some (.setDelay 3) by decide) rfl rfl rfl
  let d := ((c.perform .cycle).console.perform (.elapse 2)).console
  have hwait : d.machine.Executes (.waitKey 4) := (h206.elapse 2).executes (by decide) (by decide)
  have hquiet : ∀ operation ∈ [Operation.cycle], operation.Quiet := by simp [Operation.Quiet]
  obtain ⟨hone, hquiets⟩ := wait_cycles hwait hquiet (show (5 : UInt8).toNat < 16 by decide)
  -- The cycle that sets the delay timer, two ticks, and the wait.
  have hexecuted : c.executedCycles operations = 2 := by
    rw [executedCycles_cons, hdone.answer, executedCycles_cons]
    exact congrArg (fun count => 1 + (0 + count)) hone
  have hticks : c.ticks operations = 4 := by
    rw [ticks, hexecuted, hcounts]
    rfl
  have hleaves (name : TimerName) :
      (c.perform .cycle).console.EveryCycle (·.Leaves name) operations.tail :=
    ⟨fun helapse => (by cases helapse), hquiets name⟩
  have hlast : c.LastSet .delay [] operations.tail 3 := ⟨hsets, hleaves .delay⟩
  have hsound : c.EveryCycle (·.Leaves .sound) operations :=
    ⟨fun _ => hsets.leaves fun _ hset => (by cases hset), hleaves .sound⟩
  have hnone : ∀ program, .load program ∉ operations := by simp [operations]
  obtain ⟨-, -, hdelay⟩ := timer_accounting hreach c.random .delay hnone
  obtain ⟨hsounding, -, -⟩ := timer_accounting hreach c.random .sound hnone
  refine ⟨hreach, hlast, hsound, hticks, hregister, hbeeping, ?_, ?_⟩
  · have hend := hdelay [] operations.tail 3 rfl hlast
    rw [run_nil, hregister] at hend
    exact hend.trans (congrArg (9 - ·) hticks)
  · exact (hsounding hsound).trans (congrArg₂ (· - ·) hbeeping hticks)

end Console

end ChipEight
