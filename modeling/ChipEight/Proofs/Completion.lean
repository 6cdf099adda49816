import ChipEight.Proofs.Failure

/-!
# Cycles without fault

An instruction that raises no fault is executed in full and counted, the one that asks for
a key arms the wait instead, and an open wait is looked at again or ended. Only the first
and the last of these answer `executed`, and both leave no wait open.
-/
namespace ChipEight

namespace Machine

/-- Counting a cycle is a matter of the timers. -/
theorem countCycle_eq (m : Machine) :
    m.countCycle = { m with delay := m.countCycle.delay, sound := m.countCycle.sound } := by
  unfold countCycle
  split <;> rfl

theorem countCycle_stack (m : Machine) : m.countCycle.stack = m.stack := by
  rw [countCycle_eq]

theorem countCycle_pc (m : Machine) : m.countCycle.pc = m.pc := by
  rw [countCycle_eq]

theorem countCycle_awaiting (m : Machine) : m.countCycle.awaiting = m.awaiting := by
  rw [countCycle_eq]

/-- What commutes with the passing of time commutes with the counting of a cycle. -/
theorem countCycle_comm (f : Machine → Machine) {m : Machine} (htimers : (f m).timers = m.timers)
    (helapse : (f m).elapse 1 = f (m.elapse 1)) : (f m).countCycle = f m.countCycle := by
  unfold countCycle
  rw [htimers]
  split
  · exact helapse
  · rfl

variable {m : Machine}

/-- A wait stays open, and the machine as it is, until a press is recorded. -/
theorem cycle_of_unanswered {x : Register} (h : m.awaiting = some x)
    (hpressed : m.keypad.pressed = none) (random : RandomWords) :
    m.cycle random = ⟨m, random, .ok .suspended, []⟩ := by
  rw [cycle_of_awaiting h, pollKey, Keypad.takePress, hpressed]

/-- A recorded press ends the wait, whatever is in memory and wherever the program counter
is. -/
theorem cycle_of_answered {x : Register} (h : m.awaiting = some x) {key : UInt8}
    (hpressed : m.keypad.pressed = some key) (random : RandomWords) :
    m.cycle random =
      ⟨({ m with
          keypad := { m.keypad with waiting := false, pressed := none }
          awaiting := none }.setRegister x key).countCycle,
        random, .ok .executed, [.keyArrived key x]⟩ := by
  rw [cycle_of_awaiting h, pollKey, Keypad.takePress, hpressed]

/-- A cycle that executes nothing has no use for random words and leaves the call stack alone. -/
theorem cycle_of_no_upcoming (h : m.upcoming? = none) :
    ∃ machine result log, (∀ random, m.cycle random = ⟨machine, random, result, log⟩) ∧
      machine.stack = m.stack := by
  rcases m.cycle_cases with ⟨x, hx⟩ | ⟨hidle, hend⟩ | ⟨hidle, hend, hnone⟩ | ⟨ins, hins⟩
  · cases hpressed : m.keypad.pressed with
    | none => exact ⟨_, _, _, cycle_of_unanswered hx hpressed, rfl⟩
    | some key => exact ⟨_, _, _, cycle_of_answered hx hpressed, countCycle_stack _⟩
  · exact ⟨_, _, _, cycle_of_past_end hidle hend, rfl⟩
  · exact ⟨_, _, _, cycle_of_undecoded hidle hend hnone, rfl⟩
  · rw [upcoming?_eq_some_iff.mpr hins] at h
    cases h

/-- Asking for a key arms a new wait. -/
theorem Executes.cycle_of_waitKey {x : Register} (hins : m.Executes (.waitKey x))
    (random : RandomWords) :
    m.cycle random =
      ⟨{ m with
          pc := m.pc + 2
          keypad := { m.keypad with waiting := true, pressed := none }
          awaiting := some x },
        random, .ok .suspended,
        [.executing m.pc m.word (.waitKey x), .waitingForKey m.pc]⟩ := by
  rw [hins.cycle_eq]
  rfl

/-- Only the instruction that asks for a key opens a wait. -/
theorem awaitingAfter_of_ne (m : Machine) {ins : Instruction} (hins : ∀ x, ins ≠ .waitKey x) :
    m.awaitingAfter ins = m.awaiting := by
  cases ins with
  | waitKey x => exact absurd rfl (hins x)
  | _ => rfl

/-- An instruction that raises no fault and asks for no key is executed in full. -/
theorem Executes.cycle_of_no_fault {ins : Instruction} (hins : m.Executes ins)
    (h : m.WellFormed) (random : RandomWords) (hfault : m.faultOf m.pc ins = none)
    (hwait : ∀ x, ins ≠ .waitKey x) :
    m.cycle random =
      ⟨(m.advance.after random ins).countCycle, (m.advance.execute random m.pc ins).random,
        .ok .executed, [.executing m.pc m.word ins]⟩ := by
  obtain ⟨hadvance, -⟩ := h.advance hins.pc_le
  have hidle : (m.advance.after random ins).isWaiting = false := by
    change (m.advance.awaitingAfter ins).isSome = false
    rw [awaitingAfter_of_ne _ hwait]
    exact congrArg Option.isSome hins.idle
  rw [← faultOf_advance] at hfault
  rw [hins.cycle_eq, step_eq, execute_fault hadvance, hfault]
  dsimp only
  rw [hidle]
  rfl

/-- The cycle was executed in full: what it left is what the instruction leaves. Only the timers may
differ, as they count the cycle. -/
structure Completes (m : Machine) (random : RandomWords) (ins : Instruction) : Prop where
  result : (m.cycle random).result = .ok .executed
  memory : (m.cycle random).machine.memory = (m.advance.after random ins).memory
  registers : (m.cycle random).machine.registers = (m.advance.after random ins).registers
  pc : (m.cycle random).machine.pc = (m.advance.after random ins).pc
  index : (m.cycle random).machine.index = (m.advance.after random ins).index
  frame : (m.cycle random).machine.frame = (m.advance.after random ins).frame
  idle : (m.cycle random).machine.awaiting = none

theorem Executes.completes {ins : Instruction} (hins : m.Executes ins) (h : m.WellFormed)
    (random : RandomWords) (hfault : m.faultOf m.pc ins = none) (hwait : ∀ x, ins ≠ .waitKey x) :
    m.Completes random ins := by
  have hidle : (m.advance.after random ins).countCycle.awaiting = none := by
    rw [countCycle_awaiting]
    exact (awaitingAfter_of_ne m.advance hwait).trans hins.idle
  have hcycle := hins.cycle_of_no_fault h random hfault hwait
  rw [countCycle_eq] at hcycle hidle
  constructor <;> rw [hcycle]
  exact hidle

theorem Completes.answer {c : Console} {ins : Instruction}
    (h : c.machine.Completes c.random ins) :
    (c.perform .cycle).answer = .cycled (.ok .executed) :=
  congrArg Answer.cycled h.result

/-- A cycle that was executed leaves no wait open. -/
theorem idle_of_executed {random : RandomWords}
    (h : (m.cycle random).result = .ok .executed) : (m.cycle random).machine.awaiting = none := by
  rcases m.cycle_cases with ⟨x, hx⟩ | ⟨hidle, hpc⟩ | ⟨hidle, hpc, hword⟩ | ⟨ins, hins⟩
  · cases hpressed : m.keypad.pressed with
    | none =>
      rw [cycle_of_unanswered hx hpressed] at h
      cases h
    | some key =>
      rw [cycle_of_answered hx hpressed]
      exact countCycle_awaiting _
  · rw [cycle_of_past_end hidle hpc] at h
    cases h
  · rw [cycle_of_undecoded hidle hpc hword] at h
    cases h
  · rw [hins.cycle_eq, step_eq] at h ⊢
    split at h
    · cases h
    · split at h
      · cases h
      · rename_i hwaiting
        rw [if_neg hwaiting]
        exact (countCycle_awaiting _).trans (Option.not_isSome_iff_eq_none.mp hwaiting)

end Machine

namespace Console

theorem perform_cycle {m : Machine} {ins : Instruction} (hins : m.Executes ins)
    (random : RandomWords) :
    ((Console.mk m random).perform .cycle).console =
      ⟨(m.step random m.word ins).machine, (m.step random m.word ins).random⟩ := by
  rw [perform, hins.cycle_eq]

theorem run_wellFormed {c : Console} (hc : c.machine.WellFormed) (operations : List Operation) :
    (c.run operations).machine.WellFormed :=
  run_induction (P := fun c => c.machine.WellFormed) perform_wellFormed hc operations

end Console

end ChipEight
