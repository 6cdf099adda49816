import ChipEight.Proofs.Standing

/-!
# Waiting for a key

The wait is kept in two places, in the machine and in its keypad, and spans many
operations. What an open wait looks like is `Waits`; operations that press no key leave it
unanswered, the first press answers it, and the next cycle ends it. For whole runs, with any
number of waits, presses and ended waits are matched one to one (`Answers`, `EndsWait`).
-/
namespace ChipEight

namespace Operation

/-- Loads no program and presses none of the sixteen keys. -/
def Quiet : Operation → Prop
  | .load _ => False
  | .press key => 16 ≤ key.toNat
  | _ => True

/-- Neither loads a program nor runs a cycle: a key event, or time. -/
def External : Operation → Prop
  | .load _ | .cycle => False
  | _ => True

end Operation

namespace Keypad

/-- What is no key is not pressed. -/
theorem press_of_unknown (pad : Keypad) {key : UInt8} (h : 16 ≤ key.toNat) :
    pad.press key = pad := by
  have hkey : ¬ key.toNat < 16 := Nat.not_lt.mpr h
  have hlatch : pad.latch key true = pad := by rw [latch, dif_neg hkey]
  rw [press, hlatch]
  exact if_neg fun hopen => hkey hopen.1

/-- A press is recorded if it is of a key, for an open request that has no answer yet. -/
theorem press_pressed (pad : Keypad) (key : UInt8) :
    (pad.press key).pressed =
      if key.toNat < 16 ∧ pad.waiting ∧ pad.pressed = none then some key else pad.pressed := by
  unfold press
  simp only [latch_waiting, latch_pressed]
  split <;> simp [latch_pressed]

end Keypad

namespace Machine

/-- The machine waits for the key of a register, with the program counter at `pc`; `answer`
is the press that was recorded, if any. -/
structure Waits (m : Machine) (x : Register) (pc : UInt16) (answer : Option UInt8) : Prop where
  awaiting : m.awaiting = some x
  listening : m.keypad.waiting = true
  pressed : m.keypad.pressed = answer
  pc_eq : m.pc = pc

/-- The cycle does the same with any other memory and program counter, and leaves them
alone. -/
def FetchesNothing (m : Machine) (random : RandomWords) : Prop :=
  ∀ memory pc, { m with memory, pc }.cycle random =
    { m.cycle random with machine := { (m.cycle random).machine with memory, pc } }

variable {m : Machine} {x : Register} {pc : UInt16}

/-- Only the first press answers. -/
theorem Waits.press {answer : Option UInt8} (h : m.Waits x pc answer) {key : UInt8}
    (hkey : key.toNat < 16) : (m.press key).Waits x pc (some (answer.getD key)) where
  awaiting := h.awaiting
  listening := (m.keypad.press_waiting key).trans h.listening
  pressed := by
    change (m.keypad.press key).pressed = _
    rw [Keypad.press_pressed, h.pressed]
    cases answer with
    | none => exact if_pos ⟨hkey, h.listening, rfl⟩
    | some first => exact if_neg fun hopen => nomatch hopen.2.2
  pc_eq := h.pc_eq

theorem Waits.release {answer : Option UInt8} (h : m.Waits x pc answer) (key : UInt8) :
    (m.release key).Waits x pc answer where
  awaiting := h.awaiting
  listening := (m.keypad.latch_waiting key false).trans h.listening
  pressed := (m.keypad.latch_pressed key false).trans h.pressed
  pc_eq := h.pc_eq

theorem Waits.elapse {answer : Option UInt8} (h : m.Waits x pc answer) (ticks : UInt8) :
    (m.elapse ticks).Waits x pc answer :=
  ⟨h.awaiting, h.listening, h.pressed, h.pc_eq⟩

/-- The instruction that asks for a key opens a wait. -/
theorem Executes.waits (hins : m.Executes (.waitKey x)) (random : RandomWords) :
    (m.cycle random).machine.Waits x (m.pc + 2) none := by
  rw [hins.cycle_of_waitKey]
  exact ⟨rfl, rfl, rfl, rfl⟩

theorem Waits.cycle_unanswered (h : m.Waits x pc none) (random : RandomWords) :
    m.cycle random = ⟨m, random, .ok .suspended, []⟩ :=
  cycle_of_unanswered h.awaiting h.pressed random

theorem press_of_unknown (m : Machine) {key : UInt8} (h : 16 ≤ key.toNat) : m.press key = m := by
  rw [press, m.keypad.press_of_unknown h]

/-- Outside of a wait no press is on record. -/
theorem WellFormed.pressed_of_idle (h : m.WellFormed) (hidle : m.awaiting = none) :
    m.keypad.pressed = none := by
  cases hpressed : m.keypad.pressed with
  | none => rfl
  | some key =>
    have hwaiting := h.waiting
    rw [hidle, (h.keypad key hpressed).1] at hwaiting
    cases hwaiting

/-- A cycle takes the press that is on record, or there was none. -/
theorem WellFormed.pressed_after_cycle (h : m.WellFormed) (random : RandomWords) :
    (m.cycle random).machine.keypad.pressed = none := by
  cases hawaiting : m.awaiting with
  | some x =>
    cases hpressed : m.keypad.pressed with
    | none =>
      rw [cycle_of_unanswered hawaiting hpressed]
      exact hpressed
    | some key =>
      rw [cycle_of_answered hawaiting hpressed, countCycle_eq]
      rfl
  | none =>
    have hnone := h.pressed_of_idle hawaiting
    apply cycle_keeps (P := fun after => after.keypad.pressed = none) random hnone
    · intro x key hx _
      rw [hawaiting] at hx
      cases hx
    · intro ins _
      change (m.advance.keypadAfter ins).pressed = none
      cases ins with
      | waitKey x => rfl
      | _ => exact hnone
    · intro after hafter
      rw [countCycle_eq]
      exact hafter

/-- An answered wait ends without a look at memory. -/
theorem Waits.fetches_nothing {key : UInt8} (h : m.Waits x pc (some key))
    (random : RandomWords) : m.FetchesNothing random := by
  intro memory pc
  have hother : { m with memory, pc }.awaiting = some x := h.awaiting
  rw [cycle_of_answered h.awaiting h.pressed, cycle_of_answered hother h.pressed]
  unfold countCycle
  dsimp only [setRegister]
  cases m.timers <;> rfl

end Machine

namespace Console

variable {c : Console} {x : Register} {pc : UInt16}

/-- Without a press a wait stays as it is. -/
theorem waits_quiet (h : c.machine.Waits x pc none) {operation : Operation}
    (hquiet : operation.Quiet) : (c.perform operation).console.machine.Waits x pc none := by
  cases operation with
  | load program => exact hquiet.elim
  | cycle =>
    rw [perform, h.cycle_unanswered]
    exact h
  | press key =>
    rw [perform, c.machine.press_of_unknown hquiet]
    exact h
  | release key => exact h.release key
  | elapse ticks => exact h.elapse ticks

/-- No key event takes an answer back. -/
theorem waits_external {key : UInt8} (h : c.machine.Waits x pc (some key))
    {operation : Operation} (hexternal : operation.External) :
    (c.perform operation).console.machine.Waits x pc (some key) := by
  cases operation with
  | load program => exact hexternal.elim
  | cycle => exact hexternal.elim
  | press later =>
    rcases Nat.lt_or_ge later.toNat 16 with hkey | hunknown
    · exact h.press hkey
    · rw [perform, c.machine.press_of_unknown hunknown]
      exact h
  | release later => exact h.release later
  | elapse ticks => exact h.elapse ticks

theorem waits_run_quiet (h : c.machine.Waits x pc none) {operations : List Operation}
    (hquiet : ∀ operation ∈ operations, operation.Quiet) :
    (c.run operations).machine.Waits x pc none := by
  refine run_induction_mem (P := fun c => c.machine.Waits x pc none) ?_ h
  intro c operation hmem hwaits
  exact waits_quiet hwaits (hquiet operation hmem)

theorem waits_run_external {key : UInt8} (h : c.machine.Waits x pc (some key))
    {operations : List Operation}
    (hexternal : ∀ operation ∈ operations, operation.External) :
    (c.run operations).machine.Waits x pc (some key) := by
  refine run_induction_mem (P := fun c => c.machine.Waits x pc (some key)) ?_ h
  intro c operation hmem hwaits
  exact waits_external hwaits (hexternal operation hmem)

/-- A run that answers the wait: the first press of a key, with no cycle after it. -/
theorem waits_run_answered (h : c.machine.Waits x pc none) {polls between : List Operation}
    {key : UInt8} (hpolls : ∀ operation ∈ polls, operation.Quiet) (hkey : key.toNat < 16)
    (hbetween : ∀ operation ∈ between, operation.External) :
    (c.run (polls ++ .press key :: between)).machine.Waits x pc (some key) := by
  rw [run_append, run_cons]
  exact waits_run_external ((waits_run_quiet h hpolls).press hkey) hbetween

/-- It does not matter how often a wait without an answer is looked at. -/
theorem run_skip_polls (h : c.machine.Waits x pc none) {operations : List Operation}
    (hquiet : ∀ operation ∈ operations, operation.Quiet) :
    c.run operations = c.run (operations.filter (· ≠ .cycle)) := by
  induction operations generalizing c with
  | nil => rfl
  | cons operation rest ih =>
    have hfirst : operation.Quiet := hquiet operation List.mem_cons_self
    have hrest := ih (waits_quiet h hfirst) fun later hlater =>
      hquiet later (List.mem_cons_of_mem _ hlater)
    by_cases hcycle : operation = .cycle
    · subst hcycle
      have hsame : (c.perform .cycle).console = c := by
        rw [perform, h.cycle_unanswered]
      rw [hsame] at hrest
      rw [run_cons, hsame, hrest, List.filter_cons_of_neg (by simp)]
    · rw [List.filter_cons_of_pos (by simpa using hcycle), run_cons, run_cons]
      exact hrest

/-- What neither keys nor time can change stays the same until the wait is answered. -/
theorem run_quiet_keeps {α : Type} (part : Machine → α)
    (hkeypad : ∀ m keypad, part { m with keypad } = part m)
    (helapse : ∀ m ticks, part (m.elapse ticks) = part m) (h : c.machine.Waits x pc none)
    {operations : List Operation} (hquiet : ∀ operation ∈ operations, operation.Quiet) :
    part (c.run operations).machine = part c.machine := by
  induction operations generalizing c with
  | nil => rfl
  | cons operation rest ih =>
    obtain ⟨hfirst, hrest⟩ := List.forall_mem_cons.mp hquiet
    rw [run_cons, ih (waits_quiet h hfirst) hrest]
    cases operation with
    | load program => exact hfirst.elim
    | cycle => rw [perform, h.cycle_unanswered]
    | press key | release key => exact hkeypad c.machine _
    | elapse ticks => exact helapse c.machine ticks

/-! ## Presses and waits of a run -/

/-- The state before the operation at a position of a run. -/
def before (c : Console) (operations : List Operation) (position : Nat) : Console :=
  c.run (operations.take position)

/-- The operation at position `j` is a cycle that ends the wait of a register. -/
structure EndsWait (c : Console) (operations : List Operation) (j : Nat) (x : Register) :
    Prop where
  cycle : operations[j]? = some .cycle
  waits : (c.before operations j).machine.awaiting = some x
  executed :
    ((c.before operations j).machine.cycle (c.before operations j).random).result = .ok .executed

/-- The press at position `i` is the one that the keypad has on record at position `j`. -/
structure Answers (c : Console) (operations : List Operation) (i j : Nat) (key : UInt8) :
    Prop where
  lt : i < j
  press : operations[i]? = some (.press key)
  unrecorded : (c.before operations i).machine.keypad.pressed = none
  recorded : ∀ k, i < k → k ≤ j → (c.before operations k).machine.keypad.pressed = some key

theorem before_succ (c : Console) {operations : List Operation} {j : Nat} {operation : Operation}
    (h : operations[j]? = some operation) :
    c.before operations (j + 1) = ((c.before operations j).perform operation).console := by
  rw [before, List.take_add_one, h, run_append]
  rfl

/-- A press on record was there before, or was made just now for the wait that is open. -/
theorem perform_recorded (hc : c.machine.WellFormed) {operation : Operation} {key : UInt8}
    (h : (c.perform operation).console.machine.keypad.pressed = some key) :
    (c.perform operation).console.machine.awaiting = c.machine.awaiting ∧
      (c.machine.keypad.pressed = some key ∨
        c.machine.keypad.pressed = none ∧ operation = .press key) := by
  cases operation with
  | load program =>
    rcases c.perform_load_cases program with hsame | ⟨after, hload, hafter⟩
    · rw [hsame] at h ⊢
      exact ⟨rfl, Or.inl h⟩
    · obtain ⟨memory, -, rfl⟩ := Machine.load_ok hload
      rw [hafter] at h
      cases h
  | cycle =>
    rw [perform, hc.pressed_after_cycle] at h
    cases h
  | press later =>
    refine ⟨rfl, ?_⟩
    change (c.machine.keypad.press later).pressed = some key at h
    rw [Keypad.press_pressed] at h
    split at h
    · rename_i hopen
      obtain rfl := Option.some.inj h
      exact Or.inr ⟨hopen.2.2, rfl⟩
    · exact Or.inl h
  | release later => exact ⟨rfl, Or.inl ((c.machine.keypad.latch_pressed later false).symm.trans h)⟩
  | elapse ticks => exact ⟨rfl, Or.inl h⟩

/-- A press on record was made while the wait that is open was open already. -/
theorem exists_answers (hc : c.machine.WellFormed) (hfirst : c.machine.keypad.pressed = none)
    {operations : List Operation} {j : Nat} (hj : j ≤ operations.length) {key : UInt8}
    (hpressed : (c.before operations j).machine.keypad.pressed = some key) :
    ∃ i, c.Answers operations i j key ∧
      (c.before operations i).machine.awaiting = (c.before operations j).machine.awaiting := by
  induction j with
  | zero =>
    rw [before, List.take_zero, run_nil, hfirst] at hpressed
    cases hpressed
  | succ j ih =>
    have hop : operations[j]? = some operations[j] := List.getElem?_eq_getElem hj
    have hbefore := c.before_succ hop
    have hwell : (c.before operations j).machine.WellFormed := run_wellFormed hc _
    rw [hbefore] at hpressed ⊢
    obtain ⟨hawaiting, hold | ⟨hnone, hpress⟩⟩ := perform_recorded hwell hpressed
    · obtain ⟨i, hanswers, hsame⟩ := ih (Nat.le_of_succ_le hj) hold
      refine ⟨i, ⟨Nat.lt_succ_of_lt hanswers.lt, hanswers.press, hanswers.unrecorded, ?_⟩,
        hsame.trans hawaiting.symm⟩
      intro k hik hkj
      rcases Nat.lt_or_eq_of_le hkj with hlt | rfl
      · exact hanswers.recorded k hik (Nat.le_of_lt_succ hlt)
      · rw [hbefore]
        exact hpressed
    -- The press is the operation that was made last.
    · refine ⟨j, ⟨Nat.lt_succ_self j, hpress ▸ hop, hnone, ?_⟩, hawaiting.symm⟩
      intro k hjk hkj
      obtain rfl : k = j + 1 := by omega
      rw [hbefore]
      exact hpressed

theorem Answers.press_unique {operations : List Operation} {i i' j : Nat} {key key' : UInt8}
    (h : c.Answers operations i j key) (h' : c.Answers operations i' j key') : i' = i := by
  have hlt := h.lt
  have hlt' := h'.lt
  rcases Nat.lt_trichotomy i i' with hbefore | hsame | hafter
  · have hrecorded := h.recorded i' hbefore (Nat.le_of_lt hlt')
    rw [h'.unrecorded] at hrecorded
    cases hrecorded
  · exact hsame.symm
  · have hrecorded := h'.recorded i hafter (Nat.le_of_lt hlt)
    rw [h.unrecorded] at hrecorded
    cases hrecorded

/-- Once its wait has ended a press is no longer on record. -/
theorem Answers.le_of_endsWait (hc : c.machine.WellFormed) {operations : List Operation}
    {i j j' : Nat} {key : UInt8} (h : c.Answers operations i j key)
    (hends : c.EndsWait operations j' x) (hlt : i < j') : j ≤ j' := by
  rcases Nat.lt_or_ge j' j with hlater | hle
  · have hrecorded := h.recorded (j' + 1) (Nat.lt_succ_of_lt hlt) hlater
    have hwell : (c.before operations j').machine.WellFormed := run_wellFormed hc _
    rw [c.before_succ hends.cycle, perform, hwell.pressed_after_cycle] at hrecorded
    cases hrecorded
  · exact hle

/-- In a run that begins with no press on record, every wait that ends was answered by a press
that came while it was open, whose key is what its register gets; and presses and ended
waits belong together one to one. -/
theorem endsWait_answered (hc : c.machine.WellFormed) (hfirst : c.machine.keypad.pressed = none)
    {operations : List Operation} {j : Nat} (h : c.EndsWait operations j x) :
    ∃ i key, c.Answers operations i j key ∧
      (c.before operations i).machine.awaiting = some x ∧
      (c.before operations (j + 1)).machine.registers.get x = key ∧
      ∀ i' j' key' y, c.Answers operations i' j' key' → c.EndsWait operations j' y →
        (i' = i ↔ j' = j) := by
  have hj : j ≤ operations.length :=
    Nat.le_of_lt (List.getElem?_eq_some_iff.mp h.cycle).1
  cases hpressed : (c.before operations j).machine.keypad.pressed with
  | none =>
    have hexecuted := h.executed
    rw [Machine.cycle_of_unanswered h.waits hpressed] at hexecuted
    cases hexecuted
  | some key =>
    obtain ⟨i, hanswers, hopen⟩ := exists_answers hc hfirst hj hpressed
    refine ⟨i, key, hanswers, hopen.trans h.waits, ?_, ?_⟩
    · rw [c.before_succ h.cycle, perform, Machine.cycle_of_answered h.waits hpressed,
        Machine.countCycle_eq]
      simp [Machine.setRegister]
    · intro i' j' key' y hanswers' hends'
      constructor
      · rintro rfl
        exact Nat.le_antisymm (hanswers'.le_of_endsWait hc h hanswers.lt)
          (hanswers.le_of_endsWait hc hends' hanswers'.lt)
      · rintro rfl
        exact hanswers.press_unique hanswers'

/-- The whole protocol. The instruction suspends and changes nothing but the program counter
and the wait. Cycles before the first press of a key suspend and change nothing at all, and it
does not matter how many there are. The first cycle after that press ends the wait: it writes
the key of that press and counts, but fetches nothing. And no press ends two waits. -/
theorem wait_protocol {m : Machine} (h : m.Reachable) (hins : m.Executes (.waitKey x))
    (random : RandomWords) :
    let armed : Console :=
      ⟨{ m with
          pc := m.pc + 2
          keypad := { m.keypad with waiting := true, pressed := none }
          awaiting := some x }, random⟩
    ((m.cycle random).result = .ok .suspended ∧ (m.cycle random).machine = armed.machine ∧
        (m.cycle random).random = random ∧ armed.machine.pc.toNat = m.pc.toNat + 2) ∧
      (∀ polls, (∀ operation ∈ polls, operation.Quiet) →
        let c := armed.run polls
        c.machine.cycle c.random = ⟨c.machine, c.random, .ok .suspended, []⟩ ∧
          c = armed.run (polls.filter (· ≠ .cycle))) ∧
      (∀ polls key between, (∀ operation ∈ polls, operation.Quiet) → key.toNat < 16 →
        (∀ operation ∈ between, operation.External) →
        let c := armed.run (polls ++ .press key :: between)
        c.machine.cycle c.random =
            ⟨({ c.machine with
                keypad := { c.machine.keypad with waiting := false, pressed := none }
                awaiting := none }.setRegister x key).countCycle,
              c.random, .ok .executed, [.keyArrived key x]⟩ ∧
          (c.machine.cycle c.random).machine.pc = m.pc + 2 ∧
          c.machine.FetchesNothing c.random) ∧
      ∀ operations j y, armed.EndsWait operations j y →
        ∃ i key, armed.Answers operations i j key ∧
          (armed.before operations i).machine.awaiting = some y ∧
          (armed.before operations (j + 1)).machine.registers.get y = key ∧
          ∀ i' j' key' z, armed.Answers operations i' j' key' →
            armed.EndsWait operations j' z → (i' = i ↔ j' = j) := by
  intro armed
  have hcycle := hins.cycle_of_waitKey random
  have harmed : armed.machine.Waits x (m.pc + 2) none := ⟨rfl, rfl, rfl, rfl⟩
  have hwell : armed.machine.WellFormed := by
    have hafter := h.wellFormed.cycle random
    rw [hcycle] at hafter
    exact hafter
  have hpc := Machine.toNat_pc_add_two (Nat.le_trans hins.pc_le (by decide))
  refine ⟨⟨?_, ?_, ?_, hpc⟩, ?_, ?_, ?_⟩
  · rw [hcycle]
  · rw [hcycle]
  · rw [hcycle]
  · intro polls hpolls c
    exact ⟨(waits_run_quiet harmed hpolls).cycle_unanswered c.random,
      run_skip_polls harmed hpolls⟩
  · intro polls key between hpolls hkey hbetween c
    have hwaits := waits_run_answered harmed hpolls hkey hbetween
    refine ⟨Machine.cycle_of_answered hwaits.awaiting hwaits.pressed c.random, ?_,
      hwaits.fetches_nothing c.random⟩
    rw [Machine.cycle_of_answered hwaits.awaiting hwaits.pressed, Machine.countCycle_pc]
    exact hwaits.pc_eq
  · intro operations j y hends
    exact endsWait_answered hwell rfl hends

/-- The first cycle after the first press of a key ends the wait. -/
theorem endsWait_of_first_press (h : c.machine.Waits x pc none) {polls between : List Operation}
    {key : UInt8} (hpolls : ∀ operation ∈ polls, operation.Quiet) (hkey : key.toNat < 16)
    (hbetween : ∀ operation ∈ between, operation.External) (later : List Operation) :
    let answered := polls ++ .press key :: between
    c.EndsWait (answered ++ .cycle :: later) answered.length x ∧
      (c.before (answered ++ .cycle :: later) answered.length).machine.Waits x pc (some key) := by
  intro answered
  have hbefore : c.before (answered ++ .cycle :: later) answered.length = c.run answered := by
    rw [before, List.take_left]
  have hwaits := waits_run_answered h hpolls hkey hbetween
  rw [← hbefore] at hwaits
  refine ⟨⟨?_, hwaits.awaiting, ?_⟩, hwaits⟩
  · rw [List.getElem?_append_right (Nat.le_refl _), Nat.sub_self]
    rfl
  · rw [Machine.cycle_of_answered hwaits.awaiting hwaits.pressed]

/-- A program goes on behind its wait, with memory and call stack as they were. -/
theorem stands_after_wait {program : Array UInt8} {k : Nat} (h : c.machine.Stands program k)
    (hins : c.machine.Executes (.waitKey x)) {polls : List Operation} {key : UInt8}
    (hpolls : ∀ operation ∈ polls, operation.Quiet) (hkey : key.toNat < 16) :
    let after := c.run (.cycle :: (polls ++ [.press key, .cycle]))
    after.machine.Stands program (k + 2) ∧ after.machine.stack = c.machine.stack := by
  intro after
  let polled := (c.perform .cycle).console.run polls
  let answered := (polled.perform (.press key)).console
  have hlast : after.machine = (answered.machine.cycle answered.random).machine := by
    change Console.machine (Console.run _ (polls ++ [.press key, .cycle])) = _
    rw [run_append]
    rfl
  have hwaits : (c.perform .cycle).console.machine.Waits x (c.machine.pc + 2) none :=
    hins.waits c.random
  have hkept : (polled.machine.memory, polled.machine.stack) =
      (c.machine.memory, c.machine.stack) := by
    refine (run_quiet_keeps (fun m => (m.memory, m.stack)) (fun _ _ => rfl) (fun _ _ => rfl) hwaits
      hpolls).trans ?_
    rw [perform, hins.cycle_of_waitKey]
  have hanswered : answered.machine.Waits x (c.machine.pc + 2) (some key) :=
    (waits_run_quiet hwaits hpolls).press hkey
  have hwell : after.machine.WellFormed := run_wellFormed h.wellFormed _
  have hpc := Machine.toNat_pc_add_two (Nat.le_trans hins.pc_le (by decide))
  rw [h.pc, Nat.add_assoc, ← hanswered.pc_eq] at hpc
  obtain ⟨hmemory, hstack⟩ := Prod.mk.inj hkept
  rw [hlast, Machine.cycle_of_answered hanswered.awaiting hanswered.pressed,
    Machine.countCycle_eq] at hwell ⊢
  exact ⟨⟨hwell, rfl, hpc, hmemory ▸ h.loaded⟩, hstack⟩

/-- Key 7 is down before the wait, and keys 5 and 9 go down during it. -/
theorem first_press_answers :
    let held := (fresh .standard fun _ => 0).run [.load #[0xF3, 0x0A], .press 7]
    let polls : List Operation := [.cycle, .release 7, .elapse 3, .press 0x20, .cycle]
    let operations := polls ++ [.press 5, .release 5, .press 9, .cycle]
    let armed := (held.perform .cycle).console
    held.machine.Reachable ∧ held.machine.Executes (.waitKey 3) ∧
      (held.machine.cycle held.random).result = .ok .suspended ∧
      armed.run polls = armed.run [.release 7, .elapse 3, .press 0x20] ∧
      armed.EndsWait operations 8 3 ∧
      (armed.run operations).machine.registers.get 3 = 5 ∧
      (armed.run operations).machine.pc.toNat = 0x202 ∧
      ∃ i, armed.Answers operations i 8 5 := by
  obtain ⟨c, hrun, hreached, hloaded, -⟩ :=
    exists_loaded .standard (fun _ => 0) (show #[0xF3, 0x0A].size ≤ _ by decide)
  rw [hrun]
  intro held polls operations armed
  have hreach : held.machine.Reachable := hreached _
  have hstands : held.machine.Stands #[0xF3, 0x0A] 0 := hloaded.press 7
  have hins : held.machine.Executes (.waitKey 3) := hstands.executes (by decide) (by decide)
  have hquiet : ∀ operation ∈ polls, operation.Quiet := by
    simp [polls, Operation.Quiet]
  have hexternal : ∀ operation ∈ [Operation.release 5, .press 9], operation.External := by
    simp [Operation.External]
  have hwaits : armed.machine.Waits 3 (held.machine.pc + 2) none := hins.waits held.random
  have hprotocol := wait_protocol hreach hins held.random
  extract_lets _ waiting at hprotocol
  obtain ⟨⟨hresult, hmachine, hrandom, -⟩, hpolled, hanswered, hended⟩ := hprotocol
  have harmed : armed = waiting := by
    change Console.mk _ _ = _
    rw [hmachine, hrandom]
  clear_value armed waiting
  subst harmed
  obtain ⟨hends, hready⟩ :=
    endsWait_of_first_press hwaits hquiet (show (5 : UInt8).toNat < 16 by decide) hexternal []
  obtain ⟨-, hend, -⟩ := hanswered polls 5 [.release 5, .press 9] hquiet (by decide) hexternal
  obtain ⟨-, hpoll⟩ := hpolled polls hquiet
  obtain ⟨i, key, hanswers, -, hget, -⟩ := hended operations 8 3 hends
  obtain rfl : key = 5 :=
    Option.some.inj ((hanswers.recorded 8 hanswers.lt (Nat.le_refl 8)).symm.trans hready.pressed)
  have hskip : polls.filter (· ≠ .cycle) = [.release 7, .elapse 3, .press 0x20] := by decide
  have hpc : (armed.run operations).machine.pc.toNat = 0x202 := by
    have hcalled := Machine.toNat_pc_add_two (Nat.le_trans hins.pc_le (by decide))
    rw [hstands.pc, ← hend] at hcalled
    exact hcalled
  exact ⟨hreach, hins, hresult, hskip ▸ hpoll, hends, hget, hpc, i, hanswers⟩

end Console

end ChipEight
