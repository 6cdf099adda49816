import ChipEight.Proofs.Coupling
import ChipEight.Proofs.Standing

/-!
# Where the shift rule shows

The rule says which of its two registers a shift takes its operand from, and nothing else asks for
it. So two machines that follow different rules run alike as long as every shift finds the same
value in both registers. The first shift that does not may leave them with different results and
flags, but with no other difference.
-/
namespace ChipEight

/-- The operation takes its operand from the register that the shift rule names. -/
def Alu.isShift : Alu → Bool
  | .shiftRight | .shiftLeft => true
  | _ => false

namespace Machine

/-- The machine with a shift rule of its own. -/
def withShift (m : Machine) (rule : ShiftRule) : Machine := { m with shift := rule }

/-- If the next cycle executes a shift, its two registers hold the same value. -/
def ShiftsEqual (m : Machine) : Prop :=
  ∀ x y op, m.Executes (.combine x y op) → op.isShift = true →
    m.registers.get x = m.registers.get y

variable {m : Machine} {rule : ShiftRule}

/-! ## One instruction -/

theorem combine_withShift {x y : Register} {op : Alu}
    (h : op.isShift = true → m.registers.get x = m.registers.get y) :
    ((m.withShift rule).combine x y op).registers = (m.combine x y op).registers := by
  cases op with
  | shiftRight | shiftLeft =>
    have hsame := h rfl
    cases rule <;> cases hrule : m.shift <;>
      simp [combine, withShift, setRegister, setFlag, hrule, hsame]
  | _ => rfl

/-- Whatever the rule, the first register and the flag are the only ones that are written. -/
theorem combine_get_of_ne (m : Machine) {x y r : Register} (op : Alu) (hx : r ≠ x)
    (hflag : r ≠ .flag) : (m.combine x y op).registers.get r = m.registers.get r := by
  cases op <;>
    simp [combine, setRegister, setFlag, Registers.setFlag, Ne.symm hx, Ne.symm hflag]

/-- The register that a shift takes its operand from. -/
def shiftSource (m : Machine) (x y : Register) : Register :=
  match m.shift with
  | .inPlace => x
  | .vip => y

/-- A shift to the right writes its result last, so that it is there in the flag register too. -/
theorem Executes.shiftRight_get {x y : Register} (hins : m.Executes (.combine x y .shiftRight))
    (h : m.WellFormed) (random : RandomWords) :
    (m.cycle random).machine.registers.get x = m.registers.get (m.shiftSource x y) >>> 1 := by
  have hresult : (m.advance.combine x y .shiftRight).registers.get x =
      m.registers.get (m.shiftSource x y) >>> 1 := by
    unfold shiftSource
    cases hrule : m.shift <;> simp [combine, advance, setRegister, hrule]
  have hcompletes := hins.completes h random rfl (Instruction.ne_waitKey_of_goesOn rfl)
  rw [hcompletes.registers]
  exact hresult

/-- An instruction does the same under both rules, except for the registers. -/
theorem after_withShift_eq (m : Machine) (rule : ShiftRule) (random : RandomWords)
    (ins : Instruction) :
    (m.withShift rule).after random ins =
      { (m.after random ins).withShift rule with
        registers := (m.withShift rule).registersAfter random ins } := by
  cases ins <;> rfl

theorem after_withShift (random : RandomWords) {ins : Instruction}
    (h : ∀ x y op, ins = .combine x y op → op.isShift = true →
      m.registers.get x = m.registers.get y) :
    (m.withShift rule).after random ins = (m.after random ins).withShift rule := by
  have hregisters :
      (m.withShift rule).registersAfter random ins = m.registersAfter random ins := by
    cases ins with
    | combine x y op => exact combine_withShift (h x y op rfl)
    | draw x y height =>
      simp only [registersAfter, drawSprite_registers]
      rfl
    | loadRegisters last =>
      simp only [registersAfter, loadRegisters_registers]
      rfl
    | _ => rfl
  rw [after_withShift_eq, hregisters]
  rfl

/-! ## One cycle -/

theorem alike_withShift (m : Machine) (rule : ShiftRule) : m.Alike (m.withShift rule) where
  awaiting := rfl
  pressed := fun _ _ => rfl
  pc := rfl
  word := fun _ _ => rfl
  depth := rfl
  index := rfl

theorem cycle_withShift (hm : m.WellFormed) (h : m.ShiftsEqual) (random : RandomWords) :
    (m.cycle random).Agrees (fun a b => b = a.withShift rule)
      ((m.withShift rule).cycle random) := by
  apply (m.alike_withShift rule).cycle_coupled random hm rfl
  · rintro a _ rfl
    rfl
  · intro x key _ _
    rfl
  · intro ins hins
    apply m.advance.after_withShift random
    rintro x y op rfl hshift
    exact h x y op hins hshift
  · rintro a _ rfl
    exact countCycle_comm (·.withShift rule) rfl rfl

/-- Where two registers are combined the rule may show, but in the first of them and the flag
alone. -/
theorem Executes.cycle_combine_withShift {x y : Register} {op : Alu}
    (hins : m.Executes (.combine x y op)) (hm : m.WellFormed) (rule : ShiftRule)
    (random : RandomWords) :
    ∃ registers,
      (m.withShift rule).cycle random =
        { m.cycle random with
          machine := { (m.cycle random).machine.withShift rule with registers } } ∧
      ∀ r, r ≠ x → r ≠ .flag → registers.get r = (m.cycle random).machine.registers.get r := by
  have hins' := (m.alike_withShift rule).executes hins
  have hm' : (m.withShift rule).WellFormed := { hm with }
  rw [hins'.cycle_of_no_fault hm' random rfl (fun _ => nofun),
    hins.cycle_of_no_fault hm random rfl (fun _ => nofun)]
  let registers := ((m.withShift rule).advance.combine x y op).registers
  refine ⟨registers, ?_, ?_⟩
  · have hafter := m.advance.after_withShift_eq rule random (.combine x y op)
    change CycleReport.mk ((m.advance.withShift rule).after random _).countCycle _ _ _ = _
    rw [hafter]
    exact congrArg (CycleReport.mk · _ _ _)
      (countCycle_comm ({ ·.withShift rule with registers }) rfl rfl)
  · intro r hx hflag
    rw [combine_get_of_ne _ op hx hflag, countCycle_eq]
    exact (combine_get_of_ne m.advance op hx hflag).symm

end Machine

namespace Console

variable {c d : Console} {rule : ShiftRule}

theorem perform_withShift (operation : Operation) (hc : c.machine.WellFormed)
    (h : d.machine = c.machine.withShift rule) (hrandom : d.random = c.random)
    (hequal : operation = .cycle → c.machine.ShiftsEqual) :
    (c.perform operation).Matches (fun a b => b = a.withShift rule) (d.perform operation) := by
  apply perform_coupled operation h hrandom
  · intro program a b ha hb
    obtain ⟨memory, hmemory, rfl⟩ := Machine.load_ok ha
    obtain ⟨memory', hmemory', rfl⟩ := Machine.load_ok hb
    rw [h, Machine.withShift, hmemory] at hmemory'
    cases hmemory'
    rw [h]
    rfl
  · intro hcycle
    rw [h]
    exact Machine.cycle_withShift hc (hequal hcycle) c.random
  · intro key
    rw [h]
    rfl
  · intro key
    rw [h]
    rfl
  · intro ticks
    rw [h]
    rfl

/-- Two machines that differ in the shift rule give the same answers and go on differing in the
rule alone, as long as every shift finds the same value in its two registers. A shift that finds
two values gives the same answer too, and leaves a difference in the register of the result and
the flag at most. -/
theorem shift_rules_agree {m : Machine} (h : m.Reachable) (rule : ShiftRule)
    (random : RandomWords) :
    (∀ operations, EveryCycle ⟨m, random⟩ Machine.ShiftsEqual operations →
      RunsAlike (fun a b => b = a.withShift rule) ⟨m, random⟩ ⟨m.withShift rule, random⟩
        operations) ∧
    ∀ x y op, m.Executes (.combine x y op) →
      ∃ registers,
        (m.withShift rule).cycle random =
          { m.cycle random with
            machine := { (m.cycle random).machine.withShift rule with registers } } ∧
        ∀ r, r ≠ x → r ≠ .flag →
          registers.get r = (m.cycle random).machine.registers.get r := by
  constructor
  · intro operations hequal
    apply run_coupled (c := ⟨m, random⟩) (d := ⟨m.withShift rule, random⟩) _ h.wellFormed rfl rfl
      hequal
    intro c d operation hc hsame hrandom hcycle
    exact perform_withShift operation hc hsame hrandom hcycle
  · intro x y op hins
    exact hins.cycle_combine_withShift h.wellFormed rule random

/-- Shifts the first register by the second, sets the first to three, and shifts again. -/
def shiftSetShift : Array UInt8 := #[0x81, 0x26, 0x61, 0x03, 0x81, 0x26]

theorem run_shiftSetShift {c : Console} (h : c.machine.Stands shiftSetShift 0)
    (hzero : ∀ r, c.machine.registers.get r = 0) :
    let later := c.run [.cycle, .cycle]
    c.EveryCycle Machine.ShiftsEqual [.cycle, .cycle] ∧ later.machine.Stands shiftSetShift 4 ∧
      later.machine.registers.get 1 = 3 ∧ later.machine.registers.get 2 = 0 := by
  intro later
  let d := (c.perform .cycle).console
  obtain ⟨hfirst, hshifted, h202⟩ := goes_on h (by decide)
    (show Instruction.decode? _ = some (.combine 1 2 .shiftRight) by decide) rfl rfl rfl
  obtain ⟨hsecond, hset, h204⟩ := goes_on (c := d) h202 (by decide)
    (show Instruction.decode? _ = some (.setByte 1 3) by decide) rfl rfl rfl
  have hregisters : later.machine.registers = d.machine.registers.set 1 3 := hset.registers
  have htwo : d.machine.registers.get 2 = 0 := by
    rw [show d.machine.registers = _ from hshifted.registers]
    exact (c.machine.advance.combine_get_of_ne _ (by decide) (by decide)).trans (hzero 2)
  refine ⟨⟨?_, ?_, trivial⟩, h204, ?_, ?_⟩
  · intro _ x y op _ _
    rw [hzero, hzero]
  · intro _ x y op hins _
    cases hsecond.unique hins
  · rw [hregisters, Registers.get_set, if_pos rfl]
  · rw [hregisters, Registers.get_set, if_neg (by decide), htwo]

/-- The first shift finds zero twice and the second finds three and zero, so it is the second that
gives one by the one rule and zero by the other. -/
theorem second_shift_differs :
    let m := ((fresh .standard fun _ => 0).run [.load shiftSetShift]).machine
    let random := RandomWords.ofSequence fun _ => 0
    let later := (run ⟨m, random⟩ [.cycle, .cycle]).machine
    m.Reachable ∧ later.Reachable ∧ later.Executes (.combine 1 2 .shiftRight) ∧
      RunsAlike (fun a b => b = a.withShift .vip) ⟨m, random⟩ ⟨m.withShift .vip, random⟩
        [.cycle, .cycle] ∧
      (later.cycle random).machine.registers.get 1 = 1 ∧
      ((later.withShift .vip).cycle random).machine.registers.get 1 = 0 ∧
      ∀ r, r ≠ 1 → r ≠ .flag →
        ((later.withShift .vip).cycle random).machine.registers.get r =
          (later.cycle random).machine.registers.get r := by
  obtain ⟨c, hrun, hreached, hstands, hloaded, hrandom⟩ :=
    exists_loaded .standard (fun _ => 0) (show shiftSetShift.size ≤ _ by decide)
  obtain ⟨hequal, h204, hthree, hzero⟩ :=
    run_shiftSetShift hstands (fun r => by rw [hloaded, Machine.registers_loaded])
  have hfollows := run_follows .standard (fun _ => 0) [.load shiftSetShift, .cycle, .cycle]
  rw [hrun] at hfollows
  rw [hrun, ← hrandom]
  intro m random later
  have hreach : m.Reachable := hreached []
  have hlater : later.Reachable := hreached [.cycle, .cycle]
  have hthird : later.Executes (.combine 1 2 .shiftRight) := h204.executes (by decide) (by decide)
  have hvip : (later.withShift .vip).Executes (.combine 1 2 .shiftRight) :=
    (later.alike_withShift .vip).executes hthird
  have hvipWell : (later.withShift .vip).WellFormed := { h204.wellFormed with }
  have hsource : later.shiftSource 1 2 = 1 := by
    rw [Machine.shiftSource, show later.shift = .inPlace from hfollows.shift]
  have hone : (later.cycle random).machine.registers.get 1 = 1 := by
    rw [hthird.shiftRight_get h204.wellFormed, hsource, show later.registers.get 1 = 3 from hthree]
    rfl
  have hnone : ((later.withShift .vip).cycle random).machine.registers.get 1 = 0 := by
    have hregister : (later.withShift .vip).registers.get 2 = 0 := hzero
    rw [hvip.shiftRight_get hvipWell, show (later.withShift .vip).shiftSource 1 2 = 2 from rfl,
      hregister]
    rfl
  obtain ⟨hagree, -⟩ := shift_rules_agree hreach .vip random
  obtain ⟨registers, hcycle, hrest⟩ := (shift_rules_agree hlater .vip random).2 1 2 _ hthird
  refine ⟨hreach, hlater, hthird, hagree _ hequal, hone, hnone, fun r hx hflag => ?_⟩
  rw [hcycle]
  exact hrest r hx hflag

end Console

end ChipEight
