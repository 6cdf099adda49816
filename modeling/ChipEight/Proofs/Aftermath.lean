import ChipEight.Proofs.Failure

/-!
# After a failing cycle

An instruction that fails has moved the program counter and keeps what it drew or stored
before the first byte that was not there (`partialEffect`). A cycle that fails earlier
changes nothing, so it fails again until a program is loaded.
-/
namespace ChipEight

namespace Machine

open Memory

/-- What an instruction that fails has done by then. -/
def partialEffect (m : Machine) (ins : Instruction) : Machine :=
  match ins with
  | .draw x y _ =>
      { m with
        frame := (m.frame.draw (m.registers.get x).toNat (m.registers.get y).toNat
          ((List.range' m.index.toNat (size - m.index.toNat)).map m.memory.byte)).1 }
  | .storeDecimal _ | .storeRegisters _ =>
      if m.index.toNat < programStart then m
      else { m with memory := m.memory.patch m.index.toNat (m.storedBytes ins) }
  | _ => m

/-- A partial effect is one on the frame or on memory. -/
theorem partialEffect_eq (m : Machine) (ins : Instruction) :
    m.partialEffect ins =
      { m with
        memory := (m.partialEffect ins).memory
        frame := (m.partialEffect ins).frame } := by
  unfold partialEffect
  split
  · rfl
  · split <;> rfl
  · split <;> rfl
  · rfl

theorem storeAtIndex_machine {m : Machine} (hindex : m.index.toNat < size)
    {values : List UInt8} (hne : values ≠ []) :
    (m.storeAtIndex values).1 =
      if m.index.toNat < programStart then m
      else { m with memory := m.memory.patch m.index.toNat values } := by
  by_cases h : m.index.toNat < programStart
  · rw [storeAtIndex_protected h hne, if_pos h]
  · rw [storeAtIndex_eq hindex h, if_neg h]

/-- An instruction that fails stops where its first check failed. -/
theorem after_of_fault {m : Machine} (h : m.WellFormed) (random : RandomWords)
    {origin : UInt16} {ins : Instruction} {fault : Fault}
    (hfault : m.faultOf origin ins = some fault) : m.after random ins = m.partialEffect ins := by
  have hindex : m.index.toNat < size := Nat.lt_succ_of_le h.index_le
  rw [← execute_machine m random origin ins]
  cases ins with
  | ret =>
    obtain ⟨hdepth, -⟩ := Option.ite_none_right_eq_some.mp hfault
    exact congrArg Prod.fst (returnFrom_of_empty hdepth origin)
  | call target =>
    obtain ⟨hdepth, -⟩ := Option.ite_none_right_eq_some.mp hfault
    exact congrArg Prod.fst (callTo_of_full hdepth origin target)
  | callIndexed target =>
    obtain ⟨hdepth, -⟩ := Option.ite_none_right_eq_some.mp hfault
    exact congrArg Prod.fst (callTo_of_full hdepth origin (m.indexedTarget target))
  | draw x y height =>
    obtain ⟨hend, -⟩ := Option.ite_none_right_eq_some.mp hfault
    exact congrArg Prod.fst (drawSprite_past_end hindex x y hend)
  | storeDecimal x => exact storeAtIndex_machine hindex (List.cons_ne_nil _ _)
  | storeRegisters last => exact storeAtIndex_machine hindex (upTo_ne_nil m.registers last)
  | loadRegisters last =>
    obtain ⟨hend, -⟩ := Option.ite_none_right_eq_some.mp hfault
    exact congrArg Prod.fst (loadRegisters_past_end hend)
  | _ => cases hfault

/-- A cycle whose instruction fails draws no random word and leaves what the instruction did. -/
theorem Executes.cycle_of_fault {m : Machine} {ins : Instruction} (hins : m.Executes ins)
    (h : m.WellFormed) (random : RandomWords) {fault : Fault}
    (hfault : m.faultOf m.pc ins = some fault) :
    m.cycle random =
      ⟨m.advance.partialEffect ins, random, .error fault,
        [.executing m.pc m.word ins]⟩ := by
  obtain ⟨hadvance, -⟩ := h.advance hins.pc_le
  rw [← faultOf_advance] at hfault
  have hrandom : (m.advance.execute random m.pc ins).random = random := by
    rw [execute_random]
    cases ins with
    | random x mask => cases hfault
    | _ => rfl
  rw [hins.cycle_eq, step_eq, execute_fault hadvance, hfault, hrandom,
    after_of_fault hadvance random hfault]

/-- The machine is idle and there is nothing to execute at its program counter. -/
structure Stuck (m : Machine) (fault : Fault) : Prop where
  idle : m.awaiting = none
  fetch_eq : m.fetch = .error fault

theorem Stuck.cycle_eq {m : Machine} {fault : Fault} (h : m.Stuck fault) (random : RandomWords) :
    m.cycle random = ⟨m, random, .error fault, []⟩ :=
  cycle_of_fetch_error h.idle h.fetch_eq random

/-- Keys and time change neither memory nor the program counter. -/
theorem Stuck.perform {c : Console} {fault : Fault} (h : c.machine.Stuck fault)
    {operation : Operation} (hload : ∀ program, operation ≠ .load program) :
    (c.perform operation).console.machine.Stuck fault := by
  cases operation with
  | load program => exact absurd rfl (hload program)
  | cycle =>
    simp only [Console.perform, h.cycle_eq]
    exact h
  | press key | release key | elapse ticks => exact ⟨h.idle, h.fetch_eq⟩

theorem Stuck.run {c : Console} {fault : Fault} (h : c.machine.Stuck fault)
    {operations : List Operation} (hload : ∀ program, .load program ∉ operations) :
    (c.run operations).machine.Stuck fault := by
  refine Console.run_induction_mem (P := fun c => c.machine.Stuck fault) ?_ h
  intro c operation hmem hstuck
  have hkind : ∀ program, operation ≠ .load program := by
    rintro program rfl
    exact hload program hmem
  exact hstuck.perform hkind

/-- What a cycle that failed leaves. If nothing was fetched it is the machine as it was, which
goes on failing in the same way whatever happens except for a load. If an instruction
failed, the program counter is behind it and its partial effect is there. Nothing else
changes, and no random word is drawn. -/
theorem cycle_failed {m : Machine} (h : m.Reachable) {random : RandomWords} {fault : Fault}
    (hfailed : (m.cycle random).result = .error fault) :
    ((m.fetch = .error fault ∧ (m.cycle random).machine = m ∧
        ∀ operations, (∀ program, .load program ∉ operations) →
          let c := Console.run ⟨m, random⟩ operations
          c.machine.cycle c.random = ⟨c.machine, c.random, .error fault, []⟩) ∨
      ∃ word ins, m.fetch = .ok (word, ins) ∧
        (m.cycle random).machine = { m with pc := m.pc + 2 }.partialEffect ins) ∧
      (m.cycle random).machine =
        { m with
          pc := (m.cycle random).machine.pc
          memory := (m.cycle random).machine.memory
          frame := (m.cycle random).machine.frame } ∧
      (m.cycle random).random = random := by
  obtain ⟨hidle, cause, hraises⟩ := (cycle_error_iff h.wellFormed random fault).mp hfailed
  cases hfetch : m.fetch with
  | error other =>
    have hcycle := cycle_of_fetch_error hidle hfetch random
    obtain rfl : other = fault := by
      rw [hcycle] at hfailed
      exact Except.error.inj hfailed
    have hstuck : (Console.mk m random).machine.Stuck other := ⟨hidle, hfetch⟩
    rw [hcycle]
    refine ⟨Or.inl ⟨rfl, rfl, ?_⟩, rfl, rfl⟩
    intro operations hload c
    exact (hstuck.run hload).cycle_eq c.random
  | ok fetched =>
    obtain ⟨word, ins⟩ := fetched
    have hins := executes_of_fetch hidle hfetch
    obtain ⟨hfault, -⟩ := hins.raises_iff.mp hraises
    rw [hins.cycle_of_fault h.wellFormed random hfault]
    have hpc : (m.advance.partialEffect ins).pc = m.advance.pc := by rw [partialEffect_eq]
    refine ⟨Or.inr ⟨word, ins, rfl, rfl⟩, ?_, rfl⟩
    dsimp only
    rw [hpc]
    exact m.advance.partialEffect_eq ins

/-- Keys, time and further cycles do not get a machine past a word that is no instruction. -/
theorem unknown_word_stays :
    let m := ((Console.fresh .standard fun _ => 0).run [.load #[0xFF, 0xFF]]).machine
    let random := RandomWords.ofSequence fun _ => 0
    m.Reachable ∧
      (m.cycle random).result = .error (.unknownInstruction 0xFFFF 0x200) ∧
      ∀ operations, (∀ program, .load program ∉ operations) →
        let c := Console.run ⟨m, random⟩ operations
        c.machine.cycle c.random =
          ⟨c.machine, c.random, .error (.unknownInstruction 0xFFFF 0x200), []⟩ := by
  intro m random
  have hreach : m.Reachable := ⟨_, _, _, rfl⟩
  have hload : Memory.fresh.load #[0xFF, 0xFF] = .ok m.memory := rfl
  have hword : m.word = 0xFFFF := wordAt_load hload
  have hfetch : m.fetch = .error (.unknownInstruction 0xFFFF 0x200) := by
    rw [fetch_of_undecoded (by decide) (by rw [hword]; decide), hword]
    rfl
  have hfailed : (m.cycle random).result = .error (.unknownInstruction 0xFFFF 0x200) := by
    rw [cycle_of_fetch_error rfl hfetch]
  refine ⟨hreach, hfailed, ?_⟩
  rcases (cycle_failed hreach hfailed).1 with ⟨-, -, hlater⟩ | ⟨word, ins, hok, -⟩
  · exact hlater
  · rw [hfetch] at hok
    cases hok

end Machine

end ChipEight
