import ChipEight.Proofs.Code

/-!
# Carries of the index

The index keeps the low twelve bits of a sum, and the flag its carry, so the two together lose
nothing of it (`IndexAddition.Exact`). Over a run in which the index changes only by additions this
makes a sum of its own: 4096 times the carries and the last index are the first index and all
addends (`Console.run_additions`).
-/
namespace ChipEight

/-- What a cycle that adds to the index finds, and the flag that it leaves. -/
structure IndexAddition where
  index : UInt16
  addend : UInt8
  flag : UInt8
  deriving DecidableEq, Repr

/-- Twelve bits and a byte leave room in a word for their sum. -/
theorem toNat_add_byte {index : UInt16} (h : index.toNat ≤ 0xFFF) (value : UInt8) :
    (index + value.toUInt16).toNat = index.toNat + value.toNat := by
  have hvalue := value.toNat_lt
  rw [UInt16.toNat_add, UInt8.toNat_toUInt16]
  exact Nat.mod_eq_of_lt (by omega)

namespace IndexAddition

/-- The sum as a number, which may have thirteen bits. -/
def sum (a : IndexAddition) : Nat := a.index.toNat + a.addend.toNat

/-- The flag is the thirteenth bit of the sum, and no bit is lost before it is written. -/
structure Exact (a : IndexAddition) : Prop where
  sum_le : a.sum ≤ 0x10FE
  not_wrapped : (a.index + a.addend.toUInt16).toNat = a.sum
  flag_eq : a.flag = if a.sum < 4096 then 0 else 1

theorem Exact.of_index_le {a : IndexAddition} (hindex : a.index.toNat ≤ 0xFFF)
    (hflag : a.flag = if a.sum < 4096 then 0 else 1) : a.Exact where
  sum_le := by
    have haddend := a.addend.toNat_lt
    rw [sum]
    omega
  not_wrapped := toNat_add_byte hindex a.addend
  flag_eq := hflag

/-- Carry and low bits are all of the sum. -/
theorem Exact.carry_add_mod {a : IndexAddition} (h : a.Exact) :
    4096 * (if a.flag = 1 then 1 else 0) + a.sum % 4096 = a.sum := by
  have hle := h.sum_le
  rw [h.flag_eq]
  split <;> simp <;> omega

end IndexAddition

namespace Machine

variable {m : Machine} {x : Register}

/-- What the next cycle adds to the index, if it does. -/
def addition? (m : Machine) (random : RandomWords) : Option IndexAddition :=
  match m.upcoming? with
  | some (.addIndex x) =>
      some ⟨m.index, m.registers.get x, (m.cycle random).machine.registers.get .flag⟩
  | _ => none

theorem addition?_eq_some_iff {random : RandomWords} {a : IndexAddition} :
    m.addition? random = some a ↔
      ∃ x, m.Executes (.addIndex x) ∧
        a = ⟨m.index, m.registers.get x, (m.cycle random).machine.registers.get .flag⟩ := by
  unfold addition?
  constructor
  · intro h
    split at h
    · rename_i x hnext
      exact ⟨x, upcoming?_eq_some_iff.mp hnext, (Option.some.inj h).symm⟩
    · cases h
  · rintro ⟨x, hins, rfl⟩
    rw [upcoming?_eq_some_iff.mpr hins]

/-- The addend is read before the flag is written, also where they are the same register. -/
theorem Executes.addsIndex (hins : m.Executes (.addIndex x)) (h : m.WellFormed)
    (random : RandomWords) :
    let sum := m.index.toNat + (m.registers.get x).toNat
    (m.cycle random).machine.index.toNat = sum % 4096 ∧
      (m.cycle random).machine.registers.get .flag = if sum < 4096 then 0 else 1 := by
  intro sum
  have hsum : (m.index + (m.registers.get x).toUInt16).toNat = sum :=
    toNat_add_byte h.index_le _
  have hcompletes := hins.completes h random rfl (fun _ => nofun)
  constructor
  · rw [hcompletes.index]
    change ((m.index + (m.registers.get x).toUInt16) &&& 0x0FFF).toNat = sum % 4096
    rw [UInt16.toNat_and, hsum]
    exact Nat.and_two_pow_sub_one_eq_mod sum 12
  · rw [hcompletes.registers]
    change (m.registers.setFlag (decide (0x0FFF < m.index + (m.registers.get x).toUInt16))).get
      .flag = _
    have hlt : 0x0FFF < m.index + (m.registers.get x).toUInt16 ↔ ¬ sum < 4096 := by
      rw [UInt16.lt_iff_toNat_lt, hsum, Nat.not_lt]
      rfl
    rw [Registers.get_setFlag, if_pos rfl]
    by_cases hsmall : sum < 4096 <;> simp [hlt, hsmall]

/-- An addition is exact, and the index keeps what the flag does not. -/
theorem exact_addition (h : m.WellFormed) {random : RandomWords} {a : IndexAddition}
    (ha : m.addition? random = some a) :
    a.Exact ∧ (m.cycle random).machine.index.toNat = a.sum % 4096 := by
  obtain ⟨x, hins, rfl⟩ := addition?_eq_some_iff.mp ha
  obtain ⟨hindex, hflag⟩ := hins.addsIndex h random
  exact ⟨.of_index_le h.index_le hflag, hindex⟩

end Machine

namespace Console

/-- What an operation adds to the index, if it does. -/
def addition? (c : Console) : Operation → Option IndexAddition
  | .cycle => c.machine.addition? c.random
  | _ => none

/-- The additions to the index in a run, in their order: one for each cycle that executes the
instruction for them. -/
def additions (c : Console) : List Operation → List IndexAddition
  | [] => []
  | operation :: rest =>
      (c.addition? operation).toList ++ (c.perform operation).console.additions rest

/-- What does not add to the index leaves it as it is. -/
def OnlyAdds (c : Console) : List Operation → Prop
  | [] => True
  | operation :: rest =>
      (c.addition? operation = none →
        (c.perform operation).console.machine.index = c.machine.index) ∧
      (c.perform operation).console.OnlyAdds rest

variable {c : Console}

theorem addition?_of_executes (hc : c.machine.WellFormed) {x : Register}
    (hins : c.machine.Executes (.addIndex x)) :
    c.addition? .cycle =
      some ⟨c.machine.index, c.machine.registers.get x,
        if c.machine.index.toNat + (c.machine.registers.get x).toNat < 4096 then 0 else 1⟩ := by
  refine Machine.addition?_eq_some_iff.mpr ⟨x, hins, ?_⟩
  rw [(hins.addsIndex hc c.random).2]

theorem exact_addition (hc : c.machine.WellFormed) {operation : Operation} {a : IndexAddition}
    (ha : c.addition? operation = some a) :
    a.Exact ∧ a.index = c.machine.index ∧
      (c.perform operation).console.machine.index.toNat = a.sum % 4096 := by
  cases operation with
  | cycle =>
    obtain ⟨hexact, hindex⟩ := Machine.exact_addition hc ha
    obtain ⟨x, -, rfl⟩ := Machine.addition?_eq_some_iff.mp ha
    exact ⟨hexact, rfl, hindex⟩
  | load program | press key | release key | elapse ticks => cases ha

theorem exact_additions (hc : c.machine.WellFormed) (operations : List Operation) :
    ∀ a ∈ c.additions operations, a.Exact := by
  induction operations generalizing c with
  | nil => simp [additions]
  | cons operation rest ih =>
    intro a ha
    rw [additions, List.mem_append, Option.mem_toList] at ha
    rcases ha with hfirst | hlater
    · exact (exact_addition hc hfirst).1
    · exact ih (perform_wellFormed c operation hc) a hlater

/-- The carries of a run and its last index are all that went into the index. -/
theorem run_additions (hc : c.machine.WellFormed) {operations : List Operation}
    (h : c.OnlyAdds operations) :
    4096 * (c.additions operations).countP (·.flag = 1) + (c.run operations).machine.index.toNat =
      c.machine.index.toNat + ((c.additions operations).map (·.addend.toNat)).sum := by
  induction operations generalizing c with
  | nil => simp [additions]
  | cons operation rest ih =>
    obtain ⟨hkeeps, hrest⟩ := h
    have hlater := ih (perform_wellFormed c operation hc) hrest
    rw [run_cons, additions]
    cases ha : c.addition? operation with
    | none =>
      rw [hkeeps ha] at hlater
      simpa using hlater
    | some a =>
      obtain ⟨hexact, hindex, hafter⟩ := exact_addition hc ha
      have hcarry := hexact.carry_add_mod
      have hsum : a.sum = c.machine.index.toNat + a.addend.toNat := by rw [← hindex]; rfl
      simp only [Option.toList_some, List.cons_append, List.nil_append, List.countP_cons,
        List.map_cons, List.sum_cons, decide_eq_true_eq]
      omega

/-- The account of the index over a run in which it changes only by additions: it ends at the sum
of its first value and all addends, modulo 4096, and as often as this sum contains 4096 an addition
has set the flag to one. The other additions have set it to zero, and no sum was too large for a
word. -/
theorem index_carries_counted {c : Console} (h : c.machine.Reachable)
    {operations : List Operation} (hadds : c.OnlyAdds operations) :
    let additions := c.additions operations
    let total := c.machine.index.toNat + (additions.map (·.addend.toNat)).sum
    (c.run operations).machine.index.toNat = total % 4096 ∧
      additions.countP (·.flag = 1) = total / 4096 ∧
      (∀ a ∈ additions, a.flag = 0 ∨ a.flag = 1) ∧
      ∀ a ∈ additions, a.index.toNat + a.addend.toNat ≤ 0x10FE ∧
        (a.index + a.addend.toUInt16).toNat = a.index.toNat + a.addend.toNat := by
  intro additions total
  have hc : c.machine.WellFormed := h.wellFormed
  have hexact := exact_additions hc operations
  have hsum : 4096 * additions.countP (·.flag = 1) + (c.run operations).machine.index.toNat =
      total := run_additions hc hadds
  have hindex := (run_wellFormed hc operations).index_le
  refine ⟨by omega, by omega, ?_, ?_⟩
  · intro a ha
    rw [(hexact a ha).flag_eq]
    split
    · exact Or.inl rfl
    · exact Or.inr rfl
  · intro a ha
    exact ⟨(hexact a ha).sum_le, (hexact a ha).not_wrapped⟩

/-- Points the index at the last byte and adds the flag register to it, twice. -/
def stepOverEnd : List Instruction :=
  [.setIndex 0xFFF, .setByte .flag 1, .addIndex .flag, .addIndex .flag]

/-- Before the additions. -/
theorem stepOverEnd_starts {c : Console} (h200 : c.machine.At 0x200 stepOverEnd) :
    let adding := c.run [.cycle, .cycle]
    adding.machine.At 0x204 [.addIndex .flag, .addIndex .flag] ∧ adding.machine.index = 0xFFF ∧
      adding.machine.registers.get .flag = 1 := by
  intro adding
  obtain ⟨hpoint, h202⟩ := h200.cycle_of_not_stores
    ⟨show (0xFFF : UInt16).toNat < 4096 by decide, nofun, nofun⟩ rfl rfl rfl c.random
  let pointing := (c.perform .cycle).console
  obtain ⟨hset, h204⟩ := h202.cycle_of_not_stores ⟨trivial, nofun, nofun⟩ rfl rfl rfl
    pointing.random
  have hregisters : adding.machine.registers = pointing.machine.registers.set .flag 1 :=
    hset.registers
  refine ⟨h204, hset.index.trans hpoint.index, ?_⟩
  rw [hregisters, Registers.get_set, if_pos rfl]

/-- The additions, with a key event between them. -/
theorem stepOverEnd_adds {adding : Console}
    (h204 : adding.machine.At 0x204 [.addIndex .flag, .addIndex .flag])
    (hindex : adding.machine.index = 0xFFF) (hone : adding.machine.registers.get .flag = 1) :
    adding.OnlyAdds [.cycle, .press 3, .cycle] ∧
      adding.additions [.cycle, .press 3, .cycle] = [⟨0xFFF, 1, 1⟩, ⟨0, 1, 0⟩] := by
  have hadd : Instruction.Assemblable (.addIndex .flag) := ⟨trivial, nofun, nofun⟩
  have hins := h204.executes hadd
  obtain ⟨hindex', hone'⟩ := hins.addsIndex h204.wellFormed adding.random
  rw [hindex, hone] at hindex' hone'
  obtain ⟨-, h206⟩ := h204.cycle_of_not_stores hadd rfl rfl rfl adding.random
  let pressed := adding.run [.cycle, .press 3]
  have hpressed : pressed.machine.At 0x206 [.addIndex .flag] := h206.press 3
  have hzero : pressed.machine.index = 0 := UInt16.toNat_inj.mp hindex'
  have hstill : pressed.machine.registers.get .flag = 1 := hone'
  have hfirst : adding.addition? .cycle = some ⟨0xFFF, 1, 1⟩ := by
    rw [addition?_of_executes h204.wellFormed hins, hindex, hone]
    rfl
  have hsecond : pressed.addition? .cycle = some ⟨0, 1, 0⟩ := by
    rw [addition?_of_executes hpressed.wellFormed (hpressed.executes hadd), hzero, hstill]
    rfl
  constructor
  · refine ⟨fun hnone => ?_, fun _ => rfl, fun hnone => ?_, trivial⟩
    · exact absurd (hfirst.symm.trans hnone) nofun
    · exact absurd (hsecond.symm.trans hnone) nofun
  · change (adding.addition? .cycle).toList ++ ([] ++ ((pressed.addition? .cycle).toList ++ [])) = _
    rw [hfirst, hsecond]
    rfl

/-- The first addition goes over the end and leaves the flag as its own addend, the second starts
at zero and leaves a zero. -/
theorem flag_register_steps_over_end :
    let start : Console :=
      ⟨.loaded .standard (Instruction.assemble stepOverEnd), .ofSequence fun _ => 0⟩
    let adding := start.run [.cycle, .cycle]
    let operations : List Operation := [.cycle, .press 3, .cycle]
    adding.machine.Reachable ∧ adding.OnlyAdds operations ∧
      adding.additions operations = [⟨0xFFF, 1, 1⟩, ⟨0, 1, 0⟩] ∧
      adding.machine.index = 0xFFF ∧ (adding.run operations).machine.index.toNat = 1 := by
  intro start adding operations
  have hreach : adding.machine.Reachable := by
    refine ⟨.standard, fun _ => 0,
      [.load (Instruction.assemble stepOverEnd), .cycle, .cycle], ?_⟩
    rw [run_cons, perform_load _ _ (by decide)]
  obtain ⟨h204, hfirst, hone⟩ :=
    stepOverEnd_starts (c := start) (Machine.at_loaded .standard (by decide))
  obtain ⟨hadds, hadditions⟩ := stepOverEnd_adds h204 hfirst hone
  obtain ⟨hindex, -⟩ := index_carries_counted hreach hadds
  rw [hadditions, hfirst] at hindex
  exact ⟨hreach, hadds, hadditions, hfirst, hindex⟩

end Console

end ChipEight
