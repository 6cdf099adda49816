import ChipEight.Proofs.Invariant
import ChipEight.Proofs.Sprite

/-!
# Failing cycles

Which cycles fail, and with which fault (`Raises`). The faults of the loops over memory are
those of their closed forms: a byte that is read or written on its own is named by its own
address, a block that is read at once by its last.
-/
namespace ChipEight.Machine

open Memory

/-! ## The operations that can fail -/

theorem returnFrom_of_empty {m : Machine} (h : m.stack.depth = 0) (origin : UInt16) :
    m.returnFrom origin = (m, some (.stackUnderflow origin)) := by
  simp [returnFrom, CallStack.pop?, h]

theorem returnFrom_of_pos {m : Machine} (hle : m.stack.depth ≤ 16) (h : m.stack.depth ≠ 0)
    (origin : UInt16) : (m.returnFrom origin).2 = none := by
  obtain ⟨depth, hdepth⟩ := Nat.exists_eq_succ_of_ne_zero h
  have hlt : depth < 16 := by omega
  simp [returnFrom, CallStack.pop?, hdepth, hlt]

theorem callTo_of_full {m : Machine} (h : m.stack.depth = 16) (origin target : UInt16) :
    m.callTo origin target = (m, some (.stackOverflow origin)) := by
  simp [callTo, CallStack.push?, h]

theorem callTo_of_room {m : Machine} (hle : m.stack.depth ≤ 16) (h : m.stack.depth ≠ 16)
    (origin target : UInt16) : (m.callTo origin target).2 = none := by
  have hlt : m.stack.depth < 16 := Nat.lt_of_le_of_ne hle h
  simp [callTo, CallStack.push?, hlt]

theorem drawSprite_past_end {m : Machine} (hindex : m.index.toNat < size) (x y : Register)
    {height : UInt8} (h : size < m.index.toNat + height.toNat) :
    m.drawSprite x y height =
      ({ m with
          frame := (m.frame.draw (m.registers.get x).toNat (m.registers.get y).toNat
            ((List.range' m.index.toNat (size - m.index.toNat)).map m.memory.byte)).1 },
        some (.addressOutOfRange size)) := by
  unfold drawSprite
  rw [drawRows_eq _ _ _ _ _ _ (Nat.le_of_lt hindex), if_pos h,
    rowsAt_past_end m.memory (Nat.le_of_lt h)]

theorem drawSprite_inside {m : Machine} (hindex : m.index.toNat < size) (x y : Register)
    {height : UInt8} (h : ¬ size < m.index.toNat + height.toNat) :
    (m.drawSprite x y height).2 = none := by
  unfold drawSprite
  rw [drawRows_eq _ _ _ _ _ _ (Nat.le_of_lt hindex), if_neg h]

theorem storeAtIndex_protected {m : Machine} (h : m.index.toNat < programStart) {values : List UInt8}
    (hne : values ≠ []) :
    m.storeAtIndex values = (m, some (.protectedWrite m.index.toNat)) := by
  unfold storeAtIndex
  rw [store_protected m.memory h hne]

theorem storeAtIndex_eq {m : Machine} (hindex : m.index.toNat < size)
    (h : ¬ m.index.toNat < programStart) (values : List UInt8) :
    m.storeAtIndex values =
      ({ m with memory := m.memory.patch m.index.toNat values },
        if size < m.index.toNat + values.length then some (.addressOutOfRange size)
        else none) := by
  unfold storeAtIndex
  rw [store_eq m.memory values (Nat.le_of_not_lt h) (Nat.le_of_lt hindex)]

theorem loadRegisters_past_end {m : Machine} {last : Register}
    (h : size ≤ m.index.toNat + last.val) :
    m.loadRegisters last = (m, some (.addressOutOfRange (m.index.toNat + last.val))) := by
  unfold loadRegisters slice
  rw [if_pos (show size < m.index.toNat + (last.val + 1) from Nat.lt_succ_of_le h)]
  rfl

theorem loadRegisters_inside {m : Machine} {last : Register}
    (h : ¬ size ≤ m.index.toNat + last.val) : (m.loadRegisters last).2 = none := by
  unfold loadRegisters slice
  rw [if_neg (show ¬ size < m.index.toNat + (last.val + 1) from fun hlt =>
    h (Nat.le_of_lt_succ hlt))]

/-! ## Instructions -/

/-- The fault of a store of `count` bytes at the index. -/
def storeFault (m : Machine) (count : Nat) : Option Fault :=
  if m.index.toNat < programStart then some (.protectedWrite m.index.toNat)
  else if size < m.index.toNat + count then some (.addressOutOfRange size)
  else none

/-- The fault of an instruction that was fetched from `origin`. -/
def faultOf (m : Machine) (origin : UInt16) : Instruction → Option Fault
  | .ret => if m.stack.depth = 0 then some (.stackUnderflow origin) else none
  | .call _ | .callIndexed _ =>
      if m.stack.depth = 16 then some (.stackOverflow origin) else none
  | .draw _ _ height =>
      if size < m.index.toNat + height.toNat then some (.addressOutOfRange size) else none
  | .storeDecimal _ => m.storeFault 3
  | .storeRegisters last => m.storeFault (last.val + 1)
  | .loadRegisters last =>
      if size ≤ m.index.toNat + last.val then
        some (.addressOutOfRange (m.index.toNat + last.val))
      else none
  | _ => none

theorem storeAtIndex_fault {m : Machine} (hindex : m.index.toNat < size) {values : List UInt8}
    (hne : values ≠ []) : (m.storeAtIndex values).2 = m.storeFault values.length := by
  unfold storeFault
  by_cases h : m.index.toNat < programStart
  · rw [storeAtIndex_protected h hne, if_pos h]
  · rw [storeAtIndex_eq hindex h, if_neg h]

theorem upTo_ne_nil (regs : Registers) (last : Register) : regs.upTo last ≠ [] := by
  intro hnil
  have hlength := regs.length_upTo last
  rw [hnil] at hlength
  cases hlength

/-- Which fault an instruction raises. Only the depth of the call stack and the index have to be
in bounds. -/
theorem execute_fault_of_bounds {m : Machine} (hle : m.stack.depth ≤ 16)
    (hindex : m.index.toNat < size) (random : RandomWords) (origin : UInt16) (ins : Instruction) :
    (m.execute random origin ins).fault = m.faultOf origin ins := by
  cases ins with
  | ret =>
    change (m.returnFrom origin).2 = if m.stack.depth = 0 then _ else _
    by_cases hdepth : m.stack.depth = 0
    · rw [returnFrom_of_empty hdepth, if_pos hdepth]
    · rw [returnFrom_of_pos hle hdepth, if_neg hdepth]
  | call target =>
    change (m.callTo origin target).2 = if m.stack.depth = 16 then _ else _
    by_cases hdepth : m.stack.depth = 16
    · rw [callTo_of_full hdepth, if_pos hdepth]
    · rw [callTo_of_room hle hdepth, if_neg hdepth]
  | callIndexed target =>
    change (m.callTo origin (m.indexedTarget target)).2 = if m.stack.depth = 16 then _ else _
    by_cases hdepth : m.stack.depth = 16
    · rw [callTo_of_full hdepth, if_pos hdepth]
    · rw [callTo_of_room hle hdepth, if_neg hdepth]
  | draw x y height =>
    change (m.drawSprite x y height).2 = if size < m.index.toNat + height.toNat then _ else _
    by_cases hend : size < m.index.toNat + height.toNat
    · rw [drawSprite_past_end hindex x y hend, if_pos hend]
    · rw [drawSprite_inside hindex x y hend, if_neg hend]
  | storeDecimal x => exact storeAtIndex_fault hindex (List.cons_ne_nil _ _)
  | storeRegisters last =>
    refine (storeAtIndex_fault hindex (upTo_ne_nil m.registers last)).trans ?_
    rw [Registers.length_upTo]
    rfl
  | loadRegisters last =>
    change (m.loadRegisters last).2 = if size ≤ m.index.toNat + last.val then _ else _
    by_cases hend : size ≤ m.index.toNat + last.val
    · rw [loadRegisters_past_end hend, if_pos hend]
    · rw [loadRegisters_inside hend, if_neg hend]
  | _ => rfl

theorem execute_fault {m : Machine} (h : m.WellFormed) (random : RandomWords) (origin : UInt16)
    (ins : Instruction) : (m.execute random origin ins).fault = m.faultOf origin ins :=
  execute_fault_of_bounds h.stack.depth_le (Nat.lt_succ_of_le h.index_le) random origin ins

/-! ## Causes -/

/-- Why a cycle can fail. -/
inductive FailureCause where
  | fetch | decode | emptyReturn | fullCall | drawPastEnd | protectedStore | storePastEnd
  | loadPastEnd
  deriving DecidableEq, Repr

/-- When each cause is there and which fault it makes. -/
inductive Raises (m : Machine) : FailureCause → Fault → Prop where
  | fetch (hpc : 0xFFE < m.pc.toNat) : Raises m .fetch (.addressOutOfRange (m.pc.toNat + 1))
  | decode (hpc : m.pc.toNat ≤ 0xFFE) (hword : Instruction.decode? m.word = none) :
      Raises m .decode (.unknownInstruction m.word m.pc)
  | ret (hins : m.Executes .ret) (hdepth : m.stack.depth = 0) :
      Raises m .emptyReturn (.stackUnderflow m.pc)
  | call {target : UInt16} (hins : m.Executes (.call target)) (hdepth : m.stack.depth = 16) :
      Raises m .fullCall (.stackOverflow m.pc)
  | callIndexed {target : UInt16} (hins : m.Executes (.callIndexed target))
      (hdepth : m.stack.depth = 16) : Raises m .fullCall (.stackOverflow m.pc)
  | draw {x y : Register} {height : UInt8} (hins : m.Executes (.draw x y height))
      (hend : 0x1000 < m.index.toNat + height.toNat) :
      Raises m .drawPastEnd (.addressOutOfRange 0x1000)
  | decimalProtected {x : Register} (hins : m.Executes (.storeDecimal x))
      (hindex : m.index.toNat < 0x200) : Raises m .protectedStore (.protectedWrite m.index.toNat)
  | registersProtected {x : Register} (hins : m.Executes (.storeRegisters x))
      (hindex : m.index.toNat < 0x200) : Raises m .protectedStore (.protectedWrite m.index.toNat)
  | decimalPastEnd {x : Register} (hins : m.Executes (.storeDecimal x))
      (hend : 0xFFF < m.index.toNat + 2) : Raises m .storePastEnd (.addressOutOfRange 0x1000)
  | registersPastEnd {x : Register} (hins : m.Executes (.storeRegisters x))
      (hend : 0xFFF < m.index.toNat + x.val) : Raises m .storePastEnd (.addressOutOfRange 0x1000)
  | load {x : Register} (hins : m.Executes (.loadRegisters x))
      (hend : 0xFFF < m.index.toNat + x.val) :
      Raises m .loadPastEnd (.addressOutOfRange (m.index.toNat + x.val))

/-- The cause for which an instruction fails, if it does. -/
def causeOf (m : Machine) : Instruction → FailureCause
  | .ret => .emptyReturn
  | .call _ | .callIndexed _ => .fullCall
  | .draw _ _ _ => .drawPastEnd
  | .storeDecimal _ | .storeRegisters _ =>
      if m.index.toNat < programStart then .protectedStore else .storePastEnd
  | _ => .loadPastEnd

theorem storeFault_protected {m : Machine} (h : m.index.toNat < programStart) (count : Nat) :
    m.storeFault count = some (.protectedWrite m.index.toNat) := by
  rw [storeFault, if_pos h]

theorem storeFault_past_end {m : Machine} {count : Nat} (hcount : count ≤ 16)
    (h : size < m.index.toNat + count) :
    ¬ m.index.toNat < programStart ∧ m.storeFault count = some (.addressOutOfRange size) := by
  have hindex : ¬ m.index.toNat < programStart := by
    unfold size at h
    unfold programStart
    omega
  rw [storeFault, if_neg hindex, if_pos h]
  exact ⟨hindex, rfl⟩

theorem storeFault_cases {m : Machine} {count : Nat} {fault : Fault}
    (h : m.storeFault count = some fault) :
    (m.index.toNat < programStart ∧ fault = .protectedWrite m.index.toNat) ∨
      (¬ m.index.toNat < programStart ∧ size < m.index.toNat + count ∧
        fault = .addressOutOfRange size) := by
  unfold storeFault at h
  split at h
  · rename_i hindex
    exact Or.inl ⟨hindex, (Option.some.inj h).symm⟩
  · rename_i hindex
    split at h
    · rename_i hend
      exact Or.inr ⟨hindex, hend, (Option.some.inj h).symm⟩
    · cases h

/-- While an instruction can be executed, its own fault is the only one. -/
theorem Executes.raises_iff {m : Machine} {ins : Instruction} (hins : m.Executes ins)
    {cause : FailureCause} {fault : Fault} :
    m.Raises cause fault ↔ m.faultOf m.pc ins = some fault ∧ cause = m.causeOf ins := by
  constructor
  · intro hraises
    -- Every cause but the first two names an instruction, which has to be `ins`.
    cases hraises with
    | fetch hpc => exact absurd hins.pc_le (Nat.not_le.mpr hpc)
    | decode hpc hword =>
      rw [hins.decoded] at hword
      cases hword
    | ret h hdepth =>
      obtain rfl := hins.unique h
      exact ⟨if_pos hdepth, rfl⟩
    | call h hdepth =>
      obtain rfl := hins.unique h
      exact ⟨if_pos hdepth, rfl⟩
    | callIndexed h hdepth =>
      obtain rfl := hins.unique h
      exact ⟨if_pos hdepth, rfl⟩
    | draw h hend =>
      obtain rfl := hins.unique h
      exact ⟨if_pos hend, rfl⟩
    | decimalProtected h hindex =>
      obtain rfl := hins.unique h
      exact ⟨storeFault_protected hindex 3, (if_pos hindex).symm⟩
    | registersProtected h hindex =>
      obtain rfl := hins.unique h
      exact ⟨storeFault_protected hindex _, (if_pos hindex).symm⟩
    | decimalPastEnd h hend =>
      obtain rfl := hins.unique h
      obtain ⟨hindex, hfault⟩ := storeFault_past_end (show 3 ≤ 16 by decide)
        (Nat.succ_lt_succ hend)
      exact ⟨hfault, (if_neg hindex).symm⟩
    | @registersPastEnd x h hend =>
      obtain rfl := hins.unique h
      obtain ⟨hindex, hfault⟩ := storeFault_past_end x.isLt (Nat.succ_lt_succ hend)
      exact ⟨hfault, (if_neg hindex).symm⟩
    | load h hend =>
      obtain rfl := hins.unique h
      exact ⟨if_pos hend, rfl⟩
  · rintro ⟨hfault, rfl⟩
    cases ins with
    | ret =>
      obtain ⟨hdepth, hsome⟩ := Option.ite_none_right_eq_some.mp hfault
      obtain rfl := Option.some.inj hsome
      exact .ret hins hdepth
    | call target =>
      obtain ⟨hdepth, hsome⟩ := Option.ite_none_right_eq_some.mp hfault
      obtain rfl := Option.some.inj hsome
      exact .call hins hdepth
    | callIndexed target =>
      obtain ⟨hdepth, hsome⟩ := Option.ite_none_right_eq_some.mp hfault
      obtain rfl := Option.some.inj hsome
      exact .callIndexed hins hdepth
    | draw x y height =>
      obtain ⟨hend, hsome⟩ := Option.ite_none_right_eq_some.mp hfault
      obtain rfl := Option.some.inj hsome
      exact .draw hins hend
    | storeDecimal x =>
      rcases storeFault_cases hfault with ⟨hindex, rfl⟩ | ⟨hindex, hend, rfl⟩
      · rw [causeOf, if_pos hindex]
        exact .decimalProtected hins hindex
      · rw [causeOf, if_neg hindex]
        exact .decimalPastEnd hins (Nat.lt_of_succ_lt_succ hend)
    | storeRegisters last =>
      rcases storeFault_cases hfault with ⟨hindex, rfl⟩ | ⟨hindex, hend, rfl⟩
      · rw [causeOf, if_pos hindex]
        exact .registersProtected hins hindex
      · rw [causeOf, if_neg hindex]
        exact .registersPastEnd hins (Nat.lt_of_succ_lt_succ hend)
    | loadRegisters last =>
      obtain ⟨hend, hsome⟩ := Option.ite_none_right_eq_some.mp hfault
      obtain rfl := Option.some.inj hsome
      exact .load hins hend
    | _ => cases hfault

/-- A cause that is none of an instruction is that of the fetch or of the decoding. -/
theorem Raises.stuck_or_executes {m : Machine} {cause : FailureCause} {fault : Fault}
    (h : m.Raises cause fault) :
    (0xFFE < m.pc.toNat ∧ cause = .fetch ∧ fault = .addressOutOfRange (m.pc.toNat + 1)) ∨
      (m.pc.toNat ≤ 0xFFE ∧ Instruction.decode? m.word = none ∧ cause = .decode ∧
        fault = .unknownInstruction m.word m.pc) ∨
      ∃ ins, m.Executes ins := by
  cases h with
  | fetch hpc => exact Or.inl ⟨hpc, rfl, rfl⟩
  | decode hpc hword => exact Or.inr (Or.inl ⟨hpc, hword, rfl, rfl⟩)
  | ret hins _ | call hins _ | callIndexed hins _ | draw hins _ | decimalProtected hins _
  | registersProtected hins _ | decimalPastEnd hins _ | registersPastEnd hins _ | load hins _ =>
    exact Or.inr (Or.inr ⟨_, hins⟩)

theorem raises_past_end_iff {m : Machine} (hpc : 0xFFE < m.pc.toNat) {cause : FailureCause}
    {fault : Fault} :
    m.Raises cause fault ↔
      cause = .fetch ∧ fault = .addressOutOfRange (m.pc.toNat + 1) := by
  constructor
  · intro h
    rcases h.stuck_or_executes with ⟨-, h⟩ | ⟨hle, -⟩ | ⟨ins, hins⟩
    · exact h
    · exact absurd hle (Nat.not_le.mpr hpc)
    · exact absurd hins.pc_le (Nat.not_le.mpr hpc)
  · rintro ⟨rfl, rfl⟩
    exact .fetch hpc

theorem raises_undecoded_iff {m : Machine} (hpc : m.pc.toNat ≤ 0xFFE)
    (hword : Instruction.decode? m.word = none) {cause : FailureCause} {fault : Fault} :
    m.Raises cause fault ↔
      cause = .decode ∧ fault = .unknownInstruction m.word m.pc := by
  constructor
  · intro h
    rcases h.stuck_or_executes with ⟨hlt, -⟩ | ⟨-, -, h⟩ | ⟨ins, hins⟩
    · exact absurd hpc (Nat.not_le.mpr hlt)
    · exact h
    · rw [hins.decoded] at hword
      cases hword
  · rintro ⟨rfl, rfl⟩
    exact .decode hpc hword

/-- There is at most one cause. -/
theorem Raises.unique {m : Machine} (hidle : m.awaiting = none) {cause other : FailureCause}
    {fault fault' : Fault} (h : m.Raises cause fault) (h' : m.Raises other fault') :
    other = cause ∧ fault' = fault := by
  rcases m.cycle_cases with ⟨x, hx⟩ | ⟨-, hpc⟩ | ⟨-, hpc, hword⟩ | ⟨ins, hins⟩
  · rw [hidle] at hx
    cases hx
  · obtain ⟨rfl, rfl⟩ := (raises_past_end_iff hpc).mp h
    exact (raises_past_end_iff hpc).mp h'
  · obtain ⟨rfl, rfl⟩ := (raises_undecoded_iff hpc hword).mp h
    exact (raises_undecoded_iff hpc hword).mp h'
  · obtain ⟨hfault, rfl⟩ := hins.raises_iff.mp h
    obtain ⟨hfault', rfl⟩ := hins.raises_iff.mp h'
    exact ⟨rfl, Option.some.inj (hfault'.symm.trans hfault)⟩

/-! ## Cycles -/

theorem faultOf_advance (m : Machine) (origin : UInt16) (ins : Instruction) :
    m.advance.faultOf origin ins = m.faultOf origin ins := by
  cases ins <;> rfl

theorem Executes.result_of_fault {m : Machine} {ins : Instruction} (hins : m.Executes ins)
    (h : m.WellFormed) (random : RandomWords) {fault : Fault}
    (hfault : m.faultOf m.pc ins = some fault) : (m.cycle random).result = .error fault := by
  obtain ⟨hadvance, -⟩ := h.advance hins.pc_le
  rw [← faultOf_advance] at hfault
  rw [hins.cycle_eq, step_eq, execute_fault hadvance, hfault]

theorem Executes.result_of_no_fault {m : Machine} {ins : Instruction} (hins : m.Executes ins)
    (h : m.WellFormed) (random : RandomWords) (hfault : m.faultOf m.pc ins = none) :
    ∃ progress, (m.cycle random).result = .ok progress := by
  obtain ⟨hadvance, -⟩ := h.advance hins.pc_le
  rw [← faultOf_advance] at hfault
  rw [hins.cycle_eq, step_eq, execute_fault hadvance, hfault]
  dsimp only
  split
  · exact ⟨.suspended, rfl⟩
  · exact ⟨.executed, rfl⟩

/-- Asking for a key never fails. -/
theorem pollKey_result (m : Machine) (random : RandomWords) (x : Register) :
    ∃ progress, (m.pollKey random x).result = .ok progress := by
  unfold pollKey
  split
  · exact ⟨.suspended, rfl⟩
  · exact ⟨.executed, rfl⟩

theorem cycle_error_iff {m : Machine} (h : m.WellFormed) (random : RandomWords)
    (fault : Fault) :
    (m.cycle random).result = .error fault ↔
      m.awaiting = none ∧ ∃ cause, m.Raises cause fault := by
  rcases m.cycle_cases with ⟨x, hx⟩ | ⟨hidle, hpc⟩ | ⟨hidle, hpc, hword⟩ | ⟨ins, hins⟩
  · obtain ⟨progress, hprogress⟩ := m.pollKey_result random x
    rw [cycle_of_awaiting hx, hprogress, hx]
    simp
  · rw [cycle_of_past_end hidle hpc]
    simp [hidle, raises_past_end_iff hpc, eq_comm]
  · rw [cycle_of_undecoded hidle hpc hword]
    simp [hidle, raises_undecoded_iff hpc hword, eq_comm]
  · simp only [hins.idle, hins.raises_iff, true_and, exists_and_left, exists_eq, and_true]
    cases hfault : m.faultOf m.pc ins with
    | some fault' =>
      rw [hins.result_of_fault h random hfault]
      simp
    | none =>
      obtain ⟨progress, hprogress⟩ := hins.result_of_no_fault h random hfault
      rw [hprogress]
      simp

/-- A reachable machine fails to complete a cycle exactly when it waits for no key and one cause
is there. The fault is that of the cause, and no other cause is there with it. -/
theorem cycle_fails_iff {m : Machine} (h : m.Reachable) (random : RandomWords) (fault : Fault) :
    (m.cycle random).result = .error fault ↔
      m.awaiting = none ∧ ∃ cause, m.Raises cause fault ∧
        ∀ other fault', m.Raises other fault' → other = cause ∧ fault' = fault := by
  rw [cycle_error_iff h.wellFormed]
  constructor
  · rintro ⟨hidle, cause, hraises⟩
    exact ⟨hidle, cause, hraises, fun other fault' hother => hraises.unique hidle hother⟩
  · rintro ⟨hidle, cause, hraises, -⟩
    exact ⟨hidle, cause, hraises⟩

/-- A store is refused where the index points before anything has set it. -/
theorem first_store_fails :
    let m := ((Console.fresh .standard fun _ => 0).run [.load #[0xF0, 0x33]]).machine
    m.Reachable ∧ (m.cycle (.ofSequence fun _ => 0)).result = .error (.protectedWrite 0) := by
  intro m
  have hreach : m.Reachable := ⟨_, _, _, rfl⟩
  have hload : Memory.fresh.load #[0xF0, 0x33] = .ok m.memory := rfl
  have hword : Instruction.decode? m.word = some (.storeDecimal 0) :=
    (congrArg Instruction.decode? (wordAt_load hload)).trans (by decide)
  have hins : m.Executes (.storeDecimal 0) := ⟨rfl, by decide, hword⟩
  have hraises : m.Raises .protectedStore (.protectedWrite 0) := .decimalProtected hins (by decide)
  refine ⟨hreach, (cycle_fails_iff hreach _ _).mpr ⟨rfl, .protectedStore, hraises, ?_⟩⟩
  exact fun other fault' hother => hraises.unique rfl hother

end ChipEight.Machine
