import ChipEight.Proofs.Coupling
import ChipEight.Proofs.Standing

/-!
# Bytes that are not read

A cycle reads the word at the program counter, and two instructions read operands from memory
(`Reads`). A byte that no cycle reads makes no difference to a run (`perform_sameButByte`), and
the first instruction that stores something in its place makes it forgotten
(`Stores.cycle_eq`).
-/
namespace ChipEight

namespace Memory

/-- Every byte but the one at `a` is the same. -/
def SameBut (a : Nat) (memory other : Memory) : Prop :=
  ∀ b, b ≠ a → other.byte b = memory.byte b

namespace SameBut

variable {a : Nat} {memory other : Memory}

theorem wordAt_eq (h : memory.SameBut a other) {addr : Nat} (hhigh : addr ≠ a)
    (hlow : addr + 1 ≠ a) : other.wordAt addr = memory.wordAt addr := by
  rw [wordAt, wordAt, h addr hhigh, h (addr + 1) hlow]

/-- A block that does not contain the byte. -/
theorem map_byte_eq (h : memory.SameBut a other) {addr len : Nat}
    (ha : ¬ (addr ≤ a ∧ a < addr + len)) :
    (List.range' addr len).map other.byte = (List.range' addr len).map memory.byte := by
  refine List.map_congr_left fun b hb => h b ?_
  rintro rfl
  exact ha (List.mem_range'_1.mp hb)

theorem slice_eq (h : memory.SameBut a other) {addr len : Nat}
    (ha : addr + len ≤ size → ¬ (addr ≤ a ∧ a < addr + len)) :
    other.slice addr len = memory.slice addr len := by
  unfold slice
  split
  · rfl
  · rename_i hend
    rw [h.map_byte_eq (ha (Nat.le_of_not_lt hend))]

theorem drawRows_eq (h : memory.SameBut a other) (x rows : Nat) {addr : Nat} (y : Nat)
    (frame : Frame) (hend : addr ≤ size) (ha : ¬ (addr ≤ a ∧ a < min (addr + rows) size)) :
    Machine.drawRows other x rows addr y frame false =
      Machine.drawRows memory x rows addr y frame false := by
  have hrows : Machine.rowsAt other addr rows = Machine.rowsAt memory addr rows :=
    h.map_byte_eq (by omega)
  rw [Machine.drawRows_eq _ _ _ _ _ _ hend, Machine.drawRows_eq _ _ _ _ _ _ hend, hrows]

theorem load (h : memory.SameBut a other) {program : Array UInt8} {after after' : Memory}
    (hload : memory.load program = .ok after) (hload' : other.load program = .ok after') :
    after.SameBut a after' := by
  intro b hb
  rw [byte_load hload, byte_load hload', h b hb]

theorem patch_byte (memory : Memory) (a : Nat) (value : UInt8) :
    memory.SameBut a (memory.patch a [value]) := by
  intro b hb
  by_cases hend : b < 4096
  · rw [byte_patch _ _ _ hend]
    split
    · rw [List.getElem?_eq_none (by rw [List.length_singleton]; omega), Option.getD_none]
    · rfl
  · rw [byte_eq_zero _ (Nat.le_of_not_lt hend), byte_eq_zero _ (Nat.le_of_not_lt hend)]

/-- Whether a byte can be written is no matter of the bytes. -/
theorem write (h : memory.SameBut a other) (addr : Nat) (value : UInt8) :
    (∃ fault, memory.write addr value = .error fault ∧ other.write addr value = .error fault) ∨
      ∃ after after', memory.write addr value = .ok after ∧ other.write addr value = .ok after' ∧
        after.SameBut a after' := by
  by_cases hsystem : addr < programStart
  · exact Or.inl ⟨_, if_pos hsystem, if_pos hsystem⟩
  by_cases hend : addr < 4096
  · obtain ⟨after, hwrite⟩ : ∃ after, memory.write addr value = .ok after := by
      rw [Memory.write, if_neg hsystem, dif_pos hend]
      exact ⟨_, rfl⟩
    obtain ⟨after', hwrite'⟩ : ∃ after, other.write addr value = .ok after := by
      rw [Memory.write, if_neg hsystem, dif_pos hend]
      exact ⟨_, rfl⟩
    refine Or.inr ⟨after, after', hwrite, hwrite', fun b hb => ?_⟩
    rw [byte_write hwrite, byte_write hwrite', h b hb]
  · exact Or.inl ⟨.addressOutOfRange addr, by rw [Memory.write, if_neg hsystem, dif_neg hend],
      by rw [Memory.write, if_neg hsystem, dif_neg hend]⟩

theorem store (h : memory.SameBut a other) (addr : Nat) (values : List UInt8) :
    (memory.store addr values).1.SameBut a (other.store addr values).1 := by
  induction values generalizing memory other addr with
  | nil => exact h
  | cons value rest ih =>
    rw [Memory.store, Memory.store]
    rcases h.write addr value with ⟨fault, hfault, hfault'⟩ | ⟨after, after', hok, hok', hsame⟩
    · rw [hfault, hfault']
      exact h
    · rw [hok, hok']
      exact ih hsame (addr + 1)

/-- A store over the byte makes the memories the same. -/
theorem store_eq (h : memory.SameBut a other) {addr : Nat} {values : List UInt8}
    (hstart : programStart ≤ addr) (hend : addr ≤ size) (hle : addr ≤ a)
    (hlt : a < addr + values.length) :
    (other.store addr values).1 = (memory.store addr values).1 := by
  rw [Memory.store_eq _ _ hstart hend, Memory.store_eq _ _ hstart hend]
  refine ext_byte fun b hb => ?_
  rw [byte_patch _ _ _ hb, byte_patch _ _ _ hb]
  by_cases hab : b = a
  · obtain rfl := hab
    have hvalue : values[b - addr]? = some values[b - addr] :=
      List.getElem?_eq_getElem (by omega)
    rw [if_pos hle, if_pos hle, hvalue, Option.getD_some, Option.getD_some]
  · rw [h b hab]

end SameBut

end Memory

namespace Machine

/-- The machine with another memory. -/
def withMemory (m : Machine) (memory : Memory) : Machine := { m with memory }

/-- Everything is the same but for the byte at `a`. -/
def SameButByte (a : Nat) (m n : Machine) : Prop :=
  ∃ memory, m.memory.SameBut a memory ∧ n = m.withMemory memory

/-- Of its operands an instruction reads the byte at `a` from memory: a sprite is read as far as
memory goes, registers all or none. -/
def ReadsOperand (m : Machine) (a : Nat) : Instruction → Prop
  | .draw _ _ height =>
      m.index.toNat ≤ a ∧ a < min (m.index.toNat + height.toNat) 0x1000
  | .loadRegisters last =>
      m.index.toNat + last.val ≤ 0xFFF ∧ m.index.toNat ≤ a ∧ a ≤ m.index.toNat + last.val
  | _ => False

/-- The next cycle reads the byte at `a`. -/
inductive Reads (m : Machine) (a : Nat) : Prop where
  | word (hidle : m.awaiting = none) (hpc : m.pc.toNat ≤ 0xFFE)
      (ha : a = m.pc.toNat ∨ a = m.pc.toNat + 1) : Reads m a
  | operand {ins : Instruction} (hins : m.Executes ins) (ha : m.ReadsOperand a ins) : Reads m a

/-- The next cycle stores something at `a`. Of a store that ends past the end of memory the bytes
that fit are stored, of one that begins below the area of programs none. -/
inductive Stores (m : Machine) (a : Nat) : Prop where
  | decimal {x : Register} (hins : m.Executes (.storeDecimal x))
      (hstart : 0x200 ≤ m.index.toNat) (hle : m.index.toNat ≤ a)
      (hlast : a ≤ m.index.toNat + 2) : Stores m a
  | registers {last : Register} (hins : m.Executes (.storeRegisters last))
      (hstart : 0x200 ≤ m.index.toNat) (hle : m.index.toNat ≤ a)
      (hlast : a ≤ m.index.toNat + last.val) : Stores m a

variable {m n : Machine} {a : Nat} {memory : Memory} {ins : Instruction}

/-! ## One instruction -/

/-- An instruction does the same with another memory, except for memory, registers and frame. -/
theorem after_withMemory_eq (m : Machine) (memory : Memory) (random : RandomWords)
    (ins : Instruction) :
    (m.withMemory memory).after random ins =
      { m.after random ins with
        memory := (memory.store m.index.toNat (m.storedBytes ins)).1
        registers := (m.withMemory memory).registersAfter random ins
        frame := (m.withMemory memory).frameAfter ins } := by
  cases ins <;> rfl

theorem registersAfter_withMemory (h : m.memory.SameBut a memory)
    (hindex : m.index.toNat ≤ Memory.size) (ha : ¬ m.ReadsOperand a ins) (random : RandomWords) :
    (m.withMemory memory).registersAfter random ins = m.registersAfter random ins := by
  cases ins with
  | draw x y height =>
    simp only [registersAfter, drawSprite_registers, withMemory, h.drawRows_eq _ _ _ _ hindex ha]
  | loadRegisters last =>
    have hslice : memory.slice m.index.toNat (last.val + 1) =
        m.memory.slice m.index.toNat (last.val + 1) := by
      refine h.slice_eq fun hend hin => ha ?_
      exact ⟨Nat.le_of_lt_succ hend, hin.1, Nat.le_of_lt_succ hin.2⟩
    simp only [registersAfter, loadRegisters_registers, withMemory, hslice]
  | combine x y op => cases op <;> rfl
  | _ => rfl

theorem frameAfter_withMemory (h : m.memory.SameBut a memory)
    (hindex : m.index.toNat ≤ Memory.size) (ha : ¬ m.ReadsOperand a ins) :
    (m.withMemory memory).frameAfter ins = m.frameAfter ins := by
  cases ins with
  | draw x y height => exact congrArg Prod.fst (h.drawRows_eq _ _ _ _ hindex ha)
  | _ => rfl

/-- An instruction that does not read the byte does the same, and stores the same. -/
theorem after_withMemory (h : m.memory.SameBut a memory) (hindex : m.index.toNat ≤ Memory.size)
    (ha : ¬ m.ReadsOperand a ins) (random : RandomWords) :
    (m.withMemory memory).after random ins =
      (m.after random ins).withMemory (memory.store m.index.toNat (m.storedBytes ins)).1 := by
  rw [after_withMemory_eq, registersAfter_withMemory h hindex ha, frameAfter_withMemory h hindex ha]
  rfl

/-! ## One cycle -/

theorem readsOperand_advance (m : Machine) (a : Nat) (ins : Instruction) :
    m.advance.ReadsOperand a ins ↔ m.ReadsOperand a ins := by
  cases ins <;> rfl

/-- The word at the program counter is the same unless it is read and contains the byte. -/
theorem alike_withMemory (h : m.memory.SameBut a memory) (ha : ¬ m.Reads a) :
    m.Alike (m.withMemory memory) where
  awaiting := rfl
  pressed := fun _ _ => rfl
  pc := rfl
  word := fun hidle hpc => h.wordAt_eq (fun hhigh => ha (.word hidle hpc (Or.inl hhigh.symm)))
    (fun hlow => ha (.word hidle hpc (Or.inr hlow.symm)))
  depth := rfl
  index := rfl

/-- The instruction of a cycle that does not read the byte. -/
theorem Executes.after_withMemory (hins : m.Executes ins) (hm : m.WellFormed)
    (h : m.memory.SameBut a memory) (ha : ¬ m.Reads a) (random : RandomWords) :
    (m.withMemory memory).advance.after random ins =
      (m.advance.after random ins).withMemory
        (memory.store m.index.toNat (m.advance.storedBytes ins)).1 := by
  have hindex : m.index.toNat ≤ Memory.size := Nat.le_trans hm.index_le (by decide)
  have hoperand : ¬ m.advance.ReadsOperand a ins := fun hread =>
    ha (.operand hins ((m.readsOperand_advance a ins).mp hread))
  exact Machine.after_withMemory (m := m.advance) h hindex hoperand random

theorem cycle_sameButByte (hm : m.WellFormed) (h : m.SameButByte a n) (ha : ¬ m.Reads a)
    (random : RandomWords) :
    (m.cycle random).Agrees (SameButByte a) (n.cycle random) := by
  obtain ⟨memory, hsame, rfl⟩ := h
  apply (alike_withMemory hsame ha).cycle_coupled random hm ⟨memory, hsame, rfl⟩
  · rintro b _ ⟨other, -, rfl⟩
    rfl
  · intro x key _ _
    exact ⟨memory, hsame, rfl⟩
  · intro ins hins
    exact ⟨_, hsame.store _ _, hins.after_withMemory hm hsame ha random⟩
  · rintro b _ ⟨other, hother, rfl⟩
    refine ⟨other, ?_, countCycle_comm (·.withMemory other) rfl rfl⟩
    rw [countCycle_eq]
    exact hother

theorem Stores.executes (h : m.Stores a) :
    ∃ ins, m.Executes ins ∧ 0x200 ≤ m.index.toNat ∧ m.index.toNat ≤ a ∧
      a < m.index.toNat + (m.advance.storedBytes ins).length := by
  cases h with
  | decimal hins hstart hle hlast => exact ⟨_, hins, hstart, hle, Nat.lt_succ_of_le hlast⟩
  | @registers last hins hstart hle hlast =>
    refine ⟨_, hins, hstart, hle, ?_⟩
    change a < m.index.toNat + (m.registers.upTo last).length
    rw [Registers.length_upTo]
    exact Nat.lt_succ_of_le hlast

/-- A store over the byte makes the machines the same. -/
theorem Stores.cycle_eq (h : m.Stores a) (hm : m.WellFormed) (hn : m.SameButByte a n)
    (ha : ¬ m.Reads a) (random : RandomWords) : n.cycle random = m.cycle random := by
  obtain ⟨memory, hsame, rfl⟩ := hn
  obtain ⟨ins, hins, hstart, hle, hlt⟩ := h.executes
  have hindex : m.index.toNat < Memory.size := Nat.lt_succ_of_le hm.index_le
  have hdepth : m.stack.depth ≤ 16 := hm.stack.depth_le
  have halike := alike_withMemory hsame ha
  have hafter : (m.withMemory memory).advance.after random ins = m.advance.after random ins := by
    rw [hins.after_withMemory hm hsame ha, hsame.store_eq hstart (Nat.le_of_lt hindex) hle hlt]
    rfl
  rw [hins.cycle_report hdepth hindex, (halike.executes hins).cycle_report hdepth hindex, hafter,
    halike.pc, halike.word hins.idle hins.pc_le, halike.faultOf_eq]

end Machine

namespace Console

variable {c d : Console} {a : Nat}

theorem perform_sameButByte (operation : Operation) (hc : c.machine.WellFormed)
    (h : c.machine.SameButByte a d.machine) (hrandom : d.random = c.random)
    (hunread : operation = .cycle → ¬ c.machine.Reads a) :
    (c.perform operation).Matches (Machine.SameButByte a) (d.perform operation) := by
  obtain ⟨n, random⟩ := d
  obtain ⟨memory, hsame, rfl : n = _⟩ := h
  apply perform_coupled operation ⟨memory, hsame, rfl⟩ hrandom
  · intro program m n hm hn
    obtain ⟨loaded, hloaded, rfl⟩ := Machine.load_ok hm
    obtain ⟨loaded', hloaded', rfl⟩ := Machine.load_ok hn
    exact ⟨loaded', hsame.load hloaded hloaded', rfl⟩
  · intro hcycle
    exact Machine.cycle_sameButByte hc ⟨memory, hsame, rfl⟩ (hunread hcycle) c.random
  · intro key
    exact ⟨memory, hsame, rfl⟩
  · intro key
    exact ⟨memory, hsame, rfl⟩
  · intro ticks
    exact ⟨memory, hsame, rfl⟩

theorem run_sameButByte {operations : List Operation} (hc : c.machine.WellFormed)
    (h : c.machine.SameButByte a d.machine) (hrandom : d.random = c.random)
    (hunread : c.EveryCycle (¬ ·.Reads a) operations) :
    RunsAlike (Machine.SameButByte a) c d operations :=
  run_coupled (fun _ _ operation hm hsame hr hP => perform_sameButByte operation hm hsame hr hP)
    hc h hrandom hunread

/-- A byte that a run does not read makes no difference to the answers, the log or the rest of the
machine. When an instruction has stored something in its place it makes none at all any more, also
to what reads it then. -/
theorem unread_byte_irrelevant {m n : Machine} (h : m.Reachable) {a : Nat}
    (hsame : m.SameButByte a n) (random : RandomWords) :
    (∀ operations, EveryCycle ⟨m, random⟩ (¬ ·.Reads a) operations →
      RunsAlike (Machine.SameButByte a) ⟨m, random⟩ ⟨n, random⟩ operations) ∧
    ∀ before later, EveryCycle ⟨m, random⟩ (¬ ·.Reads a) (before ++ [.cycle]) →
      (run ⟨m, random⟩ before).machine.Stores a →
      run ⟨n, random⟩ (before ++ .cycle :: later) =
        run ⟨m, random⟩ (before ++ .cycle :: later) := by
  have halike : ∀ operations, EveryCycle ⟨m, random⟩ (¬ ·.Reads a) operations →
      RunsAlike (Machine.SameButByte a) ⟨m, random⟩ ⟨n, random⟩ operations :=
    fun operations => run_sameButByte (c := ⟨m, random⟩) h.wellFormed hsame rfl
  refine ⟨halike, ?_⟩
  intro before later hunread hstores
  obtain ⟨hbefore, hlast⟩ := everyCycle_append.mp hunread
  have hrun := halike before hbefore
  have hm : (run ⟨m, random⟩ before).machine.WellFormed :=
    run_wellFormed (c := ⟨m, random⟩) h.wellFormed before
  have hcycle := hstores.cycle_eq hm hrun.machine (hlast.1 rfl) (run ⟨m, random⟩ before).random
  have hperform : ((run ⟨n, random⟩ before).perform .cycle).console =
      ((run ⟨m, random⟩ before).perform .cycle).console := by
    simp only [perform, hrun.random, hcycle]
  rw [run_append, run_append, run_cons, run_cons, hperform]

/-- Sets the index, stores a register there and loads it again. -/
def storeThenLoad : Array UInt8 := #[0xA3, 0x00, 0xF0, 0x55, 0xF0, 0x65]

/-- What was at the index before makes a difference until the store, and none to the load. -/
theorem stored_byte_forgotten :
    let m := ((fresh .standard fun _ => 0).run [.load storeThenLoad]).machine
    let n := m.withMemory (m.memory.patch 0x300 [0xFF])
    let random := RandomWords.ofSequence fun _ => 0
    m.Reachable ∧ m.SameButByte 0x300 n ∧
      n.memory.byte 0x300 = 0xFF ∧ m.memory.byte 0x300 = 0 ∧
      EveryCycle ⟨m, random⟩ (¬ ·.Reads 0x300) [.cycle, .cycle] ∧
      RunsAlike (Machine.SameButByte 0x300) ⟨m, random⟩ ⟨n, random⟩ [.cycle] ∧
      (run ⟨m, random⟩ [.cycle]).machine.Stores 0x300 ∧
      run ⟨n, random⟩ [.cycle, .cycle, .cycle] = run ⟨m, random⟩ [.cycle, .cycle, .cycle] := by
  obtain ⟨loaded, hrun, hreached, hstands, hloaded, -⟩ :=
    exists_loaded .standard (fun _ => 0) (show storeThenLoad.size ≤ _ by decide)
  rw [hrun]
  intro m n random
  let second := run ⟨m, random⟩ [.cycle]
  have hreach : m.Reachable := hreached []
  have hstart : m.Stands storeThenLoad 0 := hstands
  obtain ⟨h200, hset, hnext⟩ := goes_on (c := ⟨m, random⟩) hstart (by decide)
    (show Instruction.decode? _ = some (.setIndex 0x300) by decide) rfl rfl rfl
  have h202 : second.machine.Executes (.storeRegisters 0) :=
    hnext.executes (by decide) (by decide)
  have hindex : second.machine.index = 0x300 := hset.index
  have hsame : m.SameButByte 0x300 n := ⟨_, .patch_byte m.memory 0x300 0xFF, rfl⟩
  have hunread : EveryCycle ⟨m, random⟩ (¬ ·.Reads 0x300) [.cycle, .cycle] := by
    refine ⟨?_, ?_, trivial⟩
    · intro _ hreads
      cases hreads with
      | word _ _ ha => exact absurd ha (by rw [hstart.pc]; decide)
      | operand hins ha =>
        cases h200.unique hins
        exact ha
    · intro _ hreads
      cases hreads with
      | word _ _ ha => exact absurd ha (by rw [hnext.pc]; decide)
      | operand hins ha =>
        cases h202.unique hins
        exact ha
  have hstores : second.machine.Stores 0x300 := by
    apply Machine.Stores.registers h202 <;> rw [hindex] <;> decide
  obtain ⟨halike, hforgotten⟩ := unread_byte_irrelevant hreach hsame random
  refine ⟨hreach, hsame, ?_, ?_, hunread, halike _ (everyCycle_append.mp hunread).1, hstores,
    hforgotten [.cycle] [.cycle] hunread hstores⟩
  · exact Memory.byte_patch m.memory 0x300 [0xFF] (show 0x300 < 4096 by decide)
  · change loaded.machine.memory.byte 0x300 = 0
    rw [hloaded]
    exact Memory.byte_ofProgram storeThenLoad (show 0x300 < 4096 by decide)

end Console

end ChipEight
