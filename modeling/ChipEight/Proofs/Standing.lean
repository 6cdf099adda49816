import ChipEight.Proofs.Completion
import ChipEight.Proofs.Reload

/-!
# Where a machine stands in its program

A program lies in memory as it was loaded until something is stored. Up to then a machine executes
the instruction whose bytes are at its place in the program, and one that neither stores nor
branches takes it to the place behind (`Machine.Stands.next`).
-/
namespace ChipEight

/-- After the instruction comes the one behind it. -/
def Instruction.goesOn : Instruction → Bool
  | .ret | .system _ | .jump _ | .call _ | .callIndexed _ | .skipByte _ _ _ | .skipRegister _ _ _
  | .skipKey _ _ | .waitKey _ => false
  | _ => true

theorem Instruction.ne_waitKey_of_goesOn {ins : Instruction} (h : ins.goesOn = true)
    (x : Register) : ins ≠ .waitKey x := by
  rintro rfl
  cases h

namespace Machine

/-- The machine is about to execute what stands at byte `k` of a program that lies in memory as it
was loaded. -/
structure Stands (m : Machine) (program : Array UInt8) (k : Nat) : Prop where
  wellFormed : m.WellFormed
  idle : m.awaiting = none
  pc : m.pc.toNat = 0x200 + k
  loaded : Memory.fresh.load program = .ok m.memory

variable {m : Machine} {program : Array UInt8} {k : Nat} {ins : Instruction}

theorem stands_loaded (settings : Settings) (hsize : program.size ≤ Memory.programRoom) :
    (loaded settings program).Stands program 0 :=
  ⟨(wellFormed_fresh settings).load (load_fresh settings hsize), rfl, rfl,
    Memory.hasFont_fresh.load_of_fits hsize⟩

theorem registers_loaded (settings : Settings) (program : Array UInt8) (r : Register) :
    (loaded settings program).registers.get r = 0 := by
  simp [loaded, Registers.get]

theorem Stands.executes (h : m.Stands program k) (hend : k ≤ 0xDFE)
    (hdecoded : Instruction.decode?
      (UInt16.ofNat (256 * ((program[k]?).getD 0).toNat + ((program[k + 1]?).getD 0).toNat)) =
        some ins) : m.Executes ins :=
  executes_of_load h.loaded h.idle k h.pc hend hdecoded

theorem Stands.press (h : m.Stands program k) (key : UInt8) : (m.press key).Stands program k :=
  ⟨h.wellFormed.press key, h.idle, h.pc, h.loaded⟩

theorem Stands.release (h : m.Stands program k) (key : UInt8) :
    (m.release key).Stands program k :=
  ⟨h.wellFormed.release key, h.idle, h.pc, h.loaded⟩

theorem Stands.elapse (h : m.Stands program k) (ticks : UInt8) :
    (m.elapse ticks).Stands program k :=
  ⟨h.wellFormed.elapse ticks, h.idle, h.pc, h.loaded⟩

theorem pcAfter_of_goesOn (m : Machine) (h : ins.goesOn = true) : m.pcAfter ins = m.pc := by
  cases ins with
  | ret | system | jump | call | callIndexed => cases h
  | skipByte | skipRegister | skipKey | waitKey => cases h
  | _ => rfl

/-- An instruction that stores nothing takes the machine to another place in its program. -/
theorem Stands.moves (h : m.Stands program k) {random : RandomWords}
    (hcompletes : m.Completes random ins) (hkeeps : m.storedBytes ins = []) {next : Nat}
    (hpc : (m.cycle random).machine.pc.toNat = 0x200 + next) :
    (m.cycle random).machine.Stands program next := by
  have hmemory : (m.cycle random).machine.memory = m.memory := by
    rw [hcompletes.memory]
    change (m.memory.store _ (m.advance.storedBytes ins)).1 = _
    rw [storedBytes_advance, hkeeps]
    rfl
  exact ⟨h.wellFormed.cycle random, hcompletes.idle, hpc, hmemory ▸ h.loaded⟩

theorem Stands.next (h : m.Stands program k) (hins : m.Executes ins) (hgoes : ins.goesOn = true)
    (hkeeps : m.storedBytes ins = []) (hfault : m.faultOf m.pc ins = none)
    (random : RandomWords) :
    m.Completes random ins ∧ (m.cycle random).machine.Stands program (k + 2) := by
  have hcompletes :=
    hins.completes h.wellFormed random hfault (Instruction.ne_waitKey_of_goesOn hgoes)
  have hpc : (m.cycle random).machine.pc = m.pc + 2 :=
    hcompletes.pc.trans (m.advance.pcAfter_of_goesOn hgoes)
  refine ⟨hcompletes, h.moves hcompletes hkeeps ?_⟩
  rw [hpc, toNat_pc_add_two (Nat.le_trans hins.pc_le (by decide)), h.pc, Nat.add_assoc]

theorem Stands.word_eq (h : m.Stands program k) :
    m.word =
      UInt16.ofNat (256 * ((program[k]?).getD 0).toNat + ((program[k + 1]?).getD 0).toNat) := by
  rw [word, h.pc, Memory.wordAt_load_add h.loaded]

end Machine

namespace Console

/-- A cycle goes on in the program, if its bytes are those of an instruction that does. -/
theorem goes_on {c : Console} {program : Array UInt8} {k : Nat} {ins : Instruction}
    (h : c.machine.Stands program k) (hend : k ≤ 0xDFE)
    (hdecoded : Instruction.decode?
      (UInt16.ofNat (256 * ((program[k]?).getD 0).toNat + ((program[k + 1]?).getD 0).toNat)) =
        some ins) (hgoes : ins.goesOn = true) (hkeeps : c.machine.storedBytes ins = [])
    (hfault : c.machine.faultOf c.machine.pc ins = none) :
    c.machine.Executes ins ∧ c.machine.Completes c.random ins ∧
      (c.perform .cycle).console.machine.Stands program (k + 2) := by
  have hins := h.executes hend hdecoded
  exact ⟨hins, h.next hins hgoes hkeeps hfault c.random⟩

/-- A run that begins with a load goes on from the loaded machine. -/
theorem exists_loaded (settings : Settings) (word : Nat → UInt32) {program : Array UInt8}
    (hsize : program.size ≤ Memory.programRoom) :
    ∃ c : Console, (∀ rest, (fresh settings word).run (.load program :: rest) = c.run rest) ∧
      (∀ rest, (c.run rest).machine.Reachable) ∧ c.machine.Stands program 0 ∧
      c.machine = .loaded settings program ∧ c.random = .ofSequence word := by
  have hrun (rest : List Operation) : (fresh settings word).run (.load program :: rest) =
      run ⟨.loaded settings program, .ofSequence word⟩ rest := by
    rw [run_cons, perform_load settings word hsize]
  have hstands := Machine.stands_loaded settings hsize
  refine ⟨⟨.loaded settings program, .ofSequence word⟩, hrun,
    fun rest => ⟨settings, word, .load program :: rest, ?_⟩, hstands, rfl, rfl⟩
  rw [hrun]

end Console

end ChipEight
