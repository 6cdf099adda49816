import ChipEight.Proofs.Assembling
import ChipEight.Proofs.Footprint
import ChipEight.Proofs.Standing

/-!
# Code in memory

A machine stands at a list of instructions if their words lie one after the other from an address
on and its program counter is that address (`Machine.At`). When an instruction of such a list that
goes on to the next one was executed, the machine stands at the rest of the list, unless the
instruction has stored something over it (`Machine.At.next`).
-/
namespace ChipEight

namespace Memory

/-- The words of the instructions lie one after the other from an address on. -/
def Holds (memory : Memory) (addr : Nat) : List Instruction → Prop
  | [] => True
  | ins :: rest => memory.wordAt addr = ins.encode ∧ memory.Holds (addr + 2) rest

variable {memory other : Memory} {addr : Nat} {code : List Instruction}

/-- Code stays where it is while its bytes do. -/
theorem Holds.congr (h : memory.Holds addr code)
    (hsame : ∀ a, addr ≤ a → a < addr + 2 * code.length → other.byte a = memory.byte a) :
    other.Holds addr code := by
  induction code generalizing addr with
  | nil => trivial
  | cons ins rest ih =>
    obtain ⟨hword, hrest⟩ := h
    rw [List.length_cons] at hsame
    constructor
    · rw [wordAt, hsame addr (by omega) (by omega), hsame (addr + 1) (by omega) (by omega)]
      exact hword
    · exact ih hrest fun a hle hlt => hsame a (by omega) (by omega)

theorem holds_of_getElem (h : ∀ k (hk : k < code.length),
    memory.wordAt (addr + 2 * k) = code[k].encode) : memory.Holds addr code := by
  induction code generalizing addr with
  | nil => trivial
  | cons ins rest ih =>
    refine ⟨h 0 (Nat.succ_pos _), ih fun k hk => ?_⟩
    have hword := h (k + 1) (Nat.succ_lt_succ hk)
    rwa [Nat.mul_succ, Nat.add_comm (2 * k), ← Nat.add_assoc] at hword

/-- A program that was loaded lies where programs start. -/
theorem holds_assemble {after : Memory} {program : List Instruction}
    (h : memory.load (Instruction.assemble program) = .ok after) : after.Holds 0x200 program :=
  holds_of_getElem fun _ hk => Instruction.wordAt_assemble h hk

end Memory

namespace Machine

/-- The machine is about to execute the instructions at an address, if nothing comes in between. -/
structure At (m : Machine) (addr : Nat) (code : List Instruction) : Prop where
  wellFormed : m.WellFormed
  idle : m.awaiting = none
  pc : m.pc.toNat = addr
  holds : m.memory.Holds addr code
  room : addr + 2 * code.length ≤ 0x1000

variable {m : Machine} {addr : Nat} {ins : Instruction} {rest : List Instruction}

theorem At.executes (h : m.At addr (ins :: rest)) (hins : ins.Assemblable) : m.Executes ins where
  idle := h.idle
  pc_le := by
    have hroom := h.room
    rw [List.length_cons] at hroom
    rw [h.pc]
    omega
  decoded := by
    rw [word, h.pc, h.holds.1]
    exact Instruction.decode?_encode hins

/-- Keys do not get in the way of code. -/
theorem At.press {code : List Instruction} (h : m.At addr code) (key : UInt8) :
    (m.press key).At addr code :=
  ⟨h.wellFormed.press key, h.idle, h.pc, h.holds, h.room⟩

theorem At.advance (h : m.At addr (ins :: rest)) : m.advance.At (addr + 2) rest := by
  have hroom := h.room
  rw [List.length_cons] at hroom
  have hpc : m.pc.toNat ≤ 0xFFE := by
    rw [h.pc]
    omega
  have hadvanced : m.advance.pc.toNat = addr + 2 :=
    (toNat_pc_add_two (Nat.le_trans hpc (by decide))).trans (congrArg (· + 2) h.pc)
  exact ⟨(h.wellFormed.advance hpc).1, h.idle, hadvanced, h.holds.2, by omega⟩

/-- One instruction of a list that is executed in its order. -/
theorem At.next (h : m.At addr (ins :: rest)) (hins : ins.Assemblable) (hgoes : ins.goesOn = true)
    (hapart : ∀ a, m.index.toNat ≤ a → a < m.index.toNat + (m.storedBytes ins).length →
      a < addr + 2 ∨ addr + 2 + 2 * rest.length ≤ a)
    {random : RandomWords} (hcompletes : m.Completes random ins) :
    (m.cycle random).machine.At (addr + 2) rest := by
  have hexecutes := h.executes hins
  have hpc : (m.cycle random).machine.pc = m.advance.pc :=
    hcompletes.pc.trans (m.advance.pcAfter_of_goesOn hgoes)
  obtain ⟨-, -, hadvanced, hholds, hroom⟩ := h.advance
  refine ⟨h.wellFormed.cycle random, hcompletes.idle, ?_, ?_, hroom⟩
  · rw [hpc, hadvanced]
  · rw [hcompletes.memory]
    refine hholds.congr fun a hle hlt => byte_after h.wellFormed hexecutes random ?_
    intro hstores
    obtain ⟨other, hother, -, hfirst, hlast⟩ := hstores.executes
    obtain rfl := hexecutes.unique hother
    rw [storedBytes_advance] at hlast
    rcases hapart a hfirst hlast with hbefore | hbehind
    · exact absurd hle (Nat.not_le.mpr hbefore)
    · exact absurd hlt (Nat.not_lt.mpr hbehind)

theorem At.completes (h : m.At addr (ins :: rest)) (hins : ins.Assemblable)
    (hgoes : ins.goesOn = true) (hfault : m.faultOf m.pc ins = none) (random : RandomWords) :
    m.Completes random ins := by
  refine (h.executes hins).completes h.wellFormed random hfault ?_
  rintro x rfl
  cases hgoes

/-- An instruction that stores nothing cannot get in the way of the next ones. -/
theorem At.next_of_not_stores (h : m.At addr (ins :: rest)) (hins : ins.Assemblable)
    (hgoes : ins.goesOn = true) (hkeeps : m.storedBytes ins = []) {random : RandomWords}
    (hcompletes : m.Completes random ins) : (m.cycle random).machine.At (addr + 2) rest := by
  refine h.next hins hgoes (fun a hle hlt => ?_) hcompletes
  rw [hkeeps] at hlt
  exact absurd hle (Nat.not_le.mpr hlt)

theorem At.cycle_of_not_stores (h : m.At addr (ins :: rest)) (hins : ins.Assemblable)
    (hgoes : ins.goesOn = true) (hkeeps : m.storedBytes ins = [])
    (hfault : m.faultOf m.pc ins = none) (random : RandomWords) :
    m.Completes random ins ∧ (m.cycle random).machine.At (addr + 2) rest := by
  have hcompletes := h.completes hins hgoes hfault random
  exact ⟨hcompletes, h.next_of_not_stores hins hgoes hkeeps hcompletes⟩

theorem Executes.not_stores (h : m.Executes ins) (hkeeps : m.storedBytes ins = []) (a : Nat) :
    ¬ m.Stores a := by
  intro hstores
  obtain ⟨other, hother, -, hle, hlt⟩ := hstores.executes
  obtain rfl := h.unique hother
  rw [storedBytes_advance, hkeeps] at hlt
  exact absurd hle (Nat.not_le.mpr hlt)

/-- A program that fits is executed from its first instruction on. -/
theorem at_loaded (settings : Settings) {program : List Instruction}
    (hroom : 2 * program.length ≤ Memory.programRoom) :
    (Machine.loaded settings (Instruction.assemble program)).At 0x200 program := by
  have hsize : (Instruction.assemble program).size ≤ Memory.programRoom := by
    rwa [Instruction.size_assemble]
  have hload := load_of_fits (wellFormed_fresh settings).font ⟨rfl, rfl⟩ hsize
  refine ⟨(wellFormed_fresh settings).load hload, rfl, rfl, ?_, Nat.add_le_add_left hroom 0x200⟩
  exact Memory.holds_assemble (Memory.hasFont_fresh.load_of_fits hsize)

end Machine

end ChipEight
