import ChipEight.Machine.Cycle
import ChipEight.Proofs.Fields
import ChipEight.Proofs.Storage

/-!
# What a cycle does

A cycle asks for a key, fails before anything is executed, or executes the instruction
at the program counter (`cycle_cases`). `Executes` names that instruction.
-/
namespace ChipEight

namespace Instruction

theorem ofNat_mod_lt (n : Nat) {bound : Nat} (hpos : 0 < bound) (hle : bound ≤ 65536) :
    (UInt16.ofNat (n % bound)).toNat < bound := by
  have hlt := Nat.mod_lt n hpos
  rw [UInt16.toNat_ofNat', Nat.mod_eq_of_lt (by omega)]
  exact hlt

/-- What was cut out of a word fits the places that a word has. -/
theorem decode_inRange {w : Word} {ins : Instruction} (h : decode? w = some ins) :
    ins.InRange := by
  have haddress : w.address.toNat < 4096 := ofNat_mod_lt _ (by decide) (by decide)
  have hnibble : w.nibble.toNat < 16 := by
    have hlt := Nat.mod_lt w.toNat (show 0 < 16 by decide)
    rw [Word.nibble, UInt8.toNat_ofNat', Nat.mod_eq_of_lt (by omega)]
    exact hlt
  unfold decode? at h
  split at h
  case h_1 =>
    split at h
    · cases h; trivial
    · split at h
      · cases h; trivial
      · cases h; exact haddress
  case h_2 | h_3 | h_11 | h_12 => cases h; exact haddress
  case h_6 | h_10 =>
    split at h
    · cases h; trivial
    · cases h
  case h_9 =>
    obtain ⟨op, -, rfl⟩ := Option.map_eq_some_iff.mp h
    trivial
  case h_14 => cases h; exact hnibble
  case h_15 =>
    unfold decodeKey? at h
    split at h <;> cases h <;> trivial
  case h_16 =>
    unfold decodeDevice? at h
    split at h <;> cases h <;> trivial
  case h_17 => cases h
  all_goals cases h; trivial

end Instruction

namespace Machine

/-- The machine with its program counter behind the next instruction. -/
def advance (m : Machine) : Machine := { m with pc := m.pc + 2 }

theorem storedBytes_advance (m : Machine) (ins : Instruction) :
    m.advance.storedBytes ins = m.storedBytes ins := by
  cases ins <;> rfl

/-- The word at the program counter. -/
def word (m : Machine) : Word := m.memory.wordAt m.pc.toNat

/-- The next cycle executes this instruction. -/
structure Executes (m : Machine) (ins : Instruction) : Prop where
  idle : m.awaiting = none
  pc_le : m.pc.toNat ≤ 0xFFE
  decoded : Instruction.decode? m.word = some ins

theorem Executes.unique {m : Machine} {ins other : Instruction} (h : m.Executes ins)
    (h' : m.Executes other) : ins = other :=
  Option.some.inj (h.decoded.symm.trans h'.decoded)

theorem Executes.inRange {m : Machine} {ins : Instruction} (h : m.Executes ins) : ins.InRange :=
  Instruction.decode_inRange h.decoded

theorem fetch_of_past_end {m : Machine} (hpc : 0xFFE < m.pc.toNat) :
    m.fetch = .error (.addressOutOfRange (m.pc.toNat + 1)) := by
  simp only [fetch, Memory.fetch_eq, if_pos hpc]

theorem fetch_of_undecoded {m : Machine} (hpc : m.pc.toNat ≤ 0xFFE)
    (hword : Instruction.decode? m.word = none) :
    m.fetch = .error (.unknownInstruction m.word m.pc) := by
  rw [word] at hword
  simp only [fetch, Memory.fetch_eq, if_neg (Nat.not_lt.mpr hpc), hword]
  rfl

theorem Executes.fetch_eq {m : Machine} {ins : Instruction} (h : m.Executes ins) :
    m.fetch = .ok (m.word, ins) := by
  have hdecoded := h.decoded
  rw [word] at hdecoded
  simp only [fetch, Memory.fetch_eq, if_neg (Nat.not_lt.mpr h.pc_le), hdecoded]
  rfl

theorem cycle_of_awaiting {m : Machine} {x : Register} (h : m.awaiting = some x)
    (random : RandomWords) : m.cycle random = m.pollKey random x := by
  simp only [cycle, h]

/-- Where nothing can be fetched a cycle changes nothing. -/
theorem cycle_of_fetch_error {m : Machine} (hidle : m.awaiting = none) {fault : Fault}
    (hfetch : m.fetch = .error fault) (random : RandomWords) :
    m.cycle random = ⟨m, random, .error fault, []⟩ := by
  simp only [cycle, hidle, hfetch]

theorem cycle_of_past_end {m : Machine} (hidle : m.awaiting = none) (hpc : 0xFFE < m.pc.toNat)
    (random : RandomWords) :
    m.cycle random = ⟨m, random, .error (.addressOutOfRange (m.pc.toNat + 1)), []⟩ :=
  cycle_of_fetch_error hidle (fetch_of_past_end hpc) random

theorem cycle_of_undecoded {m : Machine} (hidle : m.awaiting = none) (hpc : m.pc.toNat ≤ 0xFFE)
    (hword : Instruction.decode? m.word = none) (random : RandomWords) :
    m.cycle random = ⟨m, random, .error (.unknownInstruction m.word m.pc), []⟩ :=
  cycle_of_fetch_error hidle (fetch_of_undecoded hpc hword) random

theorem Executes.cycle_eq {m : Machine} {ins : Instruction} (h : m.Executes ins)
    (random : RandomWords) : m.cycle random = m.step random m.word ins := by
  simp only [cycle, h.idle, h.fetch_eq]

/-- The four things that a cycle can be about. -/
theorem cycle_cases (m : Machine) :
    (∃ x, m.awaiting = some x) ∨
      (m.awaiting = none ∧ 0xFFE < m.pc.toNat) ∨
      (m.awaiting = none ∧ m.pc.toNat ≤ 0xFFE ∧ Instruction.decode? m.word = none) ∨
      ∃ ins, m.Executes ins := by
  cases hidle : m.awaiting with
  | some x => exact Or.inl ⟨x, rfl⟩
  | none =>
    by_cases hpc : 0xFFE < m.pc.toNat
    · exact Or.inr (Or.inl ⟨rfl, hpc⟩)
    · cases hword : Instruction.decode? m.word with
      | none => exact Or.inr (Or.inr (Or.inl ⟨rfl, by omega, rfl⟩))
      | some ins => exact Or.inr (Or.inr (Or.inr ⟨ins, hidle, by omega, hword⟩))

theorem executes_of_fetch {m : Machine} (hidle : m.awaiting = none) {word : Word}
    {ins : Instruction} (hfetch : m.fetch = .ok (word, ins)) : m.Executes ins := by
  rcases m.cycle_cases with ⟨x, hx⟩ | ⟨-, hpc⟩ | ⟨-, hpc, hword⟩ | ⟨other, hother⟩
  · rw [hidle] at hx
    cases hx
  · rw [fetch_of_past_end hpc] at hfetch
    cases hfetch
  · rw [fetch_of_undecoded hpc hword] at hfetch
    cases hfetch
  · rw [hother.fetch_eq] at hfetch
    cases hfetch
    exact hother

/-- The instruction that the next cycle executes, if it gets that far. -/
def upcoming? (m : Machine) : Option Instruction :=
  match m.awaiting, m.fetch with
  | none, .ok (_, ins) => some ins
  | _, _ => none

theorem upcoming?_eq_some_iff {m : Machine} {ins : Instruction} :
    m.upcoming? = some ins ↔ m.Executes ins := by
  unfold upcoming?
  constructor
  · intro h
    split at h
    · rename_i hidle hfetch
      obtain rfl := Option.some.inj h
      exact executes_of_fetch hidle hfetch
    · cases h
  · intro h
    rw [h.idle, h.fetch_eq]

/-- An idle machine executes what stands at its program counter in the program that was
loaded. -/
theorem executes_of_load {m : Machine} {memory : Memory} {program : Array UInt8}
    (hload : memory.load program = .ok m.memory) (hidle : m.awaiting = none) (k : Nat)
    (hpc : m.pc.toNat = 0x200 + k) (hend : k ≤ 0xDFE) {ins : Instruction}
    (hdecoded : Instruction.decode?
      (UInt16.ofNat (256 * ((program[k]?).getD 0).toNat + ((program[k + 1]?).getD 0).toNat)) =
        some ins) : m.Executes ins where
  idle := hidle
  pc_le := by omega
  decoded := by rw [word, hpc, Memory.wordAt_load_add hload, hdecoded]

/-- An instruction is executed with the program counter behind it. -/
theorem step_eq (m : Machine) (random : RandomWords) (word : Word) (ins : Instruction) :
    m.step random word ins =
      match (m.advance.execute random m.pc ins).fault with
      | some fault =>
          ⟨m.advance.after random ins, (m.advance.execute random m.pc ins).random, .error fault,
            [.executing m.pc word ins]⟩
      | none =>
          if (m.advance.after random ins).isWaiting then
            ⟨m.advance.after random ins, (m.advance.execute random m.pc ins).random,
              .ok .suspended, [.executing m.pc word ins, .waitingForKey m.pc]⟩
          else
            ⟨(m.advance.after random ins).countCycle,
              (m.advance.execute random m.pc ins).random, .ok .executed,
              [.executing m.pc word ins]⟩ := by
  rw [← execute_machine m.advance random m.pc ins]
  rfl

/-- To keep something over a cycle is to keep it when a key arrives, when an instruction is
executed, and when the timers count. -/
theorem cycle_keeps {P : Machine → Prop} {m : Machine} (random : RandomWords) (h : P m)
    (hkey : ∀ x key, m.awaiting = some x → m.keypad.pressed = some key →
      P ({ m with keypad := m.keypad.takePress.2, awaiting := none }.setRegister x key))
    (hins : ∀ ins, m.Executes ins → P (m.advance.after random ins))
    (hcount : ∀ after : Machine, P after → P after.countCycle) :
    P (m.cycle random).machine := by
  rcases m.cycle_cases with ⟨x, hx⟩ | ⟨hidle, hpc⟩ | ⟨hidle, hpc, hword⟩ | ⟨ins, hexecutes⟩
  · rw [cycle_of_awaiting hx]
    unfold pollKey
    cases hpressed : m.keypad.pressed with
    | none =>
      rw [Keypad.takePress, hpressed]
      exact h
    | some key =>
      have harrived := hkey x key hx hpressed
      rw [Keypad.takePress, hpressed] at harrived ⊢
      exact hcount _ harrived
  · rw [cycle_of_past_end hidle hpc]
    exact h
  · rw [cycle_of_undecoded hidle hpc hword]
    exact h
  · have hafter := hins ins hexecutes
    rw [hexecutes.cycle_eq, step_eq]
    split
    · exact hafter
    · split
      · exact hafter
      · exact hcount _ hafter

end Machine

end ChipEight
