import ChipEight.Proofs.KeyOrder
import Mathlib.Tactic.Tauto

/-!
# The latch of a key is its last event

Cycles leave the latches alone, and what is no key has none. So a latch is down exactly if the
last event of its key was a press, as far as there was one since the last load that succeeded
(`isDown_run_iff`). The two instructions that ask for a key go by that latch.
-/
namespace ChipEight

namespace Keypad

theorem isDown_idle (key : UInt8) : idle.isDown key = false := by
  simp only [isDown, idle, Vector.getElem?_replicate]
  split <;> rfl

theorem isDown_of_lt (pad : Keypad) {key : UInt8} (hkey : key.toNat < 16) :
    pad.isDown key = pad.down[key.toNat] := by
  rw [isDown, Vector.getElem?_eq_getElem hkey, Option.getD_some]

theorem isDown_of_ge (pad : Keypad) {key : UInt8} (hkey : 16 ≤ key.toNat) :
    pad.isDown key = false := by
  rw [isDown, Vector.getElem?_eq_none hkey, Option.getD_none]

/-- The number is that of a key, and the latch of this key is as given. -/
def Latched (pad : Keypad) (key : UInt8) (down : Bool) : Prop :=
  ∃ hkey : key.toNat < 16, pad.down[key.toNat] = down

theorem latched_iff (pad : Keypad) (key : UInt8) : pad.Latched key true ↔ pad.isDown key = true := by
  by_cases hkey : key.toNat < 16
  · rw [isDown_of_lt pad hkey, Latched, exists_prop_of_true hkey]
  · rw [isDown_of_ge pad (Nat.le_of_not_lt hkey)]
    exact iff_of_false (fun hlatched => hkey hlatched.1) Bool.false_ne_true

/-- A number is that of no key, or the latch is up, exactly if the latch is not down. -/
theorem not_latched_iff (pad : Keypad) (key : UInt8) :
    16 ≤ key.toNat ∨ pad.Latched key false ↔ pad.isDown key = false := by
  by_cases hkey : key.toNat < 16
  · rw [isDown_of_lt pad hkey, Latched, exists_prop_of_true hkey, or_iff_right (Nat.not_le.mpr hkey)]
  · have hge := Nat.le_of_not_lt hkey
    exact iff_of_true (Or.inl hge) (pad.isDown_of_ge hge)

end Keypad

namespace Machine

variable {m : Machine}

theorem cycle_down (m : Machine) (random : RandomWords) :
    (m.cycle random).machine.keypad.down = m.keypad.down := by
  apply cycle_keeps (P := fun after => after.keypad.down = m.keypad.down) random rfl
  · intro x key hx hpressed
    simp only [setRegister, Keypad.takePress, hpressed]
  · intro ins hins
    cases ins <;> rfl
  · intro after hafter
    rw [countCycle_eq]
    exact hafter

/-- The next cycle is executed, and passes over an instruction exactly if the condition holds. -/
structure PassesOverIff (m : Machine) (random : RandomWords) (condition : Prop) : Prop where
  executed : (m.cycle random).result = .ok .executed
  skips : condition → (m.cycle random).machine.pc.toNat = m.pc.toNat + 4
  stays : ¬ condition → (m.cycle random).machine.pc.toNat = m.pc.toNat + 2

theorem Executes.passesOver {x : Register} {negated : Bool}
    (hins : m.Executes (.skipKey x negated)) (h : m.WellFormed) (random : RandomWords) :
    m.PassesOverIff random (m.keypad.isDown (m.registers.get x) ≠ negated) := by
  have hle := hins.pc_le
  have hpc := hins.pc_of_skipKey h random
  have hnext : (m.pc + 2).toNat = m.pc.toNat + 2 := toNat_pc_add_two (by omega)
  constructor
  · rw [hins.cycle_of_no_fault h random rfl (by rintro y ⟨⟩)]
  · intro hskips
    rw [hpc, if_pos (bne_iff_ne.mpr hskips), toNat_pc_add_two (by omega), hnext]
  · intro hstays
    rw [hpc, if_neg (fun hskips => hstays (bne_iff_ne.mp hskips)), hnext]

end Machine

namespace Console

/-- The operation is no event of the key, and no load that succeeds. -/
structure Spares (c : Console) (key : UInt8) (operation : Operation) : Prop where
  press : operation ≠ .press key
  release : operation ≠ .release key
  load : (c.perform operation).answer ≠ .loaded (.ok ())

/-- The key has no event in a run, and no load succeeds. -/
def Untouched (c : Console) (key : UInt8) : List Operation → Prop
  | [] => True
  | operation :: rest =>
      c.Spares key operation ∧ (c.perform operation).console.Untouched key rest

/-- The last event of the key in a run is a press, and no load succeeded after it. -/
def LastPressed (c : Console) (key : UInt8) (operations : List Operation) : Prop :=
  ∃ before later, operations = before ++ .press key :: later ∧
    (c.run (before ++ [.press key])).Untouched key later

variable {c : Console} {key : UInt8}

theorem lastPressed_nil (c : Console) (key : UInt8) : ¬ c.LastPressed key [] := by
  rintro ⟨before, later, heq, -⟩
  simp at heq

theorem lastPressed_cons {operation : Operation} {rest : List Operation} :
    c.LastPressed key (operation :: rest) ↔
      operation = .press key ∧ (c.perform operation).console.Untouched key rest ∨
        (c.perform operation).console.LastPressed key rest := by
  constructor
  · rintro ⟨before, later, heq, hlater⟩
    cases before with
    | nil =>
      obtain ⟨rfl, rfl⟩ := List.cons.inj heq
      exact Or.inl ⟨rfl, hlater⟩
    | cons first before =>
      obtain ⟨rfl, rfl⟩ := List.cons.inj heq
      exact Or.inr ⟨before, later, rfl, hlater⟩
  · rintro (⟨rfl, hrest⟩ | ⟨before, later, rfl, hlater⟩)
    · exact ⟨[], rest, rfl, hrest⟩
    · exact ⟨operation :: before, later, rfl, hlater⟩

theorem spares_cycle (c : Console) (key : UInt8) : c.Spares key .cycle where
  press := by rintro ⟨⟩
  release := by rintro ⟨⟩
  load := by rintro ⟨⟩

theorem spares_elapse (c : Console) (key ticks : UInt8) : c.Spares key (.elapse ticks) where
  press := by rintro ⟨⟩
  release := by rintro ⟨⟩
  load := by rintro ⟨⟩

theorem spares_press (c : Console) {k : UInt8} (hk : k ≠ key) : c.Spares key (.press k) where
  press := fun heq => hk (Operation.press.inj heq)
  release := by rintro ⟨⟩
  load := by rintro ⟨⟩

theorem spares_release (c : Console) {k : UInt8} (hk : k ≠ key) : c.Spares key (.release k) where
  press := by rintro ⟨⟩
  release := fun heq => hk (Operation.release.inj heq)
  load := by rintro ⟨⟩

/-- What one operation makes of the latch of a key. -/
theorem isDown_perform_iff (c : Console) (hkey : key.toNat < 16) (operation : Operation) :
    (c.perform operation).console.machine.keypad.isDown key = true ↔
      operation = .press key ∨ c.Spares key operation ∧ c.machine.keypad.isDown key = true := by
  cases operation with
  | load program =>
    have hpress : Operation.load program ≠ .press key := by rintro ⟨⟩
    rw [or_iff_right hpress]
    cases hload : c.machine.load program with
    | ok after =>
      obtain ⟨memory, -, rfl⟩ := Machine.load_ok hload
      have hanswer := congrArg OperationReport.answer (perform_load_ok hload)
      rw [perform_load_ok hload]
      refine iff_of_false ?_ fun hspares => hspares.1.load hanswer
      exact Bool.eq_false_iff.mp (Keypad.isDown_idle key)
    | error fault =>
      have hrefused : c.perform (.load program) = ⟨c, .loaded (.error fault), []⟩ := by
        rw [perform, hload]
      have hspares : c.Spares key (.load program) := by
        refine ⟨hpress, by rintro ⟨⟩, ?_⟩
        rw [hrefused]
        rintro ⟨⟩
      rw [hrefused, and_iff_right hspares]
  | cycle =>
    have hspares := c.spares_cycle key
    rw [or_iff_right hspares.press, and_iff_right hspares]
    simp only [perform, Keypad.isDown, Machine.cycle_down]
  | press k =>
    change (c.machine.keypad.receive k true).isDown key = true ↔ _
    rw [Keypad.isDown_receive]
    by_cases hk : k = key
    · rw [if_pos ⟨hk, hkey⟩, hk]
      exact iff_of_true rfl (Or.inl rfl)
    · have hspares := c.spares_press hk
      rw [if_neg fun hsame => hk hsame.1, or_iff_right hspares.press, and_iff_right hspares]
  | release k =>
    change (c.machine.keypad.receive k false).isDown key = true ↔ _
    rw [Keypad.isDown_receive]
    by_cases hk : k = key
    · rw [if_pos ⟨hk, hkey⟩, hk]
      refine iff_of_false Bool.false_ne_true ?_
      rintro (hpress | ⟨hspares, -⟩)
      · cases hpress
      · exact hspares.release rfl
    · have hspares := c.spares_release hk
      rw [if_neg fun hsame => hk hsame.1, or_iff_right hspares.press, and_iff_right hspares]
  | elapse ticks =>
    have hspares := c.spares_elapse key ticks
    rw [or_iff_right hspares.press, and_iff_right hspares]
    rfl

/-- A latch is down after a run exactly if a press has put it down last, or if it was down before
and the run did not touch it. -/
theorem isDown_run_iff (c : Console) (hkey : key.toNat < 16) (operations : List Operation) :
    (c.run operations).machine.keypad.isDown key = true ↔
      c.LastPressed key operations ∨
        c.Untouched key operations ∧ c.machine.keypad.isDown key = true := by
  induction operations generalizing c with
  | nil => rw [run_nil, or_iff_right (lastPressed_nil c key), Untouched, true_and]
  | cons operation rest ih =>
    rw [run_cons, ih, isDown_perform_iff c hkey, lastPressed_cons, Untouched]
    tauto

/-- Of a machine that started with all keys up, the latch of a key is down exactly if the last
event of the key since the last load that succeeded was a press. The two instructions that ask for
a key are executed in every state, and pass over an instruction by what the latch says; a number
that is no key counts as up. -/
theorem latch_of_last_event (settings : Settings) (word : Nat → UInt32)
    (operations : List Operation) :
    let start := fresh settings word
    let m := (start.run operations).machine
    (∀ (key : UInt8) (hkey : key.toNat < 16),
        m.keypad.down[key.toNat] = true ↔ start.LastPressed key operations) ∧
      ∀ (x : Register) (random : RandomWords),
        (m.Executes (.skipKey x false) →
            m.PassesOverIff random (m.keypad.Latched (m.registers.get x) true)) ∧
          (m.Executes (.skipKey x true) →
            m.PassesOverIff random
              (16 ≤ (m.registers.get x).toNat ∨ m.keypad.Latched (m.registers.get x) false)) := by
  intro start m
  have hstart : start.machine.WellFormed := Machine.wellFormed_fresh settings
  have hm : m.WellFormed := run_wellFormed hstart operations
  refine ⟨fun key hkey => ?_, fun x random => ⟨fun hins => ?_, fun hins => ?_⟩⟩
  · have hup : ¬ start.machine.keypad.isDown key = true :=
      Bool.eq_false_iff.mp (Keypad.isDown_idle key)
    rw [← m.keypad.isDown_of_lt hkey, isDown_run_iff start hkey, or_iff_left fun h => hup h.2]
  · rw [Keypad.latched_iff, ← Bool.ne_false_iff]
    exact hins.passesOver hm random
  · rw [Keypad.not_latched_iff, Bool.eq_false_iff]
    exact hins.passesOver hm random

/-- Puts 5 into a register and asks whether that key is down. -/
def askForFive : Array UInt8 := #[0x63, 0x05, 0xE3, 0x9E]

/-- A cycle, an event of another key and one of no key lie between a press and the instruction
that asks for it, and make no difference. -/
theorem latch_after_press :
    let start := fresh .standard fun _ => 0
    let operations : List Operation :=
      [.load askForFive, .press 5, .cycle, .release 6, .press 0x15]
    let c := start.run operations
    start.LastPressed 5 operations ∧ c.machine.Executes (.skipKey 3 false) ∧
      c.machine.keypad.down[5] = true ∧ (c.machine.cycle c.random).machine.pc.toNat = 0x206 := by
  obtain ⟨loaded, hrun, -, hstart, -⟩ :=
    exists_loaded .standard (fun _ => 0) (show askForFive.size ≤ _ by decide)
  obtain ⟨-, hset, hnext⟩ := goes_on (c := (loaded.perform (.press 5)).console)
    (hstart.press 5) (by decide) (show Instruction.decode? _ = some (.setByte 3 5) by decide)
    rfl rfl rfl
  intro start operations c
  have hc : c = loaded.run [.press 5, .cycle, .release 6, .press 0x15] := hrun _
  have hstands : c.machine.Stands askForFive 2 := hc ▸ (hnext.release 6).press 0x15
  have hregister : c.machine.registers.get 3 = 5 := by
    rw [hc]
    refine (congrArg (Registers.get · 3) hset.registers).trans ?_
    exact (Registers.get_set _ 3 3 5).trans (if_pos rfl)
  have hasking : c.machine.Executes (.skipKey 3 false) :=
    hstands.executes (by decide) (by decide)
  have hlast : start.LastPressed 5 operations := by
    refine ⟨[.load askForFive], [.cycle, .release 6, .press 0x15], rfl, ?_, ?_, ?_, trivial⟩
    · exact spares_cycle _ 5
    · exact spares_release _ (by decide)
    · exact spares_press _ (by decide)
  obtain ⟨hlatch, hasks⟩ := latch_of_last_event .standard (fun _ => 0) operations
  have hdown : c.machine.keypad.down[5] = true := (hlatch 5 (by decide)).mpr hlast
  have hskips : c.machine.PassesOverIff c.random
      (c.machine.keypad.Latched (c.machine.registers.get 3) true) := (hasks 3 c.random).1 hasking
  have hlatched : c.machine.keypad.Latched (c.machine.registers.get 3) true := by
    rw [hregister]
    exact ⟨by decide, hdown⟩
  refine ⟨hlast, hasking, hdown, ?_⟩
  rw [hskips.skips hlatched, hstands.pc]

end Console

end ChipEight
