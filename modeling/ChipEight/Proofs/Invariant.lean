import ChipEight.Machine.Operation
import ChipEight.Proofs.Cycle

/-!
# What every machine keeps

`WellFormed` bounds the program counter, the index and the call stack, keeps the font
where it was, and ties the wait of the machine to that of its keypad. A machine that
never ran has it and every operation keeps it, also one that fails, so every reachable
machine has it. The bounds hold only together: a return goes where a call came from,
and a call was fetched.
-/
namespace ChipEight

namespace CallStack

/-- At most sixteen addresses, and no cell, stale or not, beyond the end of memory. -/
structure Bounded (stack : CallStack) : Prop where
  depth_le : stack.depth ≤ 16
  cells_le : ∀ k : Fin 16, (stack.cells.get k).toNat ≤ 0x1000

theorem bounded_empty : empty.Bounded :=
  ⟨by decide, fun k => by simp [empty, Vector.get]⟩

theorem Bounded.push {stack after : CallStack} {addr : UInt16} (h : stack.Bounded)
    (haddr : addr.toNat ≤ 0x1000) (hpush : stack.push? addr = some after) : after.Bounded := by
  unfold push? at hpush
  split at hpush
  · rename_i hdepth
    obtain rfl := Option.some.inj hpush
    refine ⟨hdepth, fun k => ?_⟩
    change ((stack.cells.set stack.depth addr hdepth)[k.val]).toNat ≤ 0x1000
    rw [Vector.getElem_set]
    split
    · exact haddr
    · exact h.cells_le k
  · cases hpush

theorem Bounded.pop {stack after : CallStack} {addr : UInt16} (h : stack.Bounded)
    (hpop : stack.pop? = some (addr, after)) : addr.toNat ≤ 0x1000 ∧ after.Bounded := by
  have hle := h.depth_le
  unfold pop? at hpop
  split at hpop
  · cases hpop
  · rename_i depth hdepth
    have hlt : depth < 16 := by omega
    simp only [Vector.getElem?_eq_getElem hlt, Option.map_some, Option.some.injEq,
      Prod.mk.injEq] at hpop
    obtain ⟨rfl, rfl⟩ := hpop
    exact ⟨h.cells_le ⟨depth, hlt⟩, Nat.le_of_lt hlt, h.cells_le⟩

end CallStack

namespace Memory

/-- Below the area of programs lie the font and zeros. -/
def HasFont (memory : Memory) : Prop :=
  ∀ addr, addr < programStart → memory.byte addr = (Font.rows[addr]?).getD 0

theorem byte_fresh {addr : Nat} (h : addr < size) :
    fresh.byte addr = (Font.rows[addr]?).getD 0 := by
  simp only [byte, fresh, Vector.getElem?_ofFn, dif_pos (show addr < 4096 from h),
    Option.getD_some]

theorem hasFont_fresh : fresh.HasFont := by
  intro addr haddr
  exact byte_fresh (Nat.lt_trans haddr (by decide))

theorem HasFont.write {memory after : Memory} {addr : Nat} {value : UInt8} (h : memory.HasFont)
    (hwrite : memory.write addr value = .ok after) : after.HasFont := by
  intro a ha
  have haddr : ¬ addr < programStart := by
    intro hlt
    rw [Memory.write, if_pos hlt] at hwrite
    cases hwrite
  rw [byte_write hwrite, if_neg (by omega)]
  exact h a ha

theorem HasFont.store {memory : Memory} (h : memory.HasFont) (addr : Nat)
    (values : List UInt8) : (memory.store addr values).1.HasFont := by
  induction values generalizing memory addr with
  | nil => exact h
  | cons value rest ih =>
    rw [Memory.store]
    cases hwrite : memory.write addr value with
    | error fault => exact h
    | ok after => exact ih (h.write hwrite) (addr + 1)

theorem HasFont.load {memory after : Memory} {program : Array UInt8} (h : memory.HasFont)
    (hload : memory.load program = .ok after) : after.HasFont := by
  intro a ha
  rw [byte_load hload, if_pos ha]
  exact h a ha

end Memory

namespace Keypad

/-- A press is recorded only for an open request, and is that of a key. -/
def Consistent (pad : Keypad) : Prop :=
  ∀ key, pad.pressed = some key → pad.waiting = true ∧ key.toNat < 16

theorem consistent_idle : idle.Consistent := by
  intro key hkey
  cases hkey

theorem latch_waiting (pad : Keypad) (key : UInt8) (down : Bool) :
    (pad.latch key down).waiting = pad.waiting := by
  unfold latch
  split <;> rfl

theorem latch_pressed (pad : Keypad) (key : UInt8) (down : Bool) :
    (pad.latch key down).pressed = pad.pressed := by
  unfold latch
  split <;> rfl

theorem press_waiting (pad : Keypad) (key : UInt8) : (pad.press key).waiting = pad.waiting := by
  unfold press
  dsimp only
  split <;> exact pad.latch_waiting key true

theorem Consistent.press {pad : Keypad} (h : pad.Consistent) (key : UInt8) :
    (pad.press key).Consistent := by
  intro k hk
  rw [press_waiting]
  unfold Keypad.press at hk
  dsimp only at hk
  split at hk
  · rename_i hopen
    obtain rfl := Option.some.inj hk
    rw [latch_waiting] at hopen
    exact ⟨hopen.2.1, hopen.1⟩
  · rw [latch_pressed] at hk
    exact h k hk

theorem Consistent.release {pad : Keypad} (h : pad.Consistent) (key : UInt8) :
    (pad.release key).Consistent := by
  intro k hk
  rw [Keypad.release, latch_pressed] at hk
  rw [Keypad.release, latch_waiting]
  exact h k hk

theorem consistent_beginWait (pad : Keypad) : pad.beginWait.Consistent := by
  intro key hkey
  cases hkey

end Keypad

namespace Machine

structure WellFormed (m : Machine) : Prop where
  pc_le : m.pc.toNat ≤ 0x1002
  index_le : m.index.toNat ≤ 0xFFF
  stack : m.stack.Bounded
  font : m.memory.HasFont
  /-- The machine waits exactly when its keypad has an open request. -/
  waiting : m.awaiting.isSome = m.keypad.waiting
  keypad : m.keypad.Consistent

theorem entryPoint_le : entryPoint.toNat ≤ 0x1002 := by decide

theorem wellFormed_fresh (settings : Settings) : (fresh settings).WellFormed where
  pc_le := entryPoint_le
  index_le := Nat.zero_le _
  stack := CallStack.bounded_empty
  font := Memory.hasFont_fresh
  waiting := rfl
  keypad := Keypad.consistent_idle

theorem load_ok {m after : Machine} {program : Array UInt8} (h : m.load program = .ok after) :
    ∃ memory, m.memory.load program = .ok memory ∧
      after =
        { m with
          memory
          registers := .zero
          stack := .empty
          pc := entryPoint
          index := 0
          delay := 0
          sound := 0
          frame := .blank
          keypad := .idle
          awaiting := none } := by
  unfold Machine.load at h
  cases hmemory : m.memory.load program with
  | error fault =>
    rw [hmemory] at h
    cases h
  | ok memory =>
    rw [hmemory] at h
    exact ⟨memory, rfl, (Except.ok.inj h).symm⟩

theorem WellFormed.load {m after : Machine} {program : Array UInt8} (h : m.WellFormed)
    (hload : m.load program = .ok after) : after.WellFormed := by
  obtain ⟨memory, hmemory, rfl⟩ := load_ok hload
  exact
    { pc_le := entryPoint_le
      index_le := Nat.zero_le _
      stack := CallStack.bounded_empty
      font := h.font.load hmemory
      waiting := rfl
      keypad := Keypad.consistent_idle }

theorem WellFormed.press {m : Machine} (h : m.WellFormed) (key : UInt8) :
    (m.press key).WellFormed :=
  { h with
    waiting := h.waiting.trans (m.keypad.press_waiting key).symm
    keypad := h.keypad.press key }

theorem WellFormed.release {m : Machine} (h : m.WellFormed) (key : UInt8) :
    (m.release key).WellFormed :=
  { h with
    waiting := h.waiting.trans (m.keypad.latch_waiting key false).symm
    keypad := h.keypad.release key }

theorem WellFormed.elapse {m : Machine} (h : m.WellFormed) (ticks : UInt8) :
    (m.elapse ticks).WellFormed :=
  { h with }

theorem WellFormed.countCycle {m : Machine} (h : m.WellFormed) : m.countCycle.WellFormed := by
  unfold Machine.countCycle
  split
  · exact h.elapse 1
  · exact h

/-- Behind an instruction that was fetched there is room for two bytes more. -/
theorem toNat_pc_add_two {pc : UInt16} (h : pc.toNat ≤ 0x1000) : (pc + 2).toNat = pc.toNat + 2 := by
  rw [UInt16.toNat_add]
  exact Nat.mod_eq_of_lt (Nat.lt_of_le_of_lt (Nat.add_le_add_right h 2) (by decide))

theorem WellFormed.advance {m : Machine} (h : m.WellFormed) (hpc : m.pc.toNat ≤ 0xFFE) :
    m.advance.WellFormed ∧ m.advance.pc.toNat ≤ 0x1000 := by
  have hadvance : m.advance.pc.toNat = m.pc.toNat + 2 := toNat_pc_add_two (by omega)
  exact ⟨{ h with pc_le := by omega }, by omega⟩

theorem toNat_and_twelve (n : UInt16) : (n &&& 0x0FFF).toNat ≤ 0xFFF := by
  rw [UInt16.toNat_and]
  exact Nat.and_le_right

theorem stackAfter_bounded {m : Machine} (h : m.stack.Bounded) (hpc : m.pc.toNat ≤ 0x1000)
    (ins : Instruction) : (m.stackAfter ins).Bounded := by
  have hpushed : ((m.stack.push? m.pc).getD m.stack).Bounded := by
    cases hpush : m.stack.push? m.pc with
    | none => exact h
    | some stack => exact h.push hpc hpush
  unfold stackAfter
  split
  · cases hpop : m.stack.pop? with
    | none => exact h
    | some popped => exact (h.pop hpop).2
  · exact hpushed
  · exact hpushed
  · exact h

theorem pcAfter_le {m : Machine} (h : m.stack.Bounded) (hpc : m.pc.toNat ≤ 0x1000)
    {ins : Instruction} (hins : ins.InRange) : (m.pcAfter ins).toNat ≤ 0x1002 := by
  unfold pcAfter
  split
  · cases hpop : m.stack.pop? with
    | none => exact Nat.le_trans hpc (by decide)
    | some popped => exact Nat.le_trans (h.pop hpop).1 (by decide)
  · exact Nat.le_trans (Nat.le_of_lt hins) (by decide)
  · exact Nat.le_trans (Nat.le_of_lt hins) (by decide)
  · split
    · exact Nat.le_trans (Nat.le_of_lt hins) (by decide)
    · exact Nat.le_trans hpc (by decide)
  · split
    · exact Nat.le_trans (toNat_and_twelve _) (by decide)
    · exact Nat.le_trans hpc (by decide)
  -- A skip over the last word of memory is what makes the bound 0x1002.
  · split
    · rw [toNat_pc_add_two hpc]
      omega
    · exact Nat.le_trans hpc (by decide)

/-- The last glyph starts at address 75. -/
theorem glyph_le (digit : UInt8) : digit.toNat % 16 * Font.glyphSize ≤ 75 :=
  Nat.mul_le_mul_right 5 (Nat.le_of_lt_succ (Nat.mod_lt _ (by decide)))

theorem indexAfter_le {m : Machine} (h : m.index.toNat ≤ 0xFFF) {ins : Instruction}
    (hins : ins.InRange) : (m.indexAfter ins).toNat ≤ 0xFFF := by
  unfold indexAfter
  split
  · exact Nat.le_of_lt_succ hins
  · exact toNat_and_twelve _
  · rename_i x
    have hglyph := glyph_le (m.registers.get x)
    rw [UInt16.toNat_ofNat', Nat.mod_eq_of_lt (by omega)]
    omega
  · exact h

/-- An instruction keeps the invariant, whether it fails or not. -/
theorem WellFormed.after {m : Machine} (h : m.WellFormed) (hpc : m.pc.toNat ≤ 0x1000)
    (random : RandomWords) {ins : Instruction} (hins : ins.InRange) :
    (m.after random ins).WellFormed where
  pc_le := pcAfter_le h.stack hpc hins
  index_le := indexAfter_le h.index_le hins
  stack := stackAfter_bounded h.stack hpc ins
  font := h.font.store _ _
  waiting := by
    change (m.awaitingAfter ins).isSome = (m.keypadAfter ins).waiting
    cases ins with
    | waitKey x => rfl
    | _ => exact h.waiting
  keypad := by
    change (m.keypadAfter ins).Consistent
    cases ins with
    | waitKey x => exact m.keypad.consistent_beginWait
    | _ => exact h.keypad

theorem WellFormed.takePress {m : Machine} (h : m.WellFormed) {x : Register} {key : UInt8}
    (hpressed : m.keypad.pressed = some key) :
    ({ m with keypad := m.keypad.takePress.2, awaiting := none }.setRegister x key).WellFormed := by
  rw [Keypad.takePress, hpressed]
  exact { h with waiting := rfl, keypad := fun k hk => by cases hk }

theorem WellFormed.cycle {m : Machine} (h : m.WellFormed) (random : RandomWords) :
    (m.cycle random).machine.WellFormed := by
  apply cycle_keeps random h
  · intro x key _ hpressed
    exact h.takePress hpressed
  · intro ins hins
    obtain ⟨hadvance, hle⟩ := h.advance hins.pc_le
    exact hadvance.after hle random hins.inRange
  · intro after hafter
    exact hafter.countCycle

end Machine

namespace Console

/-- What the operations of a run keep is kept by the run. -/
theorem run_induction_mem {P : Console → Prop} {c : Console} {operations : List Operation}
    (hstep : ∀ c, ∀ operation ∈ operations, P c → P (c.perform operation).console) (h : P c) :
    P (c.run operations) := by
  induction operations generalizing c with
  | nil => exact h
  | cons operation rest ih =>
    have hfirst : P (c.perform operation).console := hstep c operation List.mem_cons_self h
    exact ih (fun c later hlater => hstep c later (List.mem_cons_of_mem _ hlater)) hfirst

theorem loads_nothing_cons {operation : Operation} {rest : List Operation}
    (hload : ∀ program, .load program ∉ operation :: rest) :
    (∀ program, operation ≠ .load program) ∧ ∀ program, .load program ∉ rest := by
  constructor
  · rintro program rfl
    exact hload program List.mem_cons_self
  · intro program hmem
    exact hload program (List.mem_cons_of_mem _ hmem)

/-- What every operation keeps is kept by every run. -/
theorem run_induction {P : Console → Prop}
    (hstep : ∀ c operation, P c → P (c.perform operation).console) {c : Console} (h : P c)
    (operations : List Operation) : P (c.run operations) :=
  run_induction_mem (fun c operation _ => hstep c operation) h

theorem perform_keeps {P : Machine → Prop} {c : Console} (operation : Operation)
    (h : P c.machine)
    (hload : ∀ program after, c.machine.load program = .ok after → P after)
    (hcycle : P (c.machine.cycle c.random).machine)
    (hpress : ∀ key, P (c.machine.press key))
    (hrelease : ∀ key, P (c.machine.release key))
    (helapse : ∀ ticks, P (c.machine.elapse ticks)) :
    P (c.perform operation).console.machine := by
  cases operation with
  | load program =>
    unfold perform
    dsimp only
    cases hloaded : c.machine.load program with
    | error fault => exact h
    | ok after => exact hload program after hloaded
  | cycle => exact hcycle
  | press key => exact hpress key
  | release key => exact hrelease key
  | elapse ticks => exact helapse ticks

theorem perform_wellFormed (c : Console) (operation : Operation) (h : c.machine.WellFormed) :
    (c.perform operation).console.machine.WellFormed :=
  perform_keeps operation h (fun _ _ => h.load) (h.cycle c.random) h.press h.release h.elapse

end Console

theorem Machine.Reachable.wellFormed {m : Machine} (h : m.Reachable) : m.WellFormed := by
  obtain ⟨settings, word, operations, rfl⟩ := h
  refine Console.run_induction (P := fun c => c.machine.WellFormed) ?_ ?_ operations
  · exact Console.perform_wellFormed
  · exact Machine.wellFormed_fresh settings

end ChipEight
