import ChipEight.Proofs.Footprint
import ChipEight.Proofs.Standing

/-!
# Cycles that draw

A cycle that draws reads its rows one by one, and what it leaves on the screen and in the flag is
what a draw of all these rows at once leaves there (`Machine.Executes.draws`). Past the end of
memory it is the draw of the rows that exist, and the flag is not written.
-/
namespace ChipEight

namespace Memory

/-- Rows that all lie in memory are one block of it. -/
theorem slice_eq_rowsAt (memory : Memory) {addr rows : Nat} (h : addr + rows ≤ size) :
    memory.slice addr rows = .ok (Machine.rowsAt memory addr rows) := by
  rw [slice, if_neg (Nat.not_lt.mpr h), Machine.rowsAt, Nat.min_eq_left (by omega)]

theorem slice_to_end (memory : Memory) {addr : Nat} (h : addr ≤ size) :
    memory.slice addr (size - addr) =
      .ok ((List.range' addr (size - addr)).map memory.byte) := by
  rw [slice, if_neg (by omega)]

theorem HasFont.slice_eq {memory : Memory} (h : memory.HasFont) {addr len : Nat}
    (hend : addr + len ≤ programStart) :
    memory.slice addr len =
      .ok ((List.range' addr len).map fun a => (Font.rows[a]?).getD 0) := by
  have hbytes : ∀ a ∈ List.range' addr len, memory.byte a = (Font.rows[a]?).getD 0 :=
    fun a ha => h a (Nat.lt_of_lt_of_le (List.mem_range'_1.mp ha).2 hend)
  rw [slice, if_neg (Nat.not_lt.mpr (Nat.le_trans hend (by decide))), List.map_congr_left hbytes]

/-- Behind a program that was loaded there are zeros. -/
theorem slice_behind (program : Array UInt8) {addr len : Nat}
    (hbehind : programStart + program.size ≤ addr) (hend : addr + len ≤ size) :
    (ofProgram program).slice addr len = .ok (List.replicate len 0) := by
  have hbytes : ∀ a ∈ List.range' addr len, (ofProgram program).byte a = 0 := by
    intro a ha
    obtain ⟨hle, hlt⟩ := List.mem_range'_1.mp ha
    have hpast : program.size ≤ a - programStart := by omega
    rw [byte_ofProgram program (Nat.lt_of_lt_of_le hlt hend), if_neg (by omega),
      Array.getElem?_eq_none hpast]
    rfl
  rw [slice, if_neg (Nat.not_lt.mpr hend), List.map_congr_left hbytes, List.map_const',
    List.length_range']

end Memory

namespace Machine

open Memory

variable {m : Machine} {x y : Register} {height : UInt8}

theorem after_draw (m : Machine) (random : RandomWords) (x y : Register) (height : UInt8) :
    m.after random (.draw x y height) = (m.drawSprite x y height).1 :=
  (m.execute_machine random m.pc (.draw x y height)).symm

/-- A draw of rows that all lie in memory. -/
theorem Executes.draws (hins : m.Executes (.draw x y height)) (h : m.WellFormed)
    (hend : m.index.toNat + height.toNat ≤ size) (random : RandomWords) :
    let drawn := m.frame.draw (m.registers.get x).toNat (m.registers.get y).toNat
      (rowsAt m.memory m.index.toNat height.toNat)
    m.Completes random (.draw x y height) ∧ (m.cycle random).machine.frame = drawn.1 ∧
      (m.cycle random).machine.registers = m.registers.setFlag drawn.2 := by
  intro drawn
  have hindex : m.index.toNat ≤ size := Nat.le_of_add_right_le hend
  have hcompletes := hins.completes h random (if_neg (Nat.not_lt.mpr hend)) (fun _ => nofun)
  have hafter : m.advance.after random (.draw x y height) =
      { m.advance with frame := drawn.1, registers := m.registers.setFlag drawn.2 } := by
    rw [after_draw, drawSprite, advance, drawRows_eq _ _ _ _ _ _ hindex,
      if_neg (Nat.not_lt.mpr hend), Bool.false_or]
    rfl
  exact ⟨hcompletes, hcompletes.frame.trans (congrArg frame hafter),
    hcompletes.registers.trans (congrArg registers hafter)⟩

/-- A draw in a cycle. With `i` for the index and `n` for the height: if the `n` bytes at `i` lie in
memory, the cycle leaves the frame and the collision of drawing them at the position that the
registers told before. If they do not, it fails and has drawn the bytes up to the end of memory,
and the flag is as it was. Either way memory, index and the other registers stay the same. -/
theorem draw_cycle_agrees (h : m.Reachable) (hins : m.Executes (.draw x y height))
    (random : RandomWords) :
    let i := m.index.toNat
    let n := height.toNat
    let result := (m.cycle random).result
    let after := (m.cycle random).machine
    let draw := m.frame.draw (m.registers.get x).toNat (m.registers.get y).toNat
    (i + n ≤ 0x1000 →
        ∃ bytes, m.memory.slice i n = .ok bytes ∧ result = .ok .executed ∧
          after.frame = (draw bytes).1 ∧
          after.registers.get .flag = if (draw bytes).2 then 1 else 0) ∧
      (0x1000 < i + n →
        ∃ bytes, m.memory.slice i (0x1000 - i) = .ok bytes ∧
          result = .error (.addressOutOfRange 0x1000) ∧
          after.frame = (draw bytes).1 ∧
          after.registers.get .flag = m.registers.get .flag) ∧
      after.memory = m.memory ∧ after.index = m.index ∧
      ∀ r, r ≠ .flag → after.registers.get r = m.registers.get r := by
  intro i n result after draw
  have hm := h.wellFormed
  by_cases hend : i + n ≤ size
  · obtain ⟨hcompletes, hframe, hregisters⟩ := hins.draws hm hend random
    refine ⟨fun _ => ⟨_, slice_eq_rowsAt m.memory hend, hcompletes.result, hframe, ?_⟩,
      fun hpast => absurd hend (Nat.not_le.mpr hpast), hcompletes.memory, hcompletes.index, ?_⟩
    · rw [hregisters, Registers.get_setFlag, if_pos rfl]
    · intro r hr
      rw [hregisters, Registers.get_setFlag, if_neg (Ne.symm hr)]
  · have hpast : size < i + n := Nat.lt_of_not_le hend
    have hindex : i ≤ size := Nat.le_trans hm.index_le (by decide)
    have hcycle := hins.cycle_of_fault hm random (if_pos hpast)
    have hafter : after = m.advance.partialEffect (.draw x y height) := congrArg (·.machine) hcycle
    refine ⟨fun hle => absurd hle hend,
      fun _ => ⟨_, slice_to_end m.memory hindex, congrArg (·.result) hcycle, ?_, ?_⟩,
      ?_, ?_, fun r _ => ?_⟩ <;> rw [hafter] <;> rfl

/-- Draws the first glyph at the position that the flag register tells. -/
def drawByFlag : Array UInt8 := #[0x6F, 0x07, 0xDF, 0xF5]

/-- The same with an index that has only two bytes of memory behind it. -/
def drawAtEnd : Array UInt8 := #[0x6F, 0x07, 0xAF, 0xFE, 0xDF, 0xF5]

theorem drawByFlag_ready :
    let start := Machine.loaded .standard drawByFlag
    let inside : Machine := { start with pc := 0x202, registers := start.registers.set 15 7 }
    inside.Reachable ∧ inside.Executes (.draw 15 15 5) := by
  intro start inside
  have hload : Memory.fresh.load drawByFlag = .ok start.memory :=
    Memory.hasFont_fresh.load_of_fits (by decide)
  have hfirst : start.Executes (.setByte 15 7) :=
    executes_of_load (m := start) hload rfl 0 rfl (by decide) (by decide)
  refine ⟨⟨.standard, fun _ => 0, [.load drawByFlag, .cycle], ?_⟩,
    executes_of_load (m := inside) hload rfl 2 rfl (by decide) (by decide)⟩
  rw [Console.run_cons, Console.perform_load _ _ (by decide), Console.run_cons,
    Console.perform_cycle hfirst]
  rfl

theorem drawAtEnd_ready :
    let start := Machine.loaded .standard drawAtEnd
    let past : Machine :=
      { start with pc := 0x204, registers := start.registers.set 15 7, index := 0xFFE }
    past.Reachable ∧ past.Executes (.draw 15 15 5) := by
  intro start past
  let pointing : Machine := { start with pc := 0x202, registers := start.registers.set 15 7 }
  have hload : Memory.fresh.load drawAtEnd = .ok start.memory :=
    Memory.hasFont_fresh.load_of_fits (by decide)
  have hfirst : start.Executes (.setByte 15 7) :=
    executes_of_load (m := start) hload rfl 0 rfl (by decide) (by decide)
  have hsecond : pointing.Executes (.setIndex 0xFFE) :=
    executes_of_load (m := pointing) hload rfl 2 rfl (by decide) (by decide)
  let random := RandomWords.ofSequence fun _ => 0
  have hpointing : ((Console.mk start random).perform .cycle).console = ⟨pointing, random⟩ := by
    rw [Console.perform_cycle hfirst]
    rfl
  refine ⟨⟨.standard, fun _ => 0, [.load drawAtEnd, .cycle, .cycle], ?_⟩,
    executes_of_load (m := past) hload rfl 4 rfl (by decide) (by decide)⟩
  rw [Console.run_cons, Console.perform_load _ _ (by decide), Console.run_cons, hpointing,
    Console.run_cons, Console.perform_cycle hsecond]
  rfl

/-- Both draws go to the position that the flag register tells. The first writes its collision
there afterwards, and the second fails and leaves it alone. -/
theorem flag_register_places_glyph :
    let start := Machine.loaded .standard drawByFlag
    let inside : Machine := { start with pc := 0x202, registers := start.registers.set 15 7 }
    let later := Machine.loaded .standard drawAtEnd
    let past : Machine :=
      { later with pc := 0x204, registers := later.registers.set 15 7, index := 0xFFE }
    let random := RandomWords.ofSequence fun _ => 0
    let drawn := Frame.blank.draw 7 7 [0xF0, 0x90, 0x90, 0x90, 0xF0]
    inside.Reachable ∧ inside.Executes (.draw 15 15 5) ∧
      (inside.cycle random).result = .ok .executed ∧
      (inside.cycle random).machine.frame = drawn.1 ∧
      ((inside.cycle random).machine.registers.get .flag = if drawn.2 then 1 else 0) ∧
      past.Reachable ∧ past.Executes (.draw 15 15 5) ∧
      (past.cycle random).result = .error (.addressOutOfRange 0x1000) ∧
      (past.cycle random).machine.frame = (Frame.blank.draw 7 7 [0, 0]).1 ∧
      (past.cycle random).machine.registers.get .flag = 7 := by
  intro start inside later past random drawn
  obtain ⟨hreach, hinside⟩ : inside.Reachable ∧ inside.Executes (.draw 15 15 5) :=
    drawByFlag_ready
  obtain ⟨hreach', hpast⟩ : past.Reachable ∧ past.Executes (.draw 15 15 5) := drawAtEnd_ready
  have hglyph : inside.memory.slice 0 5 = .ok [0xF0, 0x90, 0x90, 0x90, 0xF0] := by
    rw [hreach.wellFormed.font.slice_eq (by decide)]
    rfl
  have hzeros : past.memory.slice 0xFFE 2 = .ok [0, 0] :=
    slice_behind drawAtEnd (by decide) (by decide)
  obtain ⟨hfits, -⟩ := draw_cycle_agrees hreach hinside random
  obtain ⟨-, hmissing, -⟩ := draw_cycle_agrees hreach' hpast random
  rw [show past.index.toNat = 0xFFE from rfl] at hmissing
  obtain ⟨bytes, hslice, hresult, hframe, hflag⟩ := hfits (by decide)
  obtain ⟨bytes', hslice', hresult', hframe', hflag'⟩ := hmissing (by decide)
  obtain rfl := Except.ok.inj (hslice.symm.trans hglyph)
  obtain rfl := Except.ok.inj (hslice'.symm.trans hzeros)
  exact ⟨hreach, hinside, hresult, hframe, hflag, hreach', hpast, hresult', hframe', hflag'⟩

end Machine

end ChipEight
