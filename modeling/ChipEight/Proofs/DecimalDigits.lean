import ChipEight.Proofs.DrawCycle
import ChipEight.Proofs.Drawing
import ChipEight.Proofs.RegisterBlock

/-!
# Printing decimal digits

Storing a register in decimal and loading three registers splits it into its digits
(`Machine.At.splitsDecimal`). Pointing the index at the glyph of a digit and drawing five rows
prints it (`Machine.At.printsGlyph`), since no program can change the font.
-/
namespace ChipEight

/-- The built-in rows of a digit. -/
def Font.glyph (digit : Nat) : List UInt8 :=
  (rows.toList.drop (glyphSize * digit)).take glyphSize

theorem Font.length_glyph_le (digit : Nat) : (glyph digit).length ≤ glyphSize :=
  List.length_take_le _ _

/-- The rows of a digit are where the instruction for glyphs points. -/
theorem Memory.HasFont.rowsAt_glyph {memory : Memory} (h : memory.HasFont) {digit : Nat}
    (hdigit : digit < 16) :
    Machine.rowsAt memory (digit * Font.glyphSize) 5 = Font.glyph digit := by
  have hglyph : ∀ d < 16, (List.range' (d * Font.glyphSize) 5).map
      (fun a => (Font.rows[a]?).getD 0) = Font.glyph d := by decide
  have hend : digit * Font.glyphSize + 5 ≤ programStart := by
    unfold Font.glyphSize programStart
    omega
  have hrows := memory.slice_eq_rowsAt (Nat.le_trans hend (by decide))
  exact (Except.ok.inj (hrows.symm.trans (h.slice_eq hend))).trans (hglyph digit hdigit)

namespace Machine

open Memory

variable {m : Machine} {addr : Nat} {x a b : Register} {rest : List Instruction}

/-! ## Digits of a byte -/

theorem decimalDigits_sum (value : UInt8) :
    value.toNat =
      100 * (value / 100).toNat + 10 * (value / 10 % 10).toNat + (value % 10).toNat := by
  have hhundreds : (value / 100).toNat = value.toNat / 100 := UInt8.toNat_div value 100
  have hrest : (value / 10).toNat = value.toNat / 10 := UInt8.toNat_div value 10
  have htens : (value / 10 % 10).toNat = (value / 10).toNat % 10 := UInt8.toNat_mod (value / 10) 10
  have hones : (value % 10).toNat = value.toNat % 10 := UInt8.toNat_mod value 10
  omega

theorem decimalDigits_le_nine (value : UInt8) : ∀ digit ∈ decimalDigits value, digit.toNat ≤ 9 := by
  have hmod (n : UInt8) : (n % 10).toNat ≤ 9 := by
    rw [UInt8.toNat_mod]
    exact Nat.le_of_lt_succ (Nat.mod_lt _ (by decide))
  have hhundreds : (value / 100).toNat = value.toNat / 100 := UInt8.toNat_div value 100
  have hvalue := value.toNat_lt
  simp only [decimalDigits, List.forall_mem_cons]
  exact ⟨by omega, hmod _, hmod _, nofun⟩

theorem At.storesDecimal (h : m.At addr (.storeDecimal x :: rest))
    (hstart : programStart ≤ m.index.toNat) (hend : m.index.toNat + 3 ≤ size)
    (hapart : m.index.toNat + 3 ≤ addr + 2 ∨ addr + 2 + 2 * rest.length ≤ m.index.toNat)
    (random : RandomWords) :
    m.Completes random (.storeDecimal x) ∧ (m.cycle random).machine.At (addr + 2) rest ∧
      (m.cycle random).machine.memory =
        m.memory.patch m.index.toNat (decimalDigits (m.registers.get x)) := by
  have hins : Instruction.Assemblable (.storeDecimal x) := ⟨trivial, nofun, nofun⟩
  obtain ⟨hcompletes, hmemory⟩ :=
    (h.executes hins).storesBlock h.wellFormed (List.cons_ne_nil _ _) hstart hend random
  refine ⟨hcompletes, h.next hins rfl (fun a hle hlt => ?_) hcompletes, hmemory⟩
  change a < m.index.toNat + 3 at hlt
  omega

/-- What a store in decimal and a load of three registers leave: the digits of the register that
was stored. -/
theorem At.splitsDecimal (h : m.At addr (.storeDecimal x :: .loadRegisters 2 :: rest))
    (hstart : programStart ≤ m.index.toNat) (hend : m.index.toNat + 3 ≤ size)
    (hapart : m.index.toNat + 3 ≤ addr + 2 ∨ addr + 4 + 2 * rest.length ≤ m.index.toNat)
    (random random' : RandomWords) :
    let stored := (m.cycle random).machine
    let split := (stored.cycle random').machine
    m.Completes random (.storeDecimal x) ∧ stored.Completes random' (.loadRegisters 2) ∧
      split.At (addr + 4) rest ∧ split.frame = m.frame ∧
      ∀ (r : Register) (hr : r.val < 3),
        split.registers.get r = (decimalDigits (m.registers.get x))[r.val] := by
  intro stored split
  obtain ⟨hstores, hload, hmemory⟩ :=
    h.storesDecimal hstart hend (by rw [List.length_cons]; omega) random
  have hindex : stored.index = m.index := hstores.index
  have hroom : stored.index.toNat + (2 : Register).val < size := by
    rw [hindex]
    exact hend
  have hloads : stored.Executes (.loadRegisters 2) := hload.executes ⟨trivial, nofun, nofun⟩
  obtain ⟨hcompletes, hloaded⟩ := hloads.loadsRegisters hload.wellFormed hroom random'
  have hrest := hload.next_of_not_stores ⟨trivial, nofun, nofun⟩ rfl rfl hcompletes
  refine ⟨hstores, hcompletes, hrest, hcompletes.frame.trans hstores.frame, fun r hr => ?_⟩
  have haddr : m.index.toNat + r.val < 4096 := Nat.lt_of_lt_of_le (Nat.add_lt_add_left hr _) hend
  refine (hloaded r).trans ((if_pos (Nat.le_of_lt_succ hr)).trans ?_)
  rw [hmemory, hindex, byte_patch_add m.memory m.index.toNat hr haddr]

/-! ## Glyphs -/

/-- The rows that are drawn after the index was pointed at a glyph are those of the font. -/
theorem At.printsGlyph {k : Register} (h : m.At addr (.glyph k :: .draw a b 5 :: rest))
    (random random' : RandomWords) :
    let pointing := (m.cycle random).machine
    m.Completes random (.glyph k) ∧ pointing.Completes random' (.draw a b 5) ∧
      (pointing.cycle random').machine.frame =
        (m.frame.draw (m.registers.get a).toNat (m.registers.get b).toNat
          (Font.glyph ((m.registers.get k).toNat % 16))).1 := by
  intro pointing
  have hdraw : Instruction.Assemblable (.draw a b 5) :=
    ⟨show (5 : UInt8).toNat < 16 by decide, nofun, nofun⟩
  obtain ⟨hpoints, hpointing⟩ := h.cycle_of_not_stores ⟨trivial, nofun, nofun⟩ rfl rfl rfl random
  have hglyph := glyph_le (m.registers.get k)
  have hindex : pointing.index.toNat = (m.registers.get k).toNat % 16 * Font.glyphSize := by
    have hpointed : pointing.index =
        UInt16.ofNat ((m.registers.get k).toNat % 16 * Font.glyphSize) := hpoints.index
    rw [hpointed, UInt16.toNat_ofNat', Nat.mod_eq_of_lt (Nat.lt_of_le_of_lt hglyph (by decide))]
  have hroom : pointing.index.toNat + 5 ≤ size := by
    rw [hindex]
    exact Nat.le_trans (Nat.add_le_add_right hglyph 5) (by decide)
  have hrows : rowsAt pointing.memory pointing.index.toNat 5 =
      Font.glyph ((m.registers.get k).toNat % 16) := by
    rw [hindex]
    exact hpointing.wellFormed.font.rowsAt_glyph (Nat.mod_lt _ (by decide))
  have hregisters : pointing.registers = m.registers := hpoints.registers
  have hframe : pointing.frame = m.frame := hpoints.frame
  obtain ⟨hdraws, hdrawn, -⟩ :=
    (hpointing.executes hdraw).draws hpointing.wellFormed hroom random'
  refine ⟨hpoints, hdraws, hdrawn.trans ?_⟩
  change (pointing.frame.draw (pointing.registers.get a).toNat (pointing.registers.get b).toNat
    (rowsAt pointing.memory pointing.index.toNat 5)).1 = _
  rw [hrows, hregisters, hframe]

end Machine

namespace Console

/-- Four instructions that print a decimal digit of a register, at any place and in any machine that
is about to execute them and has room at the index for the digits. All four are executed. After two
of them the first registers hold the digits, and then the digit that was chosen is drawn at the
position that the registers tell by then: of the frame before, exactly the cells of its built-in
glyph are switched over. -/
theorem decimal_digit_printed {c : Console} (h : c.machine.Reachable)
    (hidle : c.machine.awaiting = none) {x k a b : Register} (hk : k.val ≤ 2)
    (hcode : c.machine.memory.Holds c.machine.pc.toNat
      [.storeDecimal x, .loadRegisters 2, .glyph k, .draw a b 5])
    (hpc : c.machine.pc.toNat ≤ 0xFF8) (hstart : 0x200 ≤ c.machine.index.toNat)
    (hend : c.machine.index.toNat ≤ 0xFFD)
    (hapart : c.machine.index.toNat + 2 < c.machine.pc.toNat ∨
      c.machine.pc.toNat + 7 < c.machine.index.toNat) :
    let v := (c.run [.cycle, .cycle]).machine.registers
    let printed := (c.run [.cycle, .cycle, .cycle, .cycle]).machine.frame
    let column := (v.get a).toNat
    let row := (v.get b).toNat
    let glyph := Font.glyph (v.get k).toNat
    (c.reports [.cycle, .cycle, .cycle, .cycle]).map OperationReport.answer =
        List.replicate 4 (.cycled (.ok .executed)) ∧
      (c.machine.registers.get x).toNat =
        100 * (v.get 0).toNat + 10 * (v.get 1).toNat + (v.get 2).toNat ∧
      (∀ r, r ≤ 2 → (v.get r).toNat ≤ 9) ∧
      printed = (c.machine.frame.draw column row glyph).1 ∧
      ∀ (px : Fin 64) (py : Fin 32),
        printed.lit (Frame.cellAt px py) ≠ c.machine.frame.lit (Frame.cellAt px py) ↔
          (Frame.strikes column row glyph px py).Nonempty := by
  intro v printed column row glyph
  have hat : c.machine.At c.machine.pc.toNat
      [.storeDecimal x, .loadRegisters 2, .glyph k, .draw a b 5] :=
    ⟨h.wellFormed, hidle, rfl, hcode, Nat.add_le_add_right hpc 8⟩
  let stored := (c.perform .cycle).console
  let split := (stored.perform .cycle).console
  let pointing := (split.perform .cycle).console
  obtain ⟨hstores, hloads, hsplit, hframe, hloaded⟩ :=
    hat.splitsDecimal hstart (Nat.add_le_add_right hend 3)
      (by simp only [List.length_cons, List.length_nil]; omega) c.random stored.random
  obtain ⟨hpoints, hdraws, hdrawn⟩ := hsplit.printsGlyph split.random pointing.random
  have hv : ∀ (r : Register) (hr : r.val < 3),
      v.get r = (Machine.decimalDigits (c.machine.registers.get x))[r.val] := hloaded
  have hdigits : ∀ r, r ≤ 2 → (v.get r).toNat ≤ 9 := by
    intro r hr
    rw [hv r (Nat.lt_succ_of_le hr)]
    exact Machine.decimalDigits_le_nine _ _ (List.getElem_mem _)
  have hdigit : (v.get k).toNat % 16 = (v.get k).toNat :=
    Nat.mod_eq_of_lt (Nat.lt_of_le_of_lt (hdigits k hk) (by decide))
  have hsame : split.machine.frame = c.machine.frame := hframe
  have hprinted : printed =
      (split.machine.frame.draw column row (Font.glyph ((v.get k).toNat % 16))).1 := hdrawn
  rw [hsame, hdigit] at hprinted
  refine ⟨?_, ?_, hdigits, hprinted, fun px py => ?_⟩
  · change [(c.perform .cycle).answer, (stored.perform .cycle).answer,
      (split.perform .cycle).answer, (pointing.perform .cycle).answer] = _
    rw [hstores.answer, Machine.Completes.answer hloads, Machine.Completes.answer hpoints,
      Machine.Completes.answer hdraws]
    rfl
  · rw [hv 0 (by decide), hv 1 (by decide), hv 2 (by decide)]
    exact Machine.decimalDigits_sum _
  · rw [hprinted]
    exact Frame.lit_draw_ne_iff (Nat.le_trans (Font.length_glyph_le _) (by decide)) _ px py

/-- Code that tries to write over the font first goes on all the same. -/
theorem points_after_failed_store {c : Console} {rest : List Instruction}
    (h200 : c.machine.At 0x200
      (.storeRegisters 0 :: .setByte 15 254 :: .setIndex 0x300 :: rest))
    (hindex : c.machine.index = 0) :
    let ready := c.run [.cycle, .cycle, .cycle]
    (c.machine.cycle c.random).result = .error (.protectedWrite 0) ∧
      ready.machine.At 0x206 rest ∧ ready.machine.index = 0x300 ∧
      ready.machine.registers.get 15 = 254 ∧ ready.machine.frame = c.machine.frame := by
  intro ready
  have hbelow : c.machine.index.toNat < Memory.programStart := by
    rw [hindex]
    decide
  have hfails := (h200.executes ⟨trivial, nofun, nofun⟩).cycle_of_fault h200.wellFormed c.random
    (Machine.storeFault_protected hbelow 1)
  let failed := (c.perform .cycle).console
  have hfailed : failed.machine = c.machine.advance :=
    (congrArg CycleReport.machine hfails).trans (if_pos hbelow)
  have h202 := h200.advance
  rw [← hfailed] at h202
  obtain ⟨hset, h204⟩ :=
    h202.cycle_of_not_stores ⟨trivial, nofun, nofun⟩ rfl rfl rfl failed.random
  let pointing := (failed.perform .cycle).console
  have htarget : Instruction.Assemblable (.setIndex 0x300) :=
    ⟨show (0x300 : UInt16).toNat < 4096 by decide, nofun, nofun⟩
  obtain ⟨hpoints, h206⟩ := h204.cycle_of_not_stores htarget rfl rfl rfl pointing.random
  refine ⟨?_, h206, hpoints.index, ?_, ?_⟩
  · rw [hfails, hindex]
    rfl
  · have hregisters : ready.machine.registers = failed.machine.registers.set 15 254 :=
      hpoints.registers.trans hset.registers
    rw [hregisters, Registers.get_set, if_pos rfl]
  · have hframe : ready.machine.frame = failed.machine.frame := hpoints.frame.trans hset.frame
    rw [hframe, hfailed]
    rfl

/-- A program that tries to write over the font, and then prints the ones of the flag register as
far to the right as its tens tell and as far down as its ones tell. -/
theorem ones_of_flag_printed :
    let program : List Instruction :=
      [.storeRegisters 0, .setByte 15 254, .setIndex 0x300, .storeDecimal 15, .loadRegisters 2,
        .glyph 2, .draw 1 2 5]
    let start : Console :=
      ⟨.loaded .standard (Instruction.assemble program), .ofSequence fun _ => 0⟩
    let ready := start.run [.cycle, .cycle, .cycle]
    let v := (ready.run [.cycle, .cycle]).machine.registers
    (start.machine.cycle start.random).result = .error (.protectedWrite 0) ∧
      ready.machine.Reachable ∧
      ready.machine.At 0x206 [.storeDecimal 15, .loadRegisters 2, .glyph 2, .draw 1 2 5] ∧
      ready.machine.index = 0x300 ∧
      (ready.reports [.cycle, .cycle, .cycle, .cycle]).map OperationReport.answer =
        List.replicate 4 (.cycled (.ok .executed)) ∧
      (v.get 0).toNat = 2 ∧ (v.get 1).toNat = 5 ∧ (v.get 2).toNat = 4 ∧
      (ready.run [.cycle, .cycle, .cycle, .cycle]).machine.frame =
        (Frame.blank.draw 5 4 [0x90, 0x90, 0xF0, 0x10, 0x10]).1 := by
  intro program start ready v
  have hreach : ready.machine.Reachable := by
    refine ⟨.standard, fun _ => 0,
      [.load (Instruction.assemble program), .cycle, .cycle, .cycle], ?_⟩
    rw [run_cons, perform_load _ _ (by decide)]
  obtain ⟨hfailed, h206, hindex, hvalue, hframe⟩ :=
    points_after_failed_store (c := start) (Machine.at_loaded .standard (by decide)) rfl
  have hcode := h206.holds
  rw [← h206.pc] at hcode
  obtain ⟨hanswers, hsum, hdigits, hprinted, -⟩ := decimal_digit_printed hreach h206.idle
    (by decide) hcode (by rw [h206.pc]; decide) (by rw [hindex]; decide) (by rw [hindex]; decide)
    (by rw [h206.pc, hindex]; decide)
  rw [hvalue] at hsum
  have hvalue' : 254 = 100 * (v.get 0).toNat + 10 * (v.get 1).toNat + (v.get 2).toNat := hsum
  have hle0 : (v.get 0).toNat ≤ 9 := hdigits 0 (by decide)
  have hle1 : (v.get 1).toNat ≤ 9 := hdigits 1 (by decide)
  have hle2 : (v.get 2).toNat ≤ 9 := hdigits 2 (by decide)
  have hhundreds : (v.get 0).toNat = 2 := by omega
  have htens : (v.get 1).toNat = 5 := by omega
  have hones : (v.get 2).toNat = 4 := by omega
  have hdrawn : (ready.run [.cycle, .cycle, .cycle, .cycle]).machine.frame =
      (ready.machine.frame.draw (v.get 1).toNat (v.get 2).toNat
        (Font.glyph (v.get 2).toNat)).1 := hprinted
  rw [hframe, htens, hones] at hdrawn
  exact ⟨hfailed, hreach, h206, hindex, hanswers, hhundreds, htens, hones, hdrawn⟩

end Console

end ChipEight
