import ChipEight.Proofs.Code

/-!
# Registers in memory

Where there is room at the index, saving the registers up to one puts their values there and
nothing else (`Executes.savesRegisters`), and loading takes the bytes that are there and leaves
the other registers alone (`Executes.loadsRegisters`). Between the two nothing but a store can
change a byte (`Console.run_keeps_byte`).
-/
namespace ChipEight

namespace Machine

open Memory

variable {m : Machine} {ins : Instruction} {x last : Register}

/-! ## One cycle -/

theorem faultOf_of_stored (m : Machine) (h : m.storedBytes ins ≠ []) (origin : UInt16) :
    m.faultOf origin ins = m.storeFault (m.storedBytes ins).length := by
  cases ins with
  | storeDecimal x => rfl
  | storeRegisters last => rw [storedBytes, Registers.length_upTo, faultOf]
  | _ => exact absurd rfl h

/-- What an instruction stores lies at the index afterwards, if there is room for all of it. -/
theorem Executes.storesBlock (hins : m.Executes ins) (h : m.WellFormed)
    (hne : m.storedBytes ins ≠ []) (hstart : programStart ≤ m.index.toNat)
    (hend : m.index.toNat + (m.storedBytes ins).length ≤ size) (random : RandomWords) :
    m.Completes random ins ∧
      (m.cycle random).machine.memory = m.memory.patch m.index.toNat (m.storedBytes ins) := by
  have hfault : m.faultOf m.pc ins = none := by
    rw [m.faultOf_of_stored hne, storeFault, if_neg (Nat.not_lt.mpr hstart),
      if_neg (Nat.not_lt.mpr hend)]
  have hwait : ∀ x, ins ≠ .waitKey x := by
    rintro x rfl
    exact hne rfl
  have hcompletes := hins.completes h random hfault hwait
  have hindex : m.index.toNat ≤ size := Nat.le_of_add_right_le hend
  refine ⟨hcompletes, hcompletes.memory.trans ?_⟩
  change (m.memory.store m.index.toNat (m.advance.storedBytes ins)).1 = _
  rw [storedBytes_advance, store_eq m.memory _ hstart hindex]

theorem Executes.savesRegisters (hins : m.Executes (.storeRegisters x)) (h : m.WellFormed)
    (hstart : programStart ≤ m.index.toNat) (hend : m.index.toNat + x.val < size)
    (random : RandomWords) :
    m.Completes random (.storeRegisters x) ∧
      (m.cycle random).machine.memory = m.memory.patch m.index.toNat (m.registers.upTo x) := by
  refine hins.storesBlock h (upTo_ne_nil m.registers x) hstart ?_ random
  rw [storedBytes, Registers.length_upTo]
  exact hend

/-- Each register that is saved lies in its place afterwards. -/
theorem Executes.byte_of_saved (hins : m.Executes (.storeRegisters x)) (h : m.WellFormed)
    (hstart : programStart ≤ m.index.toNat) (hend : m.index.toNat + x.val < size)
    (random : RandomWords) {r : Register} (hr : r ≤ x) :
    (m.cycle random).machine.memory.byte (m.index.toNat + r.val) = m.registers.get r := by
  have hlength : r.val < (m.registers.upTo x).length := by
    rw [Registers.length_upTo]
    exact Nat.lt_succ_of_le hr
  have haddr : m.index.toNat + r.val < 4096 :=
    Nat.lt_of_le_of_lt (Nat.add_le_add_left hr m.index.toNat) hend
  obtain ⟨-, hmemory⟩ := hins.savesRegisters h hstart hend random
  rw [hmemory, byte_patch_add _ _ hlength haddr, Registers.getElem_upTo]

theorem loadRegisters_get (hend : m.index.toNat + last.val < size) (r : Register) :
    (m.loadRegisters last).1.registers.get r =
      if r ≤ last then m.memory.byte (m.index.toNat + r.val) else m.registers.get r := by
  have hroom : ¬ size < m.index.toNat + (last.val + 1) := Nat.not_lt.mpr hend
  rw [loadRegisters_registers, slice, if_neg hroom]
  dsimp only
  rw [Registers.get_modifyUpTo]
  split
  · rename_i hr
    have hlt : r.val < last.val + 1 := Nat.lt_succ_of_le hr
    simp [List.getD, hlt]
  · rfl

theorem Executes.loadsRegisters (hins : m.Executes (.loadRegisters last)) (h : m.WellFormed)
    (hend : m.index.toNat + last.val < size) (random : RandomWords) :
    m.Completes random (.loadRegisters last) ∧
      ∀ r, (m.cycle random).machine.registers.get r =
        if r ≤ last then m.memory.byte (m.index.toNat + r.val) else m.registers.get r := by
  have hfault : m.faultOf m.pc (.loadRegisters last) = none := if_neg (Nat.not_le.mpr hend)
  have hcompletes := hins.completes h random hfault (fun _ => nofun)
  refine ⟨hcompletes, fun r => ?_⟩
  rw [hcompletes.registers]
  exact m.advance.loadRegisters_get hend r

/-- A load that succeeds has room for the registers that it loads. -/
theorem Executes.room_of_loaded (hins : m.Executes (.loadRegisters last)) (h : m.WellFormed)
    {random : RandomWords} (hresult : (m.cycle random).result = .ok .executed) :
    m.index.toNat + last.val < size := by
  by_contra hpast
  have hfault : m.faultOf m.pc (.loadRegisters last) =
      some (.addressOutOfRange (m.index.toNat + last.val)) := if_pos (Nat.le_of_not_lt hpast)
  rw [hins.cycle_of_fault h random hfault] at hresult
  cases hresult

/-- Saving the registers that are in memory already changes nothing there. -/
theorem Executes.saves_loaded (hins : m.Executes (.storeRegisters x)) (h : m.WellFormed)
    (hstart : programStart ≤ m.index.toNat) (hend : m.index.toNat + x.val < size)
    (hloaded : ∀ r, r ≤ x → m.registers.get r = m.memory.byte (m.index.toNat + r.val))
    (random : RandomWords) :
    m.Completes random (.storeRegisters x) ∧ (m.cycle random).machine.memory = m.memory := by
  obtain ⟨hcompletes, hmemory⟩ := hins.savesRegisters h hstart hend random
  refine ⟨hcompletes, hmemory.trans (patch_self fun k hk => ?_)⟩
  rw [Registers.getElem_upTo]
  rw [Registers.length_upTo] at hk
  exact hloaded _ (Nat.le_of_lt_succ hk)

end Machine

namespace Console

/-! ## Cycles in between -/

/-- A byte is as it was after a run that loads no program and stores nothing in its place. -/
theorem run_keeps_byte {c : Console} (hc : c.machine.WellFormed) {a : Nat}
    {operations : List Operation} (hload : ∀ program, .load program ∉ operations)
    (hfree : c.EveryCycle (¬ ·.Stores a) operations) :
    (c.run operations).machine.memory.byte a = c.machine.memory.byte a := by
  induction operations generalizing c with
  | nil => rfl
  | cons operation rest ih =>
    obtain ⟨hfirst, hrest⟩ := hfree
    obtain ⟨hne, hlater⟩ := loads_nothing_cons hload
    have hbyte : (c.perform operation).console.machine.memory.byte a = c.machine.memory.byte a := by
      cases operation with
      | load program => exact absurd rfl (hne program)
      | cycle => exact Machine.cycle_keeps_byte hc c.random (hfirst rfl)
      | press key | release key | elapse ticks => rfl
    rw [run_cons, ih (perform_wellFormed c operation hc) hlater hrest, hbyte]

/-- Registers that were saved are there again when they are loaded, whatever the run in between has
done, as long as it stored nothing over them; the registers behind are those of the moment of the
load. And registers that were just loaded can be saved without a change of memory. -/
theorem saved_registers_restored {c : Console} (h : c.machine.Reachable) (x : Register) :
    let m := c.machine
    let i := m.index.toNat
    let next := (c.perform .cycle).console
    (m.Executes (.storeRegisters x) → 0x200 ≤ i → i + x.val ≤ 0xFFF →
        ∀ operations, (∀ program, .load program ∉ operations) →
          next.EveryCycle (fun n => ∀ a, i ≤ a → a ≤ i + x.val → ¬ n.Stores a) operations →
          ∀ z ≤ x,
            let later := next.run operations
            let report := later.machine.cycle later.random
            later.machine.Executes (.loadRegisters z) → later.machine.index = m.index →
              report.result = .ok .executed ∧ report.machine.index = m.index ∧
                ∀ r, report.machine.registers.get r =
                  if r ≤ z then m.registers.get r else later.machine.registers.get r) ∧
      (m.Executes (.loadRegisters x) → 0x200 ≤ i → (m.cycle c.random).result = .ok .executed →
        next.machine.Executes (.storeRegisters x) →
          (next.machine.cycle next.random).result = .ok .executed ∧
            (next.machine.cycle next.random).machine.memory = m.memory) := by
  intro m i next
  have hm : m.WellFormed := h.wellFormed
  have hnext : next.machine.WellFormed := hm.cycle c.random
  constructor
  · intro hsave hstart hend operations hload hfree z hz later report hins hindex
    have hlater : later.machine.WellFormed := run_wellFormed hnext operations
    have hroom : later.machine.index.toNat + z.val < Memory.size := by
      rw [hindex]
      exact Nat.lt_succ_of_le (Nat.le_trans (Nat.add_le_add_left hz i) hend)
    obtain ⟨hcompletes, hloaded⟩ := hins.loadsRegisters hlater hroom later.random
    refine ⟨hcompletes.result, hcompletes.index.trans hindex, fun r => ?_⟩
    rw [hloaded, hindex]
    refine if_ctx_congr Iff.rfl (fun hr => ?_) (fun _ => rfl)
    -- The load reads what the save put there, as no cycle in between has stored anything over it.
    have hrx : r.val ≤ x.val := Nat.le_trans hr hz
    have hkept : later.machine.memory.byte (i + r.val) = next.machine.memory.byte (i + r.val) :=
      run_keeps_byte hnext hload
        (hfree.imp fun n hn => hn (i + r.val) (Nat.le_add_right _ _) (Nat.add_le_add_left hrx i))
    exact hkept.trans (hsave.byte_of_saved hm hstart (Nat.lt_succ_of_le hend) c.random hrx)
  · intro hins hstart hresult hsave
    have hroom := hins.room_of_loaded hm hresult
    obtain ⟨hcompletes, hloaded⟩ := hins.loadsRegisters hm hroom c.random
    have hindex : next.machine.index = m.index := hcompletes.index
    have hsame : next.machine.memory = m.memory := hcompletes.memory
    have hthere : ∀ r, r ≤ x → next.machine.registers.get r =
        next.machine.memory.byte (next.machine.index.toNat + r.val) := by
      intro r hr
      rw [hsame, hindex]
      exact (hloaded r).trans (if_pos hr)
    obtain ⟨hsaved, hmemory⟩ := hsave.saves_loaded hnext (hindex ▸ hstart) (hindex ▸ hroom) hthere
      next.random
    exact ⟨hsaved.result, hmemory.trans hsame⟩

/-- Saves two registers, overwrites the second, loads both and saves them again. -/
def reloadProgram : List Instruction :=
  [.setByte 1 5, .setIndex 0x300, .storeRegisters 1, .setByte 1 9, .loadRegisters 1,
    .storeRegisters 1]

/-- The cycles of the program, with a key event in between: what the save and the load find. -/
theorem reloadProgram_cycles {c : Console} (h200 : c.machine.At 0x200 reloadProgram) :
    let saving := c.run [.cycle, .cycle]
    let next := (saving.perform .cycle).console
    let loading := next.run [.press 3, .cycle]
    let loaded := (loading.perform .cycle).console
    (saving.machine.Executes (.storeRegisters 1) ∧ saving.machine.index = 0x300 ∧
        saving.machine.registers.get 1 = 5) ∧
      next.EveryCycle (fun n => ∀ a, 0x300 ≤ a → a ≤ 0x301 → ¬ n.Stores a) [.press 3, .cycle] ∧
      (loading.machine.Executes (.loadRegisters 1) ∧ loading.machine.index = 0x300 ∧
        loading.machine.registers.get 1 = 9) ∧
      loaded.machine.Executes (.storeRegisters 1) := by
  intro saving next loading loaded
  have hbyte (value : UInt8) : Instruction.Assemblable (.setByte 1 value) :=
    ⟨trivial, nofun, nofun⟩
  have htarget : Instruction.Assemblable (.setIndex 0x300) :=
    ⟨show (0x300 : UInt16).toNat < 4096 by decide, nofun, nofun⟩
  obtain ⟨hset, h202⟩ := h200.cycle_of_not_stores (hbyte 5) rfl rfl rfl c.random
  let pointing := (c.perform .cycle).console
  obtain ⟨hpoint, h204⟩ := h202.cycle_of_not_stores htarget rfl rfl rfl pointing.random
  have hindex : saving.machine.index = 0x300 := hpoint.index
  have hfive : saving.machine.registers = c.machine.registers.set 1 5 :=
    hpoint.registers.trans hset.registers
  have hsave : saving.machine.Executes (.storeRegisters 1) := h204.executes ⟨trivial, nofun, nofun⟩
  obtain ⟨hsaved, -⟩ := hsave.savesRegisters h204.wellFormed (by rw [hindex]; decide)
    (by rw [hindex]; decide) saving.random
  have hbehind : ∀ a, saving.machine.index.toNat ≤ a → 0x20C ≤ a := by
    intro a hle
    rw [hindex] at hle
    exact Nat.le_trans (by decide) hle
  have h206 := h204.next ⟨trivial, nofun, nofun⟩ rfl (fun a hle _ => Or.inr (hbehind a hle)) hsaved
  let pressed := (next.perform (.press 3)).console
  have hpressed : pressed.machine.At 0x206 [.setByte 1 9, .loadRegisters 1, .storeRegisters 1] :=
    h206.press 3
  obtain ⟨hover, h208⟩ := hpressed.cycle_of_not_stores (hbyte 9) rfl rfl rfl pressed.random
  have hindex' : loading.machine.index = 0x300 := hover.index.trans (hsaved.index.trans hindex)
  have hnine : loading.machine.registers = pressed.machine.registers.set 1 9 := hover.registers
  have hloads : loading.machine.faultOf loading.machine.pc (.loadRegisters 1) = none :=
    if_neg (by rw [hindex']; decide)
  obtain ⟨-, h20A⟩ :=
    h208.cycle_of_not_stores ⟨trivial, nofun, nofun⟩ rfl rfl hloads loading.random
  refine ⟨⟨hsave, hindex, ?_⟩, ⟨nofun, ?_, trivial⟩,
    ⟨h208.executes ⟨trivial, nofun, nofun⟩, hindex', ?_⟩, h20A.executes ⟨trivial, nofun, nofun⟩⟩
  · rw [hfive, Registers.get_set, if_pos rfl]
  · exact fun _ a _ _ => (hpressed.executes (hbyte 9)).not_stores rfl a
  · rw [hnine, Registers.get_set, if_pos rfl]

/-- The register that was overwritten has its value again after the load, in spite of a key event
in between, and the second save changes nothing. -/
theorem overwritten_register_restored :
    let start : Console :=
      ⟨.loaded .standard (Instruction.assemble reloadProgram), .ofSequence fun _ => 0⟩
    let saving := start.run [.cycle, .cycle]
    let next := (saving.perform .cycle).console
    let loading := next.run [.press 3, .cycle]
    let loaded := (loading.perform .cycle).console
    (saving.machine.Reachable ∧ saving.machine.Executes (.storeRegisters 1) ∧
        saving.machine.index = 0x300) ∧
      next.EveryCycle (fun n => ∀ a, 0x300 ≤ a → a ≤ 0x301 → ¬ n.Stores a) [.press 3, .cycle] ∧
      (loading.machine.Reachable ∧ loading.machine.Executes (.loadRegisters 1) ∧
        loading.machine.index = 0x300 ∧ loading.machine.registers.get 1 = 9) ∧
      (loading.machine.cycle loading.random).result = .ok .executed ∧
      (loading.machine.cycle loading.random).machine.registers.get 1 = 5 ∧
      loaded.machine.Executes (.storeRegisters 1) ∧
      (loaded.machine.cycle loaded.random).machine.memory = loading.machine.memory := by
  intro start saving next loading loaded
  have hreach (operations : List Operation) : (start.run operations).machine.Reachable := by
    refine ⟨.standard, fun _ => 0, .load (Instruction.assemble reloadProgram) :: operations, ?_⟩
    rw [run_cons, perform_load _ _ (by decide)]
  have hsaving : saving.machine.Reachable := hreach [.cycle, .cycle]
  have hloading : loading.machine.Reachable := by
    have hreached := hreach ([.cycle, .cycle] ++ .cycle :: [.press 3, .cycle])
    rw [run_append, run_cons] at hreached
    exact hreached
  obtain ⟨⟨hsave, hindex, hfive⟩, hfree, ⟨hload, hindex', hnine⟩, hsave'⟩ :=
    reloadProgram_cycles (c := start) (Machine.at_loaded .standard (by decide))
  obtain ⟨hrestores, -⟩ := saved_registers_restored hsaving 1
  obtain ⟨-, hkeeps⟩ := saved_registers_restored hloading 1
  rw [hindex] at hrestores
  rw [hindex'] at hkeeps
  obtain ⟨hresult, -, hget⟩ := hrestores hsave (by decide) (show 0x301 ≤ 0xFFF by decide)
    [.press 3, .cycle] (by simp) hfree 1 (Fin.le_refl 1) hload hindex'
  obtain ⟨-, hmemory⟩ := hkeeps hload (by decide) hresult hsave'
  exact ⟨⟨hsaving, hsave, hindex⟩, hfree, ⟨hloading, hload, hindex', hnine⟩, hresult,
    (hget 1).trans ((if_pos (Fin.le_refl 1)).trans hfive), hsave', hmemory⟩

end Console

end ChipEight
