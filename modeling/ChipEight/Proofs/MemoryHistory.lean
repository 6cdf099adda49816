import ChipEight.Proofs.Invariant
import ChipEight.Proofs.Reload
import Mathlib.Data.List.Induction

/-!
# Memory by its past

A memory that was new shows what its past says (`Memory.remembered`): the font below the area of
programs, and in it the byte that was written last since the last load, or else the one that the
load put there, or else zero. Single bytes, slices and words are three ways to read the same bytes,
and what fails leaves them alone (`Memory.store_by_history`).
-/
namespace ChipEight.Memory

/-- What can be done to a memory. -/
inductive Access where
  | read (addr : Nat)
  | write (addr : Nat) (value : UInt8)
  | slice (addr len : Nat)
  | fetch (pc : UInt16)
  | load (program : Array UInt8)
  deriving DecidableEq, Repr

/-- The byte that an access writes to an address, if programs may write there. -/
def Access.written? (addr : Nat) : Access → Option UInt8
  | .write a value => if a = addr ∧ programStart ≤ a ∧ a < size then some value else none
  | _ => none

/-- The program that an access loads, if it fits. -/
def Access.loaded? : Access → Option (Array UInt8)
  | .load program => if program.size ≤ programRoom then some program else none
  | _ => none

/-- The memory that an access leaves, or the fault that it meets. -/
def attempt (memory : Memory) : Access → Except Fault Memory
  | .read addr => (memory.read addr).map fun _ => memory
  | .write addr value => memory.write addr value
  | .slice addr len => (memory.slice addr len).map fun _ => memory
  | .fetch pc => (memory.fetch pc).map fun _ => memory
  | .load program => memory.load program

/-- State after an access, which may fail. -/
def step (memory : Memory) (access : Access) : Memory :=
  match memory.attempt access with
  | .ok after => after
  | .error _ => memory

/-- State after a list of accesses. -/
def after (memory : Memory) (accesses : List Access) : Memory := accesses.foldl step memory

/-- The byte that was written to an address last, since the last load. -/
def lastWritten? (accesses : List Access) (addr : Nat) : Option UInt8 :=
  (accesses.reverse.takeWhile fun access => access.loaded?.isNone).findSome? (Access.written? addr)

/-- The program that was loaded last; without one, no bytes. -/
def lastLoaded (accesses : List Access) : Array UInt8 :=
  (accesses.reverse.findSome? Access.loaded?).getD #[]

/-- The byte at an address, by what was done to a memory since it was new. -/
def remembered (accesses : List Access) (addr : Nat) : UInt8 :=
  if addr < programStart then (Font.rows[addr]?).getD 0
  else (lastWritten? accesses addr).getD (((lastLoaded accesses)[addr - programStart]?).getD 0)

variable {memory : Memory} {access : Access} {addr : Nat}

/-! ## One access more -/

theorem lastWritten?_concat (accesses : List Access) (access : Access) (addr : Nat) :
    lastWritten? (accesses ++ [access]) addr =
      if access.loaded?.isSome then none
      else (access.written? addr).or (lastWritten? accesses addr) := by
  rw [lastWritten?, List.reverse_concat, List.takeWhile_cons]
  cases hloaded : access.loaded? with
  | some program => simp
  | none =>
    simp only [Option.isNone_none, if_true, Option.isSome_none, List.findSome?_cons, lastWritten?]
    cases access.written? addr <;> simp

theorem lastLoaded_concat (accesses : List Access) (access : Access) :
    lastLoaded (accesses ++ [access]) = access.loaded?.getD (lastLoaded accesses) := by
  rw [lastLoaded, List.reverse_concat, List.findSome?_cons, lastLoaded]
  cases access.loaded? <;> simp

theorem after_concat (memory : Memory) (accesses : List Access) (access : Access) :
    memory.after (accesses ++ [access]) = (memory.after accesses).step access := by
  rw [after, List.foldl_append]
  rfl

theorem step_of_error (access : Access) {fault : Fault} (h : memory.attempt access = .error fault) :
    memory.step access = memory := by
  rw [step, h]

theorem step_of_ok (access : Access) {result : Memory} (h : memory.attempt access = .ok result) :
    memory.step access = result := by
  rw [step, h]

/-- Reading changes nothing, whether there is something to read or not. -/
theorem step_of_reading {α : Type} {result : Except Fault α}
    (h : memory.attempt access = result.map fun _ => memory) : memory.step access = memory := by
  cases result with
  | error fault => exact step_of_error access h
  | ok value => exact step_of_ok access h

/-- What an access does to the area of programs: a load replaces all of it, a write one byte. -/
theorem byte_step (memory : Memory) (access : Access) (h : programStart ≤ addr) :
    (memory.step access).byte addr =
      match access.loaded? with
      | some program => (program[addr - programStart]?).getD 0
      | none => (access.written? addr).getD (memory.byte addr) := by
  cases access with
  | read a | slice a len | fetch pc => exact congrArg (byte · addr) (step_of_reading rfl)
  | write a value =>
    simp only [Access.loaded?, Access.written?]
    by_cases hfree : programStart ≤ a ∧ a < size
    · obtain ⟨after, hwrite⟩ := memory.write_inside value hfree.1 hfree.2
      rw [step_of_ok (.write a value) hwrite, byte_write hwrite]
      by_cases ha : a = addr
      · subst ha
        simp [hfree]
      · simp [ha, Ne.symm ha]
    · have hfails : ∃ fault, memory.write a value = .error fault := by
        rcases Nat.lt_or_ge a programStart with hlow | hlow
        · exact ⟨_, memory.write_protected value hlow⟩
        · exact ⟨_, memory.write_past_end value (Nat.le_of_not_lt fun hlt => hfree ⟨hlow, hlt⟩)⟩
      obtain ⟨fault, hwrite⟩ := hfails
      rw [step_of_error (.write a value) hwrite, if_neg fun hall => hfree hall.2, Option.getD_none]
  | load program =>
    simp only [Access.loaded?]
    by_cases hfits : program.size ≤ programRoom
    · obtain ⟨after, hload⟩ := memory.load_inside hfits
      rw [step_of_ok (.load program) hload, byte_load hload, if_neg (Nat.not_lt.mpr h), if_pos hfits]
    · have hload := memory.load_of_too_large (Nat.lt_of_not_le hfits)
      rw [step_of_error (.load program) hload, if_neg hfits]
      rfl

theorem HasFont.step (h : memory.HasFont) (access : Access) : (memory.step access).HasFont := by
  unfold Memory.step
  cases hattempt : memory.attempt access with
  | error fault => exact h
  | ok result =>
    cases access with
    | read a | slice a len | fetch pc =>
      have hsame := step_of_ok _ hattempt
      rw [step_of_reading rfl] at hsame
      rwa [← hsame]
    | write a value => exact h.write hattempt
    | load program => exact h.load hattempt

/-! ## Whole histories -/

theorem hasFont_after (accesses : List Access) : (fresh.after accesses).HasFont := by
  induction accesses using List.reverseRecOn with
  | nil => exact hasFont_fresh
  | append_singleton accesses access ih =>
    rw [after_concat]
    exact ih.step access

/-- Every byte is what the past says. -/
theorem byte_after (accesses : List Access) (h : addr < size) :
    (fresh.after accesses).byte addr = remembered accesses addr := by
  unfold remembered
  split
  · rename_i hlow
    exact hasFont_after accesses addr hlow
  · rename_i hlow
    have hstart := Nat.le_of_not_lt hlow
    induction accesses using List.reverseRecOn with
    | nil =>
      have hrows : Font.rows.size ≤ addr := Nat.le_trans (by decide) hstart
      rw [after, List.foldl_nil, byte_fresh h, Array.getElem?_eq_none hrows]
      rfl
    | append_singleton accesses access ih =>
      rw [after_concat, byte_step _ _ hstart, lastWritten?_concat, lastLoaded_concat, ih]
      cases access.loaded? with
      | some program => rfl
      | none => cases access.written? addr <;> rfl

/-! ## What the accesses answer -/

theorem write_error_iff (memory : Memory) (addr : Nat) (value : UInt8) (fault : Fault) :
    memory.write addr value = .error fault ↔
      addr < programStart ∧ fault = .protectedWrite addr ∨
        size ≤ addr ∧ fault = .addressOutOfRange addr := by
  have hsize : programStart < size := by decide
  rcases Nat.lt_or_ge addr programStart with hlow | hlow
  · have hroom : ¬ size ≤ addr := by omega
    simp [memory.write_protected value hlow, hlow, hroom, eq_comm]
  · have hbehind : ¬ addr < programStart := Nat.not_lt.mpr hlow
    rcases Nat.lt_or_ge addr size with hlt | hend
    · obtain ⟨after, hwrite⟩ := memory.write_inside value hlow hlt
      simp [hwrite, hbehind, Nat.not_le.mpr hlt]
    · simp [memory.write_past_end value hend, hbehind, hend, eq_comm]

theorem slice_error_iff (memory : Memory) (addr len : Nat) (fault : Fault) :
    memory.slice addr len = .error fault ↔
      size < addr + len ∧ fault = .addressOutOfRange (addr + len - 1) := by
  unfold slice
  split <;> simp [*, eq_comm]

/-- A slice is the list of the single bytes. -/
theorem slice_ok_iff (memory : Memory) (addr len : Nat) (bytes : List UInt8) :
    memory.slice addr len = .ok bytes ↔
      addr + len ≤ size ∧ bytes.map Except.ok = (List.range' addr len).map memory.read := by
  unfold slice
  split
  · rename_i hlarge
    simp [Nat.not_le.mpr hlarge]
  · rename_i hroom
    have hreads : (List.range' addr len).map memory.read =
        ((List.range' addr len).map memory.byte).map Except.ok := by
      rw [List.map_map]
      refine List.map_congr_left fun a ha => ?_
      have hlt : a < 4096 := by
        rw [List.mem_range'_1] at ha
        unfold size at hroom
        omega
      rw [read_eq, if_pos hlt, Function.comp_apply]
    rw [hreads, List.map_inj_right fun _ _ => Except.ok.inj]
    simp [Nat.le_of_not_lt hroom, eq_comm]

theorem fetch_error_iff (memory : Memory) (pc : UInt16) (fault : Fault) :
    memory.fetch pc = .error fault ↔
      0xFFE < pc.toNat ∧ fault = .addressOutOfRange (pc.toNat + 1) := by
  rw [fetch_eq]
  split <;> simp [*, eq_comm]

/-- A word is put together from the single bytes. -/
theorem fetch_ok_iff (memory : Memory) (pc : UInt16) (word : Word) :
    memory.fetch pc = .ok word ↔
      ∃ high low, memory.read pc.toNat = .ok high ∧ memory.read (pc.toNat + 1) = .ok low ∧
        word.toNat = 256 * high.toNat + low.toNat := by
  rw [fetch_eq, read_eq, read_eq]
  split
  · rename_i hend
    rw [if_neg (show ¬ pc.toNat + 1 < 4096 by omega)]
    simp
  · rename_i hroom
    rw [if_pos (show pc.toNat < 4096 by omega), if_pos (show pc.toNat + 1 < 4096 by omega)]
    simp [← UInt16.toNat_inj, toNat_wordAt, eq_comm]

theorem load_error_iff (memory : Memory) (program : Array UInt8) (fault : Fault) :
    memory.load program = .error fault ↔
      programRoom < program.size ∧ fault = .programTooLarge program.size := by
  unfold load
  split
  · rename_i hfits
    simp [Nat.not_lt.mpr hfits]
  · rename_i hlarge
    simp [Nat.lt_of_not_le hlarge, eq_comm]

/-- A memory that was new, whatever was done to it. A byte reads as the past says; it can be
written in the area of programs, read anywhere in memory, and a slice or a word is as good as its
single bytes. Each access fails exactly where it leaves these bounds, names the address at fault,
and then leaves the memory as it was. -/
theorem store_by_history (accesses : List Access) :
    let memory := fresh.after accesses
    (∀ addr, memory.read addr =
        if addr < 4096 then .ok (remembered accesses addr) else .error (.addressOutOfRange addr)) ∧
      (∀ addr value fault, memory.write addr value = .error fault ↔
        addr < 0x200 ∧ fault = .protectedWrite addr ∨
          4096 ≤ addr ∧ fault = .addressOutOfRange addr) ∧
      (∀ addr len fault, memory.slice addr len = .error fault ↔
        4096 < addr + len ∧ fault = .addressOutOfRange (addr + len - 1)) ∧
      (∀ addr len bytes, memory.slice addr len = .ok bytes ↔
        addr + len ≤ 4096 ∧ bytes.map .ok = (List.range' addr len).map memory.read) ∧
      (∀ pc fault, memory.fetch pc = .error fault ↔
        0xFFE < pc.toNat ∧ fault = .addressOutOfRange (pc.toNat + 1)) ∧
      (∀ pc word, memory.fetch pc = .ok word ↔
        ∃ high low, memory.read pc.toNat = .ok high ∧ memory.read (pc.toNat + 1) = .ok low ∧
          word.toNat = 256 * high.toNat + low.toNat) ∧
      (∀ program fault, memory.load program = .error fault ↔
        3584 < program.size ∧ fault = .programTooLarge program.size) ∧
      ∀ access fault, memory.attempt access = .error fault →
        fresh.after (accesses ++ [access]) = memory := by
  intro memory
  refine ⟨fun addr => ?_, memory.write_error_iff, memory.slice_error_iff, memory.slice_ok_iff,
    memory.fetch_error_iff, memory.fetch_ok_iff, memory.load_error_iff, ?_⟩
  · rw [read_eq]
    split
    · rename_i haddr
      rw [byte_after accesses haddr]
    · rfl
  · intro access fault hfails
    rw [after_concat]
    exact step_of_error access hfails

/-- A later program leaves nothing of an earlier one, nor of what was written meanwhile. -/
example : (remembered [.load #[1, 2, 3], .write 0x201 9, .load #[7]] 0x200,
    remembered [.load #[1, 2, 3], .write 0x201 9, .load #[7]] 0x201) = (7, 0) := by
  decide

end ChipEight.Memory
