import ChipEight.Memory.Basic

/-!
# Loops over memory in closed form

A store of several bytes stops at the first byte that cannot be written. What it
leaves behind is said here without the loop: below the area of programs nothing is
written at all, and past the end the bytes that still fit are kept (`patch`).
-/
namespace ChipEight.Memory

/-- Two memories are the same when their bytes are. -/
theorem ext_byte {a b : Memory} (h : ∀ addr, addr < 4096 → a.byte addr = b.byte addr) : a = b := by
  obtain ⟨a⟩ := a
  obtain ⟨b⟩ := b
  refine congrArg mk (Vector.ext fun addr haddr => ?_)
  simpa only [byte, Vector.getElem?_eq_getElem haddr, Option.getD_some] using h addr haddr

theorem read_eq (memory : Memory) (addr : Nat) :
    memory.read addr =
      if addr < 4096 then .ok (memory.byte addr) else .error (.addressOutOfRange addr) := by
  unfold read
  by_cases h : addr < 4096
  · rw [dif_pos h, if_pos h, byte, Vector.getElem?_eq_getElem h, Option.getD_some]
  · rw [dif_neg h, if_neg h]

/-- Memory with the bytes of a list from an address on. What would lie past the end is
left out. -/
def patch (memory : Memory) (addr : Nat) (values : List UInt8) : Memory :=
  ⟨Vector.ofFn fun a =>
    if addr ≤ a.val then (values[a.val - addr]?).getD (memory.byte a.val) else memory.byte a.val⟩

theorem byte_patch (memory : Memory) (addr : Nat) (values : List UInt8) {a : Nat} (h : a < 4096) :
    (memory.patch addr values).byte a =
      if addr ≤ a then (values[a - addr]?).getD (memory.byte a) else memory.byte a := by
  simp only [byte, patch, Vector.getElem?_ofFn, dif_pos h, Option.getD_some]

theorem byte_patch_add (memory : Memory) (addr : Nat) {values : List UInt8} {k : Nat}
    (hk : k < values.length) (h : addr + k < 4096) :
    (memory.patch addr values).byte (addr + k) = values[k] := by
  rw [byte_patch _ _ _ h, if_pos (Nat.le_add_right addr k), Nat.add_sub_cancel_left,
    List.getElem?_eq_getElem hk, Option.getD_some]

/-- To put down what is there already changes nothing. -/
theorem patch_self {memory : Memory} {addr : Nat} {values : List UInt8}
    (h : ∀ k (hk : k < values.length), values[k] = memory.byte (addr + k)) :
    memory.patch addr values = memory := by
  refine ext_byte fun a ha => ?_
  by_cases hblock : addr ≤ a ∧ a - addr < values.length
  · obtain ⟨k, rfl⟩ := Nat.exists_eq_add_of_le hblock.1
    have hk : k < values.length := by simpa using hblock.2
    rw [byte_patch_add memory addr hk ha, h k hk]
  · rw [byte_patch _ _ _ ha]
    split
    · rename_i hle
      have hbehind : values.length ≤ a - addr := Nat.le_of_not_lt fun hlt => hblock ⟨hle, hlt⟩
      rw [List.getElem?_eq_none hbehind, Option.getD_none]
    · rfl

theorem patch_nil (memory : Memory) (addr : Nat) : memory.patch addr [] = memory :=
  patch_self fun k hk => absurd hk (Nat.not_lt_zero k)

/-- Past the end there is nothing to replace. -/
theorem patch_past_end (memory : Memory) {addr : Nat} (values : List UInt8) (h : 4096 ≤ addr) :
    memory.patch addr values = memory := by
  refine ext_byte fun a ha => ?_
  rw [byte_patch _ _ _ ha, if_neg (by omega)]

/-- The bytes of a list may be put down one after the other. -/
theorem patch_cons {memory after : Memory} {addr : Nat} {value : UInt8}
    (h : memory.write addr value = .ok after) (rest : List UInt8) :
    after.patch (addr + 1) rest = memory.patch addr (value :: rest) := by
  refine ext_byte fun a ha => ?_
  rw [byte_patch _ _ _ ha, byte_patch _ _ _ ha, byte_write h a]
  rcases Nat.lt_trichotomy a addr with hlt | rfl | hgt
  · rw [if_neg (by omega), if_neg (by omega), if_neg (by omega)]
  · rw [if_neg (by omega), if_pos rfl, if_pos (Nat.le_refl a), Nat.sub_self]
    rfl
  · have hindex : a - addr = a - (addr + 1) + 1 := by omega
    rw [if_pos (by omega), if_neg (by omega), if_pos (by omega), hindex, List.getElem?_cons_succ]

theorem write_protected (memory : Memory) {addr : Nat} (value : UInt8) (h : addr < programStart) :
    memory.write addr value = .error (.protectedWrite addr) := by
  rw [write, if_pos h]

theorem write_past_end (memory : Memory) {addr : Nat} (value : UInt8) (h : size ≤ addr) :
    memory.write addr value = .error (.addressOutOfRange addr) := by
  have hstart : ¬ addr < programStart := Nat.not_lt.mpr (Nat.le_trans (by decide) h)
  rw [write, if_neg hstart, dif_neg (show ¬ addr < 4096 from Nat.not_lt.mpr h)]

theorem write_inside (memory : Memory) {addr : Nat} (value : UInt8) (hstart : programStart ≤ addr)
    (hend : addr < size) : ∃ after, memory.write addr value = .ok after := by
  rw [write, if_neg (Nat.not_lt.mpr hstart), dif_pos (show addr < 4096 from hend)]
  exact ⟨_, rfl⟩

/-- Below the area of programs the first byte already fails. -/
theorem store_protected (memory : Memory) {addr : Nat} {values : List UInt8}
    (h : addr < programStart) (hne : values ≠ []) :
    memory.store addr values = (memory, some (.protectedWrite addr)) := by
  cases values with
  | nil => exact absurd rfl hne
  | cons value rest => rw [store, memory.write_protected value h]

/-- A store that starts in the area of programs leaves the bytes that fit behind, whether it
fails or not, and fails at the end of memory if there are more. -/
theorem store_eq (memory : Memory) {addr : Nat} (values : List UInt8)
    (h : programStart ≤ addr) (hend : addr ≤ size) :
    memory.store addr values =
      (memory.patch addr values,
        if size < addr + values.length then some (.addressOutOfRange size) else none) := by
  induction values generalizing memory addr with
  | nil => rw [store, patch_nil, if_neg (by simpa using hend)]
  | cons value rest ih =>
    by_cases hlast : addr < size
    · obtain ⟨after, hwrite⟩ := memory.write_inside value h hlast
      rw [store, hwrite]
      dsimp only
      rw [ih after (by omega) hlast, patch_cons hwrite, List.length_cons]
      congr 2
      exact propext (by omega)
    -- Nothing fits any more, so this is where every store that is too long ends.
    · have haddr : addr = size := by omega
      rw [store, memory.write_past_end value (Nat.le_of_not_lt hlast), patch_past_end _ _ (by omega : size ≤ addr)]
      dsimp only
      rw [if_pos (by rw [List.length_cons]; omega), haddr]

/-- The big-endian word at an address. -/
def wordAt (memory : Memory) (addr : Nat) : Word :=
  UInt16.ofNat (256 * (memory.byte addr).toNat + (memory.byte (addr + 1)).toNat)

/-- Two bytes always fit into a word. -/
theorem toNat_wordAt (memory : Memory) (addr : Nat) :
    (memory.wordAt addr).toNat =
      256 * (memory.byte addr).toNat + (memory.byte (addr + 1)).toNat := by
  have hhigh := (memory.byte addr).toNat_lt
  have hlow := (memory.byte (addr + 1)).toNat_lt
  rw [wordAt, UInt16.toNat_ofNat']
  exact Nat.mod_eq_of_lt (by omega)

theorem ofBytes_pair (high low : UInt8) :
    Word.ofBytes [high, low] = UInt16.ofNat (256 * high.toNat + low.toNat) := by
  apply UInt16.toNat_inj.mp
  have hhigh := high.toNat_lt
  have hlow := low.toNat_lt
  simp only [Word.ofBytes, List.foldl_cons, List.foldl_nil, UInt16.toNat_add, UInt16.toNat_mul,
    UInt8.toNat_toUInt16, UInt16.toNat_ofNat, UInt16.toNat_ofNat']
  omega

/-- Fetching needs two bytes. A program counter behind them is named by the second one. -/
theorem fetch_eq (memory : Memory) (pc : UInt16) :
    memory.fetch pc =
      if 0xFFE < pc.toNat then .error (.addressOutOfRange (pc.toNat + 1))
      else .ok (memory.wordAt pc.toNat) := by
  unfold fetch slice
  by_cases h : 0xFFE < pc.toNat
  · rw [if_pos h, if_pos (show size < pc.toNat + 2 by unfold size; omega)]
    rfl
  · rw [if_neg h, if_neg (show ¬ size < pc.toNat + 2 by unfold size; omega)]
    exact congrArg Except.ok (ofBytes_pair _ _)

/-- The words of a program, told by the distance from its start. -/
theorem wordAt_load_add {memory after : Memory} {program : Array UInt8}
    (h : memory.load program = .ok after) (k : Nat) :
    after.wordAt (0x200 + k) =
      UInt16.ofNat
        (256 * ((program[k]?).getD 0).toNat + ((program[k + 1]?).getD 0).toNat) := by
  have hbyte : ∀ j, after.byte (0x200 + j) = (program[j]?).getD 0 := by
    intro j
    rw [byte_load h, if_neg (by unfold programStart; omega), programStart,
      Nat.add_sub_cancel_left]
  rw [wordAt, Nat.add_assoc, hbyte, hbyte]

/-- The first word of a program. -/
theorem wordAt_load {memory after : Memory} {program : Array UInt8}
    (h : memory.load program = .ok after) :
    after.wordAt 0x200 =
      UInt16.ofNat (256 * ((program[0]?).getD 0).toNat + ((program[1]?).getD 0).toNat) :=
  wordAt_load_add h 0

end ChipEight.Memory
