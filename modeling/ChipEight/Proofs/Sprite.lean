import ChipEight.Machine.Execute
import ChipEight.Proofs.Storage

/-!
# Sprites from memory

Drawing reads a row and draws it before it reads the next. Up to the end of memory this
is the same as reading all rows first (`drawRows_eq`); past it the rows that exist are
drawn and the first missing address is reported.
-/
namespace ChipEight.Machine

open Memory

/-- The bytes from an address on, as far as memory goes. -/
def rowsAt (memory : Memory) (addr rows : Nat) : List UInt8 :=
  (List.range' addr (min rows (size - addr))).map memory.byte

theorem rowsAt_succ (memory : Memory) {addr : Nat} (rows : Nat) (h : addr < size) :
    rowsAt memory addr (rows + 1) = memory.byte addr :: rowsAt memory (addr + 1) rows := by
  have hcount : min (rows + 1) (size - addr) = min rows (size - (addr + 1)) + 1 := by omega
  simp only [rowsAt, hcount, List.range'_succ, List.map_cons]

theorem rowsAt_end (memory : Memory) (rows : Nat) : rowsAt memory size rows = [] := by
  simp [rowsAt]

/-- Rows that go past the end of memory. -/
theorem rowsAt_past_end (memory : Memory) {addr rows : Nat} (h : size ≤ addr + rows) :
    rowsAt memory addr rows = (List.range' addr (size - addr)).map memory.byte := by
  rw [rowsAt, Nat.min_eq_right (by omega)]

/-- The frame is that of drawing all rows that exist; the answer is the collision, or the
first address past the end. -/
theorem drawRows_eq (memory : Memory) (x rows : Nat) {addr : Nat} (y : Nat) (frame : Frame)
    (hit : Bool) (hend : addr ≤ size) :
    drawRows memory x rows addr y frame hit =
      ((frame.draw x y (rowsAt memory addr rows)).1,
        if size < addr + rows then .error (.addressOutOfRange size)
        else .ok (hit || (frame.draw x y (rowsAt memory addr rows)).2)) := by
  induction rows generalizing addr y frame hit with
  | zero =>
    have hnone : rowsAt memory addr 0 = [] := by simp [rowsAt]
    rw [drawRows, hnone, Frame.draw, if_neg (by omega), Bool.or_false]
  | succ rows ih =>
    by_cases hlast : addr < size
    · have hread : memory.read addr = .ok (memory.byte addr) := by
        rw [read_eq, if_pos (show addr < 4096 from hlast)]
      rw [drawRows, hread, rowsAt_succ memory rows hlast]
      dsimp only [Frame.draw]
      rw [ih (y + 1) _ _ (show addr + 1 ≤ size from hlast), Bool.or_assoc, Nat.add_right_comm,
        Nat.add_assoc]
    · obtain rfl : addr = size := by omega
      have hread : memory.read size = .error (.addressOutOfRange size) := by
        rw [read_eq, if_neg (show ¬ size < 4096 from hlast)]
      rw [drawRows, hread, rowsAt_end, Frame.draw, if_pos (by omega)]

end ChipEight.Machine
