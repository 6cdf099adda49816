import ChipEight.Frame

/-!
# Frames in bytes

The cells of a frame as bytes that are one or zero. Switching cells over is exclusive or
with one, which leads from such bytes to such bytes (`flipPixels_eq`).
-/
namespace ChipEight.Frame

/-- One for a lit cell, zero for a dark one. -/
def pixels (frame : Frame) : Vector UInt8 2048 :=
  frame.cells.map fun lit => if lit then 1 else 0

/-- The frame that bytes stand for, if each of them is one or zero. -/
def ofPixels? (pixels : Vector UInt8 2048) : Option Frame :=
  if pixels.all fun byte => byte == 0 || byte == 1 then some ⟨pixels.map (· == 1)⟩ else none

/-- Switches the bytes at some indices over, and says whether one of them was a one when its
turn came. An index outside of the frame ends it without an answer. -/
def flipPixels (pixels : Vector UInt8 2048) : List Nat → Option (Vector UInt8 2048 × Bool)
  | [] => some (pixels, false)
  | index :: rest =>
      if h : index < 2048 then do
        let (after, hit) ← flipPixels (pixels.set index (pixels[index] ^^^ 1) h) rest
        some (after, pixels[index] == 1 || hit)
      else none

theorem getElem_pixels (frame : Frame) (k : Fin 2048) :
    frame.pixels[k] = if frame.lit k then 1 else 0 := by
  change (frame.cells.map _)[k.val] = if frame.cells[k.val] then 1 else 0
  rw [Vector.getElem_map]

theorem pixels_zero_or_one (frame : Frame) (k : Fin 2048) :
    frame.pixels[k] = 0 ∨ frame.pixels[k] = 1 := by
  rw [getElem_pixels]
  cases frame.lit k
  · exact Or.inl rfl
  · exact Or.inr rfl

theorem mem_pixels (frame : Frame) : ∀ byte ∈ frame.pixels, byte = 0 ∨ byte = 1 := by
  intro byte hbyte
  obtain ⟨k, hk, rfl⟩ := Vector.getElem_of_mem hbyte
  exact frame.pixels_zero_or_one ⟨k, hk⟩

theorem ofPixels?_pixels (frame : Frame) : ofPixels? frame.pixels = some frame := by
  have hall : (frame.pixels.all fun byte => byte == 0 || byte == 1) = true := by
    rw [Vector.all_eq_true_iff_forall_mem]
    intro byte hbyte
    rw [Bool.or_eq_true, beq_iff_eq, beq_iff_eq]
    exact frame.mem_pixels byte hbyte
  rw [ofPixels?, if_pos hall]
  refine congrArg (fun cells => some (Frame.mk cells)) (Vector.ext fun k hk => ?_)
  rw [pixels, Vector.getElem_map, Vector.getElem_map]
  cases frame.cells[k] <;> rfl

theorem pixels_set (frame : Frame) (cell : Fin 2048) (value : Bool) :
    (Frame.mk (frame.cells.set cell.val value cell.isLt)).pixels =
      frame.pixels.set cell.val (if value then 1 else 0) cell.isLt := by
  rw [pixels, pixels, Vector.map_set]

/-- On bytes the cells of a frame are switched over as in the frame itself. -/
theorem flipPixels_eq (frame : Frame) (cells : List (Fin 2048)) :
    flipPixels frame.pixels (cells.map Fin.val) =
      some ((frame.toggle cells).1.pixels, (frame.toggle cells).2) := by
  induction cells generalizing frame with
  | nil => rfl
  | cons cell rest ih =>
    have hbyte : frame.pixels[cell.val] = if frame.lit cell then 1 else 0 :=
      frame.getElem_pixels cell
    have hflip : frame.pixels[cell.val] ^^^ 1 = if !frame.lit cell then 1 else 0 := by
      rw [hbyte]
      cases frame.lit cell <;> rfl
    have hlit : (frame.pixels[cell.val] == 1) = frame.lit cell := by
      rw [hbyte]
      cases frame.lit cell <;> rfl
    rw [List.map_cons, flipPixels, dif_pos cell.isLt, hflip, hlit, ← pixels_set, ih]
    rfl

end ChipEight.Frame
