import ChipEight.Proofs.Footprint
import ChipEight.Proofs.Pixels
import Mathlib.Algebra.BigOperators.Fin
import Mathlib.Data.List.Nodup

/-!
# Drawing

A draw switches the cells of its sprite over, one after the other (`draw_eq_toggle`). What a cell
shows in the end depends only on how many turns it had, one for each set bit that the sprite puts
on it (`count_spriteCells`). Draws can therefore change places, and done again they cancel. In a
sprite of at most 32 rows no cell has a second turn (`nodup_spriteCells`), and so the frames before
and after such a draw tell whether it collided (`hit_toggle_iff_dark`).
-/
namespace ChipEight.Frame

variable {x y a b : Nat} {sprite : List UInt8} {cells others : List (Fin 2048)}

/-! ## Cells in turn -/

theorem toggle_append (frame : Frame) (first rest : List (Fin 2048)) :
    frame.toggle (first ++ rest) =
      (((frame.toggle first).1.toggle rest).1,
        (frame.toggle first).2 || ((frame.toggle first).1.toggle rest).2) := by
  induction first generalizing frame with
  | nil => simp [toggle]
  | cons cell first ih => simp [toggle, ih, Bool.or_assoc]

/-- The order of the turns does not matter to the frame. -/
theorem toggle_perm (h : cells.Perm others) (frame : Frame) :
    (frame.toggle cells).1 = (frame.toggle others).1 := by
  apply ext_lit
  intro c
  rw [cell_toggle, cell_toggle, h.count_eq]

/-- The same turns once more, in any order, undo the first ones. -/
theorem toggle_again (h : cells.Perm others) (frame : Frame) :
    ((frame.toggle cells).1.toggle others).1 = frame := by
  apply ext_lit
  intro c
  rw [cell_toggle, cell_toggle, h.count_eq, Bool.xor_assoc, Bool.xor_self, Bool.xor_false]

/-- A cell with two turns is lit at one of them, whatever it was before. -/
theorem not_hit_toggle_iff (frame : Frame) :
    (frame.toggle cells).2 = false ↔ cells.Nodup ∧ ∀ c ∈ cells, frame.lit c = false := by
  induction cells generalizing frame with
  | nil => simp [toggle]
  | cons first rest ih =>
    simp only [toggle, Bool.or_eq_false_iff, ih, List.nodup_cons, List.forall_mem_cons, lit_set]
    constructor
    · rintro ⟨hfirst, hnodup, hrest⟩
      -- This turn lights the cell, so that another one would be a hit.
      have hnew : first ∉ rest := by
        intro hmem
        have hlit := hrest first hmem
        simp [hfirst] at hlit
      refine ⟨⟨hnew, hnodup⟩, hfirst, fun c hc => ?_⟩
      have hne : c ≠ first := ne_of_mem_of_not_mem hc hnew
      simpa [hne.symm] using hrest c hc
    · rintro ⟨⟨hnew, hnodup⟩, hfirst, hrest⟩
      refine ⟨hfirst, hnodup, fun c hc => ?_⟩
      have hne : c ≠ first := ne_of_mem_of_not_mem hc hnew
      simpa [hne.symm] using hrest c hc

theorem hit_toggle_iff (hnodup : cells.Nodup) (frame : Frame) :
    (frame.toggle cells).2 = true ↔ ∃ c ∈ cells, frame.lit c = true := by
  rw [← Bool.not_eq_false, not_hit_toggle_iff, and_iff_right hnodup]
  simp

theorem lit_toggle_of_nodup (hnodup : cells.Nodup) (frame : Frame) (c : Fin 2048) :
    (frame.toggle cells).1.lit c = (frame.lit c ^^ decide (c ∈ cells)) := by
  rw [cell_toggle, hnodup.count]
  by_cases hc : c ∈ cells <;> simp [hc]

/-- Where no cell has two turns, a hit is a cell that was lit and is dark. -/
theorem hit_toggle_iff_dark (hnodup : cells.Nodup) (frame : Frame) :
    (frame.toggle cells).2 = true ↔
      ∃ c, frame.lit c = true ∧ (frame.toggle cells).1.lit c = false := by
  rw [hit_toggle_iff hnodup]
  refine exists_congr fun c => ?_
  rw [lit_toggle_of_nodup hnodup]
  by_cases hc : c ∈ cells <;> simp [hc]

/-- At a second run of the same turns, a hit is a cell that was dark before the first. -/
theorem hit_toggle_again_iff (hnodup : cells.Nodup) (frame : Frame) :
    ((frame.toggle cells).1.toggle cells).2 = true ↔
      ∃ c, frame.lit c = false ∧ (frame.toggle cells).1.lit c = true := by
  rw [hit_toggle_iff_dark hnodup, toggle_again (List.Perm.refl cells)]
  exact exists_congr fun c => and_comm

/-! ## The bytes of the cells -/

theorem get_pixels (frame : Frame) (k : Fin 2048) :
    frame.pixels.get k = if frame.lit k then 1 else 0 :=
  frame.getElem_pixels k

theorem get_pixels_eq_one_iff (frame : Frame) (k : Fin 2048) :
    frame.pixels.get k = 1 ↔ frame.lit k = true := by
  rw [get_pixels]
  cases frame.lit k <;> simp

theorem get_pixels_eq_zero_iff (frame : Frame) (k : Fin 2048) :
    frame.pixels.get k = 0 ↔ frame.lit k = false := by
  rw [get_pixels]
  cases frame.lit k <;> simp

/-- A byte of the frame is combined with one as often as its cell has a turn. -/
theorem get_pixels_toggle (frame : Frame) (cells : List (Fin 2048)) (k : Fin 2048) :
    (frame.toggle cells).1.pixels.get k =
      frame.pixels.get k ^^^ UInt8.ofNat (cells.count k % 2) := by
  rw [get_pixels, get_pixels, cell_toggle]
  rcases Nat.mod_two_eq_zero_or_one (cells.count k) with hcount | hcount <;>
    cases frame.lit k <;> simp [hcount]

/-! ## The cells of a sprite -/

/-- The cells of a sprite at a position, in the order of their turns. -/
def spriteCells (x y : Nat) : List UInt8 → List (Fin 2048)
  | [] => []
  | row :: rest => rowCells x y row ++ spriteCells x (y + 1) rest

theorem draw_eq_toggle (frame : Frame) (x y : Nat) (sprite : List UInt8) :
    frame.draw x y sprite = frame.toggle (spriteCells x y sprite) := by
  induction sprite generalizing frame y with
  | nil => rfl
  | cons row rest ih =>
    rw [spriteCells, toggle_append, ← ih]
    rfl

theorem cellAt_eq_iff : cellAt x y = cellAt a b ↔ x % 64 = a % 64 ∧ y % 32 = b % 32 := by
  constructor
  · intro h
    have hcolumn := cellAt_column x y
    have hrow := cellAt_row x y
    rw [h, cellAt_column] at hcolumn
    rw [h, cellAt_row] at hrow
    exact ⟨hcolumn.symm, hrow.symm⟩
  · rintro ⟨hx, hy⟩
    simp only [cellAt, hx, hy]

/-- Positions on the same cell have the same cells for a sprite. -/
theorem spriteCells_congr (hx : x % 64 = a % 64) (hy : y % 32 = b % 32) (sprite : List UInt8) :
    spriteCells x y sprite = spriteCells a b sprite := by
  induction sprite generalizing y b with
  | nil => rfl
  | cons row rest ih =>
    have hrow : rowCells x y row = rowCells a b row :=
      List.map_congr_left fun c _ => cellAt_eq_iff.mpr ⟨by omega, hy⟩
    have hrest : spriteCells x (y + 1) rest = spriteCells a (b + 1) rest := ih (by omega)
    rw [spriteCells, spriteCells, hrow, hrest]

/-- The set bits that a draw puts on a cell, each by its row and its column in the sprite. -/
def strikes (x y : Nat) (sprite : List UInt8) (px : Fin 64) (py : Fin 32) :
    Finset (Fin sprite.length × Fin 8) :=
  {bit | columnSet sprite[bit.1] bit.2 = true ∧
    (x + bit.2.val) % 64 = px.val ∧ (y + bit.1.val) % 32 = py.val}

theorem count_rowCells (x y : Nat) (row : UInt8) (px : Fin 64) (py : Fin 32) :
    (rowCells x y row).count (cellAt px py) =
      ∑ c : Fin 8,
        if columnSet row c = true ∧ (x + c.val) % 64 = px.val ∧ y % 32 = py.val then 1 else 0 := by
  have hrange : List.range 8 = (List.finRange 8).map Fin.val := rfl
  have hcount (p : Fin 8 → Prop) [DecidablePred p] :
      (List.finRange 8).countP (fun c => decide (p c)) = (Finset.univ.filter p).card := by
    rw [List.countP_eq_length_filter]
    rfl
  rw [rowCells, hrange, List.count, List.countP_map, List.countP_filter, List.countP_map,
    ← Finset.card_filter, ← hcount]
  refine List.countP_congr fun c _ => ?_
  simp [cellAt_eq_iff, Nat.mod_eq_of_lt px.isLt, Nat.mod_eq_of_lt py.isLt, and_comm]

/-- A cell has a turn for each set bit that the sprite puts on it. -/
theorem count_spriteCells (x y : Nat) (sprite : List UInt8) (px : Fin 64) (py : Fin 32) :
    (spriteCells x y sprite).count (cellAt px py) = (strikes x y sprite px py).card := by
  rw [strikes, Finset.card_filter, Fintype.sum_prod_type]
  induction sprite generalizing y with
  | nil => rfl
  | cons row rest ih =>
    rw [spriteCells, List.count_append, count_rowCells, ih]
    -- The first row gives the first summand, and the others are a sprite one row further down.
    refine Eq.trans ?_ (Fin.sum_univ_succ _).symm
    simp only [Fin.val_zero, Fin.val_succ, Nat.add_zero, Nat.add_assoc, Nat.add_comm 1]
    rfl

/-- A sprite that is no higher than the screen puts one bit on a cell at most. -/
theorem card_strikes_le_one (h : sprite.length ≤ 32) (px : Fin 64) (py : Fin 32) :
    (strikes x y sprite px py).card ≤ 1 := by
  rw [Finset.card_le_one]
  rintro ⟨r, c⟩ hbit ⟨r', c'⟩ hbit'
  simp only [strikes, Finset.mem_filter] at hbit hbit'
  obtain ⟨-, -, hcolumn, hrow⟩ := hbit
  obtain ⟨-, -, hcolumn', hrow'⟩ := hbit'
  rw [Prod.mk.injEq, Fin.ext_iff, Fin.ext_iff]
  omega

theorem exists_cellAt (cell : Fin 2048) :
    ∃ (px : Fin 64) (py : Fin 32), cell = cellAt px py := by
  refine ⟨⟨cell.val % 64, by omega⟩, ⟨cell.val / 64, by omega⟩, Fin.ext ?_⟩
  simp only [cellAt]
  omega

theorem nodup_spriteCells (h : sprite.length ≤ 32) : (spriteCells x y sprite).Nodup := by
  rw [List.nodup_iff_count_le_one]
  intro cell
  obtain ⟨px, py, rfl⟩ := exists_cellAt cell
  rw [count_spriteCells]
  exact card_strikes_le_one h px py

/-- Drawing switches the cells over on which the sprite puts a bit, and no others. -/
theorem lit_draw_ne_iff (h : sprite.length ≤ 32) (frame : Frame) (px : Fin 64) (py : Fin 32) :
    (frame.draw x y sprite).1.lit (cellAt px py) ≠ frame.lit (cellAt px py) ↔
      (strikes x y sprite px py).Nonempty := by
  rw [draw_eq_toggle, lit_toggle_of_nodup (nodup_spriteCells h), ← Finset.card_pos,
    ← count_spriteCells, List.count_pos_iff]
  cases frame.lit (cellAt px py) <;> simp

theorem exists_columnSet {row : UInt8} (h : row ≠ 0) : ∃ c < 8, columnSet row c = true := by
  have hne : row.toNat ≠ 0 := fun hzero => h (UInt8.toNat_inj.mp hzero)
  obtain ⟨i, hi⟩ := Nat.exists_testBit_of_ne_zero hne
  have hlt : i < 8 := (Nat.pow_lt_pow_iff_right (by decide)).mp
    (Nat.lt_of_le_of_lt (Nat.ge_two_pow_of_testBit hi) row.toNat_lt)
  refine ⟨7 - i, by omega, ?_⟩
  rw [columnSet, Nat.sub_sub_self (Nat.le_of_lt_succ hlt)]
  exact hi

theorem spriteCells_ne_nil {row : UInt8} (hrow : row ∈ sprite) (hset : row ≠ 0) :
    spriteCells x y sprite ≠ [] := by
  induction sprite generalizing y with
  | nil => cases hrow
  | cons first rest ih =>
    rw [spriteCells]
    rcases List.mem_cons.mp hrow with rfl | hrest
    · obtain ⟨c, hc, hcolumn⟩ := exists_columnSet hset
      have hmem : cellAt (x + c) y ∈ rowCells x y row :=
        List.mem_map_of_mem (List.mem_filter.mpr ⟨List.mem_range.mpr hc, hcolumn⟩)
      exact List.append_ne_nil_of_left_ne_nil (List.ne_nil_of_mem hmem) _
    · exact List.append_ne_nil_of_right_ne_nil _ (ih hrest)

/-! ## One draw -/

/-- A sprite that comes around to one of its own cells, as only a sprite of more than 32 rows can,
collides on every frame. -/
theorem draw_hit_of_two_strikes {px : Fin 64} {py : Fin 32}
    (h : 1 < (strikes x y sprite px py).card) (frame : Frame) :
    (frame.draw x y sprite).2 = true := by
  rw [draw_eq_toggle, ← Bool.not_eq_false, not_hit_toggle_iff]
  rintro ⟨hnodup, -⟩
  have hcount := List.nodup_iff_count_le_one.mp hnodup (cellAt px py)
  rw [count_spriteCells] at hcount
  omega

/-- Drawing, pixel by pixel. On the bytes of a frame, no index of a draw is outside of it, and what
was ones and zeros stays so. A byte changes by the parity of the set bits that the sprite puts on
it, and nothing depends on how often the position goes around the screen. Up to 32 rows a draw
collides just when a byte goes from one to zero, and so never on a dark screen. -/
theorem draw_pixel_exact (frame : Frame) (x y : Nat) (sprite : List UInt8) :
    let drawn := frame.draw x y sprite
    flipPixels frame.pixels ((spriteCells x y sprite).map Fin.val) =
        some (drawn.1.pixels, drawn.2) ∧
      (∀ byte ∈ drawn.1.pixels, byte = 0 ∨ byte = 1) ∧
      (∀ (px : Fin 64) (py : Fin 32), drawn.1.pixels.get (cellAt px py) =
        frame.pixels.get (cellAt px py) ^^^ UInt8.ofNat ((strikes x y sprite px py).card % 2)) ∧
      (∀ a b, a % 64 = x % 64 → b % 32 = y % 32 → frame.draw a b sprite = drawn) ∧
      (sprite.length ≤ 32 →
        (drawn.2 = true ↔ ∃ k : Fin 2048, frame.pixels.get k = 1 ∧ drawn.1.pixels.get k = 0)) ∧
      (sprite.length ≤ 32 → (blank.draw x y sprite).2 = false) := by
  intro drawn
  have hdrawn : drawn = frame.toggle (spriteCells x y sprite) := draw_eq_toggle frame x y sprite
  rw [hdrawn]
  refine ⟨flipPixels_eq frame _, mem_pixels _, ?_, ?_, ?_, ?_⟩
  · intro px py
    rw [get_pixels_toggle, count_spriteCells]
  · intro a b ha hb
    rw [draw_eq_toggle, spriteCells_congr ha hb]
  · intro hrows
    simp only [get_pixels_eq_one_iff, get_pixels_eq_zero_iff]
    exact hit_toggle_iff_dark (nodup_spriteCells hrows) frame
  · intro hrows
    rw [draw_eq_toggle, not_hit_toggle_iff]
    exact ⟨nodup_spriteCells hrows, fun c _ => lit_blank c⟩

/-- Two bars around the corner of the screen. On a dark screen they do not collide and light a cell
in the opposite corner; drawn again, a screen further down and right, they collide. -/
theorem corner_bars_drawn :
    let bars : List UInt8 := [0x81, 0x81]
    let first := blank.draw 60 31 bars
    let second := first.1.draw 124 63 bars
    bars.length ≤ 32 ∧ first.2 = false ∧ first.1.pixels.get (cellAt 3 0) = 1 ∧
      second = first.1.draw 60 31 bars ∧ second.2 = true := by
  intro bars first second
  have hfirst := draw_pixel_exact blank 60 31 bars
  have hsecond := draw_pixel_exact first.1 60 31 bars
  have hrows : bars.length ≤ 32 := by decide
  have hstrikes : (strikes 60 31 bars 3 0).card = 1 := by decide
  have hlit : first.1.pixels.get (cellAt 3 0) = 1 := by
    have hpixel := hfirst.2.2.1 3 0
    rw [hstrikes, (get_pixels_eq_zero_iff _ _).mpr (lit_blank _)] at hpixel
    exact hpixel
  have hdark : (first.1.draw 60 31 bars).1.pixels.get (cellAt 3 0) = 0 := by
    have hpixel := hsecond.2.2.1 3 0
    rw [hstrikes] at hpixel
    exact hpixel.trans (congrArg (· ^^^ 1) hlit)
  have hwraps : second = first.1.draw 60 31 bars := hsecond.2.2.2.1 124 63 rfl rfl
  refine ⟨hrows, hfirst.2.2.2.2.2 hrows, hlit, hwraps, ?_⟩
  rw [hwraps]
  exact (hsecond.2.2.2.2.1 hrows).mpr ⟨_, hlit, hdark⟩

/-! ## Many draws -/

/-- A sprite and the position at which it is drawn. -/
structure Placement where
  x : Nat
  y : Nat
  sprite : List UInt8
  deriving DecidableEq, Repr

/-- The cells of the sprite where it is placed. -/
def Placement.covered (p : Placement) : List (Fin 2048) := spriteCells p.x p.y p.sprite

/-- Draws sprites one after the other. -/
def drawAll (frame : Frame) : List Placement → Frame
  | [] => frame
  | p :: rest => (frame.draw p.x p.y p.sprite).1.drawAll rest

theorem drawAll_eq_toggle (frame : Frame) (placements : List Placement) :
    frame.drawAll placements = (frame.toggle (placements.flatMap Placement.covered)).1 := by
  induction placements generalizing frame with
  | nil => rfl
  | cons p rest ih =>
    rw [drawAll, ih, draw_eq_toggle, List.flatMap_cons, toggle_append]
    rfl

/-- The algebra of draws. Any order leads to the same frame, and the same draws once more, in any
order, lead back. Of two equal draws of at most 32 rows the second collides just when the first
lit a cell, and the first just when it put a cell out, so one of them does if the sprite has a set
bit. -/
theorem draws_commute_and_cancel (frame : Frame) :
    (∀ placements others : List Placement, placements.Perm others →
        frame.drawAll others = frame.drawAll placements ∧
          (frame.drawAll placements).drawAll others = frame) ∧
      ∀ (x y : Nat) (sprite : List UInt8), sprite.length ≤ 32 →
        let first := frame.draw x y sprite
        let second := first.1.draw x y sprite
        (second.2 = true ↔ ∃ c, frame.lit c = false ∧ first.1.lit c = true) ∧
          (first.2 = true ↔ ∃ c, frame.lit c = true ∧ first.1.lit c = false) ∧
          ((∃ row ∈ sprite, row ≠ 0) → first.2 = true ∨ second.2 = true) := by
  constructor
  · intro placements others hperm
    have hcells : (placements.flatMap Placement.covered).Perm (others.flatMap Placement.covered) :=
      hperm.flatMap_right _
    simp only [drawAll_eq_toggle]
    exact ⟨toggle_perm hcells.symm frame, toggle_again hcells frame⟩
  · intro x y sprite hrows
    have hnodup : (spriteCells x y sprite).Nodup := nodup_spriteCells hrows
    simp only [draw_eq_toggle]
    have hfirst := hit_toggle_iff_dark hnodup frame
    have hsecond := hit_toggle_again_iff hnodup frame
    refine ⟨hsecond, hfirst, ?_⟩
    rintro ⟨row, hrow, hset⟩
    obtain ⟨c, hc⟩ := List.exists_mem_of_ne_nil _ (spriteCells_ne_nil hrow hset)
    -- The cell of a set bit is lit before the first draw, or else before the second.
    have hturned := lit_toggle_of_nodup hnodup frame c
    rw [decide_eq_true hc] at hturned
    rw [hfirst, hsecond]
    cases hlit : frame.lit c with
    | true => exact Or.inl ⟨c, hlit, by rw [hturned, hlit]; rfl⟩
    | false => exact Or.inr ⟨c, hlit, by rw [hturned, hlit]; rfl⟩

/-- A bar and a ball that overlap in the corner of the screen. -/
theorem bar_and_ball_cancel :
    let bar : Placement := ⟨60, 31, [0xFF]⟩
    let ball : Placement := ⟨62, 30, [0x18, 0x3C]⟩
    let first := blank.draw 60 31 [0xFF]
    let second := first.1.draw 60 31 [0xFF]
    [bar, ball].Perm [ball, bar] ∧
      blank.drawAll [ball, bar] = blank.drawAll [bar, ball] ∧
      (blank.drawAll [bar, ball]).drawAll [ball, bar] = blank ∧
      first.2 = false ∧ second.2 = true := by
  intro bar ball first second
  have hperm : [bar, ball].Perm [ball, bar] := List.Perm.swap ball bar []
  obtain ⟨horder, hcollide⟩ := draws_commute_and_cancel blank
  obtain ⟨hsame, hback⟩ := horder _ _ hperm
  obtain ⟨-, hfirst, hone⟩ := hcollide 60 31 [0xFF] (by decide)
  have hmiss : first.2 = false := by
    rw [← Bool.not_eq_true]
    intro hhit
    obtain ⟨c, hlit, -⟩ := hfirst.mp hhit
    cases (lit_blank c).symm.trans hlit
  have hsecond : second.2 = true :=
    (hone ⟨0xFF, List.mem_singleton_self _, by decide⟩).resolve_left (by rw [hmiss]; decide)
  exact ⟨hperm, hsame, hback, hmiss, hsecond⟩

end ChipEight.Frame
