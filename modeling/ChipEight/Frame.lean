/-!
# Frame

The screen: 32 rows of 64 cells that are lit or dark. Sprites are eight cells wide
and combined with the frame by exclusive or; what leaves the frame at one edge comes
back at the other. A draw collides when it switches a lit cell off.
-/
namespace ChipEight

structure Frame where
  /-- Row after row, each from left to right. -/
  cells : Vector Bool 2048
  deriving DecidableEq, Repr

namespace Frame

def width : Nat := 64

def height : Nat := 32

/-- Every cell dark. -/
def blank : Frame := ⟨Vector.replicate 2048 false⟩

/-- Says whether a cell is lit. -/
def lit (frame : Frame) (cell : Fin 2048) : Bool := frame.cells.get cell

theorem lit_blank (c : Fin 2048) : blank.lit c = false := by
  change (Vector.replicate 2048 false)[c.val] = false
  rw [Vector.getElem_replicate]

/-- Frames with the same cells are the same. -/
theorem ext_lit {a b : Frame} (h : ∀ c, a.lit c = b.lit c) : a = b := by
  obtain ⟨a⟩ := a
  obtain ⟨b⟩ := b
  exact congrArg mk (Vector.ext fun i hi => h ⟨i, hi⟩)

/-- The cell at a position, with wrap-around in both directions. -/
def cellAt (x y : Nat) : Fin 2048 := ⟨y % 32 * 64 + x % 64, by omega⟩

/-- Switches the cells of a list over, one after the other, and says whether one of
them was lit when its turn came. -/
def toggle (frame : Frame) : List (Fin 2048) → Frame × Bool
  | [] => (frame, false)
  | cell :: rest =>
      let lit := frame.lit cell
      let (after, hit) := toggle ⟨frame.cells.set cell.val (!lit) cell.isLt⟩ rest
      (after, lit || hit)

/-- Setting a cell changes that cell alone. -/
theorem lit_set (frame : Frame) (first c : Fin 2048) (value : Bool) :
    lit ⟨frame.cells.set first.val value first.isLt⟩ c
      = if first = c then value else frame.lit c := by
  change (frame.cells.set first.val value first.isLt)[c.val] = if _ then _ else frame.cells[c.val]
  simp only [Vector.getElem_set, Fin.ext_iff]

/-- A cell is switched over once for each of its occurrences in the list. -/
theorem cell_toggle (frame : Frame) (cells : List (Fin 2048)) (c : Fin 2048) :
    (frame.toggle cells).1.lit c = (frame.lit c ^^ decide (cells.count c % 2 = 1)) := by
  induction cells generalizing frame with
  | nil => simp [toggle]
  | cons first rest ih =>
    simp only [toggle, ih, List.count_cons, lit_set]
    by_cases h : first = c
    · subst h
      simp
      grind
    · simp [h]

/-- Says whether the column `c` of a sprite row is set; the first is the highest bit. -/
def columnSet (row : UInt8) (c : Nat) : Bool := row.toNat.testBit (7 - c)

/-- The cells that a sprite row at a position covers. -/
def rowCells (x y : Nat) (row : UInt8) : List (Fin 2048) :=
  ((List.range 8).filter (columnSet row)).map fun c => cellAt (x + c) y

/-- Draws one sprite row. -/
def drawRow (frame : Frame) (x y : Nat) (row : UInt8) : Frame × Bool :=
  frame.toggle (rowCells x y row)

/-- Draws the rows of a sprite below each other. -/
def draw (frame : Frame) (x y : Nat) : List UInt8 → Frame × Bool
  | [] => (frame, false)
  | row :: rest =>
      let (first, hit) := frame.drawRow x y row
      let (after, more) := first.draw x (y + 1) rest
      (after, hit || more)

/-- The cell `64 * y + x`, without wrap-around. -/
def get? (frame : Frame) (x y : Nat) : Option Bool := frame.cells[x + 64 * y]?

/-- The cells of row `y` from left to right. -/
def row (frame : Frame) (y : Fin 32) : List Bool :=
  (List.range 64).map fun x => frame.lit (cellAt x y.val)

/-- A line per row, lit cells as `#` and dark ones as `.`. -/
def dump (frame : Frame) : String :=
  String.join <| (List.finRange 32).map fun y =>
    String.ofList ((frame.row y).map fun lit => if lit then '#' else '.') ++ "\n"

end Frame

end ChipEight
