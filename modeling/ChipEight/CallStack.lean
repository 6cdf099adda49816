import ChipEight.Text.Dump
import ChipEight.Text.Hex

/-!
# Call stack

Sixteen cells, of which the first `depth` hold return addresses. Taking an address
away leaves its cell as it was, so the cells above `depth` keep stale addresses.
-/
namespace ChipEight

structure CallStack where
  depth : Nat
  cells : Vector UInt16 16
  deriving DecidableEq, Repr

namespace CallStack

/-- Number of cells. -/
def capacity : Nat := 16

/-- No address, and every cell zero. -/
def empty : CallStack := ⟨0, Vector.replicate 16 0⟩

def isFull (stack : CallStack) : Bool := stack.depth == capacity

/-- Puts an address on top, if there is room. -/
def push? (stack : CallStack) (addr : UInt16) : Option CallStack :=
  if h : stack.depth < 16 then some ⟨stack.depth + 1, stack.cells.set stack.depth addr h⟩
  else none

/-- Takes the top address away. -/
def pop? (stack : CallStack) : Option (UInt16 × CallStack) :=
  match stack.depth with
  | 0 => none
  | depth + 1 => (stack.cells[depth]?).map fun addr => (addr, ⟨depth, stack.cells⟩)

/-- The addresses in use, the oldest first. -/
def live (stack : CallStack) : List UInt16 := stack.cells.toList.take stack.depth

/-- A push appends to the addresses in use. -/
theorem live_push {stack after : CallStack} {addr : UInt16} (h : stack.push? addr = some after) :
    after.live = stack.live ++ [addr] := by
  unfold push? at h
  split at h
  · rename_i hd
    obtain rfl := Option.some.inj h
    have hl : stack.depth < stack.cells.toList.length := by simpa using hd
    simp only [live, Vector.toList_set, List.take_add_one, List.getElem?_set_self hl,
      Option.toList_some, List.take_set, List.append_cancel_right_eq]
    exact List.set_eq_of_length_le (List.length_take_le _ _)
  · cases h

/-- A pop takes the last of the addresses in use. -/
theorem live_pop {stack after : CallStack} {addr : UInt16}
    (h : stack.pop? = some (addr, after)) : stack.live = after.live ++ [addr] := by
  unfold pop? at h
  split at h
  · cases h
  · rename_i depth hd
    simp only [Option.map_eq_some_iff, Prod.mk.injEq] at h
    obtain ⟨a, ha, rfl, rfl⟩ := h
    simp [live, hd, List.take_add_one, ha]

/-- Depth and the addresses in use. -/
def dump (stack : CallStack) : String :=
  Dump.labelled "Stack"
    [("sp", toString stack.depth),
     ("frames", Dump.list (stack.live.map fun addr => Dump.plain (Hex.lower 3 addr.toNat)))]

end CallStack

end ChipEight
