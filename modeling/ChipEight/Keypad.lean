import ChipEight.Text.Dump

/-!
# Keypad

Sixteen keys with a latch each, and at most one request for the next key that goes
down. A request listens from the moment it is made: keys that are down already do
not answer it, and of several presses the first does.
-/
namespace ChipEight

structure Keypad where
  /-- The latch of every key. -/
  down : Vector Bool 16
  /-- A request is open. -/
  waiting : Bool
  /-- First key that went down since the request was made. -/
  pressed : Option UInt8
  deriving DecidableEq, Repr

namespace Keypad

/-- All keys up and no request. -/
def idle : Keypad := ⟨Vector.replicate 16 false, false, none⟩

/-- Sets the latch of a key; other numbers change nothing. -/
def latch (pad : Keypad) (key : UInt8) (down : Bool) : Keypad :=
  if h : key.toNat < 16 then { pad with down := pad.down.set key.toNat down h } else pad

/-- A key goes down, which may answer the open request. -/
def press (pad : Keypad) (key : UInt8) : Keypad :=
  let pad := pad.latch key true
  if key.toNat < 16 ∧ pad.waiting ∧ pad.pressed = none then { pad with pressed := some key }
  else pad

/-- A key goes up. -/
def release (pad : Keypad) (key : UInt8) : Keypad := pad.latch key false

/-- Says whether a key is down; numbers that are no key are up. -/
def isDown (pad : Keypad) (key : UInt8) : Bool := (pad.down[key.toNat]?).getD false

/-- Opens a request, in place of one that is open already. -/
def beginWait (pad : Keypad) : Keypad := { pad with waiting := true, pressed := none }

/-- Takes the key that answers the request and closes it. -/
def takePress (pad : Keypad) : Option UInt8 × Keypad :=
  match pad.pressed with
  | some key => (some key, { pad with waiting := false, pressed := none })
  | none => (none, pad)

theorem isDown_latch (pad : Keypad) (key k : UInt8) (down : Bool) :
    (pad.latch key down).isDown k = if key = k ∧ k.toNat < 16 then down else pad.isDown k := by
  unfold latch isDown
  split
  · simp only [Vector.getElem?_set, UInt8.toNat_inj]
    grind
  · grind

/-- Number whose bit `k` is set when key `k` is down. -/
def mask (pad : Keypad) : Nat :=
  pad.down.toList.foldr (fun down rest => (if down then 1 else 0) + 2 * rest) 0

/-- Latches and request. -/
def dump (pad : Keypad) : String :=
  Dump.labelled "Keypad"
    [("keys", Dump.list (pad.down.toList.map Dump.truth)),
     ("waiting", Dump.truth pad.waiting),
     ("next_press", Dump.optional (pad.pressed.map fun key => toString key.toNat))]

end Keypad

end ChipEight
