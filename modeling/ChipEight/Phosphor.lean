import ChipEight.Frame

/-!
# Phosphor

A screen on which pixels that were switched off fade out instead of vanishing at once.
Every pixel has a state of its own: lit, fading with an age, or dark. An age of one
ends the fading.
-/
namespace ChipEight

inductive Glow where
  | lit
  | fading (age : Float32)
  | dark

namespace Glow

/-- State after an update that finds the pixel on or off; `aging` is what the update
adds to the age of a pixel that was fading already. -/
def step (glow : Glow) (on : Bool) (aging : Float32) : Glow :=
  if on then .lit
  else match glow with
    | .lit => .fading 0
    | .fading age => if 1 ≤ age then .dark else .fading (age + aging)
    | .dark => .dark

/-- The greater of two numbers, or the one that is a number. -/
def greater (a b : Float32) : Float32 :=
  if a.isNaN then b else if b.isNaN then a else if a < b then b else a

/-- The smaller of two numbers, or the one that is a number. -/
def smaller (a b : Float32) : Float32 :=
  if a.isNaN then b else if b.isNaN then a else if b < a then b else a

/-- Brightness of a fading pixel: slow at first and faster towards the end. -/
def fadingIntensity (age : Float32) : Float32 :=
  smaller (greater 0 (-Float32.pow 2 ((age - 1) * 5) + 1)) 1

/-- Brightness from zero to one. -/
def intensity : Glow → Float32
  | .lit => 1
  | .fading age => fadingIntensity age
  | .dark => 0

end Glow

structure Phosphor where
  /-- Seconds that a pixel takes to fade out. -/
  decay : Float32
  /-- State of every pixel, in the order of the frame's cells. -/
  glow : Vector Glow 2048

namespace Phosphor

/-- Every pixel dark. -/
def fresh (decay : Float32) : Phosphor := ⟨decay, Vector.replicate 2048 .dark⟩

/-- Age that `dt` seconds add; without a positive decay time any update is a full age. -/
def aging (screen : Phosphor) (dt : Float32) : Float32 :=
  if 0 < screen.decay then dt / screen.decay else 1

/-- Shows a frame after `dt` seconds. -/
def update (screen : Phosphor) (frame : Frame) (dt : Float32) : Phosphor :=
  let aging := screen.aging dt
  { screen with
    glow := Vector.ofFn fun cell => (screen.glow.get cell).step (frame.lit cell) aging }

/-- Brightness of a cell. -/
def intensity (screen : Phosphor) (cell : Fin 2048) : Float32 :=
  (screen.glow.get cell).intensity

end Phosphor

end ChipEight
