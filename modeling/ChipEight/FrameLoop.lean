import ChipEight.Fault

/-!
# Frame loop

A loop that draws frame after frame until one of them says that it is the last, or fails.
-/
namespace ChipEight.FrameLoop

/-- What a frame answers. -/
inductive Signal where
  | again
  | done
  deriving DecidableEq, Repr

/-- Number of frames drawn and the result of the loop, for the answers that the frames
would give; there is no result if the answers run out first. -/
def drive : List (Except Fault Signal) → Nat × Option (Except Fault Unit)
  | [] => (0, none)
  | .ok .again :: rest => ((drive rest).1 + 1, (drive rest).2)
  | .ok .done :: _ => (1, some (.ok ()))
  | .error fault :: _ => (1, some (.error fault))

end ChipEight.FrameLoop
