/-!
# Text of a time span

A span of whole nanoseconds is written in the largest of the units s, ms, µs and
ns that it reaches, with as many decimals as it needs and no more.
-/
namespace ChipEight.Span

/-- A unit of time: its size in nanoseconds and its sign. -/
structure Scale where
  size : Nat
  sign : String

/-- The units above the nanosecond, the largest first. -/
def scales : List Scale :=
  [⟨1000000000, "s"⟩, ⟨1000000, "ms"⟩, ⟨1000, "µs"⟩]

/-- Decimals of `part / size`, for a power of ten `size` above `part`: the digits
of `part` at their full width, less the zeros at the end. -/
def decimals (size part : Nat) : List Char :=
  let digits := (Nat.toDigits 10 (size + part)).drop 1
  (digits.reverse.dropWhile (· == '0')).reverse

/-- Number of units followed by their sign. -/
def inScale (scale : Scale) (nanoseconds : Nat) : String :=
  let whole := toString (nanoseconds / scale.size)
  match decimals scale.size (nanoseconds % scale.size) with
  | [] => whole ++ scale.sign
  | digits => whole ++ "." ++ String.ofList digits ++ scale.sign

/-- Text of a span of `nanoseconds`. -/
def text (nanoseconds : Nat) : String :=
  match scales.find? fun scale => decide (scale.size ≤ nanoseconds) with
  | some scale => inScale scale nanoseconds
  | none => toString nanoseconds ++ "ns"

end ChipEight.Span
