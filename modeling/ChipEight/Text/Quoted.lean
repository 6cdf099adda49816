import ChipEight.Text.Hex
import ChipEight.Text.Unprintable

/-!
# Quoted text

Text between double quotes. Quote and backslash follow a backslash, four controls
have a letter, and every other character without a glyph of its own is written as
its hexadecimal number in braces.
-/
namespace ChipEight.Quoted

/-- Written form of one character. -/
def escape (c : Char) : String :=
  match c with
  | '"' => "\\\""
  | '\\' => "\\\\"
  | '\n' => "\\n"
  | '\r' => "\\r"
  | '\t' => "\\t"
  | '\x00' => "\\0"
  | c => if Unprintable.mem c then "\\u\x7b" ++ Hex.lower 1 c.toNat ++ "\x7d" else c.toString

/-- Quoted form of `s`. -/
def text (s : String) : String :=
  "\"" ++ String.join (s.toList.map escape) ++ "\""

end ChipEight.Quoted
