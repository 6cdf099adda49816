/-!
# Keyboard

The sixteen keys of the keypad lie in a square of four rows and four columns of the
keyboard:

    1 2 3 C        1 2 3 4
    4 5 6 D   at   Q W E R
    7 8 9 E        A S D F
    A 0 B F        Z X C V
-/
namespace ChipEight.Keyboard

/-- The keys of the square, row after row, by their names. -/
def square : List (String × UInt8) :=
  [("Num1", 0x1), ("Num2", 0x2), ("Num3", 0x3), ("Num4", 0xC),
   ("Q", 0x4), ("W", 0x5), ("E", 0x6), ("R", 0xD),
   ("A", 0x7), ("S", 0x8), ("D", 0x9), ("F", 0xE),
   ("Z", 0xA), ("X", 0x0), ("C", 0xB), ("V", 0xF)]

/-- Names of the keys on the keyboard: digits, letters, and some others. -/
def names : List String :=
  (List.range 10).map (fun n => "Num" ++ toString n) ++
  (List.range 26).map (fun n => (Char.ofNat ('A'.toNat + n)).toString) ++
  ["Escape", "Space", "Return", "Tab", "Up", "Down", "Left", "Right", "LShift", "F1", "Kp1"]

/-- The key of the keypad that a key of the keyboard stands for. -/
def keypadKey? (name : String) : Option UInt8 := square.lookup name

end ChipEight.Keyboard
