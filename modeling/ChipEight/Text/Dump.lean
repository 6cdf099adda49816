/-!
# One-line pictures of values

A dump shows the structure of a value: a name with positional parts, a name with
labelled parts, a list, or a part that may be missing.
-/
namespace ChipEight.Dump

/-- Parts divided by a comma and a blank. -/
def commas (parts : List String) : String := ", ".intercalate parts

/-- A name with positional parts in round brackets. -/
def call (name : String) (parts : List String) : String :=
  name ++ "(" ++ commas parts ++ ")"

/-- A name with labelled parts in braces. -/
def labelled (name : String) (parts : List (String × String)) : String :=
  name ++ " \x7b " ++ commas (parts.map fun part => part.1 ++ ": " ++ part.2) ++ " \x7d"

/-- Items in square brackets. -/
def list (items : List String) : String := "[" ++ commas items ++ "]"

/-- A part that may be missing. -/
def optional : Option String → String
  | none => "None"
  | some text => call "Some" [text]

/-- A truth value. -/
def truth (b : Bool) : String := if b then "true" else "false"

/-- Plain text between quotes, for text that needs no escapes. -/
def plain (text : String) : String := "\"" ++ text ++ "\""

end ChipEight.Dump
