import ChipEight.Launch
import ChipEight.Phosphor
import ChipEight.Session.Turn

/-!
# Program

Runs a program file on the terminal. The program goes on until it fails, and what it
draws is shown sixty times a second.
-/
namespace ChipEight.Program

/-- Milliseconds from one drawing to the next. -/
def drawInterval : Nat := 16

/-- What the program says when it ends before it starts. -/
def exitText : CommandLine.Exit → String
  | .help =>
      "usage: chipeight ROM_FILE [-c CYCLES] [-d SECONDS] [--seed SEED]" ++
        " [--vip-shift] [--realtime-timers]"
  | .version => "chipeight"
  | .missingFile => "error: no program file was given"
  | .unknownArgument => "error: an argument is not known"
  | .missingValue => "error: a setting has no value"
  | .repeated => "error: a setting was given twice"

/-- Scrambles the bits of a number. -/
def scramble (n : UInt64) : UInt64 :=
  let a := (n ^^^ (n >>> 30)) * 0xBF58476D1CE4E5B9
  let b := (a ^^^ (a >>> 27)) * 0x94D049BB133111EB
  b ^^^ (b >>> 31)

/-- Random words that a seed stands for. -/
def wordsOfSeed (seed : UInt64) (n : Nat) : UInt32 :=
  (scramble (seed + UInt64.ofNat (n + 1) * 0x9E3779B97F4A7C15)).toUInt32

/-- Fault of a file that the system cannot read, where it is one of the known ones. -/
def fileFault? : IO.Error → Option FileFault
  | .noFileOrDirectory _ _ _ => some .notFound
  | .inappropriateType _ code _ => some (if code = 20 then .notDirectory else .isDirectory)
  | .invalidArgument _ code _ => if code = 36 then some .nameTooLong else none
  | _ => none

/-- A character for a brightness. -/
def shade (intensity : Float32) : Char :=
  if 0.75 < intensity then '█'
  else if 0.5 < intensity then '▓'
  else if 0.25 < intensity then '▒'
  else if 0 < intensity then '░'
  else ' '

/-- A line per row of the screen. -/
def picture (screen : Phosphor) : String :=
  String.join <| (List.range 32).map fun y =>
    String.ofList ((List.range 64).map fun x => shade (screen.intensity (Frame.cellAt x y))) ++ "\n"

/-- Ticks that pass before each cycle between two drawings, all of them before the first. -/
def ticksPerDrawing (interval : Nat) : List UInt8 :=
  1 :: List.replicate (drawInterval * 1000000 / max 1 interval - 1) 0

/-- Draws and goes on as long as the session runs. -/
partial def loop (interval : Nat) (session : Session) (screen : Phosphor) : IO Session := do
  let session := session.turns (ticksPerDrawing interval)
  let seconds := (Nat.toFloat drawInterval / 1000).toFloat32
  let screen := match session.published with
    | some snapshot => screen.update snapshot.frame seconds
    | none => screen
  IO.print ("\x1b[H" ++ picture screen)
  if session.running then
    IO.sleep (UInt32.ofNat (max drawInterval (interval / 1000000)))
    loop interval session screen
  else return session

/-- Reports a failure and gives the exit code for it. -/
def fail (message : String) : IO UInt32 := do
  IO.println ("Error: " ++ message)
  return 1

/-- Runs the program that the options ask for. -/
def run (options : CommandLine.Options) : IO UInt32 := do
  let chance ← IO.rand 0 (UInt64.size - 1)
  let seed := options.seed.getD (UInt64.ofNat chance)
  match ← (IO.FS.readBinFile options.file).toBaseIO with
  | .error error => fail ((fileFault? error).elim (toString error) FileFault.message)
  | .ok bytes =>
      match (Launch.ofBytes options (wordsOfSeed seed) bytes.data).result with
      | .error fault => fail fault.message
      | .ok session =>
          let screen := Phosphor.fresh (Float32.ofBits options.decay)
          let session ← loop options.settings.interval session screen
          match (session.halt false).lastReturned with
          | some (.error fault) => fail fault.message
          | _ => return 0

end ChipEight.Program

def main (args : List String) : IO UInt32 := do
  match ChipEight.CommandLine.Options.ofArguments args with
  | .error exit =>
      IO.println (ChipEight.Program.exitText exit)
      return exit.code
  | .ok options => ChipEight.Program.run options
