/-!
# Scanning a command line

Arguments are read from left to right. An argument that begins with a minus sign, and is
more than that, names settings; what follows a setting that takes a value, or is attached
to it, is its value; anything else is the program file. Two minus signs alone end the
settings. Requests for help and arguments that fit nowhere end the scan where they stand;
whether all that is needed was given is asked at the end.
-/
namespace ChipEight.CommandLine

inductive Setting where
  | rate | decay | seed | vipShift | realtimeTimers
  deriving DecidableEq, Repr

namespace Setting

def takesValue : Setting → Bool
  | .rate | .decay | .seed => true
  | .vipShift | .realtimeTimers => false

/-- Names after two minus signs. -/
def ofLong? : String → Option Setting
  | "cycles-per-sec" => some .rate
  | "pixel-decay-time" => some .decay
  | "seed" => some .seed
  | "vip-shift" => some .vipShift
  | "realtime-timers" => some .realtimeTimers
  | _ => none

/-- Letters after one minus sign. -/
def ofLetter? : Char → Option Setting
  | 'c' => some .rate
  | 'd' => some .decay
  | _ => none

end Setting

/-- Why the program ends before it starts. -/
inductive Exit where
  | help
  | version
  | missingFile
  | unknownArgument
  /-- A setting that takes a value has none. -/
  | missingValue
  /-- A setting was given twice. -/
  | repeated
  deriving DecidableEq, Repr

/-- Exit code: to be helped is no failure. -/
def Exit.code : Exit → UInt32
  | .help | .version => 0
  | _ => 1

structure Scan where
  file : Option String
  /-- The settings that were named, in their order. -/
  named : List Setting
  values : List (Setting × String)
  /-- The setting that takes the next argument as its value. -/
  pending : Option Setting
  /-- Settings are over. -/
  ended : Bool
  deriving DecidableEq, Repr

namespace Scan

/-- Nothing was read. -/
def empty : Scan := ⟨none, [], [], none, false⟩

/-- Takes an argument as the program file, of which there is one. -/
def takeFile (scan : Scan) (arg : String) : Except Exit Scan :=
  match scan.file with
  | none => .ok { scan with file := some arg }
  | some _ => .error .unknownArgument

/-- Adds the value of a setting. -/
def addValue (scan : Scan) (setting : Setting) (value : String) : Scan :=
  { scan with values := scan.values ++ [(setting, value)], pending := none }

/-- Notes a setting with the value attached to it, if there is one. The equals signs in
front of an attached value do not belong to it. -/
def note (scan : Scan) (setting : Setting) (attached : Option (List Char)) : Scan :=
  let scan := { scan with named := scan.named ++ [setting] }
  if setting.takesValue then
    match attached with
    | some value => scan.addValue setting (String.ofList (value.dropWhile (· == '=')))
    | none => { scan with pending := some setting }
  else { scan with pending := none }

/-- Takes a name, with what follows its first equals sign attached to it. -/
def takeName (scan : Scan) (cs : List Char) : Except Exit Scan :=
  let attached := match cs.dropWhile (· != '=') with
    | [] => none
    | _ :: value => some value
  match String.ofList (cs.takeWhile (· != '=')) with
  | "help" => .error .help
  | "version" => .error .version
  | name =>
      match Setting.ofLong? name with
      | some setting => .ok (scan.note setting attached)
      | none => .error .unknownArgument

/-- Takes a letter, with what follows it attached to it. -/
def takeLetter (scan : Scan) (c : Char) (rest : List Char) : Except Exit Scan :=
  match c with
  | 'h' => .error .help
  | 'V' => .error .version
  | c =>
      match Setting.ofLetter? c with
      | some setting => .ok (scan.note setting (if rest.isEmpty then none else some rest))
      | none => .error .unknownArgument

/-- Takes one argument. -/
def take (scan : Scan) (arg : String) : Except Exit Scan :=
  if scan.ended then scan.takeFile arg
  else match arg.toList with
    | ['-', '-'] => .ok { scan with ended := true }
    | '-' :: '-' :: cs => scan.takeName (cs.dropWhile (· == '-'))
    | '-' :: c :: rest => scan.takeLetter c rest
    | _ =>
        match scan.pending with
        | some setting => .ok (scan.addValue setting arg)
        | none => scan.takeFile arg

/-- Takes all arguments. -/
def takeAll (scan : Scan) : List String → Except Exit Scan
  | [] => .ok scan
  | arg :: rest =>
      match scan.take arg with
      | .error exit => .error exit
      | .ok next => next.takeAll rest

/-- First value of a setting. -/
def value? (scan : Scan) (setting : Setting) : Option String := scan.values.lookup setting

/-- A setting that takes a value was named without one. -/
def lacksValue (scan : Scan) : Bool :=
  scan.named.any fun setting => setting.takesValue && (scan.value? setting).isNone

/-- A setting was named more than once. -/
def repeats (scan : Scan) : Bool :=
  scan.named.any fun setting => decide (1 < scan.named.count setting)

/-- The program file of a scan that has all that is needed. -/
def check (scan : Scan) : Except Exit String :=
  match scan.file with
  | none => .error .missingFile
  | some file =>
      if scan.lacksValue then .error .missingValue
      else if scan.repeats then .error .repeated
      else .ok file

end Scan

end ChipEight.CommandLine
