/-!
# File trees

Files in directories, and what a path leads to. A path is walked name by name from the
root or from the working directory; every name but the last has to be a directory, and
so has the last if anything follows it. Names and paths have a greatest length, counted
in bytes: a path is measured before the walk, a name when the walk comes to it.
-/
namespace ChipEight

/-- Why a file cannot be read. -/
inductive FileFault where
  | notFound
  | notDirectory
  | isDirectory
  /-- The path or one of its names. -/
  | nameTooLong
  /-- The path holds the null character. -/
  | nullInPath
  deriving DecidableEq, Repr

/-- Report, with the number that the system gives to the fault if it was asked. -/
def FileFault.message : FileFault → String
  | .notFound => "No such file or directory (os error 2)"
  | .notDirectory => "Not a directory (os error 20)"
  | .isDirectory => "Is a directory (os error 21)"
  | .nameTooLong => "File name too long (os error 36)"
  | .nullInPath => "file name contained an unexpected NUL byte"

namespace FileTree

inductive Entry where
  | file (bytes : Array UInt8)
  | directory
  deriving DecidableEq, Repr

end FileTree

structure FileTree where
  /-- Entries below the root, by the names on the way to them. -/
  entries : List (List String × FileTree.Entry)
  workingDirectory : List String
  deriving DecidableEq, Repr

namespace FileTree

/-- Greatest number of bytes in a name. -/
def nameLimit : Nat := 255

/-- Greatest number of bytes in a path. -/
def pathLimit : Nat := 4095

/-- The entry at the end of a way from the root, which is a directory itself. -/
def entry? (tree : FileTree) (way : List String) : Option Entry :=
  if way.isEmpty then some .directory else tree.entries.lookup way

/-- Walks on by one name. -/
def enter (tree : FileTree) (way : List String) (name : String) : Except FileFault (List String) :=
  match tree.entry? way with
  | none => .error .notFound
  | some (.file _) => .error .notDirectory
  | some .directory =>
      if name = "" ∨ name = "." then .ok way
      else if name = ".." then .ok way.dropLast
      else if nameLimit < name.utf8ByteSize then .error .nameTooLong
      else if (tree.entry? (way ++ [name])).isSome then .ok (way ++ [name])
      else .error .notFound

/-- Walks on by the names of a list. -/
def walk (tree : FileTree) (way : List String) : List String → Except FileFault (List String)
  | [] => .ok way
  | name :: rest =>
      match tree.enter way name with
      | .error fault => .error fault
      | .ok next => tree.walk next rest

/-- The bytes of the file at a path. -/
def read (tree : FileTree) (path : String) : Except FileFault (Array UInt8) :=
  if path.contains '\x00' then .error .nullInPath
  else if path = "" then .error .notFound
  else if pathLimit < path.utf8ByteSize then .error .nameTooLong
  else
    let start := if path.startsWith "/" then [] else tree.workingDirectory
    match tree.walk start (path.splitOn "/") with
    | .error fault => .error fault
    | .ok way =>
        match tree.entry? way with
        | some (.file bytes) => .ok bytes
        | some .directory => .error .isDirectory
        | none => .error .notFound

end FileTree

end ChipEight
