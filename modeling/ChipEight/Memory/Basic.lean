import ChipEight.Fault
import ChipEight.Memory.Font
import ChipEight.Word

/-!
# Memory

4096 bytes. The first 512 belong to the system: they hold the font and zeros, and no
program can write them. Programs are loaded behind them.
-/
namespace ChipEight

structure Memory where
  bytes : Vector UInt8 4096
  deriving DecidableEq, Repr

namespace Memory

/-- Number of bytes. -/
def size : Nat := 4096

/-- Address of the first byte that belongs to programs. -/
def programStart : Nat := 512

/-- Number of bytes that belong to programs. -/
def programRoom : Nat := size - programStart

/-- The font at address zero, and zeros. -/
def fresh : Memory := ⟨Vector.ofFn fun addr => (Font.rows[addr.val]?).getD 0⟩

/-- The byte at an address; zero past the end. -/
def byte (memory : Memory) (addr : Nat) : UInt8 := (memory.bytes[addr]?).getD 0

/-- Replaces everything that belongs to programs by `program` and zeros. -/
def load (memory : Memory) (program : Array UInt8) : Except Fault Memory :=
  if program.size ≤ programRoom then
    .ok ⟨Vector.ofFn fun addr =>
      if addr.val < programStart then memory.bytes[addr]
      else (program[addr.val - programStart]?).getD 0⟩
  else .error (.programTooLarge program.size)

def read (memory : Memory) (addr : Nat) : Except Fault UInt8 :=
  if h : addr < 4096 then .ok memory.bytes[addr] else .error (.addressOutOfRange addr)

/-- Writes a byte that belongs to programs. -/
def write (memory : Memory) (addr : Nat) (value : UInt8) : Except Fault Memory :=
  if addr < programStart then .error (.protectedWrite addr)
  else if h : addr < 4096 then .ok ⟨memory.bytes.set addr value h⟩
  else .error (.addressOutOfRange addr)

/-- Writes bytes one after the other up to the first that cannot be written. -/
def store (memory : Memory) (addr : Nat) : List UInt8 → Memory × Option Fault
  | [] => (memory, none)
  | value :: rest =>
      match memory.write addr value with
      | .error fault => (memory, some fault)
      | .ok after => after.store (addr + 1) rest

/-- `len` bytes from an address on; the fault names the last address asked for. -/
def slice (memory : Memory) (addr len : Nat) : Except Fault (List UInt8) :=
  if size < addr + len then .error (.addressOutOfRange (addr + len - 1))
  else .ok ((List.range' addr len).map memory.byte)

/-- The big-endian word at an address. -/
def fetch (memory : Memory) (pc : UInt16) : Except Fault Word :=
  (memory.slice pc.toNat 2).map Word.ofBytes

theorem byte_eq_zero (memory : Memory) {a : Nat} (h : 4096 ≤ a) : memory.byte a = 0 := by
  simp [byte, h]

theorem byte_write {memory after : Memory} {addr : Nat} {value : UInt8}
    (h : memory.write addr value = .ok after) (a : Nat) :
    after.byte a = if a = addr then value else memory.byte a := by
  unfold write at h
  split at h
  · cases h
  · split at h
    · obtain rfl := Except.ok.inj h
      simp only [byte, Vector.getElem?_set]
      grind
    · cases h

theorem byte_load {memory after : Memory} {program : Array UInt8}
    (h : memory.load program = .ok after) (a : Nat) :
    after.byte a =
      if a < programStart then memory.byte a else (program[a - programStart]?).getD 0 := by
  unfold load at h
  split at h
  · rename_i hs
    obtain rfl := Except.ok.inj h
    by_cases ha : a < 4096
    · simp [byte, ha]
    · have hp : program.size ≤ a - programStart := by
        unfold programRoom size at hs
        omega
      have hq : ¬ a < programStart := by
        unfold programStart
        omega
      rw [byte_eq_zero _ (by omega), if_neg hq, Array.getElem?_eq_none hp, Option.getD_none]
  · cases h

/-- Size in bytes. -/
def dump (memory : Memory) : String :=
  "Memory \x7b " ++ toString memory.bytes.size ++ " bytes \x7d"

end Memory

end ChipEight
