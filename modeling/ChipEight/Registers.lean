import ChipEight.Word
import ChipEight.Text.Dump

/-!
# General registers

Sixteen bytes. The last one is also the flag that arithmetic and drawing write.
-/
namespace ChipEight

structure Registers where
  values : Vector UInt8 16
  deriving DecidableEq, Repr

namespace Registers

/-- All registers zero. -/
def zero : Registers := ⟨Vector.replicate 16 0⟩

def get (regs : Registers) (r : Register) : UInt8 := regs.values[r]

def set (regs : Registers) (r : Register) (value : UInt8) : Registers :=
  ⟨regs.values.set r.val value r.isLt⟩

/-- Writes one or zero to the flag. -/
def setFlag (regs : Registers) (flag : Bool) : Registers :=
  regs.set Register.flag (if flag then 1 else 0)

/-- Values of the registers from the first to `last`. -/
def upTo (regs : Registers) (last : Register) : List UInt8 :=
  regs.values.toList.take (last.val + 1)

/-- Changes every register from the first to `last`. -/
def modifyUpTo (regs : Registers) (last : Register) (f : Register → UInt8 → UInt8) :
    Registers :=
  ⟨Vector.ofFn fun r => if r ≤ last then f r (regs.get r) else regs.get r⟩

@[simp] theorem get_set (regs : Registers) (r s : Register) (value : UInt8) :
    (regs.set r value).get s = if r = s then value else regs.get s := by
  simp [get, set, Vector.getElem_set, Fin.ext_iff]

theorem get_setFlag (regs : Registers) (flag : Bool) (r : Register) :
    (regs.setFlag flag).get r =
      if Register.flag = r then if flag then 1 else 0 else regs.get r :=
  regs.get_set _ _ _

@[simp] theorem get_modifyUpTo (regs : Registers) (last r : Register)
    (f : Register → UInt8 → UInt8) :
    (regs.modifyUpTo last f).get r = if r ≤ last then f r (regs.get r) else regs.get r := by
  simp [get, modifyUpTo]

theorem length_upTo (regs : Registers) (last : Register) :
    (regs.upTo last).length = last.val + 1 := by
  rw [upTo, List.length_take, Vector.length_toList]
  omega

theorem getElem_upTo (regs : Registers) (last : Register) (i : Nat)
    (h : i < (regs.upTo last).length) :
    (regs.upTo last)[i] = regs.get ⟨i, by rw [length_upTo] at h; omega⟩ := by
  simp [upTo, get]

/-- Registers with the same values are the same. -/
theorem ext_get {a b : Registers} (h : ∀ r, a.get r = b.get r) : a = b := by
  obtain ⟨a⟩ := a
  obtain ⟨b⟩ := b
  exact congrArg mk (Vector.ext fun i hi => h ⟨i, hi⟩)

/-- Names and values in hexadecimal. -/
def dump (regs : Registers) : String :=
  " ".intercalate <| (List.finRange 16).map fun r =>
    Register.name r ++ "=" ++ Hex.lower 2 (regs.get r).toNat

end Registers

end ChipEight
