import ChipEight.Proofs.Footprint
import Mathlib.Data.Nat.Bitwise

/-!
# Arithmetic

What the operations on two registers compute, in numbers and not in bytes (`Alu.result`,
`Alu.carry`), and which registers they leave it in. The result is lost only where the flag is
written over it, and the flag only where the result is (`combine_result`, `combine_carry`).
-/
namespace ChipEight

namespace Alu

/-- The result for the values `a` and `b` of the two registers; `w` is the value that shifts
work on. -/
def result (op : Alu) (a b w : Nat) : Nat :=
  match op with
  | .copy => b
  | .bitOr => a ||| b
  | .bitAnd => a &&& b
  | .bitXor => a ^^^ b
  | .add => (a + b) % 256
  | .subtract => (((a : Int) - b) % 256).toNat
  | .subtractFrom => (((b : Int) - a) % 256).toNat
  | .shiftRight => w / 2
  | .shiftLeft => 2 * w % 256

/-- Whether the flag gets a one, of the operations that set it: a sum that does not fit, a
difference that needs no borrow, the bit that a shift pushes out. -/
def carry (op : Alu) (a b w : Nat) : Bool :=
  match op with
  | .add => decide (255 < a + b)
  | .subtract => decide (b ≤ a)
  | .subtractFrom => decide (a ≤ b)
  | .shiftRight => decide (w % 2 = 1)
  | .shiftLeft => decide (128 ≤ w)
  | .copy | .bitOr | .bitAnd | .bitXor => false

/-- The flag is written after the result. -/
def flagLast : Alu → Bool
  | .add | .subtract | .subtractFrom => true
  | .copy | .bitOr | .bitAnd | .bitXor | .shiftRight | .shiftLeft => false

end Alu

/-! ## Bytes -/

theorem toNat_byte_sub (a b : UInt8) :
    (a - b).toNat = (((a.toNat : Int) - b.toNat) % 256).toNat := by
  have ha := a.toNat_lt
  have hb := b.toNat_lt
  rw [UInt8.toNat_sub]
  omega

theorem toNat_byte_half (w : UInt8) : (w >>> 1).toNat = w.toNat / 2 := by
  rw [UInt8.toNat_shiftRight]
  exact Nat.shiftRight_eq_div_pow w.toNat 1

theorem toNat_byte_double (w : UInt8) : (w <<< 1).toNat = 2 * w.toNat % 256 := by
  rw [UInt8.toNat_shiftLeft, Nat.mul_comm]
  exact congrArg (· % 256) (Nat.shiftLeft_eq w.toNat 1)

/-- A mask of one bit tells that bit. -/
theorem masked_ne_zero (w : UInt8) {mask : UInt8} {i : Nat} (hmask : mask.toNat = 2 ^ i) :
    (w &&& mask != 0) = w.toNat.testBit i := by
  have hmasked : (w &&& mask).toNat = (w.toNat.testBit i).toNat * 2 ^ i := by
    rw [UInt8.toNat_and, hmask, Nat.and_two_pow]
  rw [Bool.eq_iff_iff, bne_iff_ne, ne_eq, ← UInt8.toNat_inj, hmasked]
  cases w.toNat.testBit i <;> simp

theorem low_bit (w : UInt8) : (w &&& 1 != 0) = decide (w.toNat % 2 = 1) := by
  rw [masked_ne_zero w (i := 0) rfl, Nat.testBit_zero]

theorem high_bit (w : UInt8) : (w &&& 0x80 != 0) = decide (128 ≤ w.toNat) := by
  have hw := w.toNat_lt
  rw [masked_ne_zero w (i := 7) rfl, Nat.testBit_eq_decide_div_mod_eq, decide_eq_decide]
  omega

/-! ## Registers -/

namespace Machine

/-- The value that a shift works on. -/
def shiftOperand (m : Machine) (x y : Register) : UInt8 :=
  match m.shift with
  | .inPlace => m.registers.get x
  | .vip => m.registers.get y

variable {x y : Register} {op : Alu}

/-- The result stays in the first register, except where that is the flag and the flag comes
last. -/
theorem combine_result (m : Machine) (h : x = .flag → op.flagLast = false) :
    ((m.combine x y op).registers.get x).toNat =
      op.result (m.registers.get x).toNat (m.registers.get y).toNat (m.shiftOperand x y).toNat := by
  have hset (regs : Registers) (value : UInt8) :
      ((regs.set x value).get x).toNat = value.toNat := by
    rw [Registers.get_set, if_pos rfl]
  have hbelow (hlast : op.flagLast = true) (value : UInt8) (flag : Bool) :
      (((m.registers.set x value).setFlag flag).get x).toNat = value.toNat := by
    have hx : x ≠ .flag := fun hx => Bool.false_ne_true ((h hx).symm.trans hlast)
    rw [Registers.get_setFlag, if_neg (Ne.symm hx), hset]
  cases op with
  | copy => exact hset _ _
  | bitOr => exact (hset _ _).trans (UInt8.toNat_or _ _)
  | bitAnd => exact (hset _ _).trans (UInt8.toNat_and _ _)
  | bitXor => exact (hset _ _).trans (UInt8.toNat_xor _ _)
  | add => exact (hbelow rfl _ _).trans (UInt8.toNat_add _ _)
  | subtract => exact (hbelow rfl _ _).trans (toNat_byte_sub _ _)
  | subtractFrom => exact (hbelow rfl _ _).trans (toNat_byte_sub _ _)
  | shiftRight => exact (hset _ _).trans (toNat_byte_half _)
  | shiftLeft => exact (hset _ _).trans (toNat_byte_double _)

/-- The flag stays in its register, except where that is the first one and the result comes
last. -/
theorem combine_carry (m : Machine) (hsets : op.setsFlag = true)
    (h : x = .flag → op.flagLast = true) :
    ((m.combine x y op).registers.get .flag).toNat =
      (op.carry (m.registers.get x).toNat (m.registers.get y).toNat
        (m.shiftOperand x y).toNat).toNat := by
  have hflag (regs : Registers) (flag : Bool) :
      ((regs.setFlag flag).get .flag).toNat = flag.toNat := by
    rw [Registers.get_setFlag, if_pos rfl]
    cases flag <;> rfl
  have hbelow (hlast : op.flagLast = false) (flag : Bool) (value : UInt8) :
      (((m.registers.setFlag flag).set x value).get .flag).toNat = flag.toNat := by
    have hx : x ≠ .flag := fun hx => Bool.false_ne_true (hlast.symm.trans (h hx))
    rw [Registers.get_set, if_neg hx, hflag]
  cases op with
  | copy | bitOr | bitAnd | bitXor => cases hsets
  | add | subtract | subtractFrom => exact hflag _ _
  | shiftRight => exact (hbelow rfl _ _).trans (congrArg Bool.toNat (low_bit _))
  | shiftLeft => exact (hbelow rfl _ _).trans (congrArg Bool.toNat (high_bit _))

/-- The operations on two registers, for any contents of the registers and whichever registers are
named. The result and the flag are those of the values before the instruction. Each is found in
its place unless that is one place for both, and then the one that is written last is found there.
No other register is written and nothing else of the machine changes. -/
theorem combine_exact (m : Machine) (random : RandomWords) (origin : UInt16) (x y : Register)
    (op : Alu) :
    let effect := m.execute random origin (.combine x y op)
    let after := effect.machine.registers
    let a := (m.registers.get x).toNat
    let b := (m.registers.get y).toNat
    let w := match m.shift with
      | .inPlace => a
      | .vip => b
    effect.fault = none ∧ effect.random = random ∧ effect.machine = { m with registers := after } ∧
      ((x = .flag → op.flagLast = false) → (after.get x).toNat = op.result a b w) ∧
      (op.setsFlag = true → (x = .flag → op.flagLast = true) →
        (after.get .flag).toNat = (op.carry a b w).toNat) ∧
      ∀ r, r ≠ x → (op.setsFlag = true → r ≠ .flag) → after.get r = m.registers.get r := by
  intro effect after a b w
  have hw : w = (m.shiftOperand x y).toNat := by
    unfold shiftOperand
    cases hrule : m.shift <;> simp only [w, hrule] <;> rfl
  rw [hw]
  refine ⟨rfl, rfl, m.combine_eq x y op, m.combine_result, m.combine_carry, ?_⟩
  intro r hx hflag
  refine m.combine_get_of_not_writes ?_
  rintro (rfl | ⟨hsets, rfl⟩)
  · exact hx rfl
  · exact hflag hsets rfl

/-- Where the first register is the flag, a sum leaves its carry there and a shift its result. By
the rule of the second register that result does not depend on what the flag was. -/
theorem flag_register_combined :
    let m : Machine :=
      { Machine.fresh .standard with
        registers := (Registers.zero.set 15 200).set 1 101
        shift := .vip }
    let random := RandomWords.ofSequence fun _ => 0
    let added := (m.execute random 0x200 (.combine 15 1 .add)).machine.registers
    let shifted := (m.execute random 0x200 (.combine 15 1 .shiftRight)).machine.registers
    (added.get .flag).toNat = 1 ∧ added.get 1 = m.registers.get 1 ∧
      (shifted.get .flag).toNat = 50 ∧ shifted.get 1 = m.registers.get 1 := by
  intro m random added shifted
  obtain ⟨-, -, -, -, hcarry, hrest⟩ := combine_exact m random 0x200 15 1 .add
  obtain ⟨-, -, -, hresult, -, hrest'⟩ := combine_exact m random 0x200 15 1 .shiftRight
  have hhalf : (shifted.get .flag).toNat = 50 := (hresult fun _ => rfl).trans (by decide)
  exact ⟨hcarry rfl fun _ => rfl, hrest 1 (by decide) (fun _ => by decide), hhalf,
    hrest' 1 (by decide) (fun _ => by decide)⟩

end Machine

end ChipEight
