import ChipEight.Proofs.Cycle
import Mathlib.Data.List.Forall2

/-!
# Assembling

The word of an instruction holds its operands where the fields of a word are read, and a word is
made of its fields. So an instruction is read back from its word, and a word from the instruction
that it stands for (`decode?_eq_some_iff`). The exceptions are two addresses of host code, whose
words are those of the instructions without operands. `patterns` lists the forms of words as they
are usually written; a word that has none of them stands for nothing (`decode?_eq_none_iff`).
-/
namespace ChipEight

/-- The two bytes of a word, the high one first. -/
def Word.bytes (w : Word) : List UInt8 := [UInt8.ofNat (w.toNat / 256), UInt8.ofNat (w.toNat % 256)]

/-- The four hexadecimal digits of a word, the highest first. -/
def Word.digits (w : Word) : List Nat :=
  [w.toNat / 4096, w.toNat / 256 % 16, w.toNat / 16 % 16, w.toNat % 16]

/-- The word has the digits of the pattern. A letter that is no digit stands for any digit. -/
def Word.Matches (w : Word) (pattern : String) : Prop :=
  List.Forall₂ (fun digit c => Hex.digit? c = none ∨ Hex.digit? c = some digit)
    w.digits pattern.toList

theorem Word.nibble_eq_iff {w : Word} {n : UInt8} : w.nibble = n ↔ w.toNat % 16 = n.toNat := by
  rw [nibble, ← UInt8.toNat_inj, UInt8.toNat_ofNat', Nat.mod_eq_of_lt (by omega)]

theorem Word.byte_eq_iff {w : Word} {n : UInt8} : w.byte = n ↔ w.toNat % 256 = n.toNat := by
  rw [byte, ← UInt8.toNat_inj, UInt8.toNat_ofNat', Nat.mod_eq_of_lt (by omega)]

theorem Alu.number_of_ofNumber? {n : Nat} {op : Alu} (h : ofNumber? n = some op) :
    op.number = n := by
  unfold ofNumber? at h
  split at h <;> cases h <;> rfl

theorem Alu.not_mem_of_ofNumber? {n : Nat} (h : ofNumber? n = none) :
    n ∉ [0, 1, 2, 3, 4, 5, 6, 7, 0xE] := by
  unfold ofNumber? at h
  split at h
  case h_10 => simp_all
  all_goals cases h

namespace Instruction

/-- The forms of words: fixed digits, and `n`, `k`, `x` and `y` for the digits of operands. -/
def patterns : List String :=
  ["00E0", "00EE", "0nnn", "1nnn", "2nnn", "3xkk", "4xkk", "5xy0", "6xkk", "7xkk",
   "8xy0", "8xy1", "8xy2", "8xy3", "8xy4", "8xy5", "8xy6", "8xy7", "8xyE", "9xy0",
   "Annn", "Bnnn", "Cxkk", "Dxyn", "Ex9E", "ExA1",
   "Fx07", "Fx0A", "Fx15", "Fx18", "Fx1E", "Fx29", "Fx33", "Fx55", "Fx65"]

/-- The form of an instruction's word. -/
def pattern : Instruction → String
  | .clearScreen => "00E0"
  | .ret => "00EE"
  | .system _ => "0nnn"
  | .jump _ => "1nnn"
  | .call _ => "2nnn"
  | .skipByte _ _ false => "3xkk"
  | .skipByte _ _ true => "4xkk"
  | .skipRegister _ _ false => "5xy0"
  | .setByte _ _ => "6xkk"
  | .addByte _ _ => "7xkk"
  | .combine _ _ .copy => "8xy0"
  | .combine _ _ .bitOr => "8xy1"
  | .combine _ _ .bitAnd => "8xy2"
  | .combine _ _ .bitXor => "8xy3"
  | .combine _ _ .add => "8xy4"
  | .combine _ _ .subtract => "8xy5"
  | .combine _ _ .shiftRight => "8xy6"
  | .combine _ _ .subtractFrom => "8xy7"
  | .combine _ _ .shiftLeft => "8xyE"
  | .skipRegister _ _ true => "9xy0"
  | .setIndex _ => "Annn"
  | .callIndexed _ => "Bnnn"
  | .random _ _ => "Cxkk"
  | .draw _ _ _ => "Dxyn"
  | .skipKey _ false => "Ex9E"
  | .skipKey _ true => "ExA1"
  | .getDelay _ => "Fx07"
  | .waitKey _ => "Fx0A"
  | .setDelay _ => "Fx15"
  | .setSound _ => "Fx18"
  | .addIndex _ => "Fx1E"
  | .glyph _ => "Fx29"
  | .storeDecimal _ => "Fx33"
  | .storeRegisters _ => "Fx55"
  | .loadRegisters _ => "Fx65"

/-- The operands fit, and the word stands for this instruction alone: host code at two of its
addresses would read as an instruction without operands. -/
structure Assemblable (ins : Instruction) : Prop where
  inRange : ins.InRange
  ne_clearScreen : ins ≠ .system 0x0E0
  ne_ret : ins ≠ .system 0x0EE

/-- The bytes of a program, word after word. -/
def assemble (program : List Instruction) : Array UInt8 :=
  (program.flatMap fun ins => ins.encode.bytes).toArray

/-! ## The fields of a word -/

section Fields

variable {family last : Nat} {target : UInt16} {x y : Register} {byte : UInt8}

theorem toNat_wordOfAddress (hfamily : family < 16) (htarget : target.toNat < 4096) :
    (wordOfAddress family target).toNat = family * 4096 + target.toNat := by
  rw [wordOfAddress, UInt16.toNat_ofNat', Nat.mod_eq_of_lt (by omega)]

theorem toNat_wordOfByte (x : Register) (byte : UInt8) (hfamily : family < 16) :
    (wordOfByte family x byte).toNat = family * 4096 + x.val * 256 + byte.toNat := by
  have hbyte := byte.toNat_lt
  rw [wordOfByte, UInt16.toNat_ofNat', Nat.mod_eq_of_lt (by omega)]

theorem toNat_wordOfPair (x y : Register) (hfamily : family < 16) (hlast : last < 16) :
    (wordOfPair family x y last).toNat = family * 4096 + x.val * 256 + y.val * 16 + last := by
  rw [wordOfPair, UInt16.toNat_ofNat', Nat.mod_eq_of_lt (by omega)]

theorem family_wordOfAddress (hfamily : family < 16) (htarget : target.toNat < 4096) :
    (wordOfAddress family target).family = family := by
  rw [Word.family, toNat_wordOfAddress hfamily htarget]
  omega

theorem address_wordOfAddress (hfamily : family < 16) (htarget : target.toNat < 4096) :
    (wordOfAddress family target).address = target := by
  rw [Word.address, toNat_wordOfAddress hfamily htarget, ← UInt16.toNat_inj, UInt16.toNat_ofNat']
  omega

theorem family_wordOfByte (hfamily : family < 16) : (wordOfByte family x byte).family = family := by
  have hbyte := byte.toNat_lt
  rw [Word.family, toNat_wordOfByte x byte hfamily]
  omega

theorem x_wordOfByte (hfamily : family < 16) : (wordOfByte family x byte).x = x := by
  have hbyte := byte.toNat_lt
  apply Fin.ext
  change (wordOfByte family x byte).toNat / 256 % 16 = x.val
  rw [toNat_wordOfByte x byte hfamily]
  omega

theorem byte_wordOfByte (hfamily : family < 16) : (wordOfByte family x byte).byte = byte := by
  have hbyte := byte.toNat_lt
  rw [Word.byte, toNat_wordOfByte x byte hfamily, ← UInt8.toNat_inj, UInt8.toNat_ofNat']
  omega

theorem family_wordOfPair (hfamily : family < 16) (hlast : last < 16) :
    (wordOfPair family x y last).family = family := by
  rw [Word.family, toNat_wordOfPair x y hfamily hlast]
  omega

theorem x_wordOfPair (hfamily : family < 16) (hlast : last < 16) :
    (wordOfPair family x y last).x = x := by
  apply Fin.ext
  change (wordOfPair family x y last).toNat / 256 % 16 = x.val
  rw [toNat_wordOfPair x y hfamily hlast]
  omega

theorem y_wordOfPair (hfamily : family < 16) (hlast : last < 16) :
    (wordOfPair family x y last).y = y := by
  apply Fin.ext
  change (wordOfPair family x y last).toNat / 16 % 16 = y.val
  rw [toNat_wordOfPair x y hfamily hlast]
  omega

theorem nibble_wordOfPair (hfamily : family < 16) (hlast : last < 16) :
    (wordOfPair family x y last).nibble = UInt8.ofNat last := by
  rw [Word.nibble, toNat_wordOfPair x y hfamily hlast]
  congr 1
  omega

end Fields

theorem wordOfAddress_fields (w : Word) : wordOfAddress w.family w.address = w := by
  have hw := w.toNat_lt
  rw [wordOfAddress, Word.family, Word.address, ← UInt16.toNat_inj, UInt16.toNat_ofNat',
    UInt16.toNat_ofNat']
  omega

theorem wordOfByte_fields (w : Word) : wordOfByte w.family w.x w.byte = w := by
  have hw := w.toNat_lt
  simp only [wordOfByte, Word.family, Word.x, Word.byte, Register.ofNibble, ← UInt16.toNat_inj,
    UInt16.toNat_ofNat', UInt8.toNat_ofNat']
  omega

theorem wordOfPair_fields (w : Word) : wordOfPair w.family w.x w.y w.nibble.toNat = w := by
  have hw := w.toNat_lt
  simp only [wordOfPair, Word.family, Word.x, Word.y, Word.nibble, Register.ofNibble,
    ← UInt16.toNat_inj, UInt16.toNat_ofNat', UInt8.toNat_ofNat']
  omega

theorem digits_wordOfAddress {family : Nat} {target : UInt16} (hfamily : family < 16)
    (htarget : target.toNat < 4096) :
    (wordOfAddress family target).digits =
      [family, target.toNat / 256, target.toNat / 16 % 16, target.toNat % 16] := by
  simp only [Word.digits, toNat_wordOfAddress hfamily htarget, List.cons.injEq, and_true]
  omega

theorem digits_wordOfByte {family : Nat} (x : Register) (byte : UInt8) (hfamily : family < 16) :
    (wordOfByte family x byte).digits = [family, x.val, byte.toNat / 16, byte.toNat % 16] := by
  have hbyte := byte.toNat_lt
  simp only [Word.digits, toNat_wordOfByte x byte hfamily, List.cons.injEq, and_true]
  omega

theorem digits_wordOfPair {family last : Nat} (x y : Register) (hfamily : family < 16)
    (hlast : last < 16) : (wordOfPair family x y last).digits = [family, x.val, y.val, last] := by
  simp only [Word.digits, toNat_wordOfPair x y hfamily hlast, List.cons.injEq, and_true]
  omega

/-! ## One word -/

theorem decode?_encode {ins : Instruction} (h : ins.Assemblable) :
    decode? ins.encode = some ins := by
  obtain ⟨hrange, hclear, hret⟩ := h
  cases ins with
  | clearScreen | ret => rfl
  | system target =>
    have haddress : (wordOfAddress 0x0 target).address = target :=
      address_wordOfAddress (by decide) hrange
    have hne : ∀ w, w.address ≠ target → wordOfAddress 0x0 target ≠ w := by
      rintro w hw rfl
      exact hw haddress
    have hclear' : (0x00E0 : Word).address ≠ target := fun heq => hclear (heq ▸ rfl)
    have hret' : (0x00EE : Word).address ≠ target := fun heq => hret (heq ▸ rfl)
    simp [encode, decode?, family_wordOfAddress, show target.toNat < 4096 from hrange, haddress,
      hne _ hclear', hne _ hret']
  | jump target | call target | setIndex target | callIndexed target =>
    have htarget : target.toNat < 4096 := hrange
    simp [encode, decode?, family_wordOfAddress, address_wordOfAddress, htarget]
  | skipByte x byte negated =>
    cases negated <;> simp [encode, decode?, family_wordOfByte, x_wordOfByte, byte_wordOfByte]
  | setByte x byte | addByte x byte | random x byte =>
    simp [encode, decode?, family_wordOfByte, x_wordOfByte, byte_wordOfByte]
  | skipRegister x y negated =>
    cases negated <;>
      simp [encode, decode?, family_wordOfPair, x_wordOfPair, y_wordOfPair, nibble_wordOfPair]
  | combine x y op =>
    cases op <;>
      simp [encode, decode?, Alu.number, Alu.ofNumber?, family_wordOfPair, x_wordOfPair,
        y_wordOfPair, nibble_wordOfPair]
  | draw x y height =>
    have hheight : height.toNat < 16 := hrange
    simp [encode, decode?, family_wordOfPair, x_wordOfPair, y_wordOfPair, nibble_wordOfPair,
      hheight]
  | skipKey x negated =>
    cases negated <;>
      simp [encode, decode?, decodeKey?, family_wordOfByte, x_wordOfByte, byte_wordOfByte]
  | _ => simp [encode, decode?, decodeDevice?, family_wordOfByte, x_wordOfByte, byte_wordOfByte]

/-- Nothing of a word is lost by decoding it. -/
theorem encode_of_decode? {w : Word} {ins : Instruction} (h : decode? w = some ins) :
    ins.encode = w := by
  have haddress := wordOfAddress_fields w
  have hbyte := wordOfByte_fields w
  have hpair := wordOfPair_fields w
  unfold decode? at h
  -- The cases are the sixteen families in their order, and what is no digit.
  split at h
  case h_17 => cases h
  all_goals
    rename_i hfamily
    rw [hfamily] at haddress hbyte hpair
  case h_1 =>
    split at h
    · rename_i hw
      cases h
      exact hw.symm
    · split at h
      · rename_i hw
        cases h
        exact hw.symm
      · cases h
        exact haddress
  case h_2 | h_3 | h_11 | h_12 =>
    cases h
    exact haddress
  case h_6 | h_10 =>
    split at h
    · rename_i hnibble
      cases h
      rw [hnibble] at hpair
      exact hpair
    · cases h
  case h_9 =>
    obtain ⟨op, hop, rfl⟩ := Option.map_eq_some_iff.mp h
    rw [← Alu.number_of_ofNumber? hop] at hpair
    exact hpair
  case h_14 =>
    cases h
    exact hpair
  case h_15 =>
    unfold decodeKey? at h
    split at h
    case h_3 => cases h
    all_goals
      rename_i hlow
      rw [hlow] at hbyte
      cases h
      exact hbyte
  case h_16 =>
    unfold decodeDevice? at h
    split at h
    case h_10 => cases h
    all_goals
      rename_i hlow
      rw [hlow] at hbyte
      cases h
      exact hbyte
  all_goals
    cases h
    exact hbyte

/-- What was read from a word can be assembled again. -/
theorem assemblable_of_decode? {w : Word} {ins : Instruction} (h : decode? w = some ins) :
    ins.Assemblable where
  inRange := decode_inRange h
  ne_clearScreen := by
    rintro rfl
    obtain rfl : (0x00E0 : Word) = w := encode_of_decode? h
    cases h
  ne_ret := by
    rintro rfl
    obtain rfl : (0x00EE : Word) = w := encode_of_decode? h
    cases h

/-- Decoding is the inverse of encoding. -/
theorem decode?_eq_some_iff {w : Word} {ins : Instruction} :
    decode? w = some ins ↔ ins.Assemblable ∧ ins.encode = w := by
  constructor
  · intro h
    exact ⟨assemblable_of_decode? h, encode_of_decode? h⟩
  · rintro ⟨h, rfl⟩
    exact decode?_encode h

/-! ## The forms of words -/

theorem pattern_mem (ins : Instruction) : ins.pattern ∈ patterns := by
  unfold pattern patterns
  split <;> simp

theorem encode_matches {ins : Instruction} (h : ins.InRange) : ins.encode.Matches ins.pattern := by
  cases ins with
  | clearScreen | ret => simp [encode, pattern, Word.Matches, Word.digits, Hex.digit?]
  | system target | jump target | call target | setIndex target | callIndexed target =>
    have htarget : target.toNat < 4096 := h
    simp [encode, pattern, Word.Matches, digits_wordOfAddress, htarget, Hex.digit?]
  | skipByte x byte negated =>
    cases negated <;> simp [encode, pattern, Word.Matches, digits_wordOfByte, Hex.digit?]
  | skipRegister x y negated =>
    cases negated <;> simp [encode, pattern, Word.Matches, digits_wordOfPair, Hex.digit?]
  | combine x y op =>
    cases op <;> simp [encode, pattern, Word.Matches, digits_wordOfPair, Hex.digit?, Alu.number]
  | draw x y height =>
    have hheight : height.toNat < 16 := h
    simp [encode, pattern, Word.Matches, digits_wordOfPair, hheight, Hex.digit?]
  | skipKey x negated =>
    cases negated <;> simp [encode, pattern, Word.Matches, digits_wordOfByte, Hex.digit?]
  | _ => simp [encode, pattern, Word.Matches, digits_wordOfByte, Hex.digit?]

/-- The gaps between the forms lie in the families that are told apart by a last digit or a last
byte. -/
theorem undecoded_cases {w : Word} (h : decode? w = none) :
    (w.family = 0x5 ∧ w.toNat % 16 ≠ 0) ∨
      (w.family = 0x8 ∧ w.toNat % 16 ∉ [0, 1, 2, 3, 4, 5, 6, 7, 0xE]) ∨
      (w.family = 0x9 ∧ w.toNat % 16 ≠ 0) ∨
      (w.family = 0xE ∧ w.toNat % 256 ∉ [0x9E, 0xA1]) ∨
      (w.family = 0xF ∧
        w.toNat % 256 ∉ [0x07, 0x0A, 0x15, 0x18, 0x1E, 0x29, 0x33, 0x55, 0x65]) := by
  unfold decode? at h
  split at h
  case h_1 =>
    split at h
    · cases h
    · split at h <;> cases h
  case h_6 =>
    rename_i hfamily
    split at h
    · cases h
    · rename_i hnibble
      exact Or.inl ⟨hfamily, fun hzero => hnibble (Word.nibble_eq_iff.mpr hzero)⟩
  case h_9 =>
    rename_i hfamily
    have hlast : w.nibble.toNat = w.toNat % 16 := (Word.nibble_eq_iff.mp rfl).symm
    rw [Option.map_eq_none_iff, hlast] at h
    exact Or.inr (Or.inl ⟨hfamily, Alu.not_mem_of_ofNumber? h⟩)
  case h_10 =>
    rename_i hfamily
    split at h
    · cases h
    · rename_i hnibble
      exact Or.inr (Or.inr (Or.inl ⟨hfamily, fun hzero => hnibble (Word.nibble_eq_iff.mpr hzero)⟩))
  case h_15 =>
    rename_i hfamily
    refine Or.inr (Or.inr (Or.inr (Or.inl ⟨hfamily, ?_⟩)))
    unfold decodeKey? at h
    split at h
    case h_3 => simp_all [Word.byte_eq_iff]
    all_goals cases h
  case h_16 =>
    rename_i hfamily
    refine Or.inr (Or.inr (Or.inr (Or.inr ⟨hfamily, ?_⟩)))
    unfold decodeDevice? at h
    split at h
    case h_10 => simp_all [Word.byte_eq_iff]
    all_goals cases h
  case h_17 =>
    have hfamily : w.family < 16 := Nat.div_lt_of_lt_mul w.toNat_lt
    exfalso
    simp only [imp_false] at *
    omega
  all_goals cases h

theorem not_matches_of_undecoded {w : Word} (h : decode? w = none) {pattern : String}
    (hpattern : pattern ∈ patterns) : ¬ w.Matches pattern := by
  revert pattern
  rcases undecoded_cases h with ⟨hfamily, hlast⟩ | ⟨hfamily, hlast⟩ | ⟨hfamily, hlast⟩ |
    ⟨hfamily, hlast⟩ | ⟨hfamily, hlast⟩
  all_goals
    rw [Word.family] at hfamily
    -- What is left is that the word has none of the last digits of the forms in its family.
    simp [Word.Matches, Word.digits, patterns, Hex.digit?, hfamily] at hlast ⊢
    omega

/-- A word stands for no instruction exactly if it has none of the forms. -/
theorem decode?_eq_none_iff {w : Word} :
    decode? w = none ↔ ∀ pattern ∈ patterns, ¬ w.Matches pattern := by
  constructor
  · intro h pattern hpattern
    exact not_matches_of_undecoded h hpattern
  · intro h
    cases hdecoded : decode? w with
    | none => rfl
    | some ins =>
      obtain ⟨hins, rfl⟩ := decode?_eq_some_iff.mp hdecoded
      exact absurd (encode_matches hins.inRange) (h _ ins.pattern_mem)

/-! ## A program -/

theorem size_assemble (program : List Instruction) :
    (assemble program).size = 2 * program.length := by
  induction program with
  | nil => rfl
  | cons first rest ih =>
    simp only [assemble, List.size_toArray, List.flatMap_cons, List.length_append,
      List.length_cons, Word.bytes, List.length_nil] at ih ⊢
    omega

/-- Two bytes for every instruction, in their order. -/
theorem getElem?_assemble {program : List Instruction} {k : Nat} (hk : k < program.length)
    (j : Nat) (hj : j < 2) : (assemble program)[2 * k + j]? = program[k].encode.bytes[j]? := by
  induction program generalizing k with
  | nil => cases hk
  | cons first rest ih =>
    simp only [assemble, List.getElem?_toArray, List.flatMap_cons] at ih ⊢
    cases k with
    | zero =>
      rw [List.getElem?_append_left (by simpa [Word.bytes] using hj), Nat.mul_zero, Nat.zero_add]
      rfl
    | succ k =>
      have hindex : 2 * (k + 1) + j - first.encode.bytes.length = 2 * k + j := by
        simp only [Word.bytes, List.length_cons, List.length_nil]
        omega
      rw [List.getElem?_append_right (by simp [Word.bytes]; omega), hindex,
        ih (Nat.lt_of_succ_lt_succ hk)]
      rfl

theorem ofNat_bytes (w : Word) :
    UInt16.ofNat (256 * (UInt8.ofNat (w.toNat / 256)).toNat + (UInt8.ofNat (w.toNat % 256)).toNat) =
      w := by
  have hw := w.toNat_lt
  rw [← UInt16.toNat_inj, UInt16.toNat_ofNat', UInt8.toNat_ofNat', UInt8.toNat_ofNat']
  omega

/-- A loaded program has the words of its instructions. -/
theorem wordAt_assemble {memory after : Memory} {program : List Instruction}
    (h : memory.load (assemble program) = .ok after) {k : Nat} (hk : k < program.length) :
    after.wordAt (0x200 + 2 * k) = program[k].encode := by
  rw [Memory.wordAt_load_add h, getElem?_assemble hk 1 (by decide),
    ← Nat.add_zero (2 * k), getElem?_assemble hk 0 (by decide)]
  exact ofNat_bytes _

theorem fetch_assemble {memory after : Memory} {program : List Instruction}
    (h : memory.load (assemble program) = .ok after)
    (hprogram : ∀ ins ∈ program, ins.Assemblable)
    (hroom : 2 * program.length ≤ Memory.programRoom) {k : Nat} (hk : k < program.length) :
    (after.fetch (UInt16.ofNat (0x200 + 2 * k))).map decode? = .ok (some program[k]) := by
  have hend : 2 * k + 2 ≤ 3584 := Nat.le_trans (Nat.mul_le_mul_left 2 hk) hroom
  have haddr : (UInt16.ofNat (0x200 + 2 * k)).toNat = 0x200 + 2 * k := by
    rw [UInt16.toNat_ofNat', Nat.mod_eq_of_lt (by omega)]
  have hdecoded : decode? program[k].encode = some program[k] :=
    decode?_encode (hprogram _ (List.getElem_mem hk))
  rw [Memory.fetch_eq, haddr, if_neg (by omega), wordAt_assemble h hk, Except.map, hdecoded]

/-- Every instruction is encoded in its form. What was assembled and loaded is fetched and decoded
again, instruction by instruction; what a word decodes to is encoded in that word; and the words
that do not decode are those that have none of the thirty-five forms. -/
theorem assembling_inverts_decoding :
    (∀ ins : Instruction, ins.InRange → ins.pattern ∈ patterns ∧ ins.encode.Matches ins.pattern) ∧
      (∀ (memory : Memory) (program : List Instruction), (∀ ins ∈ program, ins.Assemblable) →
        2 * program.length ≤ Memory.programRoom →
        ∃ after, memory.load (assemble program) = .ok after ∧
          ∀ k (hk : k < program.length),
            (after.fetch (UInt16.ofNat (0x200 + 2 * k))).map decode? = .ok (some program[k])) ∧
      (∀ (w : Word) (ins : Instruction), decode? w = some ins →
        ins.encode = w ∧ ins.InRange) ∧
      patterns.length = 35 ∧
      ∀ w : Word, decode? w = none ↔ ∀ pattern ∈ patterns, ¬ w.Matches pattern := by
  refine ⟨?_, ?_, ?_, rfl, ?_⟩
  · intro ins h
    exact ⟨ins.pattern_mem, encode_matches h⟩
  · intro memory program hprogram hroom
    have hsize : (assemble program).size ≤ Memory.programRoom := by rwa [size_assemble]
    obtain ⟨after, hload⟩ : ∃ after, memory.load (assemble program) = .ok after :=
      ⟨_, if_pos hsize⟩
    exact ⟨after, hload, fun k hk => fetch_assemble hload hprogram hroom hk⟩
  · intro w ins h
    exact ⟨encode_of_decode? h, decode_inRange h⟩
  · intro w
    exact decode?_eq_none_iff

/-- Host code is called, and a sprite is drawn behind it. -/
theorem call_and_draw_assemble :
    let program : List Instruction := [.call 0x2EE, .system 0x0EF, .draw 0xE 0xF 15]
    (∀ ins ∈ program, ins.Assemblable) ∧ 2 * program.length ≤ Memory.programRoom ∧
      assemble program = #[0x22, 0xEE, 0x00, 0xEF, 0xDE, 0xFF] ∧
      (∃ after, Memory.fresh.load (assemble program) = .ok after ∧
        ∀ k (hk : k < program.length),
          (after.fetch (UInt16.ofNat (0x200 + 2 * k))).map decode? = .ok (some program[k])) ∧
      (encode (.draw 0xE 0xF 15)).Matches "Dxyn" ∧
      decode? 0xDEFF = some (.draw 0xE 0xF 15) ∧ encode (.draw 0xE 0xF 15) = 0xDEFF := by
  intro program
  have hcall : Assemblable (.call 0x2EE) :=
    ⟨(by decide : (0x2EE : UInt16).toNat < 4096), by decide, by decide⟩
  have hsystem : Assemblable (.system 0x0EF) :=
    ⟨(by decide : (0x0EF : UInt16).toNat < 4096), by decide, by decide⟩
  have hdraw : Assemblable (.draw 0xE 0xF 15) :=
    ⟨(by decide : (15 : UInt8).toNat < 16), by decide, by decide⟩
  have hprogram : ∀ ins ∈ program, ins.Assemblable := by
    simp [program, hcall, hsystem, hdraw]
  have hroom : 2 * program.length ≤ Memory.programRoom := by decide
  obtain ⟨hform, hloaded, hencoded, -⟩ := assembling_inverts_decoding
  have hdecoded : decode? 0xDEFF = some (.draw 0xE 0xF 15) := rfl
  exact ⟨hprogram, hroom, rfl, hloaded Memory.fresh program hprogram hroom,
    (hform _ hdraw.inRange).2, hdecoded, (hencoded _ _ hdecoded).1⟩

end Instruction

end ChipEight
