import ChipEight.Proofs.Assembling
import ChipEight.Proofs.RunLog

/-!
# Disassembly

A line of assembly text is an operation code and operands. Without its commas it is words divided
by blanks, and each word can be read back, so `ofMnemonic?` recovers the instruction from its line
(`ofMnemonic?_mnemonic`). With the instruction comes the word that it was decoded from, and so the
trace lines of a run tell which words it executed.
-/
namespace ChipEight

namespace Hex

/-- The number that digits stand for. -/
def read? (digits : List Char) : Option Nat :=
  digits.foldlM (fun n c => (digit? c).map (16 * n + ·)) 0

theorem digit?_digitChar {n : Nat} (h : n < 16) : digit? n.digitChar.toUpper = some n := by
  revert n
  decide

theorem read?_toDigits (n : Nat) : read? ((Nat.toDigits 16 n).map Char.toUpper) = some n := by
  induction n using Nat.strongRecOn with
  | ind n ih =>
    by_cases hlow : n < 16
    · simp [read?, Nat.toDigits_of_lt_base hlow, digit?_digitChar hlow]
    · have hlast : n % 16 < 16 := Nat.mod_lt n (by decide)
      have hfirst := ih (n / 16) (by omega)
      rw [read?] at hfirst
      rw [Nat.toDigits_of_base_le (by decide) (by omega), List.map_append, read?,
        List.foldlM_append, hfirst]
      simp [digit?_digitChar hlast]
      omega

/-- Zeros in front change nothing. -/
theorem read?_pad (width : Nat) (digits : List Char) : read? (pad width digits) = read? digits := by
  rw [pad]
  induction width - digits.length with
  | zero => rfl
  | succ zeros ih =>
    rw [List.replicate_succ, List.cons_append, ← ih]
    simp [read?, digit?]

theorem read?_upper (width n : Nat) : read? (upper width n).toList = some n := by
  rw [upper, String.toList_ofList, read?_pad, read?_toDigits]

theorem le_length_upper (width n : Nat) : width ≤ (upper width n).toList.length := by
  rw [upper, String.toList_ofList, pad, List.length_append, List.length_replicate]
  omega

theorem length_upper {width n : Nat} (hwidth : 0 < width) (h : n < 16 ^ width) :
    (upper width n).toList.length = width := by
  have hlength := (Nat.length_toDigits_le_iff (by decide) hwidth).mpr h
  rw [upper, String.toList_ofList, pad, List.length_append, List.length_replicate, List.length_map]
  omega

/-- Only digits can be read. -/
theorem isSome_digit?_of_mem {digits : List Char} {start n : Nat}
    (h : digits.foldlM (fun n c => (digit? c).map (16 * n + ·)) start = some n) {c : Char}
    (hc : c ∈ digits) : (digit? c).isSome := by
  induction digits generalizing start with
  | nil => cases hc
  | cons first rest ih =>
    rw [List.foldlM_cons] at h
    obtain ⟨next, hfirst, hrest⟩ := Option.bind_eq_some_iff.mp h
    rcases List.mem_cons.mp hc with rfl | hc
    · obtain ⟨digit, hdigit, -⟩ := Option.map_eq_some_iff.mp hfirst
      rw [hdigit, Option.isSome_some]
    · exact ih hrest hc

theorem isSome_digit?_of_mem_upper {width n : Nat} {c : Char} (hc : c ∈ (upper width n).toList) :
    (digit? c).isSome :=
  isSome_digit?_of_mem (read?_upper width n) hc

end Hex

/-- The text can stand between the blanks and commas of a line. -/
def Plain (text : String) : Prop := ∀ c ∈ text.toList, c ≠ ' ' ∧ c ≠ ','

/-- An operand in a line of assembly text. -/
inductive Operand where
  | register (x : Register)
  | address (target : UInt16)
  | byte (value : UInt8)
  | rows (height : UInt8)
  | index
  | memory
  | delay
  | sound
  | key
  | glyph
  | decimal
  deriving DecidableEq, Repr

namespace Operand

def text : Operand → String
  | .register x => x.name
  | .address target => addressText target
  | .byte value => byteText value
  | .rows height => toString height.toNat
  | .index => "I"
  | .memory => "[I]"
  | .delay => "DT"
  | .sound => "ST"
  | .key => "K"
  | .glyph => "F"
  | .decimal => "B"

/-- The operand that a word of a line stands for. Bytes have two digits and addresses more. -/
def read? (word : List Char) : Option Operand :=
  if word.all Char.isDigit then some (.rows (UInt8.ofNat (Nat.ofDigitChars 10 word 0)))
  else
    match word with
    | '0' :: 'x' :: digits =>
        (Hex.read? digits).map fun n =>
          if digits.length = 2 then .byte (UInt8.ofNat n) else .address (UInt16.ofNat n)
    | ['V', c] => ((Hex.digit? c).bind Register.ofNumber?).map .register
    | ['I'] => some .index
    | ['[', 'I', ']'] => some .memory
    | ['D', 'T'] => some .delay
    | ['S', 'T'] => some .sound
    | ['K'] => some .key
    | ['F'] => some .glyph
    | ['B'] => some .decimal
    | _ => none

theorem toList_name (x : Register) : x.name.toList = 'V' :: (Hex.upper 1 x.val).toList := by
  simp [Register.name]

theorem toList_addressText (target : UInt16) :
    (addressText target).toList = '0' :: 'x' :: (Hex.upper 3 target.toNat).toList := by
  simp [addressText]

theorem toList_byteText (value : UInt8) :
    (byteText value).toList = '0' :: 'x' :: (Hex.upper 2 value.toNat).toList := by
  simp [byteText]

theorem read?_hex (digits : List Char) :
    read? ('0' :: 'x' :: digits) =
      (Hex.read? digits).map fun n =>
        if digits.length = 2 then .byte (UInt8.ofNat n) else .address (UInt16.ofNat n) :=
  rfl

/-- An operand is read back from its text. -/
theorem read?_text (operand : Operand) : read? operand.text.toList = some operand := by
  cases operand with
  | register x =>
    revert x
    decide
  | address target =>
    have hlength := Hex.le_length_upper 3 target.toNat
    rw [text, toList_addressText, read?_hex, Hex.read?_upper, Option.map_some, if_neg (by omega),
      UInt16.ofNat_toNat]
  | byte value =>
    have hlength : (Hex.upper 2 value.toNat).toList.length = 2 :=
      Hex.length_upper (by decide) value.toNat_lt
    rw [text, toList_byteText, read?_hex, Hex.read?_upper, Option.map_some, if_pos hlength,
      UInt8.ofNat_toNat]
  | rows height =>
    have hdigits : (Nat.toDigits 10 height.toNat).all Char.isDigit = true :=
      List.all_eq_true.mpr fun c hc => Nat.isDigit_of_mem_toDigits (by decide) (by decide) hc
    unfold read?
    rw [text, Nat.toString_eq_repr, Nat.toList_repr, if_pos hdigits,
      Nat.ofDigitChars_ten_toDigits, UInt8.ofNat_toNat]
  | _ => rfl

/-- A text that ends in digits is plain if what stands before them is. -/
theorem plain_upper {text : String} (front : List Char) {width n : Nat}
    (htext : text.toList = front ++ (Hex.upper width n).toList)
    (hfront : ∀ c ∈ front, c ≠ ' ' ∧ c ≠ ',') : Plain text := by
  intro c hc
  rw [htext, List.mem_append] at hc
  rcases hc with hc | hc
  · exact hfront c hc
  · have hdigit := Hex.isSome_digit?_of_mem_upper hc
    constructor
    · rintro rfl
      cases hdigit
    · rintro rfl
      cases hdigit

theorem plain_text (operand : Operand) : Plain operand.text := by
  cases operand with
  | register x => exact plain_upper ['V'] (toList_name x) (by simp)
  | address target => exact plain_upper ['0', 'x'] (toList_addressText target) (by simp)
  | byte value => exact plain_upper ['0', 'x'] (toList_byteText value) (by simp)
  | rows height =>
    intro c hc
    rw [text, Nat.toString_eq_repr, Nat.toList_repr] at hc
    have hdigit : c.isDigit = true := Nat.isDigit_of_mem_toDigits (by decide) (by decide) hc
    constructor
    · rintro rfl
      cases hdigit
    · rintro rfl
      cases hdigit
  | _ => simp [Plain, text]

end Operand

namespace Instruction

/-- Operation code and operands of an instruction's line. -/
def parts : Instruction → String × List Operand
  | .clearScreen => ("CLS", [])
  | .ret => ("RET", [])
  | .system target => ("SYS", [.address target])
  | .jump target => ("JP", [.address target])
  | .call target => ("CALL", [.address target])
  | .skipByte x byte negated => (if negated then "SNE" else "SE", [.register x, .byte byte])
  | .skipRegister x y negated => (if negated then "SNE" else "SE", [.register x, .register y])
  | .setByte x byte => ("LD", [.register x, .byte byte])
  | .addByte x byte => ("ADD", [.register x, .byte byte])
  | .combine x y op => (op.mnemonic, [.register x, .register y])
  | .setIndex target => ("LD", [.index, .address target])
  | .callIndexed target => ("JP", [.register .first, .address target])
  | .random x mask => ("RND", [.register x, .byte mask])
  | .draw x y height => ("DRW", [.register x, .register y, .rows height])
  | .skipKey x negated => (if negated then "SKNP" else "SKP", [.register x])
  | .getDelay x => ("LD", [.register x, .delay])
  | .waitKey x => ("LD", [.register x, .key])
  | .setDelay x => ("LD", [.delay, .register x])
  | .setSound x => ("LD", [.sound, .register x])
  | .addIndex x => ("ADD", [.index, .register x])
  | .glyph x => ("LD", [.glyph, .register x])
  | .storeDecimal x => ("LD", [.decimal, .register x])
  | .storeRegisters x => ("LD", [.memory, .register x])
  | .loadRegisters x => ("LD", [.register x, .memory])

/-- The instruction with an operation code and operands. -/
def ofParts? : String × List Operand → Option Instruction
  | ("CLS", []) => some .clearScreen
  | ("RET", []) => some .ret
  | ("SYS", [.address target]) => some (.system target)
  | ("JP", [.address target]) => some (.jump target)
  | ("JP", [.register _, .address target]) => some (.callIndexed target)
  | ("CALL", [.address target]) => some (.call target)
  | ("SE", [.register x, .byte byte]) => some (.skipByte x byte false)
  | ("SNE", [.register x, .byte byte]) => some (.skipByte x byte true)
  | ("SE", [.register x, .register y]) => some (.skipRegister x y false)
  | ("SNE", [.register x, .register y]) => some (.skipRegister x y true)
  | ("LD", [.register x, .byte byte]) => some (.setByte x byte)
  | ("ADD", [.register x, .byte byte]) => some (.addByte x byte)
  | ("LD", [.register x, .register y]) => some (.combine x y .copy)
  | ("OR", [.register x, .register y]) => some (.combine x y .bitOr)
  | ("AND", [.register x, .register y]) => some (.combine x y .bitAnd)
  | ("XOR", [.register x, .register y]) => some (.combine x y .bitXor)
  | ("ADD", [.register x, .register y]) => some (.combine x y .add)
  | ("SUB", [.register x, .register y]) => some (.combine x y .subtract)
  | ("SHR", [.register x, .register y]) => some (.combine x y .shiftRight)
  | ("SUBN", [.register x, .register y]) => some (.combine x y .subtractFrom)
  | ("SHL", [.register x, .register y]) => some (.combine x y .shiftLeft)
  | ("LD", [.index, .address target]) => some (.setIndex target)
  | ("RND", [.register x, .byte mask]) => some (.random x mask)
  | ("DRW", [.register x, .register y, .rows height]) => some (.draw x y height)
  | ("SKP", [.register x]) => some (.skipKey x false)
  | ("SKNP", [.register x]) => some (.skipKey x true)
  | ("LD", [.register x, .delay]) => some (.getDelay x)
  | ("LD", [.register x, .key]) => some (.waitKey x)
  | ("LD", [.delay, .register x]) => some (.setDelay x)
  | ("LD", [.sound, .register x]) => some (.setSound x)
  | ("ADD", [.index, .register x]) => some (.addIndex x)
  | ("LD", [.glyph, .register x]) => some (.glyph x)
  | ("LD", [.decimal, .register x]) => some (.storeDecimal x)
  | ("LD", [.memory, .register x]) => some (.storeRegisters x)
  | ("LD", [.register x, .memory]) => some (.loadRegisters x)
  | _ => none

theorem ofParts?_parts (ins : Instruction) : ofParts? ins.parts = some ins := by
  cases ins with
  | skipByte x byte negated | skipRegister x y negated | skipKey x negated => cases negated <;> rfl
  | combine x y op => cases op <;> rfl
  | _ => rfl

/-- The instruction that a line of assembly text stands for. Commas tell nothing that the blanks
behind them do not. -/
def ofMnemonic? (line : String) : Option Instruction :=
  match (line.toList.filter (· ≠ ',')).splitOn ' ' with
  | [] => none
  | code :: operands =>
      (operands.mapM Operand.read?).bind fun operands => ofParts? (String.ofList code, operands)

theorem plain_code (ins : Instruction) : Plain ins.parts.1 := by
  cases ins with
  | skipByte x byte negated | skipRegister x y negated | skipKey x negated =>
    cases negated <;> simp [Plain, parts]
  | combine x y op => cases op <;> simp [Plain, parts, Alu.mnemonic]
  | _ => simp [Plain, parts]

theorem mnemonic_eq_line {ins : Instruction} (h : ins.parts.2 ≠ []) :
    ins.mnemonic = line ins.parts.1 (ins.parts.2.map Operand.text) := by
  cases ins with
  | clearScreen | ret => exact absurd rfl h
  | _ => rfl

theorem mnemonic_eq_code {ins : Instruction} (h : ins.parts.2 = []) :
    ins.mnemonic = ins.parts.1 := by
  cases ins with
  | clearScreen | ret => rfl
  | _ => cases h

/-- Without the commas there are blanks between words that had commas and blanks between them. -/
theorem filter_intercalate {words : List (List Char)} (h : ∀ word ∈ words, ∀ c ∈ word, c ≠ ',') :
    ([',', ' '].intercalate words).filter (· ≠ ',') = [' '].intercalate words := by
  induction words with
  | nil => rfl
  | cons first rest ih =>
    obtain ⟨hfirst, hrest⟩ := List.forall_mem_cons.mp h
    have hkeep : first.filter (· ≠ ',') = first :=
      List.filter_eq_self.mpr fun c hc => decide_eq_true (hfirst c hc)
    cases rest with
    | nil => simpa using hkeep
    | cons second rest =>
      rw [List.intercalate_cons_cons, List.intercalate_cons_cons, List.filter_append,
        List.filter_append, hkeep, ih hrest]
      rfl

theorem filter_commas {text : String} (h : Plain text) :
    text.toList.filter (· ≠ ',') = text.toList :=
  List.filter_eq_self.mpr fun c hc => decide_eq_true (h c hc).2

/-- The words of a line are its code and its operands. -/
theorem words_line {code : String} {operands : List String} (hcode : Plain code)
    (hoperands : ∀ operand ∈ operands, Plain operand) (hne : operands ≠ []) :
    ((line code operands).toList.filter (· ≠ ',')).splitOn ' ' =
      code.toList :: operands.map String.toList := by
  obtain ⟨first, rest, rfl⟩ := List.exists_cons_of_ne_nil hne
  have hline : (line code (first :: rest)).toList =
      code.toList ++ ([' '] ++ [',', ' '].intercalate ((first :: rest).map String.toList)) := by
    simp [line, Dump.commas]
  have hcommas : ∀ word ∈ (first :: rest).map String.toList, ∀ c ∈ word, c ≠ ',' := by
    intro word hword c hc
    obtain ⟨operand, hoperand, rfl⟩ := List.mem_map.mp hword
    exact (hoperands operand hoperand c hc).2
  have hblanks : ∀ word ∈ code.toList :: (first :: rest).map String.toList, ' ' ∉ word := by
    intro word hword hmem
    rcases List.mem_cons.mp hword with rfl | hword
    · exact (hcode _ hmem).1 rfl
    · obtain ⟨operand, hoperand, rfl⟩ := List.mem_map.mp hword
      exact (hoperands operand hoperand _ hmem).1 rfl
  have hjoin : code.toList ++ ([' '] ++ [' '].intercalate ((first :: rest).map String.toList)) =
      [' '].intercalate (code.toList :: (first :: rest).map String.toList) := by
    rw [List.map_cons, List.intercalate_cons_cons, List.append_assoc]
  have hblank : [' '].filter (· ≠ ',') = [' '] := rfl
  rw [hline, List.filter_append, List.filter_append, filter_commas hcode, hblank,
    filter_intercalate hcommas, hjoin, List.splitOn_intercalate ' ' hblanks (List.cons_ne_nil _ _)]

theorem words_mnemonic (ins : Instruction) :
    (ins.mnemonic.toList.filter (· ≠ ',')).splitOn ' ' =
      ins.parts.1.toList :: ins.parts.2.map (·.text.toList) := by
  by_cases hnone : ins.parts.2 = []
  · have hblank : ∀ word ∈ [ins.parts.1.toList], ' ' ∉ word := by
      intro word hword hmem
      obtain rfl := List.mem_singleton.mp hword
      exact (ins.plain_code _ hmem).1 rfl
    have hword := List.splitOn_intercalate ' ' hblank (List.cons_ne_nil _ _)
    rw [List.intercalate_singleton] at hword
    rw [mnemonic_eq_code hnone, filter_commas ins.plain_code, hword, hnone, List.map_nil]
  · have htexts : ∀ text ∈ ins.parts.2.map Operand.text, Plain text := by
      intro text htext
      obtain ⟨operand, -, rfl⟩ := List.mem_map.mp htext
      exact operand.plain_text
    rw [mnemonic_eq_line hnone, words_line ins.plain_code htexts (by simpa using hnone),
      List.map_map]
    rfl

theorem mapM_read?_text (operands : List Operand) :
    (operands.map (·.text.toList)).mapM Operand.read? = some operands := by
  induction operands with
  | nil => rfl
  | cons first rest ih => simp [List.mapM_cons, Operand.read?_text, ih]

/-- An instruction is read back from its line. -/
theorem ofMnemonic?_mnemonic (ins : Instruction) : ofMnemonic? ins.mnemonic = some ins := by
  unfold ofMnemonic?
  rw [words_mnemonic]
  dsimp only
  rw [mapM_read?_text, Option.bind_some, String.ofList_toList]
  exact ofParts?_parts ins

theorem mnemonic_injective {ins other : Instruction} (h : ins.mnemonic = other.mnemonic) :
    ins = other := by
  have hread : some ins = some other := by
    rw [← ofMnemonic?_mnemonic ins, h, ofMnemonic?_mnemonic]
  exact Option.some.inj hread

/-- Line of assembly text of a word that stands for an instruction. -/
def disassemble? (w : Word) : Option String := (decode? w).map mnemonic

/-- Words with the same line are the same. -/
theorem eq_of_mnemonic_eq {w other : Word} {ins ins' : Instruction} (hw : decode? w = some ins)
    (hother : decode? other = some ins') (h : ins.mnemonic = ins'.mnemonic) : w = other := by
  obtain rfl := mnemonic_injective h
  rw [← encode_of_decode? hw, encode_of_decode? hother]

theorem disassemble?_inj {w other : Word} (hw : (decode? w).isSome)
    (h : disassemble? w = disassemble? other) : w = other := by
  obtain ⟨ins, hins⟩ := Option.isSome_iff_exists.mp hw
  rw [disassemble?, hins, Option.map_some, eq_comm] at h
  obtain ⟨ins', hins', hline⟩ := Option.map_eq_some_iff.mp h
  exact eq_of_mnemonic_eq hins hins' hline.symm

/-- Listings tell the words. -/
theorem map_disassemble?_inj {words others : List Word} (hwords : ∀ w ∈ words, (decode? w).isSome)
    (h : words.map disassemble? = others.map disassemble?) : words = others := by
  induction words generalizing others with
  | nil => exact (List.map_eq_nil_iff.mp h.symm).symm
  | cons w rest ih =>
    obtain ⟨hw, hrest⟩ := List.forall_mem_cons.mp hwords
    cases others with
    | nil => cases h
    | cons other others =>
      obtain ⟨hfirst, hlater⟩ := List.cons.inj h
      rw [disassemble?_inj hw hfirst, ih hrest hlater]

end Instruction

/-! ## The trace of a run -/

/-- Assembly text at the end of a line that traces an instruction. -/
def LogEntry.mnemonic? : LogEntry → Option String
  | .executing _ _ ins => some ins.mnemonic
  | _ => none

theorem Operation.filterMap_warnings (operation : Operation) :
    operation.warnings.filterMap LogEntry.mnemonic? = [] := by
  refine List.filterMap_eq_nil_iff.mpr fun entry hentry => ?_
  have hlevel := (of_mem_warnings hentry).1
  cases entry with
  | executing => cases hlevel
  | _ => rfl

namespace Machine

variable {m : Machine}

/-- The word that a cycle begins to execute, if it gets that far. -/
def executing? (m : Machine) : Option Word := m.upcoming?.map fun _ => m.word

theorem Executes.executing?_eq {ins : Instruction} (h : m.Executes ins) :
    m.executing? = some m.word := by
  rw [executing?, upcoming?_eq_some_iff.mpr h, Option.map_some]

theorem Executes.cycle_mnemonics {ins : Instruction} (h : m.Executes ins) (random : RandomWords) :
    (m.cycle random).log.filterMap LogEntry.mnemonic? = [ins.mnemonic] := by
  rw [h.cycle_eq, step]
  split
  · rfl
  · split <;> rfl

theorem decode?_of_executing? {w : Word} (h : m.executing? = some w) :
    (Instruction.decode? w).isSome := by
  obtain ⟨ins, hins, rfl⟩ := Option.map_eq_some_iff.mp h
  rw [(upcoming?_eq_some_iff.mp hins).decoded, Option.isSome_some]

/-- A cycle traces the line of the word that it executes, and nothing if there is none. -/
theorem cycle_mnemonics (m : Machine) (random : RandomWords) :
    ((m.cycle random).log.filterMap LogEntry.mnemonic?).map some =
      m.executing?.toList.map Instruction.disassemble? := by
  rcases m.cycle_cases with ⟨x, hx⟩ | ⟨hidle, hend⟩ | ⟨hidle, hend, hnone⟩ | ⟨ins, hins⟩
  · have hupcoming : m.upcoming? = none := by rw [upcoming?, hx]
    rw [cycle_of_awaiting hx, pollKey, executing?, hupcoming]
    split <;> rfl
  · have hupcoming : m.upcoming? = none := by rw [upcoming?, hidle, fetch_of_past_end hend]
    rw [cycle_of_past_end hidle hend, executing?, hupcoming]
    rfl
  · have hupcoming : m.upcoming? = none := by rw [upcoming?, hidle, fetch_of_undecoded hend hnone]
    rw [cycle_of_undecoded hidle hend hnone, executing?, hupcoming]
    rfl
  · rw [hins.cycle_mnemonics, hins.executing?_eq, Option.toList_some, List.map_singleton,
      List.map_singleton, Instruction.disassemble?, hins.decoded, Option.map_some]

end Machine

namespace Console

/-- The lines of assembly text in the log of a run. -/
def traced (c : Console) (operations : List Operation) : List String :=
  (c.log operations).filterMap LogEntry.mnemonic?

/-- The word that an operation begins to execute, if it is a cycle that gets that far. -/
def executing? (c : Console) : Operation → Option Word
  | .cycle => c.machine.executing?
  | _ => none

/-- The words that the cycles of a run begin to execute. -/
def executedWords (c : Console) : List Operation → List Word
  | [] => []
  | operation :: rest =>
      (c.executing? operation).toList ++ (c.perform operation).console.executedWords rest

theorem traced_cons (c : Console) (operation : Operation) (rest : List Operation) :
    c.traced (operation :: rest) =
      (c.perform operation).log.filterMap LogEntry.mnemonic? ++
        (c.perform operation).console.traced rest := by
  rw [traced, log_cons, List.filterMap_append, traced]

theorem perform_mnemonics (c : Console) (operation : Operation) :
    ((c.perform operation).log.filterMap LogEntry.mnemonic?).map some =
      (c.executing? operation).toList.map Instruction.disassemble? := by
  by_cases hcycle : operation = .cycle
  · subst hcycle
    exact c.machine.cycle_mnemonics c.random
  · have hnone : c.executing? operation = none := by
      cases operation with
      | cycle => exact absurd rfl hcycle
      | _ => rfl
    rw [perform_log_of_ne_cycle c hcycle, operation.filterMap_warnings, hnone]
    rfl

/-- The trace of a run is the listing of the words that it executed. -/
theorem map_traced (c : Console) (operations : List Operation) :
    (c.traced operations).map some =
      (c.executedWords operations).map Instruction.disassemble? := by
  induction operations generalizing c with
  | nil => rfl
  | cons operation rest ih =>
    rw [traced_cons, List.map_append, perform_mnemonics, ih, executedWords, List.map_append]

theorem traced_cycle {c : Console} {ins : Instruction} (h : c.machine.Executes ins) :
    c.traced [.cycle] = [ins.mnemonic] := by
  rw [traced_cons]
  exact congrArg (· ++ []) (h.cycle_mnemonics c.random)

theorem decode?_of_mem_executedWords {c : Console} {operations : List Operation} {w : Word}
    (hw : w ∈ c.executedWords operations) : (Instruction.decode? w).isSome := by
  induction operations generalizing c with
  | nil => cases hw
  | cons operation rest ih =>
    rcases List.mem_append.mp hw with hfirst | hlater
    · cases operation with
      | cycle => exact Machine.decode?_of_executing? (Option.mem_toList.mp hfirst)
      | _ => cases hfirst
    · exact ih hlater

end Console

/-- Different words have different lines of assembly text, so a listing tells its words, and the
trace of a run tells the words that were executed. -/
theorem disassembly_lossless :
    (∀ (w other : Word) (ins ins' : Instruction), Instruction.decode? w = some ins →
      Instruction.decode? other = some ins' → ins.mnemonic = ins'.mnemonic → w = other) ∧
    (∀ words others : List Word, (∀ w ∈ words, (Instruction.decode? w).isSome) →
      (∀ w ∈ others, (Instruction.decode? w).isSome) →
      words.map Instruction.disassemble? = others.map Instruction.disassemble? →
      words = others) ∧
    ∀ (c other : Console) (operations others : List Operation),
      c.traced operations = other.traced others →
      c.executedWords operations = other.executedWords others := by
  refine ⟨?_, ?_, ?_⟩
  · intro w other ins ins' hw hother hline
    exact Instruction.eq_of_mnemonic_eq hw hother hline
  · intro words others hwords _ hlines
    exact Instruction.map_disassemble?_inj hwords hlines
  · intro c other operations others htraced
    refine Instruction.map_disassemble?_inj (fun w => Console.decode?_of_mem_executedWords) ?_
    rw [← Console.map_traced, ← Console.map_traced, htraced]

/-- Returns from no call. -/
def strayReturn : Array UInt8 := #[0x00, 0xEE]

/-- The same with a byte behind it. -/
def strayReturnAndByte : Array UInt8 := #[0x00, 0xEE, 0x7F]

/-- Two programs that begin with the same word. Their runs, one of them with an event of an unknown
key, trace the same line, which tells the word. -/
theorem same_trace_of_stray_returns :
    let c := Console.fresh .standard fun _ => 0
    let operations : List Operation := [.load strayReturn, .cycle]
    let others : List Operation := [.load strayReturnAndByte, .press 0x10, .cycle]
    let start := Machine.loaded .standard strayReturn
    let other := Machine.loaded .standard strayReturnAndByte
    c.traced operations = ["RET"] ∧ c.traced others = ["RET"] ∧
      c.executedWords operations = c.executedWords others ∧
      c.executedWords operations = [0x00EE] ∧ start.word = other.word := by
  intro c operations others start other
  have hstands : start.Stands strayReturn 0 := Machine.stands_loaded .standard (by decide)
  have hstands' : other.Stands strayReturnAndByte 0 := Machine.stands_loaded .standard (by decide)
  have hstart : start.Executes .ret := hstands.executes (by decide) (by decide)
  have hother : (other.press 0x10).Executes .ret :=
    (hstands'.press 0x10).executes (by decide) (by decide)
  let random := RandomWords.ofSequence fun _ => 0
  have hcycle := Console.traced_cycle (c := ⟨start, random⟩) hstart
  have hcycle' := Console.traced_cycle (c := ⟨other.press 0x10, random⟩) hother
  have hloaded : (c.perform (.load strayReturn)).console = ⟨start, random⟩ :=
    Console.perform_load _ _ (by decide)
  have hloaded' : (c.perform (.load strayReturnAndByte)).console = ⟨other, random⟩ :=
    Console.perform_load _ _ (by decide)
  have hpress : (Console.mk other random).perform (.press 0x10) =
      ⟨⟨other.press 0x10, random⟩, .done, [.unknownPress 0x10]⟩ := rfl
  have htraced : c.traced operations = ["RET"] := by
    rw [Console.traced_cons, Console.perform_log_of_ne_cycle c (by decide), hloaded, hcycle]
    rfl
  have htraced' : c.traced others = ["RET"] := by
    rw [Console.traced_cons, Console.perform_log_of_ne_cycle c (by decide), hloaded',
      Console.traced_cons, hpress, hcycle']
    rfl
  have hwords : c.executedWords operations = [0x00EE] := by
    refine disassembly_lossless.2.1 _ _ (fun w => Console.decode?_of_mem_executedWords)
      (List.forall_mem_singleton.mpr rfl) ?_
    rw [← Console.map_traced, htraced]
    rfl
  have hsame := disassembly_lossless.2.2 c c operations others (htraced.trans htraced'.symm)
  have hword : start.word = other.word :=
    disassembly_lossless.1 _ _ _ _ hstart.decoded hother.decoded rfl
  exact ⟨htraced, htraced', hsame, hwords, hword⟩

end ChipEight
