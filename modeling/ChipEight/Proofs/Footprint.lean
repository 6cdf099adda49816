import ChipEight.Proofs.Aftermath
import ChipEight.Proofs.CallList
import ChipEight.Proofs.TimerAccount
import ChipEight.Proofs.Unread

/-!
# What a cycle can change

The machine in parts (`Part`), and for each part the cycles that can change it (`Touches`). A
part that a cycle does not touch is as it was, except that an executed cycle counts for the timers
(`same_cycle`). The parts are the whole machine but the program counter, so a cycle that touches
none of them changes nothing else (`Part.eq_of_same`).
-/
namespace ChipEight

/-- A part of the machine. The program counter is the only one left out. -/
inductive Part where
  | byte (addr : Nat)
  | register (r : Register)
  | cell (c : Fin 2048)
  | stack
  | index
  | timer (name : TimerName)
  /-- The latch of a key. -/
  | latch (key : Fin 16)
  /-- The wait for a key, in the machine and in its keypad. -/
  | wait
  /-- What the settings chose. -/
  | rules
  deriving DecidableEq, Repr

/-- The part is the same in both machines. -/
def Part.Same (m n : Machine) : Part → Prop
  | .byte addr => n.memory.byte addr = m.memory.byte addr
  | .register r => n.registers.get r = m.registers.get r
  | .cell c => n.frame.lit c = m.frame.lit c
  | .stack => n.stack = m.stack
  | .index => n.index = m.index
  | .timer name => n.timer name = m.timer name
  | .latch key => n.keypad.down[key] = m.keypad.down[key]
  | .wait =>
      n.awaiting = m.awaiting ∧ n.keypad.waiting = m.keypad.waiting ∧
        n.keypad.pressed = m.keypad.pressed
  | .rules => n.shift = m.shift ∧ n.timers = m.timers

namespace Part

variable {m n : Machine} {part : Part}

theorem same_refl (part : Part) (m : Machine) : part.Same m m := by
  cases part with
  | wait => exact ⟨rfl, rfl, rfl⟩
  | rules => exact ⟨rfl, rfl⟩
  | _ => rfl

/-- What is the same stays the same when both machines count a cycle. -/
theorem Same.countCycle (h : part.Same m n) (htimers : n.timers = m.timers) :
    part.Same m.countCycle n.countCycle := by
  unfold Machine.countCycle
  rw [htimers]
  cases m.timers with
  | realtime => exact h
  | perCycle =>
    cases part with
    | timer name => cases name <;> exact congrArg (Timer.elapse · 1) h
    | _ => exact h

/-- Machines that are the same in every part differ in the program counter alone. -/
theorem eq_of_same (h : ∀ part : Part, part.Same m n) : n = { m with pc := n.pc } := by
  have hmemory : n.memory = m.memory := Memory.ext_byte fun a _ => h (.byte a)
  have hregisters : n.registers = m.registers := Registers.ext_get fun r => h (.register r)
  have hframe : n.frame = m.frame := Frame.ext_lit fun c => h (.cell c)
  have hdown : n.keypad.down = m.keypad.down :=
    Vector.ext fun key hkey => h (.latch ⟨key, hkey⟩)
  obtain ⟨hawaiting, hwaiting, hpressed⟩ := h .wait
  obtain ⟨hshift, htimers⟩ := h .rules
  have hkeypad : n.keypad = m.keypad := by
    rw [Keypad.mk.injEq]
    exact ⟨hdown, hwaiting, hpressed⟩
  have hstack : n.stack = m.stack := h .stack
  have hindex : n.index = m.index := h .index
  have hdelay : n.delay = m.delay := h (.timer .delay)
  have hsound : n.sound = m.sound := h (.timer .sound)
  rw [← hmemory, ← hregisters, ← hstack, ← hindex, ← hdelay, ← hsound, ← hframe, ← hkeypad,
    ← hawaiting, ← hshift, ← htimers]

end Part

/-- The operation writes a carry, a borrow or a bit that was shifted out. -/
def Alu.setsFlag : Alu → Bool
  | .add | .subtract | .shiftRight | .subtractFrom | .shiftLeft => true
  | .copy | .bitOr | .bitAnd | .bitXor => false

namespace Instruction

/-- The registers that an instruction can write. -/
def Writes (r : Register) : Instruction → Prop
  | .setByte x _ | .addByte x _ | .random x _ | .getDelay x => r = x
  | .combine x _ op => r = x ∨ op.setsFlag = true ∧ r = .flag
  | .draw _ _ _ | .addIndex _ => r = .flag
  | .loadRegisters last => r ≤ last
  | _ => False

def setsIndex : Instruction → Bool
  | .setIndex _ | .addIndex _ | .glyph _ => true
  | _ => false

end Instruction

namespace Frame

theorem cellAt_column (x y : Nat) : (cellAt x y).val % 64 = x % 64 := by
  change (y % 32 * 64 + x % 64) % 64 = x % 64
  omega

theorem cellAt_row (x y : Nat) : (cellAt x y).val / 64 = y % 32 := by
  change (y % 32 * 64 + x % 64) / 64 = y % 32
  omega

/-- The cell is one of the eight columns and of the `rows` rows from a position on. -/
def Covers (x y rows : Nat) (cell : Fin 2048) : Prop :=
  ∃ column row, column < 8 ∧ row < rows ∧
    cell.val % 64 = (x + column) % 64 ∧ cell.val / 64 = (y + row) % 32

/-- A row of a sprite changes only cells that it covers. -/
theorem lit_drawRow_of_not_covers {x y : Nat} {cell : Fin 2048} (h : ¬ Covers x y 1 cell)
    (frame : Frame) (row : UInt8) : (frame.drawRow x y row).1.lit cell = frame.lit cell := by
  have hmem : cell ∉ rowCells x y row := by
    intro hmem
    obtain ⟨column, hcolumn, rfl⟩ := List.mem_map.mp hmem
    have hlt : column < 8 := List.mem_range.mp (List.mem_of_mem_filter hcolumn)
    exact h ⟨column, 0, hlt, Nat.one_pos, cellAt_column _ _, cellAt_row _ _⟩
  rw [drawRow, cell_toggle, List.count_eq_zero_of_not_mem hmem]
  simp

/-- A sprite changes only cells that it covers. -/
theorem lit_draw_of_not_covers {x y : Nat} {cell : Fin 2048} {sprite : List UInt8}
    (h : ¬ Covers x y sprite.length cell) (frame : Frame) :
    (frame.draw x y sprite).1.lit cell = frame.lit cell := by
  induction sprite generalizing frame y with
  | nil => rfl
  | cons row rest ih =>
    have hfirst : ¬ Covers x y 1 cell := by
      rintro ⟨column, _, hcolumn, hrow, hx, hy⟩
      obtain rfl := Nat.lt_one_iff.mp hrow
      exact h ⟨column, 0, hcolumn, Nat.succ_pos _, hx, hy⟩
    have hlater : ¬ Covers x (y + 1) rest.length cell := by
      rintro ⟨column, below, hcolumn, hrow, hx, hy⟩
      refine h ⟨column, below + 1, hcolumn, Nat.succ_lt_succ hrow, hx, ?_⟩
      rw [hy, Nat.add_right_comm, Nat.add_assoc]
    rw [draw]
    exact (ih hlater _).trans (lit_drawRow_of_not_covers hfirst frame row)

end Frame

/-- A store changes only bytes of programs, and only as many as it has values. -/
theorem Memory.byte_store_of_not_mem (memory : Memory) {addr a : Nat} {values : List UInt8}
    (hend : addr ≤ size)
    (h : ¬ (programStart ≤ addr ∧ addr ≤ a ∧ a < addr + values.length)) :
    (memory.store addr values).1.byte a = memory.byte a := by
  by_cases hnil : values = []
  · rw [hnil, store]
  by_cases hsystem : addr < programStart
  · rw [store_protected memory hsystem hnil]
  have hstart := Nat.le_of_not_lt hsystem
  rw [store_eq memory values hstart hend]
  by_cases ha : a < 4096
  · rw [byte_patch _ _ _ ha]
    split
    · rename_i hle
      have hpast : values.length ≤ a - addr := by omega
      rw [List.getElem?_eq_none hpast, Option.getD_none]
    · rfl
  · rw [byte_eq_zero _ (Nat.le_of_not_lt ha), byte_eq_zero _ (Nat.le_of_not_lt ha)]

namespace Machine

/-- The next cycle can change a part of the machine. -/
inductive Touches (m : Machine) : Part → Prop where
  | byte {a : Nat} (h : m.Stores a) : m.Touches (.byte a)
  | clears {cell : Fin 2048} (hins : m.Executes .clearScreen) : m.Touches (.cell cell)
  | draws {x y : Register} {height : UInt8} {cell : Fin 2048}
      (hins : m.Executes (.draw x y height))
      (hcell : Frame.Covers (m.registers.get x).toNat (m.registers.get y).toNat height.toNat cell) :
      m.Touches (.cell cell)
  | calls {ins : Instruction} (hins : m.Executes ins) (h : ins.usesCalls = true) :
      m.Touches .stack
  | index {ins : Instruction} (hins : m.Executes ins) (h : ins.setsIndex = true) :
      m.Touches .index
  | sets {name : TimerName} {x : Register} (hins : m.Executes (name.set x)) :
      m.Touches (.timer name)
  | register {ins : Instruction} {r : Register} (hins : m.Executes ins) (h : ins.Writes r) :
      m.Touches (.register r)
  | arms {x : Register} (hins : m.Executes (.waitKey x)) : m.Touches .wait
  | ends {x : Register} {key : UInt8} (hx : m.awaiting = some x)
      (hpressed : m.keypad.pressed = some key) : m.Touches .wait
  | arrives {x : Register} {key : UInt8} (hx : m.awaiting = some x)
      (hpressed : m.keypad.pressed = some key) : m.Touches (.register x)

variable {m : Machine} {ins : Instruction} {part : Part}

/-! ## One instruction -/

theorem byte_after (h : m.WellFormed) (hins : m.Executes ins) (random : RandomWords) {a : Nat}
    (hfree : ¬ m.Stores a) : (m.advance.after random ins).memory.byte a = m.memory.byte a := by
  refine m.memory.byte_store_of_not_mem (Nat.le_trans h.index_le (by decide)) ?_
  rintro ⟨hstart, hle, hlt⟩
  cases ins with
  | storeDecimal x => exact hfree (.decimal hins hstart hle (Nat.le_of_lt_succ hlt))
  | storeRegisters last =>
    change a < m.index.toNat + (m.registers.upTo last).length at hlt
    rw [Registers.length_upTo] at hlt
    exact hfree (.registers hins hstart hle (Nat.le_of_lt_succ hlt))
  | _ => exact absurd hlt (Nat.not_lt.mpr hle)

theorem cell_after (h : m.WellFormed) (hins : m.Executes ins) (random : RandomWords)
    {c : Fin 2048} (hfree : ¬ m.Touches (.cell c)) :
    (m.advance.after random ins).frame.lit c = m.frame.lit c := by
  cases ins with
  | clearScreen => exact absurd (.clears hins) hfree
  | draw x y height =>
    change (drawRows m.memory _ _ m.index.toNat _ m.frame false).1.lit c = _
    rw [drawRows_eq _ _ _ _ _ _ (Nat.le_trans h.index_le (by decide))]
    refine Frame.lit_draw_of_not_covers ?_ m.frame
    rintro ⟨column, row, hcolumn, hrow, hx, hy⟩
    refine hfree (.draws hins ⟨column, row, hcolumn, Nat.lt_of_lt_of_le hrow ?_, hx, hy⟩)
    rw [rowsAt, List.length_map, List.length_range']
    exact Nat.min_le_left _ _
  | _ => rfl

theorem combine_get_of_not_writes (m : Machine) {x y r : Register} {op : Alu}
    (hfree : ¬ (Instruction.combine x y op).Writes r) :
    (m.combine x y op).registers.get r = m.registers.get r := by
  obtain ⟨hx, hflag⟩ := not_or.mp hfree
  have hx' : x ≠ r := Ne.symm hx
  cases op with
  | copy | bitOr | bitAnd | bitXor => exact (Registers.get_set _ _ _ _).trans (if_neg hx')
  | add | subtract | subtractFrom | shiftRight | shiftLeft =>
    have hflag' : Register.flag ≠ r := fun heq => hflag ⟨rfl, heq.symm⟩
    simp only [combine, setRegister, setFlag, Registers.setFlag, Registers.get_set, if_neg hx',
      if_neg hflag']

theorem register_after (m : Machine) (random : RandomWords) {r : Register}
    (hfree : ¬ ins.Writes r) : (m.registersAfter random ins).get r = m.registers.get r := by
  cases ins with
  | combine x y op => exact m.combine_get_of_not_writes hfree
  | draw x y height =>
    rw [registersAfter, drawSprite_registers]
    split
    · exact (Registers.get_set _ _ _ _).trans (if_neg (Ne.symm hfree))
    · rfl
  | addIndex x => exact (Registers.get_set _ _ _ _).trans (if_neg (Ne.symm hfree))
  | loadRegisters last =>
    rw [registersAfter, loadRegisters_registers]
    split
    · exact (Registers.get_modifyUpTo _ _ _ _).trans (if_neg hfree)
    · rfl
  | setByte x _ | addByte x _ | random x _ | getDelay x =>
    exact (Registers.get_set _ _ _ _).trans (if_neg (Ne.symm hfree))
  | _ => rfl

/-- An instruction leaves a part as it was that the cycle does not touch. -/
theorem same_after (h : m.WellFormed) (hins : m.Executes ins) (random : RandomWords)
    (hfree : ¬ m.Touches part) : part.Same m (m.advance.after random ins) := by
  cases part with
  | byte a => exact byte_after h hins random fun hstores => hfree (.byte hstores)
  | register r =>
    exact m.advance.register_after random fun hwrites => hfree (.register hins hwrites)
  | cell c => exact cell_after h hins random hfree
  | stack =>
    cases ins with
    | ret | call target | callIndexed target => exact absurd (.calls hins rfl) hfree
    | _ => rfl
  | index =>
    cases ins with
    | setIndex target | addIndex x | glyph x => exact absurd (.index hins rfl) hfree
    | _ => rfl
  | timer name =>
    refine (timer_after_of_ne _ _ ?_).trans ?_
    · rintro x rfl
      exact hfree (.sets hins)
    · cases name <;> rfl
  | latch key =>
    cases ins <;> rfl
  | wait =>
    cases ins with
    | waitKey x => exact absurd (.arms hins) hfree
    | _ => exact ⟨rfl, rfl, rfl⟩
  | rules => exact ⟨rfl, rfl⟩

/-! ## One cycle -/

/-- A key that arrives leaves a part as it was that the cycle does not touch. -/
theorem same_of_answered {x : Register} {key : UInt8} (hx : m.awaiting = some x)
    (hpressed : m.keypad.pressed = some key) (hfree : ¬ m.Touches part) :
    part.Same m (m.endWait.setRegister x key) := by
  cases part with
  | register r =>
    have hne : x ≠ r := by
      rintro rfl
      exact hfree (.arrives hx hpressed)
    exact (Registers.get_set _ _ _ _).trans (if_neg hne)
  | wait => exact absurd (.ends hx hpressed) hfree
  | timer name => cases name <;> rfl
  | rules => exact ⟨rfl, rfl⟩
  | _ => rfl

/-- The machine before a cycle, with the ticks of that cycle. -/
def counted (m : Machine) (random : RandomWords) : Machine :=
  if (Answer.cycled (m.cycle random).result).isExecuted then m.countCycle else m

/-- A cycle leaves a part as it was that it does not touch, except for its ticks. -/
theorem same_cycle (h : m.WellFormed) (random : RandomWords) (hfree : ¬ m.Touches part) :
    part.Same (m.counted random) (m.cycle random).machine := by
  unfold counted
  rcases m.cycle_cases with ⟨x, hx⟩ | ⟨hidle, hend⟩ | ⟨hidle, hend, hnone⟩ | ⟨ins, hins⟩
  · cases hpressed : m.keypad.pressed with
    | none =>
      rw [cycle_of_unanswered hx hpressed]
      exact part.same_refl m
    | some key =>
      rw [cycle_of_answered hx hpressed]
      exact (same_of_answered hx hpressed hfree).countCycle rfl
  · rw [cycle_of_past_end hidle hend]
    exact part.same_refl m
  · rw [cycle_of_undecoded hidle hend hnone]
    exact part.same_refl m
  · have hafter := same_after h hins random hfree
    rw [hins.cycle_report h.stack.depth_le (Nat.lt_succ_of_le h.index_le)]
    split
    · exact hafter
    · split
      · exact hafter
      · exact hafter.countCycle rfl

/-- Only a store changes a byte of memory. -/
theorem cycle_keeps_byte (h : m.WellFormed) (random : RandomWords) {a : Nat}
    (hfree : ¬ m.Stores a) : (m.cycle random).machine.memory.byte a = m.memory.byte a := by
  have huntouched : ¬ m.Touches (.byte a) := by
    rintro ⟨hstores⟩
    exact hfree hstores
  have hcounted : (m.counted random).memory = m.memory := by
    unfold counted
    split
    · rw [countCycle_eq]
    · rfl
  exact (same_cycle h random huntouched).trans (congrArg (·.byte a) hcounted)

/-- A cycle that fails leaves the registers as they were. -/
theorem registers_of_error (h : m.WellFormed) {random : RandomWords} {fault : Fault}
    (hfailed : (m.cycle random).result = .error fault) :
    (m.cycle random).machine.registers = m.registers := by
  obtain ⟨hidle, cause, hraises⟩ := (cycle_error_iff h random fault).mp hfailed
  cases hfetch : m.fetch with
  | error other => rw [cycle_of_fetch_error hidle hfetch]
  | ok fetched =>
    have hins := executes_of_fetch hidle hfetch
    have hfault := (hins.raises_iff.mp hraises).1
    rw [hins.cycle_of_fault h random hfault, partialEffect_eq]
    rfl

/-- The footprint of a cycle, whatever it answers. Every part that it does not touch is the same
up to the ticks of the cycle. A cycle that touches nothing changes no more than the program
counter, and a cycle that fails changes no register. -/
theorem cycle_footprint {m : Machine} (h : m.Reachable) (random : RandomWords) :
    (∀ part, ¬ m.Touches part → part.Same (m.counted random) (m.cycle random).machine) ∧
      ((∀ part, ¬ m.Touches part) →
        (m.cycle random).machine =
          { m.counted random with pc := (m.cycle random).machine.pc }) ∧
      ∀ fault, (m.cycle random).result = .error fault →
        (m.cycle random).machine.registers = m.registers := by
  have hsame : ∀ part, ¬ m.Touches part →
      part.Same (m.counted random) (m.cycle random).machine :=
    fun _ => same_cycle h.wellFormed random
  refine ⟨hsame, ?_, ?_⟩
  · intro hfree
    exact Part.eq_of_same fun part => hsame part (hfree part)
  · intro fault
    exact registers_of_error h.wellFormed

/-- A combination of registers touches the registers that it writes, and nothing else. -/
theorem Executes.touches_combine_iff {x y : Register} {op : Alu}
    (hins : m.Executes (.combine x y op)) :
    m.Touches part ↔ ∃ r, (Instruction.combine x y op).Writes r ∧ part = .register r := by
  constructor
  · intro htouch
    cases htouch with
    | byte hstores =>
      obtain ⟨ins, hother, -, hle, hlt⟩ := hstores.executes
      obtain rfl := hins.unique hother
      exact absurd hlt (Nat.not_lt.mpr hle)
    | clears hother | draws hother hcell | arms hother => cases hins.unique hother
    | @sets name z hother => cases name <;> cases hins.unique hother
    | calls hother hcalls | index hother hcalls =>
      obtain rfl := hins.unique hother
      cases hcalls
    | register hother hwrites =>
      obtain rfl := hins.unique hother
      exact ⟨_, hwrites, rfl⟩
    | ends hx hpressed | arrives hx hpressed => cases hins.idle.symm.trans hx
  · rintro ⟨r, hwrites, rfl⟩
    exact .register hins hwrites

/-- Puts a byte into the flag register and shifts it. -/
def shiftFlag : Array UInt8 := #[0x6F, 0x81, 0x8F, 0xFE]

/-- A shift of the flag register touches that register alone. -/
theorem shift_footprint :
    let c := (Console.fresh .standard fun _ => 0).run [.load shiftFlag, .cycle]
    c.machine.Reachable ∧ c.machine.Executes (.combine 15 15 .shiftLeft) ∧
      (∀ part : Part, c.machine.Touches part ↔ part = .register 15) ∧
      ∀ part : Part, part ≠ .register 15 →
        part.Same (c.machine.counted c.random) (c.machine.cycle c.random).machine := by
  obtain ⟨loaded, hrun, hreached, hstart, -⟩ :=
    Console.exists_loaded .standard (fun _ => 0) (show shiftFlag.size ≤ _ by decide)
  obtain ⟨-, -, hnext⟩ := Console.goes_on hstart (by decide)
    (show Instruction.decode? _ = some (.setByte 15 0x81) by decide) rfl rfl rfl
  rw [hrun]
  intro c
  have hreach : c.machine.Reachable := hreached [.cycle]
  have hins : c.machine.Executes (.combine 15 15 .shiftLeft) :=
    hnext.executes (by decide) (by decide)
  have htouches : ∀ part : Part, c.machine.Touches part ↔ part = .register 15 := by
    intro part
    rw [hins.touches_combine_iff]
    constructor
    · rintro ⟨r, rfl | ⟨-, rfl⟩, rfl⟩ <;> rfl
    · intro hpart
      exact ⟨15, Or.inl rfl, hpart⟩
  refine ⟨hreach, hins, htouches, fun part hne => ?_⟩
  exact (cycle_footprint hreach c.random).1 part fun htouch => hne ((htouches part).mp htouch)

end Machine

end ChipEight
