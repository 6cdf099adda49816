import ChipEight.Proofs.Invariant
import ChipEight.Proofs.Pixels

/-!
# Operations with every check made

`Console.perform` counts on sums that fit sixteen bits, on indices inside of their
arrays and on room on the call stack. The operations here check each of these where it
is needed and have no answer (`none`) when a check fails. From a well-formed machine
none of them fails (`perform_eq`), so a reachable machine never gets stuck.
-/
namespace ChipEight.Checked

/-- A sum that has to fit sixteen bits. -/
def sum (a b : Nat) : Option UInt16 := if a + b < 65536 then some (UInt16.ofNat (a + b)) else none

/-- The bytes from `first` to before `last`, which must not be in front of it and must be in
memory. -/
def bytesBetween (memory : Memory) (first last : Nat) : Option (List UInt8) :=
  if first ≤ last ∧ last ≤ memory.bytes.size then
    some ((List.range' first (last - first)).map memory.byte)
  else none

def slice (memory : Memory) (addr len : Nat) : Option (Except Fault (List UInt8)) :=
  if Memory.size < addr + len then some (.error (.addressOutOfRange (addr + len - 1)))
  else do
    let bytes ← bytesBetween memory addr (addr + len)
    some (.ok bytes)

/-- Reads a word from the first two bytes, which must be there. -/
def readWord : List UInt8 → Option Word
  | high :: low :: _ => some (Word.ofBytes [high, low])
  | _ => none

def fetch (memory : Memory) (pc : UInt16) : Option (Except Fault Word) := do
  match ← slice memory pc.toNat 2 with
  | .error fault => some (.error fault)
  | .ok bytes =>
      let word ← readWord bytes
      some (.ok word)

/-- Pushing needs room. -/
def push (stack : CallStack) (addr : UInt16) : Option CallStack :=
  if stack.isFull then none
  else if h : stack.depth < 16 then some ⟨stack.depth + 1, stack.cells.set stack.depth addr h⟩
  else none

/-- The address on top, which must be in a cell, and no address of an empty stack. -/
def pop (stack : CallStack) : Option (Option UInt16 × CallStack) :=
  if stack.depth = 0 then some (none, stack)
  else do
    let addr ← stack.cells[stack.depth - 1]?
    some (some addr, ⟨stack.depth - 1, stack.cells⟩)

def callTo (m : Machine) (origin target : UInt16) : Option (Machine × Option Fault) :=
  if m.stack.isFull then some (m, some (.stackOverflow origin))
  else do
    let stack ← push m.stack m.pc
    some ({ m with stack, pc := target }, none)

def returnFrom (m : Machine) (origin : UInt16) : Option (Machine × Option Fault) := do
  match ← pop m.stack with
  | (none, _) => some (m, some (.stackUnderflow origin))
  | (some addr, stack) => some ({ m with stack, pc := addr }, none)

def skipIf (m : Machine) (condition : Bool) : Option Machine :=
  if condition then do
    let pc ← sum m.pc.toNat 2
    some { m with pc }
  else some m

def isDown (pad : Keypad) (key : UInt8) : Option Bool :=
  if key.toNat < 16 then pad.down[key.toNat]? else some false

def latch (pad : Keypad) (key : UInt8) (down : Bool) : Option Keypad :=
  if key.toNat < 16 then
    if h : key.toNat < pad.down.size then some { pad with down := pad.down.set key.toNat down h }
    else none
  else some pad

/-- Draws a row on the bytes of a frame. -/
def drawRow (frame : Frame) (x y : Nat) (row : UInt8) : Option (Frame × Bool) := do
  let indices := ((List.range 8).filter (Frame.columnSet row)).map fun c =>
    y % 32 * 64 + (x + c) % 64
  let (pixels, hit) ← Frame.flipPixels frame.pixels indices
  let frame ← Frame.ofPixels? pixels
  some (frame, hit)

def drawRows (memory : Memory) (x : Nat) :
    (rows : Nat) → (addr y : Nat) → Frame → (hit : Bool) → Option (Frame × Except Fault Bool)
  | 0, _, _, frame, hit => some (frame, .ok hit)
  | rows + 1, addr, y, frame, hit =>
      match memory.read addr with
      | .error fault => some (frame, .error fault)
      | .ok row => do
          let (frame, more) ← drawRow frame x y row
          drawRows memory x rows (addr + 1) (y + 1) frame (hit || more)

def drawSprite (m : Machine) (x y : Register) (height : UInt8) :
    Option (Machine × Option Fault) := do
  let (frame, result) ← drawRows m.memory (m.registers.get x).toNat height.toNat
    m.index.toNat (m.registers.get y).toNat m.frame false
  match result with
  | .ok hit => some ({ m with frame }.setFlag hit, none)
  | .error fault => some ({ m with frame }, some fault)

def upTo (regs : Registers) (last : Register) : Option (List UInt8) :=
  if last.val < regs.values.size then some (regs.upTo last) else none

/-- Copies bytes to as many registers. -/
def loadRegisters (m : Machine) (last : Register) : Option (Machine × Option Fault) := do
  match ← slice m.memory m.index.toNat (last.val + 1) with
  | .error fault => some (m, some fault)
  | .ok bytes =>
      let values ← upTo m.registers last
      if values.length = bytes.length then
        some ({ m with registers := m.registers.modifyUpTo last fun r _ => bytes.getD r.val 0 },
          none)
      else none

def addIndex (m : Machine) (x : Register) : Option Machine := do
  let sum ← sum m.index.toNat (m.registers.get x).toNat
  some { m.setFlag (decide (0x0FFF < sum)) with index := sum &&& 0x0FFF }

/-- Instructions that are not listed make no check of their own. -/
def execute (m : Machine) (random : RandomWords) (origin : UInt16) (ins : Instruction) :
    Option Effect :=
  match ins with
  | .ret => do
      let (m, fault) ← returnFrom m origin
      some ⟨m, random, fault⟩
  | .call target => do
      let (m, fault) ← callTo m origin target
      some ⟨m, random, fault⟩
  | .callIndexed target => do
      let sum ← sum target.toNat (m.registers.get .first).toNat
      let (m, fault) ← callTo m origin (sum &&& 0x0FFF)
      some ⟨m, random, fault⟩
  | .skipByte x byte negated => do
      let m ← skipIf m ((m.registers.get x == byte) != negated)
      some ⟨m, random, none⟩
  | .skipRegister x y negated => do
      let m ← skipIf m ((m.registers.get x == m.registers.get y) != negated)
      some ⟨m, random, none⟩
  | .skipKey x negated => do
      let down ← isDown m.keypad (m.registers.get x)
      let m ← skipIf m (down != negated)
      some ⟨m, random, none⟩
  | .draw x y height => do
      let (m, fault) ← drawSprite m x y height
      some ⟨m, random, fault⟩
  | .addIndex x => do
      let m ← addIndex m x
      some ⟨m, random, none⟩
  | .glyph x => do
      let index ← sum 0 ((m.registers.get x).toNat % 16 * Font.glyphSize)
      some ⟨{ m with index }, random, none⟩
  | .storeRegisters last => do
      let values ← upTo m.registers last
      let (m, fault) := m.storeAtIndex values
      some ⟨m, random, fault⟩
  | .loadRegisters last => do
      let (m, fault) ← loadRegisters m last
      some ⟨m, random, fault⟩
  | _ => some (m.execute random origin ins)

def step (m : Machine) (random : RandomWords) (word : Word) (ins : Instruction) :
    Option CycleReport := do
  let started := LogEntry.executing m.pc word ins
  let pc ← sum m.pc.toNat 2
  let effect ← execute { m with pc } random m.pc ins
  match effect.fault with
  | some fault => some ⟨effect.machine, effect.random, .error fault, [started]⟩
  | none =>
      if effect.machine.isWaiting then
        some ⟨effect.machine, effect.random, .ok .suspended, [started, .waitingForKey m.pc]⟩
      else some ⟨effect.machine.countCycle, effect.random, .ok .executed, [started]⟩

def cycle (m : Machine) (random : RandomWords) : Option CycleReport :=
  match m.awaiting with
  | some x => some (m.pollKey random x)
  | none => do
      match ← fetch m.memory m.pc with
      | .error fault => some ⟨m, random, .error fault, []⟩
      | .ok word =>
          match Instruction.decode? word with
          | none => some ⟨m, random, .error (.unknownInstruction word m.pc), []⟩
          | some ins => step m random word ins

/-- The area of programs must be in memory, and a program that is no larger in the area. -/
def load (m : Machine) (program : Array UInt8) : Option (Except Fault Machine) :=
  if Memory.programStart ≤ m.memory.bytes.size then
    if m.memory.bytes.size - Memory.programStart < program.size then
      some (.error (.programTooLarge program.size))
    else some (m.load program)
  else none

def press (m : Machine) (key : UInt8) : Option Machine := do
  let pad ← latch m.keypad key true
  some { m with
    keypad :=
      if key.toNat < 16 ∧ pad.waiting ∧ pad.pressed = none then { pad with pressed := some key }
      else pad }

def release (m : Machine) (key : UInt8) : Option Machine := do
  let keypad ← latch m.keypad key false
  some { m with keypad }

def perform (c : Console) : Operation → Option OperationReport
  | .load program => do
      match ← load c.machine program with
      | .ok machine => some ⟨{ c with machine }, .loaded (.ok ()), []⟩
      | .error fault => some ⟨c, .loaded (.error fault), []⟩
  | .cycle => do
      let report ← cycle c.machine c.random
      some ⟨⟨report.machine, report.random⟩, .cycled report.result, report.log⟩
  | .press key => do
      let machine ← press c.machine key
      some ⟨{ c with machine }, .done, LogEntry.ofPress key⟩
  | .release key => do
      let machine ← release c.machine key
      some ⟨{ c with machine }, .done, LogEntry.ofRelease key⟩
  | .elapse ticks => some ⟨{ c with machine := c.machine.elapse ticks }, .done, []⟩

theorem sum_eq {a b : UInt16} (h : a.toNat + b.toNat < 65536) :
    sum a.toNat b.toNat = some (a + b) := by
  rw [sum, if_pos h, UInt16.ofNat_add, UInt16.ofNat_toNat, UInt16.ofNat_toNat]

/-- A register fits an address below the end of memory. -/
theorem sum_register {a : UInt16} (h : a.toNat < 4096) (value : UInt8) :
    sum a.toNat value.toNat = some (a + value.toUInt16) := by
  have hvalue := value.toNat_lt
  rw [← UInt8.toNat_toUInt16]
  exact sum_eq (by rw [UInt8.toNat_toUInt16]; omega)

/-- Behind an instruction that was fetched there is room for two bytes more. -/
theorem sum_two {pc : UInt16} (h : pc.toNat ≤ 0x1000) : sum pc.toNat 2 = some (pc + 2) :=
  sum_eq (b := 2) (Nat.lt_of_le_of_lt (Nat.add_le_add_right h _) (by decide))

theorem slice_eq (memory : Memory) (addr len : Nat) :
    slice memory addr len = some (memory.slice addr len) := by
  unfold slice Memory.slice
  split
  · rfl
  · rename_i hend
    have hrange : addr ≤ addr + len ∧ addr + len ≤ memory.bytes.size :=
      ⟨Nat.le_add_right addr len, Nat.le_of_not_lt hend⟩
    rw [bytesBetween, if_pos hrange, Nat.add_sub_cancel_left]
    rfl

theorem fetch_eq (memory : Memory) (pc : UInt16) : fetch memory pc = some (memory.fetch pc) := by
  rw [fetch, slice_eq]
  unfold Memory.fetch Memory.slice
  split
  · rfl
  · rfl

theorem callTo_eq {m : Machine} (h : m.stack.Bounded) (origin target : UInt16) :
    callTo m origin target = some (m.callTo origin target) := by
  have hle := h.depth_le
  unfold callTo push Machine.callTo CallStack.push? CallStack.isFull CallStack.capacity
  by_cases hdepth : m.stack.depth = 16
  · simp [hdepth]
  · have hlt : m.stack.depth < 16 := by omega
    simp [hdepth, hlt]

theorem returnFrom_eq {m : Machine} (h : m.stack.Bounded) (origin : UInt16) :
    returnFrom m origin = some (m.returnFrom origin) := by
  have hle := h.depth_le
  unfold returnFrom pop Machine.returnFrom CallStack.pop?
  cases hdepth : m.stack.depth with
  | zero => simp
  | succ depth =>
    have hlt : depth < 16 := by omega
    simp [hlt]

theorem skipIf_eq {m : Machine} (hpc : m.pc.toNat ≤ 0x1000) (condition : Bool) :
    skipIf m condition = some (m.skipIf condition) := by
  cases condition with
  | false => rfl
  | true => simp [skipIf, sum_two hpc, Machine.skipIf]

theorem isDown_eq (pad : Keypad) (key : UInt8) : isDown pad key = some (pad.isDown key) := by
  unfold isDown Keypad.isDown
  split
  · rename_i h
    rw [Vector.getElem?_eq_getElem h, Option.getD_some]
  · rename_i h
    rw [Vector.getElem?_eq_none (Nat.le_of_not_lt h), Option.getD_none]

theorem latch_eq (pad : Keypad) (key : UInt8) (down : Bool) :
    latch pad key down = some (pad.latch key down) := by
  unfold latch Keypad.latch
  by_cases h : key.toNat < 16
  · rw [if_pos h, dif_pos h, dif_pos (show key.toNat < pad.down.size from h)]
  · rw [if_neg h, dif_neg h]

theorem drawRow_eq (frame : Frame) (x y : Nat) (row : UInt8) :
    drawRow frame x y row = some (frame.drawRow x y row) := by
  have hindices : ((List.range 8).filter (Frame.columnSet row)).map
      (fun c => y % 32 * 64 + (x + c) % 64) = (Frame.rowCells x y row).map Fin.val := by
    rw [Frame.rowCells, List.map_map]
    rfl
  unfold drawRow
  dsimp only
  rw [hindices, Frame.flipPixels_eq]
  simp only [Option.bind_eq_bind, Option.bind_some, Frame.ofPixels?_pixels]
  rfl

theorem drawRows_eq (memory : Memory) (x rows addr y : Nat) (frame : Frame) (hit : Bool) :
    drawRows memory x rows addr y frame hit =
      some (Machine.drawRows memory x rows addr y frame hit) := by
  induction rows generalizing addr y frame hit with
  | zero => rfl
  | succ rows ih =>
    rw [drawRows, Machine.drawRows]
    cases memory.read addr with
    | error fault => rfl
    | ok row =>
      dsimp only
      rw [drawRow_eq]
      exact ih _ _ _ _

theorem drawSprite_eq (m : Machine) (x y : Register) (height : UInt8) :
    drawSprite m x y height = some (m.drawSprite x y height) := by
  unfold drawSprite Machine.drawSprite
  rw [drawRows_eq]
  generalize Machine.drawRows _ _ _ _ _ _ _ = drawn
  obtain ⟨frame, result⟩ := drawn
  cases result <;> rfl

theorem upTo_eq (regs : Registers) (last : Register) : upTo regs last = some (regs.upTo last) :=
  if_pos last.isLt

theorem loadRegisters_eq (m : Machine) (last : Register) :
    loadRegisters m last = some (m.loadRegisters last) := by
  unfold loadRegisters Machine.loadRegisters
  rw [slice_eq, upTo_eq]
  unfold Memory.slice
  split
  · rfl
  · simp [Registers.length_upTo]

theorem addIndex_eq {m : Machine} (h : m.index.toNat ≤ 0xFFF) (x : Register) :
    addIndex m x = some (m.addIndex x) := by
  rw [addIndex, sum_register (Nat.lt_succ_of_le h)]
  rfl

/-- Every check of an instruction holds. -/
theorem execute_eq {m : Machine} (h : m.WellFormed) (hpc : m.pc.toNat ≤ 0x1000)
    (random : RandomWords) (origin : UInt16) {ins : Instruction} (hins : ins.InRange) :
    execute m random origin ins = some (m.execute random origin ins) := by
  cases ins with
  | ret => simp [execute, returnFrom_eq h.stack, Machine.execute]
  | call target => simp [execute, callTo_eq h.stack, Machine.execute]
  | callIndexed target =>
    simp [execute, sum_register (show target.toNat < 4096 from hins), callTo_eq h.stack,
      Machine.execute]
  | skipByte x byte negated => simp [execute, skipIf_eq hpc, Machine.execute]
  | skipRegister x y negated => simp [execute, skipIf_eq hpc, Machine.execute]
  | skipKey x negated => simp [execute, isDown_eq, skipIf_eq hpc, Machine.execute]
  | draw x y height => simp [execute, drawSprite_eq, Machine.execute]
  | addIndex x => simp [execute, addIndex_eq h.index_le, Machine.execute]
  | glyph x =>
    have hglyph := Machine.glyph_le (m.registers.get x)
    have hfits : (m.registers.get x).toNat % 16 * Font.glyphSize < 65536 := by omega
    simp [execute, sum, hfits, Machine.execute]
  | storeRegisters last => simp [execute, upTo_eq, Machine.execute]
  | loadRegisters last => simp [execute, loadRegisters_eq, Machine.execute]
  | _ => rfl

theorem step_eq {m : Machine} (h : m.WellFormed) (hpc : m.pc.toNat ≤ 0xFFE)
    (random : RandomWords) (word : Word) {ins : Instruction} (hins : ins.InRange) :
    step m random word ins = some (m.step random word ins) := by
  obtain ⟨hadvance, hle⟩ := h.advance hpc
  have hsum : sum m.pc.toNat 2 = some (m.pc + 2) := sum_two (by omega)
  have hexecute := execute_eq hadvance hle random m.pc hins
  rw [Machine.advance] at hexecute
  unfold step Machine.step
  simp only [hsum, hexecute, Option.bind_eq_bind, Option.bind_some]
  generalize Machine.execute _ _ _ _ = effect
  cases effect.fault with
  | some fault => rfl
  | none =>
    dsimp only
    split <;> rfl

theorem cycle_eq {m : Machine} (h : m.WellFormed) (random : RandomWords) :
    cycle m random = some (m.cycle random) := by
  rcases m.cycle_cases with ⟨x, hx⟩ | ⟨hidle, hpc⟩ | ⟨hidle, hpc, hword⟩ | ⟨ins, hins⟩
  · rw [Machine.cycle_of_awaiting hx, cycle, hx]
  · rw [Machine.cycle_of_past_end hidle hpc, cycle, hidle, fetch_eq, Memory.fetch_eq, if_pos hpc]
    rfl
  · rw [Machine.word] at hword
    rw [Machine.cycle_of_undecoded hidle hpc hword, cycle, hidle, fetch_eq, Memory.fetch_eq,
      if_neg (Nat.not_lt.mpr hpc)]
    simp [hword, Machine.word]
  · have hdecoded := hins.decoded
    have hstep := step_eq h hins.pc_le random m.word hins.inRange
    rw [Machine.word] at hdecoded hstep
    rw [hins.cycle_eq, cycle, hins.idle, fetch_eq, Memory.fetch_eq,
      if_neg (Nat.not_lt.mpr hins.pc_le), Machine.word]
    simp [hdecoded, hstep]

theorem load_eq (m : Machine) (program : Array UInt8) :
    load m program = some (m.load program) := by
  rw [load, if_pos (show Memory.programStart ≤ m.memory.bytes.size from (by decide : 512 ≤ 4096))]
  split
  · rename_i hsize
    have hroom : ¬ program.size ≤ Memory.programRoom := Nat.not_le.mpr hsize
    rw [Machine.load, Memory.load, if_neg hroom]
    rfl
  · rfl

theorem press_eq (m : Machine) (key : UInt8) : press m key = some (m.press key) := by
  rw [press, latch_eq]
  rfl

theorem release_eq (m : Machine) (key : UInt8) : release m key = some (m.release key) := by
  rw [release, latch_eq]
  rfl

/-- From a well-formed machine every operation passes all of its checks. -/
theorem perform_eq {c : Console} (h : c.machine.WellFormed) (operation : Operation) :
    perform c operation = some (c.perform operation) := by
  cases operation with
  | load program =>
    rw [perform, load_eq, Console.perform]
    cases c.machine.load program <;> rfl
  | cycle =>
    rw [perform, cycle_eq h]
    rfl
  | press key =>
    rw [perform, press_eq]
    rfl
  | release key =>
    rw [perform, release_eq]
    rfl
  | elapse ticks => rfl

/-- Whatever was done to a machine before, its invariant holds, its frame is one of ones and
zeros, and the next operation passes every check and does what it does without them. -/
theorem reachable_safe {m : Machine} (h : m.Reachable) :
    m.WellFormed ∧
      (∀ byte ∈ m.frame.pixels, byte = 0 ∨ byte = 1) ∧
      ∀ (random : RandomWords) (operation : Operation),
        perform ⟨m, random⟩ operation = some (Console.perform ⟨m, random⟩ operation) :=
  ⟨h.wellFormed, m.frame.mem_pixels, fun _ operation => perform_eq h.wellFormed operation⟩

/-- A program that calls itself until the call stack is full, and goes on after that. -/
theorem endless_call_safe :
    let m := ((Console.fresh .standard fun _ => 0).run
      (.load #[0x22, 0x00] :: .press 3 :: List.replicate 20 .cycle)).machine
    m.Reachable ∧ m.WellFormed ∧
      (∀ byte ∈ m.frame.pixels, byte = 0 ∨ byte = 1) ∧
      ∀ (random : RandomWords) (operation : Operation),
        perform ⟨m, random⟩ operation = some (Console.perform ⟨m, random⟩ operation) := by
  intro m
  have hreach : m.Reachable := ⟨_, _, _, rfl⟩
  exact ⟨hreach, reachable_safe hreach⟩

end ChipEight.Checked
