import ChipEight.Proofs.Invariant

/-!
# Loading after a run

A load writes the whole machine except for the system area of memory and the rules that
the settings chose. Nothing else writes those either, so after any run a load leads
where it leads on a machine that never ran.
-/
namespace ChipEight

namespace Memory

/-- The font, zeros, a program, and zeros again. -/
def ofProgram (program : Array UInt8) : Memory :=
  ⟨Vector.ofFn fun addr =>
    if addr.val < programStart then (Font.rows[addr.val]?).getD 0
    else (program[addr.val - programStart]?).getD 0⟩

theorem byte_ofProgram (program : Array UInt8) {addr : Nat} (h : addr < 4096) :
    (ofProgram program).byte addr =
      if addr < programStart then (Font.rows[addr]?).getD 0
      else (program[addr - programStart]?).getD 0 := by
  simp only [byte, ofProgram, Vector.getElem?_ofFn, dif_pos h, Option.getD_some]

theorem load_inside (memory : Memory) {program : Array UInt8} (hsize : program.size ≤ programRoom) :
    ∃ loaded, memory.load program = .ok loaded := by
  rw [load, if_pos hsize]
  exact ⟨_, rfl⟩

theorem HasFont.load_of_fits {memory : Memory} (h : memory.HasFont) {program : Array UInt8}
    (hsize : program.size ≤ programRoom) : memory.load program = .ok (ofProgram program) := by
  obtain ⟨loaded, hload⟩ := memory.load_inside hsize
  have hloaded : loaded = ofProgram program := by
    refine ext_byte fun addr haddr => ?_
    rw [byte_load hload, byte_ofProgram program haddr]
    split
    · rename_i hsystem
      exact h addr hsystem
    · rfl
  rw [hload, hloaded]

theorem load_of_too_large (memory : Memory) {program : Array UInt8}
    (hsize : programRoom < program.size) :
    memory.load program = .error (.programTooLarge program.size) := by
  rw [load, if_neg (Nat.not_le.mpr hsize)]

end Memory

namespace Machine

/-- The rules that the machine follows are those of the settings. -/
structure Follows (m : Machine) (settings : Settings) : Prop where
  shift : m.shift = settings.shift
  timers : m.timers = settings.timers

variable {m : Machine} {settings : Settings}

theorem Follows.countCycle (h : m.Follows settings) : m.countCycle.Follows settings := by
  unfold Machine.countCycle
  split
  · exact ⟨h.shift, h.timers⟩
  · exact h

theorem Follows.cycle (h : m.Follows settings) (random : RandomWords) :
    (m.cycle random).machine.Follows settings := by
  apply cycle_keeps (P := fun after => after.Follows settings) random h
  · intro x key _ _
    exact ⟨h.shift, h.timers⟩
  · intro ins _
    exact ⟨h.shift, h.timers⟩
  · intro after hafter
    exact hafter.countCycle

theorem Follows.load (h : m.Follows settings) {after : Machine} {program : Array UInt8}
    (hload : m.load program = .ok after) : after.Follows settings := by
  obtain ⟨memory, -, rfl⟩ := load_ok hload
  exact ⟨h.shift, h.timers⟩

/-- The machine that has a program and has not run yet. -/
def loaded (settings : Settings) (program : Array UInt8) : Machine where
  memory := .ofProgram program
  registers := ⟨Vector.replicate 16 0⟩
  stack := ⟨0, Vector.replicate 16 0⟩
  pc := 0x200
  index := 0
  delay := 0
  sound := 0
  frame := ⟨Vector.replicate 2048 false⟩
  keypad := ⟨Vector.replicate 16 false, false, none⟩
  awaiting := none
  shift := settings.shift
  timers := settings.timers

theorem load_of_fits (hfont : m.memory.HasFont) (h : m.Follows settings)
    {program : Array UInt8} (hsize : program.size ≤ Memory.programRoom) :
    m.load program = .ok (loaded settings program) := by
  rw [load, hfont.load_of_fits hsize, loaded, ← h.shift, ← h.timers]
  rfl

theorem load_fresh (settings : Settings) {program : Array UInt8}
    (hsize : program.size ≤ Memory.programRoom) :
    (fresh settings).load program = .ok (loaded settings program) :=
  load_of_fits (wellFormed_fresh settings).font ⟨rfl, rfl⟩ hsize

theorem load_of_too_large {program : Array UInt8} (hsize : Memory.programRoom < program.size) :
    m.load program = .error (.programTooLarge program.size) := by
  rw [load, m.memory.load_of_too_large hsize]
  rfl

end Machine

namespace Console

theorem perform_follows {settings : Settings} (c : Console) (operation : Operation)
    (h : c.machine.Follows settings) :
    (c.perform operation).console.machine.Follows settings :=
  perform_keeps (P := fun after => after.Follows settings) operation h (fun _ _ => h.load)
    (h.cycle c.random) (fun _ => ⟨h.shift, h.timers⟩) (fun _ => ⟨h.shift, h.timers⟩)
    (fun _ => ⟨h.shift, h.timers⟩)

theorem run_follows (settings : Settings) (word : Nat → UInt32) (operations : List Operation) :
    ((fresh settings word).run operations).machine.Follows settings :=
  run_induction (P := fun c => c.machine.Follows settings) perform_follows ⟨rfl, rfl⟩ operations

/-- No operation changes what makes the timers count. -/
theorem run_timers (c : Console) (operations : List Operation) :
    (c.run operations).machine.timers = c.machine.timers :=
  have hfollows := run_induction
    (P := fun after => after.machine.Follows
      { Settings.standard with shift := c.machine.shift, timers := c.machine.timers })
    perform_follows ⟨rfl, rfl⟩ operations
  hfollows.timers

/-- A load is refused or sets the whole machine. -/
theorem perform_load_cases (c : Console) (program : Array UInt8) :
    (c.perform (.load program)).console = c ∨
      ∃ after, c.machine.load program = .ok after ∧
        (c.perform (.load program)).console = ⟨after, c.random⟩ := by
  rw [perform]
  cases c.machine.load program with
  | error fault => exact Or.inl rfl
  | ok after => exact Or.inr ⟨after, rfl, rfl⟩

theorem perform_load_ok {c : Console} {program : Array UInt8} {machine : Machine}
    (h : c.machine.load program = .ok machine) :
    c.perform (.load program) = ⟨{ c with machine }, .loaded (.ok ()), []⟩ := by
  rw [perform, h]

/-- A machine that never ran is made ready by a program that fits. -/
theorem perform_load (settings : Settings) (word : Nat → UInt32) {program : Array UInt8}
    (hsize : program.size ≤ Memory.programRoom) :
    ((fresh settings word).perform (.load program)).console =
      ⟨.loaded settings program, .ofSequence word⟩ := by
  have hload : (fresh settings word).machine.load program = .ok (.loaded settings program) :=
    Machine.load_fresh settings hsize
  rw [perform_load_ok hload]
  rfl

/-- A program that fits makes any run forgotten: memory is the font and the program, the rest is
as in a machine that never ran, and so is every answer from then on. A program that does
not fit is refused and changes nothing. -/
theorem load_after_run (settings : Settings) (word : Nat → UInt32) (operations : List Operation)
    (program : Array UInt8) :
    let c := (fresh settings word).run operations
    if program.size ≤ 3584 then
      c.machine.load program = .ok (.loaded settings program) ∧
        (Machine.fresh settings).load program = .ok (.loaded settings program) ∧
        (∀ addr, addr < 4096 → (Machine.loaded settings program).memory.byte addr =
          if addr < 0x200 then (Font.rows[addr]?).getD 0 else (program[addr - 0x200]?).getD 0) ∧
        ∀ (random : RandomWords) (later : List Operation),
          reports ⟨c.machine, random⟩ (.load program :: later) =
            reports ⟨.fresh settings, random⟩ (.load program :: later)
    else
      c.machine.load program = .error (.programTooLarge program.size) ∧
        (c.perform (.load program)).console = c := by
  intro c
  split
  · rename_i hsize
    have hfollows : c.machine.Follows settings := run_follows settings word operations
    have hreach : c.machine.Reachable := ⟨settings, word, operations, rfl⟩
    have hload := Machine.load_of_fits hreach.wellFormed.font hfollows hsize
    have hfresh := Machine.load_fresh settings hsize
    refine ⟨hload, hfresh, ?_, ?_⟩
    · intro addr haddr
      exact Memory.byte_ofProgram program haddr
    · intro random later
      simp only [reports, perform, hload, hfresh]
  · rename_i hsize
    have hload : c.machine.load program = _ := Machine.load_of_too_large (Nat.lt_of_not_le hsize)
    refine ⟨hload, ?_⟩
    rw [perform, hload]

end Console

end ChipEight
