import ChipEight.Proofs.Standing

/-!
# What a run takes from its random words

One instruction draws a word, and of it keeps the bits of a mask. So a run draws as many words as
it executes such instructions (`run_random`), and their masks, in this order, say which bits of
which word the run depends on (`masks`). With other words that have these bits it comes to the
same at every step (`run_withWord`). That the masks stay the same as well is part of this, since
they come from a program that the run may have changed.
-/
namespace ChipEight

/-- The mask of the random byte that an instruction draws. -/
def Instruction.mask? : Instruction → Option UInt8
  | .random _ mask => some mask
  | _ => none

/-- The same place in another sequence of words. -/
def RandomWords.withWord (random : RandomWords) (word : Nat → UInt32) : RandomWords :=
  { random with word }

/-- Of the words to come, the `j`-th ones of both sequences have the same bits in the `j`-th of the
masks. -/
def RandomWords.AgreesOn (random : RandomWords) (word : Nat → UInt32) (masks : List UInt8) :
    Prop :=
  ∀ (j : Nat) (mask : UInt8), masks[j]? = some mask →
    (word (random.drawn + j)).toUInt8 &&& mask =
      (random.word (random.drawn + j)).toUInt8 &&& mask

/-- Where one word may be drawn before the others, it comes first. -/
theorem RandomWords.AgreesOn.split {random : RandomWords} {word : Nat → UInt32}
    {first : Option UInt8} {later : List UInt8}
    (h : random.AgreesOn word (first.toList ++ later)) :
    random.AgreesOn word first.toList ∧
      RandomWords.AgreesOn { random with drawn := random.drawn + first.toList.length } word
        later := by
  constructor
  · intro j mask hmask
    obtain ⟨hj, -⟩ := List.getElem?_eq_some_iff.mp hmask
    exact h j mask ((List.getElem?_append_left hj).trans hmask)
  · intro j mask hmask
    dsimp only
    rw [Nat.add_assoc]
    apply h
    rw [List.getElem?_append_right (Nat.le_add_right _ j), Nat.add_sub_cancel_left]
    exact hmask

namespace Machine

/-- The mask of the random byte that the next cycle draws: it executes an instruction for random
bytes, and nothing stops it. -/
def drawnMask? (m : Machine) (random : RandomWords) : Option UInt8 :=
  match (m.cycle random).result with
  | .ok .executed => m.upcoming?.bind Instruction.mask?
  | _ => none

variable {m : Machine} {ins : Instruction}

/-- Drawing a random byte cannot fail. -/
theorem Executes.cycle_of_random {x : Register} {mask : UInt8}
    (hins : m.Executes (.random x mask)) (random : RandomWords) :
    m.cycle random =
      ⟨(m.advance.after random (.random x mask)).countCycle, random.nextByte.2, .ok .executed,
        [.executing m.pc m.word (.random x mask)]⟩ := by
  have hidle : (m.advance.after random (.random x mask)).isWaiting = false :=
    congrArg Option.isSome hins.idle
  rw [hins.cycle_eq, step_eq]
  change (if (m.advance.after random (.random x mask)).isWaiting then _ else _) = _
  rw [hidle]
  rfl

theorem Executes.get_of_random {x : Register} {mask : UInt8} (hins : m.Executes (.random x mask))
    (random : RandomWords) (r : Register) :
    (m.cycle random).machine.registers.get r =
      if x = r then random.nextByte.1 &&& mask else m.registers.get r := by
  rw [hins.cycle_of_random, countCycle_eq]
  exact m.registers.get_set x r _

theorem drawnMask?_eq (m : Machine) (random : RandomWords) :
    m.drawnMask? random = m.upcoming?.bind Instruction.mask? := by
  cases hnext : m.upcoming?.bind Instruction.mask? with
  | none =>
    unfold drawnMask?
    rw [hnext]
    split <;> rfl
  | some mask =>
    obtain ⟨ins, hins, hmask⟩ := Option.bind_eq_some_iff.mp hnext
    cases ins with
    | random x mask =>
      rw [drawnMask?, (upcoming?_eq_some_iff.mp hins).cycle_of_random]
      exact hnext
    | _ => cases hmask

/-- A cycle draws one word if it draws a random byte, and none otherwise. -/
theorem cycle_random (m : Machine) (random : RandomWords) :
    (m.cycle random).random =
      { random with drawn := random.drawn + (m.drawnMask? random).toList.length } := by
  rw [drawnMask?_eq]
  cases hnext : m.upcoming? with
  | none =>
    obtain ⟨machine, result, log, hcycle, -⟩ := cycle_of_no_upcoming hnext
    rw [hcycle]
    rfl
  | some ins =>
    have hdrawn : (m.cycle random).random = (m.advance.execute random m.pc ins).random := by
      rw [(upcoming?_eq_some_iff.mp hnext).cycle_eq, step_eq]
      split
      · rfl
      · split <;> rfl
    rw [hdrawn, execute_random]
    cases ins <;> rfl

/-- The one instruction that looks at a word looks at the bits of its mask. -/
theorem after_withWord (m : Machine) {random : RandomWords} {word : Nat → UInt32}
    (h : random.AgreesOn word ins.mask?.toList) :
    m.after (random.withWord word) ins = m.after random ins := by
  cases ins with
  | random x mask =>
    have hbyte : (random.withWord word).nextByte.1 &&& mask = random.nextByte.1 &&& mask :=
      h 0 mask rfl
    simp only [Machine.after, registersAfter, hbyte]
  | _ => rfl

theorem cycle_withWord {random : RandomWords} {word : Nat → UInt32}
    (h : random.AgreesOn word (m.drawnMask? random).toList) :
    m.cycle (random.withWord word) =
      { m.cycle random with random := (m.cycle random).random.withWord word } := by
  rw [drawnMask?_eq] at h
  cases hnext : m.upcoming? with
  | none =>
    obtain ⟨machine, result, log, hcycle, -⟩ := cycle_of_no_upcoming hnext
    rw [hcycle, hcycle]
  | some ins =>
    rw [hnext] at h
    have hafter : m.advance.after (random.withWord word) ins = m.advance.after random ins :=
      m.advance.after_withWord h
    have hfault : (m.advance.execute (random.withWord word) m.pc ins).fault =
        (m.advance.execute random m.pc ins).fault := by
      cases ins <;> rfl
    have hdrawn : (m.advance.execute (random.withWord word) m.pc ins).random =
        (m.advance.execute random m.pc ins).random.withWord word := by
      cases ins <;> rfl
    have hins := upcoming?_eq_some_iff.mp hnext
    rw [hins.cycle_eq, hins.cycle_eq, step_eq, step_eq, hafter, hfault, hdrawn]
    split
    · rfl
    · split <;> rfl

end Machine

/-- The same machine with other random words. -/
def Console.withWord (c : Console) (word : Nat → UInt32) : Console :=
  { c with random := c.random.withWord word }

/-- The same report with other random words. -/
def OperationReport.withWord (report : OperationReport) (word : Nat → UInt32) :
    OperationReport :=
  { report with console := report.console.withWord word }

namespace Console

variable {c : Console} {word : Nat → UInt32}

/-- The mask of the random byte that an operation draws. -/
def drawnMask? (c : Console) : Operation → Option UInt8
  | .cycle => c.machine.drawnMask? c.random
  | _ => none

/-- The masks of the random bytes that a run draws, in their order: one for each cycle that
executes the instruction for them. -/
def masks (c : Console) : List Operation → List UInt8
  | [] => []
  | operation :: rest =>
      (c.drawnMask? operation).toList ++ (c.perform operation).console.masks rest

theorem perform_random (c : Console) (operation : Operation) :
    (c.perform operation).console.random =
      { c.random with
        drawn := c.random.drawn + (c.drawnMask? operation).toList.length } := by
  cases operation with
  | load program =>
    rcases c.perform_load_cases program with hload | ⟨after, -, hload⟩ <;> rw [hload] <;> rfl
  | cycle => exact c.machine.cycle_random c.random
  | press key | release key | elapse ticks => rfl

/-- A run draws as many words as it executes instructions for random bytes. -/
theorem run_random (c : Console) (operations : List Operation) :
    (c.run operations).random =
      { c.random with drawn := c.random.drawn + (c.masks operations).length } := by
  induction operations generalizing c with
  | nil => rfl
  | cons operation rest ih =>
    rw [run_cons, ih, perform_random, masks, List.length_append]
    dsimp only
    rw [Nat.add_assoc]

theorem perform_withWord {operation : Operation}
    (h : c.random.AgreesOn word (c.drawnMask? operation).toList) :
    (c.withWord word).perform operation = (c.perform operation).withWord word ∧
      (c.withWord word).drawnMask? operation = c.drawnMask? operation := by
  cases operation with
  | load program =>
    refine ⟨?_, rfl⟩
    simp only [perform, withWord]
    cases c.machine.load program <;> rfl
  | cycle =>
    have hcycle : c.machine.cycle (c.random.withWord word) = _ := Machine.cycle_withWord h
    refine ⟨?_, ?_⟩
    · simp only [perform, withWord, hcycle]
      rfl
    · simp only [drawnMask?, Machine.drawnMask?_eq]
      rfl
  | press key | release key | elapse ticks => exact ⟨rfl, rfl⟩

/-- Other words with the same bits in the masks make no difference to a run, nor to its masks. -/
theorem run_withWord {operations : List Operation}
    (h : c.random.AgreesOn word (c.masks operations)) :
    (c.withWord word).reports operations =
        (c.reports operations).map (·.withWord word) ∧
      (c.withWord word).run operations = (c.run operations).withWord word ∧
      (c.withWord word).masks operations = c.masks operations := by
  induction operations generalizing c with
  | nil => exact ⟨rfl, rfl, rfl⟩
  | cons operation rest ih =>
    obtain ⟨hfirst, hlater⟩ := RandomWords.AgreesOn.split h
    rw [← perform_random] at hlater
    obtain ⟨hperform, hmask⟩ := perform_withWord hfirst
    obtain ⟨hreports, hrun, hmasks⟩ := ih hlater
    have hnext : ((c.withWord word).perform operation).console =
        (c.perform operation).console.withWord word := by
      rw [hperform]
      rfl
    refine ⟨?_, ?_, ?_⟩
    · rw [reports_cons, hnext, hreports, hperform]
      rfl
    · rw [run_cons, hnext, hrun]
      rfl
    · rw [masks, hnext, hmasks, hmask]
      rfl

/-- A run draws one word for each instruction for random bytes that it executes, and depends on no
more of the words than their bits in the masks of these instructions: with any other words that
have the same bits there, each report and the last state are the same but for the words
themselves. -/
theorem masks_bound_random_use (c : Console) (operations : List Operation) :
    (c.run operations).random =
        { c.random with drawn := c.random.drawn + (c.masks operations).length } ∧
      ∀ word : Nat → UInt32, c.random.AgreesOn word (c.masks operations) →
        (c.withWord word).reports operations =
            (c.reports operations).map (·.withWord word) ∧
          (c.withWord word).run operations = (c.run operations).withWord word ∧
          (c.withWord word).masks operations = c.masks operations :=
  ⟨c.run_random operations, fun _ h => run_withWord h⟩

/-- Keeps the low half of one random byte and the high half of the next. -/
def twoHalves : Array UInt8 := #[0xC1, 0x0F, 0xC2, 0xF0]

/-- Words that differ in the halves that are not kept lead to the same registers. -/
theorem other_halves_do_not_matter :
    let c := fresh .standard fun _ => 0xA5
    let word : Nat → UInt32 := fun n => if n = 0 then 0xF5 else 0xAF
    let operations := [.load twoHalves, .cycle, .cycle]
    c.masks operations = [0x0F, 0xF0] ∧ (c.run operations).random.drawn = 2 ∧
      c.random.AgreesOn word (c.masks operations) ∧
      (c.withWord word).run operations = (c.run operations).withWord word ∧
      (c.run operations).machine.registers.get 1 = 0x05 ∧
      (c.run operations).machine.registers.get 2 = 0xA0 := by
  obtain ⟨loaded, hrun, -, hstart, -, hrandom⟩ :=
    exists_loaded .standard (fun _ => 0xA5) (show twoHalves.size ≤ _ by decide)
  intro c word operations
  let first := (loaded.perform .cycle).console
  let second := (first.perform .cycle).console
  obtain ⟨h200, -, hnext⟩ := goes_on hstart (by decide)
    (show Instruction.decode? _ = some (.random 1 0x0F) by decide) rfl rfl rfl
  have h202 : first.machine.Executes (.random 2 0xF0) :=
    hnext.executes (by decide) (by decide)
  have hload : (c.perform (.load twoHalves)).console = loaded := hrun []
  have hall : c.run operations = second := hrun [.cycle, .cycle]
  have hmasks : c.masks operations = [0x0F, 0xF0] := by
    change masks c [_, _, _] = _
    rw [masks, hload, masks, masks, masks]
    simp only [drawnMask?, Machine.drawnMask?_eq, Machine.upcoming?_eq_some_iff.mpr h200]
    rw [Machine.upcoming?_eq_some_iff.mpr h202]
    rfl
  have hagrees : c.random.AgreesOn word (c.masks operations) := by
    rw [hmasks]
    rintro (_ | _ | j) mask hmask
    · cases hmask
      decide
    · cases hmask
      decide
    · cases hmask
  obtain ⟨hdrawn, hsame⟩ := masks_bound_random_use c operations
  rw [hmasks] at hdrawn
  have hword : loaded.random.nextByte.1 = 0xA5 := by
    rw [hrandom]
    rfl
  have hword' : first.random.nextByte.1 = 0xA5 := by
    change (loaded.machine.cycle loaded.random).random.nextByte.1 = _
    rw [h200.cycle_of_random, hrandom]
    rfl
  have hlow : first.machine.registers.get 1 = 0x05 := by
    refine (h200.get_of_random loaded.random 1).trans ?_
    rw [hword]
    rfl
  refine ⟨hmasks, congrArg RandomWords.drawn hdrawn, hagrees, (hsame word hagrees).2.1, ?_, ?_⟩
  · rw [hall]
    exact (h202.get_of_random first.random 1).trans hlow
  · rw [hall]
    refine (h202.get_of_random first.random 2).trans ?_
    rw [hword']
    rfl

end Console

end ChipEight
