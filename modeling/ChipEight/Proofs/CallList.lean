import ChipEight.Proofs.CallReturn
import ChipEight.Proofs.Coupling

/-!
# The call stack as a list

What the cells at the depth and above hold is never read: two machines that differ in such cells
alone run alike (`run_sameButStale`). What is left is the list of the addresses in use, at most
sixteen, to which calls append and of which returns remove the last (`run_live`).
-/
namespace ChipEight

namespace CallStack

/-- The cells in use are the same. -/
structure SameLive (stack other : CallStack) : Prop where
  depth : other.depth = stack.depth
  cells : ∀ k : Fin 16, k.val < stack.depth → other.cells[k] = stack.cells[k]

namespace SameLive

variable {stack other : CallStack}

theorem refl (stack : CallStack) : stack.SameLive stack := ⟨rfl, fun _ _ => rfl⟩

theorem live_eq (h : stack.SameLive other) : other.live = stack.live := by
  unfold live
  rw [h.depth]
  refine List.ext_getElem? fun k => ?_
  rw [List.getElem?_take, List.getElem?_take]
  split
  · rename_i hk
    by_cases hend : k < 16
    · simpa [hend] using h.cells ⟨k, hend⟩ hk
    · simp [hend]
  · rfl

/-- A push uses the first cell that was not in use. -/
theorem push? (h : stack.SameLive other) (addr : UInt16) :
    (stack.push? addr = none ∧ other.push? addr = none) ∨
      ∃ after after', stack.push? addr = some after ∧ other.push? addr = some after' ∧
        after.SameLive after' := by
  obtain ⟨used, cells⟩ := stack
  obtain ⟨used', cells'⟩ := other
  obtain ⟨hdepth, hcells⟩ := h
  dsimp only at hdepth hcells
  subst hdepth
  by_cases hroom : used' < 16
  · refine Or.inr ⟨_, _, dif_pos hroom, dif_pos hroom, rfl, fun k hk => ?_⟩
    change (cells'.set used' addr hroom)[k.val] = (cells.set used' addr hroom)[k.val]
    rw [Vector.getElem_set, Vector.getElem_set]
    split
    · rfl
    · rename_i hne
      exact hcells k (Nat.lt_of_le_of_ne (Nat.le_of_lt_succ hk) (Ne.symm hne))
  · exact Or.inl ⟨dif_neg hroom, dif_neg hroom⟩

/-- A pop reads the last cell in use. -/
theorem pop? (h : stack.SameLive other) :
    (stack.pop? = none ∧ other.pop? = none) ∨
      ∃ addr after after', stack.pop? = some (addr, after) ∧ other.pop? = some (addr, after') ∧
        after.SameLive after' := by
  obtain ⟨used, cells⟩ := stack
  obtain ⟨used', cells'⟩ := other
  obtain ⟨hdepth, hcells⟩ := h
  dsimp only at hdepth hcells
  subst hdepth
  unfold CallStack.pop?
  cases used' with
  | zero => exact Or.inl ⟨rfl, rfl⟩
  | succ below =>
    dsimp only
    by_cases hend : below < 16
    · have htop : cells'[below] = cells[below] := hcells ⟨below, hend⟩ (Nat.lt_succ_self below)
      rw [Vector.getElem?_eq_getElem hend, Vector.getElem?_eq_getElem hend, htop]
      exact Or.inr ⟨_, _, _, rfl, rfl, rfl, fun k hk => hcells k (Nat.lt_succ_of_lt hk)⟩
    · rw [Vector.getElem?_eq_none (Nat.le_of_not_lt hend),
        Vector.getElem?_eq_none (Nat.le_of_not_lt hend)]
      exact Or.inl ⟨rfl, rfl⟩

end SameLive

end CallStack

/-! ## Cells that are not in use -/

theorem CallStack.cells_of_pop? (stack : CallStack) :
    ((stack.pop?.map Prod.snd).getD stack).cells = stack.cells := by
  unfold pop?
  split
  · rfl
  · rename_i below _
    cases stack.cells[below]? <;> rfl

namespace Machine

/-- The machine with another call stack. -/
def withStack (m : Machine) (stack : CallStack) : Machine := { m with stack }

/-- Everything is the same but for cells of the call stack that are not in use. -/
def SameButStale (m n : Machine) : Prop :=
  ∃ stack, m.stack.SameLive stack ∧ n = m.withStack stack

variable {m n : Machine} {stack : CallStack} {ins : Instruction}

theorem SameButStale.dump_eq (h : m.SameButStale n) : n.dump = m.dump := by
  obtain ⟨stack, hsame, rfl⟩ := h
  have hstack : stack.dump = m.stack.dump := by
    rw [CallStack.dump, CallStack.dump, hsame.depth, hsame.live_eq]
  simp only [dump, withStack, hstack]

theorem stackAfter_withStack (h : m.stack.SameLive stack) (ins : Instruction) :
    (m.stackAfter ins).SameLive ((m.withStack stack).stackAfter ins) := by
  have hpushed : ((m.stack.push? m.pc).getD m.stack).SameLive
      ((stack.push? m.pc).getD stack) := by
    rcases h.push? m.pc with ⟨hpush, hpush'⟩ | ⟨after, after', hpush, hpush', hafter⟩
    · rw [hpush, hpush']
      exact h
    · rw [hpush, hpush']
      exact hafter
  have hpopped : (((m.stack.pop?).map Prod.snd).getD m.stack).SameLive
      (((stack.pop?).map Prod.snd).getD stack) := by
    rcases h.pop? with ⟨hpop, hpop'⟩ | ⟨addr, after, after', hpop, hpop', hafter⟩
    · rw [hpop, hpop']
      exact h
    · rw [hpop, hpop']
      exact hafter
  cases ins with
  | ret => exact hpopped
  | call target | callIndexed target => exact hpushed
  | _ => exact h

theorem pcAfter_withStack (h : m.stack.SameLive stack) (ins : Instruction) :
    (m.withStack stack).pcAfter ins = m.pcAfter ins := by
  have hroom : (stack.push? m.pc).isSome = (m.stack.push? m.pc).isSome := by
    rcases h.push? m.pc with ⟨hpush, hpush'⟩ | ⟨after, after', hpush, hpush', -⟩
    · rw [hpush, hpush']
    · rw [hpush, hpush', Option.isSome_some, Option.isSome_some]
  have htop : ((stack.pop?).map Prod.fst).getD m.pc = ((m.stack.pop?).map Prod.fst).getD m.pc := by
    rcases h.pop? with ⟨hpop, hpop'⟩ | ⟨addr, after, after', hpop, hpop', -⟩
    · rw [hpop, hpop']
    · rw [hpop, hpop', Option.map_some, Option.map_some]
  cases ins with
  | ret => exact htop
  | call target | callIndexed target =>
    simp only [pcAfter, withStack, hroom, indexedTarget]
  | _ => rfl

/-- An instruction does the same with another call stack, except for the call stack itself and
where a return goes. -/
theorem after_withStack_eq (m : Machine) (stack : CallStack) (random : RandomWords)
    (ins : Instruction) :
    (m.withStack stack).after random ins =
      { m.after random ins with
        registers := (m.withStack stack).registersAfter random ins
        stack := (m.withStack stack).stackAfter ins
        pc := (m.withStack stack).pcAfter ins } := by
  cases ins <;> rfl

theorem after_withStack (h : m.stack.SameLive stack) (random : RandomWords) (ins : Instruction) :
    (m.withStack stack).after random ins =
      (m.after random ins).withStack ((m.withStack stack).stackAfter ins) := by
  have hregisters : (m.withStack stack).registersAfter random ins = m.registersAfter random ins :=
    registersAfter_congr (m := m) (n := m.withStack stack) rfl rfl rfl rfl rfl (fun _ _ => rfl)
      random
  rw [after_withStack_eq, hregisters, pcAfter_withStack h]
  rfl

theorem alike_withStack (h : m.stack.SameLive stack) : m.Alike (m.withStack stack) where
  awaiting := rfl
  pressed := fun _ _ => rfl
  pc := rfl
  word := fun _ _ => rfl
  depth := h.depth
  index := rfl

theorem cycle_sameButStale (hm : m.WellFormed) (h : m.SameButStale n) (random : RandomWords) :
    (m.cycle random).Agrees SameButStale (n.cycle random) := by
  obtain ⟨stack, hsame, rfl⟩ := h
  apply (alike_withStack hsame).cycle_coupled random hm ⟨stack, hsame, rfl⟩
  · rintro a _ ⟨other, -, rfl⟩
    rfl
  · intro x key _ _
    exact ⟨stack, hsame, rfl⟩
  · intro ins _
    exact ⟨_, stackAfter_withStack (m := m.advance) hsame ins,
      after_withStack (m := m.advance) hsame random ins⟩
  · rintro a _ ⟨other, hother, rfl⟩
    refine ⟨other, ?_, countCycle_comm (·.withStack other) rfl rfl⟩
    rw [countCycle_stack]
    exact hother

end Machine

/-! ## A list of return addresses -/

namespace CallStack.Bounded

variable {stack : CallStack}

/-- Where a pop fails there is nothing to remove. -/
theorem live_of_pop? (h : stack.Bounded) :
    ((stack.pop?.map Prod.snd).getD stack).live = stack.live.dropLast := by
  rcases List.eq_nil_or_concat' stack.live with hnil | ⟨below, addr, hlive⟩
  · cases hpop : stack.pop? with
    | none =>
      rw [hnil]
      exact hnil
    | some popped =>
      have hlive := live_pop hpop
      rw [hnil] at hlive
      simp at hlive
  · obtain ⟨after, hpop, hbelow⟩ := h.pop?_of_live hlive
    rw [hpop, hlive, List.dropLast_concat]
    exact hbelow

theorem live_of_push? (h : stack.Bounded) (addr : UInt16) :
    ((stack.push? addr).getD stack).live =
      if stack.live.length < 16 then stack.live ++ [addr] else stack.live := by
  rw [h.length_live]
  split
  · rename_i hroom
    obtain ⟨after, hpush⟩ := push?_of_room addr hroom
    rw [hpush]
    exact live_push hpush
  · rename_i hfull
    rw [push?, dif_neg hfull]
    rfl

end CallStack.Bounded

namespace Instruction

/-- The instruction is a call or a return. -/
def usesCalls : Instruction → Bool
  | .ret | .call _ | .callIndexed _ => true
  | _ => false

/-- What an instruction at `origin` makes of the list of return addresses, or with which fault it
is refused. -/
def onCalls (origin : UInt16) (calls : List UInt16) : Instruction → Except Fault (List UInt16)
  | .ret => if calls = [] then .error (.stackUnderflow origin) else .ok calls.dropLast
  | .call _ | .callIndexed _ =>
      if calls.length < 16 then .ok (calls ++ [origin + 2]) else .error (.stackOverflow origin)
  | _ => .ok calls

/-- The list after an instruction; one that is refused leaves it as it was. -/
def callsAfter (origin : UInt16) (calls : List UInt16) (ins : Instruction) : List UInt16 :=
  match ins.onCalls origin calls with
  | .ok after => after
  | .error _ => calls

end Instruction

namespace Machine

variable {m : Machine} {ins : Instruction}

/-- The list of return addresses after the next cycle. -/
def callsAfter (m : Machine) (calls : List UInt16) : List UInt16 :=
  match m.upcoming? with
  | some ins => ins.callsAfter m.pc calls
  | none => calls

theorem stackAfter_live (h : m.stack.Bounded) (ins : Instruction) :
    (m.advance.stackAfter ins).live = ins.callsAfter m.pc m.stack.live := by
  unfold Instruction.callsAfter
  cases ins with
  | ret =>
    refine h.live_of_pop?.trans ?_
    rw [Instruction.onCalls]
    by_cases hnil : m.stack.live = []
    · rw [if_pos hnil, hnil]
      rfl
    · rw [if_neg hnil]
  | call target | callIndexed target =>
    refine (h.live_of_push? (m.pc + 2)).trans ?_
    rw [Instruction.onCalls]
    split <;> rfl
  | _ => rfl

/-- What a cycle makes of the call stack is up to the instruction, also where it fails. -/
theorem Executes.stack_eq (hins : m.Executes ins) (random : RandomWords) :
    (m.cycle random).machine.stack = m.advance.stackAfter ins := by
  rw [hins.cycle_eq, step_eq]
  split
  · rfl
  · split
    · rfl
    · exact countCycle_stack _

theorem cycle_live (hm : m.WellFormed) (random : RandomWords) :
    (m.cycle random).machine.stack.live = m.callsAfter m.stack.live := by
  unfold callsAfter
  cases hnext : m.upcoming? with
  | none =>
    obtain ⟨machine, result, log, hcycle, hstack⟩ := cycle_of_no_upcoming hnext
    rw [hcycle, hstack]
  | some ins =>
    rw [(upcoming?_eq_some_iff.mp hnext).stack_eq, stackAfter_live hm.stack]

/-- A call or a return is completed or refused as the list says. -/
theorem Executes.result_of_usesCalls (hins : m.Executes ins) (hm : m.WellFormed)
    (huses : ins.usesCalls = true) (random : RandomWords) :
    (m.cycle random).result = (ins.onCalls m.pc m.stack.live).map fun _ => .executed := by
  have hlength := hm.stack.length_live
  have hle := hm.stack.depth_le
  cases ins with
  | ret =>
    rw [Instruction.onCalls]
    by_cases hnil : m.stack.live = []
    · have hempty : m.stack.depth = 0 := hlength.symm.trans (congrArg List.length hnil)
      rw [if_pos hnil, hins.result_of_fault hm random (if_pos hempty)]
      rfl
    · have hdepth : ¬ m.stack.depth = 0 := fun hempty =>
        hnil (List.length_eq_zero_iff.mp (hlength.trans hempty))
      rw [if_neg hnil, hins.cycle_of_no_fault hm random (if_neg hdepth) (fun _ => nofun)]
      rfl
  | call target | callIndexed target =>
    rw [Instruction.onCalls, hlength]
    by_cases hroom : m.stack.depth < 16
    · rw [if_pos hroom, hins.cycle_of_no_fault hm random (if_neg (Nat.ne_of_lt hroom))
        (fun _ => nofun)]
      rfl
    · have hfull : m.stack.depth = 16 := Nat.le_antisymm hle (Nat.le_of_not_lt hroom)
      rw [if_neg hroom, hins.result_of_fault hm random (if_pos hfull)]
      rfl
  | _ => cases huses

/-- A return leaves the cell of the address that it takes away as it was. -/
theorem Executes.cells_of_ret (hins : m.Executes .ret) (random : RandomWords) :
    (m.cycle random).machine.stack.cells = m.stack.cells := by
  rw [hins.stack_eq]
  exact CallStack.cells_of_pop? m.stack

/-- A call or a return draws no random word. -/
theorem Executes.random_of_usesCalls (hins : m.Executes ins) (hm : m.WellFormed)
    (huses : ins.usesCalls = true) (random : RandomWords) : (m.cycle random).random = random := by
  have hkept : randomAfter random ins = random := by
    cases ins with
    | random x mask => cases huses
    | _ => rfl
  rw [hins.cycle_report hm.stack.depth_le (Nat.lt_succ_of_le hm.index_le)]
  split
  · exact hkept
  · split <;> exact hkept

end Machine

namespace Console

variable {c d : Console}

theorem perform_sameButStale (operation : Operation) (hc : c.machine.WellFormed)
    (h : c.machine.SameButStale d.machine) (hrandom : d.random = c.random) :
    (c.perform operation).Matches Machine.SameButStale (d.perform operation) := by
  obtain ⟨n, random⟩ := d
  obtain ⟨stack, hsame, rfl : n = _⟩ := h
  apply perform_coupled operation ⟨stack, hsame, rfl⟩ hrandom
  · intro program a b ha hb
    obtain ⟨memory, hmemory, rfl⟩ := Machine.load_ok ha
    obtain ⟨memory', hmemory', rfl⟩ := Machine.load_ok hb
    rw [Machine.withStack, hmemory] at hmemory'
    cases hmemory'
    exact ⟨.empty, .refl _, rfl⟩
  · intro _
    exact Machine.cycle_sameButStale hc ⟨stack, hsame, rfl⟩ c.random
  · intro key
    exact ⟨stack, hsame, rfl⟩
  · intro key
    exact ⟨stack, hsame, rfl⟩
  · intro ticks
    exact ⟨stack, hsame, rfl⟩

theorem run_sameButStale (hc : c.machine.WellFormed) (h : c.machine.SameButStale d.machine)
    (hrandom : d.random = c.random) (operations : List Operation) :
    RunsAlike Machine.SameButStale c d operations :=
  run_always_coupled (fun _ _ operation hm hsame hr => perform_sameButStale operation hm hsame hr)
    hc h hrandom operations

/-- The list of return addresses after an operation. A program that fits empties it. -/
def callsAfter (c : Console) (calls : List UInt16) : Operation → List UInt16
  | .load program => if program.size ≤ Memory.programRoom then [] else calls
  | .cycle => c.machine.callsAfter calls
  | .press _ | .release _ | .elapse _ => calls

/-- The list of return addresses after a run. -/
def callsAlong (c : Console) (calls : List UInt16) : List Operation → List UInt16
  | [] => calls
  | operation :: rest =>
      (c.perform operation).console.callsAlong (c.callsAfter calls operation) rest

theorem perform_live (hc : c.machine.WellFormed) (operation : Operation) :
    (c.perform operation).console.machine.stack.live =
      c.callsAfter c.machine.stack.live operation := by
  cases operation with
  | load program =>
    rw [callsAfter]
    split
    · rename_i hsize
      obtain ⟨after, hload⟩ : ∃ after, c.machine.load program = .ok after := by
        rw [Machine.load, hc.font.load_of_fits hsize]
        exact ⟨_, rfl⟩
      obtain ⟨memory, -, rfl⟩ := Machine.load_ok hload
      rw [perform_load_ok hload]
      rfl
    · rename_i hsize
      rw [perform, Machine.load_of_too_large (Nat.lt_of_not_le hsize)]
  | cycle => exact Machine.cycle_live hc c.random
  | press key | release key | elapse ticks => rfl

/-- The addresses in use are the list that calls and returns make. -/
theorem run_live (hc : c.machine.WellFormed) (operations : List Operation) :
    (c.run operations).machine.stack.live = c.callsAlong c.machine.stack.live operations := by
  induction operations generalizing c with
  | nil => rfl
  | cons operation rest ih =>
    rw [run_cons, ih (perform_wellFormed c operation hc), perform_live hc, callsAlong]

/-- What the cells that are not in use hold makes no difference to any run, and what it does with
the others is what it does with a list of at most sixteen addresses: calls append to it, returns
remove the last address and go there, and what cannot be done with the list is refused and leaves
it as it was. -/
theorem call_stack_is_list {m : Machine} (h : m.Reachable) (random : RandomWords) :
    (∀ n, m.SameButStale n → ∀ operations,
      RunsAlike (fun a b => a.SameButStale b ∧ b.stack.live = a.stack.live ∧ b.dump = a.dump)
        ⟨m, random⟩ ⟨n, random⟩ operations) ∧
    ∀ operations,
      let c := run ⟨m, random⟩ operations
      let calls := callsAlong ⟨m, random⟩ m.stack.live operations
      c.machine.stack.live = calls ∧ calls.length ≤ 16 ∧
        ∀ ins, c.machine.Executes ins → ins.usesCalls = true →
          (c.machine.cycle c.random).result =
              (ins.onCalls c.machine.pc calls).map (fun _ => .executed) ∧
            ∀ addr, ins = .ret → calls.getLast? = some addr →
              (c.machine.cycle c.random).machine.pc = addr := by
  constructor
  · intro n hsame operations
    have halike := run_sameButStale (c := ⟨m, random⟩) (d := ⟨n, random⟩) h.wellFormed hsame rfl
    refine (halike operations).imp ?_
    rintro a b hab
    refine ⟨hab, ?_, hab.dump_eq⟩
    obtain ⟨stack, hlive, rfl⟩ := hab
    exact hlive.live_eq
  · intro operations c calls
    have hc : c.machine.WellFormed := run_wellFormed (c := ⟨m, random⟩) h.wellFormed operations
    have hcalls : c.machine.stack.live = calls :=
      run_live (c := ⟨m, random⟩) h.wellFormed operations
    have hlength : calls.length ≤ 16 := by
      rw [← hcalls, hc.stack.length_live]
      exact hc.stack.depth_le
    refine ⟨hcalls, hlength, ?_⟩
    intro ins hins huses
    rw [← hcalls]
    refine ⟨hins.result_of_usesCalls hc huses c.random, ?_⟩
    rintro addr rfl hlast
    obtain ⟨below, hlive⟩ := List.getLast?_eq_some_iff.mp hlast
    exact (hins.cycle_of_ret hc hlive c.random).2.1

/-- Two calls of a return, and the return, which is the third instruction as well. -/
def twoCalls : Array UInt8 := #[0x22, 0x04, 0x22, 0x04, 0x00, 0xEE]

/-- After the first call has returned its cell is stale and may hold anything: the second call
returns behind itself, and the return that is left then finds nothing to return to. -/
theorem stale_cell_not_read :
    let m := ((fresh .standard fun _ => 0).run [.load twoCalls, .cycle, .cycle]).machine
    let n := m.withStack .empty
    let random := RandomWords.ofSequence fun _ => 0
    m.Reachable ∧ m.stack.cells[0]? = some 0x202 ∧ n.stack.cells[0]? = some 0 ∧
      m.SameButStale n ∧
      RunsAlike (fun a b => a.SameButStale b ∧ b.stack.live = a.stack.live ∧ b.dump = a.dump)
        ⟨m, random⟩ ⟨n, random⟩ [.cycle, .cycle, .cycle] ∧
      (run ⟨m, random⟩ [.cycle]).machine.stack.live = [0x204] ∧
      ((run ⟨m, random⟩ [.cycle]).machine.cycle random).machine.pc = 0x204 ∧
      (run ⟨m, random⟩ [.cycle, .cycle]).machine.stack.live = [] ∧
      ((run ⟨m, random⟩ [.cycle, .cycle]).machine.cycle random).result =
        .error (.stackUnderflow 0x204) := by
  obtain ⟨loaded, hrun, hreached, -, hloaded, -⟩ :=
    exists_loaded .standard (fun _ => 0) (show twoCalls.size ≤ _ by decide)
  have hstart : loaded.machine.StandsIn twoCalls 0 [] :=
    hloaded ▸ Machine.standsIn_loaded .standard (by decide)
  rw [hrun]
  intro m n random
  let first := (loaded.perform .cycle).console
  let second := run ⟨m, random⟩ [.cycle]
  let after := run ⟨m, random⟩ [.cycle, .cycle]
  have h200 : loaded.machine.Executes (.call 0x204) := hstart.executes (by decide) (by decide)
  have hfirst : first.machine.StandsIn twoCalls 4 [0x202] :=
    hstart.call h200 (by decide) rfl rfl loaded.random
  have hback : first.machine.Executes .ret := hfirst.executes (by decide) (by decide)
  have hm : m.StandsIn twoCalls 2 [] := hfirst.ret hback rfl rfl first.random
  have h202 : m.Executes (.call 0x204) := hm.executes (by decide) (by decide)
  have hsecond : second.machine.StandsIn twoCalls 4 [0x204] :=
    hm.call h202 (by decide) rfl rfl random
  have hagain : second.machine.Executes .ret := hsecond.executes (by decide) (by decide)
  have hafter : after.machine.StandsIn twoCalls 4 [] :=
    hsecond.ret hagain rfl rfl second.random
  have hlast : after.machine.Executes .ret := hafter.executes (by decide) (by decide)
  have hreach : m.Reachable := hreached _
  have hstale : m.stack.cells[0]? = some 0x202 := by
    have hcell : first.machine.stack.cells[0] = 0x202 :=
      CallStack.cell_of_live (by decide) (by rw [hfirst.live]; rfl)
    have hkept : m.stack.cells = first.machine.stack.cells := hback.cells_of_ret first.random
    rw [hkept]
    exact congrArg some hcell
  have hsame : m.SameButStale n :=
    ⟨.empty, ⟨hm.depth_eq.symm, fun k hk => absurd hk (hm.depth_eq ▸ Nat.not_lt_zero k)⟩, rfl⟩
  have hrandom : second.random = random := h202.random_of_usesCalls hm.wellFormed rfl random
  have hrandom' : after.random = random :=
    (hagain.random_of_usesCalls hsecond.wellFormed rfl second.random).trans hrandom
  obtain ⟨halike, hlist⟩ := call_stack_is_list hreach random
  obtain ⟨hcalls, -, hanswers⟩ := hlist [.cycle]
  obtain ⟨hcalls', -, hanswers'⟩ := hlist [.cycle, .cycle]
  have hpc : (second.machine.cycle second.random).machine.pc = 0x204 :=
    (hanswers .ret hagain rfl).2 0x204 rfl (by rw [← hcalls, hsecond.live]; rfl)
  have hend : after.machine.pc = 0x204 := UInt16.toNat_inj.mp hafter.pc
  have hfails : (after.machine.cycle after.random).result = .error (.stackUnderflow 0x204) := by
    refine (hanswers' .ret hlast rfl).1.trans ?_
    rw [← hcalls', hafter.live, hend]
    rfl
  rw [hrandom] at hpc
  rw [hrandom'] at hfails
  exact ⟨hreach, hstale, rfl, hsame, halike n hsame _, hsecond.live, hpc, hafter.live, hfails⟩

end Console

end ChipEight
