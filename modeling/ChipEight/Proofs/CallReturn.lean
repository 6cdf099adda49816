import ChipEight.Proofs.Standing

/-!
# Calls and returns

A cycle leaves the call stack alone, puts one address on top of it or takes one away
(`cycle_stack`). So the addresses below a depth that a run never leaves stay where they are
(`run_prefix_live`), and the return that goes below it finds the address that the call put
there.
-/
namespace ChipEight

namespace CallStack

variable {stack after : CallStack}

theorem Bounded.length_live (h : stack.Bounded) : stack.live.length = stack.depth := by
  have hle := h.depth_le
  rw [live, List.length_take, Vector.length_toList]
  omega

theorem push?_of_room (addr : UInt16) (h : stack.depth < 16) :
    ∃ after, stack.push? addr = some after := by
  rw [push?, dif_pos h]
  exact ⟨_, rfl⟩

/-- An address that lies on top is the one that is taken away. -/
theorem Bounded.pop?_of_live (h : stack.Bounded) {below : List UInt16} {addr : UInt16}
    (hlive : stack.live = below ++ [addr]) :
    ∃ after, stack.pop? = some (addr, after) ∧ after.live = below := by
  have hle := h.depth_le
  have hlength := h.length_live
  rw [hlive, List.length_append, List.length_singleton] at hlength
  obtain ⟨top, after, hpop⟩ : ∃ top after, stack.pop? = some (top, after) := by
    have hlt : below.length < 16 := by omega
    rw [pop?, ← hlength]
    exact ⟨stack.cells[below.length], ⟨below.length, stack.cells⟩, by simp [hlt]⟩
  have hsplit := (live_pop hpop).symm.trans hlive
  obtain ⟨hbelow, htop⟩ := List.append_inj' hsplit rfl
  obtain rfl := List.singleton_inj.mp htop
  exact ⟨after, hpop, hbelow⟩

/-- An address in use is what its cell holds. -/
theorem cell_of_live {k : Nat} (hk : k < 16) {addr : UInt16} (h : stack.live[k]? = some addr) :
    stack.cells[k] = addr := by
  rw [live, List.getElem?_take] at h
  split at h
  · simpa [hk] using h
  · cases h

/-- Where as many addresses are in use and they are the same, so are their cells. -/
theorem cells_eq_of_live (h : after.live = stack.live) {k : Fin 16} (hk : k.val < stack.depth) :
    after.cells[k] = stack.cells[k] := by
  have hcell : stack.live[k.val]? = some stack.cells[k] := by
    rw [live, List.getElem?_take, if_pos hk]
    simp
  exact cell_of_live k.isLt (h ▸ hcell)

/-- What one cycle can make of a call stack. -/
inductive Moves (before : CallStack) : CallStack → Prop where
  | stays : Moves before before
  | pushes {after : CallStack} {addr : UInt16} (h : before.push? addr = some after) :
      Moves before after
  | pops {after : CallStack} {addr : UInt16} (h : before.pop? = some (addr, after)) :
      Moves before after

/-- Addresses at the bottom stay there as long as the stack is at least as deep as they are
many. -/
theorem Moves.prefix_live (h : stack.Moves after) (hbounded : after.Bounded)
    {below : List UInt16} (hbelow : below <+: stack.live) (hdepth : below.length ≤ after.depth) :
    below <+: after.live := by
  cases h with
  | stays => exact hbelow
  | pushes hpush =>
    rw [live_push hpush]
    exact hbelow.trans (List.prefix_append _ _)
  | pops hpop =>
    rw [live_pop hpop] at hbelow
    rw [← hbounded.length_live] at hdepth
    exact List.prefix_of_prefix_length_le hbelow (List.prefix_append _ _) hdepth

end CallStack

namespace Machine

variable {m : Machine}

theorem stackAfter_moves (m : Machine) (ins : Instruction) :
    m.stack.Moves (m.stackAfter ins) := by
  have hpushed : m.stack.Moves ((m.stack.push? m.pc).getD m.stack) := by
    cases hpush : m.stack.push? m.pc with
    | none => exact .stays
    | some stack => exact .pushes hpush
  unfold stackAfter
  split
  · cases hpop : m.stack.pop? with
    | none => exact .stays
    | some popped => exact .pops hpop
  · exact hpushed
  · exact hpushed
  · exact .stays

theorem cycle_stack (m : Machine) (random : RandomWords) :
    m.stack.Moves (m.cycle random).machine.stack := by
  apply cycle_keeps (P := fun after => m.stack.Moves after.stack) random .stays
  · intro x key _ _
    exact .stays
  · intro ins _
    exact m.advance.stackAfter_moves ins
  · intro after hafter
    rw [countCycle_stack]
    exact hafter

/-- A call puts the address behind it on top. -/
theorem live_after_call {target : UInt16}
    (hins : m.Executes (.call target) ∨ m.Executes (.callIndexed target)) (h : m.WellFormed)
    (hroom : m.stack.depth < 16) (random : RandomWords) :
    (m.cycle random).machine.stack.live = m.stack.live ++ [m.pc + 2] := by
  obtain ⟨stack, hpush⟩ := CallStack.push?_of_room (m.pc + 2) hroom
  have hfull : ¬ m.stack.depth = 16 := Nat.ne_of_lt hroom
  have hstack : (m.cycle random).machine.stack = (m.stack.push? (m.pc + 2)).getD m.stack := by
    rcases hins with hins | hins <;>
    · rw [hins.cycle_of_no_fault h random (if_neg hfull) (fun x => nofun)]
      exact countCycle_stack _
  rw [hstack, hpush]
  exact CallStack.live_push hpush

/-- A return goes to the address on top and takes it away. -/
theorem Executes.cycle_of_ret (hins : m.Executes .ret) (h : m.WellFormed) {below : List UInt16}
    {addr : UInt16} (hlive : m.stack.live = below ++ [addr]) (random : RandomWords) :
    (m.cycle random).result = .ok .executed ∧ (m.cycle random).machine.pc = addr ∧
      (m.cycle random).machine.stack.live = below := by
  obtain ⟨after, hpop, hbelow⟩ := h.stack.pop?_of_live hlive
  have hdepth : ¬ m.stack.depth = 0 := by
    rw [← h.stack.length_live, hlive]
    simp
  rw [hins.cycle_of_no_fault h random (if_neg hdepth) (fun x => nofun)]
  refine ⟨rfl, ?_, ?_⟩
  · rw [countCycle_pc]
    change ((m.stack.pop?).map Prod.fst).getD (m.pc + 2) = addr
    rw [hpop]
    rfl
  · rw [countCycle_stack]
    change (((m.stack.pop?).map Prod.snd).getD m.stack).live = below
    rw [hpop]
    exact hbelow

/-- The machine stands in a program, inside of calls that return to these addresses, the latest
last. -/
structure StandsIn (m : Machine) (program : Array UInt8) (k : Nat) (calls : List UInt16) : Prop
    extends m.Stands program k where
  live : m.stack.live = calls

variable {program : Array UInt8} {k next : Nat} {calls : List UInt16} {addr : UInt16}

theorem standsIn_loaded (settings : Settings) (hsize : program.size ≤ Memory.programRoom) :
    (loaded settings program).StandsIn program 0 [] :=
  ⟨stands_loaded settings hsize, rfl⟩

theorem StandsIn.press (h : m.StandsIn program k calls) (key : UInt8) :
    (m.press key).StandsIn program k calls :=
  ⟨h.toStands.press key, h.live⟩

theorem StandsIn.depth_eq (h : m.StandsIn program k calls) : m.stack.depth = calls.length := by
  rw [← h.wellFormed.stack.length_live, h.live]

/-- A call goes to its target and is to return behind itself. -/
theorem StandsIn.call (h : m.StandsIn program k calls) {target : UInt16}
    (hins : m.Executes (.call target)) (hroom : calls.length < 16)
    (htarget : target.toNat = 0x200 + next) (haddr : addr.toNat = 0x200 + (k + 2))
    (random : RandomWords) : (m.cycle random).machine.StandsIn program next (calls ++ [addr]) := by
  have hdepth : m.stack.depth < 16 := h.depth_eq ▸ hroom
  have hfault : m.faultOf m.pc (.call target) = none := if_neg (Nat.ne_of_lt hdepth)
  have hcompletes := hins.completes h.wellFormed random hfault fun _ => nofun
  have hpc : (m.cycle random).machine.pc = target := by
    obtain ⟨stack, hpush⟩ := CallStack.push?_of_room (m.pc + 2) hdepth
    have hpushed : (m.advance.stack.push? m.advance.pc).isSome = true :=
      Option.isSome_of_eq_some hpush
    exact hcompletes.pc.trans (if_pos hpushed)
  have hback : m.pc + 2 = addr := by
    rw [← UInt16.toNat_inj, toNat_pc_add_two (Nat.le_trans hins.pc_le (by decide)), h.pc, haddr,
      Nat.add_assoc]
  refine ⟨h.moves hcompletes rfl (by rw [hpc, htarget]), ?_⟩
  rw [live_after_call (Or.inl hins) h.wellFormed hdepth, h.live, hback]

/-- A return goes to the last address. -/
theorem StandsIn.ret (h : m.StandsIn program k calls) (hins : m.Executes .ret)
    {below : List UInt16} (hcalls : calls = below ++ [addr]) (haddr : addr.toNat = 0x200 + next)
    (random : RandomWords) : (m.cycle random).machine.StandsIn program next below := by
  subst hcalls
  have hdepth : ¬ m.stack.depth = 0 := by
    rw [h.depth_eq]
    simp
  have hcompletes := hins.completes h.wellFormed random (if_neg hdepth) fun _ => nofun
  obtain ⟨-, hpc, hlive⟩ := hins.cycle_of_ret h.wellFormed h.live random
  exact ⟨h.moves hcompletes rfl (by rw [hpc, haddr]), hlive⟩

end Machine

namespace Console

/-- Nothing but a load sets the call stack anew. -/
theorem perform_stack (c : Console) {operation : Operation}
    (hload : ∀ program, operation ≠ .load program) :
    c.machine.stack.Moves (c.perform operation).console.machine.stack := by
  cases operation with
  | load program => exact absurd rfl (hload program)
  | cycle => exact c.machine.cycle_stack c.random
  | press key | release key | elapse ticks => exact .stays

/-- A run that loads nothing and in which the call stack never has `depth` addresses or
fewer. -/
structure StaysAbove (c : Console) (depth : Nat) (operations : List Operation) : Prop where
  loads_nothing : ∀ program, .load program ∉ operations
  above : ∀ passed, passed <+: operations → depth < (c.run passed).machine.stack.depth

theorem StaysAbove.tail {c : Console} {depth : Nat} {operation : Operation}
    {rest : List Operation} (h : c.StaysAbove depth (operation :: rest)) :
    (c.perform operation).console.StaysAbove depth rest where
  loads_nothing := by
    intro program hmem
    exact h.loads_nothing program (List.mem_cons_of_mem operation hmem)
  above := by
    intro passed hpassed
    exact h.above (operation :: passed) ((List.prefix_cons_inj operation).mpr hpassed)

theorem staysAbove_nil {c : Console} {depth : Nat} (h : depth < c.machine.stack.depth) :
    c.StaysAbove depth [] where
  loads_nothing := by simp
  above := by
    intro passed hpassed
    rw [List.prefix_nil.mp hpassed]
    exact h

theorem staysAbove_cons {c : Console} {depth : Nat} {operation : Operation}
    {rest : List Operation} (h : depth < c.machine.stack.depth)
    (hload : ∀ program, operation ≠ .load program)
    (hrest : (c.perform operation).console.StaysAbove depth rest) :
    c.StaysAbove depth (operation :: rest) where
  loads_nothing := by
    intro program hmem
    rcases List.mem_cons.mp hmem with hfirst | hlater
    · exact hload program hfirst.symm
    · exact hrest.loads_nothing program hlater
  above := by
    intro passed hpassed
    rcases List.prefix_cons_iff.mp hpassed with rfl | ⟨later, rfl, hlater⟩
    · exact h
    · exact hrest.above later hlater

theorem StaysAbove.start {c : Console} {depth : Nat} {operations : List Operation}
    (h : c.StaysAbove depth operations) : depth < c.machine.stack.depth :=
  h.above [] List.nil_prefix

/-- The lowest addresses are out of reach of a run that never comes down to them. -/
theorem run_prefix_live {c : Console} (hc : c.machine.WellFormed) {below : List UInt16}
    (hbelow : below <+: c.machine.stack.live) {depth : Nat} (hdepth : below.length ≤ depth + 1)
    {operations : List Operation} (h : c.StaysAbove depth operations) :
    below <+: (c.run operations).machine.stack.live := by
  induction operations generalizing c with
  | nil => exact hbelow
  | cons operation rest ih =>
    have hload : ∀ program, operation ≠ .load program := by
      rintro program rfl
      exact h.loads_nothing program List.mem_cons_self
    have hafter := perform_wellFormed c operation hc
    have hdeep : below.length ≤ (c.perform operation).console.machine.stack.depth :=
      Nat.le_trans hdepth h.tail.start
    exact ih hafter ((c.perform_stack hload).prefix_live hafter.stack hbelow hdeep) h.tail

/-- A run that comes back to the depth at which it began has the same addresses in use. -/
theorem StaysAbove.live_eq {c : Console} {depth : Nat} {operations : List Operation}
    (h : c.StaysAbove depth operations) (hc : c.machine.WellFormed)
    (hfirst : c.machine.stack.depth = depth + 1)
    (hlast : (c.run operations).machine.stack.depth = depth + 1) :
    (c.run operations).machine.stack.live = c.machine.stack.live := by
  have hlength := hc.stack.length_live
  have hbelow : c.machine.stack.live <+: (c.run operations).machine.stack.live :=
    run_prefix_live hc (List.prefix_refl _) (by omega) h
  refine (hbelow.eq_of_length ?_).symm
  rw [hlength, (run_wellFormed hc operations).stack.length_live, hfirst, hlast]

/-- Whatever runs inside of a call, as long as the call stack stays above the depth that the
caller had: the return that ends the call goes behind the calling instruction, and the
caller's depth and addresses are as they were. -/
theorem return_ends_call {caller inner : Console} (h : caller.machine.Reachable)
    {target : UInt16}
    (hcall : caller.machine.Executes (.call target) ∨
      caller.machine.Executes (.callIndexed target))
    (hroom : caller.machine.stack.depth < 16) {operations : List Operation}
    (hinside : (caller.perform .cycle).console.StaysAbove caller.machine.stack.depth operations)
    (hinner : caller.run (.cycle :: operations) = inner)
    (hret : inner.machine.Executes .ret)
    (hdepth : inner.machine.stack.depth = caller.machine.stack.depth + 1) :
    let returned := inner.machine.cycle inner.random
    returned.result = .ok .executed ∧
      returned.machine.pc.toNat = caller.machine.pc.toNat + 2 ∧
      returned.machine.stack.depth = caller.machine.stack.depth ∧
      ∀ k : Fin 16, k.val < caller.machine.stack.depth →
        returned.machine.stack.cells[k] = caller.machine.stack.cells[k] := by
  intro returned
  subst hinner
  have hcaller := h.wellFormed
  have hcalled := perform_wellFormed caller .cycle hcaller
  have hlive : (caller.perform .cycle).console.machine.stack.live = _ :=
    Machine.live_after_call hcall hcaller hroom caller.random
  have hfirst : (caller.perform .cycle).console.machine.stack.depth =
      caller.machine.stack.depth + 1 := by
    rw [← hcalled.stack.length_live, hlive, List.length_append, hcaller.stack.length_live]
    rfl
  have hinner := run_wellFormed hcalled operations
  have htop := (hinside.live_eq hcalled hfirst hdepth).trans hlive
  have hreturned : returned.machine.WellFormed := hinner.cycle _
  obtain ⟨hresult, hpc, hrest⟩ := hret.cycle_of_ret hinner htop _
  change returned.machine.pc = _ at hpc
  change returned.machine.stack.live = _ at hrest
  have hpcle : caller.machine.pc.toNat ≤ 0x1000 := by
    rcases hcall with hins | hins <;> exact Nat.le_trans hins.pc_le (by decide)
  refine ⟨hresult, ?_, ?_, ?_⟩
  · rw [hpc, Machine.toNat_pc_add_two hpcle]
  · rw [← hreturned.stack.length_live, hrest, hcaller.stack.length_live]
  · intro k hk
    exact CallStack.cells_eq_of_live hrest hk

/-- A call to `0x204`, there one to `0x208`, there one to `0x20C`, where a return stands, as it
does behind the third call. -/
def nestedCalls : Array UInt8 :=
  #[0x22, 0x04, 0, 0, 0x22, 0x08, 0, 0, 0x22, 0x0C, 0x00, 0xEE, 0x00, 0xEE]

/-- The second call of three, with the third and a key event inside of it. -/
theorem second_call_returns :
    let caller := (fresh .standard fun _ => 0).run [.load nestedCalls, .cycle]
    let inner := caller.run [.cycle, .cycle, .press 5, .cycle]
    caller.machine.Reachable ∧ caller.machine.Executes (.call 0x208) ∧
      (caller.perform .cycle).console.StaysAbove 1 [.cycle, .press 5, .cycle] ∧
      inner.machine.Executes .ret ∧
      (inner.machine.cycle inner.random).result = .ok .executed ∧
      (inner.machine.cycle inner.random).machine.pc.toNat = 0x206 ∧
      (inner.machine.cycle inner.random).machine.stack.depth = 1 ∧
      (inner.machine.cycle inner.random).machine.stack.cells[0] = 0x202 := by
  obtain ⟨loaded, hrun, hreached, -, hloaded, -⟩ :=
    exists_loaded .standard (fun _ => 0) (show nestedCalls.size ≤ _ by decide)
  have hstart : loaded.machine.StandsIn nestedCalls 0 [] :=
    hloaded ▸ Machine.standsIn_loaded .standard (by decide)
  have h200 : loaded.machine.Executes (.call 0x204) := hstart.executes (by decide) (by decide)
  rw [hrun]
  intro caller inner
  let second := (caller.perform .cycle).console
  let third := (second.perform .cycle).console
  have hfirst : caller.machine.StandsIn nestedCalls 4 [0x202] :=
    hstart.call h200 (by decide) rfl rfl loaded.random
  have h204 : caller.machine.Executes (.call 0x208) := hfirst.executes (by decide) (by decide)
  have hsecond : second.machine.StandsIn nestedCalls 8 [0x202, 0x206] :=
    hfirst.call h204 (by decide) rfl rfl caller.random
  have h208 : second.machine.Executes (.call 0x20C) := hsecond.executes (by decide) (by decide)
  have hthird : third.machine.StandsIn nestedCalls 12 [0x202, 0x206, 0x20A] :=
    hsecond.call h208 (by decide) rfl rfl second.random
  have h20C : (third.machine.press 5).Executes .ret :=
    (hthird.press 5).executes (by decide) (by decide)
  have hinner : inner.machine.StandsIn nestedCalls 10 [0x202, 0x206] :=
    (hthird.press 5).ret h20C rfl rfl third.random
  have h20A : inner.machine.Executes .ret := hinner.executes (by decide) (by decide)
  have hinside : second.StaysAbove 1 [.cycle, .press 5, .cycle] := by
    refine staysAbove_cons (by rw [hsecond.depth_eq]; decide) (fun _ => nofun) ?_
    refine staysAbove_cons (by rw [hthird.depth_eq]; decide) (fun _ => nofun) ?_
    refine staysAbove_cons ?_ (fun _ => nofun) (staysAbove_nil ?_)
    · exact Nat.lt_of_lt_of_eq (by decide) (hthird.press 5).depth_eq.symm
    · exact Nat.lt_of_lt_of_eq (by decide) hinner.depth_eq.symm
  have hdepth : caller.machine.stack.depth = 1 := hfirst.depth_eq
  have hreach : caller.machine.Reachable := hreached _
  obtain ⟨hresult, hpc, hback, hcells⟩ := return_ends_call hreach (Or.inl h204)
    (by rw [hdepth]; decide) (by rwa [hdepth]) rfl h20A (by rw [hinner.depth_eq, hdepth]; rfl)
  refine ⟨hreach, h204, hinside, h20A, hresult, ?_, hback.trans hdepth, ?_⟩
  · rw [hpc, hfirst.pc]
  · have hlive : caller.machine.stack.live[0]? = some 0x202 := by rw [hfirst.live]; rfl
    exact (hcells 0 (hdepth ▸ Nat.zero_lt_one)).trans
      (CallStack.cell_of_live (by decide) hlive)

end Console

end ChipEight
