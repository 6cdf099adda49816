import ChipEight.Proofs.Coupling
import ChipEight.Proofs.Standing

/-!
# Where the timers lead

Of the timers and the way they count nothing gets into the rest of the machine but what the
instruction does that reads the delay timer. A run without it goes on in the same way if the
timers start from other values, and if time passes at other moments; and the sound timer, which
no instruction reads, can be anything in every run.
-/
namespace ChipEight

/-- Time passes. -/
def Operation.isElapse : Operation → Bool
  | .elapse _ => true
  | _ => false

/-- The answer is that of a load or of a cycle. -/
def Answer.isResult : Answer → Bool
  | .done => false
  | _ => true

namespace Machine

/-- Everything but the timers and the way they count is the same. -/
structure SameButTimers (m n : Machine) : Prop extends SameButDevices m n where
  keypad : n.keypad = m.keypad

/-- Everything but the sound timer is the same. -/
structure SameButSound (m n : Machine) : Prop extends SameButTimers m n where
  delay : n.delay = m.delay
  timers : n.timers = m.timers

variable {m n : Machine}

/-! ## Steps of both machines -/

namespace SameButTimers

theorem countCycle (h : m.SameButTimers n) : m.countCycle.SameButTimers n.countCycle := by
  rw [m.countCycle_eq, n.countCycle_eq]
  exact { h with }

theorem endWait (h : m.SameButTimers n) : m.endWait.SameButTimers n.endWait :=
  { h with
    awaiting := rfl
    keypad := congrArg ({ · with waiting := false, pressed := none }) h.keypad }

theorem setRegister (h : m.SameButTimers n) (x : Register) (value : UInt8) :
    (m.setRegister x value).SameButTimers (n.setRegister x value) :=
  { h with registers := congrArg (·.set x value) h.registers }

theorem advance (h : m.SameButTimers n) : m.advance.SameButTimers n.advance :=
  { h with pc := congrArg (· + 2) h.pc }

theorem after (h : m.SameButTimers n) (random : RandomWords) {ins : Instruction}
    (hdelay : ∀ x, ins = .getDelay x → n.delay = m.delay) :
    (m.after random ins).SameButTimers (n.after random ins) := by
  have hskips : n.skips ins = m.skips ins := by
    cases ins <;> simp only [skips, h.keypad, h.registers]
  refine ⟨h.toSameButDevices.after random hskips hdelay, ?_⟩
  change n.keypadAfter ins = m.keypadAfter ins
  cases ins <;> simp only [keypadAfter, h.keypad]

theorem load (h : m.SameButTimers n) {a b : Machine} {program : Array UInt8}
    (ha : m.load program = .ok a) (hb : n.load program = .ok b) : a.SameButTimers b := by
  obtain ⟨memory, hmemory, rfl⟩ := load_ok ha
  obtain ⟨memory', hmemory', rfl⟩ := load_ok hb
  rw [h.memory, hmemory] at hmemory'
  cases hmemory'
  exact ⟨⟨rfl, rfl, rfl, rfl, rfl, rfl, rfl, h.shift⟩, rfl⟩

/-- A cycle that does not read the delay timer comes to the same. -/
theorem cycle (h : m.SameButTimers n) (hm : m.WellFormed) (random : RandomWords)
    (hunread : ∀ x, ¬ m.Executes (.getDelay x)) :
    (m.cycle random).Agrees SameButTimers (n.cycle random) := by
  apply cycle_coupled random hm h
  · intro a b hab
    exact hab.toSameButDevices
  · intro x _
    rw [h.keypad]
  · intro x key _ _
    exact h.endWait.setRegister x key
  · intro ins hins
    refine h.advance.after random ?_
    rintro x rfl
    exact absurd hins (hunread x)
  · intro a b hab
    exact hab.countCycle

end SameButTimers

namespace SameButSound

theorem elapse (h : m.SameButSound n) (ticks : UInt8) :
    (m.elapse ticks).SameButSound (n.elapse ticks) :=
  { h with delay := congrArg (·.elapse ticks) h.delay }

theorem countCycle (h : m.SameButSound n) : m.countCycle.SameButSound n.countCycle := by
  unfold Machine.countCycle
  rw [h.timers]
  split
  · exact h.elapse 1
  · exact h

theorem after (h : m.SameButSound n) (random : RandomWords) (ins : Instruction) :
    (m.after random ins).SameButSound (n.after random ins) := by
  refine ⟨h.toSameButTimers.after random fun _ _ => h.delay, ?_, h.timers⟩
  change n.delayAfter ins = m.delayAfter ins
  cases ins <;> simp only [delayAfter, h.delay, h.registers]

theorem load (h : m.SameButSound n) {a b : Machine} {program : Array UInt8}
    (ha : m.load program = .ok a) (hb : n.load program = .ok b) : a.SameButSound b := by
  have hload := h.toSameButTimers.load ha hb
  obtain ⟨memory, -, rfl⟩ := load_ok ha
  obtain ⟨memory', -, rfl⟩ := load_ok hb
  exact ⟨hload, rfl, h.timers⟩

/-- No cycle depends on the sound timer. -/
theorem cycle (h : m.SameButSound n) (hm : m.WellFormed) (random : RandomWords) :
    (m.cycle random).Agrees SameButSound (n.cycle random) := by
  apply cycle_coupled random hm h
  · intro a b hab
    exact hab.toSameButDevices
  · intro x _
    rw [h.keypad]
  · intro x key _ _
    exact ⟨h.endWait.setRegister x key, h.delay, h.timers⟩
  · intro ins hins
    exact after ⟨h.advance, h.delay, h.timers⟩ random ins
  · intro a b hab
    exact hab.countCycle

end SameButSound

end Machine

namespace Console

open Machine

/-- The answers of the loads and cycles of a run. -/
def results (c : Console) (operations : List Operation) : List Answer :=
  ((c.reports operations).map OperationReport.answer).filter Answer.isResult

/-- Some cycle of the run executes the instruction that reads the delay timer. -/
def ReadsDelay (c : Console) : List Operation → Prop
  | [] => False
  | operation :: rest =>
      (operation = .cycle ∧ ∃ x, c.machine.Executes (.getDelay x)) ∨
        (c.perform operation).console.ReadsDelay rest

variable {c d : Console}

theorem results_elapse {operation : Operation} (h : operation.isElapse = true)
    (rest : List Operation) :
    c.results (operation :: rest) = (c.perform operation).console.results rest := by
  cases operation with
  | elapse ticks => rfl
  | _ => cases h

theorem results_cons_eq {operation : Operation} {rest others : List Operation}
    (hanswer : (d.perform operation).answer = (c.perform operation).answer)
    (hrest : (d.perform operation).console.results others =
      (c.perform operation).console.results rest) :
    d.results (operation :: others) = c.results (operation :: rest) := by
  unfold results at hrest ⊢
  simp only [reports_cons, List.map_cons, List.filter_cons, hanswer, hrest]

theorem perform_sameButTimers (hc : c.machine.WellFormed) (h : c.machine.SameButTimers d.machine)
    (hrandom : d.random = c.random) {operation : Operation}
    (hunread : operation = .cycle → ∀ x, ¬ c.machine.Executes (.getDelay x)) :
    (c.perform operation).Matches SameButTimers (d.perform operation) := by
  apply perform_coupled operation h hrandom
  · intro program a b
    exact h.load
  · intro hcycle
    exact h.cycle hc c.random (hunread hcycle)
  · intro key
    exact { h with keypad := congrArg (·.press key) h.keypad }
  · intro key
    exact { h with keypad := congrArg (·.release key) h.keypad }
  · intro ticks
    exact { h with }

theorem perform_sameButSound (hc : c.machine.WellFormed) (h : c.machine.SameButSound d.machine)
    (hrandom : d.random = c.random) (operation : Operation) :
    (c.perform operation).Matches SameButSound (d.perform operation) := by
  apply perform_coupled operation h hrandom
  · intro program a b
    exact h.load
  · intro _
    exact h.cycle hc c.random
  · intro key
    exact { h with keypad := congrArg (·.press key) h.keypad }
  · intro key
    exact { h with keypad := congrArg (·.release key) h.keypad }
  · exact h.elapse

/-! ## Runs of both machines -/

/-- Time alone gives no result and leaves everything but the timers. -/
theorem run_elapses {m : Machine} (h : m.SameButTimers d.machine) {operations : List Operation}
    (helapses : ∀ operation ∈ operations, operation.isElapse = true) :
    m.SameButTimers (d.run operations).machine ∧ (d.run operations).random = d.random ∧
      ∀ later, d.results (operations ++ later) = (d.run operations).results later := by
  induction operations generalizing d with
  | nil => exact ⟨h, rfl, fun _ => rfl⟩
  | cons operation rest ih =>
    obtain ⟨hfirst, hrest⟩ := List.forall_mem_cons.mp helapses
    have hstep : m.SameButTimers (d.perform operation).console.machine ∧
        (d.perform operation).console.random = d.random := by
      cases operation with
      | elapse ticks => exact ⟨{ h with }, rfl⟩
      | _ => cases hfirst
    obtain ⟨hmachine, hrandom, hlater⟩ := ih hstep.1 hrest
    refine ⟨hmachine, hrandom.trans hstep.2, ?_⟩
    intro later
    rw [List.cons_append, results_elapse hfirst]
    exact hlater later

/-- Two runs with the same operations in between come to the same but for the timers, whenever
time passes in either, if the first does not read the delay timer. -/
theorem run_sameButTimers (hc : c.machine.WellFormed) (h : c.machine.SameButTimers d.machine)
    (hrandom : d.random = c.random) {operations others : List Operation}
    (hsame : operations.filter (!·.isElapse) = others.filter (!·.isElapse))
    (hunread : ¬ c.ReadsDelay operations) :
    d.results others = c.results operations ∧
      (d.run others).random = (c.run operations).random ∧
      (c.run operations).machine.SameButTimers (d.run others).machine := by
  -- The first run goes on by one operation at a time, the other by all it needs to catch up.
  induction operations generalizing c d others with
  | nil =>
    have helapses : ∀ operation ∈ others, operation.isElapse = true := by
      simpa using hsame.symm
    obtain ⟨hmachine, hdrawn, hlater⟩ := run_elapses h helapses
    have hnone := hlater []
    rw [List.append_nil] at hnone
    exact ⟨hnone, hdrawn.trans hrandom, hmachine⟩
  | cons operation rest ih =>
    obtain ⟨hfirst, hrest⟩ := not_or.mp hunread
    have hwell := perform_wellFormed c operation hc
    cases hkind : operation.isElapse with
    | true =>
      rw [List.filter_cons_of_neg (by simp [hkind])] at hsame
      have hstep : (c.perform operation).console.machine.SameButTimers d.machine ∧
          (c.perform operation).console.random = c.random := by
        cases operation with
        | elapse ticks => exact ⟨{ h with }, rfl⟩
        | _ => cases hkind
      rw [results_elapse hkind]
      exact ih hwell hstep.1 (hrandom.trans hstep.2.symm) hsame hrest
    | false =>
      rw [List.filter_cons_of_pos (by simp [hkind])] at hsame
      obtain ⟨idle, later, rfl, hidle, -, hlater⟩ := List.filter_eq_cons_iff.mp hsame.symm
      have helapses : ∀ operation ∈ idle, operation.isElapse = true := by simpa using hidle
      obtain ⟨hmachine, hdrawn, hresults⟩ := run_elapses h helapses
      have hagrees := perform_sameButTimers hc hmachine (hdrawn.trans hrandom)
        fun hcycle x hins => hfirst ⟨hcycle, x, hins⟩
      obtain ⟨hsteps, hsame⟩ := ih hwell hagrees.machine hagrees.random hlater.symm hrest
      rw [hresults, run_append]
      exact ⟨results_cons_eq hagrees.answer hsteps, hsame⟩

/-- Two runs with the same operations come to the same but for the sound timer. -/
theorem run_sameButSound (hc : c.machine.WellFormed) (h : c.machine.SameButSound d.machine)
    (hrandom : d.random = c.random) (operations : List Operation) :
    d.results operations = c.results operations ∧
      (d.run operations).random = (c.run operations).random ∧
      (c.run operations).machine.SameButSound (d.run operations).machine := by
  have halike : RunsAlike SameButSound c d operations :=
    run_always_coupled
      (fun _ _ operation hm hsame hr => perform_sameButSound hm hsame hr operation) hc h hrandom
      operations
  refine ⟨?_, halike.random, halike.machine⟩
  rw [results, halike.answers_eq, results]

/-- Two machines that agree but for the timers, driven by the same loads, cycles and key events and
by the same random words, give the same results and go on agreeing but for the timers, however
time passes in each, up to the first cycle that reads the delay timer. If they differ in the
sound timer alone and time passes in the same way, no cycle ends that. -/
theorem timers_flow {m n : Machine} (h : m.Reachable) (random : RandomWords) :
    (m.SameButTimers n → ∀ operations others,
        operations.filter (!·.isElapse) = others.filter (!·.isElapse) →
        ¬ ReadsDelay ⟨m, random⟩ operations →
        results ⟨n, random⟩ others = results ⟨m, random⟩ operations ∧
          (run ⟨n, random⟩ others).random = (run ⟨m, random⟩ operations).random ∧
          (run ⟨m, random⟩ operations).machine.SameButTimers
            (run ⟨n, random⟩ others).machine) ∧
      (m.SameButSound n → ∀ operations,
        results ⟨n, random⟩ operations = results ⟨m, random⟩ operations ∧
          (run ⟨n, random⟩ operations).random = (run ⟨m, random⟩ operations).random ∧
          (run ⟨m, random⟩ operations).machine.SameButSound
            (run ⟨n, random⟩ operations).machine) := by
  constructor
  · intro hsame operations others hothers hunread
    exact run_sameButTimers (c := ⟨m, random⟩) (d := ⟨n, random⟩) h.wellFormed hsame rfl hothers
      hunread
  · intro hsame operations
    exact run_sameButSound (c := ⟨m, random⟩) (d := ⟨n, random⟩) h.wellFormed hsame rfl operations

/-- A program that draws a random byte and then reads the delay timer: the first is the same with
other timers, the second still is with another sound timer. -/
theorem timers_flow_random :
    let m := ((fresh .standard fun _ => 0).run [.load #[0xC3, 0xFF, 0xF4, 0x07]]).machine
    let random := RandomWords.ofSequence fun _ => 0
    let other : Machine := { m with delay := 7, sound := 9, timers := .realtime }
    let beeping : Machine := { m with sound := 9 }
    m.Reachable ∧
      results ⟨other, random⟩ [.cycle, .elapse 5] = results ⟨m, random⟩ [.elapse 2, .cycle] ∧
      (run ⟨m, random⟩ [.elapse 2, .cycle]).machine.SameButTimers
        (run ⟨other, random⟩ [.cycle, .elapse 5]).machine ∧
      (run ⟨m, random⟩ [.cycle, .elapse 1]).machine.Executes (.getDelay 4) ∧
      (run ⟨m, random⟩ [.cycle, .elapse 1, .cycle]).machine.SameButSound
        (run ⟨beeping, random⟩ [.cycle, .elapse 1, .cycle]).machine := by
  obtain ⟨loaded, hrun, hreached, hstands, -⟩ :=
    exists_loaded .standard (fun _ => 0)
      (show (#[0xC3, 0xFF, 0xF4, 0x07] : Array UInt8).size ≤ _ by decide)
  rw [hrun]
  intro m random other beeping
  have hreach : m.Reachable := hreached []
  have hstart : m.Stands #[0xC3, 0xFF, 0xF4, 0x07] 0 := hstands
  have hins : m.Executes (.random 3 0xFF) := hstart.executes (by decide) (by decide)
  obtain ⟨-, hnext⟩ := hstart.next hins rfl rfl rfl random
  have hreads : (run ⟨m, random⟩ [.cycle, .elapse 1]).machine.Executes (.getDelay 4) :=
    (hnext.elapse 1).executes (by decide) (by decide)
  have hsame : m.SameButTimers other := ⟨by constructor <;> rfl, rfl⟩
  have hbeeping : m.SameButSound beeping := ⟨⟨by constructor <;> rfl, rfl⟩, rfl, rfl⟩
  have hunread : ¬ ReadsDelay ⟨m, random⟩ [.elapse 2, .cycle] := by
    rintro (⟨hcycle, -⟩ | ⟨-, x, hdelay⟩ | hfalse)
    · cases hcycle
    · have helapsed : (m.elapse 2).Executes (.random 3 0xFF) :=
        (hstart.elapse 2).executes (by decide) (by decide)
      cases helapsed.unique hdelay
    · exact hfalse
  obtain ⟨hresults, -, hrun⟩ :=
    (timers_flow hreach random).1 hsame [.elapse 2, .cycle] [.cycle, .elapse 5] rfl hunread
  obtain ⟨-, -, hsound⟩ :=
    (timers_flow hreach random).2 hbeeping [.cycle, .elapse 1, .cycle]
  exact ⟨hreach, hresults, hrun, hreads, hsound⟩

end Console

end ChipEight
