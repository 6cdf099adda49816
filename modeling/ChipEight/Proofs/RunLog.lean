import ChipEight.Proofs.Aftermath
import ChipEight.Proofs.TimerAccount
import Mathlib.Data.List.Chain

/-!
# What the log tells about a run

A cycle takes one of six courses, and each has its own log (`Course`). The lines that open a wait
and those that end one follow the wait of the machine (`Leads`), so over a run they take turns and
name the same register. A sum over the courses counts the executed cycles from the lines of the
log.
-/
namespace ChipEight

/-- Whether a line opens a wait or ends one, if it is about waits. -/
def LogEntry.wait? : LogEntry → Option Bool
  | .waitingForKey _ => some true
  | .keyArrived _ _ => some false
  | _ => none

/-- What an operation that is no cycle logs: a warning for a number that is no key. -/
def Operation.warnings : Operation → List LogEntry
  | .press key => if 0xF < key.toNat then [.unknownPress key] else []
  | .release key => if 0xF < key.toNat then [.unknownRelease key] else []
  | _ => []

/-- A warning is none of the lines that tell about cycles. -/
theorem Operation.of_mem_warnings {operation : Operation} {entry : LogEntry}
    (h : entry ∈ operation.warnings) : entry.level = .warn ∧ entry.wait? = none := by
  cases operation with
  | press key | release key =>
    obtain ⟨-, hentry⟩ := List.mem_ite_nil_right.mp h
    obtain rfl := List.mem_singleton.mp hentry
    exact ⟨rfl, rfl⟩
  | _ => cases h

theorem Operation.countP_trace_warnings (operation : Operation) :
    operation.warnings.countP (·.level = .trace) = 0 := by
  refine List.countP_eq_zero.mpr fun entry hentry => ?_
  rw [(of_mem_warnings hentry).1]
  decide

theorem Operation.countP_wait_warnings (operation : Operation) (opens : Bool) :
    operation.warnings.countP (·.wait? = some opens) = 0 := by
  refine List.countP_eq_zero.mpr fun entry hentry => ?_
  rw [(of_mem_warnings hentry).2, decide_eq_true_eq]
  exact (Option.some_ne_none opens).symm

/-! ## Waits in a log -/

/-- A log leads from one open wait, or none, to another. -/
inductive Leads : Option Register → List LogEntry → Option Register → Prop where
  | nil {wait : Option Register} : Leads wait [] wait
  | opens {pc : UInt16} {word : Word} {x : Register} {rest : List LogEntry}
      {wait : Option Register} (h : Leads (some x) rest wait) :
      Leads none (.executing pc word (.waitKey x) :: .waitingForKey pc :: rest) wait
  | ends {key : UInt8} {x : Register} {rest : List LogEntry} {wait : Option Register}
      (hkey : key.toNat < 16) (h : Leads none rest wait) :
      Leads (some x) (.keyArrived key x :: rest) wait
  | other {entry : LogEntry} {rest : List LogEntry} {before wait : Option Register}
      (hentry : entry.wait? = none) (h : Leads before rest wait) :
      Leads before (entry :: rest) wait

/-- The last line about waits opens one, and stands behind the instruction that asks for the key
of the register. -/
def Announced (log : List LogEntry) (x : Register) : Prop :=
  ∃ start pc word between,
    log = start ++ .executing pc word (.waitKey x) :: .waitingForKey pc :: between ∧
      ∀ entry ∈ between, entry.wait? = none

theorem Announced.append_left {log : List LogEntry} {x : Register} (h : Announced log x)
    (first : List LogEntry) : Announced (first ++ log) x := by
  obtain ⟨start, pc, word, between, rfl, hbetween⟩ := h
  exact ⟨first ++ start, pc, word, between, (List.append_assoc _ _ _).symm, hbetween⟩

namespace Leads

variable {before wait after : Option Register} {log later : List LogEntry}

theorem of_no_waits (h : ∀ entry ∈ log, entry.wait? = none) : Leads wait log wait := by
  induction log with
  | nil => exact .nil
  | cons entry rest ih =>
    obtain ⟨hentry, hrest⟩ := List.forall_mem_cons.mp h
    exact .other hentry (ih hrest)

theorem append (h : Leads before log wait) (hlater : Leads wait later after) :
    Leads before (log ++ later) after := by
  induction h with
  | nil => exact hlater
  | opens _ ih => exact .opens (ih hlater)
  | ends hkey _ ih => exact .ends hkey (ih hlater)
  | other hentry _ ih => exact .other hentry (ih hlater)

/-- The lines about waits take turns. The value in front is that of the last line before. -/
theorem isChain (h : Leads before log wait) :
    (before.isSome :: log.filterMap LogEntry.wait?).IsChain (· ≠ ·) := by
  induction h with
  | nil => exact .singleton _
  | opens _ ih => exact .cons_cons Bool.false_ne_true ih
  | ends _ _ ih => exact .cons_cons Bool.false_ne_true.symm ih
  | other hentry _ ih =>
    rw [List.filterMap_cons_none hentry]
    exact ih

/-- A wait that ends was open from the start, or was announced before. -/
theorem announced (h : Leads before log wait) {earlier rest : List LogEntry} {key : UInt8}
    {x : Register} (hlog : log = earlier ++ .keyArrived key x :: rest) :
    key.toNat < 16 ∧
      (before = some x ∧ (∀ entry ∈ earlier, entry.wait? = none) ∨ Announced earlier x) := by
  induction h generalizing earlier with
  | nil => cases earlier <;> cases hlog
  | @opens pc word y _ _ _ ih =>
    -- The key is neither of the two lines that open the wait.
    obtain _ | ⟨first, _ | ⟨second, earlier⟩⟩ := earlier
    · cases hlog
    · cases hlog
    · obtain ⟨rfl, hlines⟩ := List.cons.inj hlog
      obtain ⟨rfl, hrest⟩ := List.cons.inj hlines
      obtain ⟨hkey, ⟨hx, hfree⟩ | hearlier⟩ := ih hrest
      · obtain rfl := Option.some.inj hx
        exact ⟨hkey, Or.inr ⟨[], pc, word, earlier, rfl, hfree⟩⟩
      · exact ⟨hkey, Or.inr (hearlier.append_left [_, _])⟩
  | @ends answer y _ _ hanswer _ ih =>
    cases earlier with
    | nil =>
      cases hlog
      exact ⟨hanswer, Or.inl ⟨rfl, List.forall_mem_nil _⟩⟩
    | cons first earlier =>
      obtain ⟨rfl, hrest⟩ := List.cons.inj hlog
      obtain ⟨hkey, ⟨hx, -⟩ | hearlier⟩ := ih hrest
      · cases hx
      · exact ⟨hkey, Or.inr (hearlier.append_left [_])⟩
  | @other entry _ _ _ hentry _ ih =>
    cases earlier with
    | nil =>
      obtain ⟨rfl, -⟩ := List.cons.inj hlog
      cases hentry
    | cons first earlier =>
      obtain ⟨rfl, hrest⟩ := List.cons.inj hlog
      obtain ⟨hkey, ⟨hx, hfree⟩ | hearlier⟩ := ih hrest
      · exact ⟨hkey, Or.inl ⟨hx, List.forall_mem_cons.mpr ⟨hentry, hfree⟩⟩⟩
      · exact ⟨hkey, Or.inr (hearlier.append_left [_])⟩

end Leads

namespace Machine

variable {m : Machine} {result : Except Fault Progress} {log : List LogEntry}
  {wait : Option Register}

/-- The courses of a cycle: how it ends, what it logs, and the wait that is open afterwards. -/
inductive Course (m : Machine) :
    Except Fault Progress → List LogEntry → Option Register → Prop where
  /-- The wait goes on. -/
  | polls {x : Register} (hx : m.awaiting = some x) (hpressed : m.keypad.pressed = none) :
      m.Course (.ok .suspended) [] (some x)
  /-- A key ends the wait. -/
  | arrives {x : Register} {key : UInt8} (hx : m.awaiting = some x)
      (hpressed : m.keypad.pressed = some key) (hkey : key.toNat < 16) :
      m.Course (.ok .executed) [.keyArrived key x] none
  /-- There is no instruction to execute. -/
  | stops {fault : Fault} (hidle : m.awaiting = none) (hfetch : m.fetch = .error fault) :
      m.Course (.error fault) [] none
  /-- The instruction opens a wait. -/
  | arms {x : Register} (hins : m.Executes (.waitKey x)) :
      m.Course (.ok .suspended) [.executing m.pc m.word (.waitKey x), .waitingForKey m.pc] (some x)
  /-- The instruction fails. -/
  | fails {ins : Instruction} {fault : Fault} (hins : m.Executes ins)
      (hwait : ∀ x, ins ≠ .waitKey x) :
      m.Course (.error fault) [.executing m.pc m.word ins] none
  /-- The instruction is completed. -/
  | completes {ins : Instruction} (hins : m.Executes ins) (hwait : ∀ x, ins ≠ .waitKey x) :
      m.Course (.ok .executed) [.executing m.pc m.word ins] none

theorem cycle_course (h : m.WellFormed) (random : RandomWords) :
    m.Course (m.cycle random).result (m.cycle random).log (m.cycle random).machine.awaiting := by
  rcases m.cycle_cases with ⟨x, hx⟩ | ⟨hidle, hend⟩ | ⟨hidle, hend, hnone⟩ | ⟨ins, hins⟩
  · cases hpressed : m.keypad.pressed with
    | none =>
      rw [cycle_of_unanswered hx hpressed]
      dsimp only
      rw [hx]
      exact .polls hx hpressed
    | some key =>
      rw [cycle_of_answered hx hpressed]
      dsimp only
      rw [countCycle_awaiting]
      exact .arrives hx hpressed (h.keypad key hpressed).2
  · rw [cycle_of_past_end hidle hend]
    dsimp only
    rw [hidle]
    exact .stops hidle (fetch_of_past_end hend)
  · rw [cycle_of_undecoded hidle hend hnone]
    dsimp only
    rw [hidle]
    exact .stops hidle (fetch_of_undecoded hend hnone)
  · by_cases hasks : ∃ x, ins = .waitKey x
    · obtain ⟨x, rfl⟩ := hasks
      rw [hins.cycle_of_waitKey]
      exact .arms hins
    · have hwait : ∀ x, ins ≠ .waitKey x := fun x heq => hasks ⟨x, heq⟩
      have hidle : (m.advance.after random ins).awaiting = none :=
        (m.advance.awaitingAfter_of_ne hwait).trans hins.idle
      cases hfault : m.faultOf m.pc ins with
      | none =>
        rw [hins.cycle_of_no_fault h random hfault hwait]
        dsimp only
        rw [countCycle_awaiting, hidle]
        exact .completes hins hwait
      | some fault =>
        rw [hins.cycle_report h.stack.depth_le (Nat.lt_succ_of_le h.index_le), hfault]
        dsimp only
        rw [hidle]
        exact .fails hins hwait

namespace Course

theorem leads (h : m.Course result log wait) : Leads m.awaiting log wait := by
  cases h with
  | polls hx hpressed =>
    rw [hx]
    exact .nil
  | arrives hx hpressed hkey =>
    rw [hx]
    exact .ends hkey .nil
  | stops hidle hfetch =>
    rw [hidle]
    exact .nil
  | arms hins =>
    rw [hins.idle]
    exact .opens .nil
  | fails hins hwait | completes hins hwait =>
    rw [hins.idle]
    exact .other rfl .nil

/-- A cycle warns of nothing. -/
theorem filter_warn (h : m.Course result log wait) : log.filter (·.level = .warn) = [] := by
  cases h <;> rfl

/-- Of an executed cycle, one that fails at its instruction and the opening of a wait there is one
for each instruction that begins, and one for each wait that ends. -/
theorem count_eq (h : m.Course result log wait) :
    (if (Answer.cycled result).isExecuted then 1 else 0) +
          (if m.upcoming?.isSome && !result.isOk then 1 else 0) +
        log.countP (·.wait? = some true) =
      log.countP (·.level = .trace) + log.countP (·.wait? = some false) := by
  have hupcoming {ins : Instruction} (hins : m.Executes ins) : m.upcoming?.isSome = true := by
    rw [upcoming?_eq_some_iff.mpr hins, Option.isSome_some]
  cases h with
  | polls hx hpressed | arrives hx hpressed hkey =>
    rw [upcoming?, hx]
    rfl
  | stops hidle hfetch =>
    rw [upcoming?, hidle, hfetch]
    rfl
  | arms hins | fails hins hwait | completes hins hwait =>
    rw [hupcoming hins]
    rfl

end Course

end Machine

namespace Console

/-- The log of a run. -/
def log (c : Console) (operations : List Operation) : List LogEntry :=
  (c.reports operations).flatMap OperationReport.log

/-- The operation is a cycle that gets to an instruction and fails there. -/
def failsExecuting (c : Console) : Operation → Bool
  | .cycle => c.machine.upcoming?.isSome && !(c.machine.cycle c.random).result.isOk
  | _ => false

/-- Number of the cycles of a run that get to an instruction and fail there. -/
def failedExecutions (c : Console) : List Operation → Nat
  | [] => 0
  | operation :: rest =>
      (if c.failsExecuting operation then 1 else 0) +
        (c.perform operation).console.failedExecutions rest

variable {c : Console} {operation : Operation} {operations : List Operation}

theorem log_cons (c : Console) (operation : Operation) (rest : List Operation) :
    c.log (operation :: rest) =
      (c.perform operation).log ++ (c.perform operation).console.log rest :=
  rfl

theorem log_append (c : Console) (first later : List Operation) :
    c.log (first ++ later) = c.log first ++ (c.run first).log later := by
  rw [log, reports_append, List.flatMap_append]
  rfl

/-! ## One operation -/

theorem perform_log_of_ne_cycle (c : Console) (hcycle : operation ≠ .cycle) :
    (c.perform operation).log = operation.warnings := by
  cases operation with
  | load program =>
    rw [perform]
    split <;> rfl
  | cycle => exact absurd rfl hcycle
  | press key | release key =>
    have hkey : 0xF < key.toNat ↔ ¬ key.toNat < 16 := Nat.not_lt.symm
    simp only [perform, LogEntry.ofPress, LogEntry.ofRelease, Operation.warnings, hkey, ite_not]
  | elapse ticks => rfl

theorem perform_leads (hc : c.machine.WellFormed) (hload : ∀ program, operation ≠ .load program) :
    Leads c.machine.awaiting (c.perform operation).log
      (c.perform operation).console.machine.awaiting := by
  by_cases hcycle : operation = .cycle
  · subst hcycle
    exact (Machine.cycle_course hc c.random).leads
  · have hawaiting : (c.perform operation).console.machine.awaiting = c.machine.awaiting := by
      cases operation with
      | load program => exact absurd rfl (hload program)
      | cycle => exact absurd rfl hcycle
      | _ => rfl
    rw [perform_log_of_ne_cycle c hcycle, hawaiting]
    exact .of_no_waits fun entry hentry => (Operation.of_mem_warnings hentry).2

theorem perform_filter_warn (hc : c.machine.WellFormed) :
    (c.perform operation).log.filter (·.level = .warn) = operation.warnings := by
  by_cases hcycle : operation = .cycle
  · subst hcycle
    exact (Machine.cycle_course hc c.random).filter_warn
  · rw [perform_log_of_ne_cycle c hcycle, List.filter_eq_self]
    exact fun entry hentry => decide_eq_true (Operation.of_mem_warnings hentry).1

theorem perform_count_eq (hc : c.machine.WellFormed) (operation : Operation) :
    (if (c.perform operation).answer.isExecuted then 1 else 0) +
          (if c.failsExecuting operation then 1 else 0) +
        (c.perform operation).log.countP (·.wait? = some true) =
      (c.perform operation).log.countP (·.level = .trace) +
        (c.perform operation).log.countP (·.wait? = some false) := by
  by_cases hcycle : operation = .cycle
  · subst hcycle
    exact (Machine.cycle_course hc c.random).count_eq
  · have hanswer : (c.perform operation).answer.isExecuted = false := by
      cases operation with
      | load program =>
        rw [perform]
        split <;> rfl
      | cycle => exact absurd rfl hcycle
      | _ => rfl
    have hfails : c.failsExecuting operation = false := by
      cases operation with
      | cycle => exact absurd rfl hcycle
      | _ => rfl
    rw [perform_log_of_ne_cycle c hcycle, hanswer, hfails, operation.countP_trace_warnings,
      operation.countP_wait_warnings, operation.countP_wait_warnings]
    rfl

/-! ## A run -/

theorem run_leads (hc : c.machine.WellFormed) (hload : ∀ program, .load program ∉ operations) :
    Leads c.machine.awaiting (c.log operations) (c.run operations).machine.awaiting := by
  induction operations generalizing c with
  | nil => exact .nil
  | cons operation rest ih =>
    obtain ⟨hkind, hlater⟩ := loads_nothing_cons hload
    rw [log_cons, run_cons]
    exact (perform_leads hc hkind).append (ih (perform_wellFormed c operation hc) hlater)

theorem log_filter_warn (hc : c.machine.WellFormed) (operations : List Operation) :
    (c.log operations).filter (·.level = .warn) = operations.flatMap Operation.warnings := by
  induction operations generalizing c with
  | nil => rfl
  | cons operation rest ih =>
    rw [log_cons, List.filter_append, perform_filter_warn hc, ih (perform_wellFormed c operation hc),
      List.flatMap_cons]

theorem log_count_eq (hc : c.machine.WellFormed) (operations : List Operation) :
    c.executedCycles operations + c.failedExecutions operations +
        (c.log operations).countP (·.wait? = some true) =
      (c.log operations).countP (·.level = .trace) +
        (c.log operations).countP (·.wait? = some false) := by
  induction operations generalizing c with
  | nil => rfl
  | cons operation rest ih =>
    have hfirst := perform_count_eq hc operation
    have hrest := ih (perform_wellFormed c operation hc)
    simp only [executedCycles_cons, failedExecutions, log_cons, List.countP_append]
    omega

theorem log_quiet {x : Register} {pc : UInt16} (h : c.machine.Waits x pc none)
    (hquiet : ∀ operation ∈ operations, operation.Quiet) :
    c.log operations = operations.flatMap Operation.warnings := by
  induction operations generalizing c with
  | nil => rfl
  | cons operation rest ih =>
    obtain ⟨hfirst, hrest⟩ := List.forall_mem_cons.mp hquiet
    have hlog : (c.perform operation).log = operation.warnings := by
      by_cases hcycle : operation = .cycle
      · subst hcycle
        rw [perform, h.cycle_unanswered]
        rfl
      · exact perform_log_of_ne_cycle c hcycle
    rw [log_cons, hlog, ih (waits_quiet h hfirst) hrest, List.flatMap_cons]

theorem log_press {x : Register} {pc : UInt16} (h : c.machine.Waits x pc none) {key : UInt8}
    (hkey : key.toNat < 16) : c.log [.press key, .cycle] = [.keyArrived key x] := by
  have hanswered := h.press hkey
  have hpress : (c.perform (.press key)).log = [] := by
    rw [perform_log_of_ne_cycle c (fun hcycle => by cases hcycle)]
    exact if_neg (Nat.not_lt.mpr (Nat.le_of_lt_succ hkey))
  have hcycle : (Console.mk (c.machine.press key) c.random).log [.cycle] = [.keyArrived key x] := by
    rw [log_cons, perform, Machine.cycle_of_answered hanswered.awaiting hanswered.pressed]
    rfl
  rw [log_cons, hpress]
  exact hcycle

/-- The log of a whole wait, with the warnings that came in between. -/
theorem log_wait {x : Register} (hins : c.machine.Executes (.waitKey x)) {polls : List Operation}
    {key : UInt8} (hpolls : ∀ operation ∈ polls, operation.Quiet) (hkey : key.toNat < 16) :
    c.log (.cycle :: (polls ++ [.press key, .cycle])) =
      .executing c.machine.pc c.machine.word (.waitKey x) :: .waitingForKey c.machine.pc ::
        (polls.flatMap Operation.warnings ++ [.keyArrived key x]) := by
  have hwaits : (c.perform .cycle).console.machine.Waits x (c.machine.pc + 2) none :=
    hins.waits c.random
  have hopens : (c.perform .cycle).log =
      [.executing c.machine.pc c.machine.word (.waitKey x), .waitingForKey c.machine.pc] := by
    rw [perform, hins.cycle_of_waitKey]
  rw [log_cons, hopens, log_append, log_quiet hwaits hpolls,
    log_press (waits_run_quiet hwaits hpolls) hkey]
  rfl

/-- What the log tells about a run. -/
structure LogAccount (c : Console) (operations : List Operation) : Prop where
  /-- A cycle logs what its course says. -/
  cycles : ∀ before later, operations = before ++ .cycle :: later →
    let here := c.run before
    let report := here.machine.cycle here.random
    here.machine.Course report.result report.log report.machine.awaiting
  /-- Any other operation logs its warnings. -/
  others : ∀ before operation later, operations = before ++ operation :: later →
    operation ≠ .cycle → ((c.run before).perform operation).log = operation.warnings
  /-- The warnings are those of events of unknown keys. -/
  warnings : (c.log operations).filter (·.level = .warn) = operations.flatMap Operation.warnings
  /-- Lines that open a wait and lines that end one take turns, and the first one opens. -/
  turns : (false :: (c.log operations).filterMap LogEntry.wait?).IsChain (· ≠ ·)
  /-- A wait ends with a key, for the register that was announced. -/
  matched : ∀ earlier key x later, c.log operations = earlier ++ .keyArrived key x :: later →
    key.toNat ≤ 0xF ∧ Announced earlier x
  /-- The lines give the number of executed cycles. -/
  executed :
    c.executedCycles operations + c.failedExecutions operations +
        (c.log operations).countP (·.wait? = some true) =
      (c.log operations).countP (·.level = .trace) +
        (c.log operations).countP (·.wait? = some false)

/-- The log of a run without loads, from a machine that does not wait, gives a full account of
the run. -/
theorem log_account {m : Machine} (h : m.Reachable) (hidle : m.awaiting = none)
    (random : RandomWords) {operations : List Operation}
    (hload : ∀ program, .load program ∉ operations) :
    Console.LogAccount ⟨m, random⟩ operations := by
  have hm : (Console.mk m random).machine.WellFormed := h.wellFormed
  have hleads : Leads none (Console.log ⟨m, random⟩ operations)
      (Console.run ⟨m, random⟩ operations).machine.awaiting := hidle ▸ run_leads hm hload
  constructor
  · intro before later _
    exact Machine.cycle_course (run_wellFormed hm before) _
  · intro before operation later _ hcycle
    exact perform_log_of_ne_cycle _ hcycle
  · exact log_filter_warn hm operations
  · exact hleads.isChain
  · intro earlier key x later hlog
    obtain ⟨hkey, ⟨hx, -⟩ | hannounced⟩ := hleads.announced hlog
    · cases hx
    · exact ⟨Nat.le_of_lt_succ hkey, hannounced⟩
  · exact log_count_eq hm operations

/-- Waits for a key, and returns from no call. -/
def askAndReturn : Array UInt8 := #[0xF4, 0x0A, 0x00, 0xEE]

theorem log_askAndReturn {c : Console} (h : c.machine.Stands askAndReturn 0)
    (hempty : c.machine.stack.depth = 0) :
    let operations : List Operation := [.cycle, .cycle, .press 0x10, .press 5, .cycle, .cycle]
    c.executedCycles operations = 1 ∧
      c.log operations =
        [.executing 0x200 0xF40A (.waitKey 4), .waitingForKey 0x200, .unknownPress 0x10,
          .keyArrived 5 4, .executing 0x202 0x00EE .ret] := by
  let waited : List Operation := .cycle :: ([.cycle, .press 0x10] ++ [.press 5, .cycle])
  change c.executedCycles (waited ++ [.cycle]) = 1 ∧ c.log (waited ++ [.cycle]) = _
  have hwait : c.machine.Executes (.waitKey 4) := h.executes (by decide) (by decide)
  have hquiet : ∀ operation ∈ [Operation.cycle, .press 0x10], operation.Quiet := by
    simp [Operation.Quiet]
  have hkey : (5 : UInt8).toNat < 16 := by decide
  let after := c.run waited
  obtain ⟨h202, hstack⟩ := stands_after_wait h hwait hquiet hkey
  have hret : after.machine.Executes .ret := h202.executes (by decide) (by decide)
  have hfault : after.machine.faultOf after.machine.pc .ret = _ := if_pos (hstack ▸ hempty)
  have hfailed := hret.cycle_of_fault h202.wellFormed after.random hfault
  have hpc : c.machine.pc = 0x200 := UInt16.toNat_inj.mp h.pc
  have hpc' : after.machine.pc = 0x202 := UInt16.toNat_inj.mp h202.pc
  constructor
  · rw [executedCycles_append, (wait_cycles hwait hquiet hkey).1, executedCycles_cons, perform,
      hfailed]
    rfl
  · have hlast : after.log [.cycle] = [.executing 0x202 0x00EE .ret] := by
      rw [log_cons, perform, hfailed, hpc', show after.machine.word = 0x00EE from h202.word_eq]
      rfl
    rw [log_append, hlast, log_wait hwait hquiet hkey, hpc,
      show c.machine.word = 0xF40A from h.word_eq]
    rfl

/-- Of four cycles one opens a wait, one asks in vain, one ends it, and one fails. -/
theorem log_account_of_wait :
    let c := (fresh .standard fun _ => 0).run [.load askAndReturn]
    let operations : List Operation := [.cycle, .cycle, .press 0x10, .press 5, .cycle, .cycle]
    c.machine.Reachable ∧ c.LogAccount operations ∧
      (c.log operations).map LogEntry.line =
        ["TRACE 200: f40a LD V4, K", "DEBUG waiting for key at 200",
          "WARN ignoring press of unknown key 0x10", "DEBUG key 5 resolved wait of V4",
          "TRACE 202: 00ee RET"] ∧
      c.executedCycles operations = 1 ∧ c.failedExecutions operations = 1 := by
  obtain ⟨loaded, hrun, hreached, hstands, hloaded, -⟩ :=
    exists_loaded .standard (fun _ => 0) (show askAndReturn.size ≤ _ by decide)
  obtain ⟨hexecuted, hlog⟩ :=
    log_askAndReturn hstands (show loaded.machine.stack.depth = 0 by rw [hloaded]; rfl)
  rw [hrun]
  intro c operations
  have hreach : c.machine.Reachable := hreached []
  have hnone : ∀ program, .load program ∉ operations := by simp [operations]
  have haccount : c.LogAccount operations := log_account hreach hstands.idle c.random hnone
  have hcount := haccount.executed
  rw [show c.executedCycles operations = 1 from hexecuted,
    show c.log operations = _ from hlog] at hcount
  refine ⟨hreach, haccount, ?_, hexecuted, ?_⟩
  · rw [show c.log operations = _ from hlog]
    decide
  · simp [LogEntry.wait?, LogEntry.level] at hcount
    omega

end Console

end ChipEight
