import ChipEight.Proofs.Dependence
import ChipEight.Proofs.Reload
import Mathlib.Data.List.Forall2

/-!
# Two runs with the same operations

A relation between two machines that every operation keeps is kept by whole runs, with the same
answers and log lines on both sides (`run_coupled`). It is enough that it is kept under a
condition on the first machine, as long as each cycle of the first run meets it (`EveryCycle`).
-/
namespace ChipEight

/-- The same answer, and machines that stand in the relation `R`. -/
structure OperationReport.Agrees (R : Machine → Machine → Prop) (first second : OperationReport) :
    Prop where
  machine : R first.console.machine second.console.machine
  random : second.console.random = first.console.random
  answer : second.answer = first.answer

/-- The same answer and the same log lines, and machines that stand in the relation `R`. -/
structure OperationReport.Matches (R : Machine → Machine → Prop) (first second : OperationReport) :
    Prop extends Agrees R first second where
  log : second.log = first.log

/-- Whether a program fits is no matter of the machine. -/
theorem Machine.load_cases (m n : Machine) (program : Array UInt8) :
    (∃ fault, m.load program = .error fault ∧ n.load program = .error fault) ∨
      ∃ a b, m.load program = .ok a ∧ n.load program = .ok b := by
  by_cases hsize : program.size ≤ Memory.programRoom
  · simp [load, Memory.load, hsize, Except.map]
  · have hlarge := Nat.lt_of_not_le hsize
    exact Or.inl ⟨_, load_of_too_large hlarge, load_of_too_large hlarge⟩

namespace Console

/-- Every cycle of the run finds a machine with the property `P`. -/
def EveryCycle (c : Console) (P : Machine → Prop) : List Operation → Prop
  | [] => True
  | operation :: rest =>
      (operation = .cycle → P c.machine) ∧ (c.perform operation).console.EveryCycle P rest

theorem everyCycle_append {c : Console} {P : Machine → Prop} {first later : List Operation} :
    c.EveryCycle P (first ++ later) ↔ c.EveryCycle P first ∧ (c.run first).EveryCycle P later := by
  induction first generalizing c with
  | nil => exact (iff_of_eq (true_and _)).symm
  | cons operation rest ih => rw [List.cons_append, EveryCycle, EveryCycle, ih, and_assoc, run_cons]

theorem everyCycle_of_forall {P : Machine → Prop} (h : ∀ m, P m) (c : Console)
    (operations : List Operation) : c.EveryCycle P operations := by
  induction operations generalizing c with
  | nil => trivial
  | cons operation rest ih => exact ⟨fun _ => h _, ih _⟩

theorem EveryCycle.imp {P Q : Machine → Prop} (himp : ∀ m, P m → Q m) {c : Console}
    {operations : List Operation} (h : c.EveryCycle P operations) : c.EveryCycle Q operations := by
  induction operations generalizing c with
  | nil => trivial
  | cons operation rest ih => exact ⟨fun hcycle => himp _ (h.1 hcycle), ih h.2⟩

/-- The runs of both with the same operations give the same answers and log lines at every step,
and machines that stand in the relation `R`. -/
structure RunsAlike (R : Machine → Machine → Prop) (c d : Console) (operations : List Operation) :
    Prop where
  reports : List.Forall₂ (OperationReport.Matches R) (c.reports operations) (d.reports operations)
  machine : R (c.run operations).machine (d.run operations).machine
  random : (d.run operations).random = (c.run operations).random

variable {c d : Console} {R S : Machine → Machine → Prop}

theorem RunsAlike.imp (himp : ∀ a b, R a b → S a b) {operations : List Operation}
    (h : RunsAlike R c d operations) : RunsAlike S c d operations where
  reports := h.reports.imp fun _ _ hmatches =>
    { hmatches with machine := himp _ _ hmatches.machine }
  machine := himp _ _ h.machine
  random := h.random

theorem RunsAlike.answers_eq {operations : List Operation} (h : RunsAlike R c d operations) :
    (d.reports operations).map OperationReport.answer =
      (c.reports operations).map OperationReport.answer := by
  have hreports := h.reports
  generalize c.reports operations = first, d.reports operations = second at hreports
  induction hreports with
  | nil => rfl
  | cons hmatches _ ih => rw [List.map_cons, List.map_cons, hmatches.answer, ih]

/-- To keep a relation over an operation on two machines is to keep it over a load, a cycle, a key
event, and time. -/
theorem perform_coupled (operation : Operation)
    (h : R c.machine d.machine) (hrandom : d.random = c.random)
    (hload : ∀ program a b, c.machine.load program = .ok a → d.machine.load program = .ok b →
      R a b)
    (hcycle : operation = .cycle →
      (c.machine.cycle c.random).Agrees R (d.machine.cycle c.random))
    (hpress : ∀ key, R (c.machine.press key) (d.machine.press key))
    (hrelease : ∀ key, R (c.machine.release key) (d.machine.release key))
    (helapse : ∀ ticks, R (c.machine.elapse ticks) (d.machine.elapse ticks)) :
    (c.perform operation).Matches R (d.perform operation) := by
  cases operation with
  | load program =>
    rcases c.machine.load_cases d.machine program with ⟨fault, hc, hd⟩ | ⟨a, b, hc, hd⟩
    · rw [perform, perform, hc, hd]
      exact ⟨⟨h, hrandom, rfl⟩, rfl⟩
    · rw [perform_load_ok hc, perform_load_ok hd]
      exact ⟨⟨hload program a b hc hd, hrandom, rfl⟩, rfl⟩
  | cycle =>
    have hagrees := hcycle rfl
    simp only [perform, hrandom]
    exact ⟨⟨hagrees.machine, hagrees.random, congrArg Answer.cycled hagrees.result⟩, hagrees.log⟩
  | press key => exact ⟨⟨hpress key, hrandom, rfl⟩, rfl⟩
  | release key => exact ⟨⟨hrelease key, hrandom, rfl⟩, rfl⟩
  | elapse ticks => exact ⟨⟨helapse ticks, hrandom, rfl⟩, rfl⟩

/-- What every operation keeps between two machines is kept by every run of both. -/
theorem run_coupled {P : Machine → Prop}
    (hstep : ∀ (c d : Console) (operation : Operation), c.machine.WellFormed →
      R c.machine d.machine → d.random = c.random → (operation = .cycle → P c.machine) →
      (c.perform operation).Matches R (d.perform operation))
    (hc : c.machine.WellFormed) (h : R c.machine d.machine) (hrandom : d.random = c.random)
    {operations : List Operation} (hP : c.EveryCycle P operations) :
    RunsAlike R c d operations := by
  induction operations generalizing c d with
  | nil => exact ⟨.nil, h, hrandom⟩
  | cons operation rest ih =>
    obtain ⟨hfirst, hrest⟩ := hP
    have hmatches := hstep c d operation hc h hrandom hfirst
    have hlater := ih (perform_wellFormed c operation hc) hmatches.machine hmatches.random hrest
    exact ⟨.cons hmatches hlater.reports, hlater.machine, hlater.random⟩

/-- A relation that every operation keeps without more being asked for. -/
theorem run_always_coupled
    (hstep : ∀ (c d : Console) (operation : Operation), c.machine.WellFormed →
      R c.machine d.machine → d.random = c.random →
      (c.perform operation).Matches R (d.perform operation))
    (hc : c.machine.WellFormed) (h : R c.machine d.machine) (hrandom : d.random = c.random)
    (operations : List Operation) : RunsAlike R c d operations :=
  run_coupled (P := fun _ => True)
    (fun a b operation hm hsame hr _ => hstep a b operation hm hsame hr) hc h hrandom
    (everyCycle_of_forall (fun _ => trivial) c operations)

end Console

end ChipEight
