import ChipEight.Machine.Cycle

/-!
# Operations and runs

Everything that can happen to a machine from outside, and the states that a machine
can get into by it, whatever the operations answered.
-/
namespace ChipEight

inductive Operation where
  | load (program : Array UInt8)
  | cycle
  | press (key : UInt8)
  | release (key : UInt8)
  | elapse (ticks : UInt8)
  deriving DecidableEq, Repr

/-- What an operation answers. -/
inductive Answer where
  | loaded (result : Except Fault Unit)
  | cycled (result : Except Fault Progress)
  | done

/-- A machine with its random words. -/
structure Console where
  machine : Machine
  random : RandomWords

/-- State after an operation, its answer, and what it logged. -/
structure OperationReport where
  console : Console
  answer : Answer
  log : List LogEntry

namespace Console

/-- A machine that never ran, at the start of its random words. -/
def fresh (settings : Settings) (word : Nat → UInt32) : Console :=
  ⟨.fresh settings, .ofSequence word⟩

def perform (c : Console) : Operation → OperationReport
  | .load program =>
      match c.machine.load program with
      | .ok machine => ⟨{ c with machine }, .loaded (.ok ()), []⟩
      | .error fault => ⟨c, .loaded (.error fault), []⟩
  | .cycle =>
      let report := c.machine.cycle c.random
      ⟨⟨report.machine, report.random⟩, .cycled report.result, report.log⟩
  | .press key => ⟨{ c with machine := c.machine.press key }, .done, LogEntry.ofPress key⟩
  | .release key => ⟨{ c with machine := c.machine.release key }, .done, LogEntry.ofRelease key⟩
  | .elapse ticks => ⟨{ c with machine := c.machine.elapse ticks }, .done, []⟩

/-- State after a list of operations. -/
def run (c : Console) (operations : List Operation) : Console :=
  operations.foldl (fun c operation => (c.perform operation).console) c

/-- The reports of a list of operations, in their order. -/
def reports (c : Console) : List Operation → List OperationReport
  | [] => []
  | operation :: rest =>
      let report := c.perform operation
      report :: report.console.reports rest

@[simp] theorem run_nil (c : Console) : c.run [] = c := rfl

@[simp] theorem run_cons (c : Console) (operation : Operation) (rest : List Operation) :
    c.run (operation :: rest) = (c.perform operation).console.run rest := rfl

@[simp] theorem reports_nil (c : Console) : c.reports [] = [] := rfl

@[simp] theorem reports_cons (c : Console) (operation : Operation) (rest : List Operation) :
    c.reports (operation :: rest) =
      c.perform operation :: (c.perform operation).console.reports rest := rfl

theorem run_append (c : Console) (first later : List Operation) :
    c.run (first ++ later) = (c.run first).run later :=
  List.foldl_append

theorem reports_append (c : Console) (first later : List Operation) :
    c.reports (first ++ later) = c.reports first ++ (c.run first).reports later := by
  induction first generalizing c with
  | nil => rfl
  | cons operation rest ih => simp [ih]

end Console

/-- Some operations on a machine that never ran lead to `m`. -/
def Machine.Reachable (m : Machine) : Prop :=
  ∃ settings word operations, ((Console.fresh settings word).run operations).machine = m

end ChipEight
