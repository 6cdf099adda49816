import ChipEight.Proofs.Sequential

/-!
# From cycles to the observer

The state after an executed cycle is first published and then handed to the observer. Between
two moves the worker carries at most one such snapshot. `stored` and `handed` list what the
moves of a run publish and what they call the observer with, also the call that makes it
panic; `passes_run` says that no snapshot is lost, doubled or overtaken on its way.
-/
namespace ChipEight.Session

/-- The moves of a run, each with the session that it finds. -/
def trail (s : Session) : List Move → List (Session × Move)
  | [] => []
  | move :: rest =>
      match s.step move with
      | some after => (s, move) :: after.trail rest
      | none => []

/-- The snapshot that a move publishes. -/
def publishes (s : Session) : Move → List Snapshot
  | .publish => s.worker.toPublish
  | _ => []

/-- The snapshot that a move calls the observer with. -/
def hands (s : Session) : Move → List Snapshot
  | .notify _ => if s.observed then s.worker.toDeliver else []
  | _ => []

/-- What is published in a run, in its order. -/
def stored (s : Session) (moves : List Move) : List Snapshot :=
  (s.trail moves).flatMap fun (found, move) => found.publishes move

/-- What the observer is called with in a run, in the order of the calls. -/
def handed (s : Session) (moves : List Move) : List Snapshot :=
  (s.trail moves).flatMap fun (found, move) => found.hands move

/-- The session goes from `s` to `after` while cycles leave the states `executed`, and of the
snapshots that are on their way `stored` get published and `handed` get to the observer. -/
structure Passes (s : Session) (executed stored handed : List Snapshot) (after : Session) :
    Prop where
  stored_eq : s.worker.toPublish ++ executed = stored ++ after.worker.toPublish
  handed_eq : s.observed = true → s.worker.toDeliver ++ stored = handed ++ after.worker.toDeliver
  unobserved : s.observed = false → handed = []
  published_eq : after.published = (s.published.toList ++ stored).getLast?

variable {s after : Session} {move : Move}

theorem applied_cons {rest : List Move} (hstep : s.step move = some after) :
    s.applied (move :: rest) = s.effect move ++ after.applied rest :=
  collect_cons hstep

theorem trail_cons {rest : List Move} (hstep : s.step move = some after) :
    s.trail (move :: rest) = (s, move) :: after.trail rest := by
  rw [trail, hstep]

theorem stored_cons {rest : List Move} (hstep : s.step move = some after) :
    s.stored (move :: rest) = s.publishes move ++ after.stored rest := by
  rw [stored, trail_cons hstep, List.flatMap_cons, stored]

theorem handed_cons {rest : List Move} (hstep : s.step move = some after) :
    s.handed (move :: rest) = s.hands move ++ after.handed rest := by
  rw [handed, trail_cons hstep, List.flatMap_cons, handed]

/-- Between two moves the worker carries at most one snapshot. -/
theorem length_carried_le (phase : WorkerPhase) :
    (phase.toDeliver ++ phase.toPublish).length ≤ 1 := by
  cases phase <;> simp [WorkerPhase.toDeliver, WorkerPhase.toPublish]

namespace Passes

variable {middle : Session} {executed later stored restored handed rehanded : List Snapshot}

theorem refl (s : Session) : s.Passes [] [] [] s where
  stored_eq := by simp
  handed_eq := by simp
  unobserved := by simp
  published_eq := by cases s.published <;> rfl

theorem trans (h : s.Passes executed stored handed middle)
    (h' : middle.Passes later restored rehanded after)
    (hobserved : middle.observed = s.observed) :
    s.Passes (executed ++ later) (stored ++ restored) (handed ++ rehanded) after where
  stored_eq := by
    rw [← List.append_assoc, h.stored_eq, List.append_assoc, h'.stored_eq, List.append_assoc]
  handed_eq := by
    intro hon
    rw [← List.append_assoc, h.handed_eq hon, List.append_assoc,
      h'.handed_eq (hobserved.trans hon), List.append_assoc]
  unobserved := by
    intro hoff
    rw [h.unobserved hoff, h'.unobserved (hobserved.trans hoff)]
    rfl
  published_eq := by
    have hlast : ∀ o : Option Snapshot, o.toList.getLast? = o := by
      intro o
      cases o <;> rfl
    rw [h'.published_eq, h.published_eq, ← List.append_assoc, List.getLast?_append, hlast,
      ← List.getLast?_append]

/-- A move that lets the snapshots lie where they are. -/
theorem of_same (hpublish : after.worker.toPublish = s.worker.toPublish)
    (hdeliver : after.worker.toDeliver = s.worker.toDeliver)
    (hpublished : after.published = s.published) : s.Passes [] [] [] after where
  stored_eq := by simp [hpublish]
  handed_eq := by simp [hdeliver]
  unobserved := by simp
  published_eq := by
    rw [hpublished]
    cases s.published <;> rfl

end Passes

/-- No move but those of the worker touches a snapshot, and each passes it one place on. -/
theorem Takes.passes (h : s.Takes move after) :
    s.Passes (s.console.executedSnapshots (s.effect move)) (s.publishes move) (s.hands move)
      after := by
  cases h with
  | enter hworker =>
    refine .of_same ?_ ?_ rfl <;>
    · rw [hworker]
      dsimp only
      split <;> rfl
  | cycle ticks hworker =>
    refine ⟨?_, fun _ => ?_, fun _ => rfl, ?_⟩
    · rw [hworker, ← runCycle_toPublish]
      rfl
    · rw [hworker, runCycle_toDeliver]
      rfl
    · change s.published = _
      cases s.published <;> rfl
  | publish hworker =>
    refine ⟨?_, fun _ => ?_, fun _ => rfl, ?_⟩
    · rw [publishes, hworker]
      rfl
    · rw [publishes, hworker]
      rfl
    · rw [publishes, hworker]
      exact List.getLast?_concat.symm
  | skip panics hworker hunobserved =>
    refine ⟨?_, fun hon => ?_, fun _ => ?_, ?_⟩
    · rw [hworker]
      rfl
    · rw [hunobserved] at hon
      cases hon
    · rw [hands, hunobserved]
      rfl
    · change s.published = _
      cases s.published <;> rfl
  | panic hworker hobserved | notify hworker hobserved =>
    refine ⟨?_, fun _ => ?_, fun hoff => ?_, ?_⟩
    · rw [hworker]
      rfl
    · rw [hands, hobserved, hworker]
      rfl
    · rw [hobserved] at hoff
      cases hoff
    · change s.published = _
      cases s.published <;> rfl
  | pace now hworker =>
    refine .of_same ?_ ?_ rfl <;>
    · rw [hworker]
      dsimp only
      split <;> rfl
  | reckon hworker _ | overrun hworker _ | wake hworker | close hworker =>
    refine .of_same ?_ ?_ rfl <;> rw [hworker] <;> rfl
  | ask hasks _ _ | refuse hasks _ _ =>
    cases move with
    | press key | release key => exact .of_same rfl rfl rfl
    | _ => cases hasks
  | @handle operation hhand _ =>
    have heffect : s.effect .handle = [operation] := congrArg Option.toList hhand
    rw [heffect, Console.executedSnapshots_keyEvent _ (HostPhase.isKeyEvent_inHand hhand)]
    exact .of_same rfl rfl rfl
  | stop _ _ | stopAgain _ _ | wait _ _ | waitAgain _ _ | join _ _ => exact .of_same rfl rfl rfl

theorem passes_run {moves : List Move} (h : s.run moves = some after) :
    s.Passes (s.console.executedSnapshots (s.applied moves)) (s.stored moves) (s.handed moves)
      after := by
  induction moves generalizing s with
  | nil =>
    cases h
    exact .refl after
  | cons move rest ih =>
    obtain ⟨middle, hstep, hrest⟩ := Option.bind_eq_some_iff.mp h
    have htakes := takes_of_step hstep
    have hsimulates := htakes.simulates
    rw [applied_cons hstep, Console.executedSnapshots_append, ← hsimulates.console,
      stored_cons hstep, handed_cons hstep]
    exact htakes.passes.trans (ih hrest) hsimulates.observed

end ChipEight.Session
