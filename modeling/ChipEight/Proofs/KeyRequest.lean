import ChipEight.Proofs.KeyWait

/-!
# Requests for a key

What a keypad answers to a take is said here by its past alone. A take gets a key exactly if the
latest request is still open, and then it gets the first key that was pressed after it
(`Keypad.take_by_history`). So a request and a press are good for at most one key each.
-/
namespace ChipEight.Keypad

/-- What can be done to a keypad. -/
inductive Action where
  | press (key : UInt8)
  | release (key : UInt8)
  /-- Opens a request. -/
  | beginWait
  /-- Asks for the key that answers the request. -/
  | takePress
  /-- Puts all keys up and drops the request. -/
  | reset
  deriving DecidableEq, Repr

/-- The key that an action presses, if there is such a key. -/
def Action.pressed? : Action → Option UInt8
  | .press key => if key.toNat < 16 then some key else none
  | _ => none

/-- State after an action. -/
def act (pad : Keypad) : Action → Keypad
  | .press key => pad.press key
  | .release key => pad.release key
  | .beginWait => pad.beginWait
  | .takePress => pad.takePress.2
  | .reset => idle

/-- State after a list of actions. -/
def after (pad : Keypad) (actions : List Action) : Keypad := actions.foldl act pad

/-- The key that an action takes. -/
def taken? (pad : Keypad) : Action → Option UInt8
  | .takePress => pad.takePress.1
  | _ => none

/-- The keys that the takes among the actions get, in their order. -/
def taken (pad : Keypad) : List Action → List UInt8
  | [] => []
  | action :: rest => (pad.taken? action).toList ++ (pad.act action).taken rest

/-- The actions neither replace nor end the request that is open: none of them is a request or a
reset, and no take gets a key. -/
def KeepsOpen (pad : Keypad) : List Action → Prop
  | [] => True
  | action :: rest =>
      (action ≠ .beginWait ∧ action ≠ .reset ∧ pad.taken? action = none) ∧
        (pad.act action).KeepsOpen rest

/-- The latest request among the actions is still open, and the key is the first that was pressed
after it. -/
def Answered (actions : List Action) (key : UInt8) : Prop :=
  ∃ before later, actions = before ++ .beginWait :: later ∧
    (idle.after before).beginWait.KeepsOpen later ∧ later.findSome? Action.pressed? = some key

variable {pad : Keypad} {action : Action} {actions : List Action}

theorem after_cons (pad : Keypad) (action : Action) (rest : List Action) :
    pad.after (action :: rest) = (pad.act action).after rest := rfl

theorem after_append (pad : Keypad) (first later : List Action) :
    pad.after (first ++ later) = (pad.after first).after later :=
  List.foldl_append

theorem takePress_fst (pad : Keypad) : pad.takePress.1 = pad.pressed := by
  unfold takePress
  split <;> simp_all

theorem takePress_of_none (h : pad.pressed = none) : pad.takePress = (none, pad) := by
  rw [takePress, h]

theorem takePress_of_some {key : UInt8} (h : pad.pressed = some key) :
    pad.takePress = (some key, { pad with waiting := false, pressed := none }) := by
  rw [takePress, h]

/-! ## One action -/

theorem Consistent.act (h : pad.Consistent) (action : Action) : (pad.act action).Consistent := by
  cases action with
  | press key => exact h.press key
  | release key => exact h.release key
  | beginWait => exact consistent_beginWait pad
  | takePress =>
    cases hpressed : pad.pressed with
    | none => rwa [Keypad.act, takePress_of_none hpressed]
    | some key =>
      rw [Keypad.act, takePress_of_some hpressed]
      nofun
  | reset => exact consistent_idle

/-- While a request is open, only presses matter for it, and of these the first. -/
theorem act_of_open (hopen : pad.waiting = true) (hrequest : action ≠ .beginWait)
    (hreset : action ≠ .reset) (htaken : pad.taken? action = none) :
    (pad.act action).waiting = true ∧
      (pad.act action).pressed = pad.pressed.or action.pressed? := by
  cases action with
  | press key =>
    refine ⟨(pad.press_waiting key).trans hopen, ?_⟩
    rw [act, press_pressed, Action.pressed?]
    cases pad.pressed <;> simp [hopen]
  | release key =>
    refine ⟨(pad.latch_waiting key false).trans hopen, ?_⟩
    exact (pad.latch_pressed key false).trans (Option.or_none).symm
  | beginWait => exact absurd rfl hrequest
  | takePress =>
    have hpressed : pad.pressed = none := pad.takePress_fst.symm.trans htaken
    rw [act, takePress_of_none hpressed]
    exact ⟨hopen, Option.or_none.symm⟩
  | reset => exact absurd rfl hreset

/-- A request that is open after an action was opened by it, or was open before. -/
theorem open_before (hopen : (pad.act action).waiting = true) :
    action = .beginWait ∨
      pad.waiting = true ∧ action ≠ .beginWait ∧ action ≠ .reset ∧ pad.taken? action = none := by
  cases action with
  | press key => exact Or.inr ⟨(pad.press_waiting key).symm.trans hopen, nofun, nofun, rfl⟩
  | release key => exact Or.inr ⟨(pad.latch_waiting key false).symm.trans hopen, nofun, nofun, rfl⟩
  | beginWait => exact Or.inl rfl
  | takePress =>
    cases hpressed : pad.pressed with
    | none =>
      rw [act, takePress_of_none hpressed] at hopen
      exact Or.inr ⟨hopen, nofun, nofun, pad.takePress_fst.trans hpressed⟩
    | some key =>
      rw [act, takePress_of_some hpressed] at hopen
      cases hopen
  | reset => cases hopen

/-! ## Lists of actions -/

theorem Consistent.after (h : pad.Consistent) (actions : List Action) :
    (pad.after actions).Consistent := by
  induction actions generalizing pad with
  | nil => exact h
  | cons action rest ih => exact ih (h.act action)

/-- What is on record for a request that stays open: what was there before, or else the first
press. -/
theorem KeepsOpen.after (h : pad.KeepsOpen actions) (hopen : pad.waiting = true) :
    (pad.after actions).waiting = true ∧
      (pad.after actions).pressed = pad.pressed.or (actions.findSome? Action.pressed?) := by
  induction actions generalizing pad with
  | nil => exact ⟨hopen, Option.or_none.symm⟩
  | cons action rest ih =>
    obtain ⟨⟨hrequest, hreset, htaken⟩, hrest⟩ := h
    obtain ⟨hstill, hpressed⟩ := act_of_open hopen hrequest hreset htaken
    obtain ⟨hwaiting, hrecord⟩ := ih hrest hstill
    refine ⟨hwaiting, ?_⟩
    rw [after_cons, hrecord, hpressed, Option.or_assoc, List.findSome?_cons]
    cases action.pressed? <;> rfl

/-- A request that is open after some actions was open all the time, or was opened by one of them
and is open since. -/
theorem open_since (hopen : (pad.after actions).waiting = true) :
    pad.waiting = true ∧ pad.KeepsOpen actions ∨
      ∃ before later, actions = before ++ .beginWait :: later ∧
        (pad.after before).beginWait.KeepsOpen later := by
  induction actions generalizing pad with
  | nil => exact Or.inl ⟨hopen, trivial⟩
  | cons action rest ih =>
    rcases ih hopen with ⟨hact, hrest⟩ | ⟨before, later, rfl, hlater⟩
    · rcases open_before hact with rfl | ⟨hwaiting, hkeeps⟩
      · exact Or.inr ⟨[], rest, rfl, hrest⟩
      · exact Or.inl ⟨hwaiting, hkeeps, hrest⟩
    · exact Or.inr ⟨action :: before, later, rfl, hlater⟩

theorem pressed_iff_answered (actions : List Action) (key : UInt8) :
    (idle.after actions).pressed = some key ↔ Answered actions key := by
  constructor
  · intro hpressed
    have hopen := (consistent_idle.after actions key hpressed).1
    rcases open_since hopen with ⟨hidle, -⟩ | ⟨before, later, rfl, hlater⟩
    · cases hidle
    · refine ⟨before, later, rfl, hlater, ?_⟩
      rw [after_append, after_cons, act, (hlater.after rfl).2] at hpressed
      exact hpressed
  · rintro ⟨before, later, rfl, hlater, hfirst⟩
    rw [after_append, after_cons, act, (hlater.after rfl).2, hfirst]
    rfl

/-! ## Counting -/

/-- Requests that are open, one at most. -/
def openRequests (pad : Keypad) : Nat := if pad.waiting then 1 else 0

/-- A take that gets a key uses up the request. -/
theorem openRequests_act (h : pad.Consistent) (action : Action) :
    (pad.taken? action).toList.length + (pad.act action).openRequests ≤
      pad.openRequests + [action].count .beginWait := by
  cases action with
  | press key => simp [taken?, act, openRequests, press_waiting]
  | release key => simp [taken?, act, openRequests, release, latch_waiting]
  | beginWait => simp [taken?, act, openRequests, beginWait]
  | takePress =>
    cases hpressed : pad.pressed with
    | none => simp [taken?, act, takePress_of_none hpressed]
    | some key =>
      have hopen := (h key hpressed).1
      simp [taken?, act, takePress_of_some hpressed, openRequests, hopen]
  | reset => simp [taken?, act, openRequests, idle]

/-- An action gets a key out of the record, or puts one there. -/
theorem taken?_sublist (pad : Keypad) (action : Action) :
    ((pad.taken? action).toList ++ (pad.act action).pressed.toList).Sublist
      (pad.pressed.toList ++ action.pressed?.toList) := by
  cases action with
  | press key =>
    simp only [taken?, act, press_pressed, Action.pressed?]
    cases pad.pressed <;> split <;> simp_all
  | release key => simp [taken?, act, release, latch_pressed, Action.pressed?]
  | beginWait => simp [taken?, act, beginWait]
  | takePress =>
    cases hpressed : pad.pressed with
    | none => simp [taken?, act, takePress_of_none hpressed, hpressed]
    | some key => simp [taken?, act, takePress_of_some hpressed, Action.pressed?]
  | reset => simp [taken?, act, idle]

theorem length_taken_le (h : pad.Consistent) (actions : List Action) :
    (pad.taken actions).length ≤ pad.openRequests + actions.count .beginWait := by
  induction actions generalizing pad with
  | nil => exact Nat.zero_le _
  | cons action rest ih =>
    have hfirst := openRequests_act h action
    have hrest := ih (h.act action)
    rw [taken, List.length_append, ← List.singleton_append, List.count_append]
    omega

/-- The keys that are taken were pressed in this order. -/
theorem taken_sublist (pad : Keypad) (actions : List Action) :
    (pad.taken actions).Sublist (pad.pressed.toList ++ actions.filterMap Action.pressed?) := by
  induction actions generalizing pad with
  | nil => exact List.nil_sublist _
  | cons action rest ih =>
    have hpresses : (action :: rest).filterMap Action.pressed? =
        action.pressed?.toList ++ rest.filterMap Action.pressed? := by
      rw [List.filterMap_cons]
      cases action.pressed? <;> rfl
    rw [taken, hpresses, ← List.append_assoc]
    refine List.Sublist.trans ((ih (pad.act action)).append_left _) ?_
    rw [← List.append_assoc]
    exact (pad.taken?_sublist action).append_right _

/-- A take on a keypad that was new gets a key exactly if the latest request is still open, with no
reset and no key taken since, and a key was pressed after it; then it gets the first such key. Any
other take gets nothing and changes nothing. So no more keys are taken than requests were opened,
nor more than keys were pressed. -/
theorem take_by_history (actions : List Action) :
    let pad := idle.after actions
    (∀ key, pad.takePress.1 = some key ↔ Answered actions key) ∧
      (pad.takePress = (none, pad) ↔ ∀ key, ¬ Answered actions key) ∧
      (idle.taken actions).length ≤ actions.count .beginWait ∧
      (idle.taken actions).length ≤ (actions.filterMap Action.pressed?).length := by
  intro pad
  have hanswered := pressed_iff_answered actions
  refine ⟨fun key => ?_, ?_, ?_, ?_⟩
  · rw [takePress_fst]
    exact hanswered key
  · constructor
    · intro hnone key hkey
      have hpressed : pad.pressed = some key := (hanswered key).mpr hkey
      rw [takePress_of_some hpressed] at hnone
      cases hnone
    · intro hnone
      refine takePress_of_none (Option.eq_none_iff_forall_ne_some.mpr fun key hpressed => ?_)
      exact hnone key ((hanswered key).mp hpressed)
  · have hle := length_taken_le consistent_idle actions
    rwa [show idle.openRequests = 0 from rfl, Nat.zero_add] at hle
  · exact (idle.taken_sublist actions).length_le

/-- A key that is down already does not answer, a take in vain leaves the request open, and of two
presses the first answers. -/
example :
    (idle.after [.press 1, .beginWait, .takePress, .press 7, .press 8]).takePress.1 = some 7 := by
  decide

end ChipEight.Keypad
