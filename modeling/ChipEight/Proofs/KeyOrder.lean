import ChipEight.Proofs.Dependence
import ChipEight.Proofs.KeyWait

/-!
# The order of a key event and a cycle

A key event that comes before a cycle may as well come after it, unless the cycle takes the
press as the answer to a wait, opens the wait that the press would answer, or asks for the
latch that the event changes (`Interferes`). In these three cases the order shows.
-/
namespace ChipEight

/-- A key goes down or up. -/
def Operation.keyEvent (key : UInt8) : Bool → Operation
  | true => .press key
  | false => .release key

namespace Keypad

/-- The keypad after a key went down or up. -/
def receive (pad : Keypad) (key : UInt8) : Bool → Keypad
  | true => pad.press key
  | false => pad.release key

/-- A key event answers the request that is open. -/
structure Hears (pad : Keypad) (key : UInt8) (down : Bool) : Prop where
  isPress : down = true
  isKey : key.toNat < 16
  waiting : pad.waiting = true
  unanswered : pad.pressed = none

variable {pad : Keypad} {key : UInt8} {down : Bool}

theorem receive_eq_latch (h : ¬ pad.Hears key down) :
    pad.receive key down = pad.latch key down := by
  cases down with
  | false => rfl
  | true =>
    have hopen : ¬ (key.toNat < 16 ∧ pad.waiting ∧ pad.pressed = none) :=
      fun ⟨hkey, hwaiting, hnone⟩ => h ⟨rfl, hkey, hwaiting, hnone⟩
    simp only [receive, press, latch_waiting, latch_pressed, if_neg hopen]

theorem receive_pressed (h : ¬ pad.Hears key down) :
    (pad.receive key down).pressed = pad.pressed := by
  rw [receive_eq_latch h, latch_pressed]

theorem isDown_receive (pad : Keypad) (key k : UInt8) (down : Bool) :
    (pad.receive key down).isDown k = if key = k ∧ k.toNat < 16 then down else pad.isDown k := by
  rw [← isDown_latch]
  cases down with
  | false => rfl
  | true =>
    simp only [receive, press]
    split <;> rfl

/-- An event that answers no request changes a latch, and changes it in the same way whatever
becomes of the request. -/
theorem receive_request {waiting : Bool} {pressed : Option UInt8} (h : ¬ pad.Hears key down)
    (hlater : ¬ Hears { pad with waiting, pressed } key down) :
    { pad.receive key down with waiting, pressed } =
      { pad with waiting, pressed }.receive key down := by
  rw [receive_eq_latch h, receive_eq_latch hlater]
  unfold latch
  split <;> rfl

end Keypad

namespace Machine

/-- The machine after a key went down or up. -/
def receive (m : Machine) (key : UInt8) (down : Bool) : Machine :=
  { m with keypad := m.keypad.receive key down }

/-- The next cycle and a key event do not go well together. -/
inductive Interferes (m : Machine) (key : UInt8) : Bool → Prop where
  /-- The machine waits, no press is on record, and the event is one that answers. -/
  | answers {x : Register} (hwaits : m.awaiting = some x) (hnone : m.keypad.pressed = none)
      (hkey : key.toNat < 16) : m.Interferes key true
  /-- The cycle opens the wait that the press would answer. -/
  | arms {x : Register} (hins : m.Executes (.waitKey x)) (hkey : key.toNat < 16) :
      m.Interferes key true
  /-- The cycle asks whether the key is down, and the event changes that. -/
  | skips {x : Register} {negated down : Bool} (hins : m.Executes (.skipKey x negated))
      (hread : m.registers.get x = key) (hkey : key.toNat < 16)
      (hchanges : (m.keypad.receive key down).isDown key ≠ m.keypad.isDown key) :
      m.Interferes key down

variable {m : Machine} {key : UInt8} {down : Bool}

theorem WellFormed.receive (h : m.WellFormed) (key : UInt8) (down : Bool) :
    (m.receive key down).WellFormed := by
  cases down with
  | true => exact h.press key
  | false => exact h.release key

theorem countCycle_receive (m : Machine) (key : UInt8) (down : Bool) :
    (m.receive key down).countCycle = m.countCycle.receive key down := by
  unfold countCycle receive
  dsimp only
  split <;> rfl

theorem sameButDevices_receive (m : Machine) (key : UInt8) (down : Bool) :
    m.SameButDevices (m.receive key down) := by
  constructor <;> rfl

/-! ## Where the order does not matter -/

/-- Outside of a wait no request is open. -/
theorem WellFormed.not_hears (h : m.WellFormed) (hidle : m.awaiting = none) :
    ¬ m.keypad.Hears key down := by
  intro hhears
  have hwaiting := h.waiting
  rw [hidle, hhears.waiting] at hwaiting
  cases hwaiting

/-- In a wait a press without interference comes after another one. -/
theorem not_hears_of_waiting {x : Register} (hx : m.awaiting = some x)
    (hfree : ¬ m.Interferes key down) : ¬ m.keypad.Hears key down := by
  rintro ⟨rfl, hkey, -, hnone⟩
  exact hfree (.answers hx hnone hkey)

variable {ins : Instruction}

/-- The latch that an instruction asks for is not the one that changes. -/
theorem skips_receive (hins : m.Executes ins) (hfree : ¬ m.Interferes key down) :
    (m.receive key down).skips ins = m.skips ins := by
  cases ins with
  | skipKey x negated =>
    have hsame : (m.keypad.receive key down).isDown (m.registers.get x) =
        m.keypad.isDown (m.registers.get x) := by
      by_cases hread : key = m.registers.get x ∧ (m.registers.get x).toNat < 16
      · obtain ⟨rfl, hkey⟩ := hread
        exact Decidable.byContradiction fun hchanges =>
          hfree (.skips hins rfl hkey hchanges)
      · rw [Keypad.isDown_receive, if_neg hread]
    exact congrArg (· != negated) hsame
  | _ => rfl

/-- The event finds its key in the same way before and after an instruction. -/
theorem keypadAfter_receive (h : m.WellFormed) (hins : m.Executes ins)
    (hfree : ¬ m.Interferes key down) :
    (m.receive key down).keypadAfter ins = (m.keypadAfter ins).receive key down := by
  cases ins with
  | waitKey x =>
    have hlater : ¬ m.keypad.beginWait.Hears key down := by
      rintro ⟨rfl, hkey, -, -⟩
      exact hfree (.arms hins hkey)
    exact Keypad.receive_request (h.not_hears hins.idle) hlater
  | _ => rfl

/-- An instruction that does not interfere does the same before and after the event. -/
theorem after_receive (h : m.WellFormed) (hins : m.Executes ins)
    (hfree : ¬ m.Interferes key down) (random : RandomWords) :
    (m.receive key down).advance.after random ins =
      (m.advance.after random ins).receive key down := by
  have hskips : (m.receive key down).advance.skips ins = m.advance.skips ins := by
    have hsame := skips_receive hins hfree
    cases ins <;> exact hsame
  have hkeypad : ((m.receive key down).advance.after random ins).keypad =
      (m.advance.after random ins).keypad.receive key down := by
    have hsame := keypadAfter_receive h hins hfree
    cases ins <;> exact hsame
  have hafter := (m.sameButDevices_receive key down).advance.after random hskips fun _ _ => rfl
  rw [hafter.eq, hkeypad]
  cases ins <;> rfl

/-- A cycle that does not interfere does the same before and after the event. -/
theorem cycle_receive (h : m.WellFormed) (hfree : ¬ m.Interferes key down)
    (random : RandomWords) :
    (m.cycle random).Agrees (fun a b => b = a.receive key down)
      ((m.receive key down).cycle random) := by
  apply cycle_coupled (n := m.receive key down) random h rfl
  · rintro a _ rfl
    exact a.sameButDevices_receive key down
  · intro x hx
    exact Keypad.receive_pressed (not_hears_of_waiting hx hfree)
  · intro x answer hx hpressed
    have hclosed : ¬ Keypad.Hears { m.keypad with waiting := false, pressed := none } key down :=
      fun hhears => Bool.false_ne_true hhears.waiting
    have hkeypad := Keypad.receive_request (not_hears_of_waiting hx hfree) hclosed
    simp only [receive, endWait, setRegister, hkeypad]
  · intro ins hins
    exact after_receive h hins hfree random
  · rintro a _ rfl
    exact a.countCycle_receive key down

/-! ## Where it does -/

theorem Executes.pc_of_skipKey {x : Register} {negated : Bool}
    (hins : m.Executes (.skipKey x negated)) (h : m.WellFormed) (random : RandomWords) :
    (m.cycle random).machine.pc =
      if m.keypad.isDown (m.registers.get x) != negated then m.pc + 2 + 2 else m.pc + 2 := by
  rw [hins.cycle_of_no_fault h random rfl (fun _ => nofun), countCycle_pc]
  rfl

/-- Where the program counter stands tells whether an instruction was passed over. -/
theorem skip_inj {pc : UInt16} {first second : Bool}
    (h : (if first then pc + 2 + 2 else pc + 2) = if second then pc + 2 + 2 else pc + 2) :
    first = second := by
  have hmoves : pc + 2 + 2 ≠ pc + 2 := by
    intro heq
    have hzero : (2 : UInt16) = 0 := UInt16.add_eq_left.mp heq
    exact absurd hzero (by decide)
  cases first <;> cases second
  · rfl
  · exact absurd h.symm hmoves
  · exact absurd h hmoves
  · rfl

/-- Interference shows in the result of the cycle or in the state. -/
theorem Interferes.shows (hinterferes : m.Interferes key down) (h : m.WellFormed)
    (random : RandomWords) :
    ((m.receive key down).cycle random).result ≠ (m.cycle random).result ∨
      ((m.receive key down).cycle random).machine ≠ (m.cycle random).machine.receive key down := by
  cases hinterferes with
  | @answers x hwaits hnone hkey =>
    have hlistening : m.keypad.waiting = true := by rw [← h.waiting, hwaits, Option.isSome_some]
    have hpressed : (m.receive key true).keypad.pressed = some key :=
      (m.keypad.press_pressed key).trans (if_pos ⟨hkey, hlistening, hnone⟩)
    -- Only the cycle that comes after the press ends the wait.
    left
    rw [cycle_of_unanswered hwaits hnone,
      cycle_of_answered (m := m.receive key true) hwaits hpressed]
    nofun
  | @arms x hins hkey =>
    have hbefore := (h.receive key true).pressed_after_cycle random
    have hafter : ((m.cycle random).machine.receive key true).keypad.pressed = some key := by
      rw [hins.cycle_of_waitKey]
      exact (Keypad.press_pressed _ key).trans (if_pos ⟨hkey, rfl, rfl⟩)
    -- Only the press that comes after the cycle is on record.
    right
    intro hsame
    rw [hsame, hafter] at hbefore
    cases hbefore
  | @skips x negated _ hins hread hkey hchanges =>
    subst hread
    have hins' := (m.sameButDevices_receive (m.registers.get x) down).executes hins
    have hbefore := hins'.pc_of_skipKey (h.receive _ down) random
    have hafter := hins.pc_of_skipKey h random
    -- The program counter is passed on by the event and tells which way the cycle went.
    right
    intro hsame
    rw [hsame] at hbefore
    have hskipped := skip_inj (hbefore.symm.trans hafter)
    exact hchanges (Bool.bne_left_inj.mp hskipped)

end Machine

namespace Console

/-- An event may come before the next cycle or after it, and nothing but the log tells. -/
def CommutesWithCycle (c : Console) (event : Operation) : Prop :=
  let cycled := c.perform .cycle
  let later := (c.perform event).console.perform .cycle
  later.answer = cycled.answer ∧ later.console = (cycled.console.perform event).console

theorem perform_keyEvent (c : Console) (key : UInt8) (down : Bool) :
    (c.perform (.keyEvent key down)).console = ⟨c.machine.receive key down, c.random⟩ := by
  cases down <;> rfl

variable {c : Console} {key : UInt8} {down : Bool}

theorem commutesWithCycle_iff :
    c.CommutesWithCycle (.keyEvent key down) ↔
      ((c.machine.receive key down).cycle c.random).result = (c.machine.cycle c.random).result ∧
        ((c.machine.receive key down).cycle c.random).machine =
          (c.machine.cycle c.random).machine.receive key down ∧
        ((c.machine.receive key down).cycle c.random).random =
          (c.machine.cycle c.random).random := by
  simp only [CommutesWithCycle, perform_keyEvent]
  simp only [perform, Answer.cycled.injEq, mk.injEq]

theorem commutes_of_free (h : c.machine.WellFormed) (hfree : ¬ c.machine.Interferes key down) :
    c.CommutesWithCycle (.keyEvent key down) := by
  have hagrees := Machine.cycle_receive h hfree c.random
  exact commutesWithCycle_iff.mpr ⟨hagrees.result, hagrees.machine, hagrees.random⟩

/-- A key event may be moved over as many cycles as do not interfere with it. -/
theorem keyEvent_over_cycles (h : c.machine.WellFormed) {count : Nat}
    (hfree : ∀ k, k < count →
      ¬ (c.run (.replicate k .cycle)).machine.Interferes key down) :
    let cycles := List.replicate count Operation.cycle
    let early := (c.perform (.keyEvent key down)).console
    (early.reports cycles).map OperationReport.answer =
        (c.reports cycles).map OperationReport.answer ∧
      early.run cycles = ((c.run cycles).perform (.keyEvent key down)).console := by
  induction count generalizing c with
  | zero => exact ⟨rfl, rfl⟩
  | succ count ih =>
    intro cycles early
    obtain ⟨hanswer, hconsole⟩ := commutes_of_free h (hfree 0 (Nat.succ_pos count))
    have hlater : ∀ k, k < count →
        ¬ ((c.perform .cycle).console.run (.replicate k .cycle)).machine.Interferes key down :=
      fun k hk => hfree (k + 1) (Nat.succ_lt_succ hk)
    obtain ⟨hanswers, hrun⟩ := ih (h.cycle c.random) hlater
    simp only [cycles, early, List.replicate_succ, reports_cons, List.map_cons, run_cons]
    rw [hconsole, hanswer, hanswers, hrun]
    exact ⟨rfl, rfl⟩

/-- The order of a key event and a cycle shows exactly if the cycle takes the press as an answer,
opens the wait that the press would answer, or skips by the latch that the event changes. -/
theorem keyEvent_commutes_iff {m : Machine} (h : m.Reachable) (random : RandomWords) (key : UInt8)
    (down : Bool) :
    CommutesWithCycle ⟨m, random⟩ (.keyEvent key down) ↔ ¬ m.Interferes key down := by
  constructor
  · intro hcommutes hinterferes
    obtain ⟨hresult, hmachine, -⟩ := commutesWithCycle_iff.mp hcommutes
    rcases hinterferes.shows h.wellFormed random with hother | hother
    · exact hother hresult
    · exact hother hmachine
  · exact commutes_of_free (c := ⟨m, random⟩) h.wellFormed

/-- Where the program skips by key 0, the events of that key have to stay where they are if they
change something, and all others may be moved. -/
theorem skip_by_key_zero :
    let m := ((fresh .standard fun _ => 0).run [.load #[0xE0, 0x9E]]).machine
    let random := RandomWords.ofSequence fun _ => 0
    m.Reachable ∧ m.Executes (.skipKey 0 false) ∧
      ¬ CommutesWithCycle ⟨m, random⟩ (.press 0) ∧
      CommutesWithCycle ⟨m, random⟩ (.release 0) ∧
      CommutesWithCycle ⟨m, random⟩ (.press 1) := by
  obtain ⟨loaded, hrun, hreached, hstands, hloaded, -⟩ :=
    exists_loaded .standard (fun _ => 0) (show (#[0xE0, 0x9E] : Array UInt8).size ≤ _ by decide)
  rw [hrun]
  intro m random
  have hreach : m.Reachable := hreached []
  have hstart : m.Stands #[0xE0, 0x9E] 0 := hstands
  have hins : m.Executes (.skipKey 0 false) := hstart.executes (by decide) (by decide)
  have hm : m = Machine.loaded .standard #[0xE0, 0x9E] := hloaded
  have hget : m.registers.get 0 = 0 := hm ▸ Machine.registers_loaded .standard _ 0
  have hup : m.keypad = .idle := by rw [hm]; rfl
  refine ⟨hreach, hins, ?_, ?_, ?_⟩
  · intro hcommutes
    have hchanges : (m.keypad.receive 0 true).isDown 0 ≠ m.keypad.isDown 0 := by
      rw [hup]
      decide
    exact (keyEvent_commutes_iff hreach random 0 true).mp hcommutes
      (.skips hins hget (by decide) hchanges)
  · refine (keyEvent_commutes_iff hreach random 0 false).mpr ?_
    rintro (_ | _ | ⟨-, -, -, hchanges⟩)
    rw [hup] at hchanges
    exact hchanges (by decide)
  · refine (keyEvent_commutes_iff hreach random 1 true).mpr ?_
    rintro (⟨hwaits, -, -⟩ | ⟨hother, -⟩ | ⟨hother, hread, -, -⟩)
    · rw [hstart.idle] at hwaits
      cases hwaits
    · cases hins.unique hother
    · cases hins.unique hother
      rw [hget] at hread
      cases hread

end Console

end ChipEight
