import ChipEight.Phosphor
import Mathlib.Data.List.Induction

/-!
# Afterglow

Every pixel of the phosphor has a state of its own, so what it shows follows from its own past
(`Phosphor.glow_run`). Of this past the last update that found it lit is a clean cut: the one behind
it starts a new age, whatever came before (`Glow.run_darkened`). Nothing is asked of the numbers
here, so all of it holds also for those that are none.
-/
namespace ChipEight

/-- A frame to be shown, and the seconds since the one before it. -/
structure Showing where
  frame : Frame
  seconds : Float32

/-- What a pixel sees of a showing: whether it is on, and the seconds. -/
def Showing.pixel (cell : Fin 2048) (showing : Showing) : Bool × Float32 :=
  (showing.frame.lit cell, showing.seconds)

/-- Since the update that switched a pixel off for the last time, updates with these seconds have
found it off. -/
def OffFor (showings : List Showing) (cell : Fin 2048) (seconds : List Float32) : Prop :=
  ∃ earlier shown darkened later,
    showings = earlier ++ shown :: darkened :: later ∧ shown.frame.lit cell = true ∧
      darkened.frame.lit cell = false ∧ (∀ showing ∈ later, showing.frame.lit cell = false) ∧
      seconds = later.map Showing.seconds

/-- A pixel that is off was always off, or was switched off for a last time. -/
theorem offFor_cases (showings : List Showing) (cell : Fin 2048) :
    (∀ showing ∈ showings, showing.frame.lit cell = false) ∨
      (∃ earlier last, showings = earlier ++ [last] ∧ last.frame.lit cell = true) ∨
      ∃ seconds, OffFor showings cell seconds := by
  induction showings using List.reverseRecOn with
  | nil => exact Or.inl (by simp)
  | append_singleton showings next ih =>
    cases hnext : next.frame.lit cell with
    | true => exact Or.inr (Or.inl ⟨showings, next, rfl, hnext⟩)
    | false =>
      rcases ih with hoff | ⟨earlier, last, rfl, hlast⟩ | ⟨seconds, hcut⟩
      · exact Or.inl (by simpa [or_imp, forall_and] using ⟨hoff, hnext⟩)
      · exact Or.inr (Or.inr ⟨[], earlier, last, next, [], by simp, hlast, hnext, by simp, rfl⟩)
      · obtain ⟨earlier, shown, darkened, later, rfl, hshown, hdarkened, hlater, rfl⟩ := hcut
        refine Or.inr (Or.inr ⟨_, earlier, shown, darkened, later ++ [next], by simp, hshown,
          hdarkened, ?_, rfl⟩)
        simpa [or_imp, forall_and] using ⟨hlater, hnext⟩

namespace Glow

/-- State after updates that find the pixel on or off and pass some seconds; `aging` is what these
add to its age. -/
def run (aging : Float32 → Float32) (glow : Glow) (past : List (Bool × Float32)) : Glow :=
  past.foldl (fun glow seen => glow.step seen.1 (aging seen.2)) glow

variable {aging : Float32 → Float32}

@[simp] theorem step_on (glow : Glow) (age : Float32) : glow.step true age = .lit := rfl

@[simp] theorem step_dark (age : Float32) : dark.step false age = .dark := rfl

/-- Switching off starts at age zero, whatever time has passed. -/
@[simp] theorem step_lit (age : Float32) : lit.step false age = .fading 0 := rfl

theorem step_of_young (age aging : Float32) (h : ¬ 1 ≤ age) :
    (fading age).step false aging = .fading (age + aging) :=
  if_neg h

theorem step_of_age (age aging : Float32) (h : 1 ≤ age) :
    (fading age).step false aging = .dark :=
  if_pos h

@[simp] theorem run_nil (glow : Glow) : run aging glow [] = glow := rfl

@[simp] theorem run_cons (glow : Glow) (seen : Bool × Float32) (rest : List (Bool × Float32)) :
    run aging glow (seen :: rest) = run aging (glow.step seen.1 (aging seen.2)) rest := rfl

theorem run_append (glow : Glow) (first later : List (Bool × Float32)) :
    run aging glow (first ++ later) = run aging (run aging glow first) later :=
  List.foldl_append

/-- What is dark stays dark while it is off. -/
theorem run_dark {past : List (Bool × Float32)} (h : ∀ seen ∈ past, seen.1 = false) :
    run aging .dark past = .dark := by
  induction past with
  | nil => rfl
  | cons seen rest ih =>
    have hoff : seen.1 = false := h seen List.mem_cons_self
    rw [run_cons, hoff, step_dark]
    exact ih fun later hlater => h later (List.mem_cons_of_mem _ hlater)

theorem run_on (glow : Glow) (past : List (Bool × Float32)) (dt : Float32) :
    run aging glow (past ++ [(true, dt)]) = .lit :=
  run_append glow past _

/-- On and then off: here the past is forgotten. -/
theorem run_darkened (glow : Glow) (past later : List (Bool × Float32)) (on off : Float32) :
    run aging glow (past ++ (true, on) :: (false, off) :: later) = run aging (.fading 0) later :=
  run_append glow past _

/-- A pixel that is found off at the age of one or more is dark until it is lit again. -/
theorem run_of_age {past later : List (Bool × Float32)} {glow : Glow} {age dt : Float32}
    (h : run aging glow past = .fading age) (hage : 1 ≤ age)
    (hoff : ∀ seen ∈ later, seen.1 = false) :
    run aging glow (past ++ (false, dt) :: later) = .dark := by
  rw [run_append, h, run_cons, step_of_age _ _ hage]
  exact run_dark hoff

end Glow

namespace Phosphor

/-- Screen after a list of showings. -/
def run (screen : Phosphor) (showings : List Showing) : Phosphor :=
  showings.foldl (fun screen showing => screen.update showing.frame showing.seconds) screen

variable {showings : List Showing} {cell : Fin 2048}

@[simp] theorem run_cons (screen : Phosphor) (showing : Showing) (rest : List Showing) :
    screen.run (showing :: rest) = (screen.update showing.frame showing.seconds).run rest := by
  rw [run, List.foldl_cons, run]

theorem aging_update (screen : Phosphor) (frame : Frame) (dt : Float32) :
    (screen.update frame dt).aging = screen.aging := by
  funext seconds
  rw [aging, aging, update]

theorem glow_update (screen : Phosphor) (frame : Frame) (dt : Float32) (cell : Fin 2048) :
    (screen.update frame dt).glow.get cell =
      (screen.glow.get cell).step (frame.lit cell) (screen.aging dt) :=
  Vector.getElem_ofFn cell.isLt

/-- A pixel is run by its own past. -/
theorem glow_run (screen : Phosphor) (showings : List Showing) (cell : Fin 2048) :
    (screen.run showings).glow.get cell =
      (screen.glow.get cell).run screen.aging (showings.map (Showing.pixel cell)) := by
  induction showings generalizing screen with
  | nil => rfl
  | cons showing rest ih =>
    rw [run_cons, ih, glow_update, aging_update, List.map_cons, Glow.run_cons, Showing.pixel]

theorem glow_fresh (decay : Float32) (cell : Fin 2048) : (fresh decay).glow.get cell = .dark :=
  Vector.getElem_replicate cell.isLt

/-- What a pixel shows on a screen that was new. -/
theorem intensity_run (decay : Float32) (showings : List Showing) (cell : Fin 2048) :
    ((fresh decay).run showings).intensity cell =
      (Glow.dark.run (fresh decay).aging (showings.map (Showing.pixel cell))).intensity := by
  rw [intensity, glow_run, glow_fresh]

/-- A pixel that is off sees nothing but the seconds. -/
theorem map_pixel_of_off (h : ∀ showing ∈ showings, showing.frame.lit cell = false) :
    showings.map (Showing.pixel cell) =
      (showings.map Showing.seconds).map fun seconds => (false, seconds) := by
  rw [List.map_map]
  refine List.map_congr_left fun showing hmem => ?_
  rw [Showing.pixel, h showing hmem, Function.comp_apply]

theorem off_of_mem_map_pixel (h : ∀ showing ∈ showings, showing.frame.lit cell = false) :
    ∀ seen ∈ showings.map (Showing.pixel cell), seen.1 = false := by
  simpa [Showing.pixel] using h

/-- What a pixel shows is a matter of the decay time, the seconds, and its own past. It is one if
the last showing has it on, and zero if none ever had. Otherwise it was switched off for a last
time, and the seconds since then are all that matters. Once it was found off at an age of one or
more it shows nothing until it is on again. -/
theorem decay_local_and_forgetful (decay : Float32) :
    let intensity := fun showings cell => ((fresh decay).run showings).intensity cell
    (∃ shade : List (Bool × Float32) → Float32, ∀ showings cell,
        intensity showings cell = shade (showings.map (Showing.pixel cell))) ∧
      (∀ earlier last cell, last.frame.lit cell = true → intensity (earlier ++ [last]) cell = 1) ∧
      (∀ showings cell, (∀ showing ∈ showings, showing.frame.lit cell = false) →
        intensity showings cell = 0) ∧
      (∃ fade : List Float32 → Float32, ∀ showings cell seconds, OffFor showings cell seconds →
        intensity showings cell = fade seconds) ∧
      (∀ showings cell, (∀ showing ∈ showings, showing.frame.lit cell = false) ∨
        (∃ earlier last, showings = earlier ++ [last] ∧ last.frame.lit cell = true) ∨
        ∃ seconds, OffFor showings cell seconds) ∧
      ∀ earlier found later cell age, ((fresh decay).run earlier).glow.get cell = .fading age →
        1 ≤ age → (∀ showing ∈ found :: later, showing.frame.lit cell = false) →
          intensity (earlier ++ found :: later) cell = 0 := by
  intro intensity
  let glow := Glow.run (fresh decay).aging
  refine ⟨⟨fun past => (glow .dark past).intensity, intensity_run decay⟩, ?_, ?_,
    ⟨fun seconds => (glow (.fading 0) (seconds.map fun dt => (false, dt))).intensity, ?_⟩,
    offFor_cases, ?_⟩
  · intro earlier last cell hon
    refine (intensity_run decay _ cell).trans ?_
    rw [List.map_append, List.map_singleton, Showing.pixel, hon, Glow.run_on]
    rfl
  · intro showings cell hoff
    refine (intensity_run decay _ cell).trans ?_
    rw [Glow.run_dark (off_of_mem_map_pixel hoff)]
    rfl
  · rintro showings cell seconds ⟨earlier, shown, darkened, later, rfl, hon, hoff, hlater, rfl⟩
    refine (intensity_run decay _ cell).trans ?_
    have hshown : shown.pixel cell = (true, shown.seconds) := by rw [Showing.pixel, hon]
    have hdarkened : darkened.pixel cell = (false, darkened.seconds) := by rw [Showing.pixel, hoff]
    rw [List.map_append, List.map_cons, List.map_cons, hshown, hdarkened, Glow.run_darkened,
      map_pixel_of_off hlater]
  · intro earlier found later cell age hage hone hoff
    refine (intensity_run decay _ cell).trans ?_
    rw [glow_run, glow_fresh] at hage
    have hfound : found.pixel cell = (false, found.seconds) := by
      rw [Showing.pixel, hoff found List.mem_cons_self]
    have hlater := off_of_mem_map_pixel fun showing hmem =>
      hoff showing (List.mem_cons_of_mem _ hmem)
    rw [List.map_append, List.map_cons, hfound, Glow.run_of_age hage hone hlater]
    rfl

/-- Every pixel on. -/
def white : Frame := ⟨Vector.replicate 2048 true⟩

/-- Without a decay time each update is a full age, so the third update that finds a pixel off
makes it dark, and one after it that takes no number of seconds leaves it so. -/
theorem full_age_ends_glow :
    let earlier : List Showing := [⟨white, 0⟩, ⟨.blank, 0⟩, ⟨.blank, 0⟩]
    let later : List Showing := [⟨.blank, 0⟩, ⟨.blank, 0 / 0⟩]
    ((fresh 0).run earlier).glow.get 5 = .fading 1 ∧ (1 : Float32) ≤ 1 ∧
      ((fresh 0).run (earlier ++ later)).intensity 5 = 0 := by
  intro earlier later
  have hwhite : white.lit 5 = true := Vector.getElem_replicate _
  have hblank : Frame.blank.lit 5 = false := Frame.lit_blank 5
  have haging : (fresh 0).aging 0 = 1 := by decide
  have hyoung : ¬ (1 : Float32) ≤ 0 := by decide
  have hone : (0 : Float32) + 1 = 1 := by decide
  have hage : ((fresh 0).run earlier).glow.get 5 = .fading 1 := by
    rw [glow_run, glow_fresh]
    simp only [earlier, List.map_cons, List.map_nil, Showing.pixel, hwhite, hblank, Glow.run_cons,
      Glow.run_nil, Glow.step_on, Glow.step_lit, haging, Glow.step_of_young _ _ hyoung, hone]
  obtain ⟨-, -, -, -, -, hends⟩ := decay_local_and_forgetful 0
  refine ⟨hage, by decide, hends earlier ⟨.blank, 0⟩ [⟨.blank, 0 / 0⟩] 5 1 hage (by decide) ?_⟩
  simp [hblank]

end Phosphor

end ChipEight
