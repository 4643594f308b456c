import Mathlib

/-! Systems whose actions may be enabled or not. A schedule takes any enabled action after the
other; a property is inevitable when every schedule comes to a state with it. -/
namespace EnabledSteps

variable {S A : Type*} (step : A → S → Option S)

inductive Reachable (s : S) : S → Prop where
  | refl : Reachable s s
  | tail {t u : S} {action : A} : Reachable s t → step action t = some u → Reachable s u

/-- One schedule. -/
def run : List A → S → Option S
  | [], s => some s
  | action :: actions, s => (step action s).bind (run actions)

/-- Every schedule comes to a state with the property and is not stuck before. -/
inductive Inevitable (P : S → Prop) : S → Prop where
  | now {s : S} : P s → Inevitable P s
  | later {s : S} : (∃ action t, step action s = some t) →
      (∀ action t, step action s = some t → Inevitable P t) → Inevitable P s

variable {step} {Inv P : S → Prop}

theorem Reachable.head {s t u : S} {action : A} (hstep : step action s = some t)
    (h : Reachable step t u) : Reachable step s u := by
  induction h with
  | refl => exact .tail .refl hstep
  | tail _ hlast ih => exact .tail ih hlast

theorem reachable_of_run (actions : List A) {s t : S} (h : run step actions s = some t) :
    Reachable step s t := by
  induction actions generalizing s with
  | nil =>
    cases h
    exact .refl
  | cons action actions ih =>
    obtain ⟨u, hstep, hrest⟩ := Option.bind_eq_some_iff.mp h
    exact (ih hrest).head hstep

theorem Reachable.invariant {s t : S} (hkeep : ∀ action s t, Inv s → step action s = some t → Inv t)
    (hs : Inv s) (h : Reachable step s t) : Inv t := by
  induction h with
  | refl => exact hs
  | tail _ hstep ih => exact hkeep _ _ _ ih hstep

/-- A system that can always move and has less work after each step finishes. -/
theorem inevitable_of_work (work : S → ℕ)
    (hkeep : ∀ action s t, Inv s → step action s = some t → Inv t)
    (hmove : ∀ s, Inv s → ¬ P s → ∃ action t, step action s = some t)
    (hless : ∀ action s t, step action s = some t → work t < work s) (s : S) (hs : Inv s) :
    Inevitable step P s := by
  induction hwork : work s using Nat.strongRecOn generalizing s with
  | ind amount ih =>
    by_cases hP : P s
    · exact .now hP
    · refine .later (hmove s hs hP) fun action t hstep => ?_
      have hlt : work t < amount := hwork ▸ hless action s t hstep
      exact ih (work t) hlt t (hkeep action s t hs hstep) rfl

end EnabledSteps
