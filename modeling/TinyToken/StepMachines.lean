import Mathlib

/-! Machines that take one call after the other: the state after a list of calls, and what
holds in the state before each call. -/
namespace StepMachines

variable {S E R : Type*} (step : S → E → R × S)

/-- The state after the calls of a list. -/
def after : S → List E → S
  | s, [] => s
  | s, e :: es => after (step s e).2 es

/-- Each call of a list meets a condition in the state in which it is made. -/
def Along (P : S → E → Prop) : S → List E → Prop
  | _, [] => True
  | s, e :: es => P s e ∧ Along P (step s e).2 es

variable {step}

@[simp] theorem after_nil (s : S) : after step s [] = s := rfl

@[simp] theorem after_cons (s : S) (e : E) (es : List E) :
    after step s (e :: es) = after step (step s e).2 es := rfl

instance decidableAlong {P : S → E → Prop} [∀ s e, Decidable (P s e)] :
    (s : S) → (es : List E) → Decidable (Along step P s es)
  | _, [] => isTrue trivial
  | s, e :: es =>
    have : Decidable (Along step P (step s e).2 es) := decidableAlong (step s e).2 es
    inferInstanceAs (Decidable (P s e ∧ Along step P (step s e).2 es))

theorem along_of_forall {P : E → Prop} {es : List E} (h : ∀ e ∈ es, P e) (s : S) :
    Along step (fun _ => P) s es := by
  induction es generalizing s with
  | nil => trivial
  | cons e es ih =>
    have hrest : ∀ e' ∈ es, P e' := fun e' he' => h e' (List.mem_cons_of_mem e he')
    exact ⟨h e List.mem_cons_self, ih hrest _⟩

/-- What a call under the condition keeps, a list of such calls keeps. -/
theorem invariant_after {P : S → E → Prop} {Inv : S → Prop}
    (hstep : ∀ s e, Inv s → P s e → Inv (step s e).2) {s : S} {es : List E} (hs : Inv s)
    (hes : Along step P s es) : Inv (after step s es) := by
  induction es generalizing s with
  | nil => exact hs
  | cons e es ih => exact ih (hstep s e hs hes.1) hes.2

end StepMachines
