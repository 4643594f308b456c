import Mathlib

/-! Programs as finite trees of atomic operations on a shared state.
A program performs one operation, receives its answer and continues. The same
program can run alone, run under injected faults, or interleave with others. -/
namespace ProgramSteps

inductive Prog (Op : Type) (Res : Op → Type) (α : Type) where
  | pure (a : α)
  | op (o : Op) (k : Res o → Prog Op Res α)
  /-- a local computation that never returns -/
  | diverge

variable {Op : Type} {Res : Op → Type} {α β σ ι : Type}

namespace Prog

def bind : Prog Op Res α → (α → Prog Op Res β) → Prog Op Res β
  | .pure a, f => f a
  | .op o k, f => .op o fun r => (k r).bind f
  | .diverge, _ => .diverge

instance : Monad (Prog Op Res) where
  pure := .pure
  bind := .bind

def perform (o : Op) : Prog Op Res (Res o) := .op o .pure

variable {p : Prog Op Res α} (f : α → Prog Op Res β) {Q : α → σ → Prop} {o : Op} {r : Res o}

@[simp] theorem pure_bind_eq (a : α) : (Pure.pure a >>= f : Prog Op Res β) = f a := rfl

@[simp] theorem op_bind_eq (o : Op) (k : Res o → Prog Op Res α) (f : α → Prog Op Res β) :
    (Prog.op o k >>= f) = .op o fun r => k r >>= f := rfl

@[simp] theorem diverge_bind_eq : (Prog.diverge >>= f) = .diverge := rfl

@[simp] theorem perform_bind_eq (o : Op) (f : Res o → Prog Op Res β) :
    (perform o >>= f) = .op o f := rfl

theorem bind_ne_pure {f : α → Prog Op Res β} {b : β} (hf : ∀ a, f a ≠ .pure b)
    (p : Prog Op Res α) : (p >>= f) ≠ .pure b := by
  cases p with
  | pure a => exact hf a
  | op o k | diverge => exact nofun

theorem bind_assoc_eq {γ : Type} (p : Prog Op Res α) (f : α → Prog Op Res β)
    (g : β → Prog Op Res γ) : (p >>= f) >>= g = p >>= fun a => f a >>= g := by
  induction p with
  | pure a | diverge => rfl
  | op o k ih =>
    simp only [op_bind_eq]
    congr 1
    funext r
    exact ih r

end Prog

open Prog Option

/-- One atomic operation on the shared state; `none` means that it must wait. -/
abbrev Handler (Op : Type) (Res : Op → Type) (σ : Type) := (o : Op) → σ → Option (Res o × σ)

/-- The program run alone, without interference. -/
def run (h : Handler Op Res σ) : Prog Op Res α → σ → Option (α × σ)
  | .pure a, s => some (a, s)
  | .op o k, s => (h o s).bind fun p => run h (k p.1) p.2
  | .diverge, _ => none

section

variable (h : Handler Op Res σ)
include h

@[simp] theorem run_diverge (s : σ) :
    run h (.diverge : Prog Op Res α) s = none := rfl

@[simp] theorem run_pure (a : α) (s : σ) :
    run h (Pure.pure a : Prog Op Res α) s = some (a, s) := rfl

@[simp] theorem run_pure_ctor (a : α) (s : σ) :
    run h (.pure a : Prog Op Res α) s = some (a, s) := rfl

theorem run_op (o : Op) (k : Res o → Prog Op Res α) (s : σ) :
    run h (.op o k) s = (h o s).bind fun p => run h (k p.1) p.2 := rfl

theorem run_perform (o : Op) (s : σ) : run h (perform o) s = h o s := by
  simp only [perform, run]
  cases h o s <;> rfl

theorem run_bind (p : Prog Op Res α) (f : α → Prog Op Res β) (s : σ) :
    run h (p >>= f) s = (run h p s).bind fun q => run h (f q.1) q.2 := by
  induction p generalizing s with
  | pure a | diverge => rfl
  | op o k ih =>
    simp only [op_bind_eq, run_op, bind_assoc]
    cases h o s with
    | none => rfl
    | some q => exact ih q.1 q.2

end

/-- Every terminating run of the program from this state satisfies the postcondition. -/
def wp (h : Handler Op Res σ) (p : Prog Op Res α) (Q : α → σ → Prop) (s : σ) : Prop :=
  ∀ a s', run h p s = some (a, s') → Q a s'

variable {h : Handler Op Res σ} {s : σ}

theorem wp_pure {a : α} : wp h (Pure.pure a) Q s ↔ Q a s := by
  constructor
  · intro w; exact w a s rfl
  · intro q b s' e
    cases e
    exact q

theorem wp_diverge : wp h (.diverge : Prog Op Res α) Q s := by
  nofun

theorem wp_op {k : Res o → Prog Op Res α} {Q : α → σ → Prop} :
    wp h (.op o k) Q s ↔ ∀ r s', h o s = some (r, s') → wp h (k r) Q s' := by
  constructor
  · intro w r s' e a s'' e'
    exact w a s'' (by rw [run_op, e]; exact e')
  · intro w a s'' e
    rw [run_op] at e
    obtain ⟨⟨r, s'⟩, hr, e'⟩ := bind_eq_some_iff.mp e
    exact w r s' hr a s'' e'

theorem wp_perform {Q : Res o → σ → Prop} :
    wp h (perform o) Q s ↔ ∀ r s', h o s = some (r, s') → Q r s' := by
  simp only [wp, run_perform]

theorem wp_bind {f : α → Prog Op Res β} {Q : β → σ → Prop} :
    wp h (p >>= f) Q s ↔ wp h p (fun a s' => wp h (f a) Q s') s := by
  constructor
  · intro w a s' e b s'' e'
    exact w b s'' (by rw [run_bind, e]; exact e')
  · intro w b s'' e
    rw [run_bind] at e
    obtain ⟨⟨a, s'⟩, ha, e'⟩ := bind_eq_some_iff.mp e
    exact w a s' ha b s'' e'

theorem wp_mono {P Q : α → σ → Prop} (w : wp h p P s) (hPQ : ∀ a s', P a s' → Q a s') :
    wp h p Q s :=
  fun a s' e => hPQ a s' (w a s' e)

theorem wp_and {P Q : α → σ → Prop} (w : wp h p P s) (w' : wp h p Q s) :
    wp h p (fun a s' => P a s' ∧ Q a s') s :=
  fun a s' e => ⟨w a s' e, w' a s' e⟩

/-- A state together with what the environment has in store for the coming fallible
operations, in order: `none` lets one pass, `some e` makes it fail with `e`. -/
structure Faulty (σ ε : Type) where
  state : σ
  faults : List (Option ε)

/-- `onFault` gives the answer and the state left behind by a failing operation;
an operation it maps to `none` never fails and consumes no outcome. -/
def withFaults {ε : Type} (h : Handler Op Res σ)
    (onFault : (o : Op) → Option (ε → σ → Res o × σ)) : Handler Op Res (Faulty σ ε) :=
  fun o s =>
    match onFault o, s.faults with
    | some fail, some e :: fs => some ((fail e s.state).1, ⟨(fail e s.state).2, fs⟩)
    | some _, none :: fs => (h o s.state).map fun p => (p.1, ⟨p.2, fs⟩)
    | _, fs => (h o s.state).map fun p => (p.1, ⟨p.2, fs⟩)

namespace Faulty

variable {ε : Type}

/-- What the environment does to the coming fallible operations, counted from 0. -/
def nth (s : Faulty σ ε) (i : ℕ) : Option ε := s.faults.getD i none

def next (s : Faulty σ ε) : Option ε := s.nth 0

/-- The state after one fallible operation. -/
def after (s : Faulty σ ε) (t : σ) : Faulty σ ε := ⟨t, s.faults.tail⟩

@[simp] theorem after_state (s : Faulty σ ε) (t : σ) : (s.after t).state = t := rfl

@[simp] theorem after_faults (s : Faulty σ ε) (t : σ) : (s.after t).faults = s.faults.tail := rfl

@[simp] theorem after_nth (s : Faulty σ ε) (t : σ) (i : ℕ) : (s.after t).nth i = s.nth (i + 1) := by
  obtain ⟨_, faults⟩ := s
  cases faults <;> rfl

end Faulty

section FaultRules

variable {ε : Type} {h : Handler Op Res σ} {onFault : (o : Op) → Option (ε → σ → Res o × σ)}
  {o : Op} {s : Faulty σ ε} {fail : ε → σ → Res o × σ}

theorem withFaults_fail {e : ε} (hf : onFault o = some fail) (hn : s.next = some e) :
    withFaults h onFault o s = some ((fail e s.state).1, s.after (fail e s.state).2) := by
  obtain ⟨t, faults⟩ := s
  rcases faults with _ | ⟨_ | x, fs⟩
  · cases hn
  · cases hn
  · cases hn
    simp only [withFaults, hf]
    rfl

theorem withFaults_pass (hf : onFault o = some fail) (hn : s.next = none) :
    withFaults h onFault o s = (h o s.state).map fun p => (p.1, s.after p.2) := by
  obtain ⟨t, faults⟩ := s
  rcases faults with _ | ⟨_ | x, fs⟩
  · simp only [withFaults, hf]
    rfl
  · simp only [withFaults, hf]
    rfl
  · cases hn

theorem withFaults_infallible (hf : onFault o = none) :
    withFaults h onFault o s = (h o s.state).map fun p => (p.1, ⟨p.2, s.faults⟩) := by
  simp only [withFaults, hf]

/-- A fallible operation: the program goes on from the failure and from the success. -/
theorem wp_fallible {k : Res o → Prog Op Res α} {Q : α → Faulty σ ε → Prop}
    (hf : onFault o = some fail) (hfail : ∀ e, s.next = some e →
      wp (withFaults h onFault) (k (fail e s.state).1) Q (s.after (fail e s.state).2))
    (hpass : s.next = none → ∀ r t, h o s.state = some (r, t) →
      wp (withFaults h onFault) (k r) Q (s.after t)) :
    wp (withFaults h onFault) (.op o k) Q s := by
  rw [wp_op]
  intro r t e
  cases hn : s.next with
  | some x =>
    rw [withFaults_fail hf hn] at e
    cases e
    exact hfail x hn
  | none =>
    rw [withFaults_pass hf hn] at e
    obtain ⟨p, hp, he⟩ := map_eq_some_iff.mp e
    cases he
    exact hpass hn _ _ hp

theorem wp_infallible {k : Res o → Prog Op Res α} {Q : α → Faulty σ ε → Prop}
    (hf : onFault o = none)
    (hpass : ∀ r t, h o s.state = some (r, t) → wp (withFaults h onFault) (k r) Q ⟨t, s.faults⟩) :
    wp (withFaults h onFault) (.op o k) Q s := by
  rw [wp_op]
  intro r t e
  rw [withFaults_infallible hf] at e
  obtain ⟨p, hp, he⟩ := map_eq_some_iff.mp e
  cases he
  exact hpass _ _ hp

end FaultRules

/-- An operation under faults either fails or does what it does without faults. -/
theorem withFaults_cases {ε : Type} {onFault : (o : Op) → Option (ε → σ → Res o × σ)}
    {s t : Faulty σ ε} (e : withFaults h onFault o s = some (r, t)) :
    (∃ fail x, onFault o = some fail ∧ (r, t.state) = fail x s.state) ∨
      h o s.state = some (r, t.state) := by
  unfold withFaults at e
  split at e
  · rename_i fail x fs hf hs
    cases e
    exact .inl ⟨fail, x, hf, rfl⟩
  all_goals
    obtain ⟨p, hp, he⟩ := map_eq_some_iff.mp e
    cases he
    exact .inr hp

/-- The same, with the reason of the failure: there was a fault left. -/
theorem withFaults_why {ε : Type} {onFault : (o : Op) → Option (ε → σ → Res o × σ)}
    {s t : Faulty σ ε} (e : withFaults h onFault o s = some (r, t)) :
    (s.faults ≠ [] ∧ ∃ fail x, onFault o = some fail ∧ (r, t.state) = fail x s.state) ∨
      h o s.state = some (r, t.state) := by
  by_cases hnil : s.faults = []
  · right
    unfold withFaults at e
    rw [hnil] at e
    cases hf : onFault o <;> rw [hf] at e
    all_goals
      obtain ⟨p, hp, he⟩ := map_eq_some_iff.mp e
      cases he
      exact hp
  · exact (withFaults_cases e).imp (fun hfail => ⟨hnil, hfail⟩) id

theorem withFaults_nil {ε : Type} {onFault : (o : Op) → Option (ε → σ → Res o × σ)}
    {s t : Faulty σ ε} (e : withFaults h onFault o s = some (r, t)) (hnil : s.faults = []) :
    t.faults = [] := by
  unfold withFaults at e
  rw [hnil] at e
  cases hf : onFault o <;> rw [hf] at e
  all_goals
    obtain ⟨p, -, he⟩ := map_eq_some_iff.mp e
    cases he
    rfl

/-- Once the fault list is used up the program runs as it does without faults. -/
theorem run_withFaults_nil {ε : Type} (h : Handler Op Res σ)
    (onFault : (o : Op) → Option (ε → σ → Res o × σ)) (p : Prog Op Res α) (s : σ) :
    run (withFaults h onFault) p ⟨s, []⟩ = (run h p s).map fun q => (q.1, ⟨q.2, []⟩) := by
  induction p generalizing s with
  | pure a | diverge => rfl
  | op o k ih =>
    simp only [run_op]
    have hw : withFaults h onFault o ⟨s, []⟩ =
        (h o s).map fun q => (q.1, (⟨q.2, []⟩ : Faulty σ ε)) := by
      simp only [withFaults]
      cases onFault o <;> rfl
    rw [hw]
    cases h o s with
    | none => rfl
    | some q => exact ih q.1 q.2

end ProgramSteps
