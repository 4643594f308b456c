import TinyToken.InterleavedPrograms

/-! Monitors: what a program keeps in mind of its own operations and their answers, and which
operations it performs then. A monitored program follows its monitor whatever the answers
are, hence also in every interleaving with other programs. -/
namespace ProgramMonitors

open ProgramSteps InterleavedPrograms Prog

variable {Op : Type} {Res : Op → Type} {α β σ μ ι : Type}

structure Monitor (Op : Type) (Res : Op → Type) (μ : Type) where
  note : μ → (o : Op) → Res o → μ
  allows : μ → Op → Prop

namespace Monitor

/-- Every operation is allowed by what was noted before, and the program ends with the
postcondition. -/
def holds (M : Monitor Op Res μ) : Prog Op Res α → (α → μ → Prop) → μ → Prop
  | .pure a, Q, m => Q a m
  | .op o k, Q, m => M.allows m o ∧ ∀ r, holds M (k r) Q (M.note m o r)
  | .diverge, _, _ => True

/-- What a thread has noted of its past. -/
def replay (M : Monitor Op Res μ) (m : μ) (past : List (Seen Op Res σ)) : μ :=
  past.foldl (fun m e => M.note m e.op e.res) m

section Rules

variable {M : Monitor Op Res μ} {p : Prog Op Res α} {P Q : α → μ → Prop} {m : μ}

theorem holds_perform {o : Op} {R : Res o → μ → Prop} :
    M.holds (perform o) R m ↔ M.allows m o ∧ ∀ r, R r (M.note m o r) := Iff.rfl

theorem holds_mono (h : M.holds p P m) (hPQ : ∀ a m', P a m' → Q a m') : M.holds p Q m := by
  induction p generalizing m with
  | pure a => exact hPQ a m h
  | op o k ih => exact ⟨h.1, fun r => ih r (h.2 r)⟩
  | diverge => trivial

theorem holds_bind {f : α → Prog Op Res β} {R : β → μ → Prop}
    (h : M.holds p (fun a m' => M.holds (f a) R m') m) : M.holds (p >>= f) R m := by
  induction p generalizing m with
  | pure a => exact h
  | op o k ih => exact ⟨h.1, fun r => ih r (h.2 r)⟩
  | diverge => trivial

end Rules

variable [DecidableEq ι]

@[simp] theorem replay_append (M : Monitor Op Res μ) (m : μ) (past : List (Seen Op Res σ))
    (e : Seen Op Res σ) :
    M.replay m (past ++ [e]) = M.note (M.replay m past) e.op e.res := by
  simp [replay]

/-- The threads of a pool follow their monitors. -/
def Follows (M : ι → Monitor Op Res μ) (init : μ) (post : ι → α → μ → Prop)
    (p : Pool Op Res α σ ι) : Prop :=
  ∀ i, (M i).holds (p.thread i) (post i) ((M i).replay init (p.past i))

omit [DecidableEq ι] in
theorem follows_start {M : ι → Monitor Op Res μ} {init : μ} {post : ι → α → μ → Prop} {s : σ}
    {thread : ι → Prog Op Res α} (h : ∀ i, (M i).holds (thread i) (post i) init) :
    Follows M init post (Pool.start s thread) := h

variable {h : Handler Op Res σ} {ok : ι → List (Seen Op Res σ) → Op → σ → Prop}
  {env : σ → σ → Prop} {M : ι → Monitor Op Res μ} {init : μ} {post : ι → α → μ → Prop}
  {p q : Pool Op Res α σ ι}

theorem Follows.step (hp : Follows M init post p) (hs : Step h ok env p q) :
    Follows M init post q := by
  cases hs with
  | @thread i o k r s hk _ _ =>
    intro j
    by_cases hj : j = i
    · subst hj
      have hi := hp j
      rw [hk] at hi
      simpa [Pool.advance] using hi.2 r
    · simpa [Pool.advance, Function.update_of_ne hj] using hp j
  | env _ => exact hp

omit [DecidableEq ι] in
theorem Follows.allows (hp : Follows M init post p) {i : ι} {o : Op} {k : Res o → Prog Op Res α}
    (hk : p.thread i = .op o k) : (M i).allows ((M i).replay init (p.past i)) o := by
  have hi := hp i
  rw [hk] at hi
  exact hi.1

omit [DecidableEq ι] in
theorem Follows.result (hp : Follows M init post p) {i : ι} {a : α}
    (ha : p.result? i = some a) : post i a ((M i).replay init (p.past i)) := by
  have hi := hp i
  rw [Pool.result?_eq_some.mp ha] at hi
  exact hi

end Monitor

end ProgramMonitors
