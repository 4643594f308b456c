import TinyToken.InterleavedPrograms

/-! What the history of a thread says about its program, and accounts kept over histories.
A thread has always followed its program along its own history, whatever the others did. So a
property of all histories of a program holds in every run. -/
namespace ProgramHistories

open ProgramSteps InterleavedPrograms List Function

variable {Op : Type} {Res : Op → Type} {α β σ ι : Type}

variable {h : Handler Op Res σ}

/-- The operations of the history, answered by the handler, lead from the first program to the
second. -/
inductive Follows (h : Handler Op Res σ) :
    Prog Op Res α → List (Seen Op Res σ) → Prog Op Res α → Prop
  | refl (p : Prog Op Res α) : Follows h p [] p
  | op {o : Op} {k : Res o → Prog Op Res α} {r : Res o} {s t : σ} {past : List (Seen Op Res σ)}
      {q : Prog Op Res α} : h o s = some (r, t) → Follows h (k r) past q →
      Follows h (.op o k) (⟨o, r, s⟩ :: past) q

section Follows

variable {p q : Prog Op Res α} {past : List (Seen Op Res σ)} {o : Op} {k : Res o → Prog Op Res α}

theorem Follows.snoc (hp : Follows h p past (.op o k)) {r : Res o} {s t : σ}
    (ho : h o s = some (r, t)) : Follows h p (past ++ [⟨o, r, s⟩]) (k r) := by
  generalize hq : Prog.op o k = q at hp
  induction hp with
  | refl p =>
    subst hq
    exact .op ho (.refl (k r))
  | op hfirst _ ih => exact .op hfirst (ih hq)

theorem follows_pure {a : α} : Follows h (.pure a) past q ↔ past = [] ∧ q = .pure a := by
  constructor
  · intro hp
    cases hp
    exact ⟨rfl, rfl⟩
  · rintro ⟨rfl, rfl⟩
    exact .refl _

theorem follows_op : Follows h (.op o k) past q ↔ (past = [] ∧ q = .op o k) ∨
    ∃ r s t rest, h o s = some (r, t) ∧ past = ⟨o, r, s⟩ :: rest ∧ Follows h (k r) rest q := by
  constructor
  · intro hp
    cases hp with
    | refl => exact .inl ⟨rfl, rfl⟩
    | op ho hp => exact .inr ⟨_, _, _, _, ho, rfl, hp⟩
  · rintro (⟨rfl, rfl⟩ | ⟨r, s, t, rest, ho, rfl, hp⟩)
    · exact .refl _
    · exact .op ho hp

end Follows

/-- Every history of the program up to its end has the property. -/
def Ends (h : Handler Op Res σ) (p : Prog Op Res α) (Q : α → List (Seen Op Res σ) → Prop) : Prop :=
  ∀ a past, Follows h p past (.pure a) → Q a past

section Ends

variable {Q Q' : α → List (Seen Op Res σ) → Prop}

theorem ends_pure {a : α} : Ends h (Pure.pure a : Prog Op Res α) Q ↔ Q a [] := by
  constructor
  · exact fun hp => hp a [] (.refl _)
  · intro hQ b past hb
    obtain ⟨rfl, hab⟩ := follows_pure.mp hb
    cases hab
    exact hQ

theorem ends_op {o : Op} {k : Res o → Prog Op Res α} : Ends h (.op o k) Q ↔
    ∀ r s t, h o s = some (r, t) → Ends h (k r) fun a past => Q a (⟨o, r, s⟩ :: past) := by
  constructor
  · exact fun hp r s t ho a past hk => hp a _ (.op ho hk)
  · intro hk a past hp
    rcases follows_op.mp hp with ⟨-, hop⟩ | ⟨r, s, t, rest, ho, rfl, hrest⟩
    · cases hop
    · exact hk r s t ho a rest hrest

theorem Ends.mono {p : Prog Op Res α} (hp : Ends h p Q) (himp : ∀ a past, Q a past → Q' a past) :
    Ends h p Q' := fun a past hpast => himp a past (hp a past hpast)

theorem Ends.bind {p : Prog Op Res α} {f : α → Prog Op Res β} {R : β → List (Seen Op Res σ) → Prop}
    (hp : Ends h p fun a past => Ends h (f a) fun b later => R b (past ++ later)) :
    Ends h (p >>= f) R := by
  induction p generalizing R with
  | pure a => exact ends_pure.mp hp
  | op o k ih => exact ends_op.mpr fun r s t ho => ih r (ends_op.mp hp r s t ho)
  | diverge =>
    nofun

end Ends

variable [DecidableEq ι] {ok : ι → List (Seen Op Res σ) → Op → σ → Prop}
  {env : σ → σ → Prop} {p q : Pool Op Res α σ ι}

/-- In every run each thread has followed its program along its history. -/
theorem follows_of_run {s : σ} {thread : ι → Prog Op Res α}
    (hr : Run h ok env (Pool.start s thread) p) (i : ι) :
    Follows h (thread i) (p.past i) (p.thread i) := by
  induction hr with
  | refl => exact .refl _
  | @tail u v _ st ih =>
    cases st with
    | @thread j o k r s hk _ ho =>
      by_cases hij : i = j
      · subst hij
        rw [hk] at ih
        simpa [Pool.advance] using ih.snoc ho
      · simpa [Pool.advance, update_of_ne hij] using ih
    | env _ => exact ih

/-- Every step of the history was allowed by what came before it. -/
def Permitted (ok : List (Seen Op Res σ) → Op → σ → Prop) (past : List (Seen Op Res σ)) : Prop :=
  ∀ before e later, past = before ++ e :: later → ok before e.op e.met

theorem permitted_of_run {s : σ} {thread : ι → Prog Op Res α}
    (hr : Run h ok env (Pool.start s thread) p) (i : ι) : Permitted (ok i) (p.past i) := by
  induction hr with
  | refl =>
    intro before e later hpast
    exact absurd hpast.symm (by simp [Pool.start])
  | @tail u v _ st ih =>
    cases st with
    | @thread j o k r s _ hok _ =>
      by_cases hij : i = j
      · subst hij
        intro before e later hpast
        have hpast : u.past i ++ [⟨o, r, u.state⟩] = before ++ e :: later := by
          simpa [Pool.advance] using hpast
        rcases eq_nil_or_concat later with rfl | ⟨later, last, rfl⟩
        · obtain ⟨hbefore, he⟩ := append_inj' hpast rfl
          cases he
          rwa [← hbefore]
        · refine ih before e later ?_
          rw [concat_eq_append, ← cons_append, ← append_assoc] at hpast
          exact (append_inj' hpast rfl).1
      · simpa [Pool.advance, update_of_ne hij] using ih
    | env _ => exact ih

/-- A thread that runs to its end with nothing in between. -/
theorem run_alone {i : ι} {a : α} {s : σ} (hrun : run h (p.thread i) p.state = some (a, s)) :
    ∃ q, Run h (fun _ _ _ _ => True) env p q ∧ q.state = s ∧ q.thread i = .pure a ∧
      ∀ j, j ≠ i → q.thread j = p.thread j ∧ q.past j = p.past j := by
  generalize hp : p.thread i = prog at hrun
  induction prog generalizing p with
  | pure b =>
    cases hrun
    exact ⟨p, .refl, rfl, hp, fun j _ => ⟨rfl, rfl⟩⟩
  | op o k ih =>
    rw [run_op] at hrun
    obtain ⟨⟨r, t⟩, ho, hrest⟩ := Option.bind_eq_some_iff.mp hrun
    obtain ⟨q, hq, hs, hi, hothers⟩ := ih r (p := p.advance i o r t (k r))
      (p.thread_advance_self i o r t (k r)) hrest
    refine ⟨q, .head (.thread i hp trivial ho) hq, hs, hi, fun j hj => ?_⟩
    simpa [Pool.advance, update_of_ne hj] using hothers j hj
  | diverge => cases hrun

section Accounts

variable [Fintype ι] (amount : Seen Op Res σ → ℤ)

def posted (past : List (Seen Op Res σ)) : ℤ := (past.map amount).sum

@[simp] theorem posted_nil : posted amount [] = 0 := rfl

@[simp] theorem posted_cons (e : Seen Op Res σ) (past : List (Seen Op Res σ)) :
    posted amount (e :: past) = amount e + posted amount past := by simp [posted]

@[simp] theorem posted_append (past later : List (Seen Op Res σ)) :
    posted amount (past ++ later) = posted amount past + posted amount later := by simp [posted]

/-- Where every operation changes a measure of the state by its amount, the measure shows the
amounts of all histories. -/
theorem measure_of_run (measure : σ → ℤ) (Inv : σ → Prop)
    (hstep : ∀ o r s t, h o s = some (r, t) → Inv s →
      measure t = measure s + amount ⟨o, r, s⟩ ∧ Inv t)
    {s : σ} {thread : ι → Prog Op Res α} (hs : Inv s)
    (hr : Run h ok (fun _ _ => False) (Pool.start s thread) p) :
    measure p.state = measure s + ∑ i, posted amount (p.past i) ∧ Inv p.state := by
  induction hr with
  | refl => exact ⟨by simp [Pool.start], hs⟩
  | @tail u v _ st ih =>
    cases st with
    | @thread i o k r t hk _ ho =>
      obtain ⟨hmeasure, hinv⟩ := hstep o r _ t ho ih.2
      refine ⟨?_, hinv⟩
      have hsum : ∑ j, posted amount ((u.advance i o r t (k r)).past j) =
          ∑ j, posted amount (u.past j) + amount ⟨o, r, u.state⟩ := by
        rw [← sub_eq_iff_eq_add', ← Finset.sum_sub_distrib, Fintype.sum_eq_single i]
        · simp [Pool.advance]
        · intro j hj
          simp [Pool.advance, update_of_ne hj]
      rw [hsum]
      change measure t = _
      rw [hmeasure, ih.1, add_assoc]
    | env he => exact he.elim

end Accounts

end ProgramHistories
