import TinyToken.InterleavedPrograms

/-! Pre- and postconditions of programs that run among others, for guarantees about single
steps. A triple says what a program comes to while the others keep to its rely relation;
triples compose along the program, and a pool of programs with triples keeps them all. -/
namespace RelyTriples

open ProgramSteps InterleavedPrograms

variable {Op : Type} {Res : Op → Type} {α β σ ι : Type}

/-- The rules one program plays by: which steps it may take, what the others may do to the
state, and what its own steps may. -/
structure Rules (Op σ : Type) where
  ok : Op → σ → Prop
  rely : σ → σ → Prop
  guar : σ → σ → Prop
  rely_refl : ∀ s, rely s s
  rely_trans : ∀ s t u, rely s t → rely t u → rely s u

def Rules.contract (R : Rules Op σ) : Contract Op Res α σ where
  ok := fun _ => R.ok
  rely := R.rely
  guar := fun _ e u _ => R.guar e.met u
  rely_refl := R.rely_refl
  rely_trans := R.rely_trans

def Stable (R : Rules Op σ) (P : σ → Prop) : Prop := ∀ s t, R.rely s t → P s → P t

/-- From a state with `P` the program keeps its rules and ends with `Q`. -/
def Triple (h : Handler Op Res σ) (R : Rules Op σ) (P : σ → Prop) (prog : Prog Op Res α)
    (Q : α → σ → Prop) : Prop :=
  ∀ past s, P s → Safe h R.contract (fun a _ t => Q a t) prog past s

section Rules

variable {h : Handler Op Res σ} {R : Rules Op σ} {P P' : σ → Prop} {Q Q' : α → σ → Prop}
  {prog : Prog Op Res α}

theorem Stable.and (hP : Stable R P) (hP' : Stable R P') : Stable R fun s => P s ∧ P' s :=
  fun s t ht hs => ⟨hP s t ht hs.1, hP' s t ht hs.2⟩

theorem triple_pure {a : α} (hP : Stable R P) (hQ : ∀ s, P s → Q a s) : Triple h R P (pure a) Q :=
  fun _ s hs t ht => hQ t (hP s t ht hs)

theorem triple_diverge : Triple h R P (.diverge : Prog Op Res α) Q := fun _ _ _ => trivial

theorem triple_mono (hp : Triple h R P prog Q) (hP : ∀ s, P' s → P s)
    (hQ : ∀ a s, Q a s → Q' a s) : Triple h R P' prog Q' :=
  fun past s hs => (hp past s (hP s hs)).mono fun a _ t => hQ a t

theorem triple_bind {f : α → Prog Op Res β} {Q' : β → σ → Prop} (hp : Triple h R P prog Q)
    (hf : ∀ a, Triple h R (Q a) (f a) Q') : Triple h R P (prog >>= f) Q' := by
  intro past s hs
  apply Safe.bind
  exact (hp past s hs).mono fun a past t ht => hf a past t ht

/-- One operation: where it may be taken it keeps the guarantee and comes to `Q`. -/
theorem triple_perform {o : Op} {Q : Res o → σ → Prop} (hP : Stable R P) (hQ : ∀ r, Stable R (Q r))
    (hstep : ∀ s r u, P s → R.ok o s → h o s = some (r, u) → R.guar s u ∧ Q r u) :
    Triple h R P (Prog.perform o) Q := by
  intro past s hs t ht hok r u hu
  obtain ⟨hguar, hq⟩ := hstep t r u (hP s t ht hs) hok hu
  exact ⟨hguar, fun v hv => hQ r u v hv hq⟩

/-- A fact that does not depend on the state may be taken out of the precondition. -/
theorem triple_of_pure {p : Prop} (hp : p → Triple h R P prog Q) :
    Triple h R (fun s => P s ∧ p) prog Q :=
  fun past s hs => hp hs.2 past s hs.1

/-- What neither the others nor the program's own steps can break holds throughout. -/
theorem triple_frame {F : σ → Prop} (hrely : ∀ s t, R.rely s t → F s → F t)
    (hguar : ∀ s t, R.guar s t → F s → F t) (hp : Triple h R P prog Q) :
    Triple h R (fun s => P s ∧ F s) prog (fun a s => Q a s ∧ F s) := by
  rintro past s ⟨hs, hF⟩
  have hsafe := hp past s hs
  clear hs hp
  induction prog generalizing past s with
  | pure a => exact fun t ht => ⟨hsafe t ht, hrely s t ht hF⟩
  | op o k ih =>
    intro t ht hok r u hu
    obtain ⟨hg, hk⟩ := hsafe t ht hok r u hu
    exact ⟨hg, ih r _ u (hguar t u hg (hrely s t ht hF)) hk⟩
  | diverge => trivial

end Rules

section Pools

variable [DecidableEq ι] {h : Handler Op Res σ} {R : ι → Rules Op σ} {env : σ → σ → Prop}
  {P : ι → σ → Prop} {Q : ι → α → σ → Prop} {p q : Pool Op Res α σ ι}

/-- Every program of the pool has come as far as its triple says. -/
def AllKept (h : Handler Op Res σ) (R : ι → Rules Op σ) (Q : ι → α → σ → Prop)
    (p : Pool Op Res α σ ι) : Prop :=
  AllSafe h (fun i => (R i).contract) (fun i a _ s => Q i a s) p

omit [DecidableEq ι] in
theorem allKept_start {s : σ} {thread : ι → Prog Op Res α}
    (htriple : ∀ i, Triple h (R i) (P i) (thread i) (Q i)) (hs : ∀ i, P i s) :
    AllKept h R Q (Pool.start s thread) :=
  fun i => htriple i [] s (hs i)

theorem AllKept.step (meet : ∀ i j, i ≠ j → ∀ s t, (R j).guar s t → (R i).rely s t)
    (quiet : ∀ i s t, env s t → (R i).rely s t) (hp : AllKept h R Q p)
    (hs : Step h (fun i _ => (R i).ok) env p q) : AllKept h R Q q :=
  AllSafe.step (fun _ => True) (fun i j hij _ e t _ _ hg => meet i j hij e.met t hg) quiet hp trivial hs

omit [DecidableEq ι] in
theorem AllKept.result (hp : AllKept h R Q p) {i : ι} {a : α} (ha : p.result? i = some a) :
    Q i a p.state :=
  AllSafe.result hp (Pool.result?_eq_some.mp ha)

/-- A step of a kept pool is a guarantee of one of its programs, or one of the environment. -/
theorem AllKept.step_cases (hp : AllKept h R Q p) (hs : Step h (fun i _ => (R i).ok) env p q) :
    (∃ i, (R i).guar p.state q.state) ∨ env p.state q.state := by
  cases hs with
  | thread i hk hok hr => exact .inl ⟨i, AllSafe.guarantee hp hk hok hr⟩
  | env he => exact .inr he

end Pools

end RelyTriples
