import TinyToken.ProgramSteps

/-! Programs over operations with several possible outcomes. An effect relation says what
an operation may answer and do to an abstract state; a program satisfies a postcondition
when every choice of outcomes does. A store that only shows outcomes of the relation,
under faults and with moves of its environment between the operations, then satisfies it. -/
namespace ProgramOutcomes

open ProgramSteps List

variable {Op : Type} {Res : Op → Type} {α β σ τ ε : Type}

/-- The outcomes of an operation in a state: an answer and the state after it. -/
abbrev Effects (Op : Type) (Res : Op → Type) (σ : Type) := (o : Op) → σ → Res o → σ → Prop

/-- Every outcome of the program from this state satisfies the postcondition. -/
def always (E : Effects Op Res σ) : Prog Op Res α → (α → σ → Prop) → σ → Prop
  | .pure a, Q, s => Q a s
  | .op o k, Q, s => ∀ r s', E o s r s' → always E (k r) Q s'
  | .diverge, _, _ => True

section Rules

variable {E F : Effects Op Res σ} {p : Prog Op Res α} {P Q : α → σ → Prop} {s : σ}

@[simp] theorem always_pure {a : α} : always E (Pure.pure a : Prog Op Res α) Q s ↔ Q a s := Iff.rfl

theorem always_mono (h : always E p P s) (hPQ : ∀ a s', P a s' → Q a s') : always E p Q s := by
  induction p generalizing s with
  | pure a => exact hPQ a s h
  | op o k ih => exact fun r s' hr => ih r (h r s' hr)
  | diverge => trivial

theorem always_and (hP : always E p P s) (hQ : always E p Q s) :
    always E p (fun a s' => P a s' ∧ Q a s') s := by
  induction p generalizing s with
  | pure a => exact ⟨hP, hQ⟩
  | op o k ih => exact fun r s' hr => ih r (hP r s' hr) (hQ r s' hr)
  | diverge => trivial

theorem always_of_forall (h : ∀ a s', Q a s') : always E p Q s := by
  induction p generalizing s with
  | pure a => exact h a s
  | op o k ih => exact fun r s' _ => ih r
  | diverge => trivial

theorem always_bind {f : α → Prog Op Res β} {R : β → σ → Prop} :
    always E (p >>= f) R s ↔ always E p (fun a s' => always E (f a) R s') s := by
  induction p generalizing s with
  | pure a | diverge => exact Iff.rfl
  | op o k ih => exact forall_congr' fun r => forall_congr' fun s' => imp_congr_right fun _ => ih r

theorem always_seq {f : α → Prog Op Res β} {R : β → σ → Prop} (h : always E p P s)
    (hf : ∀ a s', P a s' → always E (f a) R s') : always E (p >>= f) R s :=
  always_bind.mpr (always_mono h hf)

end Rules

/-- Every answer of the store is an outcome of the relation on the abstract states, as
long as the store keeps `ok`. -/
structure Simulates (h : Handler Op Res σ) (E : Effects Op Res τ) (abs : σ → τ) (ok : σ → Prop) :
    Prop where
  keeps : ∀ o s r s', ok s → h o s = some (r, s') → ok s'
  outcome : ∀ o s r s', ok s → h o s = some (r, s') → E o (abs s) r (abs s')

variable {E : Effects Op Res τ} {h : Handler Op Res σ}

variable {abs : σ → τ} {ok : σ → Prop}

theorem wp_of_always (hsim : Simulates h E abs ok) {p : Prog Op Res α} {Q : α → τ → Prop} {s : σ}
    (hs : ok s) (ha : always E p Q (abs s)) : wp h p (fun a s' => ok s' ∧ Q a (abs s')) s := by
  induction p generalizing s with
  | pure a => exact wp_pure.mpr ⟨hs, ha⟩
  | op o k ih =>
    rw [wp_op]
    intro r s' hr
    exact ih r (hsim.keeps o s r s' hs hr) (ha r (abs s') (hsim.outcome o s r s' hs hr))
  | diverge => exact wp_diverge

/-- The outcomes of a store whose operations may fail where `mayFail` holds. -/
def faultEffects (h : Handler Op Res σ) (onFault : (o : Op) → Option (ε → σ → Res o × σ))
    (mayFail : Op → Prop) : Effects Op Res σ := fun o s r s' =>
  h o s = some (r, s') ∨ (mayFail o ∧ ∃ fail e, onFault o = some fail ∧ (r, s') = fail e s)

/-- What holds under every list of faults holds for every outcome. -/
theorem always_of_wp {onFault : (o : Op) → Option (ε → σ → Res o × σ)}
    {mayFail : Op → Prop} {p : Prog Op Res α} {Q : α → σ → Prop} {s : σ}
    (hw : ∀ faults, wp (withFaults h onFault) p (fun a u => Q a u.state) ⟨s, faults⟩) :
    always (faultEffects h onFault mayFail) p Q s := by
  induction p generalizing s with
  | pure a => exact hw [] a ⟨s, []⟩ rfl
  | op o k ih =>
    intro r s' hr
    refine ih r fun faults => ?_
    rcases hr with hr | ⟨-, fail, e, hfail, he⟩
    · cases hf : onFault o with
      | none =>
        apply wp_op.mp (hw faults) r ⟨s', faults⟩
        rw [withFaults_infallible hf, hr]
        rfl
      | some fail =>
        apply wp_op.mp (hw (none :: faults)) r ⟨s', faults⟩
        rw [withFaults_pass hf rfl, hr]
        rfl
    · apply wp_op.mp (hw (some e :: faults)) r ⟨s', faults⟩
      rw [withFaults_fail hfail rfl, ← he]
      rfl
  | diverge => trivial

/-- Where nothing may fail, the outcomes are those of the store itself. -/
theorem always_of_wp_unfailing
    {onFault : (o : Op) → Option (ε → σ → Res o × σ)} {mayFail : Op → Prop}
    (hm : ∀ o, ¬ mayFail o) {p : Prog Op Res α} {Q : α → σ → Prop} {s : σ} (hw : wp h p Q s) :
    always (faultEffects h onFault mayFail) p Q s := by
  induction p generalizing s with
  | pure a => exact hw a s rfl
  | op o k ih =>
    intro r s' hr
    rcases hr with hr | ⟨hfail, -⟩
    · exact ih r (wp_op.mp hw r s' hr)
    · exact (hm o hfail).elim
  | diverge => trivial

/-- A state together with what the environment does to it before each coming operation. -/
structure Moved (σ : Type) where
  state : σ
  moves : List (σ → σ)

def Moved.next (s : Moved σ) : σ := s.moves.headD id s.state

def withMoves (h : Handler Op Res σ) : Handler Op Res (Moved σ) := fun o s =>
  (h o s.next).map fun p => (p.1, ⟨p.2, s.moves.tail⟩)

/-- The moves still to come do not show in the abstract state. -/
def Unseen (abs : σ → τ) (s : Moved σ) : Prop := ∀ m ∈ s.moves, ∀ x, abs (m x) = abs x

theorem Unseen.next {s : Moved σ} (h : Unseen abs s) : abs s.next = abs s.state := by
  obtain ⟨x, moves⟩ := s
  cases moves with
  | nil => rfl
  | cons m ms => exact h m mem_cons_self x

theorem Moved.next_keeps {s : Moved σ} (hmoves : ∀ m ∈ s.moves, ∀ x, ok x → ok (m x))
    (hs : ok s.state) : ok s.next := by
  obtain ⟨x, moves⟩ := s
  cases moves with
  | nil => exact hs
  | cons m ms => exact hmoves m mem_cons_self x hs

/-- Moves that do not show and keep what the store needs. -/
theorem simulates_withMoves_keeping (hsim : Simulates h E abs ok) :
    Simulates (withMoves h) E (fun s => abs s.state)
      (fun s => Unseen abs s ∧ (∀ m ∈ s.moves, ∀ x, ok x → ok (m x)) ∧ ok s.state) where
  keeps := by
    rintro o s r s' ⟨hs, hmoves, hok⟩ hr
    obtain ⟨p, hp, he⟩ := Option.map_eq_some_iff.mp hr
    cases he
    exact ⟨fun m hm => hs m (mem_of_mem_tail hm),
      fun m hm => hmoves m (mem_of_mem_tail hm),
      hsim.keeps o s.next p.1 p.2 (s.next_keeps hmoves hok) hp⟩
  outcome := by
    rintro o s r s' ⟨hs, hmoves, hok⟩ hr
    obtain ⟨p, hp, he⟩ := Option.map_eq_some_iff.mp hr
    cases he
    have := hsim.outcome o s.next p.1 p.2 (s.next_keeps hmoves hok) hp
    rwa [hs.next] at this

theorem simulates_withMoves (hsim : Simulates h E abs fun _ => True) :
    Simulates (withMoves h) E (fun s => abs s.state) (Unseen abs) where
  keeps := fun o s r s' hs hr => ((simulates_withMoves_keeping hsim).keeps o s r s'
    ⟨hs, fun _ _ _ _ => trivial, trivial⟩ hr).1
  outcome := fun o s r s' hs hr => (simulates_withMoves_keeping hsim).outcome o s r s'
    ⟨hs, fun _ _ _ _ => trivial, trivial⟩ hr

end ProgramOutcomes
