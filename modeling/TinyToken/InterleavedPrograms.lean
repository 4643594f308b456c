import TinyToken.ProgramSteps

/-! Interleavings of any number of programs over one shared state.
Every operation is one atomic step of one thread. Between the steps of a thread the
others may do what its rely relation allows; what its own steps do to the state is its
guarantee. Threads whose guarantees meet each other's relies are safe in every run. -/
namespace InterleavedPrograms

open ProgramSteps Option Function

/-- An operation a thread has performed, its answer, and the state it met. -/
structure Seen (Op : Type) (Res : Op → Type) (σ : Type) where
  op : Op
  res : Res op
  met : σ

structure Pool (Op : Type) (Res : Op → Type) (α σ ι : Type) where
  state : σ
  thread : ι → Prog Op Res α
  past : ι → List (Seen Op Res σ)

variable {Op : Type} {Res : Op → Type} {α β σ ι ε : Type}

namespace Pool

def start (s : σ) (thread : ι → Prog Op Res α) : Pool Op Res α σ ι := ⟨s, thread, fun _ => []⟩

variable [DecidableEq ι]

def advance (p : Pool Op Res α σ ι) (i : ι) (o : Op) (r : Res o) (s : σ)
    (rest : Prog Op Res α) : Pool Op Res α σ ι where
  state := s
  thread := update p.thread i rest
  past := update p.past i (p.past i ++ [⟨o, r, p.state⟩])

def step? (h : Handler Op Res σ) (p : Pool Op Res α σ ι) (i : ι) : Option (Pool Op Res α σ ι) :=
  match p.thread i with
  | .op o k => (h o p.state).map fun q => p.advance i o q.1 q.2 (k q.1)
  | _ => none

/-- Replays a schedule of thread steps and environment events. -/
def play (h : Handler Op Res σ) (event : ε → σ → Option σ) :
    List (ι ⊕ ε) → Pool Op Res α σ ι → Option (Pool Op Res α σ ι)
  | [], p => some p
  | .inl i :: moves, p => (p.step? h i).bind (play h event moves)
  | .inr e :: moves, p => (event e p.state).bind fun s => play h event moves { p with state := s }

/-- A schedule of the threads alone. -/
abbrev playAlone (h : Handler Op Res σ) (moves : List ι) (p : Pool Op Res α σ ι) :
    Option (Pool Op Res α σ ι) :=
  p.play h (fun (x : Empty) _ => x.elim) (moves.map Sum.inl)

def result? (p : Pool Op Res α σ ι) (i : ι) : Option α :=
  match p.thread i with
  | .pure a => some a
  | _ => none

omit [DecidableEq ι] in
theorem result?_eq_some {p : Pool Op Res α σ ι} {i : ι} {a : α} :
    p.result? i = some a ↔ p.thread i = .pure a := by
  unfold result?
  split
  next b hb =>
    simp [hb]
  next hne =>
    constructor
    · exact nofun
    · exact fun h => absurd h (hne a)

omit [DecidableEq ι] in
theorem result?_of_op {p : Pool Op Res α σ ι} {i : ι} {o : Op} {k : Res o → Prog Op Res α}
    (h : p.thread i = .op o k) : p.result? i = none := by
  simp [result?, h]

theorem thread_advance_self (p : Pool Op Res α σ ι) (i : ι) (o : Op) (r : Res o) (s : σ)
    (rest : Prog Op Res α) : (p.advance i o r s rest).thread i = rest := by
  simp [advance]

theorem result?_advance_of_ne (p : Pool Op Res α σ ι) {i j : ι} (hj : j ≠ i) (o : Op) (r : Res o)
    (s : σ) (rest : Prog Op Res α) : (p.advance i o r s rest).result? j = p.result? j := by
  simp [result?, advance, update_of_ne hj]

end Pool

variable [DecidableEq ι]

/-- One step of the system. `ok` restricts the steps of a thread by what it has seen,
the operation it is about to perform and the state it meets. -/
inductive Step (h : Handler Op Res σ) (ok : ι → List (Seen Op Res σ) → Op → σ → Prop)
    (env : σ → σ → Prop) : Pool Op Res α σ ι → Pool Op Res α σ ι → Prop where
  | thread {p : Pool Op Res α σ ι} (i : ι) {o : Op} {k : Res o → Prog Op Res α} {r : Res o}
      {s : σ} : p.thread i = .op o k → ok i (p.past i) o p.state → h o p.state = some (r, s) →
      Step h ok env p (p.advance i o r s (k r))
  | env {p : Pool Op Res α σ ι} {s : σ} : env p.state s → Step h ok env p { p with state := s }

def Run (h : Handler Op Res σ) (ok : ι → List (Seen Op Res σ) → Op → σ → Prop)
    (env : σ → σ → Prop) : Pool Op Res α σ ι → Pool Op Res α σ ι → Prop :=
  Relation.ReflTransGen (Step h ok env)

variable {env : σ → σ → Prop} {h : Handler Op Res σ} {ok : ι → List (Seen Op Res σ) → Op → σ → Prop}
  {p q : Pool Op Res α σ ι}

/-- A call that has returned stays as it is. -/
theorem Step.result_kept (hs : Step h ok env p q) {i : ι} {a : α}
    (hi : p.result? i = some a) : q.result? i = some a := by
  cases hs with
  | @thread j o k r s hk _ _ =>
    by_cases hij : i = j
    · subst hij
      rw [Pool.result?_of_op hk] at hi
      cases hi
    · rwa [p.result?_advance_of_ne hij]
  | env _ => exact hi

theorem Pool.step?_step
    {i : ι} (e : p.step? h i = some q) : Step h (fun _ _ _ _ => True) env p q := by
  unfold Pool.step? at e
  split at e
  next o k hk =>
    obtain ⟨⟨r, s⟩, hr, rfl⟩ := map_eq_some_iff.mp e
    exact .thread i hk trivial hr
  · cases e

theorem Run.mono {ok ok' : ι → List (Seen Op Res σ) → Op → σ → Prop}
    {env env' : σ → σ → Prop} (hr : Run h ok env p q)
    (hok : ∀ i past o s, ok i past o s → ok' i past o s)
    (henv : ∀ s t, env s t → env' s t) : Run h ok' env' p q := by
  refine Relation.ReflTransGen.mono (fun p q st => ?_) _ _ hr
  cases st with
  | thread i hk hallowed hr => exact .thread i hk (hok _ _ _ _ hallowed) hr
  | env he => exact .env (henv _ _ he)

/-- A replayed schedule is a run in which every step is allowed. -/
theorem play_run {event : ε → σ → Option σ}
    {moves : List (ι ⊕ ε)} (e : p.play h event moves = some q) :
    Run h (fun _ _ _ _ => True) (fun s s' => ∃ x, event x s = some s') p q := by
  induction moves generalizing p with
  | nil => cases e; exact .refl
  | cons move moves ih =>
    cases move with
    | inl i =>
      obtain ⟨p', hp, e⟩ := bind_eq_some_iff.mp e
      exact Relation.ReflTransGen.head (Pool.step?_step hp) (ih e)
    | inr x =>
      obtain ⟨s, hs, e⟩ := bind_eq_some_iff.mp e
      exact Relation.ReflTransGen.head (.env ⟨x, hs⟩) (ih e)

/-- A replayed schedule without environment events is a run of the threads alone. -/
theorem play_run_alone {moves : List (ι ⊕ Empty)} (e : p.play h (fun x _ => x.elim) moves = some q) :
    Run h (fun _ _ _ _ => True) (fun _ _ => False) p q := by
  refine (play_run e).mono (fun _ _ _ _ hok => hok) fun s t he => ?_
  obtain ⟨x, -⟩ := he
  exact x.elim

/-- A run whose histories show only allowed steps is a run of the restricted system. -/
theorem Run.restrict {ok ok' : ι → List (Seen Op Res σ) → Op → σ → Prop} (hr : Run h ok' env p q)
    (hpast : ∀ i before e later, q.past i = before ++ e :: later → ok i before e.op e.met) :
    Run h ok env p q := by
  induction hr with
  | refl => exact .refl
  | @tail u v _ st ih =>
    cases st with
    | @thread i o k r s hk hok hr =>
      refine .tail (ih ?_) (.thread i hk (hpast i (u.past i) ⟨o, r, u.state⟩ [] ?_) hr)
      · intro j before e later hj
        by_cases hji : j = i
        · subst hji
          apply hpast j before e (later ++ [⟨o, r, u.state⟩])
          simp [Pool.advance, hj]
        · apply hpast j before e later
          simpa [Pool.advance, update_of_ne hji] using hj
      · simp [Pool.advance]
    | env he => exact .tail (ih hpast) (.env he)

/-- Where an invariant of the state implies a condition, every run meets it. -/
theorem Run.strengthen (hr : Run h ok env p q) (Inv : σ → Prop)
    (ok' : ι → List (Seen Op Res σ) → Op → σ → Prop) (hp : Inv p.state)
    (hok : ∀ i past o s, Inv s → ok i past o s → ok' i past o s)
    (hstep : ∀ o r s t, h o s = some (r, t) → Inv s → Inv t)
    (henv : ∀ s t, env s t → Inv s → Inv t) : Inv q.state ∧ Run h ok' env p q := by
  induction hr with
  | refl => exact ⟨hp, .refl⟩
  | @tail u v _ st ih =>
    obtain ⟨hu, hrun⟩ := ih
    cases st with
    | @thread i o k r s hk hallowed hr =>
      exact ⟨hstep o r _ s hr hu, .tail hrun (.thread i hk (hok i _ o _ hu hallowed) hr)⟩
    | @env s he => exact ⟨henv _ s he hu, .tail hrun (.env he)⟩

/-- Checks a history step by step. -/
def permitted (check : List (Seen Op Res σ) → Op → σ → Bool) :
    List (Seen Op Res σ) → List (Seen Op Res σ) → Bool
  | _, [] => true
  | before, e :: later => check before e.op e.met && permitted check (before ++ [e]) later

omit [DecidableEq ι] in
theorem check_of_permitted {check : List (Seen Op Res σ) → Op → σ → Bool}
    {start before later : List (Seen Op Res σ)} {e : Seen Op Res σ}
    (h : permitted check start (before ++ e :: later) = true) :
    check (start ++ before) e.op e.met = true := by
  induction before generalizing start with
  | nil =>
    rw [List.append_nil]
    exact (Bool.and_eq_true_iff.mp h).1
  | cons x before ih =>
    have hrest := ih (Bool.and_eq_true_iff.mp h).2
    rwa [List.append_assoc] at hrest

theorem Run.of_permitted {check : ι → List (Seen Op Res σ) → Op → σ → Bool} (hr : Run h ok env p q)
    (hcheck : ∀ i, permitted (check i) [] (q.past i) = true) :
    Run h (fun i past o s => check i past o s = true) env p q := by
  refine hr.restrict fun i before e later hpast => ?_
  have hall := hcheck i
  rw [hpast] at hall
  exact check_of_permitted hall

theorem Run.invariant (Inv : Pool Op Res α σ ι → Prop)
    (hstep : ∀ p q, Inv p → Step h ok env p q → Inv q)
    (hp : Inv p) (hr : Run h ok env p q) : Inv q := by
  induction hr with
  | refl => exact hp
  | tail _ st ih => exact hstep _ _ ih st

/-- What a thread assumes of the others and what it promises them. The guarantee of a
step also sees the rest of the program, so that it can tell the step that ends it. -/
structure Contract (Op : Type) (Res : Op → Type) (α σ : Type) where
  ok : List (Seen Op Res σ) → Op → σ → Prop
  rely : σ → σ → Prop
  guar : List (Seen Op Res σ) → Seen Op Res σ → σ → Prog Op Res α → Prop
  rely_refl : ∀ s, rely s s
  rely_trans : ∀ s t u, rely s t → rely t u → rely s u

/-- The contract of a first program whose result goes to `f`. -/
def Contract.before (C : Contract Op Res β σ) (f : α → Prog Op Res β) : Contract Op Res α σ where
  ok := C.ok
  rely := C.rely
  guar := fun past e s q => C.guar past e s (q >>= f)
  rely_refl := C.rely_refl
  rely_trans := C.rely_trans

/-- The program keeps its guarantee at every step and ends with the postcondition,
whatever the others do within the rely relation. -/
def Safe (h : Handler Op Res σ) (C : Contract Op Res α σ)
    (post : α → List (Seen Op Res σ) → σ → Prop) :
    Prog Op Res α → List (Seen Op Res σ) → σ → Prop
  | .pure a, past, s => ∀ t, C.rely s t → post a past t
  | .op o k, past, s => ∀ t, C.rely s t → C.ok past o t → ∀ r u, h o t = some (r, u) →
      C.guar past ⟨o, r, t⟩ u (k r) ∧ Safe h C post (k r) (past ++ [⟨o, r, t⟩]) u
  | .diverge, _, _ => True

section Rules

variable {h : Handler Op Res σ} {C : Contract Op Res α σ}
  {post : α → List (Seen Op Res σ) → σ → Prop} {p : Prog Op Res α}
  {past : List (Seen Op Res σ)} {s t : σ}

theorem Safe.stable (hs : Safe h C post p past s) (st : C.rely s t) : Safe h C post p past t := by
  cases p with
  | pure a | op o k => exact fun u tu => hs u (C.rely_trans _ _ _ st tu)
  | diverge => trivial

theorem Safe.mono {post' : α → List (Seen Op Res σ) → σ → Prop}
    (hs : Safe h C post p past s) (hp : ∀ a past s, post a past s → post' a past s) :
    Safe h C post' p past s := by
  induction p generalizing past s with
  | pure a => exact fun u r => hp _ _ _ (hs u r)
  | op o k ih =>
    intro u r c x v e
    obtain ⟨g, hk⟩ := hs u r c x v e
    exact ⟨g, ih x hk⟩
  | diverge => trivial

/-- A postcondition also holds after anything the others do next. -/
theorem Safe.post_stable (hs : Safe h C post p past s) :
    Safe h C (fun a past u => ∀ t, C.rely u t → post a past t) p past s := by
  induction p generalizing past s with
  | pure a => exact fun t ht u hu => hs u (C.rely_trans _ _ _ ht hu)
  | op o k ih =>
    intro t ht hok r u hu
    exact ⟨(hs t ht hok r u hu).1, ih r (hs t ht hok r u hu).2⟩
  | diverge => trivial

/-- Sequencing: the second program starts in any state the first one can end in. -/
theorem Safe.bind {C : Contract Op Res β σ} {post' : β → List (Seen Op Res σ) → σ → Prop}
    {f : α → Prog Op Res β}
    (hs : Safe h (C.before f) (fun a past s => Safe h C post' (f a) past s) p past s) :
    Safe h C post' (p >>= f) past s := by
  induction p generalizing past s with
  | pure a => exact hs s (C.rely_refl s)
  | op o k ih =>
    intro u r c x v e
    obtain ⟨g, hk⟩ := hs u r c x v e
    exact ⟨g, ih x hk⟩
  | diverge => trivial

end Rules

section Pools

variable {h : Handler Op Res σ} {C : ι → Contract Op Res α σ} {env : σ → σ → Prop}
  {post : ι → α → List (Seen Op Res σ) → σ → Prop} {p q : Pool Op Res α σ ι}

/-- Every thread of the pool is safe under its own contract. -/
def AllSafe (h : Handler Op Res σ) (C : ι → Contract Op Res α σ)
    (post : ι → α → List (Seen Op Res σ) → σ → Prop) (p : Pool Op Res α σ ι) : Prop :=
  ∀ i, Safe h (C i) (post i) (p.thread i) (p.past i) p.state

omit [DecidableEq ι] in
/-- A thread step that a safe pool takes keeps the guarantee of its thread. -/
theorem AllSafe.guarantee (hp : AllSafe h C post p) {i : ι} {o : Op}
    {k : Res o → Prog Op Res α} (hk : p.thread i = .op o k)
    (hok : (C i).ok (p.past i) o p.state) {r : Res o} {s : σ} (hr : h o p.state = some (r, s)) :
    (C i).guar (p.past i) ⟨o, r, p.state⟩ s (k r) := by
  have hi := hp i
  rw [hk] at hi
  exact (hi _ ((C i).rely_refl _) hok r s hr).1

omit [DecidableEq ι] in
/-- A finished thread of a safe pool has met its postcondition. -/
theorem AllSafe.result (hp : AllSafe h C post p) {i : ι} {a : α}
    (ha : p.thread i = .pure a) : post i a (p.past i) p.state := by
  have hi := hp i
  rw [ha] at hi
  exact hi _ ((C i).rely_refl _)

/-- The rule of parallel composition, for one step of the pool from a state with `Inv`. -/
theorem AllSafe.step (Inv : σ → Prop)
    (meet : ∀ i j, i ≠ j → ∀ past e t q, Inv e.met → (C j).guar past e t q → (C i).rely e.met t)
    (quiet : ∀ i s t, env s t → (C i).rely s t)
    (hp : AllSafe h C post p) (hinv : Inv p.state) (st : Step h (fun i => (C i).ok) env p q) :
    AllSafe h C post q := by
  cases st with
  | @thread i o k r s hk hok hr =>
    have hg := hp.guarantee hk hok hr
    have hi := hp i
    rw [hk] at hi
    intro j
    by_cases hj : j = i
    · subst hj
      simpa [Pool.advance] using (hi _ ((C j).rely_refl _) hok r s hr).2
    · have hother := (hp j).stable (meet j i hj _ _ _ _ hinv hg)
      simpa [Pool.advance, update_of_ne hj] using hother
  | env he => exact fun i => (hp i).stable (quiet i _ _ he)

end Pools

end InterleavedPrograms
