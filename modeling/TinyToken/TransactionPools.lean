import TinyToken.InterleavedPrograms
import TinyToken.ReadCommittedStore

/-! Transactions that interleave statement by statement and may fail at any statement.
The contract of a transaction: others leave its pending writes alone and change the
committed tables only as allowed; it publishes once, with the step that ends it
successfully, and never touches the pending writes of others. -/
namespace TransactionPools

open ProgramSteps InterleavedPrograms ReadCommittedStore Db Option Prod

/-- What a transaction lets the others do to the committed tables. -/
structure Interference (T : Type) where
  allowed : T → T → Prop
  refl : ∀ t, allowed t t
  trans : ∀ s t u, allowed s t → allowed t u → allowed s u

variable {T Q W : Type} {A : Q → Type} {α : Type}

abbrev Store (T W : Type) := Faulty (Db T W) String

abbrev History (T W : Type) (A : Q → Type) := List (Seen (TxOp Q W) (TxRes A) (Store T W))

/-- The statement stands in the history and met this store. -/
def Met (past : History T W A) (o : TxOp Q W) (db : Db T W) : Prop :=
  ∃ e ∈ past, e.op = o ∧ e.met.state = db

theorem Met.append {past : History T W A} {o : TxOp Q W} {db : Db T W} (h : Met past o db)
    (later : History T W A) : Met (past ++ later) o db := by
  obtain ⟨e, he, ho⟩ := h
  exact ⟨e, List.mem_append_left _ he, ho⟩

theorem met_last (past : History T W A) (o : TxOp Q W) (r : TxRes A o) (s : Store T W) :
    Met (past ++ [⟨o, r, s⟩]) o s.state :=
  ⟨⟨o, r, s⟩, by simp, rfl, rfl⟩

section Contracts

variable (E : Engine T Q W A) (tx : TxId) (I : Interference T)
  (ok : History T W A → TxOp Q W → Store T W → Prop) (P : α → History T W A → Db T W → Prop)

def Undisturbed (s t : Store T W) : Prop :=
  t.state.own tx = s.state.own tx ∧ I.allowed s.state.committed t.state.committed

theorem undisturbed_refl (s : Store T W) : Undisturbed tx I s s := ⟨rfl, I.refl _⟩

theorem undisturbed_trans (s t u : Store T W) (hst : Undisturbed tx I s t)
    (htu : Undisturbed tx I t u) : Undisturbed tx I s u :=
  ⟨htu.1.trans hst.1, I.trans _ _ _ hst.2 htu.2⟩

/-- The contract for the inside of a transaction, where nothing is promised: that a body
keeps to its connection is `Within`. -/
def bodyContract : Contract (TxOp Q W) (TxRes A) α (Store T W) where
  ok := ok
  rely := Undisturbed tx I
  guar := fun _ _ _ _ => True
  rely_refl := undisturbed_refl tx I
  rely_trans := undisturbed_trans tx I

abbrev BodySafe (post : α → History T W A → Store T W → Prop) (p : TxProg Q W A α)
    (past : History T W A) (s : Store T W) : Prop :=
  Safe (faultyHandle E) (bodyContract tx I ok) post p past s

/-- The step that ends a transaction with success publishes its writes. -/
def Publishes (past : History T W A) (e : Seen (TxOp Q W) (TxRes A) (Store T W)) (u : Store T W)
    (q : TxProg Q W A (Except String α)) : Prop :=
  ∃ a, q = .pure (.ok a) ∧ P a past e.met.state ∧ ok past e.op e.met ∧ e.op = .commit tx ∧
    u.state.committed = e.met.state.view E tx

def Quiet (s u : Store T W) (q : TxProg Q W A (Except String α)) : Prop :=
  u.state.committed = s.state.committed ∧ ∀ a, q ≠ .pure (.ok a)

def txContract : Contract (TxOp Q W) (TxRes A) (Except String α) (Store T W) where
  ok := ok
  rely := Undisturbed tx I
  guar := fun past e u q => (∀ t, t ≠ tx → u.state.own t = e.met.state.own t) ∧
    (Quiet e.met u q ∨ Publishes E tx ok P past e u q)
  rely_refl := undisturbed_refl tx I
  rely_trans := undisturbed_trans tx I

end Contracts

section Statements

variable {E : Engine T Q W A} {tx : TxId} {I : Interference T}
  {ok : History T W A → TxOp Q W → Store T W → Prop}
  {post : α → History T W A → Store T W → Prop} {past : History T W A} {s : Store T W}

/-- Every outcome of a statement: it fails, or it does what it does without faults. -/
theorem faultyHandle_cases {o : TxOp Q W} {r : TxRes A o} {u : Store T W}
    (e : faultyHandle E o s = some (r, u)) :
    (∃ fail x, onFault o = some fail ∧ (r, u.state) = fail x s.state) ∨
      handle E o s.state = some (r, u.state) :=
  withFaults_cases e

/-- Only the store matters to a body, not the faults still to come. -/
theorem safe_of_state_eq {p : TxProg Q W A α} {t u : Store T W}
    (hs : BodySafe E tx I ok post p past t) (h : u.state = t.state) :
    BodySafe E tx I ok post p past u := by
  refine hs.stable ⟨?_, ?_⟩
  · rw [h]
  · rw [h]
    exact I.refl _

theorem safe_pure {a : α} (h : ∀ t, Undisturbed tx I s t → post a past t) :
    BodySafe E tx I ok post (pure a) past s := h

/-- Nothing is asked of an error. -/
theorem safe_error {e : String} {P : α → History T W A → Store T W → Prop} :
    BodySafe E tx I ok (fun r past u => ∀ a, r = .ok a → P a past u)
      (pure (.error e) : TxProg Q W A (Except String α)) past s :=
  safe_pure nofun

theorem safe_query {q : Q} {k : Except String (A q) → TxProg Q W A α}
    (hfail : ∀ t x, Undisturbed tx I s t → BodySafe E tx I ok post
      (k (.error x)) (past ++ [⟨.query tx q, .error x, t⟩]) t)
    (hpass : ∀ t, Undisturbed tx I s t → ok past (.query tx q) t →
      BodySafe E tx I ok post (k (.ok (E.answer q (t.state.view E tx))))
        (past ++ [⟨.query tx q, .ok (E.answer q (t.state.view E tx)), t⟩]) t) :
    BodySafe E tx I ok post (query tx q >>= k) past s := by
  intro t ht hok r u hu
  refine ⟨trivial, ?_⟩
  rcases faultyHandle_cases hu with ⟨fail, x, hf, hr⟩ | hr
  · cases hf
    obtain ⟨rfl, hst⟩ := mk.inj hr
    exact safe_of_state_eq (hfail t x ht) hst
  · obtain ⟨rfl, hst⟩ := mk.inj (some.inj hr)
    exact safe_of_state_eq (hpass t ht hok) hst.symm

theorem safe_write {w : W} {k : Except String Unit → TxProg Q W A α}
    (hfail : ∀ t x, Undisturbed tx I s t → BodySafe E tx I ok post
      (k (.error x)) (past ++ [⟨.write tx w, .error x, t⟩]) t)
    (hpass : ∀ t, Undisturbed tx I s t → ok past (.write tx w) t →
      E.accepts w (t.state.view E tx) = true →
      BodySafe E tx I ok post (k (.ok ()))
        (past ++ [⟨.write tx w, .ok (), t⟩]) ⟨t.state.add tx w, t.faults⟩) :
    BodySafe E tx I ok post (write tx w >>= k) past s := by
  intro t ht hok r u hu
  refine ⟨trivial, ?_⟩
  rcases faultyHandle_cases hu with ⟨fail, x, hf, hr⟩ | hr
  · cases hf
    obtain ⟨rfl, hst⟩ := mk.inj hr
    exact safe_of_state_eq (hfail t x ht) hst
  · simp only [handle] at hr
    split at hr
    · cases hr
    · split at hr
      next hacc =>
        obtain ⟨rfl, hst⟩ := mk.inj (some.inj hr)
        exact safe_of_state_eq (hpass t ht hok hacc) hst.symm
      · obtain ⟨rfl, hst⟩ := mk.inj (some.inj hr)
        exact safe_of_state_eq (hfail t E.refusal ht) hst.symm

theorem safe_bind {β : Type} {post : β → History T W A → Store T W → Prop}
    {p : TxProg Q W A α} {f : α → TxProg Q W A β} (hs : BodySafe E tx I ok
      (fun a past s => BodySafe E tx I ok post (f a) past s) p past s) :
    BodySafe E tx I ok post (p >>= f) past s :=
  Safe.bind hs

/-- A body leaves the committed tables to the others, and its history only grows. -/
theorem Safe.frame {p : TxProg Q W A α} (hw : Within tx p)
    (hs : BodySafe E tx I ok post p past s) :
    BodySafe E tx I ok (fun a past' u =>
      (∃ later, past' = past ++ later) ∧ I.allowed s.state.committed u.state.committed ∧
        post a past' u) p past s := by
  induction p generalizing past s with
  | pure a => exact fun t ht => ⟨⟨[], by simp⟩, ht.2, hs t ht⟩
  | op o k ih =>
    intro t ht hok r u hu
    refine ⟨trivial, (ih r (hw.2 r) (hs t ht hok r u hu).2).mono ?_⟩
    rintro a past' v ⟨⟨later, rfl⟩, hallowed, hpost⟩
    refine ⟨⟨⟨o, r, t⟩ :: later, by simp⟩, I.trans _ _ _ ht.2 ?_, hpost⟩
    rw [← (faultyHandle_inside hw.1 hu).1]
    exact hallowed
  | diverge => trivial

end Statements

section Transactions

variable {E : Engine T Q W A} {tx : TxId} {I : Interference T}
  {ok : History T W A → TxOp Q W → Store T W → Prop} {P : α → History T W A → Db T W → Prop}
  {β : Type} {post : β → History T W A → Store T W → Prop} {past : History T W A} {s : Store T W}

theorem own_of_inside {o : TxOp Q W} {r : TxRes A o} {u : Store T W} (ho : Inside tx o)
    (e : faultyHandle E o s = some (r, u)) (t : TxId) (ht : t ≠ tx) :
    u.state.own t = s.state.own t := by
  rcases faultyHandle_cases e with ⟨fail, x, hf, hr⟩ | hr
  · cases o with
    | query t' q | write t' w => cases hf; rw [(mk.inj hr).2]
    | start t' | commit t' | rollback t' => exact absurd ho id
  · rcases handle_inside ho hr with h | ⟨w, -, h⟩
    · rw [h]
    · rw [h, own_add_of_ne ht]

/-- A body that keeps to its connection meets the contract of its transaction, as long as
what follows it still has a step to make. -/
theorem Safe.guarded {p : TxProg Q W A β} {f : β → TxProg Q W A (Except String α)}
    (hs : BodySafe E tx I ok post p past s) (hw : Within tx p)
    (hf : ∀ b a, f b ≠ .pure (.ok a)) :
    Safe (faultyHandle E) ((txContract E tx I ok P).before f) post p past s := by
  induction p generalizing past s with
  | pure a => exact hs
  | op o k ih =>
    intro t ht hok r u hu
    obtain ⟨hc, -⟩ := faultyHandle_inside hw.1 hu
    exact ⟨⟨own_of_inside hw.1 hu, .inl ⟨hc, fun a => Prog.bind_ne_pure (hf · a) (k r)⟩⟩,
      ih r (hs t ht hok r u hu).2 (hw.2 r)⟩
  | diverge => trivial

theorem conclude_ne (r : Except String α) (a : α) :
    (conclude tx r : TxProg Q W A (Except String α)) ≠ .pure (.ok a) := by
  intro h
  cases r <;> cases h

/-- A transaction whose body ends with `P` publishes only what `P` says. -/
theorem safe_transaction {body : TxProg Q W A (Except String α)} (hw : Within tx body)
    (hbody : ∀ past t, Undisturbed tx I s t → BodySafe E tx I ok
      (fun r past u => ∀ a, r = .ok a → P a past u.state) body past t) :
    Safe (faultyHandle E) (txContract E tx I ok P) (fun _ _ _ => True)
      (transaction tx body) past s := by
  intro t ht _ r u hu
  rcases faultyHandle_cases hu with ⟨fail, x, hf, hr⟩ | hr
  · cases hf
    obtain ⟨rfl, hst⟩ := mk.inj hr
    refine ⟨⟨fun t' _ => by rw [hst], .inl ⟨by rw [hst], ?_⟩⟩, fun _ _ => trivial⟩
    nofun
  obtain ⟨rfl, hst⟩ := mk.inj (some.inj hr)
  have hsafe := safe_of_state_eq (hbody (past ++ [⟨.start tx, .ok (), t⟩]) t ht) hst.symm
  refine ⟨⟨fun t' _ => by rw [hst], .inl ⟨by rw [hst], ?_⟩⟩, ?_⟩
  · intro a
    exact Prog.bind_ne_pure (conclude_ne · a) body
  · change Safe _ _ _ (body >>= conclude tx) _ _
    refine Safe.bind (Safe.guarded (hsafe.post_stable.mono ?_) hw conclude_ne)
    intro r past v hv
    cases r with
    | error e =>
      intro t' _ _ r' u' hu'
      rcases faultyHandle_cases hu' with ⟨fail, x, hf, -⟩ | hr'
      · cases hf
      obtain ⟨rfl, hst'⟩ := mk.inj (some.inj hr')
      refine ⟨⟨fun t'' h'' => by rw [← hst', own_discard_of_ne h''],
        .inl ⟨by rw [← hst']; rfl, ?_⟩⟩, fun _ _ => trivial⟩
      nofun
    | ok b =>
      intro t' ht' hok' r' u' hu'
      have hP := hv t' ht' b rfl
      rcases faultyHandle_cases hu' with ⟨fail, x, hf, hr'⟩ | hr'
      · cases hf
        obtain ⟨rfl, hst'⟩ := mk.inj hr'
        refine ⟨⟨fun t'' h'' => by rw [hst', own_discard_of_ne h''],
          .inl ⟨by rw [hst']; rfl, ?_⟩⟩, fun _ _ => trivial⟩
        nofun
      · obtain ⟨rfl, hst'⟩ := mk.inj (some.inj hr')
        refine ⟨⟨fun t'' h'' => by rw [← hst', own_publish, own_discard_of_ne h''],
          .inr ⟨b, rfl, hP, hok', rfl, by rw [← hst']; rfl⟩⟩, fun _ _ => trivial⟩

/-- The contract survives a change of the result. -/
theorem safe_map {γ : Type} {P' : γ → History T W A → Db T W → Prop} {f : α → γ}
    (hP : ∀ a past db, P a past db → P' (f a) past db) {p : TxProg Q W A (Except String α)}
    (hs : Safe (faultyHandle E) (txContract E tx I ok P) (fun _ _ _ => True) p past s) :
    Safe (faultyHandle E) (txContract E tx I ok P') (fun _ _ _ => True)
      (p >>= fun r => pure (r.map f)) past s := by
  induction p generalizing past s with
  | pure a => exact fun _ _ => trivial
  | op o k ih =>
    intro t ht hok r u hu
    obtain ⟨⟨hown, hstep⟩, hk⟩ := hs t ht hok r u hu
    refine ⟨⟨hown, ?_⟩, ih r hk⟩
    rcases hstep with ⟨hc, hq⟩ | ⟨a, hq, ha, rest⟩
    · refine .inl ⟨hc, ?_⟩
      intro b hb
      change (k r >>= fun r => pure (r.map f)) = _ at hb
      -- a mapped program has ended well only if the program itself has
      cases hkr : k r with
      | pure x =>
        cases x with
        | error e => rw [hkr] at hb; cases hb
        | ok a => exact hq a hkr
      | op o' k' => rw [hkr] at hb; cases hb
      | diverge => rw [hkr] at hb; cases hb
    · refine .inr ⟨f a, ?_, hP _ _ _ ha, rest⟩
      change (k r >>= fun r => pure (r.map f)) = _
      rw [hq]
      rfl
  | diverge => trivial

/-- Run alone, a transaction that ends well has published a store with `P`. -/
theorem wp_published {p : TxProg Q W A (Except String α)}
    (hs : Safe (faultyHandle E) (txContract E tx I (fun _ _ _ => True) P)
      (fun _ _ _ => True) p past s) (hp : ∀ a, p ≠ .pure (.ok a)) :
    wp (faultyHandle E) p (fun r u => ∀ a, r = .ok a →
      ∃ past db, P a past db ∧ u.state.committed = db.view E tx) s := by
  induction p generalizing past s with
  | pure r =>
    refine wp_pure.mpr fun a ha => ?_
    subst ha
    exact absurd rfl (hp a)
  | op o k ih =>
    rw [wp_op]
    intro r u hu
    obtain ⟨⟨-, hstep⟩, hk⟩ := hs s (undisturbed_refl tx I s) trivial r u hu
    rcases hstep with ⟨-, hq⟩ | ⟨a, hq, ha, -, -, hc⟩
    · exact ih r hk hq
    · rw [hq]
      refine wp_pure.mpr fun b hb => ?_
      cases hb
      exact ⟨past, s.state, ha, hc⟩
  | diverge => exact wp_diverge

end Transactions

end TransactionPools
