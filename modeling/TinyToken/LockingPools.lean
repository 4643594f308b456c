import TinyToken.LockingStore
import TinyToken.TransactionPools

/-! Transactions of a locking store that interleave statement by statement and may fail at any
statement. A body is followed by what it holds: the writes and locks of its transaction, an
assertion about the committed tables that they guard, and the answers it has had. Others
cannot break the assertion, so it still holds where the transaction commits. -/
namespace LockingPools

open ProgramSteps InterleavedPrograms LockingStore List Option Prod Finset
open ReadCommittedStore (TxId Db)
open ReadCommittedStore.Db (own_discard_of_ne own_discard_self)
open TransactionPools (Store)

variable {T S W : Type} {B : S → Type} {α β γ : Type}

abbrev History (S T W : Type) (B : S → Type) := List (Seen (RowOp S) (RowRes B) (Store T W))

section Contracts

variable (E : RowEngine T S W B) (tx : TxId)
  (ok : History S T W B → RowOp S → Store T W → Prop) (P : α → History S T W B → Db T W → Prop)

/-- What the others may do: they leave the pending writes of the transaction and keep every
assertion its locks guard. -/
structure Undisturbed (s t : Store T W) : Prop where
  own : t.state.own tx = s.state.own tx
  guarded : ∀ p : T → Prop, Guards E (s.state.own tx) p → p s.state.committed → p t.state.committed

theorem undisturbed_of_state {s t : Store T W} (h : t.state = s.state) : Undisturbed E tx s t := by
  exact ⟨by rw [h], fun p _ hp => by rwa [h]⟩

theorem undisturbed_trans (s t u : Store T W) (hst : Undisturbed E tx s t)
    (htu : Undisturbed E tx t u) : Undisturbed E tx s u where
  own := htu.own.trans hst.own
  guarded := fun p hg hp => htu.guarded p (by rwa [hst.own]) (hst.guarded p hg hp)

/-- The inside of a transaction only executes statements on its own connection. -/
def bodyContract : Contract (RowOp S) (RowRes B) α (Store T W) where
  ok := ok
  rely := Undisturbed E tx
  guar := fun _ e _ _ => ∃ q, e.op = .exec tx q
  rely_refl := fun _ => undisturbed_of_state E tx rfl
  rely_trans := undisturbed_trans E tx

/-- The step that ends a call with success publishes its writes. -/
def Publishes (past : History S T W B) (e : Seen (RowOp S) (RowRes B) (Store T W))
    (u : Store T W) (q : RowProg S B (Except String α)) : Prop :=
  ∃ a, q = .pure (.ok a) ∧ P a past e.met.state ∧ ok past e.op e.met ∧ e.op = .commit tx ∧
    u.state.committed = seen E e.met.state tx

def Quiet (s u : Store T W) (q : RowProg S B (Except String α)) : Prop :=
  u.state.committed = s.state.committed ∧ ∀ a, q ≠ .pure (.ok a)

/-- A call publishes once, with the step that ends it successfully, and never touches the
pending writes of others. -/
def callContract : Contract (RowOp S) (RowRes B) (Except String α) (Store T W) where
  ok := ok
  rely := Undisturbed E tx
  guar := fun past e u q => (∀ t, t ≠ tx → u.state.own t = e.met.state.own t) ∧
    (Quiet e.met u q ∨ Publishes E tx ok P past e u q)
  rely_refl := fun _ => undisturbed_of_state E tx rfl
  rely_trans := undisturbed_trans E tx

end Contracts

section Outcomes

variable {E : RowEngine T S W B} {s : Store T W}

variable {u : Store T W}

/-- Every outcome of a statement: it fails, or it does what it does without faults. -/
theorem exec_outcomes {tx : TxId} {q : S} {r : Except String (B q)}
    (e : faultyHandle E (.exec tx q) s = some (r, u)) :
    (∃ x, r = .error x ∧ u.state = s.state ∧
      (s.faults ≠ [] ∨ E.exec q (seen E s.state tx) = .error x)) ∨
      ∃ b vs, r = .ok b ∧ E.exec q (seen E s.state tx) = .ok (b, vs) ∧
        u.state = addAll s.state tx vs := by
  rcases withFaults_why e with ⟨hne, fail, x, hf, hr⟩ | hr
  · cases hf
    obtain ⟨rfl, hst⟩ := mk.inj hr
    exact .inl ⟨x, rfl, hst, .inl hne⟩
  · simp only [handle] at hr
    split at hr
    next x hexec =>
      obtain ⟨rfl, hst⟩ := mk.inj (some.inj hr)
      exact .inl ⟨x, rfl, hst.symm, .inr hexec⟩
    next b vs hexec =>
      split at hr
      · cases hr
      · obtain ⟨rfl, hst⟩ := mk.inj (some.inj hr)
        exact .inr ⟨b, vs, rfl, hexec, hst.symm⟩

theorem start_outcomes {tx : TxId} {r : Except String Unit}
    (e : faultyHandle E (.start tx) s = some (r, u)) :
    u.state = s.state ∧ (r = .ok () ∨ s.faults ≠ []) := by
  rcases withFaults_why e with ⟨hne, fail, x, hf, hr⟩ | hr
  · cases hf
    exact ⟨(mk.inj hr).2, .inr hne⟩
  · obtain ⟨rfl, hst⟩ := mk.inj (some.inj hr)
    exact ⟨hst.symm, .inl rfl⟩

theorem commit_outcomes {tx : TxId} {r : Except String Unit}
    (e : faultyHandle E (.commit tx) s = some (r, u)) :
    (∃ x, r = .error x ∧ u.state = s.state.discard tx ∧ s.faults ≠ []) ∨
      (r = .ok () ∧ u.state = publish E s.state tx) := by
  rcases withFaults_why e with ⟨hne, fail, x, hf, hr⟩ | hr
  · cases hf
    obtain ⟨rfl, hst⟩ := mk.inj hr
    exact .inl ⟨x, rfl, hst, hne⟩
  · obtain ⟨rfl, hst⟩ := mk.inj (some.inj hr)
    exact .inr ⟨rfl, hst.symm⟩

theorem rollback_outcomes {tx : TxId} {r : Unit}
    (e : faultyHandle E (.rollback tx) s = some (r, u)) : u.state = s.state.discard tx := by
  rcases withFaults_cases e with ⟨fail, x, hf, hr⟩ | hr
  · cases hf
  · exact (mk.inj (some.inj hr)).2.symm

end Outcomes

section Bodies

variable {E : RowEngine T S W B} {tx : TxId}
  {ok : History S T W B → RowOp S → Store T W → Prop} {err : T → Prop}
  {P : α → History S T W B → Db T W → Prop} {ws : List W} {p p' : T → Prop}
  {facts : List (Sigma B)}

/-- The statement stands in the history with this answer. -/
def Answered (tx : TxId) (past : History S T W B) (fact : Sigma B) : Prop :=
  ∃ met, (⟨.exec tx fact.1, .ok fact.2, met⟩ : Seen (RowOp S) (RowRes B) (Store T W)) ∈ past

theorem Answered.append {past : History S T W B} {fact : Sigma B} (h : Answered tx past fact)
    (later : History S T W B) : Answered tx (past ++ later) fact := by
  obtain ⟨met, hmem⟩ := h
  exact ⟨met, mem_append_left _ hmem⟩

/-- An assertion that nobody breaks and that holds wherever a statement may still fail. -/
structure AtFault (E : RowEngine T S W B) (ok : History S T W B → RowOp S → Store T W → Prop)
    (err : T → Prop) : Prop where
  lasting : Guards E [] err
  fault : ∀ past o t, ok past o t → t.faults ≠ [] → err t.state.committed

theorem atFault_true : AtFault E ok fun _ => True := ⟨guards_true, fun _ _ _ _ _ => trivial⟩

/-- What a body has come to: its writes, an assertion about the committed tables, and the
answers it has had. -/
structure Holding (tx : TxId) (ws : List W) (p : T → Prop) (facts : List (Sigma B))
    (past : History S T W B) (db : Db T W) : Prop where
  own : db.own tx = ws
  assertion : p db.committed
  answers : ∀ fact ∈ facts, Answered tx past fact

/-- From there the rest of the body is safe, ends well only with `P`, and with an error only
where `err` holds. -/
def Body (E : RowEngine T S W B) (tx : TxId)
    (ok : History S T W B → RowOp S → Store T W → Prop) (err : T → Prop)
    (P : α → History S T W B → Db T W → Prop) (ws : List W) (p : T → Prop)
    (facts : List (Sigma B)) (prog : RowProg S B (Except String α)) : Prop :=
  ∀ past s, Holding tx ws p facts past s.state → Safe (faultyHandle E) (bodyContract E tx ok)
      (fun r past u => (∀ a, r = .ok a → P a past u.state) ∧
        ∀ e, r = .error e → err u.state.committed) prog past s

theorem Holding.stable {past : History S T W B} {s t : Store T W}
    (h : Holding tx ws p facts past s.state) (hguard : Guards E ws p)
    (ht : Undisturbed E tx s t) : Holding tx ws p facts past t.state where
  own := ht.own.trans h.own
  assertion := ht.guarded p (by rwa [h.own]) h.assertion
  answers := h.answers

variable {prog : RowProg S B (Except String α)}

theorem body_mono (hp : ∀ c, p c → p' c)
    (h : Body E tx ok err P ws p' facts prog) : Body E tx ok err P ws p facts prog :=
  fun past s hs => h past s ⟨hs.own, hp _ hs.assertion, hs.answers⟩

/-- What is not needed of the answers may be forgotten. -/
theorem body_forget {more : List (Sigma B)}
    (h : Body E tx ok err P ws p facts prog) : Body E tx ok err P ws p (facts ++ more) prog :=
  fun past s hs => h past s ⟨hs.own, hs.assertion,
    fun fact hfact => hs.answers fact (mem_append_left more hfact)⟩

theorem body_error {e : String} (herr : Guards E [] err) (h : ∀ c, p c → err c) :
    Body E tx ok err P ws p facts (pure (.error e)) := by
  intro past s hs t ht
  refine ⟨nofun, fun x _ => ?_⟩
  exact ht.guarded err (herr.mono (nil_subset _)) (h _ hs.assertion)

/-- Where nothing is asked of an error. -/
theorem body_fail {e : String} : Body E tx ok (fun _ => True) P ws p facts (pure (.error e)) :=
  body_error guards_true fun _ _ => trivial

/-- A point that no run comes to. -/
theorem body_absurd (h : ∀ c, ¬ p c) : Body E tx ok err P ws p facts prog :=
  fun _ _ hs => absurd hs.assertion (h _)

theorem body_ok {a : α} (hguard : Guards E ws p)
    (h : ∀ past db, Holding tx ws p facts past db → P a past db) :
    Body E tx ok err P ws p facts (pure (.ok a)) := by
  intro past s hs t ht
  refine ⟨fun b hb => ?_, nofun⟩
  cases hb
  exact h past t.state (hs.stable hguard ht)

section

variable {q : S} {k : Except String (B q) → RowProg S B (Except String α)}
  (hat : AtFault E ok err) (hguard : Guards E ws p)
include hat hguard

/-- One statement: it may fail, by itself or where `err` holds; where it passes, `ok` may add
to the assertion, and what it answered was true of the committed tables under the writes
of the transaction. -/
theorem body_exec_ok
    (hok : ∀ past t, Holding tx ws p facts past t.state → ok past (.exec tx q) t →
      p' t.state.committed)
    (hfail : ∀ x, Body E tx ok err P ws
      (fun c => p c ∧ (err c ∨ E.exec q (applyAll E ws c) = .error x)) facts (k (.error x)))
    (hpass : ∀ b vs c, p' c → E.exec q (applyAll E ws c) = .ok (b, vs) →
      Body E tx ok err P (ws ++ vs) (fun c => p' c ∧ E.exec q (applyAll E ws c) = .ok (b, vs))
        (facts ++ [⟨q, b⟩]) (k (.ok b))) :
    Body E tx ok err P ws p facts (exec tx q >>= k) := by
  intro past s hs t ht hallowed r u hu
  have hold := hs.stable hguard ht
  refine ⟨⟨q, rfl⟩, ?_⟩
  rcases exec_outcomes hu with ⟨x, rfl, hst, hwhy⟩ | ⟨b, vs, rfl, hexec, hst⟩
  · refine hfail x _ _ ⟨by rw [hst]; exact hold.own, ?_, ?_⟩
    · rw [hst]
      rw [seen_of_own hold.own] at hwhy
      exact ⟨hold.assertion, hwhy.imp (hat.fault past _ t hallowed) id⟩
    · exact fun fact hfact => (hold.answers fact hfact).append _
  · rw [seen_of_own hold.own] at hexec
    have hmore := hok past t hold hallowed
    refine hpass b vs _ hmore hexec _ _ ⟨?_, ?_, ?_⟩
    · rw [hst, own_addAll_self, hold.own]
    · rw [hst]
      exact ⟨hmore, hexec⟩
    · intro fact hfact
      rcases mem_append.mp hfact with hfact | hfact
      · exact (hold.answers fact hfact).append _
      · cases List.mem_singleton.mp hfact
        exact ⟨t, by simp⟩

theorem body_exec (hfail : ∀ x, Body E tx ok err P ws
      (fun c => p c ∧ (err c ∨ E.exec q (applyAll E ws c) = .error x)) facts (k (.error x)))
    (hpass : ∀ b vs c, p c → E.exec q (applyAll E ws c) = .ok (b, vs) →
      Body E tx ok err P (ws ++ vs) (fun c => p c ∧ E.exec q (applyAll E ws c) = .ok (b, vs))
        (facts ++ [⟨q, b⟩]) (k (.ok b))) :
    Body E tx ok err P ws p facts (exec tx q >>= k) :=
  body_exec_ok hat hguard (fun _ _ h _ => h.assertion) hfail hpass

/-- A statement that no index can refuse fails only where `err` holds. -/
theorem body_total (htotal : ∀ t x, E.exec q t ≠ .error x)
    (hfail : ∀ x, Body E tx ok err P ws (fun c => p c ∧ err c) facts (k (.error x)))
    (hpass : ∀ b vs c, p c → E.exec q (applyAll E ws c) = .ok (b, vs) →
      Body E tx ok err P (ws ++ vs) (fun c => p c ∧ E.exec q (applyAll E ws c) = .ok (b, vs))
        (facts ++ [⟨q, b⟩]) (k (.ok b))) :
    Body E tx ok err P ws p facts (exec tx q >>= k) := by
  refine body_exec hat hguard (fun x => body_mono ?_ (hfail x)) hpass
  rintro c ⟨hp, herr | hexec⟩
  · exact ⟨hp, herr⟩
  · exact absurd hexec (htotal _ x)

/-- A statement that always answers and writes nothing. -/
theorem body_read (hread : ∀ t, ∃ b, E.exec q t = .ok (b, []))
    (hfail : ∀ x, Body E tx ok err P ws (fun c => p c ∧ err c) facts (k (.error x)))
    (hpass : ∀ b, Body E tx ok err P ws (fun c => p c ∧ E.exec q (applyAll E ws c) = .ok (b, []))
      (facts ++ [⟨q, b⟩]) (k (.ok b))) :
    Body E tx ok err P ws p facts (exec tx q >>= k) := by
  refine body_total hat hguard (fun t x h => ?_) hfail fun b vs c _ hexec => ?_
  · obtain ⟨b, hb⟩ := hread t
    rw [hb] at h
    cases h
  · obtain ⟨b', hb⟩ := hread (applyAll E ws c)
    rw [hexec] at hb
    cases hb
    rw [append_nil]
    exact hpass b

/-- A statement that always makes the same writes. -/
theorem body_write {b : B q} {vs : List W} (hwrite : ∀ t, E.exec q t = .ok (b, vs))
    (hfail : ∀ x, Body E tx ok err P ws (fun c => p c ∧ err c) facts (k (.error x)))
    (hpass : Body E tx ok err P (ws ++ vs) p facts (k (.ok b))) :
    Body E tx ok err P ws p facts (exec tx q >>= k) := by
  refine body_total hat hguard (fun t x h => ?_) hfail fun b' vs' c _ hexec => ?_
  · rw [hwrite t] at h
    cases h
  · rw [hwrite] at hexec
    cases hexec
    exact body_forget (body_mono (fun _ h => h.1) hpass)

end

end Bodies

section Calls

variable {E : RowEngine T S W B} {tx : TxId}
  {ok : History S T W B → RowOp S → Store T W → Prop} {pre err : T → Prop}
  {P : α → History S T W B → Db T W → Prop} {past : History S T W B} {s : Store T W}

/-- What a call leaves where it ends: no writes pending, and after an error `err`. -/
def CallEnds (tx : TxId) (err : T → Prop) (r : Except String α) (_ : History S T W B)
    (u : Store T W) : Prop :=
  u.state.own tx = [] ∧ ∀ e, r = .error e → err u.state.committed

/-- Safe as a call that begins where `pre` holds. -/
def CallSafe (E : RowEngine T S W B) (tx : TxId)
    (ok : History S T W B → RowOp S → Store T W → Prop) (pre err : T → Prop)
    (P : α → History S T W B → Db T W → Prop) (prog : RowProg S B (Except String α)) : Prop :=
  ∀ past s, s.state.own tx = [] → pre s.state.committed →
    Safe (faultyHandle E) (callContract E tx ok P) (CallEnds tx err) prog past s

theorem lasting_kept {p : T → Prop} (h : Guards E [] p) {t : Store T W} (ht : Undisturbed E tx s t)
    (hp : p s.state.committed) : p t.state.committed :=
  ht.guarded p (h.mono (nil_subset _)) hp

theorem conclude_ne (r : Except String α) (a : α) :
    (conclude tx r : RowProg S B (Except String α)) ≠ .pure (.ok a) := by
  intro h
  cases r <;> cases h

theorem exec_leaves {q : S} {r : Except String (B q)} {t u : Store T W}
    (e : faultyHandle E (.exec tx q) t = some (r, u)) :
    (∀ t', t' ≠ tx → u.state.own t' = t.state.own t') ∧ u.state.committed = t.state.committed := by
  rcases exec_outcomes e with ⟨x, -, hst, -⟩ | ⟨b, vs, -, -, hst⟩
  · rw [hst]
    exact ⟨fun _ _ => rfl, rfl⟩
  · rw [hst]
    exact ⟨fun t' h => own_addAll_of_ne h, rfl⟩

/-- A body meets the contract of its call, as long as what follows it still has a step. -/
theorem Safe.guarded {post : β → History S T W B → Store T W → Prop} {prog : RowProg S B β}
    {f : β → RowProg S B (Except String α)}
    (hs : Safe (faultyHandle E) (bodyContract E tx ok) post prog past s)
    (hf : ∀ b a, f b ≠ .pure (.ok a)) :
    Safe (faultyHandle E) ((callContract E tx ok P).before f) post prog past s := by
  induction prog generalizing past s with
  | pure a => exact hs
  | op o k ih =>
    intro t ht hok r u hu
    obtain ⟨⟨q, hq⟩, hk⟩ := hs t ht hok r u hu
    subst hq
    obtain ⟨hown, hc⟩ := exec_leaves hu
    exact ⟨⟨hown, .inl ⟨hc, fun a => Prog.bind_ne_pure (hf · a) (k r)⟩⟩, ih r hk⟩
  | diverge => trivial

theorem quiet_error {u : Store T W} {e : String} (hc : u.state.committed = s.state.committed) :
    Quiet s u (.pure (.error e) : RowProg S B (Except String α)) :=
  ⟨hc, nofun⟩

/-- A transaction whose body ends with `P` publishes only what `P` says. -/
theorem callSafe_transaction (hat : AtFault E ok err) (hpre : Guards E [] pre)
    {body : RowProg S B (Except String α)} (hbody : Body E tx ok err P [] pre [] body) :
    CallSafe E tx ok pre err P (transaction tx body) := by
  intro past s hs hp t ht hallowed r u hu
  obtain ⟨hst, hr⟩ := start_outcomes hu
  have hnil : u.state.own tx = [] := by
    rw [hst, ht.own]
    exact hs
  have hown : ∀ t' ≠ tx, u.state.own t' = t.state.own t' := fun t' _ => by rw [hst]
  have hcommitted : u.state.committed = t.state.committed := by rw [hst]
  cases r with
  | error e =>
    refine ⟨⟨hown, .inl (quiet_error hcommitted)⟩, fun v hv => ⟨hv.own.trans hnil, ?_⟩⟩
    intro _ _
    apply lasting_kept hat.lasting hv
    rw [hcommitted]
    exact hat.fault past _ t hallowed (hr.resolve_left nofun)
  | ok _ =>
    refine ⟨⟨hown, .inl ⟨hcommitted, fun a => Prog.bind_ne_pure (conclude_ne · a) body⟩⟩, ?_⟩
    change Safe _ _ _ (body >>= conclude tx) _ _
    have hhold : Holding tx [] pre [] (past ++ [⟨.start tx, .ok (), t⟩]) u.state :=
      ⟨hnil, by rw [hcommitted]; exact lasting_kept hpre ht hp, by simp⟩
    refine Safe.bind (Safe.guarded ((hbody _ u hhold).post_stable.mono ?_) conclude_ne)
    intro r past v hv
    cases r with
    | error e =>
      intro t' ht' _ r' u' hu'
      have hst' := rollback_outcomes hu'
      refine ⟨⟨fun t'' h'' => by rw [hst', own_discard_of_ne h''],
        .inl (quiet_error (by rw [hst']; rfl))⟩, ?_⟩
      intro v' hv'
      refine ⟨by rw [hv'.own, hst', own_discard_self], fun _ _ => lasting_kept hat.lasting hv' ?_⟩
      rw [hst']
      exact (hv t' ht').2 e rfl
    | ok b =>
      intro t' ht' hok' r' u' hu'
      have hP := (hv t' ht').1 b rfl
      rcases commit_outcomes hu' with ⟨x, rfl, hst', hne⟩ | ⟨rfl, hst'⟩
      · refine ⟨⟨fun t'' h'' => by rw [hst', own_discard_of_ne h''],
          .inl (quiet_error (by rw [hst']; rfl))⟩, ?_⟩
        intro v' hv'
        refine ⟨by rw [hv'.own, hst', own_discard_self], fun _ _ => lasting_kept hat.lasting hv' ?_⟩
        rw [hst']
        exact hat.fault past _ t' hok' hne
      · refine ⟨⟨fun t'' h'' => by rw [hst', own_publish, own_discard_of_ne h''],
          .inr ⟨b, rfl, hP, hok', rfl, by rw [hst']; rfl⟩⟩, ?_⟩
        intro v' hv'
        refine ⟨by rw [hv'.own, hst', own_publish, own_discard_self], nofun⟩

/-- A call may end at once with an error. -/
theorem callSafe_fail {e : String} :
    CallSafe E tx ok (fun _ => True) (fun _ => True) P (pure (.error e)) :=
  fun _ _ hs _ _ ht => ⟨ht.own.trans hs, fun _ _ => trivial⟩

theorem callSafe_mono {P' : α → History S T W B → Db T W → Prop}
    {prog : RowProg S B (Except String α)} (hP : ∀ a past db, P a past db → P' a past db)
    (h : CallSafe E tx ok pre err P prog) : CallSafe E tx ok pre err P' prog := by
  intro past s hs hp
  have hsafe := h past s hs hp
  clear hs hp h
  induction prog generalizing past s with
  | pure r => exact hsafe
  | op o k ih =>
    intro t ht hallowed r u hu
    obtain ⟨⟨hown, hstep⟩, hk⟩ := hsafe t ht hallowed r u hu
    refine ⟨⟨hown, hstep.imp id ?_⟩, ih r _ _ hk⟩
    rintro ⟨a, hq, ha, rest⟩
    exact ⟨a, hq, hP a past _ ha, rest⟩
  | diverge => trivial

/-- A statement outside a transaction that writes nothing. -/
theorem callSafe_read {q : S} {k : Except String (B q) → RowProg S B (Except String α)}
    (hpre : Guards E [] pre) (hread : ∀ t b vs, E.exec q t = .ok (b, vs) → vs = [])
    (hnext : ∀ r a, k r ≠ .pure (.ok a)) (hk : ∀ r, CallSafe E tx ok pre err P (k r)) :
    CallSafe E tx ok pre err P (exec tx q >>= k) := by
  intro past s hs hp t ht _ r u hu
  have hnil : t.state.own tx = [] := ht.own.trans hs
  obtain ⟨hown, hc⟩ := exec_leaves hu
  refine ⟨⟨hown, .inl ⟨hc, hnext r⟩⟩, hk r _ _ ?_ (by rw [hc]; exact lasting_kept hpre ht hp)⟩
  rcases exec_outcomes hu with ⟨x, -, hst, -⟩ | ⟨b, vs, -, hexec, hst⟩
  · rw [hst, hnil]
  · rw [hst, own_addAll_self, hnil, hread _ _ _ hexec]
    rfl

/-- What follows a call: success is only given its final form, and after an error, which has
left nothing behind, another call may follow. -/
theorem callSafe_then {err' : T → Prop} {P' : γ → History S T W B → Db T W → Prop}
    {prog : RowProg S B (Except String α)} {k : Except String α → RowProg S B (Except String γ)}
    {f : α → γ} (hok : ∀ a, k (.ok a) = .pure (.ok (f a)))
    (herror : ∀ e c, k (.error e) ≠ .pure (.ok c))
    (hnext : ∀ e, CallSafe E tx ok err err' P' (k (.error e)))
    (hP : ∀ a past db, P a past db → P' (f a) past db) (h : CallSafe E tx ok pre err P prog) :
    CallSafe E tx ok pre err' P' (prog >>= k) := by
  intro past s hs hp
  have hsafe := h past s hs hp
  clear hs hp h
  apply Safe.bind
  induction prog generalizing past s with
  | pure r =>
    intro t ht
    obtain ⟨hnil, herr⟩ := hsafe t ht
    cases r with
    | error e => exact hnext e past t hnil (herr e rfl)
    | ok a =>
      rw [hok a]
      exact fun u hu => ⟨hu.own.trans hnil, nofun⟩
  | op o k' ih =>
    intro t ht hallowed r u hu
    obtain ⟨⟨hown, hstep⟩, hk⟩ := hsafe t ht hallowed r u hu
    refine ⟨⟨hown, ?_⟩, ih r _ _ hk⟩
    rcases hstep with ⟨hc, hq⟩ | ⟨a, hq, ha, rest⟩
    · refine .inl ⟨hc, ?_⟩
      intro c hc
      -- the whole has ended well only if the call itself has
      cases hkr : k' r with
      | pure x =>
        rw [hkr] at hc
        cases x with
        | error e => exact herror e c hc
        | ok a => exact hq a hkr
      | op o' k'' => rw [hkr] at hc; cases hc
      | diverge => rw [hkr] at hc; cases hc
    · refine .inr ⟨f a, ?_, hP _ _ _ ha, rest⟩
      rw [hq]
      exact hok a
  | diverge => trivial

end Calls

section Alone

variable {E : RowEngine T S W B} {tx : TxId} {R : T → α → T → Prop}

/-- What a program does to the committed tables when nothing else runs, on a connection
without pending writes. -/
def Alone (E : RowEngine T S W B) (tx : TxId) (R : T → α → T → Prop) (prog : RowProg S B α) :
    Prop :=
  ∀ s : Store T W, s.state.own tx = [] → wp (faultyHandle E) prog
      (fun a u => u.state.own tx = [] ∧ R s.state.committed a u.state.committed) s

theorem alone_pure {a : α} (h : ∀ t, R t a t) : Alone E tx R (pure a : RowProg S B α) :=
  fun s hs => wp_pure.mpr ⟨hs, h s.state.committed⟩

theorem alone_mono {R' : T → α → T → Prop} {prog : RowProg S B α} (h : Alone E tx R prog)
    (hR : ∀ t a u, R t a u → R' t a u) : Alone E tx R' prog :=
  fun s hs => wp_mono (h s hs) fun a _ hu => ⟨hu.1, hR _ a _ hu.2⟩

theorem alone_bind {R' : α → T → γ → T → Prop} {Q : T → γ → T → Prop} {prog : RowProg S B α}
    {k : α → RowProg S B γ} (h : Alone E tx R prog) (hk : ∀ a, Alone E tx (R' a) (k a))
    (hQ : ∀ t a u b v, R t a u → R' a u b v → Q t b v) : Alone E tx Q (prog >>= k) := by
  intro s hs
  rw [wp_bind]
  refine wp_mono (h s hs) fun a u hu => ?_
  refine wp_mono (hk a u hu.1) fun b v hv => ?_
  exact ⟨hv.1, hQ _ a _ b _ hu.2 hv.2⟩

/-- A statement that writes nothing. -/
theorem alone_read {q : S} (hread : ∀ t b vs, E.exec q t = .ok (b, vs) → vs = []) :
    Alone E tx (fun t _ u => u = t) (exec tx q : RowProg S B (Except String (B q))) := by
  intro s hs
  refine wp_perform.mpr ?_
  intro r u hu
  rcases exec_outcomes hu with ⟨x, -, hst, -⟩ | ⟨b, vs, -, hexec, hst⟩
  · rw [hst]
    exact ⟨hs, rfl⟩
  · rw [hst, own_addAll_self, hs, hread _ _ _ hexec]
    exact ⟨rfl, rfl⟩

/-- A single statement in a transaction of its own. -/
theorem alone_statement {q : S} : Alone E tx (fun t r u => (∀ e, r = .error e → u = t) ∧
      ∀ b, r = .ok b → ∃ vs, E.exec q t = .ok (b, vs) ∧ u = applyAll E vs t)
      (transaction tx (exec tx q) : RowProg S B (Except String (B q))) := by
  intro s hs
  rw [transaction, wp_bind]
  refine wp_perform.mpr fun r₁ s₁ h₁ => ?_
  obtain ⟨hs₁, -⟩ := start_outcomes h₁
  cases r₁ with
  | error e => exact wp_pure.mpr ⟨by rw [hs₁, hs], fun _ _ => by rw [hs₁], nofun⟩
  | ok _ =>
    have hnil : s₁.state.own tx = [] := by rw [hs₁, hs]
    rw [wp_bind]
    refine wp_perform.mpr fun r₂ s₂ h₂ => ?_
    rcases exec_outcomes h₂ with ⟨x, rfl, hs₂, -⟩ | ⟨b, vs, rfl, hexec, hs₂⟩
    · rw [conclude, wp_bind]
      refine wp_perform.mpr fun r₃ s₃ h₃ => wp_pure.mpr ?_
      have hs₃ := rollback_outcomes h₃
      refine ⟨by rw [hs₃, own_discard_self], fun _ _ => ?_, nofun⟩
      rw [hs₃, hs₂, hs₁]
      rfl
    · rw [conclude, wp_bind]
      refine wp_perform.mpr fun r₃ s₃ h₃ => ?_
      rcases commit_outcomes h₃ with ⟨x, rfl, hs₃, -⟩ | ⟨rfl, hs₃⟩
      · refine wp_pure.mpr ⟨by rw [hs₃, own_discard_self], fun _ _ => ?_, nofun⟩
        rw [hs₃, hs₂, hs₁]
        rfl
      · refine wp_pure.mpr ⟨by rw [hs₃, own_publish, own_discard_self], fun _ h => (by cases h), ?_⟩
        intro b' hb
        cases hb
        rw [seen_of_own hnil, hs₁] at hexec
        refine ⟨vs, hexec, ?_⟩
        rw [hs₃, publish_committed, hs₂, seen_of_own own_addAll_self, addAll_committed, hnil, hs₁]
        rfl

/-- A call that has nothing in common with others is its one step, or no step. -/
theorem alone_call {P : α → History S T W B → Db T W → Prop}
    {prog : RowProg S B (Except String α)} (hprog : ∀ a, prog ≠ .pure (.ok a))
    (h : CallSafe E tx (fun _ _ _ => True) (fun _ => True) (fun _ => True) P prog) :
    Alone E tx (fun t r u => (∀ e, r = .error e → u = t) ∧
      ∀ a, r = .ok a → ∃ past db, db.committed = t ∧ P a past db ∧ u = seen E db tx) prog := by
  intro s hs
  have hsafe := h [] s hs trivial
  clear hs h
  generalize ([] : History S T W B) = past at hsafe
  induction prog generalizing past s with
  | pure r =>
    obtain ⟨hnil, -⟩ := hsafe s (undisturbed_of_state E tx rfl)
    refine wp_pure.mpr ⟨hnil, fun _ _ => rfl, fun a ha => ?_⟩
    rw [ha] at hprog
    exact absurd rfl (hprog a)
  | op o k ih =>
    rw [wp_op]
    intro r u hu
    obtain ⟨⟨-, hstep⟩, hk⟩ := hsafe s (undisturbed_of_state E tx rfl) trivial r u hu
    rcases hstep with ⟨hc, hq⟩ | ⟨a, hq, ha, -, -, hc⟩
    · rw [← hc]
      exact ih r hq u _ hk
    · have hq : k r = pure (.ok a) := hq
      rw [hq] at hk ⊢
      refine wp_pure.mpr ⟨(hk u (undisturbed_of_state E tx rfl)).1, nofun, fun b hb => ?_⟩
      cases hb
      exact ⟨past, s.state, rfl, ha, hc⟩
  | diverge => exact wp_diverge

end Alone

section Pools

variable {ι : Type} [DecidableEq ι] {E : RowEngine T S W B} {conn : ι → TxId}
  {ok : ι → History S T W B → RowOp S → Store T W → Prop}
  {pre err : ι → T → Prop} {P : ι → α → History S T W B → Db T W → Prop}
  {p q : Pool (RowOp S) (RowRes B) (Except String α) (Store T W) ι}

/-- Every call is safe on its own connection and no two hold conflicting writes. -/
structure Sound (E : RowEngine T S W B) (conn : ι → TxId)
    (ok : ι → History S T W B → RowOp S → Store T W → Prop) (err : ι → T → Prop)
    (P : ι → α → History S T W B → Db T W → Prop)
    (p : Pool (RowOp S) (RowRes B) (Except String α) (Store T W) ι) : Prop where
  safe : AllSafe (faultyHandle E) (fun i => callContract E (conn i) (ok i) (P i))
    (fun i => CallEnds (conn i) (err i)) p
  exclusive : Exclusive E p.state.state

omit [DecidableEq ι] in
/-- Calls on separate connections, over a store in which nothing is pending. -/
theorem sound_start {calls : ι → RowProg S B (Except String α)}
    (hcalls : ∀ i, CallSafe E (conn i) (ok i) (pre i) (err i) (P i) (calls i)) {t : T}
    (hpre : ∀ i, pre i t) (faults : List (Option String)) :
    Sound E conn ok err P (Pool.start ⟨Db.idle t, faults⟩ calls) where
  safe := fun i => hcalls i [] _ rfl (hpre i)
  exclusive := exclusive_idle t

theorem Sound.step (hconn : Function.Injective conn) (h : Sound E conn ok err P p)
    (hs : Step (faultyHandle E) ok (fun _ _ => False) p q) : Sound E conn ok err P q := by
  constructor
  · refine h.safe.step (fun s => Exclusive E s.state) ?_ (fun _ _ _ he => he.elim) h.exclusive hs
    intro i j hij past e u prog hx hguar
    have hne : conn i ≠ conn j := fun he => hij (hconn he)
    refine ⟨hguar.1 (conn i) hne, ?_⟩
    intro assertion hg ha
    rcases hguar.2 with ⟨hc, -⟩ | ⟨a, -, -, -, -, hc⟩
    · rwa [hc]
    · rw [hc]
      exact hg.commit hx hne.symm ha
  · cases hs with
    | thread i _ _ hr => exact h.exclusive.faultyHandle hr
    | env he => exact he.elim

/-- What a result counts for: nothing unless the call has succeeded. -/
def credit (f : α → ℤ) : Option (Except String α) → ℤ
  | some (.ok a) => f a
  | _ => 0

/-- What the calls that have succeeded add up to. -/
def earned [Fintype ι] (f : ι → α → ℤ)
    (p : Pool (RowOp S) (RowRes B) (Except String α) (Store T W) ι) : ℤ :=
  ∑ i, credit (f i) (p.result? i)

omit [DecidableEq ι] in
theorem earned_start [Fintype ι] (f : ι → α → ℤ) {s : Store T W}
    {calls : ι → RowProg S B (Except String α)} (h : ∀ i a, calls i ≠ .pure (.ok a)) :
    earned f (Pool.start s calls) = 0 := by
  refine sum_eq_zero fun i _ => ?_
  match hr : (Pool.start s calls).result? i with
  | none => rfl
  | some (.error e) => rfl
  | some (.ok a) => exact absurd (Pool.result?_eq_some.mp hr) (h i a)

section

variable (h : Sound E conn ok err P p) (hs : Step (faultyHandle E) ok (fun _ _ => False) p q)
include h hs

/-- Every step leaves the committed tables, or it is the one that ends a call with success. -/
theorem Sound.cases :
    (q.state.state.committed = p.state.state.committed ∧
      ∀ i a, q.result? i = some (.ok a) → p.result? i = some (.ok a)) ∨
    ∃ i a, p.result? i = none ∧ q.result? i = some (.ok a) ∧
      (∀ j, j ≠ i → q.result? j = p.result? j) ∧ P i a (p.past i) p.state.state ∧
      ok i (p.past i) (.commit (conn i)) p.state ∧
      q.state.state.committed = seen E p.state.state (conn i) := by
  cases hs with
  | env he => exact he.elim
  | @thread i o k r s hk hok hr =>
    have hothers : ∀ j, j ≠ i → (p.advance i o r s (k r)).result? j = p.result? j :=
      fun j hj => p.result?_advance_of_ne hj o r s (k r)
    have hself : (p.advance i o r s (k r)).thread i = k r := p.thread_advance_self i o r s (k r)
    rcases (h.safe.guarantee hk hok hr).2 with ⟨hc, hq⟩ | ⟨a, hq, ha, hok', ho, hc⟩
    · refine .inl ⟨hc, ?_⟩
      intro j a hj
      by_cases hji : j = i
      · subst hji
        rw [Pool.result?_eq_some, hself] at hj
        exact absurd hj (hq a)
      · rwa [hothers j hji] at hj
    · refine .inr ⟨i, a, Pool.result?_of_op hk, ?_, hothers, ha, ?_, hc⟩
      · rw [Pool.result?_eq_some, hself]
        exact hq
      · subst ho
        exact hok'

/-- The move in which a call succeeds is its commit. -/
theorem Sound.ends {i : ι} {a : α} (hbefore : p.result? i = none)
    (hafter : q.result? i = some (.ok a)) :
    P i a (p.past i) p.state.state ∧ ok i (p.past i) (.commit (conn i)) p.state ∧
      q.state.state.committed = seen E p.state.state (conn i) := by
  rcases h.cases hs with ⟨-, hnone⟩ | ⟨j, b, -, hj, hothers, hP, hok, hc⟩
  · have := hnone i a hafter
    rw [hbefore] at this
    cases this
  · by_cases hij : i = j
    · subst hij
      rw [hafter] at hj
      cases hj
      exact ⟨hP, hok, hc⟩
    · rw [hothers i hij, hbefore] at hafter
      cases hafter

/-- The sum moves with the committed tables: by what the call that succeeds counts for. -/
theorem Sound.earned_cases [Fintype ι] (f : ι → α → ℤ) :
    (q.state.state.committed = p.state.state.committed ∧ earned f q = earned f p) ∨
    ∃ i a, p.result? i = none ∧ q.result? i = some (.ok a) ∧ earned f q = earned f p + f i a ∧
      P i a (p.past i) p.state.state ∧ ok i (p.past i) (.commit (conn i)) p.state ∧
      q.state.state.committed = seen E p.state.state (conn i) := by
  rcases h.cases hs with ⟨hc, hnone⟩ | ⟨i, a, hbefore, hafter, hothers, rest⟩
  · refine .inl ⟨hc, sum_congr rfl fun i _ => ?_⟩
    cases hp : p.result? i with
    | some r => rw [hs.result_kept hp]
    | none =>
      match hq : q.result? i with
      | none => rfl
      | some (.error e) => rfl
      | some (.ok a) =>
        have := hnone i a hq
        rw [hp] at this
        cases this
  · refine .inr ⟨i, a, hbefore, hafter, ?_, rest⟩
    rw [earned, earned, ← sub_eq_iff_eq_add', ← sum_sub_distrib, Fintype.sum_eq_single i]
    · rw [hbefore, hafter]
      simp only [credit, sub_zero]
    · intro j hj
      rw [hothers j hj, sub_self]

end

end Pools

end LockingPools
