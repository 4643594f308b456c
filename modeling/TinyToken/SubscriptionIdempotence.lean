import TinyToken.SubscriptionEffects

/-! Any number of `PreConsumeUserSubscription` calls for one request, one after the other
or interleaved. The unique request id lets one of them charge; the others answer from the
stored record, except that the recovery after a refused insert answers with the candidate
at hand. The answers agree with the record when that candidate is the recorded one. -/
namespace SubscriptionIdempotence

open ProgramSteps InterleavedPrograms ReadCommittedStore Db KeyedTable TransactionPools
  SubscriptionRows SubscriptionTransactions SubscriptionEffects List Option Table Prod

/-- Open transactions hold no conflicting writes, and the record a pending insert is to
create is still missing. -/
structure Reserved (db : SubDb) : Prop where
  exclusive : ∀ p ∈ db.pending, ∀ q ∈ db.pending, p.1 ≠ q.1 → conflicts p.2 q.2 = false
  missing : ∀ tx r, (tx, SubWrite.createRecord r) ∈ db.pending →
    db.committed.records.find? r.requestId = none

variable {db : SubDb} {w : SubWrite}

variable {ι : Type} {tx : TxId} {c : Clock} {now : ι → ℤ}

theorem mem_own : w ∈ db.own tx ↔ (tx, w) ∈ db.pending := by
  simp only [own, List.mem_map, List.mem_filter, decide_eq_true_eq]
  constructor
  · rintro ⟨⟨t, w'⟩, ⟨hmem, rfl⟩, rfl⟩
    exact hmem
  · intro h
    exact ⟨(tx, w), ⟨h, rfl⟩, rfl⟩

theorem reserved_idle (t : Tables) : Reserved (idle t) where
  exclusive := by
    intro p hp
    cases hp
  missing := by
    intro tx r h
    cases h

theorem conflicts_symm (a b : SubWrite) : conflicts a b = conflicts b a := by
  unfold conflicts
  cases a <;> cases b <;> simp [SubWrite.lock, eq_comm]

theorem leavesRecord_of_conflicts {r : SubscriptionPreConsumeRecord}
    (h : conflicts (.createRecord r) w = false) : leavesRecord r.requestId w := by
  cases w with
  | createRecord r' | saveRecord r' =>
    intro he
    simp [conflicts, SubWrite.lock, he] at h
  | _ => trivial

variable {requestId : String} {t : Tables}

theorem applyWrite_record_isSome (h : t.records.find? requestId ≠ none) :
    (applyWrite w t).records.find? requestId ≠ none := by
  cases w with
  | createRecord r =>
    change (t.records.insert r).find? requestId ≠ none
    by_cases hr : requestId = r.requestId
    · subst hr
      simp only [Table.insert, dif_neg h]
      exact h
    · rw [find?_insert_of_ne hr]
      exact h
  | saveRecord r =>
    change (t.records.save r).find? requestId ≠ none
    rw [find?_save]
    split
    · exact some_ne_none _
    · exact h
  | _ => exact h

theorem view_record_none (h : (db.view engine tx).records.find? requestId = none) :
    db.committed.records.find? requestId = none := by
  by_contra hne
  have keep : ∀ (ws : List SubWrite) (t : Tables), t.records.find? requestId ≠ none →
      (ws.foldl (fun t w => applyWrite w t) t).records.find? requestId ≠ none := by
    intro ws
    induction ws with
    | nil => exact fun _ h => h
    | cons w ws ih => exact fun t h => ih _ (applyWrite_record_isSome h)
  exact keep (db.own tx) db.committed hne h

theorem Reserved.add (h : Reserved db) {tx : TxId} (hfree : db.blocked engine tx w = false)
    (hacc : accepts w (db.view engine tx) = true) : Reserved (db.add tx w) := by
  have hnew : ∀ p ∈ db.pending, p.1 ≠ tx → conflicts w p.2 = false := by
    intro p hp hne
    simp only [blocked, others, List.any_filter, List.any_eq_false, Bool.and_eq_true,
      decide_eq_true_eq, not_and, Bool.not_eq_true] at hfree
    exact hfree p hp hne
  constructor
  · intro p hp q hq hne
    simp only [Db.add, List.mem_append, List.mem_singleton] at hp hq
    rcases hp with hp | rfl <;> rcases hq with hq | rfl
    · exact h.exclusive p hp q hq hne
    · rw [conflicts_symm]
      exact hnew p hp hne
    · exact hnew q hq hne.symm
    · exact absurd rfl hne
  · intro tx' r hr
    simp only [Db.add, List.mem_append, List.mem_singleton, Prod.mk.injEq] at hr
    rcases hr with hr | ⟨-, rfl⟩
    · exact h.missing tx' r hr
    · have hview : (db.view engine tx).records.find? r.requestId = none := by
        simpa [accepts] using hacc
      exact (view_record_none hview : db.committed.records.find? r.requestId = none)

theorem Reserved.discard (h : Reserved db) (tx : TxId) : Reserved (db.discard tx) where
  exclusive p hp q hq := h.exclusive p (mem_of_mem_filter hp) q (mem_of_mem_filter hq)
  missing tx' r hr := h.missing tx' r (mem_of_mem_filter hr)

theorem Reserved.publish (h : Reserved db) (tx : TxId) : Reserved (db.publish engine tx) where
  exclusive p hp q hq := h.exclusive p (mem_of_mem_filter hp) q (mem_of_mem_filter hq)
  missing tx' r hr := by
    have hmem := mem_of_mem_filter hr
    have hne : tx' ≠ tx := by simpa using (mem_filter.mp hr).2
    refine (foldl_record ?_ db.committed).trans (h.missing tx' r hmem)
    intro w hw
    exact leavesRecord_of_conflicts (h.exclusive _ hmem _ (mem_own.mp hw) hne)

theorem Reserved.step {o : TxOp SubQuery SubWrite} {s u : SubStore} {r : TxRes SubAnswer o}
    (h : Reserved s.state) (e : faultyHandle engine o s = some (r, u)) : Reserved u.state := by
  rcases faultyHandle_cases e with ⟨fail, x, hf, hr⟩ | hr
  · have hu := (mk.inj hr).2
    cases o with
    | start tx | query tx q | write tx w => cases hf; rw [hu]; exact h
    | commit tx => cases hf; rw [hu]; exact h.discard tx
    | rollback tx => cases hf
  · cases o with
    | start tx | query tx q => rw [← (mk.inj (some.inj hr)).2]; exact h
    | write tx w =>
      simp only [handle] at hr
      split at hr
      · cases hr
      next hfree =>
        split at hr
        next hacc =>
          rw [← (mk.inj (some.inj hr)).2]
          exact h.add (Bool.eq_false_iff.mpr hfree) hacc
        · rw [← (mk.inj (some.inj hr)).2]
          exact h
    | commit tx => rw [← (mk.inj (some.inj hr)).2]; exact h.publish tx
    | rollback tx => rw [← (mk.inj (some.inj hr)).2]; exact h.discard tx

/-- The calls share their request, user and amount; each reads the time for itself. -/
def callAt (requestId : String) (userId amount now : ℤ) : PreConsumeCall :=
  ⟨requestId, userId, amount, now⟩

/-- No reset is due for any subscription of the user at the times the calls read. -/
def Calm {ι : Type} (c : Clock) (userId : ℤ) (now : ι → ℤ) (t : Tables) : Prop :=
  ∀ sub ∈ t.subs.rows, sub.userId = userId → ∀ plan, t.plans.find? sub.planId = some plan →
    ∀ i, maybeReset c sub plan (now i) = some .keep

/-- What the calls do to each other: the tables change at most once, when the record of
the request appears. -/
def onceRecorded {ι : Type} (c : Clock) (userId : ℤ) (now : ι → ℤ) (requestId : String) :
    Interference Tables where
  allowed t t' := t'.plans = t.plans ∧ (Calm c userId now t → Calm c userId now t') ∧
    (t'.records.find? requestId = none → t' = t) ∧
    (t.records.find? requestId ≠ none → t' = t)
  refl _ := ⟨rfl, id, fun _ => rfl, fun _ => rfl⟩
  trans _ _ _ hst htu := ⟨htu.1.trans hst.1, fun h => htu.2.1 (hst.2.1 h), fun hnone => by
      have hut := htu.2.2.1 hnone
      rw [hut] at hnone ⊢
      exact hst.2.2.1 hnone,
    fun hsome => by
      have hts := hst.2.2.2 hsome
      rw [← hts] at hsome
      rw [← hts]
      exact htu.2.2.2 hsome⟩

theorem eq_of_recorded {userId : ℤ} {t t' : Tables} {record : SubscriptionPreConsumeRecord}
    (h : (onceRecorded c userId now requestId).allowed t t')
    (hrec : t.records.find? requestId = some record) : t' = t :=
  h.2.2.2 (by rw [hrec]; exact some_ne_none _)

def chargedTables (call : PreConsumeCall) (sub : UserSubscription) (t : Tables) : Tables :=
  (chargeWrites call sub).foldl (fun t w => applyWrite w t) t

variable {call : PreConsumeCall} {sub : UserSubscription}

theorem chargedTables_record (h : t.records.find? call.requestId = none) :
    (chargedTables call sub t).records.find? call.requestId = some (call.record sub) := by
  exact find?_insert_self h

theorem visitWrites_of_calm (hcalm : Calm c call.userId now t) {i : ι} (hnow : call.now = now i)
    {visits : List Visit}
    (hscan : scan c t.plans.find? call (candidates call t) = some (visits, sub)) :
    visitWrites visits = [] ∧ sub ∈ t.subs.rows ∧ sub.userId = call.userId := by
  obtain ⟨hall, ⟨v, hv, hsub⟩, -⟩ := scan_visits hscan
  have huser : ∀ v ∈ visits, v.candidate ∈ t.subs.rows ∧ v.candidate.userId = call.userId := by
    intro v hv
    obtain ⟨hmem, hactive⟩ := mem_candidates.mp (hall v hv).1
    simp only [isActive, Bool.and_eq_true, decide_eq_true_eq] at hactive
    exact ⟨hmem, hactive.1.1⟩
  have hkeep : ∀ v ∈ visits, v.outcome = .keep := by
    intro v hv
    obtain ⟨-, plan, hplan, hreset⟩ := hall v hv
    rw [hnow, hcalm _ (huser v hv).1 (huser v hv).2 plan hplan i] at hreset
    exact (some.inj hreset).symm
  constructor
  · rw [visitWrites, flatMap_eq_nil_iff]
    intro v hv
    rw [hkeep v hv]
    rfl
  · have hrow : sub = v.candidate := by
      rw [hsub, hkeep v hv]
      rfl
    subst hrow
    exact huser v hv

theorem calm_chargedTables {userId : ℤ} (hcalm : Calm c userId now t) (hmem : sub ∈ t.subs.rows) :
    Calm c userId now (chargedTables call sub t) := by
  intro row hrow huser plan hplan i
  have hplans : (chargedTables call sub t).plans = t.plans := foldl_plans _ _
  rw [hplans] at hplan
  have hfind : (t.subs.save (charge sub call.amount)).find? row.id = some row :=
    find?_of_mem hrow
  rw [find?_save] at hfind
  split at hfind
  · cases hfind
    exact maybeReset_keep_of_used (hcalm sub hmem huser plan hplan i) _
  · exact hcalm row (find?_some_mem hfind) huser plan hplan i

/-- A call that reads the record after a failed insert had tried to insert it for the
subscription the record names. -/
def RecoversRecorded (requestId : String) (tx : TxId) (past : SubHistory)
    (o : TxOp SubQuery SubWrite) (s : SubStore) : Prop :=
  o = .query tx (.recordByRequest requestId) →
    ∀ tried m, Met past (.write tx (.createRecord tried)) m →
      ∀ stored, s.state.committed.records.find? requestId = some stored →
        stored.userSubscriptionId = tried.userSubscriptionId

section Calls

variable {ι : Type} {c : Clock} {requestId : String} {userId amount : ℤ} {now : ι → ℤ}
  {tx : TxId} {t : Tables} {past : SubHistory} {db : SubDb} {res : SubscriptionPreConsumeResult}
  {i : ι}

def Answers (res : SubscriptionPreConsumeResult) (record : SubscriptionPreConsumeRecord) : Prop :=
  res.userSubscriptionId = record.userSubscriptionId ∧ res.preConsumed = record.preConsumed

/-- A successful call is the one charge of the request, or it changes nothing and answers
from the stored record. -/
theorem commit_cases (hcalm : Calm c userId now t) (hreserved : Reserved db)
    (he : PreEffect c tx (callAt requestId userId amount (now i)) (onceRecorded c userId now requestId)
      (RecoversRecorded requestId tx) t res past db) :
    (∃ sub, sub ∈ t.subs.rows ∧ sub.userId = userId ∧ db.committed = t ∧
      db.view engine tx = chargedTables (callAt requestId userId amount (now i)) sub t ∧
      Answers res ((callAt requestId userId amount (now i)).record sub)) ∨
    (∃ record, db.committed.records.find? requestId = some record ∧
      db.view engine tx = db.committed ∧ Answers res record) := by
  cases he with
  | existing hm hrec _ hm' hdb hsub hown hres =>
    have hsame := eq_of_recorded hm' hrec
    subst hsame
    have hsame := eq_of_recorded hdb hrec
    refine .inr ⟨_, by rw [hsame]; exact hrec, view_of_own_nil hown, ?_⟩
    rw [hres]
    exact ⟨(find?_some_key hsub :), rfl⟩
  | @loop m₀ m hm₀ _ hm₁ hmet hown hdb hdone =>
    have hm := (onceRecorded c userId now requestId).trans _ _ _ hm₀ hm₁
    obtain ⟨visits, sub, hscan, hend⟩ := hdone
    obtain ⟨hvisits, hmem, huser⟩ := visitWrites_of_calm (hm.2.1 hcalm) (i := i) rfl hscan
    rw [hvisits] at hend
    simp only [append_nil, nil_append] at hend
    rcases hend with ⟨hcharge, hres⟩ | ⟨hnone, hrec⟩
    · -- the pending insert holds the key, so no other call has charged
      have hmissing : db.committed.records.find? requestId = none := by
        apply hreserved.missing tx ((callAt requestId userId amount (now i)).record sub)
        rw [← mem_own, hcharge]
        simp [chargeWrites]
      have hdbm := hdb.2.2.1 hmissing
      rw [hdbm] at hmissing
      have hmt := hm.2.2.1 hmissing
      rw [hmt] at hdbm hmem
      refine .inl ⟨sub, hmem, huser, hdbm, ?_, ?_⟩
      · simp only [view, hcharge, hdbm]
        rfl
      · rw [hres]
        exact ⟨rfl, rfl⟩
    · obtain ⟨past', m', u, dup, hmet', hok, -, hu, hownu, hdup, -, hres⟩ := hrec
      rw [view_of_own_nil hownu] at hdup
      have hsame := eq_of_recorded hu hdup
      refine .inr ⟨dup, by rw [hsame]; exact hdup, view_of_own_nil hnone, ?_⟩
      rw [hres]
      exact ⟨(hok rfl _ _ hmet' dup hdup).symm, rfl⟩

theorem commit_allowed (hcalm : Calm c userId now t) (hfresh : t.records.find? requestId = none)
    (hreserved : Reserved db)
    (he : PreEffect c tx (callAt requestId userId amount (now i)) (onceRecorded c userId now requestId)
      (RecoversRecorded requestId tx) t res past db) :
    (onceRecorded c userId now requestId).allowed db.committed (db.view engine tx) := by
  rcases commit_cases hcalm hreserved he with ⟨sub, hmem, -, hdb, hview, -⟩ | ⟨_, _, hview, -⟩
  · rw [hview, hdb]
    have hrecord : (chargedTables (callAt requestId userId amount (now i)) sub t).records.find?
        requestId = some _ := chargedTables_record hfresh
    refine ⟨foldl_plans _ _, fun _ => calm_chargedTables hcalm hmem, ?_, absurd hfresh⟩
    intro hnone
    exact absurd (hrecord.symm.trans hnone) (some_ne_none _)
  · rw [hview]
    exact (onceRecorded c userId now requestId).refl _

end Calls

section Runs

variable {ι : Type} {c : Clock} {requestId : String} {userId amount : ℤ}
  {now : ι → ℤ} {conn : ι → TxId} {t : Tables}

abbrev PrePool (ι : Type) := Pool (TxOp SubQuery SubWrite) (TxRes SubAnswer)
  (Except String SubscriptionPreConsumeResult) SubStore ι

def begin (c : Clock) (requestId : String) (userId amount : ℤ) (now : ι → ℤ) (conn : ι → TxId)
    (t : Tables) (faults : List (Option String)) : PrePool ι :=
  Pool.start ⟨idle t, faults⟩ fun i =>
    preConsumeUserSubscription c (conn i) (callAt requestId userId amount (now i))

def Succeeded (p : PrePool ι) (i : ι) (res : SubscriptionPreConsumeResult) : Prop :=
  p.result? i = some (.ok res)

/-- The tables are the first ones as long as no call has succeeded, and then those of the
one charge; every successful call answers from the record of that charge. -/
inductive Phase (requestId : String) (userId amount : ℤ) (t : Tables) (p : PrePool ι) : Prop
  | untouched : p.state.state.committed = t → (∀ i res, ¬ Succeeded p i res) →
      Phase requestId userId amount t p
  | charged {sub : UserSubscription} : sub ∈ t.subs.rows → sub.userId = userId →
      p.state.state.committed = chargedTables (callAt requestId userId amount 0) sub t →
      (∃ i res, Succeeded p i res) →
      (∀ i res, Succeeded p i res → Answers res ((callAt requestId userId amount 0).record sub)) →
      Phase requestId userId amount t p

structure Invariant (c : Clock) (requestId : String) (userId amount : ℤ) (now : ι → ℤ)
    (conn : ι → TxId) (t : Tables) (p : PrePool ι) : Prop where
  safe : AllSafe (faultyHandle engine) (fun i => txContract engine (conn i)
    (onceRecorded c userId now requestId) (RecoversRecorded requestId (conn i))
    (PreEffect c (conn i) (callAt requestId userId amount (now i))
      (onceRecorded c userId now requestId) (RecoversRecorded requestId (conn i)) t))
    (fun _ _ _ _ => True) p
  reserved : Reserved p.state.state
  phase : Phase requestId userId amount t p

theorem initial_invariant (faults : List (Option String)) :
    Invariant c requestId userId amount now conn t
      (begin c requestId userId amount now conn t faults) where
  safe i := safe_preConsumeUserSubscription (s := ⟨idle t, faults⟩) (fun _ _ h => h.1) rfl
  reserved := reserved_idle t
  phase := by
    refine .untouched rfl fun i res h => ?_
    rw [Succeeded, Pool.result?_eq_some] at h
    change preConsumeUserSubscription c (conn i) (callAt requestId userId amount (now i)) = _ at h
    unfold preConsumeUserSubscription at h
    split at h
    · cases h
    split at h
    · cases h
    split at h <;> cases h

theorem Phase.quiet {p q : PrePool ι} (hp : Phase requestId userId amount t p)
    (hc : q.state.state.committed = p.state.state.committed)
    (hs : ∀ i res, Succeeded q i res ↔ Succeeded p i res) :
    Phase requestId userId amount t q := by
  cases hp with
  | untouched hcommitted hnone =>
    exact .untouched (hc.trans hcommitted) fun i res h => hnone i res ((hs i res).mp h)
  | charged hmem huser hcommitted hsome hall =>
    obtain ⟨i, res, h⟩ := hsome
    exact .charged hmem huser (hc.trans hcommitted) ⟨i, res, (hs i res).mpr h⟩
      fun i res h => hall i res ((hs i res).mp h)

theorem Phase.commit {p q : PrePool ι} (hp : Phase requestId userId amount t p)
    (hcalm : Calm c userId now t) (hfresh : t.records.find? requestId = none)
    (hreserved : Reserved p.state.state) {i : ι} {tx : TxId} {past : SubHistory}
    {res : SubscriptionPreConsumeResult}
    (he : PreEffect c tx (callAt requestId userId amount (now i))
      (onceRecorded c userId now requestId) (RecoversRecorded requestId tx) t res past
      p.state.state)
    (hc : q.state.state.committed = p.state.state.view engine tx) (hi : Succeeded q i res)
    (hothers : ∀ j res, j ≠ i → (Succeeded q j res ↔ Succeeded p j res)) :
    Phase requestId userId amount t q := by
  have hrecord : ∀ sub, (chargedTables (callAt requestId userId amount 0) sub t).records.find?
      requestId = some ((callAt requestId userId amount 0).record sub) :=
    fun sub => chargedTables_record hfresh
  have only : ∀ res', Succeeded q i res' → res' = res := by
    intro res' h
    have := h.symm.trans hi
    cases this
    rfl
  rcases commit_cases hcalm hreserved he with
    ⟨sub, hmem, huser, hdb, hview, hanswer⟩ | ⟨record, hstored, hview, hanswer⟩
  · cases hp with
    | untouched hcommitted hnone =>
      refine .charged hmem huser (hc.trans hview) ⟨i, res, hi⟩ ?_
      intro j res' hj
      by_cases hji : j = i
      · subst hji
        rw [only res' hj]
        exact hanswer
      · exact absurd ((hothers j res' hji).mp hj) (hnone j res')
    | @charged charged _ _ hcommitted =>
      have hsome := hrecord charged
      rw [← hcommitted, hdb, hfresh] at hsome
      cases hsome
  · cases hp with
    | untouched hcommitted =>
      rw [hcommitted, hfresh] at hstored
      cases hstored
    | charged hmem huser hcommitted hsome hall =>
      rw [hcommitted, hrecord] at hstored
      cases hstored
      refine .charged hmem huser (by rw [hc, hview, hcommitted]) ⟨i, res, hi⟩ ?_
      intro j res' hj
      by_cases hji : j = i
      · subst hji
        rw [only res' hj]
        exact hanswer
      · exact hall j res' ((hothers j res' hji).mp hj)

variable [DecidableEq ι]

/-- Every interleaving of the calls, with any statement failing; `ok` may restrict the
steps. -/
def Reaches (c : Clock) (requestId : String) (userId amount : ℤ) (now : ι → ℤ)
    (conn : ι → TxId) (t : Tables)
    (ok : ι → SubHistory → TxOp SubQuery SubWrite → SubStore → Prop) (p : PrePool ι) : Prop :=
  ∃ faults, Run (faultyHandle engine) ok (fun _ _ => False)
    (begin c requestId userId amount now conn t faults) p

section

variable (hconn : Function.Injective conn) (hcalm : Calm c userId now t)
  (hfresh : t.records.find? requestId = none)
include hconn hcalm hfresh

theorem step_preserves_invariant {p q : PrePool ι}
    (hp : Invariant c requestId userId amount now conn t p)
    (st : Step (faultyHandle engine) (fun i => RecoversRecorded requestId (conn i))
      (fun _ _ => False) p q) :
    Invariant c requestId userId amount now conn t q := by
  constructor
  · refine AllSafe.step (fun s => Reserved s.state) ?_ (fun _ _ _ hf => hf.elim)
      hp.safe hp.reserved st
    intro i j hij past e u q hreserved hg
    refine ⟨hg.1 _ (fun he => hij (hconn he)), ?_⟩
    rcases hg.2 with ⟨hc, -⟩ | ⟨a, -, hP, -, -, hc⟩
    · rw [hc]
      exact (onceRecorded c userId now requestId).refl _
    · rw [hc]
      exact commit_allowed hcalm hfresh hreserved hP
  · cases st with
    | thread i hk hok hr => exact hp.reserved.step hr
    | env he => exact he.elim
  · cases st with
    | @thread i o k r s hk hok hr =>
      have hbefore : ∀ res, ¬ Succeeded p i res := by
        intro res h
        rw [Succeeded, Pool.result?_of_op hk] at h
        cases h
      have hothers : ∀ j res, j ≠ i →
          (Succeeded (p.advance i o r s (k r)) j res ↔ Succeeded p j res) := by
        intro j res hj
        rw [Succeeded, p.result?_advance_of_ne hj]
        rfl
      rcases (hp.safe.guarantee hk hok hr).2 with ⟨hc, hq⟩ | ⟨res, hq, hP, -, -, hc⟩
      · refine hp.phase.quiet hc fun j res => ?_
        by_cases hj : j = i
        · subst hj
          refine ⟨fun h => ?_, fun h => absurd h (hbefore res)⟩
          rw [Succeeded, Pool.result?_eq_some, Pool.thread_advance_self] at h
          exact absurd h (hq res)
        · exact hothers j res hj
      · refine hp.phase.commit hcalm hfresh hp.reserved hP hc ?_ hothers
        rw [Succeeded, Pool.result?_eq_some, Pool.thread_advance_self]
        exact hq
    | env he => exact he.elim

theorem reachable_invariant {p : PrePool ι} (hr : Reaches c requestId userId amount now conn t
      (fun i => RecoversRecorded requestId (conn i)) p) :
    Invariant c requestId userId amount now conn t p := by
  obtain ⟨faults, hr⟩ := hr
  exact Run.invariant _ (fun _ _ hp st => step_preserves_invariant hconn hcalm hfresh hp st)
    (initial_invariant faults) hr

end

end Runs

def userTotal (userId : ℤ) (t : Tables) : ℤ :=
  t.subs.total fun s => if s.userId = userId then s.amountUsed else 0

theorem userTotal_chargedTables (hmem : sub ∈ t.subs.rows) (huser : sub.userId = call.userId) :
    userTotal call.userId (chargedTables call sub t) = userTotal call.userId t + call.amount := by
  have hfind : t.subs.find? (charge sub call.amount).id = some sub := find?_of_mem hmem
  change (t.subs.save (charge sub call.amount)).total _ = _
  rw [save_of_find? hfind, total_replace _ hfind]
  simp only [userTotal, charge, huser, if_true]
  omega

theorem usedOf_chargedTables (hmem : sub ∈ t.subs.rows) :
    usedOf (chargedTables call sub t) sub.id = (usedOf t sub.id).map (· + call.amount) := by
  have hsave : (chargedTables call sub t).subs.find? sub.id = some (charge sub call.amount) := by
    change (t.subs.save (charge sub call.amount)).find? (charge sub call.amount).id = _
    rw [find?_save, if_pos rfl]
  simp only [usedOf, hsave, find?_of_mem hmem]
  rfl

/-- In every run of the calls in which a recovery after a failed insert stands at the
recorded subscription, the usage grows by the amount once, with the first success, and
every successful call answers with the subscription charged. -/
theorem one_charge_and_recorded_answers {ι : Type} [DecidableEq ι] {c : Clock}
    {requestId : String} {userId amount : ℤ} {now : ι → ℤ} {conn : ι → TxId} {t : Tables}
    (hconn : Function.Injective conn) (hcalm : Calm c userId now t)
    (hfresh : t.records.find? requestId = none) {p : PrePool ι}
    (hr : Reaches c requestId userId amount now conn t
      (fun i => RecoversRecorded requestId (conn i)) p) :
    ((∃ i res, Succeeded p i res) →
      userTotal userId p.state.state.committed = userTotal userId t + amount) ∧
    ((∀ i res, ¬ Succeeded p i res) →
      userTotal userId p.state.state.committed = userTotal userId t) ∧
    ∀ i res, Succeeded p i res → ∃ record,
      p.state.state.committed.records.find? requestId = some record ∧ Answers res record ∧
      usedOf p.state.state.committed record.userSubscriptionId =
        (usedOf t record.userSubscriptionId).map (· + amount) := by
  have hphase := (reachable_invariant hconn hcalm hfresh hr).phase
  cases hphase with
  | untouched hcommitted hnone =>
    refine ⟨?_, fun _ => by rw [hcommitted], fun i res h => absurd h (hnone i res)⟩
    rintro ⟨i, res, h⟩
    exact absurd h (hnone i res)
  | @charged sub hmem huser hcommitted hsome hall =>
    refine ⟨fun _ => ?_, ?_, ?_⟩
    · have htotal : userTotal userId (chargedTables (callAt requestId userId amount 0) sub t) =
          userTotal userId t + amount := userTotal_chargedTables hmem huser
      rw [hcommitted, htotal]
    · intro hnone
      obtain ⟨i, res, h⟩ := hsome
      exact absurd h (hnone i res)
    · intro i res h
      refine ⟨(callAt requestId userId amount 0).record sub, ?_, hall i res h, ?_⟩
      · rw [hcommitted]
        exact chargedTables_record hfresh
      · rw [hcommitted]
        exact usedOf_chargedTables hmem

def twoSubs : Table UserSubscription ℤ UserSubscription.id :=
  ⟨[plainSub 1 100 60, plainSub 2 100 0], by decide⟩

theorem twoSubs_calm (now : ι → ℤ) : Calm ⟨0, 0⟩ 1 now (plainTables twoSubs) := by
  intro sub hsub _ plan hplan i
  have hid : sub.planId = 3 := by
    simp only [plainTables, twoSubs, mem_cons, not_mem_nil, or_false] at hsub
    rcases hsub with rfl | rfl <;> rfl
  have hfind : (plainTables twoSubs).plans.find? 3 = some plainPlan := by decide
  rw [hid, hfind] at hplan
  cases hplan
  have hperiod : normalizeResetPeriod plainPlan.quotaResetPeriod = .never := by decide
  simp [maybeReset, hperiod]

def triesInsert : TxOp SubQuery SubWrite → Bool
  | .write _ (.createRecord _) => true
  | _ => false

def asksRecord : TxOp SubQuery SubWrite → Bool
  | .query _ (.recordByRequest _) => true
  | _ => false

def recoveryFree : List (TxOp SubQuery SubWrite) → Bool
  | [] => true
  | o :: rest => (!triesInsert o || rest.all fun o => !asksRecord o) && recoveryFree rest

theorem recoversRecorded_of_free {before later : SubHistory}
    {e : Seen (TxOp SubQuery SubWrite) (TxRes SubAnswer) SubStore}
    (h : recoveryFree ((before ++ e :: later).map Seen.op) = true) :
    RecoversRecorded requestId tx before e.op e.met := by
  rintro hask tried m ⟨x, hx, hop, -⟩
  exfalso
  induction before with
  | nil => cases hx
  | cons y before ih =>
    simp only [cons_append, map_cons, recoveryFree, Bool.and_eq_true] at h
    rcases mem_cons.mp hx with rfl | hx
    · simp [hop, triesInsert, hask, asksRecord] at h
    · exact ih h.2 hx

def oneAfterTheOther : List (Fin 2 ⊕ Empty) :=
  [.inl 0, .inl 0, .inl 0, .inl 0, .inl 0, .inl 0, .inl 0, .inl 1, .inl 1, .inl 1, .inl 1]

theorem two_calls_one_charge : ∃ p,
    Reaches ⟨0, 0⟩ "req" 1 30 (fun _ : Fin 2 => 10) Fin.val (plainTables twoSubs)
      (fun i => RecoversRecorded "req" i.val) p ∧
    Succeeded p 0 ⟨1, 30, 100, 60, 90⟩ ∧ Succeeded p 1 ⟨1, 30, 100, 90, 90⟩ ∧
    userTotal 1 p.state.state.committed = userTotal 1 (plainTables twoSubs) + 30 := by
  have hplay : ((begin ⟨0, 0⟩ "req" 1 30 (fun _ : Fin 2 => 10) Fin.val
      (plainTables twoSubs) []).play (faultyHandle engine) (fun x _ => x.elim)
        oneAfterTheOther).map (fun p => (p.result? 0, p.result? 1,
          recoveryFree ((p.past 0).map Seen.op), recoveryFree ((p.past 1).map Seen.op))) =
      some (some (.ok ⟨1, 30, 100, 60, 90⟩), some (.ok ⟨1, 30, 100, 90, 90⟩), true, true) := by
    decide
  obtain ⟨p, hp, hobs⟩ := map_eq_some_iff.mp hplay
  simp only [Prod.mk.injEq] at hobs
  obtain ⟨h0, h1, hfree0, hfree1⟩ := hobs
  have hr : Reaches ⟨0, 0⟩ "req" 1 30 (fun _ : Fin 2 => 10) Fin.val (plainTables twoSubs)
      (fun i => RecoversRecorded "req" i.val) p := by
    refine ⟨[], (play_run_alone hp).restrict ?_⟩
    intro i before e later hpast
    have hfree : recoveryFree ((before ++ e :: later).map Seen.op) = true := by
      rw [← hpast]
      fin_cases i
      · exact hfree0
      · exact hfree1
    exact recoversRecorded_of_free hfree
  exact ⟨p, hr, h0, h1, (one_charge_and_recorded_answers Fin.val_injective (twoSubs_calm _)
    rfl hr).1 ⟨0, _, h0⟩⟩

/-- The second call looks for the record before the first one commits and reads the
subscriptions after it. -/
def lateReader : List (Fin 2 ⊕ Empty) :=
  [.inl 1, .inl 1, .inl 0, .inl 0, .inl 0, .inl 0, .inl 0, .inl 0, .inl 0,
    .inl 1, .inl 1, .inl 1, .inl 1, .inl 1, .inl 1]

/-- Both calls succeed, the record names the first subscription, and the second call
answers with the second one. -/
theorem recovery_answers_with_another_subscription : ∃ p,
    Reaches ⟨0, 0⟩ "req" 1 30 (fun _ : Fin 2 => 10) Fin.val (plainTables twoSubs)
      (fun _ _ _ _ => True) p ∧
    Succeeded p 0 ⟨1, 30, 100, 60, 90⟩ ∧ Succeeded p 1 ⟨2, 30, 100, 0, 0⟩ ∧
    (p.state.state.committed.records.find? "req").map
      SubscriptionPreConsumeRecord.userSubscriptionId = some 1 := by
  have hplay : ((begin ⟨0, 0⟩ "req" 1 30 (fun _ : Fin 2 => 10) Fin.val
      (plainTables twoSubs) []).play (faultyHandle engine) (fun x _ => x.elim)
        lateReader).map (fun p => (p.result? 0, p.result? 1,
          (p.state.state.committed.records.find? "req").map
            SubscriptionPreConsumeRecord.userSubscriptionId)) =
      some (some (.ok ⟨1, 30, 100, 60, 90⟩), some (.ok ⟨2, 30, 100, 0, 0⟩), some 1) := by
    decide
  obtain ⟨p, hp, hobs⟩ := map_eq_some_iff.mp hplay
  simp only [Prod.mk.injEq] at hobs
  exact ⟨p, ⟨[], play_run_alone hp⟩, hobs⟩

end SubscriptionIdempotence
