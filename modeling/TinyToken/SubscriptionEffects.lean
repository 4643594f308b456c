import TinyToken.SubscriptionTransactions
import TinyToken.TransactionPools

/-! What the bodies of the subscription transactions leave to be committed, in terms of
the rows they have read, whatever fails and whatever other transactions commit meanwhile. -/
namespace SubscriptionEffects

open InterleavedPrograms ReadCommittedStore Db KeyedTable TransactionPools SubscriptionRows
  SubscriptionTransactions List Table

abbrev SubHistory := History Tables SubWrite SubAnswer

abbrev SubStore := Store Tables SubWrite

def outcomeRow (outcome : ResetOutcome) (sub : UserSubscription) : UserSubscription :=
  match outcome with
  | .keep => sub
  | .schedule sub' | .reset sub' => sub'

def outcomeWrites : ResetOutcome → List SubWrite
  | .keep => []
  | .schedule sub' | .reset sub' => [.saveSub sub']

structure Visit where
  candidate : UserSubscription
  outcome : ResetOutcome

def visitWrites (visits : List Visit) : List SubWrite :=
  visits.flatMap fun v => outcomeWrites v.outcome

def fits (amount : ℤ) (sub : UserSubscription) : Prop :=
  ¬ (sub.amountTotal > 0 ∧ sub.amountTotal - sub.amountUsed < amount)

instance (amount : ℤ) (sub : UserSubscription) : Decidable (fits amount sub) :=
  inferInstanceAs (Decidable (¬ _))

/-- The candidates visited up to the first one with room, and that one's row. -/
def scan (c : Clock) (plans : ℤ → Option SubscriptionPlan) (call : PreConsumeCall) :
    List UserSubscription → Option (List Visit × UserSubscription)
  | [] => none
  | candidate :: rest =>
    if candidate.planId ≤ 0 then none
    else
      match plans candidate.planId with
      | none => none
      | some plan =>
        match maybeReset c candidate plan call.now with
        | none => none
        | some outcome =>
          if fits call.amount (outcomeRow outcome candidate) then
            some ([⟨candidate, outcome⟩], outcomeRow outcome candidate)
          else (scan c plans call rest).map fun p => (⟨candidate, outcome⟩ :: p.1, p.2)

def charge (sub : UserSubscription) (amount : ℤ) : UserSubscription :=
  { sub with amountUsed := sub.amountUsed + amount }

def chargeWrites (call : PreConsumeCall) (sub : UserSubscription) : List SubWrite :=
  [.createRecord (call.record sub), .saveSub (charge sub call.amount)]

def chargedResult (call : PreConsumeCall) (sub : UserSubscription) : SubscriptionPreConsumeResult :=
  ⟨sub.id, call.amount, sub.amountTotal, sub.amountUsed, sub.amountUsed + call.amount⟩

def repeatedResult (record : SubscriptionPreConsumeRecord) (sub : UserSubscription) :
    SubscriptionPreConsumeResult :=
  ⟨sub.id, record.preConsumed, sub.amountTotal, sub.amountUsed, sub.amountUsed⟩

def candidates (call : PreConsumeCall) (t : Tables) : List UserSubscription :=
  (t.subs.rows.filter (isActive call.userId call.now)).insertionSort dueFirst

theorem applyWrite_plans (w : SubWrite) (t : Tables) : (applyWrite w t).plans = t.plans := by
  cases w <;> rfl

theorem foldl_plans (ws : List SubWrite) (t : Tables) :
    (ws.foldl (fun t w => applyWrite w t) t).plans = t.plans := by
  induction ws generalizing t with
  | nil => rfl
  | cons w ws ih => exact (ih _).trans (applyWrite_plans w t)

theorem view_plans (db : SubDb) (tx : TxId) : (db.view engine tx).plans = db.committed.plans :=
  foldl_plans _ _

def isSaveSub : SubWrite → Prop
  | .saveSub _ => True
  | _ => False

variable {visits : List Visit}

theorem visitWrites_isSaveSub {w : SubWrite} (h : w ∈ visitWrites visits) : isSaveSub w := by
  simp only [visitWrites, mem_flatMap] at h
  obtain ⟨v, -, hw⟩ := h
  cases ho : v.outcome with
  | keep => simp [ho, outcomeWrites] at hw
  | schedule s | reset s =>
    simp only [ho, outcomeWrites, mem_singleton] at hw; subst hw; trivial

variable (tx : TxId) {ws : List SubWrite} {c : Clock}

theorem foldl_records_of_saveSub (h : ∀ w ∈ ws, isSaveSub w) (t : Tables) :
    (ws.foldl (fun t w => applyWrite w t) t).records = t.records := by
  induction ws generalizing t with
  | nil => rfl
  | cons w ws ih =>
    have hw := h w mem_cons_self
    cases w with
    | saveSub s => exact ih (fun w hw => h w (mem_cons_of_mem _ hw)) _
    | _ => exact absurd hw id

def leavesSub (id : ℤ) : SubWrite → Prop
  | .createRecord _ => True
  | .saveRecord _ => True
  | .saveSub s => s.id ≠ id
  | _ => False

def leavesRecord (requestId : String) : SubWrite → Prop
  | .createRecord r => r.requestId ≠ requestId
  | .saveRecord r => r.requestId ≠ requestId
  | _ => True

theorem foldl_sub {id : ℤ} (h : ∀ w ∈ ws, leavesSub id w) (t : Tables) :
    (ws.foldl (fun t w => applyWrite w t) t).subs.find? id = t.subs.find? id := by
  induction ws generalizing t with
  | nil => rfl
  | cons w ws ih =>
    have hw := h w mem_cons_self
    refine (ih (fun w hw => h w (mem_cons_of_mem _ hw)) _).trans ?_
    cases w with
    | createRecord r => rfl
    | saveRecord r => rfl
    | saveSub s =>
      change (t.subs.save s).find? id = _
      rw [find?_save, if_neg (fun e => hw e.symm)]
    | _ => exact hw.elim

theorem foldl_record {requestId : String} (h : ∀ w ∈ ws, leavesRecord requestId w) (t : Tables) :
    (ws.foldl (fun t w => applyWrite w t) t).records.find? requestId =
      t.records.find? requestId := by
  induction ws generalizing t with
  | nil => rfl
  | cons w ws ih =>
    have hw := h w mem_cons_self
    refine (ih (fun w hw => h w (mem_cons_of_mem _ hw)) _).trans ?_
    cases w with
    | createRecord r => exact find?_insert_of_ne (fun e => hw e.symm)
    | saveRecord r =>
      change (t.records.save r).find? requestId = _
      rw [find?_save, if_neg (fun e => hw e.symm)]
    | _ => rfl

theorem visitWrites_leavesRecord {w : SubWrite} (requestId : String)
    (h : w ∈ visitWrites visits) : leavesRecord requestId w := by
  have hs := visitWrites_isSaveSub h
  cases w with
  | saveSub s => trivial
  | _ => exact absurd hs id

variable {sub : UserSubscription}

theorem maybeReset_keep_of_used {plan : SubscriptionPlan} {now : ℤ}
    (h : maybeReset c sub plan now = some .keep) (used : ℤ) :
    maybeReset c { sub with amountUsed := used } plan now = some .keep := by
  unfold maybeReset at h ⊢
  dsimp only at h ⊢
  split
  · rfl
  next hlater =>
    rw [if_neg hlater] at h
    split
    · rfl
    next hperiod =>
      rw [if_neg hperiod] at h
      split at h
      · cases h
      next hadvance =>
        split at h
        · cases h
        next hscheduled =>
          rw [hadvance]
          exact if_neg hscheduled
      · cases h

theorem outcomeRow_kept {plan : SubscriptionPlan} {now : ℤ} {outcome : ResetOutcome}
    (h : maybeReset c sub plan now = some outcome) :
    (outcomeRow outcome sub).id = sub.id ∧ (outcomeRow outcome sub).amountTotal = sub.amountTotal := by
  unfold maybeReset at h
  split at h
  · cases h; exact ⟨rfl, rfl⟩
  split at h
  · cases h; exact ⟨rfl, rfl⟩
  dsimp only at h
  split at h
  · cases h
  · split at h <;> (cases h; exact ⟨rfl, rfl⟩)
  · cases h; exact ⟨rfl, rfl⟩

variable {call : PreConsumeCall}

theorem mem_candidates {t : Tables} :
    sub ∈ candidates call t ↔ sub ∈ t.subs.rows ∧ isActive call.userId call.now sub = true := by
  simp [candidates, mem_insertionSort]

/-- Every visit is a reset check of a candidate, and the row chosen is the one a visited
candidate is left with. -/
theorem scan_visits {plans : ℤ → Option SubscriptionPlan} {subs : List UserSubscription}
    (h : scan c plans call subs = some (visits, sub)) :
    (∀ v ∈ visits, v.candidate ∈ subs ∧ ∃ plan, plans v.candidate.planId = some plan ∧
      maybeReset c v.candidate plan call.now = some v.outcome) ∧
    (∃ v ∈ visits, sub = outcomeRow v.outcome v.candidate) ∧ fits call.amount sub := by
  induction subs generalizing visits with
  | nil => cases h
  | cons candidate rest ih =>
    simp only [scan] at h
    split at h
    · cases h
    split at h
    · cases h
    rename_i plan hplan
    split at h
    · cases h
    rename_i outcome houtcome
    split at h
    next hfits =>
      cases h
      refine ⟨?_, ⟨_, mem_singleton_self _, rfl⟩, hfits⟩
      intro v hv
      rw [mem_singleton.mp hv]
      exact ⟨mem_cons_self, plan, hplan, houtcome⟩
    · obtain ⟨⟨vs, s⟩, hrest, he⟩ := Option.map_eq_some_iff.mp h
      cases he
      obtain ⟨hall, ⟨v, hv, hsub⟩, hfits⟩ := ih hrest
      refine ⟨?_, ⟨v, mem_cons_of_mem _ hv, hsub⟩, hfits⟩
      intro w hw
      rcases mem_cons.mp hw with rfl | hw
      · exact ⟨mem_cons_self, plan, hplan, houtcome⟩
      · exact ⟨mem_cons_of_mem _ (hall w hw).1, (hall w hw).2⟩

/-- A subscription with no reset due is left alone by the visits, and if it is the one
chosen then with the row that was read. -/
theorem scan_keeps {t : Tables} {plans : ℤ → Option SubscriptionPlan} {row sub : UserSubscription}
    {id : ℤ} (hrow : t.subs.find? id = some row)
    (hkeep : ∀ plan, plans row.planId = some plan → maybeReset c row plan call.now = some .keep)
    (hscan : scan c plans call (candidates call t) = some (visits, sub)) :
    (∀ w ∈ visitWrites visits, leavesSub id w) ∧ (sub.id = id → sub = row) := by
  obtain ⟨hall, ⟨v, hv, hsub⟩, -⟩ := scan_visits hscan
  have same : ∀ v ∈ visits, v.candidate.id = id → v.candidate = row ∧ v.outcome = .keep := by
    intro v hv hid
    obtain ⟨hmem, plan, hplan, hreset⟩ := hall v hv
    have hfind := find?_of_mem (mem_candidates.mp hmem).1
    rw [hid, hrow] at hfind
    cases hfind
    rw [hkeep plan hplan] at hreset
    exact ⟨rfl, (Option.some.inj hreset).symm⟩
  constructor
  · intro w hw
    obtain ⟨v, hv, hw⟩ := mem_flatMap.mp hw
    obtain ⟨-, plan, -, hreset⟩ := hall v hv
    have hid := (outcomeRow_kept hreset).1
    have hne : ∀ s, outcomeRow v.outcome v.candidate = s → v.outcome ≠ .keep → s.id ≠ id := by
      intro s hs hk he
      exact hk (same v hv (by rw [← hid, hs, he])).2
    cases ho : v.outcome with
    | keep => simp [ho, outcomeWrites] at hw
    | schedule s | reset s =>
      simp only [ho, outcomeWrites, mem_singleton] at hw
      subst hw
      exact hne s (by rw [ho]; rfl) (by rw [ho]; exact nofun)
  · intro he
    obtain ⟨-, plan, -, hreset⟩ := hall v hv
    have hid := (outcomeRow_kept hreset).1
    obtain ⟨hrow', hk⟩ := same v hv (by rw [← hid, ← hsub, he])
    rw [hsub, hk]
    exact hrow'

theorem within_getSubscriptionPlanByIdTx (id : ℤ) :
    Within tx (getSubscriptionPlanByIdTx tx id) := by
  unfold getSubscriptionPlanByIdTx
  split
  · trivial
  · apply (within_query _).bind
    rintro (e | _ | plan) <;> trivial

theorem within_saveReset (sub : UserSubscription) : Within tx (saveReset tx sub) := by
  apply (within_write _).bind
  rintro (e | _) <;> trivial

theorem within_maybeReset (c : Clock) (tx : TxId) (sub : UserSubscription)
    (plan : SubscriptionPlan) (now : ℤ) :
    Within tx (maybeResetUserSubscriptionWithPlanTx c tx sub plan now) := by
  unfold maybeResetUserSubscriptionWithPlanTx
  split
  · trivial
  · trivial
  · exact within_saveReset tx _
  · exact within_saveReset tx _

theorem within_chargeCandidate (call : PreConsumeCall) (sub : UserSubscription) :
    Within tx (chargeCandidate tx call sub) := by
  apply (within_write _).bind
  rintro (e | _)
  · apply (within_query _).bind
    rintro (e | _ | dup)
    · trivial
    · trivial
    · dsimp only
      split <;> trivial
  · apply (within_write _).bind
    rintro (e | _) <;> trivial

theorem within_tryCandidates (c : Clock) (tx : TxId) (call : PreConsumeCall)
    (subs : List UserSubscription) : Within tx (tryCandidates c tx call subs) := by
  induction subs with
  | nil => trivial
  | cons candidate rest ih =>
    apply (within_getSubscriptionPlanByIdTx tx _).bind
    rintro (e | plan)
    · trivial
    · apply (within_maybeReset c tx _ _ _).bind
      rintro (e | sub)
      · trivial
      · dsimp only
        split
        · exact ih
        · exact within_chargeCandidate tx call sub

theorem within_preConsumeBody (c : Clock) (tx : TxId) (call : PreConsumeCall) :
    Within tx (preConsumeBody c tx call) := by
  apply (within_query _).bind
  rintro (e | _ | existing)
  · trivial
  · apply (within_query _).bind
    rintro (e | _ | ⟨sub, subs⟩)
    · trivial
    · trivial
    · exact within_tryCandidates c tx call _
  · dsimp only
    split
    · trivial
    · apply (within_query _).bind
      rintro (e | _ | sub) <;> trivial

theorem within_postConsumeBody (id delta : ℤ) : Within tx (postConsumeBody tx id delta) := by
  apply (within_query _).bind
  rintro (e | _ | sub)
  · trivial
  · trivial
  · dsimp only
    split
    · trivial
    · exact within_write _

section Effects

variable {c : Clock} {tx : TxId} {call : PreConsumeCall} {I : Interference Tables}
  {ok : SubHistory → TxOp SubQuery SubWrite → SubStore → Prop} {past : SubHistory} {s : SubStore}

theorem safe_getSubscriptionPlanByIdTx (id : ℤ) :
    BodySafe engine tx I ok (fun r _ u => ∀ plan, r = .ok plan →
      u.state.own tx = s.state.own tx ∧ ¬ id ≤ 0 ∧
        ∃ m, I.allowed s.state.committed m ∧ m.plans.find? id = some plan)
      (getSubscriptionPlanByIdTx tx id) past s := by
  unfold getSubscriptionPlanByIdTx
  split
  · exact safe_error
  next hid =>
    refine safe_query ?_ ?_
    · intro t x _
      exact safe_error
    · intro t ht _
      have hplans : engine.answer (.planById id) (t.state.view engine tx)
          = t.state.committed.plans.find? id := by
        change (t.state.view engine tx).plans.find? id = _
        rw [view_plans]
      rw [hplans]
      cases hfind : t.state.committed.plans.find? id with
      | none => exact safe_error
      | some plan =>
        refine safe_pure fun u hu plan' h => ?_
        cases h
        exact ⟨hu.1.trans ht.1, hid, _, ht.2, hfind⟩

theorem safe_saveReset (row : UserSubscription) :
    BodySafe engine tx I ok (fun r _ u => ∀ sub', r = .ok sub' →
      sub' = row ∧ u.state.own tx = s.state.own tx ++ [.saveSub row])
      (saveReset tx row) past s := by
  refine safe_write ?_ ?_
  · intro t x _
    exact safe_error
  · intro t ht _ _
    refine safe_pure fun u hu sub' h => ?_
    cases h
    refine ⟨rfl, ?_⟩
    rw [hu.1, own_add_self, ht.1]

theorem safe_maybeReset (sub : UserSubscription) (plan : SubscriptionPlan) (now : ℤ) :
    BodySafe engine tx I ok (fun r _ u => ∀ sub', r = .ok sub' →
      ∃ outcome, maybeReset c sub plan now = some outcome ∧ sub' = outcomeRow outcome sub ∧
        u.state.own tx = s.state.own tx ++ outcomeWrites outcome)
      (maybeResetUserSubscriptionWithPlanTx c tx sub plan now) past s := by
  unfold maybeResetUserSubscriptionWithPlanTx
  split
  · trivial
  next ho =>
    refine safe_pure fun u hu sub' h => ?_
    cases h
    exact ⟨.keep, ho, rfl, by simp [outcomeWrites, hu.1]⟩
  all_goals
    rename_i row ho
    exact (safe_saveReset row).mono fun _ _ _ hr sub' h => ⟨_, ho, hr sub' h⟩

/-- The recovery after a failed insert: the record another call has committed is read,
and the answer names the candidate at hand. -/
def Recovered (tx : TxId) (call : PreConsumeCall) (I : Interference Tables)
    (ok : SubHistory → TxOp SubQuery SubWrite → SubStore → Prop) (sub : UserSubscription)
    (ws : List SubWrite) (before after : Tables) (res : SubscriptionPreConsumeResult) : Prop :=
  ∃ (past : SubHistory) (m : SubDb) (t : SubStore) (dup : SubscriptionPreConsumeRecord),
    Met past (.write tx (.createRecord (call.record sub))) m ∧
    ok past (.query tx (.recordByRequest call.requestId)) t ∧
    I.allowed before t.state.committed ∧ I.allowed t.state.committed after ∧
    t.state.own tx = ws ∧ (t.state.view engine tx).records.find? call.requestId = some dup ∧
    dup.status ≠ .refunded ∧ res = repeatedResult dup sub

theorem safe_chargeCandidate (sub : UserSubscription) :
    BodySafe engine tx I ok (fun r _ u => ∀ res, r = .ok res →
      (u.state.own tx = s.state.own tx ++ chargeWrites call sub ∧ res = chargedResult call sub) ∨
      (u.state.own tx = s.state.own tx ∧
        Recovered tx call I ok sub (s.state.own tx) s.state.committed u.state.committed res))
      (chargeCandidate tx call sub) past s := by
  refine safe_write ?_ ?_
  · intro t err ht
    refine safe_query ?_ ?_
    · intro t' x _
      exact safe_error
    · intro t' ht' hok
      cases hdup : engine.answer (.recordByRequest call.requestId) (t'.state.view engine tx) with
      | none => exact safe_error
      | some dup =>
        dsimp only
        split
        · exact safe_error
        next hstatus =>
          refine safe_pure fun u hu res h => .inr ⟨?_, ?_⟩
          · rw [hu.1, ht'.1, ht.1]
          · cases h
            exact ⟨_, t.state, t', dup, met_last past _ _ t, hok,
              I.trans _ _ _ ht.2 ht'.2, hu.2, ht'.1.trans ht.1, hdup, hstatus, rfl⟩
  · intro t ht _ _
    refine safe_write ?_ ?_
    · intro t' x _
      exact safe_error
    · intro t' ht' _ _
      refine safe_pure fun u hu res h => .inl ⟨?_, ?_⟩
      · rw [hu.1, own_add_self, ht'.1, own_add_self, ht.1]
        simp [chargeWrites, charge]
      · cases h
        rfl

/-- How the loop ends well: with the charge of the first candidate that fits, or with the
recovery at that candidate. -/
def LoopDone (c : Clock) (tx : TxId) (call : PreConsumeCall) (I : Interference Tables)
    (ok : SubHistory → TxOp SubQuery SubWrite → SubStore → Prop) (subs : List UserSubscription)
    (ws : List SubWrite) (before : Tables) (db : SubDb) (res : SubscriptionPreConsumeResult) :
    Prop :=
  ∃ visits sub, scan c before.plans.find? call subs = some (visits, sub) ∧
    ((db.own tx = ws ++ visitWrites visits ++ chargeWrites call sub ∧
        res = chargedResult call sub) ∨
      (db.own tx = ws ++ visitWrites visits ∧
        Recovered tx call I ok sub (ws ++ visitWrites visits) before db.committed res))

variable {res : SubscriptionPreConsumeResult}

theorem Recovered.earlier {sub : UserSubscription} {ws : List SubWrite} {b b' a : Tables} (h : Recovered tx call I ok sub ws b' a res)
    (hb : I.allowed b b') : Recovered tx call I ok sub ws b a res := by
  obtain ⟨past, m, t, dup, hmet, hok, hallowed, rest⟩ := h
  exact ⟨past, m, t, dup, hmet, hok, I.trans _ _ _ hb hallowed, rest⟩

theorem safe_tryCandidates (hplans : ∀ t t', I.allowed t t' → t'.plans = t.plans)
    (subs : List UserSubscription) :
    BodySafe engine tx I ok (fun r _ u => ∀ res, r = .ok res →
      LoopDone c tx call I ok subs (s.state.own tx) s.state.committed u.state res)
      (tryCandidates c tx call subs) past s := by
  induction subs generalizing past s with
  | nil => exact safe_error
  | cons candidate rest ih =>
    refine safe_bind ((Safe.frame (within_getSubscriptionPlanByIdTx tx _)
      (safe_getSubscriptionPlanByIdTx candidate.planId)).mono ?_)
    rintro (e | plan) past₁ s₁ ⟨-, hallowed₁, hplan⟩
    · exact safe_error
    obtain ⟨hown₁, hid, m, hm, hfind⟩ := hplan plan rfl
    rw [hplans _ _ hm] at hfind
    refine safe_bind ((Safe.frame (within_maybeReset c tx _ _ _)
      (safe_maybeReset candidate plan call.now)).mono ?_)
    rintro (e | sub) past₂ s₂ ⟨-, hallowed₂, hreset⟩
    · exact safe_error
    obtain ⟨outcome, houtcome, rfl, hown₂⟩ := hreset sub rfl
    rw [hown₁] at hown₂
    have hallowed := I.trans _ _ _ hallowed₁ hallowed₂
    have hscan : scan c s.state.committed.plans.find? call (candidate :: rest) =
        if fits call.amount (outcomeRow outcome candidate) then
          some ([⟨candidate, outcome⟩], outcomeRow outcome candidate)
        else (scan c s.state.committed.plans.find? call rest).map
          fun p => (⟨candidate, outcome⟩ :: p.1, p.2) := by
      simp only [scan, hid, if_false, hfind, houtcome]
    dsimp only
    split
    · -- no room: the loop goes on with the rest
      rename_i hfull
      have hnofit : ¬ fits call.amount (outcomeRow outcome candidate) := fun h => h hfull
      apply ih.mono
      intro r past₃ u hu res hres
      obtain ⟨visits, sub, hrest, hdone⟩ := hu res hres
      rw [hplans _ _ hallowed] at hrest
      refine ⟨⟨candidate, outcome⟩ :: visits, sub, ?_, ?_⟩
      · rw [hscan, if_neg hnofit, hrest]
        rfl
      · rw [hown₂] at hdone
        rw [visitWrites, flatMap_cons, ← append_assoc]
        rcases hdone with h | ⟨hown, hrec⟩
        · exact .inl h
        · exact .inr ⟨hown, hrec.earlier hallowed⟩
    next hfit =>
      apply (safe_chargeCandidate _).mono
      intro r past₃ u hu res hres
      refine ⟨[⟨candidate, outcome⟩], outcomeRow outcome candidate, ?_, ?_⟩
      · rw [hscan]
        exact if_pos hfit
      · have hw : visitWrites [⟨candidate, outcome⟩] = outcomeWrites outcome := by
          simp [visitWrites]
        rw [hw, ← hown₂]
        rcases hu res hres with h | ⟨hown, hrec⟩
        · exact .inl h
        · exact .inr ⟨hown, hrec.earlier hallowed⟩

/-- What a successful `PreConsumeUserSubscription` is about to commit: nothing for a request
that has a record, and otherwise what the loop over the subscriptions it read has left. -/
inductive PreEffect (c : Clock) (tx : TxId) (call : PreConsumeCall) (I : Interference Tables)
    (ok : SubHistory → TxOp SubQuery SubWrite → SubStore → Prop) (first : Tables)
    (res : SubscriptionPreConsumeResult) (past : SubHistory) (db : SubDb) : Prop
  | existing {m m' : Tables} {record : SubscriptionPreConsumeRecord} {sub : UserSubscription} :
      I.allowed first m → m.records.find? call.requestId = some record →
      record.status ≠ .refunded → I.allowed m m' → I.allowed m' db.committed →
      m'.subs.find? record.userSubscriptionId = some sub → db.own tx = [] →
      res = repeatedResult record sub → PreEffect c tx call I ok first res past db
  | loop {m₀ : Tables} {m : SubDb} : I.allowed first m₀ →
      m₀.records.find? call.requestId = none → I.allowed m₀ m.committed →
      Met past (.query tx (.activeSubs call.userId call.now)) m →
      m.own tx = [] → I.allowed m.committed db.committed →
      LoopDone c tx call I ok (candidates call m.committed) [] m.committed db res →
      PreEffect c tx call I ok first res past db

theorem safe_preConsumeBody (hplans : ∀ t t', I.allowed t t' → t'.plans = t.plans)
    (hown : s.state.own tx = []) :
    BodySafe engine tx I ok (fun r past u => ∀ res, r = .ok res →
      PreEffect c tx call I ok s.state.committed res past u.state)
      (preConsumeBody c tx call) past s := by
  refine safe_query (fun _ _ _ => safe_error) ?_
  intro t ht _
  have hown_t := ht.1.trans hown
  rw [view_of_own_nil hown_t]
  cases hrec : engine.answer (.recordByRequest call.requestId) t.state.committed with
  | some record =>
    dsimp only
    split
    · exact safe_error
    rename_i hstatus
    refine safe_query (fun _ _ _ => safe_error) ?_
    intro t' ht' _
    rw [view_of_own_nil (ht'.1.trans hown_t)]
    cases hsub : engine.answer (.subById record.userSubscriptionId) t'.state.committed with
    | none => exact safe_error
    | some sub =>
      refine safe_pure fun u hu res h => ?_
      cases h
      exact .existing ht.2 hrec hstatus ht'.2 hu.2 hsub
        (hu.1.trans (ht'.1.trans hown_t)) rfl
  | none =>
    refine safe_query (fun _ _ _ => safe_error) ?_
    intro t' ht' _
    have hown' := ht'.1.trans hown_t
    rw [view_of_own_nil hown']
    cases hsubs : engine.answer (.activeSubs call.userId call.now) t'.state.committed with
    | nil => exact safe_error
    | cons sub rest =>
      refine (Safe.frame (within_tryCandidates c tx call _)
        (safe_tryCandidates hplans _)).mono ?_
      rintro r past' u ⟨⟨later, rfl⟩, hallowed, hdone⟩ res hres
      refine .loop ht.2 hrec ht'.2 ((met_last _ _ _ t').append later) hown' hallowed ?_
      have := hdone res hres
      rwa [hown', ← hsubs] at this

/-- What a successful `PostConsumeUserSubscriptionDelta` is about to commit. -/
def PostEffect (tx : TxId) (id delta : ℤ) (I : Interference Tables) (first : Tables)
    (past : SubHistory) (db : SubDb) : Prop :=
  ∃ (m : SubDb) (sub : UserSubscription), Met past (.query tx (.subById id)) m ∧
    I.allowed first m.committed ∧ m.own tx = [] ∧ I.allowed m.committed db.committed ∧
    m.committed.subs.find? id = some sub ∧
    ¬ (sub.amountTotal > 0 ∧ clampUsed sub.amountUsed delta > sub.amountTotal) ∧
    db.own tx = [.saveSub { sub with amountUsed := clampUsed sub.amountUsed delta }]

theorem safe_postConsumeBody (id delta : ℤ) (hown : s.state.own tx = []) :
    BodySafe engine tx I ok (fun r past u => ∀ a, r = .ok a →
      PostEffect tx id delta I s.state.committed past u.state)
      (postConsumeBody tx id delta) past s := by
  refine safe_query (fun _ _ _ => safe_error) ?_
  intro t ht _
  have hown_t := ht.1.trans hown
  rw [view_of_own_nil hown_t]
  cases hsub : engine.answer (.subById id) t.state.committed with
  | none => exact safe_error
  | some sub =>
    dsimp only
    split
    · exact safe_error
    rename_i hroom
    refine safe_write ?_ ?_
    · intro t' x _
      exact safe_error
    · intro t' ht' _ _
      refine safe_pure fun u hu a _ => ?_
      refine ⟨t.state, sub, (met_last past _ _ t).append _, ht.2, hown_t,
        I.trans _ _ _ ht'.2 hu.2, hsub, hroom, ?_⟩
      rw [hu.1, own_add_self, ht'.1, hown_t]
      rfl

theorem PreEffect.allowed {first : Tables} {db : SubDb}
    (h : PreEffect c tx call I ok first res past db) : I.allowed first db.committed := by
  cases h with
  | existing hm _ _ hm' hdb => exact I.trans _ _ _ hm (I.trans _ _ _ hm' hdb)
  | loop hm₀ _ hm _ _ hdb => exact I.trans _ _ _ hm₀ (I.trans _ _ _ hm hdb)

theorem PostEffect.allowed {id delta : ℤ} {first : Tables} {db : SubDb}
    (h : PostEffect tx id delta I first past db) : I.allowed first db.committed := by
  obtain ⟨m, sub, -, hm, -, hdb, -⟩ := h
  exact I.trans _ _ _ hm hdb

theorem PreEffect.earlier {first first' : Tables}
    {db : SubDb} (h : PreEffect c tx call I ok first' res past db)
    (hfirst : I.allowed first first') : PreEffect c tx call I ok first res past db := by
  cases h with
  | existing hm hrec hstatus hm' hdb hsub hown hres =>
    exact .existing (I.trans _ _ _ hfirst hm) hrec hstatus hm' hdb hsub hown hres
  | loop hm₀ hnone hm hmet hown hdb hdone =>
    exact .loop (I.trans _ _ _ hfirst hm₀) hnone hm hmet hown hdb hdone

theorem PostEffect.earlier {id delta : ℤ} {first first' : Tables} {db : SubDb}
    (h : PostEffect tx id delta I first' past db) (hfirst : I.allowed first first') :
    PostEffect tx id delta I first past db := by
  obtain ⟨m, sub, hmet, hm, rest⟩ := h
  exact ⟨m, sub, hmet, I.trans _ _ _ hfirst hm, rest⟩

theorem safe_preConsumeUserSubscription (hplans : ∀ t t', I.allowed t t' → t'.plans = t.plans)
    (hown : s.state.own tx = []) :
    Safe (faultyHandle engine) (txContract engine tx I ok
      (PreEffect c tx call I ok s.state.committed)) (fun _ _ _ => True)
      (preConsumeUserSubscription c tx call) past s := by
  unfold preConsumeUserSubscription
  split
  · exact fun _ _ => trivial
  split
  · exact fun _ _ => trivial
  split
  · exact fun _ _ => trivial
  apply safe_transaction (within_preConsumeBody c tx call)
  intro past t ht
  apply (safe_preConsumeBody hplans (ht.1.trans hown)).mono
  intro r past' u hu res hres
  exact (hu res hres).earlier ht.2

theorem safe_postConsumeUserSubscriptionDelta (id delta : ℤ) (hown : s.state.own tx = []) :
    Safe (faultyHandle engine) (txContract engine tx I ok
      (fun _ => PostEffect tx id delta I s.state.committed)) (fun _ _ _ => True)
      (postConsumeUserSubscriptionDelta tx id delta) past s := by
  unfold postConsumeUserSubscriptionDelta
  split
  · exact fun _ _ => trivial
  split
  · exact fun _ _ => trivial
  apply safe_transaction (within_postConsumeBody tx id delta)
  intro past t ht
  apply (safe_postConsumeBody id delta (ht.1.trans hown)).mono
  intro r past' u hu a ha
  exact (hu a ha).earlier ht.2

end Effects

end SubscriptionEffects
