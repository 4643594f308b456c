import TinyToken.SubscriptionEffects

/-! The subscription calls run alone on an idle store: what they return and the tables they
leave, with and without failing statements. -/
namespace SubscriptionAlone

open GoText ProgramSteps InterleavedPrograms ReadCommittedStore Db KeyedTable TransactionPools
  SubscriptionRows SubscriptionTransactions SubscriptionEffects Table

def alone : Interference Tables := ⟨Eq, fun _ => rfl, fun _ _ _ h h' => h.trans h'⟩

def adjusted (t : Tables) (id delta : ℤ) : Tables :=
  match t.subs.find? id with
  | none => t
  | some sub =>
    { t with subs := t.subs.save { sub with amountUsed := clampUsed sub.amountUsed delta } }

variable (t : Tables) {tx : TxId} {id delta : ℤ}

theorem adjusted_records (id delta : ℤ) : (adjusted t id delta).records = t.records := by
  unfold adjusted
  split <;> rfl

theorem usedOf_adjusted (id delta : ℤ) :
    usedOf (adjusted t id delta) id = (usedOf t id).map fun used => clampUsed used delta := by
  unfold adjusted
  cases hsub : t.subs.find? id with
  | none => simp [usedOf, hsub]
  | some sub =>
    have hkey : id = sub.id := (find?_some_key hsub).symm
    simp only [usedOf, find?_save, hsub]
    rw [if_pos hkey]
    rfl

theorem usedOf_adjusted_of_ne {id other : ℤ} (h : other ≠ id) (delta : ℤ) :
    usedOf (adjusted t id delta) other = usedOf t other := by
  unfold adjusted
  cases hsub : t.subs.find? id with
  | none => rfl
  | some sub =>
    have hkey : sub.id = id := find?_some_key hsub
    have hne : ¬ other = sub.id := fun e => h (e.trans hkey)
    simp only [usedOf, find?_save]
    rw [if_neg hne]

def preCharged (call : PreConsumeCall) (visits : List Visit) (sub : UserSubscription)
    (t : Tables) : Tables :=
  (visitWrites visits ++ chargeWrites call sub).foldl (fun t w => applyWrite w t) t

/-- A successful pre-consumption: the answer of a stored record, or a charge with a new
record. -/
inductive PreOutcome (c : Clock) (call : PreConsumeCall) (t : Tables)
    (res : SubscriptionPreConsumeResult) (t' : Tables) : Prop
  | repeated {record : SubscriptionPreConsumeRecord} {sub : UserSubscription} :
      t.records.find? call.requestId = some record → record.status ≠ .refunded →
      t.subs.find? record.userSubscriptionId = some sub → t' = t →
      res = repeatedResult record sub → PreOutcome c call t res t'
  | charged {visits : List Visit} {sub : UserSubscription} : 0 < call.amount →
      t.records.find? call.requestId = none →
      scan c t.plans.find? call (candidates call t) = some (visits, sub) →
      t' = preCharged call visits sub t → res = chargedResult call sub →
      PreOutcome c call t res t'

theorem preOutcome_of_effect {c : Clock} {call : PreConsumeCall} {t : Tables}
    {res : SubscriptionPreConsumeResult} {past : SubHistory} {db : SubDb}
    (hamount : 0 < call.amount) (he : PreEffect c tx call alone (fun _ _ _ => True) t res past db) :
    PreOutcome c call t res (db.view engine tx) := by
  cases he with
  | existing hm hrec hstatus hm' hdb hsub hown hres =>
    cases hm
    cases hm'
    refine .repeated hrec hstatus hsub ?_ hres
    rw [view_of_own_nil hown]
    exact (show t = db.committed from hdb).symm
  | @loop m₀ m hm₀ hnone hm hmet hown hdb hdone =>
    obtain rfl : t = m₀ := hm₀
    have hmt : t = m.committed := hm
    obtain ⟨visits, sub, hscan, hend⟩ := hdone
    rw [← hmt] at hscan hend hdb
    rcases hend with ⟨hcharge, hres⟩ | ⟨-, hrec⟩
    · refine .charged hamount hnone hscan ?_ hres
      rw [view, hcharge, ← (show t = db.committed from hdb)]
      rfl
    · obtain ⟨-, -, u, dup, -, -, hu, -, hownu, hdup, -⟩ := hrec
      have hview : (u.state.view engine tx).records = u.state.committed.records := by
        simp only [view, hownu, List.nil_append]
        exact foldl_records_of_saveSub (fun w hw => visitWrites_isSaveSub hw) _
      rw [hview, ← (show t = u.state.committed from hu), hnone] at hdup
      cases hdup

theorem wp_preConsume {c : Clock} {call : PreConsumeCall} {t : Tables} {s : SubStore}
    (hs : s.state = idle t) :
    wp (faultyHandle engine) (preConsumeUserSubscription c tx call) (fun r u =>
      ∃ t', u.state = idle t' ∧ (∀ e, r = .error e → t' = t) ∧
        ∀ res, r = .ok res → PreOutcome c call t res t') s := by
  have hown : s.state.own tx = [] := by
    rw [hs]
    rfl
  have refused : ∀ e : String, ∃ t', s.state = idle t' ∧
      (∀ e', (.error e : Except String SubscriptionPreConsumeResult) = .error e' → t' = t) ∧
      ∀ res, (.error e : Except String SubscriptionPreConsumeResult) = .ok res →
        PreOutcome c call t res t' :=
    fun e => ⟨t, hs, fun _ _ => rfl, nofun⟩
  unfold preConsumeUserSubscription
  split
  · exact wp_pure.mpr (refused _)
  split
  · exact wp_pure.mpr (refused _)
  split
  · exact wp_pure.mpr (refused _)
  rename_i hamount
  have hbody := within_preConsumeBody c tx call
  have hsafe : Safe (faultyHandle engine) (txContract engine tx alone (fun _ _ _ => True)
      (PreEffect c tx call alone (fun _ _ _ => True) s.state.committed)) (fun _ _ _ => True)
      (transaction tx (preConsumeBody c tx call)) [] s := by
    apply safe_transaction hbody
    intro past u hu
    refine (safe_preConsumeBody (fun _ _ h => by rw [show _ = _ from h])
      (hu.1.trans hown)).mono ?_
    exact fun r past' v hv res hres => (hv res hres).earlier hu.2
  refine wp_mono (wp_and (transaction_idle hbody hs) (wp_and (transaction_error_unchanged hbody hown)
    (wp_published hsafe nofun))) ?_
  rintro r u ⟨⟨t', ht'⟩, herr, hok⟩
  refine ⟨t', ht', ?_, ?_⟩
  · intro e he
    have := herr e he
    rw [ht', hs] at this
    exact congrArg Db.committed this
  · intro res hres
    obtain ⟨past, db, heff, hc⟩ := hok res hres
    rw [ht', hs] at *
    rw [show t' = db.view engine tx from hc]
    exact preOutcome_of_effect (by omega) heff

theorem adjusted_adjusted {t : Tables} {sub : UserSubscription} (hsub : t.subs.find? id = some sub)
    (hused : 0 ≤ sub.amountUsed) (hd : 0 ≤ delta) :
    adjusted (adjusted t id delta) id (-delta) = t := by
  have hkey : sub.id = id := find?_some_key hsub
  have hclamp : clampUsed (clampUsed sub.amountUsed delta) (-delta) = sub.amountUsed := by
    unfold clampUsed
    rw [if_neg (by omega), if_neg (by omega)]
    omega
  have hrow : t.subs.find? sub.id = some sub := by rw [hkey, hsub]
  have hafter : (adjusted t id delta).subs.find? id =
      some { sub with amountUsed := clampUsed sub.amountUsed delta } := by
    simp only [adjusted, hsub, find?_save]
    exact if_pos hkey.symm
  have hback : (t.subs.save { sub with amountUsed := clampUsed sub.amountUsed delta }).save sub =
      t.subs :=
    (save_save (v := { sub with amountUsed := clampUsed sub.amountUsed delta }) (w := sub)
      hrow rfl).trans (save_of_mem hrow)
  rw [adjusted, hafter]
  simp only [hclamp, adjusted, hsub]
  exact congrArg (fun subs => { t with subs := subs }) hback

/-- `PostConsumeUserSubscriptionDelta` as a function of the tables. -/
def postConsume (t : Tables) (userSubscriptionId delta : ℤ) : Except String Unit × Tables :=
  if userSubscriptionId ≤ 0 then (.error "invalid userSubscriptionId", t)
  else if delta = 0 then (.ok (), t)
  else
    match t.subs.find? userSubscriptionId with
    | none => (.error "record not found", t)
    | some sub =>
      if sub.amountTotal > 0 ∧ clampUsed sub.amountUsed delta > sub.amountTotal then
        (.error s!"subscription used exceeds total, used={clampUsed sub.amountUsed delta} total={sub.amountTotal}", t)
      else (.ok (), adjusted t userSubscriptionId delta)

theorem run_postConsume (tx : TxId) (t : Tables) (id delta : ℤ) :
    run (handle engine) (postConsumeUserSubscriptionDelta tx id delta) (idle t) =
      some ((postConsume t id delta).1, idle (postConsume t id delta).2) := by
  unfold postConsumeUserSubscriptionDelta postConsume
  split
  · rfl
  split
  · rfl
  have hselect : run (handle engine) (selectSub tx id) (idle t) =
      some (.ok (t.subs.find? id), idle t) := rfl
  rw [run_transaction, postConsumeBody, run_bind, hselect, Option.bind_some]
  cases hsub : t.subs.find? id with
  | none => rfl
  | some sub =>
    dsimp only
    split
    · rfl
    · simp only [adjusted, hsub]
      exact congrArg some (Prod.ext rfl (publish_add_idle t tx _))

/-- One `PostConsumeUserSubscriptionDelta` on an idle store: an error changes nothing, and
success means that its four statements passed. -/
theorem wp_postConsume {t : Tables} {s : SubStore} (hs : s.state = idle t) {id delta : ℤ}
    (hdelta : delta ≠ 0) :
    wp (faultyHandle engine) (postConsumeUserSubscriptionDelta tx id delta) (fun r u =>
      (∀ e, r = .error e → u.state = idle t) ∧
      (r = .ok () → (∀ i < 4, s.nth i = none) ∧ (∀ i, u.nth i = s.nth (i + 4)) ∧
        u.state = idle (adjusted t id delta) ∧
        postConsume t id delta = (.ok (), adjusted t id delta))) s := by
  obtain ⟨db, faults⟩ := s
  obtain rfl : db = idle t := hs
  unfold postConsumeUserSubscriptionDelta
  split
  · exact wp_pure.mpr ⟨fun _ _ => rfl, nofun⟩
  rename_i hid
  refine wp_transaction ?_ ?_
  · exact fun e _ => ⟨fun _ _ => rfl, nofun⟩
  intro h0
  refine wp_fallible rfl ?_ ?_
  · exact fun e _ => wp_pure.mpr ⟨fun _ _ => rfl, nofun⟩
  intro h1 r u hr
  cases hr
  generalize hsub : engine.answer (.subById id) _ = found
  change t.subs.find? id = found at hsub
  cases found with
  | none => exact wp_pure.mpr ⟨fun _ _ => rfl, nofun⟩
  | some sub =>
    dsimp only [Prog.bind]
    split
    · exact wp_pure.mpr ⟨fun _ _ => rfl, nofun⟩
    rename_i hroom
    refine wp_fallible rfl ?_ ?_
    · exact fun e _ => wp_pure.mpr ⟨fun _ _ => rfl, nofun⟩
    intro h2 r u hr
    cases hr
    refine wp_pure.mpr ⟨?_, ?_⟩
    · -- the commit fails
      intro e _
      exact ⟨fun _ _ => discard_add_idle t tx _, nofun⟩
    · intro h3
      refine ⟨fun _ h => (by cases h), fun _ => ⟨?_, ?_, ?_, ?_⟩⟩
      · simp only [Faulty.next, Faulty.after_nth] at h0 h1 h2 h3
        intro i hi
        interval_cases i <;> assumption
      · intro i
        simp only [Faulty.after_nth]
      · simp only [adjusted, hsub]
        exact publish_add_idle t tx _
      · simp only [postConsume, if_neg hid, if_neg hdelta, hsub, if_neg hroom]

def marked (t : Tables) (record : SubscriptionPreConsumeRecord) : Tables :=
  { t with records := t.records.save { record with status := .refunded } }

theorem marked_record (t : Tables) (record : SubscriptionPreConsumeRecord) :
    (marked t record).records.find? record.requestId =
      some { record with status := .refunded } := by
  simp [marked, find?_save]

/-- `RefundSubscriptionPreConsume` as a function of the tables. -/
def refund (t : Tables) (requestId : String) : Except String Unit × Tables :=
  if trimSpace requestId = "" then (.error "requestId is empty", t)
  else
    match t.records.find? requestId with
    | none => (.error "record not found", t)
    | some record =>
      if record.status = .refunded then (.ok (), t)
      else if record.preConsumed ≤ 0 then (.ok (), marked t record)
      else
        match postConsume t record.userSubscriptionId (-record.preConsumed) with
        | (.error e, _) => (.error e, t)
        | (.ok _, t') => (.ok (), marked t' record)

theorem postConsume_error {t t' : Tables} {e : String}
    (h : postConsume t id delta = (.error e, t')) : t' = t := by
  unfold postConsume at h
  split at h
  · cases h; rfl
  split at h
  · cases h
  split at h
  · cases h; rfl
  split at h
  · cases h; rfl
  · cases h

theorem run_refund (tx inner : TxId) (t : Tables) (requestId : String) :
    run (handle engine) (refundSubscriptionPreConsume tx inner requestId) (idle t) =
      some ((refund t requestId).1, idle (refund t requestId).2) := by
  have save : ∀ (t' : Tables) (record : SubscriptionPreConsumeRecord),
      (run (handle engine) (saveRecord tx { record with status := .refunded }) (idle t')).map
        (fun p => (p.1, finish engine tx p.1 p.2)) = some (.ok (), idle (marked t' record)) :=
    fun t' record => congrArg some (Prod.ext rfl (publish_add_idle t' tx _))
  unfold refundSubscriptionPreConsume refund
  split
  · rfl
  have hselect : run (handle engine) (selectRecord tx requestId) (idle t) =
      some (.ok (t.records.find? requestId), idle t) := rfl
  rw [run_transaction, refundBody, run_bind, hselect, Option.bind_some]
  cases t.records.find? requestId with
  | none => rfl
  | some record =>
    dsimp only
    split
    · rfl
    split
    · exact save t record
    rw [run_bind, run_postConsume]
    cases hpost : postConsume t record.userSubscriptionId (-record.preConsumed) with
    | mk r t' =>
      cases r with
      | error e =>
        rw [postConsume_error hpost]
        rfl
      | ok a => exact save t' record

end SubscriptionAlone
