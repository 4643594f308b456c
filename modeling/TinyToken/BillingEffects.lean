import TinyToken.BillingSession
import TinyToken.SubscriptionAlone

/-! What the calls of a billing session do to the ledger, for every choice of failing store
operations. An advance charge that fails has been taken back. -/
namespace BillingEffects

open GoText ProgramSteps ProgramOutcomes ReadCommittedStore Db KeyedTable SubscriptionRows SubscriptionTransactions
  SubscriptionAlone BillingStore BillingAccounts BillingSession Function

section Ledger

variable (a : Ledger)

@[simp] theorem addWallet_zero (userId : ℤ) : a.addWallet userId 0 = a := by
  refine Ledger.ext ?_ rfl rfl
  simp [Ledger.addWallet]

@[simp] theorem addToken_zero (tokenId : ℤ) : a.addToken tokenId 0 = a := by
  refine Ledger.ext rfl ?_ rfl
  simp [Ledger.addToken, TokenQuota.add]

theorem addWallet_addWallet (userId x y : ℤ) :
    (a.addWallet userId x).addWallet userId y = a.addWallet userId (x + y) := by
  refine Ledger.ext ?_ rfl rfl
  simp only [Ledger.addWallet, update_self, update_idem, Option.map_map]
  congr 2
  funext q
  simp only [comp_apply]
  omega

theorem addToken_addToken (tokenId x y : ℤ) :
    (a.addToken tokenId x).addToken tokenId y = a.addToken tokenId (x + y) := by
  refine Ledger.ext rfl ?_ rfl
  simp only [Ledger.addToken, update_self, update_idem, Option.map_map]
  congr 2
  funext q
  exact TokenQuota.add_add q x y

/-- The ledger after a charge to the token of the request, which a playground has not. -/
def tokenCharged (info : RelayInfo) (quota : ℤ) (a : Ledger) : Ledger :=
  if info.isPlayground then a else a.addToken info.tokenId (-quota)

variable (info : RelayInfo)

@[simp] theorem tokenCharged_subs (quota : ℤ) : (tokenCharged info quota a).subs = a.subs := by
  unfold tokenCharged
  split <;> rfl

@[simp] theorem tokenCharged_wallet (quota : ℤ) :
    (tokenCharged info quota a).wallet = a.wallet := by
  unfold tokenCharged
  split <;> rfl

@[simp] theorem tokenCharged_zero : tokenCharged info 0 a = a := by
  unfold tokenCharged
  split
  · rfl
  · rw [neg_zero, addToken_zero]

theorem tokenCharged_tokenCharged (x y : ℤ) :
    tokenCharged info y (tokenCharged info x a) = tokenCharged info (x + y) a := by
  unfold tokenCharged
  split
  · rfl
  · rw [addToken_addToken, neg_add]

theorem addWallet_tokenCharged (quota userId delta : ℤ) :
    (tokenCharged info quota a).addWallet userId delta =
      tokenCharged info quota (a.addWallet userId delta) := by
  unfold tokenCharged
  split <;> rfl

end Ledger

def OkOrSame {ε α : Type} (P : α → Ledger → Prop) (a : Ledger) : Except ε α → Ledger → Prop
  | .ok x, a' => P x a'
  | .error _, a' => a' = a

section Calls

variable {fails : Purpose → Prop} {cfg : Config} {c : Context} {a : Ledger}

theorem always_preConsumeTokenQuota (info : RelayInfo) {quota : ℤ} (hq : 0 ≤ quota) :
    always (effects fails) (preConsumeTokenQuota cfg info quota)
      (OkOrSame (fun _ a' => a' = tokenCharged info quota a) a) a := by
  unfold preConsumeTokenQuota tokenCharged
  rw [if_neg (by omega)]
  by_cases hp : info.isPlayground = true
  · rw [if_pos hp]
    exact (if_pos hp).symm
  rw [if_neg hp]
  apply always_seq (reads_getTokenByKey cfg info.tokenKey false a)
  rintro (e | remain) a' rfl
  · rfl
  dsimp only
  split
  · rfl
  · apply always_mono (always_decreaseTokenQuota .ordinary info.tokenId info.tokenKey hq)
    rintro r a'' (⟨rfl, rfl⟩ | ⟨-, ⟨e, rfl⟩, rfl⟩) <;> rfl

variable {purpose : Purpose} {tx : TxId} {t : Tables}

theorem always_query (tx : TxId) (q : SubQuery) {β : Type}
    {k : Except String (SubAnswer q) → BillProg β} {Q : β → Ledger → Prop}
    (h : ∀ r, always (effects fails) (k r) Q a) :
    always (effects fails) (onStore purpose (query tx q : SubProg _) >>= k) Q a := by
  apply always_bind.mpr
  rintro r a' ⟨db, rfl, hr⟩
  rcases hr with hr | ⟨-, fail, e, hf, he⟩
  · cases hr
    exact h _
  · cases hf
    cases he
    exact h _

theorem reads_hasActiveUserSubscription (c : Context) (userId : ℤ) :
    Reads fails (hasActiveUserSubscription c userId) := by
  intro a
  unfold hasActiveUserSubscription
  split
  · rfl
  apply always_query c.tx (.countActive userId c.checkedAt)
  rintro (e | n)
  · rfl
  · rfl

theorem reads_getSubscriptionPlanByIdTx (tx : TxId) (id : ℤ) :
    Reads fails (onStore .ordinary (getSubscriptionPlanByIdTx tx id)) := by
  intro a
  unfold getSubscriptionPlanByIdTx
  split
  · rfl
  rintro r a' ⟨db, rfl, hr⟩
  rcases hr with hr | ⟨-, fail, e, hf, he⟩
  · cases hr
    cases engine.answer (.planById id) (a.subs.view engine tx) with
    | none | some plan => rfl
  · cases hf
    cases he
    rfl

theorem reads_getSubscriptionPlanInfo (c : Context) (id : ℤ) :
    Reads fails (getSubscriptionPlanInfoByUserSubscriptionId c id) := by
  intro a
  unfold getSubscriptionPlanInfoByUserSubscriptionId
  split
  · rfl
  apply always_bind.mpr
  rintro (_ | cached) a' rfl
  · apply always_query c.tx (.subById id)
    rintro (e | _ | sub)
    · rfl
    · rfl
    · apply always_seq (reads_getSubscriptionPlanByIdTx c.tx sub.planId a')
      rintro (e | plan) a'' rfl
      · rfl
      · apply always_bind.mpr
        rintro r b rfl
        rfl
  · rfl

theorem always_preConsumeUserSubscription {clock : Clock} {call : PreConsumeCall}
    (ha : a.subs = idle t) :
    always (effects fails) (onStore .ordinary (preConsumeUserSubscription clock tx call))
      (OkOrSame (fun res a' => trimSpace call.requestId ≠ "" ∧ ∃ t', a' = { a with subs := idle t' } ∧
        PreOutcome clock call t res t') a) a := by
  by_cases hblank : trimSpace call.requestId = ""
  · unfold preConsumeUserSubscription
    split
    · rfl
    · rfl
  apply always_onStore
  apply always_of_wp
  intro faults
  refine wp_mono (h := faultyHandle engine) (wp_preConsume (s := ⟨a.subs, faults⟩) ha) ?_
  rintro (e | res) u ⟨t', hu, herr, hok⟩
  · change { a with subs := u.state } = a
    rw [hu, herr e rfl, ← ha]
  · exact ⟨hblank, t', by rw [hu], hok res rfl⟩

theorem always_postConsume_unfailing (hp : ¬ fails purpose) (ha : a.subs = idle t) (id delta : ℤ) :
    always (effects fails) (onStore purpose (postConsumeUserSubscriptionDelta tx id delta))
      (fun r a' => r = (postConsume t id delta).1 ∧
        a' = { a with subs := idle (postConsume t id delta).2 }) a := by
  apply always_onStore
  apply always_of_wp_unfailing (fun _ => hp)
  rw [ha]
  intro r db hr
  rw [run_postConsume] at hr
  cases hr
  exact ⟨rfl, rfl⟩

theorem always_postConsume (ha : a.subs = idle t) (id : ℤ) {delta : ℤ} (hd : delta ≠ 0) :
    always (effects fails) (onStore purpose (postConsumeUserSubscriptionDelta tx id delta))
      (OkOrSame (fun _ a' => postConsume t id delta = (.ok (), adjusted t id delta) ∧
        a' = { a with subs := idle (adjusted t id delta) }) a) a := by
  apply always_onStore
  apply always_of_wp
  intro faults
  refine wp_mono (h := faultyHandle engine) (wp_postConsume (s := ⟨a.subs, faults⟩) ha hd) ?_
  rintro (e | r) u ⟨herr, hok⟩
  · change { a with subs := u.state } = a
    rw [herr e rfl, ← ha]
  · obtain ⟨-, -, hu, hpost⟩ := hok rfl
    exact ⟨hpost, by rw [hu]⟩

theorem always_wallet_preConsume (w : WalletFunding) (hw : w.consumed = 0) {p : ℤ} (hp : 0 ≤ p) :
    always (effects fails) ((FundingSource.wallet w).preConsume cfg c p)
      (OkOrSame (fun f a' => f = .wallet { w with consumed := p } ∧ a' = a.addWallet w.userId (-p)) a)
      a := by
  apply always_bind.mpr
  unfold WalletFunding.preConsume
  by_cases h : p ≤ 0
  · obtain rfl : p = 0 := by omega
    rw [if_pos (le_rfl)]
    refine ⟨?_, ?_⟩
    · rw [← hw]
    · rw [neg_zero, addWallet_zero]
  · rw [if_neg h]
    apply always_seq (always_decreaseUserQuota .ordinary w.userId hp false)
    rintro r a' (⟨rfl, rfl⟩ | ⟨-, ⟨e, rfl⟩, rfl⟩)
    · exact ⟨rfl, rfl⟩
    · rfl

def subscribed (f : SubscriptionFunding) (res : SubscriptionPreConsumeResult)
    (plan : Option SubscriptionPlanInfo) : SubscriptionFunding :=
  match plan with
  | none => f.charged res
  | some plan => { f.charged res with planId := plan.planId, planTitle := plan.planTitle }

theorem always_subscription_preConsume (f : SubscriptionFunding) (p : ℤ) {t : Tables}
    (ha : a.subs = idle t) :
    always (effects fails) ((FundingSource.subscription f).preConsume cfg c p)
      (OkOrSame (fun f' a' => trimSpace f.requestId ≠ "" ∧ ∃ res plan t',
        f' = .subscription (subscribed f res plan) ∧ a' = { a with subs := idle t' } ∧
        PreOutcome cfg.clock (f.call c) t res t') a) a := by
  apply always_bind.mpr
  apply always_seq (always_preConsumeUserSubscription ha)
  rintro (e | res) a' h
  · exact h
  obtain ⟨hblank, t', rfl, hout⟩ := h
  apply always_seq (reads_getSubscriptionPlanInfo c res.userSubscriptionId _)
  rintro (e | plan) a' rfl
  · exact ⟨hblank, res, none, t', rfl, rfl, hout⟩
  · exact ⟨hblank, res, some plan, t', rfl, rfl, hout⟩

theorem always_chargeFunding (hundo : ¬ fails .undo) {s : Session} (htoken : 0 ≤ s.tokenConsumed)
    {p : ℤ} {P : FundingSource → Ledger → Prop}
    (hf : always (effects fails) (s.funding.preConsume cfg c p)
      (OkOrSame P (tokenCharged s.relayInfo s.tokenConsumed a))
      (tokenCharged s.relayInfo s.tokenConsumed a)) :
    always (effects fails) (s.chargeFunding cfg c p)
      (OkOrSame (fun s' a' => ∃ f, P f a' ∧
        s' = { s with funding := f, preConsumedQuota := p }.syncRelayInfo) a)
      (tokenCharged s.relayInfo s.tokenConsumed a) := by
  apply always_seq hf
  rintro (e | f) a' h
  · obtain rfl : a' = _ := h
    dsimp only
    split
    next hback =>
      apply always_seq (always_increaseTokenQuota .undo _ _ htoken)
      rintro r a' (⟨-, rfl⟩ | ⟨hfail, -⟩)
      · change _ = a
        simp only [tokenCharged, hback.2, Bool.false_eq_true, if_false]
        rw [addToken_addToken, neg_add_cancel, addToken_zero]
      · exact (hundo hfail).elim
    next hkept =>
      change _ = a
      by_cases hp : s.relayInfo.isPlayground = true
      · exact if_pos hp
      · have hzero : s.tokenConsumed = 0 := by
          by_contra hne
          exact hkept ⟨by omega, by simpa using hp⟩
        rw [hzero, tokenCharged_zero]
  · exact ⟨f, h, rfl⟩

def effective (cfg : Config) (c : Context) (s : Session) (quota : ℤ) : ℤ :=
  if s.shouldTrust cfg c then 0 else quota

theorem effective_nonneg (cfg : Config) (c : Context) (s : Session) {quota : ℤ} (hq : 0 ≤ quota) :
    0 ≤ effective cfg c s quota := by
  unfold effective
  split
  · exact le_rfl
  · exact hq

theorem always_session_preConsume (hundo : ¬ fails .undo) {s : Session} (hs : s.tokenConsumed = 0)
    {quota : ℤ} (hq : 0 ≤ quota) {P : FundingSource → Ledger → Prop}
    (hf : always (effects fails) (s.funding.preConsume cfg c (effective cfg c s quota))
      (OkOrSame P (tokenCharged s.relayInfo (effective cfg c s quota) a))
      (tokenCharged s.relayInfo (effective cfg c s quota) a)) :
    always (effects fails) (s.preConsume cfg c quota)
      (OkOrSame (fun s' a' => ∃ f, P f a' ∧ s' = { s with
          trusted := s.trusted || s.shouldTrust cfg c
          tokenConsumed := effective cfg c s quota
          funding := f
          preConsumedQuota := effective cfg c s quota }.syncRelayInfo) a) a := by
  have hp := effective_nonneg cfg c s hq
  change always _ (if effective cfg c s quota > 0 then _ else _) _ _
  split
  · apply always_seq (always_preConsumeTokenQuota s.relayInfo hp)
    rintro (e | r) a' h
    · exact h
    · obtain rfl : a' = _ := h
      exact always_chargeFunding hundo
        (s := { s with
          trusted := s.trusted || s.shouldTrust cfg c
          tokenConsumed := effective cfg c s quota }) hp hf
  · have hzero : effective cfg c s quota = 0 := by omega
    have h := always_chargeFunding (a := a) hundo
      (s := { s with
        trusted := s.trusted || s.shouldTrust cfg c
        tokenConsumed := effective cfg c s quota }) hp hf
    rw [show tokenCharged s.relayInfo (effective cfg c s quota) a = a by
      rw [hzero, tokenCharged_zero]] at h
    have hsame : { s with trusted := s.trusted || s.shouldTrust cfg c } = ({ s with
          trusted := s.trusted || s.shouldTrust cfg c
          tokenConsumed := effective cfg c s quota } : Session) := by
      rw [hzero, ← hs]
    rw [hsame]
    exact h

/-- A session right after its advance charge of `p`. -/
def opened (info : RelayInfo) (f : FundingSource) (p : ℤ) (trusted : Bool) : Session :=
  { Session.init info f with
    preConsumedQuota := p
    tokenConsumed := p
    trusted := trusted }.syncRelayInfo

def subscriptionFor (info : RelayInfo) (amount : ℤ) : SubscriptionFunding :=
  ⟨info.requestId, info.userId, amount, 0, 0, 0, 0, 0, ""⟩

/-- How a session came about: one source and the token have been charged the same. -/
inductive Opened (cfg : Config) (c : Context) (info : RelayInfo) (quota : ℤ) (t : Tables)
    (a : Ledger) : Session → Ledger → Prop
  | wallet {p userQuota : ℤ} {trusted : Bool} : (p = if trusted then 0 else quota) →
      Opened cfg c info quota t a
        (opened { info with userQuota := userQuota } (.wallet ⟨info.userId, p⟩) p trusted)
        ((tokenCharged info p a).addWallet info.userId (-p))
  | subscription {p userQuota : ℤ} {res : SubscriptionPreConsumeResult}
      {plan : Option SubscriptionPlanInfo} {t' : Tables} : p = subConsume quota →
      trimSpace info.requestId ≠ "" →
      PreOutcome cfg.clock ((subscriptionFor info p).call c) t res t' →
      Opened cfg c info quota t a
        (opened { info with userQuota := userQuota }
          (.subscription (subscribed (subscriptionFor info p) res plan)) p false)
        { tokenCharged info p a with subs := idle t' }

def Created (cfg : Config) (c : Context) (info : RelayInfo) (quota : ℤ) (t : Tables) (a : Ledger) :
    RelayInfo × Except NewAPIError Session → Ledger → Prop
  | (info', .error _), a' => a' = a ∧ ∃ userQuota, info' = { info with userQuota := userQuota }
  | (_, .ok s), a' => Opened cfg c info quota t a s a'

section Creation

variable {info : RelayInfo} {quota : ℤ} {t : Tables}

theorem always_tryWallet (hundo : ¬ fails .undo) (hq : 0 ≤ quota) (u : ℤ) :
    always (effects fails) (tryWallet cfg c { info with userQuota := u } quota)
      (Created cfg c info quota t a) a := by
  apply always_seq (reads_getUserQuota cfg info.userId false a)
  rintro (e | userQuota) a' rfl
  · exact ⟨rfl, u, rfl⟩
  dsimp only
  split
  · exact ⟨rfl, u, rfl⟩
  split
  · exact ⟨rfl, u, rfl⟩
  refine always_seq (always_session_preConsume hundo rfl hq
    (always_wallet_preConsume ⟨info.userId, 0⟩ rfl (effective_nonneg cfg c _ hq))) ?_
  rintro (e | s) a'' h
  · exact ⟨h, userQuota, rfl⟩
  · obtain ⟨f, ⟨rfl, rfl⟩, rfl⟩ := h
    exact Opened.wallet rfl

theorem subConsume_pos (quota : ℤ) : 0 < subConsume quota := by
  unfold subConsume
  split <;> omega

theorem shouldTrust_subscription (cfg : Config) (c : Context) (info : RelayInfo)
    (f : SubscriptionFunding) :
    (Session.init info (.subscription f)).shouldTrust cfg c = false := by
  unfold Session.shouldTrust
  split
  · rfl
  split
  · rfl
  split
  · rfl
  · rfl

theorem always_trySubscription (hundo : ¬ fails .undo) (ha : a.subs = idle t) (u : ℤ) :
    always (effects fails) (trySubscription cfg c { info with userQuota := u } quota)
      (Created cfg c info quota t a) a := by
  refine always_seq (always_session_preConsume hundo rfl (le_of_lt (subConsume_pos quota))
    (always_subscription_preConsume (t := t) (subscriptionFor info (subConsume quota)) _
      ((tokenCharged_subs a _ _).trans ha))) ?_
  rintro (e | s) a'' h
  · exact ⟨h, u, rfl⟩
  · obtain ⟨f, ⟨hblank, res, plan, t', rfl, rfl, hout⟩, rfl⟩ := h
    unfold effective
    rw [shouldTrust_subscription]
    exact Opened.subscription rfl hblank hout

/-- Whatever fails, an error leaves the ledger as it was and a session has charged one
source and the token alike. -/
theorem always_newBillingSession (hundo : ¬ fails .undo) (hq : 0 ≤ quota) (ha : a.subs = idle t) :
    always (effects fails) (newBillingSession cfg c info quota)
      (Created cfg c info quota t a) a := by
  have wallet : ∀ u, always (effects fails) (tryWallet cfg c { info with userQuota := u } quota)
      (Created cfg c info quota t a) a := always_tryWallet hundo hq
  have subscription : ∀ u, always (effects fails)
      (trySubscription cfg c { info with userQuota := u } quota) (Created cfg c info quota t a) a :=
    always_trySubscription hundo ha
  unfold newBillingSession
  cases normalizeBillingPreference info.billingPreference with
  | subscriptionOnly => exact subscription info.userQuota
  | walletOnly => exact wallet info.userQuota
  | walletFirst =>
    apply always_seq (wallet info.userQuota)
    rintro ⟨info', e | s⟩ a' h
    · obtain ⟨rfl, u, rfl⟩ := h
      dsimp only
      split
      · exact subscription u
      · exact ⟨rfl, u, rfl⟩
    · exact h
  | subscriptionFirst =>
    apply always_seq (reads_hasActiveUserSubscription c info.userId a)
    rintro (e | _ | _) a' rfl
    · exact ⟨rfl, info.userQuota, rfl⟩
    · exact wallet info.userQuota
    · apply always_seq (subscription info.userQuota)
      rintro ⟨info', e | s⟩ a'' h
      · obtain ⟨rfl, u, rfl⟩ := h
        dsimp only
        split
        · exact wallet u
        · exact ⟨rfl, u, rfl⟩
      · exact h

end Creation

/-- The ledger after `delta` more has been taken from the funding source. -/
inductive Taken (t : Tables) (delta : ℤ) (a : Ledger) : FundingSource → Ledger → Prop
  | wallet (w : WalletFunding) : Taken t delta a (.wallet w) (a.addWallet w.userId (-delta))
  | subscription (f : SubscriptionFunding) :
      postConsume t f.subscriptionId delta = (.ok (), adjusted t f.subscriptionId delta) →
      Taken t delta a (.subscription f) { a with subs := idle (adjusted t f.subscriptionId delta) }

def noted (delta : ℤ) : FundingSource → FundingSource
  | .wallet w => .wallet { w with consumed := w.consumed + delta }
  | .subscription f => .subscription f

section Reserve

variable {s : Session} {t : Tables} {delta : ℤ}

theorem always_reserveFunding (ha : a.subs = idle t) (hd : 0 < delta) :
    always (effects fails) (s.reserveFunding cfg c delta)
      (OkOrSame (fun s' a' => s' = { s with funding := noted delta s.funding } ∧
        Taken t delta a s.funding a') a) a := by
  unfold Session.reserveFunding
  cases hf : s.funding with
  | wallet w =>
    apply always_seq (always_decreaseUserQuota .ordinary w.userId (le_of_lt hd) false)
    rintro r a' (⟨rfl, rfl⟩ | ⟨-, ⟨e, rfl⟩, rfl⟩)
    · exact ⟨rfl, .wallet w⟩
    · rfl
  | subscription f =>
    apply always_seq (always_postConsume ha f.subscriptionId (by omega))
    rintro (e | r) a' h
    · exact h
    · obtain ⟨hpost, rfl⟩ := h
      refine ⟨?_, .subscription f hpost⟩
      rw [noted, ← hf]

theorem postConsume_undo {id : ℤ}
    (hpost : postConsume t id delta = (.ok (), adjusted t id delta)) (hd : 0 < delta)
    (hused : ∀ used, usedOf t id = some used → 0 ≤ used) :
    postConsume (adjusted t id delta) id (-delta) = (.ok (), t) := by
  unfold postConsume at hpost
  by_cases hid : id ≤ 0
  · rw [if_pos hid] at hpost
    cases hpost
  rw [if_neg hid, if_neg (by omega)] at hpost
  cases hsub : t.subs.find? id with
  | none =>
    rw [hsub] at hpost
    cases hpost
  | some sub =>
    rw [hsub] at hpost
    dsimp only at hpost
    split at hpost
    · cases hpost
    rename_i hroom
    have hpos : 0 ≤ sub.amountUsed := hused _ (by rw [usedOf, hsub]; rfl)
    have hkey : id = sub.id := (Table.find?_some_key hsub).symm
    have hafter : (adjusted t id delta).subs.find? id =
        some { sub with amountUsed := clampUsed sub.amountUsed delta } := by
      simp only [adjusted, hsub, Table.find?_save]
      exact if_pos hkey
    have hback : clampUsed (clampUsed sub.amountUsed delta) (-delta) ≤
        clampUsed sub.amountUsed delta := by
      unfold clampUsed
      split <;> split <;> omega
    unfold postConsume
    rw [if_neg hid, if_neg (by omega), hafter]
    dsimp only
    rw [if_neg (by omega), adjusted_adjusted hsub hpos (by omega)]

theorem always_rollbackFundingReserve (hundo : ¬ fails .undo) (ha : a.subs = idle t)
    (hd : 0 < delta) (hused : ∀ id used, usedOf t id = some used → 0 ≤ used) {a' : Ledger}
    (h : Taken t delta a s.funding a') :
    always (effects fails)
      (Session.rollbackFundingReserve cfg c { s with funding := noted delta s.funding } delta)
      (fun s' b => s' = s ∧ b = a) a' := by
  generalize hf : s.funding = funding at h
  cases h with
  | wallet w =>
    apply always_seq (always_increaseUserQuota .undo w.userId (le_of_lt hd) false)
    rintro r b (⟨rfl, rfl⟩ | ⟨hfail, -⟩)
    · refine ⟨?_, ?_⟩
      · simp only [add_sub_cancel_right, ← hf]
      · rw [addWallet_addWallet, neg_add_cancel, addWallet_zero]
    · exact (hundo hfail).elim
  | subscription f hpost =>
    apply always_seq (always_postConsume_unfailing hundo rfl f.subscriptionId (-delta))
    rintro r b ⟨-, rfl⟩
    rw [postConsume_undo hpost hd (hused _)]
    refine ⟨?_, ?_⟩
    · simp only [noted, ← hf]
    · rw [← ha]

theorem always_reserveToken (hd : 0 ≤ delta) : always (effects fails) (s.reserveToken cfg delta)
      (OkOrSame (fun _ a' => a' = tokenCharged s.relayInfo delta a) a) a := by
  unfold Session.reserveToken
  split
  next hskip =>
    rcases hskip with hzero | hp
    · obtain rfl : delta = 0 := by omega
      exact (tokenCharged_zero a s.relayInfo).symm
    · exact (if_pos hp).symm
  · apply always_seq (always_preConsumeTokenQuota s.relayInfo hd)
    rintro (e | r) a' h
    · exact h
    · exact h

/-- What a `Reserve` leaves. -/
inductive ReserveOutcome (t : Tables) (a : Ledger) (s : Session) (targetQuota : ℤ) :
    Session × Except NewAPIError Unit → Ledger → Prop
  | nothing : s.settled ∨ s.refunded ∨ s.trusted ∨ targetQuota ≤ s.preConsumedQuota →
      ReserveOutcome t a s targetQuota (s, .ok ()) a
  | failed (e : NewAPIError) : ReserveOutcome t a s targetQuota (s, .error e) a
  | charged {a' : Ledger} : ¬ (s.settled ∨ s.refunded ∨ s.trusted) →
      s.preConsumedQuota < targetQuota →
      Taken t (targetQuota - s.preConsumedQuota) a s.funding a' →
      ReserveOutcome t a s targetQuota
        ({ s with funding := noted (targetQuota - s.preConsumedQuota) s.funding }.reserved
          (targetQuota - s.preConsumedQuota), .ok ())
        (tokenCharged s.relayInfo (targetQuota - s.preConsumedQuota) a')

theorem ReserveOutcome.error_same {s' : Session} {targetQuota : ℤ} {e : NewAPIError} {a' : Ledger}
    (h : ReserveOutcome t a s targetQuota (s', .error e) a') : a' = a := by
  cases h with
  | failed => rfl

theorem always_reserve (hundo : ¬ fails .undo) (ha : a.subs = idle t)
    (hused : ∀ id used, usedOf t id = some used → 0 ≤ used) (targetQuota : ℤ) :
    always (effects fails) (s.reserve cfg c targetQuota) (ReserveOutcome t a s targetQuota) a := by
  unfold Session.reserve
  split
  next hskip =>
    exact .nothing hskip
  rename_i hgo
  have hd : 0 < targetQuota - s.preConsumedQuota := by
    by_contra hle
    exact hgo (.inr (.inr (.inr (by omega))))
  apply always_seq (always_reserveFunding ha hd)
  rintro (e | s') a' h
  · obtain rfl : a' = a := h
    exact .failed e
  obtain ⟨rfl, htaken⟩ := h
  apply always_seq (always_reserveToken (le_of_lt hd))
  rintro (e | r) b h
  · obtain rfl : b = a' := h
    apply always_seq (always_rollbackFundingReserve hundo ha hd hused htaken)
    rintro s' b' ⟨rfl, rfl⟩
    exact .failed e
  · obtain rfl : b = _ := h
    refine .charged ?_ (by omega) htaken
    rintro (h | h | h)
    · exact hgo (.inl h)
    · exact hgo (.inr (.inl h))
    · exact hgo (.inr (.inr (.inl h)))

end Reserve

section Settle

variable {s : Session} {t : Tables}

theorem always_funding_settle (f : FundingSource) (ha : a.subs = idle t) {delta : ℤ}
    (hd : delta ≠ 0) :
    always (effects fails) (f.settle cfg c delta) (OkOrSame (fun _ a' => Taken t delta a f a') a)
      a := by
  cases f with
  | wallet w =>
    unfold FundingSource.settle
    dsimp only
    rw [if_neg hd]
    split
    next hpos =>
      apply always_mono (always_decreaseUserQuota .ordinary w.userId (le_of_lt hpos) false)
      rintro r a' (⟨rfl, rfl⟩ | ⟨-, ⟨e, rfl⟩, rfl⟩)
      · exact .wallet w
      · rfl
    · apply always_mono (always_increaseUserQuota .ordinary w.userId (by omega) false)
      rintro r a' (⟨rfl, rfl⟩ | ⟨-, ⟨e, rfl⟩, rfl⟩)
      · exact .wallet w
      · rfl
  | subscription f =>
    unfold FundingSource.settle
    dsimp only
    rw [if_neg hd]
    apply always_mono (always_postConsume ha f.subscriptionId hd)
    rintro (e | r) a' h
    · exact h
    · obtain ⟨hpost, rfl⟩ := h
      exact .subscription f hpost

theorem always_settleToken (delta : ℤ) : always (effects fails) (s.settleToken cfg delta)
      (Changes (fails .ordinary) a (tokenCharged s.relayInfo delta a)) a := by
  unfold Session.settleToken tokenCharged
  split
  · exact .inl ⟨rfl, rfl⟩
  split
  next hpos =>
    exact always_decreaseTokenQuota .ordinary _ _ (le_of_lt hpos)
  · exact always_increaseTokenQuota .ordinary _ _ (by omega)

/-- What a `Settle` leaves where no write fails. -/
inductive SettleOutcome (t : Tables) (a : Ledger) (s : Session) (actualQuota : ℤ) :
    Session × Except String Unit → Ledger → Prop
  | again : s.settled = true → SettleOutcome t a s actualQuota (s, .ok ()) a
  | even : s.settled = false → actualQuota = s.preConsumedQuota →
      SettleOutcome t a s actualQuota ({ s with settled := true }, .ok ()) a
  | refused (e : String) : s.settled = false → SettleOutcome t a s actualQuota (s, .error e) a
  | moved {a' : Ledger} : s.settled = false → actualQuota ≠ s.preConsumedQuota →
      Taken t (actualQuota - s.preConsumedQuota) a s.funding a' →
      SettleOutcome t a s actualQuota
        ({ s with fundingSettled := true }.closed (actualQuota - s.preConsumedQuota), .ok ())
        (tokenCharged s.relayInfo (actualQuota - s.preConsumedQuota) a')

theorem always_settle (hwrites : ¬ fails .ordinary) (ha : a.subs = idle t)
    (hs : s.settled = false → s.fundingSettled = false) (actualQuota : ℤ) :
    always (effects fails) (s.settle cfg c actualQuota) (SettleOutcome t a s actualQuota) a := by
  unfold Session.settle
  by_cases hdone : s.settled = true
  · rw [if_pos hdone]
    exact .again hdone
  have hopen : s.settled = false := by simpa using hdone
  rw [if_neg hdone]
  by_cases hd : actualQuota - s.preConsumedQuota = 0
  · rw [if_pos hd]
    exact .even hopen (by omega)
  rw [if_neg hd, hs hopen]
  refine always_seq (always_funding_settle s.funding ha hd) ?_
  rintro (e | r) a' h
  · obtain rfl : a' = a := h
    exact .refused e hopen
  apply always_seq (always_settleToken _)
  rintro r b (⟨rfl, rfl⟩ | ⟨hfail, -⟩)
  · exact .moved hopen (by omega) h
  · exact (hwrites hfail).elim

theorem always_settle_ok (hwrites : ¬ fails .ordinary) (ha : a.subs = idle t)
    (hs : s.fundingSettled = false) {actualQuota : ℤ} (haccept : ∀ f, s.funding = .subscription f →
      (postConsume t f.subscriptionId (actualQuota - s.preConsumedQuota)).1 = .ok ()) :
    always (effects fails) (s.settle cfg c actualQuota) (fun p _ => p.2 = .ok ()) a := by
  unfold Session.settle
  by_cases hdone : s.settled = true
  · rw [if_pos hdone]
    exact rfl
  rw [if_neg hdone]
  by_cases hd : actualQuota - s.preConsumedQuota = 0
  · rw [if_pos hd]
    exact rfl
  rw [if_neg hd, hs]
  have hfunded : always (effects fails)
      (s.funding.settle cfg c (actualQuota - s.preConsumedQuota)) (fun r _ => r = .ok ()) a := by
    cases hf : s.funding with
    | wallet w =>
      unfold FundingSource.settle
      dsimp only
      rw [if_neg hd]
      split
      next hpos =>
        apply always_mono (always_decreaseUserQuota .ordinary w.userId (le_of_lt hpos) false)
        exact fun r a' h => h.elim (fun h => h.1) (fun h => (hwrites h.1).elim)
      · apply always_mono (always_increaseUserQuota .ordinary w.userId (by omega) false)
        exact fun r a' h => h.elim (fun h => h.1) (fun h => (hwrites h.1).elim)
    | subscription f =>
      unfold FundingSource.settle
      dsimp only
      rw [if_neg hd]
      apply always_mono (always_postConsume_unfailing hwrites ha f.subscriptionId _)
      exact fun r a' h => h.1.trans (haccept f hf)
  refine always_seq hfunded ?_
  rintro r a' rfl
  apply always_seq (always_settleToken _)
  exact fun r b h => h.elim (fun h => h.1) (fun h => (hwrites h.1).elim)

end Settle

section Refund

variable {s : Session} {t : Tables}

theorem always_refundToken (hwrites : ¬ fails .ordinary) (htoken : 0 ≤ s.tokenConsumed) :
    always (effects fails) (s.refundToken cfg)
      (fun _ a' => a' = tokenCharged s.relayInfo (-s.tokenConsumed) a) a := by
  unfold Session.refundToken tokenCharged
  by_cases hp : s.relayInfo.isPlayground = true
  · rw [if_neg (by simp [hp]), if_pos hp]
    rfl
  rw [if_neg hp, neg_neg]
  by_cases hzero : s.tokenConsumed = 0
  · rw [if_neg (by omega), hzero, addToken_zero]
    rfl
  · rw [if_pos ⟨by omega, by simpa using hp⟩]
    apply always_mono (always_increaseTokenQuota .ordinary _ _ htoken)
    rintro r a' (⟨-, rfl⟩ | ⟨hfail, -⟩)
    · rfl
    · exact (hwrites hfail).elim

theorem always_refundClosure_wallet (hwrites : ¬ fails .ordinary) {w : WalletFunding}
    (hf : s.funding = .wallet w) (hw : 0 ≤ w.consumed) (htoken : 0 ≤ s.tokenConsumed) :
    always (effects fails) (s.refundClosure cfg c)
      (fun _ a' => a' = tokenCharged s.relayInfo (-s.tokenConsumed)
        (a.addWallet w.userId w.consumed)) a := by
  apply always_bind.mpr
  have hrefund : always (effects fails) (s.funding.refund cfg c)
      (fun _ a' => a' = a.addWallet w.userId w.consumed) a := by
    rw [hf]
    unfold FundingSource.refund
    dsimp only
    split
    · rw [show w.consumed = 0 by omega, addWallet_zero]
      rfl
    · apply always_mono (always_increaseUserQuota .ordinary w.userId hw false)
      rintro r a' (⟨-, rfl⟩ | ⟨hfail, -⟩)
      · rfl
      · exact (hwrites hfail).elim
  apply always_mono hrefund
  rintro r a' rfl
  apply always_bind.mpr
  rw [Session.refundExtra, if_neg (by simp [hf, FundingSource.source])]
  apply always_bind.mpr
  exact always_mono (always_refundToken hwrites htoken) fun _ _ h => h

theorem always_refundClosure_subscription (hwrites : ¬ fails .ordinary) {f : SubscriptionFunding}
    (hf : s.funding = .subscription f) (ha : a.subs = idle t) (hpre : 0 < f.preConsumed)
    (hrefund : (refund t f.requestId).1 = .ok ()) (hid : 0 < s.relayInfo.subscriptionId)
    (hextra : 0 ≤ s.extraReserved) (htoken : 0 ≤ s.tokenConsumed) :
    always (effects fails) (s.refundClosure cfg c)
      (fun _ a' => a' = { tokenCharged s.relayInfo (-s.tokenConsumed) a with
        subs := idle (postConsume (refund t f.requestId).2 s.relayInfo.subscriptionId
          (-s.extraReserved)).2 }) a := by
  apply always_bind.mpr
  have hfirst : always (effects fails) (s.funding.refund cfg c)
      (fun _ a' => a' = { a with subs := idle (refund t f.requestId).2 }) a := by
    rw [hf]
    unfold FundingSource.refund
    dsimp only
    rw [if_neg (by omega)]
    apply always_onStore
    apply always_of_wp_unfailing (fun _ => hwrites)
    rw [ha]
    intro r db hr
    rw [maxAttempts, refundWithRetry, run_bind, run_refund, hrefund] at hr
    cases hr
    rfl
  apply always_mono hfirst
  rintro r a' rfl
  apply always_bind.mpr
  have hsecond : always (effects fails) (s.refundExtra c)
      (fun _ a' => a' = { a with subs := idle (postConsume (refund t f.requestId).2
        s.relayInfo.subscriptionId (-s.extraReserved)).2 })
      { a with subs := idle (refund t f.requestId).2 } := by
    unfold Session.refundExtra
    by_cases hzero : s.extraReserved = 0
    · rw [if_neg (by omega), hzero, postConsume, if_neg (by omega), if_pos (by omega)]
      rfl
    · rw [if_pos ⟨by omega, by rw [hf]; rfl, hid⟩]
      apply always_mono (always_postConsume_unfailing hwrites rfl _ _)
      rintro r a' ⟨-, rfl⟩
      rfl
  apply always_mono hsecond
  rintro r a' rfl
  refine always_seq (always_refundToken hwrites htoken) ?_
  rintro r a' rfl
  unfold tokenCharged
  split <;> rfl

end Refund

end Calls

end BillingEffects
