import TinyToken.BillingEffects

/-! The charges of `service/billing.go` and `service/quota.go` around a session: its creation
for a request, the settlement of the request, and the direct charge `PostConsumeQuota` that
goes past the session. -/
namespace BillingCharges

open ProgramOutcomes ReadCommittedStore SubscriptionTransactions BillingStore BillingAccounts
  BillingSession BillingEffects

variable (cfg : Config) (c : Context)

variable (info : RelayInfo)

def takeUserQuota (quota : ℤ) : BillProg (Except String Unit) :=
  if quota > 0 then decreaseUserQuota cfg .ordinary info.userId quota false
  else increaseUserQuota cfg .ordinary info.userId (-quota) false

def takeTokenQuota (quota : ℤ) : BillProg (Except String Unit) :=
  if quota > 0 then decreaseTokenQuota cfg .ordinary info.tokenId info.tokenKey quota
  else increaseTokenQuota cfg .ordinary info.tokenId info.tokenKey (-quota)

def consumeFunding (quota : ℤ) : BillProg (RelayInfo × Except String Unit) :=
  if info.billingSource = .subscription then
    if info.subscriptionId = 0 then pure (info, .error "subscription id is missing")
    else if quota = 0 then pure (info, .ok ())
    else do
      match ← onStore .ordinary (postConsumeUserSubscriptionDelta c.tx info.subscriptionId quota) with
      | .error e => pure (info, .error e)
      | .ok _ =>
        pure ({ info with subscriptionPostDelta := info.subscriptionPostDelta + quota }, .ok ())
  else do
    let r ← takeUserQuota cfg info quota
    pure (info, r)

/-- `PostConsumeQuota`; the notification mail is left out. -/
def postConsumeQuota (quota : ℤ) :
    BillProg (RelayInfo × Except String Unit) := do
  match ← consumeFunding cfg c info quota with
  | (info, .error e) => pure (info, .error e)
  | (info, .ok _) =>
    if info.isPlayground then pure (info, .ok ())
    else do
      let r ← takeTokenQuota cfg info quota
      pure (info, r)

/-- The session is kept in `relayInfo.Billing`. -/
def preConsumeBilling (preConsumedQuota : ℤ) (info : RelayInfo) :
    BillProg (Except NewAPIError Session) := do
  match ← newBillingSession cfg c info preConsumedQuota with
  | (_, .error e) => pure (.error e)
  | (_, .ok session) => pure (.ok session)

def settleBilling (billing : Option Session) (actualQuota : ℤ) :
    BillProg (RelayInfo × Option Session × Except String Unit) :=
  match billing with
  | some session => do
    let (session, r) ← session.settle cfg c actualQuota
    pure (session.relayInfo, some session, r)
  | none =>
    if actualQuota - info.finalPreConsumedQuota = 0 then pure (info, none, .ok ())
    else do
      let (info, r) ← postConsumeQuota cfg c info (actualQuota - info.finalPreConsumedQuota)
      pure (info, none, r)

/-- The ledger after a charge to the wallet and to the token of the request alike. -/
def charged (quota : ℤ) (a : Ledger) : Ledger :=
  tokenCharged info quota (a.addWallet info.userId (-quota))

section Charged

variable (info : RelayInfo) (a : Ledger)

@[simp] theorem charged_zero : charged info 0 a = a := by simp [charged]

end Charged

section Effects

variable {fails : Purpose → Prop} {cfg : Config} {c : Context} {info : RelayInfo} {a : Ledger}

theorem always_takeUserQuota (quota : ℤ) : always (effects fails) (takeUserQuota cfg info quota)
    (Changes (fails .ordinary) a (a.addWallet info.userId (-quota))) a := by
  unfold takeUserQuota
  split
  next hpos =>
    exact always_decreaseUserQuota .ordinary info.userId (le_of_lt hpos) false
  · exact always_increaseUserQuota .ordinary info.userId (by omega) false

theorem always_takeTokenQuota (quota : ℤ) : always (effects fails) (takeTokenQuota cfg info quota)
    (Changes (fails .ordinary) a (a.addToken info.tokenId (-quota))) a := by
  unfold takeTokenQuota
  split
  next hpos =>
    exact always_decreaseTokenQuota .ordinary info.tokenId info.tokenKey (le_of_lt hpos)
  · exact always_increaseTokenQuota .ordinary info.tokenId info.tokenKey (by omega)

theorem always_postConsumeQuota (hwrites : ¬ fails .ordinary)
    (hsource : info.billingSource ≠ .subscription) (quota : ℤ) :
    always (effects fails) (postConsumeQuota cfg c info quota)
      (fun r a' => r = (info, .ok ()) ∧ a' = charged info quota a) a := by
  unfold postConsumeQuota consumeFunding charged tokenCharged
  rw [if_neg hsource]
  apply always_bind.mpr
  apply always_seq (always_takeUserQuota quota)
  rintro r b (⟨rfl, rfl⟩ | ⟨hfail, -⟩)
  · rw [always_pure]
    dsimp only
    split
    · exact ⟨rfl, rfl⟩
    · apply always_seq (always_takeTokenQuota quota)
      rintro r b (⟨rfl, rfl⟩ | ⟨hfail, -⟩)
      · exact ⟨rfl, rfl⟩
      · exact (hwrites hfail).elim
  · exact (hwrites hfail).elim

end Effects

end BillingCharges
