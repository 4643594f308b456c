import TinyToken.BillingAccounts

/-! The billing session of `service/billing_session.go`: one request is charged in advance
to its token and to a funding source, the wallet or a subscription, then possibly charged
further, and settled or refunded. -/
namespace BillingSession

open GoText ProgramSteps ReadCommittedStore SubscriptionRows SubscriptionTransactions
  BillingStore BillingAccounts

inductive BillingSource where
  | unset | wallet | subscription
  deriving DecidableEq

/-- The fields of `RelayInfo` that billing reads or writes. -/
structure RelayInfo where
  requestId : String
  userId : ℤ
  tokenId : ℤ
  tokenKey : String
  tokenUnlimited : Bool
  isPlayground : Bool
  forcePreConsume : Bool
  billingPreference : String
  userQuota : ℤ
  finalPreConsumedQuota : ℤ
  billingSource : BillingSource
  subscriptionId : ℤ
  subscriptionPreConsumed : ℤ
  subscriptionPostDelta : ℤ
  subscriptionAmountTotal : ℤ
  subscriptionAmountUsedAfterPreConsume : ℤ
  subscriptionPlanId : ℤ
  subscriptionPlanTitle : String

/-- What a call takes from its surroundings: `token_quota` of the request context, the
times it reads, and the connections its transactions run on. -/
structure Context where
  tokenQuota : ℤ
  checkedAt : ℤ
  chargedAt : ℤ
  tx : TxId
  inner : TxId

inductive ErrorCode where
  | insufficientUserQuota | preConsumeTokenQuotaFailed | updateDataError | queryDataError
  deriving DecidableEq

structure NewAPIError where
  message : String
  errorCode : ErrorCode
  statusCode : ℕ

/-- `types.NewError`. -/
def newError (message : String) (errorCode : ErrorCode) : NewAPIError := ⟨message, errorCode, 500⟩

/-- `types.NewErrorWithStatusCode` with `http.StatusForbidden`. -/
def forbidden (message : String) (errorCode : ErrorCode) : NewAPIError := ⟨message, errorCode, 403⟩

def plainInfo (billingPreference : String) : RelayInfo where
  requestId := "req"
  userId := 1
  tokenId := 7
  tokenKey := "key"
  tokenUnlimited := false
  isPlayground := false
  forcePreConsume := false
  billingPreference := billingPreference
  userQuota := 0
  finalPreConsumedQuota := 0
  billingSource := .unset
  subscriptionId := 0
  subscriptionPreConsumed := 0
  subscriptionPostDelta := 0
  subscriptionAmountTotal := 0
  subscriptionAmountUsedAfterPreConsume := 0
  subscriptionPlanId := 0
  subscriptionPlanTitle := ""

def plainConfig : Config where
  redisEnabled := false
  batchUpdateEnabled := false
  trustQuota := 0
  formatQuota := fun quota => toString quota
  clock := ⟨0, 10⟩

def plainContext : Context := ⟨0, 10, 10, 1, 2⟩

variable (cfg : Config) (c : Context)

def preConsumeTokenQuota (info : RelayInfo) (quota : ℤ) : BillProg (Except String Unit) :=
  if quota < 0 then pure (.error "quota 不能为负数！")
  else if info.isPlayground then pure (.ok ())
  else do
    match ← getTokenByKey cfg info.tokenKey false with
    | .error e => pure (.error e)
    | .ok remain =>
      if info.tokenUnlimited = false ∧ remain < quota then
        pure (.error s!"token quota is not enough, token remain quota: {cfg.formatQuota remain}, need quota: {cfg.formatQuota quota}")
      else decreaseTokenQuota cfg .ordinary info.tokenId info.tokenKey quota

def hasActiveUserSubscription (userId : ℤ) : BillProg (Except String Bool) :=
  if userId ≤ 0 then pure (.error "invalid userId")
  else do
    match ← onStore .ordinary (countActive c.tx userId c.checkedAt) with
    | .error e => pure (.error e)
    | .ok count => pure (.ok (0 < count))

def getSubscriptionPlanInfoByUserSubscriptionId (id : ℤ) :
    BillProg (Except String SubscriptionPlanInfo) :=
  if id ≤ 0 then pure (.error "invalid userSubscriptionId")
  else do
    match ← cachedPlanInfo id with
    | some cached => pure (.ok cached)
    | none =>
      match ← onStore .ordinary (selectSub c.tx id) with
      | .error e => pure (.error e)
      | .ok none => pure (.error "record not found")
      | .ok (some sub) =>
        match ← onStore .ordinary (getSubscriptionPlanByIdTx c.tx sub.planId) with
        | .error e => pure (.error e)
        | .ok plan =>
          cachePlanInfo id ⟨sub.planId, plan.title⟩
          pure (.ok ⟨sub.planId, plan.title⟩)

structure WalletFunding where
  userId : ℤ
  consumed : ℤ

structure SubscriptionFunding where
  requestId : String
  userId : ℤ
  amount : ℤ
  subscriptionId : ℤ
  preConsumed : ℤ
  amountTotal : ℤ
  amountUsedAfter : ℤ
  planId : ℤ
  planTitle : String

inductive FundingSource where
  | wallet (w : WalletFunding)
  | subscription (s : SubscriptionFunding)

def FundingSource.source : FundingSource → BillingSource
  | .wallet _ => .wallet
  | .subscription _ => .subscription

def WalletFunding.preConsume (w : WalletFunding) (amount : ℤ) :
    BillProg (Except String WalletFunding) :=
  if amount ≤ 0 then pure (.ok w)
  else do
    match ← decreaseUserQuota cfg .ordinary w.userId amount false with
    | .error e => pure (.error e)
    | .ok _ => pure (.ok { w with consumed := amount })

variable (s : SubscriptionFunding) (relayInfo : RelayInfo)

def SubscriptionFunding.call : PreConsumeCall where
  requestId := s.requestId
  userId := s.userId
  amount := s.amount
  now := c.chargedAt

def SubscriptionFunding.charged (res : SubscriptionPreConsumeResult) :
    SubscriptionFunding :=
  { s with
    subscriptionId := res.userSubscriptionId
    preConsumed := res.preConsumed
    amountTotal := res.amountTotal
    amountUsedAfter := res.amountUsedAfter }

/-- The amount is the one the source was built with, whatever the caller passes. -/
def SubscriptionFunding.preConsume :
    BillProg (Except String SubscriptionFunding) := do
  match ← onStore .ordinary (preConsumeUserSubscription cfg.clock c.tx (s.call c)) with
  | .error e => pure (.error e)
  | .ok res =>
    match ← getSubscriptionPlanInfoByUserSubscriptionId c res.userSubscriptionId with
    | .error _ => pure (.ok (s.charged res))
    | .ok plan =>
      pure (.ok { s.charged res with planId := plan.planId, planTitle := plan.planTitle })

def FundingSource.preConsume (amount : ℤ) : FundingSource → BillProg (Except String FundingSource)
  | .wallet w => do
    match ← w.preConsume cfg amount with
    | .error e => pure (.error e)
    | .ok w => pure (.ok (.wallet w))
  | .subscription s => do
    match ← s.preConsume cfg c with
    | .error e => pure (.error e)
    | .ok s => pure (.ok (.subscription s))

def FundingSource.settle (delta : ℤ) : FundingSource → BillProg (Except String Unit)
  | .wallet w =>
    if delta = 0 then pure (.ok ())
    else if delta > 0 then decreaseUserQuota cfg .ordinary w.userId delta false
    else increaseUserQuota cfg .ordinary w.userId (-delta) false
  | .subscription s =>
    if delta = 0 then pure (.ok ())
    else onStore .ordinary (postConsumeUserSubscriptionDelta c.tx s.subscriptionId delta)

def FundingSource.refund : FundingSource → BillProg (Except String Unit)
  | .wallet w =>
    if w.consumed ≤ 0 then pure (.ok ())
    else increaseUserQuota cfg .ordinary w.userId w.consumed false
  | .subscription s =>
    if s.preConsumed ≤ 0 then pure (.ok ())
    else onStore .ordinary (refundWithRetry c.tx c.inner s.requestId (.ok ()) maxAttempts)

structure Session where
  relayInfo : RelayInfo
  funding : FundingSource
  preConsumedQuota : ℤ
  tokenConsumed : ℤ
  extraReserved : ℤ
  trusted : Bool
  fundingSettled : Bool
  settled : Bool
  refunded : Bool

namespace Session

def init (relayInfo : RelayInfo) (funding : FundingSource) : Session :=
  ⟨relayInfo, funding, 0, 0, 0, false, false, false, false⟩

variable (s : Session)

def shouldTrust : Bool :=
  if s.relayInfo.forcePreConsume then false
  else if cfg.trustQuota ≤ 0 then false
  else if s.relayInfo.tokenUnlimited = false ∧ ¬ c.tokenQuota > cfg.trustQuota then false
  else match s.funding with
    | .wallet _ => s.relayInfo.userQuota > cfg.trustQuota
    | .subscription _ => false

def syncRelayInfo : Session :=
  { s with
    relayInfo := match s.funding with
      | .wallet _ =>
        { s.relayInfo with
          finalPreConsumedQuota := s.preConsumedQuota
          billingSource := .wallet
          subscriptionId := 0
          subscriptionPreConsumed := 0 }
      | .subscription sub =>
        { s.relayInfo with
          finalPreConsumedQuota := s.preConsumedQuota
          billingSource := .subscription
          subscriptionId := sub.subscriptionId
          subscriptionPreConsumed := sub.preConsumed + s.extraReserved
          subscriptionPostDelta := 0
          subscriptionAmountTotal := sub.amountTotal
          subscriptionAmountUsedAfterPreConsume := sub.amountUsedAfter + s.extraReserved
          subscriptionPlanId := sub.planId
          subscriptionPlanTitle := sub.planTitle } }

def fundingError (errMsg : String) : NewAPIError :=
  if contains errMsg "no active subscription" ∨ contains errMsg "subscription quota insufficient" then
    forbidden ("订阅额度不足或未配置订阅: " ++ errMsg) .insufficientUserQuota
  else newError errMsg .updateDataError

/-- The token is charged before the funding source, and credited again if that fails. -/
def chargeFunding (effectiveQuota : ℤ) : BillProg (Except NewAPIError Session) := do
  match ← s.funding.preConsume cfg c effectiveQuota with
  | .error errMsg =>
    if s.tokenConsumed > 0 ∧ s.relayInfo.isPlayground = false then
      -- a failure of the roll back is logged only
      let _ ← increaseTokenQuota cfg .undo s.relayInfo.tokenId s.relayInfo.tokenKey s.tokenConsumed
      pure (.error (fundingError errMsg))
    else pure (.error (fundingError errMsg))
  | .ok funding =>
    pure (.ok { s with funding := funding, preConsumedQuota := effectiveQuota }.syncRelayInfo)

def preConsume (quota : ℤ) : BillProg (Except NewAPIError Session) :=
  let s := { s with trusted := s.trusted || s.shouldTrust cfg c }
  let effectiveQuota := if s.shouldTrust cfg c then 0 else quota
  if effectiveQuota > 0 then do
    match ← preConsumeTokenQuota cfg s.relayInfo effectiveQuota with
    | .error e => pure (.error (forbidden e .preConsumeTokenQuotaFailed))
    | .ok _ => chargeFunding cfg c { s with tokenConsumed := effectiveQuota } effectiveQuota
  else chargeFunding cfg c s effectiveQuota

def reserveFunding (delta : ℤ) : BillProg (Except NewAPIError Session) :=
  match s.funding with
  | .wallet w => do
    match ← decreaseUserQuota cfg .ordinary w.userId delta false with
    | .error e => pure (.error (newError e .updateDataError))
    | .ok _ => pure (.ok { s with funding := .wallet { w with consumed := w.consumed + delta } })
  | .subscription f => do
    match ← onStore .ordinary (postConsumeUserSubscriptionDelta c.tx f.subscriptionId delta) with
    | .error e =>
      pure (.error (forbidden ("订阅额度不足或未配置订阅: " ++ e) .insufficientUserQuota))
    | .ok _ => pure (.ok s)

def rollbackFundingReserve (delta : ℤ) : BillProg Session :=
  match s.funding with
  | .wallet w => do
    match ← increaseUserQuota cfg .undo w.userId delta false with
    | .error _ => pure s
    | .ok _ => pure { s with funding := .wallet { w with consumed := w.consumed - delta } }
  | .subscription f => do
    let _ ← onStore .undo (postConsumeUserSubscriptionDelta c.tx f.subscriptionId (-delta))
    pure s

def reserveToken (delta : ℤ) : BillProg (Except NewAPIError Unit) :=
  if delta ≤ 0 ∨ s.relayInfo.isPlayground then pure (.ok ())
  else do
    match ← preConsumeTokenQuota cfg s.relayInfo delta with
    | .error e => pure (.error (forbidden e .preConsumeTokenQuotaFailed))
    | .ok _ => pure (.ok ())

/-- The fields of a session that has been charged `delta` further. -/
def reserved (delta : ℤ) : Session :=
  { s with
    preConsumedQuota := s.preConsumedQuota + delta
    tokenConsumed := s.tokenConsumed + delta
    extraReserved := s.extraReserved + delta }.syncRelayInfo

def reserve (targetQuota : ℤ) : BillProg (Session × Except NewAPIError Unit) :=
  if s.settled ∨ s.refunded ∨ s.trusted ∨ targetQuota ≤ s.preConsumedQuota then pure (s, .ok ())
  else do
    let delta := targetQuota - s.preConsumedQuota
    match ← s.reserveFunding cfg c delta with
    | .error e => pure (s, .error e)
    | .ok s =>
      match ← s.reserveToken cfg delta with
      | .error e =>
        let s ← s.rollbackFundingReserve cfg c delta
        pure (s, .error e)
      | .ok _ => pure (s.reserved delta, .ok ())

def settleToken (delta : ℤ) : BillProg (Except String Unit) :=
  if s.relayInfo.isPlayground then pure (.ok ())
  else if delta > 0 then
    decreaseTokenQuota cfg .ordinary s.relayInfo.tokenId s.relayInfo.tokenKey delta
  else increaseTokenQuota cfg .ordinary s.relayInfo.tokenId s.relayInfo.tokenKey (-delta)

def closed (delta : ℤ) : Session :=
  match s.funding with
  | .wallet _ => { s with settled := true }
  | .subscription _ =>
    { s with
      relayInfo := { s.relayInfo with
        subscriptionPostDelta := s.relayInfo.subscriptionPostDelta + delta }
      settled := true }

/-- Neither `refunded` nor `trusted` is looked at. A failure on the token still settles. -/
def settle (actualQuota : ℤ) : BillProg (Session × Except String Unit) :=
  let delta := actualQuota - s.preConsumedQuota
  if s.settled then pure (s, .ok ())
  else if delta = 0 then pure ({ s with settled := true }, .ok ())
  else do
    let funded ← if s.fundingSettled then pure (.ok ()) else s.funding.settle cfg c delta
    match funded with
    | .error e => pure (s, .error e)
    | .ok _ =>
      let s := { s with fundingSettled := true }
      let tokenErr ← s.settleToken cfg delta
      pure (s.closed delta, tokenErr)

def needsRefundLocked : Bool :=
  if s.settled ∨ s.refunded ∨ s.fundingSettled then false
  else if s.tokenConsumed > 0 then true
  else match s.funding with
    | .wallet _ => false
    | .subscription f => f.preConsumed > 0

def refundExtra : BillProg (Except String Unit) :=
  if s.extraReserved > 0 ∧ s.funding.source = .subscription ∧ s.relayInfo.subscriptionId > 0 then
    onStore .ordinary
      (postConsumeUserSubscriptionDelta c.tx s.relayInfo.subscriptionId (-s.extraReserved))
  else pure (.ok ())

def refundToken : BillProg (Except String Unit) :=
  if s.tokenConsumed > 0 ∧ s.relayInfo.isPlayground = false then
    increaseTokenQuota cfg .ordinary s.relayInfo.tokenId s.relayInfo.tokenKey s.tokenConsumed
  else pure (.ok ())

def refundClosure : BillProg Unit := do
  let _ ← s.funding.refund cfg c
  let _ ← s.refundExtra c
  let _ ← s.refundToken cfg
  pure ()

/-- `Refund` with its goroutine run to the end. -/
def refund : BillProg Session :=
  if s.settled ∨ s.refunded ∨ s.needsRefundLocked = false then pure s
  else do
    s.refundClosure cfg c
    pure { s with refunded := true }

end Session

inductive BillingPreference where
  | subscriptionFirst | walletFirst | subscriptionOnly | walletOnly

def normalizeBillingPreference (pref : String) : BillingPreference :=
  if trimSpace pref = "wallet_first" then .walletFirst
  else if trimSpace pref = "subscription_only" then .subscriptionOnly
  else if trimSpace pref = "wallet_only" then .walletOnly
  else .subscriptionFirst

/-- The relay info is handed back with the user's quota, also when the charge fails. -/
def tryWallet (preConsumedQuota : ℤ) :
    BillProg (RelayInfo × Except NewAPIError Session) := do
  match ← getUserQuota cfg relayInfo.userId false with
  | .error e => pure (relayInfo, .error (newError e .queryDataError))
  | .ok userQuota =>
    if userQuota ≤ 0 then
      pure (relayInfo, .error (forbidden s!"เครดิตไม่เพียงพอ ยอดคงเหลือ: {cfg.formatQuota userQuota}"
        .insufficientUserQuota))
    else if userQuota - preConsumedQuota < 0 then
      pure (relayInfo, .error (forbidden
        s!"เครดิตไม่เพียงพอ ยอดคงเหลือ: {cfg.formatQuota userQuota}, ต้องใช้เครดิตล่วงหน้า: {cfg.formatQuota preConsumedQuota}"
        .insufficientUserQuota))
    else
      let relayInfo := { relayInfo with userQuota := userQuota }
      let session := Session.init relayInfo (.wallet ⟨relayInfo.userId, 0⟩)
      match ← session.preConsume cfg c preConsumedQuota with
      | .error e => pure (relayInfo, .error e)
      | .ok session => pure (session.relayInfo, .ok session)

def subConsume (preConsumedQuota : ℤ) : ℤ := if preConsumedQuota ≤ 0 then 1 else preConsumedQuota

def trySubscription (preConsumedQuota : ℤ) :
    BillProg (RelayInfo × Except NewAPIError Session) := do
  let session := Session.init relayInfo (.subscription
    ⟨relayInfo.requestId, relayInfo.userId, subConsume preConsumedQuota, 0, 0, 0, 0, 0, ""⟩)
  match ← session.preConsume cfg c (subConsume preConsumedQuota) with
  | .error e => pure (relayInfo, .error e)
  | .ok session => pure (session.relayInfo, .ok session)

def newBillingSession (preConsumedQuota : ℤ) :
    BillProg (RelayInfo × Except NewAPIError Session) :=
  match normalizeBillingPreference relayInfo.billingPreference with
  | .subscriptionOnly => trySubscription cfg c relayInfo preConsumedQuota
  | .walletOnly => tryWallet cfg c relayInfo preConsumedQuota
  | .walletFirst => do
    match ← tryWallet cfg c relayInfo preConsumedQuota with
    | (relayInfo, .error e) =>
      if e.errorCode = .insufficientUserQuota then trySubscription cfg c relayInfo preConsumedQuota
      else pure (relayInfo, .error e)
    | (relayInfo, .ok session) => pure (relayInfo, .ok session)
  | .subscriptionFirst => do
    match ← hasActiveUserSubscription c relayInfo.userId with
    | .error e => pure (relayInfo, .error (newError e .queryDataError))
    | .ok false => tryWallet cfg c relayInfo preConsumedQuota
    | .ok true =>
      match ← trySubscription cfg c relayInfo preConsumedQuota with
      | (relayInfo, .error e) =>
        if e.errorCode = .insufficientUserQuota then tryWallet cfg c relayInfo preConsumedQuota
        else pure (relayInfo, .error e)
      | (relayInfo, .ok session) => pure (relayInfo, .ok session)

end BillingSession
