import TinyToken.BillingCharges
import TinyToken.BillingLifecycle

/-! Billing of a realtime websocket session. The upstream reports usage while the session
runs; `PreWssConsumeQuota` charges each increment at once, past the billing session, and
`PostWssConsumeQuota` settles the session with a quota computed from the sum. -/
namespace RealtimeBilling

open GoText ProgramSteps ProgramOutcomes ReadCommittedStore Db SubscriptionRows BillingStore
  BillingAccounts BillingSession BillingEffects BillingCharges BillingLifecycle List Option

structure TokenDetails where
  textTokens : ℤ
  audioTokens : ℤ

def TokenDetails.add (x y : TokenDetails) : TokenDetails :=
  ⟨x.textTokens + y.textTokens, x.audioTokens + y.audioTokens⟩

structure QuotaInfo where
  inputDetails : TokenDetails
  outputDetails : TokenDetails
  modelName : String
  usePrice : Bool
  modelPrice : ℚ
  modelRatio : ℚ
  groupRatio : ℚ

/-- The tables of `ratio_setting`, by model and by group. -/
structure RatioSetting where
  completionRatio : String → ℚ
  audioRatio : String → ℚ
  audioCompletionRatio : String → ℚ
  modelRatio : String → ℚ
  groupRatio : String → ℚ
  groupGroupRatio : String → String → Option ℚ
  quotaPerUnit : ℚ

/-- `IntPart`, towards zero. -/
def intPart (x : ℚ) : ℤ := if 0 ≤ x then x.floor else x.ceil

/-- `Round(0)`, halves away from zero. -/
def round (x : ℚ) : ℤ := if 0 ≤ x then (x + 1 / 2).floor else (x - 1 / 2).ceil

variable (cfg : Config) (c : Context) (rs : RatioSetting) (req : RealtimeRequest)

def weightedTokens (info : QuotaInfo) : ℚ :=
  info.inputDetails.textTokens
    + info.outputDetails.textTokens * rs.completionRatio info.modelName
    + info.inputDetails.audioTokens * rs.audioRatio info.modelName
    + info.outputDetails.audioTokens * rs.audioRatio info.modelName *
        rs.audioCompletionRatio info.modelName

def calculateAudioQuota (info : QuotaInfo) : ℤ :=
  if info.usePrice then intPart (info.modelPrice * rs.quotaPerUnit * info.groupRatio)
  else
    let ratio := info.groupRatio * info.modelRatio
    let quota := weightedTokens rs info * ratio
    if ratio ≠ 0 ∧ quota ≤ 0 then round 1 else round quota

structure RealtimeUsage where
  totalTokens : ℤ
  inputTokens : ℤ
  outputTokens : ℤ
  inputTokenDetails : TokenDetails
  outputTokenDetails : TokenDetails

namespace RealtimeUsage

def zero : RealtimeUsage := ⟨0, 0, 0, ⟨0, 0⟩, ⟨0, 0⟩⟩

def add (x y : RealtimeUsage) : RealtimeUsage where
  totalTokens := x.totalTokens + y.totalTokens
  inputTokens := x.inputTokens + y.inputTokens
  outputTokens := x.outputTokens + y.outputTokens
  inputTokenDetails := x.inputTokenDetails.add y.inputTokenDetails
  outputTokenDetails := x.outputTokenDetails.add y.outputTokenDetails

def addInput (x : RealtimeUsage) (d : TokenDetails) : RealtimeUsage :=
  { x with
    totalTokens := x.totalTokens + (d.textTokens + d.audioTokens)
    inputTokens := x.inputTokens + (d.textTokens + d.audioTokens)
    inputTokenDetails := x.inputTokenDetails.add d }

def addOutput (x : RealtimeUsage) (d : TokenDetails) : RealtimeUsage :=
  { x with
    totalTokens := x.totalTokens + (d.textTokens + d.audioTokens)
    outputTokens := x.outputTokens + (d.textTokens + d.audioTokens)
    outputTokenDetails := x.outputTokenDetails.add d }

end RealtimeUsage

structure PriceData where
  modelRatio : ℚ
  groupRatio : ℚ
  modelPrice : ℚ
  usePrice : Bool

/-- What the prices of a request depend on. `tieredSettle` is `TryTieredSettle` on the input
and output tokens. -/
structure RealtimeRequest where
  originModelName : String
  upstreamModelName : String
  usingGroup : String
  userGroup : String
  autoGroup : Option String
  usePrice : Bool
  priceData : PriceData
  tieredSettle : ℤ → ℤ → Option ℤ

/-- The group ratio `PreWssConsumeQuota` looks up. -/
def actualGroupRatio : ℚ :=
  let usingGroup := req.autoGroup.getD req.usingGroup
  (rs.groupGroupRatio req.userGroup usingGroup).getD (rs.groupRatio usingGroup)

variable (st : RealtimeState) (usage : RealtimeUsage)

def incrementInfo : QuotaInfo where
  inputDetails := usage.inputTokenDetails
  outputDetails := usage.outputTokenDetails
  modelName := req.originModelName
  usePrice := req.usePrice
  modelPrice := 0
  modelRatio := rs.modelRatio req.originModelName
  groupRatio := actualGroupRatio rs req

def incrementQuota : ℤ :=
  calculateAudioQuota rs (incrementInfo rs req usage)

def preWssConsumeQuota (info : RelayInfo) (usage : RealtimeUsage) :
    BillProg (RelayInfo × Except String Unit) :=
  if req.usePrice then pure (info, .ok ())
  else do
    match ← getUserQuota cfg info.userId false with
    | .error e => pure (info, .error e)
    | .ok userQuota =>
      match ← getTokenByKey cfg (trimLead info.tokenKey "sk-") false with
      | .error e => pure (info, .error e)
      | .ok remain =>
        let quota := incrementQuota rs req usage
        if userQuota < quota then
          pure (info, .error s!"user quota is not enough, user quota: {cfg.formatQuota userQuota}, need quota: {cfg.formatQuota quota}")
        else if info.tokenUnlimited = false ∧ remain < quota then
          pure (info, .error s!"token quota is not enough, token remain quota: {cfg.formatQuota remain}, need quota: {cfg.formatQuota quota}")
        else postConsumeQuota cfg c info quota

/-- `usage` collects what the upstream reports, `localUsage` what the relay counts. -/
structure RealtimeState where
  session : Session
  usage : RealtimeUsage
  localUsage : RealtimeUsage
  sumUsage : RealtimeUsage

def preConsumeUsage :
    BillProg (RealtimeState × Except String Unit) := do
  let (info, r) ← preWssConsumeQuota cfg c rs req st.session.relayInfo usage
  pure ({ st with
    session := { st.session with relayInfo := info }
    sumUsage := st.sumUsage.add usage }, r)

/-- A message of either side, with what `CountTokenRealtime` makes of it. -/
inductive RealtimeEvent where
  | fromClient (count : Except String TokenDetails)
  | responseDone (reported : Option RealtimeUsage) (count : Except String TokenDetails)
  | sessionUpdated
  | fromTarget (count : Except String TokenDetails)

def handleEvent : RealtimeEvent → BillProg (RealtimeState × Bool)
  | .fromClient (.error _) => pure (st, false)
  | .fromClient (.ok d) => pure ({ st with localUsage := st.localUsage.addInput d }, true)
  | .responseDone (some reported) _ => do
    let st := { st with usage := st.usage.add reported }
    match ← preConsumeUsage cfg c rs req st st.usage with
    | (st, .error _) => pure (st, false)
    | (st, .ok _) => pure ({ st with usage := .zero, localUsage := .zero }, true)
  | .responseDone none (.error _) => pure (st, false)
  | .responseDone none (.ok d) => do
    let st := { st with localUsage := st.localUsage.addInput d }
    match ← preConsumeUsage cfg c rs req st st.localUsage with
    | (st, .error _) => pure (st, false)
    | (st, .ok _) => pure ({ st with localUsage := .zero }, true)
  | .sessionUpdated => pure (st, true)
  | .fromTarget (.error _) => pure (st, false)
  | .fromTarget (.ok d) => pure ({ st with localUsage := st.localUsage.addOutput d }, true)

/-- The messages in the order they are taken, until a connection closes or fails. -/
def readMessages (cfg : Config) (c : Context) (rs : RatioSetting) (req : RealtimeRequest) :
    List RealtimeEvent → RealtimeState → BillProg RealtimeState
  | [], st => pure st
  | e :: es, st => do
    match ← handleEvent cfg c rs req st e with
    | (st, true) => readMessages cfg c rs req es st
    | (st, false) => pure st

def consumeUsage : BillProg RealtimeState :=
  if usage.totalTokens = 0 then pure st
  else do
    let (st, _) ← preConsumeUsage cfg c rs req st usage
    pure st

def openaiRealtimeHandler (session : Session) (events : List RealtimeEvent) :
    BillProg RealtimeState := do
  let st ← readMessages cfg c rs req events ⟨session, .zero, .zero, .zero⟩
  let st ← consumeUsage cfg c rs req st st.usage
  consumeUsage cfg c rs req st st.localUsage

def sumInfo : QuotaInfo where
  inputDetails := usage.inputTokenDetails
  outputDetails := usage.outputTokenDetails
  modelName := req.upstreamModelName
  usePrice := req.priceData.usePrice
  modelPrice := req.priceData.modelPrice
  modelRatio := req.priceData.modelRatio
  groupRatio := req.priceData.groupRatio

def sessionQuota : ℤ :=
  if usage.totalTokens = 0 then 0
  else (req.tieredSettle usage.inputTokens usage.outputTokens).getD
    (calculateAudioQuota rs (sumInfo req usage))

/-- Returns the quota of the consume log. A failed settlement is logged only. -/
def postWssConsumeQuota (session : Session) (usage : RealtimeUsage) : BillProg ℤ := do
  let quota := sessionQuota rs req usage
  let _ ← settleBilling cfg c session.relayInfo (some session) quota
  pure quota

def realtimeRelay (info : RelayInfo) (preConsumedQuota : ℤ) (events : List RealtimeEvent) :
    BillProg (Except NewAPIError (Session × ℤ)) := do
  match ← preConsumeBilling cfg c preConsumedQuota info with
  | .error e => pure (.error e)
  | .ok session =>
    let st ← openaiRealtimeHandler cfg c rs req session events
    let quota ← postWssConsumeQuota cfg c rs req st.session st.sumUsage
    pure (.ok (session, quota))

section Effects

variable {fails : Purpose → Prop} {cfg : Config} {c : Context} {rs : RatioSetting}
  {req : RealtimeRequest} {session : Session} {a a' : Ledger}

section

variable (hwrites : ¬ fails .ordinary)
include hwrites

/-- The session is as it was, and beyond its advance the increments `paid` have been
charged. -/
def IncrementsPaid (rs : RatioSetting) (req : RealtimeRequest) (session : Session) (a : Ledger)
    (st : RealtimeState) (a' : Ledger) : Prop :=
  st.session = session ∧ ∃ paid : List RealtimeUsage,
    a' = charged session.relayInfo (paid.map (incrementQuota rs req)).sum a ∧
    (req.usePrice = true → paid = [])

variable (hsource : session.relayInfo.billingSource ≠ .subscription)
include hsource

end

end Effects

def incrementRatio : ℚ :=
  actualGroupRatio rs req * rs.modelRatio req.originModelName

/-- One quota unit for each text token, where the group pays `ratio` for an increment. -/
def flatRates (ratio : ℚ) : RatioSetting where
  completionRatio _ := 1
  audioRatio _ := 1
  audioCompletionRatio _ := 1
  modelRatio _ := 1
  groupRatio _ := ratio
  groupGroupRatio _ _ := none
  quotaPerUnit := 500000

def flatRequest : RealtimeRequest where
  originModelName := "realtime"
  upstreamModelName := "realtime"
  usingGroup := "default"
  userGroup := "default"
  autoGroup := none
  usePrice := false
  priceData := ⟨1, 1, 0, false⟩
  tieredSettle _ _ := none

def oneResponse (ratio : ℚ) : BillProg (Except NewAPIError (Session × ℤ)) :=
  realtimeRelay plainConfig plainContext (flatRates ratio) flatRequest (plainInfo "wallet_only") 50
    [.responseDone (some ⟨100, 100, 0, ⟨100, 0⟩, ⟨0, 0⟩⟩) (.ok ⟨0, 0⟩)]

def wealthyWorld : World := plainWorld 1000 1000 .empty

/-- What a run reports and leaves: the source, the logged quota, the wallet and the token. -/
def observed (r : Except NewAPIError (Session × ℤ)) (w : World) :
    Option (BillingSource × ℤ × Option ℤ × Option TokenQuota) :=
  match r with
  | .ok (session, logged) =>
    some (session.funding.source, logged, w.ledger.wallet 1, w.ledger.token 7)
  | .error _ => none

end RealtimeBilling
