import TinyToken.RealtimeBilling

/-! The bill of an asynchronous task: the charge when it is submitted, which may be tried on
several channels, the difference taken when it has finished, and the refund of the quota in
its row. -/
namespace TaskBilling

open ProgramSteps ProgramOutcomes ReadCommittedStore Db KeyedTable SubscriptionRows
  SubscriptionTransactions SubscriptionEffects SubscriptionAlone BillingStore BillingAccounts
  BillingSession BillingEffects BillingCharges BillingLifecycle Option

structure TaskError where
  code : String
  message : String
  statusCode : ℕ
  localError : Bool

def errorCodeText : ErrorCode → String
  | .insufficientUserQuota => "insufficient_user_quota"
  | .preConsumeTokenQuotaFailed => "pre_consume_token_quota_failed"
  | .updateDataError => "update_data_error"
  | .queryDataError => "query_data_error"

def taskErrorFromAPIError (e : NewAPIError) : TaskError :=
  ⟨errorCodeText e.errorCode, e.message, e.statusCode, false⟩

structure TaskRequest where
  requestId : String
  userId : ℤ
  tokenId : ℤ
  tokenKey : String
  tokenUnlimited : Bool
  billingPreference : String
  userQuota : ℤ
  usingGroup : String

def genRelayInfo (req : TaskRequest) : RelayInfo where
  requestId := req.requestId
  userId := req.userId
  tokenId := req.tokenId
  tokenKey := req.tokenKey
  tokenUnlimited := req.tokenUnlimited
  isPlayground := false
  forcePreConsume := false
  billingPreference := req.billingPreference
  userQuota := req.userQuota
  finalPreConsumedQuota := 0
  billingSource := .unset
  subscriptionId := 0
  subscriptionPreConsumed := 0
  subscriptionPostDelta := 0
  subscriptionAmountTotal := 0
  subscriptionAmountUsedAfterPreConsume := 0
  subscriptionPlanId := 0
  subscriptionPlanTitle := ""

/-- What one channel makes of the request: an error before there is a price, the price with
its ratios in the order they are read, an error of the upstream request, and the ratios that
upstream has used instead. -/
structure Submission where
  refused : Option TaskError
  modelName : String
  quota : ℤ
  freeModel : Bool
  usePrice : Bool
  otherRatios : List ℚ
  failed : Option TaskError
  adjustedRatios : List ℚ

inductive Attempt where
  | noChannel (e : TaskError)
  | submit (s : Submission)

structure RelaySettings where
  retryTimes : ℕ
  skipRetryAfterAffinity : Bool
  specificChannel : Bool
  alwaysSkipRetry : ℕ → Bool
  taskPricePatches : List String

def applyRatios (quota : ℤ) (ratios : List ℚ) : ℤ :=
  ratios.foldl (fun q ra => if ra ≠ 1 then RealtimeBilling.intPart (q * ra) else q) quota

variable (cfg : Config) (c : Context) (r : RelaySettings)

def Submission.price (s : Submission) : ℤ :=
  if s.modelName ∈ r.taskPricePatches then s.quota else applyRatios s.quota s.otherRatios

/-- The old ratios are divided out one by one, the new ones applied together. -/
def recalcQuotaFromRatios (quota : ℤ) (old new : List ℚ) : ℤ :=
  let base := old.foldl
    (fun q ra => if ra ≠ 1 ∧ 0 < ra then RealtimeBilling.intPart (q / ra) else q) quota
  RealtimeBilling.intPart (new.foldl (fun x ra => if ra ≠ 1 then x * ra else x) (base : ℚ))

def Submission.finalQuota (s : Submission) : ℤ :=
  if s.adjustedRatios = [] then s.price r
  else recalcQuotaFromRatios (s.price r) s.otherRatios s.adjustedRatios

structure TaskSubmitResult where
  quota : ℤ
  modelName : String
  usePrice : Bool
  otherRatios : List ℚ

def Submission.result (s : Submission) : TaskSubmitResult where
  quota := s.finalQuota r
  modelName := s.modelName
  usePrice := s.usePrice
  otherRatios := if s.adjustedRatios = [] then s.otherRatios else s.adjustedRatios

structure Relaying where
  info : RelayInfo
  billing : Option Session

def preConsumeTask (st : Relaying) (freeModel : Bool) (quota : ℤ) :
    BillProg (Relaying × Option TaskError) :=
  if st.billing = none ∧ freeModel = false then do
    match ← newBillingSession cfg c { st.info with forcePreConsume := true } quota with
    | (info, .error e) => pure (⟨info, none⟩, some (taskErrorFromAPIError e))
    | (_, .ok session) => pure (⟨session.relayInfo, some session⟩, none)
  else pure (st, none)

def relayTaskSubmit (st : Relaying) (s : Submission) :
    BillProg (Relaying × Except TaskError TaskSubmitResult) :=
  match s.refused with
  | some e => pure (st, .error e)
  | none => do
    match ← preConsumeTask cfg c st s.freeModel (s.price r) with
    | (st, some e) => pure (st, .error e)
    | (st, none) =>
      match s.failed with
      | some e => pure (st, .error e)
      | none => pure (st, .ok (s.result r))

def shouldRetryTaskRelay (e : TaskError) (retryTimes : ℕ) : Bool :=
  if r.skipRetryAfterAffinity then false
  else if retryTimes = 0 then false
  else if r.specificChannel then false
  else if e.statusCode = 429 then true
  else if e.statusCode = 307 then true
  else if e.statusCode / 100 = 5 then !r.alwaysSkipRetry e.statusCode
  else if e.statusCode = 400 then false
  else if e.statusCode = 408 then false
  else if e.localError then false
  else if e.statusCode / 100 = 2 then false
  else true

/-- The passes that are left, numbered from `retry`; `last` is the error of the pass before. -/
def relayLoop (cfg : Config) (c : Context) (r : RelaySettings) (attempts : ℕ → Attempt) :
    ℕ → ℕ → Relaying → TaskError → BillProg (Relaying × Except TaskError TaskSubmitResult)
  | 0, _, st, last => pure (st, .error last)
  | left + 1, retry, st, _ =>
    match attempts retry with
    | .noChannel e => pure (st, .error e)
    | .submit s => do
      match ← relayTaskSubmit cfg c r st s with
      | (st, .ok result) => pure (st, .ok result)
      | (st, .error e) =>
        if shouldRetryTaskRelay r e left then relayLoop cfg c r attempts left (retry + 1) st e
        else pure (st, .error e)

structure TaskBillingContext where
  otherRatios : List ℚ
  originModelName : String
  perCallBilling : Bool

structure Task where
  userId : ℤ
  group : String
  quota : ℤ
  originModelName : String
  billingSource : BillingSource
  subscriptionId : ℤ
  tokenId : ℤ
  billingContext : Option TaskBillingContext

def submittedTask (req : TaskRequest) (info : RelayInfo) (result : TaskSubmitResult) : Task where
  userId := info.userId
  group := req.usingGroup
  quota := result.quota
  originModelName := result.modelName
  billingSource := info.billingSource
  subscriptionId := info.subscriptionId
  tokenId := info.tokenId
  billingContext := some ⟨result.otherRatios, result.modelName,
    decide (result.modelName ∈ r.taskPricePatches) || result.usePrice⟩

def respondTaskError (e : TaskError) : TaskError :=
  if e.statusCode = 429 then { e with message := "当前分组上游负载已饱和，请稍后再试" } else e

def failTask (st : Relaying) (e : TaskError) : BillProg (Except TaskError Task) :=
  match st.billing with
  | none => pure (.error (respondTaskError e))
  | some session => do
    let _ ← session.refund cfg c
    pure (.error (respondTaskError e))

/-- An error of the settlement is logged only; the row has the quota that was to be settled. -/
def settleTask (req : TaskRequest) (st : Relaying) (result : TaskSubmitResult) :
    BillProg (Except TaskError Task) := do
  let (info, _) ← settleBilling cfg c st.info st.billing result.quota
  pure (.ok (submittedTask r req info result))

/-- `RelayTask`, with the row it inserts. -/
def relayTask (req : TaskRequest) (attempts : ℕ → Attempt) : BillProg (Except TaskError Task) := do
  match ← relayLoop cfg c r attempts (r.retryTimes + 1) 0 ⟨genRelayInfo req, none⟩
    ⟨"", "", 0, false⟩ with
  | (st, .error e) => failTask cfg c st e
  | (st, .ok result) => settleTask cfg c r req st result

def resolveTokenKey (tokenId : ℤ) : BillProg String :=
  if tokenId = 0 then pure ""
  else do
    match ← (.op (.selectTokenById tokenId) .pure : BillProg (Except String (Option (String × ℤ)))) with
    | .error _ => pure ""
    | .ok none => pure ""
    | .ok (some (key, remain)) =>
      spawn cfg (.setToken key remain)
      pure key

variable (task : Task)

def taskIsSubscription : Prop :=
  task.billingSource = .subscription ∧ 0 < task.subscriptionId

instance (task : Task) : Decidable (taskIsSubscription task) :=
  inferInstanceAs (Decidable (_ ∧ _))

def taskAdjustFunding (delta : ℤ) : BillProg (Except String Unit) :=
  if taskIsSubscription task then
    onStore .ordinary (postConsumeUserSubscriptionDelta c.tx task.subscriptionId delta)
  else if 0 < delta then decreaseUserQuota cfg .ordinary task.userId delta false
  else increaseUserQuota cfg .ordinary task.userId (-delta) false

def adjustToken (tokenId : ℤ) (key : String) (delta : ℤ) : BillProg (Except String Unit) :=
  if 0 < delta then decreaseTokenQuota cfg .ordinary tokenId key delta
  else increaseTokenQuota cfg .ordinary tokenId key (-delta)

def taskAdjustTokenQuota (delta : ℤ) : BillProg Unit :=
  if task.tokenId ≤ 0 ∨ delta = 0 then pure ()
  else do
    let key ← resolveTokenKey cfg task.tokenId
    if key = "" then pure ()
    else do
      let _ ← adjustToken cfg task.tokenId key delta
      pure ()

def refundTaskQuota : BillProg Unit :=
  if task.quota = 0 then pure ()
  else do
    match ← taskAdjustFunding cfg c task (-task.quota) with
    | .error _ => pure ()
    | .ok _ => taskAdjustTokenQuota cfg task (-task.quota)

def recalculateTaskQuota (actualQuota : ℤ) : BillProg Task :=
  if actualQuota ≤ 0 then pure task
  else if actualQuota - task.quota = 0 then pure task
  else do
    match ← taskAdjustFunding cfg c task (actualQuota - task.quota) with
    | .error _ => pure task
    | .ok _ =>
      taskAdjustTokenQuota cfg task (actualQuota - task.quota)
      pure { task with quota := actualQuota }

structure Completion where
  adjusted : ℤ
  totalTokens : ℤ
  modelRatio : String → Option ℚ
  groupRatio : String → ℚ
  groupGroupRatio : String → String → Option ℚ
  userGroup : Option String

def taskModelName : String :=
  match task.billingContext with
  | some bc => if bc.originModelName ≠ "" then bc.originModelName else task.originModelName
  | none => task.originModelName

def Completion.group (k : Completion) (task : Task) : String :=
  if task.group = "" then k.userGroup.getD "" else task.group

def otherMultiplier : ℚ :=
  match task.billingContext with
  | some bc => bc.otherRatios.foldl (fun x r => if r ≠ 1 ∧ 0 < r then x * r else x) 1
  | none => 1

def quotaByTokens (k : Completion) (task : Task) : Option ℤ :=
  if k.totalTokens ≤ 0 then none
  else
    match k.modelRatio (taskModelName task) with
    | none => none
    | some ratio =>
      if ratio ≤ 0 ∨ k.group task = "" then none
      else
        some (RealtimeBilling.intPart (k.totalTokens * ratio *
          (k.groupGroupRatio (k.group task) (k.group task)).getD (k.groupRatio (k.group task)) *
          otherMultiplier task))

def recalculateTaskQuotaByTokens (k : Completion) : BillProg Task :=
  match quotaByTokens k task with
  | none => pure task
  | some actualQuota => recalculateTaskQuota cfg c task actualQuota

def perCall : Bool :=
  match task.billingContext with
  | some bc => bc.perCallBilling
  | none => false

def settleTaskBillingOnComplete (k : Completion) : BillProg Task :=
  if perCall task then pure task
  else if 0 < k.adjusted then recalculateTaskQuota cfg c task k.adjusted
  else if 0 < k.totalTokens then recalculateTaskQuotaByTokens cfg c task k
  else pure task

/-- `updateVideoSingleTask` on a task that has succeeded: the row as it was loaded is saved
with its new status, and the settlement that follows changes the task object only. -/
def completeTask (k : Completion) : BillProg (Task × Task) := do
  let settled ← settleTaskBillingOnComplete cfg c task k
  pure (task, settled)

def accountOf : Account :=
  if taskIsSubscription task then .subscription task.subscriptionId else .wallet task.userId

def fundingUsed (a : Ledger) : ℤ := (accountOf task).used a

def tokenUsed (a : Ledger) : ℤ := -((a.token task.tokenId).map TokenQuota.remain).getD 0

/-- Every attempt has a price, and each subscription of the user has room for what it settles. -/
def Affordable (req : TaskRequest) (attempts : ℕ → Attempt) (t : Tables) : Prop :=
  ∀ n s, attempts n = .submit s → 0 ≤ s.price r ∧ 0 ≤ s.finalQuota r ∧
    ∀ row ∈ t.subs.rows, row.userId = req.userId →
      row.amountTotal ≤ 0 ∨ row.amountUsed + s.finalQuota r ≤ row.amountTotal

/-- The store a request meets: no transaction is open, user and token are there, and the
request id is new. -/
structure Ready (req : TaskRequest) (t : Tables) (a : Ledger) : Prop where
  idle : a.subs = idle t
  user : (a.wallet req.userId).isSome
  token : (a.token req.tokenId).isSome
  fresh : t.records.find? req.requestId = none
  nonnegative : Nonnegative t
  ids : ∀ row ∈ t.subs.rows, 0 < row.id

section Submitting

variable {fails : Purpose → Prop} {cfg : Config} {c : Context} {r : RelaySettings}
  {req : TaskRequest} {t : Tables} {a₀ a : Ledger} {st : Relaying}

/-- Between two attempts: nothing is charged yet, or one session has been opened. -/
inductive Relayed (cfg : Config) (c : Context) (req : TaskRequest) (t : Tables) (a₀ : Ledger) :
    Relaying → Ledger → Prop
  | unbilled (userQuota : ℤ) (force : Bool) : Relayed cfg c req t a₀
        ⟨{ genRelayInfo req with userQuota := userQuota, forcePreConsume := force }, none⟩ a₀
  | billed {quota : ℤ} {s : Session} {a : Ledger} (userQuota : ℤ) : 0 ≤ quota →
      Opened cfg c { genRelayInfo req with userQuota := userQuota, forcePreConsume := true } quota
        t a₀ s a →
      Relayed cfg c req t a₀ ⟨s.relayInfo, some s⟩ a

section

variable (hundo : ¬ fails .undo) (ha : a₀.subs = idle t)
include hundo ha

theorem always_preConsumeTask (h : Relayed cfg c req t a₀ st a) (freeModel : Bool) {quota : ℤ}
    (hquota : 0 ≤ quota) :
    always (effects fails) (preConsumeTask cfg c st freeModel quota)
      (fun p a' => Relayed cfg c req t a₀ p.1 a') a := by
  unfold preConsumeTask
  by_cases hfirst : st.billing = none ∧ freeModel = false
  · rw [if_pos hfirst]
    cases h with
    | unbilled userQuota force =>
      apply always_seq (always_newBillingSession hundo hquota ha)
      rintro ⟨info, e | s⟩ a' hcreated
      · obtain ⟨rfl, u, rfl⟩ := hcreated
        exact .unbilled u true
      · exact .billed userQuota hquota hcreated
    | billed userQuota hq hopened => cases hfirst.1
  · rw [if_neg hfirst]
    exact h

theorem always_relayTaskSubmit (h : Relayed cfg c req t a₀ st a) {s : Submission}
    (hprice : 0 ≤ s.price r) :
    always (effects fails) (relayTaskSubmit cfg c r st s)
      (fun p a' => Relayed cfg c req t a₀ p.1 a' ∧ ∀ result, p.2 = .ok result → result = s.result r)
      a := by
  unfold relayTaskSubmit
  cases s.refused with
  | some e => exact ⟨h, nofun⟩
  | none =>
    apply always_seq (always_preConsumeTask hundo ha h s.freeModel hprice)
    rintro ⟨st', e | e⟩ a' h'
    · cases s.failed with
      | some e => exact ⟨h', nofun⟩
      | none => exact ⟨h', fun result hr => by cases hr; rfl⟩
    · exact ⟨h', nofun⟩

theorem always_relayLoop {attempts : ℕ → Attempt}
    (hprice : ∀ n s, attempts n = .submit s → 0 ≤ s.price r) (left retry : ℕ) (last : TaskError)
    (h : Relayed cfg c req t a₀ st a) :
    always (effects fails) (relayLoop cfg c r attempts left retry st last)
      (fun p a' => Relayed cfg c req t a₀ p.1 a' ∧
        ∀ result, p.2 = .ok result → ∃ n s, attempts n = .submit s ∧ result = s.result r) a := by
  induction left generalizing retry st last a with
  | zero => exact ⟨h, nofun⟩
  | succ left ih =>
    unfold relayLoop
    cases hattempt : attempts retry with
    | noChannel e => exact ⟨h, nofun⟩
    | submit s =>
      apply always_seq (always_relayTaskSubmit hundo ha h (hprice retry s hattempt))
      rintro ⟨st', e | result⟩ a' ⟨h', hresult⟩
      · dsimp only
        split
        · exact ih (retry + 1) e h'
        · exact ⟨h', nofun⟩
      · exact ⟨h', fun result' hr => ⟨retry, s, hattempt, hresult result' hr⟩⟩

end

end Submitting

section Levels

variable {task : Task} {a : Ledger}

theorem tokenUsed_addToken (htoken : (a.token task.tokenId).isSome) (delta : ℤ) :
    tokenUsed task (a.addToken task.tokenId delta) = tokenUsed task a - delta := by
  obtain ⟨q, hq⟩ := isSome_iff_exists.mp htoken
  simp only [tokenUsed, Ledger.addToken, Function.update_self, hq, map_some,
    getD_some, TokenQuota.add]
  omega

theorem fundingUsed_addWallet (hsource : ¬ taskIsSubscription task)
    (huser : (a.wallet task.userId).isSome) (delta : ℤ) :
    fundingUsed task (a.addWallet task.userId delta) = fundingUsed task a - delta := by
  simp only [fundingUsed, accountOf, if_neg hsource]
  exact used_addWallet huser delta

end Levels

def ChargedInFull (a a' : Ledger) : Prop :=
  (∃ base, Base cfg c (accountOf task) a base ∧ fundingUsed task a' = base + task.quota) ∧
    tokenUsed task a' = tokenUsed task a + task.quota

section Settling

variable {cfg : Config} {c : Context} {r : RelaySettings} {req : TaskRequest} {t : Tables}
  {a₀ a a' : Ledger}

variable {info : RelayInfo}

theorem chargedInFull_wallet {task : Task} (hsource : ¬ taskIsSubscription task)
    (huser : info.userId = task.userId) (htoken : info.tokenId = task.tokenId)
    (hplay : info.isPlayground = false) (hhas : (a.wallet task.userId).isSome)
    (hkey : (a.token task.tokenId).isSome)
    (ha : a' = (tokenCharged info task.quota a).addWallet info.userId (-task.quota)) :
    ChargedInFull cfg c task a a' := by
  subst ha
  rw [addWallet_tokenCharged, huser, tokenCharged, hplay, if_neg (by decide), htoken]
  refine ⟨⟨fundingUsed task a, .inl rfl, ?_⟩, ?_⟩
  · change fundingUsed task (a.addWallet task.userId (-task.quota)) = _
    rw [fundingUsed_addWallet hsource hhas]
    omega
  · rw [tokenUsed_addToken (a := a.addWallet task.userId (-task.quota)) hkey]
    change tokenUsed task a - -task.quota = _
    omega

theorem chargedInFull_subscription {task : Task} {total base : ℤ} {t' : Tables}
    (hsource : taskIsSubscription task) (htoken : info.tokenId = task.tokenId)
    (hplay : info.isPlayground = false) (hkey : (a.token task.tokenId).isSome)
    (hsubs : a.subs = idle t)
    (hdrawn : Drawn cfg.clock c.chargedAt t info.userId task.subscriptionId total base)
    (hcounter : Counter t' task.subscriptionId total (base + task.quota))
    (ha : a' = { tokenCharged info task.quota a with subs := idle t' }) :
    ChargedInFull cfg c task a a' := by
  subst ha
  rw [tokenCharged, hplay, if_neg (by decide), htoken]
  constructor
  · have haccount : accountOf task = .subscription task.subscriptionId := if_pos hsource
    rw [fundingUsed, haccount]
    exact ⟨base, base_of_drawn hsubs hdrawn, used_counter rfl hcounter⟩
  · change tokenUsed task (a.addToken task.tokenId (-task.quota)) = _
    rw [tokenUsed_addToken hkey]
    omega

theorem settleOutcome_ok {s s' : Session} {quota : ℤ}
    (h : SettleOutcome t a s quota (s', .ok ()) a') :
    s'.settled = true ∧
      ∃ delta, s'.relayInfo = { s.relayInfo with subscriptionPostDelta := delta } := by
  cases h with
  | again hs => exact ⟨hs, _, rfl⟩
  | even hs hq => exact ⟨rfl, _, rfl⟩
  | moved hs hq htaken =>
    refine ⟨closed_settled, ?_⟩
    cases hf : s.funding with
    | wallet w =>
      refine ⟨s.relayInfo.subscriptionPostDelta, ?_⟩
      simp only [Session.closed]
    | subscription f =>
      refine ⟨s.relayInfo.subscriptionPostDelta + (quota - s.preConsumedQuota), ?_⟩
      simp only [Session.closed]

variable {result : TaskSubmitResult}

/-- A session whose source accepts the difference is settled, and the task takes its source
and token from it. -/
theorem always_settleSession {s : Session} (ha : a.subs = idle t) (hs : s.fundingSettled = false)
    (haccept : ∀ f, s.funding = .subscription f →
      (postConsume t f.subscriptionId (result.quota - s.preConsumedQuota)).1 = .ok ())
    {P : Task → Ledger → Prop}
    (hend : ∀ s' a', SettleOutcome t a s result.quota (s', .ok ()) a' → s'.settled = true →
      P (submittedTask r req s.relayInfo result) a') :
    always (effects fun _ => False) (settleTask cfg c r req ⟨s.relayInfo, some s⟩ result)
      (fun res a' => ∃ task, res = .ok task ∧ P task a') a := by
  apply always_bind.mpr
  refine always_seq (always_and (always_settle (fun h => h) ha (fun _ => hs) result.quota)
    (always_settle_ok (fun h => h) ha hs haccept)) ?_
  rintro ⟨s', r'⟩ a' ⟨ho, hok⟩
  obtain rfl : r' = .ok () := hok
  obtain ⟨hsettled, delta, hinfo⟩ := settleOutcome_ok ho
  refine ⟨_, rfl, ?_⟩
  rw [hinfo]
  exact hend s' a' ho hsettled

structure Names (info : RelayInfo) (req : TaskRequest) : Prop where
  user : info.userId = req.userId
  token : info.tokenId = req.tokenId
  playground : info.isPlayground = false

theorem accepted_of_drawn {f : SubscriptionFunding} {total base quota : ℤ}
    {t' : Tables} {s : Session} (ht : Nonnegative t)
    (hroom : ∀ row ∈ t.subs.rows, row.userId = info.userId →
      row.amountTotal ≤ 0 ∨ row.amountUsed + quota ≤ row.amountTotal)
    (hdrawn : Drawn cfg.clock c.chargedAt t info.userId f.subscriptionId total base)
    (hsub : Subscribed f base) (hquota : 0 ≤ quota)
    (h : SubscriptionAccount a₀ info f total base t' a s .pending) :
    (postConsume t' f.subscriptionId (quota - s.preConsumedQuota)).1 = .ok () := by
  obtain ⟨row, hmem, huser, hid, rfl, hbase⟩ := hdrawn
  have hused : 0 ≤ row.amountUsed := by
    apply ht row.id row.amountUsed
    rw [usedOf, Table.find?_of_mem hmem]
    rfl
  have hcounter := h.counter
  have hpos := hsub.base
  have hfits := hroom row hmem huser
  simp only [Verdict.amount] at hcounter
  refine (counter_postConsume _ hcounter hsub.id (by omega) ?_).1
  rcases hbase with rfl | ⟨-, rfl⟩ <;> omega

section

variable (hready : Ready req t a₀) (hinfo : Names info req)
include hready hinfo

theorem Ready.hasUser :
    (a₀.wallet info.userId).isSome := by
  rw [hinfo.user]
  exact hready.user

theorem Ready.hasToken :
    (a₀.token info.tokenId).isSome := by
  rw [hinfo.token]
  exact hready.token

theorem always_settleTask_unbilled (hfree : info.finalPreConsumedQuota = 0)
    (hsource : info.billingSource = .unset) (result : TaskSubmitResult) :
    always (effects fun _ => False) (settleTask cfg c r req ⟨info, none⟩ result)
      (fun res a' => ∃ task, res = .ok task ∧ ChargedInFull cfg c task a₀ a') a₀ := by
  have hwallet : ¬ taskIsSubscription (submittedTask r req info result) := by
    rintro ⟨h, -⟩
    cases hsource.symm.trans h
  have hfull : ∀ a', a' = (tokenCharged info result.quota a₀).addWallet info.userId
      (-result.quota) → ChargedInFull cfg c (submittedTask r req info result) a₀ a' := fun a' =>
    chargedInFull_wallet hwallet rfl rfl hinfo.playground (hready.hasUser hinfo)
      (hready.hasToken hinfo)
  apply always_bind.mpr
  unfold settleBilling
  rw [hfree, sub_zero]
  by_cases hzero : result.quota = 0
  · rw [if_pos hzero]
    refine ⟨_, rfl, hfull _ ?_⟩
    rw [hzero, tokenCharged_zero, neg_zero, addWallet_zero]
  · rw [if_neg hzero]
    refine always_seq (always_postConsumeQuota (fun h => h) (by simp [hsource]) _) ?_
    rintro p a' ⟨rfl, rfl⟩
    refine ⟨_, rfl, hfull _ ?_⟩
    rw [charged, addWallet_tokenCharged]

theorem always_settleTask_wallet {p : ℤ} (userQuota : ℤ) (trusted : Bool) (hp : 0 ≤ p)
    (result : TaskSubmitResult) (ha : a = (tokenCharged info p a₀).addWallet info.userId (-p)) :
    always (effects fun _ => False)
      (settleTask cfg c r req
        ⟨(opened { info with userQuota := userQuota } (.wallet ⟨info.userId, p⟩) p trusted).relayInfo,
          some (opened { info with userQuota := userQuota } (.wallet ⟨info.userId, p⟩) p trusted)⟩
        result)
      (fun res a' => ∃ task, res = .ok task ∧ ChargedInFull cfg c task a₀ a') a := by
  have hstart := walletAccount_opened userQuota trusted hp ha
  have hsubs : a.subs = idle t := by
    rw [ha]
    exact (tokenCharged_subs a₀ info p).trans hready.idle
  apply always_settleSession hsubs rfl (fun f hf => by cases hf)
  intro s' a' ho hsettled
  have hend := hstart.settle ho (nofun)
  rw [after_settle_pending rfl hsettled] at hend
  have hwallet : ¬ taskIsSubscription (submittedTask r req
      (opened { info with userQuota := userQuota } (.wallet ⟨info.userId, p⟩) p trusted).relayInfo
      result) := by
    rintro ⟨h, -⟩
    cases h
  have huser := hready.hasUser hinfo
  have htoken := hready.hasToken hinfo
  exact chargedInFull_wallet hwallet rfl rfl hinfo.playground huser htoken hend.ledger

theorem always_settleTask_subscription (hrequest : info.requestId = req.requestId) {p : ℤ}
    (userQuota : ℤ) {res : SubscriptionPreConsumeResult} (plan : Option SubscriptionPlanInfo)
    {t' : Tables} (hblank : GoText.trimSpace info.requestId ≠ "")
    (hout : PreOutcome cfg.clock ((subscriptionFor info p).call c) t res t')
    (hquota : 0 ≤ result.quota) (hroom : ∀ row ∈ t.subs.rows, row.userId = req.userId →
      row.amountTotal ≤ 0 ∨ row.amountUsed + result.quota ≤ row.amountTotal)
    (ha : a = { tokenCharged info p a₀ with subs := idle t' }) :
    always (effects fun _ => False)
      (settleTask cfg c r req
        ⟨(opened { info with userQuota := userQuota }
            (.subscription (subscribed (subscriptionFor info p) res plan)) p false).relayInfo,
          some (opened { info with userQuota := userQuota }
            (.subscription (subscribed (subscriptionFor info p) res plan)) p false)⟩ result)
      (fun res a' => ∃ task, res = .ok task ∧ ChargedInFull cfg c task a₀ a') a := by
  have hfresh : t.records.find? info.requestId = none := by
    rw [hrequest]
    exact hready.fresh
  obtain ⟨f, total, base, hsub, hf, hstart, hdrawn⟩ := subscriptionAccount_opened userQuota plan ha
    hready.nonnegative hready.ids hblank hfresh hout
  have hsubs : a.subs = idle t' := by rw [ha]
  have haccept := accepted_of_drawn hready.nonnegative (by rwa [hinfo.user]) hdrawn hsub hquota hstart
  apply always_settleSession hsubs rfl
  · intro g hg
    obtain rfl : g = f := by
      cases hg
      cases hf
      rfl
    exact haccept
  intro s' a' ho hsettled
  obtain ⟨t'', hend⟩ := hstart.settle ho (nofun)
    (fun _ _ => Int.add_nonneg hsub.base hquota)
  rw [after_settle_pending rfl hsettled] at hend
  cases hf
  have htoken := hready.hasToken hinfo
  exact chargedInFull_subscription ⟨rfl, hsub.id⟩ rfl hinfo.playground htoken hready.idle hdrawn
    hend.counter hend.ledger

end

theorem always_settleTask (hready : Ready req t a₀) {st : Relaying}
    (h : Relayed cfg c req t a₀ st a) (hquota : 0 ≤ result.quota)
    (hroom : ∀ row ∈ t.subs.rows, row.userId = req.userId →
      row.amountTotal ≤ 0 ∨ row.amountUsed + result.quota ≤ row.amountTotal) :
    always (effects fun _ => False) (settleTask cfg c r req st result)
      (fun res a' => ∃ task, res = .ok task ∧ ChargedInFull cfg c task a₀ a') a := by
  cases h with
  | unbilled userQuota force =>
    exact always_settleTask_unbilled hready ⟨rfl, rfl, rfl⟩ rfl rfl result
  | @billed quota s a userQuota hq hopened =>
    cases hopened with
    | @wallet p userQuota trusted hp =>
      refine always_settleTask_wallet hready ⟨rfl, rfl, rfl⟩ userQuota trusted ?_ result rfl
      rw [hp]
      split
      · exact le_rfl
      · exact hq
    | @subscription p userQuota res plan t' hp hblank hout =>
      exact always_settleTask_subscription hready ⟨rfl, rfl, rfl⟩ rfl userQuota plan hblank hout
        hquota hroom rfl

theorem always_relayTask (hready : Ready req t a₀) {attempts : ℕ → Attempt}
    (hafford : Affordable r req attempts t) :
    always (effects fun _ => False) (relayTask cfg c r req attempts)
      (fun res a' => ∀ task, res = .ok task → ChargedInFull cfg c task a₀ a') a₀ := by
  refine always_seq (always_relayLoop (fun h => h) hready.idle
    (fun n s hs => (hafford n s hs).1) _ _ _ (.unbilled req.userQuota false)) ?_
  rintro ⟨st, e | result⟩ a ⟨h, hresult⟩
  · unfold failTask
    dsimp only
    cases st.billing with
    | none => exact nofun
    | some session =>
      apply always_bind.mpr
      exact always_of_forall fun s' a' task htask => by cases htask
  · obtain ⟨n, s, hs, rfl⟩ := hresult result rfl
    obtain ⟨-, hquota, hroom⟩ := hafford n s hs
    apply always_mono (always_settleTask hready h hquota hroom)
    rintro res a' ⟨task, rfl, hfull⟩ task' htask
    cases htask
    exact hfull

end Settling

/-- The row of a task, and what its later bills have taken from source and token. -/
structure TaskLife where
  world : World
  stored : Task
  funding : ℤ
  token : ℤ

def TaskLife.billed (l : TaskLife) (row : Task) (w : World) : TaskLife where
  world := w
  stored := row
  funding := l.funding + (fundingUsed row w.ledger - fundingUsed row l.world.ledger)
  token := l.token + (tokenUsed row w.ledger - tokenUsed row l.world.ledger)

inductive TaskStep (cfg : Config) (allowed : TaskLife → Completion → Prop) :
    TaskLife → TaskLife → Prop
  | complete {l : TaskLife} {row settled : Task} {faults : List (Option String)}
      {moves : List (World → World)} {s' : Moved (Faulty World String)} (c : Context)
      (k : Completion) : allowed l k → Unseen World.ledger ⟨l.world, moves⟩ →
      run (withMoves faultyBill) (completeTask cfg c l.stored k) (before l.world faults moves) =
        some ((row, settled), s') →
      TaskStep cfg allowed l (l.billed row s'.state.state)
  | other {l : TaskLife} (w : World) : TaskStep cfg allowed l { l with world := w }

def TaskRun (allowed : TaskLife → Completion → Prop) : TaskLife → TaskLife → Prop :=
  Relation.ReflTransGen (TaskStep cfg allowed)

def completedQuota (k : Completion) (task : Task) : Option ℤ :=
  if perCall task then none
  else if 0 < k.adjusted then some k.adjusted
  else if 0 < k.totalTokens then quotaByTokens k task
  else none

def Confirms (l : TaskLife) (k : Completion) : Prop :=
  ∀ q, completedQuota k l.stored = some q → q ≤ 0 ∨ q = l.stored.quota

section Completion

variable {cfg : Config} {c : Context} {task : Task} {k : Completion}

theorem settleTaskBillingOnComplete_eq : settleTaskBillingOnComplete cfg c task k =
      match completedQuota k task with
      | none => pure task
      | some q => recalculateTaskQuota cfg c task q := by
  unfold settleTaskBillingOnComplete completedQuota
  by_cases hcall : perCall task = true
  · rw [if_pos hcall, if_pos hcall]
  rw [if_neg hcall, if_neg hcall]
  by_cases hadjusted : 0 < k.adjusted
  · rw [if_pos hadjusted, if_pos hadjusted]
  rw [if_neg hadjusted, if_neg hadjusted]
  by_cases htokens : 0 < k.totalTokens
  · rw [if_pos htokens, if_pos htokens]
    rfl
  · rw [if_neg htokens, if_neg htokens]

theorem completeTask_of_confirmed
    (h : ∀ q, completedQuota k task = some q → q ≤ 0 ∨ q = task.quota) :
    completeTask cfg c task k = pure (task, task) := by
  have hsettle : settleTaskBillingOnComplete cfg c task k = pure task := by
    rw [settleTaskBillingOnComplete_eq]
    cases hq : completedQuota k task with
    | none => rfl
    | some q =>
      dsimp only
      unfold recalculateTaskQuota
      rcases h q hq with hneg | rfl
      · rw [if_pos hneg]
      · rw [if_pos (sub_self _), ite_self]
  rw [completeTask, hsettle]
  rfl

theorem TaskStep.untouched {l l' : TaskLife} (h : TaskStep cfg Confirms l l') :
    l'.stored = l.stored ∧ l'.funding = l.funding ∧ l'.token = l.token := by
  cases h with
  | complete c k hallowed hquiet hrun =>
    rw [completeTask_of_confirmed hallowed] at hrun
    cases hrun
    refine ⟨rfl, ?_, ?_⟩
    · change l.funding + (_ - _) = _
      rw [show (before l.world _ _).state.state = l.world from rfl, sub_self, add_zero]
    · change l.token + (_ - _) = _
      rw [show (before l.world _ _).state.state = l.world from rfl, sub_self, add_zero]
  | other w => exact ⟨rfl, rfl, rfl⟩

theorem TaskRun.untouched {l l' : TaskLife} (h : TaskRun cfg Confirms l l') :
    l'.stored = l.stored ∧ l'.funding = l.funding ∧ l'.token = l.token := by
  induction h with
  | refl => exact ⟨rfl, rfl, rfl⟩
  | tail _ hstep ih =>
    obtain ⟨hstored, hfunding, htoken⟩ := hstep.untouched
    exact ⟨hstored.trans ih.1, hfunding.trans ih.2.1, htoken.trans ih.2.2⟩

end Completion

/-- Source and token of the task can be credited: the user is there, or the counter of the
subscription has not been started again, and the token has a key. -/
structure Refundable (task : Task) (w : World) : Prop where
  user : ¬ taskIsSubscription task → (w.userQuota task.userId).isSome
  subscription : taskIsSubscription task → ∃ t row, w.subs = idle t ∧
    t.subs.find? task.subscriptionId = some row ∧ task.quota ≤ row.amountUsed ∧
    (row.amountTotal ≤ 0 ∨ row.amountUsed - task.quota ≤ row.amountTotal)
  token : 0 < task.tokenId ∧ ∃ row, w.tokens.find? task.tokenId = some row ∧ row.key ≠ ""

section Refund

variable (cfg : Config) (c : Context) {task : Task} {w : World}

theorem run_spawn (task : CacheTask) (w : World) : ∃ w',
    run handleBill (spawn cfg task) w = some ((), w') ∧ w'.ledger = w.ledger ∧
      w'.tokens = w.tokens := by
  unfold spawn
  split
  · exact ⟨_, rfl, rfl, rfl⟩
  · exact ⟨_, rfl, rfl, rfl⟩

theorem run_changeUserQuota (id delta : ℤ) (w : World) : ∃ w',
    run handleBill (changeUserQuota cfg .ordinary id delta false) w = some (.ok (), w') ∧
      w'.ledger = w.ledger.addWallet id delta ∧ w'.tokens = w.tokens := by
  obtain ⟨w₁, hspawn, hledger, htokens⟩ := run_spawn cfg (.incrUser id delta) w
  unfold changeUserQuota
  rw [run_bind, hspawn, ← hledger, ← htokens, bind_some]
  split
  · exact ⟨_, rfl, ledger_batchUser id delta, rfl⟩
  · exact ⟨_, rfl, ledger_addUserQuota id delta, rfl⟩

theorem run_changeTokenQuota (id : ℤ) (key : String) (delta : ℤ) (w : World) : ∃ w',
    run handleBill (changeTokenQuota cfg .ordinary id key delta) w = some (.ok (), w') ∧
      w'.ledger = w.ledger.addToken id delta := by
  obtain ⟨w₁, hspawn, hledger, -⟩ := run_spawn cfg (.incrToken key delta) w
  unfold changeTokenQuota
  rw [run_bind, hspawn, ← hledger, bind_some]
  split
  · exact ⟨_, rfl, ledger_batchToken id delta⟩
  · exact ⟨_, rfl, ledger_addTokenQuota id delta⟩

theorem run_onStore {α : Type} (p : SubProg α) (w : World) :
    run handleBill (onStore .ordinary p) w =
      (run (handle engine) p w.subs).map fun q => (q.1, { w with subs := q.2 }) := by
  induction p generalizing w with
  | pure a | diverge => rfl
  | op o k ih =>
    change (((handle engine o w.subs).map fun q => (q.1, { w with subs := q.2 })).bind _) = _
    rw [run_op]
    cases handle engine o w.subs with
    | none => rfl
    | some q => exact ih q.1 { w with subs := q.2 }

theorem run_taskAdjustFunding_back (h : Refundable task w) : ∃ w',
    run handleBill (taskAdjustFunding cfg c task (-task.quota)) w = some (.ok (), w') ∧
      fundingUsed task w'.ledger = fundingUsed task w.ledger - task.quota ∧
      w'.ledger.token = w.ledger.token ∧ w'.tokens = w.tokens := by
  unfold taskAdjustFunding
  by_cases hsource : taskIsSubscription task
  · rw [if_pos hsource]
    obtain ⟨t, row, hidle, hrow, hlow, hhigh⟩ := h.subscription hsource
    obtain ⟨hok, hcounter⟩ := counter_postConsume (t := t) (-task.quota) ⟨row, hrow, rfl, rfl⟩ hsource.2
      (by omega) (by omega)
    refine ⟨{ w with subs := idle (postConsume t task.subscriptionId (-task.quota)).2 }, ?_, ?_, rfl,
      rfl⟩
    · rw [run_onStore, hidle, run_postConsume, hok]
      rfl
    · have haccount : accountOf task = .subscription task.subscriptionId := if_pos hsource
      rw [fundingUsed, fundingUsed, haccount, used_counter rfl hcounter,
        used_counter hidle ⟨row, hrow, rfl, rfl⟩]
      omega
  · rw [if_neg hsource]
    have hwallet : (w.ledger.wallet task.userId).isSome := by
      change ((w.userQuota task.userId).map _).isSome
      rw [isSome_map]
      exact h.user hsource
    obtain ⟨w', hrun, hledger, htokens⟩ := run_changeUserQuota cfg task.userId task.quota w
    refine ⟨w', ?_, ?_, by rw [hledger]; rfl, htokens⟩
    · by_cases hpos : 0 < -task.quota
      · rw [if_pos hpos, decreaseUserQuota, if_neg (by omega), neg_neg]
        exact hrun
      · rw [if_neg hpos, increaseUserQuota, if_neg (by omega), neg_neg]
        exact hrun
    · rw [hledger, fundingUsed_addWallet hsource hwallet]

theorem run_adjustToken (tokenId : ℤ) (key : String) (delta : ℤ) (w : World) : ∃ w',
    run handleBill (adjustToken cfg tokenId key delta) w = some (.ok (), w') ∧
      w'.ledger = w.ledger.addToken tokenId (-delta) := by
  obtain ⟨w', hrun, hledger⟩ := run_changeTokenQuota cfg tokenId key (-delta) w
  refine ⟨w', ?_, hledger⟩
  unfold adjustToken
  by_cases hpos : 0 < delta
  · rw [if_pos hpos, decreaseTokenQuota, if_neg (by omega)]
    exact hrun
  · rw [if_neg hpos, increaseTokenQuota, if_neg (by omega)]
    exact hrun

theorem run_resolveTokenKey {tokenId : ℤ} {row : TokenRow} (hid : tokenId ≠ 0)
    (hrow : w.tokens.find? tokenId = some row) : ∃ w',
    run handleBill (resolveTokenKey cfg tokenId) w = some (row.key, w') ∧ w'.ledger = w.ledger := by
  obtain ⟨w', hspawn, hledger, -⟩ := run_spawn cfg (.setToken row.key row.remainQuota) w
  refine ⟨w', ?_, hledger⟩
  unfold resolveTokenKey
  rw [if_neg hid, run_bind]
  change run handleBill (match (.ok ((w.tokens.find? tokenId).map fun row =>
      (row.key, row.remainQuota)) : Except String (Option (String × ℤ))) with
    | .error _ => _
    | .ok none => _
    | .ok (some (key, remain)) => _) w = _
  rw [hrow]
  change run handleBill (spawn cfg _ >>= _) w = _
  rw [run_bind, hspawn]
  rfl

theorem run_refundTaskQuota (h : Refundable task w) : ∃ w',
    run handleBill (refundTaskQuota cfg c task) w = some ((), w') ∧
      fundingUsed task w'.ledger = fundingUsed task w.ledger - task.quota ∧
      tokenUsed task w'.ledger = tokenUsed task w.ledger - task.quota := by
  unfold refundTaskQuota
  by_cases hzero : task.quota = 0
  · rw [if_pos hzero, hzero]
    exact ⟨w, rfl, (sub_zero _).symm, (sub_zero _).symm⟩
  rw [if_neg hzero]
  obtain ⟨w₁, hfund, hused, htoken, htokens⟩ := run_taskAdjustFunding_back cfg c h
  obtain ⟨hpos, row, hrow, hkey⟩ := h.token
  rw [← htokens] at hrow
  obtain ⟨w₂, hresolve, hsame⟩ := run_resolveTokenKey cfg (by omega) hrow
  obtain ⟨w₃, hadjust, hledger⟩ := run_adjustToken cfg task.tokenId row.key (-task.quota) w₂
  refine ⟨w₃, ?_, ?_, ?_⟩
  · rw [run_bind, hfund]
    change run handleBill (taskAdjustTokenQuota cfg task (-task.quota)) w₁ = _
    rw [taskAdjustTokenQuota, if_neg (by omega), run_bind, hresolve]
    change run handleBill (if row.key = "" then _ else _) w₂ = _
    rw [if_neg hkey, run_bind, hadjust]
    rfl
  · rw [hledger, ← hused, ← hsame]
    rfl
  · have hsome : (w₂.ledger.token task.tokenId).isSome := by
      rw [hsame]
      change ((w₁.tokens.find? task.tokenId).map _).isSome
      rw [hrow]
      rfl
    rw [hledger, tokenUsed_addToken hsome, hsame, neg_neg]
    simp only [tokenUsed, htoken]

end Refund

/-- The quota of the row is what the submission, from `w₀` to `w`, and the later bills have
taken from source and token. -/
def StoredIsNet (w₀ w : World) (l : TaskLife) : Prop :=
  (∃ base, Base cfg c (accountOf l.stored) w₀.ledger base ∧
    l.stored.quota = fundingUsed l.stored w.ledger - base + l.funding) ∧
  l.stored.quota = tokenUsed l.stored w.ledger - tokenUsed l.stored w₀.ledger + l.token

/-- Where the settlement is accepted and the recalculations confirm the row, its quota is what
has been taken from source and token, and a refund of it returns just that. -/
theorem stored_quota_is_net_amount (cfg : Config) (c : Context) (r : RelaySettings)
    (req : TaskRequest) (attempts : ℕ → Attempt) (t : Tables) (w₀ : World) (task : Task)
    (moves : List (World → World)) (s : Moved (Faulty World String)) (l : TaskLife)
    (hready : Ready req t w₀.ledger) (hafford : Affordable r req attempts t)
    (hquiet : Unseen World.ledger ⟨w₀, moves⟩)
    (hrelay : run (withMoves faultyBill) (relayTask cfg c r req attempts) (before w₀ [] moves) =
      some (.ok task, s))
    (hrun : TaskRun cfg Confirms ⟨s.state.state, task, 0, 0⟩ l) :
    StoredIsNet cfg c w₀ s.state.state l ∧
    (Refundable l.stored l.world → ∃ w',
      run handleBill (refundTaskQuota cfg c l.stored) l.world = some ((), w') ∧
      fundingUsed l.stored w'.ledger = fundingUsed l.stored l.world.ledger - l.stored.quota ∧
      tokenUsed l.stored w'.ledger = tokenUsed l.stored l.world.ledger - l.stored.quota) := by
  obtain ⟨⟨base, hbase, hfunding⟩, htoken⟩ :=
    runs_faultless hquiet (always_relayTask hready hafford) hrelay task rfl
  obtain ⟨hstored, hnone, hnone'⟩ := hrun.untouched
  dsimp only at hstored hnone hnone'
  rw [StoredIsNet, hnone, hnone', hstored]
  refine ⟨⟨⟨base, hbase, ?_⟩, ?_⟩, run_refundTaskQuota cfg c⟩
  · omega
  · omega

def plainRequest (billingPreference : String) : TaskRequest :=
  ⟨"req", 1, 7, "key", false, billingPreference, 0, "default"⟩

def plainSettings : RelaySettings := ⟨0, false, false, fun _ => false, []⟩

def asking (quota : ℤ) (adjusted : List ℚ) : ℕ → Attempt :=
  fun _ => .submit ⟨none, "video", quota, false, false, [], none, adjusted⟩

def costing (adjusted : ℤ) : Completion :=
  ⟨adjusted, 0, fun _ => none, fun _ => 1, fun _ _ => none, none⟩

def playTask (billingPreference : String) (quota : ℤ) (adjusted : List ℚ) (w : World) :
    Option (World × Task) :=
  (run (withMoves faultyBill) (relayTask plainConfig plainContext plainSettings
    (plainRequest billingPreference) (asking quota adjusted)) (before w [] [])).bind fun p =>
    match p.1 with
    | .error _ => none
    | .ok task => some (p.2.state.state, task)

theorem playTask_cases {billingPreference : String} {quota : ℤ} {adjusted : List ℚ} {w w' : World}
    {task : Task} (h : playTask billingPreference quota adjusted w = some (w', task)) : ∃ s,
    run (withMoves faultyBill) (relayTask plainConfig plainContext plainSettings
      (plainRequest billingPreference) (asking quota adjusted)) (before w [] []) =
        some (.ok task, s) ∧ s.state.state = w' := by
  obtain ⟨⟨r, s⟩, hrun, hcase⟩ := bind_eq_some_iff.mp h
  cases r with
  | error e => cases hcase
  | ok task =>
    cases hcase
    exact ⟨s, hrun, rfl⟩

/-- A task of 100 is settled at 80, confirmed and refunded. -/
theorem confirmed_task_refunded : ∃ w task,
    playTask "wallet_only" 100 [4 / 5] (plainWorld 1000 1000 .empty) = some (w, task) ∧
    task.quota = 80 ∧ StoredIsNet plainConfig plainContext (plainWorld 1000 1000 .empty) w
      (TaskLife.billed ⟨w, task, 0, 0⟩ task w) ∧
    ∃ w', run handleBill (refundTaskQuota plainConfig plainContext task) w = some ((), w') ∧
      fundingUsed task w'.ledger = fundingUsed task w.ledger - 80 ∧
      tokenUsed task w'.ledger = tokenUsed task w.ledger - 80 := by
  have hplay : ((playTask "wallet_only" 100 [4 / 5] (plainWorld 1000 1000 .empty)).map fun p =>
      decide (p.2.quota = 80 ∧ p.2.billingSource = .wallet ∧ p.2.userId = 1 ∧ p.2.tokenId = 7 ∧
        perCall p.2 = false ∧ (p.1.userQuota 1).isSome ∧
        (p.1.tokens.find? 7).map TokenRow.key = some "key")) = some true := by decide +kernel
  obtain ⟨⟨w, task⟩, hplay, he⟩ := map_eq_some_iff.mp hplay
  obtain ⟨hquota, hsource, huser, htoken, hcall, hhas, hkey⟩ := of_decide_eq_true he
  obtain ⟨s, hrelay, rfl⟩ := playTask_cases hplay
  have hconfirms : Confirms ⟨s.state.state, task, 0, 0⟩ (costing 80) := by
    intro q hq
    have : some q = some 80 := hq.symm.trans (by simp [completedQuota, hcall, costing])
    cases this
    exact .inr hquota.symm
  have hstep : TaskRun plainConfig Confirms ⟨s.state.state, task, 0, 0⟩
      (TaskLife.billed ⟨s.state.state, task, 0, 0⟩ task s.state.state) := by
    have hrun : run (withMoves faultyBill) (completeTask plainConfig plainContext task (costing 80))
        (before s.state.state [] []) = some ((task, task), before s.state.state [] []) := by
      rw [completeTask_of_confirmed hconfirms]
      rfl
    have hdone := TaskStep.complete plainContext (costing 80) hconfirms
      (fun m hm => (by cases hm)) hrun
    exact .single hdone
  have hready : Ready (plainRequest "wallet_only") (plainTables .empty)
      (plainWorld 1000 1000 .empty).ledger :=
    ⟨rfl, rfl, rfl, rfl, fun id used h => (by cases h), fun row h => (by cases h)⟩
  have hafford : Affordable plainSettings (plainRequest "wallet_only") (asking 100 [4 / 5])
      (plainTables .empty) := by
    rintro n sub hsub
    cases hsub
    exact ⟨by decide +kernel, by decide +kernel, fun row h => (by cases h)⟩
  obtain ⟨hnet, hrefund⟩ := stored_quota_is_net_amount plainConfig plainContext plainSettings
    (plainRequest "wallet_only") (asking 100 [4 / 5]) (plainTables .empty)
    (plainWorld 1000 1000 .empty) task [] s _ hready hafford (nofun) hrelay hstep
  refine ⟨s.state.state, task, hplay, hquota, hnet, ?_⟩
  rw [← hquota]
  have hnot : ¬ taskIsSubscription task := fun h => by
    rw [taskIsSubscription, hsource] at h
    cases h.1
  obtain ⟨row, hrow, hrowkey⟩ := map_eq_some_iff.mp hkey
  refine hrefund ⟨fun _ => ?_, fun h => (hnot h).elim, ?_, row, ?_, ?_⟩
  · exact huser ▸ hhas
  · exact htoken ▸ (by decide)
  · exact htoken ▸ hrow
  · exact hrowkey ▸ (by decide)

/-- A subscription refuses to go from 60 to the 150 that the row is given; and a task of 100
that is found to cost 150 keeps 100 in its row. -/
theorem unsettled_row_overstates : (∃ w task, playTask "subscription_only" 60 [5 / 2]
        (plainWorld 1000 1000 ⟨[plainSub 5 100 0], by decide⟩) = some (w, task) ∧
      ¬ StoredIsNet plainConfig plainContext (plainWorld 1000 1000 ⟨[plainSub 5 100 0], by decide⟩) w
        ⟨w, task, 0, 0⟩) ∧
    ∃ w task l, playTask "wallet_only" 100 [] (plainWorld 1000 1000 .empty) = some (w, task) ∧
      TaskRun plainConfig (fun _ _ => True) ⟨w, task, 0, 0⟩ l ∧
      ¬ StoredIsNet plainConfig plainContext (plainWorld 1000 1000 .empty) w l := by
  constructor
  · have hplay : ((playTask "subscription_only" 60 [5 / 2]
        (plainWorld 1000 1000 ⟨[plainSub 5 100 0], by decide⟩)).map fun p =>
        (p.2.quota, tokenUsed p.2 p.1.ledger, tokenUsed p.2
          (plainWorld 1000 1000 ⟨[plainSub 5 100 0], by decide⟩).ledger)) =
        some (150, -940, -1000) := by decide +kernel
    obtain ⟨⟨w, task⟩, hplay, he⟩ := map_eq_some_iff.mp hplay
    simp only [Prod.mk.injEq] at he
    obtain ⟨hquota, hafter, hbefore⟩ := he
    refine ⟨w, task, hplay, ?_⟩
    rintro ⟨-, htoken⟩
    dsimp only at htoken
    omega
  · have hplay : ((playTask "wallet_only" 100 [] (plainWorld 1000 1000 .empty)).bind fun p =>
        (run (withMoves faultyBill) (completeTask plainConfig plainContext p.2 (costing 150))
          (before p.1 [] [])).map fun q =>
          (q.1.1.quota, tokenUsed q.1.1 p.1.ledger, tokenUsed q.1.1 (plainWorld 1000 1000 .empty).ledger,
            tokenUsed q.1.1 q.2.state.state.ledger)) =
        some (100, -900, -1000, -850) := by decide +kernel
    obtain ⟨⟨w, task⟩, hplay, hcomplete⟩ := bind_eq_some_iff.mp hplay
    obtain ⟨⟨⟨row, settled⟩, s'⟩, hrun, he⟩ := map_eq_some_iff.mp hcomplete
    simp only [Prod.mk.injEq] at he
    obtain ⟨hquota, hafter, hbefore, hlater⟩ := he
    refine ⟨w, task, TaskLife.billed ⟨w, task, 0, 0⟩ row s'.state.state, hplay,
      .single (.complete plainContext (costing 150) trivial (fun m hm => (by cases hm)) hrun), ?_⟩
    rintro ⟨-, htoken⟩
    dsimp only [TaskLife.billed] at htoken
    omega

end TaskBilling
