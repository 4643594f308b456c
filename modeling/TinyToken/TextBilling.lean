import TinyToken.TieredBilling
import TinyToken.BillingCharges

/-! The end of a text request (`service/text_quota.go`): the quota of the reported usage, and
`PostTextConsumeQuota`, which writes it to three places: the used quotas of user and channel,
the funding source, and the consume log. -/
namespace TextBilling

open ProgramSteps ProgramOutcomes ReadCommittedStore Db SubscriptionRows SubscriptionAlone
  SubscriptionTransactions BillingStore BillingAccounts BillingSession BillingEffects BillingCharges
  BillingLifecycle BillingExpressions TieredBilling Option

structure PriceData where
  usePrice : Bool
  modelPrice : ℚ
  modelRatio : ℚ
  groupRatio : ℚ
  completionRatio : ℚ
  cacheRatio : ℚ
  imageRatio : ℚ
  cacheCreationRatio : ℚ
  cacheCreation5mRatio : ℚ
  cacheCreation1hRatio : ℚ
  otherRatios : List ℚ

/-- Calls of the tools the upstream runs by itself. `builtIn` counts web and file searches,
where the request came as a responses request. -/
structure ToolCalls where
  builtIn : Option (ℤ × ℤ)
  claudeWebSearchRequests : ℤ
  imageGenerationCall : Option ℚ

structure ToolPrices where
  webSearchPreview : ℚ
  webSearch : ℚ
  fileSearch : ℚ
  geminiInputAudio : ℚ

structure TextRequest where
  modelName : String
  price : PriceData
  quotaPerUnit : ℚ
  claudeFormat : Bool
  openRouter : Bool
  customModelRatio : Bool
  estimatePromptTokens : ℤ
  tools : ToolCalls
  toolPrices : ToolPrices
  snapshot : Option BillingSnapshot
  input : RequestInput
  clock : ZoneClock
  sprint : ℚ → String
  logConsumeEnabled : Bool

def searchPreview (modelName : String) : Bool :=
  "search-preview".toList.isSuffixOf modelName.toList

variable (req : TextRequest)

def callsQuota (price : ℚ) (calls : ℤ) : ℚ :=
  if calls > 0 then price * calls / 1000 * req.price.groupRatio * req.quotaPerUnit else 0

def calculateTextToolCallSurcharge : ℚ :=
  let web := match req.tools.builtIn with
    | some (webSearches, _) => callsQuota req req.toolPrices.webSearchPreview webSearches
    | none =>
      if searchPreview req.modelName then callsQuota req req.toolPrices.webSearchPreview 1 else 0
  let file := match req.tools.builtIn with
    | some (_, fileSearches) => callsQuota req req.toolPrices.fileSearch fileSearches
    | none => 0
  let image := match req.tools.imageGenerationCall with
    | some price => price * req.price.groupRatio * req.quotaPerUnit
    | none => 0
  web + callsQuota req req.toolPrices.webSearch req.tools.claudeWebSearchRequests + file + image

structure TextQuotaSummary where
  totalTokens : ℤ
  quota : ℤ
  isClaudeUsageSemantic : Bool
  toolCallSurchargeQuota : ℚ

variable (summary : TextQuotaSummary) (info : RelayInfo) (usage : Option Usage) (u : Usage)

def usageSemanticFromUsage : String :=
  match usage with
  | some u =>
    if u.usageSemantic ≠ "" then u.usageSemantic
    else if req.claudeFormat then "anthropic" else "openai"
  | none => if req.claudeFormat then "anthropic" else "openai"

def isLegacyClaudeDerivedOpenAIUsage : Bool :=
  !req.claudeFormat && u.usageSource == "" && u.usageSemantic == "" &&
    (decide (u.claudeCacheCreation5mTokens > 0) || decide (u.claudeCacheCreation1hTokens > 0))

def estimatedUsage : Usage :=
  ⟨req.estimatePromptTokens, 0, 0, 0, 0, 0, 0, 0, 0, 0, "", "", none⟩

def calcOpenRouterCacheCreateTokens : ℤ :=
  if req.price.cacheCreationRatio = 1 then 0
  else
    let quotaPrice := req.price.modelRatio / req.quotaPerUnit
    quotaRound ((u.cost.getD 0 - u.promptTokens * quotaPrice +
      u.cachedTokens * (quotaPrice - quotaPrice * req.price.cacheRatio) -
      u.completionTokens * (quotaPrice * req.price.completionRatio)) /
      (quotaPrice * req.price.cacheCreationRatio - quotaPrice))

/-- Prompt and written tokens as they are billed. OpenRouter reports Anthropic prompts with what
was read from and written to the cache. The check `usage.Cost != 0` compares an interface with
an `int` and lets every cost through. -/
def billedPrompt (isClaude : Bool) (u : Usage) : ℤ × ℤ :=
  if req.openRouter && isClaude then
    let prompt := u.promptTokens - u.cachedTokens
    let guess := calcOpenRouterCacheCreateTokens req u
    let creation :=
      if u.cachedCreationTokens = 0 ∧ req.price.cacheCreationRatio ≠ 1 ∧
          ¬ (req.price.usePrice ∨ req.customModelRatio) ∧ guess ≥ 0 ∧ prompt ≥ guess then guess
      else u.cachedCreationTokens
    (prompt - creation, creation)
  else (u.promptTokens, u.cachedCreationTokens)

/-- Tokens written to the cache at their prices; Anthropic tells how long they are kept. -/
def creationWithRatio (included : Bool) (creation : ℤ) (u : Usage) : ℚ :=
  if included then creation * req.price.cacheCreationRatio
  else
    ((Max.max 0 (creation - u.claudeCacheCreation5mTokens - u.claudeCacheCreation1hTokens) : ℤ) : ℚ)
      * req.price.cacheCreationRatio +
    u.claudeCacheCreation5mTokens * req.price.cacheCreation5mRatio +
    u.claudeCacheCreation1hTokens * req.price.cacheCreation1hRatio

/-- The quota of the counted tokens before the other ratios. `included` tells whether the prompt
counts the cached tokens too. -/
def tokensQuota (isClaude included : Bool) (u : Usage) (surcharge : ℚ) : ℚ :=
  let (prompt, creation) := billedPrompt req isClaude u
  let wrote := creation ≠ 0 ∨ u.claudeCacheCreation5mTokens > 0 ∨ u.claudeCacheCreation1hTokens > 0
  let audio := if u.audioTokens ≠ 0 ∧ req.toolPrices.geminiInputAudio > 0 then u.audioTokens else 0
  let base : ℤ := prompt - (if included then u.cachedTokens else 0) -
    (if included ∧ wrote then creation else 0) - u.imageTokens - audio
  let promptQuota := base + u.cachedTokens * req.price.cacheRatio +
    u.imageTokens * req.price.imageRatio +
    (if wrote then creationWithRatio req included creation u else 0)
  let audioInputQuota :=
    req.toolPrices.geminiInputAudio / 1000000 * audio * req.price.groupRatio * req.quotaPerUnit
  (promptQuota + u.completionTokens * req.price.completionRatio) *
    (req.price.modelRatio * req.price.groupRatio) + surcharge + audioInputQuota

def calculateTextQuotaSummary : TextQuotaSummary :=
  let isClaude := usageSemanticFromUsage req usage == "anthropic"
  let u := usage.getD (estimatedUsage req)
  let ratio := req.price.modelRatio * req.price.groupRatio
  let surcharge := calculateTextToolCallSurcharge req
  let quota :=
    if req.price.usePrice then
      quotaRound ((req.price.modelPrice * req.quotaPerUnit * req.price.groupRatio + surcharge) *
        req.price.otherRatios.prod)
    else
      let included := !isClaude && !isLegacyClaudeDerivedOpenAIUsage req u
      let total := tokensQuota req isClaude included u surcharge * req.price.otherRatios.prod
      quotaRound (if ratio ≠ 0 ∧ total ≤ 0 then 1 else total)
  { totalTokens := u.promptTokens + u.completionTokens
    quota :=
      if u.promptTokens + u.completionTokens = 0 then 0
      else if ratio ≠ 0 ∧ quota = 0 then 1 else quota
    isClaudeUsageSemantic := isClaude
    toolCallSurchargeQuota := surcharge }

def composeTieredTextQuota (tieredQuota : ℤ) (result : Option TieredResult) : ℤ :=
  if summary.toolCallSurchargeQuota = 0 then tieredQuota
  else
    match result, req.snapshot with
    | some r, some snap =>
      quotaRound (r.actualQuotaBeforeGroup * snap.groupRatio + summary.toolCallSurchargeQuota)
    | _, _ => tieredQuota + quotaRound summary.toolCallSurchargeQuota

def tieredEnv : Env :=
  ⟨buildTieredTokenParams u summary.isClaudeUsageSemantic fun v =>
    match req.snapshot with
    | some snap => snap.expr.uses v
    | none => false, req.input, req.clock, req.sprint⟩

/-- The summary that is written, unless a float of the expression has no exact value. A quota by
an expression replaces the other, also where no tokens were counted. -/
def textQuota (finalPreConsumedQuota : ℤ) (usage : Option Usage) : Option TextQuotaSummary :=
  let summary := calculateTextQuotaSummary req usage
  match usage with
  | none => some summary
  | some u =>
    match tryTieredSettle req.snapshot finalPreConsumedQuota (tieredEnv req summary u) with
    | .notTiered => some summary
    | .tiered quota result =>
      some { summary with quota := composeTieredTextQuota req summary quota result }
    | .undefined => none

/-- What the request leaves in the used quotas and in the log, if one is kept. -/
structure Postings where
  userUsed : ℤ
  channelUsed : ℤ
  logged : Option ℤ
  deriving DecidableEq

def postings : Postings :=
  { userUsed := if summary.totalTokens = 0 then 0 else summary.quota
    channelUsed := if summary.totalTokens = 0 then 0 else summary.quota
    logged := if req.logConsumeEnabled then some summary.quota else none }

def postTextConsumeQuota (cfg : Config) (c : Context) (req : TextRequest) (info : RelayInfo)
    (billing : Option Session) (usage : Option Usage) : BillProg (Option Postings) :=
  match textQuota req info.finalPreConsumedQuota usage with
  | none => pure none
  | some summary => do
    let _ ← settleBilling cfg c info billing summary.quota
    pure (some (postings req summary))

def Postings.Show (p : Postings) (amount : ℤ) : Prop :=
  p.userUsed = amount ∧ p.channelUsed = amount ∧ ∀ q, p.logged = some q → q = amount

instance (p : Postings) (amount : ℤ) : Decidable (p.Show amount) :=
  inferInstanceAs (Decidable (_ ∧ _ ∧ ∀ q, p.logged = some q → q = amount))

def sourceOf (s : Session) : Account :=
  match s.funding with
  | .wallet w => .wallet w.userId
  | .subscription f => .subscription f.subscriptionId

/-- The account can go up or down by `delta`: the row of the user is there, or the counter of
the subscription stays between 0 and its total. -/
def Accepts (t : Tables) (a : Ledger) (account : Account) (delta : ℤ) : Prop :=
  delta = 0 ∨ match account with
    | .wallet userId => (a.wallet userId).isSome
    | .subscription id => 0 < id ∧ ∃ total used, Counter t id total used ∧ 0 ≤ used + delta ∧
        (total ≤ 0 ∨ used + delta ≤ total)

section Levels

variable {cfg : Config} {c : Context} {t : Tables} {a a' : Ledger} {delta : ℤ} {account : Account}

@[simp] theorem used_tokenCharged (info : RelayInfo) (quota : ℤ) :
    account.used (tokenCharged info quota a) = account.used a := by
  cases account <;> simp [Account.used]

theorem accepts_zero : Accepts t a account 0 := .inl rfl

theorem addWallet_moves_iff (userId : ℤ) (hd : delta ≠ 0) :
    (Account.wallet userId).used (a.addWallet userId (-delta)) =
        (Account.wallet userId).used a + delta ↔ Accepts t a (.wallet userId) delta := by
  constructor
  · intro h
    refine .inr ?_
    by_contra hnone
    simp only [Account.used, Ledger.addWallet, Function.update_self,
      not_isSome_iff_eq_none.mp hnone, map_none, getD_none] at h
    omega
  · rintro (hzero | hsome)
    · exact absurd hzero hd
    · rw [used_addWallet hsome]
      omega

theorem adjusted_moves_iff {id : ℤ} (hd : delta ≠ 0) (ha : a.subs = idle t)
    (hpost : postConsume t id delta = (.ok (), adjusted t id delta)) :
    (Account.subscription id).used { a with subs := idle (adjusted t id delta) } =
        (Account.subscription id).used a + delta ↔ Accepts t a (.subscription id) delta := by
  have hrow : 0 < id ∧ ∃ total used, Counter t id total used := by
    unfold postConsume at hpost
    split at hpost
    · cases hpost
    split at hpost
    · cases hpost
    rename_i row hrow
    exact ⟨by omega, _, _, row, hrow, rfl, rfl⟩
  obtain ⟨hid, total, used, hcounter⟩ := hrow
  rw [used_counter ha hcounter, used_counter rfl (counter_adjusted delta hcounter)]
  constructor
  · intro h
    refine .inr ⟨hid, total, used, hcounter, ?_, ?_⟩
    · rw [← h]
      unfold clampUsed
      split <;> omega
    · rw [← h]
      exact total_of_postConsume hcounter hd hpost
  · rintro (hzero | ⟨-, total', used', hcounter', hlow, -⟩)
    · exact absurd hzero hd
    · have hsame := (counter_usedOf hcounter).symm.trans (counter_usedOf hcounter')
      cases hsame
      exact clampUsed_of_nonneg hlow

theorem taken_moves_iff {s : Session} (hd : delta ≠ 0) (ha : a.subs = idle t)
    (h : Taken t delta a s.funding a') :
    (sourceOf s).used a' = (sourceOf s).used a + delta ↔ Accepts t a (sourceOf s) delta := by
  unfold sourceOf
  generalize s.funding = funding at h
  cases h with
  | wallet w => exact addWallet_moves_iff w.userId hd
  | subscription f hpost => exact adjusted_moves_iff hd ha hpost

theorem postConsume_of_accepts {id : ℤ} (hd : delta ≠ 0) (h : Accepts t a (.subscription id) delta) :
    (postConsume t id delta).1 = .ok () := by
  rcases h with hzero | ⟨hid, total, used, hcounter, hlow, hhigh⟩
  · exact absurd hzero hd
  · exact (counter_postConsume delta hcounter hid hlow hhigh).1

/-- Where no write fails, the settlement moves the account by the difference exactly where the
account accepts it. -/
theorem always_settle_moves_iff {s : Session} (ha : a.subs = idle t) (hopen : s.settled = false)
    (hunsettled : s.fundingSettled = false) (actualQuota : ℤ) :
    always (effects fun _ => False) (s.settle cfg c actualQuota)
      (fun _ a' => (sourceOf s).used a' = (sourceOf s).used a + (actualQuota - s.preConsumedQuota) ↔
        Accepts t a (sourceOf s) (actualQuota - s.preConsumedQuota)) a := by
  by_cases hd : actualQuota - s.preConsumedQuota = 0
  · rw [hd, add_zero]
    apply always_mono (always_settle (fun h => h) ha (fun _ => hunsettled) actualQuota)
    rintro ⟨s', r⟩ a' ho
    cases ho with
    | again hs => exact absurd (hopen.symm.trans hs) (by decide)
    | even hs hq | refused e hs => exact iff_of_true rfl accepts_zero
    | moved hs hq htaken => omega
  have hok : always (effects fun _ => False) (s.settle cfg c actualQuota)
      (fun p _ => Accepts t a (sourceOf s) (actualQuota - s.preConsumedQuota) → p.2 = .ok ()) a := by
    by_cases haccept : Accepts t a (sourceOf s) (actualQuota - s.preConsumedQuota)
    · refine always_mono (always_settle_ok (fun h => h) ha hunsettled fun f hf => ?_)
        fun p _ h _ => h
      simp only [sourceOf, hf] at haccept
      exact postConsume_of_accepts hd haccept
    · exact always_of_forall fun p _ h => absurd h haccept
  apply always_mono (always_and (always_settle (fun h => h) ha (fun _ => hunsettled) actualQuota) hok)
  rintro ⟨s', r⟩ a' ⟨ho, hr⟩
  cases ho with
  | again hs => exact absurd (hopen.symm.trans hs) (by decide)
  | even hs hq => omega
  | refused e hs =>
    refine iff_of_false (by omega) fun haccept => ?_
    cases hr haccept
  | moved hs hq htaken =>
    rw [used_tokenCharged]
    exact taken_moves_iff hd ha htaken

theorem always_settleBilling_unbilled {info : RelayInfo} (hfree : info.finalPreConsumedQuota = 0)
    (hsource : info.billingSource ≠ .subscription) (actualQuota : ℤ) :
    always (effects fun _ => False) (settleBilling cfg c info none actualQuota)
      (fun _ a' => (Account.wallet info.userId).used a' =
          (Account.wallet info.userId).used a + actualQuota ↔
        Accepts t a (.wallet info.userId) actualQuota) a := by
  unfold settleBilling
  rw [hfree, sub_zero]
  by_cases hd : actualQuota = 0
  · rw [if_pos hd, hd, add_zero]
    exact iff_of_true rfl accepts_zero
  · rw [if_neg hd]
    refine always_seq (always_postConsumeQuota (fun h => h) hsource actualQuota) ?_
    rintro p a' ⟨-, rfl⟩
    change (Account.used (charged info actualQuota a) _ = _ ↔ _)
    rw [charged, used_tokenCharged]
    exact addWallet_moves_iff info.userId hd

end Levels

inductive Opening (cfg : Config) (c : Context) (info : RelayInfo) (advance : ℤ) (w : World) :
    Option Session → World → Prop
  | free : Opening cfg c info advance w none w
  | charged {w' : World} {s : Session} {moves rest : List (World → World)} :
      Unseen World.ledger ⟨w, moves⟩ →
      run (withMoves handleBill) (preConsumeBilling cfg c advance info) ⟨w, moves⟩ =
        some (.ok s, ⟨w', rest⟩) →
      Opening cfg c info advance w (some s) w'

def accountOf : Option Session → Account
  | none => .wallet info.userId
  | some s => sourceOf s

def advanceOf : Option Session → ℤ
  | none => 0
  | some s => s.preConsumedQuota

def infoOf : Option Session → RelayInfo
  | none => info
  | some s => s.relayInfo

structure Ready (info : RelayInfo) (advance : ℤ) (t : Tables) (a : Ledger) : Prop where
  idle : a.subs = idle t
  advance : 0 ≤ advance
  fresh : t.records.find? info.requestId = none
  counters : Nonnegative t
  ids : ∀ row ∈ t.subs.rows, 0 < row.id
  user : (a.wallet info.userId).isSome
  unbilled : info.finalPreConsumedQuota = 0
  source : info.billingSource ≠ .subscription

section Requests

variable {cfg : Config} {c : Context} {info : RelayInfo} {advance : ℤ} {t : Tables}
  {w w₀ w₁ : World} {billing : Option Session} {req : TextRequest} {usage : Option Usage}

theorem opened_level {s : Session} {a₀ a : Ledger} (hready : Ready info advance t a₀)
    (hopened : Opened cfg c info advance t a₀ s a) : ∃ base, Base cfg c (sourceOf s) a₀ base ∧
      (sourceOf s).used a = base + s.preConsumedQuota ∧ s.settled = false ∧
      s.fundingSettled = false := by
  rcases opened_account hready.advance hready.fresh hready.counters hready.ids hopened with
    haccount | ⟨f, total, base, t', hsub, haccount, hdrawn⟩
  · obtain ⟨hopen, -, hunsettled, -, -⟩ := haccount.phase
    obtain ⟨consumed, hfunding, -⟩ := haccount.funding
    have hsource : sourceOf s = .wallet info.userId := by simp only [sourceOf, hfunding]
    refine ⟨(sourceOf s).used a₀, .inl rfl, ?_, hopen, hunsettled⟩
    rw [hsource, haccount.ledger, addWallet_tokenCharged, used_tokenCharged,
      used_addWallet hready.user]
    change _ - -s.preConsumedQuota = _
    omega
  · obtain ⟨hopen, -, hunsettled, -, -⟩ := haccount.phase
    have hsource : sourceOf s = .subscription f.subscriptionId := by
      simp only [sourceOf, haccount.funding]
    rw [hsource]
    have hidle : a.subs = Db.idle t' := by rw [haccount.ledger]
    exact ⟨base, base_of_drawn hready.idle hdrawn, used_counter hidle haccount.counter, hopen,
      hunsettled⟩

section

variable (hready : Ready info advance t w₀.ledger)
include hready

theorem always_preConsumeBilling :
    always (effects fun _ => False) (preConsumeBilling cfg c advance info)
      (fun r a => ∀ s, r = .ok s → Opened cfg c info advance t w₀.ledger s a) w₀.ledger := by
  refine always_seq (always_newBillingSession (fun h => h) hready.advance hready.idle) ?_
  rintro ⟨info', r⟩ a h
  cases r with
  | error e =>
    intro s hs
    cases hs
  | ok s =>
    intro s' hs
    cases hs
    exact h

theorem opening_level (h : Opening cfg c info advance w₀ billing w₁) : ∃ base,
    Base cfg c (accountOf info billing) w₀.ledger base ∧
    (accountOf info billing).used w₁.ledger = base + advanceOf billing ∧
    ∀ s, billing = some s → s.settled = false ∧ s.fundingSettled = false := by
  cases h with
  | free =>
    refine ⟨_, .inl rfl, (add_zero _).symm, fun s hs => ?_⟩
    cases hs
  | @charged w₁ s moves rest hquiet hrun =>
    have hopened := runs_unfailing hquiet (always_preConsumeBilling hready) hrun s rfl
    obtain ⟨base, hbase, hlevel, hopen, hunsettled⟩ := opened_level hready hopened
    refine ⟨base, hbase, hlevel, fun s' hs => ?_⟩
    cases hs
    exact ⟨hopen, hunsettled⟩

theorem opening_idle (h : Opening cfg c info advance w₀ billing w₁) : ∃ t', w₁.subs = idle t' := by
  cases h with
  | free => exact ⟨t, hready.idle⟩
  | @charged w₁ s moves rest hquiet hrun =>
    have hopened := runs_unfailing hquiet (always_preConsumeBilling hready) hrun s rfl
    change ∃ t', w₁.ledger.subs = idle t'
    rcases opened_account hready.advance hready.fresh hready.counters hready.ids hopened with
      haccount | ⟨f, total, base, t', hsub, haccount, -⟩
    · refine ⟨t, ?_⟩
      rw [haccount.ledger]
      exact (tokenCharged_subs w₀.ledger info _).trans hready.idle
    · refine ⟨t', ?_⟩
      rw [haccount.ledger]

theorem always_settleBilling_moves_iff {t' : Tables} {a : Ledger} (hidle : a.subs = idle t')
    (hopen : ∀ s, billing = some s → s.settled = false ∧ s.fundingSettled = false)
    (actualQuota : ℤ) :
    always (effects fun _ => False) (settleBilling cfg c (infoOf info billing) billing actualQuota)
      (fun _ a' => (accountOf info billing).used a' =
          (accountOf info billing).used a + (actualQuota - advanceOf billing) ↔
        Accepts t' a (accountOf info billing) (actualQuota - advanceOf billing)) a := by
  cases billing with
  | none =>
    rw [advanceOf, sub_zero]
    exact always_settleBilling_unbilled hready.unbilled hready.source actualQuota
  | some s =>
    obtain ⟨hs, hunsettled⟩ := hopen s rfl
    apply always_seq (always_settle_moves_iff hidle hs hunsettled actualQuota)
    rintro ⟨s', r⟩ a' h
    exact h

end

theorem show_postings {summary : TextQuotaSummary} {net : ℤ} (hnet : net = summary.quota)
    (htokens : summary.totalTokens = 0 → summary.quota = 0) : (postings req summary).Show net := by
  have hcounted : (if summary.totalTokens = 0 then 0 else summary.quota) = net := by
    split
    next hzero =>
      rw [hnet, htokens hzero]
    · exact hnet.symm
  refine ⟨hcounted, hcounted, fun q hq => ?_⟩
  simp only [postings] at hq
  split at hq <;> cases hq
  exact hnet.symm

theorem postings_of_show {summary : TextQuotaSummary} {net : ℤ} (hlog : req.logConsumeEnabled = true)
    (h : (postings req summary).Show net) :
    net = summary.quota ∧ (summary.totalTokens = 0 → summary.quota = 0) := by
  obtain ⟨huser, -, hlogged⟩ := h
  have hquota : summary.quota = net := hlogged _ (if_pos hlog)
  refine ⟨hquota.symm, fun hzero => ?_⟩
  simp only [postings, if_pos hzero] at huser
  omega

/-- With no failing statement, used quotas, log and account agree on a text request where the
account accepts what is left to settle, and a request without tokens costs nothing; and
otherwise they do not, where a log is kept. -/
theorem postings_show_net_amount_iff (cfg : Config) (c c' : Context) (req : TextRequest)
    (info : RelayInfo) (advance : ℤ) (usage : Option Usage) (billing : Option Session)
    (t t' : Tables) (w₀ w₁ w : World) (moves : List (World → World)) (post : Postings)
    (s' : Moved (Faulty World String)) (hready : Ready info advance t w₀.ledger)
    (hopen : Opening cfg c info advance w₀ billing w₁) (hidle : w.subs = idle t')
    (hquiet : Unseen World.ledger ⟨w, moves⟩) (hrun : run (withMoves faultyBill)
      (postTextConsumeQuota cfg c' req (infoOf info billing) billing usage) (before w [] moves) =
        some (some post, s')) :
    ∃ base summary, Base cfg c (accountOf info billing) w₀.ledger base ∧
      textQuota req (infoOf info billing).finalPreConsumedQuota usage = some summary ∧
      let net := (accountOf info billing).used w₁.ledger - base +
        ((accountOf info billing).used s'.state.state.ledger -
          (accountOf info billing).used w.ledger)
      let agreed := Accepts t' w.ledger (accountOf info billing) (summary.quota - advanceOf billing) ∧
        (summary.totalTokens = 0 → summary.quota = 0)
      (agreed → post.Show net) ∧ (req.logConsumeEnabled = true → post.Show net → agreed) := by
  obtain ⟨base, hbase, hlevel, hfresh⟩ := opening_level hready hopen
  unfold postTextConsumeQuota at hrun
  cases hquota : textQuota req (infoOf info billing).finalPreConsumedQuota usage with
  | none =>
    rw [hquota] at hrun
    cases hrun
  | some summary =>
    rw [hquota] at hrun
    have hpost : always (effects fun _ => False)
        (settleBilling cfg c' (infoOf info billing) billing summary.quota >>= fun _ =>
          (pure (some (postings req summary)) : BillProg (Option Postings)))
        (fun p a' => p = some (postings req summary) ∧
          ((accountOf info billing).used a' = (accountOf info billing).used w.ledger +
              (summary.quota - advanceOf billing) ↔
            Accepts t' w.ledger (accountOf info billing) (summary.quota - advanceOf billing)))
        w.ledger := by
      apply always_bind.mpr
      exact always_mono (always_settleBilling_moves_iff hready hidle hfresh summary.quota)
        fun _ a' h => ⟨rfl, h⟩
    obtain ⟨hwritten, hmoved⟩ := runs_faultless hquiet hpost hrun
    cases hwritten
    refine ⟨base, summary, hbase, rfl, ?_, ?_⟩
    · rintro ⟨haccept, htokens⟩
      have hlast := hmoved.mpr haccept
      exact show_postings (by omega) htokens
    · intro hlog hshow
      obtain ⟨hnet, htokens⟩ := postings_of_show hlog hshow
      exact ⟨hmoved.mp (by omega), htokens⟩

def plainPrice : PriceData := ⟨false, 0, 1, 1, 1, 1, 1, 1, 1, 1, []⟩

def plainText : TextRequest where
  modelName := "model"
  price := plainPrice
  quotaPerUnit := 500000
  claudeFormat := false
  openRouter := false
  customModelRatio := false
  estimatePromptTokens := 0
  tools := ⟨none, 0, none⟩
  toolPrices := ⟨0, 0, 0, 0⟩
  snapshot := none
  input := .empty
  clock := noon
  sprint _ := ""
  logConsumeEnabled := true

/-- `cr * 1` -/
def cacheSnapshot : BillingSnapshot :=
  ⟨"tiered_expr", .arith .mul (.var .cr) (.int 1), 1, 0, "", 500000⟩

def playText (req : TextRequest) (billingPreference : String) (w : World) (usage : Usage) :
    Option (Session × World × Postings × Moved (Faulty World String)) :=
  (run (withMoves handleBill) (preConsumeBilling plainConfig plainContext 60
    (plainInfo billingPreference)) ⟨w, []⟩).bind fun p =>
    match p.1 with
    | .error _ => none
    | .ok s => (run (withMoves faultyBill) (postTextConsumeQuota plainConfig plainContext req
        s.relayInfo (some s) (some usage)) (before p.2.state [] [])).bind fun q =>
        q.1.map fun post => (s, p.2.state, post, q.2)

theorem playText_cases {billingPreference : String} {w w' : World} {u : Usage} {s : Session}
    {post : Postings} {s' : Moved (Faulty World String)}
    (h : playText req billingPreference w u = some (s, w', post, s')) :
    Opening plainConfig plainContext (plainInfo billingPreference) 60 w (some s) w' ∧
    run (withMoves faultyBill) (postTextConsumeQuota plainConfig plainContext req s.relayInfo
      (some s) (some u)) (before w' [] []) = some (some post, s') := by
  obtain ⟨⟨r, w₁, rest⟩, hopen, h⟩ := bind_eq_some_iff.mp h
  cases r with
  | error e => cases h
  | ok s₁ =>
    obtain ⟨⟨written, s₂⟩, hrun, h⟩ := bind_eq_some_iff.mp h
    obtain ⟨post₁, rfl, h⟩ := map_eq_some_iff.mp h
    cases h
    exact ⟨.charged (fun m hm => (by cases hm)) hopen, hrun⟩

/-- 150 tokens are paid for from the wallet. -/
theorem wallet_text_agrees : ∃ s w post s',
    playText plainText "wallet_only" (plainWorld 1000 1000 .empty) (plainUsage 100 50) =
      some (s, w, post, s') ∧ s'.state.state.ledger.wallet 1 = some 850 ∧ post.Show 150 := by
  have hplay : ((playText plainText "wallet_only" (plainWorld 1000 1000 .empty)
      (plainUsage 100 50)).map fun p => decide (p.2.2.2.state.state.ledger.wallet 1 = some 850 ∧
        p.2.1.ledger.wallet 1 = some 940 ∧ sourceOf p.1 = .wallet 1)) = some true := by
    decide +kernel
  obtain ⟨⟨s, w, post, s'⟩, hplay, he⟩ := map_eq_some_iff.mp hplay
  obtain ⟨hafter, hbetween, hsource⟩ := of_decide_eq_true he
  obtain ⟨hopen, hrun⟩ := playText_cases hplay
  have hready : Ready (plainInfo "wallet_only") 60 (plainTables .empty)
      (plainWorld 1000 1000 .empty).ledger :=
    ⟨rfl, by decide, rfl, fun id used h => (by cases h), fun row h => (by cases h), rfl, rfl,
      by decide⟩
  obtain ⟨t', hidle⟩ := opening_idle hready hopen
  obtain ⟨base, summary, hbase, hquota, hagree, -⟩ := postings_show_net_amount_iff plainConfig
    plainContext plainContext plainText (plainInfo "wallet_only") 60 (some (plainUsage 100 50))
    (some s) (plainTables .empty) t' (plainWorld 1000 1000 .empty) w w [] post s' hready hopen hidle
    (nofun) hrun
  have hsummary : calculateTextQuotaSummary plainText (some (plainUsage 100 50)) = summary :=
    some.inj hquota
  have hcosts : summary.quota = 150 ∧ summary.totalTokens = 150 := by
    rw [← hsummary]
    decide +kernel
  simp only [accountOf, hsource] at hbase hagree
  have hstart : base = -1000 := by
    rcases hbase with rfl | ⟨id, h, -⟩
    · rfl
    · cases h
  have hshow := hagree ⟨.inr (isSome_of_eq_some hbetween), fun h => by omega⟩
  simp only [Account.used, hafter, hbetween, hstart] at hshow
  exact ⟨s, w, post, s', hplay, hafter, hshow⟩

/-- A subscription refuses to go from 60 to the 150 that counters and log are given; and an
expression charges for an answer without tokens that the counters leave out. -/
theorem counters_and_log_disagree : (∃ s w post s', playText plainText "subscription_only"
        (plainWorld 1000 1000 ⟨[plainSub 5 100 0], by decide⟩) (plainUsage 100 50) =
          some (s, w, post, s') ∧ sourceOf s = .subscription 5 ∧ post = ⟨150, 150, some 150⟩ ∧
        (Account.subscription 5).used s'.state.state.ledger = 60 ∧ ¬ post.Show 60) ∧
    ∃ s w post s', playText { plainText with snapshot := some cacheSnapshot } "wallet_only"
        (plainWorld 1000 1000 .empty) { plainUsage 0 0 with cachedTokens := 200 } =
          some (s, w, post, s') ∧ post = ⟨0, 0, some 100⟩ ∧
        s'.state.state.ledger.wallet 1 = some 900 ∧ ¬ post.Show 100 := by
  constructor
  · have hplay : ((playText plainText "subscription_only"
        (plainWorld 1000 1000 ⟨[plainSub 5 100 0], by decide⟩) (plainUsage 100 50)).map fun p =>
        decide (sourceOf p.1 = .subscription 5 ∧ p.2.2.1 = ⟨150, 150, some 150⟩ ∧
          (Account.subscription 5).used p.2.2.2.state.state.ledger = 60)) = some true := by
      decide +kernel
    obtain ⟨⟨s, w, post, s'⟩, hplay, he⟩ := map_eq_some_iff.mp hplay
    obtain ⟨hsource, rfl, hlevel⟩ := of_decide_eq_true he
    exact ⟨s, w, _, s', hplay, hsource, rfl, hlevel, by decide⟩
  · have hplay : ((playText { plainText with snapshot := some cacheSnapshot } "wallet_only"
        (plainWorld 1000 1000 .empty) { plainUsage 0 0 with cachedTokens := 200 }).map fun p =>
        decide (p.2.2.1 = ⟨0, 0, some 100⟩ ∧
          p.2.2.2.state.state.ledger.wallet 1 = some 900)) = some true := by
      decide +kernel
    obtain ⟨⟨s, w, post, s'⟩, hplay, he⟩ := map_eq_some_iff.mp hplay
    obtain ⟨rfl, hlevel⟩ := of_decide_eq_true he
    exact ⟨s, w, _, s', hplay, rfl, hlevel, by decide⟩

end Requests

end TextBilling
