import TinyToken.BillingExpressions
import TinyToken.BillingLifecycle

/-! Tiered billing: the snapshot of an expression that is frozen when a request is priced, the
token counts of an answer, and the quota the settlement makes of both. -/
namespace TieredBilling

open ProgramSteps ProgramOutcomes ReadCommittedStore Db SubscriptionRows BillingStore
  BillingAccounts BillingSession BillingEffects BillingLifecycle BillingExpressions Option

def quotaRound (x : ℚ) : ℤ := if 0 ≤ x then ⌊x + 1 / 2⌋ else ⌈x - 1 / 2⌉

structure BillingSnapshot where
  billingMode : String
  expr : Expr
  groupRatio : ℚ
  estimatedQuotaAfterGroup : ℤ
  estimatedTier : String
  quotaPerUnit : ℚ

structure TieredResult where
  actualQuotaBeforeGroup : ℚ
  actualQuotaAfterGroup : ℤ
  matchedTier : String
  crossedTier : Bool

def runProgram (env : Env) (e : Expr) : Except Fault (ℚ × TraceResult) :=
  if e.compiles then do
    let (v, t) ← eval env e ⟨"", 0⟩
    pure (← v.float!, t)
  else .error (.runtime "expr compile error")

def quotaConversion (exprOutput quotaPerUnit : ℚ) : ℚ := exprOutput / 1000000 * quotaPerUnit

def computeTieredQuotaWithRequest (snap : BillingSnapshot) (env : Env) : Except Fault TieredResult := do
  let (cost, trace) ← runProgram env snap.expr
  pure {
    actualQuotaBeforeGroup := quotaConversion cost snap.quotaPerUnit
    actualQuotaAfterGroup := quotaRound (quotaConversion cost snap.quotaPerUnit * snap.groupRatio)
    matchedTier := trace.matchedTier
    crossedTier := trace.matchedTier ≠ snap.estimatedTier }

inductive Settled where
  | notTiered
  | tiered (quota : ℤ) (result : Option TieredResult)
  | undefined

/-- A request whose expression cannot be run costs what has been charged in advance, or what
was estimated. -/
def fallbackQuota (snap : BillingSnapshot) (finalPreConsumedQuota : ℤ) : ℤ :=
  if finalPreConsumedQuota ≤ 0 then snap.estimatedQuotaAfterGroup else finalPreConsumedQuota

def tryTieredSettle (snap : Option BillingSnapshot) (finalPreConsumedQuota : ℤ) (env : Env) : Settled :=
  match snap with
  | none => .notTiered
  | some snap =>
    if snap.billingMode ≠ "tiered_expr" then .notTiered
    else
      match computeTieredQuotaWithRequest snap env with
      | .ok r => .tiered r.actualQuotaAfterGroup (some r)
      | .error (.runtime _) => .tiered (fallbackQuota snap finalPreConsumedQuota) none
      | .error .notRational => .undefined

/-- The counts of an answer; `cost` is what the channel says it has charged. -/
structure Usage where
  promptTokens : ℤ
  completionTokens : ℤ
  cachedTokens : ℤ
  cachedCreationTokens : ℤ
  imageTokens : ℤ
  audioTokens : ℤ
  completionImageTokens : ℤ
  completionAudioTokens : ℤ
  claudeCacheCreation5mTokens : ℤ
  claudeCacheCreation1hTokens : ℤ
  usageSemantic : String
  usageSource : String
  cost : Option ℚ

structure Usage.Nonnegative (u : Usage) : Prop where
  prompt : 0 ≤ u.promptTokens
  completion : 0 ≤ u.completionTokens
  cached : 0 ≤ u.cachedTokens
  creation : 0 ≤ u.cachedCreationTokens
  image : 0 ≤ u.imageTokens
  audio : 0 ≤ u.audioTokens
  imageOut : 0 ≤ u.completionImageTokens
  audioOut : 0 ≤ u.completionAudioTokens
  creation5m : 0 ≤ u.claudeCacheCreation5mTokens
  creation1h : 0 ≤ u.claudeCacheCreation1hTokens

def Usage.cc5m (u : Usage) : ℤ :=
  if u.usageSemantic = "anthropic" then u.claudeCacheCreation5mTokens else u.cachedCreationTokens

def Usage.cc1h (u : Usage) : ℤ :=
  if u.usageSemantic = "anthropic" then u.claudeCacheCreation1hTokens else 0

def without (used : Bool) (tokens part : ℤ) : ℤ := if used then tokens - part else tokens

/-- What the expression prices on its own is taken out of `p` and `c`. -/
def buildTieredTokenParams (u : Usage) (isClaudeUsageSemantic : Bool) (uses : Var → Bool) :
    TokenParams :=
  let p := without (uses .ai) (without (uses .img) (without (uses .cc1h) (without (uses .cc)
    (without (uses .cr) u.promptTokens u.cachedTokens) u.cc5m) u.cc1h) u.imageTokens) u.audioTokens
  let c := without (uses .ao) (without (uses .imgO) u.completionTokens u.completionImageTokens)
    u.completionAudioTokens
  { p := Max.max 0 (if isClaudeUsageSemantic then u.promptTokens else p : ℤ)
    c := Max.max 0 (if isClaudeUsageSemantic then u.completionTokens else c : ℤ)
    len := if isClaudeUsageSemantic then (u.promptTokens + u.cachedTokens + u.cc5m + u.cc1h : ℤ)
      else (u.promptTokens : ℤ)
    cr := u.cachedTokens
    cc := u.cc5m
    cc1h := u.cc1h
    img := u.imageTokens
    imgO := u.completionImageTokens
    ai := u.audioTokens
    ao := u.completionAudioTokens }

def estimatedParams (promptTokens maxTokens : ℕ) : TokenParams :=
  ⟨promptTokens, maxTokens, promptTokens, 0, 0, 0, 0, 0, 0, 0⟩

structure TieredPrice where
  snapshot : BillingSnapshot
  quotaToPreConsume : ℤ
  freeModel : Bool

structure PriceSettings where
  billingExpr : Option Expr
  groupRatio : ℚ
  quotaPerUnit : ℚ
  enableFreeModelPreConsume : Bool

/-- `modelPriceHelperTiered`: the expression is run on the estimate. -/
def modelPriceHelperTiered (settings : PriceSettings) (promptTokens maxTokens : ℕ)
    (request : RequestInput) (clock : ZoneClock) (sprint : ℚ → String) : Except Fault TieredPrice :=
  match settings.billingExpr with
  | none => .error (.runtime "configured as tiered_expr but has no billing expression")
  | some e => do
    let (cost, trace) ← runProgram ⟨estimatedParams promptTokens maxTokens, request, clock, sprint⟩ e
    let free := !settings.enableFreeModelPreConsume && decide (settings.groupRatio = 0)
    let quota := if free then 0
      else quotaRound (quotaConversion cost settings.quotaPerUnit * settings.groupRatio)
    pure {
      snapshot := ⟨"tiered_expr", e, settings.groupRatio, quota, trace.matchedTier,
        settings.quotaPerUnit⟩
      quotaToPreConsume := quota
      freeModel := free }

def smokeBody (path : String) : Value :=
  if path = "service_tier" then .str "fast"
  else if path = "stream_options" then .object "map[include_usage:true]"
  else if path = "stream_options.include_usage" then .bool true
  else if path = "messages.#" then .float 21
  else if path = "messages" then
    .object "[1 2 3 4 5 6 7 8 9 10 11 12 13 14 15 16 17 18 19 20 21]"
  else .nil

def smokeRequests : List RequestInput :=
  [.empty, ⟨[("anthropic-beta", "fast-mode-2026-02-01")], smokeBody⟩]

def smokeVectors : List TokenParams :=
  [0, 1000, 100000, 1000000].map fun n => ⟨n, n, n, 0, 0, 0, 0, 0, 0, 0⟩

def smokeTestExpr (clock : ZoneClock) (sprint : ℚ → String) (e : Expr) : Bool :=
  smokeVectors.all fun params => smokeRequests.all fun request =>
    match runProgram ⟨params, request, clock, sprint⟩ e with
    | .ok (result, _) => 0 ≤ result
    | .error _ => false

theorem quotaRound_nonneg {x : ℚ} (h : 0 ≤ x) : 0 ≤ quotaRound x := by
  rw [quotaRound, if_pos h]
  exact Int.floor_nonneg.mpr (by linarith)

inductive Billed (cfg : Config) (c : Context) (info : RelayInfo) (advance actual : ℤ) :
    World → World → Prop
  | mk {w₀ w₁ w₂ : World} {t : Tables} {info' : RelayInfo} {s s' : Session}
      {r : Except String Unit} {moves moves' rest rest' : List (World → World)} :
      w₀.subs = idle t → t.records.find? info.requestId = none → Nonnegative t →
      (∀ row ∈ t.subs.rows, 0 < row.id) → Unseen World.ledger ⟨w₀, moves⟩ →
      run (withMoves handleBill) (newBillingSession cfg c info advance) ⟨w₀, moves⟩ =
        some ((info', .ok s), ⟨w₁, rest⟩) →
      Unseen World.ledger ⟨w₁, moves'⟩ →
      run (withMoves handleBill) (s.settle cfg c actual) ⟨w₁, moves'⟩ = some ((s', r), ⟨w₂, rest'⟩) →
      Billed cfg c info advance actual w₀ w₂

def NoGain (info : RelayInfo) (w w' : World) : Prop :=
  ∀ quota, w.ledger.wallet info.userId = some quota →
    ∃ quota', w'.ledger.wallet info.userId = some quota' ∧ quota' ≤ quota

/-- `500000` for a dollar, and no group discount. -/
def plainPrices (e : Expr) : PriceSettings := ⟨some e, 1, 500000, false⟩

def noon : ZoneClock := ⟨fun _ _ => 12⟩

def plainUsage (promptTokens completionTokens : ℤ) : Usage :=
  ⟨promptTokens, completionTokens, 0, 0, 0, 0, 0, 0, 0, 0, "", "", none⟩

/-- `param("fast") == true ? tier("fast", p * 6) : tier("base", max(p * 2 - c, 0))` -/
def guardedExpr : Expr :=
  .cond (.compare .eq (.param (.str "fast")) (.bool true))
    (.tier (.str "fast") (.arith .mul (.var .p) (.int 6)))
    (.tier (.str "base") (.max (.arith .sub (.arith .mul (.var .p) (.int 2)) (.var .c)) (.int 0)))

/-- `p * 2 - c` -/
def discountExpr : Expr := .arith .sub (.arith .mul (.var .p) (.int 2)) (.var .c)

def fastRequest : RequestInput := ⟨[], fun path => if path = "fast" then .bool true else .nil⟩

def playTiered (e : Expr) (promptTokens : ℕ) (request : RequestInput) (usage : Usage) :
    Option (TieredPrice × ℤ) :=
  match modelPriceHelperTiered (plainPrices e) promptTokens 0 request noon fun _ => "" with
  | .error _ => none
  | .ok price =>
    match tryTieredSettle (some price.snapshot) price.quotaToPreConsume
      ⟨buildTieredTokenParams usage false fun v => e.uses v, request, noon, fun _ => ""⟩ with
    | .tiered quota _ => some (price, quota)
    | _ => none

end TieredBilling
