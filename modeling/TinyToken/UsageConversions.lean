import TinyToken.ClaudeStream
import TinyToken.TextBilling

/-! Usage in the two conventions: Anthropic counts the prompt without what is read from and written
to the cache, OpenAI counts it with them. What a usage costs by ratios, and how it is parted for a
billing expression. -/
namespace UsageConversions

open ClaudeStream BillingExpressions TieredBilling TextBilling

def cacheCreationTokensForOpenAIUsage (usage : Usage) : ℤ :=
  let splitCacheCreationTokens := usage.claudeCacheCreation5mTokens + usage.claudeCacheCreation1hTokens
  if splitCacheCreationTokens = 0 then usage.cachedCreationTokens
  else if usage.cachedCreationTokens > splitCacheCreationTokens then usage.cachedCreationTokens
  else splitCacheCreationTokens

def buildOpenAIStyleUsageFromClaudeUsage (usage : Usage) : Usage :=
  let split := normalizeCacheCreationSplit usage.cachedCreationTokens
    usage.claudeCacheCreation5mTokens usage.claudeCacheCreation1hTokens
  { usage with
    claudeCacheCreation5mTokens := split.1
    claudeCacheCreation1hTokens := split.2
    promptTokens :=
      usage.promptTokens + usage.cachedTokens + cacheCreationTokensForOpenAIUsage usage
    usageSemantic := "openai"
    usageSource := "anthropic" }

def reported (u : Usage) : ChatChunks.Usage :=
  ⟨u.promptTokens, u.completionTokens, u.cachedTokens, u.cachedCreationTokens,
    u.claudeCacheCreation5mTokens, u.claudeCacheCreation1hTokens⟩

def written (u : Usage) : ℤ :=
  max u.cachedCreationTokens (u.claudeCacheCreation5mTokens + u.claudeCacheCreation1hTokens)

variable {req : TextRequest} {u : Usage}

theorem cacheCreationTokens_eq (hu : u.Nonnegative) :
    cacheCreationTokensForOpenAIUsage u = written u := by
  have := hu.creation
  simp only [cacheCreationTokensForOpenAIUsage, written]
  split <;> [skip; split] <;> omega

/-- What a Claude usage pays for written tokens is what its converted form pays for them: the plain
ratio for all, and the price of the prompt for those that only the split counts. -/
def WrittenAlike (price : PriceData) (u : Usage) : Prop :=
  ((written u - u.cachedCreationTokens : ℤ) : ℚ) +
      u.cachedCreationTokens * price.cacheCreationRatio =
    ((written u - u.claudeCacheCreation5mTokens - u.claudeCacheCreation1hTokens : ℤ) : ℚ) *
        price.cacheCreationRatio +
      u.claudeCacheCreation5mTokens * price.cacheCreation5mRatio +
      u.claudeCacheCreation1hTokens * price.cacheCreation1hRatio

instance (price : PriceData) (u : Usage) : Decidable (WrittenAlike price u) :=
  inferInstanceAs (Decidable (_ = _))

def CountedAlike (u : Usage) : Prop :=
  u.promptTokens + u.completionTokens ≠ 0 ∨ u.cachedTokens + written u = 0

theorem promptTokens_converted (hu : u.Nonnegative) :
    (buildOpenAIStyleUsageFromClaudeUsage u).promptTokens =
      u.promptTokens + u.cachedTokens + written u := by
  rw [← cacheCreationTokens_eq hu]
  rfl

theorem tokensQuota_converted (hu : u.Nonnegative) (hrouter : req.openRouter = false)
    (halike : WrittenAlike req.price u) (surcharge : ℚ) :
    tokensQuota req false true (buildOpenAIStyleUsageFromClaudeUsage u) surcharge =
      tokensQuota req true false u surcharge := by
  have htotal := hu.creation
  have h5m := hu.creation5m
  have h1h := hu.creation1h
  have hrest : max 0 (u.cachedCreationTokens - u.claudeCacheCreation5mTokens -
      u.claudeCacheCreation1hTokens) =
      written u - u.claudeCacheCreation5mTokens - u.claudeCacheCreation1hTokens := by
    simp only [written]
    omega
  have hwrote : (u.cachedCreationTokens ≠ 0 ∨
      (buildOpenAIStyleUsageFromClaudeUsage u).claudeCacheCreation5mTokens > 0 ∨
      u.claudeCacheCreation1hTokens > 0) ↔ (u.cachedCreationTokens ≠ 0 ∨
      u.claudeCacheCreation5mTokens > 0 ∨ u.claudeCacheCreation1hTokens > 0) := by
    simp only [buildOpenAIStyleUsageFromClaudeUsage, normalizeCacheCreationSplit]
    omega
  simp only [tokensQuota, billedPrompt, hrouter, promptTokens_converted hu, creationWithRatio]
  simp only [WrittenAlike] at halike
  by_cases h : u.cachedCreationTokens ≠ 0 ∨ u.claudeCacheCreation5mTokens > 0 ∨
      u.claudeCacheCreation1hTokens > 0
  · have h' := hwrote.mpr h
    simp only [buildOpenAIStyleUsageFromClaudeUsage, normalizeCacheCreationSplit] at h' ⊢
    push_cast at halike
    by_cases haudio : u.audioTokens ≠ 0 ∧ req.toolPrices.geminiInputAudio > 0
    all_goals
      simp only [h, h', hrest, haudio, Bool.false_and, Bool.false_eq_true, if_false, if_true, and_true]
      push_cast
      linear_combination (req.price.modelRatio * req.price.groupRatio) * halike
  · have h' := mt hwrote.mp h
    simp only [buildOpenAIStyleUsageFromClaudeUsage, normalizeCacheCreationSplit] at h' ⊢
    have hnone : written u = 0 := by
      simp only [written]
      omega
    by_cases haudio : u.audioTokens ≠ 0 ∧ req.toolPrices.geminiInputAudio > 0
    all_goals
      simp only [h, h', hnone, haudio, Bool.false_and, Bool.false_eq_true, if_false, if_true, and_false]
      push_cast
      ring

/-- Under these two conditions a usage costs the same in both conventions. -/
theorem converted_usage_costs_same (hu : u.Nonnegative) (hrouter : req.openRouter = false)
    (hmode : req.price.usePrice = false)
    (hsemantic : usageSemanticFromUsage req (some u) = "anthropic")
    (halike : WrittenAlike req.price u) (hcounted : CountedAlike u) :
    (calculateTextQuotaSummary req (some (buildOpenAIStyleUsageFromClaudeUsage u))).quota =
      (calculateTextQuotaSummary req (some u)).quota := by
  have hopenai : (usageSemanticFromUsage req (some (buildOpenAIStyleUsageFromClaudeUsage u)) ==
      "anthropic") = false := rfl
  have hlegacy : isLegacyClaudeDerivedOpenAIUsage req (buildOpenAIStyleUsageFromClaudeUsage u) =
      false := by
    simp [isLegacyClaudeDerivedOpenAIUsage, buildOpenAIStyleUsageFromClaudeUsage]
  have hzero : (buildOpenAIStyleUsageFromClaudeUsage u).promptTokens + u.completionTokens = 0 ↔
      u.promptTokens + u.completionTokens = 0 := by
    have := hu.prompt
    have := hu.completion
    have := hu.cached
    have := hu.creation
    rw [promptTokens_converted hu]
    simp only [CountedAlike, written] at hcounted ⊢
    omega
  have hcompletion : (buildOpenAIStyleUsageFromClaudeUsage u).completionTokens = u.completionTokens :=
    rfl
  simp only [calculateTextQuotaSummary, hopenai, hsemantic, hmode, hlegacy, hcompletion, hzero,
    beq_self_eq_true, Option.getD_some, Bool.not_true, Bool.not_false, Bool.false_and, Bool.and_true,
    Bool.false_eq_true, if_false, tokensQuota_converted hu hrouter halike]

/-- Prices of Claude: written tokens at 5/4, and at 2 if they are kept for an hour. -/
def claudeText : TextRequest :=
  { plainText with price := ⟨false, 0, 1, 1, 5, 1 / 10, 1, 5 / 4, 5 / 4, 2, []⟩ }

def claudeUsage (total tokens5m tokens1h : ℤ) : Usage :=
  ⟨10, 20, 30, total, 0, 0, 0, 0, tokens5m, tokens1h, "anthropic", "", none⟩

theorem five_minutes_cost_same : (calculateTextQuotaSummary claudeText
        (some (buildOpenAIStyleUsageFromClaudeUsage (claudeUsage 40 40 0)))).quota =
      (calculateTextQuotaSummary claudeText (some (claudeUsage 40 40 0))).quota :=
  converted_usage_costs_same (by constructor <;> decide) rfl rfl rfl (by decide +kernel)
    (by simp [CountedAlike, claudeUsage])

/-- Tokens that are kept for an hour are billed as if they were not. -/
theorem one_hour_costs_less :
    (calculateTextQuotaSummary claudeText (some (claudeUsage 40 0 40))).quota = 193 ∧
      (calculateTextQuotaSummary claudeText
        (some (buildOpenAIStyleUsageFromClaudeUsage (claudeUsage 40 0 40)))).quota = 163 := by
  decide +kernel

def SameInput (u : Usage) (claude : ClaudeUsage) : Prop :=
  claude.inputTokens = u.promptTokens ∧ claude.cacheReadInputTokens = u.cachedTokens ∧
    claude.cacheCreationInputTokens = u.cachedCreationTokens

structure SumsUp (promptTokens : ℤ) (claude : ClaudeUsage) : Prop where
  input : claude.inputTokens + claude.cacheReadInputTokens + claude.cacheCreationInputTokens =
    promptTokens
  creation : (claude.cacheCreation.getD (0, 0)).1 + (claude.cacheCreation.getD (0, 0)).2 =
    claude.cacheCreationInputTokens

theorem creation_counts (c : ChatChunks.Usage) (htotal : 0 ≤ c.cachedCreationTokens)
    (h5m : 0 ≤ c.claudeCacheCreation5mTokens) (h1h : 0 ≤ c.claudeCacheCreation1hTokens) :
    ((buildClaudeUsageFromOpenAIUsage c).cacheCreation.getD (0, 0)).1 +
        ((buildClaudeUsageFromOpenAIUsage c).cacheCreation.getD (0, 0)).2 =
      max c.cachedCreationTokens (c.claudeCacheCreation5mTokens + c.claudeCacheCreation1hTokens) := by
  unfold buildClaudeUsageFromOpenAIUsage
  dsimp only
  by_cases h : (normalizeCacheCreationSplit c.cachedCreationTokens c.claudeCacheCreation5mTokens
      c.claudeCacheCreation1hTokens).1 > 0 ∨ (normalizeCacheCreationSplit c.cachedCreationTokens
      c.claudeCacheCreation5mTokens c.claudeCacheCreation1hTokens).2 > 0
  · rw [if_pos h]
    simp only [normalizeCacheCreationSplit, Option.getD_some]
    omega
  · rw [if_neg h]
    simp only [normalizeCacheCreationSplit, Option.getD_none] at h ⊢
    omega

/-- The conversion to Anthropic's convention takes nothing out of the prompt. -/
theorem claude_usage_iff (hu : u.Nonnegative) : (SameInput u (buildClaudeUsageFromOpenAIUsage
        (reported (buildOpenAIStyleUsageFromClaudeUsage u))) ↔ u.cachedTokens + written u = 0) ∧
    (u.cachedTokens + u.cachedCreationTokens ≤ u.promptTokens →
      (SumsUp u.promptTokens (buildClaudeUsageFromOpenAIUsage (reported u)) ↔
        u.cachedTokens + u.cachedCreationTokens = 0 ∧
          u.claudeCacheCreation5mTokens + u.claudeCacheCreation1hTokens ≤ u.cachedCreationTokens)) := by
  have hcached := hu.cached
  constructor
  · have hinput : (buildClaudeUsageFromOpenAIUsage
        (reported (buildOpenAIStyleUsageFromClaudeUsage u))).inputTokens =
        u.promptTokens + u.cachedTokens + written u := promptTokens_converted hu
    constructor
    · rintro ⟨h, -, -⟩
      omega
    · intro h
      exact ⟨by omega, rfl, rfl⟩
  · intro _
    have hinput : (buildClaudeUsageFromOpenAIUsage (reported u)).inputTokens = u.promptTokens := rfl
    have hread : (buildClaudeUsageFromOpenAIUsage (reported u)).cacheReadInputTokens =
        u.cachedTokens := rfl
    have hcreation : (buildClaudeUsageFromOpenAIUsage (reported u)).cacheCreationInputTokens =
        u.cachedCreationTokens := rfl
    have hwritten : written u = u.cachedCreationTokens ↔
        u.claudeCacheCreation5mTokens + u.claudeCacheCreation1hTokens ≤ u.cachedCreationTokens := by
      simp only [written]
      omega
    have hcounts := creation_counts (reported u) hu.creation hu.creation5m hu.creation1h
    rw [← hwritten]
    constructor
    · rintro ⟨hin, hsum⟩
      exact ⟨by omega, hcounts.symm.trans hsum⟩
    · rintro ⟨hnone, hsum⟩
      exact ⟨by omega, hcounts.trans hsum⟩

def cachedUsage : Usage := ⟨100, 20, 30, 40, 0, 0, 0, 0, 10, 20, "anthropic", "", none⟩

def uncachedUsage : Usage := ⟨100, 20, 0, 0, 0, 0, 0, 0, 0, 0, "anthropic", "", none⟩

theorem uncached_usage_converts : SameInput uncachedUsage (buildClaudeUsageFromOpenAIUsage
        (reported (buildOpenAIStyleUsageFromClaudeUsage uncachedUsage))) ∧
      SumsUp uncachedUsage.promptTokens (buildClaudeUsageFromOpenAIUsage (reported uncachedUsage)) :=
  have h := claude_usage_iff (u := uncachedUsage) (by constructor <;> decide)
  ⟨h.1.mpr rfl, (h.2 (by decide)).mpr (by decide)⟩

/-- Cached tokens are counted twice: in the prompt, and by themselves. -/
theorem cached_tokens_counted_twice : ¬ SameInput cachedUsage (buildClaudeUsageFromOpenAIUsage
        (reported (buildOpenAIStyleUsageFromClaudeUsage cachedUsage))) ∧
      ¬ SumsUp cachedUsage.promptTokens (buildClaudeUsageFromOpenAIUsage (reported cachedUsage)) := by
  constructor
  · rintro ⟨h, -, -⟩
    revert h
    decide
  · rintro ⟨h, -⟩
    revert h
    decide

/-- The tokens of `vars` that the expression prices on their own. -/
def pricedApart (params : TokenParams) (uses : Var → Bool) (vars : List Var) : ℚ :=
  ((vars.filter uses).map params.get).sum

@[simp] theorem pricedApart_cons (params : TokenParams) (uses : Var → Bool) (v : Var)
    (vars : List Var) : pricedApart params uses (v :: vars) =
      (if uses v then params.get v else 0) + pricedApart params uses vars := by
  cases h : uses v <;> simp [pricedApart, h]

@[simp] theorem pricedApart_nil (params : TokenParams) (uses : Var → Bool) :
    pricedApart params uses [] = 0 := rfl

@[simp] theorem cast_without (used : Bool) (tokens part : ℤ) :
    ((without used tokens part : ℤ) : ℚ) = tokens - if used then (part : ℚ) else 0 := by
  cases used <;> simp [without]

/-- Where `parts` is not more than `total`, `rest` is what is left of it. -/
def Parted (total : ℤ) (rest parts : ℚ) : Prop := parts ≤ total → rest + parts = total

/-- The number of written tokens that the ratios are applied to. -/
def billedCreation (req : TextRequest) (u : Usage) : ℚ :=
  creationWithRatio { req with price := { req.price with
    cacheCreationRatio := 1, cacheCreation5mRatio := 1, cacheCreation1hRatio := 1 } } false
    (billedPrompt req true u).2 u

/-- OpenRouter does not report the written tokens, and they are worked out of the cost. -/
def Guessed (req : TextRequest) (u : Usage) : Prop :=
  req.openRouter = true ∧ u.cachedCreationTokens = 0 ∧ req.price.cacheCreationRatio ≠ 1 ∧
    ¬ (req.price.usePrice ∨ req.customModelRatio)

/-- The parameters take the split of an Anthropic usage, and the total of any other. -/
def SplitCounted (u : Usage) : Prop :=
  if u.usageSemantic = "anthropic" then
    u.cachedCreationTokens ≤ u.claudeCacheCreation5mTokens + u.claudeCacheCreation1hTokens
  else u.claudeCacheCreation5mTokens + u.claudeCacheCreation1hTokens ≤ u.cachedCreationTokens

def wholeSplit : Usage := { cachedUsage with cachedCreationTokens := 30 }

/-- No ratio and no price is negative, and the other ratios are positive. -/
structure NonnegativePrices (req : TextRequest) : Prop where
  model : 0 ≤ req.price.modelRatio
  group : 0 ≤ req.price.groupRatio
  completion : 0 ≤ req.price.completionRatio
  others : ∀ ratio ∈ req.price.otherRatios, 0 < ratio
  unit : 0 ≤ req.quotaPerUnit
  webSearchPreview : 0 ≤ req.toolPrices.webSearchPreview
  webSearch : 0 ≤ req.toolPrices.webSearch
  fileSearch : 0 ≤ req.toolPrices.fileSearch
  image : ∀ price ∈ req.tools.imageGenerationCall, 0 ≤ price

theorem quotaRound_mono {x y : ℚ} (h : x ≤ y) : quotaRound x ≤ quotaRound y := by
  unfold quotaRound
  split
  case isTrue hx =>
    rw [if_pos (hx.trans h)]
    exact Int.floor_mono (by linarith)
  case isFalse hx =>
    split
    case isTrue hy =>
      refine le_trans (Int.ceil_le.mpr ?_ : _ ≤ (0 : ℤ)) (Int.floor_nonneg.mpr (by linarith))
      push_cast
      linarith
    case isFalse => exact Int.ceil_mono (by linarith)

/-- What the ratios make of a usage before it is rounded. -/
def ratioTotal (req : TextRequest) (u : Usage) : ℚ :=
  tokensQuota req (usageSemanticFromUsage req (some u) == "anthropic")
    (!(usageSemanticFromUsage req (some u) == "anthropic") &&
      !isLegacyClaudeDerivedOpenAIUsage req u) u (calculateTextToolCallSurcharge req) *
    req.price.otherRatios.prod

section

variable (hprices : NonnegativePrices req)
include hprices

theorem callsQuota_nonneg {price : ℚ} (hprice : 0 ≤ price) (calls : ℤ) :
    0 ≤ callsQuota req price calls := by
  have hgroup := hprices.group
  have hunit := hprices.unit
  unfold callsQuota
  split
  case isTrue hcalls =>
    have : (0 : ℚ) ≤ calls := by exact_mod_cast hcalls.le
    positivity
  case isFalse => exact le_rfl

theorem surcharge_nonneg : 0 ≤ calculateTextToolCallSurcharge req := by
  have hgroup := hprices.group
  have hunit := hprices.unit
  refine add_nonneg (add_nonneg (add_nonneg ?_ ?_) ?_) ?_
  · split
    · exact callsQuota_nonneg hprices hprices.webSearchPreview _
    · split
      · exact callsQuota_nonneg hprices hprices.webSearchPreview _
      · exact le_rfl
  · exact callsQuota_nonneg hprices hprices.webSearch _
  · split
    · exact callsQuota_nonneg hprices hprices.fileSearch _
    · exact le_rfl
  · split
    case h_1 price himage =>
      have := hprices.image price himage
      positivity
    case h_2 => exact le_rfl

theorem tokensQuota_nonneg (hu : u.Nonnegative) (isClaude included : Bool)
    (hfree : req.price.modelRatio * req.price.groupRatio = 0) :
    0 ≤ tokensQuota req isClaude included u (calculateTextToolCallSurcharge req) := by
  have hsurcharge := surcharge_nonneg hprices
  have hgroup := hprices.group
  have hunit := hprices.unit
  have haudio : (0 : ℚ) ≤ u.audioTokens := by exact_mod_cast hu.audio
  simp only [tokensQuota, hfree, mul_zero, zero_add]
  split
  case isTrue h =>
    have := h.2.le
    positivity
  case isFalse => simpa using hsurcharge

theorem tokensQuota_mono (hrouter : req.openRouter = false) (isClaude included : Bool)
    (surcharge : ℚ) {prompt completion : ℤ} (hprompt : u.promptTokens ≤ prompt)
    (hcompletion : u.completionTokens ≤ completion) :
    tokensQuota req isClaude included u surcharge ≤ tokensQuota req isClaude included
      { u with promptTokens := prompt, completionTokens := completion } surcharge := by
  have hratio := mul_nonneg hprices.model hprices.group
  have hcount := hprices.completion
  simp only [tokensQuota, billedPrompt, hrouter, Bool.false_and, Bool.false_eq_true, if_false]
  push_cast
  gcongr
  rfl

theorem otherRatios_nonneg : 0 ≤ req.price.otherRatios.prod :=
  List.prod_nonneg fun ratio hratio => (hprices.others ratio hratio).le

theorem summary_quota (hu : u.Nonnegative) (hmode : req.price.usePrice = false) :
    (calculateTextQuotaSummary req (some u)).quota =
      if u.promptTokens + u.completionTokens = 0 then 0
      else max (if req.price.modelRatio * req.price.groupRatio = 0 then 0 else 1)
        (quotaRound (ratioTotal req u)) := by
  simp only [calculateTextQuotaSummary, hmode, Bool.false_eq_true, if_false, Option.getD_some]
  refine ite_congr rfl (fun _ => rfl) fun _ => ?_
  rw [← ratioTotal]
  by_cases hfree : req.price.modelRatio * req.price.groupRatio = 0
  · have htotal : 0 ≤ ratioTotal req u :=
      mul_nonneg (tokensQuota_nonneg hprices hu _ _ hfree) (otherRatios_nonneg hprices)
    simp [hfree, quotaRound_nonneg htotal]
  · by_cases hpos : ratioTotal req u ≤ 0
    · have hround : quotaRound (ratioTotal req u) ≤ 0 := (quotaRound_mono hpos).trans (by decide +kernel)
      have hone : quotaRound 1 = 1 := by decide +kernel
      simp only [hfree, hpos, ne_eq, not_false_eq_true, and_self, true_and, if_true, if_false, hone]
      omega
    · have hround := quotaRound_nonneg (not_le.mp hpos).le
      simp only [hfree, hpos, ne_eq, not_false_eq_true, and_false, true_and, if_false]
      split <;> omega

end

/-- More tokens never cost less: of the counts of the prompt, only the whole may grow. -/
theorem ratio_quota_grows (req : TextRequest) (u : Usage) (hu : u.Nonnegative)
    (hprices : NonnegativePrices req) (hmode : req.price.usePrice = false)
    (hrouter : req.openRouter = false) (prompt completion : ℤ)
    (hprompt : u.promptTokens ≤ prompt) (hcompletion : u.completionTokens ≤ completion) :
    0 ≤ (calculateTextQuotaSummary req (some u)).quota ∧
    (u.promptTokens + u.completionTokens = 0 → (calculateTextQuotaSummary req (some u)).quota = 0) ∧
    (0 < u.promptTokens + u.completionTokens → req.price.modelRatio * req.price.groupRatio ≠ 0 →
      1 ≤ (calculateTextQuotaSummary req (some u)).quota) ∧
    (calculateTextQuotaSummary req (some u)).quota ≤ (calculateTextQuotaSummary req
      (some { u with promptTokens := prompt, completionTokens := completion })).quota := by
  have hmore : Usage.Nonnegative { u with promptTokens := prompt, completionTokens := completion } :=
    { hu with
      prompt := hu.prompt.trans hprompt
      completion := hu.completion.trans hcompletion }
  have hleast : 0 ≤ if req.price.modelRatio * req.price.groupRatio = 0 then (0 : ℤ) else 1 := by
    split <;> decide
  have htotal : ratioTotal req u ≤
      ratioTotal req { u with promptTokens := prompt, completionTokens := completion } :=
    mul_le_mul_of_nonneg_right (tokensQuota_mono hprices hrouter _ _ _ hprompt hcompletion)
      (otherRatios_nonneg hprices)
  have := hu.prompt
  have := hu.completion
  have hround := quotaRound_mono htotal
  rw [summary_quota hprices hu hmode, summary_quota hprices hmore hmode]
  refine ⟨?_, fun hnone => if_pos hnone, fun hsome hratio => ?_, ?_⟩
  · split <;> omega
  · rw [if_neg hsome.ne', if_neg hratio]
    exact le_max_left _ _
  · split
    · split <;> omega
    · rw [if_neg (show prompt + completion ≠ 0 by omega)]
      exact max_le_max_left _ hround

theorem plain_quota_grows : (calculateTextQuotaSummary plainText (some uncachedUsage)).quota ≤
    (calculateTextQuotaSummary plainText
      (some { uncachedUsage with promptTokens := 150, completionTokens := 20 })).quota :=
  (ratio_quota_grows plainText uncachedUsage (by constructor <;> decide)
    (by constructor <;> simp [plainText, plainPrice]) rfl rfl 150 20 (by decide) (by decide)).2.2.2

/-- A model without a price, and a tool whose price is set below zero. -/
theorem negative_tool_price_credits : (calculateTextQuotaSummary { plainText with
      price := { plainPrice with modelRatio := 0 }
      toolPrices := ⟨0, -10, 0, 0⟩
      tools := ⟨none, 1, none⟩ } (some uncachedUsage)).quota = -5000 := by
  decide +kernel

end UsageConversions
