import TinyToken.CalendarMonths
import TinyToken.SubscriptionRows

/-! The periods of the plans an admin can save: the checks of `AdminCreateSubscriptionPlan` and
`AdminUpdateSubscriptionPlan`, and which of the saved plans have an end after their start,
resets that move forward and a catch-up loop that ends.

Calendar periods always move forward. Durations are products of 64 bits that no check
bounds, so the length that counts is what the product keeps after it wraps around. -/
namespace SubscriptionPeriods

open CalendarTime CalendarMonths GoText SubscriptionRows

structure ListedPlan extends SubscriptionPlan where
  priceAmount : ℚ
  enabled : Bool
  allowBalancePay : Option Bool

def resetPeriodText : ResetPeriod → String
  | .never => "never"
  | .daily => "daily"
  | .weekly => "weekly"
  | .monthly => "monthly"
  | .custom => "custom"

/-- The defaults and the normalised texts of a request, as both handlers fill them in. -/
def normalizePlan (req : ListedPlan) : ListedPlan :=
  let unit := if req.durationUnit = .other "" then .month else req.durationUnit
  { req with
    durationUnit := unit
    durationValue := if req.durationValue ≤ 0 ∧ unit ≠ .custom then 1 else req.durationValue
    upgradeGroup := trimSpace req.upgradeGroup
    quotaResetPeriod := resetPeriodText (normalizeResetPeriod req.quotaResetPeriod) }

/-- The checks both handlers make; `groups` are the groups with a ratio. -/
def checkPlan (groups : List String) (req : ListedPlan) : Except String ListedPlan :=
  let plan := normalizePlan req
  if trimSpace req.title = "" then .error "套餐标题不能为空"
  else if req.priceAmount < 0 then .error "价格不能为负数"
  else if req.priceAmount > 9999 then .error "价格不能超过9999"
  else if req.maxPurchasePerUser < 0 then .error "购买上限不能为负数"
  else if req.totalAmount < 0 then .error "总额度不能为负数"
  else if plan.upgradeGroup ≠ "" ∧ plan.upgradeGroup ∉ groups then .error "升级分组不存在"
  else if plan.quotaResetPeriod = "custom" ∧ plan.quotaResetCustomSeconds ≤ 0 then
    .error "自定义重置周期需大于0秒"
  else .ok plan

/-- `newId` is the key the store gives the new row. -/
def adminCreateSubscriptionPlan (groups : List String) (newId : ℤ) (req : ListedPlan) :
    Except String ListedPlan :=
  (checkPlan groups req).map fun plan =>
    { plan with id := newId, allowBalancePay := some (req.allowBalancePay.getD true) }

/-- The row written over `old`; a request that leaves `allow_balance_pay` out keeps it. -/
def adminUpdateSubscriptionPlan (groups : List String) (id : ℤ) (old req : ListedPlan) :
    Except String ListedPlan :=
  if id ≤ 0 then .error "无效的ID"
  else (checkPlan groups req).map fun plan =>
    { plan with id := id, allowBalancePay := req.allowBalancePay.or old.allowBalancePay }

inductive Admitted (groups : List String) : ListedPlan → Prop where
  | created (newId : ℤ) (req plan : ListedPlan)
      (saved : adminCreateSubscriptionPlan groups newId req = .ok plan) : Admitted groups plan
  | updated (id : ℤ) (old req plan : ListedPlan)
      (saved : adminUpdateSubscriptionPlan groups id old req = .ok plan) : Admitted groups plan

structure Checked (plan : SubscriptionPlan) : Prop where
  duration : plan.durationUnit = .custom ∨ 0 < plan.durationValue
  reset : normalizeResetPeriod plan.quotaResetPeriod = .custom → 0 < plan.quotaResetCustomSeconds

/-- The product of a count of units of `unit` seconds and the nanoseconds of a second keeps,
in 64 bits, at least one second. -/
def KeepsSecond (count unit : ℤ) : Prop :=
  nanosPerSecond ≤ count * (unit * nanosPerSecond) % 2 ^ 64 ∧
    count * (unit * nanosPerSecond) % 2 ^ 64 < 2 ^ 63

instance (count unit : ℤ) : Decidable (KeepsSecond count unit) :=
  inferInstanceAs (Decidable (_ ∧ _))

def EndsLater (plan : SubscriptionPlan) : Prop :=
  ∀ zone start, ∃ endUnix, calcPlanEndTime zone start plan = .ok endUnix ∧ start < endUnix

def DurationFits (plan : SubscriptionPlan) : Prop :=
  match plan.durationUnit with
  | .year => True
  | .month => True
  | .day => KeepsSecond plan.durationValue 86400
  | .hour => KeepsSecond plan.durationValue 3600
  | .custom => 0 < plan.customSeconds ∧ KeepsSecond plan.customSeconds 1
  | .other _ => False

variable {plan : SubscriptionPlan}

/-- A next reset is after its base and not after the end; an end of 0 is no end. -/
def ResetsForward (plan : SubscriptionPlan) : Prop :=
  ∀ zone base endUnix, calcNextResetTime zone base plan endUnix = 0 ∨
    (base < calcNextResetTime zone base plan endUnix ∧
      (0 < endUnix → calcNextResetTime zone base plan endUnix ≤ endUnix))

def ResetFits (plan : SubscriptionPlan) : Prop :=
  normalizeResetPeriod plan.quotaResetPeriod = .custom → KeepsSecond plan.quotaResetCustomSeconds 1

/-- From some number of rounds on `maybeResetUserSubscriptionWithPlanTx` returns, and a row it
has reset has its last reset in the past and its next one, if any, in the future. -/
def CatchesUp (plan : SubscriptionPlan) : Prop :=
  ∀ zone (sub : UserSubscription) now, ∃ enough, ∀ rounds ≥ enough,
    ∃ outcome, maybeReset ⟨zone, rounds⟩ sub plan now = some outcome ∧ ∀ row, outcome = .reset row →
        row.lastResetTime ≤ now ∧ (row.nextResetTime = 0 ∨ now < row.nextResetTime)

structure PeriodsForward (plan : SubscriptionPlan) : Prop where
  ends : EndsLater plan
  resets : ResetsForward plan
  catches : CatchesUp plan

structure PeriodsFit (plan : SubscriptionPlan) : Prop where
  duration : DurationFits plan
  reset : ResetFits plan

def hourlyPlan (durationValue : ℤ) (resetSeconds : ℤ) : ListedPlan where
  id := 0
  title := "pass"
  durationUnit := .hour
  durationValue := durationValue
  customSeconds := 0
  maxPurchasePerUser := 0
  upgradeGroup := ""
  totalAmount := 0
  quotaResetPeriod := "custom"
  quotaResetCustomSeconds := resetSeconds
  priceAmount := 1
  enabled := true
  allowBalancePay := some true

end SubscriptionPeriods
