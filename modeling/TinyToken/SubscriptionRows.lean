import TinyToken.CalendarTime
import TinyToken.GoText
import TinyToken.KeyedTable
import TinyToken.ReadCommittedStore

/-! The subscription tables: plans, user subscriptions and pre-consume records, with the
period arithmetic of a plan and the statements the subscription transactions issue. -/
namespace SubscriptionRows

open CalendarTime GoText KeyedTable ReadCommittedStore

inductive DurationUnit where
  | year | month | day | hour | custom
  | other (text : String)
  deriving DecidableEq

inductive ResetPeriod where
  | never | daily | weekly | monthly | custom
  deriving DecidableEq

inductive SubStatus where
  | active | expired | cancelled
  deriving DecidableEq

inductive RecordStatus where
  | consumed | refunded
  deriving DecidableEq

structure SubscriptionPlan where
  id : ℤ
  title : String
  durationUnit : DurationUnit
  durationValue : ℤ
  customSeconds : ℤ
  maxPurchasePerUser : ℤ
  upgradeGroup : String
  totalAmount : ℤ
  quotaResetPeriod : String
  quotaResetCustomSeconds : ℤ
  deriving DecidableEq

structure UserSubscription where
  id : ℤ
  userId : ℤ
  planId : ℤ
  amountTotal : ℤ
  amountUsed : ℤ
  startTime : ℤ
  endTime : ℤ
  status : SubStatus
  lastResetTime : ℤ
  nextResetTime : ℤ
  upgradeGroup : String
  prevUserGroup : String
  deriving DecidableEq

structure SubscriptionPreConsumeRecord where
  requestId : String
  userId : ℤ
  userSubscriptionId : ℤ
  preConsumed : ℤ
  status : RecordStatus
  deriving DecidableEq

structure User where
  id : ℤ
  group : String

def calcPlanEndTime (zone start : ℤ) (plan : SubscriptionPlan) : Except String ℤ :=
  if plan.durationValue ≤ 0 ∧ plan.durationUnit ≠ .custom then
    .error "duration_value must be > 0"
  else match plan.durationUnit with
    | .year => .ok (addDate zone start plan.durationValue 0 0)
    | .month => .ok (addDate zone start 0 plan.durationValue 0)
    | .day => .ok (addDuration start (durationOf plan.durationValue 86400))
    | .hour => .ok (addDuration start (durationOf plan.durationValue 3600))
    | .custom =>
      if plan.customSeconds ≤ 0 then .error "custom_seconds must be > 0"
      else .ok (addDuration start (durationOf plan.customSeconds 1))
    | .other text => .error ("invalid duration_unit: " ++ text)

def normalizeResetPeriod (period : String) : ResetPeriod :=
  if trimSpace period = "daily" then .daily
  else if trimSpace period = "weekly" then .weekly
  else if trimSpace period = "monthly" then .monthly
  else if trimSpace period = "custom" then .custom
  else .never

/-- The start of the period after `base`, before the cut at the end of the subscription. -/
def periodAfter (zone base : ℤ) (plan : SubscriptionPlan) : Option ℤ :=
  match normalizeResetPeriod plan.quotaResetPeriod with
  | .never => none
  | .daily => some (addDate zone (startOfDay zone base) 0 0 1)
  | .weekly =>
    -- Monday is 1 and Sunday is 7, so that the next Monday is 8 minus the weekday away
    let weekday := if weekday zone base = 0 then 7 else weekday zone base
    some (addDate zone (startOfDay zone base) 0 0 (8 - weekday))
  | .monthly => some (addDate zone (startOfMonth zone base) 0 1 0)
  | .custom =>
    if plan.quotaResetCustomSeconds ≤ 0 then none
    else some (addDuration base (durationOf plan.quotaResetCustomSeconds 1))

def calcNextResetTime (zone base : ℤ) (plan : SubscriptionPlan) (endUnix : ℤ) : ℤ :=
  match periodAfter zone base plan with
  | none => 0
  | some next => if endUnix > 0 ∧ next > endUnix then 0 else next

/-- The catch-up loop: advances while the next reset lies in the past. The result is
the last base, the next reset and whether the loop advanced; `none` is a loop that has
not ended within the given number of rounds. -/
def advanceReset (nextOf : ℤ → ℤ) (now : ℤ) : ℕ → ℤ → ℤ → Bool → Option (ℤ × ℤ × Bool)
  | rounds, base, next, advanced =>
    if next > 0 ∧ next ≤ now then
      match rounds with
      | 0 => none
      | rounds + 1 => advanceReset nextOf now rounds next (nextOf next) true
    else some (base, next, advanced)

/-- What `maybeResetUserSubscriptionWithPlanTx` writes back: nothing, the row with its
first reset scheduled, or the row with its usage reset. -/
inductive ResetOutcome where
  | keep
  | schedule (sub : UserSubscription)
  | reset (sub : UserSubscription)

structure Clock where
  zone : ℤ
  rounds : ℕ

def maybeReset (c : Clock) (sub : UserSubscription) (plan : SubscriptionPlan) (now : ℤ) :
    Option ResetOutcome :=
  if sub.nextResetTime > 0 ∧ sub.nextResetTime > now then some .keep
  else if normalizeResetPeriod plan.quotaResetPeriod = .never then some .keep
  else
    let base := if sub.lastResetTime ≤ 0 then sub.startTime else sub.lastResetTime
    let nextOf := fun t => calcNextResetTime c.zone t plan sub.endTime
    match advanceReset nextOf now c.rounds base (nextOf base) false with
    | none => none
    | some (last, next, false) =>
      if sub.nextResetTime = 0 ∧ next > 0 then
        some (.schedule { sub with nextResetTime := next, lastResetTime := last })
      else some .keep
    | some (last, next, true) =>
      some (.reset { sub with amountUsed := 0, lastResetTime := last, nextResetTime := next })

structure Tables where
  users : Table User ℤ User.id
  subs : Table UserSubscription ℤ UserSubscription.id
  records : Table SubscriptionPreConsumeRecord String SubscriptionPreConsumeRecord.requestId
  plans : Table SubscriptionPlan ℤ SubscriptionPlan.id

/-- `end_time asc, id asc`. -/
def dueFirst (a b : UserSubscription) : Prop :=
  a.endTime < b.endTime ∨ (a.endTime = b.endTime ∧ a.id ≤ b.id)

instance : DecidableRel dueFirst := fun _ _ => inferInstanceAs (Decidable (_ ∨ (_ ∧ _)))

/-- `end_time desc, id desc`. -/
def dueLast (a b : UserSubscription) : Prop := dueFirst b a

instance : DecidableRel dueLast := fun a b => inferInstanceAs (Decidable (dueFirst b a))

inductive SubQuery where
  | recordByRequest (requestId : String)
  | activeSubs (userId now : ℤ)
  | subById (id : ℤ)
  | planById (id : ℤ)
  | userGroup (userId : ℤ)
  | countByPlan (userId planId : ℤ)
  | countActive (userId now : ℤ)
  | activeUpgrade (userId now : ℤ) (apart : Option ℤ)
  | lastExpired (userId : ℤ)
  | dueSubs (now : ℤ) (limit : ℕ)
  | dueResets (now : ℤ) (limit : ℕ)
  | dueReset (id now : ℤ)

def SubAnswer : SubQuery → Type
  | .recordByRequest _ => Option SubscriptionPreConsumeRecord
  | .activeSubs _ _ => List UserSubscription
  | .subById _ => Option UserSubscription
  | .planById _ => Option SubscriptionPlan
  | .userGroup _ => String
  | .countByPlan _ _ => ℕ
  | .countActive _ _ => ℕ
  | .activeUpgrade _ _ _ => Option UserSubscription
  | .lastExpired _ => Option UserSubscription
  | .dueSubs _ _ => List UserSubscription
  | .dueResets _ _ => List UserSubscription
  | .dueReset _ _ => Option UserSubscription

inductive SubWrite where
  | createRecord (r : SubscriptionPreConsumeRecord)
  | saveRecord (r : SubscriptionPreConsumeRecord)
  | saveSub (s : UserSubscription)
  | createSub (s : UserSubscription)
  | deleteSub (id : ℤ)
  | cancelSub (id now : ℤ)
  | expireSubs (userId now : ℤ)
  | setUserGroup (userId : ℤ) (group : String)

def isActive (userId now : ℤ) (s : UserSubscription) : Bool :=
  s.userId = userId && s.status = .active && s.endTime > now

def isActiveUpgrade (userId now : ℤ) (apart : Option ℤ) (s : UserSubscription) : Bool :=
  isActive userId now s && apart ≠ some s.id && s.upgradeGroup ≠ ""

def isExpiredUpgrade (userId : ℤ) (s : UserSubscription) : Bool :=
  s.userId = userId && s.status = .expired && s.upgradeGroup ≠ ""

def isDue (now : ℤ) (s : UserSubscription) : Bool :=
  s.status = .active && s.endTime > 0 && s.endTime ≤ now

def isResetDue (now : ℤ) (s : UserSubscription) : Bool :=
  s.nextResetTime > 0 && s.nextResetTime ≤ now

/-- `next_reset_time asc`. -/
def resetFirst (a b : UserSubscription) : Prop := a.nextResetTime ≤ b.nextResetTime

instance : DecidableRel resetFirst := fun a b =>
  inferInstanceAs (Decidable (a.nextResetTime ≤ b.nextResetTime))

def answer : (q : SubQuery) → Tables → SubAnswer q
  | .recordByRequest requestId, t => t.records.find? requestId
  | .activeSubs userId now, t => (t.subs.rows.filter (isActive userId now)).insertionSort dueFirst
  | .subById id, t => t.subs.find? id
  | .planById id, t => t.plans.find? id
  | .userGroup userId, t => ((t.users.find? userId).map User.group).getD ""
  | .countByPlan userId planId, t =>
    (t.subs.rows.filter fun s => s.userId = userId ∧ s.planId = planId).length
  | .countActive userId now, t => (t.subs.rows.filter (isActive userId now)).length
  | .activeUpgrade userId now apart, t =>
    ((t.subs.rows.filter (isActiveUpgrade userId now apart)).insertionSort dueLast).head?
  | .lastExpired userId, t =>
    ((t.subs.rows.filter (isExpiredUpgrade userId)).insertionSort dueLast).head?
  | .dueSubs now limit, t =>
    ((t.subs.rows.filter (isDue now)).insertionSort dueFirst).take limit
  | .dueResets now limit, t =>
    ((t.subs.rows.filter fun s => isResetDue now s && s.status = .active).insertionSort
      resetFirst).take limit
  | .dueReset id now, t => (t.subs.find? id).filter (isResetDue now)

def expireRow (userId now : ℤ) (s : UserSubscription) : UserSubscription :=
  if s.userId = userId ∧ isDue now s then { s with status := .expired } else s

def cancelRow (id now : ℤ) (s : UserSubscription) : UserSubscription :=
  if s.id = id then { s with status := .cancelled, endTime := now } else s

def regroup (userId : ℤ) (group : String) (u : User) : User :=
  if u.id = userId then { u with group := group } else u

theorem expireRow_id (userId now : ℤ) (s : UserSubscription) :
    (expireRow userId now s).id = s.id := by
  unfold expireRow
  split <;> rfl

theorem cancelRow_id (id now : ℤ) (s : UserSubscription) : (cancelRow id now s).id = s.id := by
  unfold cancelRow
  split <;> rfl

theorem regroup_id (userId : ℤ) (group : String) (u : User) :
    (regroup userId group u).id = u.id := by
  unfold regroup
  split <;> rfl

def applyWrite : SubWrite → Tables → Tables
  | .createRecord r, t => { t with records := t.records.insert r }
  | .saveRecord r, t => { t with records := t.records.save r }
  | .saveSub s, t => { t with subs := t.subs.save s }
  | .createSub s, t => { t with subs := t.subs.insert s }
  | .deleteSub id, t => { t with subs := t.subs.erase id }
  | .cancelSub id now, t =>
    { t with subs := t.subs.modify (cancelRow id now) (cancelRow_id id now) }
  | .expireSubs userId now, t =>
    { t with subs := t.subs.modify (expireRow userId now) (expireRow_id userId now) }
  | .setUserGroup userId group, t =>
    { t with users := t.users.modify (regroup userId group) (regroup_id userId group) }

/-- The request id of a record and the id of a subscription are unique keys. -/
def accepts : SubWrite → Tables → Bool
  | .createRecord r, t => (t.records.find? r.requestId).isNone
  | .createSub s, t => (t.subs.find? s.id).isNone
  | _, _ => true

inductive RowLock where
  | record (requestId : String)
  | sub (id : ℤ)
  | subsOf (userId : ℤ)
  | user (id : ℤ)
  deriving DecidableEq

def SubWrite.lock : SubWrite → RowLock
  | .createRecord r => .record r.requestId
  | .saveRecord r => .record r.requestId
  | .saveSub s => .sub s.id
  | .createSub s => .sub s.id
  | .deleteSub id => .sub id
  | .cancelSub id _ => .sub id
  | .expireSubs userId _ => .subsOf userId
  | .setUserGroup userId _ => .user userId

def conflicts (a b : SubWrite) : Bool :=
  match a.lock, b.lock with
  | .subsOf _, .sub _ => true
  | .sub _, .subsOf _ => true
  | x, y => x = y

def engine : Engine Tables SubQuery SubWrite SubAnswer where
  answer := answer
  accepts := accepts
  refusal := "duplicated key not allowed"
  apply := applyWrite
  conflicts := conflicts

def usedOf (t : Tables) (id : ℤ) : Option ℤ := (t.subs.find? id).map UserSubscription.amountUsed

/-- A plan that is never reset, and a subscription to it that runs until 1000. -/
def plainPlan : SubscriptionPlan where
  id := 3
  title := "plain"
  durationUnit := .hour
  durationValue := 1
  customSeconds := 0
  maxPurchasePerUser := 0
  upgradeGroup := ""
  totalAmount := 100
  quotaResetPeriod := "never"
  quotaResetCustomSeconds := 0

def plainSub (id total used : ℤ) : UserSubscription where
  id := id
  userId := 1
  planId := 3
  amountTotal := total
  amountUsed := used
  startTime := 0
  endTime := 1000
  status := .active
  lastResetTime := 0
  nextResetTime := 0
  upgradeGroup := ""
  prevUserGroup := ""

def plainTables (subs : Table UserSubscription ℤ UserSubscription.id) : Tables where
  users := ⟨[⟨1, "default"⟩], by decide⟩
  subs := subs
  records := .empty
  plans := ⟨[plainPlan], by decide⟩

abbrev SubDb := Db Tables SubWrite

abbrev SubProg := TxProg SubQuery SubWrite SubAnswer

section Statements

variable (tx : TxId)

def selectRecord (requestId : String) :
    SubProg (Except String (Option SubscriptionPreConsumeRecord)) :=
  query tx (SubQuery.recordByRequest requestId)

def selectActiveSubs (userId now : ℤ) : SubProg (Except String (List UserSubscription)) :=
  query tx (SubQuery.activeSubs userId now)

def selectSub (id : ℤ) : SubProg (Except String (Option UserSubscription)) :=
  query tx (SubQuery.subById id)

def selectPlan (id : ℤ) : SubProg (Except String (Option SubscriptionPlan)) :=
  query tx (SubQuery.planById id)

def selectUserGroup (userId : ℤ) : SubProg (Except String String) :=
  query tx (SubQuery.userGroup userId)

def countByPlan (userId planId : ℤ) : SubProg (Except String ℕ) :=
  query tx (SubQuery.countByPlan userId planId)

def countActive (userId now : ℤ) : SubProg (Except String ℕ) :=
  query tx (SubQuery.countActive userId now)

def selectActiveUpgrade (userId now : ℤ) (apart : Option ℤ) :
    SubProg (Except String (Option UserSubscription)) :=
  query tx (SubQuery.activeUpgrade userId now apart)

def selectLastExpired (userId : ℤ) : SubProg (Except String (Option UserSubscription)) :=
  query tx (SubQuery.lastExpired userId)

def selectDueSubs (now : ℤ) (limit : ℕ) : SubProg (Except String (List UserSubscription)) :=
  query tx (SubQuery.dueSubs now limit)

def selectDueResets (now : ℤ) (limit : ℕ) : SubProg (Except String (List UserSubscription)) :=
  query tx (SubQuery.dueResets now limit)

def selectDueReset (id now : ℤ) : SubProg (Except String (Option UserSubscription)) :=
  query tx (SubQuery.dueReset id now)

def createRecord (r : SubscriptionPreConsumeRecord) : SubProg (Except String Unit) :=
  write tx (.createRecord r)

def saveRecord (r : SubscriptionPreConsumeRecord) : SubProg (Except String Unit) :=
  write tx (.saveRecord r)

def saveSub (s : UserSubscription) : SubProg (Except String Unit) :=
  write tx (.saveSub s)

def createSub (s : UserSubscription) : SubProg (Except String Unit) :=
  write tx (.createSub s)

def deleteSub (id : ℤ) : SubProg (Except String Unit) :=
  write tx (.deleteSub id)

def cancelSub (id now : ℤ) : SubProg (Except String Unit) :=
  write tx (.cancelSub id now)

def expireSubs (userId now : ℤ) : SubProg (Except String Unit) :=
  write tx (.expireSubs userId now)

def setUserGroup (userId : ℤ) (group : String) : SubProg (Except String Unit) :=
  write tx (.setUserGroup userId group)

end Statements

end SubscriptionRows
