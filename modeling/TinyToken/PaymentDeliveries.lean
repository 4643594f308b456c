import TinyToken.ManualTopUps
import TinyToken.SubscriptionGrants

/-! Notifications of the payment gateways and redemption codes. Each delivery reads its row
without a lock, decides by the status it has read, and writes the whole row back. A delivery
that commits while the rows it has read are still stored acts on a pending row only, so such
deliveries credit a row once and never leave a terminal status. -/
namespace PaymentDeliveries

open InterleavedPrograms LockingStore LockingPools KeyedTable PaymentStore PromptPayRule
  ManualTopUps SubscriptionRows SubscriptionGroups SubscriptionGrants List Option Table
open ReadCommittedStore (TxId Db)
open TransactionPools (Store)

/-- `column` is how the database turns a fraction into a value of the integer column. -/
structure GatewayConfig extends PayConfig where
  column : ℚ → ℤ

inductive Credit where
  | topUp (id userId quota : ℤ)
  | subscription (orderId userId planId : ℤ)
  | code (id userId quota : ℤ)
  deriving DecidableEq

variable (c : GatewayConfig) (tx : TxId)

variable (call : OrderCompletion) (tradeNo : String) (expected : Option PaymentProvider)
  (order : SubscriptionOrder) (provider : PaymentProvider) (target : OrderStatus) (topUp : TopUp)

def saveAndCredit (now quota : ℤ) (fields : PayProg (Except String UserFields)) :
    PayProg (Except String (Option Credit)) := do
  match ← saveTopUp tx (finished topUp .success now) with
  | .error e => pure (.error e)
  | .ok _ =>
    match ← fields with
    | .error e => pure (.error e)
    | .ok fields =>
      match ← addQuota tx topUp.userId quota fields with
      | .error e => pure (.error e)
      | .ok _ => pure (.ok (some (.topUp topUp.id topUp.userId quota)))

/-- The checks of a notification on the order it has read. An idempotent gateway accepts a
second notification of an order that is paid. -/
def settleRead (idempotent : Bool) (settle : TopUp → PayProg (Except String (Option Credit)))
    (topUp : TopUp) :
    PayProg (Except String (Option Credit)) :=
  if topUp.paymentProvider ≠ provider then pure (.error "payment method mismatch")
  else if idempotent = true ∧ topUp.status = .success then pure (.ok none)
  else if topUp.status ≠ .pending then pure (.error "充值订单状态错误")
  else settle topUp

def rechargeBody (idempotent : Bool) (settle : TopUp → PayProg (Except String (Option Credit))) :
    PayProg (Except String (Option Credit)) := do
  match ← selectTopUp tx tradeNo with
  | .error _ => pure (.error "充值订单不存在")
  | .ok none => pure (.error "充值订单不存在")
  | .ok (some topUp) => settleRead provider idempotent settle topUp

def rechargeResult : Except String (Option Credit) → Except String (Option Credit)
  | .error _ => .error "充值失败，请稍后重试"
  | .ok credit => .ok credit

def rechargeWith (idempotent : Bool) (settle : TopUp → PayProg (Except String (Option Credit))) :
    PayProg (Except String (Option Credit)) :=
  if tradeNo = "" then pure (.error "未提供支付单号")
  else transaction tx (rechargeBody tx tradeNo provider idempotent settle) >>=
    fun r => pure (rechargeResult r)

def recharge (referenceId customerId : String) (now : ℤ) :
    PayProg (Except String (Option Credit)) :=
  rechargeWith tx referenceId .stripe false fun topUp =>
    saveAndCredit tx topUp now (c.column (topUp.money * c.quotaPerUnit))
      (pure (.ok ⟨none, some customerId⟩))

def creemFields (userId : ℤ) (customerEmail : String) : PayProg (Except String UserFields) :=
  if customerEmail = "" then pure (.ok .none)
  else do
    match ← selectUser tx userId with
    | .error e => pure (.error e)
    | .ok none => pure (.error "record not found")
    | .ok (some user) => pure (.ok ⟨if user.email = "" then some customerEmail else none, none⟩)

def rechargeCreem (referenceId customerEmail : String) (now : ℤ) :
    PayProg (Except String (Option Credit)) :=
  rechargeWith tx referenceId .creem false fun topUp =>
    saveAndCredit tx topUp now topUp.amount (creemFields tx topUp.userId customerEmail)

def settleUnits (now : ℤ) (topUp : TopUp) : PayProg (Except String (Option Credit)) :=
  if intPart (topUp.amount * c.quotaPerUnit) ≤ 0 then pure (.error "无效的充值额度")
  else saveAndCredit tx topUp now (intPart (topUp.amount * c.quotaPerUnit)) (pure (.ok .none))

def rechargeWaffo (now : ℤ) : PayProg (Except String (Option Credit)) :=
  rechargeWith tx tradeNo .waffo true (settleUnits c tx now)

def rechargeWaffoPancake (now : ℤ) : PayProg (Except String (Option Credit)) :=
  rechargeWith tx tradeNo .waffoPancake true (settleUnits c tx now)

def providerFits : Bool :=
  match expected with
  | none => true
  | some wanted => provider = wanted

def updateRead :
    PayProg (Except String (Option Credit)) :=
  if providerFits expected topUp.paymentProvider = false then
    pure (.error "payment method mismatch")
  else if topUp.status ≠ .pending then pure (.error "topup status invalid")
  else do
    match ← saveTopUp tx { topUp with status := target } with
    | .error e => pure (.error e)
    | .ok _ => pure (.ok none)

def updateBody :
    PayProg (Except String (Option Credit)) := do
  match ← selectTopUp tx tradeNo with
  | .error _ => pure (.error "topup not found")
  | .ok none => pure (.error "topup not found")
  | .ok (some topUp) => updateRead tx expected target topUp

def updatePendingTopUpStatus : PayProg (Except String (Option Credit)) :=
  if tradeNo = "" then pure (.error "未提供支付单号")
  else transaction tx (updateBody tx tradeNo expected target)

/-- One call of `CompleteSubscriptionOrder`, with the keys the store gives the rows it creates
and the times it samples. -/
structure OrderCompletion where
  tradeNo : String
  providerPayload : String
  expectedProvider : Option PaymentProvider
  actualMethod : String
  subId : ℤ
  topUpId : ℤ
  subscribedAt : ℤ
  mirroredAt : ℤ
  completedAt : ℤ

def newMirror : TopUp where
  id := call.topUpId
  userId := order.userId
  amount := 0
  money := order.money
  tradeNo := order.tradeNo
  paymentMethod := order.paymentMethod
  paymentProvider := .other ""
  createTime := order.createTime
  completeTime := call.mirroredAt
  status := .success

def updatedMirror : TopUp :=
  { topUp with
    money := order.money
    paymentMethod := if topUp.paymentMethod = "" then order.paymentMethod else topUp.paymentMethod
    createTime := if topUp.createTime = 0 then order.createTime else topUp.createTime
    completeTime := call.mirroredAt
    status := .success }

def mirrorFound :
    Option TopUp → PayProg (Except String Unit)
  | none => createTopUp tx (newMirror call order)
  | some topUp =>
    if topUp.paymentMethod ≠ "" ∧ topUp.paymentMethod ≠ order.paymentMethod then
      pure (.error "payment method mismatch")
    else saveTopUp tx (updatedMirror call order topUp)

def upsertSubscriptionTopUpTx :
    PayProg (Except String Unit) := do
  match ← selectTopUp tx order.tradeNo with
  | .error e => pure (.error e)
  | .ok found => mirrorFound tx call order found

def completedOrder : SubscriptionOrder :=
  { order with
    status := .success
    completeTime := call.completedAt
    providerPayload := if call.providerPayload ≠ "" then call.providerPayload
      else order.providerPayload
    paymentMethod := if call.actualMethod ≠ "" then call.actualMethod else order.paymentMethod }

def completePending :
    PayProg (Except String (Option Credit)) := do
  match ← getListedPlanByIdTx tx order.planId with
  | .error e => pure (.error e)
  | .ok plan =>
    match ← embed (createUserSubscriptionFromPlanTx c.zone tx call.subId order.userId
        plan.toSubscriptionPlan call.subscribedAt) with
    | .error e => pure (.error e)
    | .ok _ =>
      match ← upsertSubscriptionTopUpTx tx call order with
      | .error e => pure (.error e)
      | .ok _ =>
        match ← saveOrder tx (completedOrder call order) with
        | .error e => pure (.error e)
        | .ok _ => pure (.ok (some (.subscription order.id order.userId order.planId)))

def completeRead :
    PayProg (Except String (Option Credit)) :=
  if providerFits call.expectedProvider order.paymentProvider = false then
    pure (.error "payment method mismatch")
  else if order.status = .success then pure (.ok none)
  else if order.status ≠ .pending then pure (.error "subscription order status invalid")
  else completePending c tx call order

def completeOrderBody : PayProg (Except String (Option Credit)) := do
  match ← selectOrder tx call.tradeNo with
  | .error _ => pure (.error "subscription order not found")
  | .ok none => pure (.error "subscription order not found")
  | .ok (some order) => completeRead c tx call order

def completeSubscriptionOrder : PayProg (Except String (Option Credit)) :=
  if call.tradeNo = "" then pure (.error "tradeNo is empty")
  else transaction tx (completeOrderBody c tx call)

def expireRead (now : ℤ) (order : SubscriptionOrder) :
    PayProg (Except String (Option Credit)) :=
  if providerFits expected order.paymentProvider = false then
    pure (.error "payment method mismatch")
  else if order.status ≠ .pending then pure (.ok none)
  else do
    match ← saveOrder tx { order with status := .expired, completeTime := now } with
    | .error e => pure (.error e)
    | .ok _ => pure (.ok none)

def expireBody (now : ℤ) :
    PayProg (Except String (Option Credit)) := do
  match ← selectOrder tx tradeNo with
  | .error _ => pure (.error "subscription order not found")
  | .ok none => pure (.error "subscription order not found")
  | .ok (some order) => expireRead tx expected now order

def expireSubscriptionOrder (now : ℤ) :
    PayProg (Except String (Option Credit)) :=
  if tradeNo = "" then pure (.error "tradeNo is empty")
  else transaction tx (expireBody tx tradeNo expected now)

/-- `checkedAt` and `redeemedAt` are the times the call samples. -/
structure Redeeming where
  key : String
  userId : ℤ
  checkedAt : ℤ
  redeemedAt : ℤ

def usedCode (call : Redeeming) (code : Redemption) : Redemption :=
  { code with redeemedTime := call.redeemedAt, status := .used, usedUserId := call.userId }

def redeemRead (call : Redeeming) (code : Redemption) : PayProg (Except String (Option Credit)) :=
  if code.status ≠ .enabled then pure (.error "该兑换码已被使用")
  else if code.expiredTime ≠ 0 ∧ code.expiredTime < call.checkedAt then
    pure (.error "该兑换码已过期")
  else do
    match ← addQuota tx call.userId code.quota .none with
    | .error e => pure (.error e)
    | .ok _ =>
      match ← saveRedemption tx (usedCode call code) with
      | .error e => pure (.error e)
      | .ok _ => pure (.ok (some (.code code.id call.userId code.quota)))

def redeemBody (call : Redeeming) : PayProg (Except String (Option Credit)) := do
  match ← selectRedemption tx call.key with
  | .error _ => pure (.error "无效的兑换码")
  | .ok none => pure (.error "无效的兑换码")
  | .ok (some code) => redeemRead tx call code

def redeemResult : Except String (Option Credit) → Except String (Option Credit)
  | .error _ => .error "redeem.failed"
  | .ok credit => .ok credit

def redeem (call : Redeeming) : PayProg (Except String (Option Credit)) :=
  if call.key = "" then pure (.error "未提供兑换码")
  else if call.userId = 0 then pure (.error "无效的 user id")
  else transaction tx (redeemBody tx call) >>= fun r => pure (redeemResult r)

def orderStatus (t : PayTables) (id : ℤ) : Option OrderStatus :=
  (t.orders.find? id).map SubscriptionOrder.status

def codeStatus (t : PayTables) (id : ℤ) : Option RedemptionStatus :=
  (t.redemptions.find? id).map Redemption.status

/-- A row that has been paid for, or has failed or expired, keeps its status. -/
def Terminal (status : PayTables → ℤ → Option OrderStatus) (t t' : PayTables) : Prop :=
  ∀ id s, status t id = some s → s ≠ .pending → status t' id = some s

inductive Source where
  | topUp (id : ℤ)
  | order (id : ℤ)
  | code (id : ℤ)

namespace Credit

def source : Credit → Source
  | .topUp id _ _ => .topUp id
  | .subscription id _ _ => .order id
  | .code id _ _ => .code id

def quotaFor (u : ℤ) : Option Credit → ℤ
  | some (.topUp _ userId quota) => if u = userId then quota else 0
  | some (.code _ userId quota) => if u = userId then quota else 0
  | _ => 0

def subsFor (u pl : ℤ) : Option Credit → ℕ
  | some (.subscription _ userId planId) => if userId = u ∧ planId = pl then 1 else 0
  | _ => 0

end Credit

def Spent (t : PayTables) : Source → Prop
  | .topUp id => statusOf t id = some .success
  | .order id => orderStatus t id = some .success
  | .code id => codeStatus t id = some .used

/-- One delivery: terminal statuses stay, the quotas and subscriptions change by the credit, and
a credit spends a row that was not spent. -/
structure DeliveryStep (t t' : PayTables) (credit : Option Credit) : Prop where
  topUps : Terminal statusOf t t'
  orders : Terminal orderStatus t t'
  codes : ∀ id, codeStatus t id = some .used → codeStatus t' id = some .used
  wallets : ∀ u, (t'.wallets.find? u).isSome = (t.wallets.find? u).isSome
  quotas : ∀ u, (t.wallets.find? u).isSome = true →
    t'.quota u = t.quota u + Credit.quotaFor u credit
  holds : ∀ u pl, held t' u pl = held t u pl + Credit.subsFor u pl credit
  spends : ∀ x, credit = some x → ¬ Spent t x.source ∧ Spent t' x.source

section Steps

variable {t t' : PayTables}

theorem deliveryStep_same : DeliveryStep t t none where
  topUps := fun _ _ h _ => h
  orders := fun _ _ h _ => h
  codes := fun _ h => h
  wallets := fun _ => rfl
  quotas := fun _ _ => (add_zero _).symm
  holds := fun _ _ => rfl
  spends := nofun

theorem terminal_save {V : Type} {key : V → ℤ} {rows : Table V ℤ key} {status : V → OrderStatus}
    {row new : V} (hstored : rows.find? (key row) = some row) (hid : key new = key row)
    (hopen : status row = .pending ∨ status row = status new) {id : ℤ} {s : OrderStatus}
    (hs : (rows.find? id).map status = some s) (hterminal : s ≠ .pending) :
    ((rows.save new).find? id).map status = some s := by
  rw [find?_save]
  by_cases heq : id = key new
  · rw [heq, hid, hstored, map_some] at hs
    cases hs
    rw [if_pos heq, map_some]
    rcases hopen with hpending | hsame
    · exact absurd hpending hterminal
    · rw [hsame]
  · rwa [if_neg heq]

section

variable {row new : TopUp} (hstored : t.topUps.find? row.id = some row)
  (hpending : row.status = .pending) (hid : new.id = row.id)
include hstored hpending hid

theorem deliveryStep_topUp {quota : ℤ} (hsuccess : new.status = .success)
    (hsaved : t'.topUps = t.topUps.save new) (horders : t'.orders = t.orders)
    (hcodes : t'.redemptions = t.redemptions) (hsub : t'.sub = t.sub)
    (hmoved : Moved row.userId quota t t') :
    DeliveryStep t t' (some (.topUp row.id row.userId quota)) where
  topUps := fun id s hs hterminal => by
    rw [statusOf, hsaved]
    exact terminal_save hstored hid (.inl hpending) hs hterminal
  orders := fun id s hs _ => by rwa [orderStatus, horders]
  codes := fun id h => by rwa [codeStatus, hcodes]
  wallets := hmoved.wallets
  quotas := hmoved.quotas
  holds := fun u pl => by rw [held, hsub]; rfl
  spends := by
    intro x hx
    cases hx
    constructor
    · intro hspent
      rw [Credit.source, Spent, statusOf, hstored, map_some, hpending] at hspent
      cases hspent
    · rw [Credit.source, Spent, statusOf, hsaved, find?_save, if_pos hid.symm,
        map_some, hsuccess]

theorem deliveryStep_topUpStatus :
    DeliveryStep t { t with topUps := t.topUps.save new } none :=
  { deliveryStep_same (t := t) with
    topUps := fun _ _ hs hterminal => terminal_save hstored hid (.inl hpending) hs hterminal
    spends := nofun }

end

theorem deliveryStep_orderStatus {row new : SubscriptionOrder}
    (hstored : t.orders.find? row.id = some row) (hpending : row.status = .pending)
    (hid : new.id = row.id) : DeliveryStep t { t with orders := t.orders.save new } none :=
  { deliveryStep_same (t := t) with
    orders := fun _ _ hs hterminal => terminal_save hstored hid (.inl hpending) hs hterminal
    spends := nofun }

theorem deliveryStep_code {call : Redeeming} {row : Redemption}
    (hstored : t.redemptions.find? row.id = some row) (henabled : row.status = .enabled)
    (hsaved : t'.redemptions = t.redemptions.save (usedCode call row))
    (htopUps : t'.topUps = t.topUps) (horders : t'.orders = t.orders) (hsub : t'.sub = t.sub)
    (hmoved : Moved call.userId row.quota t t') :
    DeliveryStep t t' (some (.code row.id call.userId row.quota)) where
  topUps := fun id s hs _ => by rwa [statusOf, htopUps]
  orders := fun id s hs _ => by rwa [orderStatus, horders]
  codes := by
    intro id h
    rw [codeStatus, hsaved, find?_save]
    by_cases hid : id = (usedCode call row).id
    · rw [if_pos hid]
      rfl
    · rwa [if_neg hid]
  wallets := hmoved.wallets
  quotas := hmoved.quotas
  holds := fun u pl => by rw [held, hsub]; rfl
  spends := by
    intro x hx
    cases hx
    constructor
    · intro hspent
      rw [Credit.source, Spent, codeStatus, hstored, map_some, henabled] at hspent
      cases hspent
    · have hid : row.id = (usedCode call row).id := rfl
      rw [Credit.source, Spent, codeStatus, hsaved, find?_save, if_pos hid]
      rfl

/-- A subscription for a pending order; its record among the top-ups overwrites nothing that is
settled otherwise. -/
theorem deliveryStep_order {row new : SubscriptionOrder}
    (hstored : t.orders.find? row.id = some row) (hpending : row.status = .pending)
    (hid : new.id = row.id) (hsuccess : new.status = .success)
    (hsaved : t'.orders = t.orders.save new) (htopUps : Terminal statusOf t t')
    (hcodes : t'.redemptions = t.redemptions) (hwallets : t'.wallets = t.wallets)
    (hholds : ∀ u pl, held t' u pl =
      held t u pl + if row.userId = u ∧ row.planId = pl then 1 else 0) :
    DeliveryStep t t' (some (.subscription row.id row.userId row.planId)) where
  topUps := htopUps
  orders := fun id s hs hterminal => by
    rw [orderStatus, hsaved]
    exact terminal_save hstored hid (.inl hpending) hs hterminal
  codes := fun id h => by rwa [codeStatus, hcodes]
  wallets := fun u => by rw [hwallets]
  quotas := fun u _ => by rw [PayTables.quota, hwallets]; exact (add_zero _).symm
  holds := hholds
  spends := by
    intro x hx
    cases hx
    constructor
    · intro hspent
      rw [Credit.source, Spent, orderStatus, hstored, map_some, hpending] at hspent
      cases hspent
    · rw [Credit.source, Spent, orderStatus, hsaved, find?_save, if_pos hid.symm,
        map_some, hsuccess]

end Steps

def stillStored (t : PayTables) :
    Seen (RowOp PayStmt) (RowRes PayAnswer) (Store PayTables PayWrite) → Bool
  | ⟨.exec _ (.topUpByTradeNo _), .ok (some row), _⟩ => t.topUps.find? row.id = some row
  | ⟨.exec _ (.orderByTradeNo _), .ok (some row), _⟩ => t.orders.find? row.id = some row
  | ⟨.exec _ (.redemptionByKey _), .ok (some row), _⟩ => t.redemptions.find? row.id = some row
  | _ => true

def stillOpen : Seen (RowOp PayStmt) (RowRes PayAnswer) (Store PayTables PayWrite) → Bool
  | ⟨.exec _ (.topUpByTradeNo _), .ok (some row), _⟩ =>
    row.status = .pending || row.status = .success
  | _ => true

/-- `mirrors` where the delivery also records a top-up. -/
def readsCurrent (mirrors : Bool) (past : PayHistory)
    (t : PayTables) : Bool :=
  past.all (stillStored t) && (!mirrors || past.all stillOpen)

def DeliveryPost (mirrors : Bool) (tx : TxId) (credit : Option Credit)
    (past : PayHistory) (db : Db PayTables PayWrite) : Prop :=
  readsCurrent mirrors past db.committed = true →
    DeliveryStep db.committed (seen payEngine db tx) credit

section Reads

variable {tx : TxId} {mirrors : Bool} {past : PayHistory}
  {t : PayTables}

theorem stored_of_current (h : readsCurrent mirrors past t = true) :
    ∀ e ∈ past, stillStored t e = true :=
  all_eq_true.mp (Bool.and_eq_true_iff.mp h).1

theorem stored_topUp (h : readsCurrent mirrors past t = true) {tradeNo : String} {row : TopUp}
    (ha : Answered tx past ⟨.topUpByTradeNo tradeNo, some row⟩) :
    t.topUps.find? row.id = some row := by
  obtain ⟨met, hmem⟩ := ha
  exact of_decide_eq_true (stored_of_current h _ hmem)

theorem stored_order (h : readsCurrent mirrors past t = true) {tradeNo : String}
    {row : SubscriptionOrder} (ha : Answered tx past ⟨.orderByTradeNo tradeNo, some row⟩) :
    t.orders.find? row.id = some row := by
  obtain ⟨met, hmem⟩ := ha
  exact of_decide_eq_true (stored_of_current h _ hmem)

theorem open_topUp (h : readsCurrent true past t = true) {tradeNo : String} {row : TopUp}
    (ha : Answered tx past ⟨.topUpByTradeNo tradeNo, some row⟩) :
    row.status = .pending ∨ row.status = .success := by
  obtain ⟨met, hmem⟩ := ha
  have hall : past.all stillOpen = true := (Bool.and_eq_true_iff.mp h).2
  have hopen : (decide (row.status = .pending) || decide (row.status = .success)) = true :=
    all_eq_true.mp hall _ hmem
  simpa using hopen

end Reads

/-- A transaction body, under any fault, after writes, an assertion they guard and answers. -/
abbrev Delivers (mirrors : Bool) (tx : TxId) (ok : PayGuard) :=
  PayBody tx ok (DeliveryPost mirrors tx)

abbrev SafeDelivery (mirrors : Bool) (tx : TxId) (ok : PayGuard) :=
  CallSafe payEngine tx ok (fun _ => True) (fun _ => True) (DeliveryPost mirrors tx)

section Bodies

variable {c : GatewayConfig} {tx : TxId} {mirrors : Bool}
  {ok : PayGuard}
  {ws : List PayWrite} {p : PayTables → Prop} {facts : List (Sigma PayAnswer)}

theorem body_nothing : Delivers mirrors tx ok [] (fun _ => True) facts (pure (.ok none)) := by
  apply body_ok guards_true
  rintro past db ⟨hown, -, -⟩ _
  rw [seen_of_own hown]
  exact deliveryStep_same

variable {tradeNo : String}

theorem body_saveAndCredit {topUp : TopUp} {now quota : ℤ}
    {fields : PayProg (Except String UserFields)} (hpending : topUp.status = .pending)
    (hread : ⟨.topUpByTradeNo tradeNo, some topUp⟩ ∈ facts)
    (hfields : ∀ ws (k : Except String UserFields → PayProg (Except String (Option Credit))),
      (∀ x, Delivers mirrors tx ok ws (fun _ => True) facts (k (.error x))) →
      (∀ f, Delivers mirrors tx ok ws (fun _ => True) facts (k (.ok f))) →
      Delivers mirrors tx ok ws (fun _ => True) facts (fields >>= k)) :
    Delivers mirrors tx ok [] (fun _ => True) facts (saveAndCredit tx topUp now quota fields) := by
  refine body_write atFault_true guards_true (fun _ => rfl) (fun _ => body_fail) ?_
  refine hfields _ _ (fun _ => body_fail) ?_
  intro f
  refine body_credit atFault_true guards_true (fun _ => body_fail) ?_
  intro affected there
  apply body_ok (guards_true.and guards_wallet)
  rintro past db ⟨hown, ⟨-, hthere⟩, hanswers⟩ hcurrent
  have hstored := stored_topUp hcurrent (hanswers _ hread)
  have hid : (finished topUp .success now).id = topUp.id := rfl
  rw [seen_of_own hown]
  refine deliveryStep_topUp hstored hpending hid rfl ?_ ?_ ?_ ?_ (moved_creditWrites f hthere ?_)
  all_goals cases there <;> rfl

section

variable {settle : TopUp → PayProg (Except String (Option Credit))}
  (hsettle : ∀ topUp : TopUp, topUp.status = .pending → Delivers mirrors tx ok [] (fun _ => True) [⟨.topUpByTradeNo tradeNo, some topUp⟩] (settle topUp))
include hsettle

theorem body_recharge {provider : PaymentProvider} {idempotent : Bool} :
    Delivers mirrors tx ok [] (fun _ => True) []
      (rechargeBody tx tradeNo provider idempotent settle) := by
  refine body_read atFault_true guards_true (fun _ => ⟨_, rfl⟩) (fun _ => body_fail) ?_
  intro found
  refine body_mono (fun _ _ => trivial) ?_
  cases found with
  | none => exact body_fail
  | some topUp =>
    dsimp only [settleRead]
    split
    · exact body_fail
    split
    · exact body_nothing
    split
    · exact body_fail
    rename_i hpending
    exact hsettle topUp (not_not.mp hpending)

theorem callSafe_rechargeWith {provider : PaymentProvider} {idempotent : Bool} :
    SafeDelivery mirrors tx ok (rechargeWith tx tradeNo provider idempotent settle) := by
  unfold rechargeWith
  split
  · exact callSafe_fail
  refine callSafe_then (fun a => rfl) ?_ (fun _ => callSafe_fail) (fun _ _ _ h => h)
    (callSafe_transaction atFault_true guards_true (body_recharge hsettle))
  nofun

end

variable {now : ℤ}

theorem callSafe_recharge {referenceId customerId : String} : SafeDelivery mirrors tx ok
      (recharge c tx referenceId customerId now) := by
  refine callSafe_rechargeWith fun topUp hpending => ?_
  exact body_saveAndCredit hpending (mem_singleton_self _) fun ws k _ hpass => hpass _

theorem callSafe_rechargeCreem {referenceId customerEmail : String} : SafeDelivery mirrors tx ok
      (rechargeCreem tx referenceId customerEmail now) := by
  refine callSafe_rechargeWith fun topUp hpending => ?_
  refine body_saveAndCredit hpending (mem_singleton_self _) fun ws k hfail hpass => ?_
  unfold creemFields
  split
  · exact hpass _
  refine body_read atFault_true guards_true (fun _ => ⟨_, rfl⟩) (fun x => ?_) ?_
  · exact body_mono (fun _ _ => trivial) (hfail x)
  intro found
  refine body_mono (fun _ _ => trivial) (body_forget ?_)
  cases found with
  | none => exact hfail _
  | some user => exact hpass _

theorem body_settleUnits {topUp : TopUp} (hpending : topUp.status = .pending) :
    Delivers mirrors tx ok [] (fun _ => True)
      [⟨.topUpByTradeNo tradeNo, some topUp⟩] (settleUnits c tx now topUp) := by
  unfold settleUnits
  split
  · exact body_fail
  · exact body_saveAndCredit hpending (mem_singleton_self _) fun ws k _ hpass => hpass _

theorem callSafe_updatePending {expected : Option PaymentProvider} {target : OrderStatus} :
    SafeDelivery mirrors tx ok (updatePendingTopUpStatus tx tradeNo expected target) := by
  unfold updatePendingTopUpStatus
  split
  · exact callSafe_fail
  apply callSafe_transaction atFault_true guards_true
  refine body_read atFault_true guards_true (fun _ => ⟨_, rfl⟩) (fun _ => body_fail) ?_
  intro found
  refine body_mono (fun _ _ => trivial) ?_
  cases found with
  | none => exact body_fail
  | some topUp =>
    dsimp only [updateRead]
    split
    · exact body_fail
    split
    · exact body_fail
    rename_i hpending
    refine body_write atFault_true guards_true (fun _ => rfl) (fun _ => body_fail) ?_
    apply body_ok guards_true
    rintro past db ⟨hown, -, hanswers⟩ hcurrent
    rw [seen_of_own hown]
    exact deliveryStep_topUpStatus (stored_topUp hcurrent (hanswers _ (mem_singleton_self _)))
      (not_not.mp hpending) rfl

theorem callSafe_expire {expected : Option PaymentProvider} : SafeDelivery mirrors tx ok
      (expireSubscriptionOrder tx tradeNo expected now) := by
  unfold expireSubscriptionOrder
  split
  · exact callSafe_fail
  apply callSafe_transaction atFault_true guards_true
  refine body_read atFault_true guards_true (fun _ => ⟨_, rfl⟩) (fun _ => body_fail) ?_
  intro found
  refine body_mono (fun _ _ => trivial) ?_
  cases found with
  | none => exact body_fail
  | some order =>
    dsimp only [expireRead]
    split
    · exact body_fail
    split
    · exact body_nothing
    rename_i hpending
    refine body_write atFault_true guards_true (fun _ => rfl) (fun _ => body_fail) ?_
    apply body_ok guards_true
    rintro past db ⟨hown, -, hanswers⟩ hcurrent
    rw [seen_of_own hown]
    exact deliveryStep_orderStatus (stored_order hcurrent (hanswers _ (mem_singleton_self _)))
      (not_not.mp hpending) rfl

theorem callSafe_redeem {call : Redeeming} : SafeDelivery mirrors tx ok (redeem tx call) := by
  unfold redeem
  split
  · exact callSafe_fail
  split
  · exact callSafe_fail
  refine callSafe_then (fun a => rfl) ?_ (fun _ => callSafe_fail) (fun _ _ _ h => h)
    (callSafe_transaction atFault_true guards_true ?_)
  · nofun
  refine body_read atFault_true guards_true (fun _ => ⟨_, rfl⟩) (fun _ => body_fail) ?_
  intro found
  refine body_mono (fun _ _ => trivial) ?_
  cases found with
  | none => exact body_fail
  | some code =>
    dsimp only [redeemRead]
    split
    · exact body_fail
    rename_i henabled
    split
    · exact body_fail
    refine body_credit atFault_true guards_true (fun _ => body_fail) ?_
    intro affected there
    refine body_write atFault_true (guards_true.and guards_wallet) (fun _ => rfl)
      (fun _ => body_fail) ?_
    apply body_ok (guards_true.and guards_wallet)
    rintro past db ⟨hown, ⟨-, hthere⟩, hanswers⟩ hcurrent
    obtain ⟨met, hmem⟩ := hanswers _ (mem_singleton_self _)
    have hstored := of_decide_eq_true (stored_of_current hcurrent _ hmem)
    rw [seen_of_own hown]
    refine deliveryStep_code hstored (not_not.mp henabled) ?_ ?_ ?_ ?_
      (moved_creditWrites .none hthere ?_)
    all_goals cases there <;> rfl

/-- The record of a subscription order: the write, the assertion its lock guards, and what it
has read. -/
inductive Mirror (call : OrderCompletion) (order : SubscriptionOrder) :
    PayWrite → (PayTables → Prop) → List (Sigma PayAnswer) → Prop where
  | created : Mirror call order (.addTopUp (newMirror call order))
      (fun t => t.topUps.find? call.topUpId = none) []
  | updated (topUp : TopUp) : Mirror call order (.putTopUp (updatedMirror call order topUp))
      (fun _ => True) [⟨.topUpByTradeNo order.tradeNo, some topUp⟩]

variable {call : OrderCompletion} {free : PayTables → Prop} {more : List (Sigma PayAnswer)}
  {order : SubscriptionOrder}

section

variable {w : PayWrite} (h : Mirror call order w free more)
include h

theorem Mirror.guards (hw : w ∈ ws) : Guards payEngine ws free := by
  cases h with
  | created => exact guards_topUp hw (mem_cons_self)
  | updated topUp => exact guards_true

theorem Mirror.terminal {past : PayHistory} {t : PayTables}
    (hcurrent : readsCurrent true past t = true) (hanswers : ∀ fact ∈ more, Answered tx past fact)
    (hfree : free t) (t₁ : PayTables) (hsame : t₁.topUps = t.topUps) :
    Terminal statusOf t (applyPay w t₁) := by
  intro id s hs hterminal
  cases h with
  | created =>
    have hne : id ≠ (newMirror call order).id := by
      rintro rfl
      rw [statusOf, newMirror, hfree] at hs
      cases hs
    change ((t₁.topUps.insert (newMirror call order)).find? id).map TopUp.status = some s
    rw [hsame, find?_insert_of_ne hne]
    exact hs
  | updated topUp =>
    have hread := hanswers _ (mem_singleton_self _)
    change ((t₁.topUps.save (updatedMirror call order topUp)).find? id).map TopUp.status = some s
    rw [hsame]
    have hid : (updatedMirror call order topUp).id = topUp.id := rfl
    exact terminal_save (stored_topUp hcurrent hread) hid (open_topUp hcurrent hread) hs hterminal

theorem Mirror.leaves (t : PayTables) : ∃ rows, applyPay w t = { t with topUps := rows } := by
  cases h with
  | created | updated topUp => exact ⟨_, rfl⟩

end

theorem execute_createTopUp {t : PayTables} {row : TopUp} {b : Unit} {vs : List PayWrite}
    (h : execute (.createTopUp row) t = .ok (b, vs)) :
    vs = [.addTopUp row] ∧ t.topUps.find? row.id = none := by
  simp only [execute] at h
  split at h
  · cases h
  next hnew =>
    cases h
    refine ⟨rfl, not_isSome_iff_eq_none.mp fun hold => hnew ?_⟩
    rw [hold, Bool.or_true]

theorem body_upsert {k : Except String Unit → PayProg (Except String (Option Credit))}
    (hview : ∀ t, (applyAll payEngine ws t).topUps = t.topUps) (hguard : Guards payEngine ws p)
    (hfail : ∀ x ws p facts, Delivers mirrors tx ok ws p facts (k (.error x)))
    (hpass : ∀ w free more, Mirror call order w free more → Delivers mirrors tx ok (ws ++ [w])
        (fun t => p t ∧ free t) (facts ++ more) (k (.ok ()))) :
    Delivers mirrors tx ok ws p facts (upsertSubscriptionTopUpTx tx call order >>= k) := by
  refine body_read atFault_true hguard (fun _ => ⟨_, rfl⟩) (fun x => hfail x _ _ _) ?_
  intro found
  refine body_mono (fun _ h => h.1) ?_
  change Body _ _ _ _ _ _ _ _ (mirrorFound tx call order found >>= k)
  cases found with
  | none =>
    refine body_forget (body_exec atFault_true hguard (fun x => hfail x _ _ _) ?_)
    intro b vs t _ hexec
    obtain ⟨rfl, -⟩ := execute_createTopUp hexec
    have hnext := hpass _ _ _ .created
    rw [append_nil] at hnext
    refine body_forget (body_mono ?_ hnext)
    rintro t' ⟨hp, hexec'⟩
    have hfree := (execute_createTopUp hexec').2
    rw [hview] at hfree
    exact ⟨hp, hfree⟩
  | some topUp =>
    rw [mirrorFound]
    split
    · exact hfail _ _ _ _
    refine body_write atFault_true hguard (fun _ => rfl) (fun x => hfail x _ _ _) ?_
    exact body_mono (fun _ hp => ⟨hp, trivial⟩) (hpass _ _ _ (.updated topUp))

theorem body_completePending (hpending : order.status = .pending) :
    Delivers true tx ok [] (fun _ => True)
      [⟨.orderByTradeNo call.tradeNo, some order⟩] (completePending c tx call order) := by
  refine body_getListedPlan guards_true (fun _ _ => body_fail) ?_
  intro plan hid
  refine body_mono (fun _ _ => trivial) ?_
  refine body_grant (fun _ => rfl) (fun _ => guards_true) (fun _ _ _ _ => body_fail) ?_
  intro vs more sub hgranted
  have hnew : ∀ later, Guards payEngine (vs ++ later) fun t =>
      True ∧ t.sub.subs.find? call.subId = none := by
    intro later
    obtain ⟨gs, hvs, -⟩ := hgranted.writes
    refine guards_true.and ?_
    rw [← hgranted.newId]
    exact guards_newSub (mem_append_left later (by rw [hvs]; simp))
  refine body_upsert (fun t => hgranted.topUps t) (by simpa using hnew []) ?_ ?_
  · exact fun _ _ _ _ => body_fail
  intro w free more' hmirror
  have hkept : ∀ later, Guards payEngine (vs ++ [w] ++ later) fun t =>
      (True ∧ t.sub.subs.find? call.subId = none) ∧ free t := by
    intro later
    rw [append_assoc]
    exact (hnew _).and (hmirror.guards (by simp))
  refine body_write atFault_true (by simpa using hkept []) (fun _ => rfl) (fun _ => body_fail) ?_
  refine body_ok (hkept _) ?_
  rintro past db ⟨hown, ⟨⟨-, hfree⟩, hmirrorFree⟩, hanswers⟩ hcurrent
  have hstored := stored_order hcurrent (hanswers ⟨.orderByTradeNo call.tradeNo, some order⟩ (by simp))
  obtain ⟨s, hs, hheld⟩ := hgranted.effect hfree
  obtain ⟨rows, hrows⟩ := hmirror.leaves (applyAll payEngine vs db.committed)
  have hterminal := hmirror.terminal hcurrent
    (fun fact hfact => hanswers fact (by simp [hfact])) hmirrorFree
    (applyAll payEngine vs db.committed) (by rw [hs])
  have hseen : seen payEngine db tx = applyPay (.putOrder (completedOrder call order))
      (applyPay w (applyAll payEngine vs db.committed)) := by
    rw [seen_of_own hown, nil_append, applyAll_append, applyAll_append]
    rfl
  have hplan : plan.toSubscriptionPlan.id = order.planId := hid
  rw [hseen]
  refine deliveryStep_order hstored hpending (rfl : (completedOrder call order).id = order.id)
    rfl ?_ hterminal ?_ ?_ ?_
  · rw [hrows, hs]
    rfl
  · rw [hrows, hs]
    rfl
  · rw [hrows, hs]
    rfl
  · intro u pl
    rw [← hplan, ← hheld u pl, hrows]
    rfl

theorem callSafe_complete : SafeDelivery true tx ok (completeSubscriptionOrder c tx call) := by
  unfold completeSubscriptionOrder
  split
  · exact callSafe_fail
  apply callSafe_transaction atFault_true guards_true
  refine body_read atFault_true guards_true (fun _ => ⟨_, rfl⟩) (fun _ => body_fail) ?_
  intro found
  refine body_mono (fun _ _ => trivial) ?_
  cases found with
  | none => exact body_fail
  | some order =>
    dsimp only [completeRead]
    split
    · exact body_fail
    split
    · exact body_nothing
    split
    · exact body_fail
    rename_i hpending
    exact body_completePending (not_not.mp hpending)

end Bodies

end PaymentDeliveries
