import TinyToken.LockingPools
import TinyToken.SubscriptionPeriods

/-! The tables of the payment code: wallets, top-up orders with their approvals, subscription
orders, redemption codes, plans on sale, the saved rule of the automatic approval, and the
subscription tables. A plain SELECT takes no lock; `clause.Locking` and every write lock
the row until the transaction ends. -/
namespace PaymentStore

open LockingStore LockingPools KeyedTable SubscriptionRows SubscriptionPeriods List Option Table
open ReadCommittedStore (TxId TxOp Db)
open TransactionPools (Store)

inductive PaymentProvider where
  | epay | stripe | creem | waffo | waffoPancake | balance | promptPay | otherManual
  | other (text : String)
  deriving DecidableEq

inductive OrderStatus where
  | pending | success | failed | expired
  deriving DecidableEq

structure TopUp where
  id : ℤ
  userId : ℤ
  amount : ℤ
  money : ℚ
  tradeNo : String
  paymentMethod : String
  paymentProvider : PaymentProvider
  createTime : ℤ
  completeTime : ℤ
  status : OrderStatus
  deriving DecidableEq

/-- The columns of a user row that payments touch; the group is a column of the same row. -/
structure Wallet where
  id : ℤ
  quota : ℤ
  email : String
  stripeCustomer : String

structure TopUpApproval where
  topUpId : ℤ
  tradeNo : String
  userId : ℤ
  paymentAmount : ℚ
  credits : ℤ
  approvedAt : ℤ
  method : String
  telegramAdminId : ℤ
  verifiedReference : Option String

structure SubscriptionOrder where
  id : ℤ
  userId : ℤ
  planId : ℤ
  money : ℚ
  tradeNo : String
  paymentMethod : String
  paymentProvider : PaymentProvider
  status : OrderStatus
  createTime : ℤ
  completeTime : ℤ
  providerPayload : String
  deriving DecidableEq

inductive RedemptionStatus where
  | enabled | disabled | used
  deriving DecidableEq

structure Redemption where
  id : ℤ
  key : String
  status : RedemptionStatus
  quota : ℤ
  redeemedTime : ℤ
  usedUserId : ℤ
  expiredTime : ℤ
  deriving DecidableEq

structure PromptPayAutoConfig where
  enabled : Bool
  mode : String
  start : String
  stop : String
  timezone : String
  allowedUserIds : List ℤ
  maxAmountTHB : ℤ
  deriving DecidableEq

/-- The value of the saved option: JSON of a rule, or a text that does not decode. -/
inductive SavedRule where
  | config (cfg : PromptPayAutoConfig)
  | malformed (text : String)

/-- The approvals, with a unique index on the order and one on the reference. -/
structure Approvals where
  rows : List TopUpApproval
  orders : (rows.map TopUpApproval.topUpId).Nodup
  references : (rows.filterMap TopUpApproval.verifiedReference).Nodup

def Approvals.empty : Approvals := ⟨[], nodup_nil, nodup_nil⟩

def Approvals.Clashes (t : Approvals) (a : TopUpApproval) : Prop :=
  a.topUpId ∈ t.rows.map TopUpApproval.topUpId ∨
    ∃ r ∈ a.verifiedReference, r ∈ t.rows.filterMap TopUpApproval.verifiedReference

instance (t : Approvals) (a : TopUpApproval) : Decidable (t.Clashes a) :=
  inferInstanceAs (Decidable (_ ∨ _))

def Approvals.add (t : Approvals) (a : TopUpApproval) : Approvals :=
  if h : t.Clashes a then t
  else
    { rows := t.rows ++ [a]
      orders := by
        rw [map_append, map_singleton]
        refine nodup_append.mpr ⟨t.orders, nodup_singleton _, ?_⟩
        intro x hx y hy hxy
        rw [hxy, mem_singleton.mp hy] at hx
        exact h (Or.inl hx)
      references := by
        rw [filterMap_append]
        refine nodup_append.mpr ⟨t.references, ?_, ?_⟩
        · cases hr : a.verifiedReference <;> simp [hr]
        · intro x hx y hy hxy
          rw [hxy] at hx
          refine h (Or.inr ⟨y, ?_, hx⟩)
          simpa using hy }

theorem Approvals.add_rows {t : Approvals} {a : TopUpApproval} (h : ¬ t.Clashes a) :
    (t.add a).rows = t.rows ++ [a] := by
  simp [Approvals.add, h]

structure PayTables where
  wallets : Table Wallet ℤ Wallet.id
  topUps : Table TopUp ℤ TopUp.id
  approvals : Approvals
  orders : Table SubscriptionOrder ℤ SubscriptionOrder.id
  redemptions : Table Redemption ℤ Redemption.id
  plans : Table ListedPlan ℤ fun plan => plan.id
  rule : Option SavedRule
  sub : Tables

namespace PayTables

/-- `First` on the unique trade number. -/
def topUpByTradeNo (t : PayTables) (tradeNo : String) : Option TopUp :=
  t.topUps.rows.find? fun row => row.tradeNo = tradeNo

def orderByTradeNo (t : PayTables) (tradeNo : String) : Option SubscriptionOrder :=
  t.orders.rows.find? fun row => row.tradeNo = tradeNo

def redemptionByKey (t : PayTables) (key : String) : Option Redemption :=
  t.redemptions.rows.find? fun row => row.key = key

def quota (t : PayTables) (userId : ℤ) : ℤ := ((t.wallets.find? userId).map Wallet.quota).getD 0

end PayTables

structure UserFields where
  email : Option String
  stripeCustomer : Option String

def UserFields.none : UserFields := ⟨.none, .none⟩

inductive PayStmt where
  | sub (q : SubQuery)
  | subWrite (w : SubWrite)
  | planById (id : ℤ)
  | topUpByTradeNo (tradeNo : String)
  | lockTopUpByTradeNo (tradeNo : String)
  | saveTopUp (row : TopUp)
  | createTopUp (row : TopUp)
  /-- `UPDATE … WHERE id = ? AND status = 'pending'`, answering the rows affected -/
  | finishPendingTopUp (id : ℤ) (status : OrderStatus) (completeTime : ℤ)
  | selectUser (userId : ℤ)
  /-- `UPDATE … SET quota = quota + ? WHERE id = ?`, answering the rows affected -/
  | addQuota (userId delta : ℤ) (fields : UserFields)
  | createApproval (row : TopUpApproval)
  | orderByTradeNo (tradeNo : String)
  | saveOrder (row : SubscriptionOrder)
  | createOrder (row : SubscriptionOrder)
  | redemptionByKey (key : String)
  | saveRedemption (row : Redemption)
  | rule
  | lockRule
  | saveRule (value : SavedRule)
  /-- `UPDATE … SET value = ? WHERE key = ?`, answering the rows affected -/
  | overwriteRule (value : SavedRule)

def PayAnswer : PayStmt → Type
  | .sub q => SubAnswer q
  | .subWrite _ => Unit
  | .planById _ => Option ListedPlan
  | .topUpByTradeNo _ => Option TopUp
  | .lockTopUpByTradeNo _ => Option TopUp
  | .saveTopUp _ => Unit
  | .createTopUp _ => Unit
  | .finishPendingTopUp _ _ _ => ℕ
  | .selectUser _ => Option Wallet
  | .addQuota _ _ _ => ℕ
  | .createApproval _ => Unit
  | .orderByTradeNo _ => Option SubscriptionOrder
  | .saveOrder _ => Unit
  | .createOrder _ => Unit
  | .redemptionByKey _ => Option Redemption
  | .saveRedemption _ => Unit
  | .rule => Option SavedRule
  | .lockRule => Option SavedRule
  | .saveRule _ => Unit
  | .overwriteRule _ => ℕ

inductive PayWrite where
  | sub (w : SubWrite)
  | holdTopUp (id : ℤ)
  | putTopUp (row : TopUp)
  | addTopUp (row : TopUp)
  | credit (userId delta : ℤ) (fields : UserFields)
  | addApproval (row : TopUpApproval)
  | putOrder (row : SubscriptionOrder)
  | addOrder (row : SubscriptionOrder)
  | putRedemption (row : Redemption)
  | holdRule
  | putRule (value : SavedRule)

def duplicatedKey : String := "duplicated key not allowed"

def execute : (s : PayStmt) → PayTables → Except String (PayAnswer s × List PayWrite)
  | .sub q, t => .ok (answer q t.sub, [])
  | .subWrite w, t => if accepts w t.sub then .ok ((), [.sub w]) else .error duplicatedKey
  | .planById id, t => .ok (t.plans.find? id, [])
  | .topUpByTradeNo tradeNo, t => .ok (t.topUpByTradeNo tradeNo, [])
  | .lockTopUpByTradeNo tradeNo, t =>
    match t.topUpByTradeNo tradeNo with
    | none => .ok (none, [])
    | some row => .ok (some row, [.holdTopUp row.id])
  | .saveTopUp row, _ => .ok ((), [.putTopUp row])
  | .createTopUp row, t =>
    if (t.topUpByTradeNo row.tradeNo).isSome || (t.topUps.find? row.id).isSome then
      .error duplicatedKey
    else .ok ((), [.addTopUp row])
  | .finishPendingTopUp id status completeTime, t =>
    match (t.topUps.find? id).filter fun row => row.status = .pending with
    | none => .ok ((0 : ℕ), [])
    | some row =>
      .ok ((1 : ℕ), [.putTopUp { row with status := status, completeTime := completeTime }])
  | .selectUser userId, t => .ok (t.wallets.find? userId, [])
  | .addQuota userId delta fields, t =>
    if (t.wallets.find? userId).isSome then .ok ((1 : ℕ), [.credit userId delta fields])
    else .ok ((0 : ℕ), [])
  | .createApproval row, t =>
    if t.approvals.Clashes row then .error duplicatedKey else .ok ((), [.addApproval row])
  | .orderByTradeNo tradeNo, t => .ok (t.orderByTradeNo tradeNo, [])
  | .saveOrder row, _ => .ok ((), [.putOrder row])
  | .createOrder row, t =>
    if (t.orderByTradeNo row.tradeNo).isSome || (t.orders.find? row.id).isSome then
      .error duplicatedKey
    else .ok ((), [.addOrder row])
  | .redemptionByKey key, t => .ok (t.redemptionByKey key, [])
  | .saveRedemption row, _ => .ok ((), [.putRedemption row])
  | .rule, t => .ok (t.rule, [])
  | .lockRule, t =>
    match t.rule with
    | none => .ok (none, [])
    | some value => .ok (some value, [.holdRule])
  | .saveRule value, _ => .ok ((), [.putRule value])
  | .overwriteRule value, t =>
    if t.rule.isSome then .ok ((1 : ℕ), [.putRule value]) else .ok ((0 : ℕ), [])

def creditWallet (userId delta : ℤ) (fields : UserFields) (w : Wallet) : Wallet :=
  if w.id = userId then
    { w with
      quota := w.quota + delta
      email := fields.email.getD w.email
      stripeCustomer := fields.stripeCustomer.getD w.stripeCustomer }
  else w

theorem creditWallet_id (userId delta : ℤ) (fields : UserFields) (w : Wallet) :
    (creditWallet userId delta fields w).id = w.id := by
  unfold creditWallet
  split <;> rfl

def creditWallets (wallets : Table Wallet ℤ Wallet.id) (userId delta : ℤ) (fields : UserFields) :
    Table Wallet ℤ Wallet.id :=
  wallets.modify (creditWallet userId delta fields) (creditWallet_id userId delta fields)

theorem find?_creditWallets (wallets : Table Wallet ℤ Wallet.id) (userId delta : ℤ)
    (fields : UserFields) (k : ℤ) :
    (creditWallets wallets userId delta fields).find? k =
      (wallets.find? k).map (creditWallet userId delta fields) :=
  wallets.find?_modify _ _ k

def applyPay : PayWrite → PayTables → PayTables
  | .sub w, t => { t with sub := applyWrite w t.sub }
  | .holdTopUp _, t => t
  | .putTopUp row, t => { t with topUps := t.topUps.save row }
  | .addTopUp row, t => { t with topUps := t.topUps.insert row }
  | .credit userId delta fields, t => 
    { t with wallets := creditWallets t.wallets userId delta fields }
  | .addApproval row, t => { t with approvals := t.approvals.add row }
  | .putOrder row, t => { t with orders := t.orders.save row }
  | .addOrder row, t => { t with orders := t.orders.insert row }
  | .putRedemption row, t => { t with redemptions := t.redemptions.save row }
  | .holdRule, t => t
  | .putRule value, t => { t with rule := some value }

inductive PayLock where
  | row (lock : RowLock)
  | topUp (id : ℤ)
  | topUpTradeNo (tradeNo : String)
  | approvalOf (topUpId : ℤ)
  | reference (text : String)
  | order (id : ℤ)
  | orderTradeNo (tradeNo : String)
  | redemption (id : ℤ)
  | rule
  deriving DecidableEq

def PayWrite.locks : PayWrite → List PayLock
  | .sub w => [.row w.lock]
  | .holdTopUp id => [.topUp id]
  | .putTopUp row => [.topUp row.id]
  | .addTopUp row => [.topUp row.id, .topUpTradeNo row.tradeNo]
  | .credit userId _ _ => [.row (.user userId)]
  | .addApproval row =>
    .approvalOf row.topUpId :: row.verifiedReference.toList.map PayLock.reference
  | .putOrder row => [.order row.id]
  | .addOrder row => [.order row.id, .orderTradeNo row.tradeNo]
  | .putRedemption row => [.redemption row.id]
  | .holdRule => [.rule]
  | .putRule _ => [.rule]

def PayLock.covers : PayLock → PayLock → Bool
  | .row (.subsOf _), .row (.sub _) => true
  | _, _ => false

def PayLock.meets (x y : PayLock) : Bool := x = y || x.covers y || y.covers x

theorem PayLock.meets_symm (x y : PayLock) : x.meets y = y.meets x := by
  have heq : decide (x = y) = decide (y = x) := by simp [eq_comm]
  simp only [PayLock.meets, heq]
  cases x.covers y <;> cases y.covers x <;> simp

def payConflicts (v w : PayWrite) : Bool := v.locks.any fun x => w.locks.any fun y => x.meets y

theorem payConflicts_symm (v w : PayWrite) : payConflicts v w = payConflicts w v := by
  rw [Bool.eq_iff_iff]
  simp only [payConflicts, List.any_eq_true]
  constructor
  all_goals
    rintro ⟨x, hx, y, hy, hxy⟩
    exact ⟨y, hy, x, hx, by rwa [PayLock.meets_symm]⟩

def payEngine : RowEngine PayTables PayStmt PayWrite PayAnswer where
  exec := execute
  apply := applyPay
  conflicts := payConflicts
  symm := payConflicts_symm

abbrev PayProg := RowProg PayStmt PayAnswer

abbrev PayHistory := History PayStmt PayTables PayWrite PayAnswer

abbrev PayGuard := PayHistory → RowOp PayStmt → Store PayTables PayWrite → Prop

abbrev PayPost (α : Type) := α → PayHistory → Db PayTables PayWrite → Prop

/-- A body of which nothing is asked when it fails. -/
abbrev PayBody {α : Type} (tx : TxId) (ok : PayGuard) (P : PayPost α) (ws : List PayWrite) :=
  Body payEngine tx ok (fun _ => True) P ws

def embed {α : Type} : SubProg α → PayProg α
  | .pure a => .pure a
  | .op (.start tx) k => .op (.start tx) fun r => embed (k r)
  | .op (.query tx q) k => .op (.exec tx (.sub q)) fun r => embed (k r)
  | .op (.write tx w) k => .op (.exec tx (.subWrite w)) fun r => embed (k r)
  | .op (.commit tx) k => .op (.commit tx) fun r => embed (k r)
  | .op (.rollback tx) k => .op (.rollback tx) fun r => embed (k r)
  | .diverge => .diverge

section Statements

variable (tx : TxId)

def selectPlanById (id : ℤ) : PayProg (Except String (Option ListedPlan)) :=
  exec tx (PayStmt.planById id)

def selectTopUp (tradeNo : String) : PayProg (Except String (Option TopUp)) :=
  exec tx (PayStmt.topUpByTradeNo tradeNo)

def lockTopUp (tradeNo : String) : PayProg (Except String (Option TopUp)) :=
  exec tx (PayStmt.lockTopUpByTradeNo tradeNo)

def saveTopUp (row : TopUp) : PayProg (Except String Unit) := exec tx (PayStmt.saveTopUp row)

def createTopUp (row : TopUp) : PayProg (Except String Unit) := exec tx (PayStmt.createTopUp row)

def finishPendingTopUp (id : ℤ) (status : OrderStatus) (completeTime : ℤ) :
    PayProg (Except String ℕ) :=
  exec tx (PayStmt.finishPendingTopUp id status completeTime)

def selectUser (userId : ℤ) : PayProg (Except String (Option Wallet)) :=
  exec tx (PayStmt.selectUser userId)

def addQuota (userId delta : ℤ) (fields : UserFields) : PayProg (Except String ℕ) :=
  exec tx (PayStmt.addQuota userId delta fields)

def createApproval (row : TopUpApproval) : PayProg (Except String Unit) :=
  exec tx (PayStmt.createApproval row)

def selectOrder (tradeNo : String) : PayProg (Except String (Option SubscriptionOrder)) :=
  exec tx (PayStmt.orderByTradeNo tradeNo)

def saveOrder (row : SubscriptionOrder) : PayProg (Except String Unit) :=
  exec tx (PayStmt.saveOrder row)

def createOrder (row : SubscriptionOrder) : PayProg (Except String Unit) :=
  exec tx (PayStmt.createOrder row)

def selectRedemption (key : String) : PayProg (Except String (Option Redemption)) :=
  exec tx (PayStmt.redemptionByKey key)

def saveRedemption (row : Redemption) : PayProg (Except String Unit) :=
  exec tx (PayStmt.saveRedemption row)

def selectRule : PayProg (Except String (Option SavedRule)) := exec tx PayStmt.rule

def lockRule : PayProg (Except String (Option SavedRule)) := exec tx PayStmt.lockRule

def saveRule (value : SavedRule) : PayProg (Except String Unit) := exec tx (PayStmt.saveRule value)

def overwriteRule (value : SavedRule) : PayProg (Except String ℕ) :=
  exec tx (PayStmt.overwriteRule value)

end Statements

section Guards

variable {ws : List PayWrite}

theorem not_meets_of_free {v w : PayWrite} (h : payConflicts v w = false) {x y : PayLock}
    (hx : x ∈ v.locks) (hy : y ∈ w.locks) : x ≠ y := by
  rintro rfl
  have hself : x.meets x = true := by simp [PayLock.meets]
  have : payConflicts v w = true :=
    any_eq_true.mpr ⟨x, hx, any_eq_true.mpr ⟨x, hy, hself⟩⟩
  rw [h] at this
  cases this

theorem guards_topUp {id : ℤ} {row : Option TopUp} {w : PayWrite} (hw : w ∈ ws)
    (hlock : .topUp id ∈ w.locks) :
    Guards payEngine ws fun t => t.topUps.find? id = row := by
  intro v t hfree ht
  have hne : ∀ x ∈ v.locks, x ≠ .topUp id := fun x hx => not_meets_of_free (hfree w hw) hx hlock
  change (applyPay v t).topUps.find? id = row
  cases v with
  | putTopUp r =>
    have hid : id ≠ r.id := fun he => hne (.topUp r.id) (by simp [PayWrite.locks]) (by rw [he])
    simpa [applyPay, find?_save, hid] using ht
  | addTopUp r =>
    have hid : id ≠ r.id := fun he => hne (.topUp r.id) (by simp [PayWrite.locks]) (by rw [he])
    simpa [applyPay, find?_insert_of_ne hid] using ht
  | _ => exact ht

theorem guards_rule {value : Option SavedRule} {w : PayWrite} (hw : w ∈ ws)
    (hlock : .rule ∈ w.locks) : Guards payEngine ws fun t => t.rule = value := by
  intro v t hfree ht
  have hne : ∀ x ∈ v.locks, x ≠ .rule := fun x hx => not_meets_of_free (hfree w hw) hx hlock
  cases v with
  | putRule r => exact absurd rfl (hne .rule (by simp [PayWrite.locks]))
  | _ => exact ht

theorem guards_rule_saved : Guards payEngine ws fun t => t.rule.isSome = true := by
  intro v t _ ht
  cases v with
  | putRule r => rfl
  | _ => exact ht

theorem guards_approval {row : TopUpApproval} (hw : .addApproval row ∈ ws) :
    Guards payEngine ws fun t => ¬ t.approvals.Clashes row := by
  intro v t hfree ht
  have hne : ∀ x ∈ v.locks, ∀ y ∈ (PayWrite.addApproval row).locks, x ≠ y :=
    fun x hx y hy => not_meets_of_free (hfree _ hw) hx hy
  cases v with
  | addApproval r =>
    change ¬ (t.approvals.add r).Clashes row
    by_cases hr : t.approvals.Clashes r
    · simpa [Approvals.add, hr] using ht
    · simp only [Approvals.Clashes, Approvals.add_rows hr, map_append, filterMap_append,
        mem_append]
      rintro (hid | ⟨x, hx, hx'⟩)
      · rcases hid with hid | hid
        · exact ht (.inl hid)
        · have hid : row.topUpId = r.topUpId := by simpa using hid
          refine hne (.approvalOf r.topUpId) ?_ (.approvalOf row.topUpId) ?_ (by rw [hid])
          · simp [PayWrite.locks]
          · simp [PayWrite.locks]
      · rcases hx' with hx' | hx'
        · exact ht (.inr ⟨x, hx, hx'⟩)
        · have hxr : r.verifiedReference = some x := by simpa using hx'
          have hrow : row.verifiedReference = some x := by simpa using hx
          refine hne (.reference x) ?_ (.reference x) ?_ rfl
          · simp [PayWrite.locks, hxr]
          · simp [PayWrite.locks, hrow]
  | _ => exact ht

theorem guards_plan {id : ℤ} {plan : Option ListedPlan} :
    Guards payEngine ws fun t => t.plans.find? id = plan := by
  intro v t _ ht
  cases v <;> exact ht

theorem guards_wallet {userId : ℤ} {there : Bool} :
    Guards payEngine ws fun t => (t.wallets.find? userId).isSome = there := by
  intro v t _ ht
  cases v with
  | credit u d f => simpa [payEngine, applyPay, find?_creditWallets] using ht
  | _ => exact ht

end Guards

section Rules

variable {t : PayTables}

variable {tradeNo : String} {t' : PayTables}

theorem find?_topUpByTradeNo {row : TopUp} (h : t.topUpByTradeNo tradeNo = some row) :
    t.topUps.find? row.id = some row ∧ row.tradeNo = tradeNo := by
  refine ⟨find?_of_mem (mem_of_find?_eq_some h), ?_⟩
  simpa using find?_some h

theorem wallet_applyAll (ws : List PayWrite) (t : PayTables) (userId : ℤ) :
    ((applyAll payEngine ws t).wallets.find? userId).isSome = (t.wallets.find? userId).isSome := by
  induction ws generalizing t with
  | nil => rfl
  | cons w ws ih =>
    rw [applyAll_cons, ih]
    cases w with
    | credit u d f => simp [payEngine, applyPay, find?_creditWallets]
    | _ => rfl

variable {fields : UserFields} {userId delta : ℤ}

theorem quota_creditWallets {u : ℤ} (hwallet : (t.wallets.find? u).isSome = true)
    (htable : t'.wallets = creditWallets t.wallets userId delta fields) :
    t'.quota u = t.quota u + if u = userId then delta else 0 := by
  obtain ⟨w, hw⟩ := isSome_iff_exists.mp hwallet
  have hid := find?_some_key hw
  rw [PayTables.quota, PayTables.quota, htable, find?_creditWallets, hw]
  simp only [map_some, getD_some, creditWallet, hid]
  split
  · rfl
  · rw [add_zero]

/-- The quota of one user has moved, if there is such a user, and nobody else's. -/
structure Moved (userId delta : ℤ) (t t' : PayTables) : Prop where
  quotas : ∀ u, (t.wallets.find? u).isSome = true →
    t'.quota u = t.quota u + if u = userId then delta else 0
  wallets : ∀ u, (t'.wallets.find? u).isSome = (t.wallets.find? u).isSome

theorem moved_zero (userId : ℤ) (h : t'.wallets = t.wallets) : Moved userId 0 t t' where
  quotas := fun u _ => by simp [PayTables.quota, h]
  wallets := fun u => by rw [h]

/-- What an update of the quota writes: nothing where the user does not exist. -/
def creditWrites (userId delta : ℤ) (fields : UserFields) (there : Bool) : List PayWrite :=
  if there then [.credit userId delta fields] else []

theorem moved_creditWrites (fields : UserFields) {there : Bool}
    (h : (t.wallets.find? userId).isSome = there) {t' : PayTables}
    (ht' : t'.wallets = (applyAll payEngine (creditWrites userId delta fields there) t).wallets) :
    Moved userId delta t t' := by
  cases there with
  | true =>
    have htable : t'.wallets = creditWallets t.wallets userId delta fields := ht'
    refine ⟨fun u hu => quota_creditWallets hu htable, fun u => ?_⟩
    rw [htable, find?_creditWallets, isSome_map]
  | false =>
    have htable : t'.wallets = t.wallets := ht'
    refine ⟨fun u hu => ?_, fun u => by rw [htable]⟩
    have hne : u ≠ userId := by
      rintro rfl
      rw [h] at hu
      cases hu
    simp [PayTables.quota, htable, hne]

theorem Approvals.clashes_add {a : Approvals} {row r : TopUpApproval} (h : a.Clashes row) :
    (a.add r).Clashes row := by
  by_cases hr : a.Clashes r
  · simpa [Approvals.add, hr] using h
  · simp only [Approvals.Clashes, Approvals.add_rows hr, map_append, filterMap_append,
      mem_append]
    rcases h with h | ⟨x, hx, hx'⟩
    · exact .inl (.inl h)
    · exact .inr ⟨x, hx, .inl hx'⟩

variable {row : TopUpApproval}

theorem clashes_applyAll {ws : List PayWrite}
    (h : t.approvals.Clashes row) : (applyAll payEngine ws t).approvals.Clashes row := by
  induction ws generalizing t with
  | nil => exact h
  | cons w ws ih =>
    apply ih
    cases w with
    | addApproval r => exact Approvals.clashes_add h
    | _ => exact h

variable {vs : List PayWrite}

theorem execute_lockTopUp {b : Option TopUp}
    (h : execute (.lockTopUpByTradeNo tradeNo) t = .ok (b, vs)) :
    (b = none ∧ vs = []) ∨
      ∃ row, b = some row ∧ vs = [.holdTopUp row.id] ∧ t.topUpByTradeNo tradeNo = some row := by
  simp only [execute] at h
  split at h
  · cases h
    exact .inl ⟨rfl, rfl⟩
  next row hrow =>
    cases h
    exact .inr ⟨row, rfl, rfl, hrow⟩

theorem execute_finishPending {id completeTime : ℤ} {status : OrderStatus} {b : ℕ} (h : execute (.finishPendingTopUp id status completeTime) t = .ok (b, vs)) :
    (b = 0 ∧ vs = []) ∨ ∃ row, t.topUps.find? id = some row ∧ row.status = .pending ∧ b = 1 ∧
      vs = [.putTopUp { row with status := status, completeTime := completeTime }] := by
  simp only [execute] at h
  split at h
  · cases h
    exact .inl ⟨rfl, rfl⟩
  next row hrow =>
    cases h
    obtain ⟨hfind, hpending⟩ := filter_eq_some_iff.mp hrow
    exact .inr ⟨row, hfind, by simpa using hpending, rfl, rfl⟩

theorem execute_addQuota {b : ℕ} (h : execute (.addQuota userId delta fields) t = .ok (b, vs)) :
    ((t.wallets.find? userId).isSome = false ∧ b = 0 ∧ vs = []) ∨
      ((t.wallets.find? userId).isSome = true ∧ b = 1 ∧ vs = [.credit userId delta fields]) := by
  simp only [execute] at h
  split at h
  next hsome =>
    cases h
    exact .inr ⟨hsome, rfl, rfl⟩
  next hnone =>
    cases h
    exact .inl ⟨by simpa using hnone, rfl, rfl⟩

theorem execute_createApproval {b : Unit} (h : execute (.createApproval row) t = .ok (b, vs)) :
    ¬ t.approvals.Clashes row ∧ vs = [.addApproval row] := by
  simp only [execute] at h
  split at h
  · cases h
  next hfits =>
    cases h
    exact ⟨hfits, rfl⟩

theorem execute_lockRule {b : Option SavedRule} (h : execute .lockRule t = .ok (b, vs)) :
    b = t.rule ∧ ((b = none ∧ vs = []) ∨ ∃ value, b = some value ∧ vs = [.holdRule]) := by
  simp only [execute] at h
  split at h
  next hrule =>
    cases h
    exact ⟨hrule.symm, .inl ⟨rfl, rfl⟩⟩
  next value hrule =>
    cases h
    exact ⟨hrule.symm, .inr ⟨value, rfl, rfl⟩⟩

def PayStmt.indexed : PayStmt → Bool
  | .subWrite _ | .createTopUp _ | .createApproval _ | .createOrder _ => true
  | _ => false

theorem execute_ne_error {q : PayStmt} (hq : q.indexed = false) (t : PayTables) (x : String) :
    payEngine.exec q t ≠ .error x := by
  intro h
  change execute q t = .error x at h
  cases q with
  | subWrite w | createTopUp row | createApproval row | createOrder row => cases hq
  | lockTopUpByTradeNo tradeNo | finishPendingTopUp id status now | addQuota userId delta fields
  | lockRule | overwriteRule value => simp only [execute] at h; split at h <;> cases h
  | _ => cases h

variable {α : Type} {tx : TxId} {ok : PayGuard} {err : PayTables → Prop}
  {P : PayPost α}
  {ws : List PayWrite} {p : PayTables → Prop} {facts : List (Sigma PayAnswer)}

theorem body_lockTopUp {k : Except String (Option TopUp) → PayProg (Except String α)}
    (hat : AtFault payEngine ok err) (hguard : Guards payEngine ws p)
    (hfail : ∀ x, Body payEngine tx ok err P ws (fun c => p c ∧ err c) facts (k (.error x)))
    (hnone : Body payEngine tx ok err P ws p facts (k (.ok none)))
    (hsome : ∀ row, row.tradeNo = tradeNo → Body payEngine tx ok err P (ws ++ [.holdTopUp row.id])
      (fun c => p c ∧ (applyAll payEngine ws c).topUps.find? row.id = some row) facts
      (k (.ok (some row)))) :
    Body payEngine tx ok err P ws p facts (lockTopUp tx tradeNo >>= k) := by
  refine body_total hat hguard (execute_ne_error rfl) hfail fun b vs c _ hexec => body_forget ?_
  rcases execute_lockTopUp hexec with ⟨rfl, rfl⟩ | ⟨row, rfl, rfl, hrow⟩
  · rw [append_nil]
    exact body_mono (fun _ h => h.1) hnone
  · refine body_mono ?_ (hsome row (find?_topUpByTradeNo hrow).2)
    rintro c' ⟨hp, hexec'⟩
    rcases execute_lockTopUp hexec' with ⟨hnot, -⟩ | ⟨row', hrow', -, hfind⟩
    · cases hnot
    · cases hrow'
      exact ⟨hp, (find?_topUpByTradeNo hfind).1⟩

variable {k : Except String ℕ → PayProg (Except String α)}

section

variable (hat : AtFault payEngine ok err)
include hat

section

variable (hguard : Guards payEngine ws p)
include hguard

theorem body_finishPending {id completeTime : ℤ} {status : OrderStatus}
    (hfail : ∀ x, Body payEngine tx ok err P ws (fun c => p c ∧ err c) facts (k (.error x)))
    (hnone : Body payEngine tx ok err P ws p facts (k (.ok 0)))
    (hsome : ∀ row c, p c → (applyAll payEngine ws c).topUps.find? id = some row →
      Body payEngine tx ok err P
        (ws ++ [.putTopUp { row with status := status, completeTime := completeTime }])
        p facts (k (.ok 1))) :
    Body payEngine tx ok err P ws p facts (finishPendingTopUp tx id status completeTime >>= k) := by
  refine body_total hat hguard (execute_ne_error rfl) hfail fun b vs c hp hexec => body_forget (body_mono (fun _ h => h.1) ?_)
  rcases execute_finishPending hexec with ⟨rfl, rfl⟩ | ⟨row, hrow, -, rfl, rfl⟩
  · rw [append_nil]
    exact hnone
  · exact hsome row c hp hrow

theorem body_addQuota
    (hfail : ∀ x, Body payEngine tx ok err P ws (fun c => p c ∧ err c) facts (k (.error x)))
    (hnone : Body payEngine tx ok err P ws
      (fun c => p c ∧ (c.wallets.find? userId).isSome = false) facts (k (.ok 0)))
    (hsome : Body payEngine tx ok err P (ws ++ [.credit userId delta fields])
      (fun c => p c ∧ (c.wallets.find? userId).isSome = true) facts (k (.ok 1))) :
    Body payEngine tx ok err P ws p facts (addQuota tx userId delta fields >>= k) := by
  refine body_total hat hguard (execute_ne_error rfl) hfail fun b vs c _ hexec => body_forget ?_
  rcases execute_addQuota hexec with ⟨-, rfl, rfl⟩ | ⟨-, rfl, rfl⟩
  · rw [append_nil]
    refine body_mono ?_ hnone
    rintro c' ⟨hp, hexec'⟩
    rcases execute_addQuota hexec' with ⟨hwallet, -, -⟩ | ⟨-, hone, -⟩
    · exact ⟨hp, by rwa [wallet_applyAll] at hwallet⟩
    · cases hone
  · refine body_mono ?_ hsome
    rintro c' ⟨hp, hexec'⟩
    rcases execute_addQuota hexec' with ⟨-, hzero, -⟩ | ⟨hwallet, -, -⟩
    · cases hzero
    · exact ⟨hp, by rwa [wallet_applyAll] at hwallet⟩

theorem body_credit
    (hfail : ∀ x, Body payEngine tx ok err P ws (fun c => p c ∧ err c) facts (k (.error x)))
    (hpass : ∀ affected there,
      Body payEngine tx ok err P (ws ++ creditWrites userId delta fields there)
        (fun c => p c ∧ (c.wallets.find? userId).isSome = there) facts (k (.ok affected))) :
    Body payEngine tx ok err P ws p facts (addQuota tx userId delta fields >>= k) := by
  refine body_addQuota hat hguard hfail ?_ (hpass 1 true)
  have hnone := hpass 0 false
  rwa [creditWrites, if_neg Bool.false_ne_true, append_nil] at hnone

theorem body_createApproval {k : Except String Unit → PayProg (Except String α)}
    (hfail : ∀ x, Body payEngine tx ok err P ws p facts (k (.error x)))
    (hpass : Body payEngine tx ok err P (ws ++ [.addApproval row])
      (fun c => p c ∧ ¬ c.approvals.Clashes row) facts (k (.ok ()))) :
    Body payEngine tx ok err P ws p facts (createApproval tx row >>= k) := by
  refine body_exec hat hguard (fun x => body_mono (fun _ h => h.1) (hfail x)) ?_
  refine fun b vs c _ hexec => body_forget ?_
  obtain ⟨-, rfl⟩ := execute_createApproval hexec
  refine body_mono ?_ hpass
  rintro c' ⟨hp, hexec'⟩
  exact ⟨hp, fun hclash => (execute_createApproval hexec').1 (clashes_applyAll hclash)⟩

theorem body_lockRule {k : Except String (Option SavedRule) → PayProg (Except String α)}
    (hfail : ∀ x, Body payEngine tx ok err P ws (fun c => p c ∧ err c) facts (k (.error x)))
    (hnone : Body payEngine tx ok err P ws p facts (k (.ok none)))
    (hsome : ∀ value, Body payEngine tx ok err P (ws ++ [.holdRule])
      (fun c => p c ∧ (applyAll payEngine ws c).rule = some value) facts (k (.ok (some value)))) :
    Body payEngine tx ok err P ws p facts (lockRule tx >>= k) := by
  refine body_total hat hguard (execute_ne_error rfl) hfail fun b vs c _ hexec => body_forget ?_
  rcases (execute_lockRule hexec).2 with ⟨rfl, rfl⟩ | ⟨value, rfl, rfl⟩
  · rw [append_nil]
    exact body_mono (fun _ h => h.1) hnone
  · refine body_mono ?_ (hsome value)
    rintro c' ⟨hp, hexec'⟩
    exact ⟨hp, (execute_lockRule hexec').1.symm⟩

end

end

end Rules

end PaymentStore
