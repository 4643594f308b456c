import TinyToken.EpayNotifications

/-! Orders for the Epay gateway: what a request is charged, which amount is stored, and what
the order brings when a notification or an admin completes it. The price is computed from the
exact number of units, the stored amount is cut to a whole number. -/
namespace EpayOrders

open ProgramSteps InterleavedPrograms LockingStore LockingPools KeyedTable PaymentStore
  PromptPayRule ManualTopUps EpayNotifications Option
open ReadCommittedStore (TxId Db)

inductive QuotaDisplayType where
  | usd | cny | tokens | custom
  deriving DecidableEq

structure EpaySettings where
  displayType : QuotaDisplayType
  price : ℚ
  minTopUp : ℤ
  topupGroupRatio : String → Option ℚ
  amountDiscount : ℤ → Option ℚ
  payMethods : List String
  payAddress : String
  epayId : String
  epayKey : String
  addressParses : Bool

structure EpayRequest where
  amount : ℤ
  paymentMethod : String

/-- A request with what the handler meets; `body` is empty where it does not decode, `group`
where the query of the user's group fails. -/
structure EpayPurchase where
  body : Option EpayRequest
  userId : ℤ
  group : Option String
  purchased : Bool
  random : String
  sampledAt : ℤ
  createdAt : ℤ
  rowId : ℤ

section Request

variable (c : PayConfig) (s : EpaySettings)

/-- What is asked for, in units: under the display of tokens the request counts tokens. -/
def units (amount : ℤ) : ℚ :=
  if s.displayType = .tokens then amount / c.quotaPerUnit else amount

def topupGroupRatio (group : String) : ℚ :=
  let ratio := (s.topupGroupRatio group).getD 1
  if ratio = 0 then 1 else ratio

def discount (amount : ℤ) : ℚ :=
  match s.amountDiscount amount with
  | some ds => if 0 < ds then ds else 1
  | none => 1

def getPayMoney (amount : ℤ) (group : String) : ℚ :=
  units c s amount * s.price * topupGroupRatio s group * discount s amount

def getMinTopup : ℤ :=
  if s.displayType = .tokens then intPart (s.minTopUp * c.quotaPerUnit) else s.minTopUp

def storedAmount (amount : ℤ) : ℤ :=
  if s.displayType = .tokens then intPart (amount / c.quotaPerUnit) else amount

def epayClientReady : Bool :=
  s.payAddress ≠ "" && s.epayId ≠ "" && s.epayKey ≠ "" && s.addressParses

def purchaseOrder (call : EpayPurchase) (req : EpayRequest) (group : String) : TopUp where
  id := call.rowId
  userId := call.userId
  amount := storedAmount c s req.amount
  money := getPayMoney c s req.amount group
  tradeNo := "USR" ++ toString call.userId ++ "NO" ++ call.random ++ toString call.sampledAt
  paymentMethod := req.paymentMethod
  paymentProvider := .epay
  createTime := call.createdAt
  completeTime := 0
  status := .pending

def reportOrder (row : TopUp) : Except String Unit → PayProg (Except String TopUp)
  | .error _ => pure (.error "创建订单失败")
  | .ok _ => pure (.ok row)

/-- The method `Insert` of an order, in a transaction of its own. -/
def insertOrder (tx : TxId) (row : TopUp) : PayProg (Except String TopUp) := do
  let inserted ← transaction tx (createTopUp tx row)
  reportOrder row inserted

def purchase (tx : TxId) (call : EpayPurchase) (req : EpayRequest) (group : String) :
    PayProg (Except String TopUp) :=
  if getPayMoney c s req.amount group < 1 / 100 then pure (.error "充值金额过低")
  else if req.paymentMethod ∉ s.payMethods then pure (.error "支付方式不存在")
  else if epayClientReady s = false then pure (.error "当前管理员未配置支付信息")
  else if call.purchased = false then pure (.error "拉起支付失败")
  else insertOrder tx (purchaseOrder c s call req group)

def requestEpay (tx : TxId) (call : EpayPurchase) : PayProg (Except String TopUp) :=
  match call.body with
  | none => pure (.error "参数错误")
  | some req =>
    if req.amount < getMinTopup c s then
      pure (.error ("充值数量不能小于 " ++ toString (getMinTopup c s)))
    else
      match call.group with
      | none => pure (.error "获取用户分组失败")
      | some group => purchase c s tx call req group

/-- The quota a request asks for: tokens as such, units at the rate of the site. -/
def askedQuota (amount : ℤ) : ℚ :=
  if s.displayType = .tokens then amount else amount * c.quotaPerUnit

def Whole (amount : ℤ) : Prop :=
  (units c s amount).den = 1 ∧ (askedQuota c s amount).den = 1

instance (amount : ℤ) : Decidable (Whole c s amount) := inferInstanceAs (Decidable (_ ∧ _))

end Request

section Parts

variable {c : PayConfig} {s : EpaySettings} {amount : ℤ}

theorem intPart_of_nonneg {x : ℚ} (hx : 0 ≤ x) : intPart x = ⌊x⌋ := by
  rw [intPart, Rat.floor_def', Int.tdiv_eq_ediv_of_nonneg (Rat.num_nonneg.mpr hx)]

theorem floor_of_den {x : ℚ} (hx : x.den = 1) : ((⌊x⌋ : ℤ) : ℚ) = x := by
  obtain ⟨n, rfl⟩ : ∃ n : ℤ, x = n := ⟨x.num, ((Rat.den_eq_one_iff x).mp hx).symm⟩
  rw [Int.floor_intCast]

theorem askedQuota_eq (hunit : 0 < c.quotaPerUnit) :
    askedQuota c s amount = units c s amount * c.quotaPerUnit := by
  unfold askedQuota units
  split
  · exact (div_mul_cancel₀ _ hunit.ne').symm
  · rfl

theorem units_nonneg (hunit : 0 < c.quotaPerUnit) (hamount : 0 ≤ amount) :
    0 ≤ units c s amount := by
  have hcast : (0 : ℚ) ≤ amount := Int.cast_nonneg hamount
  unfold units
  split
  · exact div_nonneg hcast hunit.le
  · exact hcast

theorem storedAmount_eq (hunit : 0 < c.quotaPerUnit) (hamount : 0 ≤ amount) :
    storedAmount c s amount = ⌊units c s amount⌋ := by
  have hunits := @units_nonneg c s amount hunit hamount
  unfold storedAmount units at *
  split
  next htokens =>
    rw [if_pos htokens] at hunits
    exact intPart_of_nonneg hunits
  · rw [Int.floor_intCast]

theorem floor_floor_mul_eq_iff {x q : ℚ} (hq : 0 < q) :
    ((⌊(⌊x⌋ : ℚ) * q⌋ : ℤ) : ℚ) = x * q ↔ x.den = 1 ∧ (x * q).den = 1 := by
  constructor
  · intro h
    have hfirst : (⌊x⌋ : ℚ) * q ≤ x * q := mul_le_mul_of_nonneg_right (Int.floor_le x) hq.le
    have hsecond : x * q ≤ (⌊x⌋ : ℚ) * q := h ▸ Int.floor_le _
    have hx : (⌊x⌋ : ℚ) = x := mul_right_cancel₀ hq.ne' (le_antisymm hfirst hsecond)
    constructor
    · rw [← hx]
      exact Rat.den_intCast _
    · rw [← h]
      exact Rat.den_intCast _
  · rintro ⟨hx, hxq⟩
    rw [floor_of_den hx, floor_of_den hxq]

theorem quotaToAdd_purchaseOrder (call : EpayPurchase) {req : EpayRequest} (group : String)
    (hunit : 0 < c.quotaPerUnit) (hamount : 0 ≤ req.amount) :
    quotaToAdd c (purchaseOrder c s call req group) =
      ⌊(⌊units c s req.amount⌋ : ℚ) * c.quotaPerUnit⌋ := by
  have hfloor : (0 : ℚ) ≤ ⌊units c s req.amount⌋ :=
    Int.cast_nonneg (Int.floor_nonneg.mpr (units_nonneg hunit hamount))
  rw [quotaToAdd, if_neg (by simp [purchaseOrder])]
  change intPart ((storedAmount c s req.amount : ℚ) * _) = _
  rw [storedAmount_eq hunit hamount, intPart_of_nonneg (mul_nonneg hfloor hunit.le)]

end Parts

section Credit

variable {c : PayConfig} {s : EpaySettings} {tx : TxId} {call : EpayPurchase} {req : EpayRequest}

theorem insertOrder_alone {row : TopUp} :
    Alone payEngine tx (fun t r u => ∀ order, r = .ok order → order = row ∧
      t.topUpByTradeNo row.tradeNo = none ∧ t.topUps.find? row.id = none ∧
      u = { t with topUps := t.topUps.insert row }) (insertOrder tx row) := by
  have hinsert : Alone payEngine tx (fun t (r : Except String Unit) u =>
      (∀ e, r = .error e → u = t) ∧ ∀ b, r = .ok b → ∃ vs,
        execute (.createTopUp row) t = .ok (b, vs) ∧ u = applyAll payEngine vs t)
      (transaction tx (createTopUp tx row)) := alone_statement (q := PayStmt.createTopUp row)
  have hreport : ∀ r : Except String Unit, Alone payEngine tx (fun t o u => u = t ∧
      ∀ order, o = .ok order → order = row ∧ r = .ok ()) (reportOrder row r) := by
    intro r
    cases r with
    | error e => exact alone_pure fun t => ⟨rfl, nofun⟩
    | ok a => exact alone_pure fun t => ⟨rfl, fun order h => ⟨(Except.ok.inj h).symm, rfl⟩⟩
  apply alone_bind hinsert hreport
  rintro t r u o v ⟨-, hdone⟩ ⟨rfl, hsame⟩ order ho
  obtain ⟨rfl, rfl⟩ := hsame order ho
  obtain ⟨vs, hexec, rfl⟩ := hdone () rfl
  simp only [execute] at hexec
  split at hexec
  · cases hexec
  next hnew =>
    rw [Bool.or_eq_true, not_or] at hnew
    cases hexec
    exact ⟨rfl, not_isSome_iff_eq_none.mp hnew.1, not_isSome_iff_eq_none.mp hnew.2, rfl⟩

structure Accepted (c : PayConfig) (s : EpaySettings) (call : EpayPurchase) (req : EpayRequest)
    (group : String) (t : PayTables) (order : TopUp) (u : PayTables) : Prop where
  made : order = purchaseOrder c s call req group
  tradeNo : t.topUpByTradeNo order.tradeNo = none
  id : t.topUps.find? order.id = none
  tables : u = { t with topUps := t.topUps.insert order }

theorem requestEpay_alone (hbody : call.body = some req) :
    Alone payEngine tx (fun t r u => ∀ order, r = .ok order →
      ∃ group, call.group = some group ∧ Accepted c s call req group t order u)
      (requestEpay c s tx call) := by
  have hrefused : ∀ e, Alone payEngine tx (fun t r u => ∀ order, r = .ok order →
      ∃ group, call.group = some group ∧ Accepted c s call req group t order u)
      (pure (.error e) : PayProg (Except String TopUp)) :=
    fun e => alone_pure fun t order h => by cases h
  unfold requestEpay
  rw [hbody]
  dsimp only
  split
  · exact hrefused _
  cases hgroup : call.group with
  | none => exact alone_pure fun t order h => by cases h
  | some group =>
    rw [hgroup] at hrefused
    unfold purchase
    dsimp only
    split
    · exact hrefused _
    split
    · exact hrefused _
    split
    · exact hrefused _
    split
    · exact hrefused _
    refine alone_mono insertOrder_alone fun t r u h order ho => ?_
    obtain ⟨rfl, htrade, hid, htables⟩ := h order ho
    exact ⟨group, rfl, rfl, htrade, hid, htables⟩

theorem Accepted.waiting {group : String} {t u : PayTables} {order : TopUp}
    (h : Accepted c s call req group t order u)
    (hwallet : (t.wallets.find? call.userId).isSome = true) : Waiting u order where
  stored := by
    rw [h.tables]
    exact Table.find?_insert_self h.id
  pending := by
    rw [h.made]
    rfl
  unique := by
    intro row hrow htrade
    rw [h.tables] at hrow
    rw [Table.insert_rows h.id, List.mem_append, List.mem_singleton] at hrow
    rcases hrow with hrow | rfl
    · have hnone := List.find?_eq_none.mp h.tradeNo row hrow
      simp [htrade] at hnone
    · rfl
  wallet := by
    rw [h.tables, h.made]
    exact hwallet

/-- When the order of an accepted request completes, however its deliveries interleave, the
user has what was asked for exactly when the request came to a whole number of units and of
quota. Only then is the price that of the credit. -/
theorem completed_purchase_credits_request_iff {ι : Type} [DecidableEq ι] {t : PayTables}
    {faults later : List (Option String)} {order : TopUp}
    {db : Faulty (Db PayTables PayWrite) String} {conn : ι → TxId} {process : ι → ℕ}
    {calls : ι → NotifyCall} {p : NotifyPool ι} (hunit : 0 < c.quotaPerUnit)
    (hbody : call.body = some req) (hamount : 0 ≤ req.amount)
    (hwallet : (t.wallets.find? call.userId).isSome = true)
    (haccepted : run (faultyHandle payEngine) (requestEpay c s tx call) ⟨Db.idle t, faults⟩ =
      some (.ok order, db))
    (hconn : Function.Injective conn) (habout : ∀ i, (calls i).About order.tradeNo)
    (hrun : PairedRun c process (notifyPool c order.tradeNo conn calls db.state.committed later) p)
    (hidle : p.state.halfway = false) (hpaid : statusOf p.state.tables order.id = some .success) :
    (((p.state.tables.quota call.userId - t.quota call.userId : ℤ) : ℚ) =
        askedQuota c s req.amount ↔ Whole c s req.amount) ∧
      (Whole c s req.amount → ∀ group, call.group = some group → order.money =
        ((p.state.tables.quota call.userId - t.quota call.userId : ℤ) : ℚ) / c.quotaPerUnit *
          s.price * topupGroupRatio s group * discount s req.amount) := by
  obtain ⟨group, hgroup, haccept⟩ :=
    (requestEpay_alone hbody ⟨Db.idle t, faults⟩ rfl _ db haccepted).2 order rfl
  have hadd := quotaToAdd_purchaseOrder (s := s) call group hunit hamount
  have huser : order.userId = call.userId := by
    rw [haccept.made]
    rfl
  have hquota : 0 ≤ quotaToAdd c order := by
    rw [haccept.made, hadd]
    have hfloor := Int.floor_nonneg.mpr (units_nonneg (s := s) hunit hamount)
    exact Int.floor_nonneg.mpr (mul_nonneg (Int.cast_nonneg hfloor) hunit.le)
  have hsane := hrun.sane (haccept.waiting hwallet) hquota hconn habout
  have hcredit := (hsane.settled hidle).quota_of_success hpaid
  have hbefore : db.state.committed.quota call.userId = t.quota call.userId := by
    rw [haccept.tables]
    rfl
  have hgain : p.state.tables.quota call.userId - t.quota call.userId =
      ⌊(⌊units c s req.amount⌋ : ℚ) * c.quotaPerUnit⌋ := by
    rw [← huser, hcredit, huser, hbefore, haccept.made, hadd]
    ring
  have hiff : (((p.state.tables.quota call.userId - t.quota call.userId : ℤ) : ℚ) =
      askedQuota c s req.amount ↔ Whole c s req.amount) := by
    rw [hgain, Whole, askedQuota_eq hunit]
    exact floor_floor_mul_eq_iff hunit
  refine ⟨hiff, fun hwhole group' hgroup' => ?_⟩
  obtain rfl : group = group' := some.inj (hgroup.symm.trans hgroup')
  rw [hiff.mpr hwhole, askedQuota_eq hunit, mul_div_cancel_right₀ _ hunit.ne', haccept.made]
  rfl

/-! A site that displays tokens, 500000 of them to the unit. -/

def tokenSettings : EpaySettings :=
  ⟨.tokens, 73 / 10, 1, fun _ => none, fun _ => none, ["alipay"], "gateway", "1001", "key", true⟩

def tokenPurchase (amount : ℤ) : EpayPurchase :=
  ⟨some ⟨amount, "alipay"⟩, 7, some "default", true, "abcdef", 1700000000, 1700000000, 1⟩

def oneDelivery (tradeNo : String) (_ : Fin 1) : NotifyCall :=
  .notify ⟨true, true, true, true, some ⟨tradeNo, "alipay", true⟩⟩

/-- A purchase of so many tokens, accepted for so much money, and its delivery. -/
structure Delivered (amount : ℤ) (money : ℚ) (order : TopUp)
    (db : Faulty (Db PayTables PayWrite) String) (p : NotifyPool (Fin 1)) : Prop where
  accepted : run (faultyHandle payEngine)
    (requestEpay unitConfig tokenSettings 9 (tokenPurchase amount))
    ⟨Db.idle (waitingTables .empty none), []⟩ = some (.ok order, db)
  money : order.money = money
  delivered : PairedRun unitConfig (fun _ => 0) (notifyPool unitConfig order.tradeNo Fin.val
    (oneDelivery order.tradeNo) db.state.committed []) p
  idle : p.state.halfway = false
  paid : statusOf p.state.tables order.id = some .success

def deliver (amount : ℤ) : Option (TopUp × Faulty (Db PayTables PayWrite) String × NotifyPool (Fin 1)) :=
  (run (faultyHandle payEngine) (requestEpay unitConfig tokenSettings 9 (tokenPurchase amount))
    ⟨Db.idle (waitingTables .empty none), []⟩).bind fun q =>
    match q.1 with
    | .error _ => none
    | .ok order =>
      ((notifyPool unitConfig order.tradeNo Fin.val (oneDelivery order.tradeNo)
        q.2.state.committed []).play (handleNotify unitConfig) (fun (x : Empty) _ => x.elim)
        ([0, 0, 0, 0, 0].map Sum.inl)).map fun p => (order, q.2, p)

theorem delivered_of_deliver {amount quota : ℤ} {money : ℚ}
    (hobs : (deliver amount).map (fun x => decide (x.1.money = money ∧
      x.2.2.state.halfway = false ∧ statusOf x.2.2.state.tables x.1.id = some .success ∧
      x.2.2.state.tables.quota 7 = quota ∧
      ∀ i, permitted (fun _ => allowed 0) [] (x.2.2.past i) = true)) = some true) :
    ∃ order db p, Delivered amount money order db p ∧ p.state.tables.quota 7 = quota := by
  obtain ⟨⟨order, db, p⟩, hx, hobs⟩ := map_eq_some_iff.mp hobs
  obtain ⟨hmoney, hidle, hpaid, hquota, hpermitted⟩ := of_decide_eq_true hobs
  obtain ⟨⟨r, db'⟩, haccepted, hx⟩ := bind_eq_some_iff.mp hx
  cases r with
  | error e => cases hx
  | ok order' =>
    obtain ⟨p', hp, hx⟩ := map_eq_some_iff.mp hx
    cases hx
    refine ⟨order, db', p, ⟨haccepted, hmoney, ?_, hidle, hpaid⟩, hquota⟩
    exact ((play_run_alone hp).mono (fun _ _ _ _ h => h) fun _ _ he => he.elim).of_permitted
      hpermitted

theorem whole_purchase_credited : ∃ order db p, Delivered 1000000 (73 / 5) order db p ∧
      ((p.state.tables.quota 7 - (waitingTables .empty none).quota 7 : ℤ) : ℚ) =
        askedQuota unitConfig tokenSettings 1000000 := by
  obtain ⟨order, db, p, hd, -⟩ : ∃ order db p, Delivered 1000000 (73 / 5) order db p ∧
      p.state.tables.quota 7 = 1000000 := delivered_of_deliver (by decide +kernel)
  refine ⟨order, db, p, hd, ?_⟩
  have habout : ∀ i, (oneDelivery order.tradeNo i).About order.tradeNo := by
    rintro i info ⟨⟩
    rfl
  have hiff := (completed_purchase_credits_request_iff (by decide +kernel) rfl (by decide)
    (by decide) hd.accepted Fin.val_injective habout hd.delivered hd.idle hd.paid).1
  exact hiff.mpr (by decide +kernel)

/-- 700000 tokens are charged as 1.4 units and credited as one. -/
theorem purchase_between_units_short_credited :
    ∃ order db p, Delivered 700000 (511 / 50) order db p ∧ p.state.tables.quota 7 = 500000 ∧
      askedQuota unitConfig tokenSettings 700000 = 700000 ∧
      order.money = getPayMoney unitConfig tokenSettings 700000 "default" := by
  obtain ⟨order, db, p, hd, hquota⟩ : ∃ order db p, Delivered 700000 (511 / 50) order db p ∧
      p.state.tables.quota 7 = 500000 := delivered_of_deliver (by decide +kernel)
  refine ⟨order, db, p, hd, hquota, by decide +kernel, hd.money.trans (by decide +kernel)⟩

end Credit

end EpayOrders
