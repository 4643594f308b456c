import TinyToken.ManualTopUps
import TinyToken.SubscriptionGrants

/-! Plans bought with the wallet, among other deductions from it. The quota and the number of
subscriptions held are read without a lock and compared before anything is written; the
deduction itself is relative to the stored quota. So the amounts always add up, while the two
limits hold as long as a purchase commits over what it has read. -/
namespace SubscriptionPurchases

open ProgramSteps InterleavedPrograms LockingStore LockingPools PaymentStore PromptPayRule
  ManualTopUps SubscriptionRows SubscriptionPeriods SubscriptionGroups SubscriptionGrants Option
open ReadCommittedStore (TxId Db)
open TransactionPools (Store)

def calcSubscriptionBalanceQuota (c : PayConfig) (priceAmount : ℚ) : Except String ℤ :=
  if priceAmount ≤ 0 then .ok 0
  else if c.quotaPerUnit ≤ 0 then .error "额度单位配置错误"
  else .ok ⌈priceAmount * c.quotaPerUnit⌉

def requiredQuota (c : PayConfig) (plan : ListedPlan) : Except String ℤ :=
  if plan.enabled = false then .error "套餐未启用"
  else if plan.priceAmount < 0 then .error "套餐价格不能为负数"
  else if plan.allowBalancePay = some false then .error "该套餐不允许使用余额兑换"
  else calcSubscriptionBalanceQuota c plan.priceAmount

/-- One call of `PurchaseSubscriptionWithBalance`, with the keys the store gives its two rows,
the times it samples and the random part of the trade number. -/
structure Purchase where
  userId : ℤ
  planId : ℤ
  subId : ℤ
  orderId : ℤ
  now : ℤ
  orderTime : ℤ
  random : String
  nano : ℤ

def balanceOrder (call : Purchase) (plan : ListedPlan) (charged : ℤ) : SubscriptionOrder where
  id := call.orderId
  userId := call.userId
  planId := plan.id
  money := plan.priceAmount
  tradeNo := "SUBBALUSR" ++ toString call.userId ++ "NO" ++ call.random ++ toString call.nano
  paymentMethod := "balance"
  paymentProvider := .balance
  status := .success
  createTime := call.orderTime
  completeTime := call.orderTime
  providerPayload := "charged_quota=" ++ toString charged

def decreaseBody (tx : TxId) (userId quota : ℤ) : PayProg (Except String Unit) := do
  match ← addQuota tx userId (-quota) .none with
  | .error e => pure (.error e)
  | .ok _ => pure (.ok ())

def chargeUser (tx : TxId) (userId required : ℤ) (user : Wallet) : PayProg (Except String Unit) :=
  if required > 0 ∧ user.quota < required then pure (.error "余额不足")
  else if required > 0 then decreaseBody tx userId required
  else pure (.ok ())

/-- `FOR UPDATE` is only a query option here, which takes no lock. -/
def chargeWallet (tx : TxId) (userId required : ℤ) : PayProg (Except String Unit) := do
  match ← selectUser tx userId with
  | .error e => pure (.error e)
  | .ok none => pure (.error "record not found")
  | .ok (some user) => chargeUser tx userId required user

def grantPlan (c : PayConfig) (tx : TxId) (call : Purchase) (plan : ListedPlan) (charged : ℤ) :
    PayProg (Except String ℤ) := do
  match ← embed (createUserSubscriptionFromPlanTx c.zone tx call.subId call.userId
      plan.toSubscriptionPlan call.now) with
  | .error e => pure (.error e)
  | .ok _ =>
    match ← createOrder tx (balanceOrder call plan charged) with
    | .error e => pure (.error e)
    | .ok _ => pure (.ok charged)

def purchaseBody (c : PayConfig) (tx : TxId) (call : Purchase) : PayProg (Except String ℤ) := do
  match ← getListedPlanByIdTx tx call.planId with
  | .error e => pure (.error e)
  | .ok plan =>
    match requiredQuota c plan with
    | .error e => pure (.error e)
    | .ok required =>
      match ← chargeWallet tx call.userId required with
      | .error e => pure (.error e)
      | .ok _ => grantPlan c tx call plan required

def purchaseSubscriptionWithBalance (c : PayConfig) (tx : TxId) (call : Purchase) :
    PayProg (Except String ℤ) :=
  if call.userId ≤ 0 ∨ call.planId ≤ 0 then pure (.error "invalid userId or planId")
  else transaction tx (purchaseBody c tx call)

def decreaseUserQuota (tx : TxId) (userId quota : ℤ) : PayProg (Except String Unit) :=
  if quota < 0 then pure (.error "quota 不能为负数！")
  else transaction tx (decreaseBody tx userId quota)

variable {c : PayConfig}

theorem requiredQuota_nonneg {plan : ListedPlan} {required : ℤ}
    (h : requiredQuota c plan = .ok required) : 0 ≤ required := by
  unfold requiredQuota calcSubscriptionBalanceQuota at h
  split at h
  · cases h
  split at h
  · cases h
  split at h
  · cases h
  split at h
  · cases h
    exact le_rfl
  rename_i hprice
  split at h
  · cases h
  rename_i hunit
  cases h
  exact Int.ceil_nonneg (mul_nonneg (not_le.mp hprice).le (not_le.mp hunit).le)

/-- So much is taken from the wallet of one user, and nothing from the others. -/
structure Taken (userId amount : ℤ) (t t' : PayTables) : Prop where
  moved : Moved userId (-amount) t t'
  plans : t'.plans = t.plans

/-- The purchase of a plan as it is listed, by the answers of its own transaction. -/
structure Sale (c : PayConfig) (tx : TxId) (call : Purchase) (charged : ℤ) (plan : ListedPlan)
    (user : Wallet) (past : PayHistory)
    (t t' : PayTables) : Prop where
  taken : Taken call.userId charged t t'
  listed : t.plans.find? call.planId = some plan
  price : requiredQuota c plan = .ok charged
  known : (t.wallets.find? call.userId).isSome = true
  read : Answered tx past ⟨.selectUser call.userId, some user⟩
  enough : 0 < charged → charged ≤ user.quota
  limit : 0 < plan.maxPurchasePerUser → ∃ n : ℕ,
    Answered tx past ⟨.sub (.countByPlan call.userId call.planId), n⟩ ∧
      (n : ℤ) < plan.maxPurchasePerUser
  holds : ∀ u pl, held t' u pl = held t u pl + if call.userId = u ∧ call.planId = pl then 1 else 0

def PurchasePost (c : PayConfig) (tx : TxId) (call : Purchase) (charged : ℤ)
    (past : PayHistory) (db : Db PayTables PayWrite) : Prop :=
  ∃ plan user, Sale c tx call charged plan user past db.committed (seen payEngine db tx)

structure Deduction (userId amount : ℤ) (t t' : PayTables) : Prop where
  taken : Taken userId amount t t'
  holds : ∀ u pl, held t' u pl = held t u pl

def DecreasePost (tx : TxId) (userId amount : ℤ) (_ : Unit)
    (_ : PayHistory) (db : Db PayTables PayWrite) : Prop :=
  Deduction userId amount db.committed (seen payEngine db tx)

def charge (userId required : ℤ) : List PayWrite :=
  if 0 < required then [.credit userId (-required) .none] else []

section Bodies

variable {c : PayConfig} {tx : TxId} {call : Purchase}
  {ok : PayGuard}

variable {userId required : ℤ}

theorem taken_charge (hrequired : 0 ≤ required) {t t' : PayTables}
    (hthere : (t.wallets.find? userId).isSome = true)
    (hwallets : t'.wallets = (applyAll payEngine (charge userId required) t).wallets)
    (hplans : t'.plans = t.plans) : Taken userId required t t' := by
  by_cases hpos : 0 < required
  · rw [charge, if_pos hpos] at hwallets
    exact ⟨moved_creditWrites .none hthere hwallets, hplans⟩
  · obtain rfl : required = 0 := by omega
    exact ⟨moved_zero userId hwallets, hplans⟩

theorem charge_sub (userId required : ℤ) (t : PayTables) :
    (applyAll payEngine (charge userId required) t).sub = t.sub := by
  unfold charge
  split <;> rfl

theorem body_chargeUser {α : Type} {P : PayPost α} {k : Except String Unit → PayProg (Except String α)} {user : Wallet} {p : PayTables → Prop} {facts : List (Sigma PayAnswer)}
    (hguard : ∀ ws, Guards payEngine ws p)
    (hthere : ∀ t, p t → (t.wallets.find? userId).isSome = true)
    (hfail : ∀ x ws p facts, PayBody tx ok P ws p facts (k (.error x)))
    (hpass : (0 < required → required ≤ user.quota) →
      PayBody tx ok P (charge userId required) p facts (k (.ok ()))) :
    PayBody tx ok P [] p facts (chargeUser tx userId required user >>= k) := by
  unfold chargeUser
  split
  · exact hfail _ _ _ _
  rename_i henough
  have hnext := hpass fun hpos => not_lt.mp fun hlt => henough ⟨hpos, hlt⟩
  split
  next hpos =>
    rw [charge, if_pos hpos] at hnext
    refine body_addQuota atFault_true (hguard _) (fun x => hfail x _ _ _) ?_ ?_
    · apply body_absurd
      rintro t ⟨hp, hnone⟩
      rw [hthere t hp] at hnone
      cases hnone
    · exact body_mono (fun _ h => h.1) hnext
  next hpos =>
    rwa [charge, if_neg hpos] at hnext

theorem body_chargeWallet {α : Type} {P : PayPost α} {k : Except String Unit → PayProg (Except String α)} {p : PayTables → Prop} (hguard : ∀ ws, Guards payEngine ws p)
    (hfail : ∀ x ws p facts, PayBody tx ok P ws p facts (k (.error x)))
    (hpass : ∀ user : Wallet, (0 < required → required ≤ user.quota) →
      PayBody tx ok P (charge userId required)
        (fun t => p t ∧ (t.wallets.find? userId).isSome = true)
        [⟨.selectUser userId, some user⟩] (k (.ok ()))) :
    PayBody tx ok P [] p [] (chargeWallet tx userId required >>= k) := by
  refine body_total atFault_true (hguard _) (execute_ne_error rfl) (fun x => hfail x _ _ _) ?_
  intro b vs t _ hexec
  have hread : ∀ t, execute (.selectUser userId) t = .ok (b, vs) →
      vs = [] ∧ t.wallets.find? userId = b := by
    intro t h
    cases h
    exact ⟨rfl, rfl⟩
  obtain ⟨rfl, -⟩ := hread _ hexec
  cases b with
  | none => exact hfail _ _ _ _
  | some user =>
    have hthere : ∀ t, execute (.selectUser userId) t = .ok (some user, []) →
        (t.wallets.find? userId).isSome = true :=
      fun t h => isSome_iff_exists.mpr ⟨user, (hread t h).2⟩
    refine body_mono (fun t ht => And.intro ht.1 (hthere t ht.2)) ?_
    exact body_chargeUser (fun ws => (hguard ws).and guards_wallet) (fun _ ht => ht.2) hfail
      (hpass user)

theorem body_purchase :
    PayBody tx ok (PurchasePost c tx call) [] (fun _ => True) []
      (purchaseBody c tx call) := by
  refine body_getListedPlan guards_true (fun _ _ => body_fail) ?_
  intro plan hid
  refine body_mono (fun _ h => h.2) ?_
  dsimp only
  split
  · exact body_fail
  rename_i required hprice
  refine body_chargeWallet (fun _ => guards_plan) (fun _ _ _ _ => body_fail) ?_
  intro user henough
  refine body_grant (fun t => by rw [charge_sub]) (fun _ => guards_plan.and guards_wallet)
    (fun _ _ _ _ => body_fail) ?_
  intro vs more sub hgranted
  obtain ⟨gs, hvs, -⟩ := hgranted.writes
  have hnew : PayWrite.sub (.createSub sub) ∈ charge call.userId required ++ vs := by
    rw [hvs]
    simp
  have hkept : ∀ later, Guards payEngine (charge call.userId required ++ vs ++ later) fun t =>
      (t.plans.find? call.planId = some plan ∧
        (t.wallets.find? call.userId).isSome = true) ∧ t.sub.subs.find? call.subId = none := by
    intro later
    apply (guards_plan.and guards_wallet).and
    rw [← hgranted.newId]
    exact guards_newSub (List.mem_append_left later hnew)
  refine body_exec atFault_true (by simpa using hkept []) (fun _ => body_fail) ?_
  intro b ws t _ hexec
  simp only [payEngine, execute] at hexec
  split at hexec <;> cases hexec
  refine body_mono (fun _ h => h.1) (body_ok (hkept _) ?_)
  rintro past db ⟨hown, ⟨⟨hlisted, hknown⟩, hfree⟩, hanswers⟩
  have hplan : plan.toSubscriptionPlan.id = call.planId := hid
  have hfree' : (applyAll payEngine (charge call.userId required) db.committed).sub.subs.find?
      call.subId = none := by
    rw [charge_sub]
    exact hfree
  obtain ⟨s, hs, hheld⟩ := hgranted.effect hfree'
  have hseen : seen payEngine db tx = applyPay (.addOrder (balanceOrder call plan required))
      (applyAll payEngine vs (applyAll payEngine (charge call.userId required) db.committed)) := by
    rw [seen_of_own hown, applyAll_append, applyAll_append]
    rfl
  refine ⟨plan, user, ?_, hlisted, hprice, hknown, hanswers _ (by simp), henough, ?_, ?_⟩
  · refine taken_charge (requiredQuota_nonneg hprice) hknown ?_ ?_
    · rw [hseen, hs]
      rfl
    · rw [seen_of_own hown, plans_applyAll]
  · intro hmax
    obtain ⟨n, hmem, hlt⟩ := hgranted.limit hmax
    rw [hplan] at hmem
    exact ⟨n, hanswers _ (by simp [hmem]), hlt⟩
  · intro u pl
    have hold : held (applyAll payEngine (charge call.userId required) db.committed) u pl =
        held db.committed u pl := by
      rw [held, charge_sub]
      rfl
    rw [hseen, ← hplan, ← hold]
    exact hheld u pl

theorem body_decrease {userId quota : ℤ} :
    PayBody tx ok (DecreasePost tx userId quota) [] (fun _ => True) []
      (decreaseBody tx userId quota) := by
  refine body_credit atFault_true guards_true (fun _ => body_fail) ?_
  intro affected there
  apply body_ok (guards_true.and guards_wallet)
  rintro past db ⟨hown, ⟨-, hthere⟩, -⟩
  rw [DecreasePost, seen_of_own hown, List.nil_append]
  refine ⟨⟨moved_creditWrites .none hthere rfl, plans_applyAll _ _⟩, fun u pl => ?_⟩
  cases there <;> rfl

end Bodies

theorem callSafe_purchase {tx : TxId} {call : Purchase} {ok : PayGuard} :
    CallSafe payEngine tx ok (fun _ => True) (fun _ => True) (PurchasePost c tx call)
      (purchaseSubscriptionWithBalance c tx call) := by
  unfold purchaseSubscriptionWithBalance
  split
  · exact callSafe_fail
  · exact callSafe_transaction atFault_true guards_true body_purchase

theorem callSafe_decrease {tx : TxId} {userId quota : ℤ} {ok : PayGuard} :
    CallSafe payEngine tx ok (fun _ => True) (fun _ => True) (DecreasePost tx userId quota)
      (decreaseUserQuota tx userId quota) := by
  unfold decreaseUserQuota
  split
  · exact callSafe_fail
  · exact callSafe_transaction atFault_true guards_true body_decrease

inductive WalletCall where
  | purchase (call : Purchase)
  | deduct (userId quota : ℤ)

namespace WalletCall

def program (c : PayConfig) (tx : TxId) : WalletCall → PayProg (Except String Unit)
  | .purchase call => purchaseSubscriptionWithBalance c tx call >>= fun r => pure (r.map fun _ => ())
  | .deduct userId quota => decreaseUserQuota tx userId quota

def user : WalletCall → ℤ
  | .purchase call => call.userId
  | .deduct userId _ => userId

def cost (c : PayConfig) (t : PayTables) : WalletCall → ℤ
  | .purchase call =>
    match (t.plans.find? call.planId).map (requiredQuota c) with
    | some (.ok required) => required
    | _ => 0
  | .deduct _ quota => quota

def gives (userId planId : ℤ) : WalletCall → ℕ
  | .purchase call => if call.userId = userId ∧ call.planId = planId then 1 else 0
  | .deduct _ _ => 0

theorem cost_congr {c : PayConfig} {t t' : PayTables} (h : t.plans = t'.plans)
    (call : WalletCall) : call.cost c t = call.cost c t' := by
  cases call with
  | purchase call => simp only [cost, h]
  | deduct userId quota => rfl

theorem program_ne (call : WalletCall) (c : PayConfig) (tx : TxId) (u : Unit) :
    call.program c tx ≠ .pure (.ok u) := by
  intro h
  cases call with
  | purchase call =>
    simp only [program, purchaseSubscriptionWithBalance] at h
    split at h <;> cases h
  | deduct userId quota =>
    simp only [program, decreaseUserQuota] at h
    split at h <;> cases h

end WalletCall

def WalletPost (c : PayConfig) (tx : TxId) : WalletCall → Unit →
    PayHistory → Db PayTables PayWrite → Prop
  | .purchase call => fun _ past db => ∃ charged, PurchasePost c tx call charged past db
  | .deduct userId quota => DecreasePost tx userId quota

theorem callSafe_wallet (c : PayConfig) (tx : TxId) (call : WalletCall) (ok : PayGuard) :
    CallSafe payEngine tx ok (fun _ => True) (fun _ => True) (WalletPost c tx call)
      (call.program c tx) := by
  cases call with
  | purchase call =>
    refine callSafe_then (fun a => rfl) ?_ (fun e => callSafe_fail) ?_ callSafe_purchase
    · nofun
    · exact fun charged past db h => ⟨charged, h⟩
  | deduct userId quota => exact callSafe_decrease

theorem WalletPost.taken {tx : TxId} {call : WalletCall} {u : Unit}
    {past : PayHistory} {db : Db PayTables PayWrite}
    (h : WalletPost c tx call u past db) :
    Taken call.user (call.cost c db.committed) db.committed (seen payEngine db tx) := by
  cases call with
  | purchase call =>
    obtain ⟨charged, plan, user, hsale⟩ := h
    have hcost : (WalletCall.purchase call).cost c db.committed = charged := by
      simp only [WalletCall.cost, hsale.listed, map_some, hsale.price]
    rw [hcost]
    exact hsale.taken
  | deduct userId quota => exact Deduction.taken h

theorem WalletPost.holds {tx : TxId} {call : WalletCall} {r : Unit}
    {past : PayHistory} {db : Db PayTables PayWrite}
    (h : WalletPost c tx call r past db) (u pl : ℤ) :
    held (seen payEngine db tx) u pl = held db.committed u pl + call.gives u pl := by
  cases call with
  | purchase call =>
    obtain ⟨charged, plan, user, hsale⟩ := h
    exact hsale.holds u pl
  | deduct userId quota => exact Deduction.holds h u pl

/-- What a transaction has read is still within the tables: no quota is lower and no count of
subscriptions higher. -/
def stillCovered (t : PayTables) :
    Seen (RowOp PayStmt) (RowRes PayAnswer) (Store PayTables PayWrite) → Bool
  | ⟨.exec _ (.selectUser userId), .ok (some user), _⟩ => user.quota ≤ t.quota userId
  | ⟨.exec _ (.sub (.countByPlan userId planId)), .ok count, _⟩ => (held t userId planId).ble count
  | _ => true

/-- A purchase commits only while the user has not been overdrawn by others and what it has
read is still covered. -/
def commitsCovered (call : WalletCall) (past : PayHistory)
    (o : RowOp PayStmt) (s : Store PayTables PayWrite) : Bool :=
  match call, o with
  | .purchase purchase, .commit _ =>
    0 ≤ s.state.committed.quota purchase.userId && past.all (stillCovered s.state.committed)
  | _, _ => true

section Runs

variable {ι : Type} [DecidableEq ι] {c : PayConfig} {conn : ι → TxId} {calls : ι → WalletCall}
  {t₀ : PayTables} {faults : List (Option String)} {p q : PayPool Unit ι}
  {ok : ι → PayGuard}

def walletPool (c : PayConfig) (conn : ι → TxId) (calls : ι → WalletCall) (t : PayTables)
    (faults : List (Option String)) : PayPool Unit ι :=
  Pool.start ⟨Db.idle t, faults⟩ fun i => (calls i).program c (conn i)

abbrev WalletRun (ok : ι → PayHistory → RowOp PayStmt →
    Store PayTables PayWrite → Prop) (p q : PayPool Unit ι) : Prop :=
  Run (faultyHandle payEngine) ok (fun _ _ => False) p q

abbrev WalletMove (ok : ι → PayHistory → RowOp PayStmt →
    Store PayTables PayWrite → Prop) (p q : PayPool Unit ι) : Prop :=
  Step (faultyHandle payEngine) ok (fun _ _ => False) p q

theorem wallet_sound (hconn : Function.Injective conn)
    (hrun : WalletRun ok (walletPool c conn calls t₀ faults) p) :
    Sound payEngine conn ok (fun _ _ => True) (fun i => WalletPost c (conn i) (calls i)) p := by
  refine Run.invariant _ (fun _ _ h hs => h.step hconn hs) ?_ hrun
  exact sound_start (fun i => callSafe_wallet c (conn i) (calls i) _) (fun _ => trivial) faults

structure SameShop (t₀ t : PayTables) : Prop where
  plans : t.plans = t₀.plans
  wallets : ∀ u, (t.wallets.find? u).isSome = (t₀.wallets.find? u).isSome

theorem sameShop_run (hconn : Function.Injective conn)
    (hrun : WalletRun ok (walletPool c conn calls t₀ faults) p) : SameShop t₀ (tables p) := by
  induction hrun with
  | refl => exact ⟨rfl, fun _ => rfl⟩
  | @tail p q hrun hmove ih =>
    rcases (wallet_sound hconn hrun).cases hmove with ⟨hsame, -⟩ | ⟨i, a, -, -, -, hP, -, hc⟩
    · exact ⟨(congrArg PayTables.plans hsame).trans ih.plans, fun u => by
        rw [tables, hsame]; exact ih.wallets u⟩
    · have htaken := hP.taken
      rw [← hc] at htaken
      exact ⟨htaken.plans.trans ih.plans, fun u => (htaken.moved.wallets u).trans (ih.wallets u)⟩

theorem quota_adds_up [Fintype ι] (hconn : Function.Injective conn) {u : ℤ}
    (hwallet : (t₀.wallets.find? u).isSome = true)
    (hrun : WalletRun ok (walletPool c conn calls t₀ faults) p) :
    (tables p).quota u = t₀.quota u -
      earned (fun i _ => if (calls i).user = u then (calls i).cost c t₀ else 0) p := by
  induction hrun with
  | refl =>
    rw [walletPool, earned_start _ fun i a => (calls i).program_ne c (conn i) a, sub_zero]
    rfl
  | @tail p q hrun hmove ih =>
    have hshop := sameShop_run hconn hrun
    rcases (wallet_sound hconn hrun).earned_cases hmove
        fun i _ => if (calls i).user = u then (calls i).cost c t₀ else 0 with
      ⟨hsame, hsum⟩ | ⟨i, a, -, -, hsum, hP, -, hc⟩
    · rw [hsum, ← ih]
      exact congrArg (fun t => PayTables.quota t u) hsame
    · have htaken := hP.taken
      rw [← hc] at htaken
      change Taken (calls i).user ((calls i).cost c (tables p)) (tables p) (tables q) at htaken
      rw [WalletCall.cost_congr hshop.plans] at htaken
      have hstep := htaken.moved.quotas u (by rw [← hwallet]; exact hshop.wallets u)
      rw [hsum, hstep, ih]
      by_cases huser : u = (calls i).user
      · rw [if_pos huser, if_pos huser.symm]
        omega
      · rw [if_neg huser, if_neg (Ne.symm huser)]
        omega

variable {call : Purchase} {past : PayHistory}
  {s : Store PayTables PayWrite}

theorem covered_commit {tx : TxId}
    (h : commitsCovered (.purchase call) past (.commit tx) s = true) :
    0 ≤ s.state.committed.quota call.userId ∧
      ∀ e ∈ past, stillCovered s.state.committed e = true := by
  obtain ⟨hquota, hpast⟩ := Bool.and_eq_true_iff.mp h
  exact ⟨of_decide_eq_true hquota, List.all_eq_true.mp hpast⟩

section

variable {tx : TxId} {charged : ℤ} {plan : ListedPlan} {user : Wallet} {t' : PayTables}
  (h : Sale c tx call charged plan user past s.state.committed t')
include h

theorem Sale.quota_nonneg (hok : commitsCovered (.purchase call) past (.commit tx) s = true) :
    0 ≤ t'.quota call.userId := by
  obtain ⟨hquota, hpast⟩ := covered_commit hok
  rw [h.taken.moved.quotas call.userId h.known, if_pos rfl]
  by_cases hfree : 0 < charged
  · obtain ⟨met, hread⟩ := h.read
    have hcovered := of_decide_eq_true (hpast _ hread)
    have henough := h.enough hfree
    omega
  · have hnonneg := requiredQuota_nonneg h.price
    omega

theorem Sale.held_lt (hlimit : 0 < plan.maxPurchasePerUser)
    (hok : commitsCovered (.purchase call) past (.commit tx) s = true) :
    (held s.state.committed call.userId call.planId : ℤ) < plan.maxPurchasePerUser := by
  obtain ⟨n, ⟨met, hread⟩, hlt⟩ := h.limit hlimit
  have hcovered : held s.state.committed call.userId call.planId ≤ n :=
    Nat.le_of_ble_eq_true ((covered_commit hok).2 _ hread)
  omega

end

abbrev CoveredRun (calls : ι → WalletCall) (p q : PayPool Unit ι) : Prop :=
  WalletRun (fun i past o s => commitsCovered (calls i) past o s = true) p q

abbrev CoveredMove (calls : ι → WalletCall) (p q : PayPool Unit ι) : Prop :=
  WalletMove (fun i past o s => commitsCovered (calls i) past o s = true) p q

theorem held_within_limit (hconn : Function.Injective conn) {u : ℤ} {plan : ListedPlan}
    (hlisted : t₀.plans.find? plan.id = some plan) (hlimit : 0 < plan.maxPurchasePerUser)
    (hfirst : (held t₀ u plan.id : ℤ) ≤ plan.maxPurchasePerUser)
    (hrun : CoveredRun calls (walletPool c conn calls t₀ faults) p) :
    (held (tables p) u plan.id : ℤ) ≤ plan.maxPurchasePerUser := by
  induction hrun with
  | refl => exact hfirst
  | @tail p q hrun hmove ih =>
    rcases (wallet_sound hconn hrun).cases hmove with ⟨hsame, -⟩ | ⟨i, a, -, -, -, hP, hok, hc⟩
    · rwa [tables, hsame]
    · have hplans := (sameShop_run hconn hrun).plans
      have hholds := hP.holds u plan.id
      rw [← hc] at hholds
      change held (tables q) u plan.id = held (tables p) u plan.id + _ at hholds
      rw [hholds]
      cases hi : calls i with
      | deduct userId quota => exact ih
      | purchase call =>
        rw [hi] at hP hok
        obtain ⟨charged, sold, user, hsale⟩ := hP
        rw [WalletCall.gives]
        split
        next hboth =>
          obtain ⟨rfl, hid⟩ := hboth
          have hsold : sold = plan := by
            have hfind := hsale.listed
            rw [hid] at hfind
            change (tables p).plans.find? plan.id = some sold at hfind
            rw [hplans, hlisted] at hfind
            exact (some.inj hfind).symm
          subst hsold
          have hlt := hsale.held_lt hlimit hok
          rw [hid] at hlt
          change (held (tables p) call.userId sold.id : ℤ) < _ at hlt
          omega
        · exact ih

theorem purchase_not_overdrawn (hconn : Function.Injective conn)
    (hrun : CoveredRun calls (walletPool c conn calls t₀ faults) p) (hmove : CoveredMove calls p q)
    {i : ι} (hi : calls i = .purchase call) (hbefore : p.result? i = none)
    (hafter : q.result? i = some (.ok ())) : 0 ≤ (tables q).quota call.userId := by
  obtain ⟨hP, hok, hc⟩ := (wallet_sound hconn hrun).ends hmove hbefore hafter
  rw [hi] at hP hok
  obtain ⟨charged, plan, user, hsale⟩ := hP
  rw [← hc] at hsale
  exact hsale.quota_nonneg hok

/-- In every run the quota of a user goes down by the prices of the purchases and by the other
deductions that have succeeded. Where every purchase commits over what it has read, no
purchase overdraws the wallet and nobody holds more of a plan than it allows. -/
theorem purchases_within_limits_when_covered [Fintype ι] (hconn : Function.Injective conn) {u : ℤ}
    (hwallet : (t₀.wallets.find? u).isSome = true) :
    (∀ p, WalletRun (fun _ _ _ _ => True) (walletPool c conn calls t₀ faults) p →
      (tables p).quota u = t₀.quota u -
        earned (fun i _ => if (calls i).user = u then (calls i).cost c t₀ else 0) p) ∧
    ∀ p, CoveredRun calls (walletPool c conn calls t₀ faults) p →
      (∀ plan, t₀.plans.find? plan.id = some plan → 0 < plan.maxPurchasePerUser →
        (held t₀ u plan.id : ℤ) ≤ plan.maxPurchasePerUser →
        (held (tables p) u plan.id : ℤ) ≤ plan.maxPurchasePerUser) ∧
      ∀ q i call, CoveredMove calls p q → calls i = .purchase call → p.result? i = none →
        q.result? i = some (.ok ()) → 0 ≤ (tables q).quota call.userId := by
  refine ⟨fun p hrun => quota_adds_up hconn hwallet hrun, fun p hrun => ⟨?_, ?_⟩⟩
  · exact fun plan hlisted hlimit hfirst => held_within_limit hconn hlisted hlimit hfirst hrun
  · exact fun q i call hmove hi => purchase_not_overdrawn hconn hrun hmove hi

/-- A plan with a price of one unit, and a free plan of which a user may have one. -/
def paidPlan : ListedPlan := { plainPlan with priceAmount := 1, enabled := true, allowBalancePay := none }

def freePlan : ListedPlan where
  toSubscriptionPlan := { plainPlan with id := 4, maxPurchasePerUser := 1 }
  priceAmount := 0
  enabled := true
  allowBalancePay := none

def shop : PayTables :=
  { waitingTables .empty none with
    wallets := ⟨[⟨7, 600000, "", ""⟩], by decide⟩
    plans := ⟨[paidPlan, freePlan], by decide⟩ }

def buy (plan : ListedPlan) (row : ℤ) : WalletCall :=
  .purchase ⟨7, plan.id, row, row, 1700000000, 1700000000, "abcdef", row⟩

def purchasesAndDeduction : Fin 3 → WalletCall
  | 0 => buy paidPlan 1
  | 1 => .deduct 7 50000
  | 2 => buy freePlan 2

def shopPool {n : ℕ} (calls : Fin n → WalletCall) : PayPool Unit (Fin n) :=
  walletPool unitConfig Fin.val calls shop []

/-- Two purchases and a deduction between them, one after the other. -/
theorem successive_purchases_stay_within :
    ∃ p, CoveredRun purchasesAndDeduction (shopPool purchasesAndDeduction) p ∧
      (∀ i, p.result? i = some (.ok ())) ∧
      (tables p).quota 7 = shop.quota 7 - earned (fun i _ =>
        if (purchasesAndDeduction i).user = 7 then
          (purchasesAndDeduction i).cost unitConfig shop else 0) p ∧
      (held (tables p) 7 freePlan.id : ℤ) ≤ freePlan.maxPurchasePerUser := by
  have hobs : ((shopPool purchasesAndDeduction).playAlone (faultyHandle payEngine)
      [0, 0, 0, 0, 0, 0, 0, 1, 1, 1, 2, 2, 2, 2, 2, 2, 2]).map (fun p =>
        decide ((∀ i, p.result? i = some (.ok ())) ∧
          ∀ i, permitted (commitsCovered (purchasesAndDeduction i)) [] (p.past i) = true)) =
      some true := by
    decide +kernel
  obtain ⟨p, hp, hobs⟩ := map_eq_some_iff.mp hobs
  obtain ⟨hresults, hpermitted⟩ := of_decide_eq_true hobs
  have hrun := play_run_alone hp
  have hcovered : CoveredRun purchasesAndDeduction (shopPool purchasesAndDeduction) p :=
    hrun.of_permitted hpermitted
  have hlimits := @purchases_within_limits_when_covered (Fin 3) _ unitConfig Fin.val
    purchasesAndDeduction shop [] _ Fin.val_injective 7 rfl
  refine ⟨p, hcovered, hresults, hlimits.1 p hrun, ?_⟩
  exact (hlimits.2 p hcovered).1 freePlan rfl (by decide) (by decide)

def twice (plan : ListedPlan) : Fin 2 → WalletCall
  | 0 => buy plan 1
  | 1 => buy plan 2

/-- Both purchases read before either has committed: the second one overdraws the wallet, and
of the free plan the user has two where one is allowed. -/
theorem overlapping_purchases_exceed_limits :
    (∃ p q, WalletRun (fun _ _ _ _ => True) (shopPool (twice paidPlan)) p ∧
      WalletMove (fun _ _ _ _ => True) p q ∧ p.result? 1 = none ∧
      q.result? 1 = some (.ok ()) ∧ (tables q).quota 7 = -400000) ∧
    ∃ p, WalletRun (fun _ _ _ _ => True) (shopPool (twice freePlan)) p ∧
      (∀ i, p.result? i = some (.ok ())) ∧ freePlan.maxPurchasePerUser = 1 ∧
      held (tables p) 7 freePlan.id = 2 := by
  constructor
  · have hobs : ((shopPool (twice paidPlan)).playAlone (faultyHandle payEngine)
        [0, 0, 0, 1, 1, 1, 0, 0, 0, 0, 1, 1, 1]).bind (fun p =>
          (p.step? (faultyHandle payEngine) 1).map fun q =>
            decide (p.result? 1 = none ∧ q.result? 1 = some (.ok ()) ∧
              (tables q).quota 7 = -400000)) = some true := by
      decide +kernel
    obtain ⟨p, hp, hobs⟩ := bind_eq_some_iff.mp hobs
    obtain ⟨q, hq, hobs⟩ := map_eq_some_iff.mp hobs
    exact ⟨p, q, play_run_alone hp, Pool.step?_step hq, of_decide_eq_true hobs⟩
  · have hobs : ((shopPool (twice freePlan)).playAlone (faultyHandle payEngine)
        [0, 0, 0, 0, 1, 1, 1, 1, 0, 0, 0, 1, 1, 1]).map (fun p =>
          decide ((∀ i, p.result? i = some (.ok ())) ∧ freePlan.maxPurchasePerUser = 1 ∧
            held (tables p) 7 freePlan.id = 2)) = some true := by
      decide +kernel
    obtain ⟨p, hp, hobs⟩ := map_eq_some_iff.mp hobs
    exact ⟨p, play_run_alone hp, of_decide_eq_true hobs⟩

end Runs

end SubscriptionPurchases
