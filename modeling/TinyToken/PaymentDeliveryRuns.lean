import TinyToken.PaymentDeliveries

/-! Any number of deliveries at once, interleaved statement by statement and with any statement
failing. While every delivery commits over the rows it has read, each order and each code is
credited at most once and no terminal status is left. -/
namespace PaymentDeliveryRuns

open InterleavedPrograms LockingStore LockingPools PaymentStore ManualTopUps SubscriptionRows
  SubscriptionGrants PaymentDeliveries Option
open ReadCommittedStore (TxId Db)
open TransactionPools (Store)

inductive Delivery where
  | recharge (referenceId customerId : String) (now : ℤ)
  | rechargeCreem (referenceId customerEmail : String) (now : ℤ)
  | rechargeWaffo (tradeNo : String) (now : ℤ)
  | rechargeWaffoPancake (tradeNo : String) (now : ℤ)
  | updatePending (tradeNo : String) (expected : Option PaymentProvider) (target : OrderStatus)
  | completeOrder (call : OrderCompletion)
  | expireOrder (tradeNo : String) (expected : Option PaymentProvider) (now : ℤ)
  | redeem (call : Redeeming)

namespace Delivery

def program (c : GatewayConfig) (tx : TxId) : Delivery → PayProg (Except String (Option Credit))
  | .recharge referenceId customerId now => PaymentDeliveries.recharge c tx referenceId customerId now
  | .rechargeCreem referenceId email now => PaymentDeliveries.rechargeCreem tx referenceId email now
  | .rechargeWaffo tradeNo now => PaymentDeliveries.rechargeWaffo c tx tradeNo now
  | .rechargeWaffoPancake tradeNo now => PaymentDeliveries.rechargeWaffoPancake c tx tradeNo now
  | .updatePending tradeNo expected target => updatePendingTopUpStatus tx tradeNo expected target
  | .completeOrder call => completeSubscriptionOrder c tx call
  | .expireOrder tradeNo expected now => expireSubscriptionOrder tx tradeNo expected now
  | .redeem call => PaymentDeliveries.redeem tx call

def mirrors : Delivery → Bool
  | .completeOrder _ => true
  | _ => false

theorem rechargeWith_ne (tx : TxId) (tradeNo : String) (provider : PaymentProvider)
    (idempotent : Bool) (settle : TopUp → PayProg (Except String (Option Credit)))
    (credit : Option Credit) :
    rechargeWith tx tradeNo provider idempotent settle ≠ .pure (.ok credit) := by
  intro h
  unfold rechargeWith at h
  split at h <;> cases h

theorem program_ne (call : Delivery) (c : GatewayConfig) (tx : TxId) (credit : Option Credit) :
    call.program c tx ≠ .pure (.ok credit) := by
  cases call with
  | recharge r id now | rechargeCreem r email now | rechargeWaffo tradeNo now
  | rechargeWaffoPancake tradeNo now => exact rechargeWith_ne _ _ _ _ _ _
  | updatePending tradeNo expected target =>
    intro h
    simp only [program, updatePendingTopUpStatus] at h
    split at h <;> cases h
  | completeOrder call =>
    intro h
    simp only [program, completeSubscriptionOrder] at h
    split at h <;> cases h
  | expireOrder tradeNo expected now =>
    intro h
    simp only [program, expireSubscriptionOrder] at h
    split at h <;> cases h
  | redeem call =>
    intro h
    simp only [program, PaymentDeliveries.redeem] at h
    split at h
    · cases h
    split at h <;> cases h

end Delivery

theorem callSafe_delivery (c : GatewayConfig) (tx : TxId) (call : Delivery) (ok : PayGuard) :
    CallSafe payEngine tx ok (fun _ => True) (fun _ => True) (DeliveryPost call.mirrors tx)
      (call.program c tx) := by
  cases call with
  | recharge r id now => exact callSafe_recharge
  | rechargeCreem r email now => exact callSafe_rechargeCreem
  | rechargeWaffo tradeNo now | rechargeWaffoPancake tradeNo now =>
    exact callSafe_rechargeWith fun _ => body_settleUnits
  | updatePending tradeNo expected target => exact callSafe_updatePending
  | completeOrder call => exact PaymentDeliveries.callSafe_complete
  | expireOrder tradeNo expected now => exact callSafe_expire
  | redeem call => exact callSafe_redeem

/-- A delivery commits only while the rows it has read are still stored as it has read them;
and the top-up that has the trade number of a subscription order, if there is one, has
neither failed nor expired. -/
def commitsCurrent (call : Delivery) (past : PayHistory)
    (o : RowOp PayStmt) (s : Store PayTables PayWrite) : Bool :=
  match o with
  | .commit _ => readsCurrent call.mirrors past s.state.committed
  | _ => true

theorem Spent.kept {t t' : PayTables} {credit : Option Credit} (h : DeliveryStep t t' credit)
    {source : Source} (hs : Spent t source) : Spent t' source := by
  cases source with
  | topUp id => exact h.topUps id .success hs (by decide)
  | order id => exact h.orders id .success hs (by decide)
  | code id => exact h.codes id hs

section Runs

variable {ι : Type} [DecidableEq ι] {c : GatewayConfig} {conn : ι → TxId} {calls : ι → Delivery}
  {t₀ : PayTables} {faults : List (Option String)} {p q : PayPool (Option Credit) ι}

def deliveryPool (c : GatewayConfig) (conn : ι → TxId) (calls : ι → Delivery) (t : PayTables)
    (faults : List (Option String)) : PayPool (Option Credit) ι :=
  Pool.start ⟨Db.idle t, faults⟩ fun i => (calls i).program c (conn i)

abbrev CurrentRun (calls : ι → Delivery) (p q : PayPool (Option Credit) ι) : Prop :=
  Run (faultyHandle payEngine) (fun i past o s => commitsCurrent (calls i) past o s = true)
    (fun _ _ => False) p q

abbrev CurrentMove (calls : ι → Delivery) (p q : PayPool (Option Credit) ι) : Prop :=
  Step (faultyHandle payEngine) (fun i past o s => commitsCurrent (calls i) past o s = true)
    (fun _ _ => False) p q

structure CreditedOnce [Fintype ι] (t₀ : PayTables) (p : PayPool (Option Credit) ι) : Prop where
  once : ∀ i j x y, p.result? i = some (.ok (some x)) → p.result? j = some (.ok (some y)) →
    x.source = y.source → i = j
  quotas : ∀ u, (t₀.wallets.find? u).isSome = true →
    (tables p).quota u = t₀.quota u + earned (fun _ credit => Credit.quotaFor u credit) p
  holds : ∀ u pl, (held (tables p) u pl : ℤ) =
    held t₀ u pl + earned (fun _ credit => (Credit.subsFor u pl credit : ℤ)) p

structure OnceInv (p : PayPool (Option Credit) ι) : Prop where
  spent : ∀ i x, p.result? i = some (.ok (some x)) → Spent (tables p) x.source
  once : ∀ i j x y, p.result? i = some (.ok (some x)) → p.result? j = some (.ok (some y)) →
    x.source = y.source → i = j

theorem OnceInv.step {i : ι} {a : Option Credit} (h : OnceInv p)
    (hafter : q.result? i = some (.ok a)) (hothers : ∀ j, j ≠ i → q.result? j = p.result? j)
    (hstep : DeliveryStep (tables p) (tables q) a) : OnceInv q := by
  -- the row of the new credit was not spent, so no earlier credit is of that row
  have hnew : ∀ j x y, q.result? i = some (.ok (some x)) → j ≠ i →
      q.result? j = some (.ok (some y)) → x.source ≠ y.source := by
    intro j x y hx hj hy hsource
    rw [hafter] at hx
    cases hx
    rw [hothers j hj] at hy
    have hfresh := (hstep.spends x rfl).1
    rw [hsource] at hfresh
    exact hfresh (h.spent j y hy)
  constructor
  · intro j x hx
    by_cases hj : j = i
    · subst hj
      rw [hafter] at hx
      cases hx
      exact (hstep.spends x rfl).2
    · rw [hothers j hj] at hx
      exact Spent.kept hstep (h.spent j x hx)
  · intro j k x y hx hy hsource
    by_cases hj : j = i
    · by_cases hk : k = i
      · rw [hj, hk]
      · exact absurd hsource (hnew k x y (hj ▸ hx) hk hy)
    · by_cases hk : k = i
      · exact absurd hsource.symm (hnew j y x (hk ▸ hy) hj hx)
      · rw [hothers j hj] at hx
        rw [hothers k hk] at hy
        exact h.once j k x y hx hy hsource

section

variable (hconn : Function.Injective conn)
  (hrun : CurrentRun calls (deliveryPool c conn calls t₀ faults) p)
include hconn hrun

theorem delivery_sound :
    Sound payEngine conn (fun i past o s => commitsCurrent (calls i) past o s = true)
      (fun _ _ => True) (fun i => DeliveryPost (calls i).mirrors (conn i)) p := by
  refine Run.invariant _ (fun _ _ h hs => h.step hconn hs) ?_ hrun
  exact sound_start (fun i => callSafe_delivery c (conn i) (calls i) _) (fun _ => trivial) faults

theorem delivery_move (hmove : CurrentMove calls p q) :
    (tables q = tables p ∧ ∀ i a, q.result? i = some (.ok a) → p.result? i = some (.ok a)) ∨
    ∃ i a, p.result? i = none ∧ q.result? i = some (.ok a) ∧
      (∀ j, j ≠ i → q.result? j = p.result? j) ∧ DeliveryStep (tables p) (tables q) a := by
  rcases (delivery_sound hconn hrun).cases hmove with
    hsame | ⟨i, a, hbefore, hafter, hothers, hP, hok, hc⟩
  · exact .inl hsame
  · refine .inr ⟨i, a, hbefore, hafter, hothers, ?_⟩
    change DeliveryStep (tables p) q.state.state.committed a
    rw [hc]
    exact hP hok

theorem onceInv_run : OnceInv p := by
  induction hrun with
  | refl =>
    have hnone : ∀ i a, (deliveryPool c conn calls t₀ faults).result? i ≠ some (.ok a) :=
      fun i a h => (calls i).program_ne c (conn i) a (Pool.result?_eq_some.mp h)
    exact ⟨fun i x h => absurd h (hnone i _), fun i j x y h => absurd h (hnone i _)⟩
  | @tail p q hrun hmove ih =>
    rcases delivery_move hconn hrun hmove with
      ⟨hsame, hresults⟩ | ⟨i, a, -, hafter, hothers, hstep⟩
    · constructor
      · intro i x hx
        rw [hsame]
        exact ih.spent i x (hresults i _ hx)
      · intro i j x y hx hy
        exact ih.once i j x y (hresults i _ hx) (hresults j _ hy)
    · exact ih.step hafter hothers hstep

theorem wallets_run (u : ℤ) :
    ((tables p).wallets.find? u).isSome = (t₀.wallets.find? u).isSome := by
  induction hrun with
  | refl => rfl
  | tail hrun hmove ih =>
    rcases delivery_move hconn hrun hmove with ⟨hsame, -⟩ | ⟨i, a, -, -, -, hstep⟩
    · rw [hsame, ih]
    · rw [hstep.wallets, ih]

theorem adds_up [Fintype ι] (number : PayTables → ℤ) (gain : Option Credit → ℤ)
    (hgain : ∀ t t' credit, (∀ u, (t.wallets.find? u).isSome = (t₀.wallets.find? u).isSome) →
      DeliveryStep t t' credit → number t' = number t + gain credit) :
    number (tables p) = number t₀ + earned (fun _ credit => gain credit) p := by
  induction hrun with
  | refl =>
    rw [deliveryPool, earned_start _ fun i a => (calls i).program_ne c (conn i) a, add_zero]
    rfl
  | @tail p q hrun hmove ih =>
    rcases (delivery_sound hconn hrun).earned_cases hmove (fun _ credit => gain credit) with
      ⟨hsame, hsum⟩ | ⟨i, a, -, -, hsum, hP, hok, hc⟩
    · rw [hsum, ← ih]
      exact congrArg number hsame
    · have hstep : DeliveryStep (tables p) (tables q) a := by
        change DeliveryStep (tables p) q.state.state.committed a
        rw [hc]
        exact hP hok
      rw [hsum, hgain _ _ _ (wallets_run hconn hrun) hstep, ih]
      omega

end

/-- Deliveries that commit over what they have read credit every order and every code at most
once, and leave every terminal status. -/
theorem deliveries_credit_once_when_current [Fintype ι] (hconn : Function.Injective conn)
    (hrun : CurrentRun calls (deliveryPool c conn calls t₀ faults) p) :
    CreditedOnce t₀ p ∧ ∀ q, CurrentMove calls p q →
      Terminal statusOf (tables p) (tables q) ∧ Terminal orderStatus (tables p) (tables q) := by
  refine ⟨⟨(onceInv_run hconn hrun).once, fun u hu => ?_, fun u pl => ?_⟩, fun q hmove => ?_⟩
  · refine adds_up hconn hrun (fun t => t.quota u) (Credit.quotaFor u) ?_
    intro t t' credit hwallets hstep
    exact hstep.quotas u ((hwallets u).trans hu)
  · refine adds_up hconn hrun (fun t => (held t u pl : ℤ)) (fun x => (Credit.subsFor u pl x : ℤ)) ?_
    intro t t' credit _ hstep
    simp only [hstep.holds u pl, Nat.cast_add]
  · rcases delivery_move hconn hrun hmove with ⟨hsame, -⟩ | ⟨i, a, -, -, -, hstep⟩
    · rw [hsame]
      exact ⟨fun _ _ h _ => h, fun _ _ h _ => h⟩
    · exact ⟨hstep.topUps, hstep.orders⟩

def gatewayConfig : GatewayConfig := { unitConfig with column := intPart }

def gatewayOrder (provider : PaymentProvider) : TopUp :=
  { waitingOrder with paymentMethod := "card", paymentProvider := provider }

def planOrder : SubscriptionOrder where
  id := 1
  userId := 7
  planId := plainPlan.id
  money := 1
  tradeNo := "SUBUSR7NOabcdef1700000000"
  paymentMethod := "card"
  paymentProvider := .creem
  status := .pending
  createTime := 1700000000
  completeTime := 0
  providerPayload := ""

/-- An order of each kind and a redemption code, for a wallet without quota. -/
def openRows (provider : PaymentProvider) : PayTables :=
  { waitingTables ⟨[gatewayOrder provider], by simp⟩ none with
    orders := ⟨[planOrder], by decide⟩
    redemptions := ⟨[⟨1, "KEY", .enabled, 100, 0, 0, 0⟩], by decide⟩
    plans := ⟨[⟨plainPlan, 1, true, none⟩], by decide⟩ }

def notifications : Fin 4 → Delivery
  | 0 => .rechargeWaffo waitingOrder.tradeNo 1700000100
  | 1 => .rechargeWaffo waitingOrder.tradeNo 1700000200
  | 2 => .completeOrder ⟨planOrder.tradeNo, "", some .creem, "", 1, 2, 1700000300, 1700000300, 1700000300⟩
  | 3 => .redeem ⟨"KEY", 7, 1700000400, 1700000400⟩

/-- A gateway notifies twice, a subscription is paid and a code is redeemed, each after the
other: every row is credited once. -/
theorem successive_deliveries_credit_once : ∃ p : PayPool (Option Credit) (Fin 4),
      CurrentRun notifications
        (deliveryPool gatewayConfig Fin.val notifications (openRows .waffo) []) p ∧
      p.result? 0 = some (.ok (some (.topUp 1 7 5000000))) ∧ p.result? 1 = some (.ok none) ∧
      p.result? 2 = some (.ok (some (.subscription 1 7 plainPlan.id))) ∧
      (tables p).quota 7 = 5000100 ∧ CreditedOnce (openRows .waffo) p := by
  have hobs : ((deliveryPool gatewayConfig Fin.val notifications (openRows .waffo) []).playAlone
      (faultyHandle payEngine) [0, 0, 0, 0, 0, 1, 1, 1, 2, 2, 2, 2, 2, 2, 2, 2, 3, 3, 3, 3, 3]).map (fun p =>
        decide (p.result? 0 = some (.ok (some (.topUp 1 7 5000000))) ∧
          p.result? 1 = some (.ok none) ∧
          p.result? 2 = some (.ok (some (.subscription 1 7 plainPlan.id))) ∧
          (tables p).quota 7 = 5000100 ∧
          ∀ i, permitted (commitsCurrent (notifications i)) [] (p.past i) = true)) =
      some true := by
    decide +kernel
  obtain ⟨p, hp, hobs⟩ := map_eq_some_iff.mp hobs
  obtain ⟨hfirst, hsecond, hsubscription, hquota, hpermitted⟩ := of_decide_eq_true hobs
  have hrun : CurrentRun notifications
      (deliveryPool gatewayConfig Fin.val notifications (openRows .waffo) []) p :=
    (play_run_alone hp).of_permitted hpermitted
  refine ⟨p, hrun, hfirst, hsecond, hsubscription, hquota, ?_⟩
  exact (deliveries_credit_once_when_current Fin.val_injective hrun).1

def notifiedTwice : Fin 2 → Delivery
  | 0 => .recharge waitingOrder.tradeNo "cus_1" 1700000100
  | 1 => .recharge waitingOrder.tradeNo "cus_1" 1700000200

def paidAndExpired : Fin 2 → Delivery
  | 0 => .recharge waitingOrder.tradeNo "cus_1" 1700000100
  | 1 => .updatePending waitingOrder.tradeNo (some .stripe) .expired

/-- Both deliveries read the order while it is pending: it is credited twice, and an order that
is paid expires. -/
theorem overlapping_deliveries_credit_twice : (∃ p : PayPool (Option Credit) (Fin 2),
      Run (faultyHandle payEngine) (fun _ _ _ _ => True) (fun _ _ => False)
        (deliveryPool gatewayConfig Fin.val notifiedTwice (openRows .stripe) []) p ∧
      (tables p).quota 7 = 10000000 ∧ ¬ CreditedOnce (openRows .stripe) p) ∧
    ∃ p q : PayPool (Option Credit) (Fin 2),
      Run (faultyHandle payEngine) (fun _ _ _ _ => True) (fun _ _ => False)
        (deliveryPool gatewayConfig Fin.val paidAndExpired (openRows .stripe) []) p ∧
      Step (faultyHandle payEngine) (fun _ _ _ _ => True) (fun _ _ => False) p q ∧
      statusOf (tables p) 1 = some .success ∧ statusOf (tables q) 1 = some .expired := by
  constructor
  · have hobs : ((deliveryPool gatewayConfig Fin.val notifiedTwice (openRows .stripe) []).playAlone
        (faultyHandle payEngine) [0, 0, 1, 1, 0, 0, 0, 1, 1, 1]).map (fun p =>
          decide (p.result? 0 = some (.ok (some (.topUp 1 7 5000000))) ∧
            p.result? 1 = some (.ok (some (.topUp 1 7 5000000))) ∧
            (tables p).quota 7 = 10000000)) = some true := by
      decide +kernel
    obtain ⟨p, hp, hobs⟩ := map_eq_some_iff.mp hobs
    obtain ⟨hfirst, hsecond, hquota⟩ := of_decide_eq_true hobs
    refine ⟨p, play_run_alone hp, hquota, fun honce => ?_⟩
    have : (0 : Fin 2) = 1 := honce.once 0 1 _ _ hfirst hsecond rfl
    cases this
  · have hobs : ((deliveryPool gatewayConfig Fin.val paidAndExpired (openRows .stripe) []).playAlone
        (faultyHandle payEngine) [0, 0, 1, 1, 0, 0, 0, 1]).bind (fun p =>
          (p.step? (faultyHandle payEngine) 1).map fun q =>
            decide (statusOf (tables p) 1 = some .success ∧
              statusOf (tables q) 1 = some .expired)) = some true := by
      decide +kernel
    obtain ⟨p, hp, hobs⟩ := bind_eq_some_iff.mp hobs
    obtain ⟨q, hq, hobs⟩ := map_eq_some_iff.mp hobs
    exact ⟨p, q, play_run_alone hp, Pool.step?_step hq, of_decide_eq_true hobs⟩

end Runs

end PaymentDeliveryRuns
