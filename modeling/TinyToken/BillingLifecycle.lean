import TinyToken.BillingAtomicity

/-! A billing session over its whole life: whatever the order of its calls, the amount taken
from the funding source and from the token is the one the first settlement or refund asks
for, except that a settlement after a refund is still carried out. -/
namespace BillingLifecycle

open GoText ProgramSteps ProgramOutcomes ReadCommittedStore Db KeyedTable SubscriptionRows
  SubscriptionTransactions SubscriptionEffects SubscriptionAlone BillingStore BillingAccounts
  BillingSession BillingEffects BillingAtomicity List Option Table
open SubscriptionPeriodLedger (usedOf_preCharged preCharged_used)

inductive Call where
  | reserve (targetQuota : ℤ)
  | settle (actualQuota : ℤ)
  | refund

variable {s : Session} (cfg : Config)

def perform (c : Context) (s : Session) : Call → BillProg Session
  | .reserve targetQuota => do
    let (s, _) ← s.reserve cfg c targetQuota
    pure s
  | .settle actualQuota => do
    let (s, _) ← s.settle cfg c actualQuota
    pure s
  | .refund => s.refund cfg c

inductive Verdict where
  | pending
  | settled (actualQuota : ℤ)
  | refunded

namespace Verdict

def after (v : Verdict) (call : Call) (s s' : Session) : Verdict :=
  match v, call with
  | .pending, .settle actualQuota =>
    if s.settled = false ∧ s'.settled = true then .settled actualQuota else .pending
  | .pending, .refund =>
    if s.refunded = false ∧ s'.refunded = true then .refunded else .pending
  | v, _ => v

def amount (s : Session) : Verdict → ℤ
  | .pending => s.preConsumedQuota
  | .settled actualQuota => actualQuota
  | .refunded => 0

end Verdict

structure Life where
  world : World
  session : Session
  verdict : Verdict

/-- One call run to its end, with cache updates and flushes in between, or only these. -/
inductive LifeStep (cfg : Config) (allowed : Life → Call → Prop) : Life → Life → Prop
  | call {l : Life} {w' : World} {s' : Session} {moves rest : List (World → World)} (c : Context)
      (call : Call) : allowed l call → Unseen World.ledger ⟨l.world, moves⟩ →
      run (withMoves handleBill) (perform cfg c l.session call) ⟨l.world, moves⟩ =
        some (s', ⟨w', rest⟩) →
      LifeStep cfg allowed l ⟨w', s', l.verdict.after call l.session s'⟩
  | quiet {l : Life} {w' : World} : w'.ledger = l.world.ledger →
      LifeStep cfg allowed l { l with world := w' }

def LifeRun (allowed : Life → Call → Prop) : Life → Life → Prop :=
  Relation.ReflTransGen (LifeStep cfg allowed)

def playCalls (cfg : Config) (c : Context) : List Call → Life → Option Life
  | [], l => some l
  | call :: calls, l =>
    (run (withMoves handleBill) (perform cfg c l.session call) ⟨l.world, []⟩).bind fun p =>
      playCalls cfg c calls ⟨p.2.state, p.1, l.verdict.after call l.session p.1⟩

def playSession (c : Context) (info : RelayInfo) (quota : ℤ) (w : World) (calls : List Call) :
    Option (Life × Life) :=
  (run (withMoves handleBill) (newBillingSession cfg c info quota) ⟨w, []⟩).bind fun p =>
    match p.1.2 with
    | .error _ => none
    | .ok s => (playCalls cfg c calls ⟨p.2.state, s, .pending⟩).map fun l =>
      (⟨p.2.state, s, .pending⟩, l)

/-- A settlement does not follow a refund, unless it asks for exactly what had been charged,
and does not take the counter of a subscription below 0. -/
def Orderly (l : Life) : Call → Prop
  | .settle actualQuota => l.session.settled = false →
    (l.session.refunded = true → actualQuota = l.session.preConsumedQuota) ∧
    ∀ f, l.session.funding = .subscription f → ∀ used,
      usedOf l.world.subs.committed f.subscriptionId = some used →
      0 ≤ used + (actualQuota - l.session.preConsumedQuota)
  | _ => True

def Counter (t : Tables) (id total used : ℤ) : Prop :=
  ∃ row, t.subs.find? id = some row ∧ row.amountTotal = total ∧ row.amountUsed = used

def Nonnegative (t : Tables) : Prop := ∀ id used, usedOf t id = some used → 0 ≤ used

section Counters

variable {t : Tables} {id total used delta : ℤ}

theorem counter_usedOf (h : Counter t id total used) : usedOf t id = some used := by
  obtain ⟨row, hrow, -, rfl⟩ := h
  rw [usedOf, hrow]
  rfl

theorem counter_adjusted (delta : ℤ) (h : Counter t id total used) :
    Counter (adjusted t id delta) id total (clampUsed used delta) := by
  obtain ⟨row, hrow, rfl, rfl⟩ := h
  refine ⟨{ row with amountUsed := clampUsed row.amountUsed delta }, ?_, rfl, rfl⟩
  simp only [adjusted, hrow, find?_save]
  exact if_pos (find?_some_key hrow).symm

theorem clampUsed_of_nonneg (h : 0 ≤ used + delta) : clampUsed used delta = used + delta := by
  exact if_neg (by omega)

theorem counter_postConsume (delta : ℤ) (h : Counter t id total used) (hid : 0 < id)
    (hlow : 0 ≤ used + delta) (hhigh : total ≤ 0 ∨ used + delta ≤ total) :
    (postConsume t id delta).1 = .ok () ∧
      Counter (postConsume t id delta).2 id total (used + delta) := by
  have hadj := counter_adjusted delta h
  obtain ⟨row, hrow, rfl, rfl⟩ := h
  unfold postConsume
  rw [if_neg (by omega)]
  by_cases hd : delta = 0
  · rw [if_pos hd, hd, add_zero]
    exact ⟨rfl, row, hrow, rfl, rfl⟩
  · rw [if_neg hd, hrow]
    dsimp only
    rw [clampUsed_of_nonneg hlow] at hadj ⊢
    rw [if_neg (by omega)]
    exact ⟨rfl, hadj⟩

theorem total_of_postConsume (h : Counter t id total used) (hd : delta ≠ 0)
    (hpost : postConsume t id delta = (.ok (), adjusted t id delta)) :
    total ≤ 0 ∨ clampUsed used delta ≤ total := by
  obtain ⟨row, hrow, rfl, rfl⟩ := h
  unfold postConsume at hpost
  split at hpost
  · cases hpost
  rw [hrow] at hpost
  dsimp only at hpost
  split at hpost
  · cases hpost
  · omega

theorem nonnegative_adjusted (h : Nonnegative t) (id delta : ℤ) :
    Nonnegative (adjusted t id delta) := by
  intro other used hused
  by_cases ho : other = id
  · rw [ho, usedOf_adjusted] at hused
    obtain ⟨before, -, rfl⟩ := map_eq_some_iff.mp hused
    unfold clampUsed
    split <;> omega
  · rw [usedOf_adjusted_of_ne t ho] at hused
    exact h other used hused

theorem nonnegative_postConsume (h : Nonnegative t) (id delta : ℤ) :
    Nonnegative (postConsume t id delta).2 := by
  unfold postConsume
  split
  · exact h
  split
  · exact h
  split
  · exact h
  split
  · exact h
  · exact nonnegative_adjusted h id delta

end Counters

def Phase (s : Session) : Verdict → Prop
  | .pending => s.settled = false ∧ s.refunded = false ∧ s.fundingSettled = false ∧
      s.tokenConsumed = s.preConsumedQuota ∧ 0 ≤ s.preConsumedQuota
  | .settled _ => s.settled = true
  | .refunded => s.refunded = true ∧ (s.settled = false → s.fundingSettled = false)

def Bills (info : RelayInfo) (s : Session) : Prop :=
  s.relayInfo.tokenId = info.tokenId ∧ s.relayInfo.isPlayground = info.isPlayground

theorem Bills.tokenCharged {info : RelayInfo} (h : Bills info s) (quota : ℤ) (a : Ledger) :
    tokenCharged s.relayInfo quota a = tokenCharged info quota a := by
  simp only [BillingEffects.tokenCharged, h.1, h.2]

/-- A session on the wallet: wallet and token are both down by the amount of the verdict. -/
structure WalletAccount (a₀ : Ledger) (info : RelayInfo) (a : Ledger) (s : Session) (v : Verdict) :
    Prop where
  bills : Bills info s
  phase : Phase s v
  ledger : a = (tokenCharged info (v.amount s) a₀).addWallet info.userId (-v.amount s)
  funding : ∃ consumed, s.funding = .wallet ⟨info.userId, consumed⟩ ∧
    (v = .pending → consumed = s.preConsumedQuota)

/-- A session on a subscription whose counter was `base` without it. -/
structure SubscriptionAccount (a₀ : Ledger) (info : RelayInfo) (f : SubscriptionFunding)
    (total base : ℤ) (t : Tables) (a : Ledger) (s : Session) (v : Verdict) : Prop where
  bills : Bills info s
  phase : Phase s v
  ledger : a = { tokenCharged info (v.amount s) a₀ with subs := idle t }
  funding : s.funding = .subscription f
  counter : Counter t f.subscriptionId total (base + v.amount s)
  room : total ≤ 0 ∨ base + v.amount s ≤ total
  nonnegative : Nonnegative t
  extra : v = .pending → 0 ≤ s.extraReserved ∧
    s.preConsumedQuota = f.preConsumed + s.extraReserved ∧
    s.relayInfo.subscriptionId = f.subscriptionId ∧ ∃ record,
      t.records.find? f.requestId = some record ∧ record.status = .consumed ∧
      record.userSubscriptionId = f.subscriptionId ∧ record.preConsumed = f.preConsumed

structure Subscribed (f : SubscriptionFunding) (base : ℤ) : Prop where
  request : trimSpace f.requestId ≠ ""
  positive : 0 < f.preConsumed
  id : 0 < f.subscriptionId
  base : 0 ≤ base

theorem Phase.not_settled {q : ℤ} (h : Phase s (.settled q)) : s.settled ≠ false := by
  rw [show s.settled = true from h]
  decide

theorem Phase.unsettled {v : Verdict} (h : Phase s v) (hs : s.settled = false) :
    s.fundingSettled = false := by
  cases v with
  | pending => exact h.2.2.1
  | settled q => exact (h.not_settled hs).elim
  | refunded => exact h.2 hs

theorem Phase.pending_of_open {v : Verdict} {p : Prop} (h : Phase s v)
    (hopen : ¬ (s.settled ∨ s.refunded ∨ p)) : v = .pending := by
  cases v with
  | pending => rfl
  | settled q => exact (hopen (.inl h)).elim
  | refunded => exact (hopen (.inr (.inl h.1))).elim

section Amounts

variable (a₀ : Ledger) (info : RelayInfo) (e d : ℤ)

theorem walletLedger_add :
    tokenCharged info d (((tokenCharged info e a₀).addWallet info.userId (-e)).addWallet
      info.userId (-d)) = (tokenCharged info (e + d) a₀).addWallet info.userId (-(e + d)) := by
  rw [addWallet_addWallet, ← addWallet_tokenCharged, tokenCharged_tokenCharged, neg_add]

theorem walletLedger_back :
    tokenCharged info (-e) (((tokenCharged info e a₀).addWallet info.userId (-e)).addWallet
      info.userId e) = (tokenCharged info 0 a₀).addWallet info.userId (-0) := by
  have h := walletLedger_add a₀ info e (-e)
  rwa [neg_neg, add_neg_cancel] at h

theorem subscriptionLedger_add (t t' : Tables) :
    tokenCharged info d { ({ tokenCharged info e a₀ with subs := idle t } : Ledger) with
      subs := idle t' } = { tokenCharged info (e + d) a₀ with subs := idle t' } := by
  rw [← tokenCharged_tokenCharged]
  unfold tokenCharged
  split <;> rfl

theorem subscriptionLedger_back (t t' : Tables) :
    { tokenCharged info (-e) { tokenCharged info e a₀ with subs := idle t } with
      subs := idle t' } = { tokenCharged info 0 a₀ with subs := idle t' } := by
  rw [← add_neg_cancel e, ← tokenCharged_tokenCharged]
  unfold tokenCharged
  split <;> rfl

end Amounts

section Sessions

variable {info : RelayInfo} {s s' : Session} {v : Verdict} {delta actualQuota : ℤ}

theorem bills_syncRelayInfo (h : Bills info s) : Bills info s.syncRelayInfo := by
  cases hf : s.funding with
  | wallet w | subscription f => simpa [Session.syncRelayInfo, Bills, hf] using h

theorem bills_closed (h : Bills info s) : Bills info (s.closed delta) := by
  cases hf : s.funding with
  | wallet w | subscription f => simpa [Session.closed, Bills, hf] using h

theorem closed_settled : (s.closed delta).settled = true := by
  unfold Session.closed
  split <;> rfl

theorem closed_funding : (s.closed delta).funding = s.funding := by
  unfold Session.closed
  split <;> rfl

theorem after_reserve (targetQuota : ℤ) : v.after (.reserve targetQuota) s s' = v := by
  cases v <;> rfl

theorem after_settle_same : v.after (.settle actualQuota) s s = v := by
  cases v with
  | pending => exact if_neg fun h => by simp [h.1] at h
  | settled q | refunded => rfl

theorem after_refund_same : v.after .refund s s = v := by
  cases v with
  | pending => exact if_neg fun h => by simp [h.1] at h
  | settled q | refunded => rfl

theorem after_settle_pending (hs : s.settled = false) (hs' : s'.settled = true) :
    Verdict.pending.after (.settle actualQuota) s s' = .settled actualQuota := if_pos ⟨hs, hs'⟩

end Sessions

def InOrder (s : Session) : Call → Prop
  | .settle actualQuota => s.settled = false → s.refunded = true → actualQuota = s.preConsumedQuota
  | _ => True

section Wallet

variable {a₀ a a' : Ledger} {info : RelayInfo} {s s' : Session} {v : Verdict} {t : Tables}
  {cfg : Config} {c : Context}

section

variable (h : WalletAccount a₀ info a s v)
include h

theorem WalletAccount.reserve {targetQuota : ℤ} {r : Except NewAPIError Unit}
    (ho : ReserveOutcome t a s targetQuota (s', r) a') :
    WalletAccount a₀ info a' s' v := by
  cases ho with
  | nothing | failed => exact h
  | charged hopen hlt htaken =>
    obtain rfl := h.phase.pending_of_open hopen
    obtain ⟨consumed, hf, hconsumed⟩ := h.funding
    obtain ⟨hsettled, hrefunded, hfunded, htoken, hpos⟩ := h.phase
    rw [hf] at htaken ⊢
    cases htaken
    refine ⟨bills_syncRelayInfo h.bills, ?_, ?_, ?_⟩
    · refine ⟨hsettled, hrefunded, hfunded, ?_, ?_⟩
      · change s.tokenConsumed + _ = s.preConsumedQuota + _
        rw [htoken]
      · change 0 ≤ s.preConsumedQuota + _
        omega
    · rw [h.bills.tokenCharged, h.ledger]
      exact walletLedger_add a₀ info _ _
    · refine ⟨_, rfl, fun _ => ?_⟩
      change consumed + _ = s.preConsumedQuota + _
      rw [hconsumed rfl]

theorem WalletAccount.settle {actualQuota : ℤ} {r : Except String Unit}
    (ho : SettleOutcome t a s actualQuota (s', r) a') (horder : InOrder s (.settle actualQuota)) :
    WalletAccount a₀ info a' s' (v.after (.settle actualQuota) s s') := by
  obtain ⟨consumed, hf, hconsumed⟩ := h.funding
  cases ho with
  | again hs | refused e hs =>
    rw [after_settle_same]
    exact h
  | even hs hq =>
    cases v with
    | pending =>
      rw [after_settle_pending hs rfl]
      refine ⟨h.bills, rfl, ?_, consumed, hf, nofun⟩
      rw [h.ledger, show actualQuota = _ from hq]
      rfl
    | settled q => exact (h.phase.not_settled hs).elim
    | refunded =>
      exact ⟨h.bills, ⟨h.phase.1, nofun⟩, h.ledger, consumed, hf,
        nofun⟩
  | moved hs hq htaken =>
    cases v with
    | pending =>
      rw [after_settle_pending hs closed_settled]
      rw [hf] at htaken
      cases htaken
      refine ⟨bills_closed h.bills, closed_settled, ?_, consumed, ?_, nofun⟩
      · rw [h.bills.tokenCharged, h.ledger]
        apply (walletLedger_add a₀ info _ _).trans
        simp only [Verdict.amount, add_sub_cancel]
      · rw [closed_funding]
        exact hf
    | settled q => exact (h.phase.not_settled hs).elim
    | refunded => exact (hq (horder hs h.phase.1)).elim

theorem WalletAccount.refund :
    always (effects fun _ => False) (s.refund cfg c)
      (fun s' a' => WalletAccount a₀ info a' s' (v.after .refund s s')) a := by
  unfold Session.refund
  split
  · change WalletAccount a₀ info a s (v.after .refund s s)
    rw [after_refund_same]
    exact h
  rename_i hgo
  obtain rfl := h.phase.pending_of_open hgo
  obtain ⟨consumed, hf, hconsumed⟩ := h.funding
  obtain ⟨hsettled, hrefunded, hfunded, htoken, hpos⟩ := h.phase
  rw [hconsumed rfl] at hf
  refine always_seq (always_refundClosure_wallet (fun h => h) hf hpos (by omega)) ?_
  rintro r a' rfl
  rw [always_pure, show Verdict.pending.after .refund s { s with refunded := true } = .refunded
    from if_pos ⟨hrefunded, rfl⟩]
  refine ⟨h.bills, ⟨rfl, fun _ => hfunded⟩, ?_, s.preConsumedQuota, hf, nofun⟩
  rw [h.bills.tokenCharged, h.ledger, htoken]
  exact walletLedger_back a₀ info s.preConsumedQuota

theorem WalletAccount.perform (ha : a.subs = idle t) (ht : Nonnegative t) (call : Call)
    (horder : InOrder s call) :
    always (effects fun _ => False) (perform cfg c s call)
      (fun s' a' => WalletAccount a₀ info a' s' (v.after call s s')) a := by
  cases call with
  | reserve targetQuota =>
    refine always_seq (always_reserve (fun h => h) ha ht targetQuota) ?_
    rintro ⟨s', r⟩ a' ho
    rw [always_pure, after_reserve]
    exact h.reserve ho
  | settle actualQuota =>
    refine always_seq (always_settle (fun h => h) ha h.phase.unsettled actualQuota) ?_
    rintro ⟨s', r⟩ a' ho
    exact h.settle ho horder
  | refund => exact h.refund

end

end Wallet

section Subscription

variable {a₀ a a' : Ledger} {info : RelayInfo} {s s' : Session} {v : Verdict} {t : Tables}
  {cfg : Config} {c : Context} {f : SubscriptionFunding} {total base used : ℤ}

theorem counter_refund {requestId : String} {record : SubscriptionPreConsumeRecord}
    (hblank : trimSpace requestId ≠ "") (hrec : t.records.find? requestId = some record)
    (hstatus : record.status = .consumed) (hpre : 0 < record.preConsumed)
    (hid : 0 < record.userSubscriptionId)
    (h : Counter t record.userSubscriptionId total used) (hlow : record.preConsumed ≤ used)
    (hhigh : total ≤ 0 ∨ used ≤ total) :
    (refund t requestId).1 = .ok () ∧
      Counter (refund t requestId).2 record.userSubscriptionId total (used - record.preConsumed) := by
  obtain ⟨hok, hcounter⟩ := counter_postConsume (-record.preConsumed) h hid (by omega)
    (by omega)
  unfold refund
  rw [if_neg hblank, hrec]
  dsimp only
  rw [if_neg (by simp [hstatus]), if_neg (by omega)]
  cases hpost : postConsume t record.userSubscriptionId (-record.preConsumed) with
  | mk r t' =>
    rw [hpost] at hok hcounter
    obtain rfl : r = .ok () := hok
    exact ⟨rfl, hcounter⟩

theorem nonnegative_refund (h : Nonnegative t) (requestId : String) :
    Nonnegative (refund t requestId).2 := by
  unfold refund
  split
  · exact h
  split
  · exact h
  split
  · exact h
  split
  · exact h
  rename_i record _ _ _
  have hpost := nonnegative_postConsume h record.userSubscriptionId (-record.preConsumed)
  split
  · exact h
  next heq =>
    rw [heq] at hpost
    exact hpost

section

variable (h : SubscriptionAccount a₀ info f total base t a s v)
include h

theorem SubscriptionAccount.reserve (hsub : Subscribed f base) {targetQuota : ℤ}
    {r : Except NewAPIError Unit} (ho : ReserveOutcome t a s targetQuota (s', r) a') :
    ∃ t', SubscriptionAccount a₀ info f total base t' a' s' v := by
  cases ho with
  | nothing | failed => exact ⟨t, h⟩
  | charged hopen hlt htaken =>
    obtain rfl := h.phase.pending_of_open hopen
    obtain ⟨hsettled, hrefunded, hfunded, htoken, hpos⟩ := h.phase
    obtain ⟨hextra, hpre, hid, record, hrec⟩ := h.extra rfl
    have hf := h.funding
    have hbase := hsub.base
    have hclamp : clampUsed (base + s.preConsumedQuota) (targetQuota - s.preConsumedQuota) =
        base + (s.preConsumedQuota + (targetQuota - s.preConsumedQuota)) := by
      rw [clampUsed_of_nonneg (by omega)]
      omega
    rw [hf] at htaken ⊢
    cases htaken with
    | subscription _ hpost =>
      have hroom := total_of_postConsume h.counter (by omega) hpost
      have hcounter := counter_adjusted (targetQuota - s.preConsumedQuota) h.counter
      simp only [Verdict.amount, hclamp] at hroom hcounter
      refine ⟨_, bills_syncRelayInfo h.bills, ?_, ?_, rfl, hcounter, hroom,
        nonnegative_adjusted h.nonnegative _ _, fun _ => ?_⟩
      · refine ⟨hsettled, hrefunded, hfunded, ?_, ?_⟩
        · change s.tokenConsumed + _ = s.preConsumedQuota + _
          rw [htoken]
        · change 0 ≤ s.preConsumedQuota + _
          omega
      · rw [h.bills.tokenCharged, h.ledger]
        exact subscriptionLedger_add a₀ info _ _ t _
      · refine ⟨?_, ?_, rfl, record, ?_⟩
        · change 0 ≤ s.extraReserved + _
          omega
        · change s.preConsumedQuota + _ = f.preConsumed + (s.extraReserved + _)
          omega
        · rw [adjusted_records]
          exact hrec

theorem SubscriptionAccount.settle {actualQuota : ℤ} {r : Except String Unit}
    (ho : SettleOutcome t a s actualQuota (s', r) a') (horder : InOrder s (.settle actualQuota))
    (hlow : s.settled = false → v = .pending → 0 ≤ base + actualQuota) :
    ∃ t', SubscriptionAccount a₀ info f total base t' a' s'
      (v.after (.settle actualQuota) s s') := by
  cases ho with
  | again hs | refused e hs =>
    rw [after_settle_same]
    exact ⟨t, h⟩
  | even hs hq =>
    cases v with
    | pending =>
      rw [after_settle_pending hs rfl]
      refine ⟨t, h.bills, rfl, ?_, h.funding, ?_, ?_, h.nonnegative, nofun⟩
      · rw [h.ledger, show actualQuota = _ from hq]
        rfl
      · rw [show actualQuota = _ from hq]
        exact h.counter
      · rw [show actualQuota = _ from hq]
        exact h.room
    | settled q => exact (h.phase.not_settled hs).elim
    | refunded =>
      exact ⟨t, h.bills, ⟨h.phase.1, nofun⟩, h.ledger, h.funding, h.counter, h.room,
        h.nonnegative, nofun⟩
  | moved hs hq htaken =>
    cases v with
    | pending =>
      rw [after_settle_pending hs closed_settled]
      have hf := h.funding
      have hbase := hlow hs rfl
      have hclamp : clampUsed (base + s.preConsumedQuota) (actualQuota - s.preConsumedQuota) =
          base + actualQuota := by
        rw [clampUsed_of_nonneg (by omega)]
        omega
      rw [hf] at htaken
      cases htaken with
      | subscription _ hpost =>
        have hroom := total_of_postConsume h.counter (by omega) hpost
        have hcounter := counter_adjusted (actualQuota - s.preConsumedQuota) h.counter
        simp only [Verdict.amount, hclamp] at hroom hcounter
        refine ⟨_, bills_closed h.bills, closed_settled, ?_, closed_funding.trans hf, hcounter,
          hroom, nonnegative_adjusted h.nonnegative _ _, nofun⟩
        rw [h.bills.tokenCharged, h.ledger]
        apply (subscriptionLedger_add a₀ info _ _ t _).trans
        simp only [Verdict.amount, add_sub_cancel]
    | settled q => exact (h.phase.not_settled hs).elim
    | refunded => exact (hq (horder hs h.phase.1)).elim

theorem SubscriptionAccount.refund (hsub : Subscribed f base) :
    always (effects fun _ => False) (s.refund cfg c)
      (fun s' a' => ∃ t', SubscriptionAccount a₀ info f total base t' a' s' (v.after .refund s s'))
      a := by
  unfold Session.refund
  split
  · refine ⟨t, ?_⟩
    rw [after_refund_same]
    exact h
  rename_i hgo
  obtain rfl := h.phase.pending_of_open hgo
  obtain ⟨hsettled, hrefunded, hfunded, htoken, hpos⟩ := h.phase
  obtain ⟨hextra, hpre, hid, record, hrec, hstatus, howner, hamount⟩ := h.extra rfl
  obtain ⟨hblank, hposPre, hidPos, hbase⟩ := hsub
  have hsubs : a.subs = idle t := by rw [h.ledger]
  have hcounter := h.counter
  have hroom := h.room
  simp only [Verdict.amount] at hcounter hroom
  rw [← howner] at hcounter hidPos
  obtain ⟨hok, hfirst⟩ := counter_refund hblank hrec hstatus (by omega) hidPos hcounter (by omega)
    hroom
  obtain ⟨-, hsecond⟩ := counter_postConsume (-s.extraReserved) hfirst hidPos (by omega)
    (by omega)
  refine always_seq (always_refundClosure_subscription (fun h => h) h.funding hsubs hposPre hok
    (by omega) hextra (by omega)) ?_
  rintro r a' rfl
  rw [always_pure, show Verdict.pending.after .refund s { s with refunded := true } = .refunded
    from if_pos ⟨hrefunded, rfl⟩]
  refine ⟨_, h.bills, ⟨rfl, fun _ => hfunded⟩, ?_, h.funding, ?_, ?_,
    nonnegative_postConsume (nonnegative_refund h.nonnegative f.requestId)
      s.relayInfo.subscriptionId (-s.extraReserved), nofun⟩
  · rw [h.bills.tokenCharged, h.ledger, htoken]
    exact subscriptionLedger_back a₀ info s.preConsumedQuota t _
  · rw [hid, ← howner]
    convert hsecond using 1
    simp only [Verdict.amount]
    omega
  · simp only [Verdict.amount]
    omega

theorem SubscriptionAccount.perform (hsub : Subscribed f base) (call : Call)
    (horder : InOrder s call)
    (hlow : ∀ actualQuota, call = .settle actualQuota → s.settled = false → v = .pending →
      0 ≤ base + actualQuota) :
    always (effects fun _ => False) (perform cfg c s call)
      (fun s' a' => ∃ t', SubscriptionAccount a₀ info f total base t' a' s' (v.after call s s'))
      a := by
  have hsubs : a.subs = idle t := by rw [h.ledger]
  cases call with
  | reserve targetQuota =>
    refine always_seq (always_reserve (fun h => h) hsubs h.nonnegative targetQuota) ?_
    rintro ⟨s', r⟩ a' ho
    rw [always_pure, after_reserve]
    exact h.reserve hsub ho
  | settle actualQuota =>
    refine always_seq (always_settle (fun h => h) hsubs h.phase.unsettled actualQuota) ?_
    rintro ⟨s', r⟩ a' ho
    exact h.settle ho horder (hlow actualQuota rfl)
  | refund => exact h.refund hsub

end

end Subscription

/-- Funding source and token are down by the same amount, counted from the ledger before the
session; the counter of a subscription from what it would be without the session. -/
inductive NetTaken (info : RelayInfo) (s : Session) (before opened now : Ledger) (amount : ℤ) : Prop
  | wallet : s.funding.source = .wallet →
      now = (tokenCharged info amount before).addWallet info.userId (-amount) →
      NetTaken info s before opened now amount
  | subscription (f : SubscriptionFunding) (base : ℤ) : s.funding = .subscription f →
      now.wallet = before.wallet → now.token = (tokenCharged info amount before).token →
      usedOf opened.subs.committed f.subscriptionId = some (base + s.preConsumedQuota) →
      usedOf now.subs.committed f.subscriptionId = some (base + amount) →
      NetTaken info s before opened now amount

theorem runs_unfailing {α : Type} {p : BillProg α} {Q : α → Ledger → Prop} {w w' : World}
    {moves rest : List (World → World)} {r : α} (hquiet : Unseen World.ledger ⟨w, moves⟩)
    (h : always (effects fun _ => False) p Q w.ledger)
    (hrun : run (withMoves handleBill) p ⟨w, moves⟩ = some (r, ⟨w', rest⟩)) : Q r w'.ledger :=
  (wp_of_always (simulates_withMoves (simulates_handleBill _)) hquiet h r ⟨w', rest⟩ hrun).2

/-- A store whose next statements fail as listed, with what others do in between. -/
def before (w : World) (faults : List (Option String)) (moves : List (World → World)) :
    Moved (Faulty World String) :=
  ⟨⟨w, faults⟩, moves.map fun m s => { s with state := m s.state }⟩

theorem runs_faultless {α : Type} {p : BillProg α} {Q : α → Ledger → Prop} {w : World}
    {moves : List (World → World)} {res : α} {s' : Moved (Faulty World String)}
    (hquiet : Unseen World.ledger ⟨w, moves⟩) (h : always (effects fun _ => False) p Q w.ledger)
    (hrun : run (withMoves faultyBill) p (before w [] moves) = some (res, s')) :
    Q res s'.state.state.ledger := by
  refine (wp_of_always (simulates_withMoves_keeping simulates_faultless) (s := before w [] moves)
    ⟨?_, ?_, rfl⟩ h res s' hrun).2
  · intro lifted hlifted x
    obtain ⟨m, hm, rfl⟩ := mem_map.mp hlifted
    exact hquiet m hm x.state
  · intro lifted hlifted x hx
    obtain ⟨m, hm, rfl⟩ := mem_map.mp hlifted
    exact hx

section Runs

variable {cfg : Config} {info : RelayInfo} {a₀ : Ledger} {t₀ : Tables} {l l' : Life}

theorem WalletAccount.step (ha : a₀.subs = idle t₀) (ht : Nonnegative t₀)
    (h : WalletAccount a₀ info l.world.ledger l.session l.verdict)
    (hstep : LifeStep cfg Orderly l l') :
    WalletAccount a₀ info l'.world.ledger l'.session l'.verdict := by
  cases hstep with
  | quiet hsame =>
    rw [← hsame] at h
    exact h
  | call c call hallowed hquiet hrun =>
    refine runs_unfailing hquiet (h.perform ?_ ht call ?_) hrun
    · rw [h.ledger]
      exact (tokenCharged_subs a₀ info _).trans ha
    · cases call with
      | settle actualQuota => exact fun hs hr => (hallowed hs).1 hr
      | _ => trivial

theorem SubscriptionAccount.step {f : SubscriptionFunding} {total base : ℤ} {t : Tables}
    (hsub : Subscribed f base)
    (h : SubscriptionAccount a₀ info f total base t l.world.ledger l.session l.verdict)
    (hstep : LifeStep cfg Orderly l l') :
    ∃ t', SubscriptionAccount a₀ info f total base t' l'.world.ledger l'.session l'.verdict := by
  cases hstep with
  | quiet hsame =>
    rw [← hsame] at h
    exact ⟨t, h⟩
  | call c call hallowed hquiet hrun =>
    refine runs_unfailing hquiet (h.perform hsub call ?_ ?_) hrun
    · cases call with
      | settle actualQuota => exact fun hs hr => (hallowed hs).1 hr
      | _ => trivial
    · rintro actualQuota rfl hs hv
      have hsubs : l.world.subs = idle t := congrArg Ledger.subs h.ledger
      have hused := counter_usedOf h.counter
      have hlow := (hallowed hs).2 f h.funding (base + l.verdict.amount l.session) (by
        rw [hsubs]
        exact hused)
      rw [hv] at hlow
      simp only [Verdict.amount] at hlow
      omega

theorem WalletAccount.run (ha : a₀.subs = idle t₀) (ht : Nonnegative t₀)
    (h : WalletAccount a₀ info l.world.ledger l.session l.verdict)
    (hrun : LifeRun cfg Orderly l l') :
    WalletAccount a₀ info l'.world.ledger l'.session l'.verdict := by
  induction hrun with
  | refl => exact h
  | tail _ hstep ih => exact ih.step ha ht hstep

theorem SubscriptionAccount.run {f : SubscriptionFunding} {total base : ℤ} {t : Tables}
    (hsub : Subscribed f base)
    (h : SubscriptionAccount a₀ info f total base t l.world.ledger l.session l.verdict)
    (hrun : LifeRun cfg Orderly l l') :
    ∃ t', SubscriptionAccount a₀ info f total base t' l'.world.ledger l'.session l'.verdict := by
  induction hrun with
  | refl => exact ⟨t, h⟩
  | tail _ hstep ih =>
    obtain ⟨t', h'⟩ := ih
    exact h'.step hsub hstep

theorem playCalls_run {cfg : Config} {c : Context} {allowed : Life → Call → Prop}
    {calls : List Call} {l l' : Life} (hallowed : ∀ l, ∀ call ∈ calls, allowed l call)
    (h : playCalls cfg c calls l = some l') : LifeRun cfg allowed l l' := by
  induction calls generalizing l with
  | nil =>
    cases h
    exact .refl
  | cons call calls ih =>
    obtain ⟨⟨s', w', rest⟩, hrun, hplay⟩ := bind_eq_some_iff.mp h
    refine .head (.call c call (hallowed l call mem_cons_self) ?_ hrun)
      (ih (fun l call hcall => hallowed l call (mem_cons_of_mem _ hcall)) hplay)
    exact nofun

theorem playSession_cases {cfg : Config} {c : Context} {info : RelayInfo} {quota : ℤ} {w : World}
    {calls : List Call} {l l' : Life} (h : playSession cfg c info quota w calls = some (l, l')) :
    l.verdict = .pending ∧ playCalls cfg c calls l = some l' ∧ ∃ info' rest,
      run (withMoves handleBill) (newBillingSession cfg c info quota) ⟨w, []⟩ =
        some ((info', .ok l.session), ⟨l.world, rest⟩) := by
  obtain ⟨⟨⟨info', r⟩, w', rest⟩, hrun, hplay⟩ := bind_eq_some_iff.mp h
  cases r with
  | error e => cases hplay
  | ok s =>
    obtain ⟨l₁, hcalls, he⟩ := map_eq_some_iff.mp hplay
    cases he
    exact ⟨rfl, hcalls, info', rest, hrun⟩

end Runs

section Creation

variable {cfg : Config} {c : Context} {info : RelayInfo} {quota : ℤ} {a₀ a : Ledger} {t : Tables}

theorem walletAccount_opened {p : ℤ} (userQuota : ℤ) (trusted : Bool) (hp : 0 ≤ p)
    (ha : a = (tokenCharged info p a₀).addWallet info.userId (-p)) :
    WalletAccount a₀ info a
      (opened { info with userQuota := userQuota } (.wallet ⟨info.userId, p⟩) p trusted) .pending :=
  ⟨⟨rfl, rfl⟩, ⟨rfl, rfl, rfl, rfl, hp⟩, ha, p, rfl, fun _ => rfl⟩

section Charged

variable {clock : Clock} {call : PreConsumeCall} {visits : List Visit} {sub : UserSubscription}

theorem preCharged_row :
    (preCharged call visits sub t).subs.find? sub.id = some (charge sub call.amount) := by
  simp only [preCharged, foldl_append, chargeWrites, foldl_cons, foldl_nil,
    applyWrite, find?_save]
  exact if_pos rfl

theorem preCharged_record (call : PreConsumeCall) (hfresh : t.records.find? call.requestId = none) :
    (preCharged call visits sub t).records.find? call.requestId = some (call.record sub) := by
  rw [preCharged, foldl_append]
  refine find?_insert_self (v := call.record sub) ?_
  rw [foldl_record (fun w hw => visitWrites_leavesRecord _ hw)]
  exact hfresh

theorem chosen_nonnegative (ht : Nonnegative t)
    (hscan : scan clock t.plans.find? call (candidates call t) = some (visits, sub)) :
    0 ≤ sub.amountUsed := by
  obtain ⟨v, hv, rfl⟩ := (scan_visits hscan).2.1
  obtain ⟨hmem, plan, -, hcheck⟩ := (scan_visits hscan).1 v hv
  have hrow := find?_of_mem (mem_candidates.mp hmem).1
  rw [SubscriptionPeriodLedger.outcomeRow_used hcheck]
  split
  · exact le_rfl
  · exact ht v.candidate.id _ (by rw [usedOf, hrow]; rfl)

theorem nonnegative_preCharged (ht : Nonnegative t) (hamount : 0 < call.amount)
    (hscan : scan clock t.plans.find? call (candidates call t) = some (visits, sub)) :
    Nonnegative (preCharged call visits sub t) := by
  intro id used hused
  rcases (counterCharged_of_scan hscan).2 id with hkept | ⟨-, hreset⟩
  · rw [hkept] at hused
    obtain ⟨before, hbefore, rfl⟩ := map_eq_some_iff.mp hused
    have hpos := ht id before hbefore
    split <;> omega
  · rw [hreset] at hused
    cases hused
    split <;> omega

/-- Total and counter of a subscription of the user; the counter starts again from 0 where
its period has ended. -/
def Drawn (clock : Clock) (now : ℤ) (t : Tables) (userId id total base : ℤ) : Prop :=
  ∃ row ∈ t.subs.rows, row.userId = userId ∧ row.id = id ∧ row.amountTotal = total ∧
    (base = row.amountUsed ∨ ResetDue clock now t id ∧ base = 0)

theorem drawn_of_scan
    (hscan : scan clock t.plans.find? call (candidates call t) = some (visits, sub)) :
    Drawn clock call.now t call.userId sub.id sub.amountTotal sub.amountUsed := by
  obtain ⟨v, hv, rfl⟩ := (scan_visits hscan).2.1
  obtain ⟨hmem, plan, -, hcheck⟩ := (scan_visits hscan).1 v hv
  obtain ⟨hrow, hactive⟩ := mem_candidates.mp hmem
  have huser : v.candidate.userId = call.userId := by
    simp only [isActive, Bool.and_eq_true, decide_eq_true_eq] at hactive
    exact hactive.1.1
  obtain ⟨hid, htotal⟩ := outcomeRow_kept hcheck
  refine ⟨v.candidate, hrow, huser, hid.symm, htotal.symm, ?_⟩
  rw [hid, SubscriptionPeriodLedger.outcomeRow_used hcheck]
  by_cases hreset : SubscriptionPeriodLedger.isReset v.outcome = true
  · rw [if_pos hreset]
    exact .inr ⟨resetDue_of_visit hscan hv hreset, rfl⟩
  · rw [if_neg hreset]
    exact .inl rfl

end Charged

theorem subscriptionAccount_opened {p : ℤ} (userQuota : ℤ) {res : SubscriptionPreConsumeResult}
    (plan : Option SubscriptionPlanInfo) {t' : Tables}
    (ha : a = { tokenCharged info p a₀ with subs := idle t' }) (ht : Nonnegative t)
    (hids : ∀ row ∈ t.subs.rows, 0 < row.id) (hblank : trimSpace info.requestId ≠ "")
    (hfresh : t.records.find? info.requestId = none)
    (hout : PreOutcome cfg.clock ((subscriptionFor info p).call c) t res t') :
    ∃ f total base, Subscribed f base ∧
      (.subscription (subscribed (subscriptionFor info p) res plan) : FundingSource) =
        .subscription f ∧
      SubscriptionAccount a₀ info f total base t' a
        (opened { info with userQuota := userQuota }
          (.subscription (subscribed (subscriptionFor info p) res plan)) p false) .pending ∧
      Drawn cfg.clock c.chargedAt t info.userId f.subscriptionId total base := by
  cases hout with
  | repeated hrec =>
    rw [show t.records.find? info.requestId = _ from hrec] at hfresh
    cases hfresh
  | @charged visits sub hamount _ hscan ht' hres =>
    have hpos : 0 < p := hamount
    have hfits := (scan_visits hscan).2.2
    have hused := chosen_nonnegative ht hscan
    have hid : 0 < sub.id := by
      obtain ⟨v, hv, rfl⟩ := (scan_visits hscan).2.1
      obtain ⟨hmem, plan, -, hcheck⟩ := (scan_visits hscan).1 v hv
      rw [(outcomeRow_kept hcheck).1]
      exact hids _ (mem_candidates.mp hmem).1
    have hf : (subscribed (subscriptionFor info p) res plan).requestId = info.requestId ∧
        (subscribed (subscriptionFor info p) res plan).subscriptionId = sub.id ∧
        (subscribed (subscriptionFor info p) res plan).preConsumed = p := by
      rw [hres]
      cases plan <;> exact ⟨rfl, rfl, rfl⟩
    subst ht'
    refine ⟨_, sub.amountTotal, sub.amountUsed, ⟨?_, ?_, ?_, hused⟩, rfl, ⟨⟨rfl, rfl⟩,
      ⟨rfl, rfl, rfl, rfl, le_of_lt hpos⟩, ha, rfl, ?_, ?_,
      nonnegative_preCharged ht hamount hscan,
      fun _ => ⟨le_rfl, ?_, rfl, ((subscriptionFor info p).call c).record sub, ?_, rfl, ?_, ?_⟩⟩,
      ?_⟩
    · rw [hf.1]
      exact hblank
    · rw [hf.2.2]
      exact hpos
    · rw [hf.2.1]
      exact hid
    · rw [hf.2.1]
      exact ⟨_, preCharged_row, rfl, rfl⟩
    · change _ ∨ sub.amountUsed + p ≤ _
      change ¬ (sub.amountTotal > 0 ∧ sub.amountTotal - sub.amountUsed < p) at hfits
      omega
    · rw [hf.2.2]
      exact (add_zero p).symm
    · rw [hf.1]
      exact preCharged_record ((subscriptionFor info p).call c) hfresh
    · exact hf.2.1.symm
    · exact hf.2.2.symm
    · rw [hf.2.1]
      exact drawn_of_scan hscan

theorem opened_account {s : Session} (hquota : 0 ≤ quota) (hfresh : t.records.find? info.requestId = none)
    (ht : Nonnegative t) (hids : ∀ row ∈ t.subs.rows, 0 < row.id)
    (hopened : Opened cfg c info quota t a₀ s a) :
    WalletAccount a₀ info a s .pending ∨ ∃ f total base t', Subscribed f base ∧
      SubscriptionAccount a₀ info f total base t' a s .pending ∧
      Drawn cfg.clock c.chargedAt t info.userId f.subscriptionId total base := by
  cases hopened with
  | @wallet p userQuota trusted hp =>
    have hpos : 0 ≤ p := by
      rw [hp]
      split
      · exact le_rfl
      · exact hquota
    exact .inl (walletAccount_opened userQuota trusted hpos rfl)
  | @subscription p userQuota res plan t' hp hblank hout =>
    obtain ⟨f, total, base, hsub, -, hstart, hdrawn⟩ := subscriptionAccount_opened userQuota plan rfl
      ht hids hblank hfresh hout
    exact .inr ⟨f, total, base, t', hsub, hstart, hdrawn⟩

inductive Account where
  | wallet (userId : ℤ)
  | subscription (id : ℤ)
  deriving DecidableEq

def Account.used (a : Ledger) : Account → ℤ
  | .wallet userId => -(a.wallet userId).getD 0
  | .subscription id => (usedOf a.subs.committed id).getD 0

/-- The level of an account before a charge; the counter of a subscription may have started
again with the charge. -/
def Base (cfg : Config) (c : Context) (account : Account) (a : Ledger) (base : ℤ) : Prop :=
  base = account.used a ∨ ∃ id, account = .subscription id ∧ base = 0 ∧
    ResetDue cfg.clock c.chargedAt a.subs.committed id

theorem used_addWallet {userId : ℤ} (huser : (a.wallet userId).isSome) (delta : ℤ) :
    (Account.wallet userId).used (a.addWallet userId delta) =
      (Account.wallet userId).used a - delta := by
  obtain ⟨q, hq⟩ := isSome_iff_exists.mp huser
  simp only [Account.used, Ledger.addWallet, Function.update_self, hq, map_some,
    getD_some]
  omega

theorem used_counter {t : Tables} {id total used : ℤ} (ha : a.subs = idle t)
    (h : Counter t id total used) : (Account.subscription id).used a = used := by
  change (usedOf a.subs.committed id).getD 0 = used
  rw [ha]
  change (usedOf t id).getD 0 = used
  rw [counter_usedOf h]
  rfl

theorem base_of_drawn {userId id total base : ℤ} (ha : a.subs = idle t)
    (h : Drawn cfg.clock c.chargedAt t userId id total base) :
    Base cfg c (.subscription id) a base := by
  obtain ⟨row, hmem, -, rfl, -, rfl | ⟨hreset, rfl⟩⟩ := h
  · exact .inl (used_counter ha ⟨row, find?_of_mem hmem, rfl, rfl⟩).symm
  · refine .inr ⟨row.id, rfl, rfl, ?_⟩
    rw [ha]
    exact hreset

end Creation

/-- In every orderly run of a session, funding source and token are down by the amount of the
first settlement or refund, or by the advance as long as there is none. -/
theorem net_amount_follows_verdict (cfg : Config) (c : Context) (info info' : RelayInfo)
    (quota : ℤ) (w₀ w : World) (t : Tables) (moves rest : List (World → World)) (s : Session)
    (l : Life) (hquota : 0 ≤ quota) (hidle : w₀.subs = idle t)
    (hfresh : t.records.find? info.requestId = none) (ht : Nonnegative t)
    (hids : ∀ row ∈ t.subs.rows, 0 < row.id) (hquiet : Unseen World.ledger ⟨w₀, moves⟩)
    (hnew : run (withMoves handleBill) (newBillingSession cfg c info quota) ⟨w₀, moves⟩ =
      some ((info', .ok s), ⟨w, rest⟩))
    (hrun : LifeRun cfg Orderly ⟨w, s, .pending⟩ l) :
    NetTaken info s w₀.ledger w.ledger l.world.ledger (l.verdict.amount l.session) := by
  have hcreated := runs_unfailing hquiet
    (always_newBillingSession (fun h => h) hquota hidle) hnew
  have hopened : Opened cfg c info quota t w₀.ledger s w.ledger := hcreated
  generalize hw : w.ledger = a at hopened
  cases hopened with
  | @wallet p userQuota trusted hp =>
    have hpos : 0 ≤ p := by
      rw [hp]
      split
      · exact le_rfl
      · exact hquota
    have hend := (walletAccount_opened userQuota trusted hpos hw).run (l := ⟨w, _, .pending⟩)
      hidle ht hrun
    exact .wallet rfl hend.ledger
  | @subscription p userQuota res plan t' hp hblank hout =>
    obtain ⟨f, total, base, hsub, hf, hstart, -⟩ := subscriptionAccount_opened userQuota plan hw ht
      hids hblank hfresh hout
    have hcounter := counter_usedOf hstart.counter
    obtain ⟨t'', hend⟩ := SubscriptionAccount.run (l := ⟨w, _, .pending⟩) hsub hstart hrun
    have hused := counter_usedOf hend.counter
    refine .subscription f base hf ?_ ?_ ?_ ?_
    · rw [hend.ledger]
      exact tokenCharged_wallet w₀.ledger info _
    · rw [hend.ledger]
    · exact hcounter
    · rw [hend.ledger]
      exact hused

/-- An advance of 30 is raised to 50 and refunded. -/
theorem refunded_request_costs_nothing : ∃ l l',
    playSession plainConfig plainContext (plainInfo "wallet_only") 30 (plainWorld 100 100 .empty)
      [.reserve 50, .refund] = some (l, l') ∧
    l'.verdict = .refunded ∧
    NetTaken (plainInfo "wallet_only") l.session (plainWorld 100 100 .empty).ledger l.world.ledger
      l'.world.ledger 0 := by
  have hplay : ((playSession plainConfig plainContext (plainInfo "wallet_only") 30
      (plainWorld 100 100 .empty) [.reserve 50, .refund]).map fun p => p.2.verdict) =
        some .refunded := rfl
  obtain ⟨⟨l, l'⟩, hplay, hverdict⟩ := map_eq_some_iff.mp hplay
  obtain ⟨hpending, hcalls, info', rest, hnew⟩ := playSession_cases hplay
  refine ⟨l, l', hplay, hverdict, ?_⟩
  have hrun : LifeRun plainConfig Orderly l l' := by
    apply playCalls_run _ hcalls
    intro l call hcall
    rcases mem_cons.mp hcall with rfl | hcall
    · trivial
    · rw [mem_singleton.mp hcall]
      trivial
  have hnet := net_amount_follows_verdict plainConfig plainContext (plainInfo "wallet_only") info' 30
    (plainWorld 100 100 .empty) l.world (plainTables .empty) [] rest l.session l' (by decide) rfl rfl
    (fun id used h => by cases h) (fun row h => by cases h) (fun m h => by cases h) hnew
    (hpending ▸ hrun)
  rw [show l'.verdict = .refunded from hverdict] at hnet
  exact hnet

/-- An advance of 100 is refunded, and the settlement of 150 that follows charges 50 more. -/
theorem settlement_after_refund_charges : ∃ l l',
    playSession plainConfig plainContext (plainInfo "wallet_only") 100 (plainWorld 1000 1000 .empty)
      [.refund, .settle 150] = some (l, l') ∧
    LifeRun plainConfig (fun _ _ => True) l l' ∧ l'.verdict = .refunded ∧
    ¬ NetTaken (plainInfo "wallet_only") l.session (plainWorld 1000 1000 .empty).ledger
      l.world.ledger l'.world.ledger (l'.verdict.amount l'.session) := by
  have hplay : ((playSession plainConfig plainContext (plainInfo "wallet_only") 100
      (plainWorld 1000 1000 .empty) [.refund, .settle 150]).map fun p =>
        (p.2.verdict, p.1.session.funding.source, p.2.world.ledger.wallet 1)) =
        some (.refunded, .wallet, some 950) := rfl
  obtain ⟨⟨l, l'⟩, hplay, he⟩ := map_eq_some_iff.mp hplay
  simp only [Prod.mk.injEq] at he
  obtain ⟨hverdict, hsource, hwallet⟩ := he
  obtain ⟨-, hcalls, -⟩ := playSession_cases hplay
  refine ⟨l, l', hplay, playCalls_run (fun _ _ _ => trivial) hcalls, hverdict, ?_⟩
  rw [hverdict]
  intro hnet
  cases hnet with
  | wallet _ hnow =>
    rw [hnow] at hwallet
    simp only [Verdict.amount] at hwallet
    revert hwallet
    decide
  | subscription f base hf =>
    rw [hf] at hsource
    cases hsource

end BillingLifecycle
