import TinyToken.BillingEffects
import TinyToken.SubscriptionPeriodLedger

/-! Creating a billing session and charging it further are all or nothing: store operations
may fail at any point, with cached copies and the batch updater moving in between, and an
error leaves every quota as it was. -/
namespace BillingAtomicity

open ProgramSteps ProgramOutcomes ReadCommittedStore Db KeyedTable SubscriptionRows
  SubscriptionTransactions SubscriptionEffects SubscriptionAlone BillingStore BillingAccounts
  BillingSession BillingEffects List Table
open SubscriptionPeriodLedger (isReset usedOf_preCharged preCharged_used)

def ResetDue (clock : Clock) (now : ℤ) (t : Tables) (id : ℤ) : Prop :=
  ∃ row plan row', t.subs.find? id = some row ∧ t.plans.find? row.planId = some plan ∧
    maybeReset clock row plan now = some (.reset row')

/-- One counter grows by `p`. Apart from that a counter stays, or starts again from 0
where its period has ended. -/
def CounterCharged (clock : Clock) (now : ℤ) (t t' : Tables) (subscriptionId p : ℤ) : Prop :=
  (usedOf t subscriptionId).isSome ∧ ∀ id,
    usedOf t' id = (usedOf t id).map (· + if id = subscriptionId then p else 0) ∨
    (ResetDue clock now t id ∧ usedOf t' id = some (if id = subscriptionId then p else 0))

/-- Exactly one funding source has been charged the advance of the session, and the token
the same. -/
inductive ChargedOnce (cfg : Config) (c : Context) (info : RelayInfo) (quota : ℤ) (t : Tables)
    (a : Ledger) (s : Session) (a' : Ledger) : Prop
  | wallet : s.funding.source = .wallet → (s.preConsumedQuota = if s.trusted then 0 else quota) →
      a' = (tokenCharged info s.preConsumedQuota a).addWallet info.userId (-s.preConsumedQuota) →
      ChargedOnce cfg c info quota t a s a'
  | subscription (f : SubscriptionFunding) (t' : Tables) : s.funding = .subscription f →
      s.preConsumedQuota = subConsume quota →
      a' = { tokenCharged info s.preConsumedQuota a with subs := idle t' } →
      CounterCharged cfg.clock c.chargedAt t t' f.subscriptionId s.preConsumedQuota →
      ChargedOnce cfg c info quota t a s a'

section Counters

variable {clock : Clock} {call : PreConsumeCall} {t : Tables} {visits : List Visit}
  {sub : UserSubscription}

section

variable (hscan : scan clock t.plans.find? call (candidates call t) = some (visits, sub))
include hscan

theorem resetDue_of_visit {v : Visit} (hv : v ∈ visits) (hreset : isReset v.outcome = true) :
    ResetDue clock call.now t v.candidate.id := by
  obtain ⟨hmem, plan, hplan, hcheck⟩ := (scan_visits hscan).1 v hv
  have hrow := find?_of_mem (mem_candidates.mp hmem).1
  cases ho : v.outcome with
  | keep | schedule row => simp [ho, isReset] at hreset
  | reset row => exact ⟨v.candidate, plan, row, hrow, hplan, ho ▸ hcheck⟩

theorem visit_row {v : Visit} (hv : v ∈ visits) :
    t.subs.find? (outcomeRow v.outcome v.candidate).id = some v.candidate := by
  obtain ⟨hmem, plan, -, hcheck⟩ := (scan_visits hscan).1 v hv
  rw [(outcomeRow_kept hcheck).1]
  exact find?_of_mem (mem_candidates.mp hmem).1

theorem preCharged_none {id : ℤ} (hid : t.subs.find? id = none) :
    usedOf (preCharged call visits sub t) id = none := by
  have apart : ∀ v ∈ visits, (outcomeRow v.outcome v.candidate).id ≠ id := by
    intro v hv he
    have hrow := visit_row hscan hv
    rw [he, hid] at hrow
    cases hrow
  obtain ⟨v, hv, rfl⟩ := (scan_visits hscan).2.1
  rw [usedOf_preCharged, if_neg (fun e => apart v hv e.symm), usedOf, foldl_sub, hid]
  · rfl
  · intro w hw
    obtain ⟨v, hv, hw⟩ := mem_flatMap.mp hw
    have hne := apart v hv
    cases ho : v.outcome with
    | keep => simp [ho, outcomeWrites] at hw
    | schedule row | reset row =>
      simp only [ho, outcomeWrites, mem_singleton] at hw
      subst hw
      rw [ho] at hne
      exact hne

theorem counterCharged_of_scan :
    CounterCharged clock call.now t (preCharged call visits sub t) sub.id call.amount := by
  constructor
  · obtain ⟨v, hv, rfl⟩ := (scan_visits hscan).2.1
    rw [usedOf, visit_row hscan hv]
    rfl
  intro id
  cases hrow : t.subs.find? id with
  | none =>
    left
    rw [preCharged_none hscan hrow, usedOf, hrow]
    rfl
  | some row =>
    have hvisit : ∀ v ∈ visits, v.candidate.id = id →
        (if isReset v.outcome then 0 else row.amountUsed) = row.amountUsed ∨
        ResetDue clock call.now t id ∧ (if isReset v.outcome then 0 else row.amountUsed) = 0 := by
      rintro v hv rfl
      by_cases hreset : isReset v.outcome = true
      · rw [if_pos hreset]
        exact .inr ⟨resetDue_of_visit hscan hv hreset, rfl⟩
      · rw [if_neg hreset]
        exact .inl rfl
    obtain ⟨base, hbase, hafter⟩ := preCharged_used
      (P := fun base => base = row.amountUsed ∨ ResetDue clock call.now t id ∧ base = 0)
      hrow hscan hvisit (.inl rfl)
    rw [if_congr (eq_comm (a := sub.id) (b := id)) rfl rfl] at hafter
    rcases hbase with rfl | ⟨hdue, rfl⟩
    · left
      rw [hafter, usedOf, hrow]
      rfl
    · right
      refine ⟨hdue, ?_⟩
      rw [hafter, zero_add]

end

end Counters

theorem chargedOnce_of_opened {cfg : Config} {c : Context} {info : RelayInfo} {quota : ℤ}
    {t : Tables} {a a' : Ledger} {s : Session} (hfresh : t.records.find? info.requestId = none)
    (h : Opened cfg c info quota t a s a') : ChargedOnce cfg c info quota t a s a' := by
  cases h with
  | wallet hp => exact .wallet rfl hp rfl
  | @subscription p userQuota res plan t' hp hblank hout =>
    cases hout with
    | repeated hrec =>
      rw [show t.records.find? info.requestId = _ from hrec] at hfresh
      cases hfresh
    | charged _ _ hscan ht' hres =>
      refine .subscription _ t' rfl hp rfl ?_
      have hid : ∀ f, (subscribed f res plan).subscriptionId = res.userSubscriptionId := by
        cases plan <;> exact fun _ => rfl
      rw [hid, hres, ht']
      exact counterCharged_of_scan hscan

/-- The state of a run under failing operations, with the moves of the cache, of the batch
updater and of their goroutines still to come. -/
abbrev BillState := Moved (Faulty World String)

def ledgerOf (s : BillState) : Ledger := s.state.state.ledger

/-- Cache updates and flushes move quota between the places it is kept, but do not change it. -/
def Quiet (s : BillState) : Prop := Unseen (fun w : Faulty World String => w.state.ledger) s

theorem runs_of_always {α : Type} {p : BillProg α} {Q : α → Ledger → Prop} {s s' : BillState}
    {r : α} (hquiet : Quiet s) (h : always (effects (· = .ordinary)) p Q (ledgerOf s))
    (hrun : run (withMoves faultyBill) p s = some (r, s')) : Q r (ledgerOf s') :=
  (wp_of_always (simulates_withMoves simulates_faultyBill) hquiet h r s' hrun).2

/-- A creation or a further charge that fails leaves every quota as it was, and a session
that is created has charged one funding source and its token the same amount. -/
theorem advance_charge_all_or_nothing (cfg : Config) (c : Context) (s : BillState) (t : Tables)
    (hquiet : Quiet s) (hidle : (ledgerOf s).subs = idle t)
    (hcounters : ∀ id used, usedOf t id = some used → 0 ≤ used) :
    (∀ info quota r s', 0 ≤ quota → t.records.find? info.requestId = none →
      run (withMoves faultyBill) (newBillingSession cfg c info quota) s = some (r, s') →
      (∀ e, r.2 = .error e → ledgerOf s' = ledgerOf s) ∧
      ∀ session, r.2 = .ok session → ChargedOnce cfg c info quota t (ledgerOf s) session (ledgerOf s')) ∧
    (∀ (session : Session) target r s',
      run (withMoves faultyBill) (session.reserve cfg c target) s = some (r, s') →
      ∀ e, r.2 = .error e → ledgerOf s' = ledgerOf s) := by
  constructor
  · rintro info quota ⟨info', r⟩ s' hquota hfresh hrun
    have hcreated := runs_of_always hquiet
      (always_newBillingSession (nofun) hquota hidle) hrun
    cases r with
    | error e =>
      refine ⟨fun _ _ => hcreated.1, fun session h => ?_⟩
      cases h
    | ok session =>
      refine ⟨nofun, fun _ h => ?_⟩
      cases h
      exact chargedOnce_of_opened hfresh hcreated
  · rintro session target ⟨session', r⟩ s' hrun e rfl
    exact (runs_of_always hquiet
      (always_reserve (nofun) hidle hcounters target) hrun).error_same

def fullState (faults : List (Option String)) : BillState :=
  ⟨⟨plainWorld 100 100 ⟨[plainSub 5 100 0], by decide⟩, faults⟩, []⟩

theorem fullState_counters (id used : ℤ)
    (h : usedOf (plainTables ⟨[plainSub 5 100 0], by decide⟩) id = some used) : 0 ≤ used := by
  obtain ⟨row, hrow, rfl⟩ := Option.map_eq_some_iff.mp h
  rw [mem_singleton.mp (find?_some_mem hrow)]
  exact le_rfl

/-- The commit on the subscription fails after the token has been charged. -/
theorem failed_commit_takes_nothing : ∃ info' e s', run (withMoves faultyBill)
      (newBillingSession plainConfig plainContext (plainInfo "subscription_first") 30)
      (fullState (replicate 9 none ++ [some "connection lost"])) =
        some ((info', .error e), s') ∧
      ledgerOf s' = ledgerOf (fullState []) := by
  have hrun : ((run (withMoves faultyBill)
      (newBillingSession plainConfig plainContext (plainInfo "subscription_first") 30)
      (fullState (replicate 9 none ++ [some "connection lost"]))).map
        fun p => p.1.2.isOk) = some false := rfl
  obtain ⟨⟨⟨info', r⟩, s'⟩, hrun, hr⟩ := Option.map_eq_some_iff.mp hrun
  cases r with
  | ok session => cases hr
  | error e =>
    refine ⟨info', e, s', hrun, ?_⟩
    exact ((advance_charge_all_or_nothing plainConfig plainContext
      (fullState (replicate 9 none ++ [some "connection lost"]))
      (plainTables ⟨[plainSub 5 100 0], by decide⟩) (nofun) rfl
      fullState_counters).1 _ 30 _ s' (by decide) rfl hrun).1 e rfl

end BillingAtomicity
