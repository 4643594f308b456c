import TinyToken.SubscriptionAlone

/-! Usage of a subscription across its reset periods. Calls run one after the other at any
times. A ledger keeps the net charges of the requests pre-consumed since the last reset
and what was taken back since then for the others. The counter has no notion of the
period a delta belongs to, so it covers the former only up to the latter. -/
namespace SubscriptionPeriodLedger

open ProgramSteps ReadCommittedStore Db KeyedTable SubscriptionRows SubscriptionTransactions
  SubscriptionEffects SubscriptionAlone List Option Table

structure Ledger where
  /-- charges and adjustments of the requests pre-consumed since the last reset -/
  charges : List (String × ℤ)
  takenBack : ℤ
  deriving DecidableEq

namespace Ledger

def fresh : Ledger := ⟨[], 0⟩

def net (l : Ledger) : ℤ := (l.charges.map Prod.snd).sum

def charge (l : Ledger) (requestId : String) (amount : ℤ) : Ledger :=
  { l with charges := l.charges ++ [(requestId, amount)] }

def adjust (l : Ledger) (requestId : String) (delta : ℤ) : Ledger :=
  if requestId ∈ l.charges.map Prod.fst then l.charge requestId delta
  else { l with takenBack := l.takenBack + max 0 (-delta) }

end Ledger

def isReset : ResetOutcome → Bool
  | .reset _ => true
  | _ => false

def resetOnTheWay (c : Clock) (sid : ℤ) (call : PreConsumeCall) (t : Tables) : Bool :=
  match scan c t.plans.find? call (candidates call t) with
  | none => false
  | some (visits, _) => visits.any fun v => v.candidate.id = sid && isReset v.outcome

def resetByTask (c : Clock) (plan : SubscriptionPlan) (id now : ℤ) (t : Tables) : Bool :=
  match (t.subs.find? id).filter (isResetDue now) with
  | none => false
  | some locked => ((maybeReset c locked plan now).map isReset).getD false

namespace Ledger

variable (sid : ℤ)

def afterPreConsume (c : Clock) (call : PreConsumeCall) (t : Tables)
    (r : Except String SubscriptionPreConsumeResult) (l : Ledger) : Ledger :=
  match r with
  | .error _ => l
  | .ok res =>
    if (t.records.find? call.requestId).isSome then l
    else
      let l := if resetOnTheWay c sid call t then fresh else l
      if res.userSubscriptionId = sid then l.charge call.requestId res.preConsumed else l

def afterSettle (requestId : String) (id delta : ℤ) (r : Except String Unit) (l : Ledger) :
    Ledger :=
  match r with
  | .error _ => l
  | .ok _ => if id = sid then l.adjust requestId delta else l

def afterRefund (requestId : String) (t : Tables) (r : Except String Unit) (l : Ledger) : Ledger :=
  match r, t.records.find? requestId with
  | .ok _, some record =>
    if record.status ≠ .refunded ∧ 0 < record.preConsumed ∧ record.userSubscriptionId = sid then
      l.adjust requestId (-record.preConsumed)
    else l
  | _, _ => l

def afterReset (c : Clock) (plan : SubscriptionPlan) (id now : ℤ) (t : Tables) (l : Ledger) :
    Ledger :=
  if id = sid ∧ resetByTask c plan id now t then fresh else l

end Ledger

inductive Event where
  | preConsume (call : PreConsumeCall)
  | settle (requestId : String) (userSubscriptionId delta : ℤ)
  | refund (requestId : String)
  | reset (plan : SubscriptionPlan) (userSubscriptionId now : ℤ)

/-- One call, run to its end on the idle store, and the ledger of the subscription. -/
def step (c : Clock) (tx inner : TxId) (sid : ℤ) (t : Tables) (l : Ledger) :
    Event → Option (Tables × Ledger)
  | .preConsume call =>
    (run (handle engine) (preConsumeUserSubscription c tx call) (idle t)).map fun p =>
      (p.2.committed, l.afterPreConsume sid c call t p.1)
  | .settle requestId id delta =>
    (run (handle engine) (postConsumeUserSubscriptionDelta tx id delta) (idle t)).map fun p =>
      (p.2.committed, l.afterSettle sid requestId id delta p.1)
  | .refund requestId =>
    (run (handle engine) (refundSubscriptionPreConsume tx inner requestId) (idle t)).map fun p =>
      (p.2.committed, l.afterRefund sid requestId t p.1)
  | .reset plan id now =>
    (run (handle engine) (resetSubscription c tx plan id now) (idle t)).map fun p =>
      (p.2.committed, l.afterReset sid c plan id now t)

def play (c : Clock) (tx inner : TxId) (sid : ℤ) (t : Tables) (l : Ledger) :
    List Event → Option (Tables × Ledger)
  | [] => some (t, l)
  | e :: es => (step c tx inner sid t l e).bind fun p => play c tx inner sid p.1 p.2 es

theorem outcomeRow_used {c : Clock} {sub : UserSubscription} {plan : SubscriptionPlan} {now : ℤ}
    {outcome : ResetOutcome} (h : maybeReset c sub plan now = some outcome) :
    (outcomeRow outcome sub).amountUsed = if isReset outcome then 0 else sub.amountUsed := by
  unfold maybeReset at h
  split at h
  · cases h; rfl
  split at h
  · cases h; rfl
  dsimp only at h
  split at h
  · cases h
  · split at h <;> (cases h; rfl)
  · cases h; rfl

theorem foldl_used {P : ℤ → Prop} {sid : ℤ} {ws : List SubWrite}
    (h : ∀ w ∈ ws, ∃ sub, w = .saveSub sub ∧ (sub.id = sid → P sub.amountUsed)) {t : Tables}
    (ht : ∃ used, usedOf t sid = some used ∧ P used) :
    ∃ used, usedOf (ws.foldl (fun t w => applyWrite w t) t) sid = some used ∧ P used := by
  induction ws generalizing t with
  | nil => exact ht
  | cons w ws ih =>
    refine ih (fun w hw => h w (mem_cons_of_mem _ hw)) ?_
    obtain ⟨sub, rfl, hsub⟩ := h w mem_cons_self
    simp only [usedOf, applyWrite, find?_save]
    by_cases hid : sid = sub.id
    · rw [if_pos hid]
      exact ⟨_, rfl, hsub hid.symm⟩
    · rw [if_neg hid]
      exact ht

section Scan

variable {c : Clock} {sid : ℤ} {call : PreConsumeCall} {t : Tables} {visits : List Visit}
  {row sub : UserSubscription}

theorem usedOf_preCharged (sid : ℤ) (call : PreConsumeCall) (visits : List Visit)
    (sub : UserSubscription) (t : Tables) :
    usedOf (preCharged call visits sub t) sid =
      if sid = sub.id then some (sub.amountUsed + call.amount)
      else usedOf ((visitWrites visits).foldl (fun t w => applyWrite w t) t) sid := by
  simp only [preCharged, foldl_append, chargeWrites, foldl_cons, foldl_nil,
    applyWrite, usedOf, find?_save]
  by_cases hid : sid = sub.id
  · rw [if_pos hid, if_pos (show sid = (charge sub call.amount).id from hid)]
    rfl
  · rw [if_neg hid, if_neg (show ¬ sid = (charge sub call.amount).id from hid)]

section

variable (hrow : t.subs.find? sid = some row)
  (hscan : scan c t.plans.find? call (candidates call t) = some (visits, sub))
include hrow hscan

theorem visit_used {v : Visit} (hv : v ∈ visits) (hid : v.candidate.id = sid) :
    (outcomeRow v.outcome v.candidate).amountUsed =
      if isReset v.outcome then 0 else row.amountUsed := by
  obtain ⟨hmem, plan, -, hreset⟩ := (scan_visits hscan).1 v hv
  have hfind := find?_of_mem (mem_candidates.mp hmem).1
  rw [show v.candidate.id = sid from hid, hrow] at hfind
  cases hfind
  exact outcomeRow_used hreset

section

variable {P : ℤ → Prop}
  (hP : ∀ v ∈ visits, v.candidate.id = sid → P (if isReset v.outcome then 0 else row.amountUsed))
  (hused : P row.amountUsed)
include hP hused

theorem visitWrites_used :
    ∃ used, usedOf ((visitWrites visits).foldl (fun t w => applyWrite w t) t) sid = some used ∧
      P used := by
  refine foldl_used ?_ ⟨row.amountUsed, by simp [usedOf, hrow], hused⟩
  intro w hw
  obtain ⟨v, hv, hw⟩ := mem_flatMap.mp hw
  obtain ⟨-, plan, -, hreset⟩ := (scan_visits hscan).1 v hv
  have hid := (outcomeRow_kept hreset).1
  have saved : ∀ s, outcomeRow v.outcome v.candidate = s → s.id = sid → P s.amountUsed := by
    intro s hs hsid
    have hcandidate : v.candidate.id = sid := by rw [← hid, hs, hsid]
    rw [← hs, visit_used hrow hscan hv hcandidate]
    exact hP v hv hcandidate
  cases ho : v.outcome with
  | keep => simp [ho, outcomeWrites] at hw
  | schedule s | reset s =>
    simp only [ho, outcomeWrites, mem_singleton] at hw
    exact ⟨s, hw, saved s (by rw [ho]; rfl)⟩

theorem preCharged_used :
    ∃ base, P base ∧ usedOf (preCharged call visits sub t) sid =
      some (base + if sub.id = sid then call.amount else 0) := by
  rw [usedOf_preCharged]
  by_cases hs : sub.id = sid
  · obtain ⟨v, hv, hsub⟩ := (scan_visits hscan).2.1
    obtain ⟨-, plan, -, hreset⟩ := (scan_visits hscan).1 v hv
    have hid : v.candidate.id = sid := by rw [← hs, hsub, (outcomeRow_kept hreset).1]
    refine ⟨sub.amountUsed, ?_, by rw [if_pos hs.symm, if_pos hs]⟩
    rw [hsub, visit_used hrow hscan hv hid]
    exact hP v hv hid
  · obtain ⟨used, hafter, hbase⟩ := visitWrites_used hrow hscan hP hused
    refine ⟨used, hbase, ?_⟩
    rw [if_neg (fun e => hs e.symm), if_neg hs, hafter, add_zero]

end

end

end Scan

namespace Ledger

@[simp] theorem net_fresh : fresh.net = 0 := rfl

@[simp] theorem net_charge (l : Ledger) (requestId : String) (amount : ℤ) :
    (l.charge requestId amount).net = l.net + amount := by
  simp [net, charge]

@[simp] theorem takenBack_charge (l : Ledger) (requestId : String) (amount : ℤ) :
    (l.charge requestId amount).takenBack = l.takenBack := rfl

end Ledger

structure Covered (sid : ℤ) (t : Tables) (l : Ledger) : Prop where
  used : ∃ used, usedOf t sid = some used ∧ 0 ≤ used ∧ l.net - l.takenBack ≤ used
  takenBack : 0 ≤ l.takenBack

section Steps

variable {c : Clock} {tx inner : TxId} {sid : ℤ} {t t' : Tables} {l : Ledger}

theorem covered_fresh (h : ∃ used, usedOf t sid = some used ∧ 0 ≤ used) :
    Covered sid t Ledger.fresh := by
  obtain ⟨used, hused, hpos⟩ := h
  refine ⟨⟨used, hused, hpos, ?_⟩, le_rfl⟩
  simpa [Ledger.fresh, Ledger.net] using hpos

theorem Covered.of_used_eq (h : Covered sid t l) (he : usedOf t' sid = usedOf t sid) :
    Covered sid t' l := by
  obtain ⟨⟨used, hused, hpos, hnet⟩, htaken⟩ := h
  exact ⟨⟨used, he.trans hused, hpos, hnet⟩, htaken⟩

theorem Covered.adjusted (h : Covered sid t l) (requestId : String) (delta : ℤ) :
    Covered sid (adjusted t sid delta) (l.adjust requestId delta) := by
  obtain ⟨⟨used, hused, hpos, hnet⟩, htaken⟩ := h
  have hclamp : used + delta ≤ clampUsed used delta ∧ 0 ≤ clampUsed used delta := by
    unfold clampUsed
    split <;> omega
  have hused' : usedOf (SubscriptionAlone.adjusted t sid delta) sid =
      some (clampUsed used delta) := by
    rw [usedOf_adjusted, hused]
    rfl
  unfold Ledger.adjust
  split
  · refine ⟨⟨_, hused', hclamp.2, ?_⟩, htaken⟩
    rw [Ledger.net_charge, Ledger.takenBack_charge]
    omega
  · have hmax : -delta ≤ max 0 (-delta) ∧ 0 ≤ max 0 (-delta) := by omega
    refine ⟨⟨_, hused', hclamp.2, ?_⟩, ?_⟩
    · simp only [Ledger.net] at hnet ⊢
      omega
    · exact add_nonneg htaken hmax.2

theorem postConsume_ok {id delta : ℤ} (h : postConsume t id delta = (.ok (), t')) :
    (delta = 0 ∧ t' = t) ∨ t' = adjusted t id delta := by
  unfold postConsume at h
  split at h
  · cases h
  split at h
  · cases h
    exact .inl ⟨by assumption, rfl⟩
  split at h
  · cases h
  split at h
  · cases h
  · cases h
    exact .inr rfl

theorem Covered.postConsume (h : Covered sid t l) {id delta : ℤ} {requestId : String}
    (hpost : postConsume t id delta = (.ok (), t')) :
    Covered sid t' (if id = sid then l.adjust requestId delta else l) := by
  by_cases hid : id = sid
  · subst hid
    rw [if_pos rfl]
    rcases postConsume_ok hpost with ⟨rfl, rfl⟩ | rfl
    · obtain ⟨⟨used, hused, hpos, hnet⟩, htaken⟩ := h
      unfold Ledger.adjust
      split
      · refine ⟨⟨used, hused, hpos, ?_⟩, htaken⟩
        simpa [Ledger.charge, Ledger.net] using hnet
      · refine ⟨⟨used, hused, hpos, ?_⟩, ?_⟩
        · simpa [Ledger.net] using hnet
        · simpa using htaken
    · exact h.adjusted requestId delta
  · rw [if_neg hid]
    rcases postConsume_ok hpost with ⟨-, rfl⟩ | rfl
    · exact h
    · exact h.of_used_eq (usedOf_adjusted_of_ne t (fun e => hid e.symm) delta)

theorem settle_covered (h : Covered sid t l) (requestId : String) (id delta : ℤ) :
    Covered sid (SubscriptionAlone.postConsume t id delta).2
      (l.afterSettle sid requestId id delta (SubscriptionAlone.postConsume t id delta).1) := by
  cases hpost : SubscriptionAlone.postConsume t id delta with
  | mk r t' =>
    cases r with
    | error e =>
      rw [postConsume_error hpost]
      exact h
    | ok a => exact h.postConsume hpost

theorem refund_covered (h : Covered sid t l) (requestId : String) :
    Covered sid (refund t requestId).2 (l.afterRefund sid requestId t (refund t requestId).1) := by
  unfold refund
  split
  · exact h
  cases hrec : t.records.find? requestId with
  | none => exact h
  | some record =>
    dsimp only
    split
    next hstatus =>
      simp only [Ledger.afterRefund, hrec, hstatus]
      exact h
    rename_i hstatus
    split
    next hpre =>
      have hskip : ¬ (record.status ≠ .refunded ∧ 0 < record.preConsumed ∧
          record.userSubscriptionId = sid) := fun hc => by omega
      simp only [Ledger.afterRefund, hrec]
      rw [if_neg hskip]
      exact h.of_used_eq rfl
    rename_i hpre
    cases hpost : SubscriptionAlone.postConsume t record.userSubscriptionId
        (-record.preConsumed) with
    | mk r t' =>
      cases r with
      | error e => exact h
      | ok a =>
        have hcovered : Covered sid t' (if record.userSubscriptionId = sid then
            l.adjust requestId (-record.preConsumed) else l) := h.postConsume hpost
        simp only [Ledger.afterRefund, hrec, hstatus, ne_eq, not_false_eq_true, true_and,
          show 0 < record.preConsumed by omega]
        exact hcovered.of_used_eq rfl

/-- A successful pre-consumption: a reset on the way starts a new period, in which the
counter is not negative; without one the counter is the old one plus the charge. -/
theorem preConsume_covered (h : Covered sid t l) {call : PreConsumeCall}
    {res : SubscriptionPreConsumeResult} (ho : PreOutcome c call t res t') :
    Covered sid t' (l.afterPreConsume sid c call t (.ok res)) := by
  cases ho with
  | repeated hrec _ _ ht _ =>
    simp only [Ledger.afterPreConsume, hrec, Option.isSome_some, if_true]
    rw [ht]
    exact h
  | @charged visits sub hamount hnone hscan ht hres =>
    obtain ⟨⟨used, hused, hpos, hnet⟩, htaken⟩ := h
    obtain ⟨row, hrow, rfl⟩ := Option.map_eq_some_iff.mp hused
    have charged_covers : ∀ (l : Ledger) (base : ℤ), 0 ≤ base → 0 ≤ l.takenBack →
        l.net - l.takenBack ≤ base →
        usedOf t' sid = some (base + if sub.id = sid then call.amount else 0) →
        Covered sid t' (if sub.id = sid then l.charge call.requestId call.amount else l) := by
      intro l base hbase htaken hle hafter
      split at hafter
      next hs =>
        rw [if_pos hs]
        refine ⟨⟨_, hafter, by omega, ?_⟩, htaken⟩
        rw [Ledger.net_charge, Ledger.takenBack_charge]
        omega
      next hs =>
        rw [if_neg hs]
        exact ⟨⟨_, hafter, by omega, by omega⟩, htaken⟩
    simp only [Ledger.afterPreConsume, hnone, hres, Option.isSome_none, Bool.false_eq_true,
      if_false, chargedResult]
    rw [ht] at charged_covers ⊢
    cases hway : resetOnTheWay c sid call t with
    | true =>
      obtain ⟨base, hbase, hafter⟩ := preCharged_used (P := (0 ≤ ·)) hrow hscan
        (fun v _ _ => by split <;> omega) hpos
      exact charged_covers .fresh base hbase (le_rfl)
        (by simpa [Ledger.fresh, Ledger.net] using hbase) hafter
    | false =>
      have hkept : ∀ v ∈ visits, v.candidate.id = sid →
          (if isReset v.outcome then 0 else row.amountUsed) = row.amountUsed := by
        intro v hv hid
        simp only [resetOnTheWay, hscan, List.any_eq_false, Bool.and_eq_true,
          decide_eq_true_eq, not_and] at hway
        rw [if_neg (hway v hv hid)]
      obtain ⟨base, rfl, hafter⟩ := preCharged_used (P := (· = row.amountUsed)) hrow hscan hkept rfl
      exact charged_covers l _ hpos htaken hnet hafter

def resetAlone (c : Clock) (plan : SubscriptionPlan) (id now : ℤ) (t : Tables) :
    Option (Bool × Tables) :=
  match (t.subs.find? id).filter (isResetDue now) with
  | none => some (false, t)
  | some locked =>
    (maybeReset c locked plan now).map fun outcome =>
      (true, (outcomeWrites outcome).foldl (fun t w => applyWrite w t) t)

theorem run_resetSubscription (plan : SubscriptionPlan) (id now : ℤ) :
    run (handle engine) (resetSubscription c tx plan id now) (idle t) =
      (resetAlone c plan id now t).map fun p => ((p.1, .ok ()), idle p.2) := by
  change run (handle engine) (resetBody c tx plan id now >>= fun p =>
    conclude tx p.2 >>= fun err => pure (p.1, err)) (idle t) = _
  rw [run_bind]
  unfold resetAlone
  have hselect : run (handle engine) (selectDueReset tx id now) (idle t) =
      some (.ok ((t.subs.find? id).filter (isResetDue now)), idle t) := rfl
  rw [resetBody, run_bind, hselect, bind_some]
  cases (t.subs.find? id).filter (isResetDue now) with
  | none => rfl
  | some locked =>
    have saved : ∀ sub : UserSubscription, some ((true, (.ok () : Except String Unit)),
        ((idle t : SubDb).add tx (.saveSub sub)).publish engine tx) =
        some ((true, .ok ()), idle (applyWrite (.saveSub sub) t)) :=
      fun sub => congrArg some (Prod.ext rfl (publish_add_idle t tx _))
    dsimp only
    unfold maybeResetUserSubscriptionWithPlanTx
    cases maybeReset c locked plan now with
    | none => rfl
    | some outcome =>
      cases outcome with
      | keep => rfl
      | schedule sub => exact saved sub
      | reset sub => exact saved sub

theorem usedOf_outcomeWrites {plan : SubscriptionPlan} {id now : ℤ} {locked : UserSubscription}
    {outcome : ResetOutcome} (hlocked : t.subs.find? id = some locked)
    (h : maybeReset c locked plan now = some outcome) :
    usedOf ((outcomeWrites outcome).foldl (fun t w => applyWrite w t) t) sid =
      if sid = id then some (if isReset outcome then 0 else locked.amountUsed)
      else usedOf t sid := by
  have hid : (outcomeRow outcome locked).id = id :=
    (outcomeRow_kept h).1.trans (find?_some_key hlocked)
  have saved : ∀ sub, outcomeRow outcome locked = sub → usedOf (applyWrite (.saveSub sub) t) sid =
        if sid = id then some sub.amountUsed else usedOf t sid := by
    rintro sub rfl
    simp only [usedOf, applyWrite, find?_save]
    rw [hid]
    split <;> rfl
  rw [← outcomeRow_used h]
  cases outcome with
  | keep =>
    change usedOf t sid = _
    split
    next hs =>
      rw [hs, usedOf, hlocked]
      rfl
    · rfl
  | schedule sub | reset sub => exact saved sub rfl

theorem reset_covered (h : Covered sid t l) {plan : SubscriptionPlan} {id now : ℤ}
    {counted : Bool} (hreset : resetAlone c plan id now t = some (counted, t')) :
    Covered sid t' (l.afterReset sid c plan id now t) := by
  unfold resetAlone at hreset
  unfold Ledger.afterReset resetByTask
  cases hdue : (t.subs.find? id).filter (isResetDue now) with
  | none =>
    rw [hdue] at hreset
    cases hreset
    simpa using h
  | some locked =>
    rw [hdue] at hreset
    obtain ⟨outcome, houtcome, he⟩ := map_eq_some_iff.mp hreset
    cases he
    have hlocked : t.subs.find? id = some locked := (filter_eq_some_iff.mp hdue).1
    have hused := @usedOf_outcomeWrites c sid t plan id now locked outcome hlocked houtcome
    simp only [houtcome, map_some, getD_some]
    by_cases hs : sid = id
    · subst hs
      rw [if_pos rfl] at hused
      by_cases hr : isReset outcome = true
      · rw [if_pos hr] at hused
        rw [if_pos ⟨rfl, hr⟩]
        exact covered_fresh ⟨0, hused, le_rfl⟩
      · rw [if_neg hr] at hused
        rw [if_neg (fun hc => hr hc.2)]
        refine h.of_used_eq (hused.trans ?_)
        rw [usedOf, hlocked]
        rfl
    · rw [if_neg hs] at hused
      rw [if_neg (fun hc => hs hc.1.symm)]
      exact h.of_used_eq hused

theorem step_preserves_covered {e : Event} {l' : Ledger} (h : Covered sid t l)
    (hstep : step c tx inner sid t l e = some (t', l')) : Covered sid t' l' := by
  cases e with
  | preConsume call =>
    obtain ⟨⟨r, db⟩, hrun, he⟩ := Option.map_eq_some_iff.mp hstep
    cases he
    have hfaulty := run_withFaults_nil (handle engine) onFault
      (preConsumeUserSubscription c tx call) (idle t)
    rw [hrun] at hfaulty
    obtain ⟨t', hidle, herr, hok⟩ := wp_preConsume (s := ⟨idle t, []⟩) rfl r ⟨db, []⟩ hfaulty
    obtain rfl : db = idle t' := hidle
    cases r with
    | error e =>
      rw [idle_committed, herr e rfl]
      exact h
    | ok res => exact preConsume_covered h (hok res rfl)
  | settle requestId id delta =>
    simp only [step, run_postConsume, Option.map_some, Option.some.injEq, Prod.mk.injEq] at hstep
    obtain ⟨rfl, rfl⟩ := hstep
    exact settle_covered h requestId id delta
  | refund requestId =>
    simp only [step, run_refund, Option.map_some, Option.some.injEq, Prod.mk.injEq] at hstep
    obtain ⟨rfl, rfl⟩ := hstep
    exact refund_covered h requestId
  | reset plan id now =>
    simp only [step, run_resetSubscription, Option.map_map] at hstep
    obtain ⟨⟨counted, t₁⟩, hreset, he⟩ := Option.map_eq_some_iff.mp hstep
    cases he
    exact reset_covered h hreset

theorem play_preserves_covered {es : List Event} {l' : Ledger} (h : Covered sid t l)
    (hplay : play c tx inner sid t l es = some (t', l')) : Covered sid t' l' := by
  induction es generalizing t l with
  | nil =>
    cases hplay
    exact h
  | cons e es ih =>
    obtain ⟨⟨t₁, l₁⟩, hstep, hrest⟩ := bind_eq_some_iff.mp hplay
    exact ih (step_preserves_covered h hstep) hrest

def planAlone (t : Tables) (id : ℤ) : Except String SubscriptionPlan :=
  if id ≤ 0 then .error "invalid plan id"
  else
    match t.plans.find? id with
    | none => .error "record not found"
    | some plan => .ok plan

end Steps

/-- After any schedule of pre-consumptions, settlements, refunds and resets the counter is
at least the net charges of the requests pre-consumed since the last reset, less what was
taken back since then for other requests. -/
theorem used_covers_period_up_to_taken_back (c : Clock) (tx inner : TxId) (sid : ℤ)
    (t₀ : Tables) (h₀ : ∃ used, usedOf t₀ sid = some used ∧ 0 ≤ used) (es : List Event)
    (t : Tables) (l : Ledger) (hplay : play c tx inner sid t₀ Ledger.fresh es = some (t, l)) :
    ∃ used, usedOf t sid = some used ∧ l.net - l.takenBack ≤ used ∧ 0 ≤ used := by
  obtain ⟨used, hused, hpos, hnet⟩ := (play_preserves_covered (covered_fresh h₀) hplay).used
  exact ⟨used, hused, hnet, hpos⟩

def periodicTables : Tables :=
  { plainTables ⟨[{ plainSub 7 1000 0 with
      startTime := 1000, endTime := 10000, lastResetTime := 1000, nextResetTime := 1100 }],
      by decide⟩ with
    plans := ⟨[{ plainPlan with
      quotaResetPeriod := "custom", quotaResetCustomSeconds := 100 }], by decide⟩ }

def beforeAndAfterReset : List Event :=
  [.preConsume ⟨"a", 1, 100, 1050⟩, .preConsume ⟨"b", 1, 50, 1160⟩, .refund "a"]

theorem used_covers_period_when_older_refunded : ∃ t l,
    play ⟨0, 10⟩ 0 1 7 periodicTables Ledger.fresh beforeAndAfterReset = some (t, l) ∧
    l = ⟨[("b", 50)], 100⟩ ∧ ∃ used, usedOf t 7 = some used ∧ -50 ≤ used ∧ 0 ≤ used := by
  have hplay : (play ⟨0, 10⟩ 0 1 7 periodicTables Ledger.fresh beforeAndAfterReset).map Prod.snd =
      some ⟨[("b", 50)], 100⟩ := by decide
  obtain ⟨⟨t, l⟩, hrun, hl⟩ := map_eq_some_iff.mp hplay
  refine ⟨t, l, hrun, hl, ?_⟩
  obtain ⟨used, hused, hnet, hpos⟩ :=
    used_covers_period_up_to_taken_back ⟨0, 10⟩ 0 1 7 periodicTables ⟨0, by decide, le_rfl⟩
      _ t l hrun
  rw [show l = ⟨[("b", 50)], 100⟩ from hl] at hnet
  exact ⟨used, hused, hnet, hpos⟩

/-- The reset comes between the two requests; the refund of the first then takes the 50 of
the second off the new period. -/
theorem older_refund_uncovers_new_period : ∃ t l used,
    play ⟨0, 10⟩ 0 1 7 periodicTables Ledger.fresh beforeAndAfterReset = some (t, l) ∧
    usedOf t 7 = some used ∧ ¬ l.net ≤ used := by
  have hplay : (play ⟨0, 10⟩ 0 1 7 periodicTables Ledger.fresh beforeAndAfterReset).map
      (fun p => (usedOf p.1 7, p.2.net)) = some (some 0, 50) := by decide
  obtain ⟨⟨t, l⟩, hrun, hvalues⟩ := map_eq_some_iff.mp hplay
  obtain ⟨hused, hnet⟩ := Prod.mk.inj hvalues
  refine ⟨t, l, 0, hrun, hused, ?_⟩
  rw [show l.net = 50 from hnet]
  decide

end SubscriptionPeriodLedger
