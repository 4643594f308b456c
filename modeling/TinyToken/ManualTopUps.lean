import TinyToken.PromptPayRule

/-! Manual top-up orders: approval by an admin or by the automatic rule, and rejection. Both
lock the order before they look at its status, so every commit acts on the order as it
stands: whatever the interleaving, the calls that succeed form a sequence of atomic steps. -/
namespace ManualTopUps

open InterleavedPrograms LockingStore LockingPools KeyedTable PaymentStore PromptPayRule
  List Option Table
open ReadCommittedStore (TxId Db)

/-- `decimal.IntPart`: the fraction is cut off. -/
def intPart (x : ℚ) : ℤ := x.num.tdiv x.den

variable (c : PayConfig) (tx : TxId)

variable (call : Approval) (tradeNo : String) (topUp : TopUp)

/-- A Stripe order holds its price in dollars, any other order the amount of units. -/
def quotaToAdd : ℤ :=
  if topUp.paymentProvider = .stripe then intPart (topUp.money * c.quotaPerUnit)
  else intPart (topUp.amount * c.quotaPerUnit)

/-- One call of `completeManualTopUp`; `autoMode` is empty for a manual approval. The two
times are those the call samples for the rule and for the record. -/
structure Approval where
  tradeNo : String
  telegramId : ℤ
  reference : String
  autoMode : String
  sampledAt : ℤ
  completedAt : ℤ

def approvalMethod (autoMode : String) : String :=
  if autoMode = modeVerified then "AUTO"
  else if autoMode = modeWhitelist then "AUTO_WHITELIST"
  else "MANUAL"

def automaticFits : Bool :=
  topUp.paymentProvider = .promptPay &&
    ((call.autoMode = modeVerified && matchesBankReference call.reference) ||
      (call.autoMode = modeWhitelist && matchesWhitelistReference call.reference))

def ruleUnavailable : String := "auto approval rule is unavailable or no longer matches"

def ruleVerdict :
    Except String PromptPayAutoConfig → Except String Unit
  | .error _ => .error ruleUnavailable
  | .ok cfg =>
    if effectiveMode cfg ≠ call.autoMode ∨ allows c cfg topUp call.sampledAt = false then
      .error ruleUnavailable
    else .ok ()

def checkAutomatic : PayProg (Except String Unit) :=
  if call.autoMode = "" then pure (.ok ())
  else if automaticFits call topUp = false then pure (.error "topup is not a manual payment")
  else do
    let rule ← readLockedRule tx
    pure (ruleVerdict c call topUp rule)

def audit : TopUpApproval where
  topUpId := topUp.id
  tradeNo := topUp.tradeNo
  userId := topUp.userId
  paymentAmount := topUp.money
  credits := topUp.amount
  approvedAt := call.completedAt
  method := approvalMethod call.autoMode
  telegramAdminId := call.telegramId
  verifiedReference := if call.autoMode = "" then none else some call.reference

def approveTopUp : PayProg (Except String Bool) :=
  if quotaToAdd c topUp ≤ 0 then pure (.error "无效的充值额度")
  else do
    match ← finishPendingTopUp tx topUp.id .success call.completedAt with
    | .error e => pure (.error e)
    | .ok affected =>
      if affected ≠ 1 then pure (.error "topup status invalid")
      else
        match ← addQuota tx topUp.userId (quotaToAdd c topUp) .none with
        | .error e => pure (.error e)
        | .ok affected =>
          if affected ≠ 1 then pure (.error "top-up user no longer exists")
          else
            match ← createApproval tx (audit call topUp) with
            | .error e => pure (.error e)
            | .ok _ => pure (.ok true)

def completeBody : PayProg (Except String Bool) := do
  match ← lockTopUp tx call.tradeNo with
  | .error _ => pure (.error "充值订单不存在")
  | .ok none => pure (.error "充值订单不存在")
  | .ok (some topUp) =>
    if topUp.status = .success then
      if call.autoMode ≠ "" then pure (.error "topup status invalid") else pure (.ok false)
    else if topUp.status ≠ .pending then pure (.error "订单状态不是待支付，无法补单")
    else
      match ← checkAutomatic c tx call topUp with
      | .error e => pure (.error e)
      | .ok _ => approveTopUp c tx call topUp

def completeManualTopUp : PayProg (Except String Bool) :=
  if call.tradeNo = "" then pure (.error "未提供订单号")
  else transaction tx (completeBody c tx call)

def isManual (provider : PaymentProvider) : Bool :=
  provider = .promptPay || provider = .otherManual

def rejectBody (now : ℤ) : PayProg (Except String Unit) := do
  match ← lockTopUp tx tradeNo with
  | .error e => pure (.error e)
  | .ok none => pure (.error "topup not found")
  | .ok (some topUp) =>
    if isManual topUp.paymentProvider = false then pure (.error "topup is not a manual payment")
    else if topUp.status = .failed then pure (.ok ())
    else if topUp.status ≠ .pending then pure (.error "topup status invalid")
    else
      match ← finishPendingTopUp tx topUp.id .failed now with
      | .error e => pure (.error e)
      | .ok affected =>
        if affected ≠ 1 then pure (.error "topup status invalid") else pure (.ok ())

def rejectManualTopUp (now : ℤ) : PayProg (Except String Unit) :=
  if tradeNo = "" then pure (.error "topup not found")
  else transaction tx (rejectBody tx tradeNo now)

theorem completeManualTopUp_ne (approved : Bool) :
    completeManualTopUp c tx call ≠ .pure (.ok approved) := by
  intro h
  unfold completeManualTopUp at h
  split at h <;> cases h

theorem rejectManualTopUp_ne (now : ℤ) (u : Unit) :
    rejectManualTopUp tx tradeNo now ≠ .pure (.ok u) := by
  intro h
  unfold rejectManualTopUp at h
  split at h <;> cases h

def finished (status : OrderStatus) (now : ℤ) : TopUp :=
  { topUp with status := status, completeTime := now }

def creditOrder (t : PayTables) : PayTables :=
  { t with
    topUps := t.topUps.save (finished topUp .success call.completedAt)
    wallets := creditWallets t.wallets topUp.userId (quotaToAdd c topUp) .none
    approvals := t.approvals.add (audit call topUp) }

def failOrder (now : ℤ) (t : PayTables) : PayTables :=
  { t with topUps := t.topUps.save (finished topUp .failed now) }

def RuleAllows (t : PayTables) : Prop :=
  ∃ cfg, t.rule = some (.config cfg) ∧ effectiveMode cfg = call.autoMode ∧
    allows c cfg topUp call.sampledAt = true

structure Approvable (c : PayConfig) (call : Approval) (topUp : TopUp) (t : PayTables) : Prop where
  stored : t.topUps.find? topUp.id = some topUp
  tradeNo : topUp.tradeNo = call.tradeNo
  pending : topUp.status = .pending
  positive : 0 < quotaToAdd c topUp
  wallet : (t.wallets.find? topUp.userId).isSome = true
  fits : ¬ t.approvals.Clashes (audit call topUp)
  automatic : call.autoMode ≠ "" → automaticFits call topUp = true ∧ RuleAllows c call topUp t

inductive CompleteEffect (c : PayConfig) (call : Approval) (t : PayTables) :
    Bool → PayTables → Prop where
  | approved (topUp : TopUp) (h : Approvable c call topUp t) :
      CompleteEffect c call t true (creditOrder c call topUp t)
  | already (h : call.autoMode = "") : CompleteEffect c call t false t

structure Rejectable (tradeNo : String) (topUp : TopUp) (t : PayTables) : Prop where
  stored : t.topUps.find? topUp.id = some topUp
  tradeNo : topUp.tradeNo = tradeNo
  pending : topUp.status = .pending
  manual : isManual topUp.paymentProvider = true

inductive RejectEffect (tradeNo : String) (now : ℤ) (t : PayTables) : PayTables → Prop where
  | rejected (topUp : TopUp) (h : Rejectable tradeNo topUp t) :
      RejectEffect tradeNo now t (failOrder topUp now t)
  | already : RejectEffect tradeNo now t t

section Bodies

variable {c : PayConfig} {tx : TxId} {call : Approval}
  {ok : PayGuard}

def CompletePost (c : PayConfig) (tx : TxId) (call : Approval) (approved : Bool)
    (_ : PayHistory) (db : Db PayTables PayWrite) : Prop :=
  CompleteEffect c call db.committed approved (seen payEngine db tx)

/-- The order is locked as it was read, and the writes so far are locks only. -/
structure Locked (topUp : TopUp) (ws : List PayWrite) : Prop where
  held : PayWrite.holdTopUp topUp.id ∈ ws
  locks : ∀ t, applyAll payEngine ws t = t

theorem guards_locked {topUp : TopUp} {ws : List PayWrite} {row : Option TopUp}
    (h : Locked topUp ws) : Guards payEngine ws fun t => t.topUps.find? topUp.id = row :=
  guards_topUp h.held (by simp [PayWrite.locks])

theorem body_approveTopUp {topUp : TopUp} {ws : List PayWrite} {p : PayTables → Prop}
    (hlocked : Locked topUp ws) (hguard : ∀ vs, Guards payEngine (ws ++ vs) p)
    (htrade : topUp.tradeNo = call.tradeNo) (hpending : topUp.status = .pending)
    (hauto : ∀ t, p t → call.autoMode ≠ "" →
      automaticFits call topUp = true ∧ RuleAllows c call topUp t) :
    PayBody tx ok (CompletePost c tx call) ws
      (fun t => t.topUps.find? topUp.id = some topUp ∧ p t) [] (approveTopUp c tx call topUp) := by
  have hstored : ∀ vs, Guards payEngine (ws ++ vs) fun t =>
      t.topUps.find? topUp.id = some topUp ∧ p t := by
    intro vs
    exact (guards_topUp (mem_append_left vs hlocked.held) (by simp [PayWrite.locks])).and
      (hguard vs)
  unfold approveTopUp
  split
  · exact body_fail
  rename_i hpositive
  refine body_finishPending atFault_true (by simpa using hstored []) (fun _ => body_fail) body_fail ?_
  intro row t ht hrow
  rw [hlocked.locks, ht.1] at hrow
  cases hrow
  refine body_addQuota atFault_true (hstored _) (fun _ => body_fail) body_fail ?_
  rw [append_assoc]
  refine body_createApproval atFault_true ((hstored _).and guards_wallet) (fun _ => body_fail) ?_
  rw [append_assoc]
  apply body_ok (((hstored _).and guards_wallet).and (guards_approval (by simp)))
  rintro past db ⟨hown, ⟨⟨⟨hfind, hp⟩, hwallet⟩, hfits⟩, -⟩
  rw [CompletePost, seen_of_own hown, applyAll_append, hlocked.locks]
  exact .approved topUp ⟨hfind, htrade, hpending, by omega, hwallet, hfits, hauto _ hp⟩

theorem body_checkAutomatic {topUp : TopUp} {k : Except String Unit → PayProg (Except String Bool)}
    (hfail : ∀ x ws p, PayBody tx ok (CompletePost c tx call) ws p [] (k (.error x)))
    (hpass : ∀ ws p, Locked topUp ws → (∀ vs, Guards payEngine (ws ++ vs) p) →
      (∀ t, p t → call.autoMode ≠ "" →
        automaticFits call topUp = true ∧ RuleAllows c call topUp t) →
      PayBody tx ok (CompletePost c tx call) ws
        (fun t => t.topUps.find? topUp.id = some topUp ∧ p t) [] (k (.ok ()))) :
    PayBody tx ok (CompletePost c tx call) [.holdTopUp topUp.id]
      (fun t => t.topUps.find? topUp.id = some topUp) []
      (checkAutomatic c tx call topUp >>= k) := by
  have hheld : Locked topUp [.holdTopUp topUp.id] := ⟨by simp, fun _ => rfl⟩
  unfold checkAutomatic
  split
  next hmanual =>
    refine body_mono (fun t ht => ⟨ht, trivial⟩) (hpass _ (fun _ => True) hheld ?_ ?_)
    · exact fun vs => guards_true
    · exact fun _ _ hauto => absurd hmanual hauto
  split
  · exact hfail _ _ _
  rename_i hfits
  have hfits : automaticFits call topUp = true := by simpa using hfits
  refine body_lockRule atFault_true (guards_locked hheld) (fun _ => hfail _ _ _) ?_ ?_
  · -- without a saved rule the zero rule is read, which is not enabled
    have hzero : ruleVerdict c call topUp (decodeRule none) = .error ruleUnavailable :=
      if_pos (.inr rfl)
    change Body _ _ _ _ _ _ _ _ (k (ruleVerdict c call topUp (decodeRule none)))
    rw [hzero]
    exact hfail _ _ _
  intro value
  change Body _ _ _ _ _ _ _ _ (k (ruleVerdict c call topUp (decodeRule (some value))))
  cases value with
  | malformed text => exact hfail _ _ _
  | config cfg =>
    rw [decodeRule, ruleVerdict]
    split
    · exact hfail _ _ _
    rename_i hallows
    have hallows : effectiveMode cfg = call.autoMode ∧
        allows c cfg topUp call.sampledAt = true := by
      simpa [not_or] using hallows
    refine hpass _ (fun t => t.rule = some (.config cfg)) ⟨by simp, fun _ => rfl⟩ ?_ ?_
    · exact fun vs => guards_rule (w := .holdRule) (by simp) (by simp [PayWrite.locks])
    · exact fun t ht _ => ⟨hfits, cfg, ht, hallows⟩

theorem body_complete :
    PayBody tx ok (CompletePost c tx call) [] (fun _ => True) [] (completeBody c tx call) := by
  refine body_lockTopUp atFault_true guards_true (fun _ => body_fail) body_fail ?_
  intro topUp htrade
  have hheld : Locked topUp [.holdTopUp topUp.id] := ⟨by simp, fun _ => rfl⟩
  refine body_mono (fun t ht => ht.2) ?_
  dsimp only
  split
  · split
    · exact body_fail
    next hmanual =>
      apply body_ok (guards_locked hheld)
      rintro past db ⟨hown, -, -⟩
      rw [CompletePost, seen_of_own hown]
      exact .already (not_not.mp hmanual)
  split
  · exact body_fail
  rename_i hpending
  refine body_checkAutomatic (fun _ _ _ => body_fail) ?_
  intro ws p hlocked hguard hauto
  exact body_approveTopUp hlocked hguard htrade (by simpa using hpending) hauto

def RejectPost (tx : TxId) (tradeNo : String) (now : ℤ) (_ : Unit)
    (_ : PayHistory) (db : Db PayTables PayWrite) : Prop :=
  RejectEffect tradeNo now db.committed (seen payEngine db tx)

theorem body_reject {tradeNo : String} {now : ℤ} :
    PayBody tx ok (RejectPost tx tradeNo now) [] (fun _ => True) []
      (rejectBody tx tradeNo now) := by
  refine body_lockTopUp atFault_true guards_true (fun _ => body_fail) body_fail ?_
  intro topUp htrade
  have hheld : Locked topUp [.holdTopUp topUp.id] := ⟨by simp, fun _ => rfl⟩
  refine body_mono (fun t ht => ht.2) ?_
  dsimp only
  split
  · exact body_fail
  rename_i hmanual
  split
  · apply body_ok (guards_locked hheld)
    rintro past db ⟨hown, -, -⟩
    rw [RejectPost, seen_of_own hown]
    exact .already
  split
  · exact body_fail
  rename_i hpending
  refine body_finishPending atFault_true (guards_locked hheld) (fun _ => body_fail) body_fail ?_
  intro row t ht hrow
  have hsame : some topUp = some row := ht.symm.trans hrow
  cases hsame
  apply body_ok (guards_topUp (w := .holdTopUp topUp.id) (by simp) (by simp [PayWrite.locks]))
  rintro past db ⟨hown, hfind, -⟩
  rw [RejectPost, seen_of_own hown]
  exact .rejected topUp ⟨hfind, htrade, by simpa using hpending, by simpa using hmanual⟩

theorem callSafe_complete :
    CallSafe payEngine tx ok (fun _ => True) (fun _ => True) (CompletePost c tx call)
      (completeManualTopUp c tx call) := by
  unfold completeManualTopUp
  split
  · exact callSafe_fail
  · exact callSafe_transaction atFault_true guards_true body_complete

theorem callSafe_reject {tradeNo : String} {now : ℤ} :
    CallSafe payEngine tx ok (fun _ => True) (fun _ => True) (RejectPost tx tradeNo now)
      (rejectManualTopUp tx tradeNo now) := by
  unfold rejectManualTopUp
  split
  · exact callSafe_fail
  · exact callSafe_transaction atFault_true guards_true body_reject

end Bodies

inductive ManualCall where
  | complete (call : Approval)
  | reject (tradeNo : String) (now : ℤ)

inductive Outcome where
  | completed (approved : Bool)
  | rejected
  deriving DecidableEq

def ManualCall.program : ManualCall → PayProg (Except String Outcome)
  | .complete call => completeManualTopUp c tx call >>= fun r => pure (r.map .completed)
  | .reject tradeNo now => rejectManualTopUp tx tradeNo now >>= fun r => pure (r.map fun _ => .rejected)

inductive ManualStep (c : PayConfig) (t t' : PayTables) : ManualCall → Outcome → Prop where
  | complete {call : Approval} {approved : Bool} (h : CompleteEffect c call t approved t') :
      ManualStep c t t' (.complete call) (.completed approved)
  | reject {tradeNo : String} {now : ℤ} (h : RejectEffect tradeNo now t t') :
      ManualStep c t t' (.reject tradeNo now) .rejected

def ManualPost (call : ManualCall) (outcome : Outcome)
    (_ : PayHistory) (db : Db PayTables PayWrite) : Prop :=
  ManualStep c db.committed (seen payEngine db tx) call outcome

theorem callSafe_manual (call : ManualCall) (ok : PayGuard) :
    CallSafe payEngine tx ok (fun _ => True) (fun _ => True) (ManualPost c tx call)
      (call.program c tx) := by
  cases call with
  | complete call =>
    refine callSafe_then (fun a => rfl) ?_ (fun e => callSafe_fail) ?_ callSafe_complete
    · nofun
    · exact fun approved past db h => .complete h
  | reject tradeNo now =>
    refine callSafe_then (fun a => rfl) ?_ (fun e => callSafe_fail) ?_ callSafe_reject
    · nofun
    · exact fun _ past db h => .reject h

abbrev PayPool (α ι : Type) :=
  Pool (RowOp PayStmt) (RowRes PayAnswer) (Except String α)
    (TransactionPools.Store PayTables PayWrite) ι

def manualPool {ι : Type} (c : PayConfig) (conn : ι → TxId) (calls : ι → ManualCall)
    (t : PayTables) (faults : List (Option String)) : PayPool Outcome ι :=
  Pool.start ⟨Db.idle t, faults⟩ fun i => (calls i).program c (conn i)

def tables {α ι : Type} (p : PayPool α ι) : PayTables := p.state.state.committed

def SameOrder (a b : TopUp) : Prop :=
  b = { a with status := b.status, completeTime := b.completeTime }

def approvalsOf (t : PayTables) (id : ℤ) : ℕ :=
  t.approvals.rows.countP fun a => a.topUpId = id

def statusOf (t : PayTables) (id : ℤ) : Option OrderStatus :=
  (t.topUps.find? id).map TopUp.status

def gain (t : PayTables) (userId : ℤ) (row : TopUp) : ℤ :=
  if row.status = .pending ∧ row.userId = userId ∧ statusOf t row.id = some .success then
    quotaToAdd c row
  else 0

/-- The tables `t` reached from `t₀`: an order that was not pending is as it was; one that was
pending is pending, approved or rejected, with one approval exactly if it is approved; the
quotas hold the credits of the approved orders; no reference serves two orders. -/
structure ExactlyOnce (c : PayConfig) (t₀ t : PayTables) : Prop where
  known : ∀ id, (t.topUps.find? id).isSome = (t₀.topUps.find? id).isSome
  settled : ∀ row₀ ∈ t₀.topUps.rows, row₀.status ≠ .pending →
    t.topUps.find? row₀.id = some row₀ ∧ approvalsOf t row₀.id = approvalsOf t₀ row₀.id
  pending : ∀ row₀ ∈ t₀.topUps.rows, row₀.status = .pending →
    ∃ row, t.topUps.find? row₀.id = some row ∧ SameOrder row₀ row ∧ row.status ≠ .expired ∧
      approvalsOf t row₀.id = if row.status = .success then 1 else 0
  quotas : ∀ userId, (t₀.wallets.find? userId).isSome = true →
    (t.wallets.find? userId).isSome = true ∧
      t.quota userId = t₀.quota userId + t₀.topUps.total (gain c t userId)
  references : ∀ a ∈ t.approvals.rows, ∀ b ∈ t.approvals.rows, ∀ reference,
    a.verifiedReference = some reference → b.verifiedReference = some reference → a = b

section Invariant

variable {c : PayConfig} {t₀ t t' : PayTables}

theorem reference_unique (a : Approvals) : ∀ x ∈ a.rows, ∀ y ∈ a.rows, ∀ reference,
    x.verifiedReference = some reference → y.verifiedReference = some reference → x = y :=
  fun _ hx _ hy _ hrx hry => eq_of_filterMap_nodup a.references hx hy hrx hry

theorem exactlyOnce_start
    (hfresh : ∀ row₀ ∈ t₀.topUps.rows, row₀.status = .pending → approvalsOf t₀ row₀.id = 0) :
    ExactlyOnce c t₀ t₀ where
  known := fun _ => rfl
  settled := fun row₀ hrow _ => ⟨find?_of_mem hrow, rfl⟩
  pending := by
    intro row₀ hrow hpending
    refine ⟨row₀, find?_of_mem hrow, rfl, by simp [hpending], ?_⟩
    simpa [hpending] using hfresh row₀ hrow hpending
  quotas := by
    intro userId hwallet
    refine ⟨hwallet, ?_⟩
    have hzero : t₀.topUps.total (gain c t₀ userId) = 0 := by
      rw [total, sum_eq_zero]
      intro x hx
      obtain ⟨row, hrow, rfl⟩ := mem_map.mp hx
      have hstatus : statusOf t₀ row.id = some row.status := by
        rw [statusOf, find?_of_mem hrow]
        rfl
      rw [gain, hstatus, if_neg]
      rintro ⟨hpending, -, hsuccess⟩
      rw [hpending] at hsuccess
      cases hsuccess
    rw [hzero, add_zero]
  references := reference_unique t₀.approvals

variable {topUp : TopUp}

theorem ExactlyOnce.origin (h : ExactlyOnce c t₀ t)
    (hstored : t.topUps.find? topUp.id = some topUp) (hpending : topUp.status = .pending) :
    ∃ row₀ ∈ t₀.topUps.rows, row₀.id = topUp.id ∧ row₀.status = .pending ∧ SameOrder row₀ topUp := by
  have hsome : (t₀.topUps.find? topUp.id).isSome = true := by
    rw [← h.known, hstored]
    rfl
  obtain ⟨row₀, hrow₀⟩ := isSome_iff_exists.mp hsome
  have hid := find?_some_key hrow₀
  have hmem := find?_some_mem hrow₀
  refine ⟨row₀, hmem, hid, ?_⟩
  by_cases hfirst : row₀.status = .pending
  · obtain ⟨row, hrow, hsame, -⟩ := h.pending row₀ hmem hfirst
    rw [hid, hstored] at hrow
    cases hrow
    exact ⟨hfirst, hsame⟩
  · have hkept := (h.settled row₀ hmem hfirst).1
    rw [hid, hstored] at hkept
    cases hkept
    exact absurd hpending hfirst

variable {status : OrderStatus}

theorem find?_save_finished {now id : ℤ} : (t.topUps.save (finished topUp status now)).find? id =
      if id = topUp.id then some (finished topUp status now) else t.topUps.find? id :=
  find?_save _ _ _

variable {now : ℤ}

theorem sameOrder_finished {row₀ topUp : TopUp}
    (h : SameOrder row₀ topUp) : SameOrder row₀ (finished topUp status now) := by
  rw [h]
  rfl

theorem statusOf_save {s : PayTables} {now id : ℤ}
    (htable : s.topUps = t.topUps.save (finished topUp status now)) :
    statusOf s id = if id = topUp.id then some status else statusOf t id := by
  rw [statusOf, htable, find?_save_finished]
  split
  · rfl
  · rfl

section

variable (h : ExactlyOnce c t₀ t) (hstored : t.topUps.find? topUp.id = some topUp)
include h hstored

theorem known_save (htable : t'.topUps = t.topUps.save (finished topUp status now)) (id : ℤ) :
    (t'.topUps.find? id).isSome = (t₀.topUps.find? id).isSome := by
  rw [← h.known id, htable, find?_save_finished]
  split
  next hid =>
    rw [hid, hstored]
    rfl
  · rfl

theorem settled_save (hpending : topUp.status = .pending)
    (htable : t'.topUps = t.topUps.save (finished topUp status now))
    (hothers : ∀ id, id ≠ topUp.id → approvalsOf t' id = approvalsOf t id) :
    ∀ row₀ ∈ t₀.topUps.rows, row₀.status ≠ .pending →
      t'.topUps.find? row₀.id = some row₀ ∧ approvalsOf t' row₀.id = approvalsOf t₀ row₀.id := by
  intro row₀ hrow hsettled
  obtain ⟨hfind, happrovals⟩ := h.settled row₀ hrow hsettled
  have hne : row₀.id ≠ topUp.id := by
    intro he
    rw [he, hstored] at hfind
    cases hfind
    exact hsettled hpending
  rw [htable, find?_save_finished, if_neg hne, hothers _ hne]
  exact ⟨hfind, happrovals⟩

theorem pending_save (hpending : topUp.status = .pending) (hstatus : status ≠ .expired)
    (htable : t'.topUps = t.topUps.save (finished topUp status now))
    (hothers : ∀ id, id ≠ topUp.id → approvalsOf t' id = approvalsOf t id)
    (hself : approvalsOf t' topUp.id =
      approvalsOf t topUp.id + if status = .success then 1 else 0) :
    ∀ row₀ ∈ t₀.topUps.rows, row₀.status = .pending →
      ∃ row, t'.topUps.find? row₀.id = some row ∧ SameOrder row₀ row ∧ row.status ≠ .expired ∧
        approvalsOf t' row₀.id = if row.status = .success then 1 else 0 := by
  intro row₀ hrow hfirst
  obtain ⟨row, hfind, hsame, hexpired, happrovals⟩ := h.pending row₀ hrow hfirst
  rw [htable, find?_save_finished]
  by_cases hid : row₀.id = topUp.id
  · rw [hid, hstored] at hfind
    cases hfind
    have hnone : approvalsOf t topUp.id = 0 := by
      rw [← hid, happrovals, hpending]
      rfl
    refine ⟨finished topUp status now, if_pos hid, sameOrder_finished hsame, hstatus, ?_⟩
    rw [hid, hself, hnone, zero_add]
    rfl
  · exact ⟨row, by rw [if_neg hid, hfind], hsame, hexpired, by rw [hothers _ hid, happrovals]⟩

theorem ExactlyOnce.fail (hpending : topUp.status = .pending) :
    ExactlyOnce c t₀ (failOrder topUp now t) where
  known := known_save h hstored rfl
  settled := settled_save h hstored hpending rfl fun _ _ => rfl
  pending := pending_save h hstored hpending (by decide) rfl (fun _ _ => rfl) rfl
  quotas := by
    intro userId hwallet
    obtain ⟨hthere, hquota⟩ := h.quotas userId hwallet
    refine ⟨hthere, ?_⟩
    have hgain : gain c (failOrder topUp now t) userId = gain c t userId := by
      funext row
      have hstatus : statusOf (failOrder topUp now t) row.id = some .success ↔
          statusOf t row.id = some .success := by
        rw [statusOf_save (t := t) rfl]
        split
        next hid =>
          have hnow : statusOf t row.id = some .pending := by
            rw [statusOf, hid, hstored, map_some, hpending]
          rw [hnow]
          decide
        · rfl
      simp only [gain, hstatus]
    rw [hgain]
    exact hquota
  references := h.references

end

theorem approvalsOf_add {call : Approval} (hfits : ¬ t.approvals.Clashes (audit call topUp))
    (id : ℤ) : approvalsOf (creditOrder c call topUp t) id =
      approvalsOf t id + if id = topUp.id then 1 else 0 := by
  change ((t.approvals.add (audit call topUp)).rows).countP _ = _
  rw [Approvals.add_rows hfits, countP_append, countP_singleton]
  have hsame : (audit call topUp).topUpId = id ↔ id = topUp.id := eq_comm
  simp only [approvalsOf, decide_eq_true_eq, hsame]

theorem ExactlyOnce.credit (h : ExactlyOnce c t₀ t) {call : Approval}
    (ha : Approvable c call topUp t) : ExactlyOnce c t₀ (creditOrder c call topUp t) where
  known := known_save h ha.stored rfl
  settled := settled_save h ha.stored ha.pending rfl fun id hid => by
    rw [approvalsOf_add ha.fits, if_neg hid, add_zero]
  pending := pending_save h ha.stored ha.pending (by decide) rfl
    (fun id hid => by rw [approvalsOf_add ha.fits, if_neg hid, add_zero])
    (by rw [approvalsOf_add ha.fits, if_pos rfl]; rfl)
  quotas := by
    intro userId hwallet
    obtain ⟨hthere, hquota⟩ := h.quotas userId hwallet
    refine ⟨?_, ?_⟩
    · change ((creditWallets t.wallets _ _ _).find? userId).isSome = true
      rw [find?_creditWallets]
      simpa using hthere
    · obtain ⟨row₀, hrow, hid, hfirst, hsame⟩ := h.origin ha.stored ha.pending
      -- the sums over the orders differ in this order only
      have hchange : t₀.topUps.total (gain c (creditOrder c call topUp t) userId) =
          t₀.topUps.total (gain c t userId) - gain c t userId row₀ +
            gain c (creditOrder c call topUp t) userId row₀ := by
        apply total_change hrow
        intro row hother hne
        have hkeep : row.id ≠ topUp.id := fun he => hne (he.trans hid.symm)
        simp only [gain, statusOf_save (t := t) (s := creditOrder c call topUp t) rfl, if_neg hkeep]
      have hbefore : gain c t userId row₀ = 0 := by
        rw [gain, statusOf, hid, ha.stored, map_some, ha.pending, if_neg]
        rintro ⟨-, -, hsuccess⟩
        cases hsuccess
      have hafter : gain c (creditOrder c call topUp t) userId row₀ =
          if userId = topUp.userId then quotaToAdd c topUp else 0 := by
        have huser : row₀.userId = topUp.userId := by rw [hsame]
        have hquota : quotaToAdd c row₀ = quotaToAdd c topUp := by rw [hsame]; rfl
        rw [gain, statusOf_save (t := t) (s := creditOrder c call topUp t) rfl, if_pos hid,
          huser, hquota]
        simp [hfirst, eq_comm]
      rw [hchange, hbefore, hafter, quota_creditWallets (t := t) hthere rfl, hquota]
      omega
  references := reference_unique _

theorem ExactlyOnce.step {call : ManualCall} {outcome : Outcome} (h : ExactlyOnce c t₀ t)
    (hs : ManualStep c t t' call outcome) : ExactlyOnce c t₀ t' := by
  cases hs with
  | complete he =>
    cases he with
    | approved topUp ha => exact h.credit ha
    | already => exact h
  | reject he =>
    cases he with
    | rejected topUp hr => exact h.fail hr.stored hr.pending
    | already => exact h

def StatusesMove (t t' : PayTables) : Prop :=
  ∀ id, statusOf t' id = statusOf t id ∨ (statusOf t id = some .pending ∧
      (statusOf t' id = some .success ∨ statusOf t' id = some .failed))

theorem statusesMove_save
    (hstored : t.topUps.find? topUp.id = some topUp) (hpending : topUp.status = .pending)
    (hstatus : status = .success ∨ status = .failed)
    (htable : t'.topUps = t.topUps.save (finished topUp status now)) : StatusesMove t t' := by
  intro id
  rw [statusOf_save htable]
  split
  next hid =>
    refine .inr ⟨?_, by simpa using hstatus⟩
    rw [statusOf, hid, hstored, map_some, hpending]
  · exact .inl rfl

theorem ManualStep.statuses {call : ManualCall} {outcome : Outcome}
    (hs : ManualStep c t t' call outcome) : StatusesMove t t' := by
  cases hs with
  | complete he =>
    cases he with
    | approved topUp ha => exact statusesMove_save ha.stored ha.pending (.inl rfl) rfl
    | already => exact fun _ => .inl rfl
  | reject he =>
    cases he with
    | rejected topUp hr => exact statusesMove_save hr.stored hr.pending (.inr rfl) rfl
    | already => exact fun _ => .inl rfl

end Invariant

section Runs

variable {ι : Type} [DecidableEq ι] {c : PayConfig} {conn : ι → TxId} {calls : ι → ManualCall}
  {t₀ : PayTables} {faults : List (Option String)} {p q : PayPool Outcome ι}

abbrev ManualRun (p q : PayPool Outcome ι) : Prop :=
  Run (faultyHandle payEngine) (fun _ _ _ _ => True) (fun _ _ => False) p q

abbrev ManualMove (p q : PayPool Outcome ι) : Prop :=
  Step (faultyHandle payEngine) (fun _ _ _ _ => True) (fun _ _ => False) p q

theorem manual_sound (hconn : Function.Injective conn)
    (hrun : ManualRun (manualPool c conn calls t₀ faults) p) :
    Sound payEngine conn (fun _ _ _ _ => True) (fun _ _ => True)
      (fun i => ManualPost c (conn i) (calls i)) p := by
  refine Run.invariant _ (fun _ _ h hs => h.step hconn hs) ?_ hrun
  exact sound_start (fun i => callSafe_manual c (conn i) (calls i) _) (fun _ => trivial) faults

/-- A move changes the tables only as the last step of a call that succeeds, and then as that
call does alone on the tables it meets. -/
theorem manual_move (hconn : Function.Injective conn)
    (hrun : ManualRun (manualPool c conn calls t₀ faults) p) (hmove : ManualMove p q) :
    tables q = tables p ∨ ∃ i outcome, p.result? i = none ∧ q.result? i = some (.ok outcome) ∧
        ManualStep c (tables p) (tables q) (calls i) outcome := by
  rcases (manual_sound hconn hrun).cases hmove with ⟨hsame, -⟩ | ⟨i, a, hbefore, hafter, -, hP, -, hc⟩
  · exact .inl hsame
  · refine .inr ⟨i, a, hbefore, hafter, ?_⟩
    change ManualStep c (tables p) q.state.state.committed (calls i) a
    rw [hc]
    exact hP

theorem manual_exactlyOnce (hconn : Function.Injective conn)
    (hfresh : ∀ row₀ ∈ t₀.topUps.rows, row₀.status = .pending → approvalsOf t₀ row₀.id = 0)
    (hrun : ManualRun (manualPool c conn calls t₀ faults) p) : ExactlyOnce c t₀ (tables p) := by
  induction hrun with
  | refl => exact exactlyOnce_start hfresh
  | tail hrun hmove ih =>
    rcases manual_move hconn hrun hmove with hsame | ⟨i, a, -, -, hstep⟩
    · rwa [hsame]
    · exact ih.step hstep

structure MoveLaw (p q : PayPool Outcome ι) : Prop where
  statuses : StatusesMove (tables p) (tables q)
  errors : tables q = tables p ∨ ∃ i outcome, p.result? i = none ∧ q.result? i = some (.ok outcome)

/-- Manual orders are settled exactly once, in every interleaving of approvals and rejections
and with any statement failing. -/
theorem manual_topUps_exactly_once (hconn : Function.Injective conn)
    (hfresh : ∀ row₀ ∈ t₀.topUps.rows, row₀.status = .pending → approvalsOf t₀ row₀.id = 0)
    (hrun : ManualRun (manualPool c conn calls t₀ faults) p) :
    ExactlyOnce c t₀ (tables p) ∧ ∀ q, ManualMove p q → MoveLaw p q := by
  refine ⟨manual_exactlyOnce hconn hfresh hrun, fun q hmove => ?_⟩
  rcases manual_move hconn hrun hmove with hsame | ⟨i, a, hbefore, hafter, hstep⟩
  · exact ⟨fun id => .inl (by rw [hsame]), .inl hsame⟩
  · exact ⟨hstep.statuses, .inr ⟨i, a, hbefore, hafter⟩⟩

/-- A wallet without quota, and an order of its user that waits for approval. -/
def waitingOrder : TopUp where
  id := 1
  userId := 7
  amount := 10
  money := 10
  tradeNo := "THA7NOabcdef1700000000"
  paymentMethod := "promptpay_manual"
  paymentProvider := .promptPay
  createTime := 1700000000
  completeTime := 0
  status := .pending

def waitingTables (topUps : Table TopUp ℤ TopUp.id) (rule : Option SavedRule) : PayTables where
  wallets := ⟨[⟨7, 0, "", ""⟩], by decide⟩
  topUps := topUps
  approvals := .empty
  orders := .empty
  redemptions := .empty
  plans := .empty
  rule := rule
  sub := SubscriptionRows.plainTables .empty

def unitConfig : PayConfig := ⟨500000, fun _ => some fun _ => 0, 0⟩

def manualApproval (tradeNo : String) : Approval := ⟨tradeNo, 5, "", "", 1700000100, 1700000101⟩

def approveAndReject : Fin 2 → ManualCall
  | 0 => .complete (manualApproval waitingOrder.tradeNo)
  | 1 => .reject waitingOrder.tradeNo 1700000102

/-- An approval and a rejection that overlap: the rejection waits for the order and then finds
it approved. -/
theorem overlapping_calls_settle_once : ∃ p : PayPool Outcome (Fin 2),
      ManualRun (manualPool unitConfig Fin.val approveAndReject
        (waitingTables ⟨[waitingOrder], by decide⟩ none) []) p ∧
      p.result? 0 = some (.ok (.completed true)) ∧
      p.result? 1 = some (.error "topup status invalid") ∧ (tables p).quota 7 = 5000000 ∧
      ExactlyOnce unitConfig (waitingTables ⟨[waitingOrder], by decide⟩ none) (tables p) := by
  have hobs : ((manualPool unitConfig Fin.val approveAndReject
      (waitingTables ⟨[waitingOrder], by decide⟩ none) []).playAlone (faultyHandle payEngine)
        [1, 0, 0, 0, 0, 0, 0, 1, 1]).map
      (fun p => (p.result? 0, p.result? 1, (tables p).quota 7)) =
      some (some (.ok (.completed true)), some (.error "topup status invalid"), 5000000) := by
    decide +kernel
  obtain ⟨p, hp, hobs⟩ := map_eq_some_iff.mp hobs
  simp only [Prod.mk.injEq] at hobs
  have hrun := play_run_alone hp
  refine ⟨p, hrun, hobs.1, hobs.2.1, hobs.2.2, ?_⟩
  refine (manual_topUps_exactly_once Fin.val_injective ?_ hrun).1
  intro row _ _
  rfl

end Runs

end ManualTopUps
