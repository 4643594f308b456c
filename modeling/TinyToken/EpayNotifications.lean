import TinyToken.ManualTopUps

/-! Notifications of the Epay gateway and the completion of the same order by an admin. Both
take the order's lock, which lives in the process. A notification writes the status and the
quota in two separate calls of the database, each of which may fail; the process may stop
after any call and is then started again without its locks. -/
namespace EpayNotifications

open ProgramSteps InterleavedPrograms LockingStore LockingPools KeyedTable PaymentStore
  PromptPayRule ManualTopUps Option Table
open ReadCommittedStore (TxId Db)

variable (c : PayConfig) (tx : TxId)

variable (tradeNo : String) (info : VerifyInfo)

def getTopUpByTradeNo : PayProg (Option TopUp) := do
  match ← selectTopUp tx tradeNo with
  | .error _ => pure none
  | .ok found => pure found

def updateBody (row : TopUp) : PayProg (Except String Unit) := do
  match ← saveTopUp tx row with
  | .error e => pure (.error e)
  | .ok _ => pure (.ok ())

/-- The method `Update` of an order. -/
def updateTopUp (row : TopUp) : PayProg (Except String Unit) :=
  transaction tx (updateBody tx row)

def increaseBody (userId quota : ℤ) : PayProg (Except String Unit) := do
  match ← addQuota tx userId quota .none with
  | .error e => pure (.error e)
  | .ok _ => pure (.ok ())

def increaseUserQuota (userId quota : ℤ) : PayProg (Except String Unit) :=
  if quota < 0 then pure (.error "quota 不能为负数！")
  else transaction tx (increaseBody tx userId quota)

inductive DbCall where
  | findOrder (tradeNo : String)
  | update (row : TopUp)
  | increase (userId quota : ℤ)
  | complete (call : Approval)

def DbAnswer : DbCall → Type
  | .findOrder _ => Option TopUp
  | .update _ => Except String Unit
  | .increase _ _ => Except String Unit
  | .complete _ => Except String Bool

def DbCall.program : (d : DbCall) → PayProg (DbAnswer d)
  | .findOrder tradeNo => getTopUpByTradeNo tx tradeNo
  | .update row => updateTopUp tx row
  | .increase userId quota => increaseUserQuota tx userId quota
  | .complete call => completeManualTopUp c tx call

inductive NotifyOp where
  | lockOrder (tx : TxId) (tradeNo : String)
  | unlockOrder (tradeNo : String)
  | database (tx : TxId) (d : DbCall)

def NotifyRes : NotifyOp → Type
  | .lockOrder _ _ => Unit
  | .unlockOrder _ => Unit
  | .database _ d => DbAnswer d

abbrev NotifyProg := Prog NotifyOp NotifyRes

def lockOrder : NotifyProg Unit :=
  Prog.perform (NotifyOp.lockOrder tx tradeNo)

def unlockOrder : NotifyProg Unit :=
  Prog.perform (NotifyOp.unlockOrder tradeNo)

def database (d : DbCall) : NotifyProg (DbAnswer d) :=
  Prog.perform (NotifyOp.database tx d)

structure VerifyInfo where
  serviceTradeNo : String
  type : String
  tradeSuccess : Bool

/-- A request as the handler meets it; `verified` is empty where the signature does not hold. -/
structure EpayCallback where
  webhookEnabled : Bool
  formParsed : Bool
  hasParams : Bool
  clientReady : Bool
  verified : Option VerifyInfo

/-- The method of payment the gateway reports replaces the one that was ordered. -/
def paidOrder (topUp : TopUp) : TopUp :=
  { topUp with
    paymentMethod := if topUp.paymentMethod ≠ info.type then info.type else topUp.paymentMethod
    status := .success }

def payOrder (topUp : TopUp) : NotifyProg Unit :=
  do
    match ← database tx (.update (paidOrder info topUp)) with
    | .error _ => pure ()
    | .ok _ =>
      let _ ← database tx (.increase topUp.userId (intPart (topUp.amount * c.quotaPerUnit)))
      pure ()

def settleFound : Option TopUp → NotifyProg Unit
  | none => pure ()
  | some topUp =>
    if topUp.paymentProvider ≠ .epay then pure ()
    else if topUp.status = .pending then payOrder c tx info topUp
    else pure ()

def settleNotified : NotifyProg Unit := do
  let found ← database tx (.findOrder info.serviceTradeNo)
  settleFound c tx info found

inductive Reply where
  | text (body : String)
  | completed (r : Except String Bool)

def epayNotify (request : EpayCallback) : NotifyProg Reply :=
  if request.webhookEnabled = false ∨ request.formParsed = false ∨ request.hasParams = false ∨
      request.clientReady = false then pure (.text "fail")
  else
    match request.verified with
    | none => pure (.text "fail")
    | some info =>
      if info.tradeSuccess = false then pure (.text "success")
      else do
        lockOrder tx info.serviceTradeNo
        settleNotified c tx info
        unlockOrder info.serviceTradeNo
        pure (.text "success")

def adminApproval (sampledAt completedAt : ℤ) : Approval :=
  ⟨tradeNo, 0, "", "", sampledAt, completedAt⟩

def adminCompleteTopUp (sampledAt completedAt : ℤ) : NotifyProg Reply :=
  if tradeNo = "" then pure (.completed (.error "参数错误"))
  else do
    lockOrder tx tradeNo
    let r ← database tx (.complete (adminApproval tradeNo sampledAt completedAt))
    unlockOrder tradeNo
    pure (.completed r)

/-- The database with the faults to come, and the process with its locks. `halfway` is a history
variable: a notification has written the status and not yet the quota. -/
structure World where
  tables : PayTables
  faults : List (Option String)
  locks : String → Option TxId
  process : ℕ
  halfway : Bool

def DbCall.halfway : (d : DbCall) → DbAnswer d → Bool → Bool
  | .update _, .ok _, _ => true
  | .increase _ _, .ok _, _ => false
  | _, _, before => before

/-- A call of the database is one step: a single statement, or a transaction that commits or
leaves nothing. -/
def callDatabase (d : DbCall) (w : World) : Option (DbAnswer d × World) :=
  (run (faultyHandle payEngine) (d.program c tx) ⟨Db.idle w.tables, w.faults⟩).map fun q =>
    (q.1, { w with
      tables := q.2.state.committed
      faults := q.2.faults
      halfway := d.halfway q.1 w.halfway })

def setLock (holder : Option TxId) (w : World) : World :=
  { w with locks := Function.update w.locks tradeNo holder }

def handleNotify : Handler NotifyOp NotifyRes World
  | .lockOrder tx tradeNo, w =>
    if (w.locks tradeNo).isSome then none else some ((), setLock tradeNo (some tx) w)
  | .unlockOrder tradeNo, w => some ((), setLock tradeNo none w)
  | .database tx d, w => callDatabase c tx d w

def restarted (w : World) : World :=
  { w with locks := fun _ => none, process := w.process + 1 }

inductive NotifyCall where
  | notify (request : EpayCallback)
  | complete (sampledAt completedAt : ℤ)

def NotifyCall.program (tx : TxId) : NotifyCall → NotifyProg Reply
  | .notify request => epayNotify c tx request
  | .complete sampledAt completedAt => adminCompleteTopUp tx tradeNo sampledAt completedAt

def NotifyCall.About : NotifyCall → Prop
  | .notify request => ∀ info ∈ request.verified, info.serviceTradeNo = tradeNo
  | .complete _ _ => True

section Effects

variable {c : PayConfig} {tx : TxId} {w u : World}

theorem callDatabase_alone {d : DbCall} {r : DbAnswer d} {R : PayTables → DbAnswer d → PayTables → Prop}
    (h : Alone payEngine tx R (d.program c tx)) (hcall : callDatabase c tx d w = some (r, u)) :
    R w.tables r u.tables := by
  obtain ⟨⟨a, s⟩, hrun, hq⟩ := map_eq_some_iff.mp hcall
  cases hq
  exact (h ⟨Db.idle w.tables, w.faults⟩ rfl a s hrun).2

theorem callDatabase_frame {d : DbCall} {r : DbAnswer d} (hcall : callDatabase c tx d w = some (r, u)) :
    u.locks = w.locks ∧ u.process = w.process ∧ u.halfway = d.halfway r w.halfway := by
  obtain ⟨⟨a, s⟩, -, hq⟩ := map_eq_some_iff.mp hcall
  cases hq
  exact ⟨rfl, rfl, rfl⟩

theorem find_effect {tradeNo : String} {found : Option TopUp}
    (hcall : callDatabase c tx (.findOrder tradeNo) w = some (found, u)) :
    u.tables = w.tables ∧ ∀ row, found = some row → w.tables.topUpByTradeNo tradeNo = some row := by
  have halone : Alone payEngine tx (fun t (r : Option TopUp) t' => t' = t ∧
      ∀ row, r = some row → t.topUpByTradeNo tradeNo = some row) (getTopUpByTradeNo tx tradeNo) := ?_
  · exact callDatabase_alone (d := .findOrder tradeNo) halone hcall
  intro s hs
  change wp _ (selectTopUp tx tradeNo >>= _) _ _
  rw [wp_bind]
  refine wp_perform.mpr ?_
  intro r v hv
  rcases exec_outcomes hv with ⟨x, rfl, hst, -⟩ | ⟨b, vs, rfl, hexec, hst⟩
  · exact wp_pure.mpr ⟨by rw [hst]; exact hs, by rw [hst], nofun⟩
  · have hseen : seen payEngine s.state tx = s.state.committed := by rw [seen_of_own hs]; rfl
    rw [hseen] at hexec
    cases hexec
    refine wp_pure.mpr ⟨?_, by rw [hst]; rfl, fun row h => h⟩
    rw [hst, own_addAll_self, hs]
    rfl

theorem callSafe_update {row : TopUp} :
    CallSafe payEngine tx (fun _ _ _ => True) (fun _ => True) (fun _ => True)
      (fun (_ : Unit) _ db => seen payEngine db tx =
        { db.committed with topUps := db.committed.topUps.save row }) (updateTopUp tx row) := by
  apply callSafe_transaction atFault_true guards_true
  refine body_write atFault_true guards_true (fun _ => rfl) (fun _ => body_fail) ?_
  apply body_ok guards_true
  rintro past db ⟨hown, -, -⟩
  rw [seen_of_own hown]
  rfl

variable {r : Except String Unit}

theorem update_effect {row : TopUp} (hcall : callDatabase c tx (.update row) w = some (r, u)) :
    (∀ e, r = .error e → u.tables = w.tables) ∧
      (r = .ok () → u.tables = { w.tables with topUps := w.tables.topUps.save row }) := by
  have hne : ∀ a : Unit, updateTopUp tx row ≠ .pure (.ok a) := nofun
  obtain ⟨herror, hok⟩ := callDatabase_alone (alone_call hne callSafe_update) hcall
  refine ⟨herror, fun h => ?_⟩
  obtain ⟨past, db, hdb, hP, hu⟩ := hok () h
  rw [hu, hP, hdb]

theorem callSafe_increase {userId quota : ℤ} :
    CallSafe payEngine tx (fun _ _ _ => True) (fun _ => True) (fun _ => True)
      (fun (_ : Unit) _ db => Moved userId quota db.committed (seen payEngine db tx) ∧
        (seen payEngine db tx).topUps = db.committed.topUps)
      (increaseUserQuota tx userId quota) := by
  unfold increaseUserQuota
  split
  · exact callSafe_fail
  apply callSafe_transaction atFault_true guards_true
  refine body_credit atFault_true guards_true (fun _ => body_fail) ?_
  intro affected there
  apply body_ok (guards_true.and guards_wallet)
  rintro past db ⟨hown, ⟨-, hthere⟩, -⟩
  rw [seen_of_own hown]
  refine ⟨moved_creditWrites .none hthere rfl, ?_⟩
  cases there <;> rfl

theorem increase_effect {userId quota : ℤ}
    (hcall : callDatabase c tx (.increase userId quota) w = some (r, u)) :
    (∀ e, r = .error e → u.tables = w.tables) ∧
      (r = .ok () → Moved userId quota w.tables u.tables ∧ u.tables.topUps = w.tables.topUps) := by
  have hne : ∀ a : Unit, increaseUserQuota tx userId quota ≠ .pure (.ok a) := by
    intro a h
    unfold increaseUserQuota at h
    split at h <;> cases h
  obtain ⟨herror, hok⟩ := callDatabase_alone (alone_call hne callSafe_increase) hcall
  refine ⟨herror, fun h => ?_⟩
  obtain ⟨past, db, hdb, hP, hu⟩ := hok () h
  rw [hu, ← hdb]
  exact hP

theorem complete_effect {call : Approval} {r : Except String Bool}
    (hcall : callDatabase c tx (.complete call) w = some (r, u)) :
    (∀ e, r = .error e → u.tables = w.tables) ∧
      ∀ approved, r = .ok approved → CompleteEffect c call w.tables approved u.tables := by
  obtain ⟨herror, hok⟩ := callDatabase_alone
    (alone_call (completeManualTopUp_ne c tx call) callSafe_complete) hcall
  refine ⟨herror, fun approved h => ?_⟩
  obtain ⟨past, db, hdb, hP, hu⟩ := hok approved h
  rw [hu, ← hdb]
  exact hP

def NoFault (n : ℕ) (faults : List (Option String)) : Prop := ∀ i < n, faults.getD i none = none

instance (n : ℕ) (faults : List (Option String)) : Decidable (NoFault n faults) :=
  inferInstanceAs (Decidable (∀ i < n, faults.getD i none = none))

theorem increase_ok {userId quota : ℤ} (hquota : 0 ≤ quota) (hfaults : NoFault 3 w.faults)
    (hcall : callDatabase c tx (.increase userId quota) w = some (r, u)) : r = .ok () := by
  obtain ⟨⟨a, s⟩, hrun, hq⟩ := map_eq_some_iff.mp hcall
  obtain rfl : a = r := congrArg Prod.fst hq
  have hpos : ¬ quota < 0 := not_lt.mpr hquota
  change run _ (increaseUserQuota tx userId quota) _ = _ at hrun
  rw [increaseUserQuota, if_neg hpos] at hrun
  refine (?_ : wp _ _ (fun r _ => r = .ok ()) _) a s hrun
  refine wp_fallible rfl (fun e he => ?_) fun _ r₁ db₁ h₁ => ?_
  · have := hfaults 0 (by omega)
    rw [Faulty.next, Faulty.nth, this] at he
    cases he
  cases h₁
  refine wp_fallible rfl (fun e he => ?_) fun _ r₂ db₂ h₂ => ?_
  · have := hfaults 1 (by omega)
    rw [Faulty.next, Faulty.after_nth, Faulty.nth, this] at he
    cases he
  obtain ⟨n, rfl⟩ : ∃ n : ℕ, r₂ = .ok n := by
    cases r₂ with
    | ok n => exact ⟨n, rfl⟩
    | error e =>
      simp only [handle] at h₂
      split at h₂
      next x hexec =>
        exact absurd hexec (execute_ne_error rfl _ x)
      · split at h₂ <;> cases h₂
  refine wp_fallible rfl (fun e he => ?_) fun _ r₃ db₃ h₃ => ?_
  · have := hfaults 2 (by omega)
    rw [Faulty.next, Faulty.after_nth, Faulty.after_nth, Faulty.nth, this] at he
    cases he
  cases h₃
  exact wp_pure.mpr rfl

end Effects

def SameSale (a b : TopUp) : Prop :=
  b = { a with status := b.status, completeTime := b.completeTime, paymentMethod := b.paymentMethod }

/-- The order stands in the tables as `row`, and its user has gained so much. -/
structure OrderAt (t₀ : PayTables) (order row : TopUp) (gain : ℤ) (t : PayTables) : Prop where
  same : SameSale order row
  stored : t.topUps = t₀.topUps.save row
  quota : t.quota order.userId = t₀.quota order.userId + gain
  wallet : (t.wallets.find? order.userId).isSome = true

/-- The order is pending and has brought nothing, or it is paid and has brought its amount
once. -/
def Settled (t₀ : PayTables) (order : TopUp) (t : PayTables) : Prop :=
  ∃ row, (row.status = .pending ∧ OrderAt t₀ order row 0 t) ∨
    (row.status = .success ∧ OrderAt t₀ order row (quotaToAdd c order) t)

def Marked (t₀ : PayTables) (order : TopUp) (t : PayTables) : Prop :=
  ∃ row, row.status = .success ∧ OrderAt t₀ order row 0 t

structure Waiting (t₀ : PayTables) (order : TopUp) : Prop where
  stored : t₀.topUps.find? order.id = some order
  pending : order.status = .pending
  unique : ∀ row ∈ t₀.topUps.rows, row.tradeNo = order.tradeNo → row.id = order.id
  wallet : (t₀.wallets.find? order.userId).isSome = true

section Orders

variable {c : PayConfig} {t₀ t t' : PayTables} {order row : TopUp} {gain : ℤ}

theorem Waiting.settled (h : Waiting t₀ order) : Settled c t₀ order t₀ :=
  ⟨order, .inl ⟨h.pending, rfl, (save_of_mem h.stored).symm, (add_zero _).symm, h.wallet⟩⟩

theorem SameSale.id (h : SameSale order row) : row.id = order.id := by rw [h]

theorem SameSale.quotaToAdd (h : SameSale order row) : quotaToAdd c row = quotaToAdd c order := by
  rw [h]
  rfl

theorem OrderAt.current (hw : Waiting t₀ order) (h : OrderAt t₀ order row gain t) {x : TopUp}
    (hstored : t.topUps.find? x.id = some x) (htrade : x.tradeNo = order.tradeNo) : x = row := by
  rw [h.stored, find?_save] at hstored
  by_cases hid : x.id = row.id
  · rw [if_pos hid] at hstored
    exact (some.inj hstored).symm
  · rw [if_neg hid] at hstored
    exact absurd ((hw.unique x (find?_some_mem hstored) htrade).trans h.same.id.symm) hid

theorem OrderAt.found (hw : Waiting t₀ order) (h : OrderAt t₀ order row gain t) {x : TopUp}
    (hfound : t.topUpByTradeNo order.tradeNo = some x) : x = row :=
  h.current hw (find?_topUpByTradeNo hfound).1 (find?_topUpByTradeNo hfound).2

theorem OrderAt.write (hw : Waiting t₀ order) (h : OrderAt t₀ order row gain t) {new : TopUp}
    (hnew : SameSale row new) (htopUps : t'.topUps = t.topUps.save new)
    (hwallets : t'.wallets = t.wallets) : OrderAt t₀ order new gain t' where
  same := by
    unfold SameSale at *
    rw [hnew, h.same]
  stored := by
    rw [htopUps, h.stored]
    refine save_save (u := order) ?_ hnew.id
    rw [h.same.id]
    exact hw.stored
  quota := by
    rw [PayTables.quota, hwallets]
    exact h.quota
  wallet := by
    rw [hwallets]
    exact h.wallet

theorem OrderAt.credit (h : OrderAt t₀ order row gain t) {more : ℤ}
    (hmoved : Moved order.userId more t t') (htopUps : t'.topUps = t.topUps) :
    OrderAt t₀ order row (gain + more) t' where
  same := h.same
  stored := htopUps.trans h.stored
  quota := by
    rw [hmoved.quotas _ h.wallet, h.quota, if_pos rfl, add_assoc]
  wallet := (hmoved.wallets _).trans h.wallet

theorem Settled.quota_of_success (h : Settled c t₀ order t)
    (hstatus : statusOf t order.id = some .success) :
    t.quota order.userId = t₀.quota order.userId + quotaToAdd c order := by
  rcases h with ⟨row, ⟨hpending, hat⟩ | ⟨-, hat⟩⟩
  · rw [statusOf, hat.stored, find?_save, if_pos hat.same.id.symm, map_some,
      hpending] at hstatus
    cases hstatus
  · exact hat.quota

theorem Settled.complete (hw : Waiting t₀ order) (h : Settled c t₀ order t) {call : Approval}
    (hcall : call.tradeNo = order.tradeNo) {approved : Bool}
    (he : CompleteEffect c call t approved t') : Settled c t₀ order t' := by
  cases he with
  | already _ => exact h
  | approved topUp ha =>
    rcases h with ⟨row, ⟨hstatus, hat⟩ | ⟨hstatus, hat⟩⟩
    · obtain rfl := hat.current hw ha.stored (ha.tradeNo.trans hcall)
      have hwritten : OrderAt t₀ order (finished topUp .success call.completedAt) 0
          { t with topUps := t.topUps.save (finished topUp .success call.completedAt) } :=
        hat.write hw rfl rfl rfl
      have huser : topUp.userId = order.userId := by rw [hat.same]
      have hmoved : Moved order.userId (quotaToAdd c order)
          { t with topUps := t.topUps.save (finished topUp .success call.completedAt) }
          (creditOrder c call topUp t) := by
        rw [← huser, ← hat.same.quotaToAdd]
        exact ⟨fun u hu => quota_creditWallets hu rfl, fun u => by
          change ((creditWallets t.wallets _ _ _).find? u).isSome = _
          rw [find?_creditWallets, isSome_map]⟩
      have hcredited := hwritten.credit hmoved rfl
      rw [zero_add] at hcredited
      exact ⟨_, .inr ⟨rfl, hcredited⟩⟩
    · -- the order is paid, and a completion meets it pending
      obtain rfl := hat.current hw ha.stored (ha.tradeNo.trans hcall)
      rw [ha.pending] at hstatus
      cases hstatus

end Orders

section Contracts

variable (c : PayConfig) (t₀ : PayTables) (order : TopUp) (tx : TxId) (process : ℕ)

/-- Between the two writes of a notification the order is marked and locked; otherwise it is
settled. -/
structure Sane (w : World) : Prop where
  free : w.locks order.tradeNo = none → w.halfway = false
  settled : w.halfway = false → Settled c t₀ order w.tables
  marked : w.halfway = true → Marked t₀ order w.tables

/-- What the others may do: nothing to the order while this handler has it locked, unless the
process has stopped. -/
structure LeftAlone (s t : World) : Prop where
  later : s.process ≤ t.process
  sane : Sane c t₀ order s → Sane c t₀ order t
  locked : s.process = process → t.process = process → s.locks order.tradeNo = some tx →
    t.locks order.tradeNo = some tx ∧ t.tables = s.tables ∧ t.halfway = s.halfway

/-- A step of a handler: it keeps the order sane and leaves it alone while another has it
locked. -/
structure Behaves (s t : World) : Prop where
  process : t.process = s.process
  sane : Sane c t₀ order s → Sane c t₀ order t
  locked : ∀ other, other ≠ tx → s.locks order.tradeNo = some other →
    t.locks order.tradeNo = some other ∧ t.tables = s.tables ∧ t.halfway = s.halfway

/-- A handler runs in its own process, and its update of the quota does not fail. -/
def allowed (process : ℕ) : NotifyOp → World → Bool
  | .database _ (.increase _ _), w => decide (w.process = process ∧ NoFault 3 w.faults)
  | _, w => decide (w.process = process)

def handlerContract : Contract NotifyOp NotifyRes Reply World where
  ok := fun _ o w => allowed process o w = true
  rely := LeftAlone c t₀ order tx process
  guar := fun _ e u _ => Behaves c t₀ order tx e.met u
  rely_refl := fun _ => ⟨le_refl _, id, fun _ _ h => ⟨h, rfl, rfl⟩⟩
  rely_trans := by
    intro s t u hst htu
    refine ⟨hst.later.trans htu.later, fun h => htu.sane (hst.sane h), fun hs hu hlock => ?_⟩
    have ht : t.process = process := by
      have h₁ := hst.later
      have h₂ := htu.later
      omega
    obtain ⟨hlock', htables, hhalf⟩ := hst.locked hs ht hlock
    obtain ⟨hlock'', htables', hhalf'⟩ := htu.locked ht hu hlock'
    exact ⟨hlock'', htables'.trans htables, hhalf'.trans hhalf⟩

end Contracts

section Handlers

variable {c : PayConfig} {t₀ : PayTables} {order : TopUp} {tx : TxId} {process : ℕ}
  {past : List (Seen NotifyOp NotifyRes World)} {s t : World}

/-- The handler has the order locked, and the order is as `A` says. -/
structure Locked (c : PayConfig) (t₀ : PayTables) (order : TopUp) (tx : TxId) (process : ℕ)
    (A : PayTables → Bool → Prop) (w : World) : Prop where
  process : w.process = process
  locked : w.locks order.tradeNo = some tx
  sane : Sane c t₀ order w
  holds : A w.tables w.halfway

variable {A : PayTables → Bool → Prop}

theorem Locked.stable (h : Locked c t₀ order tx process A s)
    (hr : LeftAlone c t₀ order tx process s t) (hprocess : t.process = process) :
    Locked c t₀ order tx process A t := by
  obtain ⟨hlock, htables, hhalf⟩ := hr.locked h.process hprocess h.locked
  exact ⟨hprocess, hlock, hr.sane h.sane, by rw [htables, hhalf]; exact h.holds⟩

theorem process_of_allowed {o : NotifyOp} (h : allowed process o s = true) :
    s.process = process := by
  unfold allowed at h
  split at h
  · exact (of_decide_eq_true h).1
  · exact of_decide_eq_true h

theorem Locked.behaves (h : Locked c t₀ order tx process A s)
    (hprocess : t.process = s.process) (hsane : Sane c t₀ order t) :
    Behaves c t₀ order tx s t := by
  refine ⟨hprocess, fun _ => hsane, fun other hne hlock => ?_⟩
  rw [h.locked] at hlock
  exact absurd (some.inj hlock).symm hne

abbrev HandlerSafe (c : PayConfig) (t₀ : PayTables) (order : TopUp) (tx : TxId) (process : ℕ) :=
  Safe (α := Reply) (handleNotify c) (handlerContract c t₀ order tx process) fun _ _ _ => True

theorem safe_database {d : DbCall} {k : DbAnswer d → NotifyProg Reply}
    (hs : Locked c t₀ order tx process A s) (hstep : ∀ w r u, Locked c t₀ order tx process A w →
      allowed process (.database tx d) w = true → callDatabase c tx d w = some (r, u) → ∃ B : PayTables → Bool → Prop,
        Sane c t₀ order u ∧ B u.tables u.halfway ∧
        ∀ past v, Locked c t₀ order tx process B v →
          HandlerSafe c t₀ order tx process (k r) past v) :
    HandlerSafe c t₀ order tx process (database tx d >>= k) past s := by
  intro t ht hok r u hu
  have hlocked := hs.stable ht (process_of_allowed hok)
  obtain ⟨B, hsane, hB, hk⟩ := hstep t r u hlocked hok hu
  obtain ⟨hlocks, hprocess, -⟩ := callDatabase_frame hu
  refine ⟨hlocked.behaves hprocess hsane, hk _ u ⟨hprocess.trans hlocked.process, ?_, hsane, hB⟩⟩
  rw [hlocks]
  exact hlocked.locked

theorem setLock_self (tradeNo : String) (holder : Option TxId) (w : World) :
    (setLock tradeNo holder w).locks tradeNo = holder := by
  simp [setLock]

theorem safe_lock {k : Unit → NotifyProg Reply} (hs : Sane c t₀ order s)
    (hk : ∀ past v, Locked c t₀ order tx process (fun _ halfway => halfway = false) v →
      HandlerSafe c t₀ order tx process (k ()) past v) :
    HandlerSafe c t₀ order tx process (lockOrder tx order.tradeNo >>= k) past s := by
  intro t ht hok r u hu
  have hsane := ht.sane hs
  have hprocess : t.process = process := process_of_allowed hok
  change (if (t.locks order.tradeNo).isSome then none else
    some ((), setLock order.tradeNo (some tx) t)) = some (r, u) at hu
  by_cases hlock : (t.locks order.tradeNo).isSome
  · rw [if_pos hlock] at hu
    cases hu
  rw [if_neg hlock] at hu
  cases hu
  have hfree : t.locks order.tradeNo = none := not_isSome_iff_eq_none.mp hlock
  have hsane' : Sane c t₀ order (setLock order.tradeNo (some tx) t) := by
    refine ⟨fun h => ?_, hsane.settled, hsane.marked⟩
    rw [setLock_self] at h
    cases h
  refine ⟨⟨rfl, fun _ => hsane', fun other _ h => ?_⟩, hk _ _ ⟨hprocess, setLock_self _ _ _, hsane', ?_⟩⟩
  · rw [hfree] at h
    cases h
  · exact hsane.free hfree

theorem safe_unlock {reply : Reply}
    (hs : Locked c t₀ order tx process (fun _ halfway => halfway = false) s) :
    HandlerSafe c t₀ order tx process
      (unlockOrder order.tradeNo >>= fun _ => pure reply) past s := by
  intro t ht hok r u hu
  have hlocked := hs.stable ht (process_of_allowed hok)
  cases hu
  refine ⟨hlocked.behaves rfl ⟨fun _ => hlocked.holds, hlocked.sane.settled, hlocked.sane.marked⟩, ?_⟩
  exact fun _ _ => trivial

section

variable (hw : Waiting t₀ order)
include hw

theorem safe_adminCompleteTopUp {sampledAt completedAt : ℤ} (hs : Sane c t₀ order s) :
    HandlerSafe c t₀ order tx process
      (adminCompleteTopUp tx order.tradeNo sampledAt completedAt) past s := by
  unfold adminCompleteTopUp
  split
  · exact fun t ht => trivial
  refine safe_lock hs fun past v hv => ?_
  refine safe_database hv fun w r u hlocked hok hu => ?_
  obtain ⟨-, -, hhalf⟩ := callDatabase_frame hu
  obtain ⟨herror, hdone⟩ := complete_effect hu
  have hbefore := hlocked.sane.settled hlocked.holds
  have hidle : u.halfway = false := by
    cases r <;> exact hhalf.trans hlocked.holds
  have hafter : Settled c t₀ order u.tables := by
    cases r with
    | error e =>
      rw [herror e rfl]
      exact hbefore
    | ok approved => exact hbefore.complete hw rfl (hdone approved rfl)
  refine ⟨fun _ halfway => halfway = false, ⟨fun _ => hidle, fun _ => hafter, fun h => ?_⟩, hidle,
    fun past v hv => safe_unlock hv⟩
  rw [hidle] at h
  cases h

section

variable (hquota : 0 ≤ quotaToAdd c order)
include hquota

theorem safe_payOrder {info : VerifyInfo} {topUp : TopUp} {reply : Reply}
    (hepay : topUp.paymentProvider = .epay) (hs : Locked c t₀ order tx process
      (fun t halfway => halfway = false ∧ OrderAt t₀ order topUp 0 t) s) :
    HandlerSafe c t₀ order tx process
      (payOrder c tx info topUp >>= fun _ => unlockOrder order.tradeNo >>= fun _ => pure reply)
      past s := by
  refine safe_database hs fun w r u hlocked hok hu => ?_
  obtain ⟨-, -, hhalf⟩ := callDatabase_frame hu
  obtain ⟨herror, hdone⟩ := update_effect hu
  cases r with
  | error e =>
    have hkept := herror e rfl
    have hhalf' : u.halfway = false := hhalf.trans hlocked.holds.1
    refine ⟨fun _ halfway => halfway = false, ?_, hhalf', fun past v hv => safe_unlock hv⟩
    refine ⟨fun _ => hhalf', fun _ => ?_, fun h => ?_⟩
    · rw [hkept]
      exact hlocked.sane.settled hlocked.holds.1
    · rw [hhalf'] at h
      cases h
  | ok _ =>
    have htables := hdone rfl
    have hpaid : OrderAt t₀ order (paidOrder info topUp) 0 u.tables :=
      hlocked.holds.2.write hw rfl (by rw [htables]) (by rw [htables])
    refine ⟨fun t halfway => halfway = true ∧ OrderAt t₀ order (paidOrder info topUp) 0 t, ?_,
      ⟨hhalf, hpaid⟩, fun past v hv => ?_⟩
    · refine ⟨fun hfree => ?_, fun h => ?_, fun _ => ⟨_, rfl, hpaid⟩⟩
      · obtain ⟨hlocks, -, -⟩ := callDatabase_frame hu
        rw [hlocks, hlocked.locked] at hfree
        cases hfree
      · rw [hhalf] at h
        cases h
    refine safe_database hv fun w' r' u' hlocked' hok' hu' => ?_
    have huser : topUp.userId = order.userId := by rw [hlocked.holds.2.same]
    have hadd : intPart (topUp.amount * c.quotaPerUnit) = quotaToAdd c order := by
      rw [← hlocked.holds.2.same.quotaToAdd, ManualTopUps.quotaToAdd, if_neg (by rw [hepay]; decide)]
    rw [huser, hadd] at hu'
    obtain rfl := increase_ok hquota (of_decide_eq_true hok').2 hu'
    obtain ⟨-, -, hhalf'⟩ := callDatabase_frame hu'
    obtain ⟨hmoved, htopUps⟩ := (increase_effect hu').2 rfl
    have hcredited := hlocked'.holds.2.credit hmoved htopUps
    rw [zero_add] at hcredited
    refine ⟨fun _ halfway => halfway = false, ?_, hhalf', fun past v hv => safe_unlock hv⟩
    refine ⟨fun _ => hhalf', fun _ => ⟨_, .inr ⟨rfl, hcredited⟩⟩, fun h => ?_⟩
    rw [hhalf'] at h
    cases h

theorem safe_settleNotified {info : VerifyInfo} {reply : Reply}
    (htrade : info.serviceTradeNo = order.tradeNo)
    (hs : Locked c t₀ order tx process (fun _ halfway => halfway = false) s) :
    HandlerSafe c t₀ order tx process
      (settleNotified c tx info >>= fun _ => unlockOrder order.tradeNo >>= fun _ => pure reply)
      past s := by
  change Safe _ _ _ (database tx (.findOrder info.serviceTradeNo) >>= fun found =>
    settleFound c tx info found >>= fun _ => unlockOrder order.tradeNo >>= fun _ => pure reply) _ _
  refine safe_database hs fun w found u hlocked hok hu => ?_
  obtain ⟨hlocks, -, hhalf⟩ := callDatabase_frame hu
  obtain ⟨hkept, hfound⟩ := find_effect hu
  have hhalf' : u.halfway = w.halfway := hhalf
  have hsane : Sane c t₀ order u := by
    obtain ⟨h₁, h₂, h₃⟩ := hlocked.sane
    exact ⟨by rw [hlocks, hhalf']; exact h₁, by rw [hkept, hhalf']; exact h₂,
      by rw [hkept, hhalf']; exact h₃⟩
  have hnothing : ∀ past v, Locked c t₀ order tx process (fun _ halfway => halfway = false) v →
      HandlerSafe c t₀ order tx process
        (unlockOrder order.tradeNo >>= fun _ => pure reply) past v :=
    fun past v hv => safe_unlock hv
  have hidle : u.halfway = false := hhalf'.trans hlocked.holds
  cases found with
  | none => exact ⟨_, hsane, hidle, hnothing⟩
  | some topUp =>
    by_cases hprovider : topUp.paymentProvider ≠ .epay
    · simp only [settleFound, if_pos hprovider]
      exact ⟨_, hsane, hidle, hnothing⟩
    by_cases hpending : topUp.status = .pending
    · simp only [settleFound, if_neg hprovider, if_pos hpending]
      have hrow := hfound topUp rfl
      rw [htrade] at hrow
      have hat : OrderAt t₀ order topUp 0 u.tables := by
        rw [hkept]
        rcases hlocked.sane.settled hlocked.holds with ⟨row, ⟨-, hat⟩ | ⟨hstatus, hat⟩⟩
        · obtain rfl := hat.found hw hrow
          exact hat
        · obtain rfl := hat.found hw hrow
          rw [hpending] at hstatus
          cases hstatus
      exact ⟨fun t halfway => halfway = false ∧ OrderAt t₀ order topUp 0 t, hsane, ⟨hidle, hat⟩,
        fun past v hv => safe_payOrder hw hquota (not_not.mp hprovider) hv⟩
    · simp only [settleFound, if_neg hprovider, if_neg hpending]
      exact ⟨_, hsane, hidle, hnothing⟩

theorem safe_epayNotify {request : EpayCallback}
    (habout : ∀ info ∈ request.verified, info.serviceTradeNo = order.tradeNo)
    (hs : Sane c t₀ order s) :
    HandlerSafe c t₀ order tx process (epayNotify c tx request) past s := by
  have hreply : ∀ reply, HandlerSafe c t₀ order tx process (pure reply) past s := fun reply t ht => trivial
  unfold epayNotify
  split
  · exact hreply _
  split
  · exact hreply _
  rename_i info hverified
  split
  · exact hreply _
  have htrade := habout info hverified
  rw [htrade]
  exact safe_lock hs fun past v hv => safe_settleNotified hw hquota htrade hv

theorem safe_program {call : NotifyCall} (habout : call.About order.tradeNo)
    (hs : Sane c t₀ order s) :
    HandlerSafe c t₀ order tx process (call.program c order.tradeNo tx) past s := by
  cases call with
  | notify request => exact safe_epayNotify hw hquota habout hs
  | complete _ _ => exact safe_adminCompleteTopUp hw hs

end

end

theorem leftAlone_restarted (hidle : s.halfway = false) :
    LeftAlone c t₀ order tx process s (restarted s) := by
  refine ⟨Nat.le_succ _, fun h => ⟨fun _ => hidle, h.settled, h.marked⟩, fun hs ht _ => ?_⟩
  change s.process + 1 = process at ht
  omega

end Handlers

section Runs

variable {ι : Type} {c : PayConfig} {t₀ : PayTables} {order : TopUp}
  {tx : ι → TxId} {process : ι → ℕ} {call : ι → NotifyCall} {faults : List (Option String)}

abbrev NotifyPool (ι : Type) := Pool NotifyOp NotifyRes Reply World ι

def notifyPool (c : PayConfig) (tradeNo : String) (tx : ι → TxId) (call : ι → NotifyCall)
    (t₀ : PayTables) (faults : List (Option String)) : NotifyPool ι :=
  Pool.start ⟨t₀, faults, fun _ => none, 0, false⟩ fun i => (call i).program c tradeNo (tx i)

structure Guarded (c : PayConfig) (t₀ : PayTables) (order : TopUp) (tx : ι → TxId)
    (process : ι → ℕ) (p : NotifyPool ι) : Prop where
  safe : AllSafe (handleNotify c) (fun i => handlerContract c t₀ order (tx i) (process i))
    (fun _ _ _ _ => True) p
  sane : Sane c t₀ order p.state

theorem guarded_start (hw : Waiting t₀ order) (hquota : 0 ≤ quotaToAdd c order)
    (habout : ∀ i, (call i).About order.tradeNo) :
    Guarded c t₀ order tx process (notifyPool c order.tradeNo tx call t₀ faults) := by
  have hsane : Sane c t₀ order (notifyPool c order.tradeNo tx call t₀ faults).state :=
    ⟨fun _ => rfl, fun _ => hw.settled, nofun⟩
  exact ⟨fun i => safe_program hw hquota (habout i) hsane, hsane⟩

theorem Behaves.leftAlone {i j : ι} (htx : Function.Injective tx) (hne : i ≠ j) {s t : World}
    (h : Behaves c t₀ order (tx j) s t) : LeftAlone c t₀ order (tx i) (process i) s t :=
  ⟨h.process.ge, h.sane, fun _ _ hlock => h.locked (tx i) (fun e => hne (htx e)) hlock⟩

variable [DecidableEq ι]

def NotifyRun (c : PayConfig) (process : ι → ℕ) : NotifyPool ι → NotifyPool ι → Prop :=
  Run (handleNotify c) (fun i _ _ w => w.process = process i) fun s t => t = restarted s

/-- The quota is written whenever the status has been, and the process does not stop between
the two. -/
def PairedRun (c : PayConfig) (process : ι → ℕ) : NotifyPool ι → NotifyPool ι → Prop :=
  Run (handleNotify c) (fun i _ o w => allowed (process i) o w = true)
    fun s t => s.halfway = false ∧ t = restarted s

theorem Guarded.step (htx : Function.Injective tx) {p q : NotifyPool ι}
    (hp : Guarded c t₀ order tx process p)
    (hs : Step (handleNotify c) (fun i _ o w => allowed (process i) o w = true)
      (fun s t => s.halfway = false ∧ t = restarted s) p q) :
    Guarded c t₀ order tx process q := by
  refine ⟨hp.safe.step (fun _ => True) (fun i j hne _ e t _ _ hg => ?_) (fun i s t he => ?_)
    trivial hs, ?_⟩
  · exact Behaves.leftAlone htx hne hg
  · obtain ⟨hidle, rfl⟩ := he
    exact leftAlone_restarted hidle
  cases hs with
  | thread i hk hok hr => exact (hp.safe.guarantee hk hok hr).sane hp.sane
  | env he =>
    obtain ⟨hidle, rfl⟩ := he
    exact (@leftAlone_restarted c t₀ order 0 0 _ hidle).sane hp.sane

theorem PairedRun.sane (hw : Waiting t₀ order) (hquota : 0 ≤ quotaToAdd c order)
    (htx : Function.Injective tx) (habout : ∀ i, (call i).About order.tradeNo) {p : NotifyPool ι}
    (hrun : PairedRun c process (notifyPool c order.tradeNo tx call t₀ faults) p) :
    Sane c t₀ order p.state := by
  have hguarded : Guarded c t₀ order tx process p :=
    Run.invariant _ (fun _ _ hp hs => hp.step htx hs) (guarded_start hw hquota habout) hrun
  exact hguarded.sane

/-- However deliveries and completions of one order interleave, whichever other statements fail
and however often the process is started again: outside the two writes of a delivery, and so
whenever its lock is free, the order is paid exactly when its amount has been credited once. -/
theorem deliveries_settle_when_paired (hw : Waiting t₀ order) (hquota : 0 ≤ quotaToAdd c order)
    (htx : Function.Injective tx) (habout : ∀ i, (call i).About order.tradeNo) {p : NotifyPool ι}
    (hrun : PairedRun c process (notifyPool c order.tradeNo tx call t₀ faults) p) :
    (p.state.locks order.tradeNo = none → p.state.halfway = false) ∧
      (p.state.halfway = false → Settled c t₀ order p.state.tables) := by
  have hsane := hrun.sane hw hquota htx habout
  exact ⟨hsane.free, hsane.settled⟩

def epayOrder : TopUp :=
  { waitingOrder with tradeNo := "USR7NOabcdef1700000000", paymentMethod := "alipay", paymentProvider := .epay }

def epayTables : PayTables := waitingTables ⟨[epayOrder], by decide⟩ none

def paidCallback : EpayCallback := ⟨true, true, true, true, some ⟨epayOrder.tradeNo, "wxpay", true⟩⟩

def epayCalls : Fin 3 → NotifyCall
  | 0 => .notify paidCallback
  | 1 => .notify paidCallback
  | 2 => .complete 1700000100 1700000101

def firstThen (later : ℕ) : Fin 3 → ℕ
  | 0 => 0
  | _ => later

theorem epayOrder_waiting : Waiting epayTables epayOrder := ⟨by decide, by decide, by decide, by decide⟩

theorem epayCalls_about : ∀ i, (epayCalls i).About epayOrder.tradeNo := by
  have hpaid : ∀ info ∈ paidCallback.verified, info.serviceTradeNo = epayOrder.tradeNo := by
    rintro info ⟨⟩
    rfl
  intro i
  match i with
  | 0 => exact hpaid
  | 1 => exact hpaid
  | 2 => trivial

/-- The first delivery writes both, the process is started again, and the other calls find the
order paid. -/
theorem redelivery_after_restart_credits_once : ∃ p : NotifyPool (Fin 3),
      PairedRun unitConfig (firstThen 1)
        (notifyPool unitConfig epayOrder.tradeNo Fin.val epayCalls epayTables []) p ∧
      p.state.locks epayOrder.tradeNo = none ∧ statusOf p.state.tables 1 = some .success ∧
      p.state.tables.quota 7 = 5000000 ∧ Settled unitConfig epayTables epayOrder p.state.tables := by
  have hobs : ((notifyPool unitConfig epayOrder.tradeNo Fin.val epayCalls epayTables []).play
      (handleNotify unitConfig) (fun (_ : Unit) w => if w.halfway then none else some (restarted w))
      [.inl 0, .inl 0, .inl 0, .inl 0, .inl 0, .inr (), .inl 1, .inl 1, .inl 1, .inl 2, .inl 2,
        .inl 2]).map (fun p => decide (p.state.locks epayOrder.tradeNo = none ∧
          statusOf p.state.tables 1 = some .success ∧ p.state.tables.quota 7 = 5000000 ∧
          ∀ i, permitted (fun _ => allowed (firstThen 1 i)) [] (p.past i) = true)) = some true := by
    decide +kernel
  obtain ⟨p, hp, hobs⟩ := map_eq_some_iff.mp hobs
  obtain ⟨hfree, hstatus, hcredit, hpermitted⟩ := of_decide_eq_true hobs
  have hrun : PairedRun unitConfig (firstThen 1)
      (notifyPool unitConfig epayOrder.tradeNo Fin.val epayCalls epayTables []) p := by
    refine ((play_run hp).of_permitted hpermitted).mono (fun _ _ _ _ h => h) fun s t he => ?_
    obtain ⟨-, he⟩ := he
    cases hhalf : s.halfway with
    | true => simp [hhalf] at he
    | false =>
      rw [hhalf] at he
      exact ⟨rfl, (some.inj he).symm⟩
  have hsettled := deliveries_settle_when_paired epayOrder_waiting (by decide +kernel) Fin.val_injective
    epayCalls_about hrun
  exact ⟨p, hrun, hfree, hstatus, hcredit, hsettled.2 (hsettled.1 hfree)⟩

theorem lost_of_play {faults : List (Option String)} {later : ℕ} (moves : List (Fin 3 ⊕ Unit))
    (hobs : ((notifyPool unitConfig epayOrder.tradeNo Fin.val epayCalls epayTables faults).play
      (handleNotify unitConfig) (fun _ w => some (restarted w)) moves).map (fun p =>
        decide (p.state.locks epayOrder.tradeNo = none ∧
          statusOf p.state.tables 1 = some .success ∧ p.state.tables.quota 7 = 0 ∧
          ∀ i, permitted (fun _ _ w => w.process == firstThen later i) [] (p.past i) = true)) =
      some true) :
    ∃ p, NotifyRun unitConfig (firstThen later)
        (notifyPool unitConfig epayOrder.tradeNo Fin.val epayCalls epayTables faults) p ∧
      p.state.locks epayOrder.tradeNo = none ∧ statusOf p.state.tables 1 = some .success ∧
      p.state.tables.quota 7 = 0 ∧ ¬ Settled unitConfig epayTables epayOrder p.state.tables := by
  obtain ⟨p, hp, hobs⟩ := map_eq_some_iff.mp hobs
  obtain ⟨hfree, hstatus, hquota, hpermitted⟩ := of_decide_eq_true hobs
  refine ⟨p, ?_, hfree, hstatus, hquota, fun hsettled => ?_⟩
  · refine ((play_run hp).of_permitted hpermitted).mono (fun _ _ _ _ h => beq_iff_eq.mp h)
      fun s t he => ?_
    obtain ⟨-, he⟩ := he
    exact (some.inj he).symm
  · have hcredit := hsettled.quota_of_success hstatus
    rw [show epayOrder.userId = 7 from rfl, hquota] at hcredit
    exact absurd hcredit (by decide +kernel)

/-- The update of the quota fails, or the process stops before it: the order is paid, its lock
is free, and neither the next delivery nor the admin brings the credit back. -/
theorem interrupted_delivery_loses_credit : (∃ p : NotifyPool (Fin 3),
      NotifyRun unitConfig (firstThen 0) (notifyPool unitConfig epayOrder.tradeNo Fin.val epayCalls
        epayTables [none, none, none, none, none, some "database is locked"]) p ∧
      p.state.locks epayOrder.tradeNo = none ∧ statusOf p.state.tables 1 = some .success ∧
      p.state.tables.quota 7 = 0 ∧ ¬ Settled unitConfig epayTables epayOrder p.state.tables) ∧
    ∃ p : NotifyPool (Fin 3), NotifyRun unitConfig (firstThen 1)
        (notifyPool unitConfig epayOrder.tradeNo Fin.val epayCalls epayTables []) p ∧
      p.state.locks epayOrder.tradeNo = none ∧ statusOf p.state.tables 1 = some .success ∧
      p.state.tables.quota 7 = 0 ∧ ¬ Settled unitConfig epayTables epayOrder p.state.tables := by
  constructor
  · exact lost_of_play ([0, 0, 0, 0, 0, 1, 1, 1, 2, 2, 2].map Sum.inl) (by decide +kernel)
  · exact lost_of_play [.inl 0, .inl 0, .inl 0, .inr (), .inl 1, .inl 1, .inl 1, .inl 2, .inl 2,
      .inl 2] (by decide +kernel)

end Runs

end EpayNotifications
