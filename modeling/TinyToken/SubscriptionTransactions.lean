import TinyToken.SubscriptionRows

/-! The subscription transactions of `model/subscription.go`, statement by statement.
A function that opens a transaction takes the connection it runs on; the refund opens
a second transaction on a connection of its own. -/
namespace SubscriptionTransactions

open GoText ReadCommittedStore SubscriptionRows

structure SubscriptionPreConsumeResult where
  userSubscriptionId : ℤ
  preConsumed : ℤ
  amountTotal : ℤ
  amountUsedBefore : ℤ
  amountUsedAfter : ℤ
  deriving DecidableEq

variable (c : Clock) (tx : TxId)

def getSubscriptionPlanByIdTx (id : ℤ) : SubProg (Except String SubscriptionPlan) :=
  if id ≤ 0 then pure (.error "invalid plan id")
  else do
    match ← selectPlan tx id with
    | .error e => pure (.error e)
    | .ok none => pure (.error "record not found")
    | .ok (some plan) => pure (.ok plan)

variable (call : PreConsumeCall) (sub : UserSubscription) (plan : SubscriptionPlan)

/-- `tx.Save(sub)`, after which the caller goes on with the saved row. -/
def saveReset : SubProg (Except String UserSubscription) := do
  match ← saveSub tx sub with
  | .error e => pure (.error e)
  | .ok _ => pure (.ok sub)

def maybeResetUserSubscriptionWithPlanTx (now : ℤ) : SubProg (Except String UserSubscription) :=
  match maybeReset c sub plan now with
  | none => .diverge
  | some .keep => pure (.ok sub)
  | some (.schedule sub') | some (.reset sub') => saveReset tx sub'

/-- The arguments of one `PreConsumeUserSubscription` call and the time it reads. -/
structure PreConsumeCall where
  requestId : String
  userId : ℤ
  amount : ℤ
  now : ℤ

def PreConsumeCall.record :
    SubscriptionPreConsumeRecord where
  requestId := call.requestId
  userId := call.userId
  userSubscriptionId := sub.id
  preConsumed := call.amount
  status := .consumed

/-- The body of the candidate loop once a candidate has room for the amount. -/
def chargeCandidate :
    SubProg (Except String SubscriptionPreConsumeResult) := do
  match ← createRecord tx (call.record sub) with
  | .error err =>
    match ← selectRecord tx call.requestId with
    | .ok (some dup) =>
      if dup.status = .refunded then pure (.error "subscription pre-consume already refunded")
      -- the candidate at hand, not the subscription named by the record
      else pure (.ok ⟨sub.id, dup.preConsumed, sub.amountTotal, sub.amountUsed, sub.amountUsed⟩)
    | _ => pure (.error err)
  | .ok _ =>
    match ← saveSub tx { sub with amountUsed := sub.amountUsed + call.amount } with
    | .error e => pure (.error e)
    | .ok _ =>
      pure (.ok ⟨sub.id, call.amount, sub.amountTotal, sub.amountUsed,
        sub.amountUsed + call.amount⟩)

def tryCandidates (c : Clock) (tx : TxId) (call : PreConsumeCall) :
    List UserSubscription → SubProg (Except String SubscriptionPreConsumeResult)
  | [] => pure (.error s!"subscription quota insufficient, need={call.amount}")
  | candidate :: rest => do
    match ← getSubscriptionPlanByIdTx tx candidate.planId with
    | .error e => pure (.error e)
    | .ok plan =>
      match ← maybeResetUserSubscriptionWithPlanTx c tx candidate plan call.now with
      | .error e => pure (.error e)
      | .ok sub =>
        if sub.amountTotal > 0 ∧ sub.amountTotal - sub.amountUsed < call.amount then
          tryCandidates c tx call rest
        else chargeCandidate tx call sub

def preConsumeBody :
    SubProg (Except String SubscriptionPreConsumeResult) := do
  match ← selectRecord tx call.requestId with
  | .error e => pure (.error e)
  | .ok (some existing) =>
    if existing.status = .refunded then pure (.error "subscription pre-consume already refunded")
    else
      match ← selectSub tx existing.userSubscriptionId with
      | .error e => pure (.error e)
      | .ok none => pure (.error "record not found")
      | .ok (some sub) =>
        pure (.ok ⟨sub.id, existing.preConsumed, sub.amountTotal, sub.amountUsed, sub.amountUsed⟩)
  | .ok none =>
    match ← selectActiveSubs tx call.userId call.now with
    | .error _ => pure (.error "no active subscription")
    | .ok [] => pure (.error "no active subscription")
    | .ok subs => tryCandidates c tx call subs

def preConsumeUserSubscription :
    SubProg (Except String SubscriptionPreConsumeResult) :=
  if call.userId ≤ 0 then pure (.error "invalid userId")
  else if trimSpace call.requestId = "" then pure (.error "requestId is empty")
  else if call.amount ≤ 0 then pure (.error "amount must be > 0")
  else transaction tx (preConsumeBody c tx call)

def clampUsed (used delta : ℤ) : ℤ := if used + delta < 0 then 0 else used + delta

def postConsumeBody (userSubscriptionId delta : ℤ) : SubProg (Except String Unit) := do
  match ← selectSub tx userSubscriptionId with
  | .error e => pure (.error e)
  | .ok none => pure (.error "record not found")
  | .ok (some sub) =>
    let newUsed := clampUsed sub.amountUsed delta
    if sub.amountTotal > 0 ∧ newUsed > sub.amountTotal then
      pure (.error
        s!"subscription used exceeds total, used={newUsed} total={sub.amountTotal}")
    else saveSub tx { sub with amountUsed := newUsed }

def postConsumeUserSubscriptionDelta (userSubscriptionId delta : ℤ) :
    SubProg (Except String Unit) :=
  if userSubscriptionId ≤ 0 then pure (.error "invalid userSubscriptionId")
  else if delta = 0 then pure (.ok ())
  else transaction tx (postConsumeBody tx userSubscriptionId delta)

/-- The counter is adjusted in a transaction of its own on the connection `inner`. -/
def refundBody (tx inner : TxId) (requestId : String) : SubProg (Except String Unit) := do
  match ← selectRecord tx requestId with
  | .error e => pure (.error e)
  | .ok none => pure (.error "record not found")
  | .ok (some record) =>
    if record.status = .refunded then pure (.ok ())
    else if record.preConsumed ≤ 0 then
      saveRecord tx { record with status := .refunded }
    else
      match ← postConsumeUserSubscriptionDelta inner record.userSubscriptionId
        (-record.preConsumed) with
      | .error e => pure (.error e)
      | .ok _ => saveRecord tx { record with status := .refunded }

def refundSubscriptionPreConsume (tx inner : TxId) (requestId : String) :
    SubProg (Except String Unit) :=
  if trimSpace requestId = "" then pure (.error "requestId is empty")
  else transaction tx (refundBody tx inner requestId)

/-- `refundWithRetry` around the refund of one request: at most `attempts` calls, up to
the first one that returns nil. -/
def refundWithRetry (tx inner : TxId) (requestId : String) (lastErr : Except String Unit) :
    ℕ → SubProg (Except String Unit)
  | 0 => pure lastErr
  | attempts + 1 => do
    match ← refundSubscriptionPreConsume tx inner requestId with
    | .ok _ => pure (.ok ())
    | .error e => refundWithRetry tx inner requestId (.error e) attempts

def maxAttempts : ℕ := 3

/-- The closure of one reset; a subscription that is no longer due, or cannot be read, is
skipped without an error. The first answer tells whether the reset has been counted. -/
def resetBody (id now : ℤ) : SubProg (Bool × Except String Unit) := do
  match ← selectDueReset tx id now with
  | .error _ => pure (false, .ok ())
  | .ok none => pure (false, .ok ())
  | .ok (some locked) =>
    match ← maybeResetUserSubscriptionWithPlanTx c tx locked plan now with
    | .error e => pure (false, .error e)
    | .ok _ => pure (true, .ok ())

/-- The transaction around one reset. The count grows inside the closure, so it stays
when the commit fails. -/
def resetSubscription (id now : ℤ) :
    SubProg (Bool × Except String Unit) := do
  match ← start tx with
  | .error e => pure (false, .error e)
  | .ok _ =>
    let (counted, r) ← resetBody c tx plan id now
    let err ← conclude tx r
    pure (counted, err)

def resetSubscriptions (c : Clock) (tx : TxId) (now : ℤ) (resetCount : ℕ) :
    List UserSubscription → SubProg (ℕ × Except String Unit)
  | [] => pure (resetCount, .ok ())
  | sub :: subs => do
    match ← getSubscriptionPlanByIdTx tx sub.planId with
    | .error _ => resetSubscriptions c tx now resetCount subs
    | .ok plan =>
      match ← resetSubscription c tx plan sub.id now with
      | (counted, .error e) => pure (resetCount + counted.toNat, .error e)
      | (counted, .ok _) => resetSubscriptions c tx now (resetCount + counted.toNat) subs

def resetDueSubscriptions (limit : ℤ) (now : ℤ) : SubProg (ℕ × Except String Unit) := do
  match ← selectDueResets tx now (if limit ≤ 0 then 200 else limit.toNat) with
  | .error e => pure (0, .error e)
  | .ok subs => resetSubscriptions c tx now 0 subs

end SubscriptionTransactions
