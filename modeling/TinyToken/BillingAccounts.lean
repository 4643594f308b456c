import TinyToken.BillingStore

/-! Reading and changing the quota of a user and of a token, through the cache, the batch
updater or the database, as `model/user.go` and `model/token.go` do it. -/
namespace BillingAccounts

open ProgramOutcomes ReadCommittedStore SubscriptionRows BillingStore

structure Config where
  redisEnabled : Bool
  batchUpdateEnabled : Bool
  trustQuota : ℤ
  formatQuota : ℤ → String
  clock : Clock

section Statements

def cachedUser (userId : ℤ) : BillProg (Except String ℤ) := .op (.cachedUser userId) .pure

def selectUser (userId : ℤ) : BillProg (Except String (Option ℤ)) := .op (.selectUser userId) .pure

def selectUserQuota (userId : ℤ) : BillProg (Except String ℤ) :=
  .op (.selectUserQuota userId) .pure

def updateUserQuota (purpose : Purpose) (userId delta : ℤ) : BillProg (Except String Unit) :=
  .op (.updateUserQuota purpose userId delta) .pure

def batchUserQuota (userId delta : ℤ) : BillProg Unit := .op (.batchUserQuota userId delta) .pure

def cachedToken (key : String) : BillProg (Except String ℤ) := .op (.cachedToken key) .pure

def selectToken (key : String) : BillProg (Except String (Option ℤ)) := .op (.selectToken key) .pure

def updateTokenQuota (purpose : Purpose) (tokenId delta : ℤ) : BillProg (Except String Unit) :=
  .op (.updateTokenQuota purpose tokenId delta) .pure

def batchTokenQuota (tokenId delta : ℤ) : BillProg Unit :=
  .op (.batchTokenQuota tokenId delta) .pure

def cachedPlanInfo (id : ℤ) : BillProg (Option SubscriptionPlanInfo) :=
  .op (.cachedPlanInfo id) .pure

def cachePlanInfo (id : ℤ) (info : SubscriptionPlanInfo) : BillProg Unit :=
  .op (.cachePlanInfo id info) .pure

/-- `gopool.Go` of a cache update, which does nothing without Redis. -/
def spawn (cfg : Config) (task : CacheTask) : BillProg Unit :=
  if cfg.redisEnabled then .op (.go task) .pure else pure ()

def onStore (purpose : Purpose) {α : Type} : SubProg α → BillProg α
  | .pure a => .pure a
  | .op o k => .op (.store purpose o) fun r => onStore purpose (k r)
  | .diverge => .diverge

end Statements

variable (cfg : Config)

def cacheGetUserBase (userId : ℤ) : BillProg (Except String ℤ) :=
  if cfg.redisEnabled then cachedUser userId
  else pure (.error "redis is not enabled")

def getUserById (id : ℤ) : BillProg (Except String ℤ) :=
  if id = 0 then pure (.error "id 为空！")
  else do
    match ← selectUser id with
    | .error e => pure (.error e)
    | .ok none => pure (.error "record not found")
    | .ok (some quota) => pure (.ok quota)

def getUserCache (userId : ℤ) : BillProg (Except String ℤ) := do
  match ← cacheGetUserBase cfg userId with
  | .ok quota => pure (.ok quota)
  | .error _ =>
    match ← getUserById userId with
    | .error e => pure (.error e)
    | .ok quota =>
      spawn cfg (.setUser userId quota)
      pure (.ok quota)

def getUserQuotaFromDb (id : ℤ) : BillProg (Except String ℤ) := do
  match ← selectUserQuota id with
  | .error e => pure (.error e)
  | .ok quota =>
    spawn cfg (.setUserQuota id quota)
    pure (.ok quota)

def getUserQuota (id : ℤ) (fromDB : Bool) : BillProg (Except String ℤ) :=
  if fromDB = false ∧ cfg.redisEnabled then do
    match ← getUserCache cfg id with
    | .ok quota => pure (.ok quota)
    | .error _ => getUserQuotaFromDb cfg id
  else getUserQuotaFromDb cfg id

variable (purpose : Purpose)

def changeUserQuota (id delta : ℤ) (db : Bool) :
    BillProg (Except String Unit) := do
  spawn cfg (.incrUser id delta)
  if db = false ∧ cfg.batchUpdateEnabled then
    batchUserQuota id delta
    pure (.ok ())
  else updateUserQuota purpose id delta

def increaseUserQuota (id quota : ℤ) (db : Bool) :
    BillProg (Except String Unit) :=
  if quota < 0 then pure (.error "quota 不能为负数！")
  else changeUserQuota cfg purpose id quota db

def decreaseUserQuota (id quota : ℤ) (db : Bool) :
    BillProg (Except String Unit) :=
  if quota < 0 then pure (.error "quota 不能为负数！")
  else changeUserQuota cfg purpose id (-quota) db

def getTokenFromDb (key : String) : BillProg (Except String ℤ) := do
  match ← selectToken key with
  | .error e => pure (.error e)
  | .ok none => pure (.error "record not found")
  | .ok (some remain) =>
    spawn cfg (.setToken key remain)
    pure (.ok remain)

def getTokenByKey (key : String) (fromDB : Bool) : BillProg (Except String ℤ) :=
  if fromDB = false ∧ cfg.redisEnabled then do
    match ← cachedToken key with
    | .ok remain => pure (.ok remain)
    | .error _ => getTokenFromDb cfg key
  else getTokenFromDb cfg key

def changeTokenQuota (tokenId : ℤ) (key : String) (delta : ℤ) :
    BillProg (Except String Unit) := do
  spawn cfg (.incrToken key delta)
  if cfg.batchUpdateEnabled then
    batchTokenQuota tokenId delta
    pure (.ok ())
  else updateTokenQuota purpose tokenId delta

def increaseTokenQuota (tokenId : ℤ) (key : String) (quota : ℤ) :
    BillProg (Except String Unit) :=
  if quota < 0 then pure (.error "quota 不能为负数！")
  else changeTokenQuota cfg purpose tokenId key quota

def decreaseTokenQuota (tokenId : ℤ) (key : String) (quota : ℤ) :
    BillProg (Except String Unit) :=
  if quota < 0 then pure (.error "quota 不能为负数！")
  else changeTokenQuota cfg purpose tokenId key (-quota)

/-- A change of the ledger that is made, or has failed and left everything alone. -/
def Changes (fails : Prop) (a b : Ledger) (r : Except String Unit) (a' : Ledger) : Prop :=
  (r = .ok () ∧ a' = b) ∨ (fails ∧ (∃ e, r = .error e) ∧ a' = a)

section Effects

variable {fails : Purpose → Prop} {cfg : Config} {a : Ledger}

theorem always_spawn {task : CacheTask} {Q : Unit → Ledger → Prop} (h : Q () a) :
    always (effects fails) (spawn cfg task) Q a := by
  unfold spawn
  split
  · rintro r a' rfl
    exact h
  · exact h

theorem always_onStore {purpose : Purpose} {α : Type} {p : SubProg α} {Q : α → Ledger → Prop}
    (h : always (faultEffects (handle engine) onFault fun _ => fails purpose) p
      (fun r db => Q r { a with subs := db }) a.subs) :
    always (effects fails) (onStore purpose p) Q a := by
  induction p generalizing a with
  | pure r => exact h
  | op o k ih =>
    rintro r a' ⟨db, rfl, hr⟩
    exact ih r (h r db hr)
  | diverge => trivial

variable (purpose : Purpose) (id : ℤ) (tokenId : ℤ) (key : String) {quota : ℤ}

theorem always_changeUserQuota (id delta : ℤ) (db : Bool) :
    always (effects fails) (changeUserQuota cfg purpose id delta db)
      (Changes (fails purpose) a (a.addWallet id delta)) a := by
  refine always_bind.mpr (always_spawn ?_)
  split
  · rintro r a' rfl
    exact .inl ⟨rfl, rfl⟩
  · exact fun r a' h => h

theorem always_increaseUserQuota (h : 0 ≤ quota) (db : Bool) :
    always (effects fails) (increaseUserQuota cfg purpose id quota db)
      (Changes (fails purpose) a (a.addWallet id quota)) a := by
  unfold increaseUserQuota
  rw [if_neg (by omega)]
  exact always_changeUserQuota purpose id quota db

theorem always_decreaseUserQuota (h : 0 ≤ quota) (db : Bool) :
    always (effects fails) (decreaseUserQuota cfg purpose id quota db)
      (Changes (fails purpose) a (a.addWallet id (-quota))) a := by
  unfold decreaseUserQuota
  rw [if_neg (by omega)]
  exact always_changeUserQuota purpose id (-quota) db

theorem always_changeTokenQuota (delta : ℤ) :
    always (effects fails) (changeTokenQuota cfg purpose tokenId key delta)
      (Changes (fails purpose) a (a.addToken tokenId delta)) a := by
  refine always_bind.mpr (always_spawn ?_)
  split
  · rintro r a' rfl
    exact .inl ⟨rfl, rfl⟩
  · exact fun r a' h => h

theorem always_increaseTokenQuota (h : 0 ≤ quota) :
    always (effects fails) (increaseTokenQuota cfg purpose tokenId key quota)
      (Changes (fails purpose) a (a.addToken tokenId quota)) a := by
  unfold increaseTokenQuota
  rw [if_neg (by omega)]
  exact always_changeTokenQuota purpose tokenId key quota

theorem always_decreaseTokenQuota (h : 0 ≤ quota) :
    always (effects fails) (decreaseTokenQuota cfg purpose tokenId key quota)
      (Changes (fails purpose) a (a.addToken tokenId (-quota))) a := by
  unfold decreaseTokenQuota
  rw [if_neg (by omega)]
  exact always_changeTokenQuota purpose tokenId key (-quota)

def Reads {α : Type} (fails : Purpose → Prop) (p : BillProg α) : Prop :=
  ∀ a, always (effects fails) p (fun _ a' => a' = a) a

theorem reads_getUserById : Reads fails (getUserById id) := by
  intro a
  unfold getUserById
  split
  · rfl
  · rintro r a' rfl
    rcases r with e | _ | q <;> rfl

theorem reads_cacheGetUserBase (cfg : Config) (id : ℤ) : Reads fails (cacheGetUserBase cfg id) := by
  intro a
  unfold cacheGetUserBase
  split
  · rintro r a' rfl
    rfl
  · rfl

theorem reads_getUserCache (cfg : Config) (id : ℤ) : Reads fails (getUserCache cfg id) := by
  intro a
  refine always_bind.mpr (always_mono (reads_cacheGetUserBase cfg id a) ?_)
  rintro (e | q) a' rfl
  · refine always_bind.mpr (always_mono (reads_getUserById id a') ?_)
    rintro (e | q) a'' rfl
    · rfl
    · exact always_bind.mpr (always_spawn rfl)
  · rfl

theorem reads_getUserQuotaFromDb (cfg : Config) (id : ℤ) :
    Reads fails (getUserQuotaFromDb cfg id) := by
  intro a
  apply always_bind.mpr
  rintro (e | q) a' rfl
  · rfl
  · exact always_bind.mpr (always_spawn rfl)

theorem reads_getUserQuota (cfg : Config) (id : ℤ) (fromDB : Bool) :
    Reads fails (getUserQuota cfg id fromDB) := by
  intro a
  unfold getUserQuota
  split
  · refine always_bind.mpr (always_mono (reads_getUserCache cfg id a) ?_)
    rintro (e | q) a' rfl
    · exact reads_getUserQuotaFromDb cfg id a'
    · rfl
  · exact reads_getUserQuotaFromDb cfg id a

theorem reads_getTokenFromDb (cfg : Config) (key : String) :
    Reads fails (getTokenFromDb cfg key) := by
  intro a
  apply always_bind.mpr
  rintro (e | _ | q) a' rfl
  · rfl
  · rfl
  · exact always_bind.mpr (always_spawn rfl)

theorem reads_getTokenByKey (cfg : Config) (key : String) (fromDB : Bool) :
    Reads fails (getTokenByKey cfg key fromDB) := by
  intro a
  unfold getTokenByKey
  split
  · rintro r a' rfl
    rcases r with e | q
    · exact reads_getTokenFromDb cfg key a'
    · rfl
  · exact reads_getTokenFromDb cfg key a

end Effects

end BillingAccounts
