import TinyToken.ProgramOutcomes
import TinyToken.SubscriptionTransactions

/-! The stores behind a billing session: the quota columns of users and tokens, the batch
updater that collects their changes in memory, the cached copies in Redis with the
updates handed to goroutines, and the subscription tables. -/
namespace BillingStore

open ProgramSteps ProgramOutcomes ReadCommittedStore KeyedTable SubscriptionRows
  Option Function Table

inductive Purpose where
  | ordinary | undo

inductive CacheTask where
  /-- `HINCRBY` of the quota, if the hash is there -/
  | incrUser (userId delta : ℤ)
  /-- `HSET` of the whole hash, which creates it -/
  | setUser (userId quota : ℤ)
  /-- `HSET` of the quota, if the hash is there -/
  | setUserQuota (userId quota : ℤ)
  | incrToken (key : String) (delta : ℤ)
  | setToken (key : String) (remainQuota : ℤ)

structure SubscriptionPlanInfo where
  planId : ℤ
  planTitle : String

inductive BillOp where
  | cachedUser (userId : ℤ)
  | selectUser (userId : ℤ)
  | selectUserQuota (userId : ℤ)
  | updateUserQuota (purpose : Purpose) (userId delta : ℤ)
  | batchUserQuota (userId delta : ℤ)
  | cachedToken (key : String)
  | selectToken (key : String)
  | selectTokenById (tokenId : ℤ)
  | updateTokenQuota (purpose : Purpose) (tokenId delta : ℤ)
  | batchTokenQuota (tokenId delta : ℤ)
  | go (task : CacheTask)
  | cachedPlanInfo (userSubscriptionId : ℤ)
  | cachePlanInfo (userSubscriptionId : ℤ) (info : SubscriptionPlanInfo)
  | store (purpose : Purpose) (o : TxOp SubQuery SubWrite)

def BillRes : BillOp → Type
  | .cachedUser _ => Except String ℤ
  | .selectUser _ => Except String (Option ℤ)
  | .selectUserQuota _ => Except String ℤ
  | .updateUserQuota _ _ _ => Except String Unit
  | .batchUserQuota _ _ => Unit
  | .cachedToken _ => Except String ℤ
  | .selectToken _ => Except String (Option ℤ)
  | .selectTokenById _ => Except String (Option (String × ℤ))
  | .updateTokenQuota _ _ _ => Except String Unit
  | .batchTokenQuota _ _ => Unit
  | .go _ => Unit
  | .cachedPlanInfo _ => Option SubscriptionPlanInfo
  | .cachePlanInfo _ _ => Unit
  | .store _ o => TxRes SubAnswer o

abbrev BillProg := Prog BillOp BillRes

structure TokenRow where
  id : ℤ
  key : String
  remainQuota : ℤ
  usedQuota : ℤ

structure World where
  userQuota : ℤ → Option ℤ
  userBatch : ℤ → ℤ
  userFlush : ℤ → ℤ
  userCache : ℤ → Option ℤ
  tokens : Table TokenRow ℤ TokenRow.id
  tokenBatch : ℤ → ℤ
  tokenFlush : ℤ → ℤ
  tokenCache : String → Option ℤ
  planInfo : ℤ → Option SubscriptionPlanInfo
  tasks : List CacheTask
  subs : SubDb

def bump (f : ℤ → ℤ) (id delta : ℤ) : ℤ → ℤ := update f id (f id + delta)

def TokenRow.add (row : TokenRow) (delta : ℤ) : TokenRow :=
  { row with remainQuota := row.remainQuota + delta, usedQuota := row.usedQuota - delta }

def World.addUserQuota (w : World) (userId delta : ℤ) : World :=
  { w with userQuota := update w.userQuota userId ((w.userQuota userId).map (· + delta)) }

def addTo (tokenId delta : ℤ) (row : TokenRow) : TokenRow :=
  if row.id = tokenId then row.add delta else row

theorem addTo_id (tokenId delta : ℤ) (row : TokenRow) : (addTo tokenId delta row).id = row.id := by
  unfold addTo
  split <;> rfl

def World.addTokenQuota (w : World) (tokenId delta : ℤ) : World :=
  { w with tokens := w.tokens.modify (addTo tokenId delta) (addTo_id tokenId delta) }

def handleBill : Handler BillOp BillRes World
  | .cachedUser userId, w =>
    some (match w.userCache userId with | some quota => .ok quota | none => .error "redis: nil", w)
  | .selectUser userId, w => some (.ok (w.userQuota userId), w)
  | .selectUserQuota userId, w => some (.ok ((w.userQuota userId).getD 0), w)
  | .updateUserQuota _ userId delta, w => some (.ok (), w.addUserQuota userId delta)
  | .batchUserQuota userId delta, w => some ((), { w with userBatch := bump w.userBatch userId delta })
  | .cachedToken key, w =>
    some (match w.tokenCache key with | some remain => .ok remain | none => .error "redis: nil", w)
  | .selectToken key, w =>
    some (.ok ((w.tokens.rows.find? fun row => row.key = key).map TokenRow.remainQuota), w)
  | .selectTokenById tokenId, w =>
    some (.ok ((w.tokens.find? tokenId).map fun row => (row.key, row.remainQuota)), w)
  | .updateTokenQuota _ tokenId delta, w => some (.ok (), w.addTokenQuota tokenId delta)
  | .batchTokenQuota tokenId delta, w =>
    some ((), { w with tokenBatch := bump w.tokenBatch tokenId delta })
  | .go task, w => some ((), { w with tasks := w.tasks ++ [task] })
  | .cachedPlanInfo id, w => some (w.planInfo id, w)
  | .cachePlanInfo id info, w =>
    some ((), { w with planInfo := update w.planInfo id (some info) })
  | .store _ o, w => (handle engine o w.subs).map fun p => (p.1, { w with subs := p.2 })

/-- Reads and writes of the stores may fail, but not the writes that undo a change. The
updates handed to the batch updater and to goroutines do not report. -/
def billFault : (o : BillOp) → Option (String → World → BillRes o × World)
  | .cachedUser _ => some fun e w => (.error e, w)
  | .selectUser _ => some fun e w => (.error e, w)
  | .selectUserQuota _ => some fun e w => (.error e, w)
  | .updateUserQuota .ordinary _ _ => some fun e w => (.error e, w)
  | .updateUserQuota .undo _ _ => none
  | .batchUserQuota _ _ => none
  | .cachedToken _ => some fun e w => (.error e, w)
  | .selectToken _ => some fun e w => (.error e, w)
  | .selectTokenById _ => some fun e w => (.error e, w)
  | .updateTokenQuota .ordinary _ _ => some fun e w => (.error e, w)
  | .updateTokenQuota .undo _ _ => none
  | .batchTokenQuota _ _ => none
  | .go _ => none
  | .cachedPlanInfo _ => some fun _ w => (none, w)
  | .cachePlanInfo _ _ => none
  | .store .ordinary o =>
    (onFault o).map fun fail e w => ((fail e w.subs).1, { w with subs := (fail e w.subs).2 })
  | .store .undo _ => none

def faultyBill : Handler BillOp BillRes (Faulty World String) := withFaults handleBill billFault

def plainWorld (quota remain : ℤ) (subs : Table UserSubscription ℤ UserSubscription.id) : World where
  userQuota u := if u = 1 then some quota else none
  userBatch _ := 0
  userFlush _ := 0
  userCache _ := none
  tokens := ⟨[⟨7, "key", remain, 0⟩], List.nodup_singleton _⟩
  tokenBatch _ := 0
  tokenFlush _ := 0
  tokenCache _ := none
  planInfo _ := none
  tasks := []
  subs := Db.idle (plainTables subs)

structure TokenQuota where
  remain : ℤ
  used : ℤ
  deriving DecidableEq

@[ext] structure Ledger where
  wallet : ℤ → Option ℤ
  token : ℤ → Option TokenQuota
  subs : SubDb

def TokenQuota.add (q : TokenQuota) (delta : ℤ) : TokenQuota := ⟨q.remain + delta, q.used - delta⟩

namespace Ledger

def addWallet (a : Ledger) (userId delta : ℤ) : Ledger :=
  { a with wallet := update a.wallet userId ((a.wallet userId).map (· + delta)) }

def addToken (a : Ledger) (tokenId delta : ℤ) : Ledger :=
  { a with token := update a.token tokenId ((a.token tokenId).map (·.add delta)) }

end Ledger

def World.ledger (w : World) : Ledger where
  wallet userId := (w.userQuota userId).map (· + (w.userBatch userId + w.userFlush userId))
  token tokenId := (w.tokens.find? tokenId).map fun row =>
    TokenQuota.add ⟨row.remainQuota, row.usedQuota⟩ (w.tokenBatch tokenId + w.tokenFlush tokenId)
  subs := w.subs

/-- What each operation can do to the ledger; `fails` tells which writes may fail. Reads
may answer anything, since cached copies and unflushed rows lag behind. -/
def effects (fails : Purpose → Prop) : Effects BillOp BillRes Ledger
  | .updateUserQuota purpose userId delta, a, r, a' =>
    (r = Except.ok () ∧ a' = a.addWallet userId delta) ∨
      (fails purpose ∧ (∃ e, r = Except.error e) ∧ a' = a)
  | .batchUserQuota userId delta, a, _, a' => a' = a.addWallet userId delta
  | .updateTokenQuota purpose tokenId delta, a, r, a' =>
    (r = Except.ok () ∧ a' = a.addToken tokenId delta) ∨
      (fails purpose ∧ (∃ e, r = Except.error e) ∧ a' = a)
  | .batchTokenQuota tokenId delta, a, _, a' => a' = a.addToken tokenId delta
  | .store purpose o, a, r, a' => ∃ db, a' = { a with subs := db } ∧
      faultEffects (handle engine) onFault (fun _ => fails purpose) o a.subs r db
  | .cachedUser _, a, _, a' => a' = a
  | .selectUser _, a, _, a' => a' = a
  | .selectUserQuota _, a, _, a' => a' = a
  | .cachedToken _, a, _, a' => a' = a
  | .selectToken _, a, _, a' => a' = a
  | .selectTokenById _, a, _, a' => a' = a
  | .go _, a, _, a' => a' = a
  | .cachedPlanInfo _, a, _, a' => a' = a
  | .cachePlanInfo _ _, a, _, a' => a' = a

section Simulation

variable {w : World}

theorem ledger_addUserQuota (userId delta : ℤ) :
    (w.addUserQuota userId delta).ledger = w.ledger.addWallet userId delta := by
  refine Ledger.ext (funext fun u => ?_) rfl rfl
  by_cases hu : u = userId
  · subst hu
    cases hq : w.userQuota u with
    | none => simp [World.ledger, World.addUserQuota, Ledger.addWallet, hq]
    | some q =>
      simp only [World.ledger, World.addUserQuota, Ledger.addWallet, hq, update_self,
        map_some]
      congr 1
      omega
  · simp [World.ledger, World.addUserQuota, Ledger.addWallet, update_of_ne hu]

theorem ledger_batchUser (userId delta : ℤ) :
    ({ w with userBatch := bump w.userBatch userId delta } : World).ledger =
      w.ledger.addWallet userId delta := by
  refine Ledger.ext (funext fun u => ?_) rfl rfl
  by_cases hu : u = userId
  · subst hu
    cases hq : w.userQuota u with
    | none => simp [World.ledger, Ledger.addWallet, hq]
    | some q =>
      simp only [World.ledger, Ledger.addWallet, bump, hq, update_self, map_some]
      congr 1
      omega
  · simp [World.ledger, Ledger.addWallet, bump, update_of_ne hu]

theorem TokenQuota.add_add (q : TokenQuota) (a b : ℤ) : (q.add a).add b = q.add (a + b) := by
  simp only [TokenQuota.add, TokenQuota.mk.injEq]
  omega

theorem ledger_addTokenQuota (tokenId delta : ℤ) :
    (w.addTokenQuota tokenId delta).ledger = w.ledger.addToken tokenId delta := by
  refine Ledger.ext rfl (funext fun id => ?_) rfl
  simp only [World.ledger, World.addTokenQuota, Ledger.addToken, find?_modify]
  by_cases hid : id = tokenId
  · subst hid
    rw [update_self]
    cases hrow : w.tokens.find? id with
    | none => rfl
    | some row =>
      have hkey : row.id = id := find?_some_key hrow
      simp only [map_some, addTo, if_pos hkey, TokenRow.add]
      congr 1
      simp only [TokenQuota.add, TokenQuota.mk.injEq]
      omega
  · rw [update_of_ne hid]
    cases hrow : w.tokens.find? id with
    | none => rfl
    | some row =>
      have hkey : row.id = id := find?_some_key hrow
      have hne : ¬ row.id = tokenId := fun e => hid (hkey.symm.trans e)
      simp only [map_some, addTo, if_neg hne]

theorem ledger_batchToken (tokenId delta : ℤ) :
    ({ w with tokenBatch := bump w.tokenBatch tokenId delta } : World).ledger =
      w.ledger.addToken tokenId delta := by
  refine Ledger.ext rfl (funext fun id => ?_) rfl
  by_cases hid : id = tokenId
  · subst hid
    cases hrow : w.tokens.find? id with
    | none => simp [World.ledger, Ledger.addToken, hrow]
    | some row =>
      simp only [World.ledger, Ledger.addToken, bump, hrow, update_self, map_some,
        TokenQuota.add_add]
      congr 2
      omega
  · simp [World.ledger, Ledger.addToken, bump, update_of_ne hid]

theorem simulates_handleBill (fails : Purpose → Prop) :
    Simulates handleBill (effects fails) World.ledger fun _ => True where
  keeps := fun _ _ _ _ _ _ => trivial
  outcome := by
    intro o w r w' _ h
    cases o with
    | updateUserQuota purpose userId delta =>
      cases h
      exact .inl ⟨rfl, ledger_addUserQuota userId delta⟩
    | batchUserQuota userId delta =>
      cases h
      exact ledger_batchUser userId delta
    | updateTokenQuota purpose tokenId delta =>
      cases h
      exact .inl ⟨rfl, ledger_addTokenQuota tokenId delta⟩
    | batchTokenQuota tokenId delta =>
      cases h
      exact ledger_batchToken tokenId delta
    | store purpose o =>
      obtain ⟨p, hp, he⟩ := map_eq_some_iff.mp h
      cases he
      exact ⟨p.2, rfl, .inl hp⟩
    | _ =>
      cases h
      rfl

theorem simulates_faultyBill :
    Simulates faultyBill (effects (· = .ordinary)) (fun s => s.state.ledger) fun _ => True where
  keeps := fun _ _ _ _ _ _ => trivial
  outcome := by
    intro o s r s' _ h
    obtain ⟨w', faults⟩ := s'
    rcases withFaults_cases h with ⟨fail, e, hf, he⟩ | hpass
    · cases o with
      | updateUserQuota purpose userId delta | updateTokenQuota purpose tokenId delta =>
        cases purpose with
        | ordinary =>
          cases hf
          cases he
          exact .inr ⟨rfl, ⟨e, rfl⟩, rfl⟩
        | undo => cases hf
      | store purpose o =>
        cases purpose with
        | ordinary =>
          obtain ⟨inner, hinner, rfl⟩ := map_eq_some_iff.mp hf
          cases he
          exact ⟨_, rfl, .inr ⟨rfl, inner, e, hinner, rfl⟩⟩
        | undo => cases hf
      | batchUserQuota userId delta | batchTokenQuota tokenId delta | go task
      | cachePlanInfo id info => cases hf
      | _ =>
        cases hf
        cases he
        rfl
    · exact (simulates_handleBill (· = .ordinary)).outcome o s.state r w' trivial hpass

theorem simulates_faultless :
    Simulates faultyBill (effects fun _ => False) (fun s => s.state.ledger)
      fun s => s.faults = [] where
  keeps := fun o s r s' hs h => withFaults_nil h hs
  outcome := by
    intro o s r s' hs h
    rcases withFaults_why h with ⟨hfaults, -⟩ | hpass
    · exact (hfaults hs).elim
    · exact (simulates_handleBill _).outcome o s.state r s'.state trivial hpass

end Simulation

def changeCached {κ : Type} [DecidableEq κ] (cache : κ → Option ℤ) (key : κ) (f : ℤ → ℤ) :
    κ → Option ℤ := update cache key ((cache key).map f)

def World.runTask (w : World) : CacheTask → World
  | .incrUser userId delta => { w with userCache := changeCached w.userCache userId (· + delta) }
  | .setUser userId quota => { w with userCache := update w.userCache userId (some quota) }
  | .setUserQuota userId quota =>
    { w with userCache := changeCached w.userCache userId fun _ => quota }
  | .incrToken key delta => { w with tokenCache := changeCached w.tokenCache key (· + delta) }
  | .setToken key remain =>
    { w with tokenCache := update w.tokenCache key (some remain) }

theorem ledger_runTask (w : World) (task : CacheTask) : (w.runTask task).ledger = w.ledger := by
  cases task <;> rfl

/-- What goroutines, the cache and the batch updater do between the operations of the
requests. -/
inductive Background (w : World) : World → Prop
  | task {before after : List CacheTask} {task : CacheTask} : w.tasks = before ++ task :: after →
      Background w (World.runTask { w with tasks := before ++ after } task)
  | expireUser (userId : ℤ) :
      Background w { w with userCache := update w.userCache userId none }
  | expireToken (key : String) :
      Background w { w with tokenCache := update w.tokenCache key none }
  /-- `batchUpdate` takes the collected changes of users, once the last ones are written -/
  | takeUsers : (∀ id, w.userFlush id = 0) →
      Background w { w with userBatch := fun _ => 0, userFlush := w.userBatch }
  | takeTokens : (∀ id, w.tokenFlush id = 0) →
      Background w { w with tokenBatch := fun _ => 0, tokenFlush := w.tokenBatch }
  | flushUser (userId : ℤ) :
      Background w (World.addUserQuota { w with userFlush := update w.userFlush userId 0 }
        userId (w.userFlush userId))
  | flushToken (tokenId : ℤ) : Background w (World.addTokenQuota
        { w with tokenFlush := update w.tokenFlush tokenId 0 }
        tokenId (w.tokenFlush tokenId))

theorem ledger_flushUser (w : World) (userId : ℤ) :
    (World.addUserQuota { w with userFlush := update w.userFlush userId 0 }
      userId (w.userFlush userId)).ledger = w.ledger := by
  rw [ledger_addUserQuota]
  refine Ledger.ext (funext fun u => ?_) rfl rfl
  by_cases hu : u = userId
  · subst hu
    cases hq : w.userQuota u with
    | none => simp [World.ledger, Ledger.addWallet, hq]
    | some q =>
      simp only [World.ledger, Ledger.addWallet, hq, update_self, map_some]
      congr 1
      omega
  · simp [World.ledger, Ledger.addWallet, update_of_ne hu]

theorem ledger_flushToken (w : World) (tokenId : ℤ) :
    (World.addTokenQuota { w with tokenFlush := update w.tokenFlush tokenId 0 }
      tokenId (w.tokenFlush tokenId)).ledger = w.ledger := by
  rw [ledger_addTokenQuota]
  refine Ledger.ext rfl (funext fun id => ?_) rfl
  by_cases hid : id = tokenId
  · subst hid
    cases hrow : w.tokens.find? id with
    | none => simp [World.ledger, Ledger.addToken, hrow]
    | some row =>
      simp only [World.ledger, Ledger.addToken, hrow, update_self, map_some,
        TokenQuota.add_add]
      congr 2
      omega
  · simp [World.ledger, Ledger.addToken, update_of_ne hid]

theorem ledger_background {w w' : World} (h : Background w w') : w'.ledger = w.ledger := by
  cases h with
  | task _ => exact ledger_runTask _ _
  | expireUser userId | expireToken key => rfl
  | takeUsers hflush =>
    refine Ledger.ext (funext fun u => ?_) rfl rfl
    simp [World.ledger, hflush]
  | takeTokens hflush =>
    refine Ledger.ext rfl (funext fun id => ?_) rfl
    simp [World.ledger, hflush]
  | flushUser userId => exact ledger_flushUser w userId
  | flushToken tokenId => exact ledger_flushToken w tokenId

end BillingStore
