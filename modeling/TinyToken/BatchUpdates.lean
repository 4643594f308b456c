import TinyToken.ProgramHistories
import TinyToken.KeyedTable

/-! The batch updater of `model/utils.go`. With batch updates on, changes of quotas and counters
are collected in five maps; a flush swaps the maps for empty ones and writes what they held to
the database. Calls and flushes interleave at every map operation and every statement. The
updates of the cached copies are left out here, they do not touch the database. -/
namespace BatchUpdates

open ProgramSteps InterleavedPrograms ProgramHistories KeyedTable List Option Function Table Finset

inductive BatchUpdateType where
  | userQuota | tokenQuota | usedQuota | channelUsedQuota | requestCount
  deriving DecidableEq

def batchUpdateTypes : List BatchUpdateType :=
  [.userQuota, .tokenQuota, .usedQuota, .channelUsedQuota, .requestCount]

abbrev Records := Table (ℤ × ℤ) ℤ Prod.fst

def amountOf (m : Records) (id : ℤ) : ℤ := ((m.find? id).map Prod.snd).getD 0

def addRecord (m : Records) (id value : ℤ) : Records :=
  match m.find? id with
  | none => m.save (id, value)
  | some (_, old) => m.save (id, old + value)

structure UserRow where
  quota : ℤ
  usedQuota : ℤ
  requestCount : ℤ
  deriving DecidableEq

structure TokenRow where
  remainQuota : ℤ
  usedQuota : ℤ

structure Tables where
  users : ℤ → Option UserRow
  tokens : ℤ → Option TokenRow
  channels : ℤ → Option ℤ

structure State where
  db : Tables
  stores : BatchUpdateType → Records

inductive BatchOp where
  | addNewRecord (type_ : BatchUpdateType) (id value : ℤ)
  | hasRecords (type_ : BatchUpdateType)
  | swapStore (type_ : BatchUpdateType)
  /-- one `UPDATE` that adds to the columns of a user -/
  | updateUser (id quota usedQuota requestCount : ℤ)
  | updateToken (id quota : ℤ)
  | updateChannel (id quota : ℤ)

def BatchRes : BatchOp → Type
  | .addNewRecord _ _ _ => Unit
  | .hasRecords _ => Bool
  | .swapStore _ => Records
  | .updateUser _ _ _ _ => Except String Unit
  | .updateToken _ _ => Except String Unit
  | .updateChannel _ _ => Except String Unit

abbrev BatchProg := Prog BatchOp BatchRes

def UserRow.add (row : UserRow) (quota usedQuota requestCount : ℤ) : UserRow :=
  ⟨row.quota + quota, row.usedQuota + usedQuota, row.requestCount + requestCount⟩

def TokenRow.add (row : TokenRow) (quota : ℤ) : TokenRow :=
  ⟨row.remainQuota + quota, row.usedQuota - quota⟩

/-- An `UPDATE` of the row with this id, if there is one. -/
def change {R : Type} (rows : ℤ → Option R) (id : ℤ) (f : R → R) : ℤ → Option R :=
  update rows id ((rows id).map f)

def handleBatch : Handler BatchOp BatchRes State
  | .addNewRecord type_ id value, s => some ((), { s with
      stores := update s.stores type_ (addRecord (s.stores type_) id value) })
  | .hasRecords type_, s => some (!(s.stores type_).rows.isEmpty, s)
  | .swapStore type_, s =>
    some (s.stores type_, { s with stores := update s.stores type_ .empty })
  | .updateUser id quota usedQuota requestCount, s => some (.ok (), { s with
      db.users := change s.db.users id fun row => row.add quota usedQuota requestCount })
  | .updateToken id quota, s => some (.ok (), { s with
      db.tokens := change s.db.tokens id fun row => row.add quota })
  | .updateChannel id quota, s => some (.ok (), { s with
      db.channels := change s.db.channels id (· + quota) })

def addNewRecord (type_ : BatchUpdateType) (id value : ℤ) : BatchProg Unit :=
  .op (.addNewRecord type_ id value) .pure

def hasRecords (type_ : BatchUpdateType) : BatchProg Bool := .op (.hasRecords type_) .pure

def swapStore (type_ : BatchUpdateType) : BatchProg Records := .op (.swapStore type_) .pure

def updateUser (id quota usedQuota requestCount : ℤ) : BatchProg (Except String Unit) :=
  .op (.updateUser id quota usedQuota requestCount) .pure

def updateToken (id quota : ℤ) : BatchProg (Except String Unit) := .op (.updateToken id quota) .pure

def updateChannel (id quota : ℤ) : BatchProg (Except String Unit) :=
  .op (.updateChannel id quota) .pure

def negative : String := "quota 不能为负数！"

def collectOr (batch : Bool) (type_ : BatchUpdateType) (id value : ℤ)
    (write : BatchProg (Except String Unit)) : BatchProg (Except String Unit) :=
  if batch then do
    addNewRecord type_ id value
    pure (.ok ())
  else write

def increaseUserQuota (batch : Bool) (id quota : ℤ) (db : Bool) : BatchProg (Except String Unit) :=
  if quota < 0 then pure (.error negative)
  else collectOr (!db && batch) .userQuota id quota (updateUser id quota 0 0)

def decreaseUserQuota (batch : Bool) (id quota : ℤ) (db : Bool) : BatchProg (Except String Unit) :=
  if quota < 0 then pure (.error negative)
  else collectOr (!db && batch) .userQuota id (-quota) (updateUser id (-quota) 0 0)

def updateUserUsedQuotaAndRequestCount (batch : Bool) (id quota : ℤ) :
    BatchProg (Except String Unit) :=
  if batch then do
    addNewRecord .usedQuota id quota
    addNewRecord .requestCount id 1
    pure (.ok ())
  else do
    let _ ← updateUser id 0 quota 1
    pure (.ok ())

def increaseTokenQuota (batch : Bool) (tokenId quota : ℤ) : BatchProg (Except String Unit) :=
  if quota < 0 then pure (.error negative)
  else collectOr batch .tokenQuota tokenId quota (updateToken tokenId quota)

def decreaseTokenQuota (batch : Bool) (id quota : ℤ) : BatchProg (Except String Unit) :=
  if quota < 0 then pure (.error negative)
  else collectOr batch .tokenQuota id (-quota) (updateToken id (-quota))

def updateChannelUsedQuota (batch : Bool) (id quota : ℤ) : BatchProg (Except String Unit) :=
  collectOr batch .channelUsedQuota id quota do
    let _ ← updateChannel id quota
    pure (.ok ())

inductive Call where
  | increaseUserQuota (id quota : ℤ) (db : Bool)
  | decreaseUserQuota (id quota : ℤ) (db : Bool)
  | updateUserUsedQuotaAndRequestCount (id quota : ℤ)
  | increaseTokenQuota (tokenId quota : ℤ)
  | decreaseTokenQuota (id quota : ℤ)
  | updateChannelUsedQuota (id quota : ℤ)

def Call.program (batch : Bool) : Call → BatchProg (Except String Unit)
  | .increaseUserQuota id quota db => BatchUpdates.increaseUserQuota batch id quota db
  | .decreaseUserQuota id quota db => BatchUpdates.decreaseUserQuota batch id quota db
  | .updateUserUsedQuotaAndRequestCount id quota =>
    BatchUpdates.updateUserUsedQuotaAndRequestCount batch id quota
  | .increaseTokenQuota tokenId quota => BatchUpdates.increaseTokenQuota batch tokenId quota
  | .decreaseTokenQuota id quota => BatchUpdates.decreaseTokenQuota batch id quota
  | .updateChannelUsedQuota id quota => BatchUpdates.updateChannelUsedQuota batch id quota

def anyRecords : List BatchUpdateType → BatchProg Bool
  | [] => pure false
  | type_ :: rest => do
    if ← hasRecords type_ then pure true else anyRecords rest

def forEach {A : Type} (body : A → BatchProg Unit) : List A → BatchProg Unit
  | [] => pure ()
  | a :: rest => do
    body a
    forEach body rest

def updateUserQuotaUsedQuotaAndRequestCount (id quota usedQuota requestCount : ℤ) :
    BatchProg Unit :=
  if quota = 0 ∧ usedQuota = 0 ∧ requestCount = 0 then pure ()
  else do
    let _ ← updateUser id quota usedQuota requestCount
    pure ()

structure IterationOrder where
  records : List (ℤ × ℤ) → List (ℤ × ℤ)
  records_perm : ∀ l, (records l).Perm l
  ids : List ℤ → List ℤ
  ids_perm : ∀ l, (ids l).Perm l

def userIDs (quota usedQuota requestCount : Records) : List ℤ :=
  ((quota.rows ++ usedQuota.rows ++ requestCount.rows).map Prod.fst).dedup

variable (order : IterationOrder) {c : Call} (batch : Bool)

def flushTokens (m : Records) : BatchProg Unit :=
  forEach (fun record => do
    let _ ← updateToken record.1 record.2
    pure ()) (order.records m.rows)

def flushChannels (m : Records) : BatchProg Unit :=
  forEach (fun record => do
    let _ ← updateChannel record.1 record.2
    pure ()) (order.records m.rows)

def flushUsers (quota usedQuota requestCount : Records) : BatchProg Unit :=
  forEach (fun id => updateUserQuotaUsedQuotaAndRequestCount id (amountOf quota id)
    (amountOf usedQuota id) (amountOf requestCount id))
    (order.ids (userIDs quota usedQuota requestCount))

def batchUpdate : BatchProg (Except String Unit) := do
  if ← anyRecords batchUpdateTypes then
    let userQuota ← swapStore .userQuota
    let tokenQuota ← swapStore .tokenQuota
    let usedQuota ← swapStore .usedQuota
    let channelUsedQuota ← swapStore .channelUsedQuota
    let requestCount ← swapStore .requestCount
    flushTokens order tokenQuota
    flushChannels order channelUsedQuota
    flushUsers order userQuota usedQuota requestCount
    pure (.ok ())
  else pure (.ok ())

inductive Job where
  | call (c : Call)
  | flush (order : IterationOrder)

def Job.program (batch : Bool) : Job → BatchProg (Except String Unit)
  | .call c => c.program batch
  | .flush order => batchUpdate order

inductive Column where
  | quota | usedQuota | requestCount | remainQuota | tokenUsedQuota | channelUsedQuota
  deriving DecidableEq

def Tables.value (db : Tables) : Column → ℤ → Option ℤ
  | .quota, id => (db.users id).map UserRow.quota
  | .usedQuota, id => (db.users id).map UserRow.usedQuota
  | .requestCount, id => (db.users id).map UserRow.requestCount
  | .remainQuota, id => (db.tokens id).map TokenRow.remainQuota
  | .tokenUsedQuota, id => (db.tokens id).map TokenRow.usedQuota
  | .channelUsedQuota, id => db.channels id

def Column.store : Column → BatchUpdateType
  | .quota => .userQuota
  | .usedQuota => .usedQuota
  | .requestCount => .requestCount
  | .remainQuota => .tokenQuota
  | .tokenUsedQuota => .tokenQuota
  | .channelUsedQuota => .channelUsedQuota

def Column.weigh : Column → ℤ → ℤ
  | .tokenUsedQuota, amount => -amount
  | _, amount => amount

def userAmount (quota usedQuota requestCount : ℤ) : Column → ℤ
  | .quota => quota
  | .usedQuota => usedQuota
  | .requestCount => requestCount
  | _ => 0

def tokenAmount (quota : ℤ) : Column → ℤ
  | .remainQuota => quota
  | .tokenUsedQuota => -quota
  | _ => 0

def channelAmount (quota : ℤ) : Column → ℤ
  | .channelUsedQuota => quota
  | _ => 0

def moved (col : Column) (id : ℤ) : Seen BatchOp BatchRes State → ℤ
  | ⟨.addNewRecord type_ k value, _, _⟩ =>
    if type_ = col.store ∧ k = id then col.weigh value else 0
  | ⟨.hasRecords _, _, _⟩ => 0
  | ⟨.swapStore type_, m, _⟩ => if type_ = col.store then -col.weigh (amountOf m id) else 0
  | ⟨.updateUser k quota usedQuota requestCount, _, _⟩ =>
    if k = id then userAmount quota usedQuota requestCount col else 0
  | ⟨.updateToken k quota, _, _⟩ => if k = id then tokenAmount quota col else 0
  | ⟨.updateChannel k quota, _, _⟩ => if k = id then channelAmount quota col else 0

section Records

variable (m : Records)

@[simp] theorem amountOf_empty (id : ℤ) : amountOf .empty id = 0 := rfl

theorem amountOf_addRecord (k value id : ℤ) :
    amountOf (addRecord m k value) id = amountOf m id + if k = id then value else 0 := by
  unfold amountOf addRecord
  cases hold : m.find? k with
  | none | some record =>
    by_cases hid : k = id
    · subst hid
      simp [find?_save, hold]
    · simp [find?_save, hid, Ne.symm hid]

theorem amountOf_of_mem {record : ℤ × ℤ} (h : record ∈ m.rows) : amountOf m record.1 = record.2 := by
  rw [amountOf, find?_of_mem h]
  rfl

theorem amountOf_of_not_mem {id : ℤ} (h : id ∉ m.rows.map Prod.fst) : amountOf m id = 0 := by
  have hnone : m.find? id = none :=
    find?_eq_none_iff.mpr fun record hrecord hid => h (hid ▸ mem_map_of_mem hrecord)
  rw [amountOf, hnone]
  rfl

theorem sum_single {l : List ℤ} (hl : l.Nodup) (g : ℤ → ℤ) (id : ℤ) :
    (l.map fun k => if k = id then g k else 0).sum = if id ∈ l then g id else 0 := by
  induction l with
  | nil => rfl
  | cons k l ih =>
    obtain ⟨hk, hl⟩ := nodup_cons.mp hl
    rw [List.map_cons, List.sum_cons, ih hl]
    by_cases hid : k = id
    · subst hid
      simp [hk]
    · simp [hid, Ne.symm hid]

theorem sum_records (order : IterationOrder) (f : ℤ → ℤ) (hf : f 0 = 0) (id : ℤ) :
    ((order.records m.rows).map fun record => if record.1 = id then f record.2 else 0).sum =
      f (amountOf m id) := by
  have hrows : (m.rows.map fun record => if record.1 = id then f record.2 else 0) =
      (m.rows.map Prod.fst).map fun k => if k = id then f (amountOf m k) else 0 := by
    rw [List.map_map]
    refine map_congr_left fun record hrecord => ?_
    simp only [comp, amountOf_of_mem m hrecord]
  rw [((order.records_perm m.rows).map _).sum_eq, hrows, sum_single m.nodup]
  split
  · rfl
  next hid =>
    rw [amountOf_of_not_mem m hid, hf]

theorem sum_userIDs (order : IterationOrder) (quota usedQuota requestCount : Records)
    (col : Column) (id : ℤ) :
    ((order.ids (userIDs quota usedQuota requestCount)).map fun k => if k = id then
      userAmount (amountOf quota k) (amountOf usedQuota k) (amountOf requestCount k) col
      else 0).sum =
      userAmount (amountOf quota id) (amountOf usedQuota id) (amountOf requestCount id) col := by
  have hnodup : (userIDs quota usedQuota requestCount).Nodup := nodup_dedup _
  rw [((order.ids_perm _).map _).sum_eq, sum_single hnodup fun k =>
    userAmount (amountOf quota k) (amountOf usedQuota k) (amountOf requestCount k) col]
  split
  · rfl
  next hid =>
    simp only [userIDs, mem_dedup, map_append, mem_append, not_or] at hid
    rw [amountOf_of_not_mem quota hid.1.1, amountOf_of_not_mem usedQuota hid.1.2,
      amountOf_of_not_mem requestCount hid.2]
    cases col <;> rfl

end Records

section Flushes

variable (col : Column) (id : ℤ) (order : IterationOrder)

theorem ends_anyRecords (types : List BatchUpdateType) :
    Ends handleBatch (anyRecords types) fun _ past => posted (moved col id) past = 0 := by
  induction types with
  | nil => exact ends_pure.mpr rfl
  | cons type_ rest ih =>
    refine ends_op.mpr fun (r : Bool) s t ho => ?_
    cases r with
    | true => exact ends_pure.mpr (by simp [moved])
    | false => exact ih.mono fun _ past hpast => by simp [moved, hpast]

theorem ends_forEach {A : Type} {body : A → BatchProg Unit} (cost : A → ℤ)
    (hbody : ∀ a, Ends handleBatch (body a) fun _ past => posted (moved col id) past = cost a)
    (l : List A) :
    Ends handleBatch (forEach body l) fun _ past => posted (moved col id) past = (l.map cost).sum := by
  induction l with
  | nil => exact ends_pure.mpr rfl
  | cons a rest ih =>
    refine Ends.bind ((hbody a).mono fun _ past hpast => ih.mono fun _ later hlater => ?_)
    rw [posted_append, hpast, hlater, List.map_cons, List.sum_cons]

theorem ends_flushTokens (m : Records) : Ends handleBatch (flushTokens order m) fun _ past =>
    posted (moved col id) past = tokenAmount (amountOf m id) col := by
  rw [← sum_records m order (fun quota => tokenAmount quota col) (by cases col <;> rfl) id]
  refine ends_forEach col id _ (fun record => ?_) _
  exact ends_op.mpr fun r s t ho => ends_pure.mpr (by simp [moved])

theorem ends_flushChannels (m : Records) : Ends handleBatch (flushChannels order m) fun _ past =>
    posted (moved col id) past = channelAmount (amountOf m id) col := by
  rw [← sum_records m order (fun quota => channelAmount quota col) (by cases col <;> rfl) id]
  refine ends_forEach col id _ (fun record => ?_) _
  exact ends_op.mpr fun r s t ho => ends_pure.mpr (by simp [moved])

theorem ends_updateUser (k quota usedQuota requestCount : ℤ) :
    Ends handleBatch (updateUserQuotaUsedQuotaAndRequestCount k quota usedQuota requestCount)
      fun _ past => posted (moved col id) past =
        if k = id then userAmount quota usedQuota requestCount col else 0 := by
  unfold updateUserQuotaUsedQuotaAndRequestCount
  split
  next hzero =>
    obtain ⟨rfl, rfl, rfl⟩ := hzero
    refine ends_pure.mpr ?_
    cases col <;> simp [userAmount]
  · exact ends_op.mpr fun r s t ho => ends_pure.mpr (by simp [moved])

theorem ends_flushUsers (quota usedQuota requestCount : Records) :
    Ends handleBatch (flushUsers order quota usedQuota requestCount) fun _ past =>
      posted (moved col id) past =
        userAmount (amountOf quota id) (amountOf usedQuota id) (amountOf requestCount id) col := by
  rw [← sum_userIDs order]
  exact ends_forEach col id _ (fun k => ends_updateUser col id k _ _ _) _

theorem ends_batchUpdate : Ends handleBatch (batchUpdate order) fun _ past =>
    posted (moved col id) past = 0 := by
  refine Ends.bind ((ends_anyRecords col id _).mono fun found checks hchecks => ?_)
  cases found with
  | false => exact ends_pure.mpr (by rw [append_nil, hchecks])
  | true =>
    refine ends_op.mpr fun userQuota s₁ t₁ h₁ => ends_op.mpr fun tokenQuota s₂ t₂ h₂ =>
      ends_op.mpr fun usedQuota s₃ t₃ h₃ => ends_op.mpr fun channelUsedQuota s₄ t₄ h₄ =>
      ends_op.mpr fun requestCount s₅ t₅ h₅ => ?_
    change Ends handleBatch (flushTokens order tokenQuota >>= _) _
    refine Ends.bind ((ends_flushTokens col id order tokenQuota).mono fun _ past₁ hpast₁ => ?_)
    refine Ends.bind ((ends_flushChannels col id order channelUsedQuota).mono fun _ past₂ hpast₂ => ?_)
    refine Ends.bind ((ends_flushUsers col id order userQuota usedQuota requestCount).mono
      fun _ past₃ hpast₃ => ends_pure.mpr ?_)
    simp only [posted_append, posted_cons, posted_nil, hchecks, hpast₁, hpast₂, hpast₃]
    cases col <;> simp [moved, Column.store, Column.weigh, tokenAmount, channelAmount, userAmount]

end Flushes

def Call.refused : Call → Bool
  | .increaseUserQuota _ quota _ => decide (quota < 0)
  | .decreaseUserQuota _ quota _ => decide (quota < 0)
  | .updateUserUsedQuotaAndRequestCount _ _ => false
  | .increaseTokenQuota _ quota => decide (quota < 0)
  | .decreaseTokenQuota _ quota => decide (quota < 0)
  | .updateChannelUsedQuota _ _ => false

def Call.body (batch : Bool) : Call → BatchProg (Except String Unit)
  | .increaseUserQuota id quota db =>
    collectOr (!db && batch) .userQuota id quota (updateUser id quota 0 0)
  | .decreaseUserQuota id quota db =>
    collectOr (!db && batch) .userQuota id (-quota) (updateUser id (-quota) 0 0)
  | .updateUserUsedQuotaAndRequestCount id quota =>
    BatchUpdates.updateUserUsedQuotaAndRequestCount batch id quota
  | .increaseTokenQuota tokenId quota =>
    collectOr batch .tokenQuota tokenId quota (updateToken tokenId quota)
  | .decreaseTokenQuota id quota =>
    collectOr batch .tokenQuota id (-quota) (updateToken id (-quota))
  | .updateChannelUsedQuota id quota => BatchUpdates.updateChannelUsedQuota batch id quota

theorem program_eq (c : Call) :
    c.program batch = if c.refused then .pure (.error negative) else c.body batch := by
  cases c <;> simp [Call.program, Call.refused, Call.body, increaseUserQuota, decreaseUserQuota,
    increaseTokenQuota, decreaseTokenQuota] <;> rfl

theorem program_of_refused (hc : c.refused = true) :
    c.program batch = .pure (.error negative) := by rw [program_eq, if_pos hc]

theorem program_of_accepted (hc : c.refused = false) :
    c.program batch = c.body batch := by rw [program_eq, if_neg (by simp [hc])]

theorem body_op (c : Call) : ∃ o k, c.body batch = .op o k := by
  have hcollect : ∀ (b : Bool) type_ id value o k, ∃ o' k',
      collectOr b type_ id value (.op o k) = .op o' k' := by
    intro b type_ id value o k
    cases b
    · exact ⟨o, k, rfl⟩
    · exact ⟨_, _, rfl⟩
  cases c with
  | updateUserUsedQuotaAndRequestCount id quota => cases batch <;> exact ⟨_, _, rfl⟩
  | increaseUserQuota id quota db | decreaseUserQuota id quota db | increaseTokenQuota id quota
  | decreaseTokenQuota id quota | updateChannelUsedQuota id quota => exact hcollect _ _ _ _ _ _

theorem refused_of_pure {batch : Bool} {a : Except String Unit} (h : c.program batch = .pure a) :
    c.refused = true := by
  by_contra hc
  obtain ⟨o, k, hop⟩ := body_op batch c
  rw [program_of_accepted batch (by simpa using hc), hop] at h
  cases h

def Call.answer (c : Call) : Except String Unit := if c.refused then .error negative else .ok ()

def Call.adds (col : Column) (id : ℤ) : Call → ℤ
  | .increaseUserQuota k quota _ => if k = id then userAmount quota 0 0 col else 0
  | .decreaseUserQuota k quota _ => if k = id then userAmount (-quota) 0 0 col else 0
  | .updateUserUsedQuotaAndRequestCount k quota => if k = id then userAmount 0 quota 1 col else 0
  | .increaseTokenQuota k quota => if k = id then tokenAmount quota col else 0
  | .decreaseTokenQuota k quota => if k = id then tokenAmount (-quota) col else 0
  | .updateChannelUsedQuota k quota => if k = id then channelAmount quota col else 0

def Call.effect (c : Call) (col : Column) (id : ℤ) : ℤ := if c.refused then 0 else c.adds col id

def Halfway (c : Call) (past : List (Seen BatchOp BatchRes State)) : Prop :=
  ∃ id quota s, c = .updateUserUsedQuotaAndRequestCount id quota ∧
    past = [⟨.addNewRecord .usedQuota id quota, (), s⟩]

def Once (p : BatchProg (Except String Unit)) (adds : Column → ℤ → ℤ) : Prop :=
  ∀ past q, Follows handleBatch p past q → (past = [] ∧ q = p) ∨
    (past ≠ [] ∧ q = .pure (.ok ()) ∧ ∀ col id, posted (moved col id) past = adds col id)

section Calls

variable {past : List (Seen BatchOp BatchRes State)} {q : BatchProg (Except String Unit)}
  {adds : Column → ℤ → ℤ}

theorem once_op {o : BatchOp} {k : BatchRes o → BatchProg (Except String Unit)}
    (hend : ∀ r s t, handleBatch o s = some (r, t) → k r = .pure (.ok ()) ∧
      ∀ col id, moved col id ⟨o, r, s⟩ = adds col id) : Once (.op o k) adds := by
  intro past q h
  rcases follows_op.mp h with ⟨rfl, rfl⟩ | ⟨r, s, t, rest, ho, rfl, hrest⟩
  · exact .inl ⟨rfl, rfl⟩
  · obtain ⟨hk, hadds⟩ := hend r s t ho
    rw [hk] at hrest
    obtain ⟨rfl, rfl⟩ := follows_pure.mp hrest
    refine .inr ⟨by simp, rfl, fun col id => ?_⟩
    rw [posted_cons, posted_nil, add_zero, hadds]

theorem once_updateUser (k quota usedQuota requestCount : ℤ) :
    Once (updateUser k quota usedQuota requestCount) fun col id =>
      if k = id then userAmount quota usedQuota requestCount col else 0 := by
  refine once_op fun r s t ho => ?_
  cases ho
  exact ⟨rfl, fun col id => rfl⟩

variable (k quota : ℤ) (col : Column) (id : ℤ)

theorem once_updateToken : Once (updateToken k quota) fun col id =>
    if k = id then tokenAmount quota col else 0 := by
  refine once_op fun r s t ho => ?_
  cases ho
  exact ⟨rfl, fun col id => rfl⟩

theorem once_collectOr {batch : Bool} {type_ : BatchUpdateType} {k value : ℤ}
    {write : BatchProg (Except String Unit)} (hwrite : Once write adds)
    (hadd : ∀ col id, (if type_ = col.store ∧ k = id then col.weigh value else 0) = adds col id) :
    Once (collectOr batch type_ k value write) adds := by
  cases batch with
  | false => exact hwrite
  | true => exact once_op fun r s t ho => ⟨rfl, hadd⟩

theorem record_userQuota : (if .userQuota = col.store ∧ k = id then col.weigh quota else 0) =
      if k = id then userAmount quota 0 0 col else 0 := by
  cases col <;> simp [Column.store, Column.weigh, userAmount]

theorem record_tokenQuota : (if .tokenQuota = col.store ∧ k = id then col.weigh quota else 0) =
      if k = id then tokenAmount quota col else 0 := by
  cases col <;> simp [Column.store, Column.weigh, tokenAmount]

theorem once_updateChannelUsedQuota (batch : Bool) (k quota : ℤ) :
    Once (updateChannelUsedQuota batch k quota) fun col id =>
      if k = id then channelAmount quota col else 0 := by
  refine once_collectOr (once_op fun r s t ho => ⟨rfl, fun col id => rfl⟩) fun col id => ?_
  cases col <;> simp [Column.store, Column.weigh, channelAmount]

theorem once_body {c : Call} (batch : Bool)
    (hone : batch = true → ∀ id quota, c ≠ .updateUserUsedQuotaAndRequestCount id quota) :
    Once (c.body batch) fun col id => c.adds col id := by
  cases c with
  | increaseUserQuota k quota db =>
    exact once_collectOr (once_updateUser k quota 0 0) (record_userQuota k quota)
  | decreaseUserQuota k quota db =>
    exact once_collectOr (once_updateUser k (-quota) 0 0) (record_userQuota k (-quota))
  | updateUserUsedQuotaAndRequestCount k quota =>
    cases batch with
    | true => exact absurd rfl (hone rfl k quota)
    | false => exact once_op fun r s t ho => ⟨rfl, fun col id => rfl⟩
  | increaseTokenQuota k quota =>
    exact once_collectOr (once_updateToken k quota) (record_tokenQuota k quota)
  | decreaseTokenQuota k quota =>
    exact once_collectOr (once_updateToken k (-quota)) (record_tokenQuota k (-quota))
  | updateChannelUsedQuota k quota => exact once_updateChannelUsedQuota batch k quota

theorem history_of_call {c : Call} (h : Follows handleBatch (c.program true) past q) :
    (past = [] ∧ q = c.program true) ∨
    (past ≠ [] ∧ q = .pure c.answer ∧ ∀ col id, posted (moved col id) past = c.effect col id) ∨
    (Halfway c past ∧ (∀ a, q ≠ .pure a) ∧ ∀ col id, posted (moved col id) past =
      if col = .requestCount then 0 else c.effect col id) := by
  cases hc : c.refused with
  | true =>
    rw [program_of_refused true hc] at h ⊢
    exact .inl (follows_pure.mp h)
  | false =>
    have hanswer : c.answer = .ok () := by simp [Call.answer, hc]
    have heffect : ∀ col id, c.effect col id = c.adds col id := by simp [Call.effect, hc]
    rw [program_of_accepted true hc] at h ⊢
    by_cases hone : ∀ id quota, c ≠ .updateUserUsedQuotaAndRequestCount id quota
    · rcases once_body true (fun _ => hone) past q h with hbegin | ⟨hpast, hq, hposted⟩
      · exact .inl hbegin
      · refine .inr (.inl ⟨hpast, by rw [hq, hanswer], fun col id => ?_⟩)
        rw [hposted, heffect]
    · push Not at hone
      obtain ⟨k, quota, rfl⟩ := hone
      rcases follows_op.mp h with hbegin | ⟨r, s, t, rest, ho, rfl, hrest⟩
      · exact .inl hbegin
      rcases follows_op.mp hrest with ⟨rfl, rfl⟩ | ⟨r', s', t', rest', ho', rfl, hrest'⟩
      · refine .inr (.inr ⟨⟨k, quota, s, rfl, rfl⟩, nofun, fun col id => ?_⟩)
        rw [heffect]
        cases col <;> simp [moved, Column.store, Column.weigh, Call.adds, userAmount]
      · obtain ⟨rfl, rfl⟩ := follows_pure.mp hrest'
        refine .inr (.inl ⟨by simp, by rw [hanswer], fun col id => ?_⟩)
        rw [heffect]
        cases col <;> simp [moved, Column.store, Column.weigh, Call.adds, userAmount]

end Calls

section Statements

variable (s : State) (col : Column) (id : ℤ)

theorem value_updateUser (k quota usedQuota requestCount : ℤ) : Tables.value { s.db with
      users := change s.db.users k fun row => row.add quota usedQuota requestCount } col id =
      (s.db.value col id).map (· + if k = id then userAmount quota usedQuota requestCount col else 0) := by
  by_cases hid : k = id
  · subst hid
    cases col <;> simp [Tables.value, change, userAmount, comp_def, UserRow.add]
  · have hkeep : change s.db.users k (fun row => row.add quota usedQuota requestCount) id =
        s.db.users id := update_of_ne (Ne.symm hid) _ _
    cases col <;> simp [Tables.value, hkeep, hid, comp_def]

theorem value_updateToken (k quota : ℤ) :
    Tables.value { s.db with tokens := change s.db.tokens k fun row => row.add quota } col id =
      (s.db.value col id).map (· + if k = id then tokenAmount quota col else 0) := by
  by_cases hid : k = id
  · subst hid
    cases col <;> simp [Tables.value, change, tokenAmount, comp_def, TokenRow.add,
      sub_eq_add_neg]
  · have hkeep : change s.db.tokens k (fun row => row.add quota) id = s.db.tokens id :=
      update_of_ne (Ne.symm hid) _ _
    cases col <;> simp [Tables.value, hkeep, hid, comp_def]

theorem value_updateChannel (k quota : ℤ) :
    Tables.value { s.db with channels := change s.db.channels k (· + quota) } col id =
      (s.db.value col id).map (· + if k = id then channelAmount quota col else 0) := by
  by_cases hid : k = id
  · subst hid
    cases col <;> simp [Tables.value, change, channelAmount, comp_def]
  · have hkeep : change s.db.channels k (· + quota) id = s.db.channels id :=
      update_of_ne (Ne.symm hid) _ _
    cases col <;> simp [Tables.value, hkeep, hid, comp_def]

def written : Seen BatchOp BatchRes State → ℤ
  | ⟨.addNewRecord _ _ _, _, _⟩ => 0
  | ⟨.hasRecords _, _, _⟩ => 0
  | ⟨.swapStore _, _, _⟩ => 0
  | e => moved col id e

variable {s}

theorem value_step {o : BatchOp} {r : BatchRes o} {t : State} (ho : handleBatch o s = some (r, t)) :
    t.db.value col id = (s.db.value col id).map (· + written col id ⟨o, r, s⟩) := by
  cases o <;> cases ho
  case addNewRecord | hasRecords | swapStore => simp [written]
  case updateUser k quota usedQuota requestCount => exact value_updateUser s col id k _ _ _
  case updateToken k quota => exact value_updateToken s col id k quota
  case updateChannel k quota => exact value_updateChannel s col id k quota

def total (s : State) : ℤ :=
  (s.db.value col id).getD 0 + col.weigh (amountOf (s.stores col.store) id)

theorem weigh_add (x y : ℤ) : col.weigh (x + y) = col.weigh x + col.weigh y := by
  cases col <;> simp [Column.weigh, add_comm]

theorem total_step {o : BatchOp} {r : BatchRes o} {t : State} (ho : handleBatch o s = some (r, t))
    (hrow : (s.db.value col id).isSome) :
    total col id t = total col id s + moved col id ⟨o, r, s⟩ := by
  obtain ⟨x, hx⟩ := isSome_iff_exists.mp hrow
  have hvalue := value_step col id ho
  rw [hx, map_some] at hvalue
  rw [total, total, hvalue, hx, getD_some, getD_some]
  cases o <;> cases ho
  case addNewRecord type_ k value =>
    by_cases hstore : type_ = col.store
    · subst hstore
      by_cases hid : k = id
      · simp [written, moved, amountOf_addRecord, weigh_add, hid, add_assoc]
      · simp [written, moved, amountOf_addRecord, hid]
    · simp [written, moved, hstore, update_of_ne (Ne.symm hstore)]
  case hasRecords type_ => simp [written, moved]
  case swapStore type_ =>
    by_cases hstore : type_ = col.store
    · subst hstore
      cases col <;> simp [written, moved, Column.weigh]
    · simp [written, moved, hstore, update_of_ne (Ne.symm hstore)]
  case updateUser | updateToken | updateChannel => simp only [written, add_right_comm]

end Statements

theorem run_direct (c : Call) (s : State) : ∃ t,
    run handleBatch (c.program false) s = some (c.answer, t) ∧
      ∀ col id, t.db.value col id = (s.db.value col id).map (· + c.effect col id) := by
  cases hc : c.refused with
  | true =>
    refine ⟨s, ?_, fun col id => ?_⟩
    · rw [program_of_refused false hc]
      simp [Call.answer, hc]
    · simp [Call.effect, hc]
  | false =>
    have hanswer : c.answer = .ok () := by simp [Call.answer, hc]
    have heffect : ∀ col id, c.effect col id = c.adds col id := by simp [Call.effect, hc]
    simp only [hanswer, heffect, program_of_accepted false hc]
    cases c with
    | increaseUserQuota k quota db =>
      simp only [Call.body, Bool.and_false]
      exact ⟨_, rfl, fun col id => value_updateUser s col id k quota 0 0⟩
    | decreaseUserQuota k quota db =>
      simp only [Call.body, Bool.and_false]
      exact ⟨_, rfl, fun col id => value_updateUser s col id k (-quota) 0 0⟩
    | updateUserUsedQuotaAndRequestCount k quota =>
      exact ⟨_, rfl, fun col id => value_updateUser s col id k 0 quota 1⟩
    | increaseTokenQuota k quota =>
      exact ⟨_, rfl, fun col id => value_updateToken s col id k quota⟩
    | decreaseTokenQuota k quota =>
      exact ⟨_, rfl, fun col id => value_updateToken s col id k (-quota)⟩
    | updateChannelUsedQuota k quota =>
      exact ⟨_, rfl, fun col id => value_updateChannel s col id k quota⟩

abbrev BatchPool (ι : Type) := Pool BatchOp BatchRes (Except String Unit) State ι

section Runs

variable {ι : Type} [DecidableEq ι] [Fintype ι]

def atStart (batch : Bool) (jobs : ι → Job) (db : Tables) : BatchPool ι :=
  Pool.start ⟨db, fun _ => .empty⟩ fun i => (jobs i).program batch

def Reaches (p q : BatchPool ι) : Prop :=
  Run handleBatch (fun _ _ _ _ => True) (fun _ _ => False) p q

def Job.effect (col : Column) (id : ℤ) : Job → ℤ
  | .call c => c.effect col id
  | .flush _ => 0

def inFlush (col : Column) (id : ℤ) (past : List (Seen BatchOp BatchRes State)) : Job → ℤ
  | .call _ => 0
  | .flush _ => -posted (moved col id) past

def unflushed (jobs : ι → Job) (p : BatchPool ι) (col : Column) (id : ℤ) : ℤ :=
  col.weigh (amountOf (p.state.stores col.store) id) + ∑ i, inFlush col id (p.past i) (jobs i)

/-- A run of the same jobs in direct mode, in which the calls that have returned in the batched
run have returned, with the same answer, and no call has begun that has not there. -/
structure Alike (jobs : ι → Job) (db : Tables) (p q : BatchPool ι) : Prop where
  run : Reaches (atStart false jobs db) q
  returned : ∀ i c a, jobs i = .call c → p.result? i = some a → q.result? i = some a
  begun : ∀ i, q.past i ≠ [] → p.past i ≠ []

omit [Fintype ι] in
theorem direct_run (jobs : ι → Job) (db : Tables) (S : Finset ι)
    (hS : ∀ i ∈ S, ∃ c, jobs i = .call c) : ∃ q, Reaches (atStart false jobs db) q ∧
      (∀ i ∈ S, ∀ c, jobs i = .call c → q.thread i = .pure c.answer) ∧
      (∀ i, i ∉ S → q.thread i = (jobs i).program false ∧ q.past i = []) ∧
      ∀ col id, q.state.db.value col id =
        (db.value col id).map (· + ∑ i ∈ S, (jobs i).effect col id) := by
  induction S using Finset.induction_on with
  | empty =>
    exact ⟨_, .refl, fun i hi => absurd hi (notMem_empty i), fun i _ => ⟨rfl, rfl⟩,
      fun col id => by simp [atStart, Pool.start]⟩
  | insert i S hi ih =>
    obtain ⟨q, hrun, hdone, hrest, hvalue⟩ := ih fun j hj => hS j (mem_insert_of_mem hj)
    obtain ⟨c, hc⟩ := hS i (mem_insert_self i S)
    obtain ⟨t, ht, heffect⟩ := run_direct c q.state
    have hthread : q.thread i = c.program false := by rw [(hrest i hi).1, hc]; rfl
    rw [← hthread] at ht
    obtain ⟨q', hstep, hstate, hself, hothers⟩ := run_alone ht
    refine ⟨q', hrun.trans hstep, ?_, ?_, fun col id => ?_⟩
    · intro j hj c' hc'
      rcases mem_insert.mp hj with rfl | hj
      · cases hc.symm.trans hc'
        exact hself
      · rw [(hothers j (ne_of_mem_of_not_mem hj hi)).1]
        exact hdone j hj c' hc'
    · intro j hj
      obtain ⟨hji, hjS⟩ := not_or.mp (mt mem_insert.mpr hj)
      rw [(hothers j hji).1, (hothers j hji).2]
      exact hrest j hjS
    · rw [hstate, heffect, hvalue, Option.map_map, Finset.sum_insert hi, hc]
      congr 1
      funext x
      change x + _ + c.effect col id = x + (c.effect col id + _)
      omega

def handed (col : Column) (id : ℤ) (past : List (Seen BatchOp BatchRes State)) : Job → ℤ
  | .call _ => posted (moved col id) past
  | .flush _ => 0

variable {jobs : ι → Job} {db : Tables} {p : BatchPool ι}

omit [Fintype ι] in
theorem row_of_run (hrun : Reaches (atStart true jobs db) p) (col : Column) (id : ℤ) :
    (p.state.db.value col id).isSome = (db.value col id).isSome := by
  refine Run.invariant (fun p : BatchPool ι =>
    (p.state.db.value col id).isSome = (db.value col id).isSome) ?_ rfl hrun
  intro u v hu st
  cases st with
  | @thread i o k r s hk _ ho =>
    change (s.db.value col id).isSome = _
    rw [value_step col id ho, isSome_map, hu]
  | env he => exact he.elim

theorem value_of_run (hrun : Reaches (atStart true jobs db) p) (col : Column) (id : ℤ) :
    (p.state.db.value col id).map (· + unflushed jobs p col id) =
      (db.value col id).map (· + ∑ i, handed col id (p.past i) (jobs i)) := by
  have hrow := row_of_run hrun col id
  cases hstart : db.value col id with
  | none =>
    rw [hstart] at hrow
    have hnone : p.state.db.value col id = none :=
      isNone_iff_eq_none.mp (isSome_eq_false_iff.mp hrow)
    rw [hnone]
    rfl
  | some x =>
    rw [hstart] at hrow
    obtain ⟨y, hy⟩ := isSome_iff_exists.mp hrow
    obtain ⟨htotal, -⟩ := measure_of_run (moved col id) (total col id)
      (fun s => (s.db.value col id).isSome = true) (fun o r s t ho hs =>
        ⟨total_step col id ho hs, by rw [value_step col id ho, isSome_map, hs]⟩)
      (by simp [hstart]) hrun
    have hsplit : ∑ i, handed col id (p.past i) (jobs i) =
        ∑ i, posted (moved col id) (p.past i) + ∑ i, inFlush col id (p.past i) (jobs i) := by
      rw [← sum_add_distrib]
      refine sum_congr rfl fun i _ => ?_
      cases jobs i <;> simp [handed, inFlush]
    simp only [total, hy, hstart, getD_some, amountOf_empty] at htotal
    have hzero : col.weigh 0 = 0 := by cases col <;> rfl
    rw [hy, map_some, map_some, hsplit, unflushed, some.injEq]
    omega

open Classical in
theorem alike_of_counted (hrun : Reaches (atStart true jobs db) p) (counted : ι → Prop)
    (hcall : ∀ i, counted i → (∃ c, jobs i = .call c) ∧ p.past i ≠ [])
    (hdone : ∀ i c a, jobs i = .call c → p.thread i = .pure a → p.past i ≠ [] →
      counted i ∧ a = c.answer) :
    ∃ q, Alike jobs db p q ∧ ∀ col, (∀ i id, handed col id (p.past i) (jobs i) =
        if counted i then (jobs i).effect col id else 0) →
      ∀ id, q.state.db.value col id =
        (p.state.db.value col id).map (· + unflushed jobs p col id) := by
  obtain ⟨q, hreach, hmade, hrest, hvalue⟩ := direct_run jobs db (univ.filter counted)
    fun i hi => (hcall i (mem_filter.mp hi).2).1
  refine ⟨q, ⟨hreach, ?_, ?_⟩, ?_⟩
  · intro i c a hc ha
    rw [Pool.result?_eq_some] at ha ⊢
    by_cases hpast : p.past i = []
    · have hfollows := follows_of_run hrun i
      rw [hpast, ha, hc] at hfollows
      have hsame : c.program true = .pure a := by
        generalize hprog : (Job.call c).program true = prog at hfollows
        cases hfollows
        exact hprog
      have hrefused := refused_of_pure hsame
      have hout : i ∉ univ.filter counted :=
        fun hi => (hcall i (mem_filter.mp hi).2).2 hpast
      rw [(hrest i hout).1, hc]
      change c.program false = _
      rw [program_of_refused false hrefused, ← hsame, program_of_refused true hrefused]
    · obtain ⟨hin, rfl⟩ := hdone i c a hc ha hpast
      exact hmade i (mem_filter.mpr ⟨mem_univ i, hin⟩) c hc
  · intro i hi
    by_contra hpast
    have hout : i ∉ univ.filter counted :=
      fun hin => (hcall i (mem_filter.mp hin).2).2 hpast
    exact hi (hrest i hout).2
  · intro col hcounted id
    rw [value_of_run hrun, hvalue, sum_filter]
    simp only [hcounted]

omit [Fintype ι] in
theorem handed_of_run (hrun : Reaches (atStart true jobs db) p) {i : ι} {c : Call}
    (hc : jobs i = .call c) :
    (p.past i = [] ∧ p.thread i = c.program true) ∨
    (p.past i ≠ [] ∧ p.thread i = .pure c.answer ∧
      ∀ col id, posted (moved col id) (p.past i) = c.effect col id) ∨
    (Halfway c (p.past i) ∧ (∀ a, p.thread i ≠ .pure a) ∧ ∀ col id,
      posted (moved col id) (p.past i) = if col = .requestCount then 0 else c.effect col id) := by
  have hfollows := follows_of_run hrun i
  rw [hc] at hfollows
  exact history_of_call hfollows

/-- At every moment of every interleaving of calls and flushes, every column of every row shows,
with what is in the maps and in running flushes, the value that the same calls give in direct
mode; all columns at once where no call is between its two records; and a flush that has ended
holds nothing back. -/
theorem batched_shows_direct (jobs : ι → Job) (db : Tables) (p : BatchPool ι)
    (hrun : Reaches (atStart true jobs db) p) :
    (∀ col, ∃ q, Alike jobs db p q ∧ ∀ id, q.state.db.value col id =
      (p.state.db.value col id).map (· + unflushed jobs p col id)) ∧
    ((∀ i c, jobs i = .call c → ¬ Halfway c (p.past i)) → ∃ q, Alike jobs db p q ∧
      ∀ col id, q.state.db.value col id =
        (p.state.db.value col id).map (· + unflushed jobs p col id)) ∧
    ∀ i order a, jobs i = .flush order → p.result? i = some a →
      ∀ col id, inFlush col id (p.past i) (jobs i) = 0 := by
  classical
  refine ⟨fun col => ?_, fun hwhole => ?_, ?_⟩
  · obtain ⟨q, halike, hvalue⟩ := alike_of_counted hrun
      (fun i => (∃ c, jobs i = .call c) ∧ p.past i ≠ [] ∧
        (col = .requestCount → ∃ a, p.thread i = .pure a))
      (fun i hi => ⟨hi.1, hi.2.1⟩) (fun i c a hc ha hpast => by
        refine ⟨⟨⟨c, hc⟩, hpast, fun _ => ⟨a, ha⟩⟩, ?_⟩
        rcases handed_of_run hrun hc with ⟨hempty, -⟩ | ⟨-, hanswer, -⟩ | ⟨-, hopen, -⟩
        · exact absurd hempty hpast
        · exact Prog.pure.inj (ha.symm.trans hanswer)
        · exact absurd ha (hopen a))
    refine ⟨q, halike, hvalue col fun i id => ?_⟩
    cases hc : jobs i with
    | flush order => simp [handed]
    | call c =>
      rcases handed_of_run hrun hc with ⟨hempty, -⟩ | ⟨hpast, hanswer, hposted⟩ |
        ⟨⟨k, quota, s, -, hpast⟩, hopen, hposted⟩
      · simp [handed, hempty]
      · simp [handed, hpast, hanswer, hposted, Job.effect]
      · by_cases hcol : col = .requestCount
        · simp [handed, hposted, hcol, hopen]
        · have hbegun : p.past i ≠ [] := by simp [hpast]
          simp [handed, hposted, hcol, hbegun, Job.effect]
  · obtain ⟨q, halike, hvalue⟩ := alike_of_counted hrun
      (fun i => (∃ c, jobs i = .call c) ∧ p.past i ≠ []) (fun i hi => hi)
      (fun i c a hc ha hpast => by
        refine ⟨⟨⟨c, hc⟩, hpast⟩, ?_⟩
        rcases handed_of_run hrun hc with ⟨hempty, -⟩ | ⟨-, hanswer, -⟩ | ⟨hhalf, -, -⟩
        · exact absurd hempty hpast
        · exact Prog.pure.inj (ha.symm.trans hanswer)
        · exact absurd hhalf (hwhole i c hc))
    refine ⟨q, halike, fun col => hvalue col fun i id => ?_⟩
    cases hc : jobs i with
    | flush order => simp [handed]
    | call c =>
      rcases handed_of_run hrun hc with ⟨hempty, -⟩ | ⟨hpast, hanswer, hposted⟩ | ⟨hhalf, -, -⟩
      · simp [handed, hempty]
      · simp [handed, hpast, hposted, Job.effect]
      · exact absurd hhalf (hwhole i c hc)
  · intro i order a hjob ha col id
    have hfollows := follows_of_run hrun i
    rw [hjob, Pool.result?_eq_some.mp ha] at hfollows
    rw [hjob, inFlush, ends_batchUpdate col id order a _ hfollows, neg_zero]

/-- A charge of 30, its counters and a flush that runs between the two counters. -/
def chargeAndFlush : Fin 3 → Job
  | 0 => .call (.decreaseUserQuota 1 30 false)
  | 1 => .call (.updateUserUsedQuotaAndRequestCount 1 30)
  | 2 => .flush ⟨id, fun l => .refl l, id, fun l => .refl l⟩

def oneUser : Tables := ⟨fun id => if id = 1 then some ⟨100, 0, 0⟩ else none, fun _ => none,
  fun _ => none⟩

def playBatch : Option (BatchPool (Fin 3)) :=
  (atStart true chargeAndFlush oneUser).play handleBatch (fun (x : Empty) _ => x.elim)
    ([0, 1, 2, 2, 2, 2, 2, 2, 1, 2].map Sum.inl)

/-- After the flush the request is still in its map; with it the database shows what direct
mode gives. -/
theorem charge_and_flush_show_direct : ∃ p, playBatch = some p ∧
    p.state.db.users 1 = some ⟨70, 30, 0⟩ ∧ unflushed chargeAndFlush p .requestCount 1 = 1 ∧
    ∃ q, Alike chargeAndFlush oneUser p q ∧ q.state.db.value .requestCount 1 = some 1 := by
  have hplay : (playBatch.map fun p => decide (p.state.db.users 1 = some ⟨70, 30, 0⟩ ∧
      unflushed chargeAndFlush p .requestCount 1 = 1)) = some true := by decide +kernel
  obtain ⟨p, hplay, he⟩ := map_eq_some_iff.mp hplay
  obtain ⟨husers, hwaiting⟩ := of_decide_eq_true he
  obtain ⟨hcolumns, -⟩ := batched_shows_direct chargeAndFlush oneUser p (play_run_alone hplay)
  obtain ⟨q, halike, hvalue⟩ := hcolumns .requestCount
  refine ⟨p, hplay, husers, hwaiting, q, halike, ?_⟩
  rw [hvalue, hwaiting]
  simp [Tables.value, husers]

end Runs

end BatchUpdates
