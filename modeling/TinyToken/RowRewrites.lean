import TinyToken.ProgramHistories

/-! Operations on the rows of users and tokens that write back what they have read, next to
those that add to a column. A plain `SELECT` locks nothing, also inside a transaction (the
option `gorm:query_option` of `TransferAffQuotaToQuota` has no effect); an `UPDATE` locks its row
until the transaction ends. `Save` writes all columns, `Updates` with a struct the columns whose
new value is not zero. Cached copies are left out, and `UserRow` has the columns that are read
or changed here. -/
namespace RowRewrites

open ProgramSteps InterleavedPrograms ProgramHistories Option Function

structure UserRow where
  quota : ℤ
  affQuota : ℤ
  affCount : ℤ
  affHistoryQuota : ℤ
  role : ℤ
  status : ℤ
  setting : String

structure TokenRow where
  userId : ℤ
  status : ℤ
  expiredTime : ℤ
  remainQuota : ℤ
  usedQuota : ℤ
  unlimitedQuota : Bool

structure State where
  users : ℤ → Option UserRow
  held : ℤ → Option UserRow
  tokens : ℤ → Option TokenRow

/-- `UPDATE` with the columns of `new` that are not zero. -/
def UserRow.updates (row new : UserRow) : UserRow where
  quota := if new.quota ≠ 0 then new.quota else row.quota
  affQuota := if new.affQuota ≠ 0 then new.affQuota else row.affQuota
  affCount := if new.affCount ≠ 0 then new.affCount else row.affCount
  affHistoryQuota := if new.affHistoryQuota ≠ 0 then new.affHistoryQuota else row.affHistoryQuota
  role := if new.role ≠ 0 then new.role else row.role
  status := if new.status ≠ 0 then new.status else row.status
  setting := if new.setting ≠ "" then new.setting else row.setting

/-- The selected columns of `Token.Update`. -/
def TokenRow.updates (row new : TokenRow) : TokenRow :=
  { row with
    status := new.status
    expiredTime := new.expiredTime
    remainQuota := new.remainQuota
    unlimitedQuota := new.unlimitedQuota }

inductive RowOp where
  | selectUser (id : ℤ)
  | addUserQuota (id delta : ℤ)
  | saveUser (id : ℤ) (row : UserRow)
  | updateUser (id : ℤ) (new : UserRow)
  /-- a `Save` inside a transaction -/
  | saveInTx (id : ℤ) (row : UserRow)
  | commit (id : ℤ)
  | selectToken (id userId : ℤ)
  | addTokenQuota (id delta : ℤ)
  | updateToken (id : ℤ) (new : TokenRow)

def RowRes : RowOp → Type
  | .selectUser _ => Option UserRow
  | .selectToken _ _ => Option TokenRow
  | _ => Unit

abbrev RowProg := Prog RowOp RowRes

/-- An `UPDATE` of the row with this id, if there is one. -/
def change {R : Type} (rows : ℤ → Option R) (id : ℤ) (f : R → R) : ℤ → Option R :=
  update rows id ((rows id).map f)

def UserRow.addQuota (delta : ℤ) (row : UserRow) : UserRow := { row with quota := row.quota + delta }

def TokenRow.addQuota (delta : ℤ) (row : TokenRow) : TokenRow :=
  { row with remainQuota := row.remainQuota + delta, usedQuota := row.usedQuota - delta }

/-- A statement that writes the row of a user waits for the transaction that has locked it. -/
def unlocked (s : State) (id : ℤ) (users : ℤ → Option UserRow) : Option (Unit × State) :=
  match s.held id with
  | none => some ((), { s with users := users })
  | some _ => none

def handleRows : Handler RowOp RowRes State
  | .selectUser id, s => some (s.users id, s)
  | .addUserQuota id delta, s => unlocked s id (change s.users id (UserRow.addQuota delta))
  | .saveUser id row, s => unlocked s id (update s.users id (some row))
  | .updateUser id new, s => unlocked s id (change s.users id fun row => row.updates new)
  | .saveInTx id row, s =>
    match s.held id with
    | none => some ((), { s with held := update s.held id (some row) })
    | some _ => none
  | .commit id, s =>
    match s.held id with
    | none => none
    | some row => some ((), ⟨update s.users id (some row),
        update s.held id none, s.tokens⟩)
  | .selectToken id userId, s =>
    some ((s.tokens id).filter fun row => row.userId = userId, s)
  | .addTokenQuota id delta, s =>
    some ((), { s with tokens := change s.tokens id (TokenRow.addQuota delta) })
  | .updateToken id new, s =>
    some ((), { s with tokens := change s.tokens id fun row => row.updates new })

def selectUser (id : ℤ) : RowProg (Option UserRow) := .op (.selectUser id) .pure

def addUserQuota (id delta : ℤ) : RowProg Unit := .op (.addUserQuota id delta) .pure

def saveUser (id : ℤ) (row : UserRow) : RowProg Unit := .op (.saveUser id row) .pure

def updateUser (id : ℤ) (new : UserRow) : RowProg Unit := .op (.updateUser id new) .pure

def saveInTx (id : ℤ) (row : UserRow) : RowProg Unit := .op (.saveInTx id row) .pure

def commit (id : ℤ) : RowProg Unit := .op (.commit id) .pure

def selectToken (id userId : ℤ) : RowProg (Option TokenRow) := .op (.selectToken id userId) .pure

def addTokenQuota (id delta : ℤ) : RowProg Unit := .op (.addTokenQuota id delta) .pure

def updateToken (id : ℤ) (new : TokenRow) : RowProg Unit := .op (.updateToken id new) .pure

structure Settings where
  quotaForInviter : ℤ
  quotaPerUnit : ℚ
  formatQuota : ℤ → String
  timestamp : ℤ

def increaseUserQuota (id quota : ℤ) : RowProg (Except String Unit) :=
  if quota < 0 then pure (.error "quota 不能为负数！")
  else do
    addUserQuota id quota
    pure (.ok ())

def decreaseUserQuota (id quota : ℤ) : RowProg (Except String Unit) :=
  if quota < 0 then pure (.error "quota 不能为负数！")
  else do
    addUserQuota id (-quota)
    pure (.ok ())

def getUserById (id : ℤ) : RowProg (Except String UserRow) :=
  if id = 0 then pure (.error "id 为空！")
  else do
    match ← selectUser id with
    | none => pure (.error "record not found")
    | some user => pure (.ok user)

variable (cfg : Settings)

def inviteUser (inviterId : ℤ) : RowProg (Except String Unit) := do
  match ← getUserById inviterId with
  | .error e => pure (.error e)
  | .ok user =>
    saveUser inviterId { user with
      affCount := user.affCount + 1
      affQuota := user.affQuota + cfg.quotaForInviter
      affHistoryQuota := user.affHistoryQuota + cfg.quotaForInviter }
    pure (.ok ())

def transferAffQuotaToQuota (id quota : ℤ) : RowProg (Except String Unit) :=
  if (quota : ℚ) < cfg.quotaPerUnit then
    pure (.error ("转移额度最小为" ++ cfg.formatQuota ⌊cfg.quotaPerUnit⌋ ++ "！"))
  else do
    match ← selectUser id with
    | none => pure (.error "record not found")
    | some user =>
      if user.affQuota < quota then pure (.error "邀请额度不足！")
      else do
        saveInTx id { user with affQuota := user.affQuota - quota, quota := user.quota + quota }
        commit id
        pure (.ok ())

/-- `User.Update`: the row is read again, but what is written comes from the caller. -/
def update (id : ℤ) (newUser : UserRow) : RowProg (Except String Unit) := do
  let _ ← selectUser id
  updateUser id newUser
  pure (.ok ())

/-- `UpdateSelf` for the sidebar or the language. -/
def updateSelf (id : ℤ) (edit : String → String) : RowProg (Except String Unit) := do
  match ← getUserById id with
  | .error e => pure (.error e)
  | .ok user => update id { user with setting := edit user.setting }

def roleCommonUser : ℤ := 1

def roleAdminUser : ℤ := 10

def roleRootUser : ℤ := 100

def userStatusEnabled : ℤ := 1

def userStatusDisabled : ℤ := 2

inductive ManageAction where
  | enable | disable | promote | demote

def canManageTargetRole (myRole targetRole : ℤ) : Prop := myRole = roleRootUser ∨ myRole > targetRole

instance (myRole targetRole : ℤ) : Decidable (canManageTargetRole myRole targetRole) :=
  inferInstanceAs (Decidable (_ ∨ _))

def ManageAction.apply (myRole : ℤ) (user : UserRow) : ManageAction → Except String UserRow
  | .disable =>
    if user.role = roleRootUser then .error "user.cannot_disable_root_user"
    else .ok { user with status := userStatusDisabled }
  | .enable => .ok { user with status := userStatusEnabled }
  | .promote =>
    if myRole ≠ roleRootUser then .error "user.admin_cannot_promote"
    else if user.role ≥ roleAdminUser then .error "user.already_admin"
    else .ok { user with role := roleAdminUser }
  | .demote =>
    if user.role = roleRootUser then .error "user.cannot_demote_root_user"
    else if user.role = roleCommonUser then .error "user.already_common"
    else .ok { user with role := roleCommonUser }

/-- `ManageUser` on the row with this id. -/
def manageUser (id myRole : ℤ) (action : ManageAction) : RowProg (Except String Unit) := do
  match ← selectUser id with
  | none => pure (.error "user.not_exists")
  | some user =>
    if canManageTargetRole myRole user.role then
      match action.apply myRole user with
      | .error e => pure (.error e)
      | .ok user => update id user
    else pure (.error "user.no_permission_higher_level")

def increaseTokenQuota (id quota : ℤ) : RowProg (Except String Unit) :=
  if quota < 0 then pure (.error "quota 不能为负数！")
  else do
    addTokenQuota id quota
    pure (.ok ())

def decreaseTokenQuota (id quota : ℤ) : RowProg (Except String Unit) :=
  if quota < 0 then pure (.error "quota 不能为负数！")
  else do
    addTokenQuota id (-quota)
    pure (.ok ())

def tokenStatusEnabled : ℤ := 1

def tokenStatusExpired : ℤ := 3

def tokenStatusExhausted : ℤ := 4

structure TokenRequest where
  id : ℤ
  nameLength : ℕ
  status : ℤ
  remainQuota : ℤ
  unlimitedQuota : Bool

def checkTokenRequest (req : TokenRequest) : Except String Unit :=
  if req.nameLength > 50 then .error "token.name_too_long"
  else if req.unlimitedQuota = false ∧ req.remainQuota < 0 then .error "token.quota_negative"
  else if req.unlimitedQuota = false ∧ req.remainQuota > ⌊1000000000 * cfg.quotaPerUnit⌋ then
    .error "token.quota_exceed_max"
  else .ok ()

def checkEnable (req : TokenRequest) (row : TokenRow) : Except String Unit :=
  if req.status = tokenStatusEnabled then
    if row.status = tokenStatusExpired ∧ row.expiredTime ≤ cfg.timestamp ∧ row.expiredTime ≠ -1 then
      .error "token.expired_cannot_enable"
    else if row.status = tokenStatusExhausted ∧ row.remainQuota ≤ 0 ∧ row.unlimitedQuota = false then
      .error "token.exhausted_cannot_enable"
    else .ok ()
  else .ok ()

def getTokenByIds (id userId : ℤ) : RowProg (Except String TokenRow) :=
  if id = 0 ∨ userId = 0 then pure (.error "id 或 userId 为空！")
  else do
    match ← selectToken id userId with
    | none => pure (.error "record not found")
    | some row => pure (.ok row)

/-- `UpdateToken` with `status_only`; `Token.Update` writes the remaining quota all the same. -/
def updateTokenStatus (userId : ℤ) (req : TokenRequest) : RowProg (Except String Unit) :=
  match checkTokenRequest cfg req with
  | .error e => pure (.error e)
  | .ok _ => do
    match ← getTokenByIds req.id userId with
    | .error e => pure (.error e)
    | .ok row =>
      match checkEnable cfg req row with
      | .error e => pure (.error e)
      | .ok _ => do
        updateToken req.id { row with status := req.status }
        pure (.ok ())

inductive Job where
  | increaseUserQuota (id quota : ℤ)
  | decreaseUserQuota (id quota : ℤ)
  | inviteUser (inviterId : ℤ)
  | transferAffQuotaToQuota (id quota : ℤ)
  | updateSelf (id : ℤ) (edit : String → String)
  | manageUser (id myRole : ℤ) (action : ManageAction)
  | increaseTokenQuota (id quota : ℤ)
  | decreaseTokenQuota (id quota : ℤ)
  | updateTokenStatus (userId : ℤ) (req : TokenRequest)

def Job.program : Job → RowProg (Except String Unit)
  | .increaseUserQuota id quota => RowRewrites.increaseUserQuota id quota
  | .decreaseUserQuota id quota => RowRewrites.decreaseUserQuota id quota
  | .inviteUser inviterId => RowRewrites.inviteUser cfg inviterId
  | .transferAffQuotaToQuota id quota => RowRewrites.transferAffQuotaToQuota cfg id quota
  | .updateSelf id edit => RowRewrites.updateSelf id edit
  | .manageUser id myRole action => RowRewrites.manageUser id myRole action
  | .increaseTokenQuota id quota => RowRewrites.increaseTokenQuota id quota
  | .decreaseTokenQuota id quota => RowRewrites.decreaseTokenQuota id quota
  | .updateTokenStatus userId req => RowRewrites.updateTokenStatus cfg userId req

def UserRow.total (row : UserRow) : ℤ := row.quota + row.affQuota

/-- Quota and invitation quota of a user, as they will be after the open transaction. -/
def userTotal (id : ℤ) (s : State) : ℤ := (((s.held id).or (s.users id)).map UserRow.total).getD 0

def tokenRemain (id : ℤ) (s : State) : ℤ := ((s.tokens id).map TokenRow.remainQuota).getD 0

def lockCount (id : ℤ) (s : State) : ℤ := if (s.held id).isSome then 1 else 0

def userAmount (id : ℤ) : Seen RowOp RowRes State → ℤ
  | ⟨.addUserQuota k delta, _, _⟩ => if k = id then delta else 0
  | ⟨.saveUser k row, _, s⟩ => if k = id then row.total - userTotal id s else 0
  | ⟨.updateUser k new, _, s⟩ => if k = id then
      (((s.users id).map fun row => (row.updates new).total).getD 0) - userTotal id s else 0
  | ⟨.saveInTx k row, _, s⟩ => if k = id then row.total - userTotal id s else 0
  | _ => 0

def lockAmount (id : ℤ) : Seen RowOp RowRes State → ℤ
  | ⟨.saveInTx k _, _, _⟩ => if k = id then 1 else 0
  | ⟨.commit k, _, _⟩ => if k = id then -1 else 0
  | _ => 0

def tokenAmount (id : ℤ) : Seen RowOp RowRes State → ℤ
  | ⟨.addTokenQuota k delta, _, _⟩ => if k = id then delta else 0
  | ⟨.updateToken k new, _, s⟩ => if k = id then new.remainQuota - tokenRemain id s else 0
  | _ => 0

def userCredit (id : ℤ) : Job → Except String Unit → ℤ
  | .increaseUserQuota k quota, .ok _ => if k = id then quota else 0
  | .decreaseUserQuota k quota, .ok _ => if k = id then -quota else 0
  | .inviteUser k, .ok _ => if k = id then cfg.quotaForInviter else 0
  | _, _ => 0

def tokenCredit (id : ℤ) : Job → Except String Unit → ℤ
  | .increaseTokenQuota k quota, .ok _ => if k = id then quota else 0
  | .decreaseTokenQuota k quota, .ok _ => if k = id then -quota else 0
  | _, _ => 0

def firstRead (id : ℤ) : List (Seen RowOp RowRes State) → Option UserRow
  | [] => none
  | ⟨.selectUser k, row, _⟩ :: rest => if k = id then row else firstRead id rest
  | _ :: rest => firstRead id rest

def firstTokenRead (id : ℤ) : List (Seen RowOp RowRes State) → Option TokenRow
  | [] => none
  | ⟨.selectToken k _, row, _⟩ :: rest => if k = id then row else firstTokenRead id rest
  | _ :: rest => firstTokenRead id rest

def Fresh (past : List (Seen RowOp RowRes State)) (o : RowOp) (s : State) : Prop :=
  match o with
  | .saveUser id _ => ∀ row, firstRead id past = some row → ∃ now, s.users id = some now ∧
      now.quota = row.quota ∧ now.affQuota = row.affQuota
  | .saveInTx id _ => ∀ row, firstRead id past = some row → ∃ now, s.users id = some now ∧
      now.quota = row.quota ∧ now.affQuota = row.affQuota
  | .updateUser id _ => ∀ row, firstRead id past = some row → ∃ now, s.users id = some now ∧
      (row.quota ≠ 0 → now.quota = row.quota) ∧ (row.affQuota ≠ 0 → now.affQuota = row.affQuota)
  | .updateToken id _ => ∀ row, firstTokenRead id past = some row → ∃ now,
      s.tokens id = some now ∧ now.remainQuota = row.remainQuota
  | _ => True

instance (past : List (Seen RowOp RowRes State)) (o : RowOp) (s : State) :
    Decidable (Fresh past o s) :=
  match o with
  | .saveUser _ _ | .saveInTx _ _ | .updateUser _ _ => inferInstanceAs (Decidable
      (∀ row, _ = some row → ∃ now, _ = some now ∧ _ ∧ _))
  | .updateToken _ _ => inferInstanceAs (Decidable
      (∀ row, _ = some row → ∃ now, _ = some now ∧ _))
  | .selectUser _ | .addUserQuota _ _ | .commit _ | .selectToken _ _ | .addTokenQuota _ _ =>
    .isTrue trivial

section Steps

variable {s t : State} {id : ℤ} {o : RowOp} {r : RowRes o}

theorem unlocked_cases {k : ℤ} {users : ℤ → Option UserRow} {r : Unit}
    (h : unlocked s k users = some (r, t)) : s.held k = none ∧ t = { s with users := users } := by
  unfold unlocked at h
  split at h
  next hheld =>
    cases h
    exact ⟨hheld, rfl⟩
  · cases h

theorem userTotal_of_row {row : UserRow} (hheld : s.held id = none) (hrow : s.users id = some row) :
    userTotal id s = row.total := by
  rw [userTotal, hheld, hrow]
  rfl

theorem total_addQuota (row : UserRow) (delta : ℤ) :
    (row.addQuota delta).total = row.total + delta := by
  simp only [UserRow.total, UserRow.addQuota]
  omega

theorem change_self {R : Type} {rows : ℤ → Option R} {row : R} (f : R → R) (h : rows id = some row) :
    change rows id f id = some (f row) := by simp [change, h]

theorem change_of_ne {R : Type} {rows : ℤ → Option R} {k : ℤ} (f : R → R) (h : k ≠ id) :
    change rows k f id = rows id := update_of_ne (Ne.symm h) _ _

theorem unlocked_step {k : ℤ} {users : ℤ → Option UserRow} {row new : UserRow} {r : Unit}
    (h : unlocked s k users = some (r, t)) (hrow : s.users id = some row)
    (hnew : k = id → users id = some new) (hother : k ≠ id → users id = s.users id) :
    userTotal id t = userTotal id s + (if k = id then new.total - userTotal id s else 0) ∧
      (t.users id).isSome ∧ (k = id → userTotal id s = row.total) := by
  obtain ⟨hheld, rfl⟩ := unlocked_cases h
  by_cases hid : k = id
  · subst hid
    have htotal : userTotal k { s with users := users } = new.total :=
      userTotal_of_row hheld (hnew rfl)
    refine ⟨?_, isSome_of_eq_some (hnew rfl), fun _ => userTotal_of_row hheld hrow⟩
    rw [htotal, if_pos rfl]
    omega
  · refine ⟨?_, ?_, fun h => absurd h hid⟩
    · rw [if_neg hid, add_zero, userTotal, userTotal]
      change getD (((s.held id).or (users id)).map _) 0 = _
      rw [hother hid]
    · change (users id).isSome
      rw [hother hid, hrow]
      rfl

theorem userTotal_step (ho : handleRows o s = some (r, t)) (hrow : (s.users id).isSome) :
    userTotal id t = userTotal id s + userAmount id ⟨o, r, s⟩ ∧ (t.users id).isSome := by
  obtain ⟨row, hrow⟩ := isSome_iff_exists.mp hrow
  have hsome : (s.users id).isSome := isSome_of_eq_some hrow
  cases o with
  | selectUser k | selectToken k userId | addTokenQuota k delta | updateToken k new =>
    cases ho
    exact ⟨(add_zero _).symm, hsome⟩
  | addUserQuota k delta =>
    obtain ⟨htotal, hkeep, hread⟩ := unlocked_step ho hrow
      (fun hid => by subst hid; exact change_self _ hrow) fun hid => change_of_ne _ hid
    refine ⟨htotal.trans ?_, hkeep⟩
    change _ = _ + if k = id then delta else 0
    by_cases hid : k = id
    · rw [if_pos hid, if_pos hid, hread hid, total_addQuota]
      omega
    · rw [if_neg hid, if_neg hid]
  | saveUser k new =>
    obtain ⟨htotal, hkeep, -⟩ := unlocked_step ho hrow
      (fun hid => by subst hid; exact update_self _ _ _)
      fun hid => update_of_ne (Ne.symm hid) _ _
    exact ⟨htotal, hkeep⟩
  | updateUser k new =>
    obtain ⟨htotal, hkeep, -⟩ := unlocked_step ho hrow
      (fun hid => by subst hid; exact change_self _ hrow) fun hid => change_of_ne _ hid
    refine ⟨htotal.trans ?_, hkeep⟩
    change _ = _ + if k = id then _ - userTotal id s else 0
    rw [hrow]
    rfl
  | saveInTx k new =>
    simp only [handleRows] at ho
    split at ho
    · cases ho
      refine ⟨?_, hsome⟩
      change (((Function.update s.held k (some new) id).or (s.users id)).map UserRow.total).getD 0 =
        _ + if k = id then new.total - userTotal id s else 0
      by_cases hid : k = id
      · subst hid
        rw [if_pos rfl, update_self]
        change new.total = _
        omega
      · rw [if_neg hid, add_zero, update_of_ne (Ne.symm hid)]
        rfl
    · cases ho
  | commit k =>
    simp only [handleRows] at ho
    split at ho
    · cases ho
    next new hheld =>
      cases ho
      by_cases hid : id = k
      · subst hid
        refine ⟨?_, by simp⟩
        change Option.getD (Option.map UserRow.total _) 0 = userTotal id s + 0
        simp [userTotal, hheld]
      · refine ⟨?_, by simp [update_of_ne hid, hrow]⟩
        change Option.getD (Option.map UserRow.total _) 0 = userTotal id s + 0
        simp [userTotal, update_of_ne hid]

theorem lockCount_step (ho : handleRows o s = some (r, t)) :
    lockCount id t = lockCount id s + lockAmount id ⟨o, r, s⟩ := by
  cases o with
  | addUserQuota k delta | saveUser k new | updateUser k new =>
    obtain ⟨-, rfl⟩ := unlocked_cases ho
    exact (add_zero _).symm
  | saveInTx k new =>
    simp only [handleRows] at ho
    split at ho
    next hheld =>
      cases ho
      by_cases hid : id = k
      · subst hid
        simp [lockCount, lockAmount, hheld]
      · simp [lockCount, lockAmount, update_of_ne hid, Ne.symm hid]
    · cases ho
  | commit k =>
    simp only [handleRows] at ho
    split at ho
    · cases ho
    next new hheld =>
      cases ho
      by_cases hid : id = k
      · subst hid
        simp [lockCount, lockAmount, hheld]
      · simp [lockCount, lockAmount, update_of_ne hid, Ne.symm hid]
  | selectUser k | selectToken k userId | addTokenQuota k delta | updateToken k new =>
    cases ho
    exact (add_zero _).symm

theorem tokenRemain_step (ho : handleRows o s = some (r, t)) (hrow : (s.tokens id).isSome) :
    tokenRemain id t = tokenRemain id s + tokenAmount id ⟨o, r, s⟩ ∧ (t.tokens id).isSome := by
  obtain ⟨row, hrow'⟩ := isSome_iff_exists.mp hrow
  cases o with
  | addUserQuota k delta | saveUser k new | updateUser k new =>
    obtain ⟨-, rfl⟩ := unlocked_cases ho
    exact ⟨(add_zero _).symm, hrow⟩
  | saveInTx k new | commit k =>
    simp only [handleRows] at ho
    split at ho <;> cases ho
    exact ⟨(add_zero _).symm, hrow⟩
  | addTokenQuota k delta =>
    cases ho
    by_cases hid : k = id
    · subst hid
      simp [tokenRemain, tokenAmount, change_self _ hrow', hrow', TokenRow.addQuota]
    · simp [tokenRemain, tokenAmount, change_of_ne _ hid, hid, hrow']
  | updateToken k new =>
    cases ho
    by_cases hid : k = id
    · subst hid
      simp [tokenRemain, tokenAmount, change_self _ hrow', hrow', TokenRow.updates]
    · simp [tokenRemain, tokenAmount, change_of_ne _ hid, hid, hrow']
  | selectUser k | selectToken k userId =>
    cases ho
    exact ⟨(add_zero _).symm, hrow⟩

end Steps

structure Settles (cfg : Settings) (j : Job) (a : Except String Unit)
    (past : List (Seen RowOp RowRes State)) : Prop where
  user : ∀ id, posted (userAmount id) past = userCredit cfg id j a
  lock : ∀ id, posted (lockAmount id) past = 0
  token : ∀ id, posted (tokenAmount id) past = tokenCredit id j a

/-- Every complete history of the job settles it, where all its writes are fresh. -/
def Sound (j : Job) : Prop :=
  Ends handleRows (j.program cfg) fun a past => Permitted Fresh past → Settles cfg j a past

section Jobs

variable {cfg : Settings} {s t : State} {past : List (Seen RowOp RowRes State)}

variable {j : Job} {k : ℤ} {row new : UserRow} {r : Unit}

theorem userTotal_of_fresh {row now : UserRow} (hheld : s.held k = none)
    (hnow : s.users k = some now) (hquota : now.quota = row.quota)
    (haff : now.affQuota = row.affQuota) : userTotal k s = row.total := by
  rw [userTotal_of_row hheld hnow, UserRow.total, UserRow.total, hquota, haff]

theorem saveUser_amount (ho : handleRows (.saveUser k new) s = some (r, t))
    (hfresh : Fresh past (.saveUser k new) s) (hread : firstRead k past = some row) (id : ℤ) :
    userAmount id ⟨.saveUser k new, r, s⟩ = if k = id then new.total - row.total else 0 := by
  obtain ⟨now, hnow, hquota, haff⟩ := hfresh row hread
  obtain ⟨hheld, -⟩ := unlocked_cases ho
  change (if k = id then new.total - userTotal id s else 0) = _
  by_cases hid : k = id
  · subst hid
    rw [userTotal_of_fresh hheld hnow hquota haff]
  · rw [if_neg hid, if_neg hid]

theorem saveInTx_amount (ho : handleRows (.saveInTx k new) s = some (r, t))
    (hfresh : Fresh past (.saveInTx k new) s) (hread : firstRead k past = some row) (id : ℤ) :
    userAmount id ⟨.saveInTx k new, r, s⟩ = if k = id then new.total - row.total else 0 := by
  obtain ⟨now, hnow, hquota, haff⟩ := hfresh row hread
  have hheld : s.held k = none := by
    simp only [handleRows] at ho
    split at ho
    · assumption
    · cases ho
  change (if k = id then new.total - userTotal id s else 0) = _
  by_cases hid : k = id
  · subst hid
    rw [userTotal_of_fresh hheld hnow hquota haff]
  · rw [if_neg hid, if_neg hid]

theorem updateUser_amount (ho : handleRows (.updateUser k new) s = some (r, t))
    (hfresh : Fresh past (.updateUser k new) s) (hread : firstRead k past = some row)
    (hquota : new.quota = row.quota) (haff : new.affQuota = row.affQuota) (id : ℤ) :
    userAmount id ⟨.updateUser k new, r, s⟩ = 0 := by
  obtain ⟨now, hnow, hnowQuota, hnowAff⟩ := hfresh row hread
  obtain ⟨hheld, -⟩ := unlocked_cases ho
  have hsame : (now.updates new).total = now.total := by
    simp only [UserRow.updates, UserRow.total, hquota, haff]
    by_cases hq : row.quota = 0 <;> by_cases ha : row.affQuota = 0 <;> simp [hq, ha, hnowQuota, hnowAff]
  change (if k = id then _ - userTotal id s else 0) = 0
  by_cases hid : k = id
  · subst hid
    rw [if_pos rfl, hnow, userTotal_of_row hheld hnow]
    change (now.updates new).total - now.total = 0
    omega
  · rw [if_neg hid]

theorem settles_error (j : Job) (e : String) : Settles cfg j (.error e) [] := by
  cases j <;> exact ⟨fun _ => rfl, fun _ => rfl, fun _ => rfl⟩

theorem sound_addition {quota : ℤ} {e : String} {o : RowOp}
    (hprog : j.program cfg = if quota < 0 then pure (.error e) else .op o fun _ => pure (.ok ()))
    (hadds : ∀ r s, Settles cfg j (.ok ()) [⟨o, r, s⟩]) : Sound cfg j := by
  unfold Sound
  rw [hprog]
  split
  · exact ends_pure.mpr fun _ => settles_error j e
  · exact ends_op.mpr fun r s t ho => ends_pure.mpr fun _ => hadds r s

theorem settles_userAddition {k delta : ℤ}
    (huser : ∀ id, userCredit cfg id j (.ok ()) = if k = id then delta else 0)
    (htoken : ∀ id, tokenCredit id j (.ok ()) = 0) (r : Unit) (s : State) :
    Settles cfg j (.ok ()) [⟨.addUserQuota k delta, r, s⟩] :=
  ⟨fun id => by simp [userAmount, huser], fun id => by simp [lockAmount],
    fun id => by simp [tokenAmount, htoken]⟩

theorem settles_tokenAddition {k delta : ℤ} (huser : ∀ id, userCredit cfg id j (.ok ()) = 0)
    (htoken : ∀ id, tokenCredit id j (.ok ()) = if k = id then delta else 0) (r : Unit)
    (s : State) :
    Settles cfg j (.ok ()) [⟨.addTokenQuota k delta, r, s⟩] :=
  ⟨fun id => by simp [userAmount, huser], fun id => by simp [lockAmount],
    fun id => by simp [tokenAmount, htoken]⟩

theorem sound_inviteUser (k : ℤ) : Sound cfg (.inviteUser k) := by
  unfold Sound
  simp only [Job.program, inviteUser, getUserById]
  split
  · exact ends_pure.mpr fun _ => ⟨fun _ => rfl, fun _ => rfl, fun _ => rfl⟩
  refine ends_op.mpr fun (found : Option UserRow) s t ho => ?_
  cases found with
  | none => exact ends_pure.mpr fun _ => ⟨fun _ => rfl, fun _ => rfl, fun _ => rfl⟩
  | some user =>
    refine ends_op.mpr fun r s' t' ho' => ends_pure.mpr fun hfresh => ?_
    have hwrite := saveUser_amount ho' (hfresh [_] _ [] rfl) (if_pos rfl)
    refine ⟨fun id => ?_, fun id => by simp [lockAmount], fun id => by simp [tokenAmount, tokenCredit]⟩
    simp only [posted_cons, posted_nil, hwrite]
    simp only [userAmount, userCredit, UserRow.total]
    split <;> omega

theorem sound_transferAffQuotaToQuota (k quota : ℤ) :
    Sound cfg (.transferAffQuotaToQuota k quota) := by
  unfold Sound
  simp only [Job.program, transferAffQuotaToQuota]
  split
  · exact ends_pure.mpr fun _ => ⟨fun _ => rfl, fun _ => rfl, fun _ => rfl⟩
  refine ends_op.mpr fun (found : Option UserRow) s t ho => ?_
  cases found with
  | none => exact ends_pure.mpr fun _ => ⟨fun _ => rfl, fun _ => rfl, fun _ => rfl⟩
  | some user =>
    change Ends handleRows (if user.affQuota < quota then _ else _) _
    split
    · exact ends_pure.mpr fun _ => ⟨fun _ => rfl, fun _ => rfl, fun _ => rfl⟩
    refine ends_op.mpr fun r s' t' ho' => ends_op.mpr fun r' s'' t'' ho'' =>
      ends_pure.mpr fun hfresh => ?_
    have hwrite := saveInTx_amount ho' (hfresh [_] _ [_] rfl) (if_pos rfl)
    refine ⟨fun id => ?_, fun id => ?_, fun id => by simp [tokenAmount, tokenCredit]⟩
    · simp only [posted_cons, posted_nil, hwrite]
      simp only [userAmount, userCredit, UserRow.total]
      split <;> omega
    · simp only [posted_cons, posted_nil, lockAmount]
      split <;> rfl

theorem firstRead_self {j k : ℤ} {row : Option UserRow} (hj : j = k)
    (later : List (Seen RowOp RowRes State)) :
    firstRead k (⟨.selectUser j, row, s⟩ :: later) = row := if_pos hj

theorem firstRead_other {j k : ℤ} {row : Option UserRow} (hj : j ≠ k)
    (later : List (Seen RowOp RowRes State)) :
    firstRead k (⟨.selectUser j, row, s⟩ :: later) = firstRead k later := if_neg hj

theorem firstRead_append {row : UserRow} (h : firstRead k past = some row)
    (later : List (Seen RowOp RowRes State)) : firstRead k (past ++ later) = some row := by
  induction past with
  | nil => cases h
  | cons e past ih =>
    obtain ⟨o, r, s⟩ := e
    cases o with
    | selectUser j =>
      by_cases hj : j = k
      · exact (firstRead_self hj _).trans ((firstRead_self hj _).symm.trans h)
      · exact (firstRead_other hj _).trans (ih ((firstRead_other hj _).symm.trans h))
    | _ => exact ih h

theorem ends_update (past : List (Seen RowOp RowRes State)) (new : UserRow) {k : ℤ} {row : UserRow}
    (hread : firstRead k past = some row) (hquota : new.quota = row.quota)
    (haff : new.affQuota = row.affQuota) :
    Ends handleRows (update k new) fun _ later => Permitted Fresh (past ++ later) →
      ∀ id, posted (userAmount id) later = 0 ∧ posted (lockAmount id) later = 0 ∧
        posted (tokenAmount id) later = 0 := by
  refine ends_op.mpr fun again s t ho => ends_op.mpr fun r s' t' ho' =>
    ends_pure.mpr fun hfresh id => ?_
  have hallowed := hfresh (past ++ [⟨.selectUser k, again, s⟩]) ⟨.updateUser k new, r, s'⟩ []
    (by simp)
  have hwrite := updateUser_amount ho' hallowed (firstRead_append hread _) hquota haff id
  refine ⟨?_, by simp [lockAmount], by simp [tokenAmount]⟩
  rw [posted_cons, posted_cons, posted_nil, hwrite]
  rfl

theorem settles_read {a : Except String Unit} {found : Option UserRow}
    {later : List (Seen RowOp RowRes State)} (huser : ∀ id, userCredit cfg id j a = 0)
    (htoken : ∀ id, tokenCredit id j a = 0)
    (hlater : ∀ id, posted (userAmount id) later = 0 ∧ posted (lockAmount id) later = 0 ∧
      posted (tokenAmount id) later = 0) :
    Settles cfg j a (⟨.selectUser k, found, s⟩ :: later) := by
  refine ⟨fun id => ?_, fun id => ?_, fun id => ?_⟩
  · rw [posted_cons, (hlater id).1, huser]
    rfl
  · rw [posted_cons, (hlater id).2.1]
    rfl
  · rw [posted_cons, (hlater id).2.2, htoken]
    rfl

theorem sound_updateSelf (k : ℤ) (edit : String → String) : Sound cfg (.updateSelf k edit) := by
  unfold Sound
  simp only [Job.program, updateSelf, getUserById]
  split
  · exact ends_pure.mpr fun _ => ⟨fun _ => rfl, fun _ => rfl, fun _ => rfl⟩
  refine ends_op.mpr fun (found : Option UserRow) s t ho => ?_
  cases found with
  | none => exact ends_pure.mpr fun _ => ⟨fun _ => rfl, fun _ => rfl, fun _ => rfl⟩
  | some user =>
    have hrest := ends_update [⟨.selectUser k, some user, s⟩]
      { user with setting := edit user.setting } (if_pos rfl) rfl rfl
    refine hrest.mono fun a later hlater hfresh => ?_
    exact settles_read (fun _ => rfl) (fun _ => rfl) (hlater hfresh)

theorem apply_quota {action : ManageAction} {myRole : ℤ} {user new : UserRow}
    (h : action.apply myRole user = .ok new) :
    new.quota = user.quota ∧ new.affQuota = user.affQuota := by
  cases action <;> simp only [ManageAction.apply] at h
  case enable =>
    cases h
    exact ⟨rfl, rfl⟩
  case disable =>
    split at h <;> cases h
    exact ⟨rfl, rfl⟩
  case promote | demote =>
    split at h
    · cases h
    split at h <;> cases h
    exact ⟨rfl, rfl⟩

theorem sound_manageUser (k myRole : ℤ) (action : ManageAction) :
    Sound cfg (.manageUser k myRole action) := by
  unfold Sound
  simp only [Job.program, manageUser]
  refine ends_op.mpr fun (found : Option UserRow) s t ho => ?_
  cases found with
  | none => exact ends_pure.mpr fun _ => ⟨fun _ => rfl, fun _ => rfl, fun _ => rfl⟩
  | some user =>
    change Ends handleRows (if canManageTargetRole myRole user.role then _ else _) _
    split
    · cases happly : action.apply myRole user with
      | error e => exact ends_pure.mpr fun _ => ⟨fun _ => rfl, fun _ => rfl, fun _ => rfl⟩
      | ok new =>
        obtain ⟨hquota, haff⟩ := apply_quota happly
        have hrest := ends_update [⟨.selectUser k, some user, s⟩] new (if_pos rfl) hquota haff
        refine hrest.mono fun a later hlater hfresh => ?_
        exact settles_read (fun _ => rfl) (fun _ => rfl) (hlater hfresh)
    · exact ends_pure.mpr fun _ => ⟨fun _ => rfl, fun _ => rfl, fun _ => rfl⟩

theorem sound_updateTokenStatus (userId : ℤ) (req : TokenRequest) :
    Sound cfg (.updateTokenStatus userId req) := by
  unfold Sound
  simp only [Job.program, updateTokenStatus]
  split
  · exact ends_pure.mpr fun _ => ⟨fun _ => rfl, fun _ => rfl, fun _ => rfl⟩
  unfold getTokenByIds
  split
  · exact ends_pure.mpr fun _ => ⟨fun _ => rfl, fun _ => rfl, fun _ => rfl⟩
  refine ends_op.mpr fun (found : Option TokenRow) s t ho => ?_
  cases found with
  | none => exact ends_pure.mpr fun _ => ⟨fun _ => rfl, fun _ => rfl, fun _ => rfl⟩
  | some row =>
    change Ends handleRows (match checkEnable cfg req row with
      | .error e => (pure (.error e) : RowProg (Except String Unit))
      | .ok _ => updateToken req.id { row with status := req.status } >>= fun _ => pure (.ok ())) _
    split
    · exact ends_pure.mpr fun _ => ⟨fun _ => rfl, fun _ => rfl, fun _ => rfl⟩
    · refine ends_op.mpr fun r s' t' ho' => ends_pure.mpr fun hfresh => ?_
      obtain ⟨now, hnow, hremain⟩ := hfresh [_] _ [] rfl row (if_pos rfl)
      refine ⟨fun id => by simp [userAmount, userCredit], fun id => by simp [lockAmount],
        fun id => ?_⟩
      simp only [posted_cons, posted_nil, tokenAmount, tokenCredit]
      by_cases hid : req.id = id
      · subst hid
        rw [if_pos rfl, tokenRemain, hnow]
        change 0 + (row.remainQuota - now.remainQuota + 0) = 0
        omega
      · simp [hid]

theorem sound_job (j : Job) : Sound cfg j := by
  cases j with
  | increaseUserQuota id quota | decreaseUserQuota id quota =>
    exact sound_addition rfl (settles_userAddition (fun _ => rfl) fun _ => rfl)
  | inviteUser inviterId => exact sound_inviteUser inviterId
  | transferAffQuotaToQuota id quota => exact sound_transferAffQuotaToQuota id quota
  | updateSelf id edit => exact sound_updateSelf id edit
  | manageUser id myRole action => exact sound_manageUser id myRole action
  | increaseTokenQuota id quota | decreaseTokenQuota id quota =>
    exact sound_addition rfl (settles_tokenAddition (fun _ => rfl) fun _ => rfl)
  | updateTokenStatus userId req => exact sound_updateTokenStatus userId req

end Jobs

abbrev RowPool (ι : Type) := Pool RowOp RowRes (Except String Unit) State ι

section Runs

variable {ι : Type} [DecidableEq ι] [Fintype ι]

def atStart (cfg : Settings) (jobs : ι → Job) (users : ℤ → Option UserRow)
    (tokens : ℤ → Option TokenRow) : RowPool ι :=
  Pool.start ⟨users, fun _ => none, tokens⟩ fun i => (jobs i).program cfg

/-- Runs in which every statement that writes back what was read finds it unchanged. -/
def FreshRun (p q : RowPool ι) : Prop :=
  Run handleRows (fun _ => Fresh) (fun _ _ => False) p q

def credits (f : Job → Except String Unit → ℤ) (jobs : ι → Job) (p : RowPool ι) : ℤ :=
  ∑ i, ((p.result? i).map (f (jobs i))).getD 0

variable {cfg : Settings} {jobs : ι → Job} {users : ℤ → Option UserRow}
  {tokens : ℤ → Option TokenRow} {p : RowPool ι}

omit [Fintype ι] in
theorem settles_of_run (hrun : FreshRun (atStart cfg jobs users tokens) p) {i : ι}
    {a : Except String Unit} (ha : p.result? i = some a) : Settles cfg (jobs i) a (p.past i) := by
  have hfollows := follows_of_run hrun i
  rw [Pool.result?_eq_some.mp ha] at hfollows
  exact sound_job (jobs i) a (p.past i) hfollows (permitted_of_run hrun i)

theorem posted_of_run (hrun : FreshRun (atStart cfg jobs users tokens) p)
    (hdone : ∀ i, (p.result? i).isSome) (amount : Seen RowOp RowRes State → ℤ)
    (f : Job → Except String Unit → ℤ)
    (hjob : ∀ j a past, Settles cfg j a past → posted amount past = f j a) :
    ∑ i, posted amount (p.past i) = credits f jobs p := by
  refine Finset.sum_congr rfl fun i _ => ?_
  obtain ⟨a, ha⟩ := isSome_iff_exists.mp (hdone i)
  rw [ha, hjob _ a _ (settles_of_run hrun ha)]
  rfl

theorem unlocked_of_run (hrun : FreshRun (atStart cfg jobs users tokens) p)
    (hdone : ∀ i, (p.result? i).isSome) (id : ℤ) : p.state.held id = none := by
  obtain ⟨hlocks, -⟩ := measure_of_run (lockAmount id) (lockCount id) (fun _ => True)
    (fun o r s t ho _ => ⟨lockCount_step ho, trivial⟩) trivial hrun
  rw [posted_of_run hrun hdone (lockAmount id) (fun _ _ => 0) fun j a past h => h.lock id] at hlocks
  have hzero : credits (fun _ _ => 0) jobs p = 0 := by
    refine Finset.sum_eq_zero fun i _ => ?_
    cases p.result? i <;> rfl
  rw [hzero] at hlocks
  by_contra hheld
  have hsome : (p.state.held id).isSome := isSome_iff_ne_none.mpr hheld
  simp [lockCount, hsome] at hlocks

/-- In a run in which no quota has changed between the first read of a row and the statement
that writes it back, the finished operations have lost no change of a user's quotas or of a
token's remaining quota. -/
theorem fresh_rewrites_lose_nothing (cfg : Settings) (jobs : ι → Job) (users : ℤ → Option UserRow)
    (tokens : ℤ → Option TokenRow) (p : RowPool ι)
    (hrun : FreshRun (atStart cfg jobs users tokens) p) (hdone : ∀ i, (p.result? i).isSome) :
    (∀ id row, users id = some row → ∃ row', p.state.users id = some row' ∧
      row'.quota + row'.affQuota = row.quota + row.affQuota + credits (userCredit cfg id) jobs p) ∧
    ∀ id row, tokens id = some row → ∃ row', p.state.tokens id = some row' ∧
      row'.remainQuota = row.remainQuota + credits (tokenCredit id) jobs p := by
  constructor
  · intro id row hrow
    obtain ⟨htotal, hkept⟩ := measure_of_run (userAmount id) (userTotal id)
      (fun s => (s.users id).isSome = true) (fun o r s t ho hs => userTotal_step ho hs)
      (isSome_of_eq_some hrow) hrun
    obtain ⟨row', hrow'⟩ := isSome_iff_exists.mp hkept
    refine ⟨row', hrow', ?_⟩
    rw [posted_of_run hrun hdone (userAmount id) (userCredit cfg id) fun j a past h => h.user id,
      userTotal_of_row (unlocked_of_run hrun hdone id) hrow', userTotal_of_row rfl hrow] at htotal
    exact htotal
  · intro id row hrow
    obtain ⟨hremain, hkept⟩ := measure_of_run (tokenAmount id) (tokenRemain id)
      (fun s => (s.tokens id).isSome = true) (fun o r s t ho hs => tokenRemain_step ho hs)
      (isSome_of_eq_some hrow) hrun
    obtain ⟨row', hrow'⟩ := isSome_iff_exists.mp hkept
    refine ⟨row', hrow', ?_⟩
    rw [posted_of_run hrun hdone (tokenAmount id) (tokenCredit id) fun j a past h => h.token id,
      tokenRemain, tokenRemain, hrow'] at hremain
    simpa [hrow] using hremain

omit [Fintype ι] in
theorem freshRun_of_play {moves : List (ι ⊕ Empty)} {p q : RowPool ι}
    (hplay : p.play handleRows (fun x _ => x.elim) moves = some q)
    (hcheck : ∀ i, permitted (fun past o s => decide (Fresh past o s)) [] (q.past i) = true) :
    FreshRun p q :=
  ((play_run_alone hplay).of_permitted hcheck).mono (fun _ _ _ _ h => of_decide_eq_true h)
    fun _ _ he => he

end Runs

def plainSettings : Settings := ⟨5, 10, fun _ => "", 0⟩

def plainUsers (id : ℤ) : Option UserRow :=
  if id = 1 then some ⟨100, 40, 0, 0, roleCommonUser, userStatusEnabled, ""⟩ else none

def plainTokens (id : ℤ) : Option TokenRow := if id = 7 then some ⟨1, 1, -1, 100, 0, false⟩ else none

def playJobs (jobs : Fin 2 → Job) (moves : List (Fin 2)) : Option (RowPool (Fin 2)) :=
  (atStart plainSettings jobs plainUsers plainTokens).play handleRows (fun (x : Empty) _ => x.elim)
    (moves.map Sum.inl)

def twoJobs (first second : Job) : Fin 2 → Job
  | 0 => first
  | 1 => second

/-- A transfer and a charge one after the other. -/
theorem transfer_then_charge : ∃ p, playJobs
    (twoJobs (.transferAffQuotaToQuota 1 20) (.decreaseUserQuota 1 30)) [0, 0, 0, 1] = some p ∧
    ∃ row, p.state.users 1 = some row ∧ row.quota + row.affQuota = 100 + 40 + -30 := by
  have hplay : ((playJobs (twoJobs (.transferAffQuotaToQuota 1 20) (.decreaseUserQuota 1 30))
      [0, 0, 0, 1]).map fun p => decide ((∀ i, p.result? i = some (.ok ())) ∧
      ∀ i, permitted (fun past o s => decide (Fresh past o s)) [] (p.past i) = true)) =
      some true := by decide +kernel
  obtain ⟨p, hplay, he⟩ := map_eq_some_iff.mp hplay
  obtain ⟨hdone, hfresh⟩ := of_decide_eq_true he
  obtain ⟨husers, -⟩ := fresh_rewrites_lose_nothing plainSettings
    (twoJobs (.transferAffQuotaToQuota 1 20) (.decreaseUserQuota 1 30)) plainUsers plainTokens p
    (freshRun_of_play hplay hfresh) fun i => by rw [hdone i]; rfl
  obtain ⟨row, hrow, hsum⟩ := husers 1 _ rfl
  refine ⟨p, hplay, row, hrow, hsum.trans ?_⟩
  simp [credits, hdone, Fin.sum_univ_two, twoJobs, userCredit]

def finalTotal (jobs : Fin 2 → Job) (moves : List (Fin 2)) : Option ℤ :=
  (playJobs jobs moves).bind fun p =>
    if ∀ i, p.result? i = some (.ok ()) then (p.state.users 1).map UserRow.total else none

def finalRemain (jobs : Fin 2 → Job) (moves : List (Fin 2)) : Option ℤ :=
  (playJobs jobs moves).bind fun p =>
    if ∀ i, p.result? i = some (.ok ()) then (p.state.tokens 7).map TokenRow.remainQuota else none

/-- A charge of 30 between the first read of an operation and its write is lost: by a transfer,
a change of settings, a disabled user, the reward of 5 for an invitation, and a token that is
switched off. -/
theorem charge_between_is_lost :
    finalTotal (twoJobs (.transferAffQuotaToQuota 1 20) (.decreaseUserQuota 1 30)) [0, 1, 0, 0] =
      some (100 + 40) ∧
    finalTotal (twoJobs (.updateSelf 1 fun _ => "dark") (.decreaseUserQuota 1 30)) [0, 1, 0, 0] =
      some (100 + 40) ∧
    finalTotal (twoJobs (.manageUser 1 roleRootUser .disable) (.decreaseUserQuota 1 30))
      [0, 1, 0, 0] = some (100 + 40) ∧
    finalTotal (twoJobs (.inviteUser 1) (.decreaseUserQuota 1 30)) [0, 1, 0] = some (100 + 40 + 5) ∧
    finalRemain (twoJobs (.updateTokenStatus 1 ⟨7, 0, 2, 0, false⟩) (.decreaseTokenQuota 7 30))
      [0, 1, 0] = some 100 := by
  refine ⟨?_, ?_, ?_, ?_, ?_⟩ <;> decide +kernel

end RowRewrites
