import TinyToken.GoText
import TinyToken.KeyedTable
import TinyToken.RowRewrites
import TinyToken.StepMachines

/-! Who is let in with a token. The decision is taken from copies of users and tokens in Redis
that the handlers read, rewrite and delete. Calls come one after the other, and the cache writes
a call starts are done when the next call begins. A user row keeps its place when it is
soft-deleted; ids are given out in increasing order and never again. -/
namespace UserAdmission

open KeyedTable GoText StepMachines Option Function Table
open RowRewrites (roleCommonUser roleAdminUser roleRootUser userStatusEnabled userStatusDisabled
  tokenStatusEnabled canManageTargetRole)

structure User where
  id : ℤ
  role : ℤ
  status : ℤ
  group : String
  quota : ℤ
  deleted : Bool

/-- The Go value `User{Id: id}`. -/
def User.blank (id : ℤ) : User := ⟨id, 0, 0, "", 0, false⟩

structure UserBase where
  id : ℤ
  group : String
  quota : ℤ
  status : ℤ

def User.toBaseUser (user : User) : UserBase := ⟨user.id, user.group, user.quota, user.status⟩

/-- `Updates` with a struct: the columns of `new` that are not zero. -/
def User.updates (row new : User) : User where
  id := row.id
  role := if new.role ≠ 0 then new.role else row.role
  status := if new.status ≠ 0 then new.status else row.status
  group := if new.group ≠ "" then new.group else row.group
  quota := if new.quota ≠ 0 then new.quota else row.quota
  deleted := new.deleted || row.deleted

structure Token where
  key : String
  userId : ℤ
  status : ℤ
  expiredTime : ℤ
  remainQuota : ℤ
  unlimitedQuota : Bool
  allowIps : Option String
  group : String
  deleted : Bool

structure State where
  users : Table User ℤ User.id
  nextId : ℤ
  issued : ∀ user ∈ users.rows, user.id < nextId
  tokens : Table Token String Token.key
  userCache : ℤ → Option UserBase
  tokenCache : String → Option Token

/-- The row of a user who is not soft-deleted: what a query sees without `Unscoped`. -/
def State.existing (s : State) (id : ℤ) : Option User :=
  (s.users.find? id).filter fun user => !user.deleted

/-- An `UPDATE` of the row with this id, unless it is soft-deleted. -/
def State.updateUser (s : State) (id : ℤ) (f : User → User) (hf : ∀ user, (f user).id = user.id) :
    State :=
  { s with
    users := s.users.modify (fun user => if user.id = id ∧ user.deleted = false then f user else user)
      (by intro user; split; exacts [hf user, rfl])
    issued := by
      intro w hw
      obtain ⟨v, hv, rfl⟩ := List.mem_map.mp hw
      split
      · rw [hf]
        exact s.issued v hv
      · exact s.issued v hv }

def State.invalidateUserCache (s : State) (id : ℤ) : State :=
  { s with userCache := update s.userCache id none }

def State.updateUserCache (s : State) (user : User) : State :=
  { s with userCache := update s.userCache user.id (some user.toBaseUser) }

/-- `HINCRBY`, of a hash that is there. -/
def State.cacheIncrUserQuota (s : State) (id delta : ℤ) : State :=
  { s with
    userCache := update s.userCache id
      ((s.userCache id).map fun base => { base with quota := base.quota + delta }) }

def State.invalidateUserTokensCache (s : State) (userId : ℤ) : State :=
  if userId ≤ 0 then s
  else { s with tokenCache := fun key =>
    match s.tokens.find? key with
    | some token => if token.userId = userId then none else s.tokenCache key
    | none => s.tokenCache key }

/-- `GetUserCache`; a row read from the database is cached. -/
def getUserCache (s : State) (id : ℤ) : Option UserBase × State :=
  match s.userCache id with
  | some base => (some base, s)
  | none =>
    if id = 0 then (none, s)
    else
      match s.existing id with
      | some user => (some user.toBaseUser, s.updateUserCache user)
      | none => (none, s)

/-- `GetTokenByKey`; the cached copy is without the key, which the caller has. -/
def getTokenByKey (s : State) (key : String) : Option Token × State :=
  match s.tokenCache key with
  | some token => (some { token with key := key }, s)
  | none =>
    match (s.tokens.find? key).filter fun token => !token.deleted with
    | some token =>
      (some token, { s with tokenCache := update s.tokenCache key (some token) })
    | none => (none, s)

structure Request where
  path : String
  secWebSocketProtocol : String
  xApiKey : String
  keyQuery : String
  xGoogApiKey : String
  authorization : String
  mjApiSecret : String
  clientIp : String
  timestamp : ℤ

structure Config where
  /-- `net.ParseIP` and `IsIpInCIDRList`; none for a text that is no address -/
  ipInCIDRList : String → List String → Option Bool
  userUsableGroups : String → List String
  containsGroupRatio : String → Bool
  quotaForNewUser : ℤ

structure Refusal where
  status : ℕ
  message : String

def hasLead (s lead : String) : Bool := lead.toList.isPrefixOf s.toList

def webSocketKey (header : String) : String :=
  let part := ((splitAt (· = ',') header).map trimSpace).find? fun part =>
    hasLead part "openai-insecure-api-key"
  match part with
  | some part => trimLead part "openai-insecure-api-key."
  | none => header

/-- The header `Authorization` when the places other clients use have been looked at. -/
def Request.authorizationHeader (req : Request) : String :=
  let auth :=
    if req.secWebSocketProtocol ≠ "" then "Bearer " ++ webSocketKey req.secWebSocketProtocol
    else req.authorization
  let auth :=
    if (contains req.path "/v1/messages" || contains req.path "/v1/models") && req.xApiKey ≠ "" then
      "Bearer " ++ req.xApiKey
    else auth
  let gemini := hasLead req.path "/v1beta/models" || hasLead req.path "/v1beta/openai/models" ||
    hasLead req.path "/v1/models/"
  let auth := if gemini && req.keyQuery ≠ "" then "Bearer " ++ req.keyQuery else auth
  if gemini && req.xGoogApiKey ≠ "" then "Bearer " ++ req.xGoogApiKey else auth

def withoutBearer (key : String) : String :=
  if hasLead key "Bearer " || hasLead key "bearer " then
    trimSpace (String.ofList (key.toList.drop 7))
  else key

/-- The key and what follows it after a `-`. -/
def Request.parts (req : Request) : List String :=
  let key := withoutBearer req.authorizationHeader
  let key := if key = "" ∨ key = "midjourney-proxy" then withoutBearer req.mjApiSecret else key
  splitAt (· = '-') (trimLead key "sk-")

def Request.key (req : Request) : String := req.parts.headD ""

def Token.getIpLimits (token : Token) : List String :=
  match token.allowIps with
  | none => []
  | some ips =>
    let cleanIps := String.ofList (ips.toList.filter (· ≠ ' '))
    if cleanIps = "" then []
    else ((lines cleanIps).map fun ip =>
      String.ofList ((trimSpace ip).toList.filter (· ≠ ','))).filter (· ≠ "")

/-- `ValidateUserToken` and the refusals `TokenAuth` makes of its errors. -/
def validateUserToken (s : State) (timestamp : ℤ) (key : String) : Except Refusal Token × State :=
  if key = "" then (.error ⟨401, "token.invalid"⟩, s)
  else
    match getTokenByKey s key with
    | (none, s) => (.error ⟨401, "token.invalid"⟩, s)
    | (some token, s) =>
      if token.status ≠ tokenStatusEnabled then (.error ⟨401, "token.invalid"⟩, s)
      else if token.expiredTime ≠ -1 ∧ token.expiredTime < timestamp then
        (.error ⟨401, "token.invalid"⟩, s)
      else if token.unlimitedQuota = false ∧ token.remainQuota ≤ 0 then
        (.error ⟨401, "token.invalid"⟩, s)
      else (.ok token, s)

def ipRefusal (cfg : Config) (token : Token) (clientIp : String) : Option Refusal :=
  if token.getIpLimits = [] then none
  else
    match cfg.ipInCIDRList clientIp token.getIpLimits with
    | none => some ⟨403, "无法解析客户端 IP 地址"⟩
    | some false => some ⟨403, "您的 IP 不在令牌允许访问的列表中"⟩
    | some true => none

def groupRefusal (cfg : Config) (userGroup tokenGroup : String) : Option Refusal :=
  if tokenGroup = "" then none
  else if tokenGroup ∉ cfg.userUsableGroups userGroup then
    some ⟨403, "无权访问 " ++ tokenGroup ++ " 分组"⟩
  else if cfg.containsGroupRatio tokenGroup = false ∧ tokenGroup ≠ "auto" then
    some ⟨403, "分组 " ++ tokenGroup ++ " 已被弃用"⟩
  else none

def isAdmin (s : State) (userId : ℤ) : Bool :=
  if userId = 0 then false
  else
    match s.existing userId with
    | some user => user.role ≥ roleAdminUser
    | none => false

/-- `SetupContextForToken`: only an admin may name a channel after the key. -/
def setupContextForToken (s : State) (token : Token) (parts : List String) : Option Refusal :=
  if parts.length > 1 ∧ isAdmin s token.userId = false then
    some ⟨403, "普通用户不支持指定渠道"⟩
  else none

def admitUser (cfg : Config) (s : State) (token : Token) (parts : List String) (user : UserBase) :
    Except Refusal Token :=
  if user.status ≠ userStatusEnabled then .error ⟨403, "auth.user_banned"⟩
  else
    match groupRefusal cfg user.group token.group with
    | some refusal => .error refusal
    | none =>
      match setupContextForToken s token parts with
      | some refusal => .error refusal
      | none => .ok token

/-- `TokenAuth` from the point at which the key has been found. -/
def authorize (cfg : Config) (s : State) (key : String) (parts : List String) (clientIp : String)
    (timestamp : ℤ) : Except Refusal Token × State :=
  match validateUserToken s timestamp key with
  | (.error refusal, s) => (.error refusal, s)
  | (.ok token, s) =>
    match ipRefusal cfg token clientIp with
    | some refusal => (.error refusal, s)
    | none =>
      match getUserCache s token.userId with
      | (none, s) => (.error ⟨500, "common.database_error"⟩, s)
      | (some user, s) => (admitUser cfg s token parts user, s)

def tokenAuth (cfg : Config) (s : State) (req : Request) : Except Refusal Token × State :=
  authorize cfg s req.key req.parts req.clientIp req.timestamp

def firstRow : List User → Option User
  | [] => none
  | row :: rest =>
    match firstRow rest with
    | none => some row
    | some first => if first.id < row.id then some first else some row

/-- `DB.Unscoped().Where(&user).First(&user)`: a missing row leaves the value as it was, and
without an id the first row is found. -/
def State.fill (s : State) (id : ℤ) : User :=
  if id = 0 then (firstRow s.users.rows).getD (.blank 0)
  else (s.users.find? id).getD (.blank id)

/-- `User.Update`: the value that is cached is the row after the change, or, without a row,
the value itself. -/
def update (s : State) (user : User) : State :=
  let saved := ((s.existing user.id).getD user).updates user
  (s.updateUser user.id (fun row => row.updates user) fun _ => rfl).updateUserCache saved

/-- `User.Edit`, of the columns that are kept here. -/
def edit (s : State) (user : User) : State :=
  let saved := { (s.existing user.id).getD user with group := user.group }
  (s.updateUser user.id (fun row => { row with group := user.group }) fun _ => rfl).updateUserCache
    saved

/-- `DB.Delete(user)` and the end of its cached copy. -/
def softDelete (s : State) (id : ℤ) : State :=
  (s.updateUser id (fun row => { row with deleted := true }) fun _ => rfl).invalidateUserCache id

def hardDelete (s : State) (id : ℤ) : State :=
  { s with
    users := s.users.erase id
    issued := fun user hu => s.issued user (List.mem_of_mem_filter hu)
    userCache := Function.update s.userCache id none }

def addUserQuota (s : State) (id delta : ℤ) : State :=
  (s.updateUser id (fun row => { row with quota := row.quota + delta }) fun _ => rfl).cacheIncrUserQuota
    id delta

inductive QuotaMode where
  | add | subtract | override | other
  deriving DecidableEq

inductive Action where
  | disable | enable | delete | promote | demote
  | addQuota (mode : QuotaMode) (value : ℤ)
  | other
  deriving DecidableEq

structure ManageRequest where
  id : ℤ
  action : Action

def manageQuota (s : State) (id value : ℤ) : QuotaMode → Except String Unit × State
  | .add =>
    if value ≤ 0 then (.error "user.quota_change_zero", s) else (.ok (), addUserQuota s id value)
  | .subtract =>
    if value ≤ 0 then (.error "user.quota_change_zero", s) else (.ok (), addUserQuota s id (-value))
  | .override => (.ok (), s.updateUser id (fun row => { row with quota := value }) fun _ => rfl)
  | .other => (.error "common.invalid_params", s)

/-- The end of `ManageUser` for the actions that change the status or the role. -/
def updateAndInvalidate (s : State) (user : User) : State :=
  ((update s user).invalidateUserCache user.id).invalidateUserTokensCache user.id

def manageUser (s : State) (myRole : ℤ) (req : ManageRequest) : Except String Unit × State :=
  let user := s.fill req.id
  if user.id = 0 then (.error "user.not_exists", s)
  else if ¬ canManageTargetRole myRole user.role then (.error "user.no_permission_higher_level", s)
  else
    match req.action with
    | .disable =>
      if user.role = roleRootUser then (.error "user.cannot_disable_root_user", s)
      else (.ok (), updateAndInvalidate s { user with status := userStatusDisabled })
    | .enable => (.ok (), update s { user with status := userStatusEnabled })
    | .delete =>
      if user.role = roleRootUser then (.error "user.cannot_delete_root_user", s)
      else
        -- the update after the `switch` runs for a deleted user as well
        (.ok (), update ((softDelete s user.id).invalidateUserTokensCache user.id)
          { user with deleted := true })
    | .promote =>
      if myRole ≠ roleRootUser then (.error "user.admin_cannot_promote", s)
      else if user.role ≥ roleAdminUser then (.error "user.already_admin", s)
      else (.ok (), updateAndInvalidate s { user with role := roleAdminUser })
    | .demote =>
      if user.role = roleRootUser then (.error "user.cannot_demote_root_user", s)
      else if user.role = roleCommonUser then (.error "user.already_common", s)
      else (.ok (), updateAndInvalidate s { user with role := roleCommonUser })
    | .addQuota mode value => manageQuota s user.id value mode
    | .other => (.ok (), update s user)

def deleteUser (s : State) (myRole id : ℤ) : Except String Unit × State :=
  if id = 0 then (.error "invalid user id", s)
  else
    match s.users.find? id with
    | none => (.error "record not found", s)
    | some originUser =>
      if myRole ≤ originUser.role then (.error "user.no_permission_higher_level", s)
      else (.ok (), hardDelete s id)

/-- `DeleteSelf`; the error of reading the user is not looked at. -/
def deleteSelf (s : State) (id : ℤ) : Except String Unit × State :=
  if id = 0 then (.error "id 为空！", s)
  else if ((s.existing id).getD (.blank id)).role = roleRootUser then
    (.error "user.cannot_delete_root_user", s)
  else (.ok (), softDelete s id)

def getUserById (s : State) (id : ℤ) : Except String User :=
  if id = 0 then .error "id 为空！"
  else
    match s.existing id with
    | some user => .ok user
    | none => .error "record not found"

/-- `UpdateUser`, by an admin. -/
def updateUser (s : State) (myRole : ℤ) (updatedUser : User) : Except String Unit × State :=
  if updatedUser.id = 0 then (.error "common.invalid_params", s)
  else
    match getUserById s updatedUser.id with
    | .error e => (.error e, s)
    | .ok originUser =>
      if ¬ canManageTargetRole myRole originUser.role then
        (.error "user.no_permission_higher_level", s)
      else if ¬ canManageTargetRole myRole updatedUser.role then
        (.error "user.cannot_create_higher_level", s)
      else (.ok (), edit s updatedUser)

/-- `UpdateSelf` and the other changes of a profile that first read the user: none of the
columns kept here is changed. -/
def updateSelf (s : State) (id : ℤ) : Except String Unit × State :=
  match getUserById s id with
  | .error e => (.error e, s)
  | .ok user => (.ok (), update s user)

/-- Binding an account of another site: `FillUserById` has no error for a missing row. -/
def bindAccount (s : State) (id : ℤ) : Except String Unit × State :=
  if id = 0 then (.error "id 为空！", s)
  else (.ok (), update s ((s.existing id).getD (.blank id)))

theorem mem_insert {users : Table User ℤ User.id} {user w : User}
    (h : w ∈ (users.insert user).rows) : w ∈ users.rows ∨ w = user := by
  unfold Table.insert at h
  split at h
  · simpa using h
  · exact .inl h

/-- `DB.Create` with the defaults of the columns, and the update that sets the sidebar. -/
def insertUser (s : State) (role quota : ℤ) : State :=
  let user : User := ⟨s.nextId, if role = 0 then roleCommonUser else role, userStatusEnabled,
    "default", quota, false⟩
  let created : State :=
    { s with
      users := s.users.insert user
      nextId := s.nextId + 1
      issued := by
        intro w hw
        rcases mem_insert hw with hw | rfl
        · exact Int.lt_add_one_of_le (s.issued w hw).le
        · exact lt_add_one s.nextId }
  update created user

def createUser (cfg : Config) (s : State) (myRole role : ℤ) : Except String Unit × State :=
  if role ≥ myRole then (.error "user.cannot_create_higher_level", s)
  else (.ok (), insertUser s role cfg.quotaForNewUser)

inductive Call where
  | tokenAuth (req : Request)
  | manageUser (myRole : ℤ) (req : ManageRequest)
  | deleteUser (myRole id : ℤ)
  | deleteSelf (id : ℤ)
  | updateUser (myRole : ℤ) (updatedUser : User)
  | updateSelf (id : ℤ)
  | bindAccount (id : ℤ)
  | createUser (myRole role : ℤ)
  | charge (id delta : ℤ)
  | expire (id : ℤ)
  /-- tokens are created, changed, used up or deleted, and their cached copies with them -/
  | changeTokens (tokens : Table Token String Token.key) (tokenCache : String → Option Token)

inductive Reply where
  | auth (result : Except Refusal Token)
  | manage (result : Except String Unit)

def answered (r : Except String Unit × State) : Reply × State := (.manage r.1, r.2)

def step (cfg : Config) (s : State) : Call → Reply × State
  | .tokenAuth req => (.auth (tokenAuth cfg s req).1, (tokenAuth cfg s req).2)
  | .manageUser myRole req => answered (manageUser s myRole req)
  | .deleteUser myRole id => answered (deleteUser s myRole id)
  | .deleteSelf id => answered (deleteSelf s id)
  | .updateUser myRole updatedUser => answered (updateUser s myRole updatedUser)
  | .updateSelf id => answered (updateSelf s id)
  | .bindAccount id => answered (bindAccount s id)
  | .createUser myRole role => answered (createUser cfg s myRole role)
  | .charge id delta => (.manage (.ok ()), addUserQuota s id delta)
  | .expire id => (.manage (.ok ()), s.invalidateUserCache id)
  | .changeTokens tokens tokenCache =>
    (.manage (.ok ()), { s with tokens := tokens, tokenCache := tokenCache })

def Succeeds (cfg : Config) (s : State) (call : Call) : Prop :=
  (step cfg s call).1 = .manage (.ok ())

def Bars (u : ℤ) (s : State) : Call → Prop
  | .manageUser _ req => (req.action = .disable ∨ req.action = .delete) ∧ (s.fill req.id).id = u
  | .deleteUser _ id => id = u
  | .deleteSelf id => id = u
  | _ => False

def Enables (u : ℤ) (s : State) : Call → Prop
  | .manageUser _ req =>
    req.action = .enable ∧ (s.fill req.id).id = u ∧ (s.existing u).isSome
  | _ => False

def Admits (cfg : Config) (u : ℤ) (s : State) (req : Request) : Prop :=
  ∃ token : Token, (tokenAuth cfg s req).1 = .ok token ∧ token.userId = u

/-- The calls of `ManageUser` that end with the update but leave no enabled copy of a user who
is gone: a delete of a user whose stored status is enabled does, and so do an enable and an
unknown action on a deleted user. -/
def Careful (u : ℤ) (s : State) : Call → Prop
  | .manageUser _ req =>
    (s.fill req.id).id = u → (req.action = .delete → (s.fill req.id).status ≠ userStatusEnabled) ∧
      (req.action = .enable → (s.existing u).isSome) ∧
      (req.action = .other → (s.existing u).isSome ∨ (s.fill req.id).status ≠ userStatusEnabled)
  | _ => True

instance (cfg : Config) (s : State) (call : Call) : Decidable (Succeeds cfg s call) :=
  match h : (step cfg s call).1 with
  | .manage (.ok ()) => isTrue h
  | .manage (.error _) => isFalse fun hs => by cases h.symm.trans hs
  | .auth _ => isFalse fun hs => by cases h.symm.trans hs

instance (u : ℤ) (s : State) : (call : Call) → Decidable (Bars u s call)
  | .manageUser _ req =>
    inferInstanceAs (Decidable ((req.action = .disable ∨ req.action = .delete) ∧ _ = u))
  | .deleteUser _ id => inferInstanceAs (Decidable (id = u))
  | .deleteSelf id => inferInstanceAs (Decidable (id = u))
  | .tokenAuth _ | .updateUser _ _ | .updateSelf _ | .bindAccount _ | .createUser _ _ | .charge _ _
  | .expire _ | .changeTokens _ _ => isFalse id

instance (u : ℤ) (s : State) : (call : Call) → Decidable (Enables u s call)
  | .manageUser _ req =>
    inferInstanceAs (Decidable (req.action = .enable ∧ _ = u ∧ (s.existing u).isSome))
  | .deleteUser _ _ | .deleteSelf _ | .tokenAuth _ | .updateUser _ _ | .updateSelf _ | .bindAccount _
  | .createUser _ _ | .charge _ _ | .expire _ | .changeTokens _ _ => isFalse id

instance (u : ℤ) (s : State) : (call : Call) → Decidable (Careful u s call)
  | .manageUser _ _ => inferInstanceAs (Decidable (_ = u → (_ → _ ≠ _) ∧ (_ → _) ∧ (_ → _ ∨ _ ≠ _)))
  | .deleteUser _ _ | .deleteSelf _ | .tokenAuth _ | .updateUser _ _ | .updateSelf _ | .bindAccount _
  | .createUser _ _ | .charge _ _ | .expire _ | .changeTokens _ _ => isTrue trivial

instance (cfg : Config) (u : ℤ) (s : State) (req : Request) : Decidable (Admits cfg u s req) :=
  match h : (tokenAuth cfg s req).1 with
  | .ok token =>
    if hu : token.userId = u then isTrue ⟨token, h, hu⟩
    else isFalse fun ⟨token', h', hu'⟩ => hu (by cases h.symm.trans h'; exact hu')
  | .error _ => isFalse fun ⟨_, h', _⟩ => by cases h.symm.trans h'

variable {s : State} {user : User}

theorem existing_id {id : ℤ} (h : s.existing id = some user) : user.id = id :=
  find?_some_key (filter_eq_some_iff.mp h).1

theorem existing_updateUser (s : State) (id : ℤ) (f : User → User)
    (hf : ∀ user, (f user).id = user.id) (j : ℤ) :
    (s.updateUser id f hf).existing j =
      if j = id then ((s.existing j).map f).filter (fun user => !user.deleted)
      else s.existing j := by
  unfold State.existing State.updateUser
  rw [find?_modify]
  cases hj : s.users.find? j with
  | none => simp
  | some user =>
    have hid : user.id = j := find?_some_key hj
    by_cases hd : user.deleted
    · simp [hd, filter_some]
    · by_cases he : j = id
      · simp [hd, hid, he, filter_some]
      · simp [hd, hid, he]

theorem invalidateUserTokensCache_eq (s : State) (userId : ℤ) :
    ∃ tokenCache, s.invalidateUserTokensCache userId = { s with tokenCache := tokenCache } := by
  unfold State.invalidateUserTokensCache
  split
  · exact ⟨s.tokenCache, rfl⟩
  · exact ⟨_, rfl⟩

/-- The row and the cached copy of a user, and whether the id has been given out: what the
decision about the user rests on. -/
structure SameUser (u : ℤ) (s s' : State) : Prop where
  row : s'.existing u = s.existing u
  cache : s'.userCache u = s.userCache u
  nextId : s.nextId ≤ s'.nextId

theorem SameUser.refl (u : ℤ) (s : State) : SameUser u s s := ⟨rfl, rfl, le_rfl⟩

theorem sameUser_tokens (u : ℤ) (s : State) (tokens : Table Token String Token.key)
    (tokenCache : String → Option Token) :
    SameUser u s { s with tokens := tokens, tokenCache := tokenCache } := ⟨rfl, rfl, le_rfl⟩

theorem sameUser_invalidateTokens (u : ℤ) (s : State) (userId : ℤ) :
    SameUser u s (s.invalidateUserTokensCache userId) := by
  obtain ⟨tokenCache, h⟩ := invalidateUserTokensCache_eq s userId
  rw [h]
  exact sameUser_tokens u s s.tokens tokenCache

def RowBarred (u : ℤ) (s : State) : Prop :=
  ∀ user, s.existing u = some user → user.status ≠ userStatusEnabled

def CacheBarred (u : ℤ) (s : State) : Prop :=
  ∀ base, s.userCache u = some base → base.status ≠ userStatusEnabled

structure Barred (u : ℤ) (s : State) : Prop where
  row : RowBarred u s
  cache : CacheBarred u s
  issued : u < s.nextId

variable {u : ℤ}

theorem RowBarred.of_same {s s' : State} (h : RowBarred u s)
    (hs : s'.existing u = s.existing u) : RowBarred u s' := by
  intro user hu
  rw [hs] at hu
  exact h user hu

theorem CacheBarred.of_same {s s' : State} (h : CacheBarred u s)
    (hs : s'.userCache u = s.userCache u) : CacheBarred u s' := by
  intro base hb
  rw [hs] at hb
  exact h base hb

theorem Barred.of_same {s s' : State} (h : Barred u s) (hs : SameUser u s s') : Barred u s' :=
  ⟨h.row.of_same hs.row, h.cache.of_same hs.cache, h.issued.trans_le hs.nextId⟩

theorem rowBarred_updateUser {u id : ℤ} {f : User → User}
    (hf : ∀ user, (f user).id = user.id) (hother : id ≠ u → RowBarred u s)
    (hself : id = u → ∀ row, s.existing u = some row → (f row).status ≠ userStatusEnabled) :
    RowBarred u (s.updateUser id f hf) := by
  intro user hu
  rw [existing_updateUser] at hu
  split at hu
  next hid =>
    obtain ⟨row, hrow, rfl⟩ := map_eq_some_iff.mp (filter_eq_some_iff.mp hu).1
    exact hself hid.symm row hrow
  next hid =>
    exact hother (Ne.symm hid) user hu

theorem cacheBarred_updateUserCache (hother : user.id ≠ u → CacheBarred u s)
    (hself : user.id = u → user.status ≠ userStatusEnabled) :
    CacheBarred u (s.updateUserCache user) := by
  intro base hb
  change Function.update s.userCache user.id (some user.toBaseUser) u = some base at hb
  by_cases hid : user.id = u
  · subst hid
    rw [update_self] at hb
    cases hb
    exact hself rfl
  · rw [update_of_ne (Ne.symm hid)] at hb
    exact hother hid base hb

theorem cacheBarred_invalidateUserCache {u id : ℤ} (hother : id ≠ u → CacheBarred u s) :
    CacheBarred u (s.invalidateUserCache id) := by
  intro base hb
  change Function.update s.userCache id none u = some base at hb
  by_cases hid : id = u
  · subst hid
    rw [update_self] at hb
    cases hb
  · rw [update_of_ne (Ne.symm hid)] at hb
    exact hother hid base hb

theorem updates_status {row new : User} (hnew : new.status ≠ userStatusEnabled)
    (hrow : row.status ≠ userStatusEnabled) : (row.updates new).status ≠ userStatusEnabled := by
  unfold User.updates
  dsimp only
  split
  · exact hnew
  · exact hrow

theorem getD_existing_id (s : State) (user : User) : ((s.existing user.id).getD user).id = user.id := by
  cases h : s.existing user.id with
  | none => rfl
  | some row => exact existing_id h

theorem barred_update (hu : u < s.nextId) (hother : user.id ≠ u → Barred u s) (hself : user.id = u →
      (((s.existing u).getD user).updates user).status ≠ userStatusEnabled) :
    Barred u (update s user) := by
  have hrow : RowBarred u (s.updateUser user.id (fun row => row.updates user) fun _ => rfl) := by
    apply rowBarred_updateUser
    · intro hid
      exact (hother hid).row
    · intro hid row hrow
      have := hself hid
      rwa [hrow] at this
  refine ⟨hrow, ?_, hu⟩
  have hsaved : (((s.existing user.id).getD user).updates user).id = user.id := getD_existing_id s user
  apply cacheBarred_updateUserCache
  · intro hid
    rw [hsaved] at hid
    exact (hother hid).cache
  · intro hid
    rw [hsaved] at hid
    rw [hid]
    exact hself hid

theorem barred_updateAndInvalidate (hu : u < s.nextId) (hother : user.id ≠ u → Barred u s)
    (hself : user.id = u → ∀ row, s.existing u = some row →
      (row.updates user).status ≠ userStatusEnabled) :
    Barred u (updateAndInvalidate s user) := by
  refine Barred.of_same ?_ (sameUser_invalidateTokens u _ user.id)
  refine ⟨?_, ?_, hu⟩
  · exact rowBarred_updateUser (f := fun row => row.updates user) (fun _ => rfl)
      (fun hid => (hother hid).row) hself
  · apply cacheBarred_invalidateUserCache
    intro hid
    exact (barred_update hu hother fun he => absurd he hid).cache

theorem barred_softDelete {u id : ℤ} (hu : u < s.nextId)
    (hother : id ≠ u → Barred u s) : Barred u (softDelete s id) := by
  refine ⟨?_, ?_, hu⟩
  · intro user h
    change (s.updateUser id (fun row => { row with deleted := true }) fun _ => rfl).existing u =
      some user at h
    rw [existing_updateUser] at h
    split at h
    · obtain ⟨row, hrow, rfl⟩ := map_eq_some_iff.mp (filter_eq_some_iff.mp h).1
      simp at h
    next hid =>
      exact (hother (Ne.symm hid)).row user h
  · exact cacheBarred_invalidateUserCache fun hid => (hother hid).cache

theorem existing_softDelete (s : State) (id : ℤ) : (softDelete s id).existing id = none := by
  change (s.updateUser id (fun row => { row with deleted := true }) fun _ => rfl).existing id = none
  rw [existing_updateUser, if_pos rfl]
  cases s.existing id with
  | none | some row => rfl

theorem barred_hardDelete {u id : ℤ} (hu : u < s.nextId)
    (hother : id ≠ u → Barred u s) : Barred u (hardDelete s id) := by
  refine ⟨?_, ?_, hu⟩
  · intro user h
    change ((s.users.erase id).find? u).filter _ = some user at h
    rw [find?_erase] at h
    split at h
    · cases h
    next hid =>
      exact (hother (Ne.symm hid)).row user h
  · exact cacheBarred_invalidateUserCache fun hid => (hother hid).cache

theorem Barred.addUserQuota (h : Barred u s) (id delta : ℤ) :
    Barred u (addUserQuota s id delta) := by
  refine ⟨?_, ?_, h.issued⟩
  · exact rowBarred_updateUser (f := fun row => { row with quota := row.quota + delta })
      (fun _ => rfl) (fun _ => h.row) fun _ row hrow => h.row row hrow
  · intro base hb
    change Function.update s.userCache id _ u = some base at hb
    by_cases hid : u = id
    · subst hid
      rw [update_self] at hb
      obtain ⟨old, hold, rfl⟩ := map_eq_some_iff.mp hb
      exact h.cache old hold
    · rw [update_of_ne hid] at hb
      exact h.cache base hb

theorem disabled_ne_enabled : userStatusDisabled ≠ userStatusEnabled := by decide

theorem zero_ne_enabled : (0 : ℤ) ≠ userStatusEnabled := by decide

def managed (s : State) (user : User) : Action → State
  | .disable => updateAndInvalidate s { user with status := userStatusDisabled }
  | .enable => update s { user with status := userStatusEnabled }
  | .delete => update ((softDelete s user.id).invalidateUserTokensCache user.id)
      { user with deleted := true }
  | .promote => updateAndInvalidate s { user with role := roleAdminUser }
  | .demote => updateAndInvalidate s { user with role := roleCommonUser }
  | .addQuota mode value => (manageQuota s user.id value mode).2
  | .other => update s user

theorem manageQuota_cases (s : State) (id value : ℤ) (mode : QuotaMode) :
    (∃ e, manageQuota s id value mode = (.error e, s)) ∨
      (manageQuota s id value mode).1 = .ok () := by
  cases mode with
  | add | subtract =>
    by_cases h : value ≤ 0
    · exact .inl ⟨_, if_pos h⟩
    · exact .inr (by rw [manageQuota, if_neg h])
  | override => exact .inr rfl
  | other => exact .inl ⟨_, rfl⟩

theorem Barred.manageQuota (h : Barred u s) (id value : ℤ) (mode : QuotaMode) :
    Barred u (manageQuota s id value mode).2 := by
  cases mode with
  | add =>
    by_cases hv : value ≤ 0
    · rw [UserAdmission.manageQuota, if_pos hv]
      exact h
    · rw [UserAdmission.manageQuota, if_neg hv]
      exact h.addUserQuota id value
  | subtract =>
    by_cases hv : value ≤ 0
    · rw [UserAdmission.manageQuota, if_pos hv]
      exact h
    · rw [UserAdmission.manageQuota, if_neg hv]
      exact h.addUserQuota id (-value)
  | override =>
    refine ⟨?_, h.cache, h.issued⟩
    exact rowBarred_updateUser (f := fun row => { row with quota := value }) (fun _ => rfl)
      (fun _ => h.row) fun _ row hrow => h.row row hrow
  | other => exact h

theorem manageUser_cases (s : State) (myRole : ℤ) (req : ManageRequest) :
    (∃ e, manageUser s myRole req = (.error e, s)) ∨
      manageUser s myRole req = (.ok (), managed s (s.fill req.id) req.action) := by
  obtain ⟨id, action⟩ := req
  unfold manageUser
  dsimp only
  split
  · exact .inl ⟨_, rfl⟩
  split
  · exact .inl ⟨_, rfl⟩
  cases action with
  | disable | delete =>
    dsimp only
    split
    · exact .inl ⟨_, rfl⟩
    · exact .inr rfl
  | enable | other => exact .inr rfl
  | promote | demote =>
    dsimp only
    split
    · exact .inl ⟨_, rfl⟩
    split
    · exact .inl ⟨_, rfl⟩
    · exact .inr rfl
  | addQuota mode value =>
    rcases manageQuota_cases s (s.fill id).id value mode with h | h
    · exact .inl h
    · exact .inr (Prod.ext h rfl)

theorem firstRow_eq_none {rows : List User} (h : firstRow rows = none) : rows = [] := by
  cases rows with
  | nil => rfl
  | cons row rest =>
    simp only [firstRow] at h
    split at h
    · cases h
    · split at h <;> cases h

theorem firstRow_mem {rows : List User} (h : firstRow rows = some user) : user ∈ rows := by
  induction rows with
  | nil => cases h
  | cons row rest ih =>
    simp only [firstRow] at h
    split at h
    · cases h
      exact List.mem_cons_self
    next first hfirst =>
      split at h
      · cases h
        exact List.mem_cons_of_mem _ (ih hfirst)
      · cases h
        exact List.mem_cons_self

theorem fill_cases (s : State) (id : ℤ) : s.users.find? (s.fill id).id = some (s.fill id) ∨
      s.users.find? (s.fill id).id = none ∧ (s.fill id).status = 0 := by
  unfold State.fill
  split
  · cases h : firstRow s.users.rows with
    | none =>
      have hrows : s.users.rows = [] := firstRow_eq_none h
      exact .inr ⟨by simp [find?, hrows], rfl⟩
    | some user => exact .inl (find?_of_mem (firstRow_mem h))
  · cases h : s.users.find? id with
    | none => exact .inr ⟨h, rfl⟩
    | some user =>
      have hid : user.id = id := find?_some_key h
      exact .inl (by simpa [hid] using h)

theorem fill_existing {id u : ℤ} {row : User} (hid : (s.fill id).id = u)
    (h : s.existing u = some row) : row = s.fill id := by
  have hrow : s.users.find? u = some row := (filter_eq_some_iff.mp h).1
  rcases fill_cases s id with hf | ⟨hf, -⟩
  · rw [hid, hrow] at hf
    exact some.inj hf
  · rw [hid, hrow] at hf
    cases hf

theorem barred_managed {u id : ℤ} {action : Action} (h : Barred u s)
    (hc : Careful u s (.manageUser 0 ⟨id, action⟩))
    (hn : ¬ Enables u s (.manageUser 0 ⟨id, action⟩)) : Barred u (managed s (s.fill id) action) := by
  have hself : (s.fill id).id = u → ∀ row, s.existing u = some row →
      row.status ≠ userStatusEnabled ∧ (s.fill id).status = row.status := by
    intro hid row hrow
    exact ⟨h.row row hrow, by rw [fill_existing hid hrow]⟩
  cases action with
  | disable =>
    apply barred_updateAndInvalidate h.issued fun _ => h
    intro _ row hrow
    exact updates_status disabled_ne_enabled (h.row row hrow)
  | enable =>
    apply barred_update h.issued fun _ => h
    intro hid
    exact absurd ⟨rfl, hid, (hc hid).2.1 rfl⟩ hn
  | delete =>
    have hd : Barred u ((softDelete s (s.fill id).id).invalidateUserTokensCache (s.fill id).id) :=
      (barred_softDelete h.issued fun _ => h).of_same (sameUser_invalidateTokens u _ _)
    apply barred_update hd.issued fun _ => hd
    intro hid
    apply updates_status
    · exact (hc hid).1 rfl
    · rw [(sameUser_invalidateTokens u _ _).row, ← hid, existing_softDelete]
      exact (hc hid).1 rfl
  | promote | demote =>
    apply barred_updateAndInvalidate h.issued fun _ => h
    intro hid row hrow
    obtain ⟨hstatus, hfill⟩ := hself hid row hrow
    exact updates_status (by rwa [hfill]) hstatus
  | addQuota mode value =>
    exact h.manageQuota _ value mode
  | other =>
    apply barred_update h.issued fun _ => h
    intro hid
    cases hrow : s.existing u with
    | none =>
      have hstatus : (s.fill id).status ≠ userStatusEnabled := by
        rcases (hc hid).2.2 rfl with hsome | hstatus
        · rw [hrow] at hsome
          cases hsome
        · exact hstatus
      exact updates_status hstatus hstatus
    | some row =>
      obtain ⟨hstatus, hfill⟩ := hself hid row hrow
      exact updates_status (by rwa [hfill]) hstatus

theorem getUserById_ok {id : ℤ} (h : getUserById s id = .ok user) : s.existing id = some user := by
  unfold getUserById at h
  split at h
  · cases h
  · cases hrow : s.existing id with
    | none =>
      rw [hrow] at h
      cases h
    | some row =>
      rw [hrow] at h
      cases h
      rfl

theorem Barred.updateUser (h : Barred u s) (myRole : ℤ) (updatedUser : User) :
    Barred u (updateUser s myRole updatedUser).2 := by
  unfold UserAdmission.updateUser
  split
  · exact h
  split
  · exact h
  rename_i originUser horigin
  have hrow := getUserById_ok horigin
  split
  · exact h
  split
  · exact h
  refine ⟨?_, ?_, h.issued⟩
  · exact rowBarred_updateUser (f := fun row => { row with group := updatedUser.group })
      (fun _ => rfl) (fun _ => h.row) fun _ row hrow => h.row row hrow
  · apply cacheBarred_updateUserCache fun _ => h.cache
    intro hid
    rw [hrow] at hid ⊢
    exact h.row originUser (by rw [← hid]; exact (existing_id hrow).symm ▸ hrow)

theorem Barred.updateSelf (h : Barred u s) (id : ℤ) : Barred u (updateSelf s id).2 := by
  unfold UserAdmission.updateSelf
  split
  · exact h
  rename_i user huser
  have hrow := getUserById_ok huser
  have hid := existing_id hrow
  apply barred_update h.issued fun _ => h
  intro hu
  have hexisting : s.existing u = some user := by rw [← hu, hid, hrow]
  rw [hexisting]
  exact updates_status (h.row user hexisting) (h.row user hexisting)

theorem Barred.bindAccount (h : Barred u s) (id : ℤ) : Barred u (bindAccount s id).2 := by
  unfold UserAdmission.bindAccount
  split
  · exact h
  apply barred_update h.issued fun _ => h
  cases hrow : s.existing id with
  | none =>
    -- the value that was to be filled has the status zero
    intro hu
    change id = u at hu
    rw [← hu, hrow]
    have hblank : (User.blank id).status ≠ userStatusEnabled := zero_ne_enabled
    exact updates_status hblank hblank
  | some user =>
    intro hu
    change user.id = u at hu
    have hexisting : s.existing u = some user := by rw [← hu, existing_id hrow, hrow]
    rw [hexisting]
    exact updates_status (h.row user hexisting) (h.row user hexisting)

theorem Barred.createUser (h : Barred u s) (cfg : Config) (myRole role : ℤ) :
    Barred u (createUser cfg s myRole role).2 := by
  unfold UserAdmission.createUser
  split
  · exact h
  have hne : s.nextId ≠ u := h.issued.ne'
  apply barred_update
  · exact h.issued.trans (lt_add_one s.nextId)
  · intro _
    refine h.of_same ⟨?_, rfl, (lt_add_one s.nextId).le⟩
    exact congrArg (Option.filter _) (Table.find?_insert_of_ne (Ne.symm hne))
  · intro hid
    exact absurd hid hne

theorem Barred.deleteUser (h : Barred u s) (myRole id : ℤ) :
    Barred u (deleteUser s myRole id).2 := by
  unfold UserAdmission.deleteUser
  split
  · exact h
  split
  · exact h
  split
  · exact h
  · exact barred_hardDelete h.issued fun _ => h

theorem Barred.deleteSelf (h : Barred u s) (id : ℤ) : Barred u (deleteSelf s id).2 := by
  unfold UserAdmission.deleteSelf
  split
  · exact h
  split
  · exact h
  · exact barred_softDelete h.issued fun _ => h

theorem validateUserToken_same (u : ℤ) (s : State) (timestamp : ℤ) (key : String) :
    SameUser u s (validateUserToken s timestamp key).2 := by
  have htoken : SameUser u s (getTokenByKey s key).2 := by
    unfold getTokenByKey
    split
    · exact .refl u s
    split
    · exact sameUser_tokens u s s.tokens _
    · exact .refl u s
  unfold validateUserToken
  split
  · exact .refl u s
  split
  next hget =>
    rwa [hget] at htoken
  rename_i hget
  rw [hget] at htoken
  split
  · exact htoken
  split
  · exact htoken
  split
  · exact htoken
  · exact htoken

theorem Barred.getUserCache (h : Barred u s) (id : ℤ) : Barred u (getUserCache s id).2 := by
  unfold UserAdmission.getUserCache
  split
  · exact h
  split
  · exact h
  split
  next user hrow =>
    refine ⟨h.row, ?_, h.issued⟩
    apply cacheBarred_updateUserCache fun _ => h.cache
    intro hu
    exact h.row user (by rw [← hu, existing_id hrow, hrow])
  · exact h

theorem Barred.read {base : UserBase} (h : Barred u s)
    (hread : (UserAdmission.getUserCache s u).1 = some base) : base.status ≠ userStatusEnabled := by
  unfold UserAdmission.getUserCache at hread
  split at hread
  next hcached =>
    cases hread
    exact h.cache base hcached
  split at hread
  · cases hread
  split at hread
  next user hrow =>
    cases hread
    exact h.row user hrow
  · cases hread

variable {cfg : Config}

theorem admitUser_ok {token token' : Token} {parts : List String}
    {user : UserBase} (h : admitUser cfg s token parts user = .ok token') :
    user.status = userStatusEnabled ∧ token' = token := by
  unfold admitUser at h
  split at h
  · cases h
  rename_i hstatus
  split at h
  · cases h
  split at h
  · cases h
  · cases h
    exact ⟨not_not.mp hstatus, rfl⟩

theorem Barred.authorize (h : Barred u s) (cfg : Config) (key : String)
    (parts : List String) (clientIp : String) (timestamp : ℤ) :
    Barred u (authorize cfg s key parts clientIp timestamp).2 := by
  have hvalid := h.of_same (validateUserToken_same u s timestamp key)
  unfold UserAdmission.authorize
  split
  next hv =>
    rwa [hv] at hvalid
  rename_i token s₁ hv
  rw [hv] at hvalid
  split
  · exact hvalid
  have hread := hvalid.getUserCache token.userId
  split
  next hg =>
    rwa [hg] at hread
  next hg =>
    rwa [hg] at hread

theorem Barred.not_authorized (h : Barred u s) {key : String}
    {parts : List String} {clientIp : String} {timestamp : ℤ} {token : Token}
    (hok : (UserAdmission.authorize cfg s key parts clientIp timestamp).1 = .ok token) :
    token.userId ≠ u := by
  intro huser
  have hvalid := h.of_same (validateUserToken_same u s timestamp key)
  unfold UserAdmission.authorize at hok
  split at hok
  · cases hok
  rename_i token' s₁ hv
  rw [hv] at hvalid
  split at hok
  · cases hok
  split at hok
  · cases hok
  rename_i base s₂ hg
  obtain ⟨hstatus, rfl⟩ := admitUser_ok hok
  rw [huser] at hg
  exact hvalid.read (congrArg Prod.fst hg) hstatus

theorem Barred.tokenAuth (h : Barred u s) (cfg : Config) (req : Request) :
    Barred u (tokenAuth cfg s req).2 := by
  rw [UserAdmission.tokenAuth]
  generalize req.key = key
  generalize req.parts = parts
  exact h.authorize cfg key parts req.clientIp req.timestamp

theorem barred_step {call : Call} (h : Barred u s)
    (hc : Careful u s call) (hn : ¬ (Enables u s call ∧ Succeeds cfg s call)) :
    Barred u (step cfg s call).2 := by
  cases call with
  | tokenAuth req =>
    simp only [step]
    exact h.tokenAuth cfg req
  | manageUser myRole req =>
    rcases manageUser_cases s myRole req with ⟨e, he⟩ | hok
    · change Barred u (manageUser s myRole req).2
      rw [he]
      exact h
    · have hsucceeds : Succeeds cfg s (.manageUser myRole req) :=
        congrArg (fun r => (answered r).1) hok
      have hmanaged : Barred u (managed s (s.fill req.id) req.action) :=
        barred_managed h hc fun henables => hn ⟨henables, hsucceeds⟩
      change Barred u (manageUser s myRole req).2
      rw [hok]
      exact hmanaged
  | deleteUser myRole id => exact h.deleteUser myRole id
  | deleteSelf id => exact h.deleteSelf id
  | updateUser myRole updatedUser => exact h.updateUser myRole updatedUser
  | updateSelf id => exact h.updateSelf id
  | bindAccount id => exact h.bindAccount id
  | createUser myRole role => exact h.createUser cfg myRole role
  | charge id delta => exact h.addUserQuota id delta
  | expire id => exact ⟨h.row, cacheBarred_invalidateUserCache fun _ => h.cache, h.issued⟩
  | changeTokens tokens tokenCache => exact h.of_same (sameUser_tokens u s tokens tokenCache)

theorem barred_of_bars {call : Call} (hu : u < s.nextId)
    (hb : Bars u s call) (hs : Succeeds cfg s call) (hc : Careful u s call) :
    Barred u (step cfg s call).2 := by
  cases call with
  | manageUser myRole req =>
    obtain ⟨haction, hid⟩ := hb
    rcases manageUser_cases s myRole req with ⟨e, he⟩ | hok
    · have hreply : (manageUser s myRole req).1 = .ok () := Reply.manage.inj hs
      rw [he] at hreply
      cases hreply
    change Barred u (manageUser s myRole req).2
    rw [hok]
    rcases haction with haction | haction
    · rw [haction]
      refine @barred_updateAndInvalidate s { s.fill req.id with status := userStatusDisabled } u
        hu (absurd hid) ?_
      intro _ row _
      exact disabled_ne_enabled
    · rw [haction]
      have hd : Barred u
          ((softDelete s (s.fill req.id).id).invalidateUserTokensCache (s.fill req.id).id) :=
        (barred_softDelete hu fun hne => absurd hid hne).of_same (sameUser_invalidateTokens u _ _)
      apply barred_update hd.issued fun _ => hd
      intro _
      apply updates_status
      · exact (hc hid).1 haction
      · rw [(sameUser_invalidateTokens u _ _).row, ← hid, existing_softDelete]
        exact (hc hid).1 haction
  | deleteUser myRole id =>
    have hreply : (deleteUser s myRole id).1 = .ok () := Reply.manage.inj hs
    change Barred u (deleteUser s myRole id).2
    unfold deleteUser at hreply ⊢
    split at hreply
    · cases hreply
    rw [if_neg ‹_›]
    split at hreply
    · cases hreply
    split at hreply
    · cases hreply
    rw [if_neg ‹_›]
    exact barred_hardDelete hu fun hne => absurd hb hne
  | deleteSelf id =>
    have hreply : (deleteSelf s id).1 = .ok () := Reply.manage.inj hs
    change Barred u (deleteSelf s id).2
    unfold deleteSelf at hreply ⊢
    split at hreply
    · cases hreply
    rw [if_neg ‹_›]
    split at hreply
    · cases hreply
    rw [if_neg ‹_›]
    exact barred_softDelete hu fun hne => absurd hb hne
  | tokenAuth req | updateUser myRole updatedUser | updateSelf id | bindAccount id
  | createUser myRole role | charge id delta | expire id | changeTokens tokens tokenCache =>
    exact hb.elim

/-- A user who has been disabled or deleted is refused in every later state, until an enable
while the user exists, if no call of `ManageUser` caches an enabled user who is gone. -/
theorem barred_user_stays_out (cfg : Config) (u : ℤ) (s : State) (hu : u < s.nextId) (call : Call)
    (hbars : Bars u s call) (hsucceeds : Succeeds cfg s call) (hcareful : Careful u s call)
    (later : List Call) (hlater : Along (step cfg) (fun s' call' =>
      Careful u s' call' ∧ ¬ (Enables u s' call' ∧ Succeeds cfg s' call')) (step cfg s call).2 later)
    (req : Request) : ¬ Admits cfg u (after (step cfg) (step cfg s call).2 later) req := by
  have hbarred : Barred u (after (step cfg) (step cfg s call).2 later) := by
    refine invariant_after ?_ (barred_of_bars hu hbars hsucceeds hcareful) hlater
    intro s' call' h hcall
    exact barred_step h hcall.1 hcall.2
  rintro ⟨token, hok, huser⟩
  exact hbarred.not_authorized hok huser

def sampleState : State where
  users := ⟨[⟨1, roleCommonUser, userStatusEnabled, "default", 100, false⟩], by decide⟩
  nextId := 2
  issued := by decide
  tokens := ⟨[⟨"k", 1, tokenStatusEnabled, -1, 0, true, none, "", false⟩], by decide⟩
  userCache := fun _ => none
  tokenCache := fun _ => none

def sampleConfig : Config := ⟨fun _ _ => none, fun _ => ["default"], fun _ => true, 0⟩

def sampleRequest : Request := ⟨"/v1/chat/completions", "", "", "", "", "Bearer sk-k", "", "", 0⟩

/-- A user with a good token is disabled, tries again, and is refused. -/
theorem disabled_user_stays_out : Admits sampleConfig 1 sampleState sampleRequest ∧
    ¬ Admits sampleConfig 1
      (after (step sampleConfig) (step sampleConfig sampleState (.manageUser 10 ⟨1, .disable⟩)).2
        [.tokenAuth sampleRequest, .updateSelf 1]) sampleRequest :=
  ⟨by decide +kernel,
    barred_user_stays_out sampleConfig 1 sampleState (by decide) (.manageUser 10 ⟨1, .disable⟩)
      (by decide +kernel) (by decide +kernel) (by decide +kernel)
      [.tokenAuth sampleRequest, .updateSelf 1] (by decide +kernel) sampleRequest⟩

/-- `ManageUser` deletes an enabled user, and the update at its end caches the user as enabled:
the next request is let in. -/
theorem deleted_user_is_admitted : ∃ (cfg : Config) (u : ℤ) (s : State) (call : Call) (req : Request),
    u < s.nextId ∧ Bars u s call ∧ Succeeds cfg s call ∧ Admits cfg u (step cfg s call).2 req :=
  ⟨sampleConfig, 1, sampleState, .manageUser 10 ⟨1, .delete⟩, sampleRequest, by decide +kernel⟩

end UserAdmission
