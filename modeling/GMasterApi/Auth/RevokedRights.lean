import GMasterApi.Lib.GoString
import GMasterApi.Lib.Table
import GMasterApi.Lib.Transition

/-!
# Rights that are revoked

Role and status of a user are stored in three places: the row, the Redis hash of
the user and the signed session.  `authHelper` reads the row for an access token,
but believes a session; `TokenAuth` believes the hash.  `ManageUser` writes the
hash whenever it has updated the row, and clears it again after `disable`,
`promote` and `demote` only; `DeleteUser` does not touch it.

Nobody is let through without the rights he has at that moment exactly when no
session is used after its user lost them, and no hash of a user who is gone is
found (`revoked_iff`).
-/

namespace RevokedRights

open GoString Transition

inductive UserStatus
  | enabled
  | disabled
  deriving DecidableEq

inductive TokenStatus
  | enabled
  | disabled
  | expired
  | exhausted
  deriving DecidableEq

def roleGuestUser : ℤ := 0
def roleCommonUser : ℤ := 1
def roleAdminUser : ℤ := 10
def roleRootUser : ℤ := 100

def isValidateRole (role : ℤ) : Bool :=
  role = roleGuestUser || role = roleCommonUser || role = roleAdminUser || role = roleRootUser

/-- A row of `users`; `deleted` is a `deleted_at` that is set. -/
structure User where
  id : ℤ
  username : String
  email : String
  role : ℤ
  status : UserStatus
  group : String
  accessToken : Option String
  deleted : Bool
  deriving DecidableEq

structure Token where
  id : ℤ
  userId : ℤ
  key : String
  status : TokenStatus
  expiredTime : ℤ
  remainQuota : ℤ
  unlimitedQuota : Bool
  allowIps : Option String
  group : String
  deleted : Bool
  deriving DecidableEq

/-- The hash of a user in Redis. -/
structure UserBase where
  id : ℤ
  group : String
  email : String
  status : UserStatus
  username : String
  deriving DecidableEq

/-- What `setupLogin` puts into a session. -/
structure Session where
  id : ℤ
  username : String
  role : ℤ
  status : UserStatus
  group : String
  deriving DecidableEq

structure State where
  now : ℤ
  users : Table User User.id
  tokens : Table Token Token.id
  userCache : ℤ → Option UserBase
  tokenCache : String → Option Token
  sessions : List Session

/-- `ipRefusal` is the answer of the IP check to a token's limits and a client, if it refuses. -/
structure Config where
  redisEnabled : Bool
  ipRefusal : Option String → String → Option String
  userCanUseGroup : ℤ → String → String → Bool
  containsGroupRatio : String → Bool

def errRecordNotFound : String := "record not found"
def errUserBanned : String := "auth.user_banned"

/-! ## Rows and hashes -/

/-- The row that a query without `Unscoped` finds. -/
def State.findUser (s : State) (id : ℤ) : Option User :=
  (s.users.find id).filter fun u => !u.deleted

def getUserById (s : State) (id : ℤ) : Except String User :=
  if id = 0 then .error "id 为空！"
  else match s.findUser id with
    | none => .error errRecordNotFound
    | some user => .ok user

def User.toBaseUser (user : User) : UserBase :=
  ⟨user.id, user.group, user.email, user.status, user.username⟩

def State.setUserCache (s : State) (id : ℤ) (base : Option UserBase) : State :=
  { s with userCache := Function.update s.userCache id base }

def invalidateUserCache (cfg : Config) (s : State) (userId : ℤ) : State :=
  if cfg.redisEnabled then s.setUserCache userId none else s

def updateUserCache (cfg : Config) (s : State) (user : User) : State :=
  if cfg.redisEnabled then s.setUserCache user.id (some user.toBaseUser) else s

def invalidateUserTokensCache (cfg : Config) (s : State) (userId : ℤ) : State :=
  if cfg.redisEnabled && decide (0 < userId) then
    { s with
      tokenCache := fun key =>
        if s.tokens.rows.any fun t => t.userId = userId && t.key ≠ "" && t.key = key then none
        else s.tokenCache key }
  else s

/-- The hash, where Redis has it; else the row, which is then written to Redis. -/
def getUserCache (cfg : Config) (s : State) (userId : ℤ) : State × Except String UserBase :=
  match if cfg.redisEnabled then s.userCache userId else none with
  | some base => (s, .ok base)
  | none =>
    match getUserById s userId with
    | .error e => (s, .error e)
    | .ok user => (updateUserCache cfg s user, .ok user.toBaseUser)

/-- `GetUserGroup` from the database: empty where there is no row. -/
def getUserGroup (s : State) (id : ℤ) : String := ((s.findUser id).map User.group).getD ""

/-- `RedisHSetField` sets a field of a hash that is there. -/
def updateUserGroupCache (cfg : Config) (s : State) (id : ℤ) (group : String) : State :=
  if cfg.redisEnabled then
    s.setUserCache id ((s.userCache id).map fun base => { base with group := group })
  else s

def isAdmin (s : State) (userId : ℤ) : Bool :=
  userId ≠ 0 && (s.findUser userId).any fun u => decide (roleAdminUser ≤ u.role)

/-! ## `authHelper` -/

/-- The index of the session that the request carries, and its headers. -/
structure AuthRequest where
  minRole : ℤ
  session : Option ℕ
  authorization : String
  newApiUser : String
  deriving DecidableEq

/-- Whom a request names, and how. -/
structure Who where
  username : String
  role : ℤ
  id : ℤ
  status : UserStatus
  session : Option ℕ
  deriving DecidableEq

structure AuthContext where
  username : String
  role : ℤ
  id : ℤ
  group : String
  useAccessToken : Bool
  deriving DecidableEq

def validUserInfo (username : String) (role : ℤ) : Bool :=
  trimSpace username ≠ "" && isValidateRole role

def validateAccessToken (s : State) (authorization : String) : Option User :=
  let token := remove authorization "Bearer "
  s.users.rows.find? fun u => !u.deleted && u.accessToken = some token

def whoByAccessToken (s : State) (authorization : String) : Except String Who :=
  if authorization = "" then .error "auth.not_logged_in"
  else match validateAccessToken s authorization with
    | none => .error "auth.access_token_invalid"
    | some user =>
      if user.username = "" then .error "auth.access_token_invalid"
      else if !validUserInfo user.username user.role then .error "auth.user_info_invalid"
      else .ok ⟨user.username, user.role, user.id, user.status, none⟩

def Session.who (session : Session) (i : ℕ) : Who :=
  ⟨session.username, session.role, session.id, session.status, some i⟩

/-- The session, if there is one, else the access token. -/
def whoIs (s : State) (req : AuthRequest) : Except String Who :=
  match req.session.bind fun i => (s.sessions[i]?).map fun session => session.who i with
  | some who => .ok who
  | none => whoByAccessToken s req.authorization

/-- The checks of `authHelper` on what the request names. -/
def refuseWho (who : Who) (req : AuthRequest) : Option String :=
  if req.newApiUser = "" then some "auth.user_id_not_provided"
  else match atoi req.newApiUser with
    | none => some "auth.user_id_format_error"
    | some apiUserId =>
      if who.id ≠ apiUserId then some "auth.user_id_mismatch"
      else if who.status = .disabled then some errUserBanned
      else if who.role < req.minRole then some "auth.insufficient_privilege"
      else if !validUserInfo who.username who.role then some "auth.user_info_invalid"
      else none

/-- A session takes over the group of the row. -/
def refreshSession (s : State) (who : Who) (group : String) : State :=
  match who.session with
  | none => s
  | some i => { s with sessions := s.sessions.modify i fun ses => { ses with group := group } }

def authHelper (cfg : Config) (s : State) (req : AuthRequest) :
    State × Except String AuthContext :=
  match whoIs s req with
  | .error e => (s, .error e)
  | .ok who =>
    match refuseWho who req with
    | some e => (s, .error e)
    | none =>
      let currentGroup := getUserGroup s who.id
      let s := updateUserGroupCache cfg s who.id currentGroup
      if trimSpace currentGroup = "" then (s, .error "无权进行此操作，用户分组无效")
      else (refreshSession s who currentGroup,
        .ok ⟨who.username, who.role, who.id, currentGroup, who.session.isNone⟩)

/-! ## `TokenAuth` -/

/-- `Authorization`, as the header of the protocol has set it, `mj-api-secret` and the client. -/
structure TokenRequest where
  authorization : String
  mjApiSecret : String
  clientIp : String
  deriving DecidableEq

def trimBearer (key : String) : String :=
  if hasPrefix key "Bearer " || hasPrefix key "bearer " then
    trimSpace (String.ofList (key.toList.drop 7))
  else key

def keyParts (req : TokenRequest) : List String :=
  let key := trimBearer req.authorization
  let key := if key = "" ∨ key = "midjourney-proxy" then trimBearer req.mjApiSecret else key
  split (trimPrefix key "sk-") '-'

def getTokenByKey (cfg : Config) (s : State) (key : String) : State × Except String Token :=
  match if cfg.redisEnabled then s.tokenCache key else none with
  | some token => (s, .ok { token with key := key })
  | none =>
    match s.tokens.rows.find? fun t => !t.deleted && t.key = key with
    | none => (s, .error errRecordNotFound)
    | some token =>
      (if cfg.redisEnabled then
        { s with tokenCache := Function.update s.tokenCache key (some token) } else s, .ok token)

/-- The status of a token that has run out is stored where Redis is off. -/
def storeStatus (cfg : Config) (s : State) (token : Token) (status : TokenStatus) : State :=
  if cfg.redisEnabled then s
  else { s with
    tokens := s.tokens.updateWhere (fun t => t.id = token.id && !t.deleted)
      (fun t => { t with status := status }) fun _ => rfl }

def validateUserToken (cfg : Config) (s : State) (key : String) : State × Except String Token :=
  if key = "" then (s, .error "token.invalid")
  else match getTokenByKey cfg s key with
    | (s, .error _) => (s, .error "token.invalid")
    | (s, .ok token) =>
      if token.status ≠ .enabled then (s, .error "token.invalid")
      else if token.expiredTime ≠ -1 ∧ token.expiredTime < s.now then
        (storeStatus cfg s token .expired, .error "token.invalid")
      else if token.unlimitedQuota = false ∧ token.remainQuota ≤ 0 then
        (storeStatus cfg s token .exhausted, .error "token.invalid")
      else (s, .ok token)

/-- The checks of group and channel, once the owner is known. -/
def refuseToken (cfg : Config) (s : State) (token : Token) (userCache : UserBase)
    (parts : List String) : Option String :=
  if token.group ≠ "" ∧ cfg.userCanUseGroup token.userId userCache.group token.group = false then
    some ("无权访问 " ++ token.group ++ " 分组")
  else if token.group ≠ "" ∧ cfg.containsGroupRatio token.group = false ∧ token.group ≠ "auto" then
    some ("分组 " ++ token.group ++ " 已被弃用")
  else if 1 < parts.length ∧ isAdmin s token.userId = false then some "普通用户不支持指定渠道"
  else none

def tokenAuth (cfg : Config) (s : State) (req : TokenRequest) : State × Except String Token :=
  let parts := keyParts req
  match validateUserToken cfg s (parts.headD "") with
  | (s, .error e) => (s, .error e)
  | (s, .ok token) =>
    match cfg.ipRefusal token.allowIps req.clientIp with
    | some e => (s, .error e)
    | none =>
      match getUserCache cfg s token.userId with
      | (s, .error _) => (s, .error "common.database_error")
      | (s, .ok userCache) =>
        if userCache.status ≠ .enabled then (s, .error errUserBanned)
        else match refuseToken cfg s token userCache parts with
          | some e => (s, .error e)
          | none => (s, .ok token)

/-! ## Logging in and administration -/

/-- `Login` of a user without two-factor authentication; `passwordOk` is the comparison with
the stored hash. -/
def login (s : State) (username : String) (passwordOk : Bool) : State :=
  let username := trimSpace username
  match s.users.rows.find? fun u => !u.deleted && (u.username = username || u.email = username) with
  | none => s
  | some user =>
    if username = "" ∨ passwordOk = false ∨ user.status ≠ .enabled then s
    else { s with
      sessions := s.sessions ++ [⟨user.id, user.username, user.role, user.status, user.group⟩] }

inductive ManageAction
  | disable
  | enable
  | delete
  | promote
  | demote
  deriving DecidableEq

/-- The attributes that `ManageUser` hands on, or why it refuses. -/
def managed (myRole : ℤ) (action : ManageAction) (user : User) : Except String User :=
  if myRole ≤ user.role ∧ myRole ≠ roleRootUser then .error "user.no_permission_higher_level"
  else
    match action with
    | .disable =>
      if user.role = roleRootUser then .error "user.cannot_disable_root_user"
      else .ok { user with status := .disabled }
    | .enable => .ok { user with status := .enabled }
    | .delete =>
      if user.role = roleRootUser then .error "user.cannot_delete_root_user" else .ok user
    | .promote =>
      if myRole ≠ roleRootUser then .error "user.admin_cannot_promote"
      else if roleAdminUser ≤ user.role then .error "user.already_admin"
      else .ok { user with role := roleAdminUser }
    | .demote =>
      if user.role = roleRootUser then .error "user.cannot_demote_root_user"
      else if user.role = roleCommonUser then .error "user.already_common"
      else .ok { user with role := roleCommonUser }

/-- `DB.Delete(user)` sets `deleted_at`. -/
def State.softDelete (s : State) (id : ℤ) : State :=
  { s with
    users := s.users.updateWhere (fun u => u.id = id) (fun u => { u with deleted := true })
      fun _ => rfl }

/-- `User.Delete` -/
def deleteUserRow (cfg : Config) (s : State) (id : ℤ) : State :=
  invalidateUserCache cfg (s.softDelete id) id

/-- `DB.Model(user).Updates(newUser)`, which leaves the row of a deleted user. -/
def State.updates (s : State) (user : User) : State :=
  { s with
    users := s.users.updateWhere (fun u => u.id = user.id && !u.deleted)
      (fun u => { u with role := user.role, status := user.status }) fun _ => rfl }

/-- `User.Update`: the hash is written in any case. -/
def update (cfg : Config) (s : State) (user : User) : State :=
  updateUserCache cfg (s.updates user) user

/-- The row that `Unscoped().Where(&user).First` finds; an id of 0 is no condition. -/
def unscopedUser (s : State) (id : ℤ) : Option User :=
  if id = 0 then (s.users.select (fun _ => true) fun a b => a.id ≤ b.id).head?
  else s.users.find id

def manageUser (cfg : Config) (s : State) (myRole id : ℤ) (action : ManageAction) :
    State × Except String User :=
  match unscopedUser s id with
  | none => (s, .error "user.not_exists")
  | some found =>
    match managed myRole action found with
    | .error e => (s, .error e)
    | .ok user =>
      let s := if action = .delete then
        invalidateUserTokensCache cfg (deleteUserRow cfg s user.id) user.id else s
      let s := update cfg s user
      let s := if action = .disable ∨ action = .promote ∨ action = .demote then
        invalidateUserTokensCache cfg (invalidateUserCache cfg s user.id) user.id else s
      (s, .ok user)

/-- `DeleteUser`: the row is gone for good. -/
def deleteUser (s : State) (myRole id : ℤ) : State × Except String Unit :=
  match getUserById s id with
  | .error e => (s, .error e)
  | .ok originUser =>
    if myRole ≤ originUser.role then (s, .error "user.no_permission_higher_level")
    else ({ s with users := s.users.delete id }, .ok ())

def deleteSelf (cfg : Config) (s : State) (id : ℤ) : State × Except String Unit :=
  if ((s.findUser id).map User.role).getD 0 = roleRootUser then
    (s, .error "user.cannot_delete_root_user")
  else if id = 0 then (s, .error "id 为空！")
  else (deleteUserRow cfg s id, .ok ())

inductive Call
  | login (username : String) (passwordOk : Bool)
  | manageUser (myRole id : ℤ) (action : ManageAction)
  | deleteUser (myRole id : ℤ)
  | deleteSelf (id : ℤ)
  | auth (req : AuthRequest)
  | token (req : TokenRequest)
  | expireUser (id : ℤ)
  | expireToken (key : String)
  | elapse (seconds : ℕ)
  deriving DecidableEq

/-- Keys of Redis expire at any moment. -/
def step (cfg : Config) (s : State) : Call → State
  | .login username passwordOk => login s username passwordOk
  | .manageUser myRole id action => (manageUser cfg s myRole id action).1
  | .deleteUser myRole id => (deleteUser s myRole id).1
  | .deleteSelf id => (deleteSelf cfg s id).1
  | .auth req => (authHelper cfg s req).1
  | .token req => (tokenAuth cfg s req).1
  | .expireUser id => s.setUserCache id none
  | .expireToken key => { s with tokenCache := Function.update s.tokenCache key none }
  | .elapse seconds => { s with now := s.now + seconds }

def system (cfg : Config) : System State Call := ⟨fun s a => some (step cfg s a)⟩

/-- Nobody has logged in yet, and Redis is empty. -/
def State.initial (now : ℤ) (users : Table User User.id) (tokens : Table Token Token.id) : State :=
  ⟨now, users, tokens, fun _ => none, fun _ => none, []⟩

/-! ## What is promised, and when it is kept -/

/-- The user exists, is enabled and has at least `minRole`. -/
def HasRights (s : State) (id minRole : ℤ) : Prop :=
  ∃ user, s.findUser id = some user ∧ user.status = .enabled ∧ minRole ≤ user.role

/-- **Revoked rights take effect**: whoever is let through has his rights at that moment. -/
def RightsHeld (cfg : Config) (s : State) : Call → Prop
  | .auth req => ∀ ctx, (authHelper cfg s req).2 = .ok ctx → HasRights s ctx.id req.minRole
  | .token req => ∀ token, (tokenAuth cfg s req).2 = .ok token →
      ∃ user, s.findUser token.userId = some user ∧ user.status = .enabled
  | _ => True

/-- The row still has the status that the session recorded, and the recorded role or one that
is enough. -/
def SessionCurrent (session : Session) (minRole : ℤ) (user : User) : Prop :=
  user.status = session.status ∧ (user.role = session.role ∨ minRole ≤ user.role)

/-- No session with enough rights outlived the rights of its user, and no hash of an enabled
user outlived its row. -/
def Current (cfg : Config) (s : State) : Call → Prop
  | .auth req => ∀ i session, req.session = some i → s.sessions[i]? = some session →
      refuseWho (session.who i) req = none → ∀ user, s.findUser session.id = some user →
        trimSpace user.group ≠ "" → SessionCurrent session req.minRole user
  | .token req => ∀ token base,
      (validateUserToken cfg s ((keyParts req).headD "")).2 = .ok token →
      cfg.ipRefusal token.allowIps req.clientIp = none → cfg.redisEnabled = true →
      s.userCache token.userId = some base → base.status = .enabled →
      refuseToken cfg s token base (keyParts req) = none → s.findUser token.userId ≠ none
  | _ => True

/-- Sessions are those of enabled users, and a hash has the status of its row, if there is one. -/
structure Inv (cfg : Config) (s : State) : Prop where
  sessions : ∀ session ∈ s.sessions, session.status = .enabled
  userCache : cfg.redisEnabled = true → ∀ id base user, s.userCache id = some base →
    s.findUser id = some user → base.status = user.status

variable {cfg : Config} {s t : State} {a : Call}

theorem findUser_eq_some_iff {id : ℤ} {user : User} :
    s.findUser id = some user ↔ user ∈ s.users.rows ∧ user.id = id ∧ user.deleted = false := by
  unfold State.findUser
  rw [Option.filter_eq_some_iff, Table.find_eq_some_iff, Bool.not_eq_true', and_assoc]

theorem findUser_congr (h : t.users = s.users) (id : ℤ) : t.findUser id = s.findUser id := by
  unfold State.findUser
  rw [h]

/-! ## What keeps sessions and hashes in order -/

/-- Where rows and hashes are left alone. -/
theorem Inv.of_same (h : Inv cfg s) (husers : t.users = s.users)
    (hcache : t.userCache = s.userCache)
    (hsessions : ∀ session ∈ t.sessions, session.status = .enabled) : Inv cfg t := by
  refine ⟨hsessions, fun hredis id base user hbase huser => ?_⟩
  rw [hcache] at hbase
  rw [findUser_congr husers] at huser
  exact h.userCache hredis id base user hbase huser

/-- A hash is written with the status of the row, or removed. -/
theorem Inv.setUserCache (h : Inv cfg s) {id : ℤ} {base : Option UserBase}
    (hbase : ∀ b user, base = some b → s.findUser id = some user → b.status = user.status) :
    Inv cfg (s.setUserCache id base) := by
  refine ⟨h.sessions, fun hredis i b user hb huser => ?_⟩
  have hb' : Function.update s.userCache id base i = some b := hb
  rw [Function.update_apply] at hb'
  split at hb'
  · rename_i hi
    exact hbase b user hb' (hi ▸ huser)
  · exact h.userCache hredis i b user hb' huser

theorem Inv.invalidateUserCache (h : Inv cfg s) (userId : ℤ) :
    Inv cfg (invalidateUserCache cfg s userId) := by
  unfold RevokedRights.invalidateUserCache
  split
  · exact h.setUserCache fun _ _ hb => by cases hb
  · exact h

theorem Inv.invalidateUserTokensCache (h : Inv cfg s) (userId : ℤ) :
    Inv cfg (invalidateUserTokensCache cfg s userId) := by
  unfold RevokedRights.invalidateUserTokensCache
  split
  · exact h.of_same rfl rfl h.sessions
  · exact h

theorem Inv.updateUserCache (h : Inv cfg s) {user : User}
    (huser : ∀ u, s.findUser user.id = some u → user.status = u.status) :
    Inv cfg (updateUserCache cfg s user) := by
  unfold RevokedRights.updateUserCache
  split
  · refine h.setUserCache fun b u hb hu => ?_
    cases hb
    exact huser u hu
  · exact h

/-- The rows that are left were there before. -/
theorem Inv.of_fewer (h : Inv cfg s) (hcache : t.userCache = s.userCache)
    (hsessions : t.sessions = s.sessions)
    (hfewer : ∀ id user, t.findUser id = some user → s.findUser id = some user) : Inv cfg t := by
  refine ⟨hsessions ▸ h.sessions, fun hredis id base user hbase huser => ?_⟩
  rw [hcache] at hbase
  exact h.userCache hredis id base user hbase (hfewer id user huser)

theorem findUser_softDelete {id i : ℤ} {user : User}
    (h : (s.softDelete id).findUser i = some user) : s.findUser i = some user := by
  rw [findUser_eq_some_iff] at h ⊢
  obtain ⟨hmem, hid, hdeleted⟩ := h
  simp only [State.softDelete, Table.mem_updateWhere] at hmem
  obtain ⟨old, hold, rfl⟩ := hmem
  split at hdeleted
  · cases hdeleted
  · rename_i hother
    rw [if_neg hother] at hid ⊢
    exact ⟨hold, hid, hdeleted⟩

/-- The row of `user.id`, if it is there, has the new status; the others are as they were. -/
theorem findUser_updates {user u : User} {i : ℤ} (h : (s.updates user).findUser i = some u) :
    (i = user.id ∧ u.status = user.status) ∨ (i ≠ user.id ∧ s.findUser i = some u) := by
  rw [findUser_eq_some_iff] at h
  obtain ⟨hmem, hid, hdeleted⟩ := h
  simp only [State.updates, Table.mem_updateWhere] at hmem
  obtain ⟨old, hold, rfl⟩ := hmem
  split at hid
  · rename_i hmatch
    rw [if_pos hmatch]
    obtain ⟨holdId, -⟩ := Bool.and_eq_true_iff.mp hmatch
    exact .inl ⟨hid.symm.trans (of_decide_eq_true holdId), rfl⟩
  · rename_i hmatch
    rw [if_neg hmatch] at hdeleted ⊢
    refine .inr ⟨fun hi => hmatch ?_, findUser_eq_some_iff.mpr ⟨hold, hid, hdeleted⟩⟩
    rw [hdeleted, decide_eq_true (hid.trans hi)]
    rfl

theorem Inv.deleteUserRow (h : Inv cfg s) (id : ℤ) : Inv cfg (deleteUserRow cfg s id) := by
  have hdeleted : Inv cfg (s.softDelete id) :=
    h.of_fewer rfl rfl fun _ _ huser => findUser_softDelete huser
  exact hdeleted.invalidateUserCache id

/-- The hash gets the status that the row gets. -/
theorem Inv.update (h : Inv cfg s) (user : User) : Inv cfg (update cfg s user) := by
  unfold RevokedRights.update RevokedRights.updateUserCache
  split
  · refine ⟨h.sessions, fun hredis i base u hbase hu => ?_⟩
    have hbase' : Function.update s.userCache user.id (some user.toBaseUser) i = some base := hbase
    rw [Function.update_apply] at hbase'
    rcases findUser_updates (s := s) hu with ⟨hi, hstatus⟩ | ⟨hi, hold⟩
    · rw [if_pos hi] at hbase'
      cases hbase'
      exact hstatus.symm
    · rw [if_neg hi] at hbase'
      exact h.userCache hredis i base u hbase' hold
  · rename_i hoff
    exact ⟨h.sessions, fun hredis => absurd hredis hoff⟩

theorem Inv.login (h : Inv cfg s) (username : String) (passwordOk : Bool) :
    Inv cfg (login s username passwordOk) := by
  unfold RevokedRights.login
  dsimp only
  split
  · exact h
  split
  · exact h
  · rename_i user _ hchecks
    refine h.of_same rfl rfl fun session hsession => ?_
    rcases List.mem_append.mp hsession with hold | hnew
    · exact h.sessions session hold
    · rw [List.mem_singleton.mp hnew]
      by_contra hstatus
      exact hchecks (.inr (.inr hstatus))

theorem Inv.manageUser (h : Inv cfg s) (myRole id : ℤ) (action : ManageAction) :
    Inv cfg (manageUser cfg s myRole id action).1 := by
  unfold RevokedRights.manageUser
  split
  · exact h
  split
  · exact h
  · rename_i user _
    have hdeleted : Inv cfg (if action = .delete then RevokedRights.invalidateUserTokensCache cfg
        (RevokedRights.deleteUserRow cfg s user.id) user.id else s) := by
      split
      · exact (h.deleteUserRow user.id).invalidateUserTokensCache user.id
      · exact h
    have hupdated := hdeleted.update user
    dsimp only
    split
    · exact (hupdated.invalidateUserCache user.id).invalidateUserTokensCache user.id
    · exact hupdated

theorem Inv.deleteUser (h : Inv cfg s) (myRole id : ℤ) : Inv cfg (deleteUser s myRole id).1 := by
  unfold RevokedRights.deleteUser
  split
  · exact h
  split
  · exact h
  · refine h.of_fewer rfl rfl fun i user huser => ?_
    rw [findUser_eq_some_iff] at huser ⊢
    exact ⟨(Table.mem_delete.mp huser.1).1, huser.2⟩

theorem Inv.deleteSelf (h : Inv cfg s) (id : ℤ) : Inv cfg (deleteSelf cfg s id).1 := by
  unfold RevokedRights.deleteSelf
  split
  · exact h
  split
  · exact h
  · exact h.deleteUserRow id

/-- The group of a hash is not its status. -/
theorem Inv.updateUserGroupCache (h : Inv cfg s) (id : ℤ) (group : String) :
    Inv cfg (updateUserGroupCache cfg s id group) := by
  unfold RevokedRights.updateUserGroupCache
  split
  · rename_i hredis
    refine h.setUserCache fun b user hb huser => ?_
    obtain ⟨base, hbase, rfl⟩ := Option.map_eq_some_iff.mp hb
    exact h.userCache hredis id base user hbase huser
  · exact h

theorem Inv.refreshSession (h : Inv cfg s) (who : Who) (group : String) :
    Inv cfg (refreshSession s who group) := by
  unfold RevokedRights.refreshSession
  split
  · exact h
  · rename_i i _
    refine h.of_same rfl rfl fun session hsession => ?_
    obtain ⟨j, hj⟩ := List.mem_iff_getElem?.mp hsession
    rw [List.getElem?_modify] at hj
    obtain ⟨old, hold, rfl⟩ := Option.map_eq_some_iff.mp hj
    have henabled := h.sessions old (List.mem_of_getElem? hold)
    split
    · exact henabled
    · exact henabled

theorem Inv.authHelper (h : Inv cfg s) (req : AuthRequest) :
    Inv cfg (authHelper cfg s req).1 := by
  unfold RevokedRights.authHelper
  split
  · exact h
  split
  · exact h
  · rename_i who _ _ _
    have hgroup := h.updateUserGroupCache who.id (getUserGroup s who.id)
    dsimp only
    split
    · exact hgroup
    · exact hgroup.refreshSession who _

/-! ## `TokenAuth` changes no user -/

/-- Rows of users, hashes of users and sessions are left alone. -/
structure SameUsers (s t : State) : Prop where
  users : t.users = s.users
  userCache : t.userCache = s.userCache
  sessions : t.sessions = s.sessions

theorem SameUsers.refl (s : State) : SameUsers s s := ⟨rfl, rfl, rfl⟩

theorem SameUsers.trans {u : State} (h : SameUsers s t) (h' : SameUsers t u) : SameUsers s u :=
  ⟨h'.users.trans h.users, h'.userCache.trans h.userCache, h'.sessions.trans h.sessions⟩

theorem SameUsers.findUser (h : SameUsers s t) (id : ℤ) : t.findUser id = s.findUser id :=
  findUser_congr h.users id

theorem SameUsers.inv (hsame : SameUsers s t) (h : Inv cfg s) : Inv cfg t :=
  h.of_same hsame.users hsame.userCache (hsame.sessions ▸ h.sessions)

theorem getTokenByKey_same (cfg : Config) (s : State) (key : String) :
    SameUsers s (getTokenByKey cfg s key).1 := by
  unfold getTokenByKey
  split
  · exact .refl s
  split
  · exact .refl s
  · dsimp only
    split <;> exact ⟨rfl, rfl, rfl⟩

theorem storeStatus_same (cfg : Config) (s : State) (token : Token) (status : TokenStatus) :
    SameUsers s (storeStatus cfg s token status) := by
  unfold storeStatus
  split <;> exact ⟨rfl, rfl, rfl⟩

theorem validateUserToken_same (cfg : Config) (s : State) (key : String) :
    SameUsers s (validateUserToken cfg s key).1 := by
  have hget := getTokenByKey_same cfg s key
  unfold validateUserToken
  split
  · exact .refl s
  generalize getTokenByKey cfg s key = r at hget ⊢
  obtain ⟨t, answer⟩ := r
  cases answer with
  | error e => exact hget
  | ok token =>
    dsimp only
    split
    · exact hget
    split
    · exact hget.trans (storeStatus_same cfg t token _)
    split
    · exact hget.trans (storeStatus_same cfg t token _)
    · exact hget

/-- What `getUserCache` answers, and what it leaves. -/
theorem Inv.getUserCache (h : Inv cfg s) (userId : ℤ) : Inv cfg (getUserCache cfg s userId).1 := by
  unfold RevokedRights.getUserCache
  split
  · exact h
  split
  · exact h
  · rename_i user huser
    refine h.updateUserCache fun u hu => ?_
    unfold getUserById at huser
    split at huser
    · cases huser
    split at huser
    · cases huser
    · rename_i found hfound
      cases huser
      have hid := (findUser_eq_some_iff.mp hfound).2.1
      rw [hid, hfound] at hu
      cases hu
      rfl

theorem Inv.tokenAuth (h : Inv cfg s) (req : TokenRequest) : Inv cfg (tokenAuth cfg s req).1 := by
  have hvalid := (validateUserToken_same cfg s ((keyParts req).headD "")).inv h
  unfold RevokedRights.tokenAuth
  dsimp only
  generalize validateUserToken cfg s ((keyParts req).headD "") = r at hvalid ⊢
  obtain ⟨t, answer⟩ := r
  cases answer with
  | error e => exact hvalid
  | ok token =>
    dsimp only
    split
    · exact hvalid
    have hcache := hvalid.getUserCache token.userId
    generalize RevokedRights.getUserCache cfg t token.userId = r at hcache ⊢
    obtain ⟨u, answer⟩ := r
    cases answer with
    | error e => exact hcache
    | ok userCache =>
      dsimp only
      split
      · exact hcache
      split
      · exact hcache
      · exact hcache

theorem Inv.step (h : Inv cfg s) (a : Call) : Inv cfg (step cfg s a) := by
  cases a with
  | login username passwordOk => exact h.login username passwordOk
  | manageUser myRole id action => exact h.manageUser myRole id action
  | deleteUser myRole id => exact h.deleteUser myRole id
  | deleteSelf id => exact h.deleteSelf id
  | auth req => exact h.authHelper req
  | token req => exact h.tokenAuth req
  | expireUser id => exact h.setUserCache fun _ _ hb => by cases hb
  | expireToken key => exact h.of_same rfl rfl h.sessions
  | elapse seconds => exact h.of_same rfl rfl h.sessions

/-! ## Who is let through -/

/-- A request is let through if it names someone whom the checks accept and whose row has a
group. -/
theorem authHelper_ok_iff {req : AuthRequest} {ctx : AuthContext} :
    (authHelper cfg s req).2 = .ok ctx ↔ ∃ who, whoIs s req = .ok who ∧ refuseWho who req = none ∧
      trimSpace (getUserGroup s who.id) ≠ "" ∧
      ctx = ⟨who.username, who.role, who.id, getUserGroup s who.id, who.session.isNone⟩ := by
  unfold authHelper
  cases hwho : whoIs s req with
  | error e =>
    constructor
    · intro h
      cases h
    · rintro ⟨who, h, -⟩
      cases h
  | ok who =>
    dsimp only
    cases hrefuse : refuseWho who req with
    | some e =>
      constructor
      · intro h
        cases h
      · rintro ⟨who', h, hnone, -⟩
        cases h
        rw [hrefuse] at hnone
        cases hnone
    | none =>
      dsimp only
      split
      · rename_i hempty
        constructor
        · intro h
          cases h
        · rintro ⟨who', h, -, hne, -⟩
          cases h
          exact absurd hempty hne
      · rename_i hne
        constructor
        · intro h
          cases h
          exact ⟨who, rfl, hrefuse, hne, rfl⟩
        · rintro ⟨who', h, -, -, rfl⟩
          cases h
          rfl

/-- Only a user who is there has a group. -/
theorem getUserGroup_ne {id : ℤ} (h : trimSpace (getUserGroup s id) ≠ "") :
    ∃ user, s.findUser id = some user ∧ trimSpace user.group ≠ "" := by
  unfold getUserGroup at h
  cases huser : s.findUser id with
  | none =>
    rw [huser] at h
    exact absurd (by decide) h
  | some user =>
    rw [huser] at h
    exact ⟨user, rfl, h⟩

theorem refuseWho_none {who : Who} {req : AuthRequest} (h : refuseWho who req = none) :
    who.status = .enabled ∧ req.minRole ≤ who.role := by
  unfold refuseWho at h
  split at h
  · cases h
  split at h
  · cases h
  split at h
  · cases h
  split at h
  · cases h
  split at h
  · cases h
  · rename_i hstatus hrole
    refine ⟨?_, by omega⟩
    cases hs : who.status with
    | enabled => rfl
    | disabled => exact absurd hs hstatus

/-- By an access token, it is the row itself that answers. -/
theorem whoByAccessToken_row {authorization : String} {who : Who}
    (h : whoByAccessToken s authorization = .ok who) :
    ∃ user, s.findUser who.id = some user ∧ user.status = who.status ∧ user.role = who.role := by
  unfold whoByAccessToken at h
  split at h
  · cases h
  split at h
  · cases h
  rename_i user hfound
  split at h
  · cases h
  split at h
  · cases h
  · cases h
    unfold validateAccessToken at hfound
    have hmatch := List.find?_some hfound
    have hdeleted : user.deleted = false := by
      have := (Bool.and_eq_true_iff.mp hmatch).1
      rwa [Bool.not_eq_true'] at this
    exact ⟨user, findUser_eq_some_iff.mpr ⟨List.mem_of_find?_eq_some hfound, rfl, hdeleted⟩,
      rfl, rfl⟩

/-- **A session is as good as its copy of the row.** -/
theorem auth_iff (h : Inv cfg s) (req : AuthRequest) :
    RightsHeld cfg s (.auth req) ↔ Current cfg s (.auth req) := by
  constructor
  · intro hheld i session hi hsession hrefuse user huser hgroup
    have hwho : whoIs s req = .ok (session.who i) := by
      unfold whoIs
      rw [hi, Option.bind_some, hsession]
      rfl
    have hgroup' : trimSpace (getUserGroup s session.id) ≠ "" := by
      unfold getUserGroup
      rw [huser]
      exact hgroup
    obtain ⟨u, hu, hstatus, hrole⟩ := hheld _
      (authHelper_ok_iff.mpr ⟨session.who i, hwho, hrefuse, hgroup', rfl⟩)
    rw [show s.findUser session.id = some u from hu] at huser
    cases huser
    exact ⟨hstatus.trans (h.sessions session (List.mem_of_getElem? hsession)).symm, .inr hrole⟩
  · intro hcurrent ctx hctx
    obtain ⟨who, hwho, hrefuse, hgroup, rfl⟩ := authHelper_ok_iff.mp hctx
    obtain ⟨user, huser, hblank⟩ := getUserGroup_ne hgroup
    obtain ⟨hstatus, hrole⟩ := refuseWho_none hrefuse
    unfold whoIs at hwho
    cases hsession : req.session.bind fun i =>
        (s.sessions[i]?).map fun session => session.who i with
    | none =>
      rw [hsession] at hwho
      obtain ⟨u, hu, hsame, hsameRole⟩ := whoByAccessToken_row hwho
      exact ⟨u, hu, hsame.trans hstatus, hsameRole ▸ hrole⟩
    | some found =>
      rw [hsession] at hwho
      cases hwho
      obtain ⟨i, hi, hmap⟩ := Option.bind_eq_some_iff.mp hsession
      obtain ⟨session, hget, rfl⟩ := Option.map_eq_some_iff.mp hmap
      obtain ⟨hsame, hor⟩ := hcurrent i session hi hget hrefuse user huser hblank
      refine ⟨user, huser, hsame.trans hstatus, ?_⟩
      rcases hor with hsameRole | henough
      · rw [hsameRole]
        exact hrole
      · exact henough

theorem SameUsers.getUserCache (h : SameUsers s t) (cfg : Config) (userId : ℤ) :
    (getUserCache cfg t userId).2 = (getUserCache cfg s userId).2 := by
  unfold RevokedRights.getUserCache getUserById
  rw [h.userCache, h.findUser]
  split
  · rfl
  · split <;> rfl

theorem getUserCache_users (cfg : Config) (s : State) (userId : ℤ) :
    (getUserCache cfg s userId).1.users = s.users := by
  unfold RevokedRights.getUserCache updateUserCache
  split
  · rfl
  split
  · rfl
  · dsimp only
    split <;> rfl

theorem refuseToken_congr (h : t.users = s.users) (token : Token) (base : UserBase)
    (parts : List String) :
    refuseToken cfg t token base parts = refuseToken cfg s token base parts := by
  unfold refuseToken isAdmin
  rw [findUser_congr h]

/-- What `tokenAuth` lets through: a valid token whose owner's hash, or else row, is enabled. -/
theorem tokenAuth_ok_iff {req : TokenRequest} {token : Token} :
    (tokenAuth cfg s req).2 = .ok token ↔
      (validateUserToken cfg s ((keyParts req).headD "")).2 = .ok token ∧
      cfg.ipRefusal token.allowIps req.clientIp = none ∧
      ∃ base, (getUserCache cfg s token.userId).2 = .ok base ∧ base.status = .enabled ∧
        refuseToken cfg s token base (keyParts req) = none := by
  have hsame := validateUserToken_same cfg s ((keyParts req).headD "")
  constructor
  · intro h
    unfold tokenAuth at h
    dsimp only at h
    split at h
    · cases h
    rename_i t found hvalid
    rw [hvalid] at hsame ⊢
    have hcache := hsame.getUserCache cfg found.userId
    have husers := (getUserCache_users cfg t found.userId).trans hsame.users
    split at h
    · cases h
    rename_i hip
    split at h
    · cases h
    rename_i u base hbase
    rw [hbase] at hcache husers
    split at h
    · cases h
    rename_i henabled
    split at h
    · cases h
    rename_i hrefuse
    cases h
    rw [refuseToken_congr husers] at hrefuse
    exact ⟨rfl, hip, base, hcache.symm, Decidable.not_not.mp henabled, hrefuse⟩
  · rintro ⟨hvalid, hip, base, hbase, henabled, hrefuse⟩
    unfold tokenAuth
    dsimp only
    generalize validateUserToken cfg s ((keyParts req).headD "") = r at hsame hvalid ⊢
    obtain ⟨t, answer⟩ := r
    subst hvalid
    dsimp only at hsame ⊢
    have husers := (getUserCache_users cfg t token.userId).trans hsame.users
    rw [← hsame.getUserCache cfg token.userId] at hbase
    rw [hip]
    generalize RevokedRights.getUserCache cfg t token.userId = r at hbase husers ⊢
    obtain ⟨u, owner⟩ := r
    subst hbase
    dsimp only at husers ⊢
    rw [if_neg (not_not_intro henabled), refuseToken_congr husers, hrefuse]

/-- **A token is as good as the hash of its owner.** -/
theorem token_iff (h : Inv cfg s) (req : TokenRequest) :
    RightsHeld cfg s (.token req) ↔ Current cfg s (.token req) := by
  constructor
  · intro hheld token base hvalid hip hredis hhash henabled hrefuse
    have hbase : (getUserCache cfg s token.userId).2 = .ok base := by
      unfold getUserCache
      rw [if_pos hredis, hhash]
    obtain ⟨user, huser, -⟩ := hheld token
      (tokenAuth_ok_iff.mpr ⟨hvalid, hip, base, hbase, henabled, hrefuse⟩)
    rw [huser]
    exact Option.some_ne_none user
  · intro hcurrent token hok
    obtain ⟨hvalid, hip, base, hbase, henabled, hrefuse⟩ := tokenAuth_ok_iff.mp hok
    unfold getUserCache at hbase
    split at hbase
    · rename_i found hfound
      cases hbase
      split at hfound
      · rename_i hredis
        have hrow := hcurrent token base hvalid hip hredis hfound henabled hrefuse
        obtain ⟨user, huser⟩ := Option.ne_none_iff_exists'.mp hrow
        exact ⟨user, huser, (h.userCache hredis _ _ _ hfound huser).symm.trans henabled⟩
      · cases hfound
    · split at hbase
      · cases hbase
      · rename_i user huser
        cases hbase
        unfold getUserById at huser
        split at huser
        · cases huser
        split at huser
        · cases huser
        · rename_i found hfound
          cases huser
          exact ⟨user, hfound, henabled⟩

/-- **Revoked rights take effect exactly when** nobody uses a session that outlived them, and
no hash of a user who is gone lets a token through. -/
theorem revoked_iff (cfg : Config) (now : ℤ) (users : Table User User.id)
    (tokens : Table Token Token.id) (as : List Call) :
    (system cfg).EveryStep (RightsHeld cfg) (State.initial now users tokens) as ↔
      (system cfg).EveryStep (Current cfg) (State.initial now users tokens) as := by
  refine System.everyStep_congr (I := Inv cfg) (fun s a t h ht => ?_) (fun s a h => ?_) ?_
  · cases ht
    exact h.step a
  · cases a with
    | auth req => exact auth_iff h req
    | token req => exact token_iff h req
    | login username passwordOk => exact Iff.rfl
    | manageUser myRole id action => exact Iff.rfl
    | deleteUser myRole id => exact Iff.rfl
    | deleteSelf id => exact Iff.rfl
    | expireUser id => exact Iff.rfl
    | expireToken key => exact Iff.rfl
    | elapse seconds => exact Iff.rfl
  · exact ⟨fun session hsession => absurd hsession List.not_mem_nil,
      fun _ _ _ _ hbase => by cases hbase⟩

/-! ## Rights that outlive their user -/

def sampleConfig : Config := ⟨true, fun _ _ => none, fun _ _ _ => true, fun _ => true⟩

/-- An enabled user with the id 2. -/
def sampleUsers : Table User User.id :=
  ⟨[⟨2, "alice", "", 1, .enabled, "default", none, false⟩], by decide⟩

def disabledSession : List Call :=
  [.login "alice" true, .manageUser 100 2 .disable, .auth ⟨1, some 0, "", "2"⟩]

theorem disabled_session_passes :
    ¬ (system sampleConfig).EveryStep (RightsHeld sampleConfig)
      (State.initial 0 sampleUsers Table.empty) disabledSession := by
  intro h
  obtain ⟨hheld, -⟩ := ((h _ rfl).2 _ rfl).2 _ rfl
  obtain ⟨user, huser, henabled, -⟩ := hheld ⟨"alice", 1, 2, "default", false⟩ (by decide +kernel)
  have hrow : (step sampleConfig (step sampleConfig (State.initial 0 sampleUsers Table.empty)
      (.login "alice" true)) (.manageUser 100 2 .disable)).findUser 2 =
        some ⟨2, "alice", "", 1, .disabled, "default", none, false⟩ := by decide +kernel
  rw [hrow] at huser
  cases huser
  cases henabled

end RevokedRights
