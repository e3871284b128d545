import GMasterApi.Lib.Transaction
import Mathlib.Algebra.BigOperators.Group.List.Basic
import Mathlib.Algebra.Ring.Int.Defs

/-!
# Edits that do not concern money

`UpdateSelf`, `ManageUser`, `UpdateToken` with `status_only` and
`DisableModelLimits` load a row, change one attribute and write the row back:
`User.Update` every column that is not zero, `Token.Update` a fixed list that
holds `remain_quota`.  The amounts of the loaded row are written with it.

Money is left alone exactly when each edit writes back amounts that are still
the stored ones (`money_kept_iff`).
-/

namespace AttributeEdit

open Sql Transition

structure User where
  role : ℤ
  status : ℤ
  setting : String
  quota : ℤ
  usedQuota : ℤ
  requestCount : ℤ
  affQuota : ℤ
  deriving DecidableEq

structure Token where
  userId : ℤ
  name : String
  status : ℤ
  expiredTime : ℤ
  remainQuota : ℤ
  unlimitedQuota : Bool
  modelLimitsEnabled : Bool
  modelLimits : String
  allowIps : Option String
  usedQuota : ℤ
  group : String
  crossGroupRetry : Bool
  deriving DecidableEq

/-- The rows of `users` and `tokens`, by id. -/
structure Db where
  users : ℤ → User
  tokens : ℤ → Token

def roleCommonUser : ℤ := 1
def roleAdminUser : ℤ := 10
def roleRootUser : ℤ := 100

def userStatusEnabled : ℤ := 1
def userStatusDisabled : ℤ := 2

def tokenStatusEnabled : ℤ := 1
def tokenStatusExpired : ℤ := 3
def tokenStatusExhausted : ℤ := 4

/-! ## Writes -/

/-- A column under gorm's `Updates(struct)`, which leaves out zero values. -/
def updated {α : Type} [DecidableEq α] (zero value stored : α) : α :=
  if value = zero then stored else value

/-- `DB.Model(user).Updates(newUser)`. -/
def User.updates (stored newUser : User) : User where
  role := updated 0 newUser.role stored.role
  status := updated 0 newUser.status stored.status
  setting := updated "" newUser.setting stored.setting
  quota := updated 0 newUser.quota stored.quota
  usedQuota := updated 0 newUser.usedQuota stored.usedQuota
  requestCount := updated 0 newUser.requestCount stored.requestCount
  affQuota := updated 0 newUser.affQuota stored.affQuota

/-- `DB.Model(token).Select(…).Updates(token)`: the selected columns, zero or not. -/
def Token.updates (stored token : Token) : Token :=
  { stored with
    name := token.name
    status := token.status
    expiredTime := token.expiredTime
    remainQuota := token.remainQuota
    unlimitedQuota := token.unlimitedQuota
    modelLimitsEnabled := token.modelLimitsEnabled
    modelLimits := token.modelLimits
    allowIps := token.allowIps
    group := token.group
    crossGroupRetry := token.crossGroupRetry }

/-- The `UPDATE`s; the first three are relative. -/
inductive Write
  | addUserQuota (id n : ℤ)
  | addUserUsedQuota (id quota count : ℤ)
  | addTokenQuota (id n : ℤ)
  | updateUser (id : ℤ) (newUser : User)
  | updateToken (id : ℤ) (token : Token)
  deriving DecidableEq

def User.addUsed (u : User) (quota count : ℤ) : User :=
  { u with usedQuota := u.usedQuota + quota, requestCount := u.requestCount + count }

/-- What is added to `remain_quota` is taken from `used_quota`. -/
def Token.add (t : Token) (n : ℤ) : Token :=
  { t with remainQuota := t.remainQuota + n, usedQuota := t.usedQuota - n }

def Db.setUser (db : Db) (id : ℤ) (u : User) : Db :=
  { db with users := Function.update db.users id u }

def Db.setToken (db : Db) (id : ℤ) (t : Token) : Db :=
  { db with tokens := Function.update db.tokens id t }

def applyWrite (db : Db) : Write → Db
  | .addUserQuota id n =>
    db.setUser id { db.users id with quota := (db.users id).quota + n }
  | .addUserUsedQuota id quota count => db.setUser id ((db.users id).addUsed quota count)
  | .addTokenQuota id n => db.setToken id ((db.tokens id).add n)
  | .updateUser id newUser => db.setUser id ((db.users id).updates newUser)
  | .updateToken id token => db.setToken id ((db.tokens id).updates token)

/-! ## Calls -/

/-- What `UpdateSelf` is asked to change; `none` is a value that is not a string. -/
inductive SelfEdit
  | sidebarModules (value : Option String)
  | language (value : Option String)
  deriving DecidableEq

inductive ManageAction
  | disable
  | enable
  | promote
  | demote
  deriving DecidableEq

/-- The token of an `UpdateToken` request, as far as `status_only` looks at it. -/
structure TokenRequest where
  id : ℤ
  name : String
  status : ℤ
  remainQuota : ℤ
  unlimitedQuota : Bool
  deriving DecidableEq

/-- `withEdit` is the stored text of a setting after `GetSetting`, the edit and
`SetSetting`; `maxQuotaValue` is `int(1000000000 * common.QuotaPerUnit)`. -/
structure Config where
  withEdit : SelfEdit → String → String
  maxQuotaValue : ℤ

inductive Call
  | increaseUserQuota (id quota : ℤ)
  | decreaseUserQuota (id quota : ℤ)
  | updateUserUsedQuotaAndRequestCount (id quota count : ℤ)
  | updateUserUsedQuota (id quota : ℤ)
  | increaseTokenQuota (id quota : ℤ)
  | decreaseTokenQuota (id quota : ℤ)
  | updateSelf (userId : ℤ) (edit : SelfEdit)
  | manageUser (myRole id : ℤ) (action : ManageAction)
  | updateTokenStatus (userId : ℤ) (token : TokenRequest) (now : ℤ)
  | disableModelLimits (tokenId : ℤ)
  deriving DecidableEq

/-- The row that `ManageUser` hands to `Update`. -/
def manageUser (myRole : ℤ) (action : ManageAction) (user : User) : Except String User :=
  if myRole ≤ user.role ∧ myRole ≠ roleRootUser then .error "user.no_permission_higher_level"
  else
    match action with
    | .disable =>
      if user.role = roleRootUser then .error "user.cannot_disable_root_user"
      else .ok { user with status := userStatusDisabled }
    | .enable => .ok { user with status := userStatusEnabled }
    | .promote =>
      if myRole ≠ roleRootUser then .error "user.admin_cannot_promote"
      else if roleAdminUser ≤ user.role then .error "user.already_admin"
      else .ok { user with role := roleAdminUser }
    | .demote =>
      if user.role = roleRootUser then .error "user.cannot_demote_root_user"
      else if user.role = roleCommonUser then .error "user.already_common"
      else .ok { user with role := roleCommonUser }

/-- The row that `UpdateToken` with `status_only` hands to `Update`. -/
def updateTokenStatus (cfg : Config) (userId : ℤ) (token : TokenRequest) (now : ℤ)
    (cleanToken : Token) : Except String Token :=
  if 50 < token.name.utf8ByteSize then .error "token.name_too_long"
  else if !token.unlimitedQuota && decide (token.remainQuota < 0) then
    .error "token.quota_negative"
  else if !token.unlimitedQuota && decide (cfg.maxQuotaValue < token.remainQuota) then
    .error "token.quota_exceed_max"
  else if token.id = 0 ∨ userId = 0 then .error "id 或 userId 为空！"
  else if cleanToken.userId ≠ userId then .error "record not found"
  else if token.status = tokenStatusEnabled ∧ cleanToken.status = tokenStatusExpired ∧
      cleanToken.expiredTime ≤ now ∧ cleanToken.expiredTime ≠ -1 then
    .error "token.expired_cannot_enable"
  else if token.status = tokenStatusEnabled ∧ cleanToken.status = tokenStatusExhausted ∧
      cleanToken.remainQuota ≤ 0 ∧ cleanToken.unlimitedQuota = false then
    .error "token.exhausted_cannot_enable"
  else .ok { cleanToken with status := token.status }

/-- `User.Update`: `DB.First` loads the row again, `newUser` is what was loaded before. -/
def update (id : ℤ) (newUser : User) : Script Db Write String :=
  .select fun _ => .ok (.exec [.updateUser id newUser] .done)

/-- What each call does after its first `SELECT`; the relative updates make none. -/
def body (cfg : Config) (call : Call) (db : Db) : Except String (Script Db Write String) :=
  match call with
  | .increaseUserQuota id quota => .ok (.exec [.addUserQuota id quota] .done)
  | .decreaseUserQuota id quota => .ok (.exec [.addUserQuota id (-quota)] .done)
  | .updateUserUsedQuotaAndRequestCount id quota count =>
    .ok (.exec [.addUserUsedQuota id quota count] .done)
  | .updateUserUsedQuota id quota => .ok (.exec [.addUserUsedQuota id quota 0] .done)
  | .increaseTokenQuota id quota => .ok (.exec [.addTokenQuota id quota] .done)
  | .decreaseTokenQuota id quota => .ok (.exec [.addTokenQuota id (-quota)] .done)
  | .updateSelf userId edit =>
    if userId = 0 then .error "id 为空！"
    else
      let user := db.users userId
      .ok (update userId { user with setting := cfg.withEdit edit user.setting })
  | .manageUser myRole id action =>
    match manageUser myRole action (db.users id) with
    | .error e => .error e
    | .ok user => .ok (update id user)
  | .updateTokenStatus userId token now =>
    match updateTokenStatus cfg userId token now (db.tokens token.id) with
    | .error e => .error e
    | .ok cleanToken => .ok (.exec [.updateToken token.id cleanToken] .done)
  | .disableModelLimits tokenId =>
    if tokenId = 0 then .error "id 为空！"
    else
      .ok (.exec [.updateToken tokenId
        { db.tokens tokenId with modelLimitsEnabled := false, modelLimits := "" }] .done)

def protocol (cfg : Config) : Protocol Db Call Write String Unit where
  body := body cfg
  apply := applyWrite
  locks := fun _ => []

/-! ## What a call is worth -/

/-- What the calls on the rows `id` are meant to add to each amount. -/
def quotaDelta (id : ℤ) : Call → ℤ
  | .increaseUserQuota i quota => if i = id then quota else 0
  | .decreaseUserQuota i quota => if i = id then -quota else 0
  | _ => 0

def usedQuotaDelta (id : ℤ) : Call → ℤ
  | .updateUserUsedQuotaAndRequestCount i quota _ => if i = id then quota else 0
  | .updateUserUsedQuota i quota => if i = id then quota else 0
  | _ => 0

def remainQuotaDelta (id : ℤ) : Call → ℤ
  | .increaseTokenQuota i quota => if i = id then quota else 0
  | .decreaseTokenQuota i quota => if i = id then -quota else 0
  | _ => 0

def total (f : Call → ℤ) (hs : List (Call × List Write)) : ℤ := (hs.map fun h => f h.1).sum

/-- The amounts of a user are the initial ones and what the finished calls added. -/
def UserKept (initial : Db) (id : ℤ) (u : User) (hs : List (Call × List Write)) : Prop :=
  u.quota = (initial.users id).quota + total (quotaDelta id) hs ∧
    u.usedQuota = (initial.users id).usedQuota + total (usedQuotaDelta id) hs ∧
    u.affQuota = (initial.users id).affQuota

/-- The same of a token; what it gains as `RemainQuota` it loses as `UsedQuota`. -/
def TokenKept (initial : Db) (id : ℤ) (t : Token) (hs : List (Call × List Write)) : Prop :=
  t.remainQuota = (initial.tokens id).remainQuota + total (remainQuotaDelta id) hs ∧
    t.usedQuota = (initial.tokens id).usedQuota - total (remainQuotaDelta id) hs

/-- **Money is left alone.**  A call that is still open has written nothing. -/
def MoneyKept (initial db : Db) (hs : List (Call × List Write)) : Prop :=
  (∀ id, UserKept initial id (db.users id) hs) ∧ ∀ id, TokenKept initial id (db.tokens id) hs

/-- The user row that a call loads and writes back. -/
def Call.editsUser : Call → Option ℤ
  | .updateSelf userId _ => some userId
  | .manageUser _ id _ => some id
  | _ => none

def Call.editsToken : Call → Option ℤ
  | .updateTokenStatus _ token _ => some token.id
  | .disableModelLimits tokenId => some tokenId
  | _ => none

/-- The loaded amount is not written, or it is the stored one. -/
def Current (loaded stored : ℤ) : Prop := loaded = 0 ∨ stored = loaded

/-- The amounts that an edit is about to write back are those stored now. -/
def WritesStored (db : Db) (_ : List (Call × List Write)) (o : Open Db Call Write String) : Prop :=
  (∀ id, o.call.editsUser = some id →
    Current (o.seen.users id).quota (db.users id).quota ∧
      Current (o.seen.users id).usedQuota (db.users id).usedQuota) ∧
    ∀ id, o.call.editsToken = some id →
      (db.tokens id).remainQuota = (o.seen.tokens id).remainQuota

variable {cfg : Config} {initial db seen : Db} {hs : List (Call × List Write)} {call : Call}
  {ws : List Write} {id : ℤ}

@[simp] theorem total_nil (f : Call → ℤ) : total f [] = 0 := rfl

@[simp] theorem total_append (f : Call → ℤ) (hs : List (Call × List Write)) (c : Call)
    (ws : List Write) : total f (hs ++ [(c, ws)]) = total f hs + f c := by
  simp [total]

/-- One more call: what it does to the amounts is what it is worth. -/
theorem UserKept.append_iff {u u' : User} (h : UserKept initial id u hs) :
    UserKept initial id u' (hs ++ [(call, ws)]) ↔
      u'.quota = u.quota + quotaDelta id call ∧
        u'.usedQuota = u.usedQuota + usedQuotaDelta id call ∧ u'.affQuota = u.affQuota := by
  obtain ⟨hq, hu, ha⟩ := h
  unfold UserKept
  rw [total_append, total_append, hq, hu, ha]
  constructor
  · rintro ⟨h₁, h₂, h₃⟩
    exact ⟨by omega, by omega, h₃⟩
  · rintro ⟨h₁, h₂, h₃⟩
    exact ⟨by omega, by omega, h₃⟩

theorem TokenKept.append_iff {t t' : Token} (h : TokenKept initial id t hs) :
    TokenKept initial id t' (hs ++ [(call, ws)]) ↔
      t'.remainQuota = t.remainQuota + remainQuotaDelta id call ∧
        t'.usedQuota = t.usedQuota - remainQuotaDelta id call := by
  obtain ⟨hr, hu⟩ := h
  unfold TokenKept
  rw [total_append, hr, hu]
  constructor
  · rintro ⟨h₁, h₂⟩
    exact ⟨by omega, by omega⟩
  · rintro ⟨h₁, h₂⟩
    exact ⟨by omega, by omega⟩

/-! ## What a call writes -/

/-- The `UPDATE` of a call that is relative. -/
def Call.relative : Call → Option Write
  | .increaseUserQuota id quota => some (.addUserQuota id quota)
  | .decreaseUserQuota id quota => some (.addUserQuota id (-quota))
  | .updateUserUsedQuotaAndRequestCount id quota count =>
    some (.addUserUsedQuota id quota count)
  | .updateUserUsedQuota id quota => some (.addUserUsedQuota id quota 0)
  | .increaseTokenQuota id quota => some (.addTokenQuota id quota)
  | .decreaseTokenQuota id quota => some (.addTokenQuota id (-quota))
  | _ => none

/-- The edit leaves the loaded amounts as they are. -/
def User.SameAmounts (u v : User) : Prop :=
  u.quota = v.quota ∧ u.usedQuota = v.usedQuota ∧ u.affQuota = v.affQuota

theorem manageUser_sameAmounts {myRole : ℤ} {action : ManageAction} {user u : User}
    (h : manageUser myRole action user = .ok u) : u.SameAmounts user := by
  unfold manageUser at h
  split at h
  · cases h
  cases action with
  | disable =>
    dsimp only at h
    split at h <;> cases h
    exact ⟨rfl, rfl, rfl⟩
  | enable =>
    cases h
    exact ⟨rfl, rfl, rfl⟩
  | promote =>
    dsimp only at h
    split at h
    · cases h
    split at h <;> cases h
    exact ⟨rfl, rfl, rfl⟩
  | demote =>
    dsimp only at h
    split at h
    · cases h
    split at h <;> cases h
    exact ⟨rfl, rfl, rfl⟩

theorem updateTokenStatus_eq {userId : ℤ} {token : TokenRequest} {now : ℤ} {cleanToken t : Token}
    (h : updateTokenStatus cfg userId token now cleanToken = .ok t) :
    t = { cleanToken with status := token.status } := by
  unfold updateTokenStatus at h
  repeat' split at h
  all_goals cases h
  rfl

theorem outcome_update {newUser : User} {out : List Write}
    (h : Answers (update id newUser) out) : out = [.updateUser id newUser] := by
  obtain ⟨_, rest, hrest, h₁⟩ := h.of_select
  cases hrest
  obtain ⟨_, h₂, rfl⟩ := h₁.of_exec
  rw [h₂.of_done, List.append_nil]

/-- **What a finished call wrote**: its relative `UPDATE`, or the row it had loaded. -/
theorem outcome (h : (protocol cfg).Outcome call seen ws) :
    (∃ w, call.relative = some w ∧ ws = [w]) ∨
      (∃ id newUser, call.editsUser = some id ∧ ws = [.updateUser id newUser] ∧
        newUser.SameAmounts (seen.users id)) ∨
      ∃ id token, call.editsToken = some id ∧ ws = [.updateToken id token] ∧
        token.remainQuota = (seen.tokens id).remainQuota := by
  obtain ⟨sc, hb, ha⟩ := h
  simp only [protocol] at hb
  have hrelative : ∀ w, sc = .exec [w] .done → ws = [w] := by
    rintro w rfl
    obtain ⟨_, h₁, rfl⟩ := ha.of_exec
    rw [h₁.of_done, List.append_nil]
  cases call with
  | increaseUserQuota id quota => exact .inl ⟨_, rfl, hrelative _ (Except.ok.inj hb).symm⟩
  | decreaseUserQuota id quota => exact .inl ⟨_, rfl, hrelative _ (Except.ok.inj hb).symm⟩
  | updateUserUsedQuotaAndRequestCount id quota count =>
    exact .inl ⟨_, rfl, hrelative _ (Except.ok.inj hb).symm⟩
  | updateUserUsedQuota id quota => exact .inl ⟨_, rfl, hrelative _ (Except.ok.inj hb).symm⟩
  | increaseTokenQuota id quota => exact .inl ⟨_, rfl, hrelative _ (Except.ok.inj hb).symm⟩
  | decreaseTokenQuota id quota => exact .inl ⟨_, rfl, hrelative _ (Except.ok.inj hb).symm⟩
  | updateSelf userId edit =>
    simp only [body] at hb
    split at hb
    · cases hb
    · cases hb
      exact .inr (.inl ⟨userId, _, rfl, outcome_update ha, rfl, rfl, rfl⟩)
  | manageUser myRole id action =>
    simp only [body] at hb
    split at hb
    · cases hb
    · rename_i user huser
      cases hb
      exact .inr (.inl ⟨id, user, rfl, outcome_update ha, manageUser_sameAmounts huser⟩)
  | updateTokenStatus userId token now =>
    simp only [body] at hb
    split at hb
    · cases hb
    · rename_i cleanToken hclean
      cases updateTokenStatus_eq hclean
      exact .inr (.inr ⟨token.id, _, rfl, hrelative _ (Except.ok.inj hb).symm, rfl⟩)
  | disableModelLimits tokenId =>
    simp only [body] at hb
    split at hb
    · cases hb
    · exact .inr (.inr ⟨tokenId, _, rfl, hrelative _ (Except.ok.inj hb).symm, rfl⟩)

theorem setUser_users (db : Db) (i : ℤ) (u : User) (id : ℤ) :
    (db.setUser i u).users id = if id = i then u else db.users id := by
  unfold Db.setUser
  exact Function.update_apply _ _ _ _

theorem setToken_tokens (db : Db) (i : ℤ) (t : Token) (id : ℤ) :
    (db.setToken i t).tokens id = if id = i then t else db.tokens id := by
  unfold Db.setToken
  exact Function.update_apply _ _ _ _

@[simp] theorem setUser_tokens (db : Db) (i : ℤ) (u : User) :
    (db.setUser i u).tokens = db.tokens := rfl

@[simp] theorem setToken_users (db : Db) (i : ℤ) (t : Token) :
    (db.setToken i t).users = db.users := rfl

/-- A relative `UPDATE` does what its call is worth, whatever the row holds. -/
theorem relative_users {w : Write} (h : call.relative = some w) (db : Db) (id : ℤ) :
    ((applyWrite db w).users id).quota = (db.users id).quota + quotaDelta id call ∧
      ((applyWrite db w).users id).usedQuota =
        (db.users id).usedQuota + usedQuotaDelta id call ∧
      ((applyWrite db w).users id).affQuota = (db.users id).affQuota := by
  cases call <;> cases h <;>
    simp only [applyWrite, setUser_users, setToken_users, quotaDelta, usedQuotaDelta, add_zero,
      and_self, @eq_comm ℤ id]
  all_goals
    split
    · rename_i hid
      subst hid
      simp [User.addUsed]
    · simp

theorem relative_tokens {w : Write} (h : call.relative = some w) (db : Db) (id : ℤ) :
    ((applyWrite db w).tokens id).remainQuota =
        (db.tokens id).remainQuota + remainQuotaDelta id call ∧
      ((applyWrite db w).tokens id).usedQuota =
        (db.tokens id).usedQuota - remainQuotaDelta id call := by
  cases call <;> cases h <;>
    simp only [applyWrite, setToken_tokens, setUser_tokens, remainQuotaDelta, add_zero, sub_zero,
      and_self, @eq_comm ℤ id]
  all_goals
    split
    · rename_i hid
      subst hid
      exact ⟨rfl, rfl⟩
    · exact ⟨by omega, by omega⟩

theorem updated_eq_stored_iff {value stored : ℤ} :
    updated 0 value stored = stored ↔ Current value stored := by
  unfold updated Current
  split
  · rename_i hzero
    exact ⟨fun _ => .inl hzero, fun _ => rfl⟩
  · rename_i hvalue
    constructor
    · intro h
      exact .inr h.symm
    · intro h
      exact (h.resolve_left hvalue).symm

/-- An edit is worth nothing. -/
theorem editsUser_deltas {i : ℤ} (h : call.editsUser = some i) (id : ℤ) :
    quotaDelta id call = 0 ∧ usedQuotaDelta id call = 0 ∧ remainQuotaDelta id call = 0 ∧
      call.editsToken = none := by
  cases call <;> cases h <;> exact ⟨rfl, rfl, rfl, rfl⟩

theorem editsToken_deltas {i : ℤ} (h : call.editsToken = some i) (id : ℤ) :
    quotaDelta id call = 0 ∧ usedQuotaDelta id call = 0 ∧ remainQuotaDelta id call = 0 ∧
      call.editsUser = none := by
  cases call <;> cases h <;> exact ⟨rfl, rfl, rfl, rfl⟩

theorem relative_edits {w : Write} (h : call.relative = some w) :
    call.editsUser = none ∧ call.editsToken = none := by
  cases call <;> cases h <;> exact ⟨rfl, rfl⟩

/-! ## When money is left alone -/

section Commit

variable {o : Open Db Call Write String}

/-- The rows that an edit does not name stay; the amounts of the one it names stay exactly
where the loaded ones are current. -/
theorem moneyKept_updateUser_iff (h : MoneyKept initial db hs)
    (haff : ∀ id, (seen.users id).affQuota = (initial.users id).affQuota) {newUser : User}
    (ws : List Write) (hcall : call.editsUser = some id)
    (hsame : newUser.SameAmounts (seen.users id)) :
    MoneyKept initial (applyWrite db (.updateUser id newUser)) (hs ++ [(call, ws)]) ↔
      Current (seen.users id).quota (db.users id).quota ∧
        Current (seen.users id).usedQuota (db.users id).usedQuota := by
  obtain ⟨husers, htokens⟩ := h
  obtain ⟨hquota, hused, haffSame⟩ := hsame
  have htok : ∀ i, TokenKept initial i ((applyWrite db (.updateUser id newUser)).tokens i)
      (hs ++ [(call, ws)]) := by
    intro i
    obtain ⟨-, -, hr, -⟩ := editsUser_deltas hcall i
    rw [(htokens i).append_iff, hr]
    exact ⟨(add_zero _).symm, (sub_zero _).symm⟩
  have hrow : ∀ i, UserKept initial i ((applyWrite db (.updateUser id newUser)).users i)
      (hs ++ [(call, ws)]) ↔ (i = id →
        Current (seen.users id).quota (db.users id).quota ∧
          Current (seen.users id).usedQuota (db.users id).usedQuota) := by
    intro i
    obtain ⟨hq, hu, -, -⟩ := editsUser_deltas hcall i
    rw [(husers i).append_iff, hq, hu, add_zero, add_zero]
    simp only [applyWrite, setUser_users]
    by_cases hi : i = id
    · subst hi
      have hstored : updated 0 newUser.affQuota (db.users i).affQuota = (db.users i).affQuota := by
        refine updated_eq_stored_iff.mpr (.inr ?_)
        rw [haffSame, haff i]
        exact (husers i).2.2
      rw [if_pos rfl]
      simp only [User.updates]
      rw [updated_eq_stored_iff, updated_eq_stored_iff, hquota, hused]
      constructor
      · rintro ⟨h₁, h₂, -⟩ -
        exact ⟨h₁, h₂⟩
      · intro h
        exact ⟨(h trivial).1, (h trivial).2, hstored⟩
    · rw [if_neg hi]
      exact ⟨fun _ hid => absurd hid hi, fun _ => ⟨rfl, rfl, rfl⟩⟩
  constructor
  · intro h
    exact (hrow id).mp (h.1 id) rfl
  · intro h
    exact ⟨fun i => (hrow i).mpr fun _ => h, htok⟩

theorem moneyKept_updateToken_iff (h : MoneyKept initial db hs) {token : Token}
    (ws : List Write) (hcall : call.editsToken = some id)
    (hsame : token.remainQuota = (seen.tokens id).remainQuota) :
    MoneyKept initial (applyWrite db (.updateToken id token)) (hs ++ [(call, ws)]) ↔
      (db.tokens id).remainQuota = (seen.tokens id).remainQuota := by
  obtain ⟨husers, htokens⟩ := h
  have huser : ∀ i, UserKept initial i ((applyWrite db (.updateToken id token)).users i)
      (hs ++ [(call, ws)]) := by
    intro i
    obtain ⟨hq, hu, -, -⟩ := editsToken_deltas hcall i
    rw [(husers i).append_iff, hq, hu]
    exact ⟨(add_zero _).symm, (add_zero _).symm, rfl⟩
  have hrow : ∀ i, TokenKept initial i ((applyWrite db (.updateToken id token)).tokens i)
      (hs ++ [(call, ws)]) ↔
        (i = id → (db.tokens id).remainQuota = (seen.tokens id).remainQuota) := by
    intro i
    obtain ⟨-, -, hr, -⟩ := editsToken_deltas hcall i
    rw [(htokens i).append_iff, hr, add_zero, sub_zero]
    simp only [applyWrite, setToken_tokens]
    by_cases hi : i = id
    · subst hi
      rw [if_pos rfl]
      simp only [Token.updates, hsame, and_true, true_implies]
      exact eq_comm
    · rw [if_neg hi]
      exact ⟨fun _ hid => absurd hid hi, fun _ => ⟨rfl, rfl⟩⟩
  constructor
  · intro h
    exact (hrow id).mp (h.2 id) rfl
  · intro h
    exact ⟨huser, fun i => (hrow i).mpr fun _ => h⟩

/-- **One commit decides.** -/
theorem moneyKept_commit_iff (h : MoneyKept initial db hs)
    (haff : ∀ id, (o.seen.users id).affQuota = (initial.users id).affQuota)
    (ho : (protocol cfg).Outcome o.call o.seen o.pending) :
    MoneyKept initial ((protocol cfg).write db o.pending) (hs ++ [(o.call, o.pending)]) ↔
      WritesStored db hs o := by
  unfold WritesStored
  rcases outcome ho with ⟨w, hcall, hw⟩ | ⟨id, newUser, hcall, hw, hsame⟩ |
      ⟨id, token, hcall, hw, hsame⟩
  · obtain ⟨hnoUser, hnoToken⟩ := relative_edits hcall
    have hkept : MoneyKept initial ((protocol cfg).write db o.pending)
        (hs ++ [(o.call, o.pending)]) := by
      rw [hw]
      refine ⟨fun id => ?_, fun id => ?_⟩
      · rw [(h.1 id).append_iff]
        exact relative_users hcall db id
      · rw [(h.2 id).append_iff]
        exact relative_tokens hcall db id
    refine ⟨fun _ => ⟨fun id hid => ?_, fun id hid => ?_⟩, fun _ => hkept⟩
    · rw [hnoUser] at hid
      cases hid
    · rw [hnoToken] at hid
      cases hid
  · obtain ⟨-, -, -, hnoToken⟩ := editsUser_deltas hcall id
    have hiff := moneyKept_updateUser_iff h haff o.pending hcall hsame
    rw [hw] at hiff ⊢
    refine hiff.trans ⟨fun hcur => ⟨fun i hi => ?_, fun i hi => ?_⟩, fun hcur => hcur.1 id hcall⟩
    · rw [hcall] at hi
      cases hi
      exact hcur
    · rw [hnoToken] at hi
      cases hi
  · obtain ⟨-, -, -, hnoUser⟩ := editsToken_deltas hcall id
    have hiff := moneyKept_updateToken_iff h o.pending hcall hsame
    rw [hw] at hiff ⊢
    refine hiff.trans ⟨fun hcur => ⟨fun i hi => ?_, fun i hi => ?_⟩, fun hcur => hcur.2 id hcall⟩
    · rw [hnoUser] at hi
      cases hi
    · rw [hcall] at hi
      cases hi
      exact hcur

end Commit

/-- **Edits leave money alone exactly when** each of them writes back amounts that are still
the stored ones: no quota operation of that row fell between its load and its `UPDATE`, or
the loaded amount of the user was zero. -/
theorem money_kept_iff (cfg : Config) (initial : Db) (as : List (Action Call)) :
    (protocol cfg).system.EveryState (fun s => MoneyKept initial s.store s.committed)
        (State.initial initial) as ↔
      (protocol cfg).system.EveryStep (CommitMeets WritesStored) (State.initial initial) as :=
  Protocol.everyState_iff_commits
    (J := fun seen => ∀ id, (seen.users id).affQuota = (initial.users id).affQuota)
    (I := MoneyKept initial) (G := MoneyKept initial) (C := WritesStored)
    (fun _ _ h id => (h.1 id).2.2) (fun _ _ h => h)
    (fun _ _ _ h haff ho hc => (moneyKept_commit_iff h haff ho).mpr hc)
    (fun _ _ _ h haff ho hc hkept => hc ((moneyKept_commit_iff h haff ho).mp hkept))
    ⟨fun _ => ⟨by simp, by simp, rfl⟩, fun _ => ⟨by simp, by simp⟩⟩ as

/-- A user with a quota of 1000 and a token with 500 of it. -/
def sampleDb : Db where
  users := fun _ => ⟨1, 1, "", 1000, 200, 3, 0⟩
  tokens := fun _ => ⟨1, "key", 1, -1, 500, false, true, "gpt-4o", none, 100, "", false⟩

def sampleConfig : Config := ⟨fun _ setting => setting, 500000000000000⟩

/-- An admin enables user 1 while a request is charged 300. -/
def chargeDuringEnable : List (Action Call) :=
  [.select 0 (.manageUser 100 1 .enable), .select 1 (.decreaseUserQuota 1 300), .next 1,
    .commit 1, .next 0, .next 0, .commit 0]

theorem enable_restores_charge :
    ¬ (protocol sampleConfig).system.EveryState
      (fun s => MoneyKept sampleDb s.store s.committed)
      (State.initial sampleDb) chargeDuringEnable := by
  intro h
  have hrun : ((protocol sampleConfig).system.run (State.initial sampleDb)
      chargeDuringEnable).map (fun s => ((s.store.users 1).quota,
        total (quotaDelta 1) s.committed, (s.clients 0).isNone, (s.clients 1).isNone)) =
        some (1000, -300, true, true) := by decide +kernel
  obtain ⟨t, ht, hq⟩ := Option.map_eq_some_iff.mp hrun
  have hgood := ((h.run ht).1 1).1
  simp only [Prod.mk.injEq] at hq
  rw [hq.1, hq.2.1] at hgood
  exact absurd hgood (by decide)

end AttributeEdit
