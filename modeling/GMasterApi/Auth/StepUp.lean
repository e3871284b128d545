import GMasterApi.Lib.Transition
import Mathlib.Data.Int.Notation

/-!
# Step-up verification

A session keeps, beside the user it names, when a verification was passed and by what
method, and when a passkey was presented; no user is kept with these.  A login writes
the user and leaves them as they are.

Where no login comes to another user's verification, the verified routes are for the
user who was verified (`belongs_of_settled`).
-/

namespace StepUp

open Transition

def secureVerificationMethod2FA : String := "2fa"
def secureVerificationMethodPasskey : String := "passkey"
def secureVerificationTimeout : ℤ := 300
def passkeyReadyTimeout : ℤ := 60
def userStatusEnabled : ℤ := 1

/-- The keys of one browser session; `id` comes and goes with the user's name and role. -/
structure Session where
  id : Option ℤ
  secureVerifiedAt : Option ℤ
  secureVerifiedMethod : Option String
  securePasskeyReadyAt : Option ℤ
  verifySession : Option String
  deriving DecidableEq

def Session.empty : Session := ⟨none, none, none, none, none⟩

/-- What the database has of a user, a status of 0 if there is none; `validateTwoFactorAuth`
says which codes pass. -/
structure Account where
  status : ℤ
  has2FA : Bool
  hasPasskey : Bool
  validateTwoFactorAuth : String → Bool

/-- The surroundings of a request: `finishLogin` is the WebAuthn check of the user and the
challenge, `saves` whether each `Save` succeeds, `accessToken` the user of a valid one, and
`admitted` what `authHelper` and the settings refuse otherwise. -/
structure Env where
  accounts : ℤ → Account
  finishLogin : ℤ → String → Bool
  upserts : Bool
  saves : ℕ → Bool
  accessToken : Option ℤ
  admitted : Bool

variable (now : ℤ) (env : Env) (s : Session)

/-! ## Requests -/

/-- `c.GetInt("id")`: the session's user goes before that of the access token. -/
def authHelper : Except String ℤ :=
  match s.id, env.accessToken, env.admitted with
  | some id, _, true => .ok id
  | none, some id, true => .ok id
  | _, _, _ => .error "auth.not_logged_in"

def setupLogin (userId : ℤ) : Session := if env.saves 0 then { s with id := some userId } else s

def logout : Session := if env.saves 0 then .empty else s

def clearSecureVerificationSession : Session :=
  if env.saves 0 then { s with secureVerifiedAt := none, secureVerifiedMethod := none } else s

def getSessionUser : Except String ℤ :=
  match s.id with
  | none => .error "未登录"
  | some id =>
    if id = 0 then .error "id 为空！"
    else if (env.accounts id).status ≠ userStatusEnabled then .error "该用户已被禁用"
    else .ok id

/-- `consumePasskeyReady`, with the session that is saved. -/
def consumePasskeyReady : Session × Except String Bool :=
  match s.securePasskeyReadyAt with
  | none => (s, .ok false)
  | some readyAt =>
    if env.saves 0 then
      ({ s with securePasskeyReadyAt := none }, .ok (decide (now - readyAt < passkeyReadyTimeout)))
    else (s, .error "Passkey 验证状态异常")

def setSecureVerificationSession (method : String) : Session × Except String Unit :=
  if env.saves 1 then
    ({ s with
        securePasskeyReadyAt := none
        secureVerifiedAt := some now
        secureVerifiedMethod := some method }, .ok ())
  else (s, .error "保存验证状态失败")

def universalVerify (userId : ℤ) (method code : String) : Session × Except String Unit :=
  let account := env.accounts userId
  if userId = 0 then (s, .error "未登录")
  else if account.status ≠ userStatusEnabled then (s, .error "该用户已被禁用")
  else if !account.has2FA && !account.hasPasskey then (s, .error "用户未启用2FA或Passkey")
  else if method = secureVerificationMethod2FA then
    if !account.has2FA then (s, .error "用户未启用2FA")
    else if code = "" then (s, .error "验证码不能为空")
    else if account.validateTwoFactorAuth code then setSecureVerificationSession now env s method
    else (s, .error "验证失败，请检查验证码")
  else if method = secureVerificationMethodPasskey then
    if !account.hasPasskey then (s, .error "用户未启用Passkey")
    else
      match consumePasskeyReady now env s with
      | (s, .ok true) => setSecureVerificationSession now env s method
      | (s, .ok false) => (s, .error "请先完成 Passkey 验证")
      | (s, .error e) => (s, .error e)
  else (s, .error "不支持的验证方式")

def passkeyVerifyBegin (challenge : String) : Session :=
  match getSessionUser env s with
  | .ok userId =>
    if (env.accounts userId).hasPasskey ∧ env.saves 0 then
      { s with verifySession := some challenge }
    else s
  | .error _ => s

/-- `PopSessionData`, with what is saved, which need not be what the request goes on with. -/
def popSessionData : Session := if env.saves 0 then { s with verifySession := none } else s

/-- The user whose passkey has been presented. -/
def passkeyVerifyFinish : Session × Except String ℤ :=
  match getSessionUser env s with
  | .error e => (s, .error e)
  | .ok userId =>
    if !(env.accounts userId).hasPasskey then (s, .error "该用户尚未绑定 Passkey")
    else
      match s.verifySession with
      | none => (s, .error "Passkey 会话不存在或已过期")
      | some challenge =>
        if !env.finishLogin userId challenge || !env.upserts then
          (popSessionData env s, .error "Passkey 验证失败")
        else if env.saves 1 then
          (⟨s.id, none, none, some now, none⟩, .ok userId)
        else (popSessionData env s, .error "保存验证状态失败")

def secureVerificationRequired (userId : ℤ) : Session × Except String Unit :=
  if userId = 0 then (s, .error "未登录")
  else
    match s.secureVerifiedAt with
    | none => (s, .error "VERIFICATION_REQUIRED")
    | some verifiedAt =>
      if secureVerificationTimeout ≤ now - verifiedAt then
        (clearSecureVerificationSession env s, .error "VERIFICATION_EXPIRED")
      else (s, .ok ())

def requireSecureVerificationMethod (method : String) : Session × Except String Unit :=
  match s.secureVerifiedAt with
  | none => (clearSecureVerificationSession env s, .error "请先完成安全验证")
  | some verifiedAt =>
    if secureVerificationTimeout ≤ now - verifiedAt then
      (clearSecureVerificationSession env s, .error "请先完成安全验证")
    else if s.secureVerifiedMethod = some method then (s, .ok ())
    else (s, .error "请先完成对应的安全验证")

/-! ## Runs -/

/-- A passkey was presented, a step-up was made, or a request went through for the user that
the session names. -/
inductive Event
  | asserted (userId time : ℤ)
  | steppedUp (userId : ℤ) (method : String) (time : ℤ)
  | passed (named : Option ℤ) (method : Option String) (time : ℤ)
  deriving DecidableEq

/-- The session, the clock, and what has happened, the latest first. -/
structure State where
  session : Session
  now : ℤ
  log : List Event

/-- The requests behind `authHelper`. -/
inductive UserRequest
  | passkeyVerifyBegin (challenge : String)
  | passkeyVerifyFinish
  | universalVerify (method code : String)
  /-- A route behind `SecureVerificationRequired`. -/
  | secured
  /-- A route that asks for one method. -/
  | securedBy (method : String)

inductive Request
  /-- `setupLogin`, where every login ends. -/
  | login (userId : ℤ)
  | logout
  | user (r : UserRequest)

inductive Action
  | wait (seconds : ℕ)
  | request (r : Request) (env : Env)

/-- The session that is saved, and the event of a request that succeeds. -/
def State.answer {α : Type} (t : State) (r : Session × Except String α) (e : α → Event) :
    State where
  session := r.1
  now := t.now
  log :=
    match r.2 with
    | .ok a => e a :: t.log
    | .error _ => t.log

def State.userRequest (t : State) (env : Env) (userId : ℤ) : UserRequest → State
  | .passkeyVerifyBegin challenge =>
    { t with session := passkeyVerifyBegin env t.session challenge }
  | .passkeyVerifyFinish =>
    t.answer (passkeyVerifyFinish t.now env t.session) fun userId => .asserted userId t.now
  | .universalVerify method code =>
    t.answer (universalVerify t.now env t.session userId method code)
      fun _ => .steppedUp userId method t.now
  | .secured =>
    t.answer (secureVerificationRequired t.now env t.session userId)
      fun _ => .passed t.session.id none t.now
  | .securedBy method =>
    match getSessionUser env t.session with
    | .ok _ =>
      t.answer (requireSecureVerificationMethod t.now env t.session method)
        fun _ => .passed t.session.id (some method) t.now
    | .error _ => t

def State.request (t : State) (env : Env) : Request → State
  | .login userId => { t with session := setupLogin env t.session userId }
  | .logout => { t with session := logout env t.session }
  | .user r =>
    match authHelper env t.session with
    | .ok userId => t.userRequest env userId r
    | .error _ => t

def State.step (t : State) : Action → State
  | .wait seconds => { t with now := t.now + seconds }
  | .request r env => t.request env r

def browser : System State Action := ⟨fun t a => some (t.step a)⟩

/-- A new session. -/
def State.initial (now : ℤ) : State := ⟨.empty, now, []⟩

/-! ## What is promised -/

/-- The last passkey presented, while no step-up has used it. -/
def unused : List Event → Option (ℤ × ℤ)
  | [] => none
  | .asserted userId time :: _ => some (userId, time)
  | .steppedUp _ method _ :: log =>
    if method = secureVerificationMethodPasskey then none else unused log
  | .passed _ _ _ :: log => unused log

/-- The user stepped up by the method at the time, by a passkey of their own. -/
def Verified (log : List Event) (userId : ℤ) (method : String) (time : ℤ) : Prop :=
  ∃ earlier, .steppedUp userId method time :: earlier <:+ log ∧
    (method = secureVerificationMethodPasskey →
      ∃ assertedAt, unused earlier = some (userId, assertedAt))

/-- **Step-up belongs to its user**: what goes through does so for a user who was verified, by
the method if one is asked for; a step-up by passkey uses one that was presented before. -/
structure Belongs (log : List Event) : Prop where
  verified : ∀ named method time earlier, .passed named method time :: earlier <:+ log →
    ∀ userId ∈ named, ∃ means verifiedAt, (∀ m ∈ method, means = m) ∧
      Verified earlier userId means verifiedAt ∧ time - verifiedAt < secureVerificationTimeout
  once : ∀ userId time earlier,
    .steppedUp userId secureVerificationMethodPasskey time :: earlier <:+ log →
      ∃ presenter assertedAt, unused earlier = some (presenter, assertedAt) ∧
        time - assertedAt < passkeyReadyTimeout

/-- No step-up and no passkey counts any more. -/
def Lapsed (t : State) : Prop :=
  (∀ verifiedAt ∈ t.session.secureVerifiedAt, secureVerificationTimeout ≤ t.now - verifiedAt) ∧
    ∀ readyAt ∈ t.session.securePasskeyReadyAt, passkeyReadyTimeout ≤ t.now - readyAt

/-- A login that is saved is by the user that the session names, or what was there has lapsed. -/
def Settled (t : State) : Action → Prop
  | .request (.login userId) env =>
    env.saves 0 = true → t.session.id = some userId ∨ Lapsed t
  | _ => True

instance (t : State) : Decidable (Lapsed t) := by
  unfold Lapsed
  infer_instance

instance (t : State) : ∀ a, Decidable (Settled t a)
  | .request (.login userId) env =>
    inferInstanceAs (Decidable (env.saves 0 = true → t.session.id = some userId ∨ Lapsed t))
  | .request .logout _ => .isTrue trivial
  | .request (.user _) _ => .isTrue trivial
  | .wait _ => .isTrue trivial

/-! ## Handlers -/

variable {now env s} {t : State} {e : Event} {log earlier : List Event} {userId time v : ℤ}
  {method code : String}

theorem authHelper_eq (h : authHelper env s = .ok userId) (hv : v ∈ s.id) : v = userId := by
  unfold authHelper at h
  rw [Option.mem_def.mp hv] at h
  cases hadmitted : env.admitted with
  | false => simp [hadmitted] at h
  | true =>
    simp only [hadmitted] at h
    cases h
    rfl

theorem getSessionUser_eq (h : getSessionUser env s = .ok userId) : s.id = some userId := by
  unfold getSessionUser at h
  split at h
  · cases h
  · rename_i id hid
    split at h
    · cases h
    · split at h
      · cases h
      · cases h
        exact hid

/-- The session after a step-up. -/
def Session.steppedUp (s : Session) (now : ℤ) (method : String) : Session :=
  ⟨s.id, some now, some method, none, s.verifySession⟩

/-- The session where at most the passkey has been lost. -/
def Loses (s s' : Session) : Prop := s' = s ∨ s' = { s with securePasskeyReadyAt := none }

theorem setSecureVerificationSession_cases {s' : Session} (h : Loses s s') :
    (∃ e s'', Loses s s'' ∧ setSecureVerificationSession now env s' method = (s'', .error e)) ∨
    setSecureVerificationSession now env s' method = (s.steppedUp now method, .ok ()) := by
  unfold setSecureVerificationSession
  split
  · rcases h with rfl | rfl
    · exact .inr rfl
    · exact .inr rfl
  · exact .inl ⟨_, s', h, rfl⟩

/-- A step-up by passkey, which has found a passkey that is recent. -/
theorem consumePasskeyReady_recent {s' : Session}
    (h : consumePasskeyReady now env s = (s', .ok true)) :
    Loses s s' ∧ ∃ readyAt ∈ s.securePasskeyReadyAt, now - readyAt < passkeyReadyTimeout := by
  unfold consumePasskeyReady at h
  split at h
  · cases h
  · rename_i readyAt hready
    split at h
    · obtain ⟨rfl, hrecent⟩ := Prod.mk.inj h
      exact ⟨.inr rfl, readyAt, hready, of_decide_eq_true (Except.ok.inj hrecent)⟩
    · cases h

theorem consumePasskeyReady_loses : Loses s (consumePasskeyReady now env s).1 := by
  unfold consumePasskeyReady
  split
  · exact .inl rfl
  · split
    · exact .inr rfl
    · exact .inl rfl

/-- A step-up fails, and loses at most the passkey, or it is kept with time and method; one
by passkey has found a passkey that is recent. -/
theorem universalVerify_cases :
    (∃ e s', Loses s s' ∧ universalVerify now env s userId method code = (s', .error e)) ∨
    (universalVerify now env s userId method code = (s.steppedUp now method, .ok ()) ∧
      (method = secureVerificationMethodPasskey →
        ∃ readyAt ∈ s.securePasskeyReadyAt, now - readyAt < passkeyReadyTimeout)) := by
  have hfail : ∀ e : String, ∃ e' s', Loses s s' ∧ (s, Except.error e) =
      ((s', .error e') : Session × Except String Unit) := fun e => ⟨e, s, .inl rfl, rfl⟩
  unfold universalVerify
  dsimp only
  by_cases hid : userId = 0
  · rw [if_pos hid]
    exact .inl (hfail _)
  rw [if_neg hid]
  by_cases hstatus : (env.accounts userId).status ≠ userStatusEnabled
  · rw [if_pos hstatus]
    exact .inl (hfail _)
  rw [if_neg hstatus]
  by_cases hnone : (!(env.accounts userId).has2FA && !(env.accounts userId).hasPasskey) = true
  · rw [if_pos hnone]
    exact .inl (hfail _)
  rw [if_neg hnone]
  by_cases h2FA : method = secureVerificationMethod2FA
  · rw [if_pos h2FA]
    split
    · exact .inl (hfail _)
    split
    · exact .inl (hfail _)
    split
    · refine (setSecureVerificationSession_cases (.inl rfl)).imp id fun hset => ⟨hset, ?_⟩
      intro hpasskey
      rw [h2FA] at hpasskey
      exact absurd hpasskey (by decide)
    · exact .inl (hfail _)
  rw [if_neg h2FA]
  by_cases hpasskey : method = secureVerificationMethodPasskey
  · rw [if_pos hpasskey]
    split
    · exact .inl (hfail _)
    -- the marker is gone when the step-up is kept
    cases hconsume : consumePasskeyReady now env s with
    | mk s' answer =>
      have hloses : Loses s s' := by
        have hfst : Loses s (consumePasskeyReady now env s).1 := consumePasskeyReady_loses
        rw [hconsume] at hfst
        exact hfst
      cases answer with
      | error e => exact .inl ⟨e, s', hloses, rfl⟩
      | ok ready =>
        cases ready with
        | false => exact .inl ⟨_, s', hloses, rfl⟩
        | true =>
          exact (setSecureVerificationSession_cases hloses).imp id
            fun hset => ⟨hset, fun _ => (consumePasskeyReady_recent hconsume).2⟩
  · rw [if_neg hpasskey]
    exact .inl (hfail _)

/-- A passkey is presented by the user that the session names; otherwise nothing is kept. -/
theorem passkeyVerifyFinish_cases :
    (∃ e verifySession, passkeyVerifyFinish now env s =
      ({ s with verifySession := verifySession }, .error e)) ∨
    ∃ userId, s.id = some userId ∧ passkeyVerifyFinish now env s =
      (⟨s.id, none, none, some now, none⟩, .ok userId) := by
  have hpop : ∃ verifySession,
      popSessionData env s = { s with verifySession := verifySession } := by
    unfold popSessionData
    split
    · exact ⟨none, rfl⟩
    · exact ⟨s.verifySession, rfl⟩
  obtain ⟨verifySession, hpop⟩ := hpop
  unfold passkeyVerifyFinish
  split
  · exact .inl ⟨_, s.verifySession, rfl⟩
  · rename_i userId huser
    split
    · exact .inl ⟨_, s.verifySession, rfl⟩
    split
    · exact .inl ⟨_, s.verifySession, rfl⟩
    split
    · exact .inl ⟨_, verifySession, by rw [hpop]⟩
    split
    · exact .inr ⟨userId, getSessionUser_eq huser, rfl⟩
    · exact .inl ⟨_, verifySession, by rw [hpop]⟩

/-- The session where at most the step-up has been cleared. -/
def Clears (s s' : Session) : Prop :=
  s' = s ∨ s' = { s with secureVerifiedAt := none, secureVerifiedMethod := none }

theorem clearSecureVerificationSession_clears :
    Clears s (clearSecureVerificationSession env s) := by
  unfold clearSecureVerificationSession
  split
  · exact .inr rfl
  · exact .inl rfl

/-- What a guard lets through has found a step-up that is recent. -/
theorem secureVerificationRequired_cases :
    (∃ e s', Clears s s' ∧ secureVerificationRequired now env s userId = (s', .error e)) ∨
    (secureVerificationRequired now env s userId = (s, .ok ()) ∧
      ∃ verifiedAt ∈ s.secureVerifiedAt, now - verifiedAt < secureVerificationTimeout) := by
  unfold secureVerificationRequired
  split
  · exact .inl ⟨_, s, .inl rfl, rfl⟩
  split
  · exact .inl ⟨_, s, .inl rfl, rfl⟩
  · rename_i verifiedAt hverified
    split
    · exact .inl ⟨_, _, clearSecureVerificationSession_clears, rfl⟩
    · rename_i hrecent
      exact .inr ⟨rfl, verifiedAt, hverified, Int.not_le.mp hrecent⟩

theorem requireSecureVerificationMethod_cases :
    (∃ e s', Clears s s' ∧ requireSecureVerificationMethod now env s method = (s', .error e)) ∨
    (requireSecureVerificationMethod now env s method = (s, .ok ()) ∧
      s.secureVerifiedMethod = some method ∧
      ∃ verifiedAt ∈ s.secureVerifiedAt, now - verifiedAt < secureVerificationTimeout) := by
  unfold requireSecureVerificationMethod
  split
  · exact .inl ⟨_, _, clearSecureVerificationSession_clears, rfl⟩
  · rename_i verifiedAt hverified
    split
    · exact .inl ⟨_, _, clearSecureVerificationSession_clears, rfl⟩
    · rename_i hrecent
      split
      · rename_i hmethod
        exact .inr ⟨rfl, hmethod, verifiedAt, hverified, Int.not_le.mp hrecent⟩
      · exact .inl ⟨_, s, .inl rfl, rfl⟩

/-! ## The log -/

theorem Verified.cons (h : Verified log userId method time) (e : Event) :
    Verified (e :: log) userId method time := by
  obtain ⟨earlier, hmem, hasserted⟩ := h
  exact ⟨earlier, hmem.trans (List.suffix_cons e log), hasserted⟩

theorem Belongs.nil : Belongs [] := by
  constructor
  · intro named method time earlier hmem
    cases List.suffix_nil.mp hmem
  · intro userId time earlier hmem
    cases List.suffix_nil.mp hmem

/-- What has to be said of the latest event. -/
theorem Belongs.cons (h : Belongs log)
    (hverified : ∀ named asked time, e = .passed named asked time → ∀ userId ∈ named,
      ∃ means verifiedAt, (∀ m ∈ asked, means = m) ∧
        Verified log userId means verifiedAt ∧ time - verifiedAt < secureVerificationTimeout)
    (honce : ∀ userId time, e = .steppedUp userId secureVerificationMethodPasskey time →
      ∃ presenter assertedAt, unused log = some (presenter, assertedAt) ∧
        time - assertedAt < passkeyReadyTimeout) :
    Belongs (e :: log) := by
  constructor
  · intro named asked time earlier hmem
    rcases List.suffix_cons_iff.mp hmem with heq | hmem
    · cases heq
      exact hverified named asked time rfl
    · exact h.verified named asked time earlier hmem
  · intro userId time earlier hmem
    rcases List.suffix_cons_iff.mp hmem with heq | hmem
    · cases heq
      exact honce userId time rfl
    · exact h.once userId time earlier hmem

theorem Belongs.asserted (h : Belongs log) (userId time : ℤ) :
    Belongs (.asserted userId time :: log) :=
  h.cons (fun _ _ _ heq => by cases heq) fun _ _ heq => by cases heq

theorem Belongs.steppedUp (h : Belongs log)
    (hused : method = secureVerificationMethodPasskey → ∃ presenter assertedAt,
      unused log = some (presenter, assertedAt) ∧ time - assertedAt < passkeyReadyTimeout) :
    Belongs (.steppedUp userId method time :: log) := by
  refine h.cons (fun _ _ _ heq => by cases heq) fun userId' time' heq => ?_
  cases heq
  exact hused rfl

theorem Belongs.passed (h : Belongs log) {named : Option ℤ} {asked : Option String}
    (hverified : ∀ userId ∈ named, ∃ means verifiedAt, (∀ m ∈ asked, means = m) ∧
      Verified log userId means verifiedAt ∧ time - verifiedAt < secureVerificationTimeout) :
    Belongs (.passed named asked time :: log) := by
  refine h.cons (fun named' asked' time' heq => ?_) fun _ _ heq => by cases heq
  cases heq
  exact hverified

/-! ## The invariant -/

/-- A passkey that counts was presented by the user of the session and is unused, and a
step-up that counts is one of that user. -/
structure Invariant (t : State) : Prop where
  belongs : Belongs t.log
  ready : ∀ readyAt ∈ t.session.securePasskeyReadyAt, ∃ presenter,
    unused t.log = some (presenter, readyAt) ∧
      (t.now - readyAt < passkeyReadyTimeout → ∀ userId ∈ t.session.id, userId = presenter)
  verified : ∀ verifiedAt ∈ t.session.secureVerifiedAt,
    t.now - verifiedAt < secureVerificationTimeout → ∀ userId ∈ t.session.id,
      ∃ method, t.session.secureVerifiedMethod = some method ∧
        Verified t.log userId method verifiedAt

/-- A session that names the same user and has no more than before. -/
theorem Invariant.keep (h : Invariant t) {s' : Session} (hid : s'.id = t.session.id)
    (hready : ∀ readyAt ∈ s'.securePasskeyReadyAt, readyAt ∈ t.session.securePasskeyReadyAt)
    (hverified : ∀ verifiedAt ∈ s'.secureVerifiedAt, verifiedAt ∈ t.session.secureVerifiedAt ∧
      s'.secureVerifiedMethod = t.session.secureVerifiedMethod) :
    Invariant { t with session := s' } := by
  refine ⟨h.belongs, fun readyAt hmem => ?_, fun verifiedAt hmem hrecent userId huser => ?_⟩
  · obtain ⟨presenter, hunused, howner⟩ := h.ready readyAt (hready readyAt hmem)
    refine ⟨presenter, hunused, fun hrecent userId huser => howner hrecent userId ?_⟩
    rw [← hid]
    exact huser
  · obtain ⟨hbefore, hmethod⟩ := hverified verifiedAt hmem
    rw [show s'.id = t.session.id from hid] at huser
    obtain ⟨method, hkept, howned⟩ := h.verified verifiedAt hbefore hrecent userId huser
    exact ⟨method, hmethod.trans hkept, howned⟩

theorem Invariant.loses (h : Invariant t) {s' : Session} (hs : Loses t.session s') :
    Invariant { t with session := s' } := by
  rcases hs with rfl | rfl
  · exact h
  · exact h.keep rfl (fun _ hmem => by cases hmem) fun _ hmem => ⟨hmem, rfl⟩

theorem Invariant.clears (h : Invariant t) {s' : Session} (hs : Clears t.session s') :
    Invariant { t with session := s' } := by
  rcases hs with rfl | rfl
  · exact h
  · exact h.keep rfl (fun _ hmem => hmem) fun _ hmem => by cases hmem

theorem Invariant.wait (h : Invariant t) (seconds : ℕ) :
    Invariant { t with now := t.now + seconds } := by
  refine ⟨h.belongs, fun readyAt hmem => ?_, fun verifiedAt hmem hrecent => ?_⟩
  · obtain ⟨presenter, hunused, howner⟩ := h.ready readyAt hmem
    refine ⟨presenter, hunused, fun hrecent => howner ?_⟩
    dsimp only at hrecent
    omega
  · refine h.verified verifiedAt hmem ?_
    dsimp only at hrecent
    omega

/-- A login where nothing counts that another user has left. -/
theorem Invariant.login (h : Invariant t)
    (hsettled : Settled t (.request (.login userId) env)) :
    Invariant { t with session := setupLogin env t.session userId } := by
  unfold setupLogin
  split
  · rename_i hsaves
    rcases hsettled hsaves with hsame | ⟨hverified, hready⟩
    · exact h.keep hsame.symm (fun _ hmem => hmem) fun _ hmem => ⟨hmem, rfl⟩
    · refine ⟨h.belongs, fun readyAt hmem => ?_, fun verifiedAt hmem hrecent => ?_⟩
      · obtain ⟨presenter, hunused, -⟩ := h.ready readyAt hmem
        exact ⟨presenter, hunused, fun hrecent => absurd (hready readyAt hmem)
          (Int.not_le.mpr hrecent)⟩
      · exact absurd (hverified verifiedAt hmem) (Int.not_le.mpr hrecent)
  · exact h

theorem Invariant.logout (h : Invariant t) :
    Invariant { t with session := logout env t.session } := by
  unfold StepUp.logout
  split
  · refine ⟨h.belongs, fun _ hmem => ?_, fun _ hmem => ?_⟩
    · cases hmem
    · cases hmem
  · exact h

theorem Invariant.passkeyVerifyBegin (h : Invariant t) (challenge : String) :
    Invariant { t with session := passkeyVerifyBegin env t.session challenge } := by
  unfold StepUp.passkeyVerifyBegin
  split
  · split
    · exact h.keep rfl (fun _ hmem => hmem) fun _ hmem => ⟨hmem, rfl⟩
    · exact h
  · exact h

theorem Invariant.passkeyVerifyFinish (h : Invariant t) :
    Invariant (t.answer (passkeyVerifyFinish t.now env t.session)
      fun userId => .asserted userId t.now) := by
  rcases passkeyVerifyFinish_cases with ⟨e, verifySession, hfinish⟩ | ⟨userId, huser, hfinish⟩
  · rw [hfinish]
    exact h.keep rfl (fun _ hmem => hmem) fun _ hmem => ⟨hmem, rfl⟩
  · rw [hfinish]
    refine ⟨h.belongs.asserted userId t.now, fun readyAt hmem => ?_, fun _ hmem => ?_⟩
    · cases hmem
      refine ⟨userId, rfl, fun _ v hv => ?_⟩
      exact Option.some.inj ((Option.mem_def.mp hv).symm.trans huser)
    · cases hmem

theorem Invariant.universalVerify (h : Invariant t)
    (huser : authHelper env t.session = .ok userId) :
    Invariant (t.answer (universalVerify t.now env t.session userId method code)
      fun _ => .steppedUp userId method t.now) := by
  rcases universalVerify_cases with ⟨e, s', hloses, hverify⟩ | ⟨hverify, hpasskey⟩
  · rw [hverify]
    exact h.loses hloses
  · rw [hverify]
    refine ⟨h.belongs.steppedUp fun hmethod => ?_, fun _ hmem => ?_,
      fun verifiedAt hmem hrecent v hv => ?_⟩
    · obtain ⟨readyAt, hready, hrecent⟩ := hpasskey hmethod
      obtain ⟨presenter, hunused, -⟩ := h.ready readyAt hready
      exact ⟨presenter, readyAt, hunused, hrecent⟩
    · cases hmem
    · cases hmem
      have hv : v ∈ t.session.id := hv
      obtain rfl := authHelper_eq huser hv
      refine ⟨method, rfl, t.log, List.suffix_refl _, fun hmethod => ?_⟩
      -- the passkey that counts is one of the user that the session names
      obtain ⟨readyAt, hready, hrecent⟩ := hpasskey hmethod
      obtain ⟨presenter, hunused, howner⟩ := h.ready readyAt hready
      rw [howner hrecent v hv]
      exact ⟨readyAt, hunused⟩

theorem Invariant.passed (h : Invariant t) {asked : Option String}
    (hasked : ∀ m ∈ asked, t.session.secureVerifiedMethod = some m)
    (hrecent : ∃ verifiedAt ∈ t.session.secureVerifiedAt,
      t.now - verifiedAt < secureVerificationTimeout) :
    Invariant { t with log := .passed t.session.id asked t.now :: t.log } := by
  refine ⟨h.belongs.passed fun userId huser => ?_, h.ready,
    fun verifiedAt hmem hrecent userId huser => ?_⟩
  · obtain ⟨verifiedAt, hverified, hrecent⟩ := hrecent
    obtain ⟨means, hmeans, howned⟩ := h.verified verifiedAt hverified hrecent userId huser
    refine ⟨means, verifiedAt, fun m hm => ?_, howned, hrecent⟩
    exact Option.some.inj (hmeans.symm.trans (hasked m hm))
  · obtain ⟨method, hmethod, howned⟩ := h.verified verifiedAt hmem hrecent userId huser
    exact ⟨method, hmethod, howned.cons _⟩

theorem Invariant.userRequest (h : Invariant t) (huser : authHelper env t.session = .ok userId)
    (r : UserRequest) : Invariant (t.userRequest env userId r) := by
  cases r with
  | passkeyVerifyBegin challenge => exact h.passkeyVerifyBegin challenge
  | passkeyVerifyFinish => exact h.passkeyVerifyFinish
  | universalVerify method code => exact h.universalVerify huser
  | secured =>
    unfold State.userRequest
    dsimp only
    rcases secureVerificationRequired_cases with ⟨e, s', hclears, hguard⟩ | ⟨hguard, hrecent⟩
    · rw [hguard]
      exact h.clears hclears
    · rw [hguard]
      exact h.passed (fun _ hm => by cases hm) hrecent
  | securedBy method =>
    unfold State.userRequest
    dsimp only
    split
    · rcases requireSecureVerificationMethod_cases with
        ⟨e, s', hclears, hguard⟩ | ⟨hguard, hmethod, hrecent⟩
      · rw [hguard]
        exact h.clears hclears
      · rw [hguard]
        refine h.passed (fun m hm => ?_) hrecent
        cases hm
        exact hmethod
    · exact h

theorem Invariant.step (h : Invariant t) (a : Action) (hsettled : Settled t a) :
    Invariant (t.step a) := by
  cases a with
  | wait seconds => exact h.wait seconds
  | request r env =>
    cases r with
    | login userId => exact h.login hsettled
    | logout => exact h.logout
    | user r =>
      unfold State.step State.request
      dsimp only
      split
      · rename_i userId huser
        exact h.userRequest huser r
      · exact h

theorem initial_invariant (now : ℤ) : Invariant (.initial now) := by
  refine ⟨.nil, fun _ hmem => ?_, fun _ hmem => ?_⟩
  · cases hmem
  · cases hmem

/-- **Step-up belongs to its user** along a run of a browser session if every login is settled. -/
theorem belongs_of_settled (now : ℤ) (actions : List Action)
    (h : browser.EveryStep Settled (.initial now) actions) :
    browser.EveryState (fun t => Belongs t.log) (.initial now) actions := by
  have hinv : browser.EveryState Invariant (.initial now) actions := by
    refine System.everyState_of_everyStep (fun t a t' ht hsettled hstep => ?_)
      (initial_invariant now) h
    cases hstep
    exact ht.step a hsettled
  exact hinv.mono fun t ht => ht.belongs

/-! ## Two users of one browser -/

/-- Everyone is enabled and has a second factor, and everything succeeds. -/
def sampleEnv : Env where
  accounts _ := ⟨userStatusEnabled, true, true, fun code => code = "123456"⟩
  finishLogin _ _ := true
  upserts := true
  saves _ := true
  accessToken := none
  admitted := true

def stepUp : List Action :=
  [.request (.login 1) sampleEnv, .request (.user (.universalVerify "2fa" "123456")) sampleEnv]

def loginAndPass : List Action :=
  [.request (.login 2) sampleEnv, .request (.user .secured) sampleEnv]

theorem belongs_after_logout : browser.EveryState (fun t => Belongs t.log) (.initial 0)
    (stepUp ++ .request .logout sampleEnv :: loginAndPass) :=
  belongs_of_settled 0 _ (by decide)

/-- The second user goes through on the verification of the first. -/
theorem login_over_step_up :
    ¬ browser.EveryState (fun t => Belongs t.log) (.initial 0) (stepUp ++ loginAndPass) := by
  intro h
  obtain ⟨means, verifiedAt, -, ⟨earlier, hmem, -⟩, -⟩ :=
    (h.run rfl).verified (some 2) none 0 [.steppedUp 1 "2fa" 0] (List.suffix_refl _) 2 rfl
  cases List.mem_singleton.mp (hmem.subset List.mem_cons_self)

end StepUp
