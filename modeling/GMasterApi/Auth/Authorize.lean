import GMasterApi.Auth.GasterCode
import GMasterApi.Lib.Guarded

/-!
# Approving, denying and exchanging an authorization

Three endpoints move one row.  `Approve` and `Exchange` put the status they rely
on into the `WHERE` of their `UPDATE`; `Deny` looks at a row read before and
updates it whatever it has become.

`auth_code_redeemed_once_iff` says what that costs: the guarantees hold in an
interleaving exactly when no `Deny` that read a pending row writes to one that
has been used meanwhile.
-/

namespace GasterCode

open GoString Sql Transition

/-- The request's row and the sessions that were created for it. -/
structure AuthStore where
  request : AuthRequest
  sessions : List Session
  deriving DecidableEq

/-- `ApproveGasterCodeAuthRequest(requestID, userID)`, when it was and the characters it drew. -/
structure Approve where
  requestID : String
  userID : ℤ
  now : ℤ
  chars : String
  deriving DecidableEq

/-- `DenyGasterCodeAuthRequest(requestID)` -/
structure Deny where
  requestID : String
  now : ℤ
  deriving DecidableEq

/-- `ExchangeGasterCodeAuthCode(input)` -/
structure Exchange where
  code : String
  codeVerifier : String
  redirectURI : String
  now : ℤ
  drawn : Drawn
  deriving DecidableEq

inductive AuthCall
  | approve (call : Approve)
  | deny (call : Deny)
  | exchange (call : Exchange)
  deriving DecidableEq

/-- The writes to the row and the sessions, and what a call answers once it is through. -/
inductive AuthWrite
  | approve (userID : ℤ) (codeHash : String) (codeExpiresAt now : ℤ)
  | deny (now : ℤ)
  | use (now : ℤ)
  | createSession (session : Session)
  | callback (url : Except String String)
  | tokens (result : TokenResult)

def applyAuthWrite (s : AuthStore) : AuthWrite → AuthStore
  | .approve userID codeHash codeExpiresAt now =>
    { s with request :=
      { s.request with
        userID := userID
        status := .approved
        authCodeHash := codeHash
        codeExpiresAt := codeExpiresAt
        updatedAt := now } }
  | .deny now => { s with request := { s.request with status := .denied, updatedAt := now } }
  | .use now => { s with request := { s.request with status := .used, updatedAt := now } }
  | .createSession session => { s with sessions := s.sessions ++ [session] }
  | .callback _ => s
  | .tokens _ => s

/-- The status in the `WHERE` of an `UPDATE`. -/
@[simp] def AuthWrite.expects : AuthWrite → Option AuthStatus
  | .approve .. => some .pending
  | .use _ => some .approved
  | _ => none

/-- Every `UPDATE` hits the row: `RowsAffected` is 1. -/
def acceptsAuth (s : AuthStore) (ws : List AuthWrite) : Bool :=
  ws.all fun w => w.expects.all fun status => s.request.status = status

/-- An `UPDATE`, and the error for another `RowsAffected` than 1. -/
def update (w : AuthWrite) (err : String) (rest : Script AuthStore AuthWrite String) :
    Script AuthStore AuthWrite String :=
  .query fun v => if acceptsAuth v [w] then .ok ([w], rest) else .error err

def getAuthRequestByRequestID (s : AuthStore) (requestID : String) : Except String AuthRequest :=
  if requestID = "" then .error "request_id is empty"
  else if s.request.requestID = requestID then .ok s.request
  else .error "record not found"

def Approve.code (call : Approve) : String := randomSecret "gc_code_" call.chars

def approve (env : Env) (call : Approve) (seen : AuthStore) :
    Except String (Script AuthStore AuthWrite String) :=
  if call.userID ≤ 0 then .error "user is not logged in"
  else match getAuthRequestByRequestID seen (trimSpace call.requestID) with
  | .error e => .error e
  | .ok req =>
    if req.status ≠ .pending ∨ req.expiresAt ≤ call.now then
      .error "authorization request is expired or no longer pending"
    else .ok (update
      (.approve call.userID (env.hashSecret call.code) (call.now + authCodeTTL) call.now)
      "authorization request could not be approved"
      (.exec [.callback (env.callbackURL req.redirectURI
        [("code", call.code), ("state", req.state)])] .done))

def deny (env : Env) (call : Deny) (seen : AuthStore) :
    Except String (Script AuthStore AuthWrite String) :=
  match getAuthRequestByRequestID seen (trimSpace call.requestID) with
  | .error e => .error e
  | .ok req =>
    let answer := Script.exec [.callback (env.callbackURL req.redirectURI
      [("error", "access_denied"), ("state", req.state)])] .done
    .ok (if req.status = .pending then .exec [.deny call.now] answer else answer)

/-- The function that `Exchange` passes to `DB.Transaction`, after its `SELECT`. -/
def exchangeTx (env : Env) (call : Exchange) (seen : AuthStore) :
    Except String (Script AuthStore AuthWrite String) :=
  let req := seen.request
  if req.authCodeHash ≠ env.hashSecret (trimSpace call.code) then
    .error "authorization code is invalid"
  else if req.status ≠ .approved ∨ req.codeExpiresAt ≤ call.now then
    .error "authorization code is expired or already used"
  else if req.redirectURI ≠ trimSpace call.redirectURI then
    .error "redirect_uri does not match authorization request"
  else if env.pkceChallenge (trimSpace call.codeVerifier) ≠ req.codeChallenge then
    .error "code_verifier is invalid"
  else .ok (update (.use call.now) "authorization code is already used"
    (.select fun _ => (issueTokenPairTx env call.now call.drawn).map fun result =>
      .exec [.createSession (newSession env req result call.now)]
        (.exec [.tokens result] .done)))

def exchange (env : Env) (call : Exchange) (seen : AuthStore) :
    Except String (Script AuthStore AuthWrite String) :=
  if trimSpace call.code = "" ∨ trimSpace call.codeVerifier = "" ∨
      trimSpace call.redirectURI = "" then
    .error "code, code_verifier and redirect_uri are required"
  else match validateRedirectURI env (trimSpace call.redirectURI) with
  | .error e => .error e
  | .ok () => exchangeTx env call seen

/-- Any number of the three calls on one database.  No call locks the row it reads. -/
def authProtocol (env : Env) : Protocol AuthStore AuthCall AuthWrite String Unit where
  body call := match call with
    | .approve call => approve env call
    | .deny call => deny env call
    | .exchange call => exchange env call
  apply := applyAuthWrite
  locks _ := []

/-- A history of committed calls. -/
abbrev AuthHistory := List (AuthCall × List AuthWrite)

/-- The status that a write leaves in the row, if it writes one. -/
@[simp] def AuthWrite.status : AuthWrite → Option AuthStatus
  | .approve .. => some .approved
  | .deny _ => some .denied
  | .use _ => some .used
  | _ => none

/-- The calls of `hs` stored the request as `status` at some time. -/
def Stored (hs : AuthHistory) (status : AuthStatus) : Prop :=
  ∃ h ∈ hs, ∃ w ∈ h.2, w.status = some status

instance (hs : AuthHistory) (status : AuthStatus) : Decidable (Stored hs status) :=
  inferInstanceAs (Decidable (∃ h ∈ hs, ∃ w ∈ h.2, w.status = some status))

/-- An exchange may create `session` after the calls `before`: it presents the code
of one of the approvals among them, before it expires, with the redirect and the
verifier that the request was started with. -/
def Redeems (env : Env) (row : AuthRequest) (before : AuthHistory) (call : AuthCall)
    (session : Session) : Prop :=
  ∃ e : Exchange, call = .exchange e ∧
    trimSpace e.redirectURI = row.redirectURI ∧
    env.pkceChallenge (trimSpace e.codeVerifier) = row.codeChallenge ∧
    ∃ a : Approve, (∃ h ∈ before, h.1 = .approve a) ∧ a.now < row.expiresAt ∧
      env.hashSecret (trimSpace e.code) = env.hashSecret a.code ∧
      e.now < a.now + authCodeTTL ∧ session.userID = a.userID

/-- Every session that the calls `hs` created was redeemed by its exchange. -/
def AllRedeemed (env : Env) (row : AuthRequest) (hs : AuthHistory) : Prop :=
  ∀ before call ws after, hs = before ++ (call, ws) :: after →
    ∀ session, .createSession session ∈ ws → Redeems env row before call session

/-- **Redeemed at most once and never after denial.**  `row` is the request as it
was started. -/
structure RedeemedOnce (env : Env) (row : AuthRequest) (s : AuthStore) (hs : AuthHistory) :
    Prop where
  once : s.sessions.length ≤ 1
  redeemed : AllRedeemed env row hs
  denied : Stored hs .denied → s.sessions = []
  used : Stored hs .used → s.request.status = .used

/-- The row as `StartGasterCodeAuth` inserted it. -/
def AuthRequest.started (r : AuthRequest) : AuthRequest :=
  { r with
    userID := 0
    status := .pending
    authCodeHash := ""
    codeExpiresAt := 0
    updatedAt := r.createdAt }

/-- A `Deny` that read a pending row does not find it used when it commits. -/
def DenyFindsUnused (s : AuthStore) (_ : AuthHistory)
    (o : Open AuthStore AuthCall AuthWrite String) : Prop :=
  ∀ call, o.call = .deny call → o.seen.request.status = .pending → s.request.status ≠ .used

/-! ## What a call writes -/

variable {env : Env} {seen : AuthStore} {ws : List AuthWrite}

theorem answers_update {w : AuthWrite} {err : String} {rest : Script AuthStore AuthWrite String}
    (h : Answers (update w err rest) ws) : ∃ ws', Answers rest ws' ∧ ws = w :: ws' := by
  obtain ⟨v, out, rest', ws', hv, hr, rfl⟩ := h.of_query
  split at hv
  · cases hv
    exact ⟨ws', hr, rfl⟩
  · cases hv

theorem getAuthRequestByRequestID_ok {requestID : String} {req : AuthRequest}
    (h : getAuthRequestByRequestID seen requestID = .ok req) : req = seen.request := by
  unfold getAuthRequestByRequestID at h
  split at h
  · cases h
  · split at h
    · cases h; rfl
    · cases h

theorem approve_outcome {call : Approve}
    (h : (authProtocol env).Outcome (.approve call) seen ws) :
    call.now < seen.request.expiresAt ∧
      ∃ url, ws = [.approve call.userID (env.hashSecret call.code) (call.now + authCodeTTL) call.now,
        .callback url] := by
  obtain ⟨script, hb, ha⟩ := h
  simp only [authProtocol, approve] at hb
  split at hb
  · cases hb
  split at hb
  · cases hb
  rename_i req hreq
  split at hb
  · cases hb
  rename_i hok
  cases hb
  rw [getAuthRequestByRequestID_ok hreq, not_or] at hok
  obtain ⟨_, h₁, rfl⟩ := answers_update ha
  obtain ⟨_, h₂, rfl⟩ := h₁.of_exec
  rw [h₂.of_done]
  exact ⟨by omega, _, rfl⟩

theorem deny_outcome {call : Deny} (h : (authProtocol env).Outcome (.deny call) seen ws) :
    ∃ url, ws = if seen.request.status = .pending then [.deny call.now, .callback url]
      else [.callback url] := by
  obtain ⟨script, hb, ha⟩ := h
  simp only [authProtocol, deny] at hb
  split at hb
  · cases hb
  rename_i req hreq
  cases hb
  rw [getAuthRequestByRequestID_ok hreq] at ha
  split at ha
  · rename_i hp
    obtain ⟨_, h₁, rfl⟩ := ha.of_exec
    obtain ⟨_, h₂, rfl⟩ := h₁.of_exec
    rw [h₂.of_done]
    exact ⟨_, (if_pos hp).symm⟩
  · rename_i hp
    obtain ⟨_, h₁, rfl⟩ := ha.of_exec
    rw [h₁.of_done]
    exact ⟨_, (if_neg hp).symm⟩

theorem exchange_outcome {call : Exchange}
    (h : (authProtocol env).Outcome (.exchange call) seen ws) :
    seen.request.status = .approved ∧
      seen.request.authCodeHash = env.hashSecret (trimSpace call.code) ∧
      call.now < seen.request.codeExpiresAt ∧
      seen.request.redirectURI = trimSpace call.redirectURI ∧
      env.pkceChallenge (trimSpace call.codeVerifier) = seen.request.codeChallenge ∧
      ∃ result, ws = [.use call.now, .createSession (newSession env seen.request result call.now),
        .tokens result] := by
  obtain ⟨script, hb, ha⟩ := h
  simp only [authProtocol, exchange] at hb
  split at hb
  · cases hb
  split at hb
  · cases hb
  simp only [exchangeTx] at hb
  split at hb
  · cases hb
  rename_i hcode
  split at hb
  · cases hb
  rename_i hstatus
  split at hb
  · cases hb
  rename_i hredirect
  split at hb
  · cases hb
  rename_i hpkce
  cases hb
  obtain ⟨_, h₁, rfl⟩ := answers_update ha
  obtain ⟨_, rest, h₂, h₃⟩ := h₁.of_select
  simp only [not_or, ne_eq, not_not, Int.not_le] at hcode hstatus hredirect hpkce
  cases hissue : issueTokenPairTx env call.now call.drawn with
  | error e =>
    rw [hissue] at h₂
    cases h₂
  | ok result =>
    rw [hissue] at h₂
    cases h₂
    obtain ⟨_, h₄, rfl⟩ := h₃.of_exec
    obtain ⟨_, h₅, rfl⟩ := h₄.of_exec
    rw [h₅.of_done]
    exact ⟨hstatus.1, hcode, hstatus.2, hredirect, hpkce, result, rfl⟩

/-! ## What holds between the calls -/

/-- The row holds the code of one of the approvals in `hs`. -/
def ApprovedBy (env : Env) (row : AuthRequest) (hs : AuthHistory) (req : AuthRequest) : Prop :=
  ∃ a : Approve, (∃ h ∈ hs, h.1 = .approve a) ∧ a.now < row.expiresAt ∧ req.userID = a.userID ∧
    req.authCodeHash = env.hashSecret a.code ∧ req.codeExpiresAt = a.now + authCodeTTL

structure AuthInv (env : Env) (row : AuthRequest) (s : AuthStore) (hs : AuthHistory) : Prop where
  started : s.request.started = row.started
  approved : s.request.status = .approved → ApprovedBy env row hs s.request
  once : s.sessions.length ≤ 1
  unused : s.request.status ≠ .used → s.sessions = []
  used : Stored hs .used ↔ s.request.status = .used
  denied : Stored hs .denied → s.request.status = .denied
  redeemed : AllRedeemed env row hs

/-- What a call may have read at some point before `hs`. -/
def AuthSeen (env : Env) (row : AuthRequest) (seen : AuthStore) (_ : AuthStore) (hs : AuthHistory) :
    Prop :=
  seen.request.started = row.started ∧
    (seen.request.status = .approved → ApprovedBy env row hs seen.request)

variable {row : AuthRequest} {s : AuthStore} {hs : AuthHistory}
  {o : Open AuthStore AuthCall AuthWrite String}

theorem ApprovedBy.append {req : AuthRequest} (h : ApprovedBy env row hs req) (hs' : AuthHistory) :
    ApprovedBy env row (hs ++ hs') req := by
  obtain ⟨a, ⟨x, hx, hxa⟩, h⟩ := h
  exact ⟨a, ⟨x, List.mem_append_left _ hx, hxa⟩, h⟩

theorem AllRedeemed.append {call : AuthCall} (h : AllRedeemed env row hs)
    (hnew : ∀ session, .createSession session ∈ ws → Redeems env row hs call session) :
    AllRedeemed env row (hs ++ [(call, ws)]) := by
  intro before call' ws' after heq
  rcases List.eq_nil_or_concat' after with rfl | ⟨after', last, rfl⟩
  · obtain ⟨rfl, hlast⟩ := List.append_inj' heq rfl
    cases hlast
    exact hnew
  · rw [← List.cons_append, ← List.append_assoc] at heq
    exact h before call' ws' after' (List.append_inj' heq rfl).1

@[simp] theorem stored_append {call : AuthCall} {status : AuthStatus} :
    Stored (hs ++ [(call, ws)]) status ↔
      Stored hs status ∨ ∃ w ∈ ws, w.status = some status := by
  simp [Stored, or_and_right, exists_or]

theorem AuthInv.initial (env : Env) (row : AuthRequest) :
    AuthInv env row ⟨row.started, []⟩ [] where
  started := rfl
  approved h := by cases h
  once := by simp
  unused _ := rfl
  used := by simp [Stored, AuthRequest.started]
  denied h := by simp [Stored] at h
  redeemed := by simp [AllRedeemed]

theorem AuthInv.authSeen (h : AuthInv env row s hs) : AuthSeen env row s s hs := ⟨h.started, h.approved⟩

theorem AuthInv.redeemedOnce (h : AuthInv env row s hs) : RedeemedOnce env row s hs where
  once := h.once
  redeemed := h.redeemed
  denied := by
    intro hd
    exact h.unused (by rw [h.denied hd]; decide)
  used := h.used.mp

theorem AuthInv.commit_approve {call : Approve} {url : Except String String}
    (h : AuthInv env row s hs) (hexp : call.now < row.expiresAt)
    (hacc : s.request.status = .pending) :
    let ws := [.approve call.userID (env.hashSecret call.code) (call.now + authCodeTTL) call.now,
      .callback url]
    AuthInv env row ((authProtocol env).write s ws) (hs ++ [(.approve call, ws)]) := by
  have hunused : s.sessions = [] := h.unused (by rw [hacc]; decide)
  have hnotUsed : ¬ Stored hs .used := by
    rw [h.used, hacc]
    decide
  have hnotDenied : ¬ Stored hs .denied := by
    intro hd
    have := h.denied hd
    rw [hacc] at this
    cases this
  refine ⟨h.started, fun _ => ⟨call, ⟨_, List.mem_append_right _ (List.mem_singleton_self _), rfl⟩,
    hexp, rfl, rfl, rfl⟩, h.once, fun _ => hunused, ?_, ?_, h.redeemed.append (by simp)⟩
  · simp [hnotUsed, Protocol.write, authProtocol, applyAuthWrite]
  · simp [hnotDenied]

theorem AuthInv.commit_deny {call : Deny} {url : Except String String} (h : AuthInv env row s hs)
    (hc : s.request.status ≠ .used) :
    let ws := [.deny call.now, .callback url]
    AuthInv env row ((authProtocol env).write s ws) (hs ++ [(.deny call, ws)]) := by
  have hnotUsed : ¬ Stored hs .used := mt h.used.mp hc
  refine ⟨h.started, ?_, h.once, fun _ => h.unused hc, ?_, fun _ => rfl, h.redeemed.append (by simp)⟩
  · simp [Protocol.write, authProtocol, applyAuthWrite]
  · simp [hnotUsed, Protocol.write, authProtocol, applyAuthWrite]

/-- A call that only answers. -/
theorem AuthInv.commit_callback {call : AuthCall} {url : Except String String}
    (h : AuthInv env row s hs) :
    AuthInv env row ((authProtocol env).write s [.callback url]) (hs ++ [(call, [.callback url])]) where
  started := h.started
  approved hs' := (h.approved hs').append _
  once := h.once
  unused := h.unused
  used := by simpa [Protocol.write, authProtocol, applyAuthWrite] using h.used
  denied := by simpa [Protocol.write, authProtocol, applyAuthWrite] using h.denied
  redeemed := h.redeemed.append (by simp)

/-- What a call saw stays true of it after another commit. -/
theorem AuthSeen.append {s' : AuthStore} {hs' : AuthHistory} (h : AuthSeen env row seen s hs) :
    AuthSeen env row seen s' (hs ++ hs') :=
  ⟨h.1, fun ha => (h.2 ha).append hs'⟩

theorem AuthSeen.redeems {call : Exchange} {result : TokenResult}
    (hseen : AuthSeen env row seen s hs)
    (ho : (authProtocol env).Outcome (.exchange call) seen ws) :
    Redeems env row hs (.exchange call) (newSession env seen.request result call.now) := by
  obtain ⟨hstatus, hcode, htime, hredirect, hpkce, -⟩ := exchange_outcome ho
  obtain ⟨hfix, happ⟩ := hseen
  obtain ⟨a, ha, hexp, huser, hhash, hcodeExp⟩ := happ hstatus
  have huri : seen.request.redirectURI = row.redirectURI := congrArg (·.redirectURI) hfix
  have hchallenge : seen.request.codeChallenge = row.codeChallenge :=
    congrArg (·.codeChallenge) hfix
  refine ⟨call, rfl, ?_, ?_, a, ha, hexp, ?_, ?_, huser⟩
  · rw [← hredirect, huri]
  · rw [hpkce, hchallenge]
  · rw [← hcode, hhash]
  · omega

theorem AuthInv.commit_exchange {call : Exchange} (h : AuthInv env row s hs)
    (hseen : AuthSeen env row seen s hs) (ho : (authProtocol env).Outcome (.exchange call) seen ws)
    (hacc : acceptsAuth s ws = true) :
    AuthInv env row ((authProtocol env).write s ws) (hs ++ [(.exchange call, ws)]) := by
  obtain ⟨-, -, -, -, -, result, rfl⟩ := exchange_outcome ho
  have hstatus : s.request.status = .approved := by
    simpa [acceptsAuth] using hacc
  have hempty : s.sessions = [] := h.unused (by rw [hstatus]; decide)
  have hnotDenied : ¬ Stored hs .denied := by
    intro hd
    have := h.denied hd
    rw [hstatus] at this
    cases this
  refine ⟨h.started, ?_, ?_, ?_, ?_, ?_, h.redeemed.append fun session hs' => ?_⟩
  · simp [Protocol.write, authProtocol, applyAuthWrite]
  · simp [Protocol.write, authProtocol, applyAuthWrite, hempty]
  · simp [Protocol.write, authProtocol, applyAuthWrite]
  · simp [Protocol.write, authProtocol, applyAuthWrite]
  · simp [hnotDenied]
  · have : session = newSession env seen.request result call.now := by simpa using hs'
    rw [this]
    exact hseen.redeems ho

/-- Every accepted commit that meets the condition keeps the invariant. -/
theorem AuthInv.commit (h : AuthInv env row s hs) (hseen : AuthSeen env row o.seen s hs)
    (ho : (authProtocol env).Outcome o.call o.seen o.pending) (hacc : acceptsAuth s o.pending = true)
    (hc : DenyFindsUnused s hs o) :
    AuthInv env row ((authProtocol env).write s o.pending) (hs ++ [(o.call, o.pending)]) := by
  obtain ⟨call, seen, todo, ws⟩ := o
  dsimp only at ho hseen hacc ⊢
  cases call with
  | approve call =>
    obtain ⟨hexp, url, rfl⟩ := approve_outcome ho
    have hrow : seen.request.expiresAt = row.expiresAt := congrArg (·.expiresAt) hseen.1
    refine h.commit_approve (hrow ▸ hexp) ?_
    simpa [acceptsAuth] using hacc
  | deny call =>
    obtain ⟨url, rfl⟩ := deny_outcome ho
    by_cases hp : seen.request.status = .pending
    · simp only [hp, if_true]
      exact h.commit_deny (hc call rfl hp)
    · simp only [hp, if_false]
      exact h.commit_callback
  | exchange call => exact h.commit_exchange hseen ho hacc

/-- A denial of a used request moves it out of `used`. -/
theorem AuthInv.commit_deny_used (h : AuthInv env row s hs)
    (ho : (authProtocol env).Outcome o.call o.seen o.pending) (hc : ¬ DenyFindsUnused s hs o) :
    ¬ RedeemedOnce env row ((authProtocol env).write s o.pending) (hs ++ [(o.call, o.pending)]) := by
  have hc' : ∃ call, o.call = .deny call ∧ o.seen.request.status = .pending ∧
      s.request.status = .used := by
    by_contra hno
    exact hc fun call hcall hp hused => hno ⟨call, hcall, hp, hused⟩
  obtain ⟨call, hcall, hp, hused⟩ := hc'
  rw [hcall] at ho
  obtain ⟨url, hws⟩ := deny_outcome ho
  rw [if_pos hp] at hws
  intro hgood
  have hstatus := hgood.used (stored_append.mpr (.inl (h.used.mpr hused)))
  rw [hws] at hstatus
  cases hstatus

/-- **Authorization codes are redeemed at most once and never after denial exactly
when** no `Deny` that read the request pending commits on one that is used.
`Approve` and `Exchange` need no such condition. -/
theorem auth_code_redeemed_once_iff (env : Env) (row : AuthRequest) (as : List (Action AuthCall)) :
    ((authProtocol env).systemWhere acceptsAuth).EveryState
        (fun s => RedeemedOnce env row s.store s.committed)
        (State.initial ⟨row.started, []⟩) as ↔
      ((authProtocol env).systemWhere acceptsAuth).EveryStep
        (AcceptedMeets acceptsAuth DenyFindsUnused) (State.initial ⟨row.started, []⟩) as := by
  exact Protocol.everyState_iff_commits_where (K := AuthSeen env row) (I := AuthInv env row)
    (fun _ _ h => h.authSeen) (fun _ _ h => h.redeemedOnce)
    (fun _ _ _ h hseen ho hacc hc => ⟨h.commit hseen ho hacc hc, fun _ hk => hk.append⟩)
    (fun _ _ _ h _ ho _ hc => h.commit_deny_used ho hc) (.initial env row) as

/-- A request started by a desktop client that listens on port 18790. -/
def sampleRequest : AuthRequest where
  requestID := "gcr_7Qm2"
  userID := 0
  codeChallenge := "E9Melhoa2OwvFrEMTJguCHaoeK1t8URWbuGJSstw-cM"
  state := "state-1"
  redirectURI := "http://127.0.0.1:18790/api/gmaster-auth/callback"
  clientName := "Gaster Code"
  clientVersion := "0.1.0"
  status := .pending
  authCodeHash := ""
  expiresAt := 1600
  codeExpiresAt := 0
  createdAt := 1000
  updatedAt := 1000

/-- The user answers the authorization page twice, in two windows: both calls read
the request pending; the approval's code is exchanged before the denial is written. -/
def approveThenDeny : List (Action AuthCall) :=
  let approve : Approve := ⟨"gcr_7Qm2", 101, 1010, "k3Jq"⟩
  let deny : Deny := ⟨"gcr_7Qm2", 1010⟩
  let exchange : Exchange :=
    { code := "gc_code_k3Jq"
      codeVerifier := "dBjftJeZ4CVP-mB92K27uhbUJU1p1r_wW1gFWFOEjXk"
      redirectURI := "http://127.0.0.1:18790/api/gmaster-auth/callback"
      now := 1011
      drawn := ⟨"a1", "r1", some ⟨101, "ada", "Ada", "", "default", userStatusEnabled⟩⟩ }
  [.select 0 (.approve approve), .select 1 (.deny deny), .next 0, .next 0, .commit 0,
    .select 2 (.exchange exchange), .next 2, .next 2, .next 2, .next 2, .commit 2,
    .next 1, .next 1, .commit 1]

theorem denied_after_exchange :
    ¬ ((authProtocol sampleEnv).systemWhere acceptsAuth).EveryState
      (fun s => RedeemedOnce sampleEnv sampleRequest s.store s.committed)
      (State.initial ⟨sampleRequest.started, []⟩) approveThenDeny := by
  intro h
  have hrun : (((authProtocol sampleEnv).systemWhere acceptsAuth).run
      (State.initial ⟨sampleRequest.started, []⟩) approveThenDeny).map
      (fun s => (decide (Stored s.committed .denied), s.store.sessions.length)) =
        some (true, 1) := by decide +kernel
  obtain ⟨t, ht, hlast⟩ := Option.map_eq_some_iff.mp hrun
  obtain ⟨hdenied, hcount⟩ := Prod.mk.inj hlast
  have hempty := (h.run ht).denied (of_decide_eq_true hdenied)
  rw [hempty] at hcount
  cases hcount

end GasterCode
