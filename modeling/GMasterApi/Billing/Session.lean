import GMasterApi.Billing.Funding

/-!
# The billing session

`BillingSession` ties one funding source and one token to a request: quota is
consumed before the request is sent, reserved while it runs, and settled or
refunded once its cost is known.
-/

namespace Billing

open Subscription GoString

/-! ## Errors -/

inductive ErrorCode
  | invalidRequest
  | readRequestBodyFailed
  | queryDataError
  | updateDataError
  | insufficientUserQuota
  | preConsumeTokenQuotaFailed
  deriving DecidableEq

structure NewAPIError where
  err : String
  errorCode : ErrorCode
  statusCode : ℕ
  skipRetry : Bool
  recordErrorLog : Bool
  deriving DecidableEq

/-- `NewError` with `ErrOptionWithSkipRetry`. -/
def newError (err : String) (code : ErrorCode) : NewAPIError := ⟨err, code, 500, true, true⟩

/-- `NewErrorWithStatusCode` with `http.StatusForbidden`, which is neither retried nor
logged. -/
def newForbidden (err : String) (code : ErrorCode) : NewAPIError := ⟨err, code, 403, true, false⟩

/-- The error of a subscription that cannot pay. -/
def subscriptionShort (err : String) : NewAPIError :=
  newForbidden ("订阅额度不足或未配置订阅: " ++ err) .insufficientUserQuota

/-! ## The session -/

/-- The fields of `RelayInfo` that billing reads, and below those that it writes. -/
structure RelayInfo where
  requestId : String
  userId : ℕ
  usingGroup : String
  tokenId : ℕ
  tokenUnlimited : Bool
  isPlayground : Bool
  forcePreConsume : Bool
  billingPreference : String
  userQuota : ℤ
  finalPreConsumedQuota : ℤ
  billingSource : BillingSource
  subscriptionId : ℕ
  subscriptionPreConsumed : ℤ
  subscriptionPostDelta : ℤ
  subscriptionAmountTotal : ℤ
  subscriptionAmountUsedAfterPreConsume : ℤ
  subscriptionPlanId : ℕ
  subscriptionPlanTitle : String
  deriving DecidableEq

structure BillingSession where
  relayInfo : RelayInfo
  funding : FundingSource
  preConsumedQuota : ℤ
  tokenConsumed : ℤ
  extraReserved : ℤ
  trusted : Bool
  fundingSettled : Bool
  settled : Bool
  refunded : Bool
  deriving DecidableEq

/-- A session on which nothing was consumed. -/
def BillingSession.init (relayInfo : RelayInfo) (funding : FundingSource) : BillingSession :=
  ⟨relayInfo, funding, 0, 0, 0, false, false, false, false⟩

/-- Settings, and the quota that the context carries for the token. -/
structure Settings where
  quotaPerUnit : ℚ
  formatQuota : ℤ → String
  tokenQuota : ℤ

/-- `int(10 * QuotaPerUnit)` -/
def Settings.trustQuota (settings : Settings) : ℤ := (10 * settings.quotaPerUnit).num.tdiv
  (10 * settings.quotaPerUnit).den

/-- How a token is read and charged: what the cache answers instead of the row, and
which query fails. -/
structure TokenEnv where
  cached : Option ℤ
  findFault : Option String
  decreaseFault : Option String

def TokenEnv.remainQuota (env : TokenEnv) (w : World) (tokenId : ℕ) : Except String ℤ :=
  match env.cached, env.findFault with
  | some quota, _ => .ok quota
  | none, some e => .error e
  | none, none => .ok (w.token tokenId).remainQuota

def preConsumeTokenQuota (settings : Settings) (env : TokenEnv) (w : World) (info : RelayInfo)
    (quota : ℤ) : Except String World :=
  if quota < 0 then .error "quota 不能为负数！"
  else if info.isPlayground then .ok w
  else match env.remainQuota w info.tokenId with
    | .error e => .error e
    | .ok remain =>
      if !info.tokenUnlimited && decide (remain < quota) then
        .error ("token quota is not enough, token remain quota: " ++ settings.formatQuota remain ++
          ", need quota: " ++ settings.formatQuota quota)
      else decreaseTokenQuota env.decreaseFault w info.tokenId quota

/-! ## Settlement -/

structure SettleFaults where
  funding : FundingFaults
  token : Option String

/-- The update of the token by the rest `delta`. -/
def BillingSession.settleToken (fault : Option String) (s : BillingSession) (w : World)
    (delta : ℤ) : Except String World :=
  if s.relayInfo.isPlayground then .ok w
  else if 0 < delta then decreaseTokenQuota fault w s.relayInfo.tokenId delta
  else increaseTokenQuota fault w s.relayInfo.tokenId (-delta)

/-- `SubscriptionPostDelta += int64(delta)`, for the logs. -/
def BillingSession.addPostDelta (s : BillingSession) (delta : ℤ) : BillingSession :=
  if s.funding.source = .subscription then
    { s with relayInfo := { s.relayInfo with
        subscriptionPostDelta := s.relayInfo.subscriptionPostDelta + delta } }
  else s

@[simp] theorem addPostDelta_funding (s : BillingSession) (delta : ℤ) :
    (s.addPostDelta delta).funding = s.funding := by
  unfold BillingSession.addPostDelta
  split <;> rfl

@[simp] theorem addPostDelta_settled (s : BillingSession) (delta : ℤ) :
    (s.addPostDelta delta).settled = s.settled := by
  unfold BillingSession.addPostDelta
  split <;> rfl

@[simp] theorem addPostDelta_tokenId (s : BillingSession) (delta : ℤ) :
    (s.addPostDelta delta).relayInfo.tokenId = s.relayInfo.tokenId := by
  unfold BillingSession.addPostDelta
  split <;> rfl

@[simp] theorem addPostDelta_isPlayground (s : BillingSession) (delta : ℤ) :
    (s.addPostDelta delta).relayInfo.isPlayground = s.relayInfo.isPlayground := by
  unfold BillingSession.addPostDelta
  split <;> rfl

def BillingSession.settle (faults : SettleFaults) (s : BillingSession) (w : World)
    (actualQuota : ℤ) : BillingSession × World × Except String Unit :=
  if s.settled then (s, w, .ok ())
  else
    let delta := actualQuota - s.preConsumedQuota
    if delta = 0 then ({ s with settled := true }, w, .ok ())
    else match if s.fundingSettled then .ok w else s.funding.settle faults.funding w delta with
      | .error e => (s, w, .error e)
      | .ok w =>
        let s := ({ s with fundingSettled := true, settled := true }).addPostDelta delta
        -- what the funding source paid is paid, whatever becomes of the token
        match s.settleToken faults.token w delta with
        | .error e => (s, w, .error e)
        | .ok w => (s, w, .ok ())

/-! ## Refund -/

/-- What a subscription had pre-consumed, 0 for a wallet. -/
def FundingSource.subPreConsumed : FundingSource → ℤ
  | .wallet _ => 0
  | .subscription funding => funding.preConsumed

def BillingSession.needsRefund (s : BillingSession) : Bool :=
  if s.settled || s.refunded || s.fundingSettled then false
  else decide (0 < s.tokenConsumed) || decide (0 < s.funding.subPreConsumed)

/-- The world with the quota reserved later given back to the subscription; an error
is only logged, as is one of the token. -/
def BillingSession.refundExtra (faults : RefundFaults) (s : BillingSession) (w : World) : World :=
  if 0 < s.extraReserved ∧ s.funding.source = .subscription ∧ 0 < s.relayInfo.subscriptionId then
    match w.postConsume faults.extra s.relayInfo.subscriptionId (-s.extraReserved) with
    | .error _ => w
    | .ok w => w
  else w

def BillingSession.refundToken (faults : RefundFaults) (s : BillingSession) (w : World) : World :=
  if 0 < s.tokenConsumed ∧ s.relayInfo.isPlayground = false then
    match increaseTokenQuota faults.token w s.relayInfo.tokenId s.tokenConsumed with
    | .error _ => w
    | .ok w => w
  else w

/-- The session, the world once the refund has run, and whether it took effect. -/
def BillingSession.refund (faults : RefundFaults) (s : BillingSession) (w : World) :
    BillingSession × World × Bool :=
  if s.settled || s.refunded || !s.needsRefund then (s, w, false)
  else
    let w := (s.funding.refund faults w).1
    let w := s.refundExtra faults w
    ({ s with refunded := true }, s.refundToken faults w, true)

/-! ## Reservation -/

/-- `syncRelayInfo` -/
def BillingSession.syncRelayInfo (s : BillingSession) : BillingSession :=
  let info := { s.relayInfo with
    finalPreConsumedQuota := s.preConsumedQuota
    billingSource := s.funding.source }
  match s.funding with
  | .subscription sub =>
    { s with relayInfo := { info with
        subscriptionId := sub.subscriptionId
        subscriptionPreConsumed := sub.preConsumed + s.extraReserved
        subscriptionPostDelta := 0
        subscriptionAmountTotal := sub.amountTotal
        subscriptionAmountUsedAfterPreConsume := sub.amountUsedAfter + s.extraReserved
        subscriptionPlanId := sub.planId
        subscriptionPlanTitle := sub.planTitle } }
  | .wallet _ =>
    { s with relayInfo := { info with subscriptionId := 0, subscriptionPreConsumed := 0 } }

section Sync

variable (s : BillingSession)

@[simp] theorem sync_funding : s.syncRelayInfo.funding = s.funding := by
  unfold BillingSession.syncRelayInfo
  split <;> simp_all

@[simp] theorem sync_preConsumedQuota :
    s.syncRelayInfo.preConsumedQuota = s.preConsumedQuota := by
  unfold BillingSession.syncRelayInfo
  split <;> rfl

@[simp] theorem sync_tokenConsumed : s.syncRelayInfo.tokenConsumed = s.tokenConsumed := by
  unfold BillingSession.syncRelayInfo
  split <;> rfl

@[simp] theorem sync_extraReserved : s.syncRelayInfo.extraReserved = s.extraReserved := by
  unfold BillingSession.syncRelayInfo
  split <;> rfl

@[simp] theorem sync_trusted : s.syncRelayInfo.trusted = s.trusted := by
  unfold BillingSession.syncRelayInfo
  split <;> rfl

@[simp] theorem sync_flags : s.syncRelayInfo.settled = s.settled ∧
    s.syncRelayInfo.refunded = s.refunded ∧ s.syncRelayInfo.fundingSettled = s.fundingSettled := by
  unfold BillingSession.syncRelayInfo
  split <;> exact ⟨rfl, rfl, rfl⟩

@[simp] theorem sync_tokenId : s.syncRelayInfo.relayInfo.tokenId = s.relayInfo.tokenId := by
  unfold BillingSession.syncRelayInfo
  split <;> rfl

@[simp] theorem sync_isPlayground :
    s.syncRelayInfo.relayInfo.isPlayground = s.relayInfo.isPlayground := by
  unfold BillingSession.syncRelayInfo
  split <;> rfl

theorem sync_subscriptionId {sub : SubscriptionFunding} (h : s.funding = .subscription sub) :
    s.syncRelayInfo.relayInfo.subscriptionId = sub.subscriptionId := by
  unfold BillingSession.syncRelayInfo
  rw [h]

end Sync

def reserveFunding (faults : FundingFaults) (w : World) (delta : ℤ) :
    FundingSource → Except NewAPIError (FundingSource × World)
  | .wallet funding =>
    match decreaseUserQuota faults.quota w funding.userId delta with
    | .error e => .error (newError e .updateDataError)
    | .ok w => .ok (.wallet { funding with consumed := funding.consumed + delta }, w)
  | .subscription funding =>
    match w.postConsume faults.delta funding.subscriptionId delta with
    | .error e => .error (subscriptionShort e)
    | .ok w => .ok (.subscription funding, w)

def rollbackFundingReserve (faults : FundingFaults) (w : World) (delta : ℤ) :
    FundingSource → FundingSource × World
  | .wallet funding =>
    match increaseUserQuota faults.quota w funding.userId delta with
    | .error _ => (.wallet funding, w)
    | .ok w => (.wallet { funding with consumed := funding.consumed - delta }, w)
  | .subscription funding =>
    match w.postConsume faults.delta funding.subscriptionId (-delta) with
    | .error _ => (.subscription funding, w)
    | .ok w => (.subscription funding, w)

def BillingSession.reserveToken (settings : Settings) (env : TokenEnv) (s : BillingSession)
    (w : World) (delta : ℤ) : Except NewAPIError World :=
  if delta ≤ 0 ∨ s.relayInfo.isPlayground then .ok w
  else match preConsumeTokenQuota settings env w s.relayInfo delta with
    | .error e => .error (newForbidden e .preConsumeTokenQuotaFailed)
    | .ok w => .ok w

/-- Where a reservation fails. -/
structure ReserveFaults where
  funding : FundingFaults
  token : TokenEnv
  rollback : FundingFaults

def BillingSession.reserve (settings : Settings) (faults : ReserveFaults) (s : BillingSession)
    (w : World) (targetQuota : ℤ) : BillingSession × World × Except NewAPIError Unit :=
  if s.settled ∨ s.refunded ∨ s.trusted ∨ targetQuota ≤ s.preConsumedQuota then (s, w, .ok ())
  else
    let delta := targetQuota - s.preConsumedQuota
    match reserveFunding faults.funding w delta s.funding with
    | .error e => (s, w, .error e)
    | .ok (funding, w) =>
      match s.reserveToken settings faults.token w delta with
      | .error e =>
        let (funding, w) := rollbackFundingReserve faults.rollback w delta funding
        ({ s with funding := funding }, w, .error e)
      | .ok w =>
        (({ s with
            funding := funding
            preConsumedQuota := s.preConsumedQuota + delta
            tokenConsumed := s.tokenConsumed + delta
            extraReserved := s.extraReserved + delta }).syncRelayInfo, w, .ok ())

/-! ## Pre-consumption -/

def BillingSession.shouldTrust (settings : Settings) (s : BillingSession) : Bool :=
  if s.relayInfo.forcePreConsume then false
  else
    let trustQuota := settings.trustQuota
    if trustQuota ≤ 0 then false
    else if !s.relayInfo.tokenUnlimited && !decide (trustQuota < settings.tokenQuota) then false
    else match s.funding.source with
      | .wallet => decide (trustQuota < s.relayInfo.userQuota)
      | _ => false

/-- What a pre-consumption finds around it, and where it fails. -/
structure PreConsumeEnv where
  token : TokenEnv
  funding : FundingEnv
  rollback : Option String

/-- The error of a funding source, by its text. -/
def fundingError (err : String) : NewAPIError :=
  if contains err "no active subscription" || contains err "subscription quota insufficient" then
    subscriptionShort err
  else newError err .updateDataError

/-- A session that has consumed its quota, and the subscriptions reset on the way. -/
structure Created where
  session : BillingSession
  resets : List ℕ

/-- The token update that takes a failed pre-consumption back. -/
def BillingSession.rollbackToken (fault : Option String) (s : BillingSession) (w : World) : World :=
  if 0 < s.tokenConsumed ∧ s.relayInfo.isPlayground = false then
    match increaseTokenQuota fault w s.relayInfo.tokenId s.tokenConsumed with
    | .error _ => w
    | .ok w => w
  else w

/-- The quota of the token: none of it where the session is trusted. -/
def BillingSession.consumeToken (settings : Settings) (env : TokenEnv) (s : BillingSession)
    (w : World) (effectiveQuota : ℤ) : Except NewAPIError (BillingSession × World) :=
  if 0 < effectiveQuota then
    match preConsumeTokenQuota settings env w s.relayInfo effectiveQuota with
    | .error e => .error (newForbidden e .preConsumeTokenQuotaFailed)
    | .ok w => .ok ({ s with tokenConsumed := effectiveQuota }, w)
  else .ok (s, w)

def BillingSession.preConsume (settings : Settings) (env : PreConsumeEnv) (s : BillingSession)
    (w : World) (quota : ℤ) : World × Except NewAPIError Created :=
  let trusted := s.shouldTrust settings
  let effectiveQuota := if trusted then 0 else quota
  match ({ s with trusted := trusted }).consumeToken settings env.token w effectiveQuota with
  | .error e => (w, .error e)
  | .ok (s, w) =>
    match s.funding.preConsume env.funding w effectiveQuota with
    | .error e => (s.rollbackToken env.rollback w, .error (fundingError e))
    | .ok funded =>
      (funded.world,
        .ok ⟨({ s with funding := funded.funding
                       preConsumedQuota := effectiveQuota }).syncRelayInfo, funded.resets⟩)

/-! ## Closed sessions -/

theorem settle_of_settled {s : BillingSession} (h : s.settled = true) (faults : SettleFaults)
    (w : World) (actual : ℤ) : s.settle faults w actual = (s, w, .ok ()) := by
  unfold BillingSession.settle
  rw [if_pos h]

/-- A settlement of what was pre-consumed moves nothing. -/
theorem settle_of_eq {s : BillingSession} (h : s.settled = false) (faults : SettleFaults)
    (w : World) : s.settle faults w s.preConsumedQuota = ({ s with settled := true }, w, .ok ()) := by
  unfold BillingSession.settle
  rw [if_neg (by simp [h])]
  dsimp only
  rw [if_pos (sub_self _)]

theorem refund_of_closed {s : BillingSession} (h : s.settled = true ∨ s.refunded = true)
    (faults : RefundFaults) (w : World) : s.refund faults w = (s, w, false) := by
  have hclosed : (s.settled || s.refunded) = true := by simpa using h
  unfold BillingSession.refund
  rw [hclosed, Bool.true_or, if_pos rfl]

theorem reserve_of_closed {s : BillingSession} (h : s.settled = true ∨ s.refunded = true)
    (settings : Settings) (faults : ReserveFaults) (w : World) (target : ℤ) :
    s.reserve settings faults w target = (s, w, .ok ()) := by
  unfold BillingSession.reserve
  rcases h with h | h
  · rw [if_pos (.inl h)]
  · rw [if_pos (.inr (.inl h))]

end Billing
