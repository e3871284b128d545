import GMasterApi.Billing.Session

/-!
# Creating a session

`NewBillingSession` tries the funding sources in the order of the user's
preference.  Whatever fails on the way, it returns an error with every quota as it
was, or a session for which exactly one source was charged
(`newBillingSession_charges`).
-/

namespace Billing

open Subscription GoString

/-! ## Preferences -/

inductive BillingPreference
  | subscriptionOnly
  | walletOnly
  | walletFirst
  | subscriptionFirst
  deriving DecidableEq

def normalizeBillingPreference (pref : String) : BillingPreference :=
  match trimSpace pref with
  | "subscription_first" => .subscriptionFirst
  | "wallet_first" => .walletFirst
  | "subscription_only" => .subscriptionOnly
  | "wallet_only" => .walletOnly
  | _ => .subscriptionFirst

/-- The counts of active subscriptions. -/
inductive ActiveCheck
  | any
  | upgradeGroup
  | forGroup
  deriving DecidableEq

/-- What a creation finds around it, and where it fails: the time of the server, the
queries, the quota that a cache answers for the user, and the attempt on each source. -/
structure CreateEnv where
  now : ℤ
  checkFault : ActiveCheck → Option String
  userCached : Option ℤ
  userFault : Option String
  wallet : PreConsumeEnv
  subscription : PreConsumeEnv

/-- The rollbacks of both attempts succeed. -/
def CreateEnv.rollsBack (env : CreateEnv) : Prop :=
  env.wallet.rollback = none ∧ env.subscription.rollback = none

/-- A count of the user's active subscriptions is positive. -/
def CreateEnv.hasActive (env : CreateEnv) (w : World) (userId : ℕ) (check : ActiveCheck)
    (where' : UserSubscription → Bool) : Except String Bool :=
  match env.checkFault check with
  | some e => .error e
  | none => .ok (w.store.subs.rows.any fun sub => sub.isActive userId env.now && where' sub)

def hasActiveUserSubscription (env : CreateEnv) (w : World) (userId : ℕ) : Except String Bool :=
  if userId = 0 then .error "invalid userId"
  else env.hasActive w userId .any fun _ => true

def hasActiveUserSubscriptionUpgradeGroup (env : CreateEnv) (w : World) (userId : ℕ) :
    Except String Bool :=
  if userId = 0 then .error "invalid userId"
  else env.hasActive w userId .upgradeGroup fun sub => sub.upgradeGroup != ""

def hasActiveUserSubscriptionForGroup (env : CreateEnv) (w : World) (userId : ℕ)
    (group : String) : Except String Bool :=
  if userId = 0 then .error "invalid userId"
  else if trimSpace group = "" then .ok false
  else env.hasActive w userId .forGroup fun sub => sub.upgradeGroup == trimSpace group

/-- The preference that the group of a subscription forces, if one does. -/
def resolveGroupBoundBillingPreference (env : CreateEnv) (w : World) (info : RelayInfo) :
    Except String (Option BillingPreference) :=
  match hasActiveUserSubscriptionUpgradeGroup env w info.userId with
  | .error e => .error e
  | .ok false => .ok none
  | .ok true =>
    match hasActiveUserSubscriptionForGroup env w info.userId info.usingGroup with
    | .error e => .error e
    | .ok true => .ok (some .subscriptionOnly)
    | .ok false => .ok (some .walletOnly)

/-! ## The two attempts -/

def getUserQuota (env : CreateEnv) (w : World) (userId : ℕ) : Except String ℤ :=
  match env.userCached, env.userFault with
  | some quota, _ => .ok quota
  | none, some e => .error e
  | none, none => .ok (w.quota userId)

/-- The relay info with the quota of the user, if that is enough. -/
def checkWallet (settings : Settings) (env : CreateEnv) (w : World) (info : RelayInfo)
    (preConsumedQuota : ℤ) : Except NewAPIError RelayInfo :=
  match getUserQuota env w info.userId with
  | .error e => .error (newError e .queryDataError)
  | .ok userQuota =>
    if userQuota ≤ 0 then
      .error (newForbidden ("用户额度不足, 剩余额度: " ++ settings.formatQuota userQuota)
        .insufficientUserQuota)
    else if userQuota - preConsumedQuota < 0 then
      .error (newForbidden ("预扣费额度失败, 用户剩余额度: " ++ settings.formatQuota userQuota ++
        ", 需要预扣费额度: " ++ settings.formatQuota preConsumedQuota) .insufficientUserQuota)
    else .ok { info with userQuota := userQuota }

/-- The relay info as the attempt leaves it, the world and its result. -/
def tryWallet (settings : Settings) (env : CreateEnv) (w : World) (info : RelayInfo)
    (preConsumedQuota : ℤ) : RelayInfo × World × Except NewAPIError Created :=
  match checkWallet settings env w info preConsumedQuota with
  | .error e => (info, w, .error e)
  | .ok info =>
    (info, (BillingSession.init info (.wallet ⟨info.userId, 0⟩)).preConsume settings env.wallet w
      preConsumedQuota)

/-- `subConsume`: a subscription consumes at least 1. -/
def subConsume (preConsumedQuota : ℤ) : ℤ := if preConsumedQuota ≤ 0 then 1 else preConsumedQuota

def trySubscription (settings : Settings) (env : CreateEnv) (w : World) (info : RelayInfo)
    (preConsumedQuota : ℤ) : World × Except NewAPIError Created :=
  let amount := subConsume preConsumedQuota
  (BillingSession.init info (.subscription ⟨info.requestId, info.userId, amount, 0, 0, 0, 0, 0, ""⟩)
    ).preConsume settings env.subscription w amount

/-- By preference; an attempt that finds too little quota may fall back to the other. -/
def tryPreferred (settings : Settings) (env : CreateEnv) (w : World) (info : RelayInfo)
    (preConsumedQuota : ℤ) : BillingPreference → World × Except NewAPIError Created
  | .subscriptionOnly => trySubscription settings env w info preConsumedQuota
  | .walletOnly => (tryWallet settings env w info preConsumedQuota).2
  | .walletFirst =>
    match tryWallet settings env w info preConsumedQuota with
    | (info, w, .error e) =>
      if e.errorCode = .insufficientUserQuota then trySubscription settings env w info preConsumedQuota
      else (w, .error e)
    | (_, w, .ok created) => (w, .ok created)
  | .subscriptionFirst =>
    match hasActiveUserSubscription env w info.userId with
    | .error e => (w, .error (newError e .queryDataError))
    | .ok false => (tryWallet settings env w info preConsumedQuota).2
    | .ok true =>
      match trySubscription settings env w info preConsumedQuota with
      | (w, .error e) =>
        if e.errorCode = .insufficientUserQuota then (tryWallet settings env w info preConsumedQuota).2
        else (w, .error e)
      | (w, .ok created) => (w, .ok created)

def newBillingSession (settings : Settings) (env : CreateEnv) (w : World)
    (relayInfo : Option RelayInfo) (preConsumedQuota : ℤ) : World × Except NewAPIError Created :=
  match relayInfo with
  | none => (w, .error (newError "relayInfo is nil" .invalidRequest))
  | some info =>
    match resolveGroupBoundBillingPreference env w info with
    | .error e => (w, .error (newError e .queryDataError))
    | .ok groupPref =>
      tryPreferred settings env w info preConsumedQuota
        (groupPref.getD (normalizeBillingPreference info.billingPreference))

/-! ## One attempt -/

def FundingSource.account : FundingSource → Account
  | .wallet funding => .user funding.userId
  | .subscription funding => .subscription funding.subscriptionId

/-- What of `n` the token pays: a playground request has none. -/
def RelayInfo.tokenShare (info : RelayInfo) (n : ℤ) : ℤ := if info.isPlayground then 0 else n

theorem sync_tokenShare (s : BillingSession) (n : ℤ) :
    s.syncRelayInfo.relayInfo.tokenShare n = s.relayInfo.tokenShare n := by
  unfold RelayInfo.tokenShare
  rw [sync_isPlayground]

variable {settings : Settings} {env : PreConsumeEnv} {s s' : BillingSession} {w w' : World}
  {info : RelayInfo} {quota : ℤ}

theorem addToken_undo (w : World) (tokenId : ℕ) (n : ℤ) :
    (w.addToken tokenId (-n)).addToken tokenId n = w := by
  simp [World.addToken]

theorem preConsumeTokenQuota_eq_ok {tokenEnv : TokenEnv}
    (h : preConsumeTokenQuota settings tokenEnv w info quota = .ok w') :
    w' = if info.isPlayground then w else w.addToken info.tokenId (-quota) := by
  unfold preConsumeTokenQuota at h
  split at h
  · cases h
  by_cases hp : info.isPlayground = true
  · rw [if_pos hp] at h ⊢
    exact (Except.ok.inj h).symm
  rw [if_neg hp] at h ⊢
  split at h
  · cases h
  split at h
  · cases h
  · exact (updateQuota_eq_ok h).2

/-- The token's part of a pre-consumption: what it consumes the session records. -/
theorem consumeToken_eq_ok {tokenEnv : TokenEnv} (hzero : s.tokenConsumed = 0) (hquota : 0 ≤ quota)
    (h : s.consumeToken settings tokenEnv w quota = .ok (s', w')) :
    s' = { s with tokenConsumed := quota } ∧
      w' = if quota = 0 ∨ s.relayInfo.isPlayground then w
        else w.addToken s.relayInfo.tokenId (-quota) := by
  unfold BillingSession.consumeToken at h
  by_cases hpos : 0 < quota
  · rw [if_pos hpos] at h
    split at h
    · cases h
    rename_i wt hpre
    cases h
    have hne : quota ≠ 0 := by omega
    refine ⟨rfl, ?_⟩
    rw [preConsumeTokenQuota_eq_ok hpre]
    simp [hne]
  · rw [if_neg hpos] at h
    cases h
    have hz : quota = 0 := by omega
    refine ⟨?_, by simp [hz]⟩
    rw [hz, ← hzero]

theorem moves_consumeToken (account : Account) (hzero : s.tokenConsumed = 0) (hquota : 0 ≤ quota)
    {tokenEnv : TokenEnv} (h : s.consumeToken settings tokenEnv w quota = .ok (s', w')) :
    Moves account s.relayInfo.tokenId [] 0 (s.relayInfo.tokenShare quota) w w' ∧
      w'.store = w.store := by
  obtain ⟨-, hw⟩ := consumeToken_eq_ok hzero hquota h
  unfold RelayInfo.tokenShare
  by_cases hp : s.relayInfo.isPlayground = true
  · rw [if_pos hp]
    rw [if_pos (.inr hp)] at hw
    rw [hw]
    exact ⟨.refl _ _ _, rfl⟩
  rw [if_neg hp]
  by_cases hz : quota = 0
  · rw [if_pos (.inl hz)] at hw
    rw [hw, hz]
    exact ⟨.refl _ _ _, rfl⟩
  · rw [if_neg (not_or.mpr ⟨hz, hp⟩)] at hw
    rw [hw]
    exact ⟨moves_addToken _ _ _ _, rfl⟩

/-- The rollback of a failed pre-consumption gives the token all of it back. -/
theorem rollbackToken_consumed {tokenEnv : TokenEnv} (hzero : s.tokenConsumed = 0)
    (hquota : 0 ≤ quota) (h : s.consumeToken settings tokenEnv w quota = .ok (s', w')) :
    s'.rollbackToken none w' = w := by
  obtain ⟨hs, hw⟩ := consumeToken_eq_ok hzero hquota h
  unfold BillingSession.rollbackToken increaseTokenQuota
  by_cases hp : s.relayInfo.isPlayground = true
  · have hcond : ¬ (0 < s'.tokenConsumed ∧ s'.relayInfo.isPlayground = false) := by
      rw [hs]
      simp [hp]
    rw [if_neg hcond, hw, if_pos (.inr hp)]
  by_cases hz : quota = 0
  · have hcond : ¬ (0 < s'.tokenConsumed ∧ s'.relayInfo.isPlayground = false) := by
      rw [hs]
      simp [hz]
    rw [if_neg hcond, hw, if_pos (.inl hz)]
  · have hcond : 0 < s'.tokenConsumed ∧ s'.relayInfo.isPlayground = false := by
      rw [hs]
      exact ⟨by show 0 < quota; omega, Bool.eq_false_iff.mpr hp⟩
    have htok : s'.tokenConsumed = quota := by rw [hs]
    have hid : s'.relayInfo.tokenId = s.relayInfo.tokenId := by rw [hs]
    rw [if_pos hcond, hw, if_neg (not_or.mpr ⟨hz, hp⟩), htok, hid, updateQuota_none _ hquota,
      addToken_undo]

/-! ## A session that holds its quota -/

/-- The subscription of a session holds its consumed record, and has room for what the
session took. -/
structure SubHolds (before after : World) (resets : List ℕ) (s : BillingSession)
    (funding : SubscriptionFunding) : Prop where
  named : trimSpace funding.requestId ≠ ""
  positive : 0 < funding.preConsumed
  held : funding.preConsumed + s.extraReserved = s.preConsumedQuota
  extra : 0 ≤ s.extraReserved
  record : after.store.records.find funding.requestId = some
    ⟨funding.requestId, funding.userId, funding.subscriptionId, funding.preConsumed, .consumed⟩
  within : ∃ u, before.store.usage funding.subscriptionId = some u ∧ (0 < u.total →
    (u.resetIf (resets.contains funding.subscriptionId)).used + s.preConsumedQuota ≤ u.total)

/-- Neither settled nor refunded: what the session took, since `before`, from its
source and its token is `preConsumedQuota`. -/
structure Took (before after : World) (resets : List ℕ) (s : BillingSession) : Prop where
  settled : s.settled = false
  refunded : s.refunded = false
  fundingSettled : s.fundingSettled = false
  nonneg : 0 ≤ s.preConsumedQuota
  token : s.tokenConsumed = s.preConsumedQuota
  trusted : s.trusted = true → s.preConsumedQuota = 0
  moves : Moves s.funding.account s.relayInfo.tokenId resets s.preConsumedQuota
    (s.relayInfo.tokenShare s.preConsumedQuota) before after
  wallet : ∀ funding, s.funding = .wallet funding → funding.consumed = s.preConsumedQuota
  subscription : ∀ funding, s.funding = .subscription funding →
    SubHolds before after resets s funding

/-- Such a session whose relay info names its subscription. -/
structure Holds (before after : World) (resets : List ℕ) (s : BillingSession) : Prop
    extends Took before after resets s where
  synced : ∀ funding, s.funding = .subscription funding →
    s.relayInfo.subscriptionId = funding.subscriptionId

theorem Took.sync {before after : World} {resets : List ℕ} (h : Took before after resets s) :
    Holds before after resets s.syncRelayInfo where
  settled := (sync_flags s).1.trans h.settled
  refunded := (sync_flags s).2.1.trans h.refunded
  fundingSettled := (sync_flags s).2.2.trans h.fundingSettled
  nonneg := by
    rw [sync_preConsumedQuota]
    exact h.nonneg
  token := by
    rw [sync_tokenConsumed, sync_preConsumedQuota]
    exact h.token
  trusted := by
    rw [sync_trusted, sync_preConsumedQuota]
    exact h.trusted
  moves := by
    rw [sync_funding, sync_tokenId, sync_preConsumedQuota, sync_tokenShare]
    exact h.moves
  wallet funding hf := by
    rw [sync_funding] at hf
    rw [sync_preConsumedQuota]
    exact h.wallet funding hf
  subscription funding hf := by
    rw [sync_funding] at hf
    have hsub := h.subscription funding hf
    refine ⟨hsub.named, hsub.positive, ?_, ?_, hsub.record, ?_⟩
    · rw [sync_extraReserved, sync_preConsumedQuota]
      exact hsub.held
    · rw [sync_extraReserved]
      exact hsub.extra
    · rw [sync_preConsumedQuota]
      exact hsub.within
  synced funding hf := by
    rw [sync_funding] at hf
    exact sync_subscriptionId s hf

theorem walletPreConsume_eq_ok {env : FundingEnv} {userId : ℕ} {funded : Funded} (tokenId : ℕ)
    (hquota : 0 ≤ quota) (h : (WalletFunding.mk userId 0).preConsume env w quota = .ok funded) :
    funded.funding = .wallet ⟨userId, quota⟩ ∧ funded.resets = [] ∧
      Moves (.user userId) tokenId [] quota 0 w funded.world := by
  unfold WalletFunding.preConsume at h
  by_cases hpos : quota ≤ 0
  · rw [if_pos hpos] at h
    have hz : quota = 0 := by omega
    rw [← Except.ok.inj h, hz]
    exact ⟨rfl, rfl, .refl _ _ _⟩
  · rw [if_neg hpos] at h
    cases hdec : decreaseUserQuota env.quotaFault w userId quota with
    | error e => rw [hdec] at h; cases h
    | ok w₁ =>
      rw [hdec] at h
      rw [← Except.ok.inj h, (updateQuota_eq_ok hdec).2]
      exact ⟨rfl, rfl, moves_addQuota _ _ _ _⟩

/-- What the pre-consumption of a subscription for a new request leaves. -/
structure SubConsumed (env : Env) (before : World) (funding : SubscriptionFunding) (tokenId : ℕ)
    (funded : Funded) (funding' : SubscriptionFunding) : Prop where
  source : funded.funding = .subscription funding'
  requestId : funding'.requestId = funding.requestId
  preConsumed : funding'.preConsumed = funding.amount
  positive : 0 < funding.amount
  named : trimSpace funding.requestId ≠ ""
  active : ∃ sub, before.store.subs.find funding'.subscriptionId = some sub ∧
    sub.isActive funding.userId env.now = true
  moves : Moves (.subscription funding'.subscriptionId) tokenId funded.resets funding.amount 0 before
    funded.world
  record : funded.world.store.records.find funding.requestId = some
    ⟨funding.requestId, funding'.userId, funding'.subscriptionId, funding.amount, .consumed⟩
  within : ∃ u, before.store.usage funding'.subscriptionId = some u ∧ (0 < u.total →
    (u.resetIf (funded.resets.contains funding'.subscriptionId)).used + funding.amount ≤ u.total)

theorem subPreConsume_eq_ok {env : FundingEnv} {funding : SubscriptionFunding} {funded : Funded}
    (tokenId : ℕ) (hnew : w.store.records.find funding.requestId = none)
    (h : funding.preConsume env w = .ok funded) :
    ∃ funding', SubConsumed env.env w funding tokenId funded funding' := by
  unfold SubscriptionFunding.preConsume at h
  split at h
  · cases h
  rename_i out hout
  obtain ⟨hpos, ⟨_, hseen, -⟩ | ⟨-, hcharged⟩⟩ := preConsume_eq_ok hout
  · rw [hnew] at hseen
    cases hseen
  have hactive := preConsume_active hnew hout
  have hrecord : out.store.records.find funding.requestId = some
      ⟨funding.requestId, funding.userId, out.result.userSubscriptionId, funding.amount,
        .consumed⟩ := by
    rw [Table.find_create hcharged.record, if_pos rfl]
  rw [← Except.ok.inj h]
  refine ⟨_, rfl, rfl, hcharged.preConsumed, hpos, preConsume_named hout, hactive, ?_, hrecord,
    hcharged.exists_usage⟩
  refine ⟨fun id => by simp [Account.fromUser], fun id => by simp, fun id => ?_⟩
  show out.store.usage id = _
  rw [hcharged.usage id]
  cases w.store.usage id with
  | none => rfl
  | some u =>
    by_cases hid : id = out.result.userSubscriptionId
    · subst hid
      simp [Account.fromSub]
    · have hne : ¬ out.result.userSubscriptionId = id := fun e => hid e.symm
      simp [Account.fromSub, hid, hne]

/-! ## One attempt -/

/-- A failed attempt leaves the world as it found it. -/
theorem preConsume_error {funding : FundingSource} {e : NewAPIError} (hroll : env.rollback = none)
    (hquota : 0 ≤ quota)
    (h : (BillingSession.init info funding).preConsume settings env w quota = (w', .error e)) :
    w' = w := by
  unfold BillingSession.preConsume at h
  dsimp only at h
  have hq : 0 ≤ if (BillingSession.init info funding).shouldTrust settings then 0 else quota := by
    split <;> omega
  split at h
  · cases h; rfl
  · rename_i s₁ w₁ htok
    split at h
    · cases h
      rw [hroll]
      exact rollbackToken_consumed rfl hq htok
    · cases h

/-- A source of the user may be charged `q`: of a trusted session nothing, of a
subscription at least 1. -/
def SourceCharged (now : ℤ) (before : World) (info : RelayInfo) (quota : ℤ) (resets : List ℕ)
    (trusted : Bool) (q : ℤ) : FundingSource → Prop
  | .wallet funding => funding.userId = info.userId ∧ resets = [] ∧
      q = if trusted then 0 else quota
  | .subscription funding => trusted = false ∧ q = subConsume quota ∧
      ∃ sub, before.store.subs.find funding.subscriptionId = some sub ∧
        sub.isActive info.userId now = true

/-- One source of the user was charged, by exactly what the session says it
pre-consumed. -/
structure ChargedOnce (now : ℤ) (before after : World) (info : RelayInfo) (quota : ℤ)
    (created : Created) : Prop where
  moves : Moves created.session.funding.account info.tokenId created.resets
    created.session.preConsumedQuota (info.tokenShare created.session.preConsumedQuota) before after
  source : SourceCharged now before info quota created.resets created.session.trusted
    created.session.preConsumedQuota created.session.funding

/-- The relay info of a session names who pays, and how much was pre-consumed. -/
structure Reports (info : RelayInfo) (s : BillingSession) : Prop where
  userId : s.relayInfo.userId = info.userId
  tokenId : s.relayInfo.tokenId = info.tokenId
  quota : s.relayInfo.finalPreConsumedQuota = s.preConsumedQuota
  source : s.relayInfo.billingSource = s.funding.source

/-- A session that an attempt returns holds what it was charged. -/
structure Opened (now : ℤ) (before after : World) (info : RelayInfo) (quota : ℤ)
    (created : Created) : Prop extends ChargedOnce now before after info quota created where
  holds : Holds before after created.resets created.session
  reports : Reports info created.session

/-- The session before its last sync. -/
def BillingSession.opened (info : RelayInfo) (funding : FundingSource) (trusted : Bool) (q : ℤ) :
    BillingSession := ⟨info, funding, q, q, 0, trusted, false, false, false⟩

theorem reports_sync (s : BillingSession) : Reports s.relayInfo s.syncRelayInfo where
  userId := by
    unfold BillingSession.syncRelayInfo
    split <;> rfl
  tokenId := sync_tokenId s
  quota := by
    unfold BillingSession.syncRelayInfo
    split <;> rfl
  source := by
    unfold BillingSession.syncRelayInfo
    split <;> rfl

/-- The steps of an attempt that returns a session. -/
theorem preConsume_eq_created {funding : FundingSource} {created : Created} (hquota : 0 ≤ quota)
    (h : (BillingSession.init info funding).preConsume settings env w quota = (w', .ok created)) :
    ∃ trusted q w₁ funded,
      trusted = (BillingSession.init info funding).shouldTrust settings ∧
      q = (if trusted then 0 else quota) ∧
      (∀ account, Moves account info.tokenId [] 0 (info.tokenShare q) w w₁) ∧
      w₁.store = w.store ∧ funding.preConsume env.funding w₁ q = .ok funded ∧ w' = funded.world ∧
      created = ⟨(BillingSession.opened info funded.funding trusted q).syncRelayInfo,
        funded.resets⟩ := by
  unfold BillingSession.preConsume at h
  dsimp only at h
  set b := (BillingSession.init info funding).shouldTrust settings with hb
  set q := if b = true then 0 else quota with hq'
  have hq : 0 ≤ q := by
    rw [hq']
    split <;> omega
  split at h
  · cases h
  rename_i s₁ w₁ htok
  obtain ⟨hs₁, -⟩ := consumeToken_eq_ok rfl hq htok
  subst hs₁
  split at h
  · cases h
  rename_i funded hfund
  cases h
  exact ⟨b, q, w₁, funded, hb, hq',
    fun account => (moves_consumeToken account rfl hq htok).1,
    (moves_consumeToken (.user 0) rfl hq htok).2, hfund, rfl, rfl⟩

/-- What an opened session says of itself, once its relay info is synced. -/
theorem Took.chargedOnce {before after : World} {resets : List ℕ} {funding : FundingSource}
    {trusted : Bool} {q now : ℤ}
    (h : Took before after resets (.opened info funding trusted q))
    (hsource : SourceCharged now before info quota resets trusted q funding) :
    Opened now before after info quota
      ⟨(BillingSession.opened info funding trusted q).syncRelayInfo, resets⟩ where
  moves := by
    simp only [sync_funding, sync_preConsumedQuota]
    exact h.moves
  source := by
    simp only [sync_funding, sync_preConsumedQuota, sync_trusted]
    exact hsource
  holds := h.sync
  reports := reports_sync (.opened info funding trusted q)

theorem walletPreConsume_opened {created : Created} (now : ℤ) (hquota : 0 ≤ quota)
    (h : (BillingSession.init info (.wallet ⟨info.userId, 0⟩)).preConsume settings env w quota =
      (w', .ok created)) :
    Opened now w w' info quota created := by
  obtain ⟨trusted, q, w₁, funded, -, hq, htoken, -, hfund, rfl, rfl⟩ :=
    preConsume_eq_created hquota h
  have hnonneg : 0 ≤ q := by
    rw [hq]
    split <;> omega
  obtain ⟨hsource, hresets, hfunded⟩ := walletPreConsume_eq_ok info.tokenId hnonneg hfund
  have hmoves := (htoken (.user info.userId)).trans hfunded
  rw [zero_add, add_zero] at hmoves
  rw [hsource, hresets]
  refine Took.chargedOnce ?_ ⟨rfl, rfl, hq⟩
  exact {
    settled := rfl
    refunded := rfl
    fundingSettled := rfl
    nonneg := hnonneg
    token := rfl
    trusted := fun hb => by
      have hb' : trusted = true := hb
      show q = 0
      rw [hq, if_pos hb']
    moves := hmoves
    wallet := fun funding hf => by cases hf; rfl
    subscription := fun funding hf => by cases hf }

theorem subPreConsume_opened {funding : SubscriptionFunding} {created : Created}
    (huser : funding.userId = info.userId) (hamount : funding.amount = subConsume quota)
    (hnew : w.store.records.find funding.requestId = none)
    (h : (BillingSession.init info (.subscription funding)).preConsume settings env w
      (subConsume quota) = (w', .ok created)) :
    Opened env.funding.env.now w w' info quota created := by
  have hpos : 0 < subConsume quota := by
    unfold subConsume
    split <;> omega
  obtain ⟨trusted, q, w₁, funded, htrust, hq, htoken, hstore, hfund, rfl, rfl⟩ :=
    preConsume_eq_created hpos.le h
  have hfalse : trusted = false := by
    rw [htrust]
    unfold BillingSession.shouldTrust
    split
    · rfl
    · simp [BillingSession.init, FundingSource.source]
  rw [hfalse, if_neg Bool.false_ne_true] at hq
  rw [← hstore] at hnew
  obtain ⟨funding', hsub⟩ := subPreConsume_eq_ok info.tokenId hnew hfund
  have hmoves := (htoken (.subscription funding'.subscriptionId)).token_trans hsub.moves
  obtain ⟨sub, hfind, hactive⟩ := hsub.active
  obtain ⟨u, hu, hroom⟩ := hsub.within
  rw [add_zero, hamount, ← hq] at hmoves
  rw [hstore] at hfind hu
  rw [huser] at hactive
  rw [hfalse, hsub.source]
  refine Took.chargedOnce ?_ ⟨rfl, hq, sub, hfind, hactive⟩
  exact {
    settled := rfl
    refunded := rfl
    fundingSettled := rfl
    nonneg := by rw [← hq] at hpos; exact hpos.le
    token := rfl
    trusted := fun hb => by cases hb
    moves := hmoves
    wallet := fun f hf => by cases hf
    subscription := fun f hf => by
      cases hf
      have hq' : funding.amount = q := by rw [hamount, hq]
      refine ⟨?_, ?_, ?_, le_refl 0, ?_, u, hu, ?_⟩
      · rw [hsub.requestId]
        exact hsub.named
      · rw [hsub.preConsumed]
        exact hsub.positive
      · show funding'.preConsumed + 0 = q
        rw [add_zero, hsub.preConsumed, hq']
      · rw [hsub.requestId, hsub.preConsumed]
        exact hsub.record
      · show 0 < u.total → _ + q ≤ u.total
        rw [← hq']
        exact hroom }

/-! ## Both attempts -/

/-- Nothing was charged, or one source once. -/
def ChargesOrNothing (now : ℤ) (before : World) (info : RelayInfo) (quota : ℤ) :
    World × Except NewAPIError Created → Prop
  | (after, .error _) => after = before
  | (after, .ok created) => Opened now before after info quota created

variable {create : CreateEnv}

/-- The quota that the relay info shows for the user changes nothing. -/
theorem Opened.of_userQuota {now userQuota : ℤ} {created : Created}
    (h : Opened now w w' { info with userQuota := userQuota } quota created) :
    Opened now w w' info quota created :=
  ⟨⟨h.moves, h.source⟩, h.holds, ⟨h.reports.userId, h.reports.tokenId, h.reports.quota,
    h.reports.source⟩⟩

theorem ChargesOrNothing.of_userQuota {now userQuota : ℤ}
    {out : World × Except NewAPIError Created}
    (h : ChargesOrNothing now w { info with userQuota := userQuota } quota out) :
    ChargesOrNothing now w info quota out := by
  obtain ⟨after, result⟩ := out
  cases result with
  | error e => exact h
  | ok created => exact Opened.of_userQuota h

theorem trySubscription_charges (hquota : 0 ≤ quota) (hroll : create.rollsBack)
    (hnew : w.store.records.find info.requestId = none) :
    ChargesOrNothing create.subscription.funding.env.now w info quota
      (trySubscription settings create w info quota) := by
  generalize hout : trySubscription settings create w info quota = out
  obtain ⟨after, result⟩ := out
  unfold trySubscription at hout
  cases result with
  | error e =>
    refine preConsume_error hroll.2 ?_ hout
    unfold subConsume
    split <;> omega
  | ok created => exact subPreConsume_opened rfl rfl hnew hout

theorem checkWallet_eq_ok {info' : RelayInfo}
    (h : checkWallet settings create w info quota = .ok info') :
    ∃ userQuota, info' = { info with userQuota := userQuota } := by
  unfold checkWallet at h
  split at h
  · cases h
  split at h
  · cases h
  split at h
  · cases h
  · exact ⟨_, (Except.ok.inj h).symm⟩

theorem tryWallet_charges (now : ℤ) (hquota : 0 ≤ quota) (hroll : create.rollsBack) :
    (∃ userQuota, (tryWallet settings create w info quota).1 =
      { info with userQuota := userQuota }) ∧
      ChargesOrNothing now w info quota (tryWallet settings create w info quota).2 := by
  unfold tryWallet
  cases hcheck : checkWallet settings create w info quota with
  | error e => exact ⟨⟨info.userQuota, rfl⟩, rfl⟩
  | ok info' =>
    obtain ⟨userQuota, rfl⟩ := checkWallet_eq_ok hcheck
    refine ⟨⟨userQuota, rfl⟩, ?_⟩
    dsimp only
    generalize hout : (BillingSession.init { info with userQuota := userQuota }
      (.wallet ⟨info.userId, 0⟩)).preConsume settings create.wallet w quota = out
    obtain ⟨after, result⟩ := out
    cases result with
    | error e => exact preConsume_error hroll.1 hquota hout
    | ok created =>
      have hopened : Opened now w after { info with userQuota := userQuota } quota created :=
        walletPreConsume_opened now hquota hout
      exact hopened.of_userQuota

/-- An attempt that falls back has changed nothing, so the other one starts afresh: what
both come to, the preferred one does. -/
theorem tryPreferred_of {Q : World × Except NewAPIError Created → Prop}
    (herror : ∀ after e, Q (after, .error e) ↔ after = w)
    (hsub : ∀ userQuota, Q (trySubscription settings create w { info with userQuota := userQuota }
      quota))
    (hinfo : ∃ userQuota, (tryWallet settings create w info quota).1 =
      { info with userQuota := userQuota })
    (hwallet : Q (tryWallet settings create w info quota).2) (pref : BillingPreference) :
    Q (tryPreferred settings create w info quota pref) := by
  obtain ⟨userQuota, hinfo⟩ := hinfo
  have hsame : Q (trySubscription settings create w info quota) := hsub info.userQuota
  cases pref with
  | subscriptionOnly => exact hsame
  | walletOnly => exact hwallet
  | walletFirst =>
    rw [tryPreferred]
    generalize hout : tryWallet settings create w info quota = out at hwallet hinfo
    obtain ⟨info', after, result⟩ := out
    cases result with
    | ok created => exact hwallet
    | error e =>
      have hafter := (herror after e).mp hwallet
      have hinfo' : info' = { info with userQuota := userQuota } := hinfo
      subst hafter hinfo'
      dsimp only
      split
      · exact hsub userQuota
      · exact hwallet
  | subscriptionFirst =>
    rw [tryPreferred]
    split
    · exact (herror w _).mpr rfl
    · exact hwallet
    · generalize trySubscription settings create w info quota = out at hsame
      obtain ⟨after, result⟩ := out
      cases result with
      | ok created => exact hsame
      | error e =>
        have hafter := (herror after e).mp hsame
        subst hafter
        dsimp only
        split
        · exact hwallet
        · exact hsame

theorem tryPreferred_charges (hquota : 0 ≤ quota) (hroll : create.rollsBack)
    (hnew : w.store.records.find info.requestId = none) (pref : BillingPreference) :
    ChargesOrNothing create.subscription.funding.env.now w info quota
      (tryPreferred settings create w info quota pref) := by
  obtain ⟨hinfo, hwallet⟩ := @tryWallet_charges settings w info quota create
    create.subscription.funding.env.now hquota hroll
  refine tryPreferred_of (fun _ _ => Iff.rfl) (fun userQuota => ?_) hinfo hwallet pref
  exact (@trySubscription_charges settings w { info with userQuota := userQuota } quota create hquota
    hroll hnew).of_userQuota

theorem newBillingSession_opened (hquota : 0 ≤ quota) (hroll : create.rollsBack)
    (hnew : w.store.records.find info.requestId = none) :
    ChargesOrNothing create.subscription.funding.env.now w info quota
      (newBillingSession settings create w (some info) quota) := by
  unfold newBillingSession
  dsimp only
  split
  · exact rfl
  · exact tryPreferred_charges hquota hroll hnew _

/-- **A failed creation charges nothing**, and one that returns a session charged one
source once, under every preference and wherever a step fails.  The middleware
draws a new request id for every request. -/
theorem newBillingSession_charges (settings : Settings) (create : CreateEnv) (before : World)
    (relayInfo : Option RelayInfo) (quota : ℤ) (hquota : 0 ≤ quota) (hroll : create.rollsBack)
    (hnew : ∀ info, relayInfo = some info → before.store.records.find info.requestId = none) :
    match newBillingSession settings create before relayInfo quota with
    | (after, .error _) => after = before
    | (after, .ok created) => ∃ info, relayInfo = some info ∧
        ChargedOnce create.subscription.funding.env.now before after info quota created := by
  cases relayInfo with
  | none => exact rfl
  | some info =>
    have hopened := @newBillingSession_opened settings before info quota create hquota hroll
      (hnew info rfl)
    generalize newBillingSession settings create before (some info) quota = out at hopened
    obtain ⟨after, result⟩ := out
    cases result with
    | error e => exact hopened
    | ok created => exact ⟨info, rfl, hopened.toChargedOnce⟩

/-- No query fails and no cache answers. -/
def quietFunding : FundingEnv := ⟨⟨GoTime.utc, 0⟩, ⟨1000, fun _ => none⟩, fun _ => none, none, noFaults⟩

def quietCreate : CreateEnv :=
  ⟨1000, fun _ => none, none, none, ⟨⟨none, none, none⟩, quietFunding, none⟩,
    ⟨⟨none, none, none⟩, quietFunding, none⟩⟩

def sampleSettings : Settings := ⟨500000, fun n => toString n, 0⟩

def sampleInfo : RelayInfo :=
  { requestId := "r1", userId := 7, usingGroup := "default", tokenId := 3, tokenUnlimited := false
    isPlayground := false, forcePreConsume := true, billingPreference := "wallet_only"
    userQuota := 0, finalPreConsumedQuota := 0, billingSource := .unset, subscriptionId := 0
    subscriptionPreConsumed := 0, subscriptionPostDelta := 0, subscriptionAmountTotal := 0
    subscriptionAmountUsedAfterPreConsume := 0, subscriptionPlanId := 0
    subscriptionPlanTitle := "" }

def sampleWorld : World := ⟨fun _ => 100, fun _ => ⟨100, 0⟩, ⟨.empty, .empty⟩⟩

theorem newBillingSession_charges_wallet :
    (newBillingSession sampleSettings quietCreate sampleWorld (some sampleInfo) 30).2.isOk = true ∧
      match newBillingSession sampleSettings quietCreate sampleWorld (some sampleInfo) 30 with
      | (after, .error _) => after = sampleWorld
      | (after, .ok created) => ∃ info, some sampleInfo = some info ∧
          ChargedOnce 1000 sampleWorld after info 30 created :=
  ⟨by decide +kernel,
    newBillingSession_charges sampleSettings quietCreate sampleWorld (some sampleInfo) 30 (by decide)
      ⟨rfl, rfl⟩ fun _ _ => rfl⟩

/-- The session on which 30 was consumed, and the world it leaves. -/
def sampleSession : BillingSession :=
  ⟨{ sampleInfo with
      userQuota := 100
      finalPreConsumedQuota := 30
      billingSource := .wallet }, .wallet ⟨7, 30⟩, 30, 30, 0, false, false, false, false⟩

def sampleCharged : World := (sampleWorld.addToken 3 (-30)).addQuota 7 (-30)

end Billing
