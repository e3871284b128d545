import GMasterApi.Billing.NewSession
import GMasterApi.Billing.Settle
import GMasterApi.Relay.TextQuota

/-!
# Attempts at a request

`Relay` prices a request, pre-consumes its quota and tries channels until one serves
it.  A token of group `auto` may move from group to group on the way
(`CacheGetRandomSatisfiedChannel`); the price follows, but a tiered snapshot does not.
-/

namespace Relay

open Billing Pricing GoMap GoString

/-! ## Selection of a channel -/

/-- The keys of the context that a selection writes. -/
structure Context where
  autoGroup : Option String
  autoGroupIndex : Option ℕ
  deriving DecidableEq

structure RetryParam where
  retry : ℕ
  resetNextTry : Bool
  deriving DecidableEq

def RetryParam.increaseRetry (p : RetryParam) : RetryParam :=
  if p.resetNextTry then { p with resetNextTry := false } else { p with retry := p.retry + 1 }

/-- What a selection reads: whether there are auto groups, those of the user in order, and
whether the token retries across them. -/
structure SelectSettings where
  autoGroupsEnabled : Bool
  userAutoGroups : List String
  crossGroupRetry : Bool
  retryTimes : ℕ

/-- `GetRandomSatisfiedChannel` for the model, by group and priority. -/
abbrev Satisfied := String → ℕ → Except String (Option ℕ)

structure Selected where
  c : Context
  p : RetryParam
  channel : Option ℕ
  group : String

/-- The loop over the auto groups, from the one of index `i`. -/
def selectAuto (settings : SelectSettings) (satisfied : Satisfied) :
    List String → ℕ → ℕ → Context → RetryParam → Selected
  | [], _, _, c, p => ⟨c, p, none, "auto"⟩
  | autoGroup :: groups, i, priorityRetry, c, p =>
    match satisfied autoGroup priorityRetry with
    | .ok (some channel) =>
      if settings.crossGroupRetry ∧ settings.retryTimes ≤ priorityRetry then
        -- this request stays in the group, the next retry leaves it
        ⟨⟨some autoGroup, some (i + 1)⟩, ⟨0, true⟩, some channel, autoGroup⟩
      else ⟨⟨some autoGroup, some i⟩, p, some channel, autoGroup⟩
    | _ =>
      selectAuto settings satisfied groups (i + 1) 0 { c with autoGroupIndex := some (i + 1) }
        { p with retry := 0 }

/-- `CacheGetRandomSatisfiedChannel`, with the group of its answer. -/
def cacheGetRandomSatisfiedChannel (settings : SelectSettings) (satisfied : Satisfied)
    (tokenGroup : String) (c : Context) (p : RetryParam) : Selected × Except String Unit :=
  if tokenGroup = "auto" then
    if !settings.autoGroupsEnabled then (⟨c, p, none, tokenGroup⟩, .error "auto groups is not enabled")
    else
      let startGroupIndex := c.autoGroupIndex.getD 0
      (selectAuto settings satisfied (settings.userAutoGroups.drop startGroupIndex) startGroupIndex
        p.retry c p, .ok ())
  else match satisfied tokenGroup p.retry with
    | .error e => (⟨c, p, none, tokenGroup⟩, .error e)
    | .ok channel => (⟨c, p, channel, tokenGroup⟩, .ok ())

/-! ## Attempts -/

structure RelayError where
  message : String
  errorCode : String
  statusCode : ℕ
  skipRetry : Bool
  deriving DecidableEq

/-- What the handler of an attempt comes to; one that serves the request may have added
other ratios to its price. -/
inductive Reply
  | failed (e : RelayError)
  | served (ctx : TextContext) (otherRatios : OtherRatios) (usage : Option Usage)

/-- What an attempt finds. -/
structure Attempt where
  satisfied : Satisfied
  setupFault : Option RelayError
  bodyFault : Option RelayError
  reply : Reply

structure RetrySettings extends SelectSettings where
  affinityFailure : Bool
  specificChannel : Bool
  isAlwaysSkipRetryCode : String → Bool
  shouldRetryByStatusCode : ℕ → Bool

def isChannelError (e : RelayError) : Bool := hasPrefix e.errorCode "channel:"

def shouldRetry (settings : RetrySettings) (e : RelayError) (retryTimes : ℤ) : Bool :=
  if settings.affinityFailure then false
  else if isChannelError e then true
  else if e.skipRetry then false
  else if retryTimes ≤ 0 then false
  else if settings.specificChannel then false
  else if 200 ≤ e.statusCode ∧ e.statusCode < 300 then false
  else if e.statusCode < 100 ∨ 599 < e.statusCode then true
  else if settings.isAlwaysSkipRetryCode e.errorCode then false
  else settings.shouldRetryByStatusCode e.statusCode

/-- The request between two attempts; `group` is the one that the channel of the last
attempt is of, and `channelMeta` says whether there was one. -/
structure Trying where
  c : Context
  p : RetryParam
  info : RelayInfo
  channelMeta : Bool
  lastError : Option RelayError
  group : String

def RelayInfo.regroup (info : RelayInfo) (group : String × GroupRatioInfo) : RelayInfo :=
  { info with
    usingGroup := group.1
    priceData := { info.priceData with groupRatioInfo := group.2 } }

def channelFailed (text : String) : RelayError := ⟨text, "get_channel_failed", 500, true⟩

/-- `getChannel`: the first attempt has the channel that the middleware selected, and a
retry selects one and prices the request for its group. -/
def getChannel (settings : SelectSettings) (groups : GroupRatioSetting) (a : Attempt) (s : Trying) :
    Trying × Option RelayError :=
  if !s.channelMeta then (s, none)
  else
    let (selected, result) := cacheGetRandomSatisfiedChannel settings a.satisfied s.info.tokenGroup s.c s.p
    let info := s.info.regroup
      (handleGroupRatio groups selected.c.autoGroup s.info.userGroup s.info.usingGroup)
    let s := { s with c := selected.c, p := selected.p, info := info }
    match result, selected.channel with
    | .error e, _ => (s, some (channelFailed ("获取分组 " ++ selected.group ++ " 下模型 " ++
        info.originModelName ++ " 的可用渠道失败（retry）: " ++ e)))
    | .ok (), none => (s, some (channelFailed ("分组 " ++ selected.group ++ " 下模型 " ++
        info.originModelName ++ " 的可用渠道不存在（retry）")))
    | .ok (), some _ => ({ s with group := selected.group }, a.setupFault)

/-- How the attempts end, as far as they are known. -/
inductive Tried
  | running (s : Trying)
  | failed (s : Trying) (e : Option RelayError)
  | served (s : Trying) (ctx : TextContext) (usage : Option Usage)

/-- The state in which the handler of an attempt serves the request. -/
def Trying.serve (s : Trying) (otherRatios : OtherRatios) : Trying :=
  { s with
    channelMeta := true
    info := { s.info with priceData := { s.info.priceData with otherRatios := otherRatios } } }

def Trying.fail (s : Trying) (e : RelayError) : Trying :=
  { s with channelMeta := true, lastError := some e }

/-- The loop of `Relay`. -/
def relayAttempts (settings : RetrySettings) (groups : GroupRatioSetting) :
    List Attempt → Trying → Tried
  | [], s => .running s
  | a :: attempts, s =>
    if settings.retryTimes < s.p.retry then .failed s s.lastError
    else match getChannel settings.toSelectSettings groups a s, a.bodyFault, a.reply with
      | (s, some e), _, _ => .failed s (some e)
      | (s, none), some e, _ => .failed s (some e)
      | (s, none), none, .served ctx otherRatios usage => .served (s.serve otherRatios) ctx usage
      | (s, none), none, .failed e =>
        if shouldRetry settings e (settings.retryTimes - s.p.retry) then
          relayAttempts settings groups attempts
            { s.fail e with p := s.p.increaseRetry }
        else .failed (s.fail e) (some e)

/-! ## A request -/

structure RelaySettings extends RetrySettings where
  prices : TextPriceSettings
  text : TextQuotaSettings
  billing : Settings

/-- What a request finds around it: the expressions at its pre-consumption and at its
settlement, what is priced, the creation of its session, and what fails at its end. -/
structure RelayEnv where
  runExpr : RunExpr
  engine : ExprEngine
  tokenMeta : TokenCountMeta
  requestInput : Except String RequestInput
  create : CreateEnv
  settle : SettleFaults
  refund : RefundFaults

/-- The price of the request, set by `ModelPriceHelper`. -/
def RelayInfo.setPrice (info : RelayInfo) (usingGroup : String) (priced : Priced) : RelayInfo :=
  { info with
    usingGroup := usingGroup
    priceData := priced.priceData
    tieredBillingSnapshot := (priced.snapshot.map Prod.fst).or info.tieredBillingSnapshot
    billingRequestInput := (priced.snapshot.map Prod.snd).or info.billingRequestInput }

def RelayInfo.withBilling (info : RelayInfo) (created : Created) : RelayInfo :=
  { info with
    -- the session shares the request's `RelayInfo`
    toRelayInfo := { created.session.relayInfo with usingGroup := info.usingGroup }
    billing := some created }

def RelayInfo.priceRequest (info : RelayInfo) (env : RelayEnv) : PriceRequest :=
  ⟨info.userId, info.acceptUnsetRatioModel, info.originModelName, info.estimatePromptTokens,
    env.tokenMeta, env.requestInput⟩

/-- The price and `PreConsumeBilling`, which a free model skips. -/
def prepare (settings : RelaySettings) (env : RelayEnv) (c : Context) (w : World) (info : RelayInfo) :
    World × Except String RelayInfo :=
  match modelPriceHelper settings.prices env.runExpr c.autoGroup (info.priceRequest env) info.userGroup
    info.usingGroup with
  | (_, .error e) => (w, .error e)
  | (usingGroup, .ok priced) =>
    let info := info.setPrice usingGroup priced
    if priced.priceData.freeModel then (w, .ok info)
    else match newBillingSession settings.billing env.create w (some info.toRelayInfo)
        priced.priceData.quotaToPreConsume with
      | (w, .error e) => (w, .error e.err)
      | (w, .ok created) => (w, .ok (info.withBilling created))

/-- A request that was served: by which group, its usage and what it was settled at. -/
structure Served where
  world : World
  info : RelayInfo
  group : String
  ctx : TextContext
  usage : Option Usage
  quota : ℤ

/-- `Relay` of a text; `none` where the request failed or is still running, with the world
it leaves. -/
def relay (settings : RelaySettings) (env : RelayEnv) (c : Context) (attempts : List Attempt)
    (w : World) (info : RelayInfo) : World × Option Served :=
  match prepare settings env c w info with
  | (w, .error _) => (w, none)
  | (w, .ok prepared) =>
    let start : Trying :=
      ⟨c, ⟨0, false⟩, prepared, false, none, c.autoGroup.getD info.usingGroup⟩
    match relayAttempts settings.toRetrySettings settings.prices.groups attempts start with
    | .running _ => (w, none)
    | .failed s _ =>
      ((s.info.billing.map fun created => (created.session.refund env.refund w).2.1).getD w, none)
    | .served s ctx usage =>
      let quota := postTextQuota settings.text env.engine ctx s.info usage
      let settled := settleBilling env.settle w s.info.toRelayInfo (s.info.billing.map Created.session)
        quota
      (settled.world, some ⟨settled.world, s.info, s.group, ctx, usage, quota⟩)

end Relay
