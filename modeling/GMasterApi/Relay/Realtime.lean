import GMasterApi.Relay.Retry

/-!
# Realtime sessions

`WssHelper` relays the messages of a websocket.  The usage of each response is
pre-consumed as it is reported (`PreWssConsumeQuota`), and the sum of all of them is
settled at the end (`PostWssConsumeQuota`).
-/

namespace Relay

open Billing Pricing GoFloat

/-! ## Usage -/

structure TokenDetails where
  textTokens : ℤ
  audioTokens : ℤ
  deriving DecidableEq

/-- `cachedTokens` is that of the input. -/
@[ext]
structure RealtimeUsage where
  totalTokens : ℤ
  inputTokens : ℤ
  outputTokens : ℤ
  cachedTokens : ℤ
  inputTokenDetails : TokenDetails
  outputTokenDetails : TokenDetails
  deriving DecidableEq

instance : Add TokenDetails :=
  ⟨fun d e => ⟨d.textTokens + e.textTokens, d.audioTokens + e.audioTokens⟩⟩

instance : Zero TokenDetails := ⟨⟨0, 0⟩⟩

instance : Add RealtimeUsage :=
  ⟨fun u v => ⟨u.totalTokens + v.totalTokens, u.inputTokens + v.inputTokens,
    u.outputTokens + v.outputTokens, u.cachedTokens + v.cachedTokens,
    u.inputTokenDetails + v.inputTokenDetails, u.outputTokenDetails + v.outputTokenDetails⟩⟩

instance : Zero RealtimeUsage := ⟨⟨0, 0, 0, 0, 0, 0⟩⟩

/-- Tokens counted of what was sent upstream. -/
def RealtimeUsage.addInput (u : RealtimeUsage) (textToken audioToken : ℤ) : RealtimeUsage :=
  u + ⟨textToken + audioToken, textToken + audioToken, 0, 0, ⟨textToken, audioToken⟩, 0⟩

/-- Tokens counted of what came from upstream. -/
def RealtimeUsage.addOutput (u : RealtimeUsage) (textToken audioToken : ℤ) : RealtimeUsage :=
  u + ⟨textToken + audioToken, 0, textToken + audioToken, 0, 0, ⟨textToken, audioToken⟩⟩

/-! ## Its quota -/

structure QuotaInfo where
  inputDetails : TokenDetails
  outputDetails : TokenDetails
  modelName : String
  usePrice : Bool
  modelPrice : ℚ
  modelRatio : ℚ
  groupRatio : ℚ
  deriving DecidableEq

/-- The tokens with their ratios, before those of the model and the group. -/
def QuotaInfo.weighted (settings : TextPriceSettings) (info : QuotaInfo) : ℚ :=
  let completionRatio := settings.getCompletionRatio info.modelName
  let audioRatio := settings.getAudioRatio info.modelName
  let audioCompletionRatio := settings.getAudioCompletionRatio info.modelName
  info.inputDetails.textTokens + info.outputDetails.textTokens * completionRatio +
    info.inputDetails.audioTokens * audioRatio +
    info.outputDetails.audioTokens * audioRatio * audioCompletionRatio

/-- A cost at the ratio `ratio`, 1 if it would not be positive, and rounded. -/
def audioCharge (ratio quota : ℚ) : ℤ :=
  roundAway (if ratio ≠ 0 ∧ quota ≤ 0 then 1 else quota)

def calculateAudioQuota (settings : TextPriceSettings) (info : QuotaInfo) : ℤ :=
  if info.usePrice then toInt (info.modelPrice * settings.quotaPerUnit * info.groupRatio)
  else
    let ratio := info.groupRatio * info.modelRatio
    audioCharge ratio (info.weighted settings * ratio)

/-! ## The responses of a session -/

/-- The fields of `RelayInfo` for a websocket.  `usePrice` is its own, not that of its price. -/
structure WssInfo extends toRequest : RelayInfo where
  upstreamModelName : String
  usePrice : Bool

/-- `InitChannelMeta`; nothing sets `usePrice`. -/
def RelayInfo.initChannelMeta (info : RelayInfo) (upstreamModelName : String) : WssInfo :=
  ⟨info, upstreamModelName, false⟩

def WssInfo.useGroup (info : WssInfo) (usingGroup : String) : WssInfo :=
  { info with usingGroup := usingGroup }

/-- What `PreWssConsumeQuota` finds: the quotas that the caches answer, the token as it is
now, and what fails. -/
structure PreWssEnv where
  userCached : Option ℤ
  userFault : Option String
  token : TokenEnv
  unlimitedQuota : Bool
  consume : SettleFaults

def PreWssEnv.userQuota (env : PreWssEnv) (w : World) (userId : ℕ) : Except String ℤ :=
  match env.userCached, env.userFault with
  | some quota, _ => .ok quota
  | none, some e => .error e
  | none, none => .ok (w.quota userId)

/-- A response is priced by the settings of its time, in the group `usingGroup`. -/
def preWssInfo (settings : TextPriceSettings) (info : WssInfo) (usingGroup : String)
    (usage : RealtimeUsage) : QuotaInfo :=
  { inputDetails := usage.inputTokenDetails
    outputDetails := usage.outputTokenDetails
    modelName := info.originModelName
    usePrice := info.usePrice
    modelPrice := 0
    modelRatio := (settings.getModelRatio info.originModelName).ratio
    groupRatio := (settings.groups.getGroupGroupRatio info.userGroup usingGroup).getD
      (settings.groups.getGroupRatio usingGroup) }

def preWssConsumeQuota (settings : RelaySettings) (c : Context) (env : PreWssEnv) (w : World)
    (info : WssInfo) (usage : RealtimeUsage) : World × WssInfo × Except String Unit :=
  if info.usePrice then (w, info, .ok ())
  else match env.userQuota w info.userId with
    | .error e => (w, info, .error e)
    | .ok userQuota =>
      match env.token.remainQuota w info.tokenId with
      | .error e => (w, info, .error e)
      | .ok remainQuota =>
        let info := info.useGroup (c.autoGroup.getD info.usingGroup)
        let quota := calculateAudioQuota settings.prices
          (preWssInfo settings.prices info info.usingGroup usage)
        let format := settings.billing.formatQuota
        if userQuota < quota then
          (w, info, .error ("user quota is not enough, user quota: " ++ format userQuota ++
            ", need quota: " ++ format quota))
        else if !env.unlimitedQuota && decide (remainQuota < quota) then
          (w, info, .error ("token quota is not enough, token remain quota: " ++ format remainQuota ++
            ", need quota: " ++ format quota))
        else
          let (w, billing, result) := postConsumeQuota env.consume w info.toRelayInfo quota
          (w, { info with toRelayInfo := billing }, result)

/-- A session between two messages. -/
structure Realtime where
  world : World
  info : WssInfo
  usage : RealtimeUsage
  localUsage : RealtimeUsage
  sumUsage : RealtimeUsage

/-- `preConsumeUsage` -/
def Realtime.preConsume (settings : RelaySettings) (c : Context) (env : PreWssEnv) (s : Realtime)
    (usage : RealtimeUsage) : Realtime × Except String Unit :=
  let (w, info, result) := preWssConsumeQuota settings c env s.world s.info usage
  ({ s with world := w, info := info, sumUsage := s.sumUsage + usage }, result)

/-- A message of the client or of upstream, with the tokens that `CountTokenRealtime` counts
in it. -/
inductive RealtimeEvent
  | client (textToken audioToken : ℤ)
  | responseDone (usage : Option RealtimeUsage) (textToken audioToken : ℤ)
  | session
  | target (textToken audioToken : ℤ)
  deriving DecidableEq

structure Message where
  event : RealtimeEvent
  env : PreWssEnv

def Realtime.handle (settings : RelaySettings) (c : Context) (s : Realtime) (m : Message) :
    Realtime × Except String Unit :=
  match m.event with
  | .client textToken audioToken =>
    ({ s with localUsage := s.localUsage.addInput textToken audioToken }, .ok ())
  | .responseDone (some reported) _ _ =>
    let s := { s with usage := s.usage + reported }
    match s.preConsume settings c m.env s.usage with
    | (s, .error e) => (s, .error e)
    | (s, .ok ()) => ({ s with usage := 0, localUsage := 0 }, .ok ())
  | .responseDone none textToken audioToken =>
    let s := { s with localUsage := s.localUsage.addInput textToken audioToken }
    match s.preConsume settings c m.env s.localUsage with
    | (s, .error e) => (s, .error e)
    | (s, .ok ()) => ({ s with localUsage := 0 }, .ok ())
  | .session => (s, .ok ())
  | .target textToken audioToken =>
    ({ s with localUsage := s.localUsage.addOutput textToken audioToken }, .ok ())

/-- The messages up to the end of the session, in the order in which they are handled; a
response that cannot be pre-consumed ends it. -/
def Realtime.handleAll (settings : RelaySettings) (c : Context) : List Message → Realtime → Realtime
  | [], s => s
  | m :: messages, s =>
    match s.handle settings c m with
    | (s, .error _) => s
    | (s, .ok ()) => handleAll settings c messages s

/-- What was counted since the last response is pre-consumed as well. -/
def Realtime.preConsumeRest (settings : RelaySettings) (c : Context) (env : PreWssEnv) (s : Realtime)
    (usage : RealtimeUsage) : Realtime :=
  if usage.totalTokens ≠ 0 then (s.preConsume settings c env usage).1 else s

/-- What a session finds: what fails before its first message, its messages, the settings
of its end and what fails there. -/
structure WssEnv where
  fault : Option RelayError
  messages : List Message
  usageEnv : PreWssEnv
  localEnv : PreWssEnv
  runExpr : RunExpr
  settle : SettleFaults

def openaiRealtimeHandler (settings : RelaySettings) (c : Context) (env : WssEnv) (w : World)
    (info : WssInfo) : Realtime :=
  let s := Realtime.handleAll settings c env.messages ⟨w, info, 0, 0, 0⟩
  let s := s.preConsumeRest settings c env.usageEnv s.usage
  s.preConsumeRest settings c env.localEnv s.localUsage

/-! ## The settlement -/

/-- The sum is priced by the price of the request. -/
def postWssInfo (info : WssInfo) (modelName : String) (usage : RealtimeUsage) : QuotaInfo :=
  { inputDetails := usage.inputTokenDetails
    outputDetails := usage.outputTokenDetails
    modelName := modelName
    usePrice := info.priceData.usePrice
    modelPrice := 0
    modelRatio := info.priceData.modelRatio
    groupRatio := info.priceData.groupRatioInfo.groupRatio }

/-- The quota that `PostWssConsumeQuota` settles at. -/
def postWssQuota (settings : RelaySettings) (runExpr : RunExpr) (info : WssInfo) (modelName : String)
    (usage : RealtimeUsage) : ℤ :=
  let quota := match tryTieredSettle runExpr info.toRequest
      ⟨usage.inputTokens, usage.outputTokens, usage.inputTokens, 0, 0, 0, 0, 0, 0, 0⟩ with
    | some (tieredQuota, _) => tieredQuota
    | none => calculateAudioQuota settings.prices (postWssInfo info modelName usage)
  if usage.totalTokens = 0 then 0 else quota

def postWssConsumeQuota (settings : RelaySettings) (env : WssEnv) (w : World) (info : WssInfo)
    (modelName : String) (usage : RealtimeUsage) : Settled :=
  settleBilling env.settle w info.toRelayInfo (info.billing.map Created.session)
    (postWssQuota settings env.runExpr info modelName usage)

/-- `WssHelper`: the world that it leaves, and its error. -/
def wssHelper (settings : RelaySettings) (c : Context) (env : WssEnv) (upstreamModelName : String)
    (w : World) (info : RelayInfo) : World × Option RelayError :=
  match env.fault with
  | some e => (w, some e)
  | none =>
    let s := openaiRealtimeHandler settings c env w (info.initChannelMeta upstreamModelName)
    ((postWssConsumeQuota settings env s.world s.info s.info.upstreamModelName s.sumUsage).world, none)

end Relay
