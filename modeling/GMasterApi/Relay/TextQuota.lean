import GMasterApi.Billing.Session
import GMasterApi.Pricing.TextPrice

/-!
# The quota of a text

`PostTextConsumeQuota` settles a request at `calculateTextQuotaSummary`, or for a
tiered model at what its expression costs (`TryTieredSettle`) with the surcharges of
the tools that were called (`composeTieredTextQuota`).
-/

namespace Relay

open GoFloat GoMap GoString Pricing

/-! ## A request and its usage -/

structure InputTokenDetails where
  cachedTokens : ℤ
  cachedCreationTokens : ℤ
  audioTokens : ℤ
  imageTokens : ℤ
  deriving DecidableEq

structure OutputTokenDetails where
  audioTokens : ℤ
  imageTokens : ℤ
  deriving DecidableEq

/-- The fields of `Usage` that a text is billed by; `cost` is `none` where it is not a
`float64`. -/
structure Usage where
  promptTokens : ℤ
  completionTokens : ℤ
  usageSemantic : String
  usageSource : String
  promptTokensDetails : InputTokenDetails
  completionTokenDetails : OutputTokenDetails
  claudeCacheCreation5mTokens : ℤ
  claudeCacheCreation1hTokens : ℤ
  cost : Option ℚ
  deriving DecidableEq

/-- The usage of a request for which upstream reported none. -/
def Usage.estimated (promptTokens : ℤ) : Usage :=
  ⟨promptTokens, 0, "", "", ⟨0, 0, 0, 0⟩, ⟨0, 0⟩, 0, 0, none⟩

/-- The fields of `RelayInfo` that the price and the quota of a request read beside those
of billing. -/
structure RelayInfo extends Billing.RelayInfo where
  userGroup : String
  tokenGroup : String
  originModelName : String
  acceptUnsetRatioModel : Bool
  estimatePromptTokens : ℤ
  priceData : TextPriceData
  tieredBillingSnapshot : Option BillingSnapshot
  billingRequestInput : Option RequestInput
  billing : Option Billing.Created

/-- What the handler of a request leaves for its settlement: the format sent upstream, the
type of the channel, the built-in tools with their calls, the searches that Claude
made, and the quality and size of an image that was generated. -/
structure TextContext where
  claudeFormat : Bool
  channelType : Option ℕ
  builtInTools : Option (Map String ℤ)
  claudeWebSearchRequests : ℤ
  imageGenerationCall : Option (String × String)

structure TextQuotaSettings where
  quotaPerUnit : ℚ
  getToolPriceForModel : String → String → ℚ
  getGPTImage1PriceOnceCall : String → String → ℚ
  getGeminiInputAudioPricePerMillionTokens : String → ℚ
  defaultModelRatio : String → Option ℚ

def TextQuotaSettings.getToolPrice (settings : TextQuotaSettings) (toolName : String) : ℚ :=
  settings.getToolPriceForModel toolName ""

/-! ## Surcharges -/

/-- `callCount` calls of a tool at `price` for a thousand, in the group of ratio
`dGroupRatio`. -/
def TextQuotaSettings.toolCalls (settings : TextQuotaSettings) (dGroupRatio price : ℚ)
    (callCount : ℤ) : ℚ :=
  if 0 < callCount then decimalDiv (price * callCount) 1000 * dGroupRatio * settings.quotaPerUnit else 0

def TextContext.callCount (ctx : TextContext) (tool : String) : Option ℤ :=
  ctx.builtInTools.bind fun tools => tools.get tool

/-- `calculateTextToolCallSurcharge` -/
def calculateTextToolCallSurcharge (settings : TextQuotaSettings) (ctx : TextContext)
    (modelName : String) (dGroupRatio : ℚ) : ℚ :=
  let webSearch := match ctx.builtInTools with
    | some _ => settings.toolCalls dGroupRatio (settings.getToolPriceForModel "web_search_preview" modelName)
        ((ctx.callCount "web_search_preview").getD 0)
    | none =>
      if hasSuffix modelName "search-preview" then
        settings.toolCalls dGroupRatio (settings.getToolPriceForModel "web_search_preview" modelName) 1
      else 0
  let claudeWebSearch :=
    if 0 < ctx.claudeWebSearchRequests then
      decimalDiv (settings.getToolPrice "web_search") 1000 * dGroupRatio * settings.quotaPerUnit *
        ctx.claudeWebSearchRequests
    else 0
  let fileSearch := settings.toolCalls dGroupRatio (settings.getToolPrice "file_search")
    ((ctx.callCount "file_search").getD 0)
  let image := match ctx.imageGenerationCall with
    | some (quality, size) =>
      settings.getGPTImage1PriceOnceCall quality size * dGroupRatio * settings.quotaPerUnit
    | none => 0
  webSearch + claudeWebSearch + fileSearch + image

/-! ## Tokens -/

def usageSemanticFromUsage (ctx : TextContext) (usage : Option Usage) : String :=
  match usage with
  | some usage =>
    if usage.usageSemantic ≠ "" then usage.usageSemantic
    else if ctx.claudeFormat then "anthropic"
    else "openai"
  | none => if ctx.claudeFormat then "anthropic" else "openai"

def isLegacyClaudeDerivedOpenAIUsage (ctx : TextContext) (usage : Usage) : Bool :=
  !ctx.claudeFormat && decide (usage.usageSource = "" ∧ usage.usageSemantic = "") &&
    (decide (0 < usage.claudeCacheCreation5mTokens) || decide (0 < usage.claudeCacheCreation1hTokens))

def hasCustomModelRatio (settings : TextQuotaSettings) (modelName : String) (currentRatio : ℚ) : Bool :=
  match settings.defaultModelRatio modelName with
  | none => true
  | some defaultRatio => currentRatio ≠ defaultRatio

/-- `CalcOpenRouterCacheCreateTokens` -/
def calcOpenRouterCacheCreateTokens (quotaPerUnit : ℚ) (usage : Usage) (priceData : TextPriceData) : ℤ :=
  if priceData.cacheCreationRatio = 1 then 0
  else
    let quotaPrice := priceData.modelRatio / quotaPerUnit
    let promptCacheCreatePrice := quotaPrice * priceData.cacheCreationRatio
    let promptCacheReadPrice := quotaPrice * priceData.cacheRatio
    let completionPrice := quotaPrice * priceData.completionRatio
    roundAway ((usage.cost.getD 0 - usage.promptTokens * quotaPrice +
      usage.promptTokensDetails.cachedTokens * (quotaPrice - promptCacheReadPrice) -
      usage.completionTokens * completionPrice) / (promptCacheCreatePrice - quotaPrice))

/-- The token counts of the summary. -/
structure TextTokens where
  promptTokens : ℤ
  completionTokens : ℤ
  totalTokens : ℤ
  cacheTokens : ℤ
  cacheCreationTokens : ℤ
  cacheCreationTokens5m : ℤ
  cacheCreationTokens1h : ℤ
  imageTokens : ℤ
  audioTokens : ℤ
  isClaudeUsageSemantic : Bool
  legacyClaudeDerived : Bool
  deriving DecidableEq

def channelTypeOpenRouter : ℕ := 20

/-- OpenRouter counts what Claude cached among the prompt tokens. -/
def TextTokens.openRouter (settings : TextQuotaSettings) (info : RelayInfo) (usage : Usage)
    (t : TextTokens) : TextTokens :=
  let priceData := info.priceData
  let promptTokens := t.promptTokens - t.cacheTokens
  let isUsingCustomSettings :=
    priceData.usePrice || hasCustomModelRatio settings info.originModelName priceData.modelRatio
  let maybeCacheCreationTokens := calcOpenRouterCacheCreateTokens settings.quotaPerUnit usage priceData
  -- `usage.Cost != 0` compares with an `int`, which no decoded cost is
  let cacheCreationTokens :=
    if t.cacheCreationTokens = 0 ∧ priceData.cacheCreationRatio ≠ 1 ∧ isUsingCustomSettings = false ∧
        0 ≤ maybeCacheCreationTokens ∧ maybeCacheCreationTokens ≤ promptTokens
      then maybeCacheCreationTokens else t.cacheCreationTokens
  { t with
    promptTokens := promptTokens - cacheCreationTokens
    cacheCreationTokens := cacheCreationTokens }

def textTokens (settings : TextQuotaSettings) (ctx : TextContext) (info : RelayInfo)
    (usage : Option Usage) : TextTokens :=
  let isClaude := decide (usageSemanticFromUsage ctx usage = "anthropic")
  let usage := usage.getD (.estimated info.estimatePromptTokens)
  let t : TextTokens :=
    { promptTokens := usage.promptTokens
      completionTokens := usage.completionTokens
      totalTokens := usage.promptTokens + usage.completionTokens
      cacheTokens := usage.promptTokensDetails.cachedTokens
      cacheCreationTokens := usage.promptTokensDetails.cachedCreationTokens
      cacheCreationTokens5m := usage.claudeCacheCreation5mTokens
      cacheCreationTokens1h := usage.claudeCacheCreation1hTokens
      imageTokens := usage.promptTokensDetails.imageTokens
      audioTokens := usage.promptTokensDetails.audioTokens
      isClaudeUsageSemantic := isClaude
      legacyClaudeDerived := isLegacyClaudeDerivedOpenAIUsage ctx usage }
  if ctx.channelType = some channelTypeOpenRouter ∧ isClaude then t.openRouter settings info usage else t

/-- The tokens with their ratios, before those of the model and the group. -/
def TextTokens.weighted (t : TextTokens) (priceData : TextPriceData) (audioInputPrice : ℚ) : ℚ :=
  let inclusive := !t.isClaudeUsageSemantic && !t.legacyClaudeDerived
  let cached := if t.cacheTokens ≠ 0 ∧ inclusive then t.cacheTokens else 0
  let hasCacheCreation :=
    t.cacheCreationTokens ≠ 0 ∨ 0 < t.cacheCreationTokens5m ∨ 0 < t.cacheCreationTokens1h
  let created := if hasCacheCreation ∧ inclusive then t.cacheCreationTokens else 0
  let createdWithRatio : ℚ :=
    if hasCacheCreation then
      if inclusive then t.cacheCreationTokens * priceData.cacheCreationRatio
      else
        max 0 (t.cacheCreationTokens - t.cacheCreationTokens5m - t.cacheCreationTokens1h) *
            priceData.cacheCreationRatio +
          t.cacheCreationTokens5m * priceData.cacheCreation5mRatio +
          t.cacheCreationTokens1h * priceData.cacheCreation1hRatio
    else 0
  let audio := if 0 < audioInputPrice then t.audioTokens else 0
  let baseTokens : ℤ := t.promptTokens - cached - created - t.imageTokens - audio
  baseTokens + t.cacheTokens * priceData.cacheRatio + t.imageTokens * priceData.imageRatio +
    createdWithRatio + t.completionTokens * priceData.completionRatio

/-! ## The summary -/

/-- The components of a quota, before other ratios and rounding: the tokens or the price,
the tools, and audio that has a price of its own. -/
@[ext]
structure Components where
  cost : ℚ
  tools : ℚ
  audio : ℚ
  deriving DecidableEq

def Components.total (c : Components) : ℚ := c.cost + c.tools + c.audio

/-- Audio tokens at `audioInputPrice` for a million, where there is such a price. -/
def TextQuotaSettings.audioInput (settings : TextQuotaSettings) (dGroupRatio audioInputPrice : ℚ)
    (audioTokens : ℤ) : ℚ :=
  if audioTokens ≠ 0 ∧ 0 < audioInputPrice then
    decimalDiv audioInputPrice 1000000 * audioTokens * dGroupRatio * settings.quotaPerUnit
  else 0

/-- The components that `calculateTextQuotaSummary` adds up. -/
def textComponents (settings : TextQuotaSettings) (ctx : TextContext) (info : RelayInfo)
    (t : TextTokens) : Components :=
  let priceData := info.priceData
  let dGroupRatio := priceData.groupRatioInfo.groupRatio
  let tools := calculateTextToolCallSurcharge settings ctx info.originModelName dGroupRatio
  if priceData.usePrice then ⟨priceData.modelPrice * settings.quotaPerUnit * dGroupRatio, tools, 0⟩
  else
    let audioInputPrice := settings.getGeminiInputAudioPricePerMillionTokens info.originModelName
    ⟨t.weighted priceData audioInputPrice * (priceData.modelRatio * dGroupRatio), tools,
      settings.audioInput dGroupRatio audioInputPrice t.audioTokens⟩

/-- The fields of the summary that the settlement reads. -/
structure TextQuotaSummary where
  totalTokens : ℤ
  isClaudeUsageSemantic : Bool
  toolCallSurchargeQuota : ℚ
  quota : ℤ
  deriving DecidableEq

def calculateTextQuotaSummary (settings : TextQuotaSettings) (ctx : TextContext) (info : RelayInfo)
    (usage : Option Usage) : TextQuotaSummary :=
  let t := textTokens settings ctx info usage
  let components := textComponents settings ctx info t
  let ratio := info.priceData.modelRatio * info.priceData.groupRatioInfo.groupRatio
  let total := components.total * info.priceData.otherRatios.product
  let total := if info.priceData.usePrice = false ∧ ratio ≠ 0 ∧ total ≤ 0 then 1 else total
  let quota := roundAway total
  { totalTokens := t.totalTokens
    isClaudeUsageSemantic := t.isClaudeUsageSemantic
    toolCallSurchargeQuota := components.tools
    quota := if t.totalTokens = 0 then 0 else if ratio ≠ 0 ∧ quota = 0 then 1 else quota }

/-! ## Tiered settlement -/

/-- `BuildTieredTokenParams` -/
def buildTieredTokenParams (usage : Usage) (isClaudeUsageSemantic : Bool) (usedVars : String → Bool) :
    TokenParams :=
  let cr := usage.promptTokensDetails.cachedTokens
  let anthropic := decide (usage.usageSemantic = "anthropic")
  let cc1h := if anthropic then usage.claudeCacheCreation1hTokens else 0
  let cc5m := if anthropic then usage.claudeCacheCreation5mTokens
    else usage.promptTokensDetails.cachedCreationTokens
  let img := usage.promptTokensDetails.imageTokens
  let ai := usage.promptTokensDetails.audioTokens
  let imgO := usage.completionTokenDetails.imageTokens
  let ao := usage.completionTokenDetails.audioTokens
  let less (name : String) (n : ℤ) : ℤ := if !isClaudeUsageSemantic && usedVars name then n else 0
  let p := usage.promptTokens - less "cr" cr - less "cc" cc5m - less "cc1h" cc1h - less "img" img -
    less "ai" ai
  let c := usage.completionTokens - less "img_o" imgO - less "ao" ao
  let inputLen := if isClaudeUsageSemantic then usage.promptTokens + cr + cc5m + cc1h
    else usage.promptTokens
  ⟨max 0 p, max 0 c, inputLen, cr, cc5m, cc1h, img, imgO, ai, ao⟩

/-- `TryTieredSettle`; `none` where the request is not tiered. -/
def tryTieredSettle (runExpr : RunExpr) (info : RelayInfo) (params : TokenParams) :
    Option (ℤ × Option TieredResult) :=
  match info.tieredBillingSnapshot with
  | none => none
  | some snap =>
    if snap.billingMode ≠ "tiered_expr" then none
    else match computeTieredQuota runExpr snap params (info.billingRequestInput.getD .empty) with
      | .error _ =>
        let quota := info.finalPreConsumedQuota
        some (if quota ≤ 0 then snap.estimatedQuotaAfterGroup else quota, none)
      | .ok tr => some (tr.actualQuotaAfterGroup, some tr)

def composeTieredTextQuota (info : RelayInfo) (summary : TextQuotaSummary) (tieredQuota : ℤ)
    (tieredResult : Option TieredResult) : ℤ :=
  if summary.toolCallSurchargeQuota = 0 then tieredQuota
  else match tieredResult, info.tieredBillingSnapshot with
    | some tr, some snap =>
      roundAway (tr.actualQuotaBeforeGroup * snap.groupRatio + summary.toolCallSurchargeQuota)
    | _, _ => tieredQuota + roundAway summary.toolCallSurchargeQuota

/-- What an expression is run with: it, and the variables that it uses. -/
structure ExprEngine where
  runExpr : RunExpr
  usedVars : String → String → Bool

/-- The tiered settlement of a request, where it has usage. -/
def ExprEngine.settle (engine : ExprEngine) (ctx : TextContext) (info : RelayInfo)
    (usage : Option Usage) : Option (ℤ × Option TieredResult) :=
  usage.bind fun u =>
    let usedVars := match info.tieredBillingSnapshot with
      | some snap => engine.usedVars snap.exprString
      | none => fun _ => false
    let isClaude := decide (usageSemanticFromUsage ctx usage = "anthropic")
    tryTieredSettle engine.runExpr info (buildTieredTokenParams u isClaude usedVars)

/-- The quota that `PostTextConsumeQuota` settles at. -/
def postTextQuota (settings : TextQuotaSettings) (engine : ExprEngine) (ctx : TextContext)
    (info : RelayInfo) (usage : Option Usage) : ℤ :=
  let summary := calculateTextQuotaSummary settings ctx info usage
  match engine.settle ctx info usage with
  | some (tieredQuota, tieredResult) => composeTieredTextQuota info summary tieredQuota tieredResult
  | none => summary.quota

end Relay
