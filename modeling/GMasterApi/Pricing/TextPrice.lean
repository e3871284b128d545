import GMasterApi.Lib.GoString
import GMasterApi.Pricing.PriceData

/-!
# Prices of texts

`ModelPriceHelper` prices a request before it is sent.  A model of mode `tiered_expr`
is priced by an expression, and the rules it was priced by are frozen in a snapshot.
-/

namespace Pricing

open GoFloat GoMap

/-! ## Expressions -/

/-- The tokens that an expression sees, by kind. -/
structure TokenParams where
  p : ℚ
  c : ℚ
  len : ℚ
  cr : ℚ
  cc : ℚ
  cc1h : ℚ
  img : ℚ
  imgO : ℚ
  ai : ℚ
  ao : ℚ
  deriving DecidableEq

structure RequestInput where
  headers : List (String × String)
  body : List UInt8
  deriving DecidableEq

def RequestInput.empty : RequestInput := ⟨[], []⟩

/-- A run of an expression, at the time of the call: its cost and the tier that matched. -/
abbrev RunExpr := String → TokenParams → RequestInput → Except String (ℚ × String)

/-- The fields of the snapshot that a settlement reads. -/
structure BillingSnapshot where
  billingMode : String
  exprString : String
  groupRatio : ℚ
  estimatedQuotaBeforeGroup : ℚ
  estimatedQuotaAfterGroup : ℤ
  estimatedTier : String
  quotaPerUnit : ℚ
  deriving DecidableEq

structure TieredResult where
  actualQuotaBeforeGroup : ℚ
  actualQuotaAfterGroup : ℤ
  matchedTier : String
  crossedTier : Bool
  deriving DecidableEq

/-- `QuotaRound` -/
def quotaRound (f : ℚ) : ℤ := roundAway f

def quotaConversion (exprOutput : ℚ) (snap : BillingSnapshot) : ℚ :=
  exprOutput / 1000000 * snap.quotaPerUnit

/-- `ComputeTieredQuotaWithRequest` -/
def computeTieredQuota (runExpr : RunExpr) (snap : BillingSnapshot) (params : TokenParams)
    (request : RequestInput) : Except String TieredResult :=
  (runExpr snap.exprString params request).map fun (cost, matchedTier) =>
    let quotaBeforeGroup := quotaConversion cost snap
    ⟨quotaBeforeGroup, quotaRound (quotaBeforeGroup * snap.groupRatio), matchedTier,
      matchedTier ≠ snap.estimatedTier⟩

/-! ## The price of a request -/

/-- `PriceData` with the fields of a text. -/
structure TextPriceData extends PriceData where
  completionRatio : ℚ
  cacheRatio : ℚ
  cacheCreationRatio : ℚ
  cacheCreation5mRatio : ℚ
  cacheCreation1hRatio : ℚ
  imageRatio : ℚ
  audioRatio : ℚ
  audioCompletionRatio : ℚ
  quotaToPreConsume : ℤ
  deriving DecidableEq

def TextPriceData.zero : TextPriceData := ⟨.zero, 0, 0, 0, 0, 0, 0, 0, 0, 0⟩

/-- The settings that the price of a text reads; `preConsumedQuota` is
`common.PreConsumedQuota`. -/
structure TextPriceSettings extends PriceSettings where
  getBillingMode : String → String
  getBillingExpr : String → Option String
  getCompletionRatio : String → ℚ
  getCacheRatio : String → ℚ
  getCreateCacheRatio : String → ℚ
  getImageRatio : String → ℚ
  getAudioRatio : String → ℚ
  getAudioCompletionRatio : String → ℚ
  preConsumedQuota : ℤ

def billingModeTieredExpr : String := "tiered_expr"

def claudeCacheCreation1hMultiplier : ℚ := 6 / (375 / 100)

structure TokenCountMeta where
  maxTokens : ℤ
  imagePriceRatio : ℚ

/-- What is priced: the request, and whether its input for an expression can be read. -/
structure PriceRequest where
  userId : ℕ
  acceptUnsetRatioModel : Bool
  originModelName : String
  promptTokens : ℤ
  tokenMeta : TokenCountMeta
  requestInput : Except String RequestInput

/-- A price, with the snapshot and the input of a tiered one. -/
structure Priced where
  priceData : TextPriceData
  snapshot : Option (BillingSnapshot × RequestInput)

/-- The price by an expression that costs `rawCost`, and the snapshot of its rules. -/
def TextPriceSettings.byExpr (settings : TextPriceSettings) (groupRatioInfo : GroupRatioInfo)
    (exprStr : String) (requestInput : RequestInput) (rawCost : ℚ) (matchedTier : String) : Priced :=
  let quotaBeforeGroup := rawCost / 1000000 * settings.quotaPerUnit
  let free := !settings.enableFreeModelPreConsume && decide (groupRatioInfo.groupRatio = 0)
  let preConsumedQuota := if free then 0 else quotaRound (quotaBeforeGroup * groupRatioInfo.groupRatio)
  { priceData := { TextPriceData.zero with
      freeModel := free
      groupRatioInfo := groupRatioInfo
      quotaToPreConsume := preConsumedQuota }
    snapshot := some (⟨billingModeTieredExpr, exprStr, groupRatioInfo.groupRatio, quotaBeforeGroup,
      preConsumedQuota, matchedTier, settings.quotaPerUnit⟩, requestInput) }

def modelPriceHelperTiered (settings : TextPriceSettings) (runExpr : RunExpr) (request : PriceRequest)
    (groupRatioInfo : GroupRatioInfo) : Except String Priced :=
  let name := request.originModelName
  match settings.getBillingExpr name with
  | none => .error ("model " ++ name ++ " is configured as tiered_expr but has no billing expression")
  | some exprStr =>
    match request.requestInput with
    | .error e => .error e
    | .ok requestInput =>
      match runExpr exprStr ⟨request.promptTokens, request.tokenMeta.maxTokens, request.promptTokens,
          0, 0, 0, 0, 0, 0, 0⟩ requestInput with
      | .error e => .error ("model " ++ name ++ " tiered expr run failed: " ++ e)
      | .ok (rawCost, matchedTier) =>
        .ok (settings.byExpr groupRatioInfo exprStr requestInput rawCost matchedTier)

/-- The tokens that are pre-consumed. -/
def TextPriceSettings.preConsumedTokens (settings : TextPriceSettings) (request : PriceRequest) : ℤ :=
  max request.promptTokens settings.preConsumedQuota + request.tokenMeta.maxTokens

/-- The price by ratios. -/
def TextPriceSettings.byRatio (settings : TextPriceSettings) (request : PriceRequest)
    (groupRatioInfo : GroupRatioInfo) : Except String TextPriceData :=
  let name := request.originModelName
  let modelRatio := settings.getModelRatio name
  if !modelRatio.found && !request.acceptUnsetRatioModel then
    .error (modelPriceNotConfiguredError (settings.isAdmin request.userId) modelRatio.matchName)
  else
    let cacheCreationRatio := settings.getCreateCacheRatio name
    let free := settings.free groupRatioInfo.groupRatio modelRatio.ratio
    .ok { TextPriceData.zero with
      freeModel := free
      modelPrice := -1
      modelRatio := modelRatio.ratio
      groupRatioInfo := groupRatioInfo
      completionRatio := settings.getCompletionRatio name
      cacheRatio := settings.getCacheRatio name
      cacheCreationRatio := cacheCreationRatio
      cacheCreation5mRatio := cacheCreationRatio
      cacheCreation1hRatio := cacheCreationRatio * claudeCacheCreation1hMultiplier
      imageRatio := settings.getImageRatio name
      audioRatio := settings.getAudioRatio name
      audioCompletionRatio := settings.getAudioCompletionRatio name
      quotaToPreConsume := if free then 0
        else toInt (settings.preConsumedTokens request * (modelRatio.ratio * groupRatioInfo.groupRatio)) }

/-- The price of a call. -/
def TextPriceSettings.byPrice (settings : TextPriceSettings) (request : PriceRequest)
    (groupRatioInfo : GroupRatioInfo) (modelPrice : ℚ) : TextPriceData :=
  let modelPrice := if request.tokenMeta.imagePriceRatio ≠ 0
    then modelPrice * request.tokenMeta.imagePriceRatio else modelPrice
  let free := settings.free groupRatioInfo.groupRatio modelPrice
  { TextPriceData.zero with
    freeModel := free
    modelPrice := modelPrice
    groupRatioInfo := groupRatioInfo
    usePrice := true
    quotaToPreConsume := if free then 0
      else toInt (modelPrice * settings.quotaPerUnit * groupRatioInfo.groupRatio) }

/-- `ModelPriceHelper`: the group that is used, and the price. -/
def modelPriceHelper (settings : TextPriceSettings) (runExpr : RunExpr) (autoGroup : Option String)
    (request : PriceRequest) (userGroup usingGroup : String) : String × Except String Priced :=
  let (usingGroup, groupRatioInfo) := handleGroupRatio settings.groups autoGroup userGroup usingGroup
  let name := request.originModelName
  if settings.getBillingMode name = billingModeTieredExpr then
    (usingGroup, modelPriceHelperTiered settings runExpr request groupRatioInfo)
  else match settings.getModelPrice name with
    | none => (usingGroup, (settings.byRatio request groupRatioInfo).map fun priceData => ⟨priceData, none⟩)
    | some modelPrice => (usingGroup, .ok ⟨settings.byPrice request groupRatioInfo modelPrice, none⟩)

end Pricing
