import GMasterApi.Billing.NewSession
import GMasterApi.Relay.TieredParams
import Mathlib.Tactic.LinearCombination

/-!
# Ratios as an expression

The ratios of a model are prices: a ratio of 1 is 2 dollars for a million tokens.  The
linear expression of these prices is to cost what the ratios do.

    unroundedQuota = tieredQuota ↔ Parity    (ratio_tiered_agree_iff)

`surplus` is what the ratios charge beyond the expression, by the format of the usage.
-/

namespace Relay

open Pricing GoFloat

/-! ## The two quotas -/

/-- `tier(p*A + c*B + cr*C + cc*D + cc1h*E + img*F)` for the ratios of `priceData`. -/
def linearCost (priceData : TextPriceData) (params : TokenParams) : ℚ :=
  let price := 2 * priceData.modelRatio
  params.p * price + params.c * (price * priceData.completionRatio) +
    params.cr * (price * priceData.cacheRatio) + params.cc * (price * priceData.cacheCreationRatio) +
    params.cc1h * (price * priceData.cacheCreation1hRatio) + params.img * (price * priceData.imageRatio)

def linearVars (name : String) : Bool :=
  name = "cr" ∨ name = "cc" ∨ name = "cc1h" ∨ name = "img"

section Quota

variable (settings : TextQuotaSettings) (ctx : TextContext) (info : RelayInfo) (usage : Usage)

def isClaude : Bool := decide (usageSemanticFromUsage ctx (some usage) = "anthropic")

/-- What the expression sees. -/
def linearParams : TokenParams := buildTieredTokenParams usage (isClaude ctx usage) linearVars

/-- `cost / 1e6 * QuotaPerUnit * groupRatio` -/
def tieredQuota : ℚ :=
  linearCost info.priceData (linearParams ctx usage) / 1000000 * settings.quotaPerUnit *
    info.priceData.groupRatioInfo.groupRatio

/-- The quota of `calculateTextQuotaSummary` before it is rounded. -/
def unroundedQuota : ℚ :=
  (textComponents settings ctx info (textTokens settings ctx info (some usage))).total *
    info.priceData.otherRatios.product

/-- No price of a call, no tools, no price for audio and no other ratios. -/
structure RatioOnly : Prop where
  usePrice : info.priceData.usePrice = false
  tools : calculateTextToolCallSurcharge settings ctx info.originModelName
    info.priceData.groupRatioInfo.groupRatio = 0
  audio : settings.getGeminiInputAudioPricePerMillionTokens info.originModelName ≤ 0
  otherRatios : info.priceData.otherRatios = .none

/-- The counts are counts, and what OpenAI's format includes fits its total. -/
structure Fits : Prop where
  prompt : 0 ≤ usage.promptTokens
  completion : 0 ≤ usage.completionTokens
  split5m : 0 ≤ usage.claudeCacheCreation5mTokens
  split1h : 0 ≤ usage.claudeCacheCreation1hTokens
  total : isClaude ctx usage = false → isLegacyClaudeDerivedOpenAIUsage ctx usage = false →
    usage.promptTokensDetails.cachedTokens + usage.promptTokensDetails.cachedCreationTokens +
      usage.promptTokensDetails.imageTokens ≤ usage.promptTokens

/-! ## The difference -/

/-- The cache creation as the ratios see it: on OpenRouter it may follow from the cost. -/
def created : ℤ := (textTokens settings ctx info (some usage)).cacheCreationTokens

def onOpenRouter : Bool := ctx.channelType = some channelTypeOpenRouter

/-- The cache creation of Claude by lifetime, what is not split at the plain ratio. -/
def splitCreation : ℚ :=
  max 0 (created settings ctx info usage - usage.claudeCacheCreation5mTokens -
      usage.claudeCacheCreation1hTokens) * info.priceData.cacheCreationRatio +
    usage.claudeCacheCreation5mTokens * info.priceData.cacheCreation5mRatio +
    usage.claudeCacheCreation1hTokens * info.priceData.cacheCreation1hRatio

/-- The cache creation as the expression prices it. -/
def exprCreation : ℚ :=
  usage.cc5m * info.priceData.cacheCreationRatio + usage.cc1h * info.priceData.cacheCreation1hRatio

/-- The weight of the tokens that the ratios charge and the expression does not. -/
def surplus : ℚ :=
  let cr := usage.promptTokensDetails.cachedTokens
  let img := usage.promptTokensDetails.imageTokens
  if isClaude ctx usage then
    splitCreation settings ctx info usage - exprCreation info usage - img -
      if onOpenRouter ctx then cr + created settings ctx info usage else 0
  else if isLegacyClaudeDerivedOpenAIUsage ctx usage then
    splitCreation settings ctx info usage - exprCreation info usage +
      min (usage.promptTokens - img) (cr + usage.promptTokensDetails.cachedCreationTokens)
  else 0

/-- The weight of the tokens that the expression charges. -/
def exprWeight : ℚ :=
  let params := linearParams ctx usage
  let pd := info.priceData
  params.p + params.c * pd.completionRatio + params.cr * pd.cacheRatio +
    params.cc * pd.cacheCreationRatio + params.cc1h * pd.cacheCreation1hRatio +
    params.img * pd.imageRatio

/-- Nothing is charged, or the surplus is 0; where `QuotaPerUnit` is not the 500000 that
the prices of ratios are made for, the surplus makes up for it. -/
def Parity : Prop :=
  info.priceData.modelRatio * info.priceData.groupRatioInfo.groupRatio = 0 ∨
    surplus settings ctx info usage =
      (settings.quotaPerUnit / 500000 - 1) * exprWeight ctx info usage

end Quota

/-! ## What the ratios charge -/

variable {settings : TextQuotaSettings} {ctx : TextContext} {info : RelayInfo} {usage : Usage}

theorem tieredQuota_eq : tieredQuota settings ctx info usage =
    exprWeight ctx info usage * (settings.quotaPerUnit / 500000) *
      (info.priceData.modelRatio * info.priceData.groupRatioInfo.groupRatio) := by
  unfold tieredQuota linearCost exprWeight
  ring

theorem unroundedQuota_eq (h : RatioOnly settings ctx info) :
    unroundedQuota settings ctx info usage =
      (textTokens settings ctx info (some usage)).weighted info.priceData
          (settings.getGeminiInputAudioPricePerMillionTokens info.originModelName) *
        (info.priceData.modelRatio * info.priceData.groupRatioInfo.groupRatio) := by
  have haudio : ¬ 0 < settings.getGeminiInputAudioPricePerMillionTokens info.originModelName :=
    not_lt.mpr h.audio
  have hproduct : info.priceData.otherRatios.product = 1 := by
    rw [h.otherRatios]
    rfl
  unfold unroundedQuota textComponents Components.total TextQuotaSettings.audioInput
  simp only [h.usePrice, h.tools, haudio, hproduct, Bool.false_eq_true, ↓reduceIte, and_false,
    add_zero, mul_one]

/-- The weight of the tokens, by whether the prompt tokens include the cached ones. -/
theorem weighted_eq (t : TextTokens) (priceData : TextPriceData) {audioInputPrice : ℚ}
    (haudio : audioInputPrice ≤ 0) (h5m : 0 ≤ t.cacheCreationTokens5m)
    (h1h : 0 ≤ t.cacheCreationTokens1h) :
    t.weighted priceData audioInputPrice =
      t.promptTokens - t.imageTokens + t.cacheTokens * priceData.cacheRatio +
        t.imageTokens * priceData.imageRatio + t.completionTokens * priceData.completionRatio +
        if t.isClaudeUsageSemantic = false ∧ t.legacyClaudeDerived = false then
          t.cacheCreationTokens * priceData.cacheCreationRatio - t.cacheTokens - t.cacheCreationTokens
        else
          max 0 (t.cacheCreationTokens - t.cacheCreationTokens5m - t.cacheCreationTokens1h : ℚ) *
              priceData.cacheCreationRatio +
            t.cacheCreationTokens5m * priceData.cacheCreation5mRatio +
            t.cacheCreationTokens1h * priceData.cacheCreation1hRatio := by
  have haudio' : ¬ 0 < audioInputPrice := not_lt.mpr haudio
  unfold TextTokens.weighted
  by_cases hinc : t.isClaudeUsageSemantic = false ∧ t.legacyClaudeDerived = false
  · have hcached : (if t.cacheTokens ≠ 0 then t.cacheTokens else 0) = t.cacheTokens := by
      split <;> omega
    simp only [hinc.1, hinc.2, haudio', Bool.not_false, Bool.and_self, and_true, ↓reduceIte, hcached]
    by_cases hcc : t.cacheCreationTokens ≠ 0 ∨ 0 < t.cacheCreationTokens5m ∨
        0 < t.cacheCreationTokens1h
    · simp only [hcc, ↓reduceIte]
      push_cast
      ring
    · have hzero : t.cacheCreationTokens = 0 := by omega
      simp only [if_neg hcc]
      simp only [hzero]
      push_cast
      ring
  · have hinc' : (!t.isClaudeUsageSemantic && !t.legacyClaudeDerived) = false := by
      cases hc : t.isClaudeUsageSemantic <;> cases hl : t.legacyClaudeDerived <;> simp_all
    simp only [hinc, hinc', haudio', Bool.false_eq_true, and_false, ↓reduceIte]
    by_cases hcc : t.cacheCreationTokens ≠ 0 ∨ 0 < t.cacheCreationTokens5m ∨
        0 < t.cacheCreationTokens1h
    · simp only [hcc, ↓reduceIte]
      push_cast
      ring
    · have hzero : t.cacheCreationTokens = 0 ∧ t.cacheCreationTokens5m = 0 ∧
          t.cacheCreationTokens1h = 0 := by omega
      simp only [if_neg hcc]
      simp only [hzero]
      push_cast
      simp only [sub_self, max_self]
      ring

/-! ## When they agree -/

/-- The tokens of the summary: those of the usage, less what OpenRouter includes. -/
theorem textTokens_eq (settings : TextQuotaSettings) (ctx : TextContext) (info : RelayInfo)
    (usage : Usage) :
    textTokens settings ctx info (some usage) =
      { promptTokens := usage.promptTokens -
          if onOpenRouter ctx ∧ isClaude ctx usage then
            usage.promptTokensDetails.cachedTokens + created settings ctx info usage else 0
        completionTokens := usage.completionTokens
        totalTokens := usage.promptTokens + usage.completionTokens
        cacheTokens := usage.promptTokensDetails.cachedTokens
        cacheCreationTokens := created settings ctx info usage
        cacheCreationTokens5m := usage.claudeCacheCreation5mTokens
        cacheCreationTokens1h := usage.claudeCacheCreation1hTokens
        imageTokens := usage.promptTokensDetails.imageTokens
        audioTokens := usage.promptTokensDetails.audioTokens
        isClaudeUsageSemantic := isClaude ctx usage
        legacyClaudeDerived := isLegacyClaudeDerivedOpenAIUsage ctx usage } := by
  by_cases h : onOpenRouter ctx ∧ isClaude ctx usage
  · have hcond := h
    simp only [onOpenRouter, isClaude, decide_eq_true_eq] at hcond
    rw [if_pos h, ← sub_sub]
    unfold created textTokens
    dsimp only
    rw [if_pos (by simpa using hcond)]
    rfl
  · have hcond := h
    simp only [onOpenRouter, isClaude, decide_eq_true_eq] at hcond
    rw [if_neg h, sub_zero]
    unfold created textTokens
    dsimp only
    rw [if_neg (by simpa using hcond)]
    rfl

variable (settings ctx info usage) in
/-- Away from OpenRouter the cache creation is the one reported. -/
theorem created_eq (h : ¬ (onOpenRouter ctx ∧ isClaude ctx usage)) :
    created settings ctx info usage = usage.promptTokensDetails.cachedCreationTokens := by
  simp only [onOpenRouter, isClaude] at h
  unfold created textTokens
  dsimp only
  rw [if_neg (by simpa using h)]
  rfl

/-- `weighted_eq` for the tokens of a usage. -/
theorem weighted_textTokens (h : RatioOnly settings ctx info) (hfit : Fits ctx usage) :
    (textTokens settings ctx info (some usage)).weighted info.priceData
        (settings.getGeminiInputAudioPricePerMillionTokens info.originModelName) =
      exprWeight ctx info usage + surplus settings ctx info usage := by
  rw [textTokens_eq, weighted_eq _ _ h.audio hfit.split5m hfit.split1h]
  obtain ⟨p, c, len, hbuild, hp, hc, -⟩ := build_details usage (isClaude ctx usage) linearVars
  unfold exprWeight surplus linearParams
  rw [hbuild]
  dsimp only
  have hprompt := hfit.prompt
  have hcompletion := hfit.completion
  have hout : c = usage.completionTokens := by
    have hnone : usage.pricedOutput linearVars = 0 := rfl
    rw [hc, hnone]
    split <;> omega
  rw [hout]
  cases hclaude : isClaude ctx usage with
  | true =>
    rw [hclaude] at hp
    have hin : p = usage.promptTokens := by
      simp only [↓reduceIte] at hp
      omega
    rw [hin]
    simp only [Bool.true_eq_false, false_and, ↓reduceIte, and_true, splitCreation, exprCreation]
    push_cast
    split <;> ring
  | false =>
    have hcreated := created_eq settings ctx info usage (by simp [hclaude])
    have hsemantic : usage.usageSemantic ≠ "anthropic" := by
      intro he
      simp [isClaude, usageSemanticFromUsage, he] at hclaude
    have hin : p = max 0 (usage.promptTokens - (usage.promptTokensDetails.cachedTokens +
        usage.promptTokensDetails.cachedCreationTokens + usage.promptTokensDetails.imageTokens)) := by
      have hsum : usage.pricedInput linearVars = usage.promptTokensDetails.cachedTokens +
          usage.promptTokensDetails.cachedCreationTokens + 0 +
          usage.promptTokensDetails.imageTokens + 0 := by
        rw [Usage.pricedInput, Usage.cc5m, Usage.cc1h, if_neg hsemantic, if_neg hsemantic]
        rfl
      rw [hp, hclaude, hsum]
      simp
    cases hlegacy : isLegacyClaudeDerivedOpenAIUsage ctx usage with
    | true =>
      have hmin : (p : ℚ) + min (usage.promptTokens - usage.promptTokensDetails.imageTokens : ℚ)
          (usage.promptTokensDetails.cachedTokens + usage.promptTokensDetails.cachedCreationTokens) =
            usage.promptTokens - usage.promptTokensDetails.imageTokens := by
        norm_cast
        omega
      simp only [Bool.false_eq_true, and_false, Bool.true_eq_false, ↓reduceIte, splitCreation,
        exprCreation]
      push_cast
      linear_combination -hmin
    | false =>
      have hfits := hfit.total hclaude hlegacy
      have hin' : p = usage.promptTokens - usage.promptTokensDetails.cachedTokens -
          usage.promptTokensDetails.cachedCreationTokens - usage.promptTokensDetails.imageTokens := by
        omega
      rw [hin', hcreated]
      simp only [Usage.cc5m, Usage.cc1h, if_neg hsemantic, Bool.false_eq_true, and_false, and_self,
        ↓reduceIte]
      push_cast
      ring

/-- A model of 3 dollars at the default `QuotaPerUnit`, in a group of ratio 2. -/
def ratioInfo : RelayInfo :=
  { Billing.sampleInfo with
    userGroup := "default"
    tokenGroup := "default"
    originModelName := "claude-sonnet"
    acceptUnsetRatioModel := false
    estimatePromptTokens := 100
    priceData := { TextPriceData.zero with
      modelRatio := 3 / 2
      groupRatioInfo := ⟨2, 0, false⟩
      completionRatio := 5
      cacheRatio := 1 / 10
      cacheCreationRatio := 5 / 4
      cacheCreation5mRatio := 5 / 4
      cacheCreation1hRatio := 2
      imageRatio := 1 }
    tieredBillingSnapshot := none
    billingRequestInput := none
    billing := none }

def ratioSettings : TextQuotaSettings := ⟨500000, fun _ _ => 10, fun _ _ => 0, fun _ => 0, fun _ => none⟩

def ratioContext : TextContext := ⟨false, none, none, 0, none⟩

theorem ratioOnly_sample : RatioOnly ratioSettings ratioContext ratioInfo :=
  ⟨rfl, by decide +kernel, le_refl _, rfl⟩

theorem fits_cachedClaude {split : ℤ} (h : 0 ≤ split) : Fits ratioContext (cachedClaude split) := by
  refine ⟨show (0 : ℤ) ≤ 100 by decide, show (0 : ℤ) ≤ 50 by decide, le_refl _, h, fun hclaude => ?_⟩
  simp [isClaude, usageSemanticFromUsage, cachedClaude] at hclaude

end Relay
