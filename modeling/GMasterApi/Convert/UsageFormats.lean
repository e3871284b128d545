import GMasterApi.Convert.ClaudeUsage

/-!
# Usage in Claude's format and in OpenAI's

Claude counts the tokens of the cache beside the input, OpenAI inside the prompt.
`buildOpenAIStyleUsageFromClaudeUsage` adds them, `buildClaudeUsageFromOpenAIUsage` leaves them
in, so tokens are conserved only where no cache is used (`conservesTokens_iff`).
-/

namespace Convert.Claude

open Relay

/-! ## From Claude's format -/

/-- `Usage` with its input tokens. -/
structure OpenAIStyleUsage extends TotalledUsage where
  inputTokens : ℤ
  deriving DecidableEq

def cacheCreationTokensForOpenAIUsage (usage : Usage) : ℤ :=
  let splitCacheCreationTokens :=
    usage.claudeCacheCreation5mTokens + usage.claudeCacheCreation1hTokens
  if splitCacheCreationTokens = 0 then usage.promptTokensDetails.cachedCreationTokens
  else if splitCacheCreationTokens < usage.promptTokensDetails.cachedCreationTokens then
    usage.promptTokensDetails.cachedCreationTokens
  else splitCacheCreationTokens

def buildOpenAIStyleUsageFromClaudeUsage (usage : TotalledUsage) : OpenAIStyleUsage :=
  let (cacheCreation5m, cacheCreation1h) := normalizeCacheCreationSplit
    usage.promptTokensDetails.cachedCreationTokens usage.claudeCacheCreation5mTokens
    usage.claudeCacheCreation1hTokens
  let totalInputTokens := usage.promptTokens + usage.promptTokensDetails.cachedTokens +
    cacheCreationTokensForOpenAIUsage usage.toUsage
  { usage with
    claudeCacheCreation5mTokens := cacheCreation5m
    claudeCacheCreation1hTokens := cacheCreation1h
    promptTokens := totalInputTokens
    inputTokens := totalInputTokens
    totalTokens := totalInputTokens + usage.completionTokens
    usageSemantic := "openai"
    usageSource := "anthropic" }

/-- The fields that a `ClaudeUsage` is built from. -/
def openAIUsage (usage : Usage) : OpenAIUsage where
  promptTokens := usage.promptTokens
  completionTokens := usage.completionTokens
  cachedTokens := usage.promptTokensDetails.cachedTokens
  cachedCreationTokens := usage.promptTokensDetails.cachedCreationTokens
  claudeCacheCreation5mTokens := usage.claudeCacheCreation5mTokens
  claudeCacheCreation1hTokens := usage.claudeCacheCreation1hTokens

/-! ## Conservation -/

/-- A usage whose details are part of its prompt. -/
structure OpenAIFormatUsage extends OpenAIUsage where
  cachedTokens_nonneg : 0 ≤ cachedTokens
  cachedCreationTokens_nonneg : 0 ≤ cachedCreationTokens
  cacheCreation5m_nonneg : 0 ≤ claudeCacheCreation5mTokens
  cacheCreation1h_nonneg : 0 ≤ claudeCacheCreation1hTokens
  included : cachedTokens + cachedCreationTokens ≤ promptTokens

/-- The tokens of the cache creation: its split may leave some out, or its total. -/
def ClaudeUsage.cacheCreationTokens (usage : ClaudeUsage) : ℕ :=
  max usage.cacheCreationInputTokens
    (usage.getCacheCreation5mTokens + usage.getCacheCreation1hTokens)

/-- The split that the cache creation is normalised to. -/
def ClaudeUsage.split (usage : ClaudeUsage) : ℤ × ℤ :=
  normalizeCacheCreationSplit usage.cacheCreationInputTokens usage.getCacheCreation5mTokens
    usage.getCacheCreation1hTokens

/-- A split as it is sent: one without tokens is left out. -/
def sentSplit (split : ℤ × ℤ) : Option Convert.ClaudeCacheCreationUsage :=
  if 0 < split.1 ∨ 0 < split.2 then some ⟨split.1, split.2⟩ else none

/-- The usage as it is sent, with its split normalised. -/
def ClaudeUsage.normalised (usage : ClaudeUsage) : Convert.ClaudeUsage where
  inputTokens := usage.inputTokens
  outputTokens := usage.outputTokens
  cacheCreationInputTokens := usage.cacheCreationInputTokens
  cacheReadInputTokens := usage.cacheReadInputTokens
  cacheCreation := sentSplit usage.split

/-- A usage in Claude's format in OpenAI's. -/
def ClaudeUsage.openAIStyle (usage : ClaudeUsage) : OpenAIStyleUsage :=
  buildOpenAIStyleUsageFromClaudeUsage (claudeHandler (some usage)).usage

/-- The sum of the split of a cache creation. -/
def splitTokens (usage : Convert.ClaudeUsage) : ℤ :=
  match usage.cacheCreation with
  | some creation => creation.ephemeral5mInputTokens + creation.ephemeral1hInputTokens
  | none => 0

/-- The conversions conserve the tokens of a usage in each format. -/
structure ConservesTokens (claude : ClaudeUsage) (openAI : OpenAIFormatUsage) : Prop where
  prompt : claude.openAIStyle.promptTokens =
    claude.inputTokens + claude.cacheReadInputTokens + claude.cacheCreationTokens
  /-- The details are part of the prompt, with the cache creation as its total or its split. -/
  included : let usage := openAIUsage claude.openAIStyle.toUsage
    usage.cachedTokens = claude.cacheReadInputTokens ∧
    usage.cachedCreationTokens = claude.cacheCreationInputTokens ∧
    usage.cachedTokens + usage.cachedCreationTokens ≤ usage.promptTokens ∧
    usage.cachedTokens + (usage.claudeCacheCreation5mTokens + usage.claudeCacheCreation1hTokens) ≤
      usage.promptTokens
  input : let usage := buildClaudeUsageFromOpenAIUsage openAI.toOpenAIUsage
    usage.inputTokens + usage.cacheReadInputTokens + usage.cacheCreationInputTokens =
      openAI.promptTokens
  split : let usage := buildClaudeUsageFromOpenAIUsage openAI.toOpenAIUsage
    splitTokens usage = usage.cacheCreationInputTokens
  roundTrip : buildClaudeUsageFromOpenAIUsage (openAIUsage claude.openAIStyle.toUsage) =
    claude.normalised

/-- Neither usage has tokens of a cache. -/
structure Uncached (claude : ClaudeUsage) (openAI : OpenAIFormatUsage) : Prop where
  read : claude.cacheReadInputTokens = 0
  creation : claude.cacheCreationTokens = 0
  cachedTokens : openAI.cachedTokens = 0
  cachedCreationTokens : openAI.cachedCreationTokens = 0
  cacheCreation5m : openAI.claudeCacheCreation5mTokens = 0
  cacheCreation1h : openAI.claudeCacheCreation1hTokens = 0

/-! ## The three counters -/

/-- A normalised split sums to the greater of the total and the split. -/
theorem normalizeCacheCreationSplit_sum (totalTokens tokens5m tokens1h : ℤ) :
    (normalizeCacheCreationSplit totalTokens tokens5m tokens1h).1 +
      (normalizeCacheCreationSplit totalTokens tokens5m tokens1h).2 =
      max totalTokens (tokens5m + tokens1h) := by
  show tokens5m + max (totalTokens - tokens5m - tokens1h) 0 + tokens1h = _
  omega

theorem normalizeCacheCreationSplit_idem (totalTokens tokens5m tokens1h : ℤ) :
    normalizeCacheCreationSplit totalTokens
      (normalizeCacheCreationSplit totalTokens tokens5m tokens1h).1
      (normalizeCacheCreationSplit totalTokens tokens5m tokens1h).2 =
      normalizeCacheCreationSplit totalTokens tokens5m tokens1h := by
  have hsum := normalizeCacheCreationSplit_sum totalTokens tokens5m tokens1h
  unfold normalizeCacheCreationSplit at hsum ⊢
  refine Prod.ext ?_ rfl
  dsimp only at hsum ⊢
  omega

section Conversions

variable (claude : ClaudeUsage) (openAI : OpenAIFormatUsage)

theorem cacheCreationTokensForOpenAIUsage_eq :
    cacheCreationTokensForOpenAIUsage (claudeHandler (some claude)).usage.toUsage =
      claude.cacheCreationTokens := by
  show (if (claude.getCacheCreation5mTokens : ℤ) + claude.getCacheCreation1hTokens = 0 then
      (claude.cacheCreationInputTokens : ℤ)
    else if (claude.getCacheCreation5mTokens : ℤ) + claude.getCacheCreation1hTokens <
        claude.cacheCreationInputTokens then (claude.cacheCreationInputTokens : ℤ)
    else claude.getCacheCreation5mTokens + claude.getCacheCreation1hTokens) = _
  unfold ClaudeUsage.cacheCreationTokens
  split
  · omega
  · split
    · omega
    · omega

theorem openAIStyle_promptTokens : claude.openAIStyle.promptTokens =
    claude.inputTokens + claude.cacheReadInputTokens + claude.cacheCreationTokens := by
  rw [← cacheCreationTokensForOpenAIUsage_eq]
  rfl

/-- The conversion back takes the whole prompt for the input. -/
theorem roundTrip_eq :
    buildClaudeUsageFromOpenAIUsage (openAIUsage claude.openAIStyle.toUsage) =
      { claude.normalised with inputTokens := claude.openAIStyle.promptTokens } := by
  have hidem : normalizeCacheCreationSplit claude.cacheCreationInputTokens
      claude.openAIStyle.claudeCacheCreation5mTokens
      claude.openAIStyle.claudeCacheCreation1hTokens = claude.split :=
    normalizeCacheCreationSplit_idem claude.cacheCreationInputTokens
      claude.getCacheCreation5mTokens claude.getCacheCreation1hTokens
  unfold ClaudeUsage.normalised
  rw [← hidem]
  rfl

theorem roundTrip_iff :
    buildClaudeUsageFromOpenAIUsage (openAIUsage claude.openAIStyle.toUsage) =
        claude.normalised ↔
      claude.cacheReadInputTokens = 0 ∧ claude.cacheCreationTokens = 0 := by
  rw [roundTrip_eq, openAIStyle_promptTokens]
  constructor
  · intro h
    have hinput : (claude.inputTokens : ℤ) + claude.cacheReadInputTokens +
        claude.cacheCreationTokens = claude.inputTokens :=
      congrArg Convert.ClaudeUsage.inputTokens h
    omega
  · rintro ⟨hread, hcreation⟩
    rw [hread, hcreation, Nat.cast_zero, add_zero, add_zero]
    rfl

theorem included_openAIStyle : let usage := openAIUsage claude.openAIStyle.toUsage
    usage.cachedTokens = claude.cacheReadInputTokens ∧
    usage.cachedCreationTokens = claude.cacheCreationInputTokens ∧
    usage.cachedTokens + usage.cachedCreationTokens ≤ usage.promptTokens ∧
    usage.cachedTokens + (usage.claudeCacheCreation5mTokens + usage.claudeCacheCreation1hTokens) ≤
      usage.promptTokens := by
  have hprompt := openAIStyle_promptTokens claude
  have hsum : claude.split.1 + claude.split.2 = max (claude.cacheCreationInputTokens : ℤ)
      (claude.getCacheCreation5mTokens + claude.getCacheCreation1hTokens) :=
    normalizeCacheCreationSplit_sum claude.cacheCreationInputTokens
      claude.getCacheCreation5mTokens claude.getCacheCreation1hTokens
  have hmax : (claude.cacheCreationTokens : ℤ) = max (claude.cacheCreationInputTokens : ℤ)
      (claude.getCacheCreation5mTokens + claude.getCacheCreation1hTokens) := by
    unfold ClaudeUsage.cacheCreationTokens
    omega
  refine ⟨rfl, rfl, ?_, ?_⟩
  · show (claude.cacheReadInputTokens : ℤ) + claude.cacheCreationInputTokens ≤
      claude.openAIStyle.promptTokens
    omega
  · show (claude.cacheReadInputTokens : ℤ) + (claude.split.1 + claude.split.2) ≤
      claude.openAIStyle.promptTokens
    omega

/-- The split that is sent sums to the greater of the total and the split that came. -/
theorem splitTokens_eq : splitTokens (buildClaudeUsageFromOpenAIUsage openAI.toOpenAIUsage) =
    max openAI.cachedCreationTokens
      (openAI.claudeCacheCreation5mTokens + openAI.claudeCacheCreation1hTokens) := by
  have h5m := openAI.cacheCreation5m_nonneg
  have h1h := openAI.cacheCreation1h_nonneg
  rw [← normalizeCacheCreationSplit_sum]
  unfold splitTokens buildClaudeUsageFromOpenAIUsage normalizeCacheCreationSplit
  dsimp only
  split
  · rename_i creation hcreation
    split at hcreation
    · cases hcreation
      rfl
    · cases hcreation
  · rename_i hnone
    split at hnone
    · cases hnone
    · omega

/-- **Tokens** are conserved exactly where neither usage has tokens of a cache. -/
theorem conservesTokens_iff : ConservesTokens claude openAI ↔ Uncached claude openAI := by
  have hread := openAI.cachedTokens_nonneg
  have hcreation := openAI.cachedCreationTokens_nonneg
  have h5m := openAI.cacheCreation5m_nonneg
  have h1h := openAI.cacheCreation1h_nonneg
  constructor
  · intro h
    obtain ⟨hclaudeRead, hclaudeCreation⟩ := (roundTrip_iff claude).1 h.roundTrip
    have hinput : openAI.promptTokens + openAI.cachedTokens + openAI.cachedCreationTokens =
        openAI.promptTokens := h.input
    have hsplit : splitTokens (buildClaudeUsageFromOpenAIUsage openAI.toOpenAIUsage) =
        openAI.cachedCreationTokens := h.split
    rw [splitTokens_eq] at hsplit
    exact ⟨hclaudeRead, hclaudeCreation, by omega, by omega, by omega, by omega⟩
  · intro h
    obtain ⟨hclaudeRead, hclaudeCreation, hcached, hcachedCreation, hsplit5m, hsplit1h⟩ := h
    refine ⟨openAIStyle_promptTokens claude, included_openAIStyle claude, ?_, ?_,
      (roundTrip_iff claude).2 ⟨hclaudeRead, hclaudeCreation⟩⟩
    · show openAI.promptTokens + openAI.cachedTokens + openAI.cachedCreationTokens =
        openAI.promptTokens
      omega
    · show splitTokens (buildClaudeUsageFromOpenAIUsage openAI.toOpenAIUsage) =
        openAI.cachedCreationTokens
      rw [splitTokens_eq]
      omega

end Conversions

/-- The tokens read from the cache are counted twice. -/
theorem cached_tokens_counted_twice : ¬ ConservesTokens ⟨0, 0, 0, 0, none, none⟩
    ⟨⟨100, 20, 30, 0, 0, 0⟩, by decide, by decide, by decide, by decide, by decide⟩ := by
  intro h
  exact absurd h.input (by decide)

end Convert.Claude
