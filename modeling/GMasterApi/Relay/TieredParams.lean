import GMasterApi.Relay.TextQuota

/-!
# One usage in two formats

An upstream of OpenAI's format counts every input token among the prompt tokens, one
of Claude's format counts what it cached beside them.  `BuildTieredTokenParams` is to
make the same tokens of both, each priced once.

    EncodesOpenAI u o → PricedOnce u used (buildTieredTokenParams o false used)  (openAI_pricedOnce)

For Claude's format this holds where `CountsOnce` does (`tiered_prices_once_iff`).
-/

namespace Relay

open Pricing

/-! ## Usages -/

/-- What was really used, by kind. -/
structure PhysicalUsage where
  text : ℕ
  cacheRead : ℕ
  cacheCreation5m : ℕ
  cacheCreation1h : ℕ
  image : ℕ
  audio : ℕ
  textOut : ℕ
  imageOut : ℕ
  audioOut : ℕ
  deriving DecidableEq

namespace PhysicalUsage

def cacheCreation (u : PhysicalUsage) : ℕ := u.cacheCreation5m + u.cacheCreation1h

def totalInput (u : PhysicalUsage) : ℕ := u.text + u.cacheRead + u.cacheCreation + u.image + u.audio

def totalOutput (u : PhysicalUsage) : ℕ := u.textOut + u.imageOut + u.audioOut

end PhysicalUsage

/-- The details that both formats report. -/
structure Reports (u : PhysicalUsage) (usage : Usage) : Prop where
  completion : usage.completionTokens = u.totalOutput
  cached : usage.promptTokensDetails.cachedTokens = u.cacheRead
  created : usage.promptTokensDetails.cachedCreationTokens = u.cacheCreation
  image : usage.promptTokensDetails.imageTokens = u.image
  audio : usage.promptTokensDetails.audioTokens = u.audio
  imageOut : usage.completionTokenDetails.imageTokens = u.imageOut
  audioOut : usage.completionTokenDetails.audioTokens = u.audioOut

/-- The prompt tokens are all of the input. -/
structure EncodesOpenAI (u : PhysicalUsage) (usage : Usage) : Prop extends Reports u usage where
  prompt : usage.promptTokens = u.totalInput
  semantic : usage.usageSemantic ≠ "anthropic"

/-- The prompt tokens are the input without the cache; of the cache creation, all, a
part or nothing is split by its lifetime. -/
structure EncodesClaude (u : PhysicalUsage) (usage : Usage) : Prop extends Reports u usage where
  prompt : usage.promptTokens = u.text + u.image + u.audio
  semantic : usage.usageSemantic = "anthropic"
  split5m : 0 ≤ usage.claudeCacheCreation5mTokens
  split1h : 0 ≤ usage.claudeCacheCreation1hTokens
  split : usage.claudeCacheCreation5mTokens + usage.claudeCacheCreation1hTokens ≤ u.cacheCreation

/-- `n` where the expression has a price for the variable. -/
def priced {α : Type} [Zero α] (used : String → Bool) (name : String) (n : α) : α :=
  if used name then n else 0

/-- Every token is priced once, by a variable of its own or among `p` and `c`. -/
structure PricedOnce (u : PhysicalUsage) (used : String → Bool) (params : TokenParams) : Prop where
  input : params.p + priced used "cr" params.cr + priced used "cc" params.cc +
    priced used "cc1h" params.cc1h + priced used "img" params.img + priced used "ai" params.ai =
      u.totalInput
  output : params.c + priced used "img_o" params.imgO + priced used "ao" params.ao = u.totalOutput
  len : params.len = u.totalInput

/-! ## Expressions -/

/-- What an expression that treats `cc` and `cc1h` alike can tell of its tokens. -/
def TokenParams.view (used : String → Bool) (params : TokenParams) : TokenParams where
  p := params.p
  c := params.c
  len := params.len
  cr := priced used "cr" params.cr
  cc := priced used "cc" params.cc + priced used "cc1h" params.cc1h
  cc1h := 0
  img := priced used "img" params.img
  imgO := priced used "img_o" params.imgO
  ai := priced used "ai" params.ai
  ao := priced used "ao" params.ao

/-- A cost that reads the used variables only, and does not distinguish `cc` from `cc1h`. -/
structure Undistinguishing (used : String → Bool) (cost : TokenParams → ℚ) : Prop where
  both : used "cc" = used "cc1h"
  reads : ∀ a b, TokenParams.view used a = TokenParams.view used b → cost a = cost b

/-! ## What is counted -/

/-- The cache creation of a usage, as the expression sees it. -/
def Usage.cc5m (usage : Usage) : ℤ :=
  if usage.usageSemantic = "anthropic" then usage.claudeCacheCreation5mTokens
  else usage.promptTokensDetails.cachedCreationTokens

def Usage.cc1h (usage : Usage) : ℤ :=
  if usage.usageSemantic = "anthropic" then usage.claudeCacheCreation1hTokens else 0

/-- The input tokens that have a price of their own. -/
def Usage.pricedInput (usage : Usage) (used : String → Bool) : ℤ :=
  priced used "cr" usage.promptTokensDetails.cachedTokens + priced used "cc" usage.cc5m +
    priced used "cc1h" usage.cc1h + priced used "img" usage.promptTokensDetails.imageTokens +
    priced used "ai" usage.promptTokensDetails.audioTokens

def Usage.pricedOutput (usage : Usage) (used : String → Bool) : ℤ :=
  priced used "img_o" usage.completionTokenDetails.imageTokens +
    priced used "ao" usage.completionTokenDetails.audioTokens

theorem priced_cast (used : String → Bool) (name : String) (n : ℤ) :
    priced used name (n : ℚ) = ((priced used name n : ℤ) : ℚ) := by
  unfold priced
  split <;> simp

/-- In either format the expression sees the usage's own details. -/
theorem build_details (usage : Usage) (isClaude : Bool) (used : String → Bool) :
    ∃ p c len : ℤ, buildTieredTokenParams usage isClaude used =
      ⟨p, c, len, usage.promptTokensDetails.cachedTokens, usage.cc5m, usage.cc1h,
        usage.promptTokensDetails.imageTokens, usage.completionTokenDetails.imageTokens,
        usage.promptTokensDetails.audioTokens, usage.completionTokenDetails.audioTokens⟩ ∧
      p = max 0 (usage.promptTokens - if isClaude then 0 else usage.pricedInput used) ∧
      c = max 0 (usage.completionTokens - if isClaude then 0 else usage.pricedOutput used) ∧
      len = usage.promptTokens + if isClaude then
        usage.promptTokensDetails.cachedTokens + usage.cc5m + usage.cc1h else 0 := by
  refine ⟨_, _, _, ?_, rfl, rfl, rfl⟩
  cases isClaude with
  | true =>
    simp [buildTieredTokenParams, Usage.cc5m, Usage.cc1h]
    ring
  | false =>
    simp [buildTieredTokenParams, Usage.cc5m, Usage.cc1h, Usage.pricedInput, Usage.pricedOutput,
      priced]
    constructor
    · congr 1
      ring
    · congr 1
      ring

/-- `PricedOnce` in whole tokens. -/
theorem pricedOnce_iff {u : PhysicalUsage} {usage : Usage} {isClaude : Bool} {used : String → Bool} :
    PricedOnce u used (buildTieredTokenParams usage isClaude used) ↔
      max 0 (usage.promptTokens - if isClaude then 0 else usage.pricedInput used) +
          usage.pricedInput used = u.totalInput ∧
        max 0 (usage.completionTokens - if isClaude then 0 else usage.pricedOutput used) +
          usage.pricedOutput used = u.totalOutput ∧
        (usage.promptTokens + if isClaude then
          usage.promptTokensDetails.cachedTokens + usage.cc5m + usage.cc1h else 0) = u.totalInput := by
  obtain ⟨p, c, len, hbuild, rfl, rfl, rfl⟩ := build_details usage isClaude used
  rw [hbuild]
  generalize max 0 (usage.promptTokens - if isClaude then 0 else usage.pricedInput used) = p
  generalize max 0 (usage.completionTokens - if isClaude then 0 else usage.pricedOutput used) = c
  constructor
  · rintro ⟨hin, hout, hlen⟩
    simp only [priced_cast] at hin hout
    dsimp only at hlen
    refine ⟨?_, ?_, by exact_mod_cast hlen⟩
    · unfold Usage.pricedInput
      have : p + priced used "cr" usage.promptTokensDetails.cachedTokens + priced used "cc" usage.cc5m +
          priced used "cc1h" usage.cc1h + priced used "img" usage.promptTokensDetails.imageTokens +
          priced used "ai" usage.promptTokensDetails.audioTokens = u.totalInput := by exact_mod_cast hin
      omega
    · unfold Usage.pricedOutput
      have : c + priced used "img_o" usage.completionTokenDetails.imageTokens +
          priced used "ao" usage.completionTokenDetails.audioTokens = u.totalOutput := by
        exact_mod_cast hout
      omega
  · rintro ⟨hin, hout, hlen⟩
    unfold Usage.pricedInput at hin
    unfold Usage.pricedOutput at hout
    constructor
    · simp only [priced_cast]
      norm_cast
      omega
    · simp only [priced_cast]
      norm_cast
      omega
    · dsimp only
      exact_mod_cast hlen

/-! ## OpenAI's format -/

theorem priced_nonneg (used : String → Bool) (name : String) {n : ℤ} (h : 0 ≤ n) :
    0 ≤ priced used name n ∧ priced used name n ≤ n := by
  unfold priced
  split <;> omega

variable {u : PhysicalUsage} {used : String → Bool} {o c : Usage}

variable (used) in
/-- OpenAI's totals have every token once, whatever the expression uses. -/
theorem openAI_pricedOnce (h : EncodesOpenAI u o) :
    PricedOnce u used (buildTieredTokenParams o false used) := by
  have hcr := priced_nonneg used "cr" (Int.natCast_nonneg u.cacheRead)
  have hcc := priced_nonneg used "cc" (Int.natCast_nonneg u.cacheCreation)
  have hcc1h := priced_nonneg used "cc1h" (le_refl (0 : ℤ))
  have himg := priced_nonneg used "img" (Int.natCast_nonneg u.image)
  have hai := priced_nonneg used "ai" (Int.natCast_nonneg u.audio)
  have himgO := priced_nonneg used "img_o" (Int.natCast_nonneg u.imageOut)
  have hao := priced_nonneg used "ao" (Int.natCast_nonneg u.audioOut)
  have hin : o.pricedInput used ≤ u.totalInput := by
    simp only [Usage.pricedInput, Usage.cc5m, Usage.cc1h, if_neg h.semantic, h.cached, h.created,
      h.image, h.audio, PhysicalUsage.totalInput]
    push_cast
    omega
  have hout : o.pricedOutput used ≤ u.totalOutput := by
    simp only [Usage.pricedOutput, h.imageOut, h.audioOut, PhysicalUsage.totalOutput]
    push_cast
    omega
  rw [pricedOnce_iff, h.prompt, h.completion]
  simp only [Bool.false_eq_true, ↓reduceIte]
  omega

/-! ## Claude's format -/

/-- Claude's usage splits all of its cache creation; the cache that the expression leaves
out is as much as the images and the audio that it prices again; and no output that it
prices is an image or audio. -/
structure CountsOnce (used : String → Bool) (usage : Usage) : Prop where
  split : usage.claudeCacheCreation5mTokens + usage.claudeCacheCreation1hTokens =
    usage.promptTokensDetails.cachedCreationTokens
  input : (usage.promptTokensDetails.cachedTokens -
      priced used "cr" usage.promptTokensDetails.cachedTokens) +
    (usage.claudeCacheCreation5mTokens - priced used "cc" usage.claudeCacheCreation5mTokens) +
    (usage.claudeCacheCreation1hTokens - priced used "cc1h" usage.claudeCacheCreation1hTokens) =
      priced used "img" usage.promptTokensDetails.imageTokens +
        priced used "ai" usage.promptTokensDetails.audioTokens
  output : priced used "img_o" usage.completionTokenDetails.imageTokens +
    priced used "ao" usage.completionTokenDetails.audioTokens = 0

theorem claude_pricedOnce_iff (h : EncodesClaude u c) :
    PricedOnce u used (buildTieredTokenParams c true used) ↔ CountsOnce used c := by
  have hprompt := h.prompt
  have hcompletion := h.completion
  have hcreated := h.created
  have hcached := h.cached
  rw [pricedOnce_iff]
  simp only [Usage.pricedInput, Usage.pricedOutput, Usage.cc5m, Usage.cc1h, h.semantic, ↓reduceIte,
    PhysicalUsage.totalInput, PhysicalUsage.totalOutput] at hcompletion ⊢
  push_cast at hcompletion ⊢
  constructor
  · rintro ⟨hin, hout, hlen⟩
    exact ⟨by omega, by omega, by omega⟩
  · rintro ⟨hsplit, hin, hout⟩
    refine ⟨by omega, by omega, by omega⟩

/-- What the two formats report of the cache creation, where the expression treats `cc` and
`cc1h` alike and Claude's usage splits all of it. -/
theorem priced_creation_eq (ho : EncodesOpenAI u o) (hc : EncodesClaude u c)
    (hboth : used "cc" = used "cc1h") (hsplit : CountsOnce used c) :
    priced used "cc" o.cc5m + priced used "cc1h" o.cc1h =
      priced used "cc" c.cc5m + priced used "cc1h" c.cc1h := by
  have hsum := hsplit.split
  have hcreated := hc.created
  unfold priced Usage.cc5m Usage.cc1h
  rw [if_neg ho.semantic, if_neg ho.semantic, if_pos hc.semantic, if_pos hc.semantic, ho.created,
    hboth]
  split <;> omega

/-- Where both price every token once, no expression that treats `cc` and `cc1h` alike can
tell them apart. -/
theorem view_eq (ho : EncodesOpenAI u o) (hc : EncodesClaude u c) (hboth : used "cc" = used "cc1h")
    (h : PricedOnce u used (buildTieredTokenParams c true used)) :
    TokenParams.view used (buildTieredTokenParams o false used) =
      TokenParams.view used (buildTieredTokenParams c true used) := by
  have hcreation := priced_creation_eq ho hc hboth ((claude_pricedOnce_iff hc).mp h)
  obtain ⟨hinO, houtO, hlenO⟩ := pricedOnce_iff.mp (openAI_pricedOnce used ho)
  obtain ⟨hinC, houtC, hlenC⟩ := pricedOnce_iff.mp h
  obtain ⟨p, out, len, hbuildO, hp, hout, hlen⟩ := build_details o false used
  obtain ⟨p', out', len', hbuildC, hp', hout', hlen'⟩ := build_details c true used
  have hin : o.pricedInput used = c.pricedInput used := by
    unfold Usage.pricedInput
    rw [ho.cached, ho.image, ho.audio, hc.cached, hc.image, hc.audio]
    omega
  have hpriced : o.pricedOutput used = c.pricedOutput used := by
    unfold Usage.pricedOutput
    rw [ho.imageOut, ho.audioOut, hc.imageOut, hc.audioOut]
  have hpp : p = p' := by omega
  have hoo : out = out' := by omega
  have hll : len = len' := by omega
  rw [hbuildO, hbuildC, hpp, hoo, hll]
  simp only [TokenParams.view, priced_cast, ho.cached, ho.image, ho.audio, ho.imageOut, ho.audioOut,
    hc.cached, hc.image, hc.audio, hc.imageOut, hc.audioOut, TokenParams.mk.injEq, true_and, and_true]
  exact_mod_cast hcreation

/-- **Both formats price every token once, and cost the same under every expression that
does not distinguish `cc` from `cc1h`, exactly when** Claude's usage counts once. -/
theorem tiered_prices_once_iff (u : PhysicalUsage) (used : String → Bool) (o c : Usage)
    (ho : EncodesOpenAI u o) (hc : EncodesClaude u c) :
    (PricedOnce u used (buildTieredTokenParams o false used) ∧
      PricedOnce u used (buildTieredTokenParams c true used) ∧
      ∀ cost, Undistinguishing used cost →
        cost (buildTieredTokenParams o false used) = cost (buildTieredTokenParams c true used)) ↔
      CountsOnce used c := by
  rw [← claude_pricedOnce_iff hc]
  constructor
  · rintro ⟨-, h, -⟩
    exact h
  · intro h
    refine ⟨openAI_pricedOnce used ho, h, fun cost hcost => ?_⟩
    exact hcost.reads _ _ (view_eq ho hc hcost.both h)

/-! ## A usage that is not split -/

/-- A prompt of 100 tokens after 900 that Claude cached for an hour. -/
def cachedUsage : PhysicalUsage := ⟨100, 0, 0, 900, 0, 0, 50, 0, 0⟩

def cachedOpenAI : Usage := ⟨1000, 50, "", "", ⟨0, 900, 0, 0⟩, ⟨0, 0⟩, 0, 0, none⟩

def cachedClaude (split : ℤ) : Usage :=
  ⟨100, 50, "anthropic", "", ⟨0, 900, 0, 0⟩, ⟨0, 0⟩, 0, split, none⟩

def cacheVars (name : String) : Bool := name = "cc" ∨ name = "cc1h"

theorem cached_openAI : EncodesOpenAI cachedUsage cachedOpenAI :=
  ⟨⟨rfl, rfl, rfl, rfl, rfl, rfl, rfl⟩, rfl, by decide⟩

theorem cached_claude {split : ℤ} (h0 : 0 ≤ split) (h : split ≤ 900) :
    EncodesClaude cachedUsage (cachedClaude split) :=
  ⟨⟨rfl, rfl, rfl, rfl, rfl, rfl, rfl⟩, rfl, rfl, le_refl _, h0, by
    simpa [cachedClaude, cachedUsage, PhysicalUsage.cacheCreation] using h⟩

theorem tiered_prices_once_split :
    (PricedOnce cachedUsage cacheVars (buildTieredTokenParams cachedOpenAI false cacheVars) ∧
      PricedOnce cachedUsage cacheVars (buildTieredTokenParams (cachedClaude 900) true cacheVars) ∧
      ∀ cost, Undistinguishing cacheVars cost →
        cost (buildTieredTokenParams cachedOpenAI false cacheVars) =
          cost (buildTieredTokenParams (cachedClaude 900) true cacheVars)) ↔
      CountsOnce cacheVars (cachedClaude 900) :=
  tiered_prices_once_iff cachedUsage cacheVars cachedOpenAI (cachedClaude 900) cached_openAI
    (cached_claude (by decide) (by decide))

/-- Without the split the 900 tokens are neither counted nor priced. -/
theorem unsplit_not_priced :
    EncodesOpenAI cachedUsage cachedOpenAI ∧ EncodesClaude cachedUsage (cachedClaude 0) ∧
      ¬ (PricedOnce cachedUsage cacheVars (buildTieredTokenParams cachedOpenAI false cacheVars) ∧
        PricedOnce cachedUsage cacheVars (buildTieredTokenParams (cachedClaude 0) true cacheVars) ∧
        ∀ cost, Undistinguishing cacheVars cost →
          cost (buildTieredTokenParams cachedOpenAI false cacheVars) =
            cost (buildTieredTokenParams (cachedClaude 0) true cacheVars)) := by
  refine ⟨cached_openAI, cached_claude (by decide) (by decide), fun h => ?_⟩
  have hlen := (pricedOnce_iff.mp h.2.1).2.2
  revert hlen
  decide

end Relay
