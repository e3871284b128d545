import GMasterApi.Relay.Retry

/-!
# The group that serves a request

The price of a request follows it from group to group, the ratio in a tiered snapshot
does not.  So all components of the settled quota have the ratio of the group that
served exactly where a tiered cost is indifferent to the change
(`one_group_ratio_iff`).
-/

namespace Relay

open Billing Pricing GoFloat GoMap GoString

variable {settings : TextQuotaSettings} {engine : ExprEngine} {ctx : TextContext} {info : RelayInfo}
  {usage : Option Usage} {r : ℚ}

/-! ## Components and their ratio -/

theorem toolCalls_scale (settings : TextQuotaSettings) (dGroupRatio price : ℚ) (callCount : ℤ) :
    settings.toolCalls dGroupRatio price callCount = settings.toolCalls 1 price callCount * dGroupRatio := by
  unfold TextQuotaSettings.toolCalls
  split
  · ring
  · rw [zero_mul]

theorem audioInput_scale (settings : TextQuotaSettings) (dGroupRatio price : ℚ) (audioTokens : ℤ) :
    settings.audioInput dGroupRatio price audioTokens =
      settings.audioInput 1 price audioTokens * dGroupRatio := by
  unfold TextQuotaSettings.audioInput
  split
  · ring
  · rw [zero_mul]

/-- The surcharges are in proportion to the ratio. -/
theorem surcharge_scale (settings : TextQuotaSettings) (ctx : TextContext) (modelName : String)
    (dGroupRatio : ℚ) :
    calculateTextToolCallSurcharge settings ctx modelName dGroupRatio =
      calculateTextToolCallSurcharge settings ctx modelName 1 * dGroupRatio := by
  unfold calculateTextToolCallSurcharge
  dsimp only
  rw [add_mul, add_mul, add_mul, ← toolCalls_scale]
  refine congrArg₂ (· + ·) (congrArg₂ (· + ·) (congrArg₂ (· + ·) ?_ ?_) rfl) ?_
  · split
    · exact toolCalls_scale _ _ _ _
    split
    · exact toolCalls_scale _ _ _ _
    · rw [zero_mul]
  · split
    · ring
    · rw [zero_mul]
  · split
    · ring
    · rw [zero_mul]

def Components.scale (c : Components) (r : ℚ) : Components := ⟨c.cost * r, c.tools * r, c.audio * r⟩

/-- The request in a group of ratio `r`. -/
def RelayInfo.atRatio (info : RelayInfo) (r : ℚ) : RelayInfo :=
  { info with priceData := { info.priceData with
      groupRatioInfo := { info.priceData.groupRatioInfo with groupRatio := r } } }

/-- The components of a text before the ratio of its group. -/
def baseComponents (settings : TextQuotaSettings) (ctx : TextContext) (info : RelayInfo)
    (usage : Option Usage) : Components :=
  textComponents settings ctx (info.atRatio 1) (textTokens settings ctx info usage)

theorem textComponents_scale :
    textComponents settings ctx info (textTokens settings ctx info usage) =
      (baseComponents settings ctx info usage).scale info.priceData.groupRatioInfo.groupRatio := by
  have hweighted : ∀ (t : TextTokens) (price : ℚ),
      t.weighted (info.atRatio 1).priceData price = t.weighted info.priceData price := fun _ _ => rfl
  have hname : (info.atRatio 1).originModelName = info.originModelName := rfl
  have hratio : (info.atRatio 1).priceData.groupRatioInfo.groupRatio = 1 := rfl
  have hmodel : (info.atRatio 1).priceData.modelRatio = info.priceData.modelRatio := rfl
  have huse : (info.atRatio 1).priceData.usePrice = info.priceData.usePrice := rfl
  have hprice : (info.atRatio 1).priceData.modelPrice = info.priceData.modelPrice := rfl
  unfold baseComponents textComponents Components.scale
  simp only [hweighted, hname, hratio, hmodel, huse, hprice]
  rw [surcharge_scale]
  split
  · rw [zero_mul, mul_one]
  · rw [audioInput_scale, mul_one, mul_assoc]

/-- The components of the quota that a request is settled at; a tiered request has the
cost of its expression instead of that of its tokens, or where the expression fails
the quota that was pre-consumed. -/
def settledComponents (settings : TextQuotaSettings) (engine : ExprEngine) (ctx : TextContext)
    (info : RelayInfo) (usage : Option Usage) : Components :=
  let components := textComponents settings ctx info (textTokens settings ctx info usage)
  match engine.settle ctx info usage, info.tieredBillingSnapshot with
  | some (_, some tr), some snap => ⟨tr.actualQuotaBeforeGroup * snap.groupRatio, components.tools, 0⟩
  | some (quota, _), _ => ⟨quota, components.tools, 0⟩
  | none, _ => components

/-- The same components with the one ratio `r`. -/
def componentsAt (settings : TextQuotaSettings) (engine : ExprEngine) (ctx : TextContext)
    (info : RelayInfo) (usage : Option Usage) (r : ℚ) : Components :=
  let base := baseComponents settings ctx info usage
  match engine.settle ctx info usage, info.tieredBillingSnapshot with
  | some (_, some tr), some _ => ⟨tr.actualQuotaBeforeGroup * r, base.tools * r, 0⟩
  | some (_, _), some snap => ⟨quotaRound (snap.estimatedQuotaBeforeGroup * r), base.tools * r, 0⟩
  | _, _ => base.scale r

/-- The cost of a tiered request before the ratio of its group; `none` for another. -/
def ExprEngine.costBeforeGroup (engine : ExprEngine) (ctx : TextContext) (info : RelayInfo)
    (usage : Option Usage) : Option (Except String ℚ) :=
  match usage, info.tieredBillingSnapshot with
  | some u, some snap =>
    if snap.billingMode ≠ "tiered_expr" then none
    else
      let isClaude := decide (usageSemanticFromUsage ctx usage = "anthropic")
      let params := buildTieredTokenParams u isClaude (engine.usedVars snap.exprString)
      some ((engine.runExpr snap.exprString params (info.billingRequestInput.getD .empty)).map fun out =>
        quotaConversion out.1 snap)
  | _, _ => none

/-- A tiered cost that was frozen with the ratio `first` and does not change with `r`: it is
0, or the ratios are one; where the expression fails, what was pre-consumed is the
estimate with the ratio `r`. -/
def Indifferent (first r estimate : ℚ) (preConsumedQuota : ℤ) : Except String ℚ → Prop
  | .ok cost => cost = 0 ∨ first = r
  | .error _ => (if preConsumedQuota ≤ 0 then quotaRound (estimate * first) else preConsumedQuota) =
      quotaRound (estimate * r)

/-- A snapshot that was frozen with the ratio `first`. -/
structure FrozenAt (first : ℚ) (snap : BillingSnapshot) : Prop where
  groupRatio : snap.groupRatio = first
  estimate : snap.estimatedQuotaAfterGroup = quotaRound (snap.estimatedQuotaBeforeGroup * first)

/-- How the cost of a tiered request is settled. -/
theorem settle_cases (engine : ExprEngine) (ctx : TextContext) (info : RelayInfo) (usage : Option Usage) :
    (engine.costBeforeGroup ctx info usage = none ∧ engine.settle ctx info usage = none) ∨
      ∃ snap, info.tieredBillingSnapshot = some snap ∧
        ((∃ e, engine.costBeforeGroup ctx info usage = some (.error e) ∧
            engine.settle ctx info usage = some (if info.finalPreConsumedQuota ≤ 0
              then snap.estimatedQuotaAfterGroup else info.finalPreConsumedQuota, none)) ∨
          ∃ tr, engine.costBeforeGroup ctx info usage = some (.ok tr.actualQuotaBeforeGroup) ∧
            tr.actualQuotaAfterGroup = quotaRound (tr.actualQuotaBeforeGroup * snap.groupRatio) ∧
            engine.settle ctx info usage = some (tr.actualQuotaAfterGroup, some tr)) := by
  unfold ExprEngine.costBeforeGroup ExprEngine.settle tryTieredSettle
  cases usage with
  | none => exact .inl ⟨rfl, rfl⟩
  | some u =>
    cases hsnap : info.tieredBillingSnapshot with
    | none => exact .inl ⟨rfl, rfl⟩
    | some snap =>
      dsimp only [Option.bind_some]
      by_cases hmode : snap.billingMode ≠ "tiered_expr"
      · rw [if_pos hmode, if_pos hmode]
        exact .inl ⟨rfl, rfl⟩
      rw [if_neg hmode, if_neg hmode]
      refine .inr ⟨snap, rfl, ?_⟩
      unfold computeTieredQuota
      cases engine.runExpr snap.exprString _ (info.billingRequestInput.getD .empty) with
      | error e => exact .inl ⟨e, rfl, rfl⟩
      | ok out => exact .inr ⟨_, rfl, rfl, rfl⟩

/-- The components have one ratio exactly where a tiered cost is indifferent to it. -/
theorem settledComponents_iff {first : ℚ} (hratio : info.priceData.groupRatioInfo.groupRatio = r)
    (hfrozen : ∀ snap, info.tieredBillingSnapshot = some snap → FrozenAt first snap) :
    settledComponents settings engine ctx info usage = componentsAt settings engine ctx info usage r ↔
      ∀ snap cost, info.tieredBillingSnapshot = some snap →
        engine.costBeforeGroup ctx info usage = some cost →
          Indifferent first r snap.estimatedQuotaBeforeGroup info.finalPreConsumedQuota cost := by
  have hbase := @textComponents_scale settings ctx info usage
  rw [hratio] at hbase
  unfold settledComponents componentsAt
  dsimp only
  rw [hbase]
  rcases settle_cases engine ctx info usage with ⟨hcost, hsettle⟩ |
    ⟨snap, hsnap, ⟨e, hcost, hsettle⟩ | ⟨tr, hcost, -, hsettle⟩⟩
  · rw [hsettle, hcost]
    refine ⟨fun _ snap cost _ h => ?_, fun _ => rfl⟩
    cases h
  · rw [hsettle, hcost, hsnap, (hfrozen snap hsnap).estimate]
    dsimp only [Components.scale]
    constructor
    · intro h snap' cost hsnap' hcost'
      obtain rfl := Option.some.inj hsnap'
      obtain rfl := Option.some.inj hcost'
      exact Int.cast_injective (congrArg Components.cost h)
    · intro h
      have hsame : _ = quotaRound (snap.estimatedQuotaBeforeGroup * r) := h snap _ rfl rfl
      rw [hsame]
  · rw [hsettle, hcost, hsnap]
    dsimp only [Components.scale]
    rw [(hfrozen snap hsnap).groupRatio]
    constructor
    · intro h snap' cost hsnap' hcost'
      obtain rfl := Option.some.inj hsnap'
      obtain rfl := Option.some.inj hcost'
      have hmul : tr.actualQuotaBeforeGroup * first = tr.actualQuotaBeforeGroup * r :=
        congrArg Components.cost h
      exact (mul_eq_mul_left_iff.mp hmul).symm
    · intro h
      rcases h snap _ rfl rfl with hz | hsame
      · rw [hz, zero_mul, zero_mul]
      · rw [hsame]

/-! ## The attempts -/

theorem handleGroupRatio_eq (groups : GroupRatioSetting) (autoGroup : Option String)
    (userGroup usingGroup : String) :
    handleGroupRatio groups autoGroup userGroup usingGroup =
      handleGroupRatio groups none userGroup (autoGroup.getD usingGroup) := rfl

/-- A selection among the auto groups leaves the group of its channel in the context. -/
theorem selectAuto_group {settings : SelectSettings} {satisfied : Satisfied} :
    ∀ (autoGroups : List String) (i priorityRetry : ℕ) (c : Context) (p : RetryParam) (channel : ℕ),
      (selectAuto settings satisfied autoGroups i priorityRetry c p).channel = some channel →
      (selectAuto settings satisfied autoGroups i priorityRetry c p).c.autoGroup =
        some (selectAuto settings satisfied autoGroups i priorityRetry c p).group := by
  intro autoGroups
  induction autoGroups with
  | nil =>
    intro i priorityRetry c p channel h
    cases h
  | cons autoGroup groups ih =>
    intro i priorityRetry c p channel h
    unfold selectAuto at h ⊢
    split
    · split <;> rfl
    · rename_i hnone
      split at h
      · rename_i ch hsome
        exact absurd hsome (hnone ch)
      · exact ih _ _ _ _ channel h

/-- A channel of a token of group `auto` is of the group that is left in the context. -/
theorem selected_group {settings : SelectSettings} {satisfied : Satisfied} {c : Context}
    {p : RetryParam} {selected : Selected} {channel : ℕ} {x : Unit}
    (h : cacheGetRandomSatisfiedChannel settings satisfied "auto" c p = (selected, .ok x))
    (hchannel : selected.channel = some channel) : selected.c.autoGroup = some selected.group := by
  unfold cacheGetRandomSatisfiedChannel at h
  rw [if_pos rfl] at h
  split at h
  · cases h
  · rw [← (Prod.mk.inj h).1] at hchannel ⊢
    exact selectAuto_group _ _ _ _ _ channel hchannel

/-- The price of a request is that of the group of its last attempt; its snapshot is the
one it started with. -/
structure Follows (groups : GroupRatioSetting) (start : RelayInfo) (s : Trying) : Prop where
  userGroup : s.info.userGroup = start.userGroup
  tokenGroup : s.info.tokenGroup = start.tokenGroup
  snapshot : s.info.tieredBillingSnapshot = start.tieredBillingSnapshot
  group : s.c.autoGroup.getD s.info.usingGroup = s.group
  ratio : s.info.priceData.groupRatioInfo = (handleGroupRatio groups none start.userGroup s.group).2

variable {groups : GroupRatioSetting} {start : RelayInfo} {s s' : Trying} {a : Attempt}

theorem getChannel_follows {selecting : SelectSettings} (htoken : start.tokenGroup = "auto")
    (h : Follows groups start s) (hget : getChannel selecting groups a s = (s', none)) :
    Follows groups start s' := by
  unfold getChannel at hget
  split at hget
  · rw [← (Prod.mk.inj hget).1]
    exact h
  rw [h.tokenGroup, htoken] at hget
  generalize hsel : cacheGetRandomSatisfiedChannel selecting a.satisfied "auto" s.c s.p = out at hget
  obtain ⟨selected, result⟩ := out
  dsimp only at hget
  split at hget
  · cases hget
  · cases hget
  rename_i channel hchannel
  have hgroup := selected_group hsel hchannel
  rw [← (Prod.mk.inj hget).1]
  refine ⟨h.userGroup, h.tokenGroup, h.snapshot, ?_, ?_⟩
  · show selected.c.autoGroup.getD _ = selected.group
    rw [hgroup]
    rfl
  · show (handleGroupRatio groups selected.c.autoGroup s.info.userGroup s.info.usingGroup).2 = _
    rw [handleGroupRatio_eq, hgroup, h.userGroup]
    rfl

/-- Whatever attempts fail, the one that serves the request has the price of its group. -/
theorem relayAttempts_follows {settings : RetrySettings} (htoken : start.tokenGroup = "auto") :
    ∀ (attempts : List Attempt) (s : Trying), Follows groups start s →
      ∀ {s' : Trying} {ctx : TextContext} {usage : Option Usage},
        relayAttempts settings groups attempts s = .served s' ctx usage → Follows groups start s' := by
  intro attempts
  induction attempts with
  | nil =>
    intro s _ s' ctx usage h
    cases h
  | cons a attempts ih =>
    intro s hs s' ctx usage h
    unfold relayAttempts at h
    split at h
    · cases h
    generalize hget : getChannel settings.toSelectSettings groups a s = got at h
    obtain ⟨t, fault⟩ := got
    cases fault with
    | some e => cases h
    | none =>
      have ht := getChannel_follows htoken hs hget
      cases hbody : a.bodyFault with
      | some e =>
        rw [hbody] at h
        cases h
      | none =>
        rw [hbody] at h
        cases hreply : a.reply with
        | served ctx' otherRatios usage' =>
          rw [hreply] at h
          cases h
          exact ⟨ht.userGroup, ht.tokenGroup, ht.snapshot, ht.group, ht.ratio⟩
        | failed e =>
          rw [hreply] at h
          dsimp only at h
          have hnext : Follows groups start { t.fail e with p := t.p.increaseRetry } :=
            ⟨ht.userGroup, ht.tokenGroup, ht.snapshot, ht.group, ht.ratio⟩
          split at h
          · exact ih _ hnext h
          · cases h

/-! ## The request -/

/-- A price is that of the group in use, and freezes its ratio. -/
theorem modelPriceHelper_eq_ok {settings : TextPriceSettings} {runExpr : RunExpr}
    {autoGroup : Option String} {request : PriceRequest} {userGroup usingGroup group : String}
    {priced : Pricing.Priced}
    (h : modelPriceHelper settings runExpr autoGroup request userGroup usingGroup =
      (group, .ok priced)) :
    group = autoGroup.getD usingGroup ∧
      priced.priceData.groupRatioInfo =
        (handleGroupRatio settings.groups autoGroup userGroup usingGroup).2 ∧
      ∀ out, priced.snapshot = some out →
        FrozenAt (handleGroupRatio settings.groups autoGroup userGroup usingGroup).2.groupRatio out.1 := by
  have hgroup := handleGroupRatio_group settings.groups autoGroup userGroup usingGroup
  unfold modelPriceHelper at h
  generalize handleGroupRatio settings.groups autoGroup userGroup usingGroup = handled at h hgroup ⊢
  obtain ⟨g, ratioInfo⟩ := handled
  dsimp only at h hgroup ⊢
  split at h
  · obtain ⟨rfl, htiered⟩ := Prod.mk.inj h
    refine ⟨hgroup, ?_⟩
    unfold modelPriceHelperTiered at htiered
    dsimp only at htiered
    split at htiered
    · cases htiered
    split at htiered
    · cases htiered
    split at htiered
    · cases htiered
    rw [← Except.ok.inj htiered]
    refine ⟨rfl, fun out hout => ?_⟩
    rw [← Option.some.inj hout]
    refine ⟨rfl, ?_⟩
    show (if _ then (0 : ℤ) else _) = _
    split
    · rename_i hfree
      simp only [Bool.and_eq_true, decide_eq_true_eq] at hfree
      rw [hfree.2, mul_zero]
      exact roundAway_zero.symm
    · rfl
  split at h
  · obtain ⟨rfl, hmap⟩ := Prod.mk.inj h
    obtain ⟨priceData, hratio, rfl⟩ := map_eq_ok hmap
    refine ⟨hgroup, ?_, fun out hout => by cases hout⟩
    unfold TextPriceSettings.byRatio at hratio
    dsimp only at hratio
    split at hratio
    · cases hratio
    · rw [← Except.ok.inj hratio]
  · obtain ⟨rfl, hprice⟩ := Prod.mk.inj h
    rw [← Except.ok.inj hprice]
    exact ⟨hgroup, rfl, fun out hout => by cases hout⟩

/-- A request that is prepared follows the group that the middleware selected. -/
theorem prepare_follows {settings : RelaySettings} {env : RelayEnv} {c : Context} {w w' : World}
    {info prepared : RelayInfo} (hnone : info.tieredBillingSnapshot = none)
    (h : prepare settings env c w info = (w', .ok prepared)) :
    prepared.userGroup = info.userGroup ∧ prepared.tokenGroup = info.tokenGroup ∧
      prepared.usingGroup = c.autoGroup.getD info.usingGroup ∧
      prepared.priceData.groupRatioInfo =
        (handleGroupRatio settings.prices.groups c.autoGroup info.userGroup info.usingGroup).2 ∧
      ∀ snap, prepared.tieredBillingSnapshot = some snap →
        FrozenAt (handleGroupRatio settings.prices.groups c.autoGroup info.userGroup
          info.usingGroup).2.groupRatio snap := by
  unfold prepare at h
  split at h
  · cases h
  rename_i group priced hprice
  obtain ⟨hgroup, hratio, hfrozen⟩ := modelPriceHelper_eq_ok hprice
  have hsnap : ∀ snap, (priced.snapshot.map Prod.fst).or info.tieredBillingSnapshot = some snap →
      FrozenAt (handleGroupRatio settings.prices.groups c.autoGroup info.userGroup
        info.usingGroup).2.groupRatio snap := by
    intro snap hs
    rw [hnone, Option.or_none] at hs
    obtain ⟨out, hout, rfl⟩ := Option.map_eq_some_iff.mp hs
    exact hfrozen out hout
  dsimp only at h
  split at h
  · rw [← Except.ok.inj (Prod.mk.inj h).2]
    exact ⟨rfl, rfl, hgroup, hratio, hsnap⟩
  split at h
  · cases h
  · rw [← Except.ok.inj (Prod.mk.inj h).2]
    exact ⟨rfl, rfl, hgroup, hratio, hsnap⟩

/-- The ratio that `HandleGroupRatio` returns for the users of `userGroup` in `group`. -/
def groupRatioOf (groups : GroupRatioSetting) (userGroup group : String) : ℚ :=
  (handleGroupRatio groups none userGroup group).2.groupRatio

/-- Every component of the settled quota has the ratio of the group that served. -/
def OneGroupRatio (settings : RelaySettings) (env : RelayEnv) (userGroup : String) (served : Served) :
    Prop :=
  settledComponents settings.text env.engine served.ctx served.info served.usage =
    componentsAt settings.text env.engine served.ctx served.info served.usage
      (groupRatioOf settings.prices.groups userGroup served.group)

theorem relay_eq_served {settings : RelaySettings} {env : RelayEnv} {c : Context}
    {attempts : List Attempt} {w : World} {info : RelayInfo} {served : Served}
    (h : (relay settings env c attempts w info).2 = some served) :
    ∃ w' prepared s, prepare settings env c w info = (w', .ok prepared) ∧
      relayAttempts settings.toRetrySettings settings.prices.groups attempts
          ⟨c, ⟨0, false⟩, prepared, false, none, c.autoGroup.getD info.usingGroup⟩ =
        .served s served.ctx served.usage ∧
      served.info = s.info ∧ served.group = s.group ∧
      served.quota = postTextQuota settings.text env.engine served.ctx served.info served.usage := by
  unfold relay at h
  split at h
  · cases h
  rename_i w' prepared hprepare
  dsimp only at h
  split at h
  · cases h
  · cases h
  · rename_i s ctx usage hserved
    obtain rfl := Option.some.inj h
    exact ⟨w', prepared, s, hprepare, hserved, rfl, rfl, rfl⟩

/-- **One group ratio** for the whole of a settled quota, exactly where the cost of a tiered
request is indifferent between the ratio of the group it was pre-consumed in and that of
the group that served it. -/
theorem one_group_ratio_iff (settings : RelaySettings) (env : RelayEnv) (c : Context)
    (attempts : List Attempt) (w : World) (info : RelayInfo) (served : Served)
    (htoken : info.tokenGroup = "auto") (hnone : info.tieredBillingSnapshot = none)
    (h : (relay settings env c attempts w info).2 = some served) :
    OneGroupRatio settings env info.userGroup served ↔
      ∀ snap cost, served.info.tieredBillingSnapshot = some snap →
        env.engine.costBeforeGroup served.ctx served.info served.usage = some cost →
          Indifferent
            (groupRatioOf settings.prices.groups info.userGroup (c.autoGroup.getD info.usingGroup))
            (groupRatioOf settings.prices.groups info.userGroup served.group)
            snap.estimatedQuotaBeforeGroup served.info.finalPreConsumedQuota cost := by
  obtain ⟨w', prepared, s, hprepare, hserved, hinfo, hgroup, -⟩ := relay_eq_served h
  obtain ⟨huser, htok, husing, hratio, hfrozen⟩ := prepare_follows hnone hprepare
  rw [handleGroupRatio_eq] at hratio hfrozen
  have hstart : Follows settings.prices.groups prepared
      ⟨c, ⟨0, false⟩, prepared, false, none, c.autoGroup.getD info.usingGroup⟩ := {
    userGroup := rfl
    tokenGroup := rfl
    snapshot := rfl
    group := by
      show c.autoGroup.getD prepared.usingGroup = c.autoGroup.getD info.usingGroup
      rw [husing]
      cases c.autoGroup <;> rfl
    ratio := by
      rw [huser]
      exact hratio }
  have hfollows := relayAttempts_follows (htok.trans htoken) attempts _ hstart hserved
  have hserves : served.info.priceData.groupRatioInfo.groupRatio =
      groupRatioOf settings.prices.groups info.userGroup served.group := by
    rw [hinfo, hfollows.ratio, huser, hgroup]
    rfl
  refine settledComponents_iff hserves fun snap hsnap => ?_
  rw [hinfo, hfollows.snapshot] at hsnap
  exact hfrozen snap hsnap

/-- A model that costs 2 for a million tokens, where `vip` costs twice as much. -/
def tieredSettings : RelaySettings where
  autoGroupsEnabled := true
  userAutoGroups := ["default", "vip"]
  crossGroupRetry := true
  retryTimes := 1
  affinityFailure := false
  specificChannel := false
  isAlwaysSkipRetryCode _ := false
  shouldRetryByStatusCode code := decide (500 ≤ code)
  prices :=
    { groups := ⟨fun group => if group = "vip" then some 2 else none, fun _ => none⟩
      getModelPrice _ := none
      defaultModelPrice _ := none
      getModelRatio name := ⟨0, false, name⟩
      quotaPerUnit := 500000
      enableFreeModelPreConsume := false
      taskPricePatches := []
      isAdmin _ := false
      getBillingMode _ := "tiered_expr"
      getBillingExpr _ := some "p * 2"
      getCompletionRatio _ := 1
      getCacheRatio _ := 1
      getCreateCacheRatio _ := 1
      getImageRatio _ := 1
      getAudioRatio _ := 1
      getAudioCompletionRatio _ := 1
      preConsumedQuota := 500 }
  text := ⟨500000, fun _ _ => 10, fun _ _ => 0, fun _ => 0, fun _ => none⟩
  billing := sampleSettings

def tieredRun : RunExpr := fun _ params _ => .ok (params.p * 2, "")

def tieredEnv : RelayEnv :=
  ⟨tieredRun, ⟨tieredRun, fun _ _ => false⟩, ⟨0, 0⟩, .ok .empty, quietCreate, ⟨.none, none⟩, .none⟩

def tieredInfo : RelayInfo :=
  { sampleInfo with
    usingGroup := "auto"
    userGroup := "default"
    tokenGroup := "auto"
    originModelName := "gpt-5"
    acceptUnsetRatioModel := false
    estimatePromptTokens := 50
    priceData := .zero
    tieredBillingSnapshot := none
    billingRequestInput := none
    billing := none }

/-- The channel of `default` fails and is disabled; the one of `vip` serves 1000 tokens and
one web search. -/
def tieredAttempts : List Attempt :=
  [{ satisfied := fun _ _ => .ok none
     setupFault := none
     bodyFault := none
     reply := .failed ⟨"upstream error", "bad_response_status_code", 500, false⟩ },
   { satisfied := fun group _ => .ok (if group = "vip" then some 2 else none)
     setupFault := none
     bodyFault := none
     reply := .served
       ⟨false, none, some (Map.empty.put "web_search_preview" 1), 0, none⟩ .none
       (some ⟨1000, 0, "", "", ⟨0, 0, 0, 0⟩, ⟨0, 0⟩, 0, 0, none⟩) }]

theorem one_group_ratio_iff_sample :
    ∃ served, (relay tieredSettings tieredEnv ⟨some "default", some 0⟩ tieredAttempts sampleWorld
        tieredInfo).2 = some served ∧
      (OneGroupRatio tieredSettings tieredEnv "default" served ↔
        ∀ snap cost, served.info.tieredBillingSnapshot = some snap →
          tieredEnv.engine.costBeforeGroup served.ctx served.info served.usage = some cost →
            Indifferent (groupRatioOf tieredSettings.prices.groups "default" "default")
              (groupRatioOf tieredSettings.prices.groups "default" served.group)
              snap.estimatedQuotaBeforeGroup served.info.finalPreConsumedQuota cost) := by
  have hsome : (relay tieredSettings tieredEnv ⟨some "default", some 0⟩ tieredAttempts sampleWorld
      tieredInfo).2.isSome = true := by decide +kernel
  obtain ⟨served, hserved⟩ := Option.isSome_iff_exists.mp hsome
  exact ⟨served, hserved, one_group_ratio_iff tieredSettings tieredEnv ⟨some "default", some 0⟩
    tieredAttempts sampleWorld tieredInfo served rfl rfl hserved⟩

/-- The tokens are settled at the ratio of `default`, the web search at that of `vip`. -/
theorem tiered_two_ratios :
    ∃ served, (relay tieredSettings tieredEnv ⟨some "default", some 0⟩ tieredAttempts sampleWorld
        tieredInfo).2 = some served ∧ served.group = "vip" ∧ served.quota = 11000 ∧
      ¬ OneGroupRatio tieredSettings tieredEnv "default" served := by
  have hrun : (relay tieredSettings tieredEnv ⟨some "default", some 0⟩ tieredAttempts sampleWorld
      tieredInfo).2.map (fun served => (served.group, served.quota,
        settledComponents tieredSettings.text tieredEnv.engine served.ctx served.info served.usage,
        componentsAt tieredSettings.text tieredEnv.engine served.ctx served.info served.usage
          (groupRatioOf tieredSettings.prices.groups "default" served.group))) =
      some ("vip", 11000, ⟨1000, 10000, 0⟩, ⟨2000, 10000, 0⟩) := by decide +kernel
  obtain ⟨served, hserved, hvalues⟩ := Option.map_eq_some_iff.mp hrun
  obtain ⟨hgroup, hvalues⟩ := Prod.mk.inj hvalues
  obtain ⟨hquota, hvalues⟩ := Prod.mk.inj hvalues
  obtain ⟨hsettled, hone⟩ := Prod.mk.inj hvalues
  refine ⟨served, hserved, hgroup, hquota, fun h => ?_⟩
  unfold OneGroupRatio at h
  rw [hsettled, hone] at h
  have hcost := congrArg Components.cost h
  norm_num at hcost

end Relay
