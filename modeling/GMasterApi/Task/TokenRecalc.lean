import GMasterApi.Task.Relay

/-!
# Pricing of a task by its tokens

`RecalculateTaskQuotaByTokens` looks the ratio of a completed task up again, for the
task's group as both the user's group and the group that is used.  It is the ratio of
the submission exactly where the tables say the same for both pairs
(`token_ratio_iff`).
-/

namespace Tasks

open Billing Pricing GoMap

/-! ## The recalculation -/

def SubmittedTask.taskModelName (task : SubmittedTask) : String :=
  if task.billingContext.originModelName ≠ "" then task.billingContext.originModelName
  else task.originModelName

/-- The group that a task is priced for: its own, or that of its user if that is found. -/
def SubmittedTask.pricedGroup (task : SubmittedTask) (userGroup : Option String) : Option String :=
  let group := if task.group ≠ "" then task.group else userGroup.getD ""
  if group = "" then none else some group

/-- The product of the ratios other than 1, which are positive. -/
def otherMultiplier (order : Order (String × ℚ)) (ratios : OtherRatios) : ℚ :=
  (order.range ratios.ratios.entries).foldl
    (fun product e => if e.2 ≠ 1 ∧ 0 < e.2 then product * e.2 else product) 1

structure TokenPrice where
  groupRatio : ℚ
  actualQuota : ℤ
  deriving DecidableEq

/-- The price by tokens, for a model with a ratio. -/
def tokenPrice (prices : PriceSettings) (order : Order (String × ℚ)) (userGroup : Option String)
    (task : SubmittedTask) (totalTokens : ℤ) : Option TokenPrice :=
  if totalTokens ≤ 0 then none
  else
    let modelRatio := prices.getModelRatio task.taskModelName
    if !modelRatio.found || decide (modelRatio.ratio ≤ 0) then none
    else match task.pricedGroup userGroup with
    | none => none
    | some group =>
      let groupRatio := prices.groups.getGroupRatio group
      let finalGroupRatio := (prices.groups.getGroupGroupRatio group group).getD groupRatio
      some ⟨finalGroupRatio, GoFloat.toInt (totalTokens * modelRatio.ratio * finalGroupRatio *
        otherMultiplier order task.billingContext.otherRatios)⟩

def recalculateTaskQuotaByTokens (faults : TaskFaults) (prices : PriceSettings)
    (order : Order (String × ℚ)) (userGroup : Option String) (w : World) (task : SubmittedTask)
    (totalTokens : ℤ) : World × SubmittedTask :=
  match tokenPrice prices order userGroup task totalTokens with
  | none => (w, task)
  | some price =>
    let (w, copy) := recalculateTaskQuota faults w task.toTask price.actualQuota
    (w, { task with toTask := copy })

/-! ## Agreement with the submission -/

/-- The price by tokens has the ratio of the submission, and the quota that follows. -/
def PricedAsSubmitted (prices : PriceSettings) (order : Order (String × ℚ))
    (userGroup : Option String) (task : SubmittedTask) (totalTokens : ℤ) : Prop :=
  ∀ price, tokenPrice prices order userGroup task totalTokens = some price →
    price.groupRatio = task.billingContext.groupRatio ∧
    price.actualQuota = GoFloat.toInt (totalTokens * (prices.getModelRatio task.taskModelName).ratio *
      task.billingContext.groupRatio * task.billingContext.otherRatios.product)

/-- The tables give users of `userGroup` the ratio for `usingGroup` that they give users of
`group` for their own group. -/
def SameRatio (groups : GroupRatioSetting) (userGroup usingGroup group : String) : Prop :=
  match groups.getGroupGroupRatio userGroup usingGroup, groups.getGroupGroupRatio group group with
  | none, none => groups.getGroupRatio usingGroup = groups.getGroupRatio group
  | some special, none => special = groups.getGroupRatio group
  | none, some special => groups.getGroupRatio usingGroup = special
  | some special, some special' => special = special'

/-- The task is priced by its tokens. -/
def TokenPriced (prices : PriceSettings) (task : SubmittedTask) (totalTokens : ℤ) : Prop :=
  0 < totalTokens ∧ (prices.getModelRatio task.taskModelName).found = true ∧
    0 < (prices.getModelRatio task.taskModelName).ratio

theorem sameRatio_iff {groups : GroupRatioSetting} {userGroup usingGroup group : String} :
    SameRatio groups userGroup usingGroup group ↔
      (groups.getGroupGroupRatio userGroup usingGroup).getD (groups.getGroupRatio usingGroup) =
        (groups.getGroupGroupRatio group group).getD (groups.getGroupRatio group) := by
  unfold SameRatio
  cases groups.getGroupGroupRatio userGroup usingGroup <;>
    cases groups.getGroupGroupRatio group group <;> exact Iff.rfl

theorem foldl_product :
    ∀ (l : List (String × ℚ)) (product : ℚ), (∀ e ∈ l, 0 < e.2) →
      l.foldl (fun product e => if e.2 ≠ 1 ∧ 0 < e.2 then product * e.2 else product) product =
        product * (l.map Prod.snd).prod := by
  intro l
  induction l with
  | nil => intro product _; simp
  | cons e l ih =>
    intro product hpos
    have hl := ih (if e.2 ≠ 1 ∧ 0 < e.2 then product * e.2 else product)
      fun e he => hpos e (List.mem_cons_of_mem _ he)
    rw [List.foldl_cons, hl, List.map_cons, List.prod_cons]
    by_cases he : e.2 = 1
    · simp [he]
    · rw [if_pos ⟨he, hpos e List.mem_cons_self⟩, mul_assoc]

/-- In any order, the multiplier is the product of all ratios. -/
theorem otherMultiplier_eq (order : Order (String × ℚ)) (ratios : OtherRatios) :
    otherMultiplier order ratios = ratios.product := by
  have hperm := order.perm ratios.ratios.entries
  unfold otherMultiplier
  rw [foldl_product _ _ fun e he => ratios.positive e (hperm.mem_iff.mp he), one_mul]
  exact (hperm.map Prod.snd).prod_eq

/-- When and at which ratio a task is priced by its tokens. -/
theorem tokenPrice_eq_some {prices : PriceSettings} {order : Order (String × ℚ)}
    {userGroup : Option String} {task : SubmittedTask} {totalTokens : ℤ} {price : TokenPrice} :
    tokenPrice prices order userGroup task totalTokens = some price ↔
      TokenPriced prices task totalTokens ∧ ∃ group, task.pricedGroup userGroup = some group ∧
        price = ⟨(prices.groups.getGroupGroupRatio group group).getD (prices.groups.getGroupRatio group),
          GoFloat.toInt (totalTokens * (prices.getModelRatio task.taskModelName).ratio *
            (prices.groups.getGroupGroupRatio group group).getD (prices.groups.getGroupRatio group) *
            task.billingContext.otherRatios.product)⟩ := by
  unfold tokenPrice TokenPriced
  rw [otherMultiplier_eq]
  by_cases htokens : totalTokens ≤ 0
  · simp [htokens, not_lt.mpr htokens]
  have hpos : 0 < totalTokens := not_le.mp htokens
  cases hfound : (prices.getModelRatio task.taskModelName).found with
  | false => simp [htokens, hfound]
  | true =>
    by_cases hratio : (prices.getModelRatio task.taskModelName).ratio ≤ 0
    · simp [htokens, hfound, hratio, not_lt.mpr hratio]
    · cases hgroup : task.pricedGroup userGroup with
      | none => simp [htokens, hfound, hratio]
      | some group => simp [htokens, hfound, hratio, hpos, not_le.mp hratio, eq_comm]

/-- A stored task has the ratio that the tables gave its user for its group. -/
theorem submitted_ratio {settings : TaskSettings} {env : FinishEnv} {first : TaskAttempt}
    {rest : List TaskAttempt} {w : World} {info : RelayInfo} {task : SubmittedTask}
    {groups : GroupRatioSetting} (hsame : ∀ a ∈ first :: rest, a.prices.groups = groups)
    (h : (relayTask settings env first rest w info).result = .ok (some task)) :
    task.billingContext.groupRatio = (groups.getGroupGroupRatio info.userGroup task.group).getD
      (groups.getGroupRatio task.group) := by
  obtain ⟨result, n, hresult, rfl, -⟩ := relayTask_eq_ok h
  obtain ⟨a, ha, w', info', huser, hok, -, hinfo⟩ := relayAttempts_ok
    (I := fun _ info' => info'.userGroup = info.userGroup)
    rest first w info (fun a _ w info' hI => (relayTaskSubmit_userGroup settings a w info').trans hI)
    rfl hresult
  rcases relayTaskSubmit_cases settings a w' info' with ⟨⟨e, he⟩, -⟩ |
    ⟨adaptor, named, base, w₁, after, preCharge, res, hpriced, hnamed, hpre, hfin, -⟩
  · rw [hok] at he
    cases he
  · obtain ⟨priceData, hsub⟩ := hfin.same
    obtain ⟨hdata, -, -, -, husing, -⟩ := preConsumeTask_keeps settings a w' named
    rw [hpre] at hdata husing
    have hgroup : (initTask env.prices env.now { (relayAttempts settings rest first w info).info with
        subscriptionPostDelta := n } result).group = named.usingGroup := by
      show (relayAttempts settings rest first w info).info.usingGroup = _
      rw [hinfo, hsub]
      exact husing
    have hratio : (initTask env.prices env.now { (relayAttempts settings rest first w info).info with
        subscriptionPostDelta := n } result).billingContext.groupRatio =
          named.priceData.groupRatioInfo.groupRatio := by
      show (relayAttempts settings rest first w info).info.priceData.groupRatioInfo.groupRatio = _
      rw [hinfo, hfin.group, hdata]
    rw [hgroup, hratio, hpriced.group, handleGroupRatio_ratio, hpriced.usingGroup, hsame a ha,
      hnamed.userGroup, huser]

/-- **The price by tokens agrees with the submission** exactly where a task that is priced
has the same ratio by both pairs of groups. -/
theorem token_ratio_iff (settings : TaskSettings) (env : FinishEnv) (first : TaskAttempt)
    (rest : List TaskAttempt) (w : World) (info : RelayInfo) (task : SubmittedTask)
    (prices : PriceSettings) (order : Order (String × ℚ)) (userGroup : Option String)
    (totalTokens : ℤ) (hsame : ∀ a ∈ first :: rest, a.prices.groups = prices.groups)
    (h : (relayTask settings env first rest w info).result = .ok (some task)) :
    PricedAsSubmitted prices order userGroup task totalTokens ↔
      (TokenPriced prices task totalTokens → ∀ group, task.pricedGroup userGroup = some group →
        SameRatio prices.groups info.userGroup task.group group) := by
  have hratio := submitted_ratio hsame h
  constructor
  · intro hpriced htokens group hgroup
    rw [sameRatio_iff, ← hratio]
    exact (hpriced _ (tokenPrice_eq_some.mpr ⟨htokens, group, hgroup, rfl⟩)).1.symm
  · intro hsame price hprice
    obtain ⟨htokens, group, hgroup, rfl⟩ := tokenPrice_eq_some.mp hprice
    have hagree := sameRatio_iff.mp (hsame htokens group hgroup)
    dsimp only
    rw [hratio, hagree]
    exact ⟨rfl, rfl⟩

/-! ## A task of group `default` -/

/-- Users of `vip` have half the price in `default`. -/
def ratioPrices : PriceSettings :=
  { samplePrices with
    groups := ⟨fun _ => none, fun userGroup => if userGroup = "vip" then
      some fun usingGroup => if usingGroup = "default" then some (1 / 2) else none else none⟩
    getModelPrice := fun _ => none
    getModelRatio := fun name => ⟨2, true, name⟩
    quotaPerUnit := 100 }

def ratioAttempt : TaskAttempt := { sampleAttempt with prices := ratioPrices }

theorem token_ratio_iff_sample :
    ∃ task, (relayTask taskSettings finishEnv ratioAttempt [] sampleWorld taskInfo).result =
        .ok (some task) ∧
      (PricedAsSubmitted ratioPrices (.insertion _) none task 1000 ↔
        (TokenPriced ratioPrices task 1000 → ∀ group, task.pricedGroup none = some group →
          SameRatio ratioPrices.groups "default" task.group group)) := by
  have hsome : ((relayTask taskSettings finishEnv ratioAttempt [] sampleWorld
      taskInfo).result.toOption.bind id).isSome = true := by decide +kernel
  obtain ⟨task, htask⟩ := stored_of_isSome hsome
  refine ⟨task, htask, token_ratio_iff taskSettings finishEnv ratioAttempt [] sampleWorld taskInfo task
    ratioPrices (.insertion _) none 1000 ?_ htask⟩
  intro a ha
  rw [List.mem_singleton.mp ha]
  rfl

/-- A user of `vip` submits for `default` at 1/2; the completed task is priced at 1. -/
theorem token_ratio_doubled :
    ∃ task, (relayTask taskSettings finishEnv ratioAttempt [] sampleWorld
        { taskInfo with userGroup := "vip" }).result = .ok (some task) ∧
      task.billingContext.groupRatio = 1 / 2 ∧
      tokenPrice ratioPrices (.insertion _) none task 1000 = some ⟨1, 2000⟩ ∧
      ¬ PricedAsSubmitted ratioPrices (.insertion _) none task 1000 := by
  have hrun : ((relayTask taskSettings finishEnv ratioAttempt [] sampleWorld
      { taskInfo with userGroup := "vip" }).result.toOption.bind id).map (fun task =>
        (task.billingContext.groupRatio, tokenPrice ratioPrices (.insertion _) none task 1000)) =
      some (1 / 2, some ⟨1, 2000⟩) := by decide +kernel
  have hsome : ((relayTask taskSettings finishEnv ratioAttempt [] sampleWorld
      { taskInfo with userGroup := "vip" }).result.toOption.bind id).isSome = true := by decide +kernel
  obtain ⟨task, htask⟩ := stored_of_isSome hsome
  rw [htask] at hrun
  obtain ⟨hratio, hprice⟩ := Prod.mk.inj (Option.some.inj hrun)
  refine ⟨task, htask, hratio, hprice, fun h => ?_⟩
  have hwrong := (h _ hprice).1
  rw [hratio] at hwrong
  norm_num at hwrong

end Tasks
