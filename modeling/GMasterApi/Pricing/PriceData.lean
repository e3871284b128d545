import GMasterApi.Lib.GoFloat
import GMasterApi.Lib.GoMap
import GMasterApi.Pricing.GroupRatio

/-!
# Prices of tasks

`PriceData` and the price of a task before the ratios of its request
(`ModelPriceHelperPerCall`).
-/

namespace Pricing

open GoFloat GoMap

/-! ## Other ratios -/

/-- `OtherRatios`, which `AddOtherRatio` keeps positive. -/
structure OtherRatios where
  ratios : Map String ℚ
  positive : ∀ e ∈ ratios.entries, 0 < e.2
  deriving DecidableEq

def OtherRatios.none : OtherRatios := ⟨.empty, by simp⟩

def OtherRatios.get (m : OtherRatios) (key : String) : Option ℚ := m.ratios.get key

/-- `AddOtherRatio` -/
def OtherRatios.add (m : OtherRatios) (key : String) (ratio : ℚ) : OtherRatios :=
  if h : ratio ≤ 0 then m
  else
    { ratios := m.ratios.put key ratio
      positive := fun e he => by
        rcases mem_assign he with rfl | he
        · exact not_le.mp h
        · exact m.positive e he }

/-- `for k, v := range ratios { AddOtherRatio(k, v) }` -/
def OtherRatios.addAll (order : Order (String × ℚ)) (m : OtherRatios) (ratios : Map String ℚ) :
    OtherRatios :=
  (order.range ratios.entries).foldl (fun m e => m.add e.1 e.2) m

@[simp] theorem OtherRatios.get_none (key : String) : OtherRatios.none.get key = Option.none := rfl

theorem OtherRatios.get_add (m : OtherRatios) (key k : String) (ratio : ℚ) :
    (m.add key ratio).get k = if k = key ∧ 0 < ratio then some ratio else m.get k := by
  unfold OtherRatios.add
  by_cases h : ratio ≤ 0
  · rw [dif_pos h, if_neg fun hk => absurd hk.2 (not_lt.mpr h)]
  · rw [dif_neg h]
    show (m.ratios.put key ratio).get k = _
    rw [Map.get_put]
    simp only [not_le.mp h, and_true]
    rfl

theorem foldl_add_get (k : String) :
    ∀ (l : List (String × ℚ)) (m : OtherRatios), (l.map Prod.fst).Nodup →
      (l.foldl (fun m e => m.add e.1 e.2) m).get k = ((l.lookup k).filter (0 < ·)).or (m.get k) := by
  intro l
  induction l with
  | nil => intro m _; rfl
  | cons e l ih =>
    intro m hnd
    obtain ⟨key, ratio⟩ := e
    rw [List.map_cons, List.nodup_cons] at hnd
    rw [List.foldl_cons, ih _ hnd.2, OtherRatios.get_add]
    by_cases hk : k = key
    · subst hk
      have hnone := lookup_eq_none hnd.1
      by_cases hr : 0 < ratio <;> simp [hnone, hr, Option.filter]
    · have hne : (k == key) = false := by simp [hk]
      simp [List.lookup_cons, hne, hk]

/-- What was added, in any order: the positive entries of `ratios`, and `m` elsewhere. -/
theorem OtherRatios.get_addAll (order : Order (String × ℚ)) (m : OtherRatios)
    (ratios : Map String ℚ) (k : String) :
    (m.addAll order ratios).get k = ((ratios.get k).filter (0 < ·)).or (m.get k) := by
  have hperm := order.perm ratios.entries
  have hnd := (hperm.map Prod.fst).nodup_iff.mpr ratios.nodup
  have hlookup : (order.range ratios.entries).lookup k = ratios.get k := by
    refine Option.ext fun x => ?_
    rw [← mem_iff_lookup hnd, hperm.mem_iff, Map.mem_entries]
  rw [OtherRatios.addAll, foldl_add_get k _ m hnd, hlookup]

/-- The product of all ratios. -/
def OtherRatios.product (m : OtherRatios) : ℚ := (m.ratios.entries.map Prod.snd).prod

/-- `if ra != 1.0 { quota = int(float64(quota) * ra) }` for each ratio, in the order given. -/
def applyRatios (quota : ℤ) (ratios : List (String × ℚ)) : ℤ :=
  ratios.foldl (fun quota e => if e.2 ≠ 1 then toInt (quota * e.2) else quota) quota

/-! ## Prices -/

/-- The fields of `PriceData` that the price of a task has. -/
structure PriceData where
  freeModel : Bool
  modelPrice : ℚ
  modelRatio : ℚ
  otherRatios : OtherRatios
  usePrice : Bool
  quota : ℤ
  groupRatioInfo : GroupRatioInfo
  deriving DecidableEq

/-- `PriceData{}` -/
def PriceData.zero : PriceData := ⟨false, 0, 0, .none, false, 0, ⟨0, 0, false⟩⟩

/-- `GetModelRatio`: the ratio, whether it is set, and the name it was found under. -/
structure ModelRatio where
  ratio : ℚ
  found : Bool
  matchName : String

/-- The settings that the price of a task reads. -/
structure PriceSettings where
  groups : GroupRatioSetting
  getModelPrice : String → Option ℚ
  defaultModelPrice : String → Option ℚ
  getModelRatio : String → ModelRatio
  quotaPerUnit : ℚ
  enableFreeModelPreConsume : Bool
  taskPricePatches : List String
  isAdmin : ℕ → Bool

def modelPriceNotConfiguredError (isAdmin : Bool) (modelName : String) : String :=
  if isAdmin then
    "模型 " ++ modelName ++ " 的价格未配置。请前往「系统设置 → 运营设置」开启自用模式，或在「系统设置 → 分组与模型定价设置」中为该模型配置价格；" ++
      "Model " ++ modelName ++ " price not configured. Go to System Settings → Operation Settings to enable self-use mode, or configure the model price in System Settings → Group & Model Pricing."
  else
    "模型 " ++ modelName ++ " 的价格尚未由管理员配置，暂时无法使用，请联系站点管理员开启该模型；" ++
      "Model " ++ modelName ++ " has not been priced by the administrator yet. Please contact the site administrator to enable this model."

/-- The price of a call, and the ratio of a model that has no price. -/
inductive Base
  | price (modelPrice : ℚ)
  | ratio (modelRatio : ℚ)

def PriceSettings.base (settings : PriceSettings) (userId : ℕ) (acceptUnsetRatio : Bool)
    (modelName : String) : Except String Base :=
  match settings.getModelPrice modelName, settings.defaultModelPrice modelName with
  | some modelPrice, _ => .ok (.price modelPrice)
  | none, some defaultPrice => .ok (.price defaultPrice)
  | none, none =>
    let ratio := settings.getModelRatio modelName
    if !ratio.found && !acceptUnsetRatio then
      .error (modelPriceNotConfiguredError (settings.isAdmin userId) ratio.matchName)
    else .ok (.ratio ratio.ratio)

/-- Where a free model is not pre-consumed, a price of zero is free. -/
def PriceSettings.free (settings : PriceSettings) (groupRatio base : ℚ) : Bool :=
  !settings.enableFreeModelPreConsume && (groupRatio = 0 || base = 0)

def PriceSettings.priced (settings : PriceSettings) (groupRatioInfo : GroupRatioInfo) :
    Base → PriceData
  | .price modelPrice =>
    let free := settings.free groupRatioInfo.groupRatio modelPrice
    { PriceData.zero with
      freeModel := free
      modelPrice := modelPrice
      usePrice := true
      quota := if free then 0 else toInt (modelPrice * settings.quotaPerUnit * groupRatioInfo.groupRatio)
      groupRatioInfo := groupRatioInfo }
  | .ratio modelRatio =>
    let free := settings.free groupRatioInfo.groupRatio modelRatio
    { PriceData.zero with
      freeModel := free
      modelPrice := -1
      modelRatio := modelRatio
      quota := if free then 0
        else toInt (modelRatio / 2 * settings.quotaPerUnit * groupRatioInfo.groupRatio)
      groupRatioInfo := groupRatioInfo }

/-- `ModelPriceHelperPerCall`: the group that is used, and the price. -/
def modelPriceHelperPerCall (settings : PriceSettings) (autoGroup : Option String)
    (userId : ℕ) (acceptUnsetRatio : Bool) (userGroup usingGroup originModelName : String) :
    String × Except String PriceData :=
  let (usingGroup, groupRatioInfo) := handleGroupRatio settings.groups autoGroup userGroup usingGroup
  (usingGroup, (settings.base userId acceptUnsetRatio originModelName).map
    (settings.priced groupRatioInfo))

section Priced

variable (settings : PriceSettings) (info : GroupRatioInfo) (base : Base)

@[simp] theorem priced_otherRatios : (settings.priced info base).otherRatios = .none := by
  cases base <;> rfl

@[simp] theorem priced_groupRatioInfo : (settings.priced info base).groupRatioInfo = info := by
  cases base <;> rfl

/-- A free model costs nothing. -/
theorem priced_quota_of_free (h : (settings.priced info base).freeModel = true) :
    (settings.priced info base).quota = 0 := by
  cases base with
  | price modelPrice => exact if_pos h
  | ratio modelRatio => exact if_pos h

end Priced

@[simp] theorem applyRatios_zero (ratios : List (String × ℚ)) : applyRatios 0 ratios = 0 := by
  unfold applyRatios
  induction ratios with
  | nil => rfl
  | cons e ratios ih =>
    rw [List.foldl_cons]
    simpa using ih

end Pricing
