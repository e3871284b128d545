import GMasterApi.Lib.Binary64
import GMasterApi.Payment.GasterCheckout

/-!
# What a top-up is quoted and what it credits

A user orders an amount, of money or, where quota is displayed in tokens, of
tokens.  The order keeps an amount of money, and its completion multiplies that by
`QuotaPerUnit`.  Tokens are divided by `QuotaPerUnit` first and cut to an integer,
though the price and the advertised quota are those of the amount ordered.

`credits_quoted_iff` says which amounts are credited as they were quoted.
-/

namespace QuotedTopUp

open GoFloat GoString
open TopUps (TopUp TopUpStatus User completeTopUpByTradeNo quotaToAdd applyWrite)
open GasterCheckout (Kind NewCheckout createGasterCodeTopupCheckout parseGasterCodeTopupPlanID
  newGasterCodeTradeNo)

/-- The settings that a top-up depends on. -/
structure Settings where
  quotaDisplayType : String
  quotaPerUnit : ℚ
  one_le_quotaPerUnit : 1 ≤ quotaPerUnit
  price : ℚ
  minTopUp : ℤ
  topupGroupRatio : String → Option ℚ
  amountOptions : List ℤ
  amountDiscount : ℤ → Option ℚ
  complianceConfirmed : Bool
  payMethods : List String

def quotaDisplayTypeTokens : String := "TOKENS"

namespace Settings

variable (st : Settings)

def displayTokens : Bool := st.quotaDisplayType == quotaDisplayTypeTokens

def getTopupGroupRatio (name : String) : ℚ := (st.topupGroupRatio name).getD 1

def getPayMoney (amount : ℤ) (group : String) : ℚ :=
  let dAmount := if st.displayTokens then decimalDiv amount st.quotaPerUnit else amount
  let ratio := st.getTopupGroupRatio group
  let topupGroupRatio := if ratio = 0 then 1 else ratio
  let discount := ((st.amountDiscount amount).filter fun ds => 0 < ds).getD 1
  Binary64.nearest (dAmount * st.price * topupGroupRatio * discount)

def getMinTopup : ℤ :=
  if st.displayTokens then intPart (st.minTopUp * st.quotaPerUnit) else st.minTopUp

/-- The amount that an order keeps. -/
def stored (amount : ℤ) : ℤ :=
  if st.displayTokens then intPart (decimalDiv amount st.quotaPerUnit) else amount

def gasterCodeTopupQuotaAmount (amount : ℤ) : ℤ :=
  if st.displayTokens then amount else intPart (amount * st.quotaPerUnit)

/-- The settings as the completion of an order sees them. -/
def topUps (topUpUpgradeGroup : String) (columnValue : ℚ → ℤ) : TopUps.Config where
  quotaPerUnit := st.quotaPerUnit
  topUpUpgradeGroup := topUpUpgradeGroup
  columnValue := columnValue

/-- The settings as a checkout sees them. -/
def checkouts (checkoutTTL : ℤ) (plan : ℕ → Option GasterCheckout.Plan) :
    GasterCheckout.Config where
  displayTokens := st.displayTokens
  perUnit amount := intPart (decimalDiv amount st.quotaPerUnit)
  minTopup := st.getMinTopup
  amountOptions := st.amountOptions
  payMoney := st.getPayMoney
  checkoutTTL := checkoutTTL
  plan := plan

end Settings

/-! ## `RequestEpay` -/

structure EpayRequest where
  amount : ℤ
  int64_le_amount : -2 ^ 63 ≤ amount
  amount_lt : amount < 2 ^ 63
  paymentMethod : String
  deriving DecidableEq

/-- `Money` is printed with two decimals. -/
structure PurchaseArgs where
  type : String
  serviceTradeNo : String
  name : String
  money : ℚ
  deriving DecidableEq

structure Purchase where
  uri : String
  params : List (String × String)
  deriving DecidableEq

/-- A request of a user, with what it reads on the way: its body, the group of the
user, the client of Epay, the random text and the clock.  `none` is an error. -/
structure EpayCall where
  body : Option EpayRequest
  id : ℕ
  group : Option String
  epayClient : Option (PurchaseArgs → Option Purchase)
  random : String
  now : ℤ
  createTime : ℤ
  rowId : ℕ

def paymentProviderEpay : String := "epay"

def EpayCall.tradeNo (c : EpayCall) : String :=
  "USR" ++ (toString c.id ++ ("NO" ++ (c.random ++ toString c.now)))

def twoDecimals (x : ℚ) : ℚ := Binary64.roundEven (x * 100) / 100

def EpayCall.topUp (st : Settings) (c : EpayCall) (req : EpayRequest) (payMoney : ℚ) : TopUp where
  id := c.rowId
  userId := c.id
  amount := st.stored req.amount
  money := payMoney
  tradeNo := c.tradeNo
  paymentMethod := req.paymentMethod
  paymentProvider := paymentProviderEpay
  createTime := c.createTime
  completeTime := 0
  status := .pending

def requestEpay (st : Settings) (topUps : Table TopUp TopUp.tradeNo) (c : EpayCall) :
    Except String (Table TopUp TopUp.tradeNo × Purchase) :=
  if !st.complianceConfirmed then .error "请先在支付设置中确认支付合规声明"
  else match c.body with
    | none => .error "参数错误"
    | some req =>
      if req.amount < st.getMinTopup then
        .error ("充值数量不能小于 " ++ toString st.getMinTopup)
      else match c.group with
        | none => .error "获取用户分组失败"
        | some group =>
          let payMoney := st.getPayMoney req.amount group
          if payMoney < 1 / 100 then .error "充值金额过低"
          else if !st.payMethods.contains req.paymentMethod then .error "支付方式不存在"
          else match c.epayClient with
            | none => .error "当前管理员未配置支付信息"
            | some purchase =>
              match purchase ⟨req.paymentMethod, c.tradeNo, "TUC" ++ toString req.amount,
                  twoDecimals payMoney⟩ with
              | none => .error "拉起支付失败"
              | some answer =>
                match topUps.create (c.topUp st req payMoney) with
                | none => .error "创建订单失败"
                | some topUps => .ok (topUps, answer)

/-! ## `buildGasterCodeBillingPlans` -/

structure BillingPlan where
  id : String
  kind : Kind
  name : String
  description : String
  price : ℚ
  currency : String
  interval : String
  quotaAmount : ℤ
  unlimited : Bool
  recommended : Bool
  deriving DecidableEq

/-- A row of `subscription_plans`. -/
structure SubscriptionPlan where
  id : ℕ
  title : String
  subtitle : String
  priceAmount : ℚ
  currency : String
  durationUnit : String
  totalAmount : ℤ
  deriving DecidableEq

def firstRecommendedTopupAmount (amounts : List ℤ) : ℤ :=
  if amounts.contains 100 then 100 else amounts.getD (amounts.length / 2) 0

def topupPlan (st : Settings) (group : String) (recommendedTopup amount : ℤ) : BillingPlan where
  id := "topup_" ++ toString amount
  kind := .topup
  name := "充值 " ++ toString amount
  description := "G-Master API 额度充值，可用于 Gaster Code Desktop 内置 provider。"
  price := st.getPayMoney amount group
  currency := st.quotaDisplayType
  interval := "one_time"
  quotaAmount := st.gasterCodeTopupQuotaAmount amount
  unlimited := false
  recommended := amount == recommendedTopup

def gasterCodeSubscriptionInterval (unit : String) : String :=
  match trimSpace unit with
  | "year" => "year"
  | "month" => "month"
  | _ => "one_time"

def subscriptionPlan (i : ℕ) (plan : SubscriptionPlan) : BillingPlan where
  id := "subscription_" ++ toString plan.id
  kind := .subscription
  name := plan.title
  description :=
    if trimSpace plan.subtitle = "" then "G-Master API 订阅套餐，可用于 Gaster Code Desktop。"
    else trimSpace plan.subtitle
  price := plan.priceAmount
  currency := trimSpace (if plan.currency = "" then "USD" else plan.currency)
  interval := gasterCodeSubscriptionInterval plan.durationUnit
  quotaAmount := plan.totalAmount
  unlimited := plan.totalAmount = 0
  recommended := i = 0

/-- The plans for a user of a group; `subscriptions` are the enabled plans of the
database, in their order. -/
def buildGasterCodeBillingPlans (st : Settings) (user : Option String)
    (subscriptions : Option (List SubscriptionPlan)) : List BillingPlan :=
  match user with
  | none => []
  | some group =>
    let amountOptions := st.amountOptions.mergeSort
    let recommendedTopup := firstRecommendedTopupAmount amountOptions
    let available := amountOptions.filter fun amount =>
      !(decide (amount ≤ 0) || decide (amount < st.getMinTopup))
    available.map (topupPlan st group recommendedTopup) ++
      (subscriptions.getD []).mapIdx subscriptionPlan

/-! ## Completion -/

/-- `CompleteTopUpByTradeNo`, in a transaction of its own. -/
def complete (cfg : TopUps.Config) (tradeNo : String) (expected : List String) (now : ℤ)
    (s : TopUps.Store) : Except String TopUps.Store :=
  match completeTopUpByTradeNo cfg tradeNo expected now s with
  | .error e => .error e
  | .ok script => script.run applyWrite s

/-- The provider that the completion names, if it names one, is that of the order. -/
def NamesProvider (expected : List String) (order : TopUp) : Prop :=
  trimSpace (expected.getD 0 "") = "" ∨ trimSpace (expected.getD 0 "") = order.paymentProvider

/-- Completing the order succeeds, whoever ordered, and adds the quota. -/
def Credits (cfg : TopUps.Config) (order : TopUp) (quota : ℤ) : Prop :=
  ∀ (user : User) (expected : List String) (now : ℤ), NamesProvider expected order →
    ∃ s, complete cfg order.tradeNo expected now ⟨order, user⟩ = .ok s ∧
      s.order.status = .success ∧ s.user.quota = user.quota + quota

namespace Settings

variable (st : Settings)

/-- The quota that the price of an amount is computed for. -/
def quoted (amount : ℤ) : ℤ :=
  if st.displayTokens then amount else toInt (amount * st.quotaPerUnit)

/-- Tokens are a positive whole multiple of `QuotaPerUnit`, cut to an integer, which the
quotient of 16 places does not miss; any other amount is positive and its quota fits. -/
def Exact (amount : ℤ) : Prop :=
  if st.displayTokens then
    ∃ k : ℤ, 1 ≤ k ∧ amount ≤ k * st.quotaPerUnit ∧ k * st.quotaPerUnit < amount + 1 ∧
      k * st.quotaPerUnit - amount ≤ st.quotaPerUnit / (2 * 10 ^ 16)
  else 0 < amount ∧ amount * st.quotaPerUnit < 2 ^ 63

end Settings

/-- A plan for the amount is advertised, with the quota. -/
def Advertised (st : Settings) (group : String) (subscriptions : Option (List SubscriptionPlan))
    (amount quota : ℤ) : Prop :=
  ∃ plan ∈ buildGasterCodeBillingPlans st (some group) subscriptions,
    plan.id = "topup_" ++ toString amount ∧ plan.kind = .topup ∧
      plan.price = st.getPayMoney amount group ∧ plan.quotaAmount = quota

variable {cfg : TopUps.Config} {order : TopUp} {quota : ℤ}

@[simp] theorem quotaToAdd_paidBy (method : String) :
    quotaToAdd cfg (order.paidBy method) = quotaToAdd cfg order := by
  unfold TopUp.paidBy
  split <;> rfl

/-- The upgrade of the group leaves the order and the quota alone. -/
theorem run_upgrade (cfg : TopUps.Config) (userId : ℤ) (s : TopUps.Store) :
    ∃ group, (TopUps.upgradeUserGroupAfterTopUpTx cfg userId).run applyWrite s =
      .ok { s with user := { s.user with group := group } } := by
  unfold TopUps.upgradeUserGroupAfterTopUpTx
  dsimp only
  by_cases hskip : userId ≤ 0 ∨ trimSpace cfg.topUpUpgradeGroup = ""
  · rw [if_pos hskip]
    exact ⟨s.user.group, rfl⟩
  · rw [if_neg hskip, Sql.Script.run_select applyWrite rfl]
    split
    · exact ⟨s.user.group, rfl⟩
    · exact ⟨trimSpace cfg.topUpUpgradeGroup, rfl⟩

theorem complete_of_pending (user : User) (expected : List String) (now : ℤ)
    (htrade : trimSpace order.tradeNo ≠ "") (hstatus : order.status = .pending)
    (hnames : NamesProvider expected order) (hquota : 0 < quotaToAdd cfg order) :
    ∃ s, complete cfg order.tradeNo expected now ⟨order, user⟩ = .ok s ∧
      s.order.status = .success ∧ s.user.quota = user.quota + quotaToAdd cfg order := by
  unfold complete completeTopUpByTradeNo TopUps.firstByTradeNo
  dsimp only
  rw [if_neg htrade, if_pos rfl]
  dsimp only
  rw [if_neg (by rintro ⟨h₁, h₂⟩; exact hnames.elim h₁ fun h => h₂ h.symm),
    if_neg (by rw [hstatus]; simp), if_neg (by rw [hstatus]; simp), quotaToAdd_paidBy,
    if_neg (by omega)]
  dsimp only
  rw [Sql.Script.run_exec, Sql.Script.run_exec]
  generalize order.paidBy (trimSpace (expected.getD 1 "")) = paid
  obtain ⟨group, hrun⟩ := run_upgrade cfg paid.userId
    ([.addQuota (quotaToAdd cfg order)].foldl applyWrite
      ([.saveOrder (paid.completed now)].foldl applyWrite ⟨order, user⟩))
  exact ⟨_, hrun, rfl, rfl⟩

theorem complete_of_nonpos {user : User} {expected : List String} {now : ℤ} {s : TopUps.Store}
    (hquota : quotaToAdd cfg order ≤ 0) (hstatus : order.status = .pending) :
    complete cfg order.tradeNo expected now ⟨order, user⟩ ≠ .ok s := by
  unfold complete completeTopUpByTradeNo TopUps.firstByTradeNo
  dsimp only
  intro h
  split at h
  · cases h
  rename_i script hscript
  split at hscript
  · cases hscript
  rw [if_pos rfl] at hscript
  dsimp only at hscript
  split at hscript
  · cases hscript
  rw [if_neg (by rw [hstatus]; simp), if_neg (by rw [hstatus]; simp), quotaToAdd_paidBy,
    if_pos hquota] at hscript
  cases hscript

theorem credits_iff (htrade : trimSpace order.tradeNo ≠ "") (hstatus : order.status = .pending) :
    Credits cfg order quota ↔ 0 < quotaToAdd cfg order ∧ quotaToAdd cfg order = quota := by
  constructor
  · intro h
    obtain ⟨s, hs, -, hadded⟩ := h ⟨0, "", "", ""⟩ [] 0 (.inl (by decide))
    have hpos : 0 < quotaToAdd cfg order := by
      by_contra hle
      exact complete_of_nonpos (by omega) hstatus hs
    obtain ⟨s', hs', -, hadded'⟩ :=
      complete_of_pending ⟨0, "", "", ""⟩ [] 0 htrade hstatus
        (.inl (by decide)) hpos
    rw [hs] at hs'
    cases hs'
    exact ⟨hpos, by omega⟩
  · rintro ⟨hpos, rfl⟩ user expected now hnames
    exact complete_of_pending user expected now htrade hstatus hnames hpos

/-! ## Which amounts are credited as quoted -/

theorem money_exact_iff {amount : ℤ} {q : ℚ} (hq : 1 ≤ q) :
    (0 < intPart (amount * q) ∧ intPart (amount * q) = toInt (amount * q)) ↔
      0 < amount ∧ amount * q < 2 ^ 63 := by
  constructor
  · rintro ⟨hpos, heq⟩
    have hamount : 0 < amount := by
      by_contra hle
      have hcast : (amount : ℚ) ≤ 0 := by exact_mod_cast not_lt.mp hle
      have hnonpos := toInt_nonpos (mul_nonpos_of_nonpos_of_nonneg hcast (zero_le_one.trans hq))
      omega
    have hcast : (0 : ℚ) < amount := by exact_mod_cast hamount
    have hlt := intPart_lt (amount * q)
    rw [heq, toInt_of_nonneg (by positivity)] at hlt
    refine ⟨hamount, ?_⟩
    have hfloor := Int.floor_lt.mp hlt
    exact_mod_cast hfloor
  · rintro ⟨hamount, hlt⟩
    have hcast : (1 : ℚ) ≤ amount := by exact_mod_cast hamount
    have hone : 1 ≤ amount * q := one_le_mul_of_one_le_of_one_le hcast hq
    have hfloor : ⌊amount * q⌋ < 2 ^ 63 := Int.floor_lt.mpr (by exact_mod_cast hlt)
    rw [intPart_of_floor_lt (by linarith) hfloor, toInt_of_nonneg (by linarith)]
    refine ⟨?_, rfl⟩
    have := Int.le_floor.mpr (show ((1 : ℤ) : ℚ) ≤ amount * q by exact_mod_cast hone)
    omega

/-- The whole multiples in an amount of tokens, as the order keeps them. -/
theorem stored_tokens {amount : ℤ} {q : ℚ} (hq : 1 ≤ q) (hpos : 0 ≤ amount)
    (hlt : amount < 2 ^ 63) :
    intPart (decimalDiv amount q) = ⌊amount / q + 1 / (2 * 10 ^ 16)⌋ := by
  have hcast : (0 : ℚ) ≤ amount := by exact_mod_cast hpos
  have hcast' : (amount : ℚ) ≤ 2 ^ 63 - 1 := by
    have : amount ≤ 2 ^ 63 - 1 := by omega
    exact_mod_cast this
  have hdiv : 0 ≤ amount / q := by positivity
  have hle : amount / q ≤ amount := div_le_self hcast hq
  have htoInt := toInt_decimalDiv hdiv
  have hnonneg : 0 ≤ ⌊amount / q + 1 / (2 * 10 ^ 16)⌋ := Int.floor_nonneg.mpr (by positivity)
  have hfloor : ⌊amount / q + 1 / (2 * 10 ^ 16)⌋ < 2 ^ 63 := by
    refine Int.floor_lt.mpr ?_
    push_cast
    linarith
  unfold intPart
  rw [htoInt]
  exact Int.bmod_eq_of_le (by omega) (by omega)

/-- A number of whole multiples is what the order keeps where the amount is so near to it. -/
theorem whole_multiple_iff {amount k : ℤ} {q ε : ℚ} (hq : 1 ≤ q) :
    k ≤ amount / q + ε ↔ k * q - amount ≤ ε * q := by
  have hpos : 0 < q := by linarith
  have hcancel : (amount / q + ε) * q = amount + ε * q := by
    rw [add_mul, div_mul_cancel₀ _ hpos.ne']
  rw [← mul_le_mul_iff_of_pos_right hpos, hcancel]
  constructor <;> intro h <;> linarith

/-- A quotient that is too large by less than it can be told apart, cut and multiplied. -/
theorem multiple_exact_iff {amount : ℤ} {q ε : ℚ} (hq : 1 ≤ q) (hε : 0 ≤ ε)
    (hε' : ε ≤ 1 / (2 * 10 ^ 16)) (hpos : 0 ≤ amount) (hlt : amount < 2 ^ 63) :
    (0 < intPart (⌊amount / q + ε⌋ * q) ∧ intPart (⌊amount / q + ε⌋ * q) = amount) ↔
      ∃ k : ℤ, 1 ≤ k ∧ amount ≤ k * q ∧ k * q < amount + 1 ∧ k * q - amount ≤ ε * q := by
  have hcast : (0 : ℚ) ≤ amount := by exact_mod_cast hpos
  have hdiv : 0 ≤ amount / q := by positivity
  constructor
  · intro h
    generalize hk : ⌊amount / q + ε⌋ = k at h
    have hnonneg : 0 ≤ k := by
      rw [← hk]
      exact Int.floor_nonneg.mpr (by positivity)
    have hnear : k * q - amount ≤ ε * q := (whole_multiple_iff hq).mp (Int.le_floor.mp hk.ge)
    have hε : ε * q ≤ 1 / (2 * 10 ^ 16) * q := mul_le_mul_of_nonneg_right hε' (by linarith)
    have hone : 1 ≤ k := by
      by_contra hzero
      have : k = 0 := by omega
      subst this
      simp [intPart] at h
    have hkq : (1 : ℚ) ≤ k := by exact_mod_cast hone
    have hle : q ≤ k * q := le_mul_of_one_le_left (by linarith) hkq
    have hamount : (amount : ℚ) < 2 ^ 63 := by exact_mod_cast hlt
    -- a quota that does not fit would have to come from a `QuotaPerUnit` above the amount
    have hfits : ⌊k * q⌋ < 2 ^ 64 := by
      refine Int.floor_lt.mpr ?_
      push_cast
      linarith
    have hfloor : ⌊k * q⌋ = amount := by
      rw [floor_eq_intPart (by linarith) hfits (by omega)]
      exact h.2
    obtain ⟨hge, hlt'⟩ := Int.floor_eq_iff.mp hfloor
    exact ⟨k, hone, hge, hlt', hnear⟩
  · rintro ⟨k, hone, hge, hlt', hnear⟩
    have hk : ⌊amount / q + ε⌋ = k := by
      refine Int.floor_eq_iff.mpr ⟨(whole_multiple_iff hq).mpr hnear, ?_⟩
      have : amount / q ≤ k := (div_le_iff₀ (by linarith)).mpr hge
      linarith
    have hfloor : ⌊k * q⌋ = amount := Int.floor_eq_iff.mpr ⟨hge, hlt'⟩
    have hkq : (1 : ℚ) ≤ k := by exact_mod_cast hone
    have hle : 1 ≤ k * q := one_le_mul_of_one_le_of_one_le hkq hq
    have hpositive : 1 ≤ ⌊k * q⌋ := Int.le_floor.mpr (by exact_mod_cast hle)
    rw [hk, intPart_of_floor_lt (by linarith) (by omega)]
    exact ⟨by omega, hfloor⟩

theorem tokens_exact_of_nonneg {amount : ℤ} {q : ℚ} (hq : 1 ≤ q) (hpos : 0 ≤ amount)
    (hlt : amount < 2 ^ 63) :
    (0 < intPart (intPart (decimalDiv amount q) * q) ∧
        intPart (intPart (decimalDiv amount q) * q) = amount) ↔
      ∃ k : ℤ, 1 ≤ k ∧ amount ≤ k * q ∧ k * q < amount + 1 ∧
        k * q - amount ≤ q / (2 * 10 ^ 16) := by
  rw [stored_tokens hq hpos hlt, multiple_exact_iff hq (by norm_num) (le_refl _) hpos hlt,
    one_div_mul_eq_div]

theorem tokens_exact_iff {amount : ℤ} {q : ℚ} (hq : 1 ≤ q) (hlt : amount < 2 ^ 63) :
    (0 < intPart (intPart (decimalDiv amount q) * q) ∧
        intPart (intPart (decimalDiv amount q) * q) = amount) ↔
      ∃ k : ℤ, 1 ≤ k ∧ amount ≤ k * q ∧ k * q < amount + 1 ∧
        k * q - amount ≤ q / (2 * 10 ^ 16) := by
  by_cases hpos : 0 ≤ amount
  · exact tokens_exact_of_nonneg hq hpos hlt
  · refine iff_of_false (fun h => by omega) ?_
    rintro ⟨k, hone, -, hlt', -⟩
    have hkq : (1 : ℚ) ≤ k := by exact_mod_cast hone
    have hle : 1 ≤ k * q := one_le_mul_of_one_le_of_one_le hkq hq
    have hamount : (0 : ℚ) < amount := by linarith
    exact hpos (by exact_mod_cast hamount.le)

/-- An order that keeps an amount as it is stored. -/
structure Stores (st : Settings) (order : TopUp) (amount : ℤ) : Prop where
  tradeNo : trimSpace order.tradeNo ≠ ""
  status : order.status = .pending
  provider : order.paymentProvider ≠ TopUps.paymentProviderStripe
  amount : order.amount = st.stored amount

theorem Stores.quotaToAdd_eq {st : Settings} {amount : ℤ} (h : Stores st order amount)
    (upgradeGroup : String) (columnValue : ℚ → ℤ) :
    quotaToAdd (st.topUps upgradeGroup columnValue) order =
      intPart (st.stored amount * st.quotaPerUnit) := by
  unfold quotaToAdd
  dsimp only
  rw [if_neg h.provider, h.amount]
  rfl

theorem Stores.credits_iff {st : Settings} {amount : ℤ} (h : Stores st order amount)
    (hlt : amount < 2 ^ 63) (upgradeGroup : String) (columnValue : ℚ → ℤ) :
    Credits (st.topUps upgradeGroup columnValue) order (st.quoted amount) ↔ st.Exact amount := by
  rw [QuotedTopUp.credits_iff h.tradeNo h.status, h.quotaToAdd_eq]
  unfold Settings.stored Settings.quoted Settings.Exact
  split
  · exact tokens_exact_iff st.one_le_quotaPerUnit hlt
  · exact money_exact_iff st.one_le_quotaPerUnit

/-! ## The two entry points -/

theorem trimSpace_ne_of_head {s : String} {c : Char} (hs : s.toList.head? = some c)
    (hc : isSpace c = false) : trimSpace s ≠ "" := by
  intro h
  have hspace := isSpace_of_blank h c (List.mem_of_mem_head? hs)
  rw [hc] at hspace
  cases hspace

theorem requestEpay_stores {st : Settings} {topUps topUps' : Table TopUp TopUp.tradeNo}
    {c : EpayCall} {req : EpayRequest} {answer : Purchase} (hbody : c.body = some req)
    (h : requestEpay st topUps c = .ok (topUps', answer)) :
    ∃ order, topUps'.find c.tradeNo = some order ∧ Stores st order req.amount := by
  unfold requestEpay at h
  rw [hbody] at h
  dsimp only at h
  split at h
  · cases h
  split at h
  · cases h
  split at h
  · cases h
  split at h
  · cases h
  split at h
  · cases h
  split at h
  · cases h
  split at h
  · cases h
  split at h
  · cases h
  rename_i hcreate
  cases h
  have hprovider : paymentProviderEpay ≠ TopUps.paymentProviderStripe := by decide
  have htrade : trimSpace c.tradeNo ≠ "" := by
    refine trimSpace_ne_of_head (c := 'U') ?_ (by decide)
    unfold EpayCall.tradeNo
    rw [String.toList_append]
    rfl
  have hfind := Table.find_create (k := c.tradeNo) hcreate
  rw [if_pos (by rfl)] at hfind
  exact ⟨_, hfind, htrade, rfl, hprovider, rfl⟩

theorem parseGasterCodeTopupPlanID_lt {planID : String} {amount : ℤ}
    (h : parseGasterCodeTopupPlanID planID = some amount) : 0 < amount ∧ amount < 2 ^ 63 := by
  unfold parseGasterCodeTopupPlanID GasterCheckout.parsePlanID at h
  obtain ⟨hatoi, hpos⟩ := Option.filter_eq_some_iff.mp h
  unfold atoi at hatoi
  have hrange := (Option.filter_eq_some_iff.mp hatoi).2
  rw [decide_eq_true_iff] at hpos hrange
  exact ⟨hpos, hrange.2⟩

/-- A checkout is for an amount on offer, and comes with an order that stores it. -/
theorem createTopup_stores {st : Settings} {ttl : ℤ} {plan : ℕ → Option GasterCheckout.Plan}
    {s s' : GasterCheckout.Store} {req : NewCheckout} {planID : String}
    (h : createGasterCodeTopupCheckout (st.checkouts ttl plan) s req planID = .ok s') :
    ∃ amount order, parseGasterCodeTopupPlanID planID = some amount ∧
      s'.topUps.find (newGasterCodeTradeNo "topup" req.tradeHash) = some order ∧
      Stores st order amount ∧ st.getMinTopup ≤ amount ∧ amount ∈ st.amountOptions := by
  unfold createGasterCodeTopupCheckout at h
  split at h
  · cases h
  split at h
  · cases h
  rename_i amount hparse
  split at h
  · cases h
  rename_i havailable
  split at h
  · cases h
  dsimp only at h
  split at h
  · rename_i topUps checkouts hcreate _
    cases h
    unfold GasterCheckout.isGasterCodeTopupAmountAvailable at havailable
    rw [Bool.not_eq_true', Bool.not_eq_false, Bool.and_eq_true, decide_eq_true_iff,
      List.contains_iff_mem] at havailable
    have hprovider : GasterCheckout.desktopPaymentProvider ≠ TopUps.paymentProviderStripe := by
      decide
    have htrade : trimSpace (newGasterCodeTradeNo "topup" req.tradeHash) ≠ "" := by
      refine trimSpace_ne_of_head (c := 'g') ?_ (by decide)
      unfold newGasterCodeTradeNo
      rw [String.toList_append]
      rfl
    have hfind := Table.find_create (k := newGasterCodeTradeNo "topup" req.tradeHash) hcreate
    rw [if_pos (by rfl)] at hfind
    exact ⟨amount, _, hparse, hfind, ⟨htrade, rfl, hprovider, rfl⟩, havailable⟩
  · cases h

theorem advertised {st : Settings} {group : String}
    {subscriptions : Option (List SubscriptionPlan)} {amount : ℤ} (hpos : 0 < amount)
    (hmin : st.getMinTopup ≤ amount) (hoption : amount ∈ st.amountOptions) :
    Advertised st group subscriptions amount (st.gasterCodeTopupQuotaAmount amount) := by
  unfold Advertised buildGasterCodeBillingPlans
  refine ⟨topupPlan st group _ amount, List.mem_append_left _ (List.mem_map_of_mem ?_), rfl, rfl,
    rfl, rfl⟩
  rw [List.mem_filter, List.mem_mergeSort]
  refine ⟨hoption, ?_⟩
  simp only [Bool.not_eq_true', Bool.or_eq_false_iff, decide_eq_false_iff_not]
  omega

/-- What is credited as quoted is also advertised so. -/
theorem quotaAmount_of_exact {st : Settings} {amount : ℤ} (h : st.Exact amount) :
    st.gasterCodeTopupQuotaAmount amount = st.quoted amount := by
  unfold Settings.Exact at h
  unfold Settings.gasterCodeTopupQuotaAmount Settings.quoted
  split
  · rfl
  · rename_i hmoney
    rw [if_neg hmoney] at h
    exact ((money_exact_iff st.one_le_quotaPerUnit).mpr h).2

/-- **An amount is credited as it was quoted exactly where it is `Exact`**, whether it is
ordered from Epay or by a checkout of Gaster Code, which then also advertises it so. -/
theorem credits_quoted_iff (st : Settings) (upgradeGroup : String) (columnValue : ℚ → ℤ) :
    (∀ topUps c req topUps' answer, c.body = some req →
      requestEpay st topUps c = .ok (topUps', answer) →
      ∃ order, topUps'.find c.tradeNo = some order ∧
        (Credits (st.topUps upgradeGroup columnValue) order (st.quoted req.amount) ↔
          st.Exact req.amount)) ∧
    ∀ ttl plan s req planID s' subscriptions,
      createGasterCodeTopupCheckout (st.checkouts ttl plan) s req planID = .ok s' →
      ∃ amount order, parseGasterCodeTopupPlanID planID = some amount ∧
        s'.topUps.find (newGasterCodeTradeNo "topup" req.tradeHash) = some order ∧
        (Credits (st.topUps upgradeGroup columnValue) order (st.quoted amount) ∧
            Advertised st req.group subscriptions amount (st.quoted amount) ↔
          st.Exact amount) := by
  constructor
  · intro topUps c req topUps' answer hbody h
    obtain ⟨order, hfind, hstores⟩ := requestEpay_stores hbody h
    exact ⟨order, hfind, hstores.credits_iff req.amount_lt upgradeGroup columnValue⟩
  · intro ttl plan s req planID s' subscriptions h
    obtain ⟨amount, order, hparse, hfind, hstores, hmin, hoption⟩ := createTopup_stores h
    obtain ⟨hpos, hlt⟩ := parseGasterCodeTopupPlanID_lt hparse
    refine ⟨amount, order, hparse, hfind, ?_⟩
    rw [hstores.credits_iff hlt]
    refine and_iff_left_of_imp fun hexact => ?_
    rw [← quotaAmount_of_exact hexact]
    exact advertised hpos hmin hoption

/-! ## Two amounts of tokens -/

/-- A price of 7.3 for 500000 tokens, and amounts of two and of one and a half times as many. -/
def sampleSettings : Settings where
  quotaDisplayType := quotaDisplayTypeTokens
  quotaPerUnit := 500000
  one_le_quotaPerUnit := by norm_num
  price := 73 / 10
  minTopUp := 1
  topupGroupRatio := fun _ => none
  amountOptions := [750000, 1000000]
  amountDiscount := fun _ => none
  complianceConfirmed := true
  payMethods := ["alipay"]

def sampleCall (req : EpayRequest) : EpayCall where
  body := some req
  id := 7
  group := some "default"
  epayClient := some fun args => some ⟨"https://pay", [("out_trade_no", args.serviceTradeNo)]⟩
  random := "abcdef"
  now := 1700000000
  createTime := 1700000000
  rowId := 1

def twoUnits : EpayRequest := ⟨1000000, by decide, by decide, "alipay"⟩
def oneUnitAndAHalf : EpayRequest := ⟨750000, by decide, by decide, "alipay"⟩

def sampleStore : GasterCheckout.Store where
  now := 1700000000
  now_pos := by decide
  topUps := Table.empty
  orders := Table.empty
  subs := Table.empty
  checkouts := Table.empty

def sampleCheckout : NewCheckout := ⟨7, "default", "id", "trade", 1⟩

def sampleTopUps : TopUps.Config := sampleSettings.topUps "" Int.floor

/-- Either entry point accepts the amount, the one for a plan that advertises it, and the
orders are such as `P` says. -/
def SampleOrders (req : EpayRequest) (planID : String) (P : TopUp → Prop) : Prop :=
  (∃ topUps answer order,
    requestEpay sampleSettings Table.empty (sampleCall req) = .ok (topUps, answer) ∧
      topUps.find (sampleCall req).tradeNo = some order ∧ P order) ∧
  ∃ s order,
    createGasterCodeTopupCheckout (sampleSettings.checkouts 900 fun _ => none) sampleStore
        sampleCheckout planID = .ok s ∧
      s.topUps.find (newGasterCodeTradeNo "topup" sampleCheckout.tradeHash) = some order ∧
      Advertised sampleSettings sampleCheckout.group none req.amount req.amount ∧ P order

theorem ok_of_toOption {ε α : Type} {x : Except ε α} (h : x.toOption.isSome = true) :
    ∃ a, x = .ok a := by
  cases x with
  | error e => cases h
  | ok a => exact ⟨a, rfl⟩

theorem epay_accepts (req : EpayRequest) (h : (requestEpay sampleSettings Table.empty
    (sampleCall req)).toOption.isSome = true) : ∃ topUps answer,
      requestEpay sampleSettings Table.empty (sampleCall req) = .ok (topUps, answer) := by
  obtain ⟨⟨topUps, answer⟩, h⟩ := ok_of_toOption h
  exact ⟨topUps, answer, h⟩

theorem twoUnits_credited :
    SampleOrders twoUnits "topup_1000000" fun order => Credits sampleTopUps order 1000000 := by
  have hexact : sampleSettings.Exact 1000000 := by
    refine (if_pos rfl).mpr ⟨2, ?_⟩
    norm_num [sampleSettings]
  obtain ⟨hepay, hcheckout⟩ := credits_quoted_iff sampleSettings "" Int.floor
  constructor
  · obtain ⟨topUps, answer, h⟩ := epay_accepts twoUnits (by decide +kernel)
    obtain ⟨order, hfind, hiff⟩ := hepay _ _ twoUnits _ _ rfl h
    exact ⟨topUps, answer, order, h, hfind, hiff.mpr hexact⟩
  · obtain ⟨s, h⟩ := ok_of_toOption (show (createGasterCodeTopupCheckout
      (sampleSettings.checkouts 900 fun _ => none) sampleStore sampleCheckout
      "topup_1000000").toOption.isSome = true by decide +kernel)
    obtain ⟨amount, order, hparse, hfind, hiff⟩ := hcheckout _ _ _ _ _ _ none h
    have hamount : amount = 1000000 := Option.some.inj (hparse.symm.trans (by decide +kernel))
    subst hamount
    obtain ⟨hcredits, hadvertised⟩ := hiff.mpr hexact
    exact ⟨s, order, h, hfind, hadvertised, hcredits⟩

def sampleUser : User := ⟨0, "default", "", ""⟩

/-- The completion adds the quota, and so no other. -/
theorem only_credits (htrade : trimSpace order.tradeNo ≠ "") (hstatus : order.status = .pending)
    (hquota : quotaToAdd cfg order = 500000) :
    (∃ s, complete cfg order.tradeNo [] 0 ⟨order, sampleUser⟩ = .ok s ∧ s.user.quota = 500000) ∧
      ¬ Credits cfg order 750000 := by
  have hpos : 0 < quotaToAdd cfg order := by omega
  obtain ⟨s, hs, -, hsum⟩ :=
    complete_of_pending sampleUser [] 0 htrade hstatus (.inl (by decide)) hpos
  rw [hquota] at hsum
  refine ⟨⟨s, hs, hsum⟩, fun h => ?_⟩
  have heq := ((QuotedTopUp.credits_iff htrade hstatus).mp h).2
  omega

/-- 750000 tokens are accepted, advertised and priced, and 500000 are credited. -/
theorem oneUnitAndAHalf_falls_short :
    SampleOrders oneUnitAndAHalf "topup_750000" fun order =>
      (∃ s, complete sampleTopUps order.tradeNo [] 0 ⟨order, sampleUser⟩ = .ok s ∧
        s.user.quota = 500000) ∧ ¬ Credits sampleTopUps order 750000 := by
  have hstored : intPart (sampleSettings.stored 750000 * sampleSettings.quotaPerUnit) = 500000 := by
    decide +kernel
  constructor
  · obtain ⟨topUps, answer, h⟩ := epay_accepts oneUnitAndAHalf (by decide +kernel)
    obtain ⟨order, hfind, hstores⟩ := requestEpay_stores rfl h
    exact ⟨topUps, answer, order, h, hfind,
      only_credits hstores.tradeNo hstores.status ((hstores.quotaToAdd_eq _ _).trans hstored)⟩
  · obtain ⟨s, h⟩ := ok_of_toOption (show (createGasterCodeTopupCheckout
      (sampleSettings.checkouts 900 fun _ => none) sampleStore sampleCheckout
      "topup_750000").toOption.isSome = true by decide +kernel)
    obtain ⟨amount, order, hparse, hfind, hstores, hmin, hoption⟩ := createTopup_stores h
    have hamount : amount = 750000 := Option.some.inj (hparse.symm.trans (by decide +kernel))
    subst hamount
    exact ⟨s, order, h, hfind, advertised (by decide) hmin hoption,
      only_credits hstores.tradeNo hstores.status ((hstores.quotaToAdd_eq _ _).trans hstored)⟩

end QuotedTopUp
