import GMasterApi.Payment.QuotedTopUp

/-!
# The card gateways

Each gateway quotes an amount, charges it and keeps an order, from which the completion computes
the quota.  Stripe charges a quantity of one price, without the ratio and the discount of the
quote; the others keep a whole number of units of the tokens that they sell.

`honours_iff` says which accepted requests are charged as quoted and credited.  Settings and
sums are exact decimals.
-/

namespace CardGateways

open GoFloat GoString
open QuotedTopUp (twoDecimals Credits multiple_exact_iff money_exact_iff run_upgrade
  trimSpace_ne_of_head ok_of_toOption)
open TopUps (TopUp User recharge applyWrite)

/-- The settings of the three gateways, beside those of every top-up. -/
structure Settings extends QuotedTopUp.Settings where
  waffoEnabled : Bool
  waffoUnitPrice : ℚ
  waffoMinTopUp : ℤ
  waffoCurrency : String
  waffoPayMethods : List (String × String)
  waffoPancakeEnabled : Bool
  waffoPancakeKeys : List String
  waffoPancakeUnitPrice : ℚ
  waffoPancakeMinTopUp : ℤ
  stripeUnitPrice : ℚ
  stripeMinTopUp : ℤ
  stripeApiSecret : String
  validateRedirectURL : String → Bool

inductive Gateway
  | waffo
  | waffoPancake
  | stripe
  deriving DecidableEq

structure PayRequest where
  amount : ℤ
  int64_le_amount : -2 ^ 63 ≤ amount
  amount_lt : amount < 2 ^ 63
  paymentMethod : String
  successURL : String
  cancelURL : String
  payMethodIndex : Option ℤ
  payMethodType : String
  payMethodName : String

/-- A request of a user with what it reads on the way; `reference` is the part of the trade
number that the clock and chance decide. -/
structure Call where
  body : Option PayRequest
  id : ℕ
  group : Option String
  reference : String
  createTime : ℤ
  rowId : ℕ
  inserted : Bool
  session : Bool

/-- What the gateway is told to charge, and the order. -/
structure Order where
  charged : ℚ
  payMethod : String × String
  topUp : TopUp
  deriving DecidableEq

namespace Settings

variable (st : Settings)

/-- A sum for the units, at the price of a gateway. -/
def payMoney (units unitPrice : ℚ) (amount : ℤ) (group : String) : ℚ :=
  let ratio := st.getTopupGroupRatio group
  let topupGroupRatio := if ratio = 0 then 1 else ratio
  let discount := ((st.amountDiscount amount).filter fun ds => 0 < ds).getD 1
  units * unitPrice * topupGroupRatio * discount

def getWaffoPayMoney (amount : ℤ) (group : String) : ℚ :=
  st.payMoney (if st.displayTokens then amount / st.quotaPerUnit else amount) st.waffoUnitPrice
    amount group

def getWaffoPancakePayMoney (amount : ℤ) (group : String) : ℚ :=
  st.payMoney (if st.displayTokens then decimalDiv amount st.quotaPerUnit else amount)
    st.waffoPancakeUnitPrice amount group

def getStripePayMoney (amount : ℤ) (group : String) : ℚ :=
  st.payMoney (if st.displayTokens then amount / st.quotaPerUnit else amount) st.stripeUnitPrice
    amount group

def getChargedAmount (count : ℚ) (group : String) : ℚ :=
  let ratio := st.getTopupGroupRatio group
  count * if ratio = 0 then 1 else ratio

def getStripeMinTopup : ℤ :=
  if st.displayTokens then (st.stripeMinTopUp * toInt st.quotaPerUnit).bmod (2 ^ 64)
  else st.stripeMinTopUp

def getWaffoCurrency : String := if st.waffoCurrency ≠ "" then st.waffoCurrency else "USD"

def zeroDecimalCurrencies : List String := ["IDR", "JPY", "KRW", "VND"]

def formatWaffoAmount (amount : ℚ) (currency : String) : ℚ :=
  if zeroDecimalCurrencies.contains currency then Binary64.roundEven amount else twoDecimals amount

def formatWaffoPancakeAmount (payMoney : ℚ) : ℚ := roundAway (payMoney * 100) / 100

/-- At least one unit. -/
def clamp (units : ℤ) : ℤ := if units < 1 then 1 else units

def waffoAmount (amount : ℤ) : ℤ :=
  if st.displayTokens then clamp (toInt (amount / st.quotaPerUnit)) else amount

def normalizeWaffoPancakeTopUpAmount (amount : ℤ) : ℤ :=
  if !st.displayTokens then amount
  else clamp (intPart (decimalDiv amount st.quotaPerUnit))

/-! ## The quotes -/

/-- A quote from the minimum and the sum of a gateway. -/
def requestAmount (minTopup : ℤ) (payMoney : ℤ → String → ℚ) (c : Call) : Except String ℚ :=
  match c.body with
  | none => .error "参数错误"
  | some req =>
    if req.amount < minTopup then .error ("充值数量不能小于 " ++ toString minTopup)
    else match c.group with
      | none => .error "获取用户分组失败"
      | some group =>
        if payMoney req.amount group ≤ 1 / 100 then .error "充值金额过低"
        else .ok (twoDecimals (payMoney req.amount group))

def quote : Gateway → Call → Except String ℚ
  | .waffo => requestAmount st.waffoMinTopUp st.getWaffoPayMoney
  | .waffoPancake => requestAmount st.waffoPancakeMinTopUp st.getWaffoPancakePayMoney
  | .stripe => requestAmount st.getStripeMinTopup st.getStripePayMoney

/-! ## The orders -/

def Call.topUp (c : Call) (amount : ℤ) (money : ℚ) (tradeNo provider : String) : TopUp where
  id := c.rowId
  userId := c.id
  amount := amount
  money := money
  tradeNo := tradeNo
  paymentMethod := provider
  paymentProvider := provider
  createTime := c.createTime
  completeTime := 0
  status := .pending

def resolvePayMethod (req : PayRequest) : Option (String × String) :=
  match req.payMethodIndex with
  | some idx => if idx < 0 then none else st.waffoPayMethods[idx.toNat]?
  | none =>
    if req.payMethodType ≠ "" then
      st.waffoPayMethods.find? (· = (req.payMethodType, req.payMethodName))
    else some ("", "")

def requestWaffoPay (c : Call) : Except String Order :=
  if !st.complianceConfirmed then .error "请先在支付设置中确认支付合规声明"
  else if !st.waffoEnabled then .error "Waffo 支付未启用"
  else match c.body with
    | none => .error "参数错误"
    | some req =>
      if req.amount < st.waffoMinTopUp then
        .error ("充值数量不能小于 " ++ toString st.waffoMinTopUp)
      else match c.group with
        | none => .error "用户不存在"
        | some group =>
          match st.resolvePayMethod req with
          | none => .error "不支持的支付方式"
          | some payMethod =>
            let payMoney := st.getWaffoPayMoney req.amount group
            if payMoney < 1 / 100 then .error "充值金额过低"
            else if !c.inserted then .error "创建订单失败"
            else if !c.session then .error "拉起支付失败"
            else .ok ⟨formatWaffoAmount payMoney st.getWaffoCurrency, payMethod,
              Call.topUp c (st.waffoAmount req.amount) payMoney ("WAFFO-" ++ c.reference) "waffo"⟩

def requestWaffoPancakePay (c : Call) : Except String Order :=
  if !st.complianceConfirmed then .error "请先在支付设置中确认支付合规声明"
  else if !st.waffoPancakeEnabled then .error "Waffo Pancake 支付未启用"
  else if st.waffoPancakeKeys.any (trimSpace · = "") then .error "Waffo Pancake 配置不完整"
  else match c.body with
    | none => .error "参数错误"
    | some req =>
      if req.amount < st.waffoPancakeMinTopUp then
        .error ("充值数量不能小于 " ++ toString st.waffoPancakeMinTopUp)
      else match c.group with
        | none => .error "用户不存在"
        | some group =>
          let payMoney := st.getWaffoPancakePayMoney req.amount group
          if payMoney < 1 / 100 then .error "充值金额过低"
          else if !c.inserted then .error "创建订单失败"
          else if !c.session then .error "拉起支付失败"
          else .ok ⟨formatWaffoPancakeAmount payMoney, ("", ""),
            Call.topUp c (st.normalizeWaffoPancakeTopUpAmount req.amount) payMoney
              ("WAFFO_PANCAKE-" ++ c.reference) "waffo_pancake"⟩

/-- The quantity of `genStripeLink` at `StripeUnitPrice` is what is charged. -/
def requestStripePay (c : Call) : Except String Order :=
  match c.body with
  | none => .error "参数错误"
  | some req =>
    if req.paymentMethod ≠ "stripe" then .error "不支持的支付渠道"
    else if req.amount < st.getStripeMinTopup then
      .error ("充值数量不能小于 " ++ toString st.getStripeMinTopup)
    else if 10000 < req.amount then .error "充值数量不能大于 10000"
    else if req.successURL ≠ "" ∧ st.validateRedirectURL req.successURL = false then
      .error "支付成功重定向URL不在可信任域名列表中"
    else if req.cancelURL ≠ "" ∧ st.validateRedirectURL req.cancelURL = false then
      .error "支付取消重定向URL不在可信任域名列表中"
    else if !hasPrefix st.stripeApiSecret "sk_" && !hasPrefix st.stripeApiSecret "rk_" ||
        !c.session then .error "拉起支付失败"
    else if !c.inserted then .error "创建订单失败"
    else .ok ⟨req.amount * st.stripeUnitPrice, ("", ""),
      Call.topUp c req.amount (st.getChargedAmount req.amount (c.group.getD ""))
        ("ref_" ++ c.reference) TopUps.paymentProviderStripe⟩

def pay : Gateway → Call → Except String Order
  | .waffo => st.requestWaffoPay
  | .waffoPancake => st.requestWaffoPancakePay
  | .stripe => st.requestStripePay

end Settings

/-! ## The property -/

/-- `Recharge`, in a transaction of its own, adds the quota, whoever ordered. -/
def Recharges (cfg : TopUps.Config) (order : TopUp) (quota : ℤ) : Prop :=
  ∀ (user : User) (customerId : String) (now : ℤ),
    ∃ s, (recharge cfg order.tradeNo customerId now ⟨order, user⟩).bind
        (·.run applyWrite ⟨order, user⟩) = .ok s ∧
      s.order.status = .success ∧ s.user.quota = user.quota + quota

/-- The order is completed with the quota. -/
def Completes (cfg : TopUps.Config) : Gateway → TopUp → ℤ → Prop
  | .stripe => Recharges cfg
  | _ => Credits cfg

/-- The charge is the quote but for cents, and the order is credited what the amount stands
for. -/
def Honours (st : Settings) (cfg : TopUps.Config) (g : Gateway) (c : Call) (amount : ℤ)
    (order : Order) : Prop :=
  (∃ q, st.quote g c = .ok q ∧ |order.charged - q| ≤ 1 / 100) ∧
    Completes cfg g order.topUp (st.quoted amount)

namespace Settings

variable (st : Settings)

/-- Tokens are a whole number of units, which a quotient too large by `ε` does not miss, or one
unit cut to an integer; any other amount is positive and its quota fits. -/
def Whole (ε : ℚ) (amount : ℤ) : Prop :=
  if st.displayTokens then
    (∃ k : ℤ, 1 ≤ k ∧ amount ≤ k * st.quotaPerUnit ∧ k * st.quotaPerUnit < amount + 1 ∧
      k * st.quotaPerUnit - amount ≤ ε * st.quotaPerUnit) ∨
    0 < amount ∧ intPart st.quotaPerUnit = amount
  else 0 < amount ∧ amount * st.quotaPerUnit < 2 ^ 63

def Meets (columnValue : ℚ → ℤ) (amount : ℤ) (group : String) : Gateway → Prop
  | .waffo => 1 / 100 < st.getWaffoPayMoney amount group ∧ st.Whole 0 amount ∧
      (zeroDecimalCurrencies.contains st.getWaffoCurrency = true →
        |Binary64.roundEven (st.getWaffoPayMoney amount group) -
          twoDecimals (st.getWaffoPayMoney amount group)| ≤ 1 / 100)
  | .waffoPancake => 1 / 100 < st.getWaffoPancakePayMoney amount group ∧
      st.Whole (1 / (2 * 10 ^ 16)) amount
  | .stripe => 1 / 100 < st.getStripePayMoney amount group ∧
      |amount * st.stripeUnitPrice - twoDecimals (st.getStripePayMoney amount group)| ≤ 1 / 100 ∧
      columnValue (st.getChargedAmount amount group * st.quotaPerUnit) = st.quoted amount

end Settings

/-! ## Whole units -/

variable {st : Settings} {cfg : TopUps.Config} {c : Call} {req : PayRequest} {order : TopUp}
  {amount quota : ℤ} {q ε : ℚ} {group : String}

theorem le_of_intPart_eq (hpos : 0 < amount) (hlt : amount < 2 ^ 63) (hq : 1 ≤ q)
    (h : intPart q = amount) : amount ≤ q := by
  by_cases hfits : ⌊q⌋ < 2 ^ 63
  · rw [← h, intPart_of_floor_lt (by linarith) hfits]
    exact Int.floor_le q
  · have hle : amount ≤ ⌊q⌋ := by omega
    exact Int.le_floor.mp hle

/-- At least one unit, where the number of units is a quotient that is too large by `ε`. -/
theorem clamp_exact_iff {units : ℤ} (hq : 1 ≤ q) (hε : 0 ≤ ε) (hε' : ε ≤ 1 / (2 * 10 ^ 16))
    (hlt : amount < 2 ^ 63) (hunits : 0 ≤ amount → units = ⌊amount / q + ε⌋) :
    (0 < intPart (Settings.clamp units * q) ∧ intPart (Settings.clamp units * q) = amount) ↔
      (∃ k : ℤ, 1 ≤ k ∧ amount ≤ k * q ∧ k * q < amount + 1 ∧ k * q - amount ≤ ε * q) ∨
        0 < amount ∧ intPart q = amount := by
  unfold Settings.clamp
  by_cases hpos : 0 ≤ amount
  swap
  · refine iff_of_false (fun h => by omega) ?_
    rintro (⟨k, hone, -, hlt', -⟩ | ⟨h, -⟩)
    · have hkq : (1 : ℚ) ≤ k := by exact_mod_cast hone
      have hle : 1 ≤ k * q := one_le_mul_of_one_le_of_one_le hkq hq
      have hamount : (0 : ℚ) < amount := by linarith
      exact hpos (by exact_mod_cast hamount.le)
    · omega
  have hiff := multiple_exact_iff hq hε hε' hpos hlt
  rw [← hunits hpos] at hiff
  have hcast : (0 : ℚ) ≤ amount := by exact_mod_cast hpos
  have hdiv : 0 ≤ amount / q := by positivity
  split
  · rename_i hzero
    rw [Int.cast_one, one_mul]
    constructor
    · exact fun h => .inr ⟨h.2 ▸ h.1, h.2⟩
    · rintro (h | h)
      · -- no unit at all is worth nothing
        have hnonneg : 0 ≤ units := by
          rw [hunits hpos]
          exact Int.floor_nonneg.mpr (by positivity)
        have hnone : units = 0 := by omega
        have hworth := (hiff.mpr h).1
        rw [hnone] at hworth
        simp [intPart] at hworth
      · exact ⟨h.2.symm ▸ h.1, h.2⟩
  · rename_i hone
    rw [hiff]
    refine ⟨.inl, ?_⟩
    rintro (h | ⟨hamount, hq'⟩)
    · exact h
    · have hle := le_of_intPart_eq hamount hlt hq hq'
      have hunit : units = 1 := by
        have hdiv' : amount / q ≤ 1 := (div_le_one (by linarith)).mpr hle
        have hlt' : units < 2 := by
          rw [hunits hpos]
          refine Int.floor_lt.mpr ?_
          push_cast
          linarith
        omega
      rw [← hiff, hunit, Int.cast_one, one_mul]
      exact ⟨hq'.symm ▸ hamount, hq'⟩

theorem waffo_exact_iff (hlt : amount < 2 ^ 63) :
    (0 < intPart (st.waffoAmount amount * st.quotaPerUnit) ∧
      intPart (st.waffoAmount amount * st.quotaPerUnit) = st.quoted amount) ↔
      st.Whole 0 amount := by
  unfold Settings.waffoAmount QuotedTopUp.Settings.quoted Settings.Whole
  split
  · refine clamp_exact_iff st.one_le_quotaPerUnit (le_refl _) (by norm_num) hlt fun hpos => ?_
    have hcast : (0 : ℚ) ≤ amount := by exact_mod_cast hpos
    rw [add_zero, toInt_of_nonneg (div_nonneg hcast (by linarith [st.one_le_quotaPerUnit]))]
  · exact money_exact_iff st.one_le_quotaPerUnit

theorem pancake_exact_iff (hlt : amount < 2 ^ 63) :
    (0 < intPart (st.normalizeWaffoPancakeTopUpAmount amount * st.quotaPerUnit) ∧
      intPart (st.normalizeWaffoPancakeTopUpAmount amount * st.quotaPerUnit) =
        st.quoted amount) ↔
      st.Whole (1 / (2 * 10 ^ 16)) amount := by
  unfold Settings.normalizeWaffoPancakeTopUpAmount QuotedTopUp.Settings.quoted Settings.Whole
  cases st.displayTokens
  · exact money_exact_iff st.one_le_quotaPerUnit
  · exact clamp_exact_iff st.one_le_quotaPerUnit (by norm_num) (le_refl _) hlt fun hpos =>
      QuotedTopUp.stored_tokens st.one_le_quotaPerUnit hpos hlt

/-! ## Charges and quotes -/

theorem quote_eq {minTopup : ℤ} (payMoney : ℤ → String → ℚ) (hbody : c.body = some req)
    (hgroup : c.group = some group) (hmin : minTopup ≤ req.amount) (charged : ℚ) :
    (∃ q, Settings.requestAmount minTopup payMoney c = .ok q ∧ |charged - q| ≤ 1 / 100) ↔
      1 / 100 < payMoney req.amount group ∧
        |charged - twoDecimals (payMoney req.amount group)| ≤ 1 / 100 := by
  unfold Settings.requestAmount
  rw [hbody, hgroup]
  dsimp only
  rw [if_neg (by omega)]
  constructor
  · rintro ⟨q, h, hnear⟩
    split at h
    · cases h
    · rename_i hlow
      cases h
      exact ⟨not_le.mp hlow, hnear⟩
  · rintro ⟨hlow, hnear⟩
    exact ⟨_, if_neg (not_le.mpr hlow), hnear⟩

theorem waffo_near (x : ℚ) (currency : String) :
    |Settings.formatWaffoAmount x currency - twoDecimals x| ≤ 1 / 100 ↔
      (Settings.zeroDecimalCurrencies.contains currency = true →
        |Binary64.roundEven x - twoDecimals x| ≤ 1 / 100) := by
  unfold Settings.formatWaffoAmount
  split
  · rename_i hzero
    exact ⟨fun h _ => h, fun h => h hzero⟩
  · rename_i hcents
    rw [sub_self, abs_zero]
    exact iff_of_true (by norm_num) fun hzero => absurd hzero hcents

theorem pancake_near {x : ℚ} (h : 0 ≤ x) :
    |Settings.formatWaffoPancakeAmount x - twoDecimals x| ≤ 1 / 100 := by
  unfold Settings.formatWaffoPancakeAmount twoDecimals
  have hx : 0 ≤ x * 100 := by positivity
  have haway : ⌊x * 100⌋ ≤ roundAway (x * 100) ∧ roundAway (x * 100) ≤ ⌊x * 100⌋ + 1 := by
    rw [roundAway_of_nonneg hx]
    refine ⟨Int.floor_le_floor (by linarith), ?_⟩
    rw [← Int.floor_add_one]
    exact Int.floor_le_floor (by linarith)
  have heven : Binary64.roundEven (x * 100) = ⌊x * 100⌋ ∨
      Binary64.roundEven (x * 100) = ⌊x * 100⌋ + 1 := by
    unfold Binary64.roundEven
    split
    · exact .inl rfl
    · exact .inr rfl
  have hdiff : |roundAway (x * 100) - Binary64.roundEven (x * 100)| ≤ 1 := by
    rw [abs_le]
    omega
  have hcast : |((roundAway (x * 100) : ℤ) : ℚ) - Binary64.roundEven (x * 100)| ≤ 1 := by
    exact_mod_cast hdiff
  rw [← sub_div, abs_div, abs_of_pos (by norm_num : (0 : ℚ) < 100)]
  linarith

/-! ## Completion -/

theorem recharge_of_pending (cfg : TopUps.Config) (user : User) (customerId : String) (now : ℤ)
    (htrade : order.tradeNo ≠ "") (hstatus : order.status = .pending)
    (hprovider : order.paymentProvider = TopUps.paymentProviderStripe) :
    ∃ s, (recharge cfg order.tradeNo customerId now ⟨order, user⟩).bind
        (·.run applyWrite ⟨order, user⟩) = .ok s ∧
      s.order.status = .success ∧
      s.user.quota = user.quota + cfg.columnValue (order.money * cfg.quotaPerUnit) := by
  unfold recharge TopUps.rechargeWith TopUps.firstByTradeNo
  dsimp only
  rw [if_neg htrade, if_pos rfl]
  dsimp only
  rw [if_neg (by rw [hprovider]; simp), if_neg (by rw [hstatus]; simp)]
  dsimp only [Except.bind]
  rw [Sql.Script.run_exec, Sql.Script.run_exec]
  obtain ⟨group, hrun⟩ := run_upgrade cfg order.userId
    ([.setStripeCustomer customerId,
      .addQuota (cfg.columnValue (order.money * cfg.quotaPerUnit))].foldl applyWrite
      ([.saveOrder (order.completed now)].foldl applyWrite ⟨order, user⟩))
  exact ⟨_, hrun, rfl, rfl⟩

theorem recharges_iff (htrade : order.tradeNo ≠ "") (hstatus : order.status = .pending)
    (hprovider : order.paymentProvider = TopUps.paymentProviderStripe) :
    Recharges cfg order quota ↔ cfg.columnValue (order.money * cfg.quotaPerUnit) = quota := by
  constructor
  · intro h
    obtain ⟨s, hs, -, hadded⟩ := h ⟨0, "", "", ""⟩ "" 0
    obtain ⟨s', hs', -, hadded'⟩ :=
      recharge_of_pending cfg ⟨0, "", "", ""⟩ "" 0 htrade hstatus hprovider
    rw [hs] at hs'
    cases hs'
    omega
  · rintro rfl user customerId now
    exact recharge_of_pending cfg user customerId now htrade hstatus hprovider

theorem credits_iff (c : Call) (units : ℤ) (money : ℚ) {tradeNo provider : String}
    (htrade : trimSpace tradeNo ≠ "") (hprovider : provider ≠ TopUps.paymentProviderStripe)
    (upgradeGroup : String) (columnValue : ℚ → ℤ) :
    Credits (st.topUps upgradeGroup columnValue)
        (Settings.Call.topUp c units money tradeNo provider) quota ↔
      0 < intPart (units * st.quotaPerUnit) ∧ intPart (units * st.quotaPerUnit) = quota := by
  have hadded : TopUps.quotaToAdd (st.topUps upgradeGroup columnValue)
      (Settings.Call.topUp c units money tradeNo provider) =
        intPart (units * st.quotaPerUnit) := by
    unfold TopUps.quotaToAdd Settings.Call.topUp
    dsimp only
    rw [if_neg hprovider]
    rfl
  rw [@QuotedTopUp.credits_iff _ (Settings.Call.topUp c units money tradeNo provider) _ htrade rfl,
    hadded]

/-! ## The gateways -/

theorem waffo_accepted {o : Order} (hbody : c.body = some req) (hgroup : c.group = some group)
    (h : st.requestWaffoPay c = .ok o) : st.waffoMinTopUp ≤ req.amount ∧
      o.charged = Settings.formatWaffoAmount (st.getWaffoPayMoney req.amount group)
        st.getWaffoCurrency ∧
      o.topUp = Settings.Call.topUp c (st.waffoAmount req.amount)
        (st.getWaffoPayMoney req.amount group) ("WAFFO-" ++ c.reference) "waffo" := by
  unfold Settings.requestWaffoPay at h
  rw [hbody, hgroup] at h
  dsimp only at h
  split at h
  · cases h
  split at h
  · cases h
  split at h
  · cases h
  rename_i hmin
  split at h
  · cases h
  split at h
  · cases h
  split at h
  · cases h
  split at h
  · cases h
  cases h
  exact ⟨not_lt.mp hmin, rfl, rfl⟩

theorem pancake_accepted {o : Order} (hbody : c.body = some req) (hgroup : c.group = some group)
    (h : st.requestWaffoPancakePay c = .ok o) : st.waffoPancakeMinTopUp ≤ req.amount ∧
      1 / 100 ≤ st.getWaffoPancakePayMoney req.amount group ∧
      o.charged =
        Settings.formatWaffoPancakeAmount (st.getWaffoPancakePayMoney req.amount group) ∧
      o.topUp = Settings.Call.topUp c (st.normalizeWaffoPancakeTopUpAmount req.amount)
        (st.getWaffoPancakePayMoney req.amount group) ("WAFFO_PANCAKE-" ++ c.reference)
        "waffo_pancake" := by
  unfold Settings.requestWaffoPancakePay at h
  rw [hbody, hgroup] at h
  dsimp only at h
  split at h
  · cases h
  split at h
  · cases h
  split at h
  · cases h
  split at h
  · cases h
  rename_i hmin
  split at h
  · cases h
  rename_i hlow
  split at h
  · cases h
  split at h
  · cases h
  cases h
  exact ⟨not_lt.mp hmin, not_lt.mp hlow, rfl, rfl⟩

theorem stripe_accepted {o : Order} (hbody : c.body = some req) (hgroup : c.group = some group)
    (h : st.requestStripePay c = .ok o) : st.getStripeMinTopup ≤ req.amount ∧
      o.charged = req.amount * st.stripeUnitPrice ∧
      o.topUp = Settings.Call.topUp c req.amount (st.getChargedAmount req.amount group)
        ("ref_" ++ c.reference) TopUps.paymentProviderStripe := by
  unfold Settings.requestStripePay at h
  rw [hbody, hgroup] at h
  dsimp only at h
  split at h
  · cases h
  split at h
  · cases h
  rename_i hmin
  split at h
  · cases h
  split at h
  · cases h
  split at h
  · cases h
  split at h
  · cases h
  split at h
  · cases h
  cases h
  exact ⟨not_lt.mp hmin, rfl, rfl⟩

/-- A group at four fifths of the price. -/
def sampleSettings : Settings where
  quotaDisplayType := "USD"
  quotaPerUnit := 500000
  one_le_quotaPerUnit := by decide
  price := 1
  minTopUp := 1
  topupGroupRatio := fun group => if group = "vip" then some (4 / 5) else none
  amountOptions := []
  amountDiscount := fun _ => none
  complianceConfirmed := true
  payMethods := []
  waffoEnabled := true
  waffoUnitPrice := 1
  waffoMinTopUp := 1
  waffoCurrency := ""
  waffoPayMethods := []
  waffoPancakeEnabled := true
  waffoPancakeKeys := []
  waffoPancakeUnitPrice := 1
  waffoPancakeMinTopUp := 1
  stripeUnitPrice := 1
  stripeMinTopUp := 1
  stripeApiSecret := "sk_live"
  validateRedirectURL := fun _ => true

def sampleRequest : PayRequest := ⟨10, by decide, by decide, "stripe", "", "", none, "", ""⟩

def sampleCall : Call := ⟨some sampleRequest, 7, some "vip", "1", 1700000000, 1, true, true⟩

end CardGateways
