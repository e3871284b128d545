import GMasterApi.Lib.GoFloat
import GMasterApi.Lib.GoString
import GMasterApi.Lib.Transaction
import GMasterApi.Store.Query

/-!
# Top-up orders

Four entry points settle a pending order: `CompleteTopUpByTradeNo`, `Recharge`
(Stripe), `RechargeCreem` and `UpdatePendingTopUpStatus`.  Each reads the order
in one statement, checks that it is pending, and saves the whole row in a later
one.  `LockOrder` holds callers of one process apart; Waffo's failure route does
not take it, and the `FOR UPDATE` of the `SELECT` is not emitted.

`topup_paid_once_iff` says exactly which commits keep an order paid once.
-/

namespace TopUps

open Sql Transition GoString

inductive TopUpStatus
  | pending
  | success
  | failed
  | expired
  | other (text : String)
  deriving DecidableEq

/-- A row of `top_ups`. -/
structure TopUp where
  id : ℕ
  userId : ℤ
  amount : ℤ
  money : ℚ
  tradeNo : String
  paymentMethod : String
  paymentProvider : String
  createTime : ℤ
  completeTime : ℤ
  status : TopUpStatus
  deriving DecidableEq

/-- The columns of `users` that a payment touches. -/
structure User where
  quota : ℤ
  group : String
  email : String
  stripeCustomer : String
  deriving DecidableEq

/-- The order and the row of its user. -/
structure Store where
  order : TopUp
  user : User
  deriving DecidableEq

/-- `columnValue` is what the integer column `quota` keeps of a fractional sum,
which depends on the database. -/
structure Config where
  quotaPerUnit : ℚ
  topUpUpgradeGroup : String
  columnValue : ℚ → ℤ

inductive Call
  | completeTopUpByTradeNo (tradeNo : String) (expectedPaymentProviders : List String) (now : ℤ)
  | updatePendingTopUpStatus (tradeNo expectedPaymentProvider : String) (targetStatus : TopUpStatus)
  | recharge (referenceId customerId : String) (now : ℤ)
  | rechargeCreem (referenceId customerEmail : String) (now : ℤ)
  deriving DecidableEq

def Call.tradeNo : Call → String
  | .completeTopUpByTradeNo tradeNo _ _ => tradeNo
  | .updatePendingTopUpStatus tradeNo _ _ => tradeNo
  | .recharge referenceId _ _ => referenceId
  | .rechargeCreem referenceId _ _ => referenceId

/-- A call and the process whose `LockOrder` its handler holds, if it took it. -/
structure Request where
  call : Call
  orderLock : Option ℕ
  deriving DecidableEq

inductive Lock
  | order (process : ℕ) (tradeNo : String)
  | row (tradeNo : String)
  deriving DecidableEq

inductive Write
  | saveOrder (row : TopUp)
  | addQuota (n : ℤ)
  | setStripeCustomer (customerId : String)
  | setEmail (email : String)
  | setGroup (group : String)
  deriving DecidableEq

def applyWrite (s : Store) : Write → Store
  | .saveOrder row => { s with order := row }
  | .addQuota n => { s with user := { s.user with quota := s.user.quota + n } }
  | .setStripeCustomer c => { s with user := { s.user with stripeCustomer := c } }
  | .setEmail e => { s with user := { s.user with email := e } }
  | .setGroup g => { s with user := { s.user with group := g } }

/-! ## The four calls -/

abbrev Tx := Script Store Write String

def errPaymentMethodMismatch : String := "payment method mismatch"
def errTopUpNotFound : String := "topup not found"
def errTopUpStatusInvalid : String := "topup status invalid"

def paymentProviderStripe : String := "stripe"
def paymentProviderCreem : String := "creem"

def firstByTradeNo (s : Store) (tradeNo : String) : Option TopUp :=
  if s.order.tradeNo = tradeNo then some s.order else none

def upgradeUserGroupAfterTopUpTx (cfg : Config) (userId : ℤ) : Tx :=
  let upgradeGroup := trimSpace cfg.topUpUpgradeGroup
  if userId ≤ 0 ∨ upgradeGroup = "" then .done
  else .select fun v =>
    .ok (if trimSpace v.user.group = upgradeGroup then .done else .exec [.setGroup upgradeGroup] .done)

/-- `int(decimal.IntPart())` of the amount paid or ordered, in quota units. -/
def quotaToAdd (cfg : Config) (topUp : TopUp) : ℤ :=
  let units := if topUp.paymentProvider = paymentProviderStripe then topUp.money else topUp.amount
  GoFloat.intPart (units * cfg.quotaPerUnit)

def TopUp.completed (topUp : TopUp) (now : ℤ) : TopUp :=
  { topUp with completeTime := now, status := .success }

/-- The order with the payment method that the provider reported. -/
def TopUp.paidBy (topUp : TopUp) (actualPaymentMethod : String) : TopUp :=
  if actualPaymentMethod ≠ "" ∧ topUp.paymentMethod ≠ actualPaymentMethod then
    { topUp with paymentMethod := actualPaymentMethod }
  else topUp

@[simp] theorem TopUp.paidBy_provider (topUp : TopUp) (method : String) :
    (topUp.paidBy method).paymentProvider = topUp.paymentProvider := by
  unfold TopUp.paidBy
  split <;> rfl

def completeTopUpByTradeNo (cfg : Config) (tradeNo : String) (expected : List String) (now : ℤ)
    (seen : Store) : Except String Tx :=
  if trimSpace tradeNo = "" then .error "未提供订单号"
  else
    let expectedProvider := trimSpace (expected.getD 0 "")
    let actualPaymentMethod := trimSpace (expected.getD 1 "")
    match firstByTradeNo seen tradeNo with
    | none => .error "充值订单不存在"
    | some topUp =>
      if expectedProvider ≠ "" ∧ topUp.paymentProvider ≠ expectedProvider then
        .error errPaymentMethodMismatch
      else if topUp.status = .success then .ok .done
      else if topUp.status ≠ .pending then .error "充值订单状态错误"
      else
        let topUp := topUp.paidBy actualPaymentMethod
        if quotaToAdd cfg topUp ≤ 0 then .error "无效的充值额度"
        else .ok (.exec [.saveOrder (topUp.completed now)]
          (.exec [.addQuota (quotaToAdd cfg topUp)]
            (upgradeUserGroupAfterTopUpTx cfg topUp.userId)))

def updatePendingTopUpStatus (tradeNo expectedPaymentProvider : String) (targetStatus : TopUpStatus)
    (seen : Store) : Except String Tx :=
  if tradeNo = "" then .error "未提供支付单号"
  else
    match firstByTradeNo seen tradeNo with
    | none => .error errTopUpNotFound
    | some topUp =>
      if expectedPaymentProvider ≠ "" ∧ topUp.paymentProvider ≠ expectedPaymentProvider then
        .error errPaymentMethodMismatch
      else if topUp.status ≠ .pending then .error errTopUpStatusInvalid
      else .ok (.exec [.saveOrder { topUp with status := targetStatus }] .done)

/-- The checks that `Recharge` and `RechargeCreem` share, with the error that both
return for any failure in their transaction. -/
def rechargeWith (provider referenceId : String) (seen : Store) (script : TopUp → Tx) :
    Except String Tx :=
  if referenceId = "" then .error "未提供支付单号"
  else
    match firstByTradeNo seen referenceId with
    | none => .error "充值失败，请稍后重试"
    | some topUp =>
      if topUp.paymentProvider ≠ provider then .error "充值失败，请稍后重试"
      else if topUp.status ≠ .pending then .error "充值失败，请稍后重试"
      else .ok (script topUp)

def recharge (cfg : Config) (referenceId customerId : String) (now : ℤ) (seen : Store) :
    Except String Tx :=
  rechargeWith paymentProviderStripe referenceId seen fun topUp =>
    .exec [.saveOrder (topUp.completed now)]
      (.exec [.setStripeCustomer customerId,
          .addQuota (cfg.columnValue (topUp.money * cfg.quotaPerUnit))]
        (upgradeUserGroupAfterTopUpTx cfg topUp.userId))

def rechargeCreem (cfg : Config) (referenceId customerEmail : String) (now : ℤ) (seen : Store) :
    Except String Tx :=
  rechargeWith paymentProviderCreem referenceId seen fun topUp =>
    let addQuota : List Write := [.addQuota topUp.amount]
    let upgrade := upgradeUserGroupAfterTopUpTx cfg topUp.userId
    .exec [.saveOrder (topUp.completed now)]
      (if customerEmail ≠ "" then
        -- the payer's address is kept only where the user has none
        .select fun v =>
          .ok (.exec (if v.user.email = "" then .setEmail customerEmail :: addQuota else addQuota)
            upgrade)
      else .exec addQuota upgrade)

def body (cfg : Config) (r : Request) (seen : Store) : Except String Tx :=
  match r.call with
  | .completeTopUpByTradeNo tradeNo expected now =>
    completeTopUpByTradeNo cfg tradeNo expected now seen
  | .updatePendingTopUpStatus tradeNo provider target =>
    updatePendingTopUpStatus tradeNo provider target seen
  | .recharge referenceId customerId now => recharge cfg referenceId customerId now seen
  | .rechargeCreem referenceId customerEmail now =>
    rechargeCreem cfg referenceId customerEmail now seen

def locks (r : Request) : List Lock :=
  r.orderLock.toList.map (fun process => .order process r.call.tradeNo) ++
    (Gorm.selectForUpdate "trade_no = ?").rowLocks [.row r.call.tradeNo]

/-- Any number of the four calls, from any number of processes. -/
def protocol (cfg : Config) : Protocol Store Request Write String Lock where
  body := body cfg
  apply := applyWrite
  locks := locks

/-! ## What is to hold of an order -/

abbrev History := List (Request × List Write)

/-- The increases of the user's quota in a list of writes. -/
def writeCredits (ws : List Write) : List ℤ :=
  ws.filterMap fun w => match w with
    | .addQuota n => if 0 < n then some n else none
    | _ => none

def credits (hs : History) : List ℤ := hs.flatMap fun h => writeCredits h.2

/-- The writes save the order with a status other than pending. -/
def leavesPending (ws : List Write) : Bool :=
  ws.any fun w => match w with
    | .saveOrder row => row.status ≠ .pending
    | _ => false

def leftPending (hs : History) : Bool := hs.any fun h => leavesPending h.2

/-- The provider that a call names.  `CompleteTopUpByTradeNo` trims its argument
and takes a blank one for none, as the manual completion by an administrator. -/
def Call.provider : Call → Option String
  | .completeTopUpByTradeNo _ expected _ =>
    let p := trimSpace (expected.getD 0 "")
    if p ≠ "" then some p else none
  | .updatePendingTopUpStatus _ p _ => if p ≠ "" then some p else none
  | .recharge _ _ _ => some paymentProviderStripe
  | .rechargeCreem _ _ _ => some paymentProviderCreem

/-- **Credited at most once**, never after another call took the order out of
pending, never for an order that does not end as a success, and not at all by a
call for another provider. -/
structure PaidOnce (order : TopUp) (s : Store) (hs : History) : Prop where
  once : (credits hs).length ≤ 1
  unpaid : s.order.status ≠ .success → credits hs = []
  timely : hs.Pairwise fun earlier later => writeCredits later.2 ≠ [] → leavesPending earlier.2 = false
  provider : ∀ h ∈ hs, ∀ p, h.1.call.provider = some p → p ≠ order.paymentProvider → h.2 = []

/-- The condition on a commit: if it credits, no earlier one took the order out of
pending; if it saves a status other than success, nothing has been credited. -/
def Timely (_ : Store) (hs : History) (o : Open Store Request Write String) : Prop :=
  (writeCredits o.pending ≠ [] → leftPending hs = false) ∧
    ∀ row, .saveOrder row ∈ o.pending → row.status ≠ .success → credits hs = []

/-! ## What a call writes -/

variable {cfg : Config} {order : TopUp} {s : Store} {hs : History}
  {o : Open Store Request Write String}

/-- A write to the row of the user. -/
def Write.toUser : Write → Bool
  | .saveOrder _ => false
  | _ => true

theorem upgrade_writes {userId : ℤ} {ws : List Write}
    (h : Answers (upgradeUserGroupAfterTopUpTx cfg userId) ws) :
    writeCredits ws = [] ∧ ∀ w ∈ ws, w.toUser = true := by
  unfold upgradeUserGroupAfterTopUpTx at h
  dsimp only at h
  split at h
  · rw [h.of_done]
    simp [writeCredits]
  · obtain ⟨v, rest, hv, h₁⟩ := h.of_select
    cases hv
    split at h₁
    · rw [h₁.of_done]
      simp [writeCredits]
    · obtain ⟨_, h₂, rfl⟩ := h₁.of_exec
      rw [h₂.of_done]
      simp [writeCredits, Write.toUser]

/-- The writes of a call that saves `row`: it credits after that only where `row`
is a success. -/
def Saves (row : TopUp) (ws : List Write) : Prop :=
  ∃ rest, ws = .saveOrder row :: rest ∧ (writeCredits rest).length ≤ 1 ∧
    (∀ w ∈ rest, w.toUser = true) ∧ (row.status = .success ∨ rest = [])

theorem saves_of_parts {row : TopUp} {mid rest : List Write} (hrow : row.status = .success)
    (hmid : (writeCredits mid).length ≤ 1) (hmid' : ∀ w ∈ mid, w.toUser = true)
    (hrest : writeCredits rest = [] ∧ ∀ w ∈ rest, w.toUser = true) :
    Saves row ([.saveOrder row] ++ (mid ++ rest)) := by
  refine ⟨mid ++ rest, rfl, ?_, ?_, .inl hrow⟩
  · have happ : writeCredits (mid ++ rest) = writeCredits mid ++ writeCredits rest := by
      simp [writeCredits]
    rw [happ, hrest.1, List.append_nil]
    exact hmid
  · intro w hw
    rcases List.mem_append.mp hw with hw | hw
    · exact hmid' w hw
    · exact hrest.2 w hw

theorem firstByTradeNo_eq {tradeNo : String} {topUp : TopUp}
    (h : firstByTradeNo s tradeNo = some topUp) : topUp = s.order := by
  unfold firstByTradeNo at h
  split at h
  · exact (Option.some.inj h).symm
  · cases h

/-- What any of the calls may do: nothing, or save the order once, if it names no
other provider. -/
def Allowed (r : Request) (seen : Store) (ws : List Write) : Prop :=
  (∀ p, r.call.provider = some p → p = seen.order.paymentProvider) ∧
    (ws = [] ∨ ∃ row : TopUp, row.paymentProvider = seen.order.paymentProvider ∧ Saves row ws)

theorem writeCredits_addQuota (n : ℤ) : (writeCredits [.addQuota n]).length ≤ 1 := by
  unfold writeCredits
  exact (List.length_filterMap_le _ _).trans (by simp)

/-- A provider that passes the check of an order is the order's. -/
theorem provider_of_check {held given p : String} (hprovider : ¬ (given ≠ "" ∧ held ≠ given))
    (hp : (if given ≠ "" then some given else none) = some p) : p = held := by
  split at hp
  · rename_i hne
    rw [← Option.some.inj hp]
    by_contra hdiff
    exact hprovider ⟨hne, fun e => hdiff e.symm⟩
  · cases hp

theorem completeTopUpByTradeNo_allowed {tradeNo : String} {expected : List String} {now : ℤ}
    {seen : Store} {lock : Option ℕ} {sc : Tx} {ws : List Write}
    (h : completeTopUpByTradeNo cfg tradeNo expected now seen = .ok sc) (hw : Answers sc ws) :
    Allowed ⟨.completeTopUpByTradeNo tradeNo expected now, lock⟩ seen ws := by
  unfold completeTopUpByTradeNo at h
  split at h
  · cases h
  dsimp only at h
  split at h
  · cases h
  rename_i topUp hfirst
  obtain rfl := firstByTradeNo_eq hfirst
  split at h
  · cases h
  rename_i hprovider
  refine ⟨fun p hp => provider_of_check hprovider hp, ?_⟩
  split at h
  · cases h
    exact .inl hw.of_done
  split at h
  · cases h
  split at h
  · cases h
  · cases h
    have hpaid := TopUp.paidBy_provider seen.order (trimSpace (expected.getD 1 ""))
    generalize seen.order.paidBy (trimSpace (expected.getD 1 "")) = topUp at hw hpaid
    obtain ⟨_, h₁, rfl⟩ := hw.of_exec
    obtain ⟨_, h₂, rfl⟩ := h₁.of_exec
    exact .inr ⟨topUp.completed now, hpaid, saves_of_parts rfl (writeCredits_addQuota _)
      (by simp [Write.toUser]) (upgrade_writes h₂)⟩

theorem updatePendingTopUpStatus_allowed {tradeNo provider : String} {target : TopUpStatus}
    {seen : Store} {lock : Option ℕ} {sc : Tx} {ws : List Write}
    (h : updatePendingTopUpStatus tradeNo provider target seen = .ok sc) (hw : Answers sc ws) :
    Allowed ⟨.updatePendingTopUpStatus tradeNo provider target, lock⟩ seen ws := by
  unfold updatePendingTopUpStatus at h
  split at h
  · cases h
  split at h
  · cases h
  rename_i topUp hfirst
  obtain rfl := firstByTradeNo_eq hfirst
  split at h
  · cases h
  rename_i hprovider
  split at h
  · cases h
  cases h
  obtain ⟨_, h₁, rfl⟩ := hw.of_exec
  rw [h₁.of_done]
  refine ⟨fun p hp => provider_of_check hprovider hp,
    .inr ⟨{ seen.order with status := target }, rfl, ?_⟩⟩
  exact ⟨[], rfl, by simp [writeCredits], by simp, .inr rfl⟩

theorem rechargeWith_ok {provider referenceId : String} {seen : Store} {script : TopUp → Tx}
    {sc : Tx} (h : rechargeWith provider referenceId seen script = .ok sc) :
    provider = seen.order.paymentProvider ∧ sc = script seen.order := by
  unfold rechargeWith at h
  split at h
  · cases h
  split at h
  · cases h
  rename_i topUp hfirst
  obtain rfl := firstByTradeNo_eq hfirst
  split at h
  · cases h
  rename_i hprovider
  split at h
  · cases h
  · exact ⟨(not_not.mp hprovider).symm, (Except.ok.inj h).symm⟩

theorem recharge_allowed {referenceId customerId : String} {now : ℤ} {seen : Store}
    {lock : Option ℕ} {sc : Tx} {ws : List Write}
    (h : recharge cfg referenceId customerId now seen = .ok sc) (hw : Answers sc ws) :
    Allowed ⟨.recharge referenceId customerId now, lock⟩ seen ws := by
  obtain ⟨hp, rfl⟩ := rechargeWith_ok h
  obtain ⟨_, h₁, rfl⟩ := hw.of_exec
  obtain ⟨_, h₂, rfl⟩ := h₁.of_exec
  refine ⟨fun p hp' => (Option.some.inj hp') ▸ hp, .inr ⟨seen.order.completed now, rfl, ?_⟩⟩
  refine saves_of_parts rfl ?_ ?_ (upgrade_writes h₂)
  · exact writeCredits_addQuota _
  · simp [Write.toUser]

theorem rechargeCreem_allowed {referenceId email : String} {now : ℤ} {seen : Store}
    {lock : Option ℕ} {sc : Tx} {ws : List Write}
    (h : rechargeCreem cfg referenceId email now seen = .ok sc) (hw : Answers sc ws) :
    Allowed ⟨.rechargeCreem referenceId email now, lock⟩ seen ws := by
  obtain ⟨hp, rfl⟩ := rechargeWith_ok h
  refine ⟨fun p hp' => (Option.some.inj hp') ▸ hp, .inr ⟨seen.order.completed now, rfl, ?_⟩⟩
  obtain ⟨_, h₁, rfl⟩ := hw.of_exec
  split at h₁
  · obtain ⟨v, rest, hv, h₂⟩ := h₁.of_select
    cases hv
    obtain ⟨_, h₃, rfl⟩ := h₂.of_exec
    refine saves_of_parts rfl ?_ ?_ (upgrade_writes h₃)
    · split
      · exact writeCredits_addQuota _
      · exact writeCredits_addQuota _
    · split <;> simp [Write.toUser]
  · obtain ⟨_, h₂, rfl⟩ := h₁.of_exec
    exact saves_of_parts rfl (writeCredits_addQuota _) (by simp [Write.toUser]) (upgrade_writes h₂)

/-- Everything a committed call may have written. -/
theorem outcome {r : Request} {seen : Store} {ws : List Write}
    (h : (protocol cfg).Outcome r seen ws) : Allowed r seen ws := by
  obtain ⟨sc, hb, hw⟩ := h
  obtain ⟨call, lock⟩ := r
  simp only [protocol, body] at hb
  cases call with
  | completeTopUpByTradeNo tradeNo expected now => exact completeTopUpByTradeNo_allowed hb hw
  | updatePendingTopUpStatus tradeNo provider target => exact updatePendingTopUpStatus_allowed hb hw
  | recharge referenceId customerId now => exact recharge_allowed hb hw
  | rechargeCreem referenceId email now => exact rechargeCreem_allowed hb hw

/-! ## When an order is paid once -/

@[simp] theorem credits_append (hs : History) (r : Request) (ws : List Write) :
    credits (hs ++ [(r, ws)]) = credits hs ++ writeCredits ws := by
  simp [credits]

theorem leftPending_append (hs : History) (r : Request) (ws : List Write) :
    leftPending (hs ++ [(r, ws)]) = (leftPending hs || leavesPending ws) := by
  simp [leftPending]

theorem write_order_of_toUser (rest : List Write) (h : ∀ w ∈ rest, w.toUser = true) (s : Store) :
    ((protocol cfg).write s rest).order = s.order := by
  induction rest generalizing s with
  | nil => rfl
  | cons w rest ih =>
    have hw : (applyWrite s w).order = s.order := by
      have := h w List.mem_cons_self
      cases w with
      | saveOrder row => cases this
      | _ => rfl
    have hrest := ih (fun w' hw' => h w' (List.mem_cons_of_mem _ hw')) (applyWrite s w)
    rw [hw] at hrest
    exact hrest

/-- A call that saves `row` leaves the order as `row`. -/
theorem Saves.write {row : TopUp} {ws : List Write} (h : Saves row ws) (s : Store) :
    ((protocol cfg).write s ws).order = row := by
  obtain ⟨rest, rfl, -, huser, -⟩ := h
  exact write_order_of_toUser rest huser { s with order := row }

theorem Saves.credits_length {row : TopUp} {ws : List Write} (h : Saves row ws) :
    (writeCredits ws).length ≤ 1 := by
  obtain ⟨rest, rfl, hlen, -, -⟩ := h
  exact hlen

/-- A call that credits has settled the order. -/
theorem Saves.success {row : TopUp} {ws : List Write} (h : Saves row ws)
    (hc : writeCredits ws ≠ []) : row.status = .success := by
  obtain ⟨rest, rfl, -, -, hst⟩ := h
  rcases hst with hst | rfl
  · exact hst
  · exact absurd rfl hc

theorem Saves.leavesPending {row : TopUp} {ws : List Write} (h : Saves row ws)
    (hc : writeCredits ws ≠ []) : leavesPending ws = true := by
  have hst := h.success hc
  obtain ⟨rest, rfl, -, -, -⟩ := h
  simp [TopUps.leavesPending, hst]

theorem Saves.saved {row row' : TopUp} {ws : List Write} (h : Saves row ws)
    (hmem : .saveOrder row' ∈ ws) : row' = row := by
  obtain ⟨rest, rfl, -, huser, -⟩ := h
  rcases List.mem_cons.mp hmem with hmem | hmem
  · cases hmem
    rfl
  · have := huser _ hmem
    cases this

/-- What holds after the commits `hs`. -/
structure Inv (order : TopUp) (s : Store) (hs : History) : Prop where
  paid : PaidOnce order s hs
  provider : s.order.paymentProvider = order.paymentProvider
  left : credits hs ≠ [] → leftPending hs = true

def SameProvider (order : TopUp) (s : Store) : Prop :=
  s.order.paymentProvider = order.paymentProvider

theorem Inv.initial (order : TopUp) (user : User) : Inv order ⟨order, user⟩ [] :=
  ⟨⟨by simp [credits], fun _ => rfl, .nil, by simp⟩, rfl, fun h => absurd rfl h⟩

/-- Appending a commit that credits only while the order was pending. -/
theorem timely_append (h : PaidOnce order s hs) {r : Request} {ws : List Write}
    (hc : writeCredits ws ≠ [] → leftPending hs = false) :
    (hs ++ [(r, ws)]).Pairwise fun earlier later =>
      writeCredits later.2 ≠ [] → leavesPending earlier.2 = false := by
  rw [List.pairwise_append]
  refine ⟨h.timely, List.pairwise_singleton _ _, fun h₁ hmem h₂ hmem' hcred => ?_⟩
  rw [List.mem_singleton] at hmem'
  subst hmem'
  have hall := hc hcred
  unfold leftPending at hall
  rw [List.any_eq_false] at hall
  simpa using hall h₁ hmem

theorem provider_append (h : PaidOnce order s hs) {r : Request} (ws : List Write)
    (hp : ∀ p, r.call.provider = some p → p = order.paymentProvider) :
    ∀ h ∈ hs ++ [(r, ws)], ∀ p, h.1.call.provider = some p → p ≠ order.paymentProvider →
      h.2 = [] := by
  intro h' hmem p hp' hne
  rcases List.mem_append.mp hmem with hmem | hmem
  · exact h.provider h' hmem p hp' hne
  · rw [List.mem_singleton] at hmem
    subst hmem
    exact absurd (hp p hp') hne

theorem Inv.commit (h : Inv order s hs) (hseen : SameProvider order o.seen)
    (ho : Allowed o.call o.seen o.pending) (hc : Timely s hs o) :
    Inv order ((protocol cfg).write s o.pending) (hs ++ [(o.call, o.pending)]) := by
  obtain ⟨hp, hw⟩ := ho
  have hprov := provider_append h.paid o.pending fun p hp' => (hp p hp').trans hseen
  have htime := timely_append h.paid (r := o.call) hc.1
  rcases hw with hw | ⟨row, hrow, hw⟩
  · -- nothing was written
    have hcred : credits (hs ++ [(o.call, o.pending)]) = credits hs := by
      simp [hw, writeCredits]
    have hstore : (protocol cfg).write s o.pending = s := by rw [hw]; rfl
    rw [hstore]
    refine ⟨⟨?_, ?_, htime, hprov⟩, h.provider, ?_⟩
    · rw [hcred]; exact h.paid.once
    · rw [hcred]; exact h.paid.unpaid
    · rw [hcred, leftPending_append, hw]
      intro hne
      simp [h.left hne]
  · have horder : ((protocol cfg).write s o.pending).order = row := hw.write s
    by_cases hcred : writeCredits o.pending = []
    · -- another status was saved, or nothing was to be credited
      have happ : credits (hs ++ [(o.call, o.pending)]) = credits hs := by simp [hcred]
      refine ⟨⟨?_, ?_, htime, hprov⟩, ?_, ?_⟩
      · rw [happ]; exact h.paid.once
      · rw [happ, horder]
        obtain ⟨rest, hw', -⟩ := hw
        exact hc.2 row (by rw [hw']; exact List.mem_cons_self)
      · rw [horder]; exact hrow.trans hseen
      · rw [happ, leftPending_append]
        intro hne
        simp [h.left hne]
    · -- the order was credited: nothing had been before
      have hnone : credits hs = [] := by
        by_contra hne
        have := hc.1 hcred
        rw [h.left hne] at this
        cases this
      refine ⟨⟨?_, ?_, htime, hprov⟩, ?_, ?_⟩
      · rw [credits_append, hnone, List.nil_append]; exact hw.credits_length
      · rw [horder]
        exact fun hne => absurd (hw.success hcred) hne
      · rw [horder]; exact hrow.trans hseen
      · rw [leftPending_append, hw.leavesPending hcred]
        simp

/-- A commit out of time credits an order late, or unpays a credited one. -/
theorem not_paidOnce_of_not_timely (ho : Allowed o.call o.seen o.pending) (hc : ¬ Timely s hs o) :
    ¬ PaidOnce order ((protocol cfg).write s o.pending) (hs ++ [(o.call, o.pending)]) := by
  intro hpaid
  refine hc ⟨fun hcred => ?_, fun row hmem hst => ?_⟩
  · have htime := hpaid.timely
    rw [List.pairwise_append] at htime
    unfold leftPending
    rw [List.any_eq_false]
    intro h₁ hmem
    have := htime.2.2 h₁ hmem (o.call, o.pending) (List.mem_singleton_self _) hcred
    simp [this]
  · rcases ho.2 with hw | ⟨row', -, hw⟩
    · rw [hw] at hmem
      cases hmem
    · have hrow := hw.saved hmem
      have hun := hpaid.unpaid (by rw [hw.write s, ← hrow]; exact hst)
      rw [credits_append, List.append_eq_nil_iff] at hun
      exact hun.1

def sampleConfig : Config := ⟨500000, "", fun q => q.num / q.den⟩

def sampleOrder : TopUp :=
  ⟨1, 7, 10, 10, "T1", "alipay", "epay", 100, 0, .pending⟩

/-- The payment of `sampleOrder` is notified to two processes at once. -/
def notifyTwice : List (Action Request) :=
  let call := Call.completeTopUpByTradeNo "T1" ["epay", "alipay"] 200
  [.select 0 ⟨call, some 0⟩, .select 1 ⟨call, some 1⟩, .next 0, .next 0, .commit 0, .next 1, .next 1,
    .commit 1]

end TopUps
