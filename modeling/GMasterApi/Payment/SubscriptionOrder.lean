import GMasterApi.Lib.Guarded
import GMasterApi.Payment.TopUp
import GMasterApi.Subscription.Group

/-!
# Subscription orders

A payment callback completes an order in one transaction: it creates the
subscription, writes the top-up record of the trade number and saves the whole
order row as successful.  A cancellation saves it as expired.  Both decide on the
row that their `SELECT` read, which locks nothing, and no `UPDATE` repeats the
decision; only the unique trade number of the top-up record stands between two
completions, and only where neither saw the other's record.

`subscription_order_once_iff` says which commits keep an order to one
subscription and to its first terminal status.
-/

namespace SubscriptionOrders

open Sql Transition GoString Subscription
open TopUps (TopUp TopUpStatus errPaymentMethodMismatch)

/-- A row of `subscription_orders`. -/
structure SubscriptionOrder where
  id : ℕ
  userId : ℕ
  planId : ℕ
  money : ℚ
  tradeNo : String
  paymentMethod : String
  paymentProvider : String
  status : TopUpStatus
  createTime : ℤ
  completeTime : ℤ
  providerPayload : String
  deriving DecidableEq

/-- The order, the top-up record with its trade number, and the subscriptions and
groups of the users. -/
structure Store where
  order : SubscriptionOrder
  topUp : Option TopUp
  users : GroupStore

/-- `CompleteSubscriptionOrder`, with what the plan lookup, the clocks and the two
automatic keys answer. -/
structure Complete where
  tradeNo : String
  providerPayload : String
  expectedPaymentProvider : String
  actualPaymentMethod : String
  plan : Option SubscriptionPlan
  dbTime : ℤ
  topUpTime : ℤ
  completeTime : ℤ
  subId : ℕ
  topUpId : ℕ
  deriving DecidableEq

/-- `ExpireSubscriptionOrder` -/
structure Expire where
  tradeNo : String
  expectedPaymentProvider : String
  now : ℤ
  deriving DecidableEq

inductive Call
  | complete (call : Complete)
  | expire (call : Expire)
  deriving DecidableEq

inductive Write
  | setGroup (userId : ℕ) (group : String)
  | createSub (sub : UserSubscription)
  | createTopUp (row : TopUp)
  | saveTopUp (row : TopUp)
  | saveOrder (row : SubscriptionOrder)
  deriving DecidableEq

def applyWrite (s : Store) : Write → Store
  | .setGroup userId group => { s with users := s.users.setGroup userId group }
  | .createSub sub =>
    { s with users := { s.users with subs := (s.users.subs.create sub).getD s.users.subs } }
  | .createTopUp row => { s with topUp := some row }
  | .saveTopUp row => { s with topUp := some row }
  | .saveOrder row => { s with order := row }

/-- The keys of the inserted rows are free. -/
def accepts (s : Store) (ws : List Write) : Bool :=
  ws.all fun w => match w with
    | .createSub sub => (s.users.subs.find sub.id).isNone
    | .createTopUp _ => s.topUp.isNone
    | _ => true

abbrev Tx := Script Store Write String

def errSubscriptionOrderNotFound : String := "subscription order not found"
def errSubscriptionOrderStatusInvalid : String := "subscription order status invalid"

def firstByTradeNo (s : Store) (tradeNo : String) : Option SubscriptionOrder :=
  if s.order.tradeNo = tradeNo then some s.order else none

/-- `plan` is the cached plan, or its row. -/
def getSubscriptionPlanById (planId : ℕ) (plan : Option SubscriptionPlan) :
    Except String SubscriptionPlan :=
  if planId = 0 then .error "invalid plan id"
  else match plan with
    | none => .error errRecordNotFound
    | some plan => .ok plan

/-! ## Completing -/

/-- The `INSERT` of the subscription; `group` is the buyer's group as it was read. -/
def insertSubTx (zone : GoTime.Zone) (call : Complete) (userId : ℕ) (plan : SubscriptionPlan)
    (endUnix : ℤ) (group : String) (rest : Tx) : Tx :=
  .exec [.createSub (newSubscription zone call.subId userId plan "order" group call.dbTime endUnix)]
    rest

/-- The user's group: read, and changed where the plan upgrades it. -/
def upgradeGroupTx (zone : GoTime.Zone) (call : Complete) (userId : ℕ) (plan : SubscriptionPlan)
    (endUnix : ℤ) (rest : Tx) : Tx :=
  let upgradeGroup := trimSpace plan.upgradeGroup
  if upgradeGroup = "" then insertSubTx zone call userId plan endUnix "" rest
  else .select fun v =>
    let currentGroup := v.users.group userId
    let insert := insertSubTx zone call userId plan endUnix currentGroup rest
    .ok (if currentGroup ≠ upgradeGroup then .exec [.setGroup userId upgradeGroup] insert
      else insert)

/-- `CreateUserSubscriptionFromPlanTx` after its purchase limit. -/
def endTimeTx (zone : GoTime.Zone) (call : Complete) (userId : ℕ) (plan : SubscriptionPlan)
    (rest : Tx) : Except String Tx :=
  (calcPlanEndTime zone call.dbTime plan).map fun endUnix =>
    upgradeGroupTx zone call userId plan endUnix rest

def createUserSubscriptionFromPlanTx (zone : GoTime.Zone) (call : Complete) (userId : ℕ)
    (plan : SubscriptionPlan) (rest : Tx) : Except String Tx :=
  if plan.id = 0 then .error "invalid plan"
  else if userId = 0 then .error "invalid user id"
  else if 0 < plan.maxPurchasePerUser then
    .ok (.select fun v =>
      let count := (v.users.subs.rows.filter fun s => s.userId = userId ∧ s.planId = plan.id).length
      if plan.maxPurchasePerUser ≤ count then .error "已达到该套餐购买上限"
      else endTimeTx zone call userId plan rest)
  else endTimeTx zone call userId plan rest

def newTopUp (call : Complete) (order : SubscriptionOrder) : TopUp where
  id := call.topUpId
  userId := order.userId
  amount := 0
  money := order.money
  tradeNo := order.tradeNo
  paymentMethod := order.paymentMethod
  paymentProvider := order.paymentProvider
  createTime := order.createTime
  completeTime := call.topUpTime
  status := .success

/-- The record as it is saved over one that exists. -/
def mergeTopUp (call : Complete) (order : SubscriptionOrder) (topUp : TopUp) : Except String TopUp :=
  if topUp.paymentProvider ≠ "" ∧ order.paymentProvider ≠ "" ∧
      topUp.paymentProvider ≠ order.paymentProvider then
    .error errPaymentMethodMismatch
  else if topUp.paymentMethod ≠ "" ∧ topUp.paymentMethod ≠ order.paymentMethod then
    .error errPaymentMethodMismatch
  else .ok
    { topUp with
      money := order.money
      paymentProvider :=
        if topUp.paymentProvider = "" then order.paymentProvider else topUp.paymentProvider
      paymentMethod := if topUp.paymentMethod = "" then order.paymentMethod else topUp.paymentMethod
      createTime := if topUp.createTime = 0 then order.createTime else topUp.createTime
      completeTime := call.topUpTime
      status := .success }

def upsertSubscriptionTopUpTx (call : Complete) (order : SubscriptionOrder) (rest : Tx) : Tx :=
  .select fun v => match v.topUp with
    | none => .ok (.exec [.createTopUp (newTopUp call order)] rest)
    | some topUp => (mergeTopUp call order topUp).map fun row => .exec [.saveTopUp row] rest

/-- The row as `CompleteSubscriptionOrder` saves it. -/
def SubscriptionOrder.completed (order : SubscriptionOrder) (call : Complete) : SubscriptionOrder :=
  { order with
    status := .success
    completeTime := call.completeTime
    providerPayload :=
      if call.providerPayload ≠ "" then call.providerPayload else order.providerPayload
    paymentMethod :=
      if call.actualPaymentMethod ≠ "" then call.actualPaymentMethod else order.paymentMethod }

def completeSubscriptionOrder (zone : GoTime.Zone) (call : Complete) (seen : Store) :
    Except String Tx :=
  if call.tradeNo = "" then .error "tradeNo is empty"
  else match firstByTradeNo seen call.tradeNo with
  | none => .error errSubscriptionOrderNotFound
  | some order =>
    if call.expectedPaymentProvider ≠ "" ∧ order.paymentProvider ≠ call.expectedPaymentProvider then
      .error errPaymentMethodMismatch
    else if order.status = .success then .ok .done
    else if order.status ≠ .pending then .error errSubscriptionOrderStatusInvalid
    else match getSubscriptionPlanById order.planId call.plan with
      | .error e => .error e
      | .ok plan =>
        createUserSubscriptionFromPlanTx zone call order.userId plan
          (upsertSubscriptionTopUpTx call order (.exec [.saveOrder (order.completed call)] .done))

/-! ## Expiring -/

/-- The row as `ExpireSubscriptionOrder` saves it. -/
def SubscriptionOrder.expired (order : SubscriptionOrder) (call : Expire) : SubscriptionOrder :=
  { order with status := .expired, completeTime := call.now }

def expireSubscriptionOrder (call : Expire) (seen : Store) : Except String Tx :=
  if call.tradeNo = "" then .error "tradeNo is empty"
  else match firstByTradeNo seen call.tradeNo with
  | none => .error errSubscriptionOrderNotFound
  | some order =>
    if call.expectedPaymentProvider ≠ "" ∧ order.paymentProvider ≠ call.expectedPaymentProvider then
      .error errPaymentMethodMismatch
    else if order.status ≠ .pending then .ok .done
    else .ok (.exec [.saveOrder (order.expired call)] .done)

def Call.tradeNo : Call → String
  | .complete call => call.tradeNo
  | .expire call => call.tradeNo

/-- Any number of the two calls on one database. -/
def protocol (zone : GoTime.Zone) : Protocol Store Call Write String String where
  body call := match call with
    | .complete call => completeSubscriptionOrder zone call
    | .expire call => expireSubscriptionOrder call
  apply := applyWrite
  locks call := (Gorm.selectForUpdate "trade_no = ?").rowLocks [call.tradeNo]

/-! ## What is promised -/

abbrev History := List (Call × List Write)

def Call.isComplete : Call → Bool
  | .complete _ => true
  | .expire _ => false

/-- The subscriptions that a list of writes inserts. -/
def createdBy (ws : List Write) : List UserSubscription :=
  ws.filterMap fun w => match w with
    | .createSub sub => some sub
    | _ => none

/-- The statuses that a list of writes saves in the order. -/
def savedBy (ws : List Write) : List TopUpStatus :=
  ws.filterMap fun w => match w with
    | .saveOrder row => some row.status
    | _ => none

/-- The subscriptions created for the order. -/
def created (hs : History) : List UserSubscription := hs.flatMap fun h => createdBy h.2

/-- The statuses that the order was given. -/
def saved (hs : History) : List TopUpStatus := hs.flatMap fun h => savedBy h.2

/-- A top-up record says that the order was paid. -/
def Store.marked (s : Store) : Prop := ∃ row, s.topUp = some row ∧ row.status = .success

/-- **One subscription, one terminal status.**  `start` is the store the order was
created in. -/
structure YieldsOnce (start s : Store) (hs : History) : Prop where
  once : (created hs).length ≤ 1
  completed : created hs ≠ [] ↔ ∃ h ∈ hs, h.1.isComplete = true
  expired : s.order.status = .expired → created hs = [] ∧ (s.marked → start.marked)
  terminal : ∀ status ∈ saved hs, s.order.status = status

/-- A call that read the order pending and commits: a completion finds it pending
still, an expiry finds it not successful. -/
def FindsOrder (s : Store) (_ : History) (o : Open Store Call Write String) : Prop :=
  o.seen.order.status = .pending → match o.call with
    | .complete _ => s.order.status = .pending
    | .expire _ => s.order.status ≠ .success

/-! ## What a call writes -/

variable {zone : GoTime.Zone} {start s seen : Store} {hs : History} {ws : List Write} {rest : Tx}
  {o : Open Store Call Write String}

/-- The writes of a purchase: a change of group perhaps, then the subscription. -/
def Purchase (userId : ℕ) (ws : List Write) (sub : UserSubscription) : Prop :=
  ws = [.createSub sub] ∨ ∃ group, ws = [.setGroup userId group, .createSub sub]

theorem insertSubTx_answers {call : Complete} {userId : ℕ} {plan : SubscriptionPlan} {endUnix : ℤ}
    {group : String} (h : Answers (insertSubTx zone call userId plan endUnix group rest) ws) :
    ∃ sub ws', Answers rest ws' ∧ ws = [.createSub sub] ++ ws' := by
  obtain ⟨ws', hrest, rfl⟩ := h.of_exec
  exact ⟨_, ws', hrest, rfl⟩

theorem upgradeGroupTx_answers {call : Complete} {userId : ℕ} {plan : SubscriptionPlan}
    {endUnix : ℤ} (h : Answers (upgradeGroupTx zone call userId plan endUnix rest) ws) :
    ∃ buy sub ws', Purchase userId buy sub ∧ Answers rest ws' ∧ ws = buy ++ ws' := by
  unfold upgradeGroupTx at h
  dsimp only at h
  split at h
  · obtain ⟨sub, ws', hrest, rfl⟩ := insertSubTx_answers h
    exact ⟨_, sub, ws', .inl rfl, hrest, rfl⟩
  · obtain ⟨v, script, hv, h⟩ := h.of_select
    injection hv with hv
    subst hv
    split at h
    · obtain ⟨ws₁, hinsert, rfl⟩ := h.of_exec
      obtain ⟨sub, ws', hrest, rfl⟩ := insertSubTx_answers hinsert
      exact ⟨_, sub, ws', .inr ⟨_, rfl⟩, hrest, rfl⟩
    · obtain ⟨sub, ws', hrest, rfl⟩ := insertSubTx_answers h
      exact ⟨_, sub, ws', .inl rfl, hrest, rfl⟩

theorem endTimeTx_answers {call : Complete} {userId : ℕ} {plan : SubscriptionPlan} {script : Tx}
    (h : endTimeTx zone call userId plan rest = .ok script) (ha : Answers script ws) :
    ∃ buy sub ws', Purchase userId buy sub ∧ Answers rest ws' ∧ ws = buy ++ ws' := by
  unfold endTimeTx at h
  cases hend : calcPlanEndTime zone call.dbTime plan with
  | error e =>
    rw [hend] at h
    cases h
  | ok endUnix =>
    rw [hend] at h
    have hscript : upgradeGroupTx zone call userId plan endUnix rest = script := Except.ok.inj h
    rw [← hscript] at ha
    exact upgradeGroupTx_answers ha

theorem createUserSubscriptionFromPlanTx_answers {call : Complete} {userId : ℕ}
    {plan : SubscriptionPlan} {script : Tx}
    (h : createUserSubscriptionFromPlanTx zone call userId plan rest = .ok script)
    (ha : Answers script ws) :
    ∃ buy sub ws', Purchase userId buy sub ∧ Answers rest ws' ∧ ws = buy ++ ws' := by
  unfold createUserSubscriptionFromPlanTx at h
  split at h
  · cases h
  split at h
  · cases h
  split at h
  · cases h
    obtain ⟨v, script, hv, ha⟩ := ha.of_select
    dsimp only at hv
    split at hv
    · cases hv
    · exact endTimeTx_answers hv ha
  · exact endTimeTx_answers h ha

theorem upsertSubscriptionTopUpTx_answers {call : Complete} {order : SubscriptionOrder}
    (h : Answers (upsertSubscriptionTopUpTx call order rest) ws) :
    ∃ row ws', Answers rest ws' ∧
      (ws = [.createTopUp row] ++ ws' ∨ ws = [.saveTopUp row] ++ ws') := by
  obtain ⟨v, script, hv, h⟩ := h.of_select
  split at hv
  · cases hv
    obtain ⟨ws', hrest, rfl⟩ := h.of_exec
    exact ⟨_, ws', hrest, .inl rfl⟩
  · rename_i topUp _
    cases hmerge : mergeTopUp call order topUp with
    | error e =>
      rw [hmerge] at hv
      cases hv
    | ok row =>
      rw [hmerge] at hv
      cases hv
      obtain ⟨ws', hrest, rfl⟩ := h.of_exec
      exact ⟨row, ws', hrest, .inr rfl⟩

theorem firstByTradeNo_some {tradeNo : String} {order : SubscriptionOrder}
    (h : firstByTradeNo seen tradeNo = some order) : order = seen.order := by
  unfold firstByTradeNo at h
  split at h
  · cases h; rfl
  · cases h

/-- A completion that commits either found the order successful, or read it pending
and writes a subscription, a top-up record and the order. -/
theorem complete_outcome {call : Complete} (h : (protocol zone).Outcome (.complete call) seen ws) :
    (seen.order.status = .success ∧ ws = []) ∨
      (seen.order.status = .pending ∧ ∃ buy sub row, Purchase seen.order.userId buy sub ∧
        (ws = buy ++ [.createTopUp row, .saveOrder (seen.order.completed call)] ∨
          ws = buy ++ [.saveTopUp row, .saveOrder (seen.order.completed call)])) := by
  obtain ⟨script, hb, ha⟩ := h
  simp only [protocol, completeSubscriptionOrder] at hb
  split at hb
  · cases hb
  split at hb
  · cases hb
  rename_i order hfirst
  rw [firstByTradeNo_some hfirst] at hb
  split at hb
  · cases hb
  split at hb
  · rename_i hsuccess
    cases hb
    exact .inl ⟨hsuccess, ha.of_done⟩
  split at hb
  · cases hb
  rename_i hpending
  rw [ne_eq, not_not] at hpending
  split at hb
  · cases hb
  obtain ⟨buy, sub, ws₁, hbuy, h₁, rfl⟩ := createUserSubscriptionFromPlanTx_answers hb ha
  obtain ⟨row, ws₂, h₂, hw⟩ := upsertSubscriptionTopUpTx_answers h₁
  obtain ⟨_, h₃, rfl⟩ := h₂.of_exec
  rw [h₃.of_done] at hw
  refine .inr ⟨hpending, buy, sub, row, hbuy, ?_⟩
  rcases hw with rfl | rfl
  · exact .inl rfl
  · exact .inr rfl

theorem expire_outcome {call : Expire} (h : (protocol zone).Outcome (.expire call) seen ws) :
    ws = if seen.order.status = .pending then [.saveOrder (seen.order.expired call)] else [] := by
  obtain ⟨script, hb, ha⟩ := h
  simp only [protocol, expireSubscriptionOrder] at hb
  split at hb
  · cases hb
  split at hb
  · cases hb
  rename_i order hfirst
  rw [firstByTradeNo_some hfirst] at hb
  split at hb
  · cases hb
  split at hb
  · rename_i hne
    cases hb
    rw [if_neg hne]
    exact ha.of_done
  · rename_i hpending
    cases hb
    rw [if_pos (not_not.mp hpending)]
    obtain ⟨_, h₁, rfl⟩ := ha.of_exec
    rw [h₁.of_done]
    rfl

/-- A completion that read the order pending creates one subscription and saves the
order as successful. -/
theorem complete_writes {call : Complete} (h : (protocol zone).Outcome (.complete call) seen ws)
    (hp : seen.order.status = .pending) :
    (createdBy ws).length = 1 ∧ savedBy ws = [.success] ∧
      ∀ s, ((protocol zone).write s ws).order = seen.order.completed call := by
  rcases complete_outcome h with ⟨hs, -⟩ | ⟨-, buy, sub, row, hbuy, hw⟩
  · rw [hp] at hs
    cases hs
  · rcases hbuy with rfl | ⟨group, rfl⟩ <;> rcases hw with rfl | rfl <;>
      exact ⟨rfl, rfl, fun s => rfl⟩

@[simp] theorem created_append {call : Call} : created (hs ++ [(call, ws)]) =
    created hs ++ createdBy ws := by
  simp [created]

@[simp] theorem saved_append {call : Call} : saved (hs ++ [(call, ws)]) = saved hs ++ savedBy ws := by
  simp [saved]

/-! ## When an order yields once -/

/-- The three phases of an order. -/
inductive Phase (start s : Store) (hs : History) : Prop
  | pending (status : s.order.status = .pending) (none : created hs = [])
      (incomplete : ∀ h ∈ hs, h.1.isComplete = false) (unsaved : saved hs = [])
      (topUp : s.topUp = start.topUp)
  | expired (status : s.order.status = .expired) (none : created hs = [])
      (incomplete : ∀ h ∈ hs, h.1.isComplete = false) (mem : .expired ∈ saved hs)
      (all : ∀ t ∈ saved hs, t = .expired) (topUp : s.topUp = start.topUp)
  | success (status : s.order.status = .success) (one : (created hs).length = 1)
      (complete : ∃ h ∈ hs, h.1.isComplete = true) (all : ∀ t ∈ saved hs, t = .success)

/-- Whoever saw the order successful came after the completion. -/
def Seen (seen : Store) (hs : History) : Prop := seen.order.status = .success → created hs ≠ []

theorem Phase.seen_self (h : Phase start s hs) : Seen s hs := by
  intro hs'
  rcases h with ⟨hst, -, -, -, -⟩ | ⟨hst, -, -, -, -, -⟩ | ⟨-, hone, -, -⟩
  · rw [hst] at hs'; cases hs'
  · rw [hst] at hs'; cases hs'
  · intro hnil
    rw [hnil] at hone
    cases hone

theorem Phase.yieldsOnce (h : Phase start s hs) : YieldsOnce start s hs := by
  have hincomplete : (∀ h ∈ hs, h.1.isComplete = false) → ¬ ∃ h ∈ hs, h.1.isComplete = true := by
    rintro hf ⟨x, hx, ht⟩
    rw [hf x hx] at ht
    cases ht
  have hmarked : s.topUp = start.topUp → s.marked → start.marked := by
    unfold Store.marked
    intro htop hm
    rwa [htop] at hm
  rcases h with ⟨hst, hnone, hinc, hun, htop⟩ | ⟨hst, hnone, hinc, -, hall, htop⟩ |
    ⟨hst, hone, hcomp, hall⟩
  · exact ⟨by simp [hnone], by simp [hnone, hincomplete hinc], fun _ => ⟨hnone, hmarked htop⟩,
      by simp [hun]⟩
  · exact ⟨by simp [hnone], by simp [hnone, hincomplete hinc], fun _ => ⟨hnone, hmarked htop⟩,
      fun t ht => by rw [hst, hall t ht]⟩
  · refine ⟨by omega, ⟨fun _ => hcomp, fun _ hnil => ?_⟩, fun he => ?_, fun t ht => ?_⟩
    · rw [hnil] at hone; cases hone
    · rw [hst] at he; cases he
    · rw [hst, hall t ht]

/-- A call that writes nothing. -/
theorem Phase.commit_nil (h : Phase start s hs) {call : Call}
    (hcall : call.isComplete = true → created hs ≠ []) :
    Phase start ((protocol zone).write s []) (hs ++ [(call, [])]) := by
  have hinc : created hs = [] → (∀ h ∈ hs, h.1.isComplete = false) →
      ∀ h ∈ hs ++ [(call, ([] : List Write))], h.1.isComplete = false := by
    intro hnone hf x hx
    rcases List.mem_append.mp hx with hx | hx
    · exact hf x hx
    · rw [List.mem_singleton.mp hx]
      by_contra hc
      exact hcall (by simpa using hc) hnone
  rcases h with ⟨hst, hnone, hf, hun, htop⟩ | ⟨hst, hnone, hf, hmem, hall, htop⟩ |
    ⟨hst, hone, ⟨x, hx, hc⟩, hall⟩
  · exact .pending hst (by simpa [createdBy] using hnone) (hinc hnone hf)
      (by simpa [savedBy] using hun) htop
  · exact .expired hst (by simpa [createdBy] using hnone) (hinc hnone hf)
      (by simpa [savedBy] using hmem) (by simpa [savedBy] using hall) htop
  · exact .success hst (by simpa [createdBy] using hone) ⟨x, List.mem_append_left _ hx, hc⟩
      (by simpa [savedBy] using hall)

/-- A completion that finds the order pending. -/
theorem Phase.commit_complete (h : Phase start s hs) {call : Complete}
    (ho : (protocol zone).Outcome (.complete call) seen ws) (hp : seen.order.status = .pending)
    (hc : s.order.status = .pending) :
    Phase start ((protocol zone).write s ws) (hs ++ [(.complete call, ws)]) := by
  obtain ⟨hone, hsaved, horder⟩ := complete_writes ho hp
  rcases h with ⟨-, hnone, -, hun, -⟩ | ⟨hst, -, -, -, -, -⟩ | ⟨hst, -, -, -⟩
  · refine .success ?_ ?_ ⟨_, List.mem_append_right _ (List.mem_singleton_self _), rfl⟩ ?_
    · rw [horder]; rfl
    · rw [created_append, hnone, List.nil_append, hone]
    · rw [saved_append, hun, hsaved]
      simp
  · rw [hst] at hc; cases hc
  · rw [hst] at hc; cases hc

/-- An expiry that does not find the order successful. -/
theorem Phase.commit_expire (h : Phase start s hs) {call : Expire} {row : SubscriptionOrder}
    (hrow : row.status = .expired) (hc : s.order.status ≠ .success) :
    Phase start ((protocol zone).write s [.saveOrder row])
      (hs ++ [(.expire call, [.saveOrder row])]) := by
  have hinc : (∀ h ∈ hs, h.1.isComplete = false) →
      ∀ h ∈ hs ++ [(Call.expire call, [Write.saveOrder row])], h.1.isComplete = false := by
    intro hf x hx
    rcases List.mem_append.mp hx with hx | hx
    · exact hf x hx
    · rw [List.mem_singleton.mp hx]
      rfl
  rcases h with ⟨-, hnone, hf, hun, htop⟩ | ⟨-, hnone, hf, -, hall, htop⟩ |
    ⟨hst, -, -, -⟩
  · exact .expired hrow (by simp [hnone, createdBy]) (hinc hf) (by simp [savedBy, hrow])
      (by simp [hun, savedBy, hrow]) htop
  · refine .expired hrow (by simp [hnone, createdBy]) (hinc hf) (by simp [savedBy, hrow]) ?_ htop
    simp only [saved_append, savedBy, List.filterMap_cons, List.filterMap_nil, List.mem_append,
      List.mem_singleton]
    rintro t (ht | rfl)
    · exact hall t ht
    · exact hrow
  · exact absurd hst hc

theorem Phase.commit (h : Phase start s hs) (hseen : Seen o.seen hs)
    (ho : (protocol zone).Outcome o.call o.seen o.pending) (hc : FindsOrder s hs o) :
    Phase start ((protocol zone).write s o.pending) (hs ++ [(o.call, o.pending)]) := by
  obtain ⟨call, seen, todo, ws⟩ := o
  dsimp only at ho hseen ⊢
  cases call with
  | complete call =>
    by_cases hp : seen.order.status = .pending
    · exact h.commit_complete ho hp (hc hp)
    · rcases complete_outcome ho with ⟨hsuccess, rfl⟩ | ⟨hp', -⟩
      · exact h.commit_nil fun _ => hseen hsuccess
      · exact absurd hp' hp
  | expire call =>
    have hw := expire_outcome ho
    by_cases hp : seen.order.status = .pending
    · rw [if_pos hp] at hw
      rw [hw]
      exact h.commit_expire rfl (hc hp)
    · rw [if_neg hp] at hw
      rw [hw]
      exact h.commit_nil fun hcomplete => by cases hcomplete

/-- A call that commits on a status it did not read creates a second subscription or
moves the order out of a terminal status. -/
theorem Phase.commit_stale (h : Phase start s hs)
    (ho : (protocol zone).Outcome o.call o.seen o.pending) (hc : ¬ FindsOrder s hs o) :
    ¬ YieldsOnce start ((protocol zone).write s o.pending) (hs ++ [(o.call, o.pending)]) := by
  obtain ⟨call, seen, todo, ws⟩ := o
  unfold FindsOrder at hc
  rw [Classical.not_imp] at hc
  obtain ⟨hp, hc⟩ := hc
  dsimp only at ho hp hc ⊢
  intro hgood
  cases call with
  | complete call =>
    obtain ⟨hone, hsaved, horder⟩ := complete_writes ho hp
    have hstatus : ((protocol zone).write s ws).order.status = .success := by rw [horder]; rfl
    rcases h with ⟨hst, -, -, -, -⟩ | ⟨-, -, -, hmem, -, -⟩ | ⟨-, hcreated, -, -⟩
    · exact hc hst
    · have hexpired := hgood.terminal .expired (by
        rw [saved_append]
        exact List.mem_append_left _ hmem)
      rw [hstatus] at hexpired
      cases hexpired
    · have := hgood.once
      rw [created_append, List.length_append, hcreated, hone] at this
      omega
  | expire call =>
    rw [not_not] at hc
    have hw := expire_outcome ho
    rw [if_pos hp] at hw
    rcases h with ⟨hst, -, -, -, -⟩ | ⟨hst, -, -, -, -, -⟩ | ⟨-, hcreated, -, -⟩
    · rw [hst] at hc; cases hc
    · rw [hst] at hc; cases hc
    · have hnone := (hgood.expired (by rw [hw]; rfl)).1
      rw [created_append, List.append_eq_nil_iff] at hnone
      rw [hnone.1] at hcreated
      cases hcreated

/-- The store with the order as it is created. -/
def Store.ordered (s : Store) : Store := { s with order := { s.order with status := .pending } }

/-- **An order yields one subscription and keeps its terminal status exactly when**
every call that read it pending finds it pending at its commit, or, for an expiry,
expired by another.  Neither call makes sure of it. -/
theorem subscription_order_once_iff (zone : GoTime.Zone) (start : Store) (as : List (Action Call)) :
    ((protocol zone).systemWhere accepts).EveryState
        (fun s => YieldsOnce start.ordered s.store s.committed) (State.initial start.ordered) as ↔
      ((protocol zone).systemWhere accepts).EveryStep (AcceptedMeets accepts FindsOrder)
        (State.initial start.ordered) as := by
  refine Protocol.everyState_iff_commits_where (K := fun seen _ hs => Seen seen hs)
    (I := Phase start.ordered) (fun _ _ h => h.seen_self) (fun _ _ h => h.yieldsOnce)
    (fun _ _ _ h hseen ho _ hc => ⟨h.commit hseen ho hc, fun seen hk hs => ?_⟩)
    (fun _ _ _ h _ ho _ hc => h.commit_stale ho hc)
    (.pending rfl rfl (by simp) rfl rfl) as
  rw [created_append]
  exact List.append_ne_nil_of_left_ne_nil (hk hs) _

/-- A plan of one month with a quota of 1000, and an order for it paid by Stripe. -/
def samplePlan : SubscriptionPlan := ⟨1, .month, 1, 0, 0, "", 1000, "never", 0⟩

def sampleStart : Store where
  order := ⟨1, 7, 1, 999 / 100, "sub-7-1", "stripe", "stripe", .pending, 1000, 0, ""⟩
  topUp := none
  users := ⟨.empty, fun _ => "default"⟩

/-- The provider calls back twice: both callbacks read the order pending; the second
looks for the top-up record after the first has committed. -/
def bothComplete : List (Action Call) :=
  let complete (subId topUpId : ℕ) : Complete :=
    ⟨"sub-7-1", "paid", "stripe", "", some samplePlan, 2000, 2000, 2000, subId, topUpId⟩
  [.select 0 (.complete (complete 1 1)), .select 1 (.complete (complete 2 2)),
    .next 0, .next 0, .next 0, .next 0, .commit 0, .next 1, .next 1, .next 1, .next 1, .commit 1]

theorem order_yields_two :
    ¬ ((protocol GoTime.utc).systemWhere accepts).EveryState
      (fun s => YieldsOnce sampleStart.ordered s.store s.committed)
      (State.initial sampleStart.ordered) bothComplete := by
  intro h
  have hrun : (((protocol GoTime.utc).systemWhere accepts).run (State.initial sampleStart.ordered)
      bothComplete).map (fun s => (created s.committed).length) = some 2 := by decide +kernel
  obtain ⟨t, ht, hcount⟩ := Option.map_eq_some_iff.mp hrun
  have honce := (h.run ht).once
  omega

end SubscriptionOrders
