import GMasterApi.Lib.RowLocks
import GMasterApi.Payment.SubscriptionOrder

/-!
# Subscriptions bought with balance

A purchase reads the plan and the user, takes the price off the user's quota,
counts his subscriptions of the plan, inserts the new one and an order for it.
The test of the balance reads a row that nothing has locked yet, and the count
locks nothing at all; the row locks of the later `UPDATE` and `INSERT` only keep
two of them from overlapping.

`balance_purchases_sound_iff` says which commits keep the balance and the limit.
-/

namespace BalancePurchase

open Sql Transition GoString Subscription
open SubscriptionOrders (SubscriptionOrder)

/-- A row of `subscription_plans` with what a purchase reads beside the plan. -/
structure PlanRow where
  plan : SubscriptionPlan
  priceAmount : ℚ
  enabled : Bool
  deriving DecidableEq

def PlanRow.id (row : PlanRow) : ℕ := row.plan.id

/-- The server's time zone, its price of a unit, and the plans. -/
structure Config where
  zone : GoTime.Zone
  quotaPerUnit : ℚ
  plans : Table PlanRow PlanRow.id

/-- Subscriptions and groups, the quota of each user that exists, and the orders. -/
structure Store where
  users : GroupStore
  quota : ℕ → Option ℤ
  orders : Table SubscriptionOrder SubscriptionOrder.tradeNo

/-- `PurchaseSubscriptionWithBalance`, with what the clocks, the random string and
the two automatic keys answer. -/
structure Purchase where
  userId : ℕ
  planId : ℕ
  dbTime : ℤ
  now : ℤ
  randomString : String
  unixNano : ℤ
  subId : ℕ
  orderId : ℕ
  deriving DecidableEq

/-- `CreateUserSubscriptionFromPlanTx` in a transaction of its own, with the plan by
its id. -/
structure Create where
  userId : ℕ
  planId : ℕ
  source : String
  dbTime : ℤ
  subId : ℕ
  deriving DecidableEq

inductive Call
  | purchase (call : Purchase)
  | create (call : Create)
  deriving DecidableEq

inductive Write
  | decrQuota (userId : ℕ) (quota : ℤ)
  | setGroup (userId : ℕ) (group : String)
  | createSub (sub : UserSubscription)
  | createOrder (row : SubscriptionOrder)
  deriving DecidableEq

def applyWrite (s : Store) : Write → Store
  | .decrQuota userId quota =>
    { s with quota := Function.update s.quota userId ((s.quota userId).map (· - quota)) }
  | .setGroup userId group => { s with users := s.users.setGroup userId group }
  | .createSub sub =>
    { s with users := { s.users with subs := (s.users.subs.create sub).getD s.users.subs } }
  | .createOrder row => { s with orders := (s.orders.create row).getD s.orders }

/-- The keys of the inserted rows are free. -/
def accepts (s : Store) (ws : List Write) : Bool :=
  ws.all fun w => match w with
    | .createSub sub => (s.users.subs.find sub.id).isNone
    | .createOrder row => (s.orders.find row.tradeNo).isNone
    | _ => true

/-- What a statement locks. -/
inductive Row
  | user (id : ℕ)
  | sub (id : ℕ)
  | order (tradeNo : String)
  deriving DecidableEq

def Write.rows : Write → List Row
  | .decrQuota userId _ => [.user userId]
  | .setGroup userId _ => [.user userId]
  | .createSub sub => [.sub sub.id]
  | .createOrder row => [.order row.tradeNo]

abbrev Tx := Script Store Write String

/-! ## The calls -/

def getSubscriptionPlanByIdTx (cfg : Config) (planId : ℕ) : Except String PlanRow :=
  if planId = 0 then .error "invalid plan id"
  else match cfg.plans.find planId with
    | none => .error errRecordNotFound
    | some row => .ok row

def calcSubscriptionBalanceQuota (cfg : Config) (priceAmount : ℚ) : Except String ℤ :=
  if priceAmount ≤ 0 then .ok 0
  else if cfg.quotaPerUnit ≤ 0 then .error "额度单位配置错误"
  else .ok ⌈priceAmount * cfg.quotaPerUnit⌉

/-- `user_id = ? AND plan_id = ?`, counted. -/
def Store.count (s : Store) (userId planId : ℕ) : ℕ :=
  (s.users.subs.rows.filter fun sub => sub.userId = userId ∧ sub.planId = planId).length

/-- The user's group read, and changed where the plan upgrades it; then the `INSERT`. -/
def insertSubTx (cfg : Config) (call : Create) (plan : SubscriptionPlan) (endUnix : ℤ) (rest : Tx) :
    Tx :=
  let upgradeGroup := trimSpace plan.upgradeGroup
  let insert (group : String) : Tx := .exec [.createSub
    (newSubscription cfg.zone call.subId call.userId plan call.source group call.dbTime endUnix)] rest
  if upgradeGroup = "" then insert ""
  else .select fun v =>
    let currentGroup := v.users.group call.userId
    .ok (if currentGroup ≠ upgradeGroup then
      .exec [.setGroup call.userId upgradeGroup] (insert currentGroup)
    else insert currentGroup)

def createUserSubscriptionFromPlanTx (cfg : Config) (call : Create) (plan : SubscriptionPlan)
    (rest : Tx) : Tx :=
  .select fun v =>
    if plan.id = 0 then .error "invalid plan"
    else if call.userId = 0 then .error "invalid user id"
    else if 0 < plan.maxPurchasePerUser ∧ plan.maxPurchasePerUser ≤ v.count call.userId plan.id then
      .error "已达到该套餐购买上限"
    else match calcPlanEndTime cfg.zone call.dbTime plan with
      | .error e => .error e
      | .ok endUnix => .ok (insertSubTx cfg call plan endUnix rest)

/-- What a purchase creates. -/
def Purchase.create (call : Purchase) : Create :=
  ⟨call.userId, call.planId, "balance", call.dbTime, call.subId⟩

/-- The order of a purchase. -/
def Purchase.order (call : Purchase) (row : PlanRow) (requiredQuota : ℤ) : SubscriptionOrder where
  id := call.orderId
  userId := call.userId
  planId := row.plan.id
  money := row.priceAmount
  tradeNo := "SUBBALUSR" ++ toString call.userId ++ "NO" ++ call.randomString ++
    toString call.unixNano
  paymentMethod := "balance"
  paymentProvider := "balance"
  status := .success
  createTime := call.now
  completeTime := call.now
  providerPayload := "charged_quota=" ++ toString requiredQuota

/-- The purchase after the test of the balance. -/
def chargeTx (cfg : Config) (call : Purchase) (row : PlanRow) (requiredQuota : ℤ) : Tx :=
  let create := createUserSubscriptionFromPlanTx cfg call.create row.plan
    (.exec [.createOrder (call.order row requiredQuota)] .done)
  if 0 < requiredQuota then .exec [.decrQuota call.userId requiredQuota] create else create

def purchaseSubscriptionWithBalance (cfg : Config) (call : Purchase) (seen : Store) :
    Except String Tx :=
  if call.userId = 0 ∨ call.planId = 0 then .error "invalid userId or planId"
  else match getSubscriptionPlanByIdTx cfg call.planId with
  | .error e => .error e
  | .ok row =>
    if row.enabled = false then .error "套餐未启用"
    else if row.priceAmount < 0 then .error "套餐价格不能为负数"
    else match calcSubscriptionBalanceQuota cfg row.priceAmount with
    | .error e => .error e
    | .ok requiredQuota => match seen.quota call.userId with
      | none => .error errRecordNotFound
      | some quota =>
        if 0 < requiredQuota ∧ quota < requiredQuota then .error "余额不足"
        else .ok (chargeTx cfg call row requiredQuota)

/-- The transaction of `AdminBindSubscription`. -/
def createSubscription (cfg : Config) (call : Create) : Except String Tx :=
  if call.userId = 0 ∨ call.planId = 0 then .error "invalid userId or planId"
  else match getSubscriptionPlanByIdTx cfg call.planId with
  | .error e => .error e
  | .ok row => .ok (createUserSubscriptionFromPlanTx cfg call row.plan .done)

def Call.userId : Call → ℕ
  | .purchase call => call.userId
  | .create call => call.userId

def Call.planId : Call → ℕ
  | .purchase call => call.planId
  | .create call => call.planId

def Call.isPurchase : Call → Bool
  | .purchase _ => true
  | .create _ => false

/-- Any number of the two calls on one database. -/
def protocol (cfg : Config) : Protocol Store Call Write String Row where
  body call := match call with
    | .purchase call => purchaseSubscriptionWithBalance cfg call
    | .create call => fun _ => createSubscription cfg call
  apply := applyWrite
  locks call := match call with
    | .purchase call => (Gorm.selectForUpdate "id = ?").rowLocks [.user call.userId]
    | .create _ => []

def system (cfg : Config) : System (State Store Call Write String Row) (Action Call) :=
  (protocol cfg).systemLocking Write.rows accepts

/-! ## What is promised -/

abbrev History := List (Call × List Write)

/-- The price of a plan in quota units; 0 where it cannot be bought. -/
def Config.price (cfg : Config) (planId : ℕ) : ℤ :=
  match getSubscriptionPlanByIdTx cfg planId with
  | .error _ => 0
  | .ok row =>
    match calcSubscriptionBalanceQuota cfg row.priceAmount with
    | .error _ => 0
    | .ok quota => quota

/-- The subscriptions that a list of writes inserts. -/
def createdBy (ws : List Write) : List UserSubscription :=
  ws.filterMap fun w => match w with
    | .createSub sub => some sub
    | _ => none

/-- The subscriptions created so far. -/
def created (hs : History) : List UserSubscription := hs.flatMap fun h => createdBy h.2

/-- Those of them that the user bought. -/
def bought (hs : History) (userId : ℕ) : List UserSubscription :=
  hs.flatMap fun h => if h.1.isPurchase = true ∧ h.1.userId = userId then createdBy h.2 else []

/-- What the subscriptions that the user bought cost. -/
def spent (cfg : Config) (hs : History) (userId : ℕ) : ℤ :=
  ((bought hs userId).map fun sub => cfg.price sub.planId).sum

/-- **Balance and limit respected.**  `hs` are the calls that returned no error:
nothing else has changed the quotas or the subscriptions. -/
structure Sound (cfg : Config) (start s : Store) (hs : History) : Prop where
  nonneg : ∀ u q, s.quota u = some q → 0 ≤ q
  paid : ∀ u, s.quota u = (start.quota u).map (· - spent cfg hs u)
  subs : s.users.subs.rows = start.users.subs.rows ++ created hs
  one : ∀ h ∈ hs, ∃ sub, createdBy h.2 = [sub] ∧ sub.userId = h.1.userId ∧ sub.planId = h.1.planId
  limit : ∀ u, ∀ row ∈ cfg.plans.rows, 0 < row.plan.maxPurchasePerUser →
    (s.count u row.id : ℤ) ≤ max row.plan.maxPurchasePerUser (start.count u row.id)

/-- The call finds at its commit that the quota still pays for the plan, if it is a
purchase, and that the user may still have the plan once more. -/
def FindsRoom (cfg : Config) (s : Store) (_ : History) (o : Open Store Call Write String) : Prop :=
  (o.call.isPurchase = true → ∀ q, s.quota o.call.userId = some q → cfg.price o.call.planId ≤ q) ∧
    ∀ row ∈ cfg.plans.rows, row.id = o.call.planId → 0 < row.plan.maxPurchasePerUser →
      (s.count o.call.userId row.id : ℤ) < row.plan.maxPurchasePerUser

/-! ## What a call writes -/

variable {cfg : Config} {start s seen : Store} {hs : History} {ws : List Write} {rest : Tx}
  {o : Open Store Call Write String} {row : PlanRow} {u : ℕ}

/-- The writes of a new subscription: a change of group perhaps, then the row. -/
def Creates (userId planId : ℕ) (ws : List Write) : Prop :=
  ∃ sub : UserSubscription, sub.userId = userId ∧ sub.planId = planId ∧
    (ws = [.createSub sub] ∨ ∃ group, ws = [.setGroup userId group, .createSub sub])

theorem insertSubTx_answers {call : Create} {plan : SubscriptionPlan} {endUnix : ℤ}
    (h : Answers (insertSubTx cfg call plan endUnix rest) ws) :
    ∃ buy ws', Creates call.userId plan.id buy ∧ Answers rest ws' ∧ ws = buy ++ ws' := by
  unfold insertSubTx at h
  dsimp only at h
  split at h
  · obtain ⟨ws', hrest, rfl⟩ := h.of_exec
    exact ⟨_, ws', ⟨_, rfl, rfl, .inl rfl⟩, hrest, rfl⟩
  · obtain ⟨v, script, hv, h⟩ := h.of_select
    injection hv with hv
    subst hv
    split at h
    · obtain ⟨ws₁, hinsert, rfl⟩ := h.of_exec
      obtain ⟨ws', hrest, rfl⟩ := hinsert.of_exec
      exact ⟨[_, _], ws', ⟨_, rfl, rfl, .inr ⟨_, rfl⟩⟩, hrest, rfl⟩
    · obtain ⟨ws', hrest, rfl⟩ := h.of_exec
      exact ⟨_, ws', ⟨_, rfl, rfl, .inl rfl⟩, hrest, rfl⟩

theorem createUserSubscriptionFromPlanTx_answers {call : Create} {plan : SubscriptionPlan}
    (h : Answers (createUserSubscriptionFromPlanTx cfg call plan rest) ws) :
    ∃ buy ws', Creates call.userId plan.id buy ∧ Answers rest ws' ∧ ws = buy ++ ws' := by
  obtain ⟨v, script, hv, h⟩ := h.of_select
  split at hv
  · cases hv
  split at hv
  · cases hv
  split at hv
  · cases hv
  split at hv
  · cases hv
  · cases hv
    exact insertSubTx_answers h

theorem getSubscriptionPlanByIdTx_ok {planId : ℕ}
    (h : getSubscriptionPlanByIdTx cfg planId = .ok row) : row ∈ cfg.plans.rows ∧ row.id = planId := by
  unfold getSubscriptionPlanByIdTx at h
  split at h
  · cases h
  split at h
  · cases h
  · rename_i hfind
    cases h
    exact Table.find_eq_some_iff.mp hfind

theorem calcSubscriptionBalanceQuota_nonneg {priceAmount : ℚ} {quota : ℤ}
    (h : calcSubscriptionBalanceQuota cfg priceAmount = .ok quota) : 0 ≤ quota := by
  unfold calcSubscriptionBalanceQuota at h
  split at h
  · cases h
    omega
  split at h
  · cases h
  · rename_i hprice hunit
    cases h
    rw [not_le] at hprice hunit
    exact Int.ceil_nonneg (mul_nonneg hprice.le hunit.le)

theorem price_nonneg (planId : ℕ) : 0 ≤ cfg.price planId := by
  unfold Config.price
  split
  · omega
  split
  · omega
  · rename_i hcalc
    exact calcSubscriptionBalanceQuota_nonneg hcalc

/-- The `UPDATE` of the quota, left out where the plan is free. -/
def charge (userId : ℕ) (price : ℤ) : List Write :=
  if 0 < price then [.decrQuota userId price] else []

theorem chargeTx_answers {call : Purchase} {price : ℤ}
    (h : Answers (chargeTx cfg call row price) ws) :
    ∃ buy order, Creates call.userId row.plan.id buy ∧
      ws = charge call.userId price ++ (buy ++ [.createOrder order]) := by
  unfold chargeTx at h
  unfold charge
  by_cases hprice : 0 < price
  · rw [if_pos hprice] at h ⊢
    obtain ⟨ws₁, hcreate, rfl⟩ := h.of_exec
    obtain ⟨buy, ws₂, hbuy, hrest, rfl⟩ := createUserSubscriptionFromPlanTx_answers hcreate
    obtain ⟨ws₃, hdone, rfl⟩ := hrest.of_exec
    rw [hdone.of_done]
    exact ⟨buy, _, hbuy, rfl⟩
  · rw [if_neg hprice] at h ⊢
    obtain ⟨buy, ws₂, hbuy, hrest, rfl⟩ := createUserSubscriptionFromPlanTx_answers h
    obtain ⟨ws₃, hdone, rfl⟩ := hrest.of_exec
    rw [hdone.of_done]
    exact ⟨buy, _, hbuy, rfl⟩

/-- What a purchase that commits writes. -/
theorem purchase_outcome {call : Purchase} (h : (protocol cfg).Outcome (.purchase call) seen ws) :
    ∃ buy order, Creates call.userId call.planId buy ∧
      ws = charge call.userId (cfg.price call.planId) ++ (buy ++ [.createOrder order]) := by
  obtain ⟨script, hb, ha⟩ := h
  simp only [protocol, purchaseSubscriptionWithBalance] at hb
  split at hb
  · cases hb
  split at hb
  · cases hb
  rename_i row hplan
  split at hb
  · cases hb
  split at hb
  · cases hb
  split at hb
  · cases hb
  rename_i price hprice
  split at hb
  · cases hb
  split at hb
  · cases hb
  cases hb
  have hcost : cfg.price call.planId = price := by
    unfold Config.price
    rw [hplan]
    dsimp only
    rw [hprice]
  have hid : row.plan.id = call.planId := (getSubscriptionPlanByIdTx_ok hplan).2
  rw [hcost, ← hid]
  exact chargeTx_answers ha

theorem create_outcome {call : Create} (h : (protocol cfg).Outcome (.create call) seen ws) :
    Creates call.userId call.planId ws := by
  obtain ⟨script, hb, ha⟩ := h
  simp only [protocol, createSubscription] at hb
  split at hb
  · cases hb
  split at hb
  · cases hb
  rename_i row hplan
  cases hb
  obtain ⟨buy, ws', hbuy, hrest, rfl⟩ := createUserSubscriptionFromPlanTx_answers ha
  have hid : row.plan.id = call.planId := (getSubscriptionPlanByIdTx_ok hplan).2
  rw [hrest.of_done, List.append_nil, ← hid]
  exact hbuy

/-! ## What a commit does to the store -/

/-- What a call takes off the quota of the user `u`. -/
def due (cfg : Config) (call : Call) (u : ℕ) : ℤ :=
  if call.isPurchase = true ∧ call.userId = u then cfg.price call.planId else 0

theorem write_append {ws₁ ws₂ : List Write} :
    (protocol cfg).write s (ws₁ ++ ws₂) =
      (protocol cfg).write ((protocol cfg).write s ws₁) ws₂ :=
  List.foldl_append

theorem charge_users {userId : ℕ} {price : ℤ} :
    ((protocol cfg).write s (charge userId price)).users = s.users := by
  unfold charge
  split <;> rfl

theorem charge_quota {userId : ℕ} {price : ℤ} (hprice : 0 ≤ price) (u : ℕ) :
    ((protocol cfg).write s (charge userId price)).quota u =
      (s.quota u).map (· - if userId = u then price else 0) := by
  unfold charge
  by_cases hpos : 0 < price
  · rw [if_pos hpos]
    show Function.update s.quota userId _ u = _
    by_cases hu : userId = u
    · subst hu
      rw [Function.update_self, if_pos rfl]
    · rw [Function.update_of_ne (Ne.symm hu), if_neg hu]
      simp
  · have hzero : price = 0 := by omega
    subst hzero
    simp [Protocol.write]

theorem createdBy_charge {userId : ℕ} {price : ℤ} : createdBy (charge userId price) = [] := by
  unfold charge
  split <;> rfl

variable (cfg) in
/-- An inserted subscription is a new row, and the quotas stay. -/
theorem Creates.write {userId planId : ℕ} {buy : List Write} (h : Creates userId planId buy)
    (hacc : accepts s buy = true) :
    ∃ sub, sub.userId = userId ∧ sub.planId = planId ∧ createdBy buy = [sub] ∧
      ((protocol cfg).write s buy).users.subs.rows = s.users.subs.rows ++ [sub] ∧
      ((protocol cfg).write s buy).quota = s.quota := by
  obtain ⟨sub, hu, hp, hbuy⟩ := h
  have hmem : Write.createSub sub ∈ buy := by
    rcases hbuy with rfl | ⟨group, rfl⟩ <;> simp
  have hfree : s.users.subs.find sub.id = none := by
    simpa using List.all_eq_true.mp hacc _ hmem
  obtain ⟨subs', hsubs⟩ := Table.create_of_find_none hfree
  have hrows := (Table.create_eq_some hsubs).2
  refine ⟨sub, hu, hp, ?_⟩
  rcases hbuy with rfl | ⟨group, rfl⟩
  · refine ⟨rfl, ?_, rfl⟩
    simp [Protocol.write, protocol, applyWrite, hsubs, hrows]
  · refine ⟨rfl, ?_, rfl⟩
    simp [Protocol.write, protocol, applyWrite, GroupStore.setGroup, hsubs, hrows]

theorem accepts_append {ws₁ ws₂ : List Write} :
    accepts s (ws₁ ++ ws₂) = (accepts s ws₁ && accepts s ws₂) :=
  List.all_append

theorem createdBy_append {ws₁ ws₂ : List Write} :
    createdBy (ws₁ ++ ws₂) = createdBy ws₁ ++ createdBy ws₂ :=
  List.filterMap_append

/-- **One commit.**  A call that commits creates one subscription, and takes its
price off the buyer's quota as it is then. -/
theorem outcome_write (ho : (protocol cfg).Outcome o.call o.seen o.pending)
    (hacc : accepts s o.pending = true) :
    ∃ sub, sub.userId = o.call.userId ∧ sub.planId = o.call.planId ∧
      createdBy o.pending = [sub] ∧
      ((protocol cfg).write s o.pending).users.subs.rows = s.users.subs.rows ++ [sub] ∧
      ∀ u, ((protocol cfg).write s o.pending).quota u =
        (s.quota u).map (· - due cfg o.call u) := by
  obtain ⟨call, seen, todo, ws⟩ := o
  dsimp only at ho hacc ⊢
  cases call with
  | purchase call =>
    obtain ⟨buy, order, hbuy, rfl⟩ := purchase_outcome ho
    rw [accepts_append, accepts_append, Bool.and_eq_true, Bool.and_eq_true] at hacc
    have hfree : accepts ((protocol cfg).write s (charge call.userId (cfg.price call.planId))) buy =
        true := by
      obtain ⟨-, hfree, -⟩ := hacc
      rw [← hfree]
      obtain ⟨sub, -, -, rfl | ⟨group, rfl⟩⟩ := hbuy <;> simp [accepts, charge_users]
    obtain ⟨sub, hu, hp, hcreated, hrows, hquota⟩ := hbuy.write cfg hfree
    rw [write_append, write_append]
    refine ⟨sub, hu, hp, ?_, ?_, fun u => ?_⟩
    · rw [createdBy_append, createdBy_append, createdBy_charge, hcreated]
      rfl
    · rw [charge_users] at hrows
      exact hrows
    · show ((protocol cfg).write _ buy).quota u = _
      rw [hquota, charge_quota (price_nonneg call.planId)]
      simp [due, Call.isPurchase, Call.userId, Call.planId]
  | create call =>
    obtain ⟨sub, hu, hp, hcreated, hrows, hquota⟩ := (create_outcome ho).write cfg hacc
    refine ⟨sub, hu, hp, hcreated, hrows, fun u => ?_⟩
    rw [hquota]
    simp [due, Call.isPurchase]

/-! ## When the balance and the limit hold -/

theorem created_append {call : Call} : created (hs ++ [(call, ws)]) = created hs ++ createdBy ws := by
  simp [created]

theorem spent_append {call : Call} {sub : UserSubscription} (hws : createdBy ws = [sub])
    (hplan : sub.planId = call.planId) (u : ℕ) :
    spent cfg (hs ++ [(call, ws)]) u = spent cfg hs u + due cfg call u := by
  unfold spent bought due
  rw [List.flatMap_append, List.map_append, List.sum_append]
  by_cases hu : call.isPurchase = true ∧ call.userId = u
  · simp [hu, hws, hplan]
  · simp [hu]

theorem count_append {s' : Store} {sub : UserSubscription}
    (hrows : s'.users.subs.rows = s.users.subs.rows ++ [sub]) (u planId : ℕ) :
    s'.count u planId = s.count u planId + if sub.userId = u ∧ sub.planId = planId then 1 else 0 := by
  unfold Store.count
  rw [hrows, List.filter_append, List.length_append]
  by_cases h : sub.userId = u ∧ sub.planId = planId
  · simp [h]
  · simp [h]

/-- No subscription is ever lost. -/
theorem Sound.start_le_count (h : Sound cfg start s hs) (u planId : ℕ) :
    start.count u planId ≤ s.count u planId := by
  unfold Store.count
  rw [h.subs, List.filter_append, List.length_append]
  omega

theorem Sound.commit (h : Sound cfg start s hs)
    (ho : (protocol cfg).Outcome o.call o.seen o.pending) (hacc : accepts s o.pending = true)
    (hC : FindsRoom cfg s hs o) :
    Sound cfg start ((protocol cfg).write s o.pending) (hs ++ [(o.call, o.pending)]) := by
  obtain ⟨sub, huser, hplan, hcreated, hrows, hquota⟩ := outcome_write ho hacc
  obtain ⟨hfunds, hroom⟩ := hC
  constructor
  case nonneg =>
    intro u q hq
    rw [hquota] at hq
    obtain ⟨q₀, hq₀, rfl⟩ := Option.map_eq_some_iff.mp hq
    have hq₀' := h.nonneg u q₀ hq₀
    unfold due
    by_cases hu : o.call.isPurchase = true ∧ o.call.userId = u
    · obtain ⟨hbuys, rfl⟩ := hu
      have hle := hfunds hbuys q₀ hq₀
      rw [if_pos ⟨hbuys, rfl⟩]
      omega
    · rw [if_neg hu]
      omega
  case paid =>
    intro u
    rw [hquota, h.paid u, spent_append hcreated hplan, Option.map_map]
    congr 1
    funext q
    show q - spent cfg hs u - due cfg o.call u = _
    omega
  case subs =>
    rw [hrows, h.subs, created_append, hcreated, List.append_assoc]
  case one =>
    intro x hx
    rcases List.mem_append.mp hx with hx | hx
    · exact h.one x hx
    · rw [List.mem_singleton.mp hx]
      exact ⟨sub, hcreated, huser, hplan⟩
  case limit =>
    intro u row hrow hpos
    have hlimit := h.limit u row hrow hpos
    rw [count_append hrows]
    by_cases hu : sub.userId = u ∧ sub.planId = row.id
    · obtain ⟨rfl, hp⟩ := hu
      have hlt := hroom row hrow (hp.symm.trans hplan) hpos
      rw [huser, ← hp] at *
      rw [if_pos ⟨rfl, rfl⟩]
      push_cast
      omega
    · rw [if_neg hu]
      simpa using hlimit

/-- A commit that finds the quota spent, or the last place taken, goes over. -/
theorem Sound.commit_over (h : Sound cfg start s hs)
    (ho : (protocol cfg).Outcome o.call o.seen o.pending) (hacc : accepts s o.pending = true)
    (hC : ¬ FindsRoom cfg s hs o) :
    ¬ Sound cfg start ((protocol cfg).write s o.pending) (hs ++ [(o.call, o.pending)]) := by
  obtain ⟨sub, huser, hplan, hcreated, hrows, hquota⟩ := outcome_write ho hacc
  intro hgood
  refine hC ⟨fun hbuys q hq => ?_, fun row hrow hid hpos => ?_⟩
  · have hleft : ((protocol cfg).write s o.pending).quota o.call.userId =
        some (q - cfg.price o.call.planId) := by
      rw [hquota, hq, Option.map_some]
      unfold due
      rw [if_pos ⟨hbuys, rfl⟩]
    have hnonneg := hgood.nonneg _ _ hleft
    omega
  · have hlimit := hgood.limit o.call.userId row hrow hpos
    rw [count_append hrows, if_pos ⟨huser, hplan.trans hid.symm⟩] at hlimit
    have hstart := h.start_le_count o.call.userId row.id
    push_cast at hlimit
    omega

/-- A month for one unit of money, half a million of quota. -/
def sampleConfig : Config where
  zone := GoTime.utc
  quotaPerUnit := 500000
  plans := ⟨[⟨SubscriptionOrders.samplePlan, 1, true⟩], by decide⟩

/-- User 7 can pay for one month. -/
def sampleStart : Store where
  users := ⟨.empty, fun _ => "default"⟩
  quota := Function.update (fun _ => none) 7 (some 500000)
  orders := .empty

/-- Two purchases of user 7: both read his quota, then one after the other goes on. -/
def bothPurchase : List (Action Call) :=
  let purchase (randomString : String) (subId : ℕ) : Call :=
    .purchase ⟨7, 1, 2000, 2000, randomString, 2000000000000, subId, subId⟩
  [.select 0 (purchase "aaaaaa" 1), .select 1 (purchase "bbbbbb" 2),
    .next 0, .next 0, .next 0, .next 0, .commit 0, .next 1, .next 1, .next 1, .next 1, .commit 1]

theorem sampleStart_nonneg (u : ℕ) (q : ℤ) (h : sampleStart.quota u = some q) : 0 ≤ q := by
  simp only [sampleStart, Function.update_apply] at h
  split at h
  · cases h
    omega
  · cases h

end BalancePurchase
