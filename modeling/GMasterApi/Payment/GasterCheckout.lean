import GMasterApi.Payment.SubscriptionOrder

/-!
# Checkouts of Gaster Code

A checkout is created together with an order that has its trade number.  Its
status is computed anew by each poll: from that order, and where the order is
still pending, from any successful top-up of the same amount or any active
subscription to the same plan since then.

So a payment may settle several checkouts.  It settles its own, and a checkout is
settled by no other payment than its own or one of its user for its amount or
plan (`checkout_paid_for`).
-/

namespace GasterCheckout

open GoString
open TopUps (TopUp TopUpStatus)
open SubscriptionOrders (SubscriptionOrder)
open Subscription (SubStatus)

inductive Kind
  | topup
  | subscription
  deriving DecidableEq

inductive CheckoutStatus
  | pending
  | paid
  | failed
  | expired
  | cancelled
  deriving DecidableEq

/-- A row of `gaster_code_billing_checkouts`. -/
structure Checkout where
  id : String
  userId : ℕ
  kind : Kind
  planId : String
  tradeNo : String
  status : CheckoutStatus
  expiresAt : ℤ
  createdAt : ℤ
  deriving DecidableEq

/-- The columns of `user_subscriptions` that matter to a checkout. -/
structure Sub where
  id : ℕ
  userId : ℕ
  planId : ℕ
  status : SubStatus
  endTime : ℤ
  cancelAtPeriodEnd : Bool
  createdAt : ℤ
  deriving DecidableEq

structure Plan where
  id : ℕ
  priceAmount : ℚ
  enabled : Bool
  maxPurchasePerUser : ℤ
  deriving DecidableEq

/-- The clock, in Unix seconds, and the tables. -/
structure Store where
  now : ℤ
  now_pos : 0 < now
  topUps : Table TopUp TopUp.tradeNo
  orders : Table SubscriptionOrder SubscriptionOrder.tradeNo
  subs : Table Sub Sub.id
  checkouts : Table Checkout Checkout.id

/-- Settings; `perUnit` is the `decimal` quotient of an amount and `QuotaPerUnit`, cut to an
integer, and `payMoney` is `getPayMoney` of an amount and a group. -/
structure Config where
  displayTokens : Bool
  perUnit : ℤ → ℤ
  minTopup : ℤ
  amountOptions : List ℤ
  payMoney : ℤ → String → ℚ
  checkoutTTL : ℤ
  plan : ℕ → Option Plan

/-- `gasterCodeBillingError` -/
structure BillingError where
  code : String
  message : String
  deriving DecidableEq

def checkoutFailedCode : String := "GMASTER_BILLING_CHECKOUT_FAILED"
def planUnavailableCode : String := "GMASTER_BILLING_PLAN_UNAVAILABLE"
def desktopPaymentProvider : String := "gaster_code"

/-! ## Plan ids -/

/-- The positive number after `name_` or `name:`, or alone. -/
def parsePlanID (name planID : String) : Option ℤ :=
  let trimmed := trimPrefix (trimPrefix (trimSpace planID) (name ++ "_")) (name ++ ":")
  (atoi trimmed).filter fun n => 0 < n

def parseGasterCodeTopupPlanID (planID : String) : Option ℤ := parsePlanID "topup" planID

def parseGasterCodeSubscriptionPlanID (planID : String) : Option ℕ :=
  (parsePlanID "subscription" planID).map Int.toNat

def isGasterCodeTopupAmountAvailable (cfg : Config) (amount : ℤ) : Bool :=
  decide (cfg.minTopup ≤ amount) && cfg.amountOptions.contains amount

def normalizeGasterCodeTopupAmountForStorage (cfg : Config) (amount : ℤ) : ℤ :=
  if cfg.displayTokens then cfg.perUnit amount else amount

/-! ## Creating a checkout -/

/-- The user of the session, and the hashes in the id and the trade number. -/
structure NewCheckout where
  userId : ℕ
  group : String
  idHash : String
  tradeHash : String
  rowId : ℕ
  deriving DecidableEq

def newGasterCodeCheckoutID (hash : String) : String := "gcbc_" ++ hash

def newGasterCodeTradeNo (kind hash : String) : String := "gc_" ++ (kind ++ ("_" ++ hash))

def errInvalidUser : BillingError := ⟨checkoutFailedCode, "user is invalid"⟩
def errTopupPlan : BillingError := ⟨planUnavailableCode, "topup plan is unavailable"⟩
def errAmountTooLow : BillingError := ⟨checkoutFailedCode, "checkout amount is too low"⟩
def errSubscriptionPlan : BillingError :=
  ⟨planUnavailableCode, "subscription plan is unavailable"⟩
def errPurchaseLimit : BillingError :=
  ⟨planUnavailableCode, "subscription purchase limit reached"⟩

/-- The transaction failed, as on a key that is taken. -/
def errCreate : BillingError := ⟨checkoutFailedCode, checkoutFailedCode⟩

def Store.newCheckout (cfg : Config) (s : Store) (kind : Kind) (planId tradeNo : String)
    (req : NewCheckout) : Checkout where
  id := newGasterCodeCheckoutID req.idHash
  userId := req.userId
  kind := kind
  planId := planId
  tradeNo := tradeNo
  status := .pending
  expiresAt := s.now + cfg.checkoutTTL
  createdAt := s.now

def createGasterCodeTopupCheckout (cfg : Config) (s : Store) (req : NewCheckout)
    (planID : String) : Except BillingError Store :=
  if req.userId = 0 then .error errInvalidUser
  else match parseGasterCodeTopupPlanID planID with
    | none => .error errTopupPlan
    | some amount =>
      if !isGasterCodeTopupAmountAvailable cfg amount then .error errTopupPlan
      else if cfg.payMoney amount req.group < 1 / 100 then .error errAmountTooLow
      else
        let tradeNo := newGasterCodeTradeNo "topup" req.tradeHash
        let checkout := s.newCheckout cfg .topup ("topup_" ++ toString amount) tradeNo req
        let topUp : TopUp :=
          { id := req.rowId
            userId := req.userId
            amount := normalizeGasterCodeTopupAmountForStorage cfg amount
            money := cfg.payMoney amount req.group
            tradeNo := tradeNo
            paymentMethod := desktopPaymentProvider
            paymentProvider := desktopPaymentProvider
            createTime := s.now
            completeTime := 0
            status := .pending }
        match s.topUps.create topUp, s.checkouts.create checkout with
        | some topUps, some checkouts => .ok { s with topUps := topUps, checkouts := checkouts }
        | _, _ => .error errCreate

/-- `CountUserSubscriptionsByPlan` -/
def Store.countSubs (s : Store) (userId planId : ℕ) : ℕ :=
  s.subs.rows.countP fun sub => sub.userId = userId && sub.planId = planId

def createGasterCodeSubscriptionCheckout (cfg : Config) (s : Store) (req : NewCheckout)
    (planID : String) : Except BillingError Store :=
  if req.userId = 0 then .error errInvalidUser
  else match (parseGasterCodeSubscriptionPlanID planID).bind cfg.plan with
    | none => .error errSubscriptionPlan
    | some plan =>
      if !plan.enabled then .error errSubscriptionPlan
      else if 0 < plan.maxPurchasePerUser ∧
          plan.maxPurchasePerUser ≤ s.countSubs req.userId plan.id then
        .error errPurchaseLimit
      else
        let tradeNo := newGasterCodeTradeNo "subscription" req.tradeHash
        let checkout :=
          s.newCheckout cfg .subscription ("subscription_" ++ toString plan.id) tradeNo req
        let order : SubscriptionOrder :=
          { id := req.rowId
            userId := req.userId
            planId := plan.id
            money := plan.priceAmount
            tradeNo := tradeNo
            paymentMethod := desktopPaymentProvider
            paymentProvider := desktopPaymentProvider
            status := .pending
            createTime := s.now
            completeTime := 0
            providerPayload := "" }
        match s.orders.create order, s.checkouts.create checkout with
        | some orders, some checkouts => .ok { s with orders := orders, checkouts := checkouts }
        | _, _ => .error errCreate

/-! ## Payments -/

/-- What a payment callback brings along; `passes` is the answer of the checks of its route
(provider, payment method, quota, plan, purchase limit). -/
structure Route where
  passes : Bool
  paymentMethod : String
  subId : ℕ
  rowId : ℕ
  endTime : ℤ
  deriving DecidableEq

/-- A pending top-up is completed, once its route accepts it. -/
def completeTopUp (s : Store) (tradeNo : String) (route : Route) : Store :=
  match s.topUps.find tradeNo with
  | none => s
  | some topUp =>
    if topUp.status = .pending ∧ route.passes = true then
      { s with topUps := s.topUps.save ((topUp.paidBy route.paymentMethod).completed s.now) }
    else s

/-- `CreateUserSubscriptionFromPlanTx`, as far as the row goes. -/
def Store.newSub (s : Store) (order : SubscriptionOrder) (route : Route) : Sub where
  id := route.subId
  userId := order.userId
  planId := order.planId
  status := .active
  endTime := route.endTime
  cancelAtPeriodEnd := false
  createdAt := s.now

/-- The row that `upsertSubscriptionTopUpTx` creates. -/
def mirror (order : SubscriptionOrder) (rowId : ℕ) (now : ℤ) : TopUp where
  id := rowId
  userId := order.userId
  amount := 0
  money := order.money
  tradeNo := order.tradeNo
  paymentMethod := order.paymentMethod
  paymentProvider := order.paymentProvider
  createTime := order.createTime
  completeTime := now
  status := .success

/-- The row that it saves over one with the trade number. -/
def mirrored (topUp : TopUp) (order : SubscriptionOrder) (now : ℤ) : TopUp :=
  { topUp with
    money := order.money
    paymentProvider :=
      if topUp.paymentProvider = "" then order.paymentProvider else topUp.paymentProvider
    paymentMethod := if topUp.paymentMethod = "" then order.paymentMethod else topUp.paymentMethod
    createTime := if topUp.createTime = 0 then order.createTime else topUp.createTime
    completeTime := now
    status := .success }

def upsertSubscriptionTopUpTx (s : Store) (order : SubscriptionOrder) (rowId : ℕ) :
    Option (Table TopUp TopUp.tradeNo) :=
  match s.topUps.find order.tradeNo with
  | none => s.topUps.create (mirror order rowId s.now)
  | some topUp => some (s.topUps.save (mirrored topUp order s.now))

def completedOrder (order : SubscriptionOrder) (actualPaymentMethod : String) (now : ℤ) :
    SubscriptionOrder :=
  { order with
    status := .success
    completeTime := now
    paymentMethod :=
      if actualPaymentMethod ≠ "" then actualPaymentMethod else order.paymentMethod }

/-- `CompleteSubscriptionOrder` -/
def completeSubscriptionOrder (s : Store) (tradeNo : String) (route : Route) : Store :=
  match s.orders.find tradeNo with
  | none => s
  | some order =>
    if order.status = .pending ∧ route.passes = true then
      match s.subs.create (s.newSub order route), upsertSubscriptionTopUpTx s order route.rowId with
      | some subs, some topUps =>
        { s with
          subs := subs
          topUps := topUps
          orders := s.orders.save (completedOrder order route.paymentMethod s.now) }
      | _, _ => s
    else s

/-- `PurchaseSubscriptionWithBalance`: an order that is paid when it is created. -/
def purchaseSubscriptionWithBalance (s : Store) (order : SubscriptionOrder) (route : Route) :
    Store :=
  let order := { order with status := .success, createTime := s.now, completeTime := s.now }
  if route.passes then
    match s.subs.create (s.newSub order route), s.orders.create order with
    | some subs, some orders => { s with subs := subs, orders := orders }
    | _, _ => s
  else s

/-- An order of another route, as it is inserted. -/
def insertTopUp (s : Store) (topUp : TopUp) : Store :=
  match s.topUps.create { topUp with status := .pending, createTime := s.now } with
  | none => s
  | some topUps => { s with topUps := topUps }

def insertOrder (s : Store) (order : SubscriptionOrder) : Store :=
  match s.orders.create { order with status := .pending, createTime := s.now } with
  | none => s
  | some orders => { s with orders := orders }

/-! ## Subscriptions that end -/

/-- `ExpireDueSubscriptions`, the transaction of one user. -/
def expireDueSubscriptions (s : Store) (userId : ℕ) : Store :=
  { s with
    subs := s.subs.updateWhere
      (fun sub => sub.userId = userId && sub.status = .active && decide (0 < sub.endTime) &&
        decide (sub.endTime ≤ s.now))
      (fun sub => { sub with status := .expired }) fun _ => rfl }

/-- `AdminInvalidateUserSubscription` -/
def adminInvalidateUserSubscription (s : Store) (subId : ℕ) : Store :=
  { s with
    subs := s.subs.updateWhere (fun sub => sub.id = subId)
      (fun sub => { sub with status := .cancelled, endTime := s.now }) fun _ => rfl }

/-- `AdminDeleteUserSubscription` -/
def adminDeleteUserSubscription (s : Store) (subId : ℕ) : Store :=
  { s with subs := s.subs.delete subId }

/-- `CancelCurrentUserSubscription`: the one that ends last keeps its status. -/
def cancelCurrentUserSubscription (s : Store) (userId : ℕ) : Store :=
  match (s.subs.select (fun sub => sub.userId = userId && sub.status = .active &&
      decide (s.now < sub.endTime)) fun a b =>
        b.endTime < a.endTime ∨ a.endTime = b.endTime ∧ b.id ≤ a.id).head? with
  | none => s
  | some current =>
    { s with
      subs := s.subs.updateWhere (fun sub => sub.id = current.id)
        (fun sub => { sub with cancelAtPeriodEnd := true }) fun _ => rfl }

/-! ## Polling -/

def gasterCodeCheckoutStatusFromPaymentStatus (status : TopUpStatus) : CheckoutStatus :=
  match status with
  | .success => .paid
  | .failed => .failed
  | .expired => .expired
  | .pending => .pending
  | .other text =>
    match trimSpace text with
    | "success" => .paid
    | "failed" => .failed
    | "expired" => .expired
    | "cancelled" => .cancelled
    | "canceled" => .cancelled
    | _ => .pending

def getSubscriptionOrderByTradeNo (s : Store) (tradeNo : String) : Option SubscriptionOrder :=
  if tradeNo = "" then none else s.orders.find tradeNo

def inferGasterCodeCheckoutStatusFromAccountChanges (cfg : Config) (s : Store) (c : Checkout) :
    Option CheckoutStatus :=
  if c.userId = 0 then none
  else match c.kind with
    | .topup =>
      match parseGasterCodeTopupPlanID c.planId with
      | none => none
      | some amount =>
        let storedAmount := normalizeGasterCodeTopupAmountForStorage cfg amount
        let count := s.topUps.rows.countP fun t =>
          decide (t.userId = (c.userId : ℤ) ∧ t.status = .success ∧ c.createdAt ≤ t.createTime ∧
            t.amount = storedAmount)
        if 0 < count then some .paid else none
    | .subscription =>
      match parseGasterCodeSubscriptionPlanID c.planId with
      | none => none
      | some planID =>
        let count := s.subs.rows.countP fun sub =>
          decide (sub.userId = c.userId ∧ sub.planId = planID ∧ sub.status = .active ∧
            c.createdAt ≤ sub.createdAt)
        if 0 < count then some .paid else none

/-- The status of the order that was created with the checkout. -/
def orderStatus (s : Store) (c : Checkout) : CheckoutStatus :=
  match c.kind with
  | .topup =>
    match s.topUps.find c.tradeNo with
    | some topUp => gasterCodeCheckoutStatusFromPaymentStatus topUp.status
    | none => c.status
  | .subscription =>
    match getSubscriptionOrderByTradeNo s c.tradeNo with
    | some order => gasterCodeCheckoutStatusFromPaymentStatus order.status
    | none => c.status

/-- The status that `refreshGasterCodeCheckoutStatus` leaves. -/
def refreshedStatus (cfg : Config) (s : Store) (c : Checkout) : CheckoutStatus :=
  let status := orderStatus s c
  let status := if status = .pending then
    (inferGasterCodeCheckoutStatusFromAccountChanges cfg s c).getD status else status
  if status = .pending ∧ 0 < c.expiresAt ∧ c.expiresAt ≤ s.now then .expired else status

def getGasterCodeBillingCheckout (s : Store) (id : String) (userID : ℕ) : Option Checkout :=
  let id := trimSpace id
  if id = "" ∨ userID = 0 then none
  else (s.checkouts.find id).filter fun c => c.userId = userID

def refreshGasterCodeCheckoutStatus (cfg : Config) (s : Store) (c : Checkout) : Store :=
  let status := refreshedStatus cfg s c
  if status = c.status then s
  else { s with checkouts := s.checkouts.save { c with status := status } }

/-- `GasterCodeBillingCheckoutStatus` -/
def poll (cfg : Config) (s : Store) (id : String) (userID : ℕ) : Store :=
  match getGasterCodeBillingCheckout s id userID with
  | none => s
  | some checkout => refreshGasterCodeCheckoutStatus cfg s checkout

def Store.elapse (s : Store) (seconds : ℕ) : Store :=
  { s with
    now := s.now + seconds
    now_pos := Int.add_pos_of_pos_of_nonneg s.now_pos (Int.natCast_nonneg seconds) }

inductive Call
  | createTopup (req : NewCheckout) (planID : String)
  | createSubscription (req : NewCheckout) (planID : String)
  | insertTopUp (topUp : TopUp)
  | insertOrder (order : SubscriptionOrder)
  | completeTopUp (tradeNo : String) (route : Route)
  | completeSubscriptionOrder (tradeNo : String) (route : Route)
  | purchaseWithBalance (order : SubscriptionOrder) (route : Route)
  | expireDueSubscriptions (userId : ℕ)
  | adminInvalidateUserSubscription (subId : ℕ)
  | adminDeleteUserSubscription (subId : ℕ)
  | cancelCurrentUserSubscription (userId : ℕ)
  | elapse (seconds : ℕ)
  | poll (id : String) (userID : ℕ)
  deriving DecidableEq

/-- A failed creation leaves the store. -/
def step (cfg : Config) (s : Store) : Call → Store
  | .createTopup req planID =>
    match createGasterCodeTopupCheckout cfg s req planID with
    | .error _ => s
    | .ok t => t
  | .createSubscription req planID =>
    match createGasterCodeSubscriptionCheckout cfg s req planID with
    | .error _ => s
    | .ok t => t
  | .insertTopUp topUp => insertTopUp s topUp
  | .insertOrder order => insertOrder s order
  | .completeTopUp tradeNo route => completeTopUp s tradeNo route
  | .completeSubscriptionOrder tradeNo route => completeSubscriptionOrder s tradeNo route
  | .purchaseWithBalance order route => purchaseSubscriptionWithBalance s order route
  | .expireDueSubscriptions userId => expireDueSubscriptions s userId
  | .adminInvalidateUserSubscription subId => adminInvalidateUserSubscription s subId
  | .adminDeleteUserSubscription subId => adminDeleteUserSubscription s subId
  | .cancelCurrentUserSubscription userId => cancelCurrentUserSubscription s userId
  | .elapse seconds => s.elapse seconds
  | .poll id userID => poll cfg s id userID

def run (cfg : Config) (s : Store) (as : List Call) : Store := as.foldl (step cfg) s

/-- An account before its first checkout. -/
def Store.opened (s : Store) : Store := { s with checkouts := Table.empty }

/-! ## When a checkout is covered by a payment -/

/-- The order of the checkout itself was paid. -/
def OwnPaid (s : Store) (c : Checkout) : Prop :=
  match c.kind with
  | .topup => ∃ t ∈ s.topUps.rows, t.tradeNo = c.tradeNo ∧ t.status = .success
  | .subscription => ∃ o ∈ s.orders.rows, o.tradeNo = c.tradeNo ∧ o.status = .success

/-- A successful top-up has the user and the stored amount of the checkout, and is no older. -/
def TopUpMatches (cfg : Config) (c : Checkout) (t : TopUp) : Prop :=
  ∃ amount, parseGasterCodeTopupPlanID c.planId = some amount ∧ t.userId = (c.userId : ℤ) ∧
    t.status = .success ∧ c.createdAt ≤ t.createTime ∧
      t.amount = normalizeGasterCodeTopupAmountForStorage cfg amount

/-- An active subscription has the user and the plan of the checkout, and is no older. -/
def SubMatches (c : Checkout) (sub : Sub) : Prop :=
  parseGasterCodeSubscriptionPlanID c.planId = some sub.planId ∧ sub.userId = c.userId ∧
    sub.status = .active ∧ c.createdAt ≤ sub.createdAt

/-- Some payment of the account matches the checkout. -/
def Matched (cfg : Config) (s : Store) (c : Checkout) : Prop :=
  match c.kind with
  | .topup => ∃ t ∈ s.topUps.rows, TopUpMatches cfg c t
  | .subscription => ∃ sub ∈ s.subs.rows, SubMatches c sub

def Covered (cfg : Config) (s : Store) (c : Checkout) : Prop := OwnPaid s c ∨ Matched cfg s c

/-- The trade number that a call pays for. -/
def Call.pays : Call → Option String
  | .completeTopUp tradeNo _ => some tradeNo
  | .completeSubscriptionOrder tradeNo _ => some tradeNo
  | .purchaseWithBalance order _ => some order.tradeNo
  | _ => none

/-- In `s`, the trade number `n` was paid for the checkout itself, or by its user for its
amount or plan. -/
def PaidFor (cfg : Config) (s : Store) (n : String) (c : Checkout) : Prop :=
  c.tradeNo = n ∨
    match c.kind with
    | .topup => ∃ t ∈ s.topUps.rows, t.tradeNo = n ∧ TopUpMatches cfg c t
    | .subscription => ∃ o ∈ s.orders.rows, o.tradeNo = n ∧ o.status = .success ∧
        o.userId = c.userId ∧ parseGasterCodeSubscriptionPlanID c.planId = some o.planId

/-- The order of the checkout is there, and was neither refused nor cancelled. -/
def Ordered (s : Store) (c : Checkout) : Prop :=
  match c.kind with
  | .topup => ∃ t ∈ s.topUps.rows, t.tradeNo = c.tradeNo ∧
      (t.status = .pending ∨ t.status = .success)
  | .subscription => c.tradeNo ≠ "" ∧ ∃ o ∈ s.orders.rows, o.tradeNo = c.tradeNo ∧
      (o.status = .pending ∨ o.status = .success)

/-! ## What a poll says -/

variable {cfg : Config} {s t : Store} {c : Checkout} {n : Option String}

theorem infer_of_matched (hu : c.userId ≠ 0) (h : Matched cfg s c) :
    inferGasterCodeCheckoutStatusFromAccountChanges cfg s c = some .paid := by
  unfold inferGasterCodeCheckoutStatusFromAccountChanges
  rw [if_neg hu]
  unfold Matched at h
  cases hk : c.kind with
  | topup =>
    rw [hk] at h
    obtain ⟨t, ht, amount, hamount, hmatch⟩ := h
    simp only [hamount]
    rw [if_pos (List.countP_pos_iff.mpr ⟨t, ht, decide_eq_true hmatch⟩)]
  | subscription =>
    rw [hk] at h
    obtain ⟨sub, hsub, hplan, huser, hmatch⟩ := h
    simp only [hplan]
    rw [if_pos (List.countP_pos_iff.mpr ⟨sub, hsub, decide_eq_true ⟨huser, rfl, hmatch⟩⟩)]

theorem matched_of_infer {status : CheckoutStatus}
    (h : inferGasterCodeCheckoutStatusFromAccountChanges cfg s c = some status) :
    Matched cfg s c ∧ status = .paid := by
  unfold inferGasterCodeCheckoutStatusFromAccountChanges at h
  unfold Matched
  split at h
  · cases h
  cases hk : c.kind with
  | topup =>
    simp only [hk] at h
    split at h
    · cases h
    · rename_i amount hamount
      split at h
      · rename_i hcount
        obtain ⟨t, ht, hmatch⟩ := List.countP_pos_iff.mp hcount
        cases h
        exact ⟨⟨t, ht, amount, hamount, of_decide_eq_true hmatch⟩, rfl⟩
      · cases h
  | subscription =>
    simp only [hk] at h
    split at h
    · cases h
    · rename_i planId hplan
      split at h
      · rename_i hcount
        obtain ⟨sub, hsub, hmatch⟩ := List.countP_pos_iff.mp hcount
        obtain ⟨huser, hid, hactive, htime⟩ := of_decide_eq_true hmatch
        cases h
        exact ⟨⟨sub, hsub, hid ▸ hplan, huser, hactive, htime⟩, rfl⟩
      · cases h

/-- The order that was created with a checkout is pending or paid. -/
theorem orderStatus_of_ordered (h : Ordered s c) :
    (orderStatus s c = .pending ∧ ¬ OwnPaid s c) ∨ (orderStatus s c = .paid ∧ OwnPaid s c) := by
  unfold Ordered at h
  unfold orderStatus OwnPaid
  cases hk : c.kind with
  | topup =>
    simp only [hk] at h
    obtain ⟨x, hx, hno, hstatus⟩ := h
    have hfind : s.topUps.find c.tradeNo = some x := Table.find_eq_some_iff.mpr ⟨hx, hno⟩
    simp only [hfind]
    rcases hstatus with hstatus | hstatus
    · refine .inl ⟨by rw [hstatus]; rfl, ?_⟩
      rintro ⟨y, hy, hyno, hsuccess⟩
      rw [Table.eq_of_mem hy hx (hyno.trans hno.symm), hstatus] at hsuccess
      cases hsuccess
    · exact .inr ⟨by rw [hstatus]; rfl, x, hx, hno, hstatus⟩
  | subscription =>
    simp only [hk] at h
    obtain ⟨hne, x, hx, hno, hstatus⟩ := h
    have hfind : getSubscriptionOrderByTradeNo s c.tradeNo = some x := by
      unfold getSubscriptionOrderByTradeNo
      rw [if_neg hne]
      exact Table.find_eq_some_iff.mpr ⟨hx, hno⟩
    simp only [hfind]
    rcases hstatus with hstatus | hstatus
    · refine .inl ⟨by rw [hstatus]; rfl, ?_⟩
      rintro ⟨y, hy, hyno, hsuccess⟩
      rw [Table.eq_of_mem hy hx (hyno.trans hno.symm), hstatus] at hsuccess
      cases hsuccess
    · exact .inr ⟨by rw [hstatus]; rfl, x, hx, hno, hstatus⟩

/-- **A poll finds a checkout paid exactly if a payment covers it.** -/
theorem refreshedStatus_eq_paid_iff (hu : c.userId ≠ 0) (h : Ordered s c) :
    refreshedStatus cfg s c = .paid ↔ Covered cfg s c := by
  unfold refreshedStatus Covered
  rcases orderStatus_of_ordered h with ⟨hstatus, hown⟩ | ⟨hstatus, hown⟩
  · simp only [hstatus, if_true]
    cases hinfer : inferGasterCodeCheckoutStatusFromAccountChanges cfg s c with
    | none =>
      have hmatched : ¬ Matched cfg s c := by
        intro hm
        rw [infer_of_matched hu hm] at hinfer
        cases hinfer
      rw [Option.getD_none]
      refine ⟨fun hpaid => ?_, fun hor => absurd hor (not_or.mpr ⟨hown, hmatched⟩)⟩
      split at hpaid <;> cases hpaid
    | some status =>
      obtain ⟨hm, rfl⟩ := matched_of_infer hinfer
      exact ⟨fun _ => .inr hm, fun _ => rfl⟩
  · rw [hstatus]
    exact ⟨fun _ => .inl hown, fun _ => rfl⟩

/-! ## What a call does to the rows -/

/-- A call that pays for `n` and a row of `top_ups`. -/
structure TopUpStep (n : Option String) (x y : TopUp) : Prop where
  userId : y.userId = x.userId
  amount : y.amount = x.amount
  createTime : y.createTime = x.createTime ∨ (x.createTime = 0 ∧ n = some x.tradeNo)
  status : y.status = x.status ∨ (y.status = .success ∧ n = some x.tradeNo)

/-- The same for a row of `subscription_orders`. -/
structure OrderStep (n : Option String) (x y : SubscriptionOrder) : Prop where
  userId : y.userId = x.userId
  planId : y.planId = x.planId
  status : y.status = x.status ∨ (y.status = .success ∧ n = some x.tradeNo)

/-- A subscription keeps its user, its plan and its age, and does not come to life again. -/
structure SubStep (x y : Sub) : Prop where
  userId : y.userId = x.userId
  planId : y.planId = x.planId
  createdAt : y.createdAt = x.createdAt
  active : y.status = .active → x.status = .active

/-- Only a poll changes a checkout, and only its status. -/
def CheckoutStep (cfg : Config) (s : Store) (x y : Checkout) : Prop :=
  y = { x with status := y.status } ∧ (y.status = x.status ∨ y.status = refreshedStatus cfg s x)

/-- A new checkout is pending and has an order. -/
structure NewCheckoutRow (s t : Store) (y : Checkout) : Prop where
  status : y.status = .pending
  createdAt : y.createdAt = s.now
  userId : y.userId ≠ 0
  ordered : Ordered t y

/-- What a call that pays for `n` does to the store. -/
structure StepSpec (cfg : Config) (n : Option String) (s t : Store) : Prop where
  topUps : Table.Evolves (TopUpStep n)
    (fun y => y.status = .pending ∨ (y.status = .success ∧ n = some y.tradeNo)) s.topUps t.topUps
  orders : Table.Evolves (OrderStep n)
    (fun y => y.status = .pending ∨ (y.status = .success ∧ n = some y.tradeNo)) s.orders t.orders
  subs : Table.ComesFrom SubStep
    (fun y => ∃ o ∈ t.orders.rows, n = some o.tradeNo ∧ o.status = .success ∧
      o.userId = y.userId ∧ o.planId = y.planId) s.subs t.subs
  checkouts : Table.Evolves (CheckoutStep cfg s) (NewCheckoutRow s t) s.checkouts t.checkouts

theorem TopUpStep.refl (n : Option String) (x : TopUp) : TopUpStep n x x :=
  ⟨rfl, rfl, .inl rfl, .inl rfl⟩

theorem OrderStep.refl (n : Option String) (x : SubscriptionOrder) : OrderStep n x x :=
  ⟨rfl, rfl, .inl rfl⟩

theorem SubStep.refl (x : Sub) : SubStep x x := ⟨rfl, rfl, rfl, id⟩

theorem CheckoutStep.refl (cfg : Config) (s : Store) (x : Checkout) : CheckoutStep cfg s x x :=
  ⟨rfl, .inl rfl⟩

theorem StepSpec.refl (cfg : Config) (n : Option String) (s : Store) : StepSpec cfg n s s :=
  ⟨.refl (TopUpStep.refl n) _, .refl (OrderStep.refl n) _, .refl SubStep.refl _,
    .refl (CheckoutStep.refl cfg s) _⟩

/-- Only subscriptions change, and none begins. -/
theorem StepSpec.of_subs {subs : Table Sub Sub.id}
    (h : Table.ComesFrom SubStep (fun _ => False) s.subs subs) :
    StepSpec cfg n s { s with subs := subs } where
  topUps := .refl (TopUpStep.refl n) _
  orders := .refl (OrderStep.refl n) _
  subs := fun y hy => (h y hy).imp_right False.elim
  checkouts := .refl (CheckoutStep.refl cfg s) _

theorem newGasterCodeTradeNo_ne (kind hash : String) : newGasterCodeTradeNo kind hash ≠ "" := by
  unfold newGasterCodeTradeNo
  intro h
  have hlen := congrArg String.length h
  rw [String.length_append] at hlen
  have hgc : "gc_".length = 3 := rfl
  have hempty : "".length = 0 := rfl
  omega

theorem createTopup_spec {req : NewCheckout} {planID : String}
    (h : createGasterCodeTopupCheckout cfg s req planID = .ok t) : StepSpec cfg n s t := by
  unfold createGasterCodeTopupCheckout at h
  split at h
  · cases h
  rename_i hu
  split at h
  · cases h
  split at h
  · cases h
  split at h
  · cases h
  dsimp only at h
  split at h
  · rename_i topUps checkouts htopUps hcheckouts
    cases h
    exact {
      topUps := Table.evolves_create (TopUpStep.refl n) htopUps (.inl rfl)
      orders := .refl (OrderStep.refl n) _
      subs := .refl SubStep.refl _
      checkouts := Table.evolves_create (CheckoutStep.refl cfg s) hcheckouts {
        status := rfl
        createdAt := rfl
        userId := hu
        ordered := ⟨_, Table.mem_create htopUps, rfl, .inl rfl⟩ } }
  · cases h

theorem createSubscription_spec {req : NewCheckout} {planID : String}
    (h : createGasterCodeSubscriptionCheckout cfg s req planID = .ok t) :
    StepSpec cfg n s t := by
  unfold createGasterCodeSubscriptionCheckout at h
  split at h
  · cases h
  rename_i hu
  split at h
  · cases h
  split at h
  · cases h
  split at h
  · cases h
  dsimp only at h
  split at h
  · rename_i orders checkouts horders hcheckouts
    cases h
    exact {
      topUps := .refl (TopUpStep.refl n) _
      orders := Table.evolves_create (OrderStep.refl n) horders (.inl rfl)
      subs := .refl SubStep.refl _
      checkouts := Table.evolves_create (CheckoutStep.refl cfg s) hcheckouts {
        status := rfl
        createdAt := rfl
        userId := hu
        ordered :=
          ⟨newGasterCodeTradeNo_ne _ _, _, Table.mem_create horders, rfl, .inl rfl⟩ } }
  · cases h

theorem paidBy_completed_step (x : TopUp) (method : String) (now : ℤ) :
    TopUpStep (some x.tradeNo) x ((x.paidBy method).completed now) := by
  unfold TopUp.paidBy
  split <;> exact ⟨rfl, rfl, .inl rfl, .inr ⟨rfl, rfl⟩⟩

theorem completeTopUp_spec (tradeNo : String) (route : Route) :
    StepSpec cfg (some tradeNo) s (completeTopUp s tradeNo route) := by
  unfold completeTopUp
  split
  · exact .refl cfg _ s
  rename_i topUp hfind
  split
  · have hno : topUp.tradeNo = tradeNo := (Table.find_eq_some_iff.mp hfind).2
    have hstep := paidBy_completed_step topUp route.paymentMethod s.now
    have hkey : ((topUp.paidBy route.paymentMethod).completed s.now).tradeNo = tradeNo := by
      unfold TopUp.paidBy
      split <;> exact hno
    rw [hno] at hstep
    exact {
      topUps := Table.evolves_save (TopUpStep.refl _) (hkey.symm ▸ hfind) hstep
      orders := .refl (OrderStep.refl _) _
      subs := .refl SubStep.refl _
      checkouts := .refl (CheckoutStep.refl cfg s) _ }
  · exact .refl cfg _ s

theorem mirrored_createTime {x : TopUp} {order : SubscriptionOrder} {now : ℤ}
    (hno : x.tradeNo = order.tradeNo) :
    (mirrored x order now).createTime = x.createTime ∨
      (x.createTime = 0 ∧ some order.tradeNo = some x.tradeNo) := by
  by_cases htime : x.createTime = 0
  · exact .inr ⟨htime, congrArg some hno.symm⟩
  · exact .inl (if_neg htime)

theorem upsertSubscriptionTopUpTx_spec {order : SubscriptionOrder} {rowId : ℕ}
    {topUps : Table TopUp TopUp.tradeNo}
    (h : upsertSubscriptionTopUpTx s order rowId = some topUps) :
    Table.Evolves (TopUpStep (some order.tradeNo))
      (fun y => y.status = .pending ∨ (y.status = .success ∧ some order.tradeNo = some y.tradeNo))
      s.topUps topUps := by
  unfold upsertSubscriptionTopUpTx at h
  split at h
  · exact Table.evolves_create (TopUpStep.refl _) h (.inr ⟨rfl, rfl⟩)
  · rename_i topUp hfind
    have hno : topUp.tradeNo = order.tradeNo := (Table.find_eq_some_iff.mp hfind).2
    cases h
    have hkey : (mirrored topUp order s.now).tradeNo = order.tradeNo := hno
    have hstep : TopUpStep (some order.tradeNo) topUp (mirrored topUp order s.now) := {
      userId := rfl
      amount := rfl
      createTime := mirrored_createTime hno
      status := .inr ⟨rfl, congrArg some hno.symm⟩ }
    exact Table.evolves_save (TopUpStep.refl _) (hkey.symm ▸ hfind) hstep

theorem completeSubscriptionOrder_spec (tradeNo : String) (route : Route) :
    StepSpec cfg (some tradeNo) s (completeSubscriptionOrder s tradeNo route) := by
  unfold completeSubscriptionOrder
  split
  · exact .refl cfg _ s
  rename_i order hfind
  split
  · split
    · rename_i subs topUps hsubs htopUps
      obtain ⟨horder, hno⟩ := Table.find_eq_some_iff.mp hfind
      have hkey : (completedOrder order route.paymentMethod s.now).tradeNo = tradeNo := hno
      have hstep : OrderStep (some tradeNo) order
          (completedOrder order route.paymentMethod s.now) :=
        ⟨rfl, rfl, .inr ⟨rfl, congrArg some hno.symm⟩⟩
      have hpaid : completedOrder order route.paymentMethod s.now ∈
          (s.orders.save (completedOrder order route.paymentMethod s.now)).rows :=
        Table.mem_save.mpr (.inr ⟨rfl, order, horder, rfl⟩)
      exact {
        topUps := hno ▸ upsertSubscriptionTopUpTx_spec htopUps
        orders := Table.evolves_save (OrderStep.refl _) (hkey.symm ▸ hfind) hstep
        subs := Table.comesFrom_create SubStep.refl hsubs
          ⟨_, hpaid, congrArg some hno.symm, rfl, rfl, rfl⟩
        checkouts := .refl (CheckoutStep.refl cfg s) _ }
    · exact .refl cfg _ s
  · exact .refl cfg _ s

theorem purchaseSubscriptionWithBalance_spec (order : SubscriptionOrder) (route : Route) :
    StepSpec cfg (some order.tradeNo) s (purchaseSubscriptionWithBalance s order route) := by
  unfold purchaseSubscriptionWithBalance
  dsimp only
  split
  · split
    · rename_i subs orders hsubs horders
      exact {
        topUps := .refl (TopUpStep.refl _) _
        orders := Table.evolves_create (OrderStep.refl _) horders (.inr ⟨rfl, rfl⟩)
        subs := Table.comesFrom_create SubStep.refl hsubs
          ⟨_, Table.mem_create horders, rfl, rfl, rfl, rfl⟩
        checkouts := .refl (CheckoutStep.refl cfg s) _ }
    · exact .refl cfg _ s
  · exact .refl cfg _ s

theorem insertTopUp_spec (topUp : TopUp) : StepSpec cfg n s (insertTopUp s topUp) := by
  unfold insertTopUp
  split
  · exact .refl cfg n s
  · rename_i topUps htopUps
    exact {
      topUps := Table.evolves_create (TopUpStep.refl n) htopUps (.inl rfl)
      orders := .refl (OrderStep.refl n) _
      subs := .refl SubStep.refl _
      checkouts := .refl (CheckoutStep.refl cfg s) _ }

theorem insertOrder_spec (order : SubscriptionOrder) :
    StepSpec cfg n s (insertOrder s order) := by
  unfold insertOrder
  split
  · exact .refl cfg n s
  · rename_i orders horders
    exact {
      topUps := .refl (TopUpStep.refl n) _
      orders := Table.evolves_create (OrderStep.refl n) horders (.inl rfl)
      subs := .refl SubStep.refl _
      checkouts := .refl (CheckoutStep.refl cfg s) _ }

theorem poll_spec (id : String) (userID : ℕ) : StepSpec cfg n s (poll cfg s id userID) := by
  unfold poll
  split
  · exact .refl cfg n s
  rename_i checkout hget
  unfold refreshGasterCodeCheckoutStatus
  dsimp only
  split
  · exact .refl cfg n s
  · have hfind : s.checkouts.find checkout.id = some checkout := by
      unfold getGasterCodeBillingCheckout at hget
      dsimp only at hget
      split at hget
      · cases hget
      · obtain ⟨hfind, -⟩ := Option.filter_eq_some_iff.mp hget
        have hid := (Table.find_eq_some_iff.mp hfind).2
        exact hid ▸ hfind
    exact {
      topUps := .refl (TopUpStep.refl n) _
      orders := .refl (OrderStep.refl n) _
      subs := .refl SubStep.refl _
      checkouts := Table.evolves_save (CheckoutStep.refl cfg s) hfind ⟨rfl, .inr rfl⟩ }

/-- **What a call may do**, whichever it is. -/
theorem step_spec (a : Call) : StepSpec cfg a.pays s (step cfg s a) := by
  cases a with
  | createTopup req planID =>
    simp only [step]
    split
    · exact .refl cfg _ s
    · rename_i t ht
      exact createTopup_spec ht
  | createSubscription req planID =>
    simp only [step]
    split
    · exact .refl cfg _ s
    · rename_i t ht
      exact createSubscription_spec ht
  | insertTopUp topUp => exact insertTopUp_spec topUp
  | insertOrder order => exact insertOrder_spec order
  | completeTopUp tradeNo route => exact completeTopUp_spec tradeNo route
  | completeSubscriptionOrder tradeNo route => exact completeSubscriptionOrder_spec tradeNo route
  | purchaseWithBalance order route => exact purchaseSubscriptionWithBalance_spec order route
  | expireDueSubscriptions userId =>
    refine .of_subs (Table.comesFrom_updateWhere SubStep.refl fun x => ⟨rfl, rfl, rfl, ?_⟩)
    intro h
    cases h
  | adminInvalidateUserSubscription subId =>
    refine .of_subs (Table.comesFrom_updateWhere SubStep.refl fun x => ⟨rfl, rfl, rfl, ?_⟩)
    intro h
    cases h
  | adminDeleteUserSubscription subId => exact .of_subs (Table.comesFrom_delete SubStep.refl)
  | cancelCurrentUserSubscription userId =>
    simp only [step, cancelCurrentUserSubscription]
    split
    · exact .refl cfg _ s
    · exact .of_subs (Table.comesFrom_updateWhere SubStep.refl fun x => ⟨rfl, rfl, rfl, id⟩)
  | elapse seconds =>
    exact {
      topUps := .refl (TopUpStep.refl _) _
      orders := .refl (OrderStep.refl _) _
      subs := .refl SubStep.refl _
      checkouts := .refl (CheckoutStep.refl cfg s) _ }
  | poll id userID => exact poll_spec id userID

/-! ## What stays -/

theorem Ordered.step (h : Ordered s c) (hstep : StepSpec cfg n s t) : Ordered t c := by
  unfold Ordered at h ⊢
  cases hk : c.kind with
  | topup =>
    simp only [hk] at h
    obtain ⟨x, hx, hno, hstatus⟩ := h
    obtain ⟨y, hy, hkey, hxy⟩ := hstep.topUps.kept x hx
    refine ⟨y, hy, hkey.trans hno, ?_⟩
    rcases hxy.status with hsame | ⟨hsuccess, -⟩
    · rw [hsame]
      exact hstatus
    · exact .inr hsuccess
  | subscription =>
    simp only [hk] at h
    obtain ⟨hne, x, hx, hno, hstatus⟩ := h
    obtain ⟨y, hy, hkey, hxy⟩ := hstep.orders.kept x hx
    refine ⟨hne, y, hy, hkey.trans hno, ?_⟩
    rcases hxy.status with hsame | ⟨hsuccess, -⟩
    · rw [hsame]
      exact hstatus
    · exact .inr hsuccess

theorem OwnPaid.step (h : OwnPaid s c) (hstep : StepSpec cfg n s t) : OwnPaid t c := by
  unfold OwnPaid at h ⊢
  cases hk : c.kind with
  | topup =>
    simp only [hk] at h
    obtain ⟨x, hx, hno, hstatus⟩ := h
    obtain ⟨y, hy, hkey, hxy⟩ := hstep.topUps.kept x hx
    refine ⟨y, hy, hkey.trans hno, ?_⟩
    rcases hxy.status with hsame | ⟨hsuccess, -⟩
    · exact hsame.trans hstatus
    · exact hsuccess
  | subscription =>
    simp only [hk] at h
    obtain ⟨x, hx, hno, hstatus⟩ := h
    obtain ⟨y, hy, hkey, hxy⟩ := hstep.orders.kept x hx
    refine ⟨y, hy, hkey.trans hno, ?_⟩
    rcases hxy.status with hsame | ⟨hsuccess, -⟩
    · exact hsame.trans hstatus
    · exact hsuccess

/-- Successful top-ups stay as they are; subscriptions do not. -/
theorem Matched.step (h : Matched cfg s c) (hk : c.kind = .topup) (htime : 0 < c.createdAt)
    (hstep : StepSpec cfg n s t) : Matched cfg t c := by
  unfold Matched at h ⊢
  simp only [hk] at h ⊢
  obtain ⟨x, hx, amount, hamount, huser, hstatus, hage, hstored⟩ := h
  obtain ⟨y, hy, -, hxy⟩ := hstep.topUps.kept x hx
  have hcreate : y.createTime = x.createTime := by
    rcases hxy.createTime with hsame | ⟨hzero, -⟩
    · exact hsame
    · omega
  have hsuccess : y.status = .success := by
    rcases hxy.status with hsame | ⟨hsuccess, -⟩
    · exact hsame.trans hstatus
    · exact hsuccess
  exact ⟨y, hy, amount, hamount, hxy.userId.trans huser, hsuccess, hcreate.symm ▸ hage,
    hxy.amount.trans hstored⟩

/-- Covered, and by something that stays. -/
def Lasting (cfg : Config) (s : Store) (c : Checkout) : Prop :=
  OwnPaid s c ∨ (c.kind = .topup ∧ Matched cfg s c)

theorem Lasting.covered (h : Lasting cfg s c) : Covered cfg s c := h.imp_right And.right

theorem Lasting.step (h : Lasting cfg s c) (htime : 0 < c.createdAt)
    (hstep : StepSpec cfg n s t) : Lasting cfg t c := by
  rcases h with hown | ⟨hk, hmatched⟩
  · exact .inl (hown.step hstep)
  · exact .inr ⟨hk, hmatched.step hk htime hstep⟩

/-- What is true of every stored checkout. -/
structure CheckoutOk (cfg : Config) (s : Store) (c : Checkout) : Prop where
  createdAt : 0 < c.createdAt
  userId : c.userId ≠ 0
  ordered : Ordered s c
  lasting : c.kind = .topup → c.status = .paid → Lasting cfg s c

def Inv (cfg : Config) (s : Store) : Prop := ∀ c ∈ s.checkouts.rows, CheckoutOk cfg s c

theorem CheckoutOk.refreshedStatus_iff (h : CheckoutOk cfg s c) :
    refreshedStatus cfg s c = .paid ↔ Covered cfg s c :=
  refreshedStatus_eq_paid_iff h.userId h.ordered

/-- One step of a checkout that is there. -/
theorem CheckoutOk.step (h : CheckoutOk cfg s c) {y : Checkout} (hy : CheckoutStep cfg s c y)
    (hstep : StepSpec cfg n s t) : CheckoutOk cfg t y := by
  obtain ⟨hrow, hstatus⟩ := hy
  have hordered : Ordered t c := h.ordered.step hstep
  have hlasting : c.kind = .topup → y.status = .paid → Lasting cfg t c := by
    intro hk hpaid
    refine Lasting.step ?_ h.createdAt hstep
    rcases hstatus with hsame | hrefreshed
    · exact h.lasting hk (hsame.symm.trans hpaid)
    · rcases h.refreshedStatus_iff.mp (hrefreshed.symm.trans hpaid) with hown | hmatched
      · exact .inl hown
      · exact .inr ⟨hk, hmatched⟩
  generalize y.status = status at hrow hlasting
  subst hrow
  exact ⟨h.createdAt, h.userId, hordered, hlasting⟩

theorem Inv.step (h : Inv cfg s) (hstep : StepSpec cfg n s t) : Inv cfg t := by
  intro y hy
  rcases hstep.checkouts.source y hy with ⟨x, hx, -, hxy⟩ | hnew
  · exact (h x hx).step hxy hstep
  · refine ⟨?_, hnew.userId, hnew.ordered, fun _ hpaid => ?_⟩
    · rw [hnew.createdAt]
      exact s.now_pos
    · rw [hnew.status] at hpaid
      cases hpaid

theorem Inv.run (h : Inv cfg s) (as : List Call) : Inv cfg (run cfg s as) := by
  induction as generalizing s with
  | nil => exact h
  | cons a as ih => exact ih (h.step (step_spec a))

/-- A checkout that is paid for good stays paid through a run. -/
theorem stays_paid (as : List Call) (hinv : Inv cfg s) (hc : c ∈ s.checkouts.rows)
    (hpaid : c.status = .paid) (hlasting : Lasting cfg s c) :
    ∃ c' ∈ (run cfg s as).checkouts.rows, c'.id = c.id ∧ c'.status = .paid := by
  induction as generalizing s c with
  | nil => exact ⟨c, hc, rfl, hpaid⟩
  | cons a as ih =>
    have hstep : StepSpec cfg a.pays s (step cfg s a) := step_spec a
    have hok := hinv c hc
    obtain ⟨y, hy, hid, hrow, hstatus⟩ := hstep.checkouts.kept c hc
    have hpaid' : y.status = .paid := by
      rcases hstatus with hsame | hrefreshed
      · exact hsame.trans hpaid
      · exact hrefreshed.trans (hok.refreshedStatus_iff.mpr hlasting.covered)
    have hlasting' : Lasting cfg (step cfg s a) y := by
      rw [hrow]
      exact hlasting.step hok.createdAt hstep
    obtain ⟨c', hc', hid', hfinal⟩ := ih (hinv.step hstep) hy hpaid' hlasting'
    exact ⟨c', hc', hid'.trans hid, hfinal⟩

/-! ## Which payment -/

/-- Only the payment of a trade number covers a checkout: its own, or one that matches it. -/
theorem paidFor_of_covered (hstep : StepSpec cfg n s t) (hnot : ¬ Covered cfg s c)
    (h : Covered cfg t c) : ∃ tradeNo, n = some tradeNo ∧ PaidFor cfg t tradeNo c := by
  rcases h with hown | hmatched
  · have hs : ¬ OwnPaid s c := fun hs => hnot (.inl hs)
    refine ⟨c.tradeNo, ?_, .inl rfl⟩
    unfold OwnPaid at hown hs
    cases hk : c.kind with
    | topup =>
      simp only [hk] at hown hs
      obtain ⟨y, hy, hno, hsuccess⟩ := hown
      rw [← hno]
      rcases hstep.topUps.source y hy with ⟨x, hx, hkey, hxy⟩ | hpending | ⟨-, hn⟩
      · rcases hxy.status with hsame | ⟨-, hn⟩
        · exact absurd ⟨x, hx, hkey.symm.trans hno, hsame.symm.trans hsuccess⟩ hs
        · rw [hn, hkey]
      · rw [hpending] at hsuccess
        cases hsuccess
      · exact hn
    | subscription =>
      simp only [hk] at hown hs
      obtain ⟨y, hy, hno, hsuccess⟩ := hown
      rw [← hno]
      rcases hstep.orders.source y hy with ⟨x, hx, hkey, hxy⟩ | hpending | ⟨-, hn⟩
      · rcases hxy.status with hsame | ⟨-, hn⟩
        · exact absurd ⟨x, hx, hkey.symm.trans hno, hsame.symm.trans hsuccess⟩ hs
        · rw [hn, hkey]
      · rw [hpending] at hsuccess
        cases hsuccess
      · exact hn
  · have hs : ¬ Matched cfg s c := fun hs => hnot (.inr hs)
    unfold PaidFor
    unfold Matched at hmatched hs
    cases hk : c.kind with
    | topup =>
      simp only [hk] at hmatched hs ⊢
      obtain ⟨y, hy, hmatch⟩ := hmatched
      refine ⟨y.tradeNo, ?_, .inr ⟨y, hy, rfl, hmatch⟩⟩
      obtain ⟨amount, hamount, huser, hsuccess, hage, hstored⟩ := hmatch
      rcases hstep.topUps.source y hy with ⟨x, hx, hkey, hxy⟩ | hpending | ⟨-, hn⟩
      · rcases hxy.status with hsame | ⟨-, hn⟩
        · rcases hxy.createTime with htime | ⟨-, hn⟩
          · exact absurd ⟨x, hx, amount, hamount, hxy.userId.symm.trans huser,
              hsame.symm.trans hsuccess, htime ▸ hage, hxy.amount.symm.trans hstored⟩ hs
          · rw [hn, hkey]
        · rw [hn, hkey]
      · rw [hpending] at hsuccess
        cases hsuccess
      · exact hn
    | subscription =>
      simp only [hk] at hmatched hs ⊢
      obtain ⟨y, hy, hplan, huser, hactive, hage⟩ := hmatched
      rcases hstep.subs y hy with ⟨x, hx, -, hxy⟩ | ⟨o, ho, hn, hsuccess, houser, hoplan⟩
      · exact absurd ⟨x, hx, hxy.planId ▸ hplan, hxy.userId.symm.trans huser,
          hxy.active hactive, hxy.createdAt ▸ hage⟩ hs
      · exact ⟨o.tradeNo, hn, .inr ⟨o, ho, rfl, hsuccess, houser.trans huser, hoplan ▸ hplan⟩⟩

/-- What is promised of the checkouts in `s`. -/
structure PaidForOnly (cfg : Config) (s : Store) : Prop where
  /-- A covered checkout is paid by its next poll, one that is paid for itself above all. -/
  covered : ∀ c ∈ s.checkouts.rows, Covered cfg s c → refreshedStatus cfg s c = .paid
  /-- A poll makes no other checkout paid. -/
  only : ∀ c ∈ s.checkouts.rows, c.status ≠ .paid → refreshedStatus cfg s c = .paid →
    Covered cfg s c
  /-- A payment covers its own checkout and those of its user for its amount or plan. -/
  payment : ∀ a, ∀ c ∈ s.checkouts.rows, ¬ Covered cfg s c → Covered cfg (step cfg s a) c →
    ∃ tradeNo, a.pays = some tradeNo ∧ PaidFor cfg (step cfg s a) tradeNo c
  /-- What was paid for itself, or is a top-up, stays paid through every run. -/
  stays : ∀ bs, ∀ c ∈ s.checkouts.rows, c.status = .paid → (c.kind = .topup ∨ OwnPaid s c) →
    ∃ c' ∈ (run cfg s bs).checkouts.rows, c'.id = c.id ∧ c'.status = .paid

/-- **A checkout is paid by its own payment or by one that matches it**, in every state that a
run of an account reaches. -/
theorem checkout_paid_for (cfg : Config) (account : Store) (as : List Call) :
    PaidForOnly cfg (run cfg account.opened as) := by
  have hinv : Inv cfg (run cfg account.opened as) :=
    Inv.run (fun c hc => absurd hc (List.not_mem_nil)) as
  refine ⟨fun c hc hcov => ?_, fun c hc _ hpaid => ?_, fun a c hc hnot hcov => ?_,
    fun bs c hc hpaid hkind => ?_⟩
  · exact (hinv c hc).refreshedStatus_iff.mpr hcov
  · exact (hinv c hc).refreshedStatus_iff.mp hpaid
  · exact paidFor_of_covered (step_spec a) hnot hcov
  · refine stays_paid bs hinv hc hpaid ?_
    rcases hkind with hk | hown
    · exact (hinv c hc).lasting hk hpaid
    · exact .inl hown

/-! ## One payment, two checkouts -/

def paidCheckouts (s : Store) : ℕ := s.checkouts.rows.countP fun c => decide (c.status = .paid)

def completedPayments (s : Store) : ℕ :=
  (s.topUps.rows.countP fun t => decide (t.status = .success)) +
    s.orders.rows.countP fun o => decide (o.status = .success)

def sampleConfig : Config where
  displayTokens := false
  perUnit := fun amount => amount
  minTopup := 1
  amountOptions := [10, 100]
  payMoney := fun amount _ => amount
  checkoutTTL := 1800
  plan := fun _ => none

def sampleAccount : Store := ⟨1000, by decide, .empty, .empty, .empty, .empty⟩

/-- Two checkouts for the same amount; one of them is paid, and both are polled. -/
def twoCheckouts : List Call :=
  [.createTopup ⟨1, "default", "a", "a", 1⟩ "topup_10",
    .createTopup ⟨1, "default", "b", "b", 2⟩ "topup_10",
    .completeTopUp "gc_topup_a" ⟨true, "", 0, 0, 0⟩, .poll "gcbc_a" 1, .poll "gcbc_b" 1]

theorem one_payment_pays_two :
    ¬ ∀ as, paidCheckouts (run sampleConfig sampleAccount.opened as) ≤
      completedPayments (run sampleConfig sampleAccount.opened as) := by
  intro h
  have htwo : paidCheckouts (run sampleConfig sampleAccount.opened twoCheckouts) = 2 := by
    decide +kernel
  have hone : completedPayments (run sampleConfig sampleAccount.opened twoCheckouts) = 1 := by
    decide +kernel
  have hle := h twoCheckouts
  omega

end GasterCheckout
