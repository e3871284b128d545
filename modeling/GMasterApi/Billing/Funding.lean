import GMasterApi.Subscription.Effects
import GMasterApi.Subscription.Refund

/-!
# Funding sources

The two implementations of `FundingSource` and the relative updates of the quota
of a user and of a token that they and the billing session rest on.

`Moves` is the meaning of a billing step: so much out of one account, so much out
of one token, and nothing else.
-/

namespace Billing

open Subscription

structure Token where
  remainQuota : ℤ
  usedQuota : ℤ
  deriving DecidableEq

/-- The rows billing moves; a change queued by the batch updater counts as made. -/
structure World where
  quota : ℕ → ℤ
  token : ℕ → Token
  store : Store

def World.addQuota (w : World) (userId : ℕ) (n : ℤ) : World :=
  { w with quota := Function.update w.quota userId (w.quota userId + n) }

def World.addToken (w : World) (tokenId : ℕ) (n : ℤ) : World :=
  let t := w.token tokenId
  { w with token := Function.update w.token tokenId ⟨t.remainQuota + n, t.usedQuota - n⟩ }

/-- An `UPDATE` that may fail, after the check of its amount. -/
def updateQuota (fault : Option String) (quota : ℤ) (after : World) : Except String World :=
  if quota < 0 then .error "quota 不能为负数！"
  else match fault with
    | some e => .error e
    | none => .ok after

def increaseUserQuota (fault : Option String) (w : World) (userId : ℕ) (quota : ℤ) :
    Except String World := updateQuota fault quota (w.addQuota userId quota)

def decreaseUserQuota (fault : Option String) (w : World) (userId : ℕ) (quota : ℤ) :
    Except String World := updateQuota fault quota (w.addQuota userId (-quota))

def increaseTokenQuota (fault : Option String) (w : World) (tokenId : ℕ) (quota : ℤ) :
    Except String World := updateQuota fault quota (w.addToken tokenId quota)

def decreaseTokenQuota (fault : Option String) (w : World) (tokenId : ℕ) (quota : ℤ) :
    Except String World := updateQuota fault quota (w.addToken tokenId (-quota))

def World.postConsume (faults : Faults DeltaStep) (w : World) (subId : ℕ) (delta : ℤ) :
    Except String World :=
  (postConsumeUserSubscriptionDelta faults w.store subId delta).map fun store =>
    { w with store := store }

/-! ## The two sources -/

structure WalletFunding where
  userId : ℕ
  consumed : ℤ
  deriving DecidableEq

structure SubscriptionFunding where
  requestId : String
  userId : ℕ
  amount : ℤ
  subscriptionId : ℕ
  preConsumed : ℤ
  amountTotal : ℤ
  amountUsedAfter : ℤ
  planId : ℕ
  planTitle : String
  deriving DecidableEq

inductive FundingSource
  | wallet (funding : WalletFunding)
  | subscription (funding : SubscriptionFunding)
  deriving DecidableEq

/-- `info.BillingSource`, empty before the first sync. -/
inductive BillingSource
  | unset
  | wallet
  | subscription
  deriving DecidableEq

def FundingSource.source : FundingSource → BillingSource
  | .wallet _ => .wallet
  | .subscription _ => .subscription

/-- Which operation on the funding source fails: the update of a user's quota, or a
step of the delta of a subscription. -/
structure FundingFaults where
  quota : Option String
  delta : Faults DeltaStep

def FundingFaults.none : FundingFaults := ⟨.none, noFaults⟩

/-- `GetSubscriptionPlanInfoByUserSubscriptionId`, which may find nothing. -/
structure PlanInfo where
  planId : ℕ
  planTitle : String
  deriving DecidableEq

/-- What a pre-consumption finds around it, and where it fails. -/
structure FundingEnv where
  cfg : Config
  env : Env
  planInfo : ℕ → Option PlanInfo
  quotaFault : Option String
  preConsumeFaults : Faults PreConsumeStep

/-- What a pre-consumption leaves; `resets` are the subscriptions that it reset. -/
structure Funded where
  world : World
  funding : FundingSource
  resets : List ℕ

def WalletFunding.preConsume (env : FundingEnv) (w : World) (funding : WalletFunding)
    (amount : ℤ) : Except String Funded :=
  if amount ≤ 0 then .ok ⟨w, .wallet funding, []⟩
  else (decreaseUserQuota env.quotaFault w funding.userId amount).map fun w' =>
    ⟨w', .wallet { funding with consumed := amount }, []⟩

def SubscriptionFunding.preConsume (env : FundingEnv) (w : World) (funding : SubscriptionFunding) :
    Except String Funded :=
  match preConsumeUserSubscription env.cfg env.env env.preConsumeFaults w.store funding.requestId
      funding.userId funding.amount with
  | .error e => .error e
  | .ok out =>
    let res := out.result
    let info := (env.planInfo res.userSubscriptionId).getD ⟨funding.planId, funding.planTitle⟩
    .ok ⟨{ w with store := out.store },
      .subscription { funding with
        subscriptionId := res.userSubscriptionId
        preConsumed := res.preConsumed
        amountTotal := res.amountTotal
        amountUsedAfter := res.amountUsedAfter
        planId := info.planId
        planTitle := info.planTitle },
      out.resets⟩

def FundingSource.preConsume (env : FundingEnv) (w : World) (amount : ℤ) :
    FundingSource → Except String Funded
  | .wallet funding => funding.preConsume env w amount
  | .subscription funding => funding.preConsume env w

def FundingSource.settle (faults : FundingFaults) (w : World) (delta : ℤ) :
    FundingSource → Except String World
  | .wallet funding =>
    if delta = 0 then .ok w
    else if 0 < delta then decreaseUserQuota faults.quota w funding.userId delta
    else increaseUserQuota faults.quota w funding.userId (-delta)
  | .subscription funding =>
    if delta = 0 then .ok w else w.postConsume faults.delta funding.subscriptionId delta

/-- Where a refund fails: the update of the quota, a step of an attempt at the
record, the delta of what was reserved later, the update of the token. -/
structure RefundFaults where
  quota : Option String
  attempt : ℕ → Faults RefundStep
  extra : Faults DeltaStep
  token : Option String

def RefundFaults.none : RefundFaults := ⟨.none, fun _ => noFaults, noFaults, .none⟩

def FundingSource.refund (faults : RefundFaults) (w : World) :
    FundingSource → World × Except String Unit
  | .wallet funding =>
    if funding.consumed ≤ 0 then (w, .ok ())
    else match increaseUserQuota faults.quota w funding.userId funding.consumed with
      | .error e => (w, .error e)
      | .ok w' => (w', .ok ())
  | .subscription funding =>
    if funding.preConsumed ≤ 0 then (w, .ok ())
    else
      let out := refundWithRetry funding.requestId 3 w.store faults.attempt
      ({ w with store := out.1 }, out.2)

/-! ## What a step moves -/

inductive Account
  | user (id : ℕ)
  | subscription (id : ℕ)
  deriving DecidableEq

/-- The part of `n` that the quota of a user pays. -/
def Account.fromUser (account : Account) (n : ℤ) (id : ℕ) : ℤ :=
  if account = .user id then n else 0

/-- The part of `n` that a subscription pays. -/
def Account.fromSub (account : Account) (n : ℤ) (id : ℕ) : ℤ :=
  if account = .subscription id then n else 0

def Token.take (t : Token) (n : ℤ) : Token := ⟨t.remainQuota - n, t.usedQuota + n⟩

/-- After the resets `resets`, `n` was taken from the account and `m` from the token,
and nothing else changed. -/
structure Moves (account : Account) (tokenId : ℕ) (resets : List ℕ) (n m : ℤ)
    (before after : World) : Prop where
  quota : ∀ id, after.quota id = before.quota id - account.fromUser n id
  token : ∀ id, after.token id = (before.token id).take (if id = tokenId then m else 0)
  usage : ∀ id, after.store.usage id = (before.store.usage id).map fun u =>
    (u.resetIf (resets.contains id)).add (account.fromSub n id)

variable {account : Account} {tokenId : ℕ} {resets : List ℕ} {n m n' m' : ℤ} {w w' w'' : World}

@[simp] theorem Account.fromUser_zero (account : Account) (id : ℕ) : account.fromUser 0 id = 0 := by
  unfold Account.fromUser
  split <;> rfl

@[simp] theorem Account.fromSub_zero (account : Account) (id : ℕ) : account.fromSub 0 id = 0 := by
  unfold Account.fromSub
  split <;> rfl

theorem Account.fromUser_add (account : Account) (n m : ℤ) (id : ℕ) :
    account.fromUser (n + m) id = account.fromUser n id + account.fromUser m id := by
  unfold Account.fromUser
  split <;> simp

theorem Account.fromSub_add (account : Account) (n m : ℤ) (id : ℕ) :
    account.fromSub (n + m) id = account.fromSub n id + account.fromSub m id := by
  unfold Account.fromSub
  split <;> simp

@[simp] theorem Token.take_zero (t : Token) : t.take 0 = t := by
  simp [Token.take]

@[simp] theorem Token.take_take (t : Token) (n m : ℤ) : (t.take n).take m = t.take (n + m) := by
  unfold Token.take
  congr 1
  · show t.remainQuota - n - m = t.remainQuota - (n + m)
    omega
  · show t.usedQuota + n + m = t.usedQuota + (n + m)
    omega

@[simp] theorem add_zero_usage (u : Usage) : u.add 0 = u := by
  simp [Usage.add]

@[simp] theorem add_add_usage (u : Usage) (n m : ℤ) : (u.add n).add m = u.add (n + m) := by
  unfold Usage.add
  simp only [Usage.mk.injEq, true_and]
  omega

theorem Moves.refl (account : Account) (tokenId : ℕ) (w : World) :
    Moves account tokenId [] 0 0 w w where
  quota id := by simp
  token id := by simp
  usage id := by cases w.store.usage id <;> simp

theorem Moves.trans (h : Moves account tokenId resets n m w w')
    (h' : Moves account tokenId [] n' m' w' w'') :
    Moves account tokenId resets (n + n') (m + m') w w'' where
  quota id := by
    rw [h'.quota, h.quota, Account.fromUser_add]
    omega
  token id := by
    rw [h'.token, h.token, Token.take_take]
    by_cases hid : id = tokenId
    · simp only [if_pos hid]
    · simp only [if_neg hid, add_zero]
  usage id := by
    rw [h'.usage, h.usage, Account.fromSub_add]
    cases w.store.usage id <;> simp

/-- A step on the token before one that may reset subscriptions. -/
theorem Moves.token_trans (h : Moves account tokenId [] 0 m w w')
    (h' : Moves account tokenId resets n' m' w' w'') :
    Moves account tokenId resets n' (m + m') w w'' where
  quota id := by
    rw [h'.quota, h.quota, Account.fromUser_zero]
    omega
  token id := by
    rw [h'.token, h.token, Token.take_take]
    by_cases hid : id = tokenId
    · simp only [if_pos hid]
    · simp only [if_neg hid, add_zero]
  usage id := by
    rw [h'.usage, h.usage, Account.fromSub_zero]
    cases w.store.usage id <;> simp

theorem moves_addQuota (userId tokenId : ℕ) (n : ℤ) (w : World) :
    Moves (.user userId) tokenId [] n 0 w (w.addQuota userId (-n)) where
  quota id := by
    by_cases hid : id = userId
    · subst hid
      simp [World.addQuota, Account.fromUser, sub_eq_add_neg]
    · have hne : ¬ userId = id := fun e => hid e.symm
      simp [World.addQuota, Account.fromUser, hid, hne]
  token id := by simp [World.addQuota]
  usage id := by
    show w.store.usage id = _
    cases w.store.usage id <;> simp [Account.fromSub]

theorem moves_addToken (account : Account) (tokenId : ℕ) (m : ℤ) (w : World) :
    Moves account tokenId [] 0 m w (w.addToken tokenId (-m)) where
  quota id := by simp [World.addToken]
  token id := by
    by_cases hid : id = tokenId
    · subst hid
      simp [World.addToken, Token.take, sub_eq_add_neg]
    · simp [World.addToken, hid]
  usage id := by
    show w.store.usage id = _
    cases w.store.usage id <;> simp

/-- A delta moves the usage of its subscription, which it clamps at zero. -/
theorem postConsume_moves {faults : Faults DeltaStep} {subId : ℕ} {delta : ℤ} (tokenId : ℕ)
    (h : w.postConsume faults subId delta = .ok w') :
    w'.store.records = w.store.records ∧
      (delta = 0 ∧ w' = w ∨ ∃ u, w.store.usage subId = some u ∧
        (0 < u.total → usedAfter u.used delta ≤ u.total) ∧
        Moves (.subscription subId) tokenId [] (usedAfter u.used delta - u.used) 0 w w') := by
  unfold World.postConsume at h
  cases hpost : postConsumeUserSubscriptionDelta faults w.store subId delta with
  | error e => rw [hpost] at h; cases h
  | ok store =>
    rw [hpost] at h
    have hw : w' = { w with store := store } := (Except.ok.inj h).symm
    subst hw
    obtain ⟨hrec, ⟨hz, rfl⟩ | ⟨u, hu, hfit, husage⟩⟩ := usage_postConsume hpost
    · exact ⟨rfl, .inl ⟨hz, rfl⟩⟩
    refine ⟨hrec, .inr ⟨u, hu, hfit, fun id => by simp [Account.fromUser], fun id => by simp,
      fun id => ?_⟩⟩
    show store.usage id = _
    rw [husage id]
    by_cases hid : id = subId
    · subst hid
      simp [hu, Account.fromSub, Usage.add]
    · have hne : ¬ subId = id := fun e => hid e.symm
      rw [if_neg hid]
      cases w.store.usage id <;> simp [Account.fromSub, hne]

/-- A delta that does not reach the clamp at zero. -/
theorem moves_postConsume {faults : Faults DeltaStep} {subId : ℕ} {delta : ℤ} (tokenId : ℕ)
    (hused : ∀ u, w.store.usage subId = some u → 0 ≤ u.used + delta)
    (h : w.postConsume faults subId delta = .ok w') :
    Moves (.subscription subId) tokenId [] delta 0 w w' ∧ w'.store.records = w.store.records ∧
      (delta ≠ 0 → ∀ u, w.store.usage subId = some u → 0 < u.total → u.used + delta ≤ u.total) := by
  obtain ⟨hrec, ⟨rfl, rfl⟩ | ⟨u, hu, hfit, hmoves⟩⟩ := postConsume_moves tokenId h
  · exact ⟨.refl _ _ _, rfl, fun hne => absurd rfl hne⟩
  have hafter : usedAfter u.used delta = u.used + delta := if_neg (not_lt.mpr (hused u hu))
  rw [hafter] at hfit hmoves
  rw [add_sub_cancel_left] at hmoves
  refine ⟨hmoves, hrec, fun _ u' hu' => ?_⟩
  rw [hu] at hu'
  obtain rfl := Option.some.inj hu'
  exact hfit

theorem updateQuota_eq_ok {fault : Option String} {quota : ℤ} {after : World}
    (h : updateQuota fault quota after = .ok w') : 0 ≤ quota ∧ w' = after := by
  unfold updateQuota at h
  split at h
  · cases h
  rename_i hq
  split at h
  · cases h
  · exact ⟨by omega, (Except.ok.inj h).symm⟩

@[simp] theorem updateQuota_none {quota : ℤ} (after : World) (h : 0 ≤ quota) :
    updateQuota none quota after = .ok after := by
  unfold updateQuota
  rw [if_neg (not_lt.mpr h)]

end Billing
