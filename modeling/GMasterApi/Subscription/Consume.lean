import GMasterApi.Subscription.Model

/-!
# Consuming the quota of a subscription

`PreConsumeUserSubscription`, `PostConsumeUserSubscriptionDelta`,
`RefundSubscriptionPreConsume` and `ResetDueSubscriptions`, each statement of
which may fail (`Faults`).  A call that the reset loop keeps from returning never
commits, so for the store it is one that fails.
-/

namespace Subscription

open GoString

/-- Which steps of a call fail, and with which error. -/
abbrev Faults (Step : Type) := Step → Option String

def noFaults {Step : Type} : Faults Step := fun _ => none

def Faults.at {Step : Type} (faults : Faults Step) (step : Step) : Except String Unit :=
  match faults step with
  | some e => .error e
  | none => .ok ()

structure Store where
  subs : SubTable
  records : RecordTable

def Store.saveSub (store : Store) (sub : UserSubscription) : Store :=
  { store with subs := store.subs.save sub }

/-- What a call finds around it: the database time and the plans, cached or not. -/
structure Env where
  now : ℤ
  plans : ℕ → Option SubscriptionPlan

def errRecordNotFound : String := "record not found"

/-! ## Settlement -/

inductive DeltaStep
  | findSub
  | saveSub
  | commit
  deriving DecidableEq

/-- `newUsed`: the delta is clamped at zero. -/
def usedAfter (used delta : ℤ) : ℤ := if used + delta < 0 then 0 else used + delta

def postConsumeUserSubscriptionDelta (faults : Faults DeltaStep) (store : Store) (subId : ℕ)
    (delta : ℤ) : Except String Store :=
  if subId = 0 then .error "invalid userSubscriptionId"
  else if delta = 0 then .ok store
  else do
    faults.at .findSub
    match store.subs.find subId with
    | none => .error errRecordNotFound
    | some sub =>
      let newUsed := usedAfter sub.amountUsed delta
      if 0 < sub.amountTotal ∧ sub.amountTotal < newUsed then
        .error ("subscription used exceeds total, used=" ++ toString newUsed ++ " total=" ++
          toString sub.amountTotal)
      else do
        faults.at .saveSub
        faults.at .commit
        return store.saveSub { sub with amountUsed := newUsed }

/-! ## Refund -/

inductive RefundStep
  | findRecord
  | inner (step : DeltaStep)
  | saveRecord
  | commit
  deriving DecidableEq

/-- `record.Status = "refunded"; tx.Save(&record)` and the commit. -/
def closeRecord (faults : Faults RefundStep) (store : Store) (record : PreConsumeRecord) :
    Except String Store := do
  faults.at .saveRecord
  faults.at .commit
  return { store with records := store.records.save { record with status := .refunded } }

/-- The store afterwards and what the call returns: the delta is committed by a
transaction of its own, whatever becomes of the record. -/
def refundSubscriptionPreConsume (faults : Faults RefundStep) (store : Store) (requestId : String) :
    Store × Except String Unit :=
  if trimSpace requestId = "" then (store, .error "requestId is empty")
  else
    match faults.at .findRecord, store.records.find requestId with
    | .error e, _ => (store, .error e)
    | .ok (), none => (store, .error errRecordNotFound)
    | .ok (), some record =>
      if record.status = .refunded then (store, faults.at .commit)
      else if record.preConsumed ≤ 0 then
        match closeRecord faults store record with
        | .error e => (store, .error e)
        | .ok closed => (closed, .ok ())
      else
        match postConsumeUserSubscriptionDelta (fun step => faults (.inner step)) store
            record.userSubscriptionId (-record.preConsumed) with
        | .error e => (store, .error e)
        | .ok lowered =>
          match closeRecord faults lowered record with
          | .error e => (lowered, .error e)
          | .ok closed => (closed, .ok ())

/-! ## Pre-consumption -/

inductive PreConsumeStep
  | findRecord
  | findSub
  | findSubs
  | plan (sub : ℕ)
  | saveReset (sub : ℕ)
  | createRecord (sub : ℕ)
  | findDuplicate
  | saveSub (sub : ℕ)
  | commit
  deriving DecidableEq

structure PreConsumeResult where
  userSubscriptionId : ℕ
  preConsumed : ℤ
  amountTotal : ℤ
  amountUsedBefore : ℤ
  amountUsedAfter : ℤ
  deriving DecidableEq

/-- The result of a call, the store it leaves and the subscriptions it reset. -/
structure PreConsumed where
  result : PreConsumeResult
  store : Store
  resets : List ℕ

def errAlreadyRefunded : String := "subscription pre-consume already refunded"

/-- The save that `maybeResetUserSubscriptionWithPlanTx` makes, if it makes one. -/
def saveOutcome (faults : Faults PreConsumeStep) (store : Store) (sub : ℕ) :
    ResetOutcome → Except String Store
  | .keep => .ok store
  | .schedule row => (faults.at (.saveReset sub)).map fun _ => store.saveSub row
  | .reset row => (faults.at (.saveReset sub)).map fun _ => store.saveSub row

def getSubscriptionPlanById (env : Env) (planId : ℕ) : Except String SubscriptionPlan :=
  if planId = 0 then .error "invalid plan id"
  else match env.plans planId with
    | none => .error errRecordNotFound
    | some plan => .ok plan

/-- A candidate after the reset that may be due to it: its row, the store and the
subscriptions reset so far. -/
def resetCandidate (cfg : Config) (env : Env) (faults : Faults PreConsumeStep) (store : Store)
    (resets : List ℕ) (sub : UserSubscription) :
    Except String (UserSubscription × Store × List ℕ) := do
  faults.at (.plan sub.id)
  let plan ← getSubscriptionPlanById env sub.planId
  match maybeReset cfg sub plan env.now with
  | none => .error "reset loop does not end"
  | some outcome =>
    let store ← saveOutcome faults store sub.id outcome
    return (outcome.row sub, store, if outcome.isReset then sub.id :: resets else resets)

/-- Create the record of the request and charge the candidate. -/
def chargeCandidate (faults : Faults PreConsumeStep) (store : Store) (resets : List ℕ)
    (requestId : String) (userId : ℕ) (amount : ℤ) (sub : UserSubscription) :
    Except String PreConsumed :=
  let record : PreConsumeRecord := ⟨requestId, userId, sub.id, amount, .consumed⟩
  match faults (.createRecord sub.id), store.records.create record with
  | none, some records => do
    faults.at (.saveSub sub.id)
    let charged := { sub with amountUsed := sub.amountUsed + amount }
    return ⟨⟨sub.id, amount, sub.amountTotal, sub.amountUsed, charged.amountUsed⟩,
      ⟨store.subs.save charged, records⟩, resets⟩
  | fault, _ =>
    match faults .findDuplicate, store.records.find requestId with
    | none, some dup =>
      if dup.status = .refunded then .error errAlreadyRefunded
      else .ok ⟨⟨sub.id, dup.preConsumed, sub.amountTotal, sub.amountUsed, sub.amountUsed⟩, store,
        resets⟩
    | _, _ => .error (fault.getD "duplicated key not allowed")

/-- The loop over the candidates. -/
def consumeFrom (cfg : Config) (env : Env) (faults : Faults PreConsumeStep) (requestId : String)
    (userId : ℕ) (amount : ℤ) :
    Store → List ℕ → List UserSubscription → Except String PreConsumed
  | _, _, [] => .error ("subscription quota insufficient, need=" ++ toString amount)
  | store, resets, candidate :: rest => do
    let (sub, store, resets) ← resetCandidate cfg env faults store resets candidate
    if 0 < sub.amountTotal ∧ sub.amountTotal - sub.amountUsed < amount then
      consumeFrom cfg env faults requestId userId amount store resets rest
    else chargeCandidate faults store resets requestId userId amount sub

/-- `ORDER BY end_time asc, id asc`. -/
def endsBefore (a b : UserSubscription) : Prop :=
  a.endTime < b.endTime ∨ (a.endTime = b.endTime ∧ a.id ≤ b.id)

instance : DecidableRel endsBefore := fun _ _ => inferInstanceAs (Decidable (_ ∨ _))

def UserSubscription.isActive (sub : UserSubscription) (userId : ℕ) (now : ℤ) : Bool :=
  sub.userId = userId ∧ sub.status = .active ∧ now < sub.endTime

def preConsumeUserSubscription (cfg : Config) (env : Env) (faults : Faults PreConsumeStep)
    (store : Store) (requestId : String) (userId : ℕ) (amount : ℤ) : Except String PreConsumed :=
  if userId = 0 then .error "invalid userId"
  else if trimSpace requestId = "" then .error "requestId is empty"
  else if amount ≤ 0 then .error "amount must be > 0"
  else do
    faults.at .findRecord
    match store.records.find requestId with
    | some existing =>
      if existing.status = .refunded then .error errAlreadyRefunded
      else do
        faults.at .findSub
        match store.subs.find existing.userSubscriptionId with
        | none => .error errRecordNotFound
        | some sub =>
          faults.at .commit
          return ⟨⟨sub.id, existing.preConsumed, sub.amountTotal, sub.amountUsed, sub.amountUsed⟩,
            store, []⟩
    | none =>
      let subs := store.subs.select (·.isActive userId env.now) endsBefore
      if faults .findSubs ≠ none ∨ subs = [] then .error "no active subscription"
      else do
        let out ← consumeFrom cfg env faults requestId userId amount store [] subs
        faults.at .commit
        return out

/-! ## Due resets -/

inductive ResetDueStep
  | select
  | plan (sub : ℕ)
  | find (sub : ℕ)
  | save (sub : ℕ)
  | commit (sub : ℕ)
  deriving DecidableEq

/-- What `ResetDueSubscriptions` returns, the store it leaves and what it reset. -/
structure ResetRun where
  store : Store
  resets : List ℕ
  resetCount : ℕ
  error : Option String

def UserSubscription.resetDue (sub : UserSubscription) (now : ℤ) : Bool :=
  0 < sub.nextResetTime ∧ sub.nextResetTime ≤ now

/-- The transaction for one due subscription; it skips a row that is no longer due. -/
def resetOne (cfg : Config) (env : Env) (faults : Faults ResetDueStep) (store : Store) (sub : ℕ)
    (plan : SubscriptionPlan) : Except String (Store × Bool × ℕ) :=
  match faults (.find sub), store.subs.find sub with
  | none, some locked =>
    if locked.resetDue env.now then
      match maybeReset cfg locked plan env.now with
      | none => .error "reset loop does not end"
      | some .keep => (faults.at (.commit sub)).map fun _ => (store, false, 1)
      | some outcome => do
        faults.at (.save sub)
        faults.at (.commit sub)
        return (store.saveSub (outcome.row locked), outcome.isReset, 1)
    else (faults.at (.commit sub)).map fun _ => (store, false, 0)
  | _, _ => (faults.at (.commit sub)).map fun _ => (store, false, 0)

def resetFrom (cfg : Config) (env : Env) (faults : Faults ResetDueStep) :
    ResetRun → List UserSubscription → ResetRun
  | run, [] => run
  | run, sub :: rest =>
    match faults (.plan sub.id), getSubscriptionPlanById env sub.planId with
    | none, .ok plan =>
      match resetOne cfg env faults run.store sub.id plan with
      | .error e => { run with error := some e }
      | .ok (store, isReset, n) =>
        resetFrom cfg env faults
          { run with
            store := store
            resets := if isReset then sub.id :: run.resets else run.resets
            resetCount := run.resetCount + n } rest
    | _, _ => resetFrom cfg env faults run rest

/-- `ORDER BY next_reset_time asc`. -/
def resetsBefore (a b : UserSubscription) : Prop := a.nextResetTime ≤ b.nextResetTime

instance : DecidableRel resetsBefore := fun _ _ => inferInstanceAs (Decidable (_ ≤ _))

def resetDueSubscriptions (cfg : Config) (env : Env) (faults : Faults ResetDueStep) (store : Store)
    (limit : ℤ) : ResetRun :=
  let limit := if limit ≤ 0 then 200 else limit
  match faults .select with
  | some e => ⟨store, [], 0, some e⟩
  | none =>
    let due := store.subs.select (fun s => s.resetDue env.now && s.status = .active) resetsBefore
    resetFrom cfg env faults ⟨store, [], 0, none⟩ (due.take limit.toNat)

/-! ## What the calls do -/

@[simp] theorem Faults.at_noFaults {Step : Type} (step : Step) :
    (noFaults : Faults Step).at step = .ok () := rfl

theorem bind_eq_ok {α β : Type} {x : Except String α} {f : α → Except String β} {b : β} :
    (x >>= f) = .ok b ↔ ∃ a, x = .ok a ∧ f a = .ok b := by
  cases x with
  | error e => simp [bind, Except.bind]
  | ok a => simp [bind, Except.bind]

/-- The delta keeps the subscription within its total. -/
def UserSubscription.fits (sub : UserSubscription) (delta : ℤ) : Prop :=
  0 < sub.amountTotal → usedAfter sub.amountUsed delta ≤ sub.amountTotal

/-- A delta that commits finds its subscription, fits it and moves only it. -/
theorem postConsume_eq_ok {faults : Faults DeltaStep} {store store' : Store} {subId : ℕ} {delta : ℤ}
    (h : postConsumeUserSubscriptionDelta faults store subId delta = .ok store') :
    (delta = 0 ∧ store' = store) ∨ ∃ sub, store.subs.find subId = some sub ∧ sub.fits delta ∧
      store' = store.saveSub { sub with amountUsed := usedAfter sub.amountUsed delta } := by
  unfold postConsumeUserSubscriptionDelta at h
  split at h
  · cases h
  split at h
  · rename_i hz
    exact .inl ⟨hz, (Except.ok.inj h).symm⟩
  obtain ⟨_, -, h⟩ := bind_eq_ok.mp h
  split at h
  · cases h
  rename_i sub hsub
  dsimp only at h
  split at h
  · cases h
  rename_i hfit
  obtain ⟨_, -, h⟩ := bind_eq_ok.mp h
  obtain ⟨_, -, h⟩ := bind_eq_ok.mp h
  refine .inr ⟨sub, hsub, fun ht => ?_, (Except.ok.inj h).symm⟩
  have : ¬ sub.amountTotal < usedAfter sub.amountUsed delta := fun hlt => hfit ⟨ht, hlt⟩
  omega

/-- A delta that fits its subscription commits exactly when no step fails. -/
theorem postConsume_of_fits {faults : Faults DeltaStep} {store : Store} {subId : ℕ} {delta : ℤ}
    {sub : UserSubscription} (hid : subId ≠ 0) (hdelta : delta ≠ 0)
    (hsub : store.subs.find subId = some sub) (hfit : sub.fits delta) :
    postConsumeUserSubscriptionDelta faults store subId delta = do
      faults.at .findSub
      faults.at .saveSub
      faults.at .commit
      return store.saveSub { sub with amountUsed := usedAfter sub.amountUsed delta } := by
  have hle : ¬ (0 < sub.amountTotal ∧ sub.amountTotal < usedAfter sub.amountUsed delta) := by
    rintro ⟨ht, hlt⟩
    have := hfit ht
    omega
  unfold postConsumeUserSubscriptionDelta
  rw [if_neg hid, if_neg hdelta]
  simp only [hsub]
  rw [if_neg hle]

end Subscription
