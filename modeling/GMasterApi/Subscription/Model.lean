import GMasterApi.Lib.GoString
import GMasterApi.Lib.GoTime
import GMasterApi.Lib.Table

/-!
# Subscription plans and the subscriptions bought from them

The rows, when a plan ends, and when its quota is reset.
-/

namespace Subscription

open GoTime GoString

inductive DurationUnit
  | year
  | month
  | day
  | hour
  | custom
  | other (text : String)
  deriving DecidableEq

inductive ResetPeriod
  | never
  | daily
  | weekly
  | monthly
  | custom
  deriving DecidableEq

inductive SubStatus
  | active
  | expired
  | cancelled
  deriving DecidableEq

inductive RecordStatus
  | consumed
  | refunded
  deriving DecidableEq

structure SubscriptionPlan where
  id : ℕ
  durationUnit : DurationUnit
  durationValue : ℤ
  customSeconds : ℤ
  maxPurchasePerUser : ℤ
  upgradeGroup : String
  totalAmount : ℤ
  quotaResetPeriod : String
  quotaResetCustomSeconds : ℤ
  deriving DecidableEq

/-- A row of `user_subscriptions`; `amountTotal = 0` is unlimited. -/
structure UserSubscription where
  id : ℕ
  userId : ℕ
  planId : ℕ
  amountTotal : ℤ
  amountUsed : ℤ
  startTime : ℤ
  endTime : ℤ
  status : SubStatus
  source : String
  lastResetTime : ℤ
  nextResetTime : ℤ
  upgradeGroup : String
  prevUserGroup : String
  deriving DecidableEq

/-- A row of `subscription_pre_consume_records`, unique by request. -/
structure PreConsumeRecord where
  requestId : String
  userId : ℕ
  userSubscriptionId : ℕ
  preConsumed : ℤ
  status : RecordStatus
  deriving DecidableEq

abbrev SubTable := Table UserSubscription UserSubscription.id
abbrev RecordTable := Table PreConsumeRecord PreConsumeRecord.requestId

/-- The server's time zone, and how many turns of the reset loop are looked at. -/
structure Config where
  zone : Zone
  loopFuel : ℕ

/-! ## End of a plan and next reset -/

def calcPlanEndTime (zone : Zone) (start : ℤ) (plan : SubscriptionPlan) : Except String ℤ :=
  if plan.durationValue ≤ 0 ∧ plan.durationUnit ≠ .custom then .error "duration_value must be > 0"
  else match plan.durationUnit with
    | .year => .ok (addDate zone start plan.durationValue 0 0)
    | .month => .ok (addDate zone start 0 plan.durationValue 0)
    | .day => .ok (add start (duration (plan.durationValue * 24) hour))
    | .hour => .ok (add start (duration plan.durationValue hour))
    | .custom =>
      if plan.customSeconds ≤ 0 then .error "custom_seconds must be > 0"
      else .ok (add start (duration plan.customSeconds second))
    | .other text => .error ("invalid duration_unit: " ++ text)

def normalizeResetPeriod (period : String) : ResetPeriod :=
  match trimSpace period with
  | "daily" => .daily
  | "weekly" => .weekly
  | "monthly" => .monthly
  | "custom" => .custom
  | _ => .never

/-- Midnight of the day `days` after the day of `t`. -/
def midnightAfter (zone : Zone) (t days : ℤ) : ℤ :=
  let c := civil zone t
  addDate zone (date zone c.year c.month c.day 0) 0 0 days

/-- Midnight of the first day of the month after that of `t`. -/
def nextMonth (zone : Zone) (t : ℤ) : ℤ :=
  let c := civil zone t
  addDate zone (date zone c.year c.month 1 0) 0 1 0

/-- The reset after `base`, 0 where there is none before the end of the subscription. -/
def calcNextResetTime (zone : Zone) (base : ℤ) (plan : SubscriptionPlan) (endUnix : ℤ) : ℤ :=
  let clip (next : ℤ) := if 0 < endUnix ∧ endUnix < next then 0 else next
  match normalizeResetPeriod plan.quotaResetPeriod with
  | .never => 0
  | .daily => clip (midnightAfter zone base 1)
  | .weekly =>
    let weekday := if weekday zone base = 0 then 7 else weekday zone base
    clip (midnightAfter zone base (8 - weekday))
  | .monthly => clip (nextMonth zone base)
  | .custom =>
    if plan.quotaResetCustomSeconds ≤ 0 then 0
    else clip (add base (duration plan.quotaResetCustomSeconds second))

/-! ## Reset -/

/-- `for next > 0 && next <= now { base = next; next = after(base) }`, with the base
and next reset it ends with. -/
def resetLoop (nextAfter : ℤ → ℤ) (now : ℤ) : ℕ → ℤ → ℤ → Option (ℤ × ℤ)
  | fuel, base, next =>
    if 0 < next ∧ next ≤ now then
      match fuel with
      | 0 => none
      | fuel + 1 => resetLoop nextAfter now fuel next (nextAfter next)
    else some (base, next)

/-- What `maybeResetUserSubscriptionWithPlanTx` does to its row: nothing, save the
time of the next reset, or reset it. -/
inductive ResetOutcome
  | keep
  | schedule (row : UserSubscription)
  | reset (row : UserSubscription)
  deriving DecidableEq

/-- The moment the current period counts from. -/
def UserSubscription.resetBase (sub : UserSubscription) : ℤ :=
  if sub.lastResetTime ≤ 0 then sub.startTime else sub.lastResetTime

/-- `none` where the loop has not ended. -/
def maybeReset (cfg : Config) (sub : UserSubscription) (plan : SubscriptionPlan) (now : ℤ) :
    Option ResetOutcome :=
  if 0 < sub.nextResetTime ∧ now < sub.nextResetTime then some .keep
  else if normalizeResetPeriod plan.quotaResetPeriod = .never then some .keep
  else
    let base := sub.resetBase
    let nextAfter (t : ℤ) := calcNextResetTime cfg.zone t plan sub.endTime
    let next := nextAfter base
    if 0 < next ∧ next ≤ now then
      (resetLoop nextAfter now cfg.loopFuel base next).map fun (base, next) =>
        .reset { sub with amountUsed := 0, lastResetTime := base, nextResetTime := next }
    else if sub.nextResetTime = 0 ∧ 0 < next then
      some (.schedule { sub with nextResetTime := next, lastResetTime := base })
    else some .keep

/-- The row in memory afterwards. -/
def ResetOutcome.row (sub : UserSubscription) : ResetOutcome → UserSubscription
  | .keep => sub
  | .schedule row => row
  | .reset row => row

def ResetOutcome.isReset : ResetOutcome → Bool
  | .reset _ => true
  | _ => false

/-- The row afterwards is the row before, its quota zeroed by a reset, with other
reset times. -/
theorem maybeReset_row {cfg : Config} {sub : UserSubscription} {plan : SubscriptionPlan} {now : ℤ}
    {r : ResetOutcome} (h : maybeReset cfg sub plan now = some r) :
    ∃ last next, r.row sub = { sub with
      amountUsed := if r.isReset then 0 else sub.amountUsed
      lastResetTime := last
      nextResetTime := next } := by
  unfold maybeReset at h
  split at h
  · cases h; exact ⟨_, _, rfl⟩
  split at h
  · cases h; exact ⟨_, _, rfl⟩
  dsimp only at h
  split at h
  · obtain ⟨⟨base, next⟩, -, rfl⟩ := Option.map_eq_some_iff.mp h
    exact ⟨base, next, rfl⟩
  split at h
  · cases h; exact ⟨_, _, rfl⟩
  · cases h; exact ⟨_, _, rfl⟩

end Subscription
