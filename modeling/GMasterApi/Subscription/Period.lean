import GMasterApi.Lib.Transition
import GMasterApi.Subscription.Effects

/-!
# Quota within a period

Nothing ties a request to the period that granted it: a refund or settlement of an
earlier period's request moves the counter of the current one.  So the quota that
a period grants, net of what its own requests gave back, is bounded by the total
plus what requests of earlier periods gave back in it (`quota_within_period`).
-/

namespace Subscription

open Transition

/-- What happened to one subscription since its last reset: the requests granted,
the movements of each, and what earlier requests gave back. -/
structure Period where
  requests : List String
  entries : List (String × ℤ)
  givenBack : ℤ
  deriving DecidableEq

def Period.start : Period := ⟨[], [], 0⟩

/-- The quota granted to the requests of the period, net of their refunds and
settlements. -/
def Period.net (p : Period) : ℤ := (p.entries.map Prod.snd).sum

def Period.grant (p : Period) (requestId : String) (n : ℤ) : Period :=
  { p with requests := requestId :: p.requests, entries := p.entries ++ [(requestId, n)] }

/-- A refund or settlement of a request. -/
def Period.move (p : Period) (requestId : String) (delta : ℤ) : Period :=
  if requestId ∈ p.requests then { p with entries := p.entries ++ [(requestId, delta)] }
  else if delta < 0 then { p with givenBack := p.givenBack - delta }
  else p

def Period.resetIf (p : Period) (b : Bool) : Period := if b then .start else p

structure QuotaState where
  store : Store
  period : Period

/-- The calls that move the quota of a subscription.  `settle` is a delta issued by
the session that pre-consumed for `requestId`. -/
inductive QuotaCall
  | preConsume (env : Env) (faults : Faults PreConsumeStep) (requestId : String) (userId : ℕ)
      (amount : ℤ)
  | refund (requestId : String)
  | settle (faults : Faults DeltaStep) (requestId : String) (delta : ℤ)
  | resetDue (env : Env) (faults : Faults ResetDueStep) (limit : ℤ)

/-- One call, as the period of the subscription `sid` sees it. -/
def quotaStep (cfg : Config) (sid : ℕ) (s : QuotaState) : QuotaCall → Option QuotaState
  | .preConsume env faults requestId userId amount =>
    match preConsumeUserSubscription cfg env faults s.store requestId userId amount with
    | .error _ => some s
    | .ok out =>
      let period := s.period.resetIf (out.resets.contains sid)
      if s.store.records.find requestId = none ∧ out.result.userSubscriptionId = sid then
        some ⟨out.store, period.grant requestId amount⟩
      else some ⟨out.store, period⟩
  | .refund requestId =>
    let out := refundSubscriptionPreConsume noFaults s.store requestId
    if out.2.isOk then
      match refundable s.store requestId with
      | some (subId, n) =>
        if subId = sid then some ⟨out.1, s.period.move requestId (-n)⟩ else some ⟨out.1, s.period⟩
      | none => some ⟨out.1, s.period⟩
    else some s
  | .settle faults requestId delta =>
    match s.store.records.find requestId with
    | none => none
    | some record =>
      match postConsumeUserSubscriptionDelta faults s.store record.userSubscriptionId delta with
      | .error _ => some s
      | .ok store =>
        if record.userSubscriptionId = sid then some ⟨store, s.period.move requestId delta⟩
        else some ⟨store, s.period⟩
  | .resetDue env faults limit =>
    let run := resetDueSubscriptions cfg env faults s.store limit
    some ⟨run.store, s.period.resetIf (run.resets.contains sid)⟩

def quotaSystem (cfg : Config) (sid : ℕ) : System QuotaState QuotaCall := ⟨quotaStep cfg sid⟩

/-- **Within its plan.**  The subscription's `AmountUsed` is between zero and its
total, and the period has granted no more than that total and what earlier
requests gave back. -/
def WithinPlan (sid : ℕ) (s : QuotaState) : Prop :=
  ∀ u, s.store.usage sid = some u → 0 < u.total →
    0 ≤ u.used ∧ u.used ≤ u.total ∧ s.period.net ≤ u.total + s.period.givenBack

/-- The bound without the allowance for earlier requests. -/
def WithinPlanStrict (sid : ℕ) (s : QuotaState) : Prop :=
  ∀ u, s.store.usage sid = some u → 0 < u.total →
    0 ≤ u.used ∧ u.used ≤ u.total ∧ s.period.net ≤ u.total

/-! ## The invariant -/

/-- What is used covers what the period granted, but for what was given back to it. -/
structure Covered (u : Usage) (p : Period) : Prop where
  nonneg : 0 ≤ u.used
  within : 0 < u.total → u.used ≤ u.total
  covers : p.net ≤ u.used + p.givenBack

variable {cfg : Config} {sid : ℕ} {u : Usage} {p : Period} {s t : QuotaState}

theorem Covered.reset (h : Covered u p) (b : Bool) : Covered (u.resetIf b) (p.resetIf b) := by
  cases b with
  | false => exact h
  | true => exact ⟨le_refl 0, fun ht => le_of_lt ht, le_refl 0⟩

theorem Covered.grant (h : Covered u p) (requestId : String) {n : ℤ} (hn : 0 < n)
    (hfit : 0 < u.total → u.used + n ≤ u.total) : Covered (u.add n) (p.grant requestId n) where
  nonneg := by
    have := h.nonneg
    show 0 ≤ u.used + n
    omega
  within := hfit
  covers := by
    have hnet : (p.grant requestId n).net = p.net + n := by simp [Period.net, Period.grant]
    have := h.covers
    rw [hnet]
    show p.net + n ≤ u.used + n + p.givenBack
    omega

/-- A delta that is not clamped moves both sides alike; a clamped one leaves more
used than the request gave back. -/
theorem Covered.move (h : Covered u p) (requestId : String) {delta : ℤ}
    (hfit : 0 < u.total → usedAfter u.used delta ≤ u.total) :
    Covered ⟨u.total, usedAfter u.used delta⟩ (p.move requestId delta) where
  nonneg := by
    show 0 ≤ usedAfter u.used delta
    unfold usedAfter
    split <;> omega
  within := hfit
  covers := by
    have hge : u.used + delta ≤ usedAfter u.used delta := by
      unfold usedAfter
      split <;> omega
    have := h.covers
    show (p.move requestId delta).net ≤ usedAfter u.used delta + (p.move requestId delta).givenBack
    unfold Period.move
    by_cases hmem : requestId ∈ p.requests
    · have hnet : ({ p with entries := p.entries ++ [(requestId, delta)] } : Period).net =
          p.net + delta := by simp [Period.net]
      rw [if_pos hmem, hnet]
      show p.net + delta ≤ usedAfter u.used delta + p.givenBack
      omega
    · rw [if_neg hmem]
      split
      · show p.net ≤ usedAfter u.used delta + (p.givenBack - delta)
        omega
      · omega

/-- The invariant of the runs: the observed subscription is covered. -/
def PeriodInv (sid : ℕ) (s : QuotaState) : Prop :=
  ∀ u, s.store.usage sid = some u → Covered u s.period

theorem PeriodInv.withinPlan (h : PeriodInv sid s) : WithinPlan sid s := by
  intro u hu ht
  have hc := h u hu
  have := hc.covers
  have := hc.within ht
  exact ⟨hc.nonneg, hc.within ht, by omega⟩

/-- The resets of a call keep the invariant. -/
theorem PeriodInv.resets (h : PeriodInv sid s) {resets : List ℕ} {store : Store}
    (hr : ResetsTo resets s.store store) :
    PeriodInv sid ⟨store, s.period.resetIf (resets.contains sid)⟩ := by
  intro u hu
  have hu' : store.usage sid = some u := hu
  rw [hr.usage sid] at hu'
  obtain ⟨v, hv, rfl⟩ := Option.map_eq_some_iff.mp hu'
  exact (h v hv).reset _

theorem PeriodInv.charged (h : PeriodInv sid s) {requestId : String} {userId : ℕ} {amount : ℤ}
    {out : PreConsumed} (hpos : 0 < amount) (hc : Charged s.store requestId userId amount out) :
    PeriodInv sid ⟨out.store,
      if out.result.userSubscriptionId = sid then
        (s.period.resetIf (out.resets.contains sid)).grant requestId amount
      else s.period.resetIf (out.resets.contains sid)⟩ := by
  intro u hu
  have hu' : out.store.usage sid = some u := hu
  rw [hc.usage sid] at hu'
  obtain ⟨v, hv, rfl⟩ := Option.map_eq_some_iff.mp hu'
  have hv' := (h v hv).reset (out.resets.contains sid)
  by_cases hsid : out.result.userSubscriptionId = sid
  · obtain ⟨w, hw, hfit⟩ := hc.exists_usage
    rw [hsid, hv] at hw
    cases hw
    rw [hsid] at hfit
    simp only [hsid, if_true]
    refine hv'.grant requestId hpos fun ht => ?_
    rw [Usage.resetIf_total] at ht ⊢
    exact hfit ht
  · have hne : ¬ sid = out.result.userSubscriptionId := fun e => hsid e.symm
    simp only [hsid, hne, if_false]
    exact hv'

/-- A delta on a subscription, whichever it is, keeps the invariant. -/
theorem PeriodInv.delta (h : PeriodInv sid s) {store : Store} {subId : ℕ} {delta : ℤ} {w : Usage}
    (requestId : String) (hw : s.store.usage subId = some w)
    (hfit : 0 < w.total → usedAfter w.used delta ≤ w.total)
    (husage : ∀ id, store.usage id =
      if id = subId then some ⟨w.total, usedAfter w.used delta⟩ else s.store.usage id) :
    PeriodInv sid ⟨store, if subId = sid then s.period.move requestId delta else s.period⟩ := by
  intro u hu
  have hu' : store.usage sid = some u := hu
  rw [husage sid] at hu'
  by_cases hsid : subId = sid
  · rw [if_pos hsid.symm] at hu'
    cases hu'
    simp only [hsid, if_true]
    rw [hsid] at hw
    exact (h w hw).move requestId hfit
  · rw [if_neg fun e => hsid e.symm] at hu'
    simp only [hsid, if_false]
    exact h u hu'

/-- A step that moves the period of its own subscription only. -/
theorem PeriodInv.of_branch {store : Store} {own other : Period} {p : Prop} [Decidable p]
    (h : PeriodInv sid ⟨store, if p then own else other⟩)
    (ht : (if p then some (QuotaState.mk store own) else some ⟨store, other⟩) = some t) :
    PeriodInv sid t := by
  by_cases hp : p
  · rw [if_pos hp] at h ht
    cases ht
    exact h
  · rw [if_neg hp] at h ht
    cases ht
    exact h

theorem quotaStep_preConsume (h : PeriodInv sid s) {env : Env} {faults : Faults PreConsumeStep}
    {requestId : String} {userId : ℕ} {amount : ℤ}
    (ht : quotaStep cfg sid s (.preConsume env faults requestId userId amount) = some t) :
    PeriodInv sid t := by
  unfold quotaStep at ht
  dsimp only at ht
  split at ht
  · cases ht; exact h
  rename_i out hout
  obtain ⟨hpos, ⟨existing, hfind, hstore, hresets⟩ | ⟨hfresh, hc⟩⟩ := preConsume_eq_ok hout
  · rw [hfind, hstore, hresets] at ht
    simp only [reduceCtorEq, false_and, if_false, List.contains_nil] at ht
    cases ht
    exact h
  · have hinv := h.charged hpos hc
    simp only [hfresh, true_and] at ht
    exact hinv.of_branch ht

theorem quotaStep_refund (h : PeriodInv sid s) {requestId : String}
    (ht : quotaStep cfg sid s (.refund requestId) = some t) : PeriodInv sid t := by
  obtain ⟨-, hok⟩ := usage_refund s.store requestId
  unfold quotaStep at ht
  dsimp only at ht
  split at ht
  · rename_i hisOk
    have heff := hok hisOk
    split at ht
    · rename_i subId n hrefund
      rw [hrefund] at heff
      obtain ⟨w, hw, hfit, husage⟩ := heff
      have hinv := h.delta requestId hw hfit husage
      exact hinv.of_branch ht
    · rename_i hrefund
      rw [hrefund] at heff
      cases ht
      intro u hu
      exact h u ((heff sid).symm.trans hu)
  · cases ht; exact h

theorem quotaStep_settle (h : PeriodInv sid s) {faults : Faults DeltaStep} {requestId : String}
    {delta : ℤ} (ht : quotaStep cfg sid s (.settle faults requestId delta) = some t) :
    PeriodInv sid t := by
  unfold quotaStep at ht
  dsimp only at ht
  split at ht
  · cases ht
  rename_i record hrec
  split at ht
  · cases ht; exact h
  rename_i store hpost
  obtain ⟨-, ⟨rfl, rfl⟩ | ⟨w, hw, hfit, husage⟩⟩ := usage_postConsume hpost
  · -- a zero delta leaves the row alone, and an entry of zero the net
    have hzero : ∀ u, Covered u s.period → Covered u (s.period.move requestId 0) := by
      intro u hu
      have hused : usedAfter u.used 0 = u.used := by
        have := hu.nonneg
        unfold usedAfter
        split <;> omega
      have hcov : Covered ⟨u.total, usedAfter u.used 0⟩ (s.period.move requestId 0) :=
        hu.move requestId fun ht => by rw [hused]; exact hu.within ht
      rw [hused] at hcov
      exact hcov
    split at ht
    · cases ht
      exact fun u hu => hzero u (h u hu)
    · cases ht; exact h
  · have hinv := h.delta requestId hw hfit husage
    exact hinv.of_branch ht

theorem quotaStep_inv (c : QuotaCall) (h : PeriodInv sid s) (ht : quotaStep cfg sid s c = some t) :
    PeriodInv sid t := by
  cases c with
  | preConsume env faults requestId userId amount => exact quotaStep_preConsume h ht
  | refund requestId => exact quotaStep_refund h ht
  | settle faults requestId delta => exact quotaStep_settle h ht
  | resetDue env faults limit =>
    cases ht
    exact h.resets (resetDueSubscriptions_resetsTo faults s.store limit)

/-- **Quota within a period.**  Along every run the subscription's `AmountUsed` stays
between zero and its total, and what the current period granted to its own
requests, net of their refunds and settlements, is at most the total and what
requests of earlier periods gave back since the reset. -/
theorem quota_within_period (cfg : Config) (sid : ℕ) (store : Store)
    (h : ∀ u, store.usage sid = some u → 0 ≤ u.used ∧ (0 < u.total → u.used ≤ u.total))
    (calls : List QuotaCall) :
    (quotaSystem cfg sid).EveryState (WithinPlan sid) ⟨store, .start⟩ calls := by
  have h0 : PeriodInv sid ⟨store, .start⟩ := by
    intro u hu
    obtain ⟨hnonneg, hwithin⟩ := h u hu
    exact ⟨hnonneg, hwithin, by show 0 ≤ u.used + 0; omega⟩
  have hrun : (quotaSystem cfg sid).EveryState (PeriodInv sid) ⟨store, .start⟩ calls :=
    System.everyState_of_step (fun s c t hs ht => quotaStep_inv c hs ht) h0
  exact hrun.mono fun s hs => hs.withinPlan

/-- A plan of 100 units that resets every 100 seconds. -/
def resettingPlan : SubscriptionPlan := ⟨1, .day, 1, 0, 0, "", 100, "custom", 100⟩

def resettingSub : UserSubscription :=
  ⟨5, 7, 1, 100, 0, 1000, 87400, .active, "order", 1000, 1100, "", ""⟩

def resettingStore : Store := ⟨⟨[resettingSub], by decide⟩, .empty⟩

def utcConfig : Config := ⟨GoTime.utc, 100⟩

def at_ (now : ℤ) : Env := ⟨now, fun id => if id = 1 then some resettingPlan else none⟩

/-- Request `a` uses up its period; after the reset `b` uses up the next one, `a` is
refunded, and `c` uses the total again. -/
def refundAfterReset : List QuotaCall :=
  [.preConsume (at_ 1050) noFaults "a" 7 100, .resetDue (at_ 1100) noFaults 0,
    .preConsume (at_ 1110) noFaults "b" 7 100, .refund "a",
    .preConsume (at_ 1120) noFaults "c" 7 100]

theorem quota_within_period_sample :
    (quotaSystem utcConfig 5).EveryState (WithinPlan 5) ⟨resettingStore, .start⟩ refundAfterReset :=
  quota_within_period utcConfig 5 resettingStore
    (by
      intro u hu
      have hu' : resettingStore.usage 5 = some ⟨100, 0⟩ := by decide
      rw [hu'] at hu
      cases hu
      decide) refundAfterReset

theorem refund_after_reset_grants_twice :
    ¬ (quotaSystem utcConfig 5).EveryState (WithinPlanStrict 5) ⟨resettingStore, .start⟩
      refundAfterReset := by
  intro h
  have hrun : ((quotaSystem utcConfig 5).run ⟨resettingStore, .start⟩ refundAfterReset).map
      (fun s => (s.store.usage 5, s.period.net)) = some (some ⟨100, 100⟩, 200) := by decide +kernel
  obtain ⟨t, ht, hnet⟩ := Option.map_eq_some_iff.mp hrun
  simp only [Prod.mk.injEq] at hnet
  have hle := (h.run ht ⟨100, 100⟩ hnet.1 (by decide)).2.2
  rw [hnet.2] at hle
  exact absurd hle (by decide)

end Subscription
