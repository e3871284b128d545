import GMasterApi.Billing.Session

/-!
# Settling a request

`SettleBilling` settles the session of a request, and `PostConsumeQuota` charges one
without a session.
-/

namespace Billing

open Subscription

/-- The funding side of `PostConsumeQuota`; a positive `quota` charges. -/
def postConsumeFunding (faults : FundingFaults) (w : World) (info : RelayInfo) (quota : ℤ) :
    Except String (World × RelayInfo) :=
  if info.billingSource = .subscription then
    if info.subscriptionId = 0 then .error "subscription id is missing"
    else if quota = 0 then .ok (w, info)
    else (w.postConsume faults.delta info.subscriptionId quota).map fun w =>
      (w, { info with subscriptionPostDelta := info.subscriptionPostDelta + quota })
  else if 0 < quota then (decreaseUserQuota faults.quota w info.userId quota).map fun w => (w, info)
  else (increaseUserQuota faults.quota w info.userId (-quota)).map fun w => (w, info)

/-- `PostConsumeQuota`, without its notifications. -/
def postConsumeQuota (faults : SettleFaults) (w : World) (info : RelayInfo) (quota : ℤ) :
    World × RelayInfo × Except String Unit :=
  match postConsumeFunding faults.funding w info quota with
  | .error e => (w, info, .error e)
  | .ok (w, info) =>
    if info.isPlayground then (w, info, .ok ())
    else match if 0 < quota then decreaseTokenQuota faults.token w info.tokenId quota
        else increaseTokenQuota faults.token w info.tokenId (-quota) with
      | .error e => (w, info, .error e)
      | .ok w => (w, info, .ok ())

/-- What `SettleBilling` leaves of a request. -/
structure Settled where
  world : World
  info : RelayInfo
  billing : Option BillingSession
  result : Except String Unit

/-- `SettleBilling`, without its notifications. -/
def settleBilling (faults : SettleFaults) (w : World) (info : RelayInfo)
    (billing : Option BillingSession) (actualQuota : ℤ) : Settled :=
  match billing with
  | some session =>
    let (session, w, result) := session.settle faults w actualQuota
    ⟨w, info, some session, result⟩
  | none =>
    let quotaDelta := actualQuota - info.finalPreConsumedQuota
    if quotaDelta ≠ 0 then
      let (w, info, result) := postConsumeQuota faults w info quotaDelta
      ⟨w, info, none, result⟩
    else ⟨w, info, none, .ok ()⟩

theorem map_eq_ok {α β : Type} {x : Except String α} {f : α → β} {y : β} (h : x.map f = .ok y) :
    ∃ a, x = .ok a ∧ f a = y := by
  cases x with
  | error e => cases h
  | ok a => exact ⟨a, rfl, Except.ok.inj h⟩

/-- Only the log's delta of the relay info changes. -/
theorem postConsumeFunding_info {faults : FundingFaults} {w w' : World} {info info' : RelayInfo}
    {quota : ℤ} (h : postConsumeFunding faults w info quota = .ok (w', info')) :
    ∃ n, info' = { info with subscriptionPostDelta := n } := by
  unfold postConsumeFunding at h
  split at h
  · split at h
    · cases h
    split at h
    · rw [← (Prod.mk.inj (Except.ok.inj h)).2]
      exact ⟨_, rfl⟩
    · obtain ⟨store, -, hpair⟩ := map_eq_ok h
      rw [← (Prod.mk.inj hpair).2]
      exact ⟨_, rfl⟩
  split at h
  · obtain ⟨store, -, hpair⟩ := map_eq_ok h
    rw [← (Prod.mk.inj hpair).2]
    exact ⟨_, rfl⟩
  · obtain ⟨store, -, hpair⟩ := map_eq_ok h
    rw [← (Prod.mk.inj hpair).2]
    exact ⟨_, rfl⟩

theorem settleBilling_info (faults : SettleFaults) (w : World) (info : RelayInfo)
    (billing : Option BillingSession) (actualQuota : ℤ) :
    ∃ n, (settleBilling faults w info billing actualQuota).info =
      { info with subscriptionPostDelta := n } := by
  unfold settleBilling
  split
  · exact ⟨_, rfl⟩
  dsimp only
  split
  · unfold postConsumeQuota
    split
    · exact ⟨_, rfl⟩
    rename_i w' info' hfund
    have hinfo := postConsumeFunding_info hfund
    split
    · exact hinfo
    split <;> exact hinfo
  · exact ⟨_, rfl⟩

end Billing
