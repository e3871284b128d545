import GMasterApi.Billing.NewSession
import GMasterApi.Lib.Transition

/-!
# What a session takes over its life

Between two calls a session has taken `preConsumedQuota` from its source and from
its token; once settled exactly the actual quota, and once refunded nothing
(`session_conserves`).  `Settle` does not look at `refunded`, so a session that is
settled after its refund pays the difference a second time.
-/

namespace Billing

open Subscription GoString Transition

variable {settings : Settings} {s s' : BillingSession} {before w w' : World} {delta : ℤ}
  {tokenId : ℕ} {resets : List ℕ}

/-! ## Store operations of a session -/

/-- A delta that is not clamped at zero. -/
def FundingSource.Unclamped (w : World) (delta : ℤ) : FundingSource → Prop
  | .wallet _ => True
  | .subscription funding =>
    ∀ u, w.store.usage funding.subscriptionId = some u → 0 ≤ u.used + delta

theorem fundingSettle_eq_ok {funding : FundingSource} {faults : FundingFaults} (tokenId : ℕ)
    (hclamp : funding.Unclamped w delta) (h : funding.settle faults w delta = .ok w') :
    Moves funding.account tokenId [] delta 0 w w' := by
  cases funding with
  | wallet f =>
    simp only [FundingSource.settle] at h
    split at h
    · rename_i hz
      rw [← Except.ok.inj h, hz]
      exact .refl _ _ _
    split at h
    · rw [(updateQuota_eq_ok h).2]
      exact moves_addQuota _ _ _ _
    · rw [(updateQuota_eq_ok h).2]
      exact moves_addQuota _ _ _ _
  | subscription f =>
    simp only [FundingSource.settle] at h
    split at h
    · rename_i hz
      rw [← Except.ok.inj h, hz]
      exact .refl _ _ _
    · exact (moves_postConsume tokenId hclamp h).1

/-- The token's part of a settlement, which fails only where the update does. -/
theorem settleToken_succeeds (s : BillingSession) (w : World) (delta : ℤ) :
    ∃ w', s.settleToken none w delta = .ok w' := by
  unfold BillingSession.settleToken
  split
  · exact ⟨w, rfl⟩
  split
  · rename_i hpos
    exact ⟨_, updateQuota_none _ hpos.le⟩
  · rename_i hpos
    exact ⟨_, updateQuota_none _ (by omega)⟩

theorem settleToken_eq_ok {fault : Option String} (account : Account)
    (h : s.settleToken fault w delta = .ok w') :
    Moves account s.relayInfo.tokenId [] 0 (s.relayInfo.tokenShare delta) w w' := by
  unfold BillingSession.settleToken at h
  unfold RelayInfo.tokenShare
  by_cases hp : s.relayInfo.isPlayground = true
  · rw [if_pos hp] at h
    rw [if_pos hp, ← Except.ok.inj h]
    exact .refl _ _ _
  rw [if_neg hp] at h
  rw [if_neg hp]
  split at h
  · rw [(updateQuota_eq_ok h).2]
    exact moves_addToken _ _ _ _
  · rw [(updateQuota_eq_ok h).2]
    exact moves_addToken _ _ _ _

/-- A row behind the usage of a subscription. -/
theorem find_of_usage {store : Store} {id : ℕ} {u : Usage} (h : store.usage id = some u) :
    ∃ sub, store.subs.find id = some sub ∧ sub.usage = u :=
  Option.map_eq_some_iff.mp h

/-- A delta that meets no failure and fits is made. -/
theorem postConsume_takes (tokenId : ℕ) {subId : ℕ} {u : Usage} (hid : subId ≠ 0)
    (hdelta : delta ≠ 0) (hu : w.store.usage subId = some u) (hle : 0 ≤ u.used + delta)
    (hfit : 0 < u.total → u.used + delta ≤ u.total) :
    ∃ w', w.postConsume noFaults subId delta = .ok w' ∧
      Moves (.subscription subId) tokenId [] delta 0 w w' ∧ w'.store.records = w.store.records := by
  obtain ⟨sub, hsub, rfl⟩ := find_of_usage hu
  have hafter : usedAfter sub.amountUsed delta = sub.amountUsed + delta := if_neg (not_lt.mpr hle)
  have hfits : sub.fits delta := by
    intro ht
    rw [hafter]
    exact hfit ht
  obtain ⟨w', hw'⟩ : ∃ w', w.postConsume noFaults subId delta = .ok w' := by
    unfold World.postConsume
    rw [postConsume_of_fits hid hdelta hsub hfits]
    exact ⟨_, rfl⟩
  have hused : ∀ v, w.store.usage subId = some v → 0 ≤ v.used + delta := by
    intro v hv
    rw [hu] at hv
    rw [← Option.some.inj hv]
    exact hle
  obtain ⟨hmoves, hrec, -⟩ := moves_postConsume tokenId hused hw'
  exact ⟨w', hw', hmoves, hrec⟩

/-- The refund of a record, at the first attempt. -/
theorem refundRecord_moves {funding : SubscriptionFunding} {record : PreConsumeRecord}
    {sub : UserSubscription} (tokenId : ℕ)
    (h : Outstanding w.store funding.requestId record sub)
    (hpre : funding.preConsumed = record.preConsumed) :
    Moves (.subscription record.userSubscriptionId) tokenId [] (-record.preConsumed) 0 w
      ((FundingSource.subscription funding).refund .none w).1 := by
  have hpos := h.positive
  have hcov := h.covered
  have hattempt : refundSubscriptionPreConsume noFaults w.store funding.requestId =
      (closed (w.store.saveSub (lowered record sub)) record, .ok ()) :=
    h.toRefundable.attempt_of_clean rfl
  have hfirst : refundWithRetry funding.requestId 3 w.store (fun _ => noFaults) =
      (closed (w.store.saveSub (lowered record sub)) record, .ok ()) := by
    unfold refundWithRetry
    dsimp only
    rw [hattempt]
    exact if_pos (.inl rfl)
  have hworld : ((FundingSource.subscription funding).refund .none w).1 =
      { w with store := closed (w.store.saveSub (lowered record sub)) record } := by
    simp only [FundingSource.refund, RefundFaults.none]
    rw [if_neg (by omega), hfirst]
  have hafter : usedAfter sub.amountUsed (-record.preConsumed) =
      sub.amountUsed + -record.preConsumed := if_neg (by omega)
  rw [hworld]
  refine ⟨fun id => by simp [Account.fromUser], fun id => by simp, fun id => ?_⟩
  show (w.store.saveSub (lowered record sub)).usage id = _
  unfold lowered
  rw [usage_setUsed h.found, hafter]
  by_cases hid : id = record.userSubscriptionId
  · subst hid
    rw [if_pos rfl, usage_of_find h.found]
    simp [Account.fromSub, Usage.add, UserSubscription.usage]
  · have hne : ¬ record.userSubscriptionId = id := fun e => hid e.symm
    rw [if_neg hid]
    cases w.store.usage id <;> simp [Account.fromSub, hne]

/-- The token's part of a refund, where it succeeds. -/
theorem refundToken_moves (s : BillingSession) (account : Account) (w : World)
    (hnonneg : 0 ≤ s.tokenConsumed) :
    Moves account s.relayInfo.tokenId [] 0 (-s.relayInfo.tokenShare s.tokenConsumed) w
      (s.refundToken .none w) := by
  unfold BillingSession.refundToken
  by_cases hp : s.relayInfo.isPlayground = true
  · have hshare : s.relayInfo.tokenShare s.tokenConsumed = 0 := if_pos hp
    have hskip : ¬ (0 < s.tokenConsumed ∧ s.relayInfo.isPlayground = false) := by simp [hp]
    rw [if_neg hskip, hshare, neg_zero]
    exact .refl _ _ _
  have hpf : s.relayInfo.isPlayground = false := Bool.eq_false_iff.mpr hp
  have hshare : s.relayInfo.tokenShare s.tokenConsumed = s.tokenConsumed := if_neg hp
  rw [hshare]
  by_cases hpos : 0 < s.tokenConsumed
  · rw [if_pos ⟨hpos, hpf⟩]
    simp only [increaseTokenQuota, RefundFaults.none, updateQuota_none _ hnonneg]
    have hmoves := moves_addToken account s.relayInfo.tokenId (-s.tokenConsumed) w
    rw [neg_neg] at hmoves
    exact hmoves
  · have hz : s.tokenConsumed = 0 := by omega
    rw [if_neg (fun h => hpos h.1), hz, neg_zero]
    exact .refl _ _ _

/-! ## Calls on a session that holds its quota -/

/-- Every row of the store has an id and a usage that no code makes negative. -/
structure SoundStore (store : Store) : Prop where
  id : ∀ sub ∈ store.subs.rows, sub.id ≠ 0
  used : ∀ sub ∈ store.subs.rows, 0 ≤ sub.amountUsed

/-- A subscription that was charged what the session took holds that much more than it
had been used since its last reset. -/
theorem SubHolds.usage {after : World} {funding : SubscriptionFunding} {m : ℤ}
    (hsound : SoundStore before.store) (h : SubHolds before after resets s funding)
    (hw : Moves (.subscription funding.subscriptionId) tokenId resets s.preConsumedQuota m before w) :
    ∃ u : Usage, 0 ≤ u.used ∧ w.store.usage funding.subscriptionId = some (u.add s.preConsumedQuota) ∧
      (0 < u.total → u.used + s.preConsumedQuota ≤ u.total) ∧ funding.subscriptionId ≠ 0 := by
  obtain ⟨u, hu, hroom⟩ := h.within
  obtain ⟨sub, hsub, husage⟩ := find_of_usage hu
  have hmem := Table.find_eq_some_iff.mp hsub
  refine ⟨u.resetIf (resets.contains funding.subscriptionId), ?_, ?_, ?_, ?_⟩
  · unfold Usage.resetIf
    split
    · exact le_refl 0
    · rw [← husage]
      exact hsound.used sub hmem.1
  · rw [hw.usage, hu]
    simp [Account.fromSub]
  · rw [Usage.resetIf_total]
    exact hroom
  · rw [← hmem.2]
    exact hsound.id sub hmem.1

/-- What the session's subscription holds of it. -/
theorem Holds.usage {funding : SubscriptionFunding} (hsound : SoundStore before.store)
    (h : Holds before w resets s) (hf : s.funding = .subscription funding) :
    ∃ u : Usage, 0 ≤ u.used ∧ w.store.usage funding.subscriptionId = some (u.add s.preConsumedQuota) ∧
      (0 < u.total → u.used + s.preConsumedQuota ≤ u.total) ∧ funding.subscriptionId ≠ 0 := by
  have hmoves := h.moves
  rw [hf] at hmoves
  exact (h.subscription funding hf).usage hsound hmoves

/-- The accounts of a session never change. -/
structure SameAccounts (start s : BillingSession) : Prop where
  account : s.funding.account = start.funding.account
  tokenId : s.relayInfo.tokenId = start.relayInfo.tokenId
  isPlayground : s.relayInfo.isPlayground = start.relayInfo.isPlayground

/-- `n` was taken from the source of the session and from its token since `before` and
the resets of its creation. -/
def Taken (start : BillingSession) (resets : List ℕ) (before after : World) (n : ℤ) : Prop :=
  Moves start.funding.account start.relayInfo.tokenId resets n (start.relayInfo.tokenShare n) before
    after

theorem SameAccounts.refl (s : BillingSession) : SameAccounts s s := ⟨rfl, rfl, rfl⟩

theorem SameAccounts.trans {start : BillingSession} (h : SameAccounts start s)
    (h' : SameAccounts s s') : SameAccounts start s' :=
  ⟨h'.account.trans h.account, h'.tokenId.trans h.tokenId, h'.isPlayground.trans h.isPlayground⟩

theorem SameAccounts.tokenShare (h : SameAccounts s s') (n : ℤ) :
    s'.relayInfo.tokenShare n = s.relayInfo.tokenShare n := by
  unfold RelayInfo.tokenShare
  rw [h.isPlayground]

theorem SameAccounts.taken {start : BillingSession} {n : ℤ} (h : SameAccounts start s) :
    Taken s resets before w n ↔ Taken start resets before w n := by
  unfold Taken
  rw [h.account, h.tokenId, h.tokenShare]

theorem RelayInfo.tokenShare_add (info : RelayInfo) (n m : ℤ) :
    info.tokenShare n + info.tokenShare m = info.tokenShare (n + m) := by
  unfold RelayInfo.tokenShare
  split <;> simp

/-- Two steps of a session, the source's and the token's. -/
theorem Taken.step {n : ℤ} {w₁ w₂ : World} (h : Taken s resets before w n)
    (hsource : Moves s.funding.account s.relayInfo.tokenId [] delta 0 w w₁)
    (htoken : Moves s.funding.account s.relayInfo.tokenId [] 0 (s.relayInfo.tokenShare delta) w₁ w₂) :
    Taken s resets before w₂ (n + delta) := by
  have hmoves := (Moves.trans h hsource).trans htoken
  rw [add_zero, add_zero, RelayInfo.tokenShare_add] at hmoves
  exact hmoves

/-- A settlement of a session that is open fails and changes nothing, or takes the rest
from the source, whatever becomes of the token. -/
theorem settle_takes {faults : SettleFaults} {actual : ℤ} (hopen : s.settled = false)
    (hunpaid : s.fundingSettled = false)
    (hclamp : actual ≠ s.preConsumedQuota → s.funding.Unclamped w (actual - s.preConsumedQuota)) :
    (∃ e, s.settle faults w actual = (s, w, .error e)) ∨
      ∃ s' w₁ w' r, s.settle faults w actual = (s', w', r) ∧ s'.settled = true ∧
        SameAccounts s s' ∧
        Moves s.funding.account s.relayInfo.tokenId [] (actual - s.preConsumedQuota) 0 w w₁ ∧
        (r = .ok () ∧ Moves s.funding.account s.relayInfo.tokenId [] 0
            (s.relayInfo.tokenShare (actual - s.preConsumedQuota)) w₁ w' ∨
          faults.token ≠ none ∧ w' = w₁) := by
  unfold BillingSession.settle
  rw [hopen, hunpaid]
  simp only [Bool.false_eq_true, if_false]
  by_cases hdelta : actual - s.preConsumedQuota = 0
  · have hshare : s.relayInfo.tokenShare 0 = 0 := by simp [RelayInfo.tokenShare]
    rw [if_pos hdelta, hdelta, hshare]
    exact .inr ⟨_, w, w, _, rfl, rfl, ⟨rfl, rfl, rfl⟩, .refl _ _ _, .inl ⟨rfl, .refl _ _ _⟩⟩
  rw [if_neg hdelta]
  cases hfund : s.funding.settle faults.funding w (actual - s.preConsumedQuota) with
  | error e => exact .inl ⟨e, rfl⟩
  | ok w₁ =>
    have hpaid := fundingSettle_eq_ok s.relayInfo.tokenId (hclamp (by omega)) hfund
    dsimp only
    generalize hs' : BillingSession.addPostDelta { s with fundingSettled := true, settled := true }
      (actual - s.preConsumedQuota) = s'
    have hsame : SameAccounts s s' := by
      subst hs'
      exact ⟨by simp, by simp, by simp⟩
    have hsettled : s'.settled = true := by
      rw [← hs']
      simp
    right
    cases htoken : s'.settleToken faults.token w₁ (actual - s.preConsumedQuota) with
    | error e =>
      refine ⟨s', w₁, w₁, _, rfl, hsettled, hsame, hpaid, .inr ⟨fun hnone => ?_, rfl⟩⟩
      obtain ⟨w₂, hw₂⟩ := settleToken_succeeds s' w₁ (actual - s.preConsumedQuota)
      rw [hnone, hw₂] at htoken
      cases htoken
    | ok w₂ =>
      refine ⟨s', w₁, w₂, _, rfl, hsettled, hsame, hpaid, .inl ⟨rfl, ?_⟩⟩
      rw [← hsame.tokenId, ← hsame.tokenShare]
      exact settleToken_eq_ok s.funding.account htoken

/-- A settlement that returns nil takes exactly the actual quota. -/
theorem Holds.settle {faults : FundingFaults} {actual : ℤ} (h : Holds before w resets s)
    (hclamp : actual ≠ s.preConsumedQuota → s.funding.Unclamped w (actual - s.preConsumedQuota)) :
    (∃ e, s.settle ⟨faults, none⟩ w actual = (s, w, .error e)) ∨
      ∃ s' w', s.settle ⟨faults, none⟩ w actual = (s', w', .ok ()) ∧ s'.settled = true ∧
        SameAccounts s s' ∧ Taken s resets before w' actual := by
  rcases @settle_takes s w ⟨faults, none⟩ actual h.settled h.fundingSettled hclamp with
    herror | ⟨s', w₁, w', r, hcall, hsettled, hsame, hpaid, ⟨rfl, htoken⟩ | ⟨hne, -⟩⟩
  · exact .inl herror
  · have htaken := Taken.step h.moves hpaid htoken
    rw [add_sub_cancel] at htaken
    exact .inr ⟨s', w', hcall, hsettled, hsame, htaken⟩
  · exact absurd rfl hne

theorem RelayInfo.tokenShare_neg (info : RelayInfo) (n : ℤ) :
    -info.tokenShare n = info.tokenShare (-n) := by
  unfold RelayInfo.tokenShare
  split <;> simp

/-- The record and what was reserved after it: the source gets all of it back. -/
theorem Holds.refundSource (hsound : SoundStore before.store) (h : Holds before w resets s) :
    Moves s.funding.account s.relayInfo.tokenId [] (-s.preConsumedQuota) 0 w
      (s.refundExtra .none (s.funding.refund .none w).1) := by
  have hnonneg := h.nonneg
  cases hf : s.funding with
  | wallet f =>
    have hconsumed := h.wallet f hf
    have hextra : ∀ w, s.refundExtra .none w = w := by
      intro w
      unfold BillingSession.refundExtra
      rw [hf]
      exact if_neg (by simp [FundingSource.source])
    rw [hextra]
    simp only [FundingSource.refund, RefundFaults.none, FundingSource.account]
    by_cases hz : f.consumed ≤ 0
    · have hpre : s.preConsumedQuota = 0 := by omega
      rw [if_pos hz, hpre, neg_zero]
      exact .refl _ _ _
    · rw [if_neg hz]
      simp only [increaseUserQuota, updateQuota_none _ (show 0 ≤ f.consumed by omega)]
      have hmoves := moves_addQuota f.userId s.relayInfo.tokenId (-f.consumed) w
      rw [neg_neg] at hmoves
      rw [← hconsumed]
      exact hmoves
  | subscription f =>
    have hsub := h.subscription f hf
    have hpos := hsub.positive
    have hheld := hsub.held
    have hextra := hsub.extra
    obtain ⟨u, hused, husage, hroom, hid⟩ := h.usage hsound hf
    obtain ⟨sub, hfind, hrow⟩ := find_of_usage husage
    have hamount : sub.amountUsed = u.used + s.preConsumedQuota := congrArg Usage.used hrow
    have htotal : sub.amountTotal = u.total := congrArg Usage.total hrow
    have hout : Outstanding w.store f.requestId
        ⟨f.requestId, f.userId, f.subscriptionId, f.preConsumed, .consumed⟩ sub := {
      named := hsub.named
      recorded := hsub.record
      consumed := rfl
      positive := hpos
      subId := hid
      found := hfind
      nonneg := by omega
      within := fun ht => by
        rw [htotal] at ht
        have := hroom ht
        omega
      covered := by
        show f.preConsumed ≤ sub.amountUsed
        omega }
    have hrecord := refundRecord_moves s.relayInfo.tokenId hout rfl
    dsimp only at hrecord
    generalize ((FundingSource.subscription f).refund .none w).1 = w₁ at hrecord
    have husage₁ : w₁.store.usage f.subscriptionId =
        some (u.add (s.preConsumedQuota + -f.preConsumed)) := by
      rw [hrecord.usage, husage]
      simp [Account.fromSub]
    unfold BillingSession.refundExtra
    rw [hf, h.synced f hf]
    by_cases hpaid : 0 < s.extraReserved
    · rw [if_pos ⟨hpaid, rfl, Nat.pos_of_ne_zero hid⟩]
      have hle : 0 ≤ (u.add (s.preConsumedQuota + -f.preConsumed)).used + -s.extraReserved := by
        show 0 ≤ u.used + _ + -s.extraReserved
        omega
      have hfit : 0 < u.total →
          (u.add (s.preConsumedQuota + -f.preConsumed)).used + -s.extraReserved ≤ u.total := by
        intro ht
        have := hroom ht
        show u.used + _ + -s.extraReserved ≤ u.total
        omega
      obtain ⟨w₂, hw₂, hback, -⟩ :=
        postConsume_takes s.relayInfo.tokenId hid (by omega) husage₁ hle hfit
      simp only [hw₂, RefundFaults.none]
      have hboth := hrecord.trans hback
      have hsum : -f.preConsumed + -s.extraReserved = -s.preConsumedQuota := by omega
      rw [hsum, add_zero] at hboth
      exact hboth
    · have hsum : f.preConsumed = s.preConsumedQuota := by omega
      rw [if_neg fun hc => hpaid hc.1, ← hsum]
      exact hrecord

/-- A refund that takes effect gives everything back. -/
theorem Holds.refund (hsound : SoundStore before.store) (h : Holds before w resets s) :
    s.refund .none w = (s, w, false) ∨
      ∃ w', s.refund .none w = ({ s with refunded := true }, w', true) ∧ Taken s resets before w' 0 := by
  unfold BillingSession.refund
  rw [h.settled, h.refunded]
  by_cases hneeds : s.needsRefund = true
  · rw [if_neg (by simp [hneeds])]
    refine .inr ⟨_, rfl, ?_⟩
    have htoken := refundToken_moves s s.funding.account
      (s.refundExtra .none (s.funding.refund .none w).1) (h.token ▸ h.nonneg)
    rw [h.token, RelayInfo.tokenShare_neg] at htoken
    have htaken := Taken.step h.moves (h.refundSource hsound) htoken
    rwa [add_neg_cancel] at htaken
  · rw [if_pos (by simp [hneeds])]
    exact .inl rfl

/-- What a reservation of the source leaves: the source grew by `delta`, and its
subscription had room for that. -/
structure SourceReserved (w w₁ : World) (s : BillingSession) (delta : ℤ) (funding : FundingSource) :
    Prop where
  moves : Moves s.funding.account s.relayInfo.tokenId [] delta 0 w w₁
  records : w₁.store.records = w.store.records
  account : funding.account = s.funding.account
  wallet : ∀ f, funding = .wallet f → f.consumed = s.preConsumedQuota + delta
  subscription : ∀ f, funding = .subscription f → s.funding = .subscription f ∧
    ∀ u, w.store.usage f.subscriptionId = some u → 0 < u.total → u.used + delta ≤ u.total

theorem Holds.reserveFunding {faults : FundingFaults} {funding : FundingSource} {w₁ : World}
    (hsound : SoundStore before.store) (h : Holds before w resets s) (hpos : 0 < delta)
    (hok : Billing.reserveFunding faults w delta s.funding = .ok (funding, w₁)) :
    SourceReserved w w₁ s delta funding := by
  have hnonneg := h.nonneg
  cases hf : s.funding with
  | wallet f =>
    simp only [Billing.reserveFunding, hf] at hok
    split at hok
    · cases hok
    rename_i w₂ hdec
    cases hok
    have hconsumed := h.wallet f hf
    rw [(updateQuota_eq_ok hdec).2]
    refine ⟨?_, rfl, ?_, fun g hg => ?_, fun g hg => by cases hg⟩
    · rw [hf]
      exact moves_addQuota _ _ _ _
    · rw [hf]
      rfl
    · cases hg
      show f.consumed + delta = _
      omega
  | subscription f =>
    simp only [Billing.reserveFunding, hf] at hok
    split at hok
    · cases hok
    rename_i w₂ hpost
    cases hok
    obtain ⟨u, hused, husage, -, -⟩ := h.usage hsound hf
    have hmoved := moves_postConsume s.relayInfo.tokenId (fun v hv => by
      rw [husage] at hv
      rw [← Option.some.inj hv]
      show 0 ≤ u.used + s.preConsumedQuota + delta
      omega) hpost
    refine ⟨?_, hmoved.2.1, by rw [hf], fun g hg => (by cases hg), fun g hg => ?_⟩
    · rw [hf]
      exact hmoved.1
    · cases hg
      exact ⟨hf, hmoved.2.2 (by omega)⟩

/-- The rollback of the source's part of a reservation. -/
theorem SourceReserved.rollback {funding : FundingSource} {w₁ : World}
    (hsound : SoundStore before.store) (h : Holds before w resets s) (hpos : 0 < delta)
    (hres : SourceReserved w w₁ s delta funding) :
    ∃ w₂, rollbackFundingReserve .none w₁ delta funding = (s.funding, w₂) ∧
      Moves s.funding.account s.relayInfo.tokenId [] (-delta) 0 w₁ w₂ ∧
      w₂.store.records = w₁.store.records := by
  have hnonneg := h.nonneg
  cases hg : funding with
  | wallet f =>
    have hconsumed := hres.wallet f hg
    have haccount := hres.account
    cases hf : s.funding with
    | subscription f' =>
      rw [hg, hf] at haccount
      cases haccount
    | wallet f' =>
      have hconsumed' := h.wallet f' hf
      rw [hg, hf] at haccount
      have huser : f.userId = f'.userId := Account.user.inj haccount
      refine ⟨w₁.addQuota f.userId delta, ?_, ?_, rfl⟩
      · simp only [rollbackFundingReserve, increaseUserQuota, FundingFaults.none,
          updateQuota_none _ hpos.le]
        have hback : f.consumed - delta = f'.consumed := by omega
        rw [hback, huser]
      · have hmoves := moves_addQuota f.userId s.relayInfo.tokenId (-delta) w₁
        rw [neg_neg, huser] at hmoves
        rw [huser]
        exact hmoves
  | subscription f =>
    obtain ⟨hf, hroom⟩ := hres.subscription f hg
    obtain ⟨u, hused, husage, -, hid⟩ := h.usage hsound hf
    have hroom := hroom _ husage
    have husage₁ : w₁.store.usage f.subscriptionId =
        some (u.add (s.preConsumedQuota + delta)) := by
      rw [hres.moves.usage, husage, hf]
      simp [FundingSource.account, Account.fromSub]
    have hle : 0 ≤ (u.add (s.preConsumedQuota + delta)).used + -delta := by
      show 0 ≤ u.used + _ + -delta
      omega
    have hfit : 0 < u.total → (u.add (s.preConsumedQuota + delta)).used + -delta ≤ u.total := by
      intro ht
      have hreserved : u.used + s.preConsumedQuota + delta ≤ u.total := hroom ht
      show u.used + _ + -delta ≤ u.total
      omega
    obtain ⟨w₂, hw₂, hback, hrec⟩ :=
      postConsume_takes s.relayInfo.tokenId hid (by omega) husage₁ hle hfit
    refine ⟨w₂, ?_, ?_, hrec⟩
    · simp only [rollbackFundingReserve, FundingFaults.none, hw₂, hf]
    · rw [hf]
      exact hback

/-- A call that gives back what it took leaves the session as it was. -/
theorem Holds.unmoved {w₂ : World} (h : Holds before w resets s)
    (hmoves : Moves s.funding.account s.relayInfo.tokenId [] 0 0 w w₂)
    (hrec : w₂.store.records = w.store.records) : Holds before w₂ resets s := by
  have hboth := h.moves.trans hmoves
  rw [add_zero, add_zero] at hboth
  refine ⟨{ h.toTook with moves := hboth, subscription := fun f hf => ?_ }, h.synced⟩
  have hsub := h.subscription f hf
  exact { hsub with record := by rw [hrec]; exact hsub.record }

/-- The token's part of a reservation. -/
theorem reserveToken_eq_ok {env : TokenEnv} {w₁ : World} (account : Account)
    (h : s.reserveToken settings env w delta = .ok w₁) (hpos : 0 < delta) :
    Moves account s.relayInfo.tokenId [] 0 (s.relayInfo.tokenShare delta) w w₁ ∧
      w₁.store = w.store := by
  unfold BillingSession.reserveToken at h
  unfold RelayInfo.tokenShare
  by_cases hp : s.relayInfo.isPlayground = true
  · rw [if_pos (.inr hp)] at h
    rw [if_pos hp, ← Except.ok.inj h]
    exact ⟨.refl _ _ _, rfl⟩
  · rw [if_neg (not_or.mpr ⟨not_le.mpr hpos, hp⟩)] at h
    rw [if_neg hp]
    split at h
    · cases h
    rename_i w₂ hpre
    rw [← Except.ok.inj h, preConsumeTokenQuota_eq_ok hpre, if_neg hp]
    exact ⟨moves_addToken _ _ _ _, rfl⟩

/-- What a reservation that goes through leaves. -/
theorem SourceReserved.took {funding : FundingSource} {w₁ w₂ : World} (h : Holds before w resets s)
    (hpos : 0 < delta) (htrusted : s.trusted = false) (hres : SourceReserved w w₁ s delta funding)
    (htoken : Moves s.funding.account s.relayInfo.tokenId [] 0 (s.relayInfo.tokenShare delta) w₁ w₂)
    (hstore : w₂.store = w₁.store) :
    Took before w₂ resets
      { s with
        funding := funding
        preConsumedQuota := s.preConsumedQuota + delta
        tokenConsumed := s.tokenConsumed + delta
        extraReserved := s.extraReserved + delta } where
  settled := h.settled
  refunded := h.refunded
  fundingSettled := h.fundingSettled
  nonneg := by
    have := h.nonneg
    show 0 ≤ s.preConsumedQuota + delta
    omega
  token := by
    show s.tokenConsumed + delta = s.preConsumedQuota + delta
    rw [h.token]
  trusted ht := by
    rw [htrusted] at ht
    cases ht
  moves := by
    have htaken := Taken.step h.moves hres.moves htoken
    unfold Taken at htaken
    rw [← hres.account] at htaken
    exact htaken
  wallet := hres.wallet
  subscription f hf := by
    obtain ⟨hold, hroom⟩ := hres.subscription f hf
    have hsub := h.subscription f hold
    have hheld := hsub.held
    have hextra := hsub.extra
    refine ⟨hsub.named, hsub.positive, ?_, ?_, ?_, ?_⟩
    · show f.preConsumed + (s.extraReserved + delta) = s.preConsumedQuota + delta
      omega
    · show 0 ≤ s.extraReserved + delta
      omega
    · rw [hstore, hres.records]
      exact hsub.record
    · obtain ⟨u, hu, hfit⟩ := hsub.within
      refine ⟨u, hu, fun ht => ?_⟩
      have husage : w.store.usage f.subscriptionId = some
          ((u.resetIf (resets.contains f.subscriptionId)).add s.preConsumedQuota) := by
        rw [h.moves.usage, hu, hold]
        simp [FundingSource.account, Account.fromSub]
      have hmore := hroom _ husage (by
        show 0 < (u.resetIf _).total
        rw [Usage.resetIf_total]
        exact ht)
      have hmore : (u.resetIf (resets.contains f.subscriptionId)).used + s.preConsumedQuota + delta ≤
          (u.resetIf (resets.contains f.subscriptionId)).total := hmore
      rw [Usage.resetIf_total] at hmore
      show (u.resetIf _).used + (s.preConsumedQuota + delta) ≤ u.total
      omega

/-- A reservation, whether or not it goes through, leaves a session that holds what
it says. -/
theorem Holds.reserve {faults : FundingFaults} {env : TokenEnv} {target : ℤ}
    (hsound : SoundStore before.store) (h : Holds before w resets s) :
    ∃ s' w' r, s.reserve settings ⟨faults, env, .none⟩ w target = (s', w', r) ∧
      Holds before w' resets s' ∧ SameAccounts s s' := by
  unfold BillingSession.reserve
  by_cases hguard : s.settled = true ∨ s.refunded = true ∨ s.trusted = true ∨
      target ≤ s.preConsumedQuota
  · rw [if_pos hguard]
    exact ⟨s, w, _, rfl, h, .refl s⟩
  rw [if_neg hguard]
  simp only [not_or] at hguard
  obtain ⟨-, -, htrust, htarget⟩ := hguard
  have hpos : 0 < target - s.preConsumedQuota := by omega
  dsimp only
  cases hsource : Billing.reserveFunding faults w (target - s.preConsumedQuota) s.funding with
  | error e => exact ⟨s, w, _, rfl, h, .refl s⟩
  | ok out =>
    obtain ⟨funding, w₁⟩ := out
    have hres := h.reserveFunding hsound hpos hsource
    dsimp only
    cases htoken : s.reserveToken settings env w₁ (target - s.preConsumedQuota) with
    | error e =>
      obtain ⟨w₂, hroll, hback, hrec⟩ := hres.rollback hsound h hpos
      have hboth := hres.moves.trans hback
      rw [add_neg_cancel, add_zero] at hboth
      dsimp only
      rw [hroll]
      exact ⟨s, w₂, _, rfl, h.unmoved hboth (hrec.trans hres.records), .refl s⟩
    | ok w₂ =>
      obtain ⟨hmoves, hstore⟩ := reserveToken_eq_ok s.funding.account htoken hpos
      have htook := hres.took h hpos (Bool.eq_false_iff.mpr htrust) hmoves hstore
      refine ⟨_, w₂, _, rfl, htook.sync, ⟨?_, by simp, by simp⟩⟩
      rw [sync_funding]
      exact hres.account

/-! ## Runs -/

/-- A call on a session, with where it fails; what rolls back, refunds or adjusts the
token of a settlement succeeds. -/
inductive Call
  | reserve (funding : FundingFaults) (token : TokenEnv) (targetQuota : ℤ)
  | settle (funding : FundingFaults) (actualQuota : ℤ)
  | refund

/-- What came of a session first, with what that call left: the session and the world
of a settlement, the world of a refund that took effect. -/
inductive Outcome
  | pending
  | settled (actualQuota : ℤ) (session : BillingSession) (world : World)
  | refunded (world : World)

structure Life where
  session : BillingSession
  world : World
  outcome : Outcome

def Outcome.afterSettle (outcome : Outcome) (actualQuota : ℤ)
    (out : BillingSession × World × Except String Unit) : Outcome :=
  match outcome, out.2.2 with
  | .pending, .ok () => .settled actualQuota out.1 out.2.1
  | _, _ => outcome

def Outcome.afterRefund (outcome : Outcome) (out : BillingSession × World × Bool) : Outcome :=
  match outcome, out.2.2 with
  | .pending, true => .refunded out.2.1
  | _, _ => outcome

def Life.call (settings : Settings) (l : Life) : Call → Life
  | .reserve funding token target =>
    let out := l.session.reserve settings ⟨funding, token, .none⟩ l.world target
    ⟨out.1, out.2.1, l.outcome⟩
  | .settle funding actual =>
    let out := l.session.settle ⟨funding, none⟩ l.world actual
    ⟨out.1, out.2.1, l.outcome.afterSettle actual out⟩
  | .refund =>
    let out := l.session.refund .none l.world
    ⟨out.1, out.2.1, l.outcome.afterRefund out⟩

def sessionSystem (settings : Settings) : System Life Call where
  step l call := some (l.call settings call)

/-- **Conservation**, for a session that `start` is the state of when it is created:
the totals taken from its source and its token since `before` and the resets of its
creation. -/
def Conserved (start : BillingSession) (resets : List ℕ) (before : World) (l : Life) : Prop :=
  match l.outcome with
  | .pending => Taken start resets before l.world l.session.preConsumedQuota
  | .settled actual session world =>
    Taken start resets before l.world actual ∧ l.session = session ∧ l.world = world
  | .refunded world => Taken start resets before l.world 0 ∧ l.world = world

/-- A settlement of another amount than was pre-consumed comes before any refund, and
does not take the usage of a subscription below zero. -/
def SettleOk (l : Life) : Call → Prop
  | .settle _ actual => l.session.settled = false → actual ≠ l.session.preConsumedQuota →
      l.session.refunded = false ∧
        l.session.funding.Unclamped l.world (actual - l.session.preConsumedQuota)
  | _ => True

/-- The invariant of a session's life. -/
structure LifeInv (start : BillingSession) (resets : List ℕ) (before : World) (l : Life) : Prop where
  same : SameAccounts start l.session
  state : match l.outcome with
    | .pending => Holds before l.world resets l.session
    | .settled actual session world => session.settled = true ∧
        Taken start resets before world actual ∧ l.session = session ∧ l.world = world
    | .refunded world => l.session.refunded = true ∧ Taken start resets before world 0 ∧ l.world = world

theorem LifeInv.conserved {start : BillingSession} {l : Life} (h : LifeInv start resets before l) :
    Conserved start resets before l := by
  have hstate := h.state
  unfold Conserved
  obtain ⟨session, world, outcome⟩ := l
  cases outcome with
  | pending => exact h.same.taken.mp hstate.moves
  | settled actual session' world' =>
    obtain ⟨-, htaken, hs, hw⟩ := hstate
    have hw' : world = world' := hw
    exact ⟨hw' ▸ htaken, hs, hw⟩
  | refunded world' =>
    obtain ⟨-, htaken, hw⟩ := hstate
    have hw' : world = world' := hw
    exact ⟨hw' ▸ htaken, hw⟩

/-- A settled session is left alone by every call. -/
theorem call_of_settled {l : Life} (h : l.session.settled = true) (call : Call) :
    (l.call settings call).session = l.session ∧ (l.call settings call).world = l.world := by
  cases call with
  | reserve funding token target =>
    simp only [Life.call, reserve_of_closed (.inl h), and_self]
  | settle funding actual => simp only [Life.call, settle_of_settled h, and_self]
  | refund => simp only [Life.call, refund_of_closed (.inl h), and_self]

/-- A refunded session pays nothing more, unless it is settled. -/
theorem call_of_refunded {l : Life} (h : l.session.refunded = true) (call : Call)
    (hok : SettleOk l call) :
    SameAccounts l.session (l.call settings call).session ∧
      (l.call settings call).session.refunded = true ∧ (l.call settings call).world = l.world := by
  by_cases hs : l.session.settled = true
  · obtain ⟨hsession, hworld⟩ := @call_of_settled settings l hs call
    rw [hsession]
    exact ⟨.refl _, h, hworld⟩
  have hsf : l.session.settled = false := Bool.eq_false_iff.mpr hs
  cases call with
  | reserve funding token target =>
    simp only [Life.call, reserve_of_closed (.inr h)]
    exact ⟨.refl _, h, trivial⟩
  | settle funding actual =>
    have hactual : actual = l.session.preConsumedQuota := by
      by_contra hne
      have hrefunded := (hok hsf hne).1
      rw [h] at hrefunded
      cases hrefunded
    simp only [Life.call, hactual, settle_of_eq hsf]
    exact ⟨⟨rfl, rfl, rfl⟩, h, trivial⟩
  | refund =>
    simp only [Life.call, refund_of_closed (.inr h)]
    exact ⟨.refl _, h, trivial⟩

/-- Once something came of the session, the outcome stays. -/
theorem outcome_stays (settings : Settings) (l : Life) (call : Call) (h : l.outcome ≠ .pending) :
    (l.call settings call).outcome = l.outcome := by
  obtain ⟨session, world, outcome⟩ := l
  cases outcome with
  | pending => exact absurd rfl h
  | settled actual session world => cases call <;> rfl
  | refunded world => cases call <;> rfl

/-- Every call that meets `SettleOk` keeps the invariant. -/
theorem call_inv {start : BillingSession} {l : Life} (hsound : SoundStore before.store)
    (h : LifeInv start resets before l) (call : Call) (hok : SettleOk l call) :
    LifeInv start resets before (l.call settings call) := by
  obtain ⟨session, world, outcome⟩ := l
  have hsame := h.same
  have hstate := h.state
  cases outcome with
  | settled actual session' world' =>
    obtain ⟨hsettled, htaken, hs, hw⟩ := hstate
    have hs' : session = session' := hs
    have hw' : world = world' := hw
    subst hs' hw'
    have hstays := outcome_stays settings ⟨session, world, .settled actual session world⟩ call
      (by simp)
    obtain ⟨hsession, hworld⟩ := @call_of_settled settings
      ⟨session, world, .settled actual session world⟩ hsettled call
    refine ⟨by rw [hsession]; exact hsame, ?_⟩
    rw [hstays]
    exact ⟨hsettled, htaken, hsession, hworld⟩
  | refunded world' =>
    obtain ⟨hrefunded, htaken, hw⟩ := hstate
    have hw' : world = world' := hw
    subst hw'
    have hstays := outcome_stays settings ⟨session, world, .refunded world⟩ call (by simp)
    obtain ⟨hafter, hflag, hworld⟩ := @call_of_refunded settings ⟨session, world, .refunded world⟩
      hrefunded call hok
    refine ⟨hsame.trans hafter, ?_⟩
    rw [hstays]
    exact ⟨hflag, htaken, hworld⟩
  | pending =>
    have hholds : Holds before world resets session := hstate
    cases call with
    | reserve funding token target =>
      obtain ⟨s', w', r, hcall, hafter, haccounts⟩ :=
        @Holds.reserve settings session before world resets funding token target hsound hholds
      simp only [Life.call, hcall]
      exact ⟨hsame.trans haccounts, hafter⟩
    | settle funding actual =>
      rcases @Holds.settle session before world resets funding actual hholds fun hne =>
        (hok hholds.settled hne).2 with ⟨e, hcall⟩ | ⟨s', w', hcall, hsettled, haccounts, htaken⟩
      · simp only [Life.call, hcall]
        exact ⟨hsame, hholds⟩
      · simp only [Life.call, hcall]
        exact ⟨hsame.trans haccounts, hsettled, hsame.taken.mp htaken, rfl, rfl⟩
    | refund =>
      rcases hholds.refund hsound with hcall | ⟨w', hcall, htaken⟩
      · simp only [Life.call, hcall]
        exact ⟨hsame, hholds⟩
      · simp only [Life.call, hcall]
        exact ⟨hsame.trans ⟨rfl, rfl, rfl⟩, rfl, hsame.taken.mp htaken, rfl⟩

/-- **A session conserves quota** in every run whose settlements meet `SettleOk`, from
any session that `NewBillingSession` returns. -/
theorem session_conserves (settings : Settings) (create : CreateEnv) (before world : World)
    (info : RelayInfo) (quota : ℤ) (session : BillingSession) (resets : List ℕ) (hquota : 0 ≤ quota)
    (hroll : create.rollsBack) (hnew : before.store.records.find info.requestId = none)
    (hsound : SoundStore before.store)
    (hcreate : newBillingSession settings create before (some info) quota =
      (world, .ok ⟨session, resets⟩))
    (calls : List Call)
    (hok : (sessionSystem settings).EveryStep SettleOk ⟨session, world, .pending⟩ calls) :
    (sessionSystem settings).EveryState (Conserved session resets before) ⟨session, world, .pending⟩
      calls := by
  have hopened := @newBillingSession_opened settings before info quota create hquota hroll hnew
  rw [hcreate] at hopened
  have h0 : LifeInv session resets before ⟨session, world, .pending⟩ :=
    ⟨.refl session, Opened.holds hopened⟩
  have hrun := System.everyState_of_everyStep (S := sessionSystem settings)
    (I := LifeInv session resets before) (C := SettleOk)
    (fun l call l' hinv hcall hl' => by
      cases hl'
      exact call_inv hsound hinv call hcall) h0 hok
  exact hrun.mono fun l hl => hl.conserved

theorem session_conserves_sample :
    (sessionSystem sampleSettings).EveryState (Conserved sampleSession [] sampleWorld)
      ⟨sampleSession, sampleCharged, .pending⟩
      [.reserve .none ⟨none, none, none⟩ 40, .settle .none 50, .refund] := by
  refine session_conserves sampleSettings quietCreate sampleWorld sampleCharged sampleInfo 30
    sampleSession [] (by decide) ⟨rfl, rfl⟩ rfl ⟨fun sub hsub => ?_, fun sub hsub => ?_⟩ rfl _ ?_
  · exact absurd hsub List.not_mem_nil
  · exact absurd hsub List.not_mem_nil
  · intro l₁ h₁
    rw [← Option.some.inj h₁]
    refine ⟨trivial, fun l₂ h₂ => ?_⟩
    rw [← Option.some.inj h₂]
    exact ⟨fun _ _ => ⟨rfl, trivial⟩, fun _ _ => ⟨trivial, trivial⟩⟩

/-- A refund gives the 30 back; the settlement after it takes the other 20 of 50. -/
theorem settle_after_refund_charges :
    newBillingSession sampleSettings quietCreate sampleWorld (some sampleInfo) 30 =
        (sampleCharged, .ok ⟨sampleSession, []⟩) ∧
      ¬ (sessionSystem sampleSettings).EveryState (Conserved sampleSession [] sampleWorld)
        ⟨sampleSession, sampleCharged, .pending⟩ [.refund, .settle .none 50] := by
  refine ⟨rfl, fun h => ?_⟩
  have hlast := h.run rfl
  have hquota := hlast.1.quota 7
  revert hquota
  decide

end Billing
