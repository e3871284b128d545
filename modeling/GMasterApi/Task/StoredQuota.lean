import GMasterApi.Billing.WalletSession
import GMasterApi.Task.ImageCharge
import GMasterApi.Task.Relay

/-!
# The quota that is stored on a task

`RelayTask` stores `result.Quota` whatever becomes of the settlement.  It is what was
taken from the funding source exactly where the settlement is accepted
(`stored_quota_iff`).
-/

namespace Tasks

open Billing Subscription Pricing GoMap GoString

/-! ## A session of any quote -/

/-- What a session has taken at its creation: nothing for a negative quote, which its
`preConsumedQuota` counts all the same. -/
structure Charged (before after : World) (info : Billing.RelayInfo) (created : Created) : Prop where
  settled : created.session.settled = false
  fundingSettled : created.session.fundingSettled = false
  moves : ∃ m, Moves created.session.funding.account created.session.relayInfo.tokenId created.resets
    (max 0 created.session.preConsumedQuota) m before after
  reports : Reports info created.session
  wallet : ∀ funding, created.session.funding = .wallet funding → funding.userId = info.userId
  subscription : ∀ funding, created.session.funding = .subscription funding →
    SubHolds before after created.resets created.session funding ∧
      0 ≤ created.session.preConsumedQuota ∧
      created.session.relayInfo.subscriptionId = funding.subscriptionId

def ChargedOrNothing (before : World) (info : Billing.RelayInfo) :
    World × Except NewAPIError Created → Prop
  | (after, .error _) => after = before
  | (after, .ok created) => Charged before after info created

variable {settings : Settings} {create : CreateEnv} {before w : World} {info : Billing.RelayInfo}
  {quota now : ℤ} {created : Created}

theorem charged_of_opened (h : Opened now before w info quota created) :
    Charged before w info created where
  settled := h.holds.settled
  fundingSettled := h.holds.fundingSettled
  moves := by
    rw [max_eq_right h.holds.nonneg]
    exact ⟨_, h.holds.moves⟩
  reports := h.reports
  wallet funding hf := by
    have hsource := h.source
    rw [hf] at hsource
    exact hsource.1
  subscription funding hf := ⟨h.holds.subscription funding hf, h.holds.nonneg, h.holds.synced funding hf⟩

theorem ChargedOrNothing.of_charges {out : World × Except NewAPIError Created}
    (h : ChargesOrNothing now before info quota out) : ChargedOrNothing before info out := by
  obtain ⟨after, result⟩ := out
  cases result with
  | error e => exact h
  | ok created => exact charged_of_opened h

theorem ChargedOrNothing.of_userQuota (userQuota : ℤ) {out : World × Except NewAPIError Created}
    (h : ChargedOrNothing before { info with userQuota := userQuota } out) :
    ChargedOrNothing before info out := by
  obtain ⟨after, result⟩ := out
  cases result with
  | error e => exact h
  | ok created =>
    exact ⟨h.settled, h.fundingSettled, h.moves,
      ⟨h.reports.userId, h.reports.tokenId, h.reports.quota, h.reports.source⟩, h.wallet,
      h.subscription⟩

/-- A session of a wallet that was opened on a negative quote. -/
def negativeSession (info : Billing.RelayInfo) (quota : ℤ) : BillingSession :=
  { BillingSession.init info (.wallet ⟨info.userId, 0⟩) with preConsumedQuota := quota }

theorem preConsume_forced (settings : Settings) (env : PreConsumeEnv) (w : World)
    (hforced : info.forcePreConsume = true) (hquota : quota < 0) :
    (BillingSession.init info (.wallet ⟨info.userId, 0⟩)).preConsume settings env w quota =
      (w, .ok ⟨(negativeSession info quota).syncRelayInfo, []⟩) := by
  have htrust : (BillingSession.init info (.wallet ⟨info.userId, 0⟩)).shouldTrust settings = false := by
    unfold BillingSession.shouldTrust
    exact if_pos hforced
  have hnegative := preConsume_negative settings env w info hquota
  rw [htrust] at hnegative
  exact hnegative

theorem negativeSession_charged (w : World) (info : Billing.RelayInfo) (hquota : quota < 0) :
    Charged w w info ⟨(negativeSession info quota).syncRelayInfo, []⟩ where
  settled := (sync_flags _).1
  fundingSettled := (sync_flags _).2.2
  moves := by
    have hnone : max 0 (negativeSession info quota).preConsumedQuota = 0 := max_eq_left hquota.le
    rw [sync_preConsumedQuota, hnone]
    exact ⟨0, .refl _ _ _⟩
  reports := reports_sync (negativeSession info quota)
  wallet funding hf := by
    rw [sync_funding] at hf
    cases hf
    rfl
  subscription funding hf := by
    rw [sync_funding] at hf
    cases hf

/-- A negative quote is not taken from a wallet. -/
theorem tryWallet_forced (hforced : info.forcePreConsume = true) (hquota : quota < 0) :
    (∃ userQuota, (tryWallet settings create w info quota).1 =
      { info with userQuota := userQuota }) ∧
      ChargedOrNothing w info (tryWallet settings create w info quota).2 := by
  unfold tryWallet
  cases hcheck : checkWallet settings create w info quota with
  | error e => exact ⟨⟨info.userQuota, rfl⟩, rfl⟩
  | ok info' =>
    obtain ⟨userQuota, rfl⟩ := checkWallet_eq_ok hcheck
    refine ⟨⟨userQuota, rfl⟩, ?_⟩
    dsimp only
    have hforced' : ({ info with userQuota := userQuota } : Billing.RelayInfo).forcePreConsume = true :=
      hforced
    rw [preConsume_forced settings create.wallet w hforced' hquota]
    refine ChargedOrNothing.of_userQuota userQuota ?_
    exact negativeSession_charged w _ hquota

theorem newBillingSession_charged (hforced : info.forcePreConsume = true) (hroll : create.rollsBack)
    (hnew : w.store.records.find info.requestId = none) :
    ChargedOrNothing w info (newBillingSession settings create w (some info) quota) := by
  unfold newBillingSession
  dsimp only
  split
  · exact rfl
  refine tryPreferred_of (fun _ _ => Iff.rfl) (fun userQuota => ?_) ?_ ?_ _
  · have hcharges := @trySubscription_charges_max settings create w info quota userQuota hroll hnew
    exact (ChargedOrNothing.of_charges hcharges).of_userQuota userQuota
  · rcases lt_or_ge quota 0 with hneg | hpos
    · exact (tryWallet_forced hforced hneg).1
    · exact (tryWallet_charges 0 hpos hroll).1
  · rcases lt_or_ge quota 0 with hneg | hpos
    · exact (tryWallet_forced hforced hneg).2
    · exact ChargedOrNothing.of_charges (tryWallet_charges 0 hpos hroll).2

/-! ## A settlement -/

/-- No update of the account fails. -/
def Faultless (faults : FundingFaults) : Account → Prop
  | .user _ => faults.quota = none
  | .subscription _ => ∀ step, faults.delta step = none

theorem fault_of_at_ok {Step : Type} {faults : Faults Step} {step : Step} {x : Unit}
    (h : faults.at step = .ok x) : faults step = none := by
  unfold Faults.at at h
  split at h
  · cases h
  · assumption

theorem postConsume_faultless {faults : Faults DeltaStep} {subId : ℕ} {delta : ℤ} {w' : World}
    (hdelta : delta ≠ 0) (h : w.postConsume faults subId delta = .ok w') :
    subId ≠ 0 ∧ ∀ step, faults step = none := by
  unfold World.postConsume at h
  obtain ⟨store, hstore, -⟩ := map_eq_ok h
  unfold postConsumeUserSubscriptionDelta at hstore
  split at hstore
  · cases hstore
  rename_i hid
  obtain ⟨_, hfind, hstore⟩ := bind_eq_ok.mp hstore
  split at hstore
  · cases hstore
  dsimp only at hstore
  split at hstore
  · cases hstore
  obtain ⟨_, hsave, hstore⟩ := bind_eq_ok.mp hstore
  obtain ⟨_, hcommit, -⟩ := bind_eq_ok.mp hstore
  refine ⟨hid, fun step => ?_⟩
  cases step with
  | findSub => exact fault_of_at_ok hfind
  | saveSub => exact fault_of_at_ok hsave
  | commit => exact fault_of_at_ok hcommit

/-- A change that the account takes and no update of which fails is made. -/
theorem fundingSettle_of_takes {funding : FundingSource} {faults : FundingFaults} {delta : ℤ}
    (tokenId : ℕ) (hdelta : delta ≠ 0) (hfaults : Faultless faults funding.account)
    (htakes : Takes w delta funding.account) :
    ∃ w', funding.settle faults w delta = .ok w' ∧ Moves funding.account tokenId [] delta 0 w w' := by
  cases funding with
  | wallet f =>
    obtain ⟨w', hw'⟩ := walletSettle_succeeds f hfaults w delta
    exact ⟨w', hw', fundingSettle_eq_ok tokenId trivial hw'⟩
  | subscription f =>
    obtain ⟨hid, u, hu, hle, hfit⟩ := htakes
    have hnone : faults.delta = noFaults := funext hfaults
    obtain ⟨w', hw', hmoves, -⟩ := postConsume_takes tokenId hid hdelta hu hle hfit
    simp only [FundingSource.settle, if_neg hdelta, hnone]
    exact ⟨w', hw', hmoves⟩

/-- What is made otherwise is less than asked for: the usage is clamped at zero. -/
theorem fundingSettle_clamped {funding : FundingSource} {faults : FundingFaults} {delta : ℤ}
    {w' : World} (tokenId : ℕ) (hdelta : delta ≠ 0)
    (hnot : ¬ (Faultless faults funding.account ∧ Takes w delta funding.account))
    (h : funding.settle faults w delta = .ok w') :
    ∃ id u, funding.account = .subscription id ∧ w.store.usage id = some u ∧ u.used + delta < 0 ∧
      Moves funding.account tokenId [] (-u.used) 0 w w' := by
  cases funding with
  | wallet f =>
    refine absurd ⟨?_, trivial⟩ hnot
    show faults.quota = none
    simp only [FundingSource.settle, if_neg hdelta] at h
    cases hquota : faults.quota with
    | none => rfl
    | some e =>
      rw [hquota] at h
      split at h
      · unfold decreaseUserQuota updateQuota at h
        split at h <;> cases h
      · unfold increaseUserQuota updateQuota at h
        split at h <;> cases h
  | subscription f =>
    simp only [FundingSource.settle, if_neg hdelta] at h
    obtain ⟨hid, hfaults⟩ := postConsume_faultless hdelta h
    obtain ⟨-, ⟨hz, -⟩ | ⟨u, hu, hfit, hmoves⟩⟩ := postConsume_moves tokenId h
    · exact absurd hz hdelta
    have hneg : u.used + delta < 0 := by
      by_contra hle
      have hafter : usedAfter u.used delta = u.used + delta := if_neg hle
      rw [hafter] at hfit
      exact hnot ⟨hfaults, hid, u, hu, by omega, hfit⟩
    have hafter : usedAfter u.used delta = 0 := if_pos hneg
    rw [hafter, zero_sub] at hmoves
    exact ⟨f.subscriptionId, u, rfl, hu, hneg, hmoves⟩

/-- `n` was taken from the account since `before`, whatever the token paid. -/
def Net (account : Account) (tokenId : ℕ) (resets : List ℕ) (before after : World) (n : ℤ) : Prop :=
  ∃ m, Moves account tokenId resets n m before after

theorem Net.trans {account : Account} {tokenId : ℕ} {resets : List ℕ} {n k m : ℤ} {w w' : World}
    (h : Net account tokenId resets before w n) (hmoves : Moves account tokenId [] k m w w') :
    Net account tokenId resets before w' (n + k) := by
  obtain ⟨m', hm'⟩ := h
  exact ⟨m' + m, hm'.trans hmoves⟩

/-- The settlement of a session at `quota` takes what is missing: nothing is, or the
account takes it and no update fails.  After a negative quote, of which nothing was
taken, it must fail for a quota of 0 and no other. -/
def SettlementTakes (faults : FundingFaults) (w : World) (created : Created) (quota : ℤ) : Prop :=
  let session := created.session
  let delta := quota - session.preConsumedQuota
  let accepted := Faultless faults session.funding.account ∧ Takes w delta session.funding.account
  if 0 ≤ session.preConsumedQuota then delta = 0 ∨ accepted
  else quota = 0 ∧ ¬ accepted

/-- What an open session leaves of its funding source when it is settled. -/
theorem settle_funding {faults : SettleFaults} {s : BillingSession} (hopen : s.settled = false)
    (hunpaid : s.fundingSettled = false) :
    (quota - s.preConsumedQuota = 0 ∧ (s.settle faults w quota).2.1 = w) ∨
      quota - s.preConsumedQuota ≠ 0 ∧
        match s.funding.settle faults.funding w (quota - s.preConsumedQuota) with
        | .error _ => (s.settle faults w quota).2.1 = w
        | .ok w₁ => ∃ m, Moves s.funding.account s.relayInfo.tokenId [] 0 m w₁
            (s.settle faults w quota).2.1 := by
  unfold BillingSession.settle
  rw [hopen, hunpaid]
  simp only [Bool.false_eq_true, if_false]
  by_cases hdelta : quota - s.preConsumedQuota = 0
  · rw [if_pos hdelta]
    exact .inl ⟨hdelta, rfl⟩
  rw [if_neg hdelta]
  refine .inr ⟨hdelta, ?_⟩
  cases s.funding.settle faults.funding w (quota - s.preConsumedQuota) with
  | error e => exact rfl
  | ok w₁ =>
    dsimp only
    generalize hs' : BillingSession.addPostDelta { s with fundingSettled := true, settled := true }
      (quota - s.preConsumedQuota) = s'
    have hid : s'.relayInfo.tokenId = s.relayInfo.tokenId := by
      subst hs'
      exact addPostDelta_tokenId _ _
    cases htoken : s'.settleToken faults.token w₁ (quota - s.preConsumedQuota) with
    | error e => exact ⟨0, .refl _ _ _⟩
    | ok w₂ =>
      rw [← hid]
      exact ⟨_, settleToken_eq_ok s.funding.account htoken⟩

/-- What a settlement leaves taken is the quota it settled at exactly if it takes what is
missing. -/
theorem settle_net (faults : SettleFaults) (quota : ℤ) (h : Charged before w info created) :
    ∃ n, Net created.session.funding.account created.session.relayInfo.tokenId created.resets before
        (created.session.settle faults w quota).2.1 n ∧
      (n = quota ↔ SettlementTakes faults.funding w created quota) := by
  have hnet : Net created.session.funding.account created.session.relayInfo.tokenId created.resets
      before w (max 0 created.session.preConsumedQuota) := h.moves
  unfold SettlementTakes
  dsimp only
  rcases @settle_funding w quota faults created.session h.settled h.fundingSettled with
    ⟨hz, hw⟩ | ⟨hdelta, hsettle⟩
  · rw [hw]
    refine ⟨_, hnet, ?_⟩
    split <;> omega
  by_cases haccepted : Faultless faults.funding created.session.funding.account ∧
      Takes w (quota - created.session.preConsumedQuota) created.session.funding.account
  · obtain ⟨w₁, hok, hmoves⟩ := fundingSettle_of_takes created.session.relayInfo.tokenId hdelta
      haccepted.1 haccepted.2
    rw [hok] at hsettle
    obtain ⟨m, htoken⟩ := hsettle
    have hboth := hmoves.trans htoken
    rw [add_zero] at hboth
    refine ⟨_, hnet.trans hboth, ?_⟩
    by_cases hpos : 0 ≤ created.session.preConsumedQuota
    · rw [if_pos hpos]
      have hsum : max 0 created.session.preConsumedQuota +
          (quota - created.session.preConsumedQuota) = quota := by omega
      exact ⟨fun _ => .inr haccepted, fun _ => hsum⟩
    · rw [if_neg hpos]
      have hsum : max 0 created.session.preConsumedQuota +
          (quota - created.session.preConsumedQuota) ≠ quota := by omega
      exact ⟨fun hq => absurd hq hsum, fun hq => absurd haccepted hq.2⟩
  generalize hfund : created.session.funding.settle faults.funding w
    (quota - created.session.preConsumedQuota) = result at hsettle
  cases result with
  | error e =>
    have hw : (created.session.settle faults w quota).2.1 = w := hsettle
    rw [hw]
    refine ⟨_, hnet, ?_⟩
    simp only [haccepted, or_false, not_false_eq_true, and_true]
    split <;> omega
  | ok w₁ =>
    obtain ⟨m, htoken⟩ := hsettle
    obtain ⟨id, u, hid, hu, hneg, hmoves⟩ := fundingSettle_clamped
      created.session.relayInfo.tokenId hdelta haccepted hfund
    have hboth := hmoves.trans htoken
    rw [add_zero, zero_add] at hboth
    refine ⟨_, hnet.trans hboth, ?_⟩
    have hpos : 0 ≤ created.session.preConsumedQuota := by
      cases hf : created.session.funding with
      | wallet funding =>
        rw [hf] at hid
        cases hid
      | subscription funding => exact (h.subscription funding hf).2.1
    simp only [haccepted, or_false, if_pos hpos]
    omega

/-! ## Refund and recalculation of a task -/

/-- The source that a request pays from: without a session, its user's wallet. -/
def RelayInfo.account (info : RelayInfo) : Account :=
  match info.billing with
  | some created => created.session.funding.account
  | none => .user info.userId

def RelayInfo.resets (info : RelayInfo) : List ℕ :=
  match info.billing with
  | some created => created.resets
  | none => []

variable {resets : List ℕ} {start : World} {task : Task}
  {faults : TaskFaults}

/-- A refund gives the stored quota back. -/
theorem refundTaskQuota_net (hfaults : faults.funding = .none)
    (hnet : Net task.account task.privateData.tokenId resets start w task.quota)
    (htakes : Takes w (-task.quota) task.account) :
    Net task.account task.privateData.tokenId resets start (refundTaskQuota faults w task).1 0 := by
  unfold refundTaskQuota
  by_cases hz : task.quota = 0
  · rw [if_pos hz]
    rwa [hz] at hnet
  rw [if_neg hz]
  obtain ⟨w₁, hok, hmoves⟩ := taskAdjustFunding_takes task.privateData.tokenId (by omega) htakes
  obtain ⟨m, htoken⟩ := taskAdjustTokenQuota_moves faults w₁ task (-task.quota) task.account
  rw [hfaults, hok]
  have hback := hnet.trans (hmoves.trans htoken)
  rwa [add_zero, add_neg_cancel] at hback

/-- A recalculation takes the rest up to the actual quota. -/
theorem recalculateTaskQuota_net {actual : ℤ} (hfaults : faults.funding = .none) (hpos : 0 < actual)
    (hnet : Net task.account task.privateData.tokenId resets start w task.quota)
    (htakes : Takes w (actual - task.quota) task.account) :
    Net task.account task.privateData.tokenId resets start
      (recalculateTaskQuota faults w task actual).1 actual := by
  unfold recalculateTaskQuota
  rw [if_neg (by omega)]
  dsimp only
  by_cases hz : actual - task.quota = 0
  · rw [if_pos hz]
    have hactual : task.quota = actual := by omega
    rwa [hactual] at hnet
  rw [if_neg hz]
  obtain ⟨w₁, hok, hmoves⟩ := taskAdjustFunding_takes task.privateData.tokenId hz htakes
  obtain ⟨m, htoken⟩ := taskAdjustTokenQuota_moves faults w₁ task (actual - task.quota) task.account
  rw [hfaults, hok]
  have hrest := hnet.trans (hmoves.trans htoken)
  rwa [add_zero, add_sub_cancel] at hrest

/-! ## The request -/

/-- Nothing was charged for the request yet. -/
structure Fresh (before : World) (info : RelayInfo) : Prop where
  billing : info.billing = none
  preConsumed : info.finalPreConsumedQuota = 0
  source : info.billingSource = .unset
  new : before.store.records.find info.requestId = none

/-- The session that a request has, with what the request says of it. -/
structure HasSession (before after : World) (info : RelayInfo) (created : Created) : Prop where
  billing : info.billing = some created
  charged : Charged before after info.toRelayInfo created
  source : info.billingSource = created.session.funding.source
  subscriptionId : info.subscriptionId = created.session.relayInfo.subscriptionId

/-- A request as its attempts leave it. -/
def Attempted (before after : World) (info : RelayInfo) : Prop :=
  (after = before ∧ Fresh before info) ∨ ∃ created, HasSession before after info created

theorem Charged.of_info {info' : Billing.RelayInfo} (h : Charged before w info created)
    (huser : info'.userId = info.userId) (htoken : info'.tokenId = info.tokenId) :
    Charged before w info' created where
  settled := h.settled
  fundingSettled := h.fundingSettled
  moves := h.moves
  reports := ⟨h.reports.userId.trans huser.symm, h.reports.tokenId.trans htoken.symm,
    h.reports.quota, h.reports.source⟩
  wallet funding hf := (h.wallet funding hf).trans huser.symm
  subscription := h.subscription

variable {settings : TaskSettings} {a : TaskAttempt} {named after : RelayInfo} {w' : World}

theorem Attempted.same (h : Attempted before w named) (hsame : SameRequest named after) :
    Attempted before w after := by
  obtain ⟨g, hinfo⟩ := hsame.relayInfo
  have hfields : ∀ {α : Type} (f : Billing.RelayInfo → α),
      f after.toRelayInfo = f { named.toRelayInfo with usingGroup := g } := fun f => by rw [hinfo]
  rcases h with ⟨hw, hfresh⟩ | ⟨created, hsession⟩
  · exact .inl ⟨hw, hsame.billing.trans hfresh.billing,
      (hfields Billing.RelayInfo.finalPreConsumedQuota).trans hfresh.preConsumed,
      (hfields Billing.RelayInfo.billingSource).trans hfresh.source, by
        rw [hfields Billing.RelayInfo.requestId]
        exact hfresh.new⟩
  · exact .inr ⟨created, hsame.billing.trans hsession.billing,
      hsession.charged.of_info (hfields Billing.RelayInfo.userId) (hfields Billing.RelayInfo.tokenId),
      (hfields Billing.RelayInfo.billingSource).trans hsession.source,
      (hfields Billing.RelayInfo.subscriptionId).trans hsession.subscriptionId⟩

/-- The quota is consumed once, for the first attempt that gets a session. -/
theorem preConsumeTask_attempted {preCharge : Option ℤ} {result : Except TaskError Unit}
    (hroll : a.create.rollsBack) (h : Attempted before w named)
    (hpre : preConsumeTask settings a w named = (w', after, preCharge, result)) :
    Attempted before w' after ∧
      (result = .ok () → after.billing = none → named.priceData.freeModel = true) := by
  unfold preConsumeTask at hpre
  split at hpre
  · rename_i hskip
    cases hpre
    refine ⟨h, fun _ hnone => ?_⟩
    rw [hnone] at hskip
    exact hskip
  rename_i hbill
  rcases h with ⟨rfl, hfresh⟩ | ⟨created, hsession⟩
  · have hcharged := @newBillingSession_charged settings.billing a.create w
      { named with forcePreConsume := true }.toRelayInfo named.priceData.quota rfl hroll hfresh.new
    dsimp only at hpre
    generalize newBillingSession settings.billing a.create w
      (some { named with forcePreConsume := true }.toRelayInfo) named.priceData.quota = out at hpre hcharged
    obtain ⟨w₁, created | created⟩ := out
    · cases hpre
      have hw : w' = w := hcharged
      exact ⟨.inl ⟨hw, hfresh.billing, hfresh.preConsumed, hfresh.source, hfresh.new⟩, fun hr => by cases hr⟩
    · cases hpre
      have hcharged : Charged w w' { named with forcePreConsume := true }.toRelayInfo created := hcharged
      refine ⟨.inr ⟨created, rfl, hcharged.of_info rfl rfl, hcharged.reports.source, rfl⟩, fun _ hnone => ?_⟩
      cases hnone
  · rw [hsession.billing] at hbill
    exact absurd rfl hbill

theorem recalcQuotaFromRatios_zero {orders : RatioOrders} {priceData : PriceData}
    (hz : priceData.quota = 0) (ratios : OtherRatios) :
    recalcQuotaFromRatios orders priceData ratios = 0 := by
  have hbase : ∀ entries : List (String × ℚ), entries.foldl (fun (quota : ℤ) e =>
      if e.2 ≠ 1 ∧ 0 < e.2 then GoFloat.toInt (quota / e.2) else quota) 0 = 0 := by
    intro entries
    induction entries with
    | nil => rfl
    | cons e entries ih =>
      rw [List.foldl_cons]
      simpa using ih
  have hadjust : ∀ entries : List (String × ℚ), entries.foldl (fun (result : ℚ) e =>
      if e.2 ≠ 1 then result * e.2 else result) 0 = 0 := by
    intro entries
    induction entries with
    | nil => rfl
    | cons e entries ih =>
      rw [List.foldl_cons]
      simpa using ih
  unfold recalcQuotaFromRatios
  dsimp only
  rw [hz, hbase, Int.cast_zero, hadjust, GoFloat.toInt_zero]

/-- A price of a free model is 0 whatever its ratios. -/
theorem Priced.quota_of_free {base : ℤ} {adaptor : Adaptor} {priceData : PriceData}
    (h : Priced a adaptor named base priceData) (hfree : priceData.freeModel = true) :
    priceData.quota = 0 := by
  have hquota := h.quota
  rw [h.free hfree, applyRatios_zero, ite_self] at hquota
  exact hquota

/-- An attempt takes nothing or opens the session, and one that succeeds without a session
is free. -/
theorem relayTaskSubmit_attempted (settings : TaskSettings) {info : RelayInfo} (hroll : a.create.rollsBack)
    (h : Attempted before w info) :
    Attempted before (relayTaskSubmit settings a w info).world
        (relayTaskSubmit settings a w info).info ∧
      ∀ result, (relayTaskSubmit settings a w info).result = .ok result →
        (relayTaskSubmit settings a w info).info.billing = none → result.quota = 0 := by
  rcases relayTaskSubmit_cases settings a w info with ⟨⟨e, he⟩, hw, hsame⟩ |
    ⟨adaptor, named, base, w', after, preCharge, result, hpriced, hsame, hpre, hfin, hok⟩
  · rw [hw]
    refine ⟨h.same hsame, fun result hresult => ?_⟩
    rw [he] at hresult
    cases hresult
  obtain ⟨hafter, hfree⟩ := preConsumeTask_attempted hroll (h.same hsame) hpre
  obtain ⟨hdata, -⟩ := preConsumeTask_keeps settings a w named
  rw [hpre] at hdata
  obtain ⟨priceData, hinfo⟩ := hfin.same
  constructor
  · rw [hfin.world, hinfo]
    exact hafter.same ⟨rfl, ⟨after.usingGroup, rfl⟩, rfl⟩
  intro r hr hnone
  rw [hinfo] at hnone
  have hzero : after.priceData.quota = 0 := by
    rw [hdata]
    exact hpriced.quota_of_free (hfree (hok r hr) hnone)
  obtain ⟨hquota, hsame' | ⟨adjusted, hadjusted⟩⟩ := hfin.quota r hr
  · rw [hquota, hsame', hzero]
  · rw [hquota, hadjusted, recalcQuotaFromRatios_zero hzero]

/-! ## The stored quota -/

/-- The quota of a stored task is what was taken from its funding source.  So a refund
returns it and a recalculation leaves the actual quota taken, each where the source
takes the change; and the source takes the refund. -/
structure StoredIsTaken (before after : World) (info : RelayInfo) (task : Task) : Prop where
  taken : Net info.account info.tokenId info.resets before after task.quota
  refundable : Takes after (-task.quota) info.account
  refund : ∀ (faults : TaskFaults) (resets : List ℕ) (start w : World), faults.funding = .none →
    Net info.account info.tokenId resets start w task.quota → Takes w (-task.quota) info.account →
    Net info.account info.tokenId resets start (refundTaskQuota faults w task).1 0
  recalculate : ∀ (faults : TaskFaults) (resets : List ℕ) (start w : World) (actual : ℤ),
    faults.funding = .none → 0 < actual → Net info.account info.tokenId resets start w task.quota →
    Takes w (actual - task.quota) info.account →
    Net info.account info.tokenId resets start (recalculateTaskQuota faults w task actual).1 actual

/-- What was taken is one number: the account exists. -/
theorem Net.unique {account : Account} {n k : ℤ}
    (hrow : ∀ id, account = .subscription id → ∃ u, start.store.usage id = some u)
    (h : Net account tokenId resets start w n) (h' : Net account tokenId resets start w k) : n = k := by
  obtain ⟨m, hm⟩ := h
  obtain ⟨m', hm'⟩ := h'
  cases account with
  | user id =>
    have hn := hm.quota id
    have hk := hm'.quota id
    simp only [Account.fromUser, if_true] at hn hk
    omega
  | subscription id =>
    obtain ⟨u, hu⟩ := hrow id rfl
    have hn := hm.usage id
    have hk := hm'.usage id
    rw [hu] at hn hk
    rw [hn] at hk
    have hused := congrArg Usage.used (Option.some.inj hk)
    simp only [Account.fromSub, if_true, Usage.add] at hused
    omega

/-- A subscription that a session was opened on takes back what was taken since. -/
theorem Charged.takes_back {info : Billing.RelayInfo} {n : ℤ} (hsound : SoundStore before.store)
    (h : Charged before w info created)
    (hnet : Net created.session.funding.account created.session.relayInfo.tokenId created.resets before
      w' n) :
    Takes w' (-n) created.session.funding.account := by
  cases hf : created.session.funding with
  | wallet funding => exact trivial
  | subscription funding =>
    obtain ⟨hsub, hnonneg, -⟩ := h.subscription funding hf
    rw [hf] at hnet
    obtain ⟨m, hm⟩ := hnet
    obtain ⟨u, hu, hroom⟩ := hsub.within
    obtain ⟨sub, hfind, rfl⟩ := find_of_usage hu
    have hmem := Table.find_eq_some_iff.mp hfind
    have hused := hsound.used sub hmem.1
    have husage := hm.usage funding.subscriptionId
    rw [hu] at husage
    have hreset : 0 ≤ (sub.usage.resetIf (created.resets.contains funding.subscriptionId)).used := by
      unfold Usage.resetIf
      split
      · exact le_refl 0
      · exact hused
    refine ⟨hmem.2 ▸ hsound.id sub hmem.1, _, husage, ?_, fun ht => ?_⟩
    · simp only [FundingSource.account, Account.fromSub, if_true, Usage.add]
      omega
    · have := hroom (by simpa [Usage.add] using ht)
      simp only [FundingSource.account, Account.fromSub, if_true, Usage.add, Usage.resetIf_total]
      omega

/-- A stored task bills the source and the token of its request. -/
structure BillsRequest (info : RelayInfo) (task : Task) : Prop where
  account : task.account = info.account
  tokenId : task.privateData.tokenId = info.tokenId

theorem Fresh.bills {info : RelayInfo} (h : Fresh before info) (prices : PriceSettings) (now n : ℤ)
    (result : TaskSubmitResult) :
    BillsRequest info (initTask prices now { info with subscriptionPostDelta := n } result).toTask where
  account := by
    rw [Task.account_of_other]
    · unfold RelayInfo.account
      rw [h.billing]
      rfl
    · show info.billingSource ≠ _
      rw [h.source]
      simp
  tokenId := rfl

theorem HasSession.bills {info : RelayInfo} (hsound : SoundStore before.store)
    (h : HasSession before w info created) (prices : PriceSettings) (now n : ℤ)
    (result : TaskSubmitResult) :
    BillsRequest info (initTask prices now { info with subscriptionPostDelta := n } result).toTask where
  account := by
    have haccount : info.account = created.session.funding.account := by
      unfold RelayInfo.account
      rw [h.billing]
    have hsource := h.source
    rw [haccount]
    cases hf : created.session.funding with
    | wallet funding =>
      rw [hf] at hsource
      rw [Task.account_of_other]
      · show Account.user info.userId = Account.user funding.userId
        rw [h.charged.wallet funding hf]
      · show info.billingSource ≠ _
        rw [hsource]
        simp [FundingSource.source]
    | subscription funding =>
      rw [hf] at hsource
      obtain ⟨-, -, hid⟩ := h.charged.subscription funding hf
      have hback := h.charged.takes_back hsound h.charged.moves
      rw [hf] at hback
      rw [Task.account_of_subscription]
      · show Account.subscription info.subscriptionId = Account.subscription funding.subscriptionId
        rw [h.subscriptionId, hid]
      · exact hsource
      · show info.subscriptionId ≠ 0
        rw [h.subscriptionId, hid]
        exact hback.1
  tokenId := rfl

theorem BillsRequest.stored {info : RelayInfo} {after : World} (h : BillsRequest info task)
    (hnet : Net info.account info.tokenId info.resets before after task.quota)
    (hback : Takes after (-task.quota) info.account) : StoredIsTaken before after info task where
  taken := hnet
  refundable := hback
  refund faults resets start w hfaults hnet htakes := by
    rw [← h.account, ← h.tokenId] at hnet ⊢
    rw [← h.account] at htakes
    exact refundTaskQuota_net hfaults hnet htakes
  recalculate faults resets start w actual hfaults hpos hnet htakes := by
    rw [← h.account, ← h.tokenId] at hnet ⊢
    rw [← h.account] at htakes
    exact recalculateTaskQuota_net hfaults hpos hnet htakes

/-- A free request is charged nothing. -/
theorem Fresh.stored {info : RelayInfo} (h : Fresh before info) (hbills : BillsRequest info task)
    (hz : task.quota = 0) : StoredIsTaken before before info task := by
  have haccount : info.account = .user info.userId := by
    unfold RelayInfo.account
    rw [h.billing]
  have hresets : info.resets = [] := by
    unfold RelayInfo.resets
    rw [h.billing]
  apply hbills.stored
  · rw [hresets, hz]
    exact ⟨0, .refl _ _ _⟩
  · rw [haccount]
    exact trivial

theorem Charged.row {info : Billing.RelayInfo} (h : Charged before w info created) (id : ℕ)
    (hid : created.session.funding.account = .subscription id) :
    ∃ u, before.store.usage id = some u := by
  cases hf : created.session.funding with
  | wallet funding =>
    rw [hf] at hid
    cases hid
  | subscription funding =>
    rw [hf] at hid
    cases hid
    obtain ⟨u, hu, -⟩ := (h.subscription funding hf).1.within
    exact ⟨u, hu⟩

theorem HasSession.stored_iff {info : RelayInfo} {faults : SettleFaults}
    (hsound : SoundStore before.store) (h : HasSession before w info created)
    (hbills : BillsRequest info task) :
    StoredIsTaken before (created.session.settle faults w task.quota).2.1 info task ↔
      SettlementTakes faults.funding w created task.quota := by
  have haccount : info.account = created.session.funding.account := by
    unfold RelayInfo.account
    rw [h.billing]
  have hresets : info.resets = created.resets := by
    unfold RelayInfo.resets
    rw [h.billing]
  have htoken : info.tokenId = created.session.relayInfo.tokenId := h.charged.reports.tokenId.symm
  obtain ⟨n, hn, hiff⟩ := settle_net faults task.quota h.charged
  constructor
  · intro hstored
    have htaken := hstored.taken
    rw [haccount, hresets, htoken] at htaken
    exact hiff.mp (Net.unique h.charged.row hn htaken)
  · intro htakes
    rw [hiff.mpr htakes] at hn
    have hback := h.charged.takes_back hsound hn
    rw [← haccount] at hback
    rw [← haccount, ← hresets, ← htoken] at hn
    exact hbills.stored hn hback

/-- **The stored quota is what was taken** exactly where the settlement takes what is
missing.  Otherwise its error is only logged, and the task is stored with the quota of
its last attempt all the same. -/
theorem stored_quota_iff (settings : TaskSettings) (env : FinishEnv) (first : TaskAttempt)
    (rest : List TaskAttempt) (before : World) (info : RelayInfo) (task : SubmittedTask)
    (hfresh : Fresh before info) (hsound : SoundStore before.store)
    (hroll : ∀ a ∈ first :: rest, a.create.rollsBack)
    (h : (relayTask settings env first rest before info).result = .ok (some task)) :
    StoredIsTaken before (relayTask settings env first rest before info).world
        (relayAttempts settings rest first before info).info task.toTask ↔
      ∀ created, (relayAttempts settings rest first before info).info.billing = some created →
        SettlementTakes env.settle.funding (relayAttempts settings rest first before info).world created
          task.quota := by
  obtain ⟨result, n, hresult, htask, hworld⟩ := relayTask_eq_ok h
  obtain ⟨b, hb, w', info', hI, hok, hw, hinfo⟩ := relayAttempts_ok (I := Attempted before) rest first
    before info (fun a ha w info hI => (relayTaskSubmit_attempted settings (hroll a ha) hI).1)
    (.inl ⟨rfl, hfresh⟩) hresult
  obtain ⟨hattempted, hzero⟩ := relayTaskSubmit_attempted settings (hroll b hb) hI
  have hquota : result.quota = task.quota := by
    rw [htask]
    rfl
  have hzero := hzero result hok
  rw [← hw, ← hinfo] at hattempted
  rw [← hinfo, hquota] at hzero
  rw [hquota] at hworld
  generalize (relayAttempts settings rest first before info).world = w₁ at *
  generalize (relayAttempts settings rest first before info).info = relayed at *
  rw [hworld]
  rcases hattempted with ⟨rfl, hnone⟩ | ⟨created, hsession⟩
  · have hz := hzero hnone.billing
    have hbills := hnone.bills env.prices env.now n result
    rw [← htask] at hbills
    have hkeep : (settleBilling env.settle w₁ relayed.toRelayInfo
        (relayed.billing.map Created.session) task.quota).world = w₁ := by
      rw [hnone.billing, hz]
      unfold settleBilling
      dsimp only [Option.map_none]
      rw [hnone.preConsumed, if_neg (by simp)]
    rw [hkeep]
    refine ⟨fun _ created hcreated => ?_, fun _ => hnone.stored hbills hz⟩
    rw [hnone.billing] at hcreated
    cases hcreated
  · have hbills := hsession.bills hsound env.prices env.now n result
    rw [← htask] at hbills
    have hsettled : (settleBilling env.settle w₁ relayed.toRelayInfo
        (relayed.billing.map Created.session) task.quota).world =
        (created.session.settle env.settle w₁ task.quota).2.1 := by
      rw [hsession.billing]
      rfl
    rw [hsettled, hsession.stored_iff hsound hbills]
    refine ⟨fun htakes created' hcreated' => ?_, fun htakes => htakes created hsession.billing⟩
    rw [hsession.billing] at hcreated'
    rwa [← Option.some.inj hcreated']

theorem stored_quota_iff_sample :
    ∃ task, (relayTask taskSettings finishEnv sampleAttempt [] sampleWorld taskInfo).result =
        .ok (some task) ∧
      (StoredIsTaken sampleWorld (relayTask taskSettings finishEnv sampleAttempt [] sampleWorld
          taskInfo).world (relayAttempts taskSettings [] sampleAttempt sampleWorld taskInfo).info
          task.toTask ↔
        ∀ created, (relayAttempts taskSettings [] sampleAttempt sampleWorld taskInfo).info.billing =
            some created →
          SettlementTakes .none (relayAttempts taskSettings [] sampleAttempt sampleWorld
            taskInfo).world created task.quota) := by
  have hsome : ((relayTask taskSettings finishEnv sampleAttempt [] sampleWorld
      taskInfo).result.toOption.bind id).isSome = true := by decide +kernel
  obtain ⟨task, htask⟩ := stored_of_isSome hsome
  refine ⟨task, htask, stored_quota_iff taskSettings finishEnv sampleAttempt [] sampleWorld taskInfo task
    ⟨rfl, rfl, rfl, rfl⟩ ⟨fun sub hsub => ?_, fun sub hsub => ?_⟩ (fun a ha => ?_) htask⟩
  · exact absurd hsub List.not_mem_nil
  · exact absurd hsub List.not_mem_nil
  · rw [List.mem_singleton.mp ha]
    exact ⟨rfl, rfl⟩

/-- A subscription of 150, none of it used. -/
def smallPlanWorld : World :=
  { sampleWorld with
    store := ⟨⟨[⟨5, 7, 1, 150, 0, 0, 2000, .active, "order", 0, 0, "", ""⟩], by decide⟩, .empty⟩ }

def smallPlanFunding : FundingEnv :=
  { quietFunding with env := ⟨1000, fun _ => some ⟨1, .day, 1, 0, 0, "", 150, "never", 0⟩⟩ }

def smallPlanInfo : RelayInfo := { taskInfo with billingPreference := "subscription_only" }

/-- The upstream of the first group does not answer. -/
def firstAttempt : TaskAttempt :=
  { sampleAttempt with
    adaptor := some { sampleAdaptor with doRequest := some "connection refused" }
    create := { quietCreate with subscription := ⟨⟨none, none, none⟩, smallPlanFunding, none⟩ } }

/-- The next group costs twice as much. -/
def secondAttempt : TaskAttempt :=
  { sampleAttempt with
    autoGroup := some "vip"
    prices := { samplePrices with
      groups := ⟨fun group => if group = "vip" then some 2 else none, fun _ => none⟩ } }

/-- The first attempt pre-consumes 100 of a subscription of 150, the second one succeeds
at 200: its settlement is refused, and 200 is stored. -/
theorem stored_quota_overstated :
    Fresh smallPlanWorld smallPlanInfo ∧ SoundStore smallPlanWorld.store ∧
      ∃ task, (relayTask taskSettings finishEnv firstAttempt [secondAttempt] smallPlanWorld
          smallPlanInfo).result = .ok (some task) ∧ task.quota = 200 ∧
        ¬ StoredIsTaken smallPlanWorld (relayTask taskSettings finishEnv firstAttempt [secondAttempt]
            smallPlanWorld smallPlanInfo).world
          (relayAttempts taskSettings [secondAttempt] firstAttempt smallPlanWorld smallPlanInfo).info
          task.toTask := by
  have hrun : ((relayTask taskSettings finishEnv firstAttempt [secondAttempt] smallPlanWorld
      smallPlanInfo).result.toOption.bind id).map (fun task => task.quota) = some 200 := by
    decide +kernel
  have husage : (relayTask taskSettings finishEnv firstAttempt [secondAttempt] smallPlanWorld
      smallPlanInfo).world.store.usage 5 = some ⟨150, 100⟩ := by decide +kernel
  have haccount : (relayAttempts taskSettings [secondAttempt] firstAttempt smallPlanWorld
      smallPlanInfo).info.account = .subscription 5 := by decide +kernel
  obtain ⟨task, htask, hquota⟩ := Option.map_eq_some_iff.mp hrun
  obtain ⟨task', hstored⟩ := stored_of_isSome (Option.isSome_iff_exists.mpr ⟨task, htask⟩)
  rw [hstored] at htask
  obtain rfl : task' = task := Option.some.inj htask
  refine ⟨⟨rfl, rfl, rfl, rfl⟩, ⟨by decide, by decide⟩, task', hstored, hquota, fun h => ?_⟩
  obtain ⟨m, hm⟩ := h.taken
  have htaken := hm.usage 5
  have hbefore : smallPlanWorld.store.usage 5 = some ⟨150, 0⟩ := by decide
  rw [husage, haccount, hbefore, hquota] at htaken
  have hused := congrArg (Option.map Usage.used) htaken
  simp [Account.fromSub, Usage.add, Usage.resetIf] at hused

end Tasks
