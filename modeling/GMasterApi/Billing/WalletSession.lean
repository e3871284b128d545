import GMasterApi.Billing.Conservation
import GMasterApi.Billing.Settle

/-!
# Sessions of a wallet

A session that the wallet pays for, of any quote: a negative one takes nothing, and the
settlement makes up for it.
-/

namespace Billing

variable {settings : Settings} {create : CreateEnv} {before w w' : World} {info : RelayInfo}
  {s : BillingSession} {quota now : ℤ}

theorem tokenShare_zero (info : RelayInfo) : info.tokenShare 0 = 0 := by
  unfold RelayInfo.tokenShare
  split <;> rfl

theorem tokenShare_congr {info' : RelayInfo} (h : info'.isPlayground = info.isPlayground) (n : ℤ) :
    info'.tokenShare n = info.tokenShare n := by
  unfold RelayInfo.tokenShare
  rw [h]

/-! ## Its creation -/

/-- The wallet of `info` and the token paid what the session counts as pre-consumed, if that is
positive, and nothing else has happened. -/
structure WalletSession (before after : World) (info : RelayInfo) (s : BillingSession) : Prop where
  settled : s.settled = false
  fundingSettled : s.fundingSettled = false
  account : s.funding.account = .user info.userId
  moves : Moves (.user info.userId) s.relayInfo.tokenId [] (max 0 s.preConsumedQuota)
    (s.relayInfo.tokenShare (max 0 s.preConsumedQuota)) before after
  reports : Reports info s

/-- A creation that fails has changed nothing, and one for which the wallet pays opens such a
session. -/
def WalletOrOther (before : World) (info : RelayInfo) : World × Except NewAPIError Created → Prop
  | (after, .error _) => after = before
  | (after, .ok created) =>
    created.session.funding.source = .wallet → WalletSession before after info created.session

theorem WalletSession.of_opened {created : Created} (h : Opened now before w info quota created)
    (hwallet : created.session.funding.source = .wallet) :
    WalletSession before w info created.session := by
  have hsource := h.source
  have hmoves := h.holds.moves
  cases hf : created.session.funding with
  | subscription funding =>
    rw [hf] at hwallet
    cases hwallet
  | wallet funding =>
    rw [hf] at hsource hmoves
    obtain ⟨huser, hresets, -⟩ := hsource
    have haccount : (FundingSource.wallet funding).account = .user info.userId := by
      show Account.user funding.userId = _
      rw [huser]
    rw [haccount, hresets] at hmoves
    refine ⟨h.holds.settled, h.holds.fundingSettled, by rw [hf, haccount], ?_, h.reports⟩
    rw [max_eq_right h.holds.nonneg]
    exact hmoves

theorem WalletOrOther.of_charges {out : World × Except NewAPIError Created}
    (h : ChargesOrNothing now before info quota out) : WalletOrOther before info out := by
  obtain ⟨after, result⟩ := out
  cases result with
  | error e => exact h
  | ok created => exact WalletSession.of_opened h

theorem WalletOrOther.of_userQuota (userQuota : ℤ) {out : World × Except NewAPIError Created}
    (h : WalletOrOther before { info with userQuota := userQuota } out) :
    WalletOrOther before info out := by
  obtain ⟨after, result⟩ := out
  cases result with
  | error e => exact h
  | ok created =>
    intro hwallet
    have hs := h hwallet
    exact ⟨hs.settled, hs.fundingSettled, hs.account, hs.moves,
      ⟨hs.reports.userId, hs.reports.tokenId, hs.reports.quota, hs.reports.source⟩⟩

/-- A subscription is asked for at least 1, whatever the quote. -/
theorem trySubscription_charges_max (quota userQuota : ℤ) (hroll : create.rollsBack)
    (hnew : w.store.records.find info.requestId = none) :
    ChargesOrNothing create.subscription.funding.env.now w { info with userQuota := userQuota }
      (max 0 quota) (trySubscription settings create w { info with userQuota := userQuota } quota) := by
  have hconsume : subConsume quota = subConsume (max 0 quota) := by
    unfold subConsume
    split <;> split <;> omega
  have hcharges := @trySubscription_charges settings w { info with userQuota := userQuota }
    (max 0 quota) create (le_max_left _ _) hroll hnew
  unfold trySubscription at hcharges ⊢
  rw [hconsume]
  exact hcharges

/-- A session of a wallet on which nothing was consumed. -/
def BillingSession.untaken (info : RelayInfo) (trusted : Bool) (quota : ℤ) : BillingSession :=
  { BillingSession.init info (.wallet ⟨info.userId, 0⟩) with
    trusted := trusted
    preConsumedQuota := if trusted then 0 else quota }

/-- The pre-consumption of a negative quote takes nothing. -/
theorem preConsume_negative (settings : Settings) (env : PreConsumeEnv) (w : World)
    (info : RelayInfo) (hquota : quota < 0) :
    (BillingSession.init info (.wallet ⟨info.userId, 0⟩)).preConsume settings env w quota =
      (w, .ok ⟨(BillingSession.untaken info ((BillingSession.init info
        (.wallet ⟨info.userId, 0⟩)).shouldTrust settings) quota).syncRelayInfo, []⟩) := by
  unfold BillingSession.preConsume BillingSession.consumeToken
  generalize (BillingSession.init info (.wallet ⟨info.userId, 0⟩)).shouldTrust settings = trusted
  have hle : (if trusted = true then 0 else quota) ≤ 0 := by
    split <;> omega
  simp only [BillingSession.init, FundingSource.preConsume, WalletFunding.preConsume,
    if_neg (not_lt.mpr hle), if_pos hle]
  rfl

theorem untaken_wallet (w : World) (info : RelayInfo) (trusted : Bool) (hquota : quota < 0) :
    WalletSession w w info (BillingSession.untaken info trusted quota).syncRelayInfo where
  settled := (sync_flags _).1
  fundingSettled := (sync_flags _).2.2
  account := by
    rw [sync_funding]
    rfl
  moves := by
    have hnone : max 0 (BillingSession.untaken info trusted quota).preConsumedQuota = 0 := by
      apply max_eq_left
      show (if trusted = true then 0 else quota) ≤ 0
      split <;> omega
    rw [sync_preConsumedQuota, hnone, tokenShare_zero]
    exact .refl _ _ _
  reports := reports_sync (BillingSession.untaken info trusted quota)

theorem tryWallet_negative (hquota : quota < 0) :
    (∃ userQuota, (tryWallet settings create w info quota).1 =
      { info with userQuota := userQuota }) ∧
      WalletOrOther w info (tryWallet settings create w info quota).2 := by
  unfold tryWallet
  cases hcheck : checkWallet settings create w info quota with
  | error e => exact ⟨⟨info.userQuota, rfl⟩, rfl⟩
  | ok info' =>
    obtain ⟨userQuota, rfl⟩ := checkWallet_eq_ok hcheck
    refine ⟨⟨userQuota, rfl⟩, WalletOrOther.of_userQuota userQuota ?_⟩
    dsimp only
    rw [preConsume_negative settings create.wallet w { info with userQuota := userQuota } hquota]
    exact fun _ => untaken_wallet w _ _ hquota

theorem newBillingSession_wallet (quota : ℤ) (hroll : create.rollsBack)
    (hnew : w.store.records.find info.requestId = none) :
    WalletOrOther w info (newBillingSession settings create w (some info) quota) := by
  unfold newBillingSession
  dsimp only
  split
  · exact rfl
  have hwallet : (∃ userQuota, (tryWallet settings create w info quota).1 =
      { info with userQuota := userQuota }) ∧
      WalletOrOther w info (tryWallet settings create w info quota).2 := by
    rcases lt_or_ge quota 0 with hneg | hpos
    · exact tryWallet_negative hneg
    · obtain ⟨hinfo, hcharges⟩ := tryWallet_charges 0 hpos hroll
      exact ⟨hinfo, .of_charges hcharges⟩
  refine tryPreferred_of (fun _ _ => Iff.rfl) (fun userQuota => ?_) hwallet.1 hwallet.2 _
  have hcharges := @trySubscription_charges_max settings create w info quota userQuota hroll hnew
  exact WalletOrOther.of_userQuota userQuota (.of_charges hcharges)

/-! ## What it pays -/

/-- No update of the quota of the user or of the token fails. -/
structure SettleFaults.Quiet (faults : SettleFaults) : Prop where
  funding : faults.funding.quota = none
  token : faults.token = none

/-- `PostConsumeQuota` of a request that no subscription pays for. -/
theorem postConsumeQuota_wallet {faults : SettleFaults} (hquiet : faults.Quiet)
    (hsource : info.billingSource ≠ .subscription) (w : World) (quota : ℤ) :
    ∃ w', postConsumeQuota faults w info quota = (w', info, .ok ()) ∧
      Moves (.user info.userId) info.tokenId [] quota (info.tokenShare quota) w w' := by
  have hfund : postConsumeFunding faults.funding w info quota =
      .ok (w.addQuota info.userId (-quota), info) := by
    unfold postConsumeFunding decreaseUserQuota increaseUserQuota
    rw [if_neg hsource, hquiet.funding]
    split
    · rw [updateQuota_none _ (by omega)]
      rfl
    · rw [updateQuota_none _ (by omega)]
      rfl
  have hpaid := moves_addQuota info.userId info.tokenId quota w
  generalize w.addQuota info.userId (-quota) = w₁ at hfund hpaid
  have htoken : (if 0 < quota then decreaseTokenQuota faults.token w₁ info.tokenId quota
      else increaseTokenQuota faults.token w₁ info.tokenId (-quota)) =
      .ok (w₁.addToken info.tokenId (-quota)) := by
    unfold decreaseTokenQuota increaseTokenQuota
    rw [hquiet.token]
    split
    · exact updateQuota_none _ (by omega)
    · exact updateQuota_none _ (by omega)
  unfold postConsumeQuota RelayInfo.tokenShare
  rw [hfund]
  dsimp only
  rw [htoken]
  split
  · exact ⟨_, rfl, hpaid⟩
  · have hmoves := hpaid.trans (moves_addToken (.user info.userId) info.tokenId quota w₁)
    rw [add_zero, zero_add] at hmoves
    exact ⟨_, rfl, hmoves⟩

theorem walletSettle_succeeds {faults : FundingFaults} (funding : WalletFunding)
    (hquiet : faults.quota = none) (w : World) (delta : ℤ) :
    ∃ w', (FundingSource.wallet funding).settle faults w delta = .ok w' := by
  simp only [FundingSource.settle, decreaseUserQuota, increaseUserQuota, hquiet]
  split
  · exact ⟨w, rfl⟩
  split
  · exact ⟨_, updateQuota_none _ (by omega)⟩
  · exact ⟨_, updateQuota_none _ (by omega)⟩

/-- A settlement fails only where its source or its token does. -/
theorem settle_not_error {faults : SettleFaults} {actual : ℤ} (hunpaid : s.fundingSettled = false)
    (htoken : faults.token = none)
    (hfund : s.funding.settle faults.funding w (actual - s.preConsumedQuota) = .ok w') (e : String) :
    s.settle faults w actual ≠ (s, w, .error e) := by
  intro hcall
  have herror : (s.settle faults w actual).2.2 = .error e := by
    rw [hcall]
  unfold BillingSession.settle at herror
  dsimp only at herror
  rw [hunpaid, if_neg Bool.false_ne_true, hfund, htoken] at herror
  split at herror
  · cases herror
  split at herror
  · cases herror
  generalize BillingSession.addPostDelta { s with fundingSettled := true, settled := true }
    (actual - s.preConsumedQuota) = s' at herror
  dsimp only at herror
  obtain ⟨w₂, hw₂⟩ := settleToken_succeeds s' w' (actual - s.preConsumedQuota)
  rw [hw₂] at herror
  cases herror

/-- The settlement of such a session takes the rest, whatever has happened since. -/
theorem WalletSession.settle {faults : SettleFaults} {after : World}
    (h : WalletSession before after info s) (hquiet : faults.Quiet) (w : World) (actual : ℤ) :
    Moves (.user info.userId) s.relayInfo.tokenId [] (actual - s.preConsumedQuota)
      (s.relayInfo.tokenShare (actual - s.preConsumedQuota)) w (s.settle faults w actual).2.1 := by
  obtain ⟨funding, hf⟩ : ∃ funding, s.funding = .wallet funding := by
    have haccount := h.account
    cases hf : s.funding with
    | wallet funding => exact ⟨funding, rfl⟩
    | subscription funding =>
      rw [hf] at haccount
      cases haccount
  have hclamp : s.funding.Unclamped w (actual - s.preConsumedQuota) := by
    rw [hf]
    exact trivial
  rcases settle_takes h.settled h.fundingSettled fun _ => hclamp with
    ⟨e, hcall⟩ | ⟨s', w₁, w', r, hcall, -, -, hpaid, ⟨-, htoken⟩ | ⟨hfault, -⟩⟩
  · obtain ⟨w₁, hfund⟩ := walletSettle_succeeds funding hquiet.funding w (actual - s.preConsumedQuota)
    rw [← hf] at hfund
    exact absurd hcall (settle_not_error h.fundingSettled hquiet.token hfund e)
  · rw [hcall]
    have hmoves := hpaid.trans htoken
    rw [add_zero, zero_add, h.account] at hmoves
    exact hmoves
  · exact absurd hquiet.token hfault

/-! ## A request that the wallet pays for -/

/-- No subscription pays for the request: its session is one of the wallet, or it has none and
was not charged. -/
structure WalletFunded (before after : World) (info : RelayInfo) (billing : Option Created) :
    Prop where
  source : info.billingSource ≠ .subscription
  session : ∀ created, billing = some created → WalletSession before after info created.session ∧
    created.session.relayInfo.isPlayground = info.isPlayground
  none : billing = none → after = before ∧ info.finalPreConsumedQuota = 0

/-- What `SettleBilling` counts as pre-consumed. -/
def preConsumedOf : Option Created → ℤ
  | none => 0
  | some created => created.session.preConsumedQuota

variable {billing : Option Created} {after : World}

/-- What the request has paid before it is sent. -/
theorem WalletFunded.opened (h : WalletFunded before after info billing) :
    Moves (.user info.userId) info.tokenId [] (max 0 (preConsumedOf billing))
      (info.tokenShare (max 0 (preConsumedOf billing))) before after := by
  cases billing with
  | none =>
    obtain ⟨rfl, -⟩ := h.none rfl
    show Moves _ _ [] (max 0 0) (info.tokenShare (max 0 0)) _ _
    rw [max_self, tokenShare_zero]
    exact .refl _ _ _
  | some created =>
    obtain ⟨hs, hplayground⟩ := h.session created rfl
    have hmoves := hs.moves
    rw [hs.reports.tokenId, tokenShare_congr hplayground] at hmoves
    exact hmoves

/-- What its settlement adds, whatever has happened since. -/
theorem WalletFunded.settle {faults : SettleFaults} (h : WalletFunded before after info billing)
    (hquiet : faults.Quiet) (w : World) (actual : ℤ) :
    Moves (.user info.userId) info.tokenId [] (actual - preConsumedOf billing)
      (info.tokenShare (actual - preConsumedOf billing)) w
      (settleBilling faults w info (billing.map Created.session) actual).world := by
  cases billing with
  | none =>
    obtain ⟨-, hpre⟩ := h.none rfl
    unfold settleBilling preConsumedOf
    dsimp only [Option.map_none]
    rw [hpre, sub_zero]
    by_cases hz : actual = 0
    · rw [if_neg (not_not.mpr hz), hz, tokenShare_zero]
      exact .refl _ _ _
    · rw [if_pos hz]
      obtain ⟨w', hcall, hmoves⟩ := postConsumeQuota_wallet hquiet h.source w actual
      rw [hcall]
      exact hmoves
  | some created =>
    obtain ⟨hs, hplayground⟩ := h.session created rfl
    have hmoves := hs.settle hquiet w actual
    rw [hs.reports.tokenId, tokenShare_congr hplayground] at hmoves
    exact hmoves

/-- The group of a request is no matter of who pays. -/
theorem WalletFunded.usingGroup (h : WalletFunded before after info billing) (group : String) :
    WalletFunded before after { info with usingGroup := group } billing where
  source := h.source
  none := h.none
  session created hbilling := by
    obtain ⟨hs, hplayground⟩ := h.session created hbilling
    exact ⟨⟨hs.settled, hs.fundingSettled, hs.account, hs.moves,
      ⟨hs.reports.userId, hs.reports.tokenId, hs.reports.quota, hs.reports.source⟩⟩, hplayground⟩

/-- The request of a session, which shares its relay info. -/
theorem WalletSession.funded {created : Created}
    (h : WalletSession before after info created.session) :
    WalletFunded before after created.session.relayInfo (some created) where
  source := by
    have haccount := h.account
    rw [h.reports.source]
    intro hsource
    cases hf : created.session.funding with
    | wallet funding =>
      rw [hf] at hsource
      cases hsource
    | subscription funding =>
      rw [hf] at haccount
      cases haccount
  session created' hbilling := by
    obtain rfl := Option.some.inj hbilling
    refine ⟨⟨h.settled, h.fundingSettled, ?_, ?_, ⟨rfl, rfl, h.reports.quota, h.reports.source⟩⟩, rfl⟩
    · rw [h.reports.userId]
      exact h.account
    · rw [h.reports.userId]
      exact h.moves
  none hbilling := by cases hbilling

end Billing
