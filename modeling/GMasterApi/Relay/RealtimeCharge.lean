import GMasterApi.Billing.WalletSession
import GMasterApi.Relay.Realtime
import GMasterApi.Relay.ServedGroup
import Mathlib.Algebra.Order.BigOperators.Group.List

/-!
# What a realtime session is charged

Each response is taken from the wallet as it is reported, and the settlement takes the sum
of all responses once more: it counts what the session pre-consumed at its start, but
not what its responses took (`realtime_charged_iff`).
-/

namespace Relay

open Billing Pricing GoFloat

variable {settings : RelaySettings} {c : Context} {info : WssInfo} {usage : RealtimeUsage}
  {unlimited : Bool} {need n : ℤ}

/-! ## Usages -/

instance : AddCommMonoid TokenDetails where
  add_assoc d e f := by
    show TokenDetails.mk _ _ = TokenDetails.mk _ _
    exact congrArg₂ TokenDetails.mk (add_assoc _ _ _) (add_assoc _ _ _)
  zero_add d := congrArg₂ TokenDetails.mk (zero_add d.textTokens) (zero_add d.audioTokens)
  add_zero d := congrArg₂ TokenDetails.mk (add_zero d.textTokens) (add_zero d.audioTokens)
  add_comm d e := by
    show TokenDetails.mk _ _ = TokenDetails.mk _ _
    exact congrArg₂ TokenDetails.mk (add_comm _ _) (add_comm _ _)
  nsmul := nsmulRec

instance : AddCommMonoid RealtimeUsage where
  add_assoc _ _ _ := RealtimeUsage.ext (add_assoc _ _ _) (add_assoc _ _ _) (add_assoc _ _ _)
    (add_assoc _ _ _) (add_assoc _ _ _) (add_assoc _ _ _)
  zero_add _ := RealtimeUsage.ext (zero_add _) (zero_add _) (zero_add _) (zero_add _) (zero_add _)
    (zero_add _)
  add_zero _ := RealtimeUsage.ext (add_zero _) (add_zero _) (add_zero _) (add_zero _) (add_zero _)
    (add_zero _)
  add_comm _ _ := RealtimeUsage.ext (add_comm _ _) (add_comm _ _) (add_comm _ _) (add_comm _ _)
    (add_comm _ _) (add_comm _ _)
  nsmul := nsmulRec

/-- The two usages that a session counts. -/
structure Counters where
  usage : RealtimeUsage
  localUsage : RealtimeUsage

/-- What a message leaves of them, and the usage that is pre-consumed with it. -/
def Counters.next (k : Counters) : RealtimeEvent → Counters × Option RealtimeUsage
  | .client textToken audioToken =>
    ({ k with localUsage := k.localUsage.addInput textToken audioToken }, none)
  | .responseDone (some reported) _ _ => (⟨0, 0⟩, some (k.usage + reported))
  | .responseDone none textToken audioToken =>
    ({ k with localUsage := 0 }, some (k.localUsage.addInput textToken audioToken))
  | .session => (k, none)
  | .target textToken audioToken =>
    ({ k with localUsage := k.localUsage.addOutput textToken audioToken }, none)

def Counters.run : List RealtimeEvent → Counters → Counters × List RealtimeUsage
  | [], k => (k, [])
  | e :: events, k =>
    let next := k.next e
    let rest := Counters.run events next.1
    (rest.1, next.2.toList ++ rest.2)

/-- A usage that is pre-consumed at the end, if it has tokens. -/
def leftover (usage : RealtimeUsage) : List RealtimeUsage :=
  if usage.totalTokens ≠ 0 then [usage] else []

/-- The usages that a session pre-consumes, in their order. -/
def WssEnv.usages (env : WssEnv) : List RealtimeUsage :=
  let out := Counters.run (env.messages.map Message.event) ⟨0, 0⟩
  out.2 ++ (leftover out.1.usage ++ leftover out.1.localUsage)

/-! ## Quotas -/

theorem calculateAudioQuota_of_ratio {prices : TextPriceSettings} {quotaInfo : QuotaInfo}
    (huse : quotaInfo.usePrice = false) :
    calculateAudioQuota prices quotaInfo = audioCharge (quotaInfo.groupRatio * quotaInfo.modelRatio)
      (quotaInfo.weighted prices * (quotaInfo.groupRatio * quotaInfo.modelRatio)) := by
  unfold calculateAudioQuota
  rw [if_neg (by rw [huse]; exact Bool.false_ne_true)]

theorem audioCharge_nonneg (x ratio : ℚ) : 0 ≤ audioCharge ratio (x * ratio) := by
  unfold audioCharge
  apply roundAway_nonneg
  split
  · exact zero_le_one
  · rename_i h
    rw [not_and_or, not_not, not_le] at h
    rcases h with hzero | hpos
    · rw [hzero, mul_zero]
    · exact hpos.le

/-- What is taken for a response. -/
def responseQuota (settings : RelaySettings) (c : Context) (info : WssInfo) (usage : RealtimeUsage) :
    ℤ :=
  calculateAudioQuota settings.prices
    (preWssInfo settings.prices info (c.autoGroup.getD info.usingGroup) usage)

/-- What is taken for all of them. -/
def bill (settings : RelaySettings) (c : Context) (info : WssInfo) (usages : List RealtimeUsage) : ℤ :=
  (usages.map (responseQuota settings c info)).sum

theorem bill_append (usages usages' : List RealtimeUsage) :
    bill settings c info (usages ++ usages') =
      bill settings c info usages + bill settings c info usages' := by
  unfold bill
  rw [List.map_append, List.sum_append]

@[simp] theorem bill_singleton (usage : RealtimeUsage) :
    bill settings c info [usage] = responseQuota settings c info usage :=
  add_zero _

/-- The wallet has `need` left, and so has the token unless it is unlimited. -/
structure Supplied (unlimited : Bool) (need : ℤ) (w : World) (info : WssInfo) : Prop where
  wallet : need ≤ w.quota info.userId
  token : unlimited = false → need ≤ (w.token info.tokenId).remainQuota

/-- Nothing fails, and no cache answers less than `need`. -/
structure PreWssEnv.Quiet (unlimited : Bool) (need : ℤ) (env : PreWssEnv) : Prop where
  userFault : env.userFault = none
  findFault : env.token.findFault = none
  consume : env.consume.Quiet
  userCached : ∀ quota, env.userCached = some quota → need ≤ quota
  unlimitedQuota : unlimited = true → env.unlimitedQuota = true
  tokenCached : unlimited = false → ∀ quota, env.token.cached = some quota → need ≤ quota

theorem PreWssEnv.Quiet.userQuota {env : PreWssEnv} (h : env.Quiet unlimited need) {w : World}
    (hsupplied : Supplied unlimited n w info) :
    ∃ quota, env.userQuota w info.userId = .ok quota ∧ min need n ≤ quota := by
  unfold PreWssEnv.userQuota
  cases hcached : env.userCached with
  | some quota => exact ⟨quota, rfl, min_le_of_left_le (h.userCached quota hcached)⟩
  | none =>
    rw [h.userFault]
    exact ⟨_, rfl, min_le_of_right_le hsupplied.wallet⟩

theorem PreWssEnv.Quiet.remainQuota {env : PreWssEnv} (h : env.Quiet unlimited need) {w : World}
    (hsupplied : Supplied unlimited n w info) :
    ∃ quota, env.token.remainQuota w info.tokenId = .ok quota ∧
      (env.unlimitedQuota = true ∨ min need n ≤ quota) := by
  have hlimited : ∀ quota, (unlimited = false → min need n ≤ quota) →
      env.unlimitedQuota = true ∨ min need n ≤ quota := by
    intro quota hquota
    cases hu : unlimited with
    | true => exact .inl (h.unlimitedQuota hu)
    | false => exact .inr (hquota hu)
  unfold TokenEnv.remainQuota
  cases hcached : env.token.cached with
  | some quota =>
    exact ⟨quota, rfl, hlimited quota fun hu => min_le_of_left_le (h.tokenCached hu quota hcached)⟩
  | none =>
    rw [h.findFault]
    exact ⟨_, rfl, hlimited _ fun hu => min_le_of_right_le (hsupplied.token hu)⟩

/-- No read and no update of a session fails. -/
structure WssEnv.Quiet (unlimited : Bool) (need : ℤ) (env : WssEnv) : Prop where
  fault : env.fault = none
  messages : ∀ m ∈ env.messages, m.env.Quiet unlimited need
  usageEnv : env.usageEnv.Quiet unlimited need
  localEnv : env.localEnv.Quiet unlimited need
  settle : env.settle.Quiet

/-! ## A session -/

section Session

variable {s s' s'' : Realtime} {usages usages' : List RealtimeUsage} {m : Message} {env : PreWssEnv}

/-- A session of `info`, which may have moved to the auto group, with `n` left to take. -/
structure Payable (c : Context) (info : WssInfo) (unlimited : Bool) (n : ℤ) (s : Realtime) :
    Prop where
  group : ∃ group, s.info = info.useGroup group ∧
    c.autoGroup.getD group = c.autoGroup.getD info.usingGroup
  supplied : Supplied unlimited n s.world info

/-- From `s` to `s'` the usages were pre-consumed: the wallet and the token paid for each, and
each is in the sum.  There is `n` left. -/
structure Billed (settings : RelaySettings) (c : Context) (info : WssInfo) (unlimited : Bool) (n : ℤ)
    (usages : List RealtimeUsage) (s s' : Realtime) : Prop where
  sum : s'.sumUsage = s.sumUsage + usages.sum
  moves : Moves (.user info.userId) info.tokenId [] (bill settings c info usages)
    (info.tokenShare (bill settings c info usages)) s.world s'.world
  payable : Payable c info unlimited n s'

/-- What is only counted moves nothing. -/
theorem Billed.counted (hpays : Payable c info unlimited (bill settings c info [] + n) s)
    (hworld : s'.world = s.world) (hinfo : s'.info = s.info) (hsum : s'.sumUsage = s.sumUsage) :
    Billed settings c info unlimited n [] s s' where
  sum := by rw [hsum, List.sum_nil, add_zero]
  moves := by
    show Moves _ _ [] 0 (info.tokenShare 0) _ _
    rw [hworld, tokenShare_zero]
    exact .refl _ _ _
  payable := by
    have hn : bill settings c info [] + n = n := zero_add n
    rw [hn] at hpays
    refine ⟨?_, ?_⟩
    · rw [hinfo]
      exact hpays.group
    · rw [hworld]
      exact hpays.supplied

theorem Billed.trans {n' : ℤ} (h : Billed settings c info unlimited n' usages s s')
    (h' : Billed settings c info unlimited n usages' s' s'') :
    Billed settings c info unlimited n (usages ++ usages') s s'' where
  sum := by rw [h'.sum, h.sum, List.sum_append, add_assoc]
  moves := by
    rw [bill_append, ← RelayInfo.tokenShare_add]
    exact h.moves.trans h'.moves
  payable := h'.payable

def Realtime.counters (s : Realtime) : Counters := ⟨s.usage, s.localUsage⟩

variable (huse : info.usePrice = false) (hsource : info.billingSource ≠ .subscription)

include huse

theorem responseQuota_nonneg (usage : RealtimeUsage) : 0 ≤ responseQuota settings c info usage := by
  unfold responseQuota
  rw [calculateAudioQuota_of_ratio huse]
  exact audioCharge_nonneg _ _

theorem bill_nonneg (usages : List RealtimeUsage) : 0 ≤ bill settings c info usages := by
  apply List.sum_nonneg
  intro q hq
  obtain ⟨u, -, rfl⟩ := List.mem_map.mp hq
  exact responseQuota_nonneg huse u

include hsource

/-- A response that is paid for by the wallet, which has enough. -/
theorem preWssConsumeQuota_takes (hquiet : env.Quiet unlimited need)
    (hneed : responseQuota settings c info usage ≤ need)
    (hn : responseQuota settings c info usage ≤ n) (hpays : Payable c info unlimited n s) :
    ∃ w', preWssConsumeQuota settings c env s.world s.info usage =
        (w', info.useGroup (c.autoGroup.getD info.usingGroup), .ok ()) ∧
      Moves (.user info.userId) info.tokenId [] (responseQuota settings c info usage)
        (info.tokenShare (responseQuota settings c info usage)) s.world w' := by
  obtain ⟨userQuota, huser, huserLe⟩ := hquiet.userQuota hpays.supplied
  obtain ⟨remainQuota, hremain, hremainLe⟩ := hquiet.remainQuota hpays.supplied
  have hmin := le_min hneed hn
  obtain ⟨group, hinfo, hgroup⟩ := hpays.group
  have hsource' : (info.useGroup (c.autoGroup.getD info.usingGroup)).toRelayInfo.billingSource ≠
      .subscription := hsource
  obtain ⟨w', hcall, hmoves⟩ := postConsumeQuota_wallet hquiet.consume hsource' s.world
    (responseQuota settings c info usage)
  refine ⟨w', ?_, hmoves⟩
  have huse' : (info.useGroup group).usePrice = false := huse
  have huser' : env.userQuota s.world (info.useGroup group).userId = .ok userQuota := huser
  have hremain' : env.token.remainQuota s.world (info.useGroup group).tokenId = .ok remainQuota :=
    hremain
  have hused : (info.useGroup group).useGroup (c.autoGroup.getD (info.useGroup group).usingGroup) =
      info.useGroup (c.autoGroup.getD info.usingGroup) := by
    rw [← hgroup]
    rfl
  have hquota : calculateAudioQuota settings.prices
      (preWssInfo settings.prices (info.useGroup (c.autoGroup.getD info.usingGroup))
        (info.useGroup (c.autoGroup.getD info.usingGroup)).usingGroup usage) =
      responseQuota settings c info usage := rfl
  have hshort : ¬ (!env.unlimitedQuota &&
      decide (remainQuota < responseQuota settings c info usage)) = true := by
    rw [Bool.and_eq_true, Bool.not_eq_true', decide_eq_true_eq]
    rintro ⟨hlimited, hlt⟩
    rcases hremainLe with hunlimited | hle
    · rw [hunlimited] at hlimited
      cases hlimited
    · omega
  unfold preWssConsumeQuota
  rw [hinfo, huse', if_neg Bool.false_ne_true, huser', hremain']
  dsimp only
  rw [hused, hquota, if_neg (by omega), if_neg hshort, hcall]

theorem preConsume_billed (usage : RealtimeUsage) (hquiet : env.Quiet unlimited need) (hn : 0 ≤ n)
    (hneed : bill settings c info [usage] ≤ need)
    (hpays : Payable c info unlimited (bill settings c info [usage] + n) s) :
    ∃ s', s.preConsume settings c env usage = (s', .ok ()) ∧
      Billed settings c info unlimited n [usage] s s' ∧ s'.counters = s.counters := by
  rw [bill_singleton] at hneed hpays
  have hnonneg := @responseQuota_nonneg settings c info huse usage
  obtain ⟨w', hcall, hmoves⟩ := preWssConsumeQuota_takes huse hsource hquiet hneed
    (le_add_of_nonneg_right hn) hpays
  unfold Realtime.preConsume
  rw [hcall]
  refine ⟨_, rfl, ⟨?_, ?_, ⟨_, rfl, ?_⟩, ?_, fun hu => ?_⟩, rfl⟩
  · rw [List.sum_singleton]
  · rw [bill_singleton]
    exact hmoves
  · cases c.autoGroup <;> rfl
  · have hwallet := hpays.supplied.wallet
    show n ≤ w'.quota info.userId
    rw [hmoves.quota]
    simp only [Account.fromUser, if_true]
    omega
  · have htoken := hpays.supplied.token hu
    show n ≤ (w'.token info.tokenId).remainQuota
    rw [hmoves.token, if_pos rfl]
    show n ≤ _ - info.tokenShare _
    unfold RelayInfo.tokenShare
    split <;> omega

/-- One message: it is counted, or a usage is taken. -/
theorem handle_billed (hquiet : m.env.Quiet unlimited need) (hn : 0 ≤ n)
    (hneed : bill settings c info (s.counters.next m.event).2.toList ≤ need)
    (hpays : Payable c info unlimited
      (bill settings c info (s.counters.next m.event).2.toList + n) s) :
    ∃ s', s.handle settings c m = (s', .ok ()) ∧
      Billed settings c info unlimited n (s.counters.next m.event).2.toList s s' ∧
      s'.counters = (s.counters.next m.event).1 := by
  unfold Realtime.handle
  cases hevent : m.event with
  | client textToken audioToken =>
    rw [hevent] at hpays
    exact ⟨_, rfl, .counted hpays rfl rfl rfl, rfl⟩
  | session =>
    rw [hevent] at hpays
    exact ⟨_, rfl, .counted hpays rfl rfl rfl, rfl⟩
  | target textToken audioToken =>
    rw [hevent] at hpays
    exact ⟨_, rfl, .counted hpays rfl rfl rfl, rfl⟩
  | responseDone reported textToken audioToken =>
    rw [hevent] at hneed hpays
    cases reported with
    | some reported =>
      have hreported : Payable c info unlimited (bill settings c info [s.usage + reported] + n)
          { s with usage := s.usage + reported } := ⟨hpays.group, hpays.supplied⟩
      obtain ⟨s₁, hcall, hbilled, -⟩ :=
        preConsume_billed huse hsource (s.usage + reported) hquiet hn hneed hreported
      dsimp only
      rw [hcall]
      exact ⟨_, rfl, ⟨hbilled.sum, hbilled.moves, hbilled.payable.group, hbilled.payable.supplied⟩,
        rfl⟩
    | none =>
      have hcounted : Payable c info unlimited
          (bill settings c info [s.localUsage.addInput textToken audioToken] + n)
          { s with localUsage := s.localUsage.addInput textToken audioToken } :=
        ⟨hpays.group, hpays.supplied⟩
      obtain ⟨s₁, hcall, hbilled, hcounters⟩ :=
        preConsume_billed huse hsource (s.localUsage.addInput textToken audioToken) hquiet hn hneed
          hcounted
      dsimp only
      rw [hcall]
      refine ⟨_, rfl, ⟨hbilled.sum, hbilled.moves, hbilled.payable.group, hbilled.payable.supplied⟩, ?_⟩
      exact congrArg (fun k => Counters.mk k.usage 0) hcounters

/-- All messages, by induction on them. -/
theorem handleAll_billed (hn : 0 ≤ n) :
    ∀ (messages : List Message) (s : Realtime), (∀ m ∈ messages, m.env.Quiet unlimited need) →
      bill settings c info (Counters.run (messages.map Message.event) s.counters).2 ≤ need →
      Payable c info unlimited
        (bill settings c info (Counters.run (messages.map Message.event) s.counters).2 + n) s →
      Billed settings c info unlimited n (Counters.run (messages.map Message.event) s.counters).2 s
          (Realtime.handleAll settings c messages s) ∧
        (Realtime.handleAll settings c messages s).counters =
          (Counters.run (messages.map Message.event) s.counters).1 := by
  intro messages
  induction messages with
  | nil =>
    intro s _ _ hpays
    exact ⟨.counted hpays rfl rfl rfl, rfl⟩
  | cons m messages ih =>
    intro s hquiet hneed hpays
    rw [List.map_cons] at hneed hpays ⊢
    unfold Counters.run at hneed hpays ⊢
    dsimp only at hneed hpays ⊢
    rw [bill_append] at hneed hpays
    rw [add_assoc] at hpays
    have hfirst := @bill_nonneg settings c info huse (s.counters.next m.event).2.toList
    have hlater := @bill_nonneg settings c info huse
      (Counters.run (messages.map Message.event) (s.counters.next m.event).1).2
    obtain ⟨s₁, hcall, hbilled, hcounters⟩ := handle_billed huse hsource
      (hquiet m List.mem_cons_self) (add_nonneg hlater hn) (by omega) hpays
    have hih := ih s₁ fun m' hm' => hquiet m' (List.mem_cons_of_mem _ hm')
    rw [hcounters] at hih
    obtain ⟨hbilled', hcounters'⟩ := hih (by omega) hbilled.payable
    unfold Realtime.handleAll
    rw [hcall]
    exact ⟨hbilled.trans hbilled', hcounters'⟩

theorem preConsumeRest_billed (hquiet : env.Quiet unlimited need) (hn : 0 ≤ n)
    (hneed : bill settings c info (leftover usage) ≤ need)
    (hpays : Payable c info unlimited (bill settings c info (leftover usage) + n) s) :
    Billed settings c info unlimited n (leftover usage) s (s.preConsumeRest settings c env usage) ∧
      (s.preConsumeRest settings c env usage).counters = s.counters := by
  unfold Realtime.preConsumeRest
  unfold leftover at hneed hpays ⊢
  split
  · rename_i htokens
    rw [if_pos htokens] at hneed hpays
    obtain ⟨s', hcall, hbilled, hcounters⟩ :=
      preConsume_billed huse hsource usage hquiet hn hneed hpays
    rw [hcall]
    exact ⟨hbilled, hcounters⟩
  · rename_i htokens
    rw [if_neg htokens] at hpays
    exact ⟨.counted hpays rfl rfl rfl, rfl⟩

/-- A whole session takes the usages that it counts. -/
theorem openaiRealtimeHandler_billed {env : WssEnv} {w : World}
    (hquiet : env.Quiet unlimited (bill settings c info env.usages))
    (hsupplied : Supplied unlimited (bill settings c info env.usages) w info) :
    Billed settings c info unlimited 0 env.usages ⟨w, info, 0, 0, 0⟩
      (openaiRealtimeHandler settings c env w info) := by
  have hpays : Payable c info unlimited (bill settings c info env.usages) ⟨w, info, 0, 0, 0⟩ :=
    ⟨⟨info.usingGroup, rfl, rfl⟩, hsupplied⟩
  generalize hneed : bill settings c info env.usages = need at hquiet hpays
  unfold WssEnv.usages at hneed ⊢
  unfold openaiRealtimeHandler
  have hcounters : (⟨0, 0⟩ : Counters) = Realtime.counters ⟨w, info, 0, 0, 0⟩ := rfl
  rw [hcounters] at hneed ⊢
  dsimp only at hneed ⊢
  generalize Realtime.mk w info 0 0 0 = start at hneed hpays ⊢
  have hall := fun n hn => @handleAll_billed settings c info unlimited need n huse hsource hn
    env.messages start hquiet.messages
  generalize Counters.run (env.messages.map Message.event) start.counters = out at hneed hall ⊢
  generalize Realtime.handleAll settings c env.messages start = s₁ at hall ⊢
  rw [bill_append, bill_append] at hneed
  have hmessages := @bill_nonneg settings c info huse out.2
  have husage := @bill_nonneg settings c info huse (leftover out.1.usage)
  have hlocal := @bill_nonneg settings c info huse (leftover out.1.localUsage)
  rw [← hneed] at hpays
  obtain ⟨hbilled, hcounters₁⟩ := hall _ (add_nonneg husage hlocal) (by omega) hpays
  have husage₁ : out.1.usage = s₁.usage := congrArg Counters.usage hcounters₁.symm
  have hlocal₁ : out.1.localUsage = s₁.localUsage := congrArg Counters.localUsage hcounters₁.symm
  rw [husage₁, hlocal₁] at hbilled hneed ⊢
  rw [husage₁] at husage
  rw [hlocal₁] at hlocal
  -- what was left when the messages ended
  obtain ⟨hbilled₁, hcounters₂⟩ := preConsumeRest_billed huse hsource hquiet.usageEnv hlocal
    (by omega) hbilled.payable
  have hlocal₂ : (s₁.preConsumeRest settings c env.usageEnv s₁.usage).localUsage = s₁.localUsage :=
    congrArg Counters.localUsage hcounters₂
  have hrest := hbilled₁.payable
  rw [← add_zero (bill settings c info (leftover s₁.localUsage))] at hrest
  obtain ⟨hbilled₂, -⟩ := preConsumeRest_billed huse hsource hquiet.localEnv le_rfl (by omega) hrest
  rw [hlocal₂]
  exact hbilled.trans (hbilled₁.trans hbilled₂)

end Session

/-! ## The settlement -/

/-- `calculateAudioQuota` of the summed usage, at the price of the request. -/
def sumQuota (settings : RelaySettings) (info : WssInfo) (usages : List RealtimeUsage) : ℤ :=
  calculateAudioQuota settings.prices (postWssInfo info info.upstreamModelName usages.sum)

/-- What is settled of a request that is not tiered: nothing where no tokens were reported. -/
def settledQuota (settings : RelaySettings) (info : WssInfo) (usages : List RealtimeUsage) : ℤ :=
  if usages.sum.totalTokens = 0 then 0 else sumQuota settings info usages

/-- What the settlement of a negative quote adds, which took nothing. -/
def negativeQuote (billing : Option Created) : ℤ := max 0 (-preConsumedOf billing)

variable {env : WssEnv} {before w : World} {request : RelayInfo} {upstreamModelName : String}

theorem tryTieredSettle_none {runExpr : RunExpr} {params : TokenParams}
    (hnone : request.tieredBillingSnapshot = none) : tryTieredSettle runExpr request params = none := by
  unfold tryTieredSettle
  rw [hnone]

/-- What the wallet and the token pay for a session: each response, and their sum again. -/
theorem wssHelper_takes (hfunded : WalletFunded before w request.toRelayInfo request.billing)
    (hnone : request.tieredBillingSnapshot = none)
    (hquiet : env.Quiet unlimited
      (bill settings c (request.initChannelMeta upstreamModelName) env.usages))
    (hsupplied : Supplied unlimited
      (bill settings c (request.initChannelMeta upstreamModelName) env.usages) w
      (request.initChannelMeta upstreamModelName)) :
    let info := request.initChannelMeta upstreamModelName
    let taken := negativeQuote request.billing + bill settings c info env.usages +
      settledQuota settings info env.usages
    Moves (.user request.userId) request.tokenId [] taken (request.tokenShare taken) before
      (wssHelper settings c env upstreamModelName w request).1 := by
  intro info taken
  have hbilled := openaiRealtimeHandler_billed rfl hfunded.source hquiet hsupplied
  unfold wssHelper
  rw [hquiet.fault]
  dsimp only
  generalize openaiRealtimeHandler settings c env w (request.initChannelMeta upstreamModelName) = s
    at hbilled ⊢
  obtain ⟨group, hinfo, -⟩ := hbilled.payable.group
  have hsum : s.sumUsage = env.usages.sum := by
    rw [hbilled.sum, zero_add]
  have hquota : postWssQuota settings env.runExpr s.info s.info.upstreamModelName s.sumUsage =
      settledQuota settings info env.usages := by
    rw [hinfo, hsum]
    unfold postWssQuota
    have huntiered : (info.useGroup group).toRequest.tieredBillingSnapshot = none := hnone
    rw [tryTieredSettle_none huntiered]
    rfl
  unfold postWssConsumeQuota
  rw [hquota, hinfo]
  have hresponses : Moves (.user request.userId) request.tokenId [] (bill settings c info env.usages)
      (request.tokenShare (bill settings c info env.usages)) w s.world := hbilled.moves
  have hsettled : Moves (.user request.userId) request.tokenId []
      (settledQuota settings info env.usages - preConsumedOf request.billing)
      (request.tokenShare (settledQuota settings info env.usages - preConsumedOf request.billing))
      s.world (settleBilling env.settle s.world (info.useGroup group).toRelayInfo
        (request.billing.map Created.session) (settledQuota settings info env.usages)).world :=
    (hfunded.usingGroup group).settle hquiet.settle s.world _
  have hmoves := (hfunded.opened.trans hresponses).trans hsettled
  rw [RelayInfo.tokenShare_add, RelayInfo.tokenShare_add] at hmoves
  have htaken : max 0 (preConsumedOf request.billing) + bill settings c info env.usages +
      (settledQuota settings info env.usages - preConsumedOf request.billing) = taken := by
    show _ = max 0 (-preConsumedOf request.billing) + _ + _
    omega
  rw [← htaken]
  exact hmoves

/-! ## Charged once -/

/-- The wallet and the token paid `quota`, up to one unit for each of `n` responses. -/
structure PaidAbout (before after : World) (info : Billing.RelayInfo) (quota : ℤ) (n : ℕ) : Prop where
  wallet : |before.quota info.userId - after.quota info.userId - quota| ≤ n
  token : |(before.token info.tokenId).remainQuota - (after.token info.tokenId).remainQuota -
    info.tokenShare quota| ≤ n

theorem paidAbout_iff {after : World} {info : Billing.RelayInfo} {taken quota : ℤ} {k : ℕ}
    (h : Moves (.user info.userId) info.tokenId [] taken (info.tokenShare taken) before after) :
    PaidAbout before after info quota k ↔ |taken - quota| ≤ k := by
  have hwallet : before.quota info.userId - after.quota info.userId = taken := by
    rw [h.quota]
    simp only [Account.fromUser, if_true]
    omega
  have htoken : (before.token info.tokenId).remainQuota - (after.token info.tokenId).remainQuota =
      info.tokenShare taken := by
    rw [h.token, if_pos rfl]
    show _ - (_ - info.tokenShare taken) = _
    omega
  refine ⟨fun hpaid => ?_, fun hle => ⟨?_, ?_⟩⟩
  · rw [← hwallet]
    exact hpaid.wallet
  · rw [hwallet]
    exact hle
  · rw [htoken]
    unfold RelayInfo.tokenShare
    split
    · simp
    · exact hle

/-- A request before it is priced. -/
structure Fresh (before : World) (info : RelayInfo) : Prop where
  billing : info.billing = none
  preConsumed : info.finalPreConsumedQuota = 0
  source : info.billingSource = .unset
  new : before.store.records.find info.requestId = none

/-- A request that is prepared, and that no subscription pays for. -/
theorem prepare_walletFunded {relayEnv : RelayEnv} {info prepared : RelayInfo}
    (hfresh : Fresh before info) (hroll : relayEnv.create.rollsBack)
    (hwallet : ∀ created, prepared.billing = some created → created.session.funding.source = .wallet)
    (h : prepare settings relayEnv c before info = (w, .ok prepared)) :
    WalletFunded before w prepared.toRelayInfo prepared.billing := by
  unfold prepare at h
  split at h
  · cases h
  rename_i usingGroup priced _
  dsimp only at h
  split at h
  · obtain ⟨rfl, hprepared⟩ := Prod.mk.inj h
    rw [← Except.ok.inj hprepared]
    refine ⟨?_, fun created hbilling => ?_, fun _ => ⟨rfl, hfresh.preConsumed⟩⟩
    · show info.billingSource ≠ .subscription
      rw [hfresh.source]
      decide
    · have hnone : info.billing = some created := hbilling
      rw [hfresh.billing] at hnone
      cases hnone
  · have hcreates := @newBillingSession_wallet settings.billing relayEnv.create before
      (info.setPrice usingGroup priced).toRelayInfo priced.priceData.quotaToPreConsume hroll hfresh.new
    generalize newBillingSession settings.billing relayEnv.create before
      (some (info.setPrice usingGroup priced).toRelayInfo) priced.priceData.quotaToPreConsume = out
      at h hcreates
    obtain ⟨after, result⟩ := out
    cases result with
    | error e => cases h
    | ok created =>
      obtain ⟨rfl, hprepared⟩ := Prod.mk.inj h
      rw [← Except.ok.inj hprepared] at hwallet ⊢
      have hs := hcreates (hwallet created rfl)
      exact hs.funded.usingGroup _

/-- A session that no subscription pays for. -/
theorem wssHelper_charged_iff (hfunded : WalletFunded before w request.toRelayInfo request.billing)
    (hnone : request.tieredBillingSnapshot = none)
    (hquiet : env.Quiet unlimited
      (bill settings c (request.initChannelMeta upstreamModelName) env.usages))
    (hsupplied : Supplied unlimited
      (bill settings c (request.initChannelMeta upstreamModelName) env.usages) w
      (request.initChannelMeta upstreamModelName)) :
    let info := request.initChannelMeta upstreamModelName
    let responses := negativeQuote request.billing + bill settings c info env.usages
    PaidAbout before (wssHelper settings c env upstreamModelName w request).1 request.toRelayInfo
        (sumQuota settings info env.usages) env.usages.length ↔
      if env.usages.sum.totalTokens = 0 then
        |responses - sumQuota settings info env.usages| ≤ env.usages.length
      else responses ≤ env.usages.length := by
  intro info responses
  rw [paidAbout_iff (wssHelper_takes hfunded hnone hquiet hsupplied)]
  have hbill : 0 ≤ bill settings c info env.usages := bill_nonneg rfl _
  have hnegative : 0 ≤ negativeQuote request.billing := le_max_left _ _
  have hresponses : 0 ≤ responses := add_nonneg hnegative hbill
  show |responses + settledQuota settings info env.usages - _| ≤ _ ↔ _
  unfold settledQuota
  split
  · rw [add_zero]
  · rw [add_sub_cancel_right, abs_of_nonneg hresponses]

/-- **A realtime session is charged for its summed usage**, up to one unit for each response,
exactly where its responses cost no more than that themselves: the settlement takes the
sum of what each response took already.  It takes nothing where no tokens were reported;
there the responses must come to the quota of their sum. -/
theorem realtime_charged_iff (settings : RelaySettings) (relayEnv : RelayEnv) (c c' : Context)
    (env : WssEnv) (before w : World) (info prepared : RelayInfo) (group : String × GroupRatioInfo)
    (upstreamModelName : String) (unlimited : Bool) (hfresh : Fresh before info)
    (hroll : relayEnv.create.rollsBack)
    (hprepare : prepare settings relayEnv c before info = (w, .ok prepared))
    (hwallet : ∀ created, prepared.billing = some created → created.session.funding.source = .wallet)
    (hratio : prepared.tieredBillingSnapshot = none)
    (hquiet : env.Quiet unlimited
      (bill settings c' ((prepared.regroup group).initChannelMeta upstreamModelName) env.usages))
    (hsupplied : Supplied unlimited
      (bill settings c' ((prepared.regroup group).initChannelMeta upstreamModelName) env.usages) w
      ((prepared.regroup group).initChannelMeta upstreamModelName)) :
    let served := (prepared.regroup group).initChannelMeta upstreamModelName
    let responses := negativeQuote prepared.billing + bill settings c' served env.usages
    let quota := sumQuota settings served env.usages
    PaidAbout before (wssHelper settings c' env upstreamModelName w (prepared.regroup group)).1
        served.toRelayInfo quota env.usages.length ↔
      if env.usages.sum.totalTokens = 0 then |responses - quota| ≤ env.usages.length
      else responses ≤ env.usages.length := by
  have hfunded : WalletFunded before w (prepared.regroup group).toRelayInfo
      (prepared.regroup group).billing :=
    (prepare_walletFunded hfresh hroll hwallet hprepare).usingGroup group.1
  exact wssHelper_charged_iff hfunded hratio hquiet hsupplied

/-- A model of ratio 1, of which a session pre-consumes 50 tokens. -/
def realtimeSettings : RelaySettings :=
  { tieredSettings with
    prices := { tieredSettings.prices with
      getBillingMode := fun _ => "ratio"
      getModelRatio := fun name => ⟨1, true, name⟩
      preConsumedQuota := 0 } }

def realtimeContext : Context := ⟨some "default", some 0⟩

def realtimePrepared : World × Except String RelayInfo :=
  prepare realtimeSettings tieredEnv realtimeContext sampleWorld tieredInfo

def quietPreWss : PreWssEnv := ⟨none, none, ⟨none, none, none⟩, false, ⟨.none, none⟩⟩

/-- One response of 40 tokens. -/
def realtimeEnv : WssEnv :=
  { fault := none
    messages := [⟨.responseDone (some ⟨40, 30, 10, 0, ⟨30, 0⟩, ⟨10, 0⟩⟩) 0 0, quietPreWss⟩]
    usageEnv := quietPreWss
    localEnv := quietPreWss
    runExpr := tieredRun
    settle := ⟨.none, none⟩ }

theorem realtimeEnv_quiet (need : ℤ) : realtimeEnv.Quiet false need := by
  have hquiet : quietPreWss.Quiet false need :=
    ⟨rfl, rfl, ⟨rfl, rfl⟩, fun _ h => (by cases h), fun h => (by cases h),
      fun _ _ h => (by cases h)⟩
  refine ⟨rfl, fun m hm => ?_, hquiet, hquiet, ⟨rfl, rfl⟩⟩
  rw [List.mem_singleton.mp hm]
  exact hquiet

theorem realtime_charged_iff_sample :
    ∃ prepared, realtimePrepared.2 = .ok prepared ∧
      let served := (prepared.regroup ("default", ⟨1, -1, false⟩)).initChannelMeta "gpt-5"
      let responses := negativeQuote prepared.billing +
        bill realtimeSettings realtimeContext served realtimeEnv.usages
      let quota := sumQuota realtimeSettings served realtimeEnv.usages
      PaidAbout sampleWorld (wssHelper realtimeSettings realtimeContext realtimeEnv "gpt-5"
          realtimePrepared.1 (prepared.regroup ("default", ⟨1, -1, false⟩))).1
          served.toRelayInfo quota realtimeEnv.usages.length ↔
        if realtimeEnv.usages.sum.totalTokens = 0 then |responses - quota| ≤ realtimeEnv.usages.length
        else responses ≤ realtimeEnv.usages.length := by
  have hrun : realtimePrepared.2.map (fun prepared =>
      let served := (prepared.regroup ("default", ⟨1, -1, false⟩)).initChannelMeta "gpt-5"
      (prepared.billing.map fun created => created.session.funding.source,
        prepared.tieredBillingSnapshot, served.userId, served.tokenId,
        bill realtimeSettings realtimeContext served realtimeEnv.usages)) =
      .ok (some .wallet, none, 7, 3, 40) := by decide +kernel
  have hrest : realtimePrepared.1.quota 7 = 50 ∧ (realtimePrepared.1.token 3).remainQuota = 50 := by
    decide +kernel
  obtain ⟨prepared, hok, hvalues⟩ := map_eq_ok hrun
  dsimp only at hvalues
  obtain ⟨hsource, hvalues⟩ := Prod.mk.inj hvalues
  obtain ⟨hsnap, hvalues⟩ := Prod.mk.inj hvalues
  obtain ⟨huser, hvalues⟩ := Prod.mk.inj hvalues
  obtain ⟨htoken, hbill⟩ := Prod.mk.inj hvalues
  refine ⟨prepared, hok, ?_⟩
  refine realtime_charged_iff realtimeSettings tieredEnv realtimeContext realtimeContext realtimeEnv
    sampleWorld realtimePrepared.1 tieredInfo prepared ("default", ⟨1, -1, false⟩) "gpt-5" false
    ⟨rfl, rfl, rfl, rfl⟩ ⟨rfl, rfl⟩ (Prod.ext rfl hok) (fun created hcreated => ?_) hsnap
    (realtimeEnv_quiet _) ⟨?_, fun _ => ?_⟩
  · rw [hcreated] at hsource
    exact Option.some.inj hsource
  · rw [hbill, huser, hrest.1]
    decide
  · rw [hbill, htoken, hrest.2]
    decide

/-- The session pays 80 for 40 tokens. -/
theorem realtime_charged_twice :
    ∃ prepared, realtimePrepared.2 = .ok prepared ∧
      sumQuota realtimeSettings (prepared.initChannelMeta "gpt-5") realtimeEnv.usages = 40 ∧
      ¬ PaidAbout sampleWorld (wssHelper realtimeSettings realtimeContext realtimeEnv "gpt-5"
        realtimePrepared.1 prepared).1 prepared.toRelayInfo 40 realtimeEnv.usages.length := by
  have hrun : realtimePrepared.2.map (fun prepared =>
      (sumQuota realtimeSettings (prepared.initChannelMeta "gpt-5") realtimeEnv.usages,
        sampleWorld.quota prepared.userId - (wssHelper realtimeSettings realtimeContext realtimeEnv
          "gpt-5" realtimePrepared.1 prepared).1.quota prepared.userId)) = .ok (40, 80) := by
    decide +kernel
  obtain ⟨prepared, hok, hvalues⟩ := map_eq_ok hrun
  obtain ⟨hquota, hpaid⟩ := Prod.mk.inj hvalues
  refine ⟨prepared, hok, hquota, fun h => ?_⟩
  have hwallet := h.wallet
  rw [hpaid] at hwallet
  have hone : realtimeEnv.usages.length = 1 := by decide
  rw [hone] at hwallet
  norm_num at hwallet

end Relay
