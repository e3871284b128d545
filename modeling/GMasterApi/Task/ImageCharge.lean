import GMasterApi.Billing.Conservation
import GMasterApi.Task.BilledOnce
import GMasterApi.Task.ImageJob

/-!
# What an image job is charged

Once a job and the sweeps of its task are done, its funding source has paid what the
relay settled at if the task succeeded, and nothing if it failed
(`image_job_charged_exactly`), where no sweep wins against a relay that settles at
another amount than was pre-consumed (`sweep_under_relay_charges`).
-/

namespace Tasks

open Billing Subscription GoString Transition

/-! ## Refunds of a task -/

/-- The source that the billing of a task adjusts. -/
def Task.account (task : Task) : Account :=
  if task.isSubscription then .subscription task.privateData.subscriptionId else .user task.userId

/-- A refund can give `n` back: the subscription was charged it. -/
def GivesBack (w : World) (n : ℤ) : Account → Prop
  | .user _ => True
  | .subscription id => id ≠ 0 ∧ ∃ u : Usage, w.store.usage id = some (u.add n) ∧ 0 ≤ u.used ∧
      (0 < u.total → u.used + n ≤ u.total)

/-- The account takes a change of `delta`: a subscription stays between 0 and its total. -/
def Takes (w : World) (delta : ℤ) : Account → Prop
  | .user _ => True
  | .subscription id => id ≠ 0 ∧ ∃ u : Usage, w.store.usage id = some u ∧ 0 ≤ u.used + delta ∧
      (0 < u.total → u.used + delta ≤ u.total)

theorem GivesBack.takes {w : World} {n : ℤ} {account : Account} (hpos : 0 < n)
    (h : GivesBack w n account) : Takes w (-n) account := by
  cases account with
  | user id => exact trivial
  | subscription id =>
    obtain ⟨hid, u, hu, hused, hroom⟩ := h
    refine ⟨hid, _, hu, ?_, fun ht => ?_⟩
    · show 0 ≤ u.used + n + -n
      omega
    · have hfit := hroom ht
      show u.used + n + -n ≤ u.total
      omega

variable {faults : TaskFaults} {w : World} {task : Task}

theorem Task.account_of_other (h : task.privateData.billingSource ≠ .subscription) :
    task.account = .user task.userId := by
  unfold Task.account Task.isSubscription
  simp [h]

theorem Task.account_of_subscription (h : task.privateData.billingSource = .subscription)
    (hid : task.privateData.subscriptionId ≠ 0) :
    task.account = .subscription task.privateData.subscriptionId := by
  unfold Task.account Task.isSubscription
  simp [h, Nat.pos_of_ne_zero hid]

theorem taskAdjustFunding_takes {delta : ℤ} (tokenId : ℕ) (hdelta : delta ≠ 0)
    (htakes : Takes w delta task.account) :
    ∃ w', taskAdjustFunding .none w task delta = .ok w' ∧
      Moves task.account tokenId [] delta 0 w w' := by
  unfold taskAdjustFunding
  unfold Task.account at htakes ⊢
  by_cases hsub : task.isSubscription = true
  · rw [if_pos hsub] at htakes ⊢
    rw [if_pos hsub]
    obtain ⟨hid, u, hu, hle, hfit⟩ := htakes
    obtain ⟨w', hw', hmoves, -⟩ := postConsume_takes tokenId hid hdelta hu hle hfit
    exact ⟨w', hw', hmoves⟩
  rw [if_neg hsub, if_neg hsub]
  split
  · rename_i hpos
    exact ⟨_, updateQuota_none _ hpos.le, moves_addQuota _ _ _ _⟩
  · refine ⟨_, updateQuota_none _ (by omega), ?_⟩
    exact moves_addQuota task.userId tokenId delta w

/-- The token takes what it takes. -/
theorem taskAdjustTokenQuota_moves (faults : TaskFaults) (w : World) (task : Task) (delta : ℤ)
    (account : Account) :
    ∃ m, Moves account task.privateData.tokenId [] 0 m w
      (taskAdjustTokenQuota faults w task delta) := by
  unfold taskAdjustTokenQuota
  split
  · exact ⟨0, .refl _ _ _⟩
  split
  · exact ⟨0, .refl _ _ _⟩
  split
  · exact ⟨0, .refl _ _ _⟩
  · rename_i w' hw'
    split at hw'
    · rw [(updateQuota_eq_ok hw').2]
      exact ⟨delta, moves_addToken _ _ _ _⟩
    · rw [(updateQuota_eq_ok hw').2]
      exact ⟨delta, by simpa using moves_addToken account task.privateData.tokenId delta w⟩

/-- A refund whose funding is updated gives the quota of the task back to its source. -/
theorem refundTaskQuota_gives (hpos : 0 < task.quota) (hfaults : faults.funding = .none)
    (hback : GivesBack w task.quota task.account) :
    ∃ w' m, refundTaskQuota faults w task = (w', task.quota) ∧
      Moves task.account task.privateData.tokenId [] (-task.quota) m w w' := by
  obtain ⟨w₁, hfund, hgiven⟩ :=
    taskAdjustFunding_takes task.privateData.tokenId (by omega) (hback.takes hpos)
  obtain ⟨m, htoken⟩ := taskAdjustTokenQuota_moves faults w₁ task (-task.quota) task.account
  have hmoves := hgiven.trans htoken
  rw [add_zero, zero_add] at hmoves
  refine ⟨_, m, ?_, hmoves⟩
  unfold refundTaskQuota
  rw [if_neg (by omega), hfaults, hfund]

/-! ## A job as it was submitted -/

/-- `n` was taken from the source that the session was opened on. -/
def NetTaken (submitted : Submitted) (before after : World) (n : ℤ) : Prop :=
  ∃ m, Moves submitted.session.funding.account submitted.session.relayInfo.tokenId submitted.resets
    n m before after

/-- What was pre-consumed is held by the session and by the task. -/
structure Submission (before after : World) (submitted : Submitted) : Prop where
  settled : submitted.session.settled = false
  fundingSettled : submitted.session.fundingSettled = false
  quota : submitted.session.preConsumedQuota = submitted.task.quota
  account : submitted.session.funding.account = submitted.task.account
  tokenId : submitted.session.relayInfo.tokenId = submitted.task.privateData.tokenId
  status : submitted.task.status = .queued
  taken : NetTaken submitted before after submitted.task.quota
  back : ∀ w, NetTaken submitted before w submitted.task.quota →
    GivesBack w submitted.task.quota submitted.task.account

variable {before world : World} {submitted : Submitted}

theorem relayImageGenerationAsync_eq_ok {settings : Settings} {env : SubmitEnv} {info : RelayInfo}
    {quota : ℤ}
    (h : relayImageGenerationAsync settings env before info quota = (world, .ok submitted)) :
    ∃ created, prepareAsyncImageRelay settings env.create before info quota = (world, .ok created) ∧
      submitted = ⟨created.session, created.resets,
        initAsyncImageTask env created.session.relayInfo⟩ := by
  unfold relayImageGenerationAsync at h
  split at h
  · cases h
  · rename_i w created hprepare
    split at h
    · cases h
    · cases h
    · cases h
      exact ⟨created, hprepare, rfl⟩

/-- What an opened session holds can be given back. -/
theorem opened_givesBack {now quota : ℤ} {info : RelayInfo} {created : Created} {m : ℤ} {w : World}
    {funding : SubscriptionFunding} (hsound : SoundStore before.store)
    (h : Opened now before world info quota created)
    (hf : created.session.funding = .subscription funding)
    (hw : Moves created.session.funding.account created.session.relayInfo.tokenId created.resets
      created.session.preConsumedQuota m before w) :
    GivesBack w created.session.preConsumedQuota (.subscription funding.subscriptionId) := by
  rw [hf] at hw
  obtain ⟨u, hused, hu, hroom, hid⟩ := (h.holds.subscription funding hf).usage hsound hw
  exact ⟨hid, u, hu, hused, hroom⟩

/-- The task of a job names the source, the token and the quota of its session. -/
theorem submission_of_ok {settings : Settings} {env : SubmitEnv} {info : RelayInfo} {quota : ℤ}
    (hquota : 0 ≤ quota) (hroll : env.create.rollsBack)
    (hnew : before.store.records.find info.requestId = none) (hsound : SoundStore before.store)
    (h : relayImageGenerationAsync settings env before info quota = (world, .ok submitted)) :
    Submission before world submitted := by
  obtain ⟨created, hprepare, rfl⟩ := relayImageGenerationAsync_eq_ok h
  have hopened := @newBillingSession_opened settings before { info with forcePreConsume := true }
    quota env.create hquota hroll hnew
  unfold prepareAsyncImageRelay at hprepare
  rw [hprepare] at hopened
  have hopened : Opened env.create.subscription.funding.env.now before world
    { info with forcePreConsume := true } quota created := hopened
  have hholds := hopened.holds
  have hsource := hopened.source
  have hreports := hopened.reports
  have hquota' : created.session.preConsumedQuota =
      created.session.relayInfo.finalPreConsumedQuota := hreports.quota.symm
  have haccount : created.session.funding.account =
      (initAsyncImageTask env created.session.relayInfo).account := by
    cases hf : created.session.funding with
    | wallet funding =>
      rw [hf] at hsource
      have hwallet : (initAsyncImageTask env created.session.relayInfo).privateData.billingSource ≠
          .subscription := by
        show created.session.relayInfo.billingSource ≠ _
        rw [hreports.source, hf]
        simp [FundingSource.source]
      rw [Task.account_of_other hwallet]
      show Account.user funding.userId = Account.user created.session.relayInfo.userId
      rw [hreports.userId, hsource.1]
    | subscription funding =>
      have hsub : (initAsyncImageTask env created.session.relayInfo).privateData.billingSource =
          .subscription := by
        show created.session.relayInfo.billingSource = _
        rw [hreports.source, hf]
        rfl
      have hid := (opened_givesBack hsound hopened hf hholds.moves).1
      rw [← hholds.synced funding hf] at hid
      rw [Task.account_of_subscription hsub hid]
      show Account.subscription funding.subscriptionId =
        Account.subscription created.session.relayInfo.subscriptionId
      rw [hholds.synced funding hf]
  refine ⟨hholds.settled, hholds.fundingSettled, hquota', haccount, rfl, rfl, ?_, ?_⟩
  · refine ⟨created.session.relayInfo.tokenShare created.session.preConsumedQuota, ?_⟩
    show Moves _ _ _ created.session.relayInfo.finalPreConsumedQuota _ _ _
    rw [← hquota']
    exact hholds.moves
  · rintro w ⟨m, hw⟩
    show GivesBack w created.session.relayInfo.finalPreConsumedQuota
      (initAsyncImageTask env created.session.relayInfo).account
    have hw' : Moves created.session.funding.account created.session.relayInfo.tokenId
      created.resets created.session.relayInfo.finalPreConsumedQuota m before w := hw
    rw [← hquota'] at hw' ⊢
    rw [← haccount]
    cases hf : created.session.funding with
    | wallet funding => exact trivial
    | subscription funding => exact opened_givesBack hsound hopened hf hw'


/-! ## Charged exactly -/

/-- The job has returned, and no sweep is between its write and its refund. -/
def ImageJob.finished (s : ImageJob) : Prop :=
  s.step = .done ∧ ∀ i, (s.copies i).next.busy = false

/-- **Charged exactly** what is delivered: the quota that the relay settled at, if the
stored task succeeded, and nothing if it failed.  A settlement that failed leaves what
was pre-consumed. -/
structure ChargedExactly (submitted : Submitted) (before : World) (s : ImageJob) : Prop where
  succeeded : s.finished → s.row.status = .success →
    NetTaken submitted before s.world (s.settledAt.getD submitted.task.quota)
  failed : s.finished → s.row.status = .failure → NetTaken submitted before s.world 0

/-- A sweep that wins finds a task that is not legacy and a session that was not settled
at another amount than the task's quota; a relay that settles at another amount finds
the row in progress, replies with an image and does not take the usage of a
subscription below zero; the funding of a refund is updated. -/
def JobOk (s : ImageJob) : JobAction → Prop
  | .attempt (.replied _ actualQuota code body) =>
    actualQuota ≠ s.session.preConsumedQuota →
      s.row.status = .inProgress ∧ (RelayReply.response code body).delivers = true ∧
        s.session.funding.Unclamped s.world (actualQuota - s.session.preConsumedQuota)
  | .sweep i fault _ =>
    fault = none → s.row.status = (s.copies i).task.status →
      (s.copies i).task.isLegacy = false ∧
        ∀ actualQuota, s.settledAt = some actualQuota → actualQuota = (s.copies i).task.quota
  | .refund faults | .sweepRefund _ faults => faults.funding = .none
  | _ => True

/-! ## Who owes a refund -/

def JobStep.owes : JobStep → Bool
  | .refunding _ => true
  | _ => false

/-- The job (`none`) or the sweep `i` has a refund to make. -/
def ImageJob.owes (s : ImageJob) : Option ℕ → Prop
  | none => s.step.owes = true
  | some i => (s.copies i).next.owes = true

/-- A task that failed is refunded, or exactly one party still has to refund it. -/
structure Debt (q : ℤ) (s : ImageJob) : Prop where
  free : s.row.status ≠ .failure → s.refunded = 0 ∧ ∀ o, ¬ s.owes o
  due : s.row.status = .failure → (s.refunded = q ∧ ∀ o, ¬ s.owes o) ∨
    (s.refunded = 0 ∧ ∃ o, s.owes o ∧ ∀ o', s.owes o' → o' = o)

variable {q : ℤ} {s t : ImageJob}

theorem Debt.same (h : Debt q s) (hrow : t.row.status = .failure ↔ s.row.status = .failure)
    (hrefunded : t.refunded = s.refunded) (howes : ∀ o, t.owes o ↔ s.owes o) : Debt q t where
  free hne := by
    obtain ⟨hzero, hnone⟩ := h.free fun hs => hne (hrow.mpr hs)
    exact ⟨hrefunded.trans hzero, fun o ho => hnone o ((howes o).mp ho)⟩
  due hfail := by
    rcases h.due (hrow.mp hfail) with ⟨hpaid, hnone⟩ | ⟨hzero, o, ho, honly⟩
    · exact .inl ⟨hrefunded.trans hpaid, fun o ho => hnone o ((howes o).mp ho)⟩
    · exact .inr ⟨hrefunded.trans hzero, o, (howes o).mpr ho, fun o' ho' => honly o' ((howes o').mp ho')⟩

/-- Whoever fails the task owes its refund. -/
theorem Debt.fail {o : Option ℕ} (h : Debt q s) (hrow : s.row.status ≠ .failure)
    (hfail : t.row.status = .failure) (hrefunded : t.refunded = s.refunded) (ho : t.owes o)
    (hothers : ∀ o', t.owes o' → o' = o ∨ s.owes o') : Debt q t where
  free hne := absurd hfail hne
  due _ := by
    obtain ⟨hzero, hnone⟩ := h.free hrow
    refine .inr ⟨hrefunded.trans hzero, o, ho, fun o' ho' => ?_⟩
    rcases hothers o' ho' with he | hs
    · exact he
    · exact absurd hs (hnone o')

theorem Debt.owing {o : Option ℕ} (h : Debt q s) (ho : s.owes o) :
    s.row.status = .failure ∧ s.refunded = 0 := by
  have hfail : s.row.status = .failure := by
    by_contra hne
    exact (h.free hne).2 o ho
  rcases h.due hfail with ⟨-, hnone⟩ | ⟨hzero, -⟩
  · exact absurd ho (hnone o)
  · exact ⟨hfail, hzero⟩

/-- Whoever owes the refund makes it. -/
theorem Debt.pay {o : Option ℕ} (h : Debt q s) (ho : s.owes o) (hrow : t.row = s.row)
    (hrefunded : t.refunded = s.refunded + q)
    (hothers : ∀ o', t.owes o' → o' ≠ o ∧ s.owes o') : Debt q t where
  free hne := absurd (h.owing ho).1 (hrow ▸ hne)
  due hfail := by
    rw [hrow] at hfail
    rcases h.due hfail with ⟨-, hnone⟩ | ⟨hzero, o₁, -, honly⟩
    · exact absurd ho (hnone o)
    · refine .inl ⟨by omega, fun o' ho' => ?_⟩
      obtain ⟨hne, hs⟩ := hothers o' ho'
      exact hne ((honly o' hs).trans (honly o ho).symm)

/-! ## The invariant -/

/-- The fields of a task that a refund reads are those of another. -/
structure SameBill (task task' : Task) : Prop where
  quota : task'.quota = task.quota
  userId : task'.userId = task.userId
  privateData : task'.privateData = task.privateData

theorem SameBill.account {task task' : Task} (h : SameBill task task') :
    task'.account = task.account := by
  unfold Task.account Task.isSubscription
  rw [h.privateData, h.userId]

/-- What the copy of a sweep is, by what it does next. -/
structure SweepCopy (submitted : Submitted) (c : Copy) : Prop where
  same : SameBill submitted.task c.task
  fresh : c.next = .timedOut → c.task.status.isDone = false
  next : c.next = .gone ∨ c.next = .timedOut ∨ c.next = .refund false

/-- The session is as it was submitted until the relay has replied. -/
def Unsettled (submitted : Submitted) (s : ImageJob) : Prop :=
  s.session = submitted.session ∧ s.settledAt = none

/-- What the job knows, by where it is. -/
def AtStep (submitted : Submitted) (s : ImageJob) : JobStep → Prop
  | .enqueued => Unsettled submitted s
  | .loaded task | .relaying task _ => SameBill submitted.task task ∧ Unsettled submitted s
  | .relayed task reply => SameBill submitted.task task ∧ (reply.delivers = false →
      s.settledAt.getD submitted.task.quota = submitted.task.quota)
  | .refunding task => SameBill submitted.task task
  | .done => True

structure JobInv (submitted : Submitted) (before : World) (s : ImageJob) : Prop where
  row : SameBill submitted.task s.row
  copy : ∀ i, SweepCopy submitted (s.copies i)
  step : AtStep submitted s s.step
  debt : Debt submitted.task.quota s
  settled : s.row.status = .failure → s.settledAt.getD submitted.task.quota = submitted.task.quota
  net : NetTaken submitted before s.world (s.settledAt.getD submitted.task.quota - s.refunded)

theorem JobInv.chargedExactly (h : JobInv submitted before s) :
    ChargedExactly submitted before s where
  succeeded _ hrow := by
    have hnet := h.net
    have hzero := (h.debt.free (by rw [hrow]; simp)).1
    rwa [hzero, sub_zero] at hnet
  failed hfin hrow := by
    have hnet := h.net
    rw [h.settled hrow] at hnet
    rcases h.debt.due hrow with ⟨hpaid, -⟩ | ⟨-, o, ho, -⟩
    · rwa [hpaid, sub_self] at hnet
    · cases o with
      | none =>
        have ho' : s.step.owes = true := ho
        rw [hfin.1] at ho'
        cases ho'
      | some i =>
        have ho' : (s.copies i).next.owes = true := ho
        have hbusy := hfin.2 i
        rcases (h.copy i).next with hn | hn | hn
        · rw [hn] at ho'
          cases ho'
        · rw [hn] at ho'
          cases ho'
        · rw [hn] at hbusy
          cases hbusy

theorem NetTaken.trans {n m : ℤ} {w w' : World} (h : NetTaken submitted before w n)
    (hmoves : ∃ k, Moves submitted.session.funding.account submitted.session.relayInfo.tokenId []
      m k w w') : NetTaken submitted before w' (n + m) := by
  obtain ⟨k, hk⟩ := h
  obtain ⟨k', hk'⟩ := hmoves
  exact ⟨k + k', hk.trans hk'⟩

/-- A step of the job that makes no debt and pays none. -/
theorem JobInv.stay (h : JobInv submitted before s) (hcopies : t.copies = s.copies)
    (hrow : SameBill submitted.task t.row)
    (hfail : t.row.status = .failure ↔ s.row.status = .failure)
    (hrefunded : t.refunded = s.refunded) (hold : s.step.owes = false) (hnew : t.step.owes = false)
    (hstep : AtStep submitted t t.step)
    (hsettled : t.row.status = .failure →
      t.settledAt.getD submitted.task.quota = submitted.task.quota)
    (hnet : NetTaken submitted before t.world (t.settledAt.getD submitted.task.quota - t.refunded)) :
    JobInv submitted before t where
  row := hrow
  copy := hcopies ▸ h.copy
  step := hstep
  debt := by
    refine h.debt.same hfail hrefunded fun o => ?_
    cases o with
    | none =>
      show t.step.owes = true ↔ s.step.owes = true
      rw [hold, hnew]
    | some i =>
      show (t.copies i).next.owes = true ↔ (s.copies i).next.owes = true
      rw [hcopies]
  settled := hsettled
  net := hnet

/-! ## Steps of the job -/

theorem load_job_inv {fault : Option String} (h : JobInv submitted before s)
    (hstep : s.step = .enqueued) :
    JobInv submitted before { s with step := if fault.isSome then .done else .loaded s.row } := by
  have hat := h.step
  rw [hstep] at hat
  refine h.stay rfl h.row .rfl rfl (by rw [hstep]; rfl) ?_ ?_ h.settled h.net
  · cases fault <;> rfl
  · cases fault with
    | some e => exact trivial
    | none => exact ⟨h.row, hat⟩

theorem start_inv {task : Task} {fault : Option String} {now : ℤ} (h : JobInv submitted before s)
    (hstep : s.step = .loaded task) : JobInv submitted before (s.start task fault now) := by
  have hat := h.step
  rw [hstep] at hat
  obtain ⟨hsame, hunsettled⟩ := hat
  have hold : s.step.owes = false := by
    rw [hstep]
    rfl
  unfold ImageJob.start
  dsimp only
  generalize hto : { task with status := .inProgress, progress := "10%", startTime := now } = task'
  have hsame' : SameBill submitted.task task' := by
    rw [← hto]
    exact ⟨hsame.quota, hsame.userId, hsame.privateData⟩
  have hstatus : task'.status = .inProgress := by rw [← hto]
  rcases updateWithStatus_cases fault s.row task' .queued with ⟨lost, hne, hlost⟩ | ⟨-, hfrom, hwon⟩
  · rw [hlost]
    match lost, hne with
    | .error e, _ => exact h.stay rfl h.row .rfl rfl hold rfl trivial h.settled h.net
    | .ok false, _ => exact h.stay rfl h.row .rfl rfl hold rfl trivial h.settled h.net
    | .ok true, hne => exact absurd rfl hne
  · rw [hwon]
    have hnot : task'.status ≠ .failure := by
      rw [hstatus]
      simp
    have hnot' : s.row.status ≠ .failure := by
      rw [hfrom]
      simp
    exact h.stay rfl hsame' (iff_of_false hnot hnot') rfl hold rfl
      ⟨hsame', hunsettled⟩ (fun hf => absurd hf hnot) h.net

/-- A relay that settles at the quota of the task moves nothing; at another quota it
finds the row in progress. -/
theorem replied_inv {task : Task} {retry : ℕ} {faults : SettleFaults} {actualQuota : ℤ} {code : ℕ}
    {body : List UInt8} {cfg : ImageConfig} (hsub : Submission before world submitted)
    (h : JobInv submitted before s) (hstep : s.step = .relaying task retry)
    (hok : JobOk s (.attempt (.replied faults actualQuota code body))) :
    JobInv submitted before (s.attempt cfg task retry (.replied faults actualQuota code body)) := by
  have hat := h.step
  rw [hstep] at hat
  obtain ⟨hsame, hsession, hnone⟩ := hat
  have hold : s.step.owes = false := by
    rw [hstep]
    rfl
  have hopen : s.session.settled = false := hsession ▸ hsub.settled
  have hunpaid : s.session.fundingSettled = false := hsession ▸ hsub.fundingSettled
  have hquota : s.session.preConsumedQuota = submitted.task.quota := hsession ▸ hsub.quota
  have hnet := h.net
  rw [hnone, Option.getD_none] at hnet
  simp only [ImageJob.attempt]
  by_cases hactual : actualQuota = s.session.preConsumedQuota
  · rw [hactual, settle_of_eq hopen]
    refine h.stay rfl h.row .rfl rfl hold rfl ⟨hsame, fun _ => hquota⟩ (fun _ => hquota) ?_
    show NetTaken submitted before s.world (s.session.preConsumedQuota - s.refunded)
    rw [hquota]
    exact hnet
  · -- nobody has failed the task, so nothing was refunded yet
    obtain ⟨hprogress, hdelivers, hclamp⟩ := hok hactual
    have hfail : s.row.status ≠ .failure := by
      rw [hprogress]
      simp
    rcases @settle_takes s.session s.world faults actualQuota hopen hunpaid fun _ => hclamp with
      ⟨e, hcall⟩ | ⟨s', w₁, w', r, hcall, hsettled, hacc, hpaid, htoken⟩
    · rw [hcall]
      dsimp only
      rw [hopen]
      exact h.stay rfl h.row .rfl rfl hold rfl ⟨hsame, fun _ => rfl⟩ (fun _ => rfl) hnet
    · rw [hcall]
      dsimp only
      rw [hsettled]
      refine h.stay rfl h.row .rfl rfl hold rfl ⟨hsame, fun hd => ?_⟩ (fun hf => absurd hf hfail) ?_
      · rw [hdelivers] at hd
        cases hd
      · have hmoves : ∃ k, Moves submitted.session.funding.account
            submitted.session.relayInfo.tokenId [] (actualQuota - submitted.task.quota) k
            s.world w' := by
          rw [hsession] at hpaid htoken
          rw [hsub.quota] at hpaid htoken
          rcases htoken with ⟨-, htoken⟩ | ⟨-, hw⟩
          · have hboth := hpaid.trans htoken
            rw [add_zero] at hboth
            exact ⟨_, hboth⟩
          · rw [hw]
            exact ⟨0, hpaid⟩
        have htaken := hnet.trans hmoves
        show NetTaken submitted before w' (actualQuota - s.refunded)
        have hsum : submitted.task.quota - s.refunded + (actualQuota - submitted.task.quota) =
          actualQuota - s.refunded := by omega
        rw [hsum] at htaken
        exact htaken

theorem attempt_inv {task : Task} {retry : ℕ} {outcome : Attempt} {cfg : ImageConfig}
    (hsub : Submission before world submitted) (h : JobInv submitted before s)
    (hstep : s.step = .relaying task retry) (hok : JobOk s (.attempt outcome)) :
    JobInv submitted before (s.attempt cfg task retry outcome) := by
  have hat := h.step
  rw [hstep] at hat
  obtain ⟨hsame, hunsettled⟩ := hat
  have hold : s.step.owes = false := by
    rw [hstep]
    rfl
  have hgetD : s.settledAt.getD submitted.task.quota = submitted.task.quota := by
    rw [hunsettled.2]
    rfl
  cases outcome with
  | noChannel e => exact h.stay rfl h.row .rfl rfl hold rfl ⟨hsame, fun _ => hgetD⟩ h.settled h.net
  | failed env e =>
    simp only [ImageJob.attempt]
    cases nextAttempt cfg env e retry with
    | none => exact h.stay rfl h.row .rfl rfl hold rfl ⟨hsame, fun _ => hgetD⟩ h.settled h.net
    | some retry' =>
      exact h.stay rfl h.row .rfl rfl hold rfl
        ⟨hsame, hunsettled⟩ h.settled h.net
  | replied faults actualQuota code body => exact replied_inv hsub h hstep hok

/-- A failure that is written is to be refunded. -/
theorem failAsyncImageTask_cases (cfg : ImageConfig) (fault : Option String) (now : ℤ)
    (row task : Task) (e : OpenAIError) (reason : String) :
    failAsyncImageTask cfg fault now row task e reason = (row, none) ∨
      ∃ task', SameBill task task' ∧ row.status = .inProgress ∧ task'.status = .failure ∧
        failAsyncImageTask cfg fault now row task e reason = (task', some task') := by
  unfold failAsyncImageTask
  dsimp only
  generalize hto : { task with
    status := .failure
    progress := "100%"
    finishTime := now
    failReason := reason
    data := cfg.marshal (e.orDefault reason) } = task'
  rcases updateWithStatus_cases fault row task' .inProgress with ⟨lost, hne, hlost⟩ | ⟨-, hfrom, hwon⟩
  · left
    rw [hlost]
    match lost, hne with
    | .error e, _ => rfl
    | .ok false, _ => rfl
    | .ok true, hne => exact absurd rfl hne
  · right
    rw [hwon]
    refine ⟨task', ?_, hfrom, ?_, rfl⟩
    · rw [← hto]
      exact ⟨rfl, rfl, rfl⟩
    · rw [← hto]

theorem finishAsyncImageTask_cases (fault : Option String) (now : ℤ) (row task : Task)
    (responseBody : List UInt8) :
    finishAsyncImageTask fault now row task responseBody = row ∨
      ∃ task', SameBill task task' ∧ row.status = .inProgress ∧ task'.status = .success ∧
        finishAsyncImageTask fault now row task responseBody = task' := by
  unfold finishAsyncImageTask
  generalize hto : { task with
    status := .success
    progress := "100%"
    finishTime := now
    data := responseBody } = task'
  rcases updateWithStatus_cases fault row task' .inProgress with ⟨lost, -, hlost⟩ | ⟨-, hfrom, hwon⟩
  · rw [hlost]
    exact .inl rfl
  · rw [hwon]
    refine .inr ⟨task', ?_, hfrom, ?_, rfl⟩
    · rw [← hto]
      exact ⟨rfl, rfl, rfl⟩
    · rw [← hto]

/-- What the end of a job writes: nothing, a success, or a failure that is to be
refunded, and that only for a reply that is no image. -/
inductive Concluded (row task : Task) (reply : RelayReply) : Task × Option Task → Prop
  | lost : Concluded row task reply (row, none)
  | succeeded (task' : Task) (same : SameBill task task') (from' : row.status = .inProgress)
      (status : task'.status = .success) : Concluded row task reply (task', none)
  | failed (task' : Task) (same : SameBill task task') (from' : row.status = .inProgress)
      (status : task'.status = .failure) (reply' : reply.delivers = false) :
      Concluded row task reply (task', some task')

theorem concludeAsyncImageJob_cases (cfg : ImageConfig) (fault : Option String) (now : ℤ)
    (row task : Task) (reply : RelayReply) :
    Concluded row task reply (concludeAsyncImageJob cfg fault now row task reply) := by
  have hfails : reply.delivers = false → ∀ (e : OpenAIError) (reason : String),
      Concluded row task reply (failAsyncImageTask cfg fault now row task e reason) := by
    intro hreply e reason
    rcases failAsyncImageTask_cases cfg fault now row task e reason with
      hlost | ⟨task', hsame, hfrom, hstatus, hwon⟩
    · rw [hlost]
      exact .lost
    · rw [hwon]
      exact .failed task' hsame hfrom hstatus hreply
  cases reply with
  | error e => exact hfails rfl _ _
  | response code body =>
    simp only [concludeAsyncImageJob]
    by_cases hcode : 400 ≤ code
    · rw [if_pos hcode]
      exact hfails (by simp [RelayReply.delivers, hcode]) _ _
    rw [if_neg hcode]
    by_cases hbody : bytesTrimSpace body = []
    · rw [if_pos hbody]
      exact hfails (by simp [RelayReply.delivers, hbody]) _ _
    · rw [if_neg hbody]
      rcases finishAsyncImageTask_cases fault now row task (bytesTrimSpace body) with
        hlost | ⟨task', hsame, hfrom, hstatus, hwon⟩
      · rw [hlost]
        exact .lost
      · rw [hwon]
        exact .succeeded task' hsame hfrom hstatus

theorem conclude_inv {task : Task} {reply : RelayReply} {fault : Option String} {now : ℤ}
    {cfg : ImageConfig} (h : JobInv submitted before s) (hstep : s.step = .relayed task reply) :
    JobInv submitted before { s with
      row := (concludeAsyncImageJob cfg fault now s.row task reply).1
      step := (concludeAsyncImageJob cfg fault now s.row task reply).2.elim .done .refunding } := by
  have hat := h.step
  rw [hstep] at hat
  obtain ⟨hsame, hfailed⟩ := hat
  have hold : s.step.owes = false := by
    rw [hstep]
    rfl
  have htrans : ∀ task', SameBill task task' → SameBill submitted.task task' := fun task' hbill =>
    ⟨hbill.quota.trans hsame.quota, hbill.userId.trans hsame.userId,
      hbill.privateData.trans hsame.privateData⟩
  have hcases := concludeAsyncImageJob_cases cfg fault now s.row task reply
  generalize concludeAsyncImageJob cfg fault now s.row task reply = out at hcases
  cases hcases with
  | lost => exact h.stay rfl h.row .rfl rfl hold rfl trivial h.settled h.net
  | succeeded task' hbill hfrom hstatus =>
    have hnot : s.row.status ≠ .failure := by simp [hfrom]
    have hnot' : task'.status ≠ .failure := by simp [hstatus]
    exact h.stay rfl (htrans task' hbill) (iff_of_false hnot' hnot) rfl hold rfl trivial
      (fun hf => absurd hf hnot') h.net
  | failed task' hbill hfrom hstatus hreply =>
    have hnot : s.row.status ≠ .failure := by simp [hfrom]
    refine ⟨htrans task' hbill, h.copy, htrans task' hbill, ?_, fun _ => hfailed hreply, h.net⟩
    refine h.debt.fail (o := none) hnot hstatus rfl rfl fun o' ho' => ?_
    cases o' with
    | none => exact .inl rfl
    | some i => exact .inr ho'

/-- A refund of what is owed gives the source all of it back. -/
theorem JobInv.refund {task : Task} {o : Option ℕ} {faults : TaskFaults}
    (hsub : Submission before world submitted) (hpos : 0 < submitted.task.quota)
    (h : JobInv submitted before s) (ho : s.owes o) (hsame : SameBill submitted.task task)
    (hfaults : faults.funding = .none) :
    (refundTaskQuota faults s.world task).2 = submitted.task.quota ∧
      NetTaken submitted before (refundTaskQuota faults s.world task).1
        (s.settledAt.getD submitted.task.quota - (s.refunded + submitted.task.quota)) := by
  obtain ⟨hfail, hzero⟩ := h.debt.owing ho
  have hnet := h.net
  rw [h.settled hfail, hzero, sub_zero] at hnet
  have hback := hsub.back s.world hnet
  rw [← hsame.quota, ← hsame.account] at hback
  obtain ⟨w', m, hcall, hmoves⟩ := refundTaskQuota_gives (hsame.quota ▸ hpos) hfaults hback
  rw [hsame.quota, hsame.account, hsame.privateData, ← hsub.account, ← hsub.tokenId] at hmoves
  rw [hcall, h.settled hfail, hzero, zero_add]
  exact ⟨hsame.quota, hnet.trans ⟨m, hmoves⟩⟩

theorem refund_inv {task : Task} {faults : TaskFaults} (hsub : Submission before world submitted)
    (hpos : 0 < submitted.task.quota) (h : JobInv submitted before s)
    (hstep : s.step = .refunding task) (hfaults : faults.funding = .none) :
    JobInv submitted before { s with
      world := (refundTaskQuota faults s.world task).1
      refunded := s.refunded + (refundTaskQuota faults s.world task).2
      step := .done } := by
  have hat := h.step
  rw [hstep] at hat
  have ho : s.owes none := by
    show s.step.owes = true
    rw [hstep]
    rfl
  obtain ⟨hamount, hnet⟩ := h.refund hsub hpos ho hat hfaults
  rw [hamount]
  refine ⟨h.row, h.copy, trivial, ?_, h.settled, hnet⟩
  refine h.debt.pay ho rfl rfl fun o' ho' => ?_
  cases o' with
  | none => cases ho'
  | some i => exact ⟨by simp, ho'⟩

/-! ## Steps of the sweeps -/

theorem owes_update (copies : ℕ → Copy) (i j : ℕ) (c : Copy) :
    (Function.update copies i c j).next.owes =
      if j = i then c.next.owes else (copies j).next.owes := by
  by_cases hj : j = i
  · subst hj
    rw [Function.update_self, if_pos rfl]
  · rw [Function.update_of_ne hj, if_neg hj]

/-- A step of the sweep `i`, which leaves the job where it is. -/
theorem JobInv.sweeps {i : ℕ} {c : Copy} {row : Task} {w : World} {refunded : ℤ}
    (h : JobInv submitted before s) (hrow : SameBill submitted.task row)
    (hc : SweepCopy submitted c)
    (hdebt : Debt submitted.task.quota (s.swept ⟨row, Function.update s.copies i c, w, refunded⟩))
    (hsettled : row.status = .failure →
      s.settledAt.getD submitted.task.quota = submitted.task.quota)
    (hnet : NetTaken submitted before w (s.settledAt.getD submitted.task.quota - refunded)) :
    JobInv submitted before (s.swept ⟨row, Function.update s.copies i c, w, refunded⟩) where
  row := hrow
  copy j := by
    show SweepCopy submitted (Function.update s.copies i c j)
    by_cases hj : j = i
    · subst hj
      rw [Function.update_self]
      exact hc
    · rw [Function.update_of_ne hj]
      exact h.copy j
  step := h.step
  debt := hdebt
  settled := hsettled
  net := hnet

/-- A sweep whose copy owed nothing and owes nothing, of a row that stays. -/
theorem JobInv.idle {i : ℕ} {c : Copy} (h : JobInv submitted before s)
    (hold : (s.copies i).next.owes = false) (hnew : c.next.owes = false)
    (hc : SweepCopy submitted c) :
    JobInv submitted before (s.swept (s.toPoll.setCopy i c)) := by
  refine h.sweeps h.row hc ?_ h.settled h.net
  refine h.debt.same .rfl rfl fun o => ?_
  cases o with
  | none => exact .rfl
  | some j =>
    show (Function.update s.copies i c j).next.owes = true ↔ (s.copies j).next.owes = true
    rw [owes_update]
    by_cases hj : j = i
    · subst hj
      rw [if_pos rfl, hold, hnew]
    · rw [if_neg hj]

theorem sweepLoad_inv {i : ℕ} {now : ℤ} {cfg : PollConfig} {p : Poll}
    (h : JobInv submitted before s) (hp : s.toPoll.load cfg i true now = some p) :
    JobInv submitted before (s.swept p) := by
  unfold Poll.load at hp
  split at hp
  · cases hp
  rename_i hbusy
  rw [if_pos rfl] at hp
  split at hp
  swap
  · cases hp
  rename_i htimed
  rw [← Option.some.inj hp]
  have hopen := htimed.2
  unfold Task.timedOut Task.unfinished at hopen
  simp only [Bool.and_eq_true, Bool.not_eq_true'] at hopen
  have hold : (s.copies i).next.owes = false := by
    rcases (h.copy i).next with hn | hn | hn
    · rw [hn]
      rfl
    · rw [hn]
      rfl
    · rw [hn] at hbusy
      exact absurd rfl hbusy
  exact h.idle hold rfl ⟨h.row, fun _ => hopen.1.2, .inr (.inl rfl)⟩

theorem SameBill.timeOut {task task' : Task} (h : SameBill task task') (cfg : PollConfig)
    (now : ℤ) : SameBill task (task'.timeOut cfg now) := ⟨h.quota, h.userId, h.privateData⟩

theorem sweep_job_inv {i : ℕ} {fault : Option String} {now : ℤ} {cfg : PollConfig} {p : Poll}
    (hpos : 0 < submitted.task.quota) (h : JobInv submitted before s)
    (hok : JobOk s (.sweep i fault now)) (hp : s.toPoll.act cfg (.sweep i fault now) = some p) :
    JobInv submitted before (s.swept p) := by
  simp only [Poll.act] at hp
  split at hp
  swap
  · cases hp
  rename_i hnext
  rw [← Option.some.inj hp]
  have hcopy := h.copy i
  have hsame := hcopy.same.timeOut cfg now
  have hopen := hcopy.fresh hnext
  have hold : (s.copies i).next.owes = false := by
    rw [hnext]
    rfl
  rcases sweepTask_cases cfg fault now s.row (s.copies i).task with hlost | ⟨hfault, hfrom, hwon⟩
  · rw [hlost]
    exact h.idle hold rfl ⟨hsame, fun hn => (by cases hn), .inl rfl⟩
  · obtain ⟨hlegacy, hsettled⟩ := hok hfault hfrom
    have hnot : s.row.status ≠ .failure := by
      intro hfail
      rw [← hfrom, hfail] at hopen
      cases hopen
    have hquota : (s.copies i).task.quota ≠ 0 := by
      rw [hcopy.same.quota]
      omega
    -- the sweep that won owes the refund
    rw [hwon, hlegacy, decide_eq_true hquota]
    refine h.sweeps hsame ⟨hsame, fun hn => (by cases hn), .inr (.inr rfl)⟩ ?_ (fun _ => ?_) h.net
    · refine h.debt.fail (o := some i) hnot rfl rfl ?_ fun o' ho' => ?_
      · show (Function.update s.copies i _ i).next.owes = true
        rw [owes_update, if_pos rfl]
        rfl
      · cases o' with
        | none => exact .inr ho'
        | some j =>
          by_cases hj : j = i
          · exact .inl (by rw [hj])
          · right
            have ho : (Function.update s.copies i _ j).next.owes = true := ho'
            rw [owes_update, if_neg hj] at ho
            exact ho
    · cases hat : s.settledAt with
      | none => rfl
      | some actualQuota => exact (hsettled actualQuota hat).trans hcopy.same.quota

theorem sweepRefund_inv {i : ℕ} {faults : TaskFaults} {p : Poll}
    (hsub : Submission before world submitted) (hpos : 0 < submitted.task.quota)
    (h : JobInv submitted before s) (hfaults : faults.funding = .none)
    (hp : s.toPoll.bill i faults = some p) : JobInv submitted before (s.swept p) := by
  have hcopy := h.copy i
  have hnext : (s.copies i).next = .refund false := by
    unfold Poll.bill at hp
    rcases hcopy.next with hn | hn | hn
    · rw [hn] at hp
      cases hp
    · rw [hn] at hp
      cases hp
    · exact hn
  have ho : s.owes (some i) := by
    show (s.copies i).next.owes = true
    rw [hnext]
    rfl
  obtain ⟨hamount, hnet⟩ := h.refund hsub hpos ho hcopy.same hfaults
  unfold Poll.bill at hp
  rw [hnext] at hp
  dsimp only at hp
  rw [hamount] at hp
  rw [← Option.some.inj hp]
  refine h.sweeps h.row ⟨hcopy.same, fun hn => (by cases hn), .inl rfl⟩ ?_ h.settled hnet
  refine h.debt.pay ho rfl rfl fun o' ho' => ?_
  cases o' with
  | none => exact ⟨by simp, ho'⟩
  | some j =>
    have ho'' : (Function.update s.copies i _ j).next.owes = true := ho'
    rw [owes_update] at ho''
    by_cases hj : j = i
    · rw [if_pos hj] at ho''
      cases ho''
    · rw [if_neg hj] at ho''
      exact ⟨fun e => hj (Option.some.inj e), ho''⟩

/-! ## Runs -/

/-- Every step that meets `JobOk` keeps the invariant. -/
theorem job_step_inv {cfg : ImageConfig} {a : JobAction} (hsub : Submission before world submitted)
    (hpos : 0 < submitted.task.quota) (h : JobInv submitted before s) (hok : JobOk s a)
    (ht : s.act cfg a = some t) : JobInv submitted before t := by
  cases a with
  | load fault =>
    simp only [ImageJob.act] at ht
    split at ht
    · rename_i hstep
      rw [← Option.some.inj ht]
      exact load_job_inv h hstep
    · cases ht
  | start fault now =>
    simp only [ImageJob.act] at ht
    split at ht
    · rename_i task hstep
      rw [← Option.some.inj ht]
      exact start_inv h hstep
    · cases ht
  | attempt outcome =>
    simp only [ImageJob.act] at ht
    split at ht
    · rename_i task retry hstep
      rw [← Option.some.inj ht]
      exact attempt_inv hsub h hstep hok
    · cases ht
  | conclude fault now =>
    simp only [ImageJob.act] at ht
    split at ht
    · rename_i task reply hstep
      rw [← Option.some.inj ht]
      exact conclude_inv h hstep
    · cases ht
  | refund faults =>
    simp only [ImageJob.act] at ht
    split at ht
    · rename_i task hstep
      rw [← Option.some.inj ht]
      exact refund_inv hsub hpos h hstep hok
    · cases ht
  | sweepLoad i now =>
    obtain ⟨p, hp, rfl⟩ := Option.map_eq_some_iff.mp ht
    exact sweepLoad_inv h hp
  | sweep i fault now =>
    obtain ⟨p, hp, rfl⟩ := Option.map_eq_some_iff.mp ht
    exact sweep_job_inv hpos h hok hp
  | sweepRefund i faults =>
    obtain ⟨p, hp, rfl⟩ := Option.map_eq_some_iff.mp ht
    exact sweepRefund_inv hsub hpos h hok hp

theorem queued_inv (hsub : Submission before world submitted) :
    JobInv submitted before (.queued submitted world) where
  row := ⟨rfl, rfl, rfl⟩
  copy i := ⟨⟨rfl, rfl, rfl⟩, fun hn => (by cases hn), .inl rfl⟩
  step := ⟨rfl, rfl⟩
  debt := by
    have hnot : submitted.task.status ≠ .failure := by
      rw [hsub.status]
      simp
    refine ⟨fun _ => ⟨rfl, fun o ho => ?_⟩, fun hfail => absurd hfail hnot⟩
    cases o with
    | none => cases ho
    | some i => cases ho
  settled _ := rfl
  net := by
    show NetTaken submitted before world (submitted.task.quota - 0)
    rw [sub_zero]
    exact hsub.taken

/-- **An image job is charged exactly** what it delivers, in every interleaving with
the sweeps of its task whose steps meet `JobOk`. -/
theorem image_job_charged_exactly (settings : Settings) (cfg : ImageConfig) (env : SubmitEnv)
    (before world : World) (info : RelayInfo) (quota : ℤ) (submitted : Submitted)
    (hquota : 0 ≤ quota) (hroll : env.create.rollsBack)
    (hnew : before.store.records.find info.requestId = none) (hsound : SoundStore before.store)
    (hsubmit : relayImageGenerationAsync settings env before info quota = (world, .ok submitted))
    (hpos : 0 < submitted.task.quota) (actions : List JobAction)
    (hok : (imageSystem cfg).EveryStep JobOk (.queued submitted world) actions) :
    (imageSystem cfg).EveryState (ChargedExactly submitted before) (.queued submitted world)
      actions := by
  have hsub := submission_of_ok hquota hroll hnew hsound hsubmit
  have hrun := System.everyState_of_everyStep (S := imageSystem cfg)
    (I := JobInv submitted before) (C := JobOk)
    (fun s a t hs hc ht => job_step_inv hsub hpos hs hc ht) (queued_inv hsub) hok
  exact hrun.mono fun s hs => hs.chargedExactly

/-! ## A job of 30 -/

def imageConfig : ImageConfig := ⟨⟨60, ""⟩, 0, [], fun _ => []⟩

def submitEnv : SubmitEnv := ⟨quietCreate, none, none, .none, "task_1", 1750000000, []⟩

/-- The user 7 and the token 3 pay 30 for a job. -/
def sampleJob : Submitted := ⟨sampleSession, [], initAsyncImageTask submitEnv sampleSession.relayInfo⟩

/-- The relay settles at 50 and replies with an image. -/
def imageReply : JobAction := .attempt (.replied ⟨.none, none⟩ 50 200 [0x7b, 0x7d])

theorem image_job_charged_exactly_sample :
    (imageSystem imageConfig).EveryState (ChargedExactly sampleJob sampleWorld)
      (.queued sampleJob sampleCharged)
      [.load none, .start none 1750000001, .sweepLoad 0 1750003601, imageReply,
        .conclude none 1750003602, .sweep 0 none 1750003601] := by
  refine image_job_charged_exactly sampleSettings imageConfig submitEnv sampleWorld sampleCharged
    sampleInfo 30 sampleJob (by decide) ⟨rfl, rfl⟩ rfl ⟨fun sub hsub => ?_, fun sub hsub => ?_⟩ rfl
    (by decide) _ ?_
  · exact absurd hsub List.not_mem_nil
  · exact absurd hsub List.not_mem_nil
  · intro s₁ h₁
    rw [← Option.some.inj h₁]
    refine ⟨trivial, fun s₂ h₂ => ?_⟩
    rw [← Option.some.inj h₂]
    refine ⟨trivial, fun s₃ h₃ => ?_⟩
    rw [← Option.some.inj h₃]
    refine ⟨trivial, fun s₄ h₄ => ?_⟩
    rw [← Option.some.inj h₄]
    refine ⟨fun _ => ⟨rfl, by decide, trivial⟩, fun s₅ h₅ => ?_⟩
    rw [← Option.some.inj h₅]
    refine ⟨trivial, fun s₆ h₆ => ⟨fun _ hfrom => ?_, trivial⟩⟩
    cases hfrom

/-- A sweep fails the task and refunds the 30 while the relay is at work, which then
settles at 50: a failed job has cost 20. -/
theorem sweep_under_relay_charges :
    relayImageGenerationAsync sampleSettings submitEnv sampleWorld sampleInfo 30 =
        (sampleCharged, .ok sampleJob) ∧
      ¬ (imageSystem imageConfig).EveryState (ChargedExactly sampleJob sampleWorld)
        (.queued sampleJob sampleCharged)
        [.load none, .start none 1750000001, .sweepLoad 0 1750003601, .sweep 0 none 1750003601,
          .sweepRefund 0 .none, imageReply, .conclude none 1750003602] := by
  refine ⟨rfl, fun h => ?_⟩
  have hidle : ∀ (c₁ c₂ : Copy) (task : Task) (i : ℕ), (Function.update (Function.update
      (Function.update (fun _ => Copy.mk sampleJob.task .gone) 0 c₁) 0 c₂) 0 (Copy.mk task .gone)
        i).next.busy = false := by
    intro c₁ c₂ task i
    by_cases hi : i = 0
    · rw [hi, Function.update_self]
      rfl
    · rw [Function.update_of_ne hi, Function.update_of_ne hi, Function.update_of_ne hi]
      rfl
  obtain ⟨m, hmoves⟩ := (h.run rfl).failed ⟨rfl, hidle _ _ _⟩ rfl
  have hquota := hmoves.quota 7
  revert hquota
  decide

end Tasks
