import GMasterApi.Task.Polling

/-!
# A task is billed once

The invariant of the pollers of one task: at most one of them has a refund to make
or is saving the row of one that it made, and what was refunded is the quota or
nothing.
-/

namespace Tasks

open Billing Transition

/-! ## What a call writes -/

theorem withResult_eq_some {cfg : PollConfig} {now : ℤ} {task after : Task} {info : TaskInfo}
    (h : task.withResult cfg now info = some after) :
    after.quota = task.quota ∧ after.platform = task.platform ∧ after.status = info.status := by
  unfold Task.withResult at h
  dsimp only at h
  split at h
  all_goals first
    | cases h; exact ⟨rfl, rfl, by simp_all⟩
    | cases h

/-- A video poll of a copy that is not done writes its copy or nothing, and bills only
a transition that it wrote. -/
structure VideoStep (row task : Task) (out : Task × Task × Bill) : Prop where
  quota : out.2.1.quota = task.quota
  platform : out.2.1.platform = task.platform
  stored : out.1 = row ∨ (row.status = task.status ∧ out.1 = out.2.1)
  refund : out.2.2 = .refund → row.status = task.status ∧ out.1 = out.2.1 ∧ out.2.1.status = .failure
  settle : out.2.2 = .settle → out.2.1.status = .success

theorem bill_of_not_done {task : Task} (h : task.status.isDone = false) : task.bill = .nothing := by
  unfold Task.bill
  unfold TaskStatus.isDone at h
  split <;> simp_all

theorem bill_refund {task : Task} (h : task.bill = .refund) : task.status = .failure := by
  unfold Task.bill at h
  split at h
  · assumption
  · cases h
  · cases h

theorem bill_settle {task : Task} (h : task.bill = .settle) : task.status = .success := by
  unfold Task.bill at h
  split at h
  · split at h <;> cases h
  · assumption
  · cases h

theorem updateVideoSingleTask_step {cfg : PollConfig} {fault : Option String} {now : ℤ}
    {row task : Task} {reply : Reply} (hopen : task.status.isDone = false) :
    VideoStep row task (updateVideoSingleTask cfg fault now row task reply) := by
  unfold updateVideoSingleTask
  split
  · exact ⟨rfl, rfl, .inl rfl, fun h => (by cases h), fun h => (by cases h)⟩
  split
  · exact ⟨rfl, rfl, .inl rfl, fun h => (by cases h), fun h => (by cases h)⟩
  split
  · exact ⟨rfl, rfl, .inl rfl, fun h => (by cases h), fun h => (by cases h)⟩
  rename_i after hafter
  obtain ⟨hquota, hplatform, -⟩ := withResult_eq_some hafter
  split
  · -- a transition: billed if the write wins
    rcases updateWithStatus_cases fault row after task.status with ⟨lost, hne, hlost⟩ | ⟨-, hfrom, hwon⟩
    · rw [hlost]
      match lost, hne with
      | .error e, _ =>
        exact ⟨hquota, hplatform, .inl rfl, fun h => (by cases h), fun h => (by cases h)⟩
      | .ok false, _ =>
        exact ⟨hquota, hplatform, .inl rfl, fun h => (by cases h), fun h => (by cases h)⟩
      | .ok true, hne => exact absurd rfl hne
    · rw [hwon]
      exact ⟨hquota, hplatform, .inr ⟨hfrom, rfl⟩, fun h => ⟨hfrom, rfl, bill_refund h⟩, bill_settle⟩
  · rename_i hsame
    have hnot : after.status.isDone = false := by
      rw [Bool.eq_false_iff]
      intro hdone
      rw [hdone, Bool.true_and, decide_eq_true_eq, not_not] at hsame
      rw [← hsame, hopen] at hdone
      cases hdone
    have hbill := bill_of_not_done hnot
    split
    · refine ⟨hquota, hplatform, .inl rfl, fun h => ?_, fun h => ?_⟩
      · rw [show after.bill = .refund from h] at hbill
        cases hbill
      · rw [show after.bill = .settle from h] at hbill
        cases hbill
    · refine ⟨hquota, hplatform, ?_, fun h => ?_, fun h => ?_⟩
      · rcases updateWithStatus_cases fault row after task.status with ⟨lost, -, hlost⟩ | ⟨-, hfrom, hwon⟩
        · exact .inl (by rw [hlost])
        · exact .inr ⟨hfrom, by rw [hwon]⟩
      · rw [show after.bill = .refund from h] at hbill
        cases hbill
      · rw [show after.bill = .settle from h] at hbill
        cases hbill

/-! ## The invariant -/

/-- The poller has a refund to make. -/
def Next.owes : Next → Bool
  | .refund _ | .sunoRefund => true
  | _ => false

/-- The poller is between the refund decision and the save of a Suno poll. -/
def Next.inSection : Next → Bool
  | .sunoRefund | .sunoSave true => true
  | _ => false

def Next.claims (next : Next) : Bool := next.owes || next.inSection

/-- A Suno poll is between its refund decision and its save. -/
def Poll.inSection (s : Poll) : Prop := ∃ i, (s.copies i).next.inSection = true

/-- A Suno poll has refunded and not yet saved the row. -/
def Poll.saving (s : Poll) : Prop := ∃ i, (s.copies i).next = .sunoSave true

/-- **Billed once**, of a task charged `q`: at most `q` is refunded, only of a task
that is a failure once its poll has saved it, and nothing of a success. -/
structure BilledOnce (q : ℤ) (s : Poll) : Prop where
  atMost : s.refunded ≤ q
  failed : ¬ s.saving → s.refunded ≠ 0 → s.row.status = .failure
  success : s.row.status = .success → s.refunded = 0

/-- No sweep writes while a Suno poll is between its refund and its save; a video poll
gets a copy that is not done; a Suno poll that refunds finds an unfinished row
and no other such poll, and saves `FAILURE` without a fault; any other Suno save
finds no failure stored and no such poll. -/
def PollOk (s : Poll) : Action → Prop
  | .sweep _ _ _ => ¬ s.inSection
  | .video i _ _ _ _ => (s.copies i).task.status.isDone = false
  | .suno i item =>
    taskNeedsUpdate (s.copies i).task item = true →
      item.fails ((s.copies i).task.withItem item).status = true →
      ((s.copies i).task.withItem item).status = .failure ∧ s.row.status.isDone = false ∧
        ¬ s.inSection
  | .save i fault =>
    if (s.copies i).next = .sunoSave true then fault = none
    else fault = none → s.row.status ≠ .failure ∧ ¬ s.inSection
  | _ => True

/-- What holds of a copy by what its poller does next. -/
def NextOk (row task : Task) (refunded : ℤ) : Next → Prop
  | .gone | .polled => True
  | .timedOut => task.status.isDone = false
  | .settle _ => task.status = .success ∧ row.platform ≠ .suno
  | .refund _ => row.status = .failure ∧ refunded = 0
  | .sunoRefund => row.platform = .suno ∧ task.status = .failure ∧ row.status ≠ .success ∧
      refunded = 0
  | .sunoSave refunds => row.platform = .suno ∧
      (refunds = true → task.status = .failure ∧ row.status ≠ .success)

/-- What holds of the copy of each poller: only the settlement of a video task changes
its quota. -/
structure CopyOk (q : ℤ) (row : Task) (refunded : ℤ) (c : Copy) : Prop where
  platform : c.task.platform = row.platform
  quota : c.task.quota = q ∨
    (row.platform ≠ .suno ∧ c.task.status.isDone = true ∧ c.next.busy = false)
  next : NextOk row c.task refunded c.next

structure PollInv (q : ℤ) (s : Poll) : Prop where
  rowQuota : s.row.quota = q
  copy : ∀ i, CopyOk q s.row s.refunded (s.copies i)
  amount : s.refunded = 0 ∨ s.refunded = q
  unique : ∀ i j, (s.copies i).next.claims = true → (s.copies j).next.claims = true → i = j
  paid : s.refunded ≠ 0 → s.row.status = .failure ∨ s.saving

variable {q : ℤ} {s t : Poll} {cfg : PollConfig}

theorem PollInv.billedOnce (hq : 0 < q) (h : PollInv q s) : BilledOnce q s where
  atMost := by
    have := h.amount
    omega
  failed hnot hne := (h.paid hne).resolve_right hnot
  success hrow := by
    by_contra hne
    rcases h.paid hne with hfail | ⟨i, hi⟩
    · rw [hrow] at hfail
      cases hfail
    · have hnext := (h.copy i).next
      rw [hi] at hnext
      exact (hnext.2 rfl).2 hrow

theorem owes_cases {next : Next} (h : next.owes = true) :
    (∃ again, next = .refund again) ∨ next = .sunoRefund := by
  unfold Next.owes at h
  split at h
  · exact .inl ⟨_, rfl⟩
  · exact .inr rfl
  · cases h

theorem inSection_cases {next : Next} (h : next.inSection = true) :
    next = .sunoRefund ∨ next = .sunoSave true := by
  unfold Next.inSection at h
  split at h
  · exact .inl rfl
  · exact .inr rfl
  · cases h

/-- Where no failure is stored and no Suno poll is at work, nobody has refunded or is
about to. -/
theorem PollInv.free (h : PollInv q s) (hrow : s.row.status ≠ .failure) (hsec : ¬ s.inSection) :
    s.refunded = 0 ∧ ∀ i, (s.copies i).next.claims = false := by
  constructor
  · by_contra hne
    rcases h.paid hne with hfail | ⟨i, hi⟩
    · exact hrow hfail
    · exact hsec ⟨i, by rw [hi]; rfl⟩
  · intro i
    rw [Bool.eq_false_iff]
    intro hi
    unfold Next.claims at hi
    rcases Bool.or_eq_true_iff.mp hi with howes | hsect
    · rcases owes_cases howes with ⟨again, hnext⟩ | hnext
      · have hok := (h.copy i).next
        rw [hnext] at hok
        exact hrow hok.1
      · exact hsec ⟨i, by rw [hnext]; rfl⟩
    · exact hsec ⟨i, hsect⟩

theorem PollInv.quota_of_suno (h : PollInv q s) {i : ℕ} (hsuno : s.row.platform = .suno) :
    (s.copies i).task.quota = q := by
  rcases (h.copy i).quota with hq | ⟨hne, -, -⟩
  · exact hq
  · exact absurd hsuno hne

theorem PollInv.quota_of_not_done (h : PollInv q s) {i : ℕ}
    (hopen : (s.copies i).task.status.isDone = false) : (s.copies i).task.quota = q := by
  rcases (h.copy i).quota with hq | ⟨-, hdone, -⟩
  · exact hq
  · rw [hopen] at hdone
    cases hdone

theorem PollInv.quota_of_busy (h : PollInv q s) {i : ℕ} (hbusy : (s.copies i).next.busy = true) :
    (s.copies i).task.quota = q := by
  rcases (h.copy i).quota with hq | ⟨-, -, hidle⟩
  · exact hq
  · rw [hbusy] at hidle
    cases hidle

/-- A copy that claims nothing does not depend on the row. -/
theorem CopyOk.of_not_claims {row row' : Task} {refunded refunded' : ℤ} {c : Copy}
    (h : CopyOk q row refunded c) (hplatform : row'.platform = row.platform)
    (hnone : c.next.claims = false) : CopyOk q row' refunded' c where
  platform := h.platform.trans hplatform.symm
  quota := by
    rw [hplatform]
    exact h.quota
  next := by
    have hnext := h.next
    generalize c.next = n at hnone hnext
    cases n with
    | gone => exact trivial
    | polled => exact trivial
    | timedOut => exact hnext
    | settle x => exact ⟨hnext.1, by rw [hplatform]; exact hnext.2⟩
    | refund again => cases hnone
    | sunoRefund => cases hnone
    | sunoSave b =>
      cases b with
      | true => cases hnone
      | false => exact ⟨hplatform.trans hnext.1, fun hb => by cases hb⟩

theorem setCopy_self (s : Poll) (i : ℕ) (c : Copy) : (s.setCopy i c).copies i = c := by
  simp [Poll.setCopy]

theorem setCopy_other {i j : ℕ} (s : Poll) (c : Copy) (hj : j ≠ i) :
    (s.setCopy i c).copies j = s.copies j := by
  simp [Poll.setCopy, hj]

/-- A step of the poller `i` that neither makes nor takes a claim: the row and what was
refunded stay as they were. -/
theorem PollInv.quiet {i : ℕ} {c : Copy} {w : World} (h : PollInv q s)
    (hold : (s.copies i).next.claims = false) (hnew : c.next.claims = false)
    (hc : CopyOk q s.row s.refunded c) : PollInv q { s.setCopy i c with world := w } where
  rowQuota := h.rowQuota
  copy j := by
    by_cases hj : j = i
    · subst hj
      show CopyOk q s.row s.refunded ((s.setCopy j c).copies j)
      rw [setCopy_self]
      exact hc
    · show CopyOk q s.row s.refunded ((s.setCopy i c).copies j)
      rw [setCopy_other s c hj]
      exact h.copy j
  amount := h.amount
  unique j k hjc hkc := by
    have hclaim : ∀ j, ((s.setCopy i c).copies j).next.claims = true →
        (s.copies j).next.claims = true := by
      intro j hj
      by_cases hji : j = i
      · rw [hji, setCopy_self, hnew] at hj
        cases hj
      · rwa [setCopy_other s c hji] at hj
    exact h.unique j k (hclaim j hjc) (hclaim k hkc)
  paid hne := by
    rcases h.paid hne with hfail | ⟨j, hj⟩
    · exact .inl hfail
    · refine .inr ⟨j, ?_⟩
      have hji : j ≠ i := by
        intro e
        rw [← e, hj] at hold
        cases hold
      show ((s.setCopy i c).copies j).next = _
      rw [setCopy_other s c hji]
      exact hj

/-- A step of the poller `i` where no other one claims anything. -/
theorem PollInv.only {i : ℕ} {c : Copy} {row : Task} {w : World} {refunded : ℤ} (h : PollInv q s)
    (hothers : ∀ j, j ≠ i → (s.copies j).next.claims = false)
    (hplatform : row.platform = s.row.platform) (hquota : row.quota = q)
    (hc : CopyOk q row refunded c) (hamount : refunded = 0 ∨ refunded = q)
    (hpaid : refunded ≠ 0 → row.status = .failure ∨ c.next = .sunoSave true) :
    PollInv q ⟨row, Function.update s.copies i c, w, refunded⟩ := by
  have hself : Function.update s.copies i c i = c := Function.update_self ..
  have hother : ∀ j, j ≠ i → Function.update s.copies i c j = s.copies j :=
    fun j hj => Function.update_of_ne hj ..
  have honly : ∀ j, (Function.update s.copies i c j).next.claims = true → j = i := by
    intro j hj
    by_contra hne
    rw [hother j hne, hothers j hne] at hj
    cases hj
  refine ⟨hquota, fun j => ?_, hamount, fun j k hj hk => (honly j hj).trans (honly k hk).symm,
    fun hne => ?_⟩
  · by_cases hj : j = i
    · subst hj
      show CopyOk q row refunded (Function.update s.copies j c j)
      rw [hself]
      exact hc
    · show CopyOk q row refunded (Function.update s.copies i c j)
      rw [hother j hj]
      exact (h.copy j).of_not_claims hplatform (hothers j hj)
  · rcases hpaid hne with hfail | hsave
    · exact .inl hfail
    · exact .inr ⟨i, (congrArg Copy.next hself).trans hsave⟩

/-- The others do not claim what the poller `i` does. -/
theorem PollInv.others (h : PollInv q s) {i : ℕ} (hi : (s.copies i).next.claims = true) (j : ℕ)
    (hj : j ≠ i) : (s.copies j).next.claims = false := by
  rw [Bool.eq_false_iff]
  intro hc
  exact hj (h.unique j i hc hi)

/-! ## Steps -/

theorem load_inv {i : ℕ} {sweeps : Bool} {now : ℤ} (h : PollInv q s)
    (ht : s.load cfg i sweeps now = some t) : PollInv q t := by
  unfold Poll.load at ht
  by_cases hbusy : (s.copies i).next.busy = true
  · rw [if_pos hbusy] at ht
    cases ht
  rw [if_neg hbusy] at ht
  have hold : (s.copies i).next.claims = false := by
    generalize (s.copies i).next = n at hbusy
    cases n with
    | gone => rfl
    | polled => rfl
    | timedOut => rfl
    | settle x => exact absurd rfl hbusy
    | refund again => exact absurd rfl hbusy
    | sunoRefund => exact absurd rfl hbusy
    | sunoSave b => exact absurd rfl hbusy
  split at ht
  · split at ht
    · rename_i htimed
      rw [← Option.some.inj ht]
      have hrow := htimed.2
      unfold Task.timedOut Task.unfinished at hrow
      simp only [Bool.and_eq_true, Bool.not_eq_true'] at hrow
      exact h.quiet hold rfl ⟨rfl, .inl h.rowQuota, hrow.1.2⟩
    · cases ht
  · split at ht
    · rw [← Option.some.inj ht]
      exact h.quiet hold rfl ⟨rfl, .inl h.rowQuota, trivial⟩
    · cases ht

theorem sweep_inv {i : ℕ} {fault : Option String} {now : ℤ} (h : PollInv q s)
    (hok : PollOk s (.sweep i fault now)) (ht : s.act cfg (.sweep i fault now) = some t) :
    PollInv q t := by
  simp only [Poll.act] at ht
  split at ht
  swap
  · cases ht
  rename_i hnext
  rw [← Option.some.inj ht]
  have hplatform := (h.copy i).platform
  have hfresh : (s.copies i).task.status.isDone = false := by
    have hok := (h.copy i).next
    rwa [hnext] at hok
  have hquota := h.quota_of_not_done hfresh
  rcases sweepTask_cases cfg fault now s.row (s.copies i).task with hlost | ⟨-, hfrom, hwon⟩
  · rw [hlost]
    exact h.quiet (by rw [hnext]; rfl) rfl ⟨hplatform, .inl hquota, trivial⟩
  · have hne : s.row.status ≠ .failure := by
      intro hfail
      rw [← hfrom, hfail] at hfresh
      cases hfresh
    have hfree := h.free hne hok
    rw [hwon]
    generalize (!(s.copies i).task.isLegacy && decide ((s.copies i).task.quota ≠ 0)) = refunds
    refine h.only (fun j _ => hfree.2 j) hplatform hquota ?_ h.amount fun hr => absurd hfree.1 hr
    cases refunds with
    | false => exact ⟨rfl, .inl hquota, trivial⟩
    | true => exact ⟨rfl, .inl hquota, rfl, hfree.1⟩

theorem video_inv {i : ℕ} {fault : Option String} {now : ℤ} {reply : Reply}
    {completion : Completion} (h : PollInv q s)
    (hok : PollOk s (.video i fault now reply completion))
    (ht : s.act cfg (.video i fault now reply completion) = some t) : PollInv q t := by
  simp only [Poll.act] at ht
  split at ht
  swap
  · cases ht
  rename_i name hnext hvideo
  rw [← Option.some.inj ht]
  have hopen : (s.copies i).task.status.isDone = false := hok
  have hplatform := (h.copy i).platform
  have hquota := h.quota_of_not_done hopen
  have hne : s.row.platform ≠ .suno := by
    rw [hvideo]
    simp
  -- no Suno poll has a copy of a video task
  have hsec : ¬ s.inSection := by
    rintro ⟨j, hj⟩
    have hcopy := (h.copy j).next
    rcases inSection_cases hj with hnext' | hnext'
    · rw [hnext'] at hcopy
      exact hne hcopy.1
    · rw [hnext'] at hcopy
      exact hne hcopy.1
  have hstep := @updateVideoSingleTask_step cfg fault now s.row (s.copies i).task reply hopen
  generalize updateVideoSingleTask cfg fault now s.row (s.copies i).task reply = out at hstep
  obtain ⟨row, after, bill⟩ := out
  have hafter : after.quota = q := hstep.quota.trans hquota
  have hsame : after.platform = s.row.platform := hstep.platform.trans hplatform
  have hstored : row = s.row ∨ (s.row.status = (s.copies i).task.status ∧ row = after) := hstep.stored
  dsimp only
  rcases hstored with rfl | ⟨hfrom, rfl⟩
  · refine h.quiet (by rw [hnext]; rfl) ?_ ?_
    · cases bill with
      | refund =>
        -- the row is unchanged, so nothing was won
        obtain ⟨hfrom, hrow, hfail⟩ := hstep.refund rfl
        have hrow' : s.row = after := hrow
        have hfail' : after.status = .failure := hfail
        rw [← hfrom, hrow', hfail'] at hopen
        cases hopen
      | nothing => rfl
      | settle => rfl
    · cases bill with
      | refund =>
        obtain ⟨hfrom, hrow, hfail⟩ := hstep.refund rfl
        have hrow' : s.row = after := hrow
        have hfail' : after.status = .failure := hfail
        rw [← hfrom, hrow', hfail'] at hopen
        cases hopen
      | nothing => exact ⟨hsame, .inl hafter, trivial⟩
      | settle => exact ⟨hsame, .inl hafter, hstep.settle rfl, hne⟩
  · have hfree := h.free (fun hfail => by rw [← hfrom, hfail] at hopen; cases hopen) hsec
    refine h.only (fun j _ => hfree.2 j) hsame hafter ?_ h.amount fun hr => absurd hfree.1 hr
    cases bill with
    | nothing => exact ⟨rfl, .inl hafter, trivial⟩
    | refund => exact ⟨rfl, .inl hafter, (hstep.refund rfl).2.2, hfree.1⟩
    | settle => exact ⟨rfl, .inl hafter, hstep.settle rfl, by rw [hsame]; exact hne⟩

theorem suno_inv {i : ℕ} {item : SunoDataResponse} (h : PollInv q s)
    (hok : PollOk s (.suno i item)) (ht : s.act cfg (.suno i item) = some t) : PollInv q t := by
  simp only [Poll.act] at ht
  split at ht
  swap
  · cases ht
  rename_i hguard
  obtain ⟨hnext, hsuno⟩ := hguard
  have hplatform := (h.copy i).platform
  have hquota := @PollInv.quota_of_suno q s h i hsuno
  have hold : (s.copies i).next.claims = false := by
    rw [hnext]
    rfl
  split at ht
  swap
  · rw [← Option.some.inj ht]
    exact h
  rename_i hneeds
  rw [← Option.some.inj ht]
  by_cases hfails : item.fails ((s.copies i).task.withItem item).status = true
  · -- the only poll with a refund to make
    obtain ⟨hfail, hopen, hsec⟩ := hok hneeds hfails
    have hne : s.row.status ≠ .failure := by
      intro hf
      rw [hf] at hopen
      cases hopen
    have hns : s.row.status ≠ .success := by
      intro hf
      rw [hf] at hopen
      cases hopen
    have hfree := h.free hne hsec
    rw [if_pos hfails]
    exact h.only (fun j _ => hfree.2 j) rfl h.rowQuota
      ⟨hplatform, .inl hquota, hsuno, hfail, hns, hfree.1⟩ h.amount fun hr => absurd hfree.1 hr
  · rw [if_neg hfails]
    exact h.quiet hold rfl ⟨hplatform, .inl hquota, hsuno, fun hb => by cases hb⟩

theorem bill_inv {i : ℕ} {faults : TaskFaults} (hq : 0 < q) (h : PollInv q s)
    (ht : s.bill i faults = some t) : PollInv q t := by
  have hplatform := (h.copy i).platform
  have hcopy := (h.copy i).next
  have hbusyQuota := @PollInv.quota_of_busy q s h i
  have hamount := refundTaskQuota_amount faults s.world (s.copies i).task
  simp only [Poll.bill] at ht
  split at ht
  · -- a settlement: the copy keeps the actual quota, the row does not
    rename_i completion hnext
    rw [hnext] at hcopy
    rw [← Option.some.inj ht]
    obtain ⟨hstatus, hplat⟩ := settleTask_keeps faults s.world (s.copies i).task completion
    refine h.quiet (by rw [hnext]; rfl) rfl ⟨hplat.trans hplatform, .inr ⟨hcopy.2, ?_, rfl⟩, trivial⟩
    rw [hstatus, hcopy.1]
    rfl
  · rename_i again hnext
    rw [hnext] at hcopy hbusyQuota
    obtain ⟨hfail, hzero⟩ := hcopy
    rw [hbusyQuota rfl] at hamount
    rw [← Option.some.inj ht]
    refine h.only (h.others (by rw [hnext]; rfl)) rfl h.rowQuota
      ⟨hplatform, .inl (hbusyQuota rfl), ?_⟩ (by omega) fun _ => .inl hfail
    cases again <;> exact trivial
  · rename_i hnext
    rw [hnext] at hcopy hbusyQuota
    obtain ⟨hsuno, hfail, hns, hzero⟩ := hcopy
    rw [hbusyQuota rfl] at hamount
    rw [← Option.some.inj ht]
    refine h.only (h.others (by rw [hnext]; rfl)) rfl h.rowQuota
      ⟨hplatform, .inl (hbusyQuota rfl), hsuno, fun _ => ⟨hfail, hns⟩⟩ (by omega) fun hne => ?_
    right
    have hpaid : (refundTaskQuota faults s.world (s.copies i).task).2 ≠ 0 := by omega
    simp [hpaid]
  · cases ht

theorem save_inv {i : ℕ} {fault : Option String} (h : PollInv q s) (hok : PollOk s (.save i fault))
    (ht : s.act cfg (.save i fault) = some t) : PollInv q t := by
  simp only [Poll.act] at ht
  split at ht
  swap
  · cases ht
  rename_i refunds hnext
  have hplatform := (h.copy i).platform
  have hcopy := (h.copy i).next
  rw [hnext] at hcopy
  obtain ⟨hsuno, hsection⟩ := hcopy
  have hquota := @PollInv.quota_of_suno q s h i hsuno
  rw [← Option.some.inj ht]
  simp only [PollOk] at hok
  cases refunds with
  | true =>
    rw [if_pos hnext] at hok
    subst hok
    exact h.only (h.others (by rw [hnext]; rfl)) hplatform hquota ⟨rfl, .inl hquota, trivial⟩
      h.amount fun _ => .inl (hsection rfl).1
  | false =>
    rw [if_neg (by rw [hnext]; simp)] at hok
    cases fault with
    | some e => exact h.quiet (by rw [hnext]; rfl) rfl ⟨hplatform, .inl hquota, trivial⟩
    | none =>
      have hfree := h.free (hok rfl).1 (hok rfl).2
      exact h.only (fun j _ => hfree.2 j) hplatform hquota ⟨rfl, .inl hquota, trivial⟩ h.amount
        fun hr => absurd hfree.1 hr

theorem bulkFail_inv {fault : Option String} {failReason : Option String} (h : PollInv q s) :
    PollInv q { s with row := bulkFail fault s.row failReason } := by
  cases fault with
  | some e => exact h
  | none =>
    refine ⟨h.rowQuota, fun i => ?_, h.amount, h.unique, fun _ => .inl rfl⟩
    have hcopy := h.copy i
    refine ⟨hcopy.platform, hcopy.quota, ?_⟩
    have hnext := hcopy.next
    show NextOk _ (s.copies i).task s.refunded (s.copies i).next
    generalize (s.copies i).next = n at hnext
    cases n with
    | gone => exact trivial
    | polled => exact trivial
    | timedOut => exact hnext
    | settle x => exact hnext
    | refund again => exact ⟨rfl, hnext.2⟩
    | sunoRefund => exact ⟨hnext.1, hnext.2.1, by simp [bulkFail], hnext.2.2.2⟩
    | sunoSave b => exact ⟨hnext.1, fun hb => ⟨(hnext.2 hb).1, by simp [bulkFail]⟩⟩

/-- Every step that meets its condition keeps the invariant. -/
theorem pollStep_inv (hq : 0 < q) {a : Action} (h : PollInv q s) (hok : PollOk s a)
    (ht : s.act cfg a = some t) : PollInv q t := by
  cases a with
  | load i sweeps now => exact load_inv h ht
  | sweep i fault now => exact sweep_inv h hok ht
  | video i fault now reply completion => exact video_inv h hok ht
  | suno i item => exact suno_inv h hok ht
  | bill i faults => exact bill_inv hq h ht
  | save i fault => exact save_inv h hok ht
  | bulkFail fault failReason =>
    rw [← Option.some.inj ht]
    exact bulkFail_inv h

/-- **A task is billed once** in every interleaving of the pollers whose steps meet
`PollOk`, whatever the upstream replies and wherever the store fails. -/
theorem task_billed_once (cfg : PollConfig) (row : Task) (w : World) (hq : 0 < row.quota)
    (actions : List Action) (hok : (pollSystem cfg).EveryStep PollOk (.start row w) actions) :
    (pollSystem cfg).EveryState (BilledOnce row.quota) (.start row w) actions := by
  have h0 : PollInv row.quota (.start row w) :=
    ⟨rfl, fun _ => ⟨rfl, .inl rfl, trivial⟩, .inl rfl, fun _ _ hi => (by cases hi),
      fun hne => absurd rfl hne⟩
  have hrun := System.everyState_of_everyStep (S := pollSystem cfg) (I := PollInv row.quota)
    (C := PollOk) (fun s a t hs hc ht => pollStep_inv hq hs hc ht) h0 hok
  exact hrun.mono fun s hs => hs.billedOnce hq

/-- A Suno task of the user 7, charged 500. -/
def sunoTask : Task :=
  { taskID := "task_1", platform := .suno, userId := 7, quota := 500, status := .inProgress
    failReason := "", submitTime := 1750000000, startTime := 0, finishTime := 0, progress := "30%"
    privateData := ⟨"", .wallet, 0, 0, false⟩, data := [] }

def sunoFailure : SunoDataResponse := ⟨.failure, "moderation", 0, 0, 0, []⟩

def pollWorld : World := ⟨fun _ => 0, fun _ => ⟨0, 0⟩, ⟨.empty, .empty⟩⟩

theorem task_billed_once_suno :
    (pollSystem ⟨60, ""⟩).EveryState (BilledOnce 500) (.start sunoTask pollWorld)
      [.load 0 false 0, .suno 0 sunoFailure, .bill 0 .none, .save 0 none] := by
  refine task_billed_once ⟨60, ""⟩ sunoTask pollWorld (by decide) _ fun s₁ h₁ => ⟨trivial, ?_⟩
  rw [← Option.some.inj h₁]
  intro s₂ h₂
  rw [← Option.some.inj h₂]
  refine ⟨fun _ _ => ⟨rfl, rfl, ?_⟩, fun s₃ h₃ => ⟨trivial, ?_⟩⟩
  · rintro ⟨i, hi⟩
    by_cases h0 : i = 0
    · subst h0
      cases hi
    · rw [setCopy_other _ _ h0] at hi
      cases hi
  · rw [← Option.some.inj h₃]
    intro s₄ h₄
    refine ⟨?_, trivial⟩
    simp only [PollOk]
    exact (if_pos rfl).mpr trivial

/-- Two pollers hold copies from before the failure; the second does not see that the
first has refunded. -/
theorem stale_copies_refund_twice :
    ¬ (pollSystem ⟨60, ""⟩).EveryState (BilledOnce 500) (.start sunoTask pollWorld)
      [.load 0 false 0, .load 1 false 0, .suno 0 sunoFailure, .bill 0 .none, .save 0 none,
        .suno 1 sunoFailure, .bill 1 .none] := by
  intro h
  have hmost := (h.run rfl).atMost
  revert hmost
  decide

end Tasks
