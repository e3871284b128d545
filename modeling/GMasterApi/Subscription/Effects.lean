import GMasterApi.Subscription.Consume

/-!
# What the calls do to the usage of each subscription

A subscription's `Usage` is its total and what is used of it.  A call resets some
subscriptions and charges at most one; the rest of the rows does not matter to
their quota.
-/

namespace Subscription

open GoString

structure Usage where
  total : ℤ
  used : ℤ
  deriving DecidableEq

def UserSubscription.usage (sub : UserSubscription) : Usage := ⟨sub.amountTotal, sub.amountUsed⟩

def Store.usage (store : Store) (id : ℕ) : Option Usage :=
  (store.subs.find id).map UserSubscription.usage

/-- The usage after the resets of a call. -/
def Usage.resetIf (b : Bool) (u : Usage) : Usage := if b then { u with used := 0 } else u

def Usage.add (u : Usage) (n : ℤ) : Usage := { u with used := u.used + n }

@[simp] theorem Usage.resetIf_total (b : Bool) (u : Usage) : (u.resetIf b).total = u.total := by
  cases b <;> rfl

@[simp] theorem Usage.resetIf_false (u : Usage) : u.resetIf false = u := rfl

/-- Between two stores exactly the subscriptions `resets` were reset. -/
structure ResetsTo (resets : List ℕ) (before after : Store) : Prop where
  records : after.records = before.records
  usage : ∀ id, after.usage id = (before.usage id).map (Usage.resetIf (resets.contains id))

variable {store store' : Store} {sub sub' : UserSubscription} {id : ℕ} {resets : List ℕ}

theorem ResetsTo.refl (store : Store) : ResetsTo [] store store where
  records := rfl
  usage id := by
    cases store.usage id <;> rfl

theorem usage_of_find (h : store.subs.find id = some sub) : store.usage id = some sub.usage := by
  unfold Store.usage
  rw [h]
  rfl

theorem find_id (h : store.subs.find id = some sub) : sub.id = id := (Table.find_eq_some_iff.mp h).2

/-- A saved row changes the usage of its own subscription only. -/
theorem usage_saveSub (sub' : UserSubscription) (h : store.subs.find id = some sub)
    (hid : sub'.id = id) (k : ℕ) :
    (store.saveSub sub').usage k = if k = id then some sub'.usage else store.usage k := by
  unfold Store.usage Store.saveSub
  by_cases hk : k = id
  · rw [if_pos hk, hk]
    have hself : (store.subs.save sub').find id = some sub' := by
      rw [← hid] at h ⊢
      exact Table.find_save_self h
    rw [hself]
    rfl
  · rw [if_neg hk]
    have hne : (store.subs.save sub').find k = store.subs.find k :=
      Table.find_save_of_ne (by rw [hid]; exact fun e => hk e.symm)
    rw [hne]

theorem usage_setUsed (h : store.subs.find id = some sub) (n : ℤ) (k : ℕ) :
    (store.saveSub { sub with amountUsed := n }).usage k =
      if k = id then some ⟨sub.amountTotal, n⟩ else store.usage k := by
  have hid : sub.id = id := find_id h
  exact usage_saveSub { sub with amountUsed := n } h hid k

theorem find_saveSub_of_ne {k : ℕ} (hk : sub'.id ≠ k) :
    (store.saveSub sub').subs.find k = store.subs.find k := Table.find_save_of_ne hk

theorem find_saveSub_self (h : store.subs.find id = some sub) (hid : sub'.id = id) :
    (store.saveSub sub').subs.find id = some sub' := by
  rw [← hid] at h ⊢
  exact Table.find_save_self h

/-! ## Resets -/

/-- The reset of one row, saved or not. -/
theorem ResetsTo.saveRow {before : Store} (h : ResetsTo resets before store)
    (hsub : store.subs.find id = some sub) {isReset : Bool} (hid : sub'.id = id)
    (hu : sub'.usage = sub.usage.resetIf isReset) :
    ResetsTo (if isReset then id :: resets else resets) before (store.saveSub sub') where
  records := h.records
  usage k := by
    have husub := usage_of_find hsub
    rw [usage_saveSub sub' hsub hid]
    by_cases hk : k = id
    · subst hk
      have hb := h.usage k
      rw [husub] at hb
      rw [if_pos rfl, hu]
      cases hbk : before.usage k with
      | none => rw [hbk] at hb; cases hb
      | some u =>
        rw [hbk] at hb
        have hb' : sub.usage = u.resetIf (resets.contains k) := Option.some.inj hb
        rw [hb']
        cases isReset <;> cases hc : resets.contains k <;> simp_all [Usage.resetIf]
    · rw [if_neg hk, h.usage k]
      cases isReset with
      | false => rfl
      | true => simp [hk]

theorem row_usage {cfg : Config} {plan : SubscriptionPlan} {now : ℤ} {r : ResetOutcome}
    (h : maybeReset cfg sub plan now = some r) :
    (r.row sub).id = sub.id ∧ (r.row sub).usage = sub.usage.resetIf r.isReset := by
  obtain ⟨last, next, hrow⟩ := maybeReset_row h
  rw [hrow]
  refine ⟨rfl, ?_⟩
  unfold UserSubscription.usage Usage.resetIf
  split <;> rfl

variable {cfg : Config} {env : Env}

/-- A row saved after the reset due to it, or kept. -/
theorem saveOutcome_eq_ok {faults : Faults PreConsumeStep} {r : ResetOutcome}
    (h : saveOutcome faults store sub.id r = .ok store') :
    (r = .keep ∧ store' = store) ∨ store' = store.saveSub (r.row sub) := by
  cases r with
  | keep => exact .inl ⟨rfl, (Except.ok.inj h).symm⟩
  | schedule row =>
    simp only [saveOutcome] at h
    cases hf : faults.at (.saveReset sub.id) with
    | error e => rw [hf] at h; cases h
    | ok u => rw [hf] at h; exact .inr (Except.ok.inj h).symm
  | reset row =>
    simp only [saveOutcome] at h
    cases hf : faults.at (.saveReset sub.id) with
    | error e => rw [hf] at h; cases h
    | ok u => rw [hf] at h; exact .inr (Except.ok.inj h).symm

/-- The steps of `resetCandidate`. -/
theorem resetCandidate_steps {faults : Faults PreConsumeStep} {resets resets' : List ℕ}
    (h : resetCandidate cfg env faults store resets sub = .ok (sub', store', resets')) :
    ∃ r, sub' = r.row sub ∧ resets' = (if r.isReset then sub.id :: resets else resets) ∧
      saveOutcome faults store sub.id r = .ok store' ∧
      sub'.id = sub.id ∧ sub'.usage = sub.usage.resetIf r.isReset := by
  unfold resetCandidate at h
  obtain ⟨_, -, h⟩ := bind_eq_ok.mp h
  obtain ⟨plan, -, h⟩ := bind_eq_ok.mp h
  split at h
  · cases h
  rename_i r hr
  obtain ⟨st, hst, h⟩ := bind_eq_ok.mp h
  cases h
  exact ⟨r, rfl, rfl, hst, row_usage hr⟩

/-- What a candidate's turn does before it is charged. -/
theorem resetCandidate_eq_ok {faults : Faults PreConsumeStep} {before : Store}
    {resets resets' : List ℕ} (hsub : store.subs.find sub.id = some sub)
    (hbefore : ResetsTo resets before store)
    (h : resetCandidate cfg env faults store resets sub = .ok (sub', store', resets')) :
    sub'.id = sub.id ∧ store'.subs.find sub.id = some sub' ∧ ResetsTo resets' before store' ∧
      ∀ k, k ≠ sub.id → store'.subs.find k = store.subs.find k := by
  obtain ⟨r, rfl, rfl, hst, hid, hu⟩ := resetCandidate_steps h
  rcases saveOutcome_eq_ok hst with ⟨rfl, rfl⟩ | rfl
  · exact ⟨rfl, hsub, hbefore, fun _ _ => rfl⟩
  · refine ⟨hid, find_saveSub_self hsub hid, hbefore.saveRow hsub hid hu, fun k hk => ?_⟩
    exact find_saveSub_of_ne (by rw [hid]; exact fun e => hk e.symm)

/-- One step of `resetOne`. -/
theorem resetOne_eq_ok {faults : Faults ResetDueStep} {before : Store} {plan : SubscriptionPlan}
    {isReset : Bool} {n : ℕ} (hbefore : ResetsTo resets before store)
    (h : resetOne cfg env faults store id plan = .ok (store', isReset, n)) :
    ResetsTo (if isReset then id :: resets else resets) before store' := by
  have hskip : ∀ {m : ℕ}, ((faults.at (.commit id)).map fun _ => (store, false, m)) =
      .ok (store', isReset, n) → ResetsTo (if isReset then id :: resets else resets) before store' := by
    intro m hm
    cases hf : faults.at (.commit id) with
    | error e => rw [hf] at hm; cases hm
    | ok u => rw [hf] at hm; cases hm; exact hbefore
  have hsave : ∀ {locked : UserSubscription} {r : ResetOutcome}, store.subs.find id = some locked →
      maybeReset cfg locked plan env.now = some r →
      (do
        faults.at (.save id)
        faults.at (.commit id)
        return (store.saveSub (r.row locked), r.isReset, 1)) = Except.ok (store', isReset, n) →
      ResetsTo (if isReset then id :: resets else resets) before store' := by
    intro locked r hfind hr hdo
    obtain ⟨_, -, hdo⟩ := bind_eq_ok.mp hdo
    obtain ⟨_, -, hdo⟩ := bind_eq_ok.mp hdo
    cases hdo
    obtain ⟨hid, hu⟩ := row_usage hr
    exact hbefore.saveRow hfind (hid.trans (find_id hfind)) hu
  unfold resetOne at h
  split at h
  · rename_i locked _ hfind
    split at h
    · split at h
      · cases h
      · exact hskip h
      · rename_i r _ hr
        exact hsave hfind hr h
    · exact hskip h
  · exact hskip h

theorem resetFrom_resetsTo {faults : Faults ResetDueStep} {before : Store}
    (due : List UserSubscription) (run : ResetRun) (h : ResetsTo run.resets before run.store) :
    ResetsTo (resetFrom cfg env faults run due).resets before
      (resetFrom cfg env faults run due).store := by
  induction due generalizing run with
  | nil => exact h
  | cons sub rest ih =>
    unfold resetFrom
    split
    · rename_i plan _ _
      split
      · exact h
      · rename_i st isReset n hone
        exact ih _ (resetOne_eq_ok h hone)
    · exact ih run h

/-- `ResetDueSubscriptions` does nothing but reset. -/
theorem resetDueSubscriptions_resetsTo (faults : Faults ResetDueStep) (store : Store) (limit : ℤ) :
    ResetsTo (resetDueSubscriptions cfg env faults store limit).resets store
      (resetDueSubscriptions cfg env faults store limit).store := by
  unfold resetDueSubscriptions
  dsimp only
  split
  · exact .refl store
  · exact resetFrom_resetsTo _ _ (.refl store)

/-! ## Pre-consumption -/

/-- A request that is new charged one subscription, after the resets `out.resets`. -/
structure Charged (store : Store) (requestId : String) (userId : ℕ) (amount : ℤ)
    (out : PreConsumed) : Prop where
  preConsumed : out.result.preConsumed = amount
  record : store.records.create ⟨requestId, userId, out.result.userSubscriptionId, amount,
    .consumed⟩ = some out.store.records
  exists_usage : ∃ u, store.usage out.result.userSubscriptionId = some u ∧
    (0 < u.total → (u.resetIf (out.resets.contains out.result.userSubscriptionId)).used + amount ≤
      u.total)
  usage : ∀ id, out.store.usage id = (store.usage id).map fun u =>
    if id = out.result.userSubscriptionId then (u.resetIf (out.resets.contains id)).add amount
    else u.resetIf (out.resets.contains id)

theorem chargeCandidate_eq_ok {faults : Faults PreConsumeStep} {before : Store} {requestId : String}
    {userId : ℕ} {amount : ℤ} {out : PreConsumed} (hsub : store.subs.find sub.id = some sub)
    (hbefore : ResetsTo resets before store) (hfresh : before.records.find requestId = none)
    (hfit : ¬ (0 < sub.amountTotal ∧ sub.amountTotal - sub.amountUsed < amount))
    (h : chargeCandidate faults store resets requestId userId amount sub = .ok out) :
    Charged before requestId userId amount out := by
  have hrec := hbefore.records
  unfold chargeCandidate at h
  dsimp only at h
  split at h
  · rename_i records _ hcreate
    obtain ⟨_, -, h⟩ := bind_eq_ok.mp h
    cases h
    rw [hrec] at hcreate
    have hu := hbefore.usage sub.id
    rw [usage_of_find hsub] at hu
    refine ⟨rfl, hcreate, ?_, fun k => ?_⟩
    · cases hb : before.usage sub.id with
      | none => rw [hb] at hu; cases hu
      | some u =>
        rw [hb] at hu
        have hu' : sub.usage = u.resetIf (resets.contains sub.id) := Option.some.inj hu
        refine ⟨u, rfl, fun ht => ?_⟩
        show (u.resetIf (resets.contains sub.id)).used + amount ≤ u.total
        rw [← hu']
        have htot : sub.amountTotal = u.total := by
          rw [← Usage.resetIf_total (resets.contains sub.id) u, ← hu']
          rfl
        show sub.amountUsed + amount ≤ u.total
        omega
    · have hsave := usage_setUsed hsub (sub.amountUsed + amount) k
      show (store.saveSub { sub with amountUsed := sub.amountUsed + amount }).usage k = _
      rw [hsave]
      by_cases hk : k = sub.id
      · subst hk
        rw [if_pos rfl]
        cases hb : before.usage sub.id with
        | none => rw [hb] at hu; cases hu
        | some u =>
          rw [hb] at hu
          have hu' : sub.usage = u.resetIf (resets.contains sub.id) := Option.some.inj hu
          simp only [Option.map_some, if_true]
          rw [← hu']
          rfl
      · rw [if_neg hk, hbefore.usage k]
        simp only [hk, if_false]
  · split at h
    · rename_i dup _ hdup
      rw [hrec, hfresh] at hdup
      cases hdup
    · cases h

/-- Charged or not, the answer names the candidate. -/
theorem chargeCandidate_id {faults : Faults PreConsumeStep} {requestId : String} {userId : ℕ}
    {amount : ℤ} {out : PreConsumed}
    (h : chargeCandidate faults store resets requestId userId amount sub = .ok out) :
    out.result.userSubscriptionId = sub.id := by
  unfold chargeCandidate at h
  dsimp only at h
  split at h
  · obtain ⟨_, -, h⟩ := bind_eq_ok.mp h
    rw [← Except.ok.inj h]
  · split at h
    · split at h
      · cases h
      · rw [← Except.ok.inj h]
    · cases h

theorem consumeFrom_eq_ok {faults : Faults PreConsumeStep} {before : Store} {requestId : String}
    {userId : ℕ} {amount : ℤ} {out : PreConsumed} (hfresh : before.records.find requestId = none) :
    ∀ (subs : List UserSubscription) (store : Store) (resets : List ℕ),
      (∀ c ∈ subs, store.subs.find c.id = some c) → (subs.map UserSubscription.id).Nodup →
      ResetsTo resets before store →
      consumeFrom cfg env faults requestId userId amount store resets subs = .ok out →
      Charged before requestId userId amount out := by
  intro subs
  induction subs with
  | nil => intro store resets _ _ _ h; cases h
  | cons c rest ih =>
    intro store resets hfind hnodup hbefore h
    rw [List.map_cons, List.nodup_cons] at hnodup
    unfold consumeFrom at h
    obtain ⟨⟨sub', store', resets'⟩, hreset, h⟩ := bind_eq_ok.mp h
    obtain ⟨hid, hsub', hbefore', hother⟩ :=
      resetCandidate_eq_ok (hfind c List.mem_cons_self) hbefore hreset
    dsimp only at h
    split at h
    · -- too little is left: on to the next candidate
      refine ih store' resets' (fun d hd => ?_) hnodup.2 hbefore' h
      have hne : d.id ≠ c.id := fun e => hnodup.1 (e ▸ List.mem_map_of_mem hd)
      rw [hother d.id hne]
      exact hfind d (List.mem_cons_of_mem _ hd)
    · rename_i hfit
      rw [← hid] at hsub'
      exact chargeCandidate_eq_ok hsub' hbefore' hfresh hfit h

/-- The subscription a call answers with is one of its candidates. -/
theorem consumeFrom_mem {faults : Faults PreConsumeStep} {requestId : String} {userId : ℕ}
    {amount : ℤ} {out : PreConsumed} :
    ∀ (subs : List UserSubscription) (store : Store) (resets : List ℕ),
      consumeFrom cfg env faults requestId userId amount store resets subs = .ok out →
      ∃ c ∈ subs, c.id = out.result.userSubscriptionId := by
  intro subs
  induction subs with
  | nil => intro store resets h; cases h
  | cons c rest ih =>
    intro store resets h
    unfold consumeFrom at h
    obtain ⟨⟨sub', store', resets'⟩, hreset, h⟩ := bind_eq_ok.mp h
    dsimp only at h
    split at h
    · obtain ⟨d, hd, hid⟩ := ih _ _ h
      exact ⟨d, List.mem_cons_of_mem _ hd, hid⟩
    · refine ⟨c, List.mem_cons_self, ?_⟩
      rw [chargeCandidate_id h]
      obtain ⟨r, -, -, -, hid, -⟩ := resetCandidate_steps hreset
      exact hid.symm

theorem preConsume_named {faults : Faults PreConsumeStep} {requestId : String} {userId : ℕ}
    {amount : ℤ} {out : PreConsumed}
    (h : preConsumeUserSubscription cfg env faults store requestId userId amount = .ok out) :
    trimSpace requestId ≠ "" := by
  unfold preConsumeUserSubscription at h
  split at h
  · cases h
  split at h
  · cases h
  · assumption

/-- The subscription that answers a new request is an active one of its user. -/
theorem preConsume_active {faults : Faults PreConsumeStep} {requestId : String} {userId : ℕ}
    {amount : ℤ} {out : PreConsumed} (hfresh : store.records.find requestId = none)
    (h : preConsumeUserSubscription cfg env faults store requestId userId amount = .ok out) :
    ∃ sub, store.subs.find out.result.userSubscriptionId = some sub ∧
      sub.isActive userId env.now = true := by
  unfold preConsumeUserSubscription at h
  split at h
  · cases h
  split at h
  · cases h
  split at h
  · cases h
  obtain ⟨_, -, h⟩ := bind_eq_ok.mp h
  simp only [hfresh] at h
  split at h
  · cases h
  obtain ⟨out', hloop, h⟩ := bind_eq_ok.mp h
  obtain ⟨_, -, h⟩ := bind_eq_ok.mp h
  rw [← Except.ok.inj h]
  obtain ⟨c, hc, hid⟩ := consumeFrom_mem _ _ _ hloop
  obtain ⟨hmem, hactive⟩ := Table.mem_select.mp hc
  exact ⟨c, Table.find_eq_some_iff.mpr ⟨hmem, hid⟩, hactive⟩

/-- `PreConsumeUserSubscription` returns the record of a request it has seen, and
otherwise charges. -/
theorem preConsume_eq_ok {faults : Faults PreConsumeStep} {requestId : String} {userId : ℕ}
    {amount : ℤ} {out : PreConsumed}
    (h : preConsumeUserSubscription cfg env faults store requestId userId amount = .ok out) :
    0 < amount ∧
      ((∃ existing, store.records.find requestId = some existing ∧ out.store = store ∧
          out.resets = []) ∨
        (store.records.find requestId = none ∧ Charged store requestId userId amount out)) := by
  unfold preConsumeUserSubscription at h
  split at h
  · cases h
  split at h
  · cases h
  split at h
  · cases h
  rename_i hpos
  refine ⟨by omega, ?_⟩
  obtain ⟨_, -, h⟩ := bind_eq_ok.mp h
  split at h
  · rename_i existing hfind
    split at h
    · cases h
    obtain ⟨_, -, h⟩ := bind_eq_ok.mp h
    split at h
    · cases h
    obtain ⟨_, -, h⟩ := bind_eq_ok.mp h
    cases h
    exact .inl ⟨existing, hfind, rfl, rfl⟩
  · rename_i hfresh
    dsimp only at h
    split at h
    · cases h
    obtain ⟨out', hloop, h⟩ := bind_eq_ok.mp h
    obtain ⟨_, -, h⟩ := bind_eq_ok.mp h
    cases h
    refine .inr ⟨hfresh, consumeFrom_eq_ok hfresh _ store [] (fun c hc => ?_) ?_ (.refl store) hloop⟩
    · exact Table.find_eq_some_iff.mpr ⟨(Table.mem_select.mp hc).1, rfl⟩
    · exact Table.nodup_select

/-! ## Settlement and refund -/

/-- A delta that returned nil moved the usage of its subscription and stayed within
its total. -/
theorem usage_postConsume {faults : Faults DeltaStep} {subId : ℕ} {delta : ℤ}
    (h : postConsumeUserSubscriptionDelta faults store subId delta = .ok store') :
    store'.records = store.records ∧ ((delta = 0 ∧ store' = store) ∨
      ∃ u, store.usage subId = some u ∧ (0 < u.total → usedAfter u.used delta ≤ u.total) ∧
        ∀ id, store'.usage id =
          if id = subId then some ⟨u.total, usedAfter u.used delta⟩ else store.usage id) := by
  rcases postConsume_eq_ok h with ⟨hz, rfl⟩ | ⟨sub, hsub, hfit, rfl⟩
  · exact ⟨rfl, .inl ⟨hz, rfl⟩⟩
  · refine ⟨rfl, .inr ⟨sub.usage, usage_of_find hsub, hfit, fun id => ?_⟩⟩
    exact usage_setUsed hsub (usedAfter sub.amountUsed delta) id

/-- What an outstanding record refunds, and to which subscription. -/
def refundable (store : Store) (requestId : String) : Option (ℕ × ℤ) :=
  match store.records.find requestId with
  | none => none
  | some record =>
    if record.status = .refunded ∨ record.preConsumed ≤ 0 then none
    else some (record.userSubscriptionId, record.preConsumed)

/-- A refund of which no step fails: all of it or, where it returns an error, none. -/
theorem usage_refund (store : Store) (requestId : String) :
    ((refundSubscriptionPreConsume noFaults store requestId).2.isOk = false →
        (refundSubscriptionPreConsume noFaults store requestId).1 = store) ∧
      ((refundSubscriptionPreConsume noFaults store requestId).2.isOk = true →
        match refundable store requestId with
        | none => ∀ id,
          (refundSubscriptionPreConsume noFaults store requestId).1.usage id = store.usage id
        | some (subId, n) => ∃ u, store.usage subId = some u ∧
          (0 < u.total → usedAfter u.used (-n) ≤ u.total) ∧
          ∀ id, (refundSubscriptionPreConsume noFaults store requestId).1.usage id =
            if id = subId then some ⟨u.total, usedAfter u.used (-n)⟩ else store.usage id) := by
  unfold refundSubscriptionPreConsume refundable
  split
  · exact ⟨fun _ => rfl, fun h => by cases h⟩
  simp only [Faults.at_noFaults]
  cases hrec : store.records.find requestId with
  | none => exact ⟨fun _ => rfl, fun h => by cases h⟩
  | some record =>
    dsimp only
    by_cases hr : record.status = .refunded
    · rw [if_pos hr, if_pos (.inl hr)]
      exact ⟨fun _ => rfl, fun _ _ => rfl⟩
    by_cases hp : record.preConsumed ≤ 0
    · rw [if_neg hr, if_pos hp, if_pos (.inr hp)]
      exact ⟨fun h => (by cases h), fun _ _ => rfl⟩
    rw [if_neg hr, if_neg hp, if_neg (not_or.mpr ⟨hr, hp⟩)]
    cases hpost : postConsumeUserSubscriptionDelta (fun step => noFaults (RefundStep.inner step))
        store record.userSubscriptionId (-record.preConsumed) with
    | error e => exact ⟨fun _ => rfl, fun h => by cases h⟩
    | ok st =>
      refine ⟨fun h => (by cases h), fun _ => ?_⟩
      obtain ⟨-, ⟨hz, -⟩ | ⟨u, hu, hfit, husage⟩⟩ := usage_postConsume hpost
      · omega
      · exact ⟨u, hu, hfit, husage⟩

end Subscription
