import GMasterApi.Lib.Transition
import GMasterApi.Subscription.Consume

/-!
# The user's group while subscriptions come and go

A plan may upgrade its buyer's group.  Each subscription stores the group that it
displaced, nothing where the user was in its group already, and the group is
taken back from the row that ends last.

`group_restored` gives the condition under which the user is in the group of his
only active subscription, and back in his own once there is none.
-/

namespace Subscription

open Transition GoString

/-- The subscriptions of all users and the group of each. -/
structure GroupStore where
  subs : SubTable
  group : ℕ → String

/-! ## The operations -/

/-- `ORDER BY end_time desc, id desc`. -/
def endsAfter (a b : UserSubscription) : Prop :=
  b.endTime < a.endTime ∨ (b.endTime = a.endTime ∧ b.id ≤ a.id)

instance : DecidableRel endsAfter := fun _ _ => inferInstanceAs (Decidable (_ ∨ _))

/-- `user_id = ? AND status = "active" AND end_time > ? AND upgrade_group <> ''`. -/
def UserSubscription.upgrades (sub : UserSubscription) (userId : ℕ) (now : ℤ) : Bool :=
  sub.isActive userId now && sub.upgradeGroup ≠ ""

def GroupStore.setGroup (store : GroupStore) (userId : ℕ) (group : String) : GroupStore :=
  { store with group := Function.update store.group userId group }

/-- The store afterwards and the group that the user is back in, if any. -/
def downgradeUserGroupForSubscriptionTx (store : GroupStore) (sub : UserSubscription) (now : ℤ) :
    GroupStore × String :=
  let upgradeGroup := trimSpace sub.upgradeGroup
  let currentGroup := store.group sub.userId
  let prevGroup := trimSpace sub.prevUserGroup
  if upgradeGroup = "" then (store, "")
  else if currentGroup ≠ upgradeGroup then (store, "")
  else if store.subs.select (fun s => s.upgrades sub.userId now && s.id ≠ sub.id) endsAfter ≠ [] then
    (store, "")
  else if prevGroup = "" ∨ prevGroup = currentGroup then (store, "")
  else (store.setGroup sub.userId prevGroup, prevGroup)

/-- The row of a purchase; `group` is the group of the buyer. -/
def newSubscription (zone : GoTime.Zone) (id userId : ℕ) (plan : SubscriptionPlan) (source : String)
    (group : String) (now endUnix : ℤ) : UserSubscription :=
  let nextReset := calcNextResetTime zone now plan endUnix
  let upgradeGroup := trimSpace plan.upgradeGroup
  { id := id
    userId := userId
    planId := plan.id
    amountTotal := plan.totalAmount
    amountUsed := 0
    startTime := now
    endTime := endUnix
    status := .active
    source := source
    lastResetTime := if 0 < nextReset then now else 0
    nextResetTime := nextReset
    upgradeGroup := upgradeGroup
    prevUserGroup := if upgradeGroup ≠ "" ∧ group ≠ upgradeGroup then group else "" }

def createUserSubscriptionFromPlanTx (zone : GoTime.Zone) (store : GroupStore) (id userId : ℕ)
    (plan : SubscriptionPlan) (source : String) (now : ℤ) : Except String GroupStore :=
  if plan.id = 0 then .error "invalid plan"
  else if userId = 0 then .error "invalid user id"
  else if 0 < plan.maxPurchasePerUser ∧ plan.maxPurchasePerUser ≤
      (store.subs.rows.filter fun s => s.userId = userId ∧ s.planId = plan.id).length then
    .error "已达到该套餐购买上限"
  else match calcPlanEndTime zone now plan with
    | .error e => .error e
    | .ok endUnix =>
      let upgradeGroup := trimSpace plan.upgradeGroup
      let sub := newSubscription zone id userId plan source (store.group userId) now endUnix
      match store.subs.create sub with
      | none => .error "duplicated key not allowed"
      | some subs =>
        if upgradeGroup ≠ "" ∧ store.group userId ≠ upgradeGroup then
          .ok { store.setGroup userId upgradeGroup with subs := subs }
        else .ok { store with subs := subs }

/-- The row of a subscription cancelled at `now`. -/
def UserSubscription.cancel (sub : UserSubscription) (now : ℤ) : UserSubscription :=
  { sub with status := .cancelled, endTime := now }

def rollbackMessage (target : String) : String :=
  if target ≠ "" then "用户分组将回退到 " ++ target else ""

def adminInvalidateUserSubscription (store : GroupStore) (id : ℕ) (now : ℤ) :
    Except String (GroupStore × String) :=
  if id = 0 then .error "invalid userSubscriptionId"
  else match store.subs.find id with
    | none => .error errRecordNotFound
    | some sub =>
      let cancelled := { store with subs := store.subs.save (sub.cancel now) }
      let out := downgradeUserGroupForSubscriptionTx cancelled sub now
      .ok (out.1, rollbackMessage out.2)

def adminDeleteUserSubscription (store : GroupStore) (id : ℕ) (now : ℤ) :
    Except String (GroupStore × String) :=
  if id = 0 then .error "invalid userSubscriptionId"
  else match store.subs.find id with
    | none => .error errRecordNotFound
    | some sub =>
      let out := downgradeUserGroupForSubscriptionTx store sub now
      .ok ({ out.1 with subs := out.1.subs.delete id }, rollbackMessage out.2)

/-- `status = "active" AND end_time > 0 AND end_time <= ?`. -/
def UserSubscription.expireDue (sub : UserSubscription) (now : ℤ) : Bool :=
  sub.status = .active ∧ 0 < sub.endTime ∧ sub.endTime ≤ now

/-- Mark the due subscriptions of a user expired. -/
def markExpired (subs : SubTable) (userId : ℕ) (now : ℤ) : SubTable :=
  subs.updateWhere (fun s => s.userId = userId && s.expireDue now)
    (fun s => { s with status := .expired }) fun _ => rfl

/-- The transaction of `ExpireDueSubscriptions` for one user. -/
def expireUser (store : GroupStore) (userId : ℕ) (now : ℤ) : GroupStore :=
  let store := { store with subs := markExpired store.subs userId now }
  if store.subs.select (·.upgrades userId now) endsAfter ≠ [] then store
  else
    match (store.subs.select
        (fun s => s.userId = userId ∧ s.status = .expired ∧ s.upgradeGroup ≠ "") endsAfter).head? with
    | none => store
    | some lastExpired =>
      let upgradeGroup := trimSpace lastExpired.upgradeGroup
      let prevGroup := trimSpace lastExpired.prevUserGroup
      let currentGroup := store.group userId
      if upgradeGroup = "" ∨ prevGroup = "" then store
      else if currentGroup ≠ upgradeGroup ∨ currentGroup = prevGroup then store
      else store.setGroup userId prevGroup

/-- The users whose subscriptions `ExpireDueSubscriptions(limit)` finds due. -/
def expireBatch (store : GroupStore) (limit now : ℤ) : List ℕ :=
  let limit := if limit ≤ 0 then 200 else limit
  ((store.subs.select (·.expireDue now) endsBefore).take limit.toNat).map UserSubscription.userId

/-! ## Runs -/

structure GroupState where
  store : GroupStore
  now : ℤ

/-- What may happen; each at a time of its own.  A batch goes through its users in
any order (`users`), and an error may end it early. -/
inductive GroupOp
  | create (id userId : ℕ) (plan : SubscriptionPlan) (source : String)
  | expireDue (limit : ℤ) (users : List ℕ)
  | adminInvalidate (id : ℕ)
  | adminDelete (id : ℕ)
  | wait

/-- The store after an operation at `now`; one that returns an error changes nothing. -/
def applyOp (zone : GoTime.Zone) (store : GroupStore) (now : ℤ) : GroupOp → Option GroupStore
  | .create id userId plan source =>
    match createUserSubscriptionFromPlanTx zone store id userId plan source now with
    | .error _ => some store
    | .ok store' => some store'
  | .expireDue limit users =>
    if users.all (expireBatch store limit now).contains then
      some (users.foldl (fun st u => if u = 0 then st else expireUser st u now) store)
    else none
  | .adminInvalidate id =>
    match adminInvalidateUserSubscription store id now with
    | .error _ => some store
    | .ok out => some out.1
  | .adminDelete id =>
    match adminDeleteUserSubscription store id now with
    | .error _ => some store
    | .ok out => some out.1
  | .wait => some store

/-- Time does not run backwards. -/
def groupSystem (zone : GoTime.Zone) : System GroupState (GroupOp × ℤ) where
  step s op :=
    if s.now ≤ op.2 then (applyOp zone s.store op.2 op.1).map fun store => ⟨store, op.2⟩
    else none

/-- **Group restored.**  With no upgrading subscription left active and none due to
expire, the user is in `g`; with exactly one active, in its group. -/
structure GroupRestored (userId : ℕ) (g : String) (s : GroupState) : Prop where
  none_active : (∀ sub ∈ s.store.subs.rows, sub.userId = userId → sub.expireDue s.now = false ∧
    sub.upgrades userId s.now = false) → s.store.group userId = g
  one_active : ∀ sub ∈ s.store.subs.rows, sub.upgrades userId s.now = true →
    (∀ other ∈ s.store.subs.rows, other.upgrades userId s.now = true → other = sub) →
    s.store.group userId = sub.upgradeGroup

/-- A row of the user that upgrades his group and is marked active, due or not. -/
def UserSubscription.holdsGroup (sub : UserSubscription) (userId : ℕ) : Prop :=
  sub.userId = userId ∧ sub.status = .active ∧ sub.upgradeGroup ≠ ""

/-- The condition on a purchase of an upgrading plan by the user: it ends in the
future; if it displaces `g`, it ends after every other upgrading row marked
active; if the user has left `g`, it renews his group and ends before the row
that displaced `g`. -/
def PurchaseOk (zone : GoTime.Zone) (userId : ℕ) (g : String) (store : GroupStore) (now : ℤ)
    (plan : SubscriptionPlan) : Prop :=
  let upgradeGroup := trimSpace plan.upgradeGroup
  upgradeGroup = "" ∨ ∀ endUnix, calcPlanEndTime zone now plan = .ok endUnix →
    now < endUnix ∧
      if store.group userId = g then
        upgradeGroup = g ∨
          ∀ sub ∈ store.subs.rows, sub.holdsGroup userId → sub.endTime < endUnix
      else
        upgradeGroup = store.group userId ∧
          ∃ sub ∈ store.subs.rows, sub.holdsGroup userId ∧ sub.prevUserGroup ≠ "" ∧
            sub.upgradeGroup = store.group userId ∧ endUnix < sub.endTime

/-- The condition on an administrator's cancellation or deletion: the active row that
displaced `g` goes only when no other active row upgrades the group. -/
def RemovalOk (userId : ℕ) (store : GroupStore) (now : ℤ) (id : ℕ) : Prop :=
  ∀ sub ∈ store.subs.rows, sub.id = id → sub.upgrades userId now = true →
    sub.prevUserGroup ≠ "" → sub.upgradeGroup = store.group userId →
    ∀ other ∈ store.subs.rows, other.upgrades userId now = true → other = sub

/-- The condition on an operation; a purchase that fails is free of it. -/
def GroupOpOk (zone : GoTime.Zone) (userId : ℕ) (g : String) (s : GroupState) :
    GroupOp × ℤ → Prop
  | (.create id buyer plan source, now) => buyer = userId →
    (createUserSubscriptionFromPlanTx zone s.store id buyer plan source now).isOk = true →
    PurchaseOk zone userId g s.store now plan
  | (.adminInvalidate id, now) => RemovalOk userId s.store now id
  | (.adminDelete id, now) => RemovalOk userId s.store now id
  | _ => True

/-! ## The invariant -/

instance : Std.Total endsAfter where
  total a b := by
    unfold endsAfter
    omega

instance : IsTrans UserSubscription endsAfter where
  trans a b c hab hbc := by
    unfold endsAfter at *
    omega

def UserSubscription.isUpgrade (sub : UserSubscription) (userId : ℕ) : Prop :=
  sub.userId = userId ∧ sub.upgradeGroup ≠ ""

/-- What holds of every upgrading row: if it stores a group at all, that is `g`. -/
structure RowOk (g : String) (now : ℤ) (sub : UserSubscription) : Prop where
  trimmed : trimSpace sub.upgradeGroup = sub.upgradeGroup
  prev : sub.prevUserGroup = "" ∨ (sub.prevUserGroup = g ∧ sub.upgradeGroup ≠ g)
  expired : sub.status = .expired → sub.endTime ≤ now
  positive : sub.status = .active → 0 < sub.endTime

/-- `r` displaced `g` for the current group, and ends after all other upgrading rows
but those that were cancelled. -/
structure Displacer (userId : ℕ) (g : String) (rows : List UserSubscription) (group : String)
    (r : UserSubscription) : Prop where
  mem : r ∈ rows
  holds : r.holdsGroup userId
  prev : r.prevUserGroup = g
  group : r.upgradeGroup = group
  last : ∀ o ∈ rows, o.isUpgrade userId → o.status ≠ .cancelled → o = r ∨ o.endTime < r.endTime

structure GroupInv (userId : ℕ) (g : String) (rows : List UserSubscription) (group : String)
    (now : ℤ) : Prop where
  time : 0 ≤ now
  row : ∀ sub ∈ rows, sub.isUpgrade userId → RowOk g now sub
  held : group = g ∨ ∃ r, Displacer userId g rows group r
  free : group = g → ∀ sub ∈ rows, sub.upgrades userId now = true → sub.upgradeGroup = g

variable {zone : GoTime.Zone} {userId : ℕ} {g group : String} {rows rows' : List UserSubscription}
  {now now' : ℤ} {sub r : UserSubscription} {store : GroupStore}

theorem upgrades_iff : sub.upgrades userId now = true ↔ sub.holdsGroup userId ∧ now < sub.endTime := by
  unfold UserSubscription.upgrades UserSubscription.isActive UserSubscription.holdsGroup
  simp only [Bool.and_eq_true, decide_eq_true_eq]
  tauto

theorem UserSubscription.holdsGroup.isUpgrade (h : sub.holdsGroup userId) : sub.isUpgrade userId :=
  ⟨h.1, h.2.2⟩

theorem Displacer.ne (h : Displacer userId g rows group r) (hinv : GroupInv userId g rows group now)
    (hg : g ≠ "") : group ≠ g := by
  rcases (hinv.row r h.mem h.holds.isUpgrade).prev with hp | ⟨-, hne⟩
  · rw [h.prev] at hp
    exact absurd hp hg
  · rwa [h.group] at hne

/-- Where any row upgrades the group, the displacer does. -/
theorem Displacer.upgrades (h : Displacer userId g rows group r) (hmem : sub ∈ rows)
    (hsub : sub.upgrades userId now = true) : r.upgrades userId now = true := by
  obtain ⟨hholds, hend⟩ := upgrades_iff.mp hsub
  rw [upgrades_iff]
  refine ⟨h.holds, ?_⟩
  rcases h.last sub hmem hholds.isUpgrade (by rw [hholds.2.1]; decide) with rfl | hlt
  · exact hend
  · omega

theorem GroupInv.restored {s : GroupState}
    (h : GroupInv userId g s.store.subs.rows (s.store.group userId) s.now) :
    GroupRestored userId g s where
  none_active := by
    intro hnone
    rcases h.held with hg | ⟨r, hr⟩
    · exact hg
    · obtain ⟨hdue, hup⟩ := hnone r hr.mem hr.holds.1
      have hpos := (h.row r hr.mem hr.holds.isUpgrade).positive hr.holds.2.1
      have hend : ¬ s.now < r.endTime := by
        intro hlt
        rw [upgrades_iff.mpr ⟨hr.holds, hlt⟩] at hup
        cases hup
      have hdue' : r.expireDue s.now = true := by
        unfold UserSubscription.expireDue
        simp only [decide_eq_true_eq]
        exact ⟨hr.holds.2.1, hpos, by omega⟩
      rw [hdue'] at hdue
      cases hdue
  one_active := by
    intro sub hmem hup honly
    rcases h.held with hg | ⟨r, hr⟩
    · rw [hg]
      exact (h.free hg sub hmem hup).symm
    · rw [← hr.group, honly r hr.mem (hr.upgrades hmem hup)]

/-- Only the user's upgrading rows matter. -/
theorem GroupInv.congr (h : GroupInv userId g rows group now)
    (hrows : ∀ x : UserSubscription, x.isUpgrade userId → (x ∈ rows' ↔ x ∈ rows)) :
    GroupInv userId g rows' group now where
  time := h.time
  row x hx hup := h.row x ((hrows x hup).mp hx) hup
  held := by
    rcases h.held with hg | ⟨r, hr⟩
    · exact .inl hg
    · exact .inr ⟨r, (hrows r hr.holds.isUpgrade).mpr hr.mem, hr.holds, hr.prev, hr.group,
        fun o ho hup => hr.last o ((hrows o hup).mp ho) hup⟩
  free hg x hx hup := h.free hg x ((hrows x (upgrades_iff.mp hup).1.isUpgrade).mp hx) hup

theorem RowOk.advance (h : RowOk g now sub) (hle : now ≤ now') : RowOk g now' sub :=
  ⟨h.trimmed, h.prev, fun he => (h.expired he).trans hle, h.positive⟩

theorem GroupInv.advance (h : GroupInv userId g rows group now) (hle : now ≤ now') :
    GroupInv userId g rows group now' where
  time := h.time.trans hle
  row x hx hup := (h.row x hx hup).advance hle
  held := h.held
  free hg x hx hup := by
    obtain ⟨hholds, hend⟩ := upgrades_iff.mp hup
    exact h.free hg x hx (upgrades_iff.mpr ⟨hholds, by omega⟩)

/-- Back in `g` while nothing upgrades the group. -/
theorem GroupInv.released (htime : 0 ≤ now) (hrow : ∀ x ∈ rows, x.isUpgrade userId → RowOk g now x)
    (hnone : ∀ x ∈ rows, x.upgrades userId now = false) : GroupInv userId g rows g now where
  time := htime
  row := hrow
  held := .inl rfl
  free _ x hx hup := by
    rw [hnone x hx] at hup
    cases hup

/-! ## Purchases -/

/-- What a purchase that goes through does. -/
theorem create_eq_ok {id buyer : ℕ} {plan : SubscriptionPlan} {source : String} {store' : GroupStore}
    (h : createUserSubscriptionFromPlanTx zone store id buyer plan source now = .ok store') :
    ∃ endUnix, calcPlanEndTime zone now plan = .ok endUnix ∧
      store'.subs.rows = store.subs.rows ++
        [newSubscription zone id buyer plan source (store.group buyer) now endUnix] ∧
      store'.group = if trimSpace plan.upgradeGroup = "" then store.group
        else Function.update store.group buyer (trimSpace plan.upgradeGroup) := by
  unfold createUserSubscriptionFromPlanTx at h
  split at h
  · cases h
  split at h
  · cases h
  split at h
  · cases h
  split at h
  · cases h
  rename_i endUnix hend
  dsimp only at h
  split at h
  · cases h
  rename_i subs hcreate
  refine ⟨endUnix, hend, ?_⟩
  have hrows := (Table.create_eq_some hcreate).2
  split at h
  · rename_i hup
    rw [← Except.ok.inj h]
    exact ⟨hrows, by rw [if_neg hup.1]; rfl⟩
  · rename_i hup
    rw [← Except.ok.inj h]
    refine ⟨hrows, ?_⟩
    split
    · rfl
    · rename_i hne
      have heq : store.group buyer = trimSpace plan.upgradeGroup := by
        by_contra hdiff
        exact hup ⟨hne, hdiff⟩
      rw [← heq, Function.update_eq_self]

section NewRow

variable {n : UserSubscription}

/-- A row of another user, or one that upgrades no group. -/
theorem GroupInv.append_other (h : GroupInv userId g rows group now) (hn : ¬ n.isUpgrade userId) :
    GroupInv userId g (rows ++ [n]) group now := by
  refine h.congr fun x hx => ?_
  rw [List.mem_append, List.mem_singleton]
  exact ⟨fun hmem => hmem.resolve_right fun e => hn (e ▸ hx), .inl⟩

theorem GroupInv.row_append (h : GroupInv userId g rows group now) (hn : RowOk g now n) :
    ∀ x ∈ rows ++ [n], x.isUpgrade userId → RowOk g now x := by
  intro x hx hxu
  rcases List.mem_append.mp hx with hx | hx
  · exact h.row x hx hxu
  · rw [List.mem_singleton.mp hx]
    exact hn

/-- An upgrade to `g` itself, in `g`. -/
theorem GroupInv.append_same (h : GroupInv userId g rows g now) (hn : RowOk g now n)
    (hgroup : n.upgradeGroup = g) : GroupInv userId g (rows ++ [n]) g now where
  time := h.time
  row := h.row_append hn
  held := .inl rfl
  free := by
    intro _ x hx hxu
    rcases List.mem_append.mp hx with hx | hx
    · exact h.free rfl x hx hxu
    · rw [List.mem_singleton.mp hx]
      exact hgroup

/-- The new row displaces `g`, and ends after all other upgrading rows. -/
theorem GroupInv.append_displacer (h : GroupInv userId g rows g now) (hn : RowOk g now n)
    (hholds : n.holdsGroup userId) (hprev : n.prevUserGroup = g) (hgroup : n.upgradeGroup ≠ g)
    (hfuture : now < n.endTime)
    (hlast : ∀ o ∈ rows, o.holdsGroup userId → o.endTime < n.endTime) :
    GroupInv userId g (rows ++ [n]) n.upgradeGroup now where
  time := h.time
  row := h.row_append hn
  held := by
    refine .inr ⟨n, by simp, hholds, hprev, rfl, fun o ho hou hoc => ?_⟩
    rcases List.mem_append.mp ho with ho | ho
    · right
      cases hos : o.status with
      | active => exact hlast o ho ⟨hou.1, hos, hou.2⟩
      | expired =>
        have := (h.row o ho hou).expired hos
        omega
      | cancelled => exact absurd hos hoc
    · exact .inl (List.mem_singleton.mp ho)
  free := fun e => absurd e hgroup

/-- A renewal of the current group, which ends before the row that displaced `g`. -/
theorem GroupInv.append_renewal (h : GroupInv userId g rows group now) (hn : RowOk g now n)
    (hr : Displacer userId g rows group r) (hgroup : group ≠ g) (hend : n.endTime < r.endTime) :
    GroupInv userId g (rows ++ [n]) group now where
  time := h.time
  row := h.row_append hn
  held := by
    refine .inr ⟨r, List.mem_append_left _ hr.mem, hr.holds, hr.prev, hr.group,
      fun o ho hou hoc => ?_⟩
    rcases List.mem_append.mp ho with ho | ho
    · exact hr.last o ho hou hoc
    · rw [List.mem_singleton.mp ho]
      exact .inr hend
  free := fun e => absurd e hgroup

end NewRow

theorem GroupInv.create {id buyer : ℕ} {plan : SubscriptionPlan} {source : String}
    {store' : GroupStore} (h : GroupInv userId g store.subs.rows (store.group userId) now)
    (hok : buyer = userId → PurchaseOk zone userId g store now plan)
    (hc : createUserSubscriptionFromPlanTx zone store id buyer plan source now = .ok store') :
    GroupInv userId g store'.subs.rows (store'.group userId) now := by
  obtain ⟨endUnix, hend, hrows, hgroup⟩ := create_eq_ok hc
  rw [hrows, hgroup]
  by_cases hup : trimSpace plan.upgradeGroup = ""
  · -- the plan leaves the group alone
    rw [if_pos hup]
    exact h.append_other fun hn => hn.2 hup
  rw [if_neg hup]
  by_cases hbuyer : buyer = userId
  swap
  · rw [Function.update_of_ne (fun e => hbuyer e.symm)]
    exact h.append_other fun hn => hbuyer hn.1
  subst hbuyer
  rw [Function.update_self]
  obtain ⟨hfuture, hcond⟩ := (hok rfl).resolve_left hup endUnix hend
  have htime := h.time
  generalize hn : newSubscription zone id buyer plan source (store.group buyer) now endUnix = n
  have hactive : n.status = .active := by rw [← hn]; rfl
  have hng : n.upgradeGroup = trimSpace plan.upgradeGroup := by rw [← hn]; rfl
  have hne : n.endTime = endUnix := by rw [← hn]; rfl
  have hnu : n.userId = buyer := by rw [← hn]; rfl
  have hnp : n.prevUserGroup = if trimSpace plan.upgradeGroup ≠ "" ∧
      store.group buyer ≠ trimSpace plan.upgradeGroup then store.group buyer else "" := by
    rw [← hn]; rfl
  -- the new row is in order whatever group it displaces, if that is `g` or none
  have hrow : (n.prevUserGroup = "" ∨ (n.prevUserGroup = g ∧ n.upgradeGroup ≠ g)) → RowOk g now n := by
    intro hprev
    refine ⟨by rw [hng]; exact trimSpace_trimSpace _, hprev, fun he => ?_, fun _ => by omega⟩
    rw [hactive] at he
    cases he
  by_cases hcur : store.group buyer = g
  · rw [if_pos hcur] at hcond
    rw [hcur] at h hnp
    by_cases hsame : trimSpace plan.upgradeGroup = g
    · have hprev : n.prevUserGroup = "" := by
        rw [hnp, if_neg]
        rw [hsame]
        exact fun hne => hne.2 rfl
      rw [hsame]
      exact h.append_same (hrow (.inl hprev)) (hng.trans hsame)
    · have hprev : n.prevUserGroup = g := by
        rw [hnp, if_pos ⟨hup, fun e => hsame e.symm⟩]
      rw [← hng] at hsame ⊢
      refine h.append_displacer (hrow (.inr ⟨hprev, hsame⟩)) ⟨hnu, hactive, ?_⟩ hprev hsame ?_ ?_
      · rw [hng]
        exact hup
      · rw [hne]
        exact hfuture
      · rw [hne]
        exact hcond.resolve_left (hng ▸ hsame)
  · rw [if_neg hcur] at hcond
    obtain ⟨hrenew, sub, hsub, hsubHolds, hsubPrev, hsubGroup, hbefore⟩ := hcond
    obtain ⟨r, hr⟩ := h.held.resolve_left hcur
    have hprev : n.prevUserGroup = "" := by
      rw [hnp, if_neg]
      rw [hrenew]
      exact fun hne => hne.2 rfl
    have hend_lt : n.endTime < r.endTime := by
      rw [hne]
      rcases hr.last sub hsub hsubHolds.isUpgrade (by rw [hsubHolds.2.1]; decide) with rfl | hlt
      · exact hbefore
      · omega
    rw [hrenew]
    exact h.append_renewal (hrow (.inl hprev)) hr hcur hend_lt

/-! ## Cancellations and deletions -/

/-- When the end of `sub` takes its user's group back. -/
structure Downgrades (rows : List UserSubscription) (group : String) (sub : UserSubscription)
    (now : ℤ) : Prop where
  upgrade : trimSpace sub.upgradeGroup ≠ ""
  current : group = trimSpace sub.upgradeGroup
  alone : ∀ x ∈ rows, x.upgrades sub.userId now = true → x.id = sub.id
  prev : trimSpace sub.prevUserGroup ≠ ""
  moves : trimSpace sub.prevUserGroup ≠ group

theorem select_others_eq_nil :
    store.subs.select (fun s => s.upgrades userId now && s.id ≠ sub.id) endsAfter = [] ↔
      ∀ x ∈ store.subs.rows, x.upgrades userId now = true → x.id = sub.id := by
  rw [List.eq_nil_iff_forall_not_mem]
  constructor
  · intro h x hx hup
    by_contra hne
    refine h x (Table.mem_select.mpr ⟨hx, ?_⟩)
    simp [hup, hne]
  · intro h x hx
    obtain ⟨hmem, hp⟩ := Table.mem_select.mp hx
    simp only [Bool.and_eq_true, decide_eq_true_eq] at hp
    exact hp.2 (h x hmem hp.1)

theorem downgrade_of (h : Downgrades store.subs.rows (store.group sub.userId) sub now) :
    downgradeUserGroupForSubscriptionTx store sub now =
      (store.setGroup sub.userId (trimSpace sub.prevUserGroup), trimSpace sub.prevUserGroup) := by
  unfold downgradeUserGroupForSubscriptionTx
  dsimp only
  rw [if_neg h.upgrade, if_neg (not_not.mpr h.current),
    if_neg (not_not.mpr (select_others_eq_nil.mpr h.alone)), if_neg (not_or.mpr ⟨h.prev, h.moves⟩)]

theorem downgrade_of_not (h : ¬ Downgrades store.subs.rows (store.group sub.userId) sub now) :
    downgradeUserGroupForSubscriptionTx store sub now = (store, "") := by
  unfold downgradeUserGroupForSubscriptionTx
  dsimp only
  split
  · rfl
  rename_i hup
  split
  · rfl
  rename_i hcur
  split
  · rfl
  rename_i halone
  split
  · rfl
  rename_i hprev
  rw [not_or] at hprev
  exact absurd ⟨hup, not_not.mp hcur, select_others_eq_nil.mp (not_not.mp halone), hprev.1,
    hprev.2⟩ h

/-- `rows'` is `rows` without the row `sub`, or with it cancelled. -/
structure Removed (sub : UserSubscription) (now : ℤ) (rows rows' : List UserSubscription) : Prop where
  mem : sub ∈ rows
  unique : ∀ x ∈ rows, x.id = sub.id → x = sub
  from_rows : ∀ x ∈ rows', (x ∈ rows ∧ x.id ≠ sub.id) ∨ x = sub.cancel now
  kept : ∀ x ∈ rows, x.id ≠ sub.id → x ∈ rows'

theorem cancel_not_upgrades (sub : UserSubscription) : (sub.cancel now).upgrades userId now' = false := by
  rw [Bool.eq_false_iff]
  intro h
  have := (upgrades_iff.mp h).1.2.1
  cases this

/-- Whether the group is taken back is the same before and after the removal. -/
theorem Removed.downgrades_iff (hr : Removed sub now rows rows') :
    Downgrades rows' group sub now ↔ Downgrades rows group sub now := by
  have halone : (∀ x ∈ rows', x.upgrades sub.userId now = true → x.id = sub.id) ↔
      ∀ x ∈ rows, x.upgrades sub.userId now = true → x.id = sub.id := by
    constructor
    · intro h x hx hup
      by_contra hne
      exact hne (h x (hr.kept x hx hne) hup)
    · intro h x hx hup
      rcases hr.from_rows x hx with ⟨hx, -⟩ | rfl
      · exact h x hx hup
      · rfl
  exact ⟨fun h => ⟨h.upgrade, h.current, halone.mp h.alone, h.prev, h.moves⟩,
    fun h => ⟨h.upgrade, h.current, halone.mpr h.alone, h.prev, h.moves⟩⟩

theorem GroupInv.removed_row (h : GroupInv userId g rows group now)
    (hr : Removed sub now rows rows') : ∀ x ∈ rows', x.isUpgrade userId → RowOk g now x := by
  intro x hx hxu
  rcases hr.from_rows x hx with ⟨hx, -⟩ | rfl
  · exact h.row x hx hxu
  · have hrow := h.row sub hr.mem hxu
    exact ⟨hrow.trimmed, hrow.prev, fun e => (by cases e), fun e => (by cases e)⟩

section Remove

variable (hg : g ≠ "") (htrim : trimSpace g = g) (h : GroupInv userId g rows group now)
  (hr : Removed sub now rows rows') (huser : sub.userId = userId)
include htrim h hr huser

/-- The group is taken back: nothing upgrades it any more. -/
theorem GroupInv.remove_of_downgrades (hd : Downgrades rows group sub now) :
    GroupInv userId g rows' (trimSpace sub.prevUserGroup) now := by
  have hup : sub.isUpgrade userId := by
    refine ⟨huser, fun e => hd.upgrade ?_⟩
    rw [e]
    decide
  have hprev : trimSpace sub.prevUserGroup = g := by
    rcases (h.row sub hr.mem hup).prev with hp | ⟨hp, -⟩
    · have := hd.prev
      rw [hp] at this
      exact absurd (by decide) this
    · rw [hp]
      exact htrim
  rw [hprev]
  refine GroupInv.released h.time (h.removed_row hr) fun x hx => ?_
  rcases hr.from_rows x hx with ⟨hx, hne⟩ | rfl
  · rw [Bool.eq_false_iff]
    intro hxu
    rw [← huser] at hxu
    exact hne (hd.alone x hx hxu)
  · exact cancel_not_upgrades sub

include hg in
/-- The group stays: it was not the displacer that ended. -/
theorem GroupInv.remove_of_not (hd : ¬ Downgrades rows group sub now)
    (hok : sub.upgrades userId now = true → sub.prevUserGroup ≠ "" → sub.upgradeGroup = group →
      ∀ other ∈ rows, other.upgrades userId now = true → other = sub) :
    GroupInv userId g rows' group now where
  time := h.time
  row := h.removed_row hr
  held := by
    rcases h.held with hcur | ⟨r, hdis⟩
    · exact .inl hcur
    right
    have hne : r.id ≠ sub.id := by
      intro hid
      obtain rfl := hr.unique r hdis.mem hid
      have hrow := h.row r hdis.mem hdis.holds.isUpgrade
      have hprev : r.prevUserGroup ≠ "" := by rw [hdis.prev]; exact hg
      refine hd ⟨?_, ?_, fun x hx hxu => ?_, ?_, ?_⟩
      · rw [hrow.trimmed]; exact hdis.holds.2.2
      · rw [hrow.trimmed]; exact hdis.group.symm
      · rw [huser] at hxu
        rw [hok (hdis.upgrades hx hxu) hprev hdis.group x hx hxu]
      · rw [hdis.prev, htrim]; exact hg
      · rw [hdis.prev, htrim]; exact (hdis.ne h hg).symm
    refine ⟨r, hr.kept r hdis.mem hne, hdis.holds, hdis.prev, hdis.group, fun o ho hou hoc => ?_⟩
    rcases hr.from_rows o ho with ⟨ho, -⟩ | rfl
    · exact hdis.last o ho hou hoc
    · exact absurd rfl hoc
  free hcur x hx hxu := by
    rcases hr.from_rows x hx with ⟨hx, -⟩ | rfl
    · exact h.free hcur x hx hxu
    · rw [cancel_not_upgrades] at hxu
      cases hxu

end Remove

/-- The removal of another user's subscription. -/
theorem GroupInv.remove_other (h : GroupInv userId g rows group now)
    (hr : Removed sub now rows rows') (huser : sub.userId ≠ userId) :
    GroupInv userId g rows' group now := by
  refine h.congr fun x hx => ⟨fun hmem => ?_, fun hmem => ?_⟩
  · rcases hr.from_rows x hmem with ⟨hmem, -⟩ | rfl
    · exact hmem
    · exact absurd hx.1 huser
  · refine hr.kept x hmem fun hid => huser ?_
    rw [← hr.unique x hmem hid]
    exact hx.1

theorem removed_save (now : ℤ) {id : ℕ} (hfind : store.subs.find id = some sub) :
    Removed sub now store.subs.rows (store.subs.save (sub.cancel now)).rows where
  mem := (Table.find_eq_some_iff.mp hfind).1
  unique x hx hid := Table.eq_of_mem hx (Table.find_eq_some_iff.mp hfind).1 hid
  from_rows x hx := by
    rcases Table.mem_save.mp hx with ⟨hx, hne⟩ | ⟨rfl, -⟩
    · exact .inl ⟨hx, hne⟩
    · exact .inr rfl
  kept x hx hne := Table.mem_save.mpr (.inl ⟨hx, hne⟩)

theorem removed_delete (now : ℤ) {id : ℕ} (hfind : store.subs.find id = some sub) :
    Removed sub now store.subs.rows (store.subs.delete id).rows where
  mem := (Table.find_eq_some_iff.mp hfind).1
  unique x hx hid := Table.eq_of_mem hx (Table.find_eq_some_iff.mp hfind).1 hid
  from_rows x hx := by
    have hid := (Table.find_eq_some_iff.mp hfind).2
    rw [Table.mem_delete, ← hid] at hx
    exact .inl hx
  kept x hx hne := by
    have hid := (Table.find_eq_some_iff.mp hfind).2
    rw [Table.mem_delete, ← hid]
    exact ⟨hx, hne⟩

/-- Both administrator's operations: remove the row, and take the group back where
the row was the last to hold it. -/
theorem GroupInv.remove (hg : g ≠ "") (htrim : trimSpace g = g)
    (h : GroupInv userId g store.subs.rows (store.group userId) now)
    (hr : Removed sub now store.subs.rows rows') (hok : RemovalOk userId store now sub.id)
    {group' : ℕ → String}
    (hyes : Downgrades store.subs.rows (store.group sub.userId) sub now →
      group' = Function.update store.group sub.userId (trimSpace sub.prevUserGroup))
    (hno : ¬ Downgrades store.subs.rows (store.group sub.userId) sub now → group' = store.group) :
    GroupInv userId g rows' (group' userId) now := by
  by_cases huser : sub.userId = userId
  · by_cases hd : Downgrades store.subs.rows (store.group sub.userId) sub now
    · rw [hyes hd, huser, Function.update_self]
      rw [huser] at hd
      exact GroupInv.remove_of_downgrades htrim h hr huser hd
    · rw [hno hd]
      rw [huser] at hd
      exact GroupInv.remove_of_not hg htrim h hr huser hd fun hup => hok sub hr.mem rfl hup
  · have hkeep : group' userId = store.group userId := by
      by_cases hd : Downgrades store.subs.rows (store.group sub.userId) sub now
      · rw [hyes hd, Function.update_of_ne (fun e => huser e.symm)]
      · rw [hno hd]
    rw [hkeep]
    exact h.remove_other hr huser

theorem subs_downgrade (store : GroupStore) (sub : UserSubscription) (now : ℤ) :
    (downgradeUserGroupForSubscriptionTx store sub now).1.subs = store.subs := by
  by_cases hd : Downgrades store.subs.rows (store.group sub.userId) sub now
  · rw [downgrade_of hd]
    rfl
  · rw [downgrade_of_not hd]

theorem GroupInv.adminInvalidate {id : ℕ} {out : GroupStore × String} (hg : g ≠ "")
    (htrim : trimSpace g = g) (h : GroupInv userId g store.subs.rows (store.group userId) now)
    (hok : RemovalOk userId store now id)
    (hc : adminInvalidateUserSubscription store id now = .ok out) :
    GroupInv userId g out.1.subs.rows (out.1.group userId) now := by
  unfold adminInvalidateUserSubscription at hc
  split at hc
  · cases hc
  split at hc
  · cases hc
  rename_i sub hfind
  rw [← Except.ok.inj hc]
  have hr := removed_save now hfind
  have hid := (Table.find_eq_some_iff.mp hfind).2
  dsimp only
  rw [subs_downgrade]
  refine h.remove hg htrim hr (by rw [hid]; exact hok) (fun hd => ?_) (fun hd => ?_)
  · rw [downgrade_of (hr.downgrades_iff.mpr hd)]; rfl
  · rw [downgrade_of_not fun hd' => hd (hr.downgrades_iff.mp hd')]

theorem GroupInv.adminDelete {id : ℕ} {out : GroupStore × String} (hg : g ≠ "")
    (htrim : trimSpace g = g) (h : GroupInv userId g store.subs.rows (store.group userId) now)
    (hok : RemovalOk userId store now id)
    (hc : adminDeleteUserSubscription store id now = .ok out) :
    GroupInv userId g out.1.subs.rows (out.1.group userId) now := by
  unfold adminDeleteUserSubscription at hc
  split at hc
  · cases hc
  split at hc
  · cases hc
  rename_i sub hfind
  rw [← Except.ok.inj hc]
  have hr := removed_delete now hfind
  have hid := (Table.find_eq_some_iff.mp hfind).2
  dsimp only
  rw [subs_downgrade]
  refine h.remove hg htrim hr (by rw [hid]; exact hok) (fun hd => ?_) (fun hd => ?_)
  · rw [downgrade_of hd]; rfl
  · rw [downgrade_of_not hd]

/-! ## Expiry -/

/-- A row of the user `userId` as the batch leaves it. -/
def UserSubscription.marked (sub : UserSubscription) (userId : ℕ) (now : ℤ) : UserSubscription :=
  if sub.userId = userId && sub.expireDue now then { sub with status := .expired } else sub

theorem mem_markExpired {subs : SubTable} {y : UserSubscription} :
    y ∈ (markExpired subs userId now).rows ↔ ∃ x ∈ subs.rows, x.marked userId now = y :=
  Table.mem_updateWhere

theorem marked_eq (sub : UserSubscription) (userId : ℕ) (now : ℤ) :
    sub.marked userId now = { sub with status := (sub.marked userId now).status } := by
  unfold UserSubscription.marked
  split <;> rfl

theorem marked_of_not_due (h : sub.expireDue now = false) : sub.marked userId now = sub := by
  unfold UserSubscription.marked
  rw [h, Bool.and_false]
  rfl

theorem marked_of_due (huser : sub.userId = userId) (h : sub.expireDue now = true) :
    sub.marked userId now = { sub with status := .expired } := by
  unfold UserSubscription.marked
  simp [huser, h]

theorem expireDue_iff : sub.expireDue now = true ↔
    sub.status = .active ∧ 0 < sub.endTime ∧ sub.endTime ≤ now := by
  unfold UserSubscription.expireDue
  rw [decide_eq_true_eq]

/-- A row that upgrades the group is not due. -/
theorem marked_upgrades : (sub.marked userId now).upgrades userId now = sub.upgrades userId now := by
  cases hdue : sub.expireDue now with
  | false => rw [marked_of_not_due hdue]
  | true =>
    have hend := (expireDue_iff.mp hdue).2.2
    have hno : ∀ x : UserSubscription, x.endTime = sub.endTime → x.upgrades userId now = false := by
      intro x hx
      rw [Bool.eq_false_iff]
      intro hup
      have := (upgrades_iff.mp hup).2
      omega
    rw [hno sub rfl, hno _ (by rw [marked_eq])]

theorem RowOk.marked (h : RowOk g now sub) : RowOk g now (sub.marked userId now) := by
  cases hdue : sub.expireDue now with
  | false => rw [marked_of_not_due hdue]; exact h
  | true =>
    have hend := (expireDue_iff.mp hdue).2.2
    have hpos := (expireDue_iff.mp hdue).2.1
    rw [marked_eq]
    exact ⟨h.trimmed, h.prev, fun _ => hend, fun _ => hpos⟩

theorem marked_isUpgrade : (sub.marked userId now).isUpgrade userId ↔ sub.isUpgrade userId := by
  rw [marked_eq]
  exact Iff.rfl

theorem marked_cancelled (h : (sub.marked userId now).status ≠ .cancelled) :
    sub.status ≠ .cancelled := by
  cases hdue : sub.expireDue now with
  | false => rwa [marked_of_not_due hdue] at h
  | true =>
    rw [(expireDue_iff.mp hdue).1]
    decide

theorem expireUser_subs (store : GroupStore) (userId : ℕ) (now : ℤ) :
    (expireUser store userId now).subs = markExpired store.subs userId now := by
  unfold expireUser
  dsimp only
  split
  · rfl
  split
  · rfl
  split
  · rfl
  split <;> rfl

theorem expireUser_group_of_ne {u : ℕ} (hne : u ≠ userId) :
    (expireUser store u now).group userId = store.group userId := by
  unfold expireUser
  dsimp only
  split
  · rfl
  split
  · rfl
  split
  · rfl
  split
  · rfl
  · exact Function.update_of_ne (fun e => hne e.symm) _ _

/-- The expiry of another user's subscriptions. -/
theorem GroupInv.expire_other {u : ℕ} (hne : u ≠ userId)
    (h : GroupInv userId g store.subs.rows (store.group userId) now) :
    GroupInv userId g (expireUser store u now).subs.rows ((expireUser store u now).group userId)
      now := by
  rw [expireUser_subs, expireUser_group_of_ne hne]
  have hkeep : ∀ x : UserSubscription, x.userId = userId → x.marked u now = x := by
    intro x hx
    unfold UserSubscription.marked
    rw [if_neg]
    simp only [Bool.and_eq_true, decide_eq_true_eq, not_and]
    exact fun e => absurd (e.symm.trans hx) hne
  refine h.congr fun x hx => ?_
  rw [mem_markExpired]
  constructor
  · rintro ⟨y, hy, rfl⟩
    have hyu : y.userId = userId := by
      have := hx.1
      rw [marked_eq] at this
      exact this
    rwa [hkeep y hyu]
  · exact fun hmem => ⟨x, hmem, hkeep x hx.1⟩

/-- While a row upgrades the group, the batch leaves the group alone. -/
theorem GroupInv.expire_of_upgrades (h : GroupInv userId g rows group now) {subs : SubTable}
    (hrows : subs.rows = rows) (hsub : sub ∈ rows) (hup : sub.upgrades userId now = true) :
    GroupInv userId g (markExpired subs userId now).rows group now where
  time := h.time
  row x hx hxu := by
    obtain ⟨y, hy, rfl⟩ := mem_markExpired.mp hx
    rw [hrows] at hy
    exact (h.row y hy (marked_isUpgrade.mp hxu)).marked
  held := by
    rcases h.held with hcur | ⟨r, hr⟩
    · exact .inl hcur
    have hrup := hr.upgrades hsub hup
    have hrdue : r.expireDue now = false := by
      rw [Bool.eq_false_iff]
      intro hdue
      have := (upgrades_iff.mp hrup).2
      have := (expireDue_iff.mp hdue).2.2
      omega
    refine .inr ⟨r, ?_, hr.holds, hr.prev, hr.group, fun o ho hou hoc => ?_⟩
    · exact mem_markExpired.mpr ⟨r, by rw [hrows]; exact hr.mem, marked_of_not_due hrdue⟩
    · obtain ⟨y, hy, rfl⟩ := mem_markExpired.mp ho
      rw [hrows] at hy
      rcases hr.last y hy (marked_isUpgrade.mp hou) (marked_cancelled hoc) with rfl | hlt
      · exact .inl (marked_of_not_due hrdue)
      · right
        rw [marked_eq]
        exact hlt
  free hcur x hx hxu := by
    obtain ⟨y, hy, rfl⟩ := mem_markExpired.mp hx
    rw [hrows] at hy
    rw [marked_upgrades] at hxu
    have := h.free hcur y hy hxu
    rw [marked_eq]
    exact this

/-- Once nothing upgrades the group, the row that displaced `g` is due. -/
theorem Displacer.expireDue (h : Displacer userId g rows group r)
    (hinv : GroupInv userId g rows group now) (hnone : ∀ x ∈ rows, x.upgrades userId now = false) :
    r.expireDue now = true := by
  have hrow := hinv.row r h.mem h.holds.isUpgrade
  refine expireDue_iff.mpr ⟨h.holds.2.1, hrow.positive h.holds.2.1, ?_⟩
  by_contra hlt
  have hup : r.upgrades userId now = true := upgrades_iff.mpr ⟨h.holds, by omega⟩
  rw [hnone r h.mem] at hup
  cases hup

/-- The rows that have expired, the last to end first. -/
theorem Displacer.head_expired (h : Displacer userId g store.subs.rows group r)
    (hdue : r.expireDue now = true) : ((markExpired store.subs userId now).select
      (fun s => s.userId = userId ∧ s.status = .expired ∧ s.upgradeGroup ≠ "") endsAfter).head? =
        some (r.marked userId now) := by
  refine Table.head_select (mem_markExpired.mpr ⟨r, h.mem, rfl⟩) ?_ fun y hy hp => ?_
  · rw [marked_of_due h.holds.1 hdue]
    simp [h.holds.1, h.holds.2.2]
  · obtain ⟨x, hx, rfl⟩ := mem_markExpired.mp hy
    simp only [decide_eq_true_eq] at hp
    have hxc : (x.marked userId now).status ≠ .cancelled := by rw [hp.2.1]; decide
    rcases h.last x hx (marked_isUpgrade.mp ⟨hp.1, hp.2.2⟩) (marked_cancelled hxc) with rfl | hlt
    · exact .inl rfl
    · right
      unfold endsAfter
      rw [marked_eq x, marked_eq r]
      dsimp only
      omega

/-- Once nothing upgrades the group, the row that ends last gives `g` back. -/
theorem expireUser_group_of_none (hg : g ≠ "") (htrim : trimSpace g = g)
    (h : GroupInv userId g store.subs.rows (store.group userId) now)
    (hnone : ∀ x ∈ store.subs.rows, x.upgrades userId now = false) :
    (expireUser store userId now).group userId = g := by
  have hnil : (markExpired store.subs userId now).select (·.upgrades userId now) endsAfter = [] := by
    rw [List.eq_nil_iff_forall_not_mem]
    intro x hx
    obtain ⟨hmem, hup⟩ := Table.mem_select.mp hx
    obtain ⟨y, hy, rfl⟩ := mem_markExpired.mp hmem
    rw [marked_upgrades, hnone y hy] at hup
    cases hup
  -- any row the batch may take the group from is in order
  have hlast : ∀ l, ((markExpired store.subs userId now).select
      (fun s => s.userId = userId ∧ s.status = .expired ∧ s.upgradeGroup ≠ "") endsAfter).head? =
        some l → RowOk g now l := by
    intro l hl
    obtain ⟨hmem, hp⟩ := Table.mem_select.mp (List.mem_of_mem_head? hl)
    obtain ⟨y, hy, rfl⟩ := mem_markExpired.mp hmem
    simp only [decide_eq_true_eq] at hp
    exact (h.row y hy (marked_isUpgrade.mp ⟨hp.1, hp.2.2⟩)).marked
  unfold expireUser
  dsimp only
  rw [if_neg (not_not.mpr hnil)]
  rcases h.held with hcur | ⟨r, hr⟩
  · -- already in `g`: no row takes the user out of it
    split
    · exact hcur
    rename_i l hl
    split
    · exact hcur
    rename_i hne
    rw [not_or] at hne
    split
    · exact hcur
    rename_i hmove
    rw [not_or, not_not] at hmove
    exfalso
    have hl' := hlast l hl
    rcases hl'.prev with hp | ⟨-, hug⟩
    · rw [hp] at hne
      exact hne.2 (by decide)
    · rw [hl'.trimmed] at hmove
      exact hug (hmove.1.symm.trans hcur)
  · -- the displacer is due and ends last
    have hrow := h.row r hr.mem hr.holds.isUpgrade
    have hdue := hr.expireDue h hnone
    rw [hr.head_expired hdue]
    have hmarked : r.marked userId now = { r with status := .expired } :=
      marked_of_due hr.holds.1 hdue
    have hup : trimSpace (r.marked userId now).upgradeGroup = store.group userId := by
      rw [hmarked]
      exact hrow.trimmed.trans hr.group
    have hprev : trimSpace (r.marked userId now).prevUserGroup = g := by
      rw [hmarked]
      show trimSpace r.prevUserGroup = g
      rw [hr.prev]
      exact htrim
    dsimp only
    rw [hup, hprev, if_neg, if_neg]
    · exact Function.update_self _ _ _
    · exact not_or.mpr ⟨not_not.mpr rfl, hr.ne h hg⟩
    · refine not_or.mpr ⟨?_, hg⟩
      rw [← hr.group]
      exact hr.holds.2.2

theorem GroupInv.expireUser (hg : g ≠ "") (htrim : trimSpace g = g) (u : ℕ)
    (h : GroupInv userId g store.subs.rows (store.group userId) now) :
    GroupInv userId g (expireUser store u now).subs.rows
      ((Subscription.expireUser store u now).group userId) now := by
  by_cases hu : u = userId
  swap
  · exact h.expire_other hu
  subst hu
  by_cases hex : ∃ x ∈ store.subs.rows, x.upgrades u now = true
  · obtain ⟨x, hx, hup⟩ := hex
    have hgroup : (Subscription.expireUser store u now).group u = store.group u := by
      unfold Subscription.expireUser
      dsimp only
      rw [if_pos]
      refine List.ne_nil_of_mem (a := x.marked u now) (Table.mem_select.mpr ⟨?_, ?_⟩)
      · exact mem_markExpired.mpr ⟨x, hx, rfl⟩
      · rw [marked_upgrades]; exact hup
    rw [expireUser_subs, hgroup]
    exact h.expire_of_upgrades rfl hx hup
  · have hnone : ∀ x ∈ store.subs.rows, x.upgrades u now = false := by
      intro x hx
      rw [Bool.eq_false_iff]
      exact fun hup => hex ⟨x, hx, hup⟩
    rw [expireUser_group_of_none hg htrim h hnone, expireUser_subs]
    refine GroupInv.released h.time (fun x hx hxu => ?_) fun x hx => ?_
    · obtain ⟨y, hy, rfl⟩ := mem_markExpired.mp hx
      exact (h.row y hy (marked_isUpgrade.mp hxu)).marked
    · obtain ⟨y, hy, rfl⟩ := mem_markExpired.mp hx
      rw [marked_upgrades]
      exact hnone y hy

/-! ## Runs that restore the group -/

theorem GroupInv.expireUsers (hg : g ≠ "") (htrim : trimSpace g = g) (users : List ℕ)
    (h : GroupInv userId g store.subs.rows (store.group userId) now) :
    let store' := users.foldl (fun st u => if u = 0 then st else Subscription.expireUser st u now) store
    GroupInv userId g store'.subs.rows (store'.group userId) now := by
  induction users generalizing store with
  | nil => exact h
  | cons u rest ih =>
    refine ih ?_
    dsimp only
    split
    · exact h
    · exact h.expireUser hg htrim u

/-- Every operation that meets its condition keeps the invariant. -/
theorem groupStep_inv (hg : g ≠ "") (htrim : trimSpace g = g) {s t : GroupState} {op : GroupOp × ℤ}
    (h : GroupInv userId g s.store.subs.rows (s.store.group userId) s.now)
    (hok : GroupOpOk zone userId g s op) (ht : (groupSystem zone).step s op = some t) :
    GroupInv userId g t.store.subs.rows (t.store.group userId) t.now := by
  obtain ⟨op, now⟩ := op
  simp only [groupSystem] at ht
  split at ht
  swap
  · cases ht
  rename_i hle
  obtain ⟨store, hstore, rfl⟩ := Option.map_eq_some_iff.mp ht
  have h' := h.advance hle
  cases op with
  | create id buyer plan source =>
    simp only [applyOp] at hstore
    split at hstore
    · cases hstore; exact h'
    · rename_i store' hc
      cases hstore
      exact h'.create (fun hb => hok hb (by rw [hc]; rfl)) hc
  | expireDue limit users =>
    simp only [applyOp] at hstore
    split at hstore
    · cases hstore
      exact h'.expireUsers hg htrim users
    · cases hstore
  | adminInvalidate id =>
    simp only [applyOp] at hstore
    split at hstore
    · cases hstore; exact h'
    · rename_i out hc
      cases hstore
      exact h'.adminInvalidate hg htrim hok hc
  | adminDelete id =>
    simp only [applyOp] at hstore
    split at hstore
    · cases hstore; exact h'
    · rename_i out hc
      cases hstore
      exact h'.adminDelete hg htrim hok hc
  | wait =>
    cases hstore
    exact h'

/-- **The group is restored** in every run whose purchases and removals meet
`GroupOpOk`: the subscription that displaced `g` is the last of those overlapping
it to end, and the others renew its group. -/
theorem group_restored (zone : GoTime.Zone) (userId : ℕ) (g : String) (store : GroupStore) (now : ℤ)
    (hg : g ≠ "") (htrim : trimSpace g = g) (hgroup : store.group userId = g)
    (hrows : ∀ sub ∈ store.subs.rows, sub.userId ≠ userId) (hnow : 0 ≤ now)
    (ops : List (GroupOp × ℤ))
    (hok : (groupSystem zone).EveryStep (GroupOpOk zone userId g) ⟨store, now⟩ ops) :
    (groupSystem zone).EveryState (GroupRestored userId g) ⟨store, now⟩ ops := by
  have h0 : GroupInv userId g store.subs.rows (store.group userId) now := by
    rw [hgroup]
    refine GroupInv.released hnow (fun x hx hxu => absurd hxu.1 (hrows x hx)) fun x hx => ?_
    rw [Bool.eq_false_iff]
    exact fun hup => hrows x hx (upgrades_iff.mp hup).1.1
  have hrun := System.everyState_of_everyStep (S := groupSystem zone)
    (I := fun s => GroupInv userId g s.store.subs.rows (s.store.group userId) s.now)
    (C := GroupOpOk zone userId g) (fun s op t hs hc ht => groupStep_inv hg htrim hs hc ht) h0 hok
  exact hrun.mono fun s hs => hs.restored

/-- A plan for one day that makes its buyer `vip`. -/
def vipPlan : SubscriptionPlan := ⟨1, .day, 1, 0, 0, "vip", 0, "never", 0⟩

def freshGroups : GroupStore := ⟨.empty, fun _ => "default"⟩

/-- User 7 buys the plan at 1000 and renews it at 2000; both run out. -/
def renewVip : List (GroupOp × ℤ) :=
  [(.create 1 7 vipPlan "order", 1000), (.create 2 7 vipPlan "order", 2000),
    (.expireDue 0 [7], 90000)]

theorem group_restored_buyOnce :
    (groupSystem GoTime.utc).EveryState (GroupRestored 7 "default") ⟨freshGroups, 0⟩
      [(.create 1 7 vipPlan "order", 1000), (.expireDue 0 [7], 87400)] := by
  refine group_restored GoTime.utc 7 "default" freshGroups 0 (by decide) (by decide) rfl
    (fun sub hsub => by cases hsub) (le_refl 0) _ fun t _ => ⟨fun _ _ => ?_, fun _ _ => ⟨trivial, trivial⟩⟩
  right
  intro endUnix hend
  have hcalc : calcPlanEndTime GoTime.utc 1000 vipPlan = .ok 87400 := by decide
  rw [hcalc] at hend
  rw [← Except.ok.inj hend]
  have hgroup : freshGroups.group 7 = "default" := rfl
  refine ⟨by decide, ?_⟩
  rw [if_pos hgroup]
  exact .inr fun sub hsub => by cases hsub

/-- The renewal stored no group, and it is the row that the group is taken back from. -/
theorem renewed_vip_stays :
    ¬ (groupSystem GoTime.utc).EveryState (GroupRestored 7 "default") ⟨freshGroups, 0⟩ renewVip := by
  intro h
  have hrun : ((groupSystem GoTime.utc).run ⟨freshGroups, 0⟩ renewVip).map (fun s =>
      (s.store.group 7, s.store.subs.rows.all fun sub =>
        !sub.expireDue s.now && !sub.upgrades 7 s.now)) = some ("vip", true) := by decide +kernel
  obtain ⟨t, ht, heq⟩ := Option.map_eq_some_iff.mp hrun
  simp only [Prod.mk.injEq, List.all_eq_true, Bool.and_eq_true, Bool.not_eq_true'] at heq
  have hback := (h.run ht).none_active fun sub hsub _ => heq.2 sub hsub
  rw [heq.1] at hback
  exact absurd hback (by decide)

end Subscription
