import GMasterApi.Subscription.Group

/-!
# When the quota of a subscription is reset

A subscription is polled, and each poll makes up for the resets since the one before.  The polls
give what a single one at the end gives, where each reset is followed by none or by a later one
(`schedule`).  A period in seconds whose nanoseconds do not fit 64 bits may be followed by an
earlier one or by itself.
-/

namespace Subscription

open GoTime

/-- The resets after a moment, up to now. -/
inductive Boundary (f : ℤ → ℤ) (now base : ℤ) : ℤ → Prop
  | first : 0 < f base → f base ≤ now → Boundary f now base (f base)
  | next {b} : Boundary f now base b → 0 < f b → f b ≤ now → Boundary f now base (f b)

/-- Each reset up to now is followed by none or by a later one. -/
structure Later (f : ℤ → ℤ) (now base : ℤ) : Prop where
  first : f base = 0 ∨ base < f base
  boundary : ∀ b, Boundary f now base b → f b = 0 ∨ b < f b

/-- The rows that polls leave, one after the other. -/
def polls (cfg : Config) (plan : SubscriptionPlan) :
    List ℤ → UserSubscription → Option UserSubscription
  | [], sub => some sub
  | now :: times, sub =>
    (maybeReset cfg sub plan now).bind fun r => polls cfg plan times (r.row sub)

/-- The resets that follow from a row. -/
def UserSubscription.nextAfter (zone : Zone) (plan : SubscriptionPlan) (sub : UserSubscription)
    (t : ℤ) : ℤ := calcNextResetTime zone t plan sub.endTime

/-- A poll ends, and leaves the row as it should be now. -/
structure Polled (cfg : Config) (plan : SubscriptionPlan) (sub : UserSubscription) (now : ℤ)
    (r : ResetOutcome) : Prop where
  ends : maybeReset cfg sub plan now = some r
  next : (r.row sub).nextResetTime = 0 ∨ now < (r.row sub).nextResetTime
  last : (r.row sub).lastResetTime ≤ now
  zeroed : r.isReset = true ↔
    ∃ b, Boundary (sub.nextAfter cfg.zone plan) now sub.resetBase b ∧ sub.resetBase < b

/-- Whatever polls there were before, the last leaves the times that it leaves alone. -/
def Scheduled (cfg : Config) (plan : SubscriptionPlan) (created : UserSubscription) (now : ℤ) :
    Prop :=
  ∀ times : List ℤ, (created.startTime :: (times ++ [now])).Pairwise (· ≤ ·) →
    ∃ before r once, polls cfg plan times created = some before ∧ Polled cfg plan before now r ∧
      polls cfg plan [now] created = some once ∧
      (r.row before).lastResetTime = once.lastResetTime ∧
      (r.row before).nextResetTime = once.nextResetTime

/-! ## The loop -/

/-- The loop from a moment on ends at another. -/
inductive Runs (f : ℤ → ℤ) (now : ℤ) : ℤ → ℤ → Prop
  | stop {base} : ¬ (0 < f base ∧ f base ≤ now) → Runs f now base base
  | go {base last} : 0 < f base → f base ≤ now → Runs f now (f base) last → Runs f now base last

variable {f : ℤ → ℤ} {t now base last last' b : ℤ} {fuel : ℕ}

theorem Boundary.pos (h : Boundary f now base b) : 0 < f base ∧ f base ≤ now := by
  induction h with
  | first hpos hle => exact ⟨hpos, hle⟩
  | next _ _ _ ih => exact ih

theorem Boundary.behind (hpos : 0 < f base) (hle : f base ≤ now) (h : Boundary f now (f base) b) :
    Boundary f now base b := by
  induction h with
  | first hpos' hle' => exact .next (.first hpos hle) hpos' hle'
  | next _ hpos' hle' ih => exact .next ih hpos' hle'

theorem Boundary.mono (h : Boundary f t base b) (hnow : t ≤ now) : Boundary f now base b := by
  induction h with
  | first hpos hle => exact .first hpos (hle.trans hnow)
  | next _ hpos hle ih => exact .next ih hpos (hle.trans hnow)

theorem Later.rest (h : Later f now base) (hpos : 0 < f base) (hle : f base ≤ now) :
    Later f now (f base) :=
  ⟨h.boundary _ (.first hpos hle), fun b hb => h.boundary b (hb.behind hpos hle)⟩

theorem Later.mono (h : Later f now base) (hle : t ≤ now) : Later f t base :=
  ⟨h.first, fun b hb => h.boundary b (hb.mono hle)⟩

/-- What the loop comes to. -/
theorem Runs.reached (h : Runs f now base last) (hbase : base ≤ now) :
    last ≤ now ∧ (last = base ∨ Boundary f now base last) := by
  induction h with
  | stop => exact ⟨hbase, .inl rfl⟩
  | go hpos hle _ ih =>
    obtain ⟨hlast, h⟩ := ih hle
    refine ⟨hlast, .inr ?_⟩
    rcases h with rfl | h
    · exact .first hpos hle
    · exact h.behind hpos hle

theorem Runs.later (h : Runs f t base last) (hbase : base ≤ t) (hnow : t ≤ now)
    (hlater : Later f now base) : base ≤ last ∧ Later f now last := by
  induction h with
  | stop => exact ⟨le_refl _, hlater⟩
  | go hpos hle _ ih =>
    obtain ⟨hlast, hrest⟩ := ih hle (hlater.rest hpos (hle.trans hnow))
    have hstep := hlater.first
    exact ⟨by omega, hrest⟩

theorem Runs.unique (h : Runs f now base last) (h' : Runs f now base last') : last = last' := by
  induction h with
  | stop hstop =>
    cases h' with
    | stop => rfl
    | go hpos hle _ => exact absurd ⟨hpos, hle⟩ hstop
  | go hpos hle _ ih =>
    cases h' with
    | stop hstop => exact absurd ⟨hpos, hle⟩ hstop
    | go _ _ h' => exact ih h'

theorem Runs.stops (h : Runs f now base last) : ¬ (0 < f last ∧ f last ≤ now) := by
  induction h with
  | stop hstop => exact hstop
  | go _ _ _ ih => exact ih

/-- The loop goes on where an earlier one ended. -/
theorem Runs.trans (h : Runs f t base last) (hnow : t ≤ now) (h' : Runs f now last last') :
    Runs f now base last' := by
  induction h with
  | stop => exact h'
  | go hpos hle _ ih => exact .go hpos (hle.trans hnow) (ih h')

theorem resetLoop_eq (fuel : ℕ) (hlater : Later f now base) (hfuel : (now - base).toNat < fuel) :
    ∃ last, resetLoop f now fuel base (f base) = some (last, f last) ∧ Runs f now base last := by
  induction fuel generalizing base with
  | zero => omega
  | succ fuel ih =>
    rw [resetLoop]
    by_cases hgo : 0 < f base ∧ f base ≤ now
    · have hstep := hlater.first
      obtain ⟨last, hloop, hruns⟩ := ih (hlater.rest hgo.1 hgo.2) (by omega)
      exact ⟨last, (if_pos hgo).trans hloop, .go hgo.1 hgo.2 hruns⟩
    · exact ⟨base, if_neg hgo, .stop hgo⟩

/-! ## Polls -/

variable {cfg : Config} {plan : SubscriptionPlan} {sub created : UserSubscription} {times : List ℤ}

/-- The row of a subscription that was created at `start` and polled up to `t`. -/
structure Stands (zone : Zone) (plan : SubscriptionPlan) (created : UserSubscription) (t : ℤ)
    (sub : UserSubscription) : Prop where
  start : sub.startTime = created.startTime
  ends : sub.endTime = created.endTime
  base : ∃ base, Runs (created.nextAfter zone plan) t created.startTime base ∧
    sub.nextResetTime = created.nextAfter zone plan base ∧
    sub.lastResetTime = if created.nextAfter zone plan created.startTime = 0 then 0 else base

theorem maybeReset_keep (hnext : sub.nextResetTime = sub.nextAfter cfg.zone plan sub.resetBase)
    (h : ¬ (0 < sub.nextResetTime ∧ sub.nextResetTime ≤ now)) :
    maybeReset cfg sub plan now = some .keep := by
  have hgo : ¬ (0 < sub.nextAfter cfg.zone plan sub.resetBase ∧
      sub.nextAfter cfg.zone plan sub.resetBase ≤ now) := hnext ▸ h
  have hnone : ¬ (sub.nextResetTime = 0 ∧ 0 < sub.nextAfter cfg.zone plan sub.resetBase) := by
    rw [← hnext]
    omega
  unfold maybeReset
  dsimp only
  split
  · rfl
  split
  · rfl
  exact (if_neg hgo).trans (if_neg hnone)

theorem maybeReset_reset (hnext : sub.nextResetTime = sub.nextAfter cfg.zone plan sub.resetBase)
    (hpos : 0 < sub.nextResetTime) (hle : sub.nextResetTime ≤ now) :
    maybeReset cfg sub plan now =
      (resetLoop (sub.nextAfter cfg.zone plan) now cfg.loopFuel sub.resetBase
        (sub.nextAfter cfg.zone plan sub.resetBase)).map fun (base, next) =>
        .reset { sub with amountUsed := 0, lastResetTime := base, nextResetTime := next } := by
  have hperiod : normalizeResetPeriod plan.quotaResetPeriod ≠ .never := by
    intro hnever
    unfold UserSubscription.nextAfter calcNextResetTime at hnext
    rw [hnever] at hnext
    dsimp only at hnext
    omega
  have hgo : 0 < sub.nextAfter cfg.zone plan sub.resetBase ∧
      sub.nextAfter cfg.zone plan sub.resetBase ≤ now := hnext ▸ ⟨hpos, hle⟩
  unfold maybeReset
  rw [if_neg (by omega), if_neg hperiod]
  exact if_pos hgo

theorem Stands.polled (h : Stands cfg.zone plan created t sub) (hstart : 0 < created.startTime)
    (hle : created.startTime ≤ t) (hnow : t ≤ now)
    (hlater : Later (created.nextAfter cfg.zone plan) now created.startTime)
    (hfuel : (now - created.startTime).toNat < cfg.loopFuel) :
    ∃ r, Polled cfg plan sub now r ∧ Stands cfg.zone plan created now (r.row sub) := by
  obtain ⟨base, hruns, hnext, hlast⟩ := h.base
  have hsame : sub.nextAfter cfg.zone plan = created.nextAfter cfg.zone plan := by
    unfold UserSubscription.nextAfter
    rw [h.ends]
  obtain ⟨hbase, hlater'⟩ := hruns.later hle hnow hlater
  obtain ⟨hbaset, -⟩ := hruns.reached hle
  have hresetBase : sub.resetBase = base := by
    unfold UserSubscription.resetBase
    rw [hlast, h.start]
    split
    · split
      · rename_i hzero _
        cases hruns with
        | stop => rfl
        | go hpos _ _ => omega
      · omega
    · split
      · omega
      · rfl
  have hnext' : sub.nextResetTime = sub.nextAfter cfg.zone plan sub.resetBase := by
    rw [hnext, hsame, hresetBase]
  have hlastle : sub.lastResetTime ≤ t := by
    rw [hlast]
    split <;> omega
  by_cases hgo : 0 < sub.nextResetTime ∧ sub.nextResetTime ≤ now
  · obtain ⟨last, hloop, hruns'⟩ := resetLoop_eq cfg.loopFuel hlater' (by omega)
    obtain ⟨hlastle, -⟩ := hruns'.reached (hbaset.trans hnow)
    obtain ⟨hstartlast, hlater''⟩ :=
      (hruns.trans hnow hruns').later (hle.trans hnow) (le_refl now) hlater
    have hstop := hruns'.stops
    have hfirst := hlater'.first
    have hzero : created.nextAfter cfg.zone plan created.startTime ≠ 0 := by
      intro hzero
      cases hruns with
      | stop => omega
      | go hpos _ _ => omega
    have hends := maybeReset_reset hnext' hgo.1 hgo.2
    rw [hresetBase, hsame, hloop, Option.map_some] at hends
    dsimp only at hends
    refine ⟨_, ⟨hends, ?_, hlastle, ?_⟩, ?_⟩
    · have hlast' := hlater''.first
      dsimp only [ResetOutcome.row]
      omega
    · rw [hsame, hresetBase]
      refine iff_of_true rfl ⟨_, .first ?_ ?_, ?_⟩
      all_goals omega
    · refine ⟨h.start, h.ends, last, hruns.trans hnow hruns', rfl, ?_⟩
      rw [if_neg hzero]
      rfl
  · refine ⟨.keep, ⟨maybeReset_keep hnext' hgo, ?_, hlastle.trans hnow, ?_⟩, h.start, h.ends, base,
      hruns.trans hnow (.stop (hnext ▸ hgo)), hnext, hlast⟩
    · have hfirst := hlater'.first
      show sub.nextResetTime = 0 ∨ now < sub.nextResetTime
      omega
    · rw [hsame, hresetBase]
      refine iff_of_false Bool.false_ne_true ?_
      rintro ⟨b, hb, -⟩
      exact hgo (hnext ▸ hb.pos)

/-- A list of polls. -/
theorem Stands.polls (h : Stands cfg.zone plan created t sub) (hstart : 0 < created.startTime)
    (hle : created.startTime ≤ t)
    (hlater : Later (created.nextAfter cfg.zone plan) now created.startTime)
    (hfuel : (now - created.startTime).toNat < cfg.loopFuel)
    (htimes : (t :: (times ++ [now])).Pairwise (· ≤ ·)) :
    ∃ before t', polls cfg plan times sub = some before ∧ t' ≤ now ∧ created.startTime ≤ t' ∧
      Stands cfg.zone plan created t' before := by
  induction times generalizing t sub with
  | nil => exact ⟨sub, t, rfl, List.rel_of_pairwise_cons htimes List.mem_cons_self, hle, h⟩
  | cons t₁ times ih =>
    have hle' := List.rel_of_pairwise_cons htimes List.mem_cons_self
    have hrest := (List.pairwise_cons.mp htimes).2
    have hnow := List.rel_of_pairwise_cons hrest (List.mem_append_right _ List.mem_cons_self)
    obtain ⟨r, hpolled, hstands⟩ := h.polled hstart hle hle' (hlater.mono hnow) (by omega)
    obtain ⟨before, t', hpolls, ht'⟩ := ih hstands (hle.trans hle') hrest
    refine ⟨before, t', ?_, ht'⟩
    unfold Subscription.polls
    rw [hpolled.ends]
    exact hpolls

/-- The row that a poll leaves is determined. -/
theorem Stands.unique {sub' : UserSubscription} (h : Stands cfg.zone plan created t sub)
    (h' : Stands cfg.zone plan created t sub') :
    sub.lastResetTime = sub'.lastResetTime ∧ sub.nextResetTime = sub'.nextResetTime := by
  obtain ⟨base, hruns, hnext, hlast⟩ := h.base
  obtain ⟨base', hruns', hnext', hlast'⟩ := h'.base
  rw [hnext, hlast, hnext', hlast', hruns.unique hruns']
  exact ⟨rfl, rfl⟩

theorem scheduled_of_later (hstands : Stands cfg.zone plan created created.startTime created)
    (hstart : 0 < created.startTime) (hnow : created.startTime ≤ now)
    (hlater : Later (created.nextAfter cfg.zone plan) now created.startTime)
    (hfuel : (now - created.startTime).toNat < cfg.loopFuel) :
    Scheduled cfg plan created now := by
  intro times htimes
  obtain ⟨before, t, hpolls, ht, hle, hbefore⟩ :=
    hstands.polls hstart (le_refl _) hlater hfuel htimes
  obtain ⟨r, hpolled, hlast⟩ := hbefore.polled hstart hle ht hlater hfuel
  obtain ⟨once, hpolled', hlast'⟩ := hstands.polled hstart (le_refl _) hnow hlater hfuel
  refine ⟨before, r, once.row created, hpolls, hpolled, ?_, hlast.unique hlast'⟩
  unfold Subscription.polls
  rw [hpolled'.ends]
  rfl

/-! ## Periods in seconds -/

theorem nextAfter_custom (cfg : Config) (created : UserSubscription)
    (h : normalizeResetPeriod plan.quotaResetPeriod = .custom) (t : ℤ) :
    created.nextAfter cfg.zone plan t = 0 ∨ created.nextAfter cfg.zone plan t =
      t + duration plan.quotaResetCustomSeconds second / second := by
  unfold UserSubscription.nextAfter calcNextResetTime
  rw [h]
  dsimp only
  split
  · exact .inl rfl
  split
  · exact .inl rfl
  · exact .inr rfl

/-- What a subscription is created with. -/
structure Fresh (zone : Zone) (plan : SubscriptionPlan) (created : UserSubscription) : Prop where
  start : 0 < created.startTime
  next : created.nextResetTime = created.nextAfter zone plan created.startTime
  last : created.lastResetTime = if 0 < created.nextResetTime then created.startTime else 0

theorem Fresh.resetBase (h : Fresh cfg.zone plan created) :
    created.resetBase = created.startTime := by
  have hstart := h.start
  unfold UserSubscription.resetBase
  rw [h.last]
  split <;> split <;> omega

theorem later_of_scheduled (hfresh : Fresh cfg.zone plan created) (hnow : created.startTime ≤ now)
    (hcustom : normalizeResetPeriod plan.quotaResetPeriod = .custom)
    (h : Scheduled cfg plan created now) :
    Later (created.nextAfter cfg.zone plan) now created.startTime := by
  have hnext := nextAfter_custom cfg created hcustom
  generalize duration plan.quotaResetCustomSeconds second / second = d at hnext
  have hstart := hfresh.start
  obtain ⟨before, r, -, hpolls, hpolled, -⟩ := h [] (List.pairwise_pair.mpr hnow)
  cases hpolls
  have hsame : created.nextResetTime = created.nextAfter cfg.zone plan created.resetBase := by
    rw [hfresh.resetBase, hfresh.next]
  by_cases hd : 0 < d
  · have hlater : ∀ b, created.nextAfter cfg.zone plan b = 0 ∨
        b < created.nextAfter cfg.zone plan b := by
      intro b
      have := hnext b
      omega
    exact ⟨hlater _, fun b _ => hlater b⟩
  have hback : ∀ b, Boundary (created.nextAfter cfg.zone plan) now created.startTime b →
      b ≤ created.startTime := by
    intro b hb
    induction hb with
    | first =>
      have := hnext created.startTime
      omega
    | @next b _ _ _ ih =>
      have := hnext b
      omega
  by_cases hgo : 0 < created.nextResetTime ∧ created.nextResetTime ≤ now
  · exfalso
    have hends := hpolled.ends
    rw [maybeReset_reset hsame hgo.1 hgo.2] at hends
    obtain ⟨last, -, rfl⟩ := Option.map_eq_some_iff.mp hends
    obtain ⟨b, hb, hlt⟩ := hpolled.zeroed.mp rfl
    rw [hfresh.resetBase] at hb hlt
    have := hback b hb
    omega
  · have hends := hpolled.ends
    rw [maybeReset_keep hsame hgo] at hends
    cases hends
    have hafter : created.nextResetTime = 0 ∨ now < created.nextResetTime := hpolled.next
    have hzero : created.nextAfter cfg.zone plan created.startTime = 0 := by
      have := hnext created.startTime
      rw [← hfresh.next] at this ⊢
      omega
    refine ⟨.inl hzero, fun b hb => ?_⟩
    have := hb.pos
    omega

variable (cfg : Config) (plan : SubscriptionPlan) (id userId : ℕ) (source group : String)
  (start endUnix now : ℤ)

/-- A plan of 30 days with a reset after some seconds. -/
def secondsPlan (seconds : ℤ) : SubscriptionPlan where
  id := 1
  durationUnit := .day
  durationValue := 30
  customSeconds := 0
  maxPurchasePerUser := 0
  upgradeGroup := ""
  totalAmount := 500000
  quotaResetPeriod := "custom"
  quotaResetCustomSeconds := seconds

end Subscription
