import GMasterApi.Task.Relay

/-!
# Ratios of a remix

`ResolveOriginTask` puts the ratios of the original task into the price before the
attempts begin, and every attempt makes its price anew.  What an attempt charges is
what the original's ratios call for exactly where the adaptor's estimate has them all
(`remix_charged_iff`).
-/

namespace Tasks

open Billing Pricing GoMap GoString

/-- The ratios of the original task, in `info.PriceData` once the task is resolved. -/
def OriginTask.ratios (origin : OriginTask) : OtherRatios := remixRatios (.insertion _) .none origin

/-- The ratios of the original task with the adaptor's estimate over them. -/
def OriginTask.merged (origin : OriginTask) (estimated : Map String ℚ) : OtherRatios :=
  origin.ratios.addAll (.insertion _) estimated

/-- An attempt that comes to a price has the merged ratios, its quota is the base quota
multiplied by them, and this is what it pre-consumes and reports. -/
def RemixCharged (origin : OriginTask) (p : TaskAttempt × TaskSubmission) : Prop :=
  ∀ base priceData adaptor, p.2.priced = some (base, priceData) → p.1.adaptor = some adaptor →
    (∀ key, priceData.otherRatios.get key =
      (origin.merged (adaptor.estimateBilling p.2.info.action)).get key) ∧
    (∃ ratios, ratios.Perm (origin.merged (adaptor.estimateBilling p.2.info.action)).ratios.entries ∧
      priceData.quota = applyRatios base ratios) ∧
    (∀ q, p.2.preCharge = some q → q = priceData.quota) ∧
    (∀ ratios, p.2.header = some ratios → ratios = priceData.otherRatios) ∧
    ∀ result, p.2.result = .ok result → adaptor.adjustBillingOnSubmit.ratios.entries = [] →
      result.quota = priceData.quota

/-- In an attempt that comes to a price, the estimate has a positive ratio wherever the
original task has one; and if the model is one of `TaskPricePatches`, whose quota no
ratio changes, these ratios would not change it. -/
def Overridden (origin : OriginTask) (p : TaskAttempt × TaskSubmission) : Prop :=
  ∀ base priceData adaptor, p.2.priced = some (base, priceData) → p.1.adaptor = some adaptor →
    (∀ key, (origin.ratios.get key).isSome →
      ∃ ratio, (adaptor.estimateBilling p.2.info.action).get key = some ratio ∧ 0 < ratio) ∧
    (p.2.info.originModelName ∈ p.1.prices.taskPricePatches →
      ∃ ratios, ratios.Perm
          (origin.merged (adaptor.estimateBilling p.2.info.action)).ratios.entries ∧
        applyRatios base ratios = base)

theorem merged_get (origin : OriginTask) (estimated : Map String ℚ) (key : String) :
    (origin.merged estimated).get key =
      ((estimated.get key).filter (0 < ·)).or (origin.ratios.get key) :=
  OtherRatios.get_addAll _ _ _ _

variable {settings : TaskSettings} {origin : OriginTask} {a : TaskAttempt} {w : World}
  {info : RelayInfo}

/-- What one attempt charges. -/
theorem remixCharged_iff {p : TaskAttempt × TaskSubmission}
    (hsub : p.2 = relayTaskSubmit settings p.1 w info) :
    RemixCharged origin p ↔ Overridden origin p := by
  obtain ⟨a, sub⟩ := p
  dsimp only at hsub
  constructor
  · intro h base priceData adaptor hpriced hadaptor
    obtain ⟨other, hoffers⟩ := relayTaskSubmit_offers (hsub ▸ hpriced)
    rw [← hsub] at hoffers
    obtain rfl : adaptor = other := Option.some.inj (hadaptor.symm.trans hoffers.found)
    obtain ⟨hget, ⟨ratios, hperm, hquota⟩, -⟩ := h base priceData adaptor hpriced hadaptor
    refine ⟨fun key hkey => ?_, fun hpatch => ⟨ratios, hperm, ?_⟩⟩
    · have hmerged := hget key
      rw [hoffers.priced.otherRatios, OtherRatios.get_addAll, merged_get, OtherRatios.get_none,
        Option.or_none] at hmerged
      cases hest : ((adaptor.estimateBilling sub.info.action).get key).filter (0 < ·) with
      | none =>
        rw [hest, Option.none_or] at hmerged
        rw [← hmerged] at hkey
        cases hkey
      | some ratio =>
        have := Option.filter_eq_some_iff.mp hest
        exact ⟨ratio, this.1, by simpa using this.2⟩
    · rw [← hquota, hoffers.priced.quota, if_pos hpatch]
  · intro h base priceData adaptor hpriced hadaptor
    obtain ⟨other, hoffers⟩ := relayTaskSubmit_offers (hsub ▸ hpriced)
    rw [← hsub] at hoffers
    obtain rfl : adaptor = other := Option.some.inj (hadaptor.symm.trans hoffers.found)
    obtain ⟨hover, hpatch⟩ := h base priceData adaptor hpriced hadaptor
    have hget : ∀ key, priceData.otherRatios.get key =
        (origin.merged (adaptor.estimateBilling sub.info.action)).get key := by
      intro key
      rw [hoffers.priced.otherRatios, OtherRatios.get_addAll, merged_get, OtherRatios.get_none,
        Option.or_none]
      cases hkey : origin.ratios.get key with
      | none => rw [Option.or_none]
      | some r =>
        obtain ⟨ratio, hratio, hpos⟩ := hover key (by simp [hkey])
        simp [hratio, Option.filter, hpos]
    refine ⟨hget, ?_, hoffers.preCharge, hoffers.header, hoffers.result⟩
    have hquota := hoffers.priced.quota
    by_cases hmodel : sub.info.originModelName ∈ a.prices.taskPricePatches
    · obtain ⟨ratios, hperm, hbase⟩ := hpatch hmodel
      rw [if_pos hmodel] at hquota
      exact ⟨ratios, hperm, hquota.trans hbase.symm⟩
    · rw [if_neg hmodel] at hquota
      exact ⟨_, (a.orders.price.perm _).trans (Map.entries_perm hget), hquota⟩

/-- **A remix is charged by the original's ratios** in every attempt, exactly where the
estimate overrides every one of them. -/
theorem remix_charged_iff (settings : TaskSettings) (env : OriginEnv) (origin : OriginTask)
    (finish : FinishEnv) (first : TaskAttempt) (rest : List TaskAttempt) (w : World)
    (info : RelayInfo) :
    (∀ p ∈ (relayTaskRequest settings
        { env with remix := true, getByTaskId := .ok (some origin) } finish first rest w
        info).submissions, RemixCharged origin p) ↔
      ∀ p ∈ (relayTaskRequest settings
        { env with remix := true, getByTaskId := .ok (some origin) } finish first rest w
        info).submissions, Overridden origin p := by
  refine forall₂_congr fun p hp => ?_
  unfold relayTaskRequest at hp
  split at hp
  · cases hp
  · rw [relayTask_submissions] at hp
    obtain ⟨w', info', hsub⟩ := relayAttempts_submit _ _ _ _ p hp
    exact remixCharged_iff hsub

/-! ## A remix of a task of 8 seconds -/

def originTask : OriginTask where
  originModelName := "sora-2"
  upstreamModelName := "sora-2"
  model := ""
  billingContext := some ⟨[("seconds", 8), ("size", 1)], by decide⟩
  seconds := "8"
  size := "720x1280"

def originEnv : OriginEnv :=
  ⟨true, "task_1", .ok (some originTask), .ok true, none, .insertion _⟩

/-- The remix of a task of 8 seconds, at 100 for a second, is charged 100. -/
theorem remix_charged_once :
    ¬ ∀ p ∈ (relayTaskRequest taskSettings originEnv finishEnv sampleAttempt [] sampleWorld
        taskInfo).submissions, RemixCharged originTask p := by
  intro h
  have hrun : (relayTaskRequest taskSettings originEnv finishEnv sampleAttempt [] sampleWorld
      taskInfo).submissions.map (fun p =>
        (p.2.priced.map fun q => (q.1, q.2.quota, q.2.otherRatios.get "seconds"),
          p.1.adaptor.map fun adaptor => (adaptor.estimateBilling p.2.info.action).get "seconds")) =
      [(some (100, 100, none), some none)] := by
    decide +kernel
  obtain ⟨p, hp, hvalues⟩ := List.map_eq_singleton_iff.mp hrun
  obtain ⟨hpriced, hadaptor⟩ := Prod.mk.inj hvalues
  obtain ⟨⟨base, priceData⟩, hpriced, hvalues⟩ := Option.map_eq_some_iff.mp hpriced
  obtain ⟨adaptor, hadaptor, hestimate⟩ := Option.map_eq_some_iff.mp hadaptor
  have hmem := List.mem_singleton_self p
  rw [← hp] at hmem
  obtain ⟨hget, -⟩ := h p hmem base priceData adaptor hpriced hadaptor
  have hseconds := hget "seconds"
  rw [(Prod.mk.inj (Prod.mk.inj hvalues).2).2, merged_get, hestimate] at hseconds
  revert hseconds
  decide +kernel

end Tasks
