import GMasterApi.Channel.Snapshot

/-!
# Draws by weight

`GetRandomSatisfiedChannel` draws a number below the total weight of the channels of one
priority.  It always finds a channel, and each is found by as many draws as its weight says
exactly where no candidate with a weight is listed twice (`proportional_iff`).
-/

namespace Channels

open GoMap GoSlice

/-! ## What is promised -/

/-- The channels of the priority that a retry has. -/
def tier (cs : List Channel) (retry : ℕ) : List Channel :=
  cs.filter fun c => level (cs.map Channel.getPriority) retry = some c.getPriority

/-- The draws below the total weight that select the channel. -/
def draws (cache : Cache) (group model : String) (retry : ℕ) (cs : List Channel) (c : Channel) :
    ℕ :=
  (List.range (totalWeight (tier cs retry))).countP fun draw =>
    getRandomSatisfiedChannel cache group model retry draw = .ok (some c)

/-- **Choice is total and proportional** among the candidates `cs`. -/
structure Proportional (cache : Cache) (group model : String) (retry : ℕ) (cs : List Channel) :
    Prop where
  total : ∀ draw, ∃ c ∈ cs,
    getRandomSatisfiedChannel cache group model retry draw = .ok (some c) ∧
    (cs.map Channel.getPriority).dedup.countP (c.getPriority < ·) =
      min retry ((cs.map Channel.getPriority).dedup.length - 1)
  exact : ∀ c ∈ tier cs retry,
    draws cache group model retry cs c = effectiveWeight (tier cs retry) c
  equal : ∀ c ∈ tier cs retry, ∀ c' ∈ tier cs retry, c.getWeight = c'.getWeight →
    draws cache group model retry cs c = draws cache group model retry cs c'
  proportional : 0 < sumWeight (tier cs retry) → ∀ c ∈ tier cs retry, ∀ c' ∈ tier cs retry,
    draws cache group model retry cs c * c'.getWeight =
      draws cache group model retry cs c' * c.getWeight

/-! ## The draws for one of a list -/

section Draws

variable {α : Type} [DecidableEq α]

/-- Each occurrence is selected by as many draws as the weight says. -/
theorem countP_pickBelow (weight : α → ℕ) (x : α) (l : List α) :
    (List.range (l.map weight).sum).countP (fun draw => pickBelow weight l draw = some x) =
      l.count x * weight x := by
  induction l with
  | nil => simp
  | cons y l ih =>
    have hfirst : (List.range (weight y)).countP
        (fun draw => pickBelow weight (y :: l) draw = some x) = if y = x then weight y else 0 := by
      have hpick : ∀ draw ∈ List.range (weight y),
          (decide (pickBelow weight (y :: l) draw = some x) = true ↔ decide (y = x) = true) := by
        intro draw hdraw
        rw [decide_eq_true_iff, decide_eq_true_iff, pickBelow, if_pos (List.mem_range.mp hdraw),
          Option.some.injEq]
      rw [List.countP_congr hpick]
      split
      · rename_i heq
        simp [heq]
      · rename_i hne
        simp [hne]
    have hrest : ((List.range (l.map weight).sum).map (weight y + ·)).countP
        (fun draw => pickBelow weight (y :: l) draw = some x) = l.count x * weight x := by
      rw [List.countP_map, ← ih]
      refine List.countP_congr fun draw _ => ?_
      rw [Function.comp_apply, pickBelow, if_neg (by omega), Nat.add_sub_cancel_left]
    rw [List.map_cons, List.sum_cons, List.range_add, List.countP_append, hfirst, hrest,
      List.count_cons, Nat.add_mul, Nat.add_comm]
    congr 1
    by_cases heq : y = x
    · simp [heq]
    · simp [heq]

end Draws

/-! ## A draw among the candidates -/

variable {cache : Cache} {group model : String} {retry draw : ℕ} {cs : List Channel} {c : Channel}

theorem mem_tier : c ∈ tier cs retry ↔
    c ∈ cs ∧ level (cs.map Channel.getPriority) retry = some c.getPriority := by
  rw [tier, List.mem_filter, decide_eq_true_eq]

theorem drawChannel_eq (hne : cs ≠ []) : tier cs retry ≠ [] ∧
    drawChannel group model cs retry draw = .ok (pickBelow (effectiveWeight (tier cs retry))
      (tier cs retry) (draw % totalWeight (tier cs retry))) := by
  obtain ⟨channel, htotal⟩ := @drawChannel_total group model retry draw cs hne
  obtain ⟨target, hlevel⟩ :=
    level_isSome (l := cs.map Channel.getPriority) retry (by simpa using hne)
  have htier : tier cs retry = cs.filter fun c => c.getPriority = target := by
    refine List.filter_congr fun c _ => ?_
    rw [decide_eq_decide, hlevel, Option.some.injEq, eq_comm]
  unfold drawChannel at htotal ⊢
  rw [hlevel] at htotal ⊢
  dsimp only at htotal ⊢
  rw [← htier] at htotal ⊢
  by_cases hempty : tier cs retry = []
  · rw [if_pos hempty] at htotal
    cases htotal
  · rw [if_neg hempty] at htotal ⊢
    refine ⟨hempty, ?_⟩
    cases hpick : pickBelow (effectiveWeight (tier cs retry)) (tier cs retry)
        (draw % totalWeight (tier cs retry)) with
    | none =>
      rw [hpick] at htotal
      cases htotal
    | some c => rfl

/-- One candidate is returned without a draw, and is all that a draw could find. -/
theorem getRandomSatisfiedChannel_eq
    (h : cs.map some = (cache.candidates group model).map cache.channelsIDM.get) (hne : cs ≠ []) :
    getRandomSatisfiedChannel cache group model retry draw =
      drawChannel group model cs retry draw := by
  have hfound := mapM_find_ok h
  unfold getRandomSatisfiedChannel
  match hids : cache.candidates group model with
  | [] =>
    rw [hids, List.map_nil, List.map_eq_nil_iff] at h
    exact absurd h hne
  | [id] =>
    obtain ⟨c, rfl⟩ : ∃ c, cs = [c] := by
      have hlength := congrArg List.length h
      rw [hids, List.length_map, List.length_map] at hlength
      exact List.length_eq_one_iff.mp hlength
    obtain ⟨channel, htotal⟩ := @drawChannel_total group model retry draw _ hne
    obtain ⟨-, hdraw⟩ := @drawChannel_eq group model retry draw _ hne
    rw [htotal] at hdraw
    have hmem := (mem_tier.mp (pickBelow_mem (Except.ok.inj hdraw).symm)).1
    rw [hids, List.mapM_cons, List.mapM_nil] at hfound
    rw [htotal, List.mem_singleton.mp hmem]
    cases hfind : cache.find id with
    | error e =>
      rw [hfind] at hfound
      cases hfound
    | ok channel =>
      rw [hfind] at hfound
      cases hfound
      dsimp only
      rw [hfind]
      rfl
  | id :: id' :: ids =>
    rw [hids] at hfound
    dsimp only
    rw [hfound]

/-- A channel that is listed several times is selected by as many times its weight. -/
theorem draws_eq (h : cs.map some = (cache.candidates group model).map cache.channelsIDM.get)
    (hne : cs ≠ []) (c : Channel) : draws cache group model retry cs c =
      (tier cs retry).count c * effectiveWeight (tier cs retry) c := by
  rw [← countP_pickBelow, ← totalWeight_eq]
  refine List.countP_congr fun draw hdraw => ?_
  rw [decide_eq_true_iff, decide_eq_true_iff, getRandomSatisfiedChannel_eq h hne,
    (drawChannel_eq hne).2, Nat.mod_eq_of_lt (List.mem_range.mp hdraw), Except.ok.injEq]

theorem effectiveWeight_congr {c' : Channel} (h : c.getWeight = c'.getWeight) :
    effectiveWeight cs c = effectiveWeight cs c' := by
  unfold effectiveWeight
  rw [h]

/-- Where some channel has a weight, the effective weights are proportional to the weights. -/
theorem effectiveWeight_mul (hsum : 0 < sumWeight cs) (c c' : Channel) :
    effectiveWeight cs c * c'.getWeight = effectiveWeight cs c' * c.getWeight := by
  unfold effectiveWeight
  rw [if_neg hsum.ne', if_neg hsum.ne']
  split
  · rw [Nat.mul_right_comm, Nat.mul_comm c.getWeight, Nat.mul_right_comm]
  · exact Nat.mul_comm _ _

/-- Every draw finds a candidate of the retry's priority. -/
theorem getRandomSatisfiedChannel_tier
    (h : cs.map some = (cache.candidates group model).map cache.channelsIDM.get) (hne : cs ≠ []) :
    ∃ c ∈ tier cs retry,
      getRandomSatisfiedChannel cache group model retry draw = .ok (some c) := by
  obtain ⟨c, htotal⟩ := @drawChannel_total group model retry draw cs hne
  obtain ⟨-, hdraw⟩ := @drawChannel_eq group model retry draw cs hne
  rw [htotal] at hdraw
  refine ⟨c, pickBelow_mem (Except.ok.inj hdraw).symm, ?_⟩
  rw [getRandomSatisfiedChannel_eq h hne, htotal]

/-- **Choice is total and proportional** exactly where no candidate of the retry's priority
that has a weight, or stands among candidates without one, is listed twice. -/
theorem proportional_iff (cache : Cache) (group model : String) (retry : ℕ) (cs : List Channel)
    (h : cs.map some = (cache.candidates group model).map cache.channelsIDM.get) (hne : cs ≠ []) :
    Proportional cache group model retry cs ↔
      ((tier cs retry).filter fun c => 0 < effectiveWeight (tier cs retry) c).Nodup := by
  have hnodup : ((tier cs retry).filter fun c => 0 < effectiveWeight (tier cs retry) c).Nodup ↔
      ∀ c ∈ tier cs retry, 0 < effectiveWeight (tier cs retry) c → (tier cs retry).count c = 1 := by
    have hcount : ∀ c, 0 < effectiveWeight (tier cs retry) c →
        ((tier cs retry).filter fun c => 0 < effectiveWeight (tier cs retry) c).count c =
          (tier cs retry).count c :=
      fun c hpos => List.count_filter (p := fun c => 0 < effectiveWeight (tier cs retry) c)
        (decide_eq_true hpos)
    rw [List.nodup_iff_count_eq_one]
    constructor
    · intro honce c hc hpos
      rw [← hcount c hpos]
      exact honce c (List.mem_filter.mpr ⟨hc, decide_eq_true hpos⟩)
    · intro honce c hc
      obtain ⟨hc, hpos⟩ := List.mem_filter.mp hc
      rw [hcount c (of_decide_eq_true hpos)]
      exact honce c hc (of_decide_eq_true hpos)
  rw [hnodup]
  constructor
  · intro hprop c hc hpos
    have hexact := hprop.exact c hc
    rw [draws_eq h hne] at hexact
    exact (Nat.eq_of_mul_eq_mul_right hpos (hexact.trans (Nat.one_mul _).symm))
  · intro honce
    have hexact : ∀ c ∈ tier cs retry,
        draws cache group model retry cs c = effectiveWeight (tier cs retry) c := by
      intro c hc
      rw [draws_eq h hne]
      rcases Nat.eq_zero_or_pos (effectiveWeight (tier cs retry) c) with hzero | hpos
      · rw [hzero, Nat.mul_zero]
      · rw [honce c hc hpos, Nat.one_mul]
    refine ⟨fun draw => ?_, hexact, fun c hc c' hc' hweight => ?_, fun hsum c hc c' hc' => ?_⟩
    · obtain ⟨c, hc, hselect⟩ :=
        @getRandomSatisfiedChannel_tier cache group model retry draw cs h hne
      obtain ⟨hmem, hlevel⟩ := mem_tier.mp hc
      exact ⟨c, hmem, hselect, countP_lt_of_level hlevel⟩
    · rw [hexact c hc, hexact c' hc', effectiveWeight_congr hweight]
    · rw [hexact c hc, hexact c' hc', effectiveWeight_mul hsum]

/-- The cache of a channel that lists a model several times beside one that lists it once. -/
def weightedCache (models : String) : Cache :=
  (initChannelCache (.stable ℕ)
    ⟨[sampleChannel 1 models 10, sampleChannel 2 "gpt-4" 10], by simp [sampleChannel]⟩
    ((sampleChannel 2 "gpt-4" 10).addAbilities) .empty).getD .empty

theorem proportional_iff_once : Proportional (weightedCache "gpt-4") "default" "gpt-4" 0
    [sampleChannel 1 "gpt-4" 10, sampleChannel 2 "gpt-4" 10] :=
  (proportional_iff _ _ _ _ _ (by decide +kernel) (by simp)).mpr (by decide +kernel)

/-- A model that the first channel lists twice doubles its chances. -/
theorem model_listed_twice :
    let first := sampleChannel 1 "gpt-4,gpt-4" 10
    let second := sampleChannel 2 "gpt-4" 10
    (weightedCache "gpt-4,gpt-4").candidates "default" "gpt-4" = [1, 1, 2] ∧
      draws (weightedCache "gpt-4,gpt-4") "default" "gpt-4" 0 [first, first, second] first = 20 ∧
      draws (weightedCache "gpt-4,gpt-4") "default" "gpt-4" 0 [first, first, second] second = 10 ∧
      ¬ Proportional (weightedCache "gpt-4,gpt-4") "default" "gpt-4" 0 [first, first, second] := by
  dsimp only
  refine ⟨by decide +kernel, by decide +kernel, by decide +kernel, fun h => ?_⟩
  have hequal := h.equal (sampleChannel 1 "gpt-4,gpt-4" 10) (by decide +kernel)
    (sampleChannel 2 "gpt-4" 10) (by decide +kernel) rfl
  revert hequal
  decide +kernel

end Channels
