import GMasterApi.Lib.RoundedProduct
import GMasterApi.Task.Relay

/-!
# Rounding of ratios

Step 6 of `RelayTaskSubmit` rounds the quota after every ratio, and `recalcQuotaFromRatios`
rounds it again after every ratio that it divides out.  The quota is the base quota times the
product of the ratios, in every order and after it is calculated again, exactly where it is
divisible by all of them (`quotaOfRatios_iff`).
-/

namespace Tasks

open Billing Pricing GoMap RoundedProduct

/-- The attempt with other orders of the ratios that are merged. -/
def TaskAttempt.ranging (a : TaskAttempt) (price undo adjust : Order (String × ℚ)) : TaskAttempt :=
  { a with orders := { a.orders with price := price, undo := undo, adjust := adjust } }

/-- **The quota is a function of price and ratios**: it is the same for every order of the
ratios, `recalcQuotaFromRatios` gives it back for them, and it is off by less than one. -/
def QuotaOfRatios (a : TaskAttempt) (estimated : Map String ℚ) (modelName : String)
    (priceData : PriceData) : Prop :=
  ∀ price price' undo adjust : Order (String × ℚ),
    let quoted := (a.ranging price undo adjust).quote estimated modelName priceData
    ((a.ranging price' undo adjust).quote estimated modelName priceData).quota = quoted.quota ∧
    recalcQuotaFromRatios (a.ranging price undo adjust).orders quoted quoted.otherRatios =
      quoted.quota ∧
    |(quoted.quota : ℚ) - priceData.quota * quoted.otherRatios.product| < 1

/-- The factors by which a base quota is multiplied. -/
def ratioFactors (m : OtherRatios) : List ℚ := m.ratios.entries.map Prod.snd

theorem ratioFactors_pos (m : OtherRatios) : ∀ r ∈ ratioFactors m, 0 < r :=
  List.forall_mem_map.mpr m.positive

/-! ## The loops over the ratios -/

variable {ratios : List (String × ℚ)} {n : ℤ}

theorem applyRatios_eq (hpos : ∀ e ∈ ratios, 0 < e.2) (h : 0 ≤ n) :
    applyRatios n ratios = roundedMul n (ratios.map Prod.snd) := by
  induction ratios generalizing n with
  | nil => rfl
  | cons e ratios ih =>
    rw [List.forall_mem_cons] at hpos
    have hprod : (0 : ℚ) ≤ n * e.2 := mul_nonneg (Int.cast_nonneg h) hpos.1.le
    have hstep : (if e.2 ≠ 1 then GoFloat.toInt (n * e.2) else n) = ⌊(n : ℚ) * e.2⌋ := by
      split
      · exact GoFloat.toInt_of_nonneg hprod
      · rename_i hone
        rw [not_not.mp hone, mul_one, Int.floor_intCast]
    rw [List.map_cons, roundedMul_cons, ← ih hpos.2 (Int.floor_nonneg.mpr hprod), ← hstep]
    rfl

/-- The first loop of `recalcQuotaFromRatios`. -/
theorem undoRatios_eq (hpos : ∀ e ∈ ratios, 0 < e.2) (h : 0 ≤ n) :
    ratios.foldl (fun quota e =>
        if e.2 ≠ 1 ∧ 0 < e.2 then GoFloat.toInt (quota / e.2) else quota) n =
      roundedMul n ((ratios.map Prod.snd).map (·⁻¹)) := by
  induction ratios generalizing n with
  | nil => rfl
  | cons e ratios ih =>
    rw [List.forall_mem_cons] at hpos
    have hquot : (0 : ℚ) ≤ n * e.2⁻¹ :=
      mul_nonneg (Int.cast_nonneg h) (inv_nonneg.mpr hpos.1.le)
    have hstep : (if e.2 ≠ 1 ∧ 0 < e.2 then GoFloat.toInt (n / e.2) else n) =
        ⌊(n : ℚ) * e.2⁻¹⌋ := by
      split
      · rw [div_eq_mul_inv, GoFloat.toInt_of_nonneg hquot]
      · rename_i hone
        rw [not_not.mp fun hne => hone ⟨hne, hpos.1⟩, inv_one, mul_one, Int.floor_intCast]
    rw [List.foldl_cons, hstep, ih hpos.2 (Int.floor_nonneg.mpr hquot)]
    rfl

/-- Its second loop, which rounds once. -/
theorem adjustRatios_eq (ratios : List (String × ℚ)) (x : ℚ) :
    ratios.foldl (fun result e => if e.2 ≠ 1 then result * e.2 else result) x =
      x * (ratios.map Prod.snd).prod := by
  induction ratios generalizing x with
  | nil => simp
  | cons e ratios ih =>
    have hstep : (if e.2 ≠ 1 then x * e.2 else x) = x * e.2 := by
      split
      · rfl
      · rename_i hone
        rw [not_not.mp hone, mul_one]
    rw [List.foldl_cons, hstep, ih, List.map_cons, List.prod_cons, mul_assoc]

/-- The factors in the order in which the map is gone through. -/
def rangedFactors (m : OtherRatios) (order : Order (String × ℚ)) : List ℚ :=
  (order.range m.ratios.entries).map Prod.snd

theorem rangedFactors_perm (m : OtherRatios) (order : Order (String × ℚ)) :
    (rangedFactors m order).Perm (ratioFactors m) := (order.perm _).map _

/-- Every order of the factors is one of the map. -/
theorem exists_rangedFactors (m : OtherRatios) {factors : List ℚ}
    (h : factors.Perm (ratioFactors m)) : ∃ order, rangedFactors m order = factors := by
  have hcomp := (congrFun₂ (List.eq_map_comp_perm (Prod.snd (α := String) (β := ℚ))) factors
    m.ratios.entries).mpr h
  obtain ⟨entries, hmap, hperm⟩ := hcomp
  obtain ⟨order, horder⟩ := Order.exists_range hperm
  exact ⟨order, by rw [rangedFactors, horder, hmap]⟩

theorem applyRatios_range (m : OtherRatios) (order : Order (String × ℚ)) (h : 0 ≤ n) :
    applyRatios n (order.range m.ratios.entries) = roundedMul n (rangedFactors m order) :=
  applyRatios_eq (fun e he => m.positive e ((order.perm _).mem_iff.mp he)) h

/-- What comes of a quota when the ratios are divided out of it and multiplied again. -/
def recalculated (n : ℤ) (m : OtherRatios) (undo : Order (String × ℚ)) : ℤ :=
  ⌊(roundedMul n ((rangedFactors m undo).map (·⁻¹)) : ℚ) * (ratioFactors m).prod⌋

theorem recalcQuotaFromRatios_eq (orders : RatioOrders) (priceData : PriceData)
    (h : 0 ≤ priceData.quota) :
    recalcQuotaFromRatios orders priceData priceData.otherRatios =
      recalculated priceData.quota priceData.otherRatios orders.undo := by
  have hentries : ∀ e ∈ orders.undo.range priceData.otherRatios.ratios.entries, 0 < e.2 :=
    fun e he => priceData.otherRatios.positive e ((orders.undo.perm _).mem_iff.mp he)
  have hpos : ∀ r ∈ (rangedFactors priceData.otherRatios orders.undo).map (·⁻¹), 0 < r := by
    rw [rangedFactors, List.forall_mem_map, List.forall_mem_map]
    exact fun e he => inv_pos.mpr (hentries e he)
  have hbase : (0 : ℚ) ≤ roundedMul priceData.quota
      ((rangedFactors priceData.otherRatios orders.undo).map (·⁻¹)) :=
    Int.cast_nonneg (roundedMul_nonneg hpos h)
  have hprod := List.prod_pos (ratioFactors_pos priceData.otherRatios)
  unfold recalcQuotaFromRatios recalculated
  dsimp only
  rw [undoRatios_eq hentries h, adjustRatios_eq]
  change GoFloat.toInt (_ * (rangedFactors priceData.otherRatios orders.adjust).prod) = _
  rw [(rangedFactors_perm priceData.otherRatios orders.adjust).prod_eq]
  exact GoFloat.toInt_of_nonneg (mul_nonneg hbase hprod.le)

theorem recalculated_iff (n : ℤ) (m : OtherRatios) :
    (∀ undo, recalculated n m undo = n) ↔ DivisibleByAll n (ratioFactors m) := by
  rw [← undone_iff (ratioFactors_pos m)]
  constructor
  · intro h factors hperm
    obtain ⟨undo, rfl⟩ := exists_rangedFactors m hperm
    exact h undo
  · intro h undo
    exact h _ (rangedFactors_perm m undo)

/-- What is promised, over the orders of the map. -/
theorem roundTrips_ranged (n : ℤ) (m : OtherRatios) :
    RoundTrips n (ratioFactors m) ↔ ∀ price price' undo : Order (String × ℚ),
      roundedMul n (rangedFactors m price') = roundedMul n (rangedFactors m price) ∧
      recalculated (roundedMul n (rangedFactors m price)) m undo =
        roundedMul n (rangedFactors m price) ∧
      |(roundedMul n (rangedFactors m price) : ℚ) - n * m.product| < 1 := by
  constructor
  · intro h price price' undo
    exact h _ _ _ (rangedFactors_perm m price) (rangedFactors_perm m price')
      (rangedFactors_perm m undo)
  · intro h order order' undo horder horder' hundo
    obtain ⟨price, rfl⟩ := exists_rangedFactors m horder
    obtain ⟨price', rfl⟩ := exists_rangedFactors m horder'
    obtain ⟨undo, rfl⟩ := exists_rangedFactors m hundo
    exact h price price' undo

/-! ## When the quota is a function of price and ratios -/

/-- The product of price and ratios, rounded down once; no ratio counts for a model of
`TaskPricePatches`. -/
def exactQuota (patched : Prop) [Decidable patched] (base : ℤ) (m : OtherRatios) : ℤ :=
  if patched then base else ⌊(base : ℚ) * m.product⌋

variable {a : TaskAttempt} {estimated : Map String ℚ} {modelName : String} {priceData : PriceData}

/-- What step 6 makes of the quota. -/
def quotedFor (patched : Prop) [Decidable patched] (base : ℤ) (m : OtherRatios)
    (price : Order (String × ℚ)) : ℤ :=
  if patched then base else roundedMul base (rangedFactors m price)

theorem quote_ranging (a : TaskAttempt) (price undo adjust : Order (String × ℚ))
    (h : 0 ≤ priceData.quota) :
    let merged := priceData.otherRatios.addAll a.orders.merge estimated
    (a.ranging price undo adjust).quote estimated modelName priceData =
      { priceData with
        otherRatios := merged
        quota :=
          quotedFor (modelName ∈ a.prices.taskPricePatches) priceData.quota merged price } := by
  dsimp only
  unfold quotedFor
  rw [← applyRatios_range _ _ h]
  rfl

theorem quotedFor_nonneg (patched : Prop) [Decidable patched] (m : OtherRatios)
    (price : Order (String × ℚ)) (h : 0 ≤ n) : 0 ≤ quotedFor patched n m price := by
  unfold quotedFor
  split
  · exact h
  · refine roundedMul_nonneg (fun r hr => ?_) h
    exact ratioFactors_pos m r ((rangedFactors_perm m price).mem_iff.mp hr)

theorem quotaOfRatios_quoted (h : 0 ≤ priceData.quota) :
    QuotaOfRatios a estimated modelName priceData ↔
      ∀ price price' undo : Order (String × ℚ),
        let merged := priceData.otherRatios.addAll a.orders.merge estimated
        let quoted := quotedFor (modelName ∈ a.prices.taskPricePatches) priceData.quota merged
        quoted price' = quoted price ∧ recalculated (quoted price) merged undo = quoted price ∧
          |(quoted price : ℚ) - priceData.quota * merged.product| < 1 := by
  have hnonneg := fun price => quotedFor_nonneg (modelName ∈ a.prices.taskPricePatches)
    (priceData.otherRatios.addAll a.orders.merge estimated) price h
  constructor
  · intro hquota price price' undo
    have hone := hquota price price' undo undo
    rw [quote_ranging a price _ _ h, quote_ranging a price' _ _ h] at hone
    dsimp only at hone
    rw [recalcQuotaFromRatios_eq _ _ (hnonneg price)] at hone
    exact hone
  · intro hquota price price' undo adjust
    rw [quote_ranging a price _ _ h, quote_ranging a price' _ _ h]
    dsimp only
    rw [recalcQuotaFromRatios_eq _ _ (hnonneg price)]
    exact hquota price price' undo

/-- **The quota is a function of price and ratios** exactly if the product of both, rounded
down, is divisible by every choice of the ratios; for a model of `TaskPricePatches` it is the
price alone, from which the product may not differ by one. -/
theorem quotaOfRatios_iff (a : TaskAttempt) (estimated : Map String ℚ) (modelName : String)
    (priceData : PriceData) (h : 0 ≤ priceData.quota) :
    QuotaOfRatios a estimated modelName priceData ↔
      let merged := priceData.otherRatios.addAll a.orders.merge estimated
      DivisibleByAll (exactQuota (modelName ∈ a.prices.taskPricePatches) priceData.quota merged)
          (ratioFactors merged) ∧
        (modelName ∈ a.prices.taskPricePatches →
          |(priceData.quota : ℚ) - priceData.quota * merged.product| < 1) := by
  rw [quotaOfRatios_quoted h]
  dsimp only
  by_cases hpatch : modelName ∈ a.prices.taskPricePatches
  · unfold exactQuota quotedFor
    rw [if_pos hpatch, imp_iff_right hpatch, ← recalculated_iff]
    simp only [if_pos hpatch]
    constructor
    · intro hquota
      have hnear := hquota (.insertion _) (.insertion _) (.insertion _)
      exact ⟨fun undo => (hquota (.insertion _) (.insertion _) undo).2.1, hnear.2.2⟩
    · rintro ⟨hundone, hnear⟩ price price' undo
      exact ⟨trivial, hundone undo, hnear⟩
  · unfold exactQuota quotedFor
    rw [if_neg hpatch, and_iff_left fun hin => absurd hin hpatch]
    simp only [if_neg hpatch]
    exact (roundTrips_ranged _ _).symm.trans (roundTrips_iff_dvd (ratioFactors_pos _))

/-- The ratios of a video of eight seconds in the given size. -/
def videoRatios (size : ℚ) : Map String ℚ := (Map.empty.put "seconds" 8).put "size" size

theorem quotaOfRatios_iff_integers :
    QuotaOfRatios sampleAttempt (videoRatios 2) "sora-2" { PriceData.zero with quota := 25 } := by
  refine (quotaOfRatios_iff _ _ _ _ (by decide)).mpr ⟨?_, fun h => absurd h List.not_mem_nil⟩
  refine divisibleByAll_of_integers 25 fun r hr => ?_
  have hfactors :
      ratioFactors (OtherRatios.none.addAll (.insertion _) (videoRatios 2)) = [8, 2] := by
    decide +kernel
  change r ∈ ratioFactors (OtherRatios.none.addAll (.insertion _) (videoRatios 2)) at hr
  rw [hfactors] at hr
  simp only [List.mem_cons, List.not_mem_nil, or_false] at hr
  rcases hr with rfl | rfl
  · exact ⟨8, rfl⟩
  · exact ⟨2, rfl⟩

/-- A size of 5/3 before the seconds gives 328 where the seconds before the size give 333. -/
theorem order_of_ratios_counts :
    let quoted price := (sampleAttempt.ranging price (.insertion _) (.insertion _)).quote
      (videoRatios (5 / 3)) "sora-2" { PriceData.zero with quota := 25 }
    (quoted (.insertion _)).quota = 333 ∧
      (quoted ⟨List.reverse, List.reverse_perm⟩).quota = 328 ∧
      ¬ QuotaOfRatios sampleAttempt (videoRatios (5 / 3)) "sora-2"
        { PriceData.zero with quota := 25 } := by
  dsimp only
  refine ⟨by decide +kernel, by decide +kernel, fun h => ?_⟩
  have hprice := (h (.insertion _) ⟨List.reverse, List.reverse_perm⟩ (.insertion _)
    (.insertion _)).1
  revert hprice
  decide +kernel

end Tasks
