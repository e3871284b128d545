import Mathlib.Algebra.Order.BigOperators.GroupWithZero.List
import Mathlib.Algebra.Order.Floor.Ring
import Mathlib.Data.List.Perm.Subperm
import Mathlib.Tactic.Ring

/-!
# Products rounded down after every factor

An integer is multiplied by factors one after another and rounded down each time.  The
result is the exact product where no factor leaves a fraction (`roundedMul_eq_iff`); the
factors can be multiplied in any order and divided out again exactly where the product,
rounded down once, is divisible by every choice of them (`roundTrips_iff_dvd`).
-/

namespace RoundedProduct

variable {α : Type*}

theorem subperm_split {chosen factors : List α} (h : chosen.Subperm factors) :
    ∃ rest, (chosen ++ rest).Perm factors := by
  obtain ⟨some, hperm, hsub⟩ := h
  obtain ⟨rest, hrest⟩ := hsub.exists_perm_append
  exact ⟨rest, (hperm.symm.append_right rest).trans hrest.symm⟩

theorem prod_integer [Ring α] {factors : List α} (h : ∀ r ∈ factors, ∃ k : ℤ, (k : α) = r) :
    ∃ k : ℤ, (k : α) = factors.prod := by
  induction factors with
  | nil => exact ⟨1, by simp⟩
  | cons r factors ih =>
    rw [List.forall_mem_cons] at h
    obtain ⟨k, hk⟩ := h.1
    obtain ⟨j, hj⟩ := ih h.2
    exact ⟨k * j, by rw [Int.cast_mul, hk, hj, List.prod_cons]⟩

variable [Field α] [LinearOrder α] [FloorRing α]

def roundedMul (n : ℤ) (factors : List α) : ℤ := factors.foldl (fun n r => ⌊(n : α) * r⌋) n

/-- The number is an integer multiple of the product of any choice of the factors. -/
def DivisibleByAll (n : ℤ) (factors : List α) : Prop :=
  ∀ chosen : List α, chosen.Subperm factors → ∃ k : ℤ, (k : α) * chosen.prod = n

variable {n m : ℤ} {factors : List α}

@[simp] theorem roundedMul_nil (n : ℤ) : roundedMul n ([] : List α) = n := rfl

@[simp] theorem roundedMul_cons (n : ℤ) (r : α) (factors : List α) :
    roundedMul n (r :: factors) = roundedMul ⌊(n : α) * r⌋ factors := rfl

variable [IsStrictOrderedRing α]

theorem roundedMul_le (n : ℤ) (hpos : ∀ r ∈ factors, 0 < r) :
    (roundedMul n factors : α) ≤ n * factors.prod := by
  induction factors generalizing n with
  | nil => simp
  | cons r factors ih =>
    rw [List.forall_mem_cons] at hpos
    rw [roundedMul_cons, List.prod_cons, ← mul_assoc]
    have hprod : 0 ≤ factors.prod := (List.prod_pos fun a ha => hpos.2 a ha).le
    exact (ih _ hpos.2).trans (mul_le_mul_of_nonneg_right (Int.floor_le _) hprod)

theorem roundedMul_mono (hpos : ∀ r ∈ factors, 0 < r) (h : n ≤ m) :
    roundedMul n factors ≤ roundedMul m factors := by
  induction factors generalizing n m with
  | nil => exact h
  | cons r factors ih =>
    rw [List.forall_mem_cons] at hpos
    rw [roundedMul_cons, roundedMul_cons]
    refine ih hpos.2 (Int.floor_mono ?_)
    exact mul_le_mul_of_nonneg_right (Int.cast_le.mpr h) hpos.1.le

@[simp] theorem roundedMul_zero (factors : List α) : roundedMul 0 factors = 0 := by
  induction factors with
  | nil => rfl
  | cons r factors ih => simpa using ih

theorem roundedMul_nonneg (hpos : ∀ r ∈ factors, 0 < r) (h : 0 ≤ n) :
    0 ≤ roundedMul n factors := by
  have hmono := roundedMul_mono hpos h
  rwa [roundedMul_zero] at hmono

/-- Nothing is rounded exactly where every product on the way is an integer. -/
theorem roundedMul_eq_iff (hpos : ∀ r ∈ factors, 0 < r) :
    (roundedMul n factors : α) = n * factors.prod ↔
      ∀ front back, factors = front ++ back → ∃ k : ℤ, (k : α) = n * front.prod := by
  induction factors generalizing n with
  | nil =>
    refine iff_of_true (by simp) fun front back h => ?_
    obtain ⟨rfl, rfl⟩ := List.append_eq_nil_iff.mp h.symm
    exact ⟨n, by simp⟩
  | cons r factors ih =>
    rw [List.forall_mem_cons] at hpos
    have hprod : 0 < factors.prod := List.prod_pos fun a ha => hpos.2 a ha
    rw [roundedMul_cons, List.prod_cons, ← mul_assoc]
    constructor
    · intro h front back hsplit
      have hle := roundedMul_le ⌊(n : α) * r⌋ hpos.2
      rw [h] at hle
      have hfloor : ((⌊(n : α) * r⌋ : ℤ) : α) = n * r :=
        le_antisymm (Int.floor_le _) (le_of_mul_le_mul_right hle hprod)
      cases front with
      | nil => exact ⟨n, by simp⟩
      | cons first front =>
        rw [List.cons_append, List.cons.injEq] at hsplit
        obtain ⟨rfl, hsplit⟩ := hsplit
        have hrest : (roundedMul ⌊(n : α) * r⌋ factors : α) = ⌊(n : α) * r⌋ * factors.prod := by
          rw [h, hfloor]
        obtain ⟨k, hk⟩ := (ih hpos.2).mp hrest front back hsplit
        exact ⟨k, by rw [hk, hfloor, List.prod_cons, mul_assoc]⟩
    · intro h
      obtain ⟨k, hk⟩ := h [r] factors rfl
      rw [List.prod_singleton] at hk
      rw [← hk, Int.floor_intCast]
      refine (ih hpos.2).mpr fun front back hsplit => ?_
      obtain ⟨k', hk'⟩ := h (r :: front) back (congrArg _ hsplit)
      exact ⟨k', by rw [hk', hk, List.prod_cons, mul_assoc]⟩

/-! ## Division by the factors -/

/-- Division by the factors and multiplication by their product gives the number back, in
every order, exactly where it is divisible. -/
theorem undone_iff (hpos : ∀ r ∈ factors, 0 < r) :
    (∀ undo : List α, undo.Perm factors →
      ⌊(roundedMul n (undo.map (·⁻¹)) : α) * factors.prod⌋ = n) ↔ DivisibleByAll n factors := by
  have hprod : 0 < factors.prod := List.prod_pos hpos
  have hinv : ∀ undo : List α, undo.Perm factors → ∀ r ∈ undo.map (·⁻¹), 0 < r :=
    fun undo hperm => List.forall_mem_map.mpr fun r hr => inv_pos.mpr (hpos r (hperm.mem_iff.mp hr))
  have hexact : ∀ undo : List α, undo.Perm factors →
      (⌊(roundedMul n (undo.map (·⁻¹)) : α) * factors.prod⌋ = n ↔
        (roundedMul n (undo.map (·⁻¹)) : α) = n * (undo.map (·⁻¹)).prod) := by
    intro undo hperm
    have hle := roundedMul_le n (hinv undo hperm)
    rw [← List.prod_inv, hperm.prod_eq, ← div_eq_mul_inv] at hle ⊢
    rw [eq_div_iff hprod.ne']
    rw [le_div_iff₀ hprod] at hle
    constructor
    · intro h
      exact le_antisymm hle (Int.le_floor.mp h.ge)
    · intro h
      rw [h, Int.floor_intCast]
  constructor
  · intro h chosen hchosen
    obtain ⟨rest, hperm⟩ := subperm_split hchosen
    obtain ⟨k, hk⟩ := (roundedMul_eq_iff (hinv _ hperm)).mp ((hexact _ hperm).mp (h _ hperm))
      (chosen.map (·⁻¹)) (rest.map (·⁻¹)) List.map_append
    have hchosenPos : 0 < chosen.prod :=
      List.prod_pos fun r hr => hpos r (hchosen.subset hr)
    rw [← List.prod_inv, ← div_eq_mul_inv, eq_div_iff hchosenPos.ne'] at hk
    exact ⟨k, hk⟩
  · intro h undo hperm
    refine (hexact undo hperm).mpr ((roundedMul_eq_iff (hinv undo hperm)).mpr ?_)
    intro front back hsplit
    obtain ⟨chosen, rest, rfl, rfl, rfl⟩ := List.map_eq_append_iff.mp hsplit
    have hsub : chosen.Subperm factors :=
      (List.sublist_append_left chosen rest).subperm.trans hperm.subperm
    obtain ⟨k, hk⟩ := h chosen hsub
    have hchosenPos : 0 < chosen.prod := List.prod_pos fun r hr => hpos r (hsub.subset hr)
    exact ⟨k, by rw [← List.prod_inv, ← div_eq_mul_inv, eq_div_iff hchosenPos.ne', hk]⟩

/-! ## Multiplication and division -/

/-- A product of integers is divisible by all of them. -/
theorem divisibleByAll_of_integers (n : ℤ) (h : ∀ r ∈ factors, ∃ k : ℤ, (k : α) = r) :
    DivisibleByAll ⌊(n : α) * factors.prod⌋ factors := by
  intro chosen hchosen
  obtain ⟨rest, hperm⟩ := subperm_split hchosen
  obtain ⟨k, hk⟩ := prod_integer h
  obtain ⟨j, hj⟩ := prod_integer fun r hr =>
    h r (hperm.mem_iff.mp (List.mem_append_right chosen hr))
  refine ⟨n * j, ?_⟩
  rw [← hk, ← Int.cast_mul, Int.floor_intCast, Int.cast_mul, Int.cast_mul, hk, ← hperm.prod_eq,
    List.prod_append, hj]
  ring

/-- A product that is divisible is reached in every order. -/
theorem roundedMul_of_divisible (hpos : ∀ r ∈ factors, 0 < r)
    (h : DivisibleByAll ⌊(n : α) * factors.prod⌋ factors) {order : List α}
    (hperm : order.Perm factors) : roundedMul n order = ⌊(n : α) * factors.prod⌋ := by
  have hprod : 0 < factors.prod := List.prod_pos hpos
  have hpos' : ∀ r ∈ order, 0 < r := fun r hr => hpos r (hperm.mem_iff.mp hr)
  apply le_antisymm
  · have hle := roundedMul_le n hpos'
    rw [hperm.prod_eq] at hle
    exact Int.le_floor.mpr hle
  · obtain ⟨base, hbase⟩ := h factors (List.Subperm.refl _)
    -- The product is that of a smaller base, which is multiplied without rounding.
    have hexact : (roundedMul base order : α) = base * order.prod := by
      refine (roundedMul_eq_iff hpos').mpr fun front back hsplit => ?_
      have hsub : back.Subperm factors := by
        rw [hsplit] at hperm
        exact (List.sublist_append_right front back).subperm.trans hperm.subperm
      obtain ⟨k, hk⟩ := h back hsub
      have hbackPos : 0 < back.prod := List.prod_pos fun r hr => hpos r (hsub.subset hr)
      refine ⟨k, ?_⟩
      rw [← hbase, ← hperm.prod_eq, hsplit, List.prod_append, ← mul_assoc] at hk
      exact mul_right_cancel₀ hbackPos.ne' hk
    have hle : base ≤ n := by
      have hfloor := Int.floor_le ((n : α) * factors.prod)
      rw [← hbase] at hfloor
      exact Int.cast_le.mp (le_of_mul_le_mul_right hfloor hprod)
    have heq : roundedMul base order = ⌊(n : α) * factors.prod⌋ := by
      rw [hperm.prod_eq, hbase] at hexact
      exact Int.cast_injective hexact
    rw [← heq]
    exact roundedMul_mono hpos' hle

/-- What is promised of a product: it does not depend on the order of the factors, it comes
back when they are divided out and multiplied again, and it is off by less than one. -/
def RoundTrips (n : ℤ) (factors : List α) : Prop :=
  ∀ order order' undo : List α, order.Perm factors → order'.Perm factors → undo.Perm factors →
    roundedMul n order' = roundedMul n order ∧
    ⌊(roundedMul (roundedMul n order) (undo.map (·⁻¹)) : α) * factors.prod⌋ =
      roundedMul n order ∧
    |(roundedMul n order : α) - n * factors.prod| < 1

theorem roundTrips_iff_dvd (hpos : ∀ r ∈ factors, 0 < r) :
    RoundTrips n factors ↔ DivisibleByAll ⌊(n : α) * factors.prod⌋ factors := by
  constructor
  · intro h
    have hle := roundedMul_le n hpos
    obtain ⟨-, -, hnear⟩ := h factors factors factors (.refl _) (.refl _) (.refl _)
    have hfloor : ⌊(n : α) * factors.prod⌋ = roundedMul n factors := by
      rw [Int.floor_eq_iff]
      rw [abs_lt] at hnear
      exact ⟨hle, by linarith [hnear.1]⟩
    rw [hfloor]
    exact (undone_iff hpos).mp fun undo hundo =>
      (h factors factors undo (.refl _) (.refl _) hundo).2.1
  · intro h order order' undo horder horder' hundo
    rw [roundedMul_of_divisible hpos h horder, roundedMul_of_divisible hpos h horder']
    refine ⟨rfl, (undone_iff hpos).mpr h undo hundo, ?_⟩
    rw [abs_lt]
    have hle := Int.floor_le ((n : α) * factors.prod)
    have hlt := Int.lt_floor_add_one ((n : α) * factors.prod)
    constructor <;> linarith

end RoundedProduct
