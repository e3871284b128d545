import Mathlib.Data.Int.Basic
import Mathlib.Data.List.Dedup
import Mathlib.Data.List.Sort

/-!
# Slices

A slice is a part of an array, and may be sliced again up to the end of the array.
`sort.Slice` is not stable, so a sorter is any function that permutes its slice
into the order asked for.  The distinct values of a slice, the largest first, are
the same however they were collected.
-/

namespace GoSlice

/-- The first `len` elements of an array, whose length is the capacity. -/
structure Slice (α : Type) where
  array : List α
  len : ℕ
  len_le : len ≤ array.length

/-- `s[:n]`, which panics (`none`) beyond the capacity and not beyond the length. -/
def Slice.upTo {α : Type} (s : Slice α) (n : ℕ) : Option (Slice α) :=
  if h : n ≤ s.array.length then some ⟨s.array, n, h⟩ else none

def Slice.elements {α : Type} (s : Slice α) : List α := s.array.take s.len

@[simp] theorem Slice.length_elements {α : Type} (s : Slice α) : s.elements.length = s.len := by
  have h := s.len_le
  rw [elements, List.length_take]
  omega

/-- `s[:n]` are the first elements of `s` exactly where `s` has that many. -/
theorem Slice.upTo_elements_iff {α : Type} {s : Slice α} {n : ℕ} :
    (∃ t, s.upTo n = some t ∧ t.elements = s.elements.take n) ↔ n ≤ s.len := by
  unfold upTo
  constructor
  · rintro ⟨t, ht, helements⟩
    split at ht
    · cases ht
      have hlength := congrArg List.length helements
      rw [List.length_take, length_elements, length_elements] at hlength
      dsimp only at hlength
      omega
    · cases ht
  · intro hn
    have hcap : n ≤ s.array.length := le_trans hn s.len_le
    refine ⟨⟨s.array, n, hcap⟩, dif_pos hcap, ?_⟩
    rw [elements, elements, List.take_take, min_eq_left hn]

/-- `sort.Slice` with the largest `key` first; equal ones come in any order. -/
structure SortDesc (α : Type) where
  sort : (α → ℤ) → List α → List α
  perm : ∀ key l, (sort key l).Perm l
  sorted : ∀ key l, (sort key l).Pairwise fun a b => key b ≤ key a

/-- The sorter that leaves equal ones in their order. -/
def SortDesc.stable (α : Type) : SortDesc α where
  sort key l := l.insertionSort fun a b => key b ≤ key a
  perm key l := List.perm_insertionSort _ l
  sorted key l := by
    have : Std.Total fun a b : α => key b ≤ key a := ⟨fun a b => by omega⟩
    have : IsTrans α fun a b : α => key b ≤ key a := ⟨fun a b c hab hbc => by omega⟩
    exact List.pairwise_insertionSort _ l

theorem SortDesc.mem_sort {α : Type} (sorter : SortDesc α) {key : α → ℤ} {l : List α} {x : α} :
    x ∈ sorter.sort key l ↔ x ∈ l :=
  (sorter.perm key l).mem_iff

/-- The distinct values, the largest first. -/
def distinctDesc (l : List ℤ) : List ℤ := l.dedup.insertionSort (· ≥ ·)

variable {l l' : List ℤ} {x : ℤ}

@[simp] theorem mem_distinctDesc : x ∈ distinctDesc l ↔ x ∈ l := by
  rw [distinctDesc, List.mem_insertionSort, List.mem_dedup]

theorem nodup_distinctDesc : (distinctDesc l).Nodup := by
  rw [distinctDesc, (List.perm_insertionSort _ _).nodup_iff]
  exact l.nodup_dedup

theorem sorted_distinctDesc : (distinctDesc l).Pairwise (· ≥ ·) := List.pairwise_insertionSort _ _

@[simp] theorem distinctDesc_eq_nil : distinctDesc l = [] ↔ l = [] := by
  rw [List.eq_nil_iff_forall_not_mem, List.eq_nil_iff_forall_not_mem]
  simp only [mem_distinctDesc]

/-- Only the values matter. -/
theorem distinctDesc_congr (h : ∀ x, x ∈ l ↔ x ∈ l') : distinctDesc l = distinctDesc l' := by
  have hanti : ∀ a b, a ∈ distinctDesc l → b ∈ distinctDesc l' → a ≥ b → b ≥ a → a = b := by
    intro a b _ _ hab hba
    exact le_antisymm hba hab
  refine List.Perm.eq_of_pairwise hanti sorted_distinctDesc sorted_distinctDesc ?_
  · rw [List.perm_ext_iff_of_nodup nodup_distinctDesc nodup_distinctDesc]
    intro x
    rw [mem_distinctDesc, mem_distinctDesc, h]

/-- The value at a level, the lowest one from there on; `none` only of an empty slice. -/
def level (l : List ℤ) (n : ℕ) : Option ℤ :=
  (distinctDesc l)[min n ((distinctDesc l).length - 1)]?

theorem level_mem {n : ℕ} (h : level l n = some x) : x ∈ l := by
  rw [← mem_distinctDesc]
  exact List.mem_of_getElem? h

theorem level_isSome (n : ℕ) (h : l ≠ []) : ∃ x, level l n = some x := by
  have hne : distinctDesc l ≠ [] := by
    rwa [ne_eq, distinctDesc_eq_nil]
  have hpos : 0 < (distinctDesc l).length := List.length_pos_iff.mpr hne
  have hlt : min n ((distinctDesc l).length - 1) < (distinctDesc l).length := by omega
  exact ⟨_, List.getElem?_eq_getElem hlt⟩

theorem countP_lt_of_getElem? {d : List ℤ} (h : d.Pairwise (· > ·)) :
    ∀ {i : ℕ}, d[i]? = some x → d.countP (x < ·) = i := by
  induction d with
  | nil =>
    intro i hx
    cases hx
  | cons y d ih =>
    intro i hx
    rw [List.pairwise_cons] at h
    cases i with
    | zero =>
      obtain rfl : y = x := by simpa using hx
      have hnone : (y :: d).countP (y < ·) = 0 := by
        rw [List.countP_eq_zero, List.forall_mem_cons]
        refine ⟨by simp, fun z hz => ?_⟩
        have hlt := h.1 z hz
        simp only [decide_eq_true_eq]
        omega
      exact hnone
    | succ i =>
      rw [List.getElem?_cons_succ] at hx
      have hlt := h.1 x (List.mem_of_getElem? hx)
      rw [List.countP_cons_of_pos (by simpa using hlt), ih h.2 hx]

/-- The value at a level has as many distinct values above it as the level says. -/
theorem countP_lt_of_level {n : ℕ} (h : level l n = some x) :
    l.dedup.countP (x < ·) = min n (l.dedup.length - 1) := by
  have hperm : (distinctDesc l).Perm l.dedup := List.perm_insertionSort _ _
  have hdesc : (distinctDesc l).Pairwise (· > ·) := by
    refine List.Pairwise.imp₂ ?_ sorted_distinctDesc nodup_distinctDesc
    intro a b hge hne
    exact lt_of_le_of_ne hge (Ne.symm hne)
  rw [← hperm.countP_eq, ← hperm.length_eq]
  exact countP_lt_of_getElem? hdesc h

/-- Every value has a level. -/
theorem exists_level (h : x ∈ l) : ∃ n, level l n = some x := by
  rw [← mem_distinctDesc] at h
  obtain ⟨n, hn, hx⟩ := List.getElem_of_mem h
  refine ⟨n, ?_⟩
  have hmin : min n ((distinctDesc l).length - 1) = n := by omega
  rw [level, hmin, List.getElem?_eq_getElem hn, hx]

theorem level_congr (h : ∀ x, x ∈ l ↔ x ∈ l') (n : ℕ) : level l n = level l' n := by
  rw [level, level, distinctDesc_congr h]

/-- The first level is the largest value. -/
theorem level_zero_max (h : level l 0 = some x) {y : ℤ} (hy : y ∈ l) : y ≤ x := by
  rw [← mem_distinctDesc] at hy
  have hsorted := sorted_distinctDesc (l := l)
  unfold level at h
  rw [Nat.zero_min] at h
  cases hl : distinctDesc l with
  | nil => rw [hl] at hy; cases hy
  | cons z rest =>
    rw [hl] at h hy hsorted
    cases h
    rcases List.mem_cons.mp hy with rfl | hrest
    · exact le_refl _
    · exact List.rel_of_pairwise_cons hsorted hrest

end GoSlice
