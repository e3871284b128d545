import Mathlib.Data.List.Sort

/-!
# Ranges of integers

A list of closed ranges in any order is brought into a form with gaps between its ranges, in
which a search may stop at the first range that begins behind what is searched.
-/

namespace Ranges

structure Range where
  start : ℤ
  stop : ℤ
  deriving DecidableEq

def Range.Has (r : Range) (n : ℤ) : Prop := r.start ≤ n ∧ n ≤ r.stop

def Holds (l : List Range) (n : ℤ) : Prop := ∃ r ∈ l, r.Has n

/-- There is a number between the two that neither has. -/
def Apart (r s : Range) : Prop := r.stop + 1 < s.start

/-- Ranges that are not empty, with gaps between them. -/
structure Canonical (l : List Range) : Prop where
  start_le : ∀ r ∈ l, r.start ≤ r.stop
  apart : l.Pairwise Apart

/-- By their starts, and of one start by their ends. -/
def Before (r s : Range) : Prop := r.start < s.start ∨ r.start = s.start ∧ r.stop ≤ s.stop

instance : DecidableRel Before := fun r s =>
  inferInstanceAs (Decidable (r.start < s.start ∨ r.start = s.start ∧ r.stop ≤ s.stop))

instance : Std.Total Before where
  total r s := by
    unfold Before
    omega

instance : IsTrans Range Before where
  trans r s t h h' := by
    unfold Before at *
    omega

/-- The range from the start of `r` that has what both have, where `s` touches `r`. -/
def Range.glue (r s : Range) : Range := ⟨r.start, max r.stop s.stop⟩

/-- The ranges behind `last`, put together with it as long as they touch. -/
def coalesce (last : Range) : List Range → List Range
  | [] => [last]
  | r :: l =>
    if r.start ≤ last.stop + 1 then coalesce (last.glue r) l else last :: coalesce r l

def normalize (l : List Range) : List Range :=
  match l.insertionSort Before with
  | [] => []
  | r :: l => coalesce r l

/-- The search that stops at a range that begins behind `n`. -/
def search (n : ℤ) : List Range → Bool
  | [] => false
  | r :: l => if n < r.start then false else if n ≤ r.stop then true else search n l

variable {l : List Range} {r s last : Range} {n : ℤ}

theorem holds_cons : Holds (r :: l) n ↔ r.Has n ∨ Holds l n := List.exists_mem_cons_iff _ _ _

theorem Canonical.tail (h : Canonical (r :: l)) : Canonical l :=
  ⟨fun s hs => h.start_le s (List.mem_cons_of_mem r hs), (List.pairwise_cons.mp h.apart).2⟩

theorem has_glue (hstart : last.start ≤ r.start) (htouch : r.start ≤ last.stop + 1) :
    (last.glue r).Has n ↔ last.Has n ∨ r.Has n := by
  unfold Range.Has Range.glue
  dsimp only
  omega

theorem start_le_glue (hlast : last.start ≤ last.stop) : (last.glue r).start ≤ (last.glue r).stop :=
  hlast.trans (le_max_left _ _)

/-- The ranges are in the order of their starts. -/
def Sorted (l : List Range) : Prop := l.Pairwise fun r s => r.start ≤ s.start

theorem Sorted.glue (h : Sorted (last :: r :: l)) : Sorted (last.glue r :: l) := by
  obtain ⟨hfirst, hrest⟩ := List.pairwise_cons.mp h
  refine List.pairwise_cons.mpr ⟨fun s hs => ?_, (List.pairwise_cons.mp hrest).2⟩
  exact hfirst s (List.mem_cons_of_mem r hs)

theorem holds_coalesce (hsorted : Sorted (last :: l)) :
    Holds (coalesce last l) n ↔ Holds (last :: l) n := by
  induction l generalizing last with
  | nil => exact Iff.rfl
  | cons r l ih =>
    obtain ⟨hfirst, hrest⟩ := List.pairwise_cons.mp hsorted
    have hr := hfirst r List.mem_cons_self
    rw [coalesce]
    split
    · rename_i htouch
      rw [ih hsorted.glue, holds_cons, holds_cons, holds_cons, has_glue hr htouch, or_assoc]
    · rw [holds_cons, holds_cons, ih hrest]

/-- No range begins before the first. -/
theorem start_le_of_mem_coalesce (hsorted : Sorted (last :: l)) (hs : s ∈ coalesce last l) :
    last.start ≤ s.start := by
  induction l generalizing last with
  | nil =>
    rw [coalesce, List.mem_singleton] at hs
    rw [hs]
  | cons r l ih =>
    obtain ⟨hfirst, hrest⟩ := List.pairwise_cons.mp hsorted
    rw [coalesce] at hs
    split at hs
    · have hstart := ih hsorted.glue hs
      exact hstart
    · rcases List.mem_cons.mp hs with rfl | hs
      · exact le_rfl
      · exact (hfirst r List.mem_cons_self).trans (ih hrest hs)

theorem canonical_coalesce (hlast : last.start ≤ last.stop) (hl : ∀ r ∈ l, r.start ≤ r.stop)
    (hsorted : Sorted (last :: l)) : Canonical (coalesce last l) := by
  induction l generalizing last with
  | nil => exact ⟨by simpa [coalesce] using hlast, List.pairwise_singleton _ _⟩
  | cons r l ih =>
    have hl' : ∀ s ∈ l, s.start ≤ s.stop := fun s hs => hl s (List.mem_cons_of_mem r hs)
    rw [coalesce]
    split
    · exact ih (start_le_glue hlast) hl' hsorted.glue
    · rename_i hgap
      obtain ⟨-, hrest⟩ := List.pairwise_cons.mp hsorted
      have hcanonical := ih (hl r List.mem_cons_self) hl' hrest
      constructor
      · intro s hs
        rcases List.mem_cons.mp hs with rfl | hs
        · exact hlast
        · exact hcanonical.start_le s hs
      · refine List.pairwise_cons.mpr ⟨fun s hs => ?_, hcanonical.apart⟩
        have hstart := start_le_of_mem_coalesce hrest hs
        unfold Apart
        omega

/-- Nothing is put together where there are gaps already. -/
theorem coalesce_of_apart (h : (last :: l).Pairwise Apart) : coalesce last l = last :: l := by
  induction l generalizing last with
  | nil => rfl
  | cons r l ih =>
    obtain ⟨hfirst, hrest⟩ := List.pairwise_cons.mp h
    have hgap : last.stop + 1 < r.start := hfirst r List.mem_cons_self
    rw [coalesce, if_neg (by omega), ih hrest]

/-! ## The normal form -/

theorem start_le_of_before (h : Before r s) : r.start ≤ s.start := by
  unfold Before at h
  omega

theorem before_of_canonical (h : Canonical l) : l.Pairwise Before := by
  refine h.apart.imp_of_mem fun {r s} hr _ hgap => .inl ?_
  have hle := h.start_le r hr
  unfold Apart at hgap
  omega

theorem normalize_cases (l : List Range) : l = [] ∧ normalize l = [] ∨
    ∃ r rest, l.insertionSort Before = r :: rest ∧ normalize l = coalesce r rest := by
  unfold normalize
  cases hsorted : l.insertionSort Before with
  | nil =>
    have hperm := List.perm_insertionSort Before l
    rw [hsorted] at hperm
    exact .inl ⟨hperm.symm.eq_nil, rfl⟩
  | cons r rest => exact .inr ⟨r, rest, rfl, rfl⟩

/-- **The normal form** has the same numbers, in ranges with gaps between them. -/
theorem normalize_spec (hl : ∀ r ∈ l, r.start ≤ r.stop) :
    Canonical (normalize l) ∧ ∀ n, Holds (normalize l) n ↔ Holds l n := by
  rcases normalize_cases l with ⟨rfl, hnil⟩ | ⟨r, rest, hsorted, hnormalize⟩
  · rw [hnil]
    exact ⟨⟨nofun, List.Pairwise.nil⟩, fun n => Iff.rfl⟩
  · have hmem : ∀ s, s ∈ r :: rest ↔ s ∈ l := by
      intro s
      rw [← hsorted, List.mem_insertionSort]
    have hstarts : Sorted (r :: rest) := by
      rw [← hsorted]
      exact (List.pairwise_insertionSort Before l).imp start_le_of_before
    have hr := hl r ((hmem r).mp List.mem_cons_self)
    have hrest : ∀ s ∈ rest, s.start ≤ s.stop :=
      fun s hs => hl s ((hmem s).mp (List.mem_cons_of_mem r hs))
    rw [hnormalize]
    refine ⟨canonical_coalesce hr hrest hstarts, fun n => ?_⟩
    rw [holds_coalesce hstarts]
    exact ⟨fun ⟨s, hs, hn⟩ => ⟨s, (hmem s).mp hs, hn⟩, fun ⟨s, hs, hn⟩ => ⟨s, (hmem s).mpr hs, hn⟩⟩

theorem normalize_of_canonical (h : Canonical l) : normalize l = l := by
  unfold normalize
  rw [(before_of_canonical h).insertionSort_eq]
  cases l with
  | nil => rfl
  | cons r rest => exact coalesce_of_apart h.apart

theorem search_iff (h : Canonical l) : search n l = true ↔ Holds l n := by
  induction l with
  | nil => exact ⟨nofun, fun ⟨_, hr, _⟩ => absurd hr List.not_mem_nil⟩
  | cons r rest ih =>
    obtain ⟨hfirst, -⟩ := List.pairwise_cons.mp h.apart
    have hr := h.start_le r List.mem_cons_self
    rw [search, holds_cons, ← ih h.tail]
    by_cases hstart : n < r.start
    · rw [if_pos hstart, ih h.tail]
      refine iff_of_false Bool.false_ne_true ?_
      rintro (hn | ⟨s, hs, hn⟩)
      · exact absurd hn.1 (not_le.mpr hstart)
      · have hgap : r.stop + 1 < s.start := hfirst s hs
        have hle := hn.1
        omega
    · rw [if_neg hstart]
      by_cases hstop : n ≤ r.stop
      · rw [if_pos hstop]
        exact iff_of_true rfl (.inl ⟨not_lt.mp hstart, hstop⟩)
      · rw [if_neg hstop]
        exact ⟨.inr, fun hn => hn.resolve_left fun hn => hstop hn.2⟩

end Ranges
