import Mathlib.Data.List.Nodup
import Mathlib.Data.List.Perm.Subperm

/-!
# Following a partial function

From a point a partial function is followed to an end, or into a cycle, and never to
both.  A `Trail` is what a search remembers of its way; over a finite domain it is
bounded, so a search that stops where it meets its trail always stops.
-/

namespace Chain

open Relation

variable {α : Type}

def Step (f : α → Option α) (x y : α) : Prop := f x = some y

/-- Followed from `x`, the function comes to `y` and stops there. -/
def EndsAt (f : α → Option α) (x y : α) : Prop := ReflTransGen (Step f) x y ∧ f y = none

/-- Followed from `x`, the function comes to a cycle. -/
def Cycles (f : α → Option α) (x : α) : Prop :=
  ∃ y, ReflTransGen (Step f) x y ∧ TransGen (Step f) y y

variable {f : α → Option α} {x y z : α} {l : List α}

theorem step_unique : Relator.RightUnique (Step f) := by
  intro x y z hy hz
  exact Option.some.inj (hy.symm.trans hz)

/-- Nothing follows an end. -/
theorem eq_of_end (h : ReflTransGen (Step f) y z) (hy : f y = none) : z = y := by
  rcases h.cases_head with h | ⟨w, hw, -⟩
  · exact h.symm
  · unfold Step at hw
    rw [hy] at hw
    cases hw

theorem endsAt_unique (hy : EndsAt f x y) (hz : EndsAt f x z) : y = z := by
  rcases ReflTransGen.total_of_right_unique step_unique hy.1 hz.1 with h | h
  · exact (eq_of_end h hy.2).symm
  · exact eq_of_end h hz.2

/-- A cycle is not left. -/
theorem cycle_closed (hcycle : TransGen (Step f) y y) (h : ReflTransGen (Step f) y z) :
    TransGen (Step f) z z := by
  induction h with
  | refl => exact hcycle
  | tail _ hstep ih =>
    obtain ⟨w, hw, hrest⟩ := TransGen.head'_iff.mp ih
    obtain rfl := step_unique hw hstep
    exact TransGen.tail' hrest hstep

theorem not_endsAt_of_cycles (h : Cycles f x) : ¬ EndsAt f x z := by
  rintro ⟨hz, hend⟩
  obtain ⟨y, hy, hcycle⟩ := h
  have hnext : ∀ {w}, TransGen (Step f) w w → f w ≠ none := by
    intro w hw hnone
    obtain ⟨v, hv, -⟩ := TransGen.head'_iff.mp hw
    unfold Step at hv
    rw [hnone] at hv
    cases hv
  rcases ReflTransGen.total_of_right_unique step_unique hy hz with h | h
  · exact hnext (cycle_closed hcycle h) hend
  · rw [eq_of_end h hend] at hcycle
    exact hnext hcycle hend

/-! ## Trails -/

/-- The way from `x`, the newest point first. -/
inductive Trail (f : α → Option α) (x : α) : List α → Prop
  | start : Trail f x [x]
  | step {y z : α} {l : List α} : Trail f x (y :: l) → f y = some z → z ∉ y :: l →
      Trail f x (z :: y :: l)

theorem Trail.reached (h : Trail f x (y :: l)) : ReflTransGen (Step f) x y := by
  generalize htrail : y :: l = trail at h
  induction h generalizing y l with
  | start =>
    cases htrail
    exact .refl
  | step _ hstep _ ih =>
    cases htrail
    exact (ih rfl).tail hstep

/-- Every point of a trail leads to the newest. -/
theorem Trail.leads (h : Trail f x (y :: l)) (hz : z ∈ y :: l) : ReflTransGen (Step f) z y := by
  generalize htrail : y :: l = trail at h
  induction h generalizing y l with
  | start =>
    cases htrail
    rw [List.mem_singleton.mp hz]
  | step _ hstep _ ih =>
    cases htrail
    rcases List.mem_cons.mp hz with rfl | hz
    · exact .refl
    · exact (ih hz rfl).tail hstep

/-- A trail that meets itself has found a cycle. -/
theorem Trail.cycles (h : Trail f x (y :: l)) (hstep : f y = some z) (hz : z ∈ y :: l) :
    Cycles f x :=
  ⟨y, h.reached, TransGen.head' hstep (h.leads hz)⟩

theorem Trail.nodup (h : Trail f x l) : l.Nodup := by
  induction h with
  | start => exact List.nodup_singleton x
  | step _ _ hnew ih => exact List.nodup_cons.mpr ⟨hnew, ih⟩

/-- All its points but the newest are where the function is defined. -/
theorem Trail.defined (h : Trail f x (y :: l)) (hz : z ∈ l) : f z ≠ none := by
  generalize htrail : y :: l = trail at h
  induction h generalizing y l with
  | start =>
    cases htrail
    cases hz
  | step _ hstep _ ih =>
    cases htrail
    rcases List.mem_cons.mp hz with rfl | hz
    · rw [hstep]
      exact Option.some_ne_none _
    · exact ih hz rfl

/-- **A trail is bounded** by the points where the function is defined. -/
theorem Trail.length_le {dom : List α} (hdom : ∀ z, f z ≠ none → z ∈ dom)
    (h : Trail f x (y :: l)) : l.length ≤ dom.length := by
  have hnodup := (List.nodup_cons.mp h.nodup).2
  exact (hnodup.subperm fun z hz => hdom z (h.defined hz)).length_le

end Chain
