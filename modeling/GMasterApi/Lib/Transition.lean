import Mathlib.Data.List.Basic

/-!
# Runs of a labelled transition system

A `System` moves by labelled steps; a label carries everything the environment
chooses (who moves, what a fallible operation answered, the time), so a step is
a partial function.  A property of all runs is then a property of all lists of
labels:

* `EveryState P s as`: `P` holds in every state the run of `as` from `s` visits.
* `EveryStep C s as`: `C` holds of every step that the run takes.
* `EveryNext P s as`: `P` holds after every step that the run takes.
* `SomeStep C s as`: `C` holds of a step that the run takes.

`everyState_of_everyStep` is the usual invariant rule with a condition on the
steps; `everyState_iff_everyStep` says when the condition is exact.
-/

namespace Transition

/-- A system that moves by labelled steps; `none` where the label is not enabled. -/
structure System (σ α : Type) where
  step : σ → α → Option σ

namespace System

variable {σ α : Type} (S : System σ α)

/-- The state after the labels `as`, if every one of them was enabled. -/
def run : σ → List α → Option σ
  | s, [] => some s
  | s, a :: as => (S.step s a).bind fun t => run t as

/-- `P` holds in every state of the run of `as` from `s`. -/
def EveryState (P : σ → Prop) : σ → List α → Prop
  | s, [] => P s
  | s, a :: as => P s ∧ ∀ t, S.step s a = some t → EveryState P t as

/-- `C` holds of every step taken in the run of `as` from `s`. -/
def EveryStep (C : σ → α → Prop) : σ → List α → Prop
  | _, [] => True
  | s, a :: as => ∀ t, S.step s a = some t → C s a ∧ EveryStep C t as

/-- `P` holds after each step taken in the run of `as` from `s`. -/
def EveryNext (P : σ → Prop) : σ → List α → Prop
  | _, [] => True
  | s, a :: as => ∀ t, S.step s a = some t → P t ∧ EveryNext P t as

/-- `C` holds of a step taken in the run of `as` from `s`. -/
def SomeStep (C : σ → α → Prop) : σ → List α → Prop
  | _, [] => False
  | s, a :: as => ∃ t, S.step s a = some t ∧ (C s a ∨ SomeStep C t as)

theorem run_cons (s : σ) (a : α) (as : List α) :
    S.run s (a :: as) = (S.step s a).bind fun t => S.run t as := rfl

theorem run_append (as bs : List α) :
    ∀ s : σ, S.run s (as ++ bs) = (S.run s as).bind fun t => S.run t bs := by
  induction as with
  | nil => intro s; rfl
  | cons a as ih =>
    intro s
    rw [List.cons_append, run_cons, run_cons, Option.bind_assoc]
    simp only [ih]

/-- The steps of one run can be checked where `C` can. -/
instance decidableEveryStep {C : σ → α → Prop} [∀ s a, Decidable (C s a)] :
    ∀ s as, Decidable (S.EveryStep C s as)
  | _, [] => .isTrue trivial
  | s, a :: as =>
    match h : S.step s a with
    | none => .isTrue fun t ht => absurd (h.symm.trans ht) (Option.some_ne_none t).symm
    | some t =>
      have : Decidable (S.EveryStep C t as) := decidableEveryStep t as
      decidable_of_iff (C s a ∧ S.EveryStep C t as)
        ⟨fun hc _ hu => Option.some.inj (h.symm.trans hu) ▸ hc, fun hall => hall t h⟩

variable {S}

/-- A condition on the labels alone. -/
theorem everyStep_of_forall {C : α → Prop} {as : List α} (h : ∀ a ∈ as, C a) :
    ∀ s : σ, S.EveryStep (fun _ a => C a) s as := by
  induction as with
  | nil => intro s; trivial
  | cons a as ih =>
    intro s t _
    exact ⟨h a List.mem_cons_self, ih (fun b hb => h b (List.mem_cons_of_mem a hb)) t⟩

/-- Of a run that is made every label meets it. -/
theorem EveryStep.forall {C : α → Prop} {s t : σ} {as : List α}
    (h : S.EveryStep (fun _ a => C a) s as) (ht : S.run s as = some t) : ∀ a ∈ as, C a := by
  induction as generalizing s with
  | nil =>
    intro a ha
    cases ha
  | cons b as ih =>
    rw [run_cons] at ht
    obtain ⟨u, hu, ht⟩ := Option.bind_eq_some_iff.mp ht
    obtain ⟨hb, hrest⟩ := h u hu
    exact List.forall_mem_cons.mpr ⟨hb, ih hrest ht⟩

/-- The states of a run are those its prefixes reach. -/
theorem everyState_iff_prefix {P : σ → Prop} {s : σ} {as : List α} :
    S.EveryState P s as ↔ ∀ bs t, bs <+: as → S.run s bs = some t → P t := by
  induction as generalizing s with
  | nil =>
    constructor
    · intro h bs t hb ht
      rw [List.prefix_nil] at hb
      subst hb
      cases ht
      exact h
    · intro h
      exact h [] s (List.prefix_refl _) rfl
  | cons a as ih =>
    constructor
    · rintro ⟨h0, h1⟩ bs t hb ht
      cases bs with
      | nil => cases ht; exact h0
      | cons b bs =>
        obtain ⟨rfl, htl⟩ := List.cons_prefix_cons.mp hb
        rw [run_cons] at ht
        obtain ⟨u, hu, ht⟩ := Option.bind_eq_some_iff.mp ht
        exact ih.mp (h1 u hu) bs t htl ht
    · intro h
      refine ⟨h [] s (List.nil_prefix) rfl, fun u hu => ih.mpr fun bs t hb ht => ?_⟩
      refine h (a :: bs) t (List.cons_prefix_cons.mpr ⟨rfl, hb⟩) ?_
      rw [run_cons, hu]
      exact ht

theorem EveryState.head {P : σ → Prop} {s : σ} {as : List α} (h : S.EveryState P s as) : P s := by
  cases as with
  | nil => exact h
  | cons a as => exact h.1

theorem EveryState.mono {P Q : σ → Prop} (hPQ : ∀ s, P s → Q s) {s : σ} {as : List α}
    (h : S.EveryState P s as) : S.EveryState Q s as := by
  induction as generalizing s with
  | nil => exact hPQ s h
  | cons a as ih => exact ⟨hPQ s h.1, fun t ht => ih (h.2 t ht)⟩

/-- The state a run ends in is one of its states. -/
theorem EveryState.run {P : σ → Prop} {s t : σ} {as : List α} (h : S.EveryState P s as)
    (ht : S.run s as = some t) : P t :=
  everyState_iff_prefix.mp h as t (List.prefix_refl _) ht

/-- **Invariant rule.**  What holds at the start and is kept by every step that
meets `C` holds in every state of a run whose steps all meet `C`. -/
theorem everyState_of_everyStep {I : σ → Prop} {C : σ → α → Prop}
    (hkeep : ∀ s a t, I s → C s a → S.step s a = some t → I t) {s : σ} {as : List α}
    (h0 : I s) (hC : S.EveryStep C s as) : S.EveryState I s as := by
  induction as generalizing s with
  | nil => exact h0
  | cons a as ih =>
    refine ⟨h0, fun t ht => ?_⟩
    obtain ⟨hc, hcs⟩ := hC t ht
    exact ih (hkeep s a t h0 hc ht) hcs

/-- What the invariant and the condition say of a step holds of every step that a run whose
steps all meet the condition takes. -/
theorem everyStep_of_everyStep {I : σ → Prop} {C D : σ → α → Prop}
    (hkeep : ∀ s a t, I s → C s a → S.step s a = some t → I t)
    (himp : ∀ s a, I s → C s a → D s a) {s : σ} {as : List α} (h0 : I s)
    (hC : S.EveryStep C s as) : S.EveryStep D s as := by
  induction as generalizing s with
  | nil => trivial
  | cons a as ih =>
    intro t ht
    obtain ⟨hc, hcs⟩ := hC t ht
    exact ⟨himp s a h0 hc, ih (hkeep s a t h0 hc ht) hcs⟩

/-- The invariant rule without a condition on the steps. -/
theorem everyState_of_step {I : σ → Prop} (hkeep : ∀ s a t, I s → S.step s a = some t → I t)
    {s : σ} {as : List α} (h0 : I s) : S.EveryState I s as := by
  induction as generalizing s with
  | nil => exact h0
  | cons a as ih => exact ⟨h0, fun t ht => ih (hkeep s a t h0 ht)⟩

/-- **Exact condition.**  If an invariant that implies `P` is kept by every step
that meets `C`, and a step that does not meet `C` leaves `P` at once, then `P`
holds along a run exactly when every step of the run meets `C`. -/
theorem everyState_iff_everyStep {I P : σ → Prop} {C : σ → α → Prop} (hP : ∀ s, I s → P s)
    (hkeep : ∀ s a t, I s → C s a → S.step s a = some t → I t)
    (hbad : ∀ s a t, I s → ¬ C s a → S.step s a = some t → ¬ P t) {s : σ} {as : List α}
    (h0 : I s) : S.EveryState P s as ↔ S.EveryStep C s as := by
  constructor
  · intro h
    induction as generalizing s with
    | nil => trivial
    | cons a as ih =>
      intro t ht
      have hPt := (h.2 t ht).head
      by_cases hc : C s a
      · exact ⟨hc, ih (hkeep s a t h0 hc ht) (h.2 t ht)⟩
      · exact absurd hPt (hbad s a t h0 hc ht)
  · intro h
    exact (everyState_of_everyStep hkeep h0 h).mono hP

/-- The exact condition where `P` is only promised after a step. -/
theorem everyNext_iff_everyStep {I P : σ → Prop} {C : σ → α → Prop}
    (hkeep : ∀ s a t, I s → C s a → S.step s a = some t → I t ∧ P t)
    (hbad : ∀ s a t, I s → ¬ C s a → S.step s a = some t → ¬ P t) {s : σ} {as : List α}
    (h0 : I s) : S.EveryNext P s as ↔ S.EveryStep C s as := by
  induction as generalizing s with
  | nil => exact Iff.rfl
  | cons a as ih =>
    constructor
    · intro h t ht
      obtain ⟨hP, hrest⟩ := h t ht
      by_cases hc : C s a
      · exact ⟨hc, (ih (hkeep s a t h0 hc ht).1).mp hrest⟩
      · exact absurd hP (hbad s a t h0 hc ht)
    · intro h t ht
      obtain ⟨hc, hrest⟩ := h t ht
      obtain ⟨hI, hP⟩ := hkeep s a t h0 hc ht
      exact ⟨hP, (ih hI).mpr hrest⟩

/-- Two conditions on the steps, equivalent wherever the invariant holds. -/
theorem everyStep_congr {I : σ → Prop} {C D : σ → α → Prop}
    (hkeep : ∀ s a t, I s → S.step s a = some t → I t) (hiff : ∀ s a, I s → (C s a ↔ D s a))
    {s : σ} {as : List α} (h0 : I s) : S.EveryStep C s as ↔ S.EveryStep D s as := by
  induction as generalizing s with
  | nil => exact Iff.rfl
  | cons a as ih =>
    refine forall_congr' fun t => forall_congr' fun ht => ?_
    rw [hiff s a h0, ih (hkeep s a t h0 ht)]

/-- What only the steps that meet `C` bring about holds at the end of a run exactly if it
held at the start, or one of the steps met `C`. -/
theorem iff_someStep {I P : σ → Prop} {C D : σ → α → Prop}
    (hkeep : ∀ s a t, I s → D s a → S.step s a = some t → I t ∧ (P t ↔ P s ∨ C s a)) {s t : σ}
    {as : List α} (h0 : I s) (hD : S.EveryStep D s as) (ht : S.run s as = some t) :
    P t ↔ P s ∨ S.SomeStep C s as := by
  induction as generalizing s with
  | nil =>
    cases ht
    exact (iff_of_eq (or_false _)).symm
  | cons a as ih =>
    rw [run_cons] at ht
    obtain ⟨u, hu, ht⟩ := Option.bind_eq_some_iff.mp ht
    obtain ⟨hd, hds⟩ := hD u hu
    obtain ⟨hI, hiff⟩ := hkeep s a u h0 hd hu
    rw [ih hI hds ht, hiff, or_assoc]
    have hsome : S.SomeStep C s (a :: as) ↔ C s a ∨ S.SomeStep C u as := by
      constructor
      · rintro ⟨u', hu', h⟩
        cases hu.symm.trans hu'
        exact h
      · intro h
        exact ⟨u, hu, h⟩
    rw [hsome]

/-- A run of steps that make `μ` smaller is no longer than `μ` was. -/
theorem length_add_le_of_decreasing {I : σ → Prop} {C : σ → α → Prop} {μ : σ → ℕ}
    (hkeep : ∀ s a t, I s → C s a → S.step s a = some t → I t)
    (hless : ∀ s a t, I s → C s a → S.step s a = some t → μ t < μ s) {s t : σ} {as : List α}
    (h0 : I s) (hC : S.EveryStep C s as) (ht : S.run s as = some t) : as.length + μ t ≤ μ s := by
  induction as generalizing s with
  | nil =>
    cases ht
    simp
  | cons a as ih =>
    rw [run_cons] at ht
    obtain ⟨u, hu, ht⟩ := Option.bind_eq_some_iff.mp ht
    obtain ⟨hc, hcs⟩ := hC u hu
    have hlt := hless s a u h0 hc hu
    have hle := ih (hkeep s a u h0 hc hu) hcs ht
    rw [List.length_cons]
    omega

/-- Where a step can be made as long as `D` does not hold, and steps make `μ` smaller, a run
comes to `D`. -/
theorem exists_run_of_progress {I D : σ → Prop} {C : σ → α → Prop} {μ : σ → ℕ}
    (hkeep : ∀ s a t, I s → C s a → S.step s a = some t → I t)
    (hless : ∀ s a t, I s → C s a → S.step s a = some t → μ t < μ s)
    (hprogress : ∀ s, I s → ¬ D s → ∃ a t, C s a ∧ S.step s a = some t) {s : σ} (h0 : I s) :
    ∃ as t, S.EveryStep C s as ∧ S.run s as = some t ∧ D t := by
  induction hμ : μ s using Nat.strongRecOn generalizing s with
  | ind n ih =>
    by_cases hD : D s
    · exact ⟨[], s, trivial, rfl, hD⟩
    · obtain ⟨a, t, hc, ht⟩ := hprogress s h0 hD
      have hlt := hless s a t h0 hc ht
      obtain ⟨as, u, hCs, hu, hDu⟩ := ih (μ t) (by omega) (hkeep s a t h0 hc ht) rfl
      refine ⟨a :: as, u, fun t' ht' => ?_, ?_, hDu⟩
      · cases ht.symm.trans ht'
        exact ⟨hc, hCs⟩
      · rw [run_cons, ht]
        exact hu

end System

end Transition
