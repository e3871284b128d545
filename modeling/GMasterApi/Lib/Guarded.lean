import GMasterApi.Lib.Transaction

/-!
# Writes that the store may refuse

An `UPDATE … WHERE` that hits no row, or a row that repeats a unique key, makes
its transaction fail.  The row lock of such a statement is held to the commit,
so what it found is what the commit finds: here the commit asks the store
whether it still `accepts` the pending writes, and rolls back if it does not.

The rules are those of plain transactions with two more things to use: a commit
that happened was accepted, and a relation `K` between what a `SELECT` saw and
the store since then, which every accepted commit has to keep.
-/

namespace Sql

open Transition

variable {σ κ ω ε ℓ : Type}

/-- Every commit that the store accepts meets `C`. -/
def AcceptedMeets (accepts : σ → List ω → Bool)
    (C : σ → List (κ × List ω) → Open σ κ ω ε → Prop) : State σ κ ω ε ℓ → Action κ → Prop :=
  CommitMeets fun st hs o => accepts st o.pending = true → C st hs o

namespace Protocol

variable {P : Protocol σ κ ω ε ℓ} {accepts : σ → List ω → Bool} {I : σ → List (κ × List ω) → Prop}
  {K : σ → σ → List (κ × List ω) → Prop} {s t : State σ κ ω ε ℓ} {i : ℕ}

theorem release_clients {j : ℕ} {o : Open σ κ ω ε} (h : (s.release i).clients j = some o) :
    s.clients j = some o := by
  simp only [State.release, Function.update_apply] at h
  split at h
  · cases h
  · exact h

/-- The invariant of a whole state: that of plain transactions, and `K` between
what each open one saw and the store now. -/
def InvWhere (P : Protocol σ κ ω ε ℓ) (K : σ → σ → List (κ × List ω) → Prop)
    (I : σ → List (κ × List ω) → Prop) (s : State σ κ ω ε ℓ) : Prop :=
  P.Inv (fun _ => True) I s ∧ ∀ i o, s.clients i = some o → K o.seen s.store s.committed

theorem InvWhere.initial {store : σ} (h : I store []) :
    P.InvWhere K I (State.initial store : State σ κ ω ε ℓ) :=
  ⟨.initial h, fun _ _ hc => by cases hc⟩

theorem InvWhere.release (h : P.InvWhere K I s) : P.InvWhere K I (s.release i) :=
  ⟨h.1.release, fun j o hj => h.2 j o (release_clients hj)⟩

/-- What an accepted commit that meets `C` has to keep. -/
def CommitKeeps (P : Protocol σ κ ω ε ℓ) (accepts : σ → List ω → Bool)
    (K : σ → σ → List (κ × List ω) → Prop) (I : σ → List (κ × List ω) → Prop)
    (C : σ → List (κ × List ω) → Open σ κ ω ε → Prop) : Prop :=
  ∀ st hs (o : Open σ κ ω ε), I st hs → K o.seen st hs → P.Outcome o.call o.seen o.pending →
    accepts st o.pending = true → C st hs o →
    I (P.write st o.pending) (hs ++ [(o.call, o.pending)]) ∧
      ∀ seen, K seen st hs → K seen (P.write st o.pending) (hs ++ [(o.call, o.pending)])

variable (P) [DecidableEq ℓ]

def stepWhere (accepts : σ → List ω → Bool) (s : State σ κ ω ε ℓ) :
    Action κ → Option (State σ κ ω ε ℓ)
  | .commit i => (P.step s (.commit i)).map fun t =>
      if (s.clients i).any (fun o => accepts s.store o.pending) then t else s.release i
  | a => P.step s a

def systemWhere (accepts : σ → List ω → Bool) : System (State σ κ ω ε ℓ) (Action κ) :=
  ⟨P.stepWhere accepts⟩

variable {P}

/-- Only a commit moves the store and the history. -/
theorem step_store {a : Action κ} (ha : ∀ i, a ≠ .commit i) (ht : P.step s a = some t) :
    t.store = s.store ∧ t.committed = s.committed := by
  cases a with
  | select i call =>
    simp only [step] at ht
    split at ht
    · cases ht
    · split at ht <;> (cases ht; exact ⟨rfl, rfl⟩)
  | next i =>
    simp only [step] at ht
    split at ht
    · cases ht
    · cases ht
    · split at ht <;> (cases ht; exact ⟨rfl, rfl⟩)
  | commit i => exact absurd rfl (ha i)
  | fail i =>
    simp only [step] at ht
    split at ht
    · cases ht
    · cases ht; exact ⟨rfl, rfl⟩

/-- What a transaction's `SELECT` saw stays, and a new one saw the store. -/
theorem step_seen {a : Action κ} (ht : P.step s a = some t) {j : ℕ} {o : Open σ κ ω ε}
    (ho : t.clients j = some o) :
    o.seen = s.store ∨ ∃ o', s.clients j = some o' ∧ o'.seen = o.seen := by
  cases a with
  | select i call =>
    simp only [step] at ht
    split at ht
    · cases ht
    · split at ht
      · cases ht; exact .inr ⟨o, ho, rfl⟩
      · cases ht
        simp only [Function.update_apply] at ho
        split at ho
        · cases ho; exact .inl rfl
        · exact .inr ⟨o, ho, rfl⟩
  | next i =>
    simp only [step] at ht
    split at ht
    · cases ht
    · cases ht
    · rename_i call seen answer pending hc
      split at ht
      · cases ht; exact .inr ⟨o, release_clients ho, rfl⟩
      · cases ht
        simp only [Function.update_apply] at ho
        split at ho
        · rename_i hj
          cases ho
          exact .inr ⟨⟨call, seen, .query answer, pending⟩, hj ▸ hc, rfl⟩
        · exact .inr ⟨o, ho, rfl⟩
  | commit i =>
    simp only [step] at ht
    split at ht
    · cases ht
    · cases ht
    · cases ht; exact .inr ⟨o, release_clients ho, rfl⟩
  | fail i =>
    simp only [step] at ht
    split at ht
    · cases ht
    · cases ht; exact .inr ⟨o, release_clients ho, rfl⟩

/-- A step that does not commit keeps it. -/
theorem step_invWhere (hK : ∀ st hs, I st hs → K st st hs) {a : Action κ}
    (ha : ∀ i, a ≠ .commit i) (h : P.InvWhere K I s) (ht : P.step s a = some t) :
    P.InvWhere K I t := by
  have hinv : P.Inv (fun _ => True) I t := by
    cases a with
    | select i call => exact step_select h.1 (fun _ _ _ => trivial) ht
    | next i => exact step_next h.1 ht
    | commit i => exact absurd rfl (ha i)
    | fail i => exact step_fail h.1 ht
  obtain ⟨hst, hhs⟩ := step_store ha ht
  refine ⟨hinv, fun j o ho => ?_⟩
  rw [hst, hhs]
  rcases step_seen ht ho with hseen | ⟨o', hc, hseen⟩
  · rw [hseen]
    exact hK _ _ h.1.1
  · rw [← hseen]
    exact h.2 j o' hc

/-- What a commit does: all of the transaction, or nothing. -/
theorem stepWhere_commit (h : P.InvWhere K I s) (ht : P.stepWhere accepts s (.commit i) = some t) :
    ∃ o, s.clients i = some o ∧ K o.seen s.store s.committed ∧
      P.Outcome o.call o.seen o.pending ∧
      (accepts s.store o.pending = true ∧ t = { s.release i with
          store := P.write s.store o.pending
          committed := s.committed ++ [(o.call, o.pending)] } ∨
        accepts s.store o.pending = false ∧ t = s.release i) := by
  simp only [stepWhere, Option.map_eq_some_iff] at ht
  obtain ⟨u, hu, rfl⟩ := ht
  obtain ⟨o, hc, -, ho, rfl⟩ := step_commit h.1 hu
  refine ⟨o, hc, h.2 i o hc, ho, ?_⟩
  rw [hc, Option.any_some]
  cases accepts s.store o.pending with
  | true => exact .inl ⟨rfl, rfl⟩
  | false => exact .inr ⟨rfl, rfl⟩

section Rules

variable {G : σ → List (κ × List ω) → Prop} {C : σ → List (κ × List ω) → Open σ κ ω ε → Prop}

theorem stepWhere_inv (hK : ∀ st hs, I st hs → K st st hs) (hkeep : P.CommitKeeps accepts K I C)
    {a : Action κ} (h : P.InvWhere K I s) (hC : AcceptedMeets accepts C s a)
    (ht : P.stepWhere accepts s a = some t) : P.InvWhere K I t := by
  cases a with
  | select i call => exact step_invWhere (a := .select i call) hK (by simp) h ht
  | next i => exact step_invWhere (a := .next i) hK (by simp) h ht
  | fail i => exact step_invWhere (a := .fail i) hK (by simp) h ht
  | commit i =>
    obtain ⟨o, hc, hseen, ho, ⟨hacc, rfl⟩ | ⟨-, rfl⟩⟩ := stepWhere_commit h ht
    · obtain ⟨hI, hk⟩ := hkeep _ _ o h.1.1 hseen ho hacc (hC o hc hacc)
      exact ⟨⟨hI, h.1.release.2⟩, fun j o' hj => hk _ (h.2 j o' (release_clients hj))⟩
    · exact h.release

/-- A step that does not meet the condition is a commit, and leaves `G`. -/
theorem stepWhere_bad
    (hbad : ∀ st hs (o : Open σ κ ω ε), I st hs → K o.seen st hs →
      P.Outcome o.call o.seen o.pending → accepts st o.pending = true → ¬ C st hs o →
      ¬ G (P.write st o.pending) (hs ++ [(o.call, o.pending)]))
    {a : Action κ} (h : P.InvWhere K I s) (hC : ¬ AcceptedMeets accepts C s a)
    (ht : P.stepWhere accepts s a = some t) : ¬ G t.store t.committed := by
  cases a with
  | select i call => exact absurd trivial hC
  | next i => exact absurd trivial hC
  | fail i => exact absurd trivial hC
  | commit i =>
    obtain ⟨o, hc, hseen, ho, ⟨hacc, rfl⟩ | ⟨hacc, rfl⟩⟩ := stepWhere_commit h ht
    · refine hbad _ _ o h.1.1 hseen ho hacc fun hmeets => hC fun o' hc' _ => ?_
      rw [hc] at hc'
      cases hc'
      exact hmeets
    · refine absurd (fun o' hc' hacc' => ?_) hC
      rw [hc] at hc'
      cases hc'
      rw [hacc] at hacc'
      cases hacc'

/-- **One commit decides**, where the store may refuse it. -/
theorem everyState_iff_commits_where (hK : ∀ st hs, I st hs → K st st hs)
    (hG : ∀ st hs, I st hs → G st hs) (hkeep : P.CommitKeeps accepts K I C)
    (hbad : ∀ st hs (o : Open σ κ ω ε), I st hs → K o.seen st hs →
      P.Outcome o.call o.seen o.pending → accepts st o.pending = true → ¬ C st hs o →
      ¬ G (P.write st o.pending) (hs ++ [(o.call, o.pending)]))
    {store : σ} (h0 : I store []) (as : List (Action κ)) :
    (P.systemWhere accepts).EveryState (fun s => G s.store s.committed) (State.initial store) as ↔
      (P.systemWhere accepts).EveryStep (AcceptedMeets accepts C) (State.initial store) as :=
  System.everyState_iff_everyStep (S := P.systemWhere accepts) (I := P.InvWhere K I)
    (fun _ h => hG _ _ h.1.1) (fun _ _ _ h hC ht => stepWhere_inv hK hkeep h hC ht)
    (fun _ _ _ h hC ht => stepWhere_bad hbad h hC ht) (.initial h0)

/-- A store that accepts everything. -/
theorem systemWhere_true : P.systemWhere (fun _ _ => true) = P.system := by
  have h : P.stepWhere (fun _ _ => true) = P.step := by
    funext s a
    cases a with
    | select i call => rfl
    | next i => rfl
    | fail i => rfl
    | commit i =>
      cases hc : s.clients i with
      | none => simp [stepWhere, step, hc]
      | some o => simp [stepWhere, hc]
  unfold systemWhere system
  rw [h]

/-- **One commit decides**, with a relation between what a call saw and the store. -/
theorem everyState_iff_commits_seen (hK : ∀ st hs, I st hs → K st st hs)
    (hG : ∀ st hs, I st hs → G st hs)
    (hkeep : ∀ st hs (o : Open σ κ ω ε), I st hs → K o.seen st hs →
      P.Outcome o.call o.seen o.pending → C st hs o →
      I (P.write st o.pending) (hs ++ [(o.call, o.pending)]) ∧
        ∀ seen, K seen st hs → K seen (P.write st o.pending) (hs ++ [(o.call, o.pending)]))
    (hbad : ∀ st hs (o : Open σ κ ω ε), I st hs → K o.seen st hs →
      P.Outcome o.call o.seen o.pending → ¬ C st hs o →
      ¬ G (P.write st o.pending) (hs ++ [(o.call, o.pending)]))
    {store : σ} (h0 : I store []) (as : List (Action κ)) :
    P.system.EveryState (fun s => G s.store s.committed) (State.initial store) as ↔
      P.system.EveryStep (CommitMeets C) (State.initial store) as := by
  have hkeep' : P.CommitKeeps (fun _ _ => true) K I C :=
    fun st hs o hi hk ho _ hc => hkeep st hs o hi hk ho hc
  have h := everyState_iff_commits_where hK hG hkeep'
    (fun st hs o hi hk ho _ hc => hbad st hs o hi hk ho hc) h0 as
  have hC : AcceptedMeets (κ := κ) (ε := ε) (ℓ := ℓ) (fun (_ : σ) (_ : List ω) => true) C =
      CommitMeets C := by
    simp [AcceptedMeets]
  rw [systemWhere_true, hC] at h
  exact h

end Rules

end Protocol

end Sql
