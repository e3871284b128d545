import GMasterApi.Lib.RowLocks

/-!
# What each statement of a transaction read

`Answers` forgets on which store a statement ran.  Here a finished transaction
remembers it: every statement ran on a store that had been committed by then, with
the transaction's own pending writes on top, and a relation `K` ties each of those
stores to the one that the transaction commits to.
-/

namespace Sql

open Transition

namespace Protocol

variable {σ κ ω ε ℓ : Type} (P : Protocol σ κ ω ε ℓ)

/-- From the pending writes `ws` the script runs to its end and leaves `out`; each of
its statements ran on a committed store with `Q`. -/
inductive Ran (Q : σ → Prop) : Script σ ω ε → List ω → List ω → Prop
  | done {ws : List ω} : Ran Q .done ws ws
  | query {f : σ → Except ε (List ω × Script σ ω ε)} {st : σ} {ws more out : List ω}
    {rest : Script σ ω ε} : Q st → f (P.write st ws) = .ok (more, rest) →
    Ran Q rest (ws ++ more) out → Ran Q (.query f) ws out

/-- A transaction for `call` whose first `SELECT` saw `seen` may end with the writes `out`. -/
def Finished (Q : σ → Prop) (call : κ) (seen : σ) (out : List ω) : Prop :=
  ∃ script, P.body call seen = .ok script ∧ P.Ran Q script [] out

/-- Whatever the open transaction reads from now on, it finishes. -/
def OpenSaw (Q : σ → Prop) (o : Open σ κ ω ε) : Prop :=
  ∀ Q' : σ → Prop, (∀ st, Q st → Q' st) → ∀ out, P.Ran Q' o.todo o.pending out →
    P.Finished Q' o.call o.seen out

/-- The invariant of a whole state: `I` of the store and the history, and `K` between
what the open transactions have read and the store now. -/
def InvSaw (K : σ → σ → List (κ × List ω) → Prop) (I : σ → List (κ × List ω) → Prop)
    (s : State σ κ ω ε ℓ) : Prop :=
  I s.store s.committed ∧ ∀ i o, s.clients i = some o →
    K o.seen s.store s.committed ∧ P.OpenSaw (fun st => K st s.store s.committed) o

/-- What an accepted commit that meets `C` has to keep. -/
def SawKeeps (accepts : σ → List ω → Bool) (K : σ → σ → List (κ × List ω) → Prop)
    (I : σ → List (κ × List ω) → Prop) (C : σ → List (κ × List ω) → Open σ κ ω ε → Prop) : Prop :=
  ∀ st hs (o : Open σ κ ω ε), I st hs → K o.seen st hs →
    P.Finished (fun v => K v st hs) o.call o.seen o.pending → accepts st o.pending = true →
    C st hs o →
    I (P.write st o.pending) (hs ++ [(o.call, o.pending)]) ∧
      ∀ seen, K seen st hs → K seen (P.write st o.pending) (hs ++ [(o.call, o.pending)])

variable {P} {Q : σ → Prop} {K : σ → σ → List (κ × List ω) → Prop}
  {I : σ → List (κ × List ω) → Prop} {accepts : σ → List ω → Bool} {rows : ω → List ℓ}
  {s t : State σ κ ω ε ℓ} {i : ℕ} {ws out : List ω} {rest : Script σ ω ε}

theorem Ran.of_done (h : P.Ran Q .done ws out) : out = ws := by
  cases h
  rfl

theorem Ran.of_query {f : σ → Except ε (List ω × Script σ ω ε)} (h : P.Ran Q (.query f) ws out) :
    ∃ st more rest, Q st ∧ f (P.write st ws) = .ok (more, rest) ∧
      P.Ran Q rest (ws ++ more) out := by
  cases h with
  | query hst hf hrest => exact ⟨_, _, _, hst, hf, hrest⟩

theorem Ran.of_exec {more : List ω} (h : P.Ran Q (.exec more rest) ws out) :
    P.Ran Q rest (ws ++ more) out := by
  obtain ⟨st, more', rest', -, hf, hrest⟩ := h.of_query
  cases hf
  exact hrest

theorem Ran.of_select {f : σ → Except ε (Script σ ω ε)} (h : P.Ran Q (.select f) ws out) :
    ∃ st rest, Q st ∧ f (P.write st ws) = .ok rest ∧ P.Ran Q rest ws out := by
  obtain ⟨st, more, rest, hst, hf, hrest⟩ := h.of_query
  cases hv : f (P.write st ws) with
  | error e =>
    rw [hv] at hf
    cases hf
  | ok sc =>
    rw [hv] at hf
    cases hf
    rw [List.append_nil] at hrest
    exact ⟨st, _, hst, hv, hrest⟩

theorem InvSaw.initial {store : σ} (h : I store []) :
    P.InvSaw K I (State.initial store : State σ κ ω ε ℓ) :=
  ⟨h, fun _ _ hc => by cases hc⟩

theorem InvSaw.release (h : P.InvSaw K I s) : P.InvSaw K I (s.release i) :=
  ⟨h.1, fun j o hj => h.2 j o (release_clients hj)⟩

theorem InvSaw.withHeld (h : P.InvSaw K I s) (held : List (ℕ × ℓ)) :
    P.InvSaw K I (s.withHeld held) := h

/-- Only the client that moved is new. -/
theorem InvSaw.update (h : P.InvSaw K I s) {o : Open σ κ ω ε}
    (hseen : K o.seen s.store s.committed)
    (ho : P.OpenSaw (fun st => K st s.store s.committed) o) {held : List (ℕ × ℓ)} :
    P.InvSaw K I { s with clients := Function.update s.clients i (some o), held := held } := by
  refine ⟨h.1, fun j o' hj => ?_⟩
  simp only [Function.update_apply] at hj
  split at hj
  · cases hj
    exact ⟨hseen, ho⟩
  · exact h.2 j o' hj

/-- A commit ties what the others have read to the new store. -/
theorem InvSaw.commit (h : P.InvSaw K I s) {st : σ} {hs : List (κ × List ω)} (hI : I st hs)
    (hK : ∀ seen, K seen s.store s.committed → K seen st hs) :
    P.InvSaw K I { s.release i with store := st, committed := hs } := by
  refine ⟨hI, fun j o hj => ?_⟩
  obtain ⟨hseen, ho⟩ := h.2 j o (release_clients hj)
  refine ⟨hK _ hseen, fun Q' hQ' out hran => ?_⟩
  exact ho Q' (fun st' hst' => hQ' st' (hK st' hst')) out hran

variable [DecidableEq ℓ]

theorem step_saw (hK : ∀ st hs, I st hs → K st st hs) {a : Action κ} (h : P.InvSaw K I s)
    (ha : ∀ i, a ≠ .commit i) (ht : P.step s a = some t) : P.InvSaw K I t := by
  cases a with
  | select i call =>
    simp only [step] at ht
    split at ht
    · cases ht
    split at ht
    · cases ht
      exact h
    · rename_i script hbody
      cases ht
      exact h.update (hK _ _ h.1) fun Q' _ out hran => ⟨script, hbody, hran⟩
  | next i =>
    simp only [step] at ht
    split at ht
    · cases ht
    · cases ht
    · rename_i call seen answer pending hc
      split at ht
      · cases ht
        exact h.release
      · rename_i more rest hanswer
        cases ht
        obtain ⟨hseen, ho⟩ := h.2 i _ hc
        refine h.update (o := ⟨call, seen, rest, pending ++ more⟩) hseen fun Q' hQ' out hran => ?_
        exact ho Q' hQ' out (.query (hQ' _ (hK _ _ h.1)) hanswer hran)
  | commit i => exact absurd rfl (ha i)
  | fail i =>
    simp only [step] at ht
    split at ht
    · cases ht
    · cases ht
      exact h.release

/-- What a commit does, and what the transaction had read. -/
theorem stepWhere_commit_saw (h : P.InvSaw K I s)
    (ht : P.stepWhere accepts s (.commit i) = some t) :
    ∃ o, s.clients i = some o ∧ K o.seen s.store s.committed ∧
      P.Finished (fun v => K v s.store s.committed) o.call o.seen o.pending ∧
      (accepts s.store o.pending = true ∧ t = { s.release i with
          store := P.write s.store o.pending
          committed := s.committed ++ [(o.call, o.pending)] } ∨
        accepts s.store o.pending = false ∧ t = s.release i) := by
  simp only [stepWhere, Option.map_eq_some_iff] at ht
  obtain ⟨u, hu, rfl⟩ := ht
  simp only [step] at hu
  split at hu
  · cases hu
  · cases hu
  · rename_i call seen pending hc
    cases hu
    obtain ⟨hseen, ho⟩ := h.2 i _ hc
    refine ⟨_, hc, hseen, ho _ (fun _ hst => hst) _ .done, ?_⟩
    rw [hc, Option.any_some]
    cases accepts s.store pending with
    | true => exact .inl ⟨rfl, rfl⟩
    | false => exact .inr ⟨rfl, rfl⟩

section Rules

variable {G : σ → List (κ × List ω) → Prop} {C : σ → List (κ × List ω) → Open σ κ ω ε → Prop}

theorem stepWhere_invSaw (hK : ∀ st hs, I st hs → K st st hs) (hkeep : P.SawKeeps accepts K I C)
    {a : Action κ} (h : P.InvSaw K I s) (hC : AcceptedMeets accepts C s a)
    (ht : P.stepWhere accepts s a = some t) : P.InvSaw K I t := by
  cases a with
  | select i call => exact step_saw (a := .select i call) hK h (by simp) ht
  | next i => exact step_saw (a := .next i) hK h (by simp) ht
  | fail i => exact step_saw (a := .fail i) hK h (by simp) ht
  | commit i =>
    obtain ⟨o, hc, hseen, ho, ⟨hacc, rfl⟩ | ⟨-, rfl⟩⟩ := stepWhere_commit_saw h ht
    · obtain ⟨hI, hk⟩ := hkeep _ _ o h.1 hseen ho hacc (hC o hc hacc)
      exact h.commit hI hk
    · exact h.release

/-- **One commit decides**, under row locks and with what every statement read. -/
theorem everyState_iff_commits_saw (hK : ∀ st hs, I st hs → K st st hs)
    (hG : ∀ st hs, I st hs → G st hs) (hkeep : P.SawKeeps accepts K I C)
    (hbad : ∀ st hs (o : Open σ κ ω ε), I st hs → K o.seen st hs →
      P.Finished (fun v => K v st hs) o.call o.seen o.pending → accepts st o.pending = true →
      ¬ C st hs o → ¬ G (P.write st o.pending) (hs ++ [(o.call, o.pending)]))
    {store : σ} (h0 : I store []) (as : List (Action κ)) :
    (P.systemLocking rows accepts).EveryState (fun s => G s.store s.committed)
        (State.initial store) as ↔
      (P.systemLocking rows accepts).EveryStep (AcceptedMeets accepts C) (State.initial store)
        as := by
  refine System.everyState_iff_everyStep (S := P.systemLocking rows accepts)
    (I := P.InvSaw K I) (fun s h => hG _ _ h.1) (fun s a t h hC ht => ?_)
    (fun s a t h hC ht => ?_) (.initial h0)
  · obtain ⟨u, held, hu, rfl⟩ := stepLocking_stepWhere ht
    exact (stepWhere_invSaw hK hkeep h hC hu).withHeld held
  · obtain ⟨u, held, hu, rfl⟩ := stepLocking_stepWhere ht
    show ¬ G u.store u.committed
    cases a with
    | select i call => exact absurd trivial hC
    | next i => exact absurd trivial hC
    | fail i => exact absurd trivial hC
    | commit i =>
      obtain ⟨o, hc, hseen, ho, ⟨hacc, rfl⟩ | ⟨hacc, rfl⟩⟩ := stepWhere_commit_saw h hu
      · refine hbad _ _ o h.1 hseen ho hacc fun hmeets => hC fun o' hc' _ => ?_
        rw [hc] at hc'
        cases hc'
        exact hmeets
      · refine absurd (fun o' hc' hacc' => ?_) hC
        rw [hc] at hc'
        cases hc'
        rw [hacc] at hacc'
        cases hacc'

end Rules

end Protocol

end Sql
