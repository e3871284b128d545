import GMasterApi.Lib.Transition
import Mathlib.Algebra.BigOperators.Group.List.Basic
import Mathlib.Algebra.Ring.Int.Defs

/-!
# Processes that share a store

Any number of processes run over one store.  A process that is scheduled makes one
atomic access; what it then goes on with is a list of processes, so it may end,
continue, or leave others to run beside it.  An access may report events, which the
log keeps in order.

`everyState_of_moves` is the invariant rule where every access meets a condition, and
`everyState_of_next` the same for what is said of the store and the log alone.
-/

namespace Processes

open Transition

variable {ε π σ ω : Type}

/-- What one access leaves: the store, the events, and the processes that go on. -/
structure Effect (π σ ω : Type) where
  store : σ
  events : List ω
  procs : List π

structure State (π σ ω : Type) where
  store : σ
  procs : List π
  log : List ω

/-- A process starts, or the one at index `k` moves; `env` is what its environment answers. -/
inductive Action (ε π : Type)
  | start (p : π)
  | next (k : ℕ) (env : ε)

def State.initial (store : σ) : State π σ ω := ⟨store, [], []⟩

/-- The state after the process at index `k` has had `effect`. -/
def State.after (s : State π σ ω) (k : ℕ) (effect : Effect π σ ω) : State π σ ω :=
  ⟨effect.store, s.procs.eraseIdx k ++ effect.procs, s.log ++ effect.events⟩

variable (starts : π → Bool) (next : ε → π → σ → Effect π σ ω)

def step (s : State π σ ω) : Action ε π → Option (State π σ ω)
  | .start p => if starts p then some { s with procs := s.procs ++ [p] } else none
  | .next k env => (s.procs[k]?).map fun p => s.after k (next env p s.store)

def system : System (State π σ ω) (Action ε π) := ⟨step starts next⟩

/-- The process that moves meets `C`. -/
def NextMeets (C : State π σ ω → ε → π → Prop) (s : State π σ ω) : Action ε π → Prop
  | .start _ => True
  | .next k env => ∀ p, s.procs[k]? = some p → C s env p

instance {C : State π σ ω → ε → π → Prop} [∀ s env p, Decidable (C s env p)]
    (s : State π σ ω) : ∀ a : Action ε π, Decidable (NextMeets C s a)
  | .start _ => .isTrue trivial
  | .next k env =>
    match h : s.procs[k]? with
    | none => .isTrue fun p hp => absurd (h.symm.trans hp) (Option.some_ne_none p).symm
    | some p => decidable_of_iff (C s env p)
        ⟨fun hc _ hq => Option.some.inj (h.symm.trans hq) ▸ hc, fun hall => hall p h⟩

variable {starts next} {s t : State π σ ω}

theorem step_start {p : π} (h : step starts next s (.start p) = some t) :
    starts p = true ∧ t = { s with procs := s.procs ++ [p] } := by
  simp only [step] at h
  split at h
  · rename_i hp
    cases h
    exact ⟨hp, rfl⟩
  · cases h

theorem step_next {k : ℕ} {env : ε} (h : step starts next s (.next k env) = some t) :
    ∃ p, s.procs[k]? = some p ∧ t = s.after k (next env p s.store) := by
  obtain ⟨p, hp, ht⟩ := Option.map_eq_some_iff.mp h
  exact ⟨p, hp, ht.symm⟩

/-- What a start keeps, and what a move keeps that meets `C`, every such step keeps. -/
theorem keeps_of_moves {I : State π σ ω → Prop} {C : State π σ ω → ε → π → Prop}
    (hstart : ∀ s p, I s → starts p = true → I { s with procs := s.procs ++ [p] })
    (hnext : ∀ s k env p, I s → s.procs[k]? = some p → C s env p →
      I (s.after k (next env p s.store)))
    (s : State π σ ω) (a : Action ε π) (t : State π σ ω) (h : I s) (hc : NextMeets C s a)
    (ht : step starts next s a = some t) : I t := by
  cases a with
  | start p =>
    obtain ⟨hp, rfl⟩ := step_start ht
    exact hstart s p h hp
  | next k env =>
    obtain ⟨p, hp, rfl⟩ := step_next ht
    exact hnext s k env p h hp (hc p hp)

/-- **Invariant rule**: what a start keeps, and what a move keeps that meets `C`. -/
theorem everyState_of_moves {I : State π σ ω → Prop} {C : State π σ ω → ε → π → Prop}
    (hstart : ∀ s p, I s → starts p = true → I { s with procs := s.procs ++ [p] })
    (hnext : ∀ s k env p, I s → s.procs[k]? = some p → C s env p →
      I (s.after k (next env p s.store)))
    (h0 : I s) {as : List (Action ε π)}
    (hC : (system starts next).EveryStep (NextMeets C) s as) :
    (system starts next).EveryState I s as :=
  System.everyState_of_everyStep (keeps_of_moves hstart hnext) h0 hC

/-- The invariant rule for the store and the log. -/
theorem everyState_of_next {I : σ → List ω → Prop} {C : State π σ ω → ε → π → Prop}
    (hkeep : ∀ s env p, I s.store s.log → C s env p →
      I (next env p s.store).store (s.log ++ (next env p s.store).events))
    {store : σ} (h0 : I store []) {as : List (Action ε π)}
    (hC : (system starts next).EveryStep (NextMeets C) (State.initial store) as) :
    (system starts next).EveryState (fun s => I s.store s.log) (State.initial store) as :=
  everyState_of_moves (I := fun s : State π σ ω => I s.store s.log) (fun _ _ h _ => h)
    (fun s _ env p h _ hc => hkeep s env p h hc) h0 hC

/-! ## What is in flight -/

variable {k : ℕ} {p q : π} {e : Effect π σ ω}

theorem mem_of_mem_after (h : q ∈ (s.after k e).procs) : q ∈ s.procs ∨ q ∈ e.procs := by
  rcases List.mem_append.mp h with h | h
  · exact .inl (List.mem_of_mem_eraseIdx h)
  · exact .inr h

/-- The others stay in flight. -/
theorem mem_after (hp : s.procs[k]? = some p) (hq : q ∈ s.procs) (hne : q ≠ p) :
    q ∈ (s.after k e).procs := by
  obtain ⟨hk, rfl⟩ := List.getElem?_eq_some_iff.mp hp
  rcases List.mem_cons.mp ((List.getElem_cons_eraseIdx_perm hk).mem_iff.mpr hq) with h | h
  · exact absurd h hne
  · exact List.mem_append_left _ h

/-- What a sum over the processes becomes when one of them moves. -/
theorem sum_after (f : π → ℤ) (hp : s.procs[k]? = some p) :
    ((s.after k e).procs.map f).sum = (s.procs.map f).sum - f p + (e.procs.map f).sum := by
  obtain ⟨hk, rfl⟩ := List.getElem?_eq_some_iff.mp hp
  have hsum : (s.procs.map f).sum = f s.procs[k] + ((s.procs.eraseIdx k).map f).sum := by
    rw [← ((List.getElem_cons_eraseIdx_perm hk).map f).sum_eq, List.map_cons, List.sum_cons]
  show (((s.procs.eraseIdx k) ++ e.procs).map f).sum = _
  rw [List.map_append, List.sum_append, hsum]
  omega

end Processes
