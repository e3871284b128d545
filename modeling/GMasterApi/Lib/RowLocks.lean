import GMasterApi.Lib.Guarded

/-!
# Row locks of the writing statements

An `UPDATE` or an `INSERT` locks the rows that it writes until its transaction
ends, and waits while another transaction holds one of them.  A statement that
had to wait reads the store as it is when it goes on.

`rows w` are the rows that the write `w` locks.  The locks only take steps away:
what a locking system does, the system without the locks does too
(`stepLocking_stepWhere`), so that the rules for commits carry over.
-/

namespace Sql

open Transition

variable {σ κ ω ε ℓ : Type}

/-- The state with other locks. -/
def State.withHeld (s : State σ κ ω ε ℓ) (held : List (ℕ × ℓ)) : State σ κ ω ε ℓ :=
  { s with held := held }

/-- Another client holds a row that the writes `ws` of client `i` lock. -/
def State.waits [DecidableEq ℓ] (rows : ω → List ℓ) (s : State σ κ ω ε ℓ) (i : ℕ) (ws : List ω) :
    Bool :=
  (ws.flatMap rows).any fun l => s.held.any fun h => h.2 = l ∧ h.1 ≠ i

namespace Protocol

variable {P : Protocol σ κ ω ε ℓ} {rows : ω → List ℓ} {accepts : σ → List ω → Bool}
  {I : σ → List (κ × List ω) → Prop} {K : σ → σ → List (κ × List ω) → Prop}
  {s t : State σ κ ω ε ℓ} {i : ℕ}

section Step

variable (P)

/-- The writes of the next statement of client `i`. -/
def nextWrites (s : State σ κ ω ε ℓ) (i : ℕ) : List ω :=
  match s.clients i with
  | some ⟨_, _, .query answer, pending⟩ =>
    match answer (P.write s.store pending) with
    | .ok (ws, _) => ws
    | .error _ => []
  | _ => []

variable [DecidableEq ℓ]

def stepLocking (rows : ω → List ℓ) (accepts : σ → List ω → Bool) (s : State σ κ ω ε ℓ) :
    Action κ → Option (State σ κ ω ε ℓ)
  | .next i =>
    let ws := P.nextWrites s i
    if s.waits rows i ws then none
    else (P.step s (.next i)).map fun t =>
      t.withHeld ((ws.flatMap rows).map (fun l => (i, l)) ++ t.held)
  | a => P.stepWhere accepts s a

def systemLocking (rows : ω → List ℓ) (accepts : σ → List ω → Bool) :
    System (State σ κ ω ε ℓ) (Action κ) :=
  ⟨P.stepLocking rows accepts⟩

end Step

theorem InvWhere.withHeld (h : P.InvWhere K I s) (held : List (ℕ × ℓ)) :
    P.InvWhere K I (s.withHeld held) := h

variable [DecidableEq ℓ]

/-- A step under row locks is a step without them, but for the locks. -/
theorem stepLocking_stepWhere {a : Action κ} (ht : P.stepLocking rows accepts s a = some t) :
    ∃ u held, P.stepWhere accepts s a = some u ∧ t = u.withHeld held := by
  cases a with
  | next i =>
    simp only [stepLocking] at ht
    split at ht
    · cases ht
    · obtain ⟨u, hu, rfl⟩ := Option.map_eq_some_iff.mp ht
      exact ⟨u, _, hu, rfl⟩
  | select i call => exact ⟨t, t.held, ht, rfl⟩
  | commit i => exact ⟨t, t.held, ht, rfl⟩
  | fail i => exact ⟨t, t.held, ht, rfl⟩

section Rules

variable {G : σ → List (κ × List ω) → Prop} {C : σ → List (κ × List ω) → Open σ κ ω ε → Prop}

theorem stepLocking_inv (hK : ∀ st hs, I st hs → K st st hs) (hkeep : P.CommitKeeps accepts K I C)
    {a : Action κ} (h : P.InvWhere K I s) (hC : AcceptedMeets accepts C s a)
    (ht : P.stepLocking rows accepts s a = some t) : P.InvWhere K I t := by
  obtain ⟨u, held, hu, rfl⟩ := stepLocking_stepWhere ht
  exact (stepWhere_inv hK hkeep h hC hu).withHeld held

/-- **One commit decides**, under row locks. -/
theorem everyState_iff_commits_locking (hK : ∀ st hs, I st hs → K st st hs)
    (hG : ∀ st hs, I st hs → G st hs) (hkeep : P.CommitKeeps accepts K I C)
    (hbad : ∀ st hs (o : Open σ κ ω ε), I st hs → K o.seen st hs →
      P.Outcome o.call o.seen o.pending → accepts st o.pending = true → ¬ C st hs o →
      ¬ G (P.write st o.pending) (hs ++ [(o.call, o.pending)]))
    {store : σ} (h0 : I store []) (as : List (Action κ)) :
    (P.systemLocking rows accepts).EveryState (fun s => G s.store s.committed)
        (State.initial store) as ↔
      (P.systemLocking rows accepts).EveryStep (AcceptedMeets accepts C) (State.initial store)
        as := by
  refine System.everyState_iff_everyStep (S := P.systemLocking rows accepts)
    (I := P.InvWhere K I) (fun s h => hG _ _ h.1.1)
    (fun s a t h hC ht => stepLocking_inv hK hkeep h hC ht) (fun s a t h hC ht => ?_) (.initial h0)
  obtain ⟨u, held, hu, rfl⟩ := stepLocking_stepWhere ht
  show ¬ G u.store u.committed
  exact stepWhere_bad hbad h hC hu

end Rules

end Protocol

end Sql
