import GMasterApi.Lib.Transition

/-!
# Transactions interleaved at statement level

Clients of one database, in any number of processes, each run a call inside a
transaction.  Statements are atomic; the writes of a transaction are pending
until its commit, which makes them visible; a failed statement or commit rolls
the transaction back.  A relative write (`x = x + n`) stays relative: it is
applied to the store as it is at the commit, since its row lock keeps the row
from moving between the statement and the commit.

A call is given by what it does after its first `SELECT` (`Protocol.body`): a
`Script` of statements, where each may depend on what the earlier ones read.
Nothing serialises two calls except a lock both of them take (`Protocol.locks`).

The rules at the end reduce a property of all interleavings to one commit: the
transaction that commits did read some earlier store (`Open.seen`), and its
writes are an `Outcome` of that reading, but the store it writes to is the
current one.
-/

namespace Sql

open Transition

/-- The statements of a transaction.  Each sees the store with the transaction's
own pending writes, and either fails or leaves more writes pending and goes on. -/
inductive Script (σ ω ε : Type)
  | done
  | query (answer : σ → Except ε (List ω × Script σ ω ε))

/-- A statement that writes `ws` whatever it sees. -/
def Script.exec {σ ω ε : Type} (ws : List ω) (rest : Script σ ω ε) : Script σ ω ε :=
  .query fun _ => .ok (ws, rest)

/-- A `SELECT`; what follows depends on what it saw. -/
def Script.select {σ ω ε : Type} (rest : σ → Except ε (Script σ ω ε)) : Script σ ω ε :=
  .query fun v => (rest v).map fun sc => ([], sc)

mutual

/-- The store after a transaction that no other writer interleaves with. -/
def Script.run {σ ω ε : Type} (apply : σ → ω → σ) : Script σ ω ε → σ → Except ε σ
  | .done, s => .ok s
  | .query answer, s => runAnswer apply (answer s) s
  termination_by structural script => script

def Script.runAnswer {σ ω ε : Type} (apply : σ → ω → σ) :
    Except ε (List ω × Script σ ω ε) → σ → Except ε σ
  | .error e, _ => .error e
  | .ok next, s => runNext apply next s
  termination_by structural answer => answer

def Script.runNext {σ ω ε : Type} (apply : σ → ω → σ) : List ω × Script σ ω ε → σ → Except ε σ
  | (ws, rest), s => rest.run apply (ws.foldl apply s)
  termination_by structural next => next

end

@[simp] theorem Script.run_exec {σ ω ε : Type} (apply : σ → ω → σ) (ws : List ω)
    (rest : Script σ ω ε) (s : σ) :
    (Script.exec ws rest).run apply s = rest.run apply (ws.foldl apply s) := rfl

theorem Script.run_select {σ ω ε : Type} (apply : σ → ω → σ) {rest : σ → Except ε (Script σ ω ε)}
    {s : σ} {next : Script σ ω ε} (h : rest s = .ok next) :
    (Script.select rest).run apply s = next.run apply s := by
  show Script.runAnswer apply ((rest s).map fun sc => ([], sc)) s = _
  rw [h]
  rfl

/-- Calls that each run in one transaction.  `body call seen` is the rest of the
transaction when its first `SELECT` saw `seen`; `locks call` is what the call
holds from that `SELECT` to its end. -/
structure Protocol (σ κ ω ε ℓ : Type) where
  body : κ → σ → Except ε (Script σ ω ε)
  apply : σ → ω → σ
  locks : κ → List ℓ

/-- An open transaction: its call, the store its `SELECT` saw, the statements it
has still to issue and the writes it has left pending. -/
structure Open (σ κ ω ε : Type) where
  call : κ
  seen : σ
  todo : Script σ ω ε
  pending : List ω

/-- The committed store, the clients' open transactions, the locks held and the
calls committed so far with the writes they made. -/
structure State (σ κ ω ε ℓ : Type) where
  store : σ
  clients : ℕ → Option (Open σ κ ω ε)
  held : List (ℕ × ℓ)
  committed : List (κ × List ω)

/-- What the scheduler may do: let a client open a transaction for a call and
run its `SELECT`, run its next statement, commit it, or fail it. -/
inductive Action (κ : Type)
  | select (client : ℕ) (call : κ)
  | next (client : ℕ)
  | commit (client : ℕ)
  | fail (client : ℕ)

variable {σ κ ω ε ℓ : Type}

/-- The state with the transaction of client `i` gone and its locks released. -/
def State.release (s : State σ κ ω ε ℓ) (i : ℕ) : State σ κ ω ε ℓ :=
  { s with
    clients := Function.update s.clients i none
    held := s.held.filter fun h => h.1 ≠ i }

/-- No transaction is open and nothing has been committed yet. -/
def State.initial (store : σ) : State σ κ ω ε ℓ := ⟨store, fun _ => none, [], []⟩

/-- Every commit meets `C`, a condition on the store and history it finds and on
the transaction itself. -/
def CommitMeets (C : σ → List (κ × List ω) → Open σ κ ω ε → Prop) (s : State σ κ ω ε ℓ) :
    Action κ → Prop
  | .commit i => ∀ t, s.clients i = some t → C s.store s.committed t
  | _ => True

/-- The script `sc` may leave the writes `ws`: each statement contributed what it
answered on some store. -/
inductive Answers : Script σ ω ε → List ω → Prop
  | done : Answers .done []
  | query {f : σ → Except ε (List ω × Script σ ω ε)} {v : σ} {out ws : List ω}
    {rest : Script σ ω ε} : f v = .ok (out, rest) → Answers rest ws → Answers (.query f) (out ++ ws)

theorem Answers.of_done {ws : List ω} (h : Answers (.done : Script σ ω ε) ws) : ws = [] := by
  rcases h with _ | _
  rfl

theorem Answers.of_query {f : σ → Except ε (List ω × Script σ ω ε)} {ws : List ω}
    (h : Answers (.query f) ws) :
    ∃ v out rest ws', f v = .ok (out, rest) ∧ Answers rest ws' ∧ ws = out ++ ws' := by
  rcases h with _ | ⟨hv, hs⟩
  exact ⟨_, _, _, _, hv, hs, rfl⟩

theorem Answers.of_exec {out ws : List ω} {rest : Script σ ω ε}
    (h : Answers (.exec out rest) ws) : ∃ ws', Answers rest ws' ∧ ws = out ++ ws' := by
  obtain ⟨v, out', rest', ws', hv, hs, rfl⟩ := h.of_query
  cases hv
  exact ⟨ws', hs, rfl⟩

theorem Answers.of_select {f : σ → Except ε (Script σ ω ε)} {ws : List ω}
    (h : Answers (.select f) ws) : ∃ v rest, f v = .ok rest ∧ Answers rest ws := by
  obtain ⟨v, out, rest, ws', hv, hs, rfl⟩ := h.of_query
  cases hf : f v with
  | error e => rw [hf] at hv; cases hv
  | ok sc =>
    rw [hf] at hv
    cases hv
    exact ⟨v, _, hf, hs⟩

namespace Protocol

variable (P : Protocol σ κ ω ε ℓ)

/-- The store after a list of writes. -/
def write (store : σ) (ws : List ω) : σ := ws.foldl P.apply store

/-- `call` has to wait: somebody holds a lock that it takes. -/
def blocked [DecidableEq ℓ] (s : State σ κ ω ε ℓ) (call : κ) : Bool :=
  (P.locks call).any fun l => s.held.any fun h => h.2 = l

def step [DecidableEq ℓ] (s : State σ κ ω ε ℓ) : Action κ → Option (State σ κ ω ε ℓ)
  | .select i call =>
    if (s.clients i).isSome || P.blocked s call then none
    else match P.body call s.store with
      | .error _ => some s
      | .ok script =>
        some { s with
          clients := Function.update s.clients i (some ⟨call, s.store, script, []⟩)
          held := (P.locks call).map (fun l => (i, l)) ++ s.held }
  | .next i =>
    match s.clients i with
    | none => none
    | some ⟨_, _, .done, _⟩ => none
    | some ⟨call, seen, .query answer, pending⟩ =>
      match answer (P.write s.store pending) with
      | .error _ => some (s.release i)
      | .ok (ws, rest) =>
        some { s with
          clients := Function.update s.clients i (some ⟨call, seen, rest, pending ++ ws⟩) }
  | .commit i =>
    match s.clients i with
    | none => none
    | some ⟨_, _, .query _, _⟩ => none
    | some ⟨call, _, .done, pending⟩ =>
      some { s.release i with
        store := P.write s.store pending
        committed := s.committed ++ [(call, pending)] }
  | .fail i =>
    match s.clients i with
    | none => none
    | some _ => some (s.release i)

def system [DecidableEq ℓ] : System (State σ κ ω ε ℓ) (Action κ) := ⟨P.step⟩

/-- `ws` may be the writes of a transaction for `call` whose `SELECT` saw `seen`. -/
def Outcome (call : κ) (seen : σ) (ws : List ω) : Prop :=
  ∃ script, P.body call seen = .ok script ∧ Answers script ws

/-- Whatever an open transaction has still to write completes its pending writes
to an outcome of its call. -/
def OpenOk (J : σ → Prop) (t : Open σ κ ω ε) : Prop :=
  J t.seen ∧ ∀ ws, Answers t.todo ws → P.Outcome t.call t.seen (t.pending ++ ws)

/-- The invariant of a whole state: every open transaction is in order, and `I`
holds of the store and the history. -/
def Inv (J : σ → Prop) (I : σ → List (κ × List ω) → Prop) (s : State σ κ ω ε ℓ) : Prop :=
  I s.store s.committed ∧ ∀ i t, s.clients i = some t → P.OpenOk J t

variable {P} {J : σ → Prop} {I : σ → List (κ × List ω) → Prop} {s t : State σ κ ω ε ℓ} {i : ℕ}

theorem OpenOk.outcome {o : Open σ κ ω ε} (h : P.OpenOk J o) (hdone : o.todo = .done) :
    P.Outcome o.call o.seen o.pending := by
  have ho := h.2 [] (hdone ▸ .done)
  rwa [List.append_nil] at ho

theorem Inv.initial {store : σ} (h : I store []) :
    P.Inv J I (State.initial store : State σ κ ω ε ℓ) :=
  ⟨h, fun _ _ hc => by cases hc⟩

theorem Inv.release (h : P.Inv J I s) : P.Inv J I (s.release i) := by
  refine ⟨h.1, fun j o hj => h.2 j o ?_⟩
  simp only [State.release, Function.update_apply] at hj
  split at hj
  · cases hj
  · exact hj

/-- Opening a transaction or moving it on keeps the invariant: only the client
that moved is new. -/
theorem Inv.update (h : P.Inv J I s) {o : Open σ κ ω ε} (ho : P.OpenOk J o) {held : List (ℕ × ℓ)} :
    P.Inv J I { s with clients := Function.update s.clients i (some o), held := held } := by
  refine ⟨h.1, fun j o' hj => ?_⟩
  simp only [Function.update_apply] at hj
  split at hj
  · cases hj; exact ho
  · exact h.2 j o' hj

variable [DecidableEq ℓ]

theorem step_select (h : P.Inv J I s) (hJ : ∀ st hs, I st hs → J st) {call : κ}
    (ht : P.step s (.select i call) = some t) : P.Inv J I t := by
  simp only [step] at ht
  split at ht
  · cases ht
  · split at ht
    · cases ht; exact h
    · rename_i script hb
      cases ht
      exact h.update ⟨hJ _ _ h.1, fun ws hw => ⟨script, hb, hw⟩⟩

theorem step_next (h : P.Inv J I s) (ht : P.step s (.next i) = some t) : P.Inv J I t := by
  simp only [step] at ht
  split at ht
  · cases ht
  · cases ht
  · rename_i call seen answer pending hc
    split at ht
    · cases ht; exact h.release
    · rename_i out rest hv
      cases ht
      obtain ⟨hs, ho⟩ := h.2 i _ hc
      refine h.update (o := ⟨call, seen, rest, pending ++ out⟩) ⟨hs, fun ws hw => ?_⟩
      rw [List.append_assoc]
      exact ho _ (.query hv hw)

theorem step_fail (h : P.Inv J I s) (ht : P.step s (.fail i) = some t) : P.Inv J I t := by
  simp only [step] at ht
  split at ht
  · cases ht
  · cases ht; exact h.release

/-- What a commit does. -/
theorem step_commit (h : P.Inv J I s) (ht : P.step s (.commit i) = some t) :
    ∃ o, s.clients i = some o ∧ J o.seen ∧ P.Outcome o.call o.seen o.pending ∧
      t = { s.release i with
        store := P.write s.store o.pending
        committed := s.committed ++ [(o.call, o.pending)] } := by
  simp only [step] at ht
  split at ht
  · cases ht
  · cases ht
  · rename_i call seen pending hc
    cases ht
    exact ⟨_, hc, (h.2 i _ hc).1, (h.2 i _ hc).outcome rfl, rfl⟩

section Rules

variable {G : σ → List (κ × List ω) → Prop} {C : σ → List (κ × List ω) → Open σ κ ω ε → Prop}

theorem step_inv (hJ : ∀ st hs, I st hs → J st)
    (hkeep : ∀ st hs (o : Open σ κ ω ε), I st hs → J o.seen → P.Outcome o.call o.seen o.pending → C st hs o →
      I (P.write st o.pending) (hs ++ [(o.call, o.pending)]))
    (a : Action κ) (h : P.Inv J I s) (hC : CommitMeets C s a) (ht : P.step s a = some t) :
    P.Inv J I t := by
  cases a with
  | select i call => exact step_select h hJ ht
  | next i => exact step_next h ht
  | fail i => exact step_fail h ht
  | commit i =>
    obtain ⟨o, hc, hs, ho, rfl⟩ := step_commit h ht
    exact ⟨hkeep _ _ o h.1 hs ho (hC o hc), h.release (i := i).2⟩

/-- **One commit decides.**  `G` holds in every state of an interleaving exactly
when every commit in it meets `C`, if some invariant `I` that implies `G` is kept
by a commit that meets `C`, and a commit that does not meet `C` leaves `G`. -/
theorem everyState_iff_commits (hJ : ∀ st hs, I st hs → J st) (hG : ∀ st hs, I st hs → G st hs)
    (hkeep : ∀ st hs (o : Open σ κ ω ε), I st hs → J o.seen → P.Outcome o.call o.seen o.pending → C st hs o →
      I (P.write st o.pending) (hs ++ [(o.call, o.pending)]))
    (hbad : ∀ st hs (o : Open σ κ ω ε), I st hs → J o.seen → P.Outcome o.call o.seen o.pending → ¬ C st hs o →
      ¬ G (P.write st o.pending) (hs ++ [(o.call, o.pending)]))
    {store : σ} (h0 : I store []) (as : List (Action κ)) :
    P.system.EveryState (fun s => G s.store s.committed) (State.initial store) as ↔
      P.system.EveryStep (CommitMeets C) (State.initial store) as := by
  refine System.everyState_iff_everyStep (S := P.system) (I := P.Inv J I)
    (fun s h => hG _ _ h.1) (fun s a t h hC ht => step_inv hJ hkeep a h hC ht)
    (fun s a t h hC ht => ?_) (.initial h0)
  cases a with
  | select i call => exact absurd trivial hC
  | next i => exact absurd trivial hC
  | fail i => exact absurd trivial hC
  | commit i =>
    obtain ⟨o, hc, hs, ho, rfl⟩ := step_commit h ht
    refine hbad _ _ o h.1 hs ho fun hmeets => hC fun o' hc' => ?_
    rw [hc] at hc'
    cases hc'
    exact hmeets

end Rules

end Protocol

end Sql
