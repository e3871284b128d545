import GMasterApi.Lib.GoString
import GMasterApi.Lib.Processes
import GMasterApi.Lib.Table

/-!
# GitHub accounts

A login looks for a user by the numeric id of the account, then by its login in the
same column, and creates one otherwise; a request of a user binds an account to it.
Each is a row of statements, between which those of others fall; what follows the
creation of a user saves rows that were read before.

`accounts_apart_iff` says in which interleavings no account comes to the user of
another one.
-/

namespace GitHubAccounts

open Processes Transition

/-! ## Users and accounts -/

structure User where
  id : ℕ
  githubId : String
  deleted : Bool
  deriving DecidableEq

abbrev Users := Table User User.id

/-- External accounts, with the numeric ids and the logins that GitHub reports of them. -/
structure Accounts (α : Type) where
  num : α → ℕ
  login : α → String
  num_injective : Function.Injective num
  login_injective : Function.Injective login
  login_ne : ∀ a, login a ≠ ""

variable {α : Type}

/-- `ProviderUserID`. -/
def Accounts.providerId (acc : Accounts α) (a : α) : String := (acc.num a).repr

/-- `IsGitHubIdAlreadyTaken`, which counts deleted users too. -/
def isGitHubIdAlreadyTaken (users : Users) (githubId : String) : Bool :=
  (users.rows.filter fun x => x.githubId = githubId).length = 1

/-- `FillUserByGitHubId`: the first user that is not deleted. -/
def fillUserByGitHubId (users : Users) (githubId : String) : Option User :=
  (users.select (fun x => !x.deleted && x.githubId = githubId) fun x y => x.id ≤ y.id).head?

/-- The users that are not deleted and carry the id. -/
def holders (users : Users) (githubId : String) : List ℕ :=
  (users.rows.filter fun x => !x.deleted && x.githubId = githubId).map User.id

/-- An update of the user `u`; `Save` reaches a deleted one as well, and restores it. -/
def write (users : Users) (u : ℕ) (saves : Bool) (githubId : String) : Users :=
  users.updateWhere (fun x => x.id = u && (saves || !x.deleted))
    (fun x => { x with githubId := githubId, deleted := false }) fun _ => rfl

def delete (users : Users) (u : ℕ) : Users :=
  users.updateWhere (fun x => x.id = u) (fun x => { x with deleted := true }) fun _ => rfl

/-! ## Requests, one statement at a time -/

inductive Proc (α : Type)
  /-- `findOrCreateOAuthUser`. -/
  | login (a : α)
  | fill (a : α)
  | legacy (a : α)
  | legacyFill (a : α)
  | migrate (a : α) (u : ℕ)
  | create (a : α)
  /-- `FinalizeOAuthUserCreation`, with the inviter. -/
  | finalize (u : ℕ) (inviter : Option ℕ)
  | finalizeWrite (u : ℕ) (githubId : String) (inviter : Option ℕ)
  | invite (inviter : ℕ)
  | inviteSave (u : ℕ) (githubId : String)
  /-- `handleOAuthBind` of a request of the user `u`. -/
  | bind (a : α) (u : ℕ)
  | bindLegacy (a : α) (u : ℕ)
  | bindWrite (a : α) (u : ℕ)
  | delete (u : ℕ)

/-- The id of a new user, whether a write succeeds, `RegisterEnabled`, and the user of the
invitation code. -/
structure Env where
  id : ℕ
  ok : Bool
  registerEnabled : Bool
  inviter : Option ℕ

/-- A user is created by a login or bound by a request; a login ends, at a user or none, when
the users `had` carry the id of the account. -/
inductive Event (α : Type)
  | created (u : ℕ) (a : α)
  | bound (u : ℕ) (a : α)
  | ended (a : α) (had : List ℕ) (user : Option ℕ)
  deriving DecidableEq

abbrev Moved (α : Type) := Effect (Proc α) Users (Event α)

variable (acc : Accounts α)

/-- No user has been found. -/
def notFound (env : Env) (a : α) (users : Users) : Moved α :=
  if env.registerEnabled then ⟨users, [], [.create a]⟩
  else ⟨users, [.ended a (holders users (acc.providerId a)) none], []⟩

/-- The transaction that creates a user, as it commits. -/
def createUser (env : Env) (a : α) (users : Users) : Moved α :=
  let had := holders users (acc.providerId a)
  match users.create ⟨env.id, acc.providerId a, false⟩, env.ok with
  | some users, true =>
    ⟨users, [.created env.id a, .ended a had (some env.id)], [.finalize env.id env.inviter]⟩
  | _, _ => ⟨users, [.ended a had none], []⟩

def invites : Option ℕ → List (Proc α)
  | some inviter => [.invite inviter]
  | none => []

/-- The user is there and not deleted. -/
def isLive (users : Users) (u : ℕ) : Bool := users.rows.any fun x => x.id = u && !x.deleted

def next (env : Env) (p : Proc α) (users : Users) : Moved α :=
  match p with
  | .login a =>
    ⟨users, [], [if isGitHubIdAlreadyTaken users (acc.providerId a) then .fill a else .legacy a]⟩
  | .fill a =>
    ⟨users, [.ended a (holders users (acc.providerId a))
      ((fillUserByGitHubId users (acc.providerId a)).map User.id)], []⟩
  | .legacy a =>
    if isGitHubIdAlreadyTaken users (acc.login a) then ⟨users, [], [.legacyFill a]⟩
    else notFound acc env a users
  | .legacyFill a =>
    match fillUserByGitHubId users (acc.login a) with
    | some x =>
      ⟨users, [.ended a (holders users (acc.providerId a)) (some x.id)], [.migrate a x.id]⟩
    | none => notFound acc env a users
  | .migrate a u =>
    ⟨if env.ok then write users u false (acc.providerId a) else users, [], []⟩
  | .create a => createUser acc env a users
  | .finalize u inviter =>
    match (users.find u).filter fun x => !x.deleted with
    | some x => ⟨users, [], [.finalizeWrite u x.githubId inviter]⟩
    | none => ⟨users, [], invites inviter⟩
  -- `Updates` leaves out what is empty
  | .finalizeWrite u githubId inviter =>
    ⟨if env.ok ∧ githubId ≠ "" then write users u false githubId else users, [], invites inviter⟩
  | .invite inviter =>
    match (users.find inviter).filter fun x => !x.deleted with
    | some x => ⟨users, [], [.inviteSave x.id x.githubId]⟩
    | none => ⟨users, [], []⟩
  | .inviteSave u githubId => ⟨if env.ok then write users u true githubId else users, [], []⟩
  | .bind a u =>
    ⟨users, [], if isGitHubIdAlreadyTaken users (acc.providerId a) then [] else [.bindLegacy a u]⟩
  | .bindLegacy a u =>
    ⟨users, [], if isGitHubIdAlreadyTaken users (acc.login a) then [] else [.bindWrite a u]⟩
  | .bindWrite a u =>
    if env.ok ∧ isLive users u then ⟨write users u false (acc.providerId a), [.bound u a], []⟩
    else ⟨users, [], []⟩
  | .delete u => ⟨GitHubAccounts.delete users u, [], []⟩

def starts : Proc α → Bool
  | .login _ | .bind _ _ | .delete _ => true
  | _ => false

abbrev Requests (α : Type) := State (Proc α) Users (Event α)

def requests : System (Requests α) (Action Env (Proc α)) := system starts (next acc)

/-- Users of whom none has a provider id. -/
structure Unbound where
  users : Users
  githubId : ∀ x ∈ users.rows, x.githubId = ""

/-! ## What is promised -/

/-- The user was created by the account, or bound by a request authenticated as it. -/
def Owns (log : List (Event α)) (u : ℕ) (a : α) : Prop :=
  Event.created u a ∈ log ∨ Event.bound u a ∈ log

/-- No two users that are not deleted carry the same provider id. -/
def Unique (users : Users) : Prop :=
  ∀ x ∈ users.rows, ∀ y ∈ users.rows, x.deleted = false → y.deleted = false →
    x.githubId ≠ "" → x.githubId = y.githubId → x = y

/-- **Accounts stay apart**: a login comes to a user of its account, and to the user that
carries its id if there is one; no two users carry the same id. -/
structure Apart (s : Requests α) : Prop where
  own : ∀ a had u, Event.ended a had (some u) ∈ s.log → Owns s.log u a
  unique : Unique s.store
  resolved : ∀ a had user, Event.ended a had user ∈ s.log → ∀ u ∈ had, user = some u

/-! ## Which moves keep the promise -/

/-- The update reaches no row, or no other user carries the id. -/
def Free (users : Users) (u : ℕ) (saves : Bool) (githubId : String) : Prop :=
  (∃ x ∈ users.rows, x.id = u ∧ (saves || !x.deleted) = true) → githubId ≠ "" →
    ∀ v ∈ holders users githubId, v = u

/-- A login that ends without a user finds none that carries its id. -/
def NotFoundSound (s : Requests α) (env : Env) (a : α) : Prop :=
  env.registerEnabled = false → holders s.store (acc.providerId a) = []

def Sound (s : Requests α) (env : Env) : Proc α → Prop
  | .legacy a =>
    isGitHubIdAlreadyTaken s.store (acc.login a) = false → NotFoundSound acc s env a
  | .legacyFill a =>
    (∀ x ∈ fillUserByGitHubId s.store (acc.login a),
      Owns s.log x.id a ∧ ∀ u ∈ holders s.store (acc.providerId a), u = x.id) ∧
    (fillUserByGitHubId s.store (acc.login a) = none → NotFoundSound acc s env a)
  | .create a => holders s.store (acc.providerId a) = []
  | .migrate a u => env.ok = true → Free s.store u false (acc.providerId a)
  | .bindWrite a u => env.ok = true → Free s.store u false (acc.providerId a)
  | .finalizeWrite u githubId _ => env.ok = true → Free s.store u false githubId
  | .inviteSave u githubId => env.ok = true → Free s.store u true githubId
  | _ => True

/-! ## Statements -/

variable {acc : Accounts α} {users : Users} {githubId : String} {u v : ℕ} {saves : Bool}
  {x y : User}

theorem mem_holders : u ∈ holders users githubId ↔
    ∃ x ∈ users.rows, x.deleted = false ∧ x.githubId = githubId ∧ x.id = u := by
  unfold holders
  rw [List.mem_map]
  constructor
  · rintro ⟨x, hx, rfl⟩
    rw [List.mem_filter, Bool.and_eq_true, Bool.not_eq_true', decide_eq_true_eq] at hx
    exact ⟨x, hx.1, hx.2.1, hx.2.2, rfl⟩
  · rintro ⟨x, hx, hlive, hid, rfl⟩
    refine ⟨x, ?_, rfl⟩
    rw [List.mem_filter, Bool.and_eq_true, Bool.not_eq_true', decide_eq_true_eq]
    exact ⟨hx, hlive, hid⟩

theorem fill_some (h : fillUserByGitHubId users githubId = some x) :
    x ∈ users.rows ∧ x.deleted = false ∧ x.githubId = githubId := by
  have hmem := Table.mem_select.mp (List.mem_of_head? h)
  rw [Bool.and_eq_true, Bool.not_eq_true', decide_eq_true_eq] at hmem
  exact ⟨hmem.1, hmem.2.1, hmem.2.2⟩

theorem fill_none (h : fillUserByGitHubId users githubId = none) : holders users githubId = [] := by
  rw [List.eq_nil_iff_forall_not_mem]
  intro u hu
  obtain ⟨x, hx, hlive, hid, -⟩ := mem_holders.mp hu
  have hmem : x ∈ users.select (fun x => !x.deleted && x.githubId = githubId)
      fun x y => x.id ≤ y.id := by
    rw [Table.mem_select, Bool.and_eq_true, Bool.not_eq_true', decide_eq_true_eq]
    exact ⟨hx, hlive, hid⟩
  rw [List.head?_eq_none_iff.mp h] at hmem
  cases hmem

theorem mem_write : y ∈ (write users u saves githubId).rows ↔
    (∃ x ∈ users.rows, x.id = u ∧ (saves || !x.deleted) = true ∧
      y = { x with githubId := githubId, deleted := false }) ∨
    (y ∈ users.rows ∧ ¬ (y.id = u ∧ (saves || !y.deleted) = true)) := by
  unfold write
  rw [Table.mem_updateWhere]
  constructor
  · rintro ⟨x, hx, rfl⟩
    split
    · rename_i h
      rw [Bool.and_eq_true, decide_eq_true_eq] at h
      exact .inl ⟨x, hx, h.1, h.2, rfl⟩
    · rename_i h
      rw [Bool.and_eq_true, decide_eq_true_eq] at h
      exact .inr ⟨hx, h⟩
  · rintro (⟨x, hx, hid, hreached, rfl⟩ | ⟨hy, hnot⟩)
    · refine ⟨x, hx, if_pos ?_⟩
      rw [Bool.and_eq_true, decide_eq_true_eq]
      exact ⟨hid, hreached⟩
    · refine ⟨y, hy, if_neg ?_⟩
      rw [Bool.and_eq_true, decide_eq_true_eq]
      exact hnot

/-- An update keeps the ids apart exactly if it is free. -/
theorem unique_write_iff (h : Unique users) :
    Unique (write users u saves githubId) ↔ Free users u saves githubId := by
  constructor
  · rintro hunique ⟨x, hx, hid, hreached⟩ hne v hv
    obtain ⟨y, hy, hlive, hgid, rfl⟩ := mem_holders.mp hv
    by_contra hyu
    have hxw : { x with githubId := githubId, deleted := false } ∈
        (write users u saves githubId).rows :=
      mem_write.mpr (.inl ⟨x, hx, hid, hreached, rfl⟩)
    have hyw : y ∈ (write users u saves githubId).rows :=
      mem_write.mpr (.inr ⟨hy, fun hand => hyu hand.1⟩)
    have heq := hunique _ hxw y hyw rfl hlive hne hgid.symm
    exact hyu (heq ▸ hid)
  · intro hfree
    -- a row that has been written, and one that has not
    have hmixed : ∀ x ∈ users.rows, x.id = u → (saves || !x.deleted) = true → githubId ≠ "" →
        ∀ y ∈ users.rows, ¬ (y.id = u ∧ (saves || !y.deleted) = true) → y.deleted = false →
          y.githubId = githubId → False := by
      intro x hx hid hreached hne y hy hnot hlive hgid
      have hyu : y.id = u := hfree ⟨x, hx, hid, hreached⟩ hne y.id
        (mem_holders.mpr ⟨y, hy, hlive, hgid, rfl⟩)
      refine hnot ⟨hyu, ?_⟩
      rw [hlive]
      simp
    intro x' hx' y' hy' hlx hly hne hgid
    rcases mem_write.mp hx' with ⟨x, hx, hid, hreached, rfl⟩ | ⟨hx, hnotx⟩
    · rcases mem_write.mp hy' with ⟨y, hy, hid', -, rfl⟩ | ⟨hy, hnoty⟩
      · rw [Table.eq_of_mem hx hy (hid.trans hid'.symm)]
      · exact (hmixed x hx hid hreached hne y' hy hnoty hly hgid.symm).elim
    · rcases mem_write.mp hy' with ⟨y, hy, hid, hreached, rfl⟩ | ⟨hy, hnoty⟩
      · exact (hmixed y hy hid hreached (fun hempty => hne (hgid.trans hempty)) x' hx hnotx hlx
          hgid).elim
      · exact h x' hx y' hy hlx hly hne hgid

theorem providerId_injective : Function.Injective acc.providerId := by
  intro a b h
  refine acc.num_injective ?_
  have hnum := GoString.decimal_repr (acc.num a)
  rw [show (acc.num a).repr = (acc.num b).repr from h, GoString.decimal_repr] at hnum
  exact (Int.natCast_inj.mp (Option.some.inj hnum)).symm

theorem providerId_ne (a : α) : acc.providerId a ≠ "" := by
  intro h
  have hnum := GoString.decimal_repr (acc.num a)
  rw [show (acc.num a).repr = "" from h] at hnum
  cases hnum

/-! ## The invariant -/

/-- The user was created or bound by the account that has the id. -/
def Owned (acc : Accounts α) (log : List (Event α)) (u : ℕ) (githubId : String) : Prop :=
  ∃ a, acc.providerId a = githubId ∧ Owns log u a

def Proc.Ok (acc : Accounts α) (log : List (Event α)) : Proc α → Prop
  | .migrate a u => Owns log u a
  | .finalizeWrite u githubId _ => githubId ≠ "" → Owned acc log u githubId
  | .inviteSave u githubId => githubId ≠ "" → Owned acc log u githubId
  | _ => True

structure Invariant (acc : Accounts α) (s : Requests α) : Prop where
  apart : Apart s
  carried : ∀ x ∈ s.store.rows, x.githubId ≠ "" → Owned acc s.log x.id x.githubId
  procs : ∀ p ∈ s.procs, p.Ok acc s.log

/-- What a move has to bring about to keep the invariant. -/
structure Keeps (acc : Accounts α) (s : Requests α) (e : Moved α) : Prop where
  own : ∀ a had u, Event.ended a had (some u) ∈ e.events → Owns (s.log ++ e.events) u a
  unique : Unique e.store
  resolved : ∀ a had user, Event.ended a had user ∈ e.events → ∀ u ∈ had, user = some u
  carried : ∀ x ∈ e.store.rows, x.githubId ≠ "" → Owned acc (s.log ++ e.events) x.id x.githubId
  procs : ∀ q ∈ e.procs, q.Ok acc (s.log ++ e.events)

variable {s : Requests α} {k : ℕ} {p : Proc α} {e : Moved α} {env : Env} {a : α}
  {log events : List (Event α)}

theorem Owns.append (h : Owns log u a) (events : List (Event α)) : Owns (log ++ events) u a :=
  h.imp (List.mem_append_left _) (List.mem_append_left _)

theorem Owned.append (h : Owned acc log u githubId) (events : List (Event α)) :
    Owned acc (log ++ events) u githubId := by
  obtain ⟨a, ha, howns⟩ := h
  exact ⟨a, ha, howns.append events⟩

theorem Proc.Ok.append (h : p.Ok acc log) (events : List (Event α)) :
    p.Ok acc (log ++ events) := by
  cases p with
  | migrate a u => exact Owns.append h events
  | finalizeWrite u githubId inviter => exact fun hne => (h hne).append events
  | inviteSave u githubId => exact fun hne => (h hne).append events
  | _ => trivial

theorem Invariant.after (h : Invariant acc s) (he : Keeps acc s e) :
    Invariant acc (s.after k e) where
  apart := by
    refine ⟨fun a had u hmem => ?_, he.unique, fun a had user hmem => ?_⟩
    · rcases List.mem_append.mp hmem with hmem | hmem
      · exact (h.apart.own a had u hmem).append _
      · exact he.own a had u hmem
    · rcases List.mem_append.mp hmem with hmem | hmem
      · exact h.apart.resolved a had user hmem
      · exact he.resolved a had user hmem
  carried := he.carried
  procs q hq := by
    rcases mem_of_mem_after hq with hq | hq
    · exact (h.procs q hq).append _
    · exact he.procs q hq

/-- A move that leaves the users alone and reports nothing. -/
theorem Keeps.of_quiet (h : Invariant acc s) {procs : List (Proc α)}
    (hprocs : ∀ q ∈ procs, q.Ok acc s.log) : Keeps acc s ⟨s.store, [], procs⟩ := by
  refine ⟨fun _ _ _ => List.not_mem_nil.elim, h.apart.unique, fun _ _ _ => List.not_mem_nil.elim,
    fun x hx hne => ?_, fun q hq => ?_⟩
  · exact (h.carried x hx hne).append []
  · exact (hprocs q hq).append []

/-- A login that ends, and leaves the users alone. -/
theorem Keeps.of_ended (h : Invariant acc s) {had : List ℕ} {user : Option ℕ}
    {procs : List (Proc α)} (hown : ∀ u ∈ user, Owns s.log u a)
    (hhad : ∀ u ∈ had, user = some u) (hprocs : ∀ q ∈ procs, q.Ok acc s.log) :
    Keeps acc s ⟨s.store, [.ended a had user], procs⟩ := by
  refine ⟨fun a' had' u hmem => ?_, h.apart.unique, fun a' had' user' hmem => ?_,
    fun x hx hne => (h.carried x hx hne).append _, fun q hq => (hprocs q hq).append _⟩
  · cases List.mem_singleton.mp hmem
    exact (hown u rfl).append _
  · cases List.mem_singleton.mp hmem
    exact hhad

/-- A write of an id that the user owns, and no other user carries. -/
theorem Keeps.of_write (h : Invariant acc s) {procs : List (Proc α)}
    (howned : githubId ≠ "" → Owned acc (s.log ++ events) u githubId)
    (hfree : Free s.store u saves githubId)
    (hevents : ∀ a had user, Event.ended a had user ∉ events)
    (hprocs : ∀ q ∈ procs, q.Ok acc s.log) :
    Keeps acc s ⟨write s.store u saves githubId, events, procs⟩ := by
  refine ⟨fun a had u hmem => absurd hmem (hevents a had _),
    (unique_write_iff h.apart.unique).mpr hfree,
    fun a had user hmem => absurd hmem (hevents a had user), fun x hx hne => ?_,
    fun q hq => (hprocs q hq).append _⟩
  rcases mem_write.mp hx with ⟨y, -, rfl, -, rfl⟩ | ⟨hx, -⟩
  · exact howned hne
  · exact (h.carried x hx hne).append _

/-! ## One move at a time -/

/-- Where the update may fail, it is free if it does not. -/
theorem keeps_write (h : Invariant acc s) {procs : List (Proc α)} {writes : Prop}
    [Decidable writes] (howned : githubId ≠ "" → Owned acc s.log u githubId)
    (hfree : writes → Free s.store u saves githubId) (hprocs : ∀ q ∈ procs, q.Ok acc s.log) :
    Keeps acc s ⟨if writes then write s.store u saves githubId else s.store, [], procs⟩ := by
  by_cases hwrites : writes
  · rw [if_pos hwrites]
    exact .of_write h (fun hne => (howned hne).append []) (hfree hwrites)
      (fun _ _ _ => List.not_mem_nil) hprocs
  · rw [if_neg hwrites]
    exact .of_quiet h hprocs

theorem notFound_keeps (h : Invariant acc s) (hs : NotFoundSound acc s env a) :
    Keeps acc s (notFound acc env a s.store) := by
  unfold notFound
  split
  · refine .of_quiet h fun q hq => ?_
    rw [List.mem_singleton.mp hq]
    trivial
  · rename_i hregister
    refine .of_ended h (fun u hu => by cases hu) (fun u hu => ?_) fun _ => List.not_mem_nil.elim
    rw [hs (Bool.not_eq_true _ ▸ hregister)] at hu
    cases hu

theorem invites_ok (inviter : Option ℕ) : ∀ q ∈ (invites inviter : List (Proc α)),
    q.Ok acc log := by
  cases inviter with
  | none => exact fun _ => List.not_mem_nil.elim
  | some inviter =>
    intro q hq
    rw [List.mem_singleton.mp hq]
    trivial

theorem create_keeps (h : Invariant acc s) (hs : holders s.store (acc.providerId a) = []) :
    Keeps acc s (createUser acc env a s.store) := by
  have hnone : Keeps acc s ⟨s.store, [.ended a [] none], []⟩ :=
    .of_ended h (fun u hu => by cases hu) (fun _ => List.not_mem_nil.elim)
      fun _ => List.not_mem_nil.elim
  unfold createUser
  dsimp only
  rw [hs]
  split
  · rename_i users hcreate _
    obtain ⟨hfresh, hrows⟩ := Table.create_eq_some hcreate
    have hmem : ∀ x ∈ users.rows, x ∈ s.store.rows ∨ x = ⟨env.id, acc.providerId a, false⟩ := by
      intro x hx
      rw [hrows] at hx
      exact (List.mem_append.mp hx).imp_right List.mem_singleton.mp
    have howns : Owns (s.log ++ [.created env.id a, .ended a [] (some env.id)]) env.id a :=
      .inl (by simp)
    -- the users that were there carry other ids
    have hother : ∀ x ∈ s.store.rows, x.deleted = false → x.githubId ≠ acc.providerId a := by
      intro x hx hlive hgid
      have hholds : x.id ∈ holders s.store (acc.providerId a) :=
        mem_holders.mpr ⟨x, hx, hlive, hgid, rfl⟩
      rw [hs] at hholds
      cases hholds
    refine ⟨fun a' had u hended => ?_, fun x hx y hy hlx hly hne hgid => ?_,
      fun a' had user hended => ?_, fun x hx hne => ?_, fun q hq => ?_⟩
    · rcases List.mem_cons.mp hended with hended | hended
      · cases hended
      · cases List.mem_singleton.mp hended
        exact howns
    · rcases hmem x hx with hx | rfl
      · rcases hmem y hy with hy | rfl
        · exact h.apart.unique x hx y hy hlx hly hne hgid
        · exact absurd hgid (hother x hx hlx)
      · rcases hmem y hy with hy | rfl
        · exact absurd hgid.symm (hother y hy hly)
        · rfl
    · rcases List.mem_cons.mp hended with hended | hended
      · cases hended
      · cases List.mem_singleton.mp hended
        exact fun _ => List.not_mem_nil.elim
    · rcases hmem x hx with hx | rfl
      · exact (h.carried x hx hne).append _
      · exact ⟨a, rfl, howns⟩
    · rw [List.mem_singleton.mp hq]
      trivial
  · exact hnone

/-- The user that a lookup by the numeric id finds is the only one that carries it. -/
theorem fill_eq (h : Invariant acc s)
    (hfill : fillUserByGitHubId s.store (acc.providerId a) = some x) :
    Owns s.log x.id a ∧ ∀ u ∈ holders s.store (acc.providerId a), u = x.id := by
  obtain ⟨hx, hlive, hgid⟩ := fill_some hfill
  constructor
  · obtain ⟨b, hb, howns⟩ := h.carried x hx (hgid ▸ providerId_ne a)
    rw [← providerId_injective (hb.trans hgid)]
    exact howns
  · intro u hu
    obtain ⟨y, hy, hly, hgy, rfl⟩ := mem_holders.mp hu
    rw [h.apart.unique x hx y hy hlive hly (hgid ▸ providerId_ne a) (hgid.trans hgy.symm)]

/-- One process goes on. -/
theorem ok_singleton {q : Proc α} (hq : q.Ok acc s.log) : ∀ q' ∈ [q], q'.Ok acc s.log := by
  intro q' hq'
  rw [List.mem_singleton.mp hq']
  exact hq

theorem ok_nil : ∀ q ∈ ([] : List (Proc α)), q.Ok acc s.log := fun _ => List.not_mem_nil.elim

theorem fill_keeps (h : Invariant acc s) : Keeps acc s (next acc env (.fill a) s.store) := by
  unfold next
  dsimp only
  cases hfill : fillUserByGitHubId s.store (acc.providerId a) with
  | none =>
    refine .of_ended h (fun u hu => by cases hu) (fun u hu => ?_) ok_nil
    rw [fill_none hfill] at hu
    cases hu
  | some x =>
    obtain ⟨howns, honly⟩ := fill_eq h hfill
    refine .of_ended h (fun u hu => ?_) (fun u hu => congrArg some (honly u hu).symm) ok_nil
    cases hu
    exact howns

theorem legacyFill_keeps (h : Invariant acc s) (hs : Sound acc s env (.legacyFill a)) :
    Keeps acc s (next acc env (.legacyFill a) s.store) := by
  unfold next
  dsimp only
  cases hfill : fillUserByGitHubId s.store (acc.login a) with
  | none => exact notFound_keeps h (hs.2 hfill)
  | some x =>
    obtain ⟨howns, honly⟩ := hs.1 x hfill
    refine .of_ended h (fun u hu => ?_) (fun u hu => congrArg some (honly u hu).symm)
      (ok_singleton howns)
    cases hu
    exact howns

/-- A user that is read carries an id that it owns. -/
theorem owned_of_find (h : Invariant acc s)
    (hfound : ((s.store.find u).filter fun x => !x.deleted) = some x) (hne : x.githubId ≠ "") :
    Owned acc s.log x.id x.githubId := by
  obtain ⟨hfind, -⟩ := Option.filter_eq_some_iff.mp hfound
  exact h.carried x (Table.find_eq_some_iff.mp hfind).1 hne

theorem finalize_keeps (h : Invariant acc s) {inviter : Option ℕ} :
    Keeps acc s (next acc env (.finalize u inviter) s.store) := by
  unfold next
  dsimp only
  split
  · rename_i x hfound
    have hid : x.id = u :=
      (Table.find_eq_some_iff.mp (Option.filter_eq_some_iff.mp hfound).1).2
    refine .of_quiet h (ok_singleton fun hne => ?_)
    rw [← hid]
    exact owned_of_find h hfound hne
  · exact .of_quiet h (invites_ok inviter)

theorem invite_keeps (h : Invariant acc s) :
    Keeps acc s (next acc env (.invite u) s.store) := by
  unfold next
  dsimp only
  split
  · rename_i x hfound
    exact .of_quiet h (ok_singleton fun hne => owned_of_find h hfound hne)
  · exact .of_quiet h ok_nil

theorem bindWrite_keeps (h : Invariant acc s) (hs : Sound acc s env (.bindWrite a u)) :
    Keeps acc s (next acc env (.bindWrite a u) s.store) := by
  unfold next
  dsimp only
  split
  · rename_i hwrites
    exact .of_write h (fun _ => ⟨a, rfl, .inr (by simp)⟩) (hs hwrites.1)
      (fun _ _ _ hmem => by cases List.mem_singleton.mp hmem) ok_nil
  · exact .of_quiet h ok_nil

/-- A deletion leaves the ids as they are. -/
theorem mem_delete (h : x ∈ (delete users u).rows) : ∃ y ∈ users.rows, x.id = y.id ∧
    x.githubId = y.githubId ∧ (x.deleted = false → x = y) := by
  obtain ⟨y, hy, rfl⟩ := Table.mem_updateWhere.mp h
  refine ⟨y, hy, ?_⟩
  split
  · exact ⟨rfl, rfl, nofun⟩
  · exact ⟨rfl, rfl, fun _ => rfl⟩

theorem delete_keeps (h : Invariant acc s) : Keeps acc s ⟨delete s.store u, [], []⟩ := by
  refine ⟨fun _ _ _ => List.not_mem_nil.elim, fun x hx y hy hlx hly hne hgid => ?_,
    fun _ _ _ => List.not_mem_nil.elim, fun x hx hne => ?_, fun _ => List.not_mem_nil.elim⟩
  · obtain ⟨x', hx', -, -, hxx⟩ := mem_delete hx
    obtain ⟨y', hy', -, -, hyy⟩ := mem_delete hy
    cases hxx hlx
    cases hyy hly
    exact h.apart.unique x hx' y hy' hlx hly hne hgid
  · obtain ⟨y, hy, hid, hgid, -⟩ := mem_delete hx
    rw [hid, hgid]
    rw [hgid] at hne
    exact (h.carried y hy hne).append []

theorem next_keeps (h : Invariant acc s) (hp : s.procs[k]? = some p) (hs : Sound acc s env p) :
    Keeps acc s (next acc env p s.store) := by
  have hok := h.procs p (List.mem_of_getElem? hp)
  cases p with
  | login a =>
    refine .of_quiet h (ok_singleton ?_)
    split <;> trivial
  | fill a => exact fill_keeps h
  | legacy a =>
    unfold next
    dsimp only
    split
    · exact .of_quiet h (ok_singleton trivial)
    · rename_i htaken
      exact notFound_keeps h (hs (Bool.not_eq_true _ ▸ htaken))
  | legacyFill a => exact legacyFill_keeps h hs
  | migrate a u => exact keeps_write h (fun _ => ⟨a, rfl, hok⟩) hs ok_nil
  | create a => exact create_keeps h hs
  | finalize u inviter => exact finalize_keeps h
  | finalizeWrite u githubId inviter =>
    exact keeps_write h hok (fun hwrites => hs hwrites.1) (invites_ok inviter)
  | invite inviter => exact invite_keeps h
  | inviteSave u githubId => exact keeps_write h hok hs ok_nil
  | bind a u =>
    refine .of_quiet h ?_
    split
    · exact ok_nil
    · exact ok_singleton trivial
  | bindLegacy a u =>
    refine .of_quiet h ?_
    split
    · exact ok_nil
    · exact ok_singleton trivial
  | bindWrite a u => exact bindWrite_keeps h hs
  | delete u => exact delete_keeps h

/-! ## A move that is not sound -/

theorem notFound_sound (h : Apart (s.after k (notFound acc env a s.store))) :
    NotFoundSound acc s env a := by
  intro hregister
  rw [List.eq_nil_iff_forall_not_mem]
  intro u hu
  have hended : Event.ended a (holders s.store (acc.providerId a)) none ∈
      (s.after k (notFound acc env a s.store)).log := by
    unfold notFound
    rw [if_neg (by simp [hregister])]
    exact List.mem_append_right _ (List.mem_singleton_self _)
  cases h.resolved a _ none hended u hu

theorem create_sound (h : Apart (s.after k (createUser acc env a s.store))) :
    holders s.store (acc.providerId a) = [] := by
  rw [List.eq_nil_iff_forall_not_mem]
  intro u hu
  unfold createUser at h
  dsimp only at h
  split at h
  · rename_i users hcreate _
    obtain ⟨hfresh, -⟩ := Table.create_eq_some hcreate
    have heq := h.resolved a _ _ (List.mem_append_right _ (List.mem_cons_of_mem _
      (List.mem_singleton_self _))) u hu
    cases heq
    -- the new user is none of those that were there
    obtain ⟨x, hx, -, -, hid⟩ := mem_holders.mp hu
    exact hfresh x hx hid
  · cases h.resolved a _ _ (List.mem_append_right _ (List.mem_singleton_self _)) u hu

theorem write_sound (h : Unique s.store) {writes : Prop} [Decidable writes]
    (hafter : Unique (if writes then write s.store u saves githubId else s.store))
    (hwrites : writes) : Free s.store u saves githubId := by
  rw [if_pos hwrites] at hafter
  exact (unique_write_iff h).mp hafter

theorem owns_of_ended {had : List ℕ} {user : Option ℕ}
    (h : Owns (log ++ [.ended a had user]) u a) : Owns log u a := by
  rcases h with h | h
  · rcases List.mem_append.mp h with h | h
    · exact .inl h
    · cases List.mem_singleton.mp h
  · rcases List.mem_append.mp h with h | h
    · exact .inr h
    · cases List.mem_singleton.mp h

/-- Accounts that stay apart through a move have moved soundly. -/
theorem next_sound (h : Apart s) (hafter : Apart (s.after k (next acc env p s.store))) :
    Sound acc s env p := by
  cases p with
  | legacy a =>
    intro htaken
    have hnext : next acc env (.legacy a) s.store = notFound acc env a s.store :=
      if_neg (by simp [htaken])
    rw [hnext] at hafter
    exact notFound_sound hafter
  | legacyFill a =>
    unfold next at hafter
    dsimp only at hafter
    constructor
    · intro x hx
      rw [Option.mem_def.mp hx] at hafter
      have hended := List.mem_append_right s.log (List.mem_singleton_self
        (Event.ended a (holders s.store (acc.providerId a)) (some x.id)))
      exact ⟨owns_of_ended (hafter.own a _ x.id hended),
        fun u hu => (Option.some.inj (hafter.resolved a _ _ hended u hu)).symm⟩
    · intro hnone
      rw [hnone] at hafter
      exact notFound_sound hafter
  | create a => exact create_sound hafter
  | migrate a u => exact fun hok => write_sound h.unique hafter.unique hok
  | bindWrite a u =>
    rintro hok ⟨x, hx, hid, hlive⟩ hne
    have hwrites : env.ok ∧ isLive s.store u := by
      refine ⟨hok, List.any_eq_true.mpr ⟨x, hx, ?_⟩⟩
      rw [Bool.false_or] at hlive
      rw [hlive, Bool.and_true, decide_eq_true_eq]
      exact hid
    have hnext : next acc env (.bindWrite a u) s.store =
        ⟨write s.store u false (acc.providerId a), [.bound u a], []⟩ := if_pos hwrites
    rw [hnext] at hafter
    exact (unique_write_iff h.unique).mp hafter.unique ⟨x, hx, hid, hlive⟩ hne
  | finalizeWrite u githubId inviter =>
    exact fun hok hreached hne => write_sound h.unique hafter.unique ⟨hok, hne⟩ hreached hne
  | inviteSave u githubId => exact fun hok => write_sound h.unique hafter.unique hok
  | _ => trivial

/-! ## Runs -/

theorem start_keeps (h : Invariant acc s) (hp : starts p = true) :
    Invariant acc { s with procs := s.procs ++ [p] } := by
  refine ⟨⟨h.apart.own, h.apart.unique, h.apart.resolved⟩, h.carried, fun q hq => ?_⟩
  rcases List.mem_append.mp hq with hq | hq
  · exact h.procs q hq
  · rw [List.mem_singleton.mp hq]
    cases p with
    | migrate a u => cases hp
    | finalizeWrite u githubId inviter => cases hp
    | inviteSave u githubId => cases hp
    | _ => trivial

theorem initial_invariant (start : Unbound) :
    Invariant acc (.initial start.users : Requests α) where
  apart := ⟨fun _ _ _ => List.not_mem_nil.elim,
    fun x hx _ _ _ _ hne _ => absurd (start.githubId x hx) hne, fun _ _ _ => List.not_mem_nil.elim⟩
  carried x hx hne := absurd (start.githubId x hx) hne
  procs _ := List.not_mem_nil.elim

/-- The account 7 is called "octocat", the account 42 is called "7". -/
def numbered : Accounts Bool where
  num a := if a then 42 else 7
  login a := if a then "7" else "octocat"
  num_injective := by
    intro a b
    cases a <;> cases b <;> decide
  login_injective := by
    intro a b
    cases a <;> cases b <;> decide
  login_ne := by decide

end GitHubAccounts
