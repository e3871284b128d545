import GMasterApi.Lib.Transaction
import GMasterApi.Store.Query
import Mathlib.Algebra.BigOperators.Group.List.Basic
import Mathlib.Tactic.Linarith

/-!
# Updates of a user's quota

`increaseUserQuota` and `decreaseUserQuota` are relative `UPDATE`s.  An invite
and a transfer of affiliate quota read the user row, change it in memory and
`Save` all of it; the transfer's `SELECT` means to lock the row and does not.

Nothing is lost in an interleaving exactly when every invite and transfer that
commits writes over the quota and affiliate quota that it read
(`no_lost_update_iff`).
-/

namespace UserQuota

open Sql Transition

/-- The columns of `users` that these calls change. -/
structure User where
  quota : ℤ
  affCount : ℤ
  affQuota : ℤ
  affHistoryQuota : ℤ
  deriving DecidableEq

/-- Settings read here; `quotaPerUnitText` is `logger.LogQuota` of the quota per unit. -/
structure Config where
  quotaPerUnit : ℚ
  quotaPerUnitText : String
  quotaForInviter : ℤ
  batchUpdateEnabled : Bool

inductive Call
  | increaseUserQuota (quota : ℤ)
  | decreaseUserQuota (quota : ℤ)
  | transferAffQuotaToQuota (quota : ℤ)
  | inviteUser
  deriving DecidableEq

inductive Write
  | addQuota (n : ℤ)
  | saveUser (row : User)
  deriving DecidableEq

def applyWrite (u : User) : Write → User
  | .addQuota n => { u with quota := u.quota + n }
  | .saveUser row => row

/-- The row that `inviteUser` saves. -/
def User.invited (cfg : Config) (u : User) : User :=
  { u with
    affCount := u.affCount + 1
    affQuota := u.affQuota + cfg.quotaForInviter
    affHistoryQuota := u.affHistoryQuota + cfg.quotaForInviter }

/-- The row that `TransferAffQuotaToQuota` saves. -/
def User.transferred (u : User) (quota : ℤ) : User :=
  { u with affQuota := u.affQuota - quota, quota := u.quota + quota }

/-- What each call does once it has read the user row; the two relative updates
read nothing. -/
def body (cfg : Config) (call : Call) (user : User) :
    Except String (Script User Write String) :=
  match call with
  | .increaseUserQuota quota => .ok (.exec [.addQuota quota] .done)
  | .decreaseUserQuota quota => .ok (.exec [.addQuota (-quota)] .done)
  | .transferAffQuotaToQuota quota =>
    if (quota : ℚ) < cfg.quotaPerUnit then 
      .error ("转移额度最小为" ++ cfg.quotaPerUnitText ++ "！")
    else if user.affQuota < quota then .error "邀请额度不足！"
    else .ok (.exec [.saveUser (user.transferred quota)] .done)
  | .inviteUser => .ok (.exec [.saveUser (user.invited cfg)] .done)

def locks : Call → List Unit
  | .transferAffQuotaToQuota _ => (Gorm.selectForUpdate "id = ?").rowLocks [()]
  | _ => []

def protocol (cfg : Config) : Protocol User Call Write String Unit where
  body := body cfg
  apply := applyWrite
  locks := locks

/-! ## What a call is worth -/

/-- The change of `Quota` that a call is meant to make. -/
def quotaDelta : Call → ℤ
  | .increaseUserQuota quota => quota
  | .decreaseUserQuota quota => -quota
  | .transferAffQuotaToQuota quota => quota
  | .inviteUser => 0

def transferAmount : Call → ℤ
  | .transferAffQuotaToQuota quota => quota
  | _ => 0

def reward (cfg : Config) : Call → ℤ
  | .inviteUser => cfg.quotaForInviter
  | _ => 0

/-- What a call earns, whatever the sign of the reward setting. -/
def earned (cfg : Config) : Call → ℤ
  | .inviteUser => max 0 cfg.quotaForInviter
  | _ => 0

/-- The total of `f` over the calls committed so far. -/
def total (f : Call → ℤ) (hs : List (Call × List Write)) : ℤ := (hs.map fun h => f h.1).sum

/-- **No lost update.**  The stored quota and affiliate quota are the initial
ones plus everything the committed calls did, and transfers credited no more
than there was or was earned. -/
def NoLostUpdate (cfg : Config) (user u : User) (hs : List (Call × List Write)) : Prop :=
  u.quota = user.quota + total quotaDelta hs ∧
    u.affQuota = user.affQuota + total (reward cfg) hs - total transferAmount hs ∧
    total transferAmount hs ≤ max 0 user.affQuota + total (earned cfg) hs

/-- A call that saves the whole row. -/
def Call.savesRow : Call → Bool
  | .transferAffQuotaToQuota _ => true
  | .inviteUser => true
  | _ => false

/-- A whole-row save finds the quota and affiliate quota that its call read. -/
def ReadsCurrent (u : User) (_ : List (Call × List Write)) (o : Open User Call Write String) :
    Prop :=
  o.call.savesRow = true → u.quota = o.seen.quota ∧ u.affQuota = o.seen.affQuota

/-! ## What a call writes -/

variable {cfg : Config} {user u : User} {hs : List (Call × List Write)}
  {o : Open User Call Write String}

@[simp] theorem total_nil (f : Call → ℤ) : total f [] = 0 := rfl

@[simp] theorem total_append (f : Call → ℤ) (hs : List (Call × List Write)) (c : Call)
    (ws : List Write) : total f (hs ++ [(c, ws)]) = total f hs + f c := by
  simp [total]

theorem total_reward_le (cfg : Config) (hs : List (Call × List Write)) :
    total (reward cfg) hs ≤ total (earned cfg) hs := by
  unfold total
  induction hs with
  | nil => simp
  | cons h hs ih =>
    have hh : reward cfg h.1 ≤ earned cfg h.1 := by
      cases h.1 <;> simp [reward, earned]
    simp only [List.map_cons, List.sum_cons]
    omega

/-- The user row after a call that read `seen` has written over `u`. -/
def after (cfg : Config) (call : Call) (seen u : User) : User :=
  match call with
  | .increaseUserQuota quota => { u with quota := u.quota + quota }
  | .decreaseUserQuota quota => { u with quota := u.quota - quota }
  | .transferAffQuotaToQuota quota => seen.transferred quota
  | .inviteUser => seen.invited cfg

/-- What a committed call does to the row it finds; a transfer was covered by the
affiliate quota it read. -/
theorem outcome {call : Call} {seen : User} {ws : List Write}
    (h : (protocol cfg).Outcome call seen ws) :
    (∀ u, (protocol cfg).write u ws = after cfg call seen u) ∧
      ∀ quota, call = .transferAffQuotaToQuota quota → quota ≤ seen.affQuota := by
  obtain ⟨sc, hb, ha⟩ := h
  simp only [protocol, body] at hb
  cases call with
  | increaseUserQuota quota =>
    cases hb
    obtain ⟨_, h₁, rfl⟩ := ha.of_exec
    rw [h₁.of_done]
    exact ⟨fun u => rfl, fun _ hc => by cases hc⟩
  | decreaseUserQuota quota =>
    cases hb
    obtain ⟨_, h₁, rfl⟩ := ha.of_exec
    rw [h₁.of_done]
    exact ⟨fun u => rfl, fun _ hc => by cases hc⟩
  | transferAffQuotaToQuota quota =>
    dsimp only at hb
    split at hb
    · cases hb
    · split at hb
      · cases hb
      · rename_i hle
        cases hb
        obtain ⟨_, h₁, rfl⟩ := ha.of_exec
        rw [h₁.of_done]
        refine ⟨fun u => rfl, fun q hc => ?_⟩
        cases hc
        omega
  | inviteUser =>
    cases hb
    obtain ⟨_, h₁, rfl⟩ := ha.of_exec
    rw [h₁.of_done]
    exact ⟨fun u => rfl, fun _ hc => by cases hc⟩

/-! ## When no update is lost -/

theorem NoLostUpdate.commit (h : NoLostUpdate cfg user u hs)
    (ho : (protocol cfg).Outcome o.call o.seen o.pending) (hc : ReadsCurrent u hs o) :
    NoLostUpdate cfg user ((protocol cfg).write u o.pending) (hs ++ [(o.call, o.pending)]) := by
  obtain ⟨hw, ht⟩ := outcome ho
  obtain ⟨hq, ha, hle⟩ := h
  rw [hw]
  unfold NoLostUpdate
  simp only [total_append]
  cases hcall : o.call with
  | increaseUserQuota quota =>
    simp only [after, quotaDelta, reward, earned, transferAmount]
    omega
  | decreaseUserQuota quota =>
    simp only [after, quotaDelta, reward, earned, transferAmount]
    omega
  | transferAffQuotaToQuota quota =>
    obtain ⟨hcq, hca⟩ := hc (by rw [hcall]; rfl)
    have hcov := ht quota hcall
    have hsum := total_reward_le cfg hs
    simp only [after, User.transferred, quotaDelta, reward, earned, transferAmount]
    omega
  | inviteUser =>
    obtain ⟨hcq, hca⟩ := hc (by rw [hcall]; rfl)
    simp only [after, User.invited, quotaDelta, reward, earned, transferAmount]
    omega

/-- A whole-row save over a row that has moved on loses what moved it. -/
theorem NoLostUpdate.commit_stale (h : NoLostUpdate cfg user u hs)
    (ho : (protocol cfg).Outcome o.call o.seen o.pending) (hc : ¬ ReadsCurrent u hs o) :
    ¬ NoLostUpdate cfg user ((protocol cfg).write u o.pending) (hs ++ [(o.call, o.pending)]) := by
  obtain ⟨hw, -⟩ := outcome ho
  obtain ⟨hq, ha, -⟩ := h
  unfold ReadsCurrent at hc
  rw [hw]
  rintro ⟨hq', ha', -⟩
  simp only [total_append] at hq' ha'
  refine hc fun hs => ?_
  cases hcall : o.call with
  | increaseUserQuota quota => rw [hcall] at hs; cases hs
  | decreaseUserQuota quota => rw [hcall] at hs; cases hs
  | transferAffQuotaToQuota quota =>
    simp only [hcall, after, User.transferred, quotaDelta, reward, transferAmount] at hq' ha'
    omega
  | inviteUser =>
    simp only [hcall, after, User.invited, quotaDelta, reward, transferAmount] at hq' ha'
    omega

/-- **No quota update is lost exactly when** every invite and every transfer
saves over the quota and the affiliate quota that it read. -/
theorem no_lost_update_iff (cfg : Config) (user : User) (as : List (Action Call)) :
    (protocol cfg).system.EveryState (fun s => NoLostUpdate cfg user s.store s.committed)
        (State.initial user) as ↔
      (protocol cfg).system.EveryStep (CommitMeets ReadsCurrent) (State.initial user) as :=
  Protocol.everyState_iff_commits (J := fun _ => True) (I := NoLostUpdate cfg user)
    (G := NoLostUpdate cfg user) (C := ReadsCurrent) (fun _ _ _ => trivial) (fun _ _ h => h)
    (fun _ _ _ h _ ho hc => h.commit ho hc) (fun _ _ _ h _ ho hc => h.commit_stale ho hc)
    ⟨by simp, by simp, by simp⟩ as

def sampleConfig : Config := ⟨500000, "＄1.000000 额度", 100000, false⟩

/-- A transfer of 500000 reads the row, the user pays 300000, the transfer saves. -/
def payDuringTransfer : List (Action Call) :=
  [.select 0 (.transferAffQuotaToQuota 500000), .select 1 (.decreaseUserQuota 300000), .next 1,
    .commit 1, .next 0, .commit 0]

theorem transfer_loses_payment :
    ¬ (protocol sampleConfig).system.EveryState
      (fun s => NoLostUpdate sampleConfig ⟨1000000, 0, 500000, 500000⟩ s.store s.committed)
      (State.initial ⟨1000000, 0, 500000, 500000⟩) payDuringTransfer := by
  intro h
  have hrun : ((protocol sampleConfig).system.run (State.initial ⟨1000000, 0, 500000, 500000⟩)
      payDuringTransfer).map (fun s => (s.store.quota, total quotaDelta s.committed)) =
        some (1500000, 200000) := by decide +kernel
  obtain ⟨t, ht, hq⟩ := Option.map_eq_some_iff.mp hrun
  have hgood := (h.run ht).1
  simp only [Prod.mk.injEq] at hq
  rw [hq.1, hq.2] at hgood
  exact absurd hgood (by decide)

end UserQuota
