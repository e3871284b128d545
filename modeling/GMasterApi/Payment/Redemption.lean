import GMasterApi.Lib.Transaction
import GMasterApi.Store.Query
import Mathlib.Algebra.BigOperators.Group.List.Basic
import Mathlib.Tactic.Linarith
import Mathlib.Tactic.Ring

/-!
# Redemption codes

`Redeem` runs in one transaction: `SELECT` the code, add its quota to the user,
`Save` the whole code row as used.  The `SELECT` is written with the v1 query
option, so it locks nothing, and the `Save` does not look at the status again.

The store is one code row and the quota of every user.  A code pays out at most
once in an interleaving exactly when every call that commits still finds the
status its `SELECT` saw (`redeem_pays_once_iff`).
-/

namespace Redemption

open Sql Transition

def statusEnabled : ℤ := 1
def statusUsed : ℤ := 3

/-- A row of `redemptions`. -/
structure Code where
  id : ℕ
  key : String
  status : ℤ
  quota : ℤ
  redeemedTime : ℤ
  usedUserId : ℤ
  deletedAt : Option ℤ
  expiredTime : ℤ
  deriving DecidableEq

/-- The code row and the quota of each user. -/
structure Store where
  code : Code
  quota : ℤ → ℤ

/-- `Redeem(key, userId)` with what the clock answers at its expiry check and at
its `Save`. -/
structure Call where
  key : String
  userId : ℤ
  checkTime : ℤ
  redeemTime : ℤ
  deriving DecidableEq

inductive Write
  | addQuota (userId : ℤ) (quota : ℤ)
  | saveCode (row : Code)
  deriving DecidableEq

def applyWrite (s : Store) : Write → Store
  | .addQuota u n => { s with quota := Function.update s.quota u (s.quota u + n) }
  | .saveCode row => { s with code := row }

def errRedeemFailed : String := "redeem.failed"

/-- `First(redemption)` with the condition `key = ?`; soft-deleted rows are not
found. -/
def firstByKey (s : Store) (key : String) : Option Code :=
  if s.code.key = key ∧ s.code.deletedAt = none then some s.code else none

/-- The row as `Redeem` saves it. -/
def Code.redeemed (row : Code) (call : Call) : Code :=
  { row with redeemedTime := call.redeemTime, status := statusUsed, usedUserId := call.userId }

/-- The function that `Redeem` passes to `DB.Transaction`, after its `SELECT`. -/
def redeemTx (call : Call) (seen : Store) : Except String (Script Store Write String) :=
  match firstByKey seen call.key with
  | none => .error "无效的兑换码"
  | some redemption =>
    if redemption.status ≠ statusEnabled then .error "该兑换码已被使用"
    else if redemption.expiredTime ≠ 0 ∧ redemption.expiredTime < call.checkTime then
      .error "该兑换码已过期"
    else .ok (.exec [.addQuota call.userId redemption.quota]
      (.exec [.saveCode (redemption.redeemed call)] .done))

def redeem (call : Call) (seen : Store) : Except String (Script Store Write String) :=
  if call.key = "" then .error "未提供兑换码"
  else if call.userId = 0 then .error "无效的 user id"
  else (redeemTx call seen).mapError fun _ => errRedeemFailed

/-- Any number of `Redeem` calls on one database. -/
def protocol : Protocol Store Call Write String String where
  body := redeem
  apply := applyWrite
  locks call := (Gorm.selectForUpdate "key = ?").rowLocks [call.key]

/-- What a list of writes credits, and to whom. -/
def writeCredits (ws : List Write) : List (ℤ × ℤ) :=
  ws.filterMap fun w => match w with
    | .addQuota u n => some (u, n)
    | .saveCode _ => none

def credits (hs : List (Call × List Write)) : List (ℤ × ℤ) := hs.flatMap fun h => writeCredits h.2

/-- **Pays out at most once.**  The users were credited no more than the quota of
the code `row`, and a row that has become used names a user who was credited. -/
def PaysOnce (row : Code) (s : Store) (hs : List (Call × List Write)) : Prop :=
  ((credits hs).map Prod.snd).sum ≤ row.quota ∧
    (s.code.status = statusUsed → row.status = statusUsed ∨
      s.code.usedUserId ∈ (credits hs).map Prod.fst)

/-! ## What a call writes -/

theorem redeemTx_ok {call : Call} {seen : Store} {sc : Script Store Write String}
    (h : redeemTx call seen = .ok sc) :
    seen.code.key = call.key ∧ seen.code.status = statusEnabled ∧
      sc = .exec [.addQuota call.userId seen.code.quota]
        (.exec [.saveCode (seen.code.redeemed call)] .done) := by
  unfold redeemTx firstByKey at h
  by_cases hk : seen.code.key = call.key ∧ seen.code.deletedAt = none
  · by_cases hs : seen.code.status = statusEnabled
    · simp only [hk, and_self, if_true, hs, ne_eq, not_true_eq_false, if_false] at h
      split at h
      · cases h
      · exact ⟨hk.1, hs, by injection h with h; exact h.symm⟩
    · simp [hk, hs] at h
  · simp [hk] at h

theorem redeem_ok {call : Call} {seen : Store} {sc : Script Store Write String}
    (h : redeem call seen = .ok sc) :
    call.userId ≠ 0 ∧ seen.code.key = call.key ∧ seen.code.status = statusEnabled ∧
      sc = .exec [.addQuota call.userId seen.code.quota]
        (.exec [.saveCode (seen.code.redeemed call)] .done) := by
  unfold redeem at h
  split at h
  · cases h
  · split at h
    · cases h
    · rename_i hu
      cases htx : redeemTx call seen with
      | error e => rw [htx] at h; cases h
      | ok sc' =>
        rw [htx] at h
        cases h
        exact ⟨hu, redeemTx_ok htx⟩

/-- Everything a committed `Redeem` writes. -/
theorem outcome {call : Call} {seen : Store} {ws : List Write}
    (h : protocol.Outcome call seen ws) :
    seen.code.key = call.key ∧ seen.code.status = statusEnabled ∧
      ws = [.addQuota call.userId seen.code.quota, .saveCode (seen.code.redeemed call)] := by
  obtain ⟨sc, hb, ha⟩ := h
  obtain ⟨-, hk, hs, rfl⟩ := redeem_ok hb
  obtain ⟨_, h₁, rfl⟩ := ha.of_exec
  obtain ⟨_, h₂, rfl⟩ := h₁.of_exec
  rw [h₂.of_done]
  exact ⟨hk, hs, rfl⟩

@[simp] theorem credits_nil : credits [] = [] := rfl

@[simp] theorem credits_append (hs : List (Call × List Write)) (call : Call) (ws : List Write) :
    credits (hs ++ [(call, ws)]) = credits hs ++ writeCredits ws := by
  simp [credits]

/-- A user has what he had and what the calls credited to him. -/
def Balanced (quota : ℤ → ℤ) (s : Store) (hs : List (Call × List Write)) : Prop :=
  ∀ u, s.quota u = quota u + (((credits hs).filter fun c => c.1 = u).map Prod.snd).sum

/-- What holds after the calls `hs`: each credited the code's quota, one at most
if that is not nothing, and only the first found the row as it was created. -/
structure Inv (row : Code) (s : Store) (hs : List (Call × List Write)) : Prop where
  quota : s.code.quota = row.quota
  paid : ((credits hs).map Prod.snd).sum = hs.length * row.quota
  once : hs.length ≤ 1 ∨ row.quota = 0
  fresh : hs = [] → s.code = row
  used : hs ≠ [] → s.code.status = statusUsed ∧ s.code.usedUserId ∈ (credits hs).map Prod.fst

/-- What the `SELECT` of a call may have seen. -/
def Seen (row : Code) (s : Store) : Prop :=
  s.code.quota = row.quota ∧ (s.code.status = statusEnabled → s.code = row)

/-- The call commits on the status that its `SELECT` saw, or it credits nothing. -/
def FindsStatus (row : Code) (s : Store) (_ : List (Call × List Write))
    (o : Open Store Call Write String) : Prop :=
  s.code.status = o.seen.code.status ∨ row.quota = 0

variable {row : Code} {s : Store} {hs : List (Call × List Write)}
  {o : Open Store Call Write String}

theorem Inv.initial (row : Code) (quota : ℤ → ℤ) : Inv row ⟨row, quota⟩ [] :=
  ⟨rfl, by simp, .inl (by simp), fun _ => rfl, fun h => absurd rfl h⟩

theorem Inv.seen (h : Inv row s hs) : Seen row s := by
  refine ⟨h.quota, fun he => ?_⟩
  by_cases hn : hs = []
  · exact h.fresh hn
  · have hu := (h.used hn).1
    rw [he] at hu
    exact absurd hu (by decide)

theorem Inv.paysOnce (h : Inv row s hs) (hq : 0 ≤ row.quota) : PaysOnce row s hs := by
  constructor
  · rw [h.paid]
    rcases h.once with hl | hz
    · have : (hs.length : ℤ) ≤ 1 := by exact_mod_cast hl
      exact mul_le_of_le_one_left hq this
    · simp [hz]
  · intro hs'
    by_cases hn : hs = []
    · rw [h.fresh hn] at hs'
      exact .inl hs'
    · exact .inr (h.used hn).2

/-- The total paid after one more commit. -/
theorem Inv.paid_commit (h : Inv row s hs) (hseen : Seen row o.seen)
    (ho : protocol.Outcome o.call o.seen o.pending) :
    ((credits (hs ++ [(o.call, o.pending)])).map Prod.snd).sum = (hs.length + 1) * row.quota := by
  obtain ⟨-, -, hw⟩ := outcome ho
  have hp := h.paid
  simp only [credits_append, hw, writeCredits, List.map_append, List.sum_append, hp,
    List.filterMap_cons, List.filterMap_nil, List.map_cons, List.map_nil, List.sum_cons,
    List.sum_nil, hseen.1]
  ring

theorem Inv.commit (h : Inv row s hs) (hseen : Seen row o.seen)
    (ho : protocol.Outcome o.call o.seen o.pending) (hc : FindsStatus row s hs o) :
    Inv row (protocol.write s o.pending) (hs ++ [(o.call, o.pending)]) := by
  have hp := h.paid_commit hseen ho
  obtain ⟨-, he, hw⟩ := outcome ho
  refine ⟨?_, ?_, ?_, fun hn => by simp at hn, fun _ => ?_⟩
  · simp [hw, Protocol.write, protocol, applyWrite, Code.redeemed, hseen.1]
  · rw [hp]; simp
  · rcases hc with hc | hc
    · -- a row that is still enabled has not been redeemed
      have hn : hs = [] := by
        by_contra hn
        have hu := (h.used hn).1
        rw [hc, he] at hu
        exact absurd hu (by decide)
      exact .inl (by simp [hn])
    · exact .inr hc
  · simp [hw, Protocol.write, protocol, applyWrite, Code.redeemed, writeCredits]

/-- A call that commits on a status it did not see pays the code a second time. -/
theorem Inv.commit_stale (h : Inv row s hs) (hq : 0 ≤ row.quota) (hseen : Seen row o.seen)
    (ho : protocol.Outcome o.call o.seen o.pending) (hc : ¬ FindsStatus row s hs o) :
    ¬ PaysOnce row (protocol.write s o.pending) (hs ++ [(o.call, o.pending)]) := by
  have hp := h.paid_commit hseen ho
  obtain ⟨-, he, -⟩ := outcome ho
  unfold FindsStatus at hc
  rw [not_or] at hc
  have hn : hs ≠ [] := by
    intro hn
    rw [h.fresh hn, hseen.2 he] at hc
    exact hc.1 rfl
  have hl : (1 : ℤ) ≤ hs.length := by
    have := List.length_pos_iff.mpr hn
    omega
  intro hgood
  have hle := hgood.1
  rw [hp] at hle
  have hq' : 0 < row.quota := lt_of_le_of_ne hq (Ne.symm hc.2)
  nlinarith

/-- **Redemption codes pay out at most once exactly when** the code's quota is
not negative and every call that commits finds the row's status as its `SELECT`
saw it (or the quota is zero).  Nothing in `Redeem` makes it so. -/
theorem redeem_pays_once_iff (row : Code) (quota : ℤ → ℤ) (as : List (Action Call)) :
    protocol.system.EveryState (fun s => PaysOnce row s.store s.committed)
        (State.initial ⟨row, quota⟩) as ↔
      0 ≤ row.quota ∧
        protocol.system.EveryStep (CommitMeets (FindsStatus row)) (State.initial ⟨row, quota⟩) as := by
  by_cases hq : 0 ≤ row.quota
  · rw [Protocol.everyState_iff_commits (J := Seen row) (I := Inv row) (C := FindsStatus row)
      (G := PaysOnce row) (fun _ _ h => h.seen) (fun _ _ h => h.paysOnce hq)
      (fun _ _ _ h hs ho hc => h.commit hs ho hc)
      (fun _ _ _ h hs ho hc => h.commit_stale hq hs ho hc) (.initial row quota)]
    exact ⟨fun h => ⟨hq, h⟩, fun h => h.2⟩
  · constructor
    · intro h
      have := h.head.1
      simp only [State.initial, credits_nil, List.map_nil, List.sum_nil] at this
      exact absurd this hq
    · exact fun h => absurd h.1 hq

/-- A code of 500 units. -/
def sampleCode : Code := ⟨1, "gift-500", statusEnabled, 500, 0, 0, none, 0⟩

/-- Users 7 and 8 redeem `sampleCode` at the same moment: both read it before
either commits. -/
def bothRedeem : List (Action Call) :=
  [.select 0 ⟨"gift-500", 7, 100, 100⟩, .select 1 ⟨"gift-500", 8, 100, 100⟩, .next 0, .next 0,
    .commit 0, .next 1, .next 1, .commit 1]

theorem redeem_pays_twice :
    ¬ protocol.system.EveryState (fun s => PaysOnce sampleCode s.store s.committed)
      (State.initial ⟨sampleCode, fun _ => 0⟩) bothRedeem := by
  intro h
  have hrun : (protocol.system.run (State.initial ⟨sampleCode, fun _ => 0⟩) bothRedeem).map
      (fun s => ((credits s.committed).map Prod.snd).sum) = some 1000 := by decide
  obtain ⟨t, ht, hsum⟩ := Option.map_eq_some_iff.mp hrun
  have hle := (h.run ht).1
  rw [hsum] at hle
  exact absurd hle (by decide)

end Redemption
