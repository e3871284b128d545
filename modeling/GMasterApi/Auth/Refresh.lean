import GMasterApi.Auth.GasterCode
import GMasterApi.Lib.Guarded
import Mathlib.Data.List.Perm.Basic
import Mathlib.Data.List.Nodup

/-!
# Refresh-token rotation

`RefreshGasterCodeToken` finds its session by the hash of the token, issues a new
pair and writes the new hashes to the row by its id: the `UPDATE` does not say
which token it replaces.  A token is used at most once in an interleaving exactly
when every refresh that commits still finds the hash it looked up
(`refresh_single_use_iff`).

The database knows a token by its hash only, so tokens are compared by hash.
-/

namespace GasterCode

open GoString Sql Transition

/-- `RefreshGasterCodeToken(refreshToken)`, when it was and what it drew. -/
structure Refresh where
  refreshToken : String
  now : ℤ
  drawn : Drawn
  deriving DecidableEq

inductive SessionWrite
  | rotate (accessHash refreshHash : String) (expiresAt refreshExpiresAt now : ℤ)
  | tokens (result : TokenResult)
  deriving DecidableEq

def applySessionWrite (s : Session) : SessionWrite → Session
  | .rotate accessHash refreshHash expiresAt refreshExpiresAt now =>
    { s with
      accessTokenHash := accessHash
      refreshTokenHash := refreshHash
      expiresAt := expiresAt
      refreshExpiresAt := refreshExpiresAt
      updatedAt := now
      lastUsedAt := now }
  | .tokens _ => s

def Refresh.presented (env : Env) (call : Refresh) : String :=
  env.hashSecret (trimSpace call.refreshToken)

/-- The function that it passes to `DB.Transaction`, after its `SELECT`. -/
def refreshTx (env : Env) (call : Refresh) (session : Session) :
    Except String (Script Session SessionWrite String) :=
  if session.refreshTokenHash = call.presented env ∧ session.revokedAt = 0 ∧
      call.now < session.refreshExpiresAt then
    .ok (.select fun _ => (issueTokenPairTx env call.now call.drawn).map fun result =>
      .exec [.rotate (env.hashSecret result.accessToken) (env.hashSecret result.refreshToken)
        result.expiresAt (call.now + env.refreshTokenTTL) call.now] (.exec [.tokens result] .done))
  else .error "refresh_token is invalid"

def refresh (env : Env) (call : Refresh) (session : Session) :
    Except String (Script Session SessionWrite String) :=
  if trimSpace call.refreshToken = "" then .error "refresh_token is required"
  else refreshTx env call session

/-- Any number of refreshes of one session.  The `SELECT` takes no lock. -/
def refreshProtocol (env : Env) : Protocol Session Refresh SessionWrite String Unit where
  body := refresh env
  apply := applySessionWrite
  locks _ := []

/-- The refreshes that were committed. -/
abbrev RefreshHistory := List (Refresh × List SessionWrite)

/-- The tokens that the refreshes redeemed. -/
def redeemed (env : Env) (hs : RefreshHistory) : List String := hs.map fun h => h.1.presented env

/-- The pair that a refresh answered with. -/
def answered (ws : List SessionWrite) : List TokenResult :=
  ws.filterMap fun w => match w with
    | .tokens result => some result
    | .rotate .. => none

/-- The pairs that the refreshes answered with. -/
def returned (hs : RefreshHistory) : List TokenResult := hs.flatMap fun h => answered h.2

/-- The refresh tokens issued for the session, from the one that it started with. -/
def issued (env : Env) (session : Session) (hs : RefreshHistory) : List String :=
  session.refreshTokenHash :: (returned hs).map fun r => env.hashSecret r.refreshToken

/-- **Single use.**  As long as no token was issued twice none was redeemed twice,
and what is stored is the pair that the latest refresh returned. -/
structure SingleUse (env : Env) (session : Session) (s : Session) (hs : RefreshHistory) : Prop where
  once : (issued env session hs).Nodup → (redeemed env hs).Nodup
  stored : ∀ result, (returned hs).getLast? = some result →
    s.accessTokenHash = env.hashSecret result.accessToken ∧
      s.refreshTokenHash = env.hashSecret result.refreshToken

/-- A refresh commits while the session has the token hash that it looked up (or
the random source has repeated itself). -/
def FindsToken (env : Env) (session : Session) (s : Session) (hs : RefreshHistory)
    (o : Open Session Refresh SessionWrite String) : Prop :=
  (issued env session hs ++ [env.hashSecret o.call.drawn.refreshToken]).Nodup →
    s.refreshTokenHash = o.seen.refreshTokenHash

variable {env : Env} {session s seen : Session} {hs : RefreshHistory} {ws : List SessionWrite}
  {o : Open Session Refresh SessionWrite String}

/-- Everything a committed refresh writes. -/
theorem refresh_outcome {call : Refresh} (h : (refreshProtocol env).Outcome call seen ws) :
    seen.refreshTokenHash = call.presented env ∧
      ∃ result : TokenResult, result.refreshToken = call.drawn.refreshToken ∧
        ws = [.rotate (env.hashSecret result.accessToken) (env.hashSecret result.refreshToken)
          result.expiresAt (call.now + env.refreshTokenTTL) call.now, .tokens result] := by
  obtain ⟨script, hb, ha⟩ := h
  simp only [refreshProtocol, refresh] at hb
  split at hb
  · cases hb
  unfold refreshTx at hb
  split at hb
  · rename_i hfound
    cases hb
    obtain ⟨_, rest, h₁, h₂⟩ := ha.of_select
    cases hissue : issueTokenPairTx env call.now call.drawn with
    | error e =>
      rw [hissue] at h₁
      cases h₁
    | ok result =>
      rw [hissue] at h₁
      cases h₁
      obtain ⟨_, h₃, rfl⟩ := h₂.of_exec
      obtain ⟨_, h₄, rfl⟩ := h₃.of_exec
      rw [h₄.of_done]
      exact ⟨hfound.1, result, (issueTokenPairTx_ok hissue).2.1, rfl⟩
  · cases hb

@[simp] theorem redeemed_append {call : Refresh} :
    redeemed env (hs ++ [(call, ws)]) = redeemed env hs ++ [call.presented env] := by
  simp [redeemed]

@[simp] theorem returned_append {call : Refresh} :
    returned (hs ++ [(call, ws)]) = returned hs ++ answered ws := by
  simp [returned]

theorem issued_append {call : Refresh} :
    issued env session (hs ++ [(call, ws)]) =
      issued env session hs ++ (answered ws).map fun r => env.hashSecret r.refreshToken := by
  simp [issued]

/-- What holds after the refreshes `hs`: but for the token in the row, every token
that was issued has been redeemed. -/
structure RefreshInv (env : Env) (session s : Session) (hs : RefreshHistory) : Prop where
  current : s.refreshTokenHash ∈ issued env session hs
  spent : (issued env session hs).Nodup →
    (issued env session hs).Perm (redeemed env hs ++ [s.refreshTokenHash])
  stored : ∀ result, (returned hs).getLast? = some result →
    s.accessTokenHash = env.hashSecret result.accessToken ∧
      s.refreshTokenHash = env.hashSecret result.refreshToken

theorem RefreshInv.initial (env : Env) (session : Session) : RefreshInv env session session [] where
  current := List.mem_cons_self
  spent _ := List.Perm.refl _
  stored _ h := by cases h

theorem RefreshInv.singleUse (h : RefreshInv env session s hs) : SingleUse env session s hs where
  once hn := List.Nodup.of_append_left ((h.spent hn).nodup_iff.mp hn)
  stored := h.stored

/-- The tokens issued, redeemed and stored after one more refresh. -/
theorem refresh_commit (session s : Session) (hs : RefreshHistory)
    (ho : (refreshProtocol env).Outcome o.call o.seen o.pending) :
    let hs' := hs ++ [(o.call, o.pending)]
    let fresh := env.hashSecret o.call.drawn.refreshToken
    issued env session hs' = issued env session hs ++ [fresh] ∧
      redeemed env hs' = redeemed env hs ++ [o.seen.refreshTokenHash] ∧
      ((refreshProtocol env).write s o.pending).refreshTokenHash = fresh ∧
      ∀ result, (returned hs').getLast? = some result →
        ((refreshProtocol env).write s o.pending).accessTokenHash =
            env.hashSecret result.accessToken ∧
          ((refreshProtocol env).write s o.pending).refreshTokenHash =
            env.hashSecret result.refreshToken := by
  obtain ⟨hseen, result, hfresh, hw⟩ := refresh_outcome ho
  refine ⟨?_, ?_, ?_, ?_⟩
  · simp [issued_append, hw, answered, hfresh]
  · simp [hseen]
  · simp [hw, Protocol.write, refreshProtocol, applySessionWrite, hfresh]
  · intro result' hlast
    simp only [returned_append, hw, answered, List.filterMap_cons, List.filterMap_nil,
      List.getLast?_append, List.getLast?_singleton, Option.some_or, Option.some.injEq] at hlast
    subst hlast
    simp [hw, Protocol.write, refreshProtocol, applySessionWrite]

theorem RefreshInv.commit (h : RefreshInv env session s hs)
    (ho : (refreshProtocol env).Outcome o.call o.seen o.pending) (hc : FindsToken env session s hs o) :
    RefreshInv env session ((refreshProtocol env).write s o.pending)
      (hs ++ [(o.call, o.pending)]) := by
  obtain ⟨hissued, hredeemed, hrow, hstored⟩ := refresh_commit session s hs ho
  refine ⟨?_, fun hn => ?_, hstored⟩
  · rw [hissued, hrow]
    exact List.mem_append_right _ (List.mem_singleton_self _)
  · rw [hissued] at hn ⊢
    rw [hredeemed, hrow, ← hc hn]
    exact (h.spent (List.Nodup.of_append_left hn)).append_right _

/-- A refresh that replaces another token than the one it looked up has redeemed
a token for the second time. -/
theorem RefreshInv.commit_stale (h : RefreshInv env session s hs)
    (hseen : o.seen.refreshTokenHash ∈ issued env session hs)
    (ho : (refreshProtocol env).Outcome o.call o.seen o.pending)
    (hc : ¬ FindsToken env session s hs o) :
    ¬ SingleUse env session ((refreshProtocol env).write s o.pending)
      (hs ++ [(o.call, o.pending)]) := by
  obtain ⟨hissued, hredeemed, -, -⟩ := refresh_commit session s hs ho
  unfold FindsToken at hc
  rw [Classical.not_imp] at hc
  obtain ⟨hn, hne⟩ := hc
  intro hgood
  have honce := hgood.once (hissued ▸ hn)
  rw [hredeemed, List.nodup_append] at honce
  have hmem := (h.spent (List.Nodup.of_append_left hn)).mem_iff.mp hseen
  rcases List.mem_append.mp hmem with hspent | hcur
  · exact honce.2.2 _ hspent _ (List.mem_singleton_self _) rfl
  · exact hne (List.mem_singleton.mp hcur).symm

/-- **Refresh tokens are single-use exactly when** every refresh that commits finds
the row with the token that its `SELECT` saw.  Nothing in the `UPDATE` makes it so. -/
theorem refresh_single_use_iff (env : Env) (session : Session) (as : List (Action Refresh)) :
    (refreshProtocol env).system.EveryState (fun s => SingleUse env session s.store s.committed)
        (State.initial session) as ↔
      (refreshProtocol env).system.EveryStep (CommitMeets (FindsToken env session))
        (State.initial session) as := by
  refine Protocol.everyState_iff_commits_seen (I := RefreshInv env session)
    (K := fun seen _ hs => seen.refreshTokenHash ∈ issued env session hs)
    (fun _ _ h => h.current) (fun _ _ h => h.singleUse)
    (fun _ _ _ h _ ho hc => ⟨h.commit ho hc, fun seen hk => ?_⟩)
    (fun _ _ _ h hseen ho hc => h.commit_stale hseen ho hc) (.initial env session) as
  rw [issued_append]
  exact List.mem_append_left _ hk

/-- The session of a desktop client that holds the token `gc_rt_r1`. -/
def sampleSession : Session where
  userID := 101
  accessTokenHash := sampleEnv.hashSecret "gc_at_a1"
  refreshTokenHash := sampleEnv.hashSecret "gc_rt_r1"
  clientName := "Gaster Code"
  clientVersion := "0.1.0"
  expiresAt := 87400
  refreshExpiresAt := 2593000
  revokedAt := 0
  lastUsedAt := 1000
  updatedAt := 1000

/-- Two clients present the same token: both look it up before either rotates it. -/
def bothRefresh : List (Action Refresh) :=
  let user : User := ⟨101, "ada", "Ada", "", "default", userStatusEnabled⟩
  [.select 0 ⟨"gc_rt_r1", 2000, "a2", "r2", some user⟩,
    .select 1 ⟨"gc_rt_r1", 2000, "a3", "r3", some user⟩,
    .next 0, .next 0, .next 0, .commit 0, .next 1, .next 1, .next 1, .commit 1]

theorem refresh_redeemed_twice :
    ¬ (refreshProtocol sampleEnv).system.EveryState
      (fun s => SingleUse sampleEnv sampleSession s.store s.committed)
      (State.initial sampleSession) bothRefresh := by
  intro h
  have hrun : ((refreshProtocol sampleEnv).system.run (State.initial sampleSession) bothRefresh).map
      (fun s => (decide (issued sampleEnv sampleSession s.committed).Nodup,
        decide (redeemed sampleEnv s.committed).Nodup)) = some (true, false) := by decide +kernel
  obtain ⟨t, ht, hlast⟩ := Option.map_eq_some_iff.mp hrun
  obtain ⟨hissued, hredeemed⟩ := Prod.mk.inj hlast
  exact of_decide_eq_false hredeemed ((h.run ht).once (of_decide_eq_true hissued))

end GasterCode
