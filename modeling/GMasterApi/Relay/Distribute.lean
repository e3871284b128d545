import GMasterApi.Channel.Snapshot
import GMasterApi.Relay.Retry

/-!
# The first channel of a request

`Distribute` gives a request its channel before `Relay` starts: the one that its token
names, the one that served the like before, or one that it selects.  Only a selection
leaves the index of its group in the context.
-/

namespace Relay

open Billing Pricing Channels

/-- Why the middleware aborts; the names are those of its messages. -/
inductive DistributeError
  | invalidChannelId
  | channelDisabled
  | affinityChannelDisabled
  | getChannelFailed (group e : String)
  | noAvailableChannel (group : String)
  deriving DecidableEq

/-- What the middleware finds of a request: the channel that its token names, as
`GetChannelById` has it, the one that affinity prefers, as `CacheGetChannel` has it,
and whether a failure of affinity is final. -/
structure DistributeEnv where
  specificChannel : Option (Option Channel)
  preferred : Option Channel
  skipRetryAfterAffinityFailure : Bool

/-- The preferred channel and the group that it is used for, which `auto` leaves in the
context. -/
def preferredChannel (settings : SelectSettings) (isEnabled : String → ℕ → Bool)
    (usingGroup : String) (c : Context) (preferred : Channel) : Option (Context × Channel) :=
  if usingGroup = "auto" then
    (settings.userAutoGroups.find? fun g => isEnabled g preferred.id).map fun g =>
      ({ c with autoGroup := some g }, preferred)
  else if isEnabled usingGroup preferred.id then some (c, preferred)
  else none

/-- The selection of `Distribute`, with a counter of its own. -/
def distributeSelect (settings : SelectSettings) (satisfied : Satisfied) (usingGroup : String)
    (c : Context) : Context × Except DistributeError ℕ :=
  match cacheGetRandomSatisfiedChannel settings satisfied usingGroup c ⟨0, false⟩ with
  | (selected, .error e) => (selected.c, .error (.getChannelFailed selected.group e))
  | (selected, .ok ()) =>
    match selected.channel with
    | none => (selected.c, .error (.noAvailableChannel usingGroup))
    | some channel => (selected.c, .ok channel)

/-- `Distribute`, for a request whose channel it is to select. -/
def distribute (settings : SelectSettings) (env : DistributeEnv) (isEnabled : String → ℕ → Bool)
    (satisfied : Satisfied) (usingGroup : String) (c : Context) :
    Context × Except DistributeError ℕ :=
  match env.specificChannel with
  | some none => (c, .error .invalidChannelId)
  | some (some channel) =>
    if channel.status ≠ .enabled then (c, .error .channelDisabled) else (c, .ok channel.id)
  | none =>
    match env.preferred with
    | none => distributeSelect settings satisfied usingGroup c
    | some preferred =>
      if preferred.status ≠ .enabled then
        if env.skipRetryAfterAffinityFailure then (c, .error .affinityChannelDisabled)
        else distributeSelect settings satisfied usingGroup c
      else match preferredChannel settings isEnabled usingGroup c preferred with
        | some (c, channel) => (c, .ok channel.id)
        | none => distributeSelect settings satisfied usingGroup c

/-- The request as `Relay` begins its attempts. -/
def Trying.start (c : Context) (info : RelayInfo) : Trying :=
  ⟨c, ⟨0, false⟩, info, false, none, c.autoGroup.getD info.usingGroup⟩

/-! ## Rounds of the loop -/

/-- A round of the loop of `Relay`. -/
def relayRound (settings : RetrySettings) (groups : GroupRatioSetting) (a : Attempt) (s : Trying) :
    Tried :=
  if settings.retryTimes < s.p.retry then .failed s s.lastError
  else match getChannel settings.toSelectSettings groups a s, a.bodyFault, a.reply with
    | (s, some e), _, _ => .failed s (some e)
    | (s, none), some e, _ => .failed s (some e)
    | (s, none), none, .served ctx otherRatios usage => .served (s.serve otherRatios) ctx usage
    | (s, none), none, .failed e =>
      if shouldRetry settings e (settings.retryTimes - s.p.retry) then
        .running { s.fail e with p := s.p.increaseRetry }
      else .failed (s.fail e) (some e)

theorem relayAttempts_cons (settings : RetrySettings) (groups : GroupRatioSetting) (a : Attempt)
    (attempts : List Attempt) (s : Trying) :
    relayAttempts settings groups (a :: attempts) s =
      match relayRound settings groups a s with
      | .running s => relayAttempts settings groups attempts s
      | tried => tried := by
  rw [relayAttempts]
  unfold relayRound
  by_cases hover : settings.retryTimes < s.p.retry
  · rw [if_pos hover, if_pos hover]
  rw [if_neg hover, if_neg hover]
  generalize getChannel settings.toSelectSettings groups a s = got
  obtain ⟨s', e⟩ := got
  cases e with
  | some e => rfl
  | none =>
    cases a.bodyFault with
    | some e => rfl
    | none =>
      cases a.reply with
      | served ctx otherRatios usage => rfl
      | failed e =>
        dsimp only
        split
        · rfl
        · rfl

/-- The channel of an attempt: `first` is in the context of the request, a retry selects
one. -/
def attemptChannel (settings : SelectSettings) (first : ℕ) (a : Attempt) (s : Trying) : Option ℕ :=
  if !s.channelMeta then some first
  else (cacheGetRandomSatisfiedChannel settings a.satisfied s.info.tokenGroup s.c s.p).1.channel

/-- `use_channel`: the channels of the attempts, each with its group. -/
def useChannel (settings : RetrySettings) (groups : GroupRatioSetting) (first : ℕ) :
    List Attempt → Trying → List (String × Option ℕ)
  | [], _ => []
  | a :: attempts, s =>
    if settings.retryTimes < s.p.retry then []
    else match getChannel settings.toSelectSettings groups a s with
      | (_, some _) => []
      | (used, none) =>
        (used.group, attemptChannel settings.toSelectSettings first a s) ::
          match relayRound settings groups a s with
          | .running s => useChannel settings groups first attempts s
          | _ => []

end Relay
