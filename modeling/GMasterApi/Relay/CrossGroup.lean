import GMasterApi.Relay.Distribute

/-!
# Retries across the groups

The counter of a token of group `auto` goes back to 0 when its attempts leave a group,
while the index in the context goes on; a group that has no channel is skipped at once.
`visitsGroups_iff` says when the attempts go through the groups in their order, `R + 1`
in each.
-/

namespace Relay

open Billing Pricing Channels GoMap GoSlice

/-- A request of a token of group `auto` that retries across the groups, over channels
that do not change. -/
structure CrossGroup (tables : Tables) where
  snapshot : Snapshot tables
  settings : RetrySettings
  groups : GroupRatioSetting
  info : RelayInfo
  /-- The channel that the token names. -/
  specificChannelId : Option ℕ
  /-- The channel that affinity prefers. -/
  preferredChannelID : Option ℕ
  skipRetryAfterAffinityFailure : Bool
  retryTimes_pos : 1 ≤ settings.retryTimes
  cross : settings.crossGroupRetry = true
  tokenGroup : info.tokenGroup = "auto"
  usingGroup : info.usingGroup = "auto"
  -- the auto groups of the user are some of the auto groups
  enabled : settings.userAutoGroups ≠ [] → settings.autoGroupsEnabled = true

namespace CrossGroup

variable {tables : Tables} (request : CrossGroup tables)

/-- The selection of a channel for the model; `draws` is what the random source holds. -/
def satisfied (draws : String → ℕ → ℕ) : Satisfied := fun group retry =>
  (request.snapshot.select group request.info.originModelName retry (draws group retry)).map
    fun channel => channel.map Channel.id

def env : DistributeEnv where
  specificChannel := request.specificChannelId.map tables.channels.find
  preferred := request.preferredChannelID.bind request.snapshot.cacheGetChannel
  skipRetryAfterAffinityFailure := request.skipRetryAfterAffinityFailure

def isEnabled (group : String) (id : ℕ) : Bool :=
  request.snapshot.isEnabled group request.info.originModelName id

def distributed (draws : String → ℕ → ℕ) : Context × Except DistributeError ℕ :=
  distribute request.settings.toSelectSettings request.env request.isEnabled
    (request.satisfied draws) request.info.usingGroup ⟨none, none⟩

/-- An attempt that selects from the same channels and fails with an error that is
retried. -/
structure Failing (a : Attempt) : Prop where
  satisfied : ∃ draws, a.satisfied = request.satisfied draws
  setupFault : a.setupFault = none
  bodyFault : a.bodyFault = none
  reply : ∃ e, a.reply = .failed e ∧ shouldRetry request.settings e 1 = true

/-- The priority of a channel. -/
def priorityOf (tables : Tables) (id : ℕ) : Option ℤ := (tables.channels.find id).map Channel.getPriority

/-- The attempts that are made, each by its group and the priority of its channel. -/
def visits (draws : String → ℕ → ℕ) (attempts : List Attempt) : List (String × Option ℤ) :=
  match request.distributed draws with
  | (_, .error _) => []
  | (c, .ok first) =>
    (useChannel request.settings request.groups first attempts (.start c request.info)).map
      fun used => (used.1, used.2.bind (priorityOf tables))

/-- The request ends for want of a channel: in the middleware, or in a retry. -/
def Ends (draws : String → ℕ → ℕ) (attempts : List Attempt) : Prop :=
  match request.distributed draws with
  | (_, .error e) => ∃ group, e = .noAvailableChannel group ∨ ∃ text, e = .getChannelFailed group text
  | (c, .ok _) => ∃ s e, relayAttempts request.settings request.groups attempts
      (.start c request.info) = .failed s (some e) ∧ e.errorCode = "get_channel_failed"

/-- The priorities that the group has for the model. -/
def priorities (group : String) : List ℤ :=
  request.snapshot.priorities group request.info.originModelName

/-- The attempts in one group: the `k`-th is on the level `k`, or on the last one. -/
def groupVisits (group : String) : List (String × Option ℤ) :=
  if request.priorities group = [] then []
  else (List.range (request.settings.retryTimes + 1)).map fun k =>
    (group, level (request.priorities group) k)

/-- The groups in order. -/
def schedule : List (String × Option ℤ) :=
  request.settings.userAutoGroups.flatMap request.groupVisits

def bound : ℕ := (request.settings.retryTimes + 1) * request.settings.userAutoGroups.length

/-- **Retries visit the groups in order**, completely, and stop. -/
structure VisitsGroups (draws : String → ℕ → ℕ) (attempts : ℕ → Attempt) : Prop where
  visits : ∀ n, request.bound < n →
    request.visits draws ((List.range n).map attempts) = request.schedule
  ends : ∀ n, request.bound < n → request.Ends draws ((List.range n).map attempts)
  bounded : ∀ n, (request.visits draws ((List.range n).map attempts)).length ≤ request.bound

/-- The channel is of the highest priority of the first group. -/
def Leads (group : String) (channel : Channel) : Prop :=
  request.settings.userAutoGroups.head? = some group ∧
    level (request.priorities group) 0 = some channel.getPriority

/-- The middleware selects the channel, or it has one that leads. -/
def InOrder : Prop :=
  match request.env.specificChannel, request.env.preferred with
  | some none, _ => False
  | some (some channel), _ => channel.status = .enabled ∧ request.Leads "auto" channel
  | none, none => True
  | none, some preferred =>
    if preferred.status ≠ .enabled then request.skipRetryAfterAffinityFailure = false
    else ∀ group, request.settings.userAutoGroups.find? (request.isEnabled · preferred.id) =
      some group → request.Leads group preferred

/-! ## What remains to be visited -/

/-- The attempts from the priority `k` of the first of the groups. -/
def pending : List String → ℕ → List (String × Option ℤ)
  | [], _ => []
  | group :: groups, k =>
    if request.priorities group = [] then pending groups 0
    else ((List.range' k (request.settings.retryTimes + 1 - k)).map fun n =>
      (group, level (request.priorities group) n)) ++ pending groups 0

variable {request} {group : String} {groups : List String} {k : ℕ}

theorem pending_zero : request.pending groups 0 = groups.flatMap request.groupVisits := by
  induction groups with
  | nil => rfl
  | cons group groups ih =>
    rw [pending, List.flatMap_cons, groupVisits, ih]
    split
    · rfl
    · rw [List.range_eq_range', Nat.sub_zero]

theorem pending_skip (h : request.priorities group = []) :
    request.pending (group :: groups) k = request.pending groups 0 := by
  rw [pending, if_pos h]

/-- An attempt in a group is followed by the next one there, or by the next group. -/
theorem pending_visit (h : request.priorities group ≠ []) (hk : k ≤ request.settings.retryTimes) :
    request.pending (group :: groups) k =
      (group, level (request.priorities group) k) ::
        if request.settings.retryTimes ≤ k then request.pending groups 0
        else request.pending (group :: groups) (k + 1) := by
  obtain ⟨n, hn⟩ : ∃ n, request.settings.retryTimes + 1 - k = n + 1 :=
    ⟨request.settings.retryTimes - k, by omega⟩
  rw [pending, if_neg h, hn, List.range'_succ, List.map_cons, List.cons_append]
  congr 1
  by_cases hlast : request.settings.retryTimes ≤ k
  · have hzero : n = 0 := by omega
    rw [if_pos hlast, hzero]
    rfl
  · have hrest : request.settings.retryTimes + 1 - (k + 1) = n := by omega
    rw [if_neg hlast, pending, if_neg h, hrest]

theorem length_pending_le :
    (request.pending groups 0).length ≤ (request.settings.retryTimes + 1) * groups.length := by
  induction groups with
  | nil => exact Nat.zero_le _
  | cons group groups ih =>
    rw [pending, List.length_cons, Nat.mul_succ]
    split
    · omega
    · rw [List.length_append, List.length_map, List.length_range']
      omega

/-! ## A selection -/

variable {draws : String → ℕ → ℕ}

theorem satisfied_none (h : request.priorities group = []) (id : ℕ) :
    request.satisfied draws group k ≠ .ok (some id) := by
  have hnil : request.snapshot.channels group request.info.originModelName = [] :=
    List.map_eq_nil_iff.mp h
  unfold satisfied
  cases hselect : request.snapshot.select group request.info.originModelName k (draws group k) with
  | error e =>
    intro h
    cases h
  | ok found =>
    cases found with
    | none =>
      intro h
      cases h
    | some channel => exact absurd hselect (Snapshot.select_none hnil)

variable (k draws) in
theorem satisfied_some (h : request.priorities group ≠ []) :
    ∃ id, request.satisfied draws group k = .ok (some id) ∧
      priorityOf tables id = level (request.priorities group) k := by
  have hne : request.snapshot.channels group request.info.originModelName ≠ [] := by
    intro hnil
    exact h (List.map_eq_nil_iff.mpr hnil)
  obtain ⟨channel, hselect⟩ := Snapshot.exists_select k (draws group k) hne
  obtain ⟨c, hc, hid, hlevel⟩ := Snapshot.select_some hselect
  refine ⟨channel.id, ?_, ?_⟩
  · unfold satisfied
    rw [hselect]
    rfl
  · unfold priorityOf
    rw [← hid, Snapshot.find_channel hc]
    exact hlevel.symm

/-- A selection makes the first of the visits; after the increase the others remain. -/
structure Makes (request : CrossGroup tables) (selected : Selected) (visit : String × Option ℤ)
    (rest : List (String × Option ℤ)) : Prop where
  channel : ∃ id, selected.channel = some id ∧ priorityOf tables id = visit.2
  group : selected.group = visit.1
  again : selected.p.retry < request.settings.retryTimes
  remain : ∃ i k, selected.c = ⟨some visit.1, some i⟩ ∧ selected.p.increaseRetry = ⟨k, false⟩ ∧
    k ≤ request.settings.retryTimes ∧
      request.pending (request.settings.userAutoGroups.drop i) k = rest

variable (draws) in
/-- A selection from the priority `k` of the group `i` makes the first visit that is
pending, if there is one. -/
theorem selectAuto_makes : ∀ (groups : List String) (i k : ℕ) (c : Context),
    request.settings.userAutoGroups.drop i = groups → k ≤ request.settings.retryTimes →
    (request.pending groups k = [] → (selectAuto request.settings.toSelectSettings
      (request.satisfied draws) groups i k c ⟨k, false⟩).channel = none) ∧
    ∀ visit rest, request.pending groups k = visit :: rest → request.Makes
      (selectAuto request.settings.toSelectSettings (request.satisfied draws) groups i k c
        ⟨k, false⟩) visit rest := by
  intro groups
  induction groups with
  | nil =>
    intro i k c _ _
    refine ⟨fun _ => rfl, ?_⟩
    intro visit rest h
    cases h
  | cons group groups ih =>
    intro i k c hdrop hk
    have htail : request.settings.userAutoGroups.drop (i + 1) = groups := by
      rw [← List.drop_drop, hdrop]
      rfl
    by_cases hnone : request.priorities group = []
    · -- the group has no channel, and the counter goes back to 0
      have hskip : selectAuto request.settings.toSelectSettings (request.satisfied draws)
          (group :: groups) i k c ⟨k, false⟩ =
            selectAuto request.settings.toSelectSettings (request.satisfied draws) groups (i + 1) 0
              { c with autoGroupIndex := some (i + 1) } ⟨0, false⟩ := by
        rw [selectAuto]
        split
        · rename_i id hid
          exact absurd hid (satisfied_none hnone id)
        · rfl
      rw [hskip, pending_skip hnone]
      exact ih (i + 1) 0 _ htail (Nat.zero_le _)
    · obtain ⟨id, hid, hpriority⟩ := satisfied_some k draws hnone
      have hpos := request.retryTimes_pos
      rw [pending_visit hnone hk]
      refine ⟨fun h => absurd h (List.cons_ne_nil _ _), ?_⟩
      intro visit rest h
      obtain ⟨rfl, rfl⟩ := List.cons.inj h
      rw [selectAuto, hid]
      dsimp only
      by_cases hlast : request.settings.retryTimes ≤ k
      · -- the last attempt in the group: the flag holds back one increase
        rw [if_pos ⟨request.cross, hlast⟩, if_pos hlast]
        refine ⟨⟨id, rfl, hpriority⟩, rfl, hpos, i + 1, 0, rfl, rfl, Nat.zero_le _, ?_⟩
        rw [htail]
      · rw [if_neg fun h => hlast h.2, if_neg hlast]
        have hlt : k < request.settings.retryTimes := by omega
        refine ⟨⟨id, rfl, hpriority⟩, rfl, hlt, i, k + 1, rfl, rfl, hlt, ?_⟩
        rw [hdrop]

variable (draws) in
/-- `CacheGetRandomSatisfiedChannel` from there. -/
theorem select_none (c : Context) (hk : k ≤ request.settings.retryTimes)
    (h : request.pending (request.settings.userAutoGroups.drop (c.autoGroupIndex.getD 0)) k = []) :
    (cacheGetRandomSatisfiedChannel request.settings.toSelectSettings (request.satisfied draws)
      "auto" c ⟨k, false⟩).1.channel = none := by
  unfold cacheGetRandomSatisfiedChannel
  rw [if_pos rfl]
  split
  · rfl
  · exact (selectAuto_makes draws _ _ k c rfl hk).1 h

variable (draws) in
theorem select_makes (c : Context) {visit : String × Option ℤ} {rest : List (String × Option ℤ)}
    (hk : k ≤ request.settings.retryTimes)
    (h : request.pending (request.settings.userAutoGroups.drop (c.autoGroupIndex.getD 0)) k =
      visit :: rest) :
    ∃ selected, cacheGetRandomSatisfiedChannel request.settings.toSelectSettings
        (request.satisfied draws) "auto" c ⟨k, false⟩ = (selected, .ok ()) ∧
      request.Makes selected visit rest := by
  have henabled : request.settings.autoGroupsEnabled = true := by
    refine request.enabled fun hnil => ?_
    rw [hnil, List.drop_nil] at h
    cases h
  refine ⟨_, ?_, (selectAuto_makes draws _ _ k c rfl hk).2 visit rest h⟩
  unfold cacheGetRandomSatisfiedChannel
  rw [if_pos rfl, henabled]
  rfl

/-! ## A round, and the rounds that remain -/

theorem shouldRetry_pos {settings : RetrySettings} {e : RelayError} {n : ℤ}
    (h : shouldRetry settings e 1 = true) (hn : 0 < n) : shouldRetry settings e n = true := by
  unfold shouldRetry at h ⊢
  rw [if_neg (c := (1 : ℤ) ≤ 0) (by decide)] at h
  rw [if_neg (c := n ≤ 0) (by omega)]
  exact h

/-- A failing attempt of a channel is followed by another. -/
theorem round_running {s s' : Trying} {a : Attempt} (ha : request.Failing a)
    (hretry : s.p.retry ≤ request.settings.retryTimes)
    (hget : getChannel request.settings.toSelectSettings request.groups a s = (s', none))
    (hagain : s'.p.retry < request.settings.retryTimes) :
    ∃ e, relayRound request.settings request.groups a s =
      .running { s'.fail e with p := s'.p.increaseRetry } := by
  obtain ⟨e, hreply, hshould⟩ := ha.reply
  refine ⟨e, ?_⟩
  unfold relayRound
  rw [if_neg (by omega), hget, ha.bodyFault, hreply]
  dsimp only
  rw [if_pos (shouldRetry_pos hshould (by omega))]

/-- After an attempt, with the visits that remain. -/
structure Waiting (request : CrossGroup tables) (s : Trying) (rest : List (String × Option ℤ)) :
    Prop where
  channelMeta : s.channelMeta = true
  tokenGroup : s.info.tokenGroup = "auto"
  remain : ∃ k, s.p = ⟨k, false⟩ ∧ k ≤ request.settings.retryTimes ∧
    request.pending (request.settings.userAutoGroups.drop (s.c.autoGroupIndex.getD 0)) k = rest

variable {s : Trying} {a : Attempt} {visit : String × Option ℤ} {rest : List (String × Option ℤ)}

theorem Waiting.retry_le (h : request.Waiting s rest) :
    s.p.retry ≤ request.settings.retryTimes := by
  obtain ⟨k, hp, hk, -⟩ := h.remain
  rw [hp]
  exact hk

/-- Where nothing remains, the retry finds no channel. -/
theorem Waiting.finish (h : request.Waiting s []) (ha : request.Failing a) :
    ∃ s' e, getChannel request.settings.toSelectSettings request.groups a s = (s', some e) ∧
      e.errorCode = "get_channel_failed" := by
  obtain ⟨draws, hsatisfied⟩ := ha.satisfied
  obtain ⟨k, hp, hk, hpending⟩ := h.remain
  have hnone := select_none draws s.c hk hpending
  unfold getChannel
  rw [h.channelMeta, h.tokenGroup, hsatisfied, hp]
  generalize cacheGetRandomSatisfiedChannel request.settings.toSelectSettings
    (request.satisfied draws) "auto" s.c ⟨k, false⟩ = out at hnone ⊢
  obtain ⟨selected, result⟩ := out
  dsimp only at hnone ⊢
  rw [hnone]
  cases result with
  | error e => exact ⟨_, _, rfl, rfl⟩
  | ok x => exact ⟨_, _, rfl, rfl⟩

/-- Where a visit remains, the retry makes it. -/
theorem Waiting.round (h : request.Waiting s (visit :: rest)) (ha : request.Failing a) :
    ∃ s' s'', getChannel request.settings.toSelectSettings request.groups a s = (s', none) ∧
      s'.group = visit.1 ∧
      (∀ first, (attemptChannel request.settings.toSelectSettings first a s).bind
        (priorityOf tables) = visit.2) ∧
      relayRound request.settings request.groups a s = .running s'' ∧
      request.Waiting s'' rest := by
  obtain ⟨draws, hsatisfied⟩ := ha.satisfied
  obtain ⟨k, hp, hk, hpending⟩ := h.remain
  obtain ⟨selected, hselect, hmakes⟩ := select_makes draws s.c hk hpending
  obtain ⟨id, hid, hpriority⟩ := hmakes.channel
  obtain ⟨i, n, hc, hincrease, hn, hrest⟩ := hmakes.remain
  have hget : ∃ info : RelayInfo, info.tokenGroup = "auto" ∧
      getChannel request.settings.toSelectSettings request.groups a s =
        (⟨selected.c, selected.p, info, true, s.lastError, selected.group⟩, none) := by
    unfold getChannel
    rw [h.channelMeta, h.tokenGroup, hsatisfied, hp, hselect]
    dsimp only
    rw [hid, ha.setupFault]
    exact ⟨s.info.regroup _, h.tokenGroup, rfl⟩
  obtain ⟨info, htoken, hget⟩ := hget
  obtain ⟨e, hround⟩ := round_running ha h.retry_le hget hmakes.again
  refine ⟨_, _, hget, hmakes.group, fun first => ?_, hround, rfl, htoken, n, hincrease, hn, ?_⟩
  · unfold attemptChannel
    rw [h.channelMeta, h.tokenGroup, hsatisfied, hp, hselect]
    dsimp only [Bool.not_true]
    rw [hid]
    exact hpriority
  · show request.pending (request.settings.userAutoGroups.drop (selected.c.autoGroupIndex.getD 0))
      n = rest
    rw [hc]
    exact hrest

/-- The rounds make the visits that remain, and find no channel then. -/
theorem Waiting.rounds (first : ℕ) : ∀ (attempts : List Attempt) {s : Trying}
    {rest : List (String × Option ℤ)}, request.Waiting s rest →
    (∀ a ∈ attempts, request.Failing a) →
    (useChannel request.settings request.groups first attempts s).map
        (fun used => (used.1, used.2.bind (priorityOf tables))) =
      rest.take attempts.length ∧
    (rest.length < attempts.length → ∃ s' e, relayAttempts request.settings request.groups attempts
      s = .failed s' (some e) ∧ e.errorCode = "get_channel_failed") := by
  intro attempts
  induction attempts with
  | nil =>
    intro s rest _ _
    exact ⟨rfl, fun hlt => absurd hlt (Nat.not_lt_zero _)⟩
  | cons a attempts ih =>
    intro s rest h hfail
    have ha := hfail a List.mem_cons_self
    have hle := h.retry_le
    rw [useChannel, if_neg (by omega), relayAttempts_cons]
    cases rest with
    | nil =>
      obtain ⟨s', e, hget, hcode⟩ := h.finish ha
      refine ⟨by rw [hget]; rfl, fun _ => ⟨s', e, ?_, hcode⟩⟩
      unfold relayRound
      rw [if_neg (by omega), hget]
    | cons visit rest =>
      obtain ⟨s', s'', hget, hgroup, hchannel, hround, hwaiting⟩ := h.round ha
      obtain ⟨hused, hends⟩ := ih hwaiting fun b hb => hfail b (List.mem_cons_of_mem _ hb)
      rw [hget, hround]
      dsimp only
      refine ⟨?_, fun hlt => hends ?_⟩
      · rw [List.map_cons, hused, hgroup, hchannel first]
        rfl
      · rw [List.length_cons, List.length_cons] at hlt
        omega

/-- The first attempt has the channel of the middleware; the others go on from the index
that is in the context. -/
theorem start_rounds (c : Context) (first : ℕ) {attempts : List Attempt}
    (hfail : ∀ b ∈ a :: attempts, request.Failing b) :
    (useChannel request.settings request.groups first (a :: attempts)
        (.start c request.info)).map
        (fun used => (used.1, used.2.bind (priorityOf tables))) =
      (c.autoGroup.getD "auto", priorityOf tables first) ::
        (request.pending (request.settings.userAutoGroups.drop (c.autoGroupIndex.getD 0)) 1).take
          attempts.length ∧
    ((request.pending (request.settings.userAutoGroups.drop (c.autoGroupIndex.getD 0)) 1).length <
        attempts.length → ∃ s' e, relayAttempts request.settings request.groups (a :: attempts)
      (.start c request.info) = .failed s' (some e) ∧ e.errorCode = "get_channel_failed") := by
  have ha := hfail a List.mem_cons_self
  have hget : getChannel request.settings.toSelectSettings request.groups a
      (.start c request.info) = (.start c request.info, none) := rfl
  obtain ⟨e, hround⟩ := round_running ha (Nat.zero_le _) hget request.retryTimes_pos
  have hwaiting : request.Waiting
      { (Trying.start c request.info).fail e with p := ⟨1, false⟩ }
      (request.pending (request.settings.userAutoGroups.drop (c.autoGroupIndex.getD 0)) 1) :=
    ⟨rfl, request.tokenGroup, 1, rfl, request.retryTimes_pos, rfl⟩
  obtain ⟨hused, hends⟩ := hwaiting.rounds first attempts fun b hb =>
    hfail b (List.mem_cons_of_mem _ hb)
  have hstart : ¬ request.settings.retryTimes < (Trying.start c request.info).p.retry :=
    Nat.not_lt_zero _
  rw [useChannel, if_neg hstart, relayAttempts_cons, hget, hround]
  refine ⟨?_, hends⟩
  dsimp only
  rw [List.map_cons]
  refine congrArg₂ List.cons ?_ hused
  show (c.autoGroup.getD request.info.usingGroup, priorityOf tables first) = _
  rw [request.usingGroup]

/-! ## The whole request -/

theorem length_schedule_le : request.schedule.length ≤ request.bound := by
  unfold schedule bound
  rw [← pending_zero]
  exact length_pending_le

/-- A request that has its first channel visits the groups in order, if that attempt and
those that are pending after it are the whole schedule. -/
theorem visitsGroups_started {c : Context} {first : ℕ} {attempts : ℕ → Attempt}
    (hd : request.distributed draws = (c, .ok first)) (hfail : ∀ n, request.Failing (attempts n)) :
    request.VisitsGroups draws attempts ↔
      (c.autoGroup.getD "auto", priorityOf tables first) ::
        request.pending (request.settings.userAutoGroups.drop (c.autoGroupIndex.getD 0)) 1 =
      request.schedule := by
  set tail := request.pending (request.settings.userAutoGroups.drop (c.autoGroupIndex.getD 0)) 1
    with htail
  have hsplit : ∀ n, (List.range (n + 1)).map attempts =
      attempts 0 :: (List.range n).map fun i => attempts (i + 1) := by
    intro n
    rw [List.range_succ_eq_map, List.map_cons, List.map_map]
    rfl
  have hall : ∀ n, ∀ a ∈ attempts 0 :: (List.range n).map (fun i => attempts (i + 1)),
      request.Failing a := by
    intro n a ha
    rw [← hsplit] at ha
    obtain ⟨i, -, rfl⟩ := List.mem_map.mp ha
    exact hfail i
  have hvisits : ∀ n, request.visits draws ((List.range (n + 1)).map attempts) =
      (c.autoGroup.getD "auto", priorityOf tables first) :: tail.take n := by
    intro n
    unfold visits
    rw [hd, hsplit]
    dsimp only
    rw [(start_rounds c first (hall n)).1, List.length_map, List.length_range]
  constructor
  · intro h
    have hlast := h.visits (request.bound + tail.length + 1) (by omega)
    rw [hvisits, List.take_of_length_le (by omega)] at hlast
    exact hlast
  · intro h
    have hlength : tail.length + 1 ≤ request.bound := by
      rw [← List.length_cons (a := (c.autoGroup.getD "auto", priorityOf tables first)), h]
      exact length_schedule_le
    constructor
    case visits =>
      intro n hn
      obtain ⟨n, rfl⟩ := Nat.exists_eq_add_one_of_ne_zero (show n ≠ 0 by omega)
      rw [hvisits, List.take_of_length_le (by omega)]
      exact h
    case ends =>
      intro n hn
      obtain ⟨n, rfl⟩ := Nat.exists_eq_add_one_of_ne_zero (show n ≠ 0 by omega)
      unfold Ends
      rw [hd, hsplit]
      refine (start_rounds c first (hall n)).2 ?_
      rw [List.length_map, List.length_range]
      show tail.length < n
      omega
    case bounded =>
      intro n
      cases n with
      | zero =>
        unfold visits
        rw [hd]
        exact Nat.zero_le _
      | succ n =>
        rw [hvisits, List.length_cons, List.length_take]
        omega

/-- A selection from the priority 0 does not move the counter. -/
theorem selectAuto_param {satisfied : Satisfied} : ∀ (groups : List String) (i : ℕ) (c : Context),
    (selectAuto request.settings.toSelectSettings satisfied groups i 0 c ⟨0, false⟩).p =
      ⟨0, false⟩ := by
  have hpos := request.retryTimes_pos
  intro groups
  induction groups with
  | nil =>
    intro i c
    rfl
  | cons group groups ih =>
    intro i c
    rw [selectAuto]
    split
    · rw [if_neg fun h => absurd h.2 (by omega)]
    · exact ih (i + 1) _

/-- Where the middleware selects the channel, the groups are visited in order. -/
theorem visitsGroups_selected {attempts : ℕ → Attempt}
    (hd : request.distributed draws = distributeSelect request.settings.toSelectSettings
      (request.satisfied draws) "auto" ⟨none, none⟩)
    (hfail : ∀ n, request.Failing (attempts n)) : request.VisitsGroups draws attempts := by
  cases hpending : request.pending request.settings.userAutoGroups 0 with
  | nil =>
    have hnone := select_none draws ⟨none, none⟩ (Nat.zero_le _) hpending
    have herror : ∃ c e, request.distributed draws = (c, .error e) ∧
        ∃ group, e = .noAvailableChannel group ∨ ∃ text, e = .getChannelFailed group text := by
      rw [hd, distributeSelect]
      generalize cacheGetRandomSatisfiedChannel request.settings.toSelectSettings
        (request.satisfied draws) "auto" ⟨none, none⟩ ⟨0, false⟩ = out at hnone ⊢
      obtain ⟨selected, result⟩ := out
      dsimp only at hnone ⊢
      cases result with
      | error e => exact ⟨_, _, rfl, selected.group, .inr ⟨e, rfl⟩⟩
      | ok x =>
        dsimp only
        rw [hnone]
        exact ⟨_, _, rfl, "auto", .inl rfl⟩
    obtain ⟨c, e, hd, hend⟩ := herror
    have hschedule : request.schedule = [] := pending_zero.symm.trans hpending
    constructor
    case visits =>
      intro n _
      unfold visits
      rw [hd, hschedule]
    case ends =>
      intro n _
      unfold Ends
      rw [hd]
      exact hend
    case bounded =>
      intro n
      unfold visits
      rw [hd]
      exact Nat.zero_le _
  | cons visit rest =>
    obtain ⟨selected, hselect, hmakes⟩ :=
      select_makes draws ⟨none, none⟩ (Nat.zero_le _) hpending
    obtain ⟨id, hid, hpriority⟩ := hmakes.channel
    obtain ⟨i, k, hc, hincrease, -, hrest⟩ := hmakes.remain
    have hstarted : request.distributed draws = (selected.c, .ok id) := by
      rw [hd, distributeSelect, hselect]
      dsimp only
      rw [hid]
    -- the counter of the middleware is left where that of `Relay` begins
    have hk : k = 1 := by
      have hparam : selected.p = ⟨0, false⟩ := by
        unfold cacheGetRandomSatisfiedChannel at hselect
        rw [if_pos rfl] at hselect
        split at hselect
        · cases hselect
        · rw [← (Prod.mk.inj hselect).1]
          exact selectAuto_param _ _ _
      rw [hparam] at hincrease
      exact (RetryParam.mk.inj hincrease).1.symm
    rw [visitsGroups_started hstarted hfail, hc, hpriority]
    show (visit.1, visit.2) :: request.pending (request.settings.userAutoGroups.drop i) 1 = _
    rw [← hk, hrest, ← hpending]
    exact pending_zero

/-- A channel that is given before leads, or the groups are not visited in order. -/
theorem pending_leads {p : ℤ} {gs : List String} :
    (group, some p) :: request.pending gs 1 = request.pending gs 0 ↔
      gs.head? = some group ∧ level (request.priorities group) 0 = some p := by
  have hpos := request.retryTimes_pos
  cases gs with
  | nil =>
    constructor
    · intro h
      cases h
    · rintro ⟨h, -⟩
      cases h
  | cons g gs =>
    rw [List.head?_cons, Option.some.injEq]
    by_cases hnone : request.priorities g = []
    · rw [pending_skip hnone, pending_skip hnone]
      constructor
      · intro h
        exact absurd (congrArg List.length h) (Nat.succ_ne_self _)
      · rintro ⟨rfl, h⟩
        have hmem := level_mem h
        rw [hnone] at hmem
        cases hmem
    · rw [pending_visit (k := 0) hnone (Nat.zero_le _), if_neg (by omega), List.cons.injEq,
        Prod.mk.injEq]
      constructor
      · rintro ⟨⟨rfl, h⟩, -⟩
        exact ⟨rfl, h.symm⟩
      · rintro ⟨rfl, h⟩
        exact ⟨⟨rfl, h.symm⟩, rfl⟩

theorem visitsGroups_given {c : Context} {channel : Channel} {attempts : ℕ → Attempt}
    (hd : request.distributed draws = (c, .ok channel.id)) (hindex : c.autoGroupIndex = none)
    (hpriority : priorityOf tables channel.id = some channel.getPriority)
    (hfail : ∀ n, request.Failing (attempts n)) :
    request.VisitsGroups draws attempts ↔ request.Leads (c.autoGroup.getD "auto") channel := by
  rw [visitsGroups_started hd hfail, hpriority, hindex, schedule, ← pending_zero]
  exact pending_leads

theorem visitsGroups_aborted {c : Context} {e : DistributeError} {attempts : ℕ → Attempt}
    (hd : request.distributed draws = (c, .error e))
    (he : ∀ group, e ≠ .noAvailableChannel group ∧ ∀ text, e ≠ .getChannelFailed group text) :
    ¬ request.VisitsGroups draws attempts := by
  intro h
  have hend := h.ends (request.bound + 1) (Nat.lt_succ_self _)
  unfold Ends at hend
  rw [hd] at hend
  obtain ⟨group, heq | ⟨text, heq⟩⟩ := hend
  · exact (he group).1 heq
  · exact (he group).2 text heq

/-- **Retries across the groups**: the attempts, if all of them fail, go through the
groups of the user in order, `R + 1` in each that has a channel, by falling priority, and
stop there, if and only if the middleware selects the first channel or has one that
leads. -/
theorem visitsGroups_iff (request : CrossGroup tables) (draws : String → ℕ → ℕ)
    (attempts : ℕ → Attempt) (hfail : ∀ n, request.Failing (attempts n)) :
    request.VisitsGroups draws attempts ↔ request.InOrder := by
  have hdistributed : request.distributed draws = distribute request.settings.toSelectSettings
      request.env request.isEnabled (request.satisfied draws) "auto" ⟨none, none⟩ := by
    unfold distributed
    rw [request.usingGroup]
  unfold distribute at hdistributed
  unfold InOrder
  cases hspecific : request.env.specificChannel with
  | some found =>
    rw [hspecific] at hdistributed
    cases found with
    | none =>
      refine iff_of_false (visitsGroups_aborted hdistributed fun group => ⟨?_, fun text => ?_⟩) id
      · intro h
        cases h
      · intro h
        cases h
    | some channel =>
      dsimp only at hdistributed ⊢
      by_cases hstatus : channel.status = .enabled
      · rw [if_neg (not_not.mpr hstatus)] at hdistributed
        obtain ⟨i, hi, hfind⟩ := Option.map_eq_some_iff.mp hspecific
        have hpriority : priorityOf tables channel.id = some channel.getPriority := by
          unfold priorityOf
          rw [(Table.find_eq_some_iff.mp hfind).2, hfind]
          rfl
        rw [visitsGroups_given hdistributed rfl hpriority hfail]
        exact (and_iff_right hstatus).symm
      · rw [if_pos hstatus] at hdistributed
        refine iff_of_false (visitsGroups_aborted hdistributed fun group => ⟨?_, fun text => ?_⟩)
          fun h => hstatus h.1
        · intro h
          cases h
        · intro h
          cases h
  | none =>
    rw [hspecific] at hdistributed
    cases hpreferred : request.env.preferred with
    | none =>
      rw [hpreferred] at hdistributed
      exact iff_of_true (visitsGroups_selected hdistributed hfail) trivial
    | some preferred =>
      rw [hpreferred] at hdistributed
      dsimp only at hdistributed ⊢
      by_cases hstatus : preferred.status ≠ .enabled
      · rw [if_pos hstatus] at hdistributed ⊢
        cases hskip : request.skipRetryAfterAffinityFailure with
        | true =>
          have hfinal : request.env.skipRetryAfterAffinityFailure = true := hskip
          rw [if_pos hfinal] at hdistributed
          refine iff_of_false (visitsGroups_aborted hdistributed fun group =>
            ⟨?_, fun text => ?_⟩) fun h => by cases h
          · intro h
            cases h
          · intro h
            cases h
        | false =>
          have hfinal : ¬ request.env.skipRetryAfterAffinityFailure = true := by
            show ¬ request.skipRetryAfterAffinityFailure = true
            rw [hskip]
            exact Bool.false_ne_true
          rw [if_neg hfinal] at hdistributed
          exact iff_of_true (visitsGroups_selected hdistributed hfail) rfl
      · rw [if_neg hstatus] at hdistributed ⊢
        unfold preferredChannel at hdistributed
        rw [if_pos rfl] at hdistributed
        cases hfind : request.settings.userAutoGroups.find? (request.isEnabled · preferred.id) with
        | none =>
          rw [hfind] at hdistributed
          refine iff_of_true (visitsGroups_selected hdistributed hfail) fun group h => by cases h
        | some group =>
          rw [hfind] at hdistributed
          obtain ⟨i, -, hget⟩ := Option.bind_eq_some_iff.mp hpreferred
          rw [visitsGroups_given hdistributed rfl (Snapshot.cacheGetChannel_priority hget) hfail]
          constructor
          · rintro h g hg
            cases hg
            exact h
          · intro h
            exact h group rfl

end CrossGroup

/-! ## A request over two groups -/

/-- The channel 1 is of the first group, the channel 2 of the second. -/
def twoGroups : Tables where
  channels := ⟨[sampleChannel 1 "gpt-4" 0, { sampleChannel 2 "gpt-4" 0 with group := "vip" }],
    by decide⟩
  abilities := ⟨(sampleChannel 1 "gpt-4" 0).addAbilities ++
    Channel.addAbilities { sampleChannel 2 "gpt-4" 0 with group := "vip" }, by decide +kernel⟩
  consistent a := by
    rw [List.mem_append, List.exists_mem_cons_iff, List.exists_mem_cons_iff]
    simp
  positive c hc := by
    rcases List.mem_cons.mp hc with rfl | hc
    · exact Nat.one_pos
    · rw [List.mem_singleton.mp hc]
      exact Nat.two_pos

def crossRequest (preferred : Option ℕ) : CrossGroup twoGroups where
  snapshot := .database (.stable Ability)
  settings :=
    { autoGroupsEnabled := true
      userAutoGroups := ["default", "vip"]
      crossGroupRetry := true
      retryTimes := 1
      affinityFailure := false
      specificChannel := false
      isAlwaysSkipRetryCode _ := false
      shouldRetryByStatusCode code := decide (500 ≤ code) }
  groups := ⟨fun _ => none, fun _ => none⟩
  info :=
    { sampleInfo with
      usingGroup := "auto"
      userGroup := "default"
      tokenGroup := "auto"
      originModelName := "gpt-4"
      acceptUnsetRatioModel := false
      estimatePromptTokens := 50
      priceData := .zero
      tieredBillingSnapshot := none
      billingRequestInput := none
      billing := none }
  specificChannelId := none
  preferredChannelID := preferred
  skipRetryAfterAffinityFailure := false
  retryTimes_pos := le_refl 1
  cross := rfl
  tokenGroup := rfl
  usingGroup := rfl
  enabled _ := rfl

/-- The upstream is down. -/
def downAttempt (preferred : Option ℕ) : Attempt where
  satisfied := (crossRequest preferred).satisfied fun _ _ => 0
  setupFault := none
  bodyFault := none
  reply := .failed ⟨"upstream error", "bad_response_status_code", 500, false⟩

theorem downAttempt_failing (preferred : Option ℕ) :
    (crossRequest preferred).Failing (downAttempt preferred) where
  satisfied := ⟨fun _ _ => 0, rfl⟩
  setupFault := rfl
  bodyFault := rfl
  reply := by
    refine ⟨_, rfl, ?_⟩
    show shouldRetry (crossRequest none).settings _ 1 = true
    decide +kernel

theorem visitsGroups_iff_sample :
    (crossRequest none).VisitsGroups (fun _ _ => 0) (fun _ => downAttempt none) :=
  (CrossGroup.visitsGroups_iff (crossRequest none) (fun _ _ => 0) (fun _ => downAttempt none)
    fun _ => downAttempt_failing none).mpr trivial

/-- The channel 2 served the like before: the first attempt is in the second group, the
next one in the first group. -/
theorem visitsGroups_preferred :
    ¬ (crossRequest (some 2)).VisitsGroups (fun _ _ => 0) (fun _ => downAttempt (some 2)) := by
  intro h
  have hfirst : (crossRequest (some 2)).visits (fun _ _ => 0)
      ((List.range 5).map fun _ => downAttempt (some 2)) =
        [("vip", some 0), ("default", some 0), ("vip", some 0), ("vip", some 0)] := by
    decide +kernel
  have hschedule : (crossRequest (some 2)).schedule =
      [("default", some 0), ("default", some 0), ("vip", some 0), ("vip", some 0)] := by
    decide +kernel
  have hvisits := h.visits 5 (by decide)
  rw [hfirst, hschedule] at hvisits
  exact absurd hvisits (by decide)

end Relay
