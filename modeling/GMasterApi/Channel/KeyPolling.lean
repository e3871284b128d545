import GMasterApi.Channel.KeyStatus

/-!
# Keys that are polled

Without the memory cache a request loads the row of its channel, takes the next key
that is enabled in what it loaded, and writes the whole `channel_info` back to advance
the polling index.  `UpdateChannelStatus` loads the row and writes all of it back.  The
locks are those of one process, so a run is any order of the statements of the calls.

A key that has been reported disabled stays so in exactly the runs that write nothing
that was loaded before (`stays_disabled_iff`).
-/

namespace Channels

open GoMap Transition

/-! ## `GetNextEnabledKey` -/

structure KeyError where
  message : String
  errorCode : String
  skipRetry : Bool
  deriving DecidableEq

def noKeysAvailable : KeyError := ⟨"no keys available", "channel:no_available_key", false⟩

def noEnabledKeys : KeyError := ⟨"no enabled keys", "channel:no_available_key", false⟩

def getChannelFailed (message : String) : KeyError := ⟨message, "get_channel_failed", true⟩

/-- The indexes of the keys that are enabled. -/
def Channel.enabledIdx (channel : Channel) : List ℕ :=
  (List.range channel.getKeys.length).filter fun i => channel.channelInfo.keyStatus i = .enabled

/-- The first enabled index from `start` on, around the end. -/
def Channel.nextIdx (channel : Channel) (start : ℕ) : Option ℕ :=
  ((List.range channel.getKeys.length).map fun i => (start + i) % channel.getKeys.length).find?
    fun idx => channel.channelInfo.keyStatus idx = .enabled

def Channel.withPollingIndex (channel : Channel) (index : ℤ) : Channel :=
  { channel with channelInfo := { channel.channelInfo with multiKeyPollingIndex := index } }

/-- The key and the index that are returned. -/
def Channel.keyAt (channel : Channel) (idx : ℕ) : String × ℕ :=
  (channel.getKeys[idx]?.getD "", idx)

/-- `GetNextEnabledKey`, and the channel whose info it saves, where it saves one; `draw`
is what `rand.Intn` is taken from, and `cached` what `CacheGetChannelInfo` reads. -/
def Channel.getNextEnabledKey (channel : Channel) (draw : ℕ) (cached : Except String ChannelInfo) :
    Except KeyError (String × ℕ) × Option Channel :=
  if !channel.channelInfo.isMultiKey then (.ok (channel.key, 0), none)
  else if channel.getKeys = [] then (.error noKeysAvailable, none)
  else match channel.enabledIdx with
    | [] => (.error noEnabledKeys, none)
    | first :: rest =>
      match channel.channelInfo.multiKeyMode with
      | .random =>
        let idx := (first :: rest)[draw % (rest.length + 1)]?.getD first
        (.ok (channel.keyAt idx), none)
      | .polling =>
        match cached with
        | .error message => (.error (getChannelFailed message), none)
        | .ok info =>
          let start := info.multiKeyPollingIndex
          let start := if start < 0 ∨ channel.getKeys.length ≤ start then 0 else start.toNat
          match channel.nextIdx start with
          | some idx =>
            (.ok (channel.keyAt idx),
              some (channel.withPollingIndex ((idx + 1) % channel.getKeys.length : ℕ)))
          | none => (.ok (channel.keyAt first), some channel)
      | .other _ => (.ok (channel.keyAt first), none)

/-! ## Calls on one channel -/

/-- What a call holds between two of its statements.  A request carries the keys that were
reported disabled when it loaded the channel. -/
inductive KeyCall
  | loaded (seen : Channel) (shut : List String)
  | picked (saved : Channel) (key : String) (shut : List String)
  | updating (seen : Channel) (usingKey : String) (status : ChannelStatus) (reason : String)
  deriving DecidableEq

/-- The row, the calls under way, the keys that have been reported disabled and not been
enabled since, and the keys that requests were given, each with those that were reported
before it loaded the channel. -/
structure PollState where
  row : Channel
  calls : ℕ → Option KeyCall
  shut : List String
  given : List (String × List String)

def PollState.start (row : Channel) : PollState := ⟨row, fun _ => none, [], []⟩

/-- One statement of a call.  `fail` is a statement that returns an error; the error of
`SaveChannelInfo` is dropped. -/
inductive KeyAction
  | load (i : ℕ)
  | getNextEnabledKey (i draw : ℕ)
  | saveChannelInfo (i : ℕ)
  | getChannelById (i : ℕ) (usingKey : String) (status : ChannelStatus) (reason : String)
  | saveWithoutKey (i : ℕ) (now : ℤ)
  | fail (i : ℕ)

def PollState.withCall (s : PollState) (i : ℕ) (call : Option KeyCall) : PollState :=
  { s with calls := Function.update s.calls i call }

def PollState.give (s : PollState) (key : String) (shut : List String) : PollState :=
  { s with given := s.given ++ [(key, shut)] }

/-- `SaveChannelInfo`. -/
def Channel.saveChannelInfo (row saved : Channel) : Channel :=
  { row with channelInfo := saved.channelInfo }

/-- `SaveWithoutKey`. -/
def Channel.saveWithoutKey (row channel : Channel) : Channel := { channel with key := row.key }

/-- The keys that are reported disabled once `UpdateChannelStatus` has returned true. -/
def report (shut : List String) (usingKey : String) (status : ChannelStatus) : List String :=
  if status = .enabled then shut.filter (· ≠ usingKey) else usingKey :: shut

def PollState.step (s : PollState) : KeyAction → Option PollState
  | .load i =>
    match s.calls i with
    | none => some (s.withCall i (some (.loaded s.row s.shut)))
    | some _ => none
  | .getNextEnabledKey i draw =>
    match s.calls i with
    | some (.loaded seen shut) =>
      match seen.getNextEnabledKey draw (.ok s.row.channelInfo) with
      | (.error _, _) => some (s.withCall i none)
      | (.ok (key, _), none) => some ((s.withCall i none).give key shut)
      | (.ok (key, _), some saved) => some (s.withCall i (some (.picked saved key shut)))
    | _ => none
  | .saveChannelInfo i =>
    match s.calls i with
    | some (.picked saved key shut) =>
      some (({ s with row := s.row.saveChannelInfo saved }.withCall i none).give key shut)
    | _ => none
  | .getChannelById i usingKey status reason =>
    match s.calls i with
    | none =>
      if s.row.status = status then some s
      else some (s.withCall i (some (.updating s.row usingKey status reason)))
    | some _ => none
  | .saveWithoutKey i now =>
    match s.calls i with
    | some (.updating seen usingKey status reason) =>
      some ({ s with
        row := s.row.saveWithoutKey (updateChannelStatus seen usingKey status reason now).1
        shut := report s.shut usingKey status }.withCall i none)
    | _ => none
  | .fail i =>
    match s.calls i with
    | none => none
    | some (.picked _ key shut) => some ((s.withCall i none).give key shut)
    | some _ => some (s.withCall i none)

def keyPolling : System PollState KeyAction := ⟨PollState.step⟩

/-! ## What is promised -/

/-- The key is disabled, wherever it is among the keys. -/
def Channel.Shut (channel : Channel) (key : String) : Prop :=
  ∀ i, channel.getKeys[i]? = some key → channel.channelInfo.keyStatus i ≠ .enabled

/-- A key that was reported disabled is so in the row, and is given to no request that
has loaded the channel since. -/
structure StaysDisabled (s : PollState) : Prop where
  stored : ∀ key ∈ s.shut, s.row.Shut key
  notGiven : ∀ e ∈ s.given, e.1 ∉ e.2

/-- The key is disabled at all its places but the first. -/
def Channel.ShutBeyondFirst (channel : Channel) (key : String) : Prop :=
  ∀ i, channel.getKeys[i]? = some key → channel.getKeys.idxOf? key ≠ some i →
    channel.channelInfo.keyStatus i ≠ .enabled

/-- The condition on a statement that writes: the channel was loaded when all the keys
reported by now were disabled, but for the key that the call is about; that one is
disabled already wherever else it is among the keys. -/
def ReadsShut (s : PollState) : KeyAction → Prop
  | .saveChannelInfo i => ∀ saved key shut, s.calls i = some (.picked saved key shut) →
      ∀ k ∈ s.shut, saved.Shut k
  | .saveWithoutKey i _ => ∀ seen usingKey status reason,
      s.calls i = some (.updating seen usingKey status reason) →
        (∀ k ∈ s.shut, k ≠ usingKey → seen.Shut k) ∧
          (status ≠ .enabled → seen.ShutBeyondFirst usingKey)
  | _ => True

/-! ## The key that a request is given -/

variable {channel row seen saved : Channel} {draw idx : ℕ} {cached : Except String ChannelInfo}
  {key usingKey reason : String} {status : ChannelStatus} {now : ℤ} {s t : PollState} {i : ℕ}

theorem mem_enabledIdx : idx ∈ channel.enabledIdx ↔
    idx < channel.getKeys.length ∧ channel.channelInfo.keyStatus idx = .enabled := by
  simp [Channel.enabledIdx]

theorem nextIdx_enabled {start : ℕ} (hkeys : channel.getKeys ≠ [])
    (h : channel.nextIdx start = some idx) : idx ∈ channel.enabledIdx := by
  rw [mem_enabledIdx]
  constructor
  · obtain ⟨i, -, rfl⟩ := List.mem_map.mp (List.mem_of_find?_eq_some h)
    exact Nat.mod_lt _ (List.length_pos_iff.mpr hkeys)
  · simpa using List.find?_some h

/-- The key at an enabled index. -/
theorem keyAt_enabled (h : idx ∈ channel.enabledIdx) :
    channel.getKeys[(channel.keyAt idx).2]? = some (channel.keyAt idx).1 ∧
      channel.channelInfo.keyStatus (channel.keyAt idx).2 = .enabled := by
  obtain ⟨hlt, henabled⟩ := mem_enabledIdx.mp h
  refine ⟨?_, henabled⟩
  unfold Channel.keyAt
  rw [List.getElem?_eq_getElem hlt]
  rfl

/-- **The key** is enabled in the channel that the request has, and what it saves is that
channel with another polling index. -/
theorem getNextEnabledKey_ok {r : String × ℕ} {save : Option Channel}
    (hmulti : channel.channelInfo.isMultiKey = true)
    (h : channel.getNextEnabledKey draw cached = (.ok r, save)) :
    (channel.getKeys[r.2]? = some r.1 ∧ channel.channelInfo.keyStatus r.2 = .enabled) ∧
      ∀ c, save = some c → ∃ index, c = channel.withPollingIndex index := by
  unfold Channel.getNextEnabledKey at h
  rw [hmulti, Bool.not_true, if_neg Bool.false_ne_true] at h
  split at h
  · cases h
  rename_i hkeys
  split at h
  · cases h
  rename_i first rest hidx
  have hfirst : first ∈ channel.enabledIdx := by rw [hidx]; exact List.mem_cons_self
  split at h
  · cases h
    refine ⟨keyAt_enabled ?_, fun c hc => by cases hc⟩
    rw [hidx]
    cases hget : (first :: rest)[draw % (rest.length + 1)]? with
    | none => exact List.mem_cons_self
    | some idx => exact List.mem_of_getElem? hget
  · split at h
    · cases h
    · dsimp only at h
      split at h
      · rename_i hnext
        cases h
        refine ⟨keyAt_enabled (nextIdx_enabled hkeys hnext), ?_⟩
        rintro c ⟨⟩
        exact ⟨_, rfl⟩
      · cases h
        refine ⟨keyAt_enabled hfirst, ?_⟩
        rintro c ⟨⟩
        exact ⟨channel.channelInfo.multiKeyPollingIndex, rfl⟩
  · cases h
    exact ⟨keyAt_enabled hfirst, fun c hc => by cases hc⟩

/-! ## What the writes say of the keys -/

theorem shut_congr (hkeys : channel.getKeys = row.getKeys)
    (hstatus : ∀ i, channel.channelInfo.keyStatus i = row.channelInfo.keyStatus i) :
    channel.Shut key ↔ row.Shut key := by
  unfold Channel.Shut
  simp only [hkeys, hstatus]

/-- The same keys, in the text or the list that they are read from. -/
structure SameKeys (row channel : Channel) : Prop where
  key : channel.key = row.key
  keys : channel.keys = row.keys
  isMultiKey : channel.channelInfo.isMultiKey = true

theorem SameKeys.getKeys (h : SameKeys row channel) : channel.getKeys = row.getKeys := by
  unfold Channel.getKeys
  rw [h.key, h.keys]

section Update

variable (usingKey : String) (status : ChannelStatus) (reason : String) (now : ℤ)

/-- `UpdateChannelStatus` changes the status of the first key with the text, and no key. -/
theorem updateChannelStatus_keys (hmulti : seen.channelInfo.isMultiKey = true) :
    SameKeys seen (updateChannelStatus seen usingKey status reason now).1 := by
  unfold updateChannelStatus
  split
  · exact ⟨rfl, rfl, hmulti⟩
  · unfold handlerMultiKeyUpdate
    dsimp only
    split
    · exact ⟨rfl, rfl, hmulti⟩
    · split
      · split <;> exact ⟨rfl, rfl, hmulti⟩
      · exact ⟨rfl, rfl, (setKeyStatus_isMultiKey _ _ _ _).trans hmulti⟩

theorem updateChannelStatus_keyStatus (hmulti : seen.channelInfo.isMultiKey = true)
    (hstatus : seen.status ≠ status) (j : ℕ) :
    (updateChannelStatus seen usingKey status reason now).1.channelInfo.keyStatus j =
      if seen.getKeys.idxOf? usingKey = some j then status else seen.channelInfo.keyStatus j := by
  unfold updateChannelStatus
  rw [if_neg hstatus, if_pos hmulti]
  unfold handlerMultiKeyUpdate
  dsimp only
  split
  · rename_i hnil
    rw [hnil]
    rfl
  · cases hfind : seen.getKeys.idxOf? usingKey with
    | none =>
      dsimp only
      split <;> rfl
    | some i =>
      dsimp only
      rw [keyStatus_setKeyStatus]
      by_cases hj : j = i
      · rw [if_pos hj, if_pos (by rw [hj])]
      · rw [if_neg hj, if_neg (by simpa using Ne.symm hj)]

variable (hmulti : seen.channelInfo.isMultiKey = true) (hstatus : seen.status ≠ status)
include hmulti hstatus

/-- The other keys are disabled as they were. -/
theorem shut_update_of_ne (key : String) (hkey : key ≠ usingKey) :
    (updateChannelStatus seen usingKey status reason now).1.Shut key ↔ seen.Shut key := by
  have hkeys := (updateChannelStatus_keys usingKey status reason now hmulti).getKeys
  have hsame : ∀ i, seen.getKeys[i]? = some key →
      (updateChannelStatus seen usingKey status reason now).1.channelInfo.keyStatus i =
        seen.channelInfo.keyStatus i := by
    intro i hi
    rw [updateChannelStatus_keyStatus usingKey status reason now hmulti hstatus, if_neg]
    intro hfind
    obtain ⟨hlt, heq, -⟩ := List.findIdx?_eq_some_iff_getElem.mp hfind
    rw [List.getElem?_eq_getElem hlt] at hi
    exact hkey ((Option.some.inj hi).symm.trans (by simpa using heq))
  unfold Channel.Shut
  rw [hkeys]
  constructor
  · intro h i hi
    rw [← hsame i hi]
    exact h i hi
  · intro h i hi
    rw [hsame i hi]
    exact h i hi

/-- The key itself is disabled everywhere, if it was beyond its first place. -/
theorem shut_update_self (hdisable : status ≠ .enabled) :
    (updateChannelStatus seen usingKey status reason now).1.Shut usingKey ↔
      seen.ShutBeyondFirst usingKey := by
  have hkeys := (updateChannelStatus_keys usingKey status reason now hmulti).getKeys
  unfold Channel.Shut Channel.ShutBeyondFirst
  rw [hkeys]
  constructor
  · intro h i hi hfirst
    have hshut := h i hi
    rwa [updateChannelStatus_keyStatus usingKey status reason now hmulti hstatus,
      if_neg hfirst] at hshut
  · intro h i hi
    rw [updateChannelStatus_keyStatus usingKey status reason now hmulti hstatus]
    by_cases hfirst : seen.getKeys.idxOf? usingKey = some i
    · rw [if_pos hfirst]
      exact hdisable
    · rw [if_neg hfirst]
      exact h i hi hfirst

end Update

/-! ## Runs -/

/-- What a call under way holds of the row. -/
def CallOk (row : Channel) : KeyCall → Prop
  | .loaded seen shut => SameKeys row seen ∧ ∀ k ∈ shut, seen.Shut k
  | .picked saved key shut => SameKeys row saved ∧ key ∉ shut
  | .updating seen _ status _ => SameKeys row seen ∧ seen.status ≠ status

structure PollInv (s : PollState) : Prop extends StaysDisabled s where
  isMultiKey : s.row.channelInfo.isMultiKey = true
  calls : ∀ i call, s.calls i = some call → CallOk s.row call

theorem CallOk.congr {call : KeyCall} (h : CallOk row call) (hkeys : SameKeys row channel) :
    CallOk channel call := by
  have htrans : ∀ {seen : Channel}, SameKeys row seen → SameKeys channel seen := fun hseen =>
    ⟨hseen.key.trans hkeys.key.symm, hseen.keys.trans hkeys.keys.symm, hseen.isMultiKey⟩
  cases call with
  | loaded seen shut => exact ⟨htrans h.1, h.2⟩
  | picked saved key shut => exact ⟨htrans h.1, h.2⟩
  | updating seen usingKey status reason => exact ⟨htrans h.1, h.2⟩

/-- A call goes on or ends, and the row keeps its keys. -/
theorem PollInv.withCall (h : PollInv s) {call : Option KeyCall}
    (hcall : ∀ c, call = some c → CallOk s.row c) : PollInv (s.withCall i call) := by
  refine ⟨⟨h.stored, h.notGiven⟩, h.isMultiKey, ?_⟩
  intro j c hc
  unfold PollState.withCall at hc
  dsimp only at hc
  rw [Function.update_apply] at hc
  split at hc
  · exact hcall c hc
  · exact h.calls j c hc

theorem PollInv.give (h : PollInv s) {shut : List String} (hkey : key ∉ shut) :
    PollInv (s.give key shut) := by
  refine ⟨⟨h.stored, ?_⟩, h.isMultiKey, h.calls⟩
  intro e he
  rcases List.mem_append.mp he with he | he
  · exact h.notGiven e he
  · rw [List.mem_singleton.mp he]
    exact hkey

/-- Another row with the same keys, in which the reported keys are disabled. -/
theorem PollInv.write (h : PollInv s) {shut : List String} (hkeys : SameKeys s.row row)
    (hshut : ∀ k ∈ shut, row.Shut k) : PollInv { s with row := row, shut := shut } :=
  ⟨⟨hshut, h.notGiven⟩, hkeys.isMultiKey, fun j c hc => (h.calls j c hc).congr hkeys⟩

theorem PollInv.same (h : PollInv s) : SameKeys s.row s.row := ⟨rfl, rfl, h.isMultiKey⟩

/-- A key that is enabled in what a request has loaded is none of the reported ones. -/
theorem not_shut_of_enabled {shut : List String} (hshut : ∀ k ∈ shut, seen.Shut k) {r : String × ℕ}
    (hkey : seen.getKeys[r.2]? = some r.1) (henabled : seen.channelInfo.keyStatus r.2 = .enabled) :
    r.1 ∉ shut := fun hmem => hshut r.1 hmem r.2 hkey henabled

theorem PollInv.getNextEnabledKey (h : PollInv s)
    (ht : keyPolling.step s (.getNextEnabledKey i draw) = some t) : PollInv t := by
  simp only [keyPolling, PollState.step] at ht
  split at ht
  · rename_i seen shut hcall
    obtain ⟨hkeys, hshut⟩ := h.calls i _ hcall
    split at ht
    · cases ht
      exact h.withCall (fun c hc => by cases hc)
    · rename_i r idx hnext
      cases ht
      obtain ⟨⟨hkey, henabled⟩, -⟩ := getNextEnabledKey_ok hkeys.isMultiKey hnext
      exact (h.withCall (fun c hc => by cases hc)).give (not_shut_of_enabled hshut hkey henabled)
    · rename_i key idx saved hnext
      cases ht
      obtain ⟨⟨hkey, henabled⟩, hsave⟩ := getNextEnabledKey_ok hkeys.isMultiKey hnext
      obtain ⟨index, rfl⟩ := hsave saved rfl
      refine h.withCall ?_
      rintro c ⟨⟩
      exact ⟨⟨hkeys.key, hkeys.keys, hkeys.isMultiKey⟩, not_shut_of_enabled hshut hkey henabled⟩
  · cases ht

/-- What `SaveChannelInfo` leaves is shut as what it was given. -/
theorem shut_saveChannelInfo (hkeys : SameKeys row saved) :
    (row.saveChannelInfo saved).Shut key ↔ saved.Shut key :=
  shut_congr hkeys.getKeys.symm fun _ => rfl

theorem shut_saveWithoutKey (hkeys : SameKeys row channel) :
    (row.saveWithoutKey channel).Shut key ↔ channel.Shut key := by
  have hsame : row.saveWithoutKey channel = channel := by
    unfold Channel.saveWithoutKey
    rw [← hkeys.key]
  rw [hsame]

/-- The reported keys are disabled in the row that an update leaves, exactly if the others
were in the row it loaded and its own key was beyond its first place. -/
theorem report_shut (reason : String) (now : ℤ) (hkeys : SameKeys row seen)
    (hstatus : seen.status ≠ status) {shut : List String} : (∀ k ∈ report shut usingKey status,
      (row.saveWithoutKey (updateChannelStatus seen usingKey status reason now).1).Shut k) ↔
    (∀ k ∈ shut, k ≠ usingKey → seen.Shut k) ∧
      (status ≠ .enabled → seen.ShutBeyondFirst usingKey) := by
  have hwritten := updateChannelStatus_keys usingKey status reason now hkeys.isMultiKey
  have hrow : SameKeys row (updateChannelStatus seen usingKey status reason now).1 :=
    ⟨hwritten.key.trans hkeys.key, hwritten.keys.trans hkeys.keys, hwritten.isMultiKey⟩
  have hother := fun k => shut_update_of_ne usingKey status reason now hkeys.isMultiKey hstatus k
  have hself := shut_update_self usingKey status reason now hkeys.isMultiKey hstatus
  simp only [shut_saveWithoutKey hrow]
  unfold report
  constructor
  · intro h
    by_cases henabled : status = .enabled
    · rw [if_pos henabled] at h
      refine ⟨fun k hk hne => ?_, fun hno => absurd henabled hno⟩
      exact (hother k hne).mp (h k (List.mem_filter.mpr ⟨hk, by simpa using hne⟩))
    · rw [if_neg henabled] at h
      refine ⟨fun k hk hne => (hother k hne).mp (h k (List.mem_cons_of_mem _ hk)), fun _ => ?_⟩
      exact (hself henabled).mp (h usingKey List.mem_cons_self)
  · rintro ⟨hothers, hbeyond⟩ k hk
    by_cases henabled : status = .enabled
    · rw [if_pos henabled] at hk
      obtain ⟨hk, hne⟩ := List.mem_filter.mp hk
      have hne : k ≠ usingKey := by simpa using hne
      exact (hother k hne).mpr (hothers k hk hne)
    · rw [if_neg henabled] at hk
      by_cases hkey : k = usingKey
      · rw [hkey]
        exact (hself henabled).mpr (hbeyond henabled)
      · exact (hother k hkey).mpr (hothers k ((List.mem_cons.mp hk).resolve_left hkey) hkey)

/-- **One statement** that meets the condition keeps the reported keys disabled. -/
theorem PollInv.step {a : KeyAction} (h : PollInv s) (hreads : ReadsShut s a)
    (ht : keyPolling.step s a = some t) : PollInv t := by
  cases a with
  | load i =>
    simp only [keyPolling, PollState.step] at ht
    split at ht
    · cases ht
      refine h.withCall ?_
      rintro c ⟨⟩
      exact ⟨h.same, h.stored⟩
    · cases ht
  | getNextEnabledKey i draw => exact h.getNextEnabledKey ht
  | saveChannelInfo i =>
    simp only [keyPolling, PollState.step] at ht
    split at ht
    · rename_i saved key shut hcall
      cases ht
      obtain ⟨hkeys, hkey⟩ := h.calls i _ hcall
      have hwrite : SameKeys s.row (s.row.saveChannelInfo saved) := ⟨rfl, rfl, hkeys.isMultiKey⟩
      have hshut : ∀ k ∈ s.shut, (s.row.saveChannelInfo saved).Shut k := by
        intro k hk
        exact (shut_saveChannelInfo hkeys).mpr (hreads saved key shut hcall k hk)
      exact ((h.write hwrite hshut).withCall (fun c hc => by cases hc)).give hkey
    · cases ht
  | getChannelById i usingKey status reason =>
    simp only [keyPolling, PollState.step] at ht
    split at ht
    · split at ht
      · cases ht
        exact h
      · rename_i hstatus
        cases ht
        refine h.withCall ?_
        rintro c ⟨⟩
        exact ⟨h.same, hstatus⟩
    · cases ht
  | saveWithoutKey i now =>
    simp only [keyPolling, PollState.step] at ht
    split at ht
    · rename_i seen usingKey status reason hcall
      cases ht
      obtain ⟨hkeys, hstatus⟩ := h.calls i _ hcall
      have hwritten := updateChannelStatus_keys usingKey status reason now hkeys.isMultiKey
      have hwrite : SameKeys s.row (s.row.saveWithoutKey
          (updateChannelStatus seen usingKey status reason now).1) :=
        ⟨rfl, hwritten.keys.trans hkeys.keys, hwritten.isMultiKey⟩
      have hshut := (report_shut reason now hkeys hstatus).mpr
        (hreads seen usingKey status reason hcall)
      exact (h.write hwrite hshut).withCall (fun c hc => by cases hc)
    · cases ht
  | fail i =>
    simp only [keyPolling, PollState.step] at ht
    split at ht
    · cases ht
    · rename_i saved key shut hcall
      cases ht
      exact (h.withCall (fun c hc => by cases hc)).give (h.calls i _ hcall).2
    · cases ht
      exact h.withCall (fun c hc => by cases hc)

/-- A statement that does not meet it enables a reported key at once. -/
theorem PollInv.enables {a : KeyAction} (h : PollInv s) (hreads : ¬ ReadsShut s a)
    (ht : keyPolling.step s a = some t) : ¬ StaysDisabled t := by
  intro hstays
  apply hreads
  cases a with
  | saveChannelInfo i =>
    intro saved key shut hcall k hk
    simp only [keyPolling, PollState.step, hcall] at ht
    cases ht
    exact (shut_saveChannelInfo (h.calls i _ hcall).1).mp (hstays.stored k hk)
  | saveWithoutKey i now =>
    intro seen usingKey status reason hcall
    simp only [keyPolling, PollState.step, hcall] at ht
    cases ht
    obtain ⟨hkeys, hstatus⟩ := h.calls i _ hcall
    exact (report_shut reason now hkeys hstatus).mp hstays.stored
  | load i => trivial
  | getNextEnabledKey i draw => trivial
  | getChannelById i usingKey status reason => trivial
  | fail i => trivial

/-- **A disabled key stays disabled** in exactly the runs whose writes were all loaded when
it was. -/
theorem stays_disabled_iff (row : Channel) (hmulti : row.channelInfo.isMultiKey = true)
    (as : List KeyAction) :
    keyPolling.EveryState StaysDisabled (.start row) as ↔
      keyPolling.EveryStep ReadsShut (.start row) as := by
  have hstart : PollInv (.start row) :=
    ⟨⟨fun k hk => (List.not_mem_nil hk).elim, fun e he => (List.not_mem_nil he).elim⟩, hmulti,
      fun i c hc => by cases hc⟩
  exact System.everyState_iff_everyStep (fun _ h => h.toStaysDisabled)
    (fun _ _ _ h hreads ht => h.step hreads ht) (fun _ _ _ h hreads ht => h.enables hreads ht)
    hstart

/-! ### A request that loaded the channel before -/

/-- Two keys, polled. -/
def polledRow : Channel :=
  { sampleRow with channelInfo := { sampleRow.channelInfo with multiKeyMode := .polling } }

theorem stays_disabled_iff_sample :
    keyPolling.EveryState StaysDisabled (.start polledRow) [.load 0, .getNextEnabledKey 0 0] ↔
      keyPolling.EveryStep ReadsShut (.start polledRow) [.load 0, .getNextEnabledKey 0 0] :=
  stays_disabled_iff polledRow (by decide) _

/-- The request writes back the list without the key that was disabled in between. -/
def staleSave : List KeyAction :=
  [.load 0, .getChannelById 1 "a" .autoDisabled "401", .saveWithoutKey 1 0,
    .getNextEnabledKey 0 0, .saveChannelInfo 0]

theorem stale_save_enables :
    ¬ keyPolling.EveryState StaysDisabled (.start polledRow) staleSave := by
  intro h
  have hend := System.everyState_iff_prefix.mp h _ _ (List.prefix_refl _) rfl
  exact hend.stored "a" List.mem_cons_self 0 (by decide +kernel) (by decide +kernel)

end Channels
