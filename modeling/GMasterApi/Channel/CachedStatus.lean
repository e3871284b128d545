import GMasterApi.Channel.KeyStatus
import GMasterApi.Channel.Cache

/-!
# Statuses in the cache and in the store

With the memory cache `UpdateChannelStatus` applies the same update twice: to the
channel of the cache, whatever its status, and to the row, unless the channel has the
status already.  The two say the same of a channel with several keys after exactly the
calls that are `Consistent` (`cached_agrees_iff`).
-/

namespace Channels

open GoMap Transition

/-- The cache and the row of a channel. -/
structure CachedRow where
  cache : Cache
  row : Channel

def CachedRow.cached (s : CachedRow) : Option Channel := s.cache.channelsIDM.get s.row.id

structure StatusCall where
  usingKey : String
  status : ChannelStatus
  reason : String
  now : ℤ
  deriving DecidableEq

/-- `handlerMultiKeyUpdate` with the arguments of a call. -/
def Channel.handle (channel : Channel) (call : StatusCall) : Channel :=
  handlerMultiKeyUpdate channel call.usingKey call.status call.reason call.now

/-- What `UpdateChannelStatus` does to the cache; `none` where it returns before it reads
the row. -/
def CachedRow.updateCache (s : CachedRow) (call : StatusCall) : Option Cache :=
  match s.cached with
  | none => none
  | some channelCache =>
    if channelCache.channelInfo.isMultiKey then
      let updated := channelCache.handle call
      let cache := { s.cache with channelsIDM := s.cache.channelsIDM.put s.row.id updated }
      some (if channelCache.status ≠ updated.status then
        cacheUpdateChannelStatus cache s.row.id updated.status else cache)
    else if channelCache.status = call.status then none
    else some (cacheUpdateChannelStatus s.cache s.row.id call.status)

/-- `UpdateChannelStatus` with the memory cache. -/
def CachedRow.updateChannelStatus (s : CachedRow) (call : StatusCall) : CachedRow × Bool :=
  match s.updateCache call with
  | none => (s, false)
  | some cache =>
    let (row, updated) :=
      Channels.updateChannelStatus s.row call.usingKey call.status call.reason call.now
    (⟨cache, row⟩, updated)

def statusCalls : System CachedRow StatusCall := ⟨fun s call => some (s.updateChannelStatus call).1⟩

/-! ## What is promised -/

/-- Two copies of a channel that say the same of it and of its keys. -/
structure SameStatus (channel row : Channel) : Prop where
  isMultiKey : channel.channelInfo.isMultiKey = true
  rowMultiKey : row.channelInfo.isMultiKey = true
  keys : channel.getKeys = row.getKeys
  status : channel.status = row.status
  list : ∀ i, channel.channelInfo.multiKeyStatusList.get i =
    row.channelInfo.multiKeyStatusList.get i

/-- The cache has the channel, and agrees with the row. -/
def Agrees (s : CachedRow) : Prop := ∃ channel, s.cached = some channel ∧ SameStatus channel s.row

def Channel.hasEnabledKey (channel : Channel) : Bool :=
  hasEnabledMultiKey channel.channelInfo channel.getKeys

/-- What is promised after a call. -/
structure AgreesAfter (s : CachedRow) : Prop where
  agrees : Agrees s
  enabled : s.row.status = .enabled → s.row.hasEnabledKey = true

/-- The list has the status for the key at `i` already. -/
def ChannelInfo.Lists (info : ChannelInfo) (i : ℕ) (status : ChannelStatus) : Prop :=
  info.multiKeyStatusList.get i = if status = .enabled then none else some status

/-- The condition on a call.  For one of the keys: where the channel has the status
already, the list has it too, and a channel that is not disabled automatically has a key
that is enabled.  Without a key: the channel is not left enabled with none. -/
def Consistent (s : CachedRow) (call : StatusCall) : Prop :=
  match s.row.getKeys.idxOf? call.usingKey with
  | some i => s.row.status = call.status → s.row.channelInfo.Lists i call.status ∧
      (s.row.hasEnabledKey = true ∨ s.row.status = .autoDisabled)
  | none =>
    (if s.row.getKeys = [] ∨ call.usingKey = "" then call.status else s.row.status) = .enabled →
      s.row.hasEnabledKey = true

/-! ## One update -/

variable {channel row : Channel} {call : StatusCall} {s t : CachedRow} {i : ℕ}

theorem keyStatus_of_get {info info' : ChannelInfo}
    (h : info.multiKeyStatusList.get i = info'.multiKeyStatusList.get i) :
    info.keyStatus i = info'.keyStatus i := by
  unfold ChannelInfo.keyStatus
  rw [h]

theorem hasEnabledMultiKey_congr {info info' : ChannelInfo} {keys : List String}
    (h : ∀ i, info.multiKeyStatusList.get i = info'.multiKeyStatusList.get i) :
    hasEnabledMultiKey info keys = hasEnabledMultiKey info' keys := by
  unfold hasEnabledMultiKey
  simp only [keyStatus_of_get (h _)]

/-- What the list says after the status of a key has been set. -/
theorem get_setKeyStatus (info : ChannelInfo) (i j : ℕ) (status : ChannelStatus) (reason : String)
    (now : ℤ) : (info.setKeyStatus i status reason now).multiKeyStatusList.get j =
      if j = i then (if status = .enabled then none else some status)
      else info.multiKeyStatusList.get j := by
  unfold ChannelInfo.setKeyStatus
  by_cases henabled : status = .enabled
  · rw [if_pos henabled, if_pos henabled, Map.get_delete]
  · rw [if_neg henabled, if_neg henabled, Map.get_put]

/-- A call that is about no key: it sets the status of the channel, or nothing. -/
theorem handle_of_none (h : channel.getKeys.idxOf? call.usingKey = none) :
    channel.handle call = { channel with
      status := if channel.getKeys = [] ∨ call.usingKey = "" then call.status
        else channel.status } := by
  unfold Channel.handle handlerMultiKeyUpdate
  dsimp only
  rw [h]
  by_cases hkeys : channel.getKeys = []
  · rw [if_pos hkeys, if_pos (.inl hkeys)]
  · rw [if_neg hkeys]
    dsimp only
    by_cases hkey : call.usingKey = ""
    · rw [if_pos (Or.inr hkey), if_neg (not_not.mpr hkey)]
    · rw [if_neg (not_or.mpr ⟨hkeys, hkey⟩)]
      exact if_pos hkey

/-- A call that is about one of the keys. -/
theorem handle_of_some (h : channel.getKeys.idxOf? call.usingKey = some i) :
    channel.handle call =
      { channel with
        channelInfo := channel.channelInfo.setKeyStatus i call.status call.reason call.now
        status :=
          if hasEnabledMultiKey
            (channel.channelInfo.setKeyStatus i call.status call.reason call.now)
            channel.getKeys = false then .autoDisabled
          else if call.status = .enabled then .enabled else channel.status } := by
  unfold Channel.handle handlerMultiKeyUpdate
  have hkeys : channel.getKeys ≠ [] := by
    intro hnil
    rw [hnil] at h
    cases h
  dsimp only
  rw [if_neg hkeys, h]
  simp only [Bool.not_eq_true']

theorem getKeys_handle : (channel.handle call).getKeys = channel.getKeys := by
  cases h : channel.getKeys.idxOf? call.usingKey with
  | none =>
    rw [handle_of_none h]
    rfl
  | some i =>
    rw [handle_of_some h]
    rfl

theorem id_handle : (channel.handle call).id = channel.id := by
  cases h : channel.getKeys.idxOf? call.usingKey with
  | none => rw [handle_of_none h]
  | some i => rw [handle_of_some h]

theorem isMultiKey_handle :
    (channel.handle call).channelInfo.isMultiKey = channel.channelInfo.isMultiKey := by
  cases h : channel.getKeys.idxOf? call.usingKey with
  | none => rw [handle_of_none h]
  | some i =>
    rw [handle_of_some h]
    exact setKeyStatus_isMultiKey _ _ _ _

/-- **The same update** leaves two copies that said the same saying the same. -/
theorem SameStatus.handle (h : SameStatus channel row) :
    SameStatus (channel.handle call) (row.handle call) := by
  refine ⟨isMultiKey_handle.trans h.isMultiKey, isMultiKey_handle.trans h.rowMultiKey,
    getKeys_handle.trans (h.keys.trans getKeys_handle.symm), ?_, ?_⟩
  · cases hfind : row.getKeys.idxOf? call.usingKey with
    | none =>
      rw [handle_of_none hfind, handle_of_none (h.keys ▸ hfind), h.keys, h.status]
    | some i =>
      rw [handle_of_some hfind, handle_of_some (h.keys ▸ hfind), h.keys, h.status]
      dsimp only
      rw [hasEnabledMultiKey_congr]
      intro j
      rw [get_setKeyStatus, get_setKeyStatus, h.list]
  · intro j
    cases hfind : row.getKeys.idxOf? call.usingKey with
    | none =>
      rw [handle_of_none hfind, handle_of_none (h.keys ▸ hfind)]
      exact h.list j
    | some i =>
      rw [handle_of_some hfind, handle_of_some (h.keys ▸ hfind)]
      dsimp only
      rw [get_setKeyStatus, get_setKeyStatus, h.list]

theorem SameStatus.refl (h : row.channelInfo.isMultiKey = true) : SameStatus row row :=
  ⟨h, h, rfl, rfl, fun _ => rfl⟩

theorem SameStatus.trans {other : Channel} (h : SameStatus channel row)
    (h' : SameStatus row other) : SameStatus channel other :=
  ⟨h.isMultiKey, h'.rowMultiKey, h.keys.trans h'.keys, h.status.trans h'.status,
    fun i => (h.list i).trans (h'.list i)⟩

theorem SameStatus.symm (h : SameStatus channel row) : SameStatus row channel :=
  ⟨h.rowMultiKey, h.isMultiKey, h.keys.symm, h.status.symm, fun i => (h.list i).symm⟩

/-- An update to the status that the channel has changes nothing, exactly if the list has
the status too. -/
theorem handle_same_iff (hmulti : row.channelInfo.isMultiKey = true)
    (hstatus : row.status = call.status) (hfind : row.getKeys.idxOf? call.usingKey = some i) :
    SameStatus (row.handle call) row ↔ row.channelInfo.Lists i call.status ∧
      (row.hasEnabledKey = true ∨ row.status = .autoDisabled) := by
  have hset : row.channelInfo.Lists i call.status → ∀ j,
      (row.channelInfo.setKeyStatus i call.status call.reason call.now).multiKeyStatusList.get j =
        row.channelInfo.multiKeyStatusList.get j := by
    intro hlists j
    rw [get_setKeyStatus]
    by_cases hj : j = i
    · rw [if_pos hj, hj, hlists]
    · rw [if_neg hj]
  constructor
  · intro h
    have hlists : row.channelInfo.Lists i call.status := by
      have hget := h.list i
      rw [handle_of_some hfind] at hget
      dsimp only at hget
      rw [get_setKeyStatus, if_pos rfl] at hget
      exact hget.symm
    refine ⟨hlists, ?_⟩
    have hsame := h.status
    rw [handle_of_some hfind] at hsame
    dsimp only at hsame
    rw [hasEnabledMultiKey_congr (hset hlists)] at hsame
    cases hany : row.hasEnabledKey with
    | true => exact .inl rfl
    | false =>
      have hnone : hasEnabledMultiKey row.channelInfo row.getKeys = false := hany
      rw [if_pos hnone] at hsame
      exact .inr hsame.symm
  · rintro ⟨hlists, hany⟩
    have hinfo := hset hlists
    refine ⟨isMultiKey_handle.trans hmulti, hmulti, getKeys_handle, ?_, ?_⟩
    · rw [handle_of_some hfind]
      dsimp only
      rw [hasEnabledMultiKey_congr hinfo]
      split
      · rename_i hnone
        rcases hany with hany | hauto
        · exact absurd (hany.symm.trans hnone) (by simp)
        · exact hauto.symm
      · split
        · rename_i henabled
          rw [hstatus, henabled]
        · rfl
    · intro j
      rw [handle_of_some hfind]
      exact hinfo j

/-- An update that is about no key leaves the list, and the status where it was the same. -/
theorem handle_same_of_none (hmulti : row.channelInfo.isMultiKey = true)
    (hstatus : row.status = call.status) (hfind : row.getKeys.idxOf? call.usingKey = none) :
    SameStatus (row.handle call) row := by
  have hsame : row.handle call = row := by
    rw [handle_of_none hfind, ← hstatus, ite_self]
  rw [hsame]
  exact .refl hmulti

/-- After an update the channel is enabled with no key enabled only where the call was
about no key. -/
theorem enabled_handle_iff : ((row.handle call).status = .enabled →
      (row.handle call).hasEnabledKey = true) ↔
    (row.getKeys.idxOf? call.usingKey = none →
      (if row.getKeys = [] ∨ call.usingKey = "" then call.status else row.status) = .enabled →
        row.hasEnabledKey = true) := by
  cases hfind : row.getKeys.idxOf? call.usingKey with
  | none =>
    rw [handle_of_none hfind]
    exact ⟨fun h _ => h, fun h => h rfl⟩
  | some i =>
    refine ⟨fun _ hnone => (by cases hnone), fun _ henabled => ?_⟩
    unfold Channel.hasEnabledKey
    rw [getKeys_handle]
    rw [handle_of_some hfind] at henabled ⊢
    dsimp only at henabled ⊢
    cases hany : hasEnabledMultiKey
        (row.channelInfo.setKeyStatus i call.status call.reason call.now) row.getKeys with
    | true => rfl
    | false =>
      rw [if_pos hany] at henabled
      cases henabled

/-! ## One call -/

/-- The update is applied to the channel of the cache. -/
theorem updateCache_eq (call : StatusCall) (hcached : s.cached = some channel)
    (hmulti : channel.channelInfo.isMultiKey = true) : ∃ cache, s.updateCache call = some cache ∧
      cache.channelsIDM.get s.row.id = some (channel.handle call) := by
  unfold CachedRow.updateCache
  rw [hcached]
  dsimp only
  rw [if_pos hmulti]
  refine ⟨_, rfl, ?_⟩
  split
  · unfold cacheUpdateChannelStatus
    dsimp only
    rw [Map.get_put, if_pos rfl]
    dsimp only
    rw [Map.get_put, if_pos rfl]
  · rw [Map.get_put, if_pos rfl]

/-- **What a call does**: the cache is updated always, the row where its status differs. -/
theorem updateChannelStatus_eq (hcached : s.cached = some channel)
    (hsame : SameStatus channel s.row) (ht : statusCalls.step s call = some t) :
    t.cached = some (channel.handle call) ∧
      t.row = if s.row.status = call.status then s.row else s.row.handle call := by
  obtain ⟨cache, hupdate, hget⟩ := updateCache_eq call hcached hsame.isMultiKey
  have hrow : (updateChannelStatus s.row call.usingKey call.status call.reason call.now).1 =
      if s.row.status = call.status then s.row else s.row.handle call := by
    unfold updateChannelStatus
    split
    · rfl
    · rw [if_pos hsame.rowMultiKey]
      rfl
  cases ht
  unfold CachedRow.updateChannelStatus
  rw [hupdate]
  refine ⟨?_, hrow⟩
  show cache.channelsIDM.get (Channels.updateChannelStatus _ _ _ _ _).1.id = _
  rw [hrow, ← hget]
  split
  · rfl
  · rw [id_handle]

/-- **One call** leaves the cache and the row as promised exactly if it is consistent. -/
theorem agreesAfter_iff (h : Agrees s) (ht : statusCalls.step s call = some t) :
    AgreesAfter t ↔ Consistent s call := by
  obtain ⟨channel, hcached, hsame⟩ := h
  obtain ⟨htcached, htrow⟩ := updateChannelStatus_eq hcached hsame ht
  have hhandle : SameStatus (channel.handle call) (s.row.handle call) := hsame.handle
  have hagrees : Agrees t ↔ SameStatus (channel.handle call) t.row := by
    unfold Agrees
    rw [htcached]
    simp
  have hafter : AgreesAfter t ↔ Agrees t ∧ (t.row.status = .enabled → t.row.hasEnabledKey = true) :=
    ⟨fun h => ⟨h.agrees, h.enabled⟩, fun h => ⟨h.1, h.2⟩⟩
  rw [hafter, hagrees, htrow]
  unfold Consistent
  by_cases hstatus : s.row.status = call.status
  · rw [if_pos hstatus]
    have hkept : SameStatus (channel.handle call) s.row ↔ SameStatus (s.row.handle call) s.row :=
      ⟨hhandle.symm.trans, hhandle.trans⟩
    rw [hkept]
    cases hfind : s.row.getKeys.idxOf? call.usingKey with
    | none =>
      rw [← hstatus, ite_self]
      exact and_iff_right (handle_same_of_none hsame.rowMultiKey hstatus hfind)
    | some i =>
      rw [handle_same_iff hsame.rowMultiKey hstatus hfind]
      constructor
      · rintro ⟨hlists, -⟩ -
        exact hlists
      · intro h
        refine ⟨h hstatus, fun henabled => ?_⟩
        rcases (h hstatus).2 with hany | hauto
        · exact hany
        · rw [henabled] at hauto
          cases hauto
  · rw [if_neg hstatus, enabled_handle_iff]
    cases hfind : s.row.getKeys.idxOf? call.usingKey with
    | none => exact ⟨fun h => h.2 rfl, fun h => ⟨hhandle, fun _ => h⟩⟩
    | some i =>
      exact ⟨fun _ hno => absurd hno hstatus, fun _ => ⟨hhandle, fun hnone => by cases hnone⟩⟩

/-! ## Sequences of calls -/

/-- **The cache and the store agree** after every call of exactly the sequences whose calls
are consistent. -/
theorem cached_agrees_iff (s : CachedRow) (h : Agrees s) (calls : List StatusCall) :
    statusCalls.EveryNext AgreesAfter s calls ↔ statusCalls.EveryStep Consistent s calls :=
  System.everyNext_iff_everyStep
    (fun _ _ _ h hcall ht =>
      ⟨((agreesAfter_iff h ht).mpr hcall).agrees, (agreesAfter_iff h ht).mpr hcall⟩)
    (fun _ _ _ h hcall ht => mt (agreesAfter_iff h ht).mp hcall) h

/-! ### Two keys, one of them disabled -/

def cachedSample : CachedRow :=
  ⟨⟨.empty, Map.empty.put 1 { sampleRow with keys := ["a", "b"] }⟩, sampleRow⟩

theorem cachedSample_agrees : Agrees cachedSample :=
  ⟨{ sampleRow with keys := ["a", "b"] }, rfl, rfl, rfl, by decide +kernel, rfl, fun _ => rfl⟩

def disableKey (usingKey : String) : StatusCall := ⟨usingKey, .autoDisabled, "401", 0⟩

theorem cached_agrees_iff_sample :
    statusCalls.EveryNext AgreesAfter cachedSample [disableKey "a", disableKey "b"] ↔
      statusCalls.EveryStep Consistent cachedSample [disableKey "a", disableKey "b"] :=
  cached_agrees_iff cachedSample cachedSample_agrees _

/-- The channel is still enabled when one of its keys is enabled again, so the row keeps
the key disabled. -/
theorem reenabled_only_in_cache : ¬ statusCalls.EveryNext AgreesAfter cachedSample
    [disableKey "a", ⟨"a", .enabled, "", 0⟩] := by
  intro h
  obtain ⟨-, hnext⟩ := h _ rfl
  obtain ⟨hafter, -⟩ := hnext _ rfl
  obtain ⟨channel, hcached, hsame⟩ := hafter.agrees
  cases hcached
  exact absurd (hsame.list 0) (by decide +kernel)

end Channels
