import GMasterApi.Channel.Model
import GMasterApi.Lib.GoSlice

/-!
# The channel cache

`InitChannelCache` reads the channels and the abilities in two statements.  The
abilities say which groups get an inner map, the channels what is written into
them; a write into the nil map of another group ends the program.

`initChannelCache_iff` says when it does not.
-/

namespace Channels

open GoMap GoString GoSlice

/-- `group2model2channels`: a group that is missing has a nil map. -/
abbrev Index := Map String (Map String (List ℕ))

/-- The two maps of the cache. -/
structure Cache where
  group2model2channels : Index
  channelsIDM : Map ℕ Channel
  deriving DecidableEq

def Cache.empty : Cache := ⟨.empty, .empty⟩

/-- `group2model2channels[group][model]` -/
def Index.list (index : Index) (group model : String) : List ℕ :=
  ((index.get group).bind fun models => models.get model).getD []

def Cache.list (cache : Cache) (group model : String) : List ℕ :=
  cache.group2model2channels.list group model

/-! ## The rebuild -/

/-- An inner map for every group that an ability has. -/
def groupMaps (abilities : List Ability) : Index :=
  abilities.foldl (fun index a => index.put a.group .empty) .empty

/-- `m[group][model] = append(m[group][model], id)`; `none` where `m[group]` is nil. -/
def appendChannel (index : Index) (e : String × String × ℕ) : Option Index :=
  (index.get e.1).map fun models =>
    index.put e.1 (models.put e.2.1 ((models.get e.2.1).getD [] ++ [e.2.2]))

/-- The pairs of a channel, in the order of the two loops. -/
def Channel.pairs (channel : Channel) : List (String × String × ℕ) :=
  channel.splitGroups.flatMap fun group => channel.splitModels.map fun model =>
    (group, model, channel.id)

/-- What the loop over the channels appends. -/
def enabledPairs (channels : List Channel) : List (String × String × ℕ) :=
  (channels.filter fun c => c.status = .enabled).flatMap Channel.pairs

def priorityOf (channels : Map ℕ Channel) (id : ℕ) : ℤ :=
  ((channels.get id).map Channel.getPriority).getD 0

def sortIndex (sorter : SortDesc ℕ) (channels : Map ℕ Channel) (index : Index) : Index :=
  index.mapValues fun models => models.mapValues (sorter.sort (priorityOf channels))

def ChannelInfo.isPolling (info : ChannelInfo) : Bool := info.isMultiKey && info.multiKeyMode = .polling

/-- The keys of a channel with several, and the polling index that its old entry has. -/
def Channel.refresh (old : Map ℕ Channel) (channel : Channel) : Channel :=
  if channel.channelInfo.isMultiKey then
    let channel := { channel with keys := channel.getKeys }
    if channel.channelInfo.multiKeyMode = .polling then
      match old.get channel.id with
      | some oldChannel =>
        if oldChannel.channelInfo.isPolling then
          { channel with channelInfo := { channel.channelInfo with
              multiKeyPollingIndex := oldChannel.channelInfo.multiKeyPollingIndex } }
        else channel
      | none => channel
    else channel
  else channel

def byId (channels : List Channel) : Map ℕ Channel :=
  channels.foldl (fun m channel => m.put channel.id channel) .empty

/-- `none` is a panic, which leaves the cache as it is. -/
def initChannelCache (sorter : SortDesc ℕ) (channels : ChannelTable) (abilities : List Ability)
    (old : Cache) : Option Cache :=
  let newChannelId2channel := byId channels.rows
  ((enabledPairs channels.rows).foldlM appendChannel (groupMaps abilities)).map fun index =>
    ⟨sortIndex sorter newChannelId2channel index,
      newChannelId2channel.mapValues (Channel.refresh old.channelsIDM)⟩

/-- `CacheUpdateChannelStatus`: a channel that is not enabled is removed from each list
once, where it is found first. -/
def cacheUpdateChannelStatus (cache : Cache) (id : ℕ) (status : ChannelStatus) : Cache where
  channelsIDM := match cache.channelsIDM.get id with
    | some channel => cache.channelsIDM.put id { channel with status := status }
    | none => cache.channelsIDM
  group2model2channels :=
    if status ≠ .enabled then
      cache.group2model2channels.mapValues fun models => models.mapValues fun l => l.erase id
    else cache.group2model2channels

/-! ## What is promised -/

/-- The channel is enabled and lists the group and the model. -/
def Channel.serves (channel : Channel) (group model : String) : Prop :=
  channel.status = .enabled ∧ group ∈ channel.splitGroups ∧ model ∈ channel.splitModels

instance (channel : Channel) (group model : String) : Decidable (channel.serves group model) :=
  inferInstanceAs (Decidable (_ ∧ _))

/-- The polling index that a channel of the table keeps or starts with. -/
def pollingIndex (old : Map ℕ Channel) (channel : Channel) : ℤ :=
  match old.get channel.id with
  | some oldChannel =>
    if channel.channelInfo.isPolling ∧ oldChannel.channelInfo.isPolling then
      oldChannel.channelInfo.multiKeyPollingIndex
    else channel.channelInfo.multiKeyPollingIndex
  | none => channel.channelInfo.multiKeyPollingIndex

/-- **Indexes the table.**  Each list holds the enabled channels that list its group and
its model, by priority, and every channel is there by its id. -/
structure Indexes (channels : ChannelTable) (old cache : Cache) : Prop where
  mem : ∀ group model id, id ∈ cache.list group model ↔
    ∃ c ∈ channels.rows, c.id = id ∧ c.serves group model
  sorted : ∀ group model, (cache.list group model).Pairwise fun i j =>
    priorityOf cache.channelsIDM j ≤ priorityOf cache.channelsIDM i
  all : ∀ id, cache.channelsIDM.get id = (channels.find id).map fun c =>
    { c with
      keys := if c.channelInfo.isMultiKey then c.getKeys else c.keys
      channelInfo := { c.channelInfo with
        multiKeyPollingIndex := pollingIndex old.channelsIDM c } }

/-- Every group of an enabled channel is the group of some ability. -/
def Covered (channels : ChannelTable) (abilities : List Ability) : Prop :=
  ∀ c ∈ channels.rows, c.status = .enabled → ∀ group ∈ c.splitGroups,
    ∃ a ∈ abilities, a.group = group

/-! ## The lists -/

variable {sorter : SortDesc ℕ} {channels : ChannelTable} {abilities : List Ability}
  {old cache : Cache} {index index' : Index} {group model : String} {id : ℕ}
  {pairs : List (String × String × ℕ)} {c : Channel}

theorem groupMaps_get : (groupMaps abilities).get group =
    if ∃ a ∈ abilities, a.group = group then some .empty else none := by
  have hfold : ∀ m : Index, (abilities.foldl (fun index a => index.put a.group .empty) m).get group =
      if ∃ a ∈ abilities, a.group = group then some .empty else m.get group := by
    induction abilities with
    | nil =>
      intro m
      simp
    | cons a abilities ih =>
      intro m
      rw [List.foldl_cons, ih, Map.get_put]
      by_cases h : ∃ b ∈ abilities, b.group = group
      · have h' : ∃ b ∈ a :: abilities, b.group = group := by
          obtain ⟨b, hb, hg⟩ := h
          exact ⟨b, List.mem_cons_of_mem _ hb, hg⟩
        rw [if_pos h, if_pos h']
      · rw [if_neg h]
        by_cases ha : group = a.group
        · rw [if_pos ha, if_pos ⟨a, List.mem_cons_self, ha.symm⟩]
        · rw [if_neg ha, if_neg]
          rintro ⟨b, hb, hg⟩
          rcases List.mem_cons.mp hb with rfl | hb
          · exact ha hg.symm
          · exact h ⟨b, hb, hg⟩
  exact hfold .empty

/-- An append changes its own list, and no group gets or loses its map. -/
theorem appendChannel_some {e : String × String × ℕ} (h : appendChannel index e = some index') :
    (∀ group, (index'.get group).isSome = (index.get group).isSome) ∧
      ∀ group model, index'.list group model = index.list group model ++
        if e.1 = group ∧ e.2.1 = model then [e.2.2] else [] := by
  obtain ⟨models, hmodels, rfl⟩ := Option.map_eq_some_iff.mp h
  constructor
  · intro group
    rw [Map.get_put]
    by_cases hg : group = e.1
    · rw [if_pos hg, hg, hmodels]
      rfl
    · rw [if_neg hg]
  · intro group model
    unfold Index.list
    rw [Map.get_put]
    by_cases hg : group = e.1
    · subst hg
      rw [if_pos rfl, hmodels, Option.bind_some, Option.bind_some, Map.get_put]
      by_cases hm : model = e.2.1
      · subst hm
        simp
      · rw [if_neg hm, if_neg (fun he => hm he.2.symm), List.append_nil]
    · rw [if_neg hg, if_neg (fun he => hg he.1.symm), List.append_nil]

/-- The appends go through exactly when every group among them has a map. -/
theorem foldlM_appendChannel_isSome :
    (pairs.foldlM appendChannel index).isSome = true ↔
      ∀ e ∈ pairs, (index.get e.1).isSome = true := by
  induction pairs generalizing index with
  | nil => simp
  | cons e pairs ih =>
    rw [List.foldlM_cons]
    cases happ : appendChannel index e with
    | none =>
      have hnone : index.get e.1 = none := by simpa [appendChannel] using happ
      simp [hnone]
    | some index' =>
      obtain ⟨hgroups, -⟩ := appendChannel_some happ
      have hsome : (index.get e.1).isSome = true := by
        obtain ⟨models, hmodels, -⟩ := Option.map_eq_some_iff.mp happ
        rw [hmodels]
        rfl
      show (pairs.foldlM appendChannel index').isSome = true ↔ _
      rw [ih]
      simp only [hgroups, List.mem_cons, forall_eq_or_imp, hsome, true_and]

variable (group model) in
theorem foldlM_appendChannel_list (h : pairs.foldlM appendChannel index = some index') :
    index'.list group model = index.list group model ++
      (pairs.filter fun e => e.1 = group ∧ e.2.1 = model).map fun e => e.2.2 := by
  induction pairs generalizing index with
  | nil =>
    cases h
    simp
  | cons e pairs ih =>
    rw [List.foldlM_cons] at h
    obtain ⟨index₁, happ, h⟩ := Option.bind_eq_some_iff.mp h
    rw [ih h, (appendChannel_some happ).2]
    by_cases he : e.1 = group ∧ e.2.1 = model
    · simp [he]
    · simp [he]

theorem sortIndex_list {byIdMap : Map ℕ Channel} :
    (sortIndex sorter byIdMap index).list group model =
      if ((index.get group).bind fun models => models.get model).isSome then
        sorter.sort (priorityOf byIdMap) (index.list group model) else [] := by
  unfold Index.list sortIndex
  rw [Map.get_mapValues]
  cases index.get group with
  | none => rfl
  | some models =>
    show ((models.mapValues _).get model).getD [] = _
    rw [Map.get_mapValues]
    rw [Option.bind_some]
    cases models.get model with
    | none => rfl
    | some l => rfl

theorem mem_enabledPairs {rows : List Channel} :
    (group, model, id) ∈ enabledPairs rows ↔ ∃ c ∈ rows, c.id = id ∧ c.serves group model := by
  unfold enabledPairs Channel.pairs Channel.serves
  simp only [List.mem_flatMap, List.mem_filter, decide_eq_true_eq, List.mem_map, Prod.mk.injEq]
  constructor
  · rintro ⟨c, ⟨hc, hs⟩, g, hg, m, hm, rfl, rfl, rfl⟩
    exact ⟨c, hc, rfl, hs, hg, hm⟩
  · rintro ⟨c, hc, rfl, hs, hg, hm⟩
    exact ⟨c, ⟨hc, hs⟩, group, hg, model, hm, rfl, rfl, rfl⟩

/-! ## When the rebuild goes through -/

theorem byId_get : (byId channels.rows).get id = channels.find id := by
  unfold byId
  rw [Map.get_foldl_put channels.nodup]
  exact Option.or_none

theorem groupMaps_list : (groupMaps abilities).list group model = [] := by
  unfold Index.list
  rw [groupMaps_get]
  split
  · rfl
  · rfl

theorem refresh_eq (old : Map ℕ Channel) (c : Channel) : c.refresh old =
    { c with
      keys := if c.channelInfo.isMultiKey then c.getKeys else c.keys
      channelInfo := { c.channelInfo with multiKeyPollingIndex := pollingIndex old c } } := by
  obtain ⟨id, key, status, weight, models, group, priority, tag, info, keys⟩ := c
  obtain ⟨isMultiKey, size, statuses, reasons, times, index, mode⟩ := info
  unfold Channel.refresh pollingIndex
  cases isMultiKey with
  | false =>
    have hpolling : ChannelInfo.isPolling ⟨false, size, statuses, reasons, times, index, mode⟩ =
        false := rfl
    cases old.get id with
    | none => rfl
    | some oldChannel => simp [hpolling]
  | true =>
    by_cases hmode : mode = .polling
    · subst hmode
      have hpolling : ChannelInfo.isPolling ⟨true, size, statuses, reasons, times, index, .polling⟩ =
          true := rfl
      cases hold : old.get id with
      | none => simp [hold]
      | some oldChannel =>
        by_cases h : oldChannel.channelInfo.isPolling = true
        · simp [hold, hpolling, h]
        · simp [hold, h]
    · have hpolling : ChannelInfo.isPolling ⟨true, size, statuses, reasons, times, index, mode⟩ =
          false := by
        simp [ChannelInfo.isPolling, hmode]
      cases old.get id with
      | none => simp [hmode]
      | some oldChannel => simp [hmode, hpolling]

theorem refresh_getPriority (old : Map ℕ Channel) : (c.refresh old).getPriority = c.getPriority := by
  rw [refresh_eq]
  rfl

variable (sorter old) in
theorem initChannelCache_isSome : (initChannelCache sorter channels abilities old).isSome = true ↔
    Covered channels abilities := by
  have hiff : (initChannelCache sorter channels abilities old).isSome =
      ((enabledPairs channels.rows).foldlM appendChannel (groupMaps abilities)).isSome :=
    Option.isSome_map
  rw [hiff, foldlM_appendChannel_isSome]
  constructor
  · intro h c hc hs group hg
    cases hmodels : c.splitModels with
    | nil => exact absurd hmodels (split_ne_nil _ _)
    | cons model models =>
      have hpair := h (group, model, c.id)
        (mem_enabledPairs.mpr ⟨c, hc, rfl, hs, hg, by rw [hmodels]; exact List.mem_cons_self⟩)
      rw [groupMaps_get] at hpair
      by_contra hno
      rw [if_neg hno] at hpair
      cases hpair
  · rintro h ⟨group, model, id⟩ he
    obtain ⟨c, hc, -, hs, hg, -⟩ := mem_enabledPairs.mp he
    rw [groupMaps_get, if_pos (h c hc hs group hg)]
    rfl

/-- **What a rebuild leaves.** -/
theorem initChannelCache_indexes (h : initChannelCache sorter channels abilities old = some cache) :
    Indexes channels old cache := by
  obtain ⟨index, hfold, rfl⟩ := Option.map_eq_some_iff.mp h
  have hpriority : ∀ i, priorityOf ((byId channels.rows).mapValues
      (Channel.refresh old.channelsIDM)) i = priorityOf (byId channels.rows) i := by
    intro i
    unfold priorityOf
    rw [Map.get_mapValues]
    cases (byId channels.rows).get i with
    | none => rfl
    | some c => exact refresh_getPriority _
  constructor
  case mem =>
    intro group model id
    have hlist := foldlM_appendChannel_list group model hfold
    rw [groupMaps_list, List.nil_append] at hlist
    have hmem : id ∈ index.list group model ↔
        ∃ c ∈ channels.rows, c.id = id ∧ c.serves group model := by
      rw [hlist, ← mem_enabledPairs]
      simp only [List.mem_map, List.mem_filter, decide_eq_true_eq]
      constructor
      · rintro ⟨e, ⟨he, hg, hm⟩, hid⟩
        rw [← hg, ← hm, ← hid]
        exact he
      · intro he
        exact ⟨_, ⟨he, rfl, rfl⟩, rfl⟩
    rw [← hmem]
    show id ∈ (sortIndex sorter (byId channels.rows) index).list group model ↔ _
    rw [sortIndex_list]
    split
    · exact sorter.mem_sort
    · rename_i hnone
      unfold Index.list
      rw [Option.not_isSome_iff_eq_none.mp hnone]
      rfl
  case sorted =>
    intro group model
    show ((sortIndex sorter (byId channels.rows) index).list group model).Pairwise fun i j =>
      priorityOf ((byId channels.rows).mapValues _) j ≤
        priorityOf ((byId channels.rows).mapValues _) i
    simp only [hpriority]
    rw [sortIndex_list]
    split
    · exact sorter.sorted _ _
    · exact .nil
  case all =>
    intro id
    show ((byId channels.rows).mapValues _).get id = _
    rw [Map.get_mapValues, byId_get]
    congr 1
    funext c
    exact refresh_eq _ c

/-- **The rebuild goes through and indexes the table exactly when** every group of an
enabled channel is the group of some ability that it has read. -/
theorem initChannelCache_iff (sorter : SortDesc ℕ) (channels : ChannelTable)
    (abilities : List Ability) (old : Cache) :
    (∃ cache, initChannelCache sorter channels abilities old = some cache ∧
      Indexes channels old cache) ↔ Covered channels abilities := by
  rw [← initChannelCache_isSome sorter old]
  constructor
  · rintro ⟨cache, h, -⟩
    rw [h]
    rfl
  · intro h
    obtain ⟨cache, hcache⟩ := Option.isSome_iff_exists.mp h
    exact ⟨cache, hcache, initChannelCache_indexes hcache⟩

/-- An enabled channel with one key. -/
def sampleChannel (id : ℕ) (models : String) (weight : ℕ) : Channel where
  id := id
  key := "sk-1"
  status := .enabled
  weight := some weight
  models := models
  group := "default"
  priority := none
  tag := none
  channelInfo := ⟨false, 0, .empty, .empty, .empty, 0, .random⟩
  keys := []

/-- The abilities have been truncated, and not yet been filled in again. -/
theorem initChannelCache_truncated :
    ¬ ∃ cache, initChannelCache (.stable ℕ) ⟨[sampleChannel 1 "gpt-4" 0], by decide⟩ [] .empty =
        some cache ∧ Indexes ⟨[sampleChannel 1 "gpt-4" 0], by decide⟩ .empty cache := by
  rintro ⟨cache, h, -⟩
  have hpanic : initChannelCache (.stable ℕ) ⟨[sampleChannel 1 "gpt-4" 0], by decide⟩ [] .empty =
      none := by decide +kernel
  rw [hpanic] at h
  cases h

end Channels
