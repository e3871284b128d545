import GMasterApi.Channel.Select
import GMasterApi.Lib.Transition

/-!
# Disabled channels

`CacheUpdateChannelStatus` takes a channel that is no longer enabled out of the lists
of the cache, and a selection looks at nothing but the lists.  A list holds a channel
as often as its text repeats the group and the model; only one of these is removed.

`disabled_not_selected`: where no list holds the channel twice, it is not selected
again before a rebuild reads it enabled.
-/

namespace Channels

open GoMap GoString GoSlice Transition

/-- The cache, and the channels that were disabled in it since they were last read
enabled. -/
structure Run where
  cache : Cache
  disabled : List ℕ

/-- A rebuild reads the two tables as they are then; each call is atomic. -/
inductive CacheOp
  | init (sorter : SortDesc ℕ) (channels : ChannelTable) (abilities : List Ability)
  | updateStatus (id : ℕ) (status : ChannelStatus)
  | select (group model : String) (retry draw : ℕ)

def readEnabled (channels : ChannelTable) (id : ℕ) : Bool :=
  channels.rows.any fun c => c.id = id ∧ c.status = .enabled

/-- A rebuild that panics has no next state. -/
def cacheSystem : System Run CacheOp where
  step s
    | .init sorter channels abilities =>
      (initChannelCache sorter channels abilities s.cache).map fun cache =>
        ⟨cache, s.disabled.filter fun id => !readEnabled channels id⟩
    | .updateStatus id status =>
      some ⟨cacheUpdateChannelStatus s.cache id status,
        if status ≠ .enabled then id :: s.disabled else s.disabled⟩
    | .select _ _ _ _ => some s

/-- **Not selected**: no selection returns a channel that is disabled. -/
def NotSelected (s : Run) : Prop :=
  ∀ group model retry draw channel,
    getRandomSatisfiedChannel s.cache group model retry draw = .ok (some channel) →
    channel.id ∉ s.disabled

/-- A channel that is disabled is in each list once at most. -/
def ListedOnce (s : Run) : CacheOp → Prop
  | .updateStatus id status => status ≠ .enabled →
    ∀ group model, (s.cache.list group model).count id ≤ 1
  | _ => True

/-! ## What a selection returns -/

variable {cache : Cache} {group model : String} {retry draw id : ℕ} {channel : Channel}
  {status : ChannelStatus} {s : Run}

theorem pickBelow_mem {α : Type} {weight : α → ℕ} {x : α} {l : List α} :
    ∀ {draw : ℕ}, pickBelow weight l draw = some x → x ∈ l := by
  induction l with
  | nil =>
    intro draw h
    cases h
  | cons y l ih =>
    intro draw h
    unfold pickBelow at h
    split at h
    · cases h
      exact List.mem_cons_self
    · exact List.mem_cons_of_mem _ (ih h)

theorem drawChannel_mem {channels : List Channel}
    (h : drawChannel group model channels retry draw = .ok (some channel)) :
    channel ∈ channels := by
  unfold drawChannel at h
  split at h
  · cases h
  dsimp only at h
  split at h
  · cases h
  split at h
  · rename_i hpick
    cases h
    exact List.mem_of_mem_filter (pickBelow_mem hpick)
  · cases h

/-- The channels of the index have the ids that they are kept under. -/
def Cache.Keyed (cache : Cache) : Prop :=
  ∀ id channel, cache.channelsIDM.get id = some channel → channel.id = id

theorem Cache.find_ok (h : cache.find id = .ok channel) :
    cache.channelsIDM.get id = some channel := by
  unfold Cache.find at h
  split at h
  · cases h
    assumption
  · cases h

theorem mapM_find {ids : List ℕ} :
    ∀ {channels : List Channel}, ids.mapM cache.find = .ok channels →
      channels.map some = ids.map cache.channelsIDM.get := by
  induction ids with
  | nil =>
    intro channels h
    cases h
    rfl
  | cons id ids ih =>
    intro channels h
    rw [List.mapM_cons] at h
    cases hid : cache.find id with
    | error e =>
      rw [hid] at h
      cases h
    | ok channel =>
      rw [hid] at h
      cases hids : ids.mapM cache.find with
      | error e =>
        rw [hids] at h
        cases h
      | ok rest =>
        rw [hids] at h
        cases h
        rw [List.map_cons, List.map_cons, ih hids, Cache.find_ok hid]

/-- A selection returns a channel that is listed. -/
theorem selected_mem (hkeyed : cache.Keyed)
    (h : getRandomSatisfiedChannel cache group model retry draw = .ok (some channel)) :
    channel.id ∈ cache.candidates group model := by
  unfold getRandomSatisfiedChannel at h
  split at h
  · cases h
  · rename_i id hids
    rw [hids]
    cases hfind : cache.find id with
    | error e =>
      rw [hfind] at h
      cases h
    | ok found =>
      rw [hfind] at h
      cases h
      rw [hkeyed id _ (Cache.find_ok hfind)]
      exact List.mem_singleton_self _
  · split at h
    · cases h
    · rename_i channels hchannels
      have hmem : some channel ∈ channels.map some :=
        List.mem_map_of_mem (drawChannel_mem h)
      rw [mapM_find hchannels] at hmem
      obtain ⟨id, hid, hget⟩ := List.mem_map.mp hmem
      rw [hkeyed id _ hget]
      exact hid

theorem candidates_mem (h : id ∈ cache.candidates group model) :
    ∃ model, id ∈ cache.list group model := by
  unfold Cache.candidates at h
  dsimp only at h
  split at h
  · exact ⟨_, h⟩
  · exact ⟨_, h⟩

/-! ## Disabling -/

theorem update_list : (cacheUpdateChannelStatus cache id status).list group model =
    if status ≠ .enabled then (cache.list group model).erase id else cache.list group model := by
  unfold cacheUpdateChannelStatus Cache.list Index.list
  by_cases hs : status ≠ .enabled
  · rw [if_pos hs, if_pos hs, Map.get_mapValues]
    cases cache.group2model2channels.get group with
    | none => rfl
    | some models =>
      rw [Option.map_some, Option.bind_some, Option.bind_some, Map.get_mapValues]
      cases models.get model with
      | none => rfl
      | some l => rfl
  · rw [if_neg hs, if_neg hs]

/-- The other channels stay where they are. -/
theorem update_others : ((cacheUpdateChannelStatus cache id status).list group model).filter
    (· ≠ id) = (cache.list group model).filter (· ≠ id) := by
  rw [update_list]
  split
  · induction cache.list group model with
    | nil => rfl
    | cons x l ih =>
      by_cases hx : x = id
      · subst hx
        rw [List.erase_cons_head, List.filter_cons_of_neg (by simp)]
      · rw [List.erase_cons_tail (by simp [hx]), List.filter_cons_of_pos (by simp [hx]),
          List.filter_cons_of_pos (by simp [hx]), ih]
  · rfl

theorem update_keyed (h : cache.Keyed) : (cacheUpdateChannelStatus cache id status).Keyed := by
  intro i channel hget
  unfold cacheUpdateChannelStatus at hget
  dsimp only at hget
  split at hget
  · rename_i old hold
    rw [Map.get_put] at hget
    split at hget
    · rename_i hi
      cases hget
      rw [hi]
      exact h id old hold
    · exact h i channel hget
  · exact h i channel hget

theorem init_keyed {sorter : SortDesc ℕ} {channels : ChannelTable} {abilities : List Ability}
    {old : Cache} (h : initChannelCache sorter channels abilities old = some cache) :
    cache.Keyed := by
  intro id channel hget
  rw [(initChannelCache_indexes h).all] at hget
  obtain ⟨c, hc, rfl⟩ := Option.map_eq_some_iff.mp hget
  exact (Table.find_eq_some_iff.mp hc).2

/-- No list holds a channel that is disabled. -/
structure Removed (s : Run) : Prop where
  keyed : s.cache.Keyed
  absent : ∀ id ∈ s.disabled, ∀ group model, id ∉ s.cache.list group model

theorem Removed.notSelected (h : Removed s) : NotSelected s := by
  intro group model retry draw channel hselect hdisabled
  obtain ⟨model', hmem⟩ := candidates_mem (selected_mem h.keyed hselect)
  exact h.absent _ hdisabled _ _ hmem

theorem Removed.step {op : CacheOp} {t : Run} (h : Removed s) (hop : ListedOnce s op)
    (ht : cacheSystem.step s op = some t) : Removed t := by
  cases op with
  | init sorter channels abilities =>
    obtain ⟨cache, hinit, rfl⟩ := Option.map_eq_some_iff.mp ht
    refine ⟨init_keyed hinit, fun id hid group model hmem => ?_⟩
    obtain ⟨c, hc, hcid, henabled, -, -⟩ := ((initChannelCache_indexes hinit).mem _ _ _).mp hmem
    have hread : readEnabled channels id = true := by
      refine List.any_eq_true.mpr ⟨c, hc, ?_⟩
      rw [decide_eq_true_eq]
      exact ⟨hcid, henabled⟩
    have hfilter := (List.mem_filter.mp hid).2
    rw [hread] at hfilter
    cases hfilter
  | updateStatus id status =>
    cases ht
    refine ⟨update_keyed h.keyed, fun i hi group model hmem => ?_⟩
    change i ∈ (cacheUpdateChannelStatus s.cache id status).list group model at hmem
    rw [update_list] at hmem
    by_cases hs : status ≠ .enabled
    · have hi' : i ∈ id :: s.disabled := by
        simpa only [if_pos hs] using hi
      rw [if_pos hs] at hmem
      rcases List.mem_cons.mp hi' with rfl | hi'
      · have hcount := List.count_pos_iff.mpr hmem
        rw [List.count_erase_self] at hcount
        have honce := hop hs group model
        omega
      · exact h.absent i hi' group model (List.mem_of_mem_erase hmem)
    · have hi' : i ∈ s.disabled := by
        simpa only [if_neg hs] using hi
      rw [if_neg hs] at hmem
      exact h.absent i hi' group model hmem
  | select group model retry draw =>
    cases ht
    exact h

/-- **A disabled channel is not selected** in any run whose status updates find it once
in each list at most; and an update leaves the lists of the others as they are. -/
theorem disabled_not_selected (ops : List CacheOp)
    (h : cacheSystem.EveryStep ListedOnce ⟨.empty, []⟩ ops) :
    cacheSystem.EveryState NotSelected ⟨.empty, []⟩ ops ∧
      ∀ (cache : Cache) (id : ℕ) (status : ChannelStatus) (group model : String),
        ((cacheUpdateChannelStatus cache id status).list group model).filter (· ≠ id) =
          (cache.list group model).filter (· ≠ id) := by
  constructor
  · have h0 : Removed ⟨.empty, []⟩ := by
      constructor
      case keyed =>
        intro id channel hget
        cases hget
      case absent =>
        intro id hid
        cases hid
    exact (System.everyState_of_everyStep (fun _ _ _ hs hop ht => hs.step hop ht) h0 h).mono
      fun _ hs => hs.notSelected
  · intro cache id status group model
    exact update_others

/-! ## Lists without repetition -/

/-- The channel lists no group and no model twice. -/
def Channel.Distinct (channel : Channel) : Prop :=
  channel.splitGroups.Nodup ∧ channel.splitModels.Nodup

theorem nodup_pairs (h : channel.Distinct) : channel.pairs.Nodup := by
  unfold Channel.pairs
  rw [List.nodup_flatMap]
  constructor
  · intro group _
    refine h.2.map fun model model' he => ?_
    simpa using he
  · refine h.1.imp fun {group group'} hne => ?_
    intro e he he'
    obtain ⟨model, -, rfl⟩ := List.mem_map.mp he
    obtain ⟨model', -, he'⟩ := List.mem_map.mp he'
    exact hne (Prod.mk.inj he').1.symm

theorem nodup_enabledPairs {channels : ChannelTable} (h : ∀ c ∈ channels.rows, c.Distinct) :
    (enabledPairs channels.rows).Nodup := by
  unfold enabledPairs
  rw [List.nodup_flatMap]
  constructor
  · intro c hc
    exact nodup_pairs (h c (List.mem_of_mem_filter hc))
  · have hids : (channels.rows.filter fun c => c.status = .enabled).Pairwise
        fun c c' => c.id ≠ c'.id := by
      refine List.Pairwise.filter _ ?_
      exact List.pairwise_map.mp channels.nodup
    refine hids.imp fun {c c'} hne => ?_
    intro e he he'
    unfold Channel.pairs at he he'
    simp only [List.mem_flatMap, List.mem_map] at he he'
    obtain ⟨group, -, model, -, rfl⟩ := he
    obtain ⟨group', -, model', -, he'⟩ := he'
    simp only [Prod.mk.injEq] at he'
    exact hne he'.2.2.symm

/-- Such channels are in each list once. -/
theorem init_nodup {sorter : SortDesc ℕ} {channels : ChannelTable} {abilities : List Ability}
    {old : Cache} (h : initChannelCache sorter channels abilities old = some cache)
    (hdistinct : ∀ c ∈ channels.rows, c.Distinct) (group model : String) :
    (cache.list group model).Nodup := by
  obtain ⟨index, hfold, rfl⟩ := Option.map_eq_some_iff.mp h
  show ((sortIndex sorter (byId channels.rows) index).list group model).Nodup
  rw [sortIndex_list]
  split
  · rw [(sorter.perm _ _).nodup_iff, foldlM_appendChannel_list _ _ hfold, groupMaps_list,
      List.nil_append]
    refine List.Nodup.map_on ?_ ((nodup_enabledPairs hdistinct).filter _)
    rintro ⟨g, m, i⟩ he ⟨g', m', i'⟩ he' hi
    have hp := of_decide_eq_true (List.mem_filter.mp he).2
    have hp' := of_decide_eq_true (List.mem_filter.mp he').2
    obtain ⟨rfl, rfl⟩ := hp
    obtain ⟨rfl, rfl⟩ := hp'
    obtain rfl : i = i' := hi
    rfl
  · exact .nil

/-- A channel is read, and disabled. -/
def disableOnce (models : String) : List CacheOp :=
  [.init (.stable ℕ) ⟨[sampleChannel 1 models 0], by simp⟩ (sampleChannel 1 models 0).addAbilities,
    .updateStatus 1 .autoDisabled]

theorem disabled_not_selected_sample :
    cacheSystem.EveryState NotSelected ⟨.empty, []⟩ (disableOnce "gpt-4,gpt-5") ∧
      ∀ (cache : Cache) (id : ℕ) (status : ChannelStatus) (group model : String),
        ((cacheUpdateChannelStatus cache id status).list group model).filter (· ≠ id) =
          (cache.list group model).filter (· ≠ id) := by
  refine disabled_not_selected (disableOnce "gpt-4,gpt-5") fun t ht => ⟨trivial, fun u hu =>
    ⟨fun _ group model => ?_, trivial⟩⟩
  simp only [cacheSystem] at ht
  obtain ⟨cache, hinit, rfl⟩ := Option.map_eq_some_iff.mp ht
  refine List.nodup_iff_count_le_one.mp (init_nodup hinit (fun c hc => ?_) group model) 1
  rw [List.mem_singleton.mp hc]
  exact ⟨by decide +kernel, by decide +kernel⟩

/-- A channel that repeats its model stays in the list once, and is selected. -/
theorem disabled_repeated_selected :
    ¬ cacheSystem.EveryState NotSelected ⟨.empty, []⟩ (disableOnce "gpt-4,gpt-4") := by
  intro h
  have hrun : (cacheSystem.run ⟨.empty, []⟩ (disableOnce "gpt-4,gpt-4")).map (fun s =>
      ((getRandomSatisfiedChannel s.cache "default" "gpt-4" 0 0).toOption.map
        fun c => c.map Channel.id, s.disabled)) = some (some (some 1), [1]) := by decide +kernel
  obtain ⟨s, hs, hresult⟩ := Option.map_eq_some_iff.mp hrun
  obtain ⟨hselect, hdisabled⟩ := Prod.mk.inj hresult
  cases hchannel : getRandomSatisfiedChannel s.cache "default" "gpt-4" 0 0 with
  | error e =>
    rw [hchannel] at hselect
    cases hselect
  | ok found =>
    rw [hchannel] at hselect
    cases found with
    | none => cases hselect
    | some channel =>
      have hid : channel.id = 1 := by
        injection hselect with hselect
        injection hselect
      refine (h.run hs) "default" "gpt-4" 0 0 channel hchannel ?_
      rw [hid, hdisabled]
      exact List.mem_singleton_self 1

end Channels
