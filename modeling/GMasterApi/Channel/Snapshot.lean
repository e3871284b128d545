import GMasterApi.Channel.Agreement

/-!
# Selection while nothing changes

`Snapshot` is what selections read as long as no channel changes: the index that was
built from the tables, or the tables.  In both modes a selection finds a channel exactly
where the group has one for the model, and the channel is on the level of the retry
(`Snapshot.select_none`, `Snapshot.exists_select`).
-/

namespace Channels

open GoMap GoString GoSlice

/-- The two modes, over the same tables. -/
inductive Snapshot (tables : Tables)
  | memoryCache (old cache : Cache) (indexes : Indexes tables.channels old cache)
  | database (sorter : SortDesc Ability)

variable {tables : Tables}

/-- `GetRandomSatisfiedChannel` in either mode. -/
def Snapshot.select (snapshot : Snapshot tables) (group model : String) (retry draw : ℕ) :
    Except String (Option Channel) :=
  match snapshot with
  | .memoryCache _ cache _ => getRandomSatisfiedChannel cache group model retry draw
  | .database sorter =>
    getChannel sorter tables.channels tables.abilities.rows group model retry draw

/-- `IsChannelEnabledForGroupModel` in either mode. -/
def Snapshot.isEnabled (snapshot : Snapshot tables) (group model : String) (id : ℕ) : Bool :=
  match snapshot with
  | .memoryCache _ cache _ => isChannelEnabledForGroupModel cache group model id
  | .database _ => isChannelEnabledForGroupModelDB tables.abilities.rows group model id

/-- `CacheGetChannel`; it fails where there is no such channel. -/
def Snapshot.cacheGetChannel (snapshot : Snapshot tables) (id : ℕ) : Option Channel :=
  match snapshot with
  | .memoryCache _ cache _ => cache.channelsIDM.get id
  | .database _ => tables.channels.find id

/-- The channels of the group for the model, among which a selection is. -/
def Snapshot.channels (snapshot : Snapshot tables) (group model : String) : List Channel :=
  match snapshot with
  | .memoryCache _ _ _ =>
    serving tables.channels.rows group (servedName tables.channels.rows group model)
  | .database _ => storing tables.channels.rows group model

/-- Their priorities, of which the levels are made. -/
def Snapshot.priorities (snapshot : Snapshot tables) (group model : String) : List ℤ :=
  (snapshot.channels group model).map Channel.getPriority

variable {old cache : Cache} {group model : String} {retry draw : ℕ} {cs : List Channel}

/-! ## Every draw finds a channel -/

theorem pickBelow_isSome {α : Type} {weight : α → ℕ} {l : List α} : ∀ {draw : ℕ},
    draw < (l.map weight).sum → ∃ x, pickBelow weight l draw = some x := by
  induction l with
  | nil =>
    intro draw h
    exact absurd h (Nat.not_lt_zero _)
  | cons y l ih =>
    intro draw h
    rw [List.map_cons, List.sum_cons] at h
    unfold pickBelow
    by_cases hlt : draw < weight y
    · exact ⟨y, if_pos hlt⟩
    · rw [if_neg hlt]
      exact ih (by omega)

theorem totalWeight_pos (h : cs ≠ []) : 0 < totalWeight cs := by
  have hlength : 0 < cs.length := List.length_pos_iff.mpr h
  unfold totalWeight
  split
  · omega
  split
  · omega
  · omega

theorem drawChannel_total (h : cs ≠ []) :
    ∃ channel, drawChannel group model cs retry draw = .ok (some channel) := by
  obtain ⟨target, hlevel⟩ := level_isSome (l := cs.map Channel.getPriority) retry (by simpa using h)
  obtain ⟨c, hc, hp⟩ := List.mem_map.mp (level_mem hlevel)
  have hne : cs.filter (fun c => c.getPriority = target) ≠ [] :=
    List.ne_nil_of_mem (List.mem_filter.mpr ⟨hc, decide_eq_true hp⟩)
  have hlt := Nat.mod_lt draw (totalWeight_pos hne)
  nth_rewrite 2 [totalWeight_eq] at hlt
  obtain ⟨channel, hpick⟩ := pickBelow_isSome hlt
  refine ⟨channel, ?_⟩
  unfold drawChannel
  rw [hlevel]
  dsimp only
  rw [if_neg hne, hpick]

theorem getRandomSatisfiedChannel_total
    (h : cs.map some = (cache.candidates group model).map cache.channelsIDM.get) (hne : cs ≠ []) :
    ∃ channel, getRandomSatisfiedChannel cache group model retry draw = .ok (some channel) := by
  have hfound := mapM_find_ok h
  unfold getRandomSatisfiedChannel
  match hids : cache.candidates group model with
  | [] =>
    rw [hids, List.map_nil, List.map_eq_nil_iff] at h
    exact absurd h hne
  | [id] =>
    rw [hids, List.mapM_cons, List.mapM_nil] at hfound
    cases hfind : cache.find id with
    | error e =>
      rw [hfind] at hfound
      cases hfound
    | ok channel =>
      refine ⟨channel, ?_⟩
      dsimp only
      rw [hfind]
      rfl
  | id :: id' :: ids =>
    rw [hids] at hfound
    dsimp only
    rw [hfound]
    exact drawChannel_total hne

theorem getChannel_total {sorter : SortDesc Ability}
    (hne : storing tables.channels.rows group model ≠ []) :
    ∃ channel, getChannel sorter tables.channels tables.abilities.rows group model retry draw =
      .ok (some channel) := by
  obtain ⟨c, hc⟩ := List.exists_mem_of_ne_nil _ hne
  have haen : c.ability group model ∈ enabledAbilities tables.abilities.rows group model :=
    mem_enabledAbilities.mpr ⟨c, hc, rfl⟩
  obtain ⟨rows, hquery⟩ := exists_rows hc
  obtain ⟨p, hp⟩ := level_isSome
    (l := (enabledAbilities tables.abilities.rows group model).map Ability.priority) retry
    (by simpa using List.ne_nil_of_mem haen)
  obtain ⟨a, ha, hap⟩ := List.mem_map.mp (level_mem hp)
  have hrow : a ∈ sorter.sort (fun a => (a.weight : ℤ)) rows :=
    sorter.mem_sort.mpr ((getChannelQuery_ok hquery a).mpr ⟨ha, hap ▸ hp⟩)
  obtain ⟨b, hpick⟩ :=
    pickUpTo_isSome (Nat.mod_lt draw (smoothed_pos (List.ne_nil_of_mem hrow)))
  obtain ⟨c', hc', rfl⟩ := mem_enabledAbilities.mp
    ((getChannelQuery_ok hquery b).mp (sorter.mem_sort.mp (pickUpTo_mem hpick))).1
  exact ⟨c', getChannel_of_pick hc' hquery hpick⟩

/-! ## Either mode -/

/-- A channel that is selected is one of the group, on the level of the retry. -/
theorem Snapshot.select_some {snapshot : Snapshot tables} {channel : Channel}
    (h : snapshot.select group model retry draw = .ok (some channel)) :
    ∃ c ∈ snapshot.channels group model, c.id = channel.id ∧
      level (snapshot.priorities group model) retry = some c.getPriority := by
  cases snapshot with
  | memoryCache old cache indexes =>
    obtain ⟨c, hc, hid, hchosen⟩ := (mem_cacheReturns indexes).mp ⟨draw, channel, h, rfl⟩
    exact ⟨c, hc, hid, hchosen.1⟩
  | database sorter => exact mem_storeReturns.mp ⟨draw, channel, h, rfl⟩

theorem Snapshot.select_none {snapshot : Snapshot tables} {channel : Channel}
    (h : snapshot.channels group model = []) :
    snapshot.select group model retry draw ≠ .ok (some channel) := by
  intro hselect
  obtain ⟨c, hc, -⟩ := select_some hselect
  rw [h] at hc
  cases hc

variable (retry draw) in
theorem Snapshot.exists_select {snapshot : Snapshot tables}
    (h : snapshot.channels group model ≠ []) :
    ∃ channel, snapshot.select group model retry draw = .ok (some channel) := by
  cases snapshot with
  | memoryCache old cache indexes =>
    obtain ⟨cs, hcs, -⟩ := exists_candidates group model indexes
    refine getRandomSatisfiedChannel_total hcs ?_
    obtain ⟨c, hc⟩ := List.exists_mem_of_ne_nil _ h
    have hid := (candidates_iff indexes).mpr ⟨c, hc, rfl⟩
    rintro rfl
    rw [List.map_nil, eq_comm, List.map_eq_nil_iff] at hcs
    rw [hcs] at hid
    cases hid
  | database sorter => exact getChannel_total h

/-- The channels of a group are in the table. -/
theorem Snapshot.find_channel {snapshot : Snapshot tables} {c : Channel}
    (h : c ∈ snapshot.channels group model) : tables.channels.find c.id = some c := by
  refine Table.find_eq_some_iff.mpr ⟨?_, rfl⟩
  cases snapshot with
  | memoryCache old cache indexes => exact (mem_serving.mp h).1
  | database sorter => exact (mem_storing.mp h).1

/-- A channel that is looked up has the priority of its row. -/
theorem Snapshot.cacheGetChannel_priority {snapshot : Snapshot tables} {id : ℕ} {channel : Channel}
    (h : snapshot.cacheGetChannel id = some channel) :
    (tables.channels.find channel.id).map Channel.getPriority = some channel.getPriority := by
  cases snapshot with
  | memoryCache old cache indexes =>
    have hget := (indexes.all id).symm.trans h
    obtain ⟨c, hfind, rfl⟩ := Option.map_eq_some_iff.mp hget
    have hid : c.id = id := (Table.find_eq_some_iff.mp hfind).2
    show (tables.channels.find c.id).map Channel.getPriority = some c.getPriority
    rw [hid, hfind]
    rfl
  | database sorter =>
    have hfind : tables.channels.find id = some channel := h
    rw [(Table.find_eq_some_iff.mp hfind).2, hfind]
    rfl

end Channels
