import GMasterApi.Channel.Disabled
import Mathlib.Algebra.BigOperators.Ring.List

/-!
# Cached and uncached selection

The two modes read different data: the index of the cache, and the abilities that
`AddAbilities` inserts.  `selection_agrees_iff` gives the condition on the channels
under which they select alike, and select what `IsChannelEnabledForGroupModel` accepts.
-/

namespace Channels

open GoMap GoString GoSlice

/-- The two tables, where the abilities are those that `AddAbilities` inserts; ids start
at 1. -/
structure Tables where
  channels : ChannelTable
  abilities : AbilityTable
  consistent : ∀ a, a ∈ abilities.rows ↔ ∃ c ∈ channels.rows, a ∈ c.addAbilities
  positive : ∀ c ∈ channels.rows, 0 < c.id

/-- The channels that a selection may return with the memory cache. -/
def cacheReturns (cache : Cache) (group model : String) (retry : ℕ) : Set ℕ :=
  {id | ∃ draw channel, getRandomSatisfiedChannel cache group model retry draw =
    .ok (some channel) ∧ channel.id = id}

/-- The channels that a selection may return from the database. -/
def storeReturns (sorter : SortDesc Ability) (tables : Tables) (group model : String) (retry : ℕ) :
    Set ℕ :=
  {id | ∃ draw channel, getChannel sorter tables.channels tables.abilities.rows group model retry
    draw = .ok (some channel) ∧ channel.id = id}

/-- **Selection agrees.** -/
structure Agree (sorter : SortDesc Ability) (tables : Tables) (cache : Cache)
    (group model : String) : Prop where
  returns : ∀ retry, cacheReturns cache group model retry =
    storeReturns sorter tables group model retry
  cached : ∀ id, (∃ retry, id ∈ cacheReturns cache group model retry) ↔
    isChannelEnabledForGroupModel cache group model id = true
  stored : ∀ id, (∃ retry, id ∈ storeReturns sorter tables group model retry) ↔
    isChannelEnabledForGroupModelDB tables.abilities.rows group model id = true

/-- The channel is enabled and has the ability for the group and the model. -/
def Channel.stored (channel : Channel) (group model : String) : Prop :=
  channel.status = .enabled ∧ ∃ a ∈ channel.addAbilities, a.group = group ∧ a.model = model

/-- The condition on the channels: each pair that is listed has its row; no level of
priority has weights that are 0 beside others; who lists the normalized name lists the
name; and neither the group nor the model is empty. -/
structure Uniform (channels : List Channel) (group model : String) : Prop where
  listed : ∀ c ∈ channels, c.serves group model → c.stored group model
  weights : ∀ c ∈ channels, ∀ c' ∈ channels, c.serves group model → c'.serves group model →
    c.getPriority = c'.getPriority → c.getWeight = 0 → c'.getWeight = 0
  normalized : formatMatchingModelName model ≠ model → ∀ c ∈ channels,
    c.serves group (formatMatchingModelName model) → c.serves group model
  named : group = "" ∨ model = "" → ∀ c ∈ channels, ¬ c.serves group model

/-! ## Draws by weight -/

section Draws

variable {α : Type} {weight : α → ℕ} {x : α} {l : List α}

theorem pickBelow_pos : ∀ {draw : ℕ}, pickBelow weight l draw = some x → 0 < weight x := by
  induction l with
  | nil =>
    intro draw h
    cases h
  | cons y l ih =>
    intro draw h
    unfold pickBelow at h
    split at h
    · cases h
      omega
    · exact ih h

/-- Whatever has a weight is drawn sometimes. -/
theorem exists_pickBelow (hx : x ∈ l) (hpos : 0 < weight x) :
    ∃ draw, draw < (l.map weight).sum ∧ pickBelow weight l draw = some x := by
  induction l with
  | nil => cases hx
  | cons y l ih =>
    rw [List.map_cons, List.sum_cons]
    by_cases hy : 0 < weight y ∧ x = y
    · obtain ⟨hpos, rfl⟩ := hy
      refine ⟨0, by omega, ?_⟩
      rw [pickBelow, if_pos hpos]
    · have hmem : x ∈ l := by
        rcases List.mem_cons.mp hx with rfl | hmem
        · exact absurd ⟨hpos, rfl⟩ hy
        · exact hmem
      obtain ⟨draw, hlt, hpick⟩ := ih hmem
      refine ⟨weight y + draw, by omega, ?_⟩
      rw [pickBelow, if_neg (by omega), Nat.add_sub_cancel_left]
      exact hpick

theorem pickUpTo_mem : ∀ {draw : ℕ}, pickUpTo weight l draw = some x → x ∈ l := by
  induction l with
  | nil =>
    intro draw h
    cases h
  | cons y l ih =>
    intro draw h
    unfold pickUpTo at h
    split at h
    · cases h
      exact List.mem_cons_self
    · exact List.mem_cons_of_mem _ (ih h)

theorem pickUpTo_isSome : ∀ {draw : ℕ}, draw < (l.map weight).sum →
    ∃ x, pickUpTo weight l draw = some x := by
  induction l with
  | nil =>
    intro draw h
    exact absurd h (Nat.not_lt_zero _)
  | cons y l ih =>
    intro draw h
    rw [List.map_cons, List.sum_cons] at h
    unfold pickUpTo
    by_cases hle : draw ≤ weight y
    · exact ⟨y, if_pos hle⟩
    · rw [if_neg hle]
      exact ih (by omega)

variable (weight) in
/-- Every element is drawn sometimes, if each has a weight of 2 at least. -/
theorem exists_pickUpTo (hx : x ∈ l) (htwo : ∀ y ∈ l, 2 ≤ weight y) :
    ∃ draw, 1 ≤ draw ∧ draw < (l.map weight).sum ∧ pickUpTo weight l draw = some x := by
  induction l with
  | nil => cases hx
  | cons y l ih =>
    have hy := htwo y List.mem_cons_self
    rw [List.map_cons, List.sum_cons]
    rcases List.mem_cons.mp hx with rfl | hmem
    · refine ⟨1, by omega, by omega, ?_⟩
      rw [pickUpTo, if_pos (by omega)]
    · obtain ⟨draw, hone, hlt, hpick⟩ := ih hmem fun z hz => htwo z (List.mem_cons_of_mem _ hz)
      refine ⟨weight y + draw, by omega, by omega, ?_⟩
      rw [pickUpTo, if_neg (by omega), Nat.add_sub_cancel_left]
      exact hpick

end Draws

/-! ## The selection of the cache -/

variable {tables : Tables} {cache old : Cache} {sorter : SortDesc Ability} {group model : String}
  {retry id : ℕ} {c : Channel} {cs rows : List Channel}

theorem sumWeight_eq_zero : sumWeight cs = 0 ↔ ∀ c ∈ cs, c.getWeight = 0 := by
  unfold sumWeight
  induction cs with
  | nil => simp
  | cons c cs ih =>
    rw [List.map_cons, List.sum_cons, Nat.add_eq_zero_iff, ih]
    simp

theorem totalWeight_eq : totalWeight cs = (cs.map (effectiveWeight cs)).sum := by
  unfold totalWeight effectiveWeight
  by_cases hzero : sumWeight cs = 0
  · simp only [if_pos hzero]
    have hall : ∀ c ∈ cs, c.getWeight + 100 = 100 := by
      intro c hc
      rw [sumWeight_eq_zero.mp hzero c hc]
    rw [List.map_congr_left hall, List.map_const', List.sum_replicate]
    rfl
  · simp only [if_neg hzero]
    by_cases hsmall : sumWeight cs / cs.length < 10
    · simp only [if_pos hsmall]
      rw [List.sum_map_mul_right]
      rfl
    · simp only [if_neg hsmall]
      rfl

theorem effectiveWeight_pos : 0 < effectiveWeight cs c ↔
    0 < c.getWeight ∨ ∀ c' ∈ cs, c'.getWeight = 0 := by
  unfold effectiveWeight
  rw [← sumWeight_eq_zero]
  by_cases hzero : sumWeight cs = 0
  · simp only [hzero, if_true, or_true, iff_true]
    omega
  · simp only [hzero, if_false, or_false]
    split <;> omega

/-- `c` is on the level of the retry, and has a weight unless none there has one. -/
def Chosen (cs : List Channel) (retry : ℕ) (c : Channel) : Prop :=
  level (cs.map Channel.getPriority) retry = some c.getPriority ∧
    (0 < c.getWeight ∨ ∀ c' ∈ cs, c'.getPriority = c.getPriority → c'.getWeight = 0)

theorem drawChannel_iff : (∃ draw, drawChannel group model cs retry draw = .ok (some c)) ↔
    c ∈ cs ∧ Chosen cs retry c := by
  unfold drawChannel Chosen
  cases hlevel : level (cs.map Channel.getPriority) retry with
  | none => simp
  | some target =>
    dsimp only
    have hfilter : ∀ c, c ∈ cs.filter (fun c => c.getPriority = target) ↔
        c ∈ cs ∧ c.getPriority = target := by
      intro c
      rw [List.mem_filter, decide_eq_true_eq]
    constructor
    · rintro ⟨draw, h⟩
      split at h
      · cases h
      split at h
      · rename_i found hpick
        cases h
        obtain ⟨hmem, rfl⟩ := (hfilter c).mp (pickBelow_mem hpick)
        refine ⟨hmem, rfl, ?_⟩
        rcases effectiveWeight_pos.mp (pickBelow_pos hpick) with hpos | hzero
        · exact .inl hpos
        · exact .inr fun c' hc' hp => hzero c' ((hfilter c').mpr ⟨hc', hp⟩)
      · cases h
    · rintro ⟨hmem, hp, hweight⟩
      obtain rfl : target = c.getPriority := Option.some.inj hp
      have hc := (hfilter c).mpr ⟨hmem, rfl⟩
      have hne := List.ne_nil_of_mem hc
      have hpos : 0 < effectiveWeight (cs.filter fun x => x.getPriority = c.getPriority) c := by
        rw [effectiveWeight_pos]
        rcases hweight with hpos | hzero
        · exact .inl hpos
        · exact .inr fun c' hc' => hzero c' ((hfilter c').mp hc').1 ((hfilter c').mp hc').2
      obtain ⟨draw, hlt, hpick⟩ := exists_pickBelow hc hpos
      rw [← totalWeight_eq] at hlt
      refine ⟨draw, ?_⟩
      rw [if_neg hne, Nat.mod_eq_of_lt hlt, hpick]

/-- The channels of a list of ids that are all in the cache. -/
theorem mapM_find_ok {ids : List ℕ} (h : cs.map some = ids.map cache.channelsIDM.get) :
    ids.mapM cache.find = .ok cs := by
  induction ids generalizing cs with
  | nil =>
    rw [List.map_nil, List.map_eq_nil_iff] at h
    rw [h]
    rfl
  | cons id ids ih =>
    cases cs with
    | nil => cases h
    | cons c cs =>
      rw [List.map_cons, List.map_cons, List.cons.injEq] at h
      have hfind : cache.find id = .ok c := by
        unfold Cache.find
        rw [← h.1]
      rw [List.mapM_cons, hfind, ih h.2]
      rfl

theorem getRandomSatisfiedChannel_iff
    (h : cs.map some = (cache.candidates group model).map cache.channelsIDM.get) :
    (∃ draw, getRandomSatisfiedChannel cache group model retry draw = .ok (some c)) ↔
      c ∈ cs ∧ Chosen cs retry c := by
  unfold getRandomSatisfiedChannel
  cases hids : cache.candidates group model with
  | nil =>
    rw [hids, List.map_nil, List.map_eq_nil_iff] at h
    simp [h]
  | cons id ids =>
    rw [hids] at h
    cases ids with
    | nil =>
      cases cs with
      | nil => cases h
      | cons found rest =>
        rw [List.map_cons, List.map_cons, List.cons.injEq, List.map_nil,
          List.map_eq_nil_iff] at h
        obtain ⟨hget, rfl⟩ := h
        have hfind : cache.find id = .ok found := by
          unfold Cache.find
          rw [← hget]
        constructor
        · rintro ⟨draw, hok⟩
          dsimp only at hok
          rw [hfind] at hok
          cases hok
          refine ⟨List.mem_singleton_self _, ?_, ?_⟩
          · obtain ⟨p, hp⟩ := level_isSome (l := [c.getPriority]) retry (by simp)
            have hmem := level_mem hp
            rw [List.mem_singleton] at hmem
            rw [← hmem]
            exact hp
          · by_cases hw : 0 < c.getWeight
            · exact .inl hw
            · refine .inr fun c' hc' _ => ?_
              rw [List.mem_singleton.mp hc']
              omega
        · rintro ⟨hc, -⟩
          refine ⟨0, ?_⟩
          dsimp only
          rw [List.mem_singleton.mp hc, hfind]
          rfl
    | cons id' ids =>
      have hmap := mapM_find_ok h
      dsimp only
      rw [hmap]
      exact drawChannel_iff

/-- The model name under which the group is searched. -/
def servedName (channels : List Channel) (group model : String) : String :=
  if ∃ c ∈ channels, c.serves group model then model else formatMatchingModelName model

/-- The channels that list the group and the model. -/
def serving (channels : List Channel) (group model : String) : List Channel :=
  channels.filter fun c => c.serves group model

theorem mem_serving : c ∈ serving rows group model ↔ c ∈ rows ∧ c.serves group model := by
  unfold serving
  rw [List.mem_filter, decide_eq_true_eq]

/-- The index lists the channels that serve the group and the model. -/
theorem mem_list_iff (h : Indexes tables.channels old cache) :
    id ∈ cache.list group model ↔ ∃ c ∈ serving tables.channels.rows group model, c.id = id := by
  rw [h.mem]
  constructor
  · rintro ⟨c, hc, hid, hs⟩
    exact ⟨c, mem_serving.mpr ⟨hc, hs⟩, hid⟩
  · rintro ⟨c, hc, hid⟩
    exact ⟨c, (mem_serving.mp hc).1, hid, (mem_serving.mp hc).2⟩

theorem candidates_iff (h : Indexes tables.channels old cache) :
    id ∈ cache.candidates group model ↔
      ∃ c ∈ serving tables.channels.rows group (servedName tables.channels.rows group model),
        c.id = id := by
  unfold Cache.candidates servedName
  by_cases hex : ∃ c ∈ tables.channels.rows, c.serves group model
  · have hne : cache.list group model ≠ [] := by
      obtain ⟨c, hc, hs⟩ := hex
      exact List.ne_nil_of_mem ((h.mem group model c.id).mpr ⟨c, hc, rfl, hs⟩)
    dsimp only
    rw [if_neg hne, if_pos hex, mem_list_iff h]
  · have hnil : cache.list group model = [] := by
      rw [List.eq_nil_iff_forall_not_mem]
      intro i hi
      obtain ⟨c, hc, -, hs⟩ := (h.mem group model i).mp hi
      exact hex ⟨c, hc, hs⟩
    dsimp only
    rw [if_pos hnil, if_neg hex, mem_list_iff h]

/-- A channel as the cache holds it. -/
def Channel.asCached (old : Cache) (c : Channel) : Channel :=
  { c with
    keys := if c.channelInfo.isMultiKey then c.getKeys else c.keys
    channelInfo := { c.channelInfo with
      multiKeyPollingIndex := pollingIndex old.channelsIDM c } }

theorem get_asCached (h : Indexes tables.channels old cache) (hc : c ∈ tables.channels.rows) :
    cache.channelsIDM.get c.id = some (c.asCached old) := by
  rw [h.all, Table.find_eq_some_iff.mpr ⟨hc, rfl⟩]
  rfl

theorem map_some_filterMap {f : ℕ → Option Channel} {ids : List ℕ}
    (h : ∀ id ∈ ids, ∃ c, f id = some c) : (ids.filterMap f).map some = ids.map f := by
  induction ids with
  | nil => rfl
  | cons id ids ih =>
    obtain ⟨c, hc⟩ := h id List.mem_cons_self
    rw [List.filterMap_cons_some hc, List.map_cons, List.map_cons, hc,
      ih fun i hi => h i (List.mem_cons_of_mem _ hi)]

variable (group model) in
/-- The candidates, as the cache holds them. -/
theorem exists_candidates (h : Indexes tables.channels old cache) : ∃ cs : List Channel,
    cs.map some = (cache.candidates group model).map cache.channelsIDM.get ∧
    ∀ x, x ∈ cs ↔ ∃ c ∈ serving tables.channels.rows group
      (servedName tables.channels.rows group model), x = c.asCached old := by
  refine ⟨(cache.candidates group model).filterMap cache.channelsIDM.get, ?_, fun x => ?_⟩
  · apply map_some_filterMap
    intro id hid
    obtain ⟨c, hc, rfl⟩ := (candidates_iff h).mp hid
    exact ⟨_, get_asCached h (mem_serving.mp hc).1⟩
  · rw [List.mem_filterMap]
    constructor
    · rintro ⟨id, hid, hx⟩
      obtain ⟨c, hc, rfl⟩ := (candidates_iff h).mp hid
      rw [get_asCached h (mem_serving.mp hc).1] at hx
      exact ⟨c, hc, (Option.some.inj hx).symm⟩
    · rintro ⟨c, hc, rfl⟩
      exact ⟨c.id, (candidates_iff h).mpr ⟨c, hc, rfl⟩, get_asCached h (mem_serving.mp hc).1⟩

/-- The channels are chosen by their priorities and weights alone. -/
theorem chosen_asCached {served : List Channel}
    (h : ∀ x, x ∈ cs ↔ ∃ c ∈ served, x = c.asCached old) (c : Channel) :
    Chosen cs retry (c.asCached old) ↔ Chosen served retry c := by
  have hlevel : level (cs.map Channel.getPriority) retry =
      level (served.map Channel.getPriority) retry := by
    refine level_congr (fun p => ?_) retry
    simp only [List.mem_map, h]
    constructor
    · rintro ⟨x, ⟨c, hc, rfl⟩, rfl⟩
      exact ⟨c, hc, rfl⟩
    · rintro ⟨c, hc, rfl⟩
      exact ⟨c.asCached old, ⟨c, hc, rfl⟩, rfl⟩
  unfold Chosen
  rw [hlevel]
  refine and_congr_right fun _ => or_congr_right ?_
  constructor
  · intro hzero c' hc' hp
    exact hzero (c'.asCached old) ((h _).mpr ⟨c', hc', rfl⟩) hp
  · intro hzero x hx hp
    obtain ⟨c', hc', rfl⟩ := (h x).mp hx
    exact hzero c' hc' hp

/-- **What the cache may return**: the channels that are chosen among those that serve
the group and the name. -/
theorem mem_cacheReturns (h : Indexes tables.channels old cache) :
    id ∈ cacheReturns cache group model retry ↔
      ∃ c ∈ serving tables.channels.rows group (servedName tables.channels.rows group model),
        c.id = id ∧
        Chosen (serving tables.channels.rows group (servedName tables.channels.rows group model))
          retry c := by
  obtain ⟨cs, hcs, hview⟩ := exists_candidates group model h
  constructor
  · rintro ⟨draw, x, hok, rfl⟩
    obtain ⟨hx, hc⟩ := (getRandomSatisfiedChannel_iff hcs).mp ⟨draw, hok⟩
    obtain ⟨c, hserves, rfl⟩ := (hview x).mp hx
    exact ⟨c, hserves, rfl, (chosen_asCached hview c).mp hc⟩
  · rintro ⟨c, hc, rfl, hch⟩
    have hreturned : c.asCached old ∈ cs ∧ Chosen cs retry (c.asCached old) :=
      ⟨(hview _).mpr ⟨c, hc, rfl⟩, (chosen_asCached hview c).mpr hch⟩
    obtain ⟨draw, hok⟩ := (getRandomSatisfiedChannel_iff hcs).mpr hreturned
    exact ⟨draw, c.asCached old, hok, rfl⟩

/-! ## The selection of the database -/

instance (channel : Channel) (group model : String) : Decidable (channel.stored group model) :=
  inferInstanceAs (Decidable (_ ∧ _))

/-- The channels that have the ability. -/
def storing (channels : List Channel) (group model : String) : List Channel :=
  channels.filter fun c => c.stored group model

theorem mem_storing : c ∈ storing rows group model ↔ c ∈ rows ∧ c.stored group model := by
  unfold storing
  rw [List.mem_filter, decide_eq_true_eq]

theorem Channel.stored.serves (h : c.stored group model) : c.serves group model := by
  obtain ⟨hs, a, ha, rfl, rfl⟩ := h
  obtain ⟨hg, hm, -⟩ := mem_addAbilities ha
  exact ⟨hs, hg, hm⟩

theorem mem_enabledAbilities {a : Ability} :
    a ∈ enabledAbilities tables.abilities.rows group model ↔
      ∃ c ∈ storing tables.channels.rows group model, a = c.ability group model := by
  unfold enabledAbilities
  rw [List.mem_filter, decide_eq_true_eq, tables.consistent]
  constructor
  · rintro ⟨⟨c, hc, ha⟩, rfl, rfl, henabled⟩
    obtain ⟨-, -, heq⟩ := mem_addAbilities ha
    have hs : c.status = .enabled := by
      rw [heq] at henabled
      exact of_decide_eq_true henabled
    exact ⟨c, mem_storing.mpr ⟨hc, hs, a, ha, rfl, rfl⟩, heq⟩
  · rintro ⟨c, hc, rfl⟩
    obtain ⟨hrow, hs, a, ha, rfl, rfl⟩ := mem_storing.mp hc
    obtain ⟨-, -, heq⟩ := mem_addAbilities ha
    refine ⟨⟨c, hrow, ?_⟩, rfl, rfl, ?_⟩
    · rw [← heq]
      exact ha
    · exact decide_eq_true hs

/-- The largest priority is the one of the first level. -/
theorem max?_eq_level {l : List ℤ} {p : ℤ} : l.max? = some p ↔ level l 0 = some p := by
  rw [List.max?_eq_some_iff]
  constructor
  · rintro ⟨hp, hmax⟩
    obtain ⟨q, hq⟩ := level_isSome 0 (List.ne_nil_of_mem hp)
    have hle := level_zero_max hq hp
    have hge := hmax q (level_mem hq)
    have heq : q = p := by omega
    rw [hq, heq]
  · intro h
    exact ⟨level_mem h, fun q hq => level_zero_max h hq⟩

/-- The rows that the query finds are those of the level. -/
theorem getChannelQuery_ok {rows : List Ability}
    (h : getChannelQuery tables.abilities.rows group model retry = .ok rows) (a : Ability) :
    a ∈ rows ↔ a ∈ enabledAbilities tables.abilities.rows group model ∧
      level ((enabledAbilities tables.abilities.rows group model).map Ability.priority) retry =
        some a.priority := by
  unfold getChannelQuery at h
  dsimp only at h
  by_cases hzero : retry = 0
  · rw [if_pos hzero] at h
    cases h
    rw [List.mem_filter, decide_eq_true_eq, max?_eq_level, hzero]
  · rw [if_neg hzero] at h
    unfold getPriority at h
    cases hlevel : level ((enabledAbilities tables.abilities.rows group model).map
        Ability.priority) retry with
    | none =>
      rw [hlevel] at h
      cases h
    | some p =>
      rw [hlevel] at h
      cases h
      rw [List.mem_filter, decide_eq_true_eq, Option.some.injEq]
      exact and_congr_right fun _ => eq_comm

/-- The query fails on no rows alone. -/
theorem getChannelQuery_error {e : String}
    (h : getChannelQuery tables.abilities.rows group model retry = .error e) :
    enabledAbilities tables.abilities.rows group model = [] := by
  unfold getChannelQuery at h
  dsimp only at h
  split at h
  · cases h
  · unfold getPriority at h
    by_contra hne
    obtain ⟨p, hp⟩ := level_isSome
      (l := (enabledAbilities tables.abilities.rows group model).map Ability.priority) retry
      (by simpa using hne)
    rw [hp] at h
    cases h

/-- Where a channel has the ability the query finds rows. -/
theorem exists_rows {c : Channel} (hc : c ∈ storing tables.channels.rows group model) :
    ∃ rows, getChannelQuery tables.abilities.rows group model retry = .ok rows := by
  have haen : c.ability group model ∈ enabledAbilities tables.abilities.rows group model :=
    mem_enabledAbilities.mpr ⟨c, hc, rfl⟩
  cases hquery : getChannelQuery tables.abilities.rows group model retry with
  | error e =>
    rw [getChannelQuery_error hquery] at haen
    cases haen
  | ok rows => exact ⟨rows, rfl⟩

theorem smoothed_pos {rows : List Ability} (hne : rows ≠ []) :
    0 < (rows.map fun a => a.weight + 10).sum := by
  cases rows with
  | nil => exact absurd rfl hne
  | cons a rest =>
    rw [List.map_cons, List.sum_cons]
    omega

/-- The channel whose row is picked is returned. -/
theorem getChannel_of_pick {c : Channel} {rows : List Ability} {draw : ℕ}
    (hc : c ∈ storing tables.channels.rows group model)
    (hquery : getChannelQuery tables.abilities.rows group model retry = .ok rows)
    (hpick : pickUpTo (fun a => a.weight + 10) (sorter.sort (fun a => (a.weight : ℤ)) rows)
      (draw % ((sorter.sort (fun a => (a.weight : ℤ)) rows).map fun a => a.weight + 10).sum) =
        some (c.ability group model)) :
    getChannel sorter tables.channels tables.abilities.rows group model retry draw =
      .ok (some c) := by
  have hid : (c.ability group model).channelId = c.id := rfl
  have hfind := Table.find_eq_some_iff.mpr ⟨(mem_storing.mp hc).1, rfl⟩
  unfold getChannel
  rw [hquery]
  dsimp only
  rw [if_neg (List.ne_nil_of_mem (pickUpTo_mem hpick)), hpick, Option.map_some, Option.getD_some,
    hid, hfind]

/-- **What the database may return**: the channels on the level of the retry among those
that have the ability. -/
theorem mem_storeReturns : id ∈ storeReturns sorter tables group model retry ↔
    ∃ c ∈ storing tables.channels.rows group model, c.id = id ∧
      level ((storing tables.channels.rows group model).map Channel.getPriority) retry =
        some c.getPriority := by
  have hlevel : level ((enabledAbilities tables.abilities.rows group model).map
      Ability.priority) retry =
      level ((storing tables.channels.rows group model).map Channel.getPriority) retry := by
    refine level_congr (fun p => ?_) retry
    simp only [List.mem_map, mem_enabledAbilities]
    constructor
    · rintro ⟨a, ⟨c, hc, rfl⟩, rfl⟩
      exact ⟨c, hc, rfl⟩
    · rintro ⟨c, hc, rfl⟩
      exact ⟨_, ⟨c, hc, rfl⟩, rfl⟩
  rw [← hlevel]
  constructor
  · rintro ⟨draw, channel, hok, rfl⟩
    unfold getChannel at hok
    split at hok
    · cases hok
    rename_i rows hquery
    dsimp only at hok
    split at hok
    · cases hok
    rename_i hne
    obtain ⟨a, ha⟩ := pickUpTo_isSome (Nat.mod_lt draw (smoothed_pos hne))
    rw [ha, Option.map_some, Option.getD_some] at hok
    split at hok
    · rename_i found hfind
      cases hok
      obtain ⟨hmem, hid⟩ := Table.find_eq_some_iff.mp hfind
      obtain ⟨haen, halevel⟩ := (getChannelQuery_ok hquery a).mp
        (sorter.mem_sort.mp (pickUpTo_mem ha))
      obtain ⟨c, hc, rfl⟩ := mem_enabledAbilities.mp haen
      exact ⟨c, hc, hid.symm, halevel⟩
    · cases hok
  · rintro ⟨c, hc, rfl, hp⟩
    have haen : c.ability group model ∈ enabledAbilities tables.abilities.rows group model :=
      mem_enabledAbilities.mpr ⟨c, hc, rfl⟩
    obtain ⟨rows, hquery⟩ := exists_rows hc
    have hmem : c.ability group model ∈ sorter.sort (fun a => (a.weight : ℤ)) rows :=
      sorter.mem_sort.mpr ((getChannelQuery_ok hquery _).mpr ⟨haen, hp⟩)
    obtain ⟨draw, -, hlt, hpick⟩ := exists_pickUpTo
      (fun a : Ability => a.weight + 10) hmem fun a _ => by omega
    refine ⟨draw, c, getChannel_of_pick hc hquery ?_, rfl⟩
    rw [Nat.mod_eq_of_lt hlt, hpick]

/-! ## When they agree -/

theorem isEnabled_iff (h : Indexes tables.channels old cache) :
    isChannelEnabledForGroupModel cache group model id = true ↔
      group ≠ "" ∧ model ≠ "" ∧ id ≠ 0 ∧
        ((∃ c ∈ serving tables.channels.rows group model, c.id = id) ∨
          formatMatchingModelName model ≠ "" ∧ formatMatchingModelName model ≠ model ∧
            ∃ c ∈ serving tables.channels.rows group (formatMatchingModelName model),
              c.id = id) := by
  unfold isChannelEnabledForGroupModel
  rw [← mem_list_iff h, ← mem_list_iff h]
  by_cases hguard : group = "" ∨ model = "" ∨ id = 0
  · rw [if_pos hguard]
    tauto
  · rw [if_neg hguard]
    rw [not_or, not_or] at hguard
    obtain ⟨hg, hm, hid⟩ := hguard
    by_cases hlist : id ∈ cache.list group model
    · simp [hlist, hg, hm, hid]
    · simp [hlist, hg, hm, hid]

theorem count_pos_iff : 0 < ((enabledAbilities tables.abilities.rows group model).filter
    fun a => a.channelId = id).length ↔
      ∃ c ∈ storing tables.channels.rows group model, c.id = id := by
  rw [List.length_pos_iff_exists_mem]
  constructor
  · rintro ⟨a, ha⟩
    obtain ⟨haen, hid⟩ := List.mem_filter.mp ha
    obtain ⟨c, hc, rfl⟩ := mem_enabledAbilities.mp haen
    exact ⟨c, hc, of_decide_eq_true hid⟩
  · rintro ⟨c, hc, hid⟩
    exact ⟨_, List.mem_filter.mpr ⟨mem_enabledAbilities.mpr ⟨c, hc, rfl⟩, decide_eq_true hid⟩⟩

theorem isEnabledDB_iff :
    isChannelEnabledForGroupModelDB tables.abilities.rows group model id = true ↔
      group ≠ "" ∧ model ≠ "" ∧ id ≠ 0 ∧
        ((∃ c ∈ storing tables.channels.rows group model, c.id = id) ∨
          formatMatchingModelName model ≠ "" ∧ formatMatchingModelName model ≠ model ∧
            ∃ c ∈ storing tables.channels.rows group (formatMatchingModelName model),
              c.id = id) := by
  unfold isChannelEnabledForGroupModelDB
  rw [← count_pos_iff, ← count_pos_iff]
  dsimp only
  by_cases hguard : group = "" ∨ model = "" ∨ id = 0
  · rw [if_pos hguard]
    tauto
  · rw [if_neg hguard]
    rw [not_or, not_or] at hguard
    obtain ⟨hg, hm, hid⟩ := hguard
    split
    · rename_i hcount
      simp [hcount, hg, hm, hid]
    · rename_i hcount
      split
      · rename_i hsame
        simp only [Bool.false_eq_true, false_iff]
        rintro ⟨-, -, -, hc | ⟨hn, hne, -⟩⟩
        · exact hcount hc
        · rcases hsame with he | he
          · exact hn he
          · exact hne he
      · rename_i hsame
        rw [not_or] at hsame
        rw [decide_eq_true_eq]
        constructor
        · intro hc
          exact ⟨hg, hm, hid, .inr ⟨hsame.1, hsame.2, hc⟩⟩
        · rintro ⟨-, -, -, hc | ⟨-, -, hc⟩⟩
          · exact absurd hc hcount
          · exact hc

theorem ite_ne_empty {p : Prop} [Decidable p] {a b : String} (ha : a ≠ "") (hb : b ≠ "") :
    (if p then a else b) ≠ "" := by
  split
  · exact ha
  · exact hb

theorem handleThinkingBudgetModel_ne_empty (h : model ≠ "") {pre wildcard : String}
    (hwildcard : wildcard ≠ "") : handleThinkingBudgetModel model pre wildcard ≠ "" :=
  ite_ne_empty hwildcard h

/-- No name is normalized to the empty one. -/
theorem formatMatchingModelName_ne_empty (h : model ≠ "") : formatMatchingModelName model ≠ "" := by
  unfold formatMatchingModelName
  dsimp only
  apply ite_ne_empty (by decide)
  apply ite_ne_empty (by decide)
  apply ite_ne_empty (handleThinkingBudgetModel_ne_empty h (by decide))
  apply ite_ne_empty (handleThinkingBudgetModel_ne_empty h (by decide))
  apply ite_ne_empty (handleThinkingBudgetModel_ne_empty h (by decide))
  exact h

/-- Each channel of a level is on it, and some channel of the level is chosen. -/
theorem exists_chosen (hc : c ∈ cs) : ∃ retry, ∃ x ∈ cs, Chosen cs retry x := by
  obtain ⟨retry, hlevel⟩ := exists_level (List.mem_map_of_mem (f := Channel.getPriority) hc)
  refine ⟨retry, ?_⟩
  by_cases hw : ∃ x ∈ cs, x.getPriority = c.getPriority ∧ 0 < x.getWeight
  · obtain ⟨x, hx, hp, hpos⟩ := hw
    refine ⟨x, hx, ?_, .inl hpos⟩
    rw [hp]
    exact hlevel
  · refine ⟨c, hc, hlevel, .inr fun x hx hp => ?_⟩
    by_contra hne
    exact hw ⟨x, hx, hp, Nat.pos_of_ne_zero hne⟩

theorem servedName_of_serves (hc : c ∈ rows) (hs : c.serves group model) :
    servedName rows group model = model := by
  unfold servedName
  rw [if_pos ⟨c, hc, hs⟩]

theorem Agree.uniform (h : Agree sorter tables cache group model)
    (hindex : Indexes tables.channels old cache) : Uniform tables.channels.rows group model := by
  -- Whatever a selection returns is accepted, and what is accepted is returned.
  have hnamed : group = "" ∨ model = "" → ∀ c ∈ tables.channels.rows, ¬ c.serves group model := by
    intro hempty c hc hs
    have hname := servedName_of_serves hc hs
    obtain ⟨retry, x, hx, hchosen⟩ := exists_chosen (mem_serving.mpr ⟨hc, hs⟩)
    have hmem : x.id ∈ cacheReturns cache group model retry := (mem_cacheReturns hindex).mpr
      ⟨x, by rw [hname]; exact hx, rfl, by rw [hname]; exact hchosen⟩
    obtain ⟨hg, hm, -⟩ := (isEnabled_iff hindex).mp ((h.cached x.id).mp ⟨retry, hmem⟩)
    rcases hempty with he | he
    · exact hg he
    · exact hm he
  have hreturned : ∀ c ∈ tables.channels.rows, c.serves group model →
      ∃ retry, c.id ∈ cacheReturns cache group model retry := by
    intro c hc hs
    refine (h.cached c.id).mpr ((isEnabled_iff hindex).mpr ⟨?_, ?_, ?_, .inl ?_⟩)
    · exact fun he => hnamed (.inl he) c hc hs
    · exact fun he => hnamed (.inr he) c hc hs
    · have hpos := tables.positive c hc
      omega
    · exact ⟨c, mem_serving.mpr ⟨hc, hs⟩, rfl⟩
  constructor
  case named => exact hnamed
  case listed =>
    intro c hc hs
    obtain ⟨retry, hmem⟩ := hreturned c hc hs
    rw [h.returns] at hmem
    obtain ⟨c', hc', hid, -⟩ := mem_storeReturns.mp hmem
    rw [← Table.eq_of_mem (mem_storing.mp hc').1 hc hid]
    exact (mem_storing.mp hc').2
  case weights =>
    intro c hc c' hc' hs hs' hp hw
    obtain ⟨retry, hmem⟩ := hreturned c hc hs
    have hname := servedName_of_serves hc hs
    obtain ⟨x, hx, hid, hchosen⟩ := (mem_cacheReturns hindex).mp hmem
    rw [hname] at hx hchosen
    obtain rfl := Table.eq_of_mem (mem_serving.mp hx).1 hc hid
    rcases hchosen.2 with hpos | hzero
    · omega
    · exact hzero c' (mem_serving.mpr ⟨hc', hs'⟩) hp.symm
  case normalized =>
    intro hne c hc hs
    by_cases hex : ∃ x ∈ tables.channels.rows, x.serves group model
    · obtain ⟨x, hx, hxs⟩ := hex
      have hguard : group ≠ "" ∧ model ≠ "" :=
        ⟨fun he => hnamed (.inl he) x hx hxs, fun he => hnamed (.inr he) x hx hxs⟩
      have hpos := tables.positive c hc
      have henabled : isChannelEnabledForGroupModel cache group model c.id := (isEnabled_iff hindex).mpr
        ⟨hguard.1, hguard.2, by omega, .inr ⟨formatMatchingModelName_ne_empty hguard.2, hne, c,
          mem_serving.mpr ⟨hc, hs⟩, rfl⟩⟩
      obtain ⟨retry, hmem⟩ := (h.cached c.id).mpr henabled
      obtain ⟨c', hc', hid, -⟩ := (mem_cacheReturns hindex).mp hmem
      rw [servedName_of_serves hx hxs] at hc'
      rw [← Table.eq_of_mem (mem_serving.mp hc').1 hc hid]
      exact (mem_serving.mp hc').2
    · -- The cache falls back to the normalized name, the database does not.
      have hname : servedName tables.channels.rows group model =
          formatMatchingModelName model := by
        unfold servedName
        rw [if_neg hex]
      obtain ⟨retry, x, hx, hchosen⟩ := exists_chosen (mem_serving.mpr ⟨hc, hs⟩)
      have hmem : x.id ∈ cacheReturns cache group model retry := (mem_cacheReturns hindex).mpr
        ⟨x, by rw [hname]; exact hx, rfl, by rw [hname]; exact hchosen⟩
      rw [h.returns] at hmem
      obtain ⟨c', hc', -, -⟩ := mem_storeReturns.mp hmem
      exact absurd ⟨c', (mem_storing.mp hc').1, (mem_storing.mp hc').2.serves⟩ hex

/-- The database and the cache then find the same channels. -/
theorem Uniform.storing_eq (h : Uniform rows group model) :
    storing rows group model = serving rows group model := by
  refine List.filter_congr fun c hc => ?_
  rw [decide_eq_decide]
  exact ⟨fun hs => hs.serves, h.listed c hc⟩

/-- The normalized name adds no channel. -/
theorem Uniform.servedName_eq (h : Uniform rows group model) :
    serving rows group (servedName rows group model) = serving rows group model := by
  unfold servedName
  by_cases hex : ∃ c ∈ rows, c.serves group model
  · rw [if_pos hex]
  · rw [if_neg hex]
    by_cases hne : formatMatchingModelName model = model
    · rw [hne]
    · refine List.filter_congr fun c hc => ?_
      rw [decide_eq_decide]
      constructor
      · exact h.normalized hne c hc
      · intro hs
        exact absurd ⟨c, hc, hs⟩ hex

/-- Both selections may return the same channels. -/
theorem Uniform.returns_iff (h : Uniform tables.channels.rows group model)
    (hindex : Indexes tables.channels old cache) (retry id : ℕ) :
    id ∈ cacheReturns cache group model retry ↔
      id ∈ storeReturns sorter tables group model retry := by
  rw [mem_cacheReturns hindex, mem_storeReturns, h.servedName_eq, h.storing_eq]
  constructor
  · rintro ⟨c, hc, hid, hlevel, -⟩
    exact ⟨c, hc, hid, hlevel⟩
  · rintro ⟨c, hc, hid, hlevel⟩
    refine ⟨c, hc, hid, hlevel, ?_⟩
    by_cases hw : 0 < c.getWeight
    · exact .inl hw
    · refine .inr fun c' hc' hp => ?_
      obtain ⟨hrow, hs⟩ := mem_serving.mp hc
      obtain ⟨hrow', hs'⟩ := mem_serving.mp hc'
      exact h.weights c hrow c' hrow' hs hs' hp.symm (by omega)

variable (sorter) in
/-- Every channel that serves the name is returned for some retry. -/
theorem Uniform.returned_iff (h : Uniform tables.channels.rows group model) (id : ℕ) :
    (∃ retry, id ∈ storeReturns sorter tables group model retry) ↔
      ∃ c ∈ serving tables.channels.rows group model, c.id = id := by
  constructor
  · rintro ⟨retry, hmem⟩
    obtain ⟨c, hc, hid, -⟩ := mem_storeReturns.mp hmem
    rw [h.storing_eq] at hc
    exact ⟨c, hc, hid⟩
  · rintro ⟨c, hc, hid⟩
    obtain ⟨retry, hlevel⟩ := exists_level (List.mem_map_of_mem (f := Channel.getPriority) hc)
    refine ⟨retry, mem_storeReturns.mpr ?_⟩
    rw [h.storing_eq]
    exact ⟨c, hc, hid, hlevel⟩

/-- What both checks accept is what serves the name. -/
theorem Uniform.accepts_iff (h : Uniform tables.channels.rows group model) (id : ℕ) :
    (∃ c ∈ serving tables.channels.rows group model, c.id = id) ↔
      group ≠ "" ∧ model ≠ "" ∧ id ≠ 0 ∧
        ((∃ c ∈ serving tables.channels.rows group model, c.id = id) ∨
          formatMatchingModelName model ≠ "" ∧ formatMatchingModelName model ≠ model ∧
            ∃ c ∈ serving tables.channels.rows group (formatMatchingModelName model),
              c.id = id) := by
  constructor
  · rintro ⟨c, hc, rfl⟩
    obtain ⟨hrow, hs⟩ := mem_serving.mp hc
    have hpos := tables.positive c hrow
    exact ⟨fun he => h.named (.inl he) c hrow hs, fun he => h.named (.inr he) c hrow hs,
      by omega, .inl ⟨c, hc, rfl⟩⟩
  · rintro ⟨-, -, -, hserves | ⟨-, hne, c, hc, hid⟩⟩
    · exact hserves
    · obtain ⟨hrow, hs⟩ := mem_serving.mp hc
      exact ⟨c, mem_serving.mpr ⟨hrow, h.normalized hne c hrow hs⟩, hid⟩

theorem Uniform.agree (h : Uniform tables.channels.rows group model)
    (hindex : Indexes tables.channels old cache) : Agree sorter tables cache group model := by
  constructor
  case returns =>
    intro retry
    ext id
    exact h.returns_iff hindex retry id
  case cached =>
    intro id
    rw [isEnabled_iff hindex, ← h.accepts_iff, ← h.returned_iff sorter id]
    exact exists_congr fun retry => h.returns_iff hindex retry id
  case stored =>
    intro id
    rw [isEnabledDB_iff, h.returned_iff sorter, h.storing_eq]
    constructor
    · intro hserves
      obtain ⟨hg, hm, hid, -⟩ := (h.accepts_iff id).mp hserves
      exact ⟨hg, hm, hid, .inl hserves⟩
    · rintro ⟨hg, hm, hid, hserves | ⟨hn, hne, c, hc, hcid⟩⟩
      · exact hserves
      · obtain ⟨hrow, hs⟩ := mem_storing.mp hc
        exact (h.accepts_iff id).mpr ⟨hg, hm, hid, .inr ⟨hn, hne, c,
          mem_serving.mpr ⟨hrow, hs.serves⟩, hcid⟩⟩

/-- With the abilities in place the rebuild goes through. -/
theorem covered_tables (tables : Tables) : Covered tables.channels tables.abilities.rows := by
  intro c hc _ group hg
  obtain ⟨a, ha, hgroup⟩ := exists_ability_of_group hg
  exact ⟨a, (tables.consistent a).mpr ⟨c, hc, ha⟩, hgroup⟩

/-- **Cached and uncached selection agree exactly when** the channels of the group and
the model are uniform. -/
theorem selection_agrees_iff (ids : SortDesc ℕ) (sorter : SortDesc Ability) (tables : Tables)
    (old : Cache) (group model : String) :
    (∃ cache, initChannelCache ids tables.channels tables.abilities.rows old = some cache ∧
      Agree sorter tables cache group model) ↔ Uniform tables.channels.rows group model := by
  constructor
  · rintro ⟨cache, hinit, hagree⟩
    exact hagree.uniform (initChannelCache_indexes hinit)
  · intro h
    obtain ⟨cache, hinit⟩ := Option.isSome_iff_exists.mp
      ((initChannelCache_isSome ids old).mpr (covered_tables tables))
    exact ⟨cache, hinit, h.agree (initChannelCache_indexes hinit)⟩

theorem nodup_sampleChannel (models : String) :
    ([sampleChannel 1 models 0].map Channel.id).Nodup := by simp

/-- One channel, with its abilities. -/
def sampleTables (models : String)
    (h : ((sampleChannel 1 models 0).addAbilities.map Ability.key).Nodup) : Tables where
  channels := ⟨[sampleChannel 1 models 0], nodup_sampleChannel models⟩
  abilities := ⟨(sampleChannel 1 models 0).addAbilities, h⟩
  consistent a := by simp
  positive c hc := by
    rw [List.mem_singleton.mp hc]
    exact Nat.one_pos

/-- The channel lists the normalized name of the model only: the cache finds it, the
database does not. -/
theorem selection_normalized_disagrees : ¬ ∃ cache,
    initChannelCache (.stable ℕ)
        (sampleTables "gemini-2.5-pro-thinking-*" (by decide +kernel)).channels
        (sampleTables "gemini-2.5-pro-thinking-*" (by decide +kernel)).abilities.rows .empty =
      some cache ∧
    Agree (.stable Ability) (sampleTables "gemini-2.5-pro-thinking-*" (by decide +kernel)) cache
      "default" "gemini-2.5-pro-thinking-128" := by
  rintro ⟨cache, hinit, hagree⟩
  have huniform := hagree.uniform (initChannelCache_indexes hinit)
  have hserves := huniform.normalized (by decide +kernel) _ (List.mem_singleton_self _)
    (by decide +kernel)
  exact absurd hserves (by decide +kernel)

end Channels
