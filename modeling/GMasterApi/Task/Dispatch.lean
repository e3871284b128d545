import GMasterApi.Lib.GoMap
import GMasterApi.Task.Polling

/-!
# One round of the polling loop

`TaskPollingLoop` regroups the unfinished tasks through maps: platform to tasks,
channel to upstream ids, and, for all channels of a platform at once, upstream id
to task.  A reply is joined back to its task by the id alone.

`poll_round_own` says what a round does where upstream ids are unique within a
platform and a Suno reply names only tasks it was asked for: every task is
treated as if it were alone with its own channel (`Slot.own`).
-/

namespace Tasks

open GoMap

/-- A row of `tasks` and the copy of it that the round has loaded. -/
structure Slot where
  id : ℕ
  channelId : ℤ
  action : String
  upstreamTaskID : String
  key : String
  row : Task
  copy : Task
  deriving DecidableEq

/-- `GetUpstreamTaskID` -/
def Slot.upstreamID (s : Slot) : String :=
  if s.upstreamTaskID ≠ "" then s.upstreamTaskID else s.copy.taskID

def Slot.platform (s : Slot) : TaskPlatform := s.copy.platform

/-- What the polling functions use of a channel. -/
structure Channel where
  baseURL : Option String
  key : String
  deriving DecidableEq

/-- An item of a Suno reply, and what the `Update` after it answers. -/
structure SunoItem where
  taskID : String
  response : SunoDataResponse
  fault : Option String
  deriving DecidableEq

/-- What the round meets: the channels, which platforms have an adaptor, the reply to
each request (of a video task by platform, channel, key, id and action) and the answers of
the database. -/
structure Upstream where
  getChannel : ℤ → Option Channel
  getTaskAdaptor : TaskPlatform → Bool
  fetchSuno : ℤ → List String → Except String (List SunoItem)
  fetchVideo : TaskPlatform → ℤ → String → String → String → Reply
  writeFault : ℕ → Option String
  nullFault : TaskPlatform → Option String
  bulkFault : ℤ → Option String
  now : ℤ

/-- A request for a task, by platform, channel and upstream id. -/
structure Request where
  platform : TaskPlatform
  channelId : ℤ
  upstreamID : String
  deriving DecidableEq

structure Round where
  slots : Table Slot Slot.id
  requests : List Request

def errNilPointer : String := "runtime error: invalid memory address or nil pointer dereference"

/-! ## Updates of single tasks -/

/-- A bulk update of the row. -/
def Slot.bulkFail (fault reason : Option String) (s : Slot) : Slot :=
  { s with row := Tasks.bulkFail fault s.row reason }

/-- The loop over the items of a Suno reply, for the task that the item was found for. -/
def Slot.withItem (s : Slot) (item : SunoItem) : Slot :=
  if taskNeedsUpdate s.copy item.response then
    let after := s.copy.withItem item.response
    { s with copy := after, row := (update item.fault s.row after).1 }
  else s

/-- The key that a video task is fetched with. -/
def Slot.fetchKey (s : Slot) (ch : Channel) : String := if s.key ≠ "" then s.key else ch.key

/-- `updateVideoSingleTask` for the task that the id was found for. -/
def Slot.fetchVideo (cfg : PollConfig) (up : Upstream) (channelId : ℤ) (ch : Channel) (s : Slot) :
    Slot :=
  let out := updateVideoSingleTask cfg (up.writeFault s.id) up.now s.row s.copy
    (up.fetchVideo s.platform channelId (s.fetchKey ch) s.upstreamID s.action)
  { s with row := out.1, copy := out.2.1 }

@[simp] theorem Slot.bulkFail_id (fault reason : Option String) (s : Slot) :
    (s.bulkFail fault reason).id = s.id := rfl

@[simp] theorem Slot.withItem_id (s : Slot) (item : SunoItem) : (s.withItem item).id = s.id := by
  unfold Slot.withItem
  split <;> rfl

@[simp] theorem Slot.fetchVideo_id (cfg : PollConfig) (up : Upstream) (channelId : ℤ) (ch : Channel)
    (s : Slot) : (s.fetchVideo cfg up channelId ch).id = s.id := rfl

/-! ## The round -/

def Round.update (st : Round) (p : Slot → Bool) (f : Slot → Slot) (hf : ∀ s, (f s).id = s.id) :
    Round :=
  { st with slots := st.slots.updateWhere p f hf }

/-- `TaskBulkUpdateByID` -/
def Round.bulkFail (st : Round) (fault : Option String) (ids : List ℕ) (reason : Option String) :
    Round :=
  st.update (fun s => ids.contains s.id) (·.bulkFail fault reason) (Slot.bulkFail_id fault reason)

/-- `taskM`; the entry for an id is the one put last. -/
abbrev TaskMap := List (String × ℕ)

def sunoChannelReason (channelId : ℤ) : String :=
  "获取渠道信息失败，请联系管理员，渠道ID：" ++ toString channelId

def videoChannelReason (channelId : ℤ) : String :=
  "Failed to get channel info, channel ID: " ++ toString channelId

/-- An item of a Suno reply; `taskNeedsUpdate` reads the task it was found for. -/
def updateSunoItem (taskM : TaskMap) (st : Round) (item : SunoItem) : Except String Round :=
  match taskM.lookup item.taskID with
  | none => .error errNilPointer
  | some id => .ok (st.update (fun s => s.id = id) (·.withItem item) (Slot.withItem_id · item))

def updateSunoTasks (up : Upstream) (taskM : TaskMap) (st : Round) (entry : ℤ × List String) :
    Except String Round :=
  let (channelId, taskIds) := entry
  if taskIds = [] then .ok st
  else match up.getChannel channelId with
  | none =>
    .ok (st.bulkFail (up.bulkFault channelId) (taskIds.filterMap fun u => taskM.lookup u)
      (some (sunoChannelReason channelId)))
  | some ch =>
    if !up.getTaskAdaptor .suno then .ok st
    else match ch.baseURL with
    | none => .error errNilPointer
    | some _ =>
      let st := { st with requests := st.requests ++ taskIds.map (Request.mk .suno channelId) }
      match up.fetchSuno channelId taskIds with
      | .error _ => .ok st
      | .ok items => items.foldlM (updateSunoItem taskM) st

def updateVideoTask (cfg : PollConfig) (up : Upstream) (platform : TaskPlatform) (taskM : TaskMap)
    (channelId : ℤ) (ch : Channel) (st : Round) (taskId : String) : Round :=
  match taskM.lookup taskId with
  | none => st
  | some id =>
    let st := { st with requests := st.requests ++ [Request.mk platform channelId taskId] }
    st.update (fun s => s.id = id) (·.fetchVideo cfg up channelId ch)
      (Slot.fetchVideo_id cfg up channelId ch)

def updateVideoTasks (cfg : PollConfig) (up : Upstream) (platform : TaskPlatform) (taskM : TaskMap)
    (st : Round) (entry : ℤ × List String) : Round :=
  let (channelId, taskIds) := entry
  if taskIds = [] then st
  else match up.getChannel channelId with
  | none =>
    st.bulkFail (up.bulkFault channelId) (taskIds.filterMap fun u => taskM.lookup u)
      (some (videoChannelReason channelId))
  | some ch =>
    if !up.getTaskAdaptor platform then st
    else taskIds.foldl (updateVideoTask cfg up platform taskM channelId ch) st

/-- The orders in which the round goes through its maps. -/
structure Orders where
  platforms : Order (TaskPlatform × List Slot)
  channels : Order (ℤ × List String)

def dispatchPlatformUpdate (cfg : PollConfig) (up : Upstream) (orders : Orders)
    (platform : TaskPlatform) (taskChannelM : List (ℤ × List String)) (taskM : TaskMap)
    (st : Round) : Except String Round :=
  match platform with
  | .openAIImage => .ok st
  | .midjourney => .ok st
  | .suno => (orders.channels.range taskChannelM).foldlM (updateSunoTasks up taskM) st
  | .video _ =>
    .ok ((orders.channels.range taskChannelM).foldl (updateVideoTasks cfg up platform taskM) st)

/-- The tasks of a platform with an upstream id, and those without. -/
def withID (tasks : List Slot) : List Slot := tasks.filter fun s => s.upstreamID ≠ ""
def nullTaskIds (tasks : List Slot) : List ℕ :=
  (tasks.filter fun s => s.upstreamID = "").map Slot.id

/-- `taskM[upstreamID] = task` for each. -/
def taskMap (tasks : List Slot) : TaskMap :=
  (withID tasks).foldl (fun m s => (s.upstreamID, s.id) :: m) []

/-- `taskChannelM[task.ChannelId] = append(taskChannelM[task.ChannelId], upstreamID)` for each. -/
def taskChannelMap (tasks : List Slot) : List (ℤ × List String) :=
  groupBy Slot.channelId Slot.upstreamID (withID tasks)

def pollPlatform (cfg : PollConfig) (up : Upstream) (orders : Orders) (st : Round)
    (entry : TaskPlatform × List Slot) : Except String Round :=
  let (platform, tasks) := entry
  if tasks = [] then .ok st
  else
    let nulls := nullTaskIds tasks
    let st := if nulls = [] then st else st.bulkFail (up.nullFault platform) nulls none
    let taskChannelM := taskChannelMap tasks
    if taskChannelM = [] then .ok st
    else dispatchPlatformUpdate cfg up orders platform taskChannelM (taskMap tasks) st

/-- One turn of `TaskPollingLoop` on the tasks it has loaded; an error is a panic. -/
def pollRound (cfg : PollConfig) (up : Upstream) (orders : Orders) (tasks : Table Slot Slot.id) :
    Except String Round :=
  (orders.platforms.range (groupBy Slot.platform id tasks.rows)).foldlM
    (pollPlatform cfg up orders) ⟨tasks, []⟩

/-! ## Every task on its own -/

/-- The upstream ids that the tasks of a platform and channel are asked for with. -/
def askedIds (tasks : List Slot) (platform : TaskPlatform) (channelId : ℤ) : List String :=
  (tasks.filter fun s => s.platform = platform ∧ s.channelId = channelId ∧ s.upstreamID ≠ "").map
    Slot.upstreamID

/-- What a round makes of a task by what its own channel says about it, and nothing else. -/
def Slot.own (cfg : PollConfig) (up : Upstream) (tasks : List Slot) (s : Slot) : Slot :=
  if s.upstreamID = "" then s.bulkFail (up.nullFault s.platform) none
  else match s.platform, up.getChannel s.channelId with
  | .openAIImage, _ => s
  | .midjourney, _ => s
  | .suno, none => s.bulkFail (up.bulkFault s.channelId) (some (sunoChannelReason s.channelId))
  | .suno, some _ =>
    if up.getTaskAdaptor .suno then
      match up.fetchSuno s.channelId (askedIds tasks .suno s.channelId) with
      | .error _ => s
      | .ok items => (items.filter fun item => item.taskID = s.upstreamID).foldl Slot.withItem s
    else s
  | .video _, none =>
    s.bulkFail (up.bulkFault s.channelId) (some (videoChannelReason s.channelId))
  | .video _, some ch =>
    if up.getTaskAdaptor s.platform then s.fetchVideo cfg up s.channelId ch else s

/-- The loop fetches the task: it has an upstream id, its platform is one that the loop
handles, and its channel and adaptor are there. -/
def Slot.fetched (up : Upstream) (s : Slot) : Bool :=
  s.upstreamID ≠ "" && s.platform ≠ .openAIImage && s.platform ≠ .midjourney &&
    (up.getChannel s.channelId).isSome && up.getTaskAdaptor s.platform

def Slot.request (s : Slot) : Request := ⟨s.platform, s.channelId, s.upstreamID⟩

/-- What the loop takes for granted: an upstream id names one task of a platform, a Suno
reply names tasks it was asked for, and a Suno channel has an address. -/
structure Joinable (up : Upstream) (tasks : List Slot) : Prop where
  unique : ∀ a ∈ tasks, ∀ b ∈ tasks, a.platform = b.platform → a.upstreamID = b.upstreamID →
    a.upstreamID ≠ "" → a = b
  asked : ∀ channelId items, up.fetchSuno channelId (askedIds tasks .suno channelId) = .ok items →
    ∀ item ∈ items, item.taskID ∈ askedIds tasks .suno channelId
  address : ∀ s ∈ tasks, s.platform = .suno → s.upstreamID ≠ "" →
    ∀ ch, up.getChannel s.channelId = some ch → ch.baseURL ≠ none

/-! ## Joining back -/

variable {cfg : PollConfig} {up : Upstream} {tasks : List Slot} {st : Round}

/-- The rows after an update by id, where the rows before are those of `tasks`, each
changed by `g`. -/
theorem update_rows {g : Slot → Slot} (hg : ∀ s, (g s).id = s.id)
    (hrows : st.slots.rows = tasks.map g) {p : ℕ → Bool} {f : Slot → Slot}
    (hf : ∀ s, (f s).id = s.id) :
    (st.update (fun s => p s.id) f hf).slots.rows =
      tasks.map fun s => if p s.id then f (g s) else g s := by
  show (st.slots.rows.map fun s => if p s.id then f s else s) = _
  rw [hrows, List.map_map]
  refine List.map_congr_left fun s _ => ?_
  show (if p (g s).id then f (g s) else g s) = _
  rw [hg]

/-- What `taskM` finds for an upstream id. -/
theorem taskMap_lookup (hunique : ∀ a ∈ tasks, ∀ b ∈ tasks, a.upstreamID = b.upstreamID →
      a.upstreamID ≠ "" → a = b) {u : String} {i : ℕ} :
    (taskMap tasks).lookup u = some i ↔ ∃ s ∈ tasks, s.upstreamID ≠ "" ∧ s.upstreamID = u ∧ s.id = i := by
  have hmem : ∀ j, (u, j) ∈ taskMap tasks ↔
      ∃ s ∈ tasks, s.upstreamID ≠ "" ∧ s.upstreamID = u ∧ s.id = j := by
    intro j
    rw [taskMap, foldl_assign, List.append_nil, List.mem_reverse, List.mem_map]
    simp [withID, and_assoc]
  rw [lookup_eq_some_iff, hmem]
  intro a b ha hb
  obtain ⟨s, hs, hne, hu, rfl⟩ := (hmem a).mp ha
  obtain ⟨t, ht, -, hu', rfl⟩ := (hmem b).mp hb
  rw [hunique s hs t ht (hu.trans hu'.symm) hne]

/-- How far a round has come: the tasks in `D` are done, the others as they were. -/
structure Done (cfg : PollConfig) (up : Upstream) (tasks : List Slot) (D : Slot → Bool)
    (st : Round) : Prop where
  rows : st.slots.rows = tasks.map fun s => if D s then s.own cfg up tasks else s
  requests : st.requests.Perm ((tasks.filter fun s => D s && s.fetched up).map Slot.request)

theorem Slot.own_id (cfg : PollConfig) (up : Upstream) (tasks : List Slot) (s : Slot) :
    (s.own cfg up tasks).id = s.id := by
  have hitems : ∀ (items : List SunoItem) (s : Slot), (items.foldl Slot.withItem s).id = s.id := by
    intro items
    induction items with
    | nil => intro s; rfl
    | cons item items ih =>
      intro s
      rw [List.foldl_cons, ih, Slot.withItem_id]
  unfold Slot.own
  split
  · rfl
  split
  · rfl
  · rfl
  · rfl
  · split
    · split
      · rfl
      · exact hitems _ s
    · rfl
  · rfl
  · split <;> rfl

/-- Tasks that a round leaves alone may be counted as done or not. -/
theorem Done.congr {D E : Slot → Bool} (h : Done cfg up tasks D st)
    (hDE : ∀ s ∈ tasks, D s = E s ∨ (s.own cfg up tasks = s ∧ s.fetched up = false)) :
    Done cfg up tasks E st where
  rows := by
    rw [h.rows]
    refine List.map_congr_left fun s hs => ?_
    rcases hDE s hs with he | ⟨hown, -⟩
    · rw [he]
    · simp [hown]
  requests := by
    have hfilter : (tasks.filter fun s => E s && s.fetched up) =
        tasks.filter fun s => D s && s.fetched up := by
      refine List.filter_congr fun s hs => ?_
      rcases hDE s hs with he | ⟨-, hf⟩
      · rw [he]
      · simp [hf]
    rw [hfilter]
    exact h.requests

/-- Two disjoint sets of tasks, one after the other. -/
theorem filter_or_perm (p q : Slot → Bool) :
    ∀ l : List Slot, (∀ s ∈ l, ¬ (p s = true ∧ q s = true)) →
      (l.filter fun s => p s || q s).Perm (l.filter p ++ l.filter q) := by
  intro l
  induction l with
  | nil => intro _; exact .refl _
  | cons s l ih =>
    intro h
    have hl := ih fun t ht => h t (List.mem_cons_of_mem _ ht)
    have hs := h s List.mem_cons_self
    cases hp : p s with
    | true =>
      have hq : q s = false := by simpa [hp] using hs
      simpa [hp, hq] using hl
    | false =>
      cases hq : q s with
      | true =>
        simp only [hp, hq, Bool.or_true, List.filter_cons_of_pos, List.filter_cons_of_neg,
          Bool.false_eq_true, not_false_eq_true]
        exact (List.Perm.cons s hl).trans List.perm_middle.symm
      | false => simpa [hp, hq] using hl

/-- A step that does the tasks in `G`, which were not done yet: their rows become their
own, and their requests are added. -/
theorem Done.step {D G : Slot → Bool} {st' : Round} (h : Done cfg up tasks D st)
    (hnew : ∀ s ∈ tasks, G s = true → D s = false)
    (hrows : st'.slots.rows = tasks.map fun s =>
      if G s then s.own cfg up tasks else if D s then s.own cfg up tasks else s)
    (hreq : st'.requests.Perm
      (st.requests ++ (tasks.filter fun s => G s && s.fetched up).map Slot.request)) :
    Done cfg up tasks (fun s => D s || G s) st' where
  rows := by
    rw [hrows]
    refine List.map_congr_left fun s _ => ?_
    cases D s <;> cases G s <;> rfl
  requests := by
    have hsplit : (tasks.filter fun s => (D s || G s) && s.fetched up).Perm
        ((tasks.filter fun s => D s && s.fetched up) ++
          tasks.filter fun s => G s && s.fetched up) := by
      have hor : (fun s : Slot => (D s || G s) && s.fetched up) =
          fun s => (D s && s.fetched up) || (G s && s.fetched up) := by
        funext s
        rw [Bool.and_or_distrib_right]
      rw [hor]
      refine filter_or_perm _ _ tasks fun s hs hboth => ?_
      simp only [Bool.and_eq_true] at hboth
      have := hnew s hs hboth.2.1
      rw [hboth.1.1] at this
      cases this
    have hmap := hsplit.map Slot.request
    rw [List.map_append] at hmap
    exact (hreq.trans (h.requests.append_right _)).trans hmap.symm

/-- A loop over entries that each do tasks of their own. -/
theorem Done.foldlM {ι : Type} {f : Round → ι → Except String Round} {G : ι → Slot → Bool} :
    ∀ (entries : List ι) {D : Slot → Bool} {st : Round},
      (∀ e ∈ entries, ∀ (D : Slot → Bool) (st : Round), (∀ s ∈ tasks, G e s = true → D s = false) →
        Done cfg up tasks D st →
        ∃ st', f st e = .ok st' ∧ Done cfg up tasks (fun s => D s || G e s) st') →
      entries.Pairwise (fun e e' => ∀ s ∈ tasks, ¬ (G e s = true ∧ G e' s = true)) →
      (∀ e ∈ entries, ∀ s ∈ tasks, G e s = true → D s = false) → Done cfg up tasks D st →
      ∃ st', entries.foldlM f st = .ok st' ∧
        Done cfg up tasks (fun s => D s || entries.any (G · s)) st' := by
  intro entries
  induction entries with
  | nil =>
    intro D st _ _ _ h
    exact ⟨st, rfl, by simpa using h⟩
  | cons e entries ih =>
    intro D st hf hpair hnew h
    obtain ⟨st₁, h₁, hd₁⟩ := hf e List.mem_cons_self D st (hnew e List.mem_cons_self) h
    rw [List.pairwise_cons] at hpair
    obtain ⟨st₂, h₂, hd₂⟩ := ih (fun e' he' => hf e' (List.mem_cons_of_mem _ he')) hpair.2
      (fun e' he' s hs hG => by
        have hD := hnew e' (List.mem_cons_of_mem _ he') s hs hG
        have hGe : G e s = false := by
          by_contra hne
          exact hpair.1 e' he' s hs ⟨by simpa using hne, hG⟩
        simp [hD, hGe]) hd₁
    refine ⟨st₂, ?_, ?_⟩
    · rw [List.foldlM_cons, h₁]
      exact h₂
    · simpa [Bool.or_assoc] using hd₂

/-! ## One channel of a platform -/

/-- The tasks of a platform that are asked for at a channel. -/
def inChannel (platform : TaskPlatform) (channelId : ℤ) (s : Slot) : Bool :=
  s.platform = platform ∧ s.channelId = channelId ∧ s.upstreamID ≠ ""

def platformTasks (tasks : List Slot) (platform : TaskPlatform) : List Slot :=
  tasks.filter fun s => s.platform = platform

theorem askedIds_eq (tasks : List Slot) (platform : TaskPlatform) (channelId : ℤ) :
    askedIds tasks platform channelId =
      (tasks.filter (inChannel platform channelId)).map Slot.upstreamID := rfl

theorem inChannel_iff {platform : TaskPlatform} {channelId : ℤ} {s : Slot} :
    inChannel platform channelId s = true ↔
      s.platform = platform ∧ s.channelId = channelId ∧ s.upstreamID ≠ "" := by
  simp [inChannel]

theorem mem_askedIds {platform : TaskPlatform} {channelId : ℤ} {u : String} :
    u ∈ askedIds tasks platform channelId ↔
      ∃ s ∈ tasks, inChannel platform channelId s = true ∧ s.upstreamID = u := by
  rw [askedIds_eq, List.mem_map]
  simp [and_assoc]

section Joined

variable (h : Joinable up tasks) (hnd : (tasks.map Slot.id).Nodup)
include h hnd

/-- The map of a platform finds a task for its own upstream id, and for no other. -/
theorem lookup_self_iff {platform : TaskPlatform} {u : String} {s : Slot} (hs : s ∈ tasks) :
    (taskMap (platformTasks tasks platform)).lookup u = some s.id ↔
      s.platform = platform ∧ s.upstreamID ≠ "" ∧ s.upstreamID = u := by
  have hunique : ∀ a ∈ platformTasks tasks platform, ∀ b ∈ platformTasks tasks platform,
      a.upstreamID = b.upstreamID → a.upstreamID ≠ "" → a = b := by
    intro a ha b hb
    simp only [platformTasks, List.mem_filter, decide_eq_true_eq] at ha hb
    exact h.unique a ha.1 b hb.1 (ha.2.trans hb.2.symm)
  rw [taskMap_lookup hunique]
  simp only [platformTasks, List.mem_filter, decide_eq_true_eq]
  constructor
  · rintro ⟨t, ⟨ht, hp⟩, hne, hu, hid⟩
    have : t = s := List.inj_on_of_nodup_map hnd ht hs hid
    subst this
    exact ⟨hp, hne, hu⟩
  · rintro ⟨hp, hne, hu⟩
    exact ⟨s, ⟨hs, hp⟩, hne, hu, rfl⟩

/-- An id that a channel was asked for finds a task of the channel. -/
theorem lookup_asked {platform : TaskPlatform} {channelId : ℤ} {u : String}
    (hu : u ∈ askedIds tasks platform channelId) :
    ∃ s ∈ tasks, inChannel platform channelId s = true ∧ s.upstreamID = u ∧
      (taskMap (platformTasks tasks platform)).lookup u = some s.id := by
  obtain ⟨s, hs, hin, rfl⟩ := mem_askedIds.mp hu
  refine ⟨s, hs, hin, rfl, (lookup_self_iff h hnd hs).mpr ?_⟩
  have := inChannel_iff.mp hin
  exact ⟨this.1, this.2.2, rfl⟩

/-- Among the ids that a channel was asked for, a task is found for its own if it is of
the channel, and for none otherwise. -/
theorem lookup_asked_iff {platform : TaskPlatform} {channelId : ℤ} {u : String} {s : Slot}
    (hs : s ∈ tasks) (hu : u ∈ askedIds tasks platform channelId) :
    (taskMap (platformTasks tasks platform)).lookup u = some s.id ↔
      inChannel platform channelId s = true ∧ s.upstreamID = u := by
  obtain ⟨t, ht, hin, htu, hlookup⟩ := lookup_asked h hnd hu
  rw [lookup_self_iff h hnd hs, inChannel_iff]
  constructor
  · rintro ⟨hp, hne, rfl⟩
    have hin' := inChannel_iff.mp hin
    have : t = s := h.unique t ht s hs (hin'.1.trans hp.symm) htu hin'.2.2
    subst this
    exact ⟨⟨hp, hin'.2.1, hne⟩, rfl⟩
  · rintro ⟨⟨hp, -, hne⟩, rfl⟩
    exact ⟨hp, hne, rfl⟩

/-- The tasks of a bulk update are those of the channel. -/
theorem bulk_ids {platform : TaskPlatform} {channelId : ℤ} {s : Slot} (hs : s ∈ tasks) :
    ((askedIds tasks platform channelId).filterMap fun u =>
      (taskMap (platformTasks tasks platform)).lookup u).contains s.id =
        inChannel platform channelId s := by
  rw [Bool.eq_iff_iff, List.contains_iff_mem, List.mem_filterMap]
  constructor
  · rintro ⟨u, hu, hl⟩
    exact ((lookup_asked_iff h hnd hs hu).mp hl).1
  · intro hin
    have hu : s.upstreamID ∈ askedIds tasks platform channelId := mem_askedIds.mpr ⟨s, hs, hin, rfl⟩
    exact ⟨s.upstreamID, hu, (lookup_asked_iff h hnd hs hu).mpr ⟨hin, rfl⟩⟩

end Joined

/-- A loop whose every step updates the task that it names: each task is changed by the steps
that name it, and the requests of all are made. -/
theorem foldlM_rows {ι : Type} {f : Round → ι → Except String Round} {name : ι → Option ℕ}
    {act : ι → Slot → Slot} {asks : ι → List Request} (hact : ∀ x s, (act x s).id = s.id) :
    ∀ (entries : List ι) (st : Round) (g : Slot → Slot), (∀ s, (g s).id = s.id) →
      st.slots.rows = tasks.map g →
      (∀ x ∈ entries, ∀ st : Round, ∃ st', f st x = .ok st' ∧ st'.requests = st.requests ++ asks x ∧
        st'.slots.rows = st.slots.rows.map fun s => if name x = some s.id then act x s else s) →
      ∃ st', entries.foldlM f st = .ok st' ∧ st'.requests = st.requests ++ entries.flatMap asks ∧
        st'.slots.rows = tasks.map fun s =>
          entries.foldl (fun y x => if name x = some s.id then act x y else y) (g s) := by
  intro entries
  induction entries with
  | nil =>
    intro st g _ hrows _
    exact ⟨st, rfl, by simp, hrows⟩
  | cons x entries ih =>
    intro st g hg hrows hf
    obtain ⟨st₁, hstep, hreq₁, hst₁⟩ := hf x List.mem_cons_self st
    have hrows₁ : st₁.slots.rows =
        tasks.map fun s => if name x = some s.id then act x (g s) else g s := by
      rw [hst₁, hrows, List.map_map]
      refine List.map_congr_left fun s _ => ?_
      show (if name x = some (g s).id then act x (g s) else g s) = _
      rw [hg]
    obtain ⟨st', hfold, hreq, hst'⟩ := ih st₁ _ (fun s => by split <;> simp [hact, hg]) hrows₁
      fun y hy => hf y (List.mem_cons_of_mem _ hy)
    refine ⟨st', ?_, ?_, hst'⟩
    · rw [List.foldlM_cons, hstep]
      exact hfold
    · rw [hreq, hreq₁, List.append_assoc, List.flatMap_cons]

/-- What an update by id does to the rows. -/
theorem update_found {i : ℕ} {found : Option ℕ} (hfound : found = some i) {f : Slot → Slot}
    (hf : ∀ s, (f s).id = s.id) (st : Round) :
    (st.update (fun s => s.id = i) f hf).slots.rows =
      st.slots.rows.map fun s => if found = some s.id then f s else s := by
  refine List.map_congr_left fun s _ => ?_
  rw [hfound]
  simp only [Option.some.injEq, decide_eq_true_eq, @eq_comm ℕ i s.id]

theorem items_rows {taskM : TaskMap} {items : List SunoItem} {st : Round} {g : Slot → Slot}
    (hg : ∀ s, (g s).id = s.id) (hrows : st.slots.rows = tasks.map g)
    (hsome : ∀ item ∈ items, (taskM.lookup item.taskID).isSome) :
    ∃ st', items.foldlM (updateSunoItem taskM) st = .ok st' ∧ st'.requests = st.requests ∧
      st'.slots.rows = tasks.map fun s => items.foldl
        (fun x item => if taskM.lookup item.taskID = some s.id then x.withItem item else x) (g s) := by
  obtain ⟨st', hfold, hreq, hst'⟩ := @foldlM_rows tasks SunoItem (updateSunoItem taskM)
    (fun item => taskM.lookup item.taskID) (fun item s => s.withItem item) (fun _ => [])
    (fun item s => Slot.withItem_id s item) items st g hg hrows fun item hitem st => by
      obtain ⟨i, hi⟩ := Option.isSome_iff_exists.mp (hsome item hitem)
      unfold updateSunoItem
      rw [hi]
      exact ⟨_, rfl, (List.append_nil _).symm, update_found rfl _ st⟩
  refine ⟨st', hfold, ?_, hst'⟩
  rw [hreq, List.flatMap_eq_nil_iff.mpr fun _ _ => rfl, List.append_nil]

theorem videos_rows (cfg : PollConfig) (up : Upstream) (platform : TaskPlatform) {taskM : TaskMap}
    (channelId : ℤ) (ch : Channel) {ids : List String} {st : Round} {g : Slot → Slot}
    (hg : ∀ s, (g s).id = s.id) (hrows : st.slots.rows = tasks.map g)
    (hsome : ∀ u ∈ ids, (taskM.lookup u).isSome) :
    (ids.foldl (updateVideoTask cfg up platform taskM channelId ch) st).requests =
        st.requests ++ ids.map (Request.mk platform channelId) ∧
      (ids.foldl (updateVideoTask cfg up platform taskM channelId ch) st).slots.rows =
        tasks.map fun s => ids.foldl (fun x u =>
          if taskM.lookup u = some s.id then x.fetchVideo cfg up channelId ch else x) (g s) := by
  obtain ⟨st', hfold, hreq, hst'⟩ := @foldlM_rows tasks String
    (fun st u => .ok (updateVideoTask cfg up platform taskM channelId ch st u))
    (fun u => taskM.lookup u) (fun _ s => s.fetchVideo cfg up channelId ch)
    (fun u => [Request.mk platform channelId u])
    (fun _ s => Slot.fetchVideo_id cfg up channelId ch s) ids st g hg hrows fun u hu st => by
      obtain ⟨i, hi⟩ := Option.isSome_iff_exists.mp (hsome u hu)
      refine ⟨_, rfl, ?_⟩
      unfold updateVideoTask
      rw [hi]
      exact ⟨rfl, update_found rfl _ _⟩
  have hpure : ids.foldlM (fun st u => (.ok (updateVideoTask cfg up platform taskM channelId ch st u) :
      Except String Round)) st = .ok (ids.foldl (updateVideoTask cfg up platform taskM channelId ch) st) :=
    List.foldlM_pure
  rw [hpure] at hfold
  rw [Except.ok.inj hfold]
  refine ⟨?_, hst'⟩
  rw [hreq, List.map_eq_flatMap]

theorem own_suno {channelId : ℤ} {s : Slot} (hin : inChannel .suno channelId s = true) :
    s.own cfg up tasks = match up.getChannel channelId with
      | none => s.bulkFail (up.bulkFault channelId) (some (sunoChannelReason channelId))
      | some _ =>
        if up.getTaskAdaptor .suno then
          match up.fetchSuno channelId (askedIds tasks .suno channelId) with
          | .error _ => s
          | .ok items => (items.filter fun item => item.taskID = s.upstreamID).foldl Slot.withItem s
        else s := by
  obtain ⟨hp, rfl, hne⟩ := inChannel_iff.mp hin
  unfold Slot.own
  rw [if_neg hne, hp]
  cases up.getChannel s.channelId <;> rfl

theorem own_video {name : String} {channelId : ℤ} {s : Slot}
    (hin : inChannel (.video name) channelId s = true) :
    s.own cfg up tasks = match up.getChannel channelId with
      | none => s.bulkFail (up.bulkFault channelId) (some (videoChannelReason channelId))
      | some ch =>
        if up.getTaskAdaptor (.video name) then s.fetchVideo cfg up channelId ch else s := by
  obtain ⟨hp, rfl, hne⟩ := inChannel_iff.mp hin
  unfold Slot.own
  rw [if_neg hne, hp]
  cases up.getChannel s.channelId <;> rfl

theorem fetched_iff {platform : TaskPlatform} {channelId : ℤ} {s : Slot}
    (hin : inChannel platform channelId s = true) (himage : platform ≠ .openAIImage)
    (hmj : platform ≠ .midjourney) :
    s.fetched up = ((up.getChannel channelId).isSome && up.getTaskAdaptor platform) := by
  obtain ⟨rfl, rfl, hne⟩ := inChannel_iff.mp hin
  simp [Slot.fetched, hne, himage, hmj]

/-- The requests of a channel that is fetched. -/
theorem requests_inChannel (tasks : List Slot) {platform : TaskPlatform} {channelId : ℤ}
    (himage : platform ≠ .openAIImage) (hmj : platform ≠ .midjourney)
    (hfetch : ((up.getChannel channelId).isSome && up.getTaskAdaptor platform) = true) :
    (tasks.filter fun s => inChannel platform channelId s && s.fetched up).map Slot.request =
      (askedIds tasks platform channelId).map (Request.mk platform channelId) := by
  have hfilter : (tasks.filter fun s => inChannel platform channelId s && s.fetched up) =
      tasks.filter (inChannel platform channelId) := by
    refine List.filter_congr fun s _ => ?_
    cases hin : inChannel platform channelId s with
    | false => rfl
    | true => rw [fetched_iff hin himage hmj, hfetch]; rfl
  rw [hfilter, askedIds_eq, List.map_map]
  refine List.map_congr_left fun s hs => ?_
  obtain ⟨rfl, rfl, -⟩ := inChannel_iff.mp (List.mem_filter.mp hs).2
  rfl

/-- A bulk update of the tasks in `G`, where that is what is theirs. -/
theorem Done.bulk {D G : Slot → Bool} {ids : List ℕ} {fault reason : Option String}
    (h : Done cfg up tasks D st) (hnew : ∀ s ∈ tasks, G s = true → D s = false)
    (hids : ∀ s ∈ tasks, ids.contains s.id = G s)
    (hown : ∀ s ∈ tasks, G s = true →
      s.own cfg up tasks = s.bulkFail fault reason ∧ s.fetched up = false) :
    Done cfg up tasks (fun s => D s || G s) (st.bulkFail fault ids reason) := by
  refine h.step hnew ?_ ?_
  · have hrows := update_rows (p := fun i => ids.contains i)
      (fun s => by split <;> simp [Slot.own_id]) h.rows (Slot.bulkFail_id fault reason)
    refine hrows.trans (List.map_congr_left fun s hs => ?_)
    rw [hids s hs]
    cases hG : G s with
    | false => rfl
    | true => simp [hnew s hs hG, (hown s hs hG).1]
  · have hnone : (tasks.filter fun s => G s && s.fetched up) = [] := by
      rw [List.filter_eq_nil_iff]
      intro s hs hboth
      rw [Bool.and_eq_true] at hboth
      rw [(hown s hs hboth.1).2] at hboth
      cases hboth.2
    rw [hnone, List.map_nil, List.append_nil]
    exact .refl _

/-- Tasks that the round leaves alone. -/
theorem Done.skip {D G : Slot → Bool} (h : Done cfg up tasks D st)
    (hown : ∀ s ∈ tasks, G s = true → s.own cfg up tasks = s ∧ s.fetched up = false) :
    Done cfg up tasks (fun s => D s || G s) st := by
  refine h.congr fun s hs => ?_
  cases hG : G s with
  | false => exact .inl (Bool.or_false _).symm
  | true => exact .inr (hown s hs hG)

section Channel

variable (h : Joinable up tasks) (hnd : (tasks.map Slot.id).Nodup) {channelId : ℤ} {D : Slot → Bool}
include h hnd

theorem updateSunoTasks_done (hmem : ∃ s ∈ tasks, inChannel .suno channelId s = true)
    (hnew : ∀ s ∈ tasks, inChannel .suno channelId s = true → D s = false)
    (hdone : Done cfg up tasks D st) :
    ∃ st', updateSunoTasks up (taskMap (platformTasks tasks .suno)) st
        (channelId, askedIds tasks .suno channelId) = .ok st' ∧
      Done cfg up tasks (fun s => D s || inChannel .suno channelId s) st' := by
  obtain ⟨t, ht, htin⟩ := hmem
  have hne : askedIds tasks .suno channelId ≠ [] := by
    intro hnil
    have := mem_askedIds.mpr ⟨t, ht, htin, rfl⟩
    rw [hnil] at this
    cases this
  have hfetched : ∀ s, inChannel .suno channelId s = true →
      s.fetched up = ((up.getChannel channelId).isSome && up.getTaskAdaptor .suno) :=
    fun s hin => fetched_iff hin (by decide) (by decide)
  simp only [updateSunoTasks, if_neg hne]
  cases hch : up.getChannel channelId with
  | none =>
    refine ⟨_, rfl, hdone.bulk hnew (fun s hs => bulk_ids h hnd hs) fun s hs hin => ?_⟩
    refine ⟨by rw [own_suno hin, hch], by rw [hfetched s hin, hch]; rfl⟩
  | some ch =>
    cases hadaptor : up.getTaskAdaptor .suno with
    | false =>
      refine ⟨st, rfl, hdone.skip fun s hs hin => ⟨?_, ?_⟩⟩
      · rw [own_suno hin, hch, hadaptor]; rfl
      · rw [hfetched s hin, hadaptor, Bool.and_false]
    | true =>
      have hfetch : ((up.getChannel channelId).isSome && up.getTaskAdaptor .suno) = true := by
        rw [hch, hadaptor]
        rfl
      have hrequests := requests_inChannel tasks (by decide) (by decide) hfetch
      have hin' := inChannel_iff.mp htin
      have haddress := h.address t ht hin'.1 hin'.2.2 ch (hin'.2.1 ▸ hch)
      obtain ⟨url, hurl⟩ := Option.ne_none_iff_exists'.mp haddress
      simp only [Bool.not_true, Bool.false_eq_true, if_false, hurl]
      cases hreply : up.fetchSuno channelId (askedIds tasks .suno channelId) with
      | error e =>
        refine ⟨_, rfl, hdone.step hnew ?_ ?_⟩
        · refine hdone.rows.trans (List.map_congr_left fun s hs => ?_)
          cases hin : inChannel .suno channelId s with
          | false => rfl
          | true =>
            rw [hnew s hs hin, own_suno hin, hch, hadaptor, hreply]
            rfl
        · rw [hrequests]
      | ok items =>
        have hasked := h.asked channelId items hreply
        have hsome : ∀ item ∈ items,
            ((taskMap (platformTasks tasks .suno)).lookup item.taskID).isSome := by
          intro item hitem
          obtain ⟨s, -, -, -, hl⟩ := lookup_asked h hnd (hasked item hitem)
          rw [hl]
          rfl
        have hdone_id : ∀ s, (if D s = true then s.own cfg up tasks else s).id = s.id := by
          intro s
          split <;> simp [Slot.own_id]
        have hstart : ({ st with requests := st.requests ++
            (askedIds tasks .suno channelId).map (Request.mk .suno channelId) } : Round).slots.rows =
            tasks.map fun s => if D s then s.own cfg up tasks else s := hdone.rows
        obtain ⟨st', hfold, hreq, hrows⟩ := items_rows hdone_id hstart hsome
        refine ⟨st', hfold, hdone.step hnew ?_ ?_⟩
        · refine hrows.trans (List.map_congr_left fun s hs => ?_)
          -- only the items for the ids of the channel's own tasks name them
          have hitems : ∀ (x : Slot), items.foldl (fun x item =>
              if (taskMap (platformTasks tasks .suno)).lookup item.taskID = some s.id
                then x.withItem item else x) x =
              (items.filter fun item =>
                inChannel .suno channelId s && decide (item.taskID = s.upstreamID)).foldl
                  Slot.withItem x := by
            intro x
            rw [List.foldl_filter]
            refine List.foldl_ext _ _ x fun y item hitem => ?_
            have hiff := lookup_asked_iff h hnd hs (hasked item hitem)
            simp only [hiff, Bool.and_eq_true, decide_eq_true_eq, @eq_comm String item.taskID]
          rw [hitems]
          cases hin : inChannel .suno channelId s with
          | false => simp
          | true =>
            rw [hnew s hs hin, own_suno hin, hch, hadaptor, hreply]
            simp
        · rw [hreq, hrequests]

/-- The ids that a channel is asked for are distinct. -/
theorem nodup_askedIds (platform : TaskPlatform) : (askedIds tasks platform channelId).Nodup := by
  rw [askedIds_eq]
  refine List.Nodup.map_on ?_ (List.Nodup.filter _ (List.Nodup.of_map _ hnd))
  intro a ha b hb hab
  have hina := inChannel_iff.mp (List.mem_filter.mp ha).2
  have hinb := inChannel_iff.mp (List.mem_filter.mp hb).2
  exact h.unique a (List.mem_filter.mp ha).1 b (List.mem_filter.mp hb).1
    (hina.1.trans hinb.1.symm) hab hina.2.2

theorem updateVideoTasks_done {name : String}
    (hmem : ∃ s ∈ tasks, inChannel (.video name) channelId s = true)
    (hnew : ∀ s ∈ tasks, inChannel (.video name) channelId s = true → D s = false)
    (hdone : Done cfg up tasks D st) :
    Done cfg up tasks (fun s => D s || inChannel (.video name) channelId s)
      (updateVideoTasks cfg up (.video name) (taskMap (platformTasks tasks (.video name))) st
        (channelId, askedIds tasks (.video name) channelId)) := by
  obtain ⟨t, ht, htin⟩ := hmem
  have hne : askedIds tasks (.video name) channelId ≠ [] := by
    intro hnil
    have := mem_askedIds.mpr ⟨t, ht, htin, rfl⟩
    rw [hnil] at this
    cases this
  have hfetched : ∀ s, inChannel (.video name) channelId s = true →
      s.fetched up = ((up.getChannel channelId).isSome && up.getTaskAdaptor (.video name)) :=
    fun s hin => fetched_iff hin (by simp) (by simp)
  simp only [updateVideoTasks, if_neg hne]
  cases hch : up.getChannel channelId with
  | none =>
    refine hdone.bulk hnew (fun s hs => bulk_ids h hnd hs) fun s hs hin => ?_
    exact ⟨by rw [own_video hin, hch], by rw [hfetched s hin, hch]; rfl⟩
  | some ch =>
    cases hadaptor : up.getTaskAdaptor (.video name) with
    | false =>
      refine hdone.skip fun s hs hin => ⟨?_, ?_⟩
      · rw [own_video hin, hch, hadaptor]; rfl
      · rw [hfetched s hin, hadaptor, Bool.and_false]
    | true =>
      have hfetch : ((up.getChannel channelId).isSome && up.getTaskAdaptor (.video name)) = true := by
        rw [hch, hadaptor]
        rfl
      have hrequests := requests_inChannel tasks (by simp) (by simp) hfetch
      have hsome : ∀ u ∈ askedIds tasks (.video name) channelId,
          ((taskMap (platformTasks tasks (.video name))).lookup u).isSome := by
        intro u hu
        obtain ⟨s, -, -, -, hl⟩ := lookup_asked h hnd hu
        rw [hl]
        rfl
      have hdone_id : ∀ s, (if D s = true then s.own cfg up tasks else s).id = s.id := by
        intro s
        split <;> simp [Slot.own_id]
      obtain ⟨hreq, hrows⟩ := videos_rows cfg up (.video name) channelId ch hdone_id hdone.rows hsome
      simp only [Bool.not_true, Bool.false_eq_true, if_false]
      refine hdone.step hnew ?_ ?_
      · refine hrows.trans (List.map_congr_left fun s hs => ?_)
        have hids : ∀ (x : Slot), (askedIds tasks (.video name) channelId).foldl (fun x u =>
            if (taskMap (platformTasks tasks (.video name))).lookup u = some s.id
              then x.fetchVideo cfg up channelId ch else x) x =
            ((askedIds tasks (.video name) channelId).filter fun u =>
              inChannel (.video name) channelId s && decide (u = s.upstreamID)).foldl
                (fun x _ => x.fetchVideo cfg up channelId ch) x := by
          intro x
          rw [List.foldl_filter]
          refine List.foldl_ext _ _ x fun y u hu => ?_
          have hiff := lookup_asked_iff h hnd hs hu
          simp only [hiff, Bool.and_eq_true, decide_eq_true_eq, @eq_comm String u]
        rw [hids]
        cases hin : inChannel (.video name) channelId s with
        | false => simp
        | true =>
          -- a task of the channel is asked for once
          have honce : ((askedIds tasks (.video name) channelId).filter
              fun u => decide (u = s.upstreamID)) = [s.upstreamID] := by
            have hmem : s.upstreamID ∈ askedIds tasks (.video name) channelId :=
              mem_askedIds.mpr ⟨s, hs, hin, rfl⟩
            rw [List.filter_eq, List.count_eq_one_of_mem (nodup_askedIds h hnd _) hmem]
            rfl
          rw [hnew s hs hin, own_video hin, hch, hadaptor]
          simp only [Bool.true_and, honce]
          rfl
      · rw [hreq, hrequests]

end Channel

/-- The tasks of a platform without an upstream id, and those with one. -/
def nullOf (platform : TaskPlatform) (s : Slot) : Bool := s.platform = platform ∧ s.upstreamID = ""
def askedOf (platform : TaskPlatform) (s : Slot) : Bool := s.platform = platform ∧ s.upstreamID ≠ ""

theorem askedOf_iff {platform : TaskPlatform} {s : Slot} :
    askedOf platform s = true ↔ s.platform = platform ∧ s.upstreamID ≠ "" := by
  simp [askedOf]

theorem nullOf_iff {platform : TaskPlatform} {s : Slot} :
    nullOf platform s = true ↔ s.platform = platform ∧ s.upstreamID = "" := by
  simp [nullOf]

/-- The entries of the map from channels to ids. -/
theorem mem_taskChannelMap {platform : TaskPlatform} {e : ℤ × List String} :
    e ∈ taskChannelMap (platformTasks tasks platform) ↔
      (∃ s ∈ tasks, inChannel platform e.1 s = true) ∧ e.2 = askedIds tasks platform e.1 := by
  obtain ⟨channelId, ids⟩ := e
  have hfilter : ((withID (platformTasks tasks platform)).filter fun s => s.channelId = channelId) =
      tasks.filter (inChannel platform channelId) := by
    rw [withID, platformTasks, List.filter_filter, List.filter_filter]
    refine List.filter_congr fun s _ => ?_
    simp only [inChannel, Bool.decide_and]
    cases decide (s.platform = platform) <;> cases decide (s.channelId = channelId) <;>
      cases decide (s.upstreamID ≠ "") <;> rfl
  rw [taskChannelMap, mem_groupBy, hfilter, ← askedIds_eq, @eq_comm _ ids]
  refine and_congr ?_ Iff.rfl
  constructor
  · rintro ⟨s, hs, rfl⟩
    simp only [withID, platformTasks, List.mem_filter, decide_eq_true_eq] at hs
    exact ⟨s, hs.1.1, inChannel_iff.mpr ⟨hs.1.2, rfl, hs.2⟩⟩
  · rintro ⟨s, hs, hin⟩
    obtain ⟨hp, hc, hne⟩ := inChannel_iff.mp hin
    refine ⟨s, ?_, hc⟩
    simp [withID, platformTasks, hs, hp, hne]

/-- The loop over the channels of a platform, in any order, does all its tasks with an id. -/
theorem channels_done {platform : TaskPlatform} {D : Slot → Bool}
    {f : Round → ℤ × List String → Except String Round} (order : Order (ℤ × List String))
    (hf : ∀ (channelId : ℤ) (D : Slot → Bool) (st : Round),
      (∃ s ∈ tasks, inChannel platform channelId s = true) →
      (∀ s ∈ tasks, inChannel platform channelId s = true → D s = false) → Done cfg up tasks D st →
      ∃ st', f st (channelId, askedIds tasks platform channelId) = .ok st' ∧
        Done cfg up tasks (fun s => D s || inChannel platform channelId s) st')
    (hnew : ∀ s ∈ tasks, askedOf platform s = true → D s = false) (hdone : Done cfg up tasks D st) :
    ∃ st', (order.range (taskChannelMap (platformTasks tasks platform))).foldlM f st = .ok st' ∧
      Done cfg up tasks (fun s => D s || askedOf platform s) st' := by
  have hperm := order.perm (taskChannelMap (platformTasks tasks platform))
  obtain ⟨st', hfold, hst'⟩ := Done.foldlM (G := fun e s => inChannel platform e.1 s)
    (order.range (taskChannelMap (platformTasks tasks platform)))
    (fun e he D st hnew hdone => by
      obtain ⟨hmem, hids⟩ := mem_taskChannelMap.mp (hperm.mem_iff.mp he)
      have hstep := hf e.1 D st hmem hnew hdone
      rw [← hids] at hstep
      exact hstep)
    (by
      -- the keys are distinct, and a task is of one channel only
      have hkeys := (hperm.map Prod.fst).nodup_iff.mpr (nodup_keys_groupBy _ _ _)
      rw [List.nodup_iff_pairwise_ne, List.pairwise_map] at hkeys
      refine hkeys.imp fun hne s _ hboth => hne ?_
      exact (inChannel_iff.mp hboth.1).2.1.symm.trans (inChannel_iff.mp hboth.2).2.1)
    (fun e _ s hs hin => hnew s hs (by
      have := inChannel_iff.mp hin
      exact askedOf_iff.mpr ⟨this.1, this.2.2⟩)) hdone
  refine ⟨st', hfold, hst'.congr fun s hs => .inl ?_⟩
  have hany : (order.range (taskChannelMap (platformTasks tasks platform))).any
      (fun e => inChannel platform e.1 s) = askedOf platform s := by
    rw [Bool.eq_iff_iff, List.any_eq_true, askedOf_iff]
    constructor
    · rintro ⟨e, -, hin⟩
      have := inChannel_iff.mp hin
      exact ⟨this.1, this.2.2⟩
    · rintro ⟨hp, hne⟩
      have hin := inChannel_iff.mpr ⟨hp, rfl, hne⟩
      exact ⟨(s.channelId, askedIds tasks platform s.channelId),
        hperm.mem_iff.mpr (mem_taskChannelMap.mpr ⟨⟨s, hs, hin⟩, rfl⟩), hin⟩
  rw [hany]

/-! ## The platforms -/

section Platform

variable (h : Joinable up tasks) (hnd : (tasks.map Slot.id).Nodup) {D : Slot → Bool}
include h hnd

theorem dispatchPlatformUpdate_done (orders : Orders) (platform : TaskPlatform)
    (hnew : ∀ s ∈ tasks, askedOf platform s = true → D s = false) (hdone : Done cfg up tasks D st) :
    ∃ st', dispatchPlatformUpdate cfg up orders platform
        (taskChannelMap (platformTasks tasks platform)) (taskMap (platformTasks tasks platform)) st =
          .ok st' ∧
      Done cfg up tasks (fun s => D s || askedOf platform s) st' := by
  have houtside : platform = .openAIImage ∨ platform = .midjourney →
      Done cfg up tasks (fun s => D s || askedOf platform s) st := by
    intro hp
    refine hdone.skip fun s _ hasked => ?_
    obtain ⟨rfl, hne⟩ := askedOf_iff.mp hasked
    rcases hp with hp | hp <;> simp [Slot.own, Slot.fetched, hne, hp]
  cases platform with
  | openAIImage => exact ⟨st, rfl, houtside (.inl rfl)⟩
  | midjourney => exact ⟨st, rfl, houtside (.inr rfl)⟩
  | suno =>
    exact channels_done orders.channels
      (fun channelId D st hmem hnew hdone => updateSunoTasks_done h hnd hmem hnew hdone) hnew hdone
  | video name =>
    obtain ⟨st', hfold, hst'⟩ := channels_done
      (f := fun st e => .ok (updateVideoTasks cfg up (.video name)
        (taskMap (platformTasks tasks (.video name))) st e)) orders.channels
      (fun channelId D st hmem hnew hdone =>
        ⟨_, rfl, updateVideoTasks_done h hnd hmem hnew hdone⟩) hnew hdone
    have hpure := List.foldlM_pure (m := Except String) (b := st)
      (f := updateVideoTasks cfg up (.video name) (taskMap (platformTasks tasks (.video name))))
      (l := orders.channels.range (taskChannelMap (platformTasks tasks (.video name))))
    exact ⟨st', hpure.symm.trans hfold, hst'⟩

theorem pollPlatform_done (orders : Orders) (platform : TaskPlatform)
    (hnew : ∀ s ∈ tasks, s.platform = platform → D s = false) (hdone : Done cfg up tasks D st) :
    ∃ st', pollPlatform cfg up orders st (platform, platformTasks tasks platform) = .ok st' ∧
      Done cfg up tasks (fun s => D s || decide (s.platform = platform)) st' := by
  have hboth : ∀ s : Slot, (nullOf platform s || askedOf platform s) = decide (s.platform = platform) := by
    intro s
    by_cases hp : s.platform = platform <;> simp [nullOf, askedOf, hp]
  -- the tasks without an upstream id
  have hnulls : Done cfg up tasks (fun s => D s || nullOf platform s)
      (if nullTaskIds (platformTasks tasks platform) = [] then st
        else st.bulkFail (up.nullFault platform) (nullTaskIds (platformTasks tasks platform)) none) := by
    have hids : ∀ s ∈ tasks,
        (nullTaskIds (platformTasks tasks platform)).contains s.id = nullOf platform s := by
      intro s hs
      rw [Bool.eq_iff_iff, List.contains_iff_mem, nullOf_iff, nullTaskIds, List.mem_map]
      simp only [platformTasks, List.mem_filter, decide_eq_true_eq]
      constructor
      · rintro ⟨t, ⟨⟨ht, hp⟩, hnull⟩, hid⟩
        have : t = s := List.inj_on_of_nodup_map hnd ht hs hid
        subst this
        exact ⟨hp, hnull⟩
      · rintro ⟨hp, hnull⟩
        exact ⟨s, ⟨⟨hs, hp⟩, hnull⟩, rfl⟩
    split
    · rename_i hnil
      refine hdone.congr fun s hs => .inl ?_
      have := hids s hs
      rw [hnil] at this
      rw [← this]
      exact (Bool.or_false _).symm
    · refine hdone.bulk (fun s hs hnull => hnew s hs (nullOf_iff.mp hnull).1) hids fun s _ hnull => ?_
      obtain ⟨rfl, hempty⟩ := nullOf_iff.mp hnull
      exact ⟨if_pos hempty, by simp [Slot.fetched, hempty]⟩
  have hnext : ∀ s ∈ tasks, askedOf platform s = true → (D s || nullOf platform s) = false := by
    intro s hs hasked
    obtain ⟨hp, hne⟩ := askedOf_iff.mp hasked
    simp [hnew s hs hp, nullOf, hne]
  have hfinish : ∀ {st' : Round},
      Done cfg up tasks (fun s => (D s || nullOf platform s) || askedOf platform s) st' →
      Done cfg up tasks (fun s => D s || decide (s.platform = platform)) st' := by
    intro st' hst'
    refine hst'.congr fun s _ => .inl ?_
    rw [Bool.or_assoc, hboth]
  simp only [pollPlatform]
  split
  · rename_i hnil
    refine ⟨st, rfl, hdone.congr fun s hs => .inl ?_⟩
    have hp : s.platform ≠ platform := by
      intro hp
      have : s ∈ platformTasks tasks platform := by simp [platformTasks, hs, hp]
      rw [hnil] at this
      cases this
    simp [hp]
  split
  · rename_i hnil
    refine ⟨_, rfl, hfinish (hnulls.congr fun s hs => .inl ?_)⟩
    have hasked : askedOf platform s = false := by
      by_contra hasked
      obtain ⟨hp, hne⟩ := askedOf_iff.mp (by simpa using hasked)
      have hmem : (s.channelId, askedIds tasks platform s.channelId) ∈
          taskChannelMap (platformTasks tasks platform) :=
        mem_taskChannelMap.mpr ⟨⟨s, hs, inChannel_iff.mpr ⟨hp, rfl, hne⟩⟩, rfl⟩
      rw [hnil] at hmem
      cases hmem
    simp [hasked]
  · obtain ⟨st', hdispatch, hst'⟩ := dispatchPlatformUpdate_done h hnd orders platform hnext hnulls
    exact ⟨st', hdispatch, hfinish hst'⟩

end Platform

def sampleTask (platform : TaskPlatform) : Task where
  taskID := "task_1"
  platform := platform
  userId := 1
  quota := 0
  status := .inProgress
  failReason := ""
  submitTime := 100
  startTime := 110
  finishTime := 0
  progress := "30%"
  privateData := ⟨"", .wallet, 0, 0, false⟩
  data := []

def sampleSlot (id : ℕ) (channelId : ℤ) (platform : TaskPlatform) (upstreamTaskID : String) : Slot :=
  ⟨id, channelId, "", upstreamTaskID, "", sampleTask platform, sampleTask platform⟩

/-- Channels 1 and 2, whose Suno replies say that the tasks `ids` have succeeded. -/
def sampleUpstream (ids : List String → List String) : Upstream where
  getChannel channelId := if channelId = 1 ∨ channelId = 2 then some ⟨some "https://up", "sk"⟩ else none
  getTaskAdaptor _ := true
  fetchSuno channelId asked := .ok ((if channelId = 1 then ids asked else []).map fun u =>
    ⟨u, ⟨.success, "", 100, 110, 200, []⟩, none⟩)
  fetchVideo _ _ _ _ _ := .parsed ⟨.success, "https://v", "", ""⟩ .unrecognized []
  writeFault _ := none
  nullFault _ := none
  bulkFault _ := none
  now := 300

def sampleOrders : Orders := ⟨.insertion _, .insertion _⟩

def sampleSlots : Table Slot Slot.id where
  rows := [sampleSlot 1 1 .suno "a", sampleSlot 2 2 .suno "b", sampleSlot 3 1 (.video "50") "a"]
  nodup := by decide

/-- Two tasks that channels 1 and 2 have given the same upstream id. -/
def sameIdSlots : Table Slot Slot.id where
  rows := [sampleSlot 1 1 .suno "a", sampleSlot 2 2 .suno "a"]
  nodup := by decide

def lostChannelSlots : Table Slot Slot.id where
  rows := [sampleSlot 1 3 .suno "a"]
  nodup := by decide

end Tasks
