import GMasterApi.Channel.ModelNames

/-!
# Models that upstream adds and removes

A check compares the models of a channel with those that upstream lists and stores what is to be
added and to be removed; an apply changes the channel by what has been selected of these, and
stores the rest.  Both leave the stored lists as the next check would find them (`Current`), as
long as no two sources of the model mapping that differ in spaces only have different targets
(`converges`).
-/

namespace UpstreamModels

open GoMap GoString Channels

/-- The `UpstreamModelUpdate` fields of a channel's settings. -/
structure Settings where
  autoSyncEnabled : Bool
  lastCheckTime : ℤ
  lastDetectedModels : List String
  lastRemovedModels : List String
  ignoredModels : List String

structure Channel where
  models : String
  modelMapping : Option String
  settings : Settings

/-- JSON, regular expressions and the database; an update may fail with a text. -/
structure Env where
  unmarshal : String → Option (List (String × String))
  matchString : String → String → Option Bool
  update : Channel → Option String
  updateAbilities : Channel → Option String
  minCheckInterval : ℤ

variable (env : Env)

def Channel.getModels (channel : Channel) : List String :=
  if channel.models = "" then [] else split (trimChar channel.models ',') ','

/-! ## Detection -/

def parsedMapping (channel : Channel) : List (String × String) :=
  match channel.modelMapping with
  | none => []
  | some raw =>
    if trimSpace raw = "" ∨ trimSpace raw = "{}" then []
    else (env.unmarshal (trimSpace raw)).getD []

/-- Of sources that are trimmed to one, the last that the `range` comes to stays. -/
def normalizeChannelModelMapping (order : Order (String × String)) (channel : Channel) :
    List (String × String) :=
  (order.range (parsedMapping env channel)).foldl
    (fun normalized e =>
      if trimSpace e.1 = "" ∨ trimSpace e.2 = "" then normalized
      else assign normalized (trimSpace e.1) (trimSpace e.2))
    []

def cutPrefix (s pre : String) : Option String :=
  if hasPrefix s pre then some (trimPrefix s pre) else none

def ignores (ignoredModel modelName : String) : Bool :=
  match cutPrefix ignoredModel "regex:" with
  | some regexBody => env.matchString (trimSpace regexBody) modelName = some true
  | none => ignoredModel = modelName

def isIgnored (ignoredModels : List String) (modelName : String) : Bool :=
  (normalizeModelNames ignoredModels).any fun ignoredModel => ignores env ignoredModel modelName

def collectPendingUpstreamModelChangesFromModels
    (localModels upstreamModels ignoredModels : List String)
    (modelMapping : List (String × String)) : List String × List String :=
  let localModels := normalizeModelNames localModels
  let upstreamModels := normalizeModelNames upstreamModels
  let pendingAdd := upstreamModels.filter fun modelName =>
    modelName ∉ localModels ∧ modelName ∉ modelMapping.map Prod.snd ∧
      isIgnored env ignoredModels modelName = false
  let pendingRemove := localModels.filter fun modelName =>
    modelName ∉ modelMapping.map Prod.fst ∧ modelName ∉ upstreamModels
  (normalizeModelNames pendingAdd, normalizeModelNames pendingRemove)

def collectPendingUpstreamModelChanges (order : Order (String × String)) (channel : Channel)
    (upstreamModels : List String) : List String × List String :=
  collectPendingUpstreamModelChangesFromModels env channel.getModels upstreamModels
    channel.settings.ignoredModels (normalizeChannelModelMapping env order channel)

structure Check where
  now : ℤ
  force : Bool
  allowAutoApply : Bool
  order : Order (String × String)

/-- The last check is long enough ago. -/
def Check.Due (check : Check) (settings : Settings) : Prop :=
  check.force = true ∨
    ¬ (0 < settings.lastCheckTime ∧ check.now - settings.lastCheckTime < env.minCheckInterval)

instance (check : Check) (settings : Settings) : Decidable (check.Due env settings) := by
  unfold Check.Due
  infer_instance

/-- `channel` is the row as it has been stored. -/
structure Checked where
  channel : Channel
  modelsChanged : Bool
  autoAdded : ℕ
  err : Option String

/-- An error where nothing has been stored; `upstream` is what has been fetched. -/
def checkAndPersistChannelUpstreamModelUpdates (check : Check)
    (upstream : Except String (List String)) (channel : Channel) : Except String Checked :=
  if ¬ check.Due env channel.settings then .ok ⟨channel, false, 0, none⟩
  else
    match upstream with
    | .error fetchErr =>
      let next := { channel with settings.lastCheckTime := check.now }
      match env.update next with
      | some err => .error err
      | none => .ok ⟨next, false, 0, some fetchErr⟩
    | .ok upstreamModels =>
      let pending := collectPendingUpstreamModelChanges env check.order channel upstreamModels
      let autoApply := check.allowAutoApply && channel.settings.autoSyncEnabled &&
        decide (0 < pending.1.length)
      let originModels := normalizeModelNames channel.getModels
      let mergedModels := mergeModelNames originModels pending.1
      let modelsChanged := autoApply && decide (originModels.length < mergedModels.length)
      let next := { channel with
        models := if modelsChanged then join mergedModels ',' else channel.models
        settings := { channel.settings with
          lastCheckTime := check.now
          lastDetectedModels := if autoApply then [] else pending.1
          lastRemovedModels := pending.2 } }
      match env.update next with
      | some err => .error err
      | none => .ok {
          channel := next
          modelsChanged
          autoAdded := if modelsChanged then mergedModels.length - originModels.length else 0
          err := if modelsChanged then env.updateAbilities next else none }

/-! ## Apply -/

structure Selection where
  addModels : List String
  ignoreModels : List String
  removeModels : List String

structure Applied where
  channel : Channel
  addedModels : List String
  removedModels : List String
  remainingModels : List String
  remainingRemoveModels : List String
  modelsChanged : Bool
  err : Option String

def applyChannelUpstreamModelUpdates (now : ℤ) (channel : Channel) (selection : Selection) :
    Except String Applied :=
  let settings := channel.settings
  let pendingAddModels := normalizeModelNames settings.lastDetectedModels
  let pendingRemoveModels := normalizeModelNames settings.lastRemovedModels
  let addModels := intersectModelNames selection.addModels pendingAddModels
  let ignoreModels := intersectModelNames selection.ignoreModels pendingAddModels
  let removeModels :=
    subtractModelNames (intersectModelNames selection.removeModels pendingRemoveModels) addModels
  let originModels := normalizeModelNames channel.getModels
  let nextModels := applySelectedModelChanges originModels addModels removeModels
  let modelsChanged := decide (originModels ≠ nextModels)
  let merged := mergeModelNames settings.ignoredModels ignoreModels
  let remainingModels := subtractModelNames pendingAddModels (addModels ++ ignoreModels)
  let remainingRemoveModels := subtractModelNames pendingRemoveModels removeModels
  let next := { channel with
    models := if modelsChanged then join nextModels ',' else channel.models
    settings := { settings with
      ignoredModels := if 0 < addModels.length then subtractModelNames merged addModels else merged
      lastDetectedModels := remainingModels
      lastRemovedModels := remainingRemoveModels
      lastCheckTime := now } }
  match env.update next with
  | some err => .error err
  | none => .ok {
      channel := next
      addedModels := addModels
      removedModels := removeModels
      remainingModels
      remainingRemoveModels
      modelsChanged
      err := if modelsChanged then env.updateAbilities next else none }

/-! ## What is promised -/

/-- A list of names without commas none of which is written like a regular expression. -/
structure Upstream where
  names : List String
  noComma : ∀ model ∈ normalizeModelNames names, ',' ∉ model.toList
  notRegex : ∀ model ∈ normalizeModelNames names, hasPrefix model "regex:" = false

def Channel.localModels (channel : Channel) : List String := normalizeModelNames channel.getModels

/-- The aliases of a mapping: its pairs, trimmed. -/
def aliases (channel : Channel) : List (String × String) :=
  ((parsedMapping env channel).map fun e => (trimSpace e.1, trimSpace e.2)).filter fun e =>
    e.1 ≠ "" ∧ e.2 ≠ ""

/-- An alias has one target. -/
def Unambiguous (channel : Channel) : Prop :=
  ∀ source target target', (source, target) ∈ aliases env channel →
    (source, target') ∈ aliases env channel → target = target'

/-- Channels that have been checked against the list, with any number of applies since. -/
inductive Reached (upstream : Upstream) : Channel → Prop
  | checked (channel : Channel) (check : Check) (result : Checked)
      (unambiguous : Unambiguous env channel) (due : check.Due env channel.settings)
      (run : checkAndPersistChannelUpstreamModelUpdates env check (.ok upstream.names) channel =
        .ok result) : Reached upstream result.channel
  | applied (channel : Channel) (now : ℤ) (selection : Selection) (result : Applied)
      (reached : Reached upstream channel)
      (run : applyChannelUpstreamModelUpdates env now channel selection = .ok result) :
      Reached upstream result.channel

/-- An apply is what the next check finds. -/
structure Converged (upstream : List String) (channel : Channel) (selection : Selection)
    (applied : Applied) : Prop where
  next : ∀ order, collectPendingUpstreamModelChanges env order applied.channel upstream =
    (applied.remainingModels, applied.remainingRemoveModels)
  stored : applied.channel.settings.lastDetectedModels = applied.remainingModels ∧
    applied.channel.settings.lastRemovedModels = applied.remainingRemoveModels
  everything : (∀ model ∈ channel.settings.lastDetectedModels,
      model ∈ normalizeModelNames selection.addModels ∨
        model ∈ normalizeModelNames selection.ignoreModels) →
    (∀ model ∈ channel.settings.lastRemovedModels,
      model ∈ normalizeModelNames selection.removeModels) →
    applied.remainingModels = [] ∧ applied.remainingRemoveModels = []
  dropped : ∀ model ∈ channel.localModels, model ∉ applied.channel.localModels →
    model ∈ channel.settings.lastRemovedModels ∧
      model ∈ normalizeModelNames selection.removeModels ∧ model ∉ applied.addedModels
  source : ∀ order, ∀ model ∈ channel.localModels,
    model ∈ (normalizeChannelModelMapping env order channel).map Prod.fst →
      model ∈ applied.channel.localModels
  ignored : ∀ model ∈ applied.channel.localModels,
    isIgnored env channel.settings.ignoredModels model = true → model ∈ channel.localModels
  nodup : applied.modelsChanged = true → applied.channel.getModels.Nodup
  unchanged : applied.modelsChanged = false → applied.channel.models = channel.models

/-- An automatic sync adds all that is to be added. -/
structure Synced (upstream : List String) (channel : Channel) (checked : Checked) : Prop where
  nothing : checked.channel.settings.lastRemovedModels = [] →
    ∀ order, collectPendingUpstreamModelChanges env order checked.channel upstream = ([], [])
  kept : ∀ model ∈ channel.localModels, model ∈ checked.channel.localModels
  ignored : ∀ model ∈ checked.channel.localModels,
    isIgnored env channel.settings.ignoredModels model = true → model ∈ channel.localModels
  nodup : checked.modelsChanged = true → checked.channel.getModels.Nodup
  unchanged : checked.modelsChanged = false → checked.channel.models = channel.models

/-! ## Differences of two lists -/

section Differences

variable {α : Type} [DecidableEq α]

def pendingAdds (present upstream targets : List α) (ignored : α → Bool) : List α :=
  upstream.filter fun x => x ∉ present ∧ x ∉ targets ∧ ignored x = false

def pendingRemoves (present upstream sources : List α) : List α :=
  present.filter fun x => x ∉ sources ∧ x ∉ upstream

def changed (present add remove : List α) : List α :=
  (present ++ add.filter fun x => x ∉ present).filter fun x => x ∉ remove

variable {present upstream sources targets add ignore remove : List α} {ignored ignored' : α → Bool}
  {x : α}

theorem mem_changed :
    x ∈ changed present add remove ↔ (x ∈ present ∨ x ∈ add) ∧ x ∉ remove := by
  by_cases h : x ∈ present <;> simp [changed, h]

/-- What has been added or is ignored is no longer to be added. -/
theorem pendingAdds_changed (hremove : ∀ x ∈ remove, x ∉ upstream)
    (hignored : ∀ x ∈ upstream, x ∉ add → ignored' x = (ignored x || decide (x ∈ ignore))) :
    pendingAdds (changed present add remove) upstream targets ignored' =
      (pendingAdds present upstream targets ignored).filter fun x => x ∉ add ++ ignore := by
  unfold pendingAdds
  rw [List.filter_filter]
  refine List.filter_congr fun x hx => ?_
  have hkept : x ∉ remove := fun h => hremove x h hx
  rw [Bool.eq_iff_iff, Bool.and_eq_true, decide_eq_true_eq, decide_eq_true_eq, decide_eq_true_eq,
    mem_changed, List.mem_append]
  by_cases hadd : x ∈ add
  · simp [hadd, hkept]
  · rw [hignored x hx hadd]
    simp only [hadd, or_false, hkept, not_false_eq_true, and_true, false_or, Bool.or_eq_false_iff,
      decide_eq_false_iff_not]
    tauto

/-- What has been removed is no longer to be removed. -/
theorem pendingRemoves_changed (hadd : ∀ x ∈ add, x ∈ upstream) :
    pendingRemoves (changed present add remove) upstream sources =
      (pendingRemoves present upstream sources).filter fun x => x ∉ remove := by
  have hnew : (add.filter fun x => x ∉ present).filter
      (fun x => decide (x ∉ sources ∧ x ∉ upstream)) = [] := by
    rw [List.filter_eq_nil_iff]
    intro x hx
    have hupstream := hadd x (List.mem_of_mem_filter hx)
    simp [hupstream]
  unfold pendingRemoves changed
  rw [List.filter_comm, List.filter_append, hnew, List.append_nil]

end Differences

/-! ## Rows -/

section Rows

variable {env} {channel : Channel} {models : List String} {model : String}

theorem normal_localModels (channel : Channel) : Normal channel.localModels :=
  normal_normalizeModelNames _

theorem noComma_localModels : ∀ model ∈ channel.localModels, ',' ∉ model.toList := by
  intro model hmodel hcomma
  obtain ⟨⟨raw, hraw, rfl⟩, -⟩ := mem_normalizeModelNames.mp hmodel
  rw [Channel.getModels] at hraw
  split at hraw
  · cases hraw
  · exact not_mem_of_mem_split hraw (mem_of_mem_trimSpace hcomma)

/-- A row whose names have been joined. -/
theorem getModels_join (h : Normal models) (hcomma : ∀ model ∈ models, ',' ∉ model.toList)
    (hchannel : channel.models = join models ',') : channel.getModels = models := by
  rw [Channel.getModels, hchannel]
  by_cases hne : models = []
  · subst hne
    rfl
  · rw [if_neg (h.join_ne hne), h.split_join hcomma hne]

/-- The mapping has the same pairs in every order, if no alias has two targets. -/
theorem mem_normalizeChannelModelMapping (h : Unambiguous env channel)
    (order : Order (String × String)) (e : String × String) :
    e ∈ normalizeChannelModelMapping env order channel ↔ e ∈ aliases env channel := by
  have hperm := (order.perm (parsedMapping env channel)).map fun e : String × String =>
    (trimSpace e.1, trimSpace e.2)
  have hmem : ∀ e : String × String,
      e ∈ ((order.range (parsedMapping env channel)).map fun e : String × String =>
        (trimSpace e.1, trimSpace e.2)).filter (fun e => e.1 ≠ "" ∧ e.2 ≠ "") ↔
          e ∈ aliases env channel := fun e => (hperm.filter _).mem_iff
  have hfold : normalizeChannelModelMapping env order channel =
      (((order.range (parsedMapping env channel)).map fun e : String × String =>
        (trimSpace e.1, trimSpace e.2)).filter fun e => e.1 ≠ "" ∧ e.2 ≠ "").foldl
          (fun m e => assign m e.1 e.2) [] := by
    rw [List.foldl_filter, List.foldl_map, normalizeChannelModelMapping]
    congr 1
    funext normalized e
    by_cases hsource : trimSpace e.1 = "" <;> by_cases htarget : trimSpace e.2 = "" <;>
      simp [hsource, htarget]
  rw [hfold, mem_foldl_assign, hmem]
  intro source target target' htarget htarget'
  exact h source target target' ((hmem _).mp htarget) ((hmem _).mp htarget')

def targets (env : Env) (channel : Channel) : List String := (aliases env channel).map Prod.snd

def sources (env : Env) (channel : Channel) : List String := (aliases env channel).map Prod.fst

/-- What a check finds does not depend on the order of the mapping. -/
theorem collectPending_eq (h : Unambiguous env channel) (order : Order (String × String))
    (upstream : List String) : collectPendingUpstreamModelChanges env order channel upstream =
      (pendingAdds channel.localModels (normalizeModelNames upstream) (targets env channel)
          (isIgnored env channel.settings.ignoredModels),
        pendingRemoves channel.localModels (normalizeModelNames upstream)
          (sources env channel)) := by
  have hmem := mem_normalizeChannelModelMapping h order
  have htargets : ∀ model, model ∈ (normalizeChannelModelMapping env order channel).map Prod.snd ↔
      model ∈ targets env channel := by
    intro model
    simp only [targets, List.mem_map, hmem]
  have hsources : ∀ model, model ∈ (normalizeChannelModelMapping env order channel).map Prod.fst ↔
      model ∈ sources env channel := by
    intro model
    simp only [sources, List.mem_map, hmem]
  unfold collectPendingUpstreamModelChanges collectPendingUpstreamModelChangesFromModels
  simp only [htargets, hsources]
  rw [((normal_normalizeModelNames upstream).filter _).normalize,
    ((normal_normalizeModelNames channel.getModels).filter _).normalize]
  rfl

theorem ignores_of_not_regex {ignoredModel : String} (h : hasPrefix ignoredModel "regex:" = false) :
    ignores env ignoredModel model = decide (ignoredModel = model) := by
  rw [ignores, cutPrefix, h]
  rfl

end Rows

/-! ## The invariant -/

/-- The stored lists are those that a check would find. -/
structure Current (upstream : Upstream) (channel : Channel) : Prop where
  unambiguous : Unambiguous env channel
  detected : channel.settings.lastDetectedModels =
    pendingAdds channel.localModels (normalizeModelNames upstream.names) (targets env channel)
      (isIgnored env channel.settings.ignoredModels)
  removed : channel.settings.lastRemovedModels =
    pendingRemoves channel.localModels (normalizeModelNames upstream.names) (sources env channel)

/-- What an apply does, by its parts. -/
structure Applies (channel : Channel) (selection : Selection) (applied : Applied) : Prop where
  added : applied.addedModels = intersectModelNames selection.addModels
    (normalizeModelNames channel.settings.lastDetectedModels)
  removed : applied.removedModels = subtractModelNames
    (intersectModelNames selection.removeModels
      (normalizeModelNames channel.settings.lastRemovedModels)) applied.addedModels
  modelsChanged : applied.modelsChanged = decide (channel.localModels ≠
    applySelectedModelChanges channel.localModels applied.addedModels applied.removedModels)
  models : applied.channel.models =
    if applied.modelsChanged then join (applySelectedModelChanges channel.localModels
      applied.addedModels applied.removedModels) ',' else channel.models
  mapping : applied.channel.modelMapping = channel.modelMapping
  remaining : applied.remainingModels =
    subtractModelNames (normalizeModelNames channel.settings.lastDetectedModels)
      (applied.addedModels ++ intersectModelNames selection.ignoreModels
        (normalizeModelNames channel.settings.lastDetectedModels))
  remainingRemove : applied.remainingRemoveModels =
    subtractModelNames (normalizeModelNames channel.settings.lastRemovedModels)
      applied.removedModels
  detected : applied.channel.settings.lastDetectedModels = applied.remainingModels
  lastRemoved : applied.channel.settings.lastRemovedModels = applied.remainingRemoveModels
  ignoredModels : applied.channel.settings.ignoredModels =
    if 0 < applied.addedModels.length then
      subtractModelNames (mergeModelNames channel.settings.ignoredModels
        (intersectModelNames selection.ignoreModels
          (normalizeModelNames channel.settings.lastDetectedModels))) applied.addedModels
    else mergeModelNames channel.settings.ignoredModels
      (intersectModelNames selection.ignoreModels
        (normalizeModelNames channel.settings.lastDetectedModels))

section Apply

variable {env} {upstream : Upstream} {channel : Channel} {selection : Selection} {applied : Applied}
  {model : String}

theorem applies_of_apply {now : ℤ}
    (h : applyChannelUpstreamModelUpdates env now channel selection = .ok applied) :
    Applies channel selection applied := by
  unfold applyChannelUpstreamModelUpdates at h
  dsimp only at h
  split at h
  · cases h
  · cases h
    exact ⟨rfl, rfl, rfl, rfl, rfl, rfl, rfl, rfl, rfl, rfl⟩

namespace Current

theorem normal_detected (h : Current env upstream channel) :
    Normal channel.settings.lastDetectedModels := by
  rw [h.detected]
  exact (normal_normalizeModelNames _).filter _

theorem normal_removed (h : Current env upstream channel) :
    Normal channel.settings.lastRemovedModels := by
  rw [h.removed]
  exact (normal_localModels channel).filter _

theorem mem_upstream (h : Current env upstream channel)
    (hmodel : model ∈ channel.settings.lastDetectedModels) :
    model ∈ normalizeModelNames upstream.names := by
  rw [h.detected] at hmodel
  exact List.mem_of_mem_filter hmodel

theorem collect (h : Current env upstream channel) (order : Order (String × String)) :
    collectPendingUpstreamModelChanges env order channel upstream.names =
      (channel.settings.lastDetectedModels, channel.settings.lastRemovedModels) := by
  rw [collectPending_eq h.unambiguous, h.detected, h.removed]

theorem mem_added (h : Current env upstream channel) (ha : Applies channel selection applied) :
    model ∈ applied.addedModels ↔ model ∈ normalizeModelNames selection.addModels ∧
      model ∈ channel.settings.lastDetectedModels := by
  rw [ha.added, mem_intersectModelNames, normalizeModelNames_normalizeModelNames,
    h.normal_detected.normalize]

theorem normal_added (ha : Applies channel selection applied) : Normal applied.addedModels := by
  rw [ha.added]
  exact normal_intersectModelNames _ _

theorem normal_removedModels (ha : Applies channel selection applied) :
    Normal applied.removedModels := by
  rw [ha.removed]
  exact normal_subtractModelNames _ _

theorem mem_removed (h : Current env upstream channel) (ha : Applies channel selection applied) :
    model ∈ applied.removedModels ↔ (model ∈ normalizeModelNames selection.removeModels ∧
      model ∈ channel.settings.lastRemovedModels) ∧ model ∉ applied.addedModels := by
  rw [ha.removed, mem_subtractModelNames, (normal_intersectModelNames _ _).normalize,
    (normal_added ha).normalize, mem_intersectModelNames, normalizeModelNames_normalizeModelNames,
    h.normal_removed.normalize]

/-- The names of the row after an apply. -/
theorem nextModels_eq (h : Current env upstream channel) (ha : Applies channel selection applied) :
    applySelectedModelChanges channel.localModels applied.addedModels applied.removedModels =
      changed channel.localModels applied.addedModels applied.removedModels :=
  applySelectedModelChanges_eq (normal_localModels channel) (normal_added ha)
    (normal_removedModels ha) fun _ hmodel => ((h.mem_removed ha).mp hmodel).2

theorem normal_changed {present add remove : List String} (hpresent : Normal present)
    (hadd : Normal add) : Normal (changed present add remove) :=
  (hpresent.append_new hadd).filter _

theorem noComma_changed (h : Current env upstream channel)
    (ha : Applies channel selection applied) : ∀ model ∈ changed channel.localModels
      applied.addedModels applied.removedModels, ',' ∉ model.toList := by
  intro model hmodel
  rcases (mem_changed.mp hmodel).1 with hlocal | hadd
  · exact noComma_localModels model hlocal
  · exact upstream.noComma model (h.mem_upstream ((h.mem_added ha).mp hadd).2)

/-- A list that has changed is stored without repetitions. -/
theorem getModels_applied (h : Current env upstream channel)
    (ha : Applies channel selection applied) (hchanged : applied.modelsChanged = true) :
    applied.channel.getModels =
      changed channel.localModels applied.addedModels applied.removedModels := by
  refine getModels_join (normal_changed (normal_localModels channel) (normal_added ha))
    (h.noComma_changed ha) ?_
  rw [ha.models, if_pos hchanged, h.nextModels_eq ha]

theorem localModels_applied (h : Current env upstream channel)
    (ha : Applies channel selection applied) : applied.channel.localModels =
      changed channel.localModels applied.addedModels applied.removedModels := by
  cases hchanged : applied.modelsChanged with
  | true =>
    rw [Channel.localModels, h.getModels_applied ha hchanged]
    exact (normal_changed (normal_localModels channel) (normal_added ha)).normalize
  | false =>
    have hsame := ha.modelsChanged.symm.trans hchanged
    rw [h.nextModels_eq ha, decide_eq_false_iff_not, not_not] at hsame
    have hmodels : applied.channel.models = channel.models := by
      rw [ha.models, hchanged]
      rfl
    rw [← hsame, Channel.localModels, Channel.getModels, hmodels]
    rfl

/-- After an apply a name is ignored that was ignored before, or is ignored now. -/
theorem isIgnored_applied (h : Current env upstream channel)
    (ha : Applies channel selection applied) (hmodel : model ∉ applied.addedModels) :
    isIgnored env applied.channel.settings.ignoredModels model =
      (isIgnored env channel.settings.ignoredModels model || decide (model ∈
        intersectModelNames selection.ignoreModels channel.settings.lastDetectedModels)) := by
  have hregex : ∀ name ∈ channel.settings.lastDetectedModels, hasPrefix name "regex:" = false :=
    fun name hname => upstream.notRegex name (h.mem_upstream hname)
  have hmem : ∀ name, name ∈ normalizeModelNames applied.channel.settings.ignoredModels ↔
      (name ∈ normalizeModelNames channel.settings.ignoredModels ∨ name ∈
        intersectModelNames selection.ignoreModels channel.settings.lastDetectedModels) ∧
        name ∉ applied.addedModels := by
    intro name
    rw [ha.ignoredModels, h.normal_detected.normalize]
    split
    · rw [(normal_subtractModelNames _ _).normalize, mem_subtractModelNames,
        (normal_mergeModelNames _ _).normalize, mem_mergeModelNames,
        (normal_intersectModelNames _ _).normalize, (normal_added ha).normalize]
    · rename_i hlength
      have hnil : applied.addedModels = [] := List.length_eq_zero_iff.mp (by omega)
      rw [(normal_mergeModelNames _ _).normalize, mem_mergeModelNames,
        (normal_intersectModelNames _ _).normalize, hnil]
      simp
  rw [Bool.eq_iff_iff, Bool.or_eq_true, decide_eq_true_eq, isIgnored, isIgnored, List.any_eq_true,
    List.any_eq_true]
  constructor
  · rintro ⟨name, hname, hignores⟩
    rcases ((hmem name).mp hname).1 with hold | hnew
    · exact .inl ⟨name, hold, hignores⟩
    · have hdetected := (mem_intersectModelNames.mp hnew).2
      rw [h.normal_detected.normalize] at hdetected
      rw [ignores_of_not_regex (hregex name hdetected), decide_eq_true_eq] at hignores
      exact .inr (hignores ▸ hnew)
  · rintro (⟨name, hname, hignores⟩ | hnew)
    · refine ⟨name, (hmem name).mpr ⟨.inl hname, fun hadd => hmodel ?_⟩, hignores⟩
      have hdetected := ((h.mem_added ha).mp hadd).2
      rw [ignores_of_not_regex (hregex name hdetected), decide_eq_true_eq] at hignores
      exact hignores ▸ hadd
    · have hdetected := (mem_intersectModelNames.mp hnew).2
      rw [h.normal_detected.normalize] at hdetected
      refine ⟨model, (hmem model).mpr ⟨.inr hnew, hmodel⟩, ?_⟩
      rw [ignores_of_not_regex (hregex model hdetected), decide_eq_true_eq]

theorem aliases_applied (ha : Applies channel selection applied) :
    aliases env applied.channel = aliases env channel := by
  rw [aliases, parsedMapping, ha.mapping]
  rfl

theorem remaining_eq (h : Current env upstream channel) (ha : Applies channel selection applied) :
    applied.remainingModels = channel.settings.lastDetectedModels.filter fun model => model ∉
      applied.addedModels ++
        intersectModelNames selection.ignoreModels channel.settings.lastDetectedModels := by
  rw [ha.remaining, h.normal_detected.normalize, subtractModelNames, h.normal_detected.normalize]
  refine List.filter_congr fun model _ => ?_
  have hadded := (normal_added ha)
  have hignored := normal_intersectModelNames selection.ignoreModels
    channel.settings.lastDetectedModels
  rw [decide_eq_decide, not_iff_not, mem_normalizeModelNames]
  constructor
  · rintro ⟨⟨raw, hraw, rfl⟩, -⟩
    rcases List.mem_append.mp hraw with hmem | hmem
    · rwa [hadded.trimmed raw hmem]
    · rwa [hignored.trimmed raw hmem]
  · intro hmem
    rcases List.mem_append.mp hmem with hmem' | hmem'
    · exact ⟨⟨model, hmem, hadded.trimmed model hmem'⟩, hadded.nonempty model hmem'⟩
    · exact ⟨⟨model, hmem, hignored.trimmed model hmem'⟩, hignored.nonempty model hmem'⟩

theorem remainingRemove_eq (h : Current env upstream channel)
    (ha : Applies channel selection applied) : applied.remainingRemoveModels =
      channel.settings.lastRemovedModels.filter fun model => model ∉ applied.removedModels := by
  rw [ha.remainingRemove, h.normal_removed.normalize,
    h.normal_removed.subtract (normal_removedModels ha)]

/-- **An apply keeps the lists current.** -/
theorem apply (h : Current env upstream channel) (ha : Applies channel selection applied) :
    Current env upstream applied.channel where
  unambiguous source target target' := by
    rw [aliases_applied ha]
    exact h.unambiguous source target target'
  detected := by
    have hremove : ∀ model ∈ applied.removedModels, model ∉ normalizeModelNames upstream.names := by
      intro model hmodel
      have hremoved := ((h.mem_removed ha).mp hmodel).1.2
      rw [h.removed] at hremoved
      exact (of_decide_eq_true (List.mem_filter.mp hremoved).2).2
    have hadds : pendingAdds (changed channel.localModels applied.addedModels applied.removedModels)
        (normalizeModelNames upstream.names) (targets env channel)
        (isIgnored env applied.channel.settings.ignoredModels) =
          (pendingAdds channel.localModels (normalizeModelNames upstream.names)
            (targets env channel) (isIgnored env channel.settings.ignoredModels)).filter
              fun model => model ∉ applied.addedModels ++
                intersectModelNames selection.ignoreModels channel.settings.lastDetectedModels :=
      pendingAdds_changed hremove fun model _ hadd => h.isIgnored_applied ha hadd
    rw [ha.detected, h.remaining_eq ha, h.localModels_applied ha, targets, aliases_applied ha,
      ← targets, hadds, ← h.detected]
  removed := by
    rw [ha.lastRemoved, h.remainingRemove_eq ha, h.localModels_applied ha, sources,
      aliases_applied ha, pendingRemoves_changed fun model hadd =>
        h.mem_upstream ((h.mem_added ha).mp hadd).2, h.removed]
    rfl

end Current

end Apply

section Check

variable {env} {upstream : Upstream} {channel : Channel} {check : Check} {checked : Checked}
  {model : String}

/-- What a check that is due does, by its parts. -/
structure Checks (env : Env) (upstream : Upstream) (channel : Channel) (check : Check)
    (checked : Checked) (autoApply : Bool) (pending : List String × List String) : Prop where
  auto : autoApply = true → check.allowAutoApply = true ∧ channel.settings.autoSyncEnabled = true
  notAuto : autoApply = false → check.allowAutoApply = true →
    channel.settings.autoSyncEnabled = true → pending.1 = []
  found : pending = collectPendingUpstreamModelChanges env check.order channel upstream.names
  modelsChanged : checked.modelsChanged = (autoApply && decide (channel.localModels.length <
    (mergeModelNames channel.localModels pending.1).length))
  models : checked.channel.models = if checked.modelsChanged then
    join (mergeModelNames channel.localModels pending.1) ',' else channel.models
  mapping : checked.channel.modelMapping = channel.modelMapping
  detected : checked.channel.settings.lastDetectedModels = if autoApply then [] else pending.1
  removed : checked.channel.settings.lastRemovedModels = pending.2
  ignoredModels : checked.channel.settings.ignoredModels = channel.settings.ignoredModels

theorem checks_of_check (hdue : check.Due env channel.settings)
    (h : checkAndPersistChannelUpstreamModelUpdates env check (.ok upstream.names) channel =
      .ok checked) : ∃ autoApply pending, Checks env upstream channel check checked autoApply
        pending := by
  unfold checkAndPersistChannelUpstreamModelUpdates at h
  rw [if_neg (not_not.mpr hdue)] at h
  dsimp only at h
  split at h
  · cases h
  · cases h
    refine ⟨check.allowAutoApply && channel.settings.autoSyncEnabled && decide (0 <
        (collectPendingUpstreamModelChanges env check.order channel upstream.names).1.length),
      collectPendingUpstreamModelChanges env check.order channel upstream.names,
      ?_, ?_, rfl, rfl, rfl, rfl, rfl, rfl, rfl⟩
    · intro hauto
      obtain ⟨hallowed, -⟩ := Bool.and_eq_true_iff.mp hauto
      exact Bool.and_eq_true_iff.mp hallowed
    · intro hauto hallow henabled
      rw [hallow, henabled, Bool.true_and, Bool.true_and, decide_eq_false_iff_not, Nat.not_lt,
        Nat.le_zero] at hauto
      exact List.length_eq_zero_iff.mp hauto

namespace Checks

variable {autoApply : Bool} {pending : List String × List String}

theorem pending_eq (hc : Checks env upstream channel check checked autoApply pending)
    (h : Unambiguous env channel) :
    pending.1 = pendingAdds channel.localModels (normalizeModelNames upstream.names)
        (targets env channel) (isIgnored env channel.settings.ignoredModels) ∧
      pending.2 = pendingRemoves channel.localModels (normalizeModelNames upstream.names)
        (sources env channel) := by
  rw [hc.found, collectPending_eq h]
  exact ⟨rfl, rfl⟩

theorem normal_adds (hc : Checks env upstream channel check checked autoApply pending)
    (h : Unambiguous env channel) : Normal pending.1 := by
  rw [(hc.pending_eq h).1]
  exact (normal_normalizeModelNames _).filter _

theorem merge_eq (hc : Checks env upstream channel check checked autoApply pending)
    (h : Unambiguous env channel) :
    mergeModelNames channel.localModels pending.1 = changed channel.localModels pending.1 [] := by
  rw [(normal_localModels channel).merge (hc.normal_adds h), changed]
  exact (List.filter_eq_self.mpr fun _ _ => rfl).symm

theorem mem_upstream (hc : Checks env upstream channel check checked autoApply pending)
    (h : Unambiguous env channel) (hmodel : model ∈ pending.1) :
    model ∈ normalizeModelNames upstream.names := by
  rw [(hc.pending_eq h).1] at hmodel
  exact List.mem_of_mem_filter hmodel

theorem getModels_checked (hc : Checks env upstream channel check checked autoApply pending)
    (h : Unambiguous env channel) (hchanged : checked.modelsChanged = true) :
    checked.channel.getModels = mergeModelNames channel.localModels pending.1 := by
  refine getModels_join (normal_mergeModelNames _ _) ?_ ?_
  · intro model hmodel
    rw [hc.merge_eq h] at hmodel
    rcases (mem_changed.mp hmodel).1 with hlocal | hadd
    · exact noComma_localModels model hlocal
    · exact upstream.noComma model (hc.mem_upstream h hadd)
  · rw [hc.models, if_pos hchanged]

theorem localModels_checked (hc : Checks env upstream channel check checked autoApply pending)
    (h : Unambiguous env channel) : checked.channel.localModels =
      if autoApply then changed channel.localModels pending.1 [] else channel.localModels := by
  cases hchanged : checked.modelsChanged with
  | true =>
    have hauto := (Bool.and_eq_true_iff.mp (hc.modelsChanged.symm.trans hchanged)).1
    rw [Channel.localModels, hc.getModels_checked h hchanged,
      (normal_mergeModelNames _ _).normalize, if_pos hauto, hc.merge_eq h]
  | false =>
    have hmodels : checked.channel.models = channel.models := by
      rw [hc.models, hchanged]
      rfl
    have hsame : checked.channel.localModels = channel.localModels := by
      rw [Channel.localModels, Channel.getModels, hmodels]
      rfl
    have hfalse := hc.modelsChanged.symm.trans hchanged
    cases hauto : autoApply with
    | false => rw [hsame, if_neg (by decide)]
    | true =>
      rw [hauto, Bool.true_and, decide_eq_false_iff_not] at hfalse
      rw [hsame, if_pos rfl, ← hc.merge_eq h]
      -- nothing has been appended
      rw [(normal_localModels channel).merge (hc.normal_adds h)] at hfalse ⊢
      rw [List.length_append] at hfalse
      rw [List.length_eq_zero_iff.mp (by omega : (pending.1.filter fun model =>
        model ∉ channel.localModels).length = 0), List.append_nil]

theorem aliases_checked (hc : Checks env upstream channel check checked autoApply pending) :
    aliases env checked.channel = aliases env channel := by
  rw [aliases, parsedMapping, hc.mapping]
  rfl

/-- **A check leaves the lists current**, also where it has added the models itself. -/
theorem current (hc : Checks env upstream channel check checked autoApply pending)
    (h : Unambiguous env channel) : Current env upstream checked.channel := by
  obtain ⟨hadds, hremoves⟩ := hc.pending_eq h
  have hlocal := hc.localModels_checked h
  refine ⟨?_, ?_, ?_⟩
  · intro source target target'
    rw [hc.aliases_checked]
    exact h source target target'
  · rw [hc.detected, hlocal, hc.ignoredModels, targets, hc.aliases_checked, ← targets]
    cases autoApply with
    | false => rw [if_neg (by decide), if_neg (by decide), hadds]
    | true =>
      have hnext : pendingAdds (changed channel.localModels pending.1 [])
          (normalizeModelNames upstream.names) (targets env channel)
          (isIgnored env channel.settings.ignoredModels) =
            (pendingAdds channel.localModels (normalizeModelNames upstream.names)
              (targets env channel) (isIgnored env channel.settings.ignoredModels)).filter
                fun model => model ∉ pending.1 ++ [] :=
        pendingAdds_changed nofun fun model _ _ => by simp
      rw [if_pos rfl, if_pos rfl, hnext, ← hadds, List.append_nil]
      symm
      rw [List.filter_eq_nil_iff]
      intro model hmodel
      simp [hmodel]
  · rw [hc.removed, hlocal, sources, hc.aliases_checked, ← sources, hremoves]
    cases autoApply with
    | false => rw [if_neg (by decide)]
    | true =>
      rw [if_pos rfl, pendingRemoves_changed fun model hmodel => hc.mem_upstream h hmodel]
      exact (List.filter_eq_self.mpr fun _ _ => rfl).symm

/-- A name that is pending is new and not ignored. -/
theorem of_pending (hc : Checks env upstream channel check checked autoApply pending)
    (h : Unambiguous env channel) (hmodel : model ∈ pending.1) :
    isIgnored env channel.settings.ignoredModels model = false := by
  rw [(hc.pending_eq h).1] at hmodel
  exact (of_decide_eq_true (List.mem_filter.mp hmodel).2).2.2

theorem synced (hc : Checks env upstream channel check checked autoApply pending)
    (h : Unambiguous env channel) (hallow : check.allowAutoApply = true)
    (henabled : channel.settings.autoSyncEnabled = true) :
    Synced env upstream.names channel checked := by
  have hlocal := hc.localModels_checked h
  refine ⟨?_, ?_, ?_, ?_, ?_⟩
  · intro hremoved order
    have hdetected : checked.channel.settings.lastDetectedModels = [] := by
      rw [hc.detected]
      cases hauto : autoApply with
      | true => rfl
      | false => exact hc.notAuto hauto hallow henabled
    rw [(hc.current h).collect, hdetected, hremoved]
  · intro model hmodel
    rw [hlocal]
    split
    · exact mem_changed.mpr ⟨.inl hmodel, List.not_mem_nil⟩
    · exact hmodel
  · intro model hmodel hignored
    rw [hlocal] at hmodel
    split at hmodel
    · refine (mem_changed.mp hmodel).1.resolve_right fun hadd => ?_
      exact absurd (hignored.symm.trans (hc.of_pending h hadd)) (by decide)
    · exact hmodel
  · intro hchanged
    rw [hc.getModels_checked h hchanged]
    exact (normal_mergeModelNames _ _).nodup
  · intro hchanged
    rw [hc.models, hchanged]
    rfl

end Checks

end Check

theorem current_of_reached {env : Env} {upstream : Upstream} {channel : Channel}
    (h : Reached env upstream channel) : Current env upstream channel := by
  induction h with
  | checked channel check result unambiguous due run =>
    obtain ⟨autoApply, pending, hc⟩ := checks_of_check due run
    exact hc.current unambiguous
  | applied channel now selection result _ run ih => exact ih.apply (applies_of_apply run)

/-- A name that a check of the row would add is not ignored. -/
theorem Current.of_detected {env : Env} {upstream : Upstream} {channel : Channel} {model : String}
    (h : Current env upstream channel) (hmodel : model ∈ channel.settings.lastDetectedModels) :
    isIgnored env channel.settings.ignoredModels model = false := by
  rw [h.detected] at hmodel
  exact (of_decide_eq_true (List.mem_filter.mp hmodel).2).2.2

theorem Current.converged {env : Env} {upstream : Upstream} {channel : Channel}
    {selection : Selection} {applied : Applied} (h : Current env upstream channel)
    (ha : Applies channel selection applied) :
    Converged env upstream.names channel selection applied := by
  have hlocal := h.localModels_applied ha
  refine ⟨?_, ⟨ha.detected, ha.lastRemoved⟩, ?_, ?_, ?_, ?_, ?_, ?_⟩
  · intro order
    rw [(h.apply ha).collect, ha.detected, ha.lastRemoved]
  · intro hall hremoves
    rw [h.remaining_eq ha, h.remainingRemove_eq ha, List.filter_eq_nil_iff, List.filter_eq_nil_iff]
    constructor
    · intro model hmodel
      rw [decide_eq_true_eq, not_not, List.mem_append, h.mem_added ha, mem_intersectModelNames,
        h.normal_detected.normalize]
      exact (hall model hmodel).imp (fun hadd => ⟨hadd, hmodel⟩) fun hignore => ⟨hignore, hmodel⟩
    · intro model hmodel
      rw [decide_eq_true_eq, not_not, h.mem_removed ha]
      refine ⟨⟨hremoves model hmodel, hmodel⟩, fun hadd => ?_⟩
      -- what is to be removed is not upstream, what is to be added is
      have hupstream := h.mem_upstream ((h.mem_added ha).mp hadd).2
      rw [h.removed] at hmodel
      exact (of_decide_eq_true (List.mem_filter.mp hmodel).2).2 hupstream
  · intro model hmodel hdropped
    rw [hlocal, mem_changed, not_and, not_not] at hdropped
    obtain ⟨⟨hselected, hpending⟩, hadd⟩ := (h.mem_removed ha).mp (hdropped (.inl hmodel))
    exact ⟨hpending, hselected, hadd⟩
  · intro order model hmodel hsource
    rw [hlocal, mem_changed]
    refine ⟨.inl hmodel, fun hremoved => ?_⟩
    have hpending := ((h.mem_removed ha).mp hremoved).1.2
    rw [h.removed] at hpending
    refine (of_decide_eq_true (List.mem_filter.mp hpending).2).1 ?_
    obtain ⟨e, he, rfl⟩ := List.mem_map.mp hsource
    exact List.mem_map.mpr ⟨e, (mem_normalizeChannelModelMapping h.unambiguous order e).mp he, rfl⟩
  · intro model hmodel hignored
    rw [hlocal] at hmodel
    refine (mem_changed.mp hmodel).1.resolve_right fun hadd => ?_
    exact absurd (hignored.symm.trans (h.of_detected ((h.mem_added ha).mp hadd).2)) (by decide)
  · intro hchanged
    rw [h.getModels_applied ha hchanged]
    exact (Current.normal_changed (normal_localModels channel) (Current.normal_added ha)).nodup
  · intro hchanged
    rw [ha.models, hchanged]
    rfl

/-- **Applying what has been detected converges**: the next check finds what the apply has left. -/
theorem converges (env : Env) (upstream : Upstream) :
    (∀ channel, Reached env upstream channel → ∀ now selection applied,
      applyChannelUpstreamModelUpdates env now channel selection = .ok applied →
        Converged env upstream.names channel selection applied) ∧
    ∀ channel check checked, Unambiguous env channel → check.Due env channel.settings →
      check.allowAutoApply = true → channel.settings.autoSyncEnabled = true →
      checkAndPersistChannelUpstreamModelUpdates env check (.ok upstream.names) channel =
        .ok checked → Synced env upstream.names channel checked := by
  constructor
  · intro channel hreached now selection applied happly
    exact (current_of_reached hreached).converged (applies_of_apply happly)
  · intro channel check checked hunambiguous hdue hallow henabled hcheck
    obtain ⟨autoApply, pending, hc⟩ := checks_of_check hdue hcheck
    exact hc.synced hunambiguous hallow henabled

/-! ## Runs -/

/-- The mapping `m` has two sources that differ in a space. -/
def sampleEnv : Env where
  unmarshal raw := if raw = "m" then some [("a", "x"), (" a", "y")] else none
  matchString _ _ := none
  update _ := none
  updateAbilities _ := none
  minCheckInterval := 300

def noSettings : Settings := ⟨false, 0, [], [], []⟩

def forced (order : Order (String × String)) : Check := ⟨1, true, false, order⟩

def upstreamB : Upstream := ⟨["b"], by decide, by decide⟩

theorem added_and_removed :
    ∃ checked applied,
      checkAndPersistChannelUpstreamModelUpdates sampleEnv (forced (.insertion _))
        (.ok upstreamB.names) ⟨"a", none, noSettings⟩ = .ok checked ∧
      applyChannelUpstreamModelUpdates sampleEnv 2 checked.channel ⟨["b"], [], ["a"]⟩ =
        .ok applied ∧
      applied.channel.models = "b" ∧
      Converged sampleEnv upstreamB.names checked.channel ⟨["b"], [], ["a"]⟩ applied := by
  have hcheck : checkAndPersistChannelUpstreamModelUpdates sampleEnv (forced (.insertion _))
      (.ok upstreamB.names) ⟨"a", none, noSettings⟩ =
        .ok ⟨⟨"a", none, ⟨false, 1, ["b"], ["a"], []⟩⟩, false, 0, none⟩ := by rfl
  have happly : applyChannelUpstreamModelUpdates sampleEnv 2
      ⟨"a", none, ⟨false, 1, ["b"], ["a"], []⟩⟩ ⟨["b"], [], ["a"]⟩ =
        .ok ⟨⟨"b", none, ⟨false, 2, [], [], []⟩⟩, ["b"], ["a"], [], [], true, none⟩ := by rfl
  refine ⟨_, _, hcheck, happly, rfl, ?_⟩
  refine (converges sampleEnv upstreamB).1 _ (.checked _ _ _ ?_ (.inl rfl) hcheck) 2 _ _ happly
  intro source target target' h
  cases h

/-- The order that turns the entries of a map round. -/
def reversed : Order (String × String) := ⟨List.reverse, List.reverse_perm⟩

/-- Names that are there twice stay where nothing is changed; what is detected may depend on the
order of the mapping; and a model that is selected to be added and removed is removed, if it is
there and not upstream. -/
theorem left_as_they_were :
    (∃ applied, applyChannelUpstreamModelUpdates sampleEnv 1 ⟨"a,a", none, noSettings⟩
        ⟨[], [], []⟩ = .ok applied ∧ ¬ applied.channel.getModels.Nodup) ∧
    (∃ checked applied,
      checkAndPersistChannelUpstreamModelUpdates sampleEnv (forced (.insertion _))
        (.ok ["x", "y"]) ⟨"", some "m", noSettings⟩ = .ok checked ∧
      applyChannelUpstreamModelUpdates sampleEnv 2 checked.channel ⟨[], [], []⟩ = .ok applied ∧
      collectPendingUpstreamModelChanges sampleEnv reversed applied.channel ["x", "y"] ≠
        (applied.remainingModels, applied.remainingRemoveModels)) ∧
    ∃ checked applied,
      checkAndPersistChannelUpstreamModelUpdates sampleEnv (forced (.insertion _))
        (.ok ["b"]) ⟨"a", none, noSettings⟩ = .ok checked ∧
      applyChannelUpstreamModelUpdates sampleEnv 2 checked.channel ⟨["a"], [], ["a"]⟩ =
        .ok applied ∧
      checked.channel.localModels = ["a"] ∧ applied.channel.localModels = [] := by
  have hy : collectPendingUpstreamModelChanges sampleEnv reversed
      ⟨"", some "m", ⟨false, 2, ["x"], [], []⟩⟩ ["x", "y"] = (["y"], []) := by rfl
  refine ⟨⟨_, rfl, ?_⟩, ⟨_, _, rfl, rfl, ?_⟩, ⟨_, _, rfl, rfl, rfl, rfl⟩⟩
  · intro h
    have htwice : Channel.getModels ⟨"a,a", none, noSettings⟩ = ["a", "a"] := by rfl
    have hnodup : ["a", "a"].Nodup := htwice ▸ h
    exact absurd hnodup (by decide)
  · intro h
    have hsame : (["y"], ([] : List String)) = (["x"], []) := hy.symm.trans h
    exact absurd hsame (by decide)

end UpstreamModels
