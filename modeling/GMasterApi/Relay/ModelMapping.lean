import GMasterApi.Lib.Chain
import GMasterApi.Lib.GoMap
import GMasterApi.Lib.GoString
import GMasterApi.Lib.Transition

/-!
# Model mapping

The `model_mapping` of a channel redirects models, one to the next, and the last of the
chain is requested upstream.  In the mode responses-compact `ModelMappedHelper` writes
the model that it found into `OriginModelName`, from which the next attempt starts.

`model_mapping_iff` says when every attempt resolves the model that was requested.
-/

namespace Relay.Mapping

open GoMap GoString Transition Chain

def compactModelSuffix : String := "-openai-compact"

def withCompactModelSuffix (modelName : String) : String :=
  if hasSuffix modelName compactModelSuffix then modelName else modelName ++ compactModelSuffix

/-- What `RelayInfo` has of the model; `requestModel` is the model of the request itself. -/
structure Info where
  isResponsesCompact : Bool
  originModelName : String
  upstreamModelName : String
  isModelMapped : Bool
  requestModel : String
  deriving DecidableEq

/-- `SetModelName` of a request. -/
def Info.setModelName (info : Info) (modelName : String) : Info :=
  if modelName ≠ "" then { info with requestModel := modelName } else info

/-- `InitChannelMeta`; `originalModel` is that of the context. -/
def Info.initChannelMeta (info : Info) (originalModel : String) : Info :=
  { info with upstreamModelName := originalModel, isModelMapped := false }.setModelName
    info.originModelName

/-! ## `ModelMappedHelper` -/

/-- The model that the mapping starts from. -/
def mappingModelName (isResponsesCompact : Bool) (originModelName : String) : String :=
  if isResponsesCompact then trimSuffix originModelName compactModelSuffix else originModelName

/-- How the loop ends: in a cycle, in the origin that is mapped to itself, or in a model. -/
inductive LoopEnd
  | cycle
  | unmapped
  | ended (currentModel : String) (isModelMapped : Bool)
  deriving DecidableEq

/-- The loop, in `fuel` rounds; `none` where these do not suffice. -/
def mapLoop (modelMap : Map String String) (originModelName : String) :
    ℕ → String → List String → Bool → Option LoopEnd
  | 0, _, _, _ => none
  | fuel + 1, currentModel, visitedModels, isModelMapped =>
    match modelMap.get currentModel with
    | none => some (.ended currentModel isModelMapped)
    | some mappedModel =>
      if mappedModel = "" then some (.ended currentModel isModelMapped)
      else if mappedModel ∈ visitedModels then
        if mappedModel = currentModel then
          if currentModel = originModelName then some .unmapped else some (.ended currentModel true)
        else some .cycle
      else mapLoop modelMap originModelName fuel mappedModel (mappedModel :: visitedModels) true

/-- What follows the loop. -/
def Info.finish (info : Info) (mappingModelName : String) : Info :=
  let info :=
    if info.isResponsesCompact then
      let finalUpstreamModelName :=
        if info.isModelMapped ∧ info.upstreamModelName ≠ "" then info.upstreamModelName
        else mappingModelName
      { info with
        upstreamModelName := finalUpstreamModelName
        originModelName := withCompactModelSuffix finalUpstreamModelName }
    else info
  info.setModelName info.upstreamModelName

/-- `json.Unmarshal` into a map of strings; `none` where it returns an error. -/
abbrev Unmarshal := String → Option (Map String String)

/-- The table of a mapping. -/
def table (unmarshal : Unmarshal) (modelMapping : String) : Option (Map String String) :=
  if modelMapping ≠ "" ∧ modelMapping ≠ "\x7b\x7d" then unmarshal modelMapping else some .empty

/-- `ModelMappedHelper`; `none` where `fuel` rounds do not suffice. -/
def modelMappedHelper (unmarshal : Unmarshal) (fuel : ℕ) (modelMapping : String) (info : Info) :
    Option (Except String Info) :=
  let start := mappingModelName info.isResponsesCompact info.originModelName
  match table unmarshal modelMapping with
  | none => some (.error "unmarshal_model_mapping_failed")
  | some modelMap =>
    match mapLoop modelMap info.originModelName fuel start [start] info.isModelMapped with
    | none => none
    | some .cycle => some (.error "model_mapping_contains_cycle")
    | some .unmapped => some (.ok { info with isModelMapped := false })
    | some (.ended currentModel isModelMapped) =>
      some (.ok ({ info with
        isModelMapped := isModelMapped
        upstreamModelName := if isModelMapped then currentModel else info.upstreamModelName
        }.finish start))

/-! ## Attempts -/

/-- The mapping of the channel of an attempt, and the name that `GeminiHelper` gives a
request without thinking after it. -/
structure Attempt where
  modelMapping : String
  rename : Option String

/-- The request between two attempts, and how the last one was mapped. -/
structure Attempts where
  info : Info
  last : Option (Attempt × Option (Except String Info))

/-- Rounds that suffice for the table, and any number more. -/
def Attempt.fuel (unmarshal : Unmarshal) (extra : ℕ) (a : Attempt) : ℕ :=
  ((table unmarshal a.modelMapping).elim 0 fun modelMap => modelMap.entries.length) + 1 + extra

def Info.rename (info : Info) (name : Option String) : Info :=
  match name with
  | some name => { info with originModelName := name, upstreamModelName := name }
  | none => info

/-- An attempt of `Relay`: `SetupContextForSelectedChannel` puts `OriginModelName` into the
context, where `InitChannelMeta` finds it.  An error of the mapping may be retried. -/
def Attempts.attempt (unmarshal : Unmarshal) (extra : ℕ) (s : Attempts) (a : Attempt) : Attempts :=
  let info := s.info.initChannelMeta s.info.originModelName
  let result := modelMappedHelper unmarshal (a.fuel unmarshal extra) a.modelMapping info
  match result with
  | some (.ok mapped) => ⟨mapped.rename a.rename, some (a, result)⟩
  | _ => ⟨info, some (a, result)⟩

def attempts (unmarshal : Unmarshal) (extra : ℕ) : System Attempts Attempt :=
  ⟨fun s a => some (s.attempt unmarshal extra a)⟩

/-- The request before its first attempt. -/
def Attempts.start (isResponsesCompact : Bool) (requested requestModel : String) : Attempts :=
  ⟨⟨isResponsesCompact, requested, requested, false, requestModel⟩, none⟩

/-! ## What is promised -/

/-- The other model that a model is mapped to. -/
def next (modelMap : Map String String) (model : String) : Option String :=
  (modelMap.get model).filter fun mapped => mapped ≠ "" ∧ mapped ≠ model

/-- The result is right for the model `start`: it is there, it is an error exactly where
the chain of `start` comes to a cycle, and otherwise the upstream model is its end. -/
structure Resolves (modelMap : Map String String) (start : String)
    (result : Option (Except String Info)) : Prop where
  terminates : result ≠ none
  error : (∃ e, result = some (.error e)) ↔ Cycles (next modelMap) start
  ended : ∀ info, result = some (.ok info) → EndsAt (next modelMap) start info.upstreamModelName ∧
    (info.upstreamModelName ≠ "" → info.requestModel = info.upstreamModelName)

/-- The last attempt resolved the requested model under its own mapping. -/
def Resolved (unmarshal : Unmarshal) (isResponsesCompact : Bool) (requested : String)
    (s : Attempts) : Prop :=
  ∀ a result, s.last = some (a, result) →
    match table unmarshal a.modelMapping with
    | none => result = some (.error "unmarshal_model_mapping_failed")
    | some modelMap => Resolves modelMap (mappingModelName isResponsesCompact requested) result

/-- The condition on an attempt: under its mapping the model that it finds in
`OriginModelName` comes to the same end as the requested one. -/
def FindsRequested (unmarshal : Unmarshal) (requested : String) (s : Attempts) (a : Attempt) :
    Prop :=
  ∀ modelMap, table unmarshal a.modelMapping = some modelMap → ∀ model,
    EndsAt (next modelMap)
        (mappingModelName s.info.isResponsesCompact s.info.originModelName) model ↔
      EndsAt (next modelMap) (mappingModelName s.info.isResponsesCompact requested) model

/-! ## The loop -/

variable {unmarshal : Unmarshal} {extra fuel : ℕ} {modelMap : Map String String}
  {start origin model current : String} {visited : List String} {info : Info} {s t : Attempts}
  {a : Attempt}

/-- What an end of the loop says of the chain of `start`. -/
def LoopEnd.Right (modelMap : Map String String) (origin start : String) : LoopEnd → Prop
  | .cycle => Cycles (next modelMap) start
  | .unmapped => EndsAt (next modelMap) start origin
  | .ended current mapped => EndsAt (next modelMap) start current ∧
      (mapped = false → current = start) ∧ (mapped = true → current ≠ "")

theorem next_eq_none (h : modelMap.get model = none ∨ modelMap.get model = some "" ∨
    modelMap.get model = some model) : next modelMap model = none := by
  unfold next
  rcases h with h | h | h
  · rw [h]
    rfl
  · rw [h]
    exact Option.filter_eq_none_iff.mpr fun x hx => by cases hx; simp
  · rw [h]
    exact Option.filter_eq_none_iff.mpr fun x hx => by cases hx; simp

theorem next_eq_some {mapped : String} (h : modelMap.get model = some mapped) (hne : mapped ≠ "")
    (hother : mapped ≠ model) : next modelMap model = some mapped := by
  unfold next
  rw [h, Option.filter_some_pos]
  simpa using ⟨hne, hother⟩

theorem next_dom (h : next modelMap model ≠ none) : model ∈ modelMap.entries.map Prod.fst := by
  cases hget : modelMap.get model with
  | none => exact absurd (next_eq_none (.inl hget)) h
  | some mapped => exact List.mem_map.mpr ⟨_, Map.mem_entries.mpr hget, rfl⟩

/-- **The loop stops**, and says what the chain comes to.  Its visited set is the trail from
the start, of which every model but the current one is a key of the table. -/
theorem mapLoop_right (origin : String) {mapped : Bool}
    (htrail : Trail (next modelMap) start (current :: visited))
    (hfuel : modelMap.entries.length < fuel + visited.length)
    (hstart : mapped = false → current = start) (hnonempty : mapped = true → current ≠ "") :
    ∃ e, mapLoop modelMap origin fuel current (current :: visited) mapped = some e ∧
      e.Right modelMap origin start := by
  induction fuel generalizing current visited mapped with
  | zero =>
    have hle := htrail.length_le fun model => next_dom
    rw [List.length_map] at hle
    omega
  | succ fuel ih =>
    unfold mapLoop
    have hended : next modelMap current = none →
        (LoopEnd.ended current mapped).Right modelMap origin start := fun hnone => ⟨⟨htrail.reached, hnone⟩, hstart, hnonempty⟩
    cases hget : modelMap.get current with
    | none => exact ⟨_, rfl, hended (next_eq_none (.inl hget))⟩
    | some mappedModel =>
      dsimp only
      by_cases hempty : mappedModel = ""
      · rw [if_pos hempty]
        exact ⟨_, rfl, hended (next_eq_none (.inr (.inl (hempty ▸ hget))))⟩
      rw [if_neg hempty]
      by_cases hself : mappedModel = current
      · subst hself
        have hend : EndsAt (next modelMap) start mappedModel :=
          ⟨htrail.reached, next_eq_none (.inr (.inr hget))⟩
        rw [if_pos List.mem_cons_self, if_pos rfl]
        by_cases horigin : mappedModel = origin
        · rw [if_pos horigin]
          exact ⟨_, rfl, horigin ▸ hend⟩
        · rw [if_neg horigin]
          exact ⟨_, rfl, hend, fun h => (by cases h), fun _ => hempty⟩
      have hnext := next_eq_some hget hempty hself
      by_cases hvisited : mappedModel ∈ current :: visited
      · rw [if_pos hvisited, if_neg hself]
        exact ⟨_, rfl, htrail.cycles hnext hvisited⟩
      · rw [if_neg hvisited]
        refine ih (htrail.step hnext hvisited) ?_ (fun h => by cases h) (fun _ => hempty)
        rw [List.length_cons]
        omega

theorem mapLoop_start (modelMap : Map String String) (origin start : String)
    (h : modelMap.entries.length < fuel) :
    ∃ e, mapLoop modelMap origin fuel start [start] false = some e ∧
      e.Right modelMap origin start :=
  mapLoop_right origin .start (by simpa using h) (fun _ => rfl) (fun h => by cases h)

/-- A chain of a table ends or comes to a cycle. -/
theorem endsAt_or_cycles (modelMap : Map String String) (start : String) :
    (∃ model, EndsAt (next modelMap) start model) ∨ Cycles (next modelMap) start := by
  obtain ⟨e, -, he⟩ := mapLoop_start modelMap start start (Nat.lt_succ_self _)
  cases e with
  | cycle => exact .inr he
  | unmapped => exact .inl ⟨start, he⟩
  | ended model mapped => exact .inl ⟨model, he.1⟩

/-! ## Attempts -/

theorem isResponsesCompact_setModelName (info : Info) (modelName : String) :
    (info.setModelName modelName).isResponsesCompact = info.isResponsesCompact := by
  unfold Info.setModelName
  split <;> rfl

theorem upstreamModelName_setModelName (info : Info) (modelName : String) :
    (info.setModelName modelName).upstreamModelName = info.upstreamModelName := by
  unfold Info.setModelName
  split <;> rfl

theorem originModelName_setModelName (info : Info) (modelName : String) :
    (info.setModelName modelName).originModelName = info.originModelName := by
  unfold Info.setModelName
  split <;> rfl

theorem requestModel_setModelName {modelName : String} (h : modelName ≠ "") :
    (info.setModelName modelName).requestModel = modelName := by
  unfold Info.setModelName
  rw [if_pos h]

theorem isResponsesCompact_finish :
    (info.finish start).isResponsesCompact = info.isResponsesCompact := by
  unfold Info.finish
  rw [isResponsesCompact_setModelName]
  dsimp only
  split <;> rfl

/-- The request has the upstream model when `finish` is done. -/
theorem requestModel_finish (h : (info.finish start).upstreamModelName ≠ "") :
    (info.finish start).requestModel = (info.finish start).upstreamModelName := by
  unfold Info.finish at h ⊢
  rw [upstreamModelName_setModelName] at h ⊢
  exact requestModel_setModelName h

theorem upstreamModelName_finish_mapped (hmapped : info.isModelMapped = true)
    (h : info.upstreamModelName ≠ "") :
    (info.finish start).upstreamModelName = info.upstreamModelName := by
  unfold Info.finish
  rw [upstreamModelName_setModelName]
  dsimp only
  by_cases hcompact : info.isResponsesCompact = true
  · rw [if_pos hcompact, if_pos ⟨hmapped, h⟩]
  · rw [if_neg hcompact]

theorem upstreamModelName_finish_unmapped (hmapped : info.isModelMapped = false)
    (h : info.isResponsesCompact = false → info.upstreamModelName = start) :
    (info.finish start).upstreamModelName = start := by
  unfold Info.finish
  rw [upstreamModelName_setModelName]
  dsimp only
  by_cases hcompact : info.isResponsesCompact = true
  · rw [if_pos hcompact, if_neg (by simp [hmapped])]
  · rw [if_neg hcompact]
    exact h (by simpa using hcompact)

/-- **One call**, on a `RelayInfo` that `InitChannelMeta` has left, resolves the model that
it finds in `OriginModelName`. -/
theorem resolves_helper (info : Info) {modelMapping : String}
    (htable : table unmarshal modelMapping = some modelMap)
    (hfuel : modelMap.entries.length < fuel) (hmapped : info.isModelMapped = false)
    (hupstream : info.upstreamModelName = info.originModelName)
    (hrequest : info.originModelName ≠ "" → info.requestModel = info.originModelName) :
    Resolves modelMap (mappingModelName info.isResponsesCompact info.originModelName)
      (modelMappedHelper unmarshal fuel modelMapping info) := by
  obtain ⟨e, hloop, he⟩ := mapLoop_start modelMap info.originModelName
    (mappingModelName info.isResponsesCompact info.originModelName) hfuel
  have hok : ∀ mapped : Info,
      EndsAt (next modelMap) (mappingModelName info.isResponsesCompact info.originModelName)
        mapped.upstreamModelName →
      (mapped.upstreamModelName ≠ "" → mapped.requestModel = mapped.upstreamModelName) →
      Resolves modelMap (mappingModelName info.isResponsesCompact info.originModelName)
        (some (.ok mapped)) := by
    intro mapped hend hset
    refine ⟨by simp, ⟨?_, fun hcycles => absurd hend (not_endsAt_of_cycles hcycles)⟩, ?_⟩
    · rintro ⟨message, hmessage⟩
      cases hmessage
    · intro info' h
      cases h
      exact ⟨hend, hset⟩
  unfold modelMappedHelper
  rw [htable, hmapped]
  dsimp only
  rw [hloop]
  cases e with
  | cycle =>
    refine ⟨by simp, ⟨fun _ => he, fun _ => ⟨_, rfl⟩⟩, ?_⟩
    intro info' h
    cases h
  | unmapped =>
    refine hok _ ?_ ?_
    · show EndsAt (next modelMap) _ info.upstreamModelName
      rw [hupstream]
      exact he
    · intro hne
      show info.requestModel = info.upstreamModelName
      rw [hupstream]
      exact hrequest (hupstream ▸ hne)
  | ended model mapped =>
    obtain ⟨hend, hunmapped, hnonempty⟩ := he
    refine hok _ ?_ requestModel_finish
    cases mapped with
    | false =>
      rw [upstreamModelName_finish_unmapped rfl]
      · rw [hunmapped rfl] at hend
        exact hend
      · intro hordinary
        show info.upstreamModelName = _
        rw [hupstream]
        unfold mappingModelName
        rw [if_neg (by simpa using hordinary)]
    | true =>
      rw [upstreamModelName_finish_mapped rfl (hnonempty rfl)]
      exact hend

/-- Two models that a result is right for have the same end. -/
theorem resolves_iff {result : Option (Except String Info)} {found requested : String}
    (h : Resolves modelMap found result) :
    Resolves modelMap requested result ↔
      ∀ model, EndsAt (next modelMap) found model ↔ EndsAt (next modelMap) requested model := by
  constructor
  · intro h' model
    cases result with
    | none => exact absurd rfl h.terminates
    | some result =>
      cases result with
      | error message =>
        have hfound := not_endsAt_of_cycles (z := model) (h.error.mp ⟨message, rfl⟩)
        have hrequested := not_endsAt_of_cycles (z := model) (h'.error.mp ⟨message, rfl⟩)
        exact iff_of_false hfound hrequested
      | ok mapped =>
        have hfound := (h.ended mapped rfl).1
        have hrequested := (h'.ended mapped rfl).1
        constructor
        · intro hmodel
          exact endsAt_unique hfound hmodel ▸ hrequested
        · intro hmodel
          exact endsAt_unique hrequested hmodel ▸ hfound
  · intro hends
    refine ⟨h.terminates, h.error.trans ?_, ?_⟩
    · constructor
      · intro hcycles
        rcases endsAt_or_cycles modelMap requested with ⟨model, hmodel⟩ | hcycles'
        · exact absurd ((hends model).mpr hmodel) (not_endsAt_of_cycles hcycles)
        · exact hcycles'
      · intro hcycles
        rcases endsAt_or_cycles modelMap found with ⟨model, hmodel⟩ | hcycles'
        · exact absurd ((hends model).mp hmodel) (not_endsAt_of_cycles hcycles)
        · exact hcycles'
    · intro mapped hmapped
      obtain ⟨hend, hset⟩ := h.ended mapped hmapped
      exact ⟨(hends _).mp hend, hset⟩

theorem isResponsesCompact_initChannelMeta (originalModel : String) :
    (info.initChannelMeta originalModel).isResponsesCompact = info.isResponsesCompact :=
  isResponsesCompact_setModelName _ _

theorem originModelName_initChannelMeta (originalModel : String) :
    (info.initChannelMeta originalModel).originModelName = info.originModelName :=
  originModelName_setModelName _ _

theorem isModelMapped_initChannelMeta (originalModel : String) :
    (info.initChannelMeta originalModel).isModelMapped = false := by
  unfold Info.initChannelMeta Info.setModelName
  split <;> rfl

theorem isResponsesCompact_rename (name : Option String) :
    (info.rename name).isResponsesCompact = info.isResponsesCompact := by
  unfold Info.rename
  split <;> rfl

/-- The mode of a request is left alone; in ordinary mode so is `OriginModelName`. -/
theorem modelMappedHelper_frame {modelMapping : String} {mapped : Info}
    (h : modelMappedHelper unmarshal fuel modelMapping info = some (.ok mapped)) :
    mapped.isResponsesCompact = info.isResponsesCompact ∧
      (info.isResponsesCompact = false → mapped.originModelName = info.originModelName) := by
  unfold modelMappedHelper at h
  dsimp only at h
  split at h
  · cases h
  · split at h
    · cases h
    · cases h
    · cases h
      exact ⟨rfl, fun _ => rfl⟩
    · cases h
      refine ⟨isResponsesCompact_finish, fun hordinary => ?_⟩
      unfold Info.finish
      rw [originModelName_setModelName]
      dsimp only
      rw [if_neg (by simp [hordinary])]

theorem last_attempt (s : Attempts) (a : Attempt) :
    (s.attempt unmarshal extra a).last = some (a, modelMappedHelper unmarshal
      (a.fuel unmarshal extra) a.modelMapping (s.info.initChannelMeta s.info.originModelName)) := by
  unfold Attempts.attempt
  dsimp only
  split <;> rfl

theorem isResponsesCompact_attempt (s : Attempts) (a : Attempt) :
    (s.attempt unmarshal extra a).info.isResponsesCompact = s.info.isResponsesCompact := by
  unfold Attempts.attempt
  dsimp only
  split
  · rename_i mapped h
    show (mapped.rename a.rename).isResponsesCompact = _
    rw [isResponsesCompact_rename, (modelMappedHelper_frame h).1,
      isResponsesCompact_initChannelMeta]
  · exact isResponsesCompact_initChannelMeta _

theorem originModelName_attempt (h : s.info.isResponsesCompact = false) (ha : a.rename = none) :
    (s.attempt unmarshal extra a).info.originModelName = s.info.originModelName := by
  unfold Attempts.attempt
  dsimp only
  split
  · rename_i mapped hmapped
    rw [ha]
    show mapped.originModelName = _
    rw [(modelMappedHelper_frame hmapped).2, originModelName_initChannelMeta]
    rw [isResponsesCompact_initChannelMeta, h]
  · exact originModelName_initChannelMeta _

/-- An attempt is right for a model when its result is. -/
theorem resolved_attempt_iff {compact : Bool} {requested : String} :
    Resolved unmarshal compact requested (s.attempt unmarshal extra a) ↔
      ∀ modelMap, table unmarshal a.modelMapping = some modelMap →
        Resolves modelMap (mappingModelName compact requested)
          (modelMappedHelper unmarshal (a.fuel unmarshal extra) a.modelMapping
            (s.info.initChannelMeta s.info.originModelName)) := by
  unfold Resolved
  rw [last_attempt]
  cases htable : table unmarshal a.modelMapping with
  | none =>
    refine iff_of_true ?_ (fun modelMap h => by cases h)
    intro a' result h
    cases h
    rw [htable]
    show modelMappedHelper unmarshal _ a.modelMapping _ = _
    unfold modelMappedHelper
    rw [htable]
  | some modelMap =>
    constructor
    · intro h modelMap' h'
      cases h'
      have := h a _ rfl
      rw [htable] at this
      exact this
    · intro h a' result h'
      cases h'
      rw [htable]
      exact h modelMap rfl

/-- **Every attempt** resolves the model that it finds in `OriginModelName`. -/
theorem resolved_found (s : Attempts) (a : Attempt) :
    Resolved unmarshal s.info.isResponsesCompact s.info.originModelName
      (s.attempt unmarshal extra a) := by
  rw [resolved_attempt_iff]
  intro modelMap htable
  have hfuel : modelMap.entries.length < a.fuel unmarshal extra := by
    unfold Attempt.fuel
    rw [htable]
    show modelMap.entries.length < modelMap.entries.length + 1 + extra
    omega
  have h := resolves_helper (s.info.initChannelMeta s.info.originModelName) htable hfuel
    (isModelMapped_initChannelMeta _) ?_ ?_
  · rw [isResponsesCompact_initChannelMeta, originModelName_initChannelMeta] at h
    exact h
  · rw [originModelName_initChannelMeta]
    exact upstreamModelName_setModelName _ _
  · rw [originModelName_initChannelMeta]
    exact requestModel_setModelName

/-- The step of the run: the requested model is resolved when the found one ends with it. -/
theorem resolved_attempt_iff_finds {requested : String} :
    Resolved unmarshal s.info.isResponsesCompact requested (s.attempt unmarshal extra a) ↔
      FindsRequested unmarshal requested s a := by
  rw [resolved_attempt_iff]
  have hfound : Resolved unmarshal s.info.isResponsesCompact s.info.originModelName
      (s.attempt unmarshal extra a) := resolved_found s a
  rw [resolved_attempt_iff] at hfound
  constructor
  · intro h modelMap htable
    exact (resolves_iff (hfound modelMap htable)).mp (h modelMap htable)
  · intro h modelMap htable
    exact (resolves_iff (hfound modelMap htable)).mpr (h modelMap htable)

/-- The run of an ordinary request keeps `OriginModelName`, so that it meets the condition. -/
theorem finds_of_ordinary {requested : String} {as : List Attempt}
    (hordinary : s.info.isResponsesCompact = false) (horigin : s.info.originModelName = requested)
    (has : ∀ a ∈ as, a.rename = none) :
    (attempts unmarshal extra).EveryStep (FindsRequested unmarshal requested) s as := by
  induction as generalizing s with
  | nil => trivial
  | cons a as ih =>
    intro t ht
    cases ht
    refine ⟨?_, ih ?_ ?_ fun a ha => has a (List.mem_cons_of_mem _ ha)⟩
    · intro modelMap _ model
      rw [horigin]
    · rw [isResponsesCompact_attempt, hordinary]
    · rw [originModelName_attempt hordinary (has a List.mem_cons_self), horigin]

/-- **When every attempt resolves the requested model.**  Each attempt resolves the model
that it finds in `OriginModelName`.  Over a run of attempts this is right for the requested
model exactly where the found one has the same end under the mapping of the attempt, which
it always has in ordinary mode, unless `GeminiHelper` renames the model. -/
theorem model_mapping_iff (unmarshal : Unmarshal) (extra : ℕ) (compact : Bool)
    (requested requestModel : String) (as : List Attempt) :
    (∀ (s : Attempts) a, Resolved unmarshal s.info.isResponsesCompact s.info.originModelName
      (s.attempt unmarshal extra a)) ∧
    ((attempts unmarshal extra).EveryNext (Resolved unmarshal compact requested)
        (.start compact requested requestModel) as ↔
      (attempts unmarshal extra).EveryStep (FindsRequested unmarshal requested)
        (.start compact requested requestModel) as) ∧
    (compact = false → (∀ a ∈ as, a.rename = none) →
      (attempts unmarshal extra).EveryNext (Resolved unmarshal compact requested)
        (.start compact requested requestModel) as) := by
  have hiff : (attempts unmarshal extra).EveryNext (Resolved unmarshal compact requested)
        (.start compact requested requestModel) as ↔
      (attempts unmarshal extra).EveryStep (FindsRequested unmarshal requested)
        (.start compact requested requestModel) as := by
    refine System.everyNext_iff_everyStep (I := fun s => s.info.isResponsesCompact = compact)
      ?_ ?_ rfl
    · rintro s a t rfl hfinds ht
      cases ht
      exact ⟨isResponsesCompact_attempt s a, resolved_attempt_iff_finds.mpr hfinds⟩
    · rintro s a t rfl hfinds ht hresolved
      cases ht
      exact hfinds (resolved_attempt_iff_finds.mp hresolved)
  refine ⟨resolved_found, hiff, fun hordinary has => hiff.mpr ?_⟩
  exact finds_of_ordinary hordinary rfl has

/-- A table for the sample. -/
def sampleUnmarshal : Unmarshal := fun _ => some (Map.empty.put "gpt-5" "gpt-5-mini")

/-- In compact mode the second attempt, on a channel without a mapping, asks for the model
that the first channel mapped to. -/
theorem second_attempt_keeps_first_mapping :
    ¬ (attempts sampleUnmarshal 0).EveryNext
      (Resolved sampleUnmarshal true "gpt-5-openai-compact")
      (.start true "gpt-5-openai-compact" "gpt-5-openai-compact")
      [⟨"m", none⟩, ⟨"", none⟩] := by
  intro h
  obtain ⟨-, h⟩ := h _ rfl
  obtain ⟨h, -⟩ := h _ rfl
  have hmapped : (Attempts.attempt sampleUnmarshal 0 (Attempts.attempt sampleUnmarshal 0
      (.start true "gpt-5-openai-compact" "gpt-5-openai-compact") ⟨"m", none⟩) ⟨"", none⟩).last =
      some (⟨"", none⟩, some (.ok ⟨true, "gpt-5-mini-openai-compact", "gpt-5-mini", false,
        "gpt-5-mini"⟩)) := by
    rfl
  have hresolves : Resolves Map.empty "gpt-5" _ := h _ _ hmapped
  obtain ⟨hend, -⟩ := hresolves.ended _ rfl
  have hrequested : EndsAt (next Map.empty) "gpt-5" "gpt-5" :=
    ⟨.refl, next_eq_none (.inl rfl)⟩
  have : "gpt-5-mini" = "gpt-5" := endsAt_unique hend hrequested
  exact absurd this (by decide)

end Relay.Mapping
