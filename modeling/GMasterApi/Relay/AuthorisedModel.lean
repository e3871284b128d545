import GMasterApi.Channel.Select
import GMasterApi.Lib.JsonValue
import GMasterApi.Relay.ModelMapping

/-!
# The model that is authorised and the model that is sent

`Distribute` reads the model of a chat request with `gjson`, which takes the first member
named `model`; the request itself is decoded by `encoding/json`, which takes the last one in
any case of its letters.  The first is authorised and priced.  It is written into the
request, but a channel with pass-through sends the body as it came.
`sent_model_iff` says when the model that is sent is the one that was authorised.
-/

namespace Relay.Authorised

open Chain GoMap GoString JsonValue Relay.Mapping

/-! ## Reading a body -/

def members : Json → Members
  | .object members => members
  | _ => []

/-- `gjson.GetManyBytes` of a member: the first one with the name. -/
def gjsonGet (body : Json) (field : String) : Option Json := (members body).lookup field

def getJSONStringValue (result : Option Json) (field : String) : Except String String :=
  match result with
  | none | some .null => .ok ""
  | some (.string s) => .ok s
  | some _ => .error ("field " ++ field ++ " must be a string")

structure ModelRequest where
  model : String
  group : String

def getModelFromJSONBody (body : Json) : Except String ModelRequest :=
  match getJSONStringValue (gjsonGet body "model") "model" with
  | .error e => .error e
  | .ok model =>
    match getJSONStringValue (gjsonGet body "group") "group" with
    | .error e => .error e
    | .ok group => .ok ⟨model, group⟩

/-- The keys that `encoding/json` reads into the field `model`: no other letter folds to one of
the word. -/
def isModelKey (key : String) : Bool := key.toList.map Char.toLower = "model".toList

/-- The members of a body in turn, with what the field `model` holds. -/
def decodeModel (model : String) : Members → Except String String
  | [] => .ok model
  | (key, value) :: rest =>
    if isModelKey key then
      match value with
      | .string s => decodeModel s rest
      | .null => decodeModel model rest
      | _ => .error "json: cannot unmarshal into Go struct field .model of type string"
    else decodeModel model rest

/-- `Unmarshal` of a body into a request, as far as its model. -/
def unmarshalModel : Json → Except String String
  | .object members => decodeModel "" members
  | .null => .ok ""
  | _ => .error "json: cannot unmarshal into Go value of type dto.GeneralOpenAIRequest"

def stringValue : Option Json → Option String
  | some (.string s) => some s
  | _ => none

/-- The model that a decoder reads which takes the last member of this name. -/
def readModel (body : Members) : Option String := stringValue (body.reverse.lookup "model")

/-! ## What is accepted -/

/-- What the rest of a request comes to: whether its other fields are valid, what they are
encoded to again (none under the name `model`), and `json.Unmarshal` of a mapping. -/
structure Env where
  validRest : Json → Bool
  fields : Json → Members
  fields_model : ∀ body, ∀ m ∈ fields body, m.1 ≠ "model"
  unmarshal : Unmarshal

/-- The token of a request.  A limit that is missing allows no model. -/
structure Caller where
  specificChannel : Bool
  modelLimitEnabled : Bool
  modelLimit : Option (List String)

/-- The model that `Distribute` lets through. -/
def distributeModel (caller : Caller) (body : Json) : Except String String :=
  match getModelFromJSONBody body with
  | .error e => .error e
  | .ok request =>
    if caller.specificChannel then .ok request.model
    else
      let refused : Option String :=
        if caller.modelLimitEnabled then
          match caller.modelLimit with
          | none => some "distributor.token_no_model_access"
          | some limit =>
            if limit.contains (Channels.formatMatchingModelName request.model) then none
            else some "distributor.token_model_forbidden"
        else none
      match refused with
      | some e => .error e
      | none =>
        if request.model = "" then .error "distributor.model_name_required"
        else .ok request.model

/-- `GetAndValidateTextRequest`, as far as the model. -/
def getAndValidateTextRequest (env : Env) (body : Json) : Except String String :=
  match unmarshalModel body with
  | .error e => .error e
  | .ok model =>
    if model = "" then .error "model is required"
    else if env.validRest body then .ok model
    else .error "invalid request"

/-! ## The adaptors -/

def openAIEffortSuffixes : List String :=
  ["-high", "-minimal", "-low", "-medium", "-none", "-xhigh"]

/-- `ParseOpenAIReasoningEffortFromModelSuffix`, the model. -/
def trimEffort (modelName : String) : String :=
  match openAIEffortSuffixes.find? fun suffix => hasSuffix modelName suffix with
  | some suffix => trimSuffix modelName suffix
  | none => modelName

def channelTypeOpenRouter : ℤ := 20

/-- `ConvertOpenAIRequest` of the OpenAI adaptor, the model; `preserve` is
`ShouldPreserveThinkingSuffix`. -/
def convertOpenAIRequest (channelType : ℤ) (preserve : String → Bool) (info : Info) : String :=
  let (upstream, model) :=
    if channelType = channelTypeOpenRouter ∧ preserve info.originModelName = false ∧
        hasSuffix info.upstreamModelName "-thinking" = true then
      (trimSuffix info.upstreamModelName "-thinking",
        trimSuffix info.upstreamModelName "-thinking")
    else (info.upstreamModelName, info.requestModel)
  if hasPrefix upstream "o" || hasPrefix upstream "gpt-5" then
    match openAIEffortSuffixes.find? fun suffix => hasSuffix upstream suffix with
    | some suffix => trimSuffix upstream suffix
    | none => model
  else model

/-- The OpenAI adaptor, or another one with what its bodies have under `model`, by
`OriginModelName`, `UpstreamModelName` and the model of the request. -/
inductive Adaptor
  | openAI (preserve : String → Bool)
  | other (chat responses : String → String → String → Option String)

structure Channel where
  type : ℤ
  modelMapping : String
  passThrough : Bool
  /-- `ShouldChatCompletionsUseResponsesGlobal`. -/
  viaResponses : Bool
  adaptor : Adaptor

/-- `omitempty`. -/
def written (model : String) : Option String := if model = "" then none else some model

/-- The model in the body that is encoded again. -/
def Channel.convertModel (channel : Channel) (info : Info) : Option String :=
  match channel.adaptor with
  | .openAI preserve =>
    if channel.viaResponses then written (trimEffort info.requestModel)
    else written (convertOpenAIRequest channel.type preserve info)
  | .other chat responses =>
    (if channel.viaResponses then responses else chat) info.originModelName
      info.upstreamModelName info.requestModel

/-- The body that is encoded again. -/
def encodeRequest (env : Env) (body : Json) : Option String → Members
  | some model => ("model", .string model) :: env.fields body
  | none => env.fields body

/-! ## `TextHelper` -/

/-- What `genBaseRelayInfo` has of the model, once `InitChannelMeta` is through. -/
def relayInfo (originalModel requestModel : String) : Info :=
  (⟨false, originalModel, "", false, requestModel⟩ : Info).initChannelMeta originalModel

/-- The body that is sent upstream; `none` where the rounds of the mapping do not suffice. -/
def textHelper (env : Env) (extra : ℕ) (channel : Channel) (body : Json)
    (originalModel requestModel : String) : Option (Except String Members) :=
  let a : Attempt := ⟨channel.modelMapping, none⟩
  match modelMappedHelper env.unmarshal (a.fuel env.unmarshal extra) channel.modelMapping
      (relayInfo originalModel requestModel) with
  | none => none
  | some (.error e) => some (.error e)
  | some (.ok info) =>
    if channel.passThrough then some (.ok (members body))
    else some (.ok (encodeRequest env body (channel.convertModel info)))

/-! ## What is promised -/

/-- A request that is accepted, and a channel whose mapping has no cycle. -/
structure Accepted (env : Env) where
  body : Json
  caller : Caller
  channel : Channel
  /-- The model that is authorised and priced. -/
  model : String
  distributed : distributeModel caller body = .ok model
  requestModel : String
  validated : getAndValidateTextRequest env body = .ok requestModel
  modelMap : Map String String
  mapping : table env.unmarshal channel.modelMapping = some modelMap
  acyclic : ¬ Cycles (next modelMap) model

/-- The body is sent with the authorised model, or with the end of its chain. -/
def SentAsAuthorised (env : Env) (extra : ℕ) (r : Accepted env) : Prop :=
  ∃ sent, textHelper env extra r.channel r.body r.model r.requestModel = some (.ok sent) ∧
    if r.channel.passThrough then readModel sent = some r.model
    else ∃ model, EndsAt (next r.modelMap) r.model model ∧ readModel sent = some model

/-- The last member named `model` is a string, and the first is the same one, or `null` where
it is empty. -/
def FirstIsLast (body : Json) : Prop :=
  ∃ model, (members body).reverse.lookup "model" = some (.string model) ∧
    ((members body).lookup "model" = some (.string model) ∨
      model = "" ∧ (members body).lookup "model" = some .null)

/-- The end of the chain, which is sent as it is; `requestModel` is the model of the request
where the end is empty. -/
def Kept (channel : Channel) (origin model requestModel : String) : Prop :=
  match channel.adaptor with
  | .openAI preserve => model ≠ "" ∧
    if channel.viaResponses then ∀ suffix ∈ openAIEffortSuffixes, hasSuffix model suffix = false
    else
      (channel.type = channelTypeOpenRouter → preserve origin = false →
        hasSuffix model "-thinking" = false) ∧
      ((hasPrefix model "o" || hasPrefix model "gpt-5") = true →
        ∀ suffix ∈ openAIEffortSuffixes, hasSuffix model suffix = false)
  | .other chat responses =>
    (if channel.viaResponses then responses else chat) origin model
      (if model = "" then requestModel else model) = some model

def Faithful (env : Env) (r : Accepted env) : Prop :=
  if r.channel.passThrough then FirstIsLast r.body
  else ∃ model, EndsAt (next r.modelMap) r.model model ∧
    Kept r.channel r.model model r.requestModel

/-! ## Bodies -/

variable {env : Env} {extra : ℕ} {model origin requestModel : String}

/-- What is authorised is the first string, or empty. -/
theorem distributeModel_ok {caller : Caller} {body : Json}
    (h : distributeModel caller body = .ok model) :
    (members body).lookup "model" = some (.string model) ∨
      model = "" ∧ ((members body).lookup "model" = none ∨
        (members body).lookup "model" = some .null) := by
  have hmodel : getJSONStringValue (gjsonGet body "model") "model" = .ok model := by
    unfold distributeModel getModelFromJSONBody at h
    cases hget : getJSONStringValue (gjsonGet body "model") "model" with
    | error e =>
      rw [hget] at h
      cases h
    | ok found =>
      rw [hget] at h
      dsimp only at h
      split at h
      · cases h
      rename_i request hrequest
      split at hrequest
      · cases hrequest
      cases hrequest
      split at h
      · exact h
      split at h
      · cases h
      split at h
      · cases h
      · exact h
  unfold getJSONStringValue gjsonGet at hmodel
  split at hmodel
  · rename_i hnone
    exact .inr ⟨(Except.ok.inj hmodel).symm, .inl hnone⟩
  · rename_i hnull
    exact .inr ⟨(Except.ok.inj hmodel).symm, .inr hnull⟩
  · rename_i s hstring
    rw [← Except.ok.inj hmodel]
    exact .inl hstring
  · cases hmodel

theorem lookup_fields (body : Json) : (env.fields body).reverse.lookup "model" = none := by
  rw [List.lookup_eq_none_iff]
  intro m hm
  have hne := env.fields_model body m (List.mem_reverse.mp hm)
  simpa using Ne.symm hne

/-- A decoder reads back the model that is encoded. -/
theorem readModel_encodeRequest (body : Json) (written : Option String) :
    readModel (encodeRequest env body written) = written := by
  unfold readModel
  cases written with
  | none =>
    rw [encodeRequest, lookup_fields]
    rfl
  | some model =>
    rw [encodeRequest, List.reverse_cons, List.lookup_append, lookup_fields]
    rfl

/-! ## Suffixes -/

theorem length_trimSuffix_lt {s suffix : String} (h : hasSuffix s suffix = true)
    (hne : suffix ≠ "") : (trimSuffix s suffix).length < s.length := by
  unfold trimSuffix
  rw [if_pos h]
  have hpos : 0 < suffix.length := by
    rw [Nat.pos_iff_ne_zero, ne_eq, String.length_eq_zero_iff]
    exact hne
  have hle : suffix.length ≤ s.length := by
    rw [← String.length_toList, ← String.length_toList]
    exact (List.isSuffixOf_iff_suffix.mp h).length_le
  rw [String.length_ofList, List.length_take, String.length_toList]
  omega

theorem trimEffort_of_none {modelName : String}
    (h : ∀ suffix ∈ openAIEffortSuffixes, hasSuffix modelName suffix = false) :
    trimEffort modelName = modelName := by
  unfold trimEffort
  have hnone : openAIEffortSuffixes.find? (fun suffix => hasSuffix modelName suffix) = none := by
    rw [List.find?_eq_none]
    intro suffix hsuffix
    rw [h suffix hsuffix]
    exact Bool.false_ne_true
  rw [hnone]

/-- An effort that is found is trimmed. -/
theorem length_trimEffort_lt {modelName suffix : String} (hmem : suffix ∈ openAIEffortSuffixes)
    (h : hasSuffix modelName suffix = true) : (trimEffort modelName).length < modelName.length := by
  unfold trimEffort
  cases hfind : openAIEffortSuffixes.find? fun suffix => hasSuffix modelName suffix with
  | none => exact absurd h (List.find?_eq_none.mp hfind suffix hmem)
  | some found =>
    have hne : found ≠ "" := by
      have hfound := List.mem_of_find?_eq_some hfind
      rintro rfl
      exact absurd hfound (by decide)
    exact length_trimSuffix_lt (List.find?_some hfind) hne

theorem trimEffort_eq_iff (modelName : String) : trimEffort modelName = modelName ↔
    ∀ suffix ∈ openAIEffortSuffixes, hasSuffix modelName suffix = false := by
  constructor
  · intro heq suffix hsuffix
    rw [← Bool.not_eq_true]
    intro hhas
    have hlt := length_trimEffort_lt hsuffix hhas
    rw [heq] at hlt
    omega
  · exact trimEffort_of_none

theorem length_trimEffort_le (modelName : String) :
    (trimEffort modelName).length ≤ modelName.length := by
  by_cases h : ∀ suffix ∈ openAIEffortSuffixes, hasSuffix modelName suffix = false
  · rw [trimEffort_of_none h]
  · simp only [not_forall, Bool.not_eq_false] at h
    obtain ⟨suffix, hsuffix, hhas⟩ := h
    exact (length_trimEffort_lt hsuffix hhas).le

/-- The model of the OpenAI adaptor, where the request has the mapped name. -/
theorem convertOpenAIRequest_eq (channelType : ℤ) (preserve : String → Bool) (mapped : Bool)
    (origin model : String) :
    convertOpenAIRequest channelType preserve ⟨false, origin, model, mapped, model⟩ =
      let trimmed := if channelType = channelTypeOpenRouter ∧ preserve origin = false ∧
        hasSuffix model "-thinking" = true then trimSuffix model "-thinking" else model
      if (hasPrefix trimmed "o" || hasPrefix trimmed "gpt-5") = true then trimEffort trimmed
      else trimmed := by
  unfold convertOpenAIRequest trimEffort
  dsimp only
  split_ifs
  all_goals rfl

theorem convertOpenAIRequest_eq_iff (channelType : ℤ) (preserve : String → Bool) (mapped : Bool)
    (origin model : String) :
    convertOpenAIRequest channelType preserve ⟨false, origin, model, mapped, model⟩ = model ↔
      (channelType = channelTypeOpenRouter → preserve origin = false →
        hasSuffix model "-thinking" = false) ∧
      ((hasPrefix model "o" || hasPrefix model "gpt-5") = true →
        ∀ suffix ∈ openAIEffortSuffixes, hasSuffix model suffix = false) := by
  rw [convertOpenAIRequest_eq]
  dsimp only
  by_cases h : channelType = channelTypeOpenRouter ∧ preserve origin = false ∧
      hasSuffix model "-thinking" = true
  · rw [if_pos h]
    have hlt := length_trimSuffix_lt h.2.2 (by decide)
    constructor
    · intro heq
      exfalso
      have hle := length_trimEffort_le (trimSuffix model "-thinking")
      have hlength := congrArg String.length heq
      split at hlength
      · omega
      · omega
    · rintro ⟨hthinking, -⟩
      rw [hthinking h.1 h.2.1] at h
      exact absurd h.2.2 Bool.false_ne_true
  · rw [if_neg h]
    have hthinking : channelType = channelTypeOpenRouter → preserve origin = false →
        hasSuffix model "-thinking" = false := by
      intro htype hpreserve
      rw [← Bool.not_eq_true]
      exact fun hhas => h ⟨htype, hpreserve, hhas⟩
    by_cases hprefix : (hasPrefix model "o" || hasPrefix model "gpt-5") = true
    · rw [if_pos hprefix, trimEffort_eq_iff]
      exact ⟨fun hall => ⟨hthinking, fun _ => hall⟩, fun hall => hall.2 hprefix⟩
    · rw [if_neg hprefix]
      exact ⟨fun _ => ⟨hthinking, fun hyes => absurd hyes hprefix⟩, fun _ => rfl⟩

/-! ## The mapped request -/

variable {mapped : Info} {modelMap : Map String String}

/-- An empty model is the end of its own chain only. -/
theorem eq_empty_of_endsAt (h : EndsAt (next modelMap) model "") : model = "" := by
  rcases Relation.ReflTransGen.cases_tail h.1 with heq | ⟨before, -, hstep⟩
  · exact heq.symm
  · have hne := (Option.filter_eq_some_iff.mp hstep).2
    simp at hne

theorem requestModel_of_empty {unmarshal : Unmarshal} {fuel : ℕ} {modelMapping : String}
    {info : Info} (hcompact : info.isResponsesCompact = false)
    (h : modelMappedHelper unmarshal fuel modelMapping info = some (.ok mapped))
    (hempty : mapped.upstreamModelName = "") : mapped.requestModel = info.requestModel := by
  unfold modelMappedHelper at h
  dsimp only at h
  split at h
  · cases h
  · split at h
    · cases h
    · cases h
    · cases h
      rfl
    · cases h
      unfold Info.finish at hempty ⊢
      rw [upstreamModelName_setModelName] at hempty
      unfold Info.setModelName
      rw [if_neg (not_not_intro hempty), if_neg (by simp [hcompact])]

theorem relayInfo_upstreamModelName (origin requestModel : String) :
    (relayInfo origin requestModel).upstreamModelName = origin := by
  unfold relayInfo Info.initChannelMeta
  rw [upstreamModelName_setModelName]

theorem relayInfo_originModelName (origin requestModel : String) :
    (relayInfo origin requestModel).originModelName = origin :=
  originModelName_initChannelMeta _

theorem relayInfo_isResponsesCompact (origin requestModel : String) :
    (relayInfo origin requestModel).isResponsesCompact = false :=
  isResponsesCompact_initChannelMeta _

/-- `InitChannelMeta` writes the authorised model into the request, unless it is empty. -/
theorem relayInfo_requestModel (origin requestModel : String) :
    (relayInfo origin requestModel).requestModel = if origin = "" then requestModel else origin := by
  unfold relayInfo Info.initChannelMeta Info.setModelName
  by_cases h : origin = ""
  · rw [if_neg (not_not_intro h), if_pos h]
  · rw [if_pos h, if_neg h]

/-- What the mapping makes of an authorised model, where it has no cycle. -/
theorem mapped_relayInfo (extra : ℕ) (r : Accepted env) : ∃ isModelMapped model,
    EndsAt (next r.modelMap) r.model model ∧
    modelMappedHelper env.unmarshal
        ((⟨r.channel.modelMapping, none⟩ : Attempt).fuel env.unmarshal extra)
        r.channel.modelMapping (relayInfo r.model r.requestModel) =
      some (.ok ⟨false, r.model, model, isModelMapped,
        if model = "" then r.requestModel else model⟩) := by
  have hfuel : r.modelMap.entries.length <
      (⟨r.channel.modelMapping, none⟩ : Attempt).fuel env.unmarshal extra := by
    unfold Attempt.fuel
    rw [r.mapping]
    show r.modelMap.entries.length < r.modelMap.entries.length + 1 + extra
    omega
  have hresolves := resolves_helper (relayInfo r.model r.requestModel) r.mapping hfuel
    (isModelMapped_initChannelMeta _)
    ((relayInfo_upstreamModelName _ _).trans (relayInfo_originModelName _ _).symm)
    (by
      rw [relayInfo_originModelName, relayInfo_requestModel]
      exact fun hne => if_neg hne)
  have hcompact := relayInfo_isResponsesCompact r.model r.requestModel
  rw [hcompact, relayInfo_originModelName] at hresolves
  cases hresult : modelMappedHelper env.unmarshal
      ((⟨r.channel.modelMapping, none⟩ : Attempt).fuel env.unmarshal extra)
      r.channel.modelMapping (relayInfo r.model r.requestModel) with
  | none => exact absurd hresult hresolves.terminates
  | some result =>
    cases result with
    | error e => exact absurd (hresolves.error.mp ⟨e, hresult⟩) r.acyclic
    | ok mapped =>
      obtain ⟨hend, hrequest⟩ := hresolves.ended mapped hresult
      obtain ⟨hmode, horigin⟩ := modelMappedHelper_frame hresult
      rw [hcompact] at hmode horigin
      rw [relayInfo_originModelName] at horigin
      refine ⟨mapped.isModelMapped, mapped.upstreamModelName, hend, ?_⟩
      have hmodel : mapped.requestModel =
          if mapped.upstreamModelName = "" then r.requestModel else mapped.upstreamModelName := by
        by_cases hempty : mapped.upstreamModelName = ""
        · have hstart : r.model = "" := by
            rw [hempty] at hend
            exact eq_empty_of_endsAt hend
          rw [if_pos hempty, requestModel_of_empty hcompact hresult hempty, relayInfo_requestModel,
            if_pos hstart]
        · rw [if_neg hempty]
          exact hrequest hempty
      rw [← hmodel, ← hmode, ← horigin rfl]

theorem written_eq_some_iff {name : String} : written name = some model ↔
    name = model ∧ model ≠ "" := by
  unfold written
  constructor
  · intro h
    split at h
    · cases h
    · cases h
      exact ⟨rfl, ‹_›⟩
  · rintro ⟨rfl, hne⟩
    exact if_neg hne

/-- The adaptor sends the end of the chain exactly if it keeps the name. -/
theorem convertModel_eq_iff (channel : Channel) (isModelMapped : Bool) :
    channel.convertModel ⟨false, origin, model, isModelMapped,
        if model = "" then requestModel else model⟩ = some model ↔
      Kept channel origin model requestModel := by
  unfold Channel.convertModel Kept
  cases channel.adaptor with
  | other chat responses => exact Iff.rfl
  | openAI preserve =>
    dsimp only
    by_cases hempty : model = ""
    · subst hempty
      refine iff_of_false ?_ fun h => h.1 rfl
      split
      · exact fun h => (written_eq_some_iff.mp h).2 rfl
      · exact fun h => (written_eq_some_iff.mp h).2 rfl
    · rw [if_neg hempty]
      split
      · rw [written_eq_some_iff, trimEffort_eq_iff]
        exact and_comm
      · rw [written_eq_some_iff, convertOpenAIRequest_eq_iff]
        exact and_comm

/-! ## When the model is the authorised one -/

theorem readModel_eq_some_iff {body : Members} : readModel body = some model ↔
    body.reverse.lookup "model" = some (.string model) := by
  unfold readModel stringValue
  constructor
  · intro hsome
    split at hsome
    · rename_i s hlast
      cases hsome
      exact hlast
    · cases hsome
  · intro hlast
    rw [hlast]

/-- A member that is found from the end is found from the start. -/
theorem lookup_ne_none {body : Members} {value : Json} {key : String}
    (h : body.reverse.lookup key = some value) : body.lookup key ≠ none := by
  intro hnone
  rw [List.lookup_eq_none_iff] at hnone
  have hlast : body.reverse.lookup key = none := by
    rw [List.lookup_eq_none_iff]
    intro m hm
    exact hnone m (List.mem_reverse.mp hm)
  rw [h] at hlast
  cases hlast

/-- The body as it came has the authorised model exactly if its first and last member agree. -/
theorem readModel_members_iff {caller : Caller} {body : Json}
    (h : distributeModel caller body = .ok model) :
    readModel (members body) = some model ↔ FirstIsLast body := by
  rw [readModel_eq_some_iff]
  constructor
  · intro hlast
    refine ⟨model, hlast, ?_⟩
    rcases distributeModel_ok h with hfirst | ⟨hempty, hnone | hnull⟩
    · exact .inl hfirst
    · exact absurd hnone (lookup_ne_none hlast)
    · exact .inr ⟨hempty, hnull⟩
  · rintro ⟨model', hlast, hfirst⟩
    have heq : model' = model := by
      rcases distributeModel_ok h with hstring | ⟨hempty, hnone | hnull⟩
      · rcases hfirst with hfirst | ⟨-, hfirst⟩
        · rw [hfirst] at hstring
          cases hstring
          rfl
        · rw [hfirst] at hstring
          cases hstring
      · exact absurd hnone (lookup_ne_none hlast)
      · rcases hfirst with hfirst | ⟨hempty', -⟩
        · rw [hfirst] at hnull
          cases hnull
        · rw [hempty, hempty']
    rw [← heq]
    exact hlast

theorem textHelper_passThrough (extra : ℕ) (r : Accepted env) (h : r.channel.passThrough = true) :
    textHelper env extra r.channel r.body r.model r.requestModel =
      some (.ok (members r.body)) := by
  obtain ⟨isModelMapped, model, -, hmapped⟩ := mapped_relayInfo extra r
  unfold textHelper
  dsimp only
  rw [hmapped]
  exact if_pos h

/-- Without pass-through the body is encoded with the end of the chain. -/
theorem textHelper_encoded (extra : ℕ) (r : Accepted env) (h : r.channel.passThrough = false) :
    ∃ isModelMapped model, EndsAt (next r.modelMap) r.model model ∧
      textHelper env extra r.channel r.body r.model r.requestModel =
        some (.ok (encodeRequest env r.body (r.channel.convertModel
          ⟨false, r.model, model, isModelMapped, if model = "" then r.requestModel else model⟩))) := by
  obtain ⟨isModelMapped, model, hend, hmapped⟩ := mapped_relayInfo extra r
  refine ⟨isModelMapped, model, hend, ?_⟩
  unfold textHelper
  dsimp only
  rw [hmapped]
  exact if_neg (by rw [h]; exact Bool.false_ne_true)

/-- **The model that is sent is the one that was authorised**, or the end of its chain, exactly
if the body as it came has one model, or the adaptor keeps the name. -/
theorem sent_model_iff (env : Env) (extra : ℕ) (r : Accepted env) :
    SentAsAuthorised env extra r ↔ Faithful env r := by
  unfold SentAsAuthorised Faithful
  cases hpass : r.channel.passThrough with
  | true =>
    rw [textHelper_passThrough extra r hpass, if_pos rfl, ← readModel_members_iff r.distributed]
    constructor
    · rintro ⟨sent, hsent, hread⟩
      cases hsent
      exact hread
    · exact fun hread => ⟨_, rfl, hread⟩
  | false =>
    obtain ⟨isModelMapped, model, hend, hsent⟩ := textHelper_encoded extra r hpass
    rw [hsent, if_neg Bool.false_ne_true]
    constructor
    · rintro ⟨sent, hsent, model', hend', hread⟩
      cases hsent
      cases endsAt_unique hend hend'
      rw [readModel_encodeRequest] at hread
      exact ⟨model, hend, (convertModel_eq_iff r.channel isModelMapped).mp hread⟩
    · rintro ⟨model', hend', hkept⟩
      cases endsAt_unique hend hend'
      refine ⟨_, rfl, model, hend, ?_⟩
      rw [readModel_encodeRequest]
      exact (convertModel_eq_iff r.channel isModelMapped).mpr hkept

/-! ## A body with two models -/

def sampleEnv : Env where
  validRest := fun _ => true
  fields := fun _ => []
  fields_model := nofun
  unmarshal := sampleUnmarshal

def twoModels : Json :=
  .object [("model", .string "gpt-4o-mini"), ("model", .string "gpt-4o"), ("messages", .array [])]

def passThroughChannel : Channel :=
  ⟨1, "", true, false, .openAI fun _ => false⟩

theorem not_cycles_empty (model : String) : ¬ Cycles (next Map.empty) model := by
  intro h
  exact not_endsAt_of_cycles h ⟨.refl, next_eq_none (.inl rfl)⟩

/-- A token that may use the first model only. -/
def twoModelsAccepted : Accepted sampleEnv where
  body := twoModels
  caller := ⟨false, true, some ["gpt-4o-mini"]⟩
  channel := passThroughChannel
  model := "gpt-4o-mini"
  distributed := by decide
  requestModel := "gpt-4o"
  validated := by decide
  modelMap := .empty
  mapping := rfl
  acyclic := not_cycles_empty _

/-- The body that is sent has the second model. -/
theorem second_model_is_sent : ¬ ∀ extra, SentAsAuthorised sampleEnv extra twoModelsAccepted := by
  intro h
  obtain ⟨sent, hsent, hread⟩ := h 0
  have hbody : sent = members twoModels := by
    cases hsent
    rfl
  subst hbody
  have hlast : readModel (members twoModels) = some "gpt-4o" := by decide
  have hfirst : readModel (members twoModels) = some "gpt-4o-mini" := hread
  rw [hlast] at hfirst
  exact absurd hfirst (by decide)

end Relay.Authorised
