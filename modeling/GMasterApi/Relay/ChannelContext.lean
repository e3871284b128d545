import GMasterApi.Channel.KeyPolling
import GMasterApi.Lib.JsonValue

/-!
# The context of an attempt

`SetupContextForSelectedChannel` writes what a request needs of its channel into the
context, and `InitChannelMeta` reads it back for the attempt.  The context is one for all
attempts of a request, and three of the keys are written for some channels only.
`own_context_iff` says when every attempt runs in the context of its own channel.
-/

namespace ChannelContext

open Channels hiding Json
open GoMap GoString JsonValue

/-! ## Channels -/

/-- The columns of a channel that the context is made of. -/
structure SelectedChannel extends Channel where
  type : ℤ
  name : String
  createdTime : ℤ
  baseURL : Option String
  other : String
  openAIOrganization : Option String
  autoBan : Option ℤ
  modelMapping : Option String
  statusCodeMapping : Option String
  setting : Option String
  otherSettings : String
  paramOverride : Option String
  headerOverride : Option String

def channelTypeAzure : ℤ := 3
def channelTypeAli : ℤ := 17
def channelTypeXunfei : ℤ := 18
def channelTypeGemini : ℤ := 24
def channelCloudflare : ℤ := 39
def channelTypeVertexAi : ℤ := 41
def channelTypeMokaAI : ℤ := 44
def channelTypeCoze : ℤ := 49

def apiTypeOpenAI : ℕ := 0

/-- The cases of `ChannelType2APIType`. -/
def apiTypes : List (ℤ × ℕ) :=
  [(1, 0), (14, 1), (15, 3), (11, 2), (16, 4), (17, 5), (18, 6), (21, 7), (23, 8), (24, 9),
    (26, 10), (4, 11), (27, 12), (33, 13), (34, 14), (37, 15), (38, 16), (39, 17), (40, 18),
    (41, 19), (42, 20), (43, 21), (44, 22), (45, 23), (46, 24), (20, 25), (47, 26), (48, 27),
    (49, 28), (51, 29), (25, 30), (53, 31), (35, 32), (56, 33), (57, 34)]

def channelType2APIType (channelType : ℤ) : ℕ × Bool :=
  match apiTypes.lookup channelType with
  | some apiType => (apiType, true)
  | none => (apiTypeOpenAI, false)

def streamSupportedChannels : List ℤ :=
  [1, 14, 33, 24, 39, 3, 45, 4, 48, 43, 46, 26, 17, 53, 57, 25, 35, 40]

/-- By the type of the channel, from 0 on. -/
def channelBaseURLs : List String :=
  ["", "https://api.openai.com", "https://oa.api2d.net", "", "http://localhost:11434",
    "https://api.openai-sb.com", "https://api.openaimax.com", "https://api.ohmygpt.com", "",
    "https://api.caipacity.com", "https://api.aiproxy.io", "", "https://api.api2gpt.com",
    "https://api.aigc2d.com", "https://api.anthropic.com", "https://aip.baidubce.com",
    "https://open.bigmodel.cn", "https://dashscope.aliyuncs.com", "", "https://api.360.cn",
    "https://openrouter.ai/api", "https://api.aiproxy.io", "https://fastgpt.run/api/openapi",
    "https://hunyuan.tencentcloudapi.com", "https://generativelanguage.googleapis.com",
    "https://api.moonshot.cn", "https://open.bigmodel.cn", "https://api.perplexity.ai", "", "",
    "", "https://api.lingyiwanwu.com", "", "", "https://api.cohere.ai",
    "https://api.minimax.chat", "", "https://api.dify.ai", "https://api.jina.ai",
    "https://api.cloudflare.com", "https://api.siliconflow.cn", "", "https://api.mistral.ai",
    "https://api.deepseek.com", "https://api.moka.ai", "https://ark.cn-beijing.volces.com",
    "https://qianfan.baidubce.com", "", "https://api.x.ai", "https://api.coze.cn",
    "https://api.klingai.com", "https://visual.volcengineapi.com", "https://api.vidu.cn",
    "https://llm.submodel.ai", "https://ark.cn-beijing.volces.com", "https://api.openai.com",
    "https://api.replicate.com", "https://chatgpt.com"]

/-- Beyond the table, where no channel type is, `ChannelBaseURLs` panics. -/
def SelectedChannel.getBaseURL (channel : SelectedChannel) : String :=
  match channel.baseURL with
  | none => ""
  | some url => if url = "" then channelBaseURLs[channel.type.toNat]?.getD "" else url

def SelectedChannel.getModelMapping (channel : SelectedChannel) : String :=
  channel.modelMapping.getD ""

def SelectedChannel.getStatusCodeMapping (channel : SelectedChannel) : String :=
  channel.statusCodeMapping.getD ""

def SelectedChannel.getAutoBan (channel : SelectedChannel) : Bool :=
  match channel.autoBan with
  | none => false
  | some autoBan => autoBan = 1

/-- The organization that is written, if one is. -/
def SelectedChannel.organization (channel : SelectedChannel) : Option String :=
  channel.openAIOrganization.filter fun organization => organization ≠ ""

variable {Setting OtherSettings : Type}

/-- What `Unmarshal` leaves of a text in a zero value, the zero values, and the letters of
`EqualFold`. -/
structure Decoder (Setting OtherSettings : Type) where
  zeroSetting : Setting
  zeroOtherSettings : OtherSettings
  setting : String → Setting
  otherSettings : String → OtherSettings
  override : String → Map String Json
  equalFold : String → String → Bool

section Decoder

variable (decoder : Decoder Setting OtherSettings)

def SelectedChannel.getSetting (channel : SelectedChannel) : Setting :=
  match channel.setting with
  | none => decoder.zeroSetting
  | some text => if text = "" then decoder.zeroSetting else decoder.setting text

def SelectedChannel.getOtherSettings (channel : SelectedChannel) : OtherSettings :=
  if channel.otherSettings = "" then decoder.zeroOtherSettings
  else decoder.otherSettings channel.otherSettings

/-- `GetParamOverride` and `GetHeaderOverride`. -/
def getOverride (text : Option String) : Map String Json :=
  match text with
  | none => .empty
  | some text => if text = "" then .empty else decoder.override text

def extractParamOperations : Option Json → Option (List Json)
  | some (.array ops) => some ops
  | _ => none

/-- A field of the template, put into the override of the channel. -/
def mergeField (out : Map String Json) (field : String × Json) : Map String Json :=
  let kept := if (out.get field.1).isSome then out else out.put field.1 field.2
  if decoder.equalFold (trimSpace field.1) "operations" then
    match extractParamOperations (some field.2) with
    | some tplOps =>
      out.put field.1 (.array (tplOps ++ (extractParamOperations (out.get field.1)).getD []))
    | none => kept
  else kept

def mergeChannelOverride (base tpl : Map String Json) : Map String Json :=
  tpl.entries.foldl (mergeField decoder) base

end Decoder

/-! ## Attempts -/

/-- What stays the same for a request: the model, the parameters that its affinity rule adds
and the `api-version` of its query. -/
structure Request where
  modelName : String
  paramTemplate : Map String Json
  apiVersionQuery : String

/-- A channel that is tried; `draw` is what `rand.Intn` is taken from, and `cached` what
`CacheGetChannelInfo` reads. -/
structure Attempt where
  channel : SelectedChannel
  draw : ℕ
  cached : Except String ChannelInfo

/-- The answer of `GetNextEnabledKey`. -/
def Attempt.nextKey (a : Attempt) : Except KeyError (String × ℕ) :=
  (a.channel.toChannel.getNextEnabledKey a.draw a.cached).1

/-- The keys of the context that belong to the channel. -/
structure Context (Setting OtherSettings : Type) where
  originalModel : Option String
  channelId : Option ℕ
  channelName : Option String
  channelType : Option ℤ
  channelCreateTime : Option ℤ
  channelSetting : Option Setting
  channelOtherSetting : Option OtherSettings
  paramOverride : Option (Map String Json)
  headerOverride : Option (Map String Json)
  channelOrganization : Option String
  autoBan : Option Bool
  modelMapping : Option String
  statusCodeMapping : Option String
  channelIsMultiKey : Option Bool
  channelMultiKeyIndex : Option ℕ
  channelKey : Option String
  baseUrl : Option String
  systemPromptOverride : Option Bool
  apiVersion : Option String
  region : Option String
  plugin : Option String
  botId : Option String

def Context.fresh : Context Setting OtherSettings :=
  ⟨none, none, none, none, none, none, none, none, none, none, none, none, none, none, none,
    none, none, none, none, none, none, none⟩

/-! ## `SetupContextForSelectedChannel` -/

section Setup

variable (decoder : Decoder Setting OtherSettings) (request : Request)

/-- What is written before the key is asked for. -/
def Context.describe (c : Context Setting OtherSettings) (channel : SelectedChannel) :
    Context Setting OtherSettings :=
  let paramOverride := getOverride decoder channel.paramOverride
  { c with
    originalModel := some request.modelName
    channelId := some channel.id
    channelName := some channel.name
    channelType := some channel.type
    channelCreateTime := some channel.createdTime
    channelSetting := some (channel.getSetting decoder)
    channelOtherSetting := some (channel.getOtherSettings decoder)
    paramOverride := some (if request.paramTemplate.entries = [] then paramOverride
      else mergeChannelOverride decoder paramOverride request.paramTemplate)
    headerOverride := some (getOverride decoder channel.headerOverride)
    channelOrganization := channel.organization.or c.channelOrganization
    autoBan := some channel.getAutoBan
    modelMapping := some channel.getModelMapping
    statusCodeMapping := some channel.getStatusCodeMapping }

def Context.withKey (c : Context Setting OtherSettings) (channel : SelectedChannel)
    (key : String) (index : ℕ) : Context Setting OtherSettings :=
  let isMultiKey := channel.channelInfo.isMultiKey
  { c with
    channelIsMultiKey := some isMultiKey
    channelMultiKeyIndex := if isMultiKey then some index else c.channelMultiKeyIndex
    channelKey := some key
    baseUrl := some channel.getBaseURL
    systemPromptOverride := some false }

/-- The switch on the type of the channel. -/
def Context.withOther (c : Context Setting OtherSettings) (channel : SelectedChannel) :
    Context Setting OtherSettings :=
  if channel.type = channelTypeAzure then { c with apiVersion := some channel.other }
  else if channel.type = channelTypeVertexAi then { c with region := some channel.other }
  else if channel.type = channelTypeXunfei then { c with apiVersion := some channel.other }
  else if channel.type = channelTypeGemini then { c with apiVersion := some channel.other }
  else if channel.type = channelTypeAli then { c with plugin := some channel.other }
  else if channel.type = channelCloudflare then { c with apiVersion := some channel.other }
  else if channel.type = channelTypeMokaAI then { c with apiVersion := some channel.other }
  else if channel.type = channelTypeCoze then { c with botId := some channel.other }
  else c

def setupContextForSelectedChannel (c : Context Setting OtherSettings) (a : Attempt) :
    Context Setting OtherSettings × Option KeyError :=
  let c := c.describe decoder request a.channel
  match a.nextKey with
  | .error e => (c, some e)
  | .ok (key, index) => ((c.withKey a.channel key index).withOther a.channel, none)

end Setup

/-! ## `InitChannelMeta` -/

structure ChannelMeta (Setting OtherSettings : Type) where
  channelType : ℤ
  channelId : ℕ
  channelIsMultiKey : Bool
  channelMultiKeyIndex : ℕ
  channelBaseUrl : String
  apiType : ℕ
  apiVersion : String
  apiKey : String
  organization : String
  channelCreateTime : ℤ
  paramOverride : Map String Json
  headersOverride : Map String Json
  channelSetting : Setting
  channelOtherSettings : OtherSettings
  upstreamModelName : String
  isModelMapped : Bool
  supportStreamOptions : Bool

/-- `GetAPIVersion`. -/
def getAPIVersion (request : Request) (c : Context Setting OtherSettings) : String :=
  if request.apiVersionQuery = "" then c.apiVersion.getD "" else request.apiVersionQuery

def initChannelMeta (decoder : Decoder Setting OtherSettings) (request : Request)
    (c : Context Setting OtherSettings) : ChannelMeta Setting OtherSettings :=
  let channelType := c.channelType.getD 0
  { channelType := channelType
    channelId := c.channelId.getD 0
    channelIsMultiKey := c.channelIsMultiKey.getD false
    channelMultiKeyIndex := c.channelMultiKeyIndex.getD 0
    channelBaseUrl := c.baseUrl.getD ""
    apiType := (channelType2APIType channelType).1
    apiVersion :=
      if channelType = channelTypeVertexAi then c.region.getD ""
      else if channelType = channelTypeAzure then getAPIVersion request c
      else c.apiVersion.getD ""
    apiKey := c.channelKey.getD ""
    organization := c.channelOrganization.getD ""
    channelCreateTime := c.channelCreateTime.getD 0
    paramOverride := c.paramOverride.getD .empty
    headersOverride := c.headerOverride.getD .empty
    channelSetting := c.channelSetting.getD decoder.zeroSetting
    channelOtherSettings := c.channelOtherSetting.getD decoder.zeroOtherSettings
    upstreamModelName := c.originalModel.getD ""
    isModelMapped := false
    supportStreamOptions := streamSupportedChannels.contains channelType }

/-! ## The attempts of a request -/

/-- What an attempt reads of the context. -/
structure Seen (Setting OtherSettings : Type) where
  channelMeta : ChannelMeta Setting OtherSettings
  modelMapping : String
  statusCodeMapping : String

section Attempts

variable (decoder : Decoder Setting OtherSettings) (request : Request)

def Context.seen (c : Context Setting OtherSettings) : Seen Setting OtherSettings :=
  ⟨initChannelMeta decoder request c, c.modelMapping.getD "", c.statusCodeMapping.getD ""⟩

/-- What an attempt would read if it were the only one. -/
def Attempt.own (a : Attempt) : Seen Setting OtherSettings :=
  (setupContextForSelectedChannel decoder request .fresh a).1.seen decoder request

/-- The later attempts, whose channels `getChannel` sets up: an error ends the request. -/
def retries : Context Setting OtherSettings → List Attempt →
    List (Attempt × Seen Setting OtherSettings)
  | _, [] => []
  | c, a :: as =>
    match setupContextForSelectedChannel decoder request c a with
    | (_, some _) => []
    | (c, none) => (a, c.seen decoder request) :: retries c as

/-- The attempts that make a request upstream, each with what it reads of the context.
`Distribute` sets up the first channel and drops the error. -/
def upstreamAttempts (first : Attempt) (others : List Attempt) :
    List (Attempt × Seen Setting OtherSettings) :=
  let c := (setupContextForSelectedChannel decoder request .fresh first).1
  (first, c.seen decoder request) :: retries decoder request c others

/-- Every attempt runs in the context of its own channel, which has a key. -/
def OwnContext (first : Attempt) (others : List Attempt) : Prop :=
  ∀ x ∈ upstreamAttempts decoder request first others,
    (∃ key, x.1.nextKey = .ok key) ∧ x.2 = x.1.own decoder request

end Attempts

/-! ## What is left of earlier channels -/

/-- The index that is written, if one is. -/
def Attempt.multiKeyIndex (a : Attempt) : Option ℕ :=
  match a.nextKey with
  | .error _ => none
  | .ok (_, index) => if a.channel.channelInfo.isMultiKey then some index else none

def setsApiVersion (type : ℤ) : Bool :=
  type ∈ [channelTypeAzure, channelTypeXunfei, channelTypeGemini, channelCloudflare,
    channelTypeMokaAI]

/-- The API version that is written, if one is. -/
def SelectedChannel.apiVersion (channel : SelectedChannel) : Option String :=
  if setsApiVersion channel.type then some channel.other else none

/-- What the last of some attempts has written. -/
def lastWritten {α : Type} (written : Attempt → Option α) (earlier : List Attempt) : Option α :=
  (earlier.filterMap written).getLast?

/-- Nothing that the earlier attempts have left is read for this one. -/
structure NothingLeft (earlier : List Attempt) (a : Attempt) : Prop where
  organization : a.channel.organization = none →
    lastWritten (fun e => e.channel.organization) earlier = none
  index : a.channel.channelInfo.isMultiKey = false →
    (lastWritten Attempt.multiKeyIndex earlier).getD 0 = 0
  apiVersion : a.channel.apiVersion = none → a.channel.type ≠ channelTypeVertexAi →
    (lastWritten (fun e => e.channel.apiVersion) earlier).getD "" = ""

/-- As long as the channels have keys, nothing is left for the next. -/
def EachOwn : List Attempt → List Attempt → Prop
  | _, [] => True
  | earlier, a :: as =>
    (∃ key, a.nextKey = .ok key) → NothingLeft earlier a ∧ EachOwn (earlier ++ [a]) as

/-! ## What an attempt reads -/

theorem withOther_of_sets (c : Context Setting OtherSettings) {channel : SelectedChannel}
    (h : setsApiVersion channel.type = true) :
    c.withOther channel = { c with apiVersion := some channel.other } := by
  have hmem := of_decide_eq_true h
  simp only [List.mem_cons, List.not_mem_nil, or_false] at hmem
  unfold Context.withOther
  rcases hmem with htype | htype | htype | htype | htype
  · rw [if_pos htype]
  · rw [htype]
    rfl
  · rw [htype]
    rfl
  · rw [htype]
    rfl
  · rw [htype]
    rfl

/-- The switch leaves all but four keys alone. -/
theorem withOther_eq (c : Context Setting OtherSettings) (channel : SelectedChannel) :
    ∃ region plugin botId, c.withOther channel =
        { c with
          apiVersion := channel.apiVersion.or c.apiVersion
          region := region, plugin := plugin, botId := botId } ∧
      (channel.type = channelTypeVertexAi → region = some channel.other) := by
  unfold SelectedChannel.apiVersion
  by_cases h : setsApiVersion channel.type = true
  · refine ⟨c.region, c.plugin, c.botId, ?_, fun htype => ?_⟩
    · rw [withOther_of_sets c h, if_pos h]
      rfl
    · rw [htype] at h
      cases h
  · rw [if_neg h]
    have hnot : ∀ type, setsApiVersion type = true → channel.type ≠ type := by
      rintro type hsets rfl
      exact h hsets
    unfold Context.withOther
    rw [if_neg (hnot channelTypeAzure rfl), if_neg (hnot channelTypeXunfei rfl),
      if_neg (hnot channelTypeGemini rfl), if_neg (hnot channelCloudflare rfl),
      if_neg (hnot channelTypeMokaAI rfl)]
    split_ifs with hvertex hali hcoze
    · exact ⟨some channel.other, c.plugin, c.botId, rfl, fun _ => rfl⟩
    · exact ⟨c.region, some channel.other, c.botId, rfl, fun htype => absurd htype hvertex⟩
    · exact ⟨c.region, c.plugin, some channel.other, rfl, fun htype => absurd htype hvertex⟩
    · exact ⟨c.region, c.plugin, c.botId, rfl, fun htype => absurd htype hvertex⟩

section Reads

variable (decoder : Decoder Setting OtherSettings) (request : Request)

/-- The three fields of `ChannelMeta` that an earlier channel may have written. -/
def Seen.withLeft (s : Seen Setting OtherSettings) (organization : String) (index : ℕ)
    (apiVersion : String) : Seen Setting OtherSettings :=
  { s with channelMeta :=
    { s.channelMeta with
      organization := organization
      channelMultiKeyIndex := index
      apiVersion := apiVersion } }

/-- `apiVersion`, where the key of the context is this. -/
def SelectedChannel.readVersion (channel : SelectedChannel) (apiVersion : Option String) :
    String :=
  if channel.type = channelTypeVertexAi then channel.other
  else if channel.type = channelTypeAzure ∧ request.apiVersionQuery ≠ "" then
    request.apiVersionQuery
  else apiVersion.getD ""

theorem setup_ok (c : Context Setting OtherSettings) {a : Attempt} {key : String} {index : ℕ}
    (h : a.nextKey = .ok (key, index)) :
    setupContextForSelectedChannel decoder request c a =
      (((c.describe decoder request a.channel).withKey a.channel key index).withOther a.channel,
        none) := by
  unfold setupContextForSelectedChannel
  rw [h]

theorem setup_error (c : Context Setting OtherSettings) {a : Attempt} {e : KeyError}
    (h : a.nextKey = .error e) :
    setupContextForSelectedChannel decoder request c a =
      (c.describe decoder request a.channel, some e) := by
  unfold setupContextForSelectedChannel
  rw [h]

/-- The keys that are not always written. -/
theorem setup_left (c : Context Setting OtherSettings) {a : Attempt} {key : String × ℕ}
    (h : a.nextKey = .ok key) :
    (setupContextForSelectedChannel decoder request c a).1.channelOrganization =
        a.channel.organization.or c.channelOrganization ∧
      (setupContextForSelectedChannel decoder request c a).1.channelMultiKeyIndex =
        a.multiKeyIndex.or c.channelMultiKeyIndex ∧
      (setupContextForSelectedChannel decoder request c a).1.apiVersion =
        a.channel.apiVersion.or c.apiVersion := by
  obtain ⟨region, plugin, botId, hother, -⟩ := withOther_eq
    ((c.describe decoder request a.channel).withKey a.channel key.1 key.2) a.channel
  rw [setup_ok decoder request c h, hother]
  refine ⟨rfl, ?_, rfl⟩
  unfold Attempt.multiKeyIndex
  rw [h]
  show (if a.channel.channelInfo.isMultiKey then some key.2 else c.channelMultiKeyIndex) =
    (if a.channel.channelInfo.isMultiKey then some key.2 else none).or c.channelMultiKeyIndex
  split
  · rfl
  · rfl

/-- The version that is read once the channel is set up. -/
theorem apiVersion_setup (c : Context Setting OtherSettings) {a : Attempt} {key : String × ℕ}
    (h : a.nextKey = .ok key) :
    (initChannelMeta decoder request
        (setupContextForSelectedChannel decoder request c a).1).apiVersion =
      a.channel.readVersion request (a.channel.apiVersion.or c.apiVersion) := by
  obtain ⟨region, plugin, botId, hother, hregion⟩ := withOther_eq
    ((c.describe decoder request a.channel).withKey a.channel key.1 key.2) a.channel
  rw [setup_ok decoder request c h, hother]
  show (if a.channel.type = channelTypeVertexAi then region.getD ""
    else if a.channel.type = channelTypeAzure then
      if request.apiVersionQuery = "" then (a.channel.apiVersion.or c.apiVersion).getD ""
      else request.apiVersionQuery
    else (a.channel.apiVersion.or c.apiVersion).getD "") = _
  unfold SelectedChannel.readVersion
  by_cases hvertex : a.channel.type = channelTypeVertexAi
  · rw [if_pos hvertex, if_pos hvertex, hregion hvertex]
    rfl
  · rw [if_neg hvertex, if_neg hvertex]
    by_cases hazure : a.channel.type = channelTypeAzure
    · by_cases hquery : request.apiVersionQuery = ""
      · rw [if_pos hazure, if_pos hquery, if_neg fun hboth => hboth.2 hquery]
      · rw [if_pos hazure, if_neg hquery, if_pos ⟨hazure, hquery⟩]
    · rw [if_neg hazure, if_neg fun hboth => hazure hboth.1]

/-- An attempt reads what it would read alone, but for three fields. -/
theorem seen_setup (c : Context Setting OtherSettings) {a : Attempt} {key : String × ℕ}
    (h : a.nextKey = .ok key) :
    (setupContextForSelectedChannel decoder request c a).1.seen decoder request =
      (a.own decoder request).withLeft
        ((a.channel.organization.or c.channelOrganization).getD "")
        ((a.multiKeyIndex.or c.channelMultiKeyIndex).getD 0)
        (a.channel.readVersion request (a.channel.apiVersion.or c.apiVersion)) := by
  have hindex := (setup_left decoder request c h).2.1
  have hversion := apiVersion_setup decoder request c h
  obtain ⟨region, plugin, botId, hother, -⟩ := withOther_eq
    ((c.describe decoder request a.channel).withKey a.channel key.1 key.2) a.channel
  obtain ⟨region', plugin', botId', hfresh, -⟩ := withOther_eq
    (((Context.fresh : Context Setting OtherSettings).describe decoder request
      a.channel).withKey a.channel key.1 key.2) a.channel
  rw [setup_ok decoder request c h, hother] at hindex hversion ⊢
  unfold Attempt.own
  rw [setup_ok decoder request .fresh h, hfresh, ← hindex, ← hversion]
  rfl

theorem withLeft_inj (s : Seen Setting OtherSettings) {organization organization' : String}
    {index index' : ℕ} {apiVersion apiVersion' : String} :
    s.withLeft organization index apiVersion = s.withLeft organization' index' apiVersion' ↔
      organization = organization' ∧ index = index' ∧ apiVersion = apiVersion' := by
  constructor
  · intro h
    have hmeta := congrArg Seen.channelMeta h
    exact ⟨congrArg ChannelMeta.organization hmeta, congrArg ChannelMeta.channelMultiKeyIndex hmeta,
      congrArg ChannelMeta.apiVersion hmeta⟩
  · rintro ⟨rfl, rfl, rfl⟩
    rfl

/-- What is left only matters where nothing is written. -/
theorem or_getD_eq_iff {α : Type} {written left : Option α} {zero : α} :
    (written.or left).getD zero = (written.or none).getD zero ↔
      (written = none → left.getD zero = zero) := by
  cases written with
  | none =>
    rw [Option.none_or, Option.none_or]
    exact ⟨fun h _ => h, fun h => h rfl⟩
  | some x => exact ⟨fun _ hnone => absurd hnone (Option.some_ne_none x), fun _ => rfl⟩

theorem multiKeyIndex_eq_none {a : Attempt} {key : String × ℕ} (h : a.nextKey = .ok key) :
    a.multiKeyIndex = none ↔ a.channel.channelInfo.isMultiKey = false := by
  unfold Attempt.multiKeyIndex
  rw [h]
  cases a.channel.channelInfo.isMultiKey with
  | false => exact ⟨fun _ => rfl, fun _ => rfl⟩
  | true => exact ⟨fun hsome => absurd hsome (Option.some_ne_none _), Bool.noConfusion⟩

theorem readVersion_eq_iff {channel : SelectedChannel} {left : Option String} :
    channel.readVersion request (channel.apiVersion.or left) =
        channel.readVersion request (channel.apiVersion.or none) ↔
      (channel.apiVersion = none → channel.type ≠ channelTypeVertexAi → left.getD "" = "") := by
  cases hversion : channel.apiVersion with
  | some version => exact ⟨fun _ hnone => absurd hnone (Option.some_ne_none version), fun _ => rfl⟩
  | none =>
    rw [Option.none_or, Option.none_or]
    unfold SelectedChannel.readVersion
    by_cases hvertex : channel.type = channelTypeVertexAi
    · rw [if_pos hvertex, if_pos hvertex]
      exact ⟨fun _ _ hne => absurd hvertex hne, fun _ => rfl⟩
    · have hazure : channel.type ≠ channelTypeAzure := by
        intro htype
        unfold SelectedChannel.apiVersion at hversion
        rw [htype] at hversion
        cases hversion
      rw [if_neg hvertex, if_neg hvertex, if_neg fun hboth => hazure hboth.1,
        if_neg fun hboth => hazure hboth.1]
      exact ⟨fun h _ _ => h, fun h => h rfl hvertex⟩

/-- The attempt reads nothing that was left in the context. -/
theorem seen_setup_iff (c : Context Setting OtherSettings) {a : Attempt} {key : String × ℕ}
    (h : a.nextKey = .ok key) :
    (setupContextForSelectedChannel decoder request c a).1.seen decoder request =
        a.own decoder request ↔
      (a.channel.organization = none → c.channelOrganization.getD "" = "") ∧
      (a.channel.channelInfo.isMultiKey = false → c.channelMultiKeyIndex.getD 0 = 0) ∧
      (a.channel.apiVersion = none → a.channel.type ≠ channelTypeVertexAi →
        c.apiVersion.getD "" = "") := by
  have hown : a.own decoder request = (a.own decoder request).withLeft
      ((a.channel.organization.or none).getD "") ((a.multiKeyIndex.or none).getD 0)
      (a.channel.readVersion request (a.channel.apiVersion.or none)) :=
    seen_setup decoder request .fresh h
  rw [seen_setup decoder request c h]
  nth_rewrite 2 [hown]
  rw [withLeft_inj, or_getD_eq_iff, or_getD_eq_iff, readVersion_eq_iff,
    multiKeyIndex_eq_none h]

/-! ## Runs -/

/-- The context holds what the earlier attempts have left. -/
structure Holds (earlier : List Attempt) (c : Context Setting OtherSettings) : Prop where
  organization : c.channelOrganization = lastWritten (fun e => e.channel.organization) earlier
  index : c.channelMultiKeyIndex = lastWritten Attempt.multiKeyIndex earlier
  apiVersion : c.apiVersion = lastWritten (fun e => e.channel.apiVersion) earlier

theorem lastWritten_concat {α : Type} (written : Attempt → Option α) (earlier : List Attempt)
    (a : Attempt) : lastWritten written (earlier ++ [a]) =
      (written a).or (lastWritten written earlier) := by
  unfold lastWritten
  rw [List.filterMap_append, List.getLast?_append]
  cases h : written a with
  | none => rw [List.filterMap_cons_none h]; rfl
  | some x => rw [List.filterMap_cons_some h]; rfl

theorem Holds.setup {earlier : List Attempt} {c : Context Setting OtherSettings}
    (h : Holds earlier c) {a : Attempt} {key : String × ℕ} (hkey : a.nextKey = .ok key) :
    Holds (earlier ++ [a]) (setupContextForSelectedChannel decoder request c a).1 := by
  obtain ⟨horganization, hindex, hversion⟩ :=
    setup_left decoder request c hkey
  refine ⟨?_, ?_, ?_⟩
  · rw [horganization, lastWritten_concat, h.organization]
  · rw [hindex, lastWritten_concat, h.index]
  · rw [hversion, lastWritten_concat, h.apiVersion]

theorem seen_iff_nothingLeft {earlier : List Attempt} {c : Context Setting OtherSettings}
    (h : Holds earlier c) {a : Attempt} {key : String × ℕ} (hkey : a.nextKey = .ok key) :
    (setupContextForSelectedChannel decoder request c a).1.seen decoder request =
      a.own decoder request ↔ NothingLeft earlier a := by
  have horganization : (lastWritten (fun e => e.channel.organization) earlier).getD "" = "" ↔
      lastWritten (fun e => e.channel.organization) earlier = none := by
    constructor
    · intro hempty
      cases hlast : lastWritten (fun e => e.channel.organization) earlier with
      | none => rfl
      | some organization =>
        rw [hlast] at hempty
        have hmem := List.mem_of_getLast? hlast
        obtain ⟨e, -, he⟩ := List.mem_filterMap.mp hmem
        exact absurd hempty (of_decide_eq_true (Option.filter_eq_some_iff.mp he).2)
    · intro hnone
      rw [hnone]
      rfl
  rw [seen_setup_iff decoder request c hkey, h.organization, h.index, h.apiVersion, horganization]
  exact ⟨fun ⟨h₁, h₂, h₃⟩ => ⟨h₁, h₂, h₃⟩, fun ⟨h₁, h₂, h₃⟩ => ⟨h₁, h₂, h₃⟩⟩

/-- The later attempts, by induction on them. -/
theorem retries_own_iff (others : List Attempt) :
    ∀ (earlier : List Attempt) (c : Context Setting OtherSettings), Holds earlier c →
      ((∀ x ∈ retries decoder request c others,
        (∃ key, x.1.nextKey = .ok key) ∧ x.2 = x.1.own decoder request) ↔
          EachOwn earlier others) := by
  induction others with
  | nil =>
    intro earlier c _
    exact ⟨fun _ => trivial, fun _ x hx => absurd hx List.not_mem_nil⟩
  | cons a others ih =>
    intro earlier c h
    unfold retries EachOwn
    cases hkey : a.nextKey with
    | error e =>
      rw [setup_error decoder request c hkey]
      exact ⟨fun _ hok => hok.elim nofun, fun _ x hx => absurd hx List.not_mem_nil⟩
    | ok key =>
      have hsetup := setup_ok decoder request c hkey
      have hseen := seen_iff_nothingLeft decoder request h hkey
      have hrest := ih (earlier ++ [a]) _ (h.setup decoder request hkey)
      rw [hsetup] at hseen hrest ⊢
      rw [List.forall_mem_cons, hseen, hrest]
      constructor
      · rintro ⟨⟨-, hleft⟩, hothers⟩ -
        exact ⟨hleft, hothers⟩
      · intro hall
        obtain ⟨hleft, hothers⟩ := hall ⟨key, rfl⟩
        exact ⟨⟨⟨key, hkey⟩, hleft⟩, hothers⟩

end Reads

/-- **Every attempt runs in its own context** exactly if the first channel has a key, and no
attempt reads what an earlier one has left. -/
theorem own_context_iff (decoder : Decoder Setting OtherSettings) (request : Request)
    (first : Attempt) (others : List Attempt) :
    OwnContext decoder request first others ↔
      (∃ key, first.nextKey = .ok key) ∧ EachOwn [first] others := by
  have hstart : Holds [] (Context.fresh : Context Setting OtherSettings) := ⟨rfl, rfl, rfl⟩
  unfold OwnContext upstreamAttempts
  rw [List.forall_mem_cons]
  constructor
  · rintro ⟨⟨⟨key, hkey⟩, -⟩, hothers⟩
    exact ⟨⟨key, hkey⟩, (retries_own_iff decoder request others [first] _
      (hstart.setup decoder request hkey)).mp hothers⟩
  · rintro ⟨⟨key, hkey⟩, hothers⟩
    exact ⟨⟨⟨key, hkey⟩, rfl⟩,
      (retries_own_iff decoder request others [first] _
      (hstart.setup decoder request hkey)).mpr hothers⟩

/-! ### A channel without an organization after one with -/

def plainDecoder : Decoder Unit Unit where
  zeroSetting := ()
  zeroOtherSettings := ()
  setting _ := ()
  otherSettings _ := ()
  override _ := .empty
  equalFold s t := decide (s = t)

def openAIChannel (id : ℕ) (key : String) (organization : Option String) : Attempt where
  channel :=
    { id, key, status := .enabled, weight := none, models := "gpt-5", group := "default"
      priority := none, tag := none
      channelInfo := ⟨false, 0, .empty, .empty, .empty, 0, .random⟩
      keys := [], type := 1, name := "", createdTime := 0, baseURL := none, other := ""
      openAIOrganization := organization, autoBan := none, modelMapping := none
      statusCodeMapping := none, setting := none, otherSettings := "", paramOverride := none
      headerOverride := none }
  draw := 0
  cached := .error ""

/-- The second attempt is made for the organization of the first. -/
theorem organization_of_first_channel :
    ¬ OwnContext plainDecoder ⟨"gpt-5", .empty, ""⟩ (openAIChannel 1 "sk-1" (some "org-1"))
      [openAIChannel 2 "sk-2" none] := by
  intro h
  have hown := (h _ (List.mem_cons_of_mem _ List.mem_cons_self)).2
  have horganization := congrArg (fun s => s.channelMeta.organization) hown
  exact absurd horganization (by decide)

end ChannelContext
