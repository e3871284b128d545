import GMasterApi.Convert.ClaudeResponse
import GMasterApi.Relay.TextQuota

/-!
# The usage of a Claude response, streamed or not

`ClaudeHandler` copies the usage of a message at once, `ClaudeStreamHandler` gathers it from
the `message_start` and the `message_delta` events.  `Spread` says what usage a stream reports,
and `billedAlike_iff` when both handlers leave the same to be billed.
-/

namespace Convert.Claude

open Relay Pieces

/-! ## Usage -/

structure ClaudeCacheCreationUsage where
  ephemeral5mInputTokens : ℕ
  ephemeral1hInputTokens : ℕ

structure ClaudeUsage where
  inputTokens : ℕ
  cacheCreationInputTokens : ℕ
  cacheReadInputTokens : ℕ
  outputTokens : ℕ
  cacheCreation : Option ClaudeCacheCreationUsage
  /-- The web search requests of `server_tool_use`. -/
  serverToolUse : Option ℕ

def ClaudeUsage.getCacheCreation5mTokens (usage : ClaudeUsage) : ℕ :=
  (usage.cacheCreation.map ClaudeCacheCreationUsage.ephemeral5mInputTokens).getD 0

def ClaudeUsage.getCacheCreation1hTokens (usage : ClaudeUsage) : ℕ :=
  (usage.cacheCreation.map ClaudeCacheCreationUsage.ephemeral1hInputTokens).getD 0

def ClaudeUsage.webSearchRequests (usage : ClaudeUsage) : ℕ := usage.serverToolUse.getD 0

/-- `Usage` with its total, which no quota is calculated from. -/
structure TotalledUsage extends Usage where
  totalTokens : ℤ
  deriving DecidableEq

def TotalledUsage.empty : TotalledUsage := { Usage.estimated 0 with totalTokens := 0 }

/-- What a handler leaves for the settlement. -/
structure Handled where
  usage : TotalledUsage
  claudeWebSearchRequests : ℤ
  deriving DecidableEq

/-- The usage in `HandleClaudeResponseData`. -/
def claudeHandler (claudeUsage : Option ClaudeUsage) : Handled :=
  match claudeUsage with
  | none => ⟨.empty, 0⟩
  | some claudeUsage =>
    { usage := { TotalledUsage.empty with
        promptTokens := claudeUsage.inputTokens
        completionTokens := claudeUsage.outputTokens
        totalTokens := claudeUsage.inputTokens + claudeUsage.outputTokens
        usageSemantic := "anthropic"
        promptTokensDetails := { TotalledUsage.empty.promptTokensDetails with
          cachedTokens := claudeUsage.cacheReadInputTokens
          cachedCreationTokens := claudeUsage.cacheCreationInputTokens }
        claudeCacheCreation5mTokens := claudeUsage.getCacheCreation5mTokens
        claudeCacheCreation1hTokens := claudeUsage.getCacheCreation1hTokens }
      claudeWebSearchRequests :=
        if 0 < claudeUsage.webSearchRequests then claudeUsage.webSearchRequests else 0 }

/-! ## The stream -/

inductive RelayFormat
  | claude
  | openAI

/-- An event with the usage of its message, or its own. -/
structure StreamData where
  event : StreamEvent
  usage : Option ClaudeUsage

structure ClaudeResponseInfo where
  responseId : String
  model : String
  responseText : String
  usage : TotalledUsage
  done : Bool

/-- The usage at a `message_start`. -/
def TotalledUsage.start (usage : TotalledUsage) (claudeUsage : ClaudeUsage) : TotalledUsage :=
  { usage with
    promptTokens := claudeUsage.inputTokens
    usageSemantic := "anthropic"
    promptTokensDetails := { usage.promptTokensDetails with
      cachedTokens := claudeUsage.cacheReadInputTokens
      cachedCreationTokens := claudeUsage.cacheCreationInputTokens }
    claudeCacheCreation5mTokens := claudeUsage.getCacheCreation5mTokens
    claudeCacheCreation1hTokens := claudeUsage.getCacheCreation1hTokens
    completionTokens := claudeUsage.outputTokens }

/-- A count that is zero or absent does not replace an earlier one. -/
def newest (count : ℕ) (earlier : ℤ) : ℤ := if 0 < count then count else earlier

/-- The usage at a `message_delta`. -/
def TotalledUsage.update (usage : TotalledUsage) (claudeUsage : ClaudeUsage) : TotalledUsage :=
  let promptTokens := newest claudeUsage.inputTokens usage.promptTokens
  let completionTokens := newest claudeUsage.outputTokens usage.completionTokens
  { usage with
    usageSemantic := "anthropic"
    promptTokens := promptTokens
    promptTokensDetails := { usage.promptTokensDetails with
      cachedTokens :=
        newest claudeUsage.cacheReadInputTokens usage.promptTokensDetails.cachedTokens
      cachedCreationTokens :=
        newest claudeUsage.cacheCreationInputTokens usage.promptTokensDetails.cachedCreationTokens }
    claudeCacheCreation5mTokens :=
      newest claudeUsage.getCacheCreation5mTokens usage.claudeCacheCreation5mTokens
    claudeCacheCreation1hTokens :=
      newest claudeUsage.getCacheCreation1hTokens usage.claudeCacheCreation1hTokens
    completionTokens := completionTokens
    totalTokens := promptTokens + completionTokens }

/-- `FormatClaudeResponseInfo`, with whether the response is to be sent on. -/
def formatClaudeResponseInfo (claudeInfo : ClaudeResponseInfo) (data : StreamData) :
    ClaudeResponseInfo × Bool :=
  match data.event with
  | .messageStart id model =>
    let usage := match data.usage with
      | some claudeUsage => claudeInfo.usage.start claudeUsage
      | none => claudeInfo.usage
    ({ claudeInfo with responseId := id, model := model, usage := usage }, true)
  | .contentBlockDelta _ delta =>
    match delta with
    | .textDelta content =>
      ({ claudeInfo with responseText := claudeInfo.responseText ++ content }, true)
    | .thinkingDelta content =>
      ({ claudeInfo with responseText := claudeInfo.responseText ++ content }, true)
    | .signatureDelta _ => (claudeInfo, true)
    | .inputJsonDelta _ => (claudeInfo, true)
  | .messageDelta _ =>
    let usage := match data.usage with
      | some claudeUsage => claudeInfo.usage.update claudeUsage
      | none => claudeInfo.usage
    ({ claudeInfo with usage := usage, done := true }, true)
  | .contentBlockStart _ _ => (claudeInfo, true)
  | .contentBlockStop _ => (claudeInfo, false)
  | .messageStop => (claudeInfo, false)

/-- The chunk with the id and the model of the response. -/
def ClaudeResponseInfo.stamp (claudeInfo : ClaudeResponseInfo) (response : Chunk) : Chunk :=
  { response with id := claudeInfo.responseId, model := claudeInfo.model }

structure StreamState where
  claudeInfo : ClaudeResponseInfo
  upstreamModelName : String

/-- The state after an event, and the chunk that is sent to a client of OpenAI's format; one of
Claude's format is sent the event. -/
def handleStreamResponseData (relayFormat : RelayFormat) (state : StreamState)
    (data : StreamData) : StreamState × Option Chunk :=
  let (claudeInfo, formatted) := formatClaudeResponseInfo state.claudeInfo data
  match relayFormat with
  | .claude =>
    let upstreamModelName := match data.event with
      | .messageStart _ model => model
      | _ => state.upstreamModelName
    (⟨claudeInfo, upstreamModelName⟩, none)
  | .openAI =>
    (⟨claudeInfo, state.upstreamModelName⟩,
      if formatted then (streamResponseClaude2OpenAI data.event).map claudeInfo.stamp else none)

/-- What the handlers read of `RelayInfo`, with `helper.GetResponseID`. -/
structure HandlerInfo where
  relayFormat : RelayFormat
  responseId : String
  upstreamModelName : String
  estimatePromptTokens : ℤ

def HandlerInfo.initial (info : HandlerInfo) : StreamState :=
  ⟨⟨info.responseId, info.upstreamModelName, "", .empty, false⟩, info.upstreamModelName⟩

/-- The state after the events of a stream. -/
def HandlerInfo.run (info : HandlerInfo) (stream : List StreamData) : StreamState :=
  stream.foldl (fun state data => (handleStreamResponseData info.relayFormat state data).1)
    info.initial

section Stream

-- `EstimateTokenByModel`
variable (estimateTokenByModel : String → String → ℤ)

/-- The prompt and the completion tokens of `ResponseText2Usage`. -/
def responseText2Usage (responseText modelName : String) (promptTokens : ℤ) : ℤ × ℤ :=
  (promptTokens, estimateTokenByModel modelName responseText)

/-- The usage that `HandleStreamFinalResponse` leaves. -/
def handleStreamFinalResponse (info : HandlerInfo) (state : StreamState) : TotalledUsage :=
  let claudeInfo := state.claudeInfo
  let usage :=
    if claudeInfo.usage.completionTokens = 0 ∨ claudeInfo.done = false then
      let fallback := responseText2Usage estimateTokenByModel claudeInfo.responseText
        state.upstreamModelName info.estimatePromptTokens
      let completionTokens :=
        if claudeInfo.usage.completionTokens = 0 ∨
            claudeInfo.done = false ∧ claudeInfo.usage.completionTokens < fallback.2 then
          fallback.2
        else claudeInfo.usage.completionTokens
      let promptTokens :=
        if claudeInfo.usage.promptTokens = 0 then fallback.1 else claudeInfo.usage.promptTokens
      { claudeInfo.usage with
        completionTokens := completionTokens
        promptTokens := promptTokens
        totalTokens := promptTokens + completionTokens }
    else claudeInfo.usage
  { usage with usageSemantic := "anthropic" }

/-- No event sets the count of web searches. -/
def claudeStreamHandler (info : HandlerInfo) (stream : List StreamData) : Handled :=
  ⟨handleStreamFinalResponse estimateTokenByModel info (info.run stream), 0⟩

end Stream

/-! ## The usage that a stream reports -/

inductive TokenCount
  | input
  | output
  | cacheRead
  | cacheCreation
  | cacheCreation5m
  | cacheCreation1h

def ClaudeUsage.count (usage : ClaudeUsage) : TokenCount → ℕ
  | .input => usage.inputTokens
  | .output => usage.outputTokens
  | .cacheRead => usage.cacheReadInputTokens
  | .cacheCreation => usage.cacheCreationInputTokens
  | .cacheCreation5m => usage.getCacheCreation5mTokens
  | .cacheCreation1h => usage.getCacheCreation1hTokens

/-- The last count that is not zero. -/
def latest (counts : List ℕ) : ℕ := (counts.filter (0 < ·)).getLast?.getD 0

def StreamData.isMessageStart (data : StreamData) : Bool :=
  match data.event with
  | .messageStart _ _ => true
  | _ => false

def StreamData.isMessageDelta (data : StreamData) : Bool :=
  match data.event with
  | .messageDelta _ => true
  | _ => false

/-- The usage of a `message_start` or a `message_delta`. -/
def StreamData.reported (data : StreamData) : Option ClaudeUsage :=
  if data.isMessageStart || data.isMessageDelta then data.usage else none

/-- The last value of a count that the events of a stream report. -/
def reportedCount (stream : List StreamData) (count : ClaudeUsage → ℕ) : ℕ :=
  latest ((stream.filterMap StreamData.reported).map count)

/-- A usage is spread over a stream that begins with its only `message_start`: each of its
counts is what the last event that does not leave it at zero reports. -/
structure Spread (final : ClaudeUsage) (stream : List StreamData) : Prop where
  starts : ∃ start later, stream = start :: later ∧ start.isMessageStart = true ∧
    ∀ data ∈ later, data.isMessageStart = false
  tokens : ∀ count, final.count count = reportedCount stream (ClaudeUsage.count · count)
  webSearches : final.webSearchRequests = reportedCount stream ClaudeUsage.webSearchRequests

/-! ## Billed alike -/

section Billing

variable (estimateTokenByModel : String → String → ℤ) (info : HandlerInfo)

/-- The quota that a request is settled at after its handler. -/
def Handled.quota (handled : Handled) (settings : TextQuotaSettings) (engine : ExprEngine)
    (ctx : TextContext) (relayInfo : Relay.RelayInfo) : ℤ :=
  postTextQuota settings engine
    { ctx with claudeWebSearchRequests := handled.claudeWebSearchRequests } relayInfo
    (some handled.usage.toUsage)

/-- Both handlers leave the same usage and the same count of web searches, and so both settle
the same quota. -/
structure BilledAlike (final : ClaudeUsage) (stream : List StreamData) : Prop where
  usage : (claudeStreamHandler estimateTokenByModel info stream).usage =
    (claudeHandler (some final)).usage
  webSearches : (claudeStreamHandler estimateTokenByModel info stream).claudeWebSearchRequests =
    (claudeHandler (some final)).claudeWebSearchRequests
  quota : ∀ settings engine ctx relayInfo,
    (claudeStreamHandler estimateTokenByModel info stream).quota settings engine ctx relayInfo =
      (claudeHandler (some final)).quota settings engine ctx relayInfo

/-- A `message_delta` came. -/
def completed (stream : List StreamData) : Bool := stream.any StreamData.isMessageDelta

/-- A `message_delta` with a usage came. -/
def totalled (stream : List StreamData) : Bool :=
  stream.any fun data => data.isMessageDelta && data.usage.isSome

def StreamData.text? (data : StreamData) : Option String :=
  match data.event with
  | .contentBlockDelta _ (.textDelta content) => some content
  | .contentBlockDelta _ (.thinkingDelta content) => some content
  | _ => none

/-- The texts and the thinkings that were streamed. -/
def streamedText (stream : List StreamData) : String :=
  String.join (stream.filterMap StreamData.text?)

/-- The model that a stream is estimated for. -/
def HandlerInfo.estimatedModel (info : HandlerInfo) (stream : List StreamData) : String :=
  match info.relayFormat, stream.head?.map StreamData.event with
  | .claude, some (.messageStart _ model) => model
  | _, _ => info.upstreamModelName

/-- The completion tokens that a stream is estimated at. -/
def HandlerInfo.estimate (info : HandlerInfo) (stream : List StreamData) : ℤ :=
  estimateTokenByModel (info.estimatedModel stream) (streamedText stream)

/-- The condition on a usage and a stream that it is spread over. -/
structure FullyReported (final : ClaudeUsage) (stream : List StreamData) : Prop where
  webSearches : final.webSearchRequests = 0
  /-- The total is added up at a `message_delta` with a usage. -/
  total : final.outputTokens ≠ 0 → completed stream = true → totalled stream = true
  completion : final.outputTokens = 0 → info.estimate estimateTokenByModel stream = 0
  interrupted : completed stream = false →
    info.estimate estimateTokenByModel stream ≤ final.outputTokens
  prompt : final.outputTokens = 0 ∨ completed stream = false → final.inputTokens = 0 →
    info.estimatePromptTokens = 0

end Billing

/-! ## What a stream gathers -/

theorem latest_concat (counts : List ℕ) (count : ℕ) :
    latest (counts ++ [count]) = if 0 < count then count else latest counts := by
  unfold latest
  rw [List.filter_append]
  by_cases hcount : 0 < count
  · rw [if_pos hcount, List.filter_cons_of_pos (by simpa using hcount), List.filter_nil,
      List.getLast?_concat]
    rfl
  · rw [if_neg hcount, List.filter_cons_of_neg (by simpa using hcount), List.filter_nil,
      List.append_nil]

theorem reportedCount_concat_of_none {stream : List StreamData} {data : StreamData}
    (hdata : data.reported = none) (count : ClaudeUsage → ℕ) :
    reportedCount (stream ++ [data]) count = reportedCount stream count := by
  unfold reportedCount
  rw [List.filterMap_append, List.filterMap_cons_none hdata, List.filterMap_nil, List.append_nil]

theorem reportedCount_concat_of_some {stream : List StreamData} {data : StreamData}
    {usage : ClaudeUsage} (hdata : data.reported = some usage) (count : ClaudeUsage → ℕ) :
    reportedCount (stream ++ [data]) count =
      if 0 < count usage then count usage else reportedCount stream count := by
  unfold reportedCount
  rw [List.filterMap_append, List.filterMap_cons_some hdata, List.filterMap_nil, List.map_append]
  exact latest_concat _ _

theorem newest_natCast (count earlier : ℕ) :
    newest count earlier = ((if 0 < count then count else earlier : ℕ) : ℤ) := by
  unfold newest
  by_cases hcount : 0 < count
  · rw [if_pos hcount, if_pos hcount]
  · rw [if_neg hcount, if_neg hcount]

/-- The usage of these counts. -/
def gathered (counts : TokenCount → ℕ) (totalTokens : ℤ) : TotalledUsage :=
  { TotalledUsage.empty with
    promptTokens := counts .input
    completionTokens := counts .output
    totalTokens := totalTokens
    usageSemantic := "anthropic"
    promptTokensDetails := { TotalledUsage.empty.promptTokensDetails with
      cachedTokens := counts .cacheRead
      cachedCreationTokens := counts .cacheCreation }
    claudeCacheCreation5mTokens := counts .cacheCreation5m
    claudeCacheCreation1hTokens := counts .cacheCreation1h }

theorem update_gathered (counts : TokenCount → ℕ) (totalTokens : ℤ) (usage : ClaudeUsage) :
    (gathered counts totalTokens).update usage =
      let counts' count := if 0 < usage.count count then usage.count count else counts count
      gathered counts' (counts' .input + counts' .output) := by
  unfold TotalledUsage.update gathered
  simp only [newest_natCast]
  rfl

/-- The counts that a stream reports. -/
def reportedCounts (stream : List StreamData) (count : TokenCount) : ℕ :=
  reportedCount stream (ClaudeUsage.count · count)

def reportedTotal (stream : List StreamData) : ℤ :=
  if totalled stream = true then reportedCounts stream .input + reportedCounts stream .output
  else 0

/-- The usage, whose semantic is set when the stream has ended. -/
def TotalledUsage.anthropic (usage : TotalledUsage) : TotalledUsage :=
  { usage with usageSemantic := "anthropic" }

/-- The state holds what the stream has reported. -/
structure Gathers (info : HandlerInfo) (stream : List StreamData) (state : StreamState) :
    Prop where
  usage : state.claudeInfo.usage.anthropic =
    gathered (reportedCounts stream) (reportedTotal stream)
  responseText : state.claudeInfo.responseText = streamedText stream
  done : state.claudeInfo.done = completed stream
  model : state.upstreamModelName = info.estimatedModel stream

section Run

variable {info : HandlerInfo}

theorem gathers_start {start : StreamData} (hstart : start.isMessageStart = true) :
    Gathers info [start] (info.run [start]) := by
  rcases start with ⟨event, usage⟩
  cases event with
  | messageStart id model =>
    have hmodel : (info.run [⟨.messageStart id model, usage⟩]).upstreamModelName =
        info.estimatedModel [⟨.messageStart id model, usage⟩] := by
      unfold HandlerInfo.run handleStreamResponseData HandlerInfo.estimatedModel
      cases info.relayFormat <;> rfl
    have hinfo : (info.run [⟨.messageStart id model, usage⟩]).claudeInfo =
        (formatClaudeResponseInfo info.initial.claudeInfo ⟨.messageStart id model, usage⟩).1 := by
      unfold HandlerInfo.run handleStreamResponseData
      cases info.relayFormat <;> rfl
    refine ⟨?_, ?_, ?_, hmodel⟩
    · rw [hinfo]
      cases usage with
      | none => rfl
      | some usage =>
        have hcounts : reportedCounts [⟨.messageStart id model, some usage⟩] = usage.count := by
          funext count
          refine (latest_concat [] (usage.count count)).trans ?_
          by_cases hcount : 0 < usage.count count
          · rw [if_pos hcount]
          · rw [if_neg hcount]
            show 0 = usage.count count
            omega
        rw [hcounts]
        rfl
    · rw [hinfo]
      rfl
    · rw [hinfo]
      rfl
  | contentBlockStart index block => cases hstart
  | contentBlockDelta index delta => cases hstart
  | contentBlockStop index => cases hstart
  | messageDelta stopReason => cases hstart
  | messageStop => cases hstart

theorem concat_streamedText (stream : List StreamData) (data : StreamData) :
    streamedText (stream ++ [data]) = streamedText stream ++ data.text?.getD "" := by
  unfold streamedText
  rw [List.filterMap_append, String.join_append]
  cases htext : data.text? with
  | none => rw [List.filterMap_cons_none htext]; rfl
  | some text =>
    rw [List.filterMap_cons_some htext]
    rw [List.filterMap_nil, join_singleton]
    rfl

/-- An event that reports no usage. -/
theorem gathered_concat_of_none {stream : List StreamData} {data : StreamData}
    (hdata : data.reported = none) :
    gathered (reportedCounts (stream ++ [data])) (reportedTotal (stream ++ [data])) =
      gathered (reportedCounts stream) (reportedTotal stream) := by
  have hcounts : reportedCounts (stream ++ [data]) = reportedCounts stream := by
    funext count
    exact reportedCount_concat_of_none hdata _
  have htotalled : totalled (stream ++ [data]) = totalled stream := by
    have hnot : (data.isMessageDelta && data.usage.isSome) = false := by
      unfold StreamData.reported at hdata
      by_cases hdelta : data.isMessageDelta = true
      · rw [hdelta, Bool.or_true, if_pos rfl] at hdata
        rw [hdata]
        exact Bool.and_false _
      · simp [hdelta]
    unfold totalled
    rw [List.any_append, List.any_cons, List.any_nil, hnot]
    simp
  unfold reportedTotal
  rw [hcounts, htotalled]

/-- **One event**: what is gathered stays what was reported. -/
theorem gathers_concat {start : StreamData} {later : List StreamData} {state : StreamState}
    (h : Gathers info (start :: later) state) {data : StreamData}
    (hdata : data.isMessageStart = false) :
    Gathers info (start :: later ++ [data])
      (handleStreamResponseData info.relayFormat state data).1 := by
  have hinfo : (handleStreamResponseData info.relayFormat state data).1.claudeInfo =
      (formatClaudeResponseInfo state.claudeInfo data).1 := by
    unfold handleStreamResponseData
    cases info.relayFormat <;> rfl
  have hmodel : (handleStreamResponseData info.relayFormat state data).1.upstreamModelName =
      info.estimatedModel (start :: later ++ [data]) := by
    refine Eq.trans ?_ h.model
    unfold handleStreamResponseData
    cases info.relayFormat with
    | openAI => rfl
    | claude =>
      rcases data with ⟨event, usage⟩
      cases event with
      | messageStart id model => cases hdata
      | contentBlockStart index block => rfl
      | contentBlockDelta index delta => rfl
      | contentBlockStop index => rfl
      | messageDelta stopReason => rfl
      | messageStop => rfl
  have hdone : completed (start :: later ++ [data]) =
      (state.claudeInfo.done || data.isMessageDelta) := by
    unfold completed
    rw [List.any_append, h.done]
    simp [completed]
  -- the events that neither hold a text nor are a `message_delta` change nothing
  have hkeep : (formatClaudeResponseInfo state.claudeInfo data).1 = state.claudeInfo →
      data.reported = none → data.text? = none → data.isMessageDelta = false →
      Gathers info (start :: later ++ [data])
        (handleStreamResponseData info.relayFormat state data).1 := by
    intro hsame hreported htext hdelta
    refine ⟨?_, ?_, ?_, hmodel⟩
    · rw [hinfo, hsame, gathered_concat_of_none hreported]
      exact h.usage
    · rw [hinfo, hsame, concat_streamedText, htext, h.responseText]
      exact String.append_empty.symm
    · rw [hinfo, hsame, hdone, hdelta, Bool.or_false]
  -- the texts are written one after the other
  have htext : ∀ content, (formatClaudeResponseInfo state.claudeInfo data).1 =
        { state.claudeInfo with responseText := state.claudeInfo.responseText ++ content } →
      data.reported = none → data.text? = some content → data.isMessageDelta = false →
      Gathers info (start :: later ++ [data])
        (handleStreamResponseData info.relayFormat state data).1 := by
    intro content hsame hreported htext hdelta
    refine ⟨?_, ?_, ?_, hmodel⟩
    · rw [hinfo, hsame, gathered_concat_of_none hreported]
      exact h.usage
    · rw [hinfo, hsame, concat_streamedText, htext, ← h.responseText]
      rfl
    · rw [hinfo, hsame, hdone, hdelta, Bool.or_false]
  rcases data with ⟨event, usage⟩
  cases event with
  | messageStart id model => cases hdata
  | contentBlockStart index block => exact hkeep rfl rfl rfl rfl
  | contentBlockStop index => exact hkeep rfl rfl rfl rfl
  | messageStop => exact hkeep rfl rfl rfl rfl
  | contentBlockDelta index delta =>
    cases delta with
    | textDelta content => exact htext content rfl rfl rfl rfl
    | thinkingDelta content => exact htext content rfl rfl rfl rfl
    | signatureDelta signature => exact hkeep rfl rfl rfl rfl
    | inputJsonDelta partialJson => exact hkeep rfl rfl rfl rfl
  | messageDelta stopReason =>
    refine ⟨?_, ?_, ?_, hmodel⟩
    · rw [hinfo]
      cases usage with
      | none =>
        rw [gathered_concat_of_none rfl]
        exact h.usage
      | some usage =>
        show state.claudeInfo.usage.anthropic.update usage = _
        rw [h.usage, update_gathered]
        have hcounts : reportedCounts (start :: later ++ [⟨.messageDelta stopReason, some usage⟩]) =
            fun count => if 0 < usage.count count then usage.count count
              else reportedCounts (start :: later) count := by
          funext count
          exact reportedCount_concat_of_some rfl _
        have htotalled : totalled (start :: later ++ [⟨.messageDelta stopReason, some usage⟩]) =
            true := by
          unfold totalled
          rw [List.any_append]
          exact Bool.or_true _
        unfold reportedTotal
        rw [htotalled, if_pos rfl, hcounts]
    · rw [hinfo, concat_streamedText]
      exact h.responseText.trans String.append_empty.symm
    · rw [hinfo, hdone]
      exact (Bool.or_true _).symm

/-- **All events** of a stream. -/
theorem gathers_run {start : StreamData} (hstart : start.isMessageStart = true)
    {later : List StreamData} (hlater : ∀ data ∈ later, data.isMessageStart = false) :
    Gathers info (start :: later) (info.run (start :: later)) := by
  induction later using List.reverseRecOn with
  | nil => exact gathers_start hstart
  | append_singleton later data ih =>
    have h := ih fun earlier hearlier => hlater earlier (List.mem_append_left _ hearlier)
    have hrun : info.run (start :: (later ++ [data])) =
        (handleStreamResponseData info.relayFormat (info.run (start :: later)) data).1 := by
      unfold HandlerInfo.run
      rw [← List.cons_append, List.foldl_append]
      rfl
    rw [hrun]
    exact gathers_concat h (hlater data (by simp))

end Run

/-! ## What is left to be billed -/

section Final

variable (estimateTokenByModel : String → String → ℤ) (info : HandlerInfo)

theorem claudeHandler_usage (final : ClaudeUsage) :
    (claudeHandler (some final)).usage =
      gathered final.count (final.inputTokens + final.outputTokens) := rfl

/-- A stream without output tokens or without a `message_delta` is filled up by estimates. -/
theorem handleStreamFinalResponse_eq {stream : List StreamData} {state : StreamState}
    (h : Gathers info stream state) :
    handleStreamFinalResponse estimateTokenByModel info state =
      if reportedCounts stream .output = 0 ∨ completed stream = false then
        let estimate := info.estimate estimateTokenByModel stream
        let completionTokens := if reportedCounts stream .output = 0 ∨
            completed stream = false ∧ reportedCounts stream .output < estimate then estimate
          else reportedCounts stream .output
        let promptTokens := if reportedCounts stream .input = 0 then info.estimatePromptTokens
          else reportedCounts stream .input
        { gathered (reportedCounts stream) 0 with
          completionTokens := completionTokens
          promptTokens := promptTokens
          totalTokens := promptTokens + completionTokens }
      else gathered (reportedCounts stream) (reportedTotal stream) := by
  have houtput : state.claudeInfo.usage.completionTokens = reportedCounts stream .output :=
    congrArg (fun usage => usage.completionTokens) h.usage
  have hinput : state.claudeInfo.usage.promptTokens = reportedCounts stream .input :=
    congrArg (fun usage => usage.promptTokens) h.usage
  have hestimated : ∀ promptTokens completionTokens : ℤ,
      ({ state.claudeInfo.usage with
          completionTokens := completionTokens
          promptTokens := promptTokens
          totalTokens := promptTokens + completionTokens } : TotalledUsage).anthropic =
        { gathered (reportedCounts stream) 0 with
          completionTokens := completionTokens
          promptTokens := promptTokens
          totalTokens := promptTokens + completionTokens } := by
    intro promptTokens completionTokens
    exact congrArg (fun usage : TotalledUsage => ({ usage with
      completionTokens := completionTokens
      promptTokens := promptTokens
      totalTokens := promptTokens + completionTokens } : TotalledUsage)) h.usage
  unfold handleStreamFinalResponse responseText2Usage
  dsimp only
  rw [houtput, hinput, h.done, h.responseText, h.model]
  simp only [Int.natCast_eq_zero]
  by_cases hincomplete : reportedCounts stream .output = 0 ∨ completed stream = false
  · rw [if_pos hincomplete, if_pos hincomplete]
    exact hestimated _ _
  · rw [if_neg hincomplete, if_neg hincomplete]
    exact h.usage

/-- The usage differs from that of the whole message in no other count. -/
theorem estimated_eq_iff (counts : TokenCount → ℕ) (promptTokens completionTokens : ℤ) :
    ({ gathered counts 0 with
        completionTokens := completionTokens
        promptTokens := promptTokens
        totalTokens := promptTokens + completionTokens } : TotalledUsage) =
      gathered counts (counts .input + counts .output) ↔
    promptTokens = counts .input ∧ completionTokens = counts .output := by
  constructor
  · intro h
    exact ⟨congrArg (fun usage => usage.promptTokens) h,
      congrArg (fun usage => usage.completionTokens) h⟩
  · rintro ⟨rfl, rfl⟩
    rfl

variable {final : ClaudeUsage} {stream : List StreamData}

theorem Spread.gathers (h : Spread final stream) : Gathers info stream (info.run stream) := by
  obtain ⟨start, later, rfl, hstart, hlater⟩ := h.starts
  exact gathers_run hstart hlater

theorem usage_eq_iff (h : Spread final stream) :
    (claudeStreamHandler estimateTokenByModel info stream).usage =
      (claudeHandler (some final)).usage ↔
    (final.outputTokens ≠ 0 → completed stream = true → totalled stream = true) ∧
      (final.outputTokens = 0 → info.estimate estimateTokenByModel stream = 0) ∧
      (completed stream = false →
        info.estimate estimateTokenByModel stream ≤ final.outputTokens) ∧
      (final.outputTokens = 0 ∨ completed stream = false → final.inputTokens = 0 →
        info.estimatePromptTokens = 0) := by
  have hcounts : reportedCounts stream = final.count := funext fun count => (h.tokens count).symm
  have hinput : final.count .input = final.inputTokens := rfl
  have houtput : final.count .output = final.outputTokens := rfl
  rw [claudeHandler_usage]
  show handleStreamFinalResponse estimateTokenByModel info (info.run stream) = _ ↔ _
  rw [handleStreamFinalResponse_eq estimateTokenByModel info (h.gathers info), hcounts]
  by_cases hincomplete : final.count .output = 0 ∨ completed stream = false
  · rw [if_pos hincomplete]
    dsimp only
    rw [← hinput, ← houtput, estimated_eq_iff]
    generalize info.estimate estimateTokenByModel stream = estimate
    have hprompt : (if final.count .input = 0 then info.estimatePromptTokens
        else (final.count .input : ℤ)) = final.count .input ↔
        (final.count .input = 0 → info.estimatePromptTokens = 0) := by
      by_cases hzero : final.count .input = 0
      · simp [hzero]
      · simp [hzero]
    have hcompletion : (if final.count .output = 0 ∨ completed stream = false ∧
          (final.count .output : ℤ) < estimate then estimate else (final.count .output : ℤ)) =
          final.count .output ↔
        (final.count .output = 0 → estimate = 0) ∧
          (completed stream = false → estimate ≤ final.count .output) := by
      by_cases hzero : final.count .output = 0
      · rw [if_pos (Or.inl hzero), hzero]
        constructor
        · intro hestimate
          exact ⟨fun _ => hestimate, fun _ => le_of_eq hestimate⟩
        · rintro ⟨hestimate, -⟩
          exact hestimate rfl
      · have hdone : completed stream = false := hincomplete.resolve_left hzero
        by_cases hless : (final.count .output : ℤ) < estimate
        · rw [if_pos (Or.inr ⟨hdone, hless⟩)]
          constructor
          · intro hestimate
            omega
          · rintro ⟨-, hle⟩
            have := hle hdone
            omega
        · rw [if_neg (by simp [hzero, hless])]
          exact iff_of_true rfl ⟨fun h0 => absurd h0 hzero, fun _ => by omega⟩
    rw [hprompt, hcompletion]
    constructor
    · rintro ⟨hin, hzero, hless⟩
      refine ⟨?_, hzero, hless, fun _ => hin⟩
      intro hne hdone
      rcases hincomplete with h0 | h0
      · exact absurd h0 hne
      · rw [hdone] at h0
        cases h0
    · rintro ⟨-, hzero, hless, hin⟩
      exact ⟨hin hincomplete, hzero, hless⟩
  · rw [if_neg hincomplete]
    have hne : final.outputTokens ≠ 0 := fun h0 => hincomplete (Or.inl h0)
    have hdone : completed stream = true := by
      simpa using fun h0 => hincomplete (Or.inr h0)
    unfold reportedTotal
    rw [hcounts]
    by_cases htotalled : totalled stream = true
    · rw [if_pos htotalled]
      refine iff_of_true rfl ⟨fun _ _ => htotalled, fun h0 => absurd h0 hne, fun h0 => ?_,
        fun h0 => absurd h0 hincomplete⟩
      rw [hdone] at h0
      cases h0
    · rw [if_neg htotalled]
      refine iff_of_false ?_ fun hall => htotalled (hall.1 hne hdone)
      intro heq
      have htotal : (0 : ℤ) = final.inputTokens + final.outputTokens :=
        congrArg TotalledUsage.totalTokens heq
      omega

theorem webSearches_eq_iff :
    (claudeStreamHandler estimateTokenByModel info stream).claudeWebSearchRequests =
      (claudeHandler (some final)).claudeWebSearchRequests ↔ final.webSearchRequests = 0 := by
  show (0 : ℤ) = (if 0 < final.webSearchRequests then (final.webSearchRequests : ℤ) else 0) ↔ _
  by_cases hsearches : 0 < final.webSearchRequests
  · rw [if_pos hsearches]
    omega
  · rw [if_neg hsearches]
    exact iff_of_true rfl (by omega)

/-- **Billing**: a response is billed alike, streamed or not, exactly where it made no web
searches and the stream left nothing to be estimated. -/
theorem billedAlike_iff (h : Spread final stream) :
    BilledAlike estimateTokenByModel info final stream ↔
      FullyReported estimateTokenByModel info final stream := by
  constructor
  · intro hbilled
    obtain ⟨htotal, hcompletion, hinterrupted, hprompt⟩ :=
      (usage_eq_iff estimateTokenByModel info h).1 hbilled.usage
    exact ⟨(webSearches_eq_iff estimateTokenByModel info).1 hbilled.webSearches, htotal,
      hcompletion, hinterrupted, hprompt⟩
  · intro hreported
    have husage := (usage_eq_iff estimateTokenByModel info h).2
      ⟨hreported.total, hreported.completion, hreported.interrupted, hreported.prompt⟩
    have hsearches :
        (claudeStreamHandler estimateTokenByModel info stream).claudeWebSearchRequests =
          (claudeHandler (some final)).claudeWebSearchRequests :=
      (webSearches_eq_iff estimateTokenByModel info).2 hreported.webSearches
    refine ⟨husage, hsearches, ?_⟩
    intro settings engine ctx relayInfo
    unfold Handled.quota
    rw [husage, hsearches]

end Final

/-- The input is reported first, the output last. -/
theorem billedAlike_input_first :
    BilledAlike (fun _ _ => 3) ⟨.claude, "msg_0", "claude", 12⟩ ⟨10, 0, 7, 5, none, none⟩
      [⟨.messageStart "msg_1" "claude", some ⟨10, 0, 7, 1, none, none⟩⟩,
        ⟨.contentBlockDelta 0 (.textDelta "hello"), none⟩,
        ⟨.messageDelta (some "end_turn"), some ⟨0, 0, 0, 5, none, none⟩⟩] := by
  refine (billedAlike_iff _ _ ⟨⟨_, _, rfl, rfl, by decide⟩, ?_, rfl⟩).2 ?_
  · intro count
    cases count <;> rfl
  · exact ⟨rfl, fun _ _ => rfl, by decide, by decide, by decide⟩

/-- The searches of a stream are not counted. -/
theorem streamed_searches_not_billed :
    Spread ⟨10, 0, 0, 5, none, some 2⟩
        [⟨.messageStart "msg_1" "claude", some ⟨10, 0, 0, 1, none, none⟩⟩,
          ⟨.messageDelta (some "end_turn"), some ⟨0, 0, 0, 5, none, some 2⟩⟩] ∧
      ¬ BilledAlike (fun _ _ => 3) ⟨.claude, "msg_0", "claude", 12⟩ ⟨10, 0, 0, 5, none, some 2⟩
        [⟨.messageStart "msg_1" "claude", some ⟨10, 0, 0, 1, none, none⟩⟩,
          ⟨.messageDelta (some "end_turn"), some ⟨0, 0, 0, 5, none, some 2⟩⟩] := by
  constructor
  · refine ⟨⟨_, _, rfl, rfl, by decide⟩, ?_, rfl⟩
    intro count
    cases count <;> rfl
  · intro h
    exact absurd h.webSearches (by decide)

end Convert.Claude
