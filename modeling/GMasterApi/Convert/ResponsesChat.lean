import GMasterApi.Convert.OpenAIStream
import GMasterApi.Lib.GoString

/-!
# Responses as chat completions, streamed or not

`ResponsesResponseToChatCompletionsResponse` converts the completed response, and
`OaiResponsesToChatStreamHandler` its events.  The handler knows a tool call by the call id
of its item, or the item id, and counts what it has sent of the arguments by the longest
text that it has seen of them.
-/

namespace Convert.Responses

open GoString

/-! ## Responses -/

structure ResponsesOutputContent where
  type : String
  text : String
  deriving DecidableEq

/-- The arguments are what `ArgumentsString` makes of them. -/
structure ResponsesOutput where
  type : String
  id : String
  role : String
  content : List ResponsesOutputContent
  callId : String
  name : String
  arguments : String
  deriving DecidableEq

structure InputTokensDetails where
  cachedTokens : ℕ
  imageTokens : ℕ
  audioTokens : ℕ
  deriving DecidableEq

structure ResponsesUsage where
  inputTokens : ℕ
  outputTokens : ℕ
  totalTokens : ℕ
  inputTokensDetails : Option InputTokensDetails
  reasoningTokens : ℕ
  deriving DecidableEq

structure OpenAIError where
  type : String
  message : String
  deriving DecidableEq

structure ResponsesResponse where
  createdAt : ℤ
  model : String
  output : List ResponsesOutput
  usage : Option ResponsesUsage
  error : Option OpenAIError

/-! ## Usage -/

structure Usage where
  promptTokens : ℕ
  completionTokens : ℕ
  totalTokens : ℕ
  inputTokens : ℕ
  outputTokens : ℕ
  promptTokensDetails : InputTokensDetails
  reasoningTokens : ℕ
  deriving DecidableEq

def Usage.zero : Usage := ⟨0, 0, 0, 0, 0, ⟨0, 0, 0⟩, 0⟩

/-- What both conversions read of the usage of a response. -/
def Usage.read (usage : Usage) (reported : ResponsesUsage) : Usage :=
  let promptTokens :=
    if reported.inputTokens ≠ 0 then reported.inputTokens else usage.promptTokens
  let completionTokens :=
    if reported.outputTokens ≠ 0 then reported.outputTokens else usage.completionTokens
  { promptTokens := promptTokens
    completionTokens := completionTokens
    totalTokens :=
      if reported.totalTokens ≠ 0 then reported.totalTokens else promptTokens + completionTokens
    inputTokens := if reported.inputTokens ≠ 0 then reported.inputTokens else usage.inputTokens
    outputTokens :=
      if reported.outputTokens ≠ 0 then reported.outputTokens else usage.outputTokens
    promptTokensDetails := reported.inputTokensDetails.getD usage.promptTokensDetails
    reasoningTokens :=
      if reported.reasoningTokens ≠ 0 then reported.reasoningTokens else usage.reasoningTokens }

/-- `EstimateTokenByModel` for the model of the request: only the empty text has no tokens. -/
structure Estimator where
  estimate : String → ℕ
  estimate_eq_zero : ∀ text, estimate text = 0 ↔ text = ""

def responseText2Usage (estimator : Estimator) (responseText : String) (promptTokens : ℕ) :
    Usage :=
  { Usage.zero with
    promptTokens := promptTokens
    completionTokens := estimator.estimate responseText
    totalTokens := promptTokens + estimator.estimate responseText }

/-! ## The completed response -/

structure ToolCall where
  id : String
  name : String
  arguments : String
  deriving DecidableEq

structure ChatMessage where
  content : String
  toolCalls : List ToolCall
  finishReason : Option String
  deriving DecidableEq

def ResponsesOutput.isAssistantMessage (out : ResponsesOutput) : Bool :=
  out.type = "message" ∧ (out.role = "" ∨ out.role = "assistant")

def extractOutputTextFromResponses (resp : ResponsesResponse) : String :=
  let text := String.join <| (resp.output.filter ResponsesOutput.isAssistantMessage).flatMap
    fun out => (out.content.filter fun c => c.type = "output_text" ∧ c.text ≠ "").map
      ResponsesOutputContent.text
  if text ≠ "" then text
  else
    String.join <| resp.output.flatMap fun out => (out.content.filter fun c => c.text ≠ "").map
      ResponsesOutputContent.text

/-- The id of the call, or else of its item. -/
def ResponsesOutput.toolCallId (out : ResponsesOutput) : String :=
  if trimSpace out.callId = "" then trimSpace out.id else trimSpace out.callId

def ResponsesOutput.toolCall? (out : ResponsesOutput) : Option ToolCall :=
  if out.type ≠ "function_call" then none
  else if trimSpace out.name = "" then none
  else some ⟨out.toolCallId, trimSpace out.name, out.arguments⟩

def responsesResponseToChatCompletionsResponse (resp : ResponsesResponse) :
    ChatMessage × Usage :=
  let text := extractOutputTextFromResponses resp
  let usage := (resp.usage.map Usage.zero.read).getD Usage.zero
  let toolCalls := if text = "" then resp.output.filterMap ResponsesOutput.toolCall? else []
  if 0 < toolCalls.length then (⟨"", toolCalls, some "tool_calls"⟩, usage)
  else (⟨text, [], some "stop"⟩, usage)

/-! ## The stream -/

inductive Event
  | created (response : Option ResponsesResponse)
  | reasoningSummaryTextDelta (delta : String)
  | reasoningSummaryTextDone
  | outputTextDelta (delta : String)
  /-- `response.output_item.added` and `response.output_item.done`. -/
  | outputItem (item : Option ResponsesOutput)
  | functionCallArgumentsDelta (itemId delta : String)
  | completed (response : Option ResponsesResponse)
  /-- `response.error` and `response.failed`. -/
  | failed (type : String) (response : Option ResponsesResponse)
  | other

inductive Delta
  | start
  | reasoning (content : String)
  | content (content : String)
  | toolCall (tool : ToolCallResponse)
  | stop (finishReason : String)
  | usage (usage : Usage)

structure Chunk where
  created : ℤ
  model : String
  delta : Delta

/-- The variables of `OaiResponsesToChatStreamHandler`, and the chunks that were sent.
`toolCallIds` has the keys of `toolCallIndexByID` in the order of their indices. -/
structure Stream where
  createAt : ℤ
  model : String
  usage : Usage
  outputText : String
  usageText : String
  sentStart : Bool
  sentStop : Bool
  sawToolCall : Bool
  streamErr : Option String
  toolCallIds : List String
  toolCallNameByID : String → String
  toolCallArgsByID : String → String
  toolCallNameSent : String → Bool
  toolCallCanonicalIDByItemID : String → String
  hasSentReasoningSummary : Bool
  needsReasoningSummarySeparator : Bool
  chunks : List Chunk

def Stream.begin (createAt : ℤ) (model : String) : Stream where
  createAt := createAt
  model := model
  usage := Usage.zero
  outputText := ""
  usageText := ""
  sentStart := false
  sentStop := false
  sawToolCall := false
  streamErr := none
  toolCallIds := []
  toolCallNameByID _ := ""
  toolCallArgsByID _ := ""
  toolCallNameSent _ := false
  toolCallCanonicalIDByItemID _ := ""
  hasSentReasoningSummary := false
  needsReasoningSummarySeparator := false
  chunks := []

/-- The client is there, so every chunk is sent. -/
def Stream.sendChatChunk (s : Stream) (delta : Delta) : Stream :=
  { s with chunks := s.chunks ++ [⟨s.createAt, s.model, delta⟩] }

def Stream.sendStartIfNeeded (s : Stream) : Stream :=
  if s.sentStart then s else { s.sendChatChunk .start with sentStart := true }

def Stream.separated (s : Stream) (delta : String) : String :=
  if s.needsReasoningSummarySeparator then
    if hasPrefix delta "\n\n" then delta
    else if hasPrefix delta "\n" then "\n" ++ delta
    else "\n\n" ++ delta
  else delta

def Stream.sendReasoningSummaryDelta (s : Stream) (delta : String) : Stream :=
  if delta = "" then s
  else
    let delta := s.separated delta
    let s := { s with needsReasoningSummarySeparator := false }.sendStartIfNeeded
    { { s with usageText := s.usageText ++ delta }.sendChatChunk (.reasoning delta) with
      hasSentReasoningSummary := true }

/-- The name of a call as `sendToolCallDelta` has it. -/
def Stream.toolCallName (s : Stream) (callId name : String) : String :=
  if name ≠ "" then name else s.toolCallNameByID callId

def Stream.sentName (s : Stream) (callId name : String) : String :=
  if s.toolCallName callId name ≠ "" ∧ !s.toolCallNameSent callId then s.toolCallName callId name
  else ""

/-- Calls are not sent beside text. -/
def Stream.sendToolCallDelta (s : Stream) (callId name argsDelta : String) : Stream :=
  if callId = "" then s
  else if s.outputText ≠ "" then s
  else
    let s := s.sendStartIfNeeded
    let tool : ToolCallResponse :=
      ⟨some (s.toolCallIds.idxOf callId), callId, s.sentName callId name, argsDelta⟩
    { s.sendChatChunk (.toolCall tool) with
      toolCallIds := if callId ∈ s.toolCallIds then s.toolCallIds else s.toolCallIds ++ [callId]
      toolCallNameByID :=
        Function.update s.toolCallNameByID callId (s.toolCallName callId name)
      toolCallNameSent :=
        if tool.name ≠ "" then Function.update s.toolCallNameSent callId true
        else s.toolCallNameSent
      sawToolCall := true
      usageText := s.usageText ++ tool.name ++ argsDelta }

def Stream.outputTextDelta (s : Stream) (delta : String) : Stream :=
  let s := s.sendStartIfNeeded
  if delta = "" then s
  else
    { s with outputText := s.outputText ++ delta, usageText := s.usageText ++ delta }.sendChatChunk
      (.content delta)

/-- What is new in the arguments of an item. -/
def argsDelta (prevArgs newArgs : String) : String :=
  if hasPrefix newArgs prevArgs then String.ofList (newArgs.toList.drop prevArgs.toList.length)
  else newArgs

/-- What an item of a call leaves in the maps. -/
def Stream.recordItem (s : Stream) (item : ResponsesOutput) : Stream :=
  { s with
    toolCallCanonicalIDByItemID :=
      if trimSpace item.id ≠ "" ∧ item.toolCallId ≠ "" then
        Function.update s.toolCallCanonicalIDByItemID (trimSpace item.id) item.toolCallId
      else s.toolCallCanonicalIDByItemID
    toolCallNameByID :=
      if trimSpace item.name ≠ "" then
        Function.update s.toolCallNameByID item.toolCallId (trimSpace item.name)
      else s.toolCallNameByID
    toolCallArgsByID :=
      if item.arguments ≠ "" then
        Function.update s.toolCallArgsByID item.toolCallId item.arguments
      else s.toolCallArgsByID }

def Stream.itemArgsDelta (s : Stream) (item : ResponsesOutput) : String :=
  if item.arguments ≠ "" then argsDelta (s.toolCallArgsByID item.toolCallId) item.arguments
  else ""

def Stream.functionCallItem (s : Stream) (item : ResponsesOutput) : Stream :=
  (s.recordItem item).sendToolCallDelta item.toolCallId (trimSpace item.name)
    (s.itemArgsDelta item)

def Stream.recordDelta (s : Stream) (callId delta : String) : Stream :=
  { s with
    toolCallArgsByID :=
      Function.update s.toolCallArgsByID callId (s.toolCallArgsByID callId ++ delta) }

/-- The call id of an item, as far as it is known. -/
def Stream.canonicalCallId (s : Stream) (itemId : String) : String :=
  if s.toolCallCanonicalIDByItemID (trimSpace itemId) = "" then trimSpace itemId
  else s.toolCallCanonicalIDByItemID (trimSpace itemId)

def Stream.functionCallArgumentsDelta (s : Stream) (itemId delta : String) : Stream :=
  let callId := s.canonicalCallId itemId
  if callId = "" then s else (s.recordDelta callId delta).sendToolCallDelta callId "" delta

def Stream.finishReason (s : Stream) : String :=
  if s.sawToolCall ∧ s.outputText = "" then "tool_calls" else "stop"

def Stream.readResponse (s : Stream) (response : ResponsesResponse) : Stream :=
  { s with
    model := if response.model ≠ "" then response.model else s.model
    createAt := if response.createdAt ≠ 0 then response.createdAt else s.createAt }

def Stream.stopIfNeeded (s : Stream) : Stream :=
  if s.sentStop then s else { s.sendChatChunk (.stop s.finishReason) with sentStop := true }

def Stream.complete (s : Stream) (response : Option ResponsesResponse) : Stream :=
  let s :=
    match response with
    | some response =>
      let s := s.readResponse response
      { s with usage := (response.usage.map s.usage.read).getD s.usage }
    | none => s
  s.sendStartIfNeeded.stopIfNeeded

def streamError (type : String) (response : Option ResponsesResponse) : String :=
  match response.bind ResponsesResponse.error with
  | some oaiErr =>
    if oaiErr.type ≠ "" then oaiErr.message else "responses stream error: " ++ type
  | none => "responses stream error: " ++ type

def Stream.read (s : Stream) (event : Event) : Stream :=
  match event with
  | .created (some response) => s.readResponse response
  | .created none => s
  | .reasoningSummaryTextDelta delta => s.sendReasoningSummaryDelta delta
  | .reasoningSummaryTextDone =>
    if s.hasSentReasoningSummary then { s with needsReasoningSummarySeparator := true } else s
  | .outputTextDelta delta => s.outputTextDelta delta
  | .outputItem (some item) => if item.type ≠ "function_call" then s else s.functionCallItem item
  | .outputItem none => s
  | .functionCallArgumentsDelta itemId delta => s.functionCallArgumentsDelta itemId delta
  | .completed response => s.complete response
  | .failed type response => { s with streamErr := some (streamError type response) }
  | .other => s

/-- After an error nothing more is read. -/
def Stream.handle (s : Stream) (event : Event) : Stream :=
  if s.streamErr.isSome then s else s.read event

/-- What the handler reads of the request. -/
structure RelayInfo where
  createAt : ℤ
  upstreamModelName : String
  estimatePromptTokens : ℕ
  shouldIncludeUsage : Bool
  estimator : Estimator

/-- The end of the handler: the usage is estimated where none came. -/
def Stream.finish (info : RelayInfo) (s : Stream) : Usage × List Chunk :=
  let usage :=
    if s.usage.totalTokens = 0 then
      responseText2Usage info.estimator s.usageText info.estimatePromptTokens
    else s.usage
  let s := s.sendStartIfNeeded.stopIfNeeded
  (usage, if info.shouldIncludeUsage then (s.sendChatChunk (.usage usage)).chunks else s.chunks)

def oaiResponsesToChatStreamHandler (info : RelayInfo) (events : List Event) :
    Except String (Usage × List Chunk) :=
  let s := events.foldl Stream.handle (Stream.begin info.createAt info.upstreamModelName)
  match s.streamErr with
  | some streamErr => .error streamErr
  | none => .ok (s.finish info)

end Convert.Responses
