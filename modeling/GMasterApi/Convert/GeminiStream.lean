import GMasterApi.Convert.GeminiRequest
import GMasterApi.Convert.OpenAIStream

/-!
# OpenAI responses as Gemini responses, streamed or not

`StreamResponseOpenAI2Gemini` keeps nothing between two chunks, so each delta of a tool call
becomes a call of its own.  `intact_iff` says when a stream comes to the calls of the
response that `ResponseOpenAI2Gemini` converts as a whole.
-/

namespace Convert.Gemini

open JsonValue

/-! ## Responses -/

structure ToolCall where
  id : String
  name : String
  arguments : String
  deriving DecidableEq

structure Choice where
  index : ℤ
  finishReason : String
  content : String
  toolCalls : List ToolCall

structure OpenAITextResponse where
  choices : List Choice
  promptTokens : ℤ
  completionTokens : ℤ

/-- The tool calls may be a list without elements or not there. -/
structure StreamChoice where
  index : ℤ
  finishReason : Option String
  content : Option String
  toolCalls : Option (List ToolCallResponse)

def StreamChoice.getContentString (choice : StreamChoice) : String := choice.content.getD ""

structure StreamUsage where
  promptTokens : ℤ
  completionTokens : ℤ
  totalTokens : ℤ

structure StreamResponse where
  choices : List StreamChoice
  usage : Option StreamUsage

structure GeminiUsageMetadata where
  promptTokenCount : ℤ
  candidatesTokenCount : ℤ
  totalTokenCount : ℤ

structure GeminiChatCandidate where
  content : GeminiChatContent
  finishReason : Option String
  index : ℤ

structure GeminiChatResponse where
  candidates : List GeminiChatCandidate
  usageMetadata : GeminiUsageMetadata

def convertFinishReason (finishReason : String) : String :=
  if finishReason = "stop" then "STOP"
  else if finishReason = "length" then "MAX_TOKENS"
  else if finishReason = "content_filter" then "SAFETY"
  else if finishReason = "tool_calls" then "STOP"
  else "STOP"

section Conversions

-- `json.Unmarshal` into a map; `null` is the nil map
variable (unmarshal : String → Option Json)

def parseArguments (arguments : String) : Json :=
  if arguments ≠ "" then
    (unmarshal arguments).getD (.object [("arguments", .string arguments)])
  else .object []

def functionCallPart (name arguments : String) : GeminiPart where
  text := ""
  inlineData := none
  fileData := none
  functionCall := some ⟨name, parseArguments unmarshal arguments⟩
  functionResponse := none

def textParts (text : String) : List GeminiPart :=
  if text ≠ "" then [⟨text, none, none, none, none⟩] else []

/-! ## The response as a whole -/

def Choice.candidate (choice : Choice) : GeminiChatCandidate where
  index := choice.index
  finishReason := some (convertFinishReason choice.finishReason)
  content.role := "model"
  content.parts :=
    if 0 < choice.toolCalls.length then
      choice.toolCalls.map fun toolCall =>
        functionCallPart unmarshal toolCall.name toolCall.arguments
    else textParts choice.content

def responseOpenAI2Gemini (openAIResponse : OpenAITextResponse) : GeminiChatResponse where
  candidates := openAIResponse.choices.map (Choice.candidate unmarshal)
  usageMetadata.promptTokenCount := openAIResponse.promptTokens
  usageMetadata.candidatesTokenCount := openAIResponse.completionTokens
  usageMetadata.totalTokenCount := openAIResponse.promptTokens + openAIResponse.completionTokens

/-! ## The stream -/

def StreamChoice.candidate (choice : StreamChoice) : GeminiChatCandidate where
  index := choice.index
  finishReason := choice.finishReason.map convertFinishReason
  content.role := "model"
  content.parts :=
    match choice.toolCalls with
    | some toolCalls => toolCalls.map fun toolCall =>
        functionCallPart unmarshal toolCall.name toolCall.arguments
    | none => textParts choice.getContentString

def StreamChoice.hasContent (choice : StreamChoice) : Bool :=
  0 < choice.getContentString.length ∨ 0 < (choice.toolCalls.getD []).length

/-- `none` where there is nothing to send. -/
def streamResponseOpenAI2Gemini (estimatePromptTokens : ℤ) (openAIResponse : StreamResponse) :
    Option GeminiChatResponse :=
  let hasContent := openAIResponse.choices.any StreamChoice.hasContent
  let hasFinishReason := openAIResponse.choices.any fun choice => choice.finishReason.isSome
  if !hasContent && !hasFinishReason then none
  else
    some {
      candidates := openAIResponse.choices.map (StreamChoice.candidate unmarshal)
      usageMetadata :=
        match openAIResponse.usage with
        | some usage => ⟨usage.promptTokens, usage.completionTokens, usage.totalTokens⟩
        | none => ⟨estimatePromptTokens, 0, estimatePromptTokens⟩ }

end Conversions

/-! ## Segmented responses -/

/-- The deltas of a choice over the stream. -/
def toolCallDeltas (index : ℤ) (chunks : List StreamResponse) : List ToolCallResponse :=
  chunks.flatMap fun chunk =>
    (chunk.choices.filter fun choice => choice.index = index).flatMap fun choice =>
      choice.toolCalls.getD []

/-- Deltas that come to the tool calls: the first one of a call has its id and its name, and
each has a part of its arguments. -/
inductive Segments : List ToolCall → List ToolCallResponse → Prop
  | nil : Segments [] []
  | first {toolCalls : List ToolCall} {deltas : List ToolCallResponse}
      (h : Segments toolCalls deltas) (id name arguments : String) :
      Segments (toolCalls ++ [⟨id, name, arguments⟩])
        (deltas ++ [⟨some toolCalls.length, id, name, arguments⟩])
  | next {toolCalls : List ToolCall} {deltas : List ToolCallResponse}
      (h : Segments toolCalls deltas) (k : ℕ) (hk : k < toolCalls.length) (arguments : String) :
      Segments (toolCalls.modify k fun toolCall =>
          { toolCall with arguments := toolCall.arguments ++ arguments })
        (deltas ++ [⟨some k, "", "", arguments⟩])

/-- A response and a stream of it. -/
structure SegmentedResponse where
  response : OpenAITextResponse
  chunks : List StreamResponse
  segments : ∀ choice ∈ response.choices,
    Segments choice.toolCalls (toolCallDeltas choice.index chunks)

section Stream

variable (unmarshal : String → Option Json) (estimatePromptTokens : ℤ)

/-- The parts of a choice that are sent for a stream. -/
def sentParts (index : ℤ) (chunks : List StreamResponse) : List GeminiPart :=
  chunks.flatMap fun chunk =>
    match streamResponseOpenAI2Gemini unmarshal estimatePromptTokens chunk with
    | some response =>
      (response.candidates.filter fun candidate => candidate.index = index).flatMap
        fun candidate => candidate.content.parts
    | none => []

def functionCalls (parts : List GeminiPart) : List FunctionCall :=
  parts.filterMap GeminiPart.functionCall

def StreamChoice.carriesToolCalls (choice : StreamChoice) : Prop := choice.toolCalls.getD [] ≠ []

/-- The calls of the stream are those of the response, and text beside calls is sent. -/
structure Intact (segmented : SegmentedResponse) : Prop where
  calls : ∀ choice ∈ segmented.response.choices,
    functionCalls (sentParts unmarshal estimatePromptTokens choice.index segmented.chunks) =
      functionCalls (choice.candidate unmarshal).content.parts
  text : ∀ chunk ∈ segmented.chunks, ∀ (k : ℕ) (choice : StreamChoice),
    chunk.choices[k]? = some choice → choice.carriesToolCalls → choice.getContentString ≠ "" →
      ∃ response candidate,
        streamResponseOpenAI2Gemini unmarshal estimatePromptTokens chunk = some response ∧
        response.candidates[k]? = some candidate ∧
        choice.getContentString ∈ candidate.content.parts.map GeminiPart.text

/-- No call is cut, and text is not in a chunk with calls. -/
structure Uncut (segmented : SegmentedResponse) : Prop where
  calls : ∀ choice ∈ segmented.response.choices,
    (toolCallDeltas choice.index segmented.chunks).length = choice.toolCalls.length
  text : ∀ chunk ∈ segmented.chunks, ∀ choice ∈ chunk.choices,
    choice.carriesToolCalls → choice.getContentString = ""

/-! ## One call for each delta -/

theorem functionCalls_map {α : Type} (name arguments : α → String) (toolCalls : List α) :
    functionCalls (toolCalls.map fun toolCall =>
        functionCallPart unmarshal (name toolCall) (arguments toolCall)) =
      toolCalls.map fun toolCall =>
        ⟨name toolCall, parseArguments unmarshal (arguments toolCall)⟩ := by
  unfold functionCalls
  induction toolCalls with
  | nil => rfl
  | cons toolCall toolCalls ih =>
    rw [List.map_cons, List.map_cons, List.filterMap_cons, ih]
    rfl

theorem functionCalls_textParts (text : String) : functionCalls (textParts text) = [] := by
  unfold textParts
  split_ifs
  · rfl
  · rfl

theorem functionCalls_candidate (choice : Choice) :
    functionCalls (choice.candidate unmarshal).content.parts =
      choice.toolCalls.map fun toolCall =>
        ⟨toolCall.name, parseArguments unmarshal toolCall.arguments⟩ := by
  unfold Choice.candidate
  dsimp only
  split_ifs with h
  · exact functionCalls_map unmarshal ToolCall.name ToolCall.arguments choice.toolCalls
  · have hnil : choice.toolCalls = [] := List.length_eq_zero_iff.1 (by omega)
    rw [hnil, functionCalls_textParts]
    rfl

theorem functionCalls_streamCandidate (choice : StreamChoice) :
    functionCalls (choice.candidate unmarshal).content.parts =
      (choice.toolCalls.getD []).map fun toolCall =>
        ⟨toolCall.name, parseArguments unmarshal toolCall.arguments⟩ := by
  unfold StreamChoice.candidate
  cases choice.toolCalls with
  | some toolCalls =>
    exact functionCalls_map unmarshal ToolCallResponse.name ToolCallResponse.arguments toolCalls
  | none => exact functionCalls_textParts choice.getContentString

/-- A chunk that is not sent has no tool calls. -/
theorem stream_cases (chunk : StreamResponse) :
    (streamResponseOpenAI2Gemini unmarshal estimatePromptTokens chunk = none ∧
      ∀ choice ∈ chunk.choices, choice.toolCalls.getD [] = []) ∨
    ∃ response, streamResponseOpenAI2Gemini unmarshal estimatePromptTokens chunk =
        some response ∧
      response.candidates = chunk.choices.map (StreamChoice.candidate unmarshal) := by
  unfold streamResponseOpenAI2Gemini
  dsimp only
  split_ifs with h
  · refine Or.inl ⟨rfl, fun choice hchoice => ?_⟩
    rw [Bool.and_eq_true, Bool.not_eq_true', List.any_eq_false] at h
    have hcontent := h.1 choice hchoice
    unfold StreamChoice.hasContent at hcontent
    rw [decide_eq_true_eq, not_or] at hcontent
    exact List.length_eq_zero_iff.1 (by omega)
  · exact Or.inr ⟨_, rfl, rfl⟩

theorem functionCalls_sentParts (index : ℤ) (chunks : List StreamResponse) :
    functionCalls (sentParts unmarshal estimatePromptTokens index chunks) =
      (toolCallDeltas index chunks).map fun toolCall =>
        ⟨toolCall.name, parseArguments unmarshal toolCall.arguments⟩ := by
  unfold functionCalls sentParts toolCallDeltas
  rw [List.filterMap_flatMap, List.map_flatMap]
  refine List.flatMap_congr fun chunk _ => ?_
  rw [List.map_flatMap]
  rcases stream_cases unmarshal estimatePromptTokens chunk with
    ⟨hnone, hcalls⟩ | ⟨response, hsome, hcandidates⟩
  · rw [hnone]
    refine (List.flatMap_eq_nil_iff.2 fun choice hchoice => ?_).symm
    rw [hcalls choice (List.mem_filter.1 hchoice).1]
    rfl
  · rw [hsome]
    dsimp only
    rw [hcandidates, List.filter_map, List.flatMap_map, List.filterMap_flatMap]
    exact List.flatMap_congr fun choice _ => functionCalls_streamCandidate unmarshal choice

/-! ## Calls that are not cut -/

/-- There is a delta for each call, and where there are no more they are the calls. -/
theorem Segments.length_le {toolCalls : List ToolCall} {deltas : List ToolCallResponse}
    (h : Segments toolCalls deltas) : toolCalls.length ≤ deltas.length ∧
      (deltas.length = toolCalls.length →
        deltas.map (fun delta => (delta.name, delta.arguments)) =
          toolCalls.map fun toolCall => (toolCall.name, toolCall.arguments)) := by
  induction h with
  | nil => exact ⟨le_refl _, fun _ => rfl⟩
  | first _ id name arguments ih =>
    rw [List.length_append, List.length_append, List.length_singleton, List.length_singleton]
    refine ⟨by omega, fun hlength => ?_⟩
    rw [List.map_append, List.map_append, ih.2 (by omega)]
    rfl
  | next _ k hk arguments ih =>
    rw [List.length_append, List.length_modify, List.length_singleton]
    exact ⟨by omega, fun hlength => by omega⟩

theorem Segments.calls_iff {toolCalls : List ToolCall} {deltas : List ToolCallResponse}
    (h : Segments toolCalls deltas) :
    (deltas.map fun delta =>
        FunctionCall.mk delta.name (parseArguments unmarshal delta.arguments)) =
      (toolCalls.map fun toolCall =>
        FunctionCall.mk toolCall.name (parseArguments unmarshal toolCall.arguments)) ↔
      deltas.length = toolCalls.length := by
  constructor
  · intro heq
    have hlength := congrArg List.length heq
    rwa [List.length_map, List.length_map] at hlength
  · intro hlength
    have hcalls := congrArg (List.map fun call : String × String =>
      FunctionCall.mk call.1 (parseArguments unmarshal call.2)) (h.length_le.2 hlength)
    rwa [List.map_map, List.map_map] at hcalls

/-- In a candidate with calls there is no text. -/
theorem text_eq_empty_of_carriesToolCalls {choice : StreamChoice}
    (hcalls : choice.carriesToolCalls) {text : String}
    (h : text ∈ (choice.candidate unmarshal).content.parts.map GeminiPart.text) : text = "" := by
  unfold StreamChoice.carriesToolCalls at hcalls
  unfold StreamChoice.candidate at h
  cases htoolCalls : choice.toolCalls with
  | none =>
    rw [htoolCalls] at hcalls
    exact absurd rfl hcalls
  | some toolCalls =>
    rw [htoolCalls] at h
    obtain ⟨part, hpart, rfl⟩ := List.mem_map.1 h
    obtain ⟨toolCall, -, rfl⟩ := List.mem_map.1 hpart
    rfl

/-- A **stream** is intact exactly where each call comes in one delta, and text in chunks
without calls. -/
theorem intact_iff (segmented : SegmentedResponse) :
    Intact unmarshal estimatePromptTokens segmented ↔ Uncut segmented := by
  have hcalls : ∀ choice ∈ segmented.response.choices,
      (functionCalls (sentParts unmarshal estimatePromptTokens choice.index segmented.chunks) =
          functionCalls (choice.candidate unmarshal).content.parts ↔
        (toolCallDeltas choice.index segmented.chunks).length = choice.toolCalls.length) := by
    intro choice hchoice
    rw [functionCalls_sentParts, functionCalls_candidate]
    exact (segmented.segments choice hchoice).calls_iff unmarshal
  constructor
  · intro h
    refine ⟨fun choice hchoice => (hcalls choice hchoice).1 (h.calls choice hchoice), ?_⟩
    intro chunk hchunk choice hchoice hcarries
    by_contra htext
    obtain ⟨k, hk⟩ := List.getElem?_of_mem hchoice
    obtain ⟨response, candidate, hsome, hcandidate, hmem⟩ :=
      h.text chunk hchunk k choice hk hcarries htext
    rcases stream_cases unmarshal estimatePromptTokens chunk with
      ⟨hnone, -⟩ | ⟨response', hsome', hcandidates⟩
    · rw [hnone] at hsome
      cases hsome
    · rw [hsome'] at hsome
      cases hsome
      rw [hcandidates, List.getElem?_map, hk] at hcandidate
      cases hcandidate
      exact htext (text_eq_empty_of_carriesToolCalls unmarshal hcarries hmem)
  · intro h
    refine ⟨fun choice hchoice => (hcalls choice hchoice).2 (h.calls choice hchoice), ?_⟩
    intro chunk hchunk k choice hk hcarries htext
    exact absurd (h.text chunk hchunk choice (List.mem_of_getElem? hk) hcarries) htext

end Stream

/-- The arguments of a call come in two deltas, and two calls are sent. -/
def cutCall : SegmentedResponse where
  response :=
    ⟨[⟨0, "tool_calls", "", [⟨"call_a", "get_weather", "\x7b\"city\": \"Rome\"\x7d"⟩]⟩], 9, 5⟩
  chunks :=
    [⟨[⟨0, none, none, some [⟨some 0, "call_a", "get_weather", "\x7b\"city\": "⟩]⟩], none⟩,
    ⟨[⟨0, none, none, some [⟨some 0, "", "", "\"Rome\"\x7d"⟩]⟩], none⟩,
    ⟨[⟨0, some "tool_calls", none, none⟩], none⟩]
  segments := by
    intro choice hchoice
    cases List.mem_singleton.1 hchoice
    exact .next (.first .nil "call_a" "get_weather" "\x7b\"city\": ") 0 (by decide)
      "\"Rome\"\x7d"

/-- `json.Unmarshal`, which fails on each delta. -/
def unmarshalWeather (arguments : String) : Option Json :=
  if arguments = "\x7b\"city\": \"Rome\"\x7d" then some (.object [("city", .string "Rome")])
  else none

theorem cutCall_not_intact : ¬ Intact unmarshalWeather 9 cutCall := by
  intro h
  have hlength := congrArg List.length (h.calls _ List.mem_cons_self)
  exact absurd hlength (by decide)

end Convert.Gemini
