import GMasterApi.Convert.ClaudeEvents
import GMasterApi.Lib.Transition

/-!
# OpenAI chunks as Claude events

`StreamResponseOpenAI2Claude` answers each chunk of an OpenAI stream with events of Claude.
What it remembers between two chunks is a `Conversion`, which keeps also the events that
were sent and the chunks that came.  `Handling` says how a chunk reaches the conversion: by
`HandleStreamFormat`, or, the last one of `OaiStreamHandler`, by `HandleFinalResponse`.
-/

namespace Convert

open Transition

/-! ## Chunks -/

/-- The fields of `dto.Usage` that a `ClaudeUsage` is built from. -/
structure OpenAIUsage where
  promptTokens : ℤ
  completionTokens : ℤ
  cachedTokens : ℤ
  cachedCreationTokens : ℤ
  claudeCacheCreation5mTokens : ℤ
  claudeCacheCreation1hTokens : ℤ
  deriving DecidableEq

structure ToolCallResponse where
  index : Option ℤ
  id : String
  name : String
  arguments : String
  deriving DecidableEq

structure ChunkDelta where
  content : Option String
  reasoningContent : Option String
  reasoning : Option String
  toolCalls : List ToolCallResponse
  deriving DecidableEq

def ChunkDelta.getContentString (delta : ChunkDelta) : String := delta.content.getD ""

def ChunkDelta.getReasoningContent (delta : ChunkDelta) : String :=
  match delta.reasoningContent with
  | some reasoning => reasoning
  | none => delta.reasoning.getD ""

structure Choice where
  delta : ChunkDelta
  finishReason : Option String
  deriving DecidableEq

/-- A chunk of one choice; without one it may carry the usage. -/
structure Chunk where
  id : String
  model : String
  choice : Option Choice
  usage : Option OpenAIUsage
  deriving DecidableEq

/-- The reason is there and not empty. -/
def Choice.done (choice : Choice) : Bool := choice.finishReason.getD "" ≠ ""

/-! ## `StreamResponseOpenAI2Claude` -/

inductive LastMessagesType
  | none
  | text
  | tools
  | thinking
  deriving DecidableEq

/-- `ClaudeConvertInfo` and what else of `RelayInfo` is used, the events sent so far and the
chunks that came. -/
structure Conversion where
  estimatePromptTokens : ℤ
  sendResponseCount : ℕ
  lastMessagesType : LastMessagesType
  index : ℤ
  usage : Option OpenAIUsage
  finishReason : String
  done : Bool
  toolCallBaseIndex : ℤ
  toolCallMaxIndexOffset : ℤ
  events : List Event
  chunks : List Chunk

/-- `GenRelayInfoClaude`. -/
def Conversion.start (estimatePromptTokens : ℤ) : Conversion :=
  ⟨estimatePromptTokens, 0, .none, 0, none, "", false, 0, 0, [], []⟩

def Conversion.emit (s : Conversion) (event : Event) : Conversion :=
  { s with events := s.events ++ [event] }

def normalizeCacheCreationSplit (totalTokens tokens5m tokens1h : ℤ) : ℤ × ℤ :=
  (tokens5m + max (totalTokens - tokens5m - tokens1h) 0, tokens1h)

def buildClaudeUsageFromOpenAIUsage (oaiUsage : OpenAIUsage) : ClaudeUsage :=
  let (cacheCreation5m, cacheCreation1h) := normalizeCacheCreationSplit
    oaiUsage.cachedCreationTokens oaiUsage.claudeCacheCreation5mTokens
    oaiUsage.claudeCacheCreation1hTokens
  { inputTokens := oaiUsage.promptTokens
    outputTokens := oaiUsage.completionTokens
    cacheCreationInputTokens := oaiUsage.cachedCreationTokens
    cacheReadInputTokens := oaiUsage.cachedTokens
    cacheCreation :=
      if 0 < cacheCreation5m ∨ 0 < cacheCreation1h then some ⟨cacheCreation5m, cacheCreation1h⟩
      else none }

/-- The stops of the tool blocks from `base` on. -/
def Conversion.stopTools (base : ℤ) : ℕ → Conversion → Conversion
  | 0, s => s
  | n + 1, s => (stopTools base n s).emit (.contentBlockStop (base + n))

def Conversion.stopOpenBlocks (s : Conversion) : Conversion :=
  match s.lastMessagesType with
  | .text => s.emit (.contentBlockStop s.index)
  | .thinking => s.emit (.contentBlockStop s.index)
  | .tools => s.stopTools s.toolCallBaseIndex (s.toolCallMaxIndexOffset + 1).toNat
  | .none => s

def Conversion.stopOpenBlocksAndAdvance (s : Conversion) : Conversion :=
  match s.lastMessagesType with
  | .none => s
  | .tools =>
    { s.stopOpenBlocks with
      index := s.toolCallBaseIndex + s.toolCallMaxIndexOffset + 1
      toolCallBaseIndex := 0
      toolCallMaxIndexOffset := 0
      lastMessagesType := .none }
  | .text => { s.stopOpenBlocks with index := s.index + 1, lastMessagesType := .none }
  | .thinking => { s.stopOpenBlocks with index := s.index + 1, lastMessagesType := .none }

/-- The blocks are stopped and the message ends, with its usage where there is one. -/
def Conversion.finish (s : Conversion) (oaiUsage : Option OpenAIUsage) (stopReason : String) :
    Conversion :=
  let s := s.stopOpenBlocks
  let s := match oaiUsage with
    | some oaiUsage => s.emit (.messageDelta stopReason (buildClaudeUsageFromOpenAIUsage oaiUsage))
    | none => s
  { s.emit .messageStop with done := true }

/-- The first tool call of the first chunk. -/
def Conversion.firstToolCall (s : Conversion) (toolCall : ToolCallResponse) : Conversion :=
  let s := { s with
    lastMessagesType := .tools, toolCallBaseIndex := 0, toolCallMaxIndexOffset := 0 }
  let s := s.emit (.contentBlockStart 0 (.toolUse toolCall.id toolCall.name))
  if toolCall.arguments ≠ "" then
    s.emit (.contentBlockDelta 0 (.inputJsonDelta toolCall.arguments))
  else s

/-- A block with its first delta, in the first chunk. -/
def Conversion.firstBlock (s : Conversion) (type : LastMessagesType) (block : ContentBlock)
    (delta : Delta) : Conversion :=
  let s := if s.lastMessagesType ≠ type then s.stopOpenBlocksAndAdvance else s
  let s := s.emit (.contentBlockStart s.index block)
  let s := s.emit (.contentBlockDelta s.index delta)
  { s with lastMessagesType := type }

/-- `SendResponseCount` is 1. -/
def Conversion.firstChunk (s : Conversion) (chunk : Chunk) : Conversion :=
  let s := s.emit (.messageStart chunk.id chunk.model s.estimatePromptTokens)
  match chunk.choice with
  | none => s
  | some choice =>
    let s := match choice.delta.toolCalls with
      | [] => s
      | toolCall :: _ => s.firstToolCall toolCall
    let reasoning := choice.delta.getReasoningContent
    let content := choice.delta.getContentString
    let s :=
      if reasoning ≠ "" then s.firstBlock .thinking .thinking (.thinkingDelta reasoning)
      else if content ≠ "" then s.firstBlock .text .text (.textDelta content)
      else s
    if choice.done then
      let s := { s with finishReason := choice.finishReason.getD "" }
      s.finish (chunk.usage.or s.usage) (stopReasonOpenAI2Claude s.finishReason)
    else s

/-- A fragment of a tool call, the `i`th of its chunk. -/
def Conversion.toolFragment (s : Conversion) (i : ℕ) (toolCall : ToolCallResponse) : Conversion :=
  let offset := toolCall.index.getD i
  let s := { s with toolCallMaxIndexOffset := max s.toolCallMaxIndexOffset offset }
  let blockIndex := s.toolCallBaseIndex + offset
  let s :=
    if toolCall.name ≠ "" then
      s.emit (.contentBlockStart blockIndex (.toolUse toolCall.id toolCall.name))
    else s
  if toolCall.arguments ≠ "" then
    s.emit (.contentBlockDelta blockIndex (.inputJsonDelta toolCall.arguments))
  else s

def Conversion.toolFragments : ℕ → List ToolCallResponse → Conversion → Conversion
  | _, [], s => s
  | i, toolCall :: toolCalls, s => toolFragments (i + 1) toolCalls (s.toolFragment i toolCall)

def Conversion.laterToolCalls (s : Conversion) (toolCalls : List ToolCallResponse) : Conversion :=
  let s :=
    if s.lastMessagesType ≠ .tools then
      let s := s.stopOpenBlocksAndAdvance
      { s with toolCallBaseIndex := s.index, toolCallMaxIndexOffset := 0 }
    else s
  let s := toolFragments 0 toolCalls { s with lastMessagesType := .tools }
  { s with index := s.toolCallBaseIndex + s.toolCallMaxIndexOffset }

/-- A delta in a later chunk, with the start of its block where another is open. -/
def Conversion.laterDelta (s : Conversion) (type : LastMessagesType) (block : ContentBlock)
    (delta : Delta) : Conversion :=
  let s :=
    if s.lastMessagesType ≠ type then
      let s := s.stopOpenBlocksAndAdvance
      s.emit (.contentBlockStart s.index block)
    else s
  let s := { s with lastMessagesType := type }
  s.emit (.contentBlockDelta s.index delta)

/-- `SendResponseCount` is not 1. -/
def Conversion.laterChunk (s : Conversion) (chunk : Chunk) : Conversion :=
  match chunk.choice with
  | none =>
    match chunk.usage.or s.usage with
    | some oaiUsage =>
      let stopReason := stopReasonOpenAI2Claude s.finishReason
      s.finish (some oaiUsage) (if stopReason = "" then "end_turn" else stopReason)
    | none => s
  | some choice =>
    let s := if choice.done then { s with finishReason := choice.finishReason.getD "" } else s
    -- the closing is put off to a chunk with the usage, and the delta is passed over
    if choice.done ∧ chunk.usage = none then s
    else
      let reasoning := choice.delta.getReasoningContent
      let textContent := choice.delta.getContentString
      let s :=
        if choice.delta.toolCalls ≠ [] then s.laterToolCalls choice.delta.toolCalls
        else if reasoning ≠ "" then s.laterDelta .thinking .thinking (.thinkingDelta reasoning)
        else if textContent ≠ "" then s.laterDelta .text .text (.textDelta textContent)
        else s
      if choice.done then s.finish (chunk.usage.or s.usage) (stopReasonOpenAI2Claude s.finishReason)
      else s

def Conversion.streamResponseOpenAI2Claude (s : Conversion) (chunk : Chunk) : Conversion :=
  if s.done then s
  else if s.sendResponseCount = 1 then s.firstChunk chunk
  else s.laterChunk chunk

/-! ## Handlers -/

/-- What a handler does next: `HandleStreamFormat` with a chunk, the assignment of
`ClaudeConvertInfo.Usage` before the stop chunk of `OaiResponsesToChatStreamHandler`, or
`HandleFinalResponse` with the last chunk and the final usage. -/
inductive Handling
  | handleStreamFormat (chunk : Chunk)
  | setUsage (usage : OpenAIUsage)
  | handleFinalResponse (chunk : Chunk) (usage : OpenAIUsage)
  deriving DecidableEq

/-- The state in which `StreamResponseOpenAI2Claude` finds a chunk. -/
def Conversion.receive (s : Conversion) : Handling → Conversion
  | .handleStreamFormat chunk =>
    { s with
      sendResponseCount := s.sendResponseCount + 1
      usage := chunk.usage.or s.usage
      chunks := s.chunks ++ [chunk] }
  | .setUsage usage => { s with usage := some usage }
  | .handleFinalResponse chunk usage =>
    { s with usage := some usage, chunks := s.chunks ++ [chunk] }

def Conversion.handle (s : Conversion) : Handling → Conversion
  | .handleStreamFormat chunk =>
    (s.receive (.handleStreamFormat chunk)).streamResponseOpenAI2Claude chunk
  | .setUsage usage => s.receive (.setUsage usage)
  | .handleFinalResponse chunk usage =>
    { (s.receive (.handleFinalResponse chunk usage)).streamResponseOpenAI2Claude chunk with
      done := true }

def conversion : System Conversion Handling := ⟨fun s h => some (s.handle h)⟩

/-- The two handlers that convert a stream to Claude. -/
inductive StreamHandler
  | oaiStreamHandler
  | oaiResponsesToChatStreamHandler
  deriving DecidableEq

/-- What a handler does with the chunks of a stream and the usage it has found. -/
def StreamHandler.handlings (handler : StreamHandler) (chunks : List Chunk) (last : Chunk)
    (usage : OpenAIUsage) : List Handling :=
  chunks.map .handleStreamFormat ++
    match handler with
    | .oaiStreamHandler => [.handleFinalResponse last usage]
    | .oaiResponsesToChatStreamHandler => [.setUsage usage, .handleStreamFormat last]

/-- The state when the last chunk has been handled. -/
def StreamHandler.converted (handler : StreamHandler) (estimatePromptTokens : ℤ)
    (chunks : List Chunk) (last : Chunk) (usage : OpenAIUsage) : Conversion :=
  (handler.handlings chunks last usage).foldl Conversion.handle (.start estimatePromptTokens)

theorem run_conversion (handlings : List Handling) (s : Conversion) :
    conversion.run s handlings = some (handlings.foldl Conversion.handle s) := by
  induction handlings generalizing s with
  | nil => rfl
  | cons h handlings ih =>
    rw [System.run_cons]
    exact ih (s.handle h)

/-! ## What is left alone -/

/-- What neither blocks nor deltas change. -/
structure Kept where
  sendResponseCount : ℕ
  usage : Option OpenAIUsage
  done : Bool
  chunks : List Chunk

def Conversion.kept (s : Conversion) : Kept := ⟨s.sendResponseCount, s.usage, s.done, s.chunks⟩

section Kept

variable (s : Conversion) (last : LastMessagesType) (block : ContentBlock) (delta : Delta)

theorem kept_stopTools (base : ℤ) (n : ℕ) : (s.stopTools base n).kept = s.kept := by
  induction n with
  | zero => rfl
  | succ n ih => exact ih

theorem kept_stopOpenBlocks : s.stopOpenBlocks.kept = s.kept := by
  unfold Conversion.stopOpenBlocks
  split
  · rfl
  · rfl
  · exact kept_stopTools _ _ _
  · rfl

theorem kept_stopOpenBlocksAndAdvance : s.stopOpenBlocksAndAdvance.kept = s.kept := by
  unfold Conversion.stopOpenBlocksAndAdvance
  split
  · rfl
  · exact kept_stopOpenBlocks s
  · exact kept_stopOpenBlocks s
  · exact kept_stopOpenBlocks s

theorem kept_firstToolCall (toolCall : ToolCallResponse) :
    (s.firstToolCall toolCall).kept = s.kept := by
  unfold Conversion.firstToolCall
  dsimp only
  split <;> rfl

theorem kept_firstBlock : (s.firstBlock last block delta).kept = s.kept := by
  unfold Conversion.firstBlock
  dsimp only
  split
  · exact kept_stopOpenBlocksAndAdvance s
  · rfl

theorem kept_laterDelta : (s.laterDelta last block delta).kept = s.kept := by
  unfold Conversion.laterDelta
  dsimp only
  split
  · exact kept_stopOpenBlocksAndAdvance s
  · rfl

theorem toolFragment_frame (i : ℕ) (toolCall : ToolCallResponse) :
    (s.toolFragment i toolCall).lastMessagesType = s.lastMessagesType ∧
      (s.toolFragment i toolCall).toolCallBaseIndex = s.toolCallBaseIndex ∧
      (s.toolFragment i toolCall).toolCallMaxIndexOffset =
        max s.toolCallMaxIndexOffset (toolCall.index.getD i) := by
  unfold Conversion.toolFragment
  dsimp only
  split <;> split <;> exact ⟨rfl, rfl, rfl⟩

theorem kept_toolFragments (toolCalls : List ToolCallResponse) (i : ℕ) :
    (s.toolFragments i toolCalls).kept = s.kept := by
  induction toolCalls generalizing i s with
  | nil => rfl
  | cons toolCall toolCalls ih =>
    refine (ih _ _).trans ?_
    unfold Conversion.toolFragment
    dsimp only
    split <;> split <;> rfl

theorem kept_laterToolCalls (toolCalls : List ToolCallResponse) :
    (s.laterToolCalls toolCalls).kept = s.kept := by
  unfold Conversion.laterToolCalls
  dsimp only
  refine (kept_toolFragments _ _ _).trans ?_
  split
  · exact kept_stopOpenBlocksAndAdvance s
  · rfl

/-- The end of a message leaves alone all but `done`. -/
theorem kept_finish (oaiUsage : Option OpenAIUsage) (stopReason : String) :
    (s.finish oaiUsage stopReason).kept = { s.kept with done := true } := by
  have hstop := congrArg (fun k : Kept => { k with done := true }) (kept_stopOpenBlocks s)
  unfold Conversion.finish
  cases oaiUsage with
  | none => exact hstop
  | some oaiUsage => exact hstop

end Kept

/-! ## A chunk in two parts -/

/-- The two types of message that stream text, each with its block and its delta. -/
inductive Textual : LastMessagesType → ContentBlock → Delta → Prop
  | text (s : String) : Textual .text .text (.textDelta s)
  | thinking (s : String) : Textual .thinking .thinking (.thinkingDelta s)

/-- The start of the message and the tool call of the first chunk. -/
def Conversion.firstTools (s : Conversion) (chunk : Chunk) (choice : Choice) : Conversion :=
  let s := s.emit (.messageStart chunk.id chunk.model s.estimatePromptTokens)
  match choice.delta.toolCalls with
  | [] => s
  | toolCall :: _ => s.firstToolCall toolCall

/-- A first chunk up to its `finish_reason`. -/
def Conversion.firstDelta (s : Conversion) (chunk : Chunk) (choice : Choice) : Conversion :=
  let s := s.firstTools chunk choice
  if choice.delta.getReasoningContent ≠ "" then
    s.firstBlock .thinking .thinking (.thinkingDelta choice.delta.getReasoningContent)
  else if choice.delta.getContentString ≠ "" then
    s.firstBlock .text .text (.textDelta choice.delta.getContentString)
  else s

/-- The delta of a later chunk. -/
def Conversion.laterDeltas (s : Conversion) (delta : ChunkDelta) : Conversion :=
  if delta.toolCalls ≠ [] then s.laterToolCalls delta.toolCalls
  else if delta.getReasoningContent ≠ "" then
    s.laterDelta .thinking .thinking (.thinkingDelta delta.getReasoningContent)
  else if delta.getContentString ≠ "" then
    s.laterDelta .text .text (.textDelta delta.getContentString)
  else s

/-- Before the fragments of a chunk the blocks of other types are closed. -/
def Conversion.enterTools (s : Conversion) : Conversion :=
  { (if s.lastMessagesType ≠ .tools then
      { s.stopOpenBlocksAndAdvance with
        toolCallBaseIndex := s.stopOpenBlocksAndAdvance.index, toolCallMaxIndexOffset := 0 }
    else s) with lastMessagesType := .tools }

/-- The `finish_reason` of a choice that has one. -/
def Conversion.withFinishReason (s : Conversion) (choice : Choice) : Conversion :=
  if choice.done then { s with finishReason := choice.finishReason.getD "" } else s

/-- What follows the delta of a chunk. -/
def Conversion.finishIf (s : Conversion) (chunk : Chunk) (choice : Choice) : Conversion :=
  if choice.done then s.finish (chunk.usage.or s.usage) (stopReasonOpenAI2Claude s.finishReason)
  else s

variable {s : Conversion} {chunk : Chunk} {choice : Choice}

theorem firstChunk_none (h : chunk.choice = none) :
    s.firstChunk chunk = s.emit (.messageStart chunk.id chunk.model s.estimatePromptTokens) := by
  unfold Conversion.firstChunk
  rw [h]

theorem firstChunk_some (h : chunk.choice = some choice) :
    s.firstChunk chunk =
      ((s.firstDelta chunk choice).withFinishReason choice).finishIf chunk choice := by
  unfold Conversion.firstChunk Conversion.finishIf Conversion.withFinishReason
  rw [h]
  by_cases hdone : choice.done = true
  · simp only [if_pos hdone]
    rfl
  · simp only [if_neg hdone]
    rfl

theorem laterChunk_some (h : chunk.choice = some choice) :
    s.laterChunk chunk =
      if choice.done ∧ chunk.usage = none then s.withFinishReason choice
      else ((s.withFinishReason choice).laterDeltas choice.delta).finishIf chunk choice := by
  unfold Conversion.laterChunk
  rw [h]
  rfl

theorem laterToolCalls_eq (s : Conversion) (toolCalls : List ToolCallResponse) :
    s.laterToolCalls toolCalls =
      { s.enterTools.toolFragments 0 toolCalls with
        index := (s.enterTools.toolFragments 0 toolCalls).toolCallBaseIndex +
          (s.enterTools.toolFragments 0 toolCalls).toolCallMaxIndexOffset } := rfl

theorem kept_firstTools : (s.firstTools chunk choice).kept = s.kept := by
  unfold Conversion.firstTools
  dsimp only
  split
  · rfl
  · exact kept_firstToolCall _ _

theorem kept_firstDelta : (s.firstDelta chunk choice).kept = s.kept := by
  unfold Conversion.firstDelta
  dsimp only
  split
  · exact (kept_firstBlock _ _ _ _).trans kept_firstTools
  · split
    · exact (kept_firstBlock _ _ _ _).trans kept_firstTools
    · exact kept_firstTools

theorem kept_laterDeltas (delta : ChunkDelta) : (s.laterDeltas delta).kept = s.kept := by
  unfold Conversion.laterDeltas
  split
  · exact kept_laterToolCalls _ _
  · split
    · exact kept_laterDelta _ _ _ _
    · split
      · exact kept_laterDelta _ _ _ _
      · rfl

theorem kept_withFinishReason : (s.withFinishReason choice).kept = s.kept := by
  unfold Conversion.withFinishReason
  split <;> rfl

theorem kept_finishIf (s : Conversion) (chunk : Chunk) (choice : Choice) :
    ∃ done, (s.finishIf chunk choice).kept = { s.kept with done := done } := by
  unfold Conversion.finishIf
  split
  · exact ⟨true, kept_finish _ _ _⟩
  · exact ⟨s.done, rfl⟩

theorem kept_firstChunk (s : Conversion) (chunk : Chunk) :
    ∃ done, (s.firstChunk chunk).kept = { s.kept with done := done } := by
  cases hchoice : chunk.choice with
  | none =>
    rw [firstChunk_none hchoice]
    exact ⟨s.done, rfl⟩
  | some choice =>
    rw [firstChunk_some hchoice]
    obtain ⟨done, hkept⟩ := kept_finishIf ((s.firstDelta chunk choice).withFinishReason choice)
      chunk choice
    rw [kept_withFinishReason, kept_firstDelta] at hkept
    exact ⟨done, hkept⟩

theorem kept_laterChunk (s : Conversion) (chunk : Chunk) :
    ∃ done, (s.laterChunk chunk).kept = { s.kept with done := done } := by
  cases hchoice : chunk.choice with
  | none =>
    unfold Conversion.laterChunk
    rw [hchoice]
    dsimp only
    split
    · exact ⟨true, kept_finish _ _ _⟩
    · exact ⟨s.done, rfl⟩
  | some choice =>
    rw [laterChunk_some hchoice]
    split
    · exact ⟨s.done, kept_withFinishReason⟩
    · obtain ⟨done, hkept⟩ := kept_finishIf ((s.withFinishReason choice).laterDeltas choice.delta)
        chunk choice
      rw [kept_laterDeltas, kept_withFinishReason] at hkept
      exact ⟨done, hkept⟩

end Convert
