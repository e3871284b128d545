import GMasterApi.Convert.StreamContent
import GMasterApi.Lib.JsonValue
import GMasterApi.Lib.Pieces

/-!
# Claude responses, streamed or not

`StreamResponseClaude2OpenAI` converts a message event by event, `ResponseClaude2OpenAI`
converts it as a whole.  A `SegmentedMessage` is a message together with a way of cutting it
into events, and `agrees_iff` says when both conversions come to the same.
-/

namespace Convert.Claude

open JsonValue Pieces

/-! ## The message as a whole -/

inductive MessageBlock
  | text (text : String)
  | thinking (thinking : String)
  | toolUse (id name : String) (input : Json)

def MessageBlock.getText : MessageBlock → String
  | .text content => content
  | .thinking _ => ""
  | .toolUse _ _ _ => ""

def MessageBlock.getThinking : MessageBlock → Option String
  | .thinking content => some content
  | .text _ => none
  | .toolUse _ _ _ => none

structure ClaudeResponse where
  id : String
  model : String
  stopReason : String
  content : List MessageBlock

structure OpenAITextResponse where
  id : String
  model : String
  content : String
  reasoningContent : Option String
  toolCalls : List ToolCallResponse
  finishReason : String

section Whole

-- `json.Marshal` of the input of a tool use
variable (marshal : Json → String)

/-- `responseText`, `thinkingContent` and `tools` of `ResponseClaude2OpenAI`. -/
structure Collected where
  responseText : String
  thinkingContent : String
  tools : List ToolCallResponse

def Collected.add (collected : Collected) : MessageBlock → Collected
  | .toolUse id name input =>
    { collected with tools := collected.tools ++ [⟨none, id, name, marshal input⟩] }
  | .thinking content => { collected with thinkingContent := content }
  | .text content => { collected with responseText := content }

def responseClaude2OpenAI (claudeResponse : ClaudeResponse) : OpenAITextResponse :=
  let responseText := (claudeResponse.content.head?.map MessageBlock.getText).getD ""
  let responseThinking := (claudeResponse.content.head?.bind MessageBlock.getThinking).getD ""
  let collected := claudeResponse.content.foldl (Collected.add marshal) ⟨responseText, "", []⟩
  { id := claudeResponse.id
    model := claudeResponse.model
    content := collected.responseText
    reasoningContent :=
      if collected.thinkingContent ≠ "" then some collected.thinkingContent
      else if responseThinking ≠ "" then some responseThinking
      else none
    toolCalls := collected.tools
    finishReason := stopReasonClaude2OpenAI claudeResponse.stopReason }

end Whole

/-! ## The message event by event -/

/-- The block of a `content_block_start`. -/
inductive BlockStart
  | text (text : String)
  | thinking (thinking : String)
  | toolUse (id name : String) (input : Json)

inductive BlockDelta
  | textDelta (text : String)
  | thinkingDelta (thinking : String)
  | signatureDelta (signature : String)
  | inputJsonDelta (partialJson : String)

inductive StreamEvent
  | messageStart (id model : String)
  | contentBlockStart (index : ℤ) (block : BlockStart)
  | contentBlockDelta (index : ℤ) (delta : BlockDelta)
  | contentBlockStop (index : ℤ)
  | messageDelta (stopReason : Option String)
  | messageStop

def StreamEvent.isSignature : StreamEvent → Bool
  | .contentBlockDelta _ (.signatureDelta _) => true
  | _ => false

/-- A chunk of one choice. -/
def chunkOf (delta : ChunkDelta) (finishReason : Option String) : Chunk :=
  ⟨"", "", some ⟨delta, finishReason⟩, none⟩

def streamResponseClaude2OpenAI : StreamEvent → Option Chunk
  | .messageStart id model => some ⟨id, model, some ⟨⟨some "", none, none, []⟩, none⟩, none⟩
  | .contentBlockStart index block =>
    match block with
    | .text content => some (chunkOf ⟨some content, none, none, []⟩ none)
    | .thinking _ => some (chunkOf ⟨none, none, none, []⟩ none)
    | .toolUse id name _ => some (chunkOf ⟨none, none, none, [⟨some index, id, name, ""⟩]⟩ none)
  | .contentBlockDelta index delta =>
    match delta with
    | .textDelta content => some (chunkOf ⟨some content, none, none, []⟩ none)
    | .thinkingDelta content => some (chunkOf ⟨none, some content, none, []⟩ none)
    | .signatureDelta _ => some (chunkOf ⟨none, some "\n", none, []⟩ none)
    | .inputJsonDelta partialJson =>
      some (chunkOf ⟨none, none, none, [⟨some index, "", "", partialJson⟩]⟩ none)
  | .contentBlockStop _ => none
  | .messageDelta stopReason =>
    let finishReason := stopReason.map stopReasonClaude2OpenAI
    some (chunkOf ⟨none, none, none, []⟩ (finishReason.filter (· ≠ "null")))
  | .messageStop => none

/-- What a client puts together from the chunks. -/
def received (events : List StreamEvent) (start : Received) : Received :=
  (events.filterMap streamResponseClaude2OpenAI).foldl Received.add start

/-- The last `finish_reason` of the chunks. -/
def finishReason (events : List StreamEvent) : Option String :=
  ((events.filterMap streamResponseClaude2OpenAI).filterMap fun chunk =>
    chunk.choice.bind Choice.finishReason).getLast?

/-! ## Segmentations -/

inductive ThinkingPart
  | thinking (thinking : String)
  | signature (signature : String)

/-- A block with the text of its start and those of its deltas. -/
inductive SegmentedBlock
  | text (start : String) (deltas : List String)
  | thinking (start : String) (deltas : List ThinkingPart)
  | toolUse (id name : String) (start input : Json) (deltas : List String)

structure SegmentedMessage where
  id : String
  model : String
  stopReason : String
  blocks : List SegmentedBlock

/-- What a part adds to the thinking. -/
def ThinkingPart.text : ThinkingPart → String
  | .thinking content => content
  | .signature _ => ""

def ThinkingPart.delta : ThinkingPart → BlockDelta
  | .thinking content => .thinkingDelta content
  | .signature content => .signatureDelta content

def SegmentedBlock.whole : SegmentedBlock → MessageBlock
  | .text start deltas => .text (start ++ String.join deltas)
  | .thinking start deltas => .thinking (start ++ String.join (deltas.map ThinkingPart.text))
  | .toolUse id name _ input _ => .toolUse id name input

def SegmentedBlock.start : SegmentedBlock → BlockStart
  | .text start _ => .text start
  | .thinking start _ => .thinking start
  | .toolUse id name start _ _ => .toolUse id name start

def SegmentedBlock.deltas : SegmentedBlock → List BlockDelta
  | .text _ deltas => deltas.map .textDelta
  | .thinking _ deltas => deltas.map ThinkingPart.delta
  | .toolUse _ _ _ _ deltas => deltas.map .inputJsonDelta

def SegmentedBlock.events (index : ℤ) (block : SegmentedBlock) : List StreamEvent :=
  [.contentBlockStart index block.start] ++
    block.deltas.map (.contentBlockDelta index) ++ [.contentBlockStop index]

/-- The events of the blocks, which are numbered from `index` on. -/
def blockEvents (index : ℤ) : List SegmentedBlock → List StreamEvent
  | [] => []
  | block :: blocks => block.events index ++ blockEvents (index + 1) blocks

def SegmentedMessage.events (message : SegmentedMessage) : List StreamEvent :=
  [.messageStart message.id message.model] ++ blockEvents 0 message.blocks ++
    [.messageDelta (some message.stopReason), .messageStop]

def SegmentedMessage.whole (message : SegmentedMessage) : ClaudeResponse :=
  ⟨message.id, message.model, message.stopReason, message.blocks.map SegmentedBlock.whole⟩

/-! ## Agreement -/

section Agreement

-- when two texts count as the same arguments: if they are equal, or have the same value
variable (marshal : Json → String) (same : String → String → Prop)

/-- What is put together from the chunks is what the whole message is converted to. -/
structure Agrees (message : SegmentedMessage) : Prop where
  content : (received message.events ⟨"", "", []⟩).content =
    (responseClaude2OpenAI marshal message.whole).content
  /-- Without the signatures, each of which adds a newline. -/
  reasoning : (received (message.events.filter fun event => !event.isSignature)
      ⟨"", "", []⟩).reasoning =
    (responseClaude2OpenAI marshal message.whole).reasoningContent.getD ""
  signatures : ∀ event ∈ message.events, event.isSignature → ∀ start : Received,
    received [event] start = { start with reasoning := start.reasoning ++ "\n" }
  indices : (received message.events ⟨"", "", []⟩).calls.map ToolCall.key =
    (List.range (responseClaude2OpenAI marshal message.whole).toolCalls.length).map Int.ofNat
  toolCalls : List.Forall₂
    (fun streamed whole => streamed.id = whole.id ∧ streamed.name = whole.name ∧
      same streamed.arguments whole.arguments)
    (received message.events ⟨"", "", []⟩).calls
    (responseClaude2OpenAI marshal message.whole).toolCalls
  finishReason : finishReason message.events =
    some (responseClaude2OpenAI marshal message.whole).finishReason

def SegmentedBlock.isToolUse : SegmentedBlock → Bool
  | .toolUse _ _ _ _ _ => true
  | .text _ _ => false
  | .thinking _ _ => false

/-- The text of a text block. -/
def SegmentedBlock.text? : SegmentedBlock → Option String
  | .text start deltas => some (start ++ String.join deltas)
  | .thinking _ _ => none
  | .toolUse _ _ _ _ _ => none

/-- The thinking of a thinking block, in its start and in its deltas. -/
def SegmentedBlock.thinking? : SegmentedBlock → Option (String × String)
  | .thinking start deltas => some (start, String.join (deltas.map ThinkingPart.text))
  | .text _ _ => none
  | .toolUse _ _ _ _ _ => none

/-- The thinking deltas before the last thinking block bring what its start holds.  If that
block is empty, they bring the thinking of the first block of the message. -/
def ThinkingAgrees (blocks : List SegmentedBlock) : Prop :=
  let thinkings := blocks.filterMap SegmentedBlock.thinking?
  match thinkings.getLast? with
  | none => True
  | some (start, deltas) =>
    String.join (thinkings.dropLast.map Prod.snd) =
      if start ++ deltas ≠ "" then start
      else match blocks.head?.bind SegmentedBlock.thinking? with
        | some (start, deltas) => start ++ deltas
        | none => ""

/-- The condition on a segmented message. -/
structure Agreeable (message : SegmentedMessage) : Prop where
  /-- Only the last text block has a text. -/
  texts : ∀ text ∈ (message.blocks.filterMap SegmentedBlock.text?).dropLast, text = ""
  thinking : ThinkingAgrees message.blocks
  tools : First SegmentedBlock.isToolUse message.blocks
  arguments : ∀ id name start input deltas,
    .toolUse id name start input deltas ∈ message.blocks → same (String.join deltas) (marshal input)
  stopReason : message.stopReason ≠ "null"

end Agreement

/-! ## What the chunks of a block bring -/

section Blocks

variable {start : Received}

theorem received_append (events events' : List StreamEvent) (start : Received) :
    received (events ++ events') start = received events' (received events start) := by
  unfold received
  rw [List.filterMap_append, List.foldl_append]

theorem received_texts (index : ℤ) (deltas : List String) (start : Received) :
    received ((deltas.map BlockDelta.textDelta).map (.contentBlockDelta index)) start =
      { start with content := start.content ++ String.join deltas } := by
  induction deltas generalizing start with
  | nil =>
    show start = _
    rw [String.join_nil, String.append_empty]
  | cons delta deltas ih =>
    refine (ih (start.add (chunkOf ⟨some delta, none, none, []⟩ none))).trans ?_
    show Received.mk (start.content ++ delta ++ String.join deltas) (start.reasoning ++ "") _ = _
    rw [String.append_assoc, String.append_empty, String.join_cons]
    rfl

/-- What a part of a thinking adds to the reasoning. -/
def ThinkingPart.reasoning : ThinkingPart → String
  | .thinking content => content
  | .signature _ => "\n"

theorem received_thinkings (index : ℤ) (deltas : List ThinkingPart) (start : Received) :
    received ((deltas.map ThinkingPart.delta).map (.contentBlockDelta index)) start =
      { start with
        reasoning := start.reasoning ++ String.join (deltas.map ThinkingPart.reasoning) } := by
  induction deltas generalizing start with
  | nil =>
    show start = { start with reasoning := start.reasoning ++ "" }
    rw [String.append_empty]
  | cons delta deltas ih =>
    have hfirst : received (((delta :: deltas).map ThinkingPart.delta).map
          (.contentBlockDelta index)) start =
        received ((deltas.map ThinkingPart.delta).map (.contentBlockDelta index))
          (start.add (chunkOf ⟨none, some delta.reasoning, none, []⟩ none)) := by
      cases delta <;> rfl
    rw [hfirst, ih]
    show Received.mk (start.content ++ "")
      (start.reasoning ++ delta.reasoning ++ String.join (deltas.map ThinkingPart.reasoning)) _ = _
    rw [String.append_assoc, String.append_empty, List.map_cons, String.join_cons]
    rfl

/-- The fragments of a tool use go to the call that was opened last. -/
theorem received_fragments (index : ℤ) (deltas : List String) (calls : List ToolCall)
    (call : ToolCall) (hkey : call.key = index) (start : Received)
    (hcalls : start.calls = calls ++ [call]) :
    received ((deltas.map BlockDelta.inputJsonDelta).map (.contentBlockDelta index)) start =
      { start with
        calls := calls ++ [{ call with arguments := call.arguments ++ String.join deltas }] } := by
  induction deltas generalizing start call with
  | nil =>
    show start = _
    rw [String.join_nil, String.append_empty, ← hcalls]
  | cons delta deltas ih =>
    have hlast : lastIdx (ToolCall.continues index ⟨some index, "", "", delta⟩) start.calls =
        some calls.length := by
      rw [hcalls]
      exact lastIdx_concat (by simp [ToolCall.continues, hkey]) calls
    have hcall : call.extend ⟨some index, "", "", delta⟩ =
        { call with arguments := call.arguments ++ delta } := by
      unfold ToolCall.extend
      by_cases hname : call.name = ""
      · rw [if_pos hname, hname]
      · rw [if_neg hname]
    have hstep : start.add (chunkOf ⟨none, none, none, [⟨some index, "", "", delta⟩]⟩ none) =
        { start with calls := calls ++ [{ call with arguments := call.arguments ++ delta }] } := by
      show Received.mk (start.content ++ "") (start.reasoning ++ "")
        (receiveFragment start.calls index ⟨some index, "", "", delta⟩) = _
      unfold receiveFragment
      rw [hlast, String.append_empty, String.append_empty]
      dsimp only
      rw [hcalls, List.modify_eq_take_cons_drop (by simp)]
      simp [hcall]
    show received _ (start.add _) = _
    rw [hstep, ih { call with arguments := call.arguments ++ delta } hkey _ rfl]
    simp [String.join_cons, String.append_assoc]

/-- What a block with the index brings. -/
def SegmentedBlock.brings (index : ℤ) (block : SegmentedBlock) (start : Received) : Received :=
  match block with
  | .text head deltas => { start with content := start.content ++ (head ++ String.join deltas) }
  | .thinking _ deltas =>
    { start with reasoning := start.reasoning ++ String.join (deltas.map ThinkingPart.reasoning) }
  | .toolUse id name _ _ deltas =>
    { start with calls := start.calls ++ [⟨index, id, name, String.join deltas⟩] }

theorem received_block (block : SegmentedBlock) {index : ℤ} {start : Received}
    (hkeys : ∀ call ∈ start.calls, call.key < index) :
    received (block.events index) start = block.brings index start := by
  unfold SegmentedBlock.events
  rw [received_append, received_append]
  show received (block.deltas.map (.contentBlockDelta index))
    (received [.contentBlockStart index block.start] start) = _
  cases block with
  | text head deltas =>
    refine (received_texts index deltas _).trans ?_
    show Received.mk (start.content ++ head ++ String.join deltas) (start.reasoning ++ "") _ = _
    rw [String.append_assoc, String.append_empty]
    rfl
  | thinking head deltas =>
    refine (received_thinkings index deltas _).trans ?_
    show Received.mk (start.content ++ "") (start.reasoning ++ "" ++ _) _ = _
    rw [String.append_empty, String.append_empty]
    rfl
  | toolUse id name head input deltas =>
    have hnone : lastIdx (ToolCall.continues index ⟨some index, id, name, ""⟩) start.calls =
        none := by
      refine lastIdx_eq_none fun call hcall => ?_
      have hlt := hkeys call hcall
      have hne : call.key ≠ index := by omega
      simp [ToolCall.continues, hne]
    have hstart : received [.contentBlockStart index (.toolUse id name head)] start =
        { start with calls := start.calls ++ [⟨index, id, name, ""⟩] } := by
      show Received.mk (start.content ++ "") (start.reasoning ++ "")
        (receiveFragment start.calls index ⟨some index, id, name, ""⟩) = _
      unfold receiveFragment
      rw [hnone, String.append_empty, String.append_empty]
    show received _ (received [.contentBlockStart index (.toolUse id name head)] start) = _
    rw [hstart]
    refine (received_fragments index deltas start.calls ⟨index, id, name, ""⟩ rfl _ rfl).trans ?_
    show Received.mk _ _ (start.calls ++ [⟨index, id, name, "" ++ String.join deltas⟩]) = _
    rw [String.empty_append]
    rfl

/-- The tool calls of blocks that are numbered from `index` on. -/
def callsFrom (index : ℤ) : List SegmentedBlock → List ToolCall
  | [] => []
  | .toolUse id name _ _ deltas :: blocks =>
    ⟨index, id, name, String.join deltas⟩ :: callsFrom (index + 1) blocks
  | _ :: blocks => callsFrom (index + 1) blocks

/-- What a block adds to the reasoning. -/
def SegmentedBlock.reasoning : SegmentedBlock → String
  | .thinking _ deltas => String.join (deltas.map ThinkingPart.reasoning)
  | .text _ _ => ""
  | .toolUse _ _ _ _ _ => ""

theorem received_blocks (blocks : List SegmentedBlock) {index : ℤ} {start : Received}
    (hkeys : ∀ call ∈ start.calls, call.key < index) :
    received (blockEvents index blocks) start =
      ⟨start.content ++ String.join (blocks.filterMap SegmentedBlock.text?),
        start.reasoning ++ String.join (blocks.map SegmentedBlock.reasoning),
        start.calls ++ callsFrom index blocks⟩ := by
  induction blocks generalizing index start with
  | nil =>
    show start = Received.mk (start.content ++ "") (start.reasoning ++ "") (start.calls ++ [])
    rw [String.append_empty, String.append_empty, List.append_nil]
  | cons block blocks ih =>
    unfold blockEvents
    rw [received_append, received_block block hkeys]
    have hlater : ∀ call ∈ start.calls, call.key < index + 1 := by
      intro call hcall
      have := hkeys call hcall
      omega
    cases block with
    | text head deltas =>
      rw [ih (by exact hlater)]
      show Received.mk (start.content ++ (head ++ String.join deltas) ++ _)
          (start.reasoning ++ _) _ =
        Received.mk (start.content ++ String.join ((head ++ String.join deltas) :: _))
          (start.reasoning ++ String.join ("" :: _)) _
      rw [String.join_cons, String.join_cons, String.append_assoc, String.empty_append]
      rfl
    | thinking head deltas =>
      rw [ih (by exact hlater)]
      show Received.mk (start.content ++ _) (start.reasoning ++ String.join _ ++ _) _ =
        Received.mk (start.content ++ _) (start.reasoning ++ String.join (String.join _ :: _)) _
      rw [String.join_cons, String.append_assoc]
      rfl
    | toolUse id name head input deltas =>
      have hkeys' : ∀ call ∈ start.calls ++ [⟨index, id, name, String.join deltas⟩],
          call.key < index + 1 := by
        intro call hcall
        rcases List.mem_append.1 hcall with hcall | hcall
        · exact hlater call hcall
        · rw [List.mem_singleton.1 hcall]
          show index < index + 1
          omega
      rw [ih (by exact hkeys')]
      show Received.mk (start.content ++ _) (start.reasoning ++ _)
          (start.calls ++ [⟨index, id, name, String.join deltas⟩] ++ _) =
        Received.mk (start.content ++ _) (start.reasoning ++ String.join ("" :: _))
          (start.calls ++ (_ :: _))
      rw [String.join_cons, String.empty_append, List.append_assoc]
      rfl

end Blocks

/-! ## The whole stream -/

section Stream

variable (message : SegmentedMessage)

theorem received_events :
    received message.events ⟨"", "", []⟩ =
      ⟨String.join (message.blocks.filterMap SegmentedBlock.text?),
        String.join (message.blocks.map SegmentedBlock.reasoning), callsFrom 0 message.blocks⟩ := by
  unfold SegmentedMessage.events
  rw [received_append, received_append]
  have hstart : received [.messageStart message.id message.model] ⟨"", "", []⟩ = ⟨"", "", []⟩ := rfl
  have hend : ∀ start : Received,
      received [.messageDelta (some message.stopReason), .messageStop] start = start := by
    intro start
    show Received.mk (start.content ++ "") (start.reasoning ++ "") start.calls = start
    rw [String.append_empty, String.append_empty]
  rw [hstart, received_blocks message.blocks (by simp), hend]
  simp [String.empty_append]

/-- The block without its signatures. -/
def SegmentedBlock.unsigned : SegmentedBlock → SegmentedBlock
  | .thinking start deltas => .thinking start (deltas.filter fun
    | .thinking _ => true
    | .signature _ => false)
  | .text start deltas => .text start deltas
  | .toolUse id name start input deltas => .toolUse id name start input deltas

theorem events_unsigned (block : SegmentedBlock) (index : ℤ) :
    (block.events index).filter (fun event => !event.isSignature) =
      block.unsigned.events index := by
  have hkeep : ∀ {α : Type} (f : α → BlockDelta) (deltas : List α),
      (∀ delta, (StreamEvent.contentBlockDelta index (f delta)).isSignature = false) →
      ((deltas.map f).map (StreamEvent.contentBlockDelta index)).filter
        (fun event => !event.isSignature) =
        (deltas.map f).map (.contentBlockDelta index) := by
    intro α f deltas hf
    refine List.filter_eq_self.2 fun event hevent => ?_
    rw [List.map_map] at hevent
    obtain ⟨delta, -, rfl⟩ := List.mem_map.1 hevent
    show (!(StreamEvent.contentBlockDelta index (f delta)).isSignature) = true
    rw [hf delta]
    rfl
  unfold SegmentedBlock.events
  rw [List.filter_append, List.filter_append]
  cases block with
  | text start deltas =>
    exact congrArg (fun middle => [_] ++ middle ++ [_]) (hkeep _ deltas fun _ => rfl)
  | toolUse id name start input deltas =>
    exact congrArg (fun middle => [_] ++ middle ++ [_]) (hkeep _ deltas fun _ => rfl)
  | thinking start deltas =>
    refine congrArg (fun middle => [_] ++ middle ++ [_]) ?_
    show ((deltas.map ThinkingPart.delta).map (StreamEvent.contentBlockDelta index)).filter _ =
      ((deltas.filter _).map ThinkingPart.delta).map _
    induction deltas with
    | nil => rfl
    | cons delta deltas ih =>
      cases delta with
      | thinking content => exact congrArg (_ :: ·) ih
      | signature content => exact ih

theorem blockEvents_unsigned (blocks : List SegmentedBlock) (index : ℤ) :
    (blockEvents index blocks).filter (fun event => !event.isSignature) =
      blockEvents index (blocks.map SegmentedBlock.unsigned) := by
  induction blocks generalizing index with
  | nil => rfl
  | cons block blocks ih =>
    unfold blockEvents
    rw [List.filter_append, events_unsigned, ih]
    rfl

theorem reasoning_unsigned (blocks : List SegmentedBlock) :
    String.join ((blocks.map SegmentedBlock.unsigned).map SegmentedBlock.reasoning) =
      String.join ((blocks.filterMap SegmentedBlock.thinking?).map Prod.snd) := by
  induction blocks with
  | nil => rfl
  | cons block blocks ih =>
    rw [List.map_cons, List.map_cons, String.join_cons, ih]
    cases block with
    | text start deltas => exact String.empty_append
    | toolUse id name start input deltas => exact String.empty_append
    | thinking start deltas =>
      show String.join ((deltas.filter _).map ThinkingPart.reasoning) ++ _ =
        String.join (String.join (deltas.map ThinkingPart.text) :: _)
      rw [String.join_cons]
      congr 1
      induction deltas with
      | nil => rfl
      | cons delta deltas ihd =>
        cases delta with
        | thinking content =>
          show String.join (content :: _) = String.join (content :: _)
          rw [String.join_cons, String.join_cons]
          exact congrArg (content ++ ·) ihd
        | signature content =>
          refine ihd.trans ?_
          show _ = String.join ("" :: _)
          rw [String.join_cons, String.empty_append]

/-- The reasoning without the signatures. -/
theorem reasoning_events :
    (received (message.events.filter fun event => !event.isSignature) ⟨"", "", []⟩).reasoning =
      String.join ((message.blocks.filterMap SegmentedBlock.thinking?).map Prod.snd) := by
  have hfilter : message.events.filter (fun event => !event.isSignature) =
      SegmentedMessage.events { message with
        blocks := message.blocks.map SegmentedBlock.unsigned } := by
    unfold SegmentedMessage.events
    rw [List.filter_append, List.filter_append, blockEvents_unsigned]
    rfl
  rw [hfilter, received_events]
  exact reasoning_unsigned message.blocks

theorem finishReason_events :
    finishReason message.events =
      (some (stopReasonClaude2OpenAI message.stopReason)).filter (· ≠ "null") := by
  have hblocks : ∀ (blocks : List SegmentedBlock) (index : ℤ),
      ((blockEvents index blocks).filterMap streamResponseClaude2OpenAI).filterMap
        (fun chunk => chunk.choice.bind Choice.finishReason) = [] := by
    intro blocks
    induction blocks with
    | nil => intro index; rfl
    | cons block blocks ih =>
      intro index
      unfold blockEvents
      rw [List.filterMap_append, List.filterMap_append, ih, List.append_nil,
        List.filterMap_eq_nil_iff]
      intro chunk hchunk
      obtain ⟨event, hevent, hthis⟩ := List.mem_filterMap.1 hchunk
      unfold SegmentedBlock.events at hevent
      rcases List.mem_append.1 hevent with hevent | hevent
      · rcases List.mem_append.1 hevent with hevent | hevent
        · rw [List.mem_singleton.1 hevent] at hthis
          cases hstart : block.start <;> rw [hstart] at hthis <;> cases hthis <;> rfl
        · obtain ⟨delta, -, rfl⟩ := List.mem_map.1 hevent
          cases delta <;> cases hthis <;> rfl
      · rw [List.mem_singleton.1 hevent] at hthis
        cases hthis
  unfold finishReason SegmentedMessage.events
  rw [List.filterMap_append, List.filterMap_append, List.filterMap_append, List.filterMap_append,
    hblocks]
  have hend : ([StreamEvent.messageDelta (some message.stopReason),
        StreamEvent.messageStop].filterMap streamResponseClaude2OpenAI).filterMap
        (fun chunk => chunk.choice.bind Choice.finishReason) =
      ((some (stopReasonClaude2OpenAI message.stopReason)).filter (· ≠ "null")).toList := by
    show [chunkOf ⟨none, none, none, []⟩ ((some _).filter (· ≠ "null"))].filterMap _ = _
    cases hfilter : (some (stopReasonClaude2OpenAI message.stopReason)).filter (· ≠ "null") with
    | none => exact List.filterMap_cons_none rfl
    | some finishReason => exact List.filterMap_cons_some rfl
  rw [hend]
  show (([] : List String) ++ [] ++ _).getLast? = _
  rw [List.append_nil, List.nil_append]
  cases (some (stopReasonClaude2OpenAI message.stopReason)).filter (· ≠ "null") with
  | none => rfl
  | some finishReason => rfl

end Stream

/-! ## The message as a whole, kind by kind -/

section Whole

variable (marshal : Json → String)

/-- The tool call of a block, in the message as a whole. -/
def SegmentedBlock.toolCall? : SegmentedBlock → Option ToolCallResponse
  | .toolUse id name _ input _ => some ⟨none, id, name, marshal input⟩
  | .text _ _ => none
  | .thinking _ _ => none

/-- Texts and thinkings are overwritten by later ones, tool calls are collected. -/
theorem foldl_collected (blocks : List SegmentedBlock) (collected : Collected) :
    (blocks.map SegmentedBlock.whole).foldl (Collected.add marshal) collected =
      ⟨(blocks.filterMap SegmentedBlock.text?).getLast?.getD collected.responseText,
        ((blocks.filterMap SegmentedBlock.thinking?).map fun thinking =>
          thinking.1 ++ thinking.2).getLast?.getD collected.thinkingContent,
        collected.tools ++ blocks.filterMap (SegmentedBlock.toolCall? marshal)⟩ := by
  induction blocks generalizing collected with
  | nil => simp
  | cons block blocks ih =>
    rw [List.map_cons, List.foldl_cons, ih]
    cases block with
    | text start deltas =>
      show _ = Collected.mk (((start ++ String.join deltas) ::
        blocks.filterMap SegmentedBlock.text?).getLast?.getD collected.responseText) _ _
      rw [List.getLast?_cons]
      rfl
    | thinking start deltas =>
      show _ = Collected.mk _ (((start ++ String.join (deltas.map ThinkingPart.text)) ::
        (blocks.filterMap SegmentedBlock.thinking?).map fun thinking =>
          thinking.1 ++ thinking.2).getLast?.getD collected.thinkingContent) _
      rw [List.getLast?_cons]
      rfl
    | toolUse id name start input deltas =>
      show Collected.mk _ _ (collected.tools ++ [⟨none, id, name, marshal input⟩] ++ _) =
        Collected.mk _ _ (collected.tools ++ (⟨none, id, name, marshal input⟩ :: _))
      rw [List.append_assoc]
      rfl

variable (message : SegmentedMessage)

theorem toolCalls_whole : (responseClaude2OpenAI marshal message.whole).toolCalls =
    message.blocks.filterMap (SegmentedBlock.toolCall? marshal) := by
  show Collected.tools (List.foldl (Collected.add marshal) _
    (message.blocks.map SegmentedBlock.whole)) = _
  rw [foldl_collected]
  exact List.nil_append _

/-- The text of the first block is not used where there is a text block. -/
theorem content_whole : (responseClaude2OpenAI marshal message.whole).content =
    (message.blocks.filterMap SegmentedBlock.text?).getLast?.getD "" := by
  show Collected.responseText (List.foldl (Collected.add marshal)
    ⟨((message.blocks.map SegmentedBlock.whole).head?.map MessageBlock.getText).getD "", "", []⟩
    (message.blocks.map SegmentedBlock.whole)) = _
  rw [foldl_collected]
  cases message.blocks with
  | nil => rfl
  | cons block blocks =>
    cases block with
    | text start deltas =>
      show ((_ :: blocks.filterMap SegmentedBlock.text?).getLast?).getD
          (start ++ String.join deltas) =
        ((_ :: blocks.filterMap SegmentedBlock.text?).getLast?).getD ""
      rw [List.getLast?_cons]
      rfl
    | thinking start deltas => rfl
    | toolUse id name start input deltas => rfl

/-- The thinking of the first block is used where the last thinking block is empty. -/
theorem reasoning_whole :
    (responseClaude2OpenAI marshal message.whole).reasoningContent.getD "" =
      match (message.blocks.filterMap SegmentedBlock.thinking?).getLast? with
      | none => ""
      | some (start, deltas) =>
        if start ++ deltas ≠ "" then start ++ deltas
        else match message.blocks.head?.bind SegmentedBlock.thinking? with
          | some (start, deltas) => start ++ deltas
          | none => "" := by
  have hhead : ((message.blocks.map SegmentedBlock.whole).head?.bind
        MessageBlock.getThinking).getD "" =
      match message.blocks.head?.bind SegmentedBlock.thinking? with
      | some (start, deltas) => start ++ deltas
      | none => "" := by
    cases message.blocks with
    | nil => rfl
    | cons block blocks => cases block <;> rfl
  have hwhole : (responseClaude2OpenAI marshal message.whole).reasoningContent =
      if ((message.blocks.filterMap SegmentedBlock.thinking?).map fun thinking =>
          thinking.1 ++ thinking.2).getLast?.getD "" ≠ "" then
        some (((message.blocks.filterMap SegmentedBlock.thinking?).map fun thinking =>
          thinking.1 ++ thinking.2).getLast?.getD "")
      else if ((message.blocks.map SegmentedBlock.whole).head?.bind
          MessageBlock.getThinking).getD "" ≠ "" then
        some (((message.blocks.map SegmentedBlock.whole).head?.bind
          MessageBlock.getThinking).getD "")
      else none := by
    show (if Collected.thinkingContent (List.foldl (Collected.add marshal) _
      (message.blocks.map SegmentedBlock.whole)) ≠ "" then some (Collected.thinkingContent
        (List.foldl (Collected.add marshal) _ (message.blocks.map SegmentedBlock.whole)))
      else _) = _
    rw [foldl_collected]
    rfl
  have hor : ∀ s : String, (if s ≠ "" then some s else none).getD "" = s := by
    intro s
    by_cases hs : s = ""
    · rw [if_neg (not_not_intro hs), hs]
      rfl
    · rw [if_pos hs]
      rfl
  rw [hwhole, List.getLast?_map]
  cases hlast : (message.blocks.filterMap SegmentedBlock.thinking?).getLast? with
  | none =>
    show (if "" ≠ "" then _ else _ : Option String).getD "" = ""
    rw [if_neg (by simp), hor, hhead]
    rw [List.getLast?_eq_none_iff] at hlast
    cases hblocks : message.blocks with
    | nil => rfl
    | cons block blocks =>
      rw [hblocks] at hlast
      cases block with
      | text start deltas => rfl
      | toolUse id name start input deltas => rfl
      | thinking start deltas => cases hlast
  | some thinking =>
    show (if thinking.1 ++ thinking.2 ≠ "" then some (thinking.1 ++ thinking.2) else _).getD "" = _
    by_cases hempty : thinking.1 ++ thinking.2 = ""
    · rw [if_neg (not_not_intro hempty), hor, hhead]
      exact (if_neg (not_not_intro hempty)).symm
    · rw [if_pos hempty]
      exact (if_pos hempty).symm

end Whole

/-! ## Where both come to the same -/

section Agreement

variable (marshal : Json → String) (same : String → String → Prop) (message : SegmentedMessage)

theorem reasoning_eq_iff :
    (received (message.events.filter fun event => !event.isSignature) ⟨"", "", []⟩).reasoning =
      (responseClaude2OpenAI marshal message.whole).reasoningContent.getD "" ↔
    ThinkingAgrees message.blocks := by
  rw [reasoning_events, reasoning_whole]
  unfold ThinkingAgrees
  dsimp only
  rcases List.eq_nil_or_concat' (message.blocks.filterMap SegmentedBlock.thinking?) with
    hnil | ⟨thinkings, ⟨start, deltas⟩, hlast⟩
  · rw [hnil]
    exact iff_of_true rfl trivial
  · rw [hlast, List.map_append, String.join_append, List.getLast?_concat, List.dropLast_concat]
    show String.join (thinkings.map Prod.snd) ++ String.join [deltas] =
        (if start ++ deltas ≠ "" then _ else _) ↔
      String.join (thinkings.map Prod.snd) = (if start ++ deltas ≠ "" then _ else _)
    rw [join_singleton]
    by_cases hempty : start ++ deltas = ""
    · rw [if_neg (not_not_intro hempty), if_neg (not_not_intro hempty),
        (String.append_eq_empty_iff.1 hempty).2, String.append_empty]
    · rw [if_pos hempty, if_pos hempty]
      exact String.append_left_inj deltas

theorem le_key_of_mem_callsFrom (blocks : List SegmentedBlock) {index : ℤ} :
    ∀ call ∈ callsFrom index blocks, index ≤ call.key := by
  induction blocks generalizing index with
  | nil =>
    intro call hcall
    cases hcall
  | cons block blocks ih =>
    intro call hcall
    have hlater : ∀ call ∈ callsFrom (index + 1) blocks, index ≤ call.key := by
      intro call hcall
      have := ih call hcall
      omega
    cases block with
    | text start deltas => exact hlater call hcall
    | thinking start deltas => exact hlater call hcall
    | toolUse id name start input deltas =>
      rcases List.mem_cons.1 hcall with rfl | hcall
      · exact Int.le_refl index
      · exact hlater call hcall

theorem callsFrom_eq_nil_iff (blocks : List SegmentedBlock) {index : ℤ} :
    callsFrom index blocks = [] ↔ ∀ block ∈ blocks, ¬ block.isToolUse = true := by
  induction blocks generalizing index with
  | nil => exact iff_of_true rfl (by simp)
  | cons block blocks ih =>
    rw [List.forall_mem_cons]
    cases block with
    | text start deltas => exact ih.trans (by simp [SegmentedBlock.isToolUse])
    | thinking start deltas => exact ih.trans (by simp [SegmentedBlock.isToolUse])
    | toolUse id name start input deltas =>
      exact iff_of_false (List.cons_ne_nil _ _) fun h => h.1 rfl

/-- A block that is no tool use takes an index, which the tool calls after it then lack. -/
theorem keys_skip_iff (blocks : List SegmentedBlock) (index : ℤ) :
    (callsFrom (index + 1) blocks).map ToolCall.key =
        (List.range (callsFrom (index + 1) blocks).length).map (index + Int.ofNat ·) ↔
      ∀ block ∈ blocks, ¬ block.isToolUse = true := by
  rw [← @callsFrom_eq_nil_iff blocks (index + 1)]
  constructor
  · intro hkeys
    cases hcalls : callsFrom (index + 1) blocks with
    | nil => rfl
    | cons call calls =>
      rw [hcalls, List.length_cons, List.range_succ_eq_map, List.map_cons, List.map_cons] at hkeys
      have hkey : call.key = index + 0 := (List.cons.inj hkeys).1
      have hle := le_key_of_mem_callsFrom blocks call (hcalls ▸ List.mem_cons_self)
      omega
  · intro hnil
    rw [hnil]
    rfl

theorem keys_eq_range_iff (blocks : List SegmentedBlock) (index : ℤ) :
    (callsFrom index blocks).map ToolCall.key =
        (List.range (callsFrom index blocks).length).map (index + Int.ofNat ·) ↔
      First SegmentedBlock.isToolUse blocks := by
  induction blocks generalizing index with
  | nil => exact iff_of_true rfl List.Pairwise.nil
  | cons block blocks ih =>
    unfold First
    rw [List.pairwise_cons]
    have hother : block.isToolUse = false → ((∀ later ∈ blocks, ¬ later.isToolUse = true) ↔
        (∀ later ∈ blocks, later.isToolUse = true → block.isToolUse = true) ∧
          blocks.Pairwise fun a b => b.isToolUse = true → a.isToolUse = true) := by
      intro hblock
      constructor
      · intro hnone
        exact ⟨fun later hlater htool => absurd htool (hnone later hlater),
          List.pairwise_of_forall_mem_list fun _ _ b hb htool => absurd htool (hnone b hb)⟩
      · rintro ⟨hlater, -⟩ later hmem htool
        simp [hlater later hmem htool] at hblock
    cases block with
    | text start deltas => exact (keys_skip_iff blocks index).trans (hother rfl)
    | thinking start deltas => exact (keys_skip_iff blocks index).trans (hother rfl)
    | toolUse id name start input deltas =>
      show index :: (callsFrom (index + 1) blocks).map ToolCall.key =
        (List.range ((callsFrom (index + 1) blocks).length + 1)).map (index + Int.ofNat ·) ↔ _
      have hrange : ∀ n : ℕ, (List.range (n + 1)).map (index + Int.ofNat ·) =
          index :: (List.range n).map (index + 1 + Int.ofNat ·) := by
        intro n
        rw [List.range_succ_eq_map, List.map_cons, List.map_map]
        refine List.cons_eq_cons.2 ⟨by simp, List.map_congr_left fun i _ => ?_⟩
        show index + ((i + 1 : ℕ) : ℤ) = index + 1 + (i : ℤ)
        omega
      rw [hrange, List.cons_eq_cons]
      constructor
      · rintro ⟨-, hkeys⟩
        exact ⟨fun _ _ _ => rfl, (ih (index + 1)).1 hkeys⟩
      · rintro ⟨-, hfirst⟩
        exact ⟨rfl, (ih (index + 1)).2 hfirst⟩

theorem toolCalls_iff (blocks : List SegmentedBlock) (index : ℤ) :
    List.Forall₂ (fun streamed whole => streamed.id = whole.id ∧ streamed.name = whole.name ∧
        same streamed.arguments whole.arguments)
      (callsFrom index blocks) (blocks.filterMap (SegmentedBlock.toolCall? marshal)) ↔
    ∀ id name start input deltas, .toolUse id name start input deltas ∈ blocks →
      same (String.join deltas) (marshal input) := by
  induction blocks generalizing index with
  | nil => exact iff_of_true List.Forall₂.nil (by simp)
  | cons block blocks ih =>
    cases block with
    | text start deltas =>
      refine (ih (index + 1)).trans ?_
      simp
    | thinking start deltas =>
      refine (ih (index + 1)).trans ?_
      simp
    | toolUse id name start input deltas =>
      show List.Forall₂ _ (_ :: callsFrom (index + 1) blocks) (_ :: _) ↔ _
      rw [List.forall₂_cons, ih]
      constructor
      · rintro ⟨⟨-, -, hthis⟩, hlater⟩ id' name' start' input' deltas' hmem
        rcases List.mem_cons.1 hmem with heq | hmem
        · injection heq with _ _ _ hinput hdeltas
          rw [hinput, hdeltas]
          exact hthis
        · exact hlater id' name' start' input' deltas' hmem
      · intro h
        exact ⟨⟨rfl, rfl, h id name start input deltas List.mem_cons_self⟩,
          fun id' name' start' input' deltas' hmem =>
            h id' name' start' input' deltas' (List.mem_cons_of_mem _ hmem)⟩

theorem length_toolCalls (blocks : List SegmentedBlock) (index : ℤ) :
    (blocks.filterMap (SegmentedBlock.toolCall? marshal)).length =
      (callsFrom index blocks).length := by
  induction blocks generalizing index with
  | nil => rfl
  | cons block blocks ih =>
    cases block with
    | text start deltas => exact ih (index + 1)
    | thinking start deltas => exact ih (index + 1)
    | toolUse id name start input deltas => exact congrArg (· + 1) (ih (index + 1))

theorem stopReasonClaude2OpenAI_eq_null_iff (stopReason : String) :
    stopReasonClaude2OpenAI stopReason = "null" ↔ stopReason = "null" := by
  have hnull : stopReasonClaude2OpenAI "null" = "null" := by decide
  constructor
  · intro h
    unfold stopReasonClaude2OpenAI at h
    split at h <;> first | exact h | simp at h
  · rintro rfl
    exact hnull

/-- **The stream and the whole message** come to the same exactly where only the last text
block has a text, the thinking deltas bring the thinking that is kept, the tool uses come
first, the fragments are the arguments and the stop reason is not `"null"`. -/
theorem agrees_iff : Agrees marshal same message ↔ Agreeable marshal same message := by
  have hindices : (received message.events ⟨"", "", []⟩).calls.map ToolCall.key =
        (List.range (responseClaude2OpenAI marshal message.whole).toolCalls.length).map Int.ofNat ↔
      First SegmentedBlock.isToolUse message.blocks := by
    rw [received_events, toolCalls_whole, length_toolCalls marshal message.blocks 0,
      ← keys_eq_range_iff message.blocks 0]
    simp only [Int.zero_add]
  have hfinish : finishReason message.events =
        some (responseClaude2OpenAI marshal message.whole).finishReason ↔
      message.stopReason ≠ "null" := by
    rw [finishReason_events, Ne, ← stopReasonClaude2OpenAI_eq_null_iff]
    show _ = some (stopReasonClaude2OpenAI message.stopReason) ↔ _
    simp [Option.filter]
  constructor
  · intro h
    exact {
      texts := by
        rw [← join_eq_getLast_iff, ← content_whole marshal, ← h.content, received_events]
      thinking := (reasoning_eq_iff marshal message).1 h.reasoning
      tools := hindices.1 h.indices
      arguments := by
        have hcalls := h.toolCalls
        rw [received_events, toolCalls_whole] at hcalls
        exact (toolCalls_iff marshal same message.blocks 0).1 hcalls
      stopReason := hfinish.1 h.finishReason }
  · intro h
    exact {
      content := by
        rw [received_events, content_whole]
        exact (join_eq_getLast_iff _).2 h.texts
      reasoning := (reasoning_eq_iff marshal message).2 h.thinking
      signatures := by
        intro event _ hsignature start
        cases event with
        | contentBlockDelta index delta =>
          cases delta with
          | signatureDelta signature =>
            show Received.mk (start.content ++ "") (start.reasoning ++ "\n") start.calls = _
            rw [String.append_empty]
          | textDelta content => cases hsignature
          | thinkingDelta content => cases hsignature
          | inputJsonDelta partialJson => cases hsignature
        | messageStart id model => cases hsignature
        | contentBlockStart index block => cases hsignature
        | contentBlockStop index => cases hsignature
        | messageDelta stopReason => cases hsignature
        | messageStop => cases hsignature
      indices := hindices.2 h.tools
      toolCalls := by
        rw [received_events, toolCalls_whole]
        exact (toolCalls_iff marshal same message.blocks 0).2 h.arguments
      finishReason := hfinish.2 h.stopReason }

end Agreement

/-- Of two texts the stream brings both, the whole message the second. -/
theorem first_text_overwritten :
    ¬ Agrees (fun _ => "\x7b\x7d") Eq
      ⟨"msg_1", "claude", "end_turn", [.text "" ["a"], .text "" ["b"]]⟩ := by
  intro h
  exact absurd h.content (by decide)

end Convert.Claude
