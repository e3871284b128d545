import GMasterApi.Convert.ResponsesChat
import GMasterApi.Lib.GoMap
import GMasterApi.Lib.Pieces

/-!
# The stream of a response and the response

A `StreamedResponse` is a completed response together with a sequence of events that comes to
it.  `agrees_iff_consistent` says when the chunks of the stream are the message of the
response.
-/

namespace Convert.Responses

open GoString Pieces

/-! ## Streams -/

/-- A function call as far as it has come.  `itemArguments` are the arguments as the last
event with the item had them, and `laterArguments` the deltas since. -/
structure CallProgress where
  id : String
  callId : String
  name : String
  name_ne : trimSpace name ≠ ""
  itemArguments : String
  laterArguments : String
  /-- There was text when the call was added. -/
  afterText : Bool

def CallProgress.arguments (call : CallProgress) : String :=
  call.itemArguments ++ call.laterArguments

def CallProgress.item (call : CallProgress) (arguments : String) : ResponsesOutput :=
  ⟨"function_call", call.id, "", [], call.callId, call.name, arguments⟩

def CallProgress.toolCallId (call : CallProgress) : String := (call.item "").toolCallId

/-- An output item: an assistant message with its texts, or a function call. -/
inductive Progress
  | message (texts : List String)
  | functionCall (call : CallProgress)

def Progress.output : Progress → ResponsesOutput
  | .message texts =>
    ⟨"message", "", "assistant", texts.map (ResponsesOutputContent.mk "output_text"), "", "", ""⟩
  | .functionCall call => call.item call.arguments

def Progress.texts : Progress → List String
  | .message texts => texts
  | .functionCall _ => []

def Progress.call? : Progress → Option CallProgress
  | .message _ => none
  | .functionCall call => some call

def textOf (outputs : List Progress) : String := String.join (outputs.flatMap Progress.texts)

def calls (outputs : List Progress) : List CallProgress := outputs.filterMap Progress.call?

/-- Events that say nothing of the output. -/
inductive Event.Idle : Event → Prop
  | created (response : Option ResponsesResponse) : Event.Idle (.created response)
  | message (item : ResponsesOutput) (h : item.type = "message") :
      Event.Idle (.outputItem (some item))
  | other : Event.Idle .other

/-- Events that come to the outputs.  Items are added in their order, and text is added to the
last message.  An item comes as often as it likes, with its arguments so far or without. -/
inductive Streams : List Progress → List Event → Prop
  | nil : Streams [] []
  | idle {outputs : List Progress} {events : List Event} (h : Streams outputs events)
      (event : Event) (hevent : event.Idle) : Streams outputs (events ++ [event])
  | message {outputs : List Progress} {events : List Event} (h : Streams outputs events)
      (item : ResponsesOutput) (hitem : item.type = "message") :
      Streams (outputs ++ [.message []]) (events ++ [.outputItem (some item)])
  | part {pre post : List Progress} {texts : List String} {events : List Event}
      (h : Streams (pre ++ .message texts :: post) events)
      (hlast : post.flatMap Progress.texts = []) :
      Streams (pre ++ .message (texts ++ [""]) :: post) (events ++ [.other])
  | text {pre post : List Progress} {texts : List String} {text : String} {events : List Event}
      (h : Streams (pre ++ .message (texts ++ [text]) :: post) events)
      (hlast : post.flatMap Progress.texts = []) (delta : String) :
      Streams (pre ++ .message (texts ++ [text ++ delta]) :: post)
        (events ++ [.outputTextDelta delta])
  | call {outputs : List Progress} {events : List Event} (h : Streams outputs events)
      (call : CallProgress) (hlater : call.laterArguments = "")
      (hid : ∀ call' ∈ calls outputs,
        trimSpace call'.id ≠ "" → trimSpace call.id ≠ trimSpace call'.id)
      (hafter : call.afterText = decide (textOf outputs ≠ "")) :
      Streams (outputs ++ [.functionCall call])
        (events ++ [.outputItem (some (call.item call.itemArguments))])
  | argumentsDelta {pre post : List Progress} {call : CallProgress} {events : List Event}
      (h : Streams (pre ++ .functionCall call :: post) events) (delta : String) :
      Streams (pre ++
          .functionCall { call with laterArguments := call.laterArguments ++ delta } :: post)
        (events ++ [.functionCallArgumentsDelta call.id delta])
  | item {pre post : List Progress} {call : CallProgress} {events : List Event}
      (h : Streams (pre ++ .functionCall call :: post) events) (rest : String) :
      Streams (pre ++ .functionCall { call with
          itemArguments := call.arguments ++ rest, laterArguments := "" } :: post)
        (events ++ [.outputItem (some (call.item (call.arguments ++ rest)))])
  | bareItem {pre post : List Progress} {call : CallProgress} {events : List Event}
      (h : Streams (pre ++ .functionCall call :: post) events) :
      Streams (pre ++ .functionCall call :: post)
        (events ++ [.outputItem (some (call.item ""))])

/-- A response, and the events of a stream of it. -/
structure StreamedResponse where
  outputs : List Progress
  events : List Event
  streams : Streams outputs events
  createdAt : ℤ
  model : String
  usage : Option ResponsesUsage

def StreamedResponse.response (streamed : StreamedResponse) : ResponsesResponse :=
  ⟨streamed.createdAt, streamed.model, streamed.outputs.map Progress.output, streamed.usage, none⟩

/-! ## The message of the chunks -/

/-- A delta with the index of a call adds to the call, any other begins one. -/
def addToolCall (toolCalls : List ToolCall) (tool : ToolCallResponse) : List ToolCall :=
  let index := (tool.index.getD 0).toNat
  if index < toolCalls.length then
    toolCalls.modify index fun toolCall =>
      { toolCall with
        name := toolCall.name ++ tool.name, arguments := toolCall.arguments ++ tool.arguments }
  else toolCalls ++ [⟨tool.id, tool.name, tool.arguments⟩]

def ChatMessage.add (message : ChatMessage) (chunk : Chunk) : ChatMessage :=
  match chunk.delta with
  | .content content => { message with content := message.content ++ content }
  | .toolCall tool => { message with toolCalls := addToolCall message.toolCalls tool }
  | .stop finishReason => { message with finishReason := some finishReason }
  | .start | .reasoning _ | .usage _ => message

def assemble (chunks : List Chunk) : ChatMessage := chunks.foldl ChatMessage.add ⟨"", [], none⟩

/-- The stream comes to the message and the usage of the response. -/
def Agrees (info : RelayInfo) (streamed : StreamedResponse) : Prop :=
  ∃ usage chunks,
    oaiResponsesToChatStreamHandler info
        (streamed.events ++ [.completed (some streamed.response)]) = .ok (usage, chunks) ∧
      (assemble chunks, usage) = responsesResponseToChatCompletionsResponse streamed.response

/-- The calls can be told apart, and nothing of their arguments is lost. -/
structure Distinct (calls : List CallProgress) : Prop where
  named : ∀ call ∈ calls, call.toolCallId ≠ ""
  nodup : (calls.map CallProgress.toolCallId).Nodup
  complete : ∀ call ∈ calls, trimSpace call.id ≠ "" ∨ call.laterArguments = ""

def ResponsesUsage.tokens (usage : ResponsesUsage) : ℕ :=
  usage.inputTokens + usage.outputTokens + usage.totalTokens

/-- All counts are zero. -/
structure ResponsesUsage.Empty (usage : ResponsesUsage) : Prop where
  tokens : usage.tokens = 0
  details : usage.inputTokensDetails.getD ⟨0, 0, 0⟩ = ⟨0, 0, 0⟩
  reasoning : usage.reasoningTokens = 0

/-- Calls come without text or after it, and the usage is reported, or there is none. -/
structure Consistent (info : RelayInfo) (streamed : StreamedResponse) : Prop where
  toolCalls : if textOf streamed.outputs = "" then Distinct (calls streamed.outputs)
    else ∀ call ∈ calls streamed.outputs, call.toolCallId = "" ∨ call.afterText
  usage : (∃ usage ∈ streamed.usage, usage.tokens ≠ 0) ∨
    (∀ usage ∈ streamed.usage, usage.Empty) ∧
      info.estimatePromptTokens = 0 ∧ textOf streamed.outputs = "" ∧ calls streamed.outputs = []

section Proofs

-- names and ids are never taken apart
attribute [local irreducible] trimSpace

/-! ## Chunks -/

variable {s : Stream}

theorem assemble_append (chunks : List Chunk) (chunk : Chunk) :
    assemble (chunks ++ [chunk]) = (assemble chunks).add chunk := by
  unfold assemble
  rw [List.foldl_append]
  rfl

theorem assemble_sendChatChunk (s : Stream) (delta : Delta) :
    assemble (s.sendChatChunk delta).chunks =
      (assemble s.chunks).add ⟨s.createAt, s.model, delta⟩ :=
  assemble_append _ _

theorem sendStartIfNeeded_eq (s : Stream) : ∃ sentStart chunks,
    s.sendStartIfNeeded = { s with sentStart := sentStart, chunks := chunks } ∧
      assemble chunks = assemble s.chunks := by
  unfold Stream.sendStartIfNeeded
  split
  · exact ⟨_, _, rfl, rfl⟩
  · exact ⟨_, _, rfl, assemble_sendChatChunk s .start⟩

/-- What is sent of a call, where there is no text. -/
theorem sendToolCallDelta_eq {callId : String} (name delta : String) (hcall : callId ≠ "")
    (htext : s.outputText = "") : ∃ sentStart chunks,
    s.sendToolCallDelta callId name delta =
        { s with
          sentStart := sentStart
          chunks := chunks
          toolCallIds :=
            if callId ∈ s.toolCallIds then s.toolCallIds else s.toolCallIds ++ [callId]
          toolCallNameByID :=
            Function.update s.toolCallNameByID callId (s.toolCallName callId name)
          toolCallNameSent :=
            if s.sentName callId name ≠ "" then Function.update s.toolCallNameSent callId true
            else s.toolCallNameSent
          sawToolCall := true
          usageText := s.usageText ++ s.sentName callId name ++ delta } ∧
      assemble chunks = { assemble s.chunks with
        toolCalls := addToolCall (assemble s.chunks).toolCalls
          ⟨some (s.toolCallIds.idxOf callId), callId, s.sentName callId name, delta⟩ } := by
  obtain ⟨sentStart, chunks, hstart, hchunks⟩ := sendStartIfNeeded_eq s
  unfold Stream.sendToolCallDelta
  rw [if_neg hcall, if_neg (not_not_intro htext), hstart]
  refine ⟨sentStart, _, rfl, ?_⟩
  refine (assemble_sendChatChunk _ _).trans ?_
  rw [← hchunks]
  rfl

/-- A call without an id is not sent, and none beside text. -/
theorem sendToolCallDelta_of_text {callId : String} (name delta : String)
    (h : callId = "" ∨ s.outputText ≠ "") : s.sendToolCallDelta callId name delta = s := by
  unfold Stream.sendToolCallDelta
  rcases h with h | h
  · rw [if_pos h]
  · by_cases hcall : callId = ""
    · rw [if_pos hcall]
    · rw [if_neg hcall, if_pos h]

section AddToolCall

variable {toolCalls : List ToolCall} {ids : List String} {callId : String}

theorem addToolCall_of_mem (hmem : callId ∈ ids) (hids : toolCalls.map ToolCall.id = ids)
    (name delta : String) :
    addToolCall toolCalls ⟨some (ids.idxOf callId), callId, name, delta⟩ =
      toolCalls.modify (ids.idxOf callId) fun toolCall =>
        { toolCall with
          name := toolCall.name ++ name, arguments := toolCall.arguments ++ delta } := by
  have hlt : ids.idxOf callId < toolCalls.length := by
    rw [← List.length_map ToolCall.id, hids]
    exact List.idxOf_lt_length_iff.2 hmem
  exact if_pos hlt

theorem addToolCall_of_not_mem (hmem : callId ∉ ids) (hids : toolCalls.map ToolCall.id = ids)
    (name delta : String) :
    addToolCall toolCalls ⟨some (ids.idxOf callId), callId, name, delta⟩ =
      toolCalls ++ [⟨callId, name, delta⟩] := by
  have hlt : ¬ ids.idxOf callId < toolCalls.length := by
    rw [← List.length_map ToolCall.id, hids]
    exact fun h => hmem (List.idxOf_lt_length_iff.1 h)
  exact if_neg hlt

theorem map_id_addToolCall (hids : toolCalls.map ToolCall.id = ids) (callId name delta : String) :
    (addToolCall toolCalls ⟨some (ids.idxOf callId), callId, name, delta⟩).map ToolCall.id =
      if callId ∈ ids then ids else ids ++ [callId] := by
  by_cases hmem : callId ∈ ids
  · rw [addToolCall_of_mem hmem hids, if_pos hmem, GoMap.map_modify, hids]
    exact fun toolCall => rfl
  · rw [addToolCall_of_not_mem hmem hids, if_neg hmem, List.map_append, hids]
    rfl

end AddToolCall

/-! ## What has been sent -/

/-- What the handler does with a call depends on. -/
structure Key where
  itemId : String
  callId : String
  afterText : Bool

def CallProgress.key (call : CallProgress) : Key :=
  ⟨trimSpace call.id, call.toolCallId, call.afterText⟩

/-- `s` has sent the text and, of the calls that came before it, those with an id. -/
structure Sent (text : String) (keys : List Key) (s : Stream) : Prop where
  streamErr : s.streamErr = none
  sentStop : s.sentStop = false
  usage : s.usage = Usage.zero
  outputText : s.outputText = text
  content : (assemble s.chunks).content = text
  ids : (assemble s.chunks).toolCalls.map ToolCall.id = s.toolCallIds
  nodup : s.toolCallIds.Nodup
  mem_ids : ∀ id, id ∈ s.toolCallIds ↔ id ≠ "" ∧ ∃ key ∈ keys, key.callId = id ∧ !key.afterText
  saw : s.sawToolCall = true ↔ s.toolCallIds ≠ []
  nameSent : ∀ id, s.toolCallNameSent id = true ↔ id ∈ s.toolCallIds
  usageText : s.usageText = "" ↔ text = "" ∧ s.toolCallIds = []

section Sent

variable {text : String} {keys keys' : List Key} {callId name delta : String}

/-- Only the ids and whether there was text before them matter. -/
theorem Sent.of_keys (h : Sent text keys s)
    (hkeys : ∀ id, id ≠ "" → ((∃ key ∈ keys, key.callId = id ∧ !key.afterText) ↔
      ∃ key ∈ keys', key.callId = id ∧ !key.afterText)) : Sent text keys' s := by
  refine { h with mem_ids := fun id => ?_ }
  rw [h.mem_ids]
  exact and_congr_right fun hid => hkeys id hid

/-- A new id is put at the end. -/
theorem mem_addId {ids : List String} {id : String} :
    id ∈ (if callId ∈ ids then ids else ids ++ [callId]) ↔ id ∈ ids ∨ id = callId := by
  split_ifs with hmem
  · constructor
    · exact Or.inl
    · rintro (hid | rfl)
      · exact hid
      · exact hmem
  · rw [List.mem_append, List.mem_singleton]

theorem nodup_addId {ids : List String} (h : ids.Nodup) :
    (if callId ∈ ids then ids else ids ++ [callId]).Nodup := by
  split_ifs with hin
  · exact h
  · refine List.nodup_append.2 ⟨h, List.nodup_singleton _, fun a ha b hb hab => hin ?_⟩
    rwa [← List.mem_singleton.1 hb, ← hab]

theorem addId_ne_nil (ids : List String) (callId : String) :
    (if callId ∈ ids then ids else ids ++ [callId]) ≠ [] :=
  List.ne_nil_of_mem (mem_addId.2 (Or.inr rfl))

/-- The name of a call is sent with its first delta. -/
theorem Sent.sentName_ne_iff (h : Sent text keys s)
    (hname : callId ∈ s.toolCallIds ∨ s.toolCallName callId name ≠ "") :
    s.sentName callId name ≠ "" ↔ callId ∉ s.toolCallIds := by
  unfold Stream.sentName
  have hnameSent := h.nameSent callId
  by_cases hmem : callId ∈ s.toolCallIds
  · simp [hmem, hnameSent.2 hmem]
  · have hne := hname.resolve_left hmem
    have hfalse : s.toolCallNameSent callId = false := by
      rw [← Bool.not_eq_true, hnameSent]
      exact hmem
    simp [hmem, hne, hfalse]

/-- A call is sent: its name is known, or it was sent before. -/
theorem Sent.sendToolCallDelta (h : Sent "" keys s) (hcall : callId ≠ "")
    (hname : callId ∈ s.toolCallIds ∨ s.toolCallName callId name ≠ "")
    (hkeys : ∀ id, id ≠ "" → ((∃ key ∈ keys', key.callId = id ∧ !key.afterText) ↔
      (∃ key ∈ keys, key.callId = id ∧ !key.afterText) ∨ id = callId)) :
    Sent "" keys' (s.sendToolCallDelta callId name delta) := by
  obtain ⟨sentStart, chunks, heq, hchunks⟩ :=
    sendToolCallDelta_eq name delta hcall h.outputText
  rw [heq]
  have hids := map_id_addToolCall h.ids callId (s.sentName callId name) delta
  have hsent := h.sentName_ne_iff hname
  have hne := addId_ne_nil s.toolCallIds callId
  refine ⟨h.streamErr, h.sentStop, h.usage, h.outputText, ?_, ?_, nodup_addId h.nodup, ?_, ?_,
    ?_, ?_⟩
  · show (assemble chunks).content = ""
    rw [hchunks]
    exact h.content
  · show (assemble chunks).toolCalls.map ToolCall.id = _
    rw [hchunks]
    exact hids
  · intro id
    show id ∈ (if _ then _ else _ : List String) ↔ _
    rw [mem_addId, h.mem_ids]
    constructor
    · rintro (⟨hid, hold⟩ | rfl)
      · exact ⟨hid, (hkeys id hid).2 (Or.inl hold)⟩
      · exact ⟨hcall, (hkeys id hcall).2 (Or.inr rfl)⟩
    · rintro ⟨hid, hnew⟩
      rcases (hkeys id hid).1 hnew with hold | rfl
      · exact Or.inl ⟨hid, hold⟩
      · exact Or.inr rfl
  · exact ⟨fun _ hnil => hne hnil, fun _ => rfl⟩
  · intro id
    show (if s.sentName callId name ≠ "" then _ else _ : String → Bool) id = true ↔ _
    rw [mem_addId]
    by_cases hin : callId ∈ s.toolCallIds
    · rw [if_neg fun hne => hsent.1 hne hin, h.nameSent]
      constructor
      · exact Or.inl
      · rintro (hid | rfl)
        · exact hid
        · exact hin
    · rw [if_pos (hsent.2 hin)]
      by_cases hid : id = callId
      · subst hid
        rw [Function.update_self]
        exact ⟨fun _ => Or.inr rfl, fun _ => rfl⟩
      · rw [Function.update_of_ne hid, h.nameSent]
        exact ⟨Or.inl, fun h => h.resolve_right hid⟩
  · show s.usageText ++ s.sentName callId name ++ delta = "" ↔ _
    constructor
    · intro hempty
      exfalso
      rw [String.append_eq_empty_iff, String.append_eq_empty_iff] at hempty
      have hold : s.toolCallIds = [] := (h.usageText.1 hempty.1.1).2
      refine hsent.2 ?_ hempty.1.2
      rw [hold]
      exact List.not_mem_nil
    · rintro ⟨-, hnil⟩
      exact absurd hnil hne

/-- Text is sent as it comes. -/
theorem Sent.outputTextDelta (h : Sent text keys s) :
    Sent (text ++ delta) keys (s.outputTextDelta delta) := by
  obtain ⟨sentStart, chunks, hstart, hchunks⟩ := sendStartIfNeeded_eq s
  unfold Stream.outputTextDelta
  rw [hstart]
  by_cases hdelta : delta = ""
  · rw [if_pos hdelta, hdelta, String.append_empty]
    refine ⟨h.streamErr, h.sentStop, h.usage, h.outputText, ?_, ?_, h.nodup, h.mem_ids, h.saw,
      h.nameSent, h.usageText⟩
    · show (assemble chunks).content = text
      rw [hchunks, h.content]
    · show (assemble chunks).toolCalls.map ToolCall.id = s.toolCallIds
      rw [hchunks, h.ids]
  · rw [if_neg hdelta]
    refine ⟨h.streamErr, h.sentStop, h.usage, ?_, ?_, ?_, h.nodup, h.mem_ids, h.saw, h.nameSent,
      ?_⟩
    · show s.outputText ++ delta = text ++ delta
      rw [h.outputText]
    · rw [assemble_sendChatChunk]
      show (assemble chunks).content ++ delta = text ++ delta
      rw [hchunks, h.content]
    · rw [assemble_sendChatChunk]
      show (assemble chunks).toolCalls.map ToolCall.id = s.toolCallIds
      rw [hchunks, h.ids]
    · show s.usageText ++ delta = "" ↔ text ++ delta = "" ∧ s.toolCallIds = []
      rw [String.append_eq_empty_iff, String.append_eq_empty_iff]
      exact ⟨fun hempty => absurd hempty.2 hdelta, fun hempty => absurd hempty.1.2 hdelta⟩

/-- The maps do not matter. -/
theorem Sent.of_maps (h : Sent text keys s) (canonical names args : String → String) :
    Sent text keys
      { s with
        toolCallCanonicalIDByItemID := canonical
        toolCallNameByID := names
        toolCallArgsByID := args } :=
  ⟨h.streamErr, h.sentStop, h.usage, h.outputText, h.content, h.ids, h.nodup, h.mem_ids, h.saw,
    h.nameSent, h.usageText⟩

@[simp] theorem recordItem_toolCallIds (item : ResponsesOutput) :
    (s.recordItem item).toolCallIds = s.toolCallIds := by
  unfold Stream.recordItem
  rfl

theorem Sent.recordItem (h : Sent text keys s) (item : ResponsesOutput) :
    Sent text keys (s.recordItem item) :=
  h.of_maps _ _ _

/-- An item of a call is sent where there is no text. -/
theorem Sent.functionCallItem (h : Sent text keys s) (item : ResponsesOutput)
    (hname : trimSpace item.name ≠ "")
    (hkeys : ∀ id, id ≠ "" → ((∃ key ∈ keys', key.callId = id ∧ !key.afterText) ↔
      (∃ key ∈ keys, key.callId = id ∧ !key.afterText) ∨ text = "" ∧ id = item.toolCallId)) :
    Sent text keys' (s.functionCallItem item) := by
  have hrecord := h.recordItem item
  unfold Stream.functionCallItem
  by_cases hsend : item.toolCallId = "" ∨ text ≠ ""
  · have hout : item.toolCallId = "" ∨ (s.recordItem item).outputText ≠ "" := by
      rwa [hrecord.outputText]
    rw [sendToolCallDelta_of_text _ _ hout]
    refine hrecord.of_keys fun id hid => ?_
    rw [hkeys id hid]
    constructor
    · exact Or.inl
    · rintro (hold | ⟨htext, rfl⟩)
      · exact hold
      · exact absurd htext (hsend.resolve_left hid)
  · obtain ⟨hcall, htext⟩ := not_or.1 hsend
    have htext := not_not.1 htext
    subst htext
    refine hrecord.sendToolCallDelta hcall (Or.inr ?_) fun id hid => ?_
    · unfold Stream.toolCallName
      rwa [if_pos hname]
    · rw [hkeys id hid]
      exact or_congr_right ⟨And.right, fun hid => ⟨rfl, hid⟩⟩

end Sent

/-! ## Canonical ids -/

/-- The handler knows the calls by the ids of their items. -/
structure Canonical (keys : List Key) (s : Stream) : Prop where
  empty : s.toolCallCanonicalIDByItemID "" = ""
  known : ∀ key ∈ keys, key.itemId ≠ "" → s.toolCallCanonicalIDByItemID key.itemId = key.callId

/-- What becomes of the ids and the names. -/
theorem sendToolCallDelta_names {callId : String} (name delta : String) (hcall : callId ≠ "")
    (htext : s.outputText = "") :
    (s.sendToolCallDelta callId name delta).toolCallIds =
        (if callId ∈ s.toolCallIds then s.toolCallIds else s.toolCallIds ++ [callId]) ∧
      (s.sendToolCallDelta callId name delta).toolCallNameByID =
        Function.update s.toolCallNameByID callId (s.toolCallName callId name) := by
  obtain ⟨sentStart, chunks, heq, -⟩ := sendToolCallDelta_eq name delta hcall htext
  rw [heq]
  exact ⟨rfl, rfl⟩

theorem sendToolCallDelta_maps (callId name delta : String) :
    (s.sendToolCallDelta callId name delta).toolCallCanonicalIDByItemID =
        s.toolCallCanonicalIDByItemID ∧
      (s.sendToolCallDelta callId name delta).toolCallArgsByID = s.toolCallArgsByID := by
  by_cases h : callId = "" ∨ s.outputText ≠ ""
  · rw [sendToolCallDelta_of_text name delta h]
    exact ⟨rfl, rfl⟩
  · obtain ⟨hcall, htext⟩ := not_or.1 h
    obtain ⟨sentStart, chunks, heq, -⟩ := sendToolCallDelta_eq name delta hcall (not_not.1 htext)
    rw [heq]
    exact ⟨rfl, rfl⟩

theorem toolCallId_ne_of_id {item : ResponsesOutput} (h : trimSpace item.id ≠ "") :
    item.toolCallId ≠ "" := by
  unfold ResponsesOutput.toolCallId
  split_ifs with hcall
  · exact h
  · exact hcall

/-- A call of another item id, or the same call again, leaves the others known. -/
theorem Canonical.functionCallItem {keys keys' : List Key} (h : Canonical keys s)
    (item : ResponsesOutput) (hkeys : ∀ key ∈ keys', key.itemId ≠ "" →
      (key.itemId = trimSpace item.id ∧ key.callId = item.toolCallId) ∨
      (key ∈ keys ∧ key.itemId ≠ trimSpace item.id)) :
    Canonical keys' (s.functionCallItem item) := by
  have hmap : (s.functionCallItem item).toolCallCanonicalIDByItemID =
      if trimSpace item.id ≠ "" then
        Function.update s.toolCallCanonicalIDByItemID (trimSpace item.id) item.toolCallId
      else s.toolCallCanonicalIDByItemID := by
    refine (sendToolCallDelta_maps _ _ _).1.trans ?_
    by_cases hid : trimSpace item.id ≠ ""
    · exact (if_pos ⟨hid, toolCallId_ne_of_id hid⟩).trans (if_pos hid).symm
    · exact (if_neg fun h => hid h.1).trans (if_neg hid).symm
  constructor
  · rw [hmap]
    split_ifs with hid
    · rw [Function.update_of_ne (Ne.symm hid), h.empty]
    · exact h.empty
  · intro key hkey hne
    rw [hmap]
    rcases hkeys key hkey hne with ⟨hid, hcall⟩ | ⟨hold, hid⟩
    · rw [if_pos (hid ▸ hne), hid, hcall, Function.update_self]
    · split_ifs
      · rw [Function.update_of_ne hid, h.known key hold hne]
      · exact h.known key hold hne

/-! ## Calls without text -/

theorem argsDelta_append (prevArgs rest : String) :
    argsDelta prevArgs (prevArgs ++ rest) = rest := by
  have hstarts : hasPrefix (prevArgs ++ rest) prevArgs = true := by
    unfold hasPrefix
    rw [List.isPrefixOf_iff_prefix, String.toList_append]
    exact List.prefix_append _ _
  unfold argsDelta
  rw [if_pos hstarts, String.toList_append, List.drop_left, String.ofList_toList]

/-- What of its arguments the handler has seen: a delta for no item is not read. -/
def CallProgress.streamed (call : CallProgress) : String :=
  if trimSpace call.id ≠ "" then call.arguments else call.itemArguments

/-- `s` has sent the calls, each with what it has seen of the arguments. -/
structure Kept (calls : List CallProgress) (s : Stream) : Prop where
  ids : s.toolCallIds = calls.map CallProgress.toolCallId
  toolCalls : (assemble s.chunks).toolCalls = s.toolCallIds.map fun id =>
    ⟨id, s.toolCallNameByID id, s.toolCallArgsByID id⟩
  names : ∀ call ∈ calls, s.toolCallNameByID call.toolCallId = trimSpace call.name
  args : ∀ call ∈ calls, s.toolCallArgsByID call.toolCallId = call.streamed
  fresh : ∀ id ∉ calls.map CallProgress.toolCallId, s.toolCallArgsByID id = ""

section Kept

variable {calls calls' : List CallProgress} {call : CallProgress} {keys : List Key}
  {callId name delta : String}

/-- After a call is sent its arguments are longer by the delta. -/
theorem toolCalls_sendToolCallDelta {names args : String → String} (h : Sent "" keys s)
    (name delta : String) (hcall : callId ≠ "")
    (htoolCalls : (assemble s.chunks).toolCalls =
      s.toolCallIds.map fun id => ⟨id, names id, args id⟩)
    (hname : s.toolCallName callId name ≠ "")
    (hold : callId ∈ s.toolCallIds → names callId = s.toolCallName callId name)
    (hnew : callId ∉ s.toolCallIds → args callId = "")
    (hargs : s.toolCallArgsByID = Function.update args callId (args callId ++ delta))
    (hnames : ∀ id, id ≠ callId → s.toolCallNameByID id = names id) :
    (assemble (s.sendToolCallDelta callId name delta).chunks).toolCalls =
      (s.sendToolCallDelta callId name delta).toolCallIds.map fun id =>
        ⟨id, (s.sendToolCallDelta callId name delta).toolCallNameByID id,
          (s.sendToolCallDelta callId name delta).toolCallArgsByID id⟩ := by
  obtain ⟨sentStart, chunks, heq, hchunks⟩ :=
    sendToolCallDelta_eq name delta hcall h.outputText
  have hother : ∀ id, id ≠ callId → ToolCall.mk id (names id) (args id) = ToolCall.mk id
      (Function.update s.toolCallNameByID callId (s.toolCallName callId name) id)
      (s.toolCallArgsByID id) := by
    intro id hid
    rw [hargs, Function.update_of_ne hid, Function.update_of_ne hid, hnames id hid]
  rw [heq, hchunks]
  show addToolCall (assemble s.chunks).toolCalls _ = List.map _ (if _ then _ else _)
  by_cases hmem : callId ∈ s.toolCallIds
  · have hsent : s.sentName callId name = "" := by
      unfold Stream.sentName
      rw [(h.nameSent callId).2 hmem]
      exact if_neg (by simp)
    rw [addToolCall_of_mem hmem h.ids, htoolCalls, if_pos hmem,
      GoMap.modify_idxOf_map h.nodup hmem]
    refine List.map_congr_left fun id _ => ?_
    by_cases hid : id = callId
    · subst hid
      rw [Function.update_self]
      dsimp only
      rw [Function.update_self, hargs, Function.update_self, hsent, String.append_empty, hold hmem]
    · rw [Function.update_of_ne hid]
      exact hother id hid
  · have hsent : s.sentName callId name = s.toolCallName callId name := by
      have hfalse : s.toolCallNameSent callId = false := by
        rw [← Bool.not_eq_true, h.nameSent]
        exact hmem
      unfold Stream.sentName
      rw [hfalse]
      exact if_pos ⟨hname, rfl⟩
    rw [addToolCall_of_not_mem hmem h.ids, htoolCalls, if_neg hmem, List.map_append]
    congr 1
    · refine List.map_congr_left fun id hid => hother id ?_
      rintro rfl
      exact hmem hid
    · show [ToolCall.mk callId (s.sentName callId name) delta] = [ToolCall.mk callId
        (Function.update s.toolCallNameByID callId (s.toolCallName callId name) callId)
        (s.toolCallArgsByID callId)]
      rw [Function.update_self, hargs, Function.update_self, hsent, hnew hmem, String.empty_append]

/-- One call is new, or another than it was. -/
theorem Kept.step {s' : Stream} (h : Kept calls s) (call : CallProgress)
    (hids : s'.toolCallIds = calls'.map CallProgress.toolCallId)
    (htoolCalls : (assemble s'.chunks).toolCalls = s'.toolCallIds.map fun id =>
      ⟨id, s'.toolCallNameByID id, s'.toolCallArgsByID id⟩)
    (hnames : s'.toolCallNameByID =
      Function.update s.toolCallNameByID call.toolCallId (trimSpace call.name))
    (hargs : s'.toolCallArgsByID =
      Function.update s.toolCallArgsByID call.toolCallId call.streamed)
    (hcalls : ∀ call' ∈ calls', call' = call ∨
      call' ∈ calls ∧ call'.toolCallId ≠ call.toolCallId)
    (hmem : ∀ id ∉ calls'.map CallProgress.toolCallId,
      id ≠ call.toolCallId ∧ id ∉ calls.map CallProgress.toolCallId) : Kept calls' s' := by
  refine ⟨hids, htoolCalls, ?_, ?_, ?_⟩
  · intro call' hcall'
    rw [hnames]
    rcases hcalls call' hcall' with rfl | ⟨hold, hne⟩
    · rw [Function.update_self]
    · rw [Function.update_of_ne hne, h.names call' hold]
  · intro call' hcall'
    rw [hargs]
    rcases hcalls call' hcall' with rfl | ⟨hold, hne⟩
    · rw [Function.update_self]
    · rw [Function.update_of_ne hne, h.args call' hold]
  · intro id hid
    obtain ⟨hne, hnot⟩ := hmem id hid
    rw [hargs, Function.update_of_ne hne, h.fresh id hnot]

/-- The item of a call, with the arguments so far or without. -/
theorem Kept.functionCallItem (hsent : Sent "" keys s) (h : Kept calls s) {arguments : String}
    (hcall : call.toolCallId ≠ "")
    (hold : call.toolCallId ∈ calls.map CallProgress.toolCallId →
      s.toolCallNameByID call.toolCallId = trimSpace call.name)
    (hstarts : arguments ≠ "" → ∃ rest, arguments = s.toolCallArgsByID call.toolCallId ++ rest)
    (hstreamed : call.streamed =
      if arguments ≠ "" then arguments else s.toolCallArgsByID call.toolCallId)
    (hids : (if call.toolCallId ∈ s.toolCallIds then s.toolCallIds
      else s.toolCallIds ++ [call.toolCallId]) = calls'.map CallProgress.toolCallId)
    (hcalls : ∀ call' ∈ calls', call' = call ∨
      call' ∈ calls ∧ call'.toolCallId ≠ call.toolCallId)
    (hmem : ∀ id ∉ calls'.map CallProgress.toolCallId,
      id ≠ call.toolCallId ∧ id ∉ calls.map CallProgress.toolCallId) :
    Kept calls' (s.functionCallItem (call.item arguments)) := by
  have hname : trimSpace call.name ≠ "" := call.name_ne
  have hnames : (s.recordItem (call.item arguments)).toolCallNameByID =
      Function.update s.toolCallNameByID call.toolCallId (trimSpace call.name) := if_pos hname
  have hargs : (s.recordItem (call.item arguments)).toolCallArgsByID =
      Function.update s.toolCallArgsByID call.toolCallId call.streamed := by
    rw [hstreamed]
    by_cases hempty : arguments ≠ ""
    · rw [if_pos hempty]
      exact if_pos hempty
    · rw [if_neg hempty, Function.update_eq_self]
      exact if_neg hempty
  have hdelta : s.toolCallArgsByID call.toolCallId ++ s.itemArgsDelta (call.item arguments) =
      call.streamed := by
    rw [hstreamed]
    unfold Stream.itemArgsDelta
    by_cases hempty : arguments ≠ ""
    · obtain ⟨rest, hrest⟩ := hstarts hempty
      rw [if_pos hempty]
      show _ ++ (if arguments ≠ "" then
        argsDelta (s.toolCallArgsByID call.toolCallId) arguments else "") = _
      rw [if_pos hempty, hrest, argsDelta_append]
    · rw [if_neg hempty]
      show _ ++ (if arguments ≠ "" then
        argsDelta (s.toolCallArgsByID call.toolCallId) arguments else "") = _
      rw [if_neg hempty, String.append_empty]
  have hrecord := hsent.recordItem (call.item arguments)
  have htname : (s.recordItem (call.item arguments)).toolCallName call.toolCallId
      (trimSpace call.name) = trimSpace call.name := if_pos hname
  have hmemIds : call.toolCallId ∈ s.toolCallIds ↔
      call.toolCallId ∈ calls.map CallProgress.toolCallId := by rw [h.ids]
  obtain ⟨hsendIds, hsendNames⟩ := sendToolCallDelta_names (trimSpace call.name)
    (s.itemArgsDelta (call.item arguments)) hcall hrecord.outputText
  have hsendArgs := (sendToolCallDelta_maps (s := s.recordItem (call.item arguments))
    call.toolCallId (trimSpace call.name) (s.itemArgsDelta (call.item arguments))).2
  have htoolCalls := toolCalls_sendToolCallDelta hrecord (trimSpace call.name)
    (s.itemArgsDelta (call.item arguments)) hcall h.toolCalls
    (by rwa [htname]) (fun hin => by rw [htname]; exact hold (hmemIds.1 hin))
    (fun hnot => h.fresh _ fun hin => hnot (hmemIds.2 hin)) (by rw [hdelta, hargs])
    (fun id hid => by rw [hnames, Function.update_of_ne hid])
  have hsend : s.functionCallItem (call.item arguments) =
      (s.recordItem (call.item arguments)).sendToolCallDelta call.toolCallId
        (trimSpace call.name) (s.itemArgsDelta (call.item arguments)) := rfl
  rw [← hsend] at hsendIds hsendNames hsendArgs htoolCalls
  rw [recordItem_toolCallIds] at hsendIds
  refine h.step call (hsendIds.trans hids) htoolCalls ?_ (hsendArgs.trans hargs) hcalls
    hmem
  rw [hsendNames, hnames, htname, Function.update_idem]

/-- A delta of the arguments of a call. -/
theorem Kept.recordDelta (hsent : Sent "" keys s) (h : Kept calls s) (call : CallProgress)
    (hcall : call.toolCallId ≠ "") (hin : call.toolCallId ∈ calls.map CallProgress.toolCallId)
    (hname : s.toolCallNameByID call.toolCallId = trimSpace call.name)
    (hstreamed : call.streamed = s.toolCallArgsByID call.toolCallId ++ delta)
    (hids : s.toolCallIds = calls'.map CallProgress.toolCallId)
    (hcalls : ∀ call' ∈ calls', call' = call ∨
      call' ∈ calls ∧ call'.toolCallId ≠ call.toolCallId)
    (hmem : ∀ id ∉ calls'.map CallProgress.toolCallId,
      id ≠ call.toolCallId ∧ id ∉ calls.map CallProgress.toolCallId) :
    Kept calls' ((s.recordDelta call.toolCallId delta).sendToolCallDelta call.toolCallId ""
      delta) := by
  have hrecord : Sent "" keys (s.recordDelta call.toolCallId delta) := hsent.of_maps _ _ _
  have htname : (s.recordDelta call.toolCallId delta).toolCallName call.toolCallId "" =
      trimSpace call.name := hname
  have hmemIds : call.toolCallId ∈ s.toolCallIds := by rwa [h.ids]
  obtain ⟨hsendIds, hsendNames⟩ :=
    sendToolCallDelta_names "" delta hcall hrecord.outputText
  have hsendArgs := (sendToolCallDelta_maps (s := s.recordDelta call.toolCallId delta)
    call.toolCallId "" delta).2
  have htoolCalls := toolCalls_sendToolCallDelta hrecord "" delta hcall
    h.toolCalls (by rw [htname]; exact call.name_ne) (fun _ => by rw [htname]; exact hname)
    (fun hnot => absurd hmemIds hnot) rfl (fun id _ => rfl)
  refine h.step call ?_ htoolCalls ?_ ?_ hcalls hmem
  · rw [hsendIds, ← hids]
    exact if_pos hmemIds
  · rw [hsendNames, htname]
    rfl
  · rw [hsendArgs, hstreamed]
    rfl

/-- A call is put in the place of another with its id. -/
theorem replaced_calls {pre post : List CallProgress} {call call' : CallProgress}
    (hid : call'.toolCallId = call.toolCallId)
    (hnodup : ((pre ++ call :: post).map CallProgress.toolCallId).Nodup) :
    (pre ++ call' :: post).map CallProgress.toolCallId =
        (pre ++ call :: post).map CallProgress.toolCallId ∧
      ∀ other ∈ pre ++ call' :: post, other = call' ∨
        other ∈ pre ++ call :: post ∧ other.toolCallId ≠ call'.toolCallId := by
  constructor
  · rw [List.map_append, List.map_append, List.map_cons, List.map_cons, hid]
  · intro other hother
    rw [List.map_append, List.map_cons] at hnodup
    obtain ⟨-, hcons, hdisjoint⟩ := List.nodup_append.1 hnodup
    rw [hid]
    rcases List.mem_append.1 hother with hpre | hpost
    · exact Or.inr ⟨List.mem_append_left _ hpre, hdisjoint _ (List.mem_map_of_mem hpre) _
        List.mem_cons_self⟩
    · rcases List.mem_cons.1 hpost with rfl | hpost
      · exact Or.inl rfl
      · refine Or.inr ⟨List.mem_append_right _ (List.mem_cons_of_mem _ hpost), fun heq => ?_⟩
        refine (List.nodup_cons.1 hcons).1 ?_
        rw [← heq]
        exact List.mem_map_of_mem hpost

end Kept

/-! ## Runs -/

@[simp] theorem calls_append (outputs outputs' : List Progress) :
    calls (outputs ++ outputs') = calls outputs ++ calls outputs' :=
  List.filterMap_append

@[simp] theorem calls_call (call : CallProgress) (outputs : List Progress) :
    calls (.functionCall call :: outputs) = call :: calls outputs :=
  rfl

@[simp] theorem calls_message (texts : List String) (outputs : List Progress) :
    calls (.message texts :: outputs) = calls outputs :=
  rfl

@[simp] theorem textOf_append (outputs outputs' : List Progress) :
    textOf (outputs ++ outputs') = textOf outputs ++ textOf outputs' := by
  unfold textOf
  rw [List.flatMap_append, String.join_append]

@[simp] theorem textOf_call (call : CallProgress) (outputs : List Progress) :
    textOf (.functionCall call :: outputs) = textOf outputs :=
  rfl

@[simp] theorem textOf_message (texts : List String) (outputs : List Progress) :
    textOf (.message texts :: outputs) = String.join texts ++ textOf outputs := by
  unfold textOf
  rw [List.flatMap_cons, String.join_append]
  rfl

theorem toolCallId_item (call : CallProgress) (arguments : String) :
    (call.item arguments).toolCallId = call.toolCallId :=
  rfl

/-- `s` is the state of the handler when the outputs have come so far. -/
structure Inv (outputs : List Progress) (s : Stream) : Prop where
  early : ∀ call ∈ calls outputs, call.afterText = true → textOf outputs ≠ ""
  sent : Sent (textOf outputs) ((calls outputs).map CallProgress.key) s
  canonical : Canonical ((calls outputs).map CallProgress.key) s
  kept : textOf outputs = "" → (∀ call ∈ calls outputs, call.toolCallId ≠ "") →
    ((calls outputs).map CallProgress.toolCallId).Nodup → Kept (calls outputs) s

section Run

variable {outputs pre post : List Progress} {call : CallProgress}

/-- The time and the model do not matter. -/
theorem Inv.of_model (h : Inv outputs s) (createAt : ℤ) (model : String) :
    Inv outputs { s with createAt := createAt, model := model } := by
  refine ⟨h.early, ⟨h.sent.streamErr, h.sent.sentStop, h.sent.usage, h.sent.outputText,
    h.sent.content, h.sent.ids, h.sent.nodup, h.sent.mem_ids, h.sent.saw, h.sent.nameSent,
    h.sent.usageText⟩, ⟨h.canonical.empty, h.canonical.known⟩, fun htext hne hnodup => ?_⟩
  have hkept := h.kept htext hne hnodup
  exact ⟨hkept.ids, hkept.toolCalls, hkept.names, hkept.args, hkept.fresh⟩

theorem Inv.readResponse (h : Inv outputs s) (response : ResponsesResponse) :
    Inv outputs (s.readResponse response) :=
  h.of_model _ _

/-- Outputs with the same text and the same calls. -/
theorem Inv.of_eq {outputs' : List Progress} (h : Inv outputs s)
    (htext : textOf outputs' = textOf outputs) (hcalls : calls outputs' = calls outputs) :
    Inv outputs' s := by
  refine ⟨?_, ?_, ?_, ?_⟩
  · rw [htext, hcalls]
    exact h.early
  · rw [htext, hcalls]
    exact h.sent
  · rw [hcalls]
    exact h.canonical
  · rw [htext, hcalls]
    exact h.kept

theorem outputTextDelta_eq (delta : String) : ∃ sentStart chunks outputText usageText,
    s.outputTextDelta delta =
        { s with
          sentStart := sentStart
          chunks := chunks
          outputText := outputText
          usageText := usageText } ∧
      (assemble chunks).toolCalls = (assemble s.chunks).toolCalls := by
  obtain ⟨sentStart, chunks, hstart, hchunks⟩ := sendStartIfNeeded_eq s
  unfold Stream.outputTextDelta
  rw [hstart]
  by_cases hdelta : delta = ""
  · rw [if_pos hdelta]
    exact ⟨sentStart, chunks, _, _, rfl, congrArg ChatMessage.toolCalls hchunks⟩
  · rw [if_neg hdelta]
    refine ⟨sentStart, _, _, _, rfl, ?_⟩
    show (assemble (chunks ++ [⟨s.createAt, s.model, .content delta⟩])).toolCalls = _
    rw [assemble_append]
    show (assemble chunks).toolCalls = _
    rw [hchunks]

theorem Inv.outputTextDelta {outputs' : List Progress} (h : Inv outputs s) (delta : String)
    (htext : textOf outputs' = textOf outputs ++ delta) (hcalls : calls outputs' = calls outputs) :
    Inv outputs' (s.outputTextDelta delta) := by
  obtain ⟨sentStart, chunks, outputText, usageText, heq, htoolCalls⟩ :=
    outputTextDelta_eq (s := s) delta
  refine ⟨?_, ?_, ?_, ?_⟩
  · rw [htext, hcalls]
    intro call hcall hafter hempty
    exact h.early call hcall hafter (String.append_eq_empty_iff.1 hempty).1
  · rw [htext, hcalls]
    exact h.sent.outputTextDelta
  · rw [hcalls, heq]
    exact ⟨h.canonical.empty, h.canonical.known⟩
  · rw [htext, hcalls, heq]
    intro hempty hne hnodup
    have hkept := h.kept (String.append_eq_empty_iff.1 hempty).1 hne hnodup
    exact ⟨hkept.ids, htoolCalls.trans hkept.toolCalls, hkept.names, hkept.args, hkept.fresh⟩

/-- A call is added. -/
theorem Inv.addCall (h : Inv outputs s) (call : CallProgress) (hlater : call.laterArguments = "")
    (hid : ∀ call' ∈ calls outputs,
      trimSpace call'.id ≠ "" → trimSpace call.id ≠ trimSpace call'.id)
    (hafter : call.afterText = decide (textOf outputs ≠ "")) :
    Inv (outputs ++ [.functionCall call])
      (s.functionCallItem (call.item call.itemArguments)) := by
  have htext : textOf (outputs ++ [.functionCall call]) = textOf outputs := by
    rw [textOf_append]
    exact String.append_empty
  have hcalls : calls (outputs ++ [.functionCall call]) = calls outputs ++ [call] :=
    calls_append _ _
  have hstreamed : call.streamed = call.itemArguments := by
    unfold CallProgress.streamed CallProgress.arguments
    rw [hlater, String.append_empty, ite_self]
  refine ⟨?_, ?_, ?_, ?_⟩
  · rw [htext, hcalls]
    intro call' hcall' hafter'
    rcases List.mem_append.1 hcall' with hold | hnew
    · exact h.early call' hold hafter'
    · rw [List.mem_singleton.1 hnew, hafter] at hafter'
      exact of_decide_eq_true hafter'
  · rw [htext, hcalls, List.map_append]
    refine h.sent.functionCallItem _ call.name_ne fun id hne => ?_
    rw [toolCallId_item]
    constructor
    · rintro ⟨key, hkey, rfl, hbefore⟩
      rcases List.mem_append.1 hkey with hold | hnew
      · exact Or.inl ⟨key, hold, rfl, hbefore⟩
      · rw [List.map_singleton, List.mem_singleton] at hnew
        subst hnew
        refine Or.inr ⟨?_, rfl⟩
        have hbefore : !call.afterText := hbefore
        rw [hafter] at hbefore
        simpa using hbefore
    · rintro (⟨key, hold, heq⟩ | ⟨hempty, rfl⟩)
      · exact ⟨key, List.mem_append_left _ hold, heq⟩
      · refine ⟨call.key, List.mem_append_right _ List.mem_cons_self, rfl, ?_⟩
        show (!call.afterText) = true
        rw [hafter]
        simpa using hempty
  · rw [hcalls, List.map_append]
    refine h.canonical.functionCallItem _ fun key hkey hne => ?_
    rcases List.mem_append.1 hkey with hold | hnew
    · obtain ⟨call', hcall', rfl⟩ := List.mem_map.1 hold
      exact Or.inr ⟨hold, Ne.symm (hid call' hcall' hne)⟩
    · rw [List.map_singleton, List.mem_singleton] at hnew
      subst hnew
      exact Or.inl ⟨rfl, rfl⟩
  · rw [htext, hcalls]
    intro hempty hne hnodup
    have hsent := h.sent
    rw [hempty] at hsent
    rw [List.map_append] at hnodup
    obtain ⟨hold, -, hdisjoint⟩ := List.nodup_append.1 hnodup
    have hkept := h.kept hempty (fun call' hcall' => hne call' (List.mem_append_left _ hcall')) hold
    have hnew : call.toolCallId ∉ (calls outputs).map CallProgress.toolCallId := fun hmem =>
      hdisjoint _ hmem _ List.mem_cons_self rfl
    have hargs : s.toolCallArgsByID call.toolCallId = "" := hkept.fresh _ hnew
    refine Kept.functionCallItem hsent hkept (hne call (List.mem_append_right _ List.mem_cons_self))
      (fun hmem => absurd hmem hnew) ?_ ?_ ?_ ?_ ?_
    · intro _
      exact ⟨call.itemArguments, by rw [hargs, String.empty_append]⟩
    · rw [hstreamed, hargs]
      split_ifs with hitem
      · rfl
      · exact not_not.1 hitem
    · rw [hkept.ids, if_neg hnew, List.map_append]
      rfl
    · intro call' hcall'
      rcases List.mem_append.1 hcall' with hin | hin
      · exact Or.inr ⟨hin, fun heq => hnew (heq ▸ List.mem_map_of_mem hin)⟩
      · exact Or.inl (List.mem_singleton.1 hin)
    · intro id hnot
      rw [List.map_append, List.mem_append, not_or] at hnot
      exact ⟨fun heq => hnot.2 (heq ▸ List.mem_cons_self), hnot.1⟩

/-- A call is put in the place of another with its key. -/
theorem Inv.replace {call' : CallProgress} {s' : Stream}
    (h : Inv (pre ++ .functionCall call :: post) s) (hkey : call'.key = call.key)
    (hsent : Sent (textOf (pre ++ .functionCall call :: post))
      ((calls (pre ++ .functionCall call :: post)).map CallProgress.key) s')
    (hcanonical : Canonical ((calls (pre ++ .functionCall call :: post)).map CallProgress.key) s')
    (hkept : textOf (pre ++ .functionCall call :: post) = "" →
      Kept (calls pre ++ call :: calls post) s → call.toolCallId ≠ "" →
      (calls pre ++ call' :: calls post).map CallProgress.toolCallId =
        (calls pre ++ call :: calls post).map CallProgress.toolCallId →
      (∀ other ∈ calls pre ++ call' :: calls post, other = call' ∨
        other ∈ calls pre ++ call :: calls post ∧ other.toolCallId ≠ call'.toolCallId) →
      (∀ id ∉ (calls pre ++ call' :: calls post).map CallProgress.toolCallId,
        id ≠ call'.toolCallId ∧
          id ∉ (calls pre ++ call :: calls post).map CallProgress.toolCallId) →
      Kept (calls pre ++ call' :: calls post) s') :
    Inv (pre ++ .functionCall call' :: post) s' := by
  have htext : textOf (pre ++ .functionCall call' :: post) =
      textOf (pre ++ .functionCall call :: post) := by
    rw [textOf_append, textOf_append, textOf_call, textOf_call]
  have hcalls : calls (pre ++ .functionCall call' :: post) = calls pre ++ call' :: calls post :=
    calls_append _ _
  have hold : calls (pre ++ .functionCall call :: post) = calls pre ++ call :: calls post :=
    calls_append _ _
  have hkeys : (calls (pre ++ .functionCall call' :: post)).map CallProgress.key =
      (calls (pre ++ .functionCall call :: post)).map CallProgress.key := by
    rw [hcalls, hold, List.map_append, List.map_append, List.map_cons, List.map_cons, hkey]
  have hid : call'.toolCallId = call.toolCallId := congrArg Key.callId hkey
  refine ⟨?_, ?_, ?_, ?_⟩
  · rw [htext, hcalls]
    intro other hother hafter
    rcases List.mem_append.1 hother with hpre | hcons
    · exact h.early other (by rw [hold]; exact List.mem_append_left _ hpre) hafter
    · rcases List.mem_cons.1 hcons with rfl | hpost
      · refine h.early call (by rw [hold]; exact List.mem_append_right _ List.mem_cons_self) ?_
        rw [← hafter]
        exact (congrArg Key.afterText hkey).symm
      · exact h.early other
          (by rw [hold]; exact List.mem_append_right _ (List.mem_cons_of_mem _ hpost)) hafter
  · rw [htext, hkeys]
    exact hsent
  · rw [hkeys]
    exact hcanonical
  · rw [htext, hcalls]
    intro hempty hne hnodup
    have hmap : (calls pre ++ call' :: calls post).map CallProgress.toolCallId =
        (calls pre ++ call :: calls post).map CallProgress.toolCallId := by
      rw [List.map_append, List.map_append, List.map_cons, List.map_cons, hid]
    have hne' : ∀ other ∈ calls pre ++ call :: calls post, other.toolCallId ≠ "" := by
      intro other hother heq
      have hin := List.mem_map_of_mem (f := CallProgress.toolCallId) hother
      rw [← hmap] at hin
      obtain ⟨other', hother', heq'⟩ := List.mem_map.1 hin
      exact hne other' hother' (heq'.trans heq)
    rw [hmap] at hnodup
    have hbefore := h.kept hempty (by rw [hold]; exact hne') (by rw [hold]; exact hnodup)
    rw [hold] at hbefore
    have hreplaced := (replaced_calls hid hnodup).2
    refine hkept hempty hbefore (hne' call (List.mem_append_right _ List.mem_cons_self)) hmap
      hreplaced fun id hnot => ⟨?_, by rwa [← hmap]⟩
    rintro rfl
    exact hnot (List.mem_map_of_mem (List.mem_append_right _ List.mem_cons_self))

theorem key_mem (pre post : List Progress) (call : CallProgress) :
    call.key ∈ (calls (pre ++ .functionCall call :: post)).map CallProgress.key := by
  rw [calls_append]
  exact List.mem_map_of_mem (List.mem_append_right _ List.mem_cons_self)

/-- An item of a call that was added is sent again. -/
theorem Inv.functionCallItem {call' : CallProgress} {arguments : String}
    (h : Inv (pre ++ .functionCall call :: post) s) (hkey : call'.key = call.key)
    (hname : trimSpace call'.name = trimSpace call.name)
    (hitem : call.item arguments = call'.item arguments)
    (hstarts : arguments ≠ "" → ∃ rest, arguments = call.streamed ++ rest)
    (hstreamed : call'.streamed = if arguments ≠ "" then arguments else call.streamed) :
    Inv (pre ++ .functionCall call' :: post) (s.functionCallItem (call.item arguments)) := by
  have hin := key_mem pre post call
  have hid : call'.toolCallId = call.toolCallId := congrArg Key.callId hkey
  refine h.replace hkey ?_ ?_ ?_
  · refine h.sent.functionCallItem _ call.name_ne fun id hne => ?_
    rw [toolCallId_item]
    constructor
    · exact Or.inl
    · rintro (hold | ⟨hempty, rfl⟩)
      · exact hold
      · refine ⟨call.key, hin, rfl, ?_⟩
        rw [Bool.not_eq_true', ← Bool.not_eq_true]
        intro hafter
        refine h.early call ?_ hafter hempty
        rw [calls_append]
        exact List.mem_append_right _ List.mem_cons_self
  · refine h.canonical.functionCallItem _ fun key hmem hne => ?_
    by_cases heq : key.itemId = trimSpace call.id
    · refine Or.inl ⟨heq, ?_⟩
      have hknown := h.canonical.known key hmem hne
      rw [heq] at hknown hne
      rw [← hknown]
      exact h.canonical.known call.key hin hne
    · exact Or.inr ⟨hmem, heq⟩
  · intro hempty hkept hne hmap hcalls hnot
    have hsent := h.sent
    rw [hempty] at hsent
    have hargs := hkept.args call (List.mem_append_right _ List.mem_cons_self)
    have hnames := hkept.names call (List.mem_append_right _ List.mem_cons_self)
    rw [hitem]
    refine Kept.functionCallItem hsent hkept (by rwa [hid]) (fun _ => by rw [hid, hname, hnames])
      ?_ ?_ ?_ hcalls hnot
    · rw [hid, hargs]
      exact hstarts
    · rw [hid, hargs]
      exact hstreamed
    · rw [hkept.ids, hid, hmap]
      refine if_pos (List.mem_map_of_mem (List.mem_append_right _ List.mem_cons_self))

/-- The id of a call is known by its item, if that has an id. -/
theorem Canonical.canonicalCallId {keys : List Key} (h : Canonical keys s)
    (hkey : call.key ∈ keys) : s.canonicalCallId call.id =
      if trimSpace call.id = "" then "" else call.toolCallId := by
  unfold Stream.canonicalCallId
  by_cases hid : trimSpace call.id = ""
  · rw [hid, h.empty, if_pos rfl, if_pos rfl]
  · have hknown : s.toolCallCanonicalIDByItemID (trimSpace call.id) = call.toolCallId :=
      h.known call.key hkey hid
    have hne : call.toolCallId ≠ "" := toolCallId_ne_of_id hid
    rw [hknown, if_neg hne, if_neg hid]

/-- The key of a call is not changed by its arguments. -/
theorem Inv.argumentsDelta (h : Inv (pre ++ .functionCall call :: post) s) (delta : String) :
    Inv (pre ++ .functionCall { call with laterArguments := call.laterArguments ++ delta } :: post)
      (s.functionCallArgumentsDelta call.id delta) := by
  have hin := key_mem pre post call
  have hcallId := h.canonical.canonicalCallId hin
  unfold Stream.functionCallArgumentsDelta
  dsimp only
  rw [hcallId]
  by_cases hid : trimSpace call.id = ""
  · -- a delta for no item
    rw [if_pos hid, if_pos rfl]
    refine h.replace rfl h.sent h.canonical fun hempty hkept hne hmap hcalls hnot => ?_
    have hargs := hkept.args call (List.mem_append_right _ List.mem_cons_self)
    have hnames := hkept.names call (List.mem_append_right _ List.mem_cons_self)
    refine hkept.step { call with laterArguments := call.laterArguments ++ delta }
      (hkept.ids.trans hmap.symm) hkept.toolCalls ?_ ?_ hcalls hnot
    · exact (Function.update_eq_self_iff.2 hnames.symm).symm
    · refine (Function.update_eq_self_iff.2 ?_).symm
      refine Eq.trans ?_ hargs.symm
      unfold CallProgress.streamed
      rw [if_neg (not_not_intro hid), if_neg (not_not_intro hid)]
  · have hne : call.toolCallId ≠ "" := toolCallId_ne_of_id hid
    rw [if_neg hid, if_neg hne]
    refine h.replace rfl ?_ ?_ fun hempty hkept hne hmap hcalls hnot => ?_
    · have hrecord : Sent (textOf (pre ++ .functionCall call :: post))
          ((calls (pre ++ .functionCall call :: post)).map CallProgress.key)
          (s.recordDelta call.toolCallId delta) := h.sent.of_maps _ _ _
      by_cases htext : textOf (pre ++ .functionCall call :: post) = ""
      · have hbefore : !call.key.afterText := by
          rw [Bool.not_eq_true', ← Bool.not_eq_true]
          intro hafter
          refine h.early call ?_ hafter htext
          rw [calls_append]
          exact List.mem_append_right _ List.mem_cons_self
        have hknown : call.toolCallId ∈ s.toolCallIds :=
          (h.sent.mem_ids _).2 ⟨hne, call.key, hin, rfl, hbefore⟩
        rw [htext] at hrecord ⊢
        refine hrecord.sendToolCallDelta hne (Or.inl hknown) fun id _ => ⟨Or.inl, ?_⟩
        rintro (hold | rfl)
        · exact hold
        · exact ⟨call.key, hin, rfl, hbefore⟩
      · rw [sendToolCallDelta_of_text "" delta
          (Or.inr (by rw [hrecord.outputText]; exact htext))]
        exact hrecord
    · have hmaps := (sendToolCallDelta_maps (s := s.recordDelta call.toolCallId delta)
        call.toolCallId "" delta).1
      constructor
      · rw [hmaps]
        exact h.canonical.empty
      · rw [hmaps]
        exact h.canonical.known
    · have hsent := h.sent
      rw [hempty] at hsent
      have hmem : call ∈ calls pre ++ call :: calls post :=
        List.mem_append_right _ List.mem_cons_self
      have hmemId : call.toolCallId ∈
          (calls pre ++ call :: calls post).map CallProgress.toolCallId :=
        List.mem_map_of_mem hmem
      refine Kept.recordDelta hsent hkept { call with
          laterArguments := call.laterArguments ++ delta } hne hmemId (hkept.names call hmem) ?_
        (hkept.ids.trans hmap.symm) hcalls hnot
      refine Eq.trans ?_ (congrArg (· ++ delta) (hkept.args call hmem).symm)
      unfold CallProgress.streamed
      rw [if_pos hid, if_pos hid]
      exact (String.append_assoc ..).symm

end Run

theorem inv_begin (createAt : ℤ) (model : String) : Inv [] (Stream.begin createAt model) := by
  refine ⟨?_, ⟨rfl, rfl, rfl, rfl, rfl, rfl, List.nodup_nil, ?_, ?_, ?_, ?_⟩, ⟨rfl, ?_⟩, ?_⟩
  · intro call hcall
    cases hcall
  · intro id
    constructor
    · intro hid
      cases hid
    · rintro ⟨-, key, hkey, -⟩
      cases hkey
  · exact ⟨fun h => (by cases h), fun h => absurd rfl h⟩
  · exact fun id => ⟨fun h => (by cases h), fun h => (by cases h)⟩
  · exact ⟨fun _ => ⟨rfl, rfl⟩, fun _ => rfl⟩
  · intro key hkey
    cases hkey
  · intro _ _ _
    refine ⟨rfl, rfl, ?_, ?_, fun _ _ => rfl⟩
    · intro call hcall
      cases hcall
    · intro call hcall
      cases hcall

theorem foldl_handle {events : List Event} {event : Event} {outputs : List Progress}
    (h : Inv outputs (events.foldl Stream.handle s)) :
    (events ++ [event]).foldl Stream.handle s = (events.foldl Stream.handle s).read event := by
  have hnone : ¬ (events.foldl Stream.handle s).streamErr.isSome := by
    rw [h.sent.streamErr]
    decide
  rw [List.foldl_append]
  exact if_neg hnone

theorem join_concat (texts : List String) (text : String) :
    String.join (texts ++ [text]) = String.join texts ++ text := by
  rw [String.join_append, Pieces.join_singleton]

theorem textOf_eq_empty {outputs : List Progress} (h : outputs.flatMap Progress.texts = []) :
    textOf outputs = "" := by
  unfold textOf
  rw [h, String.join_nil]

/-- What is sent of the events is what has come of the outputs. -/
theorem Streams.inv {outputs : List Progress} {events : List Event} (h : Streams outputs events)
    (createAt : ℤ) (model : String) :
    Inv outputs (events.foldl Stream.handle (Stream.begin createAt model)) := by
  induction h with
  | nil => exact inv_begin createAt model
  | idle _ event hevent ih =>
    rw [foldl_handle ih]
    cases hevent with
    | created response =>
      cases response with
      | none => exact ih
      | some response => exact ih.readResponse response
    | message item hitem =>
      show Inv _ (if item.type ≠ "function_call" then _ else _)
      rw [if_pos (by rw [hitem]; decide)]
      exact ih
    | other => exact ih
  | message _ item hitem ih =>
    rw [foldl_handle ih]
    show Inv _ (if item.type ≠ "function_call" then _ else _)
    rw [if_pos (by rw [hitem]; decide)]
    refine ih.of_eq ?_ ?_
    · rw [textOf_append]
      exact String.append_empty
    · rw [calls_append]
      exact List.append_nil _
  | part _ hlast ih =>
    rw [foldl_handle ih]
    refine ih.of_eq ?_ ?_
    · rw [textOf_append, textOf_append, textOf_message, textOf_message, join_concat,
        String.append_empty]
    · rw [calls_append, calls_append, calls_message, calls_message]
  | text _ hlast delta ih =>
    rw [foldl_handle ih]
    refine ih.outputTextDelta delta ?_ ?_
    · rw [textOf_append, textOf_append, textOf_message, textOf_message, join_concat, join_concat,
        textOf_eq_empty hlast, String.append_empty, String.append_empty, String.append_assoc,
        String.append_assoc]
    · rw [calls_append, calls_append, calls_message, calls_message]
  | call _ call hlater hid hafter ih =>
    rw [foldl_handle ih]
    exact ih.addCall call hlater hid hafter
  | argumentsDelta _ delta ih =>
    rw [foldl_handle ih]
    exact ih.argumentsDelta delta
  | @item pre post call events _ rest ih =>
    rw [foldl_handle ih]
    have hfull : CallProgress.streamed { call with
        itemArguments := call.arguments ++ rest, laterArguments := "" } =
          call.arguments ++ rest := by
      unfold CallProgress.streamed CallProgress.arguments
      rw [String.append_empty, ite_self]
    have hseen : ∃ more, call.arguments ++ rest = call.streamed ++ more := by
      unfold CallProgress.streamed CallProgress.arguments
      split_ifs
      · exact ⟨rest, rfl⟩
      · exact ⟨call.laterArguments ++ rest, String.append_assoc ..⟩
    refine ih.functionCallItem rfl rfl rfl (fun _ => hseen) ?_
    rw [hfull]
    split_ifs with hempty
    · rfl
    · obtain ⟨more, hmore⟩ := hseen
      have hnil := not_not.1 hempty
      rw [hmore, String.append_eq_empty_iff] at hnil
      rw [not_not.1 hempty, hnil.1]
  | @bareItem pre post call events _ ih =>
    rw [foldl_handle ih]
    exact ih.functionCallItem rfl rfl rfl (fun hne => absurd rfl hne) rfl

/-! ## The completed response -/

theorem join_filter_ne (texts : List String) :
    String.join (texts.filter fun text => text ≠ "") = String.join texts := by
  induction texts with
  | nil => rfl
  | cons text texts ih =>
    by_cases htext : text = ""
    · rw [List.filter_cons_of_neg (by simp [htext]), ih, String.join_cons, htext,
        String.empty_append]
    · rw [List.filter_cons_of_pos (by simp [htext]), String.join_cons, String.join_cons, ih]

/-- The texts that are not empty. -/
def spoken (texts : List String) : List String := texts.filter fun text => text ≠ ""

theorem join_spoken (outputs : List Progress) :
    String.join (outputs.flatMap fun output => spoken output.texts) = textOf outputs := by
  unfold textOf
  induction outputs with
  | nil => rfl
  | cons output outputs ih =>
    rw [List.flatMap_cons, List.flatMap_cons, String.join_append, String.join_append, ih]
    congr 1
    exact join_filter_ne output.texts

theorem filter_content (output : Progress) (p : String → Bool) :
    (output.output.content.filter fun c => p c.type ∧ c.text ≠ "").map
        ResponsesOutputContent.text =
      if p "output_text" then spoken output.texts else [] := by
  cases output with
  | message texts =>
    show ((texts.map (ResponsesOutputContent.mk "output_text")).filter _).map _ = _
    rw [List.filter_map, List.map_map]
    show List.map id _ = _
    rw [List.map_id]
    split_ifs with hp
    · refine List.filter_congr fun text _ => ?_
      simp [hp]
    · rw [List.filter_eq_nil_iff]
      intro text _
      simp [hp]
  | functionCall call =>
    split_ifs
    · rfl
    · rfl

variable (streamed : StreamedResponse)

theorem extractOutputText_response :
    extractOutputTextFromResponses streamed.response = textOf streamed.outputs := by
  have hfilter : (streamed.response.output.filter ResponsesOutput.isAssistantMessage).flatMap
      (fun out => (out.content.filter fun c => c.type = "output_text" ∧ c.text ≠ "").map
        ResponsesOutputContent.text) =
      streamed.outputs.flatMap fun output => spoken output.texts := by
    show ((streamed.outputs.map Progress.output).filter _).flatMap _ = _
    induction streamed.outputs with
    | nil => rfl
    | cons output outputs ih =>
      have hcontent := filter_content output fun type => type = "output_text"
      cases output with
      | message texts =>
        rw [List.map_cons, List.filter_cons_of_pos rfl, List.flatMap_cons, List.flatMap_cons, ih]
        congr 1
        simpa using hcontent
      | functionCall call =>
        have hrole : (Progress.functionCall call).output.isAssistantMessage = false := rfl
        rw [List.map_cons, List.filter_cons_of_neg (by rw [hrole]; decide), ih]
        rfl
  have hall : streamed.response.output.flatMap
      (fun out => (out.content.filter fun c => c.text ≠ "").map ResponsesOutputContent.text) =
      streamed.outputs.flatMap fun output => spoken output.texts := by
    show (streamed.outputs.map Progress.output).flatMap _ = _
    rw [List.flatMap_map]
    refine List.flatMap_congr fun output _ => ?_
    simpa using filter_content output fun _ => true
  unfold extractOutputTextFromResponses
  dsimp only
  rw [hfilter, hall, join_spoken, ite_self]

theorem filterMap_toolCall (outputs : List Progress) :
    (outputs.map Progress.output).filterMap ResponsesOutput.toolCall? =
      (calls outputs).map fun call =>
        ⟨call.toolCallId, trimSpace call.name, call.arguments⟩ := by
  induction outputs with
  | nil => rfl
  | cons output outputs ih =>
    cases output with
    | message texts => exact ih
    | functionCall call =>
      have hcall : (call.item call.arguments).toolCall? =
          some ⟨call.toolCallId, trimSpace call.name, call.arguments⟩ := by
        have htype : ¬ (call.item call.arguments).type ≠ "function_call" := not_not_intro rfl
        unfold ResponsesOutput.toolCall?
        rw [if_neg htype]
        exact if_neg call.name_ne
      rw [List.map_cons, calls_call, List.map_cons, ← ih]
      exact List.filterMap_cons_some hcall

/-- The message of the response, and its usage. -/
theorem response_eq : responsesResponseToChatCompletionsResponse streamed.response =
    (if textOf streamed.outputs = "" ∧ calls streamed.outputs ≠ [] then
        ⟨"", (calls streamed.outputs).map fun call =>
          ⟨call.toolCallId, trimSpace call.name, call.arguments⟩, some "tool_calls"⟩
      else ⟨textOf streamed.outputs, [], some "stop"⟩,
      (streamed.usage.map Usage.zero.read).getD Usage.zero) := by
  have hfilter : streamed.response.output.filterMap ResponsesOutput.toolCall? =
      (calls streamed.outputs).map fun call =>
        ⟨call.toolCallId, trimSpace call.name, call.arguments⟩ := filterMap_toolCall _
  unfold responsesResponseToChatCompletionsResponse
  dsimp only
  rw [extractOutputText_response, hfilter]
  by_cases htext : textOf streamed.outputs = ""
  · by_cases hcalls : calls streamed.outputs = []
    · rw [if_pos htext, hcalls, if_neg (by simp), if_neg (by simp)]
      rfl
    · have hpos : 0 < ((calls streamed.outputs).map fun call => ToolCall.mk call.toolCallId
          (trimSpace call.name) call.arguments).length := by
        rw [List.length_map]
        exact List.length_pos_iff.2 hcalls
      rw [if_pos htext, if_pos hpos, if_pos ⟨htext, hcalls⟩]
      rfl
  · rw [if_neg htext, if_neg (by simp), if_neg fun h => htext h.1]
    rfl

/-! ## The end of the stream -/

theorem sentStart_sendStartIfNeeded (s : Stream) : s.sendStartIfNeeded.sentStart = true := by
  unfold Stream.sendStartIfNeeded
  split_ifs with hstart
  · exact hstart
  · rfl

/-- The stop is sent once, and the usage after it. -/
theorem finish_stopIfNeeded (info : RelayInfo) (hstart : s.sentStart = true)
    (hstop : s.sentStop = false) :
    s.stopIfNeeded.streamErr = s.streamErr ∧
      assemble (s.stopIfNeeded.finish info).2 =
        { assemble s.chunks with finishReason := some s.finishReason } ∧
      (s.stopIfNeeded.finish info).1 =
        if s.usage.totalTokens = 0 then
          responseText2Usage info.estimator s.usageText info.estimatePromptTokens
        else s.usage := by
  have hsent : s.stopIfNeeded = { s with
      chunks := s.chunks ++ [⟨s.createAt, s.model, .stop s.finishReason⟩], sentStop := true } := by
    unfold Stream.stopIfNeeded
    rw [if_neg (by rw [hstop]; decide)]
    rfl
  have hassemble : assemble s.stopIfNeeded.chunks =
      { assemble s.chunks with finishReason := some s.finishReason } := by
    rw [hsent]
    exact assemble_append _ _
  have hagain : s.stopIfNeeded.sendStartIfNeeded.stopIfNeeded = s.stopIfNeeded := by
    have hstart' : s.stopIfNeeded.sendStartIfNeeded = s.stopIfNeeded := by
      rw [hsent]
      exact if_pos hstart
    rw [hstart', hsent]
    exact if_pos rfl
  have husage : ∀ usage, assemble (if info.shouldIncludeUsage then
      (s.stopIfNeeded.sendChatChunk (.usage usage)).chunks else s.stopIfNeeded.chunks) =
        assemble s.stopIfNeeded.chunks := by
    intro usage
    split_ifs
    · exact assemble_sendChatChunk _ _
    · rfl
  refine ⟨by rw [hsent], ?_, by rw [hsent]; rfl⟩
  unfold Stream.finish
  dsimp only
  rw [hagain]
  exact (husage _).trans hassemble

/-- The end of a stream that has sent its text and its calls. -/
theorem finish_complete {text : String} {keys : List Key} (h : Sent text keys s)
    (info : RelayInfo) (response : ResponsesResponse) :
    (s.complete (some response)).streamErr = none ∧
      assemble ((s.complete (some response)).finish info).2 =
        { assemble s.chunks with
          finishReason := some (if s.toolCallIds ≠ [] ∧ text = "" then "tool_calls" else "stop") } ∧
      ((s.complete (some response)).finish info).1 =
        if ((response.usage.map Usage.zero.read).getD Usage.zero).totalTokens = 0 then
          responseText2Usage info.estimator s.usageText info.estimatePromptTokens
        else (response.usage.map Usage.zero.read).getD Usage.zero := by
  obtain ⟨createAt, model, hread⟩ : ∃ createAt model, s.readResponse response =
      { s with createAt := createAt, model := model } := ⟨_, _, rfl⟩
  have hcomplete : s.complete (some response) = Stream.stopIfNeeded
      (Stream.sendStartIfNeeded { s with
        createAt := createAt
        model := model
        usage := (response.usage.map Usage.zero.read).getD Usage.zero }) := by
    unfold Stream.complete
    dsimp only
    rw [hread]
    dsimp only
    rw [h.usage]
  obtain ⟨sentStart, chunks, hstart, hchunks⟩ := sendStartIfNeeded_eq { s with
    createAt := createAt
    model := model
    usage := (response.usage.map Usage.zero.read).getD Usage.zero }
  have hsentStart := sentStart_sendStartIfNeeded { s with
    createAt := createAt
    model := model
    usage := (response.usage.map Usage.zero.read).getD Usage.zero }
  rw [hstart] at hsentStart hcomplete
  obtain ⟨herr, hassemble, husage⟩ := finish_stopIfNeeded info hsentStart h.sentStop
  rw [hcomplete]
  refine ⟨herr.trans h.streamErr, hassemble.trans ?_, husage⟩
  have hreason : (if s.sawToolCall = true ∧ s.outputText = "" then "tool_calls" else "stop") =
      if s.toolCallIds ≠ [] ∧ text = "" then "tool_calls" else "stop" := by
    rw [h.outputText]
    exact if_congr (and_congr_left' h.saw) rfl rfl
  rw [← hreason, hchunks]
  rfl

/-! ## Agreement -/

variable (info : RelayInfo)

/-- The state in which the completed response is read. -/
def StreamedResponse.sent (streamed : StreamedResponse) (info : RelayInfo) : Stream :=
  streamed.events.foldl Stream.handle (Stream.begin info.createAt info.upstreamModelName)

/-- The message of the chunks, with the stop. -/
def StreamedResponse.message (streamed : StreamedResponse) (info : RelayInfo) : ChatMessage where
  content := (assemble (streamed.sent info).chunks).content
  toolCalls := (assemble (streamed.sent info).chunks).toolCalls
  finishReason := some
    (if (streamed.sent info).toolCallIds ≠ [] ∧ textOf streamed.outputs = "" then "tool_calls"
    else "stop")

theorem handler_eq : oaiResponsesToChatStreamHandler info
      (streamed.events ++ [.completed (some streamed.response)]) =
    .ok (((streamed.sent info).complete (some streamed.response)).finish info) := by
  have hinv : Inv streamed.outputs (streamed.sent info) :=
    streamed.streams.inv info.createAt info.upstreamModelName
  have herr := (finish_complete hinv.sent info streamed.response).1
  have hfold : (streamed.events ++ [Event.completed (some streamed.response)]).foldl Stream.handle
      (Stream.begin info.createAt info.upstreamModelName) =
        (streamed.sent info).complete (some streamed.response) := foldl_handle hinv
  unfold oaiResponsesToChatStreamHandler
  rw [hfold]
  dsimp only
  rw [herr]

/-- The chunks agree in their message, and the usage. -/
theorem agrees_iff_eq : Agrees info streamed ↔
    streamed.message info = (responsesResponseToChatCompletionsResponse streamed.response).1 ∧
    (if (responsesResponseToChatCompletionsResponse streamed.response).2.totalTokens = 0 then
        responseText2Usage info.estimator (streamed.sent info).usageText info.estimatePromptTokens
      else (responsesResponseToChatCompletionsResponse streamed.response).2) =
      (responsesResponseToChatCompletionsResponse streamed.response).2 := by
  have hinv : Inv streamed.outputs (streamed.sent info) :=
    streamed.streams.inv info.createAt info.upstreamModelName
  obtain ⟨-, hmessage, husage⟩ := finish_complete hinv.sent info streamed.response
  change _ = streamed.message info at hmessage
  have hreported : (responsesResponseToChatCompletionsResponse streamed.response).2 =
      (streamed.response.usage.map Usage.zero.read).getD Usage.zero := by
    rw [response_eq]
    rfl
  rw [← hmessage, hreported, ← husage]
  unfold Agrees
  rw [handler_eq]
  constructor
  · rintro ⟨usage, chunks, hok, heq⟩
    cases hok
    exact ⟨congrArg Prod.fst heq, (congrArg Prod.snd heq).trans hreported⟩
  · rintro ⟨hfst, hsnd⟩
    exact ⟨_, _, rfl, Prod.ext hfst (hsnd.trans hreported.symm)⟩

/-- Beside text no call is sent exactly where none comes before it. -/
theorem message_of_text (htext : textOf streamed.outputs ≠ "") :
    streamed.message info = (responsesResponseToChatCompletionsResponse streamed.response).1 ↔
    ∀ call ∈ calls streamed.outputs, call.toolCallId = "" ∨ call.afterText := by
  have hsent := (streamed.streams.inv info.createAt info.upstreamModelName).sent
  change Sent _ _ (streamed.sent info) at hsent
  have hnil : (assemble (streamed.sent info).chunks).toolCalls = [] ↔
      (streamed.sent info).toolCallIds = [] := by
    rw [← hsent.ids, List.map_eq_nil_iff]
  have hids : (streamed.sent info).toolCallIds = [] ↔
      ∀ call ∈ calls streamed.outputs, call.toolCallId = "" ∨ call.afterText := by
    rw [List.eq_nil_iff_forall_not_mem]
    constructor
    · intro hnot call hcall
      by_contra hneither
      obtain ⟨hne, hbefore⟩ := not_or.1 hneither
      refine hnot call.toolCallId ((hsent.mem_ids _).2 ⟨hne, call.key, List.mem_map_of_mem hcall,
        rfl, ?_⟩)
      rw [Bool.not_eq_true']
      exact eq_false_of_ne_true hbefore
    · intro hall id hid
      obtain ⟨hne, key, hkey, heq, hbefore⟩ := (hsent.mem_ids id).1 hid
      obtain ⟨call, hcall, rfl⟩ := List.mem_map.1 hkey
      rcases hall call hcall with hempty | hafter
      · exact hne (heq.symm.trans hempty)
      · have hbefore : (!call.afterText) = true := hbefore
        rw [hafter] at hbefore
        cases hbefore
  have hmessage : (responsesResponseToChatCompletionsResponse streamed.response).1 =
      ⟨textOf streamed.outputs, [], some "stop"⟩ := by
    rw [response_eq]
    exact if_neg fun h => htext h.1
  rw [hmessage, ← hids, ← hnil]
  unfold StreamedResponse.message
  constructor
  · intro heq
    exact congrArg ChatMessage.toolCalls heq
  · intro hcalls
    rw [hcalls, hsent.content, if_neg fun h => htext h.2]

/-- Without text the calls agree exactly where they are told apart and complete. -/
theorem message_of_no_text (htext : textOf streamed.outputs = "") :
    streamed.message info = (responsesResponseToChatCompletionsResponse streamed.response).1 ↔
    Distinct (calls streamed.outputs) := by
  have hinv := streamed.streams.inv info.createAt info.upstreamModelName
  change Inv _ (streamed.sent info) at hinv
  have hsent := hinv.sent
  have hmessage : (responsesResponseToChatCompletionsResponse streamed.response).1 =
      ⟨"", (calls streamed.outputs).map fun call =>
          ⟨call.toolCallId, trimSpace call.name, call.arguments⟩,
        some (if calls streamed.outputs ≠ [] then "tool_calls" else "stop")⟩ := by
    rw [response_eq]
    dsimp only
    by_cases hcalls : calls streamed.outputs = []
    · rw [if_neg fun h => h.2 hcalls, if_neg (not_not_intro hcalls), htext, hcalls]
      rfl
    · rw [if_pos ⟨htext, hcalls⟩, if_pos hcalls]
  rw [hmessage]
  constructor
  · intro heq
    have htoolCalls : (assemble (streamed.sent info).chunks).toolCalls =
        (calls streamed.outputs).map fun call =>
          ⟨call.toolCallId, trimSpace call.name, call.arguments⟩ :=
      congrArg ChatMessage.toolCalls heq
    have hids : (streamed.sent info).toolCallIds =
        (calls streamed.outputs).map CallProgress.toolCallId := by
      rw [← hsent.ids, htoolCalls, List.map_map]
      rfl
    have hnamed : ∀ call ∈ calls streamed.outputs, call.toolCallId ≠ "" := by
      intro call hcall
      have hmem := List.mem_map_of_mem (f := CallProgress.toolCallId) hcall
      rw [← hids] at hmem
      exact ((hsent.mem_ids _).1 hmem).1
    have hnodup := hsent.nodup
    rw [hids] at hnodup
    refine ⟨hnamed, hnodup, fun call hcall => ?_⟩
    have hkept := hinv.kept htext hnamed hnodup
    have hargs := hkept.args call hcall
    rw [hkept.toolCalls, hids, List.map_map, List.map_inj_left] at htoolCalls
    have harguments : (streamed.sent info).toolCallArgsByID call.toolCallId = call.arguments :=
      congrArg ToolCall.arguments (htoolCalls call hcall)
    by_cases hid : trimSpace call.id = ""
    · rw [hargs] at harguments
      unfold CallProgress.streamed CallProgress.arguments at harguments
      rw [if_neg (not_not_intro hid)] at harguments
      exact Or.inr (String.append_eq_left_iff.1 harguments.symm)
    · exact Or.inl hid
  · intro hdistinct
    have hkept := hinv.kept htext hdistinct.named hdistinct.nodup
    have htoolCalls : (assemble (streamed.sent info).chunks).toolCalls =
        (calls streamed.outputs).map fun call =>
          ⟨call.toolCallId, trimSpace call.name, call.arguments⟩ := by
      rw [hkept.toolCalls, hkept.ids, List.map_map]
      refine List.map_congr_left fun call hcall => ?_
      show ToolCall.mk call.toolCallId ((streamed.sent info).toolCallNameByID call.toolCallId)
        ((streamed.sent info).toolCallArgsByID call.toolCallId) = _
      rw [hkept.names call hcall, hkept.args call hcall]
      congr 1
      unfold CallProgress.streamed CallProgress.arguments
      split_ifs with hid
      · rfl
      · rw [(hdistinct.complete call hcall).resolve_left hid, String.append_empty]
    have hnil : (streamed.sent info).toolCallIds ≠ [] ∧ textOf streamed.outputs = "" ↔
        calls streamed.outputs ≠ [] := by
      rw [hkept.ids, ne_eq, List.map_eq_nil_iff]
      exact and_iff_left htext
    unfold StreamedResponse.message
    rw [htoolCalls, if_congr hnil rfl rfl, hsent.content, htext]

theorem usageText_eq_empty (h : textOf streamed.outputs = "" ∧ calls streamed.outputs = []) :
    (streamed.sent info).usageText = "" := by
  have hsent := (streamed.streams.inv info.createAt info.upstreamModelName).sent
  refine hsent.usageText.2 ⟨h.1, List.eq_nil_iff_forall_not_mem.2 fun id hid => ?_⟩
  obtain ⟨-, key, hkey, -⟩ := (hsent.mem_ids id).1 hid
  rw [h.2] at hkey
  cases hkey

theorem totalTokens_read (usage : ResponsesUsage) :
    (Usage.zero.read usage).totalTokens = 0 ↔ usage.tokens = 0 := by
  show (if usage.totalTokens ≠ 0 then usage.totalTokens
    else (if usage.inputTokens ≠ 0 then usage.inputTokens else 0) +
      if usage.outputTokens ≠ 0 then usage.outputTokens else 0) = 0 ↔
    usage.inputTokens + usage.outputTokens + usage.totalTokens = 0
  split_ifs
  · omega
  · omega
  · omega
  · omega
  · omega

theorem read_eq_zero (usage : ResponsesUsage) :
    Usage.zero.read usage = Usage.zero ↔ usage.Empty := by
  have hfield : ∀ n : ℕ, (if n ≠ 0 then n else 0) = n := by
    intro n
    split_ifs with hn
    · rfl
    · omega
  constructor
  · intro h
    have hinput := congrArg Usage.inputTokens h
    have houtput := congrArg Usage.outputTokens h
    have hdetails := congrArg Usage.promptTokensDetails h
    have hreasoning := congrArg Usage.reasoningTokens h
    have htotal := (totalTokens_read usage).1 (congrArg Usage.totalTokens h)
    exact ⟨htotal, hdetails, (hfield _).symm.trans hreasoning⟩
  · rintro ⟨htokens, hdetails, hreasoning⟩
    have hsum : usage.inputTokens + usage.outputTokens + usage.totalTokens = 0 := htokens
    obtain ⟨hinput, houtput, htotal⟩ :
        usage.inputTokens = 0 ∧ usage.outputTokens = 0 ∧ usage.totalTokens = 0 := by omega
    unfold Usage.read
    rw [hinput, houtput, htotal, hreasoning]
    exact congrArg (fun details => Usage.mk 0 0 0 0 0 details 0) hdetails

theorem reported_eq : (responsesResponseToChatCompletionsResponse streamed.response).2 =
    (streamed.usage.map Usage.zero.read).getD Usage.zero := by
  rw [response_eq]

theorem reported_total_eq_zero :
    (responsesResponseToChatCompletionsResponse streamed.response).2.totalTokens = 0 ↔
      ∀ usage ∈ streamed.usage, usage.tokens = 0 := by
  rw [reported_eq]
  cases streamed.usage with
  | none => simp [Usage.zero]
  | some usage => simpa using totalTokens_read usage

theorem reported_eq_zero :
    (responsesResponseToChatCompletionsResponse streamed.response).2 = Usage.zero ↔
      ∀ usage ∈ streamed.usage, usage.Empty := by
  rw [reported_eq]
  cases streamed.usage with
  | none => simp
  | some usage => simpa using read_eq_zero usage

/-- The **stream** comes to the message and the usage of the response exactly where its calls
are consistent and the usage is reported. -/
theorem agrees_iff_consistent : Agrees info streamed ↔ Consistent info streamed := by
  have hinv := streamed.streams.inv info.createAt info.upstreamModelName
  change Inv _ (streamed.sent info) at hinv
  have hmessage : streamed.message info =
        (responsesResponseToChatCompletionsResponse streamed.response).1 ↔
      if textOf streamed.outputs = "" then Distinct (calls streamed.outputs)
      else ∀ call ∈ calls streamed.outputs, call.toolCallId = "" ∨ call.afterText := by
    split_ifs with htext
    · exact message_of_no_text streamed info htext
    · exact message_of_text streamed info htext
  rw [agrees_iff_eq, hmessage]
  constructor
  · rintro ⟨hcalls, husage⟩
    refine ⟨hcalls, ?_⟩
    by_cases htotal : (responsesResponseToChatCompletionsResponse
        streamed.response).2.totalTokens = 0
    · rw [if_pos htotal] at husage
      have hzero : info.estimatePromptTokens +
          info.estimator.estimate (streamed.sent info).usageText = 0 :=
        (congrArg Usage.totalTokens husage).trans htotal
      have hestimate : info.estimator.estimate (streamed.sent info).usageText = 0 := by omega
      obtain ⟨htext, hids⟩ :=
        hinv.sent.usageText.1 ((info.estimator.estimate_eq_zero _).1 hestimate)
      rw [if_pos htext] at hcalls
      have hnil : calls streamed.outputs = [] := by
        have hkept := (hinv.kept htext hcalls.named hcalls.nodup).ids
        rwa [hids, eq_comm, List.map_eq_nil_iff] at hkept
      refine Or.inr ⟨(reported_eq_zero streamed).1 ?_, by omega, htext, hnil⟩
      rw [← husage]
      unfold responseText2Usage
      rw [hestimate, (by omega : info.estimatePromptTokens = 0)]
      rfl
    · rw [reported_total_eq_zero] at htotal
      push Not at htotal
      exact Or.inl htotal
  · rintro ⟨hcalls, husage⟩
    refine ⟨hcalls, ?_⟩
    rcases husage with ⟨usage, husage, htokens⟩ | ⟨hreported, hprompt, hempty⟩
    · rw [if_neg fun htotal => htokens ((reported_total_eq_zero streamed).1 htotal usage husage)]
    · have hzero : Usage.zero.totalTokens = 0 := rfl
      rw [(reported_eq_zero streamed).2 hreported, if_pos hzero,
        usageText_eq_empty streamed info hempty]
      unfold responseText2Usage
      rw [hprompt, (info.estimator.estimate_eq_zero "").2 rfl]
      rfl

end Proofs

/-- A call and then a message: the stream has sent the call before it sees the text. -/
def callThenText : StreamedResponse where
  outputs :=
    [.functionCall ⟨"fc_1", "call_1", "get_weather", by decide, "\x7b\x7d", "", false⟩,
      .message ["Sunny."]]
  events :=
    [.outputItem (some ⟨"function_call", "fc_1", "", [], "call_1", "get_weather", "\x7b\x7d"⟩),
      .outputItem (some ⟨"message", "msg_1", "assistant", [], "", "", ""⟩), .other,
      .outputTextDelta "Sunny."]
  streams := by
    have hcall := Streams.nil.call
      ⟨"fc_1", "call_1", "get_weather", by decide, "\x7b\x7d", "", false⟩ rfl
      (fun call' hcall' => by cases hcall') rfl
    have hmessage := hcall.message ⟨"message", "msg_1", "assistant", [], "", "", ""⟩ rfl
    have hpart := @Streams.part [_] [] [] _ hmessage rfl
    exact @Streams.text [_] [] [] "" _ hpart rfl "Sunny."
  createdAt := 0
  model := ""
  usage := some ⟨9, 3, 12, none, 0⟩

theorem callThenText_not_agrees :
    ¬ Agrees ⟨0, "gpt-4o", 0, false, String.length, fun _ => String.length_eq_zero_iff⟩
      callThenText := by
  rintro ⟨usage, chunks, hok, heq⟩
  cases hok
  exact absurd heq (by decide)

end Convert.Responses
