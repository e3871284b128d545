import GMasterApi.Lib.JsonValue
import GMasterApi.Lib.Pieces

/-!
# Claude requests as OpenAI messages

`ClaudeToOpenAIRequest` splits a Claude message into media, tool calls and messages of the
role `tool`, and then decides which of them to emit.  What is kept of the blocks, and in
which order, is compared block by block (`keeps_iff`).
-/

namespace Convert

open JsonValue Pieces

/-! ## Claude messages -/

/-- The data as `%s` prints them. -/
structure ClaudeMessageSource where
  mediaType : String
  data : String

structure ClaudeMediaMessage where
  type : String
  text : Option String
  source : Option ClaudeMessageSource
  cacheControl : Option Json
  id : String
  name : String
  input : Json
  content : Json
  toolUseId : String

def ClaudeMediaMessage.getText (block : ClaudeMediaMessage) : String := block.text.getD ""

/-- A string, or what `ParseContent` makes of it: blocks, or its error. -/
inductive ClaudeContent
  | string (content : String)
  | blocks (contents : List ClaudeMediaMessage)
  | unparsable (err : String)

structure ClaudeMessage where
  role : String
  content : ClaudeContent

/-- `ParseContent` without its error. -/
def ClaudeMessage.parseContent (message : ClaudeMessage) : List ClaudeMediaMessage :=
  match message.content with
  | .blocks contents => contents
  | .string _ => []
  | .unparsable _ => []

/-- No system prompt, a string, or what `ParseSystem` makes of anything else. -/
inductive ClaudeSystem
  | none
  | string (system : String)
  | blocks (systems : List ClaudeMediaMessage)

structure ClaudeRequest where
  system : ClaudeSystem
  messages : List ClaudeMessage

/-- `SearchToolNameByToolCallId`, in the messages that are left. -/
def searchToolName (toolCallId : String) : List ClaudeMessage → String
  | [] => ""
  | message :: messages =>
    match message.parseContent.find? fun block => block.id = toolCallId with
    | some block => block.name
    | none => searchToolName toolCallId messages

def ClaudeRequest.searchToolNameByToolCallId (request : ClaudeRequest) (toolCallId : String) :
    String :=
  searchToolName toolCallId request.messages

/-! ## OpenAI messages -/

structure MediaContent where
  type : String
  text : String
  imageUrl : Option String
  cacheControl : Option Json

structure ToolCallRequest where
  id : String
  type : String
  name : String
  arguments : String
  deriving DecidableEq

inductive MessageContent
  | null
  | string (content : String)
  | media (content : List MediaContent)

structure Message where
  role : String
  content : MessageContent
  name : Option String
  toolCalls : List ToolCallRequest
  toolCallId : String

def Message.ofRole (role : String) : Message := ⟨role, .null, none, [], ""⟩

def Message.parseContent (message : Message) : List MediaContent :=
  match message.content with
  | .null => []
  | .string content => [⟨"text", content, none, none⟩]
  | .media content => content

/-! ## `ClaudeToOpenAIRequest` -/

/-- The conversion returns an error, or reads the source of an image that has none. -/
inductive Failure
  | err (err : String)
  | nilSource
  deriving DecidableEq

section Conversion

-- `toJSONString`, and the JSON text of `ParseMediaContent`
variable (toJSONString mediaJSON : Json → String)

/-- What the blocks of a message are split into. -/
structure Split where
  mediaMessages : List MediaContent
  toolCalls : List ToolCallRequest
  toolMessages : List Message

def ClaudeMediaMessage.toolMessage (request : ClaudeRequest) (block : ClaudeMediaMessage) :
    Message :=
  let toolName :=
    if block.name = "" then request.searchToolNameByToolCallId block.toolUseId else block.name
  let content := match block.content with
    | .string content => content
    | content => mediaJSON content
  ⟨"tool", .string content, some toolName, [], block.toolUseId⟩

def ClaudeMediaMessage.toolCall (block : ClaudeMediaMessage) : ToolCallRequest :=
  ⟨block.id, "function", block.name, toJSONString block.input⟩

/-- The loop over the blocks of a message. -/
def splitBlocks (request : ClaudeRequest) : List ClaudeMediaMessage → Except Failure Split
  | [] => .ok ⟨[], [], []⟩
  | block :: blocks =>
    let add (change : Split → Split) := (splitBlocks request blocks).map change
    if block.type = "text" ∨ block.type = "input_text" then
      add fun split =>
        { split with
          mediaMessages :=
            ⟨"text", block.getText, none, block.cacheControl⟩ :: split.mediaMessages }
    else if block.type = "image" then
      match block.source with
      | none => .error .nilSource
      | some source =>
        let imageData := "data:" ++ source.mediaType ++ ";base64," ++ source.data
        add fun split =>
          { split with
            mediaMessages := ⟨"image_url", "", some imageData, none⟩ :: split.mediaMessages }
    else if block.type = "tool_use" then
      add fun split => { split with toolCalls := block.toolCall toJSONString :: split.toolCalls }
    else if block.type = "tool_result" then
      add fun split =>
        { split with toolMessages := block.toolMessage mediaJSON request :: split.toolMessages }
    else splitBlocks request blocks

/-- A message is left out if it has neither content nor tool calls. -/
def Message.emitted (message : Message) : List Message :=
  if message.parseContent ≠ [] ∨ message.toolCalls ≠ [] then [message] else []

def Split.messages (split : Split) (role : String) : List Message :=
  let content :=
    if split.mediaMessages ≠ [] ∧ split.toolCalls = [] then .media split.mediaMessages else .null
  split.toolMessages ++
    { Message.ofRole role with content := content, toolCalls := split.toolCalls }.emitted

def convertMessage (request : ClaudeRequest) (message : ClaudeMessage) :
    Except Failure (List Message) :=
  match message.content with
  | .string content => .ok { Message.ofRole message.role with content := .string content }.emitted
  | .unparsable err => .error (.err err)
  | .blocks contents =>
    (splitBlocks toJSONString mediaJSON request contents).map fun split =>
      split.messages message.role

def convertMessages (request : ClaudeRequest) : List ClaudeMessage → Except Failure (List Message)
  | [] => .ok []
  | message :: messages =>
    (convertMessage toJSONString mediaJSON request message).bind fun converted =>
      (convertMessages request messages).map (converted ++ ·)

/-- The system message; the blocks are kept apart for the Claude models of OpenRouter. -/
def systemMessages (isOpenRouterClaude : Bool) : ClaudeSystem → List Message
  | .none => []
  | .string system =>
    if system = "" then [] else [{ Message.ofRole "system" with content := .string system }]
  | .blocks systems =>
    if systems = [] then []
    else if isOpenRouterClaude then
      [{ Message.ofRole "system" with
        content := .media (systems.map fun system =>
          ⟨"text", system.getText, none, system.cacheControl⟩) }]
    else
      [{ Message.ofRole "system" with
        content := .string (systems.foldl (fun text system => text ++ system.getText) "") }]

/-- The messages of `ClaudeToOpenAIRequest`. -/
def claudeToOpenAIMessages (request : ClaudeRequest) (isOpenRouterClaude : Bool) :
    Except Failure (List Message) :=
  (convertMessages toJSONString mediaJSON request request.messages).map
    (systemMessages isOpenRouterClaude request.system ++ ·)

end Conversion

/-! ## What is to be kept -/

/-- A text, a tool call or a tool result, wherever it stands. -/
inductive Item
  | text (role text : String)
  | toolCall (id name arguments : String)
  | toolResult (toolCallId : String)
  deriving DecidableEq

def Item.isResult : Item → Bool
  | .toolResult _ => true
  | .text _ _ => false
  | .toolCall _ _ _ => false

def Item.isCall : Item → Bool
  | .toolCall _ _ _ => true
  | .text _ _ => false
  | .toolResult _ => false

def Item.isText : Item → Bool
  | .text _ _ => true
  | .toolCall _ _ _ => false
  | .toolResult _ => false

section Items

variable (toJSONString : Json → String)

/-- Images, and blocks of other types, are not counted. -/
def ClaudeMediaMessage.item (role : String) (block : ClaudeMediaMessage) : Option Item :=
  if block.type = "text" ∨ block.type = "input_text" then some (.text role block.getText)
  else if block.type = "tool_use" then
    some (.toolCall block.id block.name (toJSONString block.input))
  else if block.type = "tool_result" then some (.toolResult block.toolUseId)
  else none

def ClaudeMessage.items (message : ClaudeMessage) : List Item :=
  match message.content with
  | .string content => [.text message.role content]
  | .blocks contents => contents.filterMap (ClaudeMediaMessage.item toJSONString message.role)
  | .unparsable _ => []

end Items

def MediaContent.item (role : String) (media : MediaContent) : Option Item :=
  if media.type = "text" then some (.text role media.text) else none

def ToolCallRequest.item (toolCall : ToolCallRequest) : Item :=
  .toolCall toolCall.id toolCall.name toolCall.arguments

/-- A message of the role `tool` with a name is a tool result. -/
def Message.items (message : Message) : List Item :=
  if message.role = "tool" ∧ message.name.isSome then [.toolResult message.toolCallId]
  else
    message.parseContent.filterMap (MediaContent.item message.role) ++
      message.toolCalls.map ToolCallRequest.item

/-- The last of the tool calls with the id. -/
def lastCall (id : String) (toolCalls : List ToolCallRequest) : Option ToolCallRequest :=
  (toolCalls.filter fun toolCall => toolCall.id = id).getLast?

/-- If the call of a tool result is among `calls`, it is among the `issued` ones, and the
result carries its name. -/
def Message.Answers (calls issued : List ToolCallRequest) (message : Message) : Prop :=
  ∀ name, message.name = some name → message.toolCallId ∈ calls.map ToolCallRequest.id →
    (lastCall message.toolCallId issued).map ToolCallRequest.name = some name

/-- Every tool result comes after its call. -/
def Answered (calls : List ToolCallRequest) : List ToolCallRequest → List Message → Prop
  | _, [] => True
  | issued, message :: messages =>
    message.Answers calls issued ∧ Answered calls (issued ++ message.toolCalls) messages

/-- The messages have every text, tool call and tool result of the request in its order, and
every tool result comes after the message with its call and carries the name of the tool. -/
structure Keeps (toJSONString : Json → String) (request : ClaudeRequest) (messages : List Message) :
    Prop where
  items : List.Sublist (request.messages.flatMap (ClaudeMessage.items toJSONString))
    (messages.flatMap Message.items)
  answered : Answered (messages.flatMap Message.toolCalls) [] messages

/-! ## What is asked of the request -/

/-- The content can be parsed, and every image has a source. -/
def ClaudeMessage.Readable (message : ClaudeMessage) : Prop :=
  match message.content with
  | .string _ => True
  | .blocks contents => ∀ block ∈ contents, block.type = "image" → block.source.isSome
  | .unparsable _ => False

/-- The tool results of a message come before everything else, and there is no text beside a
tool call. -/
structure ClaudeMessage.Orderly (message : ClaudeMessage) : Prop where
  results : First (ClaudeMediaMessage.type · = "tool_result")
    (message.parseContent.filter fun block =>
      block.type ∈ ["text", "input_text", "tool_use", "tool_result"])
  alone : (∀ block ∈ message.parseContent, block.type ≠ "text" ∧ block.type ≠ "input_text") ∨
    ∀ block ∈ message.parseContent, block.type ≠ "tool_use"

def ClaudeMessage.toolUses (message : ClaudeMessage) : List ClaudeMediaMessage :=
  message.parseContent.filter fun block => block.type = "tool_use"

/-- The name that a tool result has, or else that of the first block with its id. -/
def ClaudeRequest.NamedAs (request : ClaudeRequest) (block : ClaudeMediaMessage) (name : String) :
    Prop :=
  if block.name = "" then
    (((request.messages.flatMap ClaudeMessage.parseContent).find? fun other =>
      other.id = block.toolUseId).elim "" ClaudeMediaMessage.name) = name
  else block.name = name

/-- Every tool result whose tool use is in the request has one in an earlier message, and its
name is that of the last of these. -/
def Named (request : ClaudeRequest) :
    List ClaudeMediaMessage → List ClaudeMessage → Prop
  | _, [] => True
  | issued, message :: messages =>
    (∀ block ∈ message.parseContent, block.type = "tool_result" →
      (∃ toolUse ∈ request.messages.flatMap ClaudeMessage.toolUses,
        toolUse.id = block.toolUseId) →
      ∃ toolUse, (issued.filter fun toolUse => toolUse.id = block.toolUseId).getLast? =
        some toolUse ∧ request.NamedAs block toolUse.name) ∧
    Named request (issued ++ message.toolUses) messages

structure ClaudeRequest.Convertible (request : ClaudeRequest) : Prop where
  readable : ∀ message ∈ request.messages, message.Readable
  orderly : ∀ message ∈ request.messages, message.Orderly
  named : Named request [] request.messages

/-! ## What is kept of one message -/

/-- Of the items of a message the results come first, and the texts are dropped beside
calls. -/
def keptItems (items : List Item) : List Item :=
  items.filter Item.isResult ++
    if items.filter Item.isCall = [] then items.filter Item.isText else items.filter Item.isCall

section KeptItems

variable {items : List Item}

theorem Item.cases (item : Item) :
    (item.isResult = true ∧ item.isCall = false ∧ item.isText = false) ∨
      (item.isResult = false ∧ item.isCall = true ∧ item.isText = false) ∨
      (item.isResult = false ∧ item.isCall = false ∧ item.isText = true) := by
  cases item with
  | text role text => exact .inr (.inr ⟨rfl, rfl, rfl⟩)
  | toolCall id name arguments => exact .inr (.inl ⟨rfl, rfl, rfl⟩)
  | toolResult toolCallId => exact .inl ⟨rfl, rfl, rfl⟩

theorem others_of_no_call (h : items.filter Item.isCall = []) :
    items.filter (fun item => !item.isResult) = items.filter Item.isText := by
  refine List.filter_congr fun item hitem => ?_
  rcases item.cases with ⟨hr, _, ht⟩ | ⟨_, hc, _⟩ | ⟨hr, _, ht⟩
  · rw [hr, ht]
    rfl
  · exact absurd hc (List.filter_eq_nil_iff.1 h item hitem)
  · rw [hr, ht]
    rfl

theorem others_of_no_text (h : items.filter Item.isText = []) :
    items.filter (fun item => !item.isResult) = items.filter Item.isCall := by
  refine List.filter_congr fun item hitem => ?_
  rcases item.cases with ⟨hr, hc, _⟩ | ⟨hr, hc, _⟩ | ⟨_, _, ht⟩
  · rw [hr, hc]
    rfl
  · rw [hr, hc]
    rfl
  · exact absurd ht (List.filter_eq_nil_iff.1 h item hitem)

theorem length_keptItems_le : (keptItems items).length ≤ items.length := by
  have hsplit : (items.filter Item.isResult).length +
      (items.filter fun item => !item.isResult).length = items.length :=
    (List.length_eq_length_filter_add Item.isResult).symm
  have hle : ∀ p : Item → Bool, (∀ item, p item = true → item.isResult = false) →
      (items.filter p).length ≤ (items.filter fun item => !item.isResult).length := by
    intro p hp
    refine List.Sublist.length_le (List.monotone_filter_right items fun item hitem => ?_)
    rw [hp item hitem]
    rfl
  have hcalls := hle Item.isCall fun item hitem => by
    cases item with
    | toolResult toolCallId => cases hitem
    | text role text => rfl
    | toolCall id name arguments => rfl
  have htexts := hle Item.isText fun item hitem => by
    cases item with
    | toolResult toolCallId => cases hitem
    | text role text => rfl
    | toolCall id name arguments => rfl
  unfold keptItems
  rw [List.length_append]
  split <;> omega

/-- All is kept, and in its order, where the results come first and calls are alone. -/
theorem keptItems_eq_iff : items = keptItems items ↔
    First Item.isResult items ∧
      (items.filter Item.isText = [] ∨ items.filter Item.isCall = []) := by
  unfold keptItems
  by_cases hcalls : items.filter Item.isCall = []
  · rw [if_pos hcalls, ← others_of_no_call hcalls, filter_append_filter_iff]
    exact ⟨fun h => ⟨h, .inr hcalls⟩, fun h => h.1⟩
  · rw [if_neg hcalls]
    constructor
    · intro h
      have htexts : items.filter Item.isText = [] := by
        refine List.filter_eq_nil_iff.2 fun item hitem => ?_
        rw [h] at hitem
        have hkind : item.isResult = true ∨ item.isCall = true :=
          (List.mem_append.1 hitem).imp (fun hr => (List.mem_filter.1 hr).2)
            (fun hc => (List.mem_filter.1 hc).2)
        rcases item.cases with ⟨_, _, ht⟩ | ⟨_, _, ht⟩ | ⟨hr, hc, _⟩
        · simp [ht]
        · simp [ht]
        · rw [hr, hc] at hkind
          simp at hkind
      rw [← others_of_no_text htexts, filter_append_filter_iff] at h
      exact ⟨h, .inl htexts⟩
    · rintro ⟨hfirst, htexts | hnone⟩
      · rw [← others_of_no_text htexts]
        exact filter_append_filter_iff.2 hfirst
      · exact absurd hnone hcalls

end KeptItems

section Orderly

variable (toJSONString : Json → String)

/-- The four kinds of block, each with its item. -/
theorem item_cases (role : String) (block : ClaudeMediaMessage) :
    ((block.type = "text" ∨ block.type = "input_text") ∧ block.type ≠ "tool_use" ∧
        block.type ≠ "tool_result" ∧
        block.item toJSONString role = some (.text role block.getText)) ∨
      (block.type = "tool_use" ∧
        block.item toJSONString role =
          some (.toolCall block.id block.name (toJSONString block.input))) ∨
      (block.type = "tool_result" ∧
        block.item toJSONString role = some (.toolResult block.toolUseId)) ∨
      (block.type ∉ ["text", "input_text", "tool_use", "tool_result"] ∧
        block.item toJSONString role = none) := by
  unfold ClaudeMediaMessage.item
  by_cases htext : block.type = "text" ∨ block.type = "input_text"
  · rw [if_pos htext]
    refine .inl ⟨htext, ?_, ?_, rfl⟩
    · rcases htext with h | h <;> rw [h] <;> decide
    · rcases htext with h | h <;> rw [h] <;> decide
  · rw [if_neg htext]
    by_cases huse : block.type = "tool_use"
    · rw [if_pos huse]
      exact .inr (.inl ⟨huse, rfl⟩)
    · rw [if_neg huse]
      by_cases hresult : block.type = "tool_result"
      · rw [if_pos hresult]
        exact .inr (.inr (.inl ⟨hresult, rfl⟩))
      · rw [if_neg hresult]
        refine .inr (.inr (.inr ⟨?_, rfl⟩))
        simp only [List.mem_cons, List.not_mem_nil, or_false, not_or]
        exact ⟨fun h => htext (.inl h), fun h => htext (.inr h), huse, hresult⟩

theorem item_isText (role : String) (block : ClaudeMediaMessage) :
    (∃ item, block.item toJSONString role = some item ∧ item.isText = true) ↔
      block.type = "text" ∨ block.type = "input_text" := by
  rcases item_cases toJSONString role block with
    ⟨h, -, -, hitem⟩ | ⟨h, hitem⟩ | ⟨h, hitem⟩ | ⟨h, hitem⟩
  · rw [hitem]
    simp [h, Item.isText]
  · rw [hitem, h]
    simp [Item.isText]
  · rw [hitem, h]
    simp [Item.isText]
  · rw [hitem]
    simp only [List.mem_cons, not_or] at h
    simp [h.1, h.2.1]

theorem item_isCall (role : String) (block : ClaudeMediaMessage) :
    (∃ item, block.item toJSONString role = some item ∧ item.isCall = true) ↔
      block.type = "tool_use" := by
  rcases item_cases toJSONString role block with
    ⟨-, h, -, hitem⟩ | ⟨h, hitem⟩ | ⟨h, hitem⟩ | ⟨h, hitem⟩
  · rw [hitem]
    simp [h, Item.isCall]
  · rw [hitem, h]
    simp [Item.isCall]
  · rw [hitem, h]
    simp [Item.isCall]
  · rw [hitem]
    simp only [List.mem_cons, not_or] at h
    simp [h.2.2.1]

theorem filter_items_eq_nil {p : Item → Bool} {q : ClaudeMediaMessage → Prop} {role : String}
    (h : ∀ block, (∃ item, block.item toJSONString role = some item ∧ p item = true) ↔ q block)
    (blocks : List ClaudeMediaMessage) :
    (blocks.filterMap (ClaudeMediaMessage.item toJSONString role)).filter p = [] ↔
      ∀ block ∈ blocks, ¬ q block := by
  rw [List.filter_eq_nil_iff]
  constructor
  · intro hnone block hblock hq
    obtain ⟨item, hitem, hp⟩ := (h block).2 hq
    exact hnone item (List.mem_filterMap.2 ⟨block, hblock, hitem⟩) hp
  · intro hnone item hitem hp
    obtain ⟨block, hblock, hitem⟩ := List.mem_filterMap.1 hitem
    exact hnone block hblock ((h block).1 ⟨item, hitem, hp⟩)

theorem item_some {role : String} {block : ClaudeMediaMessage} {item : Item}
    (h : block.item toJSONString role = some item) :
    block.type ∈ ["text", "input_text", "tool_use", "tool_result"] ∧
      (item.isResult = true ↔ block.type = "tool_result") := by
  rcases item_cases toJSONString role block with
    ⟨htype, -, hne, hitem⟩ | ⟨htype, hitem⟩ | ⟨htype, hitem⟩ | ⟨htype, hitem⟩
  · cases hitem.symm.trans h
    refine ⟨?_, by simp [Item.isResult, hne]⟩
    rcases htype with htype | htype <;> simp [htype]
  · cases hitem.symm.trans h
    simp [htype, Item.isResult]
  · cases hitem.symm.trans h
    simp [htype, Item.isResult]
  · cases hitem.symm.trans h

theorem exists_item {block : ClaudeMediaMessage}
    (h : block.type ∈ ["text", "input_text", "tool_use", "tool_result"]) (role : String) :
    ∃ item, block.item toJSONString role = some item := by
  rcases item_cases toJSONString role block with
    ⟨-, -, -, hitem⟩ | ⟨-, hitem⟩ | ⟨-, hitem⟩ | ⟨htype, -⟩
  · exact ⟨_, hitem⟩
  · exact ⟨_, hitem⟩
  · exact ⟨_, hitem⟩
  · exact absurd h htype

theorem first_items_iff (role : String) (blocks : List ClaudeMediaMessage) :
    First Item.isResult (blocks.filterMap (ClaudeMediaMessage.item toJSONString role)) ↔
      First (ClaudeMediaMessage.type · = "tool_result")
        (blocks.filter fun block =>
          block.type ∈ ["text", "input_text", "tool_use", "tool_result"]) := by
  unfold First
  rw [List.pairwise_filterMap, List.pairwise_filter]
  refine List.Pairwise.iff fun a b => ?_
  simp only [decide_eq_true_eq]
  constructor
  · intro h ha hb hresult
    obtain ⟨item, hitem⟩ := exists_item toJSONString ha role
    obtain ⟨other, hother⟩ := exists_item toJSONString hb role
    have hkept := h item hitem other hother ((item_some toJSONString hother).2.2 hresult)
    exact (item_some toJSONString hitem).2.1 hkept
  · intro h item hitem other hother hresult
    obtain ⟨ha, hiff⟩ := item_some toJSONString hitem
    obtain ⟨hb, hiff'⟩ := item_some toJSONString hother
    exact hiff.2 (h ha hb (hiff'.1 hresult))

/-- All the items of a message are kept, in their order, exactly if it is orderly. -/
theorem keptItems_eq_iff_orderly (message : ClaudeMessage) :
    message.items toJSONString = keptItems (message.items toJSONString) ↔ message.Orderly := by
  rw [keptItems_eq_iff]
  unfold ClaudeMessage.items
  have horderly : message.Orderly ↔ _ ∧ _ := ⟨fun h => ⟨h.results, h.alone⟩, fun h => ⟨h.1, h.2⟩⟩
  rw [horderly]
  unfold ClaudeMessage.parseContent
  cases message.content with
  | string content => simp [First, Item.isCall]
  | unparsable err => simp [First]
  | blocks contents =>
    dsimp only
    rw [first_items_iff, filter_items_eq_nil toJSONString (item_isText toJSONString _),
      filter_items_eq_nil toJSONString (item_isCall toJSONString _)]
    simp only [not_or]

end Orderly

/-! ## One message converted -/

section Convert

variable (toJSONString mediaJSON : Json → String) (request : ClaudeRequest)

open ClaudeMediaMessage

def ClaudeMediaMessage.isToolUse (block : ClaudeMediaMessage) : Bool := block.type = "tool_use"

def ClaudeMediaMessage.isToolResult (block : ClaudeMediaMessage) : Bool :=
  block.type = "tool_result"

/-- The items of a kind are those of the blocks of a kind. -/
theorem filter_items {role : String} {p : Item → Bool} {q : ClaudeMediaMessage → Bool}
    {g : ClaudeMediaMessage → Item}
    (h : ∀ block, (q block = true ∧ block.item toJSONString role = some (g block) ∧
        p (g block) = true) ∨
      (q block = false ∧ ∀ item, block.item toJSONString role = some item → p item = false))
    (blocks : List ClaudeMediaMessage) :
    (blocks.filterMap (ClaudeMediaMessage.item toJSONString role)).filter p =
      (blocks.filter q).map g := by
  induction blocks with
  | nil => rfl
  | cons block blocks ih =>
    rcases h block with ⟨hq, hitem, hp⟩ | ⟨hq, hnone⟩
    · rw [List.filterMap_cons_some hitem, List.filter_cons_of_pos hp, List.filter_cons_of_pos hq,
        List.map_cons, ih]
    · rw [List.filter_cons_of_neg (by simp [hq]), ← ih]
      cases hitem : block.item toJSONString role with
      | none => rw [List.filterMap_cons_none hitem]
      | some item =>
        rw [List.filterMap_cons_some hitem, List.filter_cons_of_neg (by simp [hnone item hitem])]

theorem filter_isCall (role : String) (blocks : List ClaudeMediaMessage) :
    (blocks.filterMap (ClaudeMediaMessage.item toJSONString role)).filter Item.isCall =
      (blocks.filter ClaudeMediaMessage.isToolUse).map fun block =>
        (block.toolCall toJSONString).item := by
  refine filter_items toJSONString (fun block => ?_) blocks
  unfold ClaudeMediaMessage.isToolUse
  rcases item_cases toJSONString role block with
    ⟨-, htype, -, hitem⟩ | ⟨htype, hitem⟩ | ⟨htype, hitem⟩ | ⟨htype, hitem⟩
  · exact .inr ⟨by simp [htype], fun item h => by cases hitem.symm.trans h; rfl⟩
  · exact .inl ⟨by simp [htype], hitem, rfl⟩
  · exact .inr ⟨by simp [htype], fun item h => by cases hitem.symm.trans h; rfl⟩
  · exact .inr ⟨by simp_all, fun item h => by cases hitem.symm.trans h⟩

theorem filter_isResult (role : String) (blocks : List ClaudeMediaMessage) :
    (blocks.filterMap (ClaudeMediaMessage.item toJSONString role)).filter Item.isResult =
      (blocks.filter ClaudeMediaMessage.isToolResult).map fun block =>
        .toolResult block.toolUseId := by
  refine filter_items toJSONString (fun block => ?_) blocks
  unfold ClaudeMediaMessage.isToolResult
  rcases item_cases toJSONString role block with
    ⟨-, -, htype, hitem⟩ | ⟨htype, hitem⟩ | ⟨htype, hitem⟩ | ⟨htype, hitem⟩
  · exact .inr ⟨by simp [htype], fun item h => by cases hitem.symm.trans h; rfl⟩
  · exact .inr ⟨by simp [htype], fun item h => by cases hitem.symm.trans h; rfl⟩
  · exact .inl ⟨by simp [htype], hitem, rfl⟩
  · exact .inr ⟨by simp_all, fun item h => by cases hitem.symm.trans h⟩

/-- The loop over the blocks, where every image has a source. -/
theorem splitBlocks_ok {blocks : List ClaudeMediaMessage}
    (h : ∀ block ∈ blocks, block.type = "image" → block.source.isSome) :
    ∃ media, splitBlocks toJSONString mediaJSON request blocks =
        .ok ⟨media,
          (blocks.filter ClaudeMediaMessage.isToolUse).map
            (ClaudeMediaMessage.toolCall toJSONString),
          (blocks.filter ClaudeMediaMessage.isToolResult).map
            (ClaudeMediaMessage.toolMessage mediaJSON request)⟩ ∧
      ∀ role, media.filterMap (MediaContent.item role) =
        (blocks.filterMap (ClaudeMediaMessage.item toJSONString role)).filter Item.isText := by
  induction blocks with
  | nil => exact ⟨[], rfl, fun _ => rfl⟩
  | cons block blocks ih =>
    obtain ⟨media, hrest, htexts⟩ := ih fun other hother => h other (List.mem_cons_of_mem _ hother)
    unfold splitBlocks
    dsimp only
    rw [hrest]
    by_cases htext : block.type = "text" ∨ block.type = "input_text"
    · rw [if_pos htext,
        List.filter_cons_of_neg (by rcases htext with h | h <;> simp [isToolUse, h]),
        List.filter_cons_of_neg (by rcases htext with h | h <;> simp [isToolResult, h])]
      refine ⟨_, rfl, fun role => ?_⟩
      have hitem : block.item toJSONString role = some (.text role block.getText) := if_pos htext
      rw [List.filterMap_cons_some hitem, List.filter_cons_of_pos rfl, ← htexts role]
      exact List.filterMap_cons_some (if_pos rfl)
    · rw [if_neg htext]
      by_cases himage : block.type = "image"
      · rw [if_pos himage, List.filter_cons_of_neg (by simp [isToolUse, himage]),
          List.filter_cons_of_neg (by simp [isToolResult, himage])]
        obtain ⟨source, hsource⟩ :=
          Option.isSome_iff_exists.1 (h block List.mem_cons_self himage)
        rw [hsource]
        refine ⟨_, rfl, fun role => ?_⟩
        have hitem : block.item toJSONString role = none := by
          simp [ClaudeMediaMessage.item, himage]
        rw [List.filterMap_cons_none hitem, ← htexts role]
        exact List.filterMap_cons_none (if_neg (by simp))
      · rw [if_neg himage]
        by_cases huse : block.type = "tool_use"
        · rw [if_pos huse, List.filter_cons_of_pos (by simp [isToolUse, huse]),
            List.filter_cons_of_neg (by simp [isToolResult, huse])]
          refine ⟨_, rfl, fun role => ?_⟩
          have hitem : block.item toJSONString role =
              some (.toolCall block.id block.name (toJSONString block.input)) :=
            (if_neg htext).trans (if_pos huse)
          rw [List.filterMap_cons_some hitem, List.filter_cons_of_neg (by simp [Item.isText])]
          exact htexts role
        · rw [if_neg huse, List.filter_cons_of_neg (by simp [isToolUse, huse])]
          by_cases hresult : block.type = "tool_result"
          · rw [if_pos hresult, List.filter_cons_of_pos (by simp [isToolResult, hresult])]
            refine ⟨_, rfl, fun role => ?_⟩
            have hitem : block.item toJSONString role = some (.toolResult block.toolUseId) :=
              (if_neg htext).trans ((if_neg huse).trans (if_pos hresult))
            rw [List.filterMap_cons_some hitem, List.filter_cons_of_neg (by simp [Item.isText])]
            exact htexts role
          · rw [if_neg hresult, List.filter_cons_of_neg (by simp [isToolResult, hresult])]
            refine ⟨media, rfl, fun role => ?_⟩
            have hitem : block.item toJSONString role = none :=
              (if_neg htext).trans ((if_neg huse).trans (if_neg hresult))
            rw [List.filterMap_cons_none hitem]
            exact htexts role

/-- An image without a source stops the loop. -/
theorem splitBlocks_error {blocks : List ClaudeMediaMessage}
    (h : ¬ ∀ block ∈ blocks, block.type = "image" → block.source.isSome) :
    splitBlocks toJSONString mediaJSON request blocks = .error .nilSource := by
  induction blocks with
  | nil => exact absurd (by simp) h
  | cons block blocks ih =>
    by_cases hthis : block.type = "image" → block.source.isSome
    · have hrest := ih fun hall => h fun other hother => by
        rcases List.mem_cons.1 hother with rfl | hother
        · exact hthis
        · exact hall other hother
      unfold splitBlocks
      rw [hrest]
      split
      · rfl
      · split
        · split <;> rfl
        · split
          · rfl
          · split <;> rfl
    · have himage : block.type = "image" := by
        by_contra hne
        exact hthis fun h => absurd h hne
      have hsource : block.source = none := by
        simpa [himage] using hthis
      unfold splitBlocks
      simp [himage, hsource]

theorem items_of_name_none {message : Message} (h : message.name = none) :
    message.items = message.parseContent.filterMap (MediaContent.item message.role) ++
      message.toolCalls.map ToolCallRequest.item := by
  unfold Message.items
  rw [h]
  exact if_neg (by simp)

theorem items_emitted {message : Message} (h : message.name = none) :
    message.emitted.flatMap Message.items = message.items := by
  unfold Message.emitted
  split
  · simp
  · rename_i hnone
    obtain ⟨hcontent, hcalls⟩ := not_or.1 hnone
    rw [items_of_name_none h, not_not.1 hcontent, not_not.1 hcalls]
    rfl

theorem toolCalls_emitted (message : Message) :
    message.emitted.flatMap Message.toolCalls = message.toolCalls := by
  unfold Message.emitted
  split
  · simp
  · rename_i hnone
    rw [not_not.1 (not_or.1 hnone).2]
    rfl

theorem answered_append {calls issued : List ToolCallRequest} {xs ys : List Message} :
    Answered calls issued (xs ++ ys) ↔
      Answered calls issued xs ∧ Answered calls (issued ++ xs.flatMap Message.toolCalls) ys := by
  induction xs generalizing issued with
  | nil => simp [Answered]
  | cons x xs ih =>
    rw [List.cons_append, Answered, Answered, ih, List.flatMap_cons, List.append_assoc, and_assoc]

theorem answered_emitted {calls issued : List ToolCallRequest} {message : Message}
    (h : message.name = none) : Answered calls issued message.emitted := by
  unfold Message.emitted
  split
  · refine ⟨fun name hname => ?_, trivial⟩
    rw [h] at hname
    cases hname
  · exact trivial

theorem answered_toolMessages {calls issued : List ToolCallRequest}
    {blocks : List ClaudeMediaMessage} :
    Answered calls issued (blocks.map (toolMessage mediaJSON request)) ↔
      ∀ block ∈ blocks, (block.toolMessage mediaJSON request).Answers calls issued := by
  induction blocks with
  | nil => simp [Answered]
  | cons block blocks ih =>
    rw [List.map_cons, Answered, List.forall_mem_cons]
    show _ ∧ Answered calls (issued ++ []) _ ↔ _
    rw [List.append_nil, ih]

theorem toolCalls_toolMessages (blocks : List ClaudeMediaMessage) :
    (blocks.map (toolMessage mediaJSON request)).flatMap Message.toolCalls = [] := by
  induction blocks with
  | nil => rfl
  | cons block blocks ih => exact ih

theorem items_toolMessages (blocks : List ClaudeMediaMessage) :
    (blocks.map (toolMessage mediaJSON request)).flatMap Message.items =
      blocks.map fun block => .toolResult block.toolUseId := by
  induction blocks with
  | nil => rfl
  | cons block blocks ih => exact congrArg (_ :: ·) ih

/-- What becomes of a message that can be read. -/
structure Converted (message : ClaudeMessage) (converted : List Message) : Prop where
  items : converted.flatMap Message.items = keptItems (message.items toJSONString)
  toolCalls : converted.flatMap Message.toolCalls = message.toolUses.map (toolCall toJSONString)
  answered : ∀ calls issued, Answered calls issued converted ↔
    ∀ block ∈ message.parseContent.filter isToolResult,
      (block.toolMessage mediaJSON request).Answers calls issued

theorem converted_string {message : ClaudeMessage} {content : String}
    (h : message.content = .string content) :
    Converted toJSONString mediaJSON request message
      { Message.ofRole message.role with content := .string content }.emitted := by
  have hitems : message.items toJSONString = [.text message.role content] := by
    unfold ClaudeMessage.items
    rw [h]
  have hblocks : message.parseContent = [] := by
    unfold ClaudeMessage.parseContent
    rw [h]
  refine ⟨?_, ?_, fun calls issued => ?_⟩
  · rw [items_emitted rfl, items_of_name_none rfl, hitems]
    rfl
  · rw [toolCalls_emitted]
    unfold ClaudeMessage.toolUses
    rw [hblocks]
    rfl
  · rw [hblocks]
    exact ⟨fun _ block hblock => absurd hblock List.not_mem_nil, fun _ => answered_emitted rfl⟩

theorem parseContent_split (role : String) (media : List MediaContent)
    (toolCalls : List ToolCallRequest) :
    Message.parseContent { Message.ofRole role with
      content := if media ≠ [] ∧ toolCalls = [] then .media media else .null
      toolCalls := toolCalls } = if toolCalls = [] then media else [] := by
  unfold Message.parseContent
  by_cases hcalls : toolCalls = []
  · by_cases hmedia : media = []
    · simp [hmedia]
    · simp [hmedia, hcalls]
  · simp [hcalls]

/-- The messages of a split are its tool results and then, with the role, its tool calls or
else its media. -/
theorem converted_split {message : ClaudeMessage} {contents : List ClaudeMediaMessage}
    {media : List MediaContent} (h : message.content = .blocks contents)
    (htexts : media.filterMap (MediaContent.item message.role) =
      (contents.filterMap (ClaudeMediaMessage.item toJSONString message.role)).filter
        Item.isText) :
    Converted toJSONString mediaJSON request message
      (Split.messages ⟨media, (contents.filter isToolUse).map (toolCall toJSONString),
        (contents.filter isToolResult).map (toolMessage mediaJSON request)⟩ message.role) := by
  have hitems : message.items toJSONString =
      contents.filterMap (ClaudeMediaMessage.item toJSONString message.role) := by
    unfold ClaudeMessage.items
    rw [h]
  have hblocks : message.parseContent = contents := by
    unfold ClaudeMessage.parseContent
    rw [h]
  refine ⟨?_, ?_, fun calls issued => ?_⟩
  · unfold Split.messages keptItems
    rw [List.flatMap_append, items_toolMessages, items_emitted rfl, items_of_name_none rfl, hitems,
      filter_isResult, filter_isCall]
    congr 1
    refine (congrArg (fun content => content.filterMap (MediaContent.item message.role) ++ _)
      (parseContent_split message.role media _)).trans ?_
    show _ ++ ((contents.filter isToolUse).map (toolCall toJSONString)).map ToolCallRequest.item = _
    rw [List.map_map]
    by_cases hcalls : contents.filter isToolUse = []
    · rw [hcalls]
      simpa using htexts
    · have hmap : ∀ g : ClaudeMediaMessage → Item, (contents.filter isToolUse).map g ≠ [] :=
        fun g hnil => hcalls (List.map_eq_nil_iff.1 hnil)
      rw [if_neg fun hnil => hcalls (List.map_eq_nil_iff.1 hnil), if_neg (hmap _)]
      rfl
  · unfold Split.messages
    rw [List.flatMap_append, toolCalls_toolMessages, toolCalls_emitted]
    unfold ClaudeMessage.toolUses
    rw [hblocks]
    rfl
  · unfold Split.messages
    rw [answered_append, answered_toolMessages, hblocks]
    exact ⟨fun h => h.1, fun h => ⟨h, answered_emitted rfl⟩⟩

theorem convertMessage_ok {message : ClaudeMessage} (h : message.Readable) :
    ∃ converted, convertMessage toJSONString mediaJSON request message = .ok converted ∧
      Converted toJSONString mediaJSON request message converted := by
  unfold ClaudeMessage.Readable at h
  unfold convertMessage
  cases hcontent : message.content with
  | string content => exact ⟨_, rfl, converted_string _ _ _ hcontent⟩
  | unparsable err =>
    rw [hcontent] at h
    exact h.elim
  | blocks contents =>
    rw [hcontent] at h
    obtain ⟨media, hsplit, htexts⟩ := splitBlocks_ok toJSONString mediaJSON request h
    dsimp only
    rw [hsplit]
    exact ⟨_, rfl, converted_split _ _ _ hcontent (htexts message.role)⟩

theorem convertMessage_error {message : ClaudeMessage} (h : ¬ message.Readable) :
    ∃ failure, convertMessage toJSONString mediaJSON request message = .error failure := by
  unfold ClaudeMessage.Readable at h
  unfold convertMessage
  cases hcontent : message.content with
  | string content =>
    rw [hcontent] at h
    exact absurd trivial h
  | unparsable err => exact ⟨_, rfl⟩
  | blocks contents =>
    rw [hcontent] at h
    dsimp only
    rw [splitBlocks_error toJSONString mediaJSON request h]
    exact ⟨_, rfl⟩

/-! ## The whole request -/

/-- What a message is converted to, if it can be read. -/
def pieces (message : ClaudeMessage) : List Message :=
  match convertMessage toJSONString mediaJSON request message with
  | .ok converted => converted
  | .error _ => []

theorem converted_pieces {message : ClaudeMessage} (h : message.Readable) :
    Converted toJSONString mediaJSON request message
      (pieces toJSONString mediaJSON request message) := by
  obtain ⟨converted, hok, hconverted⟩ := convertMessage_ok toJSONString mediaJSON request h
  unfold pieces
  rw [hok]
  exact hconverted

theorem convertMessages_ok {messages : List ClaudeMessage}
    (h : ∀ message ∈ messages, message.Readable) :
    convertMessages toJSONString mediaJSON request messages =
      .ok (messages.flatMap (pieces toJSONString mediaJSON request)) := by
  induction messages with
  | nil => rfl
  | cons message messages ih =>
    obtain ⟨converted, hok, -⟩ :=
      convertMessage_ok toJSONString mediaJSON request (h message List.mem_cons_self)
    unfold convertMessages
    rw [ih fun other hother => h other (List.mem_cons_of_mem _ hother), hok, List.flatMap_cons]
    unfold pieces
    rw [hok]
    rfl

theorem convertMessages_error {messages : List ClaudeMessage}
    (h : ¬ ∀ message ∈ messages, message.Readable) :
    ∃ failure, convertMessages toJSONString mediaJSON request messages = .error failure := by
  induction messages with
  | nil => exact absurd (by simp) h
  | cons message messages ih =>
    unfold convertMessages
    by_cases hthis : message.Readable
    · obtain ⟨converted, hok, -⟩ := convertMessage_ok toJSONString mediaJSON request hthis
      obtain ⟨failure, herror⟩ := ih fun hall => h fun other hother => by
        rcases List.mem_cons.1 hother with rfl | hother
        · exact hthis
        · exact hall other hother
      rw [hok, herror]
      exact ⟨failure, rfl⟩
    · obtain ⟨failure, herror⟩ := convertMessage_error toJSONString mediaJSON request hthis
      rw [herror]
      exact ⟨failure, rfl⟩

theorem searchToolName_eq (toolCallId : String) (messages : List ClaudeMessage) :
    searchToolName toolCallId messages =
      ((messages.flatMap ClaudeMessage.parseContent).find? fun block =>
        block.id = toolCallId).elim "" ClaudeMediaMessage.name := by
  induction messages with
  | nil => rfl
  | cons message messages ih =>
    unfold searchToolName
    rw [List.flatMap_cons, List.find?_append]
    cases message.parseContent.find? fun block => block.id = toolCallId with
    | none => exact ih
    | some block => rfl

theorem lastCall_map (id : String) (toolUses : List ClaudeMediaMessage) :
    lastCall id (toolUses.map (toolCall toJSONString)) =
      ((toolUses.filter fun toolUse => toolUse.id = id).getLast?).map (toolCall toJSONString) := by
  unfold lastCall
  rw [List.filter_map, List.getLast?_map]
  rfl

/-- A tool result answers its call exactly if it is named as the call. -/
theorem answers_iff (block : ClaudeMediaMessage) (issued : List ClaudeMediaMessage) :
    (block.toolMessage mediaJSON request).Answers
        ((request.messages.flatMap ClaudeMessage.toolUses).map (toolCall toJSONString))
        (issued.map (toolCall toJSONString)) ↔
      ((∃ toolUse ∈ request.messages.flatMap ClaudeMessage.toolUses,
          toolUse.id = block.toolUseId) →
        ∃ toolUse, (issued.filter fun toolUse => toolUse.id = block.toolUseId).getLast? =
          some toolUse ∧ request.NamedAs block toolUse.name) := by
  have hnamed : ∀ name, request.NamedAs block name ↔
      (block.toolMessage mediaJSON request).name = some name := by
    intro name
    show _ ↔ some (if block.name = "" then request.searchToolNameByToolCallId block.toolUseId
      else block.name) = some name
    unfold ClaudeRequest.NamedAs ClaudeRequest.searchToolNameByToolCallId
    rw [searchToolName_eq]
    split <;> simp
  have hmem : block.toolUseId ∈ ((request.messages.flatMap ClaudeMessage.toolUses).map
        (toolCall toJSONString)).map ToolCallRequest.id ↔
      ∃ toolUse ∈ request.messages.flatMap ClaudeMessage.toolUses,
        toolUse.id = block.toolUseId := by
    rw [List.map_map]
    exact List.mem_map
  unfold Message.Answers
  show (∀ name, _ → block.toolUseId ∈ _ → (lastCall block.toolUseId _).map _ = _) ↔ _
  rw [hmem, lastCall_map, Option.map_map]
  constructor
  · intro h hissued
    have hlast := h _ rfl hissued
    obtain ⟨toolUse, htoolUse, hname⟩ := Option.map_eq_some_iff.1 hlast
    refine ⟨toolUse, htoolUse, (hnamed _).2 ?_⟩
    show some _ = some _
    rw [← hname]
    rfl
  · intro h name hname hissued
    obtain ⟨toolUse, htoolUse, hthis⟩ := h hissued
    rw [htoolUse]
    exact (((hnamed _).1 hthis).symm.trans hname)

theorem answered_iff {messages : List ClaudeMessage} (issued : List ClaudeMediaMessage)
    (h : ∀ message ∈ messages, message.Readable) :
    Answered ((request.messages.flatMap ClaudeMessage.toolUses).map (toolCall toJSONString))
        (issued.map (toolCall toJSONString))
        (messages.flatMap (pieces toJSONString mediaJSON request)) ↔
      Named request issued messages := by
  induction messages generalizing issued with
  | nil => exact Iff.rfl
  | cons message messages ih =>
    have hpieces := converted_pieces toJSONString mediaJSON request (h message List.mem_cons_self)
    rw [List.flatMap_cons, answered_append, hpieces.answered, hpieces.toolCalls, ← List.map_append,
      ih _ fun other hother => h other (List.mem_cons_of_mem _ hother)]
    rw [Named]
    refine and_congr ?_ Iff.rfl
    simp only [answers_iff, List.mem_filter, and_imp, isToolResult, decide_eq_true_eq]

theorem keeps_iff (h : ∀ message ∈ request.messages, message.Readable) :
    Keeps toJSONString request
        (request.messages.flatMap (pieces toJSONString mediaJSON request)) ↔
      (∀ message ∈ request.messages, message.Orderly) ∧ Named request [] request.messages := by
  have hcalls : (request.messages.flatMap (pieces toJSONString mediaJSON request)).flatMap
        Message.toolCalls =
      (request.messages.flatMap ClaudeMessage.toolUses).map (toolCall toJSONString) := by
    rw [List.flatMap_assoc, List.map_flatMap]
    exact List.flatMap_congr fun message hmessage =>
      (converted_pieces toJSONString mediaJSON request (h message hmessage)).toolCalls
  have hitems : (request.messages.flatMap (pieces toJSONString mediaJSON request)).flatMap
        Message.items =
      request.messages.flatMap fun message => keptItems (message.items toJSONString) := by
    rw [List.flatMap_assoc]
    exact List.flatMap_congr fun message hmessage =>
      (converted_pieces toJSONString mediaJSON request (h message hmessage)).items
  have hsublist := sublist_flatMap_iff (f := ClaudeMessage.items toJSONString)
    (g := fun message => keptItems (message.items toJSONString))
    (fun _ => length_keptItems_le) request.messages
  simp only [keptItems_eq_iff_orderly] at hsublist
  rw [← hsublist, ← hitems, ← answered_iff toJSONString mediaJSON request [] h, ← hcalls]
  exact ⟨fun hkeeps => ⟨hkeeps.items, hkeeps.answered⟩, fun hboth => ⟨hboth.1, hboth.2⟩⟩

/-- **Exactly the convertible requests** are converted with all their texts, tool calls and
tool results, after the system message. -/
theorem claudeToOpenAIMessages_keeps_iff (isOpenRouterClaude : Bool) :
    (∃ messages, claudeToOpenAIMessages toJSONString mediaJSON request isOpenRouterClaude =
        .ok (systemMessages isOpenRouterClaude request.system ++ messages) ∧
      Keeps toJSONString request messages) ↔ request.Convertible := by
  unfold claudeToOpenAIMessages
  by_cases hreadable : ∀ message ∈ request.messages, message.Readable
  · rw [convertMessages_ok toJSONString mediaJSON request hreadable]
    constructor
    · rintro ⟨messages, hok, hkeeps⟩
      have hmessages : request.messages.flatMap (pieces toJSONString mediaJSON request) =
          messages := List.append_cancel_left (Except.ok.inj hok)
      rw [← hmessages, keeps_iff toJSONString mediaJSON request hreadable] at hkeeps
      exact ⟨hreadable, hkeeps.1, hkeeps.2⟩
    · intro h
      exact ⟨_, rfl, (keeps_iff toJSONString mediaJSON request hreadable).2 ⟨h.orderly, h.named⟩⟩
  · obtain ⟨failure, herror⟩ :=
      convertMessages_error toJSONString mediaJSON request hreadable
    rw [herror]
    constructor
    · rintro ⟨messages, hok, -⟩
      cases hok
    · intro h
      exact absurd h.readable hreadable

end Convert

/-- An assistant that writes a text before its tool call. -/
def forecastRequest : ClaudeRequest :=
  ⟨.none, [⟨"user", .string "Will it rain?"⟩,
    ⟨"assistant", .blocks
      [⟨"text", some "Let me look.", none, none, "", "", .null, .null, ""⟩,
        ⟨"tool_use", none, none, none, "toolu_1", "forecast", .null, .null, ""⟩]⟩]⟩

/-- The text beside the tool call is dropped. -/
theorem text_beside_tool_use_dropped :
    ¬ ∃ messages, claudeToOpenAIMessages (fun _ => "null") (fun _ => "null") forecastRequest false =
        .ok (systemMessages false forecastRequest.system ++ messages) ∧
      Keeps (fun _ => "null") forecastRequest messages := by
  rintro ⟨messages, hok, hkeeps⟩
  cases hok
  exact absurd hkeeps.items (by decide)

end Convert
