import GMasterApi.Convert.ClaudeEvents
import GMasterApi.Lib.GoString
import GMasterApi.Lib.JsonValue

/-!
# OpenAI requests as Claude requests

`RequestOpenAI2ClaudeMessage` passes over the messages twice: first it merges neighbours of
one role, then it makes Claude messages of them, where a tool result goes to the user
message before it.  Tools and stop sequences are converted on the way.
-/

namespace Convert.OpenAI

open JsonValue GoString

/-! ## The request -/

inductive Role
  | system
  | user
  | assistant
  | tool
  | empty
  deriving DecidableEq

structure MessageFile where
  fileName : String
  fileData : String
  fileId : String
  deriving DecidableEq

/-- A part, as `ParseContent` reads it. -/
inductive Part
  | text (content : String)
  | imageUrl (url : String)
  | file (file : MessageFile)
  | other
  deriving DecidableEq

inductive Content
  | null
  | string (content : String)
  | parts (content : List Part)
  deriving DecidableEq

/-- The arguments are what `json.Unmarshal` makes of them as an object; `none` where it
fails, as it does for the empty string. -/
structure ToolCall where
  id : String
  name : String
  arguments : Option Members

structure Message where
  role : Role
  content : Content
  toolCalls : Option (List ToolCall)
  toolCallId : String

structure Tool where
  name : String
  description : String
  parameters : Json

/-- What the conversion reads of the request.  `reasoningErr` is the error of
`common.Unmarshal` for its `reasoning`. -/
structure Request where
  tools : List Tool
  reasoningErr : Option String
  stop : Json
  messages : List Message

def Message.isStringContent (message : Message) : Bool :=
  match message.content with
  | .string _ => true
  | .null => false
  | .parts _ => false

def Message.stringContent (message : Message) : String :=
  match message.content with
  | .string content => content
  | .null => ""
  | .parts _ => ""

def Message.parseContent (message : Message) : List Part :=
  match message.content with
  | .null => []
  | .string content => [.text content]
  | .parts parts => parts

/-! ## The Claude request -/

inductive Block
  | text (content : String)
  | image (mediaType data : String)
  | document (mediaType data : String)
  | toolUse (id name : String) (input : Members)
  | toolResult (toolUseId : String) (content : Content)

inductive BlockContent
  | string (content : String)
  | blocks (content : List Block)

structure ClaudeMessage where
  role : Role
  content : BlockContent

structure ClaudeTool where
  name : String
  description : String
  inputSchema : Members

structure ClaudeRequest where
  tools : List ClaudeTool
  stopSequences : Option (List String)
  system : List String
  messages : List ClaudeMessage

/-- An error that is returned, or a type assertion that fails. -/
inductive Failure
  | err (err : String)
  | panic
  deriving DecidableEq

/-! ## Tools and stop sequences -/

def Tool.claudeTool (tool : Tool) : Except Failure (Option ClaudeTool) :=
  match tool.parameters with
  | .object params =>
    let rest := [("properties", (params.lookup "properties").getD .null),
        ("required", (params.lookup "required").getD .null)] ++
      params.filter fun param => param.1 ∉ ["type", "properties", "required"]
    match (params.lookup "type").getD .null with
    | .null => .ok (some ⟨tool.name, tool.description, rest⟩)
    | .string type => .ok (some ⟨tool.name, tool.description, ("type", .string type) :: rest⟩)
    | _ => .error .panic
  | _ => .ok none

def claudeTools : List Tool → Except Failure (List ClaudeTool)
  | [] => .ok []
  | tool :: tools =>
    tool.claudeTool.bind fun claudeTool =>
      (claudeTools tools).map fun rest => claudeTool.toList ++ rest

/-- The assertions `stop.(string)` of a list. -/
def stopItems : List Json → Except Failure (List String)
  | [] => .ok []
  | .string stop :: stops => (stopItems stops).map (stop :: ·)
  | _ :: _ => .error .panic

def stopSequences : Json → Except Failure (Option (List String))
  | .string stop => .ok (some [stop])
  | .array stops => (stopItems stops).map some
  | _ => .ok none

/-! ## The first pass -/

/-- The message is merged into the last one. -/
def Message.mergesInto (lastMessage message : Message) : Bool :=
  lastMessage.role = message.role ∧ lastMessage.role ≠ .tool ∧ lastMessage.isStringContent ∧
    message.isStringContent

/-- `fmtMessage`.  The role of a message without one stays empty: the loop has copied the
message before it sets the role in the request. -/
def Message.fmtMessage (message : Message) (content : Content) : Message where
  role := message.role
  content :=
    if content = .null ∨ content = .string "" then .string "..." else content
  toolCalls := if message.role = .assistant then message.toolCalls else none
  toolCallId := if message.role = .tool then message.toolCallId else ""

/-- A step of the first pass, on `formatMessages` and `lastMessage`. -/
def formatMessage (state : List Message × Message) (message : Message) :
    List Message × Message :=
  let (formatMessages, lastMessage) := state
  if lastMessage.mergesInto message then
    let content := trimChar (lastMessage.stringContent ++ " " ++ message.stringContent) '"'
    let fmtMessage := message.fmtMessage (.string content)
    (formatMessages.dropLast ++ [fmtMessage], fmtMessage)
  else
    let fmtMessage := message.fmtMessage message.content
    (formatMessages ++ [fmtMessage], fmtMessage)

def formatMessages (messages : List Message) : List Message :=
  (messages.foldl formatMessage ([], ⟨.tool, .null, none, ""⟩)).1

/-! ## The second pass -/

/-- What the conversion reads of images and files.  `imageData` and `fileData` are
`GetBase64Data` of their sources, data and MIME type; a file may have no source. -/
structure Sources where
  imageData : String → Except String (String × String)
  fileData : MessageFile → Option (Except String (String × String))
  decodeString : String → Except String String

/-- `buildClaudeFileMessage`; a file of another type is skipped. -/
def buildClaudeFileMessage (sources : Sources) (file : MessageFile) :
    Except Failure (List Block) :=
  match sources.fileData file with
  | none => .ok []
  | some (.error err) => .error (.err ("get file data failed: " ++ err))
  | some (.ok (base64Data, mimeType)) =>
    if toLower mimeType = "application/pdf" then .ok [.document mimeType base64Data]
    else if toLower mimeType = "text/plain" then
      match sources.decodeString base64Data with
      | .ok text => .ok [.text text]
      | .error err => .error (.err ("decode text file data failed: " ++ err))
    else .ok []

def Part.claudeBlocks (sources : Sources) : Part → Except Failure (List Block)
  | .text content => .ok (if content = "" then [] else [.text content])
  | .imageUrl url =>
    match sources.imageData url with
    | .ok (base64Data, mimeType) => .ok [.image mimeType base64Data]
    | .error err => .error (.err ("get file data failed: " ++ err))
  | .file messageFile => buildClaudeFileMessage sources messageFile
  | .other => .ok []

def claudeMediaMessages (sources : Sources) : List Part → Except Failure (List Block)
  | [] => .ok []
  | part :: parts =>
    (part.claudeBlocks sources).bind fun blocks =>
      (claudeMediaMessages sources parts).map (blocks ++ ·)

/-- A tool call whose arguments are no object is skipped. -/
def ToolCall.claudeBlock (toolCall : ToolCall) : Option Block :=
  toolCall.arguments.map fun input => .toolUse toolCall.id toolCall.name input

/-- The content of a message that is not of the role `tool`. -/
def Message.claudeContent (sources : Sources) (message : Message) :
    Except Failure BlockContent :=
  if message.isStringContent ∧ message.toolCalls.isNone then
    .ok (.string (if message.stringContent = "" then "..." else message.stringContent))
  else
    (claudeMediaMessages sources message.parseContent).map fun blocks =>
      .blocks (blocks ++ (message.toolCalls.getD []).filterMap ToolCall.claudeBlock)

def BlockContent.toBlocks : BlockContent → List Block
  | .string content => [.text content]
  | .blocks content => content

/-- The state of the second pass. -/
structure Pass where
  claudeMessages : List ClaudeMessage
  isFirstMessage : Bool
  systemMessages : List String

def Message.systemTexts (message : Message) : List String :=
  message.parseContent.filterMap fun
    | .text content => if content = "" then none else some content
    | _ => none

/-- The first message is to be one of the user. -/
def Pass.begin (s : Pass) (role : Role) : Pass :=
  if s.isFirstMessage then
    { s with
      isFirstMessage := false
      claudeMessages :=
        if role ≠ .user then s.claudeMessages ++ [⟨.user, .blocks [.text "..."]⟩]
        else s.claudeMessages }
  else s

/-- A tool result goes to the last message, if that is one of the user. -/
def addToolResult (claudeMessages : List ClaudeMessage) (message : Message) :
    List ClaudeMessage :=
  let result := Block.toolResult message.toolCallId message.content
  match claudeMessages.getLast? with
  | some lastMessage =>
    if lastMessage.role = .user then
      claudeMessages.dropLast ++
        [{ lastMessage with content := .blocks (lastMessage.content.toBlocks ++ [result]) }]
    else claudeMessages ++ [⟨.user, .blocks [result]⟩]
  | none => claudeMessages ++ [⟨.user, .blocks [result]⟩]

def Pass.add (sources : Sources) (s : Pass) (message : Message) : Except Failure Pass :=
  if message.role = .system then
    .ok { s with systemMessages := s.systemMessages ++ message.systemTexts }
  else
    let s := s.begin message.role
    if message.role = .tool then
      .ok { s with claudeMessages := addToolResult s.claudeMessages message }
    else
      (message.claudeContent sources).map fun content =>
        { s with claudeMessages := s.claudeMessages ++ [⟨message.role, content⟩] }

def Pass.addAll (sources : Sources) : Pass → List Message → Except Failure Pass
  | s, [] => .ok s
  | s, message :: messages => (s.add sources message).bind fun s => s.addAll sources messages

def requestOpenAI2ClaudeMessage (sources : Sources) (textRequest : Request) :
    Except Failure ClaudeRequest :=
  (claudeTools textRequest.tools).bind fun tools =>
    match textRequest.reasoningErr with
    | some err => .error (.err err)
    | none =>
      (stopSequences textRequest.stop).bind fun stopSequences =>
        (Pass.addAll sources ⟨[], true, []⟩ (formatMessages textRequest.messages)).map fun s =>
          ⟨tools, stopSequences, s.systemMessages, s.claudeMessages⟩

end Convert.OpenAI
