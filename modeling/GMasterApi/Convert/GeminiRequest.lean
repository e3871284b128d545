import GMasterApi.Lib.GoSlice
import GMasterApi.Lib.GoString
import GMasterApi.Lib.JsonValue
import Mathlib.Data.Rat.Floor

/-!
# Gemini requests as OpenAI requests

`GeminiToOpenAIRequest` makes at most one message of each content, after a `tool` message
for each of its function responses.  Ids are counted within a content.
-/

namespace Convert.Gemini

open GoSlice JsonValue

/-! ## The Gemini request -/

structure GeminiInlineData where
  mimeType : String
  data : String
  deriving DecidableEq

structure GeminiFileData where
  mimeType : String
  fileUri : String
  deriving DecidableEq

structure FunctionCall where
  functionName : String
  arguments : Json

structure GeminiFunctionResponse where
  name : String
  response : Json

structure GeminiPart where
  text : String
  inlineData : Option GeminiInlineData
  fileData : Option GeminiFileData
  functionCall : Option FunctionCall
  functionResponse : Option GeminiFunctionResponse

structure GeminiChatContent where
  role : String
  parts : List GeminiPart

/-- Numbers are the ones that the request says. -/
structure GeminiChatGenerationConfig where
  temperature : Option ℚ
  topP : Option ℚ
  topK : Option ℚ
  maxOutputTokens : Option ℕ
  candidateCount : Option ℤ
  stopSequences : Slice String

structure FunctionRequest where
  description : String
  name : String
  parameters : Json

/-- The declarations are what `Any2Type` makes of them; `some none` where it fails. -/
structure GeminiChatTool where
  functionDeclarations : Option (Option (List FunctionRequest))

/-- The tools are those of `GetTools`. -/
structure GeminiChatRequest where
  contents : List GeminiChatContent
  generationConfig : GeminiChatGenerationConfig
  tools : List GeminiChatTool
  systemInstructions : Option GeminiChatContent

/-! ## The OpenAI request -/

inductive Role
  | system
  | user
  | assistant
  | function
  | tool
  deriving DecidableEq

inductive MediaContent
  | text (text : String)
  | imageUrl (url detail mimeType : String)
  deriving DecidableEq

inductive MessageContent
  | null
  | string (content : String)
  | media (content : List MediaContent)
  deriving DecidableEq

structure ToolCallRequest where
  id : String
  name : String
  arguments : String
  deriving DecidableEq

structure Message where
  role : Role
  content : MessageContent
  toolCalls : List ToolCallRequest
  toolCallId : String
  deriving DecidableEq

def GeminiInlineData.mediaContent (data : GeminiInlineData) : MediaContent :=
  .imageUrl ("data:" ++ data.mimeType ++ ";base64," ++ data.data) "auto" data.mimeType

def GeminiFileData.mediaContent (data : GeminiFileData) : MediaContent :=
  .imageUrl data.fileUri "auto" data.mimeType

def Message.parseContent (message : Message) : List MediaContent :=
  match message.content with
  | .null => []
  | .string content => [.text content]
  | .media content => content

structure GeneralOpenAIRequest where
  model : String
  stream : Bool
  messages : List Message
  temperature : Option ℚ
  topP : Option ℚ
  topK : Option ℤ
  maxTokens : Option ℕ
  stop : Option (Slice String)
  n : Option ℤ
  tools : List FunctionRequest

/-! ## Contents -/

/-- The branch of the loop that takes a part. -/
inductive Kind
  | text (text : String)
  | inlineData (data : GeminiInlineData)
  | fileData (data : GeminiFileData)
  | functionCall (call : FunctionCall)
  | functionResponse (response : GeminiFunctionResponse)
  | other

def GeminiPart.kind (part : GeminiPart) : Kind :=
  if part.text ≠ "" then .text part.text
  else match part.inlineData, part.fileData, part.functionCall, part.functionResponse with
    | some data, _, _, _ => .inlineData data
    | none, some data, _, _ => .fileData data
    | none, none, some call, _ => .functionCall call
    | none, none, none, some response => .functionResponse response
    | none, none, none, none => .other

def convertGeminiRoleToOpenAI (geminiRole : String) : Role :=
  if geminiRole = "user" then .user
  else if geminiRole = "model" then .assistant
  else if geminiRole = "function" then .function
  else .user

def extractTextFromGeminiParts (parts : List GeminiPart) : String :=
  GoString.join ((parts.map GeminiPart.text).filter (· ≠ "")) '\n'

section Request

variable (toJSONString : Json → String)

/-- `messages`, `mediaContents` and `toolCalls` of the loop over the parts. -/
structure Parts where
  messages : List Message
  mediaContents : List MediaContent
  toolCalls : List ToolCallRequest

def callId (n : ℕ) : String := "call_" ++ toString n

def toolCall (n : ℕ) (call : FunctionCall) : ToolCallRequest where
  id := callId (n + 1)
  name := call.functionName
  arguments := toJSONString call.arguments

/-- The id is that of the last call in the content, or `call_0`. -/
def toolMessage (n : ℕ) (response : GeminiFunctionResponse) : Message where
  role := .tool
  content := .string (toJSONString response.response)
  toolCalls := []
  toolCallId := callId n

def Parts.add (s : Parts) (part : GeminiPart) : Parts :=
  match part.kind with
  | .text text => { s with mediaContents := s.mediaContents ++ [.text text] }
  | .inlineData data => { s with mediaContents := s.mediaContents ++ [data.mediaContent] }
  | .fileData data => { s with mediaContents := s.mediaContents ++ [data.mediaContent] }
  | .functionCall call =>
    { s with toolCalls := s.toolCalls ++ [toolCall toJSONString s.toolCalls.length call] }
  | .functionResponse response =>
    { s with
      messages := s.messages ++ [toolMessage toJSONString s.toolCalls.length response] }
  | .other => s

def Parts.message (s : Parts) (role : Role) : Message where
  role := role
  content :=
    if 0 < s.toolCalls.length then .null
    else match s.mediaContents with
      | [] => .null
      | [.text text] => .string text
      | mediaContents => .media mediaContents
  toolCalls := s.toolCalls
  toolCallId := ""

def addContent (messages : List Message) (content : GeminiChatContent) : List Message :=
  let s := content.parts.foldl (Parts.add toJSONString) ⟨messages, [], []⟩
  let message := s.message (convertGeminiRoleToOpenAI content.role)
  if 0 < message.parseContent.length ∨ 0 < message.toolCalls.length then s.messages ++ [message]
  else s.messages

def convertContents (contents : List GeminiChatContent) : List Message :=
  contents.foldl (addContent toJSONString) []

/-! ## The request -/

/-- `openaiRequest.Stop`; `none` where the slice has no four elements to take. -/
def convertStop (stopSequences : Slice String) : Option (Option (Slice String)) :=
  if 0 < stopSequences.len then (stopSequences.upTo 4).map some else some none

def convertTools (tools : List GeminiChatTool) : List FunctionRequest :=
  tools.flatMap fun tool => ((tool.functionDeclarations.join).getD []).map fun function =>
    ⟨function.description, function.name, function.parameters⟩

def systemMessage (instructions : GeminiChatContent) : Message where
  role := .system
  content := .string (extractTextFromGeminiParts instructions.parts)
  toolCalls := []
  toolCallId := ""

/-- `none` is a panic. -/
def geminiToOpenAIRequest (geminiRequest : GeminiChatRequest) (upstreamModelName : String)
    (isStream : Bool) : Option GeneralOpenAIRequest :=
  let config := geminiRequest.generationConfig
  (convertStop config.stopSequences).map fun stop =>
    { model := upstreamModelName
      stream := isStream
      messages := (geminiRequest.systemInstructions.map systemMessage).toList ++
        convertContents toJSONString geminiRequest.contents
      temperature := config.temperature
      topP := config.topP.filter fun topP => 0 < topP
      topK := (config.topK.filter fun topK => 0 < topK).map Rat.floor
      maxTokens := config.maxOutputTokens.filter fun maxTokens => 0 < maxTokens
      stop := stop
      n := config.candidateCount.filter fun n => 0 < n
      tools := convertTools geminiRequest.tools }

end Request

end Convert.Gemini
