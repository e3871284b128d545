import GMasterApi.Convert.ClaudeRequest
import GMasterApi.Lib.GoString

/-!
# Chat requests as Responses requests

The conversion goes over the messages once and collects the texts of the system in the
instructions and everything else as items of the input.  Order, texts and calls are kept; the
id of a tool message is trimmed and that of a call is not, so an output goes with its call where
the id has no blanks around it (`chatCompletions_keeps_iff`).
-/

namespace Convert.ChatToResponses

open GoString

/-- A part, as `ParseContent` reads it. -/
inductive Part
  | text (text : String)
  | imageUrl (url detail : String)
  | inputAudio (data format : String)
  | file (fileName fileData fileId : String)
  | videoUrl (url : String)
  | other (type : String)
  deriving DecidableEq

/-- A list of parts comes with its JSON. -/
inductive Content
  | null
  | string (content : String)
  | parts (content : List Part) (json : String)
  deriving DecidableEq

structure Message where
  role : String
  content : Content
  toolCalls : List ToolCallRequest
  toolCallId : String
  deriving DecidableEq

/-- What the input and the instructions depend on. -/
structure ChatRequest where
  model : String
  n : Option ℤ
  messages : List Message

/-- `image_url` is a string, or the object where its `url` is empty. -/
inductive ContentPart
  | text (type text : String)
  | inputImage (imageUrl : String ⊕ String × String)
  | inputAudio (data format : String)
  | inputFile (fileName fileData fileId : String)
  | inputVideo (url : String)
  | other (type : String)
  deriving DecidableEq

inductive ItemContent
  | string (content : String)
  | parts (content : List ContentPart)
  deriving DecidableEq

inductive Item
  | message (role : String) (content : ItemContent)
  | functionCall (callId name arguments : String)
  | functionCallOutput (callId output : String)
  deriving DecidableEq

structure ResponsesRequest where
  model : String
  input : List Item
  instructions : Option String

/-- What the loop over the messages collects. -/
structure Collected where
  instructionsParts : List String
  inputItems : List Item

def Collected.push (s : Collected) (item : Item) : Collected :=
  { s with inputItems := s.inputItems ++ [item] }

/-- The string of a tool message, or its JSON. -/
def Content.output : Content → String
  | .null => ""
  | .string content => content
  | .parts _ json => json

def Part.convert (role : String) : Part → ContentPart
  | .text content => .text (if role = "assistant" then "output_text" else "input_text") content
  | .imageUrl url detail => .inputImage (if url ≠ "" then .inl url else .inr (url, detail))
  | .inputAudio data format => .inputAudio data format
  | .file fileName fileData fileId => .inputFile fileName fileData fileId
  | .videoUrl url => .inputVideo url
  | .other type => .other type

def Content.convert (role : String) : Content → ItemContent
  | .null => .string ""
  | .string content => .string content
  | .parts content _ => .parts (content.map (Part.convert role))

/-- The loop over the tool calls, of which there is a copy for each shape of the content. -/
def addCalls (items : List Item) (toolCalls : List ToolCallRequest) : List Item :=
  toolCalls.foldl (fun items tc =>
    if trimSpace tc.id = "" then items
    else if tc.type ≠ "" ∧ tc.type ≠ "function" then items
    else if trimSpace tc.name = "" then items
    else items ++ [.functionCall tc.id (trimSpace tc.name) tc.arguments]) items

/-- The texts of the parts that are not blank, one a line. -/
def writeTexts (parts : List Part) : String :=
  parts.foldl (fun sb part =>
    match part with
    | .text text =>
      if trimSpace text ≠ "" then (if 0 < sb.length then sb ++ "\n" else sb) ++ text else sb
    | _ => sb) ""

def Collected.instruct (s : Collected) (text : String) : Collected :=
  if trimSpace text ≠ "" then
    { s with instructionsParts := s.instructionsParts ++ [trimSpace text] }
  else s

def addMessage (s : Collected) (msg : Message) : Collected :=
  let role := trimSpace msg.role
  if role = "" then s
  else if role = "tool" ∨ role = "function" then
    let callId := trimSpace msg.toolCallId
    if callId = "" then
      s.push (.message "user" (.string ("[tool_output_missing_call_id] " ++ msg.content.output)))
    else s.push (.functionCallOutput callId msg.content.output)
  else if role = "system" ∨ role = "developer" then
    match msg.content with
    | .null => s
    | .string content => s.instruct content
    | .parts content _ => s.instruct (writeTexts content)
  else
    let s := s.push (.message role (msg.content.convert role))
    if role = "assistant" then { s with inputItems := addCalls s.inputItems msg.toolCalls } else s

def chatCompletionsRequestToResponsesRequest (req : ChatRequest) :
    Except String ResponsesRequest :=
  if req.model = "" then .error "model is required"
  else if 1 < req.n.getD 1 then .error "n>1 is not supported in responses compatibility mode"
  else
    let s := req.messages.foldl addMessage ⟨[], []⟩
    .ok ⟨req.model, s.inputItems,
      if s.instructionsParts = [] then none
      else some (String.ofList (['\n', '\n'].intercalate
        (s.instructionsParts.map String.toList)))⟩

/-! ## What is kept -/

namespace Message

variable (msg : Message)

def isTool : Bool := trimSpace msg.role = "tool" ∨ trimSpace msg.role = "function"

def isSystem : Bool := trimSpace msg.role = "system" ∨ trimSpace msg.role = "developer"

/-- The items of one message. -/
def sent : List Item := (addMessage ⟨[], []⟩ msg).inputItems

def texts : List String :=
  match msg.content with
  | .null => []
  | .string content => [content]
  | .parts content _ => content.filterMap fun
    | .text text => some text
    | _ => none

/-- The function calls with an id and a name. -/
def calls : List ToolCallRequest :=
  if trimSpace msg.role = "assistant" then
    msg.toolCalls.filter fun tc =>
      trimSpace tc.id ≠ "" ∧ (tc.type = "" ∨ tc.type = "function") ∧ trimSpace tc.name ≠ ""
  else []

end Message

def ItemContent.text : ItemContent → String
  | .string content => content
  | .parts content => String.join <| content.filterMap fun
    | .text _ text => some text
    | _ => none

def Item.callId : Item → Option String
  | .message .. => none
  | .functionCall callId _ _ => some callId
  | .functionCallOutput callId _ => some callId

/-- The items have the text of the message and its calls, or its output. -/
def Sends (msg : Message) (items : List Item) : Prop :=
  if msg.isTool then
    if trimSpace msg.toolCallId ≠ "" then
      ∃ callId, items = [.functionCallOutput callId msg.content.output]
    else ∃ role note, items = [.message role (.string (note ++ msg.content.output))]
  else ∃ content calls, items = .message (trimSpace msg.role) content :: calls ∧
    content.text = String.join msg.texts ∧
    List.Forall₂ (fun tc item => ∃ callId, item =
      .functionCall callId (trimSpace tc.name) tc.arguments) msg.calls calls

/-- The pieces are in the text, one after the other. -/
inductive Within : List (List Char) → List Char → Prop
  | nil (s : List Char) : Within [] s
  | cons (a t : List Char) {ts : List (List Char)} {s : List Char} :
    Within ts s → Within (t :: ts) (a ++ (t ++ s))

/-- A tool message that answers an earlier call. -/
structure Answers (messages : List Message) (caller tool : Message) (k : ℕ)
    (tc : ToolCallRequest) : Prop where
  earlier : [caller, tool].Sublist messages
  isTool : tool.isTool = true
  id : trimSpace tool.toolCallId ≠ ""
  call : caller.calls[k]? = some tc
  same : tool.toolCallId = tc.id

/-- The texts that are not blank, trimmed. -/
def pieces (texts : List String) : List (List Char) :=
  texts.filterMap fun text => if trimSpace text ≠ "" then some (trim text.toList) else none

structure Keeps (messages : List Message) (out : ResponsesRequest) : Prop where
  order : out.input = (messages.filter fun msg => !msg.isSystem).flatMap Message.sent
  sends : ∀ msg ∈ messages, msg.isSystem = false → Sends msg msg.sent
  pairs : ∀ caller tool k tc, Answers messages caller tool k tc →
    caller.sent[k + 1]?.bind Item.callId = tool.sent[0]?.bind Item.callId
  instructions : Within (pieces ((messages.filter Message.isSystem).flatMap Message.texts))
    (out.instructions.getD "").toList

/-- The id of an answered call has no blanks around it. -/
def PlainIds (messages : List Message) : Prop :=
  ∀ caller tool k tc, Answers messages caller tool k tc → trimSpace tc.id = tc.id

/-! ## The items -/

variable {msg caller tool : Message} {messages : List Message} {tc : ToolCallRequest} {k : ℕ}
  {s t : List Char} {ts ts' : List (List Char)}

theorem addCalls_eq (items : List Item) (toolCalls : List ToolCallRequest) :
    addCalls items toolCalls = items ++ (toolCalls.filter fun tc =>
      trimSpace tc.id ≠ "" ∧ (tc.type = "" ∨ tc.type = "function") ∧ trimSpace tc.name ≠ "").map
        fun tc => .functionCall tc.id (trimSpace tc.name) tc.arguments := by
  unfold addCalls
  induction toolCalls generalizing items with
  | nil => exact (List.append_nil items).symm
  | cons tc toolCalls ih =>
    rw [List.foldl_cons, ih, List.filter_cons]
    by_cases hid : trimSpace tc.id = ""
    · simp [hid]
    by_cases htype : tc.type = "" ∨ tc.type = "function"
    · by_cases hname : trimSpace tc.name = ""
      · simp [hname]
      · have hother : ¬ (tc.type ≠ "" ∧ tc.type ≠ "function") := fun h => htype.elim h.1 h.2
        rw [if_neg hid, if_neg hother, if_neg hname, if_pos (by simp [hid, htype, hname])]
        simp
    · rw [if_neg hid, if_pos (not_or.mp htype), if_neg (by simp [htype])]

/-- What a message adds does not depend on what was collected before. -/
theorem addMessage_eq (s : Collected) (msg : Message) : addMessage s msg =
    ⟨s.instructionsParts ++ (addMessage ⟨[], []⟩ msg).instructionsParts,
      s.inputItems ++ msg.sent⟩ := by
  unfold Message.sent addMessage Collected.push Collected.instruct
  dsimp only
  split
  · simp
  split
  · split <;> simp
  split
  · split
    · simp
    · split <;> simp
    · split <;> simp
  split <;> simp [addCalls_eq]

theorem foldl_addMessage (messages : List Message) (s : Collected) :
    messages.foldl addMessage s =
      ⟨s.instructionsParts ++ messages.flatMap fun msg =>
          (addMessage ⟨[], []⟩ msg).instructionsParts,
        s.inputItems ++ messages.flatMap Message.sent⟩ := by
  induction messages generalizing s with
  | nil => simp
  | cons msg messages ih =>
    rw [List.foldl_cons, ih, addMessage_eq]
    simp

theorem sent_of_isSystem (h : msg.isSystem = true) : msg.sent = [] := by
  unfold Message.isSystem at h
  have h := of_decide_eq_true h
  unfold Message.sent addMessage
  dsimp only
  rw [if_neg (by rcases h with h | h <;> rw [h] <;> decide),
    if_neg (by rcases h with h | h <;> rw [h] <;> decide), if_pos h]
  split
  · rfl
  · unfold Collected.instruct
    split <;> rfl
  · unfold Collected.instruct
    split <;> rfl

theorem sent_of_isTool (h : msg.isTool = true) : msg.sent =
    [if trimSpace msg.toolCallId = "" then
      .message "user" (.string ("[tool_output_missing_call_id] " ++ msg.content.output))
    else .functionCallOutput (trimSpace msg.toolCallId) msg.content.output] := by
  unfold Message.isTool at h
  have h := of_decide_eq_true h
  unfold Message.sent addMessage
  dsimp only
  rw [if_neg (by rcases h with h | h <;> rw [h] <;> decide), if_pos h]
  split <;> rfl

theorem sent_of_other (hrole : trimSpace msg.role ≠ "") (htool : msg.isTool = false)
    (hsystem : msg.isSystem = false) : msg.sent =
    .message (trimSpace msg.role) (msg.content.convert (trimSpace msg.role)) ::
      msg.calls.map fun tc => .functionCall tc.id (trimSpace tc.name) tc.arguments := by
  unfold Message.sent addMessage Message.calls Collected.push
  dsimp only
  rw [if_neg hrole, if_neg (of_decide_eq_false htool), if_neg (of_decide_eq_false hsystem)]
  split
  · rw [addCalls_eq]
    rfl
  · rfl

theorem text_convert (content : Content) (role : String) :
    (content.convert role).text = String.join (match content with
      | .null => []
      | .string content => [content]
      | .parts content _ => content.filterMap fun
        | .text text => some text
        | _ => none) := by
  cases content with
  | null => rfl
  | string content => simp [Content.convert, ItemContent.text, String.join]
  | parts content json =>
    unfold Content.convert ItemContent.text
    dsimp only
    rw [List.filterMap_map]
    congr 2
    funext part
    cases part <;> rfl

theorem sends (hrole : trimSpace msg.role ≠ "") (hsystem : msg.isSystem = false) :
    Sends msg msg.sent := by
  unfold Sends
  split
  · rename_i htool
    rw [sent_of_isTool htool]
    by_cases hid : trimSpace msg.toolCallId = ""
    · rw [if_neg (not_not.mpr hid), if_pos hid]
      exact ⟨_, _, rfl⟩
    · rw [if_pos hid, if_neg hid]
      exact ⟨_, rfl⟩
  · rename_i htool
    rw [sent_of_other hrole (Bool.eq_false_iff.mpr htool) hsystem]
    refine ⟨_, _, rfl, text_convert _ _, ?_⟩
    rw [List.forall₂_map_right_iff]
    exact List.forall₂_same.mpr fun tc _ => ⟨tc.id, rfl⟩

/-- An output has the call's id where trimming leaves the id alone. -/
theorem pair_iff (h : Answers messages caller tool k tc) :
    caller.sent[k + 1]?.bind Item.callId = tool.sent[0]?.bind Item.callId ↔
      trimSpace tc.id = tc.id := by
  have hcaller : trimSpace caller.role = "assistant" := by
    by_contra hother
    have hcall := h.call
    unfold Message.calls at hcall
    rw [if_neg hother] at hcall
    cases hcall
  have hid := h.id
  rw [sent_of_other (by rw [hcaller]; decide) (by simp [Message.isTool, hcaller])
    (by simp [Message.isSystem, hcaller]), sent_of_isTool h.isTool, if_neg hid, h.same]
  simp [h.call, Item.callId, eq_comm]

/-! ## The instructions -/

theorem Within.prepend (a : List Char) (h : Within ts s) : Within ts (a ++ s) := by
  cases h with
  | nil => exact .nil _
  | cons b t h =>
    rw [← List.append_assoc]
    exact .cons _ t h

theorem Within.append (h : Within ts s) (h' : Within ts' t) : Within (ts ++ ts') (s ++ t) := by
  induction h with
  | nil s => exact h'.prepend s
  | cons a u _ ih =>
    rw [List.append_assoc, List.append_assoc]
    exact .cons a u ih

/-- A piece begins and ends with what is no blank. -/
structure Solid (t : List Char) : Prop where
  ne : t ≠ []
  left : t.dropWhile isSpace = t
  right : t.rdropWhile isSpace = t

theorem solid_trim {text : String} (h : trimSpace text ≠ "") : Solid (trim text.toList) := by
  have hne : trim text.toList ≠ [] := fun hnil => h (congrArg String.ofList hnil)
  have htrim := trim_trim text.toList
  refine ⟨hne, ?_, List.rdropWhile_idempotent _ _⟩
  have hle := (List.rdropWhile_prefix isSpace ((trim text.toList).dropWhile isSpace)).length_le
  have hsuffix := List.dropWhile_suffix isSpace (l := trim text.toList)
  change (trim (trim text.toList)).length ≤ _ at hle
  rw [htrim] at hle
  exact hsuffix.eq_of_length_le hle

theorem Within.trimLeft (h : Within ts s) (hsolid : ∀ t ∈ ts, Solid t) :
    Within ts (s.dropWhile isSpace) := by
  cases h with
  | nil s => exact .nil _
  | cons a t h =>
    have ht := hsolid t List.mem_cons_self
    have hkept : ∀ s, (t ++ s).dropWhile isSpace = t ++ s := by
      intro s
      rw [List.dropWhile_append, ht.left, if_neg (by simp [ht.ne])]
    rw [List.dropWhile_append]
    split
    · rw [hkept]
      exact .cons [] t h
    · exact .cons _ t h

theorem Within.trimRight (h : Within ts s) (hsolid : ∀ t ∈ ts, Solid t) :
    Within ts (s.rdropWhile isSpace) := by
  induction h with
  | nil s => exact .nil _
  | cons a t h ih =>
    rename_i ts s
    have ht := hsolid t List.mem_cons_self
    have hkept : (a ++ (t ++ s)).rdropWhile isSpace = a ++ (t ++ s.rdropWhile isSpace) := by
      have hright := congrArg List.reverse ht.right
      have hne : t.reverse ≠ [] := by simpa using ht.ne
      unfold List.rdropWhile at hright ⊢
      rw [List.reverse_reverse] at hright
      rw [List.reverse_append, List.reverse_append, List.append_assoc, List.dropWhile_append]
      split
      · rename_i hblank
        rw [List.dropWhile_append, hright, if_neg (by simpa using hne),
          List.isEmpty_iff.mp hblank]
        simp
      · simp
    rw [hkept]
    exact .cons a t (ih fun u hu => hsolid u (List.mem_cons_of_mem t hu))

theorem solid_of_mem_pieces {texts : List String} : ∀ t ∈ pieces texts, Solid t := by
  intro t ht
  obtain ⟨text, -, htext⟩ := List.mem_filterMap.mp ht
  split at htext
  · rename_i hne
    cases htext
    exact solid_trim hne
  · cases htext

theorem Within.trim {texts : List String} (h : Within (pieces texts) s) :
    Within (pieces texts) (trim s) :=
  (h.trimLeft solid_of_mem_pieces).trimRight solid_of_mem_pieces

theorem within_nil (h : Within ts []) (hsolid : ∀ t ∈ ts, Solid t) : ts = [] := by
  generalize hs : ([] : List Char) = s at h
  cases h with
  | nil => rfl
  | cons a t h =>
    have ht := (hsolid t List.mem_cons_self).ne
    simp at hs
    exact absurd hs.2.1 ht

theorem within_self (s : List Char) : Within [GoString.trim s] s := by
  obtain ⟨a, ha⟩ := List.dropWhile_suffix isSpace (l := s)
  obtain ⟨b, hb⟩ := List.rdropWhile_prefix isSpace (s.dropWhile isSpace)
  rw [← hb] at ha
  have h : Within [GoString.trim s] (a ++ (GoString.trim s ++ b)) := .cons a _ (.nil b)
  have hwhole : a ++ (GoString.trim s ++ b) = s := ha
  rwa [hwhole] at h

@[simp] theorem pieces_cons (text : String) (texts : List String) : pieces (text :: texts) =
    (if trimSpace text ≠ "" then [trim text.toList] else []) ++ pieces texts := by
  unfold pieces
  rw [List.filterMap_cons]
  split <;> split at * <;> simp_all

@[simp] theorem pieces_append (texts texts' : List String) :
    pieces (texts ++ texts') = pieces texts ++ pieces texts' := List.filterMap_append

theorem within_writeTexts (ts : List (List Char)) (parts : List Part) (sb : String)
    (h : Within ts sb.toList) :
    Within (ts ++ pieces (parts.filterMap fun
      | .text text => some text
      | _ => none)) (parts.foldl (fun sb part =>
    match part with
    | .text text =>
      if trimSpace text ≠ "" then (if 0 < sb.length then sb ++ "\n" else sb) ++ text else sb
    | _ => sb) sb).toList := by
  induction parts generalizing sb ts with
  | nil => simpa [pieces] using h
  | cons part parts ih =>
    rw [List.foldl_cons]
    cases part with
    | text text =>
      change Within (ts ++ pieces (text :: _)) _
      rw [pieces_cons, ← List.append_assoc]
      refine ih _ _ ?_
      dsimp only
      split
      · rw [String.toList_append]
        refine Within.append ?_ (within_self _)
        split
        · rw [String.toList_append, ← List.append_nil ts]
          exact h.append (.nil _)
        · exact h
      · rwa [List.append_nil]
    | _ => exact ih ts sb h

theorem told_of_isSystem (h : msg.isSystem = true) : ∃ spoken : String,
    Within (pieces msg.texts) spoken.toList ∧ (addMessage ⟨[], []⟩ msg).instructionsParts =
      if trimSpace spoken ≠ "" then [trimSpace spoken] else [] := by
  have hrole := of_decide_eq_true h
  unfold addMessage Message.texts
  dsimp only
  rw [if_neg (by rcases hrole with h | h <;> rw [h] <;> decide),
    if_neg (by rcases hrole with h | h <;> rw [h] <;> decide), if_pos hrole]
  cases msg.content with
  | null => exact ⟨"", .nil _, rfl⟩
  | string content =>
    refine ⟨content, ?_, ?_⟩
    · rw [pieces_cons]
      split
      · exact within_self _
      · exact .nil _
    · dsimp only [Collected.instruct]
      split <;> rfl
  | parts content json =>
    refine ⟨writeTexts content, within_writeTexts [] content "" (.nil _), ?_⟩
    dsimp only [Collected.instruct]
    split <;> rfl

theorem told_of_other (h : msg.isSystem = false) :
    (addMessage ⟨[], []⟩ msg).instructionsParts = [] := by
  unfold addMessage Collected.push
  dsimp only
  rw [if_neg (of_decide_eq_false h)]
  split
  · rfl
  split
  · split <;> rfl
  split <;> rfl

theorem within_instructions (messages : List Message) :
    Within (pieces ((messages.filter Message.isSystem).flatMap Message.texts))
      (['\n', '\n'].intercalate ((messages.flatMap fun msg =>
        (addMessage ⟨[], []⟩ msg).instructionsParts).map String.toList)) := by
  induction messages with
  | nil => exact .nil _
  | cons msg messages ih =>
    rw [List.flatMap_cons, List.filter_cons]
    by_cases hsystem : msg.isSystem = true
    · obtain ⟨spoken, hspoken, htold⟩ := told_of_isSystem hsystem
      have htrimmed := hspoken.trim
      rw [htold, if_pos hsystem, List.flatMap_cons, pieces_append]
      split
      · have htoList : (trimSpace spoken).toList = GoString.trim spoken.toList :=
          String.toList_ofList
        rw [List.map_append, List.map_singleton, htoList]
        cases hblocks : (messages.flatMap fun msg =>
            (addMessage ⟨[], []⟩ msg).instructionsParts).map String.toList with
        | nil =>
          rw [hblocks] at ih
          rw [within_nil ih solid_of_mem_pieces, List.append_nil, List.append_nil,
            List.intercalate_singleton]
          exact htrimmed
        | cons block blocks =>
          rw [hblocks] at ih
          rw [List.singleton_append, List.intercalate_cons_cons, List.append_assoc]
          exact htrimmed.append (ih.prepend _)
      · rename_i hblank
        have hnil : GoString.trim spoken.toList = [] := by
          have := congrArg String.toList (not_not.mp hblank)
          rwa [trimSpace, String.toList_ofList] at this
        rw [hnil] at htrimmed
        rw [within_nil htrimmed solid_of_mem_pieces]
        exact ih
    · rw [told_of_other (Bool.eq_false_iff.mpr hsystem), if_neg hsystem]
      exact ih

/-- **The conversion keeps the conversation** where no id of an answered call is trimmed, and
only there. -/
theorem chatCompletions_keeps_iff (req : ChatRequest) (hmodel : req.model ≠ "")
    (hn : req.n.getD 1 ≤ 1) (hroles : ∀ msg ∈ req.messages, trimSpace msg.role ≠ "") :
    (∃ out, chatCompletionsRequestToResponsesRequest req = .ok out ∧ Keeps req.messages out) ↔
      PlainIds req.messages := by
  have hinput : req.messages.flatMap Message.sent =
      (req.messages.filter fun msg => !msg.isSystem).flatMap Message.sent := by
    induction req.messages with
    | nil => rfl
    | cons msg messages ih =>
      rw [List.flatMap_cons, List.filter_cons, ih]
      cases hsystem : msg.isSystem with
      | false => rfl
      | true => rw [sent_of_isSystem hsystem]; rfl
  obtain ⟨out, hout, horder, hinstructions⟩ : ∃ out,
      chatCompletionsRequestToResponsesRequest req = .ok out ∧
        out.input = (req.messages.filter fun msg => !msg.isSystem).flatMap Message.sent ∧
        Within (pieces ((req.messages.filter Message.isSystem).flatMap Message.texts))
          (out.instructions.getD "").toList := by
    unfold chatCompletionsRequestToResponsesRequest
    rw [if_neg hmodel, if_neg (by omega), foldl_addMessage]
    refine ⟨_, rfl, hinput, ?_⟩
    have hwithin := within_instructions req.messages
    dsimp only
    rw [List.nil_append]
    split
    · rename_i hnone
      rw [hnone] at hwithin
      exact hwithin
    · rwa [Option.getD_some, String.toList_ofList]
  constructor
  · rintro ⟨out', hout', hkeeps⟩ caller tool k tc hanswers
    exact (pair_iff hanswers).mp (hkeeps.pairs caller tool k tc hanswers)
  · intro hplain
    refine ⟨out, hout, horder, fun msg hmsg hsystem => sends (hroles msg hmsg) hsystem,
      fun caller tool k tc hanswers => ?_, hinstructions⟩
    exact (pair_iff hanswers).mpr (hplain caller tool k tc hanswers)

def weatherCall (id : String) : Message :=
  ⟨"assistant", .null, [⟨id, "function", "weather", "{}"⟩], ""⟩

def weatherAnswer (id : String) : Message := ⟨"tool", .string "sunny", [], id⟩

/-- A question, a call and its answer. -/
def conversation (id : String) : List Message :=
  [⟨"system", .string "Be brief.", [], ""⟩, ⟨"user", .string "Weather?", [], ""⟩,
    weatherCall id, weatherAnswer id]

theorem conversation_kept : ∃ out, chatCompletionsRequestToResponsesRequest
    ⟨"gpt", none, conversation "call_1"⟩ = .ok out ∧ Keeps (conversation "call_1") out := by
  refine (chatCompletions_keeps_iff ⟨"gpt", none, conversation "call_1"⟩ (by decide) (by decide)
    (by decide)).mpr fun caller tool k tc h => ?_
  have hcall : tc ∈ (conversation "call_1").flatMap Message.toolCalls := by
    have hmem : caller ∈ conversation "call_1" := h.earlier.subset List.mem_cons_self
    have hk := List.mem_of_getElem? h.call
    unfold Message.calls at hk
    split at hk
    · exact List.mem_flatMap.mpr ⟨caller, hmem, List.mem_of_mem_filter hk⟩
    · cases hk
  obtain rfl := List.mem_singleton.mp hcall
  decide

/-- The id of the output has lost its blank. -/
theorem blank_id_parted : ¬ ∃ out, chatCompletionsRequestToResponsesRequest
    ⟨"gpt", none, conversation "call_1 "⟩ = .ok out ∧ Keeps (conversation "call_1 ") out := by
  rintro ⟨out, -, hkeeps⟩
  have hpair := hkeeps.pairs (weatherCall "call_1 ") (weatherAnswer "call_1 ") 0
    ⟨"call_1 ", "function", "weather", "{}"⟩
    ⟨List.drop_sublist 2 (conversation "call_1 "), by decide, by decide, by decide, rfl⟩
  revert hpair
  decide

end Convert.ChatToResponses
