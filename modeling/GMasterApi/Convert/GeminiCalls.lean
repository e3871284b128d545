import GMasterApi.Convert.GeminiRequest
import GMasterApi.Lib.Pieces

/-!
# The calls of a Gemini conversation

A response comes into the request before the message of the calls in its own content, and
under an id of that content, so no response is ever paired with its call.  `converts_iff`
says of which requests nothing is lost.
-/

namespace Convert.Gemini

open GoSlice JsonValue Pieces

/-! ## What a content has -/

def GeminiPart.mediaContent? (part : GeminiPart) : Option MediaContent :=
  match part.kind with
  | .text text => some (.text text)
  | .inlineData data => some data.mediaContent
  | .fileData data => some data.mediaContent
  | .functionCall _ | .functionResponse _ | .other => none

def GeminiPart.call? (part : GeminiPart) : Option FunctionCall :=
  match part.kind with
  | .functionCall call => some call
  | .text _ | .inlineData _ | .fileData _ | .functionResponse _ | .other => none

def GeminiPart.response? (part : GeminiPart) : Option GeminiFunctionResponse :=
  match part.kind with
  | .functionResponse response => some response
  | .text _ | .inlineData _ | .fileData _ | .functionCall _ | .other => none

def GeminiChatContent.mediaContents (content : GeminiChatContent) : List MediaContent :=
  content.parts.filterMap GeminiPart.mediaContent?

def GeminiChatContent.calls (content : GeminiChatContent) : List FunctionCall :=
  content.parts.filterMap GeminiPart.call?

def GeminiChatContent.responses (content : GeminiChatContent) : List GeminiFunctionResponse :=
  content.parts.filterMap GeminiPart.response?

/-! ## The property -/

/-- The tool calls that are sent, with the places of their messages. -/
def sentCalls (messages : List Message) : List (ToolCallRequest × ℕ) :=
  messages.zipIdx.flatMap fun sent => sent.1.toolCalls.map fun toolCall => (toolCall, sent.2)

/-- The `tool` messages, with their places. -/
def sentAnswers (messages : List Message) : List (Message × ℕ) :=
  messages.zipIdx.filter fun sent => sent.1.role = .tool

/-- What is said in the messages that are made of contents. -/
def saidContents (messages : List Message) : List MediaContent :=
  (messages.filter fun message => message.role ≠ .tool ∧ message.role ≠ .system).flatMap
    Message.parseContent

section Conversion

variable (toJSONString : Json → String)

/-- The i-th response for a function answers the i-th call of it. -/
structure Paired (contents : List GeminiChatContent) (messages : List Message) : Prop where
  calls : (sentCalls messages).map (fun sent => (sent.1.name, sent.1.arguments)) =
    (contents.flatMap GeminiChatContent.calls).map fun call =>
      (call.functionName, toJSONString call.arguments)
  answers : (sentAnswers messages).map (fun sent => sent.1.content) =
    (contents.flatMap GeminiChatContent.responses).map fun response =>
      .string (toJSONString response.response)
  paired : ∀ (name : String) (i : ℕ) (call : ToolCallRequest × ℕ)
    (answered : GeminiFunctionResponse × Message × ℕ),
    ((sentCalls messages).filter fun sent => sent.1.name = name)[i]? = some call →
    (((contents.flatMap GeminiChatContent.responses).zip (sentAnswers messages)).filter
      fun answered => answered.1.name = name)[i]? = some answered →
    answered.2.1.toolCallId = call.1.id ∧ call.2 < answered.2.2

structure Faithful (request : GeminiChatRequest) (openAIRequest : GeneralOpenAIRequest) :
    Prop where
  stop : (openAIRequest.stop.map Slice.elements).getD [] =
    request.generationConfig.stopSequences.elements.take
      (min 4 request.generationConfig.stopSequences.len)
  ids : ((openAIRequest.messages.flatMap Message.toolCalls).map ToolCallRequest.id).Nodup
  paired : Paired toJSONString request.contents openAIRequest.messages
  kept : (request.contents.flatMap GeminiChatContent.mediaContents).Sublist
    (saidContents openAIRequest.messages)

/-- No slice is cut short, one content at most has calls, none of them is answered and
nothing is said beside them. -/
structure Convertible (request : GeminiChatRequest) : Prop where
  stop : request.generationConfig.stopSequences.len = 0 ∨
    4 ≤ request.generationConfig.stopSequences.len
  calls : request.contents.Pairwise fun content content' =>
    content.calls = [] ∨ content'.calls = []
  unanswered : ∀ call ∈ request.contents.flatMap GeminiChatContent.calls,
    ∀ response ∈ request.contents.flatMap GeminiChatContent.responses,
      call.functionName ≠ response.name
  media : ∀ content ∈ request.contents, content.calls = [] ∨ content.mediaContents = []

/-! ## The messages of a content -/

/-- The messages of its responses, after `n` calls. -/
def toolMessages : ℕ → List GeminiPart → List Message
  | _, [] => []
  | n, part :: parts =>
    match part.kind with
    | .functionResponse response => toolMessage toJSONString n response :: toolMessages n parts
    | .functionCall _ => toolMessages (n + 1) parts
    | .text _ | .inlineData _ | .fileData _ | .other => toolMessages n parts

def toolCalls (n : ℕ) (calls : List FunctionCall) : List ToolCallRequest :=
  (calls.zipIdx n).map fun call => toolCall toJSONString call.2 call.1

theorem foldl_add (parts : List GeminiPart) (s : Parts) :
    parts.foldl (Parts.add toJSONString) s =
      ⟨s.messages ++ toolMessages toJSONString s.toolCalls.length parts,
        s.mediaContents ++ parts.filterMap GeminiPart.mediaContent?,
        s.toolCalls ++ toolCalls toJSONString s.toolCalls.length
          (parts.filterMap GeminiPart.call?)⟩ := by
  induction parts generalizing s with
  | nil => simp [toolMessages, toolCalls]
  | cons part parts ih =>
    rw [List.foldl_cons, ih, List.filterMap_cons, List.filterMap_cons, toolMessages]
    unfold Parts.add GeminiPart.mediaContent? GeminiPart.call? toolCalls
    cases part.kind with
    | text text => simp
    | inlineData data => simp
    | fileData data => simp
    | functionCall call => simp
    | functionResponse response => simp
    | other => rfl

theorem length_toolCalls (n : ℕ) (calls : List FunctionCall) :
    (toolCalls toJSONString n calls).length = calls.length := by
  rw [toolCalls, List.length_map, List.length_zipIdx]

variable (content : GeminiChatContent)

/-- The message of a content that says something. -/
def GeminiChatContent.message : Message :=
  Parts.message ⟨[], content.mediaContents, toolCalls toJSONString 0 content.calls⟩
    (convertGeminiRoleToOpenAI content.role)

def GeminiChatContent.messages : List Message :=
  toolMessages toJSONString 0 content.parts ++
    if content.calls = [] ∧ content.mediaContents = [] then []
    else [content.message toJSONString]

theorem parseContent_message : (content.message toJSONString).parseContent =
    if content.calls = [] then content.mediaContents else [] := by
  unfold GeminiChatContent.message Parts.message Message.parseContent
  dsimp only
  rw [length_toolCalls]
  cases content.calls with
  | nil =>
    cases content.mediaContents with
    | nil => rfl
    | cons media rest =>
      cases rest with
      | nil =>
        cases media with
        | text text => rfl
        | imageUrl url detail mimeType => rfl
      | cons media' rest => cases media <;> rfl
  | cons call calls => rfl

theorem addContent_eq (messages : List Message) : addContent toJSONString messages content =
    messages ++ content.messages toJSONString := by
  have hmessage : (content.message toJSONString).toolCalls.length = content.calls.length :=
    length_toolCalls toJSONString 0 content.calls
  have hparse := parseContent_message toJSONString content
  unfold addContent GeminiChatContent.messages
  rw [foldl_add, List.nil_append, List.nil_append]
  show (if 0 < (content.message toJSONString).parseContent.length ∨
      0 < (content.message toJSONString).toolCalls.length then
        messages ++ toolMessages toJSONString 0 content.parts ++ [content.message toJSONString]
      else messages ++ toolMessages toJSONString 0 content.parts) = _
  rw [hmessage, hparse]
  by_cases hcalls : content.calls = []
  · by_cases hmedia : content.mediaContents = []
    · have hnone : ¬ (0 < content.mediaContents.length ∨ 0 < content.calls.length) := by
        simp [hcalls, hmedia]
      rw [if_pos hcalls, if_neg hnone, if_pos ⟨hcalls, hmedia⟩, List.append_nil]
    · have hpos := List.length_pos_iff.2 hmedia
      rw [if_pos hcalls, if_pos (Or.inl hpos), if_neg fun h => hmedia h.2, List.append_assoc]
  · have hpos := List.length_pos_iff.2 hcalls
    rw [if_neg hcalls, if_pos (Or.inr hpos), if_neg fun h => hcalls h.1, List.append_assoc]

theorem convertContents_eq (contents : List GeminiChatContent) :
    convertContents toJSONString contents =
      contents.flatMap (GeminiChatContent.messages toJSONString) := by
  have hfold : ∀ messages : List Message, contents.foldl (addContent toJSONString) messages =
      messages ++ contents.flatMap (GeminiChatContent.messages toJSONString) := by
    induction contents with
    | nil => simp
    | cons content contents ih =>
      intro messages
      rw [List.foldl_cons, ih, addContent_eq, List.flatMap_cons, List.append_assoc]
  exact hfold []

/-! ## What the messages of a content carry -/

variable {message : Message}

theorem mem_toolMessages {n : ℕ} {parts : List GeminiPart}
    (h : message ∈ toolMessages toJSONString n parts) :
    message.role = .tool ∧ message.toolCalls = [] := by
  induction parts generalizing n with
  | nil => cases h
  | cons part parts ih =>
    rw [toolMessages] at h
    cases hkind : part.kind with
    | functionResponse response =>
      rw [hkind] at h
      rcases List.mem_cons.1 h with rfl | h
      · exact ⟨rfl, rfl⟩
      · exact ih h
    | text | inlineData | fileData | functionCall | other =>
      rw [hkind] at h
      exact ih h

theorem convertGeminiRoleToOpenAI_ne (role : String) :
    convertGeminiRoleToOpenAI role ≠ .tool ∧ convertGeminiRoleToOpenAI role ≠ .system := by
  unfold convertGeminiRoleToOpenAI
  split_ifs <;> decide

theorem mem_messages (h : message ∈ content.messages toJSONString) :
    message ∈ toolMessages toJSONString 0 content.parts ∨
      message = content.message toJSONString := by
  unfold GeminiChatContent.messages at h
  rcases List.mem_append.1 h with h | h
  · exact Or.inl h
  · split_ifs at h
    · cases h
    · exact Or.inr (List.mem_singleton.1 h)

/-- Without calls the id is `call_0`. -/
theorem toolCallId_of_calls {n : ℕ} {parts : List GeminiPart}
    (hcalls : parts.filterMap GeminiPart.call? = [])
    (h : message ∈ toolMessages toJSONString n parts) : message.toolCallId = callId n := by
  induction parts with
  | nil => cases h
  | cons part parts ih =>
    rw [toolMessages] at h
    rw [List.filterMap_cons] at hcalls
    unfold GeminiPart.call? at hcalls
    cases hkind : part.kind with
    | functionResponse response =>
      rw [hkind] at h hcalls
      rcases List.mem_cons.1 h with rfl | h
      · rfl
      · exact ih hcalls h
    | functionCall call =>
      rw [hkind] at hcalls
      cases hcalls
    | text | inlineData | fileData | other =>
      rw [hkind] at h hcalls
      exact ih hcalls h

theorem map_content_toolMessages (n : ℕ) (parts : List GeminiPart) :
    (toolMessages toJSONString n parts).map Message.content =
      (parts.filterMap GeminiPart.response?).map fun response =>
        .string (toJSONString response.response) := by
  induction parts generalizing n with
  | nil => rfl
  | cons part parts ih =>
    rw [toolMessages, List.filterMap_cons]
    unfold GeminiPart.response?
    cases hkind : part.kind with
    | functionResponse response =>
      show _ :: (toolMessages toJSONString n parts).map Message.content = _
      rw [ih]
      rfl
    | functionCall call => exact ih (n + 1)
    | text | inlineData | fileData | other => exact ih n

theorem flatMap_toolCalls_messages : (content.messages toJSONString).flatMap Message.toolCalls =
    toolCalls toJSONString 0 content.calls := by
  have htool : (toolMessages toJSONString 0 content.parts).flatMap Message.toolCalls = [] := by
    rw [List.flatMap_eq_nil_iff]
    intro message hmessage
    exact (mem_toolMessages toJSONString hmessage).2
  unfold GeminiChatContent.messages
  rw [List.flatMap_append, htool, List.nil_append]
  split_ifs with h
  · rw [h.1]
    rfl
  · rw [List.flatMap_singleton]
    rfl

theorem filter_tool_messages : (content.messages toJSONString).filter (fun message =>
    message.role = .tool) = toolMessages toJSONString 0 content.parts := by
  have htool : (toolMessages toJSONString 0 content.parts).filter (fun message =>
      message.role = .tool) = toolMessages toJSONString 0 content.parts := by
    rw [List.filter_eq_self]
    intro message hmessage
    exact decide_eq_true (mem_toolMessages toJSONString hmessage).1
  have hrole : (content.message toJSONString).role ≠ .tool :=
    (convertGeminiRoleToOpenAI_ne content.role).1
  unfold GeminiChatContent.messages
  rw [List.filter_append, htool]
  split_ifs
  · rw [List.filter_nil, List.append_nil]
  · rw [List.filter_singleton, decide_eq_false hrole, cond_false, List.append_nil]

/-- Beside calls nothing is said. -/
theorem saidContents_messages : saidContents (content.messages toJSONString) =
    if content.calls = [] then content.mediaContents else [] := by
  have htool : (toolMessages toJSONString 0 content.parts).filter (fun message =>
      message.role ≠ .tool ∧ message.role ≠ .system) = [] := by
    rw [List.filter_eq_nil_iff]
    intro message hmessage
    rw [(mem_toolMessages toJSONString hmessage).1]
    decide
  have hrole : (content.message toJSONString).role ≠ .tool ∧
      (content.message toJSONString).role ≠ .system := convertGeminiRoleToOpenAI_ne content.role
  rw [← parseContent_message toJSONString content]
  unfold saidContents GeminiChatContent.messages
  rw [List.filter_append, htool, List.nil_append]
  split_ifs with h
  · rw [parseContent_message, if_pos h.1, h.2]
    rfl
  · rw [List.filter_singleton, decide_eq_true hrole, cond_true, List.flatMap_singleton]

/-! ## Ids -/

theorem callId_injective : Function.Injective callId := by
  intro n m h
  have hrepr : n.repr = m.repr := (String.append_right_inj _).1 h
  have hdigits : Nat.toDigits 10 n = Nat.toDigits 10 m := by
    rw [← Nat.toList_repr, ← Nat.toList_repr, hrepr]
  calc n = Nat.ofDigitChars 10 (Nat.toDigits 10 n) 0 :=
        (Nat.ofDigitChars_toDigits (by omega) (by omega)).symm
    _ = m := by rw [hdigits, Nat.ofDigitChars_toDigits (by omega) (by omega)]

theorem map_id_toolCalls (n : ℕ) (calls : List FunctionCall) :
    (toolCalls toJSONString n calls).map ToolCallRequest.id =
      (List.range' (n + 1) calls.length).map callId := by
  induction calls generalizing n with
  | nil => rfl
  | cons call calls ih =>
    show callId (n + 1) :: (toolCalls toJSONString (n + 1) calls).map ToolCallRequest.id = _
    rw [ih, List.length_cons, List.range'_succ, List.map_cons]

theorem nodup_id_toolCalls (n : ℕ) (calls : List FunctionCall) :
    ((toolCalls toJSONString n calls).map ToolCallRequest.id).Nodup := by
  rw [map_id_toolCalls]
  exact List.Nodup.map callId_injective List.nodup_range'

/-- The ids of two contents with calls begin alike. -/
theorem disjoint_id_toolCalls (calls calls' : List FunctionCall) :
    List.Disjoint ((toolCalls toJSONString 0 calls).map ToolCallRequest.id)
      ((toolCalls toJSONString 0 calls').map ToolCallRequest.id) ↔ calls = [] ∨ calls' = [] := by
  constructor
  · intro h
    cases calls with
    | nil => exact Or.inl rfl
    | cons call calls =>
      cases calls' with
      | nil => exact Or.inr rfl
      | cons call' calls' => exact absurd List.mem_cons_self fun hmem => h hmem List.mem_cons_self
  · rintro (rfl | rfl) id hid hid'
    · cases hid
    · cases hid'

variable (contents : List GeminiChatContent)

theorem flatMap_toolCalls_contents :
    (contents.flatMap (GeminiChatContent.messages toJSONString)).flatMap Message.toolCalls =
      contents.flatMap fun content => toolCalls toJSONString 0 content.calls := by
  rw [List.flatMap_assoc]
  exact List.flatMap_congr fun content _ => flatMap_toolCalls_messages toJSONString content

theorem nodup_ids_iff :
    ((contents.flatMap fun content => toolCalls toJSONString 0 content.calls).map
      ToolCallRequest.id).Nodup ↔
      contents.Pairwise fun content content' => content.calls = [] ∨ content'.calls = [] := by
  rw [List.map_flatMap, List.nodup_flatMap]
  constructor
  · intro h
    exact h.2.imp fun hdisjoint => (disjoint_id_toolCalls toJSONString _ _).1 hdisjoint
  · intro h
    exact ⟨fun content _ => nodup_id_toolCalls toJSONString 0 content.calls,
      h.imp fun hcalls => (disjoint_id_toolCalls toJSONString _ _).2 hcalls⟩

/-! ## Places -/

/-- A `tool` message for one of the calls of a message. -/
def Answers (message answer : Message) : Prop :=
  ∃ toolCall ∈ message.toolCalls, answer.role = .tool ∧ answer.toolCallId = toolCall.id

theorem map_fst_sentCalls (messages : List Message) :
    (sentCalls messages).map Prod.fst = messages.flatMap Message.toolCalls := by
  unfold sentCalls
  rw [List.map_flatMap]
  simp only [List.map_map, Function.comp_def, List.map_id']
  rw [← List.flatMap_map, List.zipIdx_map_fst]

theorem map_fst_sentAnswers (messages : List Message) :
    (sentAnswers messages).map Prod.fst = messages.filter fun message => message.role = .tool := by
  have hfilter : (messages.zipIdx.map Prod.fst).filter (fun message => message.role = .tool) =
      (messages.zipIdx.filter fun sent => sent.1.role = .tool).map Prod.fst := List.filter_map
  rw [List.zipIdx_map_fst] at hfilter
  exact hfilter.symm

/-- Where no message has a later answer, a call comes after every answer with its id. -/
theorem place_of_pairwise {messages : List Message}
    (h : messages.Pairwise fun message answer => ¬ Answers message answer)
    {call : ToolCallRequest × ℕ} {answer : Message × ℕ} (hcall : call ∈ sentCalls messages)
    (hanswer : answer ∈ sentAnswers messages) (hid : answer.1.toolCallId = call.1.id) :
    ¬ call.2 < answer.2 := by
  intro hlt
  obtain ⟨sent, hsent, hmem⟩ := List.mem_flatMap.1 hcall
  obtain ⟨toolCall, htoolCall, rfl⟩ := List.mem_map.1 hmem
  obtain ⟨hsentAnswer, hrole⟩ := List.mem_filter.1 hanswer
  obtain ⟨hplace, hmessage⟩ := List.getElem?_eq_some_iff.1 (List.mem_zipIdx_iff_getElem?.1 hsent)
  obtain ⟨hplace', hmessage'⟩ :=
    List.getElem?_eq_some_iff.1 (List.mem_zipIdx_iff_getElem?.1 hsentAnswer)
  refine List.pairwise_iff_getElem.1 h sent.2 answer.2 hplace hplace' hlt ⟨toolCall, ?_, ?_, ?_⟩
  · rw [hmessage]
    exact htoolCall
  · rw [hmessage']
    exact of_decide_eq_true hrole
  · rw [hmessage']
    exact hid

/-- No response comes after its call. -/
theorem pairwise_not_answers (pre : List Message) (hpre : ∀ message ∈ pre, message.toolCalls = [])
    (h : contents.Pairwise fun content content' => content.calls = [] ∨ content'.calls = []) :
    (pre ++ contents.flatMap (GeminiChatContent.messages toJSONString)).Pairwise
      fun message answer => ¬ Answers message answer := by
  have hnone : ∀ message answer : Message, message.toolCalls = [] → ¬ Answers message answer := by
    rintro message answer hcalls ⟨toolCall, htoolCall, -⟩
    rw [hcalls] at htoolCall
    cases htoolCall
  have hcontent : ∀ content : GeminiChatContent, content.calls = [] →
      ∀ message ∈ content.messages toJSONString, message.toolCalls = [] := by
    intro content hcalls message hmessage
    rcases mem_messages toJSONString content hmessage with htool | rfl
    · exact (mem_toolMessages toJSONString htool).2
    · show toolCalls toJSONString 0 content.calls = []
      rw [hcalls]
      rfl
  rw [List.pairwise_append]
  refine ⟨?_, ?_, fun message hmessage answer _ => hnone message answer (hpre message hmessage)⟩
  · exact List.pairwise_of_forall_mem_list fun message hmessage answer _ =>
      hnone message answer (hpre message hmessage)
  · rw [List.pairwise_flatMap]
    refine ⟨?_, h.imp ?_⟩
    · -- the message with the calls is the last of its content
      intro content _
      unfold GeminiChatContent.messages
      rw [List.pairwise_append]
      refine ⟨List.pairwise_of_forall_mem_list fun message hmessage answer _ =>
        hnone message answer (mem_toolMessages toJSONString hmessage).2, ?_,
        fun message hmessage answer _ =>
          hnone message answer (mem_toolMessages toJSONString hmessage).2⟩
      split_ifs
      · exact List.Pairwise.nil
      · exact List.pairwise_singleton _ _
    · rintro content content' (hcalls | hcalls) message hmessage answer hanswer
      · exact hnone message answer (hcontent content hcalls message hmessage)
      · -- an answer from a content without calls is for `call_0`
        rintro ⟨toolCall, htoolCall, hrole, hid⟩
        rcases mem_messages toJSONString content' hanswer with htool | rfl
        · rw [toolCallId_of_calls toJSONString hcalls htool] at hid
          rcases mem_messages toJSONString content hmessage with hmem | rfl
          · rw [(mem_toolMessages toJSONString hmem).2] at htoolCall
            cases htoolCall
          · have hmem : toolCall.id ∈
                (toolCalls toJSONString 0 content.calls).map ToolCallRequest.id :=
              List.mem_map_of_mem htoolCall
            rw [map_id_toolCalls, ← hid] at hmem
            obtain ⟨n, hn, heq⟩ := List.mem_map.1 hmem
            have hzero := callId_injective heq
            rw [List.mem_range'_1] at hn
            omega
        · exact (convertGeminiRoleToOpenAI_ne content'.role).1 hrole

/-! ## Requests of which nothing is lost -/

theorem exists_first {α : Type} {l : List α} {p : α → Bool} {x : α} (hx : x ∈ l) (hp : p x) :
    ∃ y ∈ l, p y ∧ (l.filter p)[0]? = some y := by
  cases hfilter : l.filter p with
  | nil =>
    have hmem := List.mem_filter.2 ⟨hx, hp⟩
    rw [hfilter] at hmem
    cases hmem
  | cons y ys =>
    have hmem : y ∈ l.filter p := by
      rw [hfilter]
      exact List.mem_cons_self
    obtain ⟨hy, hpy⟩ := List.mem_filter.1 hmem
    exact ⟨y, hy, hpy, rfl⟩

theorem stop_iff {stopSequences : Slice String} :
    (∃ stop, convertStop stopSequences = some stop ∧
      (stop.map Slice.elements).getD [] =
        stopSequences.elements.take (min 4 stopSequences.len)) ↔
      stopSequences.len = 0 ∨ 4 ≤ stopSequences.len := by
  have htake : stopSequences.elements.take (min 4 stopSequences.len) =
      stopSequences.elements.take 4 := by
    rw [← Slice.length_elements, ← List.take_eq_take_min]
  rw [htake]
  unfold convertStop
  by_cases hlen : 0 < stopSequences.len
  · rw [if_pos hlen]
    constructor
    · rintro ⟨stop, hstop, helements⟩
      obtain ⟨slice, hslice, rfl⟩ := Option.map_eq_some_iff.1 hstop
      exact Or.inr (Slice.upTo_elements_iff.1 ⟨slice, hslice, helements⟩)
    · intro h
      have hfour : 4 ≤ stopSequences.len := by omega
      obtain ⟨slice, hslice, helements⟩ := Slice.upTo_elements_iff.2 hfour
      refine ⟨some slice, ?_, helements⟩
      rw [hslice]
      rfl
  · rw [if_neg hlen]
    have hnil : stopSequences.elements = [] := by
      rw [← List.length_eq_zero_iff, Slice.length_elements]
      omega
    constructor
    · intro _
      omega
    · intro _
      refine ⟨none, rfl, ?_⟩
      rw [hnil]
      rfl

theorem map_toolCalls (n : ℕ) (calls : List FunctionCall) :
    (toolCalls toJSONString n calls).map (fun toolCall => (toolCall.name, toolCall.arguments)) =
      calls.map fun call => (call.functionName, toJSONString call.arguments) := by
  induction calls generalizing n with
  | nil => rfl
  | cons call calls ih =>
    show (call.functionName, toJSONString call.arguments) ::
      (toolCalls toJSONString (n + 1) calls).map _ = _
    rw [ih]
    rfl

section Messages

-- the system instructions, and then the messages of the contents
variable (pre : List Message)
  (hpre : ∀ message ∈ pre, message.role = .system ∧ message.toolCalls = [])

include hpre

theorem flatMap_toolCalls_request :
    (pre ++ contents.flatMap (GeminiChatContent.messages toJSONString)).flatMap
        Message.toolCalls =
      contents.flatMap fun content => toolCalls toJSONString 0 content.calls := by
  have hnil : pre.flatMap Message.toolCalls = [] := by
    rw [List.flatMap_eq_nil_iff]
    intro message hmessage
    exact (hpre message hmessage).2
  rw [List.flatMap_append, hnil, List.nil_append, flatMap_toolCalls_contents]

/-- Every call is sent. -/
theorem map_sentCalls :
    (sentCalls (pre ++ contents.flatMap (GeminiChatContent.messages toJSONString))).map
        (fun sent => (sent.1.name, sent.1.arguments)) =
      (contents.flatMap GeminiChatContent.calls).map fun call =>
        (call.functionName, toJSONString call.arguments) := by
  have hfst := map_fst_sentCalls
    (pre ++ contents.flatMap (GeminiChatContent.messages toJSONString))
  rw [flatMap_toolCalls_request toJSONString contents pre hpre] at hfst
  have hmap := congrArg
    (List.map fun toolCall : ToolCallRequest => (toolCall.name, toolCall.arguments)) hfst
  rw [List.map_map, List.map_flatMap] at hmap
  rw [List.map_flatMap]
  refine hmap.trans (List.flatMap_congr fun content _ => map_toolCalls toJSONString 0 content.calls)

/-- Every response is answered. -/
theorem map_sentAnswers :
    (sentAnswers (pre ++ contents.flatMap (GeminiChatContent.messages toJSONString))).map
        (fun sent => sent.1.content) =
      (contents.flatMap GeminiChatContent.responses).map fun response =>
        .string (toJSONString response.response) := by
  have hnil : pre.filter (fun message => message.role = .tool) = [] := by
    rw [List.filter_eq_nil_iff]
    intro message hmessage
    rw [(hpre message hmessage).1]
    decide
  have hfst := map_fst_sentAnswers
    (pre ++ contents.flatMap (GeminiChatContent.messages toJSONString))
  rw [List.filter_append, hnil, List.nil_append, List.filter_flatMap] at hfst
  have hmap := congrArg (List.map Message.content) hfst
  rw [List.map_map, List.map_flatMap] at hmap
  rw [List.map_flatMap]
  refine hmap.trans (List.flatMap_congr fun content _ => ?_)
  rw [filter_tool_messages, map_content_toolMessages]
  rfl

theorem saidContents_request :
    saidContents (pre ++ contents.flatMap (GeminiChatContent.messages toJSONString)) =
      contents.flatMap fun content => if content.calls = [] then content.mediaContents else [] := by
  have hnil : pre.filter (fun message => message.role ≠ .tool ∧ message.role ≠ .system) = [] := by
    rw [List.filter_eq_nil_iff]
    intro message hmessage
    rw [(hpre message hmessage).1]
    decide
  unfold saidContents
  rw [List.filter_append, hnil, List.nil_append, List.filter_flatMap, List.flatMap_assoc]
  exact List.flatMap_congr fun content _ => saidContents_messages toJSONString content

/-- No answer is paired with its call, so responses are paired where there are none to be. -/
theorem paired_iff
    (h : contents.Pairwise fun content content' => content.calls = [] ∨ content'.calls = []) :
    Paired toJSONString contents
        (pre ++ contents.flatMap (GeminiChatContent.messages toJSONString)) ↔
      ∀ call ∈ contents.flatMap GeminiChatContent.calls,
        ∀ response ∈ contents.flatMap GeminiChatContent.responses,
          call.functionName ≠ response.name := by
  have hcalls := map_sentCalls toJSONString contents pre hpre
  have hanswers := map_sentAnswers toJSONString contents pre hpre
  have hpairwise := pairwise_not_answers toJSONString contents pre
    (fun message hmessage => (hpre message hmessage).2) h
  constructor
  · intro hpaired call hcall response hresponse hname
    have hsent : (call.functionName, toJSONString call.arguments) ∈ (sentCalls
        (pre ++ contents.flatMap (GeminiChatContent.messages toJSONString))).map
          fun sent => (sent.1.name, sent.1.arguments) := by
      rw [hcalls]
      exact List.mem_map_of_mem hcall
    obtain ⟨sent, hsent, heq⟩ := List.mem_map.1 hsent
    obtain ⟨first, hfirst, -, hzero⟩ :=
      exists_first (p := fun sent => sent.1.name = call.functionName) hsent
        (decide_eq_true (congrArg Prod.fst heq))
    have hlength := congrArg List.length hanswers
    rw [List.length_map, List.length_map] at hlength
    rw [← List.map_fst_zip hlength.ge] at hresponse
    obtain ⟨answered, hanswered, rfl⟩ := List.mem_map.1 hresponse
    obtain ⟨first', hfirst', -, hzero'⟩ :=
      exists_first (p := fun answered => answered.1.name = call.functionName) hanswered
        (decide_eq_true hname.symm)
    obtain ⟨hid, hplace⟩ := hpaired.paired call.functionName 0 first first' hzero hzero'
    exact place_of_pairwise hpairwise hfirst (List.of_mem_zip hfirst').2 hid hplace
  · intro hnames
    refine ⟨hcalls, hanswers, ?_⟩
    intro name i call answered hcall hanswered
    exfalso
    obtain ⟨hsent, hname⟩ := List.mem_filter.1 (List.mem_of_getElem? hcall)
    obtain ⟨hzip, hname'⟩ := List.mem_filter.1 (List.mem_of_getElem? hanswered)
    have hmem := List.mem_map_of_mem
      (f := fun sent : ToolCallRequest × ℕ => (sent.1.name, sent.1.arguments)) hsent
    rw [hcalls] at hmem
    obtain ⟨call', hcall', heq⟩ := List.mem_map.1 hmem
    have hfunction : call'.functionName = name :=
      (congrArg Prod.fst heq).trans (of_decide_eq_true hname)
    exact hnames call' hcall' answered.1 (List.of_mem_zip hzip).1
      (hfunction.trans (of_decide_eq_true hname').symm)

end Messages

/-- What is said is kept exactly where it is not said beside calls. -/
theorem kept_iff : (contents.flatMap GeminiChatContent.mediaContents).Sublist
      (contents.flatMap fun content => if content.calls = [] then content.mediaContents else []) ↔
    ∀ content ∈ contents, content.calls = [] ∨ content.mediaContents = [] := by
  rw [sublist_flatMap_iff]
  · refine forall₂_congr fun content _ => ?_
    by_cases hcalls : content.calls = []
    · simp [hcalls]
    · simp [hcalls]
  · intro content
    split_ifs
    · exact le_refl _
    · exact Nat.zero_le _

end Conversion

end Convert.Gemini
