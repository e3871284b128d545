import GMasterApi.Convert.GeminiRequest
import GMasterApi.Convert.OpenAIStream
import GMasterApi.Lib.Pieces

/-!
# Gemini responses as chat completions

`responseGeminiChat2OpenAI` converts a response as a whole, `streamResponseGeminiChat2OpenAI`
a chunk of one.  Both take the same branch for a part, but do not write the same there, and
the second has one place for thoughts and for the answer.
-/

namespace Convert.GeminiChat

open GoString JsonValue Pieces
open Gemini (GeminiInlineData FunctionCall)

/-! ## Candidates -/

structure ExecutableCode where
  language : String
  code : String
  deriving DecidableEq

/-- The fields of a `GeminiPart` that the conversions read. -/
structure Part where
  text : String
  thought : Bool
  inlineData : Option GeminiInlineData
  functionCall : Option FunctionCall
  executableCode : Option ExecutableCode
  codeExecutionResult : Option String

structure Candidate where
  index : ℤ
  parts : List Part
  finishReason : Option String

inductive Kind
  | media (data : GeminiInlineData)
  | call (call : FunctionCall)
  | thought (text : String)
  | code (code : ExecutableCode)
  | output (output : String)
  | text (text : String)

/-- The branch that is taken for a part. -/
def Part.kind (part : Part) : Kind :=
  match part.inlineData, part.functionCall with
  | some data, _ => .media data
  | none, some call => .call call
  | none, none =>
    if part.thought then .thought part.text
    else match part.executableCode, part.codeExecutionResult with
      | some code, _ => .code code
      | none, some output => .output output
      | none, none => .text part.text

/-- `marshal` is `json.Marshal`, and `uuid` gives the answers of `GetUUID`. -/
structure Engine where
  marshal : Json → String
  uuid : ℕ → String
  uuid_injective : Function.Injective uuid

/-! ## What is written -/

/-- A `strings.Builder` and the number of pieces that were written. -/
structure Builder where
  content : String
  appended : ℕ
  deriving DecidableEq

/-- `writeSep`, and then a piece. -/
def Builder.write (b : Builder) (piece : String) : Builder :=
  ⟨(if 0 < b.appended then b.content ++ "\n" else b.content) ++ piece, b.appended + 1⟩

def isImage (data : GeminiInlineData) : Bool := hasPrefix data.mimeType "image"

def imageText (data : GeminiInlineData) : String :=
  "![image](data:" ++ data.mimeType ++ ";base64," ++ data.data ++ ")"

def mediaText (data : GeminiInlineData) : String :=
  "[media](data:" ++ data.mimeType ++ ";base64," ++ data.data ++ ")"

def codeText (code : ExecutableCode) : String :=
  "```" ++ code.language ++ "\n" ++ code.code ++ "\n```"

def outputText (output : String) : String := "```output\n" ++ output ++ "\n```"

def finishReasonStop : String := "stop"
def finishReasonToolCalls : String := "tool_calls"
def finishReasonLength : String := "length"
def finishReasonContentFilter : String := "content_filter"

/-- The reasons that have a case of their own beside these two are content filters too. -/
def mapFinishReason (finishReason : String) : String :=
  if finishReason = "STOP" then finishReasonStop
  else if finishReason = "MAX_TOKENS" then finishReasonLength
  else finishReasonContentFilter

section Conversions

variable (engine : Engine)

/-- With the id that the `n`th call of `GetUUID` gives. -/
def getResponseToolCall (n : ℕ) (call : FunctionCall) : ToolCallResponse where
  index := none
  id := "call_" ++ engine.uuid n
  name := call.functionName
  arguments := engine.marshal call.arguments

/-! ## The response as a whole -/

structure Choice where
  index : ℤ
  reasoningContent : Option String
  content : String
  toolCalls : List ToolCallResponse
  finishReason : String
  deriving DecidableEq

/-- A candidate as far as its parts were looked at. -/
structure Whole where
  content : Builder
  toolCalls : List ToolCallResponse
  reasoningContent : Option String
  finishReason : String
  next : ℕ

def Whole.add (s : Whole) (part : Part) : Whole :=
  match part.kind with
  | .media data =>
    { s with content := s.content.write (if isImage data then imageText data else mediaText data) }
  | .call call =>
    { s with
      finishReason := finishReasonToolCalls
      toolCalls := s.toolCalls ++ [getResponseToolCall engine s.next call]
      next := s.next + 1 }
  | .thought text => { s with reasoningContent := some text }
  | .code code => { s with content := s.content.write (codeText code) }
  | .output output => { s with content := s.content.write (outputText output) }
  | .text text => if text ≠ "\n" then { s with content := s.content.write text } else s

/-- The choice of a candidate; `isToolCall` is kept from one candidate to the next. -/
def Candidate.choice (candidate : Candidate) (isToolCall : Bool) (n : ℕ) : Choice × Bool × ℕ :=
  let s := candidate.parts.foldl (Whole.add engine) ⟨⟨"", 0⟩, [], none, finishReasonStop, n⟩
  let isToolCall := isToolCall || decide (0 < s.toolCalls.length)
  let finishReason :=
    match candidate.finishReason with
    | some finishReason => mapFinishReason finishReason
    | none => s.finishReason
  (⟨candidate.index, s.reasoningContent, s.content.content, s.toolCalls,
    if isToolCall then finishReasonToolCalls else finishReason⟩, isToolCall, s.next)

def choicesFrom : Bool → ℕ → List Candidate → List Choice
  | _, _, [] => []
  | isToolCall, n, candidate :: candidates =>
    let (choice, isToolCall, n) := candidate.choice engine isToolCall n
    choice :: choicesFrom isToolCall n candidates

def responseGeminiChat2OpenAI (candidates : List Candidate) : List Choice :=
  choicesFrom engine false 0 candidates

/-! ## A chunk -/

structure StreamChoice where
  index : ℤ
  delta : ChunkDelta
  finishReason : Option String
  deriving DecidableEq

/-- A candidate of a chunk as far as its parts were looked at. -/
structure Streamed where
  content : Builder
  toolCalls : List ToolCallResponse
  isTools : Bool
  isThought : Bool
  next : ℕ

def Streamed.add (s : Streamed) (part : Part) : Streamed :=
  match part.kind with
  | .media data =>
    if isImage data then { s with content := s.content.write (imageText data) } else s
  | .call call =>
    { s with
      isTools := true
      toolCalls := s.toolCalls ++
        [{ getResponseToolCall engine s.next call with index := some s.toolCalls.length }]
      next := s.next + 1 }
  | .thought text => { s with isThought := true, content := s.content.write text }
  | .code code => { s with content := s.content.write (codeText code ++ "\n") }
  | .output output => { s with content := s.content.write (outputText output ++ "\n") }
  | .text text => if text ≠ "\n" then { s with content := s.content.write text } else s

/-- `STOP` is taken away before the others are looked up. -/
def streamFinishReason (finishReason : Option String) : Option String :=
  (finishReason.filter fun finishReason => finishReason ≠ "STOP").map mapFinishReason

def Candidate.streamChoice (candidate : Candidate) (n : ℕ) : StreamChoice × ℕ :=
  let s := candidate.parts.foldl (Streamed.add engine) ⟨⟨"", 0⟩, [], false, false, n⟩
  let content := s.content.content
  ({ index := candidate.index
     delta :=
      { content := if s.isThought then none else some content
        reasoningContent := if s.isThought then some content else none
        reasoning := none
        toolCalls := s.toolCalls }
     finishReason :=
      if s.isTools then some finishReasonToolCalls else streamFinishReason candidate.finishReason },
    s.next)

def streamChoicesFrom : ℕ → List Candidate → List StreamChoice × ℕ
  | n, [] => ([], n)
  | n, candidate :: candidates =>
    let (choice, n) := candidate.streamChoice engine n
    let (choices, n) := streamChoicesFrom n candidates
    (choice :: choices, n)

/-- Some candidate has stopped. -/
def isStop (candidates : List Candidate) : Bool :=
  candidates.any fun candidate => candidate.finishReason = some "STOP"

def streamResponseGeminiChat2OpenAI (n : ℕ) (candidates : List Candidate) :
    List StreamChoice × Bool × ℕ :=
  let (choices, n) := streamChoicesFrom engine n candidates
  (choices, isStop candidates, n)

end Conversions

/-! ## What the parts of a candidate come to -/

def Part.call? (part : Part) : Option FunctionCall :=
  match part.kind with
  | .call call => some call
  | _ => none

def Part.thought? (part : Part) : Option String :=
  match part.kind with
  | .thought text => some text
  | _ => none

/-- What is written of a part where the response is converted as a whole. -/
def Part.answer? (part : Part) : Option String :=
  match part.kind with
  | .media data => some (if isImage data then imageText data else mediaText data)
  | .call _ | .thought _ => none
  | .code code => some (codeText code)
  | .output output => some (outputText output)
  | .text text => if text ≠ "\n" then some text else none

/-- What is written of a part in a chunk. -/
def Part.streamed? (part : Part) : Option String :=
  match part.kind with
  | .media data => if isImage data then some (imageText data) else none
  | .call _ => none
  | .thought text => some text
  | .code code => some (codeText code ++ "\n")
  | .output output => some (outputText output ++ "\n")
  | .text text => if text ≠ "\n" then some text else none

def Candidate.calls (candidate : Candidate) : List FunctionCall :=
  candidate.parts.filterMap Part.call?

def Candidate.thoughts (candidate : Candidate) : List String :=
  candidate.parts.filterMap Part.thought?

def Candidate.hasCalls (candidate : Candidate) : Bool := candidate.calls ≠ []

def Candidate.isThought (candidate : Candidate) : Bool := candidate.thoughts ≠ []

/-- Pieces with a separator between any two of them. -/
def written (pieces : List String) : String := (pieces.foldl Builder.write ⟨"", 0⟩).content

def Candidate.answer (candidate : Candidate) : String :=
  written (candidate.parts.filterMap Part.answer?)

def Candidate.streamed (candidate : Candidate) : String :=
  written (candidate.parts.filterMap Part.streamed?)

/-- The finish reason where no candidate before has calls. -/
def Candidate.ownFinishReason (candidate : Candidate) : String :=
  if candidate.hasCalls then finishReasonToolCalls
  else match candidate.finishReason with
    | some finishReason => mapFinishReason finishReason
    | none => finishReasonStop

/-- The text without its line breaks. -/
def letters (text : String) : List Char := text.toList.filter fun c => c ≠ '\n'

section Specs

variable (engine : Engine)

/-- The tool calls for some calls, with the ids from the `n`th on. -/
def toolCallsFrom : ℕ → List FunctionCall → List ToolCallResponse
  | _, [] => []
  | n, call :: calls => getResponseToolCall engine n call :: toolCallsFrom (n + 1) calls

/-- Numbered from `k` on. -/
def indexed : ℕ → List ToolCallResponse → List ToolCallResponse
  | _, [] => []
  | k, tool :: tools => { tool with index := some k } :: indexed (k + 1) tools

theorem length_toolCallsFrom (n : ℕ) (calls : List FunctionCall) :
    (toolCallsFrom engine n calls).length = calls.length := by
  induction calls generalizing n with
  | nil => rfl
  | cons call calls ih =>
    show (toolCallsFrom engine (n + 1) calls).length + 1 = calls.length + 1
    rw [ih]

theorem length_indexed (k : ℕ) (tools : List ToolCallResponse) :
    (indexed k tools).length = tools.length := by
  induction tools generalizing k with
  | nil => rfl
  | cons tool tools ih =>
    show (indexed (k + 1) tools).length + 1 = tools.length + 1
    rw [ih]

theorem map_function_toolCallsFrom (n : ℕ) (calls : List FunctionCall) :
    (toolCallsFrom engine n calls).map (fun tool => (tool.name, tool.arguments)) =
      calls.map fun call => (call.functionName, engine.marshal call.arguments) := by
  induction calls generalizing n with
  | nil => rfl
  | cons call calls ih =>
    show _ :: (toolCallsFrom engine (n + 1) calls).map _ = _ :: calls.map _
    rw [ih]
    rfl

/-- The loop of the response as a whole. -/
theorem foldl_whole (parts : List Part) (s : Whole) :
    parts.foldl (Whole.add engine) s =
      { content := (parts.filterMap Part.answer?).foldl Builder.write s.content
        toolCalls := s.toolCalls ++ toolCallsFrom engine s.next (parts.filterMap Part.call?)
        reasoningContent := (parts.filterMap Part.thought?).getLast?.or s.reasoningContent
        finishReason :=
          if parts.filterMap Part.call? = [] then s.finishReason else finishReasonToolCalls
        next := s.next + (parts.filterMap Part.call?).length } := by
  induction parts generalizing s with
  | nil => simp [toolCallsFrom]
  | cons part parts ih =>
    rw [List.foldl_cons, ih]
    cases hkind : part.kind with
    | media data =>
      simp only [Whole.add, List.filterMap_cons, Part.answer?, Part.call?, Part.thought?, hkind,
        List.foldl_cons]
    | call call =>
      simp only [Whole.add, List.filterMap_cons, Part.answer?, Part.call?, Part.thought?, hkind,
        List.append_assoc, List.singleton_append, toolCallsFrom, List.length_cons,
        Whole.mk.injEq, true_and, reduceCtorEq, if_false, ite_self]
      omega
    | thought text =>
      simp only [Whole.add, List.filterMap_cons, Part.answer?, Part.call?, Part.thought?, hkind,
        Whole.mk.injEq, true_and, and_true]
      cases parts.filterMap Part.thought? with
      | nil => rfl
      | cons thought thoughts =>
        rw [List.getLast?_cons_cons, List.getLast?_cons]
        rfl
    | code code =>
      simp only [Whole.add, List.filterMap_cons, Part.answer?, Part.call?, Part.thought?, hkind,
        List.foldl_cons]
    | output output =>
      simp only [Whole.add, List.filterMap_cons, Part.answer?, Part.call?, Part.thought?, hkind,
        List.foldl_cons]
    | text text =>
      simp only [Whole.add, List.filterMap_cons, Part.answer?, Part.call?, Part.thought?, hkind]
      split
      · rfl
      · rfl

/-- The loop of a chunk. -/
theorem foldl_streamed (parts : List Part) (s : Streamed) :
    parts.foldl (Streamed.add engine) s =
      { content := (parts.filterMap Part.streamed?).foldl Builder.write s.content
        toolCalls := s.toolCalls ++ indexed s.toolCalls.length
          (toolCallsFrom engine s.next (parts.filterMap Part.call?))
        isTools := s.isTools || decide (parts.filterMap Part.call? ≠ [])
        isThought := s.isThought || decide (parts.filterMap Part.thought? ≠ [])
        next := s.next + (parts.filterMap Part.call?).length } := by
  induction parts generalizing s with
  | nil => simp [toolCallsFrom, indexed]
  | cons part parts ih =>
    rw [List.foldl_cons, ih]
    cases hkind : part.kind with
    | media data =>
      simp only [Streamed.add, List.filterMap_cons, Part.streamed?, Part.call?, Part.thought?,
        hkind]
      split
      · rfl
      · rfl
    | call call =>
      simp only [Streamed.add, List.filterMap_cons, Part.streamed?, Part.call?, Part.thought?,
        hkind,
        List.append_assoc, List.singleton_append, toolCallsFrom, indexed, List.length_cons,
        List.length_append, List.length_nil, Streamed.mk.injEq, true_and, ne_eq, reduceCtorEq,
        not_false_eq_true, decide_true, Bool.or_true, Bool.true_or]
      omega
    | thought text =>
      simp only [Streamed.add, List.filterMap_cons, Part.streamed?, Part.call?, Part.thought?,
        hkind,
        List.foldl_cons, ne_eq, reduceCtorEq, not_false_eq_true, decide_true, Bool.or_true,
        Bool.true_or]
    | code code =>
      simp only [Streamed.add, List.filterMap_cons, Part.streamed?, Part.call?, Part.thought?,
        hkind,
        List.foldl_cons]
    | output output =>
      simp only [Streamed.add, List.filterMap_cons, Part.streamed?, Part.call?, Part.thought?,
        hkind,
        List.foldl_cons]
    | text text =>
      simp only [Streamed.add, List.filterMap_cons, Part.streamed?, Part.call?, Part.thought?,
        hkind]
      split
      · rfl
      · rfl

/-! ## Choices -/

theorem choice_eq (candidate : Candidate) (isToolCall : Bool) (n : ℕ) :
    candidate.choice engine isToolCall n =
      (⟨candidate.index, candidate.thoughts.getLast?, candidate.answer,
        toolCallsFrom engine n candidate.calls,
        if isToolCall then finishReasonToolCalls else candidate.ownFinishReason⟩,
      isToolCall || candidate.hasCalls, n + candidate.calls.length) := by
  have hcalls : decide (0 < candidate.calls.length) = candidate.hasCalls := by
    unfold Candidate.hasCalls
    rw [decide_eq_decide, List.length_pos_iff]
  unfold Candidate.choice
  simp only [foldl_whole, List.nil_append, length_toolCallsFrom, Option.or_none]
  show (_, isToolCall || decide (0 < candidate.calls.length), _) = _
  rw [hcalls]
  simp only [Prod.mk.injEq, Choice.mk.injEq, true_and]
  refine ⟨⟨rfl, rfl, rfl, ?_⟩, rfl⟩
  cases isToolCall with
  | true => rfl
  | false =>
    show (if (false || decide (0 < candidate.calls.length)) = true then _ else _) =
      candidate.ownFinishReason
    rw [hcalls, Bool.false_or]
    unfold Candidate.ownFinishReason
    by_cases h : candidate.hasCalls = true
    · rw [if_pos h, if_pos h]
    · have hnil : candidate.parts.filterMap Part.call? = [] := by
        by_contra hne
        exact h (decide_eq_true hne)
      rw [if_neg h, if_neg h, if_pos hnil]

theorem streamChoice_eq (candidate : Candidate) (n : ℕ) :
    candidate.streamChoice engine n =
      ({ index := candidate.index
         delta :=
          { content := if candidate.isThought then none else some candidate.streamed
            reasoningContent := if candidate.isThought then some candidate.streamed else none
            reasoning := none
            toolCalls := indexed 0 (toolCallsFrom engine n candidate.calls) }
         finishReason :=
          if candidate.hasCalls then some finishReasonToolCalls
          else streamFinishReason candidate.finishReason },
        n + candidate.calls.length) := by
  unfold Candidate.streamChoice
  simp only [foldl_streamed, List.nil_append, Bool.false_or]
  rfl

/-- Each choice of a response comes from its candidate, and whether one before has calls. -/
theorem getElem?_choicesFrom {candidates : List Candidate} {k : ℕ} {candidate : Candidate}
    (h : candidates[k]? = some candidate) (isToolCall : Bool) (n : ℕ) :
    ∃ m, (choicesFrom engine isToolCall n candidates)[k]? =
      some (candidate.choice engine
        (isToolCall || (candidates.take k).any Candidate.hasCalls) m).1 := by
  induction candidates generalizing k isToolCall n with
  | nil => cases h
  | cons first rest ih =>
    cases k with
    | zero =>
      cases h
      refine ⟨n, ?_⟩
      rw [List.take_zero, List.any_nil, Bool.or_false]
      rfl
    | succ k =>
      have hrest : rest[k]? = some candidate := h
      obtain ⟨m, hm⟩ := ih hrest (isToolCall || first.hasCalls) (n + first.calls.length)
      refine ⟨m, ?_⟩
      rw [List.take_succ_cons, List.any_cons, ← Bool.or_assoc, ← hm]
      simp only [choicesFrom, choice_eq, List.getElem?_cons_succ]

end Specs

/-! ## Pieces -/

theorem foldl_write (pieces : List String) (b : Builder) (hb : 0 < b.appended) :
    (pieces.foldl Builder.write b).content =
      b.content ++ String.join (pieces.map fun piece => "\n" ++ piece) := by
  induction pieces generalizing b with
  | nil =>
    rw [List.map_nil, String.join_nil, String.append_empty]
    rfl
  | cons piece pieces ih =>
    have hpos : 0 < (b.write piece).appended := Nat.succ_pos _
    rw [List.foldl_cons, ih _ hpos, List.map_cons, String.join_cons, ← String.append_assoc]
    simp only [Builder.write, if_pos hb, String.append_assoc]

theorem written_cons (piece : String) (pieces : List String) :
    written (piece :: pieces) =
      piece ++ String.join (pieces.map fun piece => "\n" ++ piece) := by
  have hpos : 0 < (Builder.write ⟨"", 0⟩ piece).appended := Nat.succ_pos _
  unfold written
  rw [List.foldl_cons, foldl_write _ _ hpos]
  simp only [Builder.write, Nat.lt_irrefl, if_false, String.empty_append]

theorem written_singleton (piece : String) : written [piece] = piece := by
  rw [written_cons, List.map_nil, String.join_nil, String.append_empty]

theorem length_written (pieces : List String) :
    (written pieces).length = (pieces.map String.length).sum + (pieces.length - 1) := by
  have hjoin : ∀ pieces : List String,
      (String.join (pieces.map fun piece => "\n" ++ piece)).length =
        (pieces.map String.length).sum + pieces.length := by
    intro pieces
    induction pieces with
    | nil => rfl
    | cons piece pieces ih =>
      have hbreak : ("\n" : String).length = 1 := rfl
      rw [List.map_cons, String.join_cons, String.length_append, String.length_append, ih, hbreak,
        List.map_cons, List.sum_cons, List.length_cons]
      omega
  cases pieces with
  | nil => rfl
  | cons piece pieces =>
    rw [written_cons, String.length_append, hjoin, List.map_cons, List.sum_cons, List.length_cons]
    omega

theorem letters_append (s t : String) : letters (s ++ t) = letters s ++ letters t := by
  unfold letters
  rw [String.toList_append, List.filter_append]

/-- Separators are line breaks. -/
theorem letters_written (pieces : List String) :
    letters (written pieces) = pieces.flatMap letters := by
  have hjoin : ∀ pieces : List String,
      letters (String.join (pieces.map fun piece => "\n" ++ piece)) = pieces.flatMap letters := by
    intro pieces
    induction pieces with
    | nil => rfl
    | cons piece pieces ih =>
      rw [List.map_cons, String.join_cons, letters_append, letters_append, ih, List.flatMap_cons]
      rfl
  cases pieces with
  | nil => rfl
  | cons piece pieces => rw [written_cons, letters_append, hjoin, List.flatMap_cons]

theorem letters_join (texts : List String) :
    letters (String.join texts) = texts.flatMap letters := by
  induction texts with
  | nil => rfl
  | cons text texts ih => rw [String.join_cons, letters_append, ih, List.flatMap_cons]

/-! ## Thoughts and answers in a chunk -/

/-- What is written of a part in a chunk, if it is not a thought. -/
def Part.said? (part : Part) : Option String :=
  if part.thought?.isSome then none else part.streamed?

/-- A part that is only written where the response is converted as a whole. -/
def Part.isDropped (part : Part) : Bool :=
  match part.kind with
  | .media data => !isImage data
  | _ => false

/-- The text of an entry of a chunk as a thought. -/
def Candidate.thoughtText (entry : Candidate) : String :=
  if entry.isThought then entry.streamed else ""

/-- The text of an entry of a chunk as an answer. -/
def Candidate.answerText (entry : Candidate) : String :=
  if entry.isThought then "" else entry.streamed

/-- An entry with a thought has nothing else that is written. -/
def Candidate.OnlyThought (entry : Candidate) : Prop :=
  entry.isThought = true → (entry.parts.filterMap Part.streamed?).length = 1

theorem streamed_of_thought {part : Part} {text : String} (h : part.thought? = some text) :
    part.streamed? = some text := by
  unfold Part.thought? at h
  unfold Part.streamed?
  cases hkind : part.kind with
  | thought thought =>
    rw [hkind] at h
    exact h
  | media data => rw [hkind] at h; cases h
  | call call => rw [hkind] at h; cases h
  | code code => rw [hkind] at h; cases h
  | output output => rw [hkind] at h; cases h
  | text text => rw [hkind] at h; cases h

/-- Thoughts are pieces, and so is what else is said. -/
theorem pieces_spec (parts : List Part) :
    List.Sublist (parts.filterMap Part.thought?) (parts.filterMap Part.streamed?) ∧
      (parts.filterMap Part.streamed?).length =
        (parts.filterMap Part.thought?).length + (parts.filterMap Part.said?).length := by
  induction parts with
  | nil => exact ⟨List.Sublist.refl _, rfl⟩
  | cons part parts ih =>
    obtain ⟨hsub, hlength⟩ := ih
    cases hthought : part.thought? with
    | some text =>
      have hsaid : part.said? = none := by
        unfold Part.said?
        rw [hthought]
        rfl
      rw [List.filterMap_cons_some hthought,
        List.filterMap_cons_some (streamed_of_thought hthought), List.filterMap_cons_none hsaid,
        List.length_cons, List.length_cons]
      exact ⟨hsub.cons_cons text, by omega⟩
    | none =>
      have hsaid : part.said? = part.streamed? := by
        unfold Part.said?
        rw [hthought]
        rfl
      rw [List.filterMap_cons_none hthought]
      cases hstreamed : part.streamed? with
      | none =>
        rw [List.filterMap_cons_none hstreamed, List.filterMap_cons_none (hsaid.trans hstreamed)]
        exact ⟨hsub, hlength⟩
      | some text =>
        rw [List.filterMap_cons_some hstreamed, List.filterMap_cons_some (hsaid.trans hstreamed),
          List.length_cons, List.length_cons]
        exact ⟨hsub.cons text, by omega⟩

theorem sum_length_le {texts texts' : List String} (h : List.Sublist texts texts') :
    (texts.map String.length).sum ≤ (texts'.map String.length).sum := by
  induction h with
  | slnil => exact Nat.le_refl _
  | cons text _ ih =>
    rw [List.map_cons, List.sum_cons]
    omega
  | cons_cons text _ ih =>
    rw [List.map_cons, List.map_cons, List.sum_cons, List.sum_cons]
    omega

theorem length_thoughtText (entry : Candidate) :
    (String.join entry.thoughts).length ≤ entry.thoughtText.length := by
  unfold Candidate.thoughtText
  by_cases h : entry.isThought = true
  · have hsum := sum_length_le (pieces_spec entry.parts).1
    rw [if_pos h, String.length_join, Candidate.streamed, length_written]
    exact Nat.le_trans hsum (Nat.le_add_right _ _)
  · have hnil : entry.thoughts = [] := by
      by_contra hne
      exact h (decide_eq_true hne)
    rw [hnil]
    exact Nat.zero_le _

/-- The text of an entry is its thoughts exactly if there is only one piece. -/
theorem thoughtText_iff (entry : Candidate) :
    entry.thoughtText = String.join entry.thoughts ↔ entry.OnlyThought := by
  unfold Candidate.thoughtText Candidate.OnlyThought
  by_cases h : entry.isThought = true
  · rw [if_pos h]
    have hne : entry.thoughts ≠ [] := of_decide_eq_true h
    have hpos : 0 < entry.thoughts.length := List.length_pos_iff.mpr hne
    obtain ⟨hsub, hpieces⟩ := pieces_spec entry.parts
    have hle : entry.thoughts.length ≤ (entry.parts.filterMap Part.streamed?).length :=
      hsub.length_le
    constructor
    · intro heq _
      have hlength := congrArg String.length heq
      rw [String.length_join, Candidate.streamed, length_written] at hlength
      have hsum : (entry.thoughts.map String.length).sum ≤
        ((entry.parts.filterMap Part.streamed?).map String.length).sum := sum_length_le hsub
      omega
    · intro hone
      have hpieces := hone h
      have hge : (entry.parts.filterMap Part.streamed?).length ≤ entry.thoughts.length := by omega
      have heq : entry.thoughts = entry.parts.filterMap Part.streamed? := hsub.eq_of_length_le hge
      obtain ⟨piece, hpiece⟩ := List.length_eq_one_iff.mp hpieces
      rw [Candidate.streamed, heq, hpiece, written_singleton, Pieces.join_singleton]
  · have hnil : entry.thoughts = [] := by
      by_contra hne
      exact h (decide_eq_true hne)
    rw [if_neg h, hnil]
    exact ⟨fun _ hthought => absurd hthought h, fun _ => rfl⟩

/-- What a part adds to a text. -/
def added (piece : Option String) : List Char := (piece.map letters).getD []

theorem flatMap_letters (f : Part → Option String) (parts : List Part) :
    (parts.filterMap f).flatMap letters = parts.flatMap fun part => added (f part) := by
  induction parts with
  | nil => rfl
  | cons part parts ih =>
    rw [List.flatMap_cons, ← ih]
    cases h : f part with
    | none => rw [List.filterMap_cons_none h]; rfl
    | some piece => rw [List.filterMap_cons_some h, List.flatMap_cons]; rfl

theorem letters_answerText {entry : Candidate} (h : entry.OnlyThought) :
    letters entry.answerText = entry.parts.flatMap fun part => added part.said? := by
  unfold Candidate.answerText
  rw [← flatMap_letters]
  obtain ⟨-, hlength⟩ := pieces_spec entry.parts
  by_cases hthought : entry.isThought = true
  · have hpos : 0 < (entry.parts.filterMap Part.thought?).length :=
      List.length_pos_iff.mpr (of_decide_eq_true hthought)
    have hone := h hthought
    have hnil : entry.parts.filterMap Part.said? = [] := List.length_eq_zero_iff.mp (by omega)
    rw [if_pos hthought, hnil]
    rfl
  · have hnone : ∀ part ∈ entry.parts, part.said? = part.streamed? := by
      intro part hpart
      unfold Part.said?
      cases ht : part.thought? with
      | none => rfl
      | some text =>
        have hmem : text ∈ entry.thoughts := List.mem_filterMap.mpr ⟨part, hpart, ht⟩
        exact absurd (decide_eq_true (List.ne_nil_of_mem hmem)) hthought
    rw [if_neg hthought, List.filterMap_congr hnone, Candidate.streamed, letters_written]

theorem added_break (text : String) : added (some (text ++ "\n")) = added (some text) := by
  show letters (text ++ "\n") = letters text
  rw [letters_append]
  exact List.append_nil _

/-- Of a part nothing is missing in a chunk, or it is media of another kind. -/
theorem added_said (part : Part) : (added part.said?).length ≤ (added part.answer?).length ∧
    (added part.answer? = added part.said? ↔ part.isDropped = false) := by
  unfold Part.said? Part.thought? Part.streamed? Part.answer? Part.isDropped
  cases hkind : part.kind with
  | media data =>
    by_cases himage : isImage data = true
    · simp [himage]
    · have hne : added (some (mediaText data)) ≠ [] := by
        show letters (mediaText data) ≠ []
        unfold mediaText
        rw [String.append_assoc, String.append_assoc, String.append_assoc, letters_append]
        intro h
        cases (List.append_eq_nil_iff.mp h).1
      have hnone : added (none : Option String) = [] := rfl
      simp [himage, hne, hnone]
  | call call => simp
  | thought text => simp [added]
  | code code => simp [added_break]
  | output output => simp [added_break]
  | text text => simp

end Convert.GeminiChat
