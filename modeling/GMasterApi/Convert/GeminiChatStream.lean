import GMasterApi.Convert.GeminiChat

/-!
# The chunks of a Gemini response that are sent

`GeminiChatStreamHandler` converts each chunk by itself, numbers the tool calls of each
choice, and sends the names of the first calls, if the first chunk begins with calls, in a
chunk before.  Without their calls the choices that are sent are those of `bareSent`, and
after the first chunk the calls of a choice are numbered in a row.
-/

namespace Convert.GeminiChat

open Pieces

/-! ## Indices of tool calls -/

/-- `toolCallIndexByChoice` and `nextToolCallIndexByChoice`. -/
structure ToolCallIndexes where
  index : ℤ → String → Option ℕ
  next : ℤ → ℕ

def ToolCallIndexes.assign (m : ToolCallIndexes) (choiceKey : ℤ) (tool : ToolCallResponse) :
    ToolCallIndexes × ToolCallResponse :=
  if tool.id = "" then (m, tool)
  else match m.index choiceKey tool.id with
    | some idx => (m, { tool with index := some idx })
    | none =>
      let idx := m.next choiceKey
      ({ index := Function.update m.index choiceKey
          (Function.update (m.index choiceKey) tool.id (some idx))
         next := Function.update m.next choiceKey (idx + 1) },
        { tool with index := some idx })

def assignTools (choiceKey : ℤ) :
    ToolCallIndexes → List ToolCallResponse → ToolCallIndexes × List ToolCallResponse
  | m, [] => (m, [])
  | m, tool :: tools =>
    let (m, tool) := m.assign choiceKey tool
    let (m, tools) := assignTools choiceKey m tools
    (m, tool :: tools)

def StreamChoice.setToolCalls (choice : StreamChoice) (toolCalls : List ToolCallResponse) :
    StreamChoice :=
  { choice with delta := { choice.delta with toolCalls := toolCalls } }

def assignChoices : ToolCallIndexes → List StreamChoice → ToolCallIndexes × List StreamChoice
  | m, [] => (m, [])
  | m, choice :: choices =>
    let (m, toolCalls) := assignTools choice.index m choice.delta.toolCalls
    let (m, choices) := assignChoices m choices
    (m, choice.setToolCalls toolCalls :: choices)

/-! ## The handler -/

/-- `IsToolCall` of a chunk looks at its first choice. -/
def isToolCall : List StreamChoice → Bool
  | [] => false
  | choice :: _ => 0 < choice.delta.toolCalls.length

def isFinished : List StreamChoice → Bool
  | [] => false
  | choice :: _ => choice.finishReason.getD "" ≠ ""

def withoutArguments (tool : ToolCallResponse) : ToolCallResponse := { tool with arguments := "" }

def clearTool (tool : ToolCallResponse) : ToolCallResponse := { tool with id := "", name := "" }

def clearToolCalls (choices : List StreamChoice) : List StreamChoice :=
  if isToolCall choices then
    choices.map fun choice => choice.setToolCalls (choice.delta.toolCalls.map clearTool)
  else choices

def clearFinishReason : List StreamChoice → List StreamChoice
  | [] => []
  | choice :: choices => { choice with finishReason := none } :: choices

def generateStartEmptyResponse (toolCalls : List ToolCallResponse) : StreamChoice where
  index := 0
  delta := ⟨some "", none, none, toolCalls⟩
  finishReason := none

def generateStopResponse (finishReason : String) : StreamChoice where
  index := 0
  delta := ⟨none, none, none, []⟩
  finishReason := some finishReason

/-- What is sent for the first chunk: calls at its beginning are announced before. -/
def sendFirst : List StreamChoice → List (List StreamChoice)
  | [] => [[generateStartEmptyResponse []], []]
  | choice :: choices =>
    if isToolCall (choice :: choices) then
      let copiedToolCalls := choice.delta.toolCalls.map withoutArguments
      let cleared := clearToolCalls (choice :: choices)
      [[generateStartEmptyResponse copiedToolCalls],
        if isFinished cleared then clearFinishReason cleared else cleared]
    else [[generateStartEmptyResponse []], choice :: choices]

/-- What the handler keeps between two chunks; `sendResponseCount` is the length of `sent`. -/
structure Handler where
  next : ℕ
  finishReason : String
  indexes : ToolCallIndexes
  sent : List (List StreamChoice)

def Handler.start : Handler := ⟨0, finishReasonStop, ⟨fun _ _ => none, fun _ => 0⟩, []⟩

/-- A chunk of the upstream, where the client asked in OpenAI's format. -/
def Handler.chunk (engine : Engine) (s : Handler) (candidates : List Candidate) : Handler :=
  let (choices, isStop, next) := streamResponseGeminiChat2OpenAI engine s.next candidates
  let finishReason := if isToolCall choices then finishReasonToolCalls else s.finishReason
  let (indexes, choices) := assignChoices s.indexes choices
  let sent := if s.sent.length = 0 then sendFirst choices else [choices]
  let stop := if isStop then [[generateStopResponse finishReason]] else []
  ⟨next, finishReason, indexes, s.sent ++ (sent ++ stop)⟩

/-- The chunks that the client is sent; the last one, with the usage, has no choice. -/
def geminiChatStreamHandler (engine : Engine) (chunks : List (List Candidate)) :
    List (List StreamChoice) :=
  (chunks.foldl (Handler.chunk engine) Handler.start).sent

/-! ## Chunks -/

/-- The parts of the candidate with an index, as they come. -/
def entries (index : ℤ) (chunks : List (List Candidate)) : List Candidate :=
  chunks.flatten.filter fun candidate => candidate.index = index

/-- The first candidate of a chunk has calls. -/
def beginsWithCalls : List Candidate → Bool
  | [] => false
  | candidate :: _ => candidate.hasCalls

/-- The finish reason that is set on the choice of an entry. -/
def Candidate.streamFinish (candidate : Candidate) : Option String :=
  if candidate.hasCalls then some finishReasonToolCalls
  else streamFinishReason candidate.finishReason

/-! ## Fresh ids -/

variable {engine : Engine}

theorem id_ne (n : ℕ) (call : Gemini.FunctionCall) :
    (getResponseToolCall engine n call).id ≠ "" := by
  show "call_" ++ engine.uuid n ≠ ""
  rw [ne_eq, String.append_eq_empty_iff]
  rintro ⟨h, -⟩
  exact absurd h (by decide)

/-- The ids that have an index come from the first `n` calls of `GetUUID`. -/
def Known (engine : Engine) (m : ToolCallIndexes) (n : ℕ) : Prop :=
  ∀ key id idx, m.index key id = some idx → ∃ j < n, id = "call_" ++ engine.uuid j

/-- A new id has the next index. -/
theorem assign_fresh {m : ToolCallIndexes} {n : ℕ} (h : Known engine m n) (key : ℤ)
    (call : Gemini.FunctionCall) (index : Option ℤ) :
    ∃ m', m.assign key { getResponseToolCall engine n call with index := index } =
        (m', { getResponseToolCall engine n call with index := some (m.next key : ℤ) }) ∧
      Known engine m' (n + 1) ∧ m'.next = Function.update m.next key (m.next key + 1) := by
  have hnone : m.index key (getResponseToolCall engine n call).id = none := by
    cases hidx : m.index key (getResponseToolCall engine n call).id with
    | none => rfl
    | some idx =>
      obtain ⟨j, hj, hid⟩ := h key _ idx hidx
      have huuid : engine.uuid n = engine.uuid j := (String.append_right_inj _).mp hid
      have := engine.uuid_injective huuid
      omega
  refine ⟨_, by simp only [ToolCallIndexes.assign, if_neg (id_ne n call), hnone]; rfl, ?_, rfl⟩
  intro key' id idx hidx
  by_cases hkey : key' = key
  · subst hkey
    by_cases hid : id = (getResponseToolCall engine n call).id
    · exact ⟨n, Nat.lt_succ_self n, hid⟩
    · have hold : m.index key' id = some idx := by
        simpa only [Function.update_self, Function.update_of_ne hid] using hidx
      obtain ⟨j, hj, hid⟩ := h key' id idx hold
      exact ⟨j, Nat.lt_succ_of_lt hj, hid⟩
  · have hold : m.index key' id = some idx := by
      simpa only [Function.update_of_ne hkey] using hidx
    obtain ⟨j, hj, hid⟩ := h key' id idx hold
    exact ⟨j, Nat.lt_succ_of_lt hj, hid⟩

theorem assignTools_fresh (key : ℤ) (calls : List Gemini.FunctionCall) :
    ∀ (m : ToolCallIndexes) (n k : ℕ), Known engine m n →
      ∃ m', assignTools key m (indexed k (toolCallsFrom engine n calls)) =
          (m', indexed (m.next key) (toolCallsFrom engine n calls)) ∧
        Known engine m' (n + calls.length) ∧
        m'.next = Function.update m.next key (m.next key + calls.length) := by
  induction calls with
  | nil =>
    intro m n k h
    exact ⟨m, rfl, h, (Function.update_eq_self key m.next).symm⟩
  | cons call calls ih =>
    intro m n k h
    obtain ⟨m₁, hassign, hknown, hnext⟩ := assign_fresh h key call (some (k : ℤ))
    obtain ⟨m₂, htools, hknown₂, hnext₂⟩ := ih m₁ (n + 1) (k + 1) hknown
    have hkey : m₁.next key = m.next key + 1 := by rw [hnext, Function.update_self]
    refine ⟨m₂, ?_, ?_, ?_⟩
    · simp only [toolCallsFrom, indexed, assignTools, hassign, htools, hkey]
    · rw [List.length_cons, Nat.add_comm calls.length 1, ← Nat.add_assoc]
      exact hknown₂
    · rw [hnext₂, hnext, Function.update_self, Function.update_idem, List.length_cons]
      congr 1
      omega

/-- The choice of an entry, its calls with the ids from the `n`th and the indices from `k` on. -/
def Candidate.sentChoice (engine : Engine) (entry : Candidate) (k n : ℕ) : StreamChoice :=
  (entry.streamChoice engine n).1.setToolCalls (indexed k (toolCallsFrom engine n entry.calls))

/-- The choices of a chunk as they are sent. -/
def numbered (engine : Engine) : (ℤ → ℕ) → ℕ → List Candidate → List StreamChoice
  | _, _, [] => []
  | next, n, entry :: chunk =>
    entry.sentChoice engine (next entry.index) n ::
      numbered engine
        (Function.update next entry.index (next entry.index + entry.calls.length))
        (n + entry.calls.length) chunk

theorem assignChoices_fresh (chunk : List Candidate) :
    ∀ (m : ToolCallIndexes) (n : ℕ), Known engine m n →
      ∃ m', assignChoices m (streamChoicesFrom engine n chunk).1 =
          (m', numbered engine m.next n chunk) ∧
        Known engine m' (streamChoicesFrom engine n chunk).2 ∧
        ∀ i, m'.next i = m.next i +
          ((chunk.filter fun entry => entry.index = i).flatMap Candidate.calls).length := by
  induction chunk with
  | nil =>
    intro m n h
    exact ⟨m, rfl, h, fun i => rfl⟩
  | cons entry chunk ih =>
    intro m n h
    obtain ⟨m₁, htools, hknown, hnext⟩ := assignTools_fresh entry.index entry.calls m n 0 h
    obtain ⟨m₂, hchoices, hknown₂, hnext₂⟩ := ih m₁ (n + entry.calls.length) hknown
    refine ⟨m₂, ?_, ?_, fun i => ?_⟩
    · simp only [streamChoicesFrom, streamChoice_eq, assignChoices, htools, hchoices, hnext]
      simp only [numbered, Candidate.sentChoice, streamChoice_eq]
    · simp only [streamChoicesFrom, streamChoice_eq]
      exact hknown₂
    · rw [hnext₂, hnext]
      by_cases hi : entry.index = i
      · rw [List.filter_cons_of_pos (by simpa using hi), List.flatMap_cons, List.length_append, hi,
          Function.update_self, Nat.add_assoc]
      · rw [List.filter_cons_of_neg (by simpa using hi), Function.update_of_ne (Ne.symm hi)]

theorem isToolCall_streamChoicesFrom (n : ℕ) (chunk : List Candidate) :
    isToolCall (streamChoicesFrom engine n chunk).1 = beginsWithCalls chunk := by
  cases chunk with
  | nil => rfl
  | cons entry chunk =>
    simp only [streamChoicesFrom, streamChoice_eq, isToolCall, length_indexed,
      length_toolCallsFrom, beginsWithCalls, Candidate.hasCalls]
    rw [decide_eq_decide, List.length_pos_iff]

/-- One chunk. -/
theorem chunk_eq (s : Handler) (chunk : List Candidate) (h : Known engine s.indexes s.next) :
    ∃ indexes, s.chunk engine chunk =
        ⟨(streamChoicesFrom engine s.next chunk).2,
          if beginsWithCalls chunk then finishReasonToolCalls else s.finishReason, indexes,
          s.sent ++ ((if s.sent.length = 0 then
              sendFirst (numbered engine s.indexes.next s.next chunk)
            else [numbered engine s.indexes.next s.next chunk]) ++
            if isStop chunk then
              [[generateStopResponse
                (if beginsWithCalls chunk then finishReasonToolCalls else s.finishReason)]]
            else [])⟩ ∧
      Known engine indexes (streamChoicesFrom engine s.next chunk).2 ∧
      ∀ i, indexes.next i = s.indexes.next i +
        ((chunk.filter fun entry => entry.index = i).flatMap Candidate.calls).length := by
  obtain ⟨indexes, hassign, hknown, hnext⟩ := assignChoices_fresh chunk s.indexes s.next h
  refine ⟨indexes, ?_, hknown, hnext⟩
  simp only [Handler.chunk, streamResponseGeminiChat2OpenAI, hassign,
    isToolCall_streamChoicesFrom]

/-! ## Calls that are numbered -/

/-- These calls, with ids, and with the indices from `k` on. -/
def Numbered (engine : Engine) (k : ℕ) (calls : List Gemini.FunctionCall)
    (tools : List ToolCallResponse) : Prop :=
  ∃ named, tools = indexed k named ∧
    named.map (fun tool => (tool.name, tool.arguments)) =
      calls.map (fun call => (call.functionName, engine.marshal call.arguments)) ∧
    ∀ tool ∈ named, tool.id ≠ ""

/-- The deltas of the tool calls of a choice. -/
def toolsAt (index : ℤ) (choices : List StreamChoice) : List ToolCallResponse :=
  (choices.filter fun choice => choice.index = index).flatMap fun choice => choice.delta.toolCalls

theorem toolsAt_append (index : ℤ) (choices choices' : List StreamChoice) :
    toolsAt index (choices ++ choices') = toolsAt index choices ++ toolsAt index choices' := by
  unfold toolsAt
  rw [List.filter_append, List.flatMap_append]

theorem toolsAt_eq_nil {index : ℤ} {choices : List StreamChoice}
    (h : ∀ choice ∈ choices, choice.index = index → choice.delta.toolCalls = []) :
    toolsAt index choices = [] := by
  unfold toolsAt
  rw [List.flatMap_eq_nil_iff]
  intro choice hchoice
  obtain ⟨hchoice, hindex⟩ := List.mem_filter.mp hchoice
  exact h choice hchoice (of_decide_eq_true hindex)

theorem indexed_append (k : ℕ) (tools tools' : List ToolCallResponse) :
    indexed k (tools ++ tools') = indexed k tools ++ indexed (k + tools.length) tools' := by
  induction tools generalizing k with
  | nil => rfl
  | cons tool tools ih =>
    show _ :: indexed (k + 1) (tools ++ tools') = _ :: (indexed (k + 1) tools ++ _)
    rw [ih, List.length_cons, Nat.add_right_comm, Nat.add_assoc k]

theorem numbered_nil (k : ℕ) : Numbered engine k [] [] :=
  ⟨[], rfl, rfl, fun _ h => absurd h List.not_mem_nil⟩

theorem Numbered.append {k : ℕ} {calls calls' : List Gemini.FunctionCall}
    {tools tools' : List ToolCallResponse} (h : Numbered engine k calls tools)
    (h' : Numbered engine (k + calls.length) calls' tools') :
    Numbered engine k (calls ++ calls') (tools ++ tools') := by
  obtain ⟨named, rfl, hmap, hids⟩ := h
  obtain ⟨named', rfl, hmap', hids'⟩ := h'
  have hlength : named.length = calls.length := by
    have := congrArg List.length hmap
    rwa [List.length_map, List.length_map] at this
  refine ⟨named ++ named', ?_, ?_, fun tool htool => ?_⟩
  · rw [indexed_append, hlength]
  · rw [List.map_append, List.map_append, hmap, hmap']
  · rcases List.mem_append.mp htool with htool | htool
    · exact hids tool htool
    · exact hids' tool htool

theorem toolCallsFrom_ids {n : ℕ} {calls : List Gemini.FunctionCall} :
    ∀ tool ∈ toolCallsFrom engine n calls, tool.id ≠ "" := by
  induction calls generalizing n with
  | nil => exact fun _ h => absurd h List.not_mem_nil
  | cons call calls ih =>
    intro tool htool
    rcases List.mem_cons.mp htool with rfl | htool
    · exact id_ne n call
    · exact ih tool htool

theorem numbered_toolCallsFrom (k n : ℕ) (calls : List Gemini.FunctionCall) :
    Numbered engine k calls (indexed k (toolCallsFrom engine n calls)) :=
  ⟨_, rfl, map_function_toolCallsFrom engine n calls, toolCallsFrom_ids⟩

theorem toolsAt_numbered_cons (i : ℤ) (next : ℤ → ℕ) (n : ℕ) (entry : Candidate)
    (chunk : List Candidate) :
    toolsAt i (numbered engine next n (entry :: chunk)) =
      (if entry.index = i then indexed (next entry.index) (toolCallsFrom engine n entry.calls)
        else []) ++ toolsAt i (numbered engine
          (Function.update next entry.index (next entry.index + entry.calls.length))
          (n + entry.calls.length) chunk) := by
  have hindex : (entry.sentChoice engine (next entry.index) n).index = entry.index := by
    simp only [Candidate.sentChoice, streamChoice_eq]
    rfl
  unfold toolsAt
  by_cases hi : entry.index = i
  · have hpos : decide ((entry.sentChoice engine (next entry.index) n).index = i) = true :=
      decide_eq_true (hindex.trans hi)
    rw [if_pos hi, numbered, List.filter_cons, if_pos hpos, List.flatMap_cons]
    rfl
  · have hneg : ¬ decide ((entry.sentChoice engine (next entry.index) n).index = i) = true :=
      fun h => hi (hindex.symm.trans (of_decide_eq_true h))
    rw [if_neg hi, numbered, List.filter_cons, if_neg hneg]
    rfl

/-- The deltas that a chunk has for a choice. -/
theorem toolsAt_numbered (engine : Engine) (i : ℤ) (chunk : List Candidate) (next : ℤ → ℕ) (n : ℕ) :
    Numbered engine (next i)
      ((chunk.filter fun entry => entry.index = i).flatMap Candidate.calls)
      (toolsAt i (numbered engine next n chunk)) := by
  induction chunk generalizing next n with
  | nil => exact numbered_nil _
  | cons entry chunk ih =>
    have hrest := ih (Function.update next entry.index (next entry.index + entry.calls.length))
      (n + entry.calls.length)
    rw [toolsAt_numbered_cons]
    by_cases hi : entry.index = i
    · subst hi
      rw [Function.update_self] at hrest
      rw [if_pos rfl, List.filter_cons_of_pos (by simp), List.flatMap_cons]
      exact (numbered_toolCallsFrom _ _ _).append hrest
    · rw [Function.update_of_ne (Ne.symm hi)] at hrest
      rw [if_neg hi, List.filter_cons_of_neg (by simpa using hi)]
      exact hrest

/-! ## Texts and finish reasons -/

def StreamChoice.bare (choice : StreamChoice) : StreamChoice := choice.setToolCalls []

def Candidate.bare (entry : Candidate) : StreamChoice where
  index := entry.index
  delta :=
    { content := if entry.isThought then none else some entry.streamed
      reasoningContent := if entry.isThought then some entry.streamed else none
      reasoning := none
      toolCalls := [] }
  finishReason := entry.streamFinish

theorem bare_sentChoice (entry : Candidate) (k n : ℕ) :
    (entry.sentChoice engine k n).bare = entry.bare := by
  simp only [Candidate.sentChoice, streamChoice_eq]
  rfl

theorem map_bare_numbered (chunk : List Candidate) (next : ℤ → ℕ) (n : ℕ) :
    (numbered engine next n chunk).map StreamChoice.bare = chunk.map Candidate.bare := by
  induction chunk generalizing next n with
  | nil => rfl
  | cons entry chunk ih => rw [numbered, List.map_cons, List.map_cons, ih, bare_sentChoice]

theorem isToolCall_numbered (next : ℤ → ℕ) (n : ℕ) (chunk : List Candidate) :
    isToolCall (numbered engine next n chunk) = beginsWithCalls chunk := by
  cases chunk with
  | nil => rfl
  | cons entry chunk =>
    simp only [numbered, Candidate.sentChoice, StreamChoice.setToolCalls, isToolCall,
      length_indexed, length_toolCallsFrom, beginsWithCalls, Candidate.hasCalls]
    rw [decide_eq_decide, List.length_pos_iff]

/-- The first chunk, where it begins with calls. -/
theorem sendFirst_calls (next : ℤ → ℕ) (n : ℕ) (entry : Candidate) (chunk : List Candidate)
    (h : entry.hasCalls = true) :
    sendFirst (numbered engine next n (entry :: chunk)) =
      [[generateStartEmptyResponse ((indexed (next entry.index)
          (toolCallsFrom engine n entry.calls)).map withoutArguments)],
        clearFinishReason ((numbered engine next n (entry :: chunk)).map fun choice =>
          choice.setToolCalls (choice.delta.toolCalls.map clearTool))] := by
  have hcalls : isToolCall (numbered engine next n (entry :: chunk)) = true := by
    rw [isToolCall_numbered]
    exact h
  have hcleared : clearToolCalls (numbered engine next n (entry :: chunk)) =
      (numbered engine next n (entry :: chunk)).map fun choice =>
        choice.setToolCalls (choice.delta.toolCalls.map clearTool) := if_pos hcalls
  have hfinished : isFinished ((numbered engine next n (entry :: chunk)).map fun choice =>
      choice.setToolCalls (choice.delta.toolCalls.map clearTool)) = true := by
    simp only [numbered, Candidate.sentChoice, streamChoice_eq, StreamChoice.setToolCalls,
      List.map_cons, isFinished, if_pos h]
    rfl
  rw [numbered] at hcalls hcleared hfinished ⊢
  simp only [sendFirst, if_pos hcalls, hcleared, if_pos hfinished]
  rfl

/-- The first chunk, where it does not. -/
theorem sendFirst_plain (next : ℤ → ℕ) (n : ℕ) (chunk : List Candidate)
    (h : beginsWithCalls chunk = false) :
    sendFirst (numbered engine next n chunk) =
      [[generateStartEmptyResponse []], numbered engine next n chunk] := by
  have hcalls : isToolCall (numbered engine next n chunk) = false := by
    rw [isToolCall_numbered, h]
  cases chunk with
  | nil => rfl
  | cons entry chunk =>
    rw [numbered] at hcalls ⊢
    simp only [sendFirst, hcalls, Bool.false_eq_true, if_false]

theorem map_bare_clearFinishReason (choices : List StreamChoice) :
    (clearFinishReason choices).map StreamChoice.bare =
      clearFinishReason (choices.map StreamChoice.bare) := by
  cases choices with
  | nil => rfl
  | cons choice choices => rfl

theorem map_bare_sendFirst (engine : Engine) (next : ℤ → ℕ) (n : ℕ) (chunk : List Candidate) :
    (sendFirst (numbered engine next n chunk)).flatten.map StreamChoice.bare =
      generateStartEmptyResponse [] :: if beginsWithCalls chunk then
        clearFinishReason (chunk.map Candidate.bare) else chunk.map Candidate.bare := by
  by_cases h : beginsWithCalls chunk = true
  · cases chunk with
    | nil => cases h
    | cons entry chunk =>
      have hbare : (numbered engine next n (entry :: chunk)).map (fun choice =>
          (choice.setToolCalls (choice.delta.toolCalls.map clearTool)).bare) =
            (entry :: chunk).map Candidate.bare := map_bare_numbered (entry :: chunk) next n
      rw [sendFirst_calls next n entry chunk h, if_pos h, ← hbare]
      simp only [List.flatten_cons, List.flatten_nil, List.append_nil, List.map_append,
        map_bare_clearFinishReason, List.map_map]
      rfl
  · rw [sendFirst_plain next n chunk (by simpa using h), if_neg h, ← map_bare_numbered chunk next n]
    simp only [List.flatten_cons, List.flatten_nil, List.append_nil, List.map_append]
    rfl

/-- The finish reason that the choices share. -/
def sharedFinish (called : Bool) : String :=
  if called then finishReasonToolCalls else finishReasonStop

def stopChoices (called : Bool) (chunk : List Candidate) : List StreamChoice :=
  if isStop chunk then [generateStopResponse (sharedFinish called)] else []

/-- What is sent for the chunks after the first, without the calls. -/
def bareRest : Bool → List (List Candidate) → List StreamChoice
  | _, [] => []
  | called, chunk :: chunks =>
    chunk.map Candidate.bare ++ (stopChoices (called || beginsWithCalls chunk) chunk ++
      bareRest (called || beginsWithCalls chunk) chunks)

def bareSent : List (List Candidate) → List StreamChoice
  | [] => []
  | chunk :: chunks =>
    generateStartEmptyResponse [] ::
      ((if beginsWithCalls chunk then clearFinishReason (chunk.map Candidate.bare)
        else chunk.map Candidate.bare) ++
      (stopChoices (beginsWithCalls chunk) chunk ++ bareRest (beginsWithCalls chunk) chunks))

theorem map_bare_stop (chunk : List Candidate) (called : Bool) :
    (if isStop chunk then [[generateStopResponse (sharedFinish called)]] else []).flatten.map
      StreamChoice.bare = stopChoices called chunk := by
  unfold stopChoices
  split
  · rfl
  · rfl

theorem toolsAt_stop (i : ℤ) (chunk : List Candidate) (finishReason : String) :
    toolsAt i (if isStop chunk then [[generateStopResponse finishReason]] else []).flatten =
      [] := by
  refine toolsAt_eq_nil fun choice hchoice _ => ?_
  split at hchoice
  · rw [List.flatten_cons, List.flatten_nil, List.append_nil] at hchoice
    rw [List.mem_singleton.mp hchoice]
    rfl
  · cases hchoice

theorem sharedFinish_or (called begins : Bool) :
    (if begins then finishReasonToolCalls else sharedFinish called) =
      sharedFinish (called || begins) := by
  cases called with
  | false => rfl
  | true =>
    cases begins with
    | false => rfl
    | true => rfl

theorem entries_cons (i : ℤ) (chunk : List Candidate) (chunks : List (List Candidate)) :
    entries i (chunk :: chunks) =
      (chunk.filter fun entry => entry.index = i) ++ entries i chunks := by
  unfold entries
  rw [List.flatten_cons, List.filter_append]

/-- The chunks after the first, by induction on them. -/
theorem foldl_chunk (chunks : List (List Candidate)) :
    ∀ (s : Handler) (called : Bool), Known engine s.indexes s.next → s.sent.length ≠ 0 →
      s.finishReason = sharedFinish called →
      ∃ rest, (chunks.foldl (Handler.chunk engine) s).sent = s.sent ++ rest ∧
        rest.flatten.map StreamChoice.bare = bareRest called chunks ∧
        ∀ i, Numbered engine (s.indexes.next i) ((entries i chunks).flatMap Candidate.calls)
          (toolsAt i rest.flatten) := by
  induction chunks with
  | nil =>
    intro s called _ _ _
    exact ⟨[], (List.append_nil _).symm, rfl, fun i => numbered_nil _⟩
  | cons chunk chunks ih =>
    intro s called hknown hsent hfinish
    obtain ⟨indexes, heq, hknown', hnext⟩ := chunk_eq s chunk hknown
    rw [if_neg hsent, hfinish, sharedFinish_or] at heq
    have hsent' : (s.chunk engine chunk).sent.length ≠ 0 := by
      rw [heq, List.length_append]
      omega
    obtain ⟨rest, hrest, hbare, htools⟩ := ih (s.chunk engine chunk)
      (called || beginsWithCalls chunk) (by rw [heq]; exact hknown') hsent' (by rw [heq])
    rw [heq] at hrest htools
    rw [List.foldl_cons, heq]
    refine ⟨_, hrest.trans (List.append_assoc _ _ _), ?_, fun i => ?_⟩
    · rw [List.flatten_append, List.map_append, hbare, List.flatten_append, List.map_append,
        map_bare_stop, List.flatten_cons, List.flatten_nil, List.append_nil, map_bare_numbered,
        List.append_assoc]
      rfl
    · rw [List.flatten_append, List.flatten_append, toolsAt_append, toolsAt_append, toolsAt_stop,
        List.append_nil, List.flatten_cons, List.flatten_nil, List.append_nil, entries_cons,
        List.flatMap_append]
      refine (toolsAt_numbered engine i chunk s.indexes.next s.next).append ?_
      rw [← hnext i]
      exact htools i

/-- What is sent for a stream. -/
theorem geminiChatStreamHandler_cons (engine : Engine) (chunk : List Candidate)
    (chunks : List (List Candidate)) :
    ∃ rest, (geminiChatStreamHandler engine (chunk :: chunks)).flatten =
        (sendFirst (numbered engine (fun _ => 0) 0 chunk)).flatten ++ rest ∧
      rest.map StreamChoice.bare = stopChoices (beginsWithCalls chunk) chunk ++
        bareRest (beginsWithCalls chunk) chunks ∧
      ∀ i, Numbered engine
        ((chunk.filter fun entry => entry.index = i).flatMap Candidate.calls).length
        ((entries i chunks).flatMap Candidate.calls) (toolsAt i rest) := by
  have hknown : Known engine Handler.start.indexes Handler.start.next :=
    fun key id idx h => by cases h
  obtain ⟨indexes, heq, hknown', hnext⟩ := chunk_eq Handler.start chunk hknown
  have hzero : Handler.start.sent.length = 0 := rfl
  have hshared : (if beginsWithCalls chunk then finishReasonToolCalls
      else Handler.start.finishReason) = sharedFinish (beginsWithCalls chunk) := rfl
  have hnil : Handler.start.sent = [] := rfl
  have hnumbered : numbered engine Handler.start.indexes.next Handler.start.next chunk =
      numbered engine (fun _ => 0) 0 chunk := rfl
  rw [if_pos hzero, hshared, hnumbered, hnil, List.nil_append] at heq
  have hfirst : (sendFirst (numbered engine (fun _ => 0) 0 chunk)).length ≠ 0 := by
    have hlength := congrArg List.length
      (map_bare_sendFirst engine (fun _ => 0) 0 chunk)
    intro h
    rw [List.length_eq_zero_iff.mp h] at hlength
    cases hlength
  have hsent : (Handler.start.chunk engine chunk).sent.length ≠ 0 := by
    rw [heq]
    simp only [List.length_append]
    omega
  obtain ⟨rest, hrest, hbare, htools⟩ := foldl_chunk chunks (Handler.start.chunk engine chunk)
    (beginsWithCalls chunk) (by rw [heq]; exact hknown') hsent (by rw [heq])
  rw [heq] at hrest htools
  refine ⟨(if isStop chunk then [[generateStopResponse
    (sharedFinish (beginsWithCalls chunk))]] else []).flatten ++ rest.flatten, ?_, ?_, fun i => ?_⟩
  · unfold geminiChatStreamHandler
    rw [List.foldl_cons, heq, hrest, List.flatten_append, List.flatten_append, List.append_assoc]
  · rw [List.map_append, map_bare_stop, hbare]
  · rw [toolsAt_append, toolsAt_stop, List.nil_append]
    have hzero : Handler.start.indexes.next i = 0 := rfl
    have := htools i
    rw [hnext i, hzero, Nat.zero_add] at this
    exact this

theorem map_bare_geminiChatStreamHandler (engine : Engine) (chunks : List (List Candidate)) :
    (geminiChatStreamHandler engine chunks).flatten.map StreamChoice.bare = bareSent chunks := by
  cases chunks with
  | nil => rfl
  | cons chunk chunks =>
    obtain ⟨rest, hsent, hbare, -⟩ := geminiChatStreamHandler_cons engine chunk chunks
    rw [hsent, List.map_append, hbare, map_bare_sendFirst]
    rfl

end Convert.GeminiChat
