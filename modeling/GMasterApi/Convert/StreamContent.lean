import GMasterApi.Convert.OpenAIStream

/-!
# What the converted stream delivers

The content of the chunks (`Received`) and that of the events (`Sent`): the text, the
thinking, and the tool calls one by one.  They are the same after every step of a run whose
chunks are all delivered in full (`delivered_of_everyStep`).
-/

namespace Convert

open Transition

/-! ## What is sent -/

/-- A tool block with the arguments that its deltas have brought. -/
structure ToolBlock where
  index : ℤ
  id : String
  name : String
  arguments : String
  deriving DecidableEq

/-- The content of a stream of events. -/
structure Sent where
  text : String
  thinking : String
  tools : List ToolBlock
  deriving DecidableEq

def lastIdx {α : Type} (p : α → Bool) : List α → Option ℕ
  | [] => none
  | x :: xs =>
    match lastIdx p xs with
    | some i => some (i + 1)
    | none => if p x then some 0 else none

/-- Arguments for the block that was opened last at the index. -/
def addArguments (tools : List ToolBlock) (index : ℤ) (partialJson : String) : List ToolBlock :=
  match lastIdx (fun block => block.index = index) tools with
  | some i => tools.modify i fun block => { block with arguments := block.arguments ++ partialJson }
  | none => tools

def Sent.add (sent : Sent) : Event → Sent
  | .contentBlockStart index (.toolUse id name) =>
    { sent with tools := sent.tools ++ [⟨index, id, name, ""⟩] }
  | .contentBlockDelta _ (.textDelta text) => { sent with text := sent.text ++ text }
  | .contentBlockDelta _ (.thinkingDelta thinking) =>
    { sent with thinking := sent.thinking ++ thinking }
  | .contentBlockDelta index (.inputJsonDelta partialJson) =>
    { sent with tools := addArguments sent.tools index partialJson }
  | _ => sent

def Conversion.sent (s : Conversion) : Sent := s.events.foldl Sent.add ⟨"", "", []⟩

/-! ## What is received -/

/-- A tool call of the chunks; its key is the index, or the place in the chunk where that is
left out. -/
structure ToolCall where
  key : ℤ
  id : String
  name : String
  arguments : String
  deriving DecidableEq

/-- A fragment goes on with a call of its key, if it has no id or the same. -/
def ToolCall.continues (key : ℤ) (fragment : ToolCallResponse) (call : ToolCall) : Bool :=
  call.key = key ∧ (fragment.id = "" ∨ fragment.id = call.id)

def ToolCall.extend (fragment : ToolCallResponse) (call : ToolCall) : ToolCall :=
  { call with
    name := if call.name = "" then fragment.name else call.name
    arguments := call.arguments ++ fragment.arguments }

def receiveFragment (calls : List ToolCall) (key : ℤ) (fragment : ToolCallResponse) :
    List ToolCall :=
  match lastIdx (ToolCall.continues key fragment) calls with
  | some i => calls.modify i (ToolCall.extend fragment)
  | none => calls ++ [⟨key, fragment.id, fragment.name, fragment.arguments⟩]

def receiveFragments (calls : List ToolCall) : ℕ → List ToolCallResponse → List ToolCall
  | _, [] => calls
  | i, fragment :: fragments =>
    receiveFragments (receiveFragment calls (fragment.index.getD i) fragment) (i + 1) fragments

/-- The content of the chunks. -/
structure Received where
  content : String
  reasoning : String
  calls : List ToolCall
  deriving DecidableEq

def Received.add (received : Received) (chunk : Chunk) : Received :=
  match chunk.choice with
  | none => received
  | some choice =>
    { content := received.content ++ choice.delta.getContentString
      reasoning := received.reasoning ++ choice.delta.getReasoningContent
      calls := receiveFragments received.calls 0 choice.delta.toolCalls }

def Conversion.received (s : Conversion) : Received := s.chunks.foldl Received.add ⟨"", "", []⟩

/-! ## What is promised -/

/-- What a tool call says: its id, its name and its arguments. -/
def ToolCall.said (call : ToolCall) : String × String × String :=
  (call.id, call.name, call.arguments)

def ToolBlock.said (block : ToolBlock) : String × String × String :=
  (block.id, block.name, block.arguments)

def ToolCallResponse.said (fragment : ToolCallResponse) : String × String × String :=
  (fragment.id, fragment.name, fragment.arguments)

/-- All that was received has been sent, once: the text, the thinking, and every tool call
in a block of its own. -/
structure Agrees (sent : Sent) (received : Received) : Prop where
  text : sent.text = received.content
  thinking : sent.thinking = received.reasoning
  tools : sent.tools.map ToolBlock.said = received.calls.map ToolCall.said
  single : (sent.tools.map ToolBlock.index).Nodup

def Delivered (s : Conversion) : Prop := Agrees s.sent s.received

/-! ## What is asked of the chunks -/

/-- The index of the first tool call of a later chunk. -/
def Conversion.toolBase (s : Conversion) : ℤ :=
  match s.lastMessagesType with
  | .none => s.index
  | .tools => s.toolCallBaseIndex
  | .text => s.index + 1
  | .thinking => s.index + 1

/-- A fragment that opens a block is for a call of its own, at an index without a tool
block; one that does not goes on with a call, whose block is at its index if it brings
arguments. -/
def FragmentDelivered (calls : List ToolCall) (tools : List ToolBlock) (base key : ℤ)
    (fragment : ToolCallResponse) : Prop :=
  match lastIdx (ToolCall.continues key fragment) calls with
  | none => fragment.name ≠ "" ∧ base + key ∉ tools.map ToolBlock.index
  | some i =>
    fragment.name = "" ∧
      (fragment.arguments ≠ "" → (tools.map ToolBlock.index)[i]? = some (base + key))

/-- The tool blocks after a fragment of a later chunk. -/
def sendFragment (tools : List ToolBlock) (base key : ℤ) (fragment : ToolCallResponse) :
    List ToolBlock :=
  let tools :=
    if fragment.name ≠ "" then tools ++ [⟨base + key, fragment.id, fragment.name, ""⟩] else tools
  if fragment.arguments ≠ "" then addArguments tools (base + key) fragment.arguments else tools

instance (calls : List ToolCall) (tools : List ToolBlock) (base key : ℤ)
    (fragment : ToolCallResponse) : Decidable (FragmentDelivered calls tools base key fragment) :=
  match h : lastIdx (ToolCall.continues key fragment) calls with
  | none => decidable_of_iff (fragment.name ≠ "" ∧ base + key ∉ tools.map ToolBlock.index)
      (by rw [FragmentDelivered, h])
  | some i => decidable_of_iff (fragment.name = "" ∧
      (fragment.arguments ≠ "" → (tools.map ToolBlock.index)[i]? = some (base + key)))
      (by rw [FragmentDelivered, h])

def FragmentsDelivered (base : ℤ) (calls : List ToolCall) (tools : List ToolBlock) :
    ℕ → List ToolCallResponse → Prop
  | _, [] => True
  | i, fragment :: fragments =>
    let key := fragment.index.getD i
    FragmentDelivered calls tools base key fragment ∧
      FragmentsDelivered base (receiveFragment calls key fragment)
        (sendFragment tools base key fragment) (i + 1) fragments

instance (base : ℤ) : (calls : List ToolCall) → (tools : List ToolBlock) → (i : ℕ) →
    (fragments : List ToolCallResponse) →
      Decidable (FragmentsDelivered base calls tools i fragments)
  | _, _, _, [] => isTrue trivial
  | calls, tools, i, fragment :: fragments =>
    have := instDecidableFragmentsDelivered base
      (receiveFragment calls (fragment.index.getD i) fragment)
      (sendFragment tools base (fragment.index.getD i) fragment) (i + 1) fragments
    inferInstanceAs (Decidable (_ ∧ _))

/-- A chunk that is passed over. -/
def Conversion.PassedOver (s : Conversion) (choice : Choice) : Prop :=
  choice.delta.getContentString = "" ∧ choice.delta.getReasoningContent = "" ∧
    (receiveFragments s.received.calls 0 choice.delta.toolCalls).map ToolCall.said =
      s.received.calls.map ToolCall.said

/-- A first chunk: not both reasoning and content, and its tool calls add the first of them
as it stands. -/
def Conversion.DeliversFirst (s : Conversion) (choice : Choice) : Prop :=
  (choice.delta.getReasoningContent ≠ "" → choice.delta.getContentString = "") ∧
    (receiveFragments s.received.calls 0 choice.delta.toolCalls).map ToolCall.said =
      s.received.calls.map ToolCall.said ++
        (choice.delta.toolCalls.take 1).map ToolCallResponse.said ∧
    (choice.delta.toolCalls ≠ [] → 0 ∉ s.sent.tools.map ToolBlock.index)

/-- A later chunk: only one of tool calls, reasoning and content. -/
def Conversion.DeliversLater (s : Conversion) (choice : Choice) : Prop :=
  if choice.delta.toolCalls ≠ [] then
    choice.delta.getContentString = "" ∧ choice.delta.getReasoningContent = "" ∧
      FragmentsDelivered s.toolBase s.received.calls s.sent.tools 0 choice.delta.toolCalls
  else choice.delta.getReasoningContent ≠ "" → choice.delta.getContentString = ""

/-- A chunk that `StreamResponseOpenAI2Claude` takes as the first, or as a later one. -/
def Conversion.DeliversChunk (s : Conversion) (first : Prop) [Decidable first] (chunk : Chunk) :
    Prop :=
  match chunk.choice with
  | none => True
  | some choice =>
    if s.done then s.PassedOver choice
    else if first then s.DeliversFirst choice
    else if choice.done ∧ chunk.usage = none then s.PassedOver choice
    else s.DeliversLater choice

/-- The condition on a step. -/
def Delivers (s : Conversion) : Handling → Prop
  | .handleStreamFormat chunk => s.DeliversChunk (s.sendResponseCount = 0) chunk
  | .setUsage _ => True
  | .handleFinalResponse chunk _ => s.DeliversChunk (s.sendResponseCount = 1) chunk

/-! ## The last of its kind -/

section LastIdx

variable {α β : Type} {p : α → Bool}

theorem lastIdx_eq_none {l : List α} (h : ∀ x ∈ l, p x = false) : lastIdx p l = none := by
  induction l with
  | nil => rfl
  | cons x xs ih =>
    unfold lastIdx
    rw [ih fun y hy => h y (List.mem_cons_of_mem x hy), h x List.mem_cons_self]
    rfl

theorem lastIdx_concat {x : α} (h : p x = true) (l : List α) :
    lastIdx p (l ++ [x]) = some l.length := by
  induction l with
  | nil =>
    show (if p x then some 0 else none) = some 0
    rw [if_pos h]
  | cons y ys ih =>
    show (match lastIdx p (ys ++ [x]) with
      | some i => some (i + 1)
      | none => if p y then some 0 else none) = _
    rw [ih]
    rfl

/-- Where no two are alike, the last of a kind is the only one. -/
theorem lastIdx_of_nodup [DecidableEq β] {f : α → β} {b : β} {l : List α} {i : ℕ}
    (hnodup : (l.map f).Nodup) (hget : (l.map f)[i]? = some b) :
    lastIdx (fun x => decide (f x = b)) l = some i := by
  induction l generalizing i with
  | nil => simp at hget
  | cons x xs ih =>
    rw [List.map_cons, List.nodup_cons] at hnodup
    unfold lastIdx
    cases i with
    | zero =>
      have hx : f x = b := by simpa using hget
      have hnone : lastIdx (fun y => decide (f y = b)) xs = none := by
        refine lastIdx_eq_none fun y hy => ?_
        have hne : f y ≠ b := by
          intro hyb
          exact hnodup.1 (by rw [hx, ← hyb]; exact List.mem_map_of_mem hy)
        simp [hne]
      rw [hnone]
      simp [hx]
    | succ i =>
      rw [ih hnodup.2 (by simpa using hget)]

theorem map_modify {f : α → α} {g : α → β} {f' : β → β} (h : ∀ x, g (f x) = f' (g x))
    (l : List α) (i : ℕ) : (l.modify i f).map g = (l.map g).modify i f' := by
  induction l generalizing i with
  | nil => simp
  | cons x xs ih =>
    cases i with
    | zero => simp [h]
    | succ i => simp [ih]

end LastIdx

/-! ## Tool calls, block by block -/

/-- The blocks say what the calls say, each at an index of its own. -/
structure Matches (tools : List ToolBlock) (calls : List ToolCall) : Prop where
  said : tools.map ToolBlock.said = calls.map ToolCall.said
  single : (tools.map ToolBlock.index).Nodup

section Matches

variable {tools : List ToolBlock} {calls : List ToolCall} {fragment : ToolCallResponse}
  {base key : ℤ}

theorem addArguments_concat (tools : List ToolBlock) (index : ℤ) (id name arguments : String) :
    addArguments (tools ++ [⟨index, id, name, ""⟩]) index arguments =
      tools ++ [⟨index, id, name, arguments⟩] := by
  unfold addArguments
  rw [lastIdx_concat (by simp)]
  show (tools ++ [_]).modify tools.length _ = _
  rw [List.modify_eq_take_cons_drop (by simp)]
  simp

theorem Matches.concat (h : Matches tools calls) {index : ℤ}
    (hfresh : index ∉ tools.map ToolBlock.index) {calls' : List ToolCall}
    {id name arguments : String}
    (hcalls : calls'.map ToolCall.said = calls.map ToolCall.said ++ [(id, name, arguments)]) :
    Matches (tools ++ [⟨index, id, name, arguments⟩]) calls' := by
  refine ⟨?_, ?_⟩
  · rw [hcalls, List.map_append, h.said]
    rfl
  · rw [List.map_append]
    refine List.nodup_append.2 ⟨h.single, by simp, ?_⟩
    intro i hi j hj
    have hj' : j = index := by simpa using hj
    rw [hj']
    rintro rfl
    exact hfresh hi

/-- Arguments to a block and its call. -/
theorem Matches.modify (h : Matches tools calls) {i : ℕ} (hname : fragment.name = "") :
    Matches
      (tools.modify i fun block =>
        { block with arguments := block.arguments ++ fragment.arguments })
      (calls.modify i (ToolCall.extend fragment)) := by
  let extend : String × String × String → String × String × String := fun words =>
    (words.1, words.2.1, words.2.2 ++ fragment.arguments)
  have hcall : ∀ call : ToolCall, (call.extend fragment).said = extend call.said := by
    intro call
    have hsame : (if call.name = "" then fragment.name else call.name) = call.name := by
      by_cases hempty : call.name = ""
      · rw [if_pos hempty, hname, hempty]
      · rw [if_neg hempty]
    show (call.id, (if call.name = "" then fragment.name else call.name), _) = _
    rw [hsame]
    rfl
  have hblock : ∀ block : ToolBlock,
      ToolBlock.said { block with arguments := block.arguments ++ fragment.arguments } =
        extend block.said := fun _ => rfl
  have hindex : ∀ block : ToolBlock,
      ToolBlock.index { block with arguments := block.arguments ++ fragment.arguments } =
        id block.index := fun _ => rfl
  refine ⟨?_, ?_⟩
  · rw [map_modify hblock, map_modify hcall, h.said]
  · rw [map_modify hindex, List.modify_id]
    exact h.single

/-- A fragment does the same to the blocks and to the calls. -/
theorem Matches.step (h : Matches tools calls)
    (hdelivered : FragmentDelivered calls tools base key fragment) :
    Matches (sendFragment tools base key fragment) (receiveFragment calls key fragment) := by
  unfold FragmentDelivered at hdelivered
  unfold sendFragment receiveFragment
  cases hlast : lastIdx (ToolCall.continues key fragment) calls with
  | none =>
    rw [hlast] at hdelivered
    obtain ⟨hname, hfresh⟩ := hdelivered
    dsimp only
    rw [if_pos hname, addArguments_concat]
    have hcalls : List.map ToolCall.said
          (calls ++ [⟨key, fragment.id, fragment.name, fragment.arguments⟩]) =
        calls.map ToolCall.said ++ [(fragment.id, fragment.name, fragment.arguments)] :=
      List.map_append
    have hconcat := h.concat hfresh hcalls
    by_cases harguments : fragment.arguments = ""
    · rw [if_neg (not_not_intro harguments)]
      rwa [harguments] at hconcat ⊢
    · rw [if_pos harguments]
      exact hconcat
  | some i =>
    rw [hlast] at hdelivered
    obtain ⟨hname, hindex⟩ := hdelivered
    dsimp only
    rw [if_neg (not_not_intro hname)]
    have hmodify := h.modify (i := i) hname
    by_cases harguments : fragment.arguments = ""
    · rw [if_neg (not_not_intro harguments)]
      refine ⟨h.said.trans ?_, h.single⟩
      have hsame : (fun block : ToolBlock =>
          { block with arguments := block.arguments ++ fragment.arguments }) = id := by
        funext block
        simp [harguments]
      rw [hsame, List.modify_id] at hmodify
      exact h.said.symm.trans hmodify.said
    · rw [if_pos harguments]
      unfold addArguments
      rw [lastIdx_of_nodup h.single (hindex harguments)]
      exact hmodify

end Matches

instance (s : Conversion) (choice : Choice) : Decidable (s.PassedOver choice) :=
  inferInstanceAs (Decidable (_ ∧ _))

instance (s : Conversion) (choice : Choice) : Decidable (s.DeliversFirst choice) :=
  inferInstanceAs (Decidable (_ ∧ _))

instance (s : Conversion) (choice : Choice) : Decidable (s.DeliversLater choice) :=
  inferInstanceAs (Decidable (if choice.delta.toolCalls ≠ [] then
      choice.delta.getContentString = "" ∧ choice.delta.getReasoningContent = "" ∧
        FragmentsDelivered s.toolBase s.received.calls s.sent.tools 0 choice.delta.toolCalls
    else choice.delta.getReasoningContent ≠ "" → choice.delta.getContentString = ""))

instance (s : Conversion) (first : Prop) [Decidable first] (chunk : Chunk) :
    Decidable (s.DeliversChunk first chunk) :=
  match h : chunk.choice with
  | none => isTrue (by rw [Conversion.DeliversChunk, h]; trivial)
  | some choice => decidable_of_iff
      (if s.done then s.PassedOver choice
      else if first then s.DeliversFirst choice
      else if choice.done ∧ chunk.usage = none then s.PassedOver choice
      else s.DeliversLater choice) (by rw [Conversion.DeliversChunk, h])

instance (s : Conversion) : (h : Handling) → Decidable (Delivers s h)
  | .handleStreamFormat chunk => inferInstanceAs (Decidable (s.DeliversChunk _ chunk))
  | .setUsage _ => isTrue trivial
  | .handleFinalResponse chunk _ => inferInstanceAs (Decidable (s.DeliversChunk _ chunk))

/-! ## Content that is sent -/

variable {s : Conversion} {last : LastMessagesType} {block : ContentBlock} {delta : Delta}

theorem sent_emit (s : Conversion) (event : Event) : (s.emit event).sent = s.sent.add event :=
  List.foldl_append

theorem sent_stopTools (base : ℤ) (n : ℕ) (s : Conversion) :
    (s.stopTools base n).sent = s.sent := by
  induction n with
  | zero => rfl
  | succ n ih =>
    show ((s.stopTools base n).emit _).sent = _
    rw [sent_emit]
    exact ih

theorem sent_stopOpenBlocks (s : Conversion) : s.stopOpenBlocks.sent = s.sent := by
  unfold Conversion.stopOpenBlocks
  split
  · exact sent_emit _ _
  · exact sent_emit _ _
  · exact sent_stopTools _ _ _
  · rfl

theorem sent_advance (s : Conversion) : s.stopOpenBlocksAndAdvance.sent = s.sent := by
  unfold Conversion.stopOpenBlocksAndAdvance
  split
  · rfl
  · exact sent_stopOpenBlocks s
  · exact sent_stopOpenBlocks s
  · exact sent_stopOpenBlocks s

theorem sent_finish (s : Conversion) (oaiUsage : Option OpenAIUsage) (stopReason : String) :
    (s.finish oaiUsage stopReason).sent = s.sent := by
  unfold Conversion.finish
  cases oaiUsage with
  | none => exact (sent_emit _ _).trans (sent_stopOpenBlocks s)
  | some oaiUsage =>
    exact (sent_emit _ _).trans ((sent_emit _ _).trans (sent_stopOpenBlocks s))

theorem sent_finishIf (s : Conversion) (chunk : Chunk) (choice : Choice) :
    (s.finishIf chunk choice).sent = s.sent := by
  unfold Conversion.finishIf
  split
  · exact sent_finish _ _ _
  · rfl

theorem sent_withFinishReason (s : Conversion) (choice : Choice) :
    (s.withFinishReason choice).sent = s.sent := by
  unfold Conversion.withFinishReason
  split <;> rfl

/-- Text and thinking are sent wherever their block is. -/
theorem add_textual (h : Textual last block delta) (sent : Sent) (index : ℤ) :
    (sent.add (.contentBlockStart index block)).add (.contentBlockDelta index delta) =
      sent.add (.contentBlockDelta 0 delta) := by
  cases h <;> rfl

theorem sent_laterDelta (h : Textual last block delta) (s : Conversion) :
    (s.laterDelta last block delta).sent = s.sent.add (.contentBlockDelta 0 delta) := by
  unfold Conversion.laterDelta
  dsimp only
  split
  · rw [sent_emit]
    show (Conversion.sent (s.stopOpenBlocksAndAdvance.emit _)).add _ = _
    rw [sent_emit, sent_advance]
    exact add_textual h s.sent _
  · rw [sent_emit]
    cases h <;> rfl

theorem sent_firstBlock (h : Textual last block delta) (s : Conversion) :
    (s.firstBlock last block delta).sent = s.sent.add (.contentBlockDelta 0 delta) := by
  unfold Conversion.firstBlock
  dsimp only
  show (Conversion.sent ((Conversion.emit _ _).emit _)) = _
  rw [sent_emit, sent_emit]
  split
  · rw [sent_advance]
    exact add_textual h s.sent _
  · exact add_textual h s.sent _

theorem sent_toolFragment (s : Conversion) (i : ℕ) (toolCall : ToolCallResponse) :
    (s.toolFragment i toolCall).sent =
      { s.sent with
        tools :=
          sendFragment s.sent.tools s.toolCallBaseIndex (toolCall.index.getD i) toolCall } := by
  unfold Conversion.toolFragment sendFragment
  dsimp only
  by_cases hname : toolCall.name = ""
  · rw [if_neg (not_not_intro hname), if_neg (not_not_intro hname)]
    by_cases harguments : toolCall.arguments = ""
    · rw [if_neg (not_not_intro harguments), if_neg (not_not_intro harguments)]
      rfl
    · rw [if_pos harguments, if_pos harguments]
      exact sent_emit _ _
  · rw [if_pos hname, if_pos hname]
    by_cases harguments : toolCall.arguments = ""
    · rw [if_neg (not_not_intro harguments), if_neg (not_not_intro harguments)]
      exact sent_emit _ _
    · rw [if_pos harguments, if_pos harguments, sent_emit, sent_emit]
      rfl

/-- The fragments of a chunk, one after the other. -/
theorem matches_toolFragments {calls : List ToolCall} (toolCalls : List ToolCallResponse) (i : ℕ)
    (h : Matches s.sent.tools calls)
    (hdelivered : FragmentsDelivered s.toolCallBaseIndex calls s.sent.tools i toolCalls) :
    Matches (s.toolFragments i toolCalls).sent.tools (receiveFragments calls i toolCalls) ∧
      (s.toolFragments i toolCalls).sent.text = s.sent.text ∧
      (s.toolFragments i toolCalls).sent.thinking = s.sent.thinking := by
  induction toolCalls generalizing s i calls with
  | nil => exact ⟨h, rfl, rfl⟩
  | cons toolCall toolCalls ih =>
    obtain ⟨hfirst, hrest⟩ := hdelivered
    have hsent := sent_toolFragment s i toolCall
    have hbase := (toolFragment_frame s i toolCall).2.1
    have hstep := h.step hfirst
    obtain ⟨hmatches, htext, hthinking⟩ :=
      ih (s := s.toolFragment i toolCall) (i := i + 1) (by rw [hsent]; exact hstep)
        (by rw [hsent, hbase]; exact hrest)
    rw [hsent] at htext hthinking
    exact ⟨hmatches, htext, hthinking⟩

theorem enterTools_frame (s : Conversion) :
    s.enterTools.sent = s.sent ∧ s.enterTools.toolCallBaseIndex = s.toolBase := by
  unfold Conversion.enterTools
  by_cases hlast : s.lastMessagesType = .tools
  · rw [if_neg (not_not_intro hlast)]
    unfold Conversion.toolBase
    rw [hlast]
    exact ⟨rfl, rfl⟩
  · rw [if_pos hlast]
    refine ⟨sent_advance s, ?_⟩
    show s.stopOpenBlocksAndAdvance.index = _
    unfold Conversion.stopOpenBlocksAndAdvance Conversion.toolBase
    cases hlast' : s.lastMessagesType with
    | tools => exact absurd hlast' hlast
    | none => rfl
    | text => rfl
    | thinking => rfl

theorem matches_laterToolCalls {calls : List ToolCall} {toolCalls : List ToolCallResponse}
    (h : Matches s.sent.tools calls)
    (hdelivered : FragmentsDelivered s.toolBase calls s.sent.tools 0 toolCalls) :
    Matches (s.laterToolCalls toolCalls).sent.tools (receiveFragments calls 0 toolCalls) ∧
      (s.laterToolCalls toolCalls).sent.text = s.sent.text ∧
      (s.laterToolCalls toolCalls).sent.thinking = s.sent.thinking := by
  have henter := enterTools_frame s
  rw [laterToolCalls_eq]
  show Matches (s.enterTools.toolFragments 0 toolCalls).sent.tools _ ∧
    (s.enterTools.toolFragments 0 toolCalls).sent.text = _ ∧
    (s.enterTools.toolFragments 0 toolCalls).sent.thinking = _
  rw [← henter.1]
  refine matches_toolFragments toolCalls 0 ?_ ?_
  · rwa [henter.1]
  · rwa [henter.1, henter.2]

/-- The thinking of a delta, or else its text. -/
def Sent.stream (sent : Sent) (delta : ChunkDelta) : Sent :=
  { sent with
    text := sent.text ++
      if delta.getReasoningContent = "" then delta.getContentString else ""
    thinking := sent.thinking ++ delta.getReasoningContent }

theorem sent_firstTools (s : Conversion) (chunk : Chunk) (choice : Choice) :
    (s.firstTools chunk choice).sent =
      { s.sent with
        tools := s.sent.tools ++ (choice.delta.toolCalls.take 1).map fun toolCall =>
          ⟨0, toolCall.id, toolCall.name, toolCall.arguments⟩ } := by
  have hstart : (s.emit (.messageStart chunk.id chunk.model s.estimatePromptTokens)).sent =
      s.sent := sent_emit _ _
  unfold Conversion.firstTools
  cases htools : choice.delta.toolCalls with
  | nil =>
    refine hstart.trans ?_
    simp
  | cons toolCall toolCalls =>
    have hopen : ∀ s' : Conversion, s'.sent = s.sent →
        (s'.firstToolCall toolCall).sent =
          { s.sent with
            tools := s.sent.tools ++ [⟨0, toolCall.id, toolCall.name, toolCall.arguments⟩] } := by
      intro s' hs'
      unfold Conversion.firstToolCall
      dsimp only
      by_cases harguments : toolCall.arguments = ""
      · rw [if_neg (not_not_intro harguments), sent_emit, harguments]
        show Sent.add s'.sent _ = _
        rw [hs']
        rfl
      · rw [if_pos harguments, sent_emit, sent_emit]
        show (Sent.add s'.sent _).add _ = _
        rw [hs']
        exact congrArg (Sent.mk s.sent.text s.sent.thinking) (addArguments_concat _ _ _ _ _)
    exact hopen _ hstart

theorem sent_firstDelta (s : Conversion) (chunk : Chunk) (choice : Choice) :
    (s.firstDelta chunk choice).sent = (s.firstTools chunk choice).sent.stream choice.delta := by
  unfold Conversion.firstDelta Sent.stream
  dsimp only
  by_cases hreasoning : choice.delta.getReasoningContent = ""
  · rw [if_neg (not_not_intro hreasoning), if_pos hreasoning, hreasoning, String.append_empty]
    by_cases hcontent : choice.delta.getContentString = ""
    · rw [if_neg (not_not_intro hcontent), hcontent, String.append_empty]
    · rw [if_pos hcontent]
      exact sent_firstBlock (.text _) _
  · rw [if_pos hreasoning, if_neg hreasoning, String.append_empty]
    exact sent_firstBlock (.thinking _) _

theorem sent_laterDeltas {delta : ChunkDelta} (htools : delta.toolCalls = []) (s : Conversion) :
    (s.laterDeltas delta).sent = s.sent.stream delta := by
  unfold Conversion.laterDeltas Sent.stream
  rw [if_neg (not_not_intro htools)]
  by_cases hreasoning : delta.getReasoningContent = ""
  · rw [if_neg (not_not_intro hreasoning), if_pos hreasoning, hreasoning, String.append_empty]
    by_cases hcontent : delta.getContentString = ""
    · rw [if_neg (not_not_intro hcontent), hcontent, String.append_empty]
    · rw [if_pos hcontent]
      exact sent_laterDelta (.text _) _
  · rw [if_pos hreasoning, if_neg hreasoning, String.append_empty]
    exact sent_laterDelta (.thinking _) _

/-! ## Step by step -/

section Step

variable {received : Received} {chunk : Chunk} {choice : Choice}

theorem chunks_streamResponse (s : Conversion) (chunk : Chunk) :
    (s.streamResponseOpenAI2Claude chunk).chunks = s.chunks := by
  unfold Conversion.streamResponseOpenAI2Claude
  split
  · rfl
  · split
    · obtain ⟨done, hkept⟩ := kept_firstChunk s chunk
      exact congrArg Kept.chunks hkept
    · obtain ⟨done, hkept⟩ := kept_laterChunk s chunk
      exact congrArg Kept.chunks hkept

theorem Received.add_none (h : chunk.choice = none) : received.add chunk = received := by
  unfold Received.add
  rw [h]

theorem Received.add_some (h : chunk.choice = some choice) :
    received.add chunk =
      ⟨received.content ++ choice.delta.getContentString,
        received.reasoning ++ choice.delta.getReasoningContent,
        receiveFragments received.calls 0 choice.delta.toolCalls⟩ := by
  unfold Received.add
  rw [h]

/-- Nothing is sent of a chunk that brings nothing. -/
theorem Agrees.passedOver {sent : Sent} (h : Agrees sent received)
    (hchoice : chunk.choice = some choice)
    (hcontent : choice.delta.getContentString = "")
    (hreasoning : choice.delta.getReasoningContent = "")
    (hcalls : (receiveFragments received.calls 0 choice.delta.toolCalls).map ToolCall.said =
      received.calls.map ToolCall.said) : Agrees sent (received.add chunk) := by
  rw [Received.add_some hchoice, hcontent, hreasoning, String.append_empty, String.append_empty]
  exact ⟨h.text, h.thinking, h.tools.trans hcalls.symm, h.single⟩

/-- The text and the thinking of a delta, of which only one is there. -/
theorem stream_eq {delta : ChunkDelta} (sent : Sent)
    (h : delta.getReasoningContent ≠ "" → delta.getContentString = "") :
    sent.stream delta =
      ⟨sent.text ++ delta.getContentString, sent.thinking ++ delta.getReasoningContent,
        sent.tools⟩ := by
  unfold Sent.stream
  by_cases hreasoning : delta.getReasoningContent = ""
  · rw [if_pos hreasoning]
  · rw [if_neg hreasoning, h hreasoning]

theorem agrees_firstChunk (h : Agrees s.sent received) (hchoice : chunk.choice = some choice)
    (honly : choice.delta.getReasoningContent ≠ "" → choice.delta.getContentString = "")
    (hcalls : (receiveFragments received.calls 0 choice.delta.toolCalls).map ToolCall.said =
      received.calls.map ToolCall.said ++
        (choice.delta.toolCalls.take 1).map ToolCallResponse.said)
    (hfresh : choice.delta.toolCalls ≠ [] → 0 ∉ s.sent.tools.map ToolBlock.index) :
    Agrees (s.firstChunk chunk).sent (received.add chunk) := by
  have hsent : (s.firstChunk chunk).sent =
      (s.firstTools chunk choice).sent.stream choice.delta := by
    rw [firstChunk_some hchoice, sent_finishIf, sent_withFinishReason, sent_firstDelta]
  rw [hsent, stream_eq _ honly, sent_firstTools, Received.add_some hchoice]
  have hmatches : Matches
      (s.sent.tools ++ (choice.delta.toolCalls.take 1).map fun toolCall =>
        ⟨0, toolCall.id, toolCall.name, toolCall.arguments⟩)
      (receiveFragments received.calls 0 choice.delta.toolCalls) := by
    have hbefore : Matches s.sent.tools received.calls := ⟨h.tools, h.single⟩
    cases htools : choice.delta.toolCalls with
    | nil =>
      simp only [List.take_nil, List.map_nil, List.append_nil]
      exact hbefore
    | cons toolCall toolCalls =>
      rw [htools] at hcalls hfresh
      exact hbefore.concat (hfresh (by simp)) hcalls
  exact ⟨congrArg (· ++ _) h.text, congrArg (· ++ _) h.thinking, hmatches.said, hmatches.single⟩

theorem agrees_laterDeltas (h : Agrees s.sent received) (hchoice : chunk.choice = some choice)
    (hdelivers : if choice.delta.toolCalls ≠ [] then
        choice.delta.getContentString = "" ∧ choice.delta.getReasoningContent = "" ∧
          FragmentsDelivered s.toolBase received.calls s.sent.tools 0 choice.delta.toolCalls
      else choice.delta.getReasoningContent ≠ "" → choice.delta.getContentString = "") :
    Agrees (s.laterDeltas choice.delta).sent (received.add chunk) := by
  rw [Received.add_some hchoice]
  by_cases htools : choice.delta.toolCalls = []
  · rw [if_neg (not_not_intro htools)] at hdelivers
    rw [sent_laterDeltas htools, stream_eq _ hdelivers, htools]
    exact ⟨congrArg (· ++ _) h.text, congrArg (· ++ _) h.thinking, h.tools, h.single⟩
  · rw [if_pos htools] at hdelivers
    obtain ⟨hcontent, hreasoning, hfragments⟩ := hdelivers
    have hlater : s.laterDeltas choice.delta = s.laterToolCalls choice.delta.toolCalls :=
      if_pos htools
    obtain ⟨hmatches, htext, hthinking⟩ :=
      matches_laterToolCalls ⟨h.tools, h.single⟩ hfragments
    rw [hlater, hcontent, hreasoning, String.append_empty, String.append_empty]
    exact ⟨htext.trans h.text, hthinking.trans h.thinking, hmatches.said, hmatches.single⟩

theorem sent_of_choice_none (s : Conversion) (hchoice : chunk.choice = none) :
    (s.streamResponseOpenAI2Claude chunk).sent = s.sent := by
  unfold Conversion.streamResponseOpenAI2Claude
  split
  · rfl
  · split
    · rw [firstChunk_none hchoice]
      exact sent_emit _ _
    · unfold Conversion.laterChunk
      rw [hchoice]
      dsimp only
      split
      · exact sent_finish _ _ _
      · rfl

/-- One chunk, which is handled in the state `r`. -/
theorem agrees_streamResponse {s r : Conversion} {first : Prop} [Decidable first]
    (h : Delivered s) (hdelivers : s.DeliversChunk first chunk) (hsent : r.sent = s.sent)
    (hdone : r.done = s.done) (hbase : r.toolBase = s.toolBase)
    (hfirst : r.sendResponseCount = 1 ↔ first) :
    Agrees (r.streamResponseOpenAI2Claude chunk).sent (s.received.add chunk) := by
  have hbefore : Agrees r.sent s.received := by
    rw [hsent]
    exact h
  cases hchoice : chunk.choice with
  | none =>
    rw [sent_of_choice_none r hchoice, Received.add_none hchoice]
    exact hbefore
  | some choice =>
    have hthis := hdelivers
    unfold Conversion.DeliversChunk at hthis
    rw [hchoice] at hthis
    dsimp only at hthis
    unfold Conversion.streamResponseOpenAI2Claude
    rw [hdone]
    by_cases hend : s.done = true
    · rw [if_pos hend] at hthis ⊢
      exact hbefore.passedOver hchoice hthis.1 hthis.2.1 hthis.2.2
    · rw [if_neg hend] at hthis ⊢
      by_cases hone : first
      · rw [if_pos hone] at hthis
        rw [if_pos (hfirst.2 hone)]
        exact agrees_firstChunk hbefore hchoice hthis.1 hthis.2.1 (by rw [hsent]; exact hthis.2.2)
      · rw [if_neg hone] at hthis
        rw [if_neg fun hcount => hone (hfirst.1 hcount), laterChunk_some hchoice]
        by_cases hput : choice.done ∧ chunk.usage = none
        · rw [if_pos hput] at hthis ⊢
          rw [sent_withFinishReason]
          exact hbefore.passedOver hchoice hthis.1 hthis.2.1 hthis.2.2
        · rw [if_neg hput] at hthis ⊢
          have hfinish : (r.withFinishReason choice).sent = s.sent :=
            (sent_withFinishReason r choice).trans hsent
          have htoolBase : (r.withFinishReason choice).toolBase = s.toolBase := by
            rw [← hbase]
            unfold Conversion.withFinishReason
            split <;> rfl
          rw [sent_finishIf]
          refine agrees_laterDeltas ?_ hchoice ?_
          · rw [hfinish]
            exact h
          · rw [hfinish, htoolBase]
            exact hthis

theorem received_concat (s : Conversion) {r : Conversion} (h : r.chunks = s.chunks ++ [chunk]) :
    r.received = s.received.add chunk := by
  unfold Conversion.received
  rw [h]
  exact List.foldl_append

/-- **One step** of a handler delivers what its chunk brings. -/
theorem delivered_handle {h : Handling} (hbefore : Delivered s) (hdelivers : Delivers s h) :
    Delivered (s.handle h) := by
  cases h with
  | handleStreamFormat chunk =>
    have hreceived : (s.handle (.handleStreamFormat chunk)).received = s.received.add chunk :=
      received_concat s (chunks_streamResponse _ _)
    unfold Delivered
    rw [hreceived]
    refine agrees_streamResponse hbefore hdelivers rfl rfl rfl ?_
    show s.sendResponseCount + 1 = 1 ↔ s.sendResponseCount = 0
    omega
  | setUsage usage => exact hbefore
  | handleFinalResponse chunk usage =>
    have hreceived : (s.handle (.handleFinalResponse chunk usage)).received =
        s.received.add chunk := received_concat s (chunks_streamResponse _ _)
    unfold Delivered
    rw [hreceived]
    exact agrees_streamResponse (r := s.receive (.handleFinalResponse chunk usage)) hbefore
      hdelivers rfl rfl rfl Iff.rfl

end Step

/-- **Every run** whose chunks are delivered one by one has delivered, in every state, all
that it has received. -/
theorem delivered_of_everyStep (estimatePromptTokens : ℤ) (handlings : List Handling)
    (h : conversion.EveryStep Delivers (.start estimatePromptTokens) handlings) :
    conversion.EveryState Delivered (.start estimatePromptTokens) handlings := by
  refine conversion.everyState_of_everyStep ?_ ?_ h
  · intro s a t hbefore hdelivers hstep
    cases hstep
    exact delivered_handle hbefore hdelivers
  · exact ⟨rfl, rfl, rfl, List.nodup_nil⟩

/-- A text, and then a tool call in two fragments. -/
theorem delivered_text_and_tool :
    conversion.EveryState Delivered (.start 3)
      (StreamHandler.oaiStreamHandler.handlings
        [⟨"c", "m", some ⟨⟨some "Hi", none, none, []⟩, none⟩, none⟩,
          ⟨"c", "m", some ⟨⟨none, none, none, [⟨some 0, "t", "f", "\x7b"⟩]⟩, none⟩, none⟩,
          ⟨"c", "m", some ⟨⟨none, none, none, [⟨some 0, "", "", "\x7d"⟩]⟩, none⟩, none⟩]
        ⟨"c", "m", some ⟨⟨none, none, none, []⟩, some "tool_calls"⟩, none⟩ ⟨3, 1, 0, 0, 0, 0⟩) := by
  refine delivered_of_everyStep 3 _ ?_
  rintro t ⟨⟩
  refine ⟨by decide, ?_⟩
  rintro t ⟨⟩
  refine ⟨by decide, ?_⟩
  rintro t ⟨⟩
  refine ⟨by decide, ?_⟩
  rintro t ⟨⟩
  exact ⟨by decide, trivial⟩

/-- `finish_reason` without usage puts the closing off, and the content beside it is lost. -/
theorem content_beside_finish_reason_lost :
    ¬ Delivered (StreamHandler.oaiStreamHandler.converted 3
      [⟨"c", "m", some ⟨⟨some "", none, none, []⟩, none⟩, none⟩,
        ⟨"c", "m", some ⟨⟨some "Hel", none, none, []⟩, none⟩, none⟩,
        ⟨"c", "m", some ⟨⟨some "lo", none, none, []⟩, some "stop"⟩, none⟩]
      ⟨"c", "m", none, some ⟨3, 1, 0, 0, 0, 0⟩⟩ ⟨3, 1, 0, 0, 0, 0⟩) := by
  intro h
  exact absurd h.text (by decide)

end Convert
