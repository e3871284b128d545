import GMasterApi.Convert.OpenAIStream

/-!
# When the converted stream is well-formed

The blocks of the stream that is sent follow what the conversion remembers (`Open`), as long
as every chunk is `Orderly`; a chunk that is not sends an event that may not come.
-/

namespace Convert

open Transition

/-! ## What is asked of the chunks -/

/-- The tool blocks that have been opened after a fragment, if `n` were before. -/
def ToolCallResponse.begunAfter (toolCall : ToolCallResponse) (n : ℕ) : ℕ :=
  if toolCall.name ≠ "" then n + 1 else n

/-- A fragment with a name is for the next block, and one with arguments for one that has
been opened; it is the `i`th of its chunk. -/
def ToolCallResponse.InOrder (toolCall : ToolCallResponse) (n i : ℕ) : Prop :=
  (toolCall.name ≠ "" → toolCall.index.getD i = n) ∧
    (toolCall.arguments ≠ "" →
      0 ≤ toolCall.index.getD i ∧ toolCall.index.getD i < toolCall.begunAfter n)

instance (toolCall : ToolCallResponse) (n i : ℕ) : Decidable (toolCall.InOrder n i) :=
  inferInstanceAs (Decidable (_ ∧ _))

/-- The tool blocks that have been opened after the fragments of a chunk; `none` where one
of them is out of order. -/
def orderedFragments (n : ℕ) : ℕ → List ToolCallResponse → Option ℕ
  | _, [] => some n
  | i, toolCall :: toolCalls =>
    if toolCall.InOrder n i then orderedFragments (toolCall.begunAfter n) (i + 1) toolCalls
    else none

/-- The largest index of a tool call, if it was `m` before the fragments. -/
def maxOffset : ℤ → ℕ → List ToolCallResponse → ℤ
  | m, _, [] => m
  | m, i, toolCall :: toolCalls => maxOffset (max m (toolCall.index.getD i)) (i + 1) toolCalls

/-- The tool blocks that have been opened since the last text or thinking. -/
def Conversion.toolsBegun (s : Conversion) : ℕ :=
  if s.lastMessagesType = .tools then (begun s.events - s.toolCallBaseIndex).toNat else 0

/-- The largest index of a tool call since then. -/
def Conversion.toolsMax (s : Conversion) : ℤ :=
  if s.lastMessagesType = .tools then s.toolCallMaxIndexOffset else 0

/-- All the tool calls up to the largest index have been opened. -/
def Conversion.Gapless (s : Conversion) : Prop :=
  s.lastMessagesType = .tools → (s.toolsBegun : ℤ) = s.toolsMax + 1

/-- A chunk with a `finish_reason` and without usage, which is passed over. -/
def Chunk.putOff (chunk : Chunk) (choice : Choice) : Prop := choice.done = true ∧ chunk.usage = none

/-- The delta of a later chunk: its tool calls are opened in the order of their indexes, all of
them before the message ends, and all that came before when text or thinking follows. -/
def Conversion.OrderlyDelta (s : Conversion) (choice : Choice) : Prop :=
  if choice.delta.toolCalls ≠ [] then
    ∃ n, orderedFragments s.toolsBegun 0 choice.delta.toolCalls = some n ∧
      (choice.done = true → (n : ℤ) = maxOffset s.toolsMax 0 choice.delta.toolCalls + 1)
  else
    choice.delta.getReasoningContent ≠ "" ∨ choice.delta.getContentString ≠ "" ∨
      choice.done = true → s.Gapless

/-- A later chunk. -/
def Conversion.OrderlyLater (s : Conversion) (chunk : Chunk) : Prop :=
  match chunk.choice with
  | none => chunk.usage.or s.usage ≠ none → s.Gapless
  | some choice => ¬ chunk.putOff choice → s.OrderlyDelta choice

/-- The condition on a step: a first chunk that ends the message comes with usage; in later
ones tool calls are opened in the order of their indexes, all of them before text, thinking
or the end follow, and no arguments come before; and the last chunk is not one of the first
two where `HandleFinalResponse` gets it. -/
def Orderly (s : Conversion) : Handling → Prop
  | .handleStreamFormat chunk =>
    s.done = true ∨
      if s.sendResponseCount = 0 then
        ∀ choice, chunk.choice = some choice → choice.done = true → chunk.usage.or s.usage ≠ none
      else (s.receive (.handleStreamFormat chunk)).OrderlyLater chunk
  | .setUsage _ => True
  | .handleFinalResponse chunk usage =>
    s.done = true ∨ 2 ≤ s.sendResponseCount ∧
      (s.receive (.handleFinalResponse chunk usage)).OrderlyLater chunk

def ClosesLater (s : Conversion) (chunk : Chunk) : Prop :=
  match chunk.choice with
  | none => chunk.usage.or s.usage ≠ none
  | some choice => choice.done = true ∧ chunk.usage ≠ none

/-- The step ends the message: a first chunk with a `finish_reason`, a later one with it and
usage, or a chunk without a choice, once usage is known. -/
def Closes (s : Conversion) : Handling → Prop
  | .handleStreamFormat chunk =>
    s.done = false ∧
      if s.sendResponseCount = 0 then ∃ choice, chunk.choice = some choice ∧ choice.done = true
      else ClosesLater (s.receive (.handleStreamFormat chunk)) chunk
  | .setUsage _ => False
  | .handleFinalResponse chunk usage =>
    s.done = false ∧ ClosesLater (s.receive (.handleFinalResponse chunk usage)) chunk

/-! ## Blocks -/

variable {s t : Conversion} {bs closed : Blocks} {n k : ℕ} {type : BlockType}

theorem at_middle (l r : Blocks) (block : BlockType × Bool) :
    Blocks.at (l ++ block :: r) l.length = some block := by
  rw [at_natCast]
  simp

theorem at_length (bs : Blocks) : bs.at bs.length = none := by
  rw [at_natCast]
  simp

theorem close_middle (l r : Blocks) (block : BlockType × Bool) :
    Blocks.close (l ++ block :: r) l.length = l ++ (block.1, false) :: r := by
  unfold Blocks.close
  rw [Int.toNat_natCast]
  induction l with
  | nil => rfl
  | cons head l ih =>
    simp only [List.length_cons, List.cons_append, List.modify_succ_cons, List.cons.injEq, true_and]
    exact ih

theorem allClosed_append : Blocks.AllClosed (bs ++ closed) ↔ bs.AllClosed ∧ closed.AllClosed := by
  unfold Blocks.AllClosed
  exact List.forall_mem_append

theorem allClosed_replicate : Blocks.AllClosed (List.replicate n (type, false)) := by
  intro block hblock
  rw [(List.mem_replicate.mp hblock).2]

theorem allClosed_singleton : Blocks.AllClosed [(type, false)] := by
  intro block hblock
  rw [List.mem_singleton.mp hblock]

/-! ## Events that are sent -/

theorem stage_emit (s : Conversion) (event : Event) :
    stage (s.emit event).events = (stage s.events).bind fun at' => check at' event :=
  stage_concat _ _

def Event.startsMessage : Event → Bool
  | .messageStart _ _ _ => true
  | _ => false

/-- Events are added, none of them a `message_start`. -/
def Extends (s t : Conversion) : Prop :=
  ∃ events, t.events = s.events ++ events ∧ ∀ event ∈ events, event.startsMessage = false

theorem Extends.refl (s : Conversion) : Extends s s :=
  ⟨[], (List.append_nil _).symm, fun _ h => absurd h List.not_mem_nil⟩

theorem Extends.trans {u : Conversion} (h : Extends s t) (h' : Extends t u) : Extends s u := by
  obtain ⟨events, heq, hnone⟩ := h
  obtain ⟨events', heq', hnone'⟩ := h'
  refine ⟨events ++ events', ?_, List.forall_mem_append.mpr ⟨hnone, hnone'⟩⟩
  rw [heq', heq, List.append_assoc]

theorem extends_emit (s : Conversion) (event : Event) (h : event.startsMessage = false) :
    Extends s (s.emit event) :=
  ⟨[event], rfl, fun _ hevent => (List.mem_singleton.mp hevent) ▸ h⟩

/-- A stream that has gone wrong stays so. -/
theorem Extends.stage_eq_none (h : Extends s t) (hs : stage s.events = none) :
    stage t.events = none := by
  obtain ⟨events, hevents, -⟩ := h
  rw [hevents]
  exact stage_append_of_none hs events

/-- A message that has not begun does not begin. -/
theorem Extends.not_begun (h : Extends s t) (hs : stage s.events = some .before) :
    stage t.events = none ∨ stage t.events = some .before := by
  obtain ⟨events, hevents, hnone⟩ := h
  rw [hevents, stage_append, hs]
  cases events with
  | nil => exact .inr rfl
  | cons event events =>
    have hevent := hnone event List.mem_cons_self
    have hcheck : check .before event = none := by
      cases event with
      | messageStart id model inputTokens => cases hevent
      | _ => rfl
    left
    rw [Option.bind_some, List.foldlM_cons, hcheck]
    rfl

theorem extends_stopTools (base : ℤ) (n : ℕ) (s : Conversion) :
    Extends s (s.stopTools base n) := by
  induction n with
  | zero => exact .refl s
  | succ n ih => exact ih.trans (extends_emit _ _ rfl)

theorem extends_stopOpenBlocks (s : Conversion) : Extends s s.stopOpenBlocks := by
  unfold Conversion.stopOpenBlocks
  split
  · exact extends_emit _ _ rfl
  · exact extends_emit _ _ rfl
  · exact extends_stopTools _ _ _
  · exact .refl s

theorem events_stopOpenBlocksAndAdvance (s : Conversion) :
    s.stopOpenBlocksAndAdvance.events = s.stopOpenBlocks.events := by
  unfold Conversion.stopOpenBlocksAndAdvance
  split
  · rename_i hlast
    unfold Conversion.stopOpenBlocks
    rw [hlast]
  · rfl
  · rfl
  · rfl

theorem extends_stopOpenBlocksAndAdvance (s : Conversion) :
    Extends s s.stopOpenBlocksAndAdvance := by
  unfold Extends
  rw [events_stopOpenBlocksAndAdvance]
  exact extends_stopOpenBlocks s

theorem extends_finish (s : Conversion) (oaiUsage : Option OpenAIUsage) (stopReason : String) :
    Extends s (s.finish oaiUsage stopReason) := by
  unfold Conversion.finish
  cases oaiUsage with
  | none => exact (extends_stopOpenBlocks s).trans (extends_emit _ _ rfl)
  | some oaiUsage =>
    exact (extends_stopOpenBlocks s).trans ((extends_emit _ _ rfl).trans (extends_emit _ _ rfl))

theorem extends_toolFragment (s : Conversion) (i : ℕ) (toolCall : ToolCallResponse) :
    Extends s (s.toolFragment i toolCall) := by
  unfold Conversion.toolFragment
  dsimp only
  split
  · split
    · exact (extends_emit _ _ rfl).trans (extends_emit _ _ rfl)
    · exact extends_emit _ _ rfl
  · split
    · exact extends_emit _ _ rfl
    · exact .refl s

theorem extends_toolFragments (toolCalls : List ToolCallResponse) (i : ℕ) (s : Conversion) :
    Extends s (s.toolFragments i toolCalls) := by
  induction toolCalls generalizing i s with
  | nil => exact .refl s
  | cons toolCall toolCalls ih => exact (extends_toolFragment s i toolCall).trans (ih _ _)

theorem extends_laterToolCalls (s : Conversion) (toolCalls : List ToolCallResponse) :
    Extends s (s.laterToolCalls toolCalls) := by
  unfold Conversion.laterToolCalls
  dsimp only
  split
  · exact (extends_stopOpenBlocksAndAdvance s).trans (extends_toolFragments toolCalls 0 _)
  · exact extends_toolFragments toolCalls 0 { s with lastMessagesType := .tools }

section Blocks

variable (s : Conversion) (last : LastMessagesType)

theorem extends_firstToolCall (toolCall : ToolCallResponse) :
    Extends s (s.firstToolCall toolCall) := by
  unfold Conversion.firstToolCall
  dsimp only
  split
  · exact (extends_emit s _ rfl).trans (extends_emit _ _ rfl)
  · exact extends_emit s _ rfl

theorem extends_laterDelta (block : ContentBlock) (delta : Delta) :
    Extends s (s.laterDelta last block delta) := by
  unfold Conversion.laterDelta
  dsimp only
  split
  · exact (extends_stopOpenBlocksAndAdvance s).trans
      ((extends_emit _ _ rfl).trans (extends_emit _ _ rfl))
  · exact extends_emit s _ rfl

theorem extends_firstBlock (block : ContentBlock) (delta : Delta) :
    Extends s (s.firstBlock last block delta) := by
  unfold Conversion.firstBlock
  dsimp only
  split
  · exact (extends_stopOpenBlocksAndAdvance s).trans
      ((extends_emit _ _ rfl).trans (extends_emit _ _ rfl))
  · exact (extends_emit s _ rfl).trans (extends_emit _ _ rfl)

theorem extends_laterDeltas (delta : ChunkDelta) : Extends s (s.laterDeltas delta) := by
  unfold Conversion.laterDeltas
  split
  · exact extends_laterToolCalls _ _
  · split
    · exact extends_laterDelta _ _ _ _
    · split
      · exact extends_laterDelta _ _ _ _
      · exact .refl s

theorem extends_withFinishReason (choice : Choice) : Extends s (s.withFinishReason choice) := by
  unfold Conversion.withFinishReason
  split
  · exact .refl s
  · exact .refl s

theorem extends_finishIf (chunk : Chunk) (choice : Choice) :
    Extends s (s.finishIf chunk choice) := by
  unfold Conversion.finishIf
  split
  · exact extends_finish _ _ _
  · exact .refl s

theorem extends_laterChunk (chunk : Chunk) : Extends s (s.laterChunk chunk) := by
  cases hchoice : chunk.choice with
  | none =>
    unfold Conversion.laterChunk
    rw [hchoice]
    dsimp only
    split
    · exact extends_finish _ _ _
    · exact .refl s
  | some choice =>
    rw [laterChunk_some hchoice]
    split
    · exact extends_withFinishReason s choice
    · exact (extends_withFinishReason s choice).trans
        ((extends_laterDeltas _ _).trans (extends_finishIf _ _ _))

/-- A first chunk starts a message. -/
theorem extends_firstChunk (chunk : Chunk) :
    Extends (s.emit (.messageStart chunk.id chunk.model s.estimatePromptTokens))
      (s.firstChunk chunk) := by
  cases hchoice : chunk.choice with
  | none =>
    rw [firstChunk_none hchoice]
    exact .refl _
  | some choice =>
    rw [firstChunk_some hchoice]
    have htools : Extends (s.emit (.messageStart chunk.id chunk.model s.estimatePromptTokens))
        (s.firstTools chunk choice) := by
      unfold Conversion.firstTools
      dsimp only
      split
      · exact .refl _
      · exact extends_firstToolCall _ _
    have hdelta : Extends (s.firstTools chunk choice) (s.firstDelta chunk choice) := by
      unfold Conversion.firstDelta
      dsimp only
      split
      · exact extends_firstBlock _ _ _ _
      · split
        · exact extends_firstBlock _ _ _ _
        · exact .refl _
    exact htools.trans (hdelta.trans
      ((extends_withFinishReason _ _).trans (extends_finishIf _ _ _)))

end Blocks

/-! ## Blocks that are open -/

/-- How the blocks of the stream stand to the last type of message, the index, and the base
and the largest offset of the tool calls. -/
inductive Open (last : LastMessagesType) (index base maxOffset : ℤ) (bs : Blocks) : Prop
  | none : last = .none → bs.AllClosed → index = bs.length → Open last index base maxOffset bs
  | text {closed : Blocks} : last = .text → bs = closed ++ [(.text, true)] → closed.AllClosed →
      index = closed.length → Open last index base maxOffset bs
  | thinking {closed : Blocks} : last = .thinking → bs = closed ++ [(.thinking, true)] →
      closed.AllClosed → index = closed.length → Open last index base maxOffset bs
  | tools {closed : Blocks} {k : ℕ} : last = .tools →
      bs = closed ++ List.replicate k (.toolUse, true) → closed.AllClosed →
      base = closed.length → 0 ≤ maxOffset → k ≤ maxOffset + 1 → index = base + maxOffset →
      Open last index base maxOffset bs

/-- The message has begun and not ended, with these blocks. -/
structure Conversion.Streams (s : Conversion) (bs : Blocks) : Prop where
  stage : Convert.stage s.events = some (.content bs)
  isOpen : Open s.lastMessagesType s.index s.toolCallBaseIndex s.toolCallMaxIndexOffset bs

theorem toolsBegun_of_tools (hstage : stage s.events = some (.content bs))
    (hlast : s.lastMessagesType = .tools)
    (hbs : bs = closed ++ List.replicate k (.toolUse, true))
    (hbase : s.toolCallBaseIndex = closed.length) : s.toolsBegun = k := by
  have hlength := length_eq_begun hstage
  rw [hbs, List.length_append, List.length_replicate] at hlength
  unfold Conversion.toolsBegun
  rw [if_pos hlast, hbase]
  omega

theorem stage_emit_stop {l r : Blocks} {index : ℤ}
    (hstage : stage s.events = some (.content (l ++ (type, true) :: r)))
    (hindex : index = l.length) :
    stage (s.emit (.contentBlockStop index)).events =
      some (.content (l ++ (type, false) :: r)) := by
  rw [stage_emit, hstage, hindex]
  simp only [Option.bind_some, check]
  rw [at_middle, close_middle]

/-- The stops of tool blocks, as long as there are any. -/
theorem stage_stopTools {base : ℤ} (hstage : stage s.events =
      some (.content (closed ++ List.replicate k (.toolUse, true))))
    (hbase : base = closed.length) (hn : n ≤ k) :
    stage (s.stopTools base n).events = some (.content
      ((closed ++ List.replicate n (.toolUse, false)) ++
        List.replicate (k - n) (.toolUse, true))) := by
  induction n with
  | zero =>
    show stage s.events = _
    rw [hstage]
    simp
  | succ n ih =>
    have ih := ih (by omega)
    obtain ⟨j, hj⟩ : ∃ j, k - n = j + 1 := ⟨k - (n + 1), by omega⟩
    rw [hj, List.replicate_succ] at ih
    show stage ((s.stopTools base n).emit (.contentBlockStop (base + n))).events = _
    rw [stage_emit_stop ih (by rw [hbase]; simp)]
    have hj' : k - (n + 1) = j := by omega
    rw [hj', List.replicate_succ']
    simp

/-- A stop without a block. -/
theorem stage_stopTools_of_lt {base : ℤ} (hstage : stage s.events =
      some (.content (closed ++ List.replicate k (.toolUse, true))))
    (hbase : base = closed.length) (hn : k < n) :
    stage (s.stopTools base n).events = none := by
  induction n with
  | zero => omega
  | succ n ih =>
    show stage ((s.stopTools base n).emit (.contentBlockStop (base + n))).events = none
    by_cases hlt : k < n
    · exact (extends_emit _ _ rfl).stage_eq_none (ih hlt)
    · obtain rfl : n = k := by omega
      rw [stage_emit, stage_stopTools hstage hbase (Nat.le_refl _)]
      simp only [Option.bind_some, check, Nat.sub_self, List.replicate_zero, List.append_nil]
      have hlength : base + n =
          (closed ++ List.replicate n (BlockType.toolUse, false)).length := by
        rw [hbase]
        simp
      rw [hlength, at_length]

theorem stage_stopOpenBlocks (h : s.Streams bs) (hgapless : s.Gapless) :
    ∃ bs', stage s.stopOpenBlocks.events = some (.content bs') ∧ bs'.AllClosed ∧
      bs'.length = bs.length := by
  obtain ⟨hstage, hopen⟩ := h
  unfold Conversion.stopOpenBlocks
  cases hopen with
  | none hlast hclosed hindex =>
    rw [hlast]
    exact ⟨bs, hstage, hclosed, rfl⟩
  | text hlast hbs hclosed hindex =>
    rw [hlast]
    subst hbs
    exact ⟨_, stage_emit_stop hstage hindex,
      allClosed_append.mpr ⟨hclosed, allClosed_singleton⟩, by simp⟩
  | thinking hlast hbs hclosed hindex =>
    rw [hlast]
    subst hbs
    exact ⟨_, stage_emit_stop hstage hindex,
      allClosed_append.mpr ⟨hclosed, allClosed_singleton⟩, by simp⟩
  | @tools closed k hlast hbs hclosed hbase hmax hk hindex =>
    have hbegun := hgapless hlast
    rw [toolsBegun_of_tools hstage hlast hbs hbase] at hbegun
    unfold Conversion.toolsMax at hbegun
    rw [if_pos hlast] at hbegun
    rw [hlast]
    have hn : (s.toolCallMaxIndexOffset + 1).toNat = k := by omega
    rw [hn]
    rw [hbs] at hstage
    refine ⟨_, stage_stopTools hstage hbase (Nat.le_refl _), ?_, ?_⟩
    · simp only [Nat.sub_self, List.replicate_zero, List.append_nil]
      exact allClosed_append.mpr ⟨hclosed, allClosed_replicate⟩
    · rw [hbs]
      simp

theorem stage_stopOpenBlocks_of_gap (h : s.Streams bs) (hgap : ¬ s.Gapless) :
    stage s.stopOpenBlocks.events = none := by
  obtain ⟨hstage, hopen⟩ := h
  unfold Conversion.Gapless at hgap
  rw [Classical.not_imp] at hgap
  obtain ⟨hlast, hne⟩ := hgap
  cases hopen with
  | @tools closed k _ hbs hclosed hbase hmax hk hindex =>
    rw [toolsBegun_of_tools hstage hlast hbs hbase] at hne
    unfold Conversion.toolsMax at hne
    rw [if_pos hlast] at hne
    unfold Conversion.stopOpenBlocks
    rw [hlast]
    rw [hbs] at hstage
    exact stage_stopTools_of_lt hstage hbase (by omega)
  | none hlast' => rw [hlast'] at hlast; cases hlast
  | text hlast' => rw [hlast'] at hlast; cases hlast
  | thinking hlast' => rw [hlast'] at hlast; cases hlast

theorem lastMessagesType_advance (s : Conversion) :
    s.stopOpenBlocksAndAdvance.lastMessagesType = .none := by
  unfold Conversion.stopOpenBlocksAndAdvance
  split
  · assumption
  · rfl
  · rfl
  · rfl

/-- The blocks are closed, and the index is the next. -/
theorem streams_advance (h : s.Streams bs) (hgapless : s.Gapless) :
    ∃ bs', s.stopOpenBlocksAndAdvance.Streams bs' ∧ bs'.AllClosed ∧
      s.stopOpenBlocksAndAdvance.index = bs'.length := by
  obtain ⟨bs', hstage, hclosed', hlength⟩ := stage_stopOpenBlocks h hgapless
  have hindex : s.stopOpenBlocksAndAdvance.index = bs'.length := by
    rw [hlength]
    unfold Conversion.stopOpenBlocksAndAdvance
    cases h.isOpen with
    | none hlast hclosed hindex =>
      rw [hlast]
      exact hindex
    | text hlast hbs hclosed hindex =>
      rw [hlast, hbs]
      simp [hindex]
    | thinking hlast hbs hclosed hindex =>
      rw [hlast, hbs]
      simp [hindex]
    | @tools closed k hlast hbs hclosed hbase hmax hk hindex =>
      have hbegun := hgapless hlast
      rw [toolsBegun_of_tools h.stage hlast hbs hbase] at hbegun
      unfold Conversion.toolsMax at hbegun
      rw [if_pos hlast] at hbegun
      rw [hlast, hbs]
      dsimp only
      rw [List.length_append, List.length_replicate]
      omega
  refine ⟨bs', ⟨?_, .none (lastMessagesType_advance s) hclosed' hindex⟩, hclosed', hindex⟩
  rw [events_stopOpenBlocksAndAdvance]
  exact hstage

theorem stage_advance_of_gap (h : s.Streams bs) (hgap : ¬ s.Gapless) :
    stage s.stopOpenBlocksAndAdvance.events = none := by
  rw [events_stopOpenBlocksAndAdvance]
  exact stage_stopOpenBlocks_of_gap h hgap

theorem gapless_of_ne (h : s.lastMessagesType ≠ .tools) : s.Gapless := fun hlast => absurd hlast h

/-! ## The end of a message -/

variable {oaiUsage : Option OpenAIUsage} {stopReason : String}

theorem stage_finish (h : s.Streams bs) (hgapless : s.Gapless) (husage : oaiUsage ≠ none) :
    stage (s.finish oaiUsage stopReason).events = some .stopped := by
  obtain ⟨bs', hstage, hclosed, -⟩ := stage_stopOpenBlocks h hgapless
  obtain ⟨usage, rfl⟩ := Option.ne_none_iff_exists'.mp husage
  show stage ((s.stopOpenBlocks.emit _).emit .messageStop).events = _
  rw [stage_emit, stage_emit, hstage]
  simp only [Option.bind_some, check]
  rw [if_pos hclosed]
  rfl

theorem stage_finish_of_gap (h : s.Streams bs) (hgap : ¬ s.Gapless) :
    stage (s.finish oaiUsage stopReason).events = none := by
  have hstop := stage_stopOpenBlocks_of_gap h hgap
  unfold Conversion.finish
  cases oaiUsage with
  | none => exact (extends_emit _ _ rfl).stage_eq_none hstop
  | some usage => exact ((extends_emit _ _ rfl).trans (extends_emit _ _ rfl)).stage_eq_none hstop

/-- Without usage there is no `message_delta` before the `message_stop`. -/
theorem stage_finish_of_no_usage (h : s.Streams bs) :
    stage (s.finish none stopReason).events = none := by
  by_cases hgapless : s.Gapless
  · obtain ⟨bs', hstage, -, -⟩ := stage_stopOpenBlocks h hgapless
    show stage (s.stopOpenBlocks.emit .messageStop).events = none
    rw [stage_emit, hstage]
    rfl
  · exact stage_finish_of_gap h hgapless

/-! ## Text and thinking -/

variable {last : LastMessagesType} {block : ContentBlock} {delta : Delta}

theorem Textual.ne_tools (h : Textual last block delta) : last ≠ .tools := by
  cases h <;> simp

/-- A new block at the next index. -/
theorem streams_open (h : Textual last block delta) (hstage : stage s.events = some (.content bs))
    (hclosed : bs.AllClosed) (hindex : s.index = bs.length) :
    Conversion.Streams { (s.emit (.contentBlockStart s.index block)).emit
        (.contentBlockDelta s.index delta) with lastMessagesType := last }
      (bs ++ [(block.type, true)]) := by
  constructor
  · show stage ((s.emit _).emit _).events = _
    rw [stage_emit, stage_emit, hstage, hindex]
    simp only [Option.bind_some, check, if_true]
    rw [at_middle]
    cases h with
    | text text => rfl
    | thinking thinking => rfl
  · cases h with
    | text text => exact .text rfl rfl hclosed hindex
    | thinking thinking => exact .thinking rfl rfl hclosed hindex

/-- A delta for the block that is open. -/
theorem streams_delta (h : Textual last block delta) (hs : s.Streams bs)
    (hlast : s.lastMessagesType = last) :
    (s.emit (.contentBlockDelta s.index delta)).Streams bs := by
  refine ⟨?_, hs.isOpen⟩
  rw [stage_emit, hs.stage]
  simp only [Option.bind_some, check]
  rw [if_pos]
  cases h with
  | text text =>
    cases hs.isOpen with
    | text _ hbs _ hindex => rw [hbs, hindex, at_middle]; rfl
    | none hlast' => rw [hlast'] at hlast; cases hlast
    | thinking hlast' => rw [hlast'] at hlast; cases hlast
    | tools hlast' => rw [hlast'] at hlast; cases hlast
  | thinking thinking =>
    cases hs.isOpen with
    | thinking _ hbs _ hindex => rw [hbs, hindex, at_middle]; rfl
    | none hlast' => rw [hlast'] at hlast; cases hlast
    | text hlast' => rw [hlast'] at hlast; cases hlast
    | tools hlast' => rw [hlast'] at hlast; cases hlast

theorem last_laterDelta : (s.laterDelta last block delta).lastMessagesType = last := by
  unfold Conversion.laterDelta
  rfl

theorem streams_laterDelta (h : Textual last block delta) (hs : s.Streams bs)
    (hgapless : s.Gapless) : ∃ bs', (s.laterDelta last block delta).Streams bs' := by
  unfold Conversion.laterDelta
  by_cases hlast : s.lastMessagesType = last
  · rw [if_neg (not_not.mpr hlast)]
    subst hlast
    exact ⟨bs, streams_delta h hs rfl⟩
  · rw [if_pos hlast]
    obtain ⟨bs', hs', hclosed, hindex⟩ := streams_advance hs hgapless
    exact ⟨_, streams_open h hs'.stage hclosed hindex⟩

theorem stage_laterDelta_of_gap (h : Textual last block delta) (hs : s.Streams bs)
    (hgap : ¬ s.Gapless) : stage (s.laterDelta last block delta).events = none := by
  unfold Conversion.laterDelta
  have hlast : s.lastMessagesType ≠ last := by
    rintro rfl
    exact hgap (gapless_of_ne h.ne_tools)
  rw [if_pos hlast]
  have hadvance := stage_advance_of_gap hs hgap
  exact ((extends_emit _ _ rfl).trans (extends_emit _ _ rfl)).stage_eq_none hadvance

theorem streams_firstBlock (h : Textual last block delta) (hs : s.Streams bs)
    (hgapless : s.Gapless) (hlast : s.lastMessagesType ≠ last) :
    ∃ bs', (s.firstBlock last block delta).Streams bs' := by
  unfold Conversion.firstBlock
  rw [if_pos hlast]
  obtain ⟨bs', hs', hclosed, hindex⟩ := streams_advance hs hgapless
  exact ⟨_, streams_open h hs'.stage hclosed hindex⟩

/-! ## Tool calls -/

theorem at_open (hclosed : closed.AllClosed) (offset : ℤ) :
    Blocks.at (closed ++ List.replicate n (.toolUse, true)) (closed.length + offset) =
      some (.toolUse, true) ↔ 0 ≤ offset ∧ offset < n := by
  unfold Blocks.at
  constructor
  · intro h
    split at h
    · rename_i hindex
      by_cases hoffset : 0 ≤ offset
      · refine ⟨hoffset, ?_⟩
        have hlt := (List.getElem?_eq_some_iff.mp h).1
        rw [List.length_append, List.length_replicate] at hlt
        omega
      · rw [List.getElem?_append_left (by omega)] at h
        have hopen := hclosed _ (List.mem_of_getElem? h)
        cases hopen
    · cases h
  · rintro ⟨hoffset, hlt⟩
    rw [if_pos (by omega), List.getElem?_append_right (by omega), List.getElem?_replicate]
    rw [if_pos (by omega)]

/-- The state while the fragments of a chunk are gone through, with `n` blocks opened. -/
structure Conversion.Tools (s : Conversion) (closed : Blocks) (n : ℕ) : Prop where
  stage : Convert.stage s.events =
    some (.content (closed ++ List.replicate n (.toolUse, true)))
  base : s.toolCallBaseIndex = closed.length
  max_nonneg : 0 ≤ s.toolCallMaxIndexOffset
  le_max : n ≤ s.toolCallMaxIndexOffset + 1

variable {toolCall : ToolCallResponse} {toolCalls : List ToolCallResponse} {i : ℕ}

theorem stage_toolFragment (s : Conversion) (i : ℕ) (toolCall : ToolCallResponse) :
    stage (s.toolFragment i toolCall).events =
      ((stage s.events).bind fun at' =>
        if toolCall.name ≠ "" then
          check at' (.contentBlockStart (s.toolCallBaseIndex + toolCall.index.getD i)
            (.toolUse toolCall.id toolCall.name))
        else some at').bind fun at' =>
        if toolCall.arguments ≠ "" then
          check at' (.contentBlockDelta (s.toolCallBaseIndex + toolCall.index.getD i)
            (.inputJsonDelta toolCall.arguments))
        else some at' := by
  unfold Conversion.toolFragment
  dsimp only
  by_cases hnamed : toolCall.name ≠ ""
  · by_cases hfilled : toolCall.arguments ≠ ""
    · simp only [hnamed, hfilled, ne_eq, not_false_eq_true, if_true, stage_emit]
    · simp only [hnamed, hfilled, ne_eq, not_false_eq_true, if_true, if_false, stage_emit,
        Option.bind_fun_some]
  · by_cases hfilled : toolCall.arguments ≠ ""
    · simp only [hnamed, hfilled, ne_eq, not_false_eq_true, if_true, if_false, stage_emit,
        Option.bind_fun_some]
    · simp only [hnamed, hfilled, if_false, Option.bind_fun_some]

theorem check_toolStart (hbase : s.toolCallBaseIndex = closed.length) (offset : ℤ)
    (id name : String) :
    check (.content (closed ++ List.replicate n (.toolUse, true)))
      (.contentBlockStart (s.toolCallBaseIndex + offset) (.toolUse id name)) =
      if offset = n then
        some (.content (closed ++ List.replicate (n + 1) (.toolUse, true)))
      else none := by
  simp only [check]
  rw [hbase, List.length_append, List.length_replicate]
  by_cases hoffset : offset = n
  · rw [if_pos hoffset, if_pos (by omega), List.replicate_succ', List.append_assoc]
    rfl
  · rw [if_neg hoffset, if_neg (by omega)]

theorem check_toolDelta (hclosed : closed.AllClosed) (hbase : s.toolCallBaseIndex = closed.length)
    (offset : ℤ) (partialJson : String) :
    check (.content (closed ++ List.replicate n (.toolUse, true)))
      (.contentBlockDelta (s.toolCallBaseIndex + offset) (.inputJsonDelta partialJson)) =
      if 0 ≤ offset ∧ offset < n then
        some (.content (closed ++ List.replicate n (.toolUse, true)))
      else none := by
  simp only [check]
  rw [hbase]
  have hat : Blocks.at (closed ++ List.replicate n (.toolUse, true)) (closed.length + offset) =
      some ((Delta.inputJsonDelta partialJson).type, true) ↔ 0 ≤ offset ∧ offset < n :=
    at_open hclosed offset
  by_cases hoffset : 0 ≤ offset ∧ offset < n
  · rw [if_pos hoffset, if_pos (hat.mpr hoffset)]
  · rw [if_neg hoffset, if_neg fun h => hoffset (hat.mp h)]

/-- One fragment: the stream goes on exactly if it is in order. -/
theorem stage_toolFragment_eq (hclosed : closed.AllClosed) (h : s.Tools closed n) :
    stage (s.toolFragment i toolCall).events =
      if toolCall.InOrder n i then
        some (.content (closed ++ List.replicate (toolCall.begunAfter n) (.toolUse, true)))
      else none := by
  rw [stage_toolFragment, h.stage, Option.bind_some]
  unfold ToolCallResponse.InOrder ToolCallResponse.begunAfter
  by_cases hnamed : toolCall.name ≠ ""
  · simp only [if_pos hnamed, check_toolStart h.base]
    by_cases hoffset : toolCall.index.getD i = n
    · rw [if_pos hoffset, Option.bind_some]
      by_cases hfilled : toolCall.arguments ≠ ""
      · rw [if_pos hfilled, check_toolDelta hclosed h.base, if_pos (by omega), if_pos]
        exact ⟨fun _ => hoffset, fun _ => by omega⟩
      · rw [if_neg hfilled, if_pos]
        exact ⟨fun _ => hoffset, fun hargs => absurd hargs hfilled⟩
    · rw [if_neg hoffset, if_neg fun hin => hoffset (hin.1 hnamed)]
      rfl
  · simp only [if_neg hnamed, Option.bind_some]
    by_cases hfilled : toolCall.arguments ≠ ""
    · rw [if_pos hfilled, check_toolDelta hclosed h.base]
      by_cases hoffset : 0 ≤ toolCall.index.getD i ∧ toolCall.index.getD i < (n : ℤ)
      · rw [if_pos hoffset, if_pos ⟨fun hname => absurd hname hnamed, fun _ => hoffset⟩]
      · rw [if_neg hoffset, if_neg fun hin => hoffset (hin.2 hfilled)]
    · rw [if_neg hfilled, if_pos]
      exact ⟨fun hname => absurd hname hnamed, fun hargs => absurd hargs hfilled⟩

theorem tools_toolFragment (hclosed : closed.AllClosed) (h : s.Tools closed n)
    (hin : toolCall.InOrder n i) :
    (s.toolFragment i toolCall).Tools closed (toolCall.begunAfter n) := by
  obtain ⟨-, hbase, hmax⟩ := toolFragment_frame s i toolCall
  refine ⟨?_, hbase.trans h.base, ?_, ?_⟩
  · rw [stage_toolFragment_eq hclosed h, if_pos hin]
  · have := h.max_nonneg
    rw [hmax]
    omega
  · have hle := h.le_max
    have hname := hin.1
    rw [hmax]
    unfold ToolCallResponse.begunAfter
    split
    · rename_i hnamed
      have := hname hnamed
      omega
    · omega

/-- **The fragments of a chunk**, in order. -/
theorem tools_toolFragments (hclosed : closed.AllClosed) (h : s.Tools closed n) {n' : ℕ}
    (hordered : orderedFragments n i toolCalls = some n') :
    (s.toolFragments i toolCalls).Tools closed n' ∧
      (s.toolFragments i toolCalls).toolCallMaxIndexOffset =
        maxOffset s.toolCallMaxIndexOffset i toolCalls := by
  induction toolCalls generalizing i s n with
  | nil =>
    cases hordered
    exact ⟨h, rfl⟩
  | cons toolCall toolCalls ih =>
    unfold orderedFragments at hordered
    split at hordered
    · rename_i hin
      obtain ⟨htools, hmax⟩ := ih (tools_toolFragment hclosed h hin) hordered
      refine ⟨htools, hmax.trans ?_⟩
      rw [(toolFragment_frame s i toolCall).2.2]
      rfl
    · cases hordered

theorem stage_toolFragments_of_disorder (hclosed : closed.AllClosed) (h : s.Tools closed n)
    (hdisorder : orderedFragments n i toolCalls = none) :
    stage (s.toolFragments i toolCalls).events = none := by
  induction toolCalls generalizing i s n with
  | nil => cases hdisorder
  | cons toolCall toolCalls ih =>
    unfold orderedFragments at hdisorder
    split at hdisorder
    · rename_i hin
      exact ih (tools_toolFragment hclosed h hin) hdisorder
    · rename_i hin
      have hfragment : stage (s.toolFragment i toolCall).events = none := by
        rw [stage_toolFragment_eq hclosed h, if_neg hin]
      exact (extends_toolFragments toolCalls (i + 1) _).stage_eq_none hfragment

theorem toolFragments_frame (s : Conversion) (i : ℕ) (toolCalls : List ToolCallResponse) :
    (s.toolFragments i toolCalls).lastMessagesType = s.lastMessagesType := by
  induction toolCalls generalizing i s with
  | nil => rfl
  | cons toolCall toolCalls ih => exact (ih _ _).trans (toolFragment_frame s i toolCall).1

theorem tools_enterTools (h : s.Streams bs) :
    ∃ closed : Blocks, closed.AllClosed ∧ s.enterTools.Tools closed s.toolsBegun ∧
      s.enterTools.toolCallMaxIndexOffset = s.toolsMax := by
  unfold Conversion.enterTools
  by_cases hlast : s.lastMessagesType = .tools
  · rw [if_neg (not_not.mpr hlast)]
    cases h.isOpen with
    | @tools closed k _ hbs hclosed hbase hmax hk hindex =>
      have hbegun := toolsBegun_of_tools h.stage hlast hbs hbase
      have hle : (s.toolsBegun : ℤ) ≤ s.toolCallMaxIndexOffset + 1 := hbegun ▸ hk
      refine ⟨closed, hclosed, ⟨?_, hbase, hmax, hle⟩, ?_⟩
      · rw [hbegun, ← hbs]
        exact h.stage
      · unfold Conversion.toolsMax
        rw [if_pos hlast]
    | none hlast' => rw [hlast'] at hlast; cases hlast
    | text hlast' => rw [hlast'] at hlast; cases hlast
    | thinking hlast' => rw [hlast'] at hlast; cases hlast
  · rw [if_pos hlast]
    obtain ⟨bs', hs', hclosed, hindex⟩ := streams_advance h (gapless_of_ne hlast)
    have hbegun : s.toolsBegun = 0 := if_neg hlast
    have hmax : s.toolsMax = 0 := if_neg hlast
    refine ⟨bs', hclosed, ⟨?_, hindex, Int.le_refl 0, ?_⟩, hmax.symm⟩
    · rw [hbegun]
      simpa using hs'.stage
    · rw [hbegun]
      show ((0 : ℕ) : ℤ) ≤ 0 + 1
      omega

/-- Tool calls in order, and whether all up to the largest index have been opened. -/
theorem streams_laterToolCalls (h : s.Streams bs)
    (hordered : orderedFragments s.toolsBegun 0 toolCalls = some n) :
    (∃ bs', (s.laterToolCalls toolCalls).Streams bs') ∧
      ((s.laterToolCalls toolCalls).Gapless ↔ (n : ℤ) = maxOffset s.toolsMax 0 toolCalls + 1) := by
  obtain ⟨closed, hclosed, htools, hmax⟩ := tools_enterTools h
  obtain ⟨htools', hmax'⟩ := tools_toolFragments hclosed htools hordered
  rw [hmax] at hmax'
  have hlast : (s.laterToolCalls toolCalls).lastMessagesType = .tools := by
    rw [laterToolCalls_eq]
    exact (toolFragments_frame _ _ _).trans rfl
  have hbegun : (s.laterToolCalls toolCalls).toolsBegun = n :=
    toolsBegun_of_tools (k := n) htools'.stage hlast rfl htools'.base
  constructor
  · exact ⟨_, htools'.stage, .tools hlast rfl hclosed htools'.base htools'.max_nonneg
      htools'.le_max rfl⟩
  · unfold Conversion.Gapless
    rw [hbegun]
    unfold Conversion.toolsMax
    rw [if_pos hlast]
    have hsame : (s.laterToolCalls toolCalls).toolCallMaxIndexOffset =
        maxOffset s.toolsMax 0 toolCalls := hmax'
    rw [hsame]
    exact ⟨fun hgapless => hgapless hlast, fun heq _ => heq⟩

theorem stage_laterToolCalls_of_disorder (h : s.Streams bs)
    (hdisorder : orderedFragments s.toolsBegun 0 toolCalls = none) :
    stage (s.laterToolCalls toolCalls).events = none := by
  obtain ⟨closed, hclosed, htools, -⟩ := tools_enterTools h
  exact stage_toolFragments_of_disorder hclosed htools hdisorder

/-! ## Chunks -/

variable {chunk : Chunk} {choice : Choice}

/-- The message goes on, or has ended where `closes` says so. -/
def Conversion.Continues (s : Conversion) (closes : Prop) : Prop :=
  (closes → stage s.events = some .stopped ∧ s.done = true) ∧
    (¬ closes → s.done = false ∧ ∃ bs, s.Streams bs)

/-- What is left of a chunk when its delta has been sent. -/
theorem continues_finishIf (h : s.Streams bs) (hdone : s.done = false)
    (hgapless : choice.done = true → s.Gapless)
    (husage : choice.done = true → chunk.usage.or s.usage ≠ none) :
    (s.finishIf chunk choice).Continues (choice.done = true) := by
  unfold Conversion.finishIf
  cases hchoice : choice.done with
  | true =>
    refine ⟨fun _ => ?_, fun hnot => absurd rfl hnot⟩
    exact ⟨stage_finish h (hgapless hchoice) (husage hchoice), rfl⟩
  | false => exact ⟨fun htrue => absurd htrue (by simp), fun _ => ⟨hdone, bs, h⟩⟩

/-- A chunk that ends the message after a gap, or without usage. -/
theorem stage_finishIf_eq_none (h : s.Streams bs) (hdone : choice.done = true)
    (hbad : ¬ s.Gapless ∨ chunk.usage.or s.usage = none) :
    stage (s.finishIf chunk choice).events = none := by
  unfold Conversion.finishIf
  rw [if_pos hdone]
  rcases hbad with hgap | husage
  · exact stage_finish_of_gap h hgap
  · rw [husage]
    exact stage_finish_of_no_usage h

/-! ### The first chunk -/

theorem streams_firstToolCall (hstage : stage s.events = some (.content []))
    (hindex : s.index = 0) :
    (s.firstToolCall toolCall).Streams [(.toolUse, true)] ∧ (s.firstToolCall toolCall).Gapless := by
  have hstreams : (s.firstToolCall toolCall).Streams [(.toolUse, true)] := by
    have hopen : Open .tools s.index 0 0 [(.toolUse, true)] :=
      @Open.tools _ _ _ _ _ [] 1 rfl rfl (fun _ h => by cases h) rfl (Int.le_refl 0)
        (by decide) hindex
    unfold Conversion.firstToolCall
    dsimp only
    split
    · refine ⟨?_, hopen⟩
      rw [stage_emit, stage_emit]
      show ((stage s.events).bind _).bind _ = _
      rw [hstage]
      rfl
    · refine ⟨?_, hopen⟩
      rw [stage_emit]
      show (stage s.events).bind _ = _
      rw [hstage]
      rfl
  have hlast : (s.firstToolCall toolCall).lastMessagesType = .tools := by
    unfold Conversion.firstToolCall
    dsimp only
    split <;> rfl
  have hbase : (s.firstToolCall toolCall).toolCallBaseIndex = 0 ∧
      (s.firstToolCall toolCall).toolCallMaxIndexOffset = 0 := by
    unfold Conversion.firstToolCall
    dsimp only
    split <;> exact ⟨rfl, rfl⟩
  refine ⟨hstreams, fun _ => ?_⟩
  have hbegun : (s.firstToolCall toolCall).toolsBegun = 1 :=
    @toolsBegun_of_tools _ _ [] 1 hstreams.stage hlast rfl hbase.1
  rw [hbegun]
  unfold Conversion.toolsMax
  rw [if_pos hlast, hbase.2]
  rfl

/-- Nothing has been sent. -/
structure Conversion.Fresh (s : Conversion) : Prop where
  events : s.events = []
  last : s.lastMessagesType = .none
  index : s.index = 0

/-- After the tool call, if there is one. -/
theorem streams_firstTools (chunk : Chunk) (choice : Choice) (h : s.Fresh) :
    (∃ bs, (s.firstTools chunk choice).Streams bs) ∧ (s.firstTools chunk choice).Gapless ∧
      ((s.firstTools chunk choice).lastMessagesType = .none ∨
        (s.firstTools chunk choice).lastMessagesType = .tools) := by
  obtain ⟨hevents, hlast, hindex⟩ := h
  have hstart : stage (s.emit (.messageStart chunk.id chunk.model s.estimatePromptTokens)).events =
      some (.content []) := by
    rw [stage_emit, hevents]
    rfl
  unfold Conversion.firstTools
  dsimp only
  split
  · refine ⟨⟨[], hstart, .none hlast (fun _ h => by cases h) hindex⟩, gapless_of_ne ?_, .inl hlast⟩
    show s.lastMessagesType ≠ .tools
    rw [hlast]
    simp
  · obtain ⟨hstreams, hgapless⟩ := streams_firstToolCall hstart hindex
    refine ⟨⟨_, hstreams⟩, hgapless, .inr ?_⟩
    unfold Conversion.firstToolCall
    dsimp only
    split <;> rfl

theorem streams_firstDelta (chunk : Chunk) (choice : Choice) (h : s.Fresh) :
    (∃ bs, (s.firstDelta chunk choice).Streams bs) ∧ (s.firstDelta chunk choice).Gapless := by
  obtain ⟨⟨bs, hstreams⟩, hgapless, hlast⟩ := streams_firstTools chunk choice h
  unfold Conversion.firstDelta
  dsimp only
  by_cases hreasoning : choice.delta.getReasoningContent ≠ ""
  · rw [if_pos hreasoning]
    refine ⟨streams_firstBlock (.thinking _) hstreams hgapless ?_, gapless_of_ne ?_⟩
    · rcases hlast with h | h <;> rw [h] <;> simp
    · show LastMessagesType.thinking ≠ .tools
      simp
  · rw [if_neg hreasoning]
    by_cases hcontent : choice.delta.getContentString ≠ ""
    · rw [if_pos hcontent]
      refine ⟨streams_firstBlock (.text _) hstreams hgapless ?_, gapless_of_ne ?_⟩
      · rcases hlast with h | h <;> rw [h] <;> simp
      · show LastMessagesType.text ≠ .tools
        simp
    · rw [if_neg hcontent]
      exact ⟨⟨bs, hstreams⟩, hgapless⟩

/-- The reason that is noted has no part in it. -/
theorem streams_withFinishReason : (s.withFinishReason choice).Streams bs ↔ s.Streams bs := by
  unfold Conversion.withFinishReason
  split
  · exact ⟨fun h => ⟨h.stage, h.isOpen⟩, fun h => ⟨h.stage, h.isOpen⟩⟩
  · exact Iff.rfl

theorem gapless_withFinishReason : (s.withFinishReason choice).Gapless ↔ s.Gapless := by
  unfold Conversion.withFinishReason
  split <;> exact Iff.rfl

/-- **The first chunk**. -/
theorem continues_firstChunk (h : s.Fresh) (hdone : s.done = false)
    (husage : ∀ choice, chunk.choice = some choice → choice.done = true →
      chunk.usage.or s.usage ≠ none) :
    (s.firstChunk chunk).Continues (∃ choice, chunk.choice = some choice ∧ choice.done = true) := by
  cases hchoice : chunk.choice with
  | none =>
    rw [firstChunk_none hchoice]
    refine ⟨fun hcloses => absurd hcloses (by simp), fun _ => ⟨hdone, [], ?_⟩⟩
    refine ⟨?_, .none h.last (fun _ h => by cases h) h.index⟩
    rw [stage_emit, h.events]
    rfl
  | some choice =>
    rw [firstChunk_some hchoice]
    obtain ⟨⟨bs, hstreams⟩, hgapless⟩ := streams_firstDelta chunk choice h
    have hkept : ((s.firstDelta chunk choice).withFinishReason choice).kept = s.kept :=
      kept_withFinishReason.trans kept_firstDelta
    have hsame : (∃ c, some choice = some c ∧ c.done = true) ↔ choice.done = true := by simp
    rw [hsame]
    refine continues_finishIf (streams_withFinishReason.mpr hstreams)
      ((congrArg Kept.done hkept).trans hdone) (fun _ => gapless_withFinishReason.mpr hgapless) ?_
    intro hchoice'
    have husage' : ((s.firstDelta chunk choice).withFinishReason choice).usage = s.usage :=
      congrArg Kept.usage hkept
    rw [husage']
    exact husage choice hchoice hchoice'

/-- A first chunk that ends the message without usage. -/
theorem stage_firstChunk_eq_none (h : s.Fresh) (hchoice : chunk.choice = some choice)
    (hdone : choice.done = true) (husage : chunk.usage.or s.usage = none) :
    stage (s.firstChunk chunk).events = none := by
  rw [firstChunk_some hchoice]
  obtain ⟨⟨bs, hstreams⟩, -⟩ := streams_firstDelta chunk choice h
  have hkept : ((s.firstDelta chunk choice).withFinishReason choice).usage = s.usage :=
    congrArg Kept.usage (kept_withFinishReason.trans kept_firstDelta)
  exact stage_finishIf_eq_none (streams_withFinishReason.mpr hstreams) hdone (.inr (hkept ▸ husage))

/-! ### Later chunks -/

theorem streams_laterDeltas (h : s.Streams bs) (horderly : s.OrderlyDelta choice) :
    (∃ bs', (s.laterDeltas choice.delta).Streams bs') ∧
      (choice.done = true → (s.laterDeltas choice.delta).Gapless) := by
  unfold Conversion.OrderlyDelta at horderly
  unfold Conversion.laterDeltas
  by_cases htools : choice.delta.toolCalls ≠ []
  · rw [if_pos htools] at horderly ⊢
    obtain ⟨n, hordered, hgapless⟩ := horderly
    obtain ⟨hstreams, hiff⟩ := streams_laterToolCalls h hordered
    exact ⟨hstreams, fun hdone => hiff.mpr (hgapless hdone)⟩
  · rw [if_neg htools] at horderly ⊢
    by_cases hreasoning : choice.delta.getReasoningContent ≠ ""
    · rw [if_pos hreasoning]
      refine ⟨streams_laterDelta (.thinking _) h (horderly (.inl hreasoning)), fun _ => ?_⟩
      exact gapless_of_ne (by rw [last_laterDelta]; simp)
    · rw [if_neg hreasoning]
      by_cases hcontent : choice.delta.getContentString ≠ ""
      · rw [if_pos hcontent]
        refine ⟨streams_laterDelta (.text _) h (horderly (.inr (.inl hcontent))), fun _ => ?_⟩
        exact gapless_of_ne (by rw [last_laterDelta]; simp)
      · rw [if_neg hcontent]
        exact ⟨⟨bs, h⟩, fun hdone => horderly (.inr (.inr hdone))⟩

/-- A delta out of order, or a message that ends after a gap. -/
theorem stage_laterDeltas_eq_none (h : s.Streams bs) (horderly : ¬ s.OrderlyDelta choice) :
    stage (s.laterDeltas choice.delta).events = none ∨
      choice.done = true ∧ (∃ bs', (s.laterDeltas choice.delta).Streams bs') ∧
        ¬ (s.laterDeltas choice.delta).Gapless := by
  unfold Conversion.OrderlyDelta at horderly
  unfold Conversion.laterDeltas
  by_cases htools : choice.delta.toolCalls ≠ []
  · rw [if_pos htools] at horderly ⊢
    cases hordered : orderedFragments s.toolsBegun 0 choice.delta.toolCalls with
    | none => exact .inl (stage_laterToolCalls_of_disorder h hordered)
    | some n =>
      obtain ⟨hstreams, hiff⟩ := streams_laterToolCalls h hordered
      have hnot : ¬ (choice.done = true →
          (n : ℤ) = maxOffset s.toolsMax 0 choice.delta.toolCalls + 1) :=
        fun hgapless => horderly ⟨n, hordered, hgapless⟩
      rw [Classical.not_imp] at hnot
      exact .inr ⟨hnot.1, hstreams, fun hgapless => hnot.2 (hiff.mp hgapless)⟩
  · rw [if_neg htools, Classical.not_imp] at horderly
    rw [if_neg htools]
    obtain ⟨hsome, hgap⟩ := horderly
    by_cases hreasoning : choice.delta.getReasoningContent ≠ ""
    · rw [if_pos hreasoning]
      exact .inl (stage_laterDelta_of_gap (.thinking _) h hgap)
    · rw [if_neg hreasoning]
      by_cases hcontent : choice.delta.getContentString ≠ ""
      · rw [if_pos hcontent]
        exact .inl (stage_laterDelta_of_gap (.text _) h hgap)
      · rw [if_neg hcontent]
        rcases hsome with hsome | hsome | hdone
        · exact absurd hsome hreasoning
        · exact absurd hsome hcontent
        · exact .inr ⟨hdone, ⟨bs, h⟩, hgap⟩

theorem orderlyLater_iff (hchoice : chunk.choice = some choice) :
    s.OrderlyLater chunk ↔ ¬ chunk.putOff choice → s.OrderlyDelta choice := by
  unfold Conversion.OrderlyLater
  rw [hchoice]

theorem orderlyDelta_withFinishReason :
    (s.withFinishReason choice).OrderlyDelta choice ↔ s.OrderlyDelta choice := by
  unfold Conversion.withFinishReason
  split <;> exact Iff.rfl

/-- **A later chunk** that is in order. -/
theorem continues_laterChunk (h : s.Streams bs) (hdone : s.done = false)
    (horderly : s.OrderlyLater chunk) : (s.laterChunk chunk).Continues (ClosesLater s chunk) := by
  unfold ClosesLater
  cases hchoice : chunk.choice with
  | none =>
    unfold Conversion.OrderlyLater at horderly
    rw [hchoice] at horderly
    unfold Conversion.laterChunk
    rw [hchoice]
    dsimp only
    cases husage : chunk.usage.or s.usage with
    | none => exact ⟨fun hcloses => absurd rfl hcloses, fun _ => ⟨hdone, bs, h⟩⟩
    | some oaiUsage =>
      have hgapless := horderly (by rw [husage]; simp)
      refine ⟨fun _ => ⟨stage_finish h hgapless (by simp), rfl⟩, fun hnot => ?_⟩
      exact absurd (Option.some_ne_none _) hnot
  | some choice =>
    rw [laterChunk_some hchoice]
    rw [orderlyLater_iff hchoice] at horderly
    have hstreams : (s.withFinishReason choice).Streams bs := streams_withFinishReason.mpr h
    have hkept : (s.withFinishReason choice).kept = s.kept := kept_withFinishReason
    by_cases hputOff : chunk.putOff choice
    · unfold Chunk.putOff at hputOff
      rw [if_pos hputOff]
      refine ⟨fun hcloses => absurd hputOff.2 hcloses.2, fun _ => ?_⟩
      exact ⟨(congrArg Kept.done hkept).trans hdone, bs, hstreams⟩
    · have horderly := horderly hputOff
      unfold Chunk.putOff at hputOff
      rw [if_neg hputOff]
      obtain ⟨⟨bs', hstreams'⟩, hgapless⟩ := streams_laterDeltas hstreams
        (orderlyDelta_withFinishReason.mpr horderly)
      have hkept' : ((s.withFinishReason choice).laterDeltas choice.delta).kept = s.kept :=
        (kept_laterDeltas _).trans hkept
      have husage : choice.done = true → chunk.usage ≠ none := fun hdone husage =>
        hputOff ⟨hdone, husage⟩
      have hsame : (choice.done = true ∧ chunk.usage ≠ none) ↔ choice.done = true :=
        ⟨fun h => h.1, fun h => ⟨h, husage h⟩⟩
      dsimp only
      rw [hsame]
      refine continues_finishIf hstreams' ((congrArg Kept.done hkept').trans hdone) hgapless ?_
      intro hchoice' hnone
      exact husage hchoice' (Option.or_eq_none_iff.mp hnone).1

theorem stage_laterChunk_eq_none (h : s.Streams bs) (horderly : ¬ s.OrderlyLater chunk) :
    stage (s.laterChunk chunk).events = none := by
  cases hchoice : chunk.choice with
  | none =>
    unfold Conversion.OrderlyLater at horderly
    rw [hchoice, Classical.not_imp] at horderly
    obtain ⟨husage, hgap⟩ := horderly
    obtain ⟨oaiUsage, hsome⟩ := Option.ne_none_iff_exists'.mp husage
    unfold Conversion.laterChunk
    rw [hchoice, hsome]
    exact stage_finish_of_gap h hgap
  | some choice =>
    rw [orderlyLater_iff hchoice, Classical.not_imp] at horderly
    obtain ⟨hputOff, hdelta⟩ := horderly
    rw [laterChunk_some hchoice]
    unfold Chunk.putOff at hputOff
    rw [if_neg hputOff]
    have hstreams : (s.withFinishReason choice).Streams bs := streams_withFinishReason.mpr h
    have hbad := stage_laterDeltas_eq_none hstreams (mt orderlyDelta_withFinishReason.mp hdelta)
    rcases hbad with hnone | ⟨hdone, ⟨bs', hstreams'⟩, hgap⟩
    · exact (extends_finishIf _ _ _).stage_eq_none hnone
    · exact stage_finishIf_eq_none hstreams' hdone (.inl hgap)

/-! ## Runs -/

/-- No event came that may not, and what was closed had begun. -/
def Sound (s : Conversion) : Prop :=
  ∃ at', stage s.events = some at' ∧ (s.done = true → at' ≠ .before)

/-- Where a conversion stands between two steps. -/
inductive Conversion.Stands (s : Conversion) : Prop
  | fresh : s.done = false → s.sendResponseCount = 0 → s.Fresh → s.Stands
  | streams {bs : Blocks} : s.done = false → s.sendResponseCount ≠ 0 → s.Streams bs → s.Stands
  | done {at' : Stage} : s.done = true → stage s.events = some at' → at' ≠ .before → s.Stands

variable {h : Handling} {oai : OpenAIUsage}

theorem Conversion.Stands.sound (hs : s.Stands) : Sound s := by
  cases hs with
  | fresh hdone _ hfresh =>
    refine ⟨.before, ?_, fun hdone' => ?_⟩
    · rw [hfresh.events]
      rfl
    · rw [hdone] at hdone'
      cases hdone'
  | streams hdone _ hstreams =>
    refine ⟨_, hstreams.stage, fun hdone' => ?_⟩
    rw [hdone] at hdone'
    cases hdone'
  | done hdone hstage hne => exact ⟨_, hstage, fun _ => hne⟩

theorem Conversion.Continues.stands {closes : Prop} (hc : s.Continues closes)
    (hcount : s.sendResponseCount ≠ 0) : s.Stands := by
  by_cases hcloses : closes
  · obtain ⟨hstage, hdone⟩ := hc.1 hcloses
    exact .done hdone hstage (by simp)
  · obtain ⟨hdone, bs, hstreams⟩ := hc.2 hcloses
    exact .streams hdone hcount hstreams

theorem Conversion.Continues.stopped_iff {closes : Prop} (hc : s.Continues closes) :
    stage s.events = some .stopped ↔ closes := by
  constructor
  · intro hstopped
    by_contra hnot
    obtain ⟨-, bs, hstreams⟩ := hc.2 hnot
    rw [hstreams.stage] at hstopped
    cases hstopped
  · intro hcloses
    exact (hc.1 hcloses).1

/-- The message has ended: a chunk is received and passed over. -/
theorem handle_of_done (hdone : s.done = true) :
    (s.handle h).events = s.events ∧ (s.handle h).done = true := by
  cases h with
  | handleStreamFormat chunk =>
    have hreceived : (s.receive (.handleStreamFormat chunk)).done = true := hdone
    simp only [Conversion.handle, Conversion.streamResponseOpenAI2Claude, if_pos hreceived]
    exact ⟨rfl, hdone⟩
  | setUsage usage => exact ⟨rfl, hdone⟩
  | handleFinalResponse chunk usage =>
    have hreceived : (s.receive (.handleFinalResponse chunk usage)).done = true := hdone
    simp only [Conversion.handle, Conversion.streamResponseOpenAI2Claude, if_pos hreceived]
    exact ⟨rfl, trivial⟩

/-- `HandleStreamFormat` on a message that has not ended. -/
theorem handle_format (hdone : s.done = false) :
    s.handle (.handleStreamFormat chunk) =
      if s.sendResponseCount = 0 then (s.receive (.handleStreamFormat chunk)).firstChunk chunk
      else (s.receive (.handleStreamFormat chunk)).laterChunk chunk := by
  have hreceived : ¬ (s.receive (.handleStreamFormat chunk)).done = true :=
    ne_true_of_eq_false hdone
  unfold Conversion.handle Conversion.streamResponseOpenAI2Claude
  dsimp only
  rw [if_neg hreceived]
  by_cases hcount : s.sendResponseCount = 0
  · rw [if_pos hcount, if_pos]
    show s.sendResponseCount + 1 = 1
    omega
  · rw [if_neg hcount, if_neg]
    show s.sendResponseCount + 1 ≠ 1
    omega

theorem handle_final (hdone : s.done = false) :
    s.handle (.handleFinalResponse chunk oai) =
      { (if s.sendResponseCount = 1 then
          (s.receive (.handleFinalResponse chunk oai)).firstChunk chunk
        else (s.receive (.handleFinalResponse chunk oai)).laterChunk chunk) with
        done := true } := by
  have hreceived : ¬ (s.receive (.handleFinalResponse chunk oai)).done = true :=
    ne_true_of_eq_false hdone
  unfold Conversion.handle Conversion.streamResponseOpenAI2Claude
  dsimp only
  rw [if_neg hreceived]
  rfl

theorem count_firstChunk : (s.firstChunk chunk).sendResponseCount = s.sendResponseCount := by
  obtain ⟨done, hkept⟩ := kept_firstChunk s chunk
  exact congrArg Kept.sendResponseCount hkept

theorem count_laterChunk : (s.laterChunk chunk).sendResponseCount = s.sendResponseCount := by
  obtain ⟨done, hkept⟩ := kept_laterChunk s chunk
  exact congrArg Kept.sendResponseCount hkept

/-- **One step** that is in order: the message goes on, or ends where the chunk says so. -/
theorem Conversion.Stands.handle (hs : s.Stands) (horderly : Orderly s h) :
    (s.handle h).Stands ∧
      (stage (s.handle h).events = some .stopped ↔
        stage s.events = some .stopped ∨ Closes s h) := by
  cases hs with
  | @done at' hdone hstage hne =>
    obtain ⟨hevents, hdone'⟩ := handle_of_done (h := h) hdone
    have hcloses : ¬ Closes s h := by
      intro hcloses
      cases h with
      | setUsage usage => exact hcloses
      | handleStreamFormat chunk =>
        rw [hcloses.1] at hdone
        cases hdone
      | handleFinalResponse chunk usage =>
        rw [hcloses.1] at hdone
        cases hdone
    rw [hevents]
    exact ⟨.done hdone' (hevents ▸ hstage) hne, by simp [hcloses]⟩
  | fresh hdone hcount hfresh =>
    have hnot : stage s.events ≠ some .stopped := by
      rw [hfresh.events]
      simp [stage]
    cases h with
    | setUsage usage =>
      refine ⟨.fresh hdone hcount ⟨hfresh.events, hfresh.last, hfresh.index⟩, ?_⟩
      exact iff_of_false hnot (fun hor => hor.elim hnot id)
    | handleStreamFormat chunk =>
      rw [handle_format hdone, if_pos hcount]
      rcases horderly with horderly | horderly
      · rw [hdone] at horderly
        cases horderly
      · rw [if_pos hcount] at horderly
        have hcontinues : ((s.receive (.handleStreamFormat chunk)).firstChunk chunk).Continues
            (∃ choice, chunk.choice = some choice ∧ choice.done = true) := by
          refine continues_firstChunk ⟨hfresh.events, hfresh.last, hfresh.index⟩ hdone ?_
          intro choice hchoice hdone'
          have := horderly choice hchoice hdone'
          show chunk.usage.or (chunk.usage.or s.usage) ≠ none
          simpa using this
        · refine ⟨hcontinues.stands ?_, hcontinues.stopped_iff.trans ?_⟩
          · rw [count_firstChunk]
            show s.sendResponseCount + 1 ≠ 0
            omega
          · simp only [Closes, if_pos hcount, hnot, hdone, false_or, true_and]
    | handleFinalResponse chunk usage =>
      rcases horderly with horderly | ⟨hcount', -⟩
      · rw [hdone] at horderly
        cases horderly
      · omega
  | @streams bs hdone hcount hstreams =>
    have hnot : stage s.events ≠ some .stopped := by
      rw [hstreams.stage]
      simp
    cases h with
    | setUsage usage =>
      refine ⟨.streams hdone hcount ⟨hstreams.stage, hstreams.isOpen⟩, ?_⟩
      exact iff_of_false hnot (fun hor => hor.elim hnot id)
    | handleStreamFormat chunk =>
      rw [handle_format hdone, if_neg hcount]
      rcases horderly with horderly | horderly
      · rw [hdone] at horderly
        cases horderly
      · rw [if_neg hcount] at horderly
        have hcontinues := continues_laterChunk (s := s.receive (.handleStreamFormat chunk))
          ⟨hstreams.stage, hstreams.isOpen⟩ hdone horderly
        refine ⟨hcontinues.stands ?_, hcontinues.stopped_iff.trans ?_⟩
        · rw [count_laterChunk]
          show s.sendResponseCount + 1 ≠ 0
          omega
        · simp only [Closes, if_neg hcount, hnot, hdone, false_or, true_and]
    | handleFinalResponse chunk usage =>
      rcases horderly with horderly | ⟨hcount', horderly⟩
      · rw [hdone] at horderly
        cases horderly
      · rw [handle_final hdone, if_neg (by omega)]
        have hcontinues := continues_laterChunk
          (s := s.receive (.handleFinalResponse chunk usage))
          ⟨hstreams.stage, hstreams.isOpen⟩ hdone horderly
        constructor
        · by_cases hcloses : ClosesLater (s.receive (.handleFinalResponse chunk usage)) chunk
          · exact .done rfl (hcontinues.1 hcloses).1 (by simp)
          · obtain ⟨-, bs', hstreams'⟩ := hcontinues.2 hcloses
            exact .done rfl hstreams'.stage (by simp)
        · refine hcontinues.stopped_iff.trans ?_
          simp only [Closes, hnot, hdone, false_or, true_and]

/-- A step out of order sends an event that may not come, or ends what has not begun. -/
theorem Conversion.Stands.not_sound (hs : s.Stands) (horderly : ¬ Orderly s h) :
    ¬ Sound (s.handle h) := by
  have hnone : stage (s.handle h).events = none → ¬ Sound (s.handle h) := by
    rintro hnone ⟨at', hstage, -⟩
    rw [hnone] at hstage
    cases hstage
  cases hs with
  | done hdone hstage hne =>
    cases h with
    | setUsage usage => exact absurd trivial horderly
    | handleStreamFormat chunk => exact absurd (.inl hdone) horderly
    | handleFinalResponse chunk usage => exact absurd (.inl hdone) horderly
  | fresh hdone hcount hfresh =>
    cases h with
    | setUsage usage => exact absurd trivial horderly
    | handleStreamFormat chunk =>
      apply hnone
      rw [handle_format hdone, if_pos hcount]
      simp only [Orderly, if_pos hcount, not_or] at horderly
      obtain ⟨-, hfirst⟩ := horderly
      simp only [not_forall, not_not] at hfirst
      obtain ⟨choice, hchoice, hdone', husage⟩ := hfirst
      refine stage_firstChunk_eq_none ⟨hfresh.events, hfresh.last, hfresh.index⟩ hchoice hdone' ?_
      show chunk.usage.or (chunk.usage.or s.usage) = none
      simpa using husage
    | handleFinalResponse chunk usage =>
      rw [handle_final hdone, if_neg (by omega)]
      rintro ⟨at', hstage, hne⟩
      have hbefore : stage (s.receive (.handleFinalResponse chunk usage)).events =
          some .before := by
        show stage s.events = _
        rw [hfresh.events]
        rfl
      rcases (extends_laterChunk _ chunk).not_begun hbefore with h | h
      · have hsame := h.symm.trans hstage
        cases hsame
      · have hsame := h.symm.trans hstage
        cases hsame
        exact hne rfl rfl
  | streams hdone hcount hstreams =>
    cases h with
    | setUsage usage => exact absurd trivial horderly
    | handleStreamFormat chunk =>
      apply hnone
      rw [handle_format hdone, if_neg hcount]
      simp only [Orderly, if_neg hcount, not_or] at horderly
      exact stage_laterChunk_eq_none ⟨hstreams.stage, hstreams.isOpen⟩ horderly.2
    | handleFinalResponse chunk usage =>
      apply hnone
      rw [handle_final hdone]
      simp only [Orderly, not_or] at horderly
      by_cases hone : s.sendResponseCount = 1
      · rw [if_pos hone]
        refine (extends_firstChunk _ chunk).stage_eq_none ?_
        rw [stage_emit]
        show (stage s.events).bind _ = none
        rw [hstreams.stage]
        rfl
      · rw [if_neg hone]
        refine stage_laterChunk_eq_none ⟨hstreams.stage, hstreams.isOpen⟩ fun hlater => ?_
        exact horderly.2 ⟨by omega, hlater⟩

/-! ### The whole stream -/

theorem events_prefix_handle (s : Conversion) (h : Handling) :
    s.events <+: (s.handle h).events := by
  have hfirst : ∀ (t : Conversion) (chunk : Chunk), t.events = s.events →
      s.events <+: (t.firstChunk chunk).events := by
    intro t chunk ht
    obtain ⟨events, heq, -⟩ := extends_firstChunk t chunk
    rw [heq, ← ht]
    exact (List.prefix_append _ _).trans (List.prefix_append _ _)
  have hlater : ∀ (t : Conversion) (chunk : Chunk), t.events = s.events →
      s.events <+: (t.laterChunk chunk).events := by
    intro t chunk ht
    obtain ⟨events, heq, -⟩ := extends_laterChunk t chunk
    rw [heq, ← ht]
    exact List.prefix_append _ _
  cases hdone : s.done with
  | true =>
    have heq : (s.handle h).events = s.events := (handle_of_done hdone).1
    exact heq ▸ List.prefix_refl s.events
  | false =>
    cases h with
    | setUsage usage => exact List.prefix_refl _
    | handleStreamFormat chunk =>
      rw [handle_format hdone]
      split
      · exact hfirst _ _ rfl
      · exact hlater _ _ rfl
    | handleFinalResponse chunk usage =>
      rw [handle_final hdone]
      show s.events <+: (if s.sendResponseCount = 1 then _ else _ : Conversion).events
      split
      · exact hfirst _ _ rfl
      · exact hlater _ _ rfl

/-- A stream that ends well was sound all along. -/
theorem sound_of_wellFormed (handlings : List Handling)
    (hw : WellFormed (handlings.foldl Conversion.handle s).events) : Sound s := by
  have hprefix : ∀ (handlings : List Handling) (s : Conversion),
      s.events <+: (handlings.foldl Conversion.handle s).events := by
    intro handlings
    induction handlings with
    | nil => exact fun s => List.prefix_refl _
    | cons h handlings ih => exact fun s => (events_prefix_handle s h).trans (ih _)
  have hsame : ∀ (handlings : List Handling) (s : Conversion), s.done = true →
      (handlings.foldl Conversion.handle s).events = s.events := by
    intro handlings
    induction handlings with
    | nil => exact fun s _ => rfl
    | cons h handlings ih =>
      intro s hdone
      obtain ⟨hevents, hdone'⟩ := handle_of_done (h := h) hdone
      exact (ih _ hdone').trans hevents
  cases hstage : stage s.events with
  | none =>
    obtain ⟨events, heq⟩ := hprefix handlings s
    unfold WellFormed at hw
    rw [← heq, stage_append_of_none hstage] at hw
    cases hw
  | some at' =>
    refine ⟨at', hstage, fun hdone => ?_⟩
    unfold WellFormed at hw
    rw [hsame handlings s hdone, hstage] at hw
    cases hw
    simp

theorem everyState_sound {handlings : List Handling} (s : Conversion)
    (hw : WellFormed (handlings.foldl Conversion.handle s).events) :
    conversion.EveryState Sound s handlings := by
  induction handlings generalizing s with
  | nil => exact sound_of_wellFormed [] hw
  | cons h handlings ih =>
    refine ⟨sound_of_wellFormed (h :: handlings) hw, fun t ht => ?_⟩
    cases ht
    exact ih _ hw

/-- **The converted stream is well-formed** exactly if every chunk is in order and one of
them ends the message. -/
theorem wellFormed_iff (handler : StreamHandler) (estimatePromptTokens : ℤ) (chunks : List Chunk)
    (last : Chunk) (usage : OpenAIUsage) :
    WellFormed (handler.converted estimatePromptTokens chunks last usage).events ↔
      conversion.EveryStep Orderly (.start estimatePromptTokens)
          (handler.handlings chunks last usage) ∧
        conversion.SomeStep Closes (.start estimatePromptTokens)
          (handler.handlings chunks last usage) := by
  have hstart : (Conversion.start estimatePromptTokens).Stands := .fresh rfl rfl ⟨rfl, rfl, rfl⟩
  have hsound : conversion.EveryState Sound (.start estimatePromptTokens)
        (handler.handlings chunks last usage) ↔
      conversion.EveryStep Orderly (.start estimatePromptTokens)
        (handler.handlings chunks last usage) := by
    refine System.everyState_iff_everyStep (fun _ hs => hs.sound) ?_ ?_ hstart
    · intro s h t hs horderly ht
      cases ht
      exact (hs.handle horderly).1
    · intro s h t hs horderly ht
      cases ht
      exact hs.not_sound horderly
  have hcloses : conversion.EveryStep Orderly (.start estimatePromptTokens)
        (handler.handlings chunks last usage) →
      (WellFormed (handler.converted estimatePromptTokens chunks last usage).events ↔
        conversion.SomeStep Closes (.start estimatePromptTokens)
          (handler.handlings chunks last usage)) := by
    intro horderly
    have hiff := System.iff_someStep (P := fun s => stage s.events = some .stopped) (C := Closes)
      (fun s h t hs horderly ht => by
        cases ht
        exact hs.handle horderly) hstart horderly (run_conversion _ _)
    refine hiff.trans (or_iff_right ?_)
    simp [Conversion.start, stage]
  constructor
  · intro hw
    have horderly := hsound.mp (everyState_sound _ hw)
    exact ⟨horderly, (hcloses horderly).mp hw⟩
  · rintro ⟨horderly, hclosing⟩
    exact (hcloses horderly).mpr hclosing

/-! ### A stop chunk without usage -/

def textChunk (text : String) (finishReason : Option String) : Chunk :=
  ⟨"chatcmpl-1", "gpt-5", some ⟨⟨some text, none, none, []⟩, finishReason⟩, none⟩

/-- `OaiResponsesToChatStreamHandler` sets the usage before its stop chunk, which has none
of its own, so that the message is never ended. -/
theorem responses_stream_not_ended :
    ¬ WellFormed (StreamHandler.oaiResponsesToChatStreamHandler.converted 3
      [textChunk "" none, textChunk "hi" none] (textChunk "" (some "stop"))
      ⟨3, 1, 0, 0, 0, 0⟩).events := by
  decide

end Convert
