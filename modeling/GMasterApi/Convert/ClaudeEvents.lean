import Mathlib.Algebra.Ring.Int.Defs
import Mathlib.Algebra.Ring.Nat
import Mathlib.Data.List.Basic
import Mathlib.Data.List.Induction

/-!
# Event streams of Claude

A message is streamed as `message_start`, its content blocks with the indexes 0, 1, 2, …,
`message_delta` and `message_stop`.  A block is opened by one `content_block_start`, has
deltas of its own type, and is closed by one `content_block_stop`; several tool blocks may
be open at once.  `check` follows a stream, and `WellFormed` streams are those it accepts.
-/

namespace Convert

structure ClaudeCacheCreationUsage where
  ephemeral5mInputTokens : ℤ
  ephemeral1hInputTokens : ℤ
  deriving DecidableEq

structure ClaudeUsage where
  inputTokens : ℤ
  outputTokens : ℤ
  cacheCreationInputTokens : ℤ
  cacheReadInputTokens : ℤ
  cacheCreation : Option ClaudeCacheCreationUsage
  deriving DecidableEq

inductive BlockType
  | text
  | thinking
  | toolUse
  deriving DecidableEq

/-- The `content_block` of a `content_block_start`. -/
inductive ContentBlock
  | text
  | thinking
  | toolUse (id name : String)
  deriving DecidableEq

def ContentBlock.type : ContentBlock → BlockType
  | .text => .text
  | .thinking => .thinking
  | .toolUse _ _ => .toolUse

inductive Delta
  | textDelta (text : String)
  | thinkingDelta (thinking : String)
  | inputJsonDelta (partialJson : String)
  deriving DecidableEq

def Delta.type : Delta → BlockType
  | .textDelta _ => .text
  | .thinkingDelta _ => .thinking
  | .inputJsonDelta _ => .toolUse

inductive Event
  | messageStart (id model : String) (inputTokens : ℤ)
  | contentBlockStart (index : ℤ) (block : ContentBlock)
  | contentBlockDelta (index : ℤ) (delta : Delta)
  | contentBlockStop (index : ℤ)
  | messageDelta (stopReason : String) (usage : ClaudeUsage)
  | messageStop
  deriving DecidableEq

/-! ## Stop reasons -/

/-- `unicode.ToLower`, as far as it decides whether a text is one of ASCII. -/
def lowerChar (c : Char) : Char :=
  if c = '\u0130' then 'i' else if c = '\u212a' then 'k' else c.toLower

def toLower (s : String) : String := String.ofList (s.toList.map lowerChar)

/-- `OpenAIFinishReasonToClaudeStopReason`. -/
def stopReasonOpenAI2Claude (finishReason : String) : String :=
  match toLower finishReason with
  | "stop" => "end_turn"
  | "stop_sequence" => "stop_sequence"
  | "length" | "max_tokens" => "max_tokens"
  | "content_filter" => "refusal"
  | "tool_calls" => "tool_use"
  | _ => finishReason

/-- `ClaudeStopReasonToOpenAIFinishReason`. -/
def stopReasonClaude2OpenAI (stopReason : String) : String :=
  match toLower stopReason with
  | "stop_sequence" => "stop"
  | "end_turn" => "stop"
  | "max_tokens" => "length"
  | "tool_use" => "tool_calls"
  | "refusal" => "content_filter"
  | _ => stopReason

/-! ## Well-formed streams -/

/-- The blocks that have been opened, with their types, and whether they still are open. -/
abbrev Blocks := List (BlockType × Bool)

/-- How far a stream has come. -/
inductive Stage
  | before
  | content (blocks : Blocks)
  | delta
  | stopped
  deriving DecidableEq

def Blocks.at (blocks : Blocks) (index : ℤ) : Option (BlockType × Bool) :=
  if 0 ≤ index then blocks[index.toNat]? else none

def Blocks.close (blocks : Blocks) (index : ℤ) : Blocks :=
  blocks.modify index.toNat fun block => (block.1, false)

def Blocks.AllClosed (blocks : Blocks) : Prop := ∀ block ∈ blocks, block.2 = false

instance (blocks : Blocks) : Decidable blocks.AllClosed := List.decidableBAll _ _

/-- The stage after an event; `none` where the event may not come. -/
def check : Stage → Event → Option Stage
  | .before, .messageStart _ _ _ => some (.content [])
  | .content blocks, .contentBlockStart index block =>
    if index = blocks.length then some (.content (blocks ++ [(block.type, true)])) else none
  | .content blocks, .contentBlockDelta index delta =>
    if blocks.at index = some (delta.type, true) then some (.content blocks) else none
  | .content blocks, .contentBlockStop index =>
    match blocks.at index with
    | some (_, true) => some (.content (blocks.close index))
    | _ => none
  | .content blocks, .messageDelta _ _ => if blocks.AllClosed then some .delta else none
  | .delta, .messageStop => some .stopped
  | _, _ => none

/-- The stage of a stream; `none` where an event came that may not. -/
def stage (events : List Event) : Option Stage := events.foldlM check .before

def WellFormed (events : List Event) : Prop := stage events = some .stopped

instance (events : List Event) : Decidable (WellFormed events) :=
  inferInstanceAs (Decidable (stage events = some .stopped))

theorem stage_append (events events' : List Event) :
    stage (events ++ events') = (stage events).bind fun at' => events'.foldlM check at' :=
  List.foldlM_append

theorem stage_concat (events : List Event) (event : Event) :
    stage (events ++ [event]) = (stage events).bind fun at' => check at' event := by
  rw [stage_append]
  simp

/-- A stream that has gone wrong stays so. -/
theorem stage_append_of_none {events : List Event} (h : stage events = none)
    (events' : List Event) : stage (events ++ events') = none := by
  rw [stage_append, h]
  rfl

/-- Blocks that an event opens. -/
def Event.starts : Event → ℕ
  | .contentBlockStart _ _ => 1
  | _ => 0

/-- Blocks opened so far. -/
def begun (events : List Event) : ℕ := (events.map Event.starts).sum

theorem begun_append (events events' : List Event) :
    begun (events ++ events') = begun events + begun events' := by
  unfold begun
  rw [List.map_append, List.sum_append]

/-! ## Blocks -/

variable {blocks rest : Blocks} {index : ℤ} {event : Event} {events : List Event} {at' : Stage}

theorem at_natCast (n : ℕ) : blocks.at n = blocks[n]? := by
  unfold Blocks.at
  rw [if_pos (Int.natCast_nonneg n), Int.toNat_natCast]

theorem length_close : (blocks.close index).length = blocks.length := List.length_modify ..

theorem check_ne_before : check at' event ≠ some .before := by
  unfold check
  split
  · simp
  · split <;> simp
  · split <;> simp
  · split <;> simp
  · split <;> simp
  · simp
  · simp

/-- An event after which blocks are streamed opens as many as it says. -/
theorem check_content (h : check at' event = some (.content blocks)) :
    at' = .before ∧ blocks.length = event.starts ∨
      ∃ held, at' = .content held ∧ blocks.length = held.length + event.starts := by
  unfold check at h
  split at h
  · cases h
    exact .inl ⟨rfl, rfl⟩
  · split at h
    · cases h
      exact .inr ⟨_, rfl, by simp [Event.starts]⟩
    · cases h
  · split at h
    · cases h
      exact .inr ⟨_, rfl, rfl⟩
    · cases h
  · split at h
    · cases h
      exact .inr ⟨_, rfl, by rw [length_close]; rfl⟩
    · cases h
  · split at h
    · cases h
    · cases h
  · cases h
  · cases h

theorem eq_nil_of_before (h : stage events = some .before) : events = [] := by
  induction events using List.reverseRecOn with
  | nil => rfl
  | append_singleton events event _ =>
    rw [stage_concat] at h
    obtain ⟨at', -, hcheck⟩ := Option.bind_eq_some_iff.mp h
    exact absurd hcheck check_ne_before

/-- While its blocks are streamed, those of a stream are the ones it has begun. -/
theorem length_eq_begun (h : stage events = some (.content blocks)) :
    blocks.length = begun events := by
  induction events using List.reverseRecOn generalizing blocks with
  | nil => cases h
  | append_singleton events event ih =>
    rw [stage_concat] at h
    obtain ⟨at', hstage, hcheck⟩ := Option.bind_eq_some_iff.mp h
    have hbegun : begun [event] = event.starts := by simp [begun]
    rw [begun_append, hbegun]
    rcases check_content hcheck with ⟨rfl, hlength⟩ | ⟨held, rfl, hlength⟩
    · rw [eq_nil_of_before hstage, hlength]
      exact (Nat.zero_add _).symm
    · rw [hlength, ih hstage]

end Convert
