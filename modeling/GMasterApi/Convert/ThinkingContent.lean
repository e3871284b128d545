import GMasterApi.Convert.OpenAIStream
import GMasterApi.Lib.Pieces

/-!
# Thinking as content

With `ThinkingToContent` on, `sendStreamData` sends the reasoning of an OpenAI stream as
content between `<think>` and `</think>`.  The closing tag is sent before a chunk that has
content; the reasoning of a chunk takes the place of its content (`faithful_iff`).
-/

namespace Convert.ThinkingContent

open Pieces

/-! ## `sendStreamData` -/

structure ThinkingContentInfo where
  isFirstThinkingContent : Bool
  sendLastThinkingContent : Bool
  hasSentThinkingContent : Bool
  deriving DecidableEq

/-- `Adaptor.Init`. -/
def ThinkingContentInfo.start : ThinkingContentInfo := ⟨true, false, false⟩

def content (chunk : Chunk) : String :=
  (chunk.choice.map fun choice => choice.delta.getContentString).getD ""

def reasoning (chunk : Chunk) : String :=
  (chunk.choice.map fun choice => choice.delta.getReasoningContent).getD ""

def toolCalls (chunk : Chunk) : List ToolCallResponse :=
  (chunk.choice.map fun choice => choice.delta.toolCalls).getD []

/-- The chunk with another delta. -/
def onDelta (f : ChunkDelta → ChunkDelta) (chunk : Chunk) : Chunk :=
  { chunk with choice := chunk.choice.map fun choice => { choice with delta := f choice.delta } }

def flush (delta : ChunkDelta) : ChunkDelta :=
  { delta with reasoningContent := none, reasoning := none }

def withContent (text : String) (delta : ChunkDelta) : ChunkDelta :=
  { flush delta with content := some text }

/-- The transition from thinking to content, which closes the tag once. -/
def Closes (info : ThinkingContentInfo) (chunk : Chunk) : Prop :=
  content chunk ≠ "" ∧ info.sendLastThinkingContent = false ∧ info.hasSentThinkingContent = true

instance (info : ThinkingContentInfo) (chunk : Chunk) : Decidable (Closes info chunk) :=
  inferInstanceAs (Decidable (_ ∧ _ ∧ _))

/-- What is sent for a chunk of one choice. -/
def sendStreamData (info : ThinkingContentInfo) (chunk : Chunk) :
    ThinkingContentInfo × List Chunk :=
  let hasThinkingContent := reasoning chunk ≠ ""
  let hasContent := content chunk ≠ ""
  if info.isFirstThinkingContent = true ∧ hasThinkingContent then
    ({ info with isFirstThinkingContent := false, hasSentThinkingContent := true },
      [onDelta (withContent ("<think>\n" ++ reasoning chunk)) chunk])
  else if chunk.choice = none then (info, [chunk])
  else
    let sent := if hasThinkingContent then onDelta (withContent (reasoning chunk)) chunk
      else if ¬ hasContent then onDelta flush chunk
      else chunk
    if Closes info chunk then
      ({ info with sendLastThinkingContent := true },
        [onDelta (withContent "\n</think>\n") chunk, sent])
    else (info, [sent])

/-- The calls for the chunks of a stream. -/
def sendStream : ThinkingContentInfo → List Chunk → List Chunk
  | _, [] => []
  | info, chunk :: chunks =>
    (sendStreamData info chunk).2 ++ sendStream (sendStreamData info chunk).1 chunks

/-! ## What is promised -/

def contents (chunks : List Chunk) : String := String.join (chunks.map content)

def reasonings (chunks : List Chunk) : String := String.join (chunks.map reasoning)

/-- All reasoning comes before all content and tool calls; one chunk may have both. -/
def ReasoningFirst (chunks : List Chunk) : Prop :=
  chunks.Pairwise fun earlier later =>
    reasoning later ≠ "" → content earlier = "" ∧ toolCalls earlier = []

/-- The reasoning between two tags, of which the second stands alone, and then the content and
the tool calls. -/
structure Tagged (chunks sent : List Chunk) : Prop where
  split : ∃ before tag after, sent = before ++ tag :: after ∧
    contents before = "<think>\n" ++ reasonings chunks ∧ content tag = "\n</think>\n" ∧
    contents after = contents chunks ∧ ∀ chunk ∈ before ++ [tag], toolCalls chunk = []

/-- **Faithful**: tags are around the reasoning if there is one, and no content is lost. -/
def Faithful (chunks : List Chunk) : Prop :=
  let sent := sendStream .start chunks
  if reasonings chunks = "" then sent.map content = chunks.map content else Tagged chunks sent

/-- The first chunk that has content or tool calls. -/
def firstAnswer (chunks : List Chunk) : Option Chunk :=
  chunks.find? fun chunk => content chunk ≠ "" || toolCalls chunk ≠ []

/-! ## One chunk -/

variable {info : ThinkingContentInfo} {chunk : Chunk} {chunks : List Chunk}

/-- What the client sees of a chunk. -/
def shown (chunk : Chunk) : String × List ToolCallResponse := (content chunk, toolCalls chunk)

/-- What is sent for a chunk without tags: its reasoning, or else its content. -/
def own (chunk : Chunk) : String := if reasoning chunk ≠ "" then reasoning chunk else content chunk

theorem choice_ne_none_of_content (h : content chunk ≠ "") : chunk.choice ≠ none := by
  intro hnone
  unfold content at h
  rw [hnone] at h
  exact h rfl

theorem choice_ne_none_of_reasoning (h : reasoning chunk ≠ "") : chunk.choice ≠ none := by
  intro hnone
  unfold reasoning at h
  rw [hnone] at h
  exact h rfl

theorem shown_withContent (text : String) (h : chunk.choice ≠ none) :
    shown (onDelta (withContent text) chunk) = (text, toolCalls chunk) := by
  obtain ⟨choice, hchoice⟩ := Option.ne_none_iff_exists'.mp h
  unfold shown content toolCalls onDelta
  rw [hchoice]
  rfl

theorem shown_flush : shown (onDelta flush chunk) = shown chunk := by
  unfold shown content toolCalls onDelta
  cases chunk.choice with
  | none => rfl
  | some choice => rfl

theorem sendStreamData_first (hfirst : info.isFirstThinkingContent = true)
    (hreasoning : reasoning chunk ≠ "") :
    (sendStreamData info chunk).1 = ⟨false, info.sendLastThinkingContent, true⟩ ∧
      (sendStreamData info chunk).2.map shown =
        [("<think>\n" ++ reasoning chunk, toolCalls chunk)] := by
  unfold sendStreamData
  dsimp only
  rw [if_pos ⟨hfirst, hreasoning⟩]
  refine ⟨rfl, ?_⟩
  rw [List.map_singleton, shown_withContent _ (choice_ne_none_of_reasoning hreasoning)]

/-- What is sent at the place of the chunk itself. -/
theorem shown_sent (chunk : Chunk) :
    shown (if reasoning chunk ≠ "" then onDelta (withContent (reasoning chunk)) chunk
      else if ¬ content chunk ≠ "" then onDelta flush chunk else chunk) =
      (own chunk, toolCalls chunk) := by
  unfold own
  by_cases hreasoning : reasoning chunk ≠ ""
  · rw [if_pos hreasoning, if_pos hreasoning,
      shown_withContent _ (choice_ne_none_of_reasoning hreasoning)]
  · rw [if_neg hreasoning, if_neg hreasoning]
    split
    · exact shown_flush
    · rfl

theorem sendStreamData_closes
    (hfirst : ¬ (info.isFirstThinkingContent = true ∧ reasoning chunk ≠ ""))
    (hcloses : Closes info chunk) :
    (sendStreamData info chunk).1 = { info with sendLastThinkingContent := true } ∧
      (sendStreamData info chunk).2.map shown =
        [("\n</think>\n", toolCalls chunk), (own chunk, toolCalls chunk)] := by
  have hchoice := choice_ne_none_of_content hcloses.1
  unfold sendStreamData
  dsimp only
  rw [if_neg hfirst, if_neg hchoice, if_pos hcloses]
  refine ⟨rfl, ?_⟩
  rw [List.map_cons, List.map_singleton, shown_withContent _ hchoice, shown_sent]

theorem sendStreamData_plain
    (hfirst : ¬ (info.isFirstThinkingContent = true ∧ reasoning chunk ≠ ""))
    (hcloses : ¬ Closes info chunk) :
    (sendStreamData info chunk).1 = info ∧
      (sendStreamData info chunk).2.map shown = [(own chunk, toolCalls chunk)] := by
  unfold sendStreamData
  dsimp only
  rw [if_neg hfirst]
  by_cases hchoice : chunk.choice = none
  · rw [if_pos hchoice]
    have hreasoning : reasoning chunk = "" := by
      unfold reasoning
      rw [hchoice]
      rfl
    refine ⟨rfl, ?_⟩
    rw [List.map_singleton, own, if_neg (not_not.mpr hreasoning)]
    rfl
  · rw [if_neg hchoice, if_neg hcloses]
    refine ⟨rfl, ?_⟩
    rw [List.map_singleton, shown_sent]

/-! ## A stream -/

/-- What is remembered after the chunks. -/
def infoAfter (info : ThinkingContentInfo) (chunks : List Chunk) : ThinkingContentInfo :=
  chunks.foldl (fun info chunk => (sendStreamData info chunk).1) info

theorem sendStream_append (info : ThinkingContentInfo) (chunks later : List Chunk) :
    sendStream info (chunks ++ later) =
      sendStream info chunks ++ sendStream (infoAfter info chunks) later := by
  induction chunks generalizing info with
  | nil => rfl
  | cons chunk chunks ih =>
    rw [List.cons_append, sendStream, sendStream, ih, List.append_assoc]
    rfl

theorem contents_append (l l' : List Chunk) : contents (l ++ l') = contents l ++ contents l' := by
  unfold contents
  rw [List.map_append, String.join_append]

theorem reasonings_cons (chunk : Chunk) (chunks : List Chunk) :
    reasonings (chunk :: chunks) = reasoning chunk ++ reasonings chunks := String.join_cons

theorem of_shown {l : List Chunk} {x : List (String × List ToolCallResponse)}
    (h : l.map shown = x) :
    contents l = String.join (x.map Prod.fst) ∧ l.map toolCalls = x.map Prod.snd := by
  rw [← h, List.map_map, List.map_map]
  exact ⟨rfl, rfl⟩

theorem own_of_no_content (h : content chunk = "") : own chunk = reasoning chunk := by
  unfold own
  by_cases hreasoning : reasoning chunk ≠ ""
  · exact if_pos hreasoning
  · rw [if_neg hreasoning, h, not_not.mp hreasoning]

/-- Before there is content the reasoning is sent as it is, once the tag is open. -/
theorem sendStream_open (hfirst : info.isFirstThinkingContent = false)
    (h : ∀ chunk ∈ chunks, content chunk = "") :
    contents (sendStream info chunks) = reasonings chunks ∧ infoAfter info chunks = info ∧
      (sendStream info chunks).map toolCalls = chunks.map toolCalls := by
  induction chunks with
  | nil => exact ⟨rfl, rfl, rfl⟩
  | cons chunk chunks ih =>
    rw [List.forall_mem_cons] at h
    obtain ⟨hcontents, hinfo, htools⟩ := ih h.2
    have hno : ¬ (info.isFirstThinkingContent = true ∧ reasoning chunk ≠ "") := by
      rw [hfirst]
      exact fun h => Bool.false_ne_true h.1
    obtain ⟨hsame, hshown⟩ := sendStreamData_plain hno fun hcloses => hcloses.1 h.1
    obtain ⟨hone, hcalls⟩ := of_shown hshown
    rw [sendStream, contents_append, hsame, hone, hcontents, reasonings_cons, List.map_append,
      hcalls, htools]
    refine ⟨?_, ?_, rfl⟩
    · rw [List.map_singleton, join_singleton, own_of_no_content h.1]
    · show infoAfter (sendStreamData info chunk).1 chunks = info
      rw [hsame, hinfo]

/-- The first reasoning is sent behind the opening tag. -/
theorem sendStream_thinking (h : ∀ chunk ∈ chunks, content chunk = "") :
    contents (sendStream .start chunks) =
        (if reasonings chunks ≠ "" then "<think>\n" else "") ++ reasonings chunks ∧
      infoAfter .start chunks =
        (if reasonings chunks ≠ "" then ⟨false, false, true⟩ else .start) ∧
      (sendStream .start chunks).map toolCalls = chunks.map toolCalls := by
  induction chunks with
  | nil => exact ⟨rfl, rfl, rfl⟩
  | cons chunk chunks ih =>
    rw [List.forall_mem_cons] at h
    by_cases hreasoning : reasoning chunk ≠ ""
    · obtain ⟨hinfo', hshown⟩ := @sendStreamData_first .start chunk rfl hreasoning
      obtain ⟨hone, hcalls⟩ := of_shown hshown
      obtain ⟨hcontents, hinfo, htools⟩ :=
        @sendStream_open ⟨false, false, true⟩ chunks rfl h.2
      have hne : reasonings (chunk :: chunks) ≠ "" := by
        rw [reasonings_cons]
        exact fun hempty => hreasoning (String.append_eq_empty_iff.mp hempty).1
      rw [if_pos hne, if_pos hne, sendStream, hinfo', contents_append, hone, List.map_append,
        hcalls]
      refine ⟨?_, ?_, congrArg (toolCalls chunk :: ·) htools⟩
      · rw [List.map_singleton, join_singleton, reasonings_cons, String.append_assoc]
        exact congrArg _ (congrArg _ hcontents)
      · show infoAfter (sendStreamData .start chunk).1 chunks = _
        rw [hinfo']
        exact hinfo
    · obtain ⟨hcontents, hinfo, htools⟩ := ih h.2
      have hempty := not_not.mp hreasoning
      obtain ⟨hsame, hshown⟩ := @sendStreamData_plain .start chunk
        (fun hfirst => hreasoning hfirst.2) fun hcloses => hcloses.1 h.1
      obtain ⟨hone, hcalls⟩ := of_shown hshown
      have hjoin : reasonings (chunk :: chunks) = reasonings chunks := by
        rw [reasonings_cons, hempty, String.empty_append]
      rw [hjoin, sendStream, contents_append, hsame, hone, hcontents, List.map_append, hcalls,
        htools]
      refine ⟨?_, ?_, rfl⟩
      · rw [List.map_singleton, join_singleton, own_of_no_content h.1, hempty, String.empty_append]
      · show infoAfter (sendStreamData .start chunk).1 chunks = _
        rw [hsame, hinfo]

/-- Where no tag is to be closed, content is sent as it is. -/
theorem sendStream_answer
    (hclosed : ¬ (info.sendLastThinkingContent = false ∧ info.hasSentThinkingContent = true))
    (h : ∀ chunk ∈ chunks, reasoning chunk = "") :
    (sendStream info chunks).map content = chunks.map content := by
  induction chunks with
  | nil => rfl
  | cons chunk chunks ih =>
    rw [List.forall_mem_cons] at h
    obtain ⟨hsame, hshown⟩ := @sendStreamData_plain info chunk
      (fun hfirst => hfirst.2 h.1) fun hcloses => hclosed hcloses.2
    have hcontent : (sendStreamData info chunk).2.map content = [content chunk] := by
      have hmap := congrArg (List.map Prod.fst) hshown
      rw [List.map_map, List.map_singleton, own, if_neg (not_not.mpr h.1)] at hmap
      exact hmap
    rw [sendStream, List.map_append, hcontent, hsame, ih h.2]
    rfl

/-! ## How much is sent -/

/-- The letters of the tags that may still be sent. -/
def budget (info : ThinkingContentInfo) : ℕ :=
  (if info.isFirstThinkingContent = true then 8 else 0) +
    if info.sendLastThinkingContent = true then 0 else 10

theorem length_sendStreamData_le (info : ThinkingContentInfo) (chunk : Chunk) :
    (contents (sendStreamData info chunk).2).length + budget (sendStreamData info chunk).1 ≤
      budget info + (own chunk).length := by
  by_cases hfirst : info.isFirstThinkingContent = true ∧ reasoning chunk ≠ ""
  · obtain ⟨hinfo, hshown⟩ := sendStreamData_first hfirst.1 hfirst.2
    rw [(of_shown hshown).1, hinfo, List.map_singleton, join_singleton, String.length_append,
      own, if_pos hfirst.2]
    have hlength : "<think>\n".length = 8 := rfl
    simp only [budget, hfirst.1, hlength, if_true, Bool.false_eq_true, if_false]
    omega
  · by_cases hcloses : Closes info chunk
    · obtain ⟨hinfo, hshown⟩ := sendStreamData_closes hfirst hcloses
      rw [(of_shown hshown).1, hinfo, List.map_cons, List.map_singleton, String.join_cons,
        join_singleton, String.length_append]
      have hlength : "\n</think>\n".length = 10 := rfl
      simp only [budget, hcloses.2.1, hlength, if_true, Bool.false_eq_true, if_false]
      omega
    · obtain ⟨hinfo, hshown⟩ := sendStreamData_plain hfirst hcloses
      rw [(of_shown hshown).1, hinfo, List.map_singleton, join_singleton]
      dsimp only
      omega

/-- No more is sent than the tags and what each chunk sends of its own. -/
theorem length_sendStream_le (info : ThinkingContentInfo) (chunks : List Chunk) :
    (contents (sendStream info chunks)).length ≤
      budget info + (chunks.map fun chunk => (own chunk).length).sum := by
  induction chunks generalizing info with
  | nil => exact Nat.zero_le _
  | cons chunk chunks ih =>
    have hstep := length_sendStreamData_le info chunk
    have hrest := ih (sendStreamData info chunk).1
    rw [sendStream, contents_append, String.length_append, List.map_cons, List.sum_cons]
    omega

theorem length_own_le (chunk : Chunk) :
    (own chunk).length ≤ (reasoning chunk).length + (content chunk).length := by
  unfold own
  split
  · exact Nat.le_add_right _ _
  · exact Nat.le_add_left _ _

theorem sum_own_le (chunks : List Chunk) : (chunks.map fun chunk => (own chunk).length).sum ≤
    (reasonings chunks).length + (contents chunks).length := by
  induction chunks with
  | nil => exact Nat.zero_le _
  | cons chunk chunks ih =>
    have hone := length_own_le chunk
    rw [List.map_cons, List.sum_cons, reasonings_cons, contents, List.map_cons, String.join_cons,
      String.length_append, String.length_append]
    change _ ≤ (reasonings chunks).length + (contents chunks).length at ih
    unfold contents at ih
    omega

/-- A chunk that has both loses its content. -/
theorem sum_own_lt {x : Chunk} (hx : x ∈ chunks) (hreasoning : reasoning x ≠ "")
    (hcontent : content x ≠ "") : (chunks.map fun chunk => (own chunk).length).sum <
      (reasonings chunks).length + (contents chunks).length := by
  obtain ⟨before, after, rfl⟩ := List.append_of_mem hx
  have hbefore := sum_own_le before
  have hafter := sum_own_le after
  have hlost : (own x).length < (reasoning x).length + (content x).length := by
    rw [own, if_pos hreasoning]
    have hpos : 0 < (content x).length := Nat.pos_of_ne_zero (by simpa using hcontent)
    omega
  unfold contents reasonings at *
  simp only [List.map_append, List.map_cons, String.join_append, String.join_cons,
    String.length_append, List.sum_append, List.sum_cons]
  omega

theorem length_tags {before : List Chunk} {tag : Chunk} {text : String}
    (hbefore : contents before = "<think>\n" ++ text) (htag : content tag = "\n</think>\n") :
    (contents (before ++ [tag])).length = 18 + text.length := by
  have hclose : contents [tag] = "\n</think>\n" := by
    rw [contents, List.map_singleton, join_singleton, htag]
  rw [contents_append, hbefore, hclose]
  simp only [String.length_append]
  have hlength : "<think>\n".length = 8 := rfl
  have hlength' : "\n</think>\n".length = 10 := rfl
  omega

theorem Tagged.length {sent : List Chunk} (h : Tagged chunks sent) :
    (contents sent).length = 18 + (reasonings chunks).length + (contents chunks).length := by
  obtain ⟨before, tag, after, rfl, hbefore, htag, hafter, -⟩ := h.split
  rw [← List.singleton_append, ← List.append_assoc, contents_append, String.length_append,
    length_tags hbefore htag, hafter]

/-! ## The stream around the first answer -/

/-- What is known of the first chunk that has content or tool calls. -/
theorem firstAnswer_split {x : Chunk} (h : firstAnswer chunks = some x) :
    ∃ before after, chunks = before ++ x :: after ∧
      (∀ chunk ∈ before, content chunk = "" ∧ toolCalls chunk = []) ∧
      (content x ≠ "" ∨ toolCalls x ≠ []) := by
  obtain ⟨hx, before, after, rfl, hbefore⟩ := List.find?_eq_some_iff_append.mp h
  refine ⟨before, after, rfl, fun chunk hchunk => ?_, by simpa using hx⟩
  have hnot := hbefore chunk hchunk
  simpa using hnot

theorem reasonings_eq_empty_of (h : ∀ chunk ∈ chunks, reasoning chunk = "") :
    reasonings chunks = "" := by
  unfold reasonings
  rw [join_eq_empty_iff]
  intro text htext
  obtain ⟨chunk, hchunk, rfl⟩ := List.mem_map.mp htext
  exact h chunk hchunk

/-- Reasoning ends with the first answer. -/
theorem reasoning_after {before after : List Chunk} {x : Chunk}
    (hfirst : ReasoningFirst (before ++ x :: after)) (hx : content x ≠ "" ∨ toolCalls x ≠ []) :
    ∀ chunk ∈ after, reasoning chunk = "" := by
  intro chunk hchunk
  by_contra hreasoning
  have hpair := (List.pairwise_append.mp hfirst).2.1
  obtain ⟨hcontent, htools⟩ := (List.pairwise_cons.mp hpair).1 chunk hchunk hreasoning
  exact hx.elim (fun h => h hcontent) fun h => h htools

theorem contents_of_no_content (h : ∀ chunk ∈ chunks, content chunk = "") :
    contents chunks = "" := by
  unfold contents
  rw [join_eq_empty_iff]
  intro text htext
  obtain ⟨chunk, hchunk, rfl⟩ := List.mem_map.mp htext
  exact h chunk hchunk

/-- The tag is closed at a first answer that is content alone. -/
theorem tagged_of_content {before after : List Chunk} {x : Chunk}
    (hbefore : ∀ chunk ∈ before, content chunk = "" ∧ toolCalls chunk = [])
    (hafter : ∀ chunk ∈ after, reasoning chunk = "")
    (hthinking : reasonings (before ++ x :: after) ≠ "") (hcontent : content x ≠ "")
    (hreasoning : reasoning x = "") (htools : toolCalls x = []) :
    Tagged (before ++ x :: after) (sendStream .start (before ++ x :: after)) := by
  have hall : reasonings (before ++ x :: after) = reasonings before := by
    unfold reasonings
    rw [List.map_append, String.join_append, List.map_cons, String.join_cons, hreasoning,
      String.empty_append]
    have hnone : String.join (after.map reasoning) = "" := reasonings_eq_empty_of hafter
    rw [hnone, String.append_empty]
  rw [hall] at hthinking
  obtain ⟨hcontents, hinfo, hcalls⟩ := sendStream_thinking fun chunk h => (hbefore chunk h).1
  rw [if_pos hthinking] at hcontents hinfo
  obtain ⟨hclosed, hshown⟩ := @sendStreamData_closes ⟨false, false, true⟩ x
    (fun h => Bool.false_ne_true h.1) ⟨hcontent, rfl, rfl⟩
  obtain ⟨tag, sent, hsent⟩ : ∃ tag sent,
      (sendStreamData ⟨false, false, true⟩ x).2 = [tag, sent] := by
    have hlength := congrArg List.length hshown
    rw [List.length_map] at hlength
    exact List.length_eq_two.mp hlength
  rw [hsent, List.map_cons, List.map_singleton, List.cons.injEq, List.cons.injEq] at hshown
  obtain ⟨htag, hown, -⟩ := hshown
  have hrest := @sendStream_answer ⟨false, true, true⟩ after (fun h => Bool.false_ne_true h.1.symm)
    hafter
  have hsilent := contents_of_no_content fun chunk h => (hbefore chunk h).1
  refine ⟨sendStream .start before, tag, sent :: sendStream ⟨false, true, true⟩ after, ?_, ?_, ?_,
    ?_, ?_⟩
  · rw [sendStream_append, hinfo, sendStream, hclosed, hsent]
    rfl
  · rw [hcontents, hall]
  · exact congrArg Prod.fst htag
  · have hsentOwn : content sent = content x := by
      rw [own, if_neg (not_not.mpr hreasoning)] at hown
      exact congrArg Prod.fst hown
    rw [contents_append, hsilent, String.empty_append, contents, contents, List.map_cons, hrest,
      hsentOwn, List.map_cons]
  · rw [List.forall_mem_append, List.forall_mem_singleton]
    refine ⟨fun message hmessage => ?_, (congrArg Prod.snd htag).trans htools⟩
    have hmem := List.mem_map_of_mem (f := toolCalls) hmessage
    rw [hcalls] at hmem
    obtain ⟨chunk, hchunk, heq⟩ := List.mem_map.mp hmem
    exact heq.symm.trans (hbefore chunk hchunk).2

/-- Every message for a chunk repeats its tool calls. -/
theorem toolCalls_sendStreamData (info : ThinkingContentInfo) (chunk : Chunk) :
    ∃ y ys, (sendStreamData info chunk).2 = y :: ys ∧ toolCalls y = toolCalls chunk := by
  have hmap : ∃ text ys, (sendStreamData info chunk).2.map shown =
      (text, toolCalls chunk) :: ys := by
    by_cases hfirst : info.isFirstThinkingContent = true ∧ reasoning chunk ≠ ""
    · exact ⟨_, _, (sendStreamData_first hfirst.1 hfirst.2).2⟩
    · by_cases hcloses : Closes info chunk
      · exact ⟨_, _, (sendStreamData_closes hfirst hcloses).2⟩
      · exact ⟨_, _, (sendStreamData_plain hfirst hcloses).2⟩
  obtain ⟨text, ys, hmap⟩ := hmap
  obtain ⟨y, ys', hsent, hy, -⟩ := List.map_eq_cons_iff.mp hmap
  exact ⟨y, ys', hsent, congrArg Prod.snd hy⟩

/-- No tag is closed before the tool calls of a first answer. -/
theorem not_tagged_of_toolCalls {before after : List Chunk} {x : Chunk}
    (hbefore : ∀ chunk ∈ before, content chunk = "" ∧ toolCalls chunk = [])
    (htools : toolCalls x ≠ []) :
    ¬ Tagged (before ++ x :: after) (sendStream .start (before ++ x :: after)) := by
  intro h
  obtain ⟨opened, tag, rest, hsent, hopened, htag, -, hnone⟩ := h.split
  obtain ⟨hcontents, -, -⟩ := sendStream_thinking fun chunk h => (hbefore chunk h).1
  obtain ⟨y, ys, hone, hy⟩ := toolCalls_sendStreamData (infoAfter .start before) x
  rw [sendStream_append, sendStream, hone, List.cons_append, List.append_cons opened] at hsent
  -- The messages before the tool calls are too short for both tags.
  have hshort : (contents (sendStream .start before)).length <
      (contents (opened ++ [tag])).length := by
    rw [length_tags hopened htag, hcontents]
    unfold reasonings
    rw [List.map_append, String.join_append, String.length_append, String.length_append]
    have hlength : "<think>\n".length = 8 := rfl
    split
    · omega
    · rw [String.length_empty]
      omega
  obtain ⟨between, hpast, htail⟩ | ⟨more, hwithin, -⟩ := List.append_eq_append_iff.mp hsent
  · cases between with
    | nil => rw [hpast, List.append_nil] at hshort; exact lt_irrefl _ hshort
    | cons first between =>
      rw [List.cons_append, List.cons.injEq] at htail
      have hmem : y ∈ opened ++ [tag] := by
        rw [hpast, htail.1]
        exact List.mem_append_right _ (List.mem_cons_self ..)
      exact htools (hy.symm.trans (hnone y hmem))
  · rw [hwithin, contents_append, String.length_append] at hshort
    omega

/-- No tag is closed in a stream without an answer. -/
theorem not_tagged_of_none (h : firstAnswer chunks = none) :
    ¬ Tagged chunks (sendStream .start chunks) := by
  intro htagged
  have hnone : ∀ chunk ∈ chunks, content chunk = "" := by
    intro chunk hchunk
    have hnot := List.find?_eq_none.mp h chunk hchunk
    simp only [Bool.or_eq_true, decide_eq_true_eq, not_or, not_not] at hnot
    exact hnot.1
  have hlength := htagged.length
  rw [(sendStream_thinking hnone).1, String.length_append] at hlength
  have htag : "<think>\n".length = 8 := rfl
  split at hlength
  · omega
  · rw [String.length_empty] at hlength
    omega

/-- A first answer that still has reasoning is not sent whole. -/
theorem not_tagged_of_both {x : Chunk} (hx : x ∈ chunks) (hreasoning : reasoning x ≠ "")
    (hcontent : content x ≠ "") : ¬ Tagged chunks (sendStream .start chunks) := by
  intro htagged
  have hlength := htagged.length
  have hle := length_sendStream_le .start chunks
  have hlt := sum_own_lt hx hreasoning hcontent
  have hbudget : budget .start = 18 := rfl
  omega

/-! ## When thinking is sent faithfully -/

theorem reasonings_eq_empty_iff :
    reasonings chunks = "" ↔ ∀ chunk ∈ chunks, reasoning chunk = "" := by
  unfold reasonings
  rw [join_eq_empty_iff, List.forall_mem_map]

/-- **Thinking is sent faithfully** exactly if there is none, or if the first chunk with content
or tool calls has content alone. -/
theorem faithful_iff (chunks : List Chunk) (h : ReasoningFirst chunks) :
    Faithful chunks ↔ reasonings chunks = "" ∨ ∃ x, firstAnswer chunks = some x ∧
      content x ≠ "" ∧ reasoning x = "" ∧ toolCalls x = [] := by
  by_cases hnone : reasonings chunks = ""
  · refine iff_of_true ?_ (.inl hnone)
    unfold Faithful
    dsimp only
    rw [if_pos hnone]
    exact sendStream_answer (fun h => Bool.false_ne_true h.2) (reasonings_eq_empty_iff.mp hnone)
  · rw [Faithful, if_neg hnone, or_iff_right hnone]
    constructor
    · intro htagged
      cases hfirst : firstAnswer chunks with
      | none => exact absurd htagged (not_tagged_of_none hfirst)
      | some x =>
        obtain ⟨before, after, rfl, hbefore, hx⟩ := firstAnswer_split hfirst
        have htools : toolCalls x = [] := by
          by_contra hne
          exact not_tagged_of_toolCalls hbefore hne htagged
        have hcontent : content x ≠ "" := hx.resolve_right fun hne => hne htools
        refine ⟨x, rfl, hcontent, ?_, htools⟩
        by_contra hreasoning
        exact not_tagged_of_both (List.mem_append_right _ (List.mem_cons_self ..)) hreasoning
          hcontent htagged
    · rintro ⟨x, hfirst, hcontent, hreasoning, htools⟩
      obtain ⟨before, after, rfl, hbefore, hx⟩ := firstAnswer_split hfirst
      exact tagged_of_content hbefore (reasoning_after h hx) hnone hcontent hreasoning htools

/-- A chunk of an answer with thinking. -/
def thinkingChunk (reasoning content : String) : Chunk where
  id := "chatcmpl-1"
  model := "deepseek-reasoner"
  choice := some ⟨⟨some content, some reasoning, none, []⟩, none⟩
  usage := none

theorem faithful_iff_closed : Faithful [thinkingChunk "I add." "", thinkingChunk "" "4"] :=
  (faithful_iff _ (by unfold ReasoningFirst; decide)).mpr
    (.inr ⟨thinkingChunk "" "4", by decide, by decide, by decide, by decide⟩)

/-- The chunk in which the answer begins still has reasoning, and the answer is lost. -/
theorem answer_is_lost :
    let chunks := [thinkingChunk "I add" "", thinkingChunk "." "4"]
    ReasoningFirst chunks ∧ contents (sendStream .start chunks) = "<think>\nI add\n</think>\n." ∧
      ¬ Faithful chunks := by
  refine ⟨by unfold ReasoningFirst; decide, by decide, fun h => ?_⟩
  rw [Faithful, if_neg (by decide)] at h
  exact not_tagged_of_both (List.mem_cons_of_mem _ (List.mem_singleton_self _)) (by decide)
    (by decide) h

end Convert.ThinkingContent
