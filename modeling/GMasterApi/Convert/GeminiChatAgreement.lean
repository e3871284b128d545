import GMasterApi.Convert.GeminiChatStream
import GMasterApi.Convert.ResponsesStream

/-!
# The stream of a Gemini response and the response

A client puts the deltas of a choice together to a message.  `agrees_iff_convertible` says
when the messages are the choices of the response that `responseGeminiChat2OpenAI` converts
as a whole.
-/

namespace Convert.GeminiChat

open Pieces
open Responses (ToolCall addToolCall)

/-! ## The message of the chunks -/

structure Message where
  reasoning : String
  content : String
  toolCalls : List ToolCall
  /-- The indices that the calls were given. -/
  indices : List (Option ℤ)
  finishReasons : List String
  deriving DecidableEq

def Message.empty : Message := ⟨"", "", [], [], []⟩

def Message.add (message : Message) (choice : StreamChoice) : Message where
  reasoning := message.reasoning ++ choice.delta.getReasoningContent
  content := message.content ++ choice.delta.getContentString
  toolCalls := choice.delta.toolCalls.foldl addToolCall message.toolCalls
  indices := message.indices ++
    (choice.delta.toolCalls.filter fun tool => tool.id ≠ "").map ToolCallResponse.index
  finishReasons := message.finishReasons ++ choice.finishReason.toList

/-- What the deltas of a choice come to. -/
def assemble (index : ℤ) (sent : List (List StreamChoice)) : Message :=
  (sent.flatten.filter fun choice => choice.index = index).foldl Message.add Message.empty

/-! ## Segmented responses -/

/-- A response, and chunks that come to it. -/
structure SegmentedResponse where
  candidates : List Candidate
  chunks : List (List Candidate)
  nodup : (candidates.map Candidate.index).Nodup
  chunks_nodup : ∀ chunk ∈ chunks, (chunk.map Candidate.index).Nodup
  listed : ∀ chunk ∈ chunks, ∀ entry ∈ chunk,
    ∃ candidate ∈ candidates, candidate.index = entry.index
  parts : ∀ candidate ∈ candidates,
    (entries candidate.index chunks).flatMap Candidate.parts = candidate.parts
  finishReason : ∀ candidate ∈ candidates,
    (entries candidate.index chunks).filterMap Candidate.finishReason =
      candidate.finishReason.toList

/-- A candidate's choice, its choice where it is alone, and the message of its deltas. -/
structure SameResult (candidate : Candidate) (whole alone : Choice) (streamed : Message) :
    Prop where
  /-- The reasoning is all thoughts, and nothing else. -/
  reasoning : whole.reasoningContent.getD "" = String.join candidate.thoughts ∧
    streamed.reasoning = String.join candidate.thoughts
  content : letters streamed.content = letters whole.content
  toolCalls : streamed.toolCalls.map (fun call => (call.name, call.arguments)) =
    whole.toolCalls.map fun tool => (tool.name, tool.arguments)
  named : ∀ call ∈ streamed.toolCalls, call.id ≠ ""
  indices : streamed.indices = (List.range whole.toolCalls.length).map fun k : ℕ => some (k : ℤ)
  finishReason : streamed.finishReasons ≠ [] ∧
    ∀ finishReason ∈ streamed.finishReasons, finishReason = whole.finishReason
  /-- No other candidate matters. -/
  alone : whole.reasoningContent = alone.reasoningContent ∧ whole.content = alone.content ∧
    (whole.toolCalls.map fun tool => (tool.name, tool.arguments)) =
      alone.toolCalls.map (fun tool => (tool.name, tool.arguments)) ∧
    whole.finishReason = alone.finishReason

/-- The stream comes to the response, candidate by candidate. -/
def Agrees (engine : Engine) (segmented : SegmentedResponse) : Prop :=
  ∀ (k : ℕ) (candidate : Candidate), segmented.candidates[k]? = some candidate →
    ∃ whole alone, (responseGeminiChat2OpenAI engine segmented.candidates)[k]? = some whole ∧
      responseGeminiChat2OpenAI engine [candidate] = [alone] ∧
      SameResult candidate whole alone
        (assemble candidate.index (geminiChatStreamHandler engine segmented.chunks))

/-! ## When the stream comes to the response -/

/-- The entries whose finish reason is sent. -/
def announced : List (List Candidate) → List Candidate
  | [] => []
  | chunk :: chunks => (if beginsWithCalls chunk then chunk.tail else chunk) ++ chunks.flatten

/-- Calls at the beginning of the first chunk are the only calls of that chunk, and those of
the choice 0. -/
def FirstCalls (chunks : List (List Candidate)) : Prop :=
  ∀ chunk ∈ chunks.head?, beginsWithCalls chunk = true →
    ∀ entry ∈ chunk, entry.hasCalls = true → entry.index = 0

/-- What the thoughts and the answer of a candidate need. -/
structure Separate (candidate : Candidate) (chunks : List (List Candidate)) : Prop where
  /-- Only the last thought says something. -/
  lastThought : ∀ thought ∈ candidate.thoughts.dropLast, thought = ""
  onlyThought : ∀ entry ∈ entries candidate.index chunks, entry.OnlyThought
  images : ∀ part ∈ candidate.parts, part.isDropped = false

/-- What the finish reason of a candidate needs. -/
structure Finishes (candidate : Candidate) (chunks : List (List Candidate)) : Prop where
  /-- Where there are calls, a reason other than `STOP` comes with calls. -/
  withCalls : candidate.hasCalls = true → ∀ entry ∈ entries candidate.index chunks,
    streamFinishReason entry.finishReason ≠ none → entry.hasCalls = true
  /-- A stop that is sent for the choice 0 is right for it. -/
  stops : candidate.index = 0 → ∀ before chunk after, chunks = before ++ chunk :: after →
    isStop chunk = true →
      (before ++ [chunk]).any beginsWithCalls = candidate.hasCalls ∧
        (candidate.hasCalls = false → streamFinishReason candidate.finishReason = none)
  /-- A finish reason is sent at all. -/
  sent : (candidate.index = 0 ∧ ∃ chunk ∈ chunks, isStop chunk = true) ∨
    (∃ entry ∈ announced chunks, entry.index = candidate.index ∧ entry.hasCalls = true) ∨
    (candidate.hasCalls = false ∧ streamFinishReason candidate.finishReason ≠ none)

structure Convertible (segmented : SegmentedResponse) : Prop where
  firstCalls : FirstCalls segmented.chunks
  /-- After a candidate with calls all have calls. -/
  laterCalls : segmented.candidates.Pairwise fun earlier later =>
    earlier.hasCalls = true → later.hasCalls = true
  separate : ∀ candidate ∈ segmented.candidates, Separate candidate segmented.chunks
  finishes : ∀ candidate ∈ segmented.candidates, Finishes candidate segmented.chunks

variable {engine : Engine}

/-! ## Messages -/

theorem foldl_add (choices : List StreamChoice) (message : Message) :
    choices.foldl Message.add message =
      { reasoning := message.reasoning ++
          String.join (choices.map fun choice => choice.delta.getReasoningContent)
        content := message.content ++
          String.join (choices.map fun choice => choice.delta.getContentString)
        toolCalls := (choices.flatMap fun choice => choice.delta.toolCalls).foldl addToolCall
          message.toolCalls
        indices := message.indices ++ ((choices.flatMap fun choice =>
          choice.delta.toolCalls).filter fun tool => tool.id ≠ "").map ToolCallResponse.index
        finishReasons :=
          message.finishReasons ++ choices.filterMap StreamChoice.finishReason } := by
  induction choices generalizing message with
  | nil => simp [String.join_nil]
  | cons choice choices ih =>
    rw [List.foldl_cons, ih]
    simp only [Message.add, List.map_cons, String.join_cons, List.flatMap_cons, List.foldl_append,
      List.filter_append, List.map_append, List.append_assoc, String.append_assoc,
      Message.mk.injEq, true_and]
    cases hfinish : choice.finishReason with
    | none =>
      rw [List.filterMap_cons_none hfinish]
      rfl
    | some finishReason =>
      rw [List.filterMap_cons_some hfinish]
      rfl

/-- What a function of the choices without their calls makes of the stream. -/
theorem map_bareSent (engine : Engine) {α : Type} (f : StreamChoice → α)
    (hf : ∀ choice, f choice = f choice.bare) (i : ℤ) (chunks : List (List Candidate)) :
    (((geminiChatStreamHandler engine chunks).flatten.filter fun choice =>
        choice.index = i).map f) =
      ((bareSent chunks).filter fun choice => choice.index = i).map f := by
  rw [← map_bare_geminiChatStreamHandler engine, List.filter_map, List.map_map]
  exact List.map_congr_left fun choice _ => hf choice

section Texts

/-- What the choices with an index say. -/
def textAt (f : StreamChoice → String) (index : ℤ) (choices : List StreamChoice) : String :=
  String.join ((choices.filter fun choice => choice.index = index).map f)

variable {f : StreamChoice → String} {g : Candidate → String}
  (hbare : ∀ entry, f entry.bare = g entry)
  (hfinish : ∀ choice : StreamChoice, f { choice with finishReason := none } = f choice)
  (hstart : f (generateStartEmptyResponse []) = "")
  (hstop : ∀ finishReason, f (generateStopResponse finishReason) = "")

theorem textAt_append (i : ℤ) (choices choices' : List StreamChoice) :
    textAt f i (choices ++ choices') = textAt f i choices ++ textAt f i choices' := by
  unfold textAt
  rw [List.filter_append, List.map_append, String.join_append]

theorem textAt_eq_empty {i : ℤ} {choices : List StreamChoice}
    (h : ∀ choice ∈ choices, f choice = "") :
    textAt f i choices = "" := by
  unfold textAt
  rw [join_eq_empty_iff]
  intro text htext
  obtain ⟨choice, hchoice, rfl⟩ := List.mem_map.mp htext
  exact h choice (List.mem_filter.mp hchoice).1

include hbare in
theorem textAt_chunk (i : ℤ) (chunk : List Candidate) :
    textAt f i (chunk.map Candidate.bare) =
      String.join ((chunk.filter fun entry => entry.index = i).map g) := by
  unfold textAt
  rw [List.filter_map, List.map_map]
  exact congrArg String.join (List.map_congr_left fun entry _ => hbare entry)

include hfinish in
theorem textAt_clearFinishReason (i : ℤ) (choices : List StreamChoice) :
    textAt f i (clearFinishReason choices) = textAt f i choices := by
  cases choices with
  | nil => rfl
  | cons choice choices =>
    unfold textAt clearFinishReason
    by_cases hi : choice.index = i
    · rw [List.filter_cons_of_pos (by simpa using hi), List.filter_cons_of_pos (by simpa using hi),
        List.map_cons, List.map_cons, hfinish]
    · rw [List.filter_cons_of_neg (by simpa using hi), List.filter_cons_of_neg (by simpa using hi)]

include hstop in
theorem textAt_stopChoices (i : ℤ) (called : Bool) (chunk : List Candidate) :
    textAt f i (stopChoices called chunk) = "" := by
  refine textAt_eq_empty fun choice hchoice => ?_
  unfold stopChoices at hchoice
  split at hchoice
  · rw [List.mem_singleton.mp hchoice]
    exact hstop _
  · cases hchoice

include hbare hstop in
theorem textAt_bareRest (i : ℤ) (chunks : List (List Candidate)) (called : Bool) :
    textAt f i (bareRest called chunks) = String.join ((entries i chunks).map g) := by
  induction chunks generalizing called with
  | nil => rfl
  | cons chunk chunks ih =>
    rw [bareRest, textAt_append, textAt_append, textAt_chunk hbare, textAt_stopChoices hstop, ih,
      String.empty_append, entries_cons, List.map_append, String.join_append]

include hbare hfinish hstart hstop in
theorem textAt_bareSent (i : ℤ) (chunks : List (List Candidate)) :
    textAt f i (bareSent chunks) = String.join ((entries i chunks).map g) := by
  cases chunks with
  | nil => rfl
  | cons chunk chunks =>
    have hfirst : textAt f i (if beginsWithCalls chunk then
        clearFinishReason (chunk.map Candidate.bare) else chunk.map Candidate.bare) =
          textAt f i (chunk.map Candidate.bare) := by
      split
      · exact textAt_clearFinishReason hfinish i _
      · rfl
    have hempty : textAt f i [generateStartEmptyResponse []] = "" :=
      textAt_eq_empty fun choice hchoice => by rw [List.mem_singleton.mp hchoice, hstart]
    rw [bareSent, ← List.singleton_append, textAt_append, textAt_append, textAt_append, hempty,
      hfirst,
      textAt_chunk hbare, textAt_stopChoices hstop, textAt_bareRest hbare hstop,
      String.empty_append, String.empty_append, entries_cons, List.map_append, String.join_append]

end Texts

theorem reasoning_assemble (i : ℤ) (chunks : List (List Candidate)) :
    (assemble i (geminiChatStreamHandler engine chunks)).reasoning =
      String.join ((entries i chunks).map Candidate.thoughtText) := by
  unfold assemble
  rw [foldl_add, ← textAt_bareSent (f := fun choice => choice.delta.getReasoningContent)
    (g := Candidate.thoughtText) ?_ (fun _ => rfl) rfl (fun _ => rfl)]
  · rw [map_bareSent engine (fun choice => choice.delta.getReasoningContent) (fun _ => rfl)]
    exact String.empty_append
  · intro entry
    unfold Candidate.thoughtText Candidate.bare ChunkDelta.getReasoningContent
    by_cases h : entry.isThought = true
    · simp only [h, if_true]
    · simp only [h, Bool.false_eq_true, if_false]
      rfl

theorem content_assemble (i : ℤ) (chunks : List (List Candidate)) :
    (assemble i (geminiChatStreamHandler engine chunks)).content =
      String.join ((entries i chunks).map Candidate.answerText) := by
  unfold assemble
  rw [foldl_add, ← textAt_bareSent (f := fun choice => choice.delta.getContentString)
    (g := Candidate.answerText) ?_ (fun _ => rfl) rfl (fun _ => rfl)]
  · rw [map_bareSent engine (fun choice => choice.delta.getContentString) (fun _ => rfl)]
    exact String.empty_append
  · intro entry
    unfold Candidate.answerText Candidate.bare ChunkDelta.getContentString
    by_cases h : entry.isThought = true
    · simp only [h, if_true]
      rfl
    · simp only [h, Bool.false_eq_true, if_false]
      rfl

/-! ## Finish reasons -/

theorem mem_stopChoices {called : Bool} {chunk : List Candidate} {choice : StreamChoice} :
    choice ∈ stopChoices called chunk ↔
      isStop chunk = true ∧ generateStopResponse (sharedFinish called) = choice := by
  unfold stopChoices
  split
  · rename_i h
    rw [List.mem_singleton]
    exact ⟨fun heq => ⟨h, heq.symm⟩, fun heq => heq.2.symm⟩
  · rename_i h
    exact ⟨fun hmem => absurd hmem List.not_mem_nil, fun heq => absurd heq.1 h⟩

/-- What is sent after the choices of a chunk. -/
theorem mem_stops_rest (chunks : List (List Candidate)) :
    ∀ (called : Bool) (chunk : List Candidate) (choice : StreamChoice),
      choice ∈ stopChoices (called || beginsWithCalls chunk) chunk ++
          bareRest (called || beginsWithCalls chunk) chunks ↔
        (∃ entry ∈ chunks.flatten, entry.bare = choice) ∨
        ∃ before last after, chunk :: chunks = before ++ last :: after ∧ isStop last = true ∧
          generateStopResponse (sharedFinish (called ||
            (before ++ [last]).any beginsWithCalls)) = choice := by
  have hany : ∀ chunk : List Candidate, ([] ++ [chunk]).any beginsWithCalls =
      beginsWithCalls chunk := fun chunk => Bool.or_false _
  induction chunks with
  | nil =>
    intro called chunk choice
    rw [bareRest, List.append_nil, mem_stopChoices]
    constructor
    · rintro ⟨h, rfl⟩
      exact .inr ⟨[], chunk, [], rfl, h, by rw [hany]⟩
    · rintro (⟨entry, hentry, -⟩ | ⟨before, last, after, heq, h, rfl⟩)
      · cases hentry
      · cases before with
        | nil =>
          cases heq
          exact ⟨h, by rw [hany]⟩
        | cons first before =>
          cases before with
          | nil => cases heq
          | cons second before => cases heq
  | cons next chunks ih =>
    intro called chunk choice
    rw [bareRest, List.mem_append, mem_stopChoices, List.mem_append, ih, List.flatten_cons,
      List.mem_map]
    constructor
    · rintro (⟨h, rfl⟩ | ⟨entry, hentry, rfl⟩ | ⟨entry, hentry, rfl⟩ |
        ⟨before, last, after, heq, h, rfl⟩)
      · exact .inr ⟨[], chunk, next :: chunks, rfl, h, by rw [hany]⟩
      · exact .inl ⟨entry, List.mem_append_left _ hentry, rfl⟩
      · exact .inl ⟨entry, List.mem_append_right _ hentry, rfl⟩
      · refine .inr ⟨chunk :: before, last, after, congrArg (chunk :: ·) heq, h, ?_⟩
        rw [List.cons_append, List.any_cons, Bool.or_assoc]
    · rintro (⟨entry, hentry, rfl⟩ | ⟨before, last, after, heq, h, rfl⟩)
      · rcases List.mem_append.mp hentry with hentry | hentry
        · exact .inr (.inl ⟨entry, hentry, rfl⟩)
        · exact .inr (.inr (.inl ⟨entry, hentry, rfl⟩))
      · cases before with
        | nil =>
          cases heq
          exact .inl ⟨h, by rw [hany]⟩
        | cons first before =>
          obtain ⟨rfl, htail⟩ := List.cons_eq_cons.mp heq
          refine .inr (.inr (.inr ⟨before, last, after, htail, h, ?_⟩))
          rw [List.cons_append, List.any_cons, Bool.or_assoc]

/-- A finish reason is sent for a choice, on it or as a stop. -/
def Reports (chunks : List (List Candidate)) (i : ℤ) (finishReason : String) : Prop :=
  (∃ entry ∈ announced chunks, entry.index = i ∧ entry.streamFinish = some finishReason) ∨
  (i = 0 ∧ ∃ before chunk after, chunks = before ++ chunk :: after ∧ isStop chunk = true ∧
    sharedFinish ((before ++ [chunk]).any beginsWithCalls) = finishReason)

theorem mem_finishReasons_bareSent (engine : Engine) (i : ℤ) (chunks : List (List Candidate))
    (finishReason : String) :
    finishReason ∈ (assemble i (geminiChatStreamHandler engine chunks)).finishReasons ↔
      ∃ choice ∈ bareSent chunks, choice.index = i ∧ choice.finishReason = some finishReason := by
  have hmap := map_bareSent engine StreamChoice.finishReason (fun _ => rfl) i chunks
  unfold assemble
  rw [foldl_add]
  show finishReason ∈ [] ++ List.filterMap StreamChoice.finishReason _ ↔ _
  rw [List.nil_append, List.mem_filterMap, ← List.mem_map, hmap, List.mem_map]
  simp only [List.mem_filter, decide_eq_true_eq, and_assoc]

/-- The finish reason of the first entry is cleared where the first chunk begins with calls. -/
theorem mem_first_bare {chunk : List Candidate} {choice : StreamChoice} {finishReason : String}
    (hfinish : choice.finishReason = some finishReason) :
    choice ∈ (if beginsWithCalls chunk then clearFinishReason (chunk.map Candidate.bare)
        else chunk.map Candidate.bare) ↔
      ∃ entry ∈ (if beginsWithCalls chunk then chunk.tail else chunk), entry.bare = choice := by
  split
  · cases chunk with
    | nil =>
      exact ⟨fun h => absurd h List.not_mem_nil, fun ⟨_, h, _⟩ => absurd h List.not_mem_nil⟩
    | cons entry chunk =>
      rw [List.map_cons, clearFinishReason, List.mem_cons, List.tail_cons, List.mem_map]
      constructor
      · rintro (rfl | h)
        · cases hfinish
        · exact h
      · exact .inr
  · exact List.mem_map

/-- The finish reasons that are sent for a choice. -/
theorem mem_finishReasons (engine : Engine) (i : ℤ) (chunks : List (List Candidate))
    (finishReason : String) :
    finishReason ∈ (assemble i (geminiChatStreamHandler engine chunks)).finishReasons ↔
      Reports chunks i finishReason := by
  rw [mem_finishReasons_bareSent]
  unfold Reports
  cases chunks with
  | nil =>
    constructor
    · rintro ⟨choice, hchoice, -⟩
      cases hchoice
    · rintro (⟨entry, hentry, -⟩ | ⟨-, before, chunk, after, heq, -⟩)
      · cases hentry
      · cases before with
        | nil => cases heq
        | cons first before => cases heq
  | cons chunk chunks =>
    have hrest := mem_stops_rest chunks false chunk
    simp only [Bool.false_or] at hrest
    rw [bareSent, announced]
    constructor
    · rintro ⟨choice, hchoice, hi, hfinish⟩
      rcases List.mem_cons.mp hchoice with rfl | hchoice
      · cases hfinish
      · rcases List.mem_append.mp hchoice with hchoice | hchoice
        · obtain ⟨entry, hentry, rfl⟩ := (mem_first_bare hfinish).mp hchoice
          exact .inl ⟨entry, List.mem_append_left _ hentry, hi, hfinish⟩
        · rcases (hrest choice).mp hchoice with ⟨entry, hentry, rfl⟩ |
            ⟨before, last, after, heq, hstop, rfl⟩
          · exact .inl ⟨entry, List.mem_append_right _ hentry, hi, hfinish⟩
          · exact .inr ⟨hi.symm, before, last, after, heq, hstop, Option.some.inj hfinish⟩
    · rintro (⟨entry, hentry, hi, hfinish⟩ | ⟨hi, before, last, after, heq, hstop, hshared⟩)
      · refine ⟨entry.bare, List.mem_cons_of_mem _ (List.mem_append.mpr ?_), hi, hfinish⟩
        rcases List.mem_append.mp hentry with hentry | hentry
        · exact .inl ((mem_first_bare hfinish).mpr ⟨entry, hentry, rfl⟩)
        · exact .inr ((hrest entry.bare).mpr (.inl ⟨entry, hentry, rfl⟩))
      · refine ⟨_, List.mem_cons_of_mem _ (List.mem_append_right _ ((hrest _).mpr
          (.inr ⟨before, last, after, heq, hstop, rfl⟩))), hi.symm, congrArg some hshared⟩

/-! ## The candidates of a stream -/

variable {segmented : SegmentedResponse} {candidate entry : Candidate}

theorem mem_entries {i : ℤ} {chunks : List (List Candidate)} :
    entry ∈ entries i chunks ↔ entry ∈ chunks.flatten ∧ entry.index = i := by
  unfold entries
  rw [List.mem_filter, decide_eq_true_eq]

theorem calls_eq (h : candidate ∈ segmented.candidates) :
    candidate.calls = (entries candidate.index segmented.chunks).flatMap Candidate.calls := by
  unfold Candidate.calls
  rw [← segmented.parts candidate h, List.filterMap_flatMap]

theorem hasCalls_iff (h : candidate ∈ segmented.candidates) : candidate.hasCalls = true ↔
    ∃ entry ∈ entries candidate.index segmented.chunks, entry.hasCalls = true := by
  unfold Candidate.hasCalls
  rw [decide_eq_true_eq, calls_eq h, ne_eq, List.flatMap_eq_nil_iff]
  simp only [decide_eq_true_eq, not_forall, exists_prop, ne_eq]

theorem finishReason_iff (h : candidate ∈ segmented.candidates) (finishReason : String) :
    candidate.finishReason = some finishReason ↔
      ∃ entry ∈ entries candidate.index segmented.chunks,
        entry.finishReason = some finishReason := by
  rw [← Option.mem_toList, ← segmented.finishReason candidate h, List.mem_filterMap]

theorem mem_announced {chunks : List (List Candidate)} (h : entry ∈ announced chunks) :
    entry ∈ chunks.flatten := by
  cases chunks with
  | nil => cases h
  | cons chunk chunks =>
    rw [List.flatten_cons]
    rcases List.mem_append.mp h with h | h
    · refine List.mem_append_left _ ?_
      split at h
      · exact List.mem_of_mem_tail h
      · exact h
    · exact List.mem_append_right _ h

/-- Only an entry with calls is not announced. -/
theorem announced_of_not_hasCalls {chunks : List (List Candidate)} (h : entry ∈ chunks.flatten)
    (hcalls : ¬ entry.hasCalls = true) : entry ∈ announced chunks := by
  cases chunks with
  | nil => cases h
  | cons chunk chunks =>
    rw [List.flatten_cons] at h
    rcases List.mem_append.mp h with h | h
    · refine List.mem_append_left _ ?_
      split
      · rename_i hbegins
        cases chunk with
        | nil => cases h
        | cons first chunk =>
          rcases List.mem_cons.mp h with rfl | h
          · exact absurd hbegins hcalls
          · exact h
      · exact h
    · exact List.mem_append_right _ h

theorem mapFinishReason_ne (finishReason : String) :
    mapFinishReason finishReason ≠ finishReasonToolCalls := by
  unfold mapFinishReason
  split_ifs
  · decide
  · decide
  · decide

theorem ownFinishReason_eq_toolCalls_iff :
    candidate.ownFinishReason = finishReasonToolCalls ↔ candidate.hasCalls = true := by
  unfold Candidate.ownFinishReason
  by_cases h : candidate.hasCalls = true
  · rw [if_pos h]
    exact ⟨fun _ => h, fun _ => rfl⟩
  · rw [if_neg h]
    refine ⟨fun heq => absurd heq ?_, fun hcalls => absurd hcalls h⟩
    cases candidate.finishReason with
    | none => exact by decide
    | some finishReason => exact mapFinishReason_ne finishReason

/-- Without calls, the own reason is a stop exactly where a chunk would not say it. -/
theorem ownFinishReason_eq_stop_iff (h : ¬ candidate.hasCalls = true) :
    candidate.ownFinishReason = finishReasonStop ↔
      streamFinishReason candidate.finishReason = none := by
  unfold Candidate.ownFinishReason streamFinishReason
  rw [if_neg h]
  cases candidate.finishReason with
  | none => exact ⟨fun _ => rfl, fun _ => rfl⟩
  | some finishReason =>
    by_cases hstop : finishReason = "STOP"
    · subst hstop
      exact ⟨fun _ => rfl, fun _ => rfl⟩
    · have hfilter : (some finishReason).filter
          (fun finishReason => decide (finishReason ≠ "STOP")) = some finishReason := by
        simp [hstop]
      rw [hfilter]
      refine ⟨fun heq => absurd heq ?_, fun heq => by cases heq⟩
      show mapFinishReason finishReason ≠ finishReasonStop
      unfold mapFinishReason
      rw [if_neg hstop]
      split
      · decide
      · decide

/-- Without calls, any other reason is what a chunk says. -/
theorem ownFinishReason_of_stream (h : ¬ candidate.hasCalls = true) {finishReason : String}
    (hstream : streamFinishReason candidate.finishReason = some finishReason) :
    candidate.ownFinishReason = finishReason := by
  unfold Candidate.ownFinishReason
  unfold streamFinishReason at hstream
  rw [if_neg h]
  cases hreason : candidate.finishReason with
  | none => rw [hreason] at hstream; cases hstream
  | some reason =>
    rw [hreason] at hstream
    obtain ⟨reason', hfilter, rfl⟩ := Option.map_eq_some_iff.mp hstream
    rw [Option.filter_eq_some_iff] at hfilter
    cases hfilter.1
    rfl

theorem streamFinishReason_eq_some_iff {finishReason : Option String} {sent : String} :
    streamFinishReason finishReason = some sent ↔
      ∃ reason, finishReason = some reason ∧ reason ≠ "STOP" ∧ mapFinishReason reason = sent := by
  unfold streamFinishReason
  rw [Option.map_eq_some_iff]
  simp only [Option.filter_eq_some_iff, decide_eq_true_eq, and_assoc]

/-- An entry says the reason of its candidate. -/
theorem streamFinishReason_entry (h : candidate ∈ segmented.candidates)
    (hentry : entry ∈ entries candidate.index segmented.chunks) {sent : String}
    (hsent : streamFinishReason entry.finishReason = some sent) :
    streamFinishReason candidate.finishReason = some sent := by
  obtain ⟨reason, hreason, hne, hmap⟩ := streamFinishReason_eq_some_iff.mp hsent
  have := (finishReason_iff h reason).mpr ⟨entry, hentry, hreason⟩
  exact streamFinishReason_eq_some_iff.mpr ⟨reason, this, hne, hmap⟩

/-! ### The finish reason of a candidate -/

section Finishes

/-- An entry without calls that says a reason. -/
theorem reports_of_entry (hentry : entry ∈ entries candidate.index segmented.chunks)
    (hcalls : ¬ entry.hasCalls = true) {sent : String}
    (hsent : streamFinishReason entry.finishReason = some sent) :
    Reports segmented.chunks candidate.index sent := by
  obtain ⟨hflat, hi⟩ := mem_entries.mp hentry
  exact .inl ⟨entry, announced_of_not_hasCalls hflat hcalls, hi, (if_neg hcalls).trans hsent⟩

theorem withCalls_of_reports
    (hall : ∀ sent, Reports segmented.chunks candidate.index sent →
      sent = candidate.ownFinishReason)
    (hcalls : candidate.hasCalls = true)
    (hentry : entry ∈ entries candidate.index segmented.chunks)
    (hreason : streamFinishReason entry.finishReason ≠ none) : entry.hasCalls = true := by
  by_contra hno
  obtain ⟨sent, hsent⟩ := Option.ne_none_iff_exists'.mp hreason
  have hown := hall sent (reports_of_entry hentry hno hsent)
  obtain ⟨reason, -, -, rfl⟩ := streamFinishReason_eq_some_iff.mp hsent
  exact mapFinishReason_ne reason (hown.trans (ownFinishReason_eq_toolCalls_iff.mpr hcalls))

theorem stops_of_reports
    (hall : ∀ sent, Reports segmented.chunks candidate.index sent →
      sent = candidate.ownFinishReason)
    (hi : candidate.index = 0) {before : List (List Candidate)} {chunk : List Candidate}
    {after : List (List Candidate)} (heq : segmented.chunks = before ++ chunk :: after)
    (hstop : isStop chunk = true) :
    (before ++ [chunk]).any beginsWithCalls = candidate.hasCalls ∧
      (candidate.hasCalls = false → streamFinishReason candidate.finishReason = none) := by
  have hown := hall _ (.inr ⟨hi, before, chunk, after, heq, hstop, rfl⟩)
  cases hany : (before ++ [chunk]).any beginsWithCalls with
  | true =>
    rw [hany] at hown
    have hcalls := ownFinishReason_eq_toolCalls_iff.mp hown.symm
    exact ⟨hcalls.symm, fun hno => absurd (hcalls.symm.trans hno) Bool.noConfusion⟩
  | false =>
    rw [hany] at hown
    have hno : ¬ candidate.hasCalls = true := by
      intro hcalls
      have := hown.trans (ownFinishReason_eq_toolCalls_iff.mpr hcalls)
      exact absurd this (by decide)
    exact ⟨(Bool.eq_false_iff.mpr hno).symm,
      fun _ => (ownFinishReason_eq_stop_iff hno).mp hown.symm⟩

variable (h : candidate ∈ segmented.candidates)
include h

/-- Where a reason is sent, it is by a stop, with calls, or that of the candidate. -/
theorem sent_of_reports {sent : String} (hsent : Reports segmented.chunks candidate.index sent)
    (hwith : candidate.hasCalls = true → ∀ entry ∈ entries candidate.index segmented.chunks,
      streamFinishReason entry.finishReason ≠ none → entry.hasCalls = true) :
    (candidate.index = 0 ∧ ∃ chunk ∈ segmented.chunks, isStop chunk = true) ∨
      (∃ entry ∈ announced segmented.chunks,
        entry.index = candidate.index ∧ entry.hasCalls = true) ∨
      (candidate.hasCalls = false ∧ streamFinishReason candidate.finishReason ≠ none) := by
  rcases hsent with ⟨entry, hentry, hi, hfinish⟩ | ⟨hi, before, chunk, after, heq, hstop, -⟩
  · by_cases hcalls : entry.hasCalls = true
    · exact .inr (.inl ⟨entry, hentry, hi, hcalls⟩)
    · have hreason : streamFinishReason entry.finishReason = some sent :=
        (if_neg hcalls).symm.trans hfinish
      have hentries := mem_entries.mpr ⟨mem_announced hentry, hi⟩
      have hcandidate := streamFinishReason_entry h hentries hreason
      refine .inr (.inr ⟨Bool.eq_false_iff.mpr fun hc => hcalls ?_, ?_⟩)
      · exact hwith hc entry hentries (hreason ▸ Option.some_ne_none sent)
      · rw [hcandidate]
        exact Option.some_ne_none sent
  · refine .inl ⟨hi, chunk, ?_, hstop⟩
    rw [heq]
    exact List.mem_append_right _ List.mem_cons_self

theorem reports_of_finishes (hfinishes : Finishes candidate segmented.chunks) :
    ∃ sent, Reports segmented.chunks candidate.index sent := by
  rcases hfinishes.sent with ⟨hi, chunk, hchunk, hstop⟩ | ⟨entry, hentry, hi, hcalls⟩ |
    ⟨hno, hreason⟩
  · obtain ⟨before, after, heq⟩ := List.append_of_mem hchunk
    exact ⟨_, .inr ⟨hi, before, chunk, after, heq, hstop, rfl⟩⟩
  · exact ⟨_, .inl ⟨entry, hentry, hi, if_pos hcalls⟩⟩
  · obtain ⟨sent, hsent⟩ := Option.ne_none_iff_exists'.mp hreason
    obtain ⟨reason, heq, hne, hmap⟩ := streamFinishReason_eq_some_iff.mp hsent
    obtain ⟨entry, hentry, hentryReason⟩ := (finishReason_iff h reason).mp heq
    have hcalls : ¬ entry.hasCalls = true := fun hc =>
      Bool.eq_false_iff.mp hno ((hasCalls_iff h).mpr ⟨entry, hentry, hc⟩)
    exact ⟨sent, reports_of_entry hentry hcalls
      (streamFinishReason_eq_some_iff.mpr ⟨reason, hentryReason, hne, hmap⟩)⟩

theorem eq_ownFinishReason_of_reports (hfinishes : Finishes candidate segmented.chunks)
    {sent : String} (hsent : Reports segmented.chunks candidate.index sent) :
    sent = candidate.ownFinishReason := by
  rcases hsent with ⟨entry, hentry, hi, hfinish⟩ | ⟨hi, before, chunk, after, heq, hstop, rfl⟩
  · have hentries := mem_entries.mpr ⟨mem_announced hentry, hi⟩
    by_cases hcalls : entry.hasCalls = true
    · have hc := (hasCalls_iff h).mpr ⟨entry, hentries, hcalls⟩
      have hsent : some finishReasonToolCalls = some sent := (if_pos hcalls).symm.trans hfinish
      cases hsent
      exact (ownFinishReason_eq_toolCalls_iff.mpr hc).symm
    · have hreason : streamFinishReason entry.finishReason = some sent :=
        (if_neg hcalls).symm.trans hfinish
      have hno : ¬ candidate.hasCalls = true := fun hc =>
        hcalls (hfinishes.withCalls hc entry hentries (hreason ▸ Option.some_ne_none sent))
      exact (ownFinishReason_of_stream hno (streamFinishReason_entry h hentries hreason)).symm
  · obtain ⟨hany, hnone⟩ := hfinishes.stops hi before chunk after heq hstop
    rw [hany]
    by_cases hc : candidate.hasCalls = true
    · rw [hc]
      exact (ownFinishReason_eq_toolCalls_iff.mpr hc).symm
    · have hfalse := Bool.eq_false_iff.mpr hc
      rw [hfalse]
      exact ((ownFinishReason_eq_stop_iff hc).mpr (hnone hfalse)).symm

/-- The finish reasons that are sent are that of the candidate. -/
theorem finishes_iff (engine : Engine) :
    ((assemble candidate.index
        (geminiChatStreamHandler engine segmented.chunks)).finishReasons ≠ [] ∧
      ∀ finishReason ∈ (assemble candidate.index
        (geminiChatStreamHandler engine segmented.chunks)).finishReasons,
          finishReason = candidate.ownFinishReason) ↔ Finishes candidate segmented.chunks := by
  have hmem := mem_finishReasons engine candidate.index segmented.chunks
  constructor
  · rintro ⟨hne, hall⟩
    have hreports : ∀ sent, Reports segmented.chunks candidate.index sent →
        sent = candidate.ownFinishReason := fun sent hsent => hall sent ((hmem sent).mpr hsent)
    obtain ⟨sent, hsent⟩ := List.exists_mem_of_ne_nil _ hne
    have hwith : candidate.hasCalls = true →
        ∀ entry ∈ entries candidate.index segmented.chunks,
          streamFinishReason entry.finishReason ≠ none → entry.hasCalls = true :=
      fun hcalls entry hentry => withCalls_of_reports hreports hcalls hentry
    refine ⟨hwith, ?_, sent_of_reports h ((hmem sent).mp hsent) hwith⟩
    intro hi before chunk after heq hstop
    exact stops_of_reports hreports hi heq hstop
  · intro hfinishes
    obtain ⟨sent, hsent⟩ := reports_of_finishes h hfinishes
    refine ⟨List.ne_nil_of_mem ((hmem sent).mpr hsent), fun sent' hsent' => ?_⟩
    exact eq_ownFinishReason_of_reports h hfinishes ((hmem sent').mp hsent')

end Finishes

/-! ## Tool calls -/

def callOf (tool : ToolCallResponse) : ToolCall := ⟨tool.id, tool.name, tool.arguments⟩

/-- A delta with the next index is a call of its own. -/
theorem foldl_indexed (named : List ToolCallResponse) :
    ∀ calls : List ToolCall,
      (indexed calls.length named).foldl addToolCall calls = calls ++ named.map callOf := by
  induction named with
  | nil =>
    intro calls
    exact (List.append_nil calls).symm
  | cons tool named ih =>
    intro calls
    have hadd : addToolCall calls { tool with index := some (calls.length : ℤ) } =
        calls ++ [callOf tool] := by
      unfold addToolCall
      simp only [Option.getD_some, Int.toNat_natCast, Nat.lt_irrefl, if_false]
      rfl
    have hlength : calls.length + 1 = (calls ++ [callOf tool]).length := by
      rw [List.length_append]
      rfl
    rw [indexed, List.foldl_cons, hadd, hlength, ih, List.append_assoc]
    rfl

theorem modify_append_cons {α : Type} (f : α → α) (before : List α) (a : α) (after : List α) :
    (before ++ a :: after).modify before.length f = before ++ f a :: after := by
  induction before with
  | nil => rfl
  | cons b before ih => rw [List.cons_append, List.length_cons, List.modify_succ_cons, ih]; rfl

/-- Arguments that come for calls that were announced without them. -/
theorem foldl_cleared (named : List ToolCallResponse) :
    ∀ calls : List ToolCall,
      (indexed calls.length (named.map clearTool)).foldl addToolCall
          (calls ++ named.map fun tool => ⟨tool.id, tool.name, ""⟩) =
        calls ++ named.map callOf := by
  induction named with
  | nil =>
    intro calls
    rfl
  | cons tool named ih =>
    intro calls
    have hadd : addToolCall
        (calls ++ ⟨tool.id, tool.name, ""⟩ :: named.map fun tool => ⟨tool.id, tool.name, ""⟩)
        { clearTool tool with index := some (calls.length : ℤ) } =
          (calls ++ [callOf tool]) ++ named.map fun tool => ⟨tool.id, tool.name, ""⟩ := by
      have hlt : calls.length < (calls ++ (⟨tool.id, tool.name, ""⟩ : ToolCall) ::
          named.map fun tool => ⟨tool.id, tool.name, ""⟩).length := by
        rw [List.length_append, List.length_cons]
        omega
      unfold addToolCall
      simp only [Option.getD_some, Int.toNat_natCast]
      rw [if_pos hlt, modify_append_cons]
      simp only [clearTool, String.append_empty, String.empty_append, List.append_assoc,
        List.singleton_append, callOf]
    have hlength : calls.length + 1 = (calls ++ [callOf tool]).length := by
      rw [List.length_append]
      rfl
    rw [List.map_cons, List.map_cons, indexed, List.foldl_cons, hadd, hlength, ih,
      List.append_assoc]
    rfl

/-- The indices of the deltas that bring an id. -/
def openedIndices (tools : List ToolCallResponse) : List (Option ℤ) :=
  (tools.filter fun tool => tool.id ≠ "").map ToolCallResponse.index

theorem openedIndices_append (tools tools' : List ToolCallResponse) :
    openedIndices (tools ++ tools') = openedIndices tools ++ openedIndices tools' := by
  unfold openedIndices
  rw [List.filter_append, List.map_append]

theorem openedIndices_indexed (named : List ToolCallResponse) (h : ∀ tool ∈ named, tool.id ≠ "") :
    ∀ k : ℕ, openedIndices (indexed k named) =
      (List.range' k named.length).map fun j : ℕ => some (j : ℤ) := by
  induction named with
  | nil =>
    intro k
    rfl
  | cons tool named ih =>
    intro k
    have hrest := ih (fun tool htool => h tool (List.mem_cons_of_mem _ htool)) (k + 1)
    have htool : tool.id ≠ "" := h tool List.mem_cons_self
    unfold openedIndices at hrest ⊢
    rw [indexed, List.filter_cons_of_pos (by simpa using htool), List.map_cons, hrest,
      List.length_cons, List.range'_succ, List.map_cons]

theorem indexed_map (f : ToolCallResponse → ToolCallResponse)
    (hf : ∀ tool index, f { tool with index := index } = { f tool with index := index })
    (named : List ToolCallResponse) :
    ∀ k : ℕ, (indexed k named).map f = indexed k (named.map f) := by
  induction named with
  | nil =>
    intro k
    rfl
  | cons tool named ih =>
    intro k
    rw [indexed, List.map_cons, ih, hf, List.map_cons, indexed]

/-- The calls of a choice, as its message has them. -/
structure CallsCome (engine : Engine) (calls : List Gemini.FunctionCall)
    (tools : List ToolCallResponse) : Prop where
  toolCalls : (tools.foldl addToolCall []).map (fun call => (call.name, call.arguments)) =
    calls.map fun call => (call.functionName, engine.marshal call.arguments)
  named : ∀ call ∈ tools.foldl addToolCall [], call.id ≠ ""
  indices : openedIndices tools = (List.range calls.length).map fun k : ℕ => some (k : ℤ)

/-- Calls that were opened before, and then more of them. -/
theorem callsCome_append {named : List ToolCallResponse} {calls calls' : List Gemini.FunctionCall}
    {tools tools' : List ToolCallResponse}
    (hcalls : named.map (fun tool => (tool.name, tool.arguments)) =
      calls.map (fun call => (call.functionName, engine.marshal call.arguments)))
    (hids : ∀ tool ∈ named, tool.id ≠ "")
    (htools : tools.foldl addToolCall [] = named.map callOf)
    (hopened : openedIndices tools = openedIndices (indexed 0 named))
    (hrest : Numbered engine calls.length calls' tools') :
    CallsCome engine (calls ++ calls') (tools ++ tools') := by
  obtain ⟨named', rfl, hcalls', hids'⟩ := hrest
  have hlength : calls.length = (named.map callOf).length := by
    have := congrArg List.length hcalls
    rw [List.length_map, List.length_map] at this
    rw [List.length_map, this]
  have hlength' : named'.length = calls'.length := by
    have := congrArg List.length hcalls'
    rwa [List.length_map, List.length_map] at this
  have hfold : (tools ++ indexed calls.length named').foldl addToolCall [] =
      (named ++ named').map callOf := by
    rw [List.foldl_append, htools, hlength, foldl_indexed, List.map_append]
  refine ⟨?_, ?_, ?_⟩
  · rw [hfold, List.map_map, List.map_append, List.map_append, ← hcalls, ← hcalls']
    rfl
  · rw [hfold]
    intro call hcall
    obtain ⟨tool, htool, rfl⟩ := List.mem_map.mp hcall
    rcases List.mem_append.mp htool with htool | htool
    · exact hids tool htool
    · exact hids' tool htool
  · have hcount : named.length = calls.length := by
      rw [hlength, List.length_map]
    rw [openedIndices_append, hopened, openedIndices_indexed named hids,
      openedIndices_indexed named' hids', hcount, hlength', List.length_append,
      List.range_eq_range',
      ← List.range'_append_1, Nat.zero_add, List.map_append]

theorem callsCome_numbered {calls : List Gemini.FunctionCall} {tools : List ToolCallResponse}
    (h : Numbered engine 0 calls tools) : CallsCome engine calls tools := by
  have hnone : ∀ tool ∈ ([] : List ToolCallResponse), tool.id ≠ "" :=
    fun _ htool => absurd htool List.not_mem_nil
  exact @callsCome_append engine [] [] calls [] tools rfl hnone rfl rfl h

/-- Calls that are announced before their arguments come. -/
theorem foldl_announced (named : List ToolCallResponse) :
    ((indexed 0 named).map withoutArguments ++
      (indexed 0 named).map clearTool).foldl addToolCall [] = named.map callOf := by
  have hannounced : (indexed 0 (named.map withoutArguments)).foldl
      addToolCall [] = named.map fun tool => ⟨tool.id, tool.name, ""⟩ := by
    have hfold := foldl_indexed (named.map withoutArguments) []
    rw [List.map_map, List.nil_append] at hfold
    exact hfold
  have hcleared := foldl_cleared named []
  rw [List.nil_append, List.nil_append] at hcleared
  rw [List.foldl_append, indexed_map _ fun _ _ => rfl, indexed_map clearTool fun _ _ => rfl,
    hannounced]
  exact hcleared

theorem openedIndices_announced (named : List ToolCallResponse) (h : ∀ tool ∈ named, tool.id ≠ "") :
    openedIndices ((indexed 0 named).map withoutArguments ++
      (indexed 0 named).map clearTool) = openedIndices (indexed 0 named) := by
  have hcleared : openedIndices ((indexed 0 named).map clearTool) = [] := by
    unfold openedIndices
    rw [List.map_eq_nil_iff, List.filter_eq_nil_iff]
    intro tool htool hid
    obtain ⟨tool', -, rfl⟩ := List.mem_map.mp htool
    exact of_decide_eq_true hid rfl
  have hids : ∀ tool ∈ named.map withoutArguments, tool.id ≠ "" := by
    intro tool htool
    obtain ⟨tool', htool', rfl⟩ := List.mem_map.mp htool
    exact h tool' htool'
  rw [openedIndices_append, hcleared, List.append_nil, indexed_map _ fun _ _ => rfl,
    openedIndices_indexed _ hids, openedIndices_indexed named h, List.length_map]

theorem toolsAt_start (i : ℤ) (tools : List ToolCallResponse) :
    toolsAt i [generateStartEmptyResponse tools] = if i = 0 then tools else [] := by
  unfold toolsAt
  by_cases hi : i = 0
  · subst hi
    rw [if_pos rfl]
    exact List.append_nil tools
  · rw [if_neg hi, List.filter_cons_of_neg fun h => hi (of_decide_eq_true h).symm]
    rfl

theorem toolsAt_clearFinishReason (i : ℤ) (choices : List StreamChoice) :
    toolsAt i (clearFinishReason choices) = toolsAt i choices := by
  cases choices with
  | nil => rfl
  | cons choice choices =>
    unfold toolsAt clearFinishReason
    by_cases hi : choice.index = i
    · rw [List.filter_cons_of_pos (by simpa using hi), List.filter_cons_of_pos (by simpa using hi)]
      rfl
    · rw [List.filter_cons_of_neg (by simpa using hi), List.filter_cons_of_neg (by simpa using hi)]

theorem toolsAt_clear (i : ℤ) (choices : List StreamChoice) :
    toolsAt i (choices.map fun choice =>
        choice.setToolCalls (choice.delta.toolCalls.map clearTool)) =
      (toolsAt i choices).map clearTool := by
  unfold toolsAt
  rw [List.filter_map, List.flatMap_map, List.map_flatMap]
  rfl

/-- What the first chunk has for a choice, where it begins with calls. -/
theorem toolsAt_first (i : ℤ) (first : Candidate) (chunk : List Candidate)
    (h : first.hasCalls = true) :
    toolsAt i (sendFirst (numbered engine (fun _ => 0) 0 (first :: chunk))).flatten =
      (if i = 0 then (indexed 0 (toolCallsFrom engine 0 first.calls)).map withoutArguments
        else []) ++
      (toolsAt i (numbered engine (fun _ => 0) 0 (first :: chunk))).map clearTool := by
  rw [sendFirst_calls _ _ _ _ h, List.flatten_cons, List.flatten_cons, List.flatten_nil,
    List.append_nil, toolsAt_append, toolsAt_start, toolsAt_clearFinishReason, toolsAt_clear]

theorem toolCalls_assemble (i : ℤ) (sent : List (List StreamChoice)) :
    (assemble i sent).toolCalls = (toolsAt i sent.flatten).foldl addToolCall [] := by
  unfold assemble
  rw [foldl_add]
  rfl

theorem indices_assemble (i : ℤ) (sent : List (List StreamChoice)) :
    (assemble i sent).indices = openedIndices (toolsAt i sent.flatten) := by
  unfold assemble
  rw [foldl_add]
  exact List.nil_append _

theorem filter_calls_eq_nil {i : ℤ} {chunk : List Candidate}
    (h : ∀ entry ∈ chunk, entry.index = i → ¬ entry.hasCalls = true) :
    (chunk.filter fun entry => entry.index = i).flatMap Candidate.calls = [] := by
  rw [List.flatMap_eq_nil_iff]
  intro entry hentry
  obtain ⟨hmem, hi⟩ := List.mem_filter.mp hentry
  by_contra hne
  exact h entry hmem (of_decide_eq_true hi) (decide_eq_true hne)

/-- Where only calls of the choice 0 are announced, all calls come. -/
theorem callsCome_stream {chunks : List (List Candidate)} (hfirst : FirstCalls chunks)
    (hnodup : ∀ chunk ∈ chunks, (chunk.map Candidate.index).Nodup) (i : ℤ) :
    CallsCome engine ((entries i chunks).flatMap Candidate.calls)
      (toolsAt i (geminiChatStreamHandler engine chunks).flatten) := by
  cases chunks with
  | nil => exact callsCome_numbered (numbered_nil 0)
  | cons chunk chunks =>
    obtain ⟨rest, hsent, -, htools⟩ := geminiChatStreamHandler_cons engine chunk chunks
    have hplain := toolsAt_numbered engine i chunk (fun _ => 0) 0
    rw [hsent, toolsAt_append, entries_cons, List.flatMap_append]
    by_cases hbegins : beginsWithCalls chunk = true
    · cases chunk with
      | nil => cases hbegins
      | cons first chunk =>
        have hzero : first.index = 0 := hfirst _ rfl hbegins first List.mem_cons_self hbegins
        rw [toolsAt_first i first chunk hbegins]
        by_cases hi : i = 0
        · subst hi
          -- no other entry of the chunk has the index 0
          have hothers : (chunk.filter fun entry => entry.index = 0) = [] := by
            rw [List.filter_eq_nil_iff]
            intro entry hentry hindex
            have hmem : first.index ∈ chunk.map Candidate.index := by
              rw [hzero, ← of_decide_eq_true hindex]
              exact List.mem_map_of_mem hentry
            exact (List.nodup_cons.mp (hnodup _ List.mem_cons_self)).1 hmem
          have hfilter : ((first :: chunk).filter fun entry => entry.index = 0) = [first] := by
            rw [List.filter_cons_of_pos (by simpa using hzero), hothers]
          have hcalls : ((first :: chunk).filter fun entry => entry.index = 0).flatMap
              Candidate.calls = first.calls := by
            rw [hfilter]
            exact List.append_nil _
          have hat : toolsAt 0 (numbered engine (fun _ => 0) 0 (first :: chunk)) =
              indexed 0 (toolCallsFrom engine 0 first.calls) := by
            obtain ⟨named, hat, hmap, -⟩ := toolsAt_numbered engine 0 chunk
              (Function.update (fun _ => 0) first.index (0 + first.calls.length))
              (0 + first.calls.length)
            rw [hothers] at hmap
            have hnil : named = [] := List.map_eq_nil_iff.mp hmap
            rw [toolsAt_numbered_cons, if_pos hzero, hat, hnil]
            exact List.append_nil _
          have hrest := htools 0
          rw [hcalls] at hrest ⊢
          rw [hat, if_pos rfl]
          refine callsCome_append (map_function_toolCallsFrom engine 0 first.calls)
            toolCallsFrom_ids (foldl_announced _) (openedIndices_announced _ toolCallsFrom_ids)
            hrest
        · have hnone : ∀ entry ∈ first :: chunk, entry.index = i → ¬ entry.hasCalls = true := by
            intro entry hentry hindex hcalls
            exact hi (hindex.symm.trans (hfirst _ rfl hbegins entry hentry hcalls))
          have hcalls := filter_calls_eq_nil hnone
          have hrest := htools i
          rw [hcalls] at hplain hrest ⊢
          obtain ⟨named, hat, hmap, -⟩ := hplain
          have hnil : named = [] := List.map_eq_nil_iff.mp hmap
          subst hnil
          rw [hat, if_neg hi]
          exact callsCome_numbered hrest
    · rw [sendFirst_plain _ _ _ (Bool.eq_false_iff.mpr hbegins), List.flatten_cons,
        List.flatten_cons, List.flatten_nil, List.append_nil, toolsAt_append, toolsAt_start,
        ite_self, List.nil_append]
      refine callsCome_numbered (hplain.append ?_)
      rw [Nat.zero_add]
      exact htools i

/-- The id of a call is that of the delta that opened it. -/
theorem nameless_foldl (tools : List ToolCallResponse) :
    ∀ calls : List ToolCall, (∃ call ∈ calls, call.id = "") →
      ∃ call ∈ tools.foldl addToolCall calls, call.id = "" := by
  induction tools with
  | nil => exact fun _ h => h
  | cons tool tools ih =>
    rintro calls ⟨call, hcall, hid⟩
    rw [List.foldl_cons]
    refine ih _ ?_
    by_cases hopen : (tool.index.getD 0).toNat < calls.length
    · obtain ⟨j, hj, rfl⟩ := List.mem_iff_getElem.mp hcall
      simp only [addToolCall, if_pos hopen]
      refine ⟨_, List.getElem_mem (by rw [List.length_modify]; exact hj), ?_⟩
      rw [List.getElem_modify]
      split
      · exact hid
      · exact hid
    · simp only [addToolCall, if_neg hopen]
      exact ⟨call, List.mem_append_left _ hcall, hid⟩

/-- Any other call of a first chunk that begins with calls has no id. -/
theorem nameless_of_not_firstCalls (engine : Engine) {chunks : List (List Candidate)}
    (h : ¬ FirstCalls chunks) :
    ∃ entry ∈ chunks.flatten,
      ∃ call ∈ (assemble entry.index (geminiChatStreamHandler engine chunks)).toolCalls,
        call.id = "" := by
  unfold FirstCalls at h
  simp only [not_forall] at h
  obtain ⟨chunk, hchunk, hbegins, entry, hentry, hcalls, hi⟩ := h
  cases chunks with
  | nil => cases hchunk
  | cons chunk' chunks =>
    cases hchunk
    cases chunk with
    | nil => cases hbegins
    | cons first chunk =>
      refine ⟨entry, List.mem_append_left _ hentry, ?_⟩
      obtain ⟨rest, hsent, -, -⟩ := geminiChatStreamHandler_cons engine (first :: chunk) chunks
      obtain ⟨named, hat, hmap, -⟩ :=
        toolsAt_numbered engine entry.index (first :: chunk) (fun _ => 0) 0
      rw [toolCalls_assemble, hsent, toolsAt_append, toolsAt_first _ first chunk hbegins, if_neg hi,
        List.nil_append, hat, List.foldl_append]
      refine nameless_foldl _ _ ?_
      cases named with
      | nil =>
        have hnone := List.map_eq_nil_iff.mp hmap.symm
        rw [List.flatMap_eq_nil_iff] at hnone
        have hempty := hnone entry (List.mem_filter.mpr ⟨hentry, decide_eq_true rfl⟩)
        exact absurd hempty (of_decide_eq_true hcalls)
      | cons tool named =>
        rw [indexed, List.map_cons, List.foldl_cons]
        exact nameless_foldl _ _ ⟨_, List.mem_cons_self, rfl⟩

/-! ## When the stream comes to the response -/

theorem reasoning_iff (h : candidate ∈ segmented.candidates) :
    (assemble candidate.index (geminiChatStreamHandler engine segmented.chunks)).reasoning =
        String.join candidate.thoughts ↔
      ∀ entry ∈ entries candidate.index segmented.chunks, entry.OnlyThought := by
  have hthoughts : candidate.thoughts =
      (entries candidate.index segmented.chunks).flatMap Candidate.thoughts := by
    unfold Candidate.thoughts
    rw [← segmented.parts candidate h, List.filterMap_flatMap]
  have hlength : ∀ entry : Candidate,
      (String.join entry.thoughts).toList.length ≤ entry.thoughtText.toList.length := by
    intro entry
    rw [String.length_toList, String.length_toList]
    exact length_thoughtText entry
  have hjoin : (String.join candidate.thoughts).toList =
      (entries candidate.index segmented.chunks).flatMap fun entry =>
        (String.join entry.thoughts).toList := by
    rw [hthoughts, String.toList_join, List.flatMap_assoc]
    simp only [String.toList_join]
  have hsent : (String.join ((entries candidate.index segmented.chunks).map
      Candidate.thoughtText)).toList =
        (entries candidate.index segmented.chunks).flatMap fun entry =>
          entry.thoughtText.toList := by
    rw [String.toList_join, List.flatMap_map]
  have hiff := sublist_flatMap_iff hlength (entries candidate.index segmented.chunks)
  rw [reasoning_assemble, ← String.toList_inj, hjoin, hsent]
  constructor
  · intro heq entry hentry
    rw [heq] at hiff
    have heach := hiff.mp (List.Sublist.refl _) entry hentry
    exact (thoughtText_iff entry).mp (String.toList_inj.mp heach)
  · intro hall
    refine List.flatMap_congr fun entry hentry => ?_
    rw [(thoughtText_iff entry).mpr (hall entry hentry)]

theorem content_iff (h : candidate ∈ segmented.candidates)
    (hthought : ∀ entry ∈ entries candidate.index segmented.chunks, entry.OnlyThought) :
    letters (assemble candidate.index (geminiChatStreamHandler engine segmented.chunks)).content =
        letters candidate.answer ↔ ∀ part ∈ candidate.parts, part.isDropped = false := by
  have hanswer : letters candidate.answer =
      candidate.parts.flatMap fun part => added part.answer? := by
    unfold Candidate.answer
    rw [letters_written, flatMap_letters]
  have hsent : letters (String.join ((entries candidate.index segmented.chunks).map
      Candidate.answerText)) = candidate.parts.flatMap fun part => added part.said? := by
    rw [letters_join, List.flatMap_map, ← segmented.parts candidate h, List.flatMap_assoc]
    exact List.flatMap_congr fun entry hentry => letters_answerText (hthought entry hentry)
  have hiff := sublist_flatMap_iff (fun part => (added_said part).1) candidate.parts
  rw [content_assemble, hsent, hanswer]
  constructor
  · intro heq part hpart
    rw [heq] at hiff
    exact (added_said part).2.mp (hiff.mp (List.Sublist.refl _) part hpart)
  · intro hall
    exact List.flatMap_congr fun part hpart => ((added_said part).2.mpr (hall part hpart)).symm

/-- One candidate, whose choice was built with `isToolCall`. -/
theorem sameResult_iff (h : candidate ∈ segmented.candidates) (isToolCall : Bool) (n m : ℕ) :
    SameResult candidate (candidate.choice engine isToolCall n).1
        (candidate.choice engine false m).1
        (assemble candidate.index (geminiChatStreamHandler engine segmented.chunks)) ↔
      Separate candidate segmented.chunks ∧
      CallsCome engine candidate.calls
        (toolsAt candidate.index (geminiChatStreamHandler engine segmented.chunks).flatten) ∧
      (isToolCall = true → candidate.hasCalls = true) ∧ Finishes candidate segmented.chunks := by
  have hlast : candidate.thoughts.getLast?.getD "" = String.join candidate.thoughts ↔
      ∀ thought ∈ candidate.thoughts.dropLast, thought = "" :=
    eq_comm.trans (join_eq_getLast_iff candidate.thoughts)
  have hown : (if isToolCall = true then finishReasonToolCalls else candidate.ownFinishReason) =
      candidate.ownFinishReason ↔ (isToolCall = true → candidate.hasCalls = true) := by
    by_cases hflag : isToolCall = true
    · rw [if_pos hflag, eq_comm, ownFinishReason_eq_toolCalls_iff]
      exact ⟨fun hcalls _ => hcalls, fun hcalls => hcalls hflag⟩
    · rw [if_neg hflag]
      exact ⟨fun _ hyes => absurd hyes hflag, fun _ => rfl⟩
  have hfinish := finishes_iff h engine
  constructor
  · intro hsame
    have heq : (if isToolCall = true then finishReasonToolCalls else candidate.ownFinishReason) =
        candidate.ownFinishReason := by
      have halone := hsame.alone.2.2.2
      simp only [choice_eq, Bool.false_eq_true, if_false] at halone
      exact halone
    have hreasoning := hsame.reasoning
    simp only [choice_eq] at hreasoning
    have hthought := (reasoning_iff h).mp hreasoning.2
    have hcontent := hsame.content
    simp only [choice_eq] at hcontent
    have htools := hsame.toolCalls
    have hindices := hsame.indices
    have hnamed := hsame.named
    have hreason := hsame.finishReason
    simp only [choice_eq, map_function_toolCallsFrom, toolCalls_assemble] at htools
    simp only [choice_eq, length_toolCallsFrom, indices_assemble] at hindices
    simp only [toolCalls_assemble] at hnamed
    simp only [choice_eq, heq] at hreason
    exact ⟨⟨hlast.mp hreasoning.1, hthought, (content_iff h hthought).mp hcontent⟩,
      ⟨htools, hnamed, hindices⟩, hown.mp heq, hfinish.mp hreason⟩
  · rintro ⟨hseparate, hcalls, hflag, hfinishes⟩
    have heq := hown.mpr hflag
    refine ⟨?_, ?_, ?_, ?_, ?_, ?_, ?_⟩
    · simp only [choice_eq]
      exact ⟨hlast.mpr hseparate.lastThought, (reasoning_iff h).mpr hseparate.onlyThought⟩
    · simp only [choice_eq]
      exact (content_iff h hseparate.onlyThought).mpr hseparate.images
    · simp only [choice_eq, map_function_toolCallsFrom, toolCalls_assemble]
      exact hcalls.toolCalls
    · simp only [toolCalls_assemble]
      exact hcalls.named
    · simp only [choice_eq, length_toolCallsFrom, indices_assemble]
      exact hcalls.indices
    · simp only [choice_eq, heq]
      exact hfinish.mpr hfinishes
    · simp only [choice_eq, heq, map_function_toolCallsFrom, Bool.false_eq_true, if_false]
      exact ⟨trivial, trivial, trivial, trivial⟩

/-- What all later elements have once one has it. -/
theorem pairwise_iff_take {α : Type} (p : α → Bool) (l : List α) :
    (l.Pairwise fun a b => p a = true → p b = true) ↔
      ∀ (k : ℕ) (a : α), l[k]? = some a → (l.take k).any p = true → p a = true := by
  rw [List.pairwise_iff_getElem]
  constructor
  · intro h k a ha hany
    obtain ⟨hk, rfl⟩ := List.getElem?_eq_some_iff.mp ha
    obtain ⟨b, hb, hpb⟩ := List.any_eq_true.mp hany
    obtain ⟨j, hj, rfl⟩ := List.mem_take_iff_getElem.mp hb
    exact h j k (by omega) hk (by omega) hpb
  · intro h i j hi hj hij hp
    refine h j l[j] (List.getElem?_eq_getElem hj) (List.any_eq_true.mpr ⟨l[i], ?_, hp⟩)
    exact List.mem_take_iff_getElem.mpr ⟨i, by omega, rfl⟩

/-- **The chunks come to the response** exactly if it is convertible. -/
theorem agrees_iff_convertible (engine : Engine) (segmented : SegmentedResponse) :
    Agrees engine segmented ↔ Convertible segmented := by
  have halone : ∀ candidate : Candidate, responseGeminiChat2OpenAI engine [candidate] =
      [(candidate.choice engine false 0).1] := fun _ => rfl
  have hpairwise := pairwise_iff_take Candidate.hasCalls segmented.candidates
  constructor
  · intro hagrees
    have hsame : ∀ k candidate, segmented.candidates[k]? = some candidate →
        Separate candidate segmented.chunks ∧
        CallsCome engine candidate.calls
          (toolsAt candidate.index (geminiChatStreamHandler engine segmented.chunks).flatten) ∧
        ((segmented.candidates.take k).any Candidate.hasCalls = true →
          candidate.hasCalls = true) ∧ Finishes candidate segmented.chunks := by
      intro k candidate hk
      obtain ⟨whole, alone, hwhole, hal, hsame⟩ := hagrees k candidate hk
      obtain ⟨n, hn⟩ := getElem?_choicesFrom engine hk false 0
      cases hn.symm.trans hwhole
      cases (halone candidate).symm.trans hal
      exact (sameResult_iff (List.mem_of_getElem? hk) _ n 0).mp hsame
    have hmem : ∀ candidate ∈ segmented.candidates,
        ∃ k, segmented.candidates[k]? = some candidate :=
      fun candidate hcandidate => List.mem_iff_getElem?.mp hcandidate
    refine ⟨?_, hpairwise.mpr fun k candidate hk => (hsame k candidate hk).2.2.1, ?_, ?_⟩
    · by_contra hfirst
      obtain ⟨entry, hentry, call, hcall, hid⟩ := nameless_of_not_firstCalls engine hfirst
      obtain ⟨chunk, hchunk, hentry⟩ := List.mem_flatten.mp hentry
      obtain ⟨candidate, hcandidate, hi⟩ := segmented.listed chunk hchunk entry hentry
      obtain ⟨k, hk⟩ := hmem candidate hcandidate
      rw [← hi, toolCalls_assemble] at hcall
      exact (hsame k candidate hk).2.1.named call hcall hid
    · intro candidate hcandidate
      obtain ⟨k, hk⟩ := hmem candidate hcandidate
      exact (hsame k candidate hk).1
    · intro candidate hcandidate
      obtain ⟨k, hk⟩ := hmem candidate hcandidate
      exact (hsame k candidate hk).2.2.2
  · intro hconv k candidate hk
    have hcandidate := List.mem_of_getElem? hk
    obtain ⟨n, hn⟩ := getElem?_choicesFrom engine hk false 0
    refine ⟨_, _, hn, halone candidate, (sameResult_iff hcandidate _ n 0).mpr
      ⟨hconv.separate candidate hcandidate, ?_, ?_, hconv.finishes candidate hcandidate⟩⟩
    · rw [calls_eq hcandidate]
      exact callsCome_stream hconv.firstCalls segmented.chunks_nodup candidate.index
    · rw [Bool.false_or]
      exact hpairwise.mp hconv.laterCalls k candidate hk

/-! ### A thought and the answer in one chunk -/

def textPart (thought : Bool) (text : String) : Part := ⟨text, thought, none, none, none, none⟩

def thoughtAndAnswer : Candidate where
  index := 0
  parts := [textPart true "let me see", textPart false "42"]
  finishReason := some "STOP"

def inOneChunk : SegmentedResponse where
  candidates := [thoughtAndAnswer]
  chunks := [[thoughtAndAnswer]]
  nodup := List.nodup_singleton _
  chunks_nodup := by
    intro chunk hchunk
    rw [List.mem_singleton.mp hchunk]
    exact List.nodup_singleton _
  listed := by
    intro chunk hchunk entry hentry
    rw [List.mem_singleton.mp hchunk] at hentry
    exact ⟨thoughtAndAnswer, List.mem_singleton_self _, by rw [List.mem_singleton.mp hentry]⟩
  parts := by
    intro candidate hcandidate
    rw [List.mem_singleton.mp hcandidate]
    rfl
  finishReason := by
    intro candidate hcandidate
    rw [List.mem_singleton.mp hcandidate]
    rfl

def marks (n : ℕ) : String := String.ofList (List.replicate n '0')

theorem marks_injective : Function.Injective marks := by
  intro n m h
  have hlength := congrArg List.length (String.ofList_injective h)
  rw [List.length_replicate, List.length_replicate] at hlength
  exact hlength

/-- Ids that count the calls. -/
def counting : Engine where
  marshal _ := "\x7b\x7d"
  uuid := marks
  uuid_injective := marks_injective

/-- The answer is sent as reasoning. -/
theorem answer_as_reasoning : ¬ Agrees counting inOneChunk := by
  intro hagrees
  obtain ⟨whole, alone, -, -, hsame⟩ := hagrees 0 thoughtAndAnswer rfl
  exact absurd hsame.reasoning.2 (by decide)

end Convert.GeminiChat
