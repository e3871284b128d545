import GMasterApi.Convert.OpenAIRequest
import GMasterApi.Lib.Occurrence
import GMasterApi.Lib.Pieces

/-!
# Merging neighbours

The first pass of `RequestOpenAI2ClaudeMessage` joins the texts of neighbours of one role.
The tool calls are all kept if no message with some is merged into
(`sentEvents_formatFrom`), the texts if no quotation mark is trimmed (`texts_formatFrom`,
`quotes_formatFrom`).
-/

namespace Convert.OpenAI

open JsonValue GoString Occurrence Pieces

/-! ## What is to be kept -/

inductive ToolEvent
  | use (id : String)
  | result (id : String)
  deriving DecidableEq

def Message.toolEvents (message : Message) : List ToolEvent :=
  if message.role = .assistant then
    (message.toolCalls.getD []).map fun toolCall => .use toolCall.id
  else if message.role = .tool then [.result message.toolCallId]
  else []

/-- The texts of a content that is left as it is. -/
def Content.texts : Content → List String
  | .null => []
  | .string content => [content]
  | .parts content => content.filterMap fun
    | .text content => some content
    | _ => none

/-- The text of a file that is one. -/
def fileText (sources : Sources) (file : MessageFile) : Option String :=
  match buildClaudeFileMessage sources file with
  | .ok [.text content] => some content
  | _ => none

def Part.texts (sources : Sources) : Part → List String
  | .text content => [content]
  | .file messageFile => (fileText sources messageFile).toList
  | .imageUrl _ => []
  | .other => []

/-- The texts of a message, those of its text files among them. -/
def Message.texts (sources : Sources) (message : Message) : List String :=
  match message.role with
  | .system => []
  | .tool => message.content.texts
  | _ => message.parseContent.flatMap (Part.texts sources)

/-- The texts occur in the other ones, in their order. -/
def TextsOccur (texts others : List String) : Prop :=
  Occurs (texts.map String.toList) (others.map String.toList)

/-! ## What is asked of the messages -/

/-- The texts of two neighbours are joined. -/
def Message.JoinedBy (message next : Message) : Prop :=
  message.role = next.role ∧ message.role ≠ .tool ∧ (∀ parts, message.content ≠ .parts parts) ∧
    next.isStringContent

instance (message next : Message) : Decidable (message.JoinedBy next) :=
  have : Decidable (∀ parts, message.content ≠ .parts parts) :=
    match h : message.content with
    | .null => isTrue (by simp)
    | .string _ => isTrue (by simp)
    | .parts parts => isFalse (by simp)
  inferInstanceAs (Decidable (_ ∧ _))

/-- The messages after `message`, which is in a row of neighbours that begins with the text
`opening`: a row of more than one neither begins nor goes on with a text that has a
quotation mark at its outer end. -/
def KeepsTexts (opening : String) (message : Message) : List Message → Prop
  | [] => True
  | next :: messages =>
    if message.JoinedBy next then
      (next.role ≠ .system → opening.toList.head? ≠ some '"' ∧
        next.stringContent.toList.getLast? ≠ some '"') ∧
      KeepsTexts opening next messages
    else KeepsTexts next.stringContent next messages

/-- No message with tool calls is joined by the next one. -/
def KeepsCalls (message : Message) : List Message → Prop
  | [] => True
  | next :: messages =>
    (message.JoinedBy next → message.toolEvents = []) ∧ KeepsCalls next messages

/-! ## The first pass, neighbour by neighbour -/

/-- The merged message. -/
def Message.mergedInto (lastMessage message : Message) : Message :=
  message.fmtMessage
    (.string (trimChar (lastMessage.stringContent ++ " " ++ message.stringContent) '"'))

/-- The formatted messages from `lastMessage` on, which the next one may still be merged
into. -/
def formatFrom (lastMessage : Message) : List Message → List Message
  | [] => [lastMessage]
  | message :: messages =>
    if lastMessage.mergesInto message then formatFrom (lastMessage.mergedInto message) messages
    else lastMessage :: formatFrom (message.fmtMessage message.content) messages

theorem foldl_formatMessage (messages formatMessages : List Message) (lastMessage : Message) :
    (messages.foldl formatMessage (formatMessages ++ [lastMessage], lastMessage)).1 =
      formatMessages ++ formatFrom lastMessage messages := by
  induction messages generalizing formatMessages lastMessage with
  | nil => rfl
  | cons message messages ih =>
    rw [List.foldl_cons]
    unfold formatMessage formatFrom
    dsimp only
    by_cases hmerges : lastMessage.mergesInto message = true
    · rw [if_pos hmerges, if_pos hmerges, List.dropLast_concat]
      exact ih formatMessages (lastMessage.mergedInto message)
    · rw [if_neg hmerges, if_neg hmerges]
      refine (ih (formatMessages ++ [lastMessage]) _).trans ?_
      rw [List.append_assoc]
      rfl

theorem formatMessages_cons (message : Message) (messages : List Message) :
    formatMessages (message :: messages) =
      formatFrom (message.fmtMessage message.content) messages := by
  unfold formatMessages
  have hfirst : Message.mergesInto ⟨.tool, .null, none, ""⟩ message = false := by
    unfold Message.mergesInto
    simp
  rw [List.foldl_cons]
  have hstep : formatMessage ([], ⟨.tool, .null, none, ""⟩) message =
      ([] ++ [message.fmtMessage message.content], message.fmtMessage message.content) := by
    unfold formatMessage
    dsimp only
    rw [hfirst]
    rfl
  rw [hstep, foldl_formatMessage]
  rfl

/-- `formatted` is `message` after the first pass, up to its text. -/
structure Formats (message formatted : Message) : Prop where
  role : formatted.role = message.role
  isString : formatted.isStringContent = true ↔ ∀ parts, message.content ≠ .parts parts
  notEmpty : formatted.content ≠ .string "" ∧ formatted.content ≠ .null
  parts : ∀ parts, message.content = .parts parts → formatted.content = .parts parts
  toolEvents : formatted.toolEvents = message.toolEvents
  toolCalls : formatted.role = .assistant → formatted.toolCalls = message.toolCalls
  noCalls : formatted.role ≠ .assistant → formatted.toolCalls = none
  toolCallId : formatted.role = .tool → formatted.toolCallId = message.toolCallId

theorem fmtMessage_content (message : Message) (content : Content) :
    (message.fmtMessage content).content =
      if content = .null ∨ content = .string "" then .string "..." else content := rfl

theorem formats_fmtMessage {message : Message} {content : Content}
    (hcontent : ∀ parts, message.content = .parts parts ↔ content = .parts parts) :
    Formats message (message.fmtMessage content) where
  role := rfl
  isString := by
    have hparts : (∀ parts, message.content ≠ .parts parts) ↔
        ∀ parts, content ≠ .parts parts :=
      forall_congr' fun parts => not_congr (hcontent parts)
    unfold Message.isStringContent
    rw [fmtMessage_content, hparts]
    by_cases hempty : content = .null ∨ content = .string ""
    · rw [if_pos hempty]
      rcases hempty with rfl | rfl <;> simp
    · rw [if_neg hempty]
      cases content with
      | null => exact absurd (.inl rfl) hempty
      | string s => simp
      | parts parts => simp
  notEmpty := by
    rw [fmtMessage_content]
    split_ifs with h
    · simp
    · exact ⟨fun hempty => h (.inr hempty), fun hnull => h (.inl hnull)⟩
  parts := by
    intro parts h
    rw [fmtMessage_content, (hcontent parts).1 h]
    rfl
  toolEvents := by
    unfold Message.toolEvents
    show (if message.role = .assistant then _ else if message.role = .tool then _ else _) = _
    by_cases hassistant : message.role = .assistant
    · rw [if_pos hassistant, if_pos hassistant]
      show List.map _ ((if message.role = .assistant then message.toolCalls else none).getD []) = _
      rw [if_pos hassistant]
    · rw [if_neg hassistant, if_neg hassistant]
      by_cases htool : message.role = .tool
      · rw [if_pos htool, if_pos htool]
        show [ToolEvent.result (if message.role = .tool then message.toolCallId else "")] = _
        rw [if_pos htool]
      · rw [if_neg htool, if_neg htool]
  toolCalls := fun h => if_pos h
  noCalls := fun h => if_neg h
  toolCallId := fun h => if_pos h

theorem formats_self (message : Message) : Formats message (message.fmtMessage message.content) :=
  formats_fmtMessage fun _ => Iff.rfl

section Pair

variable {message next formatted : Message}

/-- Neighbours are merged exactly if their texts are to be joined. -/
theorem mergesInto_iff (h : Formats message formatted) :
    formatted.mergesInto next = true ↔ message.JoinedBy next := by
  unfold Message.mergesInto Message.JoinedBy
  rw [decide_eq_true_iff, h.role, h.isString]

theorem formatFrom_joined (h : Formats message formatted) (hjoined : message.JoinedBy next)
    (messages : List Message) :
    formatFrom formatted (next :: messages) = formatFrom (formatted.mergedInto next) messages :=
  if_pos ((mergesInto_iff h).2 hjoined)

theorem formatFrom_apart (h : Formats message formatted) (hjoined : ¬ message.JoinedBy next)
    (messages : List Message) :
    formatFrom formatted (next :: messages) =
      formatted :: formatFrom (next.fmtMessage next.content) messages :=
  if_neg fun hmerges => hjoined ((mergesInto_iff h).1 hmerges)

theorem formats_mergedInto (h : message.JoinedBy next) (formatted : Message) :
    Formats next (formatted.mergedInto next) := by
  refine formats_fmtMessage fun parts => ⟨fun hparts => ?_, fun hparts => by cases hparts⟩
  have hstring := h.2.2.2
  unfold Message.isStringContent at hstring
  rw [hparts] at hstring
  cases hstring

end Pair

/-! ### Tool calls -/

/-- The tool events that the second pass makes of a message. -/
def Message.sentEvents (message : Message) : List ToolEvent :=
  if message.role = .assistant then
    ((message.toolCalls.getD []).filter fun toolCall => toolCall.arguments.isSome).map
      fun toolCall => .use toolCall.id
  else if message.role = .tool then [.result message.toolCallId]
  else []

/-- Every tool call of an assistant has arguments. -/
def Message.ArgumentsGiven (message : Message) : Prop :=
  message.role = .assistant → ∀ toolCall ∈ message.toolCalls.getD [], toolCall.arguments.isSome

section Events

variable {message formatted : Message}

theorem length_sentEvents_le (message : Message) :
    message.sentEvents.length ≤ message.toolEvents.length := by
  unfold Message.sentEvents Message.toolEvents
  split
  · rw [List.length_map, List.length_map]
    exact List.length_filter_le _ _
  · exact Nat.le_refl _

theorem sentEvents_eq_iff (message : Message) :
    message.sentEvents = message.toolEvents ↔ message.ArgumentsGiven := by
  unfold Message.sentEvents Message.toolEvents Message.ArgumentsGiven
  by_cases hrole : message.role = .assistant
  · rw [if_pos hrole, if_pos hrole]
    constructor
    · intro h _
      have hlength := congrArg List.length h
      rw [List.length_map, List.length_map, List.length_filter_eq_length_iff] at hlength
      exact hlength
    · intro h
      rw [List.filter_eq_self.2 (h hrole)]
  · rw [if_neg hrole, if_neg hrole]
    exact ⟨fun _ h => absurd h hrole, fun _ => rfl⟩

theorem sentEvents_formats (h : Formats message formatted) :
    formatted.sentEvents = message.sentEvents := by
  have htoolCalls := h.toolCalls
  have htoolCallId := h.toolCallId
  unfold Message.sentEvents
  rw [h.role] at htoolCalls htoolCallId ⊢
  by_cases hrole : message.role = .assistant
  · rw [if_pos hrole, if_pos hrole, htoolCalls hrole]
  · rw [if_neg hrole, if_neg hrole]
    by_cases htool : message.role = .tool
    · rw [if_pos htool, if_pos htool, htoolCallId htool]
    · rw [if_neg htool, if_neg htool]

theorem argumentsGiven_of_no_events (h : message.toolEvents = []) : message.ArgumentsGiven := by
  intro hrole toolCall htoolCall
  unfold Message.toolEvents at h
  rw [if_pos hrole, List.map_eq_nil_iff] at h
  rw [h] at htoolCall
  cases htoolCall

/-- The tool events are all sent exactly if their arguments are given and no message with
some is merged into. -/
theorem sentEvents_formatFrom (messages : List Message) (h : Formats message formatted) :
    ((formatFrom formatted messages).flatMap Message.sentEvents).length ≤
        (message.toolEvents ++ messages.flatMap Message.toolEvents).length ∧
      ((formatFrom formatted messages).flatMap Message.sentEvents =
          message.toolEvents ++ messages.flatMap Message.toolEvents ↔
        (∀ m ∈ message :: messages, m.ArgumentsGiven) ∧ KeepsCalls message messages) := by
  induction messages generalizing message formatted with
  | nil =>
    show ((formatted.sentEvents ++ [] : List ToolEvent)).length ≤ _ ∧
      (formatted.sentEvents ++ [] = message.toolEvents ++ [] ↔ _)
    rw [List.append_nil, List.append_nil, sentEvents_formats h, sentEvents_eq_iff]
    refine ⟨?_, ?_⟩
    · rw [List.flatMap_nil, List.append_nil]
      exact length_sentEvents_le message
    · simp [KeepsCalls]
  | cons next messages ih =>
    unfold KeepsCalls
    rw [List.flatMap_cons, List.forall_mem_cons]
    by_cases hjoined : message.JoinedBy next
    · rw [formatFrom_joined h hjoined]
      obtain ⟨hle, hiff⟩ := ih (formats_mergedInto hjoined formatted)
      refine ⟨?_, ?_⟩
      · rw [List.length_append]
        omega
      · constructor
        · intro heq
          have hlength := congrArg List.length heq
          rw [List.length_append] at hlength
          have hnil : message.toolEvents = [] := List.eq_nil_of_length_eq_zero (by omega)
          rw [hnil] at heq
          obtain ⟨hargs, hkeeps⟩ := hiff.1 heq
          exact ⟨⟨argumentsGiven_of_no_events hnil, hargs⟩, fun _ => hnil, hkeeps⟩
        · rintro ⟨⟨-, hargs⟩, hnil, hkeeps⟩
          rw [hnil hjoined]
          exact hiff.2 ⟨hargs, hkeeps⟩
    · rw [formatFrom_apart h hjoined, List.flatMap_cons, sentEvents_formats h]
      obtain ⟨hle, hiff⟩ := ih (formats_self next)
      refine ⟨?_, ?_⟩
      · have hthis := length_sentEvents_le message
        rw [List.length_append, List.length_append]
        omega
      · rw [append_eq_append_iff_of_le (length_sentEvents_le message) hle, hiff,
          sentEvents_eq_iff]
        constructor
        · rintro ⟨hthis, hargs, hkeeps⟩
          exact ⟨⟨hthis, hargs⟩, fun h => absurd h hjoined, hkeeps⟩
        · rintro ⟨⟨hthis, hargs⟩, -, hkeeps⟩
          exact ⟨hthis, hargs, hkeeps⟩

end Events

/-! ### Texts -/

/-- The texts that the second pass makes of a part. -/
def Part.sentTexts (sources : Sources) : Part → List String
  | .text content => if content = "" then [] else [content]
  | .file messageFile => (fileText sources messageFile).toList
  | .imageUrl _ => []
  | .other => []

def Message.sentTexts (sources : Sources) (message : Message) : List String :=
  match message.role with
  | .system => []
  | .tool => message.content.texts
  | _ => message.parseContent.flatMap (Part.sentTexts sources)

/-- How often a quotation mark is in the texts. -/
def quotes (texts : List String) : ℕ := ((texts.map String.toList).flatten).count '"'

section Texts

variable {sources : Sources} {message next formatted : Message}

theorem quotes_append (texts others : List String) :
    quotes (texts ++ others) = quotes texts + quotes others := by
  unfold quotes
  rw [List.map_append, List.flatten_append, List.count_append]

theorem quotes_singleton (text : String) : quotes [text] = text.toList.count '"' := by
  unfold quotes
  simp

theorem TextsOccur.quotes_le {texts others : List String} (h : TextsOccur texts others) :
    quotes texts ≤ quotes others := h.count_le '"'

theorem TextsOccur.append {texts others texts' others' : List String}
    (h : TextsOccur texts others) (h' : TextsOccur texts' others') :
    TextsOccur (texts ++ texts') (others ++ others') := by
  unfold TextsOccur
  rw [List.map_append, List.map_append]
  exact Occurs.append h h'

theorem TextsOccur.prepend {texts others : List String} (h : TextsOccur texts others)
    (filler : List String) : TextsOccur texts (filler ++ others) := by
  unfold TextsOccur at h ⊢
  rw [List.map_append]
  exact Occurs.prepend h _

theorem TextsOccur.refl (texts : List String) : TextsOccur texts texts := by
  induction texts with
  | nil => exact Occurs.nil _
  | cons text texts ih => exact Occurs.append (.self text.toList) ih

theorem part_texts_occur (part : Part) :
    TextsOccur (part.texts sources) (part.sentTexts sources) := by
  cases part with
  | text content =>
    show TextsOccur [content] (if content = "" then [] else [content])
    by_cases hempty : content = ""
    · rw [if_pos hempty, hempty]
      exact Occurs.empty (.nil _)
    · rw [if_neg hempty]
      exact TextsOccur.refl _
  | imageUrl url => exact TextsOccur.refl _
  | file messageFile => exact TextsOccur.refl _
  | other => exact TextsOccur.refl _

theorem parts_texts_occur (parts : List Part) :
    TextsOccur (parts.flatMap (Part.texts sources)) (parts.flatMap (Part.sentTexts sources)) := by
  induction parts with
  | nil => exact Occurs.nil _
  | cons part parts ih => exact TextsOccur.append (part_texts_occur part) ih

theorem quotes_part (part : Part) :
    quotes (part.sentTexts sources) = quotes (part.texts sources) := by
  cases part with
  | text content =>
    show quotes (if content = "" then [] else [content]) = quotes [content]
    by_cases hempty : content = ""
    · rw [if_pos hempty, hempty]
      rfl
    · rw [if_neg hempty]
  | imageUrl url => rfl
  | file messageFile => rfl
  | other => rfl

theorem quotes_parts (parts : List Part) :
    quotes (parts.flatMap (Part.sentTexts sources)) =
      quotes (parts.flatMap (Part.texts sources)) := by
  induction parts with
  | nil => rfl
  | cons part parts ih =>
    rw [List.flatMap_cons, List.flatMap_cons, quotes_append, quotes_append, ih, quotes_part]

theorem texts_of_role (hsystem : message.role ≠ .system) (htool : message.role ≠ .tool) :
    message.texts sources = message.parseContent.flatMap (Part.texts sources) ∧
      message.sentTexts sources = message.parseContent.flatMap (Part.sentTexts sources) := by
  unfold Message.texts Message.sentTexts
  cases hrole : message.role with
  | system => exact absurd hrole hsystem
  | tool => exact absurd hrole htool
  | user => exact ⟨rfl, rfl⟩
  | assistant => exact ⟨rfl, rfl⟩
  | empty => exact ⟨rfl, rfl⟩

theorem texts_of_system (h : message.role = .system) :
    message.texts sources = [] ∧ message.sentTexts sources = [] := by
  unfold Message.texts Message.sentTexts
  rw [h]
  exact ⟨rfl, rfl⟩

theorem texts_of_tool (h : message.role = .tool) :
    message.texts sources = message.content.texts ∧
      message.sentTexts sources = message.content.texts := by
  unfold Message.texts Message.sentTexts
  rw [h]
  exact ⟨rfl, rfl⟩

/-- A message that stands alone: its texts, and an ellipsis where it has none. -/
theorem texts_fmtMessage (sources : Sources) (message : Message) :
    TextsOccur (message.texts sources)
        ((message.fmtMessage message.content).sentTexts sources) ∧
      quotes ((message.fmtMessage message.content).sentTexts sources) =
        quotes (message.texts sources) := by
  by_cases hsystem : message.role = .system
  · rw [(texts_of_system hsystem).1, (texts_of_system (by exact hsystem)).2]
    exact ⟨Occurs.nil _, rfl⟩
  · by_cases htool : message.role = .tool
    · rw [(texts_of_tool htool).1, (texts_of_tool (by exact htool)).2, fmtMessage_content]
      by_cases hempty : message.content = .null ∨ message.content = .string ""
      · rw [if_pos hempty]
        rcases hempty with h | h
        · rw [h]
          exact ⟨Occurs.nil _, rfl⟩
        · rw [h]
          exact ⟨Occurs.empty (.nil _), rfl⟩
      · rw [if_neg hempty]
        exact ⟨TextsOccur.refl _, rfl⟩
    · rw [(texts_of_role hsystem htool).1, (texts_of_role (by exact hsystem) (by exact htool)).2]
      unfold Message.parseContent
      rw [fmtMessage_content]
      by_cases hempty : message.content = .null ∨ message.content = .string ""
      · rw [if_pos hempty]
        rcases hempty with h | h
        · rw [h]
          exact ⟨Occurs.nil _, rfl⟩
        · rw [h]
          exact ⟨Occurs.empty (.nil _), rfl⟩
      · rw [if_neg hempty]
        exact ⟨parts_texts_occur _, quotes_parts _⟩

/-- The text before the first pass and after it begin alike with a quotation mark. -/
theorem head_fmtMessage (message : Message) :
    (message.fmtMessage message.content).stringContent.toList.head? = some '"' ↔
      message.stringContent.toList.head? = some '"' := by
  unfold Message.stringContent
  rw [fmtMessage_content]
  by_cases hempty : message.content = .null ∨ message.content = .string ""
  · rw [if_pos hempty]
    rcases hempty with h | h <;> rw [h] <;> decide
  · rw [if_neg hempty]

/-- The joined text, where no quotation mark is trimmed. -/
theorem trimChar_joined {s t : String} (hs : s.toList.head? ≠ some '"')
    (ht : t.toList.getLast? ≠ some '"') : trimChar (s ++ " " ++ t) '"' = s ++ " " ++ t := by
  refine trimChar_of_ends ?_ ?_
  · rw [String.toList_append, String.toList_append, List.append_assoc, List.head?_append]
    cases hhead : s.toList.head? with
    | none => simp
    | some c =>
      rw [hhead] at hs
      exact hs
  · rw [String.toList_append, List.getLast?_append]
    cases hlast : t.toList.getLast? with
    | none =>
      rw [String.toList_append, List.getLast?_append]
      simp
    | some c =>
      rw [hlast] at ht
      exact ht

theorem stringContent_of_isString (h : message.isStringContent = true) :
    message.content = .string message.stringContent := by
  unfold Message.isStringContent at h
  unfold Message.stringContent
  cases hcontent : message.content with
  | null =>
    rw [hcontent] at h
    cases h
  | string s => rfl
  | parts parts =>
    rw [hcontent] at h
    cases h

/-- The text of a message with a string, which is not empty. -/
theorem sentTexts_string {s : String} (h : message.content = .string s) (hne : s ≠ "")
    (hsystem : message.role ≠ .system) (htool : message.role ≠ .tool) :
    message.sentTexts sources = [s] := by
  rw [(texts_of_role hsystem htool).2]
  unfold Message.parseContent
  rw [h]
  show (if s = "" then [] else [s]) ++ [] = [s]
  rw [if_neg hne]
  rfl

theorem texts_string {s : String} (h : message.content = .string s)
    (hsystem : message.role ≠ .system) (htool : message.role ≠ .tool) :
    message.texts sources = [s] := by
  rw [(texts_of_role hsystem htool).1]
  unfold Message.parseContent
  rw [h]
  rfl

/-- The texts of two messages that are joined: that of the first, that of the next and the
one they are joined to. -/
theorem texts_joined (sources : Sources) (h : Formats message formatted)
    (hjoined : message.JoinedBy next) (hsystem : next.role ≠ .system) :
    formatted.sentTexts sources = [formatted.stringContent] ∧
      next.texts sources = [next.stringContent] ∧
      (formatted.mergedInto next).sentTexts sources =
        [trimChar (formatted.stringContent ++ " " ++ next.stringContent) '"'] ∧
      (formatted.mergedInto next).stringContent =
        trimChar (formatted.stringContent ++ " " ++ next.stringContent) '"' := by
  have hmergedRole := (formats_mergedInto hjoined formatted).role
  obtain ⟨hrole, htool, hstring, hnext⟩ := hjoined
  have hcontent := stringContent_of_isString (h.isString.2 hstring)
  have hne : formatted.stringContent ≠ "" := by
    intro hempty
    rw [hempty] at hcontent
    exact h.notEmpty.1 hcontent
  have hspace : trimChar (formatted.stringContent ++ " " ++ next.stringContent) '"' ≠ "" := by
    intro hempty
    obtain ⟨a, b, hsplit⟩ :=
      toList_trimChar (formatted.stringContent ++ " " ++ next.stringContent) '"'
    rw [hempty] at hsplit
    have hmem : ' ' ∈ (formatted.stringContent ++ " " ++ next.stringContent).toList := by
      rw [String.toList_append, String.toList_append]
      simp
    rw [hsplit] at hmem
    simp at hmem
  have hmerged : (formatted.mergedInto next).content =
      .string (trimChar (formatted.stringContent ++ " " ++ next.stringContent) '"') := by
    unfold Message.mergedInto
    rw [fmtMessage_content, if_neg]
    rintro (hnull | hempty)
    · cases hnull
    · exact hspace (Content.string.inj hempty)
  have hsystem' : formatted.role ≠ .system := by
    rw [h.role, hrole]
    exact hsystem
  have htool' : formatted.role ≠ .tool := by
    rw [h.role]
    exact htool
  have hnextTool : next.role ≠ .tool := hrole ▸ htool
  have hsent : formatted.sentTexts sources = [formatted.stringContent] :=
    sentTexts_string hcontent hne hsystem' htool'
  have htexts : next.texts sources = [next.stringContent] :=
    texts_string (stringContent_of_isString hnext) hsystem hnextTool
  have hsystemMerged : (formatted.mergedInto next).role ≠ .system := by
    rw [hmergedRole]
    exact hsystem
  have htoolMerged : (formatted.mergedInto next).role ≠ .tool := by
    rw [hmergedRole]
    exact hnextTool
  refine ⟨hsent, htexts, sentTexts_string hmerged hspace hsystemMerged htoolMerged, ?_⟩
  unfold Message.stringContent at hmerged ⊢
  rw [hmerged]

/-- The text of a message that is merged begins like the first text of its row. -/
def OpensLike (opening : String) (message formatted : Message) : Prop :=
  formatted.isStringContent = true → message.role ≠ .system →
    (formatted.stringContent.toList.head? = some '"' ↔ opening.toList.head? = some '"')

theorem opensLike_fmtMessage (message : Message) :
    OpensLike message.stringContent message (message.fmtMessage message.content) := by
  intro _ _
  exact head_fmtMessage message

/-- What is joined without quotation marks is found in the joined text, and the row goes
on. -/
theorem occur_joined {opening : String} {pending : List String} (sources : Sources)
    (h : Formats message formatted) (hjoined : message.JoinedBy next)
    (hopen : OpensLike opening message formatted)
    (hends : next.role ≠ .system → opening.toList.head? ≠ some '"' ∧
      next.stringContent.toList.getLast? ≠ some '"')
    (hoccur : TextsOccur pending (formatted.sentTexts sources)) :
    TextsOccur (pending ++ next.texts sources) ((formatted.mergedInto next).sentTexts sources) ∧
      OpensLike opening next (formatted.mergedInto next) := by
  by_cases hsystem : next.role = .system
  · have hbefore : formatted.role = .system := by
      rw [h.role, hjoined.1]
      exact hsystem
    have hafter : (formatted.mergedInto next).role = .system :=
      (formats_mergedInto hjoined formatted).role.trans hsystem
    rw [(texts_of_system hbefore).2] at hoccur
    rw [(texts_of_system hsystem).1, (texts_of_system hafter).2, List.append_nil]
    exact ⟨hoccur, fun _ hne => absurd hsystem hne⟩
  · obtain ⟨hsent, hnext, hmerged, hcontent⟩ := texts_joined sources h hjoined hsystem
    obtain ⟨hhead, hlast⟩ := hends hsystem
    have hstring : formatted.isStringContent = true := h.isString.2 hjoined.2.2.1
    have hhead' : formatted.stringContent.toList.head? ≠ some '"' := fun hquote =>
      hhead ((hopen hstring (hjoined.1 ▸ hsystem)).1 hquote)
    rw [trimChar_joined hhead' hlast] at hmerged hcontent
    refine ⟨?_, fun _ _ => ?_⟩
    · rw [hnext, hmerged]
      rw [hsent] at hoccur
      unfold TextsOccur at hoccur ⊢
      rw [List.map_append, List.map_singleton, List.map_singleton, String.toList_append,
        String.toList_append]
      exact Occurs.concat hoccur _ _
    · rw [hcontent]
      have hnot : (formatted.stringContent ++ " " ++ next.stringContent).toList.head? ≠
          some '"' := by
        rw [String.toList_append, String.toList_append, List.append_assoc, List.head?_append]
        cases hs : formatted.stringContent.toList.head? with
        | none => simp
        | some c =>
          rw [hs] at hhead'
          exact hhead'
      exact ⟨fun hquote => absurd hquote hnot, fun hquote => absurd hquote hhead⟩

/-- Every text is found again, where joining keeps the texts. -/
theorem texts_formatFrom {opening : String} {pending : List String} (messages : List Message)
    (h : Formats message formatted) (hopen : OpensLike opening message formatted)
    (hkeeps : KeepsTexts opening message messages)
    (hoccur : TextsOccur pending (formatted.sentTexts sources)) :
    TextsOccur (pending ++ messages.flatMap (Message.texts sources))
      ((formatFrom formatted messages).flatMap (Message.sentTexts sources)) := by
  induction messages generalizing message formatted opening pending with
  | nil =>
    show TextsOccur (pending ++ []) (formatted.sentTexts sources ++ [])
    rwa [List.append_nil, List.append_nil]
  | cons next messages ih =>
    unfold KeepsTexts at hkeeps
    rw [List.flatMap_cons]
    by_cases hjoined : message.JoinedBy next
    · rw [if_pos hjoined] at hkeeps
      obtain ⟨hoccur', hopen'⟩ := occur_joined sources h hjoined hopen hkeeps.1 hoccur
      rw [formatFrom_joined h hjoined, ← List.append_assoc]
      exact ih (formats_mergedInto hjoined formatted) hopen' hkeeps.2 hoccur'
    · rw [if_neg hjoined] at hkeeps
      rw [formatFrom_apart h hjoined, List.flatMap_cons]
      refine TextsOccur.append hoccur ?_
      exact ih (formats_self next) (opensLike_fmtMessage next) hkeeps
        (texts_fmtMessage sources next).1

/-- Joining adds no quotation mark, and loses one that is trimmed. -/
theorem quotes_joined (sources : Sources) (h : Formats message formatted)
    (hjoined : message.JoinedBy next) :
    quotes ((formatted.mergedInto next).sentTexts sources) ≤
        quotes (formatted.sentTexts sources) + quotes (next.texts sources) ∧
      (next.role ≠ .system → formatted.stringContent.toList.head? = some '"' ∨
          next.stringContent.toList.getLast? = some '"' →
        quotes ((formatted.mergedInto next).sentTexts sources) <
          quotes (formatted.sentTexts sources) + quotes (next.texts sources)) := by
  by_cases hsystem : next.role = .system
  · have hrole : (formatted.mergedInto next).role = .system :=
      (formats_mergedInto hjoined formatted).role.trans hsystem
    rw [(texts_of_system hrole).2]
    exact ⟨Nat.zero_le _, fun hne => absurd hsystem hne⟩
  · obtain ⟨hsent, hnext, hmerged, -⟩ := texts_joined sources h hjoined hsystem
    have hcount : (formatted.stringContent ++ " " ++ next.stringContent).toList.count '"' =
        formatted.stringContent.toList.count '"' + next.stringContent.toList.count '"' := by
      rw [String.toList_append, String.toList_append, List.count_append, List.count_append]
      rfl
    rw [hsent, hnext, hmerged, quotes_singleton, quotes_singleton, quotes_singleton, ← hcount]
    refine ⟨count_trimChar_le _ _, fun _ hends => count_trimChar_lt ?_⟩
    rw [String.toList_append, String.toList_append, List.append_assoc, List.head?_append,
      ← List.append_assoc, List.getLast?_append]
    exact hends.imp (fun hhead => by rw [hhead]; rfl) (fun hlast => by rw [hlast]; rfl)

/-- A row that is trimmed has lost a quotation mark. -/
theorem quotes_formatFrom (sources : Sources) (messages : List Message)
    (h : Formats message formatted) :
    quotes ((formatFrom formatted messages).flatMap (Message.sentTexts sources)) ≤
        quotes (formatted.sentTexts sources) +
          quotes (messages.flatMap (Message.texts sources)) ∧
      ∀ opening, OpensLike opening message formatted → ¬ KeepsTexts opening message messages →
        quotes ((formatFrom formatted messages).flatMap (Message.sentTexts sources)) <
          quotes (formatted.sentTexts sources) +
            quotes (messages.flatMap (Message.texts sources)) := by
  induction messages generalizing message formatted with
  | nil =>
    show quotes (formatted.sentTexts sources ++ []) ≤ _ + 0 ∧ _
    rw [List.append_nil]
    exact ⟨Nat.le_refl _, fun _ _ hnot => absurd trivial hnot⟩
  | cons next messages ih =>
    rw [List.flatMap_cons, quotes_append]
    by_cases hjoined : message.JoinedBy next
    · rw [formatFrom_joined h hjoined]
      obtain ⟨hle, hlt⟩ := ih (formats_mergedInto hjoined formatted)
      obtain ⟨hthis, hends⟩ := quotes_joined sources h hjoined
      refine ⟨by omega, fun opening hopen hnot => ?_⟩
      unfold KeepsTexts at hnot
      rw [if_pos hjoined] at hnot
      by_cases hkeeps : next.role ≠ .system → opening.toList.head? ≠ some '"' ∧
          next.stringContent.toList.getLast? ≠ some '"'
      · have hopen' := (occur_joined sources h hjoined hopen hkeeps
          (show TextsOccur [] _ from Occurs.nil _)).2
        have hrest := hlt opening hopen' fun hrest => hnot ⟨hkeeps, hrest⟩
        omega
      · have hsystem : next.role ≠ .system := by
          intro hsystem
          exact hkeeps fun hne => absurd hsystem hne
        have hquote : formatted.stringContent.toList.head? = some '"' ∨
            next.stringContent.toList.getLast? = some '"' := by
          by_contra hnone
          obtain ⟨hhead, hlast⟩ := not_or.1 hnone
          refine hkeeps fun _ => ⟨fun hquote => hhead ?_, hlast⟩
          exact (hopen (h.isString.2 hjoined.2.2.1) (hjoined.1 ▸ hsystem)).2 hquote
        have hlost := hends hsystem hquote
        omega
    · rw [formatFrom_apart h hjoined, List.flatMap_cons, quotes_append]
      obtain ⟨hle, hlt⟩ := ih (formats_self next)
      have hthis := (texts_fmtMessage sources next).2
      refine ⟨by omega, fun opening hopen hnot => ?_⟩
      unfold KeepsTexts at hnot
      rw [if_neg hjoined] at hnot
      have hrest := hlt next.stringContent (opensLike_fmtMessage next) hnot
      omega

end Texts

end Convert.OpenAI
