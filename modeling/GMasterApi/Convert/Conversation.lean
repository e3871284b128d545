import GMasterApi.Convert.MergedMessages

/-!
# Conversations that survive the conversion

A converted conversation is `Sound` if its roles are those of Claude, the tool calls and
results are all there, and every text occurs in it.  Merging neighbours is what may break it;
`sound_iff` says exactly when it does not.
-/

namespace Convert.OpenAI

open JsonValue Occurrence

/-! ## What is to be kept -/

def Block.toolEvents : Block → List ToolEvent
  | .toolUse id _ _ => [.use id]
  | .toolResult toolUseId _ => [.result toolUseId]
  | .text _ => []
  | .image _ _ => []
  | .document _ _ => []

def BlockContent.toolEvents (content : BlockContent) : List ToolEvent :=
  content.toBlocks.flatMap Block.toolEvents

def Block.texts : Block → List String
  | .text content => [content]
  | .toolResult _ content => content.texts
  | .image _ _ => []
  | .document _ _ => []
  | .toolUse _ _ _ => []

def BlockContent.texts (content : BlockContent) : List String :=
  content.toBlocks.flatMap Block.texts

structure Sound (sources : Sources) (messages : List Message)
    (claudeMessages : List ClaudeMessage) : Prop where
  roles : ∀ message ∈ claudeMessages, message.role = .user ∨ message.role = .assistant
  first : ∀ message, claudeMessages.head? = some message → message.role = .user
  toolEvents : claudeMessages.flatMap (fun message => message.content.toolEvents) =
    messages.flatMap Message.toolEvents
  texts : TextsOccur (messages.flatMap (Message.texts sources))
    (claudeMessages.flatMap fun message => message.content.texts)

/-! ## What is asked of the request -/

/-- A schema has no type or one that is a string. -/
def Tool.Typed (tool : Tool) : Prop :=
  ∀ params, tool.parameters = .object params →
    (params.lookup "type").getD .null = .null ∨ ∃ type, params.lookup "type" = some (.string type)

def StopTyped (stop : Json) : Prop :=
  ∀ items, stop = .array items → ∀ item ∈ items, ∃ s, item = .string s

/-- The images and files of the message can be fetched, as far as they are converted. -/
def Message.Readable (sources : Sources) (message : Message) : Prop :=
  message.role ≠ .system → message.role ≠ .tool →
    ∀ part ∈ message.parseContent, ∃ blocks, part.claudeBlocks sources = .ok blocks

structure Lossless (messages : List Message) : Prop where
  roles : ∀ message ∈ messages, message.role ≠ .empty
  arguments : ∀ message ∈ messages, message.role = .assistant →
    ∀ toolCall ∈ message.toolCalls.getD [], toolCall.arguments.isSome
  calls : ∀ message rest, messages = message :: rest → KeepsCalls message rest
  texts : ∀ message rest, messages = message :: rest →
    KeepsTexts message.stringContent message rest

structure Request.Convertible (sources : Sources) (request : Request) : Prop where
  tools : ∀ tool ∈ request.tools, tool.Typed
  stop : request.reasoningErr = none → StopTyped request.stop
  messages : request.reasoningErr ≠ none ∨
    (∃ message ∈ request.messages, ¬ message.Readable sources) ∨ Lossless request.messages

/-! ## The second pass, message by message -/

section Blocks

variable {sources : Sources} {message formatted : Message} {blocks : List Block}

/-- A file becomes nothing, a document or a text. -/
theorem buildClaudeFileMessage_ok {file : MessageFile}
    (h : buildClaudeFileMessage sources file = .ok blocks) :
    blocks.flatMap Block.texts = (fileText sources file).toList ∧
      blocks.flatMap Block.toolEvents = [] := by
  have hkind : blocks = [] ∨ (∃ mediaType data, blocks = [.document mediaType data]) ∨
      ∃ content, blocks = [.text content] := by
    unfold buildClaudeFileMessage at h
    split at h
    · exact .inl (Except.ok.inj h).symm
    · cases h
    · split at h
      · exact .inr (.inl ⟨_, _, (Except.ok.inj h).symm⟩)
      · split at h
        · split at h
          · exact .inr (.inr ⟨_, (Except.ok.inj h).symm⟩)
          · cases h
        · exact .inl (Except.ok.inj h).symm
  unfold fileText
  rw [h]
  rcases hkind with rfl | ⟨mediaType, data, rfl⟩ | ⟨content, rfl⟩
  · exact ⟨rfl, rfl⟩
  · exact ⟨rfl, rfl⟩
  · exact ⟨rfl, rfl⟩

theorem claudeBlocks_ok {part : Part} (h : part.claudeBlocks sources = .ok blocks) :
    blocks.flatMap Block.texts = part.sentTexts sources ∧
      blocks.flatMap Block.toolEvents = [] := by
  cases part with
  | text content =>
    cases h
    show (if content = "" then [] else [Block.text content]).flatMap Block.texts =
        (if content = "" then [] else [content]) ∧ _
    by_cases hempty : content = ""
    · rw [if_pos hempty, if_pos hempty]
      exact ⟨rfl, rfl⟩
    · rw [if_neg hempty, if_neg hempty]
      exact ⟨rfl, rfl⟩
  | imageUrl url =>
    unfold Part.claudeBlocks at h
    dsimp only at h
    split at h
    · cases h
      exact ⟨rfl, rfl⟩
    · cases h
  | file messageFile => exact buildClaudeFileMessage_ok h
  | other =>
    cases h
    exact ⟨rfl, rfl⟩

theorem claudeMediaMessages_ok {parts : List Part}
    (h : ∀ part ∈ parts, ∃ blocks, part.claudeBlocks sources = .ok blocks) :
    ∃ blocks, claudeMediaMessages sources parts = .ok blocks ∧
      blocks.flatMap Block.texts = parts.flatMap (Part.sentTexts sources) ∧
      blocks.flatMap Block.toolEvents = [] := by
  induction parts with
  | nil => exact ⟨[], rfl, rfl, rfl⟩
  | cons part parts ih =>
    obtain ⟨blocks, hblocks⟩ := h part List.mem_cons_self
    obtain ⟨rest, hrest, htexts, hevents⟩ := ih fun next hnext =>
      h next (List.mem_cons_of_mem _ hnext)
    obtain ⟨htexts', hevents'⟩ := claudeBlocks_ok hblocks
    refine ⟨blocks ++ rest, ?_, ?_, ?_⟩
    · unfold claudeMediaMessages
      rw [hblocks, hrest]
      rfl
    · rw [List.flatMap_append, htexts, htexts', List.flatMap_cons]
    · rw [List.flatMap_append, hevents, hevents']
      rfl

theorem claudeBlocks_error (sources : Sources) (part : Part) :
    (∃ blocks, part.claudeBlocks sources = .ok blocks) ∨
      ∃ err, part.claudeBlocks sources = .error (.err err) := by
  unfold Part.claudeBlocks
  cases part with
  | text content => exact .inl ⟨_, rfl⟩
  | other => exact .inl ⟨_, rfl⟩
  | imageUrl url =>
    dsimp only
    split
    · exact .inl ⟨_, rfl⟩
    · exact .inr ⟨_, rfl⟩
  | file messageFile =>
    dsimp only
    unfold buildClaudeFileMessage
    split
    · exact .inl ⟨_, rfl⟩
    · exact .inr ⟨_, rfl⟩
    · split
      · exact .inl ⟨_, rfl⟩
      · split
        · split
          · exact .inl ⟨_, rfl⟩
          · exact .inr ⟨_, rfl⟩
        · exact .inl ⟨_, rfl⟩

theorem claudeMediaMessages_error {parts : List Part}
    (h : ¬ ∀ part ∈ parts, ∃ blocks, part.claudeBlocks sources = .ok blocks) :
    ∃ err, claudeMediaMessages sources parts = .error (.err err) := by
  induction parts with
  | nil => exact absurd (by simp) h
  | cons part parts ih =>
    unfold claudeMediaMessages
    rcases claudeBlocks_error sources part with ⟨blocks, hblocks⟩ | ⟨err, herr⟩
    · obtain ⟨err, herr⟩ := ih fun hall => h fun next hnext => by
        rcases List.mem_cons.1 hnext with rfl | hnext
        · exact ⟨blocks, hblocks⟩
        · exact hall next hnext
      rw [hblocks, herr]
      exact ⟨err, rfl⟩
    · rw [herr]
      exact ⟨err, rfl⟩

theorem toolEvents_filterMap (toolCalls : List ToolCall) :
    (toolCalls.filterMap ToolCall.claudeBlock).flatMap Block.toolEvents =
        (toolCalls.filter fun toolCall => toolCall.arguments.isSome).map
          (fun toolCall => .use toolCall.id) ∧
      (toolCalls.filterMap ToolCall.claudeBlock).flatMap Block.texts = [] := by
  induction toolCalls with
  | nil => exact ⟨rfl, rfl⟩
  | cons toolCall toolCalls ih =>
    cases harguments : toolCall.arguments with
    | none =>
      have hblock : toolCall.claudeBlock = none := by
        unfold ToolCall.claudeBlock
        rw [harguments]
        rfl
      rw [List.filterMap_cons_none hblock, List.filter_cons_of_neg (by simp [harguments])]
      exact ih
    | some input =>
      have hblock : toolCall.claudeBlock = some (.toolUse toolCall.id toolCall.name input) := by
        unfold ToolCall.claudeBlock
        rw [harguments]
        rfl
      rw [List.filterMap_cons_some hblock, List.filter_cons_of_pos (by simp [harguments]),
        List.map_cons, List.flatMap_cons, List.flatMap_cons, ih.1, ih.2]
      exact ⟨rfl, rfl⟩

/-- The content of a message that is neither of the system nor a tool result. -/
theorem claudeContent_ok (h : Formats message formatted) (hsystem : formatted.role ≠ .system)
    (htool : formatted.role ≠ .tool) (hreadable : formatted.Readable sources) :
    ∃ content, formatted.claudeContent sources = .ok content ∧
      content.texts = formatted.sentTexts sources ∧
      content.toolEvents = formatted.sentEvents := by
  unfold Message.claudeContent
  by_cases hplain : formatted.isStringContent ∧ formatted.toolCalls.isNone
  · have hcontent := stringContent_of_isString hplain.1
    have hne : formatted.stringContent ≠ "" := by
      intro hempty
      rw [hempty] at hcontent
      exact h.notEmpty.1 hcontent
    rw [if_pos hplain, if_neg hne, sentTexts_string hcontent hne hsystem htool]
    refine ⟨_, rfl, rfl, ?_⟩
    unfold Message.sentEvents
    rw [Option.isNone_iff_eq_none.1 hplain.2, if_neg htool]
    split <;> rfl
  · obtain ⟨blocks, hblocks, htexts, hevents⟩ :=
      claudeMediaMessages_ok (hreadable hsystem htool)
    obtain ⟨hcalls, hnone⟩ := toolEvents_filterMap (formatted.toolCalls.getD [])
    rw [if_neg hplain, hblocks, (texts_of_role hsystem htool).2]
    refine ⟨_, rfl, ?_, ?_⟩
    · show (blocks ++ _).flatMap Block.texts = _
      rw [List.flatMap_append, htexts, hnone, List.append_nil]
    · show (blocks ++ _).flatMap Block.toolEvents = _
      rw [List.flatMap_append, hevents, hcalls, List.nil_append]
      unfold Message.sentEvents
      by_cases hassistant : formatted.role = .assistant
      · rw [if_pos hassistant]
      · rw [if_neg hassistant, if_neg htool, h.noCalls hassistant]
        rfl

theorem claudeContent_error (hreadable : ¬ formatted.Readable sources) :
    formatted.role ≠ .system ∧ formatted.role ≠ .tool ∧
      ∃ err, formatted.claudeContent sources = .error (.err err) := by
  unfold Message.Readable at hreadable
  push Not at hreadable
  obtain ⟨hsystem, htool, part, hpart, hnone⟩ := hreadable
  refine ⟨hsystem, htool, ?_⟩
  have hstring : ¬ (formatted.isStringContent = true ∧ formatted.toolCalls.isNone = true) := by
    rintro ⟨hstring, -⟩
    have hcontent := stringContent_of_isString hstring
    unfold Message.parseContent at hpart
    rw [hcontent] at hpart
    rw [List.mem_singleton.1 hpart] at hnone
    exact hnone _ rfl
  have hunread : ¬ ∀ part ∈ formatted.parseContent,
      ∃ blocks, part.claudeBlocks sources = .ok blocks := by
    intro hall
    obtain ⟨blocks, hblocks⟩ := hall part hpart
    exact hnone blocks hblocks
  obtain ⟨err, herr⟩ := claudeMediaMessages_error hunread
  unfold Message.claudeContent
  rw [if_neg hstring, herr]
  exact ⟨err, rfl⟩

end Blocks

def outTexts (claudeMessages : List ClaudeMessage) : List String :=
  claudeMessages.flatMap fun message => message.content.texts

def outEvents (claudeMessages : List ClaudeMessage) : List ToolEvent :=
  claudeMessages.flatMap fun message => message.content.toolEvents

/-- The second pass after the messages `formatted`. -/
structure Reached (sources : Sources) (formatted : List Message) (s : Pass) : Prop where
  texts : ∃ filler, quotes filler = 0 ∧
    outTexts s.claudeMessages = filler ++ formatted.flatMap (Message.sentTexts sources)
  events : outEvents s.claudeMessages = formatted.flatMap Message.sentEvents
  first : ∀ role, (s.claudeMessages.map ClaudeMessage.role).head? = some role → role = .user
  started : s.isFirstMessage = true ↔ s.claudeMessages = []
  roles : ∀ role ∈ s.claudeMessages.map ClaudeMessage.role, role = .user ∨
    ∃ message ∈ formatted, message.role = role ∧ role ≠ .system ∧ role ≠ .tool
  shown : ∀ message ∈ formatted, message.role ≠ .system → message.role ≠ .tool →
    message.role ∈ s.claudeMessages.map ClaudeMessage.role

section Pass

variable {sources : Sources} {formatted : List Message} {s : Pass} {message next : Message}

theorem addToolResult_spec (claudeMessages : List ClaudeMessage) (message : Message) :
    outTexts (addToolResult claudeMessages message) =
        outTexts claudeMessages ++ message.content.texts ∧
      outEvents (addToolResult claudeMessages message) =
        outEvents claudeMessages ++ [.result message.toolCallId] ∧
      ((addToolResult claudeMessages message).map ClaudeMessage.role =
          claudeMessages.map ClaudeMessage.role ∧ claudeMessages ≠ [] ∨
        (addToolResult claudeMessages message).map ClaudeMessage.role =
          claudeMessages.map ClaudeMessage.role ++ [.user]) := by
  have happend : outTexts (claudeMessages ++
        [⟨.user, .blocks [.toolResult message.toolCallId message.content]⟩]) =
        outTexts claudeMessages ++ message.content.texts ∧
      outEvents (claudeMessages ++
        [⟨.user, .blocks [.toolResult message.toolCallId message.content]⟩]) =
        outEvents claudeMessages ++ [.result message.toolCallId] := by
    unfold outTexts outEvents
    rw [List.flatMap_append, List.flatMap_append]
    refine ⟨congrArg _ ?_, rfl⟩
    show (message.content.texts ++ []) ++ [] = _
    rw [List.append_nil, List.append_nil]
  unfold addToolResult
  dsimp only
  rcases List.eq_nil_or_concat claudeMessages with rfl | ⟨init, last, rfl⟩
  · exact ⟨happend.1, happend.2, .inr rfl⟩
  · rw [List.concat_eq_append, List.getLast?_concat]
    rw [List.concat_eq_append] at happend
    dsimp only
    by_cases huser : last.role = .user
    · rw [if_pos huser, List.dropLast_concat]
      refine ⟨?_, ?_, .inl ⟨?_, by simp⟩⟩
      · unfold outTexts BlockContent.texts
        rw [List.flatMap_append, List.flatMap_append, List.append_assoc]
        congr 1
        show (last.content.toBlocks ++ [_]).flatMap Block.texts ++ [] = _
        rw [List.flatMap_append, List.append_nil, List.flatMap_singleton, List.flatMap_singleton]
        rfl
      · unfold outEvents BlockContent.toolEvents
        rw [List.flatMap_append, List.flatMap_append, List.append_assoc]
        congr 1
        show (last.content.toBlocks ++ [_]).flatMap Block.toolEvents ++ [] = _
        rw [List.flatMap_append, List.append_nil, List.flatMap_singleton, List.flatMap_singleton]
        rfl
      · rw [List.map_append, List.map_append]
        rfl
    · rw [if_neg huser]
      exact ⟨happend.1, happend.2, .inr (by rw [List.map_append]; rfl)⟩

theorem begin_isFirst (s : Pass) (role : Role) : (s.begin role).isFirstMessage = false := by
  unfold Pass.begin
  split
  · rfl
  · rename_i h
    simpa using h

/-- Before a message that is not of the system: a message of the user may have been added. -/
theorem begin_spec (h : Reached sources formatted s) (role : Role) :
    (∃ filler, quotes filler = 0 ∧ outTexts (s.begin role).claudeMessages =
        filler ++ formatted.flatMap (Message.sentTexts sources)) ∧
      outEvents (s.begin role).claudeMessages = formatted.flatMap Message.sentEvents ∧
      ((s.begin role).claudeMessages = [] → role = .user) ∧
      (∀ role', ((s.begin role).claudeMessages.map ClaudeMessage.role).head? = some role' →
        role' = .user) ∧
      (∀ role' ∈ (s.begin role).claudeMessages.map ClaudeMessage.role,
        role' = .user ∨ role' ∈ s.claudeMessages.map ClaudeMessage.role) ∧
      ∀ role' ∈ s.claudeMessages.map ClaudeMessage.role,
        role' ∈ (s.begin role).claudeMessages.map ClaudeMessage.role := by
  unfold Pass.begin
  by_cases hfirst : s.isFirstMessage = true
  · have hnil := h.started.1 hfirst
    rw [if_pos hfirst]
    dsimp only
    by_cases huser : role = .user
    · rw [if_neg (not_not_intro huser)]
      exact ⟨h.texts, h.events, fun _ => huser, h.first, fun _ hr => .inr hr, fun _ hr => hr⟩
    · rw [if_pos huser, hnil, List.nil_append]
      obtain ⟨filler, hfiller, htexts⟩ := h.texts
      have hevents := h.events
      rw [hnil] at htexts hevents
      obtain ⟨-, hnone⟩ := List.append_eq_nil_iff.1 htexts.symm
      refine ⟨⟨["..."], by decide, ?_⟩, ?_, fun h => by simp at h, ?_, ?_, ?_⟩
      · rw [hnone]
        rfl
      · rw [← hevents]
        rfl
      · intro role' hrole'
        exact (Option.some.inj hrole').symm
      · intro role' hrole'
        exact .inl (List.mem_singleton.1 hrole')
      · intro role' hrole'
        cases hrole'
  · rw [if_neg hfirst]
    exact ⟨h.texts, h.events, fun hnil => absurd (h.started.2 hnil) hfirst, h.first,
      fun _ hr => .inr hr, fun _ hr => hr⟩

/-- What a message that is not of the system adds after the beginning. -/
theorem reached_of_begun (h : Reached sources formatted s) (hsystem : next.role ≠ .system)
    {claudeMessages : List ClaudeMessage}
    (htexts : outTexts claudeMessages =
      outTexts (s.begin next.role).claudeMessages ++ next.sentTexts sources)
    (hevents : outEvents claudeMessages =
      outEvents (s.begin next.role).claudeMessages ++ next.sentEvents)
    (hroles : (claudeMessages.map ClaudeMessage.role =
          (s.begin next.role).claudeMessages.map ClaudeMessage.role ∧
        (s.begin next.role).claudeMessages ≠ [] ∧ next.role = .tool) ∨
      ∃ role, claudeMessages.map ClaudeMessage.role =
          (s.begin next.role).claudeMessages.map ClaudeMessage.role ++ [role] ∧
        (next.role = .tool ∧ role = .user ∨ next.role ≠ .tool ∧ role = next.role)) :
    Reached sources (formatted ++ [next])
      { s.begin next.role with claudeMessages := claudeMessages } := by
  obtain ⟨⟨filler, hfiller, hbefore⟩, hbeforeEvents, hnil, hfirst, hfrom, hinto⟩ :=
    begin_spec h next.role
  have hold : ∀ role ∈ (s.begin next.role).claudeMessages.map ClaudeMessage.role, role = .user ∨
      ∃ message ∈ formatted ++ [next], message.role = role ∧ role ≠ .system ∧ role ≠ .tool := by
    intro role hrole
    rcases hfrom role hrole with huser | hrole
    · exact .inl huser
    · refine (h.roles role hrole).imp_right ?_
      rintro ⟨message, hmessage, hthis⟩
      exact ⟨message, List.mem_append_left _ hmessage, hthis⟩
  have hsub : ∀ role ∈ (s.begin next.role).claudeMessages.map ClaudeMessage.role,
      role ∈ claudeMessages.map ClaudeMessage.role := by
    intro role hrole
    rcases hroles with ⟨hsame, -⟩ | ⟨last, hlast, -⟩
    · rwa [hsame]
    · rw [hlast]
      exact List.mem_append_left _ hrole
  refine ⟨⟨filler, hfiller, ?_⟩, ?_, ?_, ?_, ?_, ?_⟩
  · show outTexts claudeMessages = _
    rw [htexts, hbefore, List.flatMap_append, List.flatMap_singleton, List.append_assoc]
  · show outEvents claudeMessages = _
    rw [hevents, hbeforeEvents, List.flatMap_append, List.flatMap_singleton]
  · intro role hrole
    rcases hroles with ⟨hsame, -⟩ | ⟨last, hlast, hkind⟩
    · rw [hsame] at hrole
      exact hfirst role hrole
    · rw [hlast] at hrole
      cases hbegun : (s.begin next.role).claudeMessages with
      | nil =>
        rw [hbegun] at hrole
        have hlastRole : last = role := Option.some.inj hrole
        rcases hkind with ⟨-, huser⟩ | ⟨-, hnext⟩
        · rw [← hlastRole, huser]
        · rw [← hlastRole, hnext]
          exact hnil hbegun
      | cons first rest =>
        refine hfirst role ?_
        rw [hbegun] at hrole ⊢
        exact hrole
  · show (s.begin next.role).isFirstMessage = true ↔ claudeMessages = []
    rw [begin_isFirst]
    refine ⟨fun hfalse => absurd hfalse (by decide), fun hempty => ?_⟩
    rw [hempty] at hroles
    rcases hroles with ⟨hsame, hne, -⟩ | ⟨last, hlast, -⟩
    · exact absurd (List.map_eq_nil_iff.1 hsame.symm) hne
    · simp at hlast
  · intro role hrole
    rcases hroles with ⟨hsame, -⟩ | ⟨last, hlast, hkind⟩
    · exact hold role (hsame ▸ hrole)
    · have hmem : role ∈ (s.begin next.role).claudeMessages.map ClaudeMessage.role ++ [last] :=
        hlast ▸ hrole
      rcases List.mem_append.1 hmem with hrole | hrole
      · exact hold role hrole
      · rw [List.mem_singleton.1 hrole]
        rcases hkind with ⟨-, huser⟩ | ⟨htool, hnext⟩
        · exact .inl huser
        · rw [hnext]
          exact .inr ⟨next, by simp, rfl, hsystem, htool⟩
  · intro message hmessage hnotSystem hnotTool
    rcases List.mem_append.1 hmessage with hmessage | hmessage
    · exact hsub _ (hinto _ (h.shown message hmessage hnotSystem hnotTool))
    · obtain rfl := List.mem_singleton.1 hmessage
      rcases hroles with ⟨-, -, htool⟩ | ⟨last, hlast, hkind⟩
      · exact absurd htool hnotTool
      · rcases hkind with ⟨htool, -⟩ | ⟨-, hnext⟩
        · exact absurd htool hnotTool
        · show message.role ∈ claudeMessages.map ClaudeMessage.role
          rw [hlast, hnext]
          simp

/-- **One message** of the second pass. -/
theorem reached_add (h : Reached sources formatted s) (hformats : Formats message next)
    (hreadable : next.Readable sources) :
    ∃ s', s.add sources next = .ok s' ∧ Reached sources (formatted ++ [next]) s' := by
  unfold Pass.add
  by_cases hsystem : next.role = .system
  · have hevents : next.sentEvents = [] := by
      unfold Message.sentEvents
      rw [hsystem]
      rfl
    rw [if_pos hsystem]
    refine ⟨_, rfl, ?_, ?_, h.first, h.started, ?_, ?_⟩
    · rw [List.flatMap_append, List.flatMap_singleton, (texts_of_system hsystem).2,
        List.append_nil]
      exact h.texts
    · rw [List.flatMap_append, List.flatMap_singleton, hevents, List.append_nil]
      exact h.events
    · intro role hrole
      refine (h.roles role hrole).imp_right ?_
      rintro ⟨message, hmessage, hthis⟩
      exact ⟨message, List.mem_append_left _ hmessage, hthis⟩
    · intro message hmessage hnotSystem
      rcases List.mem_append.1 hmessage with hmessage | hmessage
      · exact h.shown message hmessage hnotSystem
      · rw [List.mem_singleton.1 hmessage] at hnotSystem
        exact absurd hsystem hnotSystem
  · rw [if_neg hsystem]
    dsimp only
    by_cases htool : next.role = .tool
    · rw [if_pos htool]
      obtain ⟨htexts, hevents, hroles⟩ :=
        addToolResult_spec (s.begin next.role).claudeMessages next
      refine ⟨_, rfl, reached_of_begun h hsystem ?_ ?_ ?_⟩
      · rw [htexts, (texts_of_tool htool).2]
      · rw [hevents]
        unfold Message.sentEvents
        rw [htool]
        rfl
      · rcases hroles with ⟨hsame, hne⟩ | hlast
        · exact .inl ⟨hsame, hne, htool⟩
        · exact .inr ⟨_, hlast, .inl ⟨htool, rfl⟩⟩
    · rw [if_neg htool]
      obtain ⟨content, hcontent, htexts, hevents⟩ :=
        claudeContent_ok hformats hsystem htool hreadable
      rw [hcontent]
      refine ⟨_, rfl, reached_of_begun h hsystem ?_ ?_ (.inr ⟨next.role, ?_, .inr ⟨htool, rfl⟩⟩)⟩
      · unfold outTexts
        rw [List.flatMap_append, List.flatMap_singleton, htexts]
      · unfold outEvents
        rw [List.flatMap_append, List.flatMap_singleton, hevents]
      · rw [List.map_append]
        rfl

theorem add_error (hreadable : ¬ next.Readable sources) (s : Pass) :
    ∃ err, s.add sources next = .error (.err err) := by
  obtain ⟨hsystem, htool, err, herr⟩ := claudeContent_error hreadable
  unfold Pass.add
  rw [if_neg hsystem]
  dsimp only
  rw [if_neg htool, herr]
  exact ⟨err, rfl⟩

/-- **The whole second pass**, where everything can be read. -/
theorem reached_addAll {rest : List Message} (h : Reached sources formatted s)
    (hformats : ∀ next ∈ rest, ∃ message, Formats message next)
    (hreadable : ∀ next ∈ rest, next.Readable sources) :
    ∃ s', s.addAll sources rest = .ok s' ∧ Reached sources (formatted ++ rest) s' := by
  induction rest generalizing s formatted with
  | nil =>
    rw [List.append_nil]
    exact ⟨s, rfl, h⟩
  | cons next rest ih =>
    obtain ⟨message, hmessage⟩ := hformats next List.mem_cons_self
    obtain ⟨s', hadd, hreached⟩ := reached_add h hmessage (hreadable next List.mem_cons_self)
    obtain ⟨s'', hall, hreached'⟩ := ih hreached
      (fun other hother => hformats other (List.mem_cons_of_mem _ hother))
      (fun other hother => hreadable other (List.mem_cons_of_mem _ hother))
    refine ⟨s'', ?_, ?_⟩
    · unfold Pass.addAll
      rw [hadd]
      exact hall
    · rwa [List.append_assoc] at hreached'

theorem addAll_error {rest : List Message} (h : Reached sources formatted s)
    (hformats : ∀ next ∈ rest, ∃ message, Formats message next)
    (hreadable : ¬ ∀ next ∈ rest, next.Readable sources) :
    ∃ err, s.addAll sources rest = .error (.err err) := by
  induction rest generalizing s formatted with
  | nil => exact absurd (by simp) hreadable
  | cons next rest ih =>
    unfold Pass.addAll
    by_cases hthis : next.Readable sources
    · obtain ⟨message, hmessage⟩ := hformats next List.mem_cons_self
      obtain ⟨s', hadd, hreached⟩ := reached_add h hmessage hthis
      rw [hadd]
      refine ih hreached (fun other hother => hformats other (List.mem_cons_of_mem _ hother)) ?_
      intro hall
      refine hreadable fun other hother => ?_
      rcases List.mem_cons.1 hother with rfl | hother
      · exact hthis
      · exact hall other hother
    · obtain ⟨err, herr⟩ := add_error hthis s
      rw [herr]
      exact ⟨err, rfl⟩

end Pass

/-! ## The two passes together -/

section Request

variable {sources : Sources} {message formatted : Message} {messages : List Message}

theorem formats_formatFrom (messages : List Message) (h : Formats message formatted) :
    (∀ f ∈ formatFrom formatted messages, ∃ m ∈ message :: messages, Formats m f) ∧
      ∀ m ∈ message :: messages, ∃ f ∈ formatFrom formatted messages, f.role = m.role := by
  induction messages generalizing message formatted with
  | nil =>
    refine ⟨fun f hf => ?_, fun m hm => ?_⟩
    · rw [List.mem_singleton.1 hf]
      exact ⟨message, List.mem_cons_self, h⟩
    · rw [List.mem_singleton.1 hm]
      exact ⟨formatted, List.mem_cons_self, h.role⟩
  | cons next messages ih =>
    by_cases hjoined : message.JoinedBy next
    · rw [formatFrom_joined h hjoined]
      obtain ⟨hfrom, hinto⟩ := ih (formats_mergedInto hjoined formatted)
      refine ⟨fun f hf => ?_, fun m hm => ?_⟩
      · obtain ⟨m, hm, hthis⟩ := hfrom f hf
        exact ⟨m, List.mem_cons_of_mem _ hm, hthis⟩
      · rcases List.mem_cons.1 hm with rfl | hm
        · rw [hjoined.1]
          exact hinto next List.mem_cons_self
        · exact hinto m hm
    · rw [formatFrom_apart h hjoined]
      obtain ⟨hfrom, hinto⟩ := ih (formats_self next)
      refine ⟨fun f hf => ?_, fun m hm => ?_⟩
      · rcases List.mem_cons.1 hf with rfl | hf
        · exact ⟨message, List.mem_cons_self, h⟩
        · obtain ⟨m, hm, hthis⟩ := hfrom f hf
          exact ⟨m, List.mem_cons_of_mem _ hm, hthis⟩
      · rcases List.mem_cons.1 hm with rfl | hm
        · exact ⟨formatted, List.mem_cons_self, h.role⟩
        · obtain ⟨f, hf, hrole⟩ := hinto m hm
          exact ⟨f, List.mem_cons_of_mem _ hf, hrole⟩

/-- Texts need not be fetched. -/
theorem readable_of_no_parts (h : ∀ parts, message.content ≠ .parts parts) :
    message.Readable sources := by
  intro _ _ part hpart
  unfold Message.parseContent at hpart
  cases hcontent : message.content with
  | null =>
    rw [hcontent] at hpart
    cases hpart
  | string s =>
    rw [hcontent] at hpart
    rw [List.mem_singleton.1 hpart]
    exact ⟨_, rfl⟩
  | parts parts => exact absurd hcontent (h parts)

theorem readable_formats (h : Formats message formatted) :
    formatted.Readable sources ↔ message.Readable sources := by
  by_cases hparts : ∀ parts, message.content ≠ .parts parts
  · have hstring := stringContent_of_isString (h.isString.2 hparts)
    refine iff_of_true (readable_of_no_parts fun parts hthis => ?_) (readable_of_no_parts hparts)
    rw [hstring] at hthis
    cases hthis
  · push Not at hparts
    obtain ⟨parts, hcontent⟩ := hparts
    unfold Message.Readable Message.parseContent
    rw [h.role, h.parts parts hcontent, hcontent]

theorem readable_formatFrom (messages : List Message) (h : Formats message formatted) :
    (∀ f ∈ formatFrom formatted messages, f.Readable sources) ↔
      ∀ m ∈ message :: messages, m.Readable sources := by
  induction messages generalizing message formatted with
  | nil =>
    show (∀ f ∈ [formatted], _) ↔ _
    rw [List.forall_mem_singleton, List.forall_mem_singleton]
    exact readable_formats h
  | cons next messages ih =>
    rw [List.forall_mem_cons]
    by_cases hjoined : message.JoinedBy next
    · rw [formatFrom_joined h hjoined, ih (formats_mergedInto hjoined formatted)]
      exact ⟨fun hall => ⟨readable_of_no_parts hjoined.2.2.1, hall⟩, fun hall => hall.2⟩
    · rw [formatFrom_apart h hjoined, List.forall_mem_cons, ih (formats_self next),
        readable_formats h]

theorem formats_formatMessages (messages : List Message) :
    ∀ f ∈ formatMessages messages, ∃ m, Formats m f := by
  cases messages with
  | nil =>
    intro f hf
    cases hf
  | cons message messages =>
    intro f hf
    rw [formatMessages_cons] at hf
    obtain ⟨m, -, hthis⟩ := (formats_formatFrom messages (formats_self message)).1 f hf
    exact ⟨m, hthis⟩

theorem readable_formatMessages (messages : List Message) :
    (∀ f ∈ formatMessages messages, f.Readable sources) ↔
      ∀ m ∈ messages, m.Readable sources := by
  cases messages with
  | nil => exact iff_of_true (fun f hf => by cases hf) (fun f hf => by cases hf)
  | cons message messages =>
    rw [formatMessages_cons]
    exact readable_formatFrom messages (formats_self message)

/-- The roles of the output are those of Claude exactly if every message has a role. -/
theorem roles_iff {s : Pass} (h : Reached sources (formatMessages (message :: messages)) s) :
    (∀ m ∈ s.claudeMessages, m.role = .user ∨ m.role = .assistant) ↔
      ∀ m ∈ message :: messages, m.role ≠ .empty := by
  have hreached := h
  rw [formatMessages_cons] at hreached
  obtain ⟨hfrom, hinto⟩ := formats_formatFrom messages (formats_self message)
  constructor
  · intro hroles m hm hempty
    obtain ⟨f, hf, hrole⟩ := hinto m hm
    rw [hempty] at hrole
    have hshown := hreached.shown f hf (by rw [hrole]; decide) (by rw [hrole]; decide)
    rw [hrole] at hshown
    obtain ⟨out, hout, houtRole⟩ := List.mem_map.1 hshown
    have hthis := hroles out hout
    rw [houtRole] at hthis
    exact absurd hthis (by decide)
  · intro hroles out hout
    rcases hreached.roles out.role (List.mem_map_of_mem hout) with huser | hother
    · exact .inl huser
    · obtain ⟨f, hf, hrole, hsystem, htool⟩ := hother
      obtain ⟨m, hm, hformats⟩ := hfrom f hf
      have hempty : out.role ≠ .empty := by
        rw [← hrole, hformats.role]
        exact hroles m hm
      cases hthis : out.role with
      | user => exact .inl rfl
      | assistant => exact .inr rfl
      | system => exact absurd hthis hsystem
      | tool => exact absurd hthis htool
      | empty => exact absurd hthis hempty

/-- All texts are found exactly if no quotation mark is trimmed. -/
theorem texts_iff {s : Pass} (h : Reached sources (formatMessages (message :: messages)) s) :
    TextsOccur ((message :: messages).flatMap (Message.texts sources))
        (outTexts s.claudeMessages) ↔
      KeepsTexts message.stringContent message messages := by
  obtain ⟨filler, hfiller, htexts⟩ := h.texts
  rw [formatMessages_cons] at htexts
  obtain ⟨hoccur, hquotes⟩ := texts_fmtMessage sources message
  rw [htexts, List.flatMap_cons]
  constructor
  · intro hthis
    by_contra hnot
    have hlost := (quotes_formatFrom sources messages (formats_self message)).2 _
      (opensLike_fmtMessage message) hnot
    have hle := hthis.quotes_le
    rw [quotes_append, quotes_append] at hle
    omega
  · intro hkeeps
    exact (texts_formatFrom messages (formats_self message) (opensLike_fmtMessage message)
      hkeeps hoccur).prepend filler

/-- **A conversation is sound** after the two passes exactly if it is lossless. -/
theorem sound_iff {s : Pass} (h : Reached sources (formatMessages messages) s) :
    Sound sources messages s.claudeMessages ↔ Lossless messages := by
  cases messages with
  | nil =>
    have hsound : Sound sources [] s.claudeMessages := by
      refine ⟨fun m hm => .inl ?_, fun m hm => h.first m.role ?_, h.events, Occurs.nil _⟩
      · rcases h.roles m.role (List.mem_map_of_mem hm) with huser | ⟨f, hf, -⟩
        · exact huser
        · cases hf
      · rw [List.head?_map, hm]
        rfl
    refine iff_of_true hsound ⟨fun m hm => ?_, fun m hm => ?_, fun m rest heq => ?_,
      fun m rest heq => ?_⟩
    · cases hm
    · cases hm
    · cases heq
    · cases heq
  | cons message messages =>
    have hevents : outEvents s.claudeMessages =
          (message :: messages).flatMap Message.toolEvents ↔
        (∀ m ∈ message :: messages, m.ArgumentsGiven) ∧ KeepsCalls message messages := by
      rw [h.events, formatMessages_cons, List.flatMap_cons]
      exact (sentEvents_formatFrom messages (formats_self message)).2
    constructor
    · intro hsound
      obtain ⟨hargs, hcalls⟩ := hevents.1 hsound.toolEvents
      refine ⟨(roles_iff h).1 hsound.roles, hargs, ?_, ?_⟩
      · intro m rest heq
        cases heq
        exact hcalls
      · intro m rest heq
        cases heq
        exact (texts_iff h).1 hsound.texts
    · intro hlossless
      refine ⟨(roles_iff h).2 hlossless.roles, ?_, hevents.2 ⟨hlossless.arguments,
        hlossless.calls _ _ rfl⟩, (texts_iff h).2 (hlossless.texts _ _ rfl)⟩
      intro m hm
      refine h.first m.role ?_
      rw [List.head?_map, hm]
      rfl

/-! ## Tools and stop sequences -/

theorem claudeTool_ok {tool : Tool} (h : tool.Typed) :
    ∃ claudeTool, tool.claudeTool = .ok claudeTool := by
  unfold Tool.claudeTool
  split
  · rename_i params hparams
    rcases h params hparams with hnull | ⟨type, htype⟩
    · dsimp only
      rw [hnull]
      exact ⟨_, rfl⟩
    · dsimp only
      rw [htype]
      exact ⟨_, rfl⟩
  · exact ⟨_, rfl⟩

theorem claudeTool_panic {tool : Tool} (h : ¬ tool.Typed) : tool.claudeTool = .error .panic := by
  unfold Tool.Typed at h
  push Not at h
  obtain ⟨params, hparams, hnull, hstring⟩ := h
  unfold Tool.claudeTool
  rw [hparams]
  dsimp only
  split
  · rename_i hthis
    exact absurd hthis hnull
  · rename_i type hthis
    cases hlookup : params.lookup "type" with
    | none =>
      rw [hlookup] at hthis
      cases hthis
    | some value =>
      rw [hlookup] at hthis
      exact absurd (hlookup.trans (congrArg some hthis)) (hstring type)
  · rfl

theorem claudeTools_ok {tools : List Tool} (h : ∀ tool ∈ tools, tool.Typed) :
    ∃ claudeTools', claudeTools tools = .ok claudeTools' := by
  induction tools with
  | nil => exact ⟨[], rfl⟩
  | cons tool tools ih =>
    obtain ⟨claudeTool, hok⟩ := claudeTool_ok (h tool List.mem_cons_self)
    obtain ⟨rest, hrest⟩ := ih fun other hother => h other (List.mem_cons_of_mem _ hother)
    unfold claudeTools
    rw [hok, hrest]
    exact ⟨_, rfl⟩

theorem claudeTools_panic {tools : List Tool} (h : ¬ ∀ tool ∈ tools, tool.Typed) :
    claudeTools tools = .error .panic := by
  induction tools with
  | nil => exact absurd (by simp) h
  | cons tool tools ih =>
    unfold claudeTools
    by_cases hthis : tool.Typed
    · obtain ⟨claudeTool, hok⟩ := claudeTool_ok hthis
      rw [hok, ih fun hall => h (List.forall_mem_cons.2 ⟨hthis, hall⟩)]
      rfl
    · rw [claudeTool_panic hthis]
      rfl

theorem stopItems_ok {items : List Json} (h : ∀ item ∈ items, ∃ s, item = .string s) :
    ∃ stops, stopItems items = .ok stops := by
  induction items with
  | nil => exact ⟨[], rfl⟩
  | cons item items ih =>
    obtain ⟨s, rfl⟩ := h item List.mem_cons_self
    obtain ⟨rest, hrest⟩ := ih fun other hother => h other (List.mem_cons_of_mem _ hother)
    unfold stopItems
    rw [hrest]
    exact ⟨_, rfl⟩

theorem stopItems_panic {items : List Json} (h : ¬ ∀ item ∈ items, ∃ s, item = .string s) :
    stopItems items = .error .panic := by
  induction items with
  | nil => exact absurd (by simp) h
  | cons item items ih =>
    by_cases hthis : ∃ s, item = .string s
    · obtain ⟨s, rfl⟩ := hthis
      unfold stopItems
      rw [ih fun hall => h (List.forall_mem_cons.2 ⟨⟨s, rfl⟩, hall⟩)]
      rfl
    · unfold stopItems
      split
      · rename_i heq
        cases heq
      · rename_i s _ heq
        cases heq
        exact absurd ⟨s, rfl⟩ hthis
      · rfl

theorem stopSequences_ok {stop : Json} (h : StopTyped stop) :
    ∃ stops, stopSequences stop = .ok stops := by
  unfold stopSequences
  split
  · exact ⟨_, rfl⟩
  · obtain ⟨stops, hstops⟩ := stopItems_ok (h _ rfl)
    rw [hstops]
    exact ⟨_, rfl⟩
  · exact ⟨_, rfl⟩

theorem stopSequences_panic {stop : Json} (h : ¬ StopTyped stop) :
    stopSequences stop = .error .panic := by
  unfold StopTyped at h
  push Not at h
  obtain ⟨items, rfl, item, hitem, hnot⟩ := h
  unfold stopSequences
  dsimp only
  rw [stopItems_panic fun hall => by
    obtain ⟨s, hs⟩ := hall item hitem
    exact hnot s hs]
  rfl

/-- **Exactly the convertible requests** are converted without a panic to a conversation
that is sound, if to any. -/
theorem requestOpenAI2ClaudeMessage_sound_iff (sources : Sources) (request : Request) :
    (requestOpenAI2ClaudeMessage sources request ≠ .error .panic ∧
      ∀ claudeRequest, requestOpenAI2ClaudeMessage sources request = .ok claudeRequest →
        Sound sources request.messages claudeRequest.messages) ↔
      request.Convertible sources := by
  unfold requestOpenAI2ClaudeMessage
  by_cases htools : ∀ tool ∈ request.tools, tool.Typed
  · obtain ⟨tools, hok⟩ := claudeTools_ok htools
    rw [hok]
    cases hreasoning : request.reasoningErr with
    | some err =>
      refine iff_of_true ⟨?_, ?_⟩ ⟨htools, ?_, .inl ?_⟩
      · rintro ⟨⟩
      · rintro out ⟨⟩
      · rw [hreasoning]
        rintro ⟨⟩
      · rw [hreasoning]
        simp
    | none =>
      by_cases hstop : StopTyped request.stop
      · obtain ⟨stops, hstops⟩ := stopSequences_ok hstop
        rw [hstops]
        have hinit : Reached sources [] ⟨[], true, []⟩ :=
          ⟨⟨[], rfl, rfl⟩, rfl, by simp, by simp, by simp, by simp⟩
        have hformats := formats_formatMessages request.messages
        by_cases hreadable : ∀ m ∈ request.messages, m.Readable sources
        · obtain ⟨s, hall, hreached⟩ :=
            reached_addAll hinit hformats ((readable_formatMessages _).2 hreadable)
          rw [List.nil_append] at hreached
          have hsound := sound_iff hreached
          rw [hall]
          constructor
          · rintro ⟨-, hthis⟩
            exact ⟨htools, fun _ => hstop, .inr (.inr (hsound.1 (hthis _ rfl)))⟩
          · intro hconvertible
            refine ⟨?_, ?_⟩
            · rintro ⟨⟩
            · rintro out ⟨⟩
              rcases hconvertible.messages with herr | ⟨m, hm, hnot⟩ | hlossless
              · exact absurd hreasoning herr
              · exact absurd (hreadable m hm) hnot
              · exact hsound.2 hlossless
        · obtain ⟨err, herr⟩ := addAll_error hinit hformats fun hall =>
            hreadable ((readable_formatMessages _).1 hall)
          rw [herr]
          push Not at hreadable
          refine iff_of_true ⟨?_, ?_⟩ ⟨htools, fun _ => hstop, .inr (.inl hreadable)⟩
          · rintro ⟨⟩
          · rintro out ⟨⟩
      · rw [stopSequences_panic hstop]
        exact iff_of_false (fun h => h.1 rfl) fun h => hstop (h.stop hreasoning)
  · rw [claudeTools_panic htools]
    exact iff_of_false (fun h => h.1 rfl) fun h => htools h.tools

end Request

/-- A greeting without a role. -/
def greeting : Request := ⟨[], none, .null, [⟨.empty, .string "Hello", none, ""⟩]⟩

/-- The loop gives the role to the message in the request only, after it was copied. -/
theorem empty_role_kept :
    ¬ (requestOpenAI2ClaudeMessage ⟨fun _ => .error "", fun _ => none, fun _ => .error ""⟩
          greeting ≠ .error .panic ∧
      ∀ claudeRequest,
        requestOpenAI2ClaudeMessage ⟨fun _ => .error "", fun _ => none, fun _ => .error ""⟩
          greeting = .ok claudeRequest →
        Sound ⟨fun _ => .error "", fun _ => none, fun _ => .error ""⟩ greeting.messages
          claudeRequest.messages) := by
  rintro ⟨-, h⟩
  have hroles := (h _ rfl).roles ⟨.empty, .string "Hello"⟩ (.tail _ (.head _))
  exact absurd hroles (by decide)

end Convert.OpenAI
