import GMasterApi.Lib.BigEndian
import Mathlib.Algebra.Ring.Nat

/-!
# Messages of the Volcengine codec

`marshal` writes the event and its ids before the sequence or the error code, `unmarshal` reads
them behind it, and the two do not agree on which events have ids; the serialization is read
unshifted, and a payload may be shorter than its length says.  Where none of this matters, a
message is read back as it was written, and a frame is written as it was read (`roundTrips_iff`).
-/

namespace Volcengine

open BigEndian

structure Message where
  version : Byte
  headerSize : Byte
  msgType : Byte
  msgTypeFlag : Byte
  serialization : Byte
  compression : Byte
  eventType : BitVec 32
  sessionID : List Byte
  connectID : List Byte
  sequence : BitVec 32
  errorCode : BitVec 32
  payload : List Byte
  deriving DecidableEq

def msgTypeFlagPositiveSeq : Byte := 0b1
def msgTypeFlagNegativeSeq : Byte := 0b11
def msgTypeFlagWithEvent : Byte := 0b100

def msgTypeFullClientRequest : Byte := 0b1
def msgTypeAudioOnlyClient : Byte := 0b10
def msgTypeFullServerResponse : Byte := 0b1001
def msgTypeAudioOnlyServer : Byte := 0b1011
def msgTypeFrontEndResultServer : Byte := 0b1100
def msgTypeError : Byte := 0b1111

def eventTypeStartConnection : BitVec 32 := 1
def eventTypeFinishConnection : BitVec 32 := 2
def eventTypeConnectionStarted : BitVec 32 := 50
def eventTypeConnectionFailed : BitVec 32 := 51
def eventTypeConnectionFinished : BitVec 32 := 52

/-- The types that may have a sequence. -/
def sequencedTypes : List Byte :=
  [msgTypeFullClientRequest, msgTypeFullServerResponse, msgTypeFrontEndResultServer,
    msgTypeAudioOnlyClient, msgTypeAudioOnlyServer]

def Message.hasSequence (m : Message) : Prop :=
  m.msgTypeFlag = msgTypeFlagPositiveSeq ∨ m.msgTypeFlag = msgTypeFlagNegativeSeq

instance (m : Message) : Decidable m.hasSequence := by
  unfold Message.hasSequence
  infer_instance

def unsupported (m : Message) : String :=
  "unsupported message type: " ++ toString m.msgType.toNat

/-! ## Writing -/

/-- The bytes that a writer appends. -/
abbrev Writer := Message → Except String (List Byte)

def writeSized (name : String) (s : List Byte) : Except String (List Byte) :=
  if 2 ^ 32 ≤ s.length then
    .error (name ++ " size (" ++ toString s.length ++ ") exceeds max(uint32)")
  else .ok (chunk s)

def writeEvent : Writer := fun m => .ok (put32 m.eventType)

/-- The events that are written without a session id. -/
def writtenWithoutSession : List (BitVec 32) :=
  [eventTypeStartConnection, eventTypeFinishConnection, eventTypeConnectionStarted,
    eventTypeConnectionFailed]

def writeSessionID : Writer := fun m =>
  if m.eventType ∈ writtenWithoutSession then .ok []
  else writeSized "session ID" m.sessionID

def writeSequence : Writer := fun m => .ok (put32 m.sequence)

def writeErrorCode : Writer := fun m => .ok (put32 m.errorCode)

def writePayload : Writer := fun m => writeSized "payload" m.payload

def writers (m : Message) : Except String (List Writer) :=
  let eventWriters :=
    if m.msgTypeFlag = msgTypeFlagWithEvent then [writeEvent, writeSessionID] else []
  if m.msgType ∈ sequencedTypes then
    .ok (eventWriters ++ (if m.hasSequence then [writeSequence] else []) ++ [writePayload])
  else if m.msgType = msgTypeError then .ok (eventWriters ++ [writeErrorCode] ++ [writePayload])
  else .error (unsupported m)

def header (m : Message) : List Byte :=
  [pack m.version m.headerSize, pack m.msgType m.msgTypeFlag,
    pack m.serialization m.compression]

/-- The bytes of the header behind the first three. -/
def paddingSize (headerSize : Byte) : ℕ := 4 * headerSize.toNat - 3

def write (m : Message) (buf : List Byte) (writer : Writer) : Except String (List Byte) :=
  (writer m).map (buf ++ ·)

def marshal (m : Message) : Except String (List Byte) :=
  match writers m with
  | .error e => .error e
  | .ok writers =>
    writers.foldlM (write m) (header m ++ List.replicate (paddingSize m.headerSize) 0)

/-! ## Reading -/

/-- The message so far and the bytes that are left. -/
abbrev Reader := Message × List Byte → Except String (Message × List Byte)

def readWord (set : Message → BitVec 32 → Message) : Reader := fun (m, buf) =>
  match get32 buf with
  | .error e => .error e
  | .ok (x, rest) => .ok (set m x, rest)

/-- `Next` takes what is there. -/
def readSized (set : Message → List Byte → Message) : Reader := fun (m, buf) =>
  match get32 buf with
  | .error e => .error e
  | .ok (size, rest) =>
    if 0 < size.toNat then .ok (set m (rest.take size.toNat), rest.drop size.toNat)
    else .ok (m, rest)

def readEvent : Reader := readWord fun m x => { m with eventType := x }

/-- The events that are read without a session id. -/
def readWithoutSession : List (BitVec 32) :=
  [eventTypeStartConnection, eventTypeFinishConnection, eventTypeConnectionStarted,
    eventTypeConnectionFailed, eventTypeConnectionFinished]

def readSessionID : Reader := fun (m, buf) =>
  if m.eventType ∈ readWithoutSession then .ok (m, buf)
  else readSized (fun m s => { m with sessionID := s }) (m, buf)

/-- The events that are read with a connect id. -/
def readWithConnect : List (BitVec 32) :=
  [eventTypeConnectionStarted, eventTypeConnectionFailed, eventTypeConnectionFinished]

def readConnectID : Reader := fun (m, buf) =>
  if m.eventType ∈ readWithConnect then readSized (fun m s => { m with connectID := s }) (m, buf)
  else .ok (m, buf)

def readSequence : Reader := readWord fun m x => { m with sequence := x }

def readErrorCode : Reader := readWord fun m x => { m with errorCode := x }

def readPayload : Reader := readSized fun m s => { m with payload := s }

def readers (m : Message) : Except String (List Reader) :=
  let eventReaders :=
    if m.msgTypeFlag = msgTypeFlagWithEvent then [readEvent, readSessionID, readConnectID] else []
  if m.msgType ∈ sequencedTypes then
    .ok ((if m.hasSequence then [readSequence] else []) ++ eventReaders ++ [readPayload])
  else if m.msgType = msgTypeError then .ok ([readErrorCode] ++ eventReaders ++ [readPayload])
  else .error (unsupported m)

def read (state : Message × List Byte) (reader : Reader) : Except String (Message × List Byte) :=
  reader state

def readAll (m : Message) (buf : List Byte) : Except String Message :=
  match readers m with
  | .error e => .error e
  | .ok readers =>
    match readers.foldlM read (m, buf) with
    | .error e => .error e
    | .ok (m, []) => .ok m
    | .ok (_, _ :: _) => .error "unexpected data after message: <nil>"

def unmarshal (m : Message) : List Byte → Except String Message
  | versionAndHeaderSize :: _ :: serializationCompression :: buf =>
    let m := { m with
      version := versionAndHeaderSize >>> 4
      headerSize := versionAndHeaderSize &&& 0b1111
      serialization := serializationCompression &&& 0b11110000
      compression := serializationCompression &&& 0b1111 }
    let padding := paddingSize m.headerSize
    if buf.length < padding then
      .error ("insufficient header bytes: expected " ++ toString padding ++ ", got " ++
        toString buf.length)
    else readAll m (buf.drop padding)
  | _ => .error "EOF"

def newMessage (msgType msgTypeFlag : Byte) : Message where
  version := 1
  headerSize := 1
  msgType
  msgTypeFlag
  serialization := 1
  compression := 0
  eventType := 0
  sessionID := []
  connectID := []
  sequence := 0
  errorCode := 0
  payload := []

def newMessageFromBytes (data : List Byte) : Except String Message :=
  match data with
  | _ :: typeAndFlag :: _ :: _ =>
    unmarshal (newMessage (typeAndFlag >>> 4) (typeAndFlag &&& 0b1111)) data
  | _ => .error ("data too short: expected at least 3 bytes, got " ++ toString data.length)

/-! ## What is promised -/

def Message.Known (m : Message) : Prop := m.msgType ∈ sequencedTypes ∨ m.msgType = msgTypeError

/-- A message of one of the six types whose other fields are those that its type, its flag and its
event use. -/
structure Message.WellFormed (m : Message) : Prop where
  version : m.version.toNat < 16
  headerSize : m.headerSize.toNat < 16
  msgTypeFlag : m.msgTypeFlag.toNat < 16
  serialization : m.serialization.toNat < 16
  compression : m.compression.toNat < 16
  known : m.Known
  sequence : ¬ (m.msgType ∈ sequencedTypes ∧ m.hasSequence) → m.sequence = 0
  errorCode : m.msgType ≠ msgTypeError → m.errorCode = 0
  eventType : m.msgTypeFlag ≠ msgTypeFlagWithEvent → m.eventType = 0
  sessionID : (m.msgTypeFlag = msgTypeFlagWithEvent → m.eventType ∈ writtenWithoutSession) →
    m.sessionID = []
  connectID : ¬ (m.msgTypeFlag = msgTypeFlagWithEvent ∧ m.eventType ∈ readWithConnect) →
    m.connectID = []

def RoundTrips (m : Message) : Prop :=
  ∃ data, marshal m = .ok data ∧ newMessageFromBytes data = .ok m

/-- The bytes of a frame behind its header. -/
def behindHeader : List Byte → List Byte
  | first :: _ :: _ :: buf => buf.drop (paddingSize (first &&& 0b1111))
  | _ => []

/-- The padding of the header may differ. -/
structure SameUpToPadding (data data' : List Byte) : Prop where
  length : data.length = data'.length
  header : data.take 3 = data'.take 3
  rest : behindHeader data = behindHeader data'

def Rewrites (data : List Byte) : Prop :=
  ∀ m, newMessageFromBytes data = .ok m →
    ∃ data', marshal m = .ok data' ∧ SameUpToPadding data' data

/-- The sequence or the error code. -/
def lead (m : Message) : List Byte :=
  if m.msgType = msgTypeError then put32 m.errorCode
  else if m.hasSequence then put32 m.sequence
  else []

/-- What is written before the payload. -/
def writtenHead (m : Message) : List Byte :=
  (if m.msgTypeFlag = msgTypeFlagWithEvent then
    put32 m.eventType ++ if m.eventType ∈ writtenWithoutSession then [] else chunk m.sessionID
  else []) ++ lead m

/-- What is read before the payload. -/
def readHead (m : Message) : List Byte :=
  lead m ++
    if m.msgTypeFlag = msgTypeFlagWithEvent then
      put32 m.eventType ++ (if m.eventType ∈ readWithoutSession then [] else chunk m.sessionID) ++
        if m.eventType ∈ readWithConnect then chunk m.connectID else []
    else []

/-- The bytes of a message as they are read; the payload may be cut off. -/
structure Frame where
  first : Byte
  second : Byte
  third : Byte
  padding : List Byte
  eventType : BitVec 32
  sessionID : List Byte
  connectID : List Byte
  sequence : BitVec 32
  errorCode : BitVec 32
  size : BitVec 32
  payload : List Byte

def Frame.message (f : Frame) : Message where
  version := f.first >>> 4
  headerSize := f.first &&& 0b1111
  msgType := f.second >>> 4
  msgTypeFlag := f.second &&& 0b1111
  serialization := f.third &&& 0b11110000
  compression := f.third &&& 0b1111
  eventType := f.eventType
  sessionID := f.sessionID
  connectID := f.connectID
  sequence := f.sequence
  errorCode := f.errorCode
  payload := f.payload

def Frame.bytes (f : Frame) : List Byte :=
  f.first :: f.second :: f.third ::
    (f.padding ++ (readHead f.message ++ (put32 f.size ++ f.payload)))

/-- What is not read is zero. -/
structure Message.Unread (m : Message) : Prop where
  sequence : ¬ (m.msgType ∈ sequencedTypes ∧ m.hasSequence) → m.sequence = 0
  errorCode : m.msgType ≠ msgTypeError → m.errorCode = 0
  eventType : m.msgTypeFlag ≠ msgTypeFlagWithEvent → m.eventType = 0
  sessionID : (m.msgTypeFlag = msgTypeFlagWithEvent → m.eventType ∈ readWithoutSession) →
    m.sessionID = []
  connectID : ¬ (m.msgTypeFlag = msgTypeFlagWithEvent ∧ m.eventType ∈ readWithConnect) →
    m.connectID = []

structure Frame.Valid (f : Frame) : Prop where
  padding : f.padding.length = paddingSize (f.first &&& 0b1111)
  known : f.message.Known
  unread : f.message.Unread
  sessionID : f.sessionID.length < 2 ^ 32
  connectID : f.connectID.length < 2 ^ 32
  payload : f.payload.length ≤ f.size.toNat

/-- What is written is what is read: there is no event; or its ids are written as they are read;
or, of an error, the error code is the event, and so is the length of a session id that is the
same behind its length as before it. -/
def InStep (m : Message) : Prop :=
  m.msgTypeFlag = msgTypeFlagWithEvent →
    (m.msgType ≠ msgTypeError →
      m.eventType ≠ eventTypeConnectionStarted ∧ m.eventType ≠ eventTypeConnectionFailed ∧
        (m.eventType = eventTypeConnectionFinished → m.sessionID = [] ∧ m.connectID = [])) ∧
    (m.msgType = msgTypeError →
      m.errorCode = m.eventType ∧ m.eventType ∉ readWithConnect ∧
        (m.eventType ∉ writtenWithoutSession →
          m.eventType = BitVec.ofNat 32 m.sessionID.length ∧
            put32 m.eventType ++ m.sessionID = m.sessionID ++ put32 m.eventType))

/-! ## Heads -/

section Heads

variable {m : Message}

theorem chunk_ne_nil (s : List Byte) : chunk s ≠ [] := by
  intro h
  have hlength := congrArg List.length h
  rw [length_chunk, List.length_nil] at hlength
  omega

/-- Six kinds of events. -/
theorem event_cases (event : BitVec 32) :
    (event = eventTypeConnectionStarted ∨ event = eventTypeConnectionFailed) ∨
      event = eventTypeConnectionFinished ∨
      (event = eventTypeStartConnection ∨ event = eventTypeFinishConnection) ∨
      event ∉ readWithoutSession := by
  simp only [readWithoutSession, List.mem_cons, List.not_mem_nil, or_false]
  tauto

theorem other_event {event : BitVec 32} (h : event ∉ readWithoutSession) :
    event ∉ writtenWithoutSession ∧ event ∉ readWithConnect := by
  simp only [readWithoutSession, writtenWithoutSession, readWithConnect, List.mem_cons,
    List.not_mem_nil, or_false] at h ⊢
  tauto

def writtenIds (m : Message) : List Byte :=
  if m.eventType ∈ writtenWithoutSession then [] else chunk m.sessionID

def readIds (m : Message) : List Byte :=
  (if m.eventType ∈ readWithoutSession then [] else chunk m.sessionID) ++
    if m.eventType ∈ readWithConnect then chunk m.connectID else []

theorem ids_of_started (h : m.eventType = eventTypeConnectionStarted ∨
    m.eventType = eventTypeConnectionFailed) :
    writtenIds m = [] ∧ readIds m = chunk m.connectID := by
  unfold writtenIds readIds
  rcases h with h | h <;> rw [h] <;> exact ⟨rfl, rfl⟩

theorem ids_of_finished (h : m.eventType = eventTypeConnectionFinished) :
    writtenIds m = chunk m.sessionID ∧ readIds m = chunk m.connectID := by
  unfold writtenIds readIds
  rw [h]
  exact ⟨rfl, rfl⟩

theorem ids_of_request (h : m.eventType = eventTypeStartConnection ∨
    m.eventType = eventTypeFinishConnection) : writtenIds m = [] ∧ readIds m = [] := by
  unfold writtenIds readIds
  rcases h with h | h <;> rw [h] <;> exact ⟨rfl, rfl⟩

theorem ids_of_other (h : m.eventType ∉ readWithoutSession) :
    writtenIds m = chunk m.sessionID ∧ readIds m = chunk m.sessionID := by
  obtain ⟨hwritten, hconnect⟩ := other_event h
  unfold writtenIds readIds
  rw [if_neg hwritten, if_neg h, if_neg hconnect, List.append_nil]
  exact ⟨rfl, rfl⟩

theorem chunk_nil_iff {s : List Byte} : chunk [] = chunk s ↔ s = [] := by
  constructor
  · intro h
    have hlength := congrArg List.length h
    rw [length_chunk, length_chunk, List.length_nil] at hlength
    exact List.length_eq_zero_iff.mp (by omega)
  · rintro rfl
    rfl

/-- Of a message that is no error only the ids matter. -/
theorem ids_eq_iff (hsession : m.eventType ∈ readWithoutSession → m.sessionID = []) :
    writtenIds m = readIds m ↔
      m.eventType ≠ eventTypeConnectionStarted ∧ m.eventType ≠ eventTypeConnectionFailed ∧
        (m.eventType = eventTypeConnectionFinished → m.sessionID = [] ∧ m.connectID = []) := by
  rcases event_cases m.eventType with h | h | h | h
  · obtain ⟨hwritten, hread⟩ := ids_of_started h
    rw [hwritten, hread]
    refine iff_of_false (chunk_ne_nil _).symm ?_
    rintro ⟨hstarted, hfailed, -⟩
    exact h.elim hstarted hfailed
  · obtain ⟨hwritten, hread⟩ := ids_of_finished h
    have hempty : m.sessionID = [] := hsession (by rw [h]; decide)
    rw [hwritten, hread, hempty, chunk_nil_iff, h]
    simp only [true_and, forall_const]
    exact (and_iff_right (by decide)).symm.trans (and_congr_right fun _ =>
      (and_iff_right (by decide)).symm)
  · obtain ⟨hwritten, hread⟩ := ids_of_request h
    rw [hwritten, hread]
    refine iff_of_true rfl ?_
    rcases h with h | h <;> rw [h] <;> exact ⟨by decide, by decide, fun h => absurd h (by decide)⟩
  · obtain ⟨hwritten, hread⟩ := ids_of_other h
    rw [hwritten, hread]
    refine iff_of_true rfl ⟨?_, ?_, ?_⟩
    all_goals
      intro hevent
      exact absurd (by rw [hevent]; decide) h

/-- Of an error the code comes first or last. -/
theorem error_ids_iff (hsession : m.eventType ∈ readWithoutSession → m.sessionID = []) :
    put32 m.eventType ++ writtenIds m ++ put32 m.errorCode =
        put32 m.errorCode ++ (put32 m.eventType ++ readIds m) ↔
      m.errorCode = m.eventType ∧ m.eventType ∉ readWithConnect ∧
        (m.eventType ∉ writtenWithoutSession →
          m.eventType = BitVec.ofNat 32 m.sessionID.length ∧
            put32 m.eventType ++ m.sessionID = m.sessionID ++ put32 m.eventType) := by
  have hfirst : put32 m.eventType ++ writtenIds m ++ put32 m.errorCode =
      put32 m.errorCode ++ (put32 m.eventType ++ readIds m) ↔ m.errorCode = m.eventType ∧
        writtenIds m ++ put32 m.eventType = put32 m.eventType ++ readIds m := by
    rw [List.append_assoc]
    constructor
    · intro h
      obtain ⟨hcode, hrest⟩ := append_put32_inj h
      rw [← hcode] at hrest
      exact ⟨hcode.symm, hrest⟩
    · rintro ⟨hcode, hrest⟩
      rw [hcode, hrest]
  rw [hfirst]
  refine and_congr_right fun _ => ?_
  rcases event_cases m.eventType with h | h | h | h
  · obtain ⟨hwritten, hread⟩ := ids_of_started h
    rw [hwritten, hread]
    refine iff_of_false (fun heq => ?_) fun hnot => hnot.1 ?_
    · have hlength := congrArg List.length heq
      simp only [List.nil_append, length_put32, List.length_append, length_chunk] at hlength
      omega
    · rcases h with h | h <;> rw [h] <;> decide
  · obtain ⟨hwritten, hread⟩ := ids_of_finished h
    have hempty : m.sessionID = [] := hsession (by rw [h]; decide)
    rw [hwritten, hread, hempty, h]
    refine iff_of_false (fun heq => ?_) fun hnot => hnot.1 (by decide)
    exact absurd (append_put32_inj (x := 0) heq).1 (by decide)
  · obtain ⟨hwritten, hread⟩ := ids_of_request h
    rw [hwritten, hread, List.append_nil, List.nil_append]
    refine iff_of_true rfl ?_
    rcases h with h | h <;> rw [h] <;> exact ⟨by decide, fun hnot => absurd (by decide) hnot⟩
  · obtain ⟨hwritten, hread⟩ := ids_of_other h
    obtain ⟨hnot, hconnect⟩ := other_event h
    rw [hwritten, hread, and_iff_right hconnect, imp_iff_right hnot, chunk, List.append_assoc]
    constructor
    · intro heq
      obtain ⟨hlength, hrest⟩ := append_put32_inj heq
      rw [← hlength] at hrest ⊢
      exact ⟨rfl, hrest.symm⟩
    · rintro ⟨hlength, hrest⟩
      rw [← hlength, hrest]

/-- **Heads are the same** exactly where the message is in step. -/
theorem writtenHead_eq_iff (hunread : m.Unread) : writtenHead m = readHead m ↔ InStep m := by
  unfold writtenHead readHead InStep
  by_cases hflag : m.msgTypeFlag = msgTypeFlagWithEvent
  swap
  · simp [hflag]
  have hsession : m.eventType ∈ readWithoutSession → m.sessionID = [] := fun h =>
    hunread.sessionID fun _ => h
  have hseq : ¬ m.hasSequence := by
    unfold Message.hasSequence
    rw [hflag]
    decide
  rw [if_pos hflag, if_pos hflag, imp_iff_right hflag]
  by_cases herror : m.msgType = msgTypeError
  · have hlead : lead m = put32 m.errorCode := if_pos herror
    rw [hlead, and_iff_right fun hnot => absurd herror hnot, imp_iff_right herror,
      ← error_ids_iff hsession, List.append_assoc (put32 m.eventType) (ite _ _ _)]
    rfl
  · have hlead : lead m = [] := by
      rw [lead, if_neg herror, if_neg hseq]
    rw [hlead, imp_iff_right herror, and_iff_left fun h => absurd h herror, ← ids_eq_iff hsession,
      List.append_nil, List.nil_append, List.append_assoc (put32 m.eventType) (ite _ _ _),
      List.append_cancel_left_eq]
    rfl

end Heads

/-! ## Writing and reading -/

section Codec

variable {m m' : Message} {buf rest data : List Byte}

theorem writeSized_eq_ok_iff {name : String} {s out : List Byte} :
    writeSized name s = .ok out ↔ s.length < 2 ^ 32 ∧ out = chunk s := by
  unfold writeSized
  by_cases h : 2 ^ 32 ≤ s.length
  · rw [if_pos h]
    exact iff_of_false nofun fun hnot => absurd h (Nat.not_le.mpr hnot.1)
  · rw [if_neg h, Except.ok.injEq]
    exact ⟨fun heq => ⟨Nat.not_le.mp h, heq.symm⟩, fun heq => heq.2.symm⟩

theorem write_eq_ok_iff {writer : Writer} {out : List Byte} :
    write m buf writer = .ok out ↔ ∃ bytes, writer m = .ok bytes ∧ out = buf ++ bytes := by
  unfold write
  cases writer m with
  | error e =>
    refine iff_of_false nofun ?_
    rintro ⟨bytes, h, -⟩
    cases h
  | ok bytes =>
    constructor
    · intro h
      cases h
      exact ⟨bytes, rfl, rfl⟩
    · rintro ⟨bytes', h, rfl⟩
      cases h
      rfl

theorem foldlM_append_ok {α σ ε : Type} {f : σ → α → Except ε σ} (l l' : List α) (s t : σ) :
    (l ++ l').foldlM f s = .ok t ↔ ∃ u, l.foldlM f s = .ok u ∧ l'.foldlM f u = .ok t := by
  rw [List.foldlM_append]
  cases h : l.foldlM f s with
  | error e =>
    refine iff_of_false nofun ?_
    rintro ⟨u, hu, -⟩
    cases hu
  | ok u =>
    show l'.foldlM f u = .ok t ↔ _
    constructor
    · intro ht
      exact ⟨u, rfl, ht⟩
    · rintro ⟨u', hu, ht⟩
      cases hu
      exact ht

theorem foldlM_singleton_ok {α σ ε : Type} {f : σ → α → Except ε σ} (a : α) (s t : σ) :
    [a].foldlM f s = .ok t ↔ f s a = .ok t := by
  rw [List.foldlM_cons]
  cases f s a with
  | error e => rfl
  | ok u => rfl

theorem writeEvents_ok_iff {out : List Byte} :
    (if m.msgTypeFlag = msgTypeFlagWithEvent then [writeEvent, writeSessionID]
      else []).foldlM (write m) buf = .ok out ↔
      (m.msgTypeFlag = msgTypeFlagWithEvent → m.eventType ∉ writtenWithoutSession →
        m.sessionID.length < 2 ^ 32) ∧
      out = buf ++ if m.msgTypeFlag = msgTypeFlagWithEvent then
        put32 m.eventType ++ writtenIds m else [] := by
  by_cases hflag : m.msgTypeFlag = msgTypeFlagWithEvent
  · rw [if_pos hflag, if_pos hflag, imp_iff_right hflag]
    have hpair := foldlM_append_ok (f := write m) [writeEvent] [writeSessionID] buf out
    rw [List.singleton_append] at hpair
    rw [hpair]
    simp only [foldlM_singleton_ok, write_eq_ok_iff, writeEvent, Except.ok.injEq]
    by_cases hevent : m.eventType ∈ writtenWithoutSession
    · simp [writeSessionID, writtenIds, hevent]
    · simp only [writeSessionID, writtenIds, hevent, if_false, writeSized_eq_ok_iff,
        not_false_eq_true, forall_const]
      constructor
      · rintro ⟨u, ⟨_, rfl, rfl⟩, bytes, ⟨hlength, rfl⟩, rfl⟩
        exact ⟨hlength, List.append_assoc _ _ _⟩
      · rintro ⟨hlength, rfl⟩
        exact ⟨_, ⟨_, rfl, rfl⟩, _, ⟨hlength, rfl⟩, (List.append_assoc _ _ _).symm⟩
  · rw [if_neg hflag, if_neg hflag, List.append_nil]
    exact ⟨fun h => ⟨fun h => absurd h hflag, (Except.ok.inj h).symm⟩, fun h => by rw [h.2]; rfl⟩

theorem ne_error_of_sequenced (h : m.msgType ∈ sequencedTypes) : m.msgType ≠ msgTypeError := by
  intro herror
  rw [herror] at h
  exact absurd h (by decide)

def leadWriters (m : Message) : List Writer :=
  if m.msgType = msgTypeError then [writeErrorCode]
  else if m.hasSequence then [writeSequence]
  else []

theorem writers_eq (h : m.Known) : writers m = .ok
    ((if m.msgTypeFlag = msgTypeFlagWithEvent then [writeEvent, writeSessionID] else []) ++
      leadWriters m ++ [writePayload]) := by
  unfold writers leadWriters
  rcases h with h | h
  · rw [if_pos h, if_neg (ne_error_of_sequenced h)]
  · have hnot : m.msgType ∉ sequencedTypes := fun hmem => ne_error_of_sequenced hmem h
    rw [if_neg hnot, if_pos h, if_pos h]

theorem writers_eq_error (h : ¬ m.Known) : writers m = .error (unsupported m) := by
  obtain ⟨hseq, herror⟩ := not_or.mp h
  unfold writers
  rw [if_neg hseq, if_neg herror]

theorem leadWriters_ok_iff {out : List Byte} :
    (leadWriters m).foldlM (write m) buf = .ok out ↔ out = buf ++ lead m := by
  unfold leadWriters lead
  split_ifs
  · rw [foldlM_singleton_ok, write_eq_ok_iff]
    simp [writeErrorCode]
  · rw [foldlM_singleton_ok, write_eq_ok_iff]
    simp [writeSequence]
  · rw [List.append_nil]
    exact ⟨fun h => (Except.ok.inj h).symm, fun h => by rw [h]; rfl⟩

/-- **What is written.** -/
theorem marshal_eq_ok_iff : marshal m = .ok data ↔ m.Known ∧
    (m.msgTypeFlag = msgTypeFlagWithEvent → m.eventType ∉ writtenWithoutSession →
      m.sessionID.length < 2 ^ 32) ∧ m.payload.length < 2 ^ 32 ∧
    data = header m ++ List.replicate (paddingSize m.headerSize) 0 ++
      (writtenHead m ++ chunk m.payload) := by
  unfold marshal
  by_cases hknown : m.Known
  · rw [writers_eq hknown, and_iff_right hknown]
    dsimp only
    simp only [foldlM_append_ok, writeEvents_ok_iff, leadWriters_ok_iff, foldlM_singleton_ok,
      write_eq_ok_iff, writePayload, writeSized_eq_ok_iff]
    constructor
    · rintro ⟨_, ⟨_, ⟨hsession, rfl⟩, rfl⟩, _, ⟨hpayload, rfl⟩, rfl⟩
      refine ⟨hsession, hpayload, ?_⟩
      rw [List.append_assoc, List.append_assoc, ← List.append_assoc (ite _ _ _)]
      rfl
    · rintro ⟨hsession, hpayload, rfl⟩
      refine ⟨_, ⟨_, ⟨hsession, rfl⟩, rfl⟩, _, ⟨hpayload, rfl⟩, ?_⟩
      rw [List.append_assoc (_ ++ ite _ _ _), List.append_assoc _ (ite _ _ _),
        ← List.append_assoc (ite _ _ _)]
      rfl
  · rw [writers_eq_error hknown]
    exact iff_of_false nofun fun h => hknown h.1

/-! ### Readers -/

theorem readWord_ok_iff {set : Message → BitVec 32 → Message} :
    readWord set (m, buf) = .ok (m', rest) ↔ ∃ x, buf = put32 x ++ rest ∧ m' = set m x := by
  unfold readWord
  dsimp only
  cases hget : get32 buf with
  | error e =>
    refine iff_of_false nofun ?_
    rintro ⟨x, rfl, -⟩
    rw [get32_put32] at hget
    cases hget
  | ok read =>
    obtain ⟨x, rest'⟩ := read
    obtain rfl := get32_eq_ok_iff.mp hget
    constructor
    · intro h
      cases h
      exact ⟨x, rfl, rfl⟩
    · rintro ⟨y, hbuf, rfl⟩
      obtain ⟨rfl, rfl⟩ := append_put32_inj hbuf
      rfl

/-- A text that is not the last of the message is not cut off. -/
theorem readSized_ok_iff {set : Message → List Byte → Message} (hset : set m [] = m)
    (hrest : rest ≠ []) : readSized set (m, buf) = .ok (m', rest) ↔
      ∃ s, s.length < 2 ^ 32 ∧ buf = chunk s ++ rest ∧ m' = set m s := by
  unfold readSized
  dsimp only
  cases hget : get32 buf with
  | error e =>
    refine iff_of_false nofun ?_
    rintro ⟨s, -, rfl, -⟩
    rw [chunk, List.append_assoc, get32_put32] at hget
    cases hget
  | ok read =>
    obtain ⟨size, rest'⟩ := read
    obtain rfl := get32_eq_ok_iff.mp hget
    dsimp only
    constructor
    · split_ifs with hsize
      · intro h
        cases h
        have hlt : size.toNat < rest'.length := by
          by_contra hle
          exact hrest (List.drop_eq_nil_of_le (Nat.not_lt.mp hle))
        have hlength : (rest'.take size.toNat).length = size.toNat :=
          List.length_take_of_le (Nat.le_of_lt hlt)
        refine ⟨rest'.take size.toNat, by rw [hlength]; exact size.isLt, ?_, rfl⟩
        rw [chunk, hlength, BitVec.ofNat_toNat, BitVec.setWidth_eq, List.append_assoc,
          List.take_append_drop]
      · intro h
        cases h
        have hzero : size = 0 := BitVec.eq_of_toNat_eq (by simpa using hsize)
        exact ⟨[], by decide, by rw [hzero]; rfl, hset.symm⟩
    · rintro ⟨s, hs, hbuf, rfl⟩
      rw [chunk, List.append_assoc] at hbuf
      obtain ⟨rfl, rfl⟩ := append_put32_inj hbuf
      have hlength : (BitVec.ofNat 32 s.length).toNat = s.length := by
        rw [BitVec.toNat_ofNat, Nat.mod_eq_of_lt hs]
      rw [hlength, List.take_left, List.drop_left]
      split_ifs with hsize
      · rfl
      · have hnil : s = [] := List.length_eq_zero_iff.mp (by omega)
        rw [hnil, hset]
        rfl

/-- The last text takes all that is left, up to its length. -/
theorem readSized_end_iff {set : Message → List Byte → Message} (hset : set m [] = m) :
    readSized set (m, buf) = .ok (m', []) ↔
      ∃ size s, s.length ≤ BitVec.toNat size ∧ buf = put32 size ++ s ∧ m' = set m s := by
  unfold readSized
  dsimp only
  cases hget : get32 buf with
  | error e =>
    refine iff_of_false nofun ?_
    rintro ⟨size, s, -, rfl, -⟩
    rw [get32_put32] at hget
    cases hget
  | ok read =>
    obtain ⟨size, rest'⟩ := read
    obtain rfl := get32_eq_ok_iff.mp hget
    dsimp only
    constructor
    · split_ifs with hsize
      · intro h
        rw [Except.ok.injEq, Prod.mk.injEq] at h
        obtain ⟨rfl, hdrop⟩ := h
        have hle := List.drop_eq_nil_iff.mp hdrop
        exact ⟨size, rest', hle, rfl, by rw [List.take_of_length_le hle]⟩
      · intro h
        cases h
        exact ⟨size, [], Nat.zero_le _, rfl, hset.symm⟩
    · rintro ⟨size', s, hle, hbuf, rfl⟩
      obtain ⟨rfl, rfl⟩ := append_put32_inj hbuf
      split_ifs with hsize
      · rw [List.take_of_length_le hle, List.drop_eq_nil_of_le hle]
      · have hnil : rest' = [] := List.length_eq_zero_iff.mp (by omega)
        rw [hnil, hset]

def leadReaders (m : Message) : List Reader :=
  if m.msgType = msgTypeError then [readErrorCode]
  else if m.hasSequence then [readSequence]
  else []

theorem readers_eq (h : m.Known) : readers m = .ok (leadReaders m ++
    (if m.msgTypeFlag = msgTypeFlagWithEvent then [readEvent, readSessionID, readConnectID]
      else []) ++ [readPayload]) := by
  unfold readers leadReaders
  rcases h with h | h
  · rw [if_pos h, if_neg (ne_error_of_sequenced h)]
  · have hnot : m.msgType ∉ sequencedTypes := fun hmem => ne_error_of_sequenced hmem h
    rw [if_neg hnot, if_pos h, if_pos h]

theorem readers_eq_error (h : ¬ m.Known) : readers m = .error (unsupported m) := by
  obtain ⟨hseq, herror⟩ := not_or.mp h
  unfold readers
  rw [if_neg hseq, if_neg herror]

/-- A message of which only the header has been read. -/
structure Message.Fresh (m : Message) : Prop where
  eventType : m.eventType = 0
  sessionID : m.sessionID = []
  connectID : m.connectID = []
  sequence : m.sequence = 0
  errorCode : m.errorCode = 0
  payload : m.payload = []

theorem Message.Fresh.same_lead (h : m.Fresh) : { m with sequence := 0, errorCode := 0 } = m := by
  have hsequence := h.sequence
  have herrorCode := h.errorCode
  cases m
  dsimp only at hsequence herrorCode
  subst hsequence herrorCode
  rfl

theorem leadReaders_ok_iff (hfresh : m.Fresh) :
    (leadReaders m).foldlM read (m, buf) = .ok (m', rest) ↔ ∃ x y,
      m' = { m with sequence := x, errorCode := y } ∧
      ((m.msgType = msgTypeError ∨ ¬ m.hasSequence) → x = 0) ∧
      (m.msgType ≠ msgTypeError → y = 0) ∧ buf = lead m' ++ rest := by
  unfold leadReaders
  split_ifs with herror hseq
  · rw [foldlM_singleton_ok]
    show readErrorCode (m, buf) = _ ↔ _
    rw [readErrorCode, readWord_ok_iff]
    constructor
    · rintro ⟨y, rfl, rfl⟩
      refine ⟨0, y, by rw [← hfresh.sequence], fun _ => rfl, fun h => absurd herror h, ?_⟩
      rw [lead, if_pos herror]
    · rintro ⟨x, y, rfl, hx, -, rfl⟩
      refine ⟨y, ?_, ?_⟩
      · rw [lead, if_pos herror]
      · rw [hx (.inl herror), ← hfresh.sequence]
  · rw [foldlM_singleton_ok]
    show readSequence (m, buf) = _ ↔ _
    rw [readSequence, readWord_ok_iff]
    constructor
    · rintro ⟨x, rfl, rfl⟩
      refine ⟨x, 0, by rw [← hfresh.errorCode], fun h => ?_, fun _ => rfl, ?_⟩
      · exact absurd hseq (h.resolve_left herror)
      · exact congrArg (· ++ rest) ((if_neg herror).trans (if_pos hseq)).symm
    · rintro ⟨x, y, rfl, -, hy, rfl⟩
      refine ⟨x, ?_, ?_⟩
      · exact congrArg (· ++ rest) ((if_neg herror).trans (if_pos hseq))
      · rw [hy herror, ← hfresh.errorCode]
  · have hsame : { m with sequence := 0, errorCode := 0 } = m := hfresh.same_lead
    have hlead : lead m = [] := (if_neg herror).trans (if_neg hseq)
    constructor
    · intro h
      cases h
      refine ⟨0, 0, hsame.symm, fun _ => rfl, fun _ => rfl, ?_⟩
      rw [hlead]
      rfl
    · rintro ⟨x, y, rfl, hx, hy, rfl⟩
      rw [hx (.inr hseq), hy herror, hsame, hlead]
      rfl

theorem readSessionID_ok_iff (hsession : m.sessionID = []) (hrest : rest ≠ []) :
    readSessionID (m, buf) = .ok (m', rest) ↔ ∃ s, m' = { m with sessionID := s } ∧
      s.length < 2 ^ 32 ∧ (m.eventType ∈ readWithoutSession → s = []) ∧
      buf = (if m.eventType ∈ readWithoutSession then [] else chunk s) ++ rest := by
  have hset : { m with sessionID := [] } = m := by rw [← hsession]
  unfold readSessionID
  dsimp only
  split_ifs with hevent
  · constructor
    · intro h
      cases h
      exact ⟨[], hset.symm, by decide, fun _ => rfl, rfl⟩
    · rintro ⟨s, rfl, -, hs, rfl⟩
      rw [hs hevent, hset]
  · rw [readSized_ok_iff hset hrest]
    constructor
    · rintro ⟨s, hs, hbuf, hm⟩
      exact ⟨s, hm, hs, fun h => absurd h hevent, hbuf⟩
    · rintro ⟨s, hm, hs, -, hbuf⟩
      exact ⟨s, hs, hbuf, hm⟩

theorem readConnectID_ok_iff (hconnect : m.connectID = []) (hrest : rest ≠ []) :
    readConnectID (m, buf) = .ok (m', rest) ↔ ∃ c, m' = { m with connectID := c } ∧
      c.length < 2 ^ 32 ∧ (m.eventType ∉ readWithConnect → c = []) ∧
      buf = (if m.eventType ∈ readWithConnect then chunk c else []) ++ rest := by
  have hset : { m with connectID := [] } = m := by rw [← hconnect]
  unfold readConnectID
  dsimp only
  split_ifs with hevent
  · rw [readSized_ok_iff hset hrest]
    constructor
    · rintro ⟨c, hc, hbuf, hm⟩
      exact ⟨c, hm, hc, fun h => absurd hevent h, hbuf⟩
    · rintro ⟨c, hm, hc, -, hbuf⟩
      exact ⟨c, hc, hbuf, hm⟩
  · constructor
    · intro h
      cases h
      exact ⟨[], hset.symm, by decide, fun _ => rfl, rfl⟩
    · rintro ⟨c, rfl, -, hc, rfl⟩
      rw [hc hevent, hset]

theorem readConnectID_nil (h : readConnectID (m, []) = .ok (m', rest)) : rest = [] := by
  unfold readConnectID at h
  dsimp only at h
  split_ifs at h
  · cases h
  · cases h
    rfl

/-- What is read of an event. -/
structure EventRead (m m' : Message) (buf rest : List Byte) : Prop where
  same : m' = { m with
    eventType := m'.eventType, sessionID := m'.sessionID, connectID := m'.connectID }
  session : m'.sessionID.length < 2 ^ 32
  connect : m'.connectID.length < 2 ^ 32
  noEvent : m.msgTypeFlag ≠ msgTypeFlagWithEvent → m'.eventType = 0
  noSession : (m.msgTypeFlag = msgTypeFlagWithEvent → m'.eventType ∈ readWithoutSession) →
    m'.sessionID = []
  noConnect : ¬ (m.msgTypeFlag = msgTypeFlagWithEvent ∧ m'.eventType ∈ readWithConnect) →
    m'.connectID = []
  bytes : buf = (if m.msgTypeFlag = msgTypeFlagWithEvent then put32 m'.eventType ++ readIds m'
    else []) ++ rest

theorem eventReaders_ok_iff (hevent : m.eventType = 0) (hsession : m.sessionID = [])
    (hconnect : m.connectID = []) (hrest : rest ≠ []) :
    (if m.msgTypeFlag = msgTypeFlagWithEvent then [readEvent, readSessionID, readConnectID]
      else []).foldlM read (m, buf) = .ok (m', rest) ↔ EventRead m m' buf rest := by
  split_ifs with hflag
  · have htriple : ∀ t, [readEvent, readSessionID, readConnectID].foldlM read (m, buf) = .ok t ↔
        ∃ u, readEvent (m, buf) = .ok u ∧ ∃ w, readSessionID u = .ok w ∧
          readConnectID w = .ok t := by
      intro t
      have hfirst := foldlM_append_ok (f := read) [readEvent] [readSessionID, readConnectID]
        (m, buf) t
      have hsecond := fun u => foldlM_append_ok (f := read) [readSessionID] [readConnectID] u t
      simp only [List.singleton_append, foldlM_singleton_ok] at hfirst hsecond
      simp only [hfirst, hsecond]
      rfl
    rw [htriple]
    constructor
    · rintro ⟨⟨m₁, buf₁⟩, h₁, ⟨m₂, buf₂⟩, h₂, h₃⟩
      have hleft : buf₂ ≠ [] := by
        rintro rfl
        exact hrest (readConnectID_nil h₃)
      obtain ⟨e, rfl, rfl⟩ := readWord_ok_iff.mp h₁
      obtain ⟨s, rfl, hs, hnone, rfl⟩ :=
        (readSessionID_ok_iff (m := { m with eventType := e }) hsession hleft).mp h₂
      obtain ⟨c, rfl, hc, hnone', rfl⟩ := (readConnectID_ok_iff
        (m := { m with eventType := e, sessionID := s }) hconnect hrest).mp h₃
      refine ⟨rfl, hs, hc, fun h => absurd hflag h, fun h => hnone (h hflag),
        fun h => hnone' fun hmem => h ⟨hflag, hmem⟩, ?_⟩
      rw [if_pos hflag, readIds, List.append_assoc, List.append_assoc]
    · rintro ⟨hsame, hs, hc, -, hnone, hnone', rfl⟩
      rw [if_pos hflag, readIds, List.append_assoc, List.append_assoc]
      have hleft : (if m'.eventType ∈ readWithConnect then chunk m'.connectID else []) ++
          rest ≠ [] := List.append_ne_nil_of_right_ne_nil _ hrest
      exact ⟨_, readWord_ok_iff.mpr ⟨m'.eventType, rfl, rfl⟩, _,
        (readSessionID_ok_iff (m := { m with eventType := m'.eventType }) hsession hleft).mpr
          ⟨m'.sessionID, rfl, hs, fun h => hnone fun _ => h, rfl⟩,
        (readConnectID_ok_iff
          (m := { m with eventType := m'.eventType, sessionID := m'.sessionID }) hconnect hrest).mpr
          ⟨m'.connectID, hsame, hc, fun h => hnone' fun hmem => h hmem.2, rfl⟩⟩
  · constructor
    · intro h
      cases h
      refine ⟨rfl, ?_, ?_, fun _ => hevent, fun _ => hsession, fun _ => hconnect, ?_⟩
      · rw [hsession]
        decide
      · rw [hconnect]
        decide
      · rw [if_neg hflag, List.nil_append]
    · rintro ⟨hsame, -, -, hnoEvent, hnone, hnone', rfl⟩
      have hm : m' = m := by
        rw [hsame, hnoEvent hflag, hnone fun h => absurd h hflag,
          hnone' fun h => absurd h.1 hflag]
        cases m
        dsimp only at hevent hsession hconnect
        subst hevent hsession hconnect
        rfl
      rw [hm, if_neg hflag, List.nil_append]
      rfl

theorem readHead_eq (m : Message) : readHead m = lead m ++
    if m.msgTypeFlag = msgTypeFlagWithEvent then put32 m.eventType ++ readIds m else [] := by
  unfold readHead readIds
  rw [List.append_assoc]

/-- A message that has been read behind its header. -/
structure Reads (m m' : Message) (buf : List Byte) (size : BitVec 32) : Prop where
  same : m' = { m with
    eventType := m'.eventType, sessionID := m'.sessionID, connectID := m'.connectID,
    sequence := m'.sequence, errorCode := m'.errorCode, payload := m'.payload }
  unread : m'.Unread
  session : m'.sessionID.length < 2 ^ 32
  connect : m'.connectID.length < 2 ^ 32
  payload : m'.payload.length ≤ size.toNat
  bytes : buf = readHead m' ++ (put32 size ++ m'.payload)

theorem readPayload_ok_iff (hpayload : m.payload = []) :
    readPayload (m, buf) = .ok (m', []) ↔ ∃ size s, s.length ≤ BitVec.toNat size ∧
      buf = put32 size ++ s ∧ m' = { m with payload := s } := by
  have hset : { m with payload := [] } = m := by rw [← hpayload]
  exact readSized_end_iff hset

theorem readAll_ok_iff (hknown : m.Known) (hfresh : m.Fresh) :
    readAll m buf = .ok m' ↔ ∃ size, Reads m m' buf size := by
  have hend : readAll m buf = .ok m' ↔ ∃ u, (∃ w, (leadReaders m).foldlM read (m, buf) = .ok w ∧
      (if m.msgTypeFlag = msgTypeFlagWithEvent then [readEvent, readSessionID, readConnectID]
        else []).foldlM read w = .ok u) ∧ readPayload u = .ok (m', []) := by
    unfold readAll
    rw [readers_eq hknown]
    dsimp only
    have hsplit := fun t => foldlM_append_ok (f := read) (leadReaders m ++
      (if m.msgTypeFlag = msgTypeFlagWithEvent then [readEvent, readSessionID, readConnectID]
        else [])) [readPayload] (m, buf) t
    simp only [foldlM_append_ok (leadReaders m), foldlM_singleton_ok] at hsplit
    have hlast : ∀ u, read u readPayload = readPayload u := fun _ => rfl
    simp only [hlast] at hsplit
    rw [← hsplit]
    split
    · rename_i e he
      rw [he]
      exact iff_of_false nofun nofun
    · rename_i m₁ hm₁
      rw [hm₁]
      exact ⟨fun h => by cases h; rfl, fun h => by cases h; rfl⟩
    · rename_i m₁ b l hm₁
      rw [hm₁]
      exact iff_of_false nofun nofun
  rw [hend]
  constructor
  · rintro ⟨⟨m₂, buf₂⟩, ⟨⟨m₁, buf₁⟩, hlead, hevents⟩, hpayload⟩
    have hleft : buf₂ ≠ [] := by
      rintro rfl
      cases hpayload
    obtain ⟨x, y, rfl, hx, hy, rfl⟩ := (leadReaders_ok_iff hfresh).mp hlead
    obtain ⟨hsame, hs, hc, hnoEvent, hnone, hnone', rfl⟩ := (eventReaders_ok_iff
      (m := { m with sequence := x, errorCode := y }) hfresh.eventType hfresh.sessionID
      hfresh.connectID hleft).mp hevents
    have hempty : m₂.payload = [] := by
      rw [hsame]
      exact hfresh.payload
    obtain ⟨size, s, hle, rfl, rfl⟩ := (readPayload_ok_iff hempty).mp hpayload
    rw [hsame] at hnone hnone' hnoEvent ⊢
    refine ⟨size, rfl, ⟨fun h => hx ?_, hy, hnoEvent, hnone, hnone'⟩, hs, hc, hle, ?_⟩
    · refine or_iff_not_imp_left.mpr fun herror hseq => h ⟨?_, hseq⟩
      exact hknown.resolve_right herror
    · rw [readHead_eq, List.append_assoc]
      rfl
  · rintro ⟨size, hsame, hunread, hs, hc, hle, rfl⟩
    obtain ⟨e, s, c, x, y, p, rfl⟩ : ∃ e s c x y p, m' = { m with
        eventType := e, sessionID := s, connectID := c, sequence := x, errorCode := y,
        payload := p } := ⟨_, _, _, _, _, _, hsame⟩
    have hpayload := hfresh.payload
    rw [readHead_eq, List.append_assoc]
    refine ⟨({ m with
        eventType := e, sessionID := s, connectID := c, sequence := x, errorCode := y },
        put32 size ++ p), ⟨({ m with sequence := x, errorCode := y }, _),
        (leadReaders_ok_iff hfresh).mpr ⟨x, y, rfl, fun h => hunread.sequence fun hseq => ?_,
          hunread.errorCode, rfl⟩,
        (eventReaders_ok_iff (m := { m with sequence := x, errorCode := y }) hfresh.eventType
          hfresh.sessionID hfresh.connectID
          (List.append_ne_nil_of_left_ne_nil (List.cons_ne_nil _ _) _)).mpr
          ⟨rfl, hs, hc, hunread.eventType, hunread.sessionID, hunread.connectID, rfl⟩⟩,
      (readPayload_ok_iff (m := { m with
        eventType := e, sessionID := s, connectID := c, sequence := x, errorCode := y })
          hpayload).mpr ⟨size, p, hle, rfl, rfl⟩⟩
    exact h.elim (ne_error_of_sequenced hseq.1) fun hnot => hnot hseq.2

/-- A message of which the header has been read. -/
def headerRead (first second third : Byte) : Message :=
  { newMessage (second >>> 4) (second &&& 0b1111) with
    version := first >>> 4
    headerSize := first &&& 0b1111
    serialization := third &&& 0b11110000
    compression := third &&& 0b1111 }

theorem fresh_headerRead (first second third : Byte) : (headerRead first second third).Fresh :=
  ⟨rfl, rfl, rfl, rfl, rfl, rfl⟩

theorem newMessageFromBytes_cons {first second third : Byte} :
    newMessageFromBytes (first :: second :: third :: buf) = .ok m ↔
      paddingSize (first &&& 0b1111) ≤ buf.length ∧
        readAll (headerRead first second third) (buf.drop (paddingSize (first &&& 0b1111))) =
          .ok m := by
  unfold newMessageFromBytes unmarshal
  dsimp only
  by_cases hlength : buf.length < paddingSize (first &&& 0b1111)
  · have hle : ¬ paddingSize (first &&& 0b1111) ≤ buf.length := Nat.not_le.mpr hlength
    rw [if_pos hlength]
    exact iff_of_false nofun fun h => hle h.1
  · rw [if_neg hlength, and_iff_right (Nat.not_lt.mp hlength)]
    rfl

theorem known_of_readAll (h : readAll m buf = .ok m') : m.Known := by
  by_contra hknown
  unfold readAll at h
  rw [readers_eq_error hknown] at h
  cases h

/-- **What is accepted**: frames, the payload of which may be cut off. -/
theorem newMessageFromBytes_eq_ok_iff : newMessageFromBytes data = .ok m ↔
    ∃ f : Frame, f.Valid ∧ f.bytes = data ∧ f.message = m := by
  constructor
  · intro h
    match data with
    | first :: second :: third :: buf =>
      obtain ⟨hlength, hread⟩ := newMessageFromBytes_cons.mp h
      have hknown := known_of_readAll hread
      obtain ⟨size, hsame, hunread, hs, hc, hle, hbytes⟩ :=
        (readAll_ok_iff hknown (fresh_headerRead first second third)).mp hread
      obtain ⟨e, s, c, x, y, p, rfl⟩ : ∃ e s c x y p, m = { headerRead first second third with
          eventType := e, sessionID := s, connectID := c, sequence := x, errorCode := y,
          payload := p } := ⟨_, _, _, _, _, _, hsame⟩
      refine ⟨⟨first, second, third, buf.take (paddingSize (first &&& 0b1111)), e, s, c, x, y,
        size, p⟩, ⟨List.length_take_of_le hlength, hknown, hunread, hs, hc, hle⟩, ?_, rfl⟩
      have hbuf := List.take_append_drop (paddingSize (first &&& 0b1111)) buf
      rw [hbytes] at hbuf
      exact congrArg (fun l => first :: second :: third :: l) hbuf
    | [] => cases h
    | [_] => cases h
    | [_, _] => cases h
  · rintro ⟨f, hvalid, rfl, rfl⟩
    rw [Frame.bytes, newMessageFromBytes_cons, List.length_append, hvalid.padding]
    refine ⟨Nat.le_add_right _ _, ?_⟩
    have hknown : (headerRead f.first f.second f.third).Known := hvalid.known
    rw [List.drop_left' hvalid.padding, readAll_ok_iff hknown (fresh_headerRead _ _ _)]
    exact ⟨f.size, rfl, hvalid.unread, hvalid.sessionID, hvalid.connectID, hvalid.payload, rfl⟩

end Codec

/-! ## Round trips -/

section RoundTrips

variable {m : Message} {f : Frame}

/-- A serialization that has been read is written as none. -/
theorem pack_read (x : Byte) : pack (x &&& 0b11110000) (x &&& 0b1111) = x &&& 0b1111 := by
  revert x
  decide

theorem header_message (f : Frame) :
    header f.message = [f.first, f.second, f.third &&& 0b1111] := by
  show [pack (f.first >>> 4) (f.first &&& 0b1111), pack (f.second >>> 4) (f.second &&& 0b1111),
    pack (f.third &&& 0b11110000) (f.third &&& 0b1111)] = _
  rw [pack_halves, pack_halves, pack_read]

theorem high_eq_zero_iff (x : Byte) : x &&& 0b1111 = x ↔ x >>> 4 = 0 := by
  revert x
  decide

theorem read_eq_zero (x : Byte) : (x &&& 0b11110000).toNat < 16 ↔ x >>> 4 = 0 := by
  revert x
  decide

/-- What is read is exactly what has been written. -/
theorem body_eq_iff (hunread : m.Unread) {size : BitVec 32} (hle : m.payload.length ≤ size.toNat) :
    writtenHead m ++ chunk m.payload = readHead m ++ (put32 size ++ m.payload) ↔
      InStep m ∧ size.toNat = m.payload.length := by
  have hsize : BitVec.ofNat 32 m.payload.length = size ↔ size.toNat = m.payload.length := by
    have hlt : m.payload.length < 2 ^ 32 := Nat.lt_of_le_of_lt hle size.isLt
    rw [← BitVec.toNat_inj, BitVec.toNat_ofNat, Nat.mod_eq_of_lt hlt]
    exact eq_comm
  rw [chunk, ← List.append_assoc, ← List.append_assoc, List.append_cancel_right_eq,
    ← writtenHead_eq_iff hunread, ← hsize]
  constructor
  · intro h
    obtain ⟨hhead, hlength⟩ := List.append_inj' h rfl
    exact ⟨hhead, put32_inj hlength⟩
  · rintro ⟨hhead, hlength⟩
    rw [hhead, hlength]

theorem behindHeader_cons {first second third : Byte} {padding rest : List Byte}
    (h : padding.length = paddingSize (first &&& 0b1111)) :
    behindHeader (first :: second :: third :: (padding ++ rest)) = rest :=
  List.drop_left' h

/-- **A frame is written as it was read.** -/
theorem rewrites_iff (h : f.Valid) : Rewrites f.bytes ↔
    f.third >>> 4 = 0 ∧ f.size.toNat = f.payload.length ∧ InStep f.message := by
  have hread : newMessageFromBytes f.bytes = .ok f.message :=
    newMessageFromBytes_eq_ok_iff.mpr ⟨f, h, rfl, rfl⟩
  have hpayload : f.message.payload.length < 2 ^ 32 := Nat.lt_of_le_of_lt h.payload f.size.isLt
  have hmarshal : marshal f.message = .ok (header f.message ++
      List.replicate (paddingSize f.message.headerSize) 0 ++
        (writtenHead f.message ++ chunk f.message.payload)) :=
    marshal_eq_ok_iff.mpr ⟨h.known, fun _ _ => h.sessionID, hpayload, rfl⟩
  have hbody := body_eq_iff h.unread h.payload
  have hpadding : (List.replicate (paddingSize f.message.headerSize) (0 : Byte)).length =
      paddingSize (f.first &&& 0b1111) := List.length_replicate
  rw [header_message, List.append_assoc] at hmarshal
  constructor
  · intro hrewrites
    obtain ⟨data, hdata, hsame⟩ := hrewrites _ hread
    rw [hmarshal, Except.ok.injEq] at hdata
    subst hdata
    have hthird := hsame.header
    have hrest := hsame.rest
    have hthird' : f.third &&& 0b1111 = f.third := by
      simpa [Frame.bytes] using hthird
    rw [Frame.bytes, behindHeader_cons h.padding] at hrest
    have hrest' : writtenHead f.message ++ chunk f.message.payload =
        readHead f.message ++ (put32 f.size ++ f.payload) :=
      (behindHeader_cons hpadding).symm.trans hrest
    exact ⟨(high_eq_zero_iff _).mp hthird', (hbody.mp hrest').2, (hbody.mp hrest').1⟩
  · rintro ⟨hthird, hsize, hstep⟩ m hm
    obtain rfl : f.message = m := by
      rw [hread] at hm
      exact Except.ok.inj hm
    have hrest := hbody.mpr ⟨hstep, hsize⟩
    refine ⟨_, hmarshal, ?_⟩
    rw [(high_eq_zero_iff _).mpr hthird, hrest]
    refine ⟨?_, rfl, ?_⟩
    · have hlength := hpadding.trans h.padding.symm
      have hfield : f.message.payload.length = f.payload.length := rfl
      unfold Frame.bytes
      simp only [List.length_cons, List.length_append, hlength, List.length_nil]
      omega
    · exact (behindHeader_cons hpadding).trans (behindHeader_cons h.padding).symm

theorem pack_zero (h : m.compression.toNat < 16) : pack 0 m.compression &&& 0b11110000 = 0 := by
  have hall : ∀ a : BitVec 4, pack 0 (a.setWidth 8) &&& 0b11110000 = 0 := by decide
  rw [← half h]
  exact hall _

theorem read_high_eq_zero (x : Byte) : x >>> 4 = 0 → x &&& 0b11110000 = 0 := by
  revert x
  decide

/-- A message in step has no connect id, and a session id only where one is read. -/
theorem unread_of_inStep (h : m.WellFormed) (hstep : InStep m) : m.Unread ∧ m.connectID = [] := by
  have hconnect : m.connectID = [] := by
    by_cases hevent : m.msgTypeFlag = msgTypeFlagWithEvent ∧ m.eventType ∈ readWithConnect
    · obtain ⟨hids, herror⟩ := hstep hevent.1
      have htype : m.msgType ≠ msgTypeError := fun htype => (herror htype).2.1 hevent.2
      obtain ⟨hstarted, hfailed, hfinished⟩ := hids htype
      have hcases := hevent.2
      simp only [readWithConnect, List.mem_cons, List.not_mem_nil, or_false] at hcases
      exact (hfinished ((hcases.resolve_left hstarted).resolve_left hfailed)).2
    · exact h.connectID hevent
  refine ⟨⟨h.sequence, h.errorCode, h.eventType, fun hread => ?_, fun _ => hconnect⟩, hconnect⟩
  by_cases hfinished : m.msgTypeFlag = msgTypeFlagWithEvent ∧
      m.eventType = eventTypeConnectionFinished
  · obtain ⟨hids, herror⟩ := hstep hfinished.1
    have htype : m.msgType ≠ msgTypeError := by
      intro htype
      exact (herror htype).2.1 (by rw [hfinished.2]; decide)
    exact ((hids htype).2.2 hfinished.2).1
  · refine h.sessionID fun hflag => ?_
    have hcases := hread hflag
    have hnot : m.eventType ≠ eventTypeConnectionFinished := fun hevent => hfinished ⟨hflag, hevent⟩
    simp only [readWithoutSession, writtenWithoutSession, List.mem_cons, List.not_mem_nil,
      or_false] at hcases ⊢
    tauto

/-- **A message is read back.** -/
theorem roundTrips_message_iff (h : m.WellFormed) : RoundTrips m ↔ m.serialization = 0 ∧
    m.sessionID.length < 2 ^ 32 ∧ m.payload.length < 2 ^ 32 ∧ InStep m := by
  constructor
  · rintro ⟨data, hmarshal, hread⟩
    obtain ⟨-, -, hpayload, rfl⟩ := marshal_eq_ok_iff.mp hmarshal
    obtain ⟨f, hvalid, hbytes, rfl⟩ := newMessageFromBytes_eq_ok_iff.mp hread
    have hthird := (read_eq_zero f.third).mp h.serialization
    refine ⟨read_high_eq_zero _ hthird, hvalid.sessionID, hpayload, ?_⟩
    have hbehind := congrArg behindHeader hbytes
    rw [Frame.bytes, behindHeader_cons hvalid.padding, header_message,
      List.append_assoc] at hbehind
    have hbody : readHead f.message ++ (put32 f.size ++ f.payload) =
        writtenHead f.message ++ chunk f.message.payload :=
      hbehind.trans (behindHeader_cons List.length_replicate)
    exact ((body_eq_iff hvalid.unread hvalid.payload).mp hbody.symm).1
  · rintro ⟨hserialization, hsession, hpayload, hstep⟩
    obtain ⟨hunread, hconnect⟩ := unread_of_inStep h hstep
    have htype : m.msgType.toNat < 16 := by
      have hall : ∀ x ∈ msgTypeError :: sequencedTypes, x.toNat < 16 := by decide
      refine hall _ (List.mem_cons.mpr ?_)
      exact h.known.symm
    have hsize : (BitVec.ofNat 32 m.payload.length).toNat = m.payload.length := by
      rw [BitVec.toNat_ofNat, Nat.mod_eq_of_lt hpayload]
    refine ⟨_, marshal_eq_ok_iff.mpr ⟨h.known, fun _ _ => hsession, hpayload, rfl⟩,
      newMessageFromBytes_eq_ok_iff.mpr ⟨⟨pack m.version m.headerSize, pack m.msgType m.msgTypeFlag,
        pack 0 m.compression, List.replicate (paddingSize m.headerSize) 0, m.eventType, m.sessionID,
        m.connectID, m.sequence, m.errorCode, BitVec.ofNat 32 m.payload.length, m.payload⟩, ?_⟩⟩
    have hmessage : Frame.message ⟨pack m.version m.headerSize, pack m.msgType m.msgTypeFlag,
        pack 0 m.compression, List.replicate (paddingSize m.headerSize) 0, m.eventType, m.sessionID,
        m.connectID, m.sequence, m.errorCode, BitVec.ofNat 32 m.payload.length, m.payload⟩ = m := by
      unfold Frame.message
      dsimp only
      rw [pack_high h.version h.headerSize, pack_low h.version h.headerSize,
        pack_high htype h.msgTypeFlag, pack_low htype h.msgTypeFlag, pack_zero h.compression,
        pack_low (by decide) h.compression, ← hserialization]
    refine ⟨⟨?_, ?_, ?_, hsession, ?_, ?_⟩, ?_, hmessage⟩
    · rw [pack_low h.version h.headerSize]
      exact List.length_replicate
    · rw [hmessage]
      exact h.known
    · rw [hmessage]
      exact hunread
    · show m.connectID.length < _
      rw [hconnect]
      decide
    · exact Nat.le_of_eq hsize.symm
    · have hbody := (body_eq_iff hunread (Nat.le_of_eq hsize.symm)).mpr ⟨hstep, hsize⟩
      rw [Frame.bytes, hmessage, hbody, header, hserialization]
      simp only [List.cons_append, List.nil_append]

/-- **The codec**: a message is read back exactly where no serialization is set, its texts have a
length and it is in step; what is accepted are the frames; and a frame is written as it was read
exactly where, besides, its payload is as long as it says. -/
theorem roundTrips_iff (m : Message) (data : List Byte) (f : Frame) :
    (m.WellFormed → (RoundTrips m ↔ m.serialization = 0 ∧
      m.sessionID.length < 2 ^ 32 ∧ m.payload.length < 2 ^ 32 ∧ InStep m)) ∧
    (newMessageFromBytes data = .ok m ↔
      ∃ f : Frame, f.Valid ∧ f.bytes = data ∧ f.message = m) ∧
    (f.Valid → (Rewrites f.bytes ↔
      f.third >>> 4 = 0 ∧ f.size.toNat = f.payload.length ∧ InStep f.message)) :=
  ⟨roundTrips_message_iff, newMessageFromBytes_eq_ok_iff, rewrites_iff⟩

end RoundTrips

/-! ## Runs -/

/-- A request of a session, without a serialization. -/
def sessionRequest : Message where
  version := 1
  headerSize := 1
  msgType := msgTypeFullClientRequest
  msgTypeFlag := msgTypeFlagWithEvent
  serialization := 0
  compression := 0
  eventType := 100
  sessionID := [0x61]
  connectID := []
  sequence := 0
  errorCode := 0
  payload := [0x7b, 0x7d]

theorem sessionRequest_roundTrips : RoundTrips sessionRequest := by
  refine ((roundTrips_iff sessionRequest [] ⟨0, 0, 0, [], 0, [], [], 0, 0, 0, []⟩).1
    ⟨by decide, by decide, by decide, by decide, by decide,
      .inl (by decide), ?_, ?_, ?_, ?_, ?_⟩).mpr ⟨rfl, by decide, by decide, ?_⟩
  · decide
  · decide
  · decide
  · exact fun h => absurd (h rfl) (by decide)
  · decide
  · exact fun _ => ⟨fun _ => ⟨by decide, by decide, fun h => absurd h (by decide)⟩,
      fun h => absurd h (by decide)⟩

/-- What `NewMessage` makes: its serialization is JSON. -/
def jsonRequest : Message := newMessage msgTypeFullClientRequest 0

/-- A frame of five bytes without any of them. -/
def cutOff : List Byte := [0x11, 0x10, 0x00, 0x00, 0, 0, 0, 5]

/-- A message is read back with another serialization, and a payload that is not there is
accepted. -/
theorem jsonRequest_and_cutOff :
    marshal jsonRequest = .ok [0x11, 0x10, 0x10, 0x00, 0, 0, 0, 0] ∧
      newMessageFromBytes [0x11, 0x10, 0x10, 0x00, 0, 0, 0, 0] =
        .ok { jsonRequest with serialization := 16 } ∧
      ¬ RoundTrips jsonRequest ∧
      newMessageFromBytes cutOff = .ok { jsonRequest with serialization := 0 } ∧
      ¬ Rewrites cutOff := by
  have hmarshal : marshal jsonRequest = .ok [0x11, 0x10, 0x10, 0x00, 0, 0, 0, 0] := by rfl
  have hread : newMessageFromBytes [0x11, 0x10, 0x10, 0x00, 0, 0, 0, 0] =
      .ok { jsonRequest with serialization := 16 } := by rfl
  have hcut : newMessageFromBytes cutOff = .ok { jsonRequest with serialization := 0 } := by rfl
  have hwritten : marshal { jsonRequest with serialization := 0 } =
      .ok [0x11, 0x10, 0x00, 0x00, 0, 0, 0, 0] := by rfl
  refine ⟨hmarshal, hread, ?_, hcut, ?_⟩
  · rintro ⟨data, hdata, hback⟩
    obtain rfl := Except.ok.inj (hmarshal.symm.trans hdata)
    rw [hread] at hback
    exact absurd (congrArg Message.serialization (Except.ok.inj hback)) (by decide)
  · intro h
    obtain ⟨data, hdata, hsame⟩ := h _ hcut
    obtain rfl := Except.ok.inj (hwritten.symm.trans hdata)
    exact absurd hsame.rest (by decide)

end Volcengine
