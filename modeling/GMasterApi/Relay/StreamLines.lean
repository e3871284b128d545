import GMasterApi.Lib.GoString

/-!
# The lines of an upstream stream

`StreamScannerHandler` reads the lines of a stream, as long as they fit into its buffer, and
makes payloads of them.  It looks for `[DONE]` behind the five bytes of a `data:` prefix, also
where there is no prefix: a line that begins with `[DONE]` becomes a payload that begins with
`]`.  That, and what stands behind a line that does not fit, is all that it gets wrong
(`delivered_eq_iff`).
-/

namespace StreamScanner

open GoString

abbrev Line := List UInt8

/-- The bytes of a text in ASCII. -/
def ascii (s : String) : Line := s.toList.map fun c => c.toNat.toUInt8

def dataPrefix : Line := ascii "data:"

def doneMarker : Line := ascii "[DONE]"

/-! ## Lines -/

/-- What stands between two newlines; the last one may be ended by the stream instead. -/
structure RawLine where
  text : Line
  ended : Bool

def rawLines (stream : List UInt8) : List RawLine :=
  let parts := stream.splitOn 0x0a
  parts.dropLast.map (⟨·, true⟩) ++
    match parts.getLast? with
    | some (b :: text) => [⟨b :: text, false⟩]
    | _ => []

def dropCR (line : Line) : Line := if line.getLast? = some 0x0d then line.dropLast else line

/-- `bufio.ScanLines` -/
def RawLine.line (l : RawLine) : Line := dropCR l.text

/-- How the stream is read: `constant.StreamScannerMaxBufferMB`, and whether the end of the
body is reported together with its last bytes. -/
structure Reader where
  streamScannerMaxBufferMB : ℤ
  endsWithBytes : Bool

def Reader.getScannerBufferSize (r : Reader) : ℕ :=
  if 0 < r.streamScannerMaxBufferMB then r.streamScannerMaxBufferMB.toNat * 2 ^ 20 else 64 * 2 ^ 20

/-- The buffer is not full before the line ends. -/
def Reader.fits (r : Reader) (l : RawLine) : Bool :=
  l.text.length < r.getScannerBufferSize ||
    (l.text.length == r.getScannerBufferSize && !l.ended && r.endsWithBytes)

/-- The lines up to one that is too long, where `scanner.Scan` ends. -/
def Reader.scanned (r : Reader) (stream : List UInt8) : List Line :=
  ((rawLines stream).takeWhile r.fits).map RawLine.line

def Reader.unread (r : Reader) (stream : List UInt8) : List Line :=
  ((rawLines stream).dropWhile r.fits).map RawLine.line

/-! ## Payloads -/

inductive Found
  | skip
  | done
  | payload (data : Line)

/-- What the scanner makes of a line. -/
def scanLine (data : Line) : Found :=
  if data.length < 6 then .skip
  else if data.take 5 ≠ dataPrefix ∧ data.take 6 ≠ doneMarker then .skip
  else
    let data := bytesTrimSpace (data.drop 5)
    if data = [] then .skip
    else if ¬ doneMarker <+: data then .payload data
    else .done

/-- What is sent to the handler. -/
def delivered : List Line → List Line
  | [] => []
  | line :: lines =>
    match scanLine line with
    | .skip => delivered lines
    | .done => []
    | .payload data => data :: delivered lines

/-! ## What is promised -/

/-- The payload of a `data:` line. -/
def payloadOf (line : Line) : Option Line :=
  if dataPrefix <+: line then
    let payload := bytesTrimSpace (line.drop 5)
    if payload = [] then none else some payload
  else none

/-- The marker behind the prefix. -/
def PrefixedDone (line : Line) : Prop :=
  dataPrefix <+: line ∧ doneMarker <+: bytesTrimSpace (line.drop 5)

/-- The marker without the prefix. -/
def BareDone (line : Line) : Prop := doneMarker <+: line

instance : DecidablePred PrefixedDone := fun _ => inferInstanceAs (Decidable (_ ∧ _))

instance : DecidablePred BareDone := fun _ => inferInstanceAs (Decidable (_ <+: _))

/-- The payloads before the first marker. -/
def payloads (lines : List Line) : List Line :=
  (lines.takeWhile fun line => ¬ (BareDone line ∨ PrefixedDone line)).filterMap payloadOf

/-- No marker without a prefix is read, and no payload stands behind what is read. -/
def Readable (scanned unread : List Line) : Prop :=
  (∀ line ∈ scanned.takeWhile (fun line => ¬ PrefixedDone line), ¬ BareDone line) ∧
    ((∃ line ∈ scanned, PrefixedDone line) ∨ payloads unread = [])

/-! ## Lemmas -/

variable {line data : Line} {lines scanned unread : List Line}

theorem lines_eq (r : Reader) (stream : List UInt8) :
    (rawLines stream).map RawLine.line = r.scanned stream ++ r.unread stream := by
  rw [Reader.scanned, Reader.unread, ← List.map_append, List.takeWhile_append_dropWhile]

theorem take_eq_iff {l : Line} (n : ℕ) (hn : l.length = n) : line.take n = l ↔ l <+: line := by
  rw [List.prefix_iff_eq_take, hn]
  exact eq_comm

theorem not_dataPrefix_of_bareDone (h : BareDone line) : ¬ dataPrefix <+: line := by
  obtain ⟨rest, rfl⟩ := h
  intro hdata
  have hhead := List.cons_prefix_cons.mp hdata
  exact absurd hhead.1 (by decide)

/-- The marker without a prefix is taken for a payload. -/
theorem scanLine_of_bareDone (h : BareDone line) : ∃ data, scanLine line = .payload data := by
  have hlength : ¬ line.length < 6 := Nat.not_lt.mpr (List.IsPrefix.length_le h)
  have hmarker : ¬ (line.take 5 ≠ dataPrefix ∧ line.take 6 ≠ doneMarker) := by
    rintro ⟨-, hne⟩
    exact hne ((take_eq_iff 6 rfl).mpr h)
  obtain ⟨rest, rfl⟩ := h
  have hspaces : ∀ space ∈ spaces, space ≠ [] ∧ 0x5d ∉ space := by decide
  obtain ⟨trimmed, htrimmed⟩ := bytesTrimSpace_cons hspaces rest
  have hdrop : (doneMarker ++ rest).drop 5 = 0x5d :: rest := rfl
  refine ⟨0x5d :: trimmed, ?_⟩
  unfold scanLine
  rw [if_neg hlength, if_neg hmarker, hdrop, htrimmed]
  have hnot : ¬ doneMarker <+: 0x5d :: trimmed := by
    intro hstarts
    exact absurd (List.cons_prefix_cons.mp hstarts).1 (by decide)
  simp [hnot]

/-- Any other line is read as it should be. -/
theorem scanLine_of_not_bareDone (h : ¬ BareDone line) : scanLine line =
    if PrefixedDone line then .done
    else match payloadOf line with
      | some payload => .payload payload
      | none => .skip := by
  have hmarker : line.take 6 ≠ doneMarker := fun heq => h ((take_eq_iff 6 rfl).mp heq)
  by_cases hdata : dataPrefix <+: line
  · have htake : line.take 5 = dataPrefix := (take_eq_iff 5 rfl).mpr hdata
    by_cases hempty : bytesTrimSpace (line.drop 5) = []
    · have hnot : ¬ PrefixedDone line := by
        rintro ⟨-, hstarts⟩
        rw [hempty] at hstarts
        exact absurd hstarts (by decide)
      have hnone : payloadOf line = none := by simp [payloadOf, hempty]
      rw [if_neg hnot, hnone]
      simp [scanLine, hempty]
    · have hlength : ¬ line.length < 6 := by
        intro hlt
        have hdrop : line.drop 5 = [] := List.drop_eq_nil_of_le (by omega)
        exact hempty (by rw [hdrop]; rfl)
      have hsome : payloadOf line = some (bytesTrimSpace (line.drop 5)) := by
        simp [payloadOf, hdata, hempty]
      rw [hsome]
      by_cases hdone : doneMarker <+: bytesTrimSpace (line.drop 5)
      · rw [if_pos ⟨hdata, hdone⟩]
        simp [scanLine, hlength, htake, hempty, hdone]
      · rw [if_neg fun hp => hdone hp.2]
        simp [scanLine, hlength, htake, hempty, hdone]
  · have htake : line.take 5 ≠ dataPrefix := fun heq => hdata ((take_eq_iff 5 rfl).mp heq)
    rw [if_neg fun hp => hdata hp.1, payloadOf, if_neg hdata]
    simp [scanLine, htake, hmarker]

theorem scanLine_payload (h : scanLine line = .payload data) : ¬ doneMarker <+: data := by
  unfold scanLine at h
  split at h
  · cases h
  split at h
  · cases h
  simp only at h
  split at h
  · cases h
  split at h
  · rename_i hnot
    cases h
    exact hnot
  · cases h

/-- No marker is sent. -/
theorem not_doneMarker_of_mem {lines : List Line} (h : data ∈ delivered lines) :
    ¬ doneMarker <+: data := by
  induction lines with
  | nil => cases h
  | cons line lines ih =>
    rw [delivered] at h
    split at h
    · exact ih h
    · cases h
    · rename_i payload hpayload
      rcases List.mem_cons.mp h with rfl | h
      · exact scanLine_payload hpayload
      · exact ih h

/-- **What is sent are the payloads** exactly if the stream is readable. -/
theorem delivered_eq_iff :
    delivered scanned = payloads (scanned ++ unread) ↔ Readable scanned unread := by
  induction scanned with
  | nil =>
    constructor
    · intro h
      exact ⟨by simp, .inr h.symm⟩
    · rintro ⟨-, ⟨line, hline, -⟩ | h⟩
      · cases hline
      · exact h.symm
  | cons line scanned ih =>
    by_cases hbare : BareDone line
    · have hnot : ¬ PrefixedDone line := fun hp => not_dataPrefix_of_bareDone hbare hp.1
      obtain ⟨data, hdata⟩ := scanLine_of_bareDone hbare
      refine iff_of_false ?_ ?_
      · simp [delivered, hdata, payloads, hbare]
      · rintro ⟨hread, -⟩
        refine hread line ?_ hbare
        simp [hnot]
    · have hline := scanLine_of_not_bareDone hbare
      by_cases hdone : PrefixedDone line
      · rw [if_pos hdone] at hline
        refine iff_of_true ?_ ⟨?_, .inl ⟨line, List.mem_cons_self, hdone⟩⟩
        · simp [delivered, hline, payloads, hdone]
        · simp [hdone]
      · rw [if_neg hdone] at hline
        have hreadable : Readable (line :: scanned) unread ↔ Readable scanned unread := by
          simp [Readable, hdone, hbare]
        have hpayloads : payloads (line :: scanned ++ unread) =
            (payloadOf line).toList ++ payloads (scanned ++ unread) := by
          cases hpayload : payloadOf line <;> simp [payloads, hbare, hdone, hpayload]
        rw [hreadable, ← ih, hpayloads, delivered, hline]
        cases payloadOf line <;> simp

end StreamScanner
