import GMasterApi.Lib.Transition
import GMasterApi.Relay.StreamLines

/-!
# `StreamScannerHandler`

One goroutine scans the lines and sends the payloads through a channel to another one, which
calls the handler; the main one waits for a stop signal and then for the others.  Signals are
sent when the channel has been closed, and the handler empties a closed channel before it
ends, so that whatever the schedule everything that was sent has been handled when
`StreamScannerHandler` returns (`delivers_iff`).
-/

namespace StreamScanner

open Transition

/-! ## The goroutines -/

/-- The scanner: before a line, at the `select` behind it, and at the one that sends; then what
it defers. -/
inductive Scanner
  | scanning
  | checking (line : Line)
  | sending (data : Line)
  | closing
  | leaving
  | signalling
  | ended

inductive Handler
  | receiving
  | handling (data : Line)
  | leaving
  | signalling
  | ended

/-- The main goroutine: at its `select`; then what it defers. -/
inductive Main
  | selecting
  | cancelling
  | signalling
  | waiting
  | returned
  deriving DecidableEq

structure State where
  lines : List Line
  scanner : Scanner
  dataChan : List Line
  dataClosed : Bool
  handler : Handler
  handled : List Line
  receivedResponseCount : ℕ
  pinging : Bool
  stopChan : ℕ
  stopClosed : Bool
  wg : ℕ
  cancelled : Bool
  clientGone : Bool
  main : Main

def State.initial (lines : List Line) (receivedResponseCount : ℕ) (pinging : Bool) : State where
  lines := lines
  scanner := .scanning
  dataChan := []
  dataClosed := false
  handler := .receiving
  handled := []
  receivedResponseCount := receivedResponseCount
  pinging := pinging
  stopChan := 0
  stopClosed := false
  wg := if pinging then 3 else 2
  cancelled := false
  clientGone := false
  main := .selecting

/-- `common.SafeSendBool(stopChan, true)` -/
def State.safeSendBool (s : State) : Option State :=
  if s.stopClosed then some s
  else if s.stopChan < 3 then some { s with stopChan := s.stopChan + 1 }
  else none

/-- `<-stopChan` -/
def State.receiveStop (s : State) : Option State :=
  if 0 < s.stopChan then some { s with stopChan := s.stopChan - 1 }
  else if s.stopClosed then some s
  else none

/-- `wg.Done()` -/
def State.done (s : State) : State := { s with wg := s.wg - 1 }

/-- A step of one of them.  `scannerStops`, `scannerCancelled` and `scannerGone` are the other
cases of its `select`s; a handler that panics stops, and a ping that fails ends the pings. -/
inductive Action
  | scan
  | check
  | send
  | scannerStops
  | scannerCancelled
  | scannerGone
  | close
  | scannerDone
  | scannerSignals
  | receive
  | handle (stop : Bool)
  | handlerDone
  | handlerSignals
  | pingStops
  | pingCancelled
  | pingEnds
  | stop
  | timeout
  | mainGone
  | cancel
  | mainSignals
  | waited
  | gaveUp
  | disconnect

/-- What the scanner does with a line when it is not to stop. -/
def State.process (s : State) (line : Line) : State :=
  match scanLine line with
  | .skip => { s with scanner := .scanning }
  | .done => { s with scanner := .closing }
  | .payload data =>
    { s with scanner := .sending data, receivedResponseCount := s.receivedResponseCount + 1 }

def step (s : State) : Action → Option State
  | .scan =>
    match s.scanner, s.lines with
    | .scanning, line :: lines => some { s with scanner := .checking line, lines := lines }
    | .scanning, [] => some { s with scanner := .closing }
    | _, _ => none
  | .check =>
    match s.scanner with
    | .checking line =>
      if 0 < s.stopChan ∨ s.stopClosed ∨ s.cancelled ∨ s.clientGone then none
      else some (s.process line)
    | _ => none
  | .send =>
    match s.scanner with
    | .sending data =>
      if s.dataChan.length < 10 then
        some { s with scanner := .scanning, dataChan := s.dataChan ++ [data] }
      else none
    | _ => none
  | .scannerStops =>
    match s.scanner with
    | .checking _ | .sending _ => s.receiveStop.map fun s => { s with scanner := .closing }
    | _ => none
  | .scannerCancelled =>
    match s.scanner with
    | .checking _ | .sending _ => if s.cancelled then some { s with scanner := .closing } else none
    | _ => none
  | .scannerGone =>
    match s.scanner with
    | .checking _ => if s.clientGone then some { s with scanner := .closing } else none
    | _ => none
  | .close =>
    match s.scanner with
    | .closing => some { s with scanner := .leaving, dataClosed := true }
    | _ => none
  | .scannerDone =>
    match s.scanner with
    | .leaving => some { s.done with scanner := .signalling }
    | _ => none
  | .scannerSignals =>
    match s.scanner with
    | .signalling => s.safeSendBool.map fun s => { s with scanner := .ended }
    | _ => none
  | .receive =>
    match s.handler, s.dataChan with
    | .receiving, data :: dataChan =>
      some { s with handler := .handling data, dataChan := dataChan }
    | .receiving, [] => if s.dataClosed then some { s with handler := .leaving } else none
    | _, _ => none
  | .handle stop =>
    match s.handler with
    | .handling data =>
      some { s with
        handler := if stop then .leaving else .receiving
        handled := s.handled ++ [data] }
    | _ => none
  | .handlerDone =>
    match s.handler with
    | .leaving => some { s.done with handler := .signalling }
    | _ => none
  | .handlerSignals =>
    match s.handler with
    | .signalling => s.safeSendBool.map fun s => { s with handler := .ended }
    | _ => none
  | .pingStops =>
    if s.pinging then s.receiveStop.map fun s => { s.done with pinging := false } else none
  | .pingCancelled =>
    if s.pinging ∧ (s.cancelled ∨ s.clientGone) then some { s.done with pinging := false } else none
  | .pingEnds => if s.pinging then some { s.done with pinging := false } else none
  | .stop =>
    match s.main with
    | .selecting => s.receiveStop.map fun s => { s with main := .cancelling }
    | _ => none
  | .timeout =>
    match s.main with
    | .selecting => some { s with main := .cancelling }
    | _ => none
  | .mainGone =>
    match s.main with
    | .selecting => if s.clientGone then some { s with main := .cancelling } else none
    | _ => none
  | .cancel =>
    match s.main with
    | .cancelling => some { s with main := .signalling, cancelled := true }
    | _ => none
  | .mainSignals =>
    match s.main with
    | .signalling => s.safeSendBool.map fun s => { s with main := .waiting }
    | _ => none
  | .waited =>
    match s.main with
    | .waiting => if s.wg = 0 then some { s with main := .returned, stopClosed := true } else none
    | _ => none
  | .gaveUp =>
    match s.main with
    | .waiting => some { s with main := .returned, stopClosed := true }
    | _ => none
  | .disconnect => some { s with clientGone := true }

def scannerSystem : System State Action := ⟨step⟩

/-- No timeout, no disconnect, and no handler that stops. -/
def Undisturbed : Action → Prop
  | .timeout | .gaveUp | .disconnect | .handle true => False
  | _ => True

/-! ## The invariant -/

/-- `dataChan` has been closed. -/
def Scanner.hasClosed : Scanner → Bool
  | .leaving | .signalling | .ended => true
  | _ => false

/-- What is still to be sent to the handler. -/
def Scanner.pending (lines : List Line) : Scanner → List Line
  | .scanning => delivered lines
  | .checking line => delivered (line :: lines)
  | .sending data => data :: delivered lines
  | _ => []

/-- What has been counted and is not sent yet. -/
def Scanner.counted : Scanner → ℕ
  | .sending _ => 1
  | _ => 0

/-- Its share of the wait group. -/
def Scanner.inGroup : Scanner → ℕ
  | .signalling | .ended => 0
  | _ => 1

/-- The stop signals that it has still to send. -/
def Scanner.unsent : Scanner → ℕ
  | .ended => 0
  | _ => 1

def Handler.inHand : Handler → List Line
  | .handling data => [data]
  | _ => []

def Handler.hasLeft : Handler → Bool
  | .leaving | .signalling | .ended => true
  | _ => false

def Handler.inGroup : Handler → ℕ
  | .signalling | .ended => 0
  | _ => 1

def Handler.unsent : Handler → ℕ
  | .ended => 0
  | _ => 1

def Main.unsent : Main → ℕ
  | .waiting | .returned => 0
  | _ => 1

structure Inv (all : List Line) (count : ℕ) (s : State) : Prop where
  /-- Nothing is lost between the lines and the handler. -/
  flow : s.handled ++ s.handler.inHand ++ s.dataChan ++ s.scanner.pending s.lines = all
  counted : s.receivedResponseCount = count + s.handled.length + s.handler.inHand.length +
    s.dataChan.length + s.scanner.counted
  closed : s.dataClosed = s.scanner.hasClosed
  emptied : s.handler.hasLeft = true → s.dataClosed = true ∧ s.dataChan = []
  /-- As long as the scanner has not closed the channel, nobody is told to stop. -/
  running : s.scanner.hasClosed = false →
    s.stopChan = 0 ∧ s.stopClosed = false ∧ s.cancelled = false ∧ s.main = .selecting
  present : s.clientGone = false
  group : s.wg = s.pinging.toNat + s.scanner.inGroup + s.handler.inGroup
  room : s.stopChan + s.scanner.unsent + s.handler.unsent + s.main.unsent ≤ 3
  /-- The pings take one signal at most, and leave one for the main goroutine. -/
  signals : s.main = .selecting →
    1 + s.pinging.toNat ≤ s.scanner.unsent + s.handler.unsent + s.stopChan
  cancels : s.main = .selecting ∨ s.main = .cancelling ∨ s.cancelled = true
  stops : s.stopClosed = true ↔ s.main = .returned
  returns : s.main = .returned → s.wg = 0

variable {all : List Line} {count : ℕ} {s t u : State} {a : Action}

theorem inv_initial (lines : List Line) (count : ℕ) (pinging : Bool) :
    Inv (delivered lines) count (.initial lines count pinging) where
  flow := rfl
  counted := rfl
  closed := rfl
  emptied h := by cases h
  running _ := ⟨rfl, rfl, rfl, rfl⟩
  present := rfl
  group := by cases pinging <;> rfl
  room := by simp [State.initial, Scanner.unsent, Handler.unsent, Main.unsent]
  signals _ := by cases pinging <;> simp [State.initial, Scanner.unsent, Handler.unsent]
  cancels := .inl rfl
  stops := by simp [State.initial]
  returns h := by cases h

theorem safeSendBool_cases (h : s.safeSendBool = some t) :
    (s.stopClosed = true ∧ t = s) ∨
      (s.stopClosed = false ∧ s.stopChan < 3 ∧ t = { s with stopChan := s.stopChan + 1 }) := by
  unfold State.safeSendBool at h
  split at h
  · rename_i hclosed
    exact .inl ⟨hclosed, (Option.some.inj h).symm⟩
  · rename_i hclosed
    split at h
    · rename_i hroom
      exact .inr ⟨Bool.eq_false_iff.mpr hclosed, hroom, (Option.some.inj h).symm⟩
    · cases h

theorem receiveStop_cases (h : s.receiveStop = some t) :
    (0 < s.stopChan ∧ t = { s with stopChan := s.stopChan - 1 }) ∨
      (s.stopClosed = true ∧ t = s) := by
  unfold State.receiveStop at h
  split at h
  · rename_i hsignal
    exact .inl ⟨hsignal, (Option.some.inj h).symm⟩
  · split at h
    · rename_i hclosed
      exact .inr ⟨hclosed, (Option.some.inj h).symm⟩
    · cases h

theorem Scanner.inGroup_of_open {scanner : Scanner} (h : scanner.hasClosed = false) :
    scanner.inGroup = 1 := by
  cases scanner <;> first | rfl | cases h

theorem Scanner.unsent_of_open {scanner : Scanner} (h : scanner.hasClosed = false) :
    scanner.unsent = 1 := by
  cases scanner <;> first | rfl | cases h

/-- The scanner goes on, and what it passes on is neither lost nor counted twice. -/
theorem Inv.goesOn (h : Inv all count s) (hopen : s.scanner.hasClosed = false)
    {scanner : Scanner} {lines dataChan : List Line} {received : ℕ}
    (hopen' : scanner.hasClosed = false)
    (hflow : dataChan ++ scanner.pending lines = s.dataChan ++ s.scanner.pending s.lines)
    (hcount : received + s.dataChan.length + s.scanner.counted =
      s.receivedResponseCount + dataChan.length + scanner.counted) :
    Inv all count
      { s with
        scanner := scanner
        lines := lines
        dataChan := dataChan
        receivedResponseCount := received } where
  flow := by
    rw [List.append_assoc, hflow, ← List.append_assoc]
    exact h.flow
  counted := by
    have hcounted := h.counted
    show received = count + s.handled.length + s.handler.inHand.length + dataChan.length +
      scanner.counted
    omega
  closed := by
    show s.dataClosed = scanner.hasClosed
    rw [hopen', ← hopen]
    exact h.closed
  emptied hleft := by
    have hclosed := (h.emptied hleft).1
    rw [h.closed, hopen] at hclosed
    cases hclosed
  running _ := h.running hopen
  present := h.present
  group := by
    show s.wg = s.pinging.toNat + scanner.inGroup + s.handler.inGroup
    rw [Scanner.inGroup_of_open hopen', ← Scanner.inGroup_of_open hopen]
    exact h.group
  room := by
    show s.stopChan + scanner.unsent + s.handler.unsent + s.main.unsent ≤ 3
    rw [Scanner.unsent_of_open hopen', ← Scanner.unsent_of_open hopen]
    exact h.room
  signals hmain := by
    have hsignals := h.signals hmain
    rw [Scanner.unsent_of_open hopen] at hsignals
    show 1 + s.pinging.toNat ≤ scanner.unsent + s.handler.unsent + s.stopChan
    rw [Scanner.unsent_of_open hopen']
    exact hsignals
  cancels := h.cancels
  stops := h.stops
  returns := h.returns

theorem Inv.scan (h : Inv all count s) (ht : step s .scan = some t) : Inv all count t := by
  simp only [step] at ht
  split at ht
  · rename_i line lines hscanner hlines
    cases ht
    refine h.goesOn (by rw [hscanner]; rfl) rfl ?_ ?_
    · rw [hscanner, hlines]
      rfl
    · rw [hscanner]
      rfl
  · rename_i hscanner hlines
    cases ht
    refine h.goesOn (by rw [hscanner]; rfl) rfl ?_ ?_
    · rw [hscanner, hlines]
      rfl
    · rw [hscanner]
      rfl
  · cases ht

theorem Inv.check (h : Inv all count s) (ht : step s .check = some t) : Inv all count t := by
  simp only [step] at ht
  split at ht
  · rename_i line hscanner
    have hopen : s.scanner.hasClosed = false := by rw [hscanner]; rfl
    split at ht
    · cases ht
    · cases ht
      unfold State.process
      cases hline : scanLine line with
      | skip =>
        refine h.goesOn hopen rfl ?_ ?_
        · simp [hscanner, Scanner.pending, delivered, hline]
        · simp [hscanner, Scanner.counted]
      | done =>
        refine h.goesOn hopen rfl ?_ ?_
        · simp [hscanner, Scanner.pending, delivered, hline]
        · simp [hscanner, Scanner.counted]
      | payload data =>
        refine h.goesOn hopen rfl ?_ ?_
        · simp [hscanner, Scanner.pending, delivered, hline]
        · simp only [hscanner, Scanner.counted]
          omega
  · cases ht

theorem Inv.send (h : Inv all count s) (ht : step s .send = some t) : Inv all count t := by
  simp only [step] at ht
  split at ht
  · rename_i data hscanner
    split at ht
    · cases ht
      refine h.goesOn (by rw [hscanner]; rfl) rfl ?_ ?_
      · simp [hscanner, Scanner.pending]
      · simp only [hscanner, Scanner.counted, List.length_append, List.length_singleton]
        omega
    · cases ht
  · cases ht

/-- Nobody tells a scanner to stop that has not closed the channel. -/
theorem Inv.not_stopped (h : Inv all count s) (hopen : s.scanner.hasClosed = false) :
    s.receiveStop = none := by
  obtain ⟨hsignals, hclosed, -⟩ := h.running hopen
  simp [State.receiveStop, hsignals, hclosed]

theorem Inv.scannerStops (h : Inv all count s) : step s .scannerStops = none := by
  cases hscanner : s.scanner with
  | checking line => simp [step, hscanner, h.not_stopped (by rw [hscanner]; rfl)]
  | sending data => simp [step, hscanner, h.not_stopped (by rw [hscanner]; rfl)]
  | _ => simp [step, hscanner]

theorem Inv.scannerCancelled (h : Inv all count s) : step s .scannerCancelled = none := by
  cases hscanner : s.scanner with
  | checking line => simp [step, hscanner, (h.running (by rw [hscanner]; rfl)).2.2.1]
  | sending data => simp [step, hscanner, (h.running (by rw [hscanner]; rfl)).2.2.1]
  | _ => simp [step, hscanner]

theorem Inv.scannerGone (h : Inv all count s) : step s .scannerGone = none := by
  cases hscanner : s.scanner <;> simp [step, hscanner, h.present]

/-- What a state is known to be at may be written into it. -/
theorem Inv.atScanner (h : Inv all count s) {scanner : Scanner} (hs : s.scanner = scanner) :
    Inv all count { s with scanner := scanner } := by
  subst hs
  exact h

theorem Inv.atHandler (h : Inv all count s) {handler : Handler} (hs : s.handler = handler) :
    Inv all count { s with handler := handler } := by
  subst hs
  exact h

theorem Inv.atMain (h : Inv all count s) {main : Main} (hs : s.main = main) :
    Inv all count { s with main := main } := by
  subst hs
  exact h

theorem Inv.close (h : Inv all count s) (ht : step s .close = some t) : Inv all count t := by
  simp only [step] at ht
  split at ht
  · rename_i hscanner
    cases ht
    have h := h.atScanner hscanner
    exact { h with
      closed := rfl
      emptied := fun hleft => ⟨rfl, (h.emptied hleft).2⟩
      running := fun hopen => by cases hopen }
  · cases ht

theorem Inv.scannerDone (h : Inv all count s) (ht : step s .scannerDone = some t) :
    Inv all count t := by
  simp only [step] at ht
  split at ht
  · rename_i hscanner
    cases ht
    have h := h.atScanner hscanner
    have hgroup := h.group
    exact { h with
      running := fun hopen => by cases hopen
      group := by
        simp only [Scanner.inGroup] at hgroup
        simp only [State.done, Scanner.inGroup]
        omega
      returns := fun hmain => by
        have hzero : s.wg = 0 := h.returns hmain
        simp only [State.done]
        omega }
  · cases ht

/-- A signal that is sent by one that has not sent it yet. -/
theorem Inv.scannerSignals (h : Inv all count s) (ht : step s .scannerSignals = some t) :
    Inv all count t := by
  simp only [step] at ht
  split at ht
  · rename_i hscanner
    obtain ⟨u, hu, rfl⟩ := Option.map_eq_some_iff.mp ht
    have h := h.atScanner hscanner
    have hroom := h.room
    have hsignals := h.signals
    simp only [Scanner.unsent] at hroom hsignals
    rcases safeSendBool_cases hu with ⟨hstop, rfl⟩ | ⟨hstop, -, rfl⟩
    · exact { h with
        running := fun hopen => by cases hopen
        room := by
          simp only [Scanner.unsent]
          omega
        signals := fun hmain => by
          rw [h.stops.mp hstop] at hmain
          cases hmain }
    · exact { h with
        running := fun hopen => by cases hopen
        room := by
          simp only [Scanner.unsent]
          omega
        signals := fun hmain => by
          have hleft := hsignals hmain
          simp only [Scanner.unsent]
          omega }
  · cases ht

theorem Inv.receive (h : Inv all count s) (ht : step s .receive = some t) : Inv all count t := by
  simp only [step] at ht
  split at ht
  · rename_i data dataChan hhandler hdata
    cases ht
    have h := h.atHandler hhandler
    have hflow := h.flow
    have hcounted := h.counted
    rw [hdata] at hflow hcounted
    exact { h with
      flow := by simpa [Handler.inHand] using hflow
      counted := by
        simp only [Handler.inHand, List.length_nil, List.length_cons] at hcounted
        simp only [Handler.inHand, List.length_singleton]
        omega
      emptied := fun hleft => by cases hleft }
  · rename_i hhandler hdata
    split at ht
    · rename_i hclosed
      cases ht
      exact { h.atHandler hhandler with emptied := fun _ => ⟨hclosed, hdata⟩ }
    · cases ht
  · cases ht

theorem Inv.handle (h : Inv all count s) (ht : step s (.handle false) = some t) :
    Inv all count t := by
  simp only [step] at ht
  split at ht
  · rename_i data hhandler
    cases ht
    have h := h.atHandler hhandler
    have hflow := h.flow
    have hcounted := h.counted
    exact { h with
      flow := by simpa [Handler.inHand] using hflow
      counted := by
        simp only [Handler.inHand, List.length_singleton] at hcounted
        simp only [Handler.inHand, List.length_append, List.length_singleton, List.length_nil,
          Bool.false_eq_true, if_false]
        omega
      emptied := fun hleft => by cases hleft }
  · cases ht

theorem Inv.handlerDone (h : Inv all count s) (ht : step s .handlerDone = some t) :
    Inv all count t := by
  simp only [step] at ht
  split at ht
  · rename_i hhandler
    cases ht
    have h := h.atHandler hhandler
    have hgroup := h.group
    exact { h with
      group := by
        simp only [Handler.inGroup] at hgroup
        simp only [State.done, Handler.inGroup]
        omega
      returns := fun hmain => by
        have hzero : s.wg = 0 := h.returns hmain
        simp only [State.done]
        omega }
  · cases ht

theorem Inv.handlerSignals (h : Inv all count s) (ht : step s .handlerSignals = some t) :
    Inv all count t := by
  simp only [step] at ht
  split at ht
  · rename_i hhandler
    obtain ⟨u, hu, rfl⟩ := Option.map_eq_some_iff.mp ht
    have h := h.atHandler hhandler
    have hroom := h.room
    have hsignals := h.signals
    simp only [Handler.unsent] at hroom hsignals
    have hclosed : s.scanner.hasClosed = true := h.closed.symm.trans (h.emptied rfl).1
    rcases safeSendBool_cases hu with ⟨hstop, rfl⟩ | ⟨hstop, -, rfl⟩
    · exact { h with
        room := by
          simp only [Handler.unsent]
          omega
        signals := fun hmain => by
          rw [h.stops.mp hstop] at hmain
          cases hmain }
    · exact { h with
        running := fun hopen => by
          rw [show s.scanner.hasClosed = false from hopen] at hclosed
          cases hclosed
        room := by
          simp only [Handler.unsent]
          omega
        signals := fun hmain => by
          have hleft := hsignals hmain
          simp only [Handler.unsent]
          omega }
  · cases ht

/-- The pings end, and at most one signal with them. -/
theorem Inv.pingsEnd (h : Inv all count s) (hping : s.pinging = true) {stopChan : ℕ}
    (hle : stopChan ≤ s.stopChan) (hge : s.stopChan ≤ stopChan + 1) :
    Inv all count { s.done with pinging := false, stopChan := stopChan } := by
  have hgroup := h.group
  have hroom := h.room
  have hsignals := h.signals
  rw [hping] at hgroup hsignals
  simp only [Bool.toNat_true] at hgroup hsignals
  exact { h with
    running := fun hopen => by
      obtain ⟨hnone, hrest⟩ := h.running hopen
      exact ⟨by show stopChan = 0; omega, hrest⟩
    group := by
      simp only [State.done, Bool.toNat_false]
      omega
    room := by
      show stopChan + s.scanner.unsent + s.handler.unsent + s.main.unsent ≤ 3
      omega
    signals := fun hmain => by
      have hleft := hsignals hmain
      show 1 + 0 ≤ s.scanner.unsent + s.handler.unsent + stopChan
      omega
    returns := fun hmain => by
      have hzero := h.returns hmain
      simp only [State.done]
      omega }

theorem Inv.pingStops (h : Inv all count s) (ht : step s .pingStops = some t) :
    Inv all count t := by
  simp only [step] at ht
  split at ht
  · rename_i hping
    obtain ⟨u, hu, rfl⟩ := Option.map_eq_some_iff.mp ht
    rcases receiveStop_cases hu with ⟨hsignal, rfl⟩ | ⟨-, rfl⟩
    · exact h.pingsEnd hping (Nat.sub_le _ _) (Nat.le_of_eq (Nat.sub_add_cancel hsignal).symm)
    · exact h.pingsEnd hping (Nat.le_refl _) (Nat.le_succ _)
  · cases ht

theorem Inv.pingCancelled (h : Inv all count s) (ht : step s .pingCancelled = some t) :
    Inv all count t := by
  simp only [step] at ht
  split at ht
  · rename_i hping
    cases ht
    exact h.pingsEnd hping.1 (Nat.le_refl _) (Nat.le_succ _)
  · cases ht

theorem Inv.pingEnds (h : Inv all count s) (ht : step s .pingEnds = some t) :
    Inv all count t := by
  simp only [step] at ht
  split at ht
  · rename_i hping
    cases ht
    exact h.pingsEnd hping (Nat.le_refl _) (Nat.le_succ _)
  · cases ht

theorem Inv.stop (h : Inv all count s) (ht : step s .stop = some t) : Inv all count t := by
  simp only [step] at ht
  split at ht
  · rename_i hmain
    obtain ⟨u, hu, rfl⟩ := Option.map_eq_some_iff.mp ht
    have h := h.atMain hmain
    have hroom := h.room
    have hstops := h.stops
    rcases receiveStop_cases hu with ⟨hsignal, rfl⟩ | ⟨hclosed, rfl⟩
    · exact { h with
        running := fun hopen => by
          have hnone : s.stopChan = 0 := (h.running hopen).1
          omega
        room := by
          show s.stopChan - 1 + s.scanner.unsent + s.handler.unsent + 1 ≤ 3
          simp only [Main.unsent] at hroom
          omega
        signals := fun hmain => by cases hmain
        cancels := .inr (.inl rfl)
        stops := by simpa using hstops
        returns := fun hmain => by cases hmain }
    · cases hstops.mp hclosed
  · cases ht

/-- The main goroutine has seen a signal, and so the channel is closed. -/
theorem Inv.hasClosed (h : Inv all count s) (hmain : s.main ≠ .selecting) :
    s.scanner.hasClosed = true := by
  by_contra hopen
  exact hmain (h.running (Bool.eq_false_iff.mpr hopen)).2.2.2

theorem Inv.cancel (h : Inv all count s) (ht : step s .cancel = some t) : Inv all count t := by
  simp only [step] at ht
  split at ht
  · rename_i hmain
    cases ht
    have hclosed := h.hasClosed (by rw [hmain]; decide)
    have h := h.atMain hmain
    have hstops := h.stops
    exact { h with
      running := fun hopen => by
        rw [show s.scanner.hasClosed = false from hopen] at hclosed
        cases hclosed
      signals := fun hmain => by cases hmain
      cancels := .inr (.inr rfl)
      stops := by simpa using hstops
      returns := fun hmain => by cases hmain }
  · cases ht

theorem Inv.mainSignals (h : Inv all count s) (ht : step s .mainSignals = some t) :
    Inv all count t := by
  simp only [step] at ht
  split at ht
  · rename_i hmain
    obtain ⟨u, hu, rfl⟩ := Option.map_eq_some_iff.mp ht
    have hclosed := h.hasClosed (by rw [hmain]; decide)
    have h := h.atMain hmain
    have hroom := h.room
    have hstops := h.stops
    have hcancels := h.cancels
    simp only [Main.unsent] at hroom
    rcases safeSendBool_cases hu with ⟨hstop, rfl⟩ | ⟨hstop, -, rfl⟩
    · cases hstops.mp hstop
    · exact { h with
        running := fun hopen => by
          rw [show s.scanner.hasClosed = false from hopen] at hclosed
          cases hclosed
        room := by
          simp only [Main.unsent]
          omega
        signals := fun hmain => by cases hmain
        cancels := by simpa using hcancels
        stops := by simpa using hstops
        returns := fun hmain => by cases hmain }
  · cases ht

theorem Inv.waited (h : Inv all count s) (ht : step s .waited = some t) : Inv all count t := by
  simp only [step] at ht
  split at ht
  · rename_i hmain
    split at ht
    · rename_i hgroup
      cases ht
      have hclosed := h.hasClosed (by rw [hmain]; decide)
      have h := h.atMain hmain
      have hcancels := h.cancels
      exact { h with
        running := fun hopen => by
          rw [show s.scanner.hasClosed = false from hopen] at hclosed
          cases hclosed
        signals := fun hmain => by cases hmain
        cancels := by simpa using hcancels
        stops := by simp
        returns := fun _ => hgroup }
    · cases ht
  · cases ht

/-- Every undisturbed step keeps the invariant. -/
theorem Inv.step (h : Inv all count s) (ha : Undisturbed a) (ht : step s a = some t) :
    Inv all count t := by
  cases a with
  | scan => exact h.scan ht
  | check => exact h.check ht
  | send => exact h.send ht
  | scannerStops => cases h.scannerStops.symm.trans ht
  | scannerCancelled => cases h.scannerCancelled.symm.trans ht
  | scannerGone => cases h.scannerGone.symm.trans ht
  | close => exact h.close ht
  | scannerDone => exact h.scannerDone ht
  | scannerSignals => exact h.scannerSignals ht
  | receive => exact h.receive ht
  | handle stop =>
    cases stop with
    | false => exact h.handle ht
    | true => cases ha
  | handlerDone => exact h.handlerDone ht
  | handlerSignals => exact h.handlerSignals ht
  | pingStops => exact h.pingStops ht
  | pingCancelled => exact h.pingCancelled ht
  | pingEnds => exact h.pingEnds ht
  | stop => exact h.stop ht
  | timeout => cases ha
  | mainGone =>
    have hnone : StreamScanner.step s .mainGone = none := by
      cases hmain : s.main <;> simp [StreamScanner.step, hmain, h.present]
    cases hnone.symm.trans ht
  | cancel => exact h.cancel ht
  | mainSignals => exact h.mainSignals ht
  | waited => exact h.waited ht
  | gaveUp => cases ha
  | disconnect => cases ha

/-! ## Every run comes to its end -/

/-- What is still to be done, every line weighing more than the steps it takes. -/
def Scanner.weight : Scanner → ℕ
  | .checking _ => 8
  | .sending _ => 7
  | .scanning => 4
  | .closing => 3
  | .leaving => 2
  | .signalling => 1
  | .ended => 0

def Handler.weight : Handler → ℕ
  | .handling _ => 4
  | .receiving => 3
  | .leaving => 2
  | .signalling => 1
  | .ended => 0

def Main.weight : Main → ℕ
  | .selecting => 4
  | .cancelling => 3
  | .signalling => 2
  | .waiting => 1
  | .returned => 0

def State.work (s : State) : ℕ :=
  5 * s.lines.length + s.scanner.weight + 2 * s.dataChan.length + s.handler.weight +
    s.pinging.toNat + s.main.weight

theorem work_safeSendBool (h : s.safeSendBool = some t) :
    t.lines = s.lines ∧ t.scanner = s.scanner ∧ t.dataChan = s.dataChan ∧
      t.handler = s.handler ∧ t.pinging = s.pinging ∧ t.main = s.main := by
  rcases safeSendBool_cases h with ⟨-, rfl⟩ | ⟨-, -, rfl⟩ <;> simp

theorem work_receiveStop (h : s.receiveStop = some t) :
    t.lines = s.lines ∧ t.scanner = s.scanner ∧ t.dataChan = s.dataChan ∧
      t.handler = s.handler ∧ t.pinging = s.pinging ∧ t.main = s.main := by
  rcases receiveStop_cases h with ⟨-, rfl⟩ | ⟨-, rfl⟩ <;> simp

theorem work_process {line : Line} (hscanner : s.scanner = .checking line) :
    (s.process line).work < s.work := by
  unfold State.process State.work
  rw [hscanner]
  cases scanLine line <;> simp [Scanner.weight]

/-- An undisturbed step leaves less to do. -/
theorem work_lt (h : Inv all count s) (ha : Undisturbed a) (ht : step s a = some t) :
    t.work < s.work := by
  cases a with
  | scan =>
    simp only [step] at ht
    split at ht
    · rename_i line lines hscanner hlines
      cases ht
      simp only [State.work, hscanner, hlines, Scanner.weight, List.length_cons]
      omega
    · rename_i hscanner hlines
      cases ht
      simp [State.work, hscanner, Scanner.weight]
    · cases ht
  | check =>
    simp only [step] at ht
    split at ht
    · rename_i line hscanner
      split at ht
      · cases ht
      · cases ht
        exact work_process hscanner
    · cases ht
  | send =>
    simp only [step] at ht
    split at ht
    · rename_i data hscanner
      split at ht
      · cases ht
        simp only [State.work, hscanner, Scanner.weight, List.length_append, List.length_singleton]
        omega
      · cases ht
    · cases ht
  | scannerStops => cases h.scannerStops.symm.trans ht
  | scannerCancelled => cases h.scannerCancelled.symm.trans ht
  | scannerGone => cases h.scannerGone.symm.trans ht
  | close =>
    simp only [step] at ht
    split at ht
    · rename_i hscanner
      cases ht
      simp [State.work, hscanner, Scanner.weight]
    · cases ht
  | scannerDone =>
    simp only [step] at ht
    split at ht
    · rename_i hscanner
      cases ht
      simp [State.work, State.done, hscanner, Scanner.weight]
    · cases ht
  | scannerSignals =>
    simp only [step] at ht
    split at ht
    · rename_i hscanner
      obtain ⟨u, hu, rfl⟩ := Option.map_eq_some_iff.mp ht
      obtain ⟨h₁, -, h₂, h₃, h₄, h₅⟩ := work_safeSendBool hu
      simp [State.work, h₁, h₂, h₃, h₄, h₅, hscanner, Scanner.weight]
    · cases ht
  | receive =>
    simp only [step] at ht
    split at ht
    · rename_i data dataChan hhandler hdata
      cases ht
      simp only [State.work, hhandler, hdata, Handler.weight, List.length_cons]
      omega
    · rename_i hhandler hdata
      split at ht
      · cases ht
        simp [State.work, hhandler, Handler.weight]
      · cases ht
    · cases ht
  | handle stop =>
    simp only [step] at ht
    split at ht
    · rename_i data hhandler
      cases ht
      cases stop <;> simp [State.work, hhandler, Handler.weight]
    · cases ht
  | handlerDone =>
    simp only [step] at ht
    split at ht
    · rename_i hhandler
      cases ht
      simp [State.work, State.done, hhandler, Handler.weight]
    · cases ht
  | handlerSignals =>
    simp only [step] at ht
    split at ht
    · rename_i hhandler
      obtain ⟨u, hu, rfl⟩ := Option.map_eq_some_iff.mp ht
      obtain ⟨h₁, h₂, h₃, -, h₄, h₅⟩ := work_safeSendBool hu
      simp [State.work, h₁, h₂, h₃, h₄, h₅, hhandler, Handler.weight]
    · cases ht
  | pingStops =>
    simp only [step] at ht
    split at ht
    · rename_i hping
      obtain ⟨u, hu, rfl⟩ := Option.map_eq_some_iff.mp ht
      obtain ⟨h₁, h₂, h₃, h₄, -, h₅⟩ := work_receiveStop hu
      simp [State.work, State.done, h₁, h₂, h₃, h₄, h₅, hping]
    · cases ht
  | pingCancelled =>
    simp only [step] at ht
    split at ht
    · rename_i hping
      cases ht
      simp [State.work, State.done, hping.1]
    · cases ht
  | pingEnds =>
    simp only [step] at ht
    split at ht
    · rename_i hping
      cases ht
      simp [State.work, State.done, hping]
    · cases ht
  | stop =>
    simp only [step] at ht
    split at ht
    · rename_i hmain
      obtain ⟨u, hu, rfl⟩ := Option.map_eq_some_iff.mp ht
      obtain ⟨h₁, h₂, h₃, h₄, h₅, -⟩ := work_receiveStop hu
      simp [State.work, h₁, h₂, h₃, h₄, h₅, hmain, Main.weight]
    · cases ht
  | timeout => cases ha
  | mainGone =>
    simp only [step] at ht
    split at ht
    · rename_i hmain
      simp [h.present] at ht
    · cases ht
  | cancel =>
    simp only [step] at ht
    split at ht
    · rename_i hmain
      cases ht
      simp [State.work, hmain, Main.weight]
    · cases ht
  | mainSignals =>
    simp only [step] at ht
    split at ht
    · rename_i hmain
      obtain ⟨u, hu, rfl⟩ := Option.map_eq_some_iff.mp ht
      obtain ⟨h₁, h₂, h₃, h₄, h₅, -⟩ := work_safeSendBool hu
      simp [State.work, h₁, h₂, h₃, h₄, h₅, hmain, Main.weight]
    · cases ht
  | waited =>
    simp only [step] at ht
    split at ht
    · rename_i hmain
      split at ht
      · cases ht
        simp [State.work, hmain, Main.weight]
      · cases ht
    · cases ht
  | gaveUp => cases ha
  | disconnect => cases ha

theorem isSome_safeSendBool (h : s.stopChan < 3) : s.safeSendBool.isSome := by
  unfold State.safeSendBool
  split <;> rfl

/-- The scanner can go on, or the handler lets it. -/
theorem Inv.exists_step_of_open (h : Inv all count s) (hopen : s.scanner.hasClosed = false) :
    ∃ a, Undisturbed a ∧ (StreamScanner.step s a).isSome := by
  obtain ⟨hsignals, hclosed, hcancelled, -⟩ := h.running hopen
  cases hscanner : s.scanner with
  | scanning =>
    cases hlines : s.lines with
    | nil => exact ⟨.scan, trivial, by simp [StreamScanner.step, hscanner, hlines]⟩
    | cons line lines =>
      exact ⟨.scan, trivial, by simp [StreamScanner.step, hscanner, hlines]⟩
  | checking line =>
    refine ⟨.check, trivial, ?_⟩
    simp [StreamScanner.step, hscanner, hsignals, hclosed, hcancelled, h.present]
  | sending data =>
    by_cases hroom : s.dataChan.length < 10
    · exact ⟨.send, trivial, by simp [StreamScanner.step, hscanner, hroom]⟩
    · have hstays : s.handler.hasLeft = false := by
        by_contra hleft
        have hemptied := (h.emptied (eq_true_of_ne_false hleft)).2
        rw [hemptied] at hroom
        exact hroom (by decide)
      cases hhandler : s.handler with
      | receiving =>
        cases hdata : s.dataChan with
        | nil => simp [hdata] at hroom
        | cons data dataChan =>
          exact ⟨.receive, trivial, by simp [StreamScanner.step, hhandler, hdata]⟩
      | handling data =>
        exact ⟨.handle false, trivial, by simp [StreamScanner.step, hhandler]⟩
      | leaving =>
        rw [hhandler] at hstays
        cases hstays
      | signalling =>
        rw [hhandler] at hstays
        cases hstays
      | ended =>
        rw [hhandler] at hstays
        cases hstays
  | closing => exact ⟨.close, trivial, by simp [StreamScanner.step, hscanner]⟩
  | leaving =>
    rw [hscanner] at hopen
    cases hopen
  | signalling =>
    rw [hscanner] at hopen
    cases hopen
  | ended =>
    rw [hscanner] at hopen
    cases hopen

/-- The handler empties the channel that the scanner has closed. -/
theorem Inv.exists_step_of_ended (h : Inv all count s) (hscanner : s.scanner = .ended)
    (hhandler : s.handler ≠ .ended) :
    ∃ a, Undisturbed a ∧ (StreamScanner.step s a).isSome := by
  have hclosed : s.dataClosed = true := by
    rw [h.closed, hscanner]
    rfl
  cases hstage : s.handler with
  | receiving =>
    cases hdata : s.dataChan with
    | nil => exact ⟨.receive, trivial, by simp [StreamScanner.step, hstage, hdata, hclosed]⟩
    | cons data dataChan =>
      exact ⟨.receive, trivial, by simp [StreamScanner.step, hstage, hdata]⟩
  | handling data => exact ⟨.handle false, trivial, by simp [StreamScanner.step, hstage]⟩
  | leaving => exact ⟨.handlerDone, trivial, by simp [StreamScanner.step, hstage]⟩
  | signalling =>
    have hroom := h.room
    rw [hstage] at hroom
    simp only [Handler.unsent] at hroom
    have hsend : s.safeSendBool.isSome := isSome_safeSendBool (by omega)
    exact ⟨.handlerSignals, trivial, by simp [StreamScanner.step, hstage, hsend]⟩
  | ended => exact absurd hstage hhandler

/-- Both have sent a signal, of which one is left for the main goroutine. -/
theorem Inv.exists_step_of_main (h : Inv all count s) (hscanner : s.scanner = .ended)
    (hhandler : s.handler = .ended) (hmain : s.main ≠ .returned) :
    ∃ a, Undisturbed a ∧ (StreamScanner.step s a).isSome := by
  have hgroup := h.group
  have hsignals := h.signals
  have hcancels := h.cancels
  have hroom := h.room
  rw [hscanner, hhandler] at hgroup hsignals
  cases hstage : s.main with
  | selecting =>
    have hleft := hsignals hstage
    simp only [Scanner.unsent, Handler.unsent] at hleft
    have hsome : 0 < s.stopChan := by omega
    exact ⟨.stop, trivial, by simp [StreamScanner.step, hstage, State.receiveStop, hsome]⟩
  | cancelling => exact ⟨.cancel, trivial, by simp [StreamScanner.step, hstage]⟩
  | signalling =>
    rw [hstage] at hroom
    simp only [Main.unsent] at hroom
    have hsend : s.safeSendBool.isSome := isSome_safeSendBool (by omega)
    exact ⟨.mainSignals, trivial, by simp [StreamScanner.step, hstage, hsend]⟩
  | waiting =>
    cases hping : s.pinging with
    | true =>
      have hcancelled : s.cancelled = true := by simpa [hstage] using hcancels
      exact ⟨.pingCancelled, trivial, by simp [StreamScanner.step, hping, hcancelled]⟩
    | false =>
      have hzero : s.wg = 0 := by
        simpa [hping, Scanner.inGroup, Handler.inGroup] using hgroup
      exact ⟨.waited, trivial, by simp [StreamScanner.step, hstage, hzero]⟩
  | returned => exact absurd hstage hmain

/-- As long as it has not returned, one of the goroutines can go on. -/
theorem Inv.exists_step (h : Inv all count s) (hmain : s.main ≠ .returned) :
    ∃ a, Undisturbed a ∧ (StreamScanner.step s a).isSome := by
  cases hscanner : s.scanner with
  | leaving => exact ⟨.scannerDone, trivial, by simp [StreamScanner.step, hscanner]⟩
  | signalling =>
    have hroom := h.room
    rw [hscanner] at hroom
    simp only [Scanner.unsent] at hroom
    have hsend : s.safeSendBool.isSome := isSome_safeSendBool (by omega)
    exact ⟨.scannerSignals, trivial, by simp [StreamScanner.step, hscanner, hsend]⟩
  | ended =>
    by_cases hhandler : s.handler = .ended
    · exact h.exists_step_of_main hscanner hhandler hmain
    · exact h.exists_step_of_ended hscanner hhandler
  | _ => exact h.exists_step_of_open (by rw [hscanner]; rfl)

/-! ## Runs -/

section Run

variable {lines : List Line} {pinging : Bool} {as : List Action}

theorem inv_of_run (has : ∀ a ∈ as, Undisturbed a)
    (ht : scannerSystem.run (.initial lines count pinging) as = some t) :
    Inv (delivered lines) count t := by
  have hsteps := System.everyStep_of_forall (S := scannerSystem) has (.initial lines count pinging)
  have hstates := System.everyState_of_everyStep (S := scannerSystem)
    (fun _ _ _ h ha ht => Inv.step h ha ht) (inv_initial lines count pinging) hsteps
  exact hstates.run ht

theorem Inv.handled_isPrefix (h : Inv all count s) : s.handled <+: all := by
  refine ⟨s.handler.inHand ++ s.dataChan ++ s.scanner.pending s.lines, ?_⟩
  rw [← List.append_assoc, ← List.append_assoc]
  exact h.flow

/-- When it returns, everything has been handled. -/
theorem Inv.returned (h : Inv all count s) (hmain : s.main = .returned) :
    s.handled = all ∧ s.receivedResponseCount = count + s.handled.length := by
  have hgroup := h.group
  rw [h.returns hmain] at hgroup
  have hscanner : s.scanner.inGroup = 0 := by omega
  have hhandler : s.handler.inGroup = 0 := by omega
  have hpending : s.scanner.pending s.lines = [] ∧ s.scanner.counted = 0 := by
    cases hs : s.scanner <;> first | exact ⟨rfl, rfl⟩ | (rw [hs] at hscanner; cases hscanner)
  have hhand : s.handler.inHand = [] ∧ s.handler.hasLeft = true := by
    cases hs : s.handler <;> first | exact ⟨rfl, rfl⟩ | (rw [hs] at hhandler; cases hhandler)
  have hempty := (h.emptied hhand.2).2
  have hflow := h.flow
  have hcounted := h.counted
  rw [hhand.1, hempty, hpending.1] at hflow
  rw [hhand.1, hempty, hpending.2] at hcounted
  exact ⟨by simpa using hflow, by simpa using hcounted⟩

/-- Some schedule comes to the end. -/
theorem exists_returned (lines : List Line) (count : ℕ) (pinging : Bool) :
    ∃ as t, (∀ a ∈ as, Undisturbed a) ∧
      scannerSystem.run (.initial lines count pinging) as = some t ∧ t.main = .returned := by
  obtain ⟨as, t, has, ht, hreturned⟩ := System.exists_run_of_progress (S := scannerSystem)
    (D := fun s => s.main = .returned) (C := fun _ a => Undisturbed a)
    (fun _ _ _ h ha ht => Inv.step h ha ht) (fun _ _ _ h ha ht => work_lt h ha ht)
    (fun s h hmain => by
      obtain ⟨a, ha, hsome⟩ := h.exists_step hmain
      obtain ⟨t, ht⟩ := Option.isSome_iff_exists.mp hsome
      exact ⟨a, t, ha, ht⟩)
    (inv_initial lines count pinging)
  exact ⟨as, t, has.forall ht, ht, hreturned⟩

end Run

/-! ## Runs that are disturbed -/

/-- What is handled, in hand, waiting and still to be sent. -/
def State.due (s : State) : List Line :=
  s.handled ++ s.handler.inHand ++ s.dataChan ++ s.scanner.pending s.lines

/-- A step moves what is due on, or drops what is still to be sent. -/
theorem due_step (ht : step s a = some t) : t.due <+: s.due := by
  unfold State.due
  cases a <;> simp only [step] at ht
  all_goals grind [State.process, Scanner.pending, Handler.inHand, delivered, State.done,
    State.receiveStop, State.safeSendBool]

/-- **In order**: whoever gives up, what is handled begins what the lines hold. -/
theorem handled_in_order (lines : List Line) (count : ℕ) (pinging : Bool) (as : List Action) :
    scannerSystem.EveryState (fun s => s.handled <+: delivered lines)
      (.initial lines count pinging) as := by
  refine (System.everyState_of_step (I := fun s => s.due <+: delivered lines)
    (fun s a t hs ht => (due_step ht).trans hs) (List.prefix_refl _)).mono fun s hs => ?_
  simp only [State.due, List.append_assoc] at hs
  exact (List.prefix_append _ _).trans hs

/-! ## What is delivered -/

/-- The handler is called with the payloads, whatever the schedule, and the run ends. -/
structure Delivers (r : Reader) (stream : List UInt8) (count : ℕ) (pinging : Bool) : Prop where
  handled : ∀ as t, (∀ a ∈ as, Undisturbed a) →
    scannerSystem.run (.initial (r.scanned stream) count pinging) as = some t →
      t.handled <+: payloads ((rawLines stream).map RawLine.line) ∧
      (∀ data ∈ t.handled, ¬ doneMarker <+: data) ∧
      (t.main = .returned → t.handled = payloads ((rawLines stream).map RawLine.line) ∧
        t.receivedResponseCount = count + t.handled.length)
  goesOn : ∀ as t, (∀ a ∈ as, Undisturbed a) →
    scannerSystem.run (.initial (r.scanned stream) count pinging) as = some t →
      t.main ≠ .returned → ∃ a u, Undisturbed a ∧ step t a = some u
  ends : ∃ n, ∀ as t, (∀ a ∈ as, Undisturbed a) →
    scannerSystem.run (.initial (r.scanned stream) count pinging) as = some t → as.length ≤ n

/-- **The payloads are delivered in every schedule** exactly if the stream is readable. -/
theorem delivers_iff (r : Reader) (stream : List UInt8) (count : ℕ) (pinging : Bool) :
    Delivers r stream count pinging ↔ Readable (r.scanned stream) (r.unread stream) := by
  rw [← delivered_eq_iff, ← lines_eq]
  constructor
  · intro h
    obtain ⟨as, t, has, ht, hmain⟩ := exists_returned (r.scanned stream) count pinging
    have hhandled := ((h.handled as t has ht).2.2 hmain).1
    rw [← hhandled]
    exact ((inv_of_run has ht).returned hmain).1.symm
  · intro heq
    refine ⟨?_, ?_, ?_⟩
    · intro as t has ht
      have hinv := inv_of_run has ht
      rw [← heq]
      refine ⟨hinv.handled_isPrefix, fun data hdata => ?_, hinv.returned⟩
      exact not_doneMarker_of_mem (hinv.handled_isPrefix.subset hdata)
    · intro as t has ht hmain
      obtain ⟨a, ha, hsome⟩ := (inv_of_run has ht).exists_step hmain
      obtain ⟨u, hu⟩ := Option.isSome_iff_exists.mp hsome
      exact ⟨a, u, ha, hu⟩
    · refine ⟨(State.initial (r.scanned stream) count pinging).work, fun as t has ht => ?_⟩
      have hle := System.length_add_le_of_decreasing (S := scannerSystem) (μ := State.work)
        (fun _ _ _ h ha ht => Inv.step h ha ht) (fun _ _ _ h ha ht => work_lt h ha ht)
        (inv_initial (r.scanned stream) count pinging) (System.everyStep_of_forall has _) ht
      omega

/-- A marker without a prefix: `]` is handled as a payload. -/
theorem bracket_is_handled : ¬ Delivers ⟨0, true⟩ (ascii "data: a\n[DONE]\n") 0 false := by
  intro h
  have hscanned : Reader.scanned ⟨0, true⟩ (ascii "data: a\n[DONE]\n") =
      [ascii "data: a", ascii "[DONE]"] := by decide
  have hpayloads : payloads ((rawLines (ascii "data: a\n[DONE]\n")).map RawLine.line) =
      [ascii "a"] := by decide
  let schedule : List Action :=
    [.scan, .check, .send, .scan, .check, .send, .scan, .close, .scannerDone, .scannerSignals,
      .receive, .handle false, .receive, .handle false, .receive, .handlerDone, .handlerSignals,
      .stop, .cancel, .mainSignals, .waited]
  have hruns : (scannerSystem.run (.initial [ascii "data: a", ascii "[DONE]"] 0 false) schedule).any
      (fun t => t.main = .returned ∧ t.handled = [ascii "a", ascii "]"]) = true := by decide
  obtain ⟨t, ht, hend⟩ := (Option.any_eq_true ..).mp hruns
  obtain ⟨hmain, hhandled⟩ := of_decide_eq_true hend
  rw [← hscanned] at ht
  have hpayload := ((h.handled schedule t (by simp [schedule, Undisturbed]) ht).2.2 hmain).1
  rw [hhandled, hpayloads] at hpayload
  exact absurd hpayload (by decide)

end StreamScanner
