import GMasterApi.Task.Model
import GMasterApi.Lib.Transition

/-!
# Polling of asynchronous tasks

Pollers of several processes hold copies of a task that they loaded earlier.
`sweepTimedOutTasks` and `updateVideoSingleTask` write the row with
`UpdateWithStatus` and bill only if they win; `updateSunoTasks` refunds first and
then saves the row whatever is stored.

Where no Suno poll refunds next to another writer the task is billed consistently
(`task_billed_once`).
-/

namespace Tasks

open Billing Transition

structure PollConfig where
  timeoutMinutes : ℤ
  serverAddress : String

/-! ## Timeouts -/

def legacyTaskCutoff : ℤ := 1740182400

def Task.isLegacy (task : Task) : Bool :=
  decide (0 < task.submitTime) && decide (task.submitTime < legacyTaskCutoff)

def PollConfig.timeoutReason (cfg : PollConfig) : String :=
  "任务超时（" ++ toString cfg.timeoutMinutes ++ "分钟）"

def legacyReason : String := "任务超时（旧系统遗留任务，不进行退款，请联系管理员）"

/-- The copy as `sweepTimedOutTasks` writes it. -/
def Task.timeOut (cfg : PollConfig) (now : ℤ) (task : Task) : Task :=
  { task with
    status := .failure
    progress := "100%"
    finishTime := now
    failReason := if task.isLegacy then legacyReason else cfg.timeoutReason }

/-- The stored row afterwards, and whether the task is to be refunded. -/
def sweepTask (cfg : PollConfig) (fault : Option String) (now : ℤ) (row task : Task) :
    Task × Bool :=
  match updateWithStatus fault row (task.timeOut cfg now) task.status with
  | (row, .ok true) => (row, !task.isLegacy && decide (task.quota ≠ 0))
  | (row, _) => (row, false)

/-- A sweep writes its copy or nothing, and refunds only what it wrote. -/
theorem sweepTask_cases (cfg : PollConfig) (fault : Option String) (now : ℤ) (row task : Task) :
    sweepTask cfg fault now row task = (row, false) ∨
      (fault = none ∧ row.status = task.status ∧ sweepTask cfg fault now row task =
        (task.timeOut cfg now, !task.isLegacy && decide (task.quota ≠ 0))) := by
  unfold sweepTask
  rcases updateWithStatus_cases fault row (task.timeOut cfg now) task.status with
    ⟨lost, hne, hlost⟩ | ⟨hfault, hfrom, hwon⟩
  · left
    rw [hlost]
    match lost, hne with
    | .error e, _ => rfl
    | .ok false, _ => rfl
    | .ok true, hne => exact absurd rfl hne
  · right
    rw [hwon]
    exact ⟨hfault, hfrom, rfl⟩

/-! ## Video tasks -/

structure TaskInfo where
  status : TaskStatus
  url : String
  progress : String
  reason : String
  deriving DecidableEq

def failTaskInfo (reason : String) : TaskInfo := ⟨.failure, "", "", reason⟩

/-- What the body of a reply without a status is, read as an error. -/
inductive ErrorBody
  | rateLimited
  | openAIError
  | unrecognized
  | undecodable
  deriving DecidableEq

/-- An upstream reply: a failure to fetch, read or parse it, or what it says. -/
inductive Reply
  | failed (err : String)
  | parsed (info : TaskInfo) (error : ErrorBody) (data : List UInt8)
  deriving DecidableEq

/-- The result that a reply stands for; a rate limit waits for the next poll. -/
def resultOf (info : TaskInfo) (error : ErrorBody) : Option TaskInfo :=
  if info.status ≠ .empty then some info
  else match error with
    | .rateLimited => none
    | .openAIError => some (failTaskInfo "upstream returned error")
    | .unrecognized => some (failTaskInfo "upstream returned unrecognized message")
    | .undecodable => some info

def buildProxyURL (cfg : PollConfig) (taskID : String) : String :=
  cfg.serverAddress ++ "/v1/videos/" ++ taskID ++ "/content"

def resultURL (cfg : PollConfig) (task : Task) (url : String) : String :=
  if url.startsWith "data:" then buildProxyURL cfg task.taskID
  else if url ≠ "" then url
  else buildProxyURL cfg task.taskID

/-- The copy with the result; `none` for a status that is not one of a task. -/
def Task.withResult (cfg : PollConfig) (now : ℤ) (task : Task) (info : TaskInfo) : Option Task :=
  let task := { task with status := info.status }
  let progress (default : String) := if info.progress ≠ "" then info.progress else default
  match info.status with
  | .submitted => some { task with progress := progress "10%" }
  | .queued => some { task with progress := progress "20%" }
  | .inProgress =>
    some { task with
      progress := progress "30%"
      startTime := if task.startTime = 0 then now else task.startTime }
  | .success =>
    some { task with
      progress := progress "100%"
      finishTime := if task.finishTime = 0 then now else task.finishTime
      privateData := { task.privateData with resultURL := resultURL cfg task info.url } }
  | .failure =>
    some { task with
      progress := "100%"
      finishTime := if task.finishTime = 0 then now else task.finishTime
      failReason := info.reason }
  | _ => none

/-- `taskSnapshot.Equal` -/
def Task.sameSnapshot (a b : Task) : Bool :=
  a.status = b.status && a.progress = b.progress && a.startTime = b.startTime &&
    a.finishTime = b.finishTime && a.failReason = b.failReason &&
    a.privateData.resultURL = b.privateData.resultURL && a.data = b.data

/-- What a video poll bills. -/
inductive Bill
  | nothing
  | refund
  | settle
  deriving DecidableEq

/-- `shouldRefund` and `shouldSettle` before the row is written. -/
def Task.bill (task : Task) : Bill :=
  match task.status with
  | .failure => if task.quota ≠ 0 then .refund else .nothing
  | .success => .settle
  | _ => .nothing

/-- The stored row and the copy afterwards, and what is to be billed: a transition only
if its write wins. -/
def updateVideoSingleTask (cfg : PollConfig) (fault : Option String) (now : ℤ) (row task : Task)
    (reply : Reply) : Task × Task × Bill :=
  match reply with
  | .failed _ => (row, task, .nothing)
  | .parsed info error data =>
    match resultOf info error with
    | none => (row, { task with data := data }, .nothing)
    | some result =>
      match ({ task with data := data }).withResult cfg now result with
      | none => (row, { task with data := data, status := result.status }, .nothing)
      | some after =>
        if after.status.isDone && decide (task.status ≠ after.status) then
          match updateWithStatus fault row after task.status with
          | (row, .ok true) => (row, after, after.bill)
          | (row, _) => (row, after, .nothing)
        else if task.sameSnapshot after then (row, after, after.bill)
        else ((updateWithStatus fault row after task.status).1, after, after.bill)

/-! ## Suno tasks -/

structure SunoDataResponse where
  status : TaskStatus
  failReason : String
  submitTime : ℤ
  startTime : ℤ
  finishTime : ℤ
  data : List UInt8
  deriving DecidableEq

/-- `taskNeedsUpdate`, which compares the bytes of the data in any order. -/
def taskNeedsUpdate (old : Task) (new : SunoDataResponse) : Bool :=
  old.submitTime ≠ new.submitTime || old.startTime ≠ new.startTime ||
    old.finishTime ≠ new.finishTime || old.status ≠ new.status || old.failReason ≠ new.failReason ||
    (old.status.isDone && decide (old.progress ≠ "100%")) ||
    !decide (List.Perm old.data new.data)

/-- The item counts as a failure of the task, which is refunded. -/
def SunoDataResponse.fails (item : SunoDataResponse) (status : TaskStatus) : Bool :=
  item.failReason ≠ "" || status = .failure

/-- The copy with an item of the reply. -/
def Task.withItem (task : Task) (item : SunoDataResponse) : Task :=
  let status := if item.status ≠ .empty then item.status else task.status
  { task with
    status := status
    failReason := if item.failReason ≠ "" then item.failReason else task.failReason
    submitTime := if item.submitTime ≠ 0 then item.submitTime else task.submitTime
    startTime := if item.startTime ≠ 0 then item.startTime else task.startTime
    finishTime := if item.finishTime ≠ 0 then item.finishTime else task.finishTime
    progress := if item.fails status || item.status = .success then "100%" else task.progress
    data := item.data }

/-- `TaskBulkUpdateByID` to `FAILURE`, with a reason or without. -/
def bulkFail (fault : Option String) (row : Task) (failReason : Option String) : Task :=
  match fault with
  | some _ => row
  | none =>
    { row with
      status := .failure
      progress := "100%"
      failReason := failReason.getD row.failReason }

/-! ## Pollers -/

/-- What a poller does next with its copy. -/
inductive Next
  | gone
  | polled
  | timedOut
  | settle (completion : Completion)
  | refund (again : Bool)
  | sunoRefund
  | sunoSave (refunded : Bool)
  deriving DecidableEq

structure Copy where
  task : Task
  next : Next

/-- The stored row of a task, the copies of it by poller, and what `RefundTaskQuota`
gave back for it. -/
structure Poll where
  row : Task
  copies : ℕ → Copy
  world : World
  refunded : ℤ

/-- The poller is in the middle of a call. -/
def Next.busy : Next → Bool
  | .gone | .polled | .timedOut => false
  | _ => true

inductive Action
  | load (i : ℕ) (sweeps : Bool) (now : ℤ)
  | sweep (i : ℕ) (fault : Option String) (now : ℤ)
  | video (i : ℕ) (fault : Option String) (now : ℤ) (reply : Reply) (completion : Completion)
  | suno (i : ℕ) (item : SunoDataResponse)
  | bill (i : ℕ) (faults : TaskFaults)
  | save (i : ℕ) (fault : Option String)
  | bulkFail (fault : Option String) (failReason : Option String)

def Poll.setCopy (s : Poll) (i : ℕ) (copy : Copy) : Poll :=
  { s with copies := Function.update s.copies i copy }

def Bill.next (bill : Bill) (completion : Completion) : Next :=
  match bill with
  | .nothing => .polled
  | .refund => .refund true
  | .settle => .settle completion

def Poll.load (cfg : PollConfig) (s : Poll) (i : ℕ) (sweeps : Bool) (now : ℤ) : Option Poll :=
  if (s.copies i).next.busy then none
  else if sweeps then
    if 0 < cfg.timeoutMinutes ∧ s.row.timedOut (now - cfg.timeoutMinutes * 60) then
      some (s.setCopy i ⟨s.row, .timedOut⟩)
    else none
  else if s.row.polled then some (s.setCopy i ⟨s.row, .polled⟩)
  else none

/-- The billing that a call has come to. -/
def Poll.bill (s : Poll) (i : ℕ) (faults : TaskFaults) : Option Poll :=
  let task := (s.copies i).task
  match (s.copies i).next with
  | .settle completion =>
    let out := settleTaskBillingOnComplete faults s.world task completion
    some { s.setCopy i ⟨out.2, .polled⟩ with world := out.1 }
  | .refund again =>
    let out := refundTaskQuota faults s.world task
    some { s.setCopy i ⟨task, if again then .polled else .gone⟩ with
      world := out.1
      refunded := s.refunded + out.2 }
  | .sunoRefund =>
    let out := refundTaskQuota faults s.world task
    some { s.setCopy i ⟨task, .sunoSave (decide (out.2 ≠ 0))⟩ with
      world := out.1
      refunded := s.refunded + out.2 }
  | _ => none

def Poll.act (cfg : PollConfig) (s : Poll) : Action → Option Poll
  | .load i sweeps now => s.load cfg i sweeps now
  | .sweep i fault now =>
    let task := (s.copies i).task
    if (s.copies i).next = .timedOut then
      let out := sweepTask cfg fault now s.row task
      some { s.setCopy i ⟨task.timeOut cfg now, if out.2 then .refund false else .gone⟩ with
        row := out.1 }
    else none
  | .video i fault now reply completion =>
    match (s.copies i).next, s.row.platform with
    | .polled, .video _ =>
      let out := updateVideoSingleTask cfg fault now s.row (s.copies i).task reply
      some { s.setCopy i ⟨out.2.1, out.2.2.next completion⟩ with row := out.1 }
    | _, _ => none
  | .suno i item =>
    let task := (s.copies i).task
    if (s.copies i).next = .polled ∧ s.row.platform = .suno then
      if taskNeedsUpdate task item then
        let after := task.withItem item
        some (s.setCopy i ⟨after, if item.fails after.status then .sunoRefund else .sunoSave false⟩)
      else some s
    else none
  | .bill i faults => s.bill i faults
  | .save i fault =>
    match (s.copies i).next with
    | .sunoSave _ =>
      some { s.setCopy i ⟨(s.copies i).task, .polled⟩ with
        row := (update fault s.row (s.copies i).task).1 }
    | _ => none
  | .bulkFail fault failReason => some { s with row := Tasks.bulkFail fault s.row failReason }

def pollSystem (cfg : PollConfig) : System Poll Action where
  step s a := s.act cfg a

/-- A task as it was submitted, of which nobody has a copy yet. -/
def Poll.start (row : Task) (w : World) : Poll := ⟨row, fun _ => ⟨row, .gone⟩, w, 0⟩

end Tasks
