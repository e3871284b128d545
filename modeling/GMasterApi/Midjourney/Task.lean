import GMasterApi.Lib.JsonValue
import GMasterApi.Lib.Table

/-!
# Midjourney tasks

The row that a submission stores, whether the submission is charged for it, and
what an item of an upstream reply makes of the copy that a poller holds.
-/

namespace Midjourneys

open JsonValue

structure Midjourney where
  id : ℕ
  code : ℤ
  userId : ℕ
  action : String
  mjId : String
  prompt : String
  promptEn : String
  description : String
  state : String
  submitTime : ℤ
  startTime : ℤ
  finishTime : ℤ
  imageUrl : String
  videoUrl : String
  videoUrls : String
  status : String
  progress : String
  failReason : String
  channelId : ℕ
  quota : ℤ
  buttons : String
  properties : String
  deriving DecidableEq

abbrev Tasks := Table Midjourney Midjourney.id

/-! ## Submission -/

/-- `MidjourneyResponse`. -/
structure Response where
  code : ℤ
  description : String
  properties : Json
  result : String

/-- What a submission has come to when the upstream has answered: the action it is priced
by, the price and the channel, the answer, and the clock before and after. -/
structure Submission where
  userId : ℕ
  action : String
  prompt : String
  channelId : ℕ
  quota : ℤ
  statusCode : ℕ
  response : Response
  now : ℤ
  later : ℤ

/-- The row as it is first filled in. -/
def Submission.task (s : Submission) : Midjourney :=
  { id := 0, code := s.response.code, userId := s.userId, action := s.action
    mjId := s.response.result, prompt := s.prompt, promptEn := ""
    description := s.response.description, state := "", submitTime := s.now, startTime := 0
    finishTime := 0, imageUrl := "", videoUrl := "", videoUrls := "", status := "", progress := "0%"
    failReason := "", channelId := s.channelId, quota := s.quota, buttons := "", properties := "" }

/-- The image and the status that the properties of a task that exists already name. -/
def existing : Json → Option (String × String)
  | .object properties =>
    match properties.lookup "imageUrl", properties.lookup "status" with
    | some (.string imageUrl), some (.string status) => some (imageUrl, status)
    | _, _ => none
  | _ => none

/-- The row and the code of the answer after a code 21. -/
def Submission.withExisting (s : Submission) (task : Midjourney) : Midjourney × ℤ :=
  if s.response.code = 21 then
    match existing s.response.properties with
    | some (imageUrl, status) =>
      let task := { task with imageUrl := imageUrl, status := status }
      if status = "SUCCESS" then
        ({ task with progress := "100%", startTime := s.later, finishTime := s.later }, 1)
      else (task, 21)
    | none => (task, 21)
  else (task, s.response.code)

/-- The codes of an accepted task: submitted, existing already, and queued. -/
def accepted (code : ℤ) : Bool := code = 1 || code = 21 || code = 22

/-- The row with the reason where the task was not accepted. -/
def Submission.withReason (s : Submission) : Midjourney :=
  if accepted s.response.code then s.task
  else { s.task with failReason := s.response.description }

/-- The row that `RelayMidjourneySubmit` stores. -/
def relayMidjourneySubmit (s : Submission) : Midjourney :=
  let out := s.withExisting s.withReason
  if out.2 = 1 ∧ s.action = "UPLOAD" then { out.1 with progress := "100%", status := "SUCCESS" }
  else out.1

/-- `consumeQuota` and the status code, when the deferred function looks at them. -/
def relayMidjourneySubmitCharges (s : Submission) : Bool :=
  s.action ≠ "INPAINT" && s.action ≠ "CUSTOM_ZOOM" && accepted s.response.code &&
    decide (s.statusCode = 200)

/-- The row that `RelaySwapFace` stores, whatever the answer. -/
def relaySwapFace (s : Submission) : Midjourney :=
  { s.task with action := "SWAP_FACE", prompt := "InsightFace", startTime := s.later }

def relaySwapFaceCharges (s : Submission) : Bool :=
  decide (s.statusCode = 200) && decide (s.response.code = 1)

/-- The route of a submission. -/
inductive Route
  | submit
  | swapFace
  deriving DecidableEq

def Route.row : Route → Submission → Midjourney
  | .submit => relayMidjourneySubmit
  | .swapFace => relaySwapFace

def Route.charges : Route → Submission → Bool
  | .submit => relayMidjourneySubmitCharges
  | .swapFace => relaySwapFaceCharges

/-! ## Items of a reply -/

structure Properties where
  finalPrompt : String
  finalZhPrompt : String

/-- `MidjourneyDto`, as far as a poller reads it; `null` stands for buttons that are nil. -/
structure Item where
  mjId : String
  promptEn : String
  state : String
  submitTime : ℤ
  startTime : ℤ
  finishTime : ℤ
  imageUrl : String
  videoUrl : String
  videoUrls : List String
  status : String
  progress : String
  failReason : String
  buttons : Json
  properties : Option Properties

def Properties.json (p : Properties) : Json :=
  .object [("finalPrompt", .string p.finalPrompt), ("finalZhPrompt", .string p.finalZhPrompt)]

def videoUrlsJson (urls : List String) : Json :=
  .array (urls.map fun url => .object [("url", .string url)])

section Item

variable (marshal : Json → String)

/-- A task that is not done after an hour counts as failed. -/
def Item.timeOut (item : Item) (now : ℤ) (task : Midjourney) : Item :=
  if now - task.submitTime > 3600000 ∧ task.progress ≠ "100%" then
    { item with failReason := "上游任务超时（超过1小时）", status := "FAILURE" }
  else item

def checkMjTaskNeedUpdate (oldTask : Midjourney) (newTask : Item) : Bool :=
  oldTask.code ≠ 1 || oldTask.progress ≠ newTask.progress ||
    oldTask.promptEn ≠ newTask.promptEn || oldTask.state ≠ newTask.state ||
    oldTask.submitTime ≠ newTask.submitTime || oldTask.startTime ≠ newTask.startTime ||
    oldTask.finishTime ≠ newTask.finishTime || oldTask.imageUrl ≠ newTask.imageUrl ||
    oldTask.status ≠ newTask.status || oldTask.failReason ≠ newTask.failReason ||
    (oldTask.progress ≠ "100%" && newTask.failReason ≠ "") ||
    oldTask.videoUrl ≠ newTask.videoUrl ||
    (if newTask.videoUrls ≠ [] then oldTask.videoUrls ≠ marshal (videoUrlsJson newTask.videoUrls)
      else oldTask.videoUrls ≠ "")

def marshalButtons (old : String) : Json → String
  | .null => old
  | buttons => marshal buttons

/-- The copy with an item of the reply. -/
def Midjourney.withItem (task : Midjourney) (item : Item) : Midjourney :=
  { task with
    code := 1
    progress := item.progress
    promptEn := item.promptEn
    state := item.state
    submitTime := item.submitTime
    startTime := item.startTime
    finishTime := item.finishTime
    imageUrl := item.imageUrl
    status := item.status
    failReason := item.failReason
    properties := match item.properties with
      | some properties => marshal properties.json
      | none => task.properties
    buttons := marshalButtons marshal task.buttons item.buttons
    videoUrl := item.videoUrl
    videoUrls := if item.videoUrls ≠ [] then marshal (videoUrlsJson item.videoUrls) else "" }

/-- The task is done, in the one word that the updates look at. -/
def Midjourney.finished (task : Midjourney) : Bool := task.progress = "100%"

/-- The item fails the task. -/
def Midjourney.fails (task : Midjourney) : Bool :=
  (!task.finished && task.failReason ≠ "") || (task.finished && task.status = "FAILURE")

/-- The copy as it is to be written, and `shouldReturnQuota`. -/
def Midjourney.failed (task : Midjourney) : Midjourney × Bool :=
  if task.fails then ({ task with progress := "100%" }, decide (task.quota ≠ 0)) else (task, false)

/-- What an item makes of the copy; nothing where there is nothing new. -/
def Midjourney.read (now : ℤ) (task : Midjourney) (item : Item) : Option (Midjourney × Bool) :=
  let item := item.timeOut now task
  if checkMjTaskNeedUpdate marshal task item then some (task.withItem marshal item).failed else none

/-- What an item is never about: which task it is, and what was charged for it. -/
structure SameTask (x y : Midjourney) : Prop where
  id : y.id = x.id
  mjId : y.mjId = x.mjId
  quota : y.quota = x.quota

theorem SameTask.refl (x : Midjourney) : SameTask x x := ⟨rfl, rfl, rfl⟩

theorem SameTask.trans {x y z : Midjourney} (h : SameTask x y) (h' : SameTask y z) :
    SameTask x z :=
  ⟨h'.id.trans h.id, h'.mjId.trans h.mjId, h'.quota.trans h.quota⟩

variable {marshal} {now : ℤ} {task after : Midjourney} {item : Item} {refunds : Bool}

theorem failed_spec (task : Midjourney) : SameTask task task.failed.1 ∧
    (task.failed.2 = true → task.failed.1.finished = true ∧ task.quota ≠ 0) ∧
    (task.failed.2 = false → task.failed.1.finished = true → task.failed.1.status = "FAILURE" →
      task.quota = 0) := by
  unfold Midjourney.failed
  split
  · refine ⟨⟨rfl, rfl, rfl⟩, fun hq => ⟨rfl, of_decide_eq_true hq⟩, fun hq _ _ => ?_⟩
    exact not_not.mp (of_decide_eq_false hq)
  · rename_i hfails
    refine ⟨.refl task, nofun, fun _ hfinished hstatus => absurd ?_ hfails⟩
    unfold Midjourney.fails
    rw [hfinished, hstatus]
    rfl

/-- What is written is the same task; a refund comes with a task that is done, and a failure
that is done without one has cost nothing. -/
theorem read_spec (h : task.read marshal now item = some (after, refunds)) : SameTask task after ∧
    (refunds = true → after.finished = true ∧ after.quota ≠ 0) ∧
    (refunds = false → after.finished = true → after.status = "FAILURE" → after.quota = 0) := by
  unfold Midjourney.read at h
  dsimp only at h
  split at h
  · obtain ⟨hsame, hrefund, hnone⟩ := failed_spec (task.withItem marshal (item.timeOut now task))
    rw [Option.some.inj h] at hsame hrefund hnone
    have htask : SameTask task after :=
      .trans (y := task.withItem marshal (item.timeOut now task)) ⟨rfl, rfl, rfl⟩ hsame
    rw [htask.quota]
    exact ⟨htask, hrefund, hnone⟩
  · cases h

end Item

/-! ## Statements -/

/-- `GetAllUnFinishTasks`. -/
def getAllUnFinishTasks (tasks : Tasks) : List Midjourney :=
  tasks.rows.filter fun task => !task.finished

/-- `UpdateWithStatus`: the rows afterwards, and whether this caller won. -/
def updateWithStatus (ok : Bool) (tasks : Tasks) (task : Midjourney) (fromStatus : String) :
    Tasks × Bool :=
  match tasks.find task.id with
  | some row =>
    if ok && decide (row.status = fromStatus) then (tasks.save task, true) else (tasks, false)
  | none => (tasks, false)

/-- What `MjBulkUpdateByTaskIds` writes of a task without an id. -/
def Midjourney.failNull (task : Midjourney) : Midjourney :=
  { task with status := "FAILURE", progress := "100%" }

def missingReason (channelId : ℕ) : String :=
  "获取渠道信息失败，请联系管理员，渠道ID：" ++ toString channelId

/-- What `MjBulkUpdate` writes of a task whose channel is gone. -/
def Midjourney.failMissing (channelId : ℕ) (task : Midjourney) : Midjourney :=
  { task with failReason := missingReason channelId, status := "FAILURE", progress := "100%" }

def mjBulkUpdateByTaskIds (ok : Bool) (tasks : Tasks) (ids : List ℕ) : Tasks :=
  if ok then tasks.updateWhere (fun task => decide (task.id ∈ ids)) Midjourney.failNull fun _ => rfl
  else tasks

def mjBulkUpdate (ok : Bool) (tasks : Tasks) (mjIds : List String) (channelId : ℕ) : Tasks :=
  if ok then
    tasks.updateWhere (fun task => decide (task.mjId ∈ mjIds)) (Midjourney.failMissing channelId)
      fun _ => rfl
  else tasks

/-- A write that wins finds the row as the caller last saw its status. -/
theorem updateWithStatus_cases (ok : Bool) (tasks : Tasks) (task : Midjourney)
    (fromStatus : String) :
    updateWithStatus ok tasks task fromStatus = (tasks, false) ∨
      ∃ row, tasks.find task.id = some row ∧ ok = true ∧ row.status = fromStatus ∧
        updateWithStatus ok tasks task fromStatus = (tasks.save task, true) := by
  unfold updateWithStatus
  cases hrow : tasks.find task.id with
  | none => exact .inl rfl
  | some row =>
    dsimp only
    split
    · rename_i h
      rw [Bool.and_eq_true, decide_eq_true_eq] at h
      exact .inr ⟨row, rfl, h.1, h.2, rfl⟩
    · exact .inl rfl

/-! ## Where a task is stored as done -/

theorem finished_withExisting {s : Submission} {task : Midjourney}
    (h : (s.withExisting task).1.finished = true) :
    task.finished = true ∨ (s.withExisting task).1.status = "SUCCESS" := by
  revert h
  unfold Submission.withExisting
  split
  · cases existing s.response.properties with
    | none => exact .inl
    | some found =>
      dsimp only
      split
      · rename_i hstatus
        exact fun _ => .inr hstatus
      · exact .inl
  · exact .inl

theorem not_finished_withReason (s : Submission) : s.withReason.finished = false := by
  have hnew : s.task.finished = false := by
    show decide ("0%" = "100%") = false
    decide
  unfold Submission.withReason
  split
  · exact hnew
  · exact hnew

/-- A task that is stored as done has been taken for a success. -/
theorem status_of_finished (route : Route) (s : Submission)
    (h : (route.row s).finished = true) : (route.row s).status = "SUCCESS" := by
  cases route with
  | swapFace => cases (show decide ("0%" = "100%") = true from h)
  | submit =>
    have hreason := not_finished_withReason s
    revert h
    show (relayMidjourneySubmit s).finished = true → (relayMidjourneySubmit s).status = "SUCCESS"
    unfold relayMidjourneySubmit
    dsimp only
    split
    · exact fun _ => rfl
    · intro h
      rcases finished_withExisting h with h | h
      · rw [hreason] at h
        cases h
      · exact h

end Midjourneys
