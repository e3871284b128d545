import GMasterApi.Billing.Funding

/-!
# Asynchronous tasks and their billing

A row of `tasks`, the two ways in which it is written, and the functions that
give its quota back (`RefundTaskQuota`) or settle it (`RecalculateTaskQuota`).
-/

namespace Tasks

open Billing Subscription

inductive TaskStatus
  | notStart
  | submitted
  | queued
  | inProgress
  | failure
  | success
  | other (text : String)
  deriving DecidableEq

def TaskStatus.empty : TaskStatus := .other ""

/-- `FAILURE` or `SUCCESS`. -/
def TaskStatus.isDone (status : TaskStatus) : Bool := status = .failure || status = .success

inductive TaskPlatform
  | suno
  | midjourney
  | openAIImage
  | video (name : String)
  deriving DecidableEq

/-- The parts of `TaskPrivateData` that billing and polling read. -/
structure TaskPrivateData where
  resultURL : String
  billingSource : BillingSource
  subscriptionId : ℕ
  tokenId : ℕ
  perCallBilling : Bool
  deriving DecidableEq

/-- A task; `data` is its JSON as `Marshal` prints it. -/
structure Task where
  taskID : String
  platform : TaskPlatform
  userId : ℕ
  quota : ℤ
  status : TaskStatus
  failReason : String
  submitTime : ℤ
  startTime : ℤ
  finishTime : ℤ
  progress : String
  privateData : TaskPrivateData
  data : List UInt8
  deriving DecidableEq

/-! ## Queries and writes -/

/-- `progress != '100%'` and a status that is neither `FAILURE` nor `SUCCESS`. -/
def Task.unfinished (task : Task) : Bool := task.progress ≠ "100%" && !task.status.isDone

/-- `GetTimedOutUnfinishedTasks` -/
def Task.timedOut (task : Task) (cutoffUnix : ℤ) : Bool :=
  task.unfinished && decide (task.submitTime < cutoffUnix)

/-- `GetAllUnFinishSyncTasks` -/
def Task.polled (task : Task) : Bool := task.unfinished && decide (task.platform ≠ .openAIImage)

/-- `UpdateWithStatus`: the stored row afterwards, and whether this caller won. -/
def updateWithStatus (fault : Option String) (row task : Task) (fromStatus : TaskStatus) :
    Task × Except String Bool :=
  match fault with
  | some e => (row, .error e)
  | none => if row.status = fromStatus then (task, .ok true) else (row, .ok false)

/-- `Update`, which saves the whole row whatever is stored. -/
def update (fault : Option String) (row task : Task) : Task × Except String Unit :=
  match fault with
  | some e => (row, .error e)
  | none => (task, .ok ())

/-- A write that does not win leaves the row. -/
theorem updateWithStatus_cases (fault : Option String) (row task : Task) (fromStatus : TaskStatus) :
    (∃ lost, lost ≠ .ok true ∧ updateWithStatus fault row task fromStatus = (row, lost)) ∨
      (fault = none ∧ row.status = fromStatus ∧
        updateWithStatus fault row task fromStatus = (task, .ok true)) := by
  unfold updateWithStatus
  split
  · exact .inl ⟨_, by simp, rfl⟩
  split
  · rename_i hfrom
    exact .inr ⟨rfl, hfrom, rfl⟩
  · exact .inl ⟨_, by simp, rfl⟩

/-! ## Billing -/

/-- Where the billing of a task fails: its funding, the lookup of the token's key and
the update of the token. -/
structure TaskFaults where
  funding : FundingFaults
  tokenKey : Option String
  token : Option String

def TaskFaults.none : TaskFaults := ⟨.none, .none, .none⟩

def Task.isSubscription (task : Task) : Bool :=
  task.privateData.billingSource = .subscription && decide (0 < task.privateData.subscriptionId)

/-- A positive `delta` charges, a negative one gives back. -/
def taskAdjustFunding (faults : FundingFaults) (w : World) (task : Task) (delta : ℤ) :
    Except String World :=
  if task.isSubscription then w.postConsume faults.delta task.privateData.subscriptionId delta
  else if 0 < delta then decreaseUserQuota faults.quota w task.userId delta
  else increaseUserQuota faults.quota w task.userId (-delta)

/-- The token follows where it can; a failure is only logged. -/
def taskAdjustTokenQuota (faults : TaskFaults) (w : World) (task : Task) (delta : ℤ) : World :=
  if task.privateData.tokenId = 0 ∨ delta = 0 then w
  else match faults.tokenKey with
    | some _ => w
    | none =>
      match if 0 < delta then decreaseTokenQuota faults.token w task.privateData.tokenId delta
        else increaseTokenQuota faults.token w task.privateData.tokenId (-delta) with
      | .error _ => w
      | .ok w => w

/-- The world afterwards and what `RefundTaskQuota` gave back. -/
def refundTaskQuota (faults : TaskFaults) (w : World) (task : Task) : World × ℤ :=
  if task.quota = 0 then (w, 0)
  else match taskAdjustFunding faults.funding w task (-task.quota) with
    | .error _ => (w, 0)
    | .ok w => (taskAdjustTokenQuota faults w task (-task.quota), task.quota)

/-- The world afterwards, and the task, whose quota is now the actual one, in memory. -/
def recalculateTaskQuota (faults : TaskFaults) (w : World) (task : Task) (actualQuota : ℤ) :
    World × Task :=
  if actualQuota ≤ 0 then (w, task)
  else
    let quotaDelta := actualQuota - task.quota
    if quotaDelta = 0 then (w, task)
    else match taskAdjustFunding faults.funding w task quotaDelta with
      | .error _ => (w, task)
      | .ok w => (taskAdjustTokenQuota faults w task quotaDelta, { task with quota := actualQuota })

/-- What a completed task is billed by: the quota of the adaptor, and the one that
`RecalculateTaskQuotaByTokens` computes where there are tokens and ratios. -/
structure Completion where
  adaptorQuota : ℤ
  tokenQuota : Option ℤ
  deriving DecidableEq

def settleTaskBillingOnComplete (faults : TaskFaults) (w : World) (task : Task)
    (completion : Completion) : World × Task :=
  if task.privateData.perCallBilling then (w, task)
  else if 0 < completion.adaptorQuota then recalculateTaskQuota faults w task completion.adaptorQuota
  else match completion.tokenQuota with
    | some actualQuota => recalculateTaskQuota faults w task actualQuota
    | none => (w, task)

/-! ## What billing changes -/

variable {faults : TaskFaults} {w : World} {task : Task}

theorem refundTaskQuota_amount (faults : TaskFaults) (w : World) (task : Task) :
    (refundTaskQuota faults w task).2 = 0 ∨ (refundTaskQuota faults w task).2 = task.quota := by
  unfold refundTaskQuota
  split
  · exact .inl rfl
  split
  · exact .inl rfl
  · exact .inr rfl

theorem recalculateTaskQuota_keeps (faults : TaskFaults) (w : World) (task : Task) (actual : ℤ) :
    (recalculateTaskQuota faults w task actual).2.status = task.status ∧
      (recalculateTaskQuota faults w task actual).2.platform = task.platform := by
  unfold recalculateTaskQuota
  split
  · exact ⟨rfl, rfl⟩
  dsimp only
  split
  · exact ⟨rfl, rfl⟩
  split <;> exact ⟨rfl, rfl⟩

/-- A settlement changes no more of the copy than its quota. -/
theorem settleTask_keeps (faults : TaskFaults) (w : World) (task : Task) (completion : Completion) :
    (settleTaskBillingOnComplete faults w task completion).2.status = task.status ∧
      (settleTaskBillingOnComplete faults w task completion).2.platform = task.platform := by
  unfold settleTaskBillingOnComplete
  split
  · exact ⟨rfl, rfl⟩
  split
  · exact recalculateTaskQuota_keeps _ _ _ _
  split
  · exact recalculateTaskQuota_keeps _ _ _ _
  · exact ⟨rfl, rfl⟩

end Tasks
