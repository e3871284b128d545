import GMasterApi.Billing.NewSession
import GMasterApi.Task.Polling

/-!
# Asynchronous image jobs

`RelayImageGenerationAsync` pre-consumes the quota of a job, stores it as a queued
task and enqueues the job.  The job relays the request, which settles the billing
session, and then finishes or fails its task; `sweepTimedOutTasks` may time the
same task out at any moment.  What was pre-consumed is held twice: by the session,
and as the quota of the task.
-/

namespace Tasks

open Billing GoString Transition

/-! ## Submission -/

/-- What a submission finds around it, and where it fails. -/
structure SubmitEnv where
  create : CreateEnv
  bodyFault : Option String
  insertFault : Option String
  refund : RefundFaults
  taskID : String
  now : ℤ
  request : List UInt8

/-- A job that was queued, and the subscriptions that its billing reset. -/
structure Submitted where
  session : BillingSession
  resets : List ℕ
  task : Task

/-- The billing of `prepareAsyncImageRelay`, of a model that is not free. -/
def prepareAsyncImageRelay (settings : Settings) (env : CreateEnv) (w : World) (info : RelayInfo)
    (quotaToPreConsume : ℤ) : World × Except NewAPIError Created :=
  newBillingSession settings env w (some { info with forcePreConsume := true }) quotaToPreConsume

def initAsyncImageTask (env : SubmitEnv) (info : RelayInfo) : Task :=
  { taskID := env.taskID
    platform := .openAIImage
    userId := info.userId
    quota := info.finalPreConsumedQuota
    status := .queued
    failReason := ""
    submitTime := env.now
    startTime := 0
    finishTime := 0
    progress := "0%"
    privateData := ⟨"", info.billingSource, info.subscriptionId, info.tokenId, false⟩
    data := env.request }

def relayImageGenerationAsync (settings : Settings) (env : SubmitEnv) (w : World)
    (info : RelayInfo) (quotaToPreConsume : ℤ) : World × Except NewAPIError Submitted :=
  match prepareAsyncImageRelay settings env.create w info quotaToPreConsume with
  | (w, .error e) => (w, .error e)
  | (w, .ok created) =>
    match env.bodyFault, env.insertFault with
    | some e, _ =>
      ((created.session.refund env.refund w).2.1,
        .error ⟨e, .readRequestBodyFailed, 400, true, true⟩)
    | none, some e =>
      ((created.session.refund env.refund w).2.1, .error ⟨e, .updateDataError, 500, false, true⟩)
    | none, none =>
      (w, .ok ⟨created.session, created.resets, initAsyncImageTask env created.session.relayInfo⟩)

/-! ## Errors of the relay -/

/-- The fields that `failAsyncImageTask` sets where they are missing. -/
structure OpenAIError where
  message : String
  type : String
  param : String
  code : Option String
  deriving DecidableEq

/-- A `NewAPIError` of the relay, with what `ToOpenAIError` makes of it. -/
structure RelayError where
  err : String
  errorCode : String
  statusCode : ℤ
  skipRetry : Bool
  openAIError : OpenAIError
  deriving DecidableEq

def RelayError.errorWithStatusCode (e : RelayError) : String :=
  if e.statusCode = 0 then e.err
  else if e.err = "" then "status_code=" ++ toString e.statusCode
  else "status_code=" ++ toString e.statusCode ++ ", " ++ e.err

def RelayError.isChannelError (e : RelayError) : Bool := e.errorCode.startsWith "channel:"

def OpenAIError.orDefault (e : OpenAIError) (reason : String) : OpenAIError :=
  { e with
    message := if e.message = "" then reason else e.message
    type := if e.type = "" then "image_generation_failed" else e.type
    code := e.code.getD "image_generation_failed" }

/-! ## Retries -/

structure StatusCodeRange where
  start : ℤ
  stop : ℤ

structure ImageConfig where
  poll : PollConfig
  retryTimes : ℤ
  retryRanges : List StatusCodeRange
  marshal : OpenAIError → List UInt8

def ImageConfig.asyncImageGenerationRetryTimes (cfg : ImageConfig) : ℤ :=
  if cfg.retryTimes < 1 then 1 else cfg.retryTimes

/-- The loop of `shouldMatchStatusCodeRanges`, which stops at a range that starts later. -/
def matchRanges (code : ℤ) : List StatusCodeRange → Bool
  | [] => false
  | r :: ranges =>
    if code < r.start then false else if code ≤ r.stop then true else matchRanges code ranges

def shouldMatchStatusCodeRanges (ranges : List StatusCodeRange) (code : ℤ) : Bool :=
  if code < 100 || decide (599 < code) then false else matchRanges code ranges

def shouldRetryByStatusCode (cfg : ImageConfig) (code : ℤ) : Bool :=
  if code = 504 || code = 524 then false else shouldMatchStatusCodeRanges cfg.retryRanges code

/-- What the context says of retries, and whether the selection of the channel has
asked for the next attempt not to count. -/
structure RetryEnv where
  affinityFailure : Bool
  specificChannel : Bool
  resetNextTry : Bool

def shouldRetryAsyncImageGenerationJob (cfg : ImageConfig) (env : RetryEnv) (e : RelayError)
    (retryTimes : ℤ) : Bool :=
  if env.affinityFailure then false
  else if retryTimes ≤ 0 then false
  else if env.specificChannel then false
  else if e.skipRetry then false
  else if e.isChannelError then true
  else if e.statusCode = 504 || e.statusCode = 524 then true
  else if e.errorCode = "upstream_timeout" then true
  else if 200 ≤ e.statusCode && decide (e.statusCode < 300) then false
  else if e.statusCode < 100 || decide (599 < e.statusCode) then true
  else if e.errorCode = "bad_response_body" then false
  else shouldRetryByStatusCode cfg e.statusCode

/-- The index of the next attempt, if there is one. -/
def nextAttempt (cfg : ImageConfig) (env : RetryEnv) (e : RelayError) (retry : ℕ) : Option ℕ :=
  let retryTimes := cfg.asyncImageGenerationRetryTimes
  if shouldRetryAsyncImageGenerationJob cfg env e (retryTimes - retry) then
    let next := if env.resetNextTry then retry else retry + 1
    if (next : ℤ) ≤ retryTimes then some next else none
  else none

/-! ## The end of a job -/

/-- What the attempts came to. -/
inductive RelayReply
  | error (e : RelayError)
  | response (code : ℕ) (body : List UInt8)
  deriving DecidableEq

/-- The reply is an image. -/
def RelayReply.delivers : RelayReply → Bool
  | .error _ => false
  | .response code body => decide (code < 400) && decide (bytesTrimSpace body ≠ [])

/-- The stored row; a write that is lost or fails is only logged. -/
def finishAsyncImageTask (fault : Option String) (now : ℤ) (row task : Task)
    (responseBody : List UInt8) : Task :=
  (updateWithStatus fault row
    { task with status := .success, progress := "100%", finishTime := now, data := responseBody }
    .inProgress).1

/-- The stored row, and the task if its quota is to be refunded. -/
def failAsyncImageTask (cfg : ImageConfig) (fault : Option String) (now : ℤ) (row task : Task)
    (openAIError : OpenAIError) (reason : String) : Task × Option Task :=
  let task := { task with
    status := .failure
    progress := "100%"
    finishTime := now
    failReason := reason
    data := cfg.marshal (openAIError.orDefault reason) }
  match updateWithStatus fault row task .inProgress with
  | (row, .ok true) => (row, some task)
  | (row, _) => (row, none)

/-- `runAsyncImageGenerationJob` after its attempts. -/
def concludeAsyncImageJob (cfg : ImageConfig) (fault : Option String) (now : ℤ) (row task : Task) :
    RelayReply → Task × Option Task
  | .error e => failAsyncImageTask cfg fault now row task e.openAIError e.errorWithStatusCode
  | .response code body =>
    if 400 ≤ code then
      failAsyncImageTask cfg fault now row task
        ⟨"image generation job returned status " ++ toString code, "image_generation_failed", "",
          some "bad_response_status_code"⟩
        ("status_code=" ++ toString code)
    else
      let responseBody := bytesTrimSpace body
      if responseBody = [] then
        failAsyncImageTask cfg fault now row task
          ⟨"image generation job returned empty response", "image_generation_failed", "",
            some "empty_response"⟩
          "empty image generation response"
      else (finishAsyncImageTask fault now row task responseBody, none)

/-! ## Runs -/

/-- Where `runAsyncImageGenerationJob` is, with its copy of the task. -/
inductive JobStep
  | enqueued
  | loaded (task : Task)
  | relaying (task : Task) (retry : ℕ)
  | relayed (task : Task) (reply : RelayReply)
  | refunding (task : Task)
  | done

/-- A job next to the sweeps of its task: its billing session, and the quota that the
relay has settled it at. -/
structure ImageJob extends Poll where
  session : BillingSession
  step : JobStep
  settledAt : Option ℤ

/-- One attempt: no channel, an error of the relay, or a reply, which is written after
the relay has settled the session. -/
inductive Attempt
  | noChannel (e : RelayError)
  | failed (env : RetryEnv) (e : RelayError)
  | replied (faults : SettleFaults) (actualQuota : ℤ) (code : ℕ) (body : List UInt8)

inductive JobAction
  | load (fault : Option String)
  | start (fault : Option String) (now : ℤ)
  | attempt (outcome : Attempt)
  | conclude (fault : Option String) (now : ℤ)
  | refund (faults : TaskFaults)
  | sweepLoad (i : ℕ) (now : ℤ)
  | sweep (i : ℕ) (fault : Option String) (now : ℤ)
  | sweepRefund (i : ℕ) (faults : TaskFaults)

/-- The job in the state that a sweep leaves of its task. -/
def ImageJob.swept (s : ImageJob) (t : Poll) : ImageJob := { s with toPoll := t }

def ImageJob.start (s : ImageJob) (task : Task) (fault : Option String) (now : ℤ) : ImageJob :=
  let task := { task with status := .inProgress, progress := "10%", startTime := now }
  match updateWithStatus fault s.row task .queued with
  | (row, .ok true) => { s with row := row, step := .relaying task 0 }
  | (row, _) => { s with row := row, step := .done }

def ImageJob.attempt (cfg : ImageConfig) (s : ImageJob) (task : Task) (retry : ℕ) :
    Attempt → ImageJob
  | .noChannel e => { s with step := .relayed task (.error e) }
  | .failed env e =>
    match nextAttempt cfg env e retry with
    | some retry => { s with step := .relaying task retry }
    | none => { s with step := .relayed task (.error e) }
  | .replied faults actualQuota code body =>
    -- an error of the settlement is only logged
    let out := s.session.settle faults s.world actualQuota
    { s with
      session := out.1
      world := out.2.1
      step := .relayed task (.response code body)
      settledAt := if out.1.settled then some actualQuota else none }

def ImageJob.act (cfg : ImageConfig) (s : ImageJob) : JobAction → Option ImageJob
  | .load fault =>
    match s.step with
    | .enqueued => some { s with step := if fault.isSome then .done else .loaded s.row }
    | _ => none
  | .start fault now =>
    match s.step with
    | .loaded task => some (s.start task fault now)
    | _ => none
  | .attempt outcome =>
    match s.step with
    | .relaying task retry => some (s.attempt cfg task retry outcome)
    | _ => none
  | .conclude fault now =>
    match s.step with
    | .relayed task reply =>
      let out := concludeAsyncImageJob cfg fault now s.row task reply
      some { s with row := out.1, step := out.2.elim .done .refunding }
    | _ => none
  | .refund faults =>
    match s.step with
    | .refunding task =>
      let out := refundTaskQuota faults s.world task
      some { s with world := out.1, refunded := s.refunded + out.2, step := .done }
    | _ => none
  | .sweepLoad i now => (s.toPoll.act cfg.poll (.load i true now)).map s.swept
  | .sweep i fault now => (s.toPoll.act cfg.poll (.sweep i fault now)).map s.swept
  | .sweepRefund i faults => (s.toPoll.act cfg.poll (.bill i faults)).map s.swept

def imageSystem (cfg : ImageConfig) : System ImageJob JobAction where
  step s a := s.act cfg a

/-- A job as it was enqueued. -/
def ImageJob.queued (submitted : Submitted) (w : World) : ImageJob :=
  { Poll.start submitted.task w with
    session := submitted.session
    step := .enqueued
    settledAt := none }

end Tasks
