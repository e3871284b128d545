import GMasterApi.Billing.NewSession
import GMasterApi.Billing.Settle
import GMasterApi.Pricing.PriceData
import GMasterApi.Task.Model

/-!
# Submission of a task

`RelayTask` resolves the task that a request continues, tries channels until one
takes the request (`RelayTaskSubmit`), settles what it cost and stores the task.
-/

namespace Tasks

open Billing Pricing GoMap GoString

/-! ## Errors -/

structure TaskError where
  code : String
  message : String
  statusCode : ℕ
  localError : Bool
  deriving DecidableEq

/-- `TaskErrorWrapper`; `mask` is what it makes of a text that may name the upstream. -/
def taskErrorWrapper (mask : String → String) (err code : String) (statusCode : ℕ) : TaskError :=
  ⟨code, mask err, statusCode, false⟩

def taskErrorWrapperLocal (mask : String → String) (err code : String) (statusCode : ℕ) : TaskError :=
  { taskErrorWrapper mask err code statusCode with localError := true }

def errorCodeText : ErrorCode → String
  | .invalidRequest => "invalid_request"
  | .readRequestBodyFailed => "read_request_body_failed"
  | .queryDataError => "query_data_error"
  | .updateDataError => "update_data_error"
  | .insufficientUserQuota => "insufficient_user_quota"
  | .preConsumeTokenQuotaFailed => "pre_consume_token_quota_failed"

def taskErrorFromAPIError (e : NewAPIError) : TaskError :=
  ⟨errorCodeText e.errorCode, e.err, e.statusCode, false⟩

/-! ## The request -/

/-- The fields of `RelayInfo` that a submission reads beside those of billing, its price
and its billing session. -/
structure RelayInfo extends Billing.RelayInfo where
  userGroup : String
  originModelName : String
  originTaskID : String
  action : String
  acceptUnsetRatioModel : Bool
  publicTaskID : String
  priceData : PriceData
  billing : Option Created

def taskActionRemix : String := "remixGenerate"

/-- What `ResolveOriginTask` reads of the original task; the texts are those of its data,
empty where they are missing. -/
structure OriginTask where
  originModelName : String
  upstreamModelName : String
  model : String
  billingContext : Option (Map String ℚ)
  seconds : String
  size : String

/-- What `ResolveOriginTask` finds around it: whether the path is that of a remix, the task,
its channel with its status, and the key of a channel other than the request's. -/
structure OriginEnv where
  remix : Bool
  videoID : String
  getByTaskId : Except String (Option OriginTask)
  getChannelById : Except String Bool
  nextEnabledKey : Option TaskError
  order : Order (String × ℚ)

/-- The ratios of a task that was stored without a billing context. -/
def legacyRatios (m : OtherRatios) (origin : OriginTask) : OtherRatios :=
  let seconds := atoiValue origin.seconds
  let seconds := if seconds ≤ 0 then 4 else seconds
  let size : ℚ := if origin.size = "1792x1024" ∨ origin.size = "1024x1792" then 1666667 / 1000000 else 1
  (m.add "seconds" seconds).add "size" size

def remixRatios (order : Order (String × ℚ)) (m : OtherRatios) (origin : OriginTask) : OtherRatios :=
  match origin.billingContext with
  | some ratios => m.addAll order ratios
  | none => legacyRatios m origin

def OriginTask.modelName (origin : OriginTask) : String :=
  if origin.originModelName ≠ "" then origin.originModelName
  else if origin.upstreamModelName ≠ "" then origin.upstreamModelName
  else origin.model

def resolveOriginTask (mask : String → String) (env : OriginEnv) (info : RelayInfo) :
    Except TaskError RelayInfo :=
  let info := if env.remix then { info with action := taskActionRemix } else info
  if info.action = taskActionRemix ∧ trimSpace env.videoID = "" then
    .error (taskErrorWrapperLocal mask "video_id is required" "invalid_request" 400)
  else
    let info := if info.action = taskActionRemix then { info with originTaskID := env.videoID } else info
    if info.originTaskID = "" then .ok info
    else match env.getByTaskId with
    | .error e => .error (taskErrorWrapper mask e "get_origin_task_failed" 500)
    | .ok none => .error (taskErrorWrapperLocal mask "task_origin_not_exist" "task_not_exist" 400)
    | .ok (some origin) =>
      let info := if info.originModelName = "" then { info with originModelName := origin.modelName }
        else info
      match env.getChannelById with
      | .error e => .error (taskErrorWrapperLocal mask e "channel_not_found" 400)
      | .ok false => .error (taskErrorWrapperLocal mask "the channel of the origin task is disabled"
          "task_channel_disable" 400)
      | .ok true =>
        match env.nextEnabledKey with
        | some e => .error e
        | none =>
          if info.action = taskActionRemix then
            .ok { info with priceData := { info.priceData with
              otherRatios := remixRatios env.order info.priceData.otherRatios origin } }
          else .ok info

/-! ## One attempt -/

/-- What an adaptor does with a request.  Every adaptor of the repository answers no
adjusted ratios. -/
structure Adaptor where
  validateRequestAndSetAction : String → Except TaskError String
  estimateBilling : String → Map String ℚ
  buildRequestBody : Option String
  doRequest : Option String
  failedStatus : Option (ℕ × String)
  doResponse : Except TaskError (String × List UInt8)
  adjustBillingOnSubmit : OtherRatios

/-- The orders in which an attempt goes through its maps of ratios: to merge the
estimate, to price by it, and to divide it out and adjust. -/
structure RatioOrders where
  merge : Order (String × ℚ)
  price : Order (String × ℚ)
  undo : Order (String × ℚ)
  adjust : Order (String × ℚ)

/-- What an attempt finds: an error of the selection of its channel, the group that this
has put into the context, the platform and its adaptor, the settings and the store. -/
structure TaskAttempt where
  channel : Option TaskError
  autoGroup : Option String
  platform : TaskPlatform
  adaptor : Option Adaptor
  modelMapped : Option String
  newTaskID : String
  prices : PriceSettings
  orders : RatioOrders
  create : CreateEnv

structure TaskSettings where
  billing : Settings
  mask : String → String
  affinityFailure : Bool
  specificChannel : Bool
  alwaysSkipRetryStatusCode : ℕ → Bool

structure TaskSubmitResult where
  upstreamTaskID : String
  taskData : List UInt8
  platform : TaskPlatform
  quota : ℤ

def TaskPlatform.text : TaskPlatform → String
  | .suno => "suno"
  | .midjourney => "mj"
  | .openAIImage => "openai_image"
  | .video name => name

def coverTaskActionToModelName (platform : TaskPlatform) (action : String) : String :=
  platform.text.toLower ++ "_" ++ action.toLower

/-- Step 2: the name of the model. -/
def RelayInfo.nameModel (info : RelayInfo) (platform : TaskPlatform) : RelayInfo :=
  { info with
    originModelName := if info.originModelName = "" then coverTaskActionToModelName platform info.action
      else info.originModelName }

/-- Step 3: the public id of the task. -/
def RelayInfo.namePublic (info : RelayInfo) (newTaskID : String) : RelayInfo :=
  { info with publicTaskID := if info.publicTaskID = "" then newTaskID else info.publicTaskID }

/-- Step 4: the price without the ratios of the request, and the group it is for. -/
def RelayInfo.price (info : RelayInfo) (a : TaskAttempt) : String × Except String PriceData :=
  modelPriceHelperPerCall a.prices a.autoGroup info.userId info.acceptUnsetRatioModel info.userGroup
    info.usingGroup info.originModelName

/-- Steps 5 and 6: the estimate of the adaptor, applied to the quota. -/
def TaskAttempt.quote (a : TaskAttempt) (estimated : Map String ℚ) (modelName : String)
    (priceData : PriceData) : PriceData :=
  let otherRatios := priceData.otherRatios.addAll a.orders.merge estimated
  { priceData with
    otherRatios := otherRatios
    quota := if modelName ∈ a.prices.taskPricePatches then priceData.quota
      else applyRatios priceData.quota (a.orders.price.range otherRatios.ratios.entries) }

def RelayInfo.setPrice (info : RelayInfo) (usingGroup : String) (priceData : PriceData) : RelayInfo :=
  { info with usingGroup := usingGroup, priceData := priceData }

/-- Steps 2 to 6 of `RelayTaskSubmit`; the result is the base quota.  The price that is
set replaces whatever `info.PriceData` was. -/
def priceTask (mask : String → String) (a : TaskAttempt) (adaptor : Adaptor) (info : RelayInfo) :
    RelayInfo × Except TaskError ℤ :=
  let info := info.nameModel a.platform
  match a.modelMapped with
  | some e => (info, .error (taskErrorWrapperLocal mask e "model_mapping_failed" 400))
  | none =>
    let info := info.namePublic a.newTaskID
    match info.price a with
    | (usingGroup, .error e) =>
      (info.setPrice usingGroup info.priceData, .error (taskErrorWrapper mask e "model_price_error" 400))
    | (usingGroup, .ok priceData) =>
      (info.setPrice usingGroup
        (a.quote (adaptor.estimateBilling info.action) info.originModelName priceData),
        .ok priceData.quota)

/-- The request once it has a session, with the fields that the session writes. -/
def RelayInfo.withBilling (info : RelayInfo) (created : Created) : RelayInfo :=
  let session := created.session.relayInfo
  { info with
    billing := some created
    userQuota := session.userQuota
    finalPreConsumedQuota := session.finalPreConsumedQuota
    billingSource := session.billingSource
    subscriptionId := session.subscriptionId
    subscriptionPreConsumed := session.subscriptionPreConsumed
    subscriptionPostDelta := session.subscriptionPostDelta
    subscriptionAmountTotal := session.subscriptionAmountTotal
    subscriptionAmountUsedAfterPreConsume := session.subscriptionAmountUsedAfterPreConsume
    subscriptionPlanId := session.subscriptionPlanId
    subscriptionPlanTitle := session.subscriptionPlanTitle }

/-- Step 7: the quota is consumed once, and not for a free model; beside the request and
the store, what was asked for. -/
def preConsumeTask (settings : TaskSettings) (a : TaskAttempt) (w : World) (info : RelayInfo) :
    World × RelayInfo × Option ℤ × Except TaskError Unit :=
  if info.billing.isSome || info.priceData.freeModel then (w, info, none, .ok ())
  else
    let info := { info with forcePreConsume := true }
    let quota := info.priceData.quota
    match newBillingSession settings.billing a.create w (some info.toRelayInfo) quota with
    | (w, .error e) => (w, info, some quota, .error (taskErrorFromAPIError e))
    | (w, .ok created) => (w, info.withBilling created, some quota, .ok ())

/-- Steps 8 and 9. -/
def Adaptor.send (mask : String → String) (adaptor : Adaptor) : Except TaskError Unit :=
  match adaptor.buildRequestBody, adaptor.doRequest, adaptor.failedStatus with
  | some e, _, _ => .error (taskErrorWrapper mask e "build_request_failed" 500)
  | none, some e, _ => .error (taskErrorWrapper mask e "do_request_failed" 500)
  | none, none, some (status, body) => .error (taskErrorWrapper mask body "fail_to_fetch_task" status)
  | none, none, none => .ok ()

/-- `recalcQuotaFromRatios` -/
def recalcQuotaFromRatios (orders : RatioOrders) (priceData : PriceData) (ratios : OtherRatios) : ℤ :=
  let baseQuota := (orders.undo.range priceData.otherRatios.ratios.entries).foldl
    (fun quota e => if e.2 ≠ 1 ∧ 0 < e.2 then GoFloat.toInt (quota / e.2) else quota) priceData.quota
  GoFloat.toInt ((orders.adjust.range ratios.ratios.entries).foldl
    (fun result e => if e.2 ≠ 1 then result * e.2 else result) (baseQuota : ℚ))

/-- An attempt that was made: the store and the request afterwards, the base quota with the
price made of it, what was pre-consumed, the ratios in the header, and the result. -/
structure TaskSubmission where
  world : World
  info : RelayInfo
  priced : Option (ℤ × PriceData)
  preCharge : Option ℤ
  header : Option OtherRatios
  result : Except TaskError TaskSubmitResult

/-- Steps 8 to 12, after the pre-consumption. -/
def finishSubmit (mask : String → String) (a : TaskAttempt) (adaptor : Adaptor) (w : World)
    (info : RelayInfo) (base : ℤ) (preCharge : Option ℤ) : TaskSubmission :=
  let priceData := info.priceData
  match adaptor.send mask with
  | .error e => ⟨w, info, some (base, priceData), preCharge, none, .error e⟩
  | .ok () =>
    match adaptor.doResponse with
    | .error e => ⟨w, info, some (base, priceData), preCharge, some priceData.otherRatios, .error e⟩
    | .ok (upstreamTaskID, taskData) =>
      let adjusted := adaptor.adjustBillingOnSubmit
      let finalData := if adjusted.ratios.entries = [] then priceData
        else { priceData with
          otherRatios := adjusted, quota := recalcQuotaFromRatios a.orders priceData adjusted }
      ⟨w, { info with priceData := finalData }, some (base, priceData), preCharge,
        some priceData.otherRatios, .ok ⟨upstreamTaskID, taskData, a.platform, finalData.quota⟩⟩

def relayTaskSubmit (settings : TaskSettings) (a : TaskAttempt) (w : World) (info : RelayInfo) :
    TaskSubmission :=
  match a.adaptor with
  | none => ⟨w, info, none, none, none, .error (taskErrorWrapperLocal settings.mask
      ("invalid api platform: " ++ a.platform.text) "invalid_api_platform" 400)⟩
  | some adaptor =>
    match adaptor.validateRequestAndSetAction info.action with
    | .error e => ⟨w, info, none, none, none, .error e⟩
    | .ok action =>
      match priceTask settings.mask a adaptor { info with action := action } with
      | (info, .error e) => ⟨w, info, none, none, none, .error e⟩
      | (info, .ok base) =>
        match preConsumeTask settings a w info with
        | (w, after, preCharge, .error e) =>
          ⟨w, after, some (base, info.priceData), preCharge, none, .error e⟩
        | (w, after, preCharge, .ok ()) =>
          finishSubmit settings.mask a adaptor w after base preCharge

/-! ## The attempts -/

def shouldRetryTaskRelay (settings : TaskSettings) (e : TaskError) (retryTimes : ℕ) : Bool :=
  if settings.affinityFailure then false
  else if retryTimes = 0 then false
  else if settings.specificChannel then false
  else if e.statusCode = 429 then true
  else if e.statusCode = 307 then true
  else if e.statusCode / 100 = 5 then !settings.alwaysSkipRetryStatusCode e.statusCode
  else if e.statusCode = 400 then false
  else if e.statusCode = 408 then false
  else if e.localError then false
  else !decide (e.statusCode / 100 = 2)

/-- The attempts that were made, and what they came to. -/
structure Relayed where
  world : World
  info : RelayInfo
  submissions : List (TaskAttempt × TaskSubmission)
  result : Except TaskError TaskSubmitResult

def Relayed.cons (p : TaskAttempt × TaskSubmission) (relayed : Relayed) : Relayed :=
  { relayed with submissions := p :: relayed.submissions }

/-- The loop of `RelayTask`; `rest` are the attempts that the retries still allow. -/
def relayAttempts (settings : TaskSettings) :
    List TaskAttempt → TaskAttempt → World → RelayInfo → Relayed
  | rest, a, w, info =>
    match a.channel with
    | some e => ⟨w, info, [], .error e⟩
    | none =>
      let sub := relayTaskSubmit settings a w info
      match sub.result, rest with
      | .ok result, _ => ⟨sub.world, sub.info, [(a, sub)], .ok result⟩
      | .error e, [] => ⟨sub.world, sub.info, [(a, sub)], .error e⟩
      | .error e, b :: rest =>
        if shouldRetryTaskRelay settings e (rest.length + 1) then
          (relayAttempts settings rest b sub.world sub.info).cons (a, sub)
        else ⟨sub.world, sub.info, [(a, sub)], .error e⟩

/-! ## The task -/

structure TaskBillingContext where
  modelPrice : ℚ
  groupRatio : ℚ
  modelRatio : ℚ
  otherRatios : OtherRatios
  originModelName : String
  perCallBilling : Bool

/-- A task with its group, its `Properties` and its `BillingContext`. -/
structure SubmittedTask extends Task where
  group : String
  originModelName : String
  billingContext : TaskBillingContext

/-- The row that `RelayTask` inserts. -/
def initTask (prices : PriceSettings) (now : ℤ) (info : RelayInfo) (result : TaskSubmitResult) :
    SubmittedTask :=
  let perCallBilling := decide (info.originModelName ∈ prices.taskPricePatches) || info.priceData.usePrice
  { taskID := info.publicTaskID
    platform := result.platform
    userId := info.userId
    quota := result.quota
    status := .notStart
    failReason := ""
    submitTime := now
    startTime := 0
    finishTime := 0
    progress := "0%"
    privateData := ⟨"", info.billingSource, info.subscriptionId, info.tokenId, perCallBilling⟩
    data := result.taskData
    group := info.usingGroup
    originModelName := info.originModelName
    billingContext :=
      { modelPrice := info.priceData.modelPrice
        groupRatio := info.priceData.groupRatioInfo.groupRatio
        modelRatio := info.priceData.modelRatio
        otherRatios := info.priceData.otherRatios
        originModelName := info.originModelName
        perCallBilling := perCallBilling } }

/-- What `RelayTask` finds after its attempts. -/
structure FinishEnv where
  prices : PriceSettings
  settle : SettleFaults
  refund : RefundFaults
  insertFault : Option String
  now : ℤ

/-- What a request leaves: an error, or the task that was stored. -/
structure RelayOutcome where
  world : World
  info : RelayInfo
  submissions : List (TaskAttempt × TaskSubmission)
  result : Except TaskError (Option SubmittedTask)

/-- The refund of a request that failed. -/
def refundRequest (faults : RefundFaults) (w : World) (info : RelayInfo) : World :=
  match info.billing with
  | some created => (created.session.refund faults w).2.1
  | none => w

/-- `RelayTask` on a request whose original task is resolved. -/
def relayTask (settings : TaskSettings) (env : FinishEnv) (first : TaskAttempt) (rest : List TaskAttempt)
    (w : World) (info : RelayInfo) : RelayOutcome :=
  let relayed := relayAttempts settings rest first w info
  match relayed.result with
  | .error e =>
    ⟨refundRequest env.refund relayed.world relayed.info, relayed.info, relayed.submissions, .error e⟩
  | .ok result =>
    let settled := settleBilling env.settle relayed.world relayed.info.toRelayInfo
      (relayed.info.billing.map Created.session) result.quota
    let info := { relayed.info with toRelayInfo := settled.info }
    let task := initTask env.prices env.now info result
    -- an error of the settlement is only logged
    ⟨settled.world, info, relayed.submissions,
      .ok (if env.insertFault.isSome then none else some task)⟩

/-- `RelayTask` -/
def relayTaskRequest (settings : TaskSettings) (origin : OriginEnv) (env : FinishEnv)
    (first : TaskAttempt) (rest : List TaskAttempt) (w : World) (info : RelayInfo) : RelayOutcome :=
  match resolveOriginTask settings.mask origin info with
  | .error e => ⟨w, info, [], .error e⟩
  | .ok info => relayTask settings env first rest w info

/-! ## What an attempt does -/

variable {settings : TaskSettings} {a : TaskAttempt} {adaptor : Adaptor} {w : World} {info : RelayInfo}
  {base : ℤ}

/-- The price is made of the base quota and the ratios of the adaptor alone. -/
structure Priced (a : TaskAttempt) (adaptor : Adaptor) (info : RelayInfo) (base : ℤ)
    (priceData : PriceData) : Prop where
  otherRatios : priceData.otherRatios =
    OtherRatios.none.addAll a.orders.merge (adaptor.estimateBilling info.action)
  quota : priceData.quota = if info.originModelName ∈ a.prices.taskPricePatches then base
    else applyRatios base (a.orders.price.range priceData.otherRatios.ratios.entries)
  group : priceData.groupRatioInfo =
    (handleGroupRatio a.prices.groups a.autoGroup info.userGroup info.usingGroup).2
  usingGroup : a.autoGroup.getD info.usingGroup = info.usingGroup
  free : priceData.freeModel = true → base = 0

/-- A refinement of a request by a price keeps who asks for what. -/
structure SameRequest (info info' : RelayInfo) : Prop where
  billing : info'.billing = info.billing
  relayInfo : ∃ usingGroup, info'.toRelayInfo = { info.toRelayInfo with usingGroup := usingGroup }
  userGroup : info'.userGroup = info.userGroup

theorem price_eq_ok {usingGroup : String} {priceData : PriceData}
    (h : info.price a = (usingGroup, .ok priceData)) :
    usingGroup = a.autoGroup.getD info.usingGroup ∧ priceData.otherRatios = .none ∧
      priceData.groupRatioInfo =
        (handleGroupRatio a.prices.groups a.autoGroup info.userGroup info.usingGroup).2 ∧
      (priceData.freeModel = true → priceData.quota = 0) := by
  unfold RelayInfo.price modelPriceHelperPerCall at h
  cases hbase : a.prices.base info.userId info.acceptUnsetRatioModel info.originModelName with
  | error e =>
    rw [hbase] at h
    cases (Prod.mk.inj h).2
  | ok b =>
    rw [hbase] at h
    obtain ⟨hgroup, hprice⟩ := Prod.mk.inj h
    have hpriced := Except.ok.inj hprice
    subst hpriced
    refine ⟨?_, priced_otherRatios _ _ _, priced_groupRatioInfo _ _ _, priced_quota_of_free _ _ _⟩
    exact hgroup.symm.trans (handleGroupRatio_group _ _ _ _)

theorem priceTask_eq_ok {mask : String → String} {info' : RelayInfo}
    (h : priceTask mask a adaptor info = (info', .ok base)) :
    Priced a adaptor info' base info'.priceData ∧ SameRequest info info' := by
  unfold priceTask at h
  dsimp only at h
  split at h
  · cases h
  generalize hnamed : (info.nameModel a.platform).namePublic a.newTaskID = named at h
  have hsame : SameRequest info named := by
    subst hnamed
    exact ⟨rfl, ⟨info.usingGroup, rfl⟩, rfl⟩
  split at h
  · cases h
  rename_i usingGroup priceData hprice
  obtain ⟨hgroup, hnone, hratio, hfree⟩ := price_eq_ok hprice
  obtain ⟨rfl, hbase⟩ := Prod.mk.inj h
  have hbase := Except.ok.inj hbase
  subst hbase
  refine ⟨⟨?_, rfl, ?_, ?_, hfree⟩, hsame.billing, ?_, hsame.userGroup⟩
  · show priceData.otherRatios.addAll _ _ = _
    rw [hnone]
    rfl
  · show priceData.groupRatioInfo = (handleGroupRatio a.prices.groups a.autoGroup named.userGroup
      usingGroup).2
    rw [hratio, hgroup]
    cases a.autoGroup <;> rfl
  · show a.autoGroup.getD usingGroup = usingGroup
    rw [hgroup]
    cases a.autoGroup <;> rfl
  · obtain ⟨g, hg⟩ := hsame.relayInfo
    refine ⟨usingGroup, ?_⟩
    show { named.toRelayInfo with usingGroup := usingGroup } = _
    rw [hg]

/-- Step 7 keeps the price, and asks for its quota if for anything. -/
theorem preConsumeTask_keeps (settings : TaskSettings) (a : TaskAttempt) (w : World)
    (info : RelayInfo) :
    (preConsumeTask settings a w info).2.1.priceData = info.priceData ∧
      (preConsumeTask settings a w info).2.1.action = info.action ∧
      (preConsumeTask settings a w info).2.1.originModelName = info.originModelName ∧
      (preConsumeTask settings a w info).2.1.userGroup = info.userGroup ∧
      (preConsumeTask settings a w info).2.1.usingGroup = info.usingGroup ∧
      ∀ q, (preConsumeTask settings a w info).2.2.1 = some q → q = info.priceData.quota := by
  unfold preConsumeTask
  split
  · refine ⟨rfl, rfl, rfl, rfl, rfl, fun q hq => ?_⟩
    cases hq
  dsimp only
  split
  · exact ⟨rfl, rfl, rfl, rfl, rfl, fun q hq => (Option.some.inj hq).symm⟩
  · exact ⟨rfl, rfl, rfl, rfl, rfl, fun q hq => (Option.some.inj hq).symm⟩

theorem Priced.of_keeps {info' : RelayInfo} {priceData : PriceData}
    (h : Priced a adaptor info base priceData) (haction : info'.action = info.action)
    (hmodel : info'.originModelName = info.originModelName)
    (huser : info'.userGroup = info.userGroup) (husing : info'.usingGroup = info.usingGroup) :
    Priced a adaptor info' base priceData where
  otherRatios := by rw [h.otherRatios, haction]
  quota := by rw [h.quota, hmodel]
  group := by rw [h.group, huser, husing]
  usingGroup := by rw [husing, h.usingGroup]
  free := h.free

/-- What an attempt that came to a price pre-consumes, puts into the header and reports. -/
structure Offers (a : TaskAttempt) (sub : TaskSubmission) (adaptor : Adaptor) (base : ℤ)
    (priceData : PriceData) : Prop where
  found : a.adaptor = some adaptor
  priced : Priced a adaptor sub.info base priceData
  preCharge : ∀ q, sub.preCharge = some q → q = priceData.quota
  header : ∀ ratios, sub.header = some ratios → ratios = priceData.otherRatios
  result : ∀ result, sub.result = .ok result → adaptor.adjustBillingOnSubmit.ratios.entries = [] →
    result.quota = priceData.quota

theorem finishSubmit_offers (w : World) (mask : String → String) {preCharge : Option ℤ}
    (hadaptor : a.adaptor = some adaptor) (h : Priced a adaptor info base info.priceData)
    (hcharge : ∀ q, preCharge = some q → q = info.priceData.quota) :
    (finishSubmit mask a adaptor w info base preCharge).priced = some (base, info.priceData) ∧
      Offers a (finishSubmit mask a adaptor w info base preCharge) adaptor base info.priceData := by
  unfold finishSubmit
  dsimp only
  split
  · exact ⟨rfl, hadaptor, h, hcharge, by simp, by simp⟩
  split
  · exact ⟨rfl, hadaptor, h, hcharge, by simp, by simp⟩
  · refine ⟨rfl, hadaptor, h.of_keeps rfl rfl rfl rfl, hcharge, by simp, ?_⟩
    intro result hresult hnone
    rw [← Except.ok.inj hresult]
    simp [hnone]

theorem relayTaskSubmit_offers {priceData : PriceData}
    (h : (relayTaskSubmit settings a w info).priced = some (base, priceData)) :
    ∃ adaptor, Offers a (relayTaskSubmit settings a w info) adaptor base priceData := by
  revert h
  unfold relayTaskSubmit
  split
  · intro h
    cases h
  rename_i adaptor hadaptor
  split
  · intro h
    cases h
  rename_i action haction
  split
  · intro h
    cases h
  rename_i priced base' hprice
  obtain ⟨hpriced, -⟩ := priceTask_eq_ok hprice
  obtain ⟨hdata, hact, hmodel, huser, husing, hcharge⟩ := preConsumeTask_keeps settings a w priced
  split
  · rename_i w' after preCharge e hpre
    rw [hpre] at hdata hact hmodel huser husing hcharge
    intro h
    obtain ⟨rfl, rfl⟩ := Prod.mk.inj (Option.some.inj h)
    exact ⟨adaptor, hadaptor, hpriced.of_keeps hact hmodel huser husing, hcharge, by simp, by simp⟩
  · rename_i w' after preCharge hpre
    rw [hpre] at hdata hact hmodel huser husing hcharge
    intro h
    have hafter : Priced a adaptor after base' after.priceData :=
      hdata ▸ hpriced.of_keeps hact hmodel huser husing
    obtain ⟨hfin, hoffers⟩ := finishSubmit_offers w' settings.mask hadaptor hafter
      (fun q hq => (hcharge q hq).trans (congrArg PriceData.quota hdata.symm))
    rw [hfin] at h
    obtain ⟨rfl, rfl⟩ := Prod.mk.inj (Option.some.inj h)
    exact ⟨adaptor, hoffers⟩

/-- A price that fails leaves the request as it was but for its names. -/
theorem priceTask_same (mask : String → String) (a : TaskAttempt) (adaptor : Adaptor)
    (info : RelayInfo) : SameRequest info (priceTask mask a adaptor info).1 := by
  unfold priceTask
  dsimp only
  split
  · exact ⟨rfl, ⟨info.usingGroup, rfl⟩, rfl⟩
  split
  · exact ⟨rfl, ⟨_, rfl⟩, rfl⟩
  · exact ⟨rfl, ⟨_, rfl⟩, rfl⟩

/-- After the pre-consumption nothing but the price changes. -/
structure Finished (orders : RatioOrders) (w : World) (info : RelayInfo) (sub : TaskSubmission) :
    Prop where
  world : sub.world = w
  same : ∃ priceData, sub.info = { info with priceData := priceData }
  group : sub.info.priceData.groupRatioInfo = info.priceData.groupRatioInfo
  quota : ∀ result, sub.result = .ok result → result.quota = sub.info.priceData.quota ∧
    (sub.info.priceData.quota = info.priceData.quota ∨ ∃ adjusted,
      sub.info.priceData.quota = recalcQuotaFromRatios orders info.priceData adjusted)

theorem finishSubmit_finished (mask : String → String) (a : TaskAttempt) (adaptor : Adaptor)
    (w : World) (info : RelayInfo) (base : ℤ) (preCharge : Option ℤ) :
    Finished a.orders w info (finishSubmit mask a adaptor w info base preCharge) := by
  unfold finishSubmit
  dsimp only
  split
  · exact ⟨rfl, ⟨_, rfl⟩, rfl, by simp⟩
  split
  · exact ⟨rfl, ⟨_, rfl⟩, rfl, by simp⟩
  · refine ⟨rfl, ⟨_, rfl⟩, ?_, fun result hresult => ?_⟩
    · dsimp only
      split <;> rfl
    · rw [← Except.ok.inj hresult]
      refine ⟨rfl, ?_⟩
      dsimp only
      split
      · exact .inl rfl
      · exact .inr ⟨_, rfl⟩

/-- An attempt fails before it has a price, or it has one, pre-consumes and goes on from
what this leaves. -/
theorem relayTaskSubmit_cases (settings : TaskSettings) (a : TaskAttempt) (w : World)
    (info : RelayInfo) :
    ((∃ e, (relayTaskSubmit settings a w info).result = .error e) ∧
        (relayTaskSubmit settings a w info).world = w ∧
        SameRequest info (relayTaskSubmit settings a w info).info) ∨
      ∃ adaptor named base w' after preCharge result,
        Priced a adaptor named base named.priceData ∧ SameRequest info named ∧
        preConsumeTask settings a w named = (w', after, preCharge, result) ∧
        Finished a.orders w' after (relayTaskSubmit settings a w info) ∧
        (∀ r, (relayTaskSubmit settings a w info).result = .ok r → result = .ok ()) := by
  unfold relayTaskSubmit
  split
  · exact .inl ⟨⟨_, rfl⟩, rfl, rfl, ⟨info.usingGroup, rfl⟩, rfl⟩
  rename_i adaptor hadaptor
  split
  · exact .inl ⟨⟨_, rfl⟩, rfl, rfl, ⟨info.usingGroup, rfl⟩, rfl⟩
  rename_i action haction
  have hsame := priceTask_same settings.mask a adaptor { info with action := action }
  split
  · rename_i named e hprice
    rw [hprice] at hsame
    exact .inl ⟨⟨_, rfl⟩, rfl, hsame.billing, hsame.relayInfo, hsame.userGroup⟩
  rename_i named base hprice
  rw [hprice] at hsame
  obtain ⟨hpriced, -⟩ := priceTask_eq_ok hprice
  right
  split
  · rename_i w' after preCharge e hpre
    refine ⟨adaptor, named, base, w', after, preCharge, .error e, hpriced,
      ⟨hsame.billing, hsame.relayInfo, hsame.userGroup⟩, hpre, ⟨rfl, ⟨_, rfl⟩, rfl, by simp⟩, by simp⟩
  · rename_i w' after preCharge hpre
    exact ⟨adaptor, named, base, w', after, preCharge, .ok (), hpriced,
      ⟨hsame.billing, hsame.relayInfo, hsame.userGroup⟩, hpre,
      finishSubmit_finished _ _ _ _ _ _ _, fun _ _ => rfl⟩

/-- The loop ends with this attempt or goes on with the next one. -/
theorem relayAttempts_cases (settings : TaskSettings) (rest : List TaskAttempt) (a : TaskAttempt)
    (w : World) (info : RelayInfo) :
    (∃ e, relayAttempts settings rest a w info = ⟨w, info, [], .error e⟩) ∨
      (relayAttempts settings rest a w info =
        ⟨(relayTaskSubmit settings a w info).world, (relayTaskSubmit settings a w info).info,
          [(a, relayTaskSubmit settings a w info)], (relayTaskSubmit settings a w info).result⟩) ∨
      ∃ b rest', rest = b :: rest' ∧
        relayAttempts settings rest a w info =
          (relayAttempts settings rest' b (relayTaskSubmit settings a w info).world
            (relayTaskSubmit settings a w info).info).cons (a, relayTaskSubmit settings a w info) := by
  have hdef := relayAttempts.eq_def settings rest a w info
  dsimp only at hdef
  rw [hdef]
  split
  · rename_i e _
    exact .inl ⟨e, rfl⟩
  right
  generalize relayTaskSubmit settings a w info = sub
  cases hresult : sub.result with
  | ok result => exact .inl rfl
  | error e =>
    cases rest with
    | nil => exact .inl rfl
    | cons b rest =>
      dsimp only
      split
      · exact .inr ⟨b, rest, rfl, rfl⟩
      · exact .inl rfl

/-- What the loop keeps, from its first attempt to its last. -/
theorem relayAttempts_run {settings : TaskSettings}
    {C : List TaskAttempt → TaskAttempt → World → RelayInfo → Relayed → Prop}
    (refused : ∀ rest a w info e, C rest a w info ⟨w, info, [], .error e⟩)
    (ended : ∀ rest a w info, C rest a w info
      ⟨(relayTaskSubmit settings a w info).world, (relayTaskSubmit settings a w info).info,
        [(a, relayTaskSubmit settings a w info)], (relayTaskSubmit settings a w info).result⟩)
    (retried : ∀ b rest a w info run,
      C rest b (relayTaskSubmit settings a w info).world (relayTaskSubmit settings a w info).info run →
      C (b :: rest) a w info (run.cons (a, relayTaskSubmit settings a w info))) :
    ∀ rest a w info, C rest a w info (relayAttempts settings rest a w info) := by
  intro rest
  induction rest with
  | nil =>
    intro a w info
    rcases relayAttempts_cases settings [] a w info with ⟨e, h⟩ | h | ⟨b, rest', hrest, -⟩
    · rw [h]
      exact refused _ _ _ _ e
    · rw [h]
      exact ended _ _ _ _
    · cases hrest
  | cons b rest ih =>
    intro a w info
    rcases relayAttempts_cases settings (b :: rest) a w info with ⟨e, h⟩ | h | ⟨c, rest', hrest, h⟩
    · rw [h]
      exact refused _ _ _ _ e
    · rw [h]
      exact ended _ _ _ _
    · obtain ⟨rfl, rfl⟩ := List.cons.inj hrest
      rw [h]
      exact retried _ _ _ _ _ _ (ih _ _ _)

/-- The attempts of a request are runs of `RelayTaskSubmit`. -/
theorem relayAttempts_submit (rest : List TaskAttempt) (a : TaskAttempt) (w : World)
    (info : RelayInfo) :
    ∀ p ∈ (relayAttempts settings rest a w info).submissions,
      ∃ w' info', p.2 = relayTaskSubmit settings p.1 w' info' := by
  refine relayAttempts_run (C := fun _ _ _ _ run => ∀ p ∈ run.submissions,
    ∃ w' info', p.2 = relayTaskSubmit settings p.1 w' info') ?_ ?_ ?_ rest a w info
  · intro rest a w info e p hp
    cases hp
  · intro rest a w info p hp
    rw [List.mem_singleton.mp hp]
    exact ⟨w, info, rfl⟩
  · intro b rest a w info run ih p hp
    rcases List.mem_cons.mp hp with rfl | hp
    · exact ⟨w, info, rfl⟩
    · exact ih p hp

theorem relayTask_submissions (env : FinishEnv) (rest : List TaskAttempt) :
    (relayTask settings env a rest w info).submissions =
      (relayAttempts settings rest a w info).submissions := by
  unfold relayTask
  dsimp only
  split <;> rfl

/-- What every attempt keeps holds when one succeeds. -/
theorem relayAttempts_ok {I : World → RelayInfo → Prop} {result : TaskSubmitResult}
    (rest : List TaskAttempt) (a : TaskAttempt) (w : World) (info : RelayInfo) :
    (∀ b ∈ a :: rest, ∀ w info, I w info →
      I (relayTaskSubmit settings b w info).world (relayTaskSubmit settings b w info).info) →
    I w info → (relayAttempts settings rest a w info).result = .ok result →
    ∃ b ∈ a :: rest, ∃ w' info', I w' info' ∧
      (relayTaskSubmit settings b w' info').result = .ok result ∧
      (relayAttempts settings rest a w info).world = (relayTaskSubmit settings b w' info').world ∧
      (relayAttempts settings rest a w info).info = (relayTaskSubmit settings b w' info').info := by
  refine relayAttempts_run (C := fun rest a w info run =>
    (∀ b ∈ a :: rest, ∀ w info, I w info →
      I (relayTaskSubmit settings b w info).world (relayTaskSubmit settings b w info).info) →
    I w info → run.result = .ok result →
    ∃ b ∈ a :: rest, ∃ w' info', I w' info' ∧
      (relayTaskSubmit settings b w' info').result = .ok result ∧
      run.world = (relayTaskSubmit settings b w' info').world ∧
      run.info = (relayTaskSubmit settings b w' info').info) ?_ ?_ ?_ rest a w info
  · intro rest a w info e _ _ hok
    cases hok
  · intro rest a w info _ hI hok
    exact ⟨a, List.mem_cons_self, w, info, hI, hok, rfl, rfl⟩
  · intro b rest a w info run ih hstep hI hok
    have hnext := hstep a List.mem_cons_self w info hI
    obtain ⟨d, hd, hrun⟩ := ih (fun b hb => hstep b (List.mem_cons_of_mem _ hb)) hnext hok
    exact ⟨d, List.mem_cons_of_mem _ hd, hrun⟩

theorem relayTaskSubmit_userGroup (settings : TaskSettings) (a : TaskAttempt) (w : World)
    (info : RelayInfo) : (relayTaskSubmit settings a w info).info.userGroup = info.userGroup := by
  rcases relayTaskSubmit_cases settings a w info with ⟨-, -, hsame⟩ |
    ⟨adaptor, named, base, w', after, preCharge, result, -, hsame, hpre, hfin, -⟩
  · exact hsame.userGroup
  · obtain ⟨priceData, hinfo⟩ := hfin.same
    obtain ⟨-, -, -, huser, -⟩ := preConsumeTask_keeps settings a w named
    rw [hpre] at huser
    rw [hinfo]
    exact huser.trans hsame.userGroup

/-- The request that a task is made of is the one that a successful attempt left. -/
theorem relayTask_eq_ok {env : FinishEnv} {rest : List TaskAttempt} {task : SubmittedTask}
    (h : (relayTask settings env a rest w info).result = .ok (some task)) :
    ∃ result n, (relayAttempts settings rest a w info).result = .ok result ∧
      task = initTask env.prices env.now { (relayAttempts settings rest a w info).info with
        subscriptionPostDelta := n } result ∧
      (relayTask settings env a rest w info).world =
        (settleBilling env.settle (relayAttempts settings rest a w info).world
          (relayAttempts settings rest a w info).info.toRelayInfo
          ((relayAttempts settings rest a w info).info.billing.map Created.session)
          result.quota).world := by
  unfold relayTask at h ⊢
  dsimp only at h ⊢
  cases hresult : (relayAttempts settings rest a w info).result with
  | error e =>
    rw [hresult] at h
    cases h
  | ok result =>
    rw [hresult] at h
    dsimp only at h
    obtain ⟨n, hinfo⟩ := settleBilling_info env.settle (relayAttempts settings rest a w info).world
      (relayAttempts settings rest a w info).info.toRelayInfo
      ((relayAttempts settings rest a w info).info.billing.map Created.session) result.quota
    have htask := Except.ok.inj h
    split at htask
    · cases htask
    · rw [hinfo] at htask
      exact ⟨result, n, rfl, (Option.some.inj htask).symm, rfl⟩

theorem stored_of_isSome {result : Except TaskError (Option SubmittedTask)}
    (h : (result.toOption.bind id).isSome = true) : ∃ task, result = .ok (some task) := by
  match result, h with
  | .ok (some task), _ => exact ⟨task, rfl⟩

/-! ## A request -/

def samplePrices : PriceSettings where
  groups := ⟨fun _ => none, fun _ => none⟩
  getModelPrice name := if name = "sora-2" then some (1 / 5000) else none
  defaultModelPrice _ := none
  getModelRatio name := ⟨0, false, name⟩
  quotaPerUnit := 500000
  enableFreeModelPreConsume := false
  taskPricePatches := []
  isAdmin _ := false

/-- An adaptor that estimates nothing, as one does for a remix. -/
def sampleAdaptor : Adaptor where
  validateRequestAndSetAction action := .ok action
  estimateBilling _ := .empty
  buildRequestBody := none
  doRequest := none
  failedStatus := none
  doResponse := .ok ("video_2", [])
  adjustBillingOnSubmit := .none

def sampleAttempt : TaskAttempt where
  channel := none
  autoGroup := none
  platform := .video "55"
  adaptor := some sampleAdaptor
  modelMapped := none
  newTaskID := "task_2"
  prices := samplePrices
  orders := ⟨.insertion _, .insertion _, .insertion _, .insertion _⟩
  create := quietCreate

def taskInfo : RelayInfo :=
  { Billing.sampleInfo with
    userGroup := "default"
    originModelName := "sora-2"
    originTaskID := ""
    action := "textGenerate"
    acceptUnsetRatioModel := false
    publicTaskID := ""
    priceData := .zero
    billing := none }

def taskSettings : TaskSettings := ⟨sampleSettings, id, false, false, fun _ => false⟩

def finishEnv : FinishEnv := ⟨samplePrices, ⟨.none, none⟩, .none, none, 1750000000⟩

end Tasks
