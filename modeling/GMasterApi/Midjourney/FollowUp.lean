import GMasterApi.Midjourney.Request
import GMasterApi.Midjourney.Task

/-!
# Follow-up actions

A submission is read twice: by `Distribute`, which authorises and prices a model and
selects a channel, and by `RelayMidjourneySubmit`, which records the action, looks up
the task that the request names and moves to its channel.  What is sent is the body
itself.  `performed_iff` says when the three agree.
-/

namespace Midjourneys.FollowUp

open GoMap GoString GoValue JsonValue

/-! ## The environment -/

/-- The channel that `Distribute` has put into the context; what it could not set is empty. -/
structure Selected where
  id : ℕ
  baseURL : String
  key : String

/-- A row of the channels, with its key, or its keys if it has several. -/
structure Channel where
  baseURL : String
  enabled : Bool
  keys : List String

/-- The caller, the tables, what `Distribute` selects for a model, the price of a model and the
caller's quota, the settings, and the rest of the world: how numbers are read, whether the
other fields of a body are valid, the code of the answer, and the channels that are left when
it has come. -/
structure Context where
  userId : ℕ
  tasks : Tasks
  channels : ℕ → Option Channel
  select : String → Option Selected
  price : String → Option ℤ
  userQuota : Option ℤ
  checkSuccess : Bool
  accountFilter : Bool
  notify : Bool
  modeClear : Bool
  letters : Lower
  readInt : Json → Option ℤ
  float : ℚ → Option ℚ
  validRest : Members → Bool
  code : Option ℤ
  remains : ℕ → Bool

/-! ## Reading the body -/

/-- `UnmarshalBodyReusable` of a JSON body. -/
def unmarshal (env : Context) : Json → Option MidjourneyRequest
  | .object members =>
    match decodeText "prompt" "" members, decodeText "customId" "" members,
        decodeText "action" "" members, decodeIndex env.readInt 0 members,
        decodeText "taskId" "" members, decodeText "content" "" members with
    | some prompt, some customId, some action, some index, some taskId, some content =>
      if env.validRest members then some ⟨prompt, customId, action, index, taskId, content⟩
      else none
    | _, _, _, _, _, _ => none
  | .null => some ⟨"", "", "", 0, "", ""⟩
  | _ => none

/-- The prompt without the modes. -/
def clearMode (prompt : String) : String :=
  removeAll (removeAll (removeAll prompt "--fast") "--relax") "--turbo"

abbrev Body := Map String Json

def Body.text (body : Body) (field : String) : String :=
  match body.get field with
  | some (.string s) => s
  | _ => ""

/-- The body without what the settings do not let through. -/
def Context.clear (env : Context) (body : Body) : Body :=
  let body := if env.accountFilter then body else body.delete "accountFilter"
  let body := if env.notify then body else body.delete "notifyHook"
  match env.modeClear, body.get "prompt" with
  | true, some (.string prompt) => body.put "prompt" (.string (clearMode prompt))
  | _, _ => body

/-- The body that `DoMidjourneyHttpRequest` sends: a map, whose numbers are floats. -/
def forwardedBody (env : Context) : Json → Option Body
  | .object members => (mapMembers env.float members).map fun members =>
      env.clear (Map.empty.putAll members)
  | .null => some (env.clear .empty)
  | _ => none

/-! ## `RelayMidjourneySubmit` -/

/-- `GetByMJId`. -/
def getByMJId (tasks : Tasks) (userId : ℕ) (mjId : String) : Option Midjourney :=
  (tasks.select (fun task => task.userId = userId && task.mjId = mjId)
    fun x y => x.id ≤ y.id).head?

/-- What is done so far: the request with its action, and the channel to ask. -/
structure Plan where
  request : MidjourneyRequest
  channelId : ℕ
  baseURL : String

/-- The id of the task that a request with a task id goes on with. -/
def originId (letters : Lower) (mode : RelayMode) (request : MidjourneyRequest) :
    Except Stop (String × MidjourneyRequest) :=
  match mode with
  | .change =>
    if request.taskId = "" then .error (.refused "task_id_is_required")
    else if request.action = "" then .error (.refused "action_is_required")
    else if request.index = 0 then .error (.refused "index_is_required")
    else .ok (request.taskId, request)
  | .simpleChange =>
    if request.content = "" then .error (.refused "content_is_required")
    else
      match convertSimpleChangeParams letters request.content with
      | .error stop => .error stop
      | .ok none => .error (.refused "content_parse_failed")
      | .ok (some params) => .ok (params.taskId, { request with action := params.action })
  | .modal => .ok (request.taskId, { request with action := "MODAL" })
  | .video =>
    if request.taskId = "" then .error (.refused "task_id_is_required")
    else .ok (request.taskId, { request with action := "VIDEO" })
  | _ => .ok ("", request)

/-- The task that a request names, and its channel. -/
def originChannel (env : Context) (mode : RelayMode) (mjId : String) (request : MidjourneyRequest) :
    Except Stop Plan :=
  match getByMJId env.tasks env.userId mjId with
  | none => .error (.refused "task_not_found")
  | some originTask =>
    if env.checkSuccess ∧ originTask.status ≠ "SUCCESS" ∧ mode ≠ .modal then
      .error (.refused "task_status_not_success")
    else
      match env.channels originTask.channelId with
      | none => .error (.refused "get_channel_info_failed")
      | some channel =>
        if channel.enabled then
          .ok ⟨{ request with prompt := originTask.prompt }, originTask.channelId, channel.baseURL⟩
        else .error (.refused "该任务所属渠道已被禁用")

/-- The action of a mode, and the channel. -/
def Context.plan (env : Context) (mode : RelayMode) (selected : Selected)
    (request : MidjourneyRequest) : Except Stop Plan :=
  let stay (action : String) : Except Stop Plan :=
    .ok ⟨{ request with action := action }, selected.id, selected.baseURL⟩
  match mode with
  | .imagine =>
    if request.prompt = "" then .error (.refused "prompt_is_required") else stay "IMAGINE"
  | .describe => stay "DESCRIBE"
  | .edits => stay "EDITS"
  | .shorten => stay "SHORTEN"
  | .blend => stay "BLEND"
  | .upload => stay "UPLOAD"
  | mode =>
    if request.taskId = "" then stay request.action
    else
      match originId env.letters mode request with
      | .error stop => .error stop
      | .ok (mjId, request) => originChannel env mode mjId request

/-- The request with the mode that goes on, once the action of a custom id is known. -/
def convertMode (mode : RelayMode) (request : MidjourneyRequest) :
    Except Stop (RelayMode × MidjourneyRequest) :=
  match mode with
  | .action =>
    match coverPlusActionToNormalAction request with
    | .error stop => .error stop
    | .ok request => .ok (.change, request)
  | .video => .ok (.video, { request with action := "VIDEO" })
  | mode => .ok (mode, request)

/-- The actions that are free. -/
def isFree (action : String) : Bool := action = "INPAINT" || action = "CUSTOM_ZOOM"

/-- The value of the header `mj-api-secret`, from the key in the context. -/
def secretOf (key : String) : Option String :=
  if key = "" then none else some (trimPrefix key "Bearer ")

/-- A request that is sent: the action that authorised it, the action and the channel that
its row has, whether it is charged, and where what is sent to. -/
structure Forwarded where
  authorised : String
  action : String
  consumeQuota : Bool
  channelId : ℕ
  baseURL : String
  secret : Option String
  body : Body
  /-- The handler panics on the answer. -/
  panics : Bool

/-- The rest of a submission, from the price on. -/
def Context.send (env : Context) (selected : Selected) (authorised : String) (body : Json)
    (plan : Plan) : Except Stop Forwarded :=
  let consumeQuota := !isFree plan.request.action
  match env.price (covertMjpActionToModelName env.letters authorised), env.userQuota with
  | some price, some userQuota =>
    if consumeQuota && decide (userQuota - price < 0) then .error (.refused "quota_not_enough")
    else
      match forwardedBody env body with
      | none => .error (.refused "read_request_body_failed")
      | some sent =>
        .ok
          { authorised := authorised
            action := plan.request.action
            consumeQuota := consumeQuota
            channelId := plan.channelId
            baseURL := plan.baseURL
            secret := secretOf selected.key
            body := sent
            -- a code 3 is answered by a look at the row of the channel, which may be gone
            panics := decide (env.code = some 3) && !env.remains plan.channelId }
  | _, _ => .error (.refused "price_or_quota")

def relayMidjourneySubmit (env : Context) (mode : RelayMode) (selected : Selected)
    (authorised : String) (request : MidjourneyRequest) (body : Json) : Except Stop Forwarded :=
  match convertMode mode request with
  | .error stop => .error stop
  | .ok (mode, request) =>
    match env.plan mode selected request with
    | .error stop => .error stop
    | .ok plan => env.send selected authorised body plan

/-- A request from `Distribute` on, under the path of a group of the router. -/
def relayMidjourney (env : Context) (pre : String) (route : SubmitRoute) (body : Json) :
    Except Stop Forwarded :=
  let mode := path2RelayModeMidjourney (pre ++ route.path)
  match unmarshal env body with
  | none => .error (.refused "bind_request_body_failed")
  | some request =>
    match getMjRequestAction env.letters mode request with
    | .error stop => .error stop
    | .ok none => .error (.refused "no channel is selected")
    | .ok (some action) =>
      match env.select (covertMjpActionToModelName env.letters action) with
      | none => .error (.refused "no available channel")
      | some selected => relayMidjourneySubmit env mode selected action request body

/-! ## What is promised -/

/-- The part of a custom id that names the action. -/
def customName (customId : String) : Option String :=
  let splits := splitBy customId "::"
  if splits[1]? = some "JOB" then splits[2]? else splits[1]?

/-- The action that the name in a custom id stands for. -/
def plusAction (name : String) : Option String :=
  if contains name "upsample" then some "UPSCALE"
  else if contains name "variation" then
    if name = "variation" then some "VARIATION"
    else if name = "low_variation" then some "LOW_VARIATION"
    else if name = "high_variation" then some "HIGH_VARIATION"
    else none
  else if contains name "pan" then some "PAN"
  else if contains name "reroll" then some "REROLL"
  else if name = "Outpaint" then some "ZOOM"
  else if name = "CustomZoom" then some "CUSTOM_ZOOM"
  else if name = "Inpaint" then some "INPAINT"
  else none

def namedAction (customId : String) : Option String := (customName customId).bind plusAction

/-- The task and the action that the content of a simple change names. -/
def contentParams (letters : Lower) (content : String) : Option ChangeParams :=
  match convertSimpleChangeParams letters content with
  | .ok params => params
  | .error _ => none

/-- The action that a body means to the upstream. -/
def denotes (letters : Lower) (route : SubmitRoute) (body : Body) : Option String :=
  match route with
  | .action => namedAction (body.text "customId")
  | .change => some (body.text "action")
  | .simpleChange => (contentParams letters (body.text "content")).map ChangeParams.action
  | .modal => some "MODAL"
  | .shorten => some "SHORTEN"
  | .imagine => some "IMAGINE"
  | .describe => some "DESCRIBE"
  | .blend => some "BLEND"
  | .edits => some "EDITS"
  | .video => some "VIDEO"
  | .upload => some "UPLOAD"

/-- The task that a body refers to. -/
def refersTo (letters : Lower) (route : SubmitRoute) (body : Body) : Option String :=
  match route with
  | .action | .change | .modal | .video =>
    if body.text "taskId" = "" then none else some (body.text "taskId")
  | .simpleChange => (contentParams letters (body.text "content")).map ChangeParams.taskId
  | _ => none

/-- The request goes to the channel of a task of the caller with this id, with a key of it. -/
def Follows (env : Context) (f : Forwarded) (mjId : String) : Prop :=
  ∃ x ∈ env.tasks.rows, x.mjId = mjId ∧ x.userId = env.userId ∧ x.channelId = f.channelId ∧
    ∃ channel, env.channels x.channelId = some channel ∧ f.baseURL = channel.baseURL ∧
      ∃ key ∈ channel.keys, f.secret = secretOf key

/-- **Charged as performed**, on the channel of the task. -/
structure Performed (env : Context) (route : SubmitRoute) (f : Forwarded) : Prop where
  authorised : f.authorised = f.action
  exempt : f.consumeQuota = !isFree f.authorised
  denoted : denotes env.letters route f.body = some f.action
  origin : ∀ mjId, refersTo env.letters route f.body = some mjId →
    (∃ x ∈ env.tasks.rows, x.mjId = mjId) → Follows env f mjId
  survives : f.panics = false

def KeepsPromise (env : Context) (route : SubmitRoute) : Except Stop Forwarded → Prop
  | .ok f => Performed env route f
  | .error stop => stop ≠ .panic

/-! ## When it is kept -/

/-- The custom id has too few parts. -/
def PlusPanics (customId : String) : Prop :=
  customId ≠ "" ∧ ∀ name ∈ customName customId,
    (contains name "upsample" = true ∨ name = "variation") ∧ (splitBy customId "::").length ≤ 3

/-- The routes that look up the task that the decoded request names. -/
def looksUp : SubmitRoute → Bool
  | .action | .change | .simpleChange | .modal | .video => true
  | _ => false

def originOf (env : Context) (route : SubmitRoute) (request : MidjourneyRequest) :
    Option Midjourney :=
  if looksUp route ∧ request.taskId ≠ "" then getByMJId env.tasks env.userId request.taskId
  else none

/-- The channel of the task that was looked up, or the one that was selected. -/
def askedId (env : Context) (route : SubmitRoute) (request : MidjourneyRequest)
    (selected : Selected) : ℕ :=
  match originOf env route request with
  | some originTask => originTask.channelId
  | none => selected.id

/-- What the decoded request says agrees with what is sent. -/
def ActionAgrees (letters : Lower) (route : SubmitRoute) (request : MidjourneyRequest)
    (sent : Body) : Prop :=
  match route with
  | .action => namedAction (sent.text "customId") =
      some ((namedAction request.customId).getD request.action)
  | .change => sent.text "action" = request.action
  | .simpleChange => (contentParams letters (sent.text "content")).map ChangeParams.action =
      some request.action
  | .modal => request.taskId = "" → request.action = "MODAL"
  | _ => True

/-- The channel asked is that of a task of the caller with the id that is sent, and the key of
the channel that was selected is one of its keys. -/
def TaskAgrees (env : Context) (route : SubmitRoute) (request : MidjourneyRequest)
    (selected : Selected) (mjId : String) : Prop :=
  ∃ x ∈ env.tasks.rows, x.mjId = mjId ∧ x.userId = env.userId ∧
    x.channelId = askedId env route request selected ∧
    ∃ channel, env.channels x.channelId = some channel ∧
      (originOf env route request = none → selected.baseURL = channel.baseURL) ∧
      ∃ key ∈ channel.keys, secretOf selected.key = secretOf key

/-- A request that is forwarded, as it was decoded, authorised and sent. -/
structure Sent (env : Context) (pre : String) (route : SubmitRoute) (body : Json) where
  request : MidjourneyRequest
  decoded : unmarshal env body = some request
  action : String
  authorised : getMjRequestAction env.letters route.mode request = .ok (some action)
  selected : Selected
  chosen : env.select (covertMjpActionToModelName env.letters action) = some selected
  sent : Body
  forwarded : forwardedBody env body = some sent
  accepted : (relayMidjourney env pre route body).isOk = true

structure Agrees (env : Context) (route : SubmitRoute) (request : MidjourneyRequest)
    (selected : Selected) (sent : Body) : Prop where
  action : ActionAgrees env.letters route request sent
  task : ∀ mjId, refersTo env.letters route sent = some mjId →
    (∃ x ∈ env.tasks.rows, x.mjId = mjId) → TaskAgrees env route request selected mjId
  remains : env.code = some 3 → env.remains (askedId env route request selected) = true

/-! ## Custom ids -/

variable {request result : MidjourneyRequest} {splits : List String} {name : String}
  {env : Context} {mode : RelayMode} {selected : Selected} {plan : Plan} {route : SubmitRoute}
  {body : Json} {pre : String} {f : Forwarded}

theorem customAction_eq (customId : String) : customAction (splitBy customId "::") =
    match customName customId with | some name => .ok name | none => .error .panic := by
  unfold customAction customName index
  dsimp only
  cases h1 : (splitBy customId "::")[1]? with
  | none => simp
  | some second =>
    dsimp only
    by_cases hjob : second = "JOB"
    · cases h2 : (splitBy customId "::")[2]? <;> simp [hjob]
    · simp [hjob]

theorem withIndexed_ok {action : String} (h : request.withIndexed splits action = .ok result) :
    result.action = action ∧ result.taskId = request.taskId := by
  unfold MidjourneyRequest.withIndexed at h
  split at h
  · cases h
  · cases h
    exact ⟨rfl, rfl⟩

theorem withIndexed_panic {action : String} :
    request.withIndexed splits action = .error .panic ↔ splits.length ≤ 3 := by
  unfold MidjourneyRequest.withIndexed parseIndex index
  rw [← List.getElem?_eq_none_iff]
  cases splits[3]? with
  | none => simp
  | some s => cases hs : atoi s <;> simp [hs]

theorem cover_ok (h : request.cover splits name = .ok result) :
    result.action = (plusAction name).getD request.action ∧ result.taskId = request.taskId := by
  unfold MidjourneyRequest.cover at h
  unfold plusAction
  by_cases hupsample : contains name "upsample" = true
  · rw [if_pos hupsample] at h ⊢
    exact withIndexed_ok h
  rw [if_neg hupsample] at h ⊢
  by_cases hvariation : contains name "variation" = true
  · rw [if_pos hvariation] at h ⊢
    split at h
    · rename_i hname
      rw [if_pos hname]
      exact withIndexed_ok h
    rename_i hname
    rw [if_neg hname]
    split_ifs at h ⊢
    all_goals cases h; exact ⟨rfl, rfl⟩
  rw [if_neg hvariation] at h ⊢
  split_ifs at h ⊢
  all_goals cases h; exact ⟨rfl, rfl⟩

theorem cover_panic : request.cover splits name = .error .panic ↔
    (contains name "upsample" = true ∨ name = "variation") ∧ splits.length ≤ 3 := by
  unfold MidjourneyRequest.cover
  by_cases hup : contains name "upsample" = true
  · rw [if_pos hup, withIndexed_panic]
    simp [hup]
  by_cases hname : name = "variation"
  · rw [if_neg hup, hname, if_pos (by decide), if_pos rfl, withIndexed_panic]
    simp
  · rw [if_neg hup]
    refine iff_of_false ?_ fun h => h.1.elim hup hname
    rw [if_neg hname]
    split_ifs
    all_goals nofun

theorem coverPlus_ok (h : coverPlusActionToNormalAction request = .ok result) :
    result.action = (namedAction request.customId).getD request.action ∧
      result.taskId = request.taskId := by
  unfold coverPlusActionToNormalAction at h
  split at h
  · cases h
  dsimp only at h
  rw [customAction_eq] at h
  cases hname : customName request.customId with
  | none =>
    rw [hname] at h
    cases h
  | some name =>
    rw [hname] at h
    dsimp only at h
    split at h
    · cases h
    · rw [namedAction, hname]
      exact cover_ok h

theorem coverPlus_panic :
    coverPlusActionToNormalAction request = .error .panic ↔ PlusPanics request.customId := by
  unfold coverPlusActionToNormalAction PlusPanics
  by_cases hempty : request.customId = ""
  · rw [if_pos hempty]
    simp [hempty]
  rw [if_neg hempty]
  dsimp only
  rw [customAction_eq]
  cases hname : customName request.customId with
  | none => simp [hempty]
  | some name =>
    dsimp only
    by_cases hnone : name = ""
    · rw [if_pos hnone]
      have hcontains : contains "" "upsample" = false := by decide
      simp [hnone, hcontains]
    · rw [if_neg hnone, cover_panic]
      simp [hempty]

/-! ## The action and the channel of a request that is sent -/

/-- The action that is recorded. -/
def recordedAction (route : SubmitRoute) (request : MidjourneyRequest) : String :=
  match route with
  | .action => (namedAction request.customId).getD request.action
  | .change | .simpleChange => request.action
  | .modal => if request.taskId = "" then request.action else "MODAL"
  | .shorten => "SHORTEN"
  | .imagine => "IMAGINE"
  | .describe => "DESCRIBE"
  | .blend => "BLEND"
  | .edits => "EDITS"
  | .video => "VIDEO"
  | .upload => "UPLOAD"

theorem originChannel_ok {mjId : String} (h : originChannel env mode mjId request = .ok plan) :
    ∃ originTask channel, getByMJId env.tasks env.userId mjId = some originTask ∧
      env.channels originTask.channelId = some channel ∧
      plan.request.action = request.action ∧ plan.channelId = originTask.channelId ∧
      plan.baseURL = channel.baseURL := by
  unfold originChannel at h
  cases horigin : getByMJId env.tasks env.userId mjId with
  | none =>
    rw [horigin] at h
    cases h
  | some originTask =>
    rw [horigin] at h
    dsimp only at h
    split at h
    · cases h
    cases hchannel : env.channels originTask.channelId with
    | none =>
      rw [hchannel] at h
      cases h
    | some channel =>
      rw [hchannel] at h
      dsimp only at h
      split at h
      · cases h
        exact ⟨originTask, channel, rfl, hchannel, rfl, rfl, rfl⟩
      · cases h

/-- Where a request has come to: its action, and the channel of the task it names, or the one
that was selected. -/
structure Planned (env : Context) (route : SubmitRoute) (request : MidjourneyRequest)
    (selected : Selected) (plan : Plan) : Prop where
  action : plan.request.action = recordedAction route request
  channelId : plan.channelId = askedId env route request selected
  selected : originOf env route request = none → plan.baseURL = selected.baseURL
  origin : ∀ originTask, originOf env route request = some originTask →
    ∃ channel, env.channels originTask.channelId = some channel ∧ plan.baseURL = channel.baseURL

theorem Planned.stay (h : originOf env route request = none)
    (haction : result.action = recordedAction route request) :
    Planned env route request selected ⟨result, selected.id, selected.baseURL⟩ := by
  refine ⟨haction, ?_, fun _ => rfl, fun originTask ho => ?_⟩
  · rw [askedId, h]
  · rw [h] at ho
    cases ho

theorem Planned.follow {mjId : String} (hlooks : looksUp route = true) (htask : request.taskId ≠ "")
    (hid : mjId = request.taskId) (haction : result.action = recordedAction route request)
    (h : originChannel env mode mjId result = .ok plan) :
    Planned env route request selected plan := by
  obtain ⟨originTask, channel, horigin, hchannel, hplan, hplanId, hplanURL⟩ := originChannel_ok h
  have hof : originOf env route request = some originTask := by
    rw [originOf, if_pos ⟨hlooks, htask⟩, ← hid, horigin]
  refine ⟨hplan.trans haction, ?_, fun hnone => ?_, fun o ho => ?_⟩
  · rw [askedId, hof]
    exact hplanId
  · rw [hof] at hnone
    cases hnone
  · rw [hof] at ho
    cases ho
    exact ⟨channel, hchannel, hplanURL⟩

/-- A request that goes on in a mode that looks a task up. -/
theorem planned_of_looksUp (mode : RelayMode) (after : MidjourneyRequest) {action : String}
    (hlooks : looksUp route = true) (htaskId : after.taskId = request.taskId)
    (horiginId : ∀ mjId r, originId env.letters mode after = .ok (mjId, r) →
      request.taskId ≠ "" → mjId = request.taskId ∧ r.action = recordedAction route request)
    (haction : request.taskId = "" → action = recordedAction route request)
    (h : (if after.taskId = "" then
        (.ok ⟨{ after with action := action }, selected.id, selected.baseURL⟩ : Except Stop Plan)
      else
        match originId env.letters mode after with
        | .error stop => .error stop
        | .ok (mjId, r) => originChannel env mode mjId r) = .ok plan) :
    Planned env route request selected plan := by
  rw [htaskId] at h
  by_cases hempty : request.taskId = ""
  · rw [if_pos hempty] at h
    cases h
    exact .stay (by simp [originOf, hempty]) (haction hempty)
  · rw [if_neg hempty] at h
    cases horigin : originId env.letters mode after with
    | error stop =>
      rw [horigin] at h
      cases h
    | ok out =>
      obtain ⟨mjId, r⟩ := out
      rw [horigin] at h
      obtain ⟨hid, hr⟩ := horiginId mjId r horigin hempty
      exact .follow hlooks hempty hid hr h

theorem originId_change {letters : Lower} {mjId : String}
    (h : originId letters .change request = .ok (mjId, result)) :
    mjId = request.taskId ∧ result = request := by
  unfold originId at h
  dsimp only at h
  split_ifs at h
  cases h
  exact ⟨rfl, rfl⟩

/-- A change keeps the action and the task of the request that it is made from. -/
theorem planned_change (after : MidjourneyRequest) (hlooks : looksUp route = true)
    (htaskId : after.taskId = request.taskId)
    (haction : after.action = recordedAction route request)
    (h : env.plan .change selected after = .ok plan) :
    Planned env route request selected plan := by
  refine planned_of_looksUp .change after hlooks htaskId (fun mjId r horigin _ => ?_)
    (fun _ => haction) h
  obtain ⟨rfl, rfl⟩ := originId_change horigin
  exact ⟨htaskId, haction⟩

theorem plan_imagine (h : env.plan .imagine selected request = .ok plan) :
    plan = ⟨{ request with action := "IMAGINE" }, selected.id, selected.baseURL⟩ := by
  by_cases hprompt : request.prompt = ""
  · have hplan : env.plan .imagine selected request =
        .error (.refused "prompt_is_required") := if_pos hprompt
    cases hplan.symm.trans h
  · have hplan : env.plan .imagine selected request =
        .ok ⟨{ request with action := "IMAGINE" }, selected.id, selected.baseURL⟩ :=
      if_neg hprompt
    exact (Except.ok.inj (hplan.symm.trans h)).symm

theorem plan_spec {modeAfter : RelayMode}
    (hconvert : convertMode route.mode request = .ok (modeAfter, result))
    (h : env.plan modeAfter selected result = .ok plan) :
    Planned env route request selected plan := by
  cases route with
  | action =>
    show Planned env .action request selected plan
    have hconvert : convertMode .action request = .ok (modeAfter, result) := hconvert
    unfold convertMode at hconvert
    dsimp only at hconvert
    cases hcover : coverPlusActionToNormalAction request with
    | error stop =>
      rw [hcover] at hconvert
      cases hconvert
    | ok covered =>
      rw [hcover] at hconvert
      cases hconvert
      obtain ⟨haction, htaskId⟩ := coverPlus_ok hcover
      exact planned_change result rfl htaskId haction h
  | change =>
    cases hconvert
    exact planned_change request rfl rfl rfl h
  | simpleChange =>
    cases hconvert
    exact planned_change request rfl rfl rfl h
  | modal =>
    cases hconvert
    refine planned_of_looksUp .modal request rfl rfl (fun mjId r horigin htask => ?_)
      (fun hempty => ?_) h
    · cases horigin
      exact ⟨rfl, (if_neg htask).symm⟩
    · exact (if_pos hempty).symm
  | video =>
    cases hconvert
    refine planned_of_looksUp .video { request with action := "VIDEO" } rfl rfl
      (fun mjId r horigin htask => ?_) (fun _ => rfl) h
    rw [originId, if_neg htask] at horigin
    cases horigin
    exact ⟨rfl, rfl⟩
  | imagine =>
    cases hconvert
    cases plan_imagine h
    exact .stay rfl rfl
  | describe =>
    cases hconvert
    cases h
    exact .stay rfl rfl
  | blend =>
    cases hconvert
    cases h
    exact .stay rfl rfl
  | edits =>
    cases hconvert
    cases h
    exact .stay rfl rfl
  | shorten =>
    cases hconvert
    cases h
    exact .stay rfl rfl
  | upload =>
    cases hconvert
    cases h
    exact .stay rfl rfl

/-- The action that a request is authorised by. -/
def authorisedAction (route : SubmitRoute) (request : MidjourneyRequest) : String :=
  match route with
  | .modal => "MODAL"
  | route => recordedAction route request

theorem getMjRequestAction_of_ne {letters : Lower} (h : route ≠ .action) :
    getMjRequestAction letters route.mode request =
      .ok (some (authorisedAction route request)) := by
  cases route
  all_goals first
    | rfl
    | exact absurd rfl h

theorem convertMode_of_ne (request : MidjourneyRequest) (h : route ≠ .action) :
    ∃ result, convertMode route.mode request = .ok (route.mode, result) := by
  cases route
  all_goals first
    | exact ⟨_, rfl⟩
    | exact absurd rfl h

/-- What the two readings of a custom id come to. -/
theorem action_cases (letters : Lower) (request : MidjourneyRequest) :
    (∃ stop, coverPlusActionToNormalAction request = .error stop ∧
      getMjRequestAction letters .action request = .error stop ∧
      convertMode .action request = .error stop) ∨
    ∃ result, coverPlusActionToNormalAction request = .ok result ∧
      getMjRequestAction letters .action request = .ok (some result.action) ∧
      convertMode .action request = .ok (.change, result) := by
  unfold getMjRequestAction convertMode
  dsimp only
  cases coverPlusActionToNormalAction request with
  | error stop => exact .inl ⟨stop, rfl, rfl, rfl⟩
  | ok result => exact .inr ⟨result, rfl, rfl, rfl⟩

theorem getMjRequestAction_ok {letters : Lower} {action : String}
    (h : getMjRequestAction letters route.mode request = .ok (some action)) :
    action = authorisedAction route request := by
  by_cases haction : route = .action
  · subst haction
    rcases action_cases letters request with ⟨stop, -, hread, -⟩ | ⟨result, hcover, hread, -⟩
    · cases hread.symm.trans h
    · cases hread.symm.trans h
      exact (coverPlus_ok hcover).1
  · cases (getMjRequestAction_of_ne haction).symm.trans h
    rfl

theorem send_ok {authorised : String} (h : env.send selected authorised body plan = .ok f) :
    ∃ sent, forwardedBody env body = some sent ∧
      f = ⟨authorised, plan.request.action, !isFree plan.request.action, plan.channelId,
        plan.baseURL, secretOf selected.key, sent,
        decide (env.code = some 3) && !env.remains plan.channelId⟩ := by
  unfold Context.send at h
  dsimp only at h
  split at h
  · split at h
    · cases h
    cases hsent : forwardedBody env body with
    | none =>
      rw [hsent] at h
      cases h
    | some sent =>
      rw [hsent] at h
      cases h
      exact ⟨sent, rfl, rfl⟩
  · cases h

/-- A request that is forwarded has been decoded, authorised, planned and sent. -/
theorem relayMidjourney_ok (h : relayMidjourney env pre route body = .ok f) :
    ∃ request selected plan sent, unmarshal env body = some request ∧
      getMjRequestAction env.letters route.mode request =
        .ok (some (authorisedAction route request)) ∧
      env.select (covertMjpActionToModelName env.letters (authorisedAction route request)) =
        some selected ∧
      Planned env route request selected plan ∧ forwardedBody env body = some sent ∧
      f = ⟨authorisedAction route request, plan.request.action, !isFree plan.request.action,
        plan.channelId, plan.baseURL, secretOf selected.key, sent,
        decide (env.code = some 3) && !env.remains plan.channelId⟩ := by
  unfold relayMidjourney at h
  dsimp only at h
  rw [path2RelayModeMidjourney_route] at h
  cases hrequest : unmarshal env body with
  | none =>
    rw [hrequest] at h
    cases h
  | some request =>
    rw [hrequest] at h
    dsimp only at h
    cases haction : getMjRequestAction env.letters route.mode request with
    | error stop =>
      rw [haction] at h
      cases h
    | ok action =>
      rw [haction] at h
      cases action with
      | none => cases h
      | some action =>
        have hauthorised := getMjRequestAction_ok haction
        subst hauthorised
        dsimp only at h
        split at h
        · cases h
        rename_i selected hselected
        unfold relayMidjourneySubmit at h
        cases hconvert : convertMode route.mode request with
        | error stop =>
          rw [hconvert] at h
          cases h
        | ok out =>
          rw [hconvert] at h
          dsimp only at h
          cases hplan : env.plan out.1 selected out.2 with
          | error stop =>
            rw [hplan] at h
            cases h
          | ok plan =>
            rw [hplan] at h
            obtain ⟨sent, hsent, hf⟩ := send_ok h
            exact ⟨request, selected, plan, sent, rfl, haction, hselected,
              plan_spec hconvert hplan, hsent, hf⟩

/-! ## Panics -/

theorem originChannel_ne_panic {mjId : String} :
    originChannel env mode mjId request ≠ .error .panic := by
  unfold originChannel
  split
  · nofun
  split
  · nofun
  split
  · nofun
  split
  · nofun
  · nofun

theorem originId_ne_panic {letters : Lower} (h : mode ≠ .simpleChange) :
    originId letters mode request ≠ .error .panic := by
  unfold originId
  split
  · split_ifs <;> nofun
  · exact absurd rfl h
  · nofun
  · split_ifs <;> nofun
  · nofun

theorem plan_ne_panic (h : mode ≠ .simpleChange) :
    env.plan mode selected request ≠ .error .panic := by
  unfold Context.plan
  dsimp only
  split
  · split
    · nofun
    · nofun
  · nofun
  · nofun
  · nofun
  · nofun
  · nofun
  · split
    · nofun
    cases horigin : originId env.letters mode request with
    | error stop =>
      intro hstop
      cases hstop
      exact originId_ne_panic h horigin
    | ok out => exact originChannel_ne_panic

theorem send_ne_panic {authorised : String} :
    env.send selected authorised body plan ≠ .error .panic := by
  unfold Context.send
  dsimp only
  split
  · split
    · nofun
    split
    · nofun
    · nofun
  · nofun

theorem getMjRequestAction_panic (letters : Lower) (route : SubmitRoute)
    (request : MidjourneyRequest) :
    getMjRequestAction letters route.mode request = .error .panic ↔
      route = .action ∧ PlusPanics request.customId := by
  by_cases haction : route = .action
  · subst haction
    rw [← coverPlus_panic]
    show getMjRequestAction letters .action request = _ ↔ _
    rcases action_cases letters request with ⟨stop, hcover, hread, -⟩ | ⟨result, hcover, hread, -⟩
    · rw [hread, hcover]
      simp
    · rw [hread, hcover]
      simp
  · rw [getMjRequestAction_of_ne haction]
    exact iff_of_false nofun fun h => haction h.1

/-- The second reading panics only where the first one does, and goes on in a mode that does
not split a content. -/
theorem convertMode_spec : (convertMode route.mode request = .error .panic →
      route = .action ∧ PlusPanics request.customId) ∧
    ∀ mode result, convertMode route.mode request = .ok (mode, result) → mode ≠ .simpleChange := by
  by_cases haction : route = .action
  · subst haction
    rw [← coverPlus_panic, show SubmitRoute.action.mode = .action from rfl]
    rcases action_cases ⟨id, fun _ => rfl, fun _ => rfl⟩ request with
      ⟨stop, hcover, -, hread⟩ | ⟨result, hcover, -, hread⟩
    · rw [hread, hcover]
      refine ⟨fun h => ⟨rfl, ?_⟩, fun mode result h => by cases h⟩
      rw [Except.error.inj h]
    · rw [hread]
      refine ⟨nofun, fun mode result h => ?_⟩
      cases h
      nofun
  · obtain ⟨result, hread⟩ := convertMode_of_ne request haction
    rw [hread]
    refine ⟨nofun, fun mode result h => ?_⟩
    cases h
    cases route <;> nofun

/-- Only a custom id with too few parts makes a request panic before it is sent. -/
theorem relayMidjourney_panic (env : Context) (pre : String) (route : SubmitRoute) (body : Json) :
    relayMidjourney env pre route body = .error .panic ↔
      ∃ request, unmarshal env body = some request ∧ route = .action ∧
        PlusPanics request.customId := by
  unfold relayMidjourney
  dsimp only
  rw [path2RelayModeMidjourney_route]
  cases unmarshal env body with
  | none => simp
  | some request =>
    dsimp only
    have hpanic := getMjRequestAction_panic env.letters route request
    simp only [Option.some.injEq, exists_eq_left']
    rw [← hpanic]
    cases haction : getMjRequestAction env.letters route.mode request with
    | error stop => simp
    | ok action =>
      refine iff_of_false ?_ nofun
      cases action with
      | none => nofun
      | some action =>
        dsimp only
        split
        · nofun
        rename_i selected _
        unfold relayMidjourneySubmit
        cases hconvert : convertMode route.mode request with
        | error stop =>
          intro h
          cases h
          rw [hpanic.mpr (convertMode_spec.1 hconvert)] at haction
          cases haction
        | ok out =>
          dsimp only
          cases hplan : env.plan out.1 selected out.2 with
          | error stop =>
            intro h
            cases h
            exact plan_ne_panic (convertMode_spec.2 _ _ hconvert) hplan
          | ok plan => exact send_ne_panic

/-! ## When a request is performed as it was authorised -/

theorem denotes_iff {letters : Lower} {sent : Body} :
    denotes letters route sent = some (recordedAction route request) ∧
        authorisedAction route request = recordedAction route request ↔
      ActionAgrees letters route request sent := by
  cases route with
  | action => exact and_iff_left rfl
  | change =>
    refine (and_iff_left rfl).trans ?_
    exact Option.some_inj
  | simpleChange => exact and_iff_left rfl
  | modal =>
    show some "MODAL" = some (if request.taskId = "" then request.action else "MODAL") ∧
      "MODAL" = (if request.taskId = "" then request.action else "MODAL") ↔
        (request.taskId = "" → request.action = "MODAL")
    by_cases h : request.taskId = ""
    · rw [if_pos h]
      constructor
      · exact fun hboth _ => hboth.2.symm
      · intro hall
        rw [hall h]
        exact ⟨rfl, rfl⟩
    · rw [if_neg h]
      exact iff_of_true ⟨rfl, rfl⟩ fun hempty => absurd hempty h
  | shorten => exact iff_of_true ⟨rfl, rfl⟩ trivial
  | imagine => exact iff_of_true ⟨rfl, rfl⟩ trivial
  | describe => exact iff_of_true ⟨rfl, rfl⟩ trivial
  | blend => exact iff_of_true ⟨rfl, rfl⟩ trivial
  | edits => exact iff_of_true ⟨rfl, rfl⟩ trivial
  | video => exact iff_of_true ⟨rfl, rfl⟩ trivial
  | upload => exact iff_of_true ⟨rfl, rfl⟩ trivial

/-- The channel of a planned request is that of the task exactly if the two agree. -/
theorem follows_iff {mjId : String} (h : Planned env route request selected plan)
    (hid : f.channelId = plan.channelId) (hurl : f.baseURL = plan.baseURL)
    (hsecret : f.secret = secretOf selected.key) :
    Follows env f mjId ↔ TaskAgrees env route request selected mjId := by
  have hchannel : ∀ x : Midjourney, x.channelId = askedId env route request selected →
      ∀ channel, env.channels x.channelId = some channel →
        (f.baseURL = channel.baseURL ↔
          (originOf env route request = none → selected.baseURL = channel.baseURL)) := by
    intro x hx channel hfound
    rw [hurl]
    cases horigin : originOf env route request with
    | none =>
      rw [h.selected horigin]
      simp
    | some originTask =>
      obtain ⟨channel', hchannel', hbase⟩ := h.origin originTask horigin
      rw [hx, askedId, horigin] at hfound
      cases hchannel'.symm.trans hfound
      simp [hbase]
  unfold Follows TaskAgrees
  rw [hid, h.channelId, hsecret]
  constructor
  · rintro ⟨x, hx, hmj, huser, hasked, channel, hfound, hbase, hkey⟩
    exact ⟨x, hx, hmj, huser, hasked, channel, hfound, (hchannel x hasked channel hfound).mp hbase,
      hkey⟩
  · rintro ⟨x, hx, hmj, huser, hasked, channel, hfound, hbase, hkey⟩
    exact ⟨x, hx, hmj, huser, hasked, channel, hfound, (hchannel x hasked channel hfound).mpr hbase,
      hkey⟩

theorem performed_of_planned {sent : Body} (h : Planned env route request selected plan) :
    Performed env route ⟨authorisedAction route request, plan.request.action,
      !isFree plan.request.action, plan.channelId, plan.baseURL, secretOf selected.key, sent,
      decide (env.code = some 3) && !env.remains plan.channelId⟩ ↔
      Agrees env route request selected sent := by
  constructor
  · rintro ⟨hauthorised, -, hdenoted, horigin, hsurvives⟩
    dsimp only at hauthorised hdenoted hsurvives
    rw [h.action] at hauthorised hdenoted
    refine ⟨denotes_iff.mp ⟨hdenoted, hauthorised⟩, fun mjId hrefers hexists => ?_, fun hcode => ?_⟩
    · exact (follows_iff h rfl rfl rfl).mp (horigin mjId hrefers hexists)
    · rw [← h.channelId]
      rw [hcode] at hsurvives
      simpa using hsurvives
  · rintro ⟨haction, htask, hremains⟩
    obtain ⟨hdenoted, hauthorised⟩ := denotes_iff.mpr haction
    constructor
    · exact hauthorised.trans h.action.symm
    · show (!isFree plan.request.action) = !isFree (authorisedAction route request)
      rw [h.action, hauthorised]
    · exact hdenoted.trans (congrArg some h.action.symm)
    · intro mjId hrefers hexists
      exact (follows_iff h rfl rfl rfl).mpr (htask mjId hrefers hexists)
    · rw [h.channelId, Bool.and_eq_false_iff, decide_eq_false_iff_not, Bool.not_eq_false']
      by_cases hcode : env.code = some 3
      · exact .inr (hremains hcode)
      · exact .inl hcode

/-- A user without tasks, one channel, and a price of 500 for every model. -/
def sampleContext : Context :=
  { userId := 7, tasks := .empty, channels := fun _ => some ⟨"http://mj", true, ["key"]⟩
    select := fun _ => some ⟨3, "http://mj", "key"⟩, price := fun _ => some 500
    userQuota := some 1000, checkSuccess := false, accountFilter := false, notify := false
    modeClear := false, letters := .same, readInt := fun _ => none, float := some
    validRest := fun _ => true, code := some 1, remains := fun _ => true }

/-- The content asks for an upscale, the action says otherwise. -/
def sampleChange : Json :=
  .object [("content", .string "1320098173412546 u1"), ("action", .string "INPAINT")]

end Midjourneys.FollowUp
