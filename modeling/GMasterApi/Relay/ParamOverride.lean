import GMasterApi.Lib.GoMap
import GMasterApi.Lib.GoValue

/-!
# The parameter override of a channel

`ApplyParamOverride` runs the operations that a channel is configured with on the body
of a request and on the headers in its context.  The operations on headers are given in
full; what the others do to a body, and what `gjson` and `sjson` do, is an `Engine`.
-/

namespace Override

open GoMap GoString GoValue

/-! ## Operations -/

structure ConditionOperation where
  path : String
  mode : String
  value : Value
  invert : Bool
  passMissingKey : Bool

/-- `source` and `target` are `from` and `to`. -/
structure ParamOperation where
  path : String
  mode : String
  value : Value
  keepOrigin : Bool
  source : String
  target : String
  conditions : List ConditionOperation
  logic : String

structure ReturnError where
  message : String
  statusCode : ℤ
  code : String
  type : String
  skipRetry : Bool
  deriving DecidableEq

inductive OverrideError
  | text (e : String)
  | sourceHeaderNotFound (header : String)
  | returnError (e : ReturnError)
  deriving DecidableEq

def OverrideError.message : OverrideError → String
  | .text e => e
  | .sourceHeaderNotFound header => "source header does not exist: " ++ header
  | .returnError e => if e.message = "" then "param override return error" else e.message

/-- The error of an earlier attempt. -/
structure LastError where
  statusCode : ℤ
  message : String
  errorCode : String
  errorType : String
  skipRetry : Bool
  deriving DecidableEq

/-! ## The context -/

/-- What the context has of the request; an empty text is not in it. -/
structure ContextFields where
  upstreamModelName : String
  originModelName : String
  requestURLPath : String
  retryIndex : ℕ
  lastError : Option LastError
  isChannelTest : Bool

structure OverrideContext where
  fields : ContextFields
  requestHeaders : Map String Value
  headerOverride : Map String Value

/-- The type of a `gjson.Result`. -/
inductive ResultType
  | null
  | false
  | number
  | string
  | true
  | json
  deriving DecidableEq

def ResultType.name : ResultType → String
  | .null => "Null"
  | .false => "False"
  | .number => "Number"
  | .string => "String"
  | .true => "True"
  | .json => "JSON"

/-- A `gjson.Result` that exists. -/
structure Result where
  type : ResultType
  text : String
  num : ℚ
  value : Value

/-- What the operations rest on: letters, the order of a `range`, `gjson.GetBytes` and
`gjson.Get` of the context, `gjson.ParseBytes` of a marshalled value, `sjson.SetBytes`,
`json.Unmarshal`, negative indices in a path, and the operations on the body alone, from
`delete` to `prune_objects`. -/
structure Engine where
  letters : Lower
  toUpper : String → String
  equalFold : String → String → Bool
  order : Order (String × Value)
  get : String → String → Option Result
  getContext : ContextFields → (String → Option Value) → (String → Option Value) → String →
    Option Result
  parse : Value → Result
  set : String → String → Value → Except String String
  unmarshal : String → Option Value
  processNegativeIndex : String → String → String
  operate : ParamOperation → (String → Option Result) → String → Except String String

variable (engine : Engine)

/-- `gjson.Get(contextJSON, path)`. -/
def OverrideContext.lookup (context : OverrideContext) (path : String) : Option Result :=
  engine.getContext context.fields context.requestHeaders.get context.headerOverride.get path

def normalizeHeaderContextKey (key : String) : String := trimSpace (engine.letters.toLower key)

/-! ## Conditions -/

def compareEqual (jsonValue targetValue : Result) : Except OverrideError Bool :=
  let isBool (t : ResultType) : Bool := t = .true || t = .false
  if jsonValue.type = .null ∨ targetValue.type = .null then
    .ok (jsonValue.type = .null ∧ targetValue.type = .null)
  else if isBool jsonValue.type ∧ isBool targetValue.type then
    .ok (jsonValue.type = targetValue.type)
  else if jsonValue.type ≠ targetValue.type then
    .error (.text ("compare for different types, got " ++ jsonValue.type.name ++ " and " ++
      targetValue.type.name))
  else if jsonValue.type = .number then .ok (jsonValue.num = targetValue.num)
  else .ok (jsonValue.text = targetValue.text)

def compareNumeric (jsonValue targetValue : Result) (holds : ℚ → ℚ → Bool) :
    Except OverrideError Bool :=
  if jsonValue.type ≠ .number ∨ targetValue.type ≠ .number then
    .error (.text ("numeric comparison requires both values to be numbers, got " ++
      jsonValue.type.name ++ " and " ++ targetValue.type.name))
  else .ok (holds jsonValue.num targetValue.num)

def compareGjsonValues (jsonValue targetValue : Result) (mode : String) :
    Except OverrideError Bool :=
  if mode = "full" then compareEqual jsonValue targetValue
  else if mode = "prefix" then .ok (hasPrefix jsonValue.text targetValue.text)
  else if mode = "suffix" then .ok (hasSuffix jsonValue.text targetValue.text)
  else if mode = "contains" then .ok (contains jsonValue.text targetValue.text)
  else if mode = "gt" then compareNumeric jsonValue targetValue fun x y => y < x
  else if mode = "gte" then compareNumeric jsonValue targetValue fun x y => y ≤ x
  else if mode = "lt" then compareNumeric jsonValue targetValue fun x y => x < y
  else if mode = "lte" then compareNumeric jsonValue targetValue fun x y => x ≤ y
  else .error (.text ("unsupported comparison mode: " ++ mode))

def checkSingleCondition (data : String) (context : OverrideContext)
    (condition : ConditionOperation) : Except OverrideError Bool :=
  match (engine.get data (engine.processNegativeIndex data condition.path)).or
      (context.lookup engine condition.path) with
  | none => .ok condition.passMissingKey
  | some value =>
    match compareGjsonValues value (engine.parse condition.value)
        (engine.letters.toLower condition.mode) with
    | .error e => .error (.text ("comparison failed for path " ++ condition.path ++ ": " ++ e.message))
    | .ok result => .ok (result != condition.invert)

def checkConditions (data : String) (context : OverrideContext)
    (conditions : List ConditionOperation) (logic : String) : Except OverrideError Bool :=
  if conditions = [] then .ok true
  else match conditions.mapM (checkSingleCondition engine data context) with
    | .error e => .error e
    | .ok results =>
      if engine.toUpper logic = "AND" then .ok (results.all id) else .ok (results.any id)

/-! ## Headers of the context -/

/-- The header of the override, or else of the request. -/
def getHeaderValueFromContext (context : OverrideContext) (headerName : String) : Option String :=
  let headerName := normalizeHeaderContextKey engine headerName
  if headerName = "" then none
  else [context.headerOverride, context.requestHeaders].findSome? fun source =>
    ((source.get headerName).map fun raw => trimSpace raw.sprint).filter fun value => value ≠ ""

def splitHeaderListValue (raw : String) : List String :=
  ((split raw ',').map trimSpace).filter fun token => token ≠ ""

mutual

def parseHeaderReplacementTokens : Value → Except OverrideError (List String)
  | .null => .ok []
  | .string raw => .ok (splitHeaderListValue raw)
  | .array items =>
    match parseReplacementItems items with
    | .error e => .error e
    | .ok tokens => .ok tokens.eraseDups
  | .object _ => .error (.text "header replacement value must be string, array or null")
  | value =>
    let token := trimSpace value.sprint
    .ok (if token = "" then [] else [token])

def parseReplacementItems : List Value → Except OverrideError (List String)
  | [] => .ok []
  | item :: items =>
    match parseHeaderReplacementTokens item, parseReplacementItems items with
    | .error e, _ => .error e
    | .ok _, .error e => .error e
    | .ok itemTokens, .ok tokens => .ok (itemTokens ++ tokens)

end

/-- What a mapping makes of the tokens of a header; `none` removes the header. -/
def resolveHeaderOverrideValueByMapping (context : OverrideContext) (headerName : String)
    (mapping : List (String × Value)) : Except OverrideError (Option String) :=
  if mapping = [] then .error (.text "header value mapping cannot be empty")
  else
    let appended : Except OverrideError (List String) := match Value.field mapping "$append" with
      | none => .ok []
      | some raw => parseHeaderReplacementTokens raw
    match appended with
    | .error e => .error e
    | .ok appendTokens =>
      let keepOnlyDeclared := (Value.boolField mapping "$keep_only_declared").getD false
      let sourceTokens :=
        ((getHeaderValueFromContext engine context headerName).map splitHeaderListValue).getD []
      let wildcard := if keepOnlyDeclared then none else Value.field mapping "*"
      let replaced := sourceTokens.mapM fun token =>
        match (Value.field mapping token).or wildcard with
        | some replacement => parseHeaderReplacementTokens replacement
        | none => .ok (if keepOnlyDeclared then [] else [token])
      match replaced with
      | .error e => .error e
      | .ok tokens =>
        let resultTokens := (tokens.flatten ++ appendTokens).eraseDups
        .ok (if resultTokens = [] then none else some (join resultTokens ','))

def resolveHeaderOverrideValue (context : OverrideContext) (headerName : String) :
    Value → Except OverrideError (Option String)
  | .null => .error (.text "header value is required")
  | .object mapping => resolveHeaderOverrideValueByMapping engine context headerName mapping
  | value =>
    let headerValue := trimSpace value.sprint
    .ok (if headerValue = "" then none else some headerValue)

def setHeaderOverrideInContext (context : OverrideContext) (headerName : String) (value : Value)
    (keepOrigin : Bool) : Except OverrideError OverrideContext :=
  let headerName := normalizeHeaderContextKey engine headerName
  let existing := ((context.headerOverride.get headerName).map fun v => trimSpace v.sprint).getD ""
  if headerName = "" then .error (.text "header name is required")
  else if keepOrigin ∧ existing ≠ "" then .ok context
  else match resolveHeaderOverrideValue engine context headerName value with
    | .error e => .error e
    | .ok none => .ok { context with headerOverride := context.headerOverride.delete headerName }
    | .ok (some headerValue) =>
      .ok { context with headerOverride := context.headerOverride.put headerName (.string headerValue) }

def copyHeaderInContext (context : OverrideContext) (fromHeader toHeader : String)
    (keepOrigin : Bool) : Except OverrideError OverrideContext :=
  let fromHeader := normalizeHeaderContextKey engine fromHeader
  let toHeader := normalizeHeaderContextKey engine toHeader
  if fromHeader = "" ∨ toHeader = "" then .error (.text "copy_header from/to is required")
  else match getHeaderValueFromContext engine context fromHeader with
    | none => .error (.sourceHeaderNotFound fromHeader)
    | some value => setHeaderOverrideInContext engine context toHeader (.string value) keepOrigin

def deleteHeaderOverrideInContext (context : OverrideContext) (headerName : String) :
    Except OverrideError OverrideContext :=
  let headerName := normalizeHeaderContextKey engine headerName
  if headerName = "" then .error (.text "header name is required")
  else .ok { context with headerOverride := context.headerOverride.delete headerName }

def moveHeaderInContext (context : OverrideContext) (fromHeader toHeader : String)
    (keepOrigin : Bool) : Except OverrideError OverrideContext :=
  let fromHeader := normalizeHeaderContextKey engine fromHeader
  let toHeader := normalizeHeaderContextKey engine toHeader
  if fromHeader = "" ∨ toHeader = "" then .error (.text "move_header from/to is required")
  else match copyHeaderInContext engine context fromHeader toHeader keepOrigin with
    | .error e => .error e
    | .ok context =>
      if engine.equalFold fromHeader toHeader then .ok context
      else deleteHeaderOverrideInContext engine context fromHeader

/-- A source header that is not there is no error of `copy_header` and `move_header`. -/
def skipNotFound (context : OverrideContext) :
    Except OverrideError OverrideContext → Except OverrideError OverrideContext
  | .error (.sourceHeaderNotFound _) => .ok context
  | result => result

/-- The header of `copy_header` and `move_header` is that of the path where it is not
given. -/
def headerOr (header path : String) : String :=
  if trimSpace header = "" then trimSpace path else trimSpace header

/-! ### `pass_headers` -/

def headerNames (values : List String) : List String :=
  ((values.map (normalizeHeaderContextKey engine)).filter fun name => name ≠ "").eraseDups

def passHeadersInvalid : OverrideError := .text "pass_headers value is invalid"

def nonEmptyNames (names : List String) : Except OverrideError (List String) :=
  if names = [] then .error passHeadersInvalid else .ok names

/-- `parseHeaderPassThroughNames`; a text may hold the JSON of the names, and what is read
out of it is smaller. -/
def passThroughNames : ℕ → Value → Except OverrideError (List String)
  | 0, _ => .error passHeadersInvalid
  | fuel + 1, value =>
    match value with
    | .null => .error (.text "pass_headers value is required")
    | .string raw =>
      let trimmed := trimSpace raw
      if trimmed = "" then .error (.text "pass_headers value is required")
      else
        let parsed := if hasPrefix trimmed "[" || hasPrefix trimmed "\x7b" then
          engine.unmarshal trimmed else none
        match parsed with
        | some parsed => passThroughNames fuel parsed
        | none => nonEmptyNames (headerNames engine (split trimmed ','))
    | .array items => nonEmptyNames (headerNames engine (items.map Value.sprint))
    | .object fields =>
      let candidates := ["headers", "names", "header"].flatMap fun key =>
        match (Value.field fields key).map (passThroughNames fuel) with
        | some (.ok names) => names
        | _ => []
      nonEmptyNames (headerNames engine candidates)
    | _ => .error (.text "pass_headers value must be string, array or object")

def parseHeaderPassThroughNames (value : Value) : Except OverrideError (List String) :=
  passThroughNames engine (value.size + 1) value

/-- The loop of `pass_headers`. -/
def passHeaders (keepOrigin : Bool) (context : OverrideContext) :
    List String → Except OverrideError OverrideContext
  | [] => .ok context
  | headerName :: names =>
    match skipNotFound context (copyHeaderInContext engine context headerName headerName keepOrigin) with
    | .error e => .error e
    | .ok context => passHeaders keepOrigin context names

/-! ### `sync_fields` -/

inductive SyncTarget
  | json (key : String)
  | header (key : String)
  deriving DecidableEq

def parseSyncTarget (spec : String) : Except OverrideError SyncTarget :=
  let raw := trimSpace spec
  if raw = "" then .error (.text "sync_fields target is required")
  else if ':' ∉ raw.toList then .ok (.json raw)
  else
    let kind := engine.letters.toLower (trimSpace (String.ofList (raw.toList.takeWhile (· ≠ ':'))))
    let key := trimSpace (String.ofList (raw.toList.dropWhile (· ≠ ':')).tail)
    if key = "" then .error (.text ("sync_fields target key is required: " ++ raw))
    else if kind = "json" ∨ kind = "body" then .ok (.json key)
    else if kind = "header" then .ok (.header key)
    else .error (.text ("sync_fields target prefix is invalid: " ++ raw))

def readSyncTargetValue (data : String) (context : OverrideContext) : SyncTarget → Option Value
  | .json key =>
    ((engine.get data (engine.processNegativeIndex data key)).filter fun value =>
      value.type ≠ .null && !(value.type = .string && trimSpace value.text = "")).map Result.value
  | .header key =>
    ((getHeaderValueFromContext engine context key).filter fun value => trimSpace value ≠ "").map
      Value.string

def writeSyncTargetValue (data : String) (context : OverrideContext) (value : Value) :
    SyncTarget → Except OverrideError (OverrideContext × String)
  | .json key =>
    match engine.set data (engine.processNegativeIndex data key) value with
    | .error e => .error (.text e)
    | .ok data => .ok (context, data)
  | .header key =>
    match setHeaderOverrideInContext engine context key value false with
    | .error e => .error e
    | .ok context => .ok (context, data)

/-- The side that is missing takes the value of the other. -/
def syncFieldsBetweenTargets (data : String) (context : OverrideContext) (fromSpec toSpec : String) :
    Except OverrideError (OverrideContext × String) :=
  match parseSyncTarget engine fromSpec, parseSyncTarget engine toSpec with
  | .error e, _ => .error e
  | .ok _, .error e => .error e
  | .ok source, .ok target =>
    match readSyncTargetValue engine data context source,
        readSyncTargetValue engine data context target with
    | some value, none => writeSyncTargetValue engine data context value target
    | none, some value => writeSyncTargetValue engine data context value source
    | _, _ => .ok (context, data)

/-! ### `return_error` -/

def parseOverrideInt : Value → Option ℤ
  | .number value _ => if value.den = 1 then some value.num else none
  | _ => none

/-- `status_code`, or else `status`; 400 where there is none. -/
def returnStatus (fields : List (String × Value)) : Except OverrideError ℤ :=
  match Value.field fields "status_code", Value.field fields "status" with
  | some raw, _ =>
    (parseOverrideInt raw).elim (.error (.text "return_error status_code must be an integer")) .ok
  | none, some raw =>
    (parseOverrideInt raw).elim (.error (.text "return_error status must be an integer")) .ok
  | none, none => .ok 400

def checkReturnError (e : ReturnError) : Except OverrideError ReturnError :=
  if e.message = "" then .error (.text "return_error message is required")
  else if e.statusCode < 100 ∨ 511 < e.statusCode then
    .error (.text ("return_error status code out of range: " ++ toString e.statusCode))
  else .ok e

/-- The text, unless it is blank. -/
def notBlank (text : Option String) (default : String) : String :=
  ((text.map trimSpace).filter fun t => t ≠ "").getD default

def parseParamOverrideReturnError : Value → Except OverrideError ReturnError
  | .null => .error (.text "return_error value is required")
  | .string raw =>
    checkReturnError ⟨trimSpace raw, 400, "invalid_request", "invalid_request_error", true⟩
  | .object fields =>
    match returnStatus fields with
    | .error e => .error e
    | .ok statusCode => checkReturnError
      { message := notBlank (Value.stringField fields "message")
          (notBlank (Value.stringField fields "msg") "")
        statusCode := statusCode
        code := notBlank ((Value.field fields "code").map Value.sprint) "invalid_request"
        type := notBlank (Value.stringField fields "type") "invalid_request_error"
        skipRetry := (Value.boolField fields "skip_retry").getD true }
  | _ => .error (.text "return_error value must be string or object")

/-! ## Running the operations -/

def bodyModes : List String :=
  ["delete", "set", "move", "copy", "prepend", "append", "trim_prefix", "trim_suffix",
    "ensure_prefix", "ensure_suffix", "trim_space", "to_lower", "to_upper", "replace",
    "regex_replace", "prune_objects"]

/-- The operation of a header mode; `none` where the mode is none of these. -/
def headerOperation (op : ParamOperation) (context : OverrideContext) (data : String) :
    Option (Except OverrideError (OverrideContext × String)) :=
  let keep (result : Except OverrideError OverrideContext) :
      Option (Except OverrideError (OverrideContext × String)) :=
    some (result.map fun context => (context, data))
  if op.mode = "set_header" then
    keep (setHeaderOverrideInContext engine context op.path op.value op.keepOrigin)
  else if op.mode = "delete_header" then keep (deleteHeaderOverrideInContext engine context op.path)
  else if op.mode = "copy_header" then
    keep (skipNotFound context (copyHeaderInContext engine context (headerOr op.source op.path)
      (headerOr op.target op.path) op.keepOrigin))
  else if op.mode = "move_header" then
    keep (skipNotFound context (moveHeaderInContext engine context (headerOr op.source op.path)
      (headerOr op.target op.path) op.keepOrigin))
  else if op.mode = "sync_fields" then
    some (syncFieldsBetweenTargets engine data context op.source op.target)
  else none

/-- `operation %s failed: %w`. -/
def failed (mode : String) (e : OverrideError) : OverrideError :=
  .text ("operation " ++ mode ++ " failed: " ++ e.message)

/-- One operation whose conditions hold. -/
def applyOperation (op : ParamOperation) (context : OverrideContext) (data : String) :
    Except OverrideError (OverrideContext × String) :=
  if op.mode ∈ bodyModes then
    match engine.operate op (context.lookup engine) data with
    | .error e => .error (.text e)
    | .ok data => .ok (context, data)
  else if op.mode = "return_error" then
    match parseParamOverrideReturnError op.value with
    | .error e => .error e
    | .ok e => .error (.returnError e)
  else if op.mode = "pass_headers" then
    match parseHeaderPassThroughNames engine op.value with
    | .error e => .error e
    | .ok names =>
      match passHeaders engine op.keepOrigin context names with
      | .error e => .error (failed op.mode e)
      | .ok context => .ok (context, data)
  else match headerOperation engine op context data with
    | none => .error (.text ("unknown operation: " ++ op.mode))
    | some (.error e) => .error (failed op.mode e)
    | some (.ok result) => .ok result

def applyOperations (context : OverrideContext) (data : String) :
    List ParamOperation → Except OverrideError (OverrideContext × String)
  | [] => .ok (context, data)
  | op :: operations =>
    match checkConditions engine data context op.conditions op.logic with
    | .error e => .error e
    | .ok false => applyOperations context data operations
    | .ok true =>
      match applyOperation engine op context data with
      | .error e => .error e
      | .ok (context, data) => applyOperations context data operations

/-! ## The setting of a channel -/

def parseCondition : Value → Option ConditionOperation
  | .object fields =>
    let path := (Value.stringField fields "path").getD ""
    let mode := (Value.stringField fields "mode").getD ""
    if trimSpace path = "" ∨ trimSpace mode = "" then none
    else some
      { path := path
        mode := mode
        value := (Value.field fields "value").getD .null
        invert := (Value.boolField fields "invert").getD false
        passMissingKey := (Value.boolField fields "pass_missing_key").getD false }
  | _ => none

/-- `parseConditionOperations`; `none` where it returns an error. -/
def parseConditionOperations : Value → Option (List ConditionOperation)
  | .object fields =>
    let conditions := (fields.filter fun field => trimSpace field.1 ≠ "").map fun field =>
      (⟨trimSpace field.1, "full", field.2, false, false⟩ : ConditionOperation)
    if conditions = [] then none else some conditions
  | .array items => items.mapM parseCondition
  | _ => none

def parseOperation : Value → Option ParamOperation
  | .object fields =>
    (Value.stringField fields "mode").bind fun mode =>
      let conditions := match Value.field fields "conditions" with
        | none => some []
        | some raw => parseConditionOperations raw
      conditions.map fun conditions =>
        { path := (Value.stringField fields "path").getD ""
          mode := mode
          value := (Value.field fields "value").getD .null
          keepOrigin := (Value.boolField fields "keep_origin").getD false
          source := (Value.stringField fields "from").getD ""
          target := (Value.stringField fields "to").getD ""
          conditions := conditions
          logic := (Value.stringField fields "logic").getD "OR" }
  | _ => none

def tryParseOperations (paramOverride : Map String Value) : Option (List ParamOperation) :=
  match paramOverride.get "operations" with
  | some (.array items) => items.mapM parseOperation
  | _ => none

def buildLegacyParamOverride (paramOverride : Map String Value) : List (String × Value) :=
  (engine.order.range paramOverride.entries).filter fun field =>
    !engine.equalFold (trimSpace field.1) "operations"

def escapeSjsonLiteralKey (key : String) : String :=
  String.ofList (key.toList.flatMap fun c => if c ∈ ['.', '*', '?', '\\'] then ['\\', c] else [c])

def applyOperationsLegacy (data : String) :
    List (String × Value) → Except OverrideError String
  | [] => .ok data
  | field :: fields =>
    match engine.set data (escapeSjsonLiteralKey field.1) field.2 with
    | .error e => .error (.text e)
    | .ok data => applyOperationsLegacy data fields

/-- `ApplyParamOverride`, with the context that it leaves. -/
def applyParamOverride (data : String) (paramOverride : Map String Value)
    (context : OverrideContext) : Except OverrideError (OverrideContext × String) :=
  if paramOverride.entries = [] then .ok (context, data)
  else match tryParseOperations paramOverride with
    | some operations =>
      match applyOperationsLegacy engine data (buildLegacyParamOverride engine paramOverride) with
      | .error e => .error e
      | .ok data => applyOperations engine context data operations
    | none =>
      (applyOperationsLegacy engine data (engine.order.range paramOverride.entries)).map
        fun data => (context, data)

end Override
