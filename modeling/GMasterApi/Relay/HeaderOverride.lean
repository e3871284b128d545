import GMasterApi.Lib.Transition
import GMasterApi.Relay.ParamOverride

/-!
# Headers of an attempt

`ApplyParamOverrideWithRelayInfo` leaves the headers that the operations end with in the
`RelayInfo` of the request, where the next attempt, of another channel, finds them.

An attempt begins with the headers that are in effect (`Same`), and two attempts that
begin alike end alike (`applyParamOverride_alike`).  So the headers of an attempt are
its own as long as those that it finds are (`headers_own`).
-/

namespace Override

open GoMap GoString GoValue Transition

structure ChannelMeta where
  paramOverride : Map String Value
  headersOverride : Map String Value
  upstreamModelName : String

/-- What the headers depend on in `RelayInfo`. -/
structure Info where
  originModelName : String
  requestURLPath : String
  requestHeaders : Map String String
  isChannelTest : Bool
  retryIndex : ℕ
  lastError : Option LastError
  runtimeHeadersOverride : Map String Value
  useRuntimeHeadersOverride : Bool
  channelMeta : Option ChannelMeta

variable (engine : Engine)

/-! ## The headers in effect -/

def isHeaderPassthroughRuleKeyForOverride (key : String) : Bool :=
  let key := trimSpace (engine.letters.toLower key)
  key ≠ "" && (key = "*" || hasPrefix key "re:" || hasPrefix key "regex:")

/-- The value under which a header of that key is kept. -/
def sanitizeValue (key : String) (value : Value) : Option Value :=
  let value := trimSpace value.sprint
  if key = "" then none
  else if value = "" then
    if isHeaderPassthroughRuleKeyForOverride engine key then some (.string "") else none
  else some (.string value)

def sanitizeEntry (entry : String × Value) : Option (String × Value) :=
  let key := normalizeHeaderContextKey engine entry.1
  (sanitizeValue engine key entry.2).map fun value => (key, value)

def sanitizeHeaderOverrideMap (source : Map String Value) : Map String Value :=
  Map.empty.putAll ((engine.order.range source.entries).filterMap (sanitizeEntry engine))

def getParamOverrideMap (info : Info) : Map String Value :=
  (info.channelMeta.map ChannelMeta.paramOverride).getD .empty

def getHeaderOverrideMap (info : Info) : Map String Value :=
  (info.channelMeta.map ChannelMeta.headersOverride).getD .empty

def getEffectiveHeaderOverride (info : Info) : Map String Value :=
  if info.useRuntimeHeadersOverride then sanitizeHeaderOverrideMap engine info.runtimeHeadersOverride
  else sanitizeHeaderOverrideMap engine (getHeaderOverrideMap info)

def buildRequestHeadersContext (headers : Map String String) : Map String Value :=
  let entries := engine.order.range (headers.entries.map fun entry => (entry.1, .string entry.2))
  Map.empty.putAll (entries.filterMap fun entry =>
    let normalized := normalizeHeaderContextKey engine entry.1
    let value := trimSpace entry.2.sprint
    if normalized = "" ∨ value = "" then none else some (normalized, .string value))

def buildParamOverrideContext (info : Info) : OverrideContext where
  fields :=
    { upstreamModelName := (info.channelMeta.map ChannelMeta.upstreamModelName).getD ""
      originModelName := info.originModelName
      requestURLPath := info.requestURLPath
      retryIndex := info.retryIndex
      lastError := info.lastError
      isChannelTest := info.isChannelTest }
  requestHeaders := buildRequestHeadersContext engine info.requestHeaders
  headerOverride := sanitizeHeaderOverrideMap engine (getEffectiveHeaderOverride engine info)

/-- The headers that the operations leave are used from then on. -/
def syncRuntimeHeaderOverrideFromContext (info : Info) (context : OverrideContext) : Info :=
  { info with
    runtimeHeadersOverride := sanitizeHeaderOverrideMap engine context.headerOverride
    useRuntimeHeadersOverride := true }

def applyParamOverrideWithRelayInfo (jsonData : String) (info : Info) :
    Info × Except OverrideError String :=
  let paramOverride := getParamOverrideMap info
  if paramOverride.entries = [] then (info, .ok jsonData)
  else match applyParamOverride engine jsonData paramOverride (buildParamOverrideContext engine info) with
    | .error e => (info, .error e)
    | .ok (context, result) => (syncRuntimeHeaderOverrideFromContext engine info context, .ok result)

/-! ## The attempts at a request -/

/-- A request of a client, before its first attempt. -/
structure Request where
  originModelName : String
  requestURLPath : String
  requestHeaders : Map String String
  isChannelTest : Bool

def Request.info (request : Request) : Info :=
  { originModelName := request.originModelName
    requestURLPath := request.requestURLPath
    requestHeaders := request.requestHeaders
    isChannelTest := request.isChannelTest
    retryIndex := 0
    lastError := none
    runtimeHeadersOverride := .empty
    useRuntimeHeadersOverride := false
    channelMeta := none }

/-- What an attempt has of its own: its channel, how often the request was tried before
and with what error, and the body that is sent to the channel. -/
structure Attempt where
  channel : ChannelMeta
  retryIndex : ℕ
  lastError : Option LastError
  jsonData : String

/-- The loop of `Relay`, and `InitChannelMeta`. -/
def Info.initChannelMeta (info : Info) (attempt : Attempt) : Info :=
  { info with
    retryIndex := attempt.retryIndex
    lastError := attempt.lastError
    channelMeta := some attempt.channel }

def Info.attempt (info : Info) (attempt : Attempt) : Info :=
  (applyParamOverrideWithRelayInfo engine attempt.jsonData (info.initChannelMeta attempt)).1

/-- A request and its last attempt. -/
structure Run where
  info : Info
  last : Option Attempt

def attempts : System Run Attempt where
  step s attempt := some ⟨s.info.attempt engine attempt, some attempt⟩

def Request.start (request : Request) : Run := ⟨request.info, none⟩

/-- **The headers are those of the attempt**: what a request would use that comes to the
channel of its last attempt first. -/
def OwnHeaders (request : Request) (s : Run) : Prop :=
  ∀ attempt, s.last = some attempt → ∀ key,
    (getEffectiveHeaderOverride engine s.info).get key =
      (getEffectiveHeaderOverride engine (request.info.attempt engine attempt)).get key

/-- No headers of an earlier attempt are in use, or they are those that the channel sets. -/
def FindsOwn (s : Run) (attempt : Attempt) : Prop :=
  s.info.useRuntimeHeadersOverride = true → ∀ key,
    (sanitizeHeaderOverrideMap engine s.info.runtimeHeadersOverride).get key =
      (sanitizeHeaderOverrideMap engine attempt.channel.headersOverride).get key

/-! ## Headers under their keys -/

/-- Every key is as `normalizeHeaderContextKey` makes it. -/
def Normal (m : Map String Value) : Prop :=
  ∀ key value, m.get key = some value → normalizeHeaderContextKey engine key = key

variable {engine} {m m' : Map String Value} {key : String} {value : Value}

theorem normalize_normalize :
    normalizeHeaderContextKey engine (normalizeHeaderContextKey engine key) =
      normalizeHeaderContextKey engine key := trimSpace_toLower_idem engine.letters key

theorem normal_sanitize : Normal engine (sanitizeHeaderOverrideMap engine m) := by
  intro key value h
  rcases Map.get_putAll_some h with hmem | hget
  · obtain ⟨entry, -, hentry⟩ := List.mem_filterMap.mp hmem
    unfold sanitizeEntry at hentry
    obtain ⟨v, -, hpair⟩ := Option.map_eq_some_iff.mp hentry
    rw [← (Prod.mk.inj hpair).1]
    exact normalize_normalize
  · cases hget

theorem Normal.put (h : Normal engine m) :
    Normal engine (m.put (normalizeHeaderContextKey engine key) value) := by
  intro k v hget
  rw [Map.get_put] at hget
  split at hget
  · rename_i hk
    rw [hk]
    exact normalize_normalize
  · exact h k v hget

theorem Normal.delete (h : Normal engine m) (k : String) : Normal engine (m.delete k) := by
  intro k' v hget
  rw [Map.get_delete] at hget
  split at hget
  · cases hget
  · exact h k' v hget

variable (key) in
/-- Entries that a filter keeps under their keys. -/
theorem lookup_filterMap {f : String × Value → Option (String × Value)}
    {g : String → Value → Option Value} {l : List (String × Value)}
    (hf : ∀ e ∈ l, f e = (g e.1 e.2).map fun v => (e.1, v)) (hnd : (l.map Prod.fst).Nodup) :
    ((l.filterMap f).map Prod.fst).Nodup ∧
      (l.filterMap f).lookup key = (l.lookup key).bind (g key) := by
  induction l with
  | nil => exact ⟨List.nodup_nil, rfl⟩
  | cons e l ih =>
    obtain ⟨k, v⟩ := e
    rw [List.map_cons, List.nodup_cons] at hnd
    obtain ⟨hnodup, hlookup⟩ := ih (fun e he => hf e (List.mem_cons_of_mem _ he)) hnd.2
    have hfresh : k ∉ (l.filterMap f).map Prod.fst := by
      intro hk
      obtain ⟨e', he', hkey⟩ := List.mem_map.mp hk
      obtain ⟨e, he, hfe⟩ := List.mem_filterMap.mp he'
      rw [hf e (List.mem_cons_of_mem _ he)] at hfe
      obtain ⟨w, -, rfl⟩ := Option.map_eq_some_iff.mp hfe
      exact hnd.1 (List.mem_map.mpr ⟨e, he, hkey⟩)
    have hhead := hf (k, v) List.mem_cons_self
    rw [List.lookup_cons]
    cases hg : g k v with
    | none =>
      rw [List.filterMap_cons_none (by rw [hhead, hg]; rfl)]
      refine ⟨hnodup, ?_⟩
      rw [hlookup]
      by_cases hk : key = k
      · subst hk
        rw [lookup_eq_none hnd.1, BEq.rfl]
        exact hg.symm
      · have hne : (key == k) = false := by simp [hk]
        rw [hne]
    | some w =>
      have hsome : f (k, v) = some (k, w) := by
        rw [hhead, hg]
        rfl
      rw [List.filterMap_cons_some hsome, List.map_cons, List.nodup_cons, List.lookup_cons]
      refine ⟨⟨hfresh, hnodup⟩, ?_⟩
      by_cases hk : key = k
      · subst hk
        rw [BEq.rfl]
        exact hg.symm
      · have hne : (key == k) = false := by simp [hk]
        rw [hne]
        exact hlookup

/-- Under normal keys a map is sanitized value by value, in whatever order. -/
theorem get_sanitize (h : Normal engine m) :
    (sanitizeHeaderOverrideMap engine m).get key = (m.get key).bind (sanitizeValue engine key) := by
  have hperm := engine.order.perm m.entries
  have hnd : ((engine.order.range m.entries).map Prod.fst).Nodup :=
    (hperm.map Prod.fst).nodup_iff.mpr m.nodup
  have hentry : ∀ e ∈ engine.order.range m.entries,
      sanitizeEntry engine e = (sanitizeValue engine e.1 e.2).map fun v => (e.1, v) := by
    rintro ⟨k, v⟩ he
    have hk := h k v (Map.mem_entries.mp (hperm.mem_iff.mp he))
    unfold sanitizeEntry
    rw [hk]
  have hlookup : (engine.order.range m.entries).lookup key = m.get key := by
    refine Option.ext fun v => ?_
    rw [← mem_iff_lookup hnd, hperm.mem_iff]
    exact Map.mem_entries
  obtain ⟨hnodup, hget⟩ := lookup_filterMap key hentry hnd
  unfold sanitizeHeaderOverrideMap
  rw [Map.get_putAll hnodup, hget, hlookup, Map.get_empty, Option.or_none]

theorem sanitize_congr (h : Normal engine m) (h' : Normal engine m')
    (hget : ∀ key, m.get key = m'.get key) (key : String) :
    (sanitizeHeaderOverrideMap engine m).get key = (sanitizeHeaderOverrideMap engine m').get key := by
  rw [get_sanitize h, get_sanitize h', hget]

/-! ## Two runs of the operations -/

/-- Contexts with the same headers under normal keys. -/
structure Same (engine : Engine) (c c' : OverrideContext) : Prop where
  fields : c.fields = c'.fields
  requestHeaders : c.requestHeaders = c'.requestHeaders
  headers : c.headerOverride.get = c'.headerOverride.get
  normal : Normal engine c.headerOverride
  normal' : Normal engine c'.headerOverride

/-- Results that fail alike, or are related. -/
inductive Alike {α : Type} (R : α → α → Prop) :
    Except OverrideError α → Except OverrideError α → Prop
  | error (e : OverrideError) : Alike R (.error e) (.error e)
  | ok {x y : α} (h : R x y) : Alike R (.ok x) (.ok y)

/-- The same context and the same body. -/
def SameBody (engine : Engine) (r r' : OverrideContext × String) : Prop :=
  Same engine r.1 r'.1 ∧ r.2 = r'.2

theorem Alike.cases {α : Type} {R : α → α → Prop} {x y : Except OverrideError α}
    (h : Alike R x y) : (∃ e, x = .error e ∧ y = .error e) ∨
      ∃ a b, x = .ok a ∧ y = .ok b ∧ R a b := by
  cases h with
  | error e => exact .inl ⟨e, rfl, rfl⟩
  | @ok a b h => exact .inr ⟨a, b, rfl, rfl, h⟩

variable {c c' : OverrideContext} {data : String}

theorem Same.lookup (h : Same engine c c') : c.lookup engine = c'.lookup engine := by
  funext path
  unfold OverrideContext.lookup
  rw [h.fields, h.requestHeaders, h.headers]

theorem Same.getHeader (h : Same engine c c') (name : String) :
    getHeaderValueFromContext engine c name = getHeaderValueFromContext engine c' name := by
  unfold getHeaderValueFromContext
  dsimp only [List.findSome?_cons, List.findSome?_nil]
  rw [h.requestHeaders, h.headers]

theorem Same.delete (h : Same engine c c') (k : String) :
    Same engine { c with headerOverride := c.headerOverride.delete k }
      { c' with headerOverride := c'.headerOverride.delete k } where
  fields := h.fields
  requestHeaders := h.requestHeaders
  headers := by
    funext k'
    rw [Map.get_delete, Map.get_delete, h.headers]
  normal := h.normal.delete k
  normal' := h.normal'.delete k

theorem Same.put (h : Same engine c c') (k : String) (v : Value) :
    Same engine
      { c with headerOverride := c.headerOverride.put (normalizeHeaderContextKey engine k) v }
      { c' with headerOverride := c'.headerOverride.put (normalizeHeaderContextKey engine k) v } where
  fields := h.fields
  requestHeaders := h.requestHeaders
  headers := by
    funext k'
    rw [Map.get_put, Map.get_put, h.headers]
  normal := h.normal.put
  normal' := h.normal'.put

theorem Same.conditions (h : Same engine c c') (conditions : List ConditionOperation)
    (logic : String) :
    checkConditions engine data c conditions logic = checkConditions engine data c' conditions logic := by
  have hsingle : checkSingleCondition engine data c = checkSingleCondition engine data c' := by
    funext condition
    unfold checkSingleCondition
    rw [h.lookup]
  unfold checkConditions
  rw [hsingle]

theorem Same.resolve (h : Same engine c c') (name : String) (value : Value) :
    resolveHeaderOverrideValue engine c name value =
      resolveHeaderOverrideValue engine c' name value := by
  cases value with
  | object mapping =>
    unfold resolveHeaderOverrideValue resolveHeaderOverrideValueByMapping
    rw [h.getHeader]
  | _ => rfl

theorem Same.set (h : Same engine c c') (name : String) (value : Value) (keepOrigin : Bool) :
    Alike (Same engine) (setHeaderOverrideInContext engine c name value keepOrigin)
      (setHeaderOverrideInContext engine c' name value keepOrigin) := by
  unfold setHeaderOverrideInContext
  dsimp only
  rw [h.headers, h.resolve]
  by_cases hname : normalizeHeaderContextKey engine name = ""
  · rw [if_pos hname, if_pos hname]
    exact .error _
  rw [if_neg hname, if_neg hname]
  generalize ((c'.headerOverride.get (normalizeHeaderContextKey engine name)).map fun v =>
    trimSpace v.sprint).getD "" = existing
  by_cases hkeep : keepOrigin = true ∧ existing ≠ ""
  · rw [if_pos hkeep, if_pos hkeep]
    exact .ok h
  rw [if_neg hkeep, if_neg hkeep]
  cases resolveHeaderOverrideValue engine c' (normalizeHeaderContextKey engine name) value with
  | error e => exact .error _
  | ok found =>
    cases found with
    | none => exact .ok (h.delete _)
    | some text => exact .ok (h.put _ _)

theorem Same.copy (h : Same engine c c') (source target : String) (keepOrigin : Bool) :
    Alike (Same engine) (copyHeaderInContext engine c source target keepOrigin)
      (copyHeaderInContext engine c' source target keepOrigin) := by
  unfold copyHeaderInContext
  dsimp only
  rw [h.getHeader]
  by_cases hnames : normalizeHeaderContextKey engine source = "" ∨
      normalizeHeaderContextKey engine target = ""
  · rw [if_pos hnames, if_pos hnames]
    exact .error _
  rw [if_neg hnames, if_neg hnames]
  cases getHeaderValueFromContext engine c' (normalizeHeaderContextKey engine source) with
  | none => exact .error _
  | some text => exact h.set _ _ _

theorem Same.deleteHeader (h : Same engine c c') (name : String) :
    Alike (Same engine) (deleteHeaderOverrideInContext engine c name)
      (deleteHeaderOverrideInContext engine c' name) := by
  unfold deleteHeaderOverrideInContext
  dsimp only
  by_cases hname : normalizeHeaderContextKey engine name = ""
  · rw [if_pos hname, if_pos hname]
    exact .error _
  · rw [if_neg hname, if_neg hname]
    exact .ok (h.delete _)

theorem Same.move (h : Same engine c c') (source target : String) (keepOrigin : Bool) :
    Alike (Same engine) (moveHeaderInContext engine c source target keepOrigin)
      (moveHeaderInContext engine c' source target keepOrigin) := by
  unfold moveHeaderInContext
  dsimp only
  by_cases hnames : normalizeHeaderContextKey engine source = "" ∨
      normalizeHeaderContextKey engine target = ""
  · rw [if_pos hnames, if_pos hnames]
    exact .error _
  rw [if_neg hnames, if_neg hnames]
  rcases (h.copy (normalizeHeaderContextKey engine source) (normalizeHeaderContextKey engine target)
    keepOrigin).cases with ⟨e, he, he'⟩ | ⟨d, d', hd, hd', hsame⟩
  · rw [he, he']
    exact .error _
  · rw [hd, hd']
    dsimp only
    by_cases hfold : engine.equalFold (normalizeHeaderContextKey engine source)
        (normalizeHeaderContextKey engine target) = true
    · rw [if_pos hfold, if_pos hfold]
      exact .ok hsame
    · rw [if_neg hfold, if_neg hfold]
      exact hsame.deleteHeader _

theorem Same.skip (h : Same engine c c') {r r' : Except OverrideError OverrideContext}
    (hr : Alike (Same engine) r r') : Alike (Same engine) (skipNotFound c r) (skipNotFound c' r') := by
  rcases hr.cases with ⟨e, rfl, rfl⟩ | ⟨d, d', rfl, rfl, hsame⟩
  · cases e with
    | sourceHeaderNotFound header =>
      show Alike (Same engine) (.ok c) (.ok c')
      exact .ok h
    | text e =>
      show Alike (Same engine) (.error (.text e)) (.error (.text e))
      exact .error _
    | returnError e =>
      show Alike (Same engine) (.error (.returnError e)) (.error (.returnError e))
      exact .error _
  · show Alike (Same engine) (.ok d) (.ok d')
    exact .ok hsame

theorem Same.pass (h : Same engine c c') (keepOrigin : Bool) (names : List String) :
    Alike (Same engine) (passHeaders engine keepOrigin c names)
      (passHeaders engine keepOrigin c' names) := by
  induction names generalizing c c' with
  | nil => exact .ok h
  | cons name names ih =>
    unfold passHeaders
    rcases (h.skip (h.copy name name keepOrigin)).cases with ⟨e, he, he'⟩ |
      ⟨d, d', hd, hd', hsame⟩
    · rw [he, he']
      exact .error _
    · rw [hd, hd']
      exact ih hsame

theorem Same.read (h : Same engine c c') (target : SyncTarget) :
    readSyncTargetValue engine data c target = readSyncTargetValue engine data c' target := by
  cases target with
  | json key => rfl
  | header key =>
    unfold readSyncTargetValue
    dsimp only
    rw [h.getHeader]

theorem Same.write (h : Same engine c c') (v : Value) (target : SyncTarget) :
    Alike (SameBody engine) (writeSyncTargetValue engine data c v target)
      (writeSyncTargetValue engine data c' v target) := by
  cases target with
  | json key =>
    unfold writeSyncTargetValue
    dsimp only
    cases engine.set data (engine.processNegativeIndex data key) v with
    | error e => exact .error _
    | ok body => exact .ok ⟨h, rfl⟩
  | header key =>
    unfold writeSyncTargetValue
    dsimp only
    rcases (h.set key v false).cases with ⟨e, he, he'⟩ | ⟨d, d', hd, hd', hsame⟩
    · rw [he, he']
      exact .error _
    · rw [hd, hd']
      exact .ok ⟨hsame, rfl⟩

theorem Same.sync (h : Same engine c c') (source target : String) :
    Alike (SameBody engine) (syncFieldsBetweenTargets engine data c source target)
      (syncFieldsBetweenTargets engine data c' source target) := by
  unfold syncFieldsBetweenTargets
  cases parseSyncTarget engine source with
  | error e => exact .error _
  | ok source =>
    cases parseSyncTarget engine target with
    | error e => exact .error _
    | ok target =>
      dsimp only
      rw [h.read, h.read]
      cases readSyncTargetValue engine data c' source with
      | none =>
        cases readSyncTargetValue engine data c' target with
        | none => exact .ok ⟨h, rfl⟩
        | some v => exact h.write _ _
      | some v =>
        cases readSyncTargetValue engine data c' target with
        | none => exact h.write _ _
        | some w => exact .ok ⟨h, rfl⟩

/-- The body beside the headers. -/
theorem Alike.withBody {r r' : Except OverrideError OverrideContext} (h : Alike (Same engine) r r') :
    Alike (SameBody engine) (r.map fun c => (c, data)) (r'.map fun c => (c, data)) := by
  rcases h.cases with ⟨e, rfl, rfl⟩ | ⟨d, d', rfl, rfl, hsame⟩
  · exact .error _
  · exact .ok ⟨hsame, rfl⟩

variable (data) in
/-- Operations on headers are of the same modes, and alike. -/
theorem Same.headerOperation (h : Same engine c c') (op : ParamOperation) :
    (Override.headerOperation engine op c data = none ∧
      Override.headerOperation engine op c' data = none) ∨
    ∃ r r', Override.headerOperation engine op c data = some r ∧
      Override.headerOperation engine op c' data = some r' ∧ Alike (SameBody engine) r r' := by
  unfold Override.headerOperation
  dsimp only
  split
  · exact .inr ⟨_, _, rfl, rfl, (h.set _ _ _).withBody⟩
  split
  · exact .inr ⟨_, _, rfl, rfl, (h.deleteHeader _).withBody⟩
  split
  · exact .inr ⟨_, _, rfl, rfl, (h.skip (h.copy _ _ _)).withBody⟩
  split
  · exact .inr ⟨_, _, rfl, rfl, (h.skip (h.move _ _ _)).withBody⟩
  split
  · exact .inr ⟨_, _, rfl, rfl, h.sync _ _⟩
  · exact .inl ⟨rfl, rfl⟩

variable (data) in
theorem Same.operation (h : Same engine c c') (op : ParamOperation) :
    Alike (SameBody engine) (applyOperation engine op c data) (applyOperation engine op c' data) := by
  unfold applyOperation
  split
  · -- the body alone
    rw [h.lookup]
    split
    · exact .error _
    · exact .ok ⟨h, rfl⟩
  split
  · split
    · exact .error _
    · exact .error _
  split
  · split
    · exact .error _
    · rename_i names _
      rcases (h.pass op.keepOrigin names).cases with ⟨e, he, he'⟩ | ⟨d, d', hd, hd', hsame⟩
      · rw [he, he']
        exact .error _
      · rw [hd, hd']
        exact .ok ⟨hsame, rfl⟩
  · rcases h.headerOperation data op with ⟨hr, hr'⟩ | ⟨r, r', hr, hr', halike⟩
    · rw [hr, hr']
      exact .error _
    · rw [hr, hr']
      rcases halike.cases with ⟨e, rfl, rfl⟩ | ⟨d, d', rfl, rfl, hsame⟩
      · exact .error _
      · exact .ok hsame

theorem Same.operations (h : Same engine c c') (operations : List ParamOperation) :
    Alike (SameBody engine) (applyOperations engine c data operations)
      (applyOperations engine c' data operations) := by
  induction operations generalizing c c' data with
  | nil => exact .ok ⟨h, rfl⟩
  | cons op operations ih =>
    unfold applyOperations
    rw [h.conditions]
    split
    · exact .error _
    · exact ih h
    · rcases (h.operation data op).cases with ⟨e, he, he'⟩ |
        ⟨⟨d, b⟩, ⟨d', b'⟩, hd, hd', hsame, hbody⟩
      · rw [he, he']
        exact .error _
      · obtain rfl : b = b' := hbody
        rw [hd, hd']
        exact ih hsame

variable (data) in
/-- **Alike.**  The override makes the same of contexts with the same headers. -/
theorem applyParamOverride_alike (h : Same engine c c') (paramOverride : Map String Value) :
    Alike (SameBody engine) (applyParamOverride engine data paramOverride c)
      (applyParamOverride engine data paramOverride c') := by
  unfold applyParamOverride
  split
  · exact .ok ⟨h, rfl⟩
  split
  · split
    · exact .error _
    · exact h.operations _
  · cases applyOperationsLegacy engine data (engine.order.range paramOverride.entries) with
    | error e => exact .error _
    | ok body => exact .ok ⟨h, rfl⟩

/-! ## The attempts -/

variable {request : Request} {info info' : Info} {attempt : Attempt}

theorem normal_effective : Normal engine (getEffectiveHeaderOverride engine info) := by
  unfold getEffectiveHeaderOverride
  split
  · exact normal_sanitize
  · exact normal_sanitize

/-- Two requests that begin an attempt alike, with the same headers in effect. -/
structure SameInfo (engine : Engine) (info info' : Info) : Prop where
  channelMeta : info.channelMeta = info'.channelMeta
  context : (buildParamOverrideContext engine info).fields =
    (buildParamOverrideContext engine info').fields
  requestHeaders : info.requestHeaders = info'.requestHeaders
  headers : ∀ key, (getEffectiveHeaderOverride engine info).get key =
    (getEffectiveHeaderOverride engine info').get key

/-- They end it with the same headers, whether the override is absent, fails or runs to its
end. -/
theorem SameInfo.apply (h : SameInfo engine info info') (jsonData key : String) :
    (getEffectiveHeaderOverride engine
        (applyParamOverrideWithRelayInfo engine jsonData info).1).get key =
      (getEffectiveHeaderOverride engine
        (applyParamOverrideWithRelayInfo engine jsonData info').1).get key := by
  have hparam : getParamOverrideMap info = getParamOverrideMap info' := by
    unfold getParamOverrideMap
    rw [h.channelMeta]
  have hsame : Same engine (buildParamOverrideContext engine info)
      (buildParamOverrideContext engine info') := by
    refine ⟨h.context, ?_, ?_, normal_sanitize, normal_sanitize⟩
    · show buildRequestHeadersContext engine info.requestHeaders = _
      rw [h.requestHeaders]
      rfl
    · funext k
      exact sanitize_congr normal_effective normal_effective h.headers k
  unfold applyParamOverrideWithRelayInfo
  dsimp only
  rw [hparam]
  by_cases hempty : (getParamOverrideMap info').entries = []
  · rw [if_pos hempty, if_pos hempty]
    exact h.headers key
  rw [if_neg hempty, if_neg hempty]
  rcases (applyParamOverride_alike jsonData hsame (getParamOverrideMap info')).cases with
    ⟨e, he, he'⟩ | ⟨⟨c, b⟩, ⟨c', b'⟩, hc, hc', hend, -⟩
  · rw [he, he']
    exact h.headers key
  · rw [hc, hc']
    refine sanitize_congr normal_sanitize normal_sanitize (fun k => ?_) key
    exact sanitize_congr hend.normal hend.normal' (congrFun hend.headers) k

/-- The attempts leave what the client sent. -/
structure OfRequest (request : Request) (info : Info) : Prop where
  originModelName : info.originModelName = request.originModelName
  requestURLPath : info.requestURLPath = request.requestURLPath
  requestHeaders : info.requestHeaders = request.requestHeaders
  isChannelTest : info.isChannelTest = request.isChannelTest

theorem OfRequest.keep (h : OfRequest request info) :
    OfRequest request (info.attempt engine attempt) := by
  unfold Info.attempt applyParamOverrideWithRelayInfo
  dsimp only
  split
  · exact ⟨h.1, h.2, h.3, h.4⟩
  split
  · exact ⟨h.1, h.2, h.3, h.4⟩
  · exact ⟨h.1, h.2, h.3, h.4⟩

/-- An attempt that finds the headers of its channel begins as the first one would. -/
theorem sameInfo_of_findsOwn {s : Run} (h : OfRequest request s.info)
    (hfinds : FindsOwn engine s attempt) :
    SameInfo engine (s.info.initChannelMeta attempt) (request.info.initChannelMeta attempt) where
  channelMeta := rfl
  context := by
    show ContextFields.mk attempt.channel.upstreamModelName s.info.originModelName
      s.info.requestURLPath attempt.retryIndex attempt.lastError s.info.isChannelTest = _
    rw [h.originModelName, h.requestURLPath, h.isChannelTest]
    rfl
  requestHeaders := h.requestHeaders
  headers := by
    intro key
    show (if s.info.useRuntimeHeadersOverride = true then
      sanitizeHeaderOverrideMap engine s.info.runtimeHeadersOverride
      else sanitizeHeaderOverrideMap engine attempt.channel.headersOverride).get key =
        (sanitizeHeaderOverrideMap engine attempt.channel.headersOverride).get key
    by_cases huse : s.info.useRuntimeHeadersOverride = true
    · rw [if_pos huse]
      exact hfinds huse key
    · rw [if_neg huse]

/-- **No headers leak** in a run whose attempts find no headers of an earlier one, or the
same as they set. -/
theorem headers_own (engine : Engine) (request : Request) (tries : List Attempt)
    (h : (attempts engine).EveryStep (FindsOwn engine) request.start tries) :
    (attempts engine).EveryState (OwnHeaders engine request) request.start tries := by
  have hstart : OfRequest request request.start.info ∧ OwnHeaders engine request request.start := by
    refine ⟨⟨rfl, rfl, rfl, rfl⟩, ?_⟩
    intro attempt hlast
    cases hlast
  refine (System.everyState_of_everyStep (I := fun s => OfRequest request s.info ∧
    OwnHeaders engine request s) ?_ hstart h).mono fun s hs => hs.2
  intro s attempt t hs hfinds ht
  cases ht
  refine ⟨hs.1.keep, ?_⟩
  intro last hlast key
  obtain rfl : attempt = last := Option.some.inj hlast
  exact (sameInfo_of_findsOwn hs.1 hfinds).apply attempt.jsonData key

/-! ## Two channels -/

/-- An engine without conditions and operations on the body. -/
def sampleEngine : Engine where
  letters := .same
  toUpper := id
  equalFold s t := decide (s = t)
  order := .insertion _
  get _ _ := none
  getContext _ _ _ _ := none
  parse value := ⟨.string, value.sprint, 0, value⟩
  set data _ _ := .ok data
  unmarshal _ := none
  processNegativeIndex _ path := path
  operate _ _ data := .ok data

def sampleRequest : Request := ⟨"gpt-4", "/v1/chat/completions", .empty, false⟩

/-- The channel sets a header of its tenant. -/
def tenantAttempt : Attempt where
  channel :=
    { paramOverride := Map.empty.put "operations" (.array [.object
        [("mode", .string "set_header"), ("path", .string "x-tenant"), ("value", .string "a")]])
      headersOverride := .empty
      upstreamModelName := "gpt-4" }
  retryIndex := 0
  lastError := none
  jsonData := "\x7b\x7d"

def plainAttempt : Attempt where
  channel := ⟨.empty, Map.empty.put "x-region" (.string "eu"), "gpt-4"⟩
  retryIndex := 1
  lastError := some ⟨500, "upstream error", "bad_response_status_code", "openai_error", false⟩
  jsonData := "\x7b\x7d"

theorem headers_own_sample : (attempts sampleEngine).EveryState (OwnHeaders sampleEngine sampleRequest)
    sampleRequest.start [plainAttempt, tenantAttempt] := by
  refine headers_own sampleEngine sampleRequest [plainAttempt, tenantAttempt] ?_
  intro s hs
  cases hs
  refine ⟨fun huse => absurd huse Bool.false_ne_true, ?_⟩
  intro t ht
  cases ht
  exact ⟨fun huse => absurd huse Bool.false_ne_true, trivial⟩

/-- The header of the first channel is sent to the second, which sets another. -/
theorem headers_leak : ¬ (attempts sampleEngine).EveryState (OwnHeaders sampleEngine sampleRequest)
    sampleRequest.start [tenantAttempt, plainAttempt] := by
  intro h
  obtain ⟨-, h⟩ := h
  obtain ⟨-, h⟩ := h _ rfl
  have hown := congrArg (Option.map Value.sprint) (h _ rfl plainAttempt rfl "x-tenant")
  exact absurd hown (by decide +kernel)

end Override
