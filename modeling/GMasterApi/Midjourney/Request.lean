import GMasterApi.Lib.GoValue
import GMasterApi.Lib.JsonFields
import Mathlib.Data.List.Find

/-!
# Midjourney requests

The mode of a route, the request that `encoding/json` decodes from a body, and the
action that `GetMjRequestModel` reads off it.  The hand-written splitters index into
slices, and so may stop with a panic.
-/

namespace Midjourneys

open GoString GoValue JsonValue

/-! ## Routes -/

inductive RelayMode
  | unknown
  | imagine
  | describe
  | blend
  | change
  | simpleChange
  | notify
  | taskFetch
  | taskImageSeed
  | taskFetchByCondition
  | action
  | modal
  | shorten
  | swapFace
  | upload
  | video
  | edits
  deriving DecidableEq

/-- The suffixes that `Path2RelayModeMidjourney` tries in turn. -/
def relayModes : List (String × RelayMode) :=
  [("/mj/submit/action", .action), ("/mj/submit/modal", .modal), ("/mj/submit/shorten", .shorten),
    ("/mj/insight-face/swap", .swapFace), ("/submit/upload-discord-images", .upload),
    ("/mj/submit/imagine", .imagine), ("/mj/submit/video", .video), ("/mj/submit/edits", .edits),
    ("/mj/submit/blend", .blend), ("/mj/submit/describe", .describe), ("/mj/notify", .notify),
    ("/mj/submit/change", .change), ("/mj/submit/simple-change", .change), ("/fetch", .taskFetch),
    ("/image-seed", .taskImageSeed), ("/list-by-condition", .taskFetchByCondition)]

def path2RelayModeMidjourney (path : String) : RelayMode :=
  ((relayModes.find? fun e => hasSuffix path e.1).map Prod.snd).getD .unknown

/-- The routes under `/mj/submit`. -/
inductive SubmitRoute
  | action
  | shorten
  | modal
  | imagine
  | change
  | simpleChange
  | describe
  | blend
  | edits
  | video
  | upload
  deriving DecidableEq

def SubmitRoute.path : SubmitRoute → String
  | .action => "/mj/submit/action"
  | .shorten => "/mj/submit/shorten"
  | .modal => "/mj/submit/modal"
  | .imagine => "/mj/submit/imagine"
  | .change => "/mj/submit/change"
  | .simpleChange => "/mj/submit/simple-change"
  | .describe => "/mj/submit/describe"
  | .blend => "/mj/submit/blend"
  | .edits => "/mj/submit/edits"
  | .video => "/mj/submit/video"
  | .upload => "/mj/submit/upload-discord-images"

/-- The mode that a route has. -/
def SubmitRoute.mode : SubmitRoute → RelayMode
  | .action => .action
  | .shorten => .shorten
  | .modal => .modal
  | .imagine => .imagine
  | .change => .change
  | .simpleChange => .change
  | .describe => .describe
  | .blend => .blend
  | .edits => .edits
  | .video => .video
  | .upload => .upload

/-- A suffix of a path ends it whatever comes before, unless it is longer than what is known. -/
theorem hasSuffix_append {pre s suffix : String}
    (h : (hasSuffix s suffix || !hasSuffix suffix s) = true) :
    hasSuffix (pre ++ s) suffix = hasSuffix s suffix := by
  unfold hasSuffix at h ⊢
  rw [String.toList_append, Bool.eq_iff_iff, List.isSuffixOf_iff_suffix, List.isSuffixOf_iff_suffix]
  constructor
  · intro hsuffix
    rw [Bool.or_eq_true, Bool.not_eq_true', List.isSuffixOf_iff_suffix] at h
    rcases h with h | h
    · exact h
    · rcases List.suffix_or_suffix_of_suffix hsuffix (List.suffix_append _ _) with hs | hs
      · exact hs
      · rw [← Bool.not_eq_true, List.isSuffixOf_iff_suffix] at h
        exact absurd hs h
  · intro hsuffix
    exact hsuffix.trans (List.suffix_append _ _)

/-- Every group of the router gives a route the same mode. -/
theorem path2RelayModeMidjourney_route (pre : String) (route : SubmitRoute) :
    path2RelayModeMidjourney (pre ++ route.path) = route.mode := by
  have hall : relayModes.all (fun e => hasSuffix route.path e.1 || !hasSuffix e.1 route.path) =
      true := by
    cases route <;> decide
  have hfind : (relayModes.find? fun e => hasSuffix (pre ++ route.path) e.1) =
      relayModes.find? fun e => hasSuffix route.path e.1 := by
    refine List.find?_congr fun e he => ?_
    exact hasSuffix_append (List.all_eq_true.mp hall e he)
  unfold path2RelayModeMidjourney
  rw [hfind]
  cases route <;> decide

/-! ## Decoding -/

/-- `MidjourneyRequest`, as far as a submission reads it. -/
structure MidjourneyRequest where
  prompt : String
  customId : String
  action : String
  index : ℤ
  taskId : String
  content : String
  deriving DecidableEq

/-- `decodeText` of the index; `readInt` is how a literal is read. -/
def decodeIndex (readInt : Json → Option ℤ) (value : ℤ) : Members → Option ℤ
  | [] => some value
  | (key, member) :: rest =>
    if isKey "index" key then
      match member with
      | .null => decodeIndex readInt value rest
      | member => (readInt member).bind fun index => decodeIndex readInt index rest
    else decodeIndex readInt value rest

/-! ## Splitters -/

/-- Why a handler stops: with an answer, or with a panic. -/
inductive Stop
  | refused (description : String)
  | panic
  deriving DecidableEq

/-- `splits[i]`. -/
def index (splits : List String) (i : ℕ) : Except Stop String :=
  match splits[i]? with
  | some s => .ok s
  | none => .error .panic

/-- `strconv.Atoi(splits[3])`. -/
def parseIndex (splits : List String) : Except Stop ℤ :=
  match index splits 3 with
  | .error stop => .error stop
  | .ok s =>
    match atoi s with
    | some i => .ok i
    | none => .error (.refused "index_parse_failed")

/-- The part of a custom id that names the action. -/
def customAction (splits : List String) : Except Stop String :=
  match index splits 1 with
  | .error stop => .error stop
  | .ok second => if second = "JOB" then index splits 2 else .ok second

def MidjourneyRequest.withIndexed (request : MidjourneyRequest) (splits : List String)
    (action : String) : Except Stop MidjourneyRequest :=
  match parseIndex splits with
  | .error stop => .error stop
  | .ok index => .ok { request with index := index, action := action }

/-- An action of which there is only one. -/
def MidjourneyRequest.withAction (request : MidjourneyRequest) (action : String) :
    MidjourneyRequest :=
  { request with index := 1, action := action }

/-- The request once the action of its custom id is known. -/
def MidjourneyRequest.cover (request : MidjourneyRequest) (splits : List String) (action : String) :
    Except Stop MidjourneyRequest :=
  if contains action "upsample" then request.withIndexed splits "UPSCALE"
  else if contains action "variation" then
    if action = "variation" then request.withIndexed splits "VARIATION"
    else if action = "low_variation" then .ok (request.withAction "LOW_VARIATION")
    else if action = "high_variation" then .ok (request.withAction "HIGH_VARIATION")
    else .ok { request with index := 1 }
  else if contains action "pan" then .ok (request.withAction "PAN")
  else if contains action "reroll" then .ok (request.withAction "REROLL")
  else if action = "Outpaint" then .ok (request.withAction "ZOOM")
  else if action = "CustomZoom" then .ok (request.withAction "CUSTOM_ZOOM")
  else if action = "Inpaint" then .ok (request.withAction "INPAINT")
  else .error (.refused ("unknown_action:" ++ request.customId))

def coverPlusActionToNormalAction (request : MidjourneyRequest) :
    Except Stop MidjourneyRequest :=
  if request.customId = "" then .error (.refused "custom_id_is_required")
  else
    let splits := splitBy request.customId "::"
    match customAction splits with
    | .error stop => .error stop
    | .ok action =>
      if action = "" then .error (.refused "unknown_action")
      else request.cover splits action

/-- What a simple change asks for. -/
structure ChangeParams where
  taskId : String
  action : String
  index : ℤ
  deriving DecidableEq

/-- The index in the second byte of an action. -/
def simpleIndex (taskId action : String) : List Char → Except Stop (Option ChangeParams)
  | [] => .error .panic
  | c :: _ =>
    if '1' ≤ c ∧ c ≤ '4' then .ok (some ⟨taskId, action, (c.toNat : ℤ) - '0'.toNat⟩) else .ok none

def convertSimpleChangeParams (letters : Lower) (content : String) :
    Except Stop (Option ChangeParams) :=
  match split content ' ' with
  | [taskId, second] =>
    match (letters.toLower second).toList with
    | [] => .error .panic
    | 'u' :: rest => simpleIndex taskId "UPSCALE" rest
    | 'v' :: rest => simpleIndex taskId "VARIATION" rest
    | ['r'] => .ok (some ⟨taskId, "REROLL", 0⟩)
    | _ => .ok none
  | _ => .ok none

/-! ## The model -/

def covertMjpActionToModelName (letters : Lower) (mjAction : String) : String :=
  if mjAction = "SWAP_FACE" then "swap_face" else "mj_" ++ letters.toLower mjAction

/-- The action that `GetMjRequestModel` prices a request by; none for the routes that fetch. -/
def getMjRequestAction (letters : Lower) (mode : RelayMode) (request : MidjourneyRequest) :
    Except Stop (Option String) :=
  match mode with
  | .action =>
    match coverPlusActionToNormalAction request with
    | .error stop => .error stop
    | .ok request => .ok (some request.action)
  | .imagine => .ok (some "IMAGINE")
  | .video => .ok (some "VIDEO")
  | .edits => .ok (some "EDITS")
  | .describe => .ok (some "DESCRIBE")
  | .blend => .ok (some "BLEND")
  | .shorten => .ok (some "SHORTEN")
  | .change => .ok (some request.action)
  | .modal => .ok (some "MODAL")
  | .swapFace => .ok (some "SWAP_FACE")
  | .upload => .ok (some "UPLOAD")
  | .simpleChange =>
    match convertSimpleChangeParams letters request.content with
    | .error stop => .error stop
    | .ok none => .error (.refused "invalid_request")
    | .ok (some params) => .ok (some params.action)
  | .taskFetch | .taskFetchByCondition | .notify => .ok none
  | .taskImageSeed | .unknown => .error (.refused "unknown_relay_action")

end Midjourneys
