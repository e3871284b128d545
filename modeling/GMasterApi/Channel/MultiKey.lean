import GMasterApi.Channel.Model
import GMasterApi.Lib.GoValue

/-!
# Channels with several keys

The keys of a channel are one text, and what is known of each key goes by its position
in it.  `AddChannel` and an append write the text from that of a request,
`ManageMultiKeys` removes keys from it and counts the positions anew, and every
`Update` counts the keys once more.
-/

namespace Channels

open GoMap GoString GoValue

/-- `strings.Join(keys, "\n")`. -/
def joinKeys (keys : List String) : String := join keys '\n'

def keyLines (key : String) : List String := split (trimChar key '\n') '\n'

def ChannelInfo.keyStatus (info : ChannelInfo) (i : ℕ) : ChannelStatus :=
  (info.multiKeyStatusList.get i).getD .enabled

/-! ## Writing a channel -/

/-- `DB.Model(channel).Updates(channel)`: a field that is zero is left. -/
def Channel.updates (existing channel : Channel) : Channel :=
  { existing with
    key := if channel.key = "" then existing.key else channel.key
    status := if channel.status = .unknown then existing.status else channel.status
    weight := channel.weight.or existing.weight
    models := if channel.models = "" then existing.models else channel.models
    group := if channel.group = "" then existing.group else channel.group
    priority := channel.priority.or existing.priority
    tag := channel.tag.or existing.tag
    channelInfo := channel.channelInfo }

/-- The keys that `Update` counts; an array without elements is taken for a line. -/
def updateKeys (key : String) : List String :=
  let trimmed := trimSpace key
  let keys := if hasPrefix trimmed "[" then (GoJson.rawArray trimmed).getD [] else []
  if keys = [] then keyLines key else keys

/-- `Update`; `existing` is the row. -/
def Channel.update (existing channel : Channel) : Channel :=
  if channel.channelInfo.isMultiKey then
    let keyStr := if channel.key ≠ "" then channel.key else existing.key
    let size := if keyStr = "" then 0 else (updateKeys keyStr).length
    existing.updates
      { channel with
        channelInfo :=
          { channel.channelInfo with
            multiKeySize := size
            multiKeyStatusList := channel.channelInfo.multiKeyStatusList.keep fun i => i < size } }
  else existing.updates channel

/-! ## Requests with keys -/

/-- `json.Unmarshal` into a slice, and `json.Marshal`. -/
structure Json where
  unmarshal : String → Option (List Value)
  marshal : Value → String

/-- `getVertexArrayKeys`; `none` where it returns an error. -/
def getVertexArrayKeys (json : Json) (keys : String) : Option (List String) :=
  if keys = "" then some []
  else (json.unmarshal keys).bind fun keyArray =>
    let cleanKeys := (keyArray.map fun
      | .string s => trimSpace s
      | value => json.marshal value).filter fun key => key ≠ ""
    if cleanKeys = [] then none else some cleanKeys

/-- A request to add a channel in the mode `multi_to_single`; `vertex` says whether the
keys are those of Vertex AI accounts, and `valid` whether `validateChannel` accepts it. -/
structure AddChannelRequest where
  channel : Channel
  multiKeyMode : MultiKeyMode
  vertex : Bool
  valid : Bool

/-- The lines of a text that are not empty. -/
def cleanKeys (key : String) : List String :=
  ((split key '\n').filter fun line => line ≠ "").map trimSpace

def AddChannelRequest.keys (json : Json) (request : AddChannelRequest) : Option (List String) :=
  if request.vertex then getVertexArrayKeys json request.channel.key
  else some (cleanKeys request.channel.key)

/-- `AddChannel`; `none` where no channel is added. -/
def addChannel (json : Json) (request : AddChannelRequest) : Option Channel :=
  if !request.valid then none
  else (request.keys json).bind fun keys =>
    if joinKeys keys = "" then none
    else some
      { request.channel with
        key := joinKeys keys
        keys := []
        -- the default of the column
        status := if request.channel.status = .unknown then .enabled else request.channel.status
        channelInfo :=
          { request.channel.channelInfo with
            isMultiKey := true
            multiKeyMode := request.multiKeyMode
            multiKeySize := keys.length } }

/-- A request to update a channel, with the `key_mode` `append`. -/
structure PatchChannel where
  channel : Channel
  multiKeyMode : Option MultiKeyMode
  vertex : Bool
  valid : Bool

/-- The keys that an append finds; a text that only looks like an array has none. -/
def existingKeys (key : String) : List String :=
  let trimmed := trimSpace key
  if hasPrefix trimmed "[" then (GoJson.rawArray trimmed).getD [] else keyLines key

/-- The keys of the request; `none` where they cannot be read. -/
def PatchChannel.newKeys (json : Json) (patch : PatchChannel) : Option (List String) :=
  if patch.vertex then
    if hasPrefix (trimSpace patch.channel.key) "[" then getVertexArrayKeys json patch.channel.key
    else some [patch.channel.key]
  else some (((split patch.channel.key '\n').map trimSpace).filter fun key => key ≠ "")

/-- The new keys that are not there yet, each once. -/
def dedupKeys (existing new : List String) : List String :=
  keepFirst id ((existing.map trimSpace).filter fun key => key ≠ "")
    ((new.map trimSpace).filter fun key => key ≠ "")

/-- `UpdateChannel` with the `key_mode` `append`; the row where the request is refused. -/
def appendKeys (json : Json) (row : Channel) (patch : PatchChannel) : Channel :=
  if !patch.valid then row
  else
    let info := { row.channelInfo with
      multiKeyMode := patch.multiKeyMode.getD row.channelInfo.multiKeyMode }
    let channel := { patch.channel with channelInfo := info }
    if row.channelInfo.isMultiKey ∧ row.key ≠ "" then
      match patch.newKeys json with
      | none => row
      | some new =>
        let existing := existingKeys row.key
        row.update { channel with key := joinKeys (existing ++ dedupKeys existing new) }
    else row.update channel

/-! ## `ManageMultiKeys` -/

/-- What is kept of the keys, under new positions. -/
structure Kept where
  keys : List String
  statusList : Map ℕ ChannelStatus
  disabledReason : Map ℕ String
  disabledTime : Map ℕ ℤ

def Kept.empty : Kept := ⟨[], .empty, .empty, .empty⟩

/-- `if x, exists := from[i]; exists { to[newIndex] = x }` -/
def copyAt {α : Type} (source : Map ℕ α) (i newIndex : ℕ) (target : Map ℕ α) : Map ℕ α :=
  match source.get i with
  | some x => target.put newIndex x
  | none => target

/-- One more key, under the next position; `notes` says whether its time and its reason
are kept. -/
def Kept.add (kept : Kept) (info : ChannelInfo) (notes : Bool) (key : String) (i : ℕ) : Kept where
  keys := kept.keys ++ [key]
  statusList :=
    if info.keyStatus i ≠ .enabled then kept.statusList.put kept.keys.length (info.keyStatus i)
    else kept.statusList
  disabledReason :=
    if notes then copyAt info.multiKeyDisabledReason i kept.keys.length kept.disabledReason
    else kept.disabledReason
  disabledTime :=
    if notes then copyAt info.multiKeyDisabledTime i kept.keys.length kept.disabledTime
    else kept.disabledTime

/-- The loop of both deletions, over the keys and their positions. -/
def keepKeys (info : ChannelInfo) (keeps notes : ℕ → Bool) (keys : List (String × ℕ)) : Kept :=
  keys.foldl (fun kept e => if keeps e.2 then kept.add info (notes e.2) e.1 e.2 else kept) .empty

/-- `delete_key` keeps the other keys with all that is known of them. -/
def deleteKey (info : ChannelInfo) (keys : List String) (keyIndex : ℕ) : Kept :=
  keepKeys info (fun i => i ≠ keyIndex) (fun _ => true) keys.zipIdx

/-- `delete_disabled_keys` keeps the keys that are not disabled automatically. -/
def deleteDisabledKeys (info : ChannelInfo) (keys : List String) : Kept :=
  keepKeys info (fun i => info.keyStatus i ≠ .autoDisabled) (fun i => info.keyStatus i ≠ .enabled)
    keys.zipIdx

/-- The channel with the keys that are kept. -/
def Channel.withKept (channel : Channel) (kept : Kept) : Channel :=
  { channel with
    key := joinKeys kept.keys
    channelInfo :=
      { channel.channelInfo with
        multiKeySize := kept.keys.length
        multiKeyStatusList := kept.statusList
        multiKeyDisabledReason := kept.disabledReason
        multiKeyDisabledTime := kept.disabledTime } }

/-- The actions that write; a request may leave the index out. -/
inductive Action
  | disableKey (keyIndex : Option ℤ)
  | enableKey (keyIndex : Option ℤ)
  | enableAllKeys
  | disableAllKeys
  | deleteKey (keyIndex : Option ℤ)
  | deleteDisabledKeys
  deriving DecidableEq

/-- The key that a request addresses: its index, if it is in range. -/
def ChannelInfo.addressed (info : ChannelInfo) : Option ℤ → Option ℕ
  | some i => if 0 ≤ i ∧ i < info.multiKeySize then some i.toNat else none
  | none => none

def ChannelInfo.disableKey (info : ChannelInfo) (i : ℕ) : ChannelInfo :=
  { info with multiKeyStatusList := info.multiKeyStatusList.put i .manuallyDisabled }

def ChannelInfo.enableKey (info : ChannelInfo) (i : ℕ) : ChannelInfo :=
  { info with
    multiKeyStatusList := info.multiKeyStatusList.delete i
    multiKeyDisabledReason := info.multiKeyDisabledReason.delete i
    multiKeyDisabledTime := info.multiKeyDisabledTime.delete i }

def ChannelInfo.enableAllKeys (info : ChannelInfo) : ChannelInfo :=
  { info with
    multiKeyStatusList := .empty
    multiKeyDisabledReason := .empty
    multiKeyDisabledTime := .empty }

/-- The positions that `disable_all_keys` disables. -/
def ChannelInfo.enabledPositions (info : ChannelInfo) : List ℕ :=
  (List.range info.multiKeySize).filter fun i => info.keyStatus i = .enabled

def ChannelInfo.disableAllKeys (info : ChannelInfo) : ChannelInfo :=
  { info with
    multiKeyStatusList := info.enabledPositions.foldl (fun m i => m.put i .manuallyDisabled)
      info.multiKeyStatusList }

/-- `ManageMultiKeys`; the row where the action is refused. -/
def manageMultiKeys (row : Channel) (action : Action) : Channel :=
  let info := row.channelInfo
  if !info.isMultiKey then row
  else match action with
    | .disableKey keyIndex =>
      match info.addressed keyIndex with
      | none => row
      | some i => row.update { row with channelInfo := info.disableKey i }
    | .enableKey keyIndex =>
      match info.addressed keyIndex with
      | none => row
      | some i => row.update { row with channelInfo := info.enableKey i }
    | .enableAllKeys => row.update { row with channelInfo := info.enableAllKeys }
    | .disableAllKeys =>
      if info.enabledPositions = [] then row
      else row.update { row with channelInfo := info.disableAllKeys }
    | .deleteKey keyIndex =>
      match info.addressed keyIndex with
      | none => row
      | some i =>
        let kept := Channels.deleteKey info row.getKeys i
        if kept.keys = [] then row else row.update (row.withKept kept)
    | .deleteDisabledKeys =>
      let kept := Channels.deleteDisabledKeys info row.getKeys
      if kept.keys.length = row.getKeys.length then row else row.update (row.withKept kept)

/-! ## `UpdateChannelStatus` -/

def hasEnabledMultiKey (info : ChannelInfo) (keys : List String) : Bool :=
  (List.range keys.length).any fun i => info.keyStatus i = .enabled

/-- The lists of a channel after the status of a key has changed. -/
def ChannelInfo.setKeyStatus (info : ChannelInfo) (i : ℕ) (status : ChannelStatus) (reason : String)
    (now : ℤ) : ChannelInfo :=
  if status = .enabled then { info with multiKeyStatusList := info.multiKeyStatusList.delete i }
  else
    { info with
      multiKeyStatusList := info.multiKeyStatusList.put i status
      multiKeyDisabledReason := info.multiKeyDisabledReason.put i reason
      multiKeyDisabledTime := info.multiKeyDisabledTime.put i now }

def handlerMultiKeyUpdate (channel : Channel) (usingKey : String) (status : ChannelStatus)
    (reason : String) (now : ℤ) : Channel :=
  let keys := channel.getKeys
  if keys = [] then { channel with status := status }
  else match keys.idxOf? usingKey with
    | none => if usingKey ≠ "" then channel else { channel with status := status }
    | some keyIndex =>
      let info := channel.channelInfo.setKeyStatus keyIndex status reason now
      { channel with
        channelInfo := info
        status :=
          if !hasEnabledMultiKey info keys then .autoDisabled
          else if status = .enabled then .enabled
          else channel.status }

/-- `UpdateChannelStatus` without the memory cache. -/
def updateChannelStatus (row : Channel) (usingKey : String) (status : ChannelStatus)
    (reason : String) (now : ℤ) : Channel × Bool :=
  if row.status = status then (row, false)
  else if row.channelInfo.isMultiKey then
    (handlerMultiKeyUpdate row usingKey status reason now, true)
  else ({ row with status := status }, true)

end Channels
