import GMasterApi.Lib.GoJson
import GMasterApi.Lib.GoMap
import GMasterApi.Lib.GoString
import GMasterApi.Lib.Table

/-!
# Channels and their abilities

A channel lists its groups and its models, each separated by commas, and holds one
key or several.  Its abilities are a row for each pair of them.
-/

namespace Channels

open GoMap GoString

inductive ChannelStatus
  | unknown
  | enabled
  | manuallyDisabled
  | autoDisabled
  | other (code : ℤ)
  deriving DecidableEq

inductive MultiKeyMode
  | random
  | polling
  | other (text : String)
  deriving DecidableEq

/-- `channel_info`; the lists of the keys go by the position of the key. -/
structure ChannelInfo where
  isMultiKey : Bool
  multiKeySize : ℕ
  multiKeyStatusList : Map ℕ ChannelStatus
  multiKeyDisabledReason : Map ℕ String
  multiKeyDisabledTime : Map ℕ ℤ
  multiKeyPollingIndex : ℤ
  multiKeyMode : MultiKeyMode
  deriving DecidableEq

/-- A row of `channels`; `keys` is filled in by the cache. -/
structure Channel where
  id : ℕ
  key : String
  status : ChannelStatus
  weight : Option ℕ
  models : String
  group : String
  priority : Option ℤ
  tag : Option String
  channelInfo : ChannelInfo
  keys : List String
  deriving DecidableEq

abbrev ChannelTable := Table Channel Channel.id

def Channel.getPriority (channel : Channel) : ℤ := channel.priority.getD 0

def Channel.getWeight (channel : Channel) : ℕ := channel.weight.getD 0

/-- The keys in the text of a channel's `Key`: the elements of a JSON array, or its lines. -/
def parseKeys (key : String) : List String :=
  let trimmed := trimSpace key
  let lines := split (trimChar key '\n') '\n'
  if hasPrefix trimmed "[" then (GoJson.rawArray trimmed).getD lines else lines

def Channel.getKeys (channel : Channel) : List String :=
  if channel.key = "" then []
  else if channel.keys ≠ [] then channel.keys
  else parseKeys channel.key

/-! ## Abilities -/

/-- A row of `abilities`. -/
structure Ability where
  group : String
  model : String
  channelId : ℕ
  enabled : Bool
  priority : ℤ
  weight : ℕ
  tag : Option String
  deriving DecidableEq

/-- The primary key. -/
def Ability.key (a : Ability) : String × String × ℕ := (a.group, a.model, a.channelId)

abbrev AbilityTable := Table Ability Ability.key

def Channel.splitGroups (channel : Channel) : List String := split channel.group ','

def Channel.splitModels (channel : Channel) : List String := split channel.models ','

def Channel.ability (channel : Channel) (group model : String) : Ability where
  group := group
  model := model
  channelId := channel.id
  enabled := channel.status = .enabled
  priority := channel.getPriority
  weight := channel.getWeight
  tag := channel.tag

/-- The elements whose key has not been seen before. -/
def keepFirst {α κ : Type} [DecidableEq κ] (key : α → κ) : List κ → List α → List α
  | _, [] => []
  | seen, x :: xs =>
    if key x ∈ seen then keepFirst key seen xs else x :: keepFirst key (key x :: seen) xs

/-- The rows that `AddAbilities` inserts: it goes through the models and the groups, and
takes one pair for each text `group|model`. -/
def Channel.addAbilities (channel : Channel) : List Ability :=
  keepFirst (fun a => a.group ++ "|" ++ a.model) []
    (channel.splitModels.flatMap fun model =>
      channel.splitGroups.map fun group => channel.ability group model)

variable {channel : Channel} {a : Ability} {group model : String}

theorem mem_of_mem_keepFirst {α κ : Type} [DecidableEq κ] {key : α → κ} {x : α} {l : List α} :
    ∀ {seen : List κ}, x ∈ keepFirst key seen l → x ∈ l := by
  induction l with
  | nil =>
    intro seen h
    exact h
  | cons y l ih =>
    intro seen h
    unfold keepFirst at h
    split at h
    · exact List.mem_cons_of_mem _ (ih h)
    · rcases List.mem_cons.mp h with rfl | h
      · exact List.mem_cons_self
      · exact List.mem_cons_of_mem _ (ih h)

/-- The first pairs are always taken. -/
theorem keepFirst_append {α κ : Type} [DecidableEq κ] (key : α → κ) (l l' : List α) :
    ∀ seen : List κ, ∃ seen', keepFirst key seen (l ++ l') =
      keepFirst key seen l ++ keepFirst key seen' l' := by
  induction l with
  | nil =>
    intro seen
    exact ⟨seen, rfl⟩
  | cons y l ih =>
    intro seen
    by_cases hy : key y ∈ seen
    · obtain ⟨seen', h⟩ := ih seen
      refine ⟨seen', ?_⟩
      rw [List.cons_append, keepFirst, if_pos hy, h, keepFirst, if_pos hy]
    · obtain ⟨seen', h⟩ := ih (key y :: seen)
      refine ⟨seen', ?_⟩
      rw [List.cons_append, keepFirst, if_neg hy, h, keepFirst, if_neg hy, List.cons_append]

/-- Every key that has not been seen is taken once. -/
theorem keepFirst_covers {α κ : Type} [DecidableEq κ] (key : α → κ) {l : List α} {x : α} :
    ∀ seen : List κ, key x ∉ seen → x ∈ l → ∃ y ∈ keepFirst key seen l, key y = key x := by
  induction l with
  | nil =>
    intro seen _ h
    cases h
  | cons y l ih =>
    intro seen hseen hx
    unfold keepFirst
    by_cases hy : key y ∈ seen
    · rw [if_pos hy]
      rcases List.mem_cons.mp hx with rfl | hx
      · exact absurd hy hseen
      · exact ih seen hseen hx
    · rw [if_neg hy]
      by_cases hxy : key x = key y
      · exact ⟨y, List.mem_cons_self, hxy.symm⟩
      · rcases List.mem_cons.mp hx with rfl | hx
        · exact absurd rfl hxy
        · obtain ⟨z, hz, hk⟩ := ih (key y :: seen) (by simp [hxy, hseen]) hx
          exact ⟨z, List.mem_cons_of_mem _ hz, hk⟩

theorem split_ne_nil (s : String) (sep : Char) : split s sep ≠ [] := by
  unfold split
  rw [ne_eq, List.map_eq_nil_iff]
  exact List.splitOn_ne_nil _ _

/-- An ability is of a group and a model that its channel lists. -/
theorem mem_addAbilities (h : a ∈ channel.addAbilities) :
    a.group ∈ channel.splitGroups ∧ a.model ∈ channel.splitModels ∧
      a = channel.ability a.group a.model := by
  obtain ⟨model, hmodel, ha⟩ := List.mem_flatMap.mp (mem_of_mem_keepFirst h)
  obtain ⟨group, hgroup, rfl⟩ := List.mem_map.mp ha
  exact ⟨hgroup, hmodel, rfl⟩

/-- Every group has an ability for the first model at least. -/
theorem exists_ability_of_group (h : group ∈ channel.splitGroups) :
    ∃ a ∈ channel.addAbilities, a.group = group := by
  cases hmodels : channel.splitModels with
  | nil => exact absurd hmodels (split_ne_nil _ _)
  | cons model models =>
    have hsplit : channel.addAbilities = keepFirst (fun a : Ability => a.group ++ "|" ++ a.model) []
        ((channel.splitGroups.map fun group => channel.ability group model) ++
          models.flatMap fun model => channel.splitGroups.map fun group =>
            channel.ability group model) := by
      unfold Channel.addAbilities
      rw [hmodels, List.flatMap_cons]
    obtain ⟨y, hy, hkey⟩ := keepFirst_covers (fun a : Ability => a.group ++ "|" ++ a.model) []
      (by simp) (List.mem_map_of_mem (f := fun group => channel.ability group model) h)
    obtain ⟨group', -, rfl⟩ := List.mem_map.mp (mem_of_mem_keepFirst hy)
    have hsame : group' = group := by
      have htext : group' ++ "|" ++ model = group ++ "|" ++ model := hkey
      have hlist := congrArg String.toList htext
      simp only [String.toList_append] at hlist
      exact String.toList_injective (List.append_cancel_right (List.append_cancel_right hlist))
    obtain ⟨seen', happend⟩ := keepFirst_append (fun a : Ability => a.group ++ "|" ++ a.model)
      (channel.splitGroups.map fun group => channel.ability group model)
      (models.flatMap fun model => channel.splitGroups.map fun group =>
        channel.ability group model) []
    refine ⟨channel.ability group' model, ?_, hsame⟩
    rw [hsplit, happend]
    exact List.mem_append_left _ hy

end Channels
