import GMasterApi.Channel.KeyEntries
import GMasterApi.Lib.Transition

/-!
# The status of each key

Every operation on a channel with several keys has its meaning on the list of its keys
with their statuses, and the row keeps to that list as long as the texts that are
written read as the keys they were made of (`keys_attached`).
-/

namespace Channels

open GoMap GoString Transition

/-! ## The operations -/

inductive Operation
  | manage (action : Action)
  | append (patch : PatchChannel)
  | updateStatus (usingKey : String) (status : ChannelStatus) (reason : String) (now : ℤ)

def Channel.after (json : Json) (row : Channel) : Operation → Channel
  | .manage action => manageMultiKeys row action
  | .append patch => appendKeys json row patch
  | .updateStatus usingKey status reason now =>
    (updateChannelStatus row usingKey status reason now).1

/-- A request without an index, or with one that is out of range, changes nothing. -/
def Entries.at (entries : Entries) (keyIndex : Option ℤ) (f : ℕ → Entries) : Entries :=
  match keyIndex with
  | some i => if 0 ≤ i ∧ i < entries.length then f i.toNat else entries
  | none => entries

/-- What each action is for; the last key is not deleted by its index. -/
def Entries.manage (entries : Entries) : Action → Entries
  | .disableKey keyIndex => entries.at keyIndex fun i => entries.setStatus i .manuallyDisabled
  | .enableKey keyIndex => entries.at keyIndex fun i => entries.setStatus i .enabled
  | .enableAllKeys => entries.map fun e => (e.1, .enabled)
  | .disableAllKeys =>
    entries.map fun e => (e.1, if e.2 = .enabled then .manuallyDisabled else e.2)
  | .deleteKey keyIndex =>
    entries.at keyIndex fun i => if entries.length = 1 then entries else entries.eraseIdx i
  | .deleteDisabledKeys => entries.filter fun e => e.2 ≠ .autoDisabled

/-- The new keys come last, and are enabled. -/
def Entries.append (entries : Entries) (new : List String) : Entries :=
  entries ++ (dedupKeys (entries.map Prod.fst) new).map fun key => (key, .enabled)

/-- The status is that of the first key with this text. -/
def Entries.updateStatus (entries : Entries) (usingKey : String) (status : ChannelStatus) :
    Entries :=
  match entries.findIdx? fun e => e.1 = usingKey with
  | some i => entries.setStatus i status
  | none => entries

/-- A channel, and its keys with the status that each was last given. -/
structure Tracked where
  row : Channel
  entries : Entries

/-- The keys that an append adds; `none` where it is refused. -/
def PatchChannel.added (json : Json) (patch : PatchChannel) : Option (List String) :=
  if patch.valid then patch.newKeys json else none

/-- The keys after an operation; a call that reports that it changed nothing has not. -/
def Tracked.entriesAfter (json : Json) (s : Tracked) : Operation → Entries
  | .manage action => s.entries.manage action
  | .append patch =>
    match patch.added json with
    | some new => s.entries.append new
    | none => s.entries
  | .updateStatus usingKey status _ _ =>
    if s.row.status = status then s.entries else s.entries.updateStatus usingKey status

/-- The operations on a channel, one after the other. -/
def keyOperations (json : Json) : System Tracked Operation where
  step s op := some ⟨s.row.after json op, s.entriesAfter json op⟩

/-- The statuses are attached to their keys. -/
structure Attached (s : Tracked) : Prop where
  size : s.row.channelInfo.multiKeySize = s.row.getKeys.length
  range : ∀ i status, s.row.channelInfo.multiKeyStatusList.get i = some status →
    i < s.row.channelInfo.multiKeySize
  entries : s.row.channelInfo.entries s.row.getKeys = s.entries

/-- The row holds keys, in its text. -/
structure Stored (s : Tracked) : Prop extends Attached s where
  isMultiKey : s.row.channelInfo.isMultiKey = true
  keys : s.row.keys = []
  key : s.row.key ≠ ""
  ne_nil : s.row.getKeys ≠ []

/-! ### Writing the row -/

variable {row channel : Channel} {entries : Entries} {s : Tracked} {info : ChannelInfo}
  {keys : List String} {key : String} {json : Json}

theorem getKeys_eq (hkeys : channel.keys = []) (hkey : channel.key ≠ "") :
    channel.getKeys = parseKeys channel.key := by
  unfold Channel.getKeys
  rw [if_neg hkey, hkeys, if_neg (not_not.mpr rfl)]

theorem update_keys : (row.update channel).keys = row.keys := by
  unfold Channel.update
  split <;> rfl

section Update

variable (row channel) (hmulti : channel.channelInfo.isMultiKey = true)
  (hkey : channel.key ≠ "")
include hmulti hkey

theorem update_key : (row.update channel).key = channel.key := by
  unfold Channel.update
  rw [if_pos hmulti]
  exact if_neg hkey

theorem update_channelInfo (hne : parseKeys channel.key ≠ []) :
    (row.update channel).channelInfo =
      { channel.channelInfo with
        multiKeySize := (parseKeys channel.key).length
        multiKeyStatusList := channel.channelInfo.multiKeyStatusList.keep fun i =>
          i < (parseKeys channel.key).length } := by
  unfold Channel.update Channel.updates
  rw [if_pos hmulti]
  dsimp only
  rw [if_pos hkey, if_neg hkey, updateKeys_eq hne]

/-- **Every `Update`** with a text of keys stores what the lists say of these keys. -/
theorem stored_update (hkeys : row.keys = []) (hne : parseKeys channel.key ≠ []) :
    Stored ⟨row.update channel, channel.channelInfo.entries (parseKeys channel.key)⟩ := by
  have htext : (row.update channel).key ≠ "" := by
    rw [update_key row channel hmulti hkey]
    exact hkey
  have hinfo := update_channelInfo row channel hmulti hkey hne
  have hrow : (row.update channel).getKeys = parseKeys channel.key := by
    rw [getKeys_eq (update_keys.trans hkeys) htext, update_key row channel hmulti hkey]
  generalize parseKeys channel.key = keys at hne hinfo hrow ⊢
  refine ⟨⟨?_, ?_, ?_⟩, ?_, update_keys.trans hkeys, htext, ?_⟩
  · dsimp only
    rw [hrow, hinfo]
  · intro i status hget
    dsimp only at hget ⊢
    rw [hinfo] at hget ⊢
    rw [Map.get_keep] at hget
    by_cases hi : i < keys.length
    · exact hi
    · rw [if_neg (by simpa using hi)] at hget
      cases hget
  · dsimp only
    rw [hrow, hinfo]
    apply entries_congr
    intro i hi
    unfold ChannelInfo.keyStatus
    rw [Map.get_keep, if_pos (by simpa using hi)]
  · dsimp only
    rw [hinfo]
    exact hmulti
  · dsimp only
    rw [hrow]
    exact hne

end Update

/-! ### `ManageMultiKeys` -/

theorem Stored.keys_eq (h : Stored s) : s.entries.map Prod.fst = s.row.getKeys := by
  rw [← h.entries, fst_entries]

theorem Stored.length_eq (h : Stored s) : s.entries.length = s.row.getKeys.length := by
  rw [← h.entries, length_entries]

/-- The lists may change, if the text does not. -/
theorem Stored.updateInfo (h : Stored s) (info : ChannelInfo) (hmulti : info.isMultiKey = true) :
    Stored ⟨s.row.update { s.row with channelInfo := info }, info.entries s.row.getKeys⟩ := by
  have hgetKeys := getKeys_eq h.keys h.key
  rw [hgetKeys]
  exact stored_update s.row { s.row with channelInfo := info } hmulti h.key h.keys
    (hgetKeys ▸ h.ne_nil)

/-- The index that the code finds is in range for the keys. -/
theorem Stored.at_eq (h : Stored s) (keyIndex : Option ℤ) (f : ℕ → Entries) :
    s.entries.at keyIndex f = ((s.row.channelInfo.addressed keyIndex).map f).getD s.entries := by
  cases keyIndex with
  | none => rfl
  | some i =>
    unfold Entries.at ChannelInfo.addressed
    dsimp only
    rw [h.size, ← h.length_eq]
    split <;> rfl

theorem addressed_lt {keyIndex : Option ℤ} {i : ℕ} (h : info.addressed keyIndex = some i) :
    i < info.multiKeySize := by
  unfold ChannelInfo.addressed at h
  split at h
  · split at h
    · cases h
      omega
    · cases h
  · cases h

/-- A write of the keys that are kept. -/
theorem Stored.withKept (h : Stored s) {kept : Kept} {l : List (String × ℕ)}
    (hreads : Kept.Reads s.row.channelInfo kept l) (hplain : Plain kept.keys) :
    Stored ⟨s.row.update (s.row.withKept kept),
      l.map fun e => (e.1, s.row.channelInfo.keyStatus e.2)⟩ := by
  have hparse := hplain.parseKeys_joinKeys
  have hstored := stored_update s.row (s.row.withKept kept) h.isMultiKey
    hplain.joinKeys_ne h.keys (hparse.symm ▸ hplain.ne_nil)
  rw [show parseKeys (s.row.withKept kept).key = kept.keys from hparse,
    hreads.entries_withKept] at hstored
  exact hstored

/-- A text that begins as an array and is none.  It is read by lines, but an append finds
no keys in it. -/
def Unreadable (key : String) : Prop :=
  hasPrefix (trimSpace key) "[" = true ∧ GoJson.rawArray (trimSpace key) = none

/-- The condition on an operation: the keys that it writes are read back. -/
def Fits (json : Json) (s : Tracked) : Operation → Prop
  | .manage (.deleteKey keyIndex) => s.entries.manage (.deleteKey keyIndex) = s.entries ∨
      Plain ((s.entries.manage (.deleteKey keyIndex)).map Prod.fst)
  | .manage .deleteDisabledKeys => s.entries.manage .deleteDisabledKeys = s.entries ∨
      Plain ((s.entries.manage .deleteDisabledKeys).map Prod.fst)
  | .append patch => ∀ new, patch.added json = some new →
      (¬ Unreadable s.row.key → Plain ((s.entries.append new).map Prod.fst)) ∧
      (Unreadable s.row.key → dedupKeys [] new = [] ∨
        dedupKeys [] new = s.entries.map Prod.fst ∧ Plain (s.entries.map Prod.fst))
  | _ => True

theorem filter_zipIdx_ne {α : Type} (l : List α) (i : ℕ) : ∀ n,
    (l.zipIdx n).filter (fun e => e.2 ≠ n + i) = (l.zipIdx n).eraseIdx i := by
  induction l generalizing i with
  | nil =>
    intro n
    rfl
  | cons x l ih =>
    intro n
    rw [List.zipIdx_cons]
    cases i with
    | zero =>
      rw [List.filter_cons_of_neg (by simp), List.eraseIdx_cons_zero, List.filter_eq_self]
      rintro ⟨y, j⟩ hy
      have hj := List.le_snd_of_mem_zipIdx hy
      simp only [decide_eq_true_eq]
      omega
    | succ i =>
      rw [List.filter_cons_of_pos (by simp), List.eraseIdx_cons_succ, ← ih i (n + 1)]
      simp only [Nat.add_assoc, Nat.add_comm 1 i]

/-- The kept keys are those of the entries that are kept. -/
theorem Kept.Reads.keys_eq {kept : Kept} {l : List (String × ℕ)} (h : Kept.Reads info kept l)
    (hentries : (l.map fun e => (e.1, info.keyStatus e.2)) = entries) :
    kept.keys = entries.map Prod.fst := by
  rw [h.keys, ← hentries, List.map_map]
  rfl

theorem Stored.reads_deleteKey (h : Stored s) (i : ℕ) :
    ∃ l, Kept.Reads s.row.channelInfo (Channels.deleteKey s.row.channelInfo s.row.getKeys i) l ∧
      (l.map fun e => (e.1, s.row.channelInfo.keyStatus e.2)) = s.entries.eraseIdx i := by
  refine ⟨s.row.getKeys.zipIdx.eraseIdx i, ?_, ?_⟩
  · have hkeep := reads_keepKeys s.row.channelInfo (fun j => j ≠ i) (fun _ => true)
      s.row.getKeys.zipIdx
    have hfilter := filter_zipIdx_ne s.row.getKeys i 0
    rw [Nat.zero_add] at hfilter
    rw [hfilter] at hkeep
    exact hkeep
  · rw [← h.entries, ← List.eraseIdx_map]
    rfl

theorem Stored.reads_deleteDisabledKeys (h : Stored s) :
    ∃ l, Kept.Reads s.row.channelInfo
        (Channels.deleteDisabledKeys s.row.channelInfo s.row.getKeys) l ∧
      (l.map fun e => (e.1, s.row.channelInfo.keyStatus e.2)) =
        s.entries.filter fun e => e.2 ≠ .autoDisabled := by
  refine ⟨s.row.getKeys.zipIdx.filter fun e => s.row.channelInfo.keyStatus e.2 ≠ .autoDisabled,
    reads_keepKeys _ _ _ _, ?_⟩
  rw [← h.entries]
  unfold ChannelInfo.entries
  rw [List.filter_map]
  rfl

theorem Stored.deleteKey (h : Stored s) {keyIndex : Option ℤ}
    (hfits : Fits json s (.manage (.deleteKey keyIndex))) :
    Stored ⟨manageMultiKeys s.row (.deleteKey keyIndex),
      s.entries.manage (.deleteKey keyIndex)⟩ := by
  unfold Fits Entries.manage at hfits
  unfold manageMultiKeys Entries.manage
  dsimp only at hfits ⊢
  rw [h.at_eq] at hfits ⊢
  rw [h.isMultiKey, Bool.not_true, if_neg Bool.false_ne_true]
  cases haddressed : s.row.channelInfo.addressed keyIndex with
  | none => exact h
  | some i =>
    rw [haddressed] at hfits
    simp only [Option.map_some, Option.getD_some] at hfits ⊢
    have hlt : i < s.entries.length := by
      rw [h.length_eq, ← h.size]
      exact addressed_lt haddressed
    obtain ⟨l, hreads, hentries⟩ := h.reads_deleteKey i
    have hkeys := hreads.keys_eq hentries
    by_cases hone : s.entries.length = 1
    · have hnone : s.entries.eraseIdx i = [] := by
        rw [← List.length_eq_zero_iff, List.length_eraseIdx_of_lt hlt, hone]
      rw [if_pos (by rw [hkeys, hnone, List.map_nil]), if_pos hone]
      exact h
    · rw [if_neg hone] at hfits ⊢
      have hplain : Plain ((s.entries.eraseIdx i).map Prod.fst) := by
        rcases hfits with hsame | hplain
        · have hlength := congrArg List.length hsame
          rw [List.length_eraseIdx_of_lt hlt] at hlength
          omega
        · exact hplain
      rw [← hkeys] at hplain
      rw [if_neg hplain.ne_nil, ← hentries]
      exact h.withKept hreads hplain

theorem Stored.deleteDisabledKeys (h : Stored s)
    (hfits : Fits json s (.manage .deleteDisabledKeys)) :
    Stored ⟨manageMultiKeys s.row .deleteDisabledKeys, s.entries.manage .deleteDisabledKeys⟩ := by
  unfold Fits Entries.manage at hfits
  unfold manageMultiKeys Entries.manage
  dsimp only at hfits ⊢
  rw [h.isMultiKey, Bool.not_true, if_neg Bool.false_ne_true]
  obtain ⟨l, hreads, hentries⟩ := h.reads_deleteDisabledKeys
  have hkeys := hreads.keys_eq hentries
  have hlength : (Channels.deleteDisabledKeys s.row.channelInfo s.row.getKeys).keys.length =
      s.row.getKeys.length ↔ (s.entries.filter fun e => e.2 ≠ .autoDisabled) = s.entries := by
    rw [hkeys, List.length_map, ← h.length_eq]
    constructor
    · exact fun heq => List.filter_sublist.eq_of_length heq
    · exact fun heq => congrArg List.length heq
  by_cases hsame : (s.entries.filter fun e => e.2 ≠ .autoDisabled) = s.entries
  · rw [if_pos (hlength.mpr hsame), hsame]
    exact h
  · have hplain := hfits.resolve_left hsame
    rw [← hkeys] at hplain
    rw [if_neg (mt hlength.mp hsame), ← hentries]
    exact h.withKept hreads hplain

/-- Both actions on one key set its status. -/
theorem Stored.setStatus (h : Stored s) {f : ℕ → ChannelInfo} {status : ChannelStatus}
    (keyIndex : Option ℤ) (hmulti : ∀ i, (f i).isMultiKey = true)
    (hstatus : ∀ i j, (f i).keyStatus j =
      if j = i then status else s.row.channelInfo.keyStatus j) :
    Stored ⟨match s.row.channelInfo.addressed keyIndex with
      | none => s.row
      | some i => s.row.update { s.row with channelInfo := f i },
      s.entries.at keyIndex fun i => s.entries.setStatus i status⟩ := by
  rw [h.at_eq]
  cases s.row.channelInfo.addressed keyIndex with
  | none => exact h
  | some i =>
    have hstored := h.updateInfo (f i) (hmulti i)
    rw [entries_setStatus (hstatus i), h.entries] at hstored
    exact hstored

theorem Stored.disableAllKeys (h : Stored s) :
    Stored ⟨manageMultiKeys s.row .disableAllKeys, s.entries.manage .disableAllKeys⟩ := by
  have hentries : s.row.channelInfo.disableAllKeys.entries s.row.getKeys =
      s.entries.map fun e => (e.1, if e.2 = .enabled then .manuallyDisabled else e.2) := by
    rw [← h.entries]
    apply entries_map (f := fun status => if status = .enabled then .manuallyDisabled else status)
    intro i hi
    exact keyStatus_disableAllKeys (h.size ▸ hi)
  unfold manageMultiKeys Entries.manage
  dsimp only
  rw [h.isMultiKey, Bool.not_true, if_neg Bool.false_ne_true]
  by_cases hnone : s.row.channelInfo.enabledPositions = []
  · have hsame : s.row.channelInfo.disableAllKeys = s.row.channelInfo := by
      unfold ChannelInfo.disableAllKeys
      rw [hnone, List.foldl_nil]
    rw [hsame, h.entries] at hentries
    rw [if_pos hnone, ← hentries]
    exact h
  · rw [if_neg hnone, ← hentries]
    exact h.updateInfo s.row.channelInfo.disableAllKeys h.isMultiKey

/-- **Each action** does to the keys what it is for. -/
theorem Stored.manage (h : Stored s) {action : Action} (hfits : Fits json s (.manage action)) :
    Stored ⟨manageMultiKeys s.row action, s.entries.manage action⟩ := by
  have hmulti : (!s.row.channelInfo.isMultiKey) = true ↔ False := by simp [h.isMultiKey]
  cases action with
  | disableKey keyIndex =>
    unfold manageMultiKeys
    rw [if_neg hmulti.mp]
    exact h.setStatus keyIndex (fun _ => h.isMultiKey) keyStatus_disableKey
  | enableKey keyIndex =>
    unfold manageMultiKeys
    rw [if_neg hmulti.mp]
    exact h.setStatus keyIndex (fun _ => h.isMultiKey) keyStatus_enableKey
  | enableAllKeys =>
    unfold manageMultiKeys
    rw [if_neg hmulti.mp]
    have hstored := h.updateInfo s.row.channelInfo.enableAllKeys h.isMultiKey
    rw [entries_map (f := fun _ => .enabled) (fun i _ => rfl), h.entries] at hstored
    exact hstored
  | disableAllKeys => exact h.disableAllKeys
  | deleteKey keyIndex => exact h.deleteKey hfits
  | deleteDisabledKeys => exact h.deleteDisabledKeys hfits

/-! ### Appending keys -/

theorem existingKeys_eq (h : ¬ Unreadable key) : existingKeys key = parseKeys key := by
  rw [parseKeys_eq]
  unfold existingKeys
  dsimp only
  cases hpre : hasPrefix (trimSpace key) "[" with
  | true =>
    rw [if_pos rfl]
    cases harray : GoJson.rawArray (trimSpace key) with
    | none => exact absurd ⟨hpre, harray⟩ h
    | some elements => rw [Option.getD_some, Option.getD_some]
  | false => rw [if_neg Bool.false_ne_true, rawArray_eq_none hpre, Option.getD_none]

theorem existingKeys_of_unreadable (h : Unreadable key) : existingKeys key = [] := by
  unfold existingKeys
  dsimp only
  rw [if_pos h.1, h.2, Option.getD_none]

theorem keepFirst_eq_nil {seen l : List String} (h : ∀ x ∈ l, x ∈ seen) :
    keepFirst id seen l = [] := by
  induction l with
  | nil => rfl
  | cons x l ih =>
    unfold keepFirst
    rw [if_pos (show id x ∈ seen from h x List.mem_cons_self)]
    exact ih fun y hy => h y (List.mem_cons_of_mem _ hy)

/-- Keys that are all there already add nothing. -/
theorem dedupKeys_eq_nil {new : List String} (h : ∀ key ∈ dedupKeys [] new, key ∈ keys) :
    dedupKeys keys new = [] := by
  apply keepFirst_eq_nil
  intro key hkey
  obtain ⟨hmap, hne⟩ := List.mem_filter.mp hkey
  obtain ⟨text, -, rfl⟩ := List.mem_map.mp hmap
  obtain ⟨key', hkey', hsame⟩ := keepFirst_covers (id : String → String) [] (by simp) hkey
  have hmem : trimSpace text ∈ keys := by
    apply h
    rw [← show key' = trimSpace text from hsame]
    exact hkey'
  refine List.mem_filter.mpr ⟨?_, hne⟩
  exact List.mem_map.mpr ⟨_, hmem, trimSpace_trimSpace text⟩

theorem append_of_dedupKeys {new : List String} (h : dedupKeys (entries.map Prod.fst) new = []) :
    entries.append new = entries := by
  unfold Entries.append
  rw [h, List.map_nil, List.append_nil]

theorem entries_append {new : List String} (h : ∀ i, keys.length ≤ i → info.keyStatus i = .enabled) :
    info.entries (keys ++ new) = info.entries keys ++ new.map fun key => (key, .enabled) := by
  apply List.ext_getElem?
  intro i
  rw [getElem?_entries, List.getElem?_append, List.getElem?_append, length_entries,
    getElem?_entries, List.getElem?_map]
  by_cases hi : i < keys.length
  · rw [if_pos hi, if_pos hi]
  · rw [if_neg hi, if_neg hi, h i (by omega)]

/-- No status is listed for a key that is still to come. -/
theorem Stored.keyStatus_of_le (h : Stored s) {i : ℕ} (hi : s.row.getKeys.length ≤ i) :
    s.row.channelInfo.keyStatus i = .enabled := by
  unfold ChannelInfo.keyStatus
  cases hget : s.row.channelInfo.multiKeyStatusList.get i with
  | none => rfl
  | some status =>
    have hlt := h.range i status hget
    rw [h.size] at hlt
    omega

/-- An append whose text is read back. -/
theorem Stored.appended (h : Stored s) {channel : Channel} {new : List String}
    (hstatus : ∀ i, channel.channelInfo.keyStatus i = s.row.channelInfo.keyStatus i)
    (hmulti : channel.channelInfo.isMultiKey = true)
    (hkey : channel.key = joinKeys ((s.entries.append new).map Prod.fst))
    (hplain : Plain ((s.entries.append new).map Prod.fst)) :
    Stored ⟨s.row.update channel, s.entries.append new⟩ := by
  have hparse : parseKeys channel.key = (s.entries.append new).map Prod.fst := by
    rw [hkey, hplain.parseKeys_joinKeys]
  have hstored := stored_update s.row channel hmulti (hkey ▸ hplain.joinKeys_ne) h.keys
    (hparse ▸ hplain.ne_nil)
  have hentries : channel.channelInfo.entries (parseKeys channel.key) = s.entries.append new := by
    rw [hparse]
    unfold Entries.append
    rw [List.map_append, List.map_map, h.keys_eq]
    show channel.channelInfo.entries (s.row.getKeys ++ (dedupKeys s.row.getKeys new).map id) = _
    rw [List.map_id, entries_congr fun i _ => hstatus i,
      entries_append fun i hi => h.keyStatus_of_le hi, h.entries]
  rw [hentries] at hstored
  exact hstored

/-- Without a text of its own, a channel is written with that of the row. -/
theorem update_of_blank (hblank : channel.key = "") (hkey : row.key ≠ "") :
    row.update channel = row.update { channel with key := row.key } := by
  unfold Channel.update Channel.updates
  dsimp only
  rw [if_neg (not_not.mpr hblank), if_pos hkey, if_pos hblank, if_neg hkey, ite_self]

/-- An append without new keys, to a text in which it finds none. -/
theorem Stored.unchanged (h : Stored s) {channel : Channel}
    (hstatus : ∀ i, channel.channelInfo.keyStatus i = s.row.channelInfo.keyStatus i)
    (hmulti : channel.channelInfo.isMultiKey = true) (hblank : channel.key = "") :
    Stored ⟨s.row.update channel, s.entries⟩ := by
  have hparse := getKeys_eq h.keys h.key
  have hstored := stored_update s.row { channel with key := s.row.key }
    hmulti h.key h.keys (hparse ▸ h.ne_nil)
  dsimp only at hstored
  rw [← update_of_blank hblank h.key, ← hparse, entries_congr fun i _ => hstatus i,
    h.entries] at hstored
  exact hstored

theorem Stored.append (h : Stored s) {patch : PatchChannel} (hfits : Fits json s (.append patch)) :
    Stored ⟨s.row.after json (.append patch), s.entriesAfter json (.append patch)⟩ := by
  unfold Fits PatchChannel.added at hfits
  unfold Channel.after Tracked.entriesAfter appendKeys PatchChannel.added
  dsimp only at hfits ⊢
  cases hvalid : patch.valid with
  | false => exact h
  | true =>
    rw [hvalid, if_pos rfl] at hfits
    rw [if_pos rfl, Bool.not_true, if_neg Bool.false_ne_true, if_pos ⟨h.isMultiKey, h.key⟩]
    cases hnew : patch.newKeys json with
    | none => exact h
    | some new =>
      dsimp only
      obtain ⟨hread, hunread⟩ := hfits new hnew
      by_cases hkey : Unreadable s.row.key
      · rw [existingKeys_of_unreadable hkey, List.nil_append]
        have hcovered : s.entries.append new = s.entries := by
          apply append_of_dedupKeys
          apply dedupKeys_eq_nil
          intro key hmem
          rcases hunread hkey with hnil | ⟨hsame, -⟩
          · rw [hnil] at hmem
            cases hmem
          · exact hsame ▸ hmem
        rcases hunread hkey with hnil | ⟨hsame, hplain⟩
        · rw [hnil, hcovered]
          exact h.unchanged (fun i => rfl) h.isMultiKey rfl
        · rw [← hcovered] at hplain
          refine h.appended (fun i => rfl) h.isMultiKey ?_ hplain
          rw [hcovered, ← hsame]
      · rw [existingKeys_eq hkey, ← getKeys_eq h.keys h.key]
        refine h.appended (fun i => rfl) h.isMultiKey ?_ (hread hkey)
        unfold Entries.append
        rw [List.map_append, List.map_map, h.keys_eq]
        exact congrArg (fun l => joinKeys (s.row.getKeys ++ l)) (List.map_id _).symm

/-! ### `UpdateChannelStatus` -/

theorem findIdx?_eq (h : entries.map Prod.fst = keys) (usingKey : String) :
    (entries.findIdx? fun e => e.1 = usingKey) = keys.idxOf? usingKey := by
  rw [← h, List.idxOf?, List.findIdx?_map]
  rfl

theorem setKeyStatus_size (i : ℕ) (status : ChannelStatus) (reason : String) (now : ℤ) :
    (info.setKeyStatus i status reason now).multiKeySize = info.multiKeySize := by
  unfold ChannelInfo.setKeyStatus
  split <;> rfl

theorem setKeyStatus_isMultiKey (i : ℕ) (status : ChannelStatus) (reason : String) (now : ℤ) :
    (info.setKeyStatus i status reason now).isMultiKey = info.isMultiKey := by
  unfold ChannelInfo.setKeyStatus
  split <;> rfl

/-- A listed position was listed before, or is that of the key. -/
theorem setKeyStatus_listed {i j : ℕ} {status status' : ChannelStatus} {reason : String} {now : ℤ}
    (h : (info.setKeyStatus i status reason now).multiKeyStatusList.get j = some status') :
    j = i ∨ info.multiKeyStatusList.get j = some status' := by
  unfold ChannelInfo.setKeyStatus at h
  split at h
  · rw [Map.get_delete] at h
    split at h
    · cases h
    · exact .inr h
  · rw [Map.get_put] at h
    split at h
    · rename_i hj
      exact .inl hj
    · exact .inr h

theorem Stored.updateStatus (h : Stored s) (usingKey : String) (status : ChannelStatus)
    (reason : String) (now : ℤ) :
    Stored ⟨s.row.after json (.updateStatus usingKey status reason now),
      s.entriesAfter json (.updateStatus usingKey status reason now)⟩ := by
  unfold Channel.after Tracked.entriesAfter updateChannelStatus
  dsimp only
  by_cases hsame : s.row.status = status
  · rw [if_pos hsame, if_pos hsame]
    exact h
  · rw [if_neg hsame, if_neg hsame, if_pos h.isMultiKey]
    unfold handlerMultiKeyUpdate Entries.updateStatus
    dsimp only
    rw [if_neg h.ne_nil, findIdx?_eq h.keys_eq]
    cases hfind : s.row.getKeys.idxOf? usingKey with
    | none =>
      dsimp only
      split
      · exact h
      · exact ⟨⟨h.size, h.range, h.entries⟩, h.isMultiKey, h.keys, h.key, h.ne_nil⟩
    | some i =>
      have hlt : i < s.row.getKeys.length := by
        obtain ⟨hlt, -⟩ := List.findIdx?_eq_some_iff_getElem.mp hfind
        exact hlt
      refine ⟨⟨?_, ?_, ?_⟩, ?_, h.keys, h.key, h.ne_nil⟩
      · exact (setKeyStatus_size i status reason now).trans h.size
      · intro j status' hget
        show j < (s.row.channelInfo.setKeyStatus i status reason now).multiKeySize
        rw [setKeyStatus_size]
        rcases setKeyStatus_listed hget with rfl | hget
        · rw [h.size]
          exact hlt
        · exact h.range j status' hget
      · show (s.row.channelInfo.setKeyStatus i status reason now).entries s.row.getKeys = _
        rw [entries_setStatus fun j => keyStatus_setKeyStatus i j status reason now, h.entries]
      · exact (setKeyStatus_isMultiKey i status reason now).trans h.isMultiKey

/-! ## Runs -/

/-- The condition on the request: its keys are read back one for one, and it lists no
status for a key that it does not have. -/
structure AddChannelRequest.Fits (json : Json) (request : AddChannelRequest) : Prop where
  keys : ∀ keys, request.keys json = some keys → Plain keys ∨
    ∃ elements, GoJson.rawArray (trimSpace (joinKeys keys)) = some elements ∧
      elements.length = keys.length
  statuses : ∀ keys, request.keys json = some keys → ∀ i status,
    request.channel.channelInfo.multiKeyStatusList.get i = some status → i < keys.length

/-- A channel, each of its keys with the status that it has. -/
def Channel.tracked (row : Channel) : Tracked := ⟨row, row.channelInfo.entries row.getKeys⟩

theorem stored_addChannel {request : AddChannelRequest} (h : addChannel json request = some row)
    (hfits : request.Fits json) : Stored row.tracked := by
  unfold addChannel at h
  split at h
  · cases h
  · obtain ⟨keys, hkeys, h⟩ := Option.bind_eq_some_iff.mp h
    split at h
    · cases h
    · rename_i hkey
      cases h
      have hlength : (parseKeys (joinKeys keys)).length = keys.length := by
        rcases hfits.keys keys hkeys with hplain | ⟨elements, harray, hlength⟩
        · rw [hplain.parseKeys_joinKeys]
        · rw [parseKeys_eq, harray, Option.getD_some, hlength]
      have hne : keys ≠ [] := by
        rintro rfl
        exact hkey rfl
      have hrow : Channel.getKeys _ = parseKeys (joinKeys keys) :=
        @getKeys_eq { request.channel with key := joinKeys keys, keys := [] } rfl hkey
      refine ⟨⟨?_, hfits.statuses keys hkeys, rfl⟩, rfl, rfl, hkey, ?_⟩
      · exact hlength.symm.trans (congrArg List.length hrow.symm)
      · intro hnil
        apply hne
        rw [← List.length_eq_zero_iff, ← hlength, ← hrow]
        exact congrArg List.length hnil

/-- **One operation** keeps the statuses with their keys. -/
theorem Stored.step {t : Tracked} {op : Operation} (h : Stored s) (hfits : Fits json s op)
    (ht : (keyOperations json).step s op = some t) : Stored t := by
  cases ht
  cases op with
  | manage action => exact h.manage hfits
  | append patch => exact h.append hfits
  | updateStatus usingKey status reason now => exact h.updateStatus usingKey status reason now

/-- **The statuses stay attached to their keys** in a run whose keys are read back from
every text that is written. -/
theorem keys_attached (json : Json) (request : AddChannelRequest) (row : Channel)
    (hadd : addChannel json request = some row) (hrequest : request.Fits json)
    (ops : List Operation) (hfits : (keyOperations json).EveryStep (Fits json) row.tracked ops) :
    (keyOperations json).EveryState Attached row.tracked ops := by
  have hstart := stored_addChannel hadd hrequest
  exact (System.everyState_of_everyStep (fun s op t hs hop ht => hs.step hop ht) hstart
    hfits).mono fun s hs => hs.toAttached

/-! ### A channel with two keys -/

def plainJson : Json := ⟨fun _ => none, GoValue.Value.sprint⟩

def sampleRequest : AddChannelRequest where
  channel :=
    { id := 1
      key := "a\nb"
      status := .unknown
      weight := none
      models := "gpt-4"
      group := "default"
      priority := none
      tag := none
      channelInfo := ⟨false, 0, .empty, .empty, .empty, 0, .random⟩
      keys := [] }
  multiKeyMode := .random
  vertex := false
  valid := true

def sampleRow : Channel :=
  { sampleRequest.channel with
    status := .enabled
    channelInfo := ⟨true, 2, .empty, .empty, .empty, 0, .random⟩ }

def disable (usingKey : String) : Operation := .updateStatus usingKey .autoDisabled "401" 0

/-- One of the keys is disabled and deleted. -/
theorem keys_attached_sample : (keyOperations plainJson).EveryState Attached sampleRow.tracked
    [disable "a", .manage .deleteDisabledKeys] := by
  have hkeys : sampleRequest.keys plainJson = some ["a", "b"] := by decide +kernel
  have htwo : Plain ["a", "b"] := ⟨by decide, by decide, by decide, by decide, by decide +kernel⟩
  have hone : Plain ["b"] := ⟨by decide, by decide, by decide, by decide, by decide +kernel⟩
  refine keys_attached plainJson sampleRequest sampleRow (by decide +kernel) ?_ _ ?_
  · constructor
    · intro keys h
      obtain rfl : ["a", "b"] = keys := Option.some.inj (hkeys.symm.trans h)
      exact .inl htwo
    · intro keys _ i status hget
      cases hget
  · intro s hs
    cases hs
    refine ⟨trivial, ?_⟩
    intro t ht
    cases ht
    refine ⟨.inr ?_, trivial⟩
    have hleft : (((sampleRow.tracked).entriesAfter plainJson (disable "a")).manage
        .deleteDisabledKeys).map Prod.fst = ["b"] := by decide +kernel
    rw [hleft]
    exact hone

/-- Once both are disabled they are not deleted, and are enabled again. -/
theorem keys_reenabled : ¬ (keyOperations plainJson).EveryState Attached sampleRow.tracked
    [disable "a", disable "b", .manage .deleteDisabledKeys] := by
  intro h
  have hend := System.everyState_iff_prefix.mp h _ _ (List.prefix_refl _) rfl
  exact absurd hend.entries (by decide +kernel)

end Channels
