import GMasterApi.Channel.MultiKey

/-!
# The keys of a channel with their statuses

A text of keys is read back as the keys it was joined from where they are `Plain`.
What the lists of a channel say of its keys is a list of keys with a status
each, and what is kept of them is a part of that list (`reads_keepKeys`).
-/

namespace Channels

open GoMap GoString

/-! ## Reading the keys back -/

/-- Keys that are read back from the text in which they are joined. -/
structure Plain (keys : List String) : Prop where
  ne_nil : keys ≠ []
  lines : ∀ key ∈ keys, '\n' ∉ key.toList
  head : keys.head? ≠ some ""
  last : keys.getLast? ≠ some ""
  notArray : GoJson.rawArray (trimSpace (joinKeys keys)) = none

variable {keys : List String} {key : String}

theorem rawArray_eq_none (h : hasPrefix key "[" = false) : GoJson.rawArray key = none := by
  unfold GoJson.rawArray
  split
  · rename_i rest hlist
    unfold hasPrefix at h
    rw [hlist] at h
    simp at h
  · rfl

theorem parseKeys_eq : parseKeys key = (GoJson.rawArray (trimSpace key)).getD (keyLines key) := by
  unfold parseKeys keyLines
  dsimp only
  cases hpre : hasPrefix (trimSpace key) "[" with
  | true => rw [if_pos rfl]
  | false => rw [if_neg Bool.false_ne_true, rawArray_eq_none hpre, Option.getD_none]

/-- The keys that are counted are the ones that are read, where there are any. -/
theorem updateKeys_eq (h : parseKeys key ≠ []) : updateKeys key = parseKeys key := by
  rw [parseKeys_eq] at h ⊢
  unfold updateKeys
  dsimp only
  cases hpre : hasPrefix (trimSpace key) "[" with
  | true =>
    cases harray : GoJson.rawArray (trimSpace key) with
    | none => rw [if_pos rfl, Option.getD_none, Option.getD_none, if_pos rfl]
    | some elements =>
      rw [harray, Option.getD_some] at h
      rw [if_pos rfl, Option.getD_some, Option.getD_some, if_neg h]
  | false =>
    rw [if_neg Bool.false_ne_true, if_pos rfl, rawArray_eq_none hpre, Option.getD_none]

theorem Plain.head_ne (h : Plain keys) : ∃ key rest, keys = key :: rest ∧ key ≠ "" := by
  cases hkeys : keys with
  | nil => exact absurd hkeys h.ne_nil
  | cons key rest =>
    refine ⟨key, rest, rfl, ?_⟩
    rintro rfl
    exact h.head (by rw [hkeys, List.head?_cons])

theorem Plain.last_ne (h : Plain keys) : ∃ init key, keys = init ++ [key] ∧ key ≠ "" := by
  refine ⟨keys.dropLast, keys.getLast h.ne_nil, (List.dropLast_append_getLast h.ne_nil).symm, ?_⟩
  intro hempty
  exact h.last (by rw [List.getLast?_eq_some_getLast h.ne_nil, hempty])

theorem Plain.keyLines_joinKeys (h : Plain keys) : keyLines (joinKeys keys) = keys := by
  unfold keyLines joinKeys
  rw [trimChar_of_ends ?_ ?_, split_join h.lines h.ne_nil]
  · obtain ⟨key, rest, hkeys, hne⟩ := h.head_ne
    rw [hkeys, head?_join hne]
    intro hhead
    exact h.lines key (hkeys ▸ List.mem_cons_self) (List.mem_of_head? hhead)
  · obtain ⟨init, key, hkeys, hne⟩ := h.last_ne
    rw [hkeys, getLast?_join hne]
    intro hlast
    exact h.lines key (by simp [hkeys]) (List.mem_of_getLast? hlast)

/-- **Reading back.** -/
theorem Plain.parseKeys_joinKeys (h : Plain keys) : parseKeys (joinKeys keys) = keys := by
  rw [parseKeys_eq, h.notArray, Option.getD_none, h.keyLines_joinKeys]

theorem Plain.joinKeys_ne (h : Plain keys) : joinKeys keys ≠ "" := by
  obtain ⟨key, rest, hkeys, hne⟩ := h.head_ne
  intro hempty
  have hhead : (join (key :: rest) '\n').toList.head? = key.toList.head? := head?_join hne
  rw [← hkeys] at hhead
  unfold joinKeys at hempty
  rw [hempty] at hhead
  exact hne (String.toList_injective (List.head?_eq_none_iff.mp hhead.symm))

/-! ## The keys with their statuses -/

abbrev Entries := List (String × ChannelStatus)

/-- What the lists of a channel say of its keys. -/
def ChannelInfo.entries (info : ChannelInfo) (keys : List String) : Entries :=
  keys.zipIdx.map fun e => (e.1, info.keyStatus e.2)

variable {info info' : ChannelInfo}

@[simp] theorem length_entries : (info.entries keys).length = keys.length := by
  simp [ChannelInfo.entries]

@[simp] theorem fst_entries : (info.entries keys).map Prod.fst = keys := by
  simp [ChannelInfo.entries, Function.comp_def]

theorem getElem?_entries (i : ℕ) :
    (info.entries keys)[i]? = (keys[i]?).map fun key => (key, info.keyStatus i) := by
  simp [ChannelInfo.entries, Function.comp_def]

theorem entries_congr (h : ∀ i < keys.length, info.keyStatus i = info'.keyStatus i) :
    info.entries keys = info'.entries keys := by
  apply List.ext_getElem?
  intro i
  rw [getElem?_entries, getElem?_entries]
  by_cases hi : i < keys.length
  · rw [h i hi]
  · rw [List.getElem?_eq_none (by omega)]
    rfl

/-- The entries with another status for the key at one position. -/
def Entries.setStatus (entries : Entries) (i : ℕ) (status : ChannelStatus) : Entries :=
  entries.modify i fun e => (e.1, status)

theorem entries_setStatus {i : ℕ} {status : ChannelStatus}
    (h : ∀ j, info'.keyStatus j = if j = i then status else info.keyStatus j) :
    info'.entries keys = (info.entries keys).setStatus i status := by
  apply List.ext_getElem?
  intro j
  unfold Entries.setStatus
  rw [List.getElem?_modify, getElem?_entries, getElem?_entries, h]
  by_cases hj : i = j
  · subst hj
    cases keys[i]? <;> simp
  · simp [hj, Ne.symm hj]

theorem entries_map {f : ChannelStatus → ChannelStatus}
    (h : ∀ i < keys.length, info'.keyStatus i = f (info.keyStatus i)) :
    info'.entries keys = (info.entries keys).map fun e => (e.1, f e.2) := by
  apply List.ext_getElem?
  intro i
  rw [List.getElem?_map, getElem?_entries, getElem?_entries]
  by_cases hi : i < keys.length
  · rw [h i hi]
    cases keys[i]? <;> rfl
  · rw [List.getElem?_eq_none (by omega)]
    rfl

/-! ### What the operations do to the lists -/

theorem keyStatus_disableKey (i j : ℕ) : (info.disableKey i).keyStatus j =
    if j = i then .manuallyDisabled else info.keyStatus j := by
  unfold ChannelInfo.disableKey ChannelInfo.keyStatus
  rw [Map.get_put]
  split <;> rfl

theorem keyStatus_enableKey (i j : ℕ) : (info.enableKey i).keyStatus j =
    if j = i then .enabled else info.keyStatus j := by
  unfold ChannelInfo.enableKey ChannelInfo.keyStatus
  rw [Map.get_delete]
  split <;> rfl

theorem keyStatus_setKeyStatus (i j : ℕ) (status : ChannelStatus) (reason : String) (now : ℤ) :
    (info.setKeyStatus i status reason now).keyStatus j =
      if j = i then status else info.keyStatus j := by
  unfold ChannelInfo.setKeyStatus
  by_cases hstatus : status = .enabled
  · rw [if_pos hstatus, hstatus]
    unfold ChannelInfo.keyStatus
    rw [Map.get_delete]
    split <;> rfl
  · rw [if_neg hstatus]
    unfold ChannelInfo.keyStatus
    rw [Map.get_put]
    split <;> rfl

theorem get_foldl_disable {positions : List ℕ} {list : Map ℕ ChannelStatus} (j : ℕ) :
    (positions.foldl (fun m i => m.put i .manuallyDisabled) list).get j =
      if j ∈ positions then some .manuallyDisabled else list.get j := by
  induction positions generalizing list with
  | nil => simp
  | cons i positions ih =>
    rw [List.foldl_cons, ih, Map.get_put]
    by_cases hj : j ∈ positions
    · simp [hj]
    · by_cases hi : j = i
      · simp [hi]
      · simp [hj, hi]

theorem mem_enabledPositions {i : ℕ} :
    i ∈ info.enabledPositions ↔ i < info.multiKeySize ∧ info.keyStatus i = .enabled := by
  simp [ChannelInfo.enabledPositions]

theorem keyStatus_disableAllKeys {i : ℕ} (hi : i < info.multiKeySize) :
    info.disableAllKeys.keyStatus i =
      if info.keyStatus i = .enabled then .manuallyDisabled else info.keyStatus i := by
  unfold ChannelInfo.disableAllKeys ChannelInfo.keyStatus
  dsimp only
  rw [get_foldl_disable]
  by_cases henabled : (info.multiKeyStatusList.get i).getD .enabled = .enabled
  · rw [if_pos (mem_enabledPositions.mpr ⟨hi, henabled⟩), if_pos henabled]
    rfl
  · rw [if_neg fun hmem => henabled (mem_enabledPositions.mp hmem).2, if_neg henabled]

/-! ### The keys that are kept -/

/-- What is kept says of its keys what the channel said of the ones in `l`. -/
structure Kept.Reads (info : ChannelInfo) (kept : Kept) (l : List (String × ℕ)) : Prop where
  keys : kept.keys = l.map Prod.fst
  status : ∀ j, (kept.statusList.get j).getD .enabled =
    ((l[j]?).map fun e => info.keyStatus e.2).getD .enabled

theorem Kept.Reads.add {kept : Kept} {l : List (String × ℕ)} (h : Kept.Reads info kept l)
    (notes : Bool) (e : String × ℕ) : Kept.Reads info (kept.add info notes e.1 e.2) (l ++ [e]) := by
  have hlen : kept.keys.length = l.length := by rw [h.keys, List.length_map]
  constructor
  · show kept.keys ++ [e.1] = (l ++ [e]).map Prod.fst
    rw [h.keys, List.map_append, List.map_singleton]
  · intro j
    have hlist : ((kept.add info notes e.1 e.2).statusList.get j).getD .enabled =
        if j = l.length then info.keyStatus e.2 else (kept.statusList.get j).getD .enabled := by
      unfold Kept.add
      dsimp only
      rw [← hlen]
      by_cases henabled : info.keyStatus e.2 = .enabled
      · rw [if_neg (not_not.mpr henabled), henabled]
        split
        · rename_i hj
          -- there is no entry at the new position yet
          rw [h.status, hj, hlen, List.getElem?_eq_none (le_refl _)]
          rfl
        · rfl
      · rw [if_pos henabled, Map.get_put]
        split <;> rfl
    rw [hlist, h.status, List.getElem?_append]
    by_cases hj : j < l.length
    · rw [if_neg (by omega), if_pos hj]
    · rw [if_neg hj]
      by_cases hj' : j = l.length
      · simp [hj']
      · rw [if_neg hj', List.getElem?_eq_none (by omega), List.getElem?_eq_none (by simp; omega)]

theorem reads_foldl (notes : ℕ → Bool) (l : List (String × ℕ)) : ∀ {kept : Kept} {l₀},
    Kept.Reads info kept l₀ →
      Kept.Reads info (l.foldl (fun kept e => kept.add info (notes e.2) e.1 e.2) kept) (l₀ ++ l) := by
  induction l with
  | nil =>
    intro kept l₀ h
    rw [List.append_nil]
    exact h
  | cons e l ih =>
    intro kept l₀ h
    rw [List.foldl_cons, List.append_cons]
    exact ih (h.add (notes e.2) e)

theorem reads_keepKeys (info : ChannelInfo) (keeps notes : ℕ → Bool) (l : List (String × ℕ)) :
    Kept.Reads info (keepKeys info keeps notes l) (l.filter fun e => keeps e.2) := by
  unfold keepKeys
  have hempty : Kept.Reads info .empty [] := ⟨rfl, fun j => rfl⟩
  have hfold := reads_foldl notes (l.filter fun e => keeps e.2) hempty
  rw [List.foldl_filter] at hfold
  exact hfold

theorem Kept.Reads.entries_withKept {kept : Kept} {l : List (String × ℕ)} {channel : Channel}
    (h : Kept.Reads info kept l) : (channel.withKept kept).channelInfo.entries kept.keys =
      l.map fun e => (e.1, info.keyStatus e.2) := by
  apply List.ext_getElem?
  intro j
  rw [getElem?_entries, h.keys, List.getElem?_map, List.getElem?_map]
  show Option.map (fun key => (key, (kept.statusList.get j).getD .enabled)) _ = _
  rw [h.status]
  cases l[j]? <;> rfl

end Channels
