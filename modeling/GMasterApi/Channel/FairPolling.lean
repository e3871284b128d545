import GMasterApi.Channel.CachedStatus
import GMasterApi.Channel.KeyPolling
import GMasterApi.Lib.RoundRobin

/-!
# Polling with the memory cache

`GetNextEnabledKey` reads the polling index from the channel of the cache, and writes the
next one into the channel that it is called on.  Where these are the same, the keys are
polled in turn (`polled_in_turn`); a request may have another copy, from the database or
from before the cache was built anew.
-/

namespace Channels

open GoMap RoundRobin Transition

variable {keys : List String}

/-! ## The copies of a channel -/

/-- A copy of a polled channel with these keys. -/
structure PolledChannel (keys : List String) where
  channel : Channel
  isMultiKey : channel.channelInfo.isMultiKey = true
  polling : channel.channelInfo.multiKeyMode = .polling
  getKeys : channel.getKeys = keys

def PolledChannel.withPollingIndex (copy : PolledChannel keys) (index : ℤ) : PolledChannel keys :=
  ⟨copy.channel.withPollingIndex index, copy.isMultiKey, copy.polling, copy.getKeys⟩

theorem multiKeyMode_handle (channel : Channel) (call : StatusCall) :
    (channel.handle call).channelInfo.multiKeyMode = channel.channelInfo.multiKeyMode ∧
      (channel.handle call).channelInfo.multiKeyPollingIndex =
        channel.channelInfo.multiKeyPollingIndex := by
  cases h : channel.getKeys.idxOf? call.usingKey with
  | none =>
    rw [handle_of_none h]
    exact ⟨rfl, rfl⟩
  | some i =>
    rw [handle_of_some h]
    dsimp only
    unfold ChannelInfo.setKeyStatus
    split <;> exact ⟨rfl, rfl⟩

def PolledChannel.handle (copy : PolledChannel keys) (call : StatusCall) : PolledChannel keys :=
  ⟨copy.channel.handle call, isMultiKey_handle.trans copy.isMultiKey,
    (multiKeyMode_handle copy.channel call).1.trans copy.polling,
    getKeys_handle.trans copy.getKeys⟩

/-- A row in a cache that is built anew over `old`: it has the keys in `Keys`, and the polling
index of `old`. -/
theorem refresh_polled (old row : PolledChannel keys) :
    row.channel.refresh (Map.empty.put row.channel.id old.channel) =
      { row.channel with
        keys := keys
        channelInfo := { row.channel.channelInfo with
          multiKeyPollingIndex := old.channel.channelInfo.multiKeyPollingIndex } } := by
  have hrow : row.channel.channelInfo.isPolling = true := by
    rw [ChannelInfo.isPolling, row.isMultiKey, row.polling]
    rfl
  have hold : old.channel.channelInfo.isPolling = true := by
    rw [ChannelInfo.isPolling, old.isMultiKey, old.polling]
    rfl
  rw [refresh_eq, if_pos row.isMultiKey, row.getKeys, pollingIndex, Map.get_put, if_pos rfl]
  dsimp only
  rw [if_pos ⟨hrow, hold⟩]

theorem getKeys_withKeys (channel : Channel) (h : channel.getKeys = keys) (info : ChannelInfo) :
    ({ channel with keys := keys, channelInfo := info } : Channel).getKeys = keys := by
  change (if channel.key = "" then [] else if keys ≠ [] then keys else parseKeys channel.key) = keys
  unfold Channel.getKeys at h
  by_cases hkey : channel.key = ""
  · rw [if_pos hkey] at h ⊢
    exact h
  · rw [if_neg hkey] at h ⊢
    by_cases hkeys : keys ≠ []
    · exact if_pos hkeys
    · rw [if_neg hkeys]
      split at h
      · rename_i hne
        exact absurd (h ▸ hne) hkeys
      · exact h

def PolledChannel.refresh (old row : PolledChannel keys) : PolledChannel keys where
  channel := row.channel.refresh (Map.empty.put row.channel.id old.channel)
  isMultiKey := by rw [refresh_polled]; exact row.isMultiKey
  polling := by rw [refresh_polled]; exact row.polling
  getKeys := by rw [refresh_polled]; exact getKeys_withKeys row.channel row.getKeys _

theorem index_refresh (old row : PolledChannel keys) :
    (old.refresh row).channel.channelInfo.multiKeyPollingIndex =
      old.channel.channelInfo.multiKeyPollingIndex :=
  congrArg (fun channel => channel.channelInfo.multiKeyPollingIndex) (refresh_polled old row)

/-- `GetNextEnabledKey` on a copy, and the copy with the index that it writes. -/
def PolledChannel.getNextEnabledKey (copy : PolledChannel keys) (cached : ChannelInfo) :
    Except KeyError (String × ℕ) × PolledChannel keys :=
  match copy.channel.getNextEnabledKey 0 (.ok cached) with
  | (result, some saved) =>
    (result, copy.withPollingIndex saved.channelInfo.multiKeyPollingIndex)
  | (result, none) => (result, copy)

/-! ## Calls -/

/-- Where the polling starts. -/
def pollingStart (n : ℕ) (index : ℤ) : ℕ := if index < 0 ∨ n ≤ index then 0 else index.toNat

/-- A call: the copy, where it started and what it returned. -/
structure KeyPoll where
  copy : Channel
  start : ℕ
  result : Except KeyError (String × ℕ)

/-- The channel in `channelsIDM`, the other copies that requests have, and the calls. -/
structure PollingCache (keys : List String) where
  cached : PolledChannel keys
  others : List (PolledChannel keys)
  calls : List KeyPoll

/-- What goes on around the cache; a call is on the channel of the cache or on another copy. -/
inductive PollingAction (keys : List String)
  | getNextEnabledKey (copy : Option ℕ)
  | getChannelById (row : PolledChannel keys)
  | initChannelCache (row : PolledChannel keys)
  | updateChannelStatus (call : StatusCall)

def PollingCache.call (s : PollingCache keys) (copy : PolledChannel keys) :
    KeyPoll × PolledChannel keys :=
  let info := s.cached.channel.channelInfo
  let call := copy.getNextEnabledKey info
  (⟨copy.channel, pollingStart keys.length info.multiKeyPollingIndex, call.1⟩, call.2)

def PollingCache.step (s : PollingCache keys) : PollingAction keys → Option (PollingCache keys)
  | .getNextEnabledKey none =>
    let (poll, copy) := s.call s.cached
    some { s with cached := copy, calls := s.calls ++ [poll] }
  | .getNextEnabledKey (some i) => s.others[i]?.map fun copy =>
    let (poll, copy) := s.call copy
    { s with others := s.others.set i copy, calls := s.calls ++ [poll] }
  | .getChannelById row => some { s with others := s.others ++ [row] }
  | .initChannelCache row =>
    some { s with cached := s.cached.refresh row, others := s.others ++ [s.cached] }
  | .updateChannelStatus call => some { s with cached := s.cached.handle call }

def cachedPolling (keys : List String) : System (PollingCache keys) (PollingAction keys) :=
  ⟨PollingCache.step⟩

/-! ## What is promised -/

/-- The index that was returned. -/
def KeyPoll.index? (poll : KeyPoll) : Option ℕ := poll.result.toOption.map Prod.snd

def KeyPoll.enabled (poll : KeyPoll) (i : ℕ) : Bool := poll.copy.channelInfo.keyStatus i = .enabled

/-- **The keys are polled in turn.**  A call returns a key if one is enabled, and an enabled
one with its index, the first from its start and no fallback; as many calls as there are
enabled keys return each once, around the end; and a key that is enabled in as many calls as
there are keys is returned by one of them. -/
structure InTurn (keys : List String) (calls : List KeyPoll) : Prop where
  found : ∀ poll ∈ calls, (∃ i < keys.length, poll.enabled i = true) →
    ∃ key idx, poll.result = .ok (key, idx)
  returned : ∀ poll ∈ calls, ∀ key idx, poll.result = .ok (key, idx) →
    keys[idx]? = some key ∧ poll.enabled idx = true ∧
      ∃ before after, around keys.length poll.start = before ++ idx :: after ∧
        ∀ i ∈ before, poll.enabled i = false
  once : ∀ before window after enabled, calls = before ++ window ++ after →
    (∀ poll ∈ window, ∀ i < keys.length, poll.enabled i = enabled i) →
    window.length = ((List.range keys.length).filter enabled).length →
    ∃ indexes, window.map KeyPoll.index? = indexes.map some ∧
      indexes ~r (List.range keys.length).filter enabled
  notSkipped : ∀ before window after, calls = before ++ window ++ after →
    keys.length ≤ window.length → ∀ i < keys.length, (∀ poll ∈ window, poll.enabled i = true) →
    some i ∈ window.map KeyPoll.index?

/-- The condition on a step: a call is on the channel that is in the cache. -/
def OnCached : PollingAction keys → Prop
  | .getNextEnabledKey (some _) => False
  | _ => True

/-! ## One call -/

theorem nextIdx_eq (copy : PolledChannel keys) (start : ℕ) : copy.channel.nextIdx start =
    next (fun i => copy.channel.channelInfo.keyStatus i = .enabled) keys.length start := by
  unfold Channel.nextIdx next around
  rw [copy.getKeys]

/-- **One call** returns what the loop finds, and moves the index of the copy behind it; it
fails only where no key is enabled. -/
theorem getNextEnabledKey_polled (copy : PolledChannel keys) (cached : ChannelInfo) :
    let enabled i := decide (copy.channel.channelInfo.keyStatus i = .enabled)
    (next enabled keys.length (pollingStart keys.length cached.multiKeyPollingIndex)).elim
      (∃ e, copy.getNextEnabledKey cached = (.error e, copy)) fun idx =>
        copy.getNextEnabledKey cached =
          (.ok (keys[idx]?.getD "", idx), copy.withPollingIndex ((idx + 1) % keys.length : ℕ)) := by
  dsimp only
  have hnext := nextIdx_eq copy (pollingStart keys.length cached.multiKeyPollingIndex)
  unfold PolledChannel.getNextEnabledKey Channel.getNextEnabledKey
  rw [copy.isMultiKey, copy.polling, copy.getKeys, if_neg (by decide)]
  cases hfound : next (fun i => decide (copy.channel.channelInfo.keyStatus i = .enabled))
      keys.length (pollingStart keys.length cached.multiKeyPollingIndex) with
  | some idx =>
    rw [hfound] at hnext
    rw [Option.elim_some]
    have hkeys : keys ≠ [] := by
      rintro rfl
      exact Nat.not_lt_zero _ (next_lt hfound)
    have hmem := nextIdx_enabled (by rwa [copy.getKeys]) hnext
    obtain ⟨first, rest, hidx⟩ := List.exists_cons_of_ne_nil (List.ne_nil_of_mem hmem)
    unfold pollingStart at hnext
    rw [if_neg hkeys, hidx]
    dsimp only
    rw [hnext]
    dsimp only
    rw [Channel.keyAt, copy.getKeys]
    rfl
  | none =>
    by_cases hkeys : keys = []
    · rw [if_pos hkeys]
      exact ⟨_, rfl⟩
    · have hidx : copy.channel.enabledIdx = [] := by
        rw [List.eq_nil_iff_forall_not_mem]
        intro i hi
        obtain ⟨hlt, henabled⟩ := mem_enabledIdx.mp hi
        rw [copy.getKeys] at hlt
        have hnext : ∃ idx, next (fun i => copy.channel.channelInfo.keyStatus i = .enabled)
            keys.length (pollingStart keys.length cached.multiKeyPollingIndex) = some idx :=
          next_isSome _ hlt (decide_eq_true henabled)
        obtain ⟨idx, hidx⟩ := hnext
        rw [hfound] at hidx
        cases hidx
      rw [if_neg hkeys, hidx]
      exact ⟨_, rfl⟩

/-! ## Calls one after another -/

/-- What a call returns of what it finds enabled. -/
def KeyPoll.Answers (keys : List String) (poll : KeyPoll) : Prop :=
  match next poll.enabled keys.length poll.start with
  | some idx => poll.result = .ok (keys[idx]?.getD "", idx)
  | none => ∃ e, poll.result = .error e

/-- Where the next call starts. -/
def KeyPoll.after (n : ℕ) (poll : KeyPoll) : ℕ :=
  match poll.index? with
  | some idx => (idx + 1) % n
  | none => poll.start

/-- Calls of which each starts where the one before left the index. -/
def Follow (keys : List String) : ℕ → List KeyPoll → ℕ → Prop
  | start, [], stop => stop = start
  | start, poll :: calls, stop =>
    poll.start = start ∧ poll.Answers keys ∧ Follow keys (poll.after keys.length) calls stop

theorem follow_append {start stop : ℕ} {calls later : List KeyPoll} :
    Follow keys start (calls ++ later) stop ↔
      ∃ between, Follow keys start calls between ∧ Follow keys between later stop := by
  induction calls generalizing start with
  | nil =>
    constructor
    · intro h
      exact ⟨start, rfl, h⟩
    · rintro ⟨between, rfl, h⟩
      exact h
  | cons poll calls ih =>
    rw [List.cons_append, Follow, ih]
    constructor
    · rintro ⟨hstart, hanswers, between, hcalls, hlater⟩
      exact ⟨between, ⟨hstart, hanswers, hcalls⟩, hlater⟩
    · rintro ⟨between, ⟨hstart, hanswers, hcalls⟩, hlater⟩
      exact ⟨hstart, hanswers, between, hcalls, hlater⟩

theorem Follow.answers {start stop : ℕ} {calls : List KeyPoll} (h : Follow keys start calls stop) :
    ∀ poll ∈ calls, poll.Answers keys := by
  induction calls generalizing start with
  | nil => exact fun poll hpoll => absurd hpoll List.not_mem_nil
  | cons poll calls ih =>
    rw [List.forall_mem_cons]
    exact ⟨h.2.1, ih h.2.2⟩

/-- Calls that find a key enabled are polls one after another. -/
theorem Follow.polls {start stop : ℕ} {calls : List KeyPoll} (h : Follow keys start calls stop)
    (hsome : ∀ poll ∈ calls, ∃ i < keys.length, poll.enabled i = true) :
    ∃ polls : List Poll, Polls keys.length start polls ∧
      polls.map Poll.enabled = calls.map KeyPoll.enabled ∧
      calls.map KeyPoll.index? = (polls.map Poll.taken).map some := by
  induction calls generalizing start with
  | nil => exact ⟨[], trivial, rfl, rfl⟩
  | cons poll calls ih =>
    rw [List.forall_mem_cons] at hsome
    obtain ⟨hstart, hanswers, hrest⟩ := h
    obtain ⟨i, hi, henabled⟩ := hsome.1
    obtain ⟨idx, hnext⟩ := next_isSome start hi henabled
    unfold KeyPoll.Answers at hanswers
    rw [hstart, hnext] at hanswers
    have hindex : poll.index? = some idx := by
      unfold KeyPoll.index?
      rw [hanswers]
      rfl
    unfold KeyPoll.after at hrest
    rw [hindex] at hrest
    obtain ⟨polls, hpolls, hmap, hindexes⟩ := ih hrest hsome.2
    refine ⟨⟨poll.enabled, idx⟩ :: polls, ⟨hnext, hpolls⟩, congrArg (poll.enabled :: ·) hmap, ?_⟩
    rw [List.map_cons, hindex, hindexes]
    rfl

/-- **Calls one after another** take the keys in turn. -/
theorem Follow.inTurn {start stop : ℕ} {calls : List KeyPoll} (h : Follow keys start calls stop) :
    InTurn keys calls := by
  have hwindow : ∀ before window after, calls = before ++ window ++ after →
      ∃ start stop, Follow keys start window stop := by
    rintro before window after rfl
    obtain ⟨between, hfront, -⟩ := follow_append.mp h
    obtain ⟨first, -, hwindow⟩ := follow_append.mp hfront
    exact ⟨first, between, hwindow⟩
  have hfound : ∀ {window : List KeyPoll} {polls : List Poll},
      polls.map Poll.enabled = window.map KeyPoll.enabled →
      ∀ poll ∈ polls, ∃ call ∈ window, call.enabled = poll.enabled := by
    intro window polls hmap poll hpoll
    have hmem := List.mem_map_of_mem (f := Poll.enabled) hpoll
    rw [hmap] at hmem
    exact List.mem_map.mp hmem
  refine ⟨fun poll hpoll hsome => ?_, fun poll hpoll key idx hok => ?_, ?_, ?_⟩
  · obtain ⟨i, hi, henabled⟩ := hsome
    obtain ⟨idx, hnext⟩ := next_isSome poll.start hi henabled
    have hanswers := h.answers poll hpoll
    unfold KeyPoll.Answers at hanswers
    rw [hnext] at hanswers
    exact ⟨_, idx, hanswers⟩
  · have hanswers := h.answers poll hpoll
    unfold KeyPoll.Answers at hanswers
    rw [hok] at hanswers
    cases hnext : next poll.enabled keys.length poll.start with
    | none =>
      rw [hnext] at hanswers
      obtain ⟨e, he⟩ := hanswers
      cases he
    | some i =>
      rw [hnext] at hanswers
      obtain ⟨rfl, rfl⟩ := Prod.mk.inj (Except.ok.inj hanswers)
      obtain ⟨before, after, hsplit, hidx, hbefore⟩ := next_eq_some_iff.mp hnext
      refine ⟨?_, hidx, before, after, hsplit, hbefore⟩
      rw [List.getElem?_eq_getElem (next_lt hnext)]
      rfl
  · intro before window after enabled hsplit hsame hlength
    obtain ⟨first, last, hcalls⟩ := hwindow before window after hsplit
    have hsome : ∀ poll ∈ window, ∃ i < keys.length, poll.enabled i = true := by
      intro poll hpoll
      have hpos : 0 < ((List.range keys.length).filter enabled).length := by
        rw [← hlength]
        exact List.length_pos_of_mem hpoll
      obtain ⟨i, hi⟩ := List.exists_mem_of_length_pos hpos
      rw [List.mem_filter, List.mem_range] at hi
      exact ⟨i, hi.1, (hsame poll hpoll i hi.1).trans hi.2⟩
    obtain ⟨polls, hpolls, hmap, hindexes⟩ := hcalls.polls hsome
    refine ⟨polls.map Poll.taken, hindexes, hpolls.rotated ?_ ?_⟩
    · intro poll hpoll i hi
      obtain ⟨call, hcall, heq⟩ := hfound hmap poll hpoll
      rw [← heq]
      exact hsame call hcall i hi
    · have hlen := congrArg List.length hmap
      rw [List.length_map, List.length_map] at hlen
      exact hlen.trans hlength
  · intro before window after hsplit hlength i hi henabled
    obtain ⟨first, last, hcalls⟩ := hwindow before window after hsplit
    obtain ⟨polls, hpolls, hmap, hindexes⟩ :=
      hcalls.polls fun poll hpoll => ⟨i, hi, henabled poll hpoll⟩
    have hlen := congrArg List.length hmap
    rw [List.length_map, List.length_map] at hlen
    have htaken := hpolls.taken hi (fun poll hpoll => by
      obtain ⟨call, hcall, heq⟩ := hfound hmap poll hpoll
      rw [← heq]
      exact henabled call hcall) (by omega)
    rw [hindexes]
    exact List.mem_map_of_mem htaken

/-! ## Runs -/

variable {s t : PollingCache keys}

/-- The calls lead to where the cache has its index. -/
def PollingInv (s : PollingCache keys) : Prop :=
  ∃ start, Follow keys start s.calls
    (pollingStart keys.length s.cached.channel.channelInfo.multiKeyPollingIndex)

theorem pollingStart_of_lt {n i : ℕ} (h : i < n) : pollingStart n i = i := by
  unfold pollingStart
  rw [if_neg (by omega), Int.toNat_natCast]

/-- A call on the channel of the cache goes on where the one before ended. -/
theorem PollingInv.call (h : PollingInv s) :
    PollingInv { s with
      cached := (s.call s.cached).2, calls := s.calls ++ [(s.call s.cached).1] } := by
  obtain ⟨start, hcalls⟩ := h
  refine ⟨start, follow_append.mpr ⟨_, hcalls, rfl, ?_⟩⟩
  have hspec := getNextEnabledKey_polled s.cached s.cached.channel.channelInfo
  dsimp only at hspec
  unfold KeyPoll.Answers Follow KeyPoll.after KeyPoll.index?
  unfold PollingCache.call
  dsimp only
  unfold KeyPoll.enabled
  dsimp only
  cases hnext : next (fun i => decide (s.cached.channel.channelInfo.keyStatus i = .enabled))
      keys.length (pollingStart keys.length s.cached.channel.channelInfo.multiKeyPollingIndex) with
  | some idx =>
    rw [hnext, Option.elim_some] at hspec
    rw [hspec]
    have hlt : (idx + 1) % keys.length < keys.length :=
      Nat.mod_lt _ (Nat.lt_of_le_of_lt (Nat.zero_le _) (next_lt hnext))
    exact ⟨rfl, pollingStart_of_lt hlt⟩
  | none =>
    rw [hnext, Option.elim_none] at hspec
    obtain ⟨e, hspec⟩ := hspec
    rw [hspec]
    exact ⟨⟨e, rfl⟩, rfl⟩

theorem PollingInv.step {a : PollingAction keys} (h : PollingInv s) (hcached : OnCached a)
    (ht : (cachedPolling keys).step s a = some t) : PollingInv t := by
  cases a with
  | getNextEnabledKey copy =>
    cases copy with
    | none =>
      cases ht
      exact h.call
    | some i => exact hcached.elim
  | getChannelById row =>
    cases ht
    exact h
  | initChannelCache row =>
    cases ht
    obtain ⟨start, hcalls⟩ := h
    rw [← index_refresh s.cached row] at hcalls
    exact ⟨start, hcalls⟩
  | updateChannelStatus call =>
    cases ht
    obtain ⟨start, hcalls⟩ := h
    rw [← (multiKeyMode_handle s.cached.channel call).2] at hcalls
    exact ⟨start, hcalls⟩

/-- **The keys are polled in turn** in every run whose calls are on the channel that is in
the cache, whatever index it starts from. -/
theorem polled_in_turn (keys : List String) (s : PollingCache keys) (hstart : s.calls = [])
    (as : List (PollingAction keys))
    (hcached : (cachedPolling keys).EveryStep (fun _ => OnCached) s as) :
    (cachedPolling keys).EveryState (fun s => InTurn keys s.calls) s as := by
  have hinv : PollingInv s := by
    refine ⟨pollingStart keys.length s.cached.channel.channelInfo.multiKeyPollingIndex, ?_⟩
    rw [hstart]
    rfl
  refine System.EveryState.mono (fun s h => ?_)
    (System.everyState_of_everyStep (fun _ _ _ h hc ht => h.step hc ht) hinv hcached)
  obtain ⟨start, hcalls⟩ := h
  exact hcalls.inTurn

/-- A channel with the keys `a` and `b`. -/
def polledCopy : PolledChannel polledRow.getKeys := ⟨polledRow, rfl, rfl, rfl⟩

def polledCache : PollingCache polledRow.getKeys := ⟨polledCopy, [], []⟩

theorem polled_in_turn_twice : (cachedPolling polledRow.getKeys).EveryState
    (fun s => InTurn polledRow.getKeys s.calls) polledCache
    [.getNextEnabledKey none, .getNextEnabledKey none] :=
  polled_in_turn _ polledCache rfl _ fun _ _ => ⟨trivial, fun _ _ => ⟨trivial, trivial⟩⟩

/-- Two requests for the channel itself, each of which reads it from the database. -/
def specificRequests : List (PollingAction polledRow.getKeys) :=
  [.getChannelById polledCopy, .getNextEnabledKey (some 0), .getChannelById polledCopy,
    .getNextEnabledKey (some 1)]

/-- Both are given the first key. -/
theorem copies_repeat_the_key :
    ((cachedPolling polledRow.getKeys).run polledCache specificRequests).map
        (fun s => s.calls.map KeyPoll.index?) = some [some 0, some 0] ∧
      ¬ (cachedPolling polledRow.getKeys).EveryState (fun s => InTurn polledRow.getKeys s.calls)
        polledCache specificRequests := by
  refine ⟨by decide +kernel, fun h => ?_⟩
  obtain ⟨indexes, hmap, hrotated⟩ := (h.run rfl).once [] _ [] (fun _ => true)
    (by rw [List.nil_append, List.append_nil]) (by decide +kernel) (by decide +kernel)
  have hsame : indexes = [0, 0] := by
    refine List.map_injective_iff.mpr (Option.some_injective ℕ) (hmap.symm.trans ?_)
    decide +kernel
  have hsecond : 1 ∈ indexes := hrotated.mem_iff.mpr (by decide +kernel)
  rw [hsame] at hsecond
  revert hsecond
  decide

end Channels
