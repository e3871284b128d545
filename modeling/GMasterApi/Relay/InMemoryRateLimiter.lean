import GMasterApi.Lib.Binary64
import GMasterApi.Lib.GoFloat
import GMasterApi.Lib.GoMap
import GMasterApi.Relay.ModelRateLimit

/-!
# The limiter in memory

A queue for each key holds the times of the last requests that were let through.  A sweep drops
the queues whose last time is older than the expiration that the first `Init` has set, whatever
window a key is asked for.  The limiter is a sliding window exactly if no window is longer than
that (`exact_iff`).
-/

namespace Relay.InMemory

open SlidingWindow

/-! ## The limiter -/

structure InMemoryRateLimiter where
  /-- The times for each key, the oldest first. -/
  store : GoMap.Map String (List ℤ)
  /-- In nanoseconds. -/
  expirationDuration : ℤ

/-- `none` has no store; a limiter that has one stays as it is. -/
def init (limiter : Option InMemoryRateLimiter) (expirationDuration : ℤ) : InMemoryRateLimiter :=
  limiter.getD ⟨.empty, expirationDuration⟩

/-- `int64(d.Seconds())`: the seconds and the nanoseconds left over are added as floats. -/
def seconds (d : ℤ) : ℤ :=
  GoFloat.toInt (Binary64.nearest
    (Binary64.nearest (d.tdiv (10 ^ 9)) +
      Binary64.nearest (Binary64.nearest (d.tmod (10 ^ 9)) / 10 ^ 9)))

def expired (expiration now : ℤ) (queue : List ℤ) : Bool :=
  match queue.getLast? with
  | none => true
  | some last => decide (expiration < now - last)

namespace InMemoryRateLimiter

/-- One round of the loop of `clearExpiredItems`, which runs for a positive expiration. -/
def clearExpiredItems (l : InMemoryRateLimiter) (now : ℤ) : InMemoryRateLimiter :=
  if 0 < l.expirationDuration then
    { l with
      store := l.store.keep fun key =>
        !(l.store.get key).any (expired (seconds l.expirationDuration) now) }
  else l

def request (l : InMemoryRateLimiter) (key : String) (maxRequestNum : ℕ) (duration now : ℤ) :
    InMemoryRateLimiter × Bool :=
  match l.store.get key with
  | some queue =>
    if queue.length < maxRequestNum then
      ({ l with store := l.store.put key (queue ++ [now]) }, true)
    else
      match queue with
      | [] => (l, false)
      | first :: rest =>
        if duration ≤ now - first then
          ({ l with store := l.store.put key (rest ++ [now]) }, true)
        else (l, false)
  | none => ({ l with store := l.store.put key [now] }, true)

end InMemoryRateLimiter

/-! ## Runs -/

/-- What each key is asked for. -/
structure Limits where
  maxRequestNum : String → ℕ
  duration : String → ℤ
  max_pos : ∀ key, 1 ≤ maxRequestNum key
  duration_pos : ∀ key, 0 < duration key

inductive Event
  | request (key : String) (now : ℤ)
  | clearExpiredItems (now : ℤ)

def Event.now : Event → ℤ
  | .request _ now => now
  | .clearExpiredItems now => now

/-- An answered request. -/
structure Call where
  key : String
  now : ℤ
  allowed : Bool
  deriving DecidableEq

/-- The calls are kept with the newest first. -/
def step (limits : Limits) (s : InMemoryRateLimiter × List Call) :
    Event → InMemoryRateLimiter × List Call
  | .request key now =>
    let (l, allowed) := s.1.request key (limits.maxRequestNum key) (limits.duration key) now
    (l, ⟨key, now, allowed⟩ :: s.2)
  | .clearExpiredItems now => (s.1.clearExpiredItems now, s.2)

def run (limits : Limits) (expirationDuration : ℤ) (events : List Event) :
    InMemoryRateLimiter × List Call :=
  events.foldl (step limits) (init none expirationDuration, [])

/-! ## A sliding window -/

/-- The earlier calls for the key that were let through in the window that ends at `t`. -/
def allowedIn (key : String) (d t : ℤ) (earlier : List Call) : ℕ :=
  earlier.countP fun c => c.key = key ∧ c.allowed ∧ t - d < c.now ∧ c.now ≤ t

/-- Each call is let through exactly if there is room in its window. -/
def Exact (limits : Limits) : List Call → Prop
  | [] => True
  | c :: earlier =>
    (c.allowed = true ↔
      allowedIn c.key (limits.duration c.key) c.now earlier < limits.maxRequestNum c.key) ∧
    Exact limits earlier

def NonDecreasing (events : List Event) : Prop := (events.map Event.now).Pairwise (· ≤ ·)

/-! ## What the limiter holds -/

/-- The times of the calls for a key that were let through, the newest first. -/
def accepted (key : String) (calls : List Call) : List ℤ :=
  (calls.filter fun c => decide (c.key = key) && c.allowed).map Call.now

def since (base t : ℤ) : ℕ := (t - base).toNat

/-- The queues hold of what was let through what the limits need; times are counted from `base`. -/
structure Holds (limits : Limits) (base : ℤ) (l : InMemoryRateLimiter) (calls : List Call)
    (now : ℤ) : Prop where
  queues : ∀ key, RateLimit.Queue (limits.maxRequestNum key) (limits.duration key).toNat
    (since base now) ((l.store.get key).map (List.map (since base)))
    ((accepted key calls).map (since base))
  descending : ∀ key, (accepted key calls).Pairwise fun newer older => older ≤ newer
  accepted_le : ∀ key, ∀ t ∈ accepted key calls, base ≤ t ∧ t ≤ now
  queue_le : ∀ key queue, l.store.get key = some queue → ∀ t ∈ queue, base ≤ t ∧ t ≤ now

section Run

variable {limits : Limits} {base now : ℤ} {l : InMemoryRateLimiter} {calls : List Call}
  {key : String}

theorem accepted_cons (c : Call) : accepted key (c :: calls) =
    if c.key = key ∧ c.allowed = true then c.now :: accepted key calls else accepted key calls := by
  unfold accepted
  rw [List.filter_cons]
  by_cases hc : c.key = key ∧ c.allowed = true
  · rw [if_pos hc, if_pos (by simpa using hc), List.map_cons]
  · rw [if_neg hc, if_neg (by simpa using hc)]

theorem descending_since {times : List ℤ} (base : ℤ)
    (h : times.Pairwise fun newer older => older ≤ newer) :
    Descending (times.map (since base)) := by
  rw [Descending, List.pairwise_map]
  refine h.imp fun hle => ?_
  unfold since
  omega

/-- The calls in the window are counted from `base`. -/
theorem allowedIn_eq {d : ℤ} (hd : 0 < d) (h : ∀ t ∈ accepted key calls, base ≤ t ∧ t ≤ now) :
    allowedIn key d now calls =
      within d.toNat (since base now) ((accepted key calls).map (since base)) := by
  induction calls with
  | nil => rfl
  | cons c calls ih =>
    rw [accepted_cons] at h ⊢
    unfold allowedIn at ih ⊢
    rw [List.countP_cons]
    by_cases hc : c.key = key ∧ c.allowed = true
    · rw [if_pos hc] at h ⊢
      obtain ⟨hbase, hnow⟩ := h c.now List.mem_cons_self
      rw [ih fun t ht => h t (List.mem_cons_of_mem _ ht), List.map_cons, within_cons]
      have hiff : now - d < c.now ↔ since base now - since base c.now < d.toNat := by
        unfold since
        omega
      simp [hc, hnow, hiff]
    · rw [if_neg hc] at h ⊢
      rw [ih h, if_neg]
      · rfl
      · simp only [decide_eq_true_eq]
        exact fun hall => hc ⟨hall.1, hall.2.1⟩

/-! ### Requests -/

/-- A request over times is one over the times since `base`. -/
theorem request_since {d : ℤ} {n : ℕ}
    (h : ∀ queue, l.store.get key = some queue → ∀ t ∈ queue, base ≤ t ∧ t ≤ now) :
    RateLimit.request n d.toNat (since base now) ((l.store.get key).map (List.map (since base))) =
      (((l.request key n d now).1.store.get key).map (List.map (since base)),
        (l.request key n d now).2) := by
  unfold InMemoryRateLimiter.request
  cases hget : l.store.get key with
  | none => simp [RateLimit.request]
  | some queue =>
    simp only [Option.map_some, RateLimit.request, List.length_map]
    by_cases hroom : queue.length < n
    · simp [hroom]
    · simp only [hroom, if_false]
      cases queue with
      | nil => simp [hget]
      | cons first rest =>
        obtain ⟨hbase, hnow⟩ := h _ hget first List.mem_cons_self
        have hiff : d.toNat ≤ since base now - since base first ↔ d ≤ now - first := by
          unfold since
          omega
        by_cases hout : d ≤ now - first
        · simp [hiff, hout]
        · simp [hiff, hout, hget]

/-- The queues of other keys stay. -/
theorem get_request_of_ne {key' : String} (hne : key' ≠ key) (n : ℕ) (d now : ℤ) :
    (l.request key n d now).1.store.get key' = l.store.get key' := by
  unfold InMemoryRateLimiter.request
  split
  · split
    · simp [hne]
    · split
      · rfl
      · split
        · simp [hne]
        · rfl
  · simp [hne]

/-- A request puts nothing but its own time into a queue. -/
theorem mem_request {d : ℤ} {n : ℕ} {queue : List ℤ} {t : ℤ}
    (h : (l.request key n d now).1.store.get key = some queue) (ht : t ∈ queue) :
    t = now ∨ ∃ old, l.store.get key = some old ∧ t ∈ old := by
  unfold InMemoryRateLimiter.request at h
  split at h
  · rename_i old hold
    split at h
    · rw [GoMap.Map.get_put, if_pos rfl] at h
      cases h
      rcases List.mem_append.mp ht with ht | ht
      · exact .inr ⟨old, hold, ht⟩
      · exact .inl (List.mem_singleton.mp ht)
    · split at h
      · rw [hold] at h
        cases h
        cases ht
      · rename_i first rest _
        split at h
        · rw [GoMap.Map.get_put, if_pos rfl] at h
          cases h
          rcases List.mem_append.mp ht with ht | ht
          · exact .inr ⟨_, hold, List.mem_cons_of_mem first ht⟩
          · exact .inl (List.mem_singleton.mp ht)
        · rw [hold] at h
          cases h
          exact .inr ⟨_, hold, ht⟩
  · rw [GoMap.Map.get_put, if_pos rfl] at h
    cases h
    exact .inl (List.mem_singleton.mp ht)

theorem Holds.mono {now' : ℤ} (h : Holds limits base l calls now) (hle : now ≤ now') :
    Holds limits base l calls now' where
  queues key := (h.queues key).mono (by unfold since; omega)
  descending := h.descending
  accepted_le key t ht := ⟨(h.accepted_le key t ht).1, (h.accepted_le key t ht).2.trans hle⟩
  queue_le key queue hget t ht :=
    ⟨(h.queue_le key queue hget t ht).1, (h.queue_le key queue hget t ht).2.trans hle⟩

/-- **A request** is let through exactly if there is room in its window. -/
theorem Holds.request (h : Holds limits base l calls now) (hbase : base ≤ now) (key : String)
    {l' : InMemoryRateLimiter} {allowed : Bool}
    (heq : l.request key (limits.maxRequestNum key) (limits.duration key) now = (l', allowed)) :
    (allowed = true ↔
        allowedIn key (limits.duration key) now calls < limits.maxRequestNum key) ∧
      Holds limits base l' (⟨key, now, allowed⟩ :: calls) now := by
  have hn := limits.max_pos key
  have hd := limits.duration_pos key
  have hsince := request_since (n := limits.maxRequestNum key) (d := limits.duration key)
    (h.queue_le key)
  obtain ⟨hanswer, hnext⟩ := RateLimit.request_spec (h.queues key)
    (descending_since base (h.descending key))
  rw [hsince, heq] at hanswer hnext
  rw [max_eq_right hn, ← allowedIn_eq hd (h.accepted_le key)] at hanswer
  have hothers : ∀ key', key' ≠ key → l'.store.get key' = l.store.get key' := by
    intro key' hne
    have hget := get_request_of_ne (l := l) hne (limits.maxRequestNum key) (limits.duration key) now
    rwa [heq] at hget
  refine ⟨?_, ?_, ?_, ?_, ?_⟩
  · dsimp only at hanswer
    rw [hanswer]
    simp
  · intro key'
    rw [accepted_cons]
    by_cases hkey : key' = key
    · subst hkey
      cases allowed with
      | true => simpa using hnext
      | false => simpa using hnext
    · rw [hothers key' hkey, if_neg fun hc => hkey hc.1.symm]
      exact h.queues key'
  · intro key'
    rw [accepted_cons]
    split
    · exact List.pairwise_cons.mpr ⟨fun t ht => (h.accepted_le key' t ht).2, h.descending key'⟩
    · exact h.descending key'
  · intro key' t ht
    rw [accepted_cons] at ht
    split at ht
    · rcases List.mem_cons.mp ht with rfl | ht
      · exact ⟨hbase, le_refl _⟩
      · exact h.accepted_le key' t ht
    · exact h.accepted_le key' t ht
  · intro key' queue hget t ht
    by_cases hkey : key' = key
    · subst hkey
      have hafter := hget
      have hfst := congrArg Prod.fst heq
      dsimp only at hfst
      rw [← hfst] at hafter
      rcases mem_request hafter ht with rfl | ⟨old, hold, ht⟩
      · exact ⟨hbase, le_refl _⟩
      · exact h.queue_le key' old hold t ht
    · rw [hothers key' hkey] at hget
      exact h.queue_le key' queue hget t ht

/-! ### Sweeps -/

/-- A sweep leaves a queue as it is, or drops it with its last time older than the expiration. -/
theorem get_clearExpiredItems (l : InMemoryRateLimiter) (now : ℤ) (key : String) :
    (l.clearExpiredItems now).store.get key = l.store.get key ∨
      (l.clearExpiredItems now).store.get key = none ∧ 0 < l.expirationDuration ∧
        ∃ queue, l.store.get key = some queue ∧
          expired (seconds l.expirationDuration) now queue = true := by
  unfold InMemoryRateLimiter.clearExpiredItems
  split
  · rename_i hpos
    rw [GoMap.Map.get_keep]
    cases hget : l.store.get key with
    | none => simp
    | some queue =>
      cases hexpired : expired (seconds l.expirationDuration) now queue with
      | true => simp [hexpired, hpos]
      | false => simp [hexpired]
  · exact .inl rfl

/-- The last time in a queue is the newest. -/
theorem le_last {times : List ℕ} (h : Descending times.reverse) :
    ∀ t ∈ times.reverse, ∀ last, times.getLast? = some last → t ≤ last := by
  intro t ht last hlast
  rw [← List.head?_reverse] at hlast
  obtain ⟨rest, hrest⟩ := List.head?_eq_some_iff.mp hlast
  rw [hrest] at h ht
  rcases List.mem_cons.mp ht with rfl | ht
  · exact le_refl _
  · exact (List.pairwise_cons.mp h).1 t ht

/-- **A sweep** drops no time in a window that is not longer than the expiration. -/
theorem Holds.clearExpiredItems (h : Holds limits base l calls now)
    (hwindow : 0 < l.expirationDuration →
      ∀ key, limits.duration key ≤ seconds l.expirationDuration + 1) :
    Holds limits base (l.clearExpiredItems now) calls now where
  queues key := by
    rcases get_clearExpiredItems l now key with
      hget | ⟨hget, hpos, queue, hqueue, hexpired⟩
    · rw [hget]
      exact h.queues key
    · have hkeeps := h.queues key
      rw [hqueue] at hkeeps
      rw [hget]
      have hdesc := descending_since base (h.descending key)
      refine ⟨hkeeps.keeps.drop hdesc fun t ht => ?_, nofun⟩
      have hle := le_last (hdesc.sublist hkeeps.keeps.isPrefix.sublist) t ht
      rw [Option.map_some, Option.getD_some, ← List.map_reverse] at ht
      obtain ⟨time, htime, rfl⟩ := List.mem_map.mp ht
      have hne : queue ≠ [] := List.ne_nil_of_mem (List.mem_reverse.mp htime)
      have hlast := List.getLast?_eq_some_getLast hne
      rw [expired, hlast, decide_eq_true_eq] at hexpired
      have hd := hwindow hpos key
      have hnow := h.queue_le key queue hqueue _ (List.getLast_mem hne)
      have hlast' := hle (since base (queue.getLast hne)) (by simp [hlast])
      unfold since at hlast' ⊢
      omega
  descending := h.descending
  accepted_le := h.accepted_le
  queue_le key queue hget := by
    rcases get_clearExpiredItems l now key with hsame | ⟨hnone, -⟩
    · rw [hsame] at hget
      exact h.queue_le key queue hget
    · rw [hnone] at hget
      cases hget

end Run

/-! ## Whole runs -/

section Runs

variable {limits : Limits} {expirationDuration base : ℤ} {events : List Event} {key : String}

theorem run_concat (e : Event) : run limits expirationDuration (events ++ [e]) =
    step limits (run limits expirationDuration events) e :=
  List.foldl_concat _ _ _ _

theorem expirationDuration_request {l : InMemoryRateLimiter} {n : ℕ} {d now : ℤ} :
    (l.request key n d now).1.expirationDuration = l.expirationDuration := by
  unfold InMemoryRateLimiter.request
  split
  · split
    · rfl
    · split
      · rfl
      · split <;> rfl
  · rfl

theorem expirationDuration_clearExpiredItems {l : InMemoryRateLimiter} {now : ℤ} :
    (l.clearExpiredItems now).expirationDuration = l.expirationDuration := by
  unfold InMemoryRateLimiter.clearExpiredItems
  split <;> rfl

theorem expirationDuration_run (events : List Event) :
    (run limits expirationDuration events).1.expirationDuration = expirationDuration := by
  induction events using List.reverseRecOn with
  | nil => rfl
  | append_singleton events e ih =>
    rw [run_concat]
    cases e with
    | request key now => exact expirationDuration_request.trans ih
    | clearExpiredItems now => exact expirationDuration_clearExpiredItems.trans ih

theorem holds_init : Holds limits base (init none expirationDuration) [] base where
  queues _ := ⟨keeps_nil _ _ _, nofun⟩
  descending _ := .nil
  accepted_le _ := nofun
  queue_le _ _ hget := by cases hget

/-- Where no window is longer than the expiration, the queues hold what they should, and each
call has been answered as it should be. -/
theorem exact_run (hwindow : 0 < expirationDuration →
      ∀ key, limits.duration key ≤ seconds expirationDuration + 1)
    (h : NonDecreasing events) (hbase : ∀ e ∈ events, base ≤ e.now) :
    Exact limits (run limits expirationDuration events).2 ∧
      ∀ now, base ≤ now → (∀ e ∈ events, e.now ≤ now) →
        Holds limits base (run limits expirationDuration events).1
          (run limits expirationDuration events).2 now := by
  induction events using List.reverseRecOn with
  | nil => exact ⟨trivial, fun now hnow _ => holds_init.mono hnow⟩
  | append_singleton events e ih =>
    rw [NonDecreasing, List.map_append, List.pairwise_append] at h
    obtain ⟨hsorted, -, hlast⟩ := h
    have hbase' := hbase e (List.mem_append_right _ List.mem_cons_self)
    obtain ⟨hexact, hholds⟩ := ih hsorted fun e he => hbase e (List.mem_append_left _ he)
    have hbefore := hholds e.now hbase' fun e' he' =>
      hlast _ (List.mem_map_of_mem he') _ (List.mem_singleton_self _)
    rw [run_concat]
    cases e with
    | request key time =>
      obtain ⟨hanswer, hafter⟩ := hbefore.request hbase' key rfl
      exact ⟨⟨hanswer, hexact⟩, fun now _ hnow =>
        hafter.mono (hnow _ (List.mem_append_right _ List.mem_cons_self))⟩
    | clearExpiredItems time =>
      have hafter := hbefore.clearExpiredItems (by rwa [expirationDuration_run])
      exact ⟨hexact, fun now _ hnow =>
        hafter.mono (hnow _ (List.mem_append_right _ List.mem_cons_self))⟩

/-! ### A window that is longer -/

/-- Requests at one time fill the queue. -/
theorem run_replicate (limits : Limits) (expirationDuration : ℤ) (key : String) {n : ℕ}
    (hn : n ≤ limits.maxRequestNum key) :
    (run limits expirationDuration (List.replicate n (.request key 0))).2 =
        List.replicate n ⟨key, 0, true⟩ ∧
      (run limits expirationDuration (List.replicate n (.request key 0))).1.store.get key =
        if n = 0 then none else some (List.replicate n 0) := by
  induction n with
  | zero => exact ⟨rfl, rfl⟩
  | succ n ih =>
    obtain ⟨hcalls, hget⟩ := ih (by omega)
    rw [List.replicate_succ', run_concat]
    unfold step
    dsimp only
    rw [hcalls]
    unfold InMemoryRateLimiter.request
    rw [hget]
    by_cases hzero : n = 0
    · subst hzero
      simp
    · have hroom : n < limits.maxRequestNum key := by omega
      refine ⟨?_, ?_⟩
      · simp [hzero, hroom, List.replicate_succ]
      · simp [hzero, hroom, List.replicate_succ']

/-- A sweep forgets requests in a window that is longer than the expiration. -/
theorem not_exact (hpos : 0 < expirationDuration)
    (hlong : seconds expirationDuration + 1 < limits.duration key) :
    ∃ events, NonDecreasing events ∧ ¬ Exact limits (run limits expirationDuration events).2 := by
  obtain ⟨n, hn⟩ : ∃ n, n = limits.maxRequestNum key := ⟨_, rfl⟩
  obtain ⟨now, hnow⟩ : ∃ now, now = max 0 (seconds expirationDuration + 1) := ⟨_, rfl⟩
  obtain ⟨full, hfull⟩ : ∃ full, full = List.replicate n (Event.request key 0) := ⟨_, rfl⟩
  have hd := limits.duration_pos key
  have hpos' : n ≠ 0 := by
    have := limits.max_pos key
    omega
  obtain ⟨hcalls, hget⟩ := run_replicate limits expirationDuration key (le_of_eq hn)
  rw [← hfull] at hcalls hget
  rw [if_neg hpos'] at hget
  refine ⟨full ++ [.clearExpiredItems now] ++ [.request key now], ?_, ?_⟩
  · have hnonneg : 0 ≤ now := by omega
    simp [NonDecreasing, hfull, Event.now, List.pairwise_append, hnonneg]
  · have hswept : (run limits expirationDuration
        (full ++ [.clearExpiredItems now])).1.store.get key = none := by
      have hexpired : expired (seconds expirationDuration) now (List.replicate n 0) = true := by
        rw [expired, List.getLast?_replicate, if_neg hpos']
        simp only [decide_eq_true_eq]
        omega
      rw [run_concat]
      show ((run limits expirationDuration full).1.clearExpiredItems now).store.get key = none
      unfold InMemoryRateLimiter.clearExpiredItems
      rw [expirationDuration_run, if_pos hpos, GoMap.Map.get_keep, hget]
      simp [hexpired]
    have hrun : (run limits expirationDuration
        (full ++ [.clearExpiredItems now] ++ [.request key now])).2 =
          ⟨key, now, true⟩ :: List.replicate n ⟨key, 0, true⟩ := by
      rw [run_concat]
      unfold step
      dsimp only
      unfold InMemoryRateLimiter.request
      rw [hswept, run_concat]
      show _ :: (run limits expirationDuration full).2 = _
      rw [hcalls]
    rw [hrun]
    rintro ⟨hroom, -⟩
    have hcount : allowedIn key (limits.duration key) now
        (List.replicate n ⟨key, 0, true⟩) = n := by
      unfold allowedIn
      rw [List.countP_replicate, if_pos]
      rw [decide_eq_true_eq]
      exact ⟨rfl, rfl, by dsimp only; omega, by dsimp only; omega⟩
    have hlt : allowedIn key (limits.duration key) now (List.replicate n ⟨key, 0, true⟩) <
        limits.maxRequestNum key := hroom.mp rfl
    rw [hcount] at hlt
    omega

/-- **The limiter is a sliding window** in every run exactly if it is not swept or no window is
longer than the expiration. -/
theorem exact_iff (limits : Limits) (expirationDuration : ℤ) :
    (∀ events, NonDecreasing events → Exact limits (run limits expirationDuration events).2) ↔
      expirationDuration ≤ 0 ∨ ∀ key, limits.duration key ≤ seconds expirationDuration + 1 := by
  constructor
  · intro hexact
    by_contra hnot
    rw [not_or, not_forall] at hnot
    obtain ⟨hpos, key, hlong⟩ := hnot
    rw [not_le] at hpos hlong
    obtain ⟨events, hsorted, hfails⟩ := not_exact hpos hlong
    exact hfails (hexact events hsorted)
  · intro hwindow events hsorted
    have hbase : ∃ base : ℤ, ∀ e ∈ events, base ≤ e.now := by
      cases events with
      | nil => exact ⟨0, nofun⟩
      | cons first rest =>
        refine ⟨first.now, List.forall_mem_cons.mpr ⟨le_refl _, fun e he => ?_⟩⟩
        exact (List.pairwise_cons.mp hsorted).1 _ (List.mem_map_of_mem he)
    obtain ⟨base, hbase⟩ := hbase
    exact (exact_run (fun hpos => hwindow.resolve_left (by omega)) hsorted hbase).1

end Runs

/-- Two requests an hour. -/
def hourly : Limits where
  maxRequestNum _ := 2
  duration _ := 3600
  max_pos _ := by decide
  duration_pos _ := by decide

/-- A limiter that is swept of what is twenty minutes old lets a third request through. -/
theorem third_in_the_hour : NonDecreasing [.request "u" 0, .request "u" 0, .clearExpiredItems 1201,
      .request "u" 1201] ∧
    ¬ Exact hourly (run hourly (1200 * 10 ^ 9) [.request "u" 0, .request "u" 0,
      .clearExpiredItems 1201, .request "u" 1201]).2 := by
  have hrun : (run hourly (1200 * 10 ^ 9) [.request "u" 0, .request "u" 0,
      .clearExpiredItems 1201, .request "u" 1201]).2 =
        [⟨"u", 1201, true⟩, ⟨"u", 0, true⟩, ⟨"u", 0, true⟩] := by decide +kernel
  refine ⟨by simp [NonDecreasing, Event.now], ?_⟩
  rw [hrun]
  rintro ⟨hroom, -⟩
  exact absurd (hroom.mp rfl) (by decide)

end Relay.InMemory
