import Mathlib.Algebra.Order.Ring.Nat
import Mathlib.Data.List.Basic

/-!
# Events in a window of time

Events are times with the newest first.  `full_iff` says how a limiter that keeps the last
`n` of them, or fewer where the others are out of the window, knows that there were `n` in the
window.  `le_level_add` is the bound that a bucket of tokens keeps.
-/

namespace SlidingWindow

/-- Newest first. -/
def Descending (events : List ℕ) : Prop := events.Pairwise fun newer older => older ≤ newer

/-- How many events lie less than `d` back. -/
def within (d now : ℕ) (events : List ℕ) : ℕ := events.countP fun t => now - t < d

variable {d n now now' t : ℕ} {events kept : List ℕ}

@[simp] theorem within_nil : within d now [] = 0 := rfl

theorem within_cons : within d now (t :: events) =
    within d now events + if now - t < d then 1 else 0 := by
  unfold within
  rw [List.countP_cons]
  simp

theorem within_eq_zero (h : ∀ t ∈ events, d ≤ now - t) : within d now events = 0 := by
  unfold within
  rw [List.countP_eq_zero]
  intro t ht
  have := h t ht
  simp only [decide_eq_true_eq]
  omega

/-- The events in the window are the first ones. -/
theorem lt_within_iff (h : Descending events) (i : ℕ) :
    i < within d now events ↔ ∃ t, events[i]? = some t ∧ now - t < d := by
  induction events generalizing i with
  | nil => simp
  | cons a events ih =>
    obtain ⟨hle, htail⟩ := List.pairwise_cons.mp h
    by_cases ha : now - a < d
    · rw [within_cons, if_pos ha]
      cases i with
      | zero => simp [ha]
      | succ i =>
        rw [List.getElem?_cons_succ, ← ih htail i]
        omega
    · have hzero : within d now (a :: events) = 0 := by
        apply within_eq_zero
        intro t ht
        rcases List.mem_cons.mp ht with rfl | ht
        · omega
        · have := hle t ht
          omega
      rw [hzero]
      refine iff_of_false (by omega) ?_
      rintro ⟨t, ht, hlt⟩
      have hmem := List.mem_of_getElem? ht
      rcases List.mem_cons.mp hmem with rfl | hmem
      · exact ha hlt
      · have := hle t hmem
        omega

/-! ## What a limiter keeps -/

/-- The newest events, at most `n` of them; those of the last `n` that are not kept are out of the
window. -/
structure Keeps (n d now : ℕ) (kept events : List ℕ) : Prop where
  isPrefix : kept <+: events
  length_le : kept.length ≤ n
  out : kept.length < n → ∀ t ∈ events.drop kept.length, d ≤ now - t

theorem keeps_nil (n d now : ℕ) : Keeps n d now [] [] :=
  ⟨List.prefix_rfl, Nat.zero_le n, fun _ => nofun⟩

theorem Keeps.mono (h : Keeps n d now kept events) (hle : now ≤ now') :
    Keeps n d now' kept events where
  isPrefix := h.isPrefix
  length_le := h.length_le
  out := by
    intro hlt t ht
    have := h.out hlt t ht
    omega

/-- A new event pushes the oldest one out. -/
theorem Keeps.cons (h : Keeps n d now kept events) (a : ℕ) :
    Keeps n d now ((a :: kept).take n) (a :: events) where
  isPrefix := (List.take_prefix n _).trans ((List.prefix_cons_inj a).mpr h.isPrefix)
  length_le := List.length_take_le n _
  out := by
    intro hlt t ht
    rw [List.length_take, List.length_cons] at hlt ht
    have hlen : min n (kept.length + 1) = kept.length + 1 := by omega
    rw [hlen, List.drop_succ_cons] at ht
    exact h.out (by omega) t ht

/-- All that is kept may be dropped once it is out of the window. -/
theorem Keeps.drop (h : Keeps n d now kept events) (hdesc : Descending events)
    (hout : ∀ t ∈ kept, d ≤ now - t) : Keeps n d now [] events where
  isPrefix := List.nil_prefix
  length_le := Nat.zero_le n
  out := by
    intro hpos t ht
    rw [List.length_nil, List.drop_zero] at ht
    cases hkept : kept with
    | nil =>
      rw [hkept] at h
      exact h.out hpos t ht
    | cons a kept' =>
      obtain ⟨rest, hevents⟩ := h.isPrefix
      rw [hkept] at hevents hout
      rw [← hevents, List.cons_append] at ht hdesc
      have ha := hout a List.mem_cons_self
      rcases List.mem_cons.mp ht with rfl | ht
      · exact ha
      · have := (List.pairwise_cons.mp hdesc).1 t ht
        omega

/-- **The window is full** exactly if `n` events are kept and the oldest is in it. -/
theorem Keeps.full_iff (h : Keeps n d now kept events) (hn : 0 < n) (hdesc : Descending events) :
    n ≤ within d now events ↔
      kept.length = n ∧ ∃ oldest, kept.getLast? = some oldest ∧ now - oldest < d := by
  have hat : n ≤ within d now events ↔ ∃ t, events[n - 1]? = some t ∧ now - t < d := by
    rw [← lt_within_iff hdesc]
    omega
  rw [hat]
  obtain ⟨rest, rfl⟩ := h.isPrefix
  by_cases hlen : kept.length = n
  · have hget : (kept ++ rest)[n - 1]? = kept.getLast? := by
      rw [List.getElem?_append_left (by omega), List.getLast?_eq_getElem?, hlen]
    rw [hget]
    exact (and_iff_right hlen).symm
  · have hlt : kept.length < n := by
      have := h.length_le
      omega
    refine iff_of_false ?_ fun h => hlen h.1
    rintro ⟨t, ht, hnow⟩
    have hmem : t ∈ (kept ++ rest).drop kept.length := by
      rw [List.mem_iff_getElem?]
      refine ⟨n - 1 - kept.length, ?_⟩
      rw [List.getElem?_drop]
      have hidx : kept.length + (n - 1 - kept.length) = n - 1 := by omega
      rw [hidx]
      exact ht
    have := h.out hlt t hmem
    omega

/-! ## A bucket of tokens -/

/-- The tokens in a bucket of `rate * d` that gains `rate` in each unit of time and loses `d` for
each event. -/
def level (rate d : ℕ) : List ℕ → ℕ → ℕ
  | [], _ => rate * d
  | t :: events, now => min (rate * d) (level rate d events t - d + (now - t) * rate)

/-- The tokens for every event were in the bucket. -/
def Filled (rate d : ℕ) : List ℕ → Prop
  | [] => True
  | t :: events => d ≤ level rate d events t ∧ Filled rate d events

/-- A bucket that is filled up in between is as full. -/
theorem level_add (rate d : ℕ) {events : List ℕ} (hle : ∀ t ∈ events, t ≤ now) (hnow : now ≤ now') :
    min (rate * d) (level rate d events now + (now' - now) * rate) = level rate d events now' := by
  cases events with
  | nil => exact min_eq_left (Nat.le_add_right _ _)
  | cons t events =>
    have ht := hle t List.mem_cons_self
    have hsplit : (now' - t) * rate = (now - t) * rate + (now' - now) * rate := by
      rw [← Nat.add_mul]
      congr 1
      omega
    unfold level
    rw [hsplit]
    omega

/-- **What a bucket has lost** in a window it has gained again, or has been lost for an event in
the window. -/
theorem le_level_add {rate w : ℕ} (hdesc : Descending events) (hfilled : Filled rate d events)
    (hle : ∀ t ∈ events, t ≤ now) (hw : w ≤ d) :
    rate * w ≤ level rate d events now + d * within w now events := by
  induction events generalizing now w with
  | nil => exact (Nat.mul_le_mul_left rate hw).trans (Nat.le_add_right _ _)
  | cons t events ih =>
    obtain ⟨holder, hdesc⟩ := List.pairwise_cons.mp hdesc
    obtain ⟨htokens, hfilled⟩ := hfilled
    have ht := hle t List.mem_cons_self
    have hcap : rate * w ≤ rate * d := Nat.mul_le_mul_left rate hw
    by_cases hin : now - t < w
    · have hshift : within w now events = within (w - (now - t)) t events := by
        unfold within
        apply List.countP_congr
        intro s hs
        have := holder s hs
        simp only [decide_eq_true_eq]
        omega
      have hold := ih hdesc hfilled holder (w := w - (now - t)) (by omega)
      have hsplit : rate * w = rate * (w - (now - t)) + (now - t) * rate := by
        rw [Nat.mul_comm (now - t) rate, ← Nat.mul_add]
        congr 1
        omega
      rw [within_cons, if_pos hin, hshift, Nat.mul_add, Nat.mul_one]
      unfold level
      omega
    · have hgain : rate * w ≤ (now - t) * rate := by
        rw [Nat.mul_comm (now - t) rate]
        exact Nat.mul_le_mul_left rate (by omega)
      unfold level
      omega

/-- A bucket without the tokens for one more event has seen as many as its rate in the window. -/
theorem le_within_of_level_lt {rate : ℕ} (hdesc : Descending events)
    (hfilled : Filled rate d events) (hle : ∀ t ∈ events, t ≤ now)
    (hlt : level rate d events now < d) : rate ≤ within d now events := by
  have h := le_level_add hdesc hfilled hle (le_refl d)
  by_contra hnot
  have hsucc : within d now events + 1 ≤ rate := by omega
  have hmul := Nat.mul_le_mul_right d hsucc
  rw [Nat.add_mul, Nat.one_mul, Nat.mul_comm (within d now events) d] at hmul
  omega

end SlidingWindow
