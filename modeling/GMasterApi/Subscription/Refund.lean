import GMasterApi.Subscription.Consume
import Mathlib.Tactic.Linarith

/-!
# Refunding a pre-consumed subscription

`RefundSubscriptionPreConsume` lowers the quota in a transaction of its own before
it marks the record refunded.  An attempt that commits the first and fails the
second is tried again, and lowers the quota again.

`refunded_once_iff` says exactly which attempts refund once.
-/

namespace Subscription

open GoString

/-- The attempts `faults` one after another; the store they leave, and whether one
of them returned nil. -/
def refundAttempts (requestId : String) : Store → List (Faults RefundStep) → Store × Bool
  | store, [] => (store, false)
  | store, faults :: rest =>
    let out := refundSubscriptionPreConsume faults store requestId
    let later := refundAttempts requestId out.1 rest
    (later.1, out.2.isOk || later.2)

/-- `refundWithRetry`: attempts up to the first that returns nil, at most three. -/
def refundWithRetry (requestId : String) (maxAttempts : ℕ) (store : Store)
    (faults : ℕ → Faults RefundStep) : Store × Except String Unit :=
  match maxAttempts with
  | 0 => (store, .ok ())
  | left + 1 =>
    let out := refundSubscriptionPreConsume (faults 0) store requestId
    if out.2.isOk ∨ left = 0 then out
    else refundWithRetry requestId left out.1 fun i => faults (i + 1)

/-- The `AmountUsed` of a subscription. -/
def usedOf (store : Store) (subId : ℕ) : ℤ :=
  match store.subs.find subId with
  | some sub => sub.amountUsed
  | none => 0

/-- **Refunded once.**  `AmountUsed` went down by at most what was pre-consumed, and
by exactly that where an attempt returned nil and only there. -/
def RefundedOnce (subId : ℕ) (preConsumed : ℤ) (before : Store) (after : Store × Bool) : Prop :=
  usedOf before subId - usedOf after.1 subId ≤ preConsumed ∧
    (usedOf before subId - usedOf after.1 subId = preConsumed ↔ after.2 = true)

/-- A consumed record as `PreConsumeUserSubscription` leaves it. -/
structure Refundable (store : Store) (requestId : String) (record : PreConsumeRecord)
    (sub : UserSubscription) : Prop where
  named : trimSpace requestId ≠ ""
  recorded : store.records.find requestId = some record
  consumed : record.status = .consumed
  positive : 0 < record.preConsumed
  subId : record.userSubscriptionId ≠ 0
  found : store.subs.find record.userSubscriptionId = some sub
  nonneg : 0 ≤ sub.amountUsed
  within : 0 < sub.amountTotal → sub.amountUsed ≤ sub.amountTotal

/-- Such a record whose subscription still carries what it consumed. -/
structure Outstanding (store : Store) (requestId : String) (record : PreConsumeRecord)
    (sub : UserSubscription) : Prop extends Refundable store requestId record sub where
  covered : record.preConsumed ≤ sub.amountUsed

/-- The attempt gets as far as committing the delta. -/
def lowers (faults : Faults RefundStep) : Bool :=
  (faults .findRecord).isNone && (faults (.inner .findSub)).isNone &&
    (faults (.inner .saveSub)).isNone && (faults (.inner .commit)).isNone

/-- The attempt saves and commits the record. -/
def closes (faults : Faults RefundStep) : Bool :=
  (faults .saveRecord).isNone && (faults .commit).isNone

/-- No step of the attempt fails. -/
def clean (faults : Faults RefundStep) : Bool := lowers faults && closes faults

/-- The delta is committed, the record is not. -/
def splits (faults : Faults RefundStep) : Bool := lowers faults && !closes faults

/-! ## One attempt -/

variable {store : Store} {requestId : String} {record : PreConsumeRecord} {sub : UserSubscription}
  {faults : Faults RefundStep}

/-- The row after the delta of a refund. -/
def lowered (record : PreConsumeRecord) (sub : UserSubscription) : UserSubscription :=
  { sub with amountUsed := usedAfter sub.amountUsed (-record.preConsumed) }

theorem Refundable.fits (h : Refundable store requestId record sub) :
    sub.fits (-record.preConsumed) := by
  intro ht
  have := h.within ht
  have := h.positive
  unfold usedAfter
  split <;> omega

/-- The store after the delta is one from which the next attempt can go on. -/
theorem Refundable.lowered (h : Refundable store requestId record sub) :
    Refundable (store.saveSub (lowered record sub)) requestId record (lowered record sub) where
  named := h.named
  recorded := h.recorded
  consumed := h.consumed
  positive := h.positive
  subId := h.subId
  found := by
    have hid : (Subscription.lowered record sub).id = record.userSubscriptionId :=
      (Table.find_eq_some_iff.mp h.found).2
    have hfound := h.found
    rw [← hid] at hfound ⊢
    exact Table.find_save_self hfound
  nonneg := by
    show 0 ≤ usedAfter _ _
    unfold usedAfter
    split <;> omega
  within := fun ht => h.fits ht

/-- The store once the record is marked refunded. -/
def closed (store : Store) (record : PreConsumeRecord) : Store :=
  { store with records := store.records.save { record with status := .refunded } }

/-- The delta of an attempt that finds its record. -/
theorem Refundable.delta (h : Refundable store requestId record sub) (faults : Faults DeltaStep) :
    postConsumeUserSubscriptionDelta faults store record.userSubscriptionId (-record.preConsumed) =
      (do
        faults.at .findSub
        faults.at .saveSub
        faults.at .commit
        return store.saveSub (Subscription.lowered record sub)) := by
  have := h.positive
  exact postConsume_of_fits h.subId (by omega) h.found h.fits

theorem Refundable.attempt (h : Refundable store requestId record sub) :
    refundSubscriptionPreConsume faults store requestId =
      match faults.at .findRecord with
      | .error e => (store, .error e)
      | .ok () =>
        match postConsumeUserSubscriptionDelta (fun step => faults (.inner step)) store
            record.userSubscriptionId (-record.preConsumed) with
        | .error e => (store, .error e)
        | .ok lowered =>
          match closeRecord faults lowered record with
          | .error e => (lowered, .error e)
          | .ok closed => (closed, .ok ()) := by
  have hp := h.positive
  have hc : record.status ≠ .refunded := by rw [h.consumed]; decide
  unfold refundSubscriptionPreConsume
  rw [if_neg h.named, h.recorded]
  cases faults.at .findRecord with
  | error e => rfl
  | ok u =>
    exact (if_neg hc).trans (if_neg (not_le.mpr hp))

/-- An attempt that fails before its delta commits changes nothing. -/
theorem Refundable.attempt_of_not_lowers (h : Refundable store requestId record sub)
    (hf : lowers faults = false) :
    ∃ e, refundSubscriptionPreConsume faults store requestId = (store, .error e) := by
  rw [h.attempt, h.delta]
  simp only [Faults.at]
  cases h₁ : faults .findRecord with
  | some e => exact ⟨e, rfl⟩
  | none =>
    cases h₂ : faults (.inner .findSub) with
    | some e => exact ⟨e, rfl⟩
    | none =>
      cases h₃ : faults (.inner .saveSub) with
      | some e => exact ⟨e, rfl⟩
      | none =>
        cases h₄ : faults (.inner .commit) with
        | some e => exact ⟨e, rfl⟩
        | none => simp [lowers, h₁, h₂, h₃, h₄] at hf

/-- An attempt whose delta commits goes on with the record. -/
theorem Refundable.attempt_of_lowers (h : Refundable store requestId record sub)
    (hf : lowers faults = true) :
    refundSubscriptionPreConsume faults store requestId =
      match closeRecord faults (store.saveSub (Subscription.lowered record sub)) record with
      | .error e => (store.saveSub (Subscription.lowered record sub), .error e)
      | .ok closed => (closed, .ok ()) := by
  simp only [lowers, Bool.and_eq_true, Option.isNone_iff_eq_none] at hf
  obtain ⟨⟨⟨h₁, h₂⟩, h₃⟩, h₄⟩ := hf
  rw [h.attempt, h.delta]
  simp only [Faults.at, h₁, h₂, h₃, h₄]
  rfl

theorem Refundable.attempt_of_splits (h : Refundable store requestId record sub)
    (hf : splits faults = true) :
    ∃ e, refundSubscriptionPreConsume faults store requestId =
      (store.saveSub (Subscription.lowered record sub), .error e) := by
  simp only [splits, Bool.and_eq_true] at hf
  rw [h.attempt_of_lowers hf.1]
  unfold closeRecord Faults.at
  cases h₁ : faults .saveRecord with
  | some e => exact ⟨e, rfl⟩
  | none =>
    cases h₂ : faults .commit with
    | some e => exact ⟨e, rfl⟩
    | none => simp [closes, h₁, h₂] at hf

theorem Refundable.attempt_of_clean (h : Refundable store requestId record sub)
    (hf : clean faults = true) :
    refundSubscriptionPreConsume faults store requestId =
      (closed (store.saveSub (Subscription.lowered record sub)) record, .ok ()) := by
  simp only [clean, closes, Bool.and_eq_true, Option.isNone_iff_eq_none] at hf
  rw [h.attempt_of_lowers hf.1]
  simp only [closeRecord, Faults.at, hf.2.1, hf.2.2]
  rfl

/-- A refunded record is left alone. -/
theorem attempt_of_refunded (hr : store.records.find requestId = some record)
    (hs : record.status = .refunded) :
    (refundSubscriptionPreConsume faults store requestId).1 = store := by
  unfold refundSubscriptionPreConsume
  split
  · rfl
  · rw [hr]
    cases faults.at .findRecord with
    | error e => rfl
    | ok u => simp only [hs, if_true]

/-! ## Any number of attempts -/

/-- How often a delta is committed without its record, before the first attempt
that meets no failure. -/
def splitsBefore (attempts : List (Faults RefundStep)) : ℕ :=
  (attempts.takeWhile fun f => !clean f).countP splits

/-- How often the delta is committed in all. -/
def lowerings (attempts : List (Faults RefundStep)) : ℕ :=
  splitsBefore attempts + if attempts.any clean then 1 else 0

theorem not_clean_of_splits (h : splits faults = true) : clean faults = false := by
  simp only [splits, clean, Bool.and_eq_true, Bool.not_eq_true'] at h ⊢
  rw [h.2, Bool.and_false]

theorem lowerings_of_clean (h : clean faults = true) (rest : List (Faults RefundStep)) :
    lowerings (faults :: rest) = 1 := by
  simp [lowerings, splitsBefore, h]

theorem lowerings_of_splits (h : splits faults = true) (rest : List (Faults RefundStep)) :
    lowerings (faults :: rest) = lowerings rest + 1 := by
  simp only [lowerings, splitsBefore, not_clean_of_splits h, h, List.takeWhile_cons, Bool.not_false,
    if_true, List.countP_cons, List.any_cons, Bool.false_or]
  omega

theorem lowerings_of_not_lowers (h : lowers faults = false) (rest : List (Faults RefundStep)) :
    lowerings (faults :: rest) = lowerings rest := by
  simp [lowerings, splitsBefore, clean, splits, h]

theorem usedOf_saveSub {sub' : UserSubscription} {subId : ℕ}
    (h : store.subs.find subId = some sub) (hid : sub'.id = sub.id) :
    usedOf (store.saveSub sub') subId = sub'.amountUsed := by
  have hsub : sub.id = subId := (Table.find_eq_some_iff.mp h).2
  rw [← hsub, ← hid] at h ⊢
  unfold usedOf Store.saveSub
  rw [Table.find_save_self h]

theorem usedOf_closed (subId : ℕ) : usedOf (closed store record) subId = usedOf store subId := rfl

theorem refundAttempts_of_refunded (hr : store.records.find requestId = some record)
    (hs : record.status = .refunded) (attempts : List (Faults RefundStep)) :
    (refundAttempts requestId store attempts).1 = store := by
  induction attempts with
  | nil => rfl
  | cons f rest ih =>
    simp only [refundAttempts, attempt_of_refunded hr hs]
    exact ih

/-- What any list of attempts leaves: each committed delta takes the pre-consumed
amount off what is left, and nil is returned where an attempt met no failure. -/
theorem Refundable.run (h : Refundable store requestId record sub)
    (attempts : List (Faults RefundStep)) :
    usedOf (refundAttempts requestId store attempts).1 record.userSubscriptionId =
        max 0 (sub.amountUsed - lowerings attempts * record.preConsumed) ∧
      (refundAttempts requestId store attempts).2 = attempts.any clean := by
  induction attempts generalizing store sub with
  | nil =>
    have := h.nonneg
    simp only [refundAttempts, usedOf, h.found, lowerings, splitsBefore]
    simp [this]
  | cons f rest ih =>
    have hid : (Subscription.lowered record sub).id = sub.id := rfl
    have hlow : usedOf (store.saveSub (Subscription.lowered record sub)) record.userSubscriptionId =
        max 0 (sub.amountUsed - record.preConsumed) := by
      rw [usedOf_saveSub h.found hid]
      show usedAfter _ _ = _
      unfold usedAfter
      split <;> omega
    simp only [refundAttempts]
    by_cases hc : clean f = true
    · -- the record is closed: later attempts find it refunded
      rw [h.attempt_of_clean hc, lowerings_of_clean hc]
      have hrec : (closed (store.saveSub (Subscription.lowered record sub)) record).records.find
          requestId = some { record with status := .refunded } := by
        have hid := (Table.find_eq_some_iff.mp h.recorded).2
        have hfind := h.recorded
        rw [← hid] at hfind ⊢
        exact Table.find_save_self hfind
      rw [refundAttempts_of_refunded hrec rfl]
      refine ⟨?_, by simp [hc, Except.isOk, Except.toBool]⟩
      rw [usedOf_closed, hlow]
      simp
    · by_cases hs : splits f = true
      · obtain ⟨e, he⟩ := h.attempt_of_splits hs
        obtain ⟨hu, hb⟩ := ih h.lowered
        rw [he, lowerings_of_splits hs, hb]
        refine ⟨?_, by simp [hc, Except.isOk, Except.toBool]⟩
        rw [hu]
        have hused : (Subscription.lowered record sub).amountUsed =
            max 0 (sub.amountUsed - record.preConsumed) := by
          rw [← hlow, usedOf_saveSub h.found hid]
        have hpos : 0 ≤ (lowerings rest : ℤ) * record.preConsumed :=
          mul_nonneg (by omega) (le_of_lt h.positive)
        rw [hused, Nat.cast_succ, add_mul, one_mul]
        omega
      · have hl : lowers f = false := by
          simp only [clean, splits] at hc hs
          cases hlf : lowers f with
          | false => rfl
          | true => cases hcf : closes f <;> simp [hlf, hcf] at hc hs
        obtain ⟨e, he⟩ := h.attempt_of_not_lowers hl
        obtain ⟨hu, hb⟩ := ih h
        rw [he, lowerings_of_not_lowers hl, hb]
        exact ⟨hu, by simp [hc, Except.isOk, Except.toBool]⟩

theorem splitsBefore_eq_zero {attempts : List (Faults RefundStep)} :
    splitsBefore attempts = 0 ↔ ∀ f ∈ attempts.takeWhile (fun f => !clean f), splits f = false := by
  unfold splitsBefore
  rw [List.countP_eq_zero]
  simp

/-- **A refund is made once exactly when** no attempt before the first that meets no
failure commits its delta and then fails on the record, or all of the quota used
was this record's (the clamp at zero hides the second refund) and some attempt
meets no failure. -/
theorem refunded_once_iff (store : Store) (requestId : String) (record : PreConsumeRecord)
    (sub : UserSubscription) (h : Outstanding store requestId record sub)
    (attempts : List (Faults RefundStep)) :
    RefundedOnce record.userSubscriptionId record.preConsumed store
        (refundAttempts requestId store attempts) ↔
      (∀ f ∈ attempts.takeWhile (fun f => !clean f), splits f = false) ∨
        (sub.amountUsed = record.preConsumed ∧ attempts.any clean = true) := by
  obtain ⟨hu, hb⟩ := h.toRefundable.run attempts
  have hbefore : usedOf store record.userSubscriptionId = sub.amountUsed := by
    unfold usedOf
    rw [h.found]
  have hcov := h.covered
  have hpos := h.positive
  unfold RefundedOnce
  rw [hu, hb, hbefore, ← splitsBefore_eq_zero]
  cases hany : attempts.any clean with
  | true =>
    simp only [lowerings, hany, if_true, and_true, iff_true]
    by_cases hz : splitsBefore attempts = 0
    · simp only [hz, zero_add, Nat.cast_one, one_mul, true_or, iff_true]
      omega
    · have htwo : 2 * record.preConsumed ≤ (splitsBefore attempts + 1 : ℕ) * record.preConsumed :=
        mul_le_mul_of_nonneg_right (by omega) (le_of_lt hpos)
      simp only [hz, false_or]
      omega
  | false =>
    simp only [lowerings, hany, Bool.false_eq_true, if_false, add_zero, and_false, or_false, iff_false]
    by_cases hz : splitsBefore attempts = 0
    · simp only [hz, Nat.cast_zero, zero_mul, iff_true]
      omega
    · have hone : 1 * record.preConsumed ≤ (splitsBefore attempts : ℕ) * record.preConsumed :=
        mul_le_mul_of_nonneg_right (by omega) (le_of_lt hpos)
      simp only [hz, iff_false]
      omega

/-- A subscription with 100 of 1000 used, 30 of them by the request `req-1`. -/
def sampleSub : UserSubscription :=
  ⟨5, 7, 1, 1000, 100, 0, 2000, .active, "order", 0, 0, "", ""⟩

def sampleRecord : PreConsumeRecord := ⟨"req-1", 7, 5, 30, .consumed⟩

def sampleStore : Store := ⟨⟨[sampleSub], by decide⟩, ⟨[sampleRecord], by decide⟩⟩

theorem sampleStore_outstanding : Outstanding sampleStore "req-1" sampleRecord sampleSub where
  named := by decide
  recorded := by decide
  consumed := rfl
  positive := by decide
  subId := by decide
  found := by decide
  nonneg := by decide
  within := by decide
  covered := by decide

theorem refunded_once_iff_sample :
    RefundedOnce 5 30 sampleStore (refundAttempts "req-1" sampleStore [noFaults]) ↔
      (∀ f ∈ [(noFaults : Faults RefundStep)].takeWhile (fun f => !clean f), splits f = false) ∨
        ((100 : ℤ) = 30 ∧ [(noFaults : Faults RefundStep)].any clean = true) :=
  refunded_once_iff sampleStore "req-1" sampleRecord sampleSub sampleStore_outstanding [noFaults]

/-- The outer commit fails. -/
def commitFails : Faults RefundStep := fun step => if step = .commit then some "connection lost" else none

/-- Tried again after its outer commit failed, a refund of 30 gives back 60. -/
theorem retry_refunds_twice :
    Outstanding sampleStore "req-1" sampleRecord sampleSub ∧
      ¬ RefundedOnce 5 30 sampleStore
        (refundAttempts "req-1" sampleStore [commitFails, noFaults]) := by
  refine ⟨sampleStore_outstanding, fun h => ?_⟩
  have hused : usedOf (refundAttempts "req-1" sampleStore [commitFails, noFaults]).1 5 = 40 := by
    decide
  have hle := h.1
  rw [hused] at hle
  exact absurd hle (by decide)

end Subscription
