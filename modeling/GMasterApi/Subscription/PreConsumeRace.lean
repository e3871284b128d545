import GMasterApi.Lib.Statements
import GMasterApi.Store.Query
import GMasterApi.Subscription.Consume

/-!
# Concurrent pre-consumption of one request

Every statement of `PreConsumeUserSubscription` is a step here, and any number of
calls with one request id interleave.  The `SELECT … FOR UPDATE` of the candidates
locks nothing, so a call may scan rows that another has charged since; the unique
request id lets only one of them insert the record.

The call that loses that race still reports the candidate that it had stopped at,
and the resets that its scan has saved write whole rows as they were read.
`preConsume_once_iff` says when that is harmless.
-/

namespace PreConsumeRace

open Sql Transition GoString Subscription

/-- What differs between the calls for one request: the amount, and the database
time at which the call starts. -/
structure PreConsume where
  amount : ℤ
  now : ℤ
  deriving DecidableEq

/-- What the calls have in common. -/
structure Setting where
  cfg : Config
  plans : ℕ → Option SubscriptionPlan
  requestId : String
  userId : ℕ

/-- The writes of a call.  `selected` and `returned` write nothing: they keep what
the call read and what it returns. -/
inductive Write
  | selected (subs : List UserSubscription)
  | saveReset (sub row : UserSubscription)
  | createRecord (record : PreConsumeRecord)
  | saveCharged (row : UserSubscription)
  | returned (result : PreConsumeResult)
  deriving DecidableEq

def applyWrite (s : Store) : Write → Store
  | .selected _ => s
  | .saveReset _ row => s.saveSub row
  | .createRecord record => { s with records := (s.records.create record).getD s.records }
  | .saveCharged row => s.saveSub row
  | .returned _ => s

/-- The unique index on the request id. -/
def accepts (s : Store) (ws : List Write) : Bool :=
  ws.all fun w => match w with
    | .createRecord record => (s.records.find record.requestId).isNone
    | _ => true

inductive Row
  | sub (id : ℕ)
  | record (requestId : String)
  deriving DecidableEq

def Write.rows : Write → List Row
  | .selected subs =>
    (Gorm.selectForUpdate "user_id = ? AND status = ? AND end_time > ?").rowLocks
      (subs.map fun sub => .sub sub.id)
  | .saveReset _ row => [.sub row.id]
  | .createRecord record => [.record record.requestId]
  | .saveCharged row => [.sub row.id]
  | .returned _ => []

abbrev Tx := Script Store Write String

/-! ## The call -/

def raise (e : String) : Tx := .query fun _ => .error e

def returnTx (result : PreConsumeResult) : Tx := .exec [.returned result] .done

variable (set : Setting)

def PreConsume.env (call : PreConsume) : Env := ⟨call.now, set.plans⟩

/-- The plan of a candidate and what `maybeResetUserSubscriptionWithPlanTx` does to it. -/
def resetOutcome (call : PreConsume) (sub : UserSubscription) : Except String ResetOutcome :=
  match getSubscriptionPlanById (call.env set) sub.planId with
  | .error e => .error e
  | .ok plan =>
    match maybeReset set.cfg sub plan call.now with
    | none => .error "reset loop does not end"
    | some outcome => .ok outcome

/-- The quota left to the candidate is too small. -/
def PreConsume.insufficient (call : PreConsume) (sub : UserSubscription) : Bool :=
  0 < sub.amountTotal ∧ sub.amountTotal - sub.amountUsed < call.amount

/-- The `INSERT` has failed: look for the record that was in its way. -/
def duplicateTx (sub : UserSubscription) : Tx :=
  .select fun v => match v.records.find set.requestId with
    | none => .error "duplicated key not allowed"
    | some dup =>
      if dup.status = .refunded then .error errAlreadyRefunded
      else .ok (returnTx
        ⟨sub.id, dup.preConsumed, sub.amountTotal, sub.amountUsed, sub.amountUsed⟩)

def newRecord (call : PreConsume) (sub : UserSubscription) : PreConsumeRecord :=
  ⟨set.requestId, set.userId, sub.id, call.amount, .consumed⟩

def charged (call : PreConsume) (sub : UserSubscription) : UserSubscription :=
  { sub with amountUsed := sub.amountUsed + call.amount }

/-- The `INSERT` of the record, then the charge. -/
def chargeTx (call : PreConsume) (sub : UserSubscription) : Tx :=
  .query fun v => match v.records.find set.requestId with
    | some _ => .ok ([], duplicateTx set sub)
    | none => .ok ([.createRecord (newRecord set call sub)],
      .exec [.saveCharged (charged call sub)] (returnTx
        ⟨sub.id, call.amount, sub.amountTotal, sub.amountUsed, (charged call sub).amountUsed⟩))

/-- The row that the scan saves for a candidate. -/
def saveOf (sub : UserSubscription) : ResetOutcome → List Write
  | .keep => []
  | .schedule row => [.saveReset sub row]
  | .reset row => [.saveReset sub row]

def execAll (ws : List Write) (rest : Tx) : Tx :=
  match ws with
  | [] => rest
  | ws => .exec ws rest

/-- The loop over the candidates. -/
def scanTx (call : PreConsume) : List UserSubscription → Tx
  | [] => raise ("subscription quota insufficient, need=" ++ toString call.amount)
  | candidate :: rest =>
    match resetOutcome set call candidate with
    | .error e => raise e
    | .ok outcome =>
      let sub := outcome.row candidate
      execAll (saveOf candidate outcome)
        (if call.insufficient sub then scanTx call rest else chargeTx set call sub)

/-- The request has a record already. -/
def existingTx (existing : PreConsumeRecord) : Except String Tx :=
  if existing.status = .refunded then .error errAlreadyRefunded
  else .ok (.select fun v => match v.subs.find existing.userSubscriptionId with
    | none => .error errRecordNotFound
    | some sub => .ok (returnTx
        ⟨sub.id, existing.preConsumed, sub.amountTotal, sub.amountUsed, sub.amountUsed⟩))

def candidates (call : PreConsume) (s : Store) : List UserSubscription :=
  s.subs.select (·.isActive set.userId call.now) endsBefore

def preConsumeUserSubscription (call : PreConsume) (seen : Store) : Except String Tx :=
  if set.userId = 0 then .error "invalid userId"
  else if trimSpace set.requestId = "" then .error "requestId is empty"
  else if call.amount ≤ 0 then .error "amount must be > 0"
  else match seen.records.find set.requestId with
  | some existing => existingTx existing
  | none => .ok (.query fun v =>
      let subs := candidates set call v
      if subs = [] then .error "no active subscription"
      else .ok ([.selected subs], scanTx set call subs))

/-- Any number of calls for one request of one user. -/
def protocol : Protocol Store PreConsume Write String Row where
  body := preConsumeUserSubscription set
  apply := applyWrite
  locks _ := []

def system : System (State Store PreConsume Write String Row) (Action PreConsume) :=
  (protocol set).systemLocking Write.rows accepts

/-! ## What is promised -/

abbrev History := List (PreConsume × List Write)

/-- The sum of `AmountUsed` over the subscriptions of the user. -/
def used (s : Store) : ℤ :=
  (s.subs.rows.map fun sub => if sub.userId = set.userId then sub.amountUsed else 0).sum

/-- The rows that a list of writes resets or schedules: as read, and as saved. -/
def resetsBy (ws : List Write) : List (UserSubscription × UserSubscription) :=
  ws.filterMap fun w => match w with
    | .saveReset sub row => some (sub, row)
    | _ => none

/-- What those resets clear. -/
def cleared (ws : List Write) : ℤ := ((resetsBy ws).map fun p => p.1.amountUsed - p.2.amountUsed).sum

def insertedBy (ws : List Write) : List PreConsumeRecord :=
  ws.filterMap fun w => match w with
    | .createRecord record => some record
    | _ => none

def returnedBy (ws : List Write) : List PreConsumeResult :=
  ws.filterMap fun w => match w with
    | .returned result => some result
    | _ => none

/-- The candidates that the call read. -/
def selectedBy (ws : List Write) : List (List UserSubscription) :=
  ws.filterMap fun w => match w with
    | .selected subs => some subs
    | _ => none

/-- The records inserted so far. -/
def inserted (hs : History) : List PreConsumeRecord := hs.flatMap fun h => insertedBy h.2

/-- **Consumed once.**  `hs` are the calls that returned no error. -/
structure ConsumedOnce (start s : Store) (hs : History) : Prop where
  ledger : used set s + (hs.map fun h => cleared h.2).sum =
    used set start + ((inserted hs).map PreConsumeRecord.preConsumed).sum
  one : (inserted hs).length ≤ 1
  amount : ∀ h ∈ hs, ∀ r ∈ insertedBy h.2, r.preConsumed = h.1.amount
  charged : start.records.find set.requestId = none → hs ≠ [] →
    ∃ r, inserted hs = [r] ∧ s.records.find set.requestId = some r
  reported : ∀ h ∈ hs, ∃ r result, s.records.find set.requestId = some r ∧
    returnedBy h.2 = [result] ∧ result.userSubscriptionId = r.userSubscriptionId ∧
    result.preConsumed = r.preConsumed

/-- After the reset that is due to it, the candidate has the amount left. -/
def PreConsume.fits (call : PreConsume) (sub : UserSubscription) : Bool :=
  match resetOutcome set call sub with
  | .error _ => false
  | .ok outcome => !call.insufficient (outcome.row sub)

/-- What the row has used by now. -/
def usedNow (s : Store) (id : ℕ) : ℤ := ((s.subs.find id).map UserSubscription.amountUsed).getD 0

/-- How much more than when they were read the saved rows have used by now. -/
def stale (s : Store) (ws : List Write) : ℤ :=
  ((resetsBy ws).map fun p => usedNow s p.1.id - p.1.amountUsed).sum

/-- A call that has read the candidates `subs` and finds a record at its commit: the
first of them that fits is the subscription of the record, and the rows that it
has saved have used, in sum, what they had used when it read them. -/
def MeetsWinner (s : Store) (_ : History) (o : Open Store PreConsume Write String) : Prop :=
  ∀ subs ∈ selectedBy o.pending, ∀ r, s.records.find set.requestId = some r →
    (subs.find? (o.call.fits set)).map UserSubscription.id = some r.userSubscriptionId ∧
      stale s o.pending = 0

/-! ## What a call writes -/

variable {set} {start s seen : Store} {hs : History} {ws out : List Write} {call : PreConsume}
  {o : Open Store PreConsume Write String} {Q : Store → Prop} {sub : UserSubscription}

theorem write_append {ws₁ ws₂ : List Write} :
    (protocol set).write s (ws₁ ++ ws₂) =
      (protocol set).write ((protocol set).write s ws₁) ws₂ :=
  List.foldl_append

/-- Only the `INSERT` changes the records. -/
theorem write_records (h : insertedBy ws = []) : ((protocol set).write s ws).records = s.records := by
  induction ws generalizing s with
  | nil => rfl
  | cons w ws ih =>
    show ((protocol set).write (applyWrite s w) ws).records = s.records
    cases w with
    | createRecord record => simp [insertedBy] at h
    | selected subs => rw [ih h]; rfl
    | saveReset sub row => rw [ih h]; rfl
    | saveCharged row => rw [ih h]; rfl
    | returned result => rw [ih h]; rfl

/-- The saves of the scan for a candidate. -/
def savesOf (set : Setting) (call : PreConsume) (sub : UserSubscription) : List Write :=
  match resetOutcome set call sub with
  | .error _ => []
  | .ok outcome => saveOf sub outcome

/-- How a call ends that has stopped at the candidate `sub`: it finds the record of
another, or inserts its own and charges the candidate. -/
inductive Tail (set : Setting) (Q : Store → Prop) (call : PreConsume) (sub : UserSubscription) :
    List Write → Prop
  | lost {st : Store} {dup : PreConsumeRecord} {result : PreConsumeResult} (read : Q st)
    (found : st.records.find set.requestId = some dup)
    (id : result.userSubscriptionId = sub.id) (amount : result.preConsumed = dup.preConsumed) :
    Tail set Q call sub [.returned result]
  | won {result : PreConsumeResult} (id : result.userSubscriptionId = sub.id)
    (amount : result.preConsumed = call.amount) :
    Tail set Q call sub [.createRecord (newRecord set call sub), .saveCharged (charged call sub),
      .returned result]

theorem ran_execAll {more : List Write} {rest : Tx}
    (h : (protocol set).Ran Q (execAll more rest) ws out) :
    (protocol set).Ran Q rest (ws ++ more) out := by
  cases more with
  | nil => rwa [List.append_nil]
  | cons w more => exact h.of_exec

theorem ran_returnTx {result : PreConsumeResult}
    (h : (protocol set).Ran Q (returnTx result) ws out) : out = ws ++ [.returned result] :=
  h.of_exec.of_done

theorem ran_chargeTx (h : (protocol set).Ran Q (chargeTx set call sub) ws out)
    (hws : insertedBy ws = []) : ∃ tail, Tail set Q call sub tail ∧ out = ws ++ tail := by
  obtain ⟨st, more, rest, -, hanswer, hrest⟩ := h.of_query
  split at hanswer
  · cases hanswer
    rw [List.append_nil] at hrest
    obtain ⟨st', script, hst', hdup, hrest⟩ := hrest.of_select
    rw [write_records hws] at hdup
    split at hdup
    · cases hdup
    rename_i dup hfind
    split at hdup
    · cases hdup
    cases hdup
    exact ⟨_, .lost hst' hfind rfl rfl, ran_returnTx hrest⟩
  · cases hanswer
    have hout := ran_returnTx hrest.of_exec
    rw [List.append_assoc, List.append_assoc] at hout
    exact ⟨_, .won rfl rfl, hout⟩

theorem insertedBy_append {ws₁ ws₂ : List Write} :
    insertedBy (ws₁ ++ ws₂) = insertedBy ws₁ ++ insertedBy ws₂ :=
  List.filterMap_append

theorem insertedBy_saveOf (outcome : ResetOutcome) : insertedBy (saveOf sub outcome) = [] := by
  cases outcome <;> rfl

/-- A scan that ends well stops at the first candidate that fits, with the rows up to
it reset where that is due. -/
theorem ran_scanTx {subs : List UserSubscription}
    (h : (protocol set).Ran Q (scanTx set call subs) ws out) (hws : insertedBy ws = []) :
    ∃ pre c post outcome tail, subs = pre ++ c :: post ∧
      subs.find? (call.fits set) = some c ∧ resetOutcome set call c = .ok outcome ∧
      Tail set Q call (outcome.row c) tail ∧
      out = ws ++ (pre.flatMap (savesOf set call) ++ (saveOf c outcome ++ tail)) := by
  induction subs generalizing ws with
  | nil =>
    obtain ⟨st, more, rest, -, hanswer, -⟩ := h.of_query
    cases hanswer
  | cons candidate rest ih =>
    unfold scanTx at h
    cases houtcome : resetOutcome set call candidate with
    | error e =>
      rw [houtcome] at h
      obtain ⟨st, more, rest, -, hanswer, -⟩ := h.of_query
      cases hanswer
    | ok outcome =>
      rw [houtcome] at h
      dsimp only at h
      have hran := ran_execAll h
      have hnone : insertedBy (ws ++ saveOf candidate outcome) = [] := by
        rw [insertedBy_append, hws, insertedBy_saveOf]
        rfl
      by_cases hfit : call.insufficient (outcome.row candidate) = true
      · rw [if_pos hfit] at hran
        obtain ⟨pre, c, post, outcome', tail, rfl, hfind, hc, htail, rfl⟩ := ih hran hnone
        have hskip : call.fits set candidate = false := by
          unfold PreConsume.fits
          rw [houtcome]
          simp [hfit]
        refine ⟨candidate :: pre, c, post, outcome', tail, rfl, ?_, hc, htail, ?_⟩
        · rw [List.find?_cons_of_neg (by simp [hskip])]
          exact hfind
        · have hsaves : savesOf set call candidate = saveOf candidate outcome := by
            unfold savesOf
            rw [houtcome]
          rw [List.flatMap_cons, hsaves]
          simp only [List.append_assoc]
      · rw [if_neg hfit] at hran
        obtain ⟨tail, htail, rfl⟩ := ran_chargeTx hran hnone
        have hstop : call.fits set candidate = true := by
          unfold PreConsume.fits
          rw [houtcome]
          simpa using hfit
        refine ⟨[], candidate, rest, outcome, tail, rfl, ?_, houtcome, htail, ?_⟩
        · exact List.find?_cons_of_pos hstop
        · simp only [List.flatMap_nil, List.nil_append, List.append_assoc]

/-- **What a call that returns has done.**  It found a record and reports it, or it
scanned the candidates that some committed store held. -/
theorem finished_cases (h : (protocol set).Finished Q call seen out) :
    (∃ r result, seen.records.find set.requestId = some r ∧ out = [.returned result] ∧
      result.userSubscriptionId = r.userSubscriptionId ∧ result.preConsumed = r.preConsumed) ∨
    ∃ st pre c post outcome tail, Q st ∧ candidates set call st = pre ++ c :: post ∧
      (candidates set call st).find? (call.fits set) = some c ∧
      resetOutcome set call c = .ok outcome ∧ Tail set Q call (outcome.row c) tail ∧
      out = .selected (candidates set call st) ::
        (pre.flatMap (savesOf set call) ++ (saveOf c outcome ++ tail)) := by
  obtain ⟨script, hbody, hran⟩ := h
  simp only [protocol, preConsumeUserSubscription] at hbody
  split at hbody
  · cases hbody
  split at hbody
  · cases hbody
  split at hbody
  · cases hbody
  split at hbody
  · rename_i existing hfind
    unfold existingTx at hbody
    split at hbody
    · cases hbody
    cases hbody
    obtain ⟨st, rest, -, hsub, hrest⟩ := hran.of_select
    split at hsub
    · cases hsub
    · rename_i sub hsubfind
      cases hsub
      refine .inl ⟨existing, _, hfind, ran_returnTx hrest, ?_, rfl⟩
      exact (Table.find_eq_some_iff.mp hsubfind).2
  · cases hbody
    obtain ⟨st, more, rest, hst, hanswer, hrest⟩ := hran.of_query
    split at hanswer
    · cases hanswer
    cases hanswer
    obtain ⟨pre, c, post, outcome, tail, hsplit, hfind, hc, htail, hout⟩ := ran_scanTx hrest rfl
    exact .inr ⟨st, pre, c, post, outcome, tail, hst, hsplit, hfind, hc, htail, hout⟩

/-! ## What the scan does to the table -/

/-- Whose row each subscription is. -/
def owners (s : Store) : List (ℕ × ℕ) := s.subs.rows.map fun sub => (sub.id, sub.userId)

/-- The row of `sub` is in the table, and the user's. -/
def Owned (set : Setting) (s : Store) (sub : UserSubscription) : Prop :=
  sub.userId = set.userId ∧ ∃ y, s.subs.find sub.id = some y ∧ y.userId = set.userId

theorem owned_of_owners {st : Store} (h : owners st = owners s) (hmem : sub ∈ st.subs.rows)
    (huser : sub.userId = set.userId) : Owned set s sub := by
  have hpair : (sub.id, sub.userId) ∈ owners s := by
    rw [← h]
    exact List.mem_map_of_mem (f := fun sub => (sub.id, sub.userId)) hmem
  obtain ⟨y, hy, he⟩ := List.mem_map.mp hpair
  obtain ⟨hid, hu⟩ := Prod.mk.inj he
  exact ⟨huser, y, Table.find_eq_some_iff.mpr ⟨hy, hid⟩, hu.trans huser⟩

/-- Saving a row of the user over the row that is there. -/
theorem saveSub_used {row y : UserSubscription} (hy : s.subs.find row.id = some y)
    (hyu : y.userId = set.userId) (hu : row.userId = set.userId) :
    used set (s.saveSub row) = used set s + (row.amountUsed - y.amountUsed) ∧
      owners (s.saveSub row) = owners s := by
  constructor
  · have hsum := Table.sum_map_save
      (fun sub : UserSubscription => if sub.userId = set.userId then sub.amountUsed else 0) hy
    rw [if_pos hu, if_pos hyu] at hsum
    exact hsum
  · obtain ⟨hmem, hid⟩ := Table.find_eq_some_iff.mp hy
    show (s.subs.rows.map fun z => if z.id = row.id then row else z).map _ = _
    rw [List.map_map]
    refine List.map_congr_left fun z hz => ?_
    show (fun sub : UserSubscription => (sub.id, sub.userId)) (if z.id = row.id then row else z) = _
    split
    · rename_i hzid
      have hzy : z = y := Table.eq_of_mem hz hmem (hzid.trans hid.symm)
      rw [hzy]
      show (row.id, row.userId) = (y.id, y.userId)
      rw [hid, hu, hyu]
    · rfl

/-- The row of an outcome is the candidate's. -/
theorem outcome_row {outcome : ResetOutcome} (h : resetOutcome set call sub = .ok outcome) :
    (outcome.row sub).id = sub.id ∧ (outcome.row sub).userId = sub.userId ∧
      (outcome.row sub).planId = sub.planId := by
  unfold resetOutcome at h
  split at h
  · cases h
  split at h
  · cases h
  rename_i hreset
  cases h
  obtain ⟨last, next, hrow⟩ := maybeReset_row hreset
  rw [hrow]
  exact ⟨rfl, rfl, rfl⟩

/-- What saving the outcome for one candidate does. -/
structure Saved (set : Setting) (s s' : Store) (ws : List Write) (ids : List ℕ) : Prop where
  used : used set s' = used set s - cleared ws - stale s ws
  owners : owners s' = owners s
  frame : ∀ id, id ∉ ids → s'.subs.find id = s.subs.find id

theorem saved_saveOf {outcome : ResetOutcome} (h : resetOutcome set call sub = .ok outcome)
    (hown : Owned set s sub) :
    Saved set s ((protocol set).write s (saveOf sub outcome)) (saveOf sub outcome) [sub.id] := by
  obtain ⟨hid, huser, -⟩ := outcome_row h
  obtain ⟨hu, y, hy, hyu⟩ := hown
  have hrow : ∀ row : UserSubscription, row.id = sub.id → row.userId = sub.userId →
      Saved set s (s.saveSub row) [.saveReset sub row] [sub.id] := by
    intro row hrid hru
    obtain ⟨hused, howners⟩ := saveSub_used (s := s) (by rw [hrid]; exact hy) hyu (hru.trans hu)
    constructor
    case used =>
      rw [hused]
      simp only [cleared, stale, resetsBy, List.filterMap_cons, List.filterMap_nil, List.map_cons,
        List.map_nil, List.sum_cons, List.sum_nil, usedNow, hy, Option.map_some,
        Option.getD_some]
      omega
    case owners => exact howners
    case frame =>
      intro id hne
      refine Table.find_save_of_ne ?_
      show row.id ≠ id
      rw [hrid]
      exact fun he => hne (List.mem_singleton.mpr he.symm)
  cases outcome with
  | keep =>
    constructor
    case used => simp [saveOf, Protocol.write, cleared, stale, resetsBy]
    case owners => rfl
    case frame => intro id _; rfl
  | schedule row => exact hrow row hid huser
  | reset row => exact hrow row hid huser

theorem resetsBy_append {ws₁ ws₂ : List Write} :
    resetsBy (ws₁ ++ ws₂) = resetsBy ws₁ ++ resetsBy ws₂ :=
  List.filterMap_append

theorem cleared_append {ws₁ ws₂ : List Write} : cleared (ws₁ ++ ws₂) = cleared ws₁ + cleared ws₂ := by
  unfold cleared
  rw [resetsBy_append, List.map_append, List.sum_append]

theorem stale_append {ws₁ ws₂ : List Write} :
    stale s (ws₁ ++ ws₂) = stale s ws₁ + stale s ws₂ := by
  unfold stale
  rw [resetsBy_append, List.map_append, List.sum_append]

/-- The saves of a scan are of the candidates. -/
theorem resetsBy_savesOf {p : UserSubscription × UserSubscription}
    (h : p ∈ resetsBy (savesOf set call sub)) : p.1 = sub := by
  unfold savesOf at h
  split at h
  · cases h
  · rename_i outcome _
    cases outcome with
    | keep => cases h
    | schedule row =>
      rw [List.mem_singleton.mp h]
    | reset row =>
      rw [List.mem_singleton.mp h]

theorem resetsBy_flatMap {l : List UserSubscription} {p : UserSubscription × UserSubscription}
    (h : p ∈ resetsBy (l.flatMap (savesOf set call))) : p.1 ∈ l := by
  induction l with
  | nil => cases h
  | cons x l ih =>
    rw [List.flatMap_cons, resetsBy_append, List.mem_append] at h
    rcases h with h | h
    · rw [resetsBy_savesOf h]
      exact List.mem_cons_self
    · exact List.mem_cons_of_mem _ (ih h)

/-- Where the rows are untouched, they are as stale as before. -/
theorem stale_congr {s' : Store}
    (h : ∀ p ∈ resetsBy ws, s'.subs.find p.1.id = s.subs.find p.1.id) : stale s' ws = stale s ws := by
  unfold stale
  congr 1
  refine List.map_congr_left fun p hp => ?_
  simp only [usedNow, h p hp]

/-- Two saves one after the other. -/
theorem Saved.trans {s₁ s₂ : Store} {ws₁ ws₂ : List Write} {ids₁ ids₂ : List ℕ}
    (h₁ : Saved set s s₁ ws₁ ids₁) (h₂ : Saved set s₁ s₂ ws₂ ids₂)
    (hdisj : ∀ p ∈ resetsBy ws₂, p.1.id ∉ ids₁) : Saved set s s₂ (ws₁ ++ ws₂) (ids₁ ++ ids₂) := by
  have hstale : stale s₁ ws₂ = stale s ws₂ :=
    stale_congr fun p hp => h₁.frame _ (hdisj p hp)
  constructor
  case used =>
    have hu₁ := h₁.used
    have hu₂ := h₂.used
    rw [cleared_append, stale_append]
    omega
  case owners => rw [h₂.owners, h₁.owners]
  case frame =>
    intro id hid
    rw [List.mem_append, not_or] at hid
    rw [h₂.frame id hid.2, h₁.frame id hid.1]

theorem Saved.owned {s' : Store} {ids : List ℕ} (h : Saved set s s' ws ids)
    (hown : Owned set s sub) : Owned set s' sub := by
  obtain ⟨hu, y, hy, hyu⟩ := hown
  obtain ⟨hmem, hid⟩ := Table.find_eq_some_iff.mp hy
  obtain ⟨-, z, hz, hzu⟩ := owned_of_owners h.owners.symm hmem hyu
  exact ⟨hu, z, by rw [← hid]; exact hz, hzu⟩

variable (call) in
/-- The candidates in front of the one that fits, each saved as it is due. -/
theorem saved_scan {l : List UserSubscription} (hids : (l.map UserSubscription.id).Nodup)
    (hown : ∀ sub ∈ l, Owned set s sub) :
    Saved set s ((protocol set).write s (l.flatMap (savesOf set call)))
      (l.flatMap (savesOf set call)) (l.map UserSubscription.id) := by
  induction l generalizing s with
  | nil =>
    constructor
    case used => simp [Protocol.write, cleared, stale, resetsBy]
    case owners => rfl
    case frame => intro id _; rfl
  | cons sub l ih =>
    rw [List.map_cons, List.nodup_cons] at hids
    have hhead : Saved set s ((protocol set).write s (savesOf set call sub))
        (savesOf set call sub) [sub.id] := by
      unfold savesOf
      split
      · constructor
        case used => simp [Protocol.write, cleared, stale, resetsBy]
        case owners => rfl
        case frame => intro id _; rfl
      · rename_i outcome houtcome
        exact saved_saveOf houtcome (hown sub List.mem_cons_self)
    have htail := ih (s := (protocol set).write s (savesOf set call sub)) hids.2
      fun x hx => hhead.owned (hown x (List.mem_cons_of_mem _ hx))
    rw [List.flatMap_cons, write_append]
    refine hhead.trans htail fun p hp hmem => hids.1 ?_
    rw [← List.mem_singleton.mp hmem]
    exact List.mem_map_of_mem (resetsBy_flatMap hp)

/-! ## What a commit does -/

/-- The scan saves rows and does nothing else. -/
theorem mem_saves {l : List UserSubscription} {w : Write}
    (h : w ∈ l.flatMap (savesOf set call)) : ∃ sub row, w = .saveReset sub row := by
  obtain ⟨sub, -, hw⟩ := List.mem_flatMap.mp h
  unfold savesOf at hw
  split at hw
  · cases hw
  · rename_i outcome _
    cases outcome with
    | keep => cases hw
    | schedule row => exact ⟨_, _, List.mem_singleton.mp hw⟩
    | reset row => exact ⟨_, _, List.mem_singleton.mp hw⟩

variable (set call) in
theorem saves_parts (l : List UserSubscription) :
    insertedBy (l.flatMap (savesOf set call)) = [] ∧
      returnedBy (l.flatMap (savesOf set call)) = [] ∧
      selectedBy (l.flatMap (savesOf set call)) = [] := by
  refine ⟨?_, ?_, ?_⟩ <;>
  · refine List.filterMap_eq_nil_iff.mpr fun w hw => ?_
    obtain ⟨sub, row, rfl⟩ := mem_saves hw
    rfl

/-- What the calls have read of the store: its rows are the same, the record does not
change any more, and until there is one nothing does. -/
def Seen (set : Setting) (seen s : Store) (_ : History) : Prop :=
  owners seen = owners s ∧
    (∀ r, seen.records.find set.requestId = some r → s.records.find set.requestId = some r) ∧
    (s.records.find set.requestId = none → seen = s)

/-- **What a commit does**: nothing, where the call read the record; the saves of its
scan, where another was faster; and these and the charge, where it was the first. -/
inductive Effect (set : Setting) (s : Store) (call : PreConsume) (ws : List Write) : Prop
  | read (r : PreConsumeRecord) (result : PreConsumeResult)
    (found : s.records.find set.requestId = some r) (eq : ws = [.returned result])
    (id : result.userSubscriptionId = r.userSubscriptionId)
    (amount : result.preConsumed = r.preConsumed)
  | lost (subs : List UserSubscription) (c : UserSubscription) (r : PreConsumeRecord)
    (result : PreConsumeResult) (selected : selectedBy ws = [subs])
    (stopped : subs.find? (call.fits set) = some c)
    (found : s.records.find set.requestId = some r)
    (used : used set ((protocol set).write s ws) = used set s - cleared ws - stale s ws)
    (owners : owners ((protocol set).write s ws) = owners s)
    (records : ((protocol set).write s ws).records = s.records) (inserted : insertedBy ws = [])
    (returned : returnedBy ws = [result]) (id : result.userSubscriptionId = c.id)
    (amount : result.preConsumed = r.preConsumed)
  | won (r : PreConsumeRecord) (result : PreConsumeResult)
    (free : s.records.find set.requestId = none)
    (used : used set ((protocol set).write s ws) = used set s - cleared ws + r.preConsumed)
    (owners : owners ((protocol set).write s ws) = owners s)
    (found : ((protocol set).write s ws).records.find set.requestId = some r)
    (inserted : insertedBy ws = [r]) (charged : r.preConsumed = call.amount)
    (returned : returnedBy ws = [result])
    (id : result.userSubscriptionId = r.userSubscriptionId)
    (amount : result.preConsumed = r.preConsumed)

variable (set call) in
/-- Rows that are as they were read are not stale. -/
theorem stale_eq_zero {l : List UserSubscription} (h : ∀ sub ∈ l, sub ∈ s.subs.rows) :
    stale s (l.flatMap (savesOf set call)) = 0 := by
  unfold stale
  refine List.sum_eq_zero fun x hx => ?_
  obtain ⟨p, hp, rfl⟩ := List.mem_map.mp hx
  have hfind := Table.find_eq_some_iff.mpr ⟨h _ (resetsBy_flatMap hp), rfl⟩
  show usedNow s p.1.id - p.1.amountUsed = 0
  unfold usedNow
  rw [hfind]
  show p.1.amountUsed - p.1.amountUsed = 0
  omega

/-- The candidate that is charged is in the table as the scan left it. -/
theorem find_saveOf {outcome : ResetOutcome} (h : resetOutcome set call sub = .ok outcome)
    (hfind : s.subs.find sub.id = some sub) :
    ((protocol set).write s (saveOf sub outcome)).subs.find sub.id = some (outcome.row sub) := by
  obtain ⟨hid, -, -⟩ := outcome_row h
  have hself (row : UserSubscription) (hrid : row.id = sub.id) :
      (s.subs.save row).find sub.id = some row := by
    rw [← hrid] at hfind ⊢
    exact Table.find_save_self hfind
  cases outcome with
  | keep => exact hfind
  | schedule row => exact hself row hid
  | reset row => exact hself row hid

/-- The store where the scan saved its rows and another was faster. -/
theorem write_lost (subs : List UserSubscription) (result : PreConsumeResult) :
    (protocol set).write s (.selected subs :: (ws ++ [.returned result])) =
      (protocol set).write s ws := by
  show (protocol set).write s (ws ++ [_]) = _
  rw [write_append]
  rfl

variable (call) in
/-- The store where the call was the first: the row that the scan left is charged, and
the record is there. -/
theorem write_won {c x : UserSubscription} (subs : List UserSubscription) (result : PreConsumeResult)
    (hrow : ((protocol set).write s ws).subs.find c.id = some x) (hid : x.id = c.id)
    (hu : x.userId = set.userId) (hins : insertedBy ws = [])
    (hfree : s.records.find set.requestId = none) :
    let s' := (protocol set).write s (.selected subs :: (ws ++
      [.createRecord (newRecord set call x), .saveCharged (charged call x), .returned result]))
    used set s' = used set ((protocol set).write s ws) + call.amount ∧
      owners s' = owners ((protocol set).write s ws) ∧
      s'.records.find set.requestId = some (newRecord set call x) := by
  have hrecords : ((protocol set).write s ws).records = s.records := write_records hins
  obtain ⟨records, hcreate⟩ := Table.create_of_find_none (x := newRecord set call x) hfree
  have hwrite : (protocol set).write s (.selected subs :: (ws ++
      [.createRecord (newRecord set call x), .saveCharged (charged call x), .returned result])) =
      ⟨((protocol set).write s ws).subs.save (charged call x), records⟩ := by
    show (protocol set).write s (ws ++ [_, _, _]) = _
    rw [write_append]
    show (⟨((protocol set).write s ws).subs.save (charged call x),
      (((protocol set).write s ws).records.create (newRecord set call x)).getD
        ((protocol set).write s ws).records⟩ : Store) = _
    rw [hrecords, hcreate]
    rfl
  have hfind : ((protocol set).write s ws).subs.find (charged call x).id = some x := by
    rw [← hid] at hrow
    exact hrow
  have hruser : (charged call x).userId = set.userId := hu
  have hsave := saveSub_used hfind hu hruser
  dsimp only
  rw [hwrite]
  refine ⟨?_, hsave.2, ?_⟩
  · have hused := hsave.1
    have hcharge : (charged call x).amountUsed - x.amountUsed = call.amount := by
      show x.amountUsed + call.amount - x.amountUsed = _
      omega
    rw [hcharge] at hused
    exact hused
  · show records.find set.requestId = _
    rw [Table.find_create hcreate]
    exact if_pos rfl

variable (set call) in
/-- The writes beside the saves of the scan. -/
theorem parts_around (subs : List UserSubscription) (tail : List Write) (l : List UserSubscription) :
    let ws := .selected subs :: (l.flatMap (savesOf set call) ++ tail)
    insertedBy ws = insertedBy tail ∧ returnedBy ws = returnedBy tail ∧
      selectedBy ws = subs :: selectedBy tail ∧
      resetsBy ws = resetsBy (l.flatMap (savesOf set call)) ++ resetsBy tail := by
  obtain ⟨hins, hret, hsel⟩ := saves_parts set call l
  unfold insertedBy returnedBy selectedBy resetsBy at *
  refine ⟨?_, ?_, ?_, ?_⟩
  · rw [List.filterMap_cons, List.filterMap_append, hins]
    rfl
  · rw [List.filterMap_cons, List.filterMap_append, hret]
    rfl
  · rw [List.filterMap_cons, List.filterMap_append, hsel]
    rfl
  · rw [List.filterMap_cons, List.filterMap_append]

/-! ### As far as the candidate that fits -/

section Scanned

variable {st : Store} {pre post : List UserSubscription} {c : UserSubscription}
  {outcome : ResetOutcome} {tail : List Write}

theorem mem_scanned (hsplit : candidates set call st = pre ++ c :: post) :
    ∀ sub ∈ pre ++ [c], sub ∈ st.subs.rows ∧ sub.userId = set.userId := by
  intro sub hsub
  have hcand : sub ∈ candidates set call st := by
    rw [hsplit, List.append_cons]
    exact List.mem_append_left _ hsub
  obtain ⟨hrow, hactive⟩ := Table.mem_select.mp hcand
  unfold UserSubscription.isActive at hactive
  rw [decide_eq_true_eq] at hactive
  exact ⟨hrow, hactive.1⟩

theorem nodup_scanned (hsplit : candidates set call st = pre ++ c :: post) :
    ((pre ++ [c]).map UserSubscription.id).Nodup := by
  have hnodup : ((candidates set call st).map UserSubscription.id).Nodup := Table.nodup_select
  rw [hsplit, List.append_cons, List.map_append] at hnodup
  exact hnodup.of_append_left

/-- What the saves of the scan make of the store. -/
theorem saved_scanned (hst : Seen set st s hs)
    (hsplit : candidates set call st = pre ++ c :: post) :
    Saved set s ((protocol set).write s ((pre ++ [c]).flatMap (savesOf set call)))
      ((pre ++ [c]).flatMap (savesOf set call)) ((pre ++ [c]).map UserSubscription.id) :=
  saved_scan call (nodup_scanned hsplit) fun sub hsub =>
    owned_of_owners hst.1 (mem_scanned hsplit sub hsub).1 (mem_scanned hsplit sub hsub).2

/-- The row of the candidate, saved as it is due, where the store is the one that was read. -/
theorem find_scanned (hst : Seen set st st hs)
    (hsplit : candidates set call st = pre ++ c :: post)
    (hc : resetOutcome set call c = .ok outcome) :
    ((protocol set).write st ((pre ++ [c]).flatMap (savesOf set call))).subs.find c.id =
      some (outcome.row c) := by
  have hsaves : savesOf set call c = saveOf c outcome := by
    unfold savesOf
    rw [hc]
  have hmem := mem_scanned hsplit
  have hids := nodup_scanned hsplit
  rw [List.flatMap_append, List.flatMap_singleton, hsaves, write_append]
  refine find_saveOf hc ?_
  rw [List.map_append, List.nodup_append] at hids
  have hpre := saved_scan call hids.1 fun sub hsub =>
    owned_of_owners hst.1 (hmem sub (List.mem_append_left _ hsub)).1
      (hmem sub (List.mem_append_left _ hsub)).2
  rw [hpre.frame c.id fun hc' => hids.2.2 _ hc' c.id (by simp) rfl]
  exact Table.find_eq_some_iff.mpr ⟨(hmem c (by simp)).1, rfl⟩

theorem cleared_of_resets {ws₁ ws₂ : List Write} (h : resetsBy ws₁ = resetsBy ws₂) :
    cleared ws₁ = cleared ws₂ := by
  unfold cleared
  rw [h]

theorem stale_of_resets {ws₁ ws₂ : List Write} (h : resetsBy ws₁ = resetsBy ws₂) :
    stale s ws₁ = stale s ws₂ := by
  unfold stale
  rw [h]

/-- The effect of a call that has scanned as far as the candidate `c`. -/
theorem scanned_effect (hst : Seen set st s hs)
    (hsplit : candidates set call st = pre ++ c :: post)
    (hstop : (candidates set call st).find? (call.fits set) = some c)
    (hc : resetOutcome set call c = .ok outcome)
    (htail : Tail set (fun v => Seen set v s hs) call (outcome.row c) tail)
    (hws : ws = .selected (candidates set call st) ::
      ((pre ++ [c]).flatMap (savesOf set call) ++ tail))
    (hacc : accepts s ws = true) : Effect set s call ws := by
  have hmem := mem_scanned hsplit
  have hsaved := saved_scanned hst hsplit
  obtain ⟨hrid, hruser, -⟩ := outcome_row hc
  obtain ⟨hins, hret, hsel, hres⟩ := parts_around set call (candidates set call st) tail (pre ++ [c])
  rw [← hws] at hins hret hsel hres
  have hinsSaves := (saves_parts set call (pre ++ [c])).1
  cases htail with
  | @lost st' dup result hread hfound hid hamount =>
    rw [show resetsBy [Write.returned result] = [] from rfl, List.append_nil] at hres
    have hwrite : (protocol set).write s ws =
        (protocol set).write s ((pre ++ [c]).flatMap (savesOf set call)) := by
      rw [hws]
      exact write_lost _ _
    refine .lost (candidates set call st) c dup result hsel hstop (hread.2.1 dup hfound) ?_ ?_ ?_
      hins hret (hid.trans hrid) hamount
    · rw [hwrite, cleared_of_resets hres, stale_of_resets hres]
      exact hsaved.used
    · rw [hwrite]
      exact hsaved.owners
    · exact write_records hins
  | @won result hid hamount =>
    rw [show resetsBy [Write.createRecord (newRecord set call (outcome.row c)),
      .saveCharged (charged call (outcome.row c)), .returned result] = [] from rfl,
      List.append_nil] at hres
    have hfree : s.records.find set.requestId = none := by
      have hall := List.all_eq_true.mp hacc (.createRecord (newRecord set call (outcome.row c)))
        (by rw [hws]; simp)
      simpa [newRecord] using hall
    -- Nothing has been committed since the scan.
    have hsame := hst.2.2 hfree
    subst hsame
    have hzero := stale_eq_zero set call fun sub hsub => (hmem sub hsub).1
    obtain ⟨hused, howners, hfound⟩ := write_won call (candidates set call st) result
      (find_scanned hst hsplit hc) hrid (hruser.trans (hmem c (by simp)).2) hinsSaves hfree
    rw [← hws] at hused howners hfound
    refine .won (newRecord set call (outcome.row c)) result hfree ?_ ?_ hfound hins rfl hret hid
      hamount
    · have hsum := hsaved.used
      rw [hused, cleared_of_resets hres]
      show _ = _ + call.amount
      omega
    · rw [howners]
      exact hsaved.owners

end Scanned

theorem finished_effect (hseen : Seen set seen s hs)
    (h : (protocol set).Finished (fun v => Seen set v s hs) call seen ws)
    (hacc : accepts s ws = true) : Effect set s call ws := by
  rcases finished_cases h with ⟨r, result, hfind, rfl, hid, hamount⟩ |
    ⟨st, pre, c, post, outcome, tail, hst, hsplit, hstop, hc, htail, hws⟩
  · exact .read r result (hseen.2.1 r hfind) rfl hid hamount
  · refine scanned_effect hst hsplit hstop hc htail ?_ hacc
    have hsaves : savesOf set call c = saveOf c outcome := by
      unfold savesOf
      rw [hc]
    rw [hws, List.flatMap_append, List.flatMap_singleton, hsaves, List.append_assoc]

/-! ## When a request is consumed once -/

/-- The invariant: the promise, and that nothing is committed before the record. -/
structure Inv (set : Setting) (start s : Store) (hs : History) : Prop where
  once : ConsumedOnce set start s hs
  empty : s.records.find set.requestId = none → hs = []
  start : hs = [] → s = start

theorem inserted_append : inserted (hs ++ [(call, ws)]) = inserted hs ++ insertedBy ws := by
  simp [inserted]

theorem cleared_history : ((hs ++ [(call, ws)]).map fun h => cleared h.2).sum =
    (hs.map fun h => cleared h.2).sum + cleared ws := by
  simp

/-- Where the record is there and stays, one more call keeps the promise if the ledger
and its own report are right. -/
theorem ConsumedOnce.append {s' : Store} {r : PreConsumeRecord} {result : PreConsumeResult}
    (h : ConsumedOnce set start s hs) (hr : s.records.find set.requestId = some r)
    (hr' : s'.records.find set.requestId = some r) (hins : insertedBy ws = [])
    (hret : returnedBy ws = [result]) (hs' : hs = [] → start.records.find set.requestId ≠ none) :
    ConsumedOnce set start s' (hs ++ [(call, ws)]) ↔
      used set s' + cleared ws = used set s ∧ result.userSubscriptionId = r.userSubscriptionId ∧
        result.preConsumed = r.preConsumed := by
  have hledger := h.ledger
  constructor
  · intro hgood
    have hledger' := hgood.ledger
    rw [inserted_append, hins, List.append_nil, cleared_history] at hledger'
    obtain ⟨r', result', hfind, hreturned, hid, hamount⟩ :=
      hgood.reported (call, ws) (List.mem_append_right _ (List.mem_singleton_self _))
    rw [hr'] at hfind
    cases hfind
    rw [hret] at hreturned
    cases hreturned
    exact ⟨by omega, hid, hamount⟩
  · rintro ⟨hused, hid, hamount⟩
    constructor
    case ledger =>
      rw [inserted_append, hins, List.append_nil, cleared_history]
      omega
    case one =>
      rw [inserted_append, hins, List.append_nil]
      exact h.one
    case amount =>
      intro x hx
      rcases List.mem_append.mp hx with hx | hx
      · exact h.amount x hx
      · rw [List.mem_singleton.mp hx, hins]
        intro r' hr''
        cases hr''
    case charged =>
      intro hstart _
      rw [inserted_append, hins, List.append_nil, hr', ← hr]
      exact h.charged hstart fun hnil => hs' hnil hstart
    case reported =>
      intro x hx
      rcases List.mem_append.mp hx with hx | hx
      · rw [hr', ← hr]
        exact h.reported x hx
      · rw [List.mem_singleton.mp hx]
        exact ⟨r, result, hr', hret, hid, hamount⟩

/-- The call that inserts the record. -/
theorem ConsumedOnce.first {s' : Store} {r : PreConsumeRecord} {result : PreConsumeResult}
    (hused : used set s' = used set start - cleared ws + r.preConsumed)
    (hr' : s'.records.find set.requestId = some r) (hins : insertedBy ws = [r])
    (hcharged : r.preConsumed = call.amount) (hret : returnedBy ws = [result])
    (hid : result.userSubscriptionId = r.userSubscriptionId)
    (hamount : result.preConsumed = r.preConsumed) :
    ConsumedOnce set start s' [(call, ws)] := by
  have hinserted : inserted [(call, ws)] = [r] := by
    show insertedBy ws ++ [] = [r]
    rw [hins]
    rfl
  constructor
  case ledger =>
    rw [hinserted]
    simp only [List.map_cons, List.map_nil, List.sum_cons, List.sum_nil]
    omega
  case one => simp [hinserted]
  case amount =>
    intro x hx r' hr''
    rw [List.mem_singleton.mp hx] at hr'' ⊢
    rw [hins] at hr''
    rw [List.mem_singleton.mp hr'']
    exact hcharged
  case charged =>
    intro _ _
    exact ⟨r, hinserted, hr'⟩
  case reported =>
    intro x hx
    rw [List.mem_singleton.mp hx]
    exact ⟨r, result, hr', hret, hid, hamount⟩

theorem read_parts (result : PreConsumeResult) : insertedBy [.returned result] = [] ∧
    returnedBy [.returned result] = [result] ∧ cleared [.returned result] = 0 ∧
    selectedBy [.returned result] = [] :=
  ⟨rfl, rfl, rfl, rfl⟩

/-- **One commit.** -/
theorem Inv.commit (h : Inv set start s hs) (he : Effect set s o.call o.pending) :
    (MeetsWinner set s hs o ↔
      ConsumedOnce set start ((protocol set).write s o.pending) (hs ++ [(o.call, o.pending)])) ∧
      ((protocol set).write s o.pending).records.find set.requestId ≠ none ∧
      ∀ seen, Seen set seen s hs →
        Seen set seen ((protocol set).write s o.pending) (hs ++ [(o.call, o.pending)]) := by
  obtain ⟨honce, hempty, hbegin⟩ := h
  have hstart : ∀ r, s.records.find set.requestId = some r → hs = [] →
      start.records.find set.requestId ≠ none := by
    intro r hr hnil
    rw [← hbegin hnil, hr]
    simp
  cases he with
  | read r result found eq id amount =>
    have hwrite : (protocol set).write s o.pending = s := by
      rw [eq]
      rfl
    obtain ⟨hins, hret, hcleared, hsel⟩ := read_parts result
    rw [← eq] at hins hret hcleared hsel
    rw [hwrite]
    refine ⟨?_, by simp [found], fun seen hseen => ⟨hseen.1, hseen.2.1, fun hn => ?_⟩⟩
    · rw [honce.append found found hins hret (hstart r found)]
      unfold MeetsWinner
      rw [hsel]
      simp [hcleared, id, amount]
    · rw [found] at hn
      cases hn
  | lost subs c r result selected stopped found hused howners hrecords hins hret hid hamount =>
    have hfound : ((protocol set).write s o.pending).records.find set.requestId = some r := by
      rw [hrecords]
      exact found
    refine ⟨?_, by simp [hfound], fun seen hseen => ⟨?_, ?_, fun hn => ?_⟩⟩
    · rw [honce.append found hfound hins hret (hstart r found)]
      unfold MeetsWinner
      rw [selected]
      simp only [List.mem_singleton, forall_eq, found, Option.some.injEq, forall_eq', stopped,
        Option.map_some]
      rw [hid, hused]
      constructor
      · rintro ⟨hc, hstale⟩
        exact ⟨by omega, hc, hamount⟩
      · rintro ⟨hsum, hc, -⟩
        exact ⟨hc, by omega⟩
    · rw [howners]
      exact hseen.1
    · rw [hrecords]
      exact hseen.2.1
    · rw [hfound] at hn
      cases hn
  | won r result free hused howners found hins hcharged hret hid hamount =>
    obtain rfl := hempty free
    obtain rfl := hbegin rfl
    refine ⟨?_, by simp [found], fun seen hseen => ⟨?_, ?_, fun hn => ?_⟩⟩
    · constructor
      · intro _
        exact .first hused found hins hcharged hret hid hamount
      · intro _ subs _ r' hr'
        rw [free] at hr'
        cases hr'
    · rw [howners]
      exact hseen.1
    · intro r' hr'
      have hr'' := hseen.2.1 r' hr'
      rw [free] at hr''
      cases hr''
    · rw [found] at hn
      cases hn

/-- **A request is consumed once exactly when** every call that loses the race would
have stopped at the winner's subscription, and has saved no row that was changed
since it read it.  The code makes sure of neither. -/
theorem preConsume_once_iff (set : Setting) (start : Store) (as : List (Action PreConsume)) :
    (system set).EveryState (fun s => ConsumedOnce set start s.store s.committed)
        (State.initial start) as ↔
      (system set).EveryStep (AcceptedMeets accepts (MeetsWinner set)) (State.initial start)
        as := by
  have h0 : Inv set start start [] := by
    constructor
    case once =>
      constructor
      case ledger => simp [inserted]
      case one => simp [inserted]
      case amount => simp
      case charged => simp
      case reported => simp
    case empty => simp
    case start => simp
  refine Protocol.everyState_iff_commits_saw (K := Seen set) (I := Inv set start)
    (fun _ _ _ => ⟨rfl, fun _ hr => hr, fun _ => rfl⟩) (fun _ _ h => h.once)
    (fun s hs o h hseen ho hacc hC => ?_) (fun s hs o h hseen ho hacc hC => ?_) h0 as
  · obtain ⟨hiff, hrecord, hseen'⟩ := h.commit (finished_effect hseen ho hacc)
    refine ⟨⟨hiff.mp hC, fun hn => absurd hn hrecord, fun hn => ?_⟩, hseen'⟩
    simp at hn
  · obtain ⟨hiff, -, -⟩ := h.commit (finished_effect hseen ho hacc)
    exact fun hgood => hC (hiff.mpr hgood)

/-- Two subscriptions of user 7 to a plan that is never reset; the first ends at 1000. -/
def sampleSetting : Setting where
  cfg := ⟨GoTime.utc, 0⟩
  plans := fun _ => some ⟨1, .month, 1, 0, 0, "", 1000, "never", 0⟩
  requestId := "req-1"
  userId := 7

def sampleSub (id : ℕ) (endTime : ℤ) : UserSubscription where
  id := id
  userId := 7
  planId := 1
  amountTotal := 1000
  amountUsed := 0
  startTime := 0
  endTime := endTime
  status := .active
  source := "order"
  lastResetTime := 0
  nextResetTime := 0
  upgradeGroup := ""
  prevUserGroup := ""

def sampleStart : Store := ⟨⟨[sampleSub 1 1000, sampleSub 2 2000], by decide⟩, .empty⟩

/-- One call starts just before the first subscription ends, its repetition just after. -/
def bothConsume : List (Action PreConsume) :=
  [.select 0 ⟨50, 999⟩, .select 1 ⟨50, 1000⟩, .next 0, .next 1, .next 0, .next 0, .next 0,
    .commit 0, .next 1, .next 1, .next 1, .commit 1]

theorem loser_reports_candidate :
    ¬ (system sampleSetting).EveryState
      (fun s => ConsumedOnce sampleSetting sampleStart s.store s.committed)
      (State.initial sampleStart) bothConsume := by
  intro h
  have hrun : ((system sampleSetting).run (State.initial sampleStart) bothConsume).map
      (fun s => ((s.store.records.find "req-1").map PreConsumeRecord.userSubscriptionId,
        s.committed.map fun h => (returnedBy h.2).map PreConsumeResult.userSubscriptionId)) =
      some (some 1, [[1], [2]]) := by decide +kernel
  obtain ⟨t, ht, hresult⟩ := Option.map_eq_some_iff.mp hrun
  obtain ⟨hrecord, hreturned⟩ := Prod.mk.inj hresult
  have hmem : [2] ∈ t.committed.map fun h =>
      (returnedBy h.2).map PreConsumeResult.userSubscriptionId := by
    rw [hreturned]
    simp
  obtain ⟨x, hx, htwo⟩ := List.mem_map.mp hmem
  obtain ⟨r, result, hr, hresult, hid, -⟩ := (h.run ht).reported x hx
  have hrecord' : t.store.records.find "req-1" = some r := hr
  rw [hrecord'] at hrecord
  rw [hresult] at htwo
  have hone : r.userSubscriptionId = 1 := by simpa using hrecord
  have htwo' : result.userSubscriptionId = 2 := by simpa using htwo
  omega

end PreConsumeRace
