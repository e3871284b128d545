import GMasterApi.Lib.Table
import GMasterApi.Lib.Transition
import Mathlib.Algebra.Group.Pi.Lemmas
import Mathlib.Tactic.Abel

/-!
# Batched updates of the counters

`addNewRecord` adds an amount to a map of its type; `batchUpdate` swaps each map
for an empty one and applies what was in it, one `UPDATE` an entry.  A failing
`UPDATE` is logged and its entry is gone.

An amount is a `Delta`: what it adds to each counter of each row.  Whatever the
interleaving, what is stored, what still waits in a map or in a running
`batchUpdate`, and what failed add up to the direct updates (`accounted`); after
a last `batchUpdate` nothing waits (`batch_update_direct`).
-/

namespace BatchUpdate

open Transition

inductive UpdateType
  | userQuota
  | tokenQuota
  | usedQuota
  | channelUsedQuota
  | requestCount
  deriving DecidableEq

/-- The types in the order of their numbers. -/
def UpdateType.all : List UpdateType :=
  [.userQuota, .tokenQuota, .usedQuota, .channelUsedQuota, .requestCount]

/-- The counters of the rows of `users`, `tokens` and `channels`, by id. -/
@[ext]
structure Db where
  userQuota : ℤ → ℤ
  tokenRemainQuota : ℤ → ℤ
  tokenUsedQuota : ℤ → ℤ
  userUsedQuota : ℤ → ℤ
  userRequestCount : ℤ → ℤ
  channelUsedQuota : ℤ → ℤ

/-- `column + n` in the row `id`. -/
def plus (column : ℤ → ℤ) (id n : ℤ) : ℤ → ℤ := Function.update column id (column id + n)

def increaseUserQuota (db : Db) (id quota : ℤ) : Db :=
  { db with userQuota := plus db.userQuota id quota }

def decreaseUserQuota (db : Db) (id quota : ℤ) : Db :=
  { db with userQuota := plus db.userQuota id (-quota) }

def increaseTokenQuota (db : Db) (id quota : ℤ) : Db :=
  { db with
    tokenRemainQuota := plus db.tokenRemainQuota id quota
    tokenUsedQuota := plus db.tokenUsedQuota id (-quota) }

def decreaseTokenQuota (db : Db) (id quota : ℤ) : Db :=
  { db with
    tokenRemainQuota := plus db.tokenRemainQuota id (-quota)
    tokenUsedQuota := plus db.tokenUsedQuota id quota }

def updateUserUsedQuota (db : Db) (id quota : ℤ) : Db :=
  { db with userUsedQuota := plus db.userUsedQuota id quota }

def updateUserRequestCount (db : Db) (id count : ℤ) : Db :=
  { db with userRequestCount := plus db.userRequestCount id count }

def updateUserUsedQuotaAndRequestCount (db : Db) (id quota count : ℤ) : Db :=
  { db with
    userUsedQuota := plus db.userUsedQuota id quota
    userRequestCount := plus db.userRequestCount id count }

def updateChannelUsedQuota (db : Db) (id quota : ℤ) : Db :=
  { db with channelUsedQuota := plus db.channelUsedQuota id quota }

structure Record where
  type : UpdateType
  id : ℤ
  value : ℤ
  deriving DecidableEq

/-- The `switch` of `batchUpdate`. -/
def Db.update (db : Db) (r : Record) : Db :=
  match r.type with
  | .userQuota => increaseUserQuota db r.id r.value
  | .tokenQuota => increaseTokenQuota db r.id r.value
  | .usedQuota => updateUserUsedQuota db r.id r.value
  | .requestCount => updateUserRequestCount db r.id r.value
  | .channelUsedQuota => updateChannelUsedQuota db r.id r.value

/-- Every update applied to the database at once. -/
def directly (db : Db) (rs : List Record) : Db := rs.foldl Db.update db

/-! ## The calls that are batched -/

inductive Call
  | increaseUserQuota (id quota : ℤ)
  | decreaseUserQuota (id quota : ℤ)
  | increaseTokenQuota (id quota : ℤ)
  | decreaseTokenQuota (id quota : ℤ)
  | updateUserUsedQuotaAndRequestCount (id quota : ℤ)
  | updateChannelUsedQuota (id quota : ℤ)
  deriving DecidableEq

def errNegative : String := "quota 不能为负数！"

/-- The records of a call where `BatchUpdateEnabled`. -/
def Call.records : Call → Except String (List Record)
  | .increaseUserQuota id quota =>
    if quota < 0 then .error errNegative else .ok [⟨.userQuota, id, quota⟩]
  | .decreaseUserQuota id quota =>
    if quota < 0 then .error errNegative else .ok [⟨.userQuota, id, -quota⟩]
  | .increaseTokenQuota id quota =>
    if quota < 0 then .error errNegative else .ok [⟨.tokenQuota, id, quota⟩]
  | .decreaseTokenQuota id quota =>
    if quota < 0 then .error errNegative else .ok [⟨.tokenQuota, id, -quota⟩]
  | .updateUserUsedQuotaAndRequestCount id quota =>
    .ok [⟨.usedQuota, id, quota⟩, ⟨.requestCount, id, 1⟩]
  | .updateChannelUsedQuota id quota => .ok [⟨.channelUsedQuota, id, quota⟩]

/-- The same call where not. -/
def Call.direct (db : Db) : Call → Except String Db
  | .increaseUserQuota id quota =>
    if quota < 0 then .error errNegative else .ok (BatchUpdate.increaseUserQuota db id quota)
  | .decreaseUserQuota id quota =>
    if quota < 0 then .error errNegative else .ok (BatchUpdate.decreaseUserQuota db id quota)
  | .increaseTokenQuota id quota =>
    if quota < 0 then .error errNegative else .ok (BatchUpdate.increaseTokenQuota db id quota)
  | .decreaseTokenQuota id quota =>
    if quota < 0 then .error errNegative else .ok (BatchUpdate.decreaseTokenQuota db id quota)
  | .updateUserUsedQuotaAndRequestCount id quota =>
    .ok (BatchUpdate.updateUserUsedQuotaAndRequestCount db id quota 1)
  | .updateChannelUsedQuota id quota => .ok (BatchUpdate.updateChannelUsedQuota db id quota)

/-- A call is worth its records. -/
theorem Call.direct_eq (db : Db) (c : Call) : c.direct db = c.records.map (directly db) := by
  cases c with
  | increaseUserQuota id quota => simp only [direct, records]; split <;> rfl
  | decreaseUserQuota id quota => simp only [direct, records]; split <;> rfl
  | increaseTokenQuota id quota => simp only [direct, records]; split <;> rfl
  | decreaseTokenQuota id quota =>
    simp only [direct, records]
    split
    · rfl
    · simp [Except.map, directly, Db.update, BatchUpdate.increaseTokenQuota,
        BatchUpdate.decreaseTokenQuota]
  | updateUserUsedQuotaAndRequestCount id quota => rfl
  | updateChannelUsedQuota id quota => rfl

/-! ## The maps and the runs -/

/-- A `map[int]int`. -/
abbrev Entries := Table (ℤ × ℤ) Prod.fst

/-- A `batchUpdate` under way: looking for data, about to swap out the maps `left`,
or with entries of one to apply. -/
inductive Run
  | checking (left : List UpdateType)
  | swapping (left : List UpdateType)
  | applying (type : UpdateType) (entries : Entries) (left : List UpdateType)
  | ended

/-- `added` and `lost` are the records so far and those of them whose update failed. -/
structure State where
  stores : UpdateType → Entries
  db : Db
  runs : List Run
  added : List Record
  lost : List Record

/-- What may happen: a record, a new `batchUpdate`, or a step of the `i`th.  The order
of a map is any, so a step that applies an entry names its key. -/
inductive Label
  | add (r : Record)
  | start
  | next (i : ℕ)
  | apply (i : ℕ) (key : ℤ) (fails : Bool)
  deriving DecidableEq

def addNewRecord (store : Entries) (id value : ℤ) : Entries :=
  match store.find id with
  | none => (store.create (id, value)).getD store
  | some entry => store.save (id, entry.2 + value)

/-- The inner loop ends with its entries. -/
def Run.range (type : UpdateType) (entries : Entries) (left : List UpdateType) : Run :=
  if entries.rows = [] then .swapping left else .applying type entries left

def step (s : State) : Label → Option State
  | .add r => some
    { s with
      stores := Function.update s.stores r.type (addNewRecord (s.stores r.type) r.id r.value)
      added := s.added ++ [r] }
  | .start => some { s with runs := s.runs ++ [.checking UpdateType.all] }
  | .next i =>
    match s.runs[i]? with
    | some (.checking []) => some { s with runs := s.runs.set i .ended }
    | some (.checking (type :: left)) =>
      let run : Run :=
        if (s.stores type).rows = [] then .checking left else .swapping UpdateType.all
      some { s with runs := s.runs.set i run }
    | some (.swapping []) => some { s with runs := s.runs.set i .ended }
    | some (.swapping (type :: left)) => some
      { s with
        stores := Function.update s.stores type .empty
        runs := s.runs.set i (.range type (s.stores type) left) }
    | _ => none
  | .apply i key fails =>
    match s.runs[i]? with
    | some (.applying type entries left) =>
      (entries.find key).map fun entry =>
        let r : Record := ⟨type, key, entry.2⟩
        { s with
          db := if fails then s.db else s.db.update r
          lost := if fails then s.lost ++ [r] else s.lost
          runs := s.runs.set i (.range type (entries.delete key) left) }
    | _ => none

def system : System State Label := ⟨step⟩

def State.initial (db : Db) : State := ⟨fun _ => .empty, db, [], [], []⟩

/-- No `batchUpdate` is under way. -/
def State.idle (s : State) : Prop := ∀ run ∈ s.runs, run = .ended

/-! ## Amounts -/

/-- What is added to each counter of each row. -/
abbrev Delta := UpdateType → ℤ → ℤ

def Record.delta (r : Record) : Delta := Pi.single r.type (Pi.single r.id r.value)

def total (rs : List Record) : Delta := (rs.map Record.delta).sum

def value (e : Entries) : ℤ → ℤ := fun id => ((e.find id).map Prod.snd).getD 0

def Run.delta : Run → Delta
  | .applying type entries _ => Pi.single type (value entries)
  | _ => 0

/-- What waits in the maps and in the runs. -/
def State.pending (s : State) : Delta :=
  (fun type => value (s.stores type)) + (s.runs.map Run.delta).sum

def Db.plus (db : Db) (d : Delta) : Db where
  userQuota id := db.userQuota id + d .userQuota id
  tokenRemainQuota id := db.tokenRemainQuota id + d .tokenQuota id
  tokenUsedQuota id := db.tokenUsedQuota id - d .tokenQuota id
  userUsedQuota id := db.userUsedQuota id + d .usedQuota id
  userRequestCount id := db.userRequestCount id + d .requestCount id
  channelUsedQuota id := db.channelUsedQuota id + d .channelUsedQuota id

variable {db : Db} {s t : State}

@[simp] theorem Db.plus_zero (db : Db) : db.plus 0 = db := by
  simp [Db.plus]

theorem Db.plus_plus (db : Db) (d e : Delta) : (db.plus d).plus e = db.plus (d + e) := by
  ext id <;> simp only [Db.plus, Pi.add_apply] <;> omega

theorem plus_apply (column : ℤ → ℤ) (id n i : ℤ) :
    plus column id n i = column i + Pi.single (M := fun _ => ℤ) id n i := by
  unfold plus
  by_cases h : i = id
  · subst h
    simp
  · simp [h]

theorem Db.update_eq_plus (db : Db) (r : Record) : db.update r = db.plus r.delta := by
  obtain ⟨type, id, n⟩ := r
  cases type <;> ext i <;>
    simp [Db.update, Db.plus, Record.delta, increaseUserQuota, increaseTokenQuota,
      updateUserUsedQuota, updateUserRequestCount, updateChannelUsedQuota, plus_apply,
      Pi.single_neg, sub_eq_add_neg]

theorem directly_eq_plus (rs : List Record) : ∀ db : Db, directly db rs = db.plus (total rs) := by
  induction rs with
  | nil => intro db; simp [directly, total]
  | cons r rs ih =>
    intro db
    show directly (db.update r) rs = _
    rw [ih, Db.update_eq_plus, Db.plus_plus]
    simp [total]

theorem value_empty : value (.empty : Entries) = 0 := rfl

/-- A new record adds its amount to the map's entry. -/
theorem value_addNewRecord (e : Entries) (id n : ℤ) :
    value (addNewRecord e id n) = value e + Pi.single id n := by
  funext i
  unfold addNewRecord value
  cases h : e.find id with
  | none =>
    obtain ⟨e', he'⟩ := Table.create_of_find_none (x := (id, n)) h
    simp only [he', Option.getD_some, Pi.add_apply]
    rw [Table.find_create he']
    by_cases hi : id = i
    · subst hi
      simp [h]
    · simp [hi, Ne.symm hi]
  | some entry =>
    have hk : entry.1 = id := (Table.find_eq_some_iff.mp h).2
    simp only [Pi.add_apply]
    by_cases hi : id = i
    · subst hi
      rw [Table.find_save_self (x := (id, entry.2 + n)) h]
      simp [h]
    · rw [Table.find_save_of_ne (x := (id, entry.2 + n)) hi]
      simp [Ne.symm hi]

theorem value_delete {e : Entries} {key : ℤ} {entry : ℤ × ℤ} (h : e.find key = some entry) :
    value (e.delete key) + Pi.single key entry.2 = value e := by
  funext i
  simp only [value, Pi.add_apply]
  by_cases hi : i = key
  · subst hi
    rw [Table.find_delete_self, h]
    simp
  · rw [Table.find_delete_of_ne hi]
    simp [hi]

theorem Run.delta_range (type : UpdateType) (e : Entries) (left : List UpdateType) :
    (Run.range type e left).delta = Pi.single type (value e) := by
  unfold Run.range
  split
  · rename_i h
    have he : value e = 0 := by
      funext i
      simp [value, Table.find, h]
    rw [he, Pi.single_zero]
    rfl
  · rfl

/-- The runs' amounts after one of them has moved on. -/
theorem sum_set {runs : List Run} {run : Run} (run' : Run) :
    ∀ {i : ℕ}, runs[i]? = some run →
      ((runs.set i run').map Run.delta).sum + run.delta = (runs.map Run.delta).sum + run'.delta := by
  induction runs with
  | nil => intro i h; cases h
  | cons x xs ih =>
    intro i h
    cases i with
    | zero =>
      cases h
      simp only [List.set_cons_zero, List.map_cons, List.sum_cons]
      abel
    | succ i =>
      have := ih h
      simp only [List.set_cons_succ, List.map_cons, List.sum_cons, add_assoc, this]

/-- What waits in the maps after one of them has changed. -/
theorem stored_update (stores : UpdateType → Entries) (type : UpdateType) (e : Entries) :
    (fun t => value (Function.update stores type e t)) + Pi.single type (value (stores type)) =
      (fun t => value (stores t)) + Pi.single type (value e) := by
  funext t
  by_cases h : t = type
  · subst h
    simp only [Pi.add_apply, Function.update_self, Pi.single_eq_same]
    exact add_comm _ _
  · simp [h]

theorem total_append (rs : List Record) (r : Record) : total (rs ++ [r]) = total rs + r.delta := by
  simp [total]

/-! ## Nothing is lost but what failed -/

/-- The direct updates are what is stored, what waits and what failed. -/
def Accounted (db : Db) (s : State) : Prop :=
  ∃ d : Delta, s.db = db.plus d ∧ d + s.pending + total s.lost = total s.added

theorem Accounted.directly (h : Accounted db s) :
    s.db.plus (s.pending + total s.lost) = directly db s.added := by
  obtain ⟨d, hdb, hsum⟩ := h
  rw [hdb, Db.plus_plus, ← add_assoc, hsum, directly_eq_plus]

theorem accounted_initial (db : Db) : Accounted db (State.initial db) := by
  refine ⟨0, (Db.plus_zero db).symm, ?_⟩
  simp [State.initial, State.pending, total, value_empty]
  rfl

theorem accounted_add (h : Accounted db s) {r : Record} (ht : step s (.add r) = some t) :
    Accounted db t := by
  obtain ⟨d, hdb, hsum⟩ := h
  cases ht
  refine ⟨d, hdb, ?_⟩
  have hstore := stored_update s.stores r.type (addNewRecord (s.stores r.type) r.id r.value)
  rw [value_addNewRecord, Pi.single_add, ← add_assoc, add_right_comm] at hstore
  have hpending := add_right_cancel hstore
  simp only [State.pending] at hsum ⊢
  rw [total_append, ← hsum, hpending]
  unfold Record.delta
  abel

/-- A step that only moves a run on. -/
theorem accounted_move (h : Accounted db s) {i : ℕ} {run run' : Run} (hi : s.runs[i]? = some run)
    (hd : run.delta = 0) (hd' : run'.delta = 0) :
    Accounted db { s with runs := s.runs.set i run' } := by
  obtain ⟨d, hdb, hsum⟩ := h
  refine ⟨d, hdb, ?_⟩
  have hset := sum_set run' hi
  rw [hd, hd', add_zero, add_zero] at hset
  simp only [State.pending] at hsum ⊢
  rw [hset]
  exact hsum

theorem accounted_swap (h : Accounted db s) {i : ℕ} {type : UpdateType} {left : List UpdateType}
    (hi : s.runs[i]? = some (.swapping (type :: left))) :
    Accounted db
      { s with
        stores := Function.update s.stores type .empty
        runs := s.runs.set i (.range type (s.stores type) left) } := by
  obtain ⟨d, hdb, hsum⟩ := h
  refine ⟨d, hdb, ?_⟩
  have hset := sum_set (.range type (s.stores type) left) hi
  have hstore := stored_update s.stores type .empty
  rw [value_empty, Pi.single_zero, add_zero] at hstore
  rw [Run.delta_range] at hset
  simp only [State.pending] at hsum ⊢
  -- the map's amount has moved into the run
  have hmove : (fun t => value (Function.update s.stores type .empty t)) +
      ((s.runs.set i (.range type (s.stores type) left)).map Run.delta).sum =
        (fun t => value (s.stores t)) + (s.runs.map Run.delta).sum := by
    rw [← hstore, add_assoc, add_comm (Pi.single type _), ← hset]
    simp [Run.delta]
  rw [hmove]
  exact hsum

theorem accounted_apply (h : Accounted db s) {i : ℕ} {type : UpdateType} {e : Entries}
    {left : List UpdateType} {key : ℤ} {entry : ℤ × ℤ} {fails : Bool}
    (hi : s.runs[i]? = some (.applying type e left)) (hk : e.find key = some entry) :
    Accounted db
      { s with
        db := if fails then s.db else s.db.update ⟨type, key, entry.2⟩
        lost := if fails then s.lost ++ [⟨type, key, entry.2⟩] else s.lost
        runs := s.runs.set i (.range type (e.delete key) left) } := by
  obtain ⟨d, hdb, hsum⟩ := h
  have hset := sum_set (.range type (e.delete key) left) hi
  have hdelta : (Run.applying type e left).delta =
      Pi.single type (value (e.delete key)) + Record.delta ⟨type, key, entry.2⟩ := by
    simp only [Run.delta, Record.delta]
    rw [← value_delete hk, Pi.single_add]
  rw [hdelta, Run.delta_range, ← add_assoc, add_right_comm] at hset
  have hruns := add_right_cancel hset
  simp only [State.pending] at hsum
  cases fails with
  | true =>
    refine ⟨d, hdb, ?_⟩
    simp only [State.pending, if_true]
    rw [total_append, ← hsum, ← hruns]
    abel
  | false =>
    refine ⟨d + Record.delta ⟨type, key, entry.2⟩, ?_, ?_⟩
    · simp only [Bool.false_eq_true, if_false]
      rw [hdb, Db.update_eq_plus, Db.plus_plus]
    · simp only [State.pending, Bool.false_eq_true, if_false]
      rw [← hsum, ← hruns]
      abel

theorem accounted_step (h : Accounted db s) {l : Label} (ht : step s l = some t) :
    Accounted db t := by
  cases l with
  | add r => exact accounted_add h ht
  | start =>
    cases ht
    obtain ⟨d, hdb, hsum⟩ := h
    refine ⟨d, hdb, ?_⟩
    simpa [State.pending, Run.delta] using hsum
  | next i =>
    simp only [step] at ht
    split at ht
    · rename_i hi
      cases ht
      exact accounted_move h hi rfl rfl
    · rename_i type left hi
      cases ht
      refine accounted_move h hi rfl ?_
      split <;> rfl
    · rename_i hi
      cases ht
      exact accounted_move h hi rfl rfl
    · rename_i type left hi
      cases ht
      exact accounted_swap h hi
    · cases ht
  | apply i key fails =>
    simp only [step] at ht
    split at ht
    · rename_i type e left hi
      obtain ⟨entry, hk, rfl⟩ := Option.map_eq_some_iff.mp ht
      exact accounted_apply h hi hk
    · cases ht

/-- **Accounted.**  In every state of every interleaving. -/
theorem accounted (db : Db) (as : List Label) :
    system.EveryState (Accounted db) (State.initial db) as :=
  System.everyState_of_step (S := system) (fun _ _ _ h ht => accounted_step h ht)
    (accounted_initial db)

/-- **Batched calls are direct ones** but for what waits and what failed. -/
theorem calls_accounted (calls : List Call) (as : List Label) :
    system.EveryState
      (fun s => s.added.Perm (calls.flatMap fun c => c.records.toOption.getD []) →
        s.db.plus (s.pending + total s.lost) =
          calls.foldl (fun db c => (c.direct db).toOption.getD db) db)
      (State.initial db) as := by
  refine (accounted db as).mono fun s h hadded => ?_
  rw [h.directly, directly_eq_plus, total, (hadded.map _).sum_eq, ← total, ← directly_eq_plus]
  clear h hadded
  induction calls generalizing db with
  | nil => rfl
  | cons c calls ih =>
    rw [List.flatMap_cons, directly, List.foldl_append, List.foldl_cons, ← ih, Call.direct_eq]
    cases c.records <;> rfl

/-! ## A last `batchUpdate` -/

def Label.isAdd : Label → Bool
  | .add _ => true
  | _ => false

/-- The types whose maps a run has not seen empty yet. -/
def Run.left : Run → List UpdateType
  | .checking left => left
  | .swapping left => left
  | .applying _ _ left => left
  | .ended => []

/-- The `k`th run exists, and the maps of all types but those it has left are empty. -/
def Cleared (k : ℕ) (s : State) : Prop :=
  ∃ run, s.runs[k]? = some run ∧ ∀ type, type ∉ run.left → (s.stores type).rows = []

theorem UpdateType.mem_all (type : UpdateType) : type ∈ UpdateType.all := by
  cases type <;> decide

@[simp] theorem Run.left_range (type : UpdateType) (e : Entries) (left : List UpdateType) :
    (Run.range type e left).left = left := by
  unfold Run.range
  split <;> rfl

/-- A run moves on from `run` to `run'` and leaves the maps `stores`. -/
theorem cleared_move {k i : ℕ} (h : Cleared k s) {run run' : Run} (hi : s.runs[i]? = some run)
    {stores : UpdateType → Entries}
    (hstores : ∀ type, (s.stores type).rows = [] → (stores type).rows = [])
    (hself : ∀ type, type ∈ run.left → type ∉ run'.left → (stores type).rows = []) :
    Cleared k { s with stores := stores, runs := s.runs.set i run' } := by
  obtain ⟨r, hr, hempty⟩ := h
  by_cases hk : i = k
  · subst hk
    rw [hi] at hr
    cases hr
    refine ⟨run', ?_, fun type hleft => ?_⟩
    · exact List.getElem?_set_self (List.getElem?_eq_some_iff.mp hi).1
    · by_cases hmem : type ∈ run.left
      · exact hself type hmem hleft
      · exact hstores type (hempty type hmem)
  · refine ⟨r, ?_, fun type hleft => hstores type (hempty type hleft)⟩
    show (s.runs.set i run')[k]? = some r
    rw [List.getElem?_set_ne hk]
    exact hr

theorem cleared_step {k : ℕ} (h : Cleared k s) {l : Label} (hl : l.isAdd = false)
    (ht : step s l = some t) : Cleared k t := by
  cases l with
  | add r => cases hl
  | start =>
    cases ht
    obtain ⟨run, hr, hempty⟩ := h
    refine ⟨run, ?_, hempty⟩
    rw [List.getElem?_append_left (List.getElem?_eq_some_iff.mp hr).1]
    exact hr
  | next i =>
    simp only [step] at ht
    split at ht
    · rename_i hi
      cases ht
      exact cleared_move h hi (fun _ he => he) (fun _ hmem _ => by cases hmem)
    · rename_i type left hi
      cases ht
      refine cleared_move h hi (fun _ he => he) fun type' hmem hleft => ?_
      split at hleft
      · rename_i hempty
        rcases List.mem_cons.mp hmem with rfl | hmem
        · exact hempty
        · exact absurd hmem hleft
      · exact absurd type'.mem_all hleft
    · rename_i hi
      cases ht
      exact cleared_move h hi (fun _ he => he) (fun _ hmem _ => by cases hmem)
    · rename_i type left hi
      cases ht
      refine cleared_move h hi (fun type' he => ?_) fun type' hmem hleft => ?_
      · by_cases ht : type' = type
        · subst ht
          rw [Function.update_self]
          rfl
        · rw [Function.update_of_ne ht]
          exact he
      · rw [Run.left_range] at hleft
        rcases List.mem_cons.mp hmem with rfl | hmem
        · rw [Function.update_self]
          rfl
        · exact absurd hmem hleft
    · cases ht
  | apply i key fails =>
    simp only [step] at ht
    split at ht
    · rename_i type e left hi
      obtain ⟨entry, -, rfl⟩ := Option.map_eq_some_iff.mp ht
      refine cleared_move h hi (fun _ he => he) fun type' hmem hleft => ?_
      rw [Run.left_range] at hleft
      exact absurd hmem hleft
    · cases ht

theorem pending_eq_zero {k : ℕ} (h : Cleared k s) (hidle : s.idle) : s.pending = 0 := by
  obtain ⟨run, hr, hempty⟩ := h
  have hended : run = .ended := hidle run (List.mem_of_getElem? hr)
  have hstores : (fun type => value (s.stores type)) = 0 := by
    funext type id
    have hnil := hempty type (by rw [hended]; simp [Run.left])
    simp [value, Table.find, hnil]
  have hruns : (s.runs.map Run.delta).sum = 0 := by
    refine List.sum_eq_zero fun d hd => ?_
    obtain ⟨run', hrun', rfl⟩ := List.mem_map.mp hd
    rw [hidle run' hrun']
    rfl
  rw [State.pending, hstores, hruns, add_zero]

/-- **Batched updates are direct ones, less those that fail.**  After any interleaving
and one more `batchUpdate` that starts when the last record is in, nothing waits, and
the database is the one that the direct updates leave but for the failed ones. -/
theorem batch_update_direct (db : Db) (as bs : List Label) (hbs : ∀ b ∈ bs, b.isAdd = false)
    (s : State) (hrun : system.run (State.initial db) (as ++ .start :: bs) = some s)
    (hidle : s.idle) :
    s.pending = 0 ∧ directly s.db s.lost = directly db s.added ∧
      (s.lost = [] → s.db = directly db s.added) := by
  rw [System.run_append] at hrun
  obtain ⟨s₁, hs₁, hrun⟩ := Option.bind_eq_some_iff.mp hrun
  have haccounted : Accounted db s :=
    (System.everyState_of_step (S := system) (fun _ _ _ h ht => accounted_step h ht)
      ((accounted db as).run hs₁)).run hrun
  have hcleared : Cleared s₁.runs.length s := by
    rw [System.run_cons] at hrun
    have hstart : Cleared s₁.runs.length { s₁ with runs := s₁.runs ++ [.checking UpdateType.all] } :=
      ⟨.checking UpdateType.all, by simp, fun type hleft => absurd type.mem_all hleft⟩
    exact (System.everyState_of_everyStep (S := system) (I := Cleared s₁.runs.length)
      (fun _ _ _ h hl ht => cleared_step h hl ht) hstart
      (System.everyStep_of_forall hbs _)).run hrun
  have hpending := pending_eq_zero hcleared hidle
  have hdirect : directly s.db s.lost = directly db s.added := by
    rw [← haccounted.directly, hpending, zero_add, directly_eq_plus]
  refine ⟨hpending, hdirect, fun hlost => ?_⟩
  rw [← hdirect, hlost]
  rfl

/-- User 7 has a quota of 100, and the key 5 of his one of 50. -/
def sampleDb : Db where
  userQuota id := if id = 7 then 100 else 0
  tokenRemainQuota id := if id = 5 then 50 else 0
  tokenUsedQuota _ := 0
  userUsedQuota _ := 0
  userRequestCount _ := 0
  channelUsedQuota _ := 0

/-- The `n` further steps of a `batchUpdate` that only looks or swaps. -/
def nexts (i n : ℕ) : List Label := List.replicate n (.next i)

/-- A `batchUpdate` that finds one entry of a token, and applies it. -/
def applyToken : List Label := nexts 0 4 ++ .apply 0 5 false :: nexts 0 4

theorem batch_update_direct_sample :
    ∃ s, system.run (State.initial sampleDb)
        ([.add ⟨.tokenQuota, 5, -30⟩] ++ .start :: applyToken) = some s ∧
      s.pending = 0 ∧ directly s.db s.lost = directly sampleDb s.added ∧
      (s.lost = [] → s.db = directly sampleDb s.added) := by
  have hsome : (system.run (State.initial sampleDb)
      ([.add ⟨.tokenQuota, 5, -30⟩] ++ .start :: applyToken)).isSome = true := by decide
  have hidle : (Option.get _ hsome).idle := by
    have hruns : (Option.get _ hsome).runs = [.ended] := rfl
    intro run hrun
    rw [hruns] at hrun
    exact List.mem_singleton.mp hrun
  have hrun := (Option.some_get hsome).symm
  exact ⟨_, hrun, batch_update_direct sampleDb _ applyToken (by decide) _ hrun hidle⟩

/-- A charge of 30 to user 7; the `UPDATE` of the `batchUpdate` that finds it fails, and
a second `batchUpdate` finds nothing. -/
def failedUpdate : List Label :=
  .add ⟨.userQuota, 7, -30⟩ :: .start :: nexts 0 2 ++ .apply 0 7 true :: nexts 0 5 ++
    .start :: nexts 1 6

/-- The stored quota, what waits for it, and what direct updates would have left. -/
theorem failed_update_lost :
    (system.run (State.initial sampleDb) failedUpdate).map (fun s =>
      (s.db.userQuota 7, s.pending .userQuota 7, (directly sampleDb s.added).userQuota 7)) =
        some (100, 0, 70) := by
  decide +kernel

end BatchUpdate
