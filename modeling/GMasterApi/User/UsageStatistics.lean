import GMasterApi.Lib.Transition
import Mathlib.Algebra.BigOperators.Group.Finset.Basic
import Mathlib.Data.Fintype.Basic
import Mathlib.Tactic.Abel

/-!
# The statistics of the usage

A process collects what is logged in a map and flushes it from time to time: for each entry it
looks for a row of the combination and then adds to all such rows, or inserts one.  The rows
hold what was logged in every run in which no two combinations share a key of the map, no write
fails, and an entry is added to one row only (`usage_conserved`).
-/

namespace UsageStatistics

open Transition

structure Combination where
  userId : ℤ
  username : String
  modelName : String
  createdAt : ℤ
  deriving DecidableEq

/-- `count`, `quota` and `token_used` -/
abbrev Amounts := ℤ × ℤ × ℤ

/-- A row of `quota_data`, or an entry of the map. -/
structure QuotaData where
  combination : Combination
  amounts : Amounts
  deriving DecidableEq

/-- `fmt.Sprintf("%d-%s-%s-%d", ...)` -/
def Combination.key (c : Combination) : String :=
  toString c.userId ++ "-" ++ c.username ++ "-" ++ c.modelName ++ "-" ++ toString c.createdAt

/-- An entry that is being saved, and whether a row was found for it. -/
structure Saving where
  data : QuotaData
  found : Bool
  deriving DecidableEq

/-- A run of `SaveQuotaDataCache`: the entries that it has still to save, in any order. -/
structure Flush where
  pending : List QuotaData
  saving : Option Saving
  deriving DecidableEq

/-- The map of a process, each entry under the key of its combination, and the flush that holds
its lock. -/
structure Proc where
  cache : List QuotaData
  flush : Option Flush
  deriving DecidableEq

/-- The processes, the table, and every call of `LogQuotaData` so far. -/
structure State (ι : Type) where
  procs : ι → Proc
  rows : List QuotaData
  logged : List QuotaData

/-- A call, or a step of a flush; `fails` says of its statement that it does. -/
inductive Action (ι : Type)
  | log (i : ι) (userId : ℤ) (username modelName : String) (quota createdAt tokenUsed : ℤ)
  | flush (i : ι)
  | look (i : ι) (k : ℕ) (fails : Bool)
  | write (i : ι) (fails : Bool)
  | clear (i : ι)

def QuotaData.add (data : QuotaData) (amounts : Amounts) : QuotaData :=
  { data with amounts := data.amounts + amounts }

/-- `logQuotaDataCache` -/
def logQuotaDataCache (call : QuotaData) : List QuotaData → List QuotaData
  | [] => [call]
  | data :: cache =>
    if data.combination.key = call.combination.key then data.add call.amounts :: cache
    else data :: logQuotaDataCache call cache

/-- What a call logs, in the hour of its time. -/
def called (userId : ℤ) (username modelName : String) (quota createdAt tokenUsed : ℤ) : QuotaData :=
  ⟨⟨userId, username, modelName, createdAt - createdAt.tmod 3600⟩, 1, quota, tokenUsed⟩

/-- `UPDATE quota_data SET count = count + ?, ...` -/
def increaseQuotaData (data : QuotaData) (rows : List QuotaData) : List QuotaData :=
  rows.map fun row => if row.combination = data.combination then row.add data.amounts else row

variable {ι : Type} [DecidableEq ι]

def State.set (s : State ι) (i : ι) (p : Proc) : State ι :=
  { s with procs := Function.update s.procs i p }

def step (s : State ι) : Action ι → Option (State ι)
  | .log i userId username modelName quota createdAt tokenUsed =>
    let call := called userId username modelName quota createdAt tokenUsed
    if (s.procs i).flush = none then
      some { s.set i ⟨logQuotaDataCache call (s.procs i).cache, none⟩ with
        logged := s.logged ++ [call] }
    else none
  | .flush i =>
    if (s.procs i).flush = none then
      some (s.set i ⟨(s.procs i).cache, some ⟨(s.procs i).cache, none⟩⟩)
    else none
  | .look i k fails =>
    match (s.procs i).flush with
    | some ⟨pending, none⟩ => (pending[k]?).map fun data =>
      s.set i ⟨(s.procs i).cache, some ⟨pending.eraseIdx k,
        some ⟨data, !fails && s.rows.any fun row => row.combination = data.combination⟩⟩⟩
    | _ => none
  | .write i fails =>
    match (s.procs i).flush with
    | some ⟨pending, some ⟨data, found⟩⟩ =>
      let rows := if fails then s.rows
        else if found then increaseQuotaData data s.rows else s.rows ++ [data]
      some { s.set i ⟨(s.procs i).cache, some ⟨pending, none⟩⟩ with rows := rows }
    | _ => none
  | .clear i =>
    match (s.procs i).flush with
    | some ⟨[], none⟩ => some (s.set i ⟨[], none⟩)
    | _ => none

def system : System (State ι) (Action ι) := ⟨step⟩

def State.initial : State ι := ⟨fun _ => ⟨[], none⟩, [], []⟩

/-- The sums over the entries of a combination. -/
def total (c : Combination) (entries : List QuotaData) : Amounts :=
  (entries.map fun data => if data.combination = c then data.amounts else 0).sum

/-- Where no process has data left, the rows add up to the calls. -/
def Conserved (s : State ι) : Prop :=
  (∀ i, (s.procs i).cache = []) → ∀ c, total c s.rows = total c s.logged

/-- A call finds its key unused or used for its own combination; a write does not fail, and an
addition meets one row. -/
def Meets (s : State ι) : Action ι → Prop
  | .log i userId username modelName quota createdAt tokenUsed =>
    ∀ data ∈ (s.procs i).cache,
      let call := called userId username modelName quota createdAt tokenUsed
      data.combination.key = call.combination.key → data.combination = call.combination
  | .write i fails => fails = false ∧ ∀ f ∈ (s.procs i).flush, ∀ saving ∈ f.saving,
      saving.found = true →
        (s.rows.filter fun row => row.combination = saving.data.combination).length = 1
  | _ => True

instance (s : State ι) : ∀ a, Decidable (Meets s a)
  | .log i .. => inferInstanceAs (Decidable (∀ data ∈ (s.procs i).cache, _ → _))
  | .write i _ => inferInstanceAs (Decidable (_ ∧ ∀ f ∈ (s.procs i).flush, _))
  | .flush _ => .isTrue trivial
  | .look .. => .isTrue trivial
  | .clear _ => .isTrue trivial

/-! ## Sums -/

variable {c : Combination} {data call : QuotaData} {k : ℕ}
  {cache rows entries entries' : List QuotaData}

@[simp] theorem total_nil : total c [] = 0 := rfl

@[simp] theorem total_cons :
    total c (data :: entries) =
      (if data.combination = c then data.amounts else 0) + total c entries :=
  List.sum_cons

@[simp] theorem total_append :
    total c (entries ++ entries') = total c entries + total c entries' := by
  unfold total
  rw [List.map_append, List.sum_append]

theorem total_eraseIdx (h : entries[k]? = some data) :
    total c entries =
      (if data.combination = c then data.amounts else 0) + total c (entries.eraseIdx k) := by
  obtain ⟨hk, rfl⟩ := List.getElem?_eq_some_iff.mp h
  rw [← total_cons]
  exact (((List.getElem_cons_eraseIdx_perm hk).map _).sum_eq).symm

theorem total_logged (h : ∀ data ∈ cache, data.combination.key = call.combination.key →
    data.combination = call.combination) :
    total c (logQuotaDataCache call cache) = total c cache + total c [call] := by
  induction cache with
  | nil => simp [logQuotaDataCache]
  | cons data cache ih =>
    rw [List.forall_mem_cons] at h
    unfold logQuotaDataCache
    by_cases hkey : data.combination.key = call.combination.key
    · have hsame := h.1 hkey
      rw [if_pos hkey, total_cons, total_cons, total_cons, total_nil]
      show (if data.combination = c then data.amounts + call.amounts else 0) + _ = _
      rw [hsame]
      split <;> abel
    · rw [if_neg hkey, total_cons, total_cons, ih h.2]
      abel

theorem total_increase
    (h : (rows.filter fun row => row.combination = data.combination).length = 1) :
    total c (increaseQuotaData data rows) = total c rows + total c [data] := by
  induction rows with
  | nil => cases h
  | cons row rows ih =>
    have hcons : increaseQuotaData data (row :: rows) =
        (if row.combination = data.combination then row.add data.amounts else row) ::
          increaseQuotaData data rows := rfl
    rw [hcons, total_cons, total_cons]
    by_cases hrow : row.combination = data.combination
    · -- the other rows are not met
      simp only [List.filter_cons, hrow, decide_true, if_true, List.length_cons] at h
      have hnone : ∀ other ∈ rows, ¬ other.combination = data.combination := by
        intro other hother hsame
        have hnil := List.filter_eq_nil_iff.mp (List.eq_nil_of_length_eq_zero (Nat.succ.inj h))
        exact hnil other hother (decide_eq_true hsame)
      have hrest : increaseQuotaData data rows = rows :=
        (List.map_congr_left fun other hother => if_neg (hnone other hother)).trans (List.map_id _)
      rw [hrest, if_pos hrow]
      show (if row.combination = c then row.amounts + data.amounts else 0) + _ = _
      rw [hrow, total_cons, total_nil]
      split <;> abel
    · simp only [List.filter_cons, hrow, decide_false, Bool.false_eq_true, if_false] at h
      rw [if_neg hrow, ih h]
      abel

/-! ## Conservation -/

/-- The entries that a process has still to write. -/
def Proc.waiting (p : Proc) : List QuotaData :=
  match p.flush with
  | none => p.cache
  | some f => f.pending ++ (f.saving.toList.map Saving.data)

variable [Fintype ι]

structure Inv (s : State ι) : Prop where
  accounted : ∀ c, total c s.rows + ∑ i, total c (s.procs i).waiting = total c s.logged
  kept : ∀ i, ∀ data ∈ (s.procs i).waiting, data ∈ (s.procs i).cache

variable {s t : State ι} {i : ι} {p : Proc}

theorem sum_update (procs : ι → Proc) (i : ι) (p : Proc) (c : Combination) :
    ∑ j, total c (Function.update procs i p j).waiting + total c (procs i).waiting =
      ∑ j, total c (procs j).waiting + total c p.waiting := by
  have hothers : ∀ j ∈ Finset.univ.erase i,
      total c (Function.update procs i p j).waiting = total c (procs j).waiting := by
    intro j hj
    rw [Function.update_of_ne (Finset.ne_of_mem_erase hj)]
  rw [← Finset.add_sum_erase _ _ (Finset.mem_univ i), Finset.sum_congr rfl hothers,
    Function.update_self,
    ← Finset.add_sum_erase Finset.univ (fun j => total c (procs j).waiting) (Finset.mem_univ i)]
  abel

/-- A step of one process, with what it adds to the rows and what it logs. -/
theorem Inv.after (h : Inv s) (new calls : List QuotaData)
    (hprocs : t.procs = Function.update s.procs i p) (hlogged : t.logged = s.logged ++ calls)
    (hrows : ∀ c, total c t.rows = total c s.rows + total c new)
    (hwaiting : ∀ c, total c new + total c p.waiting =
      total c (s.procs i).waiting + total c calls)
    (hkept : ∀ data ∈ p.waiting, data ∈ p.cache) : Inv t := by
  constructor
  · intro c
    have hsum := sum_update s.procs i p c
    rw [hprocs, hlogged, hrows]
    apply add_right_cancel (b := total c (s.procs i).waiting)
    calc total c s.rows + total c new + ∑ j, total c (Function.update s.procs i p j).waiting +
            total c (s.procs i).waiting
        = total c s.rows + total c new +
            (∑ j, total c (s.procs j).waiting + total c p.waiting) := by
          rw [← hsum]
          abel
      _ = total c s.rows + ∑ j, total c (s.procs j).waiting +
            (total c new + total c p.waiting) := by abel
      _ = total c (s.logged ++ calls) + total c (s.procs i).waiting := by
          rw [h.accounted c, hwaiting, total_append]
          abel
  · intro j
    rw [hprocs]
    by_cases hj : j = i
    · rw [hj, Function.update_self]
      exact hkept
    · rw [Function.update_of_ne hj]
      exact h.kept j

theorem waiting_of_idle (h : p.flush = none) : p.waiting = p.cache := by
  unfold Proc.waiting
  rw [h]

theorem waiting_of_flush {f : Flush} (h : p.flush = some f) :
    p.waiting = f.pending ++ f.saving.toList.map Saving.data := by
  unfold Proc.waiting
  rw [h]

theorem Inv.step {a : Action ι} (h : Inv s) (hmeets : Meets s a) (ht : step s a = some t) :
    Inv t := by
  cases a with
  | log i userId username modelName quota createdAt tokenUsed =>
    generalize hcall : called userId username modelName quota createdAt tokenUsed = call
    simp only [UsageStatistics.step, hcall] at ht
    split at ht
    · rename_i hflush
      cases ht
      refine h.after [] [call] rfl rfl (fun c => (add_zero _).symm) (fun c => ?_)
        fun _ hdata => hdata
      rw [waiting_of_idle hflush, total_nil, zero_add]
      exact total_logged fun data hdata hkey => hcall ▸ hmeets data hdata (hcall ▸ hkey)
    · cases ht
  | flush i =>
    simp only [UsageStatistics.step] at ht
    split at ht
    · rename_i hflush
      cases ht
      have hstart : Proc.waiting ⟨(s.procs i).cache, some ⟨(s.procs i).cache, none⟩⟩ =
          (s.procs i).cache := List.append_nil _
      refine h.after [] [] rfl (List.append_nil _).symm (fun c => (add_zero _).symm) (fun c => ?_)
        fun _ hdata => hstart ▸ hdata
      rw [hstart, waiting_of_idle hflush, total_nil, zero_add, add_zero]
    · cases ht
  | look i k fails =>
    simp only [UsageStatistics.step] at ht
    split at ht
    · rename_i pending hflush
      obtain ⟨data, hdata, rfl⟩ := Option.map_eq_some_iff.mp ht
      have hbefore : (s.procs i).waiting = pending := by
        rw [waiting_of_flush hflush]
        exact List.append_nil pending
      refine h.after [] [] rfl (List.append_nil _).symm (fun c => (add_zero _).symm)
        (fun c => ?_) ?_
      · show total c [] + total c (pending.eraseIdx k ++ [data]) = _
        rw [hbefore, total_append, total_eraseIdx hdata, total_cons, total_nil]
        abel
      · intro x hx
        refine h.kept i x (hbefore ▸ ?_)
        rcases List.mem_append.mp hx with hx | hx
        · exact List.mem_of_mem_eraseIdx hx
        · rw [List.mem_singleton.mp hx]
          exact List.mem_of_getElem? hdata
    · cases ht
  | write i fails =>
    obtain ⟨rfl, hone⟩ := hmeets
    simp only [UsageStatistics.step] at ht
    split at ht
    · rename_i pending data found hflush
      cases ht
      have hbefore : (s.procs i).waiting = pending ++ [data] := waiting_of_flush hflush
      have hafter : Proc.waiting ⟨(s.procs i).cache, some ⟨pending, none⟩⟩ = pending :=
        List.append_nil pending
      refine h.after [data] [] rfl (List.append_nil _).symm (fun c => ?_) (fun c => ?_) ?_
      · cases found with
        | true => exact total_increase (hone _ hflush _ rfl rfl)
        | false => exact total_append
      · rw [hafter, hbefore, total_append, total_nil]
        abel
      · exact fun x hx => h.kept i x (hbefore ▸ List.mem_append_left _ (hafter ▸ hx))
    · cases ht
  | clear i =>
    simp only [UsageStatistics.step] at ht
    split at ht
    · rename_i hflush
      cases ht
      have hbefore : (s.procs i).waiting = [] := waiting_of_flush hflush
      refine h.after [] [] rfl (List.append_nil _).symm (fun c => (add_zero _).symm) (fun c => ?_)
        fun x hx => by cases hx
      rw [hbefore]
      rfl
    · cases ht

/-- **The rows hold what was logged** wherever nothing is left to save, in every such run. -/
theorem usage_conserved (as : List (Action ι))
    (h : system.EveryStep Meets (State.initial : State ι) as) :
    system.EveryState Conserved (State.initial : State ι) as := by
  have hinit : Inv (State.initial : State ι) :=
    ⟨fun c => by simp [State.initial, Proc.waiting], fun i data hdata => by cases hdata⟩
  refine (System.everyState_of_everyStep (fun s a t hs hc ht => hs.step hc ht) hinit h).mono ?_
  intro s hs hempty c
  have hnone : ∀ i, total c (s.procs i).waiting = 0 := by
    intro i
    have hnil : (s.procs i).waiting = [] := by
      refine List.eq_nil_iff_forall_not_mem.mpr fun data hdata => ?_
      have hmem := hs.kept i data hdata
      rw [hempty i] at hmem
      cases hmem
    rw [hnil, total_nil]
  rw [← hs.accounted c, Finset.sum_eq_zero fun i _ => hnone i, add_zero]

/-- One process: a call is logged, flushed, logged again and flushed. -/
def twice : List (Action (Fin 1)) :=
  [.log 0 1 "ann" "gpt" 5 7200 3, .flush 0, .look 0 0 false, .write 0 false, .clear 0,
    .log 0 1 "ann" "gpt" 5 7300 3, .flush 0, .look 0 0 false, .write 0 false, .clear 0]

theorem twice_conserved : system.EveryState Conserved (State.initial : State (Fin 1)) twice :=
  usage_conserved twice (by decide +kernel)

/-- Two users whose names and models make one key. -/
def sharedKey : List (Action (Fin 1)) :=
  [.log 0 1 "ann-x" "gpt" 5 7200 3, .log 0 1 "ann" "x-gpt" 7 7200 4, .flush 0, .look 0 0 false,
    .write 0 false, .clear 0]

theorem shared_key_loses :
    ¬ system.EveryState Conserved (State.initial : State (Fin 1)) sharedKey := by
  have hlost : (system.run (State.initial : State (Fin 1)) sharedKey).any (fun s =>
      (∀ i, (s.procs i).cache = []) ∧
        total ⟨1, "ann", "x-gpt", 7200⟩ s.rows ≠
          total ⟨1, "ann", "x-gpt", 7200⟩ s.logged) = true := by
    decide +kernel
  intro h
  cases hrun : system.run (State.initial : State (Fin 1)) sharedKey with
  | none =>
    rw [hrun] at hlost
    cases hlost
  | some s =>
    rw [hrun, Option.any_some, decide_eq_true_iff] at hlost
    exact hlost.2 (h.run hrun hlost.1 _)

end UsageStatistics
