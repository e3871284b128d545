import GMasterApi.Lib.Processes
import GMasterApi.Midjourney.Task
import Mathlib.Algebra.Order.BigOperators.Group.List

/-!
# Polling of Midjourney tasks

`UpdateMidjourneyTaskBulk` runs in every process: a round loads the tasks that are
not done, fails those without an id and those whose channel is gone, asks each
channel for its tasks, and writes what it answers with `UpdateWithStatus`.  A round
makes one access to the database at a time, between those of other rounds and of
submissions.

Where no statement finds a task that is done, and none fails a task otherwise than
its charge allows, no task is refunded more than it was charged (`refunds_of_sound`).
-/

namespace Midjourneys

open GoMap JsonValue Processes Transition

/-! ## Rounds -/

/-- `taskM`, and what `range` has not come to yet of `taskChannelM`. -/
structure Round where
  tasks : Map String Midjourney
  channels : List (ℕ × List String)

/-- A submission, a round that is about to load its tasks, or the place a round is at. -/
inductive Proc
  | submit (route : Route) (s : Submission)
  | load
  | fixNull (taskIds : List ℕ) (r : Round)
  | channels (r : Round)
  | items (items : List Item) (r : Round)
  | refund (task : Midjourney) (items : List Item) (r : Round)

/-- What the environment answers to one move: the id of a new row, whether the statement
succeeds, the orders of a `SELECT` and a `range`, the channel with its base URL, the items
of its reply, and the clock. -/
structure Env where
  id : ℕ
  ok : Bool
  rows : Order Midjourney
  channels : Order (ℕ × List String)
  channel : Option (Option String)
  reply : Option (List Item)
  now : ℤ

inductive Event
  | charged (id : ℕ) (quota : ℤ)
  | refunded (id : ℕ) (quota : ℤ)
  | panicked
  deriving DecidableEq

abbrev Moved := Effect Proc Tasks Event

/-- A submission stores its row and charges for it; a row that is not stored is not polled. -/
def submit (env : Env) (route : Route) (s : Submission) (tasks : Tasks) : Moved :=
  match tasks.create { route.row s with id := env.id } with
  | some tasks =>
    ⟨tasks, if route.charges s && env.ok then [.charged env.id s.quota] else [], []⟩
  | none => ⟨tasks, [], []⟩

/-- The loop over the tasks that were loaded. -/
def load (env : Env) (tasks : Tasks) : Moved :=
  let found := if env.ok then env.rows.range (getAllUnFinishTasks tasks) else []
  let nulls := (found.filter fun task => task.mjId = "").map Midjourney.id
  let polled := found.filter fun task => task.mjId ≠ ""
  let r : Round :=
    ⟨Map.empty.putAll (polled.map fun task => (task.mjId, task)),
      env.channels.range (groupBy Midjourney.channelId Midjourney.mjId polled)⟩
  ⟨tasks, [], [if nulls = [] then .channels r else .fixNull nulls r]⟩

/-- The loop over the channels; the base URL is a pointer. -/
def visit (env : Env) (r : Round) (tasks : Tasks) : Moved :=
  match r.channels with
  | [] => ⟨tasks, [], []⟩
  | (channelId, mjIds) :: rest =>
    let r := { r with channels := rest }
    match env.channel with
    | none => ⟨mjBulkUpdate env.ok tasks mjIds channelId, [], [.channels r]⟩
    | some none => ⟨tasks, [.panicked], []⟩
    | some (some _) =>
      match env.reply with
      | none => ⟨tasks, [], [.channels r]⟩
      | some items => ⟨tasks, [], [.items items r]⟩

section Marshal

variable (marshal : Json → String)

/-- The loop over the items of a reply; `taskM` has pointers, and `nil` for other ids. -/
def readItems (env : Env) (items : List Item) (r : Round) (tasks : Tasks) : Moved :=
  match items with
  | [] => ⟨tasks, [], [.channels r]⟩
  | item :: rest =>
    match r.tasks.get item.mjId with
    | none => ⟨tasks, [.panicked], []⟩
    | some task =>
      match task.read marshal env.now item with
      | none => ⟨tasks, [], [.items rest r]⟩
      | some (after, refunds) =>
        let r := { r with tasks := r.tasks.put item.mjId after }
        let out := updateWithStatus env.ok tasks after task.status
        ⟨out.1, [], [if out.2 && refunds then .refund after rest r else .items rest r]⟩

/-- `IncreaseUserQuota`, which refuses a negative quota. -/
def refund (env : Env) (task : Midjourney) : List Event :=
  if 0 ≤ task.quota ∧ env.ok = true then [.refunded task.id task.quota] else []

def next (env : Env) (p : Proc) (tasks : Tasks) : Moved :=
  match p with
  | .submit route s => submit env route s tasks
  | .load => load env tasks
  | .fixNull taskIds r => ⟨mjBulkUpdateByTaskIds env.ok tasks taskIds, [], [.channels r]⟩
  | .channels r => visit env r tasks
  | .items items r => readItems marshal env items r tasks
  | .refund task items r => ⟨tasks, refund env task, [.items items r]⟩

def starts : Proc → Bool
  | .submit _ _ | .load => true
  | _ => false

abbrev Polls := State Proc Tasks Event

/-- Submissions, and rounds of any number of processes. -/
def polling : System Polls (Action Env Proc) := system starts (next marshal)

def Polls.start : Polls := .initial .empty

/-! ## What is promised -/

def Event.charge (id : ℕ) : Event → ℤ
  | .charged id' quota => if id' = id then quota else 0
  | _ => 0

def Event.given (id : ℕ) : Event → ℤ
  | .refunded id' quota => if id' = id then quota else 0
  | _ => 0

/-- What was really taken for the row. -/
def charged (log : List Event) (id : ℕ) : ℤ := (log.map (Event.charge id)).sum

def refunded (log : List Event) (id : ℕ) : ℤ := (log.map (Event.given id)).sum

/-- The process is in the middle of a round. -/
def Proc.inRound : Proc → Bool
  | .submit _ _ | .load => false
  | _ => true

/-- **Refunded as charged**: no task is refunded more than was taken for it, a failure has cost
nothing when all rounds are over, and no round panics. -/
structure RefundedAsCharged (s : Polls) : Prop where
  atMost : ∀ id, refunded s.log id ≤ charged s.log id
  failed : (∀ p ∈ s.procs, p.inRound = false) → ∀ x ∈ s.store.rows, x.status = "FAILURE" →
    x.finished = true → refunded s.log x.id = charged s.log x.id
  calm : Event.panicked ∉ s.log

/-- A row that is done stays as it is. -/
def KeepsFinished (s : Polls) (a : Action Env Proc) : Prop :=
  ∀ t, (polling marshal).step s a = some t → ∀ x ∈ s.store.rows, x.finished = true →
    x ∈ t.store.rows

/-! ## Which moves keep the promise -/

/-- The row that a write with the copy's status would change. -/
def overwritten (ok : Bool) (tasks : Tasks) (task : Midjourney) : Option Midjourney :=
  (tasks.find task.id).filter fun row => ok && decide (row.status = task.status)

/-- A channel that is gone has only tasks that were not charged, or that are failed as this
round would fail them. -/
def MissingSound (s : Polls) (mjIds : List String) (channelId : ℕ) : Prop :=
  ∀ x ∈ s.store.rows, x.mjId ∈ mjIds →
    if x.finished then x.failMissing channelId = x else charged s.log x.id = 0

instance (s : Polls) (mjIds : List String) (channelId : ℕ) :
    Decidable (MissingSound s mjIds channelId) :=
  inferInstanceAs (Decidable (∀ _ ∈ _, _))

def VisitSound (s : Polls) (env : Env) (r : Round) : Prop :=
  match r.channels, env.channel with
  | (channelId, mjIds) :: _, none => env.ok = true → MissingSound s mjIds channelId
  | _ :: _, some none => False
  | _, _ => True

instance (s : Polls) (env : Env) (r : Round) : Decidable (VisitSound s env r) :=
  match h : r.channels, h' : env.channel with
  | (channelId, mjIds) :: _, none =>
    decidable_of_iff (env.ok = true → MissingSound s mjIds channelId) (by rw [VisitSound, h, h'])
  | _ :: _, some none => decidable_of_iff False (by rw [VisitSound, h, h'])
  | [], none => decidable_of_iff True (by rw [VisitSound, h, h'])
  | [], some _ => decidable_of_iff True (by rw [VisitSound, h, h'])
  | _ :: _, some (some _) => decidable_of_iff True (by rw [VisitSound, h, h'])

/-- The item is for a task of the round, and a write that wins finds the task not yet done (or
as it would write it), and charged where it refunds. -/
def ItemSound (s : Polls) (env : Env) (r : Round) (item : Item) : Prop :=
  ∃ task ∈ r.tasks.get item.mjId, ∀ out ∈ task.read marshal env.now item,
    ∀ x ∈ overwritten env.ok s.store task,
      (x.finished = true → out = (x, false)) ∧
      (out.2 = true → charged s.log x.id = x.quota)

instance (s : Polls) (env : Env) (r : Round) (item : Item) :
    Decidable (ItemSound marshal s env r item) :=
  inferInstanceAs (Decidable (∃ _ ∈ _, _))

def Sound (s : Polls) (env : Env) : Proc → Prop
  | .submit _ sub => 0 ≤ sub.quota
  | .load => True
  | .fixNull taskIds _ =>
    env.ok = true → ∀ x ∈ s.store.rows, x.id ∈ taskIds → charged s.log x.id = 0
  | .channels r => VisitSound s env r
  | .items [] _ => True
  | .items (item :: _) r => ItemSound marshal s env r item
  | .refund _ _ _ => env.ok = true

instance (s : Polls) (env : Env) : ∀ p, Decidable (Sound marshal s env p)
  | .submit _ sub => inferInstanceAs (Decidable (0 ≤ sub.quota))
  | .load => inferInstanceAs (Decidable True)
  | .fixNull _ _ => inferInstanceAs (Decidable (env.ok = true → ∀ _ ∈ _, _))
  | .channels r => inferInstanceAs (Decidable (VisitSound s env r))
  | .items [] _ => inferInstanceAs (Decidable True)
  | .items (item :: _) r => inferInstanceAs (Decidable (ItemSound marshal s env r item))
  | .refund _ _ _ => inferInstanceAs (Decidable (env.ok = true))

end Marshal

/-! ## The invariant -/

/-- What is still to be refunded for the row. -/
def Proc.owed (id : ℕ) : Proc → ℤ
  | .refund task _ _ => if task.id = id then task.quota else 0
  | _ => 0

/-- What has been refunded for the row, or is about to be. -/
def given (s : Polls) (id : ℕ) : ℤ := refunded s.log id + (s.procs.map (Proc.owed id)).sum

/-- A row, what was taken for it and what is given back. -/
structure Settled (x : Midjourney) (taken given : ℤ) : Prop where
  quota : 0 ≤ x.quota
  price : taken = 0 ∨ taken = x.quota
  unfinished : x.finished = false → given = 0
  failed : x.finished = true → x.status = "FAILURE" → given = taken
  le : given ≤ taken

/-- What becomes of a row: it stays the same task, and one without an id is at most failed. -/
structure Succeeds (x y : Midjourney) : Prop where
  same : SameTask x y
  null : x.mjId = "" → (x.finished = true → x.status = "FAILURE") →
    y.finished = true → y.status = "FAILURE"

theorem Succeeds.refl (x : Midjourney) : Succeeds x x := ⟨.refl x, fun _ h => h⟩

abbrev Grows : Tasks → Tasks → Prop := Table.Evolves Succeeds fun _ => True

def Round.Ok (tasks : Tasks) (r : Round) : Prop :=
  ∀ k task, r.tasks.get k = some task → k ≠ "" ∧ task.mjId = k ∧ ∃ x ∈ tasks.rows, SameTask x task

def Proc.Ok (tasks : Tasks) : Proc → Prop
  | .submit _ _ | .load => True
  | .fixNull taskIds r =>
    (∀ id ∈ taskIds, ∃ x ∈ tasks.rows, x.id = id ∧ x.mjId = "" ∧
      (x.finished = true → x.status = "FAILURE")) ∧ r.Ok tasks
  | .channels r | .items _ r => r.Ok tasks
  | .refund task _ r => 0 ≤ task.quota ∧ r.Ok tasks

structure Invariant (s : Polls) : Prop where
  settled : ∀ x ∈ s.store.rows, Settled x (charged s.log x.id) (given s x.id)
  absent : ∀ id, s.store.find id = none → charged s.log id = 0 ∧ given s id = 0
  procs : ∀ p ∈ s.procs, p.Ok s.store
  calm : Event.panicked ∉ s.log

theorem inv_start : Invariant Polls.start :=
  ⟨List.forall_mem_nil _, fun _ _ => ⟨rfl, rfl⟩, List.forall_mem_nil _, List.not_mem_nil⟩

variable {s : Polls} {k : ℕ} {p : Proc} {e : Moved} {env : Env} {tasks tasks' : Tasks} {id : ℕ}
  {r : Round}

@[simp] theorem charged_nil : charged [] id = 0 := rfl

@[simp] theorem refunded_nil : refunded [] id = 0 := rfl

theorem charged_append (log events : List Event) :
    charged (log ++ events) id = charged log id + charged events id := by
  unfold charged
  rw [List.map_append, List.sum_append]

theorem refunded_append (log events : List Event) :
    refunded (log ++ events) id = refunded log id + refunded events id := by
  unfold refunded
  rw [List.map_append, List.sum_append]

/-- What a move adds to what has been refunded or is about to be. -/
def shift (p : Proc) (e : Moved) (id : ℕ) : ℤ :=
  refunded e.events id + (e.procs.map (Proc.owed id)).sum - p.owed id

theorem given_after (hp : s.procs[k]? = some p) :
    given (s.after k e) id = given s id + shift p e id := by
  unfold given shift
  rw [sum_after (Proc.owed id) hp]
  show refunded (s.log ++ e.events) id + _ = _
  rw [refunded_append]
  omega

theorem Round.Ok.grows (h : r.Ok tasks) (ht : Grows tasks tasks') : r.Ok tasks' := by
  intro k task hget
  obtain ⟨hne, hk, x, hx, hsame⟩ := h k task hget
  obtain ⟨y, hy, -, hxy⟩ := ht.kept x hx
  exact ⟨hne, hk, y, hy, hsame.id.trans hxy.same.id.symm, hsame.mjId.trans hxy.same.mjId.symm,
    hsame.quota.trans hxy.same.quota.symm⟩

theorem Proc.Ok.grows (h : p.Ok tasks) (ht : Grows tasks tasks') : p.Ok tasks' := by
  cases p with
  | submit route s => trivial
  | load => trivial
  | channels r => exact Round.Ok.grows h ht
  | items items r => exact Round.Ok.grows h ht
  | refund task items r => exact ⟨h.1, h.2.grows ht⟩
  | fixNull taskIds r =>
    refine ⟨fun id hid => ?_, h.2.grows ht⟩
    obtain ⟨x, hx, rfl, hnull, hfailed⟩ := h.1 id hid
    obtain ⟨y, hy, hkey, hxy⟩ := ht.kept x hx
    exact ⟨y, hy, hkey, hxy.same.mjId.trans hnull, hxy.null hnull hfailed⟩

theorem Grows.find_none (ht : Grows tasks tasks') (h : tasks'.find id = none) :
    tasks.find id = none := by
  rw [Table.find_eq_none_iff] at h ⊢
  intro x hx hid
  obtain ⟨y, hy, hkey, -⟩ := ht.kept x hx
  exact h y hy (hkey.trans hid)

/-- What a move has to bring about to keep the invariant. -/
structure Keeps (s : Polls) (p : Proc) (e : Moved) : Prop where
  settled : ∀ y ∈ e.store.rows, Settled y (charged s.log y.id + charged e.events y.id)
    (given s y.id + shift p e y.id)
  absent : ∀ id, e.store.find id = none → charged e.events id = 0 ∧ shift p e id = 0
  grows : Grows s.store e.store
  procs : ∀ q ∈ e.procs, q.Ok e.store
  calm : Event.panicked ∉ e.events
  finished : ∀ x ∈ s.store.rows, x.finished = true → x ∈ e.store.rows

theorem Invariant.after (h : Invariant s) (hp : s.procs[k]? = some p) (he : Keeps s p e) :
    Invariant (s.after k e) where
  settled y hy := by
    rw [given_after hp]
    show Settled y (charged (s.log ++ e.events) y.id) _
    rw [charged_append]
    exact he.settled y hy
  absent id hid := by
    obtain ⟨hcharged, hgiven⟩ := h.absent id (he.grows.find_none hid)
    obtain ⟨hcharge, hshift⟩ := he.absent id hid
    rw [given_after hp]
    show charged (s.log ++ e.events) id = 0 ∧ _
    rw [charged_append]
    omega
  procs q hq := by
    rcases mem_of_mem_after hq with hq | hq
    · exact (h.procs q hq).grows he.grows
    · exact he.procs q hq
  calm hmem := by
    rcases List.mem_append.mp hmem with hmem | hmem
    · exact h.calm hmem
    · exact he.calm hmem

/-- A move that reports nothing, and owes as much as before. -/
theorem Keeps.of_quiet {q : Proc} (howed : ∀ id, q.owed id = p.owed id)
    (hq : q.Ok tasks)
    (hsettled : ∀ y ∈ tasks.rows, Settled y (charged s.log y.id) (given s y.id))
    (hgrows : Grows s.store tasks)
    (hfinished : ∀ x ∈ s.store.rows, x.finished = true → x ∈ tasks.rows) :
    Keeps s p ⟨tasks, [], [q]⟩ := by
  have hshift : ∀ id, shift p ⟨tasks, [], [q]⟩ id = 0 := by
    intro id
    have := howed id
    simp [shift, this]
  refine ⟨fun y hy => ?_, fun id _ => ⟨rfl, hshift id⟩, hgrows, fun q' hq' => ?_,
    List.not_mem_nil, hfinished⟩
  · rw [hshift, charged_nil, add_zero, add_zero]
    exact hsettled y hy
  · rw [List.mem_singleton.mp hq']
    exact hq

/-- A move after which the process is over. -/
theorem Keeps.of_end (h : Invariant s) (howed : ∀ id, p.owed id = 0) :
    Keeps s p ⟨s.store, [], []⟩ := by
  have hshift : ∀ id, shift p ⟨s.store, [], []⟩ id = 0 := by
    intro id
    have := howed id
    simp [shift, this]
  refine ⟨fun y hy => ?_, fun id _ => ⟨rfl, hshift id⟩, .refl Succeeds.refl _,
    List.forall_mem_nil _, List.not_mem_nil, fun x hx _ => hx⟩
  rw [hshift, charged_nil, add_zero, add_zero]
  exact h.settled y hy

/-- A move that leaves the rows alone. -/
theorem Keeps.of_same {q : Proc} (h : Invariant s) (howed : ∀ id, q.owed id = p.owed id)
    (hq : q.Ok s.store) : Keeps s p ⟨s.store, [], [q]⟩ :=
  .of_quiet howed hq h.settled (.refl Succeeds.refl _) fun _ hx _ => hx

/-! ## One move at a time -/

theorem quota_row (route : Route) (sub : Submission) : (route.row sub).quota = sub.quota := by
  cases route with
  | swapFace => rfl
  | submit =>
    show (relayMidjourneySubmit sub).quota = sub.quota
    have htask : (sub.withExisting sub.withReason).1.quota = sub.quota := by
      unfold Submission.withExisting Submission.withReason
      repeat' split
      all_goals rfl
    unfold relayMidjourneySubmit
    dsimp only
    split
    · exact htask
    · exact htask

theorem charged_single (paid : Bool) (row : ℕ) (quota : ℤ) (id : ℕ) :
    charged (if paid = true then [.charged row quota] else []) id =
      if paid = true ∧ row = id then quota else 0 := by
  cases paid with
  | false => rfl
  | true => simp [charged, Event.charge]

theorem submit_keeps {route : Route} {sub : Submission} (h : Invariant s) (hquota : 0 ≤ sub.quota) :
    Keeps s (.submit route sub) (submit env route sub s.store) := by
  unfold submit
  cases hcreate : s.store.create { route.row sub with id := env.id } with
  | none => exact .of_end h fun _ => rfl
  | some tasks =>
    obtain ⟨hfresh, hrows⟩ := Table.create_eq_some hcreate
    have habsent := h.absent env.id (Table.find_eq_none_iff.mpr hfresh)
    have hcharge := charged_single (route.charges sub && env.ok) env.id sub.quota
    generalize (route.charges sub && env.ok) = paid at hcharge ⊢
    have hshift : ∀ id, shift (.submit route sub)
        ⟨tasks, if paid = true then [.charged env.id sub.quota] else [], []⟩ id = 0 := by
      intro id
      cases paid with
      | false => rfl
      | true => rfl
    constructor
    · intro y hy
      rw [hshift, add_zero, hcharge]
      have hy' : y ∈ s.store.rows ++ [{ route.row sub with id := env.id }] := hrows ▸ hy
      rcases List.mem_append.mp hy' with hy' | hy'
      · rw [if_neg fun hid => hfresh y hy' hid.2.symm, add_zero]
        exact h.settled y hy'
      · cases List.mem_singleton.mp hy'
        show Settled _ (charged s.log env.id + if paid = true ∧ env.id = env.id then _ else _)
          (given s env.id)
        rw [habsent.1, habsent.2, zero_add]
        have hq : (route.row sub).quota = sub.quota := quota_row route sub
        refine ⟨hq ▸ hquota, ?_, fun _ => rfl, fun hfinished hstatus => ?_, ?_⟩
        · show _ = _ ∨ _ = (route.row sub).quota
          rw [hq]
          split
          · exact .inr rfl
          · exact .inl rfl
        · have hsuccess := status_of_finished route sub hfinished
          exact absurd (hsuccess.symm.trans hstatus) (by decide)
        · split
          · exact hquota
          · exact le_refl _
    · intro id hid
      refine ⟨?_, hshift id⟩
      show charged (if paid = true then [.charged env.id sub.quota] else []) id = 0
      rw [hcharge, if_neg]
      rintro ⟨-, rfl⟩
      exact absurd (Table.find_eq_none_iff.mp hid _ (Table.mem_create hcreate)) (by simp)
    · exact Table.evolves_create Succeeds.refl hcreate trivial
    · exact List.forall_mem_nil _
    · show Event.panicked ∉ if paid = true then [.charged env.id sub.quota] else []
      cases paid with
      | false => simp
      | true => simp
    · intro x hx _
      show x ∈ tasks.rows
      rw [hrows]
      exact List.mem_append_left _ hx

theorem load_keeps (h : Invariant s) : Keeps s .load (load env s.store) := by
  unfold load
  dsimp only
  generalize hfound : (if env.ok = true then env.rows.range (getAllUnFinishTasks s.store) else []) =
    found
  have hmem : ∀ x ∈ found, x ∈ s.store.rows ∧ x.finished = false := by
    intro x hx
    rw [← hfound] at hx
    split at hx
    · have hx' := List.mem_filter.mp ((env.rows.perm _).mem_iff.mp hx)
      exact ⟨hx'.1, by simpa using hx'.2⟩
    · cases hx
  generalize hr : Round.mk _ _ = r
  have hround : r.Ok s.store := by
    intro k task hget
    rw [← hr] at hget
    rcases Map.get_putAll_some hget with hk | hk
    · obtain ⟨task', htask, heq⟩ := List.mem_map.mp hk
      cases heq
      rw [List.mem_filter, decide_eq_true_eq] at htask
      exact ⟨htask.2, rfl, task, (hmem task htask.1).1, .refl task⟩
    · cases hk
  split
  · exact .of_same h (fun _ => rfl) hround
  · refine .of_same h (fun _ => rfl) ⟨fun id hid => ?_, hround⟩
    obtain ⟨x, hx, rfl⟩ := List.mem_map.mp hid
    rw [List.mem_filter, decide_eq_true_eq] at hx
    obtain ⟨hrow, hunfinished⟩ := hmem x hx.1
    exact ⟨x, hrow, rfl, hx.2, fun hfinished => by rw [hunfinished] at hfinished; cases hfinished⟩

/-- A row that is failed without having been charged. -/
theorem Settled.fail {x y : Midjourney} {taken back : ℤ} (h : Settled x taken back)
    (hquota : y.quota = x.quota) (hfinished : y.finished = true) (htaken : taken = 0)
    (hx : x.finished = true → x.status = "FAILURE") : Settled y taken back := by
  have hback : back = 0 := by
    cases hdone : x.finished with
    | false => exact h.unfinished hdone
    | true => rw [h.failed hdone (hx hdone), htaken]
  refine ⟨hquota ▸ h.quota, .inl htaken, fun hnot => ?_, fun _ _ => ?_, h.le⟩
  · rw [hfinished] at hnot
    cases hnot
  · rw [hback, htaken]

theorem failNull_self {x : Midjourney} (h : x.finished = true) (hstatus : x.status = "FAILURE") :
    x.failNull = x := by
  have hprogress : x.progress = "100%" := of_decide_eq_true h
  unfold Midjourney.failNull
  rw [← hprogress, ← hstatus]

theorem fixNull_keeps {taskIds : List ℕ} (h : Invariant s)
    (hp : (Proc.fixNull taskIds r).Ok s.store)
    (hs : env.ok = true → ∀ x ∈ s.store.rows, x.id ∈ taskIds → charged s.log x.id = 0) :
    Keeps s (.fixNull taskIds r)
      ⟨mjBulkUpdateByTaskIds env.ok s.store taskIds, [], [.channels r]⟩ := by
  unfold mjBulkUpdateByTaskIds
  split
  · rename_i hok
    have hnull : ∀ x ∈ s.store.rows, x.id ∈ taskIds →
        x.mjId = "" ∧ (x.finished = true → x.status = "FAILURE") := by
      intro x hx hid
      obtain ⟨x', hx', hkey, hrest⟩ := hp.1 x.id hid
      rw [← Table.eq_of_mem hx' hx hkey]
      exact hrest
    have hgrows : Grows s.store (s.store.updateWhere (fun task => decide (task.id ∈ taskIds))
        Midjourney.failNull fun _ => rfl) :=
      Table.evolves_updateWhere Succeeds.refl fun x => ⟨⟨rfl, rfl, rfl⟩, fun _ _ _ => rfl⟩
    refine .of_quiet (fun _ => rfl) (Round.Ok.grows hp.2 hgrows) (fun y hy => ?_) hgrows
      fun x hx hfinished => ?_
    · obtain ⟨x, hx, rfl⟩ := Table.mem_updateWhere.mp hy
      split
      · rename_i hid
        have hid := of_decide_eq_true hid
        exact (h.settled x hx).fail rfl rfl (hs hok x hx hid) (hnull x hx hid).2
      · exact h.settled x hx
    · refine Table.mem_updateWhere.mpr ⟨x, hx, ?_⟩
      split
      · rename_i hid
        exact failNull_self hfinished ((hnull x hx (of_decide_eq_true hid)).2 hfinished)
      · rfl
  · exact .of_same h (fun _ => rfl) hp.2

theorem visit_keeps (h : Invariant s) (hr : r.Ok s.store) (hs : VisitSound s env r) :
    Keeps s (.channels r) (visit env r s.store) := by
  unfold VisitSound at hs
  unfold visit
  cases hchannels : r.channels with
  | nil => exact .of_end h fun _ => rfl
  | cons channel rest =>
    obtain ⟨channelId, mjIds⟩ := channel
    rw [hchannels] at hs
    have hrest : ({ r with channels := rest } : Round).Ok s.store := hr
    cases hchannel : env.channel with
    | some baseURL =>
      rw [hchannel] at hs
      cases baseURL with
      | none => exact absurd hs id
      | some _ =>
        dsimp only
        cases env.reply with
        | none => exact .of_same h (fun _ => rfl) hrest
        | some items => exact .of_same h (fun _ => rfl) hrest
    | none =>
      rw [hchannel] at hs
      dsimp only at hs ⊢
      unfold mjBulkUpdate
      split
      · rename_i hok
        have hmissing := hs hok
        have hgrows : Grows s.store (s.store.updateWhere (fun task => decide (task.mjId ∈ mjIds))
            (Midjourney.failMissing channelId) fun _ => rfl) :=
          Table.evolves_updateWhere Succeeds.refl fun x => ⟨⟨rfl, rfl, rfl⟩, fun _ _ _ => rfl⟩
        refine .of_quiet (fun _ => rfl) (hrest.grows hgrows) (fun y hy => ?_) hgrows
          fun x hx hfinished => ?_
        · obtain ⟨x, hx, rfl⟩ := Table.mem_updateWhere.mp hy
          split
          · rename_i hid
            have hx' := hmissing x hx (of_decide_eq_true hid)
            split at hx'
            · rw [hx']
              exact h.settled x hx
            · rename_i hunfinished
              exact (h.settled x hx).fail rfl rfl hx' fun hfinished => absurd hfinished hunfinished
          · exact h.settled x hx
        · refine Table.mem_updateWhere.mpr ⟨x, hx, ?_⟩
          split
          · rename_i hid
            have hx' := hmissing x hx (of_decide_eq_true hid)
            rw [if_pos hfinished] at hx'
            exact hx'
          · rfl
      · exact .of_same h (fun _ => rfl) hrest

theorem Round.Ok.put {task after : Midjourney} {mjId : String} (hr : r.Ok tasks)
    (hget : r.tasks.get mjId = some task) (hsame : SameTask task after) :
    ({ r with tasks := r.tasks.put mjId after } : Round).Ok tasks := by
  intro k task' hk
  show k ≠ "" ∧ _
  rw [show ({ r with tasks := r.tasks.put mjId after } : Round).tasks = r.tasks.put mjId after
    from rfl, Map.get_put] at hk
  split at hk
  · rename_i hkey
    cases hk
    obtain ⟨hne, hid, x, hx, hxtask⟩ := hr mjId task hget
    exact ⟨hkey ▸ hne, hsame.mjId.trans (hid.trans hkey.symm), x, hx, hxtask.trans hsame⟩
  · exact hr k task' hk

/-- A write that ends a task which was charged is settled by the refund that follows it. -/
theorem Settled.refunds {row after : Midjourney} {taken given : ℤ} (h : Settled row taken given)
    (hopen : row.finished = false) (hquota : after.quota = row.quota)
    (hfinished : after.finished = true) (htaken : taken = row.quota) :
    Settled after taken (given + after.quota) := by
  rw [h.unfinished hopen, zero_add, htaken, hquota]
  refine ⟨hquota ▸ h.quota, .inr hquota.symm, fun hnot => ?_, fun _ _ => rfl, le_refl _⟩
  rw [hfinished] at hnot
  cases hnot

/-- A write without a refund fails no task that has a quota. -/
theorem Settled.writes {row after : Midjourney} {taken given : ℤ} (h : Settled row taken given)
    (hopen : row.finished = false) (hquota : after.quota = row.quota)
    (hnone : after.finished = true → after.status = "FAILURE" → after.quota = 0) :
    Settled after taken given := by
  have hback := h.unfinished hopen
  refine ⟨hquota ▸ h.quota, hquota ▸ h.price, fun _ => hback, fun hdone hstatus => ?_, h.le⟩
  have hzero := hnone hdone hstatus
  rw [hback]
  rcases h.price with hprice | hprice
  · exact hprice.symm
  · rw [hprice, ← hquota, hzero]

/-- What a write that wins has to find to keep the invariant. -/
theorem save_keeps {row after : Midjourney} {items rest : List Item} {refunds : Bool}
    {r' : Round} (h : Invariant s) (hrow : row ∈ s.store.rows) (hsame : SameTask row after)
    (hnull : row.mjId ≠ "") (hr' : r'.Ok s.store)
    (hrefund : refunds = true → after.finished = true ∧ after.quota ≠ 0)
    (hnone : refunds = false → after.finished = true → after.status = "FAILURE" → after.quota = 0)
    (hdone : row.finished = true → after = row ∧ refunds = false)
    (hcharged : refunds = true → charged s.log row.id = row.quota) :
    Keeps s (.items items r) ⟨s.store.save after, [],
      [if refunds then .refund after rest r' else .items rest r']⟩ := by
  have hfind : s.store.find after.id = some row := Table.find_eq_some_iff.mpr ⟨hrow, hsame.id.symm⟩
  have hgrows : Grows s.store (s.store.save after) :=
    Table.evolves_save Succeeds.refl hfind ⟨hsame, fun hempty => absurd hempty hnull⟩
  have hsettled := h.settled row hrow
  have hquota : after.quota = row.quota := hsame.quota
  have hshift : ∀ id, shift (.items items r) ⟨s.store.save after, [],
      [if refunds then .refund after rest r' else .items rest r']⟩ id =
        if refunds = true ∧ after.id = id then after.quota else 0 := by
    intro id
    cases refunds with
    | false => rfl
    | true =>
      show (0 : ℤ) + ((if after.id = id then after.quota else 0) + 0) - 0 = _
      simp
  constructor
  · intro y hy
    rw [hshift, charged_nil, add_zero]
    rcases Table.mem_save.mp hy with ⟨hy, hne⟩ | ⟨rfl, -⟩
    · rw [if_neg fun hand => hne hand.2.symm, add_zero]
      exact h.settled y hy
    · rw [hsame.id]
      cases refunds with
      | true =>
        have hopen : row.finished = false := by
          cases hfinished : row.finished with
          | false => rfl
          | true => cases (hdone hfinished).2
        rw [if_pos ⟨rfl, rfl⟩]
        exact hsettled.refunds hopen hquota (hrefund rfl).1 (hcharged rfl)
      | false =>
        rw [if_neg fun hand => Bool.false_ne_true hand.1, add_zero]
        cases hfinished : row.finished with
        | true =>
          rw [(hdone hfinished).1]
          exact hsettled
        | false => exact hsettled.writes hfinished hquota (hnone rfl)
  · intro id hid
    refine ⟨rfl, ?_⟩
    rw [hshift, if_neg]
    rintro ⟨-, rfl⟩
    rw [Table.find_save_self hfind] at hid
    cases hid
  · exact hgrows
  · intro q hq
    rw [List.mem_singleton.mp hq]
    split
    · exact ⟨hquota ▸ hsettled.quota, hr'.grows hgrows⟩
    · exact hr'.grows hgrows
  · exact List.not_mem_nil
  · intro x hx hfinished
    by_cases hkey : x.id = after.id
    · have hxrow : x = row := Table.eq_of_mem hx hrow (hkey.trans hsame.id)
      subst hxrow
      rw [(hdone hfinished).1]
      exact Table.mem_save.mpr (.inr ⟨rfl, x, hx, rfl⟩)
    · exact Table.mem_save.mpr (.inl ⟨hx, hkey⟩)

section Marshal

variable {marshal : Json → String}

theorem readItems_keeps {items : List Item} (h : Invariant s) (hr : r.Ok s.store)
    (hs : Sound marshal s env (.items items r)) :
    Keeps s (.items items r) (readItems marshal env items r s.store) := by
  cases items with
  | nil => exact .of_same h (fun _ => rfl) hr
  | cons item rest =>
    obtain ⟨task, hget, hwrite⟩ := hs
    have hget : r.tasks.get item.mjId = some task := hget
    unfold readItems
    dsimp only
    rw [hget]
    dsimp only
    cases hread : task.read marshal env.now item with
    | none => exact .of_same h (fun _ => rfl) hr
    | some out =>
      obtain ⟨after, refunds⟩ := out
      obtain ⟨hsame, hrefund, hnone⟩ := read_spec hread
      have hr' := hr.put hget hsame
      dsimp only
      rcases updateWithStatus_cases env.ok s.store after task.status with
        hlost | ⟨row, hrow, hok, hstatus, hwon⟩
      · rw [hlost]
        exact .of_same h (fun _ => rfl) hr'
      · rw [hwon, Bool.true_and]
        have hover : row ∈ overwritten env.ok s.store task := by
          rw [hsame.id] at hrow
          rw [overwritten, hrow, Option.mem_def, Option.filter_some, if_pos]
          rw [hok, hstatus]
          simp
        obtain ⟨hdone, hcharged⟩ := hwrite (after, refunds) hread row hover
        obtain ⟨hmem, hid⟩ := Table.find_eq_some_iff.mp hrow
        obtain ⟨hne, hk, x, hx, hxtask⟩ := hr item.mjId task hget
        have hxrow : x = row :=
          Table.eq_of_mem hx hmem (hxtask.id.symm.trans (hsame.id.symm.trans hid.symm))
        subst hxrow
        refine save_keeps h hx (hxtask.trans hsame) ?_ hr' hrefund hnone (fun hfinished => ?_)
          hcharged
        · rw [← hxtask.mjId, hk]
          exact hne
        · have hout := hdone hfinished
          rw [Prod.mk.injEq] at hout
          exact hout

theorem refund_keeps {task : Midjourney} {items : List Item} (h : Invariant s)
    (hp : (Proc.refund task items r).Ok s.store) (hok : env.ok = true) :
    Keeps s (.refund task items r) ⟨s.store, refund env task, [.items items r]⟩ := by
  have hevents : refund env task = [.refunded task.id task.quota] := if_pos ⟨hp.1, hok⟩
  rw [hevents]
  have hshift : ∀ id, shift (.refund task items r)
      ⟨s.store, [.refunded task.id task.quota], [.items items r]⟩ id = 0 := by
    intro id
    show ((if task.id = id then task.quota else 0) + 0) + (0 + 0) -
      (if task.id = id then task.quota else 0) = 0
    omega
  refine ⟨fun y hy => ?_, fun id _ => ⟨rfl, hshift id⟩, .refl Succeeds.refl _, fun q hq => ?_,
    by simp, fun x hx _ => hx⟩
  · rw [hshift, add_zero]
    show Settled y (charged s.log y.id + 0) _
    rw [add_zero]
    exact h.settled y hy
  · rw [List.mem_singleton.mp hq]
    exact hp.2

/-- Every move that meets its condition keeps the invariant, and the rows that are done. -/
theorem next_keeps (h : Invariant s) (hp : s.procs[k]? = some p) (hs : Sound marshal s env p) :
    Keeps s p (next marshal env p s.store) := by
  have hok := h.procs p (List.mem_of_getElem? hp)
  cases p with
  | submit route sub => exact submit_keeps h hs
  | load => exact load_keeps h
  | fixNull taskIds r => exact fixNull_keeps h hok hs
  | channels r => exact visit_keeps h hok hs
  | items items r => exact readItems_keeps h hok hs
  | refund task items r => exact refund_keeps h hok hs

/-! ## Whole runs -/

theorem owed_of_not_inRound (h : p.inRound = false) : p.owed id = 0 := by
  cases p with
  | refund task items r => cases h
  | submit route s => rfl
  | load => rfl
  | fixNull taskIds r => rfl
  | channels r => rfl
  | items items r => rfl

theorem owed_nonneg (h : p.Ok tasks) : 0 ≤ p.owed id := by
  cases p with
  | refund task items r =>
    show 0 ≤ if task.id = id then task.quota else 0
    split
    · exact h.1
    · exact le_refl _
  | submit route s => exact le_refl _
  | load => exact le_refl _
  | fixNull taskIds r => exact le_refl _
  | channels r => exact le_refl _
  | items items r => exact le_refl _

theorem Invariant.refundedAsCharged (h : Invariant s) : RefundedAsCharged s where
  atMost id := by
    have howed : 0 ≤ (s.procs.map (Proc.owed id)).sum := by
      refine List.sum_nonneg fun q hq => ?_
      obtain ⟨p, hp, rfl⟩ := List.mem_map.mp hq
      exact owed_nonneg (h.procs p hp)
    have hle : given s id ≤ charged s.log id := by
      cases hfind : s.store.find id with
      | none =>
        obtain ⟨hcharged, hgiven⟩ := h.absent id hfind
        omega
      | some x =>
        obtain ⟨hx, rfl⟩ := Table.find_eq_some_iff.mp hfind
        exact (h.settled x hx).le
    unfold given at hle
    omega
  failed hover x hx hstatus hfinished := by
    have howed : (s.procs.map (Proc.owed x.id)).sum = 0 := by
      refine List.sum_eq_zero fun q hq => ?_
      obtain ⟨p, hp, rfl⟩ := List.mem_map.mp hq
      exact owed_of_not_inRound (hover p hp)
    have hgiven := (h.settled x hx).failed hfinished hstatus
    unfold given at hgiven
    omega
  calm := h.calm

theorem start_invariant (h : Invariant s) (hp : starts p = true) :
    Invariant { s with procs := s.procs ++ [p] } := by
  have howed : ∀ id, p.owed id = 0 := by
    intro id
    refine owed_of_not_inRound ?_
    cases p with
    | submit route sub => rfl
    | load => rfl
    | fixNull taskIds r => cases hp
    | channels r => cases hp
    | items items r => cases hp
    | refund task items r => cases hp
  have hgiven : ∀ id, given { s with procs := s.procs ++ [p] } id = given s id := by
    intro id
    simp [given, howed]
  refine ⟨fun x hx => ?_, fun id hid => ?_, fun q hq => ?_, h.calm⟩
  · rw [hgiven]
    exact h.settled x hx
  · rw [hgiven]
    exact h.absent id hid
  · rcases List.mem_append.mp hq with hq | hq
    · exact h.procs q hq
    · rw [List.mem_singleton.mp hq]
      cases p with
      | submit route sub => trivial
      | load => trivial
      | fixNull taskIds r => cases hp
      | channels r => cases hp
      | items items r => cases hp
      | refund task items r => cases hp

/-- **Refunded as charged**: in every interleaving of submissions and rounds whose moves are all
sound, whatever the upstream answers, and no row that is done is changed again. -/
theorem refunds_of_sound {actions : List (Action Env Proc)}
    (h : (polling marshal).EveryStep (NextMeets (Sound marshal)) Polls.start actions) :
    (polling marshal).EveryState RefundedAsCharged Polls.start actions ∧
      (polling marshal).EveryStep (KeepsFinished marshal) Polls.start actions := by
  have hkeep : ∀ s a t, Invariant s → NextMeets (Sound marshal) s a →
      (polling marshal).step s a = some t → Invariant t :=
    keeps_of_moves (fun s p hs hp => start_invariant hs hp)
      fun s k env p hs hp hc => hs.after hp (next_keeps hs hp hc)
  constructor
  · exact (System.everyState_of_everyStep hkeep inv_start h).mono
      fun s hs => hs.refundedAsCharged
  · refine System.everyStep_of_everyStep hkeep (fun s a hs hc t ht x hx hfinished => ?_) inv_start h
    cases a with
    | start p =>
      have hstep : step starts (next marshal) s (.start p) = some t := ht
      obtain ⟨-, rfl⟩ := step_start hstep
      exact hx
    | next k env =>
      have hstep : step starts (next marshal) s (.next k env) = some t := ht
      obtain ⟨p, hp, rfl⟩ := step_next hstep
      exact (next_keeps hs hp (hc p hp)).finished x hx hfinished

end Marshal

/-! ## Runs -/

/-- A submission of the user 7, priced at 500, which the upstream accepts as the task `mj`. -/
def sampleSubmission (action : String) : Submission :=
  { userId := 7, action := action, prompt := "a cat", channelId := 3, quota := 500
    statusCode := 200, response := ⟨1, "Submit success", .null, "mj"⟩, now := 1000, later := 1000 }

def sampleItem (status progress failReason : String) : Item :=
  { mjId := "mj", promptEn := "", state := "", submitTime := 1000, startTime := 2000
    finishTime := 0, imageUrl := "", videoUrl := "", videoUrls := [], status := status
    progress := progress, failReason := failReason, buttons := .null, properties := none }

/-- The id 1, the channel with a base URL, and a reply with the items. -/
def sampleEnv (reply : List Item) : Env :=
  { id := 1, ok := true, rows := .insertion _, channels := .insertion _
    channel := some (some "http://mj"), reply := some reply, now := 5000 }

/-- A submission, and a round in which its task has failed. -/
def failedRun (action : String) : List (Action Env Proc) :=
  let env := sampleEnv [sampleItem "FAILURE" "30%" "moderation"]
  [.start (.submit .submit (sampleSubmission action)), .next 0 env, .start .load, .next 0 env,
    .next 0 env, .next 0 env, .next 0 env, .next 0 env, .next 0 env]

theorem refunds_of_failed_run :
    (polling fun _ => "").EveryState RefundedAsCharged Polls.start (failedRun "IMAGINE") ∧
      (polling fun _ => "").EveryStep (KeepsFinished fun _ => "") Polls.start
        (failedRun "IMAGINE") :=
  refunds_of_sound (by decide)

/-- An action that is free is refunded at its price. -/
theorem free_action_is_refunded :
    ¬ (polling fun _ => "").EveryState RefundedAsCharged Polls.start (failedRun "INPAINT") := by
  intro h
  have hmost := (h.run rfl).atMost 1
  revert hmost
  decide

end Midjourneys
