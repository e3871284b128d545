import GMasterApi.Lib.Processes

/-!
# Redis caches

A user and a token each have a hash in Redis beside their row.  A lookup that misses
reads the row and leaves a process behind that writes the whole record; a change of
the quota updates the row by an amount, and leaves a process behind that adds the
same amount to the hash, if a TTL query finds the key.  These processes are ordered
neither among each other nor against the statements, and the key may expire between
a TTL query and the write that it guards.

Where every guarded write still finds its key, and every write of a value that was
read before is one that the outstanding amounts account for, no lookup sees half a
record, and a hash that is left at the end agrees with its row (`caches_agree`).
-/

namespace RedisCache

open Processes Transition

/-! ## Records -/

inductive Kind
  | user
  | token
  deriving DecidableEq

/-- `UserBase` without its quota. -/
structure UserFields where
  id : ℤ
  group : String
  email : String
  status : ℤ
  username : String
  setting : String
  deriving DecidableEq

/-- `Token` without its quota and its key, which `Clean` takes away. -/
structure TokenFields where
  id : ℤ
  userId : ℤ
  status : ℤ
  name : String
  createdTime : ℤ
  accessedTime : ℤ
  expiredTime : ℤ
  unlimitedQuota : Bool
  modelLimitsEnabled : Bool
  modelLimits : String
  allowIps : Option String
  usedQuota : ℤ
  group : String
  crossGroupRetry : Bool
  deriving DecidableEq

/-- What differs between the two: `zero` is a record of which nothing was found, and
`accounted` is what an update of the quota by an amount does to the other fields. -/
structure Record (ρ : Type) where
  zero : ρ
  status : ρ → ℤ
  accounted : ℤ → ℤ → ρ → ρ
  status_accounted : ∀ now delta fields, status (accounted now delta fields) = status fields

def userRecord : Record UserFields where
  zero := ⟨0, "", "", 0, "", ""⟩
  status := UserFields.status
  accounted := fun _ _ fields => fields
  status_accounted := fun _ _ _ => rfl

def tokenRecord : Record TokenFields where
  zero := ⟨0, 0, 0, "", 0, 0, 0, false, false, "", none, 0, "", false⟩
  status := TokenFields.status
  accounted := fun now delta fields =>
    { fields with usedQuota := fields.usedQuota - delta, accessedTime := now }
  status_accounted := fun _ _ _ => rfl

def Kind.Fields : Kind → Type
  | .user => UserFields
  | .token => TokenFields

def Kind.record : (kind : Kind) → Record kind.Fields
  | .user => userRecord
  | .token => tokenRecord

/-- The quota (`Quota` of a user, `RemainQuota` of a token), and the other fields. -/
structure Row (ρ : Type) where
  quota : ℤ
  fields : ρ
  deriving DecidableEq

/-- A hash; the other fields are only ever written together. -/
structure Hash (ρ : Type) where
  quota : Option ℤ
  fields : Option ρ
  deriving DecidableEq

/-- The row of one user or token, and its key in Redis. -/
structure Store (ρ : Type) where
  row : Option (Row ρ)
  hash : Option (Hash ρ)
  deriving DecidableEq

variable {ρ : Type}

/-! ## Redis commands -/

/-- `RedisHGetObj`: a field that the hash does not have is left as it is in a new record. -/
def Hash.getObj (R : Record ρ) (hash : Hash ρ) : Row ρ :=
  ⟨hash.quota.getD 0, hash.fields.getD R.zero⟩

/-- The `HSET` and `EXPIRE` of `RedisHSetObj`. -/
def Store.hSetObj (store : Store ρ) (row : Row ρ) : Store ρ :=
  { store with hash := some ⟨some row.quota, some row.fields⟩ }

/-- The `HINCRBY` and `EXPIRE` of `RedisHIncrBy`, which create the key if it is gone. -/
def Store.hIncrBy (store : Store ρ) (delta : ℤ) : Store ρ :=
  { store with
    hash := some ⟨some ((store.hash.bind Hash.quota).getD 0 + delta), store.hash.bind Hash.fields⟩ }

/-- The `HSET` and `EXPIRE` of `RedisHSetField`, which create the key if it is gone. -/
def Store.hSetQuota (store : Store ρ) (quota : ℤ) : Store ρ :=
  { store with hash := some ⟨some quota, store.hash.bind Hash.fields⟩ }

theorem Store.hIncrBy_of_some {store : Store ρ} {hash : Hash ρ} (h : store.hash = some hash)
    (delta : ℤ) : store.hIncrBy delta =
      { store with hash := some ⟨some (hash.quota.getD 0 + delta), hash.fields⟩ } := by
  unfold Store.hIncrBy
  rw [h]
  rfl

theorem Store.hSetQuota_of_some {store : Store ρ} {hash : Hash ρ} (h : store.hash = some hash)
    (quota : ℤ) : store.hSetQuota quota =
      { store with hash := some ⟨some quota, hash.fields⟩ } := by
  unfold Store.hSetQuota
  rw [h]
  rfl

def Store.del (store : Store ρ) : Store ρ := { store with hash := none }

/-! ## Statements -/

/-- `UPDATE … SET quota = quota + delta`. -/
def Row.update (R : Record ρ) (now delta : ℤ) (row : Row ρ) : Row ρ :=
  ⟨row.quota + delta, R.accounted now delta row.fields⟩

def Store.update (R : Record ρ) (store : Store ρ) (now delta : ℤ) : Store ρ :=
  { store with row := store.row.map (Row.update R now delta) }

def Store.deleteRow (store : Store ρ) : Store ρ := { store with row := none }

/-! ## Processes -/

inductive Process (ρ : Type)
  /-- `GetUserCache` or `GetTokenByKey`, before it looks into Redis. -/
  | getCache
  /-- The same before it reads the row. -/
  | readRow
  /-- `updateUserCache` or `cacheSetToken`, left behind with the row that was read. -/
  | setObj (row : Row ρ)
  /-- `GetUserQuota` from the database. -/
  | getUserQuota
  /-- `updateUserQuotaCache`, before its TTL query and before its `MULTI` block. -/
  | quotaTTL (quota : ℤ)
  | setQuota (quota : ℤ)
  | increaseQuota (quota : ℤ)
  | decreaseQuota (quota : ℤ)
  /-- `RedisHIncrBy`, before its TTL query and before its `MULTI` block. -/
  | incrTTL (delta : ℤ)
  | incr (delta : ℤ)
  /-- The relative update of the row. -/
  | update (delta : ℤ)
  /-- `Token.Delete`, and `cacheDeleteToken`. -/
  | deleteRow
  | deleteKey
  /-- The key expires. -/
  | expire
  deriving DecidableEq

/-- The fields that a lookup found in Redis, and the record that it made of them. -/
inductive Event (ρ : Type)
  | found (hash : Hash ρ) (record : Row ρ)
  deriving DecidableEq

/-- The time, and what a TTL query answers where the key is there. -/
structure Env where
  now : ℤ
  ttl : ℤ

/-- What may begin at any time; `GetTokenByKey` also passes Redis by. -/
def Kind.starts (kind : Kind) : Process ρ → Bool
  | .getCache | .increaseQuota _ | .decreaseQuota _ | .expire => true
  | .getUserQuota => kind = .user
  | .readRow | .deleteRow => kind = .token
  | _ => false

/-- A change of the quota, whose cached part runs beside the update. -/
def changeQuota (delta : ℤ) : List (Process ρ) := [.incrTTL delta, .update delta]

/-- Whether a TTL query finds a key that is to live on. -/
def Store.lives (store : Store ρ) (env : Env) : Bool := store.hash.isSome && 0 < env.ttl

/-- The statement, command or `MULTI` block that a process makes next. -/
def next (R : Record ρ) (env : Env) :
    Process ρ → Store ρ → Effect (Process ρ) (Store ρ) (Event ρ)
  | .getCache, store =>
    match store.hash with
    | none => ⟨store, [], [.readRow]⟩
    | some hash => ⟨store, [.found hash (hash.getObj R)], []⟩
  | .readRow, store =>
    match store.row with
    | none => ⟨store, [], []⟩
    | some row => ⟨store, [], [.setObj row]⟩
  | .setObj row, store => ⟨store.hSetObj row, [], []⟩
  | .getUserQuota, store => ⟨store, [], [.quotaTTL ((store.row.map Row.quota).getD 0)]⟩
  | .quotaTTL quota, store => ⟨store, [], if store.lives env then [.setQuota quota] else []⟩
  | .setQuota quota, store => ⟨store.hSetQuota quota, [], []⟩
  | .increaseQuota quota, store => ⟨store, [], if quota < 0 then [] else changeQuota quota⟩
  | .decreaseQuota quota, store => ⟨store, [], if quota < 0 then [] else changeQuota (-quota)⟩
  | .incrTTL delta, store => ⟨store, [], if store.lives env then [.incr delta] else []⟩
  | .incr delta, store => ⟨store.hIncrBy delta, [], []⟩
  | .update delta, store => ⟨store.update R env.now delta, [], []⟩
  | .deleteRow, store => ⟨store.deleteRow, [], [.deleteKey]⟩
  | .deleteKey, store => ⟨store.del, [], []⟩
  | .expire, store => ⟨store.del, [], []⟩

/-- One user or token, whose operations run in any order. -/
def Kind.system (kind : Kind) :
    System (State (Process kind.Fields) (Store kind.Fields) (Event kind.Fields))
      (Action Env (Process kind.Fields)) :=
  Processes.system kind.starts (next kind.record)

/-! ## What the caches promise -/

structure Good (R : Record ρ) (s : State (Process ρ) (Store ρ) (Event ρ)) : Prop where
  /-- No lookup finds only some of the fields. -/
  whole : ∀ hash record, .found hash record ∈ s.log → hash.quota ≠ none ∧ hash.fields ≠ none
  /-- With nothing in flight, a hash has the stored quota and status. -/
  settled : s.procs = [] → ∀ hash, s.store.hash = some hash → ∃ row, s.store.row = some row ∧
    hash.quota = some row.quota ∧ hash.fields.map R.status = some (R.status row.fields)

/-- What a process is still to add to the hash, less what it is still to add to the row. -/
def Process.owed : Process ρ → ℤ
  | .incrTTL delta | .incr delta => delta
  | .update delta => -delta
  | _ => 0

def outstanding (procs : List (Process ρ)) : ℤ := (procs.map Process.owed).sum

/-- In the hash, `quota` and what is outstanding would make up the stored quota. -/
def Accounted (s : State (Process ρ) (Store ρ) (Event ρ)) (quota : ℤ) : Prop :=
  ∃ row, s.store.row = some row ∧ quota + outstanding s.procs = row.quota

/-- A write to Redis comes when it should. -/
def Ordered (s : State (Process ρ) (Store ρ) (Event ρ)) (env : Env) : Process ρ → Prop
  | .setObj row => Accounted s row.quota ∨ (s.store.row = none ∧ .deleteKey ∈ s.procs)
  | .setQuota quota => s.store.hash ≠ none ∧ Accounted s quota
  | .incrTTL delta =>
    delta = 0 ∨ s.store.hash = none ∨ s.store.row = none ∨ s.store.lives env = true
  | .incr _ => s.store.hash ≠ none
  | _ => True

/-- A hash, if there is one, is whole, and agrees with the row up to what is `owing`; where
the row is gone, so will be the key. -/
def Cached (R : Record ρ) (status : ℤ) (store : Store ρ) (owing : ℤ) (deleting : Prop) : Prop :=
  ∀ hash, store.hash = some hash → ∃ quota fields, hash = ⟨some quota, some fields⟩ ∧
    R.status fields = status ∧ (∀ row, store.row = some row → quota + owing = row.quota) ∧
    (store.row = none → deleting)

structure Inv (R : Record ρ) (status : ℤ) (s : State (Process ρ) (Store ρ) (Event ρ)) : Prop where
  whole : ∀ hash record, .found hash record ∈ s.log → hash.quota ≠ none ∧ hash.fields ≠ none
  cached : Cached R status s.store (outstanding s.procs) (.deleteKey ∈ s.procs)
  stored : ∀ row, s.store.row = some row → R.status row.fields = status
  read : ∀ row, .setObj row ∈ s.procs → R.status row.fields = status

variable {R : Record ρ} {status : ℤ} {s : State (Process ρ) (Store ρ) (Event ρ)} {k : ℕ}
  {p : Process ρ}

theorem Inv.toGood (h : Inv R status s) : Good R s := by
  refine ⟨h.whole, fun hnil hash hhash => ?_⟩
  obtain ⟨quota, fields, rfl, hstatus, hagree, hgone⟩ := h.cached hash hhash
  rw [hnil] at hagree hgone
  cases hrow : s.store.row with
  | none => cases hgone hrow
  | some row =>
    have hquota : quota = row.quota := by
      have := hagree row hrow
      simp only [outstanding, List.map_nil, List.sum_nil] at this
      omega
    refine ⟨row, rfl, congrArg some hquota, congrArg some ?_⟩
    exact hstatus.trans (h.stored row hrow).symm

theorem inv_initial (R : Record ρ) (row : Option (Row ρ)) :
    Inv R ((row.map fun row => R.status row.fields).getD 0) (State.initial ⟨row, none⟩) where
  whole := fun _ _ h => absurd h List.not_mem_nil
  cached := fun _ h => by cases h
  stored := fun r hr => by
    have hrow : row = some r := hr
    rw [hrow]
    rfl
  read := fun _ h => absurd h List.not_mem_nil

/-- What begins owes nothing yet. -/
theorem Inv.start (h : Inv R status s) {kind : Kind} (hp : kind.starts p = true) :
    Inv R status { s with procs := s.procs ++ [p] } := by
  have howed : p.owed = 0 := by
    cases p with
    | incrTTL | incr | update => cases hp
    | _ => rfl
  have hsum : outstanding (s.procs ++ [p]) = outstanding s.procs := by
    unfold outstanding
    rw [List.map_append, List.sum_append, List.map_singleton, List.sum_singleton, howed]
    omega
  refine ⟨h.whole, ?_, h.stored, fun row hrow => ?_⟩
  · intro hash hhash
    obtain ⟨quota, fields, hh, hstatus, hagree, hgone⟩ := h.cached hash hhash
    refine ⟨quota, fields, hh, hstatus, ?_, fun hrow => List.mem_append_left _ (hgone hrow)⟩
    rw [hsum]
    exact hagree
  · rcases List.mem_append.mp hrow with hrow | hrow
    · exact h.read row hrow
    · rw [← List.mem_singleton.mp hrow] at hp
      cases hp

/-- A move, by what it leaves of the hash and of the row. -/
theorem Inv.after (h : Inv R status s) {e : Effect (Process ρ) (Store ρ) (Event ρ)}
    (hk : s.procs[k]? = some p)
    (hevents : ∀ hash record, .found hash record ∈ e.events →
      hash.quota ≠ none ∧ hash.fields ≠ none)
    (hstored : ∀ row, e.store.row = some row → R.status row.fields = status)
    (hread : ∀ row, .setObj row ∈ e.procs → R.status row.fields = status)
    (hcached : Cached R status e.store (outstanding s.procs - p.owed + outstanding e.procs)
      (.deleteKey ∈ (s.after k e).procs)) :
    Inv R status (s.after k e) where
  whole := by
    intro hash record hmem
    rcases List.mem_append.mp hmem with hmem | hmem
    · exact h.whole hash record hmem
    · exact hevents hash record hmem
  cached := by
    have hsum : outstanding (s.after k e).procs =
        outstanding s.procs - p.owed + outstanding e.procs := sum_after Process.owed hk
    rw [hsum]
    exact hcached
  stored := hstored
  read := by
    intro row hrow
    rcases mem_of_mem_after hrow with hrow | hrow
    · exact h.read row hrow
    · exact hread row hrow

/-- A move that leaves the store alone. -/
theorem Inv.silent (h : Inv R status s) {events : List (Event ρ)} {procs : List (Process ρ)}
    (hk : s.procs[k]? = some p) (hp : p ≠ .deleteKey)
    (hevents : ∀ hash record, .found hash record ∈ events →
      hash.quota ≠ none ∧ hash.fields ≠ none)
    (hread : ∀ row, .setObj row ∈ procs → R.status row.fields = status)
    (howed : s.store.hash = none ∨ s.store.row = none ∨ outstanding procs = p.owed) :
    Inv R status (s.after k ⟨s.store, events, procs⟩) := by
  refine h.after hk hevents h.stored hread fun hash hhash => ?_
  obtain ⟨quota, fields, hh, hstatus, hagree, hgone⟩ := h.cached hash hhash
  refine ⟨quota, fields, hh, hstatus, fun row hrow => ?_,
    fun hrow => mem_after hk (hgone hrow) (Ne.symm hp)⟩
  have hquota : quota + outstanding s.procs = row.quota := hagree row hrow
  rcases howed with hnone | hnone | howed
  · rw [hnone] at hhash
    cases hhash
  · rw [hnone] at hrow
    cases hrow
  · show quota + (outstanding s.procs - p.owed + outstanding procs) = row.quota
    omega

theorem Inv.del (h : Inv R status s) (hk : s.procs[k]? = some p) :
    Inv R status (s.after k ⟨s.store.del, [], []⟩) :=
  h.after hk (fun _ _ hmem => absurd hmem List.not_mem_nil) h.stored
    (fun _ hmem => absurd hmem List.not_mem_nil) fun _ hhash => by cases hhash

theorem Inv.setObj (h : Inv R status s) {row : Row ρ} (hk : s.procs[k]? = some (.setObj row))
    (hord : Accounted s row.quota ∨ (s.store.row = none ∧ .deleteKey ∈ s.procs)) :
    Inv R status (s.after k ⟨s.store.hSetObj row, [], []⟩) := by
  have hstatus : R.status row.fields = status := h.read row (List.mem_of_getElem? hk)
  refine h.after hk (fun _ _ hmem => absurd hmem List.not_mem_nil) h.stored
    (fun _ hmem => absurd hmem List.not_mem_nil) fun hash hhash => ?_
  cases hhash
  refine ⟨row.quota, row.fields, rfl, hstatus, fun stored hstored => ?_, fun hnone => ?_⟩
  · have hstored : s.store.row = some stored := hstored
    rcases hord with ⟨row', hrow', hquota⟩ | ⟨hnone, -⟩
    · cases hstored.symm.trans hrow'
      show row.quota + (outstanding s.procs - 0 + 0) = stored.quota
      omega
    · cases hstored.symm.trans hnone
  · have hnone : s.store.row = none := hnone
    rcases hord with ⟨row', hrow', -⟩ | ⟨-, hdel⟩
    · cases hnone.symm.trans hrow'
    · exact mem_after hk hdel nofun

/-- A write of the quota alone, into a key that is there. -/
theorem Inv.setField (h : Inv R status s) (hk : s.procs[k]? = some p) (hp : p ≠ .deleteKey)
    {quota : ℤ} {hash : Hash ρ} (hhash : s.store.hash = some hash)
    (hquota : ∀ q row, hash.quota = some q → s.store.row = some row →
      q + outstanding s.procs = row.quota → quota + outstanding s.procs - p.owed = row.quota) :
    Inv R status (s.after k ⟨{ s.store with hash := some ⟨some quota, hash.fields⟩ }, [], []⟩) := by
  obtain ⟨q, fields, rfl, hstatus, hagree, hgone⟩ := h.cached hash hhash
  refine h.after hk (fun _ _ hmem => absurd hmem List.not_mem_nil) h.stored
    (fun _ hmem => absurd hmem List.not_mem_nil) fun hash' hhash' => ?_
  cases hhash'
  refine ⟨quota, fields, rfl, hstatus, fun row hrow => ?_,
    fun hrow => mem_after hk (hgone hrow) (Ne.symm hp)⟩
  have hrow : s.store.row = some row := hrow
  have := hquota q row rfl hrow (hagree row hrow)
  show quota + (outstanding s.procs - p.owed + 0) = row.quota
  omega

theorem Inv.update (h : Inv R status s) {delta : ℤ} (hk : s.procs[k]? = some (.update delta))
    (now : ℤ) : Inv R status (s.after k ⟨s.store.update R now delta, [], []⟩) := by
  have hrows : ∀ row, (s.store.update R now delta).row = some row →
      ∃ old, s.store.row = some old ∧ row = old.update R now delta := by
    intro row hrow
    obtain ⟨old, hold, heq⟩ := Option.map_eq_some_iff.mp hrow
    exact ⟨old, hold, heq.symm⟩
  refine h.after hk (fun _ _ hmem => absurd hmem List.not_mem_nil) ?_
    (fun _ hmem => absurd hmem List.not_mem_nil) fun hash hhash => ?_
  · intro row hrow
    obtain ⟨old, hold, rfl⟩ := hrows row hrow
    exact (R.status_accounted now delta old.fields).trans (h.stored old hold)
  · obtain ⟨quota, fields, hh, hstatus, hagree, hgone⟩ := h.cached hash hhash
    refine ⟨quota, fields, hh, hstatus, fun row hrow => ?_, fun hnone => ?_⟩
    · obtain ⟨old, hold, rfl⟩ := hrows row hrow
      have hquota : quota + outstanding s.procs = old.quota := hagree old hold
      show quota + (outstanding s.procs - -delta + 0) = old.quota + delta
      omega
    · exact mem_after hk (hgone (Option.map_eq_none_iff.mp hnone)) nofun

theorem Inv.deleteRow (h : Inv R status s) (hk : s.procs[k]? = some .deleteRow) :
    Inv R status (s.after k ⟨s.store.deleteRow, [], [.deleteKey]⟩) := by
  refine h.after hk (fun _ _ hmem => absurd hmem List.not_mem_nil) (fun row hrow => ?_)
    (fun row hrow => ?_) fun hash hhash => ?_
  · have hrow : none = some row := hrow
    cases hrow
  · have hrow : Process.setObj row = .deleteKey := List.mem_singleton.mp hrow
    cases hrow
  · obtain ⟨quota, fields, hh, hstatus, -, -⟩ := h.cached hash hhash
    refine ⟨quota, fields, hh, hstatus, fun row hrow => ?_,
      fun _ => List.mem_append_right _ (List.mem_singleton_self _)⟩
    have hrow : none = some row := hrow
    cases hrow

theorem outstanding_changeQuota (delta : ℤ) :
    outstanding (changeQuota delta : List (Process ρ)) = 0 := by
  show delta + (-delta + 0) = 0
  omega

/-- One move, one case for each process. -/
theorem inv_next (env : Env) (h : Inv R status s) (hk : s.procs[k]? = some p)
    (hord : Ordered s env p) : Inv R status (s.after k (next R env p s.store)) := by
  have hno : ∀ hash record, Event.found hash record ∈ ([] : List (Event ρ)) →
      hash.quota ≠ none ∧ hash.fields ≠ none := fun _ _ hmem => absurd hmem List.not_mem_nil
  have hnone : ∀ row, Process.setObj row ∈ ([] : List (Process ρ)) → R.status row.fields = status :=
    fun _ hmem => absurd hmem List.not_mem_nil
  cases p with
  | getCache =>
    simp only [next]
    split
    · exact h.silent hk nofun hno (fun row hrow => by
        cases List.mem_singleton.mp hrow) (.inr (.inr rfl))
    · rename_i hash hhash
      obtain ⟨quota, fields, rfl, -, -, -⟩ := h.cached hash hhash
      refine h.silent hk nofun ?_ hnone (.inr (.inr rfl))
      intro hash record hmem
      cases List.mem_singleton.mp hmem
      exact ⟨Option.some_ne_none _, Option.some_ne_none _⟩
  | readRow =>
    simp only [next]
    split
    · exact h.silent hk nofun hno hnone (.inr (.inr rfl))
    · rename_i row hrow
      refine h.silent hk nofun hno (fun row' hmem => ?_) (.inr (.inr rfl))
      cases List.mem_singleton.mp hmem
      exact h.stored row hrow
  | setObj row => exact h.setObj hk hord
  | getUserQuota =>
    exact h.silent hk nofun hno (fun row hrow => by
      cases List.mem_singleton.mp hrow) (.inr (.inr rfl))
  | quotaTTL quota =>
    simp only [next]
    split
    · exact h.silent hk nofun hno (fun row hrow => by
        cases List.mem_singleton.mp hrow) (.inr (.inr rfl))
    · exact h.silent hk nofun hno hnone (.inr (.inr rfl))
  | setQuota quota =>
    obtain ⟨hthere, row, hrow, hquota⟩ := hord
    obtain ⟨hash, hhash⟩ := Option.ne_none_iff_exists'.mp hthere
    simp only [next, Store.hSetQuota_of_some hhash]
    refine h.setField hk nofun hhash fun q row' _ hrow' _ => ?_
    cases hrow.symm.trans hrow'
    show quota + outstanding s.procs - 0 = row.quota
    omega
  | increaseQuota quota =>
    simp only [next]
    split
    · exact h.silent hk nofun hno hnone (.inr (.inr rfl))
    · exact h.silent hk nofun hno (fun row hrow => by simp [changeQuota] at hrow)
        (.inr (.inr (outstanding_changeQuota quota)))
  | decreaseQuota quota =>
    simp only [next]
    split
    · exact h.silent hk nofun hno hnone (.inr (.inr rfl))
    · exact h.silent hk nofun hno (fun row hrow => by simp [changeQuota] at hrow)
        (.inr (.inr (outstanding_changeQuota (-quota))))
  | incrTTL delta =>
    simp only [next]
    by_cases hlives : s.store.lives env = true
    · rw [if_pos hlives]
      refine h.silent hk nofun hno (fun row hrow => by
        cases List.mem_singleton.mp hrow) (.inr (.inr ?_))
      show delta + 0 = delta
      omega
    · rw [if_neg hlives]
      refine h.silent hk nofun hno hnone ?_
      rcases hord with hzero | hhash | hrow | hyes
      · exact .inr (.inr hzero.symm)
      · exact .inl hhash
      · exact .inr (.inl hrow)
      · exact absurd hyes hlives
  | incr delta =>
    obtain ⟨hash, hhash⟩ := Option.ne_none_iff_exists'.mp hord
    simp only [next, Store.hIncrBy_of_some hhash]
    refine h.setField hk nofun hhash fun q row hq _ hquota => ?_
    rw [hq]
    show q + delta + outstanding s.procs - delta = row.quota
    omega
  | update delta => exact h.update hk env.now
  | deleteRow => exact h.deleteRow hk
  | deleteKey => exact h.del hk
  | expire => exact h.del hk

/-- **Redis caches agree with the database** along every run in which each write to Redis
comes when it should. -/
theorem caches_agree (kind : Kind) {row : Option (Row kind.Fields)}
    {as : List (Action Env (Process kind.Fields))}
    (h : kind.system.EveryStep (NextMeets Ordered) (State.initial ⟨row, none⟩) as) :
    kind.system.EveryState (Good kind.record) (State.initial ⟨row, none⟩) as :=
  (everyState_of_moves (fun _ _ hs hp => hs.start hp)
    (fun _ _ env _ hs hk hord => inv_next env hs hk hord) (inv_initial kind.record row) h).mono
      fun _ hs => hs.toGood

instance (s : State (Process ρ) (Store ρ) (Event ρ)) (quota : ℤ) : Decidable (Accounted s quota) :=
  match h : s.store.row with
  | none => .isFalse fun ⟨row, hrow, _⟩ => Option.some_ne_none row (hrow.symm.trans h)
  | some row => decidable_of_iff (quota + outstanding s.procs = row.quota)
      ⟨fun hq => ⟨row, h, hq⟩, fun ⟨_, hrow, hq⟩ => Option.some.inj (h.symm.trans hrow) ▸ hq⟩

instance [DecidableEq ρ] (s : State (Process ρ) (Store ρ) (Event ρ)) (env : Env) :
    ∀ p, Decidable (Ordered s env p)
  | .setObj row => inferInstanceAs
      (Decidable (Accounted s row.quota ∨ (s.store.row = none ∧ .deleteKey ∈ s.procs)))
  | .setQuota quota => inferInstanceAs (Decidable (s.store.hash ≠ none ∧ Accounted s quota))
  | .incrTTL delta => inferInstanceAs (Decidable
      (delta = 0 ∨ s.store.hash = none ∨ s.store.row = none ∨ s.store.lives env = true))
  | .incr _ => inferInstanceAs (Decidable (s.store.hash ≠ none))
  | .getCache | .readRow | .getUserQuota | .quotaTTL _ | .increaseQuota _ | .decreaseQuota _
  | .update _ | .deleteRow | .deleteKey | .expire => .isTrue trivial

/-! ## Half a record -/

def sampleRow : Row UserFields := ⟨100, ⟨7, "default", "", 1, "alice", ""⟩⟩

/-- A lookup fills the cache, the quota grows by ten, and a second lookup hits. -/
def orderedRun : List (Action Env (Process UserFields)) :=
  [.start .getCache, .next 0 ⟨0, 60⟩, .next 0 ⟨0, 60⟩, .next 0 ⟨0, 60⟩,
    .start (.increaseQuota 10), .next 0 ⟨1, 59⟩, .next 0 ⟨1, 59⟩, .next 1 ⟨1, 59⟩, .next 0 ⟨1, 59⟩,
    .start .getCache, .next 0 ⟨2, 58⟩]

theorem caches_agree_orderedRun :
    Kind.user.system.EveryState (Good Kind.user.record) (State.initial ⟨some sampleRow, none⟩)
      orderedRun :=
  caches_agree .user (by
    have hrun : (Processes.system Kind.user.starts (next userRecord)).EveryStep (NextMeets Ordered)
        (State.initial ⟨some sampleRow, none⟩) orderedRun := by decide +kernel
    exact hrun)

/-- The key expires between the TTL query and the `MULTI` block of an increase. -/
def expiringRun : List (Action Env (Process UserFields)) :=
  [.start .getCache, .next 0 ⟨0, 60⟩, .next 0 ⟨0, 60⟩, .next 0 ⟨0, 60⟩,
    .start (.increaseQuota 10), .next 0 ⟨59, 1⟩, .next 0 ⟨59, 1⟩, .start .expire, .next 2 ⟨60, 0⟩,
    .next 1 ⟨60, 0⟩, .start .getCache, .next 1 ⟨61, 0⟩]

/-- The lookup then finds a quota of ten and no other field, so that the status reads 0. -/
theorem half_record_found :
    ¬ Kind.user.system.EveryState (Good Kind.user.record) (State.initial ⟨some sampleRow, none⟩)
      expiringRun := by
  intro h
  have hlog : ((Processes.system Kind.user.starts (next userRecord)).run
      (State.initial ⟨some sampleRow, none⟩) expiringRun).map State.log =
        some [.found ⟨some 10, none⟩ ⟨10, userRecord.zero⟩] := by decide +kernel
  obtain ⟨t, ht, hlog⟩ := Option.map_eq_some_iff.mp hlog
  have hwhole := (h.run ht).whole ⟨some 10, none⟩ ⟨10, userRecord.zero⟩
  rw [hlog] at hwhole
  exact (hwhole List.mem_cons_self).2 rfl

end RedisCache
