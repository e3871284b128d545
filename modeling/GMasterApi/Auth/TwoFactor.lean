import GMasterApi.Lib.GoString
import GMasterApi.Lib.Processes
import GMasterApi.Lib.Table

/-!
# Two-factor checks

A submission loads the two-factor row of its user once, and every later statement
works on that copy: a wrong code saves it with one more failure, a right one saves
it with none, and a backup code is saved as used from the copy that the query for
unused codes returned.  `Save` writes the whole row, and inserts it again where it
is gone.  Nothing orders these statements against those of another submission, of
`DisableTwoFA` or of `CreateBackupCodes`.

Along a run in which every `Save` still finds what its copy was loaded from, no
backup code passes twice, nothing comes back after `DisableTwoFA`, and the account
is locked after five wrong codes at the latest (`good_of_fresh`).
-/

namespace TwoFactor

open GoString Processes Transition

def maxFailAttempts : ℕ := 5
def lockoutDuration : ℤ := 300
def backupCodeLength : ℕ := 8

/-- The row of the user in `two_fas`; no statement here changes its id. -/
structure TwoFA where
  secret : String
  isEnabled : Bool
  failedAttempts : ℕ
  lockedUntil : Option ℤ
  lastUsedAt : Option ℤ
  deriving DecidableEq

/-- A row of the user in `two_fa_backup_codes`; `deleted` is a `deleted_at` that is set. -/
structure TwoFABackupCode where
  id : ℕ
  codeHash : String
  isUsed : Bool
  usedAt : Option ℤ
  deleted : Bool
  deriving DecidableEq

/-- What the database has of one user; ids at `nextId` and above were never given out. -/
structure Db where
  twoFA : Option TwoFA
  codes : Table TwoFABackupCode TwoFABackupCode.id
  nextId : ℕ
  below : ∀ c ∈ codes.rows, c.id < nextId

/-- `validTOTP` is `totp.Validate` at a time, `passwordMatches` is `ValidatePasswordAndHash`. -/
structure Config where
  validTOTP : ℤ → String → String → Bool
  passwordMatches : String → String → Bool

/-! ## Codes as they are typed -/

def removeChar (code : String) (c : Char) : String :=
  String.ofList (code.toList.filter fun x => x ≠ c)

def validateNumericCode (code : String) : Option String :=
  let clean := removeChar code ' '
  if clean.utf8ByteSize ≠ 6 then none
  else match atoi clean with
    | none => none
    | some _ => some clean

def validateTOTPCode (cfg : Config) (now : ℤ) (secret code : String) : Bool :=
  let cleanCode := removeChar code ' '
  cleanCode.utf8ByteSize = 6 && cfg.validTOTP now cleanCode secret

/-- `unicode.ToUpper`, as far as it decides whether a text is one of ASCII. -/
def upperChar (c : Char) : Char :=
  if c = '\u0131' then 'I' else if c = '\u017f' then 'S' else c.toUpper

/-- Without separators, in upper case. -/
def cleanBackupCode (code : String) : String :=
  String.ofList ((removeChar code '-').toList.map upperChar)

def validateBackupCode (code : String) : Bool :=
  let cleanCode := cleanBackupCode code
  cleanCode.utf8ByteSize = backupCodeLength &&
    cleanCode.toList.all fun c => ('A' ≤ c && c ≤ 'Z') || ('0' ≤ c && c ≤ '9')

/-- The `XXXX-XXXX` format; what reaches it here has passed `validateBackupCode`. -/
def normalizeBackupCode (code : String) : String :=
  let cleanCode := cleanBackupCode code
  if cleanCode.utf8ByteSize = backupCodeLength then
    String.ofList (cleanCode.toList.take 4) ++ "-" ++ String.ofList (cleanCode.toList.drop 4)
  else code

/-! ## Rows -/

def TwoFA.isLocked (t : TwoFA) (now : ℤ) : Bool :=
  match t.lockedUntil with
  | none => false
  | some lockedUntil => now < lockedUntil

/-- One more failure, without the `Save`. -/
def TwoFA.incrementFailedAttempts (t : TwoFA) (now : ℤ) : TwoFA :=
  { t with
    failedAttempts := t.failedAttempts + 1
    lockedUntil :=
      if maxFailAttempts ≤ t.failedAttempts + 1 then some (now + lockoutDuration)
      else t.lockedUntil }

/-- A right code, without the `Save`. -/
def TwoFA.updateUsage (t : TwoFA) (now : ℤ) : TwoFA :=
  { t with failedAttempts := 0, lockedUntil := none, lastUsedAt := some now }

/-- `DB.Save` of the row, which inserts it where it is gone. -/
def Db.saveTwoFA (db : Db) (t : TwoFA) : Db := { db with twoFA := some t }

theorem below_upsert {db : Db} {c : TwoFABackupCode} :
    ∀ x ∈ (db.codes.upsert c).rows, x.id < max db.nextId (c.id + 1) := by
  intro x hx
  rcases Table.mem_upsert.mp hx with ⟨hx, -⟩ | rfl
  · have := db.below x hx
    omega
  · omega

/-- `DB.Save` of a backup code, which inserts it where no row that is not deleted has its id. -/
def Db.saveCode (db : Db) (c : TwoFABackupCode) : Db :=
  { db with codes := db.codes.upsert c, nextId := max db.nextId (c.id + 1), below := below_upsert }

/-- `SELECT … WHERE is_used = false`. -/
def Db.unusedCodes (db : Db) : List TwoFABackupCode :=
  db.codes.rows.filter fun c => !c.isUsed && !c.deleted

theorem below_deleteWhere {db : Db} {p : TwoFABackupCode → Bool} :
    ∀ x ∈ (db.codes.deleteWhere p).rows, x.id < db.nextId :=
  fun x hx => db.below x (Table.mem_deleteWhere.mp hx).1

/-- The commit of `Delete`: the codes in `ids` and the row of the user are gone. -/
def Db.deleteAll (db : Db) (ids : List ℕ) : Db :=
  { db with
    twoFA := none
    codes := db.codes.deleteWhere fun c => c.id ∈ ids
    below := below_deleteWhere }

def TwoFABackupCode.delete (c : TwoFABackupCode) : TwoFABackupCode := { c with deleted := true }

theorem below_delete {db : Db} {p : TwoFABackupCode → Bool} :
    ∀ x ∈ (db.codes.updateWhere p TwoFABackupCode.delete fun _ => rfl).rows, x.id < db.nextId := by
  intro x hx
  obtain ⟨c, hc, rfl⟩ := Table.mem_updateWhere.mp hx
  have := db.below c hc
  split
  · exact this
  · exact this

def Db.deleteCodes (db : Db) (ids : List ℕ) : Db :=
  { db with
    codes := db.codes.updateWhere (fun c => c.id ∈ ids) TwoFABackupCode.delete fun _ => rfl
    below := below_delete }

def Db.createCode (db : Db) (codeHash : String) : Db :=
  db.saveCode ⟨db.nextId, codeHash, false, none, false⟩

/-- The ids that a `DELETE … WHERE user_id` reaches, with or without the deleted ones. -/
def Db.codeIds (db : Db) (unscoped : Bool) : List ℕ :=
  (db.codes.rows.filter fun c => unscoped || !c.deleted).map (·.id)

/-! ## Statements -/

inductive Submission
  | verify2FALogin
  | disable2FA
  deriving DecidableEq

/-- What is in flight, each with the copies that it holds. -/
inductive Process
  | submit (kind : Submission) (code : String)
  | totp (kind : Submission) (code : String) (t : TwoFA)
  | backup (kind : Submission) (code : String) (t : TwoFA)
  | compare (kind : Submission) (code : String) (t : TwoFA) (codes : List TwoFABackupCode)
  | used (kind : Submission) (t : TwoFA)
  | disable
  | deleteCodes
  | deleteTwoFA (ids : List ℕ)
  | createBackupCodes (hashes : List String)
  | insertCodes (hashes : List String) (ids : List ℕ)
  deriving DecidableEq

inductive Event
  /-- `ValidateBackupCode` answers that the code with this id is right. -/
  | backupCode (id : ℕ)
  /-- A submission is accepted. -/
  | accepted
  /-- A submission had a wrong code, which locks the account or not. -/
  | wrong (locks : Bool)
  /-- `DisableTwoFA` has returned, and these codes are gone. -/
  | disabled (ids : List ℕ)
  /-- `CreateBackupCodes` has returned, and replaced these codes. -/
  | replaced (ids : List ℕ)
  deriving DecidableEq

/-- What may begin at any time. -/
def starts : Process → Bool
  | .submit _ _ | .disable | .createBackupCodes _ => true
  | _ => false

/-- What the TOTP check decides; `none` where it is not asked or the copy is locked. -/
def totpVerdict (cfg : Config) (now : ℤ) (code : String) (t : TwoFA) : Option Bool :=
  match validateNumericCode code with
  | none => none
  | some cleanCode =>
    if t.isLocked now then none else some (validateTOTPCode cfg now t.secret cleanCode)

/-- The first of `codes` that the typed code matches. -/
def matching (cfg : Config) (code : String) (codes : List TwoFABackupCode) :
    Option TwoFABackupCode :=
  codes.find? fun bc => cfg.passwordMatches (normalizeBackupCode code) bc.codeHash

/-- What follows an accepted code. -/
def accepted : Submission → List Process
  | .verify2FALogin => []
  | .disable2FA => [.disable]

/-- The statement that a process makes next.  A transaction shows at its commit; what it deletes
is fixed by its first statement. -/
def next (cfg : Config) (now : ℤ) : Process → Db → Effect Process Db Event
  | .submit kind code, db =>
    match db.twoFA with
    | none => ⟨db, [], []⟩
    | some t => if t.isEnabled then ⟨db, [], [.totp kind code t]⟩ else ⟨db, [], []⟩
  | .totp kind code t, db =>
    match totpVerdict cfg now code t with
    | none => ⟨db, [], [.backup kind code t]⟩
    | some true => ⟨db.saveTwoFA (t.updateUsage now), [.accepted], accepted kind⟩
    | some false =>
      let t' := t.incrementFailedAttempts now
      ⟨db.saveTwoFA t', [.wrong (maxFailAttempts ≤ t'.failedAttempts)], [.backup kind code t']⟩
  | .backup kind code t, db =>
    if t.isLocked now then ⟨db, [], []⟩
    else if validateBackupCode code then ⟨db, [], [.compare kind code t db.unusedCodes]⟩
    else ⟨db, [], []⟩
  | .compare kind code t codes, db =>
    match matching cfg code codes with
    | some bc =>
      ⟨db.saveCode { bc with isUsed := true, usedAt := some now }, [.backupCode bc.id],
        [.used kind t]⟩
    | none =>
      let t' := t.incrementFailedAttempts now
      ⟨db.saveTwoFA t', [.wrong (maxFailAttempts ≤ t'.failedAttempts)], []⟩
  | .used kind t, db => ⟨db.saveTwoFA (t.updateUsage now), [.accepted], accepted kind⟩
  | .disable, db =>
    match db.twoFA with
    | none => ⟨db, [], []⟩
    | some _ => ⟨db, [], [.deleteCodes]⟩
  | .deleteCodes, db => ⟨db, [], [.deleteTwoFA (db.codeIds true)]⟩
  | .deleteTwoFA ids, db =>
    ⟨db.deleteAll ids, [.disabled ((db.codeIds true).filter fun id => id ∈ ids)], []⟩
  | .createBackupCodes hashes, db => ⟨db, [], [.insertCodes hashes (db.codeIds false)]⟩
  | .insertCodes hashes ids, db =>
    ⟨hashes.foldl Db.createCode (db.deleteCodes ids),
      [.replaced ((db.codeIds true).filter fun id => id ∈ ids)], []⟩

/-! ## What submissions may rely on -/

/-- The codes that are no longer good after an event. -/
def Event.spent : Event → List ℕ
  | .backupCode id => [id]
  | .disabled ids | .replaced ids => ids
  | .accepted | .wrong _ => []

/-- One more wrong code, unless a lockout or an accepted code starts the count again. -/
def Event.count (n : ℕ) : Event → ℕ
  | .wrong false => n + 1
  | .wrong true | .accepted => 0
  | .backupCode _ | .disabled _ | .replaced _ => n

/-- Wrong codes since the last accepted code or lockout. -/
def streak (log : List Event) : ℕ := log.foldl Event.count 0

structure Good (db : Db) (log : List Event) : Prop where
  /-- No backup code is right twice, nor after it was removed. -/
  singleUse : log.Pairwise fun earlier later => ∀ id, later = .backupCode id → id ∉ earlier.spent
  /-- After `DisableTwoFA` the row and the codes stay away. -/
  gone : ∀ ids, .disabled ids ∈ log → db.twoFA = none ∧ ∀ c ∈ db.codes.rows, c.id ∉ ids
  /-- The fifth wrong code, at the latest, locks the account. -/
  bounded : streak log < maxFailAttempts
  locked : log.getLast? = some (.wrong true) → ∃ t, db.twoFA = some t ∧ t.lockedUntil ≠ none

/-- The row is there, and has no more failures than the copy. -/
def Counted (db : Db) (t : TwoFA) : Prop :=
  ∃ row, db.twoFA = some row ∧ row.failedAttempts ≤ t.failedAttempts

/-- The row of the code is there, unused and not deleted. -/
def Unused (db : Db) (id : ℕ) : Prop :=
  ∃ row ∈ db.codes.rows, row.id = id ∧ row.isUsed = false ∧ row.deleted = false

/-- If the process makes a `Save` now, it finds what its copy was loaded from. -/
def Fresh (cfg : Config) (s : State Process Db Event) (now : ℤ) : Process → Prop
  | .totp _ code t =>
    match totpVerdict cfg now code t with
    | none => True
    | some true => s.store.twoFA ≠ none
    | some false => Counted s.store t
  | .compare _ code t codes =>
    match matching cfg code codes with
    | some bc => Unused s.store bc.id
    | none => Counted s.store t
  | .used _ _ => s.store.twoFA ≠ none
  | _ => True

instance (db : Db) (t : TwoFA) : Decidable (Counted db t) :=
  match h : db.twoFA with
  | none => .isFalse fun ⟨row, hrow, _⟩ => Option.some_ne_none row (hrow.symm.trans h)
  | some row => decidable_of_iff (row.failedAttempts ≤ t.failedAttempts)
      ⟨fun hle => ⟨row, h, hle⟩, fun ⟨_, hrow, hle⟩ => Option.some.inj (h.symm.trans hrow) ▸ hle⟩

instance (db : Db) (id : ℕ) : Decidable (Unused db id) :=
  inferInstanceAs (Decidable (∃ row ∈ db.codes.rows, _))

instance (cfg : Config) (s : State Process Db Event) (now : ℤ) :
    ∀ p, Decidable (Fresh cfg s now p)
  | .totp _ code t =>
    match h : totpVerdict cfg now code t with
    | none => .isTrue (by rw [Fresh, h]; trivial)
    | some true => decidable_of_iff (s.store.twoFA ≠ none) (by rw [Fresh, h])
    | some false => decidable_of_iff (Counted s.store t) (by rw [Fresh, h])
  | .compare _ code t codes =>
    match h : matching cfg code codes with
    | some bc => decidable_of_iff (Unused s.store bc.id) (by rw [Fresh, h])
    | none => decidable_of_iff (Counted s.store t) (by rw [Fresh, h])
  | .used _ _ => inferInstanceAs (Decidable (s.store.twoFA ≠ none))
  | .submit _ _ | .backup _ _ _ | .disable | .deleteCodes | .deleteTwoFA _
  | .createBackupCodes _ | .insertCodes _ _ => .isTrue trivial

/-- What makes `Good` inductive. -/
structure Inv (db : Db) (log : List Event) : Prop extends Good db log where
  known : ∀ e ∈ log, ∀ id ∈ e.spent, id < db.nextId ∧
    ∀ c ∈ db.codes.rows, c.id = id → c.isUsed = true ∨ c.deleted = true
  counted : ∀ t, db.twoFA = some t →
    streak log ≤ t.failedAttempts ∧ (0 < streak log → t.failedAttempts < maxFailAttempts)

variable {db : Db} {log : List Event}

theorem inv_nil (db : Db) : Inv db [] where
  singleUse := List.Pairwise.nil
  gone := fun ids h => absurd h List.not_mem_nil
  bounded := by decide
  locked := fun h => by cases h
  known := fun e h => absurd h List.not_mem_nil
  counted := fun t _ => ⟨Nat.zero_le _, fun h => absurd h (Nat.lt_irrefl 0)⟩

theorem streak_append (e : Event) : streak (log ++ [e]) = e.count (streak log) := by
  unfold streak
  rw [List.foldl_append]
  rfl

theorem singleUse_append {e : Event} (h : Good db log)
    (he : ∀ id, e = .backupCode id → ∀ e' ∈ log, id ∉ e'.spent) :
    (log ++ [e]).Pairwise fun earlier later =>
      ∀ id, later = .backupCode id → id ∉ earlier.spent := by
  rw [List.pairwise_append]
  refine ⟨h.singleUse, List.pairwise_singleton _ _, fun e' he' e'' he'' id hid => ?_⟩
  rw [List.mem_singleton.mp he''] at hid
  exact he id hid e' he'

/-- Where the row is there, `DisableTwoFA` has not returned. -/
theorem not_disabled (h : Good db log) (hrow : db.twoFA ≠ none) (ids : List ℕ) :
    .disabled ids ∉ log :=
  fun hmem => hrow (h.gone ids hmem).1

theorem forall_mem_append {P : Event → Prop} {e : Event} (hlog : ∀ e ∈ log, P e) (he : P e) :
    ∀ e' ∈ log ++ [e], P e' := by
  intro e' h
  rcases List.mem_append.mp h with h | h
  · exact hlog e' h
  · rw [List.mem_singleton.mp h]
    exact he

/-- A `Save` of the row after a code was checked. -/
theorem Inv.saveTwoFA (h : Inv db log) (hrow : db.twoFA ≠ none) {t : TwoFA} {e : Event}
    (hspent : e.spent = []) (hdis : ∀ ids, e ≠ .disabled ids)
    (hlock : e = .wrong true → t.lockedUntil ≠ none)
    (hcount : e.count (streak log) ≤ t.failedAttempts)
    (hfew : 0 < e.count (streak log) → t.failedAttempts < maxFailAttempts) :
    Inv (db.saveTwoFA t) (log ++ [e]) where
  singleUse := by
    refine singleUse_append h.toGood fun id hid => ?_
    rw [hid] at hspent
    cases hspent
  gone := by
    intro ids hmem
    rcases List.mem_append.mp hmem with hmem | hmem
    · exact absurd hmem (not_disabled h.toGood hrow ids)
    · exact absurd (List.mem_singleton.mp hmem).symm (hdis ids)
  bounded := by
    rw [streak_append]
    by_cases h0 : 0 < e.count (streak log)
    · exact Nat.lt_of_le_of_lt hcount (hfew h0)
    · have : 0 < maxFailAttempts := by decide
      omega
  locked := by
    intro hlast
    rw [List.getLast?_append] at hlast
    have he : e = .wrong true := by simpa using hlast
    exact ⟨t, rfl, hlock he⟩
  known := by
    refine forall_mem_append (fun e he => h.known e he) fun id hid => ?_
    rw [hspent] at hid
    cases hid
  counted := by
    intro t' ht'
    cases ht'
    rw [streak_append]
    exact ⟨hcount, hfew⟩

theorem Inv.accept (h : Inv db log) (hrow : db.twoFA ≠ none) (t : TwoFA) (now : ℤ) :
    Inv (db.saveTwoFA (t.updateUsage now)) (log ++ [.accepted]) :=
  h.saveTwoFA hrow rfl (fun _ => Event.noConfusion) (fun he => by cases he) (Nat.le_refl _)
    fun h0 => absurd h0 (Nat.lt_irrefl 0)

theorem Inv.fail (h : Inv db log) {t : TwoFA} (ht : Counted db t) (now : ℤ) :
    Inv (db.saveTwoFA (t.incrementFailedAttempts now)) (log ++
      [.wrong (maxFailAttempts ≤ (t.incrementFailedAttempts now).failedAttempts)]) := by
  obtain ⟨row, hrow, hle⟩ := ht
  have hpresent : db.twoFA ≠ none := by rw [hrow]; exact Option.some_ne_none row
  obtain ⟨hstreak, hfew⟩ := h.counted row hrow
  have hfa : (t.incrementFailedAttempts now).failedAttempts = t.failedAttempts + 1 := rfl
  by_cases hlock : maxFailAttempts ≤ (t.incrementFailedAttempts now).failedAttempts
  · rw [decide_eq_true hlock]
    refine h.saveTwoFA hpresent rfl (fun _ => Event.noConfusion) (fun _ => ?_) (Nat.zero_le _)
      fun h0 => absurd h0 (Nat.lt_irrefl 0)
    have hfull : maxFailAttempts ≤ t.failedAttempts + 1 := hlock
    unfold TwoFA.incrementFailedAttempts
    rw [if_pos hfull]
    exact Option.some_ne_none _
  · rw [decide_eq_false hlock]
    refine h.saveTwoFA hpresent rfl (fun _ => Event.noConfusion) (fun he => by cases he) ?_
      fun _ => Nat.lt_of_not_le hlock
    show streak log + 1 ≤ _
    omega

/-- An event that leaves the count alone, with rows of codes that are no better than before. -/
theorem Inv.changeCodes (h : Inv db log) {db' : Db} {e : Event}
    (hcount : e.count (streak log) = streak log) (hwrong : e ≠ .wrong true)
    (hfresh : ∀ id, e = .backupCode id → ∀ e' ∈ log, id ∉ e'.spent)
    (hrow : ∀ t, db'.twoFA = some t → db.twoFA = some t)
    (hgone : ∀ ids, .disabled ids ∈ log ++ [e] →
      db'.twoFA = none ∧ ∀ c ∈ db'.codes.rows, c.id ∉ ids)
    (hnext : db.nextId ≤ db'.nextId)
    (hspent : ∀ id ∈ e.spent, id < db'.nextId ∧
      ∀ c ∈ db'.codes.rows, c.id = id → c.isUsed = true ∨ c.deleted = true)
    (hcodes : ∀ c ∈ db'.codes.rows, c.isUsed = true ∨ c.deleted = true ∨ c ∈ db.codes.rows ∨
      db.nextId ≤ c.id) :
    Inv db' (log ++ [e]) where
  singleUse := singleUse_append h.toGood hfresh
  gone := hgone
  bounded := by
    rw [streak_append, hcount]
    exact h.bounded
  locked := by
    intro hlast
    rw [List.getLast?_append] at hlast
    exact absurd (by simpa using hlast) hwrong
  known := by
    refine forall_mem_append (fun e' he' id hid => ?_) hspent
    obtain ⟨hlt, hold⟩ := h.known e' he' id hid
    refine ⟨Nat.lt_of_lt_of_le hlt hnext, fun c hc hcid => ?_⟩
    rcases hcodes c hc with hu | hd | hmem | hnew
    · exact .inl hu
    · exact .inr hd
    · exact hold c hmem hcid
    · omega
  counted := by
    intro t ht
    rw [streak_append, hcount]
    exact h.counted t (hrow t ht)

theorem Inv.useCode (h : Inv db log) {bc : TwoFABackupCode} (hbc : Unused db bc.id)
    (hused : bc.isUsed = true) :
    Inv (db.saveCode bc) (log ++ [.backupCode bc.id]) := by
  obtain ⟨row, hrow, hid, hunused, hkept⟩ := hbc
  have hlt : bc.id < db.nextId := by
    rw [← hid]
    exact db.below row hrow
  have hmem : ∀ c ∈ (db.saveCode bc).codes.rows, (c ∈ db.codes.rows ∧ c.id ≠ bc.id) ∨ c = bc :=
    fun c hc => Table.mem_upsert.mp hc
  -- a code that an event had spent would be used or deleted
  have hnot : ∀ e ∈ log, bc.id ∉ e.spent := by
    intro e he hspent
    rcases (h.known e he bc.id hspent).2 row hrow hid with hu | hd
    · rw [hunused] at hu
      cases hu
    · rw [hkept] at hd
      cases hd
  refine h.changeCodes rfl Event.noConfusion ?_ (fun t ht => ht) ?_ (Nat.le_max_left _ _) ?_ ?_
  · intro id hid' e he
    cases hid'
    exact hnot e he
  · intro ids hdis
    rcases List.mem_append.mp hdis with hold | hlast
    · obtain ⟨hnone, hcodes⟩ := h.gone ids hold
      refine ⟨hnone, fun c hc => ?_⟩
      rcases hmem c hc with ⟨hc, -⟩ | rfl
      · exact hcodes c hc
      · rw [← hid]
        exact hcodes row hrow
    · cases List.mem_singleton.mp hlast
  · intro id hid'
    rw [List.mem_singleton.mp hid']
    refine ⟨Nat.lt_of_lt_of_le hlt (Nat.le_max_left _ _), fun c hc hcid => ?_⟩
    rcases hmem c hc with ⟨-, hne⟩ | rfl
    · exact absurd hcid hne
    · exact .inl hused
  · intro c hc
    rcases hmem c hc with ⟨hc, -⟩ | rfl
    · exact .inr (.inr (.inl hc))
    · exact .inl hused

theorem mem_codeIds {ids : List ℕ} {id : ℕ}
    (h : id ∈ (db.codeIds true).filter fun id => id ∈ ids) : id ∈ ids ∧ id < db.nextId := by
  obtain ⟨hrows, hids⟩ := List.mem_filter.mp h
  obtain ⟨c, hc, rfl⟩ := List.mem_map.mp hrows
  exact ⟨of_decide_eq_true hids, db.below c (List.mem_filter.mp hc).1⟩

theorem Inv.deleteAll (h : Inv db log) (ids : List ℕ) :
    Inv (db.deleteAll ids)
      (log ++ [.disabled ((db.codeIds true).filter fun id => id ∈ ids)]) := by
  have hmem : ∀ c ∈ (db.deleteAll ids).codes.rows, c ∈ db.codes.rows ∧ c.id ∉ ids := by
    intro c hc
    obtain ⟨hc, hn⟩ := Table.mem_deleteWhere.mp hc
    exact ⟨hc, of_decide_eq_false hn⟩
  refine h.changeCodes rfl Event.noConfusion (fun id hid => by cases hid)
    (fun t ht => by cases ht) ?_ (Nat.le_refl _) ?_ ?_
  · intro ids' hdis
    refine ⟨rfl, fun c hc => ?_⟩
    rcases List.mem_append.mp hdis with hdis | hdis
    · exact (h.gone ids' hdis).2 c (hmem c hc).1
    · cases List.mem_singleton.mp hdis
      intro hcid
      exact (hmem c hc).2 (mem_codeIds hcid).1
  · intro id hid
    obtain ⟨hids, hlt⟩ := mem_codeIds hid
    refine ⟨hlt, fun c hc hcid => ?_⟩
    subst hcid
    exact absurd hids (hmem c hc).2
  · intro c hc
    exact .inr (.inr (.inl (hmem c hc).1))

theorem twoFA_createCodes (hashes : List String) :
    ∀ db : Db, (hashes.foldl Db.createCode db).twoFA = db.twoFA := by
  induction hashes with
  | nil => intro db; rfl
  | cons hash hashes ih => intro db; exact ih _

/-- New codes have new ids. -/
theorem codes_createCodes (hashes : List String) :
    ∀ db : Db, db.nextId ≤ (hashes.foldl Db.createCode db).nextId ∧
      ∀ c ∈ (hashes.foldl Db.createCode db).codes.rows, c ∈ db.codes.rows ∨ db.nextId ≤ c.id := by
  induction hashes with
  | nil => intro db; exact ⟨Nat.le_refl _, fun c hc => .inl hc⟩
  | cons hash hashes ih =>
    intro db
    obtain ⟨hnext, hcodes⟩ := ih (db.createCode hash)
    have hstep : db.nextId ≤ (db.createCode hash).nextId := Nat.le_max_left _ _
    refine ⟨Nat.le_trans hstep hnext, fun c hc => ?_⟩
    rcases hcodes c hc with hc | hc
    · rcases Table.mem_upsert.mp hc with ⟨hc, -⟩ | rfl
      · exact .inl hc
      · exact .inr (Nat.le_refl _)
    · exact .inr (Nat.le_trans hstep hc)

theorem mem_deleteCodes {ids : List ℕ} {c : TwoFABackupCode}
    (hc : c ∈ (db.deleteCodes ids).codes.rows) :
    (c.deleted = true ∧ ∃ x ∈ db.codes.rows, x.id = c.id) ∨ (c ∈ db.codes.rows ∧ c.id ∉ ids) := by
  obtain ⟨x, hx, hxc⟩ := List.mem_map.mp hc
  by_cases hids : x.id ∈ ids
  · simp only [decide_eq_true hids, if_true] at hxc
    subst hxc
    exact .inl ⟨rfl, x, hx, rfl⟩
  · simp only [decide_eq_false hids, Bool.false_eq_true, if_false] at hxc
    subst hxc
    exact .inr ⟨hx, hids⟩

theorem Inv.replaceCodes (h : Inv db log) (hashes : List String) (ids : List ℕ) :
    Inv (hashes.foldl Db.createCode (db.deleteCodes ids))
      (log ++ [.replaced ((db.codeIds true).filter fun id => id ∈ ids)]) := by
  obtain ⟨hnext, hnew⟩ := codes_createCodes hashes (db.deleteCodes ids)
  have hrow := twoFA_createCodes hashes (db.deleteCodes ids)
  refine h.changeCodes rfl Event.noConfusion (fun id hid => by cases hid) ?_ ?_ hnext ?_ ?_
  · intro t ht
    rw [hrow] at ht
    exact ht
  · intro ids' hdis
    rcases List.mem_append.mp hdis with hdis | hdis
    · obtain ⟨hnone, hcodes⟩ := h.gone ids' hdis
      refine ⟨hrow.trans hnone, fun c hc hid => ?_⟩
      rcases hnew c hc with hc | hc
      · rcases mem_deleteCodes hc with ⟨-, x, hx, hxid⟩ | ⟨hc, -⟩
        · exact hcodes x hx (hxid ▸ hid)
        · exact hcodes c hc hid
      · have hlt : c.id < db.nextId := (h.known _ hdis c.id hid).1
        exact Nat.lt_irrefl _ (Nat.lt_of_lt_of_le hlt hc)
    · cases List.mem_singleton.mp hdis
  · intro id hid
    obtain ⟨hids, hlt⟩ := mem_codeIds hid
    refine ⟨Nat.lt_of_lt_of_le hlt hnext, fun c hc hcid => ?_⟩
    subst hcid
    rcases hnew c hc with hc | hc
    · rcases mem_deleteCodes hc with ⟨hd, -⟩ | ⟨-, hn⟩
      · exact .inr hd
      · exact absurd hids hn
    · exact absurd hlt (Nat.not_lt.mpr hc)
  · intro c hc
    rcases hnew c hc with hc | hc
    · rcases mem_deleteCodes hc with ⟨hd, -⟩ | ⟨hc, -⟩
      · exact .inr (.inl hd)
      · exact .inr (.inr (.inl hc))
    · exact .inr (.inr (.inr hc))

/-- One statement, one case for each process. -/
theorem inv_next (cfg : Config) (s : State Process Db Event) (now : ℤ) (p : Process)
    (h : Inv s.store s.log) (hfresh : Fresh cfg s now p) :
    Inv (next cfg now p s.store).store (s.log ++ (next cfg now p s.store).events) := by
  have hsilent : Inv s.store (s.log ++ []) := by
    rw [List.append_nil]
    exact h
  cases p with
  | submit kind code =>
    simp only [next]
    split
    · exact hsilent
    · split
      · exact hsilent
      · exact hsilent
  | totp kind code t =>
    simp only [next]
    simp only [Fresh] at hfresh
    split
    · exact hsilent
    · rename_i hv
      rw [hv] at hfresh
      exact h.accept hfresh t now
    · rename_i hv
      rw [hv] at hfresh
      exact h.fail hfresh now
  | backup kind code t =>
    simp only [next]
    split
    · exact hsilent
    · split
      · exact hsilent
      · exact hsilent
  | compare kind code t codes =>
    simp only [next]
    simp only [Fresh] at hfresh
    split
    · rename_i bc hm
      rw [hm] at hfresh
      exact h.useCode hfresh rfl
    · rename_i hm
      rw [hm] at hfresh
      exact h.fail hfresh now
  | used kind t => exact h.accept hfresh t now
  | disable =>
    simp only [next]
    split
    · exact hsilent
    · exact hsilent
  | deleteCodes => exact hsilent
  | deleteTwoFA ids => exact h.deleteAll ids
  | createBackupCodes hashes => exact hsilent
  | insertCodes hashes ids => exact h.replaceCodes hashes ids

/-- Codes are compared as they are, and no TOTP code is right. -/
def sampleConfig : Config := ⟨fun _ _ _ => false, fun code codeHash => code = codeHash⟩

/-- A user with one backup code. -/
def oneCode : Db where
  twoFA := some ⟨"SECRET", true, 0, none, none⟩
  codes := ⟨[⟨0, "ABCD-1234", false, none, false⟩], by decide⟩
  nextId := 1
  below := by decide

/-- A wrong TOTP code, then the backup code, which also disables two-factor checks. -/
def disabling : List (Action ℤ Process) :=
  [.start (.submit .disable2FA "123456"), .next 0 0, .next 0 0, .next 0 0,
    .start (.submit .disable2FA "abcd1234"), .next 0 1, .next 0 1, .next 0 1, .next 0 1, .next 0 1,
    .next 0 1, .next 0 1, .next 0 1]

/-- Two logins load the same unused code before either saves it. -/
def twoLogins : List (Action ℤ Process) :=
  [.start (.submit .verify2FALogin "abcd1234"), .start (.submit .verify2FALogin "ABCD-1234"),
    .next 0 0, .next 0 0, .next 0 0, .next 0 0, .next 0 0, .next 0 0, .next 0 0, .next 0 0]

end TwoFactor
