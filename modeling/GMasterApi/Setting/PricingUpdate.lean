import GMasterApi.Lib.Binary64
import GMasterApi.Lib.JsonValue

/-!
# Updates of the pricing tables

An option is saved as a row, then put into `OptionMap`, then read into its table, which is
emptied before its value is decoded.  Nothing of this is undone when a later step fails.
`update_atomic_iff` says which updates leave everything as it was when they fail.
-/

namespace Setting.PricingUpdate

open GoMap JsonValue

/-! ## Tables -/

/-- A table of ratios or prices, by its option. -/
inductive Pricing
  | modelRatio
  | modelPrice
  | completionRatio
  | cacheRatio
  | createCacheRatio
  | imageRatio
  | audioRatio
  | audioCompletionRatio
  deriving DecidableEq

def Pricing.key : Pricing → String
  | .modelRatio => "ModelRatio"
  | .modelPrice => "ModelPrice"
  | .completionRatio => "CompletionRatio"
  | .cacheRatio => "CacheRatio"
  | .createCacheRatio => "CreateCacheRatio"
  | .imageRatio => "ImageRatio"
  | .audioRatio => "AudioRatio"
  | .audioCompletionRatio => "AudioCompletionRatio"

def pricingOf : String → Option Pricing
  | "ModelRatio" => some .modelRatio
  | "ModelPrice" => some .modelPrice
  | "CompletionRatio" => some .completionRatio
  | "CacheRatio" => some .cacheRatio
  | "CreateCacheRatio" => some .createCacheRatio
  | "ImageRatio" => some .imageRatio
  | "AudioRatio" => some .audioRatio
  | "AudioCompletionRatio" => some .audioCompletionRatio
  | _ => none

abbrev Table := String → Option ℚ

inductive UpdateError
  | jsonSyntax
  | unmarshalType (value goType : String)
  | database
  | other (message : String)
  deriving DecidableEq

/-- The word that `UnmarshalTypeError` has for a value. -/
def kind : Json → String
  | .null => "null"
  | .bool _ => "bool"
  | .number _ => "number"
  | .string _ => "string"
  | .array _ => "array"
  | .object _ => "object"

/-- A JSON value read into a `float64`; `null` leaves it at 0. -/
def float : Json → Option ℚ
  | .null => some 0
  | .number q => Binary64.parseFloat q
  | _ => none

/-- The members of an object in turn.  A value of another type leaves a 0 under its name, and
the first error is kept. -/
def decodeMembers (table : Table) (saved : Option UpdateError) :
    Members → Table × Option UpdateError
  | [] => (table, saved)
  | (name, value) :: rest =>
    match float value with
    | some x => decodeMembers (Function.update table name (some x)) saved rest
    | none =>
      decodeMembers (Function.update table name (some 0))
        (saved.or (some (.unmarshalType (kind value) "float64"))) rest

def unmarshal (parse : String → Option Json) (jsonStr : String) (table : Table) :
    Table × Option UpdateError :=
  match parse jsonStr with
  | none => (table, some .jsonSyntax)
  | some .null => (fun _ => none, none)
  | some (.object members) => decodeMembers table none members
  | some value => (table, some (.unmarshalType (kind value) "map[string]float64"))

/-- `LoadFromJsonString`, which makes a new map before it decodes. -/
def loadFromJsonString (parse : String → Option Json) (jsonStr : String) :
    Table × Option UpdateError :=
  unmarshal parse jsonStr fun _ => none

/-! ## Options -/

abbrev Rows := String → Option String

structure Settings where
  rows : Rows
  optionMap : String → Option String
  tables : Pricing → Table

/-- What is outside the pricing tables: the parser of JSON, the error of every other option,
and the first row in the order of the database. -/
structure Env where
  parse : String → Option Json
  updateOther : String → String → Option UpdateError
  first : Rows → Option String
  first_some : ∀ rows key, first rows = some key → rows key ≠ none
  first_none : ∀ rows, first rows = none → ∀ key, rows key = none

/-- Which statements succeed, by the key of the option. -/
structure Database where
  firstOrCreate : String → Bool
  save : String → Bool
  commit : Bool

/-- `FirstOrCreate`: the rows, and the key of the option that is found.  An empty key is no
condition, and the first row is found. -/
def firstOrCreate (env : Env) (key : String) (rows : Rows) : Rows × String :=
  let found := if key = "" then (env.first rows).getD "" else key
  (if rows found = none then Function.update rows found (some "") else rows, found)

/-- Whether `Save` goes through; an option with an empty key is inserted. -/
def saves (db : Database) (key found : String) (rows : Rows) : Bool :=
  db.save key && (found ≠ "" || rows "" = none)

def updateOptionMap (env : Env) (key value : String) (s : Settings) :
    Settings × Option UpdateError :=
  let s := { s with optionMap := Function.update s.optionMap key (some value) }
  match pricingOf key with
  | some p =>
    let (table, err) := loadFromJsonString env.parse value
    ({ s with tables := Function.update s.tables p table }, err)
  | none => (s, env.updateOther key value)

/-- `UpdateOption`, which takes no notice of a statement that fails. -/
def updateOption (env : Env) (db : Database) (key value : String) (s : Settings) :
    Settings × Option UpdateError :=
  let (rows, found) :=
    if db.firstOrCreate key then firstOrCreate env key s.rows else (s.rows, key)
  let rows := if saves db key found rows then Function.update rows found (some value) else rows
  updateOptionMap env key value { s with rows := rows }

/-- The transaction of `UpdateOptionsBulk`; `none` where it is rolled back. -/
def saveAll (env : Env) (db : Database) : List (String × String) → Rows → Option Rows
  | [], rows => some rows
  | (key, value) :: rest, rows =>
    if db.firstOrCreate key then
      let (rows, found) := firstOrCreate env key rows
      if saves db key found rows then
        saveAll env db rest (Function.update rows found (some value))
      else none
    else none

def updateAll (env : Env) : List (String × String) → Settings → Settings × Option UpdateError
  | [], s => (s, none)
  | (key, value) :: rest, s =>
    match updateOptionMap env key value s with
    | (s, some err) => (s, some err)
    | (s, none) => updateAll env rest s

/-- `UpdateOptionsBulk`, with the orders in which it goes through the values. -/
def updateOptionsBulk (env : Env) (db : Database) (saving updating : Order (String × String))
    (values : Map String String) (s : Settings) : Settings × Option UpdateError :=
  if values.entries = [] then (s, none)
  else
    match saveAll env db (saving.range values.entries) s.rows with
    | none => (s, some .database)
    | some rows =>
      if db.commit then updateAll env (updating.range values.entries) { s with rows := rows }
      else (s, some .database)

/-- The tables that the handler of an update reads before it is saved. -/
def readFirst : Pricing → Bool
  | .imageRatio | .audioRatio | .audioCompletionRatio | .createCacheRatio => true
  | _ => false

/-- `UpdateOption` of the controller, for a pricing option. -/
def handleUpdateOption (env : Env) (db : Database) (p : Pricing) (value : String) (s : Settings) :
    Settings × Option UpdateError :=
  if readFirst p then
    let (table, err) := loadFromJsonString env.parse value
    let s := { s with tables := Function.update s.tables p table }
    if err.isSome then (s, err) else updateOption env db p.key value s
  else updateOption env db p.key value s

/-! ## What is promised -/

/-- What a value stands for: the last number under each name; none where it is no table. -/
def decoding : Json → Option Table
  | .null => some fun _ => none
  | .object members =>
    if members.all fun m => (float m.2).isSome then
      some fun name => (members.reverse.lookup name).bind float
    else none
  | _ => none

def Decodes (parse : String → Option Json) (value : String) : Prop :=
  (parse value).bind decoding ≠ none

/-- A failed update has changed nothing; another one has changed the tables it names to what
their values stand for, and no other table. -/
structure Atomic (env : Env) (values : String → Option String) (before : Settings)
    (result : Settings × Option UpdateError) : Prop where
  failed : result.2 ≠ none → result.1 = before
  named : result.2 = none → ∀ p value, values (Pricing.key p) = some value →
    (env.parse value).bind decoding = some (result.1.tables p)
  others : result.2 = none → ∀ p, values (Pricing.key p) = none →
    result.1.tables p = before.tables p

/-- The values of `UpdateOption`. -/
def only (key value : String) : String → Option String := Function.update (fun _ => none) key value

/-- An option whose value is read without an error. -/
def Accepted (env : Env) (key value : String) : Prop :=
  match pricingOf key with
  | some _ => Decodes env.parse value
  | none => env.updateOther key value = none

/-- The transaction is rolled back. -/
def Fails (db : Database) (values : Map String String) : Prop :=
  db.commit = false ∨
    ∃ e ∈ values.entries, db.firstOrCreate e.1 = false ∨ db.save e.1 = false

/-! ## Keys -/

variable {env : Env} {db : Database} {s : Settings} {rows : Rows} {key value found : String}
  {p : Pricing} {parse : String → Option Json} {table : Table} {saved : Option UpdateError}
  {members : Members} {entries : List (String × String)}

@[simp] theorem pricingOf_key (p : Pricing) : pricingOf p.key = some p := by
  cases p
  all_goals rfl

theorem key_of_pricingOf (h : pricingOf key = some p) : key = p.key := by
  unfold pricingOf at h
  split at h
  all_goals cases h
  all_goals rfl

theorem key_injective : Function.Injective Pricing.key := by
  intro p q h
  have hsome : some p = some q := by
    rw [← pricingOf_key p, h, pricingOf_key]
  exact Option.some.inj hsome

/-! ## Decoding -/

/-- There is an error afterwards if there was one, or a value is no number. -/
theorem decodeMembers_error : (decodeMembers table saved members).2 = none ↔
    saved = none ∧ members.all (fun m => (float m.2).isSome) = true := by
  induction members generalizing table saved with
  | nil => simp [decodeMembers]
  | cons m members ih =>
    obtain ⟨name, value⟩ := m
    unfold decodeMembers
    cases hfloat : float value with
    | none =>
      dsimp only
      rw [ih, List.all_cons, hfloat]
      cases saved <;> simp
    | some x =>
      dsimp only
      rw [ih, List.all_cons, hfloat]
      simp

/-- The last member of a name is in the table. -/
theorem decodeMembers_table (h : members.all (fun m => (float m.2).isSome) = true)
    (name : String) : (decodeMembers table saved members).1 name =
      (members.reverse.lookup name).elim (table name) float := by
  induction members generalizing table saved with
  | nil => rfl
  | cons m members ih =>
    obtain ⟨name', value⟩ := m
    rw [List.all_cons, Bool.and_eq_true] at h
    obtain ⟨x, hx⟩ := Option.isSome_iff_exists.mp h.1
    unfold decodeMembers
    dsimp only at hx
    rw [hx]
    dsimp only
    rw [ih h.2, List.reverse_cons, List.lookup_append]
    cases members.reverse.lookup name with
    | some found => rfl
    | none =>
      rw [Option.none_or, Option.elim_none]
      by_cases hname : name = name'
      · subst hname
        rw [Function.update_self, List.lookup_cons_self, Option.elim_some, hx]
      · have hne : (name == name') = false := by simp [hname]
        rw [Function.update_of_ne hname, List.lookup_cons, hne]
        rfl

/-- A value that stands for a table is loaded as this table. -/
theorem loadFromJsonString_of_some (h : (parse value).bind decoding = some table) :
    loadFromJsonString parse value = (table, none) := by
  obtain ⟨json, hparse, hjson⟩ := Option.bind_eq_some_iff.mp h
  unfold loadFromJsonString unmarshal
  rw [hparse]
  cases json with
  | null =>
    cases hjson
    rfl
  | object members =>
    rw [decoding] at hjson
    split at hjson
    · rename_i hall
      cases hjson
      refine Prod.ext (funext fun name => ?_) (decodeMembers_error.mpr ⟨rfl, hall⟩)
      dsimp only
      rw [decodeMembers_table hall]
      cases members.reverse.lookup name
      all_goals rfl
    · cases hjson
  | _ => cases hjson

theorem loadFromJsonString_of_none (h : (parse value).bind decoding = none) :
    (loadFromJsonString parse value).2 ≠ none := by
  unfold loadFromJsonString unmarshal
  cases hparse : parse value with
  | none => exact Option.some_ne_none _
  | some json =>
    rw [hparse, Option.bind_some] at h
    cases json with
    | null => cases h
    | object members =>
      intro hnone
      obtain ⟨-, hall⟩ := decodeMembers_error.mp hnone
      rw [decoding, if_pos hall] at h
      cases h
    | _ => exact Option.some_ne_none _

theorem loadFromJsonString_error : (loadFromJsonString parse value).2 = none ↔
    Decodes parse value := by
  unfold Decodes
  constructor
  · intro h hnone
    exact loadFromJsonString_of_none hnone h
  · intro h
    obtain ⟨table, htable⟩ := Option.ne_none_iff_exists'.mp h
    rw [loadFromJsonString_of_some htable]

/-! ## One option -/

theorem updateOptionMap_key (p : Pricing) (value : String) (s : Settings) :
    updateOptionMap env p.key value s =
      ({ s with
          optionMap := Function.update s.optionMap p.key (some value)
          tables := Function.update s.tables p (loadFromJsonString env.parse value).1 },
        (loadFromJsonString env.parse value).2) := by
  unfold updateOptionMap
  rw [pricingOf_key]

theorem updateOptionMap_error :
    (updateOptionMap env key value s).2 = none ↔ Accepted env key value := by
  unfold updateOptionMap Accepted
  cases pricingOf key with
  | none => rfl
  | some p => exact loadFromJsonString_error

/-- The value is in `OptionMap` whether or not it is read. -/
theorem optionMap_updateOptionMap : (updateOptionMap env key value s).1.optionMap =
    Function.update s.optionMap key (some value) := by
  unfold updateOptionMap
  cases pricingOf key with
  | none => rfl
  | some p => rfl

theorem tables_updateOptionMap_of_ne (h : p.key ≠ key) :
    (updateOptionMap env key value s).1.tables p = s.tables p := by
  unfold updateOptionMap
  cases hkey : pricingOf key with
  | none => rfl
  | some q =>
    have hne : p ≠ q := by
      rintro rfl
      exact h (key_of_pricingOf hkey).symm
    exact Function.update_of_ne hne _ _

/-- A table that is read without an error is what its value stands for. -/
theorem tables_updateOptionMap (h : (updateOptionMap env p.key value s).2 = none) :
    (env.parse value).bind decoding = some ((updateOptionMap env p.key value s).1.tables p) := by
  rw [updateOptionMap_key] at h ⊢
  obtain ⟨table, htable⟩ := Option.ne_none_iff_exists'.mp (loadFromJsonString_error.mp h)
  rw [htable, loadFromJsonString_of_some htable]
  exact congrArg some (Function.update_self p table s.tables).symm

/-- The first value that is not read ends the update. -/
theorem updateAll_error :
    (updateAll env entries s).2 = none ↔ ∀ e ∈ entries, Accepted env e.1 e.2 := by
  induction entries generalizing s with
  | nil => simp [updateAll]
  | cons e entries ih =>
    obtain ⟨key, value⟩ := e
    unfold updateAll
    rw [List.forall_mem_cons, ← updateOptionMap_error (s := s)]
    cases hupdate : updateOptionMap env key value s with
    | mk t err =>
      cases err with
      | some err => simp
      | none =>
        dsimp only
        rw [ih, and_iff_right rfl]

theorem updateAll_cons_of_none (h : (updateOptionMap env key value s).2 = none) :
    updateAll env ((key, value) :: entries) s =
      updateAll env entries (updateOptionMap env key value s).1 := by
  cases hupdate : updateOptionMap env key value s with
  | mk t err =>
    rw [hupdate] at h
    cases h
    rw [updateAll, hupdate]

/-- What a run that goes through does to a table. -/
theorem tables_updateAll (hnodup : (entries.map Prod.fst).Nodup)
    (h : (updateAll env entries s).2 = none) (p : Pricing) :
    (∀ value, (p.key, value) ∈ entries →
      (env.parse value).bind decoding = some ((updateAll env entries s).1.tables p)) ∧
    (p.key ∉ entries.map Prod.fst → (updateAll env entries s).1.tables p = s.tables p) := by
  induction entries generalizing s with
  | nil => exact ⟨nofun, fun _ => rfl⟩
  | cons e entries ih =>
    obtain ⟨key, value⟩ := e
    rw [List.map_cons, List.nodup_cons] at hnodup
    have hhead : (updateOptionMap env key value s).2 = none :=
      updateOptionMap_error.mpr (updateAll_error.mp h (key, value) List.mem_cons_self)
    rw [updateAll_cons_of_none hhead] at h ⊢
    obtain ⟨hnamed, hothers⟩ := ih hnodup.2 h
    constructor
    · intro value' hmem
      rcases List.mem_cons.mp hmem with heq | htail
      · cases heq
        rw [hothers hnodup.1]
        exact tables_updateOptionMap hhead
      · exact hnamed value' htail
    · intro hnot
      rw [List.map_cons, List.mem_cons, not_or] at hnot
      rw [hothers hnot.2, tables_updateOptionMap_of_ne hnot.1]

theorem optionMap_updateAll_ne_none (h : s.optionMap key ≠ none) :
    (updateAll env entries s).1.optionMap key ≠ none := by
  induction entries generalizing s with
  | nil => exact h
  | cons e entries ih =>
    have hstep : (updateOptionMap env e.1 e.2 s).1.optionMap key ≠ none := by
      rw [optionMap_updateOptionMap]
      by_cases hkey : key = e.1
      · rw [hkey, Function.update_self]
        exact Option.some_ne_none _
      · rw [Function.update_of_ne hkey]
        exact h
    cases hupdate : updateOptionMap env e.1 e.2 s with
    | mk t err =>
      rw [hupdate] at hstep
      rw [updateAll, hupdate]
      cases err with
      | some err => exact hstep
      | none => exact ih hstep

/-- The first value is in `OptionMap` afterwards, whatever becomes of it. -/
theorem optionMap_updateAll_cons : (updateAll env ((key, value) :: entries) s).1.optionMap key ≠
    none := by
  have hstep : (updateOptionMap env key value s).1.optionMap key ≠ none := by
    rw [optionMap_updateOptionMap, Function.update_self]
    exact Option.some_ne_none _
  cases hupdate : updateOptionMap env key value s with
  | mk t err =>
    rw [hupdate] at hstep
    rw [updateAll, hupdate]
    cases err with
    | some err => exact hstep
    | none => exact optionMap_updateAll_ne_none hstep

/-! ## Rows -/

/-- Rows of which none has an empty key. -/
structure Keyed (rows : Rows) : Prop where
  some : ∃ key, rows key ≠ none
  empty : rows "" = none

theorem keyed_update (h : Keyed rows) (hkey : key ≠ "") :
    Keyed (Function.update rows key (some value)) where
  some := ⟨key, by rw [Function.update_self]; exact Option.some_ne_none _⟩
  empty := by
    rw [Function.update_of_ne hkey.symm]
    exact h.empty

/-- Over such rows an option with an empty key finds another one. -/
theorem firstOrCreate_ne_empty (env : Env) (key : String) (h : Keyed rows) :
    (firstOrCreate env key rows).2 ≠ "" := by
  unfold firstOrCreate
  dsimp only
  split
  · cases hfirst : env.first rows with
    | none =>
      obtain ⟨key, hkey⟩ := h.some
      exact absurd (env.first_none rows hfirst key) hkey
    | some found =>
      intro hempty
      rw [Option.getD_some] at hempty
      subst hempty
      exact env.first_some rows "" hfirst h.empty
  · assumption

theorem keyed_firstOrCreate (h : Keyed rows) : Keyed (firstOrCreate env key rows).1 := by
  have hne := firstOrCreate_ne_empty env key h
  unfold firstOrCreate at hne ⊢
  dsimp only at hne ⊢
  generalize (if key = "" then (env.first rows).getD "" else key) = found at hne ⊢
  split
  · exact keyed_update h hne
  · exact h

/-- A transaction whose statements succeed is not rolled back. -/
theorem saveAll_ne_none (env : Env) (hrows : Keyed rows)
    (h : ∀ e ∈ entries, db.firstOrCreate e.1 = true ∧ db.save e.1 = true) :
    saveAll env db entries rows ≠ none := by
  induction entries generalizing rows with
  | nil => exact Option.some_ne_none _
  | cons e entries ih =>
    obtain ⟨key, value⟩ := e
    rw [List.forall_mem_cons] at h
    have hne := firstOrCreate_ne_empty env key hrows
    have hsaves : saves db key (firstOrCreate env key rows).2 (firstOrCreate env key rows).1 =
        true := by
      unfold saves
      rw [h.1.2]
      simp [hne]
    unfold saveAll
    dsimp only
    rw [if_pos h.1.1, if_pos hsaves]
    exact ih (keyed_update (keyed_firstOrCreate hrows) hne) h.2

theorem saveAll_eq_none {e : String × String} (he : e ∈ entries)
    (h : db.firstOrCreate e.1 = false ∨ db.save e.1 = false) :
    saveAll env db entries rows = none := by
  induction entries generalizing rows with
  | nil => cases he
  | cons e' entries ih =>
    obtain ⟨key, value⟩ := e'
    unfold saveAll
    dsimp only
    split
    · rename_i hfirst
      split
      · rename_i hsaves
        rcases List.mem_cons.mp he with rfl | htail
        · rcases h with h | h
          · rw [hfirst] at h
            cases h
          · unfold saves at hsaves
            dsimp only at h
            rw [h, Bool.false_and] at hsaves
            cases hsaves
        · exact ih htail
      · rfl
    · rfl

/-! ## When a failed update has changed nothing -/

/-- Nothing is set. -/
def Settings.zero (rows : Rows) : Settings := ⟨rows, fun _ => none, fun _ _ => none⟩

theorem updateOption_eq (env : Env) (db : Database) (key value : String) (s : Settings) : ∃ rows,
    updateOption env db key value s = updateOptionMap env key value { s with rows := rows } :=
  ⟨_, rfl⟩

/-- One option is updated as promised from every state exactly if its value stands for a table. -/
theorem atomic_updateOption_iff (env : Env) (db : Database) (p : Pricing) (value : String) :
    (∀ s, Atomic env (only p.key value) s (updateOption env db p.key value s)) ↔
      Decodes env.parse value := by
  constructor
  · intro h
    by_contra hnot
    obtain ⟨rows, heq⟩ := updateOption_eq env db p.key value (.zero fun _ => none)
    have hatomic := h (.zero fun _ => none)
    rw [heq] at hatomic
    have herr : (updateOptionMap env p.key value
        { Settings.zero (fun _ => none) with rows := rows }).2 ≠ none := by
      rw [ne_eq, updateOptionMap_error, Accepted, pricingOf_key]
      exact hnot
    have hmap := congrArg (fun s : Settings => s.optionMap p.key) (hatomic.failed herr)
    rw [optionMap_updateOptionMap, Function.update_self] at hmap
    cases hmap
  · intro h s
    obtain ⟨rows, heq⟩ := updateOption_eq env db p.key value s
    have herr : (updateOptionMap env p.key value { s with rows := rows }).2 = none := by
      rw [updateOptionMap_error, Accepted, pricingOf_key]
      exact h
    rw [heq]
    refine ⟨fun hne => absurd herr hne, fun _ q value' hq => ?_, fun _ q hq => ?_⟩
    · by_cases hkey : q.key = p.key
      · rw [only, hkey, Function.update_self] at hq
        cases hq
        cases key_injective hkey
        exact tables_updateOptionMap herr
      · rw [only, Function.update_of_ne hkey] at hq
        cases hq
    · have hkey : q.key ≠ p.key := by
        intro hkey
        rw [only, hkey, Function.update_self] at hq
        cases hq
      rw [tables_updateOptionMap_of_ne hkey]

/-- The handler is as atomic, though it loads some tables first. -/
theorem atomic_handleUpdateOption_iff :
    (∀ s, Atomic env (only p.key value) s (handleUpdateOption env db p value s)) ↔
      Decodes env.parse value := by
  by_cases h : Decodes env.parse value
  · -- what is loaded first is loaded again
    have hsame s : handleUpdateOption env db p value s = updateOption env db p.key value s := by
      simp only [handleUpdateOption, loadFromJsonString_error.mpr h, updateOption,
        updateOptionMap_key]
      cases readFirst p <;> simp
    simpa only [hsame] using atomic_updateOption_iff env db p value
  · refine iff_of_false (fun hall => h ?_) h
    have herr := mt loadFromJsonString_error.mp h
    cases hread : readFirst p with
    | false =>
      refine (atomic_updateOption_iff env db p value).mp ?_
      simpa [handleUpdateOption, hread] using hall
    | true =>
      obtain ⟨table, htable⟩ := exists_ne (loadFromJsonString env.parse value).1
      have hsame := (hall { Settings.zero fun _ => none with tables := fun _ => table }).failed
      simp only [handleUpdateOption, hread, if_true, Option.isSome_iff_ne_none.mpr herr] at hsame
      have hloaded := congrArg (fun s : Settings => s.tables p) (hsame herr)
      exact absurd (by simpa using hloaded.symm) htable

theorem accepted_range (updating : Order (String × String)) {values : Map String String} :
    (∀ e ∈ updating.range values.entries, Accepted env e.1 e.2) ↔
      ∀ key value, values.get key = some value → Accepted env key value := by
  constructor
  · intro h key value hget
    exact h (key, value) ((updating.perm _).mem_iff.mpr (Map.mem_entries.mpr hget))
  · intro h e he
    exact h e.1 e.2 (Map.mem_entries.mp ((updating.perm _).mem_iff.mp he))

/-- Rows with one option. -/
def oneRow : Rows := Function.update (fun _ => none) "SystemName" (some "")

theorem keyed_oneRow : Keyed oneRow where
  some := ⟨"SystemName", by rw [oneRow, Function.update_self]; exact Option.some_ne_none _⟩
  empty := Function.update_of_ne (by decide) _ _

variable {saving updating : Order (String × String)} {values : Map String String}

/-- A transaction that is committed goes on to the values in memory. -/
theorem updateOptionsBulk_of_not_fails (env : Env) (saving updating : Order (String × String))
    (h : ¬ Fails db values) (hne : values.entries ≠ []) :
    ∃ rows, updateOptionsBulk env db saving updating values (.zero oneRow) =
      updateAll env (updating.range values.entries) (.zero rows) := by
  obtain ⟨hcommit, hstatements⟩ := not_or.mp h
  rw [Bool.not_eq_false] at hcommit
  have hall : ∀ e ∈ saving.range values.entries,
      db.firstOrCreate e.1 = true ∧ db.save e.1 = true := by
    intro e he
    have hmem := (saving.perm _).mem_iff.mp he
    constructor
    · rw [← Bool.not_eq_false]
      exact fun hfalse => hstatements ⟨e, hmem, .inl hfalse⟩
    · rw [← Bool.not_eq_false]
      exact fun hfalse => hstatements ⟨e, hmem, .inr hfalse⟩
  obtain ⟨rows, hrows⟩ :=
    Option.ne_none_iff_exists'.mp (saveAll_ne_none env keyed_oneRow hall)
  refine ⟨rows, ?_⟩
  have hzero : (Settings.zero oneRow).rows = oneRow := rfl
  unfold updateOptionsBulk
  rw [if_neg hne, hzero, hrows]
  exact if_pos hcommit

/-- A transaction that fails has changed nothing. -/
theorem updateOptionsBulk_of_fails (h : Fails db values) (hne : values.entries ≠ []) :
    updateOptionsBulk env db saving updating values s = (s, some .database) := by
  unfold updateOptionsBulk
  rw [if_neg hne]
  rcases h with hcommit | ⟨e, he, hfails⟩
  · split
    · rfl
    · rw [hcommit]
      rfl
  · rw [saveAll_eq_none ((saving.perm _).mem_iff.mpr he) hfails]

/-- The values of an update that is atomic from the zero settings are all read, where it is
not rolled back. -/
theorem accepted_of_atomic {db : Database} {saving updating : Order (String × String)}
    {values : Map String String}
    (h : ∀ s, Atomic env values.get s (updateOptionsBulk env db saving updating values s)) :
    Fails db values ∨ ∀ key value, values.get key = some value → Accepted env key value := by
  by_contra hnot
  obtain ⟨hfails, haccepted⟩ := not_or.mp hnot
  rw [← accepted_range updating] at haccepted
  have hne : values.entries ≠ [] := by
    intro hnil
    have hrange : updating.range values.entries = [] := by
      rw [hnil]
      exact (updating.perm []).eq_nil
    rw [hrange] at haccepted
    exact haccepted nofun
  obtain ⟨rows, heq⟩ :=
    updateOptionsBulk_of_not_fails env saving updating hfails hne
  have hatomic := h (.zero oneRow)
  rw [heq] at hatomic
  have hsame := hatomic.failed (mt updateAll_error.mp haccepted)
  cases hrange : updating.range values.entries with
  | nil =>
    rw [hrange] at haccepted
    exact haccepted nofun
  | cons e entries =>
    rw [hrange] at hsame
    have hset : (updateAll env (e :: entries) (.zero rows)).1.optionMap e.1 ≠ none :=
      optionMap_updateAll_cons
    rw [hsame] at hset
    exact hset rfl

/-- Values that are all read are put into their tables and no other, in any order. -/
theorem atomic_updateAll {updating : Order (String × String)} {values : Map String String}
    (haccepted : ∀ e ∈ updating.range values.entries, Accepted env e.1 e.2) {before : Settings}
    (hbefore : s.tables = before.tables) :
    Atomic env values.get before (updateAll env (updating.range values.entries) s) := by
  have herr : (updateAll env (updating.range values.entries) s).2 = none :=
    updateAll_error.mpr haccepted
  have hnodup : ((updating.range values.entries).map Prod.fst).Nodup :=
    ((updating.perm _).map Prod.fst).nodup_iff.mpr values.nodup
  refine ⟨fun hne => absurd herr hne, fun _ p value hget => ?_, fun _ p hget => ?_⟩
  · refine (tables_updateAll hnodup herr p).1 value ?_
    exact (updating.perm _).mem_iff.mpr (Map.mem_entries.mpr hget)
  · rw [← hbefore]
    refine (tables_updateAll hnodup herr p).2 fun hmem => ?_
    obtain ⟨e, he, hkey⟩ := List.mem_map.mp hmem
    have hsome := Map.mem_entries.mp ((updating.perm _).mem_iff.mp he)
    rw [hkey, hget] at hsome
    cases hsome

/-- A set of options is updated as promised from every state exactly if the transaction is
rolled back or every value is read. -/
theorem atomic_updateOptionsBulk_iff (env : Env) (db : Database)
    (saving updating : Order (String × String)) (values : Map String String) :
    (∀ s, Atomic env values.get s (updateOptionsBulk env db saving updating values s)) ↔
      Fails db values ∨ ∀ key value, values.get key = some value → Accepted env key value := by
  refine ⟨accepted_of_atomic, fun h s => ?_⟩
  by_cases hnil : values.entries = []
  · have hget : values.get = fun _ => none := by
      funext key
      rw [Map.get, hnil]
      rfl
    rw [updateOptionsBulk, if_pos hnil, hget]
    exact ⟨fun hne => absurd rfl hne, fun _ _ _ => nofun, fun _ _ _ => rfl⟩
  by_cases hfails : Fails db values
  · rw [updateOptionsBulk_of_fails hfails hnil]
    exact ⟨fun _ => rfl, nofun, nofun⟩
  have haccepted := (accepted_range updating).mpr (h.resolve_left hfails)
  unfold updateOptionsBulk
  rw [if_neg hnil]
  cases hsaved : saveAll env db (saving.range values.entries) s.rows with
  | none => exact ⟨fun _ => rfl, nofun, nofun⟩
  | some rows =>
    have hcommit : db.commit = true := by
      rw [← Bool.not_eq_false]
      exact fun hfalse => hfails (.inl hfalse)
    dsimp only
    rw [if_pos hcommit]
    exact atomic_updateAll haccepted rfl

/-- **Which updates change nothing when they fail**, and what they name when they do not: an
update of one option whose value stands for a table, and an update of several whose
transaction is rolled back or whose values are all read. -/
theorem update_atomic_iff (env : Env) (db : Database) :
    (∀ (p : Pricing) value,
      (∀ s, Atomic env (only p.key value) s (updateOption env db p.key value s)) ↔
        Decodes env.parse value) ∧
    ∀ saving updating values,
      (∀ s, Atomic env values.get s (updateOptionsBulk env db saving updating values s)) ↔
        Fails db values ∨ ∀ key value, values.get key = some value → Accepted env key value :=
  ⟨atomic_updateOption_iff env db, atomic_updateOptionsBulk_iff env db⟩

open Classical in
/-- No text is JSON, and some row is the first. -/
noncomputable def sampleEnv : Env where
  parse := fun _ => none
  updateOther := fun _ _ => none
  first := fun rows => if h : ∃ key, rows key ≠ none then some h.choose else none
  first_some := by
    intro rows key h
    split at h
    · rename_i hsome
      cases h
      exact hsome.choose_spec
    · cases h
  first_none := by
    intro rows h key
    split at h
    · cases h
    · rename_i hnone
      by_contra hkey
      exact hnone ⟨key, hkey⟩

def sampleSettings : Settings where
  rows := oneRow
  optionMap := fun _ => none
  tables := fun _ => Function.update (fun _ => none) "gpt-4o" (some (5 / 4))

/-- A brace that is not closed empties the table. -/
theorem unclosed_brace_empties_table :
    ¬ Atomic sampleEnv (only "ModelRatio" "\x7b") sampleSettings
      (updateOption sampleEnv ⟨fun _ => true, fun _ => true, true⟩ "ModelRatio" "\x7b"
        sampleSettings) := by
  intro h
  have hsame := congrArg (fun s : Settings => s.tables .modelRatio "gpt-4o")
    (h.failed (Option.some_ne_none _))
  have hbefore : sampleSettings.tables .modelRatio "gpt-4o" = some (5 / 4) := rfl
  rw [hbefore] at hsame
  cases hsame

end Setting.PricingUpdate
