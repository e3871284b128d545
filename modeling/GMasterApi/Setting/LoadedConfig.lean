import GMasterApi.Lib.GoFloat
import GMasterApi.Lib.GoReflect

/-!
# Configurations that are loaded from the stored rows

Each row is read into the field that it names, or, for a few legacy keys, into a field that
has a row of its own.  A slice and a struct are read in place.
`load_determined_iff` says when a load ends the same from two memories and in every order of
the rows, with the configuration that was saved.
-/

namespace Setting.LoadedConfig

open GoReflect JsonValue

/-! ## Configurations -/

/-- What `GlobalConfig` has, by the fields of the registered structs.  A pointer is one to a
`RWMap`, and `GroupRatio` and `GroupGroupRatio` are read into the same `RWMap`s. -/
structure Registry where
  Field : Type
  decEq : DecidableEq Field
  /-- The name of the configuration, a dot and the name of the field. -/
  key : Field → String
  find : String → Option Field
  find_iff : ∀ name f, find name = some f ↔ key f = name
  ty : Field → Ty
  wellFormed : ∀ f, (ty f).WellFormed
  pointer : Field → Bool
  pointer_map : ∀ f, pointer f = true → ∃ elem, ty f = .map elem
  quotaDisplayType : Field
  groupRatio : Field
  groupGroupRatio : Field
  quotaDisplayType_ty : ty quotaDisplayType = .string
  quotaDisplayType_pointer : pointer quotaDisplayType = false
  groupRatio_pointer : pointer groupRatio = true
  groupGroupRatio_pointer : pointer groupGroupRatio = true
  groups_ne : groupRatio ≠ groupGroupRatio
  legacy_find : ∀ name ∈ ["DisplayInCurrencyEnabled", "GroupRatio", "GroupGroupRatio"],
    find name = none

variable {R : Registry}

instance : DecidableEq R.Field := R.decEq

/-- A pointer to a `RWMap`: nil, to the one that is a variable, or to one of its own. -/
inductive Pointer (α : Type)
  | nil
  | shared
  | own (x : α)

structure Mem (R : Registry) where
  optionMap : String → Option String
  /-- The fields, and the variables of those that are pointers. -/
  value : (f : R.Field) → (R.ty f).Val
  pointer : (f : R.Field) → Pointer (R.ty f).Val

/-- `strconv` and the parser of JSON. -/
structure Reader where
  parseBool : String → Option Bool
  parseInt : String → Option Int64
  parseFloat : String → Option ℚ
  parseJson : String → Option Json

/-! ## `updateConfigFromMap` -/

/-- `make` of a map. -/
def makeMap : (ty : Ty) → ty.Val
  | .map _ => some .nil
  | ty => zero ty

/-- `json.Unmarshal` of a text in place. -/
def unmarshal (r : Reader) (ty : Ty) (old : ty.Val) (text : String) : ty.Val :=
  match r.parseJson text with
  | none => old
  | some j => (decode ty old j).1

/-- An integer, also from the text of a float. -/
def updateInt (r : Reader) (old : Int64) (text : String) : Int64 :=
  match r.parseInt text with
  | some i => i
  | none =>
    match r.parseFloat text with
    | some q => Int64.ofInt (GoFloat.toInt q)
    | none => old

/-- A map, which is read into a new one and set where there is no error. -/
def updateMap (r : Reader) (elem : Ty) (old : (Ty.map elem).Val) (text : String) :
    (Ty.map elem).Val :=
  match r.parseJson text with
  | none => old
  | some j =>
    let (fresh, ok) := decode (.map elem) (zero (.map elem)) j
    if ok then fresh else old

/-- A field that is no pointer. -/
def updateValue (r : Reader) : (ty : Ty) → ty.Val → String → ty.Val
  | .string, _, text => text
  | .bool, old, text => (r.parseBool text).getD old
  | .int, old, text => updateInt r old text
  | .float, old, text => (r.parseFloat text).getD old
  | .any, old, _ => old
  | .map elem, old, text => updateMap r elem old text
  | .slice elem, old, text => unmarshal r (.slice elem) old text
  | .empty, old, text => unmarshal r .empty old text
  | .field name omitEmpty type rest, old, text =>
    unmarshal r (.field name omitEmpty type rest) old text

/-- `UnmarshalJSON` of a `RWMap`, which makes a new map first. -/
def unmarshalRWMap (r : Reader) (ty : Ty) (old : ty.Val) (text : String) : ty.Val :=
  match r.parseJson text with
  | none => old
  | some j => (decode ty (makeMap ty) j).1

def updateField (r : Reader) (f : R.Field) (text : String) (s : Mem R) : Mem R :=
  if R.pointer f then
    if text = "null" then { s with pointer := Function.update s.pointer f .nil }
    else
      match s.pointer f with
      | .shared =>
        { s with value := Function.update s.value f (unmarshalRWMap r (R.ty f) (s.value f) text) }
      | .own x =>
        { s with
          pointer := Function.update s.pointer f (.own (unmarshalRWMap r (R.ty f) x text)) }
      | .nil =>
        { s with
          pointer := Function.update s.pointer f
            (.own (unmarshalRWMap r (R.ty f) (zero (R.ty f)) text)) }
  else { s with value := Function.update s.value f (updateValue r (R.ty f) (s.value f) text) }

/-! ## `updateOptionMap` -/

/-- `LoadFromJsonString`, which makes a new map also for a text that is not JSON. -/
def loadFromJsonString (r : Reader) (ty : Ty) (text : String) : ty.Val :=
  unmarshal r ty (makeMap ty) text

def displayType (text : String) : String := if text = "true" then "USD" else "TOKENS"

/-- An option is put into `OptionMap`, from whose text alone the variables of all other options
are read. -/
def updateOptionMap (r : Reader) (s : Mem R) (name text : String) : Mem R :=
  let s := { s with optionMap := Function.update s.optionMap name (some text) }
  match R.find name with
  | some f => updateField r f text s
  | none =>
    match name with
    | "DisplayInCurrencyEnabled" => updateField r R.quotaDisplayType (displayType text) s
    | "GroupRatio" =>
      { s with
        value := Function.update s.value R.groupRatio
          (loadFromJsonString r (R.ty R.groupRatio) text) }
    | "GroupGroupRatio" =>
      { s with
        value := Function.update s.value R.groupGroupRatio
          (loadFromJsonString r (R.ty R.groupGroupRatio) text) }
    | _ => s

/-- `loadOptionsFromDatabase`, by the order in which the rows come. -/
def loadOptionsFromDatabase (r : Reader) (rows : List (String × String)) (s : Mem R) : Mem R :=
  rows.foldl (fun s row => updateOptionMap r s row.1 row.2) s

/-! ## Rows that are valid -/

/-- The text that `configToMap` writes for a value, by what it is read as. -/
def Saves (r : Reader) : (ty : Ty) → ty.Val → String → Prop
  | .string, (s : String), text => text = s
  | .bool, (b : Bool), text => r.parseBool text = some b
  | .int, (i : Int64), text => r.parseInt text = some i
  | .float, (q : ℚ), text => r.parseFloat text = some q
  | .any, _, _ => False
  | ty, v, text => r.parseJson text = some (marshal ty v)

/-- The row of a field.  No configuration that is saved has a nil `RWMap`: a pointer becomes nil
only by such a row. -/
def SavesField (r : Reader) (f : R.Field) (v : (R.ty f).Val) (text : String) : Prop :=
  Saves r (R.ty f) v text ∧ (R.pointer f = true → text ≠ "null")

/-- A row that some configuration is saved as. -/
structure ValidRow (r : Reader) (R : Registry) (name text : String) : Prop where
  field : ∀ f, R.key f = name → ∃ v, SavesField r f v text
  groupRatio : name = "GroupRatio" → ∃ v, SavesField r R.groupRatio v text
  groupGroupRatio : name = "GroupGroupRatio" → ∃ v, SavesField r R.groupGroupRatio v text

/-- The memories that loads and updates come to.  A load is one update after the other. -/
inductive Reached (r : Reader) : Mem R → Prop
  | start (s : Mem R) (shared : ∀ f, s.pointer f = .shared) : Reached r s
  | update {s : Mem R} {name text : String} (reached : Reached r s)
      (valid : ValidRow r R name text) : Reached r (updateOptionMap r s name text)

structure Process (r : Reader) (R : Registry) where
  mem : Mem R
  reached : Reached r mem

/-- The rows of the database, with the configuration that was saved. -/
structure Rows (r : Reader) (R : Registry) where
  list : List (String × String)
  nodup : (list.map Prod.fst).Nodup
  saved : (f : R.Field) → (R.ty f).Val
  field : ∀ f text, (R.key f, text) ∈ list → SavesField r f (saved f) text
  valid : ∀ row ∈ list, ValidRow r R row.1 row.2

/-! ## What is promised -/

/-- A field of a configuration; none where it is a nil pointer. -/
def Mem.config (s : Mem R) (f : R.Field) : Option (R.ty f).Val :=
  if R.pointer f then
    match s.pointer f with
    | .nil => none
    | .shared => some (s.value f)
    | .own x => some x
  else some (s.value f)

/-- The same configurations and variables, by the text that they are saved as. -/
structure Same (s t : Mem R) : Prop where
  config : ∀ f, (s.config f).map (marshal (R.ty f)) = (t.config f).map (marshal (R.ty f))
  values : ∀ f, marshal (R.ty f) (s.value f) = marshal (R.ty f) (t.value f)
  optionMap : ∀ name, s.optionMap name = t.optionMap name

def Restored {r : Reader} (rows : Rows r R) (s : Mem R) : Prop :=
  ∀ f text, (R.key f, text) ∈ rows.list →
    (s.config f).map (marshal (R.ty f)) = some (marshal (R.ty f) (rows.saved f))

/-- From both memories and in every order the rows are loaded to the same, and to what was
saved. -/
def Determined {r : Reader} (rows : Rows r R) (p q : Process r R) : Prop :=
  ∀ order order', order.Perm rows.list → order'.Perm rows.list →
    Same (loadOptionsFromDatabase r order p.mem) (loadOptionsFromDatabase r order' q.mem) ∧
      Restored rows (loadOptionsFromDatabase r order p.mem)

/-! ## When it holds -/

/-- The legacy key that is read into a field. -/
def legacyKey (f : R.Field) : Option String :=
  if f = R.quotaDisplayType then some "DisplayInCurrencyEnabled"
  else if f = R.groupRatio then some "GroupRatio"
  else if f = R.groupGroupRatio then some "GroupGroupRatio"
  else none

/-- What a legacy option stands for in its field. -/
def legacyValue (r : Reader) (f : R.Field) (text : String) : (R.ty f).Val :=
  if f = R.quotaDisplayType then updateValue r (R.ty f) (zero (R.ty f)) (displayType text)
  else loadFromJsonString r (R.ty f) text

/-- A map is made anew; of what is read in place nothing may be left. -/
def CleanField : (ty : Ty) → ty.Val → ty.Val → Prop
  | .map _, _, _ => True
  | ty, old, new => Clean ty old new

/-- Nothing is left of the old values, a legacy option says the same as the field that it is
read into, and what no row is read into is the same. -/
structure Settled {r : Reader} (rows : Rows r R) (s t : Mem R) : Prop where
  clean : ∀ f text, (R.key f, text) ∈ rows.list →
    CleanField (R.ty f) (s.value f) (rows.saved f) ∧
      CleanField (R.ty f) (t.value f) (rows.saved f)
  legacy : ∀ f text name other, (R.key f, text) ∈ rows.list → legacyKey f = some name →
    (name, other) ∈ rows.list →
    marshal (R.ty f) (legacyValue r f other) = marshal (R.ty f) (rows.saved f)
  kept : ∀ f, (∀ row ∈ rows.list, R.key f ≠ row.1 ∧ legacyKey f ≠ some row.1) →
    marshal (R.ty f) (s.value f) = marshal (R.ty f) (t.value f)
  optionMap : ∀ name, name ∉ rows.list.map Prod.fst → s.optionMap name = t.optionMap name

/-! ## One field -/

section Field

variable {r : Reader} {ty : Ty} {old new v : ty.Val} {text : String}

theorem marshal_unmarshal_iff (h : ty.WellFormed) (hjson : r.parseJson text = some (marshal ty v)) :
    marshal ty (unmarshal r ty old text) = marshal ty v ↔ Clean ty old v := by
  unfold unmarshal
  rw [hjson]
  exact (decode_marshal_iff ty h old v).2

theorem updateInt_of_some {old i : Int64} (h : r.parseInt text = some i) :
    updateInt r old text = i := by
  unfold updateInt
  rw [h]

theorem marshal_updateMap {elem : Ty} {old v : (Ty.map elem).Val} (h : elem.WellFormed)
    (hjson : r.parseJson text = some (marshal (.map elem) v)) :
    marshal (.map elem) (updateMap r elem old text) = marshal (.map elem) v := by
  obtain ⟨hok, hread⟩ := decode_marshal_iff (.map elem) h (zero (.map elem)) v
  unfold updateMap
  rw [hjson]
  dsimp only
  rw [if_pos hok]
  exact hread.mpr (clean_zero (.map elem) v)

theorem getD_of_some {α : Type} {o : Option α} {x y : α} (h : o = some x) : o.getD y = x := by
  rw [h, Option.getD_some]

/-- A field that is no pointer has the value that was saved exactly if nothing is left of the
old one. -/
theorem marshal_updateValue_iff (h : ty.WellFormed) (hsaves : Saves r ty v text) :
    marshal ty (updateValue r ty old text) = marshal ty v ↔ CleanField ty old v := by
  cases ty with
  | string =>
    refine iff_of_true ?_ trivial
    exact congrArg Json.string hsaves
  | bool =>
    refine iff_of_true ?_ trivial
    exact congrArg Json.bool (getD_of_some hsaves)
  | int =>
    refine iff_of_true ?_ trivial
    exact congrArg (marshal .int) (updateInt_of_some hsaves)
  | float =>
    refine iff_of_true ?_ trivial
    exact congrArg Json.number (getD_of_some hsaves)
  | any => cases hsaves
  | slice elem => exact marshal_unmarshal_iff h hsaves
  | map elem => exact iff_of_true (marshal_updateMap h hsaves) trivial
  | empty => exact marshal_unmarshal_iff h hsaves
  | field name omitEmpty type rest => exact marshal_unmarshal_iff h hsaves

theorem clean_makeMap (elem : Ty) (v : (Ty.map elem).Val) :
    Clean (.map elem) (makeMap (.map elem)) v := by
  cases v with
  | none => trivial
  | some m => exact nofun

/-- A `RWMap` is always read into a new map. -/
theorem marshal_unmarshalRWMap (h : ty.WellFormed) (hmap : ∃ elem, ty = .map elem)
    (hsaves : Saves r ty v text) :
    marshal ty (unmarshalRWMap r ty old text) = marshal ty v := by
  obtain ⟨elem, rfl⟩ := hmap
  have hjson : r.parseJson text = some (marshal (.map elem) v) := hsaves
  unfold unmarshalRWMap
  rw [hjson]
  exact (decode_marshal_iff (.map elem) h _ v).2.mpr (clean_makeMap elem v)

theorem cleanField_map (hmap : ∃ elem, ty = .map elem) : CleanField ty old new := by
  obtain ⟨elem, rfl⟩ := hmap
  trivial

theorem cleanField_string (h : ty = .string) : CleanField ty old new := by
  subst h
  trivial

theorem updateValue_string (h : ty = .string) :
    updateValue r ty old text = updateValue r ty new text := by
  subst h
  rfl

end Field

/-! ## One row -/

variable {r : Reader} {s t : Mem R} {f g : R.Field} {name text : String}
  {row : String × String} {rows : List (String × String)}

/-- What the row of a field makes of it, where its pointer is shared. -/
def setField (r : Reader) (f : R.Field) (old : (R.ty f).Val) (text : String) : (R.ty f).Val :=
  if R.pointer f then unmarshalRWMap r (R.ty f) old text else updateValue r (R.ty f) old text

/-- What any row makes of a field. -/
def write (r : Reader) (f : R.Field) (old : (R.ty f).Val) (row : String × String) :
    (R.ty f).Val :=
  if R.key f = row.1 then setField r f old row.2
  else if legacyKey f = some row.1 then legacyValue r f row.2
  else old

def Writes (f : R.Field) (row : String × String) : Prop :=
  R.key f = row.1 ∨ legacyKey f = some row.1

def Shared (s : Mem R) : Prop := ∀ f, s.pointer f = .shared

/-- The row of a field restores it exactly if nothing is left of the old value. -/
theorem marshal_setField_iff {old v : (R.ty f).Val} (h : SavesField r f v text) :
    marshal (R.ty f) (setField r f old text) = marshal (R.ty f) v ↔
      CleanField (R.ty f) old v := by
  unfold setField
  split
  · rename_i hpointer
    have hmap := R.pointer_map f hpointer
    exact iff_of_true (marshal_unmarshalRWMap (R.wellFormed f) hmap h.1) (cleanField_map hmap)
  · exact marshal_updateValue_iff (R.wellFormed f) h.1

theorem key_injective (h : R.key f = R.key g) : f = g := by
  have hf := (R.find_iff (R.key g) f).mpr h
  have hg := (R.find_iff (R.key g) g).mpr rfl
  rw [hf] at hg
  exact Option.some.inj hg

theorem legacyKey_cases (h : legacyKey f = some name) :
    f = R.quotaDisplayType ∧ name = "DisplayInCurrencyEnabled" ∨
      f = R.groupRatio ∧ name = "GroupRatio" ∨
      f = R.groupGroupRatio ∧ name = "GroupGroupRatio" := by
  unfold legacyKey at h
  split at h
  · exact .inl ⟨‹_›, (Option.some.inj h).symm⟩
  split at h
  · exact .inr (.inl ⟨‹_›, (Option.some.inj h).symm⟩)
  split at h
  · exact .inr (.inr ⟨‹_›, (Option.some.inj h).symm⟩)
  · cases h

theorem legacyKey_mem (h : legacyKey f = some name) :
    name ∈ ["DisplayInCurrencyEnabled", "GroupRatio", "GroupGroupRatio"] := by
  rcases legacyKey_cases h with ⟨-, rfl⟩ | ⟨-, rfl⟩ | ⟨-, rfl⟩
  all_goals decide

theorem eq_of_legacyKey (hf : legacyKey f = some name) (hg : legacyKey g = some name) : f = g := by
  rcases legacyKey_cases hf with ⟨rfl, rfl⟩ | ⟨rfl, rfl⟩ | ⟨rfl, rfl⟩
  all_goals rcases legacyKey_cases hg with ⟨rfl, h⟩ | ⟨rfl, h⟩ | ⟨rfl, h⟩
  all_goals first | rfl | exact absurd h (by decide)

/-- A legacy key is not the key of a field. -/
theorem key_ne_legacyKey (h : legacyKey f = some name) (g : R.Field) : R.key g ≠ name := by
  intro heq
  have hnone := R.legacy_find name (legacyKey_mem h)
  rw [(R.find_iff name g).mpr heq] at hnone
  cases hnone

/-- A field with a legacy key is never read in place. -/
theorem cleanField_of_legacyKey (h : legacyKey f = some name) (old new : (R.ty f).Val) :
    CleanField (R.ty f) old new := by
  rcases legacyKey_cases h with ⟨rfl, -⟩ | ⟨rfl, -⟩ | ⟨rfl, -⟩
  · exact cleanField_string R.quotaDisplayType_ty
  · exact cleanField_map (R.pointer_map _ R.groupRatio_pointer)
  · exact cleanField_map (R.pointer_map _ R.groupGroupRatio_pointer)

/-- A row of a field is read into this field only. -/
theorem updateField_spec (text : String) (hs : Shared s)
    (hnull : R.pointer g = true → text ≠ "null") :
    Shared (updateField r g text s) ∧
      (updateField r g text s).value = Function.update s.value g (setField r g (s.value g) text) ∧
      (updateField r g text s).optionMap = s.optionMap := by
  unfold updateField setField
  by_cases hpointer : R.pointer g = true
  · rw [if_pos hpointer, if_neg (hnull hpointer), if_pos hpointer, hs g]
    exact ⟨hs, rfl, rfl⟩
  · rw [if_neg hpointer, if_neg hpointer]
    exact ⟨hs, rfl, rfl⟩

theorem legacyKey_quotaDisplayType : legacyKey R.quotaDisplayType =
    some "DisplayInCurrencyEnabled" := if_pos rfl

theorem quotaDisplayType_ne (h : R.pointer f = true) : f ≠ R.quotaDisplayType := by
  rintro rfl
  rw [R.quotaDisplayType_pointer] at h
  cases h

theorem legacyKey_groupRatio : legacyKey R.groupRatio = some "GroupRatio" := by
  unfold legacyKey
  rw [if_neg (quotaDisplayType_ne R.groupRatio_pointer), if_pos rfl]

theorem legacyKey_groupGroupRatio : legacyKey R.groupGroupRatio = some "GroupGroupRatio" := by
  unfold legacyKey
  rw [if_neg (quotaDisplayType_ne R.groupGroupRatio_pointer), if_neg R.groups_ne.symm, if_pos rfl]

theorem write_of_key {old : (R.ty f).Val} (h : R.key f = row.1) :
    write r f old row = setField r f old row.2 := if_pos h

theorem write_of_legacyKey {old : (R.ty f).Val} (h : legacyKey f = some row.1) :
    write r f old row = legacyValue r f row.2 := by
  unfold write
  rw [if_neg (key_ne_legacyKey h f), if_pos h]

theorem write_of_not {old : (R.ty f).Val} (h : ¬ Writes f row) : write r f old row = old := by
  unfold write
  rw [if_neg fun hkey => h (.inl hkey), if_neg fun hkey => h (.inr hkey)]

/-- One field is set, and it is the one that the row is read into. -/
theorem update_eq_write (hwrites : ∀ f, Writes f row → f = g)
    {x : (R.ty g).Val} (hx : write r g (s.value g) row = x) (f : R.Field) :
    Function.update s.value g x f = write r f (s.value f) row := by
  by_cases hfg : f = g
  · subst hfg
    rw [Function.update_self, hx]
  · rw [Function.update_of_ne hfg, write_of_not fun h => hfg (hwrites f h)]

/-- **What a row does**: it is read into the field that it writes, into `OptionMap`, and
nowhere else. -/
theorem updateOptionMap_spec (hs : Shared s) (hvalid : ValidRow r R name text) :
    Shared (updateOptionMap r s name text) ∧
      (∀ f, (updateOptionMap r s name text).value f = write r f (s.value f) (name, text)) ∧
      (updateOptionMap r s name text).optionMap = Function.update s.optionMap name (some text) := by
  unfold updateOptionMap
  dsimp only
  cases hfind : R.find name with
  | some g =>
    have hkey := (R.find_iff name g).mp hfind
    obtain ⟨v, hsaves⟩ := hvalid.field g hkey
    obtain ⟨hshared, hvalue, hmap⟩ := updateField_spec text
      (s := { s with optionMap := Function.update s.optionMap name (some text) }) hs hsaves.2
    refine ⟨hshared, fun f => ?_, hmap⟩
    rw [hvalue]
    refine update_eq_write (fun f hf => ?_) ?_ f
    · rcases hf with hf | hf
      · exact key_injective (hf.trans hkey.symm)
      · exact absurd hkey (key_ne_legacyKey hf g)
    · exact write_of_key hkey
  | none =>
    have hlegacy : ∀ f : R.Field, Writes f (name, text) → legacyKey f = some name := by
      rintro f (hf | hf)
      · rw [(R.find_iff name f).mpr hf] at hfind
        cases hfind
      · exact hf
    dsimp only
    split
    · obtain ⟨hshared, hvalue, hmap⟩ := updateField_spec (displayType text)
        (s := { s with
          optionMap := Function.update s.optionMap "DisplayInCurrencyEnabled" (some text) }) hs
        fun h => absurd rfl (quotaDisplayType_ne h)
      refine ⟨hshared, fun f => ?_, hmap⟩
      rw [hvalue]
      refine update_eq_write
        (fun f hf => eq_of_legacyKey (hlegacy f hf) legacyKey_quotaDisplayType) ?_ f
      rw [write_of_legacyKey legacyKey_quotaDisplayType, legacyValue, if_pos rfl, setField,
        if_neg (by rw [R.quotaDisplayType_pointer]; exact Bool.false_ne_true)]
      exact updateValue_string R.quotaDisplayType_ty
    · refine ⟨hs, fun f => ?_, rfl⟩
      refine update_eq_write
        (fun f hf => eq_of_legacyKey (hlegacy f hf) legacyKey_groupRatio) ?_ f
      rw [write_of_legacyKey legacyKey_groupRatio, legacyValue,
        if_neg (quotaDisplayType_ne R.groupRatio_pointer)]
    · refine ⟨hs, fun f => ?_, rfl⟩
      refine update_eq_write
        (fun f hf => eq_of_legacyKey (hlegacy f hf) legacyKey_groupGroupRatio) ?_ f
      rw [write_of_legacyKey legacyKey_groupGroupRatio, legacyValue,
        if_neg (quotaDisplayType_ne R.groupGroupRatio_pointer)]
    · rename_i hdisplay hgroup hgroups
      refine ⟨hs, fun f => (write_of_not fun hf => ?_).symm, rfl⟩
      rcases legacyKey_cases (hlegacy f hf) with ⟨-, h⟩ | ⟨-, h⟩ | ⟨-, h⟩
      · exact hdisplay h
      · exact hgroup h
      · exact hgroups h

theorem shared_of_reached (h : Reached r s) : Shared s := by
  induction h with
  | start s shared => exact shared
  | update _ valid ih => exact (updateOptionMap_spec ih valid).1

/-! ## A load -/

/-- What a load does to each field, row after row. -/
theorem load_spec (hs : Shared s) (hvalid : ∀ row ∈ rows, ValidRow r R row.1 row.2) :
    Shared (loadOptionsFromDatabase r rows s) ∧
      (∀ f, (loadOptionsFromDatabase r rows s).value f =
        rows.foldl (write r f) (s.value f)) ∧
      ∀ name, (loadOptionsFromDatabase r rows s).optionMap name =
        (rows.reverse.lookup name).or (s.optionMap name) := by
  induction rows generalizing s with
  | nil => exact ⟨hs, fun _ => rfl, fun _ => rfl⟩
  | cons row rows ih =>
    rw [List.forall_mem_cons] at hvalid
    obtain ⟨hshared, hvalue, hmap⟩ := updateOptionMap_spec hs hvalid.1
    obtain ⟨hshareds, hvalues, hmaps⟩ := ih hshared hvalid.2
    refine ⟨hshareds, fun f => ?_, fun name => ?_⟩
    · show (loadOptionsFromDatabase r rows (updateOptionMap r s row.1 row.2)).value f = _
      rw [hvalues, hvalue, List.foldl_cons]
    · show (loadOptionsFromDatabase r rows (updateOptionMap r s row.1 row.2)).optionMap name = _
      rw [hmaps, hmap, List.reverse_cons, List.lookup_append]
      by_cases hname : name = row.1
      · subst hname
        rw [Function.update_self, List.lookup_cons_self, Option.or_assoc, Option.some_or]
      · have hne : (name == row.1) = false := by simp [hname]
        rw [Function.update_of_ne hname, List.lookup_cons, hne, List.lookup_nil, Option.or_none]

/-- A field that no row is read into stays as it is. -/
theorem foldl_write_of_not {old : (R.ty f).Val} (h : ∀ row ∈ rows, ¬ Writes f row) :
    rows.foldl (write r f) old = old := by
  induction rows generalizing old with
  | nil => rfl
  | cons row rows ih =>
    rw [List.forall_mem_cons] at h
    rw [List.foldl_cons, write_of_not h.1, ih h.2]

/-- A field that one row is read into has what this row makes of it. -/
theorem foldl_write_of_unique {old : (R.ty f).Val} (hrow : row ∈ rows)
    (hnodup : (rows.map Prod.fst).Nodup)
    (h : ∀ other ∈ rows, other.1 ≠ row.1 → ¬ Writes f other) :
    rows.foldl (write r f) old = write r f old row := by
  obtain ⟨before, after, rfl⟩ := List.append_of_mem hrow
  rw [List.map_append, List.map_cons, List.nodup_append, List.nodup_cons] at hnodup
  obtain ⟨-, ⟨hafter, -⟩, hbefore⟩ := hnodup
  have hnot : ∀ other ∈ before, ¬ Writes f other := fun other hmem =>
    h other (List.mem_append_left _ hmem)
      (hbefore other.1 (List.mem_map_of_mem hmem) row.1 List.mem_cons_self)
  have hnot' : ∀ other ∈ after, ¬ Writes f other := by
    intro other hmem
    refine h other (List.mem_append_right _ (List.mem_cons_of_mem _ hmem)) fun heq => hafter ?_
    rw [← heq]
    exact List.mem_map_of_mem hmem
  rw [List.foldl_append, foldl_write_of_not hnot, List.foldl_cons, foldl_write_of_not hnot']

/-- Where all rows that are read into a field make the same of it, so does the load. -/
theorem marshal_foldl_write {target : Json} {old : (R.ty f).Val}
    (h : ∀ row ∈ rows, Writes f row → ∀ old, marshal (R.ty f) (write r f old row) = target)
    (hsome : marshal (R.ty f) old = target ∨ ∃ row ∈ rows, Writes f row) :
    marshal (R.ty f) (rows.foldl (write r f) old) = target := by
  induction rows generalizing old with
  | nil =>
    rcases hsome with hold | ⟨row, hrow, -⟩
    · exact hold
    · cases hrow
  | cons row rows ih =>
    rw [List.forall_mem_cons] at h
    rw [List.foldl_cons]
    by_cases hwrites : Writes f row
    · exact ih h.2 (.inl (h.1 hwrites old))
    · rw [write_of_not hwrites]
      refine ih h.2 (hsome.imp_right ?_)
      rintro ⟨row', hmem, hwrites'⟩
      rcases List.mem_cons.mp hmem with rfl | htail
      · exact absurd hwrites' hwrites
      · exact ⟨row', htail, hwrites'⟩

/-! ## When a load is determined by the rows -/

theorem config_of_shared (hs : Shared s) (f : R.Field) : s.config f = some (s.value f) := by
  unfold Mem.config
  rw [hs f]
  exact ite_self _

variable {stored : Rows r R} {order : List (String × String)}

theorem valid_of_perm (h : order.Perm stored.list) : ∀ row ∈ order, ValidRow r R row.1 row.2 :=
  fun row hrow => stored.valid row (h.mem_iff.mp hrow)

theorem nodup_of_perm (h : order.Perm stored.list) : (order.map Prod.fst).Nodup :=
  (h.map Prod.fst).nodup_iff.mpr stored.nodup

/-- A field that has a row comes to the value that was saved exactly if nothing is left of the
old one, where no legacy row is read into it. -/
theorem marshal_load_iff (hs : Shared s) (horder : order.Perm stored.list)
    (hrow : (R.key f, text) ∈ stored.list)
    (hlegacy : ∀ name other, legacyKey f = some name → (name, other) ∉ stored.list) :
    marshal (R.ty f) ((loadOptionsFromDatabase r order s).value f) =
        marshal (R.ty f) (stored.saved f) ↔
      CleanField (R.ty f) (s.value f) (stored.saved f) := by
  have honly : ∀ other ∈ order, other.1 ≠ R.key f → ¬ Writes f other := by
    rintro other hother hne (hkey | hkey)
    · exact hne hkey.symm
    · exact hlegacy other.1 other.2 hkey (horder.mem_iff.mp hother)
  have hwrite : write r f (s.value f) (R.key f, text) = setField r f (s.value f) text :=
    write_of_key rfl
  rw [(load_spec hs (valid_of_perm horder)).2.1,
    foldl_write_of_unique (horder.mem_iff.mpr hrow) (nodup_of_perm horder) honly, hwrite]
  exact marshal_setField_iff (stored.field f text hrow)

/-- A field that has a row comes to the value that was saved, where the legacy rows say the
same. -/
theorem marshal_load_of_settled (hs : Shared s) (horder : order.Perm stored.list)
    (hrow : (R.key f, text) ∈ stored.list)
    (hclean : CleanField (R.ty f) (s.value f) (stored.saved f))
    (hagree : ∀ name other, legacyKey f = some name → (name, other) ∈ stored.list →
      marshal (R.ty f) (legacyValue r f other) = marshal (R.ty f) (stored.saved f)) :
    marshal (R.ty f) ((loadOptionsFromDatabase r order s).value f) =
      marshal (R.ty f) (stored.saved f) := by
  by_cases hlegacy : ∃ name other, legacyKey f = some name ∧ (name, other) ∈ stored.list
  · obtain ⟨name, other, hkey, -⟩ := hlegacy
    rw [(load_spec hs (valid_of_perm horder)).2.1]
    refine marshal_foldl_write (fun row hmem hwrites old => ?_)
      (.inr ⟨_, horder.mem_iff.mpr hrow, .inl rfl⟩)
    have hmem' := horder.mem_iff.mp hmem
    rcases hwrites with hown | hown
    · rw [write_of_key hown]
      have htext : (R.key f, row.2) ∈ stored.list := by
        rw [hown]
        exact hmem'
      exact (marshal_setField_iff (stored.field f row.2 htext)).mpr
        (cleanField_of_legacyKey hkey _ _)
    · rw [write_of_legacyKey hown]
      exact hagree row.1 row.2 hown hmem'
  · refine (marshal_load_iff hs horder hrow fun name other hkey hmem => ?_).mpr hclean
    exact hlegacy ⟨name, other, hkey, hmem⟩

/-- A field with a legacy row only comes to what this row stands for. -/
theorem load_of_legacy (hs : Shared s) (horder : order.Perm stored.list) {other : String}
    (hkey : legacyKey f = some name) (hmem : (name, other) ∈ stored.list)
    (hnone : ∀ text, (R.key f, text) ∉ stored.list) :
    (loadOptionsFromDatabase r order s).value f = legacyValue r f other := by
  have honly : ∀ row ∈ order, row.1 ≠ name → ¬ Writes f row := by
    rintro row hrow hne (hown | hown)
    · refine hnone row.2 ?_
      rw [hown]
      exact horder.mem_iff.mp hrow
    · rw [hkey] at hown
      exact hne (Option.some.inj hown).symm
  have hwrite : write r f (s.value f) (name, other) = legacyValue r f other :=
    write_of_legacyKey hkey
  rw [(load_spec hs (valid_of_perm horder)).2.1,
    foldl_write_of_unique (horder.mem_iff.mpr hmem) (nodup_of_perm horder) honly, hwrite]

theorem load_of_not_written (hs : Shared s) (horder : order.Perm stored.list)
    (h : ∀ row ∈ stored.list, R.key f ≠ row.1 ∧ legacyKey f ≠ some row.1) :
    (loadOptionsFromDatabase r order s).value f = s.value f := by
  rw [(load_spec hs (valid_of_perm horder)).2.1]
  refine foldl_write_of_not fun row hrow hwrites => ?_
  obtain ⟨hkey, hlegacy⟩ := h row (horder.mem_iff.mp hrow)
  rcases hwrites with hown | hown
  · exact hkey hown
  · exact hlegacy hown

theorem optionMap_load (hs : Shared s) (horder : order.Perm stored.list) (name : String) :
    (loadOptionsFromDatabase r order s).optionMap name =
      (stored.list.lookup name).or (s.optionMap name) := by
  have hlookup : order.reverse.lookup name = stored.list.lookup name := by
    have hperm : order.reverse.Perm stored.list := (List.reverse_perm order).trans horder
    apply Option.ext
    intro text
    rw [← GoMap.mem_iff_lookup (nodup_of_perm hperm), ← GoMap.mem_iff_lookup stored.nodup]
    exact hperm.mem_iff
  rw [(load_spec hs (valid_of_perm horder)).2.2, hlookup]

/-- The rows in an order with one of them last. -/
theorem exists_last (h : row ∈ stored.list) :
    ∃ before, (before ++ [row]).Perm stored.list := by
  obtain ⟨before, after, heq⟩ := List.append_of_mem h
  refine ⟨before ++ after, ?_⟩
  rw [heq, List.append_assoc]
  exact List.Perm.append_left before (List.perm_append_singleton row after)

/-- With the legacy row last, it is what is left in the field. -/
theorem load_legacy_last (hs : Shared s) {before : List (String × String)} {other : String}
    (horder : (before ++ [(name, other)]).Perm stored.list) (hkey : legacyKey f = some name) :
    (loadOptionsFromDatabase r (before ++ [(name, other)]) s).value f = legacyValue r f other := by
  rw [(load_spec hs (valid_of_perm horder)).2.1, List.foldl_append, List.foldl_cons, List.foldl_nil]
  exact write_of_legacyKey hkey

theorem settled_of_determined {p q : Process r R} (h : Determined stored p q) :
    Settled stored p.mem q.mem := by
  have hp := shared_of_reached p.reached
  have hq := shared_of_reached q.reached
  obtain ⟨hsame, hrestored⟩ := h stored.list stored.list (.refl _) (.refl _)
  refine ⟨fun f text hrow => ?_, fun f text name other hrow hkey hmem => ?_, fun f hnot => ?_,
    fun name hname => ?_⟩
  · by_cases hlegacy : ∃ name other, legacyKey f = some name ∧ (name, other) ∈ stored.list
    · obtain ⟨name, other, hkey, -⟩ := hlegacy
      exact ⟨cleanField_of_legacyKey hkey _ _, cleanField_of_legacyKey hkey _ _⟩
    · have hnone : ∀ name other, legacyKey f = some name → (name, other) ∉ stored.list :=
        fun name other hkey hmem => hlegacy ⟨name, other, hkey, hmem⟩
      have hvalue := hrestored f text hrow
      rw [config_of_shared (load_spec hp stored.valid).1, Option.map_some] at hvalue
      have hvalue' := Option.some.inj hvalue
      refine ⟨(marshal_load_iff hp (.refl _) hrow hnone).mp hvalue',
        (marshal_load_iff hq (.refl _) hrow hnone).mp ?_⟩
      rw [← hsame.values f]
      exact hvalue'
  · obtain ⟨before, horder⟩ := exists_last hmem
    have hvalue := (h _ _ horder horder).2 f text hrow
    rw [config_of_shared (load_spec hp (valid_of_perm horder)).1, Option.map_some,
      load_legacy_last hp horder hkey] at hvalue
    exact Option.some.inj hvalue
  · have hvalue := hsame.values f
    rw [load_of_not_written hp (.refl _) hnot, load_of_not_written hq (.refl _) hnot] at hvalue
    exact hvalue
  · have hmap := hsame.optionMap name
    rw [optionMap_load hp (.refl _), optionMap_load hq (.refl _), GoMap.lookup_eq_none hname,
      Option.none_or, Option.none_or] at hmap
    exact hmap

theorem same_of_settled {p q : Process r R} (h : Settled stored p.mem q.mem)
    {order order' : List (String × String)} (horder : order.Perm stored.list)
    (horder' : order'.Perm stored.list) :
    Same (loadOptionsFromDatabase r order p.mem) (loadOptionsFromDatabase r order' q.mem) := by
  have hp := shared_of_reached p.reached
  have hq := shared_of_reached q.reached
  have hvalues : ∀ f, marshal (R.ty f) ((loadOptionsFromDatabase r order p.mem).value f) =
      marshal (R.ty f) ((loadOptionsFromDatabase r order' q.mem).value f) := by
    intro f
    by_cases hrow : ∃ text, (R.key f, text) ∈ stored.list
    · obtain ⟨text, hrow⟩ := hrow
      have hagree := fun name other => h.legacy f text name other hrow
      obtain ⟨hcleanp, hcleanq⟩ := h.clean f text hrow
      rw [marshal_load_of_settled hp horder hrow hcleanp hagree,
        marshal_load_of_settled hq horder' hrow hcleanq hagree]
    have hnone : ∀ text, (R.key f, text) ∉ stored.list := fun text hmem => hrow ⟨text, hmem⟩
    by_cases hlegacy : ∃ name other, legacyKey f = some name ∧ (name, other) ∈ stored.list
    · obtain ⟨name, other, hkey, hmem⟩ := hlegacy
      rw [load_of_legacy hp horder hkey hmem hnone, load_of_legacy hq horder' hkey hmem hnone]
    · have hnot : ∀ row ∈ stored.list, R.key f ≠ row.1 ∧ legacyKey f ≠ some row.1 := by
        refine fun row hmem => ⟨fun hkey => hnone row.2 ?_, fun hkey => ?_⟩
        · rw [hkey]
          exact hmem
        · exact hlegacy ⟨row.1, row.2, hkey, hmem⟩
      rw [load_of_not_written hp horder hnot, load_of_not_written hq horder' hnot]
      exact h.kept f hnot
  refine ⟨fun f => ?_, hvalues, fun name => ?_⟩
  · rw [config_of_shared (load_spec hp (valid_of_perm horder)).1,
      config_of_shared (load_spec hq (valid_of_perm horder')).1, Option.map_some, Option.map_some,
      hvalues f]
  · rw [optionMap_load hp horder, optionMap_load hq horder']
    by_cases hname : name ∈ stored.list.map Prod.fst
    · obtain ⟨row, hrow, rfl⟩ := List.mem_map.mp hname
      rw [(GoMap.mem_iff_lookup stored.nodup).mp hrow, Option.some_or, Option.some_or]
    · rw [h.optionMap name hname]

/-- **When a load is determined by the rows.**  From two memories that loads and updates have
come to, in every order of the rows, a load ends the same and with what was saved exactly if
nothing is left of the old values, the legacy rows say the same as the rows of the fields, and
the memories agree on what has no row. -/
theorem load_determined_iff (r : Reader) (R : Registry) (stored : Rows r R)
    (p q : Process r R) : Determined stored p q ↔ Settled stored p.mem q.mem := by
  constructor
  · exact settled_of_determined
  · intro h order order' horder horder'
    refine ⟨same_of_settled h horder horder', fun f text hrow => ?_⟩
    have hp := shared_of_reached p.reached
    rw [config_of_shared (load_spec hp (valid_of_perm horder)).1, Option.map_some]
    exact congrArg some (marshal_load_of_settled hp horder hrow (h.clean f text hrow).1
      fun name other => h.legacy f text name other hrow)

/-! ## A rule that keeps the user agents of an older one -/

inductive SampleField
  | rules
  | quotaDisplayType
  | groupRatio
  | groupGroupRatio
  deriving DecidableEq

def sampleKey : SampleField → String
  | .rules => "channel_affinity_setting.rules"
  | .quotaDisplayType => "general_setting.quota_display_type"
  | .groupRatio => "group_ratio_setting.group_ratio"
  | .groupGroupRatio => "group_ratio_setting.group_group_ratio"

def sampleFind (name : String) : Option SampleField :=
  [.rules, .quotaDisplayType, .groupRatio, .groupGroupRatio].find? fun f => sampleKey f = name

/-- The rules, as far as their names and user agents. -/
def rulesTy : Ty :=
  .slice (.field "name" false .string
    (.field "user_agent_include" true (.slice .string) .empty))

def sampleTy : SampleField → Ty
  | .rules => rulesTy
  | .quotaDisplayType => .string
  | .groupRatio => .map .float
  | .groupGroupRatio => .map (.map .float)

theorem sampleFind_iff (name : String) (f : SampleField) :
    sampleFind name = some f ↔ sampleKey f = name := by
  constructor
  · intro h
    unfold sampleFind at h
    exact of_decide_eq_true (List.find?_some (p := fun f => decide (sampleKey f = name)) h)
  · rintro rfl
    cases f
    all_goals decide

def sampleRegistry : Registry where
  Field := SampleField
  decEq := inferInstance
  key := sampleKey
  find := sampleFind
  find_iff := sampleFind_iff
  ty := sampleTy
  wellFormed := by
    intro f
    cases f
    all_goals simp [sampleTy, rulesTy, Ty.WellFormed, Ty.IsStruct, Ty.names]
  pointer := fun f => f = .groupRatio || f = .groupGroupRatio
  pointer_map := by
    intro f h
    cases f
    · cases h
    · cases h
    · exact ⟨_, rfl⟩
    · exact ⟨_, rfl⟩
  quotaDisplayType := .quotaDisplayType
  groupRatio := .groupRatio
  groupGroupRatio := .groupGroupRatio
  quotaDisplayType_ty := rfl
  quotaDisplayType_pointer := rfl
  groupRatio_pointer := rfl
  groupGroupRatio_pointer := rfl
  groups_ne := by decide
  legacy_find := by decide

/-- Rules with and without user agents. -/
def rules (userAgents : List String) : rulesTy.Val :=
  (some ⟨[("codex", (some ⟨userAgents, []⟩ : Option (Slice String)), ())], []⟩ :
    Option (Slice (String × Option (Slice String) × Unit)))

def oldText : String := "[\x7b\"name\":\"codex\",\"user_agent_include\":[\"cli\"]\x7d]"

def newText : String := "[\x7b\"name\":\"codex\"\x7d]"

def sampleReader : Reader where
  parseBool := fun _ => none
  parseInt := fun _ => none
  parseFloat := fun _ => none
  parseJson := fun text =>
    if text = oldText then some (marshal rulesTy (rules ["cli"]))
    else if text = newText then some (marshal rulesTy (rules []))
    else none

theorem validRow_rules {text : String} {v : rulesTy.Val}
    (h : sampleReader.parseJson text = some (marshal rulesTy v)) :
    ValidRow sampleReader sampleRegistry "channel_affinity_setting.rules" text where
  field := by
    intro f hf
    cases key_injective (R := sampleRegistry) (g := SampleField.rules) hf
    exact ⟨v, h, nofun⟩
  groupRatio := fun h => absurd h (by decide)
  groupGroupRatio := fun h => absurd h (by decide)

def sampleStart : Mem sampleRegistry where
  optionMap := fun _ => none
  value := fun f => zero (sampleTy f)
  pointer := fun _ => .shared

theorem parseJson_oldText :
    sampleReader.parseJson oldText = some (marshal rulesTy (rules ["cli"])) := rfl

theorem parseJson_newText :
    sampleReader.parseJson newText = some (marshal rulesTy (rules [])) := rfl

/-- A process that has loaded the older rule. -/
def sampleProcess : Process sampleReader sampleRegistry where
  mem := updateOptionMap sampleReader sampleStart "channel_affinity_setting.rules" oldText
  reached := .update (.start sampleStart fun _ => rfl) (validRow_rules parseJson_oldText)

/-- The row of the newer rule. -/
def sampleRows : Rows sampleReader sampleRegistry where
  list := [("channel_affinity_setting.rules", newText)]
  nodup := by decide
  saved := fun f => match f with
    | .rules => rules []
    | f => zero (sampleTy f)
  field := by
    intro f text hrow
    obtain ⟨hkey, rfl⟩ := Prod.mk.inj (List.mem_singleton.mp hrow)
    cases key_injective (R := sampleRegistry) (g := SampleField.rules) hkey
    exact ⟨parseJson_newText, nofun⟩
  valid := by
    intro row hrow
    rw [List.mem_singleton.mp hrow]
    exact validRow_rules parseJson_newText

/-- The user agents of the older rule are in the newer one. -/
theorem older_user_agents_survive : ¬ Determined sampleRows sampleProcess sampleProcess := by
  intro h
  obtain ⟨-, hrestored⟩ := h sampleRows.list sampleRows.list (.refl _) (.refl _)
  have hvalue := Option.some.inj (hrestored SampleField.rules newText List.mem_cons_self)
  have hloaded : marshal rulesTy (rules ["cli"]) = marshal rulesTy (rules []) := hvalue
  have hlength := congrArg (fun j => j.depth) hloaded
  exact absurd hlength (by decide)

end Setting.LoadedConfig
