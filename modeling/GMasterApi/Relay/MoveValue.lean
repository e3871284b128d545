import GMasterApi.Lib.Binary64
import GMasterApi.Lib.JsonMove
import GMasterApi.Relay.HeaderOverride
import GMasterApi.Relay.WildcardPaths

/-!
# `move`

A value is moved by being set at its new place and removed, in the value that this has left, at
its old one.  It is lost where the new place is the old one or below it, and where a list moves up
under it; all else stays (`moved_iff`).  A header is not removed if its name stays.
-/

namespace Override.MoveValue

open GoString JsonValue WildcardPaths

/-! ## `gjson` and `sjson` -/

/-- What is found, or set, by a path that is no place. -/
structure Sjson where
  creation : Creation
  find : Json → String → Option Json
  setElsewhere : Json → String → Json → Except String Json

/-- `Value()`: numbers are read as floats. -/
def valueOf (x : Json) : Except String Json :=
  match x.mapNumbers Binary64.reprint with
  | some value => .ok value
  | none => .error "json: unsupported value: +Inf"

def Sjson.getBytes (sjson : Sjson) (data : Json) (path : String) : Option Json :=
  match readPath path with
  | some keys => data.at keys
  | none => sjson.find data path

def Sjson.setBytes (sjson : Sjson) (data : Json) (path : String) (value : Json) :
    Except String Json :=
  match readPath path with
  | some keys => (valueOf value).bind fun value => setAt sjson.creation value keys data
  | none => sjson.setElsewhere data path value

def deleteBytes (data : Json) (path : String) : Except String Json :=
  match readPath path with
  | some keys => .ok (deleteAt keys data)
  | none => .error "cannot delete value from a complex path"

/-! ## `moveValue` -/

def moveValue (sjson : Sjson) (data : Json) (fromPath toPath : String) : Except String Json :=
  match sjson.getBytes data fromPath with
  | none => .error ("source path does not exist: " ++ fromPath)
  | some sourceValue =>
    match sjson.setBytes data toPath sourceValue with
    | .error e => .error e
    | .ok result => deleteBytes result fromPath

/-! ## What is promised -/

/-- A path of a place; `-1`, which appends to a list, is not part of one. -/
structure Place where
  path : String
  keys : List String
  read : readPath path = some keys
  no_append : "-1" ∉ keys

/-- What was at a path is at a place, and all that is apart from both is where it was, or has moved
up in a list. -/
structure Moved (sjson : Sjson) (data : Json) (fromPath : String) (target : Place) (result : Json) :
    Prop where
  present : sjson.getBytes data fromPath = sjson.getBytes result target.path
  unchanged : ∀ keys, readPath fromPath = some keys → ∀ place value, data.at place = some value →
    Apart data keys place → Apart data target.keys place →
      result.at (after data keys place) = some value

/-- A header is moved to a name that is the same but for its case. -/
structure HeaderMoved (engine : Engine) (context context' : OverrideContext)
    (fromHeader toHeader : String) : Prop where
  present : getHeaderValueFromContext engine context fromHeader =
    getHeaderValueFromContext engine context' toHeader
  unchanged : context'.requestHeaders = context.requestHeaders ∧
    ∀ name, name ≠ normalizeHeaderContextKey engine fromHeader →
      context'.headerOverride.get name = context.headerOverride.get name

/-- The value keeps what it is at its new place. -/
def Kept (data : Json) (fromPath : String) (target : Place) : Prop :=
  ∃ keys x y, readPath fromPath = some keys ∧ data.at keys = some x ∧
    x.mapNumbers Binary64.reprint = some y ∧ Survives x y data keys target.keys

/-! ## Headers -/

section Headers

variable {engine : Engine} {context context' : OverrideContext} {fromHeader toHeader : String}
  {keepOrigin : Bool}

/-- A header that is found is trimmed and not empty. -/
theorem trimSpace_header {name value : String}
    (h : getHeaderValueFromContext engine context name = some value) :
    trimSpace value = value ∧ value ≠ "" := by
  unfold getHeaderValueFromContext at h
  dsimp only at h
  split at h
  · cases h
  · obtain ⟨source, -, hsource⟩ := List.exists_of_findSome?_eq_some h
    obtain ⟨hmap, hne⟩ := Option.filter_eq_some_iff.mp hsource
    obtain ⟨raw, -, rfl⟩ := Option.map_eq_some_iff.mp hmap
    exact ⟨trimSpace_trimSpace _, by simpa using hne⟩

/-- The name is normalized first. -/
theorem getHeader_normalize (context : OverrideContext) (name : String) :
    getHeaderValueFromContext engine context (normalizeHeaderContextKey engine name) =
      getHeaderValueFromContext engine context name := by
  unfold getHeaderValueFromContext
  rw [normalize_normalize]

theorem getHeader_put {name value : String} (hname : normalizeHeaderContextKey engine name ≠ "")
    (htrim : trimSpace value = value) (hne : value ≠ "") :
    getHeaderValueFromContext engine { context with
        headerOverride := context.headerOverride.put (normalizeHeaderContextKey engine name)
          (.string value) } name = some value := by
  unfold getHeaderValueFromContext
  simp [hname, htrim, hne]

theorem headerMoved (hfold : ∀ s, engine.equalFold s s = true)
    (hcase : engine.letters.toLower fromHeader = engine.letters.toLower toHeader)
    (h : moveHeaderInContext engine context fromHeader toHeader keepOrigin = .ok context') :
    HeaderMoved engine context context' fromHeader toHeader := by
  have hname : normalizeHeaderContextKey engine toHeader =
      normalizeHeaderContextKey engine fromHeader := by
    rw [normalizeHeaderContextKey, normalizeHeaderContextKey, hcase]
  have hget : ∀ c, getHeaderValueFromContext engine c toHeader =
      getHeaderValueFromContext engine c fromHeader := by
    intro c
    rw [← getHeader_normalize c toHeader, hname, getHeader_normalize]
  unfold moveHeaderInContext copyHeaderInContext at h
  simp only [hname, normalize_normalize, hfold, if_true, or_self] at h
  split at h
  · cases h
  · rename_i hempty
    rw [getHeader_normalize] at h
    cases hvalue : getHeaderValueFromContext engine context fromHeader with
    | none =>
      rw [hvalue] at h
      simp at h
    | some value =>
      obtain ⟨htrim, hne⟩ := trimSpace_header hvalue
      rw [hvalue] at h
      unfold setHeaderOverrideInContext at h
      simp only [hempty, if_false, normalize_normalize, resolveHeaderOverrideValue,
        GoValue.Value.sprint_string, htrim, hne] at h
      by_cases hkeep : keepOrigin = true ∧
          ((context.headerOverride.get (normalizeHeaderContextKey engine fromHeader)).map
            fun v => trimSpace v.sprint).getD "" ≠ ""
      · rw [if_pos hkeep] at h
        obtain rfl : context = context' := Except.ok.inj h
        exact ⟨(hget context).symm, rfl, fun _ _ => rfl⟩
      · rw [if_neg hkeep] at h
        obtain rfl := Except.ok.inj h
        refine ⟨?_, rfl, fun name hne => ?_⟩
        · rw [hget, hvalue, getHeader_put hempty htrim hne]
        · rw [GoMap.Map.get_put, if_neg hne]

end Headers

/-! ## Values -/

section Values

variable {sjson : Sjson} {data result : Json} {fromPath : String} {target : Place}

theorem exists_of_bind_ok {α β ε : Type} {e : Except ε α} {g : α → Except ε β} {b : β}
    (h : e.bind g = .ok b) : ∃ a, e = .ok a ∧ g a = .ok b := by
  cases e with
  | error => cases h
  | ok a => exact ⟨a, rfl, h⟩

/-- What a move that returns no error has done. -/
theorem of_moveValue (h : moveValue sjson data fromPath target.path = .ok result) :
    ∃ keys x y s, readPath fromPath = some keys ∧ data.at keys = some x ∧
      x.mapNumbers Binary64.reprint = some y ∧ setAt sjson.creation y target.keys data = .ok s ∧
        result = deleteAt keys s := by
  unfold moveValue Sjson.getBytes Sjson.setBytes deleteBytes at h
  rw [target.read] at h
  cases hread : readPath fromPath with
  | none =>
    rw [hread] at h
    dsimp only at h
    split at h
    · cases h
    · split at h <;> cases h
  | some keys =>
    rw [hread] at h
    dsimp only at h
    split at h
    · cases h
    · rename_i x hx
      split at h
      · cases h
      · rename_i s hset
        obtain ⟨y, hy, hset⟩ := exists_of_bind_ok hset
        unfold valueOf at hy
        split at hy
        · rename_i y' hnum
          obtain rfl : y' = y := Except.ok.inj hy
          exact ⟨keys, x, y', s, rfl, hx, hnum, hset, (Except.ok.inj h).symm⟩
        · cases hy

theorem readPath_ne_nil {path : String} {keys : List String} (h : readPath path = some keys) :
    keys ≠ [] := by
  unfold readPath at h
  split at h
  · cases h
  · obtain ⟨parts, hparts, rfl⟩ := Option.map_eq_some_iff.mp h
    simpa using (length_readKeys hparts).1

/-- **A value that is moved** is at its new place, and all that is apart from both places is as it
was, exactly if it is kept. -/
theorem moved_iff (engine : Engine) (hfold : ∀ s, engine.equalFold s s = true) (sjson : Sjson)
    (body : Body) (fromPath : String) (target : Place) (result : Json)
    (h : moveValue sjson body.json fromPath target.path = .ok result) :
    (∀ context context' fromHeader toHeader keepOrigin,
        engine.letters.toLower fromHeader = engine.letters.toLower toHeader →
        moveHeaderInContext engine context fromHeader toHeader keepOrigin = .ok context' →
          HeaderMoved engine context context' fromHeader toHeader) ∧
      (Moved sjson body.json fromPath target result ↔ Kept body.json fromPath target) := by
  obtain ⟨keys, x, y, s, hkeys, hx, hy, hset, rfl⟩ := of_moveValue h
  have hkeys' := readPath_ne_nil hkeys
  have htarget := readPath_ne_nil target.read
  have hiff := at_deleteAt_setAt_iff hy keys target.keys body.json s hkeys' htarget hx hset
  have hfrom : sjson.getBytes body.json fromPath = some x := by
    rw [Sjson.getBytes, hkeys]
    exact hx
  have hto : sjson.getBytes (deleteAt keys s) target.path =
      (deleteAt keys s).at target.keys := by
    rw [Sjson.getBytes, target.read]
  refine ⟨fun context context' fromHeader toHeader keepOrigin => headerMoved hfold, ?_, ?_⟩
  · rintro ⟨hpresent, -⟩
    rw [hfrom, hto] at hpresent
    exact ⟨keys, x, y, hkeys, hx, hy, hiff.mp hpresent.symm⟩
  · rintro ⟨keys', x', y', hread, hx', hy', hsurvives⟩
    obtain rfl : keys = keys' := Option.some.inj (hkeys.symm.trans hread)
    obtain rfl : x = x' := Option.some.inj (hx.symm.trans hx')
    obtain rfl : y = y' := Option.some.inj (hy.symm.trans hy')
    constructor
    · rw [hfrom, hto]
      exact (hiff.mpr hsurvives).symm
    · intro keys' hread' place value hvalue hapart hapart'
      obtain rfl : keys = keys' := Option.some.inj (hkeys.symm.trans hread')
      exact at_after keys target.keys place body.json s hkeys' hx hset hvalue hapart hapart'

end Values

/-! ## Runs -/

/-- A member is made where there is none. -/
def members : Creation where
  create
    | _, keys, x => .ok (keys.foldr (fun key v => .object [(key, v)]) x)
  at_create := by
    rintro v keys x _ ⟨rfl⟩
    induction keys with
    | nil => rfl
    | cons key keys ih =>
      show (([(key, _)] : Members).lookup key).bind _ = some x
      rw [List.lookup_cons_self]
      exact ih

def sampleSjson : Sjson := ⟨members, fun _ _ => none, fun data _ _ => .ok data⟩

def placeA : Place := ⟨"a", ["a"], by decide, by decide⟩

def placeB : Place := ⟨"b", ["b"], by decide, by decide⟩

/-- `{"a": "x"}` -/
def oneText : Body where
  json := .object [("a", .string "x")]
  duplicateFree := by simp [Json.DuplicateFree, MembersDuplicateFree]

theorem moved_to_sibling :
    moveValue sampleSjson oneText.json "a" placeB.path = .ok (.object [("b", .string "x")]) ∧
      Moved sampleSjson oneText.json "a" placeB (.object [("b", .string "x")]) := by
  have hmove : moveValue sampleSjson oneText.json "a" placeB.path =
      .ok (.object [("b", .string "x")]) := by rfl
  refine ⟨hmove, (moved_iff sampleEngine (fun s => by simp [sampleEngine]) sampleSjson oneText "a"
    placeB _ hmove).2.mpr ?_⟩
  refine ⟨["a"], .string "x", .string "x", by decide, rfl, rfl, ?_⟩
  exact ⟨by decide, rfl⟩

/-- What is moved to where it is goes. -/
theorem moved_onto_itself :
    moveValue sampleSjson oneText.json "a" placeA.path = .ok (.object []) ∧
      ¬ Moved sampleSjson oneText.json "a" placeA (.object []) := by
  refine ⟨by rfl, fun h => ?_⟩
  have hpresent := h.present
  have hbefore : sampleSjson.getBytes oneText.json "a" = some (.string "x") := by rfl
  have hafter : sampleSjson.getBytes (.object []) placeA.path = none := by rfl
  rw [hbefore, hafter] at hpresent
  cases hpresent

end Override.MoveValue
