import GMasterApi.Lib.GoMap
import Mathlib.Data.Rat.Defs

/-!
# JSON values

A number is the number that its digits say, of any size, and the members of an object have
no order.  `mapNumbers` is what becomes of a value whose numbers are read into a type that
does not hold them all.
-/

namespace JsonValue

inductive Json
  | null
  | bool (b : Bool)
  | number (value : ℚ)
  | string (s : String)
  | array (items : List Json)
  | object (members : List (String × Json))

abbrev Members := List (String × Json)

mutual

/-- The value with every number `q` as `f q`; `none` where one of them is none. -/
def Json.mapNumbers (f : ℚ → Option ℚ) : Json → Option Json
  | .null => some .null
  | .bool b => some (.bool b)
  | .number value => (f value).map .number
  | .string s => some (.string s)
  | .array items => (mapItems f items).map .array
  | .object members => (mapMembers f members).map .object

def mapItems (f : ℚ → Option ℚ) : List Json → Option (List Json)
  | [] => some []
  | item :: items =>
    match item.mapNumbers f, mapItems f items with
    | some item, some items => some (item :: items)
    | _, _ => none

def mapMembers (f : ℚ → Option ℚ) : Members → Option Members
  | [] => some []
  | (name, value) :: members =>
    match value.mapNumbers f, mapMembers f members with
    | some value, some members => some ((name, value) :: members)
    | _, _ => none

end

mutual

/-- The numbers in the value, at every depth. -/
def Json.numbers : Json → List ℚ
  | .number value => [value]
  | .array items => itemsNumbers items
  | .object members => membersNumbers members
  | _ => []

def itemsNumbers : List Json → List ℚ
  | [] => []
  | item :: items => item.numbers ++ itemsNumbers items

def membersNumbers : Members → List ℚ
  | [] => []
  | (_, value) :: members => value.numbers ++ membersNumbers members

end

mutual

/-- How deep arrays and objects are nested. -/
def Json.depth : Json → ℕ
  | .array items => itemsDepth items + 1
  | .object members => membersDepth members + 1
  | _ => 0

def itemsDepth : List Json → ℕ
  | [] => 0
  | item :: items => max item.depth (itemsDepth items)

def membersDepth : Members → ℕ
  | [] => 0
  | (_, value) :: members => max value.depth (membersDepth members)

end

mutual

/-- No object in it has two members of one name. -/
def Json.DuplicateFree : Json → Prop
  | .array items => ItemsDuplicateFree items
  | .object members => (members.map Prod.fst).Nodup ∧ MembersDuplicateFree members
  | _ => True

def ItemsDuplicateFree : List Json → Prop
  | [] => True
  | item :: items => item.DuplicateFree ∧ ItemsDuplicateFree items

def MembersDuplicateFree : Members → Prop
  | [] => True
  | (_, value) :: members => value.DuplicateFree ∧ MembersDuplicateFree members

end

/-- `delete(members, name)`. -/
def delete (members : Members) (name : String) : Members :=
  members.filter fun member => member.1 ≠ name

/-! ## Numbers that are read and written -/

variable {f g : ℚ → Option ℚ} {name name' : String} {value : Json} {members members' : Members}

theorem mapMembers_cons :
    mapMembers f ((name, value) :: members) =
      (value.mapNumbers f).bind fun value =>
        (mapMembers f members).map fun members => (name, value) :: members := by
  rw [mapMembers]
  cases value.mapNumbers f <;> cases mapMembers f members <;> rfl

theorem mapItems_cons {item : Json} {items : List Json} :
    mapItems f (item :: items) =
      (item.mapNumbers f).bind fun item => (mapItems f items).map fun items => item :: items := by
  rw [mapItems]
  cases item.mapNumbers f <;> cases mapItems f items <;> rfl

mutual

/-- A value stays as it is exactly if its numbers do. -/
theorem mapNumbers_eq_self_iff :
    ∀ value : Json, value.mapNumbers f = some value ↔ ∀ q ∈ value.numbers, f q = some q
  | .null => by simp [Json.mapNumbers, Json.numbers]
  | .bool b => by simp [Json.mapNumbers, Json.numbers]
  | .number q => by simp [Json.mapNumbers, Json.numbers]
  | .string s => by simp [Json.mapNumbers, Json.numbers]
  | .array items => by
    have ih := mapItems_eq_self_iff items
    simp [Json.mapNumbers, Json.numbers, ih]
  | .object members => by
    have ih := mapMembers_eq_self_iff members
    simp [Json.mapNumbers, Json.numbers, ih]

theorem mapItems_eq_self_iff :
    ∀ items : List Json, mapItems f items = some items ↔ ∀ q ∈ itemsNumbers items, f q = some q
  | [] => by simp [mapItems, itemsNumbers]
  | item :: items => by
    have hitem := mapNumbers_eq_self_iff item
    have hitems := mapItems_eq_self_iff items
    rw [mapItems_cons, itemsNumbers, List.forall_mem_append, ← hitem, ← hitems]
    cases item.mapNumbers f <;> cases mapItems f items <;> simp

theorem mapMembers_eq_self_iff :
    ∀ members : Members, mapMembers f members = some members ↔
      ∀ q ∈ membersNumbers members, f q = some q
  | [] => by simp [mapMembers, membersNumbers]
  | (name, value) :: members => by
    have hvalue := mapNumbers_eq_self_iff value
    have hmembers := mapMembers_eq_self_iff members
    rw [mapMembers_cons, membersNumbers, List.forall_mem_append, ← hvalue, ← hmembers]
    cases value.mapNumbers f <;> cases mapMembers f members <;> simp

end

mutual

/-- A value is read exactly if its numbers are. -/
theorem mapNumbers_isSome_iff :
    ∀ value : Json, (value.mapNumbers f).isSome ↔ ∀ q ∈ value.numbers, (f q).isSome
  | .null => by simp [Json.mapNumbers, Json.numbers]
  | .bool b => by simp [Json.mapNumbers, Json.numbers]
  | .number q => by simp [Json.mapNumbers, Json.numbers]
  | .string s => by simp [Json.mapNumbers, Json.numbers]
  | .array items => by
    have ih := mapItems_isSome_iff items
    simp [Json.mapNumbers, Json.numbers, ih]
  | .object members => by
    have ih := mapMembers_isSome_iff members
    simp [Json.mapNumbers, Json.numbers, ih]

theorem mapItems_isSome_iff :
    ∀ items : List Json, (mapItems f items).isSome ↔ ∀ q ∈ itemsNumbers items, (f q).isSome
  | [] => by simp [mapItems, itemsNumbers]
  | item :: items => by
    have hitem := mapNumbers_isSome_iff item
    have hitems := mapItems_isSome_iff items
    rw [mapItems_cons, itemsNumbers, List.forall_mem_append, ← hitem, ← hitems]
    cases item.mapNumbers f <;> cases mapItems f items <;> simp

theorem mapMembers_isSome_iff :
    ∀ members : Members, (mapMembers f members).isSome ↔
      ∀ q ∈ membersNumbers members, (f q).isSome
  | [] => by simp [mapMembers, membersNumbers]
  | (name, value) :: members => by
    have hvalue := mapNumbers_isSome_iff value
    have hmembers := mapMembers_isSome_iff members
    rw [mapMembers_cons, membersNumbers, List.forall_mem_append, ← hvalue, ← hmembers]
    cases value.mapNumbers f <;> cases mapMembers f members <;> simp

end

mutual

/-- Reading and writing as one. -/
theorem mapNumbers_bind :
    ∀ value : Json, (value.mapNumbers f).bind (Json.mapNumbers g) =
      value.mapNumbers fun q => (f q).bind g
  | .null => rfl
  | .bool b => rfl
  | .number q => by
    simp only [Json.mapNumbers]
    cases f q <;> rfl
  | .string s => rfl
  | .array items => by
    have ih := mapItems_bind items
    simp only [Json.mapNumbers]
    rw [← ih]
    cases mapItems f items <;> rfl
  | .object members => by
    have ih := mapMembers_bind members
    simp only [Json.mapNumbers]
    rw [← ih]
    cases mapMembers f members <;> rfl

theorem mapItems_bind :
    ∀ items : List Json, (mapItems f items).bind (mapItems g) =
      mapItems (fun q => (f q).bind g) items
  | [] => rfl
  | item :: items => by
    have hitem := mapNumbers_bind item
    have hitems := mapItems_bind items
    rw [mapItems_cons, mapItems_cons, ← hitem, ← hitems]
    cases item.mapNumbers f with
    | none => rfl
    | some item' =>
      cases mapItems f items with
      | none => cases h : item'.mapNumbers g <;> simp [h]
      | some items' => exact mapItems_cons

theorem mapMembers_bind :
    ∀ members : Members, (mapMembers f members).bind (mapMembers g) =
      mapMembers (fun q => (f q).bind g) members
  | [] => rfl
  | (name, value) :: members => by
    have hvalue := mapNumbers_bind value
    have hmembers := mapMembers_bind members
    rw [mapMembers_cons, mapMembers_cons, ← hvalue, ← hmembers]
    cases value.mapNumbers f with
    | none => rfl
    | some value' =>
      cases mapMembers f members with
      | none => cases h : value'.mapNumbers g <;> simp [h]
      | some members' => exact mapMembers_cons

end

/-! ## Members -/

theorem mapMembers_cons_some (h : mapMembers f ((name, value) :: members) = some members') :
    ∃ value' rest, value.mapNumbers f = some value' ∧ mapMembers f members = some rest ∧
      members' = (name, value') :: rest := by
  rw [mapMembers_cons] at h
  obtain ⟨value', hvalue, h⟩ := Option.bind_eq_some_iff.mp h
  obtain ⟨rest, hrest, rfl⟩ := Option.map_eq_some_iff.mp h
  exact ⟨value', rest, hvalue, hrest, rfl⟩

theorem lookup_mapMembers (h : mapMembers f members = some members') (name : String) :
    members'.lookup name = (members.lookup name).bind (Json.mapNumbers f) := by
  induction members generalizing members' with
  | nil =>
    cases h
    rfl
  | cons member members ih =>
    obtain ⟨name', value⟩ := member
    obtain ⟨value', rest, hvalue, hrest, rfl⟩ := mapMembers_cons_some h
    rw [List.lookup_cons, List.lookup_cons]
    cases name == name' with
    | true => exact hvalue.symm
    | false => exact ih hrest

theorem exists_mapNumbers (h : mapMembers f members = some members')
    (hvalue : members.lookup name = some value) : ∃ value', value.mapNumbers f = some value' := by
  induction members generalizing members' with
  | nil => cases hvalue
  | cons member members ih =>
    obtain ⟨name', held⟩ := member
    obtain ⟨held', rest, hheld, hrest, rfl⟩ := mapMembers_cons_some h
    rw [List.lookup_cons] at hvalue
    cases heq : name == name' with
    | true =>
      rw [heq] at hvalue
      cases hvalue
      exact ⟨held', hheld⟩
    | false =>
      rw [heq] at hvalue
      exact ih hrest hvalue

theorem keys_mapMembers (h : mapMembers f members = some members') :
    members'.map Prod.fst = members.map Prod.fst := by
  induction members generalizing members' with
  | nil =>
    cases h
    rfl
  | cons member members ih =>
    obtain ⟨name', value⟩ := member
    obtain ⟨value', rest, -, hrest, rfl⟩ := mapMembers_cons_some h
    rw [List.map_cons, List.map_cons, ih hrest]

/-- Members that are kept under every name are all kept. -/
theorem mapMembers_eq_self (hnodup : (members.map Prod.fst).Nodup)
    (h : mapMembers f members = some members')
    (hsame : ∀ name, members'.lookup name = members.lookup name) : members' = members := by
  induction members generalizing members' with
  | nil =>
    cases h
    rfl
  | cons member members ih =>
    obtain ⟨name', value⟩ := member
    obtain ⟨value', rest, hvalue, hrest, rfl⟩ := mapMembers_cons_some h
    obtain ⟨hnew, hnodup⟩ := List.nodup_cons.mp hnodup
    have hhead := hsame name'
    rw [List.lookup_cons_self, List.lookup_cons_self, Option.some.injEq] at hhead
    have hrest' : rest = members := by
      refine ih hnodup hrest fun name => ?_
      by_cases hname : name = name'
      · have hnone : members.lookup name = none := by
          rw [List.lookup_eq_none_iff]
          intro member hmember
          rw [bne_iff_ne, hname]
          rintro rfl
          exact hnew (List.mem_map.mpr ⟨member, hmember, rfl⟩)
        rw [lookup_mapMembers hrest, hnone]
        rfl
      · have htail := hsame name
        rwa [List.lookup_cons, List.lookup_cons, beq_false_of_ne hname] at htail
    rw [hhead, hrest']

theorem lookup_delete :
    (delete members name).lookup name' = if name' = name then none else members.lookup name' := by
  induction members with
  | nil => simp [delete]
  | cons member members ih =>
    obtain ⟨key, value⟩ := member
    unfold delete at ih ⊢
    rw [List.filter_cons]
    by_cases hkey : key = name
    · subst hkey
      rw [if_neg (by simp), ih, List.lookup_cons]
      by_cases hname : name' = key
      · rw [if_pos hname, if_pos hname]
      · rw [if_neg hname, if_neg hname, beq_false_of_ne hname]
    · rw [if_pos (by simpa using hkey), List.lookup_cons, List.lookup_cons, ih]
      by_cases hname : name' = key
      · subst hname
        simp [hkey]
      · rw [beq_false_of_ne hname]

theorem delete_eq_self (h : members.lookup name = none) : delete members name = members := by
  unfold delete
  rw [List.filter_eq_self]
  intro member hmember
  rw [List.lookup_eq_none_iff] at h
  have := h member hmember
  rw [bne_iff_ne] at this
  exact decide_eq_true fun heq => this heq.symm

theorem nodup_delete (h : (members.map Prod.fst).Nodup) (name : String) :
    ((delete members name).map Prod.fst).Nodup :=
  h.sublist (List.filter_sublist.map Prod.fst)

theorem membersDepth_delete_le (members : Members) (name : String) :
    membersDepth (delete members name) ≤ membersDepth members := by
  induction members with
  | nil => exact Nat.le_refl _
  | cons member members ih =>
    obtain ⟨key, value⟩ := member
    unfold delete at ih ⊢
    rw [List.filter_cons]
    split
    · rw [membersDepth, membersDepth]
      omega
    · rw [membersDepth]
      omega

theorem mapMembers_delete (h : mapMembers f members = some members') (name : String) :
    mapMembers f (delete members name) = some (delete members' name) := by
  induction members generalizing members' with
  | nil =>
    cases h
    rfl
  | cons member members ih =>
    obtain ⟨key, value⟩ := member
    obtain ⟨value', rest, hvalue, hrest, rfl⟩ := mapMembers_cons_some h
    have hih := ih hrest
    unfold delete at hih ⊢
    rw [List.filter_cons, List.filter_cons]
    by_cases hkey : key = name
    · rw [if_neg (by simpa using hkey), if_neg (by simpa using hkey), hih]
    · rw [if_pos (by simpa using hkey), if_pos (by simpa using hkey), mapMembers_cons, hvalue, hih]
      rfl

theorem mapMembers_assign {value' : Json} (h : mapMembers f members = some members')
    (hvalue : value.mapNumbers f = some value') :
    mapMembers f (GoMap.assign members name value) = some (GoMap.assign members' name value') := by
  induction members generalizing members' with
  | nil =>
    cases h
    show mapMembers f [(name, value)] = some [(name, value')]
    rw [mapMembers_cons, hvalue]
    rfl
  | cons member members ih =>
    obtain ⟨key, held⟩ := member
    obtain ⟨held', rest, hheld, hrest, rfl⟩ := mapMembers_cons_some h
    unfold GoMap.assign
    by_cases hkey : key = name
    · rw [if_pos hkey, if_pos hkey, mapMembers_cons, hvalue, hrest]
      rfl
    · rw [if_neg hkey, if_neg hkey, mapMembers_cons, hheld, ih hrest]
      rfl

end JsonValue
