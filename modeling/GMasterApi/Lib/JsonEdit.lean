import GMasterApi.Lib.JsonPath
import Mathlib.Data.List.Sort

/-!
# Edits of the places that a pattern matches

An `Edit` says what is at a place after something has been done there, or that it fails.  The
places that a pattern matches are edited at once (`rewrite`), or each on its own in the value
that the edits before it have left (`editEach`).  Where an edit removes nothing both come to
the same (`editEach_eq_rewrite`); where it removes the place itself, exactly if no list
loses more than one of its items (`editEach_remove_iff`).
-/

namespace JsonValue

open GoString

/-- What is done to the value at a place, or to a place with nothing at it. -/
abbrev Edit := Option Json → Option (Option Json)

def putMember (members : Members) (key : String) : Option Json → Members
  | some value => GoMap.assign members key value
  | none => delete members key

def putItem (items : List Json) (i : ℕ) : Option Json → List Json
  | some item => items.set i item
  | none => items.eraseIdx i

/-- The value with `child` under the key, or without the key. -/
def Json.put (v : Json) (key : String) (child : Option Json) : Json :=
  match v with
  | .object members => .object (putMember members key child)
  | .array items =>
    match arrayIndex key with
    | some i => .array (putItem items i child)
    | none => .array items
  | v => v

/-- An edit of one place; `absent` is what becomes of places in what is not there. -/
def editAt (absent : List String → Option (Option Json)) (edit : Edit) : List String → Edit
  | [], x => edit x
  | key :: keys, some v =>
    (editAt absent edit keys (v.child key)).map fun child => some (v.put key child)
  | key :: keys, none => absent (key :: keys)

/-! ## Patterns -/

/-- Every key, one key, or none. -/
inductive Segment
  | any
  | name (key : String)
  | nothing

/-- The keys of a value that a segment matches; `index` reads the names of indexes. -/
def slots (index : String → Option ℕ) : Segment → Json → List String
  | .any, .object members => (members.map Prod.fst).insertionSort (· ≤ ·)
  | .any, .array items => (List.range items.length).map Nat.repr
  | .name key, .object _ => [key]
  | .name key, .array items => if (index key).any (· < items.length) then [key] else []
  | _, _ => []

/-- What is under a key that the segment matches. -/
def childOf (index : String → Option ℕ) : Segment → Json → String → Option Json
  | .name _, .array items, key => (index key).bind fun i => items[i]?
  | _, v, key => v.child key

/-- The places that a pattern matches.  The last key of an object need not be there. -/
def places (index : String → Option ℕ) : List Segment → Option Json → List (List String)
  | [], _ => [[]]
  | _ :: _, none => []
  | segment :: segments, some v =>
    (slots index segment v).flatMap fun key =>
      (places index segments (childOf index segment v key)).map fun keys => key :: keys

/-- The names of indexes are read as digits. -/
def ReadsDigits (index : String → Option ℕ) : Prop :=
  ∀ key i, index key = some i → arrayIndex key = some i

def editMembers (edit : String → Edit) : Members → Option Members
  | [] => some []
  | (name, value) :: members =>
    (edit name (some value)).bind fun x => (editMembers edit members).map fun members =>
      x.elim members fun value => (name, value) :: members

def editItems (edit : Edit) : List Json → Option (List Json)
  | [] => some []
  | item :: items =>
    (edit (some item)).bind fun x => (editItems edit items).map fun items =>
      x.elim items fun item => item :: items

/-- The edit of all keys that a segment matches. -/
def editSlots (index : String → Option ℕ) (edit : Edit) : Segment → Json → Option Json
  | .any, .object members => (editMembers (fun _ => edit) members).map .object
  | .any, .array items => (editItems edit items).map .array
  | .name key, v =>
    if slots index (.name key) v = [] then some v else (edit (v.child key)).map (v.put key)
  | _, v => some v

/-- The edit of all places that a pattern matches. -/
def rewrite (index : String → Option ℕ) (edit : Edit) : List Segment → Edit
  | [], x => edit x
  | _ :: _, none => some none
  | segment :: segments, some v =>
    (editSlots index (rewrite index edit segments) segment v).map some

/-- The edit of some places, one after the other. -/
def editAll (absent : List String → Option (Option Json)) (edit : Edit)
    (places : List (List String)) (x : Option Json) : Option (Option Json) :=
  places.foldlM (fun x keys => editAt absent edit keys x) x

/-- The edit of the places that a pattern matches, one after the other. -/
def editEach (absent : List String → Option (Option Json)) (index : String → Option ℕ)
    (edit : Edit) (segments : List Segment) (x : Option Json) : Option (Option Json) :=
  editAll absent edit (places index segments x) x

/-- What is there stays there. -/
def Edit.Keeps (edit : Edit) : Prop := ∀ v, edit (some v) ≠ some none

/-- The place goes. -/
def remove : Edit := fun _ => some none

/-- No list of more than one item is matched by a last segment for every key. -/
def Single (index : String → Option ℕ) : List Segment → Option Json → Prop
  | [], _ => True
  | _ :: _, none => True
  | segment :: segments, some v =>
    (segments = [] → segment = .any → ∀ items, v = .array items → items.length ≤ 1) ∧
      ∀ key ∈ slots index segment v, Single index segments (v.child key)

/-- The values right in a value. -/
def Json.children : Json → List Json
  | .object members => members.map Prod.snd
  | .array items => items
  | _ => []

/-! ## Putting and finding -/

section Put

variable {v c : Json} {key : String} {x : Option Json} {members : Members} {k : String}

theorem arrayIndex_repr (i : ℕ) : arrayIndex i.repr = some i := by
  have hne : i.repr ≠ "" := by
    intro hempty
    have hlist := congrArg String.toList hempty
    rw [Nat.toList_repr] at hlist
    exact Nat.toDigits_ne_nil hlist
  unfold arrayIndex
  rw [if_neg hne, digits_eq_ofDigitChars fun c hc => isDigit_of_mem_repr hc, Nat.toList_repr,
    Nat.ofDigitChars_toDigits (by omega) (by omega)]

theorem delete_assign (value : Json) :
    delete (GoMap.assign members k value) k = delete members k := by
  induction members with
  | nil => simp [GoMap.assign, delete]
  | cons member members ih =>
    obtain ⟨name, held⟩ := member
    unfold GoMap.assign
    by_cases hname : name = k
    · rw [if_pos hname]
      simp [delete, hname]
    · rw [if_neg hname]
      simp only [delete, ne_eq, List.filter_cons, hname, not_false_eq_true, decide_true, if_true,
        List.cons.injEq, true_and]
      exact ih

theorem assign_assign (value value' : Json) :
    GoMap.assign (GoMap.assign members k value) k value' = GoMap.assign members k value' := by
  induction members with
  | nil => simp [GoMap.assign]
  | cons member members ih =>
    obtain ⟨name, held⟩ := member
    by_cases hname : name = k
    · simp [GoMap.assign, hname]
    · simp only [GoMap.assign, hname, if_false, ih]

theorem child_put (h : v.child key = some c) (child : Json) :
    (v.put key (some child)).child key = some child := by
  cases v with
  | object members =>
    show (GoMap.assign members key child).lookup key = some child
    rw [GoMap.lookup_assign, if_pos rfl]
  | array items =>
    obtain ⟨i, hi, hget⟩ := Option.bind_eq_some_iff.mp h
    obtain ⟨hlt, -⟩ := List.getElem?_eq_some_iff.mp hget
    simp [Json.put, putItem, Json.child, hi, hlt]
  | _ => cases h

theorem put_put (child : Json) : (v.put key (some child)).put key x = v.put key x := by
  cases v with
  | object members =>
    cases x with
    | some value => simp only [Json.put, putMember, assign_assign]
    | none => simp only [Json.put, putMember, delete_assign]
  | array items =>
    cases hi : arrayIndex key with
    | none => simp [Json.put, hi]
    | some i => cases x <;> simp [Json.put, putItem, hi, List.eraseIdx_set_eq]
  | _ => rfl

theorem put_child (h : v.child key = some c) : v.put key (some c) = v := by
  cases v with
  | object members => exact congrArg Json.object (GoMap.assign_eq_self h)
  | array items =>
    obtain ⟨i, hi, hget⟩ := Option.bind_eq_some_iff.mp h
    obtain ⟨hlt, rfl⟩ := List.getElem?_eq_some_iff.mp hget
    simp [Json.put, putItem, hi]
  | _ => cases h

theorem put_none (h : v.child key = none) : v.put key none = v := by
  cases v with
  | object members => exact congrArg Json.object (delete_eq_self h)
  | array items =>
    cases hi : arrayIndex key with
    | none => simp [Json.put, hi]
    | some i =>
      have hget : items[i]? = none := by simpa [Json.child, hi] using h
      have hle := List.getElem?_eq_none_iff.mp hget
      simp [Json.put, putItem, hi, List.eraseIdx_of_length_le hle]
  | _ => rfl

theorem mem_children_of_child (h : v.child key = some c) : c ∈ v.children := by
  cases v with
  | object members =>
    obtain ⟨l, l', hsplit, -⟩ := List.lookup_eq_some_iff.mp h
    rw [Json.children, hsplit]
    simp
  | array items =>
    obtain ⟨i, -, hget⟩ := Option.bind_eq_some_iff.mp h
    exact List.mem_of_getElem? hget
  | _ => cases h

theorem itemsDuplicateFree_iff {items : List Json} :
    ItemsDuplicateFree items ↔ ∀ item ∈ items, item.DuplicateFree := by
  induction items with
  | nil => simp [ItemsDuplicateFree]
  | cons item items ih => rw [ItemsDuplicateFree, List.forall_mem_cons, ih]

theorem membersDuplicateFree_iff :
    MembersDuplicateFree members ↔ ∀ value ∈ members.map Prod.snd, value.DuplicateFree := by
  induction members with
  | nil => simp [MembersDuplicateFree]
  | cons member members ih =>
    rw [MembersDuplicateFree, List.map_cons, List.forall_mem_cons, ih]

theorem duplicateFree_of_mem_children (h : v.DuplicateFree) (hc : c ∈ v.children) :
    c.DuplicateFree := by
  cases v with
  | object members => exact membersDuplicateFree_iff.mp h.2 c hc
  | array items => exact itemsDuplicateFree_iff.mp h c hc
  | _ => cases hc

end Put

/-! ## The edits of one key -/

section Under

variable {absent : List String → Option (Option Json)} {index : String → Option ℕ} {edit : Edit}
  {v c : Json} {x : Option Json} {key : String} {keys : List String} {ps qs : List (List String)}
  {segments : List Segment}

theorem editAll_cons : editAll absent edit (keys :: ps) x =
    (editAt absent edit keys x).bind fun x => editAll absent edit ps x := rfl

theorem editAll_append : editAll absent edit (ps ++ qs) x =
    (editAll absent edit ps x).bind fun x => editAll absent edit qs x :=
  List.foldlM_append

/-- What is not the place itself stays. -/
theorem exists_of_editAt (hkeys : keys ≠ []) (h : editAt absent edit keys (some v) = some x) :
    ∃ v', x = some v' := by
  cases keys with
  | nil => exact absurd rfl hkeys
  | cons key keys =>
    obtain ⟨child, -, rfl⟩ := Option.map_eq_some_iff.mp h
    exact ⟨_, rfl⟩

/-- The edits of places under one key change what is under the key. -/
theorem editAll_under (h : v.child key = some c) (hps : ∀ keys ∈ ps, keys ≠ []) :
    editAll absent edit (ps.map fun keys => key :: keys) (some v) =
      (editAll absent edit ps (some c)).map fun child => some (v.put key child) := by
  induction ps generalizing v c with
  | nil =>
    show some (some v) = some (some (v.put key (some c)))
    rw [put_child h]
  | cons keys ps ih =>
    obtain ⟨hkeys, hps⟩ := List.forall_mem_cons.mp hps
    rw [List.map_cons, editAll_cons, editAll_cons, editAt, h]
    cases hedit : editAt absent edit keys (some c) with
    | none => rfl
    | some child =>
      obtain ⟨c', rfl⟩ := exists_of_editAt hkeys hedit
      have hrest := ih (child_put h c') hps
      simp only [put_put] at hrest
      exact hrest

theorem length_of_mem_places (h : keys ∈ places index segments x) :
    keys.length = segments.length := by
  induction segments generalizing x keys with
  | nil =>
    rw [places, List.mem_singleton] at h
    rw [h]
    rfl
  | cons segment segments ih =>
    cases x with
    | none => cases h
    | some v =>
      obtain ⟨key, -, hkeys⟩ := List.mem_flatMap.mp h
      obtain ⟨rest, hrest, rfl⟩ := List.mem_map.mp hkeys
      rw [List.length_cons, List.length_cons, ih hrest]

/-- The places under one key are edited one after the other. -/
theorem editAll_places_under (absent : List String → Option (Option Json))
    (index : String → Option ℕ) (edit : Edit) (segments : List Segment) (v : Json) (key : String) :
    editAll absent edit ((places index segments (v.child key)).map fun keys => key :: keys)
        (some v) =
      (editEach absent index edit segments (v.child key)).map fun child =>
        some (v.put key child) := by
  cases segments with
  | nil =>
    show (editAt absent edit [key] (some v)).bind some =
      ((edit (v.child key)).bind some).map fun child => some (v.put key child)
    rw [Option.bind_fun_some, Option.bind_fun_some]
    rfl
  | cons segment segments =>
    cases hchild : v.child key with
    | none =>
      show some (some v) = some (some (v.put key none))
      rw [put_none hchild]
    | some c =>
      refine editAll_under hchild fun keys hkeys hnil => ?_
      have hlength := length_of_mem_places hkeys
      rw [hnil] at hlength
      cases hlength

end Under

/-! ## The edits of one segment -/

section Level

variable {absent : List String → Option (Option Json)} {index : String → Option ℕ} {edit : Edit}
  {v : Json} {key : String} {keys : List String} {members : Members} {items : List Json}
  {segment : Segment} {segments : List Segment}

/-- The edit of some of the members. -/
def only (keys : List String) (edit : Edit) (name : String) : Edit :=
  if name ∈ keys then edit else some

theorem editMembers_congr {edit edit' : String → Edit}
    (h : ∀ member ∈ members, edit member.1 (some member.2) = edit' member.1 (some member.2)) :
    editMembers edit members = editMembers edit' members := by
  induction members with
  | nil => rfl
  | cons member members ih =>
    obtain ⟨name, value⟩ := member
    obtain ⟨hhead, htail⟩ := List.forall_mem_cons.mp h
    rw [editMembers, editMembers, hhead, ih htail]

theorem editItems_congr {edit edit' : Edit}
    (h : ∀ item ∈ items, edit (some item) = edit' (some item)) :
    editItems edit items = editItems edit' items := by
  induction items with
  | nil => rfl
  | cons item items ih =>
    obtain ⟨hhead, htail⟩ := List.forall_mem_cons.mp h
    rw [editItems, editItems, hhead, ih htail]

theorem editMembers_some (members : Members) :
    editMembers (fun _ => some) members = some members := by
  induction members with
  | nil => rfl
  | cons member members ih =>
    obtain ⟨name, value⟩ := member
    rw [editMembers, ih]
    rfl

/-- One member is edited, and then others. -/
theorem editMembers_only_cons (hnodup : (members.map Prod.fst).Nodup) (hkey : key ∉ keys)
    {c : Json} (hc : members.lookup key = some c) :
    ((edit (some c)).bind fun x => editMembers (only keys edit) (putMember members key x)) =
      editMembers (only (key :: keys) edit) members := by
  induction members with
  | nil => cases hc
  | cons member members ih =>
    obtain ⟨name, value⟩ := member
    obtain ⟨hnew, hnodup⟩ := List.nodup_cons.mp hnodup
    by_cases hname : name = key
    · subst hname
      rw [List.lookup_cons_self, Option.some.injEq] at hc
      subst hc
      have hothers : editMembers (only (name :: keys) edit) members =
          editMembers (only keys edit) members := by
        refine editMembers_congr fun member hmember => ?_
        have hne : member.1 ≠ name := by
          rintro rfl
          exact hnew (List.mem_map.mpr ⟨member, hmember, rfl⟩)
        simp only [only, List.mem_cons, hne, false_or]
      have hhead : only (name :: keys) edit name = edit := if_pos List.mem_cons_self
      rw [editMembers, hothers, hhead]
      refine Option.bind_congr fun x _ => ?_
      cases x with
      | none =>
        have hdelete : putMember ((name, value) :: members) name none = members := by
          show delete ((name, value) :: members) name = members
          rw [delete, List.filter_cons, if_neg (by simp)]
          exact delete_eq_self (GoMap.lookup_eq_none hnew)
        rw [hdelete]
        simp
      | some value' =>
        have hput : putMember ((name, value) :: members) name (some value') =
            (name, value') :: members := if_pos rfl
        have hkept : only keys edit name = some := if_neg hkey
        rw [hput, editMembers, hkept]
        rfl
    · rw [List.lookup_cons, beq_false_of_ne (Ne.symm hname)] at hc
      have hput : ∀ x, putMember ((name, value) :: members) key x =
          (name, value) :: putMember members key x := by
        intro x
        cases x with
        | none =>
          show delete ((name, value) :: members) key = _
          rw [delete, List.filter_cons, if_pos (by simpa using hname)]
          rfl
        | some value' => exact if_neg hname
      have hhead : only (key :: keys) edit name = only keys edit name := by
        simp only [only, List.mem_cons, hname, false_or]
      rw [editMembers, hhead, ← ih hnodup hc]
      cases edit (some c) with
      | none => cases only keys edit name (some value) <;> rfl
      | some x =>
        show editMembers (only keys edit) (putMember ((name, value) :: members) key x) = _
        rw [hput, editMembers]
        rfl

theorem nodup_putMember (hnodup : (members.map Prod.fst).Nodup) (x : Option Json) :
    ((putMember members key x).map Prod.fst).Nodup := by
  cases x with
  | none => exact nodup_delete hnodup key
  | some value => exact GoMap.nodup_assign hnodup

theorem lookup_putMember_of_ne {name : String} (hname : name ≠ key) (x : Option Json) :
    (putMember members key x).lookup name = members.lookup name := by
  cases x with
  | none => exact lookup_delete.trans (if_neg hname)
  | some value => exact GoMap.lookup_assign.trans (if_neg hname)

/-- The places under some members, each member's as they were at first. -/
theorem editAll_members (hkeys : keys.Nodup) (qs : String → List (List String)) :
    ∀ members : Members, (members.map Prod.fst).Nodup →
      (∀ key ∈ keys, ∃ c, members.lookup key = some c ∧
        qs key = places index segments (some c)) →
      editAll absent edit (keys.flatMap fun key => (qs key).map fun place => key :: place)
          (some (.object members)) =
        (editMembers (only keys (editEach absent index edit segments)) members).map fun members =>
          some (.object members) := by
  induction keys with
  | nil =>
    intro members _ _
    have hnone : editMembers (only [] (editEach absent index edit segments)) members =
        some members := by
      rw [← editMembers_some members]
      exact editMembers_congr fun member _ => by simp [only]
    rw [hnone]
    rfl
  | cons key keys ih =>
    obtain ⟨hkey, hkeys⟩ := List.nodup_cons.mp hkeys
    intro members hnodup hlookup
    obtain ⟨⟨c, hc, hplaces⟩, hothers⟩ := List.forall_mem_cons.mp hlookup
    have hchild : (Json.object members).child key = some c := hc
    have hunder := editAll_places_under absent index edit segments (.object members) key
    rw [hchild, ← hplaces] at hunder
    rw [List.flatMap_cons, editAll_append, hunder,
      ← editMembers_only_cons hnodup hkey hc]
    cases editEach absent index edit segments (some c) with
    | none => rfl
    | some x =>
      refine ih hkeys (putMember members key x) (nodup_putMember hnodup x) fun name hname => ?_
      obtain ⟨d, hd, hqs⟩ := hothers name hname
      have hne : name ≠ key := fun heq => hkey (heq ▸ hname)
      exact ⟨d, (lookup_putMember_of_ne hne x).trans hd, hqs⟩

/-- The places under the items, where none of the items goes. -/
theorem editAll_items (items : List Json)
    (hkeeps : ∀ item ∈ items, editEach absent index edit segments (some item) ≠ some none) :
    ∀ done : List Json,
      editAll absent edit ((items.zipIdx done.length).flatMap fun item =>
          (places index segments (some item.1)).map fun place => item.2.repr :: place)
          (some (.array (done ++ items))) =
        (editItems (editEach absent index edit segments) items).map fun items =>
          some (.array (done ++ items)) := by
  induction items with
  | nil => exact fun done => rfl
  | cons item items ih =>
    intro done
    obtain ⟨hitem, hitems⟩ := List.forall_mem_cons.mp hkeeps
    have hchild : (Json.array (done ++ item :: items)).child done.length.repr = some item := by
      show (arrayIndex done.length.repr).bind (fun i => (done ++ item :: items)[i]?) = some item
      rw [arrayIndex_repr]
      simp
    have hunder := editAll_places_under absent index edit segments
      (.array (done ++ item :: items)) done.length.repr
    rw [hchild] at hunder
    rw [List.zipIdx_cons, List.flatMap_cons, editAll_append, hunder, editItems]
    cases hedit : editEach absent index edit segments (some item) with
    | none => rfl
    | some x =>
      cases x with
      | none => exact absurd hedit hitem
      | some item' =>
        have hput : (Json.array (done ++ item :: items)).put done.length.repr (some item') =
            .array ((done ++ [item']) ++ items) := by
          simp [Json.put, putItem, arrayIndex_repr]
        have hrest := ih hitems (done ++ [item'])
        rw [List.length_append, List.length_singleton] at hrest
        show editAll absent edit _ (some ((Json.array (done ++ item :: items)).put
          done.length.repr (some item'))) = _
        rw [hput, hrest]
        cases editItems (editEach absent index edit segments) items with
        | none => rfl
        | some items' => simp

theorem places_any_array : places index (.any :: segments) (some (.array items)) =
    items.zipIdx.flatMap fun item =>
      (places index segments (some item.1)).map fun place => item.2.repr :: place := by
  have hrange : List.range items.length = items.zipIdx.map Prod.snd := by
    rw [List.zipIdx_map_snd, List.range_eq_range']
  show ((List.range items.length).map Nat.repr).flatMap _ = _
  rw [hrange, List.map_map, List.flatMap_map]
  refine List.flatMap_congr fun item hitem => ?_
  have hget : items[item.2]? = some item.1 := by
    simpa using List.mem_zipIdx_iff_getElem?.mp hitem
  have hchild : (Json.array items).child item.2.repr = some item.1 := by
    show (arrayIndex item.2.repr).bind (fun i => items[i]?) = some item.1
    rw [arrayIndex_repr]
    exact hget
  show (places index segments ((Json.array items).child item.2.repr)).map _ = _
  rw [hchild]
  rfl

theorem mem_slots_any {members : Members} :
    key ∈ slots index .any (.object members) ↔ key ∈ members.map Prod.fst :=
  List.mem_insertionSort (· ≤ ·)

theorem childOf_eq (hindex : ReadsDigits index) (hkey : key ∈ slots index segment v) :
    childOf index segment v key = v.child key := by
  cases segment with
  | name name =>
    cases v with
    | array items =>
      have hname : (index name).any (· < items.length) = true ∧ key = name := by
        simp only [slots] at hkey
        split at hkey
        · rename_i hany
          exact ⟨hany, List.mem_singleton.mp hkey⟩
        · cases hkey
      obtain ⟨hany, rfl⟩ := hname
      obtain ⟨i, hi, -⟩ := (Option.any_eq_true ..).mp hany
      show (index key).bind _ = (arrayIndex key).bind _
      rw [hi, hindex key i hi]
    | _ => rfl
  | _ => rfl

theorem slots_name_eq (index : String → Option ℕ) (key : String) (v : Json) :
    slots index (.name key) v = [] ∨ slots index (.name key) v = [key] := by
  cases v with
  | object members => exact .inr rfl
  | array items =>
    simp only [slots]
    split
    · exact .inr rfl
    · exact .inl rfl
  | _ => exact .inl rfl

/-- What is matched by one segment is edited at once. -/
theorem editEach_cons (hindex : ReadsDigits index) (hfree : v.DuplicateFree)
    (hkeeps : segment = .any → ∀ items, v = .array items → ∀ item ∈ items,
      editEach absent index edit segments (some item) ≠ some none) :
    editEach absent index edit (segment :: segments) (some v) =
      (editSlots index (editEach absent index edit segments) segment v).map some := by
  cases segment with
  | any =>
    cases v with
    | object members =>
      have hnodup := hfree.1
      have hkeys : (slots index .any (.object members)).Nodup :=
        (List.perm_insertionSort (· ≤ ·) _).nodup_iff.mpr hnodup
      have hlookup : ∀ key ∈ slots index .any (.object members), ∃ c,
          members.lookup key = some c ∧
            places index segments (members.lookup key) = places index segments (some c) := by
        intro key hkey
        obtain ⟨member, hmember, rfl⟩ := List.mem_map.mp (mem_slots_any.mp hkey)
        have hc := (GoMap.mem_iff_lookup hnodup).mp hmember
        exact ⟨member.2, hc, by rw [hc]⟩
      have hall : editMembers
            (only (slots index .any (.object members)) (editEach absent index edit segments))
            members =
          editMembers (fun _ => editEach absent index edit segments) members := by
        refine editMembers_congr fun member hmember => ?_
        rw [only, if_pos (mem_slots_any.mpr (List.mem_map_of_mem hmember))]
      rw [editSlots, Option.map_map]
      refine (editAll_members hkeys (fun key => places index segments (members.lookup key))
        members hnodup hlookup).trans ?_
      rw [hall]
      rfl
    | array items =>
      rw [editSlots, Option.map_map, editEach, places_any_array]
      exact editAll_items items (hkeeps rfl items rfl) []
    | _ => rfl
  | name key =>
    rw [editSlots]
    split
    · rename_i hslots
      rw [editEach, places, hslots]
      rfl
    · rename_i hslots
      have hkey := (slots_name_eq index _ _).resolve_left hslots
      have hchild : childOf index (.name key) v key = v.child key :=
        childOf_eq hindex (by rw [hkey]; exact List.mem_singleton_self key)
      rw [editEach, places, hkey, List.flatMap_singleton, hchild, editAll_places_under,
        Option.map_map]
      rfl
  | nothing =>
    cases v <;> rfl

theorem editSlots_congr {edit edit' : Edit} (hnone : edit none = edit' none)
    (h : ∀ c ∈ v.children, edit (some c) = edit' (some c)) :
    editSlots index edit segment v = editSlots index edit' segment v := by
  cases segment with
  | any =>
    cases v with
    | object members =>
      rw [editSlots, editSlots]
      congr 1
      exact editMembers_congr fun member hmember => h _ (List.mem_map_of_mem hmember)
    | array items =>
      have hitems : editItems edit items = editItems edit' items := editItems_congr h
      rw [editSlots, editSlots, hitems]
    | _ => rfl
  | name key =>
    rw [editSlots, editSlots]
    cases hchild : v.child key with
    | none => rw [hnone]
    | some c => rw [h c (mem_children_of_child hchild)]
  | nothing => cases v <;> rfl

end Level

/-! ## At once and one after the other -/

section Edits

variable {absent : List String → Option (Option Json)} {index : String → Option ℕ} {edit : Edit}
  {v : Json} {items : List Json} {segment : Segment} {segments : List Segment}

theorem editEach_nil : editEach absent index edit [] = edit :=
  funext fun x => Option.bind_fun_some (edit x)

theorem keeps_rewrite (hedit : edit.Keeps) (segments : List Segment) :
    (rewrite index edit segments).Keeps := by
  cases segments with
  | nil => exact hedit
  | cons segment segments =>
    intro v h
    obtain ⟨v', -, heq⟩ := Option.map_eq_some_iff.mp h
    cases heq

/-- **An edit that keeps what is there** is made at once by being made at one place after the
other. -/
theorem editEach_eq_rewrite (hindex : ReadsDigits index) (hedit : edit.Keeps) :
    ∀ (segments : List Segment) (x : Option Json),
    (∀ v, x = some v → v.DuplicateFree) →
      editEach absent index edit segments x = rewrite index edit segments x
  | [], x, _ => congrFun editEach_nil x
  | _ :: _, none, _ => rfl
  | segment :: segments, some v, hfree => by
    have hv := hfree v rfl
    have hchildren : ∀ c ∈ v.children, editEach absent index edit segments (some c) =
        rewrite index edit segments (some c) := by
      intro c hc
      refine editEach_eq_rewrite hindex hedit segments (some c) ?_
      rintro _ ⟨rfl⟩
      exact duplicateFree_of_mem_children hv hc
    have hnone : editEach absent index edit segments none = rewrite index edit segments none :=
      editEach_eq_rewrite hindex hedit segments none fun _ h => by cases h
    rw [editEach_cons hindex hv, rewrite, editSlots_congr hnone hchildren]
    rintro - items rfl item hitem
    rw [hchildren item hitem]
    exact keeps_rewrite hedit segments item

/-! ### What goes -/

theorem editItems_remove : editItems remove items = some [] := by
  induction items with
  | nil => rfl
  | cons item items ih =>
    rw [editItems, ih]
    rfl

theorem editAll_remove (is : List ℕ) : ∀ items : List Json,
    editAll absent remove (is.map fun i => [i.repr]) (some (.array items)) =
      some (some (.array (is.foldl List.eraseIdx items))) := by
  induction is with
  | nil => exact fun items => rfl
  | cons i is ih =>
    intro items
    have hput : (Json.array items).put i.repr none = .array (items.eraseIdx i) := by
      simp [Json.put, putItem, arrayIndex_repr]
    rw [List.map_cons, editAll_cons, List.foldl_cons, ← ih]
    show editAll absent remove _ (some ((Json.array items).put i.repr none)) = _
    rw [hput]

theorem foldl_eraseIdx_ne_nil (is : List ℕ) (his : ∀ i ∈ is, i ≠ 0) :
    ∀ items : List Json, items ≠ [] → is.foldl List.eraseIdx items ≠ [] := by
  induction is with
  | nil => exact fun items h => h
  | cons i is ih =>
    obtain ⟨hi, hrest⟩ := List.forall_mem_cons.mp his
    intro items hitems
    obtain ⟨j, rfl⟩ := Nat.exists_eq_succ_of_ne_zero hi
    cases items with
    | nil => exact absurd rfl hitems
    | cons item items => exact ih hrest _ (by simp)

/-- Of a list with two items one is left, when its indexes are erased one after the other. -/
theorem foldl_eraseIdx_range_iff :
    (List.range items.length).foldl List.eraseIdx items = [] ↔ items.length ≤ 1 := by
  cases items with
  | nil => simp
  | cons item items =>
    cases items with
    | nil => simp
    | cons second items =>
      refine iff_of_false ?_ (by simp)
      rw [List.length_cons, List.range_succ_eq_map, List.foldl_cons, List.eraseIdx_cons_zero]
      refine foldl_eraseIdx_ne_nil _ (fun i hi => ?_) _ (List.cons_ne_nil _ _)
      obtain ⟨j, -, rfl⟩ := List.mem_map.mp hi
      exact Nat.succ_ne_zero j

theorem places_last_array : places index [.any] (some (.array items)) =
    (List.range items.length).map fun i => [i.repr] := by
  show ((List.range items.length).map Nat.repr).flatMap (fun key => [[key]]) = _
  rw [List.flatMap_map]
  exact List.map_eq_flatMap.symm

/-- Edits that change what is there and leave alone what is not. -/
def Edit.Total (edit : Edit) : Prop :=
  edit none = some none ∧ ∀ v : Json, v.DuplicateFree → ∃ v', edit (some v) = some (some v')

theorem exists_editMembers {members : Members}
    (h : ∀ value ∈ members.map Prod.snd, ∃ x, edit (some value) = some x) :
    ∃ members', editMembers (fun _ => edit) members = some members' := by
  induction members with
  | nil => exact ⟨[], rfl⟩
  | cons member members ih =>
    obtain ⟨name, value⟩ := member
    rw [List.map_cons, List.forall_mem_cons] at h
    obtain ⟨⟨x, hx⟩, hrest⟩ := h
    obtain ⟨members', hmembers⟩ := ih hrest
    exact ⟨_, by rw [editMembers, hx, hmembers]; rfl⟩

theorem exists_editItems (h : ∀ item ∈ items, ∃ x, edit (some item) = some x) :
    ∃ items', editItems edit items = some items' := by
  induction items with
  | nil => exact ⟨[], rfl⟩
  | cons item items ih =>
    obtain ⟨⟨x, hx⟩, hrest⟩ := List.forall_mem_cons.mp h
    obtain ⟨items', hitems⟩ := ih hrest
    exact ⟨_, by rw [editItems, hx, hitems]; rfl⟩

theorem exists_editSlots (index : String → Option ℕ) (segment : Segment)
    (hnone : ∃ x, edit none = some x)
    (h : ∀ c ∈ v.children, ∃ x, edit (some c) = some x) :
    ∃ v', editSlots index edit segment v = some v' := by
  cases segment with
  | any =>
    cases v with
    | object members =>
      obtain ⟨members', hmembers⟩ := exists_editMembers h
      exact ⟨_, by rw [editSlots, hmembers]; rfl⟩
    | array items =>
      obtain ⟨items', hitems⟩ : ∃ items', editItems edit items = some items' :=
        exists_editItems h
      exact ⟨_, by rw [editSlots, hitems]; rfl⟩
    | _ => exact ⟨_, rfl⟩
  | name key =>
    rw [editSlots]
    split
    · exact ⟨_, rfl⟩
    · have hchild : ∃ x, edit (v.child key) = some x := by
        cases hc : v.child key with
        | none => exact hnone
        | some c => exact h c (mem_children_of_child hc)
      obtain ⟨x, hx⟩ := hchild
      exact ⟨_, by rw [hx]; rfl⟩
  | nothing => cases v <;> exact ⟨_, rfl⟩

theorem total_rewrite_remove (hne : segments ≠ []) : (rewrite index remove segments).Total := by
  have hsome : ∀ (segments : List Segment) (x : Option Json),
      ∃ y, rewrite index remove segments x = some y := by
    intro segments
    induction segments with
    | nil => exact fun x => ⟨none, rfl⟩
    | cons segment segments ih =>
      intro x
      cases x with
      | none => exact ⟨none, rfl⟩
      | some v =>
        obtain ⟨v', hv'⟩ := exists_editSlots index segment (v := v)
          (ih none) fun c _ => ih (some c)
        exact ⟨some v', by rw [rewrite, hv']; rfl⟩
  cases segments with
  | nil => exact absurd rfl hne
  | cons segment segments =>
    refine ⟨rfl, fun v _ => ?_⟩
    obtain ⟨v', hv'⟩ := exists_editSlots index segment (v := v)
      (hsome segments none) fun c _ => hsome segments (some c)
    exact ⟨v', by rw [rewrite, hv']; rfl⟩

/-- The items of a list that the last segment matches go in turn. -/
theorem editEach_last_array : editEach absent index remove [.any] (some (.array items)) =
    some (some (.array ((List.range items.length).foldl List.eraseIdx items))) := by
  rw [editEach, places_last_array, editAll_remove]

theorem total_editEach_remove (hindex : ReadsDigits index) :
    ∀ segments : List Segment, segments ≠ [] →
    Edit.Total (editEach absent index remove segments)
  | [], hne => absurd rfl hne
  | segment :: segments, _ => by
    refine ⟨rfl, fun v hv => ?_⟩
    by_cases hlast : segments = [] ∧ segment = .any ∧ ∃ items, v = .array items
    · obtain ⟨rfl, rfl, items, rfl⟩ := hlast
      exact ⟨_, editEach_last_array⟩
    · have hrest : ∀ c ∈ v.children, ∃ x, editEach absent index remove segments (some c) = some x ∧
          (segments ≠ [] → x ≠ none) := by
        intro c hc
        by_cases hne : segments = []
        · rw [hne, editEach_nil]
          exact ⟨none, rfl, fun h => absurd rfl h⟩
        · obtain ⟨c', hc'⟩ := (total_editEach_remove hindex segments hne).2 c
            (duplicateFree_of_mem_children hv hc)
          exact ⟨some c', hc', fun _ => Option.some_ne_none c'⟩
      have hnone : ∃ x, editEach absent index remove segments none = some x := by
        by_cases hne : segments = []
        · rw [hne, editEach_nil]
          exact ⟨none, rfl⟩
        · exact ⟨none, (total_editEach_remove hindex segments hne).1⟩
      have hchildren : ∀ c ∈ v.children, ∃ x,
          editEach absent index remove segments (some c) = some x := fun c hc =>
        let ⟨x, hx, _⟩ := hrest c hc
        ⟨x, hx⟩
      obtain ⟨v', hv'⟩ := exists_editSlots index segment hnone hchildren
      refine ⟨v', ?_⟩
      rw [editEach_cons hindex hv, hv']
      · rfl
      · rintro rfl items rfl item hitem heq
        obtain ⟨x, hx, hsome⟩ := hrest item hitem
        have hx' : x = none := Option.some.inj (hx.symm.trans heq)
        by_cases hne : segments = []
        · exact hlast ⟨hne, rfl, items, rfl⟩
        · exact hsome hne hx'

variable {edit' : Edit}

theorem editMembers_eq_iff {members : Members}
    (h : ∀ value ∈ members.map Prod.snd, ∃ v, edit (some value) = some (some v))
    (h' : ∀ value ∈ members.map Prod.snd, ∃ v, edit' (some value) = some (some v)) :
    editMembers (fun _ => edit) members = editMembers (fun _ => edit') members ↔
      ∀ value ∈ members.map Prod.snd, edit (some value) = edit' (some value) := by
  induction members with
  | nil => simp [editMembers]
  | cons member members ih =>
    obtain ⟨name, value⟩ := member
    rw [List.map_cons, List.forall_mem_cons] at h h'
    obtain ⟨⟨v, hv⟩, hrest⟩ := h
    obtain ⟨⟨v', hv'⟩, hrest'⟩ := h'
    obtain ⟨rest, hmembers⟩ := exists_editMembers fun value hvalue =>
      let ⟨v, hv⟩ := hrest value hvalue
      ⟨some v, hv⟩
    obtain ⟨rest', hmembers'⟩ := exists_editMembers fun value hvalue =>
      let ⟨v, hv⟩ := hrest' value hvalue
      ⟨some v, hv⟩
    rw [List.map_cons, List.forall_mem_cons, ← ih hrest hrest', editMembers, editMembers, hv, hv',
      hmembers, hmembers']
    simp

theorem editItems_eq_iff (h : ∀ item ∈ items, ∃ v, edit (some item) = some (some v))
    (h' : ∀ item ∈ items, ∃ v, edit' (some item) = some (some v)) :
    editItems edit items = editItems edit' items ↔
      ∀ item ∈ items, edit (some item) = edit' (some item) := by
  induction items with
  | nil => simp [editItems]
  | cons item items ih =>
    obtain ⟨⟨v, hv⟩, hrest⟩ := List.forall_mem_cons.mp h
    obtain ⟨⟨v', hv'⟩, hrest'⟩ := List.forall_mem_cons.mp h'
    obtain ⟨rest, hitems⟩ := exists_editItems fun item hitem =>
      let ⟨v, hv⟩ := hrest item hitem
      ⟨some v, hv⟩
    obtain ⟨rest', hitems'⟩ := exists_editItems fun item hitem =>
      let ⟨v, hv⟩ := hrest' item hitem
      ⟨some v, hv⟩
    rw [List.forall_mem_cons, ← ih hrest hrest', editItems, editItems, hv, hv', hitems, hitems']
    simp

/-- Two edits of a segment come to the same exactly if they do at every key that it matches. -/
theorem editSlots_eq_iff (hv : v.DuplicateFree) (h : edit.Total) (h' : edit'.Total) :
    editSlots index edit segment v = editSlots index edit' segment v ↔
      ∀ key ∈ slots index segment v, edit (v.child key) = edit' (v.child key) := by
  have hchildren : ∀ c ∈ v.children, c.DuplicateFree := fun c =>
    duplicateFree_of_mem_children hv
  cases segment with
  | any =>
    cases v with
    | object members =>
      have hinj : editSlots index edit .any (.object members) =
          editSlots index edit' .any (.object members) ↔
          editMembers (fun _ => edit) members = editMembers (fun _ => edit') members := by
        rw [editSlots, editSlots]
        exact (Option.map_injective fun _ _ => Json.object.inj).eq_iff
      rw [hinj, editMembers_eq_iff (fun value hvalue => h.2 value (hchildren value hvalue))
        fun value hvalue => h'.2 value (hchildren value hvalue)]
      constructor
      · intro hall key hkey
        obtain ⟨member, hmember, rfl⟩ := List.mem_map.mp (mem_slots_any.mp hkey)
        have hlookup := (GoMap.mem_iff_lookup hv.1).mp hmember
        show edit (members.lookup member.1) = edit' (members.lookup member.1)
        rw [hlookup]
        exact hall _ (List.mem_map_of_mem hmember)
      · intro hall value hvalue
        obtain ⟨member, hmember, rfl⟩ := List.mem_map.mp hvalue
        have hlookup := (GoMap.mem_iff_lookup hv.1).mp hmember
        have hkey := hall member.1 (mem_slots_any.mpr (List.mem_map_of_mem hmember))
        have hchild : (Json.object members).child member.1 = some member.2 := hlookup
        rwa [hchild] at hkey
    | array items =>
      have hinj : editSlots index edit .any (.array items) =
          editSlots index edit' .any (.array items) ↔
          editItems edit items = editItems edit' items := by
        rw [editSlots, editSlots]
        exact (Option.map_injective fun _ _ => Json.array.inj).eq_iff
      have hchild : ∀ i : ℕ, (Json.array items).child i.repr = items[i]? := by
        intro i
        show (arrayIndex i.repr).bind (fun i => items[i]?) = items[i]?
        rw [arrayIndex_repr]
        rfl
      have hitems : editItems edit items = editItems edit' items ↔
          ∀ item ∈ items, edit (some item) = edit' (some item) :=
        editItems_eq_iff (fun item hitem => h.2 item (hchildren item hitem))
          fun item hitem => h'.2 item (hchildren item hitem)
      rw [hinj, hitems]
      constructor
      · intro hall key hkey
        obtain ⟨i, hi, rfl⟩ := List.mem_map.mp hkey
        rw [hchild, List.getElem?_eq_getElem (List.mem_range.mp hi)]
        exact hall _ (List.getElem_mem _)
      · intro hall item hitem
        obtain ⟨i, hi, rfl⟩ := List.mem_iff_getElem.mp hitem
        have hkey := hall i.repr (List.mem_map_of_mem (List.mem_range.mpr hi))
        rwa [hchild, List.getElem?_eq_getElem hi] at hkey
    | _ => simp [editSlots, slots]
  | name key =>
    rw [editSlots, editSlots]
    rcases slots_name_eq index key v with hslots | hslots
    · simp [hslots]
    · rw [hslots, if_neg (List.cons_ne_nil _ _), if_neg (List.cons_ne_nil _ _),
        List.forall_mem_singleton]
      refine ⟨fun heq => ?_, fun heq => by rw [heq]⟩
      cases hchild : v.child key with
      | none => rw [h.1, h'.1]
      | some c =>
        have hc := hchildren c (mem_children_of_child hchild)
        obtain ⟨a, ha⟩ := h.2 c hc
        obtain ⟨b, hb⟩ := h'.2 c hc
        rw [hchild, ha, hb] at heq
        have hput : v.put key (some a) = v.put key (some b) := Option.some.inj heq
        have hsome : some a = some b := by
          rw [← child_put hchild a, hput, child_put hchild b]
        rw [ha, hb, hsome]
  | nothing => cases v <;> simp [editSlots, slots]

/-- **The places of a pattern go** by being removed one after the other exactly if its last
segment takes every item of no list with more than one. -/
theorem editEach_remove_iff (hindex : ReadsDigits index) :
    ∀ (segments : List Segment) (x : Option Json),
    (∀ v, x = some v → v.DuplicateFree) →
      (editEach absent index remove segments x = rewrite index remove segments x ↔
        Single index segments x)
  | [], x, _ => iff_of_true (congrFun editEach_nil x) trivial
  | _ :: _, none, _ => iff_of_true rfl trivial
  | [segment], some v, hfree => by
    by_cases hlast : segment = .any ∧ ∃ items, v = .array items
    · obtain ⟨rfl, items, rfl⟩ := hlast
      have hrewrite : rewrite index remove [.any] (some (.array items)) =
          some (some (.array [])) := by
        show ((editItems remove items).map Json.array).map some = _
        rw [editItems_remove]
        rfl
      rw [editEach_last_array, hrewrite, Option.some.injEq, Option.some.injEq, Json.array.injEq,
        foldl_eraseIdx_range_iff]
      constructor
      · intro hle
        exact ⟨fun _ _ items' heq => Json.array.inj heq ▸ hle, fun _ _ => trivial⟩
      · intro hsingle
        exact hsingle.1 rfl rfl items rfl
    · refine iff_of_true ?_ ⟨fun _ hany items hitems => ?_, fun _ _ => trivial⟩
      · rw [editEach_cons hindex (hfree v rfl), editEach_nil]
        · rfl
        · intro hany items hitems
          exact absurd ⟨hany, items, hitems⟩ hlast
      · exact absurd ⟨hany, items, hitems⟩ hlast
  | segment :: second :: segments, some v, hfree => by
    have hv := hfree v rfl
    have hcode : Edit.Total (editEach absent index remove (second :: segments)) :=
      total_editEach_remove hindex _ (List.cons_ne_nil _ _)
    have hspec : Edit.Total (rewrite index remove (second :: segments)) :=
      total_rewrite_remove (List.cons_ne_nil _ _)
    rw [editEach_cons hindex hv, rewrite, (Option.map_injective (Option.some_injective _)).eq_iff,
      editSlots_eq_iff hv hcode hspec]
    · have hiff : ∀ key, editEach absent index remove (second :: segments) (v.child key) =
          rewrite index remove (second :: segments) (v.child key) ↔
          Single index (second :: segments) (v.child key) := by
        intro key
        refine editEach_remove_iff hindex (second :: segments) (v.child key) fun c hc => ?_
        exact duplicateFree_of_mem_children hv (mem_children_of_child hc)
      simp only [hiff]
      constructor
      · intro hall
        exact ⟨fun hnil => absurd hnil (List.cons_ne_nil _ _), hall⟩
      · intro hsingle
        exact hsingle.2
    · rintro - items rfl item hitem heq
      obtain ⟨v', hv'⟩ := hcode.2 item (duplicateFree_of_mem_children hv hitem)
      rw [hv'] at heq
      cases heq

end Edits

/-! ## The places -/

section Places

variable {index index' : String → Option ℕ} {v c : Json} {key : String} {segment : Segment}
  {segments : List Segment}

theorem repr_injective : Function.Injective Nat.repr := by
  intro i j h
  have hi := arrayIndex_repr i
  rw [h, arrayIndex_repr] at hi
  exact (Option.some.inj hi).symm

theorem nodup_slots (hv : v.DuplicateFree) : (slots index segment v).Nodup := by
  cases segment with
  | any =>
    cases v with
    | object members => exact (List.perm_insertionSort (· ≤ ·) _).nodup_iff.mpr hv.1
    | array items => exact List.nodup_range.map repr_injective
    | _ => exact List.nodup_nil
  | name key =>
    rcases slots_name_eq index key v with hslots | hslots
    · rw [hslots]
      exact List.nodup_nil
    · rw [hslots]
      exact List.nodup_singleton key
  | nothing => cases v <;> exact List.nodup_nil

theorem mem_children_of_childOf (h : childOf index segment v key = some c) : c ∈ v.children := by
  unfold childOf at h
  split at h
  · obtain ⟨i, -, hget⟩ := Option.bind_eq_some_iff.mp h
    exact List.mem_of_getElem? hget
  · exact mem_children_of_child h

/-- No place is matched twice. -/
theorem nodup_places : ∀ (segments : List Segment) (x : Option Json),
    (∀ v, x = some v → v.DuplicateFree) → (places index segments x).Nodup
  | [], _, _ => List.nodup_singleton []
  | _ :: _, none, _ => List.nodup_nil
  | segment :: segments, some v, hfree => by
    have hv := hfree v rfl
    rw [places, List.nodup_flatMap]
    refine ⟨fun key _ => ?_, (nodup_slots hv).imp fun {a b} hne => ?_⟩
    · refine (nodup_places segments _ fun c hc => ?_).map (List.cons_injective)
      exact duplicateFree_of_mem_children hv (mem_children_of_childOf hc)
    · intro keys ha hb
      obtain ⟨rest, -, rfl⟩ := List.mem_map.mp ha
      obtain ⟨rest', -, heq⟩ := List.mem_map.mp hb
      exact hne (List.cons.inj heq).1.symm

theorem flatMap_sublist {α β : Type} {f g : α → List β} {l : List α}
    (h : ∀ a ∈ l, (f a).Sublist (g a)) : (l.flatMap f).Sublist (l.flatMap g) := by
  induction l with
  | nil => exact List.Sublist.refl []
  | cons a l ih =>
    obtain ⟨ha, hl⟩ := List.forall_mem_cons.mp h
    exact ha.append (ih hl)

/-- Where more names are read as indexes, more places are matched. -/
theorem places_sublist (h : ∀ key i, index key = some i → index' key = some i) :
    ∀ (segments : List Segment) (x : Option Json),
      (places index segments x).Sublist (places index' segments x)
  | [], _ => List.Sublist.refl _
  | _ :: _, none => List.Sublist.refl _
  | segment :: segments, some v => by
    rw [places, places]
    have hsame : slots index segment v = slots index' segment v →
        (∀ key ∈ slots index segment v,
          childOf index segment v key = childOf index' segment v key) →
        ((slots index segment v).flatMap fun key =>
          (places index segments (childOf index segment v key)).map fun keys => key :: keys).Sublist
        ((slots index' segment v).flatMap fun key =>
          (places index' segments (childOf index' segment v key)).map fun keys => key :: keys) := by
      intro hslots hchildren
      rw [← hslots]
      refine flatMap_sublist fun key hkey => ?_
      rw [hchildren key hkey]
      exact (places_sublist h segments _).map _
    cases segment with
    | any => cases v <;> exact hsame rfl fun _ _ => rfl
    | name name =>
      cases v with
      | array items =>
        rcases slots_name_eq index name (.array items) with hslots | hslots
        · rw [hslots]
          exact List.nil_sublist _
        · have hany : (index name).any (· < items.length) = true := by
            by_contra hnot
            rw [slots, if_neg hnot] at hslots
            cases hslots
          obtain ⟨i, hi, hlt⟩ := (Option.any_eq_true ..).mp hany
          have hi' := h name i hi
          refine hsame ?_ fun key hkey => ?_
          · simp only [slots, hi, hi']
          · rw [hslots, List.mem_singleton] at hkey
            subst hkey
            simp only [childOf, hi, hi']
      | _ => exact hsame rfl fun _ _ => rfl
    | nothing => cases v <;> exact hsame rfl fun _ _ => rfl

end Places

end JsonValue
