import GMasterApi.Lib.JsonEdit

/-!
# A value set at one place and then removed from another

`setAt` and `deleteAt` are what is made of a value by setting and by removing a place.  When a
value is moved by first the one and then the other, the place that is removed may be the one
that has been set, lead through it, or stand before it in a list.  `Survives` says for two places
when the value is at its new place after both (`at_deleteAt_setAt_iff`), and all that is apart
from both places is kept in any case (`at_after`).
-/

namespace JsonValue

open GoString

/-! ## Setting and removing -/

/-- What is made of a place in what is not there, or in a value that has no parts. -/
structure Creation where
  create : Option Json → List String → Json → Except String Json
  at_create : ∀ v keys x r, create v keys x = .ok r → r.at keys = some x

def nonNumericKey (key : String) : String :=
  "cannot set array element for non-numeric key '" ++ key ++ "'"

/-- A list is filled up with `null` to an index behind its end. -/
def setAt (C : Creation) (x : Json) : List String → Json → Except String Json
  | [], _ => .ok x
  | key :: keys, .object members =>
    (match members.lookup key with
      | some c => setAt C x keys c
      | none => C.create none keys x).map fun c => .object (GoMap.assign members key c)
  | key :: keys, .array items =>
    match arrayIndex key with
    | none => .error (nonNumericKey key)
    | some i =>
      match items[i]? with
      | some c => (setAt C x keys c).map fun c => .array (items.set i c)
      | none => (C.create none keys x).map fun c =>
          .array (items ++ List.replicate (i - items.length) .null ++ [c])
  | key :: keys, v => C.create (some v) (key :: keys) x

/-- The key `-1` removes the last item of a list. -/
def removedKey (v : Json) (key : String) : String :=
  match v with
  | .array items => if key = "-1" ∧ items ≠ [] then (items.length - 1).repr else key
  | _ => key

def deleteAt : List String → Json → Json
  | [], v => v
  | key :: keys, v =>
    if keys = [] then v.put (removedKey v key) none
    else
      match v.child (removedKey v key) with
      | some c => v.put (removedKey v key) (some (deleteAt keys c))
      | none => v

/-! ## Places of one value -/

/-- Two keys of a value for one part. -/
def SameKey (v : Json) (a b : String) : Prop :=
  match v with
  | .array _ => arrayIndex a = arrayIndex b
  | _ => a = b

instance (v : Json) (a b : String) : Decidable (SameKey v a b) := by
  unfold SameKey
  split <;> infer_instance

/-- Neither place leads to the other or through it. -/
def Apart : Json → List String → List String → Prop
  | v, a :: p, b :: q => SameKey v a b → ∃ c, v.child a = some c ∧ Apart c p q
  | _, _, _ => False

/-- Where a place is after another one has been removed: the items behind it move up. -/
def after : Json → List String → List String → List String
  | v, key :: keys, b :: q =>
    if keys = [] then
      match v, arrayIndex key, arrayIndex b with
      | .array _, some i, some j => (if i < j then (j - 1).repr else b) :: q
      | _, _, _ => b :: q
    else if SameKey v key b then
      match v.child key with
      | some c => b :: after c keys q
      | none => b :: q
    else b :: q
  | _, _, place => place

/-- A removal finds something at the place. -/
def Reaches : List String → Json → Prop
  | [], _ => True
  | key :: keys, v => ∃ c, v.child (removedKey v key) = some c ∧ Reaches keys c

/-- After `y` has been set at the second place and the first one is removed, `x` is at the second
place. -/
def Survives (x y : Json) : Json → List String → List String → Prop
  | v, f :: source, t :: target =>
    if source = [] then
      match v, arrayIndex f, arrayIndex t with
      | .array _, some i, some j =>
        if j < i then y = x else v.at ((j + 1).repr :: target) = some x
      | _, _, _ => t ≠ f ∧ y = x
    else if target = [] then y = x ∧ (SameKey v f t → ¬ Reaches source x)
    else if SameKey v f t then ∃ c, v.child f = some c ∧ Survives x y c source target
    else y = x
  | _, _, _ => y = x

/-! ## One key -/

section Key

variable {C : Creation} {x y v s c : Json} {f t a b : String} {target : List String}

theorem isContainer_of_child (h : v.child f = some c) :
    (∃ members, v = .object members) ∨ ∃ items, v = .array items := by
  cases v with
  | object members => exact .inl ⟨members, rfl⟩
  | array items => exact .inr ⟨items, rfl⟩
  | _ => cases h

theorem child_of_sameKey (h : SameKey v a b) : v.child a = v.child b := by
  cases v with
  | array items =>
    have hindex : arrayIndex a = arrayIndex b := h
    simp only [Json.child, hindex]
  | _ =>
    obtain rfl : a = b := h
    rfl

theorem sameKey_put (child : Option Json) : SameKey (v.put f child) a b ↔ SameKey v a b := by
  cases v with
  | array items =>
    simp only [Json.put]
    split <;> rfl
  | _ => rfl

/-- The other parts stay. -/
theorem child_put_of_not_same (h : ¬ SameKey v a f) :
    (v.put f (some c)).child a = v.child a := by
  cases v with
  | object members => exact lookup_putMember_of_ne h (some c)
  | array items =>
    have hne : arrayIndex a ≠ arrayIndex f := h
    unfold Json.put Json.child
    cases hf : arrayIndex f with
    | none => rfl
    | some i =>
      cases ha : arrayIndex a with
      | none => rfl
      | some j =>
        have hij : i ≠ j := by
          rintro rfl
          exact hne (ha.trans hf.symm)
        simp [putItem, hij]
  | _ => rfl

theorem removedKey_array {items : List Json} (h : arrayIndex f ≠ none) :
    removedKey (.array items) f = f := by
  refine if_neg fun hlast => h ?_
  rw [hlast.1]
  rfl

theorem removedKey_eq (h : v.child f = some c) : removedKey v f = f := by
  cases v with
  | array items =>
    refine removedKey_array fun hnone => ?_
    rw [Json.child, hnone] at h
    cases h
  | _ => rfl

theorem exists_of_map_ok {α β ε : Type} {e : Except ε α} {g : α → β} {b : β}
    (h : e.map g = .ok b) : ∃ a, e = .ok a ∧ g a = b := by
  cases e with
  | error => cases h
  | ok a => exact ⟨a, rfl, Except.ok.inj h⟩

/-- What is set below a part that is there replaces the part. -/
theorem setAt_of_child (hchild : v.child f = some c) (hsame : SameKey v f t)
    (h : setAt C x (t :: target) v = .ok s) :
    ∃ c', setAt C x target c = .ok c' ∧ s = v.put f (some c') := by
  rcases isContainer_of_child hchild with ⟨members, rfl⟩ | ⟨items, rfl⟩
  · obtain rfl : f = t := hsame
    have hlookup : members.lookup f = some c := hchild
    rw [setAt, hlookup] at h
    obtain ⟨c', hc', rfl⟩ := exists_of_map_ok h
    exact ⟨c', hc', rfl⟩
  · obtain ⟨i, hi, hget⟩ := Option.bind_eq_some_iff.mp hchild
    have ht : arrayIndex t = some i := hsame.symm.trans hi
    rw [setAt, ht] at h
    dsimp only at h
    rw [hget] at h
    obtain ⟨c', hc', rfl⟩ := exists_of_map_ok h
    exact ⟨c', hc', by simp [Json.put, putItem, hi]⟩

theorem child_setAt_of_not_same (hchild : v.child f = some c) (hsame : ¬ SameKey v f t)
    (h : setAt C x (t :: target) v = .ok s) :
    s.child f = some c ∧ ∀ a b, SameKey s a b ↔ SameKey v a b := by
  rcases isContainer_of_child hchild with ⟨members, rfl⟩ | ⟨items, rfl⟩
  · rw [setAt] at h
    obtain ⟨c', -, rfl⟩ := exists_of_map_ok h
    refine ⟨?_, fun _ _ => Iff.rfl⟩
    rw [← hchild]
    exact GoMap.lookup_assign.trans (if_neg hsame)
  · obtain ⟨i, hi, hget⟩ := Option.bind_eq_some_iff.mp hchild
    obtain ⟨hlt, -⟩ := List.getElem?_eq_some_iff.mp hget
    rw [setAt] at h
    cases ht : arrayIndex t with
    | none =>
      rw [ht] at h
      cases h
    | some j =>
      have hij : j ≠ i := by
        rintro rfl
        exact hsame (hi.trans ht.symm)
      rw [ht] at h
      dsimp only at h
      split at h
      · obtain ⟨c', -, rfl⟩ := exists_of_map_ok h
        exact ⟨by simp [Json.child, hi, hij, hget], fun _ _ => Iff.rfl⟩
      · obtain ⟨c', -, rfl⟩ := exists_of_map_ok h
        refine ⟨?_, fun _ _ => Iff.rfl⟩
        show (arrayIndex f).bind (fun i => _) = some c
        rw [hi, Option.bind_some, List.append_assoc, List.getElem?_append_left hlt, hget]

/-- What has been set is there. -/
theorem at_setAt {keys : List String} (h : setAt C x keys v = .ok s) : s.at keys = some x := by
  induction keys generalizing v s with
  | nil =>
    cases h
    rfl
  | cons key keys ih =>
    cases v with
    | object members =>
      rw [setAt] at h
      obtain ⟨c, hc, rfl⟩ := exists_of_map_ok h
      have hat : c.at keys = some x := by
        split at hc
        · exact ih hc
        · exact C.at_create _ _ _ _ hc
      show ((GoMap.assign members key c).lookup key).bind _ = some x
      rw [GoMap.lookup_assign, if_pos rfl]
      exact hat
    | array items =>
      rw [setAt] at h
      cases hkey : arrayIndex key with
      | none =>
        rw [hkey] at h
        cases h
      | some i =>
        rw [hkey] at h
        dsimp only at h
        split at h
        · rename_i held hget
          obtain ⟨hlt, -⟩ := List.getElem?_eq_some_iff.mp hget
          obtain ⟨c, hc, rfl⟩ := exists_of_map_ok h
          have hchild : (Json.array (items.set i c)).child key = some c := by
            simp [Json.child, hkey, hlt]
          rw [Json.at, hchild]
          exact ih hc
        · rename_i hget
          have hle := List.getElem?_eq_none_iff.mp hget
          obtain ⟨c, hc, rfl⟩ := exists_of_map_ok h
          have hlength : (items ++ List.replicate (i - items.length) Json.null).length = i := by
            simp
            omega
          have hchild : (Json.array
              (items ++ List.replicate (i - items.length) .null ++ [c])).child key = some c := by
            simp only [Json.child, hkey, Option.bind_some]
            rw [List.getElem?_append_right (by omega), hlength, Nat.sub_self]
            rfl
          rw [Json.at, hchild]
          exact C.at_create _ _ _ _ hc
    | _ => exact C.at_create _ _ _ _ h

/-- A place that is there can be set. -/
theorem exists_setAt {keys : List String} (h : v.at keys = some c) :
    ∃ s, setAt C x keys v = .ok s := by
  induction keys generalizing v with
  | nil => exact ⟨x, rfl⟩
  | cons key keys ih =>
    obtain ⟨d, hchild, hat⟩ := Option.bind_eq_some_iff.mp h
    obtain ⟨s, hs⟩ := ih hat
    rcases isContainer_of_child hchild with ⟨members, rfl⟩ | ⟨items, rfl⟩
    · have hlookup : members.lookup key = some d := hchild
      rw [setAt, hlookup]
      dsimp only
      rw [hs]
      exact ⟨_, rfl⟩
    · obtain ⟨i, hi, hget⟩ := Option.bind_eq_some_iff.mp hchild
      rw [setAt, hi]
      dsimp only
      rw [hget]
      dsimp only
      rw [hs]
      exact ⟨_, rfl⟩

theorem setAt_array {items : List Json} (h : setAt C x (t :: target) (.array items) = .ok s) :
    ∃ j items', arrayIndex t = some j ∧ s = .array items' ∧
      ∀ k, k ≠ j → items[k]? ≠ none ∨ j < k → items'[k]? = items[k]? := by
  rw [setAt] at h
  cases ht : arrayIndex t with
  | none =>
    rw [ht] at h
    cases h
  | some j =>
    rw [ht] at h
    dsimp only at h
    split at h
    · obtain ⟨c', -, rfl⟩ := exists_of_map_ok h
      exact ⟨j, _, rfl, rfl, fun k hk _ => List.getElem?_set_ne (Ne.symm hk)⟩
    · rename_i hget
      have hle := List.getElem?_eq_none_iff.mp hget
      obtain ⟨c', -, rfl⟩ := exists_of_map_ok h
      refine ⟨j, _, rfl, rfl, fun k hk hin => ?_⟩
      by_cases hlt : k < items.length
      · rw [List.append_assoc, List.getElem?_append_left hlt]
      · have hbehind : j < k := hin.resolve_left fun hne =>
          hne (List.getElem?_eq_none_iff.mpr (by omega))
        rw [List.getElem?_eq_none_iff.mpr (by omega : items.length ≤ k),
          List.getElem?_eq_none_iff]
        simp
        omega

theorem deleteAt_cons {source : List String} (hne : source ≠ []) (h : s.child f = some c) :
    deleteAt (f :: source) s = s.put f (some (deleteAt source c)) := by
  rw [deleteAt, if_neg hne, removedKey_eq h, h]

theorem getElem?_eraseIdx_le {α : Type} {l : List α} {i j : ℕ} (h : i ≤ j) :
    (l.eraseIdx i)[j]? = l[j + 1]? := by
  rw [List.getElem?_eraseIdx, if_neg (by omega)]

end Key

/-! ## The value that is moved -/

section Move

variable {C : Creation} {x y v s c : Json} {f t : String} {source target : List String}
  {g : ℚ → Option ℚ}

theorem getElem?_mapItems {items items' : List Json} (h : mapItems g items = some items') (i : ℕ) :
    items'[i]? = (items[i]?).bind (Json.mapNumbers g) := by
  induction items generalizing items' i with
  | nil =>
    cases h
    rfl
  | cons item items ih =>
    rw [mapItems_cons] at h
    obtain ⟨item', hitem, h⟩ := Option.bind_eq_some_iff.mp h
    obtain ⟨rest, hrest, rfl⟩ := Option.map_eq_some_iff.mp h
    cases i with
    | zero => exact hitem.symm
    | succ i => exact ih hrest i

/-- A value with numbers of its own has the same parts. -/
theorem child_mapNumbers (h : x.mapNumbers g = some y) (f : String) :
    y.child f = (x.child f).bind (Json.mapNumbers g) := by
  cases x with
  | object members =>
    obtain ⟨members', hmembers, rfl⟩ := Option.map_eq_some_iff.mp h
    exact lookup_mapMembers hmembers f
  | array items =>
    obtain ⟨items', hitems, rfl⟩ := Option.map_eq_some_iff.mp h
    unfold Json.child
    dsimp only
    cases arrayIndex f with
    | none => rfl
    | some i => exact getElem?_mapItems hitems i
  | number q =>
    obtain ⟨q', -, rfl⟩ := Option.map_eq_some_iff.mp h
    rfl
  | _ =>
    cases h
    rfl

/-- A part that is removed does not come back with other numbers. -/
theorem put_none_ne (h : x.mapNumbers g = some y) (hchild : y.child f = some c) :
    y.put f none ≠ x := by
  rintro rfl
  rcases isContainer_of_child hchild with ⟨members, rfl⟩ | ⟨items, rfl⟩
  · rw [child_mapNumbers h] at hchild
    have hnone : ((Json.object members).put f none).child f = none :=
      lookup_delete.trans (if_pos rfl)
    rw [hnone] at hchild
    cases hchild
  · obtain ⟨i, hi, hget⟩ := Option.bind_eq_some_iff.mp hchild
    obtain ⟨hlt, -⟩ := List.getElem?_eq_some_iff.mp hget
    have hput : (Json.array items).put f none = .array (items.eraseIdx i) := by
      simp [Json.put, putItem, hi]
    rw [hput] at h
    obtain ⟨items', hitems, heq⟩ := Option.map_eq_some_iff.mp h
    cases heq
    have hlast := getElem?_mapItems hitems (items.length - 1)
    have hshort : (items.eraseIdx i)[items.length - 1]? = none := by
      rw [List.getElem?_eq_none_iff, List.length_eraseIdx_of_lt hlt]
    rw [hshort, Option.bind_none, List.getElem?_eq_none_iff] at hlast
    omega

/-- What is removed of a value is missing. -/
theorem not_reaches (h : x.mapNumbers g = some y) (hne : source ≠ [])
    (hdelete : deleteAt source y = x) : ¬ Reaches source y := by
  induction source generalizing x y with
  | nil => exact absurd rfl hne
  | cons f source ih =>
    rintro ⟨c, hchild, hreaches⟩
    rw [deleteAt] at hdelete
    by_cases hlast : source = []
    · rw [if_pos hlast] at hdelete
      exact put_none_ne h hchild hdelete
    · rw [if_neg hlast, hchild] at hdelete
      dsimp only at hdelete
      have hput := child_put hchild (deleteAt source c)
      rw [hdelete] at hput
      have hpart := child_mapNumbers h (removedKey y f)
      rw [hchild, hput, Option.bind_some] at hpart
      exact ih hpart.symm hlast rfl hreaches

theorem deleteAt_eq_self (h : ¬ Reaches source y) : deleteAt source y = y := by
  induction source generalizing y with
  | nil => rfl
  | cons f source ih =>
    rw [deleteAt]
    split
    · rename_i hlast
      rw [hlast] at h
      refine put_none ?_
      cases hchild : y.child (removedKey y f) with
      | none => rfl
      | some c => exact absurd ⟨c, hchild, trivial⟩ h
    · split
      · rename_i c hchild
        rw [ih fun hreaches => h ⟨c, hchild, hreaches⟩, put_child hchild]
      · rfl

theorem deleteAt_eq_iff (h : x.mapNumbers g = some y) (hne : source ≠ []) :
    deleteAt source y = x ↔ y = x ∧ ¬ Reaches source x := by
  constructor
  · intro hdelete
    have hnot := not_reaches h hne hdelete
    obtain rfl : y = x := (deleteAt_eq_self hnot).symm.trans hdelete
    exact ⟨rfl, hnot⟩
  · rintro ⟨rfl, hnot⟩
    exact deleteAt_eq_self hnot

/-- The place that is removed has no more keys. -/
theorem at_deleteAt_single_iff (hchild : v.child f = some c)
    (h : setAt C y (t :: target) v = .ok s) :
    (deleteAt [f] s).at (t :: target) = some x ↔ Survives x y v [f] (t :: target) := by
  have hat := at_setAt h
  rcases isContainer_of_child hchild with ⟨members, rfl⟩ | ⟨items, rfl⟩
  · rw [setAt] at h
    obtain ⟨c', -, rfl⟩ := exists_of_map_ok h
    show ((delete (GoMap.assign members t c') f).lookup t).bind _ = some x ↔ t ≠ f ∧ y = x
    rw [lookup_delete]
    by_cases hkey : t = f
    · rw [if_pos hkey]
      exact iff_of_false (by simp) fun hboth => hboth.1 hkey
    · rw [if_neg hkey]
      have hlookup : ((GoMap.assign members t c').lookup t).bind (fun child => child.at target) =
          some y := hat
      rw [hlookup, Option.some.injEq]
      exact (and_iff_right hkey).symm
  · obtain ⟨i, hi, hget⟩ := Option.bind_eq_some_iff.mp hchild
    obtain ⟨j, items', hj, rfl, hothers⟩ := setAt_array h
    have hlater := hothers (j + 1) (by omega) (.inr (by omega))
    have hsurvives : Survives x y (.array items) [f] (t :: target) ↔
        if j < i then y = x else (Json.array items).at ((j + 1).repr :: target) = some x := by
      simp only [Survives, if_true, hi, hj]
    have hdelete : deleteAt [f] (.array items') = .array (items'.eraseIdx i) := by
      rw [deleteAt, if_pos rfl, removedKey_array (by simp [hi])]
      simp [Json.put, putItem, hi]
    have hafter : (Json.array (items'.eraseIdx i)).at (t :: target) =
        ((items'.eraseIdx i)[j]?).bind fun c => c.at target := by
      simp [Json.at, Json.child, hj]
    have hset : (items'[j]?).bind (fun c => c.at target) = some y := by
      simpa [Json.at, Json.child, hj] using hat
    rw [hsurvives, hdelete, hafter]
    by_cases hlt : j < i
    · rw [if_pos hlt, List.getElem?_eraseIdx_of_lt hlt, hset, Option.some.injEq]
    · rw [if_neg hlt, getElem?_eraseIdx_le (by omega), hlater, Json.at, Json.child,
        arrayIndex_repr, Option.bind_some]

theorem SameKey.symm {a b : String} (h : SameKey v a b) : SameKey v b a := by
  unfold SameKey at h ⊢
  split at h <;> exact h.symm

theorem SameKey.trans {a b d : String} (h : SameKey v a b) (h' : SameKey v b d) :
    SameKey v a d := by
  cases v <;> exact Eq.trans h h'

/-- A removal below one part leaves the others alone. -/
theorem at_deleteAt_of_not_same (hne : source ≠ []) (hchild : s.child f = some c)
    (hkey : ¬ SameKey s f t) :
    (deleteAt (f :: source) s).at (t :: target) = s.at (t :: target) := by
  rw [deleteAt_cons hne hchild, Json.at, Json.at,
    child_put_of_not_same fun hsame => hkey hsame.symm]

/-- A removal below a part that has been put is one of the part. -/
theorem at_deleteAt_put (hne : source ≠ []) (hchild : v.child f = some c) (hkey : SameKey v f t)
    (c' : Json) (target : List String) :
    (deleteAt (f :: source) (v.put f (some c'))).at (t :: target) =
      (deleteAt source c').at target := by
  have hput := child_put hchild c'
  have hkey' : SameKey (v.put f (some (deleteAt source c'))) f t := (sameKey_put _).mpr hkey
  rw [deleteAt_cons hne hput, put_put, Json.at, ← child_of_sameKey hkey', child_put hchild]
  rfl

/-- **What has been moved** is at its new place if it has not been removed with the old one, and
has not moved up. -/
theorem at_deleteAt_setAt_iff (hnum : x.mapNumbers g = some y) :
    ∀ (source target : List String) (v s : Json), source ≠ [] → target ≠ [] →
      v.at source = some c → setAt C y target v = .ok s →
        ((deleteAt source s).at target = some x ↔ Survives x y v source target)
  | [], _, _, _, hne, _, _, _ => absurd rfl hne
  | _, [], _, _, _, hne, _, _ => absurd rfl hne
  | [f], t :: target, v, s, _, _, hat, h => by
    obtain ⟨held, hheld, -⟩ := Option.bind_eq_some_iff.mp hat
    exact at_deleteAt_single_iff hheld h
  | f :: second :: source, [t], v, s, _, _, hat, h => by
    obtain ⟨held, hheld, -⟩ := Option.bind_eq_some_iff.mp hat
    have hrest : second :: source ≠ [] := List.cons_ne_nil _ _
    unfold Survives
    rw [if_neg hrest, if_pos rfl]
    by_cases hsame : SameKey v f t
    · obtain ⟨c', hc', rfl⟩ := setAt_of_child hheld hsame h
      obtain rfl : y = c' := Except.ok.inj hc'
      rw [at_deleteAt_put hrest hheld hsame, Json.at, Option.some.injEq,
        deleteAt_eq_iff hnum hrest]
      simp [hsame]
    · obtain ⟨hstays, hkeys⟩ := child_setAt_of_not_same hheld hsame h
      rw [at_deleteAt_of_not_same hrest hstays ((hkeys f t).not.mpr hsame), at_setAt h,
        Option.some.injEq]
      simp [hsame]
  | f :: second :: source, t :: next :: target, v, s, _, _, hat, h => by
    obtain ⟨held, hheld, hat⟩ := Option.bind_eq_some_iff.mp hat
    have hrest : second :: source ≠ [] := List.cons_ne_nil _ _
    unfold Survives
    rw [if_neg hrest, if_neg (List.cons_ne_nil _ _)]
    by_cases hsame : SameKey v f t
    · obtain ⟨c', hc', rfl⟩ := setAt_of_child hheld hsame h
      have ih := at_deleteAt_setAt_iff hnum (second :: source) (next :: target) held c' hrest
        (List.cons_ne_nil _ _) hat hc'
      rw [if_pos hsame, at_deleteAt_put hrest hheld hsame, ih, hheld]
      simp
    · obtain ⟨hstays, hkeys⟩ := child_setAt_of_not_same hheld hsame h
      rw [if_neg hsame, at_deleteAt_of_not_same hrest hstays ((hkeys f t).not.mpr hsame),
        at_setAt h, Option.some.injEq]

/-! ## What is apart -/

variable {place : List String} {b : String} {q : List String} {d : Json}

/-- What is apart from a place that is set stays. -/
theorem at_setAt_of_apart (h : setAt C y target v = .ok s) (hplace : v.at place = some c)
    (hapart : Apart v target place) : s.at place = some c := by
  induction target generalizing v s place with
  | nil => cases hapart
  | cons t target ih =>
    cases place with
    | nil => cases hapart
    | cons b q =>
      obtain ⟨held, hheld, hat⟩ := Option.bind_eq_some_iff.mp hplace
      by_cases hsame : SameKey v b t
      · obtain ⟨c', hc', rfl⟩ := setAt_of_child hheld hsame h
        obtain ⟨held', hheld', hrest⟩ := hapart hsame.symm
        rw [← child_of_sameKey hsame, hheld, Option.some.injEq] at hheld'
        subst hheld'
        rw [Json.at, child_put hheld]
        exact ih hc' hat hrest
      · obtain ⟨hstays, -⟩ := child_setAt_of_not_same hheld hsame h
        rw [Json.at, hstays]
        exact hat

/-- Two values whose parts have the same keys. -/
def SameKind : Json → Json → Prop
  | .object _, .object _ => True
  | .array _, .array _ => True
  | _, _ => False

theorem sameKind_self (h : v.child f = some c) : SameKind v v := by
  rcases isContainer_of_child h with ⟨members, rfl⟩ | ⟨items, rfl⟩ <;> trivial

theorem sameKind_setAt (hchild : v.child f = some c) (h : setAt C y (t :: target) v = .ok s) :
    SameKind v s := by
  rcases isContainer_of_child hchild with ⟨members, rfl⟩ | ⟨items, rfl⟩
  · rw [setAt] at h
    obtain ⟨c', -, rfl⟩ := exists_of_map_ok h
    trivial
  · obtain ⟨j, items', -, rfl, -⟩ := setAt_array h
    trivial

/-- What is apart from the part that is removed stays, or moves up. -/
theorem at_after_single (hchild : v.child f = some d) (hkind : SameKind v s)
    (hplace : s.at (b :: q) = some c) (hkey : ¬ SameKey v f b) :
    (deleteAt [f] s).at (after v [f] (b :: q)) = some c := by
  rcases isContainer_of_child hchild with ⟨members, rfl⟩ | ⟨items, rfl⟩
  · cases s with
    | object members' =>
      show ((delete members' f).lookup b).bind _ = some c
      rw [lookup_delete, if_neg (Ne.symm hkey)]
      exact hplace
    | _ => cases hkind
  · cases s with
    | array items' =>
      obtain ⟨i, hi, -⟩ := Option.bind_eq_some_iff.mp hchild
      obtain ⟨part, hpart, hat⟩ := Option.bind_eq_some_iff.mp hplace
      obtain ⟨j, hj, hget⟩ := Option.bind_eq_some_iff.mp hpart
      have hij : i ≠ j := by
        rintro rfl
        exact hkey (hi.trans hj.symm)
      have hdelete : deleteAt [f] (.array items') = .array (items'.eraseIdx i) := by
        rw [deleteAt, if_pos rfl, removedKey_array (by simp [hi])]
        simp [Json.put, putItem, hi]
      have hafter : after (.array items) [f] (b :: q) =
          (if i < j then (j - 1).repr else b) :: q := by
        simp [after, hi, hj]
      have hmoved : (Json.array (items'.eraseIdx i)).child
          (if i < j then (j - 1).repr else b) = some part := by
        by_cases hlt : i < j
        · rw [if_pos hlt, Json.child, arrayIndex_repr, Option.bind_some,
            getElem?_eraseIdx_le (by omega), Nat.sub_add_cancel (by omega), hget]
        · rw [if_neg hlt, Json.child, hj, Option.bind_some,
            List.getElem?_eraseIdx_of_lt (by omega), hget]
      rw [hdelete, hafter, Json.at, hmoved]
      exact hat
    | _ => cases hkind

theorem after_of_not_same (hne : source ≠ []) (hkey : ¬ SameKey v f b) :
    after v (f :: source) (b :: q) = b :: q := by
  rw [after.eq_def]
  dsimp only
  rw [if_neg hne, if_neg hkey]

theorem after_of_same (hne : source ≠ []) (hkey : SameKey v f b) (hchild : v.child f = some c) :
    after v (f :: source) (b :: q) = b :: after c source q := by
  rw [after.eq_def]
  dsimp only
  rw [if_neg hne, if_pos hkey, hchild]

theorem at_of_sameKey (hkey : SameKey v f b) (hheld : v.child f = some held)
    (hplace : v.at (b :: q) = some c) : held.at q = some c := by
  rw [Json.at, ← child_of_sameKey hkey, hheld] at hplace
  exact hplace

/-- Removing a place leaves alone what is apart from it. -/
theorem at_after_deleteAt (hne : source ≠ []) (hsource : v.at source = some d)
    (hplace : v.at place = some c) (hapart : Apart v source place) :
    (deleteAt source v).at (after v source place) = some c := by
  induction source generalizing v place with
  | nil => exact absurd rfl hne
  | cons f source ih =>
    cases place with
    | nil => cases hapart
    | cons b q =>
      obtain ⟨held, hheld, hat⟩ := Option.bind_eq_some_iff.mp hsource
      by_cases hlast : source = []
      · subst hlast
        refine at_after_single hheld (sameKind_self hheld) hplace fun hsame => ?_
        obtain ⟨_, _, hnil⟩ := hapart hsame
        cases hnil
      · by_cases hkey : SameKey v f b
        · obtain ⟨held', hheld', hrest⟩ := hapart hkey
          obtain rfl : held = held' := Option.some.inj (hheld.symm.trans hheld')
          have hq := at_of_sameKey hkey hheld hplace
          have hself := at_deleteAt_put hlast hheld hkey held (after held source q)
          rw [put_child hheld] at hself
          rw [after_of_same hlast hkey hheld, hself]
          exact ih hlast hat hq hrest
        · rw [after_of_not_same hlast hkey, at_deleteAt_of_not_same hlast hheld hkey]
          exact hplace

/-- **What is apart from both places** is there after the value has been moved. -/
theorem at_after : ∀ (source target place : List String) (v s : Json), source ≠ [] →
    v.at source = some d → setAt C y target v = .ok s → v.at place = some c →
      Apart v source place → Apart v target place →
        (deleteAt source s).at (after v source place) = some c
  | [], _, _, _, _, hne, _, _, _, _, _ => absurd rfl hne
  | _ :: _, [], _, _, _, _, _, _, _, _, htarget => absurd htarget id
  | _ :: _, _ :: _, [], _, _, _, _, _, _, hapart, _ => absurd hapart id
  | f :: source, t :: target, b :: q, v, s, _, hsource, h, hplace, hapart, htarget => by
    obtain ⟨held, hheld, hat⟩ := Option.bind_eq_some_iff.mp hsource
    have hset := at_setAt_of_apart h hplace htarget
    by_cases hlast : source = []
    · subst hlast
      refine at_after_single hheld (sameKind_setAt hheld h) hset fun hsame => ?_
      obtain ⟨_, _, hnil⟩ := hapart hsame
      cases hnil
    · by_cases hkey : SameKey v f b
      · obtain ⟨held', hheld', hrest⟩ := hapart hkey
        obtain rfl : held = held' := Option.some.inj (hheld.symm.trans hheld')
        have hq := at_of_sameKey hkey hheld hplace
        rw [after_of_same hlast hkey hheld]
        by_cases hsame : SameKey v f t
        · obtain ⟨set, hpart, rfl⟩ := setAt_of_child hheld hsame h
          obtain ⟨held', hheld', hrest'⟩ := htarget (hsame.symm.trans hkey)
          rw [← child_of_sameKey hsame, hheld, Option.some.injEq] at hheld'
          subst hheld'
          rw [at_deleteAt_put hlast hheld hkey]
          exact at_after source target q held set hlast hat hpart hq hrest hrest'
        · obtain ⟨hstays, hkeys⟩ := child_setAt_of_not_same hheld hsame h
          have hself := at_deleteAt_put hlast hstays ((hkeys f b).mpr hkey) held
            (after held source q)
          rw [put_child hstays] at hself
          rw [hself]
          exact at_after_deleteAt hlast hat hq hrest
      · rw [after_of_not_same hlast hkey]
        by_cases hsame : SameKey v f t
        · obtain ⟨set, -, rfl⟩ := setAt_of_child hheld hsame h
          rw [at_deleteAt_of_not_same hlast (child_put hheld set) ((sameKey_put _).not.mpr hkey)]
          exact hset
        · obtain ⟨hstays, hkeys⟩ := child_setAt_of_not_same hheld hsame h
          rw [at_deleteAt_of_not_same hlast hstays ((hkeys f b).not.mpr hkey)]
          exact hset

end Move

end JsonValue
