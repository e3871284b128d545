import GMasterApi.Lib.JsonValue

/-!
# Objects that are taken out of a JSON value

`prune` takes out every object that a test drops, from the lists and objects it stands in, and
does not look into it.  `Below` says something of the objects that are looked at.  A test that
drops more leaves less (`nodes_prune_le`), and as much only where it drops the same
(`below_of_nodes_le`, `prune_congr`).
-/

namespace JsonValue

def dropped (drop : Members → Bool) : Json → Bool
  | .object members => drop members
  | _ => false

mutual

/-- The value itself stays. -/
def Json.prune (drop : Members → Bool) : Json → Json
  | .array items => .array (pruneItems drop items)
  | .object members => .object (pruneMembers drop members)
  | v => v

def pruneItems (drop : Members → Bool) : List Json → List Json
  | [] => []
  | item :: items =>
    if dropped drop item then pruneItems drop items
    else item.prune drop :: pruneItems drop items

def pruneMembers (drop : Members → Bool) : Members → Members
  | [] => []
  | (name, value) :: members =>
    if dropped drop value then pruneMembers drop members
    else (name, value.prune drop) :: pruneMembers drop members

end

/-- What is said of an object, of the value itself. -/
def Json.Own (p : Members → Prop) : Json → Prop
  | .object members => p members
  | _ => True

mutual

/-- What is said of the objects right of the value: of each that is dropped, and of each that is
looked into. -/
def Json.Below (drop : Members → Bool) (p : Members → Prop) : Json → Prop
  | .array items => ItemsBelow drop p items
  | .object members => MembersBelow drop p members
  | _ => True

def ItemsBelow (drop : Members → Bool) (p : Members → Prop) : List Json → Prop
  | [] => True
  | item :: items =>
    item.Own p ∧ (dropped drop item = false → item.Below drop p) ∧ ItemsBelow drop p items

def MembersBelow (drop : Members → Bool) (p : Members → Prop) : Members → Prop
  | [] => True
  | (_, value) :: members =>
    value.Own p ∧ (dropped drop value = false → value.Below drop p) ∧ MembersBelow drop p members

end

mutual

def Json.nodes : Json → ℕ
  | .array items => itemsNodes items + 1
  | .object members => membersNodes members + 1
  | _ => 1

def itemsNodes : List Json → ℕ
  | [] => 0
  | item :: items => item.nodes + itemsNodes items

def membersNodes : Members → ℕ
  | [] => 0
  | (_, value) :: members => value.nodes + membersNodes members

end

theorem nodes_pos (v : Json) : 0 < v.nodes := by
  cases v <;> simp [Json.nodes]

/-! ## Two tests -/

section Tests

variable {drop drop' : Members → Bool}

theorem dropped_mono (h : ∀ m, drop m = true → drop' m = true) {v : Json}
    (hv : dropped drop v = true) : dropped drop' v = true := by
  cases v with
  | object members => exact h members hv
  | _ => cases hv

theorem own_iff {v : Json} : v.Own (fun m => drop' m = true → drop m = true) ↔
    (dropped drop' v = true → dropped drop v = true) := by
  cases v <;> simp [Json.Own, dropped]

mutual

/-- A test that drops more leaves less. -/
theorem nodes_prune_le (h : ∀ m, drop m = true → drop' m = true) :
    ∀ v : Json, (v.prune drop').nodes ≤ (v.prune drop).nodes
  | .array items => Nat.succ_le_succ (nodes_pruneItems_le h items)
  | .object members => Nat.succ_le_succ (nodes_pruneMembers_le h members)
  | .null => le_refl _
  | .bool _ => le_refl _
  | .number _ => le_refl _
  | .string _ => le_refl _

theorem nodes_pruneItems_le (h : ∀ m, drop m = true → drop' m = true) :
    ∀ items : List Json, itemsNodes (pruneItems drop' items) ≤ itemsNodes (pruneItems drop items)
  | [] => le_refl _
  | item :: items => by
    have hitem := nodes_prune_le h item
    have hitems := nodes_pruneItems_le h items
    rw [pruneItems, pruneItems]
    cases hdrop : dropped drop item with
    | true => simpa [dropped_mono h hdrop] using hitems
    | false =>
      cases hdrop' : dropped drop' item with
      | true =>
        simp only [if_true, Bool.false_eq_true, if_false, itemsNodes]
        omega
      | false =>
        simp only [Bool.false_eq_true, if_false, itemsNodes]
        omega

theorem nodes_pruneMembers_le (h : ∀ m, drop m = true → drop' m = true) :
    ∀ members : Members,
      membersNodes (pruneMembers drop' members) ≤ membersNodes (pruneMembers drop members)
  | [] => le_refl _
  | (name, value) :: members => by
    have hvalue := nodes_prune_le h value
    have hmembers := nodes_pruneMembers_le h members
    rw [pruneMembers, pruneMembers]
    cases hdrop : dropped drop value with
    | true => simpa [dropped_mono h hdrop] using hmembers
    | false =>
      cases hdrop' : dropped drop' value with
      | true =>
        simp only [if_true, Bool.false_eq_true, if_false, membersNodes]
        omega
      | false =>
        simp only [Bool.false_eq_true, if_false, membersNodes]
        omega

end

mutual

/-- What leaves as much has dropped the same. -/
theorem below_of_nodes_le (h : ∀ m, drop m = true → drop' m = true) :
    ∀ v : Json, (v.prune drop).nodes ≤ (v.prune drop').nodes →
      v.Below drop' fun m => drop' m = true → drop m = true
  | .array items => fun hle => itemsBelow_of_nodes_le h items (Nat.le_of_succ_le_succ hle)
  | .object members => fun hle => membersBelow_of_nodes_le h members (Nat.le_of_succ_le_succ hle)
  | .null => fun _ => trivial
  | .bool _ => fun _ => trivial
  | .number _ => fun _ => trivial
  | .string _ => fun _ => trivial

theorem itemsBelow_of_nodes_le (h : ∀ m, drop m = true → drop' m = true) :
    ∀ items : List Json,
      itemsNodes (pruneItems drop items) ≤ itemsNodes (pruneItems drop' items) →
        ItemsBelow drop' (fun m => drop' m = true → drop m = true) items
  | [] => fun _ => trivial
  | item :: items => by
    intro hle
    have hitem := nodes_prune_le h item
    have hitems := nodes_pruneItems_le h items
    have hpos := nodes_pos (item.prune drop)
    rw [pruneItems, pruneItems] at hle
    rw [ItemsBelow, own_iff]
    cases hdrop : dropped drop item with
    | true =>
      have hdrop' := dropped_mono h hdrop
      rw [hdrop, hdrop', if_pos rfl, if_pos rfl] at hle
      exact ⟨fun _ => rfl, fun hfalse => absurd (hdrop'.symm.trans hfalse) (by decide),
        itemsBelow_of_nodes_le h items hle⟩
    | false =>
      cases hdrop' : dropped drop' item with
      | true =>
        simp only [hdrop, hdrop', if_true, Bool.false_eq_true, if_false, itemsNodes] at hle
        omega
      | false =>
        simp only [hdrop, hdrop', Bool.false_eq_true, if_false, itemsNodes] at hle
        exact ⟨nofun, fun _ => below_of_nodes_le h item (by omega),
          itemsBelow_of_nodes_le h items (by omega)⟩

theorem membersBelow_of_nodes_le (h : ∀ m, drop m = true → drop' m = true) :
    ∀ members : Members,
      membersNodes (pruneMembers drop members) ≤ membersNodes (pruneMembers drop' members) →
        MembersBelow drop' (fun m => drop' m = true → drop m = true) members
  | [] => fun _ => trivial
  | (name, value) :: members => by
    intro hle
    have hvalue := nodes_prune_le h value
    have hmembers := nodes_pruneMembers_le h members
    have hpos := nodes_pos (value.prune drop)
    rw [pruneMembers, pruneMembers] at hle
    rw [MembersBelow, own_iff]
    cases hdrop : dropped drop value with
    | true =>
      have hdrop' := dropped_mono h hdrop
      rw [hdrop, hdrop', if_pos rfl, if_pos rfl] at hle
      exact ⟨fun _ => rfl, fun hfalse => absurd (hdrop'.symm.trans hfalse) (by decide),
        membersBelow_of_nodes_le h members hle⟩
    | false =>
      cases hdrop' : dropped drop' value with
      | true =>
        simp only [hdrop, hdrop', if_true, Bool.false_eq_true, if_false, membersNodes] at hle
        omega
      | false =>
        simp only [hdrop, hdrop', Bool.false_eq_true, if_false, membersNodes] at hle
        exact ⟨nofun, fun _ => below_of_nodes_le h value (by omega),
          membersBelow_of_nodes_le h members (by omega)⟩

end

mutual

/-- Tests that drop the same leave the same. -/
theorem prune_congr (h : ∀ m, drop m = true → drop' m = true) :
    ∀ v : Json, (v.Below drop' fun m => drop' m = true → drop m = true) →
      v.prune drop' = v.prune drop
  | .array items => fun hbelow => congrArg Json.array (pruneItems_congr h items hbelow)
  | .object members => fun hbelow => congrArg Json.object (pruneMembers_congr h members hbelow)
  | .null => fun _ => rfl
  | .bool _ => fun _ => rfl
  | .number _ => fun _ => rfl
  | .string _ => fun _ => rfl

theorem pruneItems_congr (h : ∀ m, drop m = true → drop' m = true) :
    ∀ items : List Json, ItemsBelow drop' (fun m => drop' m = true → drop m = true) items →
      pruneItems drop' items = pruneItems drop items
  | [] => fun _ => rfl
  | item :: items => by
    rintro ⟨hown, hitem, hitems⟩
    rw [own_iff] at hown
    rw [pruneItems, pruneItems, pruneItems_congr h items hitems]
    cases hdrop' : dropped drop' item with
    | true => rw [if_pos rfl, if_pos (hown hdrop')]
    | false =>
      have hdrop : ¬ dropped drop item = true := fun hdrop =>
        absurd (hdrop'.symm.trans (dropped_mono h hdrop)) (by decide)
      rw [if_neg (by decide), if_neg hdrop, prune_congr h item (hitem hdrop')]

theorem pruneMembers_congr (h : ∀ m, drop m = true → drop' m = true) :
    ∀ members : Members,
      MembersBelow drop' (fun m => drop' m = true → drop m = true) members →
        pruneMembers drop' members = pruneMembers drop members
  | [] => fun _ => rfl
  | (name, value) :: members => by
    rintro ⟨hown, hvalue, hmembers⟩
    rw [own_iff] at hown
    rw [pruneMembers, pruneMembers, pruneMembers_congr h members hmembers]
    cases hdrop' : dropped drop' value with
    | true => rw [if_pos rfl, if_pos (hown hdrop')]
    | false =>
      have hdrop : ¬ dropped drop value = true := fun hdrop =>
        absurd (hdrop'.symm.trans (dropped_mono h hdrop)) (by decide)
      rw [if_neg (by decide), if_neg hdrop, prune_congr h value (hvalue hdrop')]

end

end Tests

/-! ## Numbers -/

section Numbers

variable {f : ℚ → Option ℚ} {drop : Members → Bool}

/-- A test of an object by what its numbers are read as. -/
def readTest (f : ℚ → Option ℚ) (drop : Members → Bool) (members : Members) : Bool :=
  (mapMembers f members).all drop

theorem dropped_readTest {v v' : Json} (h : v.mapNumbers f = some v') :
    dropped (readTest f drop) v = dropped drop v' := by
  cases v with
  | object members =>
    obtain ⟨members', hmembers, rfl⟩ := Option.map_eq_some_iff.mp h
    simp [dropped, readTest, hmembers]
  | array items =>
    obtain ⟨items', -, rfl⟩ := Option.map_eq_some_iff.mp h
    rfl
  | number n =>
    obtain ⟨n', -, rfl⟩ := Option.map_eq_some_iff.mp h
    rfl
  | _ =>
    cases h
    rfl

theorem mapItems_cons_some {item : Json} {items items' : List Json}
    (h : mapItems f (item :: items) = some items') :
    ∃ item' rest, item.mapNumbers f = some item' ∧ mapItems f items = some rest ∧
      items' = item' :: rest := by
  rw [mapItems_cons] at h
  obtain ⟨item', hitem, h⟩ := Option.bind_eq_some_iff.mp h
  obtain ⟨rest, hrest, rfl⟩ := Option.map_eq_some_iff.mp h
  exact ⟨item', rest, hitem, hrest, rfl⟩

mutual

/-- What is taken out of a value with other numbers. -/
theorem mapNumbers_prune : ∀ v v' : Json, v.mapNumbers f = some v' →
    (v.prune (readTest f drop)).mapNumbers f = some (v'.prune drop)
  | .array items => fun v' h => by
    obtain ⟨items', hitems, rfl⟩ := Option.map_eq_some_iff.mp h
    simp [Json.prune, Json.mapNumbers, mapItems_prune items items' hitems]
  | .object members => fun v' h => by
    obtain ⟨members', hmembers, rfl⟩ := Option.map_eq_some_iff.mp h
    simp [Json.prune, Json.mapNumbers, mapMembers_prune members members' hmembers]
  | .null => fun _ h => by
    cases h
    rfl
  | .bool _ => fun _ h => by
    cases h
    rfl
  | .string _ => fun _ h => by
    cases h
    rfl
  | .number n => fun v' h => by
    obtain ⟨n', hn, rfl⟩ := Option.map_eq_some_iff.mp h
    exact h

theorem mapItems_prune : ∀ items items' : List Json, mapItems f items = some items' →
    mapItems f (pruneItems (readTest f drop) items) = some (pruneItems drop items')
  | [] => fun _ h => by
    cases h
    rfl
  | item :: items => fun items' h => by
    obtain ⟨item', rest, hitem, hrest, rfl⟩ := mapItems_cons_some h
    have hitems := mapItems_prune items rest hrest
    rw [pruneItems, pruneItems, dropped_readTest hitem]
    split
    · exact hitems
    · rw [mapItems_cons, mapNumbers_prune item item' hitem, hitems]
      rfl

theorem mapMembers_prune : ∀ members members' : Members, mapMembers f members = some members' →
    mapMembers f (pruneMembers (readTest f drop) members) = some (pruneMembers drop members')
  | [] => fun _ h => by
    cases h
    rfl
  | (name, value) :: members => fun members' h => by
    obtain ⟨value', rest, hvalue, hrest, rfl⟩ := mapMembers_cons_some h
    have hmembers := mapMembers_prune members rest hrest
    rw [pruneMembers, pruneMembers, dropped_readTest hvalue]
    split
    · exact hmembers
    · rw [mapMembers_cons, mapNumbers_prune value value' hvalue, hmembers]
      rfl

end

mutual

theorem nodes_mapNumbers : ∀ v v' : Json, v.mapNumbers f = some v' → v'.nodes = v.nodes
  | .array items => fun v' h => by
    obtain ⟨items', hitems, rfl⟩ := Option.map_eq_some_iff.mp h
    exact congrArg (· + 1) (itemsNodes_mapItems items items' hitems)
  | .object members => fun v' h => by
    obtain ⟨members', hmembers, rfl⟩ := Option.map_eq_some_iff.mp h
    exact congrArg (· + 1) (membersNodes_mapMembers members members' hmembers)
  | .null => fun _ h => by
    cases h
    rfl
  | .bool _ => fun _ h => by
    cases h
    rfl
  | .string _ => fun _ h => by
    cases h
    rfl
  | .number _ => fun v' h => by
    obtain ⟨n', -, rfl⟩ := Option.map_eq_some_iff.mp h
    rfl

theorem itemsNodes_mapItems : ∀ items items' : List Json, mapItems f items = some items' →
    itemsNodes items' = itemsNodes items
  | [] => fun _ h => by
    cases h
    rfl
  | item :: items => fun items' h => by
    obtain ⟨item', rest, hitem, hrest, rfl⟩ := mapItems_cons_some h
    rw [itemsNodes, itemsNodes, nodes_mapNumbers item item' hitem,
      itemsNodes_mapItems items rest hrest]

theorem membersNodes_mapMembers : ∀ members members' : Members,
    mapMembers f members = some members' → membersNodes members' = membersNodes members
  | [] => fun _ h => by
    cases h
    rfl
  | (name, value) :: members => fun members' h => by
    obtain ⟨value', rest, hvalue, hrest, rfl⟩ := mapMembers_cons_some h
    rw [membersNodes, membersNodes, nodes_mapNumbers value value' hvalue,
      membersNodes_mapMembers members rest hrest]

end

end Numbers

end JsonValue
