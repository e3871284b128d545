import Mathlib.Data.List.Induction
import Mathlib.Data.List.Perm.Basic
import Mathlib.Data.List.Nodup

/-!
# Go maps

A map is the list of its entries, one for a key.  It is filled by `m[k] = x`,
or, where its values are slices, by `m[k] = append(m[k], x)`.
`for k, v := range m` goes through it in an order of its own, an `Order`.
-/

namespace GoMap

variable {κ α β : Type} [DecidableEq κ]

/-- The order in which a `range` goes through a map. -/
structure Order (α : Type) where
  range : List α → List α
  perm : ∀ l, (range l).Perm l

/-- The order in which the keys came into the map. -/
def Order.insertion (α : Type) : Order α := ⟨id, fun _ => .refl _⟩

/-- A map may be iterated in any order of its entries. -/
theorem Order.exists_range {α : Type} {l l' : List α} (h : l'.Perm l) :
    ∃ order : Order α, order.range l = l' := by
  classical
  refine ⟨⟨fun entries => if entries = l then l' else entries, fun entries => ?_⟩, if_pos rfl⟩
  split
  · rename_i heq
    rw [heq]
    exact h
  · exact .refl _

/-! ## Maps of values -/

/-- `m[k] = x`. -/
def assign : List (κ × α) → κ → α → List (κ × α)
  | [], k, x => [(k, x)]
  | (k', y) :: m, k, x => if k' = k then (k', x) :: m else (k', y) :: assign m k x

section Assign

variable {m : List (κ × α)} {k k' : κ} {x y : α}

/-- Where the entries of a key agree, `m[k]` is one of them. -/
theorem lookup_eq_some_iff
    (h : ∀ a b, (k, a) ∈ m → (k, b) ∈ m → a = b) : m.lookup k = some x ↔ (k, x) ∈ m := by
  induction m with
  | nil => simp
  | cons p m ih =>
    obtain ⟨k', y⟩ := p
    by_cases hk : k = k'
    · subst hk
      simp only [List.lookup_cons_self, Option.some.injEq, List.mem_cons, Prod.mk.injEq, true_and]
      constructor
      · intro e
        exact .inl e.symm
      · rintro (rfl | hx)
        · rfl
        · exact h y x List.mem_cons_self (List.mem_cons_of_mem _ hx)
    · have hne : (k == k') = false := by simp [hk]
      rw [List.lookup_cons, hne]
      simp only [List.mem_cons, Prod.mk.injEq, hk, false_and, false_or]
      exact ih fun a b ha hb => h a b (List.mem_cons_of_mem _ ha) (List.mem_cons_of_mem _ hb)

theorem lookup_eq_none (h : k ∉ m.map Prod.fst) : m.lookup k = none := by
  rw [List.lookup_eq_none_iff]
  intro e he
  rw [bne_iff_ne]
  intro hke
  exact h (List.mem_map.mpr ⟨e, he, hke.symm⟩)

theorem exists_lookup (h : k ∈ m.map Prod.fst) : ∃ x, m.lookup k = some x := by
  rw [← Option.ne_none_iff_exists', ne_eq, List.lookup_eq_none_iff]
  obtain ⟨e, he, rfl⟩ := List.mem_map.mp h
  intro hnone
  simpa using hnone e he

theorem lookup_assign : (assign m k x).lookup k' = if k' = k then some x else m.lookup k' := by
  induction m with
  | nil =>
    by_cases h : k' = k
    · simp [assign, h]
    · have hne : (k' == k) = false := by simp [h]
      simp [assign, List.lookup_cons, hne, h]
  | cons p m ih =>
    obtain ⟨j, y⟩ := p
    unfold assign
    by_cases hj : j = k
    · subst hj
      by_cases h : k' = j
      · simp [h]
      · have hne : (k' == j) = false := by simp [h]
        simp [List.lookup_cons, hne, h]
    · rw [if_neg hj, List.lookup_cons, ih, List.lookup_cons]
      by_cases h : k' = j
      · simp [h, hj]
      · have hne : (k' == j) = false := by simp [h]
        rw [hne]

theorem keys_assign (m : List (κ × α)) (k : κ) (x : α) :
    (assign m k x).map Prod.fst =
      if k ∈ m.map Prod.fst then m.map Prod.fst else m.map Prod.fst ++ [k] := by
  induction m with
  | nil => rfl
  | cons p m ih =>
    obtain ⟨j, y⟩ := p
    unfold assign
    by_cases hj : j = k
    · simp [hj]
    · have hk : k ∈ ((j, y) :: m).map Prod.fst ↔ k ∈ m.map Prod.fst := by
        rw [List.map_cons, List.mem_cons]
        exact or_iff_right fun e => hj e.symm
      rw [if_neg hj, List.map_cons, ih]
      by_cases h : k ∈ m.map Prod.fst
      · rw [if_pos h, if_pos (hk.mpr h)]
        rfl
      · rw [if_neg h, if_neg (mt hk.mp h)]
        rfl

theorem nodup_assign (h : (m.map Prod.fst).Nodup) : ((assign m k x).map Prod.fst).Nodup := by
  rw [keys_assign]
  split
  · exact h
  · rename_i hk
    rw [List.nodup_append]
    refine ⟨h, by simp, fun a ha b hb => ?_⟩
    rw [List.mem_singleton.mp hb]
    exact fun e => hk (e ▸ ha)

theorem mem_assign {e : κ × α} (h : e ∈ assign m k x) : e = (k, x) ∨ e ∈ m := by
  induction m with
  | nil => exact .inl (List.mem_singleton.mp h)
  | cons p m ih =>
    obtain ⟨j, y⟩ := p
    unfold assign at h
    split at h
    · rename_i hj
      subst hj
      rcases List.mem_cons.mp h with rfl | hm
      · exact .inl rfl
      · exact .inr (List.mem_cons_of_mem _ hm)
    · rcases List.mem_cons.mp h with rfl | hm
      · exact .inr List.mem_cons_self
      · rcases ih hm with he | he
        · exact .inl he
        · exact .inr (List.mem_cons_of_mem _ he)

/-- With distinct keys, an entry is what `lookup` says. -/
theorem mem_iff_lookup (h : (m.map Prod.fst).Nodup) : (k, x) ∈ m ↔ m.lookup k = some x := by
  rw [lookup_eq_some_iff]
  intro a b ha hb
  have := List.inj_on_of_nodup_map h ha hb rfl
  exact congrArg Prod.snd this

theorem mem_assign_iff {e : κ × α} (hnodup : (m.map Prod.fst).Nodup) (h : ∀ y, (k, y) ∈ m → y = x) :
    e ∈ assign m k x ↔ e = (k, x) ∨ e ∈ m := by
  refine ⟨mem_assign, ?_⟩
  rintro (rfl | he)
  · rw [mem_iff_lookup (nodup_assign hnodup), lookup_assign, if_pos rfl]
  · obtain ⟨j, y⟩ := e
    rw [mem_iff_lookup (nodup_assign hnodup), lookup_assign]
    by_cases hj : j = k
    · subst hj
      rw [if_pos rfl, h y he]
    · rw [if_neg hj, ← mem_iff_lookup hnodup]
      exact he

/-- Pairs that agree on their keys are assigned in any order. -/
theorem mem_foldl_assign {e : κ × α} {l : List (κ × α)}
    (h : ∀ k x y, (k, x) ∈ l → (k, y) ∈ l → x = y) :
    e ∈ l.foldl (fun m e => assign m e.1 e.2) [] ↔ e ∈ l := by
  have hfold : ∀ (l m : List (κ × α)), (m.map Prod.fst).Nodup →
      (∀ k x y, (k, x) ∈ m ++ l → (k, y) ∈ m ++ l → x = y) →
      (e ∈ l.foldl (fun m e => assign m e.1 e.2) m ↔ e ∈ m ++ l) := by
    intro l
    induction l with
    | nil => simp
    | cons p l ih =>
      obtain ⟨k, x⟩ := p
      intro m hnodup hagree
      have hassign : ∀ e' : κ × α, e' ∈ assign m k x ↔ e' = (k, x) ∨ e' ∈ m := fun e' =>
        mem_assign_iff hnodup fun y hy =>
          hagree k y x (List.mem_append_left _ hy) (List.mem_append_right _ List.mem_cons_self)
      have hmem : ∀ e' : κ × α, e' ∈ assign m k x ++ l ↔ e' ∈ m ++ (k, x) :: l := by
        intro e'
        rw [List.mem_append, hassign, List.mem_append, List.mem_cons, or_comm (a := e' = (k, x)),
          or_assoc]
      rw [List.foldl_cons, ih _ (nodup_assign hnodup), hmem]
      intro k' a b ha hb
      exact hagree k' a b ((hmem _).mp ha) ((hmem _).mp hb)
  rw [hfold l [] .nil h, List.nil_append]

theorem assign_eq_self (h : m.lookup k = some x) : assign m k x = m := by
  induction m with
  | nil => cases h
  | cons p m ih =>
    obtain ⟨j, y⟩ := p
    rw [List.lookup_cons] at h
    unfold assign
    by_cases hj : j = k
    · subst hj
      rw [beq_self_eq_true] at h
      rw [if_pos rfl, Option.some.inj h]
    · rw [beq_false_of_ne (Ne.symm hj)] at h
      rw [if_neg hj, ih h]

/-- What is kept by its key. -/
theorem lookup_filter {p : κ → Bool} :
    (m.filter fun e => p e.1).lookup k = if p k then m.lookup k else none := by
  induction m with
  | nil => simp
  | cons e m ih =>
    obtain ⟨j, y⟩ := e
    rw [List.filter_cons]
    by_cases hj : k = j
    · subst hj
      by_cases hp : p k
      · rw [if_pos hp, if_pos hp, List.lookup_cons_self, List.lookup_cons_self]
      · rw [if_neg hp, if_neg hp, ih, if_neg hp]
    · rw [List.lookup_cons, beq_false_of_ne hj]
      split
      · rw [List.lookup_cons, beq_false_of_ne hj, ih]
      · exact ih

/-- `if x, ok := m[k]; ok { m[k] = f(x) }` -/
def update (m : List (κ × α)) (k : κ) (f : α → α) : List (κ × α) :=
  match m.lookup k with
  | some x => assign m k (f x)
  | none => m

theorem lookup_update {f : α → α} :
    (update m k f).lookup k' = if k' = k then (m.lookup k).map f else m.lookup k' := by
  unfold update
  cases h : m.lookup k with
  | some x => exact lookup_assign
  | none =>
    by_cases hk : k' = k
    · rw [if_pos hk, hk]
      exact h
    · rw [if_neg hk]

theorem keys_update {f : α → α} : (update m k f).map Prod.fst = m.map Prod.fst := by
  unfold update
  cases h : m.lookup k with
  | none => rfl
  | some x =>
    have hk : k ∈ m.map Prod.fst := by
      by_contra hk
      rw [lookup_eq_none hk] at h
      cases h
    show (assign m k (f x)).map Prod.fst = m.map Prod.fst
    rw [keys_assign, if_pos hk]

theorem update_eq_self {f : α → α} (h : ∀ x, m.lookup k = some x → f x = x) :
    update m k f = m := by
  unfold update
  cases hx : m.lookup k with
  | none => rfl
  | some x => exact assign_eq_self (by rw [h x hx, hx])

end Assign

omit [DecidableEq κ] in
/-- `for x := range l { m[key x] = val x }` on a list with the newest entry first. -/
theorem foldl_assign (key : β → κ) (val : β → α) (l : List β) :
    ∀ m : List (κ × α), l.foldl (fun m x => (key x, val x) :: m) m =
      (l.map fun x => (key x, val x)).reverse ++ m := by
  induction l with
  | nil => intro m; rfl
  | cons x l ih =>
    intro m
    rw [List.foldl_cons, ih]
    simp

/-- A map: its entries, with distinct keys. -/
structure Map (κ α : Type) where
  entries : List (κ × α)
  nodup : (entries.map Prod.fst).Nodup
  deriving DecidableEq

namespace Map

def empty : Map κ α := ⟨[], .nil⟩

def get (m : Map κ α) (k : κ) : Option α := m.entries.lookup k

def put (m : Map κ α) (k : κ) (x : α) : Map κ α := ⟨assign m.entries k x, nodup_assign m.nodup⟩

variable {m m' : Map κ α} {k k' : κ} {x : α}

omit [DecidableEq κ] in
@[simp] theorem entries_empty : (empty : Map κ α).entries = [] := rfl

@[simp] theorem get_empty : (empty : Map κ α).get k = none := rfl

@[simp] theorem get_put : (m.put k x).get k' = if k' = k then some x else m.get k' := lookup_assign

theorem mem_entries : (k, x) ∈ m.entries ↔ m.get k = some x := mem_iff_lookup m.nodup

omit [DecidableEq κ] in
theorem nodup_entries (m : Map κ α) : m.entries.Nodup := .of_map _ m.nodup

/-- Maps that answer the same have the same entries. -/
theorem entries_perm (h : ∀ k, m.get k = m'.get k) : m.entries.Perm m'.entries := by
  rw [List.perm_ext_iff_of_nodup m.nodup_entries m'.nodup_entries]
  rintro ⟨k, x⟩
  rw [mem_entries, mem_entries, h]

omit [DecidableEq κ] in
/-- `for k, x := range m { m[k] = f(x) }`. -/
def mapValues (f : α → β) (m : Map κ α) : Map κ β where
  entries := m.entries.map fun e => (e.1, f e.2)
  nodup := by
    rw [List.map_map]
    exact m.nodup

@[simp] theorem get_mapValues {f : α → β} : (m.mapValues f).get k = (m.get k).map f := by
  show (m.entries.map fun e => (e.1, f e.2)).lookup k = (m.entries.lookup k).map f
  induction m.entries with
  | nil => rfl
  | cons e entries ih =>
    obtain ⟨j, x⟩ := e
    rw [List.map_cons, List.lookup_cons, List.lookup_cons]
    cases k == j with
    | true => rfl
    | false => exact ih

/-- `for x := range l { m[key x] = x }`, where no two have the same key. -/
theorem get_foldl_put {key : α → κ} {l : List α} (h : (l.map key).Nodup) (m : Map κ α) (k : κ) :
    (l.foldl (fun m x => m.put (key x) x) m).get k =
      ((l.find? fun x => decide (key x = k)).or (m.get k)) := by
  induction l generalizing m with
  | nil => rfl
  | cons x l ih =>
    rw [List.map_cons, List.nodup_cons] at h
    rw [List.foldl_cons, ih h.2, get_put]
    by_cases hk : key x = k
    · subst hk
      have hnone : (l.find? fun y => decide (key y = key x)) = none := by
        rw [List.find?_eq_none]
        intro y hy he
        exact h.1 (of_decide_eq_true he ▸ List.mem_map_of_mem hy)
      rw [hnone, List.find?_cons_of_pos (by simp)]
      simp
    · rw [List.find?_cons_of_neg (by simp [hk]), if_neg (Ne.symm hk)]

/-- `delete(m, k)`. -/
def delete (m : Map κ α) (k : κ) : Map κ α where
  entries := m.entries.filter fun e => e.1 ≠ k
  nodup := m.nodup.sublist (List.filter_sublist.map Prod.fst)

@[simp] theorem get_delete : (m.delete k).get k' = if k' = k then none else m.get k' := by
  show (m.entries.filter fun e => e.1 ≠ k).lookup k' = if k' = k then none else m.entries.lookup k'
  induction m.entries with
  | nil => simp
  | cons e entries ih =>
    obtain ⟨j, x⟩ := e
    by_cases hj : j = k
    · subst hj
      rw [List.filter_cons_of_neg (by simp), ih]
      by_cases hk : k' = j
      · rw [if_pos hk, if_pos hk]
      · have hne : (k' == j) = false := by simp [hk]
        rw [if_neg hk, if_neg hk, List.lookup_cons, hne]
    · rw [List.filter_cons_of_pos (by simpa using hj), List.lookup_cons, ih, List.lookup_cons]
      by_cases hk : k' = j
      · subst hk
        rw [BEq.rfl]
        exact (if_neg hj).symm
      · have hne : (k' == j) = false := by simp [hk]
        rw [hne]

/-- `for k := range m { if !p(k) { delete(m, k) } }`. -/
def keep (m : Map κ α) (p : κ → Bool) : Map κ α where
  entries := m.entries.filter fun e => p e.1
  nodup := m.nodup.sublist (List.filter_sublist.map Prod.fst)

@[simp] theorem get_keep {p : κ → Bool} : (m.keep p).get k = if p k then m.get k else none := by
  show (m.entries.filter fun e => p e.1).lookup k = if p k then m.entries.lookup k else none
  induction m.entries with
  | nil => simp
  | cons e entries ih =>
    obtain ⟨j, x⟩ := e
    by_cases hj : p j = true
    · rw [List.filter_cons_of_pos (by exact hj), List.lookup_cons, ih, List.lookup_cons]
      by_cases hk : k = j
      · subst hk
        rw [BEq.rfl]
        exact (if_pos hj).symm
      · have hne : (k == j) = false := by simp [hk]
        rw [hne]
    · rw [List.filter_cons_of_neg (by exact hj), ih]
      by_cases hk : k = j
      · subst hk
        rw [if_neg hj, if_neg hj]
      · have hne : (k == j) = false := by simp [hk]
        rw [List.lookup_cons, hne]

/-- `for k, x := range l { m[k] = x }`. -/
def putAll (m : Map κ α) (l : List (κ × α)) : Map κ α := l.foldl (fun m e => m.put e.1 e.2) m

theorem get_putAll {l : List (κ × α)} (h : (l.map Prod.fst).Nodup) :
    (m.putAll l).get k = (l.lookup k).or (m.get k) := by
  induction l generalizing m with
  | nil => rfl
  | cons e l ih =>
    obtain ⟨j, x⟩ := e
    rw [List.map_cons, List.nodup_cons] at h
    show ((m.put j x).putAll l).get k = _
    rw [ih h.2, get_put, List.lookup_cons]
    by_cases hk : k = j
    · subst hk
      rw [lookup_eq_none h.1, if_pos rfl, BEq.rfl]
      rfl
    · have hne : (k == j) = false := by simp [hk]
      rw [if_neg hk, hne]

/-- What is in the map afterwards was there or has been put. -/
theorem get_putAll_some {l : List (κ × α)} (h : (m.putAll l).get k = some x) :
    (k, x) ∈ l ∨ m.get k = some x := by
  induction l generalizing m with
  | nil => exact .inr h
  | cons e l ih =>
    rcases ih (m := m.put e.1 e.2) h with hmem | hget
    · exact .inl (List.mem_cons_of_mem _ hmem)
    · rw [get_put] at hget
      split at hget
      · rename_i hk
        cases hget
        exact .inl (hk ▸ List.mem_cons_self)
      · exact .inr hget

end Map

/-! ## Maps of slices -/

/-- `m[k] = append(m[k], x)`. -/
def appendAt : List (κ × List α) → κ → α → List (κ × List α)
  | [], k, x => [(k, [x])]
  | (k', xs) :: m, k, x => if k' = k then (k', xs ++ [x]) :: m else (k', xs) :: appendAt m k x

/-- `m[k]`. -/
def get : List (κ × List α) → κ → List α
  | [], _ => []
  | (k', xs) :: m, k => if k' = k then xs else get m k

/-- The map that `for x := range l { m[key x] = append(m[key x], val x) }` fills. -/
def groupBy (key : β → κ) (val : β → α) (l : List β) : List (κ × List α) :=
  l.foldl (fun m x => appendAt m (key x) (val x)) []

section Append

variable {m : List (κ × List α)} {k k' : κ} {x : α} {xs : List α} {key : β → κ} {val : β → α}
  {l : List β}

theorem get_eq_lookup : get m k = (m.lookup k).getD [] := by
  induction m with
  | nil => rfl
  | cons p m ih =>
    obtain ⟨j, ys⟩ := p
    unfold get
    by_cases hj : j = k
    · subst hj
      rw [if_pos rfl, List.lookup_cons_self]
      rfl
    · have hne : (k == j) = false := by simp [Ne.symm hj]
      rw [if_neg hj, ih, List.lookup_cons, hne]

theorem appendAt_eq_assign : appendAt m k x = assign m k (get m k ++ [x]) := by
  induction m with
  | nil => rfl
  | cons p m ih =>
    obtain ⟨j, ys⟩ := p
    unfold appendAt assign get
    by_cases hj : j = k
    · rw [if_pos hj, if_pos hj, if_pos hj]
    · rw [if_neg hj, if_neg hj, if_neg hj, ih]

theorem get_appendAt : get (appendAt m k x) k' = if k' = k then get m k ++ [x] else get m k' := by
  rw [get_eq_lookup, appendAt_eq_assign, lookup_assign]
  split
  · rfl
  · rw [get_eq_lookup]

/-- With distinct keys, the entries are what `get` says. -/
theorem mem_iff_get (hnd : (m.map Prod.fst).Nodup) :
    (k, xs) ∈ m ↔ k ∈ m.map Prod.fst ∧ get m k = xs := by
  rw [mem_iff_lookup hnd, get_eq_lookup]
  constructor
  · intro h
    rw [h]
    exact ⟨List.mem_map_of_mem (f := Prod.fst) ((mem_iff_lookup hnd).mpr h), rfl⟩
  · rintro ⟨hk, rfl⟩
    obtain ⟨⟨j, ys⟩, hmem, rfl⟩ := List.mem_map.mp hk
    have hlookup := (mem_iff_lookup hnd).mp hmem
    rw [hlookup]
    rfl

theorem groupBy_append (key : β → κ) (val : β → α) (l : List β) (b : β) :
    groupBy key val (l ++ [b]) = appendAt (groupBy key val l) (key b) (val b) := by
  simp [groupBy]

theorem mem_keys_groupBy :
    ∀ k, k ∈ (groupBy key val l).map Prod.fst ↔ ∃ b ∈ l, key b = k := by
  induction l using List.reverseRecOn with
  | nil => simp [groupBy]
  | append_singleton l b ih =>
    intro k
    rw [groupBy_append, appendAt_eq_assign, keys_assign]
    by_cases hb : key b ∈ (groupBy key val l).map Prod.fst
    · rw [if_pos hb, ih]
      constructor
      · rintro ⟨c, hc, h⟩
        exact ⟨c, List.mem_append_left _ hc, h⟩
      · rintro ⟨c, hc, rfl⟩
        rcases List.mem_append.mp hc with hc | hc
        · exact ⟨c, hc, rfl⟩
        · rw [List.mem_singleton.mp hc]
          exact (ih (key b)).mp hb
    · rw [if_neg hb, List.mem_append, ih, List.mem_singleton]
      simp [or_and_right, exists_or, eq_comm]

theorem nodup_keys_groupBy (key : β → κ) (val : β → α) (l : List β) :
    ((groupBy key val l).map Prod.fst).Nodup := by
  induction l using List.reverseRecOn with
  | nil => exact .nil
  | append_singleton l b ih =>
    rw [groupBy_append, appendAt_eq_assign]
    exact nodup_assign ih

theorem get_groupBy (key : β → κ) (val : β → α) (l : List β) (k : κ) :
    get (groupBy key val l) k = (l.filter fun b => key b = k).map val := by
  induction l using List.reverseRecOn with
  | nil => rfl
  | append_singleton l b ih =>
    rw [groupBy_append, get_appendAt, List.filter_append, List.map_append]
    by_cases h : k = key b
    · subst h
      simp [ih]
    · rw [if_neg h, ih]
      simp [Ne.symm h]

/-- **The groups**: each key that occurs, with the values of its elements in order. -/
theorem mem_groupBy : (k, xs) ∈ groupBy key val l ↔
    (∃ b ∈ l, key b = k) ∧ (l.filter fun b => key b = k).map val = xs := by
  rw [mem_iff_get (nodup_keys_groupBy key val l), mem_keys_groupBy, get_groupBy]

end Append

/-! ## Values in the order of their keys -/

theorem map_modify {f : α → β} {g : α → α} (h : ∀ a, f (g a) = f a) (l : List α) (i : ℕ) :
    (l.modify i g).map f = l.map f := by
  induction l generalizing i with
  | nil => rw [List.modify_nil]
  | cons a l ih =>
    cases i with
    | zero => rw [List.modify_zero_cons, List.map_cons, List.map_cons, h]
    | succ i => rw [List.modify_succ_cons, List.map_cons, List.map_cons, ih]

/-- The value of one key is changed. -/
theorem modify_idxOf_map {l : List κ} {k : κ} (hl : l.Nodup) (hk : k ∈ l) (f : κ → α)
    (g : α → α) :
    (l.map f).modify (l.idxOf k) g = l.map (Function.update f k (g (f k))) := by
  induction l with
  | nil => cases hk
  | cons k' l ih =>
    obtain ⟨hnot, hl⟩ := List.nodup_cons.1 hl
    by_cases heq : k' = k
    · subst heq
      have htail : ∀ k ∈ l, Function.update f k' (g (f k')) k = f k := by
        intro k hmem
        have hne : k ≠ k' := by
          rintro rfl
          exact hnot hmem
        exact Function.update_of_ne hne _ _
      rw [List.idxOf_cons_self, List.map_cons, List.map_cons, List.modify_zero_cons,
        Function.update_self, List.map_congr_left htail]
    · have hmem : k ∈ l := (List.mem_cons.1 hk).resolve_left (Ne.symm heq)
      rw [List.idxOf_cons_ne _ heq, List.map_cons, List.map_cons, List.modify_succ_cons,
        ih hl hmem, Function.update_of_ne heq]

end GoMap
