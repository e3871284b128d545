import Mathlib.Algebra.BigOperators.Group.List.Basic
import Mathlib.Algebra.Ring.Int.Defs
import Mathlib.Data.List.Sort

/-!
# Database tables

A `Table` is a list of rows with a primary key; that no key occurs twice is part
of it.  `find`, `save` (update by key), `create`, `delete` and `updateWhere` are
what an ORM issues, and each lemma says which row a later `find` sees.
-/

/-- Rows with the key `key`, which no two of them share. -/
structure Table (α : Type) {κ : Type} (key : α → κ) where
  rows : List α
  nodup : (rows.map key).Nodup

namespace Table

variable {α κ : Type} [DecidableEq κ] {key : α → κ}

def empty : Table α key := ⟨[], List.nodup_nil⟩

/-- `SELECT … WHERE key = k`. -/
def find (t : Table α key) (k : κ) : Option α := t.rows.find? fun x => decide (key x = k)

/-- `UPDATE … SET row = f row WHERE p`, which leaves keys alone. -/
def updateWhere (t : Table α key) (p : α → Bool) (f : α → α) (hf : ∀ x, key (f x) = key x) :
    Table α key where
  rows := t.rows.map fun x => if p x then f x else x
  nodup := by
    have hkeys : (t.rows.map fun x => if p x then f x else x).map key = t.rows.map key := by
      rw [List.map_map]
      refine List.map_congr_left fun x _ => ?_
      show key (if p x then f x else x) = key x
      split
      · exact hf x
      · rfl
    rw [hkeys]
    exact t.nodup

/-- `UPDATE … WHERE key = key x` with all columns of `x`. -/
def save (t : Table α key) (x : α) : Table α key where
  rows := t.rows.map fun y => if key y = key x then x else y
  nodup := by
    have hkeys : (t.rows.map fun y => if key y = key x then x else y).map key = t.rows.map key := by
      rw [List.map_map]
      refine List.map_congr_left fun y _ => ?_
      show key (if key y = key x then x else y) = key y
      split
      · rename_i h; exact h.symm
      · rfl
    rw [hkeys]
    exact t.nodup

/-- `INSERT`; refused where the key is taken. -/
def create (t : Table α key) (x : α) : Option (Table α key) :=
  if h : key x ∈ t.rows.map key then none
  else some
    { rows := t.rows ++ [x]
      nodup := by
        rw [List.map_append, List.nodup_append]
        refine ⟨t.nodup, by simp, fun a ha b hb => ?_⟩
        simp only [List.map_cons, List.map_nil, List.mem_singleton] at hb
        subst hb
        exact fun e => h (e ▸ ha) }

/-- `DELETE … WHERE key = k`. -/
def delete (t : Table α key) (k : κ) : Table α key where
  rows := t.rows.filter fun x => decide (key x ≠ k)
  nodup := (List.Sublist.map key List.filter_sublist).nodup t.nodup

/-- `DELETE … WHERE p`. -/
def deleteWhere (t : Table α key) (p : α → Bool) : Table α key where
  rows := t.rows.filter fun x => !p x
  nodup := (List.Sublist.map key List.filter_sublist).nodup t.nodup

/-- An `UPDATE` with all columns, and an `INSERT` where it matched no row. -/
def upsert (t : Table α key) (x : α) : Table α key := (t.create x).getD (t.save x)

/-- `SELECT … WHERE p ORDER BY r`. -/
def select (t : Table α key) (p : α → Bool) (r : α → α → Prop) [DecidableRel r] : List α :=
  (t.rows.filter p).insertionSort r

variable {t : Table α key} {x y : α} {k : κ}

omit [DecidableEq κ] in
theorem eq_of_mem (hx : x ∈ t.rows) (hy : y ∈ t.rows) (h : key x = key y) : x = y :=
  List.inj_on_of_nodup_map t.nodup hx hy h

theorem find_eq_some_iff : t.find k = some x ↔ x ∈ t.rows ∧ key x = k := by
  constructor
  · intro h
    exact ⟨List.mem_of_find?_eq_some h, by simpa using List.find?_some h⟩
  · rintro ⟨hx, rfl⟩
    cases h : t.find (key x) with
    | none =>
      have := List.find?_eq_none.mp h x hx
      simp at this
    | some y =>
      have hy := List.mem_of_find?_eq_some h
      have hk : key y = key x := by simpa using List.find?_some h
      rw [eq_of_mem hy hx hk]

theorem find_eq_none_iff : t.find k = none ↔ ∀ x ∈ t.rows, key x ≠ k := by
  unfold find
  rw [List.find?_eq_none]
  simp

omit [DecidableEq κ] in
theorem mem_select {p : α → Bool} {r : α → α → Prop} [DecidableRel r] :
    x ∈ t.select p r ↔ x ∈ t.rows ∧ p x = true := by
  unfold select
  rw [List.mem_insertionSort, List.mem_filter]

omit [DecidableEq κ] in
theorem nodup_select {p : α → Bool} {r : α → α → Prop} [DecidableRel r] :
    ((t.select p r).map key).Nodup := by
  have hperm := (List.perm_insertionSort r (t.rows.filter p)).map key
  rw [select, hperm.nodup_iff]
  exact (List.Sublist.map key List.filter_sublist).nodup t.nodup

omit [DecidableEq κ] in
/-- The first row of a `SELECT … ORDER BY`, if no other row comes before it. -/
theorem head_select {p : α → Bool} {r : α → α → Prop} [DecidableRel r] [Std.Total r] [IsTrans α r]
    (hx : x ∈ t.rows) (hp : p x = true) (hfirst : ∀ y ∈ t.rows, p y = true → y = x ∨ ¬ r y x) :
    (t.select p r).head? = some x := by
  have hmem : x ∈ t.select p r := mem_select.mpr ⟨hx, hp⟩
  have hsorted : (t.select p r).Pairwise r := List.pairwise_insertionSort r _
  cases hl : t.select p r with
  | nil => rw [hl] at hmem; cases hmem
  | cons y rest =>
    have hy : y ∈ t.select p r := by rw [hl]; exact List.mem_cons_self
    obtain ⟨hyt, hyp⟩ := mem_select.mp hy
    rcases hfirst y hyt hyp with rfl | hn
    · rfl
    · rw [hl] at hmem hsorted
      rcases List.mem_cons.mp hmem with rfl | hrest
      · rfl
      · exact absurd (List.rel_of_pairwise_cons hsorted hrest) hn

theorem mem_save : y ∈ (t.save x).rows ↔
    (y ∈ t.rows ∧ key y ≠ key x) ∨ (y = x ∧ ∃ z ∈ t.rows, key z = key x) := by
  show y ∈ t.rows.map (fun y => if key y = key x then x else y) ↔ _
  rw [List.mem_map]
  constructor
  · rintro ⟨z, hz, rfl⟩
    by_cases h : key z = key x
    · rw [if_pos h]
      exact .inr ⟨rfl, z, hz, h⟩
    · rw [if_neg h]
      exact .inl ⟨hz, h⟩
  · rintro (⟨hy, h⟩ | ⟨rfl, z, hz, h⟩)
    · exact ⟨y, hy, if_neg h⟩
    · exact ⟨z, hz, if_pos h⟩

/-- A saved row that exists is what `find` sees. -/
theorem find_save_self (h : t.find (key x) = some y) : (t.save x).find (key x) = some x := by
  obtain ⟨hy, hk⟩ := find_eq_some_iff.mp h
  rw [find_eq_some_iff, mem_save]
  exact ⟨.inr ⟨rfl, y, hy, hk⟩, rfl⟩

/-- Other rows are left alone. -/
theorem find_save_of_ne (h : key x ≠ k) : (t.save x).find k = t.find k := by
  cases hf : t.find k with
  | none =>
    rw [find_eq_none_iff] at hf ⊢
    intro y hy
    rcases mem_save.mp hy with ⟨hy, -⟩ | ⟨rfl, -⟩
    · exact hf y hy
    · exact h
  | some y =>
    obtain ⟨hy, hk⟩ := find_eq_some_iff.mp hf
    rw [find_eq_some_iff, mem_save]
    exact ⟨.inl ⟨hy, by rw [hk]; exact fun e => h e.symm⟩, hk⟩

/-- A saved row replaces its part of a sum over the table. -/
theorem sum_map_save (f : α → ℤ) (h : t.find (key x) = some y) :
    ((t.save x).rows.map f).sum = (t.rows.map f).sum + (f x - f y) := by
  obtain ⟨hy, hk⟩ := find_eq_some_iff.mp h
  have hnodup := t.nodup
  show ((t.rows.map fun z => if key z = key x then x else z).map f).sum = _
  revert hy hnodup
  induction t.rows with
  | nil => intro hy; cases hy
  | cons z rows ih =>
    intro hy hnodup
    rw [List.map_cons, List.nodup_cons] at hnodup
    simp only [List.map_cons, List.sum_cons]
    rcases List.mem_cons.mp hy with rfl | hy
    · have hrest : (rows.map fun z => if key z = key x then x else z) = rows := by
        have hid : ∀ w ∈ rows, (if key w = key x then x else w) = id w := by
          intro w hw
          rw [if_neg]
          · rfl
          · intro he
            exact hnodup.1 (hk ▸ he ▸ List.mem_map_of_mem hw)
        rw [List.map_congr_left hid, List.map_id]
      rw [hrest, if_pos hk]
      omega
    · have hne : key z ≠ key x := by
        intro he
        exact hnodup.1 (he ▸ hk ▸ List.mem_map_of_mem hy)
      rw [ih hy hnodup.2, if_neg hne]
      omega

omit [DecidableEq κ] in
theorem mem_updateWhere {p : α → Bool} {f : α → α} {hf : ∀ x, key (f x) = key x} :
    y ∈ (t.updateWhere p f hf).rows ↔ ∃ x ∈ t.rows, (if p x then f x else x) = y :=
  List.mem_map

theorem mem_delete : y ∈ (t.delete k).rows ↔ y ∈ t.rows ∧ key y ≠ k := by
  show y ∈ t.rows.filter (fun x => decide (key x ≠ k)) ↔ _
  rw [List.mem_filter, decide_eq_true_eq]

theorem find_delete_self : (t.delete k).find k = none := by
  rw [find_eq_none_iff]
  intro y hy
  exact (mem_delete.mp hy).2

theorem find_delete_of_ne {k' : κ} (h : k' ≠ k) : (t.delete k).find k' = t.find k' := by
  cases hf : t.find k' with
  | none =>
    rw [find_eq_none_iff] at hf ⊢
    intro y hy
    exact hf y (mem_delete.mp hy).1
  | some y =>
    obtain ⟨hy, hk⟩ := find_eq_some_iff.mp hf
    rw [find_eq_some_iff, mem_delete]
    exact ⟨⟨hy, by rw [hk]; exact h⟩, hk⟩

theorem create_eq_some {t' : Table α key} (h : t.create x = some t') :
    (∀ y ∈ t.rows, key y ≠ key x) ∧ t'.rows = t.rows ++ [x] := by
  unfold create at h
  split at h
  · cases h
  · rename_i hk
    cases h
    refine ⟨fun y hy e => hk ?_, rfl⟩
    rw [← e]
    exact List.mem_map_of_mem hy

theorem mem_create {t' : Table α key} (h : t.create x = some t') : x ∈ t'.rows := by
  rw [(create_eq_some h).2]
  exact List.mem_append_right _ (List.mem_singleton_self x)

theorem create_of_find_none (h : t.find (key x) = none) : ∃ t', t.create x = some t' := by
  unfold create
  have hfresh : key x ∉ t.rows.map key := by
    rw [List.mem_map]
    rintro ⟨y, hy, hk⟩
    exact find_eq_none_iff.mp h y hy hk
  rw [dif_neg hfresh]
  exact ⟨_, rfl⟩

theorem find_create {t' : Table α key} (h : t.create x = some t') :
    t'.find k = if key x = k then some x else t.find k := by
  obtain ⟨hfresh, hrows⟩ := create_eq_some h
  by_cases hk : key x = k
  · rw [if_pos hk, find_eq_some_iff, hrows]
    exact ⟨by simp, hk⟩
  · rw [if_neg hk]
    unfold find
    rw [hrows, List.find?_append]
    simp [hk]

omit [DecidableEq κ] in
theorem mem_deleteWhere {p : α → Bool} :
    y ∈ (t.deleteWhere p).rows ↔ y ∈ t.rows ∧ p y = false := by
  show y ∈ t.rows.filter (fun x => !p x) ↔ _
  rw [List.mem_filter, Bool.not_eq_true']

theorem mem_upsert : y ∈ (t.upsert x).rows ↔ (y ∈ t.rows ∧ key y ≠ key x) ∨ y = x := by
  unfold upsert
  cases h : t.create x with
  | some t' =>
    obtain ⟨hfresh, hrows⟩ := create_eq_some h
    rw [Option.getD_some, hrows, List.mem_append, List.mem_singleton]
    constructor
    · rintro (hy | hy)
      · exact .inl ⟨hy, hfresh y hy⟩
      · exact .inr hy
    · rintro (⟨hy, -⟩ | hy)
      · exact .inl hy
      · exact .inr hy
  | none =>
    have hkey : ∃ z ∈ t.rows, key z = key x := by
      by_contra hno
      have hfind : t.find (key x) = none :=
        find_eq_none_iff.mpr fun z hz hk => hno ⟨z, hz, hk⟩
      obtain ⟨t', ht'⟩ := create_of_find_none hfind
      rw [h] at ht'
      cases ht'
    rw [Option.getD_none, mem_save]
    constructor
    · rintro (hy | ⟨hy, -⟩)
      · exact .inl hy
      · exact .inr hy
    · rintro (hy | hy)
      · exact .inl hy
      · exact .inr ⟨hy, hkey⟩

/-! ## What becomes of the rows -/

/-- Every row of `t'` succeeds a row of `t`, to which `R` relates it, or is new as `N`
describes it. -/
def ComesFrom (R : α → α → Prop) (N : α → Prop) (t t' : Table α key) : Prop :=
  ∀ y ∈ t'.rows, (∃ x ∈ t.rows, key y = key x ∧ R x y) ∨ N y

/-- And every row of `t` has a successor. -/
structure Evolves (R : α → α → Prop) (N : α → Prop) (t t' : Table α key) : Prop where
  kept : ∀ x ∈ t.rows, ∃ y ∈ t'.rows, key y = key x ∧ R x y
  source : ComesFrom R N t t'

section Evolves

variable {R : α → α → Prop} {N : α → Prop} {t' : Table α key} (hR : ∀ x, R x x)
include hR

omit [DecidableEq κ] in
theorem ComesFrom.refl (t : Table α key) : ComesFrom R N t t :=
  fun y hy => .inl ⟨y, hy, rfl, hR y⟩

theorem comesFrom_create (h : t.create x = some t') (hN : N x) : ComesFrom R N t t' := by
  intro z hz
  rw [(create_eq_some h).2] at hz
  rcases List.mem_append.mp hz with hz | hz
  · exact .inl ⟨z, hz, rfl, hR z⟩
  · rw [List.mem_singleton.mp hz]
    exact .inr hN

omit [DecidableEq κ] in
theorem comesFrom_updateWhere {p : α → Bool} {f : α → α} {hf : ∀ x, key (f x) = key x}
    (hxf : ∀ x, R x (f x)) : ComesFrom R N t (t.updateWhere p f hf) := by
  intro y hy
  obtain ⟨x, hx, rfl⟩ := mem_updateWhere.mp hy
  refine .inl ⟨x, hx, ?_⟩
  split
  · exact ⟨hf x, hxf x⟩
  · exact ⟨rfl, hR x⟩

theorem comesFrom_delete : ComesFrom R N t (t.delete k) :=
  fun y hy => .inl ⟨y, (mem_delete.mp hy).1, rfl, hR y⟩

omit [DecidableEq κ] in
theorem Evolves.refl (t : Table α key) : Evolves R N t t :=
  ⟨fun x hx => ⟨x, hx, rfl, hR x⟩, ComesFrom.refl hR t⟩

theorem evolves_create (h : t.create x = some t') (hN : N x) : Evolves R N t t' := by
  refine ⟨fun z hz => ⟨z, ?_, rfl, hR z⟩, comesFrom_create hR h hN⟩
  rw [(create_eq_some h).2]
  exact List.mem_append_left _ hz

omit [DecidableEq κ] in
theorem evolves_updateWhere {p : α → Bool} {f : α → α} {hf : ∀ x, key (f x) = key x}
    (hxf : ∀ x, R x (f x)) : Evolves R N t (t.updateWhere p f hf) := by
  refine ⟨fun x hx => ⟨_, mem_updateWhere.mpr ⟨x, hx, rfl⟩, ?_⟩, comesFrom_updateWhere hR hxf⟩
  split
  · exact ⟨hf x, hxf x⟩
  · exact ⟨rfl, hR x⟩

theorem evolves_save (hfind : t.find (key x) = some y) (hxy : R y x) :
    Evolves R N t (t.save x) := by
  obtain ⟨hy, hkey⟩ := find_eq_some_iff.mp hfind
  constructor
  · intro z hz
    by_cases hk : key z = key x
    · have hzy : z = y := eq_of_mem hz hy (hk.trans hkey.symm)
      rw [hzy]
      exact ⟨x, mem_save.mpr (.inr ⟨rfl, y, hy, hkey⟩), hkey.symm, hxy⟩
    · exact ⟨z, mem_save.mpr (.inl ⟨hz, hk⟩), rfl, hR z⟩
  · intro z hz
    rcases mem_save.mp hz with ⟨hz, -⟩ | ⟨rfl, -⟩
    · exact .inl ⟨z, hz, rfl, hR z⟩
    · exact .inl ⟨y, hy, hkey.symm, hxy⟩

end Evolves

end Table
