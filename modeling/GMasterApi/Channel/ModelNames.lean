import GMasterApi.Channel.Model

/-!
# Lists of model names

The names of a list are trimmed, the empty ones are left out and the others are taken once
(`normalizeModelNames`).  On lists that are so already, `Normal`, the operations are what their
names say: lists are appended and filtered, in their order.
-/

namespace Channels

open GoString

def normalizeModelNames (models : List String) : List String :=
  keepFirst id [] ((models.map trimSpace).filter fun model => model ≠ "")

/-- What has been seen is what has been merged. -/
def mergeModelNames (base appended : List String) : List String :=
  (normalizeModelNames appended).foldl
    (fun merged model => if model ∈ merged then merged else merged ++ [model])
    (normalizeModelNames base)

def subtractModelNames (base removed : List String) : List String :=
  (normalizeModelNames base).filter fun model => model ∉ normalizeModelNames removed

def intersectModelNames (base allowed : List String) : List String :=
  (normalizeModelNames base).filter fun model => model ∈ normalizeModelNames allowed

/-- A model that is both added and removed is added. -/
def applySelectedModelChanges (originModels addModels removeModels : List String) : List String :=
  let normalizedAdd := normalizeModelNames addModels
  let normalizedRemove := subtractModelNames (normalizeModelNames removeModels) normalizedAdd
  subtractModelNames (mergeModelNames originModels normalizedAdd) normalizedRemove

/-- Names as they are kept. -/
structure Normal (models : List String) : Prop where
  nodup : models.Nodup
  trimmed : ∀ model ∈ models, trimSpace model = model
  nonempty : ∀ model ∈ models, model ≠ ""

section Lists

variable {α : Type} [DecidableEq α] {l seen : List α} {x : α}

theorem mem_keepFirst : ∀ seen : List α, x ∈ keepFirst id seen l ↔ x ∈ l ∧ x ∉ seen := by
  induction l with
  | nil => simp [keepFirst]
  | cons y l ih =>
    intro seen
    rw [keepFirst, id]
    split
    · rename_i hy
      rw [ih, List.mem_cons]
      constructor
      · rintro ⟨hx, hseen⟩
        exact ⟨.inr hx, hseen⟩
      · rintro ⟨rfl | hx, hseen⟩
        · exact absurd hy hseen
        · exact ⟨hx, hseen⟩
    · rename_i hy
      rw [List.mem_cons, ih, List.mem_cons, List.mem_cons]
      constructor
      · rintro (rfl | ⟨hx, hseen⟩)
        · exact ⟨.inl rfl, hy⟩
        · exact ⟨.inr hx, fun h => hseen (.inr h)⟩
      · rintro ⟨hx, hseen⟩
        by_cases hxy : x = y
        · exact .inl hxy
        · exact .inr ⟨hx.resolve_left hxy, not_or.mpr ⟨hxy, hseen⟩⟩

theorem nodup_keepFirst : ∀ seen : List α, (keepFirst id seen l).Nodup := by
  induction l with
  | nil => exact fun _ => .nil
  | cons y l ih =>
    intro seen
    rw [keepFirst]
    split
    · exact ih seen
    · refine List.nodup_cons.mpr ⟨fun hy => ?_, ih _⟩
      exact ((mem_keepFirst _).mp hy).2 List.mem_cons_self

theorem keepFirst_of_nodup (h : l.Nodup) :
    ∀ seen : List α, (∀ x ∈ l, x ∉ seen) → keepFirst id seen l = l := by
  induction l with
  | nil => exact fun _ _ => rfl
  | cons y l ih =>
    intro seen hseen
    obtain ⟨hy, hl⟩ := List.nodup_cons.mp h
    obtain ⟨hyseen, hlseen⟩ := List.forall_mem_cons.mp hseen
    rw [keepFirst, id, if_neg hyseen, ih hl]
    intro x hx hmem
    rcases List.mem_cons.mp hmem with rfl | hmem
    · exact hy hx
    · exact hlseen x hx hmem

/-- What is merged one by one comes behind what is there. -/
theorem foldl_merge (h : l.Nodup) (base : List α) :
    l.foldl (fun merged x => if x ∈ merged then merged else merged ++ [x]) base =
      base ++ l.filter fun x => x ∉ base := by
  induction l generalizing base with
  | nil => simp
  | cons y l ih =>
    obtain ⟨hy, hl⟩ := List.nodup_cons.mp h
    rw [List.foldl_cons, ih hl]
    by_cases hbase : y ∈ base
    · rw [if_pos hbase, List.filter_cons_of_neg (by simpa using hbase)]
    · have hfilter : (l.filter fun x => x ∉ base ++ [y]) = l.filter fun x => x ∉ base := by
        refine List.filter_congr fun x hx => ?_
        have hxy : x ≠ y := fun h => hy (h ▸ hx)
        simp [hxy]
      rw [if_neg hbase, List.filter_cons_of_pos (by simpa using hbase), hfilter,
        List.append_assoc, List.singleton_append]

end Lists

variable {models base appended removed : List String} {model : String}

theorem mem_normalizeModelNames :
    model ∈ normalizeModelNames models ↔ (∃ raw ∈ models, trimSpace raw = model) ∧ model ≠ "" := by
  rw [normalizeModelNames, mem_keepFirst]
  simp

theorem normal_normalizeModelNames (models : List String) :
    Normal (normalizeModelNames models) where
  nodup := nodup_keepFirst []
  trimmed model hmodel := by
    obtain ⟨⟨raw, -, rfl⟩, -⟩ := mem_normalizeModelNames.mp hmodel
    exact trimSpace_trimSpace raw
  nonempty model hmodel := (mem_normalizeModelNames.mp hmodel).2

namespace Normal

theorem normalize (h : Normal models) : normalizeModelNames models = models := by
  have hmap : models.map trimSpace = models := by
    rw [List.map_congr_left h.trimmed, List.map_id']
  have hfilter : (models.filter fun model => model ≠ "") = models :=
    List.filter_eq_self.mpr fun model hmodel => decide_eq_true (h.nonempty model hmodel)
  rw [normalizeModelNames, hmap, hfilter, keepFirst_of_nodup h.nodup [] fun _ _ => List.not_mem_nil]

theorem filter (h : Normal models) (p : String → Bool) : Normal (models.filter p) where
  nodup := h.nodup.filter p
  trimmed model hmodel := h.trimmed model (List.mem_of_mem_filter hmodel)
  nonempty model hmodel := h.nonempty model (List.mem_of_mem_filter hmodel)

theorem append_new (h : Normal base) (h' : Normal appended) :
    Normal (base ++ appended.filter fun model => model ∉ base) where
  nodup := by
    refine h.nodup.append (h'.nodup.filter _) fun model hbase hnew => ?_
    exact of_decide_eq_true (List.mem_filter.mp hnew).2 hbase
  trimmed model hmodel := by
    rcases List.mem_append.mp hmodel with hmodel | hmodel
    · exact h.trimmed model hmodel
    · exact h'.trimmed model (List.mem_of_mem_filter hmodel)
  nonempty model hmodel := by
    rcases List.mem_append.mp hmodel with hmodel | hmodel
    · exact h.nonempty model hmodel
    · exact h'.nonempty model (List.mem_of_mem_filter hmodel)

theorem merge (h : Normal base) (h' : Normal appended) : mergeModelNames base appended =
    base ++ appended.filter fun model => model ∉ base := by
  rw [mergeModelNames, h.normalize, h'.normalize, foldl_merge h'.nodup]

theorem subtract (h : Normal base) (h' : Normal removed) : subtractModelNames base removed =
    base.filter fun model => model ∉ removed := by
  rw [subtractModelNames, h.normalize, h'.normalize]

end Normal

@[simp] theorem normalizeModelNames_normalizeModelNames (models : List String) :
    normalizeModelNames (normalizeModelNames models) = normalizeModelNames models :=
  (normal_normalizeModelNames models).normalize

theorem mem_mergeModelNames : model ∈ mergeModelNames base appended ↔
    model ∈ normalizeModelNames base ∨ model ∈ normalizeModelNames appended := by
  rw [mergeModelNames, foldl_merge (normal_normalizeModelNames _).nodup, List.mem_append,
    List.mem_filter]
  by_cases h : model ∈ normalizeModelNames base <;> simp [h]

theorem normal_mergeModelNames (base appended : List String) :
    Normal (mergeModelNames base appended) := by
  rw [mergeModelNames, foldl_merge (normal_normalizeModelNames _).nodup]
  exact (normal_normalizeModelNames _).append_new (normal_normalizeModelNames _)

theorem mem_subtractModelNames : model ∈ subtractModelNames base removed ↔
    model ∈ normalizeModelNames base ∧ model ∉ normalizeModelNames removed := by
  simp [subtractModelNames]

theorem normal_subtractModelNames (base removed : List String) :
    Normal (subtractModelNames base removed) := (normal_normalizeModelNames _).filter _

theorem mem_intersectModelNames : model ∈ intersectModelNames base removed ↔
    model ∈ normalizeModelNames base ∧ model ∈ normalizeModelNames removed := by
  simp [intersectModelNames]

theorem normal_intersectModelNames (base allowed : List String) :
    Normal (intersectModelNames base allowed) := (normal_normalizeModelNames _).filter _

/-- Added models come behind those that are there, and removed ones are left out. -/
theorem applySelectedModelChanges_eq {origin add remove : List String} (horigin : Normal origin)
    (hadd : Normal add) (hremove : Normal remove) (hapart : ∀ model ∈ remove, model ∉ add) :
    applySelectedModelChanges origin add remove =
      (origin ++ add.filter fun model => model ∉ origin).filter fun model => model ∉ remove := by
  have hkept : (remove.filter fun model => model ∉ add) = remove :=
    List.filter_eq_self.mpr fun model hmodel => decide_eq_true (hapart model hmodel)
  unfold applySelectedModelChanges
  dsimp only
  rw [hadd.normalize, hremove.normalize, hremove.subtract hadd, hkept, horigin.merge hadd,
    (horigin.append_new hadd).subtract hremove]

/-- Names without commas are read back. -/
theorem Normal.split_join (h : Normal models) (hcomma : ∀ model ∈ models, ',' ∉ model.toList)
    (hne : models ≠ []) : split (trimChar (join models ',') ',') ',' = models := by
  rw [trimChar_of_ends ?_ ?_, GoString.split_join hcomma hne]
  · obtain ⟨model, rest, rfl⟩ := List.exists_cons_of_ne_nil hne
    rw [head?_join (h.nonempty model List.mem_cons_self)]
    exact fun hhead => hcomma model List.mem_cons_self (List.mem_of_head? hhead)
  · rw [← List.dropLast_append_getLast hne] at h hcomma ⊢
    have hlast := List.mem_append_right models.dropLast
      (List.mem_singleton_self (models.getLast hne))
    rw [getLast?_join (h.nonempty _ hlast)]
    exact fun hcut => hcomma _ hlast (List.mem_of_getLast? hcut)

theorem Normal.join_ne (h : Normal models) (hne : models ≠ []) : join models ',' ≠ "" := by
  obtain ⟨model, rest, rfl⟩ := List.exists_cons_of_ne_nil hne
  have hmodel := h.nonempty model List.mem_cons_self
  intro hempty
  have hhead : (join (model :: rest) ',').toList.head? = model.toList.head? := head?_join hmodel
  rw [hempty] at hhead
  exact hmodel (String.toList_injective (List.head?_eq_none_iff.mp hhead.symm))

end Channels
