import Mathlib.Data.List.Basic

/-!
# Lists and texts made of pieces

Two ways of flattening a list, of which one gives pieces that are not longer than those of
the other, agree only piece by piece (`sublist_flatMap_iff`).  A list whose elements of a kind
come first is these elements and then the others (`filter_append_filter_iff`).  Texts make up
their last one only if the others are empty (`join_eq_getLast_iff`).
-/

namespace Pieces

variable {α β : Type}

/-- Two lists that are not longer than two others make up the same list only if they are the
same. -/
theorem append_eq_append_iff_of_le {as bs cs ds : List β} (h : as.length ≤ cs.length)
    (h' : bs.length ≤ ds.length) : as ++ bs = cs ++ ds ↔ as = cs ∧ bs = ds := by
  constructor
  · intro heq
    have hsum := congrArg List.length heq
    rw [List.length_append, List.length_append] at hsum
    exact List.append_inj heq (by omega)
  · rintro ⟨rfl, rfl⟩
    rfl

/-- Of two ways of flattening a list the longer is contained in the shorter only where they
are the same on every element. -/
theorem sublist_flatMap_iff {f g : α → List β} (hle : ∀ a, (g a).length ≤ (f a).length)
    (l : List α) : List.Sublist (l.flatMap f) (l.flatMap g) ↔ ∀ a ∈ l, f a = g a := by
  have hlength : ∀ l : List α, (l.flatMap g).length ≤ (l.flatMap f).length := by
    intro l
    induction l with
    | nil => exact Nat.le_refl _
    | cons a as ih =>
      rw [List.flatMap_cons, List.flatMap_cons, List.length_append, List.length_append]
      exact Nat.add_le_add (hle a) ih
  have heq : ∀ l : List α, l.flatMap f = l.flatMap g → ∀ a ∈ l, f a = g a := by
    intro l
    induction l with
    | nil => simp
    | cons a as ih =>
      intro h
      rw [List.flatMap_cons, List.flatMap_cons] at h
      obtain ⟨hhead, htail⟩ := (append_eq_append_iff_of_le (hle a) (hlength as)).1 h.symm
      intro b hb
      rcases List.mem_cons.mp hb with rfl | hb
      · exact hhead.symm
      · exact ih htail.symm b hb
  constructor
  · intro h
    exact heq l (h.eq_of_length_le (hlength l))
  · intro h
    rw [List.flatMap_congr h]

/-- The elements of a kind come first. -/
def First (p : α → Bool) (l : List α) : Prop := l.Pairwise fun a b => p b = true → p a = true

theorem filter_append_filter_iff {p : α → Bool} {l : List α} :
    l = l.filter p ++ l.filter (fun a => !p a) ↔ First p l := by
  constructor
  · intro h
    rw [h]
    refine List.pairwise_append.2 ⟨?_, ?_, ?_⟩
    · exact List.pairwise_of_forall_mem_list fun a ha b _ _ => (List.mem_filter.1 ha).2
    · refine List.pairwise_of_forall_mem_list fun a _ b hb hpb => ?_
      have hnot := (List.mem_filter.1 hb).2
      simp [hpb] at hnot
    · intro a ha b _ _
      exact (List.mem_filter.1 ha).2
  · intro h
    induction l with
    | nil => rfl
    | cons a as ih =>
      obtain ⟨hhead, htail⟩ := List.pairwise_cons.1 h
      by_cases hpa : p a = true
      · rw [List.filter_cons_of_pos hpa, List.filter_cons_of_neg (by simp [hpa])]
        exact congrArg (a :: ·) (ih htail)
      · have hnone : ∀ b ∈ as, ¬ p b = true := fun b hb hpb => hpa (hhead b hb hpb)
        rw [List.filter_cons_of_neg hpa, List.filter_cons_of_pos (by simp [hpa]),
          List.filter_eq_nil_iff.2 hnone, List.filter_eq_self.2 (by simpa using hnone)]
        rfl

/-! ## Texts made of pieces -/

theorem join_singleton (text : String) : String.join [text] = text := by
  rw [String.join_cons, String.join_nil, String.append_empty]

theorem join_eq_empty_iff {texts : List String} :
    String.join texts = "" ↔ ∀ text ∈ texts, text = "" := by
  induction texts with
  | nil => simp
  | cons text texts ih =>
    rw [String.join_cons, String.append_eq_empty_iff, List.forall_mem_cons, ih]

/-- A text is its last piece only if the others are empty. -/
theorem join_eq_getLast_iff (texts : List String) :
    String.join texts = texts.getLast?.getD "" ↔ ∀ text ∈ texts.dropLast, text = "" := by
  rcases List.eq_nil_or_concat' texts with rfl | ⟨texts, last, rfl⟩
  · simp
  · rw [List.getLast?_concat, List.dropLast_concat, ← join_eq_empty_iff, String.join_append,
      join_singleton]
    exact String.append_eq_right_iff

end Pieces
