import Mathlib.Data.List.Rotate

/-!
# Round robin

Positions below `n` are polled around the end: a poll takes the first one that is enabled
from where the poll before it went past.  Polls that find the same positions enabled take
each of them in turn (`Polls.rotated`), and a position that is enabled in `n` polls is
taken by one of them (`Polls.taken`).
-/

namespace RoundRobin

/-- The positions from `start` on, around the end. -/
def around (n start : ℕ) : List ℕ := (List.range n).map fun i => (start + i) % n

/-- The first that is enabled. -/
def next (enabled : ℕ → Bool) (n start : ℕ) : Option ℕ := (around n start).find? enabled

/-- What a poll found enabled, and what it took. -/
structure Poll where
  enabled : ℕ → Bool
  taken : ℕ

/-- Polls one after another from `start` on. -/
def Polls (n : ℕ) : ℕ → List Poll → Prop
  | _, [] => True
  | start, poll :: polls =>
    next poll.enabled n start = some poll.taken ∧ Polls n ((poll.taken + 1) % n) polls

variable {n start : ℕ} {enabled : ℕ → Bool} {poll : Poll} {polls : List Poll} {x : ℕ}

/-! ## The positions around the end -/

theorem around_eq_rotate (n start : ℕ) : around n start = (List.range n).rotate start := by
  apply List.ext_getElem
  · simp [around]
  · intro i hi hi'
    rw [List.getElem_rotate]
    simp [around, Nat.add_comm]

theorem mem_around : x ∈ around n start ↔ x < n := by
  rw [around_eq_rotate, List.mem_rotate, List.mem_range]

/-- The positions from behind one of them. -/
theorem around_after {before after : List ℕ}
    (hsplit : around n start = before ++ x :: after) :
    around n ((x + 1) % n) = after ++ before ++ [x] := by
  have hlength : before.length < n := by
    have hlen := congrArg List.length hsplit
    simp only [around, List.length_map, List.length_range, List.length_append,
      List.length_cons] at hlen
    omega
  have hx : x = (start + before.length) % n := by
    have hget : (around n start)[before.length]? = some x := by
      rw [hsplit, List.getElem?_append_right (le_refl _), Nat.sub_self]
      rfl
    unfold around at hget
    rw [List.getElem?_map, List.getElem?_range hlength] at hget
    exact (Option.some.inj hget).symm
  have hmod : (x + 1) % n = (start + (before.length + 1)) % n := by
    rw [hx, Nat.mod_add_mod, Nat.add_assoc]
  have hrotate := List.rotate_mod (List.range n) (start + (before.length + 1))
  rw [List.length_range] at hrotate
  have hshift : (before ++ [x]).length = before.length + 1 := by simp
  rw [around_eq_rotate, hmod, hrotate, ← List.rotate_rotate, ← around_eq_rotate, hsplit,
    List.append_cons, ← hshift, List.rotate_append_length_eq, List.append_assoc]

/-! ## One poll -/

/-- A poll passes positions that are not enabled, and takes one that is. -/
theorem next_eq_some_iff : next enabled n start = some x ↔
    ∃ before after, around n start = before ++ x :: after ∧ enabled x = true ∧
      ∀ y ∈ before, enabled y = false := by
  rw [next, List.find?_eq_some_iff_append]
  constructor
  · rintro ⟨hx, before, after, hsplit, hbefore⟩
    exact ⟨before, after, hsplit, hx, fun y hy => by simpa using hbefore y hy⟩
  · rintro ⟨before, after, hsplit, hx, hbefore⟩
    exact ⟨hx, before, after, hsplit, fun y hy => by simpa using hbefore y hy⟩

/-- Only the positions below `n` count. -/
theorem next_congr {enabled' : ℕ → Bool} (h : ∀ i < n, enabled i = enabled' i) :
    next enabled n start = next enabled' n start := by
  rw [next, next, ← List.head?_filter, ← List.head?_filter,
    List.filter_congr fun i hi => h i (mem_around.mp hi)]

theorem next_isSome (start : ℕ) (hx : x < n) (henabled : enabled x = true) :
    ∃ y, next enabled n start = some y := by
  rw [← Option.isSome_iff_exists, next, List.find?_isSome]
  exact ⟨x, mem_around.mpr hx, henabled⟩

theorem next_lt (hnext : next enabled n start = some x) : x < n :=
  mem_around.mp (List.mem_of_find?_eq_some hnext)

/-- What is enabled from behind the one that is taken. -/
theorem filter_around_after (h : next enabled n start = some x) :
    ∃ rest, (around n start).filter enabled = x :: rest ∧
      (around n ((x + 1) % n)).filter enabled = rest ++ [x] := by
  obtain ⟨before, after, hsplit, hx, hbefore⟩ := next_eq_some_iff.mp h
  have hnone : before.filter enabled = [] := by
    rw [List.filter_eq_nil_iff]
    intro y hy
    rw [hbefore y hy]
    exact Bool.false_ne_true
  refine ⟨after.filter enabled, ?_, ?_⟩
  · rw [hsplit, List.filter_append, hnone, List.nil_append, List.filter_cons_of_pos hx]
  · rw [around_after hsplit, List.filter_append, List.filter_append, hnone, List.append_nil,
      List.filter_singleton, hx]
    rfl

/-! ## Polls one after another -/

/-- The polls take the enabled positions in the order in which they come. -/
theorem Polls.isPrefix (hpolls : Polls n start polls)
    (hsame : ∀ poll ∈ polls, ∀ i < n, poll.enabled i = enabled i)
    (hlength : polls.length ≤ ((around n start).filter enabled).length) :
    polls.map Poll.taken <+: (around n start).filter enabled := by
  induction polls generalizing start with
  | nil => exact List.nil_prefix
  | cons poll polls ih =>
    rw [List.forall_mem_cons] at hsame
    obtain ⟨hnext, hrest⟩ := hpolls
    rw [next_congr hsame.1] at hnext
    obtain ⟨rest, hfirst, hafter⟩ := filter_around_after hnext
    rw [hfirst] at hlength ⊢
    rw [List.length_cons, List.length_cons] at hlength
    have htail := ih hrest hsame.2 (by rw [hafter, List.length_append]; omega)
    rw [hafter] at htail
    rw [List.map_cons, List.cons_prefix_cons]
    refine ⟨rfl, List.prefix_of_prefix_length_le htail (List.prefix_append rest _) ?_⟩
    rw [List.length_map]
    omega

/-- Filtered lists that are rotations of each other before are so afterwards. -/
theorem isRotated_filter_around (enabled : ℕ → Bool) (n start : ℕ) :
    (around n start).filter enabled ~r (List.range n).filter enabled := by
  rw [around_eq_rotate, List.rotate_eq_drop_append_take_mod, List.filter_append]
  have hwhole := congrArg (List.filter enabled)
    (List.take_append_drop (start % (List.range n).length) (List.range n))
  rw [List.filter_append] at hwhole
  rw [← hwhole]
  exact List.isRotated_append

/-- **As many polls as there are enabled positions** take each of them once, in the order in
which they come around. -/
theorem Polls.rotated (hpolls : Polls n start polls)
    (hsame : ∀ poll ∈ polls, ∀ i < n, poll.enabled i = enabled i)
    (hlength : polls.length = ((List.range n).filter enabled).length) :
    polls.map Poll.taken ~r (List.range n).filter enabled := by
  have hrotated := isRotated_filter_around enabled n start
  have hcount := hrotated.perm.length_eq
  have hprefix := hpolls.isPrefix hsame (by omega)
  have hwhole := hprefix.eq_of_length (by rw [List.length_map]; omega)
  rw [hwhole]
  exact hrotated

/-- A position is taken before the polls have come around to it twice. -/
theorem Polls.taken_of_idxOf (hpolls : Polls n start polls) (hx : x < n)
    (henabled : ∀ poll ∈ polls, poll.enabled x = true)
    (hlength : (around n start).idxOf x < polls.length) : x ∈ polls.map Poll.taken := by
  induction polls generalizing start with
  | nil => exact absurd hlength (Nat.not_lt_zero _)
  | cons poll polls ih =>
    rw [List.forall_mem_cons] at henabled
    obtain ⟨hnext, hrest⟩ := hpolls
    obtain ⟨before, after, hsplit, -, hbefore⟩ := next_eq_some_iff.mp hnext
    rw [List.map_cons, List.mem_cons]
    by_cases htaken : x = poll.taken
    · exact .inl htaken
    · have hnot : x ∉ before := by
        intro hmem
        exact Bool.false_ne_true ((hbefore x hmem).symm.trans henabled.1)
      have hmem : x ∈ after := by
        have hall : x ∈ around n start := mem_around.mpr hx
        rw [hsplit, List.mem_append, List.mem_cons] at hall
        exact (hall.resolve_left hnot).resolve_left htaken
      obtain ⟨near, far, rfl, hnear⟩ := List.eq_append_cons_of_mem hmem
      -- The next polls begin behind what was taken, and are nearer.
      have hdistance : (around n ((poll.taken + 1) % n)).idxOf x = near.length := by
        rw [around_after hsplit, List.append_assoc, List.append_assoc,
          List.idxOf_append_of_notMem hnear, List.cons_append, List.idxOf_cons_self, Nat.add_zero]
      refine .inr (ih hrest henabled.2 ?_)
      rw [hdistance]
      rw [hsplit, List.idxOf_append_of_notMem hnot, List.idxOf_cons_ne _ (Ne.symm htaken),
        List.idxOf_append_of_notMem hnear, List.length_cons] at hlength
      omega

/-- **A position that is enabled in `n` polls** is taken by one of them. -/
theorem Polls.taken (hpolls : Polls n start polls) (hx : x < n)
    (henabled : ∀ poll ∈ polls, poll.enabled x = true) (hlength : n ≤ polls.length) :
    x ∈ polls.map Poll.taken := by
  refine hpolls.taken_of_idxOf hx henabled ?_
  have hmem : x ∈ around n start := mem_around.mpr hx
  have hlt := List.idxOf_lt_length_of_mem hmem
  simp only [around, List.length_map, List.length_range] at hlt
  exact lt_of_lt_of_le hlt hlength

end RoundRobin
