import Mathlib.Data.List.Basic

/-!
# Texts that occur in other texts

`Occurs ts os`: the texts `ts` are found in the texts `os`, one after the other and without
overlap, each as a stretch of one of them.  A letter is then in `os` as often as in `ts`, or
more often (`Occurs.count_le`).  `cutAt` cuts a text where another is found in it first
(`cutAt_eq_some_iff`).
-/

namespace Occurrence

variable {α : Type}

inductive Occurs : List (List α) → List (List α) → Prop
  | nil (os) : Occurs [] os
  | skip {ts os} (o) (h : Occurs ts os) : Occurs ts (o :: os)
  | empty {ts os} (h : Occurs ts os) : Occurs ([] :: ts) os
  | take {ts os} (pre t post) (h : Occurs ts (post :: os)) :
    Occurs (t :: ts) ((pre ++ t ++ post) :: os)

theorem Occurs.prepend {ts os : List (List α)} (h : Occurs ts os) (os' : List (List α)) :
    Occurs ts (os' ++ os) := by
  induction os' with
  | nil => exact h
  | cons o os' ih => exact .skip o ih

theorem Occurs.append {ts ts' os os' : List (List α)} (h : Occurs ts os) (h' : Occurs ts' os') :
    Occurs (ts ++ ts') (os ++ os') := by
  induction h with
  | nil os => exact h'.prepend os
  | skip o _ ih => exact .skip o ih
  | empty _ ih => exact .empty ih
  | take pre t post _ ih => exact .take pre t post ih

theorem Occurs.self (t : List α) : Occurs [t] [t] := by
  have h := Occurs.take [] t [] (.nil [[]])
  rwa [List.nil_append, List.append_nil] at h

/-- A text that is put at the end of the last one. -/
theorem Occurs.concat {ts : List (List α)} {x : List α} (h : Occurs ts [x]) (y t : List α) :
    Occurs (ts ++ [t]) [x ++ y ++ t] := by
  have hlast : ∀ x : List α, Occurs [t] [x ++ y ++ t] := by
    intro x
    have h := Occurs.take (x ++ y) t [] (.nil [[]])
    rwa [List.append_nil] at h
  generalize hos : [x] = os at h
  induction h generalizing x with
  | nil os =>
    cases hos
    exact hlast _
  | skip o h ih =>
    cases hos
    exact h.append (hlast _)
  | empty _ ih => exact .empty (ih hos)
  | take pre t' post _ ih =>
    cases hos
    have htail := Occurs.take pre t' (post ++ y ++ t) (ih rfl)
    rw [List.cons_append]
    simpa only [List.append_assoc] using htail

/-- **Letters are not lost.** -/
theorem Occurs.count_le [DecidableEq α] {ts os : List (List α)} (h : Occurs ts os) (a : α) :
    ts.flatten.count a ≤ os.flatten.count a := by
  induction h with
  | nil os => exact Nat.zero_le _
  | skip o _ ih =>
    rw [List.flatten_cons, List.count_append]
    omega
  | empty _ ih => exact ih
  | take pre t post _ ih =>
    rw [List.flatten_cons, List.count_append] at ih ⊢
    rw [List.flatten_cons, List.count_append, List.count_append, List.count_append]
    omega

/-! ## The first occurrence -/

section First

variable {β : Type} {p : List α → Option β} {l before : List α} {b : β}

/-- What stands before the first place from which on the text has a value, and the value. -/
def firstSome (p : List α → Option β) : List α → Option (List α × β)
  | [] => (p []).map fun b => ([], b)
  | a :: l =>
    match p (a :: l) with
    | some b => some ([], b)
    | none => (firstSome p l).map fun x => (a :: x.1, x.2)

theorem firstSome_eq_some_iff : firstSome p l = some (before, b) ↔
    ∃ after, l = before ++ after ∧ p after = some b ∧
      ∀ before' after', l = before' ++ after' → (p after').isSome = true →
        before.length ≤ before'.length := by
  induction l generalizing before with
  | nil =>
    rw [firstSome, Option.map_eq_some_iff]
    constructor
    · rintro ⟨b', hb', heq⟩
      cases heq
      exact ⟨[], rfl, hb', fun _ _ _ _ => Nat.zero_le _⟩
    · rintro ⟨after, hnil, hafter, -⟩
      obtain ⟨rfl, rfl⟩ := List.append_eq_nil_iff.mp hnil.symm
      exact ⟨b, hafter, rfl⟩
  | cons a l ih =>
    rw [firstSome]
    cases hhere : p (a :: l) with
    | some b' =>
      dsimp only
      constructor
      · intro h
        cases h
        exact ⟨a :: l, rfl, hhere, fun _ _ _ _ => Nat.zero_le _⟩
      · rintro ⟨after, hl, hafter, hfirst⟩
        have hzero := hfirst [] (a :: l) rfl (by rw [hhere]; rfl)
        obtain rfl := List.eq_nil_of_length_eq_zero (Nat.le_zero.mp hzero)
        rw [List.nil_append] at hl
        rw [← hl, hhere] at hafter
        cases hafter
        rfl
    | none =>
      dsimp only
      rw [Option.map_eq_some_iff]
      constructor
      · rintro ⟨⟨before', b'⟩, hcut, heq⟩
        cases heq
        obtain ⟨after, rfl, hafter, hfirst⟩ := ih.mp hcut
        refine ⟨after, rfl, hafter, fun c d hcd hd => ?_⟩
        cases c with
        | nil =>
          rw [List.nil_append] at hcd
          rw [← hcd, hhere] at hd
          cases hd
        | cons a' c =>
          rw [List.cons_append, List.cons.injEq] at hcd
          exact Nat.succ_le_succ (hfirst c d hcd.2 hd)
      · rintro ⟨after, hl, hafter, hfirst⟩
        cases before with
        | nil =>
          rw [List.nil_append] at hl
          rw [← hl, hhere] at hafter
          cases hafter
        | cons a' before =>
          rw [List.cons_append, List.cons.injEq] at hl
          obtain ⟨rfl, rfl⟩ := hl
          refine ⟨(before, b), ih.mpr ⟨after, rfl, hafter, fun c d hcd hd => ?_⟩, rfl⟩
          have hle := hfirst (a :: c) d (congrArg (a :: ·) hcd) hd
          exact Nat.le_of_succ_le_succ hle

theorem firstSome_eq_none_iff : firstSome p l = none ↔
    ∀ before after, l = before ++ after → p after = none := by
  induction l with
  | nil =>
    rw [firstSome, Option.map_eq_none_iff]
    constructor
    · intro h before after hnil
      obtain ⟨rfl, rfl⟩ := List.append_eq_nil_iff.mp hnil.symm
      exact h
    · exact fun h => h [] [] rfl
  | cons a l ih =>
    rw [firstSome]
    cases hhere : p (a :: l) with
    | some b =>
      refine iff_of_false nofun fun h => ?_
      have hnone := h [] (a :: l) rfl
      rw [hhere] at hnone
      cases hnone
    | none =>
      dsimp only
      rw [Option.map_eq_none_iff, ih]
      constructor
      · intro h before after hl
        cases before with
        | nil =>
          rw [List.nil_append] at hl
          rw [← hl]
          exact hhere
        | cons a' before =>
          rw [List.cons_append, List.cons.injEq] at hl
          exact h before after hl.2
      · exact fun h before after hl => h (a :: before) after (congrArg (a :: ·) hl)

/-- The value of a suffix stands if none of what is put before it has one. -/
theorem firstSome_append {tail : List α} (h : ∀ a c, before = a ++ c → c ≠ [] → p (c ++ tail) = none)
    (hb : p tail = some b) : firstSome p (before ++ tail) = some (before, b) := by
  refine firstSome_eq_some_iff.mpr ⟨tail, rfl, hb, fun before' after' hsplit hsome => ?_⟩
  by_contra hlt
  rcases List.append_eq_append_iff.mp hsplit with ⟨c, hc, -⟩ | ⟨c, hc, hafter⟩
  · rw [hc, List.length_append] at hlt
    omega
  · have hne : c ≠ [] := by
      rintro rfl
      rw [hc, List.append_nil] at hlt
      exact hlt (Nat.le_refl _)
    rw [hafter, h before' c hc hne] at hsome
    cases hsome

variable [BEq α]

/-- What stands before the first occurrence of `sub`, and the text from there on. -/
def cutAt (sub : List α) : List α → Option (List α × List α) :=
  firstSome fun l => if sub.isPrefixOf l then some l else none

variable [LawfulBEq α] {sub after : List α}

/-- The cut is at an occurrence, and no occurrence is before it. -/
theorem cutAt_eq_some_iff : cutAt sub l = some (before, after) ↔
    l = before ++ after ∧ sub <+: after ∧
      ∀ before' after', l = before' ++ after' → sub <+: after' →
        before.length ≤ before'.length := by
  have hsome : ∀ l' : List α, (if sub.isPrefixOf l' then some l' else none) = some after ↔
      l' = after ∧ sub <+: after := by
    intro l'
    rw [Option.ite_none_right_eq_some, Option.some.injEq, List.isPrefixOf_iff_prefix]
    exact ⟨fun ⟨h, heq⟩ => ⟨heq, heq ▸ h⟩, fun ⟨heq, h⟩ => ⟨heq ▸ h, heq⟩⟩
  have hisSome : ∀ l' : List α, (if sub.isPrefixOf l' then some l' else none).isSome = true ↔
      sub <+: l' := by
    intro l'
    rw [← List.isPrefixOf_iff_prefix]
    split
    · rename_i h
      exact iff_of_true rfl h
    · rename_i h
      exact iff_of_false nofun h
  unfold cutAt
  rw [firstSome_eq_some_iff]
  constructor
  · rintro ⟨after', hl, hafter, hfirst⟩
    obtain ⟨rfl, hsub⟩ := (hsome after').mp hafter
    exact ⟨hl, hsub, fun c d hcd hd => hfirst c d hcd ((hisSome d).mpr hd)⟩
  · rintro ⟨hl, hsub, hfirst⟩
    exact ⟨after, hl, (hsome after).mpr ⟨rfl, hsub⟩,
      fun c d hcd hd => hfirst c d hcd ((hisSome d).mp hd)⟩

theorem cutAt_eq_none_iff : cutAt sub l = none ↔ ¬ sub <:+: l := by
  unfold cutAt
  rw [firstSome_eq_none_iff]
  constructor
  · rintro h ⟨c, d, rfl⟩
    have hnone := h c (sub ++ d) (List.append_assoc c sub d)
    rw [if_pos (List.isPrefixOf_iff_prefix.mpr (List.prefix_append sub d))] at hnone
    cases hnone
  · intro h before after hl
    refine if_neg fun hsub => h ?_
    rw [hl]
    exact (List.isPrefixOf_iff_prefix.mp hsub).isInfix.trans (List.suffix_append before after).isInfix

/-- The cut at one letter. -/
theorem cutAt_singleton_iff {a : α} : cutAt [a] l = some (before, after) ↔
    l = before ++ after ∧ after.head? = some a ∧ a ∉ before := by
  rw [cutAt_eq_some_iff]
  refine and_congr_right fun hl => ?_
  have hhead : ∀ l' : List α, [a] <+: l' ↔ l'.head? = some a := by
    intro l'
    cases l' with
    | nil => exact iff_of_false (fun h => nomatch List.prefix_nil.mp h) nofun
    | cons c l' =>
      rw [List.cons_prefix_cons, List.head?_cons, Option.some.injEq]
      exact ⟨fun h => h.1.symm, fun h => ⟨h.symm, List.nil_prefix⟩⟩
  rw [hhead]
  refine and_congr_right fun _ => ⟨fun hfirst hmem => ?_, fun hnot before' after' hsplit hafter => ?_⟩
  · obtain ⟨c, d, rfl⟩ := List.append_of_mem hmem
    have hle := hfirst c (a :: d ++ after) (by rw [hl]; simp) ((hhead _).mpr rfl)
    rw [List.length_append, List.length_cons] at hle
    omega
  · by_contra hlt
    rcases List.append_eq_append_iff.mp (hl.symm.trans hsplit) with ⟨c, hc, -⟩ | ⟨c, hc, hc'⟩
    · rw [hc, List.length_append] at hlt
      omega
    · cases c with
      | nil =>
        rw [hc, List.append_nil] at hlt
        exact hlt (Nat.le_refl _)
      | cons c cs =>
        rw [hhead, hc', List.cons_append, List.head?_cons] at hafter
        refine hnot ?_
        rw [hc, ← Option.some.inj hafter]
        exact List.mem_append_right _ List.mem_cons_self

end First

end Occurrence
