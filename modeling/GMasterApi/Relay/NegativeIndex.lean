import GMasterApi.Lib.JsonPath

/-!
# Negative indexes

`processNegativeIndex` looks for the array of a negative index at the text before the first
occurrence of its digits in the path, and puts the index where they stand first in the
result.  A path is resolved as it should be where each index finds an array as long as its
own, and, unless the digits of one index go on where another ends, only there
(`processNegativeIndex_iff`).
-/

namespace Override.NegativeIndex

open GoString JsonValue

abbrev Text := List Char

/-! ## `processNegativeIndex` -/

/-- `-\d+`, and what follows it. -/
def indexText : Text → Option (Text × Text)
  | '-' :: l =>
    if l.takeWhile Char.isDigit = [] then none
    else some ('-' :: l.takeWhile Char.isDigit, l.dropWhile Char.isDigit)
  | _ => none

/-- `negativeIndexRegexp.FindAllStringSubmatch(path, -1)`, of each match the index.  There is
no dot in an index, so that the next match is behind it. -/
def findAllSubmatch : Text → List Text
  | [] => []
  | c :: l => (if c = '.' then ((indexText l).map Prod.fst).toList else []) ++ findAllSubmatch l

/-- `strings.Split(s, sep)[0]` -/
def splitFirst (sep : Text) : Text → Text
  | [] => []
  | c :: l => if sep.isPrefixOf (c :: l) then [] else c :: splitFirst sep l

/-- `strings.Replace(s, old, new, 1)` of a text that is not empty. -/
def replaceFirst (old new : Text) : Text → Text
  | [] => []
  | c :: l =>
    if old.isPrefixOf (c :: l) then new ++ (c :: l).drop old.length
    else c :: replaceFirst old new l

def arrayPath (path negIndex : Text) : Text :=
  let arrayPath := splitFirst negIndex path
  if arrayPath.getLast? = some '.' then arrayPath.dropLast else arrayPath

/-- `gjson.GetBytes`, which looks a path up exactly and finds nothing at an empty one. -/
def getBytes (body : Json) (path : Text) : Option Json :=
  if path = [] then none else body.at ((path.splitOn '.').map String.ofList)

def arrayLength : Option Json → Option ℕ
  | some (.array items) => some items.length
  | _ => none

/-- What is done for one match. -/
def replaceIndex (body : Json) (path result negIndex : Text) : Text :=
  let index := atoiValue (String.ofList negIndex)
  match arrayLength (getBytes body (arrayPath path negIndex)) with
  | some length =>
    let actualIndex := length + index
    if 0 ≤ actualIndex ∧ actualIndex < length then
      replaceFirst ('.' :: negIndex) ('.' :: actualIndex.toNat.repr.toList) result
    else result
  | none => result

def processNegativeIndex (body : Json) (path : String) : String :=
  String.ofList ((findAllSubmatch path.toList).foldl (replaceIndex body path.toList) path.toList)

/-! ## What is promised -/

/-- The number behind the sign, as `Atoi` reads it. -/
def magnitude (index : Text) : ℕ := (-atoiValue (String.ofList index)).toNat

/-- The length of an array that has the element. -/
def reaching (length : Option ℕ) (index : Text) : Option ℕ :=
  length.filter fun n => 1 ≤ magnitude index ∧ magnitude index ≤ n

/-- For a segment that is a negative index, the length of the array at the segments before. -/
def ownArray (body : Json) (done : List Text) (segment : Text) : Option ℕ :=
  match indexText segment with
  | some (index, []) => reaching (arrayLength (body.at (done.map String.ofList))) index
  | _ => none

def resolveSegment (body : Json) (done : List Text) (segment : Text) : Text :=
  match ownArray body done segment with
  | some n => (n - magnitude segment).repr.toList
  | none => segment

/-- The segments from the left, behind those that are resolved. -/
def resolve (body : Json) : List Text → List Text → List Text
  | _, [] => []
  | done, segment :: segments =>
    resolveSegment body done segment ::
      resolve body (done ++ [resolveSegment body done segment]) segments

def segments (path : String) : List Text := path.toList.splitOn '.'

/-- **Resolves**: each negative index becomes the index in the array at its own prefix, and
the other segments stay. -/
def Resolves (body : Json) (path : String) : Prop :=
  processNegativeIndex body path =
    String.ofList (['.'].intercalate (resolve body [] (segments path)))

/-- The length of the array that is found for a segment. -/
def foundArray (body : Json) (path : String) (segment : Text) : Option ℕ :=
  (indexText segment).bind fun index =>
    reaching (arrayLength (getBytes body (arrayPath path.toList index.1))) index.1

/-- Each of the segments behind `done` finds an array as long as its own, or none where it has
none. -/
def FindOwn (body : Json) (path : String) : List Text → List Text → Prop
  | _, [] => True
  | done, segment :: segments =>
    foundArray body path segment = ownArray body done segment ∧
      FindOwn body path (done ++ [resolveSegment body done segment]) segments

/-- The first segment is no index of the body itself, and the others find their arrays. -/
def Agrees (body : Json) (path : String) : Prop :=
  ∀ first rest, segments path = first :: rest →
    ownArray body [] first = none ∧ FindOwn body path [first] rest

/-- No index that is replaced stands behind a longer one that begins with it and is not. -/
def Located (body : Json) (path : String) : Prop :=
  ∀ first rest, segments path = first :: rest → ∀ before segment after,
    rest = before ++ segment :: after → ∀ index, indexText segment = some index →
      foundArray body path segment ≠ none →
        ∀ earlier ∈ before, index.1 <+: earlier → foundArray body path earlier ≠ none

/-- No index goes on where another one ends. -/
def Apart (path : String) : Prop :=
  ∀ segment ∈ segments path, ∀ segment' ∈ segments path, ∀ index index',
    indexText segment = some index → indexText segment' = some index' →
      index.1 <+: index'.1 → index.1 = index'.1

/-! ## Indexes in segments -/

variable {body : Json} {path : String} {segment index rest : Text}

theorem takeWhile_append_dot (l : Text) (h : rest.head? = none ∨ rest.head? = some '.') :
    (l ++ rest).takeWhile Char.isDigit = l.takeWhile Char.isDigit ∧
      (l ++ rest).dropWhile Char.isDigit = l.dropWhile Char.isDigit ++ rest := by
  induction l with
  | nil =>
    cases rest with
    | nil => exact ⟨rfl, rfl⟩
    | cons c rest =>
      obtain rfl : c = '.' := by simpa using h
      exact ⟨rfl, rfl⟩
  | cons c l ih =>
    rw [List.cons_append, List.takeWhile_cons, List.takeWhile_cons, List.dropWhile_cons,
      List.dropWhile_cons, ih.1, ih.2]
    split
    · exact ⟨rfl, rfl⟩
    · exact ⟨rfl, rfl⟩

theorem indexText_append (segment : Text) (h : rest.head? = none ∨ rest.head? = some '.') :
    indexText (segment ++ rest) =
      (indexText segment).map fun index => (index.1, index.2 ++ rest) := by
  cases segment with
  | nil =>
    cases rest with
    | nil => rfl
    | cons c rest =>
      obtain rfl : c = '.' := by simpa using h
      rfl
  | cons c segment =>
    by_cases hc : c = '-'
    · subst hc
      obtain ⟨htake, hdrop⟩ := takeWhile_append_dot segment h
      rw [List.cons_append, indexText, indexText, htake, hdrop]
      split <;> rfl
    · have hnone : ∀ l, indexText (c :: l) = none := by
        intro l
        unfold indexText
        split
        · rename_i heq
          exact absurd (List.cons.inj heq).1 hc
        · rfl
      rw [List.cons_append, hnone, hnone]
      rfl

/-- An index is the sign with digits, at the start of its segment. -/
theorem indexText_eq_some {tail : Text} (h : indexText segment = some (index, tail)) :
    segment = index ++ tail ∧ ∃ digits, index = '-' :: digits ∧ ∀ c ∈ digits, c.isDigit = true := by
  unfold indexText at h
  split at h
  · split at h
    · cases h
    · obtain ⟨rfl, rfl⟩ := Prod.mk.inj (Option.some.inj h)
      refine ⟨?_, _, rfl, fun c hc => List.mem_takeWhile_imp hc⟩
      rw [List.cons_append, List.takeWhile_append_dropWhile]
  · cases h

theorem dot_not_mem_index {tail : Text} (h : indexText segment = some (index, tail)) :
    '.' ∉ index := by
  obtain ⟨-, digits, rfl, hdigits⟩ := indexText_eq_some h
  rw [List.mem_cons]
  rintro (hminus | hdot)
  · exact absurd hminus (by decide)
  · exact absurd (hdigits _ hdot) (by decide)

/-! ## The path as segments -/

/-- Segments behind a dot each. -/
def dotted (segments : List Text) : Text := segments.flatMap fun segment => '.' :: segment

theorem intercalate_dot (first : Text) (segments : List Text) :
    ['.'].intercalate (first :: segments) = first ++ dotted segments := by
  induction segments generalizing first with
  | nil => simp [dotted]
  | cons segment segments ih =>
    rw [List.intercalate_cons_cons, ih]
    simp [dotted]

theorem head?_dotted (segments : List Text) :
    (dotted segments).head? = none ∨ (dotted segments).head? = some '.' := by
  cases segments with
  | nil => exact .inl rfl
  | cons segment segments => exact .inr rfl

theorem findAllSubmatch_skip {first : Text} (h : '.' ∉ first) (l : Text) :
    findAllSubmatch (first ++ l) = findAllSubmatch l := by
  induction first with
  | nil => rfl
  | cons c first ih =>
    rw [List.mem_cons, not_or] at h
    rw [List.cons_append, findAllSubmatch, if_neg (Ne.symm h.1), ih h.2]
    rfl

/-- The index that is looked for in a segment. -/
def indexOf (segment : Text) : Option Text := (indexText segment).map Prod.fst

/-- The matches are the indexes at the starts of the segments. -/
theorem findAllSubmatch_dotted {segments : List Text}
    (hsegments : ∀ segment ∈ segments, '.' ∉ segment) :
    findAllSubmatch (dotted segments) = segments.filterMap indexOf := by
  induction segments with
  | nil => rfl
  | cons segment segments ih =>
    rw [List.forall_mem_cons] at hsegments
    have hdotted : dotted (segment :: segments) = '.' :: (segment ++ dotted segments) := rfl
    have hindex : (indexText (segment ++ dotted segments)).map Prod.fst = indexOf segment := by
      rw [indexText_append segment (head?_dotted segments), Option.map_map]
      rfl
    rw [hdotted, findAllSubmatch, if_pos rfl, hindex, findAllSubmatch_skip hsegments.1,
      ih hsegments.2, List.filterMap_cons]
    cases indexOf segment with
    | none => rfl
    | some index => rfl

theorem replaceFirst_skip {first : Text} (h : '.' ∉ first) (old new l : Text) :
    replaceFirst ('.' :: old) new (first ++ l) = first ++ replaceFirst ('.' :: old) new l := by
  induction first with
  | nil => rfl
  | cons c first ih =>
    rw [List.mem_cons, not_or] at h
    have hne : ('.' == c) = false := by simpa using h.1
    rw [List.cons_append, replaceFirst, List.isPrefixOf, hne, Bool.false_and,
      if_neg Bool.false_ne_true, ih h.2]
    rfl

/-- The first of the segments that begins with the text gets another beginning. -/
def patch (old new : Text) : List Text → List Text
  | [] => []
  | segment :: segments =>
    if old <+: segment then (new ++ segment.drop old.length) :: segments
    else segment :: patch old new segments

theorem prefix_append_dotted {old : Text} (hold : '.' ∉ old) (segment : Text)
    (segments : List Text) : old <+: segment ++ dotted segments ↔ old <+: segment := by
  constructor
  · rintro ⟨tail, htail⟩
    rcases List.append_eq_append_iff.mp htail with ⟨middle, hsegment, -⟩ | ⟨middle, hold', hdotted⟩
    · exact ⟨middle, hsegment.symm⟩
    · cases middle with
      | nil => rw [hold', List.append_nil]
      | cons c middle =>
        obtain hnone | hdot := head?_dotted segments
        · rw [hdotted] at hnone
          cases hnone
        · rw [hdotted] at hdot
          obtain rfl : c = '.' := by simpa using hdot
          rw [hold'] at hold
          exact absurd (List.mem_append_right _ (List.mem_cons_self ..)) hold
  · exact fun h => h.trans (List.prefix_append segment _)

theorem replaceFirst_dotted {old : Text} (hold : '.' ∉ old) (new : Text) {segments : List Text}
    (hsegments : ∀ segment ∈ segments, '.' ∉ segment) :
    replaceFirst ('.' :: old) ('.' :: new) (dotted segments) = dotted (patch old new segments) := by
  induction segments with
  | nil => rfl
  | cons segment segments ih =>
    rw [List.forall_mem_cons] at hsegments
    have hdotted : dotted (segment :: segments) = '.' :: (segment ++ dotted segments) := rfl
    have hiff : ('.' :: old).isPrefixOf ('.' :: (segment ++ dotted segments)) = true ↔
        old <+: segment := by
      rw [List.isPrefixOf_iff_prefix, List.cons_prefix_cons, prefix_append_dotted hold]
      exact and_iff_right rfl
    rw [hdotted, replaceFirst, patch]
    by_cases hstarts : old <+: segment
    · rw [if_pos (hiff.mpr hstarts), if_pos hstarts, List.length_cons, List.drop_succ_cons,
        List.drop_append_of_le_length hstarts.length_le, List.cons_append, ← List.append_assoc]
      rfl
    · rw [if_neg fun h => hstarts (hiff.mp h), if_neg hstarts, replaceFirst_skip hsegments.1,
        ih hsegments.2]
      rfl

/-! ## What is written into a segment -/

/-- The index in the array that is found, put where the digits are. -/
def written (body : Json) (path : String) (segment : Text) : Text :=
  match indexText segment, foundArray body path segment with
  | some (index, tail), some n => (n - magnitude index).repr.toList ++ tail
  | _, _ => segment

/-- One match, as it is counted from the end of the array. -/
theorem replaceIndex_eq (body : Json) (path : String) (result : Text) {index tail : Text}
    (h : indexText segment = some (index, tail)) :
    replaceIndex body path.toList result index =
      match foundArray body path segment with
      | some n => replaceFirst ('.' :: index) ('.' :: (n - magnitude index).repr.toList) result
      | none => result := by
  unfold replaceIndex foundArray reaching
  rw [h]
  dsimp only [Option.bind_some]
  cases arrayLength (getBytes body (arrayPath path.toList index)) with
  | none => rfl
  | some n =>
    rw [Option.filter_some]
    have hiff : (0 ≤ (n : ℤ) + atoiValue (String.ofList index) ∧
        (n : ℤ) + atoiValue (String.ofList index) < n) ↔
          1 ≤ magnitude index ∧ magnitude index ≤ n := by
      unfold magnitude
      omega
    by_cases hreach : 1 ≤ magnitude index ∧ magnitude index ≤ n
    · have hindex : ((n : ℤ) + atoiValue (String.ofList index)).toNat = n - magnitude index := by
        have := hreach
        unfold magnitude at this ⊢
        omega
      dsimp only
      rw [if_pos (hiff.mpr hreach), hindex, decide_eq_true hreach]
      rfl
    · dsimp only
      rw [if_neg (fun h => hreach (hiff.mp h)), decide_eq_false hreach]
      rfl

theorem isDigit_repr_head (n : ℕ) (tail : Text) :
    ∃ c l, n.repr.toList ++ tail = c :: l ∧ c.isDigit = true := by
  cases hrepr : n.repr.toList with
  | nil =>
    exact absurd hrepr (by rw [Nat.toList_repr]; exact Nat.toDigits_ne_nil)
  | cons c l =>
    have hc : c ∈ n.repr.toList := by rw [hrepr]; exact List.mem_cons_self
    exact ⟨c, l ++ tail, rfl, isDigit_of_mem_repr hc⟩

/-- What has been replaced begins with no index. -/
theorem not_prefix_written {old : Text} {digits : Text} (hold : old = '-' :: digits) (n : ℕ)
    (tail : Text) : ¬ old <+: n.repr.toList ++ tail := by
  obtain ⟨c, l, hsplit, hc⟩ := isDigit_repr_head n tail
  rw [hsplit, hold, List.cons_prefix_cons]
  rintro ⟨rfl, -⟩
  exact absurd hc (by decide)

/-- What begins with an index has one. -/
theorem indexText_of_starts {tail earlier : Text} (h : indexText segment = some (index, tail))
    (hstarts : index <+: earlier) : indexText earlier ≠ none := by
  unfold indexText at h
  split at h
  · rename_i l
    split at h
    · cases h
    · rename_i hdigits
      obtain ⟨rfl, rfl⟩ := Prod.mk.inj (Option.some.inj h)
      obtain ⟨more, rfl⟩ := hstarts
      rw [List.cons_append, indexText]
      rw [if_neg]
      · exact Option.some_ne_none _
      · obtain ⟨c, digits, hsplit⟩ := List.exists_cons_of_ne_nil hdigits
        have hc : c.isDigit = true :=
          List.mem_takeWhile_imp (l := l) (by rw [hsplit]; exact List.mem_cons_self)
        rw [hsplit, List.cons_append, List.takeWhile_cons, if_pos hc]
        exact List.cons_ne_nil _ _
  · cases h

/-- The patch is where its own segment is. -/
theorem patch_append {old new : Text} {before : List Text} {segments : List Text}
    (h : ∀ segment ∈ before, ¬ old <+: segment) :
    patch old new (before ++ segments) = before ++ patch old new segments := by
  induction before with
  | nil => rfl
  | cons segment before ih =>
    rw [List.forall_mem_cons] at h
    rw [List.cons_append, patch, if_neg h.1, ih h.2]
    rfl

theorem written_of_none (h : foundArray body path segment = none) :
    written body path segment = segment := by
  unfold written
  rw [h]
  split
  · rename_i heq
    cases heq
  · rfl

theorem written_of_some {tail : Text} {n : ℕ} (hindex : indexText segment = some (index, tail))
    (h : foundArray body path segment = some n) :
    written body path segment = (n - magnitude index).repr.toList ++ tail := by
  unfold written
  rw [hindex, h]

theorem foundArray_of_none (h : indexText segment = none) :
    foundArray body path segment = none := by
  unfold foundArray
  rw [h]
  rfl

theorem dot_not_mem_repr (n : ℕ) : '.' ∉ n.repr.toList := by
  intro h
  exact absurd (isDigit_of_mem_repr h) (by decide)

theorem dot_not_mem_written (h : '.' ∉ segment) : '.' ∉ written body path segment := by
  cases hfound : foundArray body path segment with
  | none =>
    rw [written_of_none hfound]
    exact h
  | some n =>
    cases hindex : indexText segment with
    | none =>
      rw [foundArray_of_none hindex] at hfound
      cases hfound
    | some index =>
      rw [written_of_some hindex hfound, List.mem_append, not_or]
      rw [(indexText_eq_some hindex).1, List.mem_append, not_or] at h
      exact ⟨dot_not_mem_repr _, h.2⟩

/-! ## All matches -/

/-- The indexes that are replaced stand behind no longer one that is not. -/
def LocatedIn (body : Json) (path : String) (segments : List Text) : Prop :=
  ∀ before segment after, segments = before ++ segment :: after →
    ∀ index, indexText segment = some index → foundArray body path segment ≠ none →
      ∀ earlier ∈ before, index.1 <+: earlier → foundArray body path earlier ≠ none

/-- The matches that are left change the segments that are left. -/
theorem foldl_replaceIndex {first : Text} (hfirst : '.' ∉ first) {before later : List Text}
    (hsegments : ∀ segment ∈ before ++ later, '.' ∉ segment)
    (hlocated : LocatedIn body path (before ++ later)) :
    (later.filterMap indexOf).foldl (replaceIndex body path.toList)
        (first ++ dotted (before.map (written body path) ++ later)) =
      first ++ dotted ((before ++ later).map (written body path)) := by
  induction later generalizing before with
  | nil => rw [List.append_nil, List.append_nil]; rfl
  | cons segment later ih =>
    rw [List.append_cons] at hsegments hlocated
    have hrest := ih hsegments hlocated
    rw [List.map_append, List.map_singleton, List.append_assoc, List.singleton_append] at hrest
    rw [← List.append_cons] at hsegments hlocated
    rw [← List.append_cons] at hrest
    cases hindex : indexText segment with
    | none =>
      rw [written_of_none (foundArray_of_none hindex)] at hrest
      rw [List.filterMap_cons, indexOf, hindex]
      exact hrest
    | some parts =>
      obtain ⟨index, tail⟩ := parts
      rw [List.filterMap_cons, indexOf, hindex]
      dsimp only [Option.map_some]
      rw [List.foldl_cons, replaceIndex_eq body path _ hindex]
      cases hfound : foundArray body path segment with
      | none =>
        rw [written_of_none hfound] at hrest
        exact hrest
      | some n =>
        obtain ⟨hsegment, digits, hdigits, -⟩ := indexText_eq_some hindex
        have hearlier : ∀ other ∈ before.map (written body path), ¬ index <+: other := by
          rw [List.forall_mem_map]
          intro earlier hmem hstarts
          cases hother : foundArray body path earlier with
          | none =>
            rw [written_of_none hother] at hstarts
            exact hlocated before segment later rfl _ hindex (by rw [hfound]; nofun) earlier hmem
              hstarts hother
          | some m =>
            cases hparts : indexText earlier with
            | none =>
              rw [foundArray_of_none hparts] at hother
              cases hother
            | some parts =>
              rw [written_of_some hparts hother] at hstarts
              exact not_prefix_written hdigits _ _ hstarts
        have hdots : ∀ other ∈ before.map (written body path) ++ segment :: later,
            '.' ∉ other := by
          rw [List.forall_mem_append] at hsegments ⊢
          refine ⟨List.forall_mem_map.mpr fun other hmem => ?_, hsegments.2⟩
          exact dot_not_mem_written (hsegments.1 other hmem)
        have hpatch : patch index (n - magnitude index).repr.toList (segment :: later) =
            written body path segment :: later := by
          have htail : segment.drop index.length = tail := by
            rw [hsegment, List.drop_left]
          rw [patch, if_pos ⟨tail, hsegment.symm⟩, written_of_some hindex hfound, htail]
        dsimp only
        rw [replaceFirst_skip hfirst, replaceFirst_dotted (dot_not_mem_index hindex) _ hdots,
          patch_append hearlier, hpatch]
        exact hrest

theorem segments_ne_nil (path : String) : ∃ first rest, segments path = first :: rest :=
  List.exists_cons_of_ne_nil (List.splitOn_ne_nil _ _)

theorem dot_not_mem_segments {path : String} : ∀ segment ∈ segments path, '.' ∉ segment :=
  fun segment h => not_mem_of_mem_splitOn segment h

/-- **What the code makes of a path**: every segment gets what it finds. -/
theorem processNegativeIndex_eq {first : Text} {rest : List Text}
    (hsplit : segments path = first :: rest) (hlocated : LocatedIn body path rest) :
    processNegativeIndex body path =
      String.ofList (['.'].intercalate (first :: rest.map (written body path))) := by
  have hdots := @dot_not_mem_segments path
  rw [hsplit, List.forall_mem_cons] at hdots
  have hpath : path.toList = first ++ dotted rest := by
    rw [← intercalate_dot, ← hsplit]
    exact (List.intercalate_splitOn '.').symm
  have hfold : (rest.filterMap indexOf).foldl (replaceIndex body path.toList)
      (first ++ dotted rest) = first ++ dotted (rest.map (written body path)) :=
    @foldl_replaceIndex _ _ _ hdots.1 [] rest hdots.2 hlocated
  have hmatches : findAllSubmatch path.toList = rest.filterMap indexOf := by
    rw [hpath, findAllSubmatch_skip hdots.1, findAllSubmatch_dotted hdots.2]
  unfold processNegativeIndex
  rw [hmatches, intercalate_dot, ← hfold, ← hpath]

/-! ## When a path is resolved -/

theorem ownArray_of_tail {done : List Text} {parts : Text × Text}
    (h : indexText segment = some parts) (htail : parts.2 ≠ []) :
    ownArray body done segment = none := by
  unfold ownArray
  rw [h]
  split
  · rename_i heq
    cases heq
    exact absurd rfl htail
  · rfl

/-- A number from the end stands for one length. -/
theorem repr_sub_inj {n m k : ℕ} (hn : k ≤ n) (hm : k ≤ m)
    (h : (n - k).repr.toList = (m - k).repr.toList) : n = m := by
  have heq := congrArg decimal (String.toList_inj.mp h)
  rw [decimal_repr, decimal_repr, Option.some.injEq, Int.natCast_inj] at heq
  omega

theorem le_of_reaching {length : Option ℕ} {n : ℕ} (h : reaching length index = some n) :
    magnitude index ≤ n := by
  obtain ⟨-, hreach⟩ := Option.filter_eq_some_iff.mp h
  exact (of_decide_eq_true hreach).2

theorem resolveSegment_eq_self_iff (done : List Text) :
    segment = resolveSegment body done segment ↔ ownArray body done segment = none := by
  unfold resolveSegment
  cases hown : ownArray body done segment with
  | none => exact iff_of_true rfl rfl
  | some n =>
    refine iff_of_false (fun heq => ?_) nofun
    unfold ownArray at hown
    split at hown
    · rename_i index hindex
      obtain ⟨hsegment, digits, hdigits, -⟩ := indexText_eq_some hindex
      rw [List.append_nil] at hsegment
      refine not_prefix_written hdigits (n - magnitude segment) [] ?_
      rw [List.append_nil, ← hsegment]
      exact ⟨[], by rw [List.append_nil]; exact heq⟩
    · cases hown

/-- One segment is written as it is resolved exactly if the arrays are as long. -/
theorem written_eq_iff (done : List Text) :
    written body path segment = resolveSegment body done segment ↔
      foundArray body path segment = ownArray body done segment := by
  cases hindex : indexText segment with
  | none =>
    have hfound : foundArray body path segment = none := foundArray_of_none hindex
    have hown : ownArray body done segment = none := by
      unfold ownArray
      rw [hindex]
    rw [written_of_none hfound, resolveSegment, hown, hfound]
    exact iff_of_true rfl rfl
  | some parts =>
    obtain ⟨index, tail⟩ := parts
    obtain ⟨hsegment, digits, hdigits, -⟩ := indexText_eq_some hindex
    -- What is put into the segment does not begin with a sign.
    have hne : ∀ n : ℕ, ∀ l : Text, n.repr.toList ++ l ≠ segment := by
      intro n l heq
      exact not_prefix_written hdigits n l ⟨tail, by rw [heq, hsegment]⟩
    by_cases htail : tail = []
    · subst htail
      rw [List.append_nil] at hsegment
      subst hsegment
      cases hfound : foundArray body path segment with
      | none =>
        rw [written_of_none hfound, resolveSegment]
        cases hown : ownArray body done segment with
        | none => exact iff_of_true rfl rfl
        | some n =>
          refine iff_of_false (fun heq => hne (n - magnitude segment) [] ?_) nofun
          rw [List.append_nil]
          exact heq.symm
      | some m =>
        rw [written_of_some hindex hfound, resolveSegment]
        cases hown : ownArray body done segment with
        | none => exact iff_of_false (hne _ []) nofun
        | some n =>
          have hm : magnitude segment ≤ m := by
            unfold foundArray at hfound
            rw [hindex] at hfound
            exact le_of_reaching hfound
          have hn : magnitude segment ≤ n := by
            unfold ownArray at hown
            rw [hindex] at hown
            exact le_of_reaching hown
          rw [List.append_nil, Option.some.injEq]
          constructor
          · exact repr_sub_inj hm hn
          · rintro rfl
            rfl
    · rw [resolveSegment, ownArray_of_tail hindex htail]
      cases hfound : foundArray body path segment with
      | none =>
        rw [written_of_none hfound]
        exact iff_of_true rfl rfl
      | some n =>
        rw [written_of_some hindex hfound]
        exact iff_of_false (hne _ _) nofun

theorem map_written_eq_iff (done : List Text) (rest : List Text) :
    rest.map (written body path) = resolve body done rest ↔ FindOwn body path done rest := by
  induction rest generalizing done with
  | nil => exact iff_of_true rfl trivial
  | cons segment rest ih =>
    rw [List.map_cons, resolve, List.cons.injEq, FindOwn, written_eq_iff, ih]

theorem dot_not_mem_resolve {done segments : List Text} (h : ∀ segment ∈ segments, '.' ∉ segment) :
    ∀ segment ∈ resolve body done segments, '.' ∉ segment := by
  induction segments generalizing done with
  | nil => exact fun segment hmem => absurd hmem List.not_mem_nil
  | cons segment segments ih =>
    rw [List.forall_mem_cons] at h
    rw [resolve, List.forall_mem_cons]
    refine ⟨?_, ih h.2⟩
    unfold resolveSegment
    cases ownArray body done segment with
    | none => exact h.1
    | some n => exact dot_not_mem_repr _

theorem intercalate_dot_inj {l l' : List Text} (hl : l ≠ []) (hl' : l' ≠ [])
    (h : ∀ segment ∈ l, '.' ∉ segment) (h' : ∀ segment ∈ l', '.' ∉ segment) :
    ['.'].intercalate l = ['.'].intercalate l' ↔ l = l' := by
  refine ⟨fun heq => ?_, congrArg _⟩
  have hsplit := congrArg (List.splitOn '.') heq
  rwa [List.splitOn_intercalate '.' h hl, List.splitOn_intercalate '.' h' hl'] at hsplit

/-- What is written is what is resolved exactly where the arrays agree. -/
theorem resolves_of_located (hlocated : Located body path) :
    Resolves body path ↔ Agrees body path := by
  obtain ⟨first, rest, hsplit⟩ := segments_ne_nil path
  have hdots := @dot_not_mem_segments path
  rw [hsplit] at hdots
  have hlocatedIn : LocatedIn body path rest := hlocated first rest hsplit
  have hdotsWritten : ∀ segment ∈ first :: rest.map (written body path), '.' ∉ segment := by
    rw [List.forall_mem_cons] at hdots ⊢
    refine ⟨hdots.1, List.forall_mem_map.mpr fun segment hmem => ?_⟩
    exact dot_not_mem_written (hdots.2 segment hmem)
  unfold Resolves
  rw [processNegativeIndex_eq hsplit hlocatedIn, String.ofList_inj, hsplit,
    intercalate_dot_inj (List.cons_ne_nil _ _) (by rw [resolve]; exact List.cons_ne_nil _ _)
      hdotsWritten (dot_not_mem_resolve hdots), resolve, List.cons.injEq,
    resolveSegment_eq_self_iff, List.nil_append, map_written_eq_iff]
  constructor
  · rintro ⟨hown, hrest⟩ first' rest' hsplit'
    obtain ⟨rfl, rfl⟩ := List.cons.inj (hsplit.symm.trans hsplit')
    rw [← (resolveSegment_eq_self_iff []).mpr hown] at hrest
    exact ⟨hown, hrest⟩
  · intro h
    obtain ⟨hown, hrest⟩ := h first rest hsplit
    rw [← (resolveSegment_eq_self_iff []).mpr hown]
    exact ⟨hown, hrest⟩

/-- The index of a segment has all its digits. -/
theorem prefix_index {earlier : Text} {parts : Text × Text} {digits : Text}
    (hindex : index = '-' :: digits) (hdigits : ∀ c ∈ digits, c.isDigit = true)
    (hstarts : index <+: earlier) (h : indexText earlier = some parts) : index <+: parts.1 := by
  obtain ⟨more, rfl⟩ := hstarts
  subst hindex
  rw [List.cons_append, indexText] at h
  split at h
  · cases h
  · rw [← Option.some.inj h, List.takeWhile_append_of_pos hdigits]
    exact List.cons_prefix_cons.mpr ⟨rfl, List.prefix_append _ _⟩

theorem located_of_apart (h : Apart path) : Located body path := by
  intro first rest hsplit before segment after hrest index hindex hfound earlier hearlier hstarts
  obtain ⟨-, digits, hdigits, hall⟩ := indexText_eq_some hindex
  obtain ⟨parts, hparts⟩ := Option.ne_none_iff_exists'.mp (indexText_of_starts hindex hstarts)
  have hmem : ∀ other ∈ before ++ segment :: after, other ∈ segments path := by
    intro other hother
    rw [hsplit, hrest]
    exact List.mem_cons_of_mem _ hother
  have hsame := h segment (hmem _ (List.mem_append_right _ List.mem_cons_self)) earlier
    (hmem _ (List.mem_append_left _ hearlier)) index parts hindex hparts
    (prefix_index hdigits hall hstarts hparts)
  unfold foundArray at hfound ⊢
  rw [hindex] at hfound
  rw [hparts, Option.bind_some, ← hsame]
  exact hfound

/-- **A path is resolved** if each of its indexes finds an array as long as its own and none
that is replaced stands behind a longer one; and, where no index goes on where another one
ends, only then. -/
theorem processNegativeIndex_iff (body : Json) (path : String) :
    (Agrees body path ∧ Located body path → Resolves body path) ∧
      (Apart path → (Resolves body path ↔ Agrees body path)) :=
  ⟨fun ⟨hagrees, hlocated⟩ => (resolves_of_located hlocated).mpr hagrees,
    fun hapart => resolves_of_located (located_of_apart hapart)⟩

/-- Two messages, the last with three parts. -/
def messagesBody : Json :=
  .object [("messages", .array [.null, .object [("content", .array [.null, .null, .null])]])]

theorem segments_last : segments "messages.-1" = ["messages".toList, "-1".toList] := by decide

theorem processNegativeIndex_iff_last : Resolves messagesBody "messages.-1" := by
  refine (processNegativeIndex_iff messagesBody "messages.-1").1 ⟨?_, ?_⟩
  · intro first rest hsplit
    obtain ⟨rfl, rfl⟩ := List.cons.inj (segments_last.symm.trans hsplit)
    exact ⟨by decide, by decide +kernel, trivial⟩
  · intro first rest hsplit before segment after hrest _ _ _ earlier hearlier
    obtain ⟨rfl, rfl⟩ := List.cons.inj (segments_last.symm.trans hsplit)
    have hlength := congrArg List.length hrest
    simp only [List.length_append, List.length_cons, List.length_nil] at hlength
    have hnone : before = [] := List.eq_nil_of_length_eq_zero (by omega)
    rw [hnone] at hearlier
    exact absurd hearlier List.not_mem_nil

/-- The array of the second index is looked for at the text before the first. -/
theorem repeated_index :
    processNegativeIndex messagesBody "messages.-1.content.-1" = "messages.1.content.1" ∧
      ¬ Resolves messagesBody "messages.-1.content.-1" := by
  refine ⟨by decide +kernel, ?_⟩
  unfold Resolves
  decide +kernel

end Override.NegativeIndex
