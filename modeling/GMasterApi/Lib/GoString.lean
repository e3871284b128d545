import Mathlib.Algebra.Ring.Int.Defs
import Mathlib.Algebra.Ring.Nat
import Mathlib.Data.List.DropRight
import Mathlib.Data.List.Infix

/-!
# Go's `strings` functions on Lean strings, and `bytes.TrimSpace`
-/

namespace GoString

/-- `unicode.IsSpace`. -/
def isSpace (c : Char) : Bool :=
  c ∈ ['\t', '\n', '\x0b', '\x0c', '\r', ' ', '\u0085', '\u00a0', '\u1680', '\u2028', '\u2029',
    '\u202f', '\u205f', '\u3000'] || ('\u2000' ≤ c && c ≤ '\u200a')

def trim (l : List Char) : List Char := (l.dropWhile isSpace).rdropWhile isSpace

/-- `strings.TrimSpace`. -/
def trimSpace (s : String) : String := String.ofList (trim s.toList)

/-- The UTF-8 encodings of the spaces. -/
def spaces : List (List UInt8) :=
  [[0x09], [0x0a], [0x0b], [0x0c], [0x0d], [0x20], [0xc2, 0x85], [0xc2, 0xa0], [0xe1, 0x9a, 0x80],
    [0xe2, 0x80, 0xa8], [0xe2, 0x80, 0xa9], [0xe2, 0x80, 0xaf], [0xe2, 0x81, 0x9f],
    [0xe3, 0x80, 0x80]] ++ (List.range 11).map fun n => [0xe2, 0x80, 0x80 + n.toUInt8]

/-- The bytes without the encodings that they start with, at most `fuel` of them. -/
def dropSpaces (spaces : List (List UInt8)) : ℕ → List UInt8 → List UInt8
  | 0, l => l
  | fuel + 1, l =>
    match spaces.find? fun space => space.isPrefixOf l with
    | some space => dropSpaces spaces fuel (l.drop space.length)
    | none => l

/-- `bytes.TrimSpace`. -/
def bytesTrimSpace (l : List UInt8) : List UInt8 :=
  let l := dropSpaces spaces l.length l
  (dropSpaces (spaces.map List.reverse) l.length l.reverse).reverse

/-- `strings.Contains`. -/
def contains (s sub : String) : Bool := decide (sub.toList <:+: s.toList)

/-- `strings.HasPrefix`. -/
def hasPrefix (s pre : String) : Bool := pre.toList.isPrefixOf s.toList

/-- `strings.HasSuffix`. -/
def hasSuffix (s suffix : String) : Bool := suffix.toList.isSuffixOf s.toList

/-- `strings.TrimSuffix`. -/
def trimSuffix (s suffix : String) : String :=
  if hasSuffix s suffix then String.ofList (s.toList.take (s.length - suffix.length)) else s

/-- `strings.TrimPrefix`. -/
def trimPrefix (s pre : String) : String :=
  if hasPrefix s pre then String.ofList (s.toList.drop pre.length) else s

def removeFirst (sub : List Char) : List Char → List Char
  | [] => []
  | c :: cs =>
    if sub.isPrefixOf (c :: cs) then (c :: cs).drop sub.length else c :: removeFirst sub cs

/-- `strings.Replace(s, sub, "", 1)`. -/
def remove (s sub : String) : String := String.ofList (removeFirst sub.toList s.toList)

/-- `strings.Split` at a separator of one character. -/
def split (s : String) (sep : Char) : List String := (s.toList.splitOn sep).map String.ofList

/-- The pieces between the places where `sep` stands, of which `skip` letters are still to be
passed over and `piece` is what has been read. -/
def pieces (sep : List Char) : ℕ → List Char → List Char → List (List Char)
  | _, piece, [] => [piece.reverse]
  | skip + 1, piece, _ :: l => pieces sep skip piece l
  | 0, piece, c :: l =>
    if sep.isPrefixOf (c :: l) then piece.reverse :: pieces sep (sep.length - 1) [] l
    else pieces sep 0 (c :: piece) l

/-- `strings.Split` by a text that is not empty. -/
def splitBy (s sep : String) : List String :=
  (pieces sep.toList 0 [] s.toList).map String.ofList

/-- `strings.Replace(s, sub, "", -1)`. -/
def removeAll (s sub : String) : String :=
  String.ofList (pieces sub.toList 0 [] s.toList).flatten

/-- `strings.ReplaceAll` of a text that is not empty. -/
def replaceAll (s sub new : String) : String :=
  String.ofList (new.toList.intercalate (pieces sub.toList 0 [] s.toList))

/-- `strings.NewReplacer(old, new).Replace` for one character. -/
def replaceChar (s : String) (old new : Char) : String :=
  String.ofList (s.toList.map fun c => if c = old then new else c)

/-- `strings.Cut` at a separator of one character; `none` where it is not found. -/
def cut (s : String) (sep : Char) : Option (String × String) :=
  let found := s.toList.dropWhile (· ≠ sep)
  if found = [] then none
  else some (String.ofList (s.toList.takeWhile (· ≠ sep)), String.ofList found.tail)

/-- `strings.Join` with a separator of one character. -/
def join (l : List String) (sep : Char) : String :=
  String.ofList ([sep].intercalate (l.map String.toList))

/-- `strings.Trim` with a cutset of one character. -/
def trimChar (s : String) (cut : Char) : String :=
  String.ofList ((s.toList.dropWhile (· = cut)).rdropWhile (· = cut))

/-- The value of decimal digits; `none` where there is another character. -/
def digits : ℕ → List Char → Option ℕ
  | n, [] => some n
  | n, c :: cs => if c.isDigit then digits (10 * n + (c.toNat - '0'.toNat)) cs else none

/-- A sign and decimal digits. -/
def decimal (s : String) : Option ℤ :=
  match s.toList with
  | [] => none
  | '-' :: c :: cs => (digits 0 (c :: cs)).map fun n => -n
  | '+' :: c :: cs => (digits 0 (c :: cs)).map fun n => n
  | cs => (digits 0 cs).map fun n => n

/-- `strconv.Atoi`; `none` where it returns an error. -/
def atoi (s : String) : Option ℤ := (decimal s).filter fun n => -2 ^ 63 ≤ n ∧ n < 2 ^ 63

/-- What `strconv.Atoi` returns beside its error: 0, or the nearest `int`. -/
def atoiValue (s : String) : ℤ :=
  match decimal s with
  | none => 0
  | some n => max (-2 ^ 63) (min n (2 ^ 63 - 1))

theorem trim_trim (l : List Char) : trim (trim l) = trim l := by
  have hhead : (trim l).dropWhile isSpace = trim l := by
    rw [List.dropWhile_eq_self_iff]
    intro hl
    have hpre : trim l <+: l.dropWhile isSpace := List.rdropWhile_prefix isSpace _
    rw [hpre.getElem hl]
    exact List.dropWhile_get_zero_not _ _ (hl.trans_le hpre.length_le)
  unfold trim at hhead ⊢
  rw [hhead, List.rdropWhile_idempotent]

@[simp] theorem trimSpace_trimSpace (s : String) : trimSpace (trimSpace s) = trimSpace s := by
  simp [trimSpace, trim_trim]

/-! ## Prefixes and printed numbers -/

theorem isSpace_of_isDigit {c : Char} (h : c.isDigit = true) : isSpace c = false := by
  rw [Bool.eq_false_iff]
  intro hspace
  unfold isSpace at hspace
  rcases Bool.or_eq_true_iff.mp hspace with hmem | hrange
  · have hnone : (['\t', '\n', '\x0b', '\x0c', '\r', ' ', '\u0085', '\u00a0', '\u1680',
        '\u2028', '\u2029', '\u202f', '\u205f', '\u3000'].any Char.isDigit) = false := by decide
    rw [List.any_eq_false] at hnone
    exact hnone c (of_decide_eq_true hmem) h
  · have hlow : '\u2000' ≤ c := of_decide_eq_true (Bool.and_eq_true_iff.mp hrange).1
    have hhigh : c ≤ '9' := of_decide_eq_true (Bool.and_eq_true_iff.mp h).2
    exact absurd (Char.le_trans hlow hhigh) (by decide)

theorem digits_eq_ofDigitChars {l : List Char} (h : ∀ c ∈ l, c.isDigit = true) (n : ℕ) :
    digits n l = some (Nat.ofDigitChars 10 l n) := by
  induction l generalizing n with
  | nil => rfl
  | cons c l ih =>
    rw [digits, if_pos (h c List.mem_cons_self), ih fun d hd => h d (List.mem_cons_of_mem c hd)]
    rfl

theorem isDigit_of_mem_repr {n : ℕ} {c : Char} (h : c ∈ n.repr.toList) : c.isDigit = true := by
  rw [Nat.toList_repr] at h
  exact Nat.isDigit_of_mem_toDigits (by omega) (by omega) h

theorem decimal_repr (n : ℕ) : decimal n.repr = some (n : ℤ) := by
  have hdigits : digits 0 n.repr.toList = some n := by
    rw [digits_eq_ofDigitChars fun c hc => isDigit_of_mem_repr hc, Nat.toList_repr,
      Nat.ofDigitChars_toDigits (by omega) (by omega)]
  unfold decimal
  split
  · rename_i hnil
    rw [Nat.toList_repr] at hnil
    exact absurd hnil Nat.toDigits_ne_nil
  · rename_i c cs hcons
    have hminus : '-'.isDigit = true := isDigit_of_mem_repr (n := n) (by rw [hcons]; simp)
    exact absurd hminus (by decide)
  · rename_i c cs hcons
    have hplus : '+'.isDigit = true := isDigit_of_mem_repr (n := n) (by rw [hcons]; simp)
    exact absurd hplus (by decide)
  · rw [hdigits]
    rfl

/-- A printed number is read back. -/
theorem atoi_repr {n : ℕ} (h : n < 2 ^ 63) : atoi n.repr = some (n : ℤ) := by
  unfold atoi
  rw [decimal_repr, Option.filter_some, if_pos]
  exact decide_eq_true ⟨by omega, by omega⟩

theorem trimSpace_of_ends {s : String} (hhead : ∀ c ∈ s.toList.head?, isSpace c = false)
    (hlast : ∀ c ∈ s.toList.getLast?, isSpace c = false) : trimSpace s = s := by
  have hdrop : s.toList.dropWhile isSpace = s.toList := by
    rw [List.dropWhile_eq_self_iff]
    intro hlen hspace
    have hh := hhead _ (by rw [List.head?_eq_getElem?, List.getElem?_eq_getElem hlen]; rfl)
    rw [hspace] at hh
    cases hh
  have hrdrop : s.toList.rdropWhile isSpace = s.toList := by
    rw [List.rdropWhile_eq_self_iff]
    intro hne hspace
    have hh := hlast _ (by rw [List.getLast?_eq_some_getLast hne]; rfl)
    rw [hspace] at hh
    cases hh
  unfold trimSpace trim
  rw [hdrop, hrdrop, String.ofList_toList]

/-! ## Joining and splitting -/

theorem trimChar_of_ends {s : String} {cut : Char} (hhead : s.toList.head? ≠ some cut)
    (hlast : s.toList.getLast? ≠ some cut) : trimChar s cut = s := by
  have hdrop : s.toList.dropWhile (· = cut) = s.toList := by
    rw [List.dropWhile_eq_self_iff]
    intro hlen hcut
    exact hhead (by rw [List.head?_eq_getElem?, List.getElem?_eq_getElem hlen, of_decide_eq_true hcut])
  have hrdrop : s.toList.rdropWhile (· = cut) = s.toList := by
    rw [List.rdropWhile_eq_self_iff]
    intro hne hcut
    exact hlast (by rw [List.getLast?_eq_some_getLast hne, of_decide_eq_true hcut])
  unfold trimChar
  rw [hdrop, hrdrop, String.ofList_toList]

/-- A list is joined and split again, if no element has the separator in it. -/
theorem split_join {l : List String} {sep : Char} (h : ∀ s ∈ l, sep ∉ s.toList) (hne : l ≠ []) :
    split (join l sep) sep = l := by
  unfold split join
  rw [String.toList_ofList, List.splitOn_intercalate]
  · rw [List.map_map]
    simp [Function.comp_def]
  · intro cs hcs
    obtain ⟨s, hs, rfl⟩ := List.mem_map.mp hcs
    exact h s hs
  · simpa using hne

theorem join_cons_cons (s t : String) (l : List String) (sep : Char) :
    (join (s :: t :: l) sep).toList = s.toList ++ sep :: (join (t :: l) sep).toList := by
  unfold join
  rw [String.toList_ofList, String.toList_ofList, List.map_cons, List.map_cons,
    List.intercalate_cons_cons]
  simp

@[simp] theorem join_singleton (s : String) (sep : Char) : join [s] sep = s := by
  unfold join
  rw [List.map_cons, List.map_nil, List.intercalate_singleton, String.ofList_toList]

theorem head?_join {s : String} {l : List String} {sep : Char} (hs : s ≠ "") :
    (join (s :: l) sep).toList.head? = s.toList.head? := by
  cases l with
  | nil => rw [join_singleton]
  | cons t l =>
    rw [join_cons_cons, List.head?_append_of_ne_nil]
    simpa using hs

theorem getLast?_join {s : String} {l : List String} {sep : Char} (hs : s ≠ "") :
    (join (l ++ [s]) sep).toList.getLast? = s.toList.getLast? := by
  have hs' : s.toList ≠ [] := by simpa using hs
  induction l with
  | nil => rw [List.nil_append, join_singleton]
  | cons t l ih =>
    cases l with
    | nil =>
      rw [List.cons_append, List.nil_append, join_cons_cons, join_singleton, List.getLast?_append,
        List.getLast?_cons]
      cases hlast : s.toList.getLast? with
      | none => exact absurd (List.getLast?_eq_none_iff.mp hlast) hs'
      | some c => rfl
    | cons u l =>
      rw [List.cons_append, List.cons_append, join_cons_cons, List.getLast?_append,
        List.getLast?_cons, ← List.cons_append, ih]
      cases hlast : s.toList.getLast? with
      | none => exact absurd (List.getLast?_eq_none_iff.mp hlast) hs'
      | some c => rfl

theorem join_split (s : String) (sep : Char) : join (split s sep) sep = s := by
  unfold join split
  rw [List.map_map]
  simp [Function.comp_def]

theorem not_mem_of_mem_splitOn {sep : Char} {l : List Char} :
    ∀ part ∈ l.splitOn sep, sep ∉ part := by
  induction l with
  | nil => simp
  | cons c l ih =>
    intro part hpart
    rw [List.splitOn_cons_eq_if_modifyHead] at hpart
    split at hpart
    · rcases List.mem_cons.mp hpart with rfl | hpart
      · simp
      · exact ih part hpart
    · rename_i hc
      cases hsplit : l.splitOn sep with
      | nil => exact absurd hsplit (List.splitOn_ne_nil _ _)
      | cons first parts =>
        rw [hsplit] at hpart ih
        rw [List.modifyHead_cons] at hpart
        rcases List.mem_cons.mp hpart with rfl | hpart
        · have hfirst := ih first List.mem_cons_self
          have hne : sep ≠ c := fun h => hc (by simp [h])
          simp [hne, hfirst]
        · exact ih part (List.mem_cons_of_mem _ hpart)

theorem not_mem_of_mem_split {s part : String} {sep : Char} (h : part ∈ split s sep) :
    sep ∉ part.toList := by
  obtain ⟨cs, hcs, rfl⟩ := List.mem_map.mp h
  rw [String.toList_ofList]
  exact not_mem_of_mem_splitOn cs hcs

theorem ends_trimChar (s : String) (cut : Char) : (trimChar s cut).toList.head? ≠ some cut ∧
    (trimChar s cut).toList.getLast? ≠ some cut := by
  unfold trimChar
  rw [String.toList_ofList]
  constructor
  · intro hhead
    have hprefix := List.rdropWhile_prefix (· = cut) (s.toList.dropWhile (· = cut))
    have hcut : (s.toList.dropWhile (· = cut)).head? = some cut := by
      obtain ⟨rest, hrest⟩ := hprefix
      rw [← hrest, List.head?_append, hhead]
      rfl
    have hnot := List.head?_dropWhile_not (· = cut) s.toList
    rw [hcut] at hnot
    simp at hnot
  · intro hlast
    have hne : (s.toList.dropWhile (· = cut)).rdropWhile (· = cut) ≠ [] := by
      intro hnil
      rw [hnil] at hlast
      cases hlast
    rw [List.getLast?_eq_some_getLast hne] at hlast
    exact List.rdropWhile_last_not _ _ hne (by simpa using hlast)

/-- What is trimmed is the character alone. -/
theorem toList_trimChar (s : String) (cut : Char) :
    ∃ a b, s.toList = List.replicate a cut ++ (trimChar s cut).toList ++ List.replicate b cut := by
  unfold trimChar
  rw [String.toList_ofList]
  have hstart : s.toList.takeWhile (· = cut) =
      List.replicate (s.toList.takeWhile (· = cut)).length cut :=
    List.eq_replicate_iff.2 ⟨rfl, fun c hc => by simpa using List.mem_takeWhile_imp hc⟩
  have hend : (s.toList.dropWhile (· = cut)).rtakeWhile (· = cut) =
      List.replicate ((s.toList.dropWhile (· = cut)).rtakeWhile (· = cut)).length cut :=
    List.eq_replicate_iff.2 ⟨rfl, fun c hc => by simpa using List.mem_rtakeWhile_imp hc⟩
  refine ⟨(s.toList.takeWhile (· = cut)).length,
    ((s.toList.dropWhile (· = cut)).rtakeWhile (· = cut)).length, ?_⟩
  rw [← hstart, ← hend, List.append_assoc, List.rdropWhile_append_rtakeWhile,
    List.takeWhile_append_dropWhile]

theorem count_trimChar_le (s : String) (cut : Char) :
    (trimChar s cut).toList.count cut ≤ s.toList.count cut := by
  obtain ⟨a, b, hs⟩ := toList_trimChar s cut
  have hcount := congrArg (List.count cut) hs
  rw [List.count_append, List.count_append] at hcount
  omega

/-- A string that has the character at an end loses one. -/
theorem count_trimChar_lt {s : String} {cut : Char}
    (h : s.toList.head? = some cut ∨ s.toList.getLast? = some cut) :
    (trimChar s cut).toList.count cut < s.toList.count cut := by
  obtain ⟨a, b, hs⟩ := toList_trimChar s cut
  have hcount := congrArg (List.count cut) hs
  rw [List.count_append, List.count_append, List.count_replicate_self,
    List.count_replicate_self] at hcount
  by_contra hle
  obtain rfl : a = 0 := by omega
  obtain rfl : b = 0 := by omega
  rw [List.replicate_zero, List.nil_append, List.append_nil] at hs
  obtain ⟨hhead, hlast⟩ := ends_trimChar s cut
  rw [← hs] at hhead hlast
  exact h.elim hhead hlast

theorem length_split (s : String) (sep : Char) : (split s sep).length = s.toList.count sep + 1 := by
  rw [split, List.length_map]
  induction s.toList with
  | nil => rfl
  | cons c l ih =>
    rw [List.splitOn_cons_eq_if_modifyHead]
    by_cases hc : c = sep
    · simp [hc, ih]
    · simp [hc, ih]

theorem count_join {l : List String} {sep : Char} (hl : l ≠ []) :
    (join l sep).toList.count sep + 1 = (l.map fun s => s.toList.count sep).sum + l.length := by
  induction l with
  | nil => exact absurd rfl hl
  | cons s l ih =>
    cases l with
    | nil => simp
    | cons t l =>
      have hrest := ih (List.cons_ne_nil _ _)
      rw [join_cons_cons, List.count_append, List.count_cons_self]
      simp only [List.map_cons, List.sum_cons, List.length_cons] at hrest ⊢
      omega

/-- What is split in as many parts as it has been joined of is split in these. -/
theorem split_join_of_length {l : List String} {sep : Char} (hl : l ≠ [])
    (h : (split (join l sep) sep).length = l.length) :
    (∀ s ∈ l, sep ∉ s.toList) ∧ split (join l sep) sep = l := by
  rw [length_split, count_join hl] at h
  have hzero : (l.map fun s => s.toList.count sep).sum = 0 := by omega
  have hparts : ∀ s ∈ l, sep ∉ s.toList := by
    intro s hs
    have hcount := List.sum_eq_zero_iff_forall_eq_nat.mp hzero _ (List.mem_map_of_mem hs)
    exact List.count_eq_zero.mp hcount
  exact ⟨hparts, split_join hparts hl⟩

/-! ## Characters of numbers, and separators of two kinds -/

theorem mem_of_mem_trimSpace {s : String} {c : Char} (h : c ∈ (trimSpace s).toList) :
    c ∈ s.toList := by
  unfold trimSpace trim at h
  rw [String.toList_ofList] at h
  exact (List.dropWhile_suffix _).subset ((List.rdropWhile_prefix _ _).subset h)

theorem mem_of_digits {l : List Char} {n m : ℕ} (h : digits n l = some m) :
    ∀ c ∈ l, c.isDigit = true := by
  induction l generalizing n with
  | nil => exact nofun
  | cons c l ih =>
    rw [digits] at h
    split at h
    · rename_i hc
      exact List.forall_mem_cons.mpr ⟨hc, ih h⟩
    · cases h

theorem decimal_of_digits {s : String} {n : ℕ} (hne : s ≠ "") (h : digits 0 s.toList = some n) :
    decimal s = some (n : ℤ) := by
  have hdigits := mem_of_digits h
  unfold decimal
  split
  · rename_i heq
    exact absurd (String.toList_eq_nil_iff.mp heq) hne
  · rename_i heq
    rw [heq, List.forall_mem_cons] at hdigits
    exact absurd hdigits.1 (by decide)
  · rename_i heq
    rw [heq, List.forall_mem_cons] at hdigits
    exact absurd hdigits.1 (by decide)
  · rw [h]
    rfl

/-- A number is a digit or a sign and then digits. -/
theorem chars_of_atoi {s : String} {n : ℤ} (h : atoi s = some n) :
    ∃ c cs, s.toList = c :: cs ∧ (c.isDigit = true ∨ c = '-' ∨ c = '+') ∧
      ∀ d ∈ cs, d.isDigit = true := by
  have hdecimal : decimal s = some n := (Option.filter_eq_some_iff.mp h).1
  unfold decimal at hdecimal
  split at hdecimal
  · cases hdecimal
  · rename_i c cs heq
    cases hdigits : digits 0 (c :: cs) with
    | none =>
      rw [hdigits] at hdecimal
      cases hdecimal
    | some m => exact ⟨'-', c :: cs, heq, .inr (.inl rfl), mem_of_digits hdigits⟩
  · rename_i c cs heq
    cases hdigits : digits 0 (c :: cs) with
    | none =>
      rw [hdigits] at hdecimal
      cases hdecimal
    | some m => exact ⟨'+', c :: cs, heq, .inr (.inr rfl), mem_of_digits hdigits⟩
  · rename_i hnil _ _
    cases hdigits : digits 0 s.toList with
    | none =>
      rw [hdigits] at hdecimal
      cases hdecimal
    | some m =>
      have hall := mem_of_digits hdigits
      cases hs : s.toList with
      | nil => exact absurd hs hnil
      | cons c cs =>
        rw [hs, List.forall_mem_cons] at hall
        exact ⟨c, cs, rfl, .inl hall.1, hall.2⟩

theorem not_isSpace_of_atoi {s : String} {n : ℤ} (h : atoi s = some n) :
    ∀ c ∈ s.toList, isSpace c = false := by
  obtain ⟨c, cs, hs, hc, hcs⟩ := chars_of_atoi h
  rw [hs, List.forall_mem_cons]
  refine ⟨?_, fun d hd => isSpace_of_isDigit (hcs d hd)⟩
  rcases hc with hc | rfl | rfl
  · exact isSpace_of_isDigit hc
  · decide
  · decide

/-- The letters that are not spaces are between the ends. -/
theorem filter_trim (l : List Char) : (trim l).filter (fun c => !isSpace c) =
    l.filter fun c => !isSpace c := by
  have hstart : ∀ l : List Char, (l.takeWhile isSpace).filter (fun c => !isSpace c) = [] := by
    intro l
    rw [List.filter_eq_nil_iff]
    intro c hc
    simp [List.mem_takeWhile_imp hc]
  have hend : ∀ l : List Char, (l.rtakeWhile isSpace).filter (fun c => !isSpace c) = [] := by
    intro l
    rw [List.filter_eq_nil_iff]
    intro c hc
    simp [List.mem_rtakeWhile_imp hc]
  have hsplit : l = l.takeWhile isSpace ++ (trim l ++ (l.dropWhile isSpace).rtakeWhile isSpace) := by
    unfold trim
    rw [List.rdropWhile_append_rtakeWhile, List.takeWhile_append_dropWhile]
  conv_rhs => rw [hsplit]
  rw [List.filter_append, List.filter_append, hstart, hend, List.nil_append, List.append_nil]

theorem isSpace_of_blank {s : String} (h : trimSpace s = "") : ∀ c ∈ s.toList, isSpace c = true := by
  have htrim : trim s.toList = [] := String.ofList_eq_empty_iff.mp h
  have hfilter := filter_trim s.toList
  rw [htrim, List.filter_nil] at hfilter
  intro c hc
  have hspace := List.filter_eq_nil_iff.mp hfilter.symm c hc
  simpa using hspace

theorem flatten_pieces_singleton (sep : Char) (piece l : List Char) :
    (pieces [sep] 0 piece l).flatten = piece.reverse ++ l.filter (· ≠ sep) := by
  induction l generalizing piece with
  | nil => simp [pieces]
  | cons c l ih =>
    rw [pieces]
    by_cases hc : sep = c
    · have hprefix : [sep].isPrefixOf (c :: l) = true := by simp [hc]
      rw [if_pos hprefix, List.flatten_cons, List.length_singleton, Nat.sub_self, ih,
        List.filter_cons_of_neg (by simp [hc])]
      rfl
    · have hprefix : ¬ [sep].isPrefixOf (c :: l) = true := by simp [hc]
      have hne : c ≠ sep := fun h => hc h.symm
      rw [if_neg hprefix, ih, List.filter_cons_of_pos (by simp [hne])]
      simp

theorem toList_removeAll_singleton (s : String) (sep : Char) :
    (removeAll s (String.singleton sep)).toList = s.toList.filter (· ≠ sep) := by
  unfold removeAll
  rw [String.toList_ofList, String.toList_singleton, flatten_pieces_singleton]
  rfl

theorem contains_singleton {s : String} {c : Char} :
    contains s (String.singleton c) = true ↔ c ∈ s.toList := by
  unfold contains
  rw [decide_eq_true_iff, String.toList_singleton, List.singleton_infix_iff]

/-- Letters between the separators may be left out before the text is split. -/
theorem splitOnP_filter {p q : Char → Bool} (h : ∀ c, p c = true → q c = true) (l : List Char) :
    (l.filter q).splitOnP p = (l.splitOnP p).map (List.filter q) := by
  induction l with
  | nil => rfl
  | cons c l ih =>
    rw [List.splitOnP_cons_eq_if_modifyHead]
    by_cases hq : q c = true
    · rw [List.filter_cons_of_pos hq, List.splitOnP_cons_eq_if_modifyHead, ih]
      split
      · rfl
      · cases l.splitOnP p with
        | nil => rfl
        | cons first rest => simp [hq]
    · have hp : ¬ p c = true := fun hp => hq (h c hp)
      rw [List.filter_cons_of_neg hq, ih, if_neg hp]
      cases l.splitOnP p with
      | nil => rfl
      | cons first rest => simp [hq]

theorem trimSpace_of_no_space {s : String} (h : ∀ c ∈ s.toList, isSpace c = false) :
    trimSpace s = s :=
  trimSpace_of_ends (fun c hc => h c (List.mem_of_mem_head? hc))
    fun c hc => h c (List.mem_of_getLast? hc)

theorem mem_join {l : List String} {sep c : Char} (h : c ∈ (join l sep).toList) :
    c = sep ∨ ∃ s ∈ l, c ∈ s.toList := by
  induction l with
  | nil => cases h
  | cons s l ih =>
    cases l with
    | nil =>
      rw [join_singleton] at h
      exact .inr ⟨s, List.mem_cons_self, h⟩
    | cons t l =>
      rw [join_cons_cons, List.mem_append, List.mem_cons] at h
      rcases h with h | rfl | h
      · exact .inr ⟨s, List.mem_cons_self, h⟩
      · exact .inl rfl
      · exact (ih h).imp_right fun ⟨u, hu, hc⟩ => ⟨u, List.mem_cons_of_mem s hu, hc⟩

theorem mem_join_of_mem {l : List String} {s : String} {sep c : Char} (hs : s ∈ l)
    (hc : c ∈ s.toList) : c ∈ (join l sep).toList := by
  induction l with
  | nil => cases hs
  | cons t l ih =>
    cases l with
    | nil =>
      rw [List.mem_singleton] at hs
      rwa [join_singleton, ← hs]
    | cons u l =>
      rw [join_cons_cons, List.mem_append, List.mem_cons]
      rcases List.mem_cons.mp hs with rfl | hs
      · exact .inl hc
      · exact .inr (.inr (ih hs))

/-- One separator is written for another before a text is split. -/
theorem split_replaceChar (s : String) (old sep : Char) : split (replaceChar s old sep) sep =
    (s.toList.splitOnP fun c => c = sep || c = old).map String.ofList := by
  unfold split replaceChar
  rw [String.toList_ofList]
  congr 1
  induction s.toList with
  | nil => rfl
  | cons c l ih =>
    rw [List.map_cons, List.splitOn_cons_eq_if_modifyHead, List.splitOnP_cons_eq_if_modifyHead, ih]
    by_cases hsep : c = sep
    · simp [hsep]
    · by_cases hold : c = old
      · simp [hold]
      · simp [hsep, hold]

/-! ## Bytes that are trimmed -/

section Bytes

variable {seps : List (List UInt8)} {b : UInt8}

theorem dropSpaces_cons (h : ∀ space ∈ seps, space ≠ [] ∧ b ∉ space) (fuel : ℕ)
    (l : List UInt8) : dropSpaces seps fuel (b :: l) = b :: l := by
  cases fuel with
  | zero => rfl
  | succ fuel =>
    have hnone : seps.find? (fun space => space.isPrefixOf (b :: l)) = none := by
      rw [List.find?_eq_none]
      intro space hspace
      obtain ⟨hne, hb⟩ := h space hspace
      cases space with
      | nil => exact absurd rfl hne
      | cons c space =>
        rw [List.isPrefixOf_iff_prefix, List.cons_prefix_cons]
        rintro ⟨rfl, -⟩
        exact hb List.mem_cons_self
    rw [dropSpaces, hnone]

theorem dropSpaces_concat (h : ∀ space ∈ seps, space ≠ [] ∧ b ∉ space) :
    ∀ (fuel : ℕ) (l : List UInt8), ∃ l', dropSpaces seps fuel (l ++ [b]) = l' ++ [b]
  | 0, l => ⟨l, rfl⟩
  | fuel + 1, l => by
    rw [dropSpaces]
    cases hfind : seps.find? (fun space => space.isPrefixOf (l ++ [b])) with
    | none => exact ⟨l, rfl⟩
    | some space =>
      have hb := (h space (List.mem_of_find?_eq_some hfind)).2
      have hfound := List.find?_some hfind
      have hstarts : space <+: l ++ [b] := List.isPrefixOf_iff_prefix.mp hfound
      rcases List.prefix_concat_iff.mp hstarts with rfl | hl
      · exact absurd (List.mem_append_right l List.mem_cons_self) hb
      · obtain ⟨l', hl'⟩ := dropSpaces_concat h fuel (l.drop space.length)
        refine ⟨l', ?_⟩
        show dropSpaces seps fuel ((l ++ [b]).drop space.length) = l' ++ [b]
        rw [List.drop_append_of_le_length hl.length_le, hl']

/-- A byte that is in no space stays in front. -/
theorem bytesTrimSpace_cons (h : ∀ space ∈ spaces, space ≠ [] ∧ b ∉ space) (l : List UInt8) :
    ∃ l', bytesTrimSpace (b :: l) = b :: l' := by
  have hreverse : ∀ space ∈ spaces.map List.reverse, space ≠ [] ∧ b ∉ space := by
    intro space hspace
    obtain ⟨space, hmem, rfl⟩ := List.mem_map.mp hspace
    obtain ⟨hne, hb⟩ := h space hmem
    exact ⟨fun hnil => hne (List.reverse_eq_nil_iff.mp hnil), fun hmem =>
      hb (List.mem_reverse.mp hmem)⟩
  obtain ⟨l', hl'⟩ := dropSpaces_concat hreverse (b :: l).length l.reverse
  refine ⟨l'.reverse, ?_⟩
  simp only [bytesTrimSpace, dropSpaces_cons h]
  rw [List.reverse_cons, hl', List.reverse_append]
  rfl

end Bytes

end GoString
