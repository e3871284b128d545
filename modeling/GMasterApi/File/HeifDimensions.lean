import GMasterApi.Lib.BigEndian
import Mathlib.Data.List.Induction
import Mathlib.Tactic.Linarith

/-!
# The dimensions of an HEIF image

An image is a sequence of boxes, each of which begins with its size and its kind.  The parser
walks the boxes in front of the first `meta` box and searches that one for an `ispe` box.  Sizes
and offsets are added as integers of 64 bits; an index outside the data stops the program.

What the parser finds is what `Walks` and `Search` describe, unless a box claims a size that
its offset can not be added to (`dimensions_exact_iff`).
-/

namespace HeifDimensions

open BigEndian

abbrev Bytes := List Byte

inductive Stop
  | panic
  | fuel
  deriving DecidableEq

abbrev Dimensions := Option (ℤ × ℤ)

/-- A sum of two `int`s. -/
def add (a b : ℤ) : ℤ := (a + b).bmod (2 ^ 64)

/-- `data[low:high]` -/
def slice (data : Bytes) (low high : ℤ) : Except Stop Bytes :=
  if 0 ≤ low ∧ low ≤ high ∧ high ≤ data.length then
    .ok ((data.drop low.toNat).take (high - low).toNat)
  else .error .panic

/-- `Uint32` and `Uint64` of as many bytes. -/
def bigEndian (bytes : Bytes) : ℕ := bytes.foldl (fun n b => n * 256 + b.toNat) 0

/-- `int` of a word of 64 bits. -/
def int64 (n : ℕ) : ℤ := (n : ℤ).bmod (2 ^ 64)

def fourCC (name : String) : Bytes := name.toList.map fun c => BitVec.ofNat 8 c.toNat

/-! ## The parser -/

/-- The `ispe` case of `findISPE`. -/
def ispeSize (content : Bytes) : Except Stop Dimensions :=
  if 12 ≤ content.length then do
    let w : ℤ := bigEndian (← slice content 4 8)
    let h : ℤ := bigEndian (← slice content 8 12)
    return if 0 < w ∧ 0 < h then some (w, h) else none
  else .ok none

/-- The loop of `findISPE` from an offset on; `fuel` bounds its turns and its calls. -/
def findISPE : ℕ → Bytes → ℤ → Except Stop Dimensions
  | 0, _, _ => .error .fuel
  | fuel + 1, data, offset =>
    if ¬ add offset 8 ≤ data.length then .ok none
    else do
      let boxSize : ℤ := bigEndian (← slice data offset (add offset 4))
      let boxType ← slice data (add offset 4) (add offset 8)
      if boxSize < 8 ∨ data.length < add offset boxSize then return none
      let content ← slice data (add offset 8) (add offset boxSize)
      let found ←
        (if boxType = fourCC "iprp" ∨ boxType = fourCC "ipco" then findISPE fuel content 0
        else if boxType = fourCC "ispe" then ispeSize content
        else .ok none)
      if found.isSome then return found
      findISPE fuel data (add offset boxSize)

/-- The size of a top-level box and the length of its header; `none` where the loop breaks. -/
def topSize (data : Bytes) (offset word : ℤ) : Except Stop (Option (ℤ × ℤ)) :=
  if word = 1 then
    if data.length < add offset 16 then .ok none
    else do
      let bytes ← slice data (add offset 8) (add offset 16)
      return some (int64 (bigEndian bytes), 16)
  else if word = 0 then .ok (some (data.length - offset, 8))
  else .ok (some (word, 8))

/-- The `meta` case of `parseHEIFDimensions`. -/
def searchMeta (fuel : ℕ) (data : Bytes) (low high : ℤ) : Except Stop Dimensions := do
  let metaData ← slice data low high
  if metaData.length < 4 then return none
  findISPE fuel (← slice metaData 4 metaData.length) 0

/-- The loop of `parseHEIFDimensions` from an offset on. -/
def walk : ℕ → Bytes → ℤ → Except Stop Dimensions
  | 0, _, _ => .error .fuel
  | fuel + 1, data, offset =>
    if ¬ add offset 8 ≤ data.length then .ok none
    else do
      let word : ℤ := bigEndian (← slice data offset (add offset 4))
      let boxType ← slice data (add offset 4) (add offset 8)
      match ← topSize data offset word with
      | none => return none
      | some (boxSize, headerLen) =>
        if boxSize < headerLen ∨ data.length < add offset boxSize then .ok none
        else if boxType = fourCC "meta" then
          searchMeta fuel data (add offset headerLen) (add offset boxSize)
        else walk fuel data (add offset boxSize)

def parseHEIFDimensions (fuel : ℕ) (data : Bytes) : Except Stop Dimensions :=
  if data.length < 12 then .ok none else walk fuel data 0

/-! ## Boxes -/

structure Box where
  kind : Bytes
  content : Bytes
  size : ℕ
  deriving DecidableEq

/-- The box at the beginning of some bytes, unless it is malformed. -/
def boxOf (t : Bytes) (header size : ℕ) : Option Box :=
  if header ≤ size ∧ size ≤ t.length then
    some ⟨(t.take 8).drop 4, (t.take size).drop header, size⟩
  else none

/-- A box in another one. -/
def childBox (t : Bytes) : Option Box :=
  if t.length < 8 then none else boxOf t 8 (bigEndian (t.take 4))

/-- The size behind the header, in a box with a size of 64 bits. -/
def extendedSize (t : Bytes) : Option ℕ :=
  if 16 ≤ t.length ∧ bigEndian (t.take 4) = 1 then some (bigEndian ((t.take 16).drop 8)) else none

def topBox (t : Bytes) : Option Box :=
  if t.length < 8 then none
  else if bigEndian (t.take 4) = 1 then (extendedSize t).bind (boxOf t 16)
  else if bigEndian (t.take 4) = 0 then boxOf t 8 t.length
  else boxOf t 8 (bigEndian (t.take 4))

abbrev IsContainer (kind : Bytes) : Prop := kind = fourCC "iprp" ∨ kind = fourCC "ipco"

/-- The contents of the `ispe` boxes, depth first, in `iprp` and `ipco` boxes only. -/
inductive Search : Bytes → List Bytes → Prop
  | stop {t} : childBox t = none → Search t []
  | container {t b inner later} : childBox t = some b → IsContainer b.kind →
      Search b.content inner → Search (t.drop b.size) later → Search t (inner ++ later)
  | ispe {t b later} : childBox t = some b → b.kind = fourCC "ispe" →
      Search (t.drop b.size) later → Search t (b.content :: later)
  | other {t b later} : childBox t = some b → ¬ IsContainer b.kind → b.kind ≠ fourCC "ispe" →
      Search (t.drop b.size) later → Search t later

/-- The content of the first `meta` box of the sequence. -/
inductive Meta : Bytes → Bytes → Prop
  | here {t b} : topBox t = some b → b.kind = fourCC "meta" → Meta t b.content
  | later {t b content} : topBox t = some b → b.kind ≠ fourCC "meta" →
      Meta (t.drop b.size) content → Meta t content

/-- The walk over the top-level boxes comes to an offset. -/
inductive Walks (data : Bytes) : ℕ → Prop
  | start : Walks data 0
  | next {offset b} : Walks data offset → topBox (data.drop offset) = some b →
      b.kind ≠ fourCC "meta" → Walks data (offset + b.size)

/-- The dimensions in an `ispe` box, where both are positive. -/
def dimensions (content : Bytes) : Dimensions :=
  if 12 ≤ content.length then
    let w : ℤ := bigEndian ((content.take 8).drop 4)
    let h : ℤ := bigEndian ((content.take 12).drop 8)
    if 0 < w ∧ 0 < h then some (w, h) else none
  else none

/-- The first `ispe` box with positive dimensions, in the first `meta` box, has these. -/
def Shows (t : Bytes) (d : ℤ × ℤ) : Prop :=
  ∃ content leaves, Meta t content ∧ 4 ≤ content.length ∧ Search (content.drop 4) leaves ∧
    leaves.findSome? dimensions = some d

/-- The parser ends without leaving the data, and finds what the boxes show. -/
def Exact (data : Bytes) : Prop :=
  ∃ found, (∀ fuel > data.length, parseHEIFDimensions fuel data = .ok found) ∧
    ∀ d, found = some d ↔ Shows data d

/-- No box that the walk comes to has a size that is an `int` while its end is none. -/
def EndsFit (data : Bytes) : Prop :=
  ∀ offset size, Walks data offset → extendedSize (data.drop offset) = some size →
    size < 2 ^ 63 → offset + size < 2 ^ 63

/-! ## Slices and sums -/

variable {data t content : Bytes} {offset a b header size fuel : ℕ} {leaves : List Bytes}
  {box : Box}

theorem add_eq {x y : ℤ} (h : -2 ^ 63 ≤ x + y) (h' : x + y < 2 ^ 63) : add x y = x + y :=
  Int.bmod_eq_of_le (by omega) (by omega)

theorem bmod_of_le {x : ℤ} (h : 2 ^ 63 ≤ x) (h' : x < 2 ^ 64) : x.bmod (2 ^ 64) = x - 2 ^ 64 := by
  rw [Int.bmod_def]
  omega

theorem slice_drop (data : Bytes) (offset : ℕ) (hab : a ≤ b) (hb : offset + b ≤ data.length) :
    slice data ((offset : ℤ) + a) ((offset : ℤ) + b) =
      .ok (((data.drop offset).take b).drop a) := by
  have hlow : ((offset : ℤ) + a).toNat = offset + a := by omega
  have hlength : ((offset : ℤ) + b - (offset + a)).toNat = b - a := by omega
  unfold slice
  rw [if_pos (by omega), hlow, hlength, List.drop_take, List.drop_drop]

theorem slice_zero (data : Bytes) (hab : a ≤ b) (hb : b ≤ data.length) :
    slice data a b = .ok ((data.take b).drop a) := by
  have h := slice_drop data 0 hab (by omega : 0 + b ≤ data.length)
  rwa [List.drop_zero, Int.natCast_zero, zero_add, zero_add] at h

theorem bigEndian_lt (bytes : Bytes) : bigEndian bytes < 256 ^ bytes.length := by
  induction bytes using List.reverseRecOn with
  | nil => decide
  | append_singleton bytes x ih =>
    have hx := x.isLt
    have hsum : bigEndian (bytes ++ [x]) = bigEndian bytes * 256 + x.toNat := by
      simp [bigEndian]
    rw [hsum, List.length_append, List.length_singleton, pow_succ]
    omega

theorem word_lt (t : Bytes) : bigEndian (t.take 4) < 2 ^ 32 := by
  have hlength : (t.take 4).length ≤ 4 := List.length_take_le 4 t
  exact (bigEndian_lt _).trans_le (Nat.pow_le_pow_right (by decide) hlength)

theorem extendedSize_lt (h : extendedSize t = some size) : size < 2 ^ 64 := by
  unfold extendedSize at h
  split at h
  · cases h
    have hlength : ((t.take 16).drop 8).length ≤ 8 := by
      rw [List.length_drop]
      have := List.length_take_le 16 t
      omega
    exact (bigEndian_lt _).trans_le (Nat.pow_le_pow_right (by decide) hlength)
  · cases h

theorem boxOf_eq_some (h : boxOf t header size = some box) :
    header ≤ size ∧ size ≤ t.length ∧
      box = ⟨(t.take 8).drop 4, (t.take size).drop header, size⟩ := by
  unfold boxOf at h
  split at h
  · cases h
    exact ⟨‹_ ∧ _›.1, ‹_ ∧ _›.2, rfl⟩
  · cases h

theorem childBox_spec (h : childBox t = some box) :
    8 ≤ box.size ∧ box.size ≤ t.length ∧ box.content.length + 8 ≤ t.length := by
  unfold childBox at h
  split at h
  · cases h
  · obtain ⟨hheader, hsize, rfl⟩ := boxOf_eq_some h
    refine ⟨hheader, hsize, ?_⟩
    simp only [List.length_drop, List.length_take]
    omega

theorem topBox_spec (h : topBox t = some box) :
    8 ≤ box.size ∧ box.size ≤ t.length ∧ box.content.length + 8 ≤ t.length := by
  have hspec : ∀ {header size}, 8 ≤ header → boxOf t header size = some box →
      8 ≤ box.size ∧ box.size ≤ t.length ∧ box.content.length + 8 ≤ t.length := by
    intro header size hle h
    obtain ⟨hheader, hsize, rfl⟩ := boxOf_eq_some h
    refine ⟨hle.trans hheader, hsize, ?_⟩
    simp only [List.length_drop, List.length_take]
    omega
  unfold topBox at h
  split at h
  · cases h
  split at h
  · obtain ⟨size, -, h⟩ := Option.bind_eq_some_iff.mp h
    exact hspec (by decide) h
  split at h
  · exact hspec (le_refl 8) h
  · exact hspec (le_refl 8) h

/-- The boxes in some bytes end. -/
theorem search_total (n : ℕ) (hn : t.length ≤ n) : ∃ leaves, Search t leaves := by
  induction n generalizing t with
  | zero =>
    have hnil : t = [] := List.eq_nil_of_length_eq_zero (Nat.le_zero.mp hn)
    exact ⟨[], .stop (by rw [hnil]; rfl)⟩
  | succ n ih =>
    cases hbox : childBox t with
    | none => exact ⟨[], .stop hbox⟩
    | some box =>
      obtain ⟨hsize, hle, hcontent⟩ := childBox_spec hbox
      obtain ⟨later, hlater⟩ := ih (t := t.drop box.size) (by rw [List.length_drop]; omega)
      by_cases hcontainer : IsContainer box.kind
      · obtain ⟨inner, hinner⟩ := ih (t := box.content) (by omega)
        exact ⟨_, .container hbox hcontainer hinner hlater⟩
      · by_cases hispe : box.kind = fourCC "ispe"
        · exact ⟨_, .ispe hbox hispe hlater⟩
        · exact ⟨_, .other hbox hcontainer hispe hlater⟩

/-! ## The search -/

/-- The lengths of slices: a box of 32 bits behind it has an end. -/
def Addressable (data : Bytes) : Prop := data.length + 2 ^ 32 ≤ 2 ^ 63

theorem ispeSize_eq (content : Bytes) : ispeSize content = .ok (dimensions content) := by
  unfold ispeSize dimensions
  split
  · have hw := slice_zero content (a := 4) (b := 8) (by decide) (by omega)
    have hh := slice_zero content (a := 8) (b := 12) (by decide) (by omega)
    simp only [Nat.cast_ofNat] at hw hh
    rw [hw, hh]
    rfl
  · rfl

/-- The header of a box at an offset. -/
theorem slice_header (hlen : Addressable data) (h : offset + 8 ≤ data.length) :
    slice data offset (add offset 4) = .ok ((data.drop offset).take 4) ∧
      slice data (add offset 4) (add offset 8) = .ok (((data.drop offset).take 8).drop 4) := by
  unfold Addressable at hlen
  have hfour := slice_drop data offset (a := 0) (b := 4) (by decide) (by omega)
  have height := slice_drop data offset (a := 4) (b := 8) (by decide) (by omega)
  simp only [Nat.cast_ofNat, Nat.cast_zero, add_zero, List.drop_zero] at hfour height
  rw [add_eq (by omega) (by omega), add_eq (by omega) (by omega)]
  exact ⟨hfour, height⟩

/-- What is found in one box. -/
def inBox (fuel : ℕ) (box : Box) : Except Stop Dimensions :=
  if IsContainer box.kind then findISPE fuel box.content 0
  else if box.kind = fourCC "ispe" then .ok (dimensions box.content)
  else .ok none

/-- One turn of the loop. -/
theorem findISPE_succ (hlen : Addressable data) (hoffset : offset ≤ data.length) :
    findISPE (fuel + 1) data offset = match childBox (data.drop offset) with
      | none => .ok none
      | some box => (inBox fuel box).bind fun found =>
        if found.isSome then .ok found else findISPE fuel data ((offset + box.size : ℕ) : ℤ) := by
  have hlen' := hlen
  unfold Addressable at hlen'
  have hlt := word_lt (data.drop offset)
  rw [findISPE]
  unfold childBox boxOf
  by_cases hend : offset + 8 ≤ data.length
  swap
  · rw [List.length_drop, add_eq (by omega) (by omega), if_pos (by omega), if_pos (by omega)]
  obtain ⟨hword, hkind⟩ := slice_header hlen hend
  rw [hword, hkind, List.length_drop, if_neg (by rw [add_eq (by omega) (by omega)]; omega),
    if_neg (by omega)]
  change (if ((bigEndian ((data.drop offset).take 4) : ℕ) : ℤ) < 8 ∨ _ then _ else _) = _
  generalize bigEndian ((data.drop offset).take 4) = size at hlt
  rw [add_eq (by omega) (by omega)]
  by_cases hbox : 8 ≤ size ∧ size ≤ data.length - offset
  swap
  · rw [if_pos (by omega), if_neg hbox]
    rfl
  have hcontent := slice_drop data offset hbox.1 (by omega)
  rw [if_neg (by omega), if_pos hbox, add_eq (by omega) (by omega)]
  simp only [Nat.cast_ofNat] at hcontent
  rw [hcontent, ← Nat.cast_add]
  unfold inBox
  dsimp only
  rw [← ispeSize_eq]
  rfl

/-- The search finds the first `ispe` box with positive dimensions. -/
theorem findISPE_eq (hsearch : Search t leaves) (hlen : Addressable data)
    (hoffset : offset ≤ data.length) (ht : t = data.drop offset) (hfuel : t.length < fuel) :
    findISPE fuel data offset = .ok (leaves.findSome? dimensions) := by
  have hrest : ∀ {t data : Bytes} {offset fuel : ℕ} {box : Box} {later : List Bytes},
      childBox t = some box → Addressable data → offset ≤ data.length → t = data.drop offset →
      t.length < fuel + 1 →
      (∀ {data : Bytes} {offset fuel : ℕ}, Addressable data → offset ≤ data.length →
        t.drop box.size = data.drop offset → (t.drop box.size).length < fuel →
          findISPE fuel data offset = .ok (later.findSome? dimensions)) →
      findISPE fuel data (offset + box.size : ℕ) = .ok (later.findSome? dimensions) := by
    intro t data offset fuel box later hbox hlen hoffset ht hfuel ihlater
    obtain ⟨hheader, hsize, -⟩ := childBox_spec hbox
    have hlength := congrArg List.length ht
    rw [List.length_drop] at hlength
    refine ihlater hlen (by omega) (by rw [ht, List.drop_drop]) ?_
    rw [List.length_drop]
    omega
  induction hsearch generalizing data offset fuel with
  | stop hbox =>
    obtain ⟨fuel, rfl⟩ : ∃ n, fuel = n + 1 := ⟨fuel - 1, by omega⟩
    rw [findISPE_succ hlen hoffset, ← ht, hbox]
    rfl
  | container hbox hkind _ _ ihinner ihlater =>
    rename_i t box inner later _ _
    obtain ⟨fuel, rfl⟩ : ∃ n, fuel = n + 1 := ⟨fuel - 1, by omega⟩
    obtain ⟨-, -, hcontent⟩ := childBox_spec hbox
    have haddress : Addressable box.content := by
      have hlength := congrArg List.length ht
      rw [List.length_drop] at hlength
      unfold Addressable at hlen ⊢
      omega
    have hinner : findISPE fuel box.content (0 : ℕ) = .ok (inner.findSome? dimensions) :=
      ihinner haddress (Nat.zero_le _) (List.drop_zero).symm (by omega)
    have hlater := hrest hbox hlen hoffset ht hfuel ihlater
    rw [findISPE_succ hlen hoffset, ← ht, hbox]
    dsimp only
    unfold inBox
    rw [if_pos hkind, show findISPE fuel box.content 0 = _ from hinner, hlater,
      List.findSome?_append]
    cases inner.findSome? dimensions <;> rfl
  | ispe hbox hkind _ ihlater =>
    rename_i t box later _
    obtain ⟨fuel, rfl⟩ : ∃ n, fuel = n + 1 := ⟨fuel - 1, by omega⟩
    have hlater := hrest hbox hlen hoffset ht hfuel ihlater
    rw [findISPE_succ hlen hoffset, ← ht, hbox]
    dsimp only
    unfold inBox
    rw [if_neg (by rw [hkind]; decide), if_pos hkind, hlater, List.findSome?_cons]
    cases dimensions box.content <;> rfl
  | other hbox hcontainer hispe _ ihlater =>
    rename_i t box later _
    obtain ⟨fuel, rfl⟩ : ∃ n, fuel = n + 1 := ⟨fuel - 1, by omega⟩
    have hlater := hrest hbox hlen hoffset ht hfuel ihlater
    rw [findISPE_succ hlen hoffset, ← ht, hbox]
    dsimp only
    unfold inBox
    rw [if_neg hcontainer, if_neg hispe, hlater]
    rfl

/-! ## The walk -/

/-- The box at an offset ends at an `int`. -/
def EndFits (data : Bytes) (offset : ℕ) : Prop :=
  ∀ size, extendedSize (data.drop offset) = some size → size < 2 ^ 63 → offset + size < 2 ^ 63

/-- What is found in the `meta` box. -/
def inMeta (fuel : ℕ) (content : Bytes) : Except Stop Dimensions :=
  if content.length < 4 then .ok none else findISPE fuel (content.drop 4) 0

/-- What the walk makes of a box with a size. -/
def checkBox (fuel : ℕ) (data : Bytes) (offset : ℤ) (boxType : Bytes) (boxSize headerLen : ℤ) :
    Except Stop Dimensions :=
  if boxSize < headerLen ∨ data.length < add offset boxSize then .ok none
  else if boxType = fourCC "meta" then
    searchMeta fuel data (add offset headerLen) (add offset boxSize)
  else walk fuel data (add offset boxSize)

theorem walk_turn {size : Option (ℤ × ℤ)} (hlen : Addressable data)
    (hend : offset + 8 ≤ data.length)
    (h : topSize data offset (bigEndian ((data.drop offset).take 4) : ℕ) = .ok size) :
    walk (fuel + 1) data offset = size.elim (.ok none) fun s =>
      checkBox fuel data offset (((data.drop offset).take 8).drop 4) s.1 s.2 := by
  obtain ⟨hword, hkind⟩ := slice_header hlen hend
  unfold Addressable at hlen
  rw [walk, hword, hkind, if_neg (by rw [add_eq (by omega) (by omega)]; omega)]
  change (topSize data offset (bigEndian ((data.drop offset).take 4) : ℕ)).bind _ = _
  rw [h]
  cases size <;> rfl

theorem topSize_extended (hlen : Addressable data)
    (h : extendedSize (data.drop offset) = some size) : offset + 16 ≤ data.length ∧
      topSize data offset (bigEndian ((data.drop offset).take 4) : ℕ) =
        .ok (some (int64 size, 16)) := by
  unfold Addressable at hlen
  unfold extendedSize at h
  rw [List.length_drop] at h
  split at h
  · rename_i hcond
    cases h
    have hbytes := slice_drop data offset (a := 8) (b := 16) (by decide) (by omega)
    simp only [Nat.cast_ofNat] at hbytes
    unfold topSize
    rw [hcond.2, Nat.cast_one, if_pos rfl, add_eq (by omega) (by omega), if_neg (by omega),
      add_eq (by omega) (by omega), hbytes]
    exact ⟨by omega, rfl⟩
  · cases h

theorem walk_succ (fuel : ℕ) (hlen : Addressable data) (hoffset : offset ≤ data.length)
    (hfits : EndFits data offset) :
    walk (fuel + 1) data offset = match topBox (data.drop offset) with
      | none => .ok none
      | some box =>
        if box.kind = fourCC "meta" then inMeta fuel box.content
        else walk fuel data ((offset + box.size : ℕ) : ℤ) := by
  have hlen' := hlen
  unfold Addressable at hlen'
  have hlt := word_lt (data.drop offset)
  unfold topBox
  by_cases hend : offset + 8 ≤ data.length
  swap
  · rw [walk, List.length_drop, add_eq (by omega) (by omega), if_pos (by omega), if_pos (by omega)]
  rw [List.length_drop, if_neg (by omega)]
  -- a size and a header, of which the sum with the offset is an `int`
  have hbox : ∀ header size : ℕ, header ≤ 16 → offset + size < 2 ^ 63 →
      checkBox fuel data offset (((data.drop offset).take 8).drop 4) size header =
        match boxOf (data.drop offset) header size with
        | none => .ok none
        | some box =>
          if box.kind = fourCC "meta" then inMeta fuel box.content
          else walk fuel data ((offset + box.size : ℕ) : ℤ) := by
    intro header size hheader hsize
    unfold checkBox boxOf
    rw [List.length_drop, add_eq (by omega) (by omega)]
    by_cases hbox : header ≤ size ∧ size ≤ data.length - offset
    swap
    · rw [if_pos (by omega), if_neg hbox]
    have hcontent := slice_drop data offset hbox.1 (by omega)
    rw [if_neg (by omega), if_pos hbox, add_eq (by omega) (by omega)]
    dsimp only
    rw [Nat.cast_add]
    split
    · unfold searchMeta inMeta
      rw [hcontent]
      generalize ((data.drop offset).take size).drop header = content
      change (if content.length < 4 then _ else _) = _
      split
      · rfl
      · have hfour := slice_zero content (a := 4) (b := content.length) (by omega) (le_refl _)
        simp only [Nat.cast_ofNat] at hfour
        rw [hfour, List.take_length]
        rfl
    · rfl
  by_cases hone : bigEndian ((data.drop offset).take 4) = 1
  · rw [if_pos hone]
    cases hextended : extendedSize (data.drop offset) with
    | some size =>
      obtain ⟨hsixteen, htop⟩ := topSize_extended hlen hextended
      have hsize := extendedSize_lt hextended
      rw [walk_turn hlen hend htop, Option.bind_some, Option.elim_some]
      by_cases hneg : size < 2 ^ 63
      · rw [show int64 size = size from Int.bmod_eq_of_le (by omega) (by omega)]
        exact hbox 16 size (le_refl _) (hfits _ hextended hneg)
      · have hint : int64 size < 0 := by
          unfold int64
          rw [bmod_of_le (by omega) (by omega)]
          omega
        unfold checkBox boxOf
        rw [if_pos (by omega), List.length_drop, if_neg (by omega)]
    | none =>
      have hshort : ¬ offset + 16 ≤ data.length := by
        intro hlong
        unfold extendedSize at hextended
        rw [List.length_drop, if_pos ⟨by omega, hone⟩] at hextended
        cases hextended
      have htop : topSize data offset (bigEndian ((data.drop offset).take 4) : ℕ) = .ok none := by
        unfold topSize
        rw [hone, Nat.cast_one, if_pos rfl, add_eq (by omega) (by omega), if_pos (by omega)]
      exact (walk_turn hlen hend htop).trans rfl
  · rw [if_neg hone]
    by_cases hzero : bigEndian ((data.drop offset).take 4) = 0
    · have htop : topSize data offset (bigEndian ((data.drop offset).take 4) : ℕ) =
          .ok (some (((data.length - offset : ℕ) : ℤ), 8)) := by
        unfold topSize
        rw [hzero, Nat.cast_zero, if_neg (by decide), if_pos rfl, Nat.cast_sub hoffset]
      rw [if_pos hzero, walk_turn hlen hend htop]
      exact hbox 8 _ (by decide) (by omega)
    · have htop : topSize data offset (bigEndian ((data.drop offset).take 4) : ℕ) =
          .ok (some ((bigEndian ((data.drop offset).take 4) : ℕ), 8)) := by
        unfold topSize
        rw [if_neg (by omega), if_neg (by omega)]
      rw [if_neg hzero, walk_turn hlen hend htop]
      exact hbox 8 _ (by decide) (by omega)

/-- A box whose end is no `int` takes the parser out of the data. -/
theorem walk_of_not_fits (hlen : Addressable data) (hfits : ¬ EndFits data offset)
    (fuel : ℕ) (found : Dimensions) : walk fuel data offset ≠ .ok found := by
  unfold EndFits at hfits
  push Not at hfits
  obtain ⟨size, hextended, hsize, hend⟩ := hfits
  obtain ⟨hsixteen, htop⟩ := topSize_extended hlen hextended
  have hint : int64 size = size := Int.bmod_eq_of_le (by omega) (by omega)
  have hlen' := hlen
  unfold Addressable at hlen'
  have hsum : add offset size = offset + size - 2 ^ 64 := by
    unfold add
    rw [bmod_of_le (by omega) (by omega)]
  cases fuel with
  | zero => exact fun h => by cases h
  | succ fuel =>
    rw [walk_turn hlen (by omega) htop, Option.elim_some]
    unfold checkBox
    rw [hint, hsum, if_neg (by omega)]
    split
    · unfold searchMeta slice
      rw [if_neg (by omega)]
      exact fun h => by cases h
    · cases fuel with
      | zero => exact fun h => by cases h
      | succ fuel =>
        rw [walk, add_eq (by omega) (by omega), if_neg (by omega)]
        unfold slice
        rw [if_neg (by omega)]
        exact fun h => by cases h

/-! ## The whole parser -/

theorem Walks.le (h : Walks data offset) : offset ≤ data.length := by
  induction h with
  | start => exact Nat.zero_le _
  | next _ hbox _ ih =>
    obtain ⟨-, hsize, -⟩ := topBox_spec hbox
    rw [List.length_drop] at hsize
    omega

theorem meta_of_here (hbox : topBox t = some box) (hkind : box.kind = fourCC "meta") :
    Meta t content ↔ content = box.content := by
  constructor
  · intro h
    cases h with
    | here hbox' _ =>
      cases hbox.symm.trans hbox'
      rfl
    | later hbox' hother _ =>
      cases hbox.symm.trans hbox'
      exact absurd hkind hother
  · rintro rfl
    exact .here hbox hkind

theorem meta_of_later (hbox : topBox t = some box) (hkind : box.kind ≠ fourCC "meta") :
    Meta t content ↔ Meta (t.drop box.size) content := by
  constructor
  · intro h
    cases h with
    | here hbox' hmeta =>
      cases hbox.symm.trans hbox'
      exact absurd hmeta hkind
    | later hbox' _ h =>
      cases hbox.symm.trans hbox'
      exact h
  · exact .later hbox hkind

theorem not_meta (hbox : topBox t = none) : ¬ Meta t content := by
  intro h
  cases h with
  | here hbox' _ => cases hbox.symm.trans hbox'
  | later hbox' _ _ => cases hbox.symm.trans hbox'

theorem meta_length (h : Meta t content) : content.length + 8 ≤ t.length := by
  induction h with
  | here hbox _ => exact (topBox_spec hbox).2.2
  | later hbox _ _ ih =>
    rw [List.length_drop] at ih
    omega

/-- The `meta` box that the walk comes to is searched. -/
theorem inMeta_shows (hlen : Addressable content) :
    ∃ found, (∀ fuel > content.length, inMeta fuel content = .ok found) ∧
      ∀ d, found = some d ↔ 4 ≤ content.length ∧
        ∃ leaves, Search (content.drop 4) leaves ∧ leaves.findSome? dimensions = some d := by
  by_cases hshort : content.length < 4
  · refine ⟨none, fun fuel _ => if_pos hshort, fun d => ?_⟩
    constructor
    · intro h
      cases h
    · rintro ⟨hlong, -⟩
      omega
  · obtain ⟨leaves, hsearch⟩ := search_total (t := content.drop 4) _ (le_refl _)
    have hlength : (content.drop 4).length = content.length - 4 := List.length_drop
    have hrun : ∀ {leaves}, Search (content.drop 4) leaves → ∀ fuel > content.length,
        findISPE fuel (content.drop 4) 0 = .ok (leaves.findSome? dimensions) := by
      intro leaves hsearch fuel hfuel
      refine findISPE_eq hsearch ?_ (Nat.zero_le _) List.drop_zero.symm (by omega)
      unfold Addressable at hlen ⊢
      omega
    refine ⟨leaves.findSome? dimensions, fun fuel hfuel => ?_, fun d => ?_⟩
    · unfold inMeta
      rw [if_neg hshort]
      exact hrun hsearch fuel hfuel
    · constructor
      · exact fun h => ⟨by omega, leaves, hsearch, h⟩
      · rintro ⟨-, leaves', hsearch', h⟩
        have hsame := (hrun hsearch _ (Nat.lt_succ_self _)).symm.trans
          (hrun hsearch' _ (Nat.lt_succ_self _))
        rw [Except.ok.inj hsame]
        exact h

/-- From an offset that the walk comes to. -/
theorem walk_shows (hlen : Addressable data) (hfits : EndsFit data) (hwalks : Walks data offset) :
    ∃ found, (∀ fuel > data.length - offset, walk fuel data offset = .ok found) ∧
      ∀ d, found = some d ↔ Shows (data.drop offset) d := by
  induction hn : data.length - offset using Nat.strong_induction_on generalizing offset with
  | _ n ih =>
    have hturn := fun fuel =>
      walk_succ fuel hlen hwalks.le fun size => hfits offset size hwalks
    have hfuel : ∀ fuel > n, ∃ m, fuel = m + 1 ∧ n ≤ m := fun fuel h => ⟨fuel - 1, by omega⟩
    cases hbox : topBox (data.drop offset) with
    | none =>
      refine ⟨none, fun fuel hlt => ?_, fun d => ?_⟩
      · obtain ⟨m, rfl, -⟩ := hfuel fuel hlt
        rw [hturn, hbox]
      · constructor
        · intro h
          cases h
        · rintro ⟨content, leaves, hmeta, -⟩
          exact absurd hmeta (not_meta hbox)
    | some box =>
      obtain ⟨hsize, hle, hcontent⟩ := topBox_spec hbox
      rw [List.length_drop] at hle hcontent
      by_cases hkind : box.kind = fourCC "meta"
      · have haddress : Addressable box.content := by
          unfold Addressable at hlen ⊢
          omega
        obtain ⟨found, hrun, hfound⟩ := inMeta_shows haddress
        refine ⟨found, fun fuel hlt => ?_, fun d => (hfound d).trans ?_⟩
        · obtain ⟨m, rfl, hm⟩ := hfuel fuel hlt
          rw [hturn, hbox]
          dsimp only
          rw [if_pos hkind]
          exact hrun m (by omega)
        · constructor
          · rintro ⟨hlong, leaves, hsearch, h⟩
            exact ⟨_, leaves, .here hbox hkind, hlong, hsearch, h⟩
          · rintro ⟨content, leaves, hmeta, hlong, hsearch, h⟩
            obtain rfl := (meta_of_here hbox hkind).mp hmeta
            exact ⟨hlong, leaves, hsearch, h⟩
      · obtain ⟨found, hrun, hfound⟩ := ih _ (by omega) (hwalks.next hbox hkind) rfl
        refine ⟨found, fun fuel hlt => ?_, fun d => (hfound d).trans ?_⟩
        · obtain ⟨m, rfl, hm⟩ := hfuel fuel hlt
          rw [hturn, hbox]
          dsimp only
          rw [if_neg hkind]
          exact hrun m (by omega)
        · unfold Shows
          simp only [meta_of_later hbox hkind, List.drop_drop]

/-- A walk that comes to a box whose end is no `int`. -/
theorem walk_ne_ok (hlen : Addressable data) (hwalks : Walks data offset)
    (hfail : ∀ fuel found, walk fuel data offset ≠ .ok found) :
    ∀ fuel found, walk fuel data 0 ≠ .ok found := by
  induction hwalks with
  | start => exact hfail
  | @next offset box hwalks hbox hkind ih =>
    apply ih
    by_cases hfits : EndFits data offset
    · intro fuel found
      cases fuel with
      | zero => exact fun h => by cases h
      | succ fuel =>
        rw [walk_succ _ hlen hwalks.le hfits, hbox]
        dsimp only
        rw [if_neg hkind]
        exact hfail fuel found
    · exact walk_of_not_fits hlen hfits

/-- **The parser is total and exact** where the ends of the boxes that it comes to are `int`s. -/
theorem dimensions_exact_iff (data : Bytes) (hlen : Addressable data) :
    Exact data ↔ EndsFit data := by
  by_cases hshort : data.length < 12
  · have hparse : ∀ fuel, parseHEIFDimensions fuel data = .ok none := fun _ => if_pos hshort
    refine iff_of_true ⟨none, fun fuel _ => hparse fuel, fun d => ?_⟩ ?_
    · constructor
      · intro h
        cases h
      · rintro ⟨content, leaves, hmeta, hlong, -⟩
        have hlength := meta_length hmeta
        omega
    · intro offset size _ hextended
      unfold extendedSize at hextended
      rw [List.length_drop, if_neg (by omega)] at hextended
      cases hextended
  · have hparse : ∀ fuel, parseHEIFDimensions fuel data = walk fuel data 0 :=
      fun _ => if_neg hshort
    constructor
    · rintro ⟨found, hrun, -⟩ offset size hwalks hextended hsize
      by_contra hend
      have hfits : ¬ EndFits data offset := fun h => hend (h size hextended hsize)
      refine walk_ne_ok hlen hwalks (walk_of_not_fits hlen hfits) (data.length + 1) found ?_
      exact (hparse _).symm.trans (hrun _ (Nat.lt_succ_self _))
    · intro hfits
      obtain ⟨found, hrun, hfound⟩ := walk_shows hlen hfits .start
      exact ⟨found, fun fuel hlt => (hparse fuel).trans (hrun fuel hlt), hfound⟩

/-- A `meta` box with the dimensions 640 and 480. -/
def picture : Bytes :=
  [0, 0, 0, 48] ++ fourCC "meta" ++ [0, 0, 0, 0, 0, 0, 0, 36] ++ fourCC "iprp" ++ [0, 0, 0, 28] ++
    fourCC "ipco" ++ [0, 0, 0, 20] ++ fourCC "ispe" ++ [0, 0, 0, 0, 0, 0, 2, 128, 0, 0, 1, 224]

theorem picture_exact : Addressable picture ∧ Exact picture := by
  have haddress : Addressable picture := by
    unfold Addressable
    decide
  have hshort : ∀ offset ≤ picture.length, extendedSize (picture.drop offset) = none := by
    decide +kernel
  refine ⟨haddress,
    (dimensions_exact_iff picture haddress).mpr fun offset size hwalks hextended => ?_⟩
  rw [hshort offset hwalks.le] at hextended
  cases hextended

/-- A `free` box and a `meta` box of the greatest size. -/
def overrun : Bytes :=
  [0, 0, 0, 8] ++ fourCC "free" ++ [0, 0, 0, 1] ++ fourCC "meta" ++
    [0x7f, 0xff, 0xff, 0xff, 0xff, 0xff, 0xff, 0xff]

theorem overrun_panics : ¬ Exact overrun := by
  rintro ⟨found, hrun, -⟩
  have h := hrun 25 (by decide)
  rw [show parseHEIFDimensions 25 overrun = .error .panic by decide +kernel] at h
  cases h

end HeifDimensions
