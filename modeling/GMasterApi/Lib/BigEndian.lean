import Mathlib.Data.List.Basic

/-!
# Words and texts on the wire

A word of 32 bits is written with its high byte first, a text behind its length.  What has been
written is read back, and what has been read has been written so (`get32_eq_ok_iff`).  `Next`
takes what is there where a text is shorter than its length says.
-/

namespace BigEndian

abbrev Byte := BitVec 8

def put32 (x : BitVec 32) : List Byte :=
  [x.extractLsb' 24 8, x.extractLsb' 16 8, x.extractLsb' 8 8, x.extractLsb' 0 8]

/-- `binary.Read` of a word. -/
def get32 : List Byte → Except String (BitVec 32 × List Byte)
  | a :: b :: c :: d :: rest => .ok (a ++ b ++ c ++ d, rest)
  | [] => .error "EOF"
  | _ => .error "unexpected EOF"

/-- A text behind its length. -/
def chunk (s : List Byte) : List Byte := put32 (BitVec.ofNat 32 s.length) ++ s

/-- Two half bytes as one. -/
def pack (high low : Byte) : Byte := high <<< 4 ||| low

variable {x y size : BitVec 32} {l l' rest s t : List Byte} {high low : Byte}

@[simp] theorem length_put32 (x : BitVec 32) : (put32 x).length = 4 := rfl

theorem put32_append (a b c d : Byte) : put32 (a ++ b ++ c ++ d) = [a, b, c, d] := by
  unfold put32
  congr
  all_goals
    ext i hi
    simp
    try grind

theorem get32_put32 (x : BitVec 32) (l : List Byte) : get32 (put32 x ++ l) = .ok (x, l) := by
  have hword : x.extractLsb' 24 8 ++ x.extractLsb' 16 8 ++ x.extractLsb' 8 8 ++
      x.extractLsb' 0 8 = x := by
    ext i hi
    simp
    grind
  show Except.ok (_, l) = .ok (x, l)
  rw [hword]

/-- A word is read exactly where it has been written. -/
theorem get32_eq_ok_iff : get32 l = .ok (x, rest) ↔ l = put32 x ++ rest := by
  constructor
  · intro h
    match l with
    | a :: b :: c :: d :: l =>
      cases h
      rw [put32_append]
      rfl
    | [] => cases h
    | [_] => cases h
    | [_, _] => cases h
    | [_, _, _] => cases h
  · rintro rfl
    exact get32_put32 x rest

theorem put32_inj (h : put32 x = put32 y) : x = y := by
  have hread := get32_put32 x []
  rw [h, get32_put32] at hread
  cases hread
  rfl

theorem append_put32_inj (h : put32 x ++ l = put32 y ++ l') : x = y ∧ l = l' := by
  obtain ⟨hword, hrest⟩ := List.append_inj h rfl
  exact ⟨put32_inj hword, hrest⟩

@[simp] theorem length_chunk (s : List Byte) : (chunk s).length = 4 + s.length := by
  rw [chunk, List.length_append, length_put32]

/-! ## Half bytes -/

theorem half (h : high.toNat < 16) : (high.setWidth 4).setWidth 8 = high := by
  apply BitVec.eq_of_toNat_eq
  simp
  omega

theorem pack_high (hhigh : high.toNat < 16) (hlow : low.toNat < 16) :
    pack high low >>> 4 = high := by
  have hall : ∀ a b : BitVec 4, pack (a.setWidth 8) (b.setWidth 8) >>> 4 = a.setWidth 8 := by
    decide
  rw [← half hhigh, ← half hlow]
  exact hall _ _

theorem pack_low (hhigh : high.toNat < 16) (hlow : low.toNat < 16) :
    pack high low &&& 0b1111 = low := by
  have hall : ∀ a b : BitVec 4, pack (a.setWidth 8) (b.setWidth 8) &&& 0b1111 = b.setWidth 8 := by
    decide
  rw [← half hhigh, ← half hlow]
  exact hall _ _

theorem pack_halves : ∀ x : Byte, pack (x >>> 4) (x &&& 0b1111) = x := by
  decide

end BigEndian
