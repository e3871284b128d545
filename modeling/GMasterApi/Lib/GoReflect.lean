import GMasterApi.Lib.JsonValue
import Mathlib.Algebra.Order.Field.Rat

/-!
# Typed values that are read from JSON in place

`json.Unmarshal` writes into a value that is there: the fields of a struct that the text does
not name stay, a map keeps its other keys, and the elements of a slice are written over the
old elements, also over those that the array has behind the length.
`decode_marshal_iff` says when a value that was written by `json.Marshal` is read as it was.
-/

namespace GoReflect

open JsonValue

/-- A struct is `field`s that end in `empty`; a field with `omitempty` says so. -/
inductive Ty
  | string
  | bool
  | int
  | float
  | any
  | slice (elem : Ty)
  | map (elem : Ty)
  | empty
  | field (name : String) (omitEmpty : Bool) (type rest : Ty)
  deriving DecidableEq

/-- The elements of a slice, and what its array has behind them. -/
structure Slice (α : Type) where
  elems : List α
  spare : List α

/-- The entries of a map; their order says nothing. -/
structure Entries (α : Type) where
  list : List (String × α)
  nodup : (list.map Prod.fst).Nodup

variable {α β : Type}

def Entries.nil : Entries α := ⟨[], .nil⟩

theorem nodup_put {list : List (String × α)} (h : (list.map Prod.fst).Nodup) (k : String) (x : α) :
    ((list.filter (fun e => e.1 ≠ k) ++ [(k, x)]).map Prod.fst).Nodup := by
  rw [List.map_append, List.nodup_append]
  refine ⟨h.sublist (List.filter_sublist.map Prod.fst), by simp, ?_⟩
  rintro a ha b hb rfl
  obtain ⟨e, he, rfl⟩ := List.mem_map.mp ha
  have hne := of_decide_eq_true (List.mem_filter.mp he).2
  rw [List.map_cons, List.map_nil, List.mem_singleton] at hb
  exact hne hb

/-- `m[k] = x`. -/
def Entries.put (m : Entries α) (k : String) (x : α) : Entries α :=
  ⟨m.list.filter (fun e => e.1 ≠ k) ++ [(k, x)], nodup_put m.nodup k x⟩

/-- The values of a type; `none` is a nil slice or map, and a `float64` is the number it stands
for. -/
def Ty.Val : Ty → Type
  | .string => String
  | .bool => Bool
  | .int => Int64
  | .float => ℚ
  | .any => Json
  | .slice elem => Option (Slice elem.Val)
  | .map elem => Option (Entries elem.Val)
  | .empty => Unit
  | .field _ _ type rest => type.Val × rest.Val

def zero : (ty : Ty) → ty.Val
  | .string => ""
  | .bool => false
  | .int => (0 : Int64)
  | .float => (0 : ℚ)
  | .any => Json.null
  | .slice elem => (none : Option (Slice elem.Val))
  | .map elem => (none : Option (Entries elem.Val))
  | .empty => ()
  | .field _ _ type rest => (zero type, zero rest)

/-- What `omitempty` leaves out. -/
def isEmpty : (ty : Ty) → ty.Val → Bool
  | .string, (s : String) => s = ""
  | .bool, (b : Bool) => !b
  | .int, (i : Int64) => i = 0
  | .float, (q : ℚ) => q = 0
  | .any, (j : Json) => match j with | .null => true | _ => false
  | .slice _, s => match s with | none => true | some s => s.elems.isEmpty
  | .map _, m => match m with | none => true | some m => m.list.isEmpty
  | .empty, _ => false
  | .field .., _ => false

def members : Json → Members
  | .object members => members
  | _ => []

/-! ## Writing -/

def marshal : (ty : Ty) → ty.Val → Json
  | .string, (s : String) => .string s
  | .bool, (b : Bool) => .bool b
  | .int, (i : Int64) => .number i.toInt
  | .float, (q : ℚ) => .number q
  | .any, (j : Json) => j
  | .slice elem, s => match s with
    | none => .null
    | some s => .array (s.elems.map (marshal elem))
  | .map elem, m => match m with
    | none => .null
    | some m => .object (m.list.map fun e => (e.1, marshal elem e.2))
  | .empty, _ => .object []
  | .field name omitEmpty type rest, (x, xs) =>
    .object ((if omitEmpty && isEmpty type x then [] else [(name, marshal type x)]) ++
      members (marshal rest xs))

/-! ## Reading -/

/-- The items of an array, each over the old element at its place, with what is left of the old
ones. -/
def decodeItems (f : α → Json → α × Bool) (zero : α) :
    List α → List Json → List α × List α × Bool
  | olds, [] => ([], olds, true)
  | olds, item :: items =>
    let (x, ok) := f (olds.headD zero) item
    let (xs, spare, ok') := decodeItems f zero olds.tail items
    (x :: xs, spare, ok && ok')

def decodeEntries (f : Json → α × Bool) : Entries α → Members → Entries α × Bool
  | m, [] => (m, true)
  | m, (k, j) :: ms =>
    let (x, ok) := f j
    let (m, ok') := decodeEntries f (m.put k x) ms
    (m, ok && ok')

/-- The members with the name of a field. -/
def decodeNamed (f : α → Json → α × Bool) (name : String) : α → Members → α × Bool
  | x, [] => (x, true)
  | x, (k, j) :: ms =>
    if k = name then
      let (x, ok) := f x j
      let (x, ok') := decodeNamed f name x ms
      (x, ok && ok')
    else decodeNamed f name x ms

/-- `json.Unmarshal` into a value, with whether every part has the type for it.  The names of a
struct are taken as they are written, and an element of a map is read into a new one. -/
def decode : (ty : Ty) → ty.Val → Json → ty.Val × Bool
  | .string, (old : String), j => match j with
    | .string s => (s, true)
    | .null => (old, true)
    | _ => (old, false)
  | .bool, (old : Bool), j => match j with
    | .bool b => (b, true)
    | .null => (old, true)
    | _ => (old, false)
  | .int, (old : Int64), j => match j with
    | .number q =>
      if q.den = 1 ∧ Int64.minValue.toInt ≤ q.num ∧ q.num ≤ Int64.maxValue.toInt then
        (Int64.ofInt q.num, true)
      else (old, false)
    | .null => (old, true)
    | _ => (old, false)
  | .float, (old : ℚ), j => match j with
    | .number q => (q, true)
    | .null => (old, true)
    | _ => (old, false)
  | .any, _, j => (j, true)
  | .slice elem, old, j => match j with
    | .null => (none, true)
    | .array items =>
      let olds := old.elim [] fun s => s.elems ++ s.spare
      let (elems, spare, ok) := decodeItems (decode elem) (zero elem) olds items
      (some ⟨elems, if items.isEmpty then [] else spare⟩, ok)
    | _ => (old, false)
  | .map elem, old, j => match j with
    | .null => (none, true)
    | .object ms =>
      let (m, ok) := decodeEntries (decode elem (zero elem)) (old.getD .nil) ms
      (some m, ok)
    | _ => (old, false)
  | .empty, _, j => match j with
    | .null => ((), true)
    | .object _ => ((), true)
    | _ => ((), false)
  | .field name _ type rest, (x, xs), j => match j with
    | .null => ((x, xs), true)
    | .object ms =>
      let (x, ok) := decodeNamed (decode type) name x ms
      let (xs, ok') := decode rest xs (.object ms)
      ((x, xs), ok && ok')
    | _ => ((x, xs), false)

/-! ## What is read as it was written -/

/-- The names of the fields of a struct. -/
def Ty.names : Ty → List String
  | .field name _ _ rest => name :: rest.names
  | _ => []

def Ty.IsStruct : Ty → Prop
  | .empty => True
  | .field _ _ _ rest => rest.IsStruct
  | _ => False

/-- The names of every struct in it are distinct. -/
def Ty.WellFormed : Ty → Prop
  | .slice elem => elem.WellFormed
  | .map elem => elem.WellFormed
  | .field name _ type rest =>
    type.WellFormed ∧ rest.WellFormed ∧ rest.IsStruct ∧ name ∉ rest.names
  | _ => True

/-- Each element is over one that it replaces as a whole. -/
def CleanItems (p : α → α → Prop) (zero : α) : List α → List α → Prop
  | _, [] => True
  | olds, x :: xs => p (olds.headD zero) x ∧ CleanItems p zero olds.tail xs

/-- Nothing of the old value is left when the new one is read into it: where a field is not
written the old one is empty too, and a map has no key but those of the new one. -/
def Clean : (ty : Ty) → ty.Val → ty.Val → Prop
  | .slice elem, old, new => match new with
    | none => True
    | some s =>
      CleanItems (Clean elem) (zero elem) (old.elim [] fun s => s.elems ++ s.spare) s.elems
  | .map _, old, new => match new with
    | none => True
    | some m => ∀ e ∈ (old.getD .nil).list, e.1 ∈ m.list.map Prod.fst
  | .field _ omitEmpty type rest, (x, xs), (y, ys) =>
    (if omitEmpty && isEmpty type y then isEmpty type x = true else Clean type x y) ∧
      Clean rest xs ys
  | _, _, _ => True

/-! ## Zero values -/

theorem cleanItems_nil {p : α → α → Prop} {zero : α} (h : ∀ x, p zero x) (xs : List α) :
    CleanItems p zero [] xs := by
  induction xs with
  | nil => trivial
  | cons x xs ih => exact ⟨h x, ih⟩

theorem isEmpty_zero_of_isEmpty : ∀ (ty : Ty) (y : ty.Val), isEmpty ty y = true →
    isEmpty ty (zero ty) = true
  | .string, _, _ => rfl
  | .bool, _, _ => rfl
  | .int, _, _ => rfl
  | .float, _, _ => rfl
  | .any, _, _ => rfl
  | .slice _, _, _ => rfl
  | .map _, _, _ => rfl
  | .empty, _, h => h
  | .field .., _, h => h

/-- A new value has nothing in it to be left. -/
theorem clean_zero : ∀ (ty : Ty) (y : ty.Val), Clean ty (zero ty) y
  | .string, _ => trivial
  | .bool, _ => trivial
  | .int, _ => trivial
  | .float, _ => trivial
  | .any, _ => trivial
  | .slice elem, none => trivial
  | .slice elem, some s => cleanItems_nil (clean_zero elem) s.elems
  | .map _, none => trivial
  | .map _, some _ => nofun
  | .empty, _ => trivial
  | .field _ omitEmpty type rest, (y, ys) => by
    refine ⟨?_, clean_zero rest ys⟩
    split
    · rename_i h
      exact isEmpty_zero_of_isEmpty type y (Bool.and_eq_true_iff.mp h).2
    · exact clean_zero type y

/-! ## Structs -/

variable {ty : Ty} {name : String} {j : Json} {ms : Members}

theorem marshal_struct (h : ty.IsStruct) (v : ty.Val) :
    marshal ty v = .object (members (marshal ty v)) := by
  cases ty with
  | empty => rfl
  | field name omitEmpty type rest => rfl
  | _ => cases h

/-- The members of a struct have the names of its fields. -/
theorem name_mem_of_marshal : ∀ (ty : Ty) (v : ty.Val), ty.IsStruct →
    ∀ m ∈ members (marshal ty v), m.1 ∈ ty.names
  | .empty, _, _, m, hm => nomatch hm
  | .field name omitEmpty type rest, (x, xs), h, m, hm => by
    rcases List.mem_append.mp hm with hhead | htail
    · split at hhead
      · cases hhead
      · rw [List.mem_singleton.mp hhead]
        exact List.mem_cons_self
    · exact List.mem_cons_of_mem _ (name_mem_of_marshal rest xs h m htail)

theorem decodeNamed_of_not_mem {f : α → Json → α × Bool} {x : α}
    (h : ∀ m ∈ ms, m.1 ≠ name) : decodeNamed f name x ms = (x, true) := by
  induction ms with
  | nil => rfl
  | cons m ms ih =>
    rw [List.forall_mem_cons] at h
    rw [decodeNamed, if_neg h.1, ih h.2]

/-- A member with another name is passed over. -/
theorem decode_cons_of_not_mem : ∀ (ty : Ty) (old : ty.Val), ty.IsStruct → name ∉ ty.names →
    decode ty old (.object ((name, j) :: ms)) = decode ty old (.object ms)
  | .empty, _, _, _ => rfl
  | .field field _ type rest, (x, xs), h, hname => by
    have hne : name ≠ field := fun heq => hname (heq ▸ List.mem_cons_self)
    have hrest := decode_cons_of_not_mem rest xs h fun hmem => hname (List.mem_cons_of_mem _ hmem)
    rw [decode, decode, decodeNamed, if_neg hne, hrest]

section Field

variable {omitEmpty : Bool} {type rest : Ty}

theorem marshal_struct_inj (h : rest.IsStruct) {xs : rest.Val} :
    marshal rest xs = .object ms ↔ members (marshal rest xs) = ms := by
  constructor
  · intro heq
    rw [heq]
    rfl
  · intro heq
    rw [marshal_struct h, heq]

theorem name_ne_of_marshal (h : rest.IsStruct) (hname : name ∉ rest.names) (xs : rest.Val) :
    ∀ m ∈ members (marshal rest xs), m.1 ≠ name := by
  rintro m hm rfl
  exact hname (name_mem_of_marshal rest xs h m hm)

theorem marshal_field_of_empty {y : type.Val} {ys : rest.Val}
    (h : (omitEmpty && isEmpty type y) = true) :
    marshal (.field name omitEmpty type rest) (y, ys) = .object (members (marshal rest ys)) := by
  rw [marshal, if_pos h, List.nil_append]

theorem marshal_field_of_not_empty {y : type.Val} {ys : rest.Val}
    (h : ¬ (omitEmpty && isEmpty type y) = true) :
    marshal (.field name omitEmpty type rest) (y, ys) =
      .object ((name, marshal type y) :: members (marshal rest ys)) := by
  rw [marshal, if_neg h, List.singleton_append]

/-- A field that no member names stays as it is. -/
theorem decode_field {x : type.Val} {xs : rest.Val} (h : ∀ m ∈ ms, m.1 ≠ name) :
    decode (.field name omitEmpty type rest) (x, xs) (.object ms) =
      ((x, (decode rest xs (.object ms)).1), (decode rest xs (.object ms)).2) := by
  rw [decode, decodeNamed_of_not_mem h]
  rfl

theorem decode_field_cons {x : type.Val} {xs : rest.Val} (hstruct : rest.IsStruct)
    (hname : name ∉ rest.names) (h : ∀ m ∈ ms, m.1 ≠ name) :
    decode (.field name omitEmpty type rest) (x, xs) (.object ((name, j) :: ms)) =
      (((decode type x j).1, (decode rest xs (.object ms)).1),
        (decode type x j).2 && (decode rest xs (.object ms)).2) := by
  have hnamed : decodeNamed (decode type) name x ((name, j) :: ms) = decode type x j := by
    rw [decodeNamed, if_pos rfl]
    dsimp only
    rw [decodeNamed_of_not_mem h, Bool.and_true]
  rw [decode, hnamed, decode_cons_of_not_mem rest xs hstruct hname]
  rfl

end Field

/-! ## Reading back -/

/-- A value says by its text whether it is empty. -/
theorem isEmpty_congr : ∀ (ty : Ty) (x y : ty.Val), marshal ty x = marshal ty y →
    isEmpty ty x = isEmpty ty y
  | .string, _, _, h => by
    injection h with h
    rw [h]
  | .bool, _, _, h => by
    injection h with h
    rw [h]
  | .int, x, y, h => by
    injection h with h
    have hint : Int64.toInt x = Int64.toInt y := by exact_mod_cast h
    rw [Int64.toInt_inj.mp hint]
  | .float, _, _, h => by
    injection h with h
    rw [h]
  | .any, _, _, h => congrArg (isEmpty .any) h
  | .slice _, none, none, _ => rfl
  | .slice _, none, some _, h => nomatch h
  | .slice _, some _, none, h => nomatch h
  | .slice elem, some s, some t, h => by
    injection h with h
    have hempty := congrArg List.isEmpty h
    rw [List.isEmpty_map, List.isEmpty_map] at hempty
    exact hempty
  | .map _, none, none, _ => rfl
  | .map _, none, some _, h => nomatch h
  | .map _, some _, none, h => nomatch h
  | .map elem, some m, some n, h => by
    injection h with h
    have hempty := congrArg List.isEmpty h
    rw [List.isEmpty_map, List.isEmpty_map] at hempty
    exact hempty
  | .empty, _, _, _ => rfl
  | .field .., _, _, _ => rfl

/-- Two structs have the same text exactly if their fields do, or the field is omitted in both. -/
theorem marshal_field_inj {name : String} {omitEmpty : Bool} {type rest : Ty} {x y : type.Val}
    {xs ys : rest.Val} (hstruct : rest.IsStruct) (hname : name ∉ rest.names) :
    marshal (.field name omitEmpty type rest) (x, xs) =
        marshal (.field name omitEmpty type rest) (y, ys) ↔
      (if omitEmpty && isEmpty type y then isEmpty type x = true
        else marshal type x = marshal type y) ∧
        members (marshal rest xs) = members (marshal rest ys) := by
  by_cases hempty : (omitEmpty && isEmpty type y) = true
  · rw [marshal_field_of_empty hempty, if_pos hempty]
    by_cases hx : isEmpty type x = true
    · have hx' : (omitEmpty && isEmpty type x) = true := by
        rw [hx, Bool.and_true]
        exact (Bool.and_eq_true_iff.mp hempty).1
      rw [marshal_field_of_empty hx', Json.object.injEq]
      exact (and_iff_right hx).symm
    · have hx' : ¬ (omitEmpty && isEmpty type x) = true :=
        fun h => hx (Bool.and_eq_true_iff.mp h).2
      rw [marshal_field_of_not_empty hx', Json.object.injEq]
      refine iff_of_false (fun heq => ?_) fun h => hx h.1
      refine name_ne_of_marshal hstruct hname ys (name, marshal type x) ?_ rfl
      rw [← heq]
      exact List.mem_cons_self
  · rw [marshal_field_of_not_empty hempty, if_neg hempty]
    by_cases hx : (omitEmpty && isEmpty type x) = true
    · rw [marshal_field_of_empty hx, Json.object.injEq]
      refine iff_of_false (fun heq => ?_) fun h => hempty ?_
      · refine name_ne_of_marshal hstruct hname xs (name, marshal type y) ?_ rfl
        rw [heq]
        exact List.mem_cons_self
      · rw [← isEmpty_congr type x y h.1]
        exact hx
    · rw [marshal_field_of_not_empty hx, Json.object.injEq, List.cons.injEq, Prod.mk.injEq]
      exact and_congr_left' (and_iff_right rfl)

section Elements

variable {f : α → Json → α × Bool} {g : α → Json} {p : α → α → Prop} {x : α}

theorem decodeItems_map (h : ∀ old y, (f old (g y)).2 = true ∧ (g (f old (g y)).1 = g y ↔ p old y))
    (olds ys : List α) :
    (decodeItems f x olds (ys.map g)).2.2 = true ∧
      ((decodeItems f x olds (ys.map g)).1.map g = ys.map g ↔ CleanItems p x olds ys) := by
  induction ys generalizing olds with
  | nil => exact ⟨rfl, iff_of_true rfl trivial⟩
  | cons y ys ih =>
    obtain ⟨hok, hread⟩ := h (olds.headD x) y
    obtain ⟨hoks, hreads⟩ := ih olds.tail
    constructor
    · show ((f (olds.headD x) (g y)).2 && (decodeItems f x olds.tail (ys.map g)).2.2) = true
      rw [hok, hoks]
      rfl
    · show g (f (olds.headD x) (g y)).1 :: (decodeItems f x olds.tail (ys.map g)).1.map g =
        g y :: ys.map g ↔ _
      rw [List.cons.injEq, hread, hreads]
      rfl

/-- The entries that are read, behind those that are left. -/
theorem list_decodeEntries {f : Json → α × Bool} (l : List (String × α))
    (hl : (l.map Prod.fst).Nodup) (hok : ∀ y, (f (g y)).2 = true) (m : Entries α) :
    (decodeEntries f m (l.map fun e => (e.1, g e.2))).2 = true ∧
      (decodeEntries f m (l.map fun e => (e.1, g e.2))).1.list =
        m.list.filter (fun e => e.1 ∉ l.map Prod.fst) ++ l.map fun e => (e.1, (f (g e.2)).1) := by
  induction l generalizing m with
  | nil => exact ⟨rfl, by simp [decodeEntries]⟩
  | cons e l ih =>
    rw [List.map_cons, List.nodup_cons] at hl
    obtain ⟨hoks, hlist⟩ := ih hl.2 (m.put e.1 (f (g e.2)).1)
    constructor
    · show ((f (g e.2)).2 &&
        (decodeEntries f (m.put e.1 (f (g e.2)).1) (l.map fun e => (e.1, g e.2))).2) = true
      rw [hok, hoks]
      rfl
    · show (decodeEntries f (m.put e.1 (f (g e.2)).1) (l.map fun e => (e.1, g e.2))).1.list = _
      have hkeep : [(e.1, (f (g e.2)).1)].filter (fun e => e.1 ∉ l.map Prod.fst) =
          [(e.1, (f (g e.2)).1)] :=
        List.filter_cons_of_pos (decide_eq_true hl.1)
      have hfilter : (m.list.filter fun e' => e'.1 ≠ e.1).filter
            (fun e => e.1 ∉ l.map Prod.fst) =
          m.list.filter fun e' => e'.1 ∉ (e :: l).map Prod.fst := by
        rw [List.filter_filter]
        apply List.filter_congr
        intro e' _
        rw [← Bool.decide_and, decide_eq_decide, List.map_cons, List.mem_cons, not_or]
        exact and_comm
      rw [hlist, Entries.put, List.filter_append, hkeep, hfilter, List.append_assoc]
      rfl

end Elements

/-- **A value is read as it was written** exactly if nothing of the old value is left. -/
theorem decode_marshal_iff : ∀ (ty : Ty), ty.WellFormed → ∀ old y : ty.Val,
    (decode ty old (marshal ty y)).2 = true ∧
      (marshal ty (decode ty old (marshal ty y)).1 = marshal ty y ↔ Clean ty old y)
  | .string, _, _, _ => ⟨rfl, iff_of_true rfl trivial⟩
  | .bool, _, _, _ => ⟨rfl, iff_of_true rfl trivial⟩
  | .int, _, old, (y : Int64) => by
    have hread : decode .int old (marshal .int y) = (y, true) := by
      show (if ((y.toInt : ℚ)).den = 1 ∧ Int64.minValue.toInt ≤ ((y.toInt : ℚ)).num ∧
        ((y.toInt : ℚ)).num ≤ Int64.maxValue.toInt then _ else _) = _
      rw [if_pos ⟨rfl, Int64.le_toInt y, Int64.toInt_le y⟩]
      exact Prod.ext (Int64.ofInt_toInt y) rfl
    rw [hread]
    exact ⟨rfl, iff_of_true rfl trivial⟩
  | .float, _, _, _ => ⟨rfl, iff_of_true rfl trivial⟩
  | .any, _, _, _ => ⟨rfl, iff_of_true rfl trivial⟩
  | .slice _, _, _, none => ⟨rfl, iff_of_true rfl trivial⟩
  | .slice elem, h, old, some s => by
    obtain ⟨hok, hread⟩ := decodeItems_map (x := zero elem) (decode_marshal_iff elem h)
      (old.elim [] fun s => s.elems ++ s.spare) s.elems
    refine ⟨hok, ?_⟩
    show Json.array _ = Json.array _ ↔ _
    rw [Json.array.injEq]
    exact hread
  | .map _, _, _, none => ⟨rfl, iff_of_true rfl trivial⟩
  | .map elem, h, old, some m => by
    have helem := decode_marshal_iff elem h
    obtain ⟨hok, hlist⟩ := list_decodeEntries (f := decode elem (zero elem)) (g := marshal elem)
      m.list m.nodup (fun y => (helem (zero elem) y).1) (old.getD .nil)
    refine ⟨hok, ?_⟩
    show Json.object (List.map _ _) = Json.object (List.map _ _) ↔ _
    rw [Json.object.injEq, hlist, List.map_append, List.map_map]
    have hsame : (m.list.map ((fun e => (e.1, marshal elem e.2)) ∘
        fun e => (e.1, (decode elem (zero elem) (marshal elem e.2)).1))) =
        m.list.map fun e => (e.1, marshal elem e.2) := by
      apply List.map_congr_left
      intro e _
      exact Prod.ext rfl ((helem (zero elem) e.2).2.mpr (clean_zero elem e.2))
    rw [hsame, List.append_left_eq_self, List.map_eq_nil_iff, List.filter_eq_nil_iff]
    simp [Clean]
  | .empty, _, _, _ => ⟨rfl, iff_of_true rfl trivial⟩
  | .field name omitEmpty type rest, ⟨htype, hrest, hstruct, hname⟩, (x, xs), (y, ys) => by
    obtain ⟨hok, hread⟩ := decode_marshal_iff type htype x y
    obtain ⟨hoks, hreads⟩ := decode_marshal_iff rest hrest xs ys
    rw [marshal_struct hstruct ys] at hoks hreads
    rw [marshal_struct_inj hstruct] at hreads
    by_cases hempty : (omitEmpty && isEmpty type y) = true
    · have hdecode : decode (.field name omitEmpty type rest) (x, xs)
          (marshal (.field name omitEmpty type rest) (y, ys)) =
          ((x, (decode rest xs (.object (members (marshal rest ys)))).1),
            (decode rest xs (.object (members (marshal rest ys)))).2) := by
        rw [marshal_field_of_empty hempty, decode_field (name_ne_of_marshal hstruct hname ys)]
      rw [hdecode, marshal_field_inj hstruct hname, Clean, if_pos hempty, if_pos hempty, hreads]
      exact ⟨hoks, Iff.rfl⟩
    · have hdecode : decode (.field name omitEmpty type rest) (x, xs)
          (marshal (.field name omitEmpty type rest) (y, ys)) =
          (((decode type x (marshal type y)).1,
            (decode rest xs (.object (members (marshal rest ys)))).1), true) := by
        rw [marshal_field_of_not_empty hempty,
          decode_field_cons hstruct hname (name_ne_of_marshal hstruct hname ys), hok, hoks,
          Bool.and_true]
      rw [hdecode, marshal_field_inj hstruct hname, Clean, if_neg hempty, if_neg hempty, hread,
        hreads]
      exact ⟨rfl, Iff.rfl⟩

end GoReflect
