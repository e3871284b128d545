import GMasterApi.Lib.GoString
import Mathlib.Data.List.Sort
import Mathlib.Data.Rat.Defs

/-!
# What `encoding/json` fills an `interface` with

A number keeps beside its value the text that `%v` prints of it.  `Lower` is
`unicode.ToLower`, as far as `strings.ToLower` and `strings.TrimSpace` depend on it.
-/

namespace GoValue

open GoString

/-- `nil`, `bool`, `float64`, `string`, a slice or a map. -/
inductive Value
  | null
  | bool (b : Bool)
  | number (value : ℚ) (text : String)
  | string (s : String)
  | array (items : List Value)
  | object (fields : List (String × Value))

/-- `fields[key]` of an object. -/
def Value.field (fields : List (String × Value)) (key : String) : Option Value := fields.lookup key

/-- `v.(string)`. -/
def Value.asString : Value → Option String
  | .string s => some s
  | _ => none

/-- `v.(bool)`. -/
def Value.asBool : Value → Option Bool
  | .bool b => some b
  | _ => none

/-- `fields[key].(string)`. -/
def Value.stringField (fields : List (String × Value)) (key : String) : Option String :=
  (Value.field fields key).bind Value.asString

def Value.boolField (fields : List (String × Value)) (key : String) : Option Bool :=
  (Value.field fields key).bind Value.asBool

mutual

/-- `fmt.Sprintf("%v", v)`; a map is printed by its sorted keys. -/
def Value.sprint : Value → String
  | .null => "<nil>"
  | .bool b => if b then "true" else "false"
  | .number _ text => text
  | .string s => s
  | .array items => "[" ++ " ".intercalate (sprintItems items) ++ "]"
  | .object fields =>
    "map[" ++ " ".intercalate (((sprintFields fields).insertionSort fun a b => a.1 ≤ b.1).map
      fun field => field.1 ++ ":" ++ field.2) ++ "]"

def Value.sprintItems : List Value → List String
  | [] => []
  | item :: items => item.sprint :: sprintItems items

def Value.sprintFields : List (String × Value) → List (String × String)
  | [] => []
  | (key, value) :: fields => (key, value.sprint) :: sprintFields fields

end

mutual

/-- A bound for what is read out of texts in the value: its nodes and its characters. -/
def Value.size : Value → ℕ
  | .string s => s.length + 1
  | .array items => sizeItems items + 1
  | .object fields => sizeFields fields + 1
  | _ => 1

def Value.sizeItems : List Value → ℕ
  | [] => 0
  | item :: items => item.size + sizeItems items

def Value.sizeFields : List (String × Value) → ℕ
  | [] => 0
  | (_, value) :: fields => value.size + sizeFields fields

end

@[simp] theorem Value.sprint_string (s : String) : (Value.string s).sprint = s := rfl

/-! ## Lower case -/

/-- `unicode.ToLower`: what is lower already stays, and so do the spaces. -/
structure Lower where
  lower : Char → Char
  lower_lower : ∀ c, lower (lower c) = lower c
  isSpace_lower : ∀ c, isSpace (lower c) = isSpace c

/-- `strings.ToLower`. -/
def Lower.toLower (l : Lower) (s : String) : String := String.ofList (s.toList.map l.lower)

/-- On texts that are lower already. -/
def Lower.same : Lower := ⟨id, fun _ => rfl, fun _ => rfl⟩

theorem trim_map_lower (l : Lower) (cs : List Char) :
    trim (cs.map l.lower) = (trim cs).map l.lower := by
  have hspace : isSpace ∘ l.lower = isSpace := funext l.isSpace_lower
  unfold trim
  rw [List.dropWhile_map, hspace, List.rdropWhile, List.rdropWhile, ← List.map_reverse,
    List.dropWhile_map, hspace, List.map_reverse]

/-- `strings.TrimSpace(strings.ToLower(s))` is of that form already. -/
theorem trimSpace_toLower_idem (l : Lower) (s : String) :
    trimSpace (l.toLower (trimSpace (l.toLower s))) = trimSpace (l.toLower s) := by
  have hlower : l.lower ∘ l.lower = l.lower := funext l.lower_lower
  have hchars : ∀ cs : List Char,
      trim ((trim (cs.map l.lower)).map l.lower) = trim (cs.map l.lower) := by
    intro cs
    rw [trim_map_lower, trim_trim, trim_map_lower, List.map_map, hlower]
  unfold trimSpace Lower.toLower
  rw [String.toList_ofList, String.toList_ofList, String.toList_ofList, hchars]

end GoValue
