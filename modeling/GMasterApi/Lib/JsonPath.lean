import GMasterApi.Lib.GoString
import GMasterApi.Lib.JsonValue

/-!
# Places in a JSON value

A place is the names and indexes on the way to it from the root.
-/

namespace JsonValue

open GoString

/-- A segment that is an index of an array. -/
def arrayIndex (key : String) : Option ℕ := if key = "" then none else digits 0 key.toList

def Json.child (v : Json) (key : String) : Option Json :=
  match v with
  | .object members => members.lookup key
  | .array items => (arrayIndex key).bind fun i => items[i]?
  | _ => none

/-- The value at a place. -/
def Json.at : Json → List String → Option Json
  | v, [] => some v
  | v, key :: keys => (v.child key).bind fun child => child.at keys

end JsonValue
