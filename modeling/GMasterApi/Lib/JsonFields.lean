import GMasterApi.Lib.JsonValue

/-!
# Fields that are read from an object

`encoding/json` goes through the members of an object in turn.  A member is read into the
field that has its name, whatever the case of its letters; the last one counts, and `null`
leaves the field as it is.
-/

namespace JsonValue

/-- The letters that `encoding/json` takes for the same one. -/
def foldRune (c : Char) : Char :=
  if c = Char.ofNat 0x212A then 'k' else if c = Char.ofNat 0x017F then 's' else c.toLower

def isKey (field key : String) : Bool := key.toList.map foldRune = field.toList.map foldRune

/-- The members of a body in turn, with what a text field holds; `none` is an error. -/
def decodeText (field value : String) : Members → Option String
  | [] => some value
  | (key, member) :: rest =>
    if isKey field key then
      match member with
      | .string s => decodeText field s rest
      | .null => decodeText field value rest
      | _ => none
    else decodeText field value rest

/-- What the members have for a field that is a struct, which each of them is read into. -/
def decodeMembers (field : String) : Members → Option Members
  | [] => some []
  | (key, member) :: rest =>
    if isKey field key then
      match member with
      | .object members => (decodeMembers field rest).map fun others => members ++ others
      | .null => decodeMembers field rest
      | _ => none
    else decodeMembers field rest

end JsonValue
