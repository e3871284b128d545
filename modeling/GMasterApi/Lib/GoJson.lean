import Mathlib.Algebra.Ring.Nat
import Mathlib.Data.List.Basic
import Mathlib.Data.List.TakeWhile

/-!
# `encoding/json`: validity, and the raw elements of an array

`valid` is the scanner of the package, one state for each of its `state…`
functions and the stack of the arrays and objects around the place it is at.
`rawArray` is what `Unmarshal` into a `[]json.RawMessage` returns: the text of
each element as it stands.
-/

namespace GoJson

/-- `parseObjectKey`, `parseObjectValue` and `parseArrayValue`. -/
inductive Parse
  | objectKey
  | objectValue
  | arrayValue
  deriving DecidableEq

/-- What the scanner expects next; `word` is the rest of `true`, `false` or `null`, and
`escU n` that `n` hexadecimal digits are missing. -/
inductive State
  | beginValue
  | beginValueOrEmpty
  | beginString
  | beginStringOrEmpty
  | endValue
  | endTop
  | inString
  | inStringEsc
  | escU (n : ℕ)
  | neg
  | int
  | zero
  | dot
  | dot0
  | e
  | eSign
  | e0
  | word (rest : List Char)
  deriving DecidableEq

structure Scanner where
  state : State
  parse : List Parse
  deriving DecidableEq

def maxNestingDepth : ℕ := 10000

def isSpace (c : Char) : Bool := c = ' ' || c = '\t' || c = '\r' || c = '\n'

def isHex (c : Char) : Bool := c.isDigit || ('a' ≤ c && c ≤ 'f') || ('A' ≤ c && c ≤ 'F')

def Scanner.goto (s : Scanner) (state : State) : Option Scanner := some { s with state := state }

def Scanner.push (s : Scanner) (p : Parse) (state : State) : Option Scanner :=
  if s.parse.length < maxNestingDepth then some ⟨state, p :: s.parse⟩ else none

/-- `popParseState`. -/
def Scanner.pop (s : Scanner) : Option Scanner :=
  match s.parse with
  | [] => none
  | [_] => some ⟨.endTop, []⟩
  | _ :: rest => some ⟨.endValue, rest⟩

/-- `stateEndValue`. -/
def Scanner.endValue (s : Scanner) (c : Char) : Option Scanner :=
  match s.parse with
  | [] => if isSpace c then some ⟨.endTop, []⟩ else none
  | top :: rest =>
    if isSpace c then s.goto .endValue
    else match top with
      | .objectKey => if c = ':' then some ⟨.beginValue, .objectValue :: rest⟩ else none
      | .objectValue =>
        if c = ',' then some ⟨.beginString, .objectKey :: rest⟩
        else if c = '\x7d' then s.pop else none
      | .arrayValue =>
        if c = ',' then s.goto .beginValue else if c = ']' then s.pop else none

/-- `stateBeginValue`. -/
def Scanner.beginValue (s : Scanner) (c : Char) : Option Scanner :=
  if isSpace c then some s
  else if c = '\x7b' then s.push .objectKey .beginStringOrEmpty
  else if c = '[' then s.push .arrayValue .beginValueOrEmpty
  else if c = '"' then s.goto .inString
  else if c = '-' then s.goto .neg
  else if c = '0' then s.goto .zero
  else if c.isDigit then s.goto .int
  else if c = 't' then s.goto (.word ['r', 'u', 'e'])
  else if c = 'f' then s.goto (.word ['a', 'l', 's', 'e'])
  else if c = 'n' then s.goto (.word ['u', 'l', 'l'])
  else none

def Scanner.beginString (s : Scanner) (c : Char) : Option Scanner :=
  if isSpace c then some s else if c = '"' then s.goto .inString else none

/-- `state0`: after the digits of an integer. -/
def Scanner.afterInt (s : Scanner) (c : Char) : Option Scanner :=
  if c = '.' then s.goto .dot else if c = 'e' || c = 'E' then s.goto .e else s.endValue c

/-- One character; `none` is a syntax error. -/
def Scanner.step (s : Scanner) (c : Char) : Option Scanner :=
  match s.state with
  | .beginValue => s.beginValue c
  | .beginValueOrEmpty =>
    if isSpace c then some s else if c = ']' then s.endValue c else s.beginValue c
  | .beginString => s.beginString c
  | .beginStringOrEmpty =>
    if c = '\x7d' then Scanner.endValue { s with parse := .objectValue :: s.parse.tail } c
    else s.beginString c
  | .endValue => s.endValue c
  | .endTop => if isSpace c then some s else none
  | .inString =>
    if c = '"' then s.goto .endValue
    else if c = '\\' then s.goto .inStringEsc
    else if c.toNat < 0x20 then none
    else some s
  | .inStringEsc =>
    if c = 'u' then s.goto (.escU 4)
    else if c ∈ ['b', 'f', 'n', 'r', 't', '\\', '/', '"'] then s.goto .inString
    else none
  | .escU n => if isHex c then s.goto (if n ≤ 1 then .inString else .escU (n - 1)) else none
  | .neg => if c = '0' then s.goto .zero else if c.isDigit then s.goto .int else none
  | .int => if c.isDigit then some s else s.afterInt c
  | .zero => s.afterInt c
  | .dot => if c.isDigit then s.goto .dot0 else none
  | .dot0 =>
    if c.isDigit then some s else if c = 'e' || c = 'E' then s.goto .e else s.endValue c
  | .e =>
    if c = '+' || c = '-' then s.goto .eSign else if c.isDigit then s.goto .e0 else none
  | .eSign => if c.isDigit then s.goto .e0 else none
  | .e0 => if c.isDigit then some s else s.endValue c
  | .word [] => s.endValue c
  | .word (w :: rest) =>
    if c = w then s.goto (if rest = [] then .endValue else .word rest) else none

/-- `checkValid`: the end of the text counts as a space. -/
def valid (text : List Char) : Bool :=
  match (text ++ [' ']).foldlM Scanner.step ⟨.beginValue, []⟩ with
  | some s => s.state = .endTop
  | none => false

/-- Where `rawElements` is: outside a string, in one, or after a backslash in one. -/
inductive Quote
  | outside
  | inside
  | escaped
  deriving DecidableEq

/-- The parts between the commas of an array whose `[` has been read; `depth` counts the
brackets that are open inside it. -/
def rawElements : Quote → ℕ → List Char → List Char → List (List Char)
  | _, _, cur, [] => [cur.reverse]
  | .escaped, depth, cur, c :: cs => rawElements .inside depth (c :: cur) cs
  | .inside, depth, cur, c :: cs =>
    rawElements (if c = '\\' then .escaped else if c = '"' then .outside else .inside) depth
      (c :: cur) cs
  | .outside, depth, cur, c :: cs =>
    if depth = 0 ∧ c = ',' then cur.reverse :: rawElements .outside 0 [] cs
    else if depth = 0 ∧ c = ']' then [cur.reverse]
    else
      rawElements (if c = '"' then .inside else .outside)
        (if c = '[' ∨ c = '\x7b' then depth + 1
          else if c = ']' ∨ c = '\x7d' then depth - 1 else depth)
        (c :: cur) cs

def trim (l : List Char) : List Char :=
  ((l.dropWhile isSpace).reverse.dropWhile isSpace).reverse

/-- The elements of an array, each as its own text; `none` where the text is none. -/
def rawArray (text : String) : Option (List String) :=
  match text.toList with
  | '[' :: rest =>
    if valid text.toList then
      let parts := (rawElements .outside 0 [] rest).map trim
      some (if parts = [[]] then [] else parts.map String.ofList)
    else none
  | _ => none

example : rawArray "[ \x7b\"a\": [1, 2]\x7d, \"x,]\\\"\" ,3 ]" =
    some ["\x7b\"a\": [1, 2]\x7d", "\"x,]\\\"\"", "3"] := by decide +kernel

/-! ## Lengths -/

end GoJson
