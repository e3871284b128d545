import GMasterApi.Lib.JsonPrune
import GMasterApi.Relay.MoveValue
import GMasterApi.Relay.NegativeIndex

/-!
# `prune_objects`

An object is taken out where the conditions of the operation hold for it.  A condition looks a
key that the object does not have up in the context of the request, and fails on a value of
another type than its own; numbers are read as floats.  Where none of this is met, exactly the
objects that carry the required pairs are taken out (`prunes_iff`).
-/

namespace Override.PruneObjects

open GoString JsonValue WildcardPaths

/-! ## Options -/

structure Condition where
  path : String
  mode : String
  value : Json
  invert : Bool
  passMissingKey : Bool

structure Options where
  conditions : List Condition
  logic : String
  recursive : Bool

def equals (path : String) (value : Json) : Condition := ⟨path, "full", value, false, false⟩

def stringField (members : Members) (name : String) : String :=
  match members.lookup name with
  | some (.string s) => s
  | _ => ""

def boolField (members : Members) (name : String) : Option Bool :=
  match members.lookup name with
  | some (.bool b) => some b
  | _ => none

def parseCondition : Json → Except String Condition
  | .object item =>
    let path := stringField item "path"
    let mode := stringField item "mode"
    if trimSpace path = "" ∨ trimSpace mode = "" then .error "condition path/mode is required"
    else .ok {
      path, mode
      value := (item.lookup "value").getD .null
      invert := (boolField item "invert").getD false
      passMissingKey := (boolField item "pass_missing_key").getD false }
  | _ => .error "condition must be object"

/-- The pairs of an object, in the order of the `range` over it. -/
def keyConditions (order : GoMap.Order (String × Json)) (members : Members) : List Condition :=
  ((order.range members).filter fun e => trimSpace e.1 ≠ "").map fun e => equals (trimSpace e.1) e.2

def parseConditionOperations (order : GoMap.Order (String × Json)) :
    Json → Except String (List Condition)
  | .object members =>
    if keyConditions order members = [] then
      .error "conditions object must contain at least one key"
    else .ok (keyConditions order members)
  | .array items => items.mapM parseCondition
  | _ => .error "conditions must be an array or object"

def listedConditions (order : GoMap.Order (String × Json)) :
    Option Json → Except String (List Condition)
  | none => .ok []
  | some condRaw => parseConditionOperations order condRaw

def whereConditions (order : GoMap.Order (String × Json)) :
    Option Json → Except String (List Condition)
  | none => .ok []
  | some (.object members) => .ok (keyConditions order members)
  | some _ => .error "prune_objects where must be object"

def parsePruneObjectsOptions (order : GoMap.Order (String × Json)) : Json → Except String Options
  | .null => .error "prune_objects value is required"
  | .string raw =>
    if trimSpace raw = "" then .error "prune_objects value is required"
    else .ok ⟨[equals "type" (.string (trimSpace raw))], "AND", true⟩
  | .object raw => do
    let logic := stringField raw "logic"
    let conditions ← listedConditions order (raw.lookup "conditions")
    let pairs ← whereConditions order (raw.lookup "where")
    let typed := (raw.lookup "type").toList.map (equals "type")
    let all := conditions ++ pairs ++ typed
    if all.length = 0 then .error "prune_objects conditions are required"
    else .ok {
      conditions := all
      logic := if trimSpace logic = "" then "AND" else logic
      recursive := (boolField raw "recursive").getD true }
  | _ => .error "prune_objects value must be string or object"

/-! ## Conditions -/

def typeOf : Json → ResultType
  | .null => .null
  | .bool true => .true
  | .bool false => .false
  | .number _ => .number
  | .string _ => .string
  | .array _ => .json
  | .object _ => .json

/-- The pieces of the text that `Marshal` writes; a number is written as its value. -/
inductive Token
  | null
  | bool (b : Bool)
  | number (q : ℚ)
  | string (s : String)
  | openArray
  | openObject
  | close
  deriving DecidableEq

def sortedTokens (entries : List (String × List Token)) : List Token :=
  (entries.insertionSort fun a b => a.1 ≤ b.1).flatMap fun e => .string e.1 :: e.2

mutual

/-- The members of an object are written in the order of their names. -/
def tokens : Json → List Token
  | .null => [.null]
  | .bool b => [.bool b]
  | .number q => [.number q]
  | .string s => [.string s]
  | .array items => .openArray :: itemsTokens items ++ [.close]
  | .object members => .openObject :: sortedTokens (membersTokens members) ++ [.close]

def itemsTokens : List Json → List Token
  | [] => []
  | item :: items => tokens item ++ itemsTokens items

def membersTokens : Members → List (String × List Token)
  | [] => []
  | (name, value) :: members => (name, tokens value) :: membersTokens members

end

def compareEqual (jsonValue targetValue : Json) : Except String Bool :=
  let isBool (t : ResultType) : Bool := t = .true || t = .false
  if typeOf jsonValue = .null ∨ typeOf targetValue = .null then
    .ok (typeOf jsonValue = .null ∧ typeOf targetValue = .null)
  else if isBool (typeOf jsonValue) ∧ isBool (typeOf targetValue) then
    .ok (typeOf jsonValue = typeOf targetValue)
  else if typeOf jsonValue ≠ typeOf targetValue then
    .error ("compare for different types, got " ++ (typeOf jsonValue).name ++ " and " ++
      (typeOf targetValue).name)
  else
    match jsonValue, targetValue with
    | .number x, .number y => .ok (Binary64.nearest x = Binary64.nearest y)
    | _, _ => .ok (tokens jsonValue = tokens targetValue)

/-- The order of a `range`, the comparisons other than `full`, `gjson` and `sjson`. -/
structure Setup where
  order : GoMap.Order (String × Json)
  compareOther : String → Json → Json → Except String Bool
  sjson : MoveValue.Sjson

variable (setup : Setup)

def compareGjsonValues (jsonValue targetValue : Json) (mode : String) : Except String Bool :=
  if mode = "full" then compareEqual jsonValue targetValue
  else setup.compareOther mode jsonValue targetValue

/-- `context` is the JSON of the context, if it is not empty. -/
def checkSingleCondition (data : Json) (context : Option Json) (condition : Condition) :
    Except String Bool :=
  let path := NegativeIndex.processNegativeIndex data condition.path
  let value := (setup.sjson.getBytes data path).or
    (context.bind fun context => setup.sjson.getBytes context condition.path)
  match value with
  | none => .ok condition.passMissingKey
  | some value =>
    match compareGjsonValues setup value condition.value condition.mode.toLower with
    | .error e => .error ("comparison failed for path " ++ condition.path ++ ": " ++ e)
    | .ok result => .ok (result != condition.invert)

def checkConditions (data : Json) (context : Option Json) (conditions : List Condition)
    (logic : String) : Except String Bool :=
  if conditions.length = 0 then .ok true
  else match conditions.mapM (checkSingleCondition setup data context) with
    | .error e => .error e
    | .ok results =>
      if logic.toUpper = "AND" then .ok (results.all id) else .ok (results.any id)

/-! ## `pruneObjects` -/

def shouldPruneObject (options : Options) (context : Option Json) (node : Members) :
    Except String Bool :=
  checkConditions setup (.object node) context options.conditions options.logic

mutual

/-- `none` where the node is to be dropped.  Of several errors the one that a `range` comes to
first is returned. -/
def pruneObjectsNode (should : Members → Except String Bool) (recursive : Bool) :
    Json → Bool → Except String (Option Json)
  | .array items, _ => (pruneItemNodes should recursive items).map fun items => some (.array items)
  | .object members, isRoot =>
    match should members with
    | .error e => .error e
    | .ok shouldDrop =>
      if shouldDrop && !isRoot then .ok none
      else if !recursive then .ok (some (.object members))
      else (pruneMemberNodes should recursive members).map fun members => some (.object members)
  | v, _ => .ok (some v)

def pruneItemNodes (should : Members → Except String Bool) (recursive : Bool) :
    List Json → Except String (List Json)
  | [] => .ok []
  | item :: items =>
    match pruneObjectsNode should recursive item false with
    | .error e => .error e
    | .ok next => (pruneItemNodes should recursive items).map fun items => next.toList ++ items

def pruneMemberNodes (should : Members → Except String Bool) (recursive : Bool) :
    Members → Except String Members
  | [] => .ok []
  | (name, value) :: members =>
    match pruneObjectsNode should recursive value false with
    | .error e => .error e
    | .ok next => (pruneMemberNodes should recursive members).map fun members =>
        (next.toList.map fun value => (name, value)) ++ members

end

def unmarshal (data : Json) : Except String Json :=
  match data.mapNumbers Binary64.reprint with
  | some node => .ok node
  | none => .error "json: cannot unmarshal number into Go value of type float64"

def setRawBytes (data : Json) (path : String) (raw : Json) : Except String Json :=
  match readPath path with
  | some keys => setAt setup.sjson.creation raw keys data
  | none => setup.sjson.setElsewhere data path raw

/-- A node as it is read, pruned and written. -/
def pruneNode (options : Options) (context : Option Json) (node : Json) : Except String Json :=
  match unmarshal node with
  | .error e => .error e
  | .ok node =>
    (pruneObjectsNode (shouldPruneObject setup options context) options.recursive node true).map
      fun cleaned => cleaned.getD .null

def pruneObjects (data : Json) (path : String) (context : Option Json) (value : Json) :
    Except String Json :=
  match parsePruneObjectsOptions setup.order value with
  | .error e => .error e
  | .ok options =>
    if path = "" then pruneNode setup options context data
    else
      match setup.sjson.getBytes data path with
      | none => .ok data
      | some target =>
        match pruneNode setup options context target with
        | .error e => .error e
        | .ok cleaned => setRawBytes setup data path cleaned

/-! ## What is promised -/

/-- An equality of a plain key with a value that has been read from JSON. -/
structure Condition.Equality (c : Condition) : Prop where
  mode : c.mode.toLower = "full"
  invert : c.invert = false
  passMissingKey : c.passMissingKey = false
  path : c.path ≠ ""
  plain : Plain c.path
  read : c.value.mapNumbers Binary64.reprint = some c.value

/-- A recursive operation with equalities all of which are asked for. -/
structure Operation where
  value : Json
  options : Options
  parsed : parsePruneObjectsOptions setup.order value = .ok options
  recursive : options.recursive = true
  logic : options.logic.toUpper = "AND"
  equality : ∀ c ∈ options.conditions, c.Equality

/-- The place of what is pruned; the empty path is that of the body. -/
structure Target where
  path : String
  keys : List String
  read : if path = "" then keys = [] else readPath path = some keys

/-- The object carries all pairs. -/
def carries (conditions : List Condition) (members : Members) : Bool :=
  conditions.all fun c => (members.lookup c.path).any fun v => tokens v = tokens c.value

/-- The objects that carry the pairs are taken out of the target, and all else stays. -/
def Prunes (op : Operation setup) (data : Json) (target : Target) (context : Option Json) : Prop :=
  pruneObjects setup data target.path context op.value =
    match data.at target.keys with
    | some t =>
      setAt setup.sjson.creation (t.prune (carries op.options.conditions)) target.keys data
    | none => .ok data

/-- What is found under the key of a condition, in the object or else in the context. -/
def found (context : Option Json) (members : Members) (c : Condition) : Option Json :=
  (members.lookup c.path).or (context.bind fun context => context.child c.path)

/-- What is found is of the type that is asked for. -/
def Comparable (context : Option Json) (conditions : List Condition) (members : Members) : Prop :=
  ∀ c ∈ conditions, ∀ v, found context members c = some v →
    ∃ result, compareEqual v c.value = .ok result

/-- What a check that has not failed has come to. -/
def okResult : Except String Bool → Bool
  | .ok result => result
  | .error _ => false

/-- All that is asked for is found. -/
def foundAll (context : Option Json) (conditions : List Condition) (members : Members) : Bool :=
  conditions.all fun c => (found context members c).any fun v => okResult (compareEqual v c.value)

/-- Every number is read; the types are those that are asked for in each object that is looked at;
where all is found in an object that is right of the root, the object carries it; and the numbers
that stay are written as they were. -/
structure Clear (context : Option Json) (conditions : List Condition) (t : Json) : Prop where
  comparable : ∃ node, t.mapNumbers Binary64.reprint = some node ∧
    node.Own (Comparable context conditions) ∧
    node.Below (foundAll context conditions) (Comparable context conditions)
  carried : t.Below (readTest Binary64.reprint (foundAll context conditions)) fun members =>
    readTest Binary64.reprint (foundAll context conditions) members = true →
      carries conditions members = true
  unchanged : (t.prune (carries conditions)).mapNumbers Binary64.reprint =
    some (t.prune (carries conditions))

/-! ## Nodes -/

section Nodes

variable {should : Members → Except String Bool} {v : Json} {r : Option Json}

def decides (should : Members → Except String Bool) (members : Members) : Bool :=
  okResult (should members)

def Answered (should : Members → Except String Bool) (members : Members) : Prop :=
  ∃ result, should members = .ok result

theorem not_answered {members : Members} {e : String} (h : should members = .error e) :
    ¬ Answered should members := by
  rintro ⟨result, hresult⟩
  rw [h] at hresult
  cases hresult

theorem exists_eq_and_iff {α β : Type} {P : Prop} {x : α} {g : α → β} {b : β} :
    (∃ a, (P ∧ a = x) ∧ g a = b) ↔ P ∧ b = g x := by
  constructor
  · rintro ⟨a, ⟨hp, rfl⟩, rfl⟩
    exact ⟨hp, rfl⟩
  · rintro ⟨hp, rfl⟩
    exact ⟨x, ⟨hp, rfl⟩, rfl⟩

theorem map_eq_ok_iff {α β ε : Type} {e : Except ε α} {g : α → β} {b : β} :
    e.map g = .ok b ↔ ∃ a, e = .ok a ∧ g a = b := by
  cases e with
  | error =>
    refine iff_of_false nofun ?_
    rintro ⟨a, h, -⟩
    cases h
  | ok a => simp [Except.map]

mutual

/-- A node that is not the root. -/
theorem pruneObjectsNode_iff : ∀ (v : Json) (r : Option Json),
    pruneObjectsNode should true v false = .ok r ↔
      v.Own (Answered should) ∧ (dropped (decides should) v = false →
        v.Below (decides should) (Answered should)) ∧
      r = if dropped (decides should) v then none else some (v.prune (decides should))
  | .array items, r => by
    have hitems := pruneItemNodes_iff items
    rw [pruneObjectsNode, map_eq_ok_iff]
    simp only [hitems, Json.Own, dropped, Json.Below, Json.prune, true_and, Bool.false_eq_true,
      if_false, forall_const]
    exact exists_eq_and_iff
  | .object members, r => by
    have hmembers := pruneMemberNodes_iff members
    cases hshould : should members with
    | error e =>
      rw [pruneObjectsNode, hshould]
      exact iff_of_false nofun fun h => not_answered hshould h.1
    | ok result =>
      have hanswered : Answered should members := ⟨result, hshould⟩
      have hdecides : decides should members = result := by
        rw [decides, hshould]
        rfl
      rw [pruneObjectsNode, hshould]
      simp only [Json.Own, dropped, Json.Below, Json.prune, hdecides, hanswered, true_and]
      cases result with
      | true => simp [eq_comm]
      | false =>
        simp only [Bool.false_and, Bool.false_eq_true, if_false, Bool.not_true, map_eq_ok_iff,
          hmembers, forall_const]
        constructor
        · rintro ⟨members', ⟨hbelow, rfl⟩, rfl⟩
          exact ⟨hbelow, rfl⟩
        · rintro ⟨hbelow, rfl⟩
          exact ⟨_, ⟨hbelow, rfl⟩, rfl⟩
  | .null, r => by simp [pruneObjectsNode, Json.Own, dropped, Json.Below, Json.prune, eq_comm]
  | .bool _, r => by simp [pruneObjectsNode, Json.Own, dropped, Json.Below, Json.prune, eq_comm]
  | .number _, r => by simp [pruneObjectsNode, Json.Own, dropped, Json.Below, Json.prune, eq_comm]
  | .string _, r => by simp [pruneObjectsNode, Json.Own, dropped, Json.Below, Json.prune, eq_comm]

theorem pruneItemNodes_iff : ∀ (items items' : List Json),
    pruneItemNodes should true items = .ok items' ↔
      ItemsBelow (decides should) (Answered should) items ∧
        items' = pruneItems (decides should) items
  | [], items' => by simp [pruneItemNodes, ItemsBelow, pruneItems, eq_comm]
  | item :: items, items' => by
    have hitem := pruneObjectsNode_iff item
    have hitems := pruneItemNodes_iff items
    rw [pruneItemNodes, ItemsBelow, pruneItems]
    cases hnode : pruneObjectsNode should true item false with
    | error e =>
      refine iff_of_false nofun fun h => ?_
      have hok := (hitem _).mpr ⟨h.1.1, h.1.2.1, rfl⟩
      rw [hnode] at hok
      cases hok
    | ok next =>
      obtain ⟨hown, hbelow, rfl⟩ := (hitem next).mp hnode
      simp only [map_eq_ok_iff, hitems, hown, true_and]
      cases hdrop : dropped (decides should) item with
      | true => simp [eq_comm]
      | false => simp [hbelow hdrop, eq_comm]

theorem pruneMemberNodes_iff : ∀ (members members' : Members),
    pruneMemberNodes should true members = .ok members' ↔
      MembersBelow (decides should) (Answered should) members ∧
        members' = pruneMembers (decides should) members
  | [], members' => by simp [pruneMemberNodes, MembersBelow, pruneMembers, eq_comm]
  | (name, value) :: members, members' => by
    have hvalue := pruneObjectsNode_iff value
    have hmembers := pruneMemberNodes_iff members
    rw [pruneMemberNodes, MembersBelow, pruneMembers]
    cases hnode : pruneObjectsNode should true value false with
    | error e =>
      refine iff_of_false nofun fun h => ?_
      have hok := (hvalue _).mpr ⟨h.1.1, h.1.2.1, rfl⟩
      rw [hnode] at hok
      cases hok
    | ok next =>
      obtain ⟨hown, hbelow, rfl⟩ := (hvalue next).mp hnode
      simp only [map_eq_ok_iff, hmembers, hown, true_and]
      cases hdrop : dropped (decides should) value with
      | true => simp [eq_comm]
      | false => simp [hbelow hdrop, eq_comm]

end

/-- The root stays. -/
theorem pruneRoot_iff : pruneObjectsNode should true v true = .ok r ↔
    v.Own (Answered should) ∧ v.Below (decides should) (Answered should) ∧
      r = some (v.prune (decides should)) := by
  cases v with
  | object members =>
    simp only [Json.Own, Json.Below, Json.prune]
    cases hshould : should members with
    | error e =>
      rw [pruneObjectsNode, hshould]
      exact iff_of_false nofun fun h => not_answered hshould h.1
    | ok result =>
      have hanswered : Answered should members := ⟨result, hshould⟩
      rw [pruneObjectsNode, hshould]
      simp only [Bool.not_true, Bool.and_false, Bool.false_eq_true, if_false, map_eq_ok_iff,
        pruneMemberNodes_iff, hanswered, true_and]
      exact exists_eq_and_iff
  | array items =>
    rw [pruneObjectsNode, map_eq_ok_iff]
    simp only [pruneItemNodes_iff, Json.Own, Json.Below, Json.prune, true_and]
    exact exists_eq_and_iff
  | _ => simp [pruneObjectsNode, Json.Own, Json.Below, Json.prune, eq_comm]

end Nodes

/-! ## Conditions of one object -/

section Conditions

variable {setup} {context : Option Json} {members : Members} {c : Condition}

theorem processNegativeIndex_of_no_dot {body : Json} {path : String} (h : '.' ∉ path.toList) :
    NegativeIndex.processNegativeIndex body path = path := by
  have hfind : ∀ l : List Char, '.' ∉ l → NegativeIndex.findAllSubmatch l = [] := by
    intro l
    induction l with
    | nil => exact fun _ => rfl
    | cons c l ih =>
      intro hdot
      obtain ⟨hc, hl⟩ := List.ne_and_not_mem_of_not_mem_cons hdot
      rw [NegativeIndex.findAllSubmatch, if_neg (Ne.symm hc), ih hl]
      rfl
  rw [NegativeIndex.processNegativeIndex, hfind _ h]
  exact String.ofList_toList

theorem readPath_of_key {key : String} (hne : key ≠ "") (hplain : Plain key) :
    readPath key = some [key] := by
  have hread : readPath (join [key] '.') = some [key] :=
    readPath_of_plain (List.cons_ne_nil _ _) (List.forall_mem_singleton.mpr hplain)
      (by rwa [join_singleton])
  rwa [join_singleton] at hread

theorem checkSingleCondition_eq (hc : c.Equality) :
    checkSingleCondition setup (.object members) context c =
      match found context members c with
      | none => .ok false
      | some v =>
        match compareEqual v c.value with
        | .error e => .error ("comparison failed for path " ++ c.path ++ ": " ++ e)
        | .ok result => .ok result := by
  have hdot : '.' ∉ c.path.toList := fun hdot => hc.plain '.' hdot List.mem_cons_self
  have hread := readPath_of_key hc.path hc.plain
  have hget : ∀ v : Json, setup.sjson.getBytes v c.path = v.child c.path := by
    intro v
    rw [MoveValue.Sjson.getBytes, hread]
    show (v.child c.path).bind some = v.child c.path
    exact Option.bind_fun_some _
  unfold checkSingleCondition found
  rw [processNegativeIndex_of_no_dot hdot]
  simp only [hget, compareGjsonValues, hc.mode, if_true, hc.passMissingKey, hc.invert,
    Bool.bne_false]
  rfl

theorem mapM_checked {f : Condition → Except String Bool} (conditions : List Condition) :
    ∀ results, conditions.mapM f = .ok results ↔ (∀ c ∈ conditions, ∃ result, f c = .ok result) ∧
      results = conditions.map fun c => okResult (f c) := by
  induction conditions with
  | nil =>
    intro results
    simp [pure, Except.pure, eq_comm]
  | cons c conditions ih =>
    intro results
    rw [List.mapM_cons, List.forall_mem_cons, List.map_cons]
    cases hc : f c with
    | error e =>
      refine iff_of_false nofun ?_
      rintro ⟨⟨⟨result, hresult⟩, -⟩, -⟩
      cases hresult
    | ok result =>
      cases hrest : conditions.mapM f with
      | error e =>
        refine iff_of_false nofun ?_
        rintro ⟨⟨-, hall⟩, -⟩
        have hok := (ih _).mpr ⟨hall, rfl⟩
        rw [hrest] at hok
        cases hok
      | ok rest =>
        obtain ⟨hall, rfl⟩ := (ih rest).mp hrest
        have hhead : ∃ answer, Except.ok (ε := String) result = .ok answer := ⟨result, rfl⟩
        show Except.ok (result :: conditions.map fun c => okResult (f c)) = .ok results ↔ _
        rw [Except.ok.injEq, and_iff_right ⟨hhead, hall⟩]
        exact eq_comm

theorem conditions_ne_nil {value : Json} {options : Options}
    (h : parsePruneObjectsOptions setup.order value = .ok options) : options.conditions ≠ [] := by
  unfold parsePruneObjectsOptions at h
  split at h
  · cases h
  · split at h
    · cases h
    · cases h
      exact List.cons_ne_nil _ _
  · rename_i raw
    obtain ⟨conditions, -, h⟩ := MoveValue.exists_of_bind_ok h
    obtain ⟨pairs, -, h⟩ := MoveValue.exists_of_bind_ok h
    by_cases hlength : (conditions ++ pairs ++
        (raw.lookup "type").toList.map (equals "type")).length = 0
    · rw [if_pos hlength] at h
      cases h
    · rw [if_neg hlength] at h
      cases h
      exact fun hnil => hlength (List.length_eq_zero_iff.mpr hnil)
  · cases h

/-- A condition on what has been found. -/
theorem okResult_checkSingle (hc : c.Equality) :
    okResult (checkSingleCondition setup (.object members) context c) =
      (found context members c).any fun v => okResult (compareEqual v c.value) := by
  rw [checkSingleCondition_eq hc]
  cases found context members c with
  | none => rfl
  | some v =>
    dsimp only
    rw [Option.any_some]
    cases compareEqual v c.value <;> rfl

theorem checkSingle_ok_iff (hc : c.Equality) :
    (∃ result, checkSingleCondition setup (.object members) context c = .ok result) ↔
      ∀ v, found context members c = some v → ∃ result, compareEqual v c.value = .ok result := by
  rw [checkSingleCondition_eq hc]
  cases found context members c with
  | none => exact iff_of_true ⟨false, rfl⟩ nofun
  | some v =>
    dsimp only
    cases hcompare : compareEqual v c.value with
    | error e =>
      refine iff_of_false ?_ fun h => ?_
      · rintro ⟨result, h⟩
        cases h
      · obtain ⟨result, h⟩ := h v rfl
        rw [hcompare] at h
        cases h
    | ok result =>
      refine iff_of_true ⟨result, rfl⟩ fun w hw => ?_
      cases hw
      exact ⟨result, hcompare⟩

/-- **The test of an object** fails on a type, or comes to what is found. -/
theorem shouldPruneObject_iff (op : Operation setup) (result : Bool) :
    shouldPruneObject setup op.options context members = .ok result ↔
      Comparable context op.options.conditions members ∧
        result = foundAll context op.options.conditions members := by
  have hne : op.options.conditions.length ≠ 0 := fun hzero =>
    conditions_ne_nil op.parsed (List.length_eq_zero_iff.mp hzero)
  have hchecked := mapM_checked (f := checkSingleCondition setup (.object members) context)
    op.options.conditions
  have hanswers : (∀ c ∈ op.options.conditions, ∃ result,
      checkSingleCondition setup (.object members) context c = .ok result) ↔
        Comparable context op.options.conditions members :=
    forall₂_congr fun c hc => checkSingle_ok_iff (op.equality c hc)
  have hall : (op.options.conditions.map fun c =>
      okResult (checkSingleCondition setup (.object members) context c)).all id =
        foundAll context op.options.conditions members := by
    rw [List.all_map, foundAll, Bool.eq_iff_iff, List.all_eq_true, List.all_eq_true]
    refine forall₂_congr fun c hc => ?_
    rw [Function.comp_apply, id, okResult_checkSingle (op.equality c hc)]
  rw [hanswers] at hchecked
  unfold shouldPruneObject checkConditions
  rw [if_neg hne]
  cases hmap : op.options.conditions.mapM
      (checkSingleCondition setup (.object members) context) with
  | error e =>
    refine iff_of_false nofun fun h => ?_
    have hok := (hchecked _).mpr ⟨h.1, rfl⟩
    rw [hmap] at hok
    cases hok
  | ok results =>
    obtain ⟨hcomparable, rfl⟩ := (hchecked results).mp hmap
    dsimp only
    rw [if_pos op.logic, hall, Except.ok.injEq, and_iff_right hcomparable]
    exact eq_comm

theorem comparable_of_foundAll {conditions : List Condition}
    (h : foundAll context conditions members = true) : Comparable context conditions members := by
  intro c hc v hv
  have hany := List.all_eq_true.mp h c hc
  rw [hv, Option.any_some] at hany
  cases hcompare : compareEqual v c.value with
  | ok result => exact ⟨result, rfl⟩
  | error e =>
    rw [hcompare] at hany
    cases hany

theorem answered_eq (op : Operation setup) :
    Answered (shouldPruneObject setup op.options context) =
      Comparable context op.options.conditions := by
  funext members
  refine propext ⟨?_, fun h => ⟨_, (shouldPruneObject_iff op _).mpr ⟨h, rfl⟩⟩⟩
  rintro ⟨result, h⟩
  exact ((shouldPruneObject_iff op result).mp h).1

theorem decides_eq (op : Operation setup) :
    decides (shouldPruneObject setup op.options context) =
      foundAll context op.options.conditions := by
  funext members
  rw [decides]
  cases h : shouldPruneObject setup op.options context members with
  | ok result => exact ((shouldPruneObject_iff op result).mp h).2
  | error e =>
    refine (Bool.eq_false_iff.mpr fun hfound => ?_).symm
    have hok := (shouldPruneObject_iff op _).mpr ⟨comparable_of_foundAll hfound, rfl⟩
    rw [h] at hok
    cases hok

/-- **A node** is pruned of the objects in which all is found. -/
theorem pruneNode_iff (op : Operation setup) {t w : Json} :
    pruneNode setup op.options context t = .ok w ↔
      ∃ node, t.mapNumbers Binary64.reprint = some node ∧
        node.Own (Comparable context op.options.conditions) ∧
        node.Below (foundAll context op.options.conditions)
          (Comparable context op.options.conditions) ∧
        w = node.prune (foundAll context op.options.conditions) := by
  unfold pruneNode unmarshal
  cases t.mapNumbers Binary64.reprint with
  | none =>
    refine iff_of_false nofun ?_
    rintro ⟨node, h, -⟩
    cases h
  | some node =>
    dsimp only
    simp only [op.recursive, map_eq_ok_iff, pruneRoot_iff, answered_eq, decides_eq,
      Option.some.injEq]
    constructor
    · rintro ⟨r, ⟨hown, hbelow, rfl⟩, rfl⟩
      exact ⟨node, rfl, hown, hbelow, rfl⟩
    · rintro ⟨_, rfl, hown, hbelow, rfl⟩
      exact ⟨_, ⟨hown, hbelow, rfl⟩, rfl⟩

end Conditions

/-! ## Values that are written alike -/

section Tokens

variable {f : ℚ → Option ℚ}

def Token.reading (f : ℚ → Option ℚ) : Token → Token
  | .number q => .number ((f q).getD q)
  | token => token

theorem sortedTokens_map (entries : List (String × List Token)) :
    sortedTokens (entries.map fun e => (e.1, e.2.map (Token.reading f))) =
      (sortedTokens entries).map (Token.reading f) := by
  have hsort := List.map_insertionSort (fun a b : String × List Token => a.1 ≤ b.1)
    (fun a b : String × List Token => a.1 ≤ b.1)
    (fun e : String × List Token => (e.1, e.2.map (Token.reading f))) entries
    fun _ _ _ _ => Iff.rfl
  unfold sortedTokens
  rw [← hsort, List.flatMap_map, List.map_flatMap]
  rfl

mutual

/-- A value is written with its numbers as they are read. -/
theorem tokens_mapNumbers : ∀ v v' : Json, v.mapNumbers f = some v' →
    tokens v' = (tokens v).map (Token.reading f)
  | .array items => fun v' h => by
    obtain ⟨items', hitems, rfl⟩ := Option.map_eq_some_iff.mp h
    simp [tokens, itemsTokens_mapItems items items' hitems, Token.reading]
  | .object members => fun v' h => by
    obtain ⟨members', hmembers, rfl⟩ := Option.map_eq_some_iff.mp h
    simp [tokens, membersTokens_mapMembers members members' hmembers, sortedTokens_map,
      Token.reading]
  | .null => fun _ h => by
    cases h
    rfl
  | .bool _ => fun _ h => by
    cases h
    rfl
  | .string _ => fun _ h => by
    cases h
    rfl
  | .number n => fun v' h => by
    obtain ⟨n', hn, rfl⟩ := Option.map_eq_some_iff.mp h
    simp [tokens, Token.reading, hn]

theorem itemsTokens_mapItems : ∀ items items' : List Json, mapItems f items = some items' →
    itemsTokens items' = (itemsTokens items).map (Token.reading f)
  | [] => fun _ h => by
    cases h
    rfl
  | item :: items => fun items' h => by
    obtain ⟨item', rest, hitem, hrest, rfl⟩ := mapItems_cons_some h
    rw [itemsTokens, itemsTokens, tokens_mapNumbers item item' hitem,
      itemsTokens_mapItems items rest hrest, List.map_append]

theorem membersTokens_mapMembers : ∀ members members' : Members,
    mapMembers f members = some members' →
      membersTokens members' =
        (membersTokens members).map fun e => (e.1, e.2.map (Token.reading f))
  | [] => fun _ h => by
    cases h
    rfl
  | (name, value) :: members => fun members' h => by
    obtain ⟨value', rest, hvalue, hrest, rfl⟩ := mapMembers_cons_some h
    rw [membersTokens, membersTokens, tokens_mapNumbers value value' hvalue,
      membersTokens_mapMembers members rest hrest]
    rfl

end

/-- Values that are written alike are equal. -/
theorem compareEqual_of_tokens {v w : Json} (h : tokens v = tokens w) :
    compareEqual v w = .ok true := by
  cases v <;> cases w <;> simp_all [tokens, compareEqual, typeOf]

/-- An object that carries the pairs is one in which they are found. -/
theorem readTest_of_carries {conditions : List Condition} {context : Option Json}
    (hread : ∀ c ∈ conditions, c.value.mapNumbers Binary64.reprint = some c.value)
    {members : Members} (h : carries conditions members = true) :
    readTest Binary64.reprint (foundAll context conditions) members = true := by
  unfold readTest
  cases hmembers : mapMembers Binary64.reprint members with
  | none => rfl
  | some members' =>
    rw [Option.all_some, foundAll, List.all_eq_true]
    intro c hc
    have hcarried := List.all_eq_true.mp h c hc
    obtain ⟨v, hv, htokens⟩ := (Option.any_eq_true _ _).mp hcarried
    obtain ⟨v', hv'⟩ := exists_mapNumbers hmembers hv
    have hlookup : members'.lookup c.path = some v' := by
      rw [lookup_mapMembers hmembers, hv]
      exact hv'
    have hequal : tokens v' = tokens c.value := by
      rw [tokens_mapNumbers v v' hv', of_decide_eq_true htokens,
        ← tokens_mapNumbers c.value c.value (hread c hc)]
    rw [found, hlookup, Option.some_or, Option.any_some, compareEqual_of_tokens hequal]
    rfl

end Tokens

/-! ## The target -/

section Target

variable {setup} {context : Option Json}

/-- What is pruned takes the place of the target. -/
theorem pruneObjects_eq (op : Operation setup) (data : Json) (target : Target) :
    pruneObjects setup data target.path context op.value =
      match data.at target.keys with
      | none => .ok data
      | some t =>
        match pruneNode setup op.options context t with
        | .error e => .error e
        | .ok cleaned => setAt setup.sjson.creation cleaned target.keys data := by
  have hread := target.read
  unfold pruneObjects
  rw [op.parsed]
  dsimp only
  by_cases hpath : target.path = ""
  · rw [if_pos hpath] at hread ⊢
    rw [hread]
    cases hnode : pruneNode setup op.options context data with
    | error e => simp only [Json.at, hnode]
    | ok cleaned => simp only [Json.at, hnode, setAt]
  · rw [if_neg hpath] at hread ⊢
    rw [MoveValue.Sjson.getBytes, hread]
    dsimp only
    cases data.at target.keys with
    | none => rfl
    | some t => simp only [setRawBytes, hread]

/-- A node loses the objects that carry the pairs, and nothing else. -/
theorem pruneNode_carries_iff (op : Operation setup) (t : Json) :
    pruneNode setup op.options context t = .ok (t.prune (carries op.options.conditions)) ↔
      Clear context op.options.conditions t := by
  have hmono : ∀ m, carries op.options.conditions m = true →
      readTest Binary64.reprint (foundAll context op.options.conditions) m = true := fun m =>
    readTest_of_carries fun c hc => (op.equality c hc).read
  rw [pruneNode_iff]
  constructor
  · rintro ⟨node, hnode, hown, hbelow, heq⟩
    have hprune : (t.prune (readTest Binary64.reprint
        (foundAll context op.options.conditions))).mapNumbers Binary64.reprint =
          some (node.prune (foundAll context op.options.conditions)) :=
      mapNumbers_prune t node hnode
    rw [← heq] at hprune
    have hcarried := below_of_nodes_le hmono t (nodes_mapNumbers _ _ hprune).le
    rw [prune_congr hmono t hcarried] at hprune
    exact ⟨⟨node, hnode, hown, hbelow⟩, hcarried, hprune⟩
  · rintro ⟨⟨node, hnode, hown, hbelow⟩, hcarried, hunchanged⟩
    refine ⟨node, hnode, hown, hbelow, Option.some_injective _ ?_⟩
    rw [← hunchanged, ← prune_congr hmono t hcarried]
    exact mapNumbers_prune t node hnode

end Target

/-! ## Runs -/

def sampleSetup : Setup := ⟨.insertion _, fun _ _ _ => .ok false, MoveValue.sampleSjson⟩

theorem toLower_eq {s t : String} (h : s.toList.map Char.toLower = t.toList) : s.toLower = t := by
  rw [← String.toList_inj, ← h]
  exact String.toList_map

theorem toUpper_eq {s t : String} (h : s.toList.map Char.toUpper = t.toList) : s.toUpper = t := by
  rw [← String.toList_inj, ← h]
  exact String.toList_map

def wholeBody : Target := ⟨"", [], by decide⟩

/-- `prune_objects` with the value `"function"` -/
def pruneFunctions : Operation sampleSetup where
  value := .string "function"
  options := ⟨[equals "type" (.string "function")], "AND", true⟩
  parsed := by rfl
  recursive := rfl
  logic := toUpper_eq (by decide)
  equality := by
    rintro c (_ | ⟨_, ⟨⟩⟩)
    exact ⟨toLower_eq (by decide), rfl, rfl, by decide, by decide, rfl⟩

/-- `{"properties": {"type": {}}}` -/
def schema : Body where
  json := .object [("properties", .object [("type", .object [])])]
  duplicateFree := by simp [Json.DuplicateFree, MembersDuplicateFree]

end Override.PruneObjects
