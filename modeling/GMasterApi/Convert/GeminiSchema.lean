import GMasterApi.Lib.GoValue
import GMasterApi.Lib.JsonValue

/-!
# The schemas of Gemini functions

`cleanFunctionParameters` keeps of a schema, and of the schemas in it, what Gemini knows.  Of
a tuple of items it takes the first one; where that one is a list, the list stays under
`items`, and cleaning it again takes its first.  A `type` that is neither a text nor a list
stays as well.  Nothing else goes wrong (`cleaned_iff`).
-/

namespace Convert.GeminiSchema

open GoString GoValue JsonValue

/-! ## `cleanFunctionParameters` -/

def geminiOpenAPISchemaAllowedFields : List String :=
  ["anyOf", "default", "description", "enum", "example", "format", "items", "maxItems",
    "maxLength", "maxProperties", "maximum", "minItems", "minLength", "minProperties", "minimum",
    "nullable", "pattern", "properties", "propertyOrdering", "required", "title", "type"]

def geminiFunctionSchemaMaxDepth : ℕ := 64

/-- `strings.ToLower`, which is known on the letters of ASCII. -/
structure Letters where
  casing : Lower
  ascii : ∀ c, c.toNat < 128 → casing.lower c = c.toLower

/-- The name of a type, and whether it is `null`. -/
def normalize (letters : Letters) (t : String) : String × Bool :=
  match letters.casing.toLower (trimSpace t) with
  | "object" => ("OBJECT", false)
  | "array" => ("ARRAY", false)
  | "string" => ("STRING", false)
  | "integer" => ("INTEGER", false)
  | "number" => ("NUMBER", false)
  | "boolean" => ("BOOLEAN", false)
  | "null" => ("", true)
  | _ => (t, false)

/-- One item of a list of types: whether `null` was in it, and the type that is chosen. -/
def chooseType (letters : Letters) : Bool × String → Json → Bool × String
  | (nullable, chosen), .string s =>
    let (normalized, isNull) := normalize letters s
    if isNull then (true, chosen)
    else if chosen = "" then (nullable, normalized)
    else (nullable, chosen)
  | state, _ => state

def normalizeGeminiSchemaTypeAndNullable (letters : Letters) (schema : Members) : Members :=
  match schema.lookup "type" with
  | some (.string t) =>
    let (normalized, isNull) := normalize letters t
    if isNull then delete (GoMap.assign schema "nullable" (.bool true)) "type"
    else GoMap.assign schema "type" (.string normalized)
  | some (.array t) =>
    let (nullable, chosen) := t.foldl (chooseType letters) (false, "")
    let schema := if nullable then GoMap.assign schema "nullable" (.bool true) else schema
    if chosen ≠ "" then GoMap.assign schema "type" (.string chosen) else delete schema "type"
  | _ => schema

/-- The members that Gemini knows. -/
def allowed (v : Members) : Members :=
  v.filter fun member => geminiOpenAPISchemaAllowedFields.contains member.1

def cleanFunctionParametersShallow (letters : Letters) : Json → Json
  | .object v =>
    let cleanedMap := normalizeGeminiSchemaTypeAndNullable letters (allowed v)
    .object (delete (delete (delete cleanedMap "properties") "items") "anyOf")
  | .array _ => .array []
  | params => params

def cleanProperties (clean : Json → Json) (cleanedMap : Members) : Members :=
  match cleanedMap.lookup "properties" with
  | some (.object props) =>
    GoMap.assign cleanedMap "properties" (.object (props.map fun prop => (prop.1, clean prop.2)))
  | _ => cleanedMap

/-- A schema for the items is cleaned, and of a tuple the first one. -/
def cleanItems (clean : Json → Json) (cleanedMap : Members) : Members :=
  let cleanedMap :=
    match cleanedMap.lookup "items" with
    | some (.object items) => GoMap.assign cleanedMap "items" (clean (.object items))
    | _ => cleanedMap
  match cleanedMap.lookup "items" with
  | some (.array (first :: _)) => GoMap.assign cleanedMap "items" (clean first)
  | _ => cleanedMap

def cleanAnyOf (clean : Json → Json) (cleanedMap : Members) : Members :=
  match cleanedMap.lookup "anyOf" with
  | some (.array nested) => GoMap.assign cleanedMap "anyOf" (.array (nested.map clean))
  | _ => cleanedMap

/-- `cleanFunctionParametersWithDepth`, by the depth that is left. -/
def cleanWithin (letters : Letters) : ℕ → Json → Json
  | 0, params => cleanFunctionParametersShallow letters params
  | room + 1, .object v =>
    let cleanedMap := normalizeGeminiSchemaTypeAndNullable letters (allowed v)
    let cleanedMap := cleanProperties (cleanWithin letters room) cleanedMap
    let cleanedMap := cleanItems (cleanWithin letters room) cleanedMap
    .object (cleanAnyOf (cleanWithin letters room) cleanedMap)
  | room + 1, .array v => .array (v.map (cleanWithin letters room))
  | _ + 1, params => params

def cleanFunctionParametersWithDepth (letters : Letters) (params : Json) (depth : ℕ) : Json :=
  cleanWithin letters (geminiFunctionSchemaMaxDepth - depth) params

def cleanFunctionParameters (letters : Letters) (params : Json) : Json :=
  cleanFunctionParametersWithDepth letters params 0

/-! ## What is promised -/

/-- From a schema to one right under it. -/
inductive Step
  | property (name : String)
  | items
  | anyOf (i : ℕ)
  | element (i : ℕ)

/-- The schemas right under a value, where the one for the items is what is picked of it. -/
inductive Under (pick : Json → Json) : Json → Step → Json → Prop
  | property {members props name child} (h : members.lookup "properties" = some (.object props))
      (hchild : (name, child) ∈ props) : Under pick (.object members) (.property name) child
  | items {members items} (h : members.lookup "items" = some items) :
      Under pick (.object members) .items (pick items)
  | anyOf {members nested i child} (h : members.lookup "anyOf" = some (.array nested))
      (hchild : nested[i]? = some child) : Under pick (.object members) (.anyOf i) child
  | element {v i child} (hchild : v[i]? = some child) : Under pick (.array v) (.element i) child

/-- The schemas in a value, with the way to each. -/
def At (pick : Json → Json) (params : Json) : List Step → Json → Prop
  | [], node => node = params
  | step :: path, node => ∃ child, Under pick params step child ∧ At pick child path node

/-- The schema that a tuple is taken for. -/
def firstOfTuple : Json → Json
  | .array (first :: _) => first
  | items => items

/-- The schemas of the result. -/
abbrev Reached := At id

/-- The schemas that are given. -/
abbrev Given := At firstOfTuple

/-- Only fields that are known, and as the type one text or nothing. -/
def Supported (node : Json) : Prop :=
  ∀ members, node = .object members →
    (∀ member ∈ members, member.1 ∈ geminiOpenAPISchemaAllowedFields) ∧
      ∀ type, members.lookup "type" = some type → ∃ s, type = .string s

def propertyNames : Json → Option (List String)
  | .object members =>
    match members.lookup "properties" with
    | some (.object props) => some (props.map Prod.fst)
    | _ => none
  | _ => none

def anyOfLength : Json → Option ℕ
  | .object members =>
    match members.lookup "anyOf" with
    | some (.array nested) => some nested.length
    | _ => none
  | _ => none

/-- What the cleaned parameters are like. -/
structure Cleaned (letters : Letters) (params : Json) : Prop where
  supported : ∀ path node, Reached (cleanFunctionParameters letters params) path node →
    Supported node
  kept : ∀ path node, Given params path node → path.length < geminiFunctionSchemaMaxDepth →
    ∃ node', Reached (cleanFunctionParameters letters params) path node' ∧
      propertyNames node' = propertyNames node ∧ anyOfLength node' = anyOfLength node
  bounded : ∀ path node, Reached (cleanFunctionParameters letters params) path node →
    path.length ≤ geminiFunctionSchemaMaxDepth
  again : cleanFunctionParameters letters (cleanFunctionParameters letters params) =
    cleanFunctionParameters letters params

/-- The type is a text, a list or not there. -/
def TypeHandled (node : Json) : Prop :=
  ∀ members, node = .object members → ∀ type, members.lookup "type" = some type →
    (∃ s, type = .string s) ∨ ∃ types, type = .array types

/-- The first of a tuple of items is a list, and not an empty one. -/
def NestedTuple (node : Json) : Prop :=
  ∃ members first rest others, node = .object members ∧
    members.lookup "items" = some (.array (.array (first :: rest) :: others))

/-! ## The type -/

section Normalize

variable {letters : Letters} {schema : Members} {t name : String}

theorem toLower_of_ascii {lower : String} (hspace : ∀ c ∈ name.toList, isSpace c = false)
    (hascii : ∀ c ∈ name.toList, c.toNat < 128)
    (h : name.toList.map Char.toLower = lower.toList) :
    letters.casing.toLower (trimSpace name) = lower := by
  have hmap : name.toList.map letters.casing.lower = name.toList.map Char.toLower :=
    List.map_congr_left fun c hc => letters.ascii c (hascii c hc)
  rw [trimSpace_of_no_space hspace, Lower.toLower, hmap, h, String.ofList_toList]

/-- The names of the types are their own names. -/
theorem normalize_of_mem
    (h : name ∈ ["OBJECT", "ARRAY", "STRING", "INTEGER", "NUMBER", "BOOLEAN"]) :
    normalize letters name = (name, false) := by
  have hlower : ∀ lower : String,
      (name.toList.all fun c => !isSpace c && decide (c.toNat < 128)) = true →
      name.toList.map Char.toLower = lower.toList →
      letters.casing.toLower (trimSpace name) = lower := by
    intro lower hall
    have hchars : ∀ c ∈ name.toList, isSpace c = false ∧ c.toNat < 128 := by simpa using hall
    exact toLower_of_ascii (fun c hc => (hchars c hc).1) fun c hc => (hchars c hc).2
  simp only [List.mem_cons, List.not_mem_nil, or_false] at h
  unfold normalize
  rcases h with rfl | rfl | rfl | rfl | rfl | rfl
  · simp [hlower "object" (by decide) (by decide)]
  · simp [hlower "array" (by decide) (by decide)]
  · simp [hlower "string" (by decide) (by decide)]
  · simp [hlower "integer" (by decide) (by decide)]
  · simp [hlower "number" (by decide) (by decide)]
  · simp [hlower "boolean" (by decide) (by decide)]

/-- A type that was normalized stays as it is. -/
theorem normalize_normalize (h : (normalize letters t).2 = false) :
    normalize letters (normalize letters t).1 = ((normalize letters t).1, false) := by
  have hcases : (normalize letters t).1 ∈
      ["OBJECT", "ARRAY", "STRING", "INTEGER", "NUMBER", "BOOLEAN"] ∨
      normalize letters t = (t, false) := by
    unfold normalize at h ⊢
    split at h <;> simp_all
  rcases hcases with hmem | heq
  · exact normalize_of_mem hmem
  · rw [heq]
    exact heq

/-- What is chosen of a list is normalized. -/
theorem normalize_chosen (letters : Letters) (types : List Json) :
    ∀ state : Bool × String, (state.2 ≠ "" → normalize letters state.2 = (state.2, false)) →
      (types.foldl (chooseType letters) state).2 ≠ "" →
      normalize letters (types.foldl (chooseType letters) state).2 =
        ((types.foldl (chooseType letters) state).2, false) := by
  induction types with
  | nil => exact fun state h => h
  | cons type types ih =>
    rintro ⟨nullable, chosen⟩ hstate
    rw [List.foldl_cons]
    apply ih
    cases type with
    | string s =>
      unfold chooseType
      cases hnull : (normalize letters s).2 with
      | true => simpa [hnull] using hstate
      | false =>
        by_cases hchosen : chosen = ""
        · simpa [hnull, hchosen] using fun _ => normalize_normalize hnull
        · simpa [hnull, hchosen] using hstate
    | null => exact hstate
    | bool b => exact hstate
    | number value => exact hstate
    | array items => exact hstate
    | object members => exact hstate

def markNullable (nullable : Bool) (schema : Members) : Members :=
  if nullable then GoMap.assign schema "nullable" (.bool true) else schema

/-- What becomes of a schema with its type: the type goes, or it is a normal one, or it was
neither a text nor a list and nothing happens. -/
theorem normalizeGeminiSchemaTypeAndNullable_cases (letters : Letters) (schema : Members) :
    (∃ nullable, TypeHandled (.object schema) ∧
      normalizeGeminiSchemaTypeAndNullable letters schema =
        delete (markNullable nullable schema) "type") ∨
    (∃ nullable s, TypeHandled (.object schema) ∧ normalize letters s = (s, false) ∧
      normalizeGeminiSchemaTypeAndNullable letters schema =
        GoMap.assign (markNullable nullable schema) "type" (.string s)) ∨
    ((∀ s, schema.lookup "type" ≠ some (.string s)) ∧
      (∀ types, schema.lookup "type" ≠ some (.array types)) ∧
      normalizeGeminiSchemaTypeAndNullable letters schema = schema) := by
  unfold normalizeGeminiSchemaTypeAndNullable
  split
  · rename_i t htype
    have hhandled : TypeHandled (.object schema) := by
      rintro members ⟨rfl⟩ type h
      rw [htype] at h
      exact .inl ⟨t, (Option.some.inj h).symm⟩
    cases hnull : (normalize letters t).2 with
    | true => exact .inl ⟨true, hhandled, by simp [hnull, markNullable]⟩
    | false =>
      exact .inr (.inl ⟨false, (normalize letters t).1, hhandled, normalize_normalize hnull,
        by simp [hnull, markNullable]⟩)
  · rename_i types htype
    have hhandled : TypeHandled (.object schema) := by
      rintro members ⟨rfl⟩ type h
      rw [htype] at h
      exact .inr ⟨types, (Option.some.inj h).symm⟩
    have hchosen := normalize_chosen letters types (false, "") (fun h => absurd rfl h)
    generalize types.foldl (chooseType letters) (false, "") = state at hchosen ⊢
    obtain ⟨nullable, chosen⟩ := state
    by_cases hempty : chosen = ""
    · exact .inl ⟨nullable, hhandled, by simp [hempty, markNullable]⟩
    · exact .inr (.inl ⟨nullable, chosen, hhandled, hchosen hempty, by simp [hempty, markNullable]⟩)
  · rename_i hstring harray
    exact .inr (.inr ⟨hstring, harray, rfl⟩)

variable {key : String} {nullable : Bool}

theorem lookup_markNullable (h : key ≠ "nullable") :
    (markNullable nullable schema).lookup key = schema.lookup key := by
  unfold markNullable
  split
  · rw [GoMap.lookup_assign, if_neg h]
  · rfl

theorem mem_markNullable {member : String × Json} (h : member ∈ markNullable nullable schema) :
    member.1 = "nullable" ∨ member ∈ schema := by
  unfold markNullable at h
  split at h
  · rcases GoMap.mem_assign h with rfl | h
    · exact .inl rfl
    · exact .inr h
  · exact .inr h

theorem lookup_normalized (htype : key ≠ "type") (hnullable : key ≠ "nullable") :
    (normalizeGeminiSchemaTypeAndNullable letters schema).lookup key = schema.lookup key := by
  rcases normalizeGeminiSchemaTypeAndNullable_cases letters schema with
    ⟨nullable, -, heq⟩ | ⟨nullable, s, -, -, heq⟩ | ⟨-, -, heq⟩
  · rw [heq, lookup_delete, if_neg htype, lookup_markNullable hnullable]
  · rw [heq, GoMap.lookup_assign, if_neg htype, lookup_markNullable hnullable]
  · rw [heq]

/-- Only the members `type` and `nullable` are put in. -/
theorem mem_normalized {member : String × Json}
    (h : member ∈ normalizeGeminiSchemaTypeAndNullable letters schema) :
    member.1 = "type" ∨ member.1 = "nullable" ∨ member ∈ schema := by
  rcases normalizeGeminiSchemaTypeAndNullable_cases letters schema with
    ⟨nullable, -, heq⟩ | ⟨nullable, s, -, -, heq⟩ | ⟨-, -, heq⟩
  · rw [heq] at h
    exact .inr (mem_markNullable (List.mem_of_mem_filter h))
  · rw [heq] at h
    rcases GoMap.mem_assign h with rfl | h
    · exact .inl rfl
    · exact .inr (mem_markNullable h)
  · rw [heq] at h
    exact .inr (.inr h)

theorem type_normalized_iff :
    (∀ type, (normalizeGeminiSchemaTypeAndNullable letters schema).lookup "type" = some type →
      ∃ s, type = .string s) ↔ TypeHandled (.object schema) := by
  rcases normalizeGeminiSchemaTypeAndNullable_cases letters schema with
    ⟨nullable, hhandled, heq⟩ | ⟨nullable, s, hhandled, -, heq⟩ | ⟨hstring, harray, heq⟩
  · refine iff_of_true (fun type h => ?_) hhandled
    rw [heq, lookup_delete, if_pos rfl] at h
    cases h
  · refine iff_of_true (fun type h => ?_) hhandled
    rw [heq, GoMap.lookup_assign, if_pos rfl] at h
    exact ⟨s, (Option.some.inj h).symm⟩
  · rw [heq]
    constructor
    · rintro h members ⟨rfl⟩ type htype
      exact .inl (h type htype)
    · intro h type htype
      rcases h schema rfl type htype with hs | ⟨types, rfl⟩
      · exact hs
      · exact absurd htype (harray types)

/-- Normalized, with a type that has been looked at already. -/
theorem normalize_eq_self {members : Members}
    (h : members.lookup "type" =
      (normalizeGeminiSchemaTypeAndNullable letters schema).lookup "type") :
    normalizeGeminiSchemaTypeAndNullable letters members = members := by
  rcases normalizeGeminiSchemaTypeAndNullable_cases letters schema with
    ⟨nullable, -, heq⟩ | ⟨nullable, s, -, hnormal, heq⟩ | ⟨hstring, harray, heq⟩
  · rw [heq, lookup_delete, if_pos rfl] at h
    simp only [normalizeGeminiSchemaTypeAndNullable, h]
  · rw [heq, GoMap.lookup_assign, if_pos rfl] at h
    simp only [normalizeGeminiSchemaTypeAndNullable, h, hnormal, Bool.false_eq_true, if_false]
    exact GoMap.assign_eq_self h
  · rw [heq] at h
    unfold normalizeGeminiSchemaTypeAndNullable
    split
    · rename_i s hs
      exact absurd (h.symm.trans hs) (hstring s)
    · rename_i types hs
      exact absurd (h.symm.trans hs) (harray types)
    · rfl

end Normalize

/-! ## One schema -/

section Fields

variable {letters : Letters} {clean : Json → Json} {members v : Members} {key : String}

theorem lookup_allowed : (allowed v).lookup key =
    if geminiOpenAPISchemaAllowedFields.contains key then v.lookup key else none :=
  GoMap.lookup_filter

theorem allowed_eq_self (h : ∀ member ∈ v, member.1 ∈ geminiOpenAPISchemaAllowedFields) :
    allowed v = v :=
  List.filter_eq_self.mpr fun member hmember => List.contains_iff_mem.mpr (h member hmember)

/-- What is known of a schema, with its type normalized. -/
def known (letters : Letters) (v : Members) : Members :=
  normalizeGeminiSchemaTypeAndNullable letters (allowed v)

theorem mem_known {member : String × Json} (h : member ∈ known letters v) :
    member.1 ∈ geminiOpenAPISchemaAllowedFields := by
  rcases mem_normalized h with htype | hnullable | hmember
  · rw [htype]
    decide
  · rw [hnullable]
    decide
  · exact List.contains_iff_mem.mp (List.mem_filter.mp hmember).2

theorem lookup_known (hkey : key ∈ geminiOpenAPISchemaAllowedFields) (htype : key ≠ "type")
    (hnullable : key ≠ "nullable") : (known letters v).lookup key = v.lookup key := by
  rw [known, lookup_normalized htype hnullable, lookup_allowed,
    if_pos (List.contains_iff_mem.mpr hkey)]

theorem type_known_iff :
    (∀ type, (known letters v).lookup "type" = some type → ∃ s, type = .string s) ↔
      TypeHandled (.object v) := by
  have hlookup : (allowed v).lookup "type" = v.lookup "type" := by
    rw [lookup_allowed, if_pos (by decide)]
  rw [known, type_normalized_iff]
  constructor
  · rintro h members ⟨rfl⟩ type htype
    exact h _ rfl type (hlookup.trans htype)
  · rintro h members ⟨rfl⟩ type htype
    exact h _ rfl type (hlookup.symm.trans htype)

/-- Known members stay when they are cleaned again. -/
theorem known_eq_self (hknown : ∀ member ∈ members, member.1 ∈ geminiOpenAPISchemaAllowedFields)
    (htype : members.lookup "type" = (known letters v).lookup "type") :
    known letters members = members := by
  unfold known
  rw [allowed_eq_self hknown]
  exact normalize_eq_self htype

def eachProperty (clean : Json → Json) : Json → Json
  | .object props => .object (props.map fun prop => (prop.1, clean prop.2))
  | properties => properties

def ofItems (clean : Json → Json) : Json → Json
  | .object items => clean (.object items)
  | .array (first :: _) => clean first
  | items => items

def eachNested (clean : Json → Json) : Json → Json
  | .array nested => .array (nested.map clean)
  | anyOf => anyOf

theorem cleanProperties_eq :
    cleanProperties clean members = GoMap.update members "properties" (eachProperty clean) := by
  unfold cleanProperties GoMap.update
  cases h : members.lookup "properties" with
  | none => rfl
  | some properties =>
    cases properties with
    | object props => rfl
    | _ => exact (GoMap.assign_eq_self h).symm

theorem cleanAnyOf_eq :
    cleanAnyOf clean members = GoMap.update members "anyOf" (eachNested clean) := by
  unfold cleanAnyOf GoMap.update
  cases h : members.lookup "anyOf" with
  | none => rfl
  | some anyOf =>
    cases anyOf with
    | array nested => rfl
    | _ => exact (GoMap.assign_eq_self h).symm

/-- A schema that was cleaned is no tuple, so that the items are cleaned once. -/
theorem cleanItems_eq (hobject : ∀ v, ∃ v', clean (.object v) = .object v') :
    cleanItems clean members = GoMap.update members "items" (ofItems clean) := by
  unfold cleanItems GoMap.update
  cases h : members.lookup "items" with
  | none => simp only [h]
  | some items =>
    cases items with
    | object v =>
      obtain ⟨v', hv'⟩ := hobject v
      simp only [ofItems, hv', GoMap.lookup_assign, if_true]
    | array nested =>
      cases nested with
      | nil =>
        simp only [h]
        exact (GoMap.assign_eq_self h).symm
      | cons first rest => simp only [h, ofItems]
    | _ =>
      simp only [h]
      exact (GoMap.assign_eq_self h).symm

/-- The three fields that hold schemas. -/
def cleanFields (clean : Json → Json) (members : Members) : Members :=
  GoMap.update (GoMap.update (GoMap.update members "properties" (eachProperty clean)) "items"
    (ofItems clean)) "anyOf" (eachNested clean)

theorem keys_cleanFields :
    (cleanFields clean members).map Prod.fst = members.map Prod.fst := by
  rw [cleanFields, GoMap.keys_update, GoMap.keys_update, GoMap.keys_update]

theorem lookup_properties (clean : Json → Json) (members : Members) :
    (cleanFields clean members).lookup "properties" =
    (members.lookup "properties").map (eachProperty clean) := by
  simp [cleanFields, GoMap.lookup_update]

theorem lookup_items (clean : Json → Json) (members : Members) :
    (cleanFields clean members).lookup "items" =
    (members.lookup "items").map (ofItems clean) := by
  simp [cleanFields, GoMap.lookup_update]

theorem lookup_anyOf (clean : Json → Json) (members : Members) :
    (cleanFields clean members).lookup "anyOf" =
    (members.lookup "anyOf").map (eachNested clean) := by
  simp [cleanFields, GoMap.lookup_update]

theorem lookup_type : (cleanFields clean members).lookup "type" = members.lookup "type" := by
  simp [cleanFields, GoMap.lookup_update]

/-- The fields stay exactly if each of them does. -/
theorem cleanFields_eq_self_iff : cleanFields clean members = members ↔
    (∀ properties, members.lookup "properties" = some properties →
      eachProperty clean properties = properties) ∧
    (∀ items, members.lookup "items" = some items → ofItems clean items = items) ∧
    ∀ anyOf, members.lookup "anyOf" = some anyOf → eachNested clean anyOf = anyOf := by
  constructor
  · intro h
    have hproperties := lookup_properties clean members
    have hitems := lookup_items clean members
    have hanyOf := lookup_anyOf clean members
    rw [h] at hproperties hitems hanyOf
    refine ⟨fun properties hp => ?_, fun items hi => ?_, fun anyOf ha => ?_⟩
    · rw [hp] at hproperties
      exact (Option.some.inj hproperties).symm
    · rw [hi] at hitems
      exact (Option.some.inj hitems).symm
    · rw [ha] at hanyOf
      exact (Option.some.inj hanyOf).symm
  · rintro ⟨hproperties, hitems, hanyOf⟩
    rw [cleanFields, GoMap.update_eq_self hproperties, GoMap.update_eq_self hitems,
      GoMap.update_eq_self hanyOf]

end Fields

/-! ## A schema and those under it -/

section Clean

variable {letters : Letters} {room : ℕ} {v : Members} {params node : Json} {step : Step}

theorem cleanWithin_object (letters : Letters) : ∀ (room : ℕ) (v : Members), ∃ members,
    cleanWithin letters room (.object v) = .object members ∧
      (∀ member ∈ members, member.1 ∈ geminiOpenAPISchemaAllowedFields) ∧
      members.lookup "type" = (known letters v).lookup "type"
  | 0, v => by
    refine ⟨_, rfl, fun member hmember => ?_, ?_⟩
    · exact mem_known (List.mem_of_mem_filter (List.mem_of_mem_filter
        (List.mem_of_mem_filter hmember)))
    · rw [lookup_delete, if_neg (by decide), lookup_delete, if_neg (by decide), lookup_delete,
        if_neg (by decide)]
      rfl
  | room + 1, v => by
    refine ⟨cleanFields (cleanWithin letters room) (known letters v), ?_, fun member hmember => ?_,
      lookup_type⟩
    · have hobject : ∀ v, ∃ v', cleanWithin letters room (.object v) = .object v' := fun v =>
        let ⟨members, h, _⟩ := cleanWithin_object letters room v
        ⟨members, h⟩
      simp only [cleanWithin, cleanProperties_eq, cleanItems_eq hobject, cleanAnyOf_eq]
      rfl
    · have hkey : member.1 ∈ (known letters v).map Prod.fst := by
        rw [← keys_cleanFields]
        exact List.mem_map_of_mem hmember
      obtain ⟨held, hheld, hkey⟩ := List.mem_map.mp hkey
      rw [← hkey]
      exact mem_known hheld

theorem cleanWithin_succ_object : cleanWithin letters (room + 1) (.object v) =
    .object (cleanFields (cleanWithin letters room) (known letters v)) := by
  have hobject : ∀ v, ∃ v', cleanWithin letters room (.object v) = .object v' := fun v =>
    let ⟨members, h, _⟩ := cleanWithin_object letters room v
    ⟨members, h⟩
  simp only [cleanWithin, cleanProperties_eq, cleanItems_eq hobject, cleanAnyOf_eq]
  rfl

theorem eq_object_of_cleanWithin {members : Members}
    (h : cleanWithin letters room params = .object members) : ∃ v, params = .object v := by
  cases params with
  | object v => exact ⟨v, rfl⟩
  | _ => cases room <;> cases h

theorem supported_cleanWithin_iff :
    Supported (cleanWithin letters room params) ↔ TypeHandled params := by
  by_cases hobject : ∃ v, params = .object v
  · obtain ⟨v, rfl⟩ := hobject
    obtain ⟨members, heq, hknown, htype⟩ := cleanWithin_object letters room v
    rw [heq, ← @type_known_iff letters, ← htype]
    constructor
    · intro h
      exact (h members rfl).2
    · rintro h _ ⟨rfl⟩
      exact ⟨hknown, h⟩
  · constructor
    · rintro - members rfl
      exact absurd ⟨members, rfl⟩ hobject
    · intro _ members h
      exact absurd (eq_object_of_cleanWithin h) hobject

/-- The schema for the items that is cleaned. -/
theorem ofItems_eq (items : Json) :
    ofItems (cleanWithin letters room) items = cleanWithin letters room (firstOfTuple items) := by
  cases items with
  | object v => rfl
  | array nested =>
    cases nested with
    | nil => cases room <;> rfl
    | cons first rest => rfl
  | _ => cases room <;> rfl

/-- Right under what was cleaned is what was under it, cleaned. -/
theorem under_cleanWithin : Under id (cleanWithin letters (room + 1) params) step node ↔
    ∃ child, Under firstOfTuple params step child ∧ node = cleanWithin letters room child := by
  cases params with
  | object v =>
    have hproperties := lookup_properties (cleanWithin letters room) (known letters v)
    have hitems := lookup_items (cleanWithin letters room) (known letters v)
    have hanyOf := lookup_anyOf (cleanWithin letters room) (known letters v)
    rw [lookup_known (by decide) (by decide) (by decide)] at hproperties hitems hanyOf
    rw [cleanWithin_succ_object]
    constructor
    · rintro (⟨h, hchild⟩ | h | ⟨h, hchild⟩)
      · rw [hproperties] at h
        obtain ⟨properties, hv, heq⟩ := Option.map_eq_some_iff.mp h
        cases properties with
        | object props =>
          cases heq
          obtain ⟨prop, hprop, heq⟩ := List.mem_map.mp hchild
          cases heq
          exact ⟨prop.2, .property hv hprop, rfl⟩
        | _ => cases heq
      · rw [hitems] at h
        obtain ⟨items, hv, rfl⟩ := Option.map_eq_some_iff.mp h
        exact ⟨_, .items hv, ofItems_eq items⟩
      · rw [hanyOf] at h
        obtain ⟨anyOf, hv, heq⟩ := Option.map_eq_some_iff.mp h
        cases anyOf with
        | array nested =>
          cases heq
          rw [List.getElem?_map] at hchild
          obtain ⟨child, hget, rfl⟩ := Option.map_eq_some_iff.mp hchild
          exact ⟨child, .anyOf hv hget, rfl⟩
        | _ => cases heq
    · rintro ⟨child, hunder, rfl⟩
      cases hunder with
      | property h hchild =>
        rw [h] at hproperties
        exact .property hproperties (List.mem_map.mpr ⟨_, hchild, rfl⟩)
      | items h =>
        rw [h] at hitems
        rw [← ofItems_eq]
        exact .items hitems
      | anyOf h hchild =>
        rw [h] at hanyOf
        exact .anyOf hanyOf (by rw [List.getElem?_map, hchild]; rfl)
  | array items =>
    constructor
    · intro hunder
      cases hunder with
      | element hchild =>
        rw [List.getElem?_map] at hchild
        obtain ⟨child, hget, rfl⟩ := Option.map_eq_some_iff.mp hchild
        exact ⟨child, .element hget, rfl⟩
    · rintro ⟨child, hunder, rfl⟩
      cases hunder with
      | element hchild => exact .element (by rw [List.getElem?_map, hchild]; rfl)
  | _ =>
    constructor
    · rintro ⟨⟩
    · rintro ⟨child, ⟨⟩, -⟩

/-- Nothing is under what is cleaned without any room. -/
theorem not_under_shallow : ¬ Under id (cleanWithin letters 0 params) step node := by
  cases params with
  | object v =>
    show ¬ Under id (.object (delete (delete (delete (known letters v) "properties") "items")
      "anyOf")) step node
    rintro (⟨h, -⟩ | h | ⟨h, -⟩)
    · simp [lookup_delete] at h
    · simp [lookup_delete] at h
    · simp [lookup_delete] at h
  | array items =>
    intro hunder
    cases hunder with
    | element hchild => cases hchild
  | _ => rintro ⟨⟩

/-- The schemas of the result are those that are given, as deep as there is room. -/
theorem reached_cleanWithin : ∀ (path : List Step) (room : ℕ) (params : Json),
    Reached (cleanWithin letters room params) path node ↔ path.length ≤ room ∧
      ∃ given, Given params path given ∧ node = cleanWithin letters (room - path.length) given
  | [], room, params => by
    show node = cleanWithin letters room params ↔ 0 ≤ room ∧
      ∃ given, given = params ∧ node = cleanWithin letters room given
    simp
  | step :: path, 0, params => by
    constructor
    · rintro ⟨child, hunder, -⟩
      exact absurd hunder not_under_shallow
    · rintro ⟨hlen, -⟩
      simp at hlen
  | step :: path, room + 1, params => by
    rw [List.length_cons, Nat.add_le_add_iff_right, Nat.add_sub_add_right]
    constructor
    · rintro ⟨child', hunder, hreached⟩
      obtain ⟨child, hchild, rfl⟩ := under_cleanWithin.mp hunder
      obtain ⟨hlen, given, hgiven, heq⟩ := (reached_cleanWithin path room child).mp hreached
      exact ⟨hlen, given, ⟨child, hchild, hgiven⟩, heq⟩
    · rintro ⟨hlen, given, ⟨child, hchild, hgiven⟩, heq⟩
      exact ⟨_, under_cleanWithin.mpr ⟨child, hchild, rfl⟩,
        (reached_cleanWithin path room child).mpr ⟨hlen, given, hgiven, heq⟩⟩

theorem propertyNames_cleanWithin :
    propertyNames (cleanWithin letters (room + 1) params) = propertyNames params := by
  cases params with
  | object v =>
    rw [cleanWithin_succ_object]
    simp only [propertyNames]
    rw [lookup_properties, lookup_known (by decide) (by decide) (by decide)]
    cases v.lookup "properties" with
    | none => rfl
    | some properties =>
      cases properties with
      | object props => exact congrArg some (List.map_map ..)
      | _ => rfl
  | _ => rfl

theorem anyOfLength_cleanWithin :
    anyOfLength (cleanWithin letters (room + 1) params) = anyOfLength params := by
  cases params with
  | object v =>
    rw [cleanWithin_succ_object]
    simp only [anyOfLength]
    rw [lookup_anyOf, lookup_known (by decide) (by decide) (by decide)]
    cases v.lookup "anyOf" with
    | none => rfl
    | some anyOf =>
      cases anyOf with
      | array nested => exact congrArg some (List.length_map ..)
      | _ => rfl
  | _ => rfl

end Clean

/-! ## Cleaning again -/

section Again

variable {letters : Letters} {room : ℕ} {clean : Json → Json} {v : Members} {params : Json}

theorem eachProperty_again_iff {properties : Json} :
    eachProperty clean (eachProperty clean properties) = eachProperty clean properties ↔
      ∀ props, properties = .object props → ∀ prop ∈ props,
        clean (clean prop.2) = clean prop.2 := by
  cases properties with
  | object props => simp [eachProperty]
  | _ => simp [eachProperty]

theorem eachNested_again_iff {anyOf : Json} :
    eachNested clean (eachNested clean anyOf) = eachNested clean anyOf ↔
      ∀ nested, anyOf = .array nested → ∀ item ∈ nested, clean (clean item) = clean item := by
  cases anyOf with
  | array nested => simp [eachNested]
  | _ => simp [eachNested]

/-- How often a list stands first in a list. -/
def leading : Json → ℕ
  | .array (first :: _) => leading first + 1
  | _ => 0

theorem leading_cleanWithin_le (letters : Letters) : ∀ (room : ℕ) (params : Json),
    leading (cleanWithin letters room params) ≤ leading params
  | room, .object v => by
    obtain ⟨members, heq, -⟩ := cleanWithin_object letters room v
    rw [heq]
    simp [leading]
  | 0, .array items => by
    show leading (.array []) ≤ _
    simp [leading]
  | room + 1, .array [] => Nat.le_refl _
  | room + 1, .array (first :: rest) => by
    have ih := leading_cleanWithin_le letters room first
    simpa [cleanWithin, leading] using ih
  | 0, .null | 0, .bool _ | 0, .number _ | 0, .string _ => Nat.le_refl _
  | _ + 1, .null | _ + 1, .bool _ | _ + 1, .number _ | _ + 1, .string _ => Nat.le_refl _

theorem cleanWithin_ne_of_first {first : Json} {rest : List Json} :
    cleanWithin letters room first ≠ .array (first :: rest) := by
  intro h
  have hle := leading_cleanWithin_le letters room first
  rw [h, leading] at hle
  omega

/-- What is cleaned is a list with something in it. -/
theorem cleanWithin_eq_cons_iff :
    (∃ first rest, cleanWithin letters room params = .array (first :: rest)) ↔
      1 ≤ room ∧ ∃ first rest, params = .array (first :: rest) := by
  cases params with
  | object v =>
    obtain ⟨members, heq, -⟩ := cleanWithin_object letters room v
    simp [heq]
  | array items =>
    cases room with
    | zero => simp [cleanWithin, cleanFunctionParametersShallow]
    | succ room =>
      cases items with
      | nil => simp [cleanWithin]
      | cons first rest => simp [cleanWithin]
  | _ => cases room <;> simp [cleanWithin, cleanFunctionParametersShallow]

/-- Cleaned items stay, unless they were a tuple of tuples. -/
theorem ofItems_again_iff {items : Json} :
    ofItems (cleanWithin letters room) (ofItems (cleanWithin letters room) items) =
        ofItems (cleanWithin letters room) items ↔
      (1 ≤ room → ∀ first rest others, items ≠ .array (.array (first :: rest) :: others)) ∧
        cleanWithin letters room (cleanWithin letters room (firstOfTuple items)) =
          cleanWithin letters room (firstOfTuple items) := by
  rw [ofItems_eq, ofItems_eq]
  by_cases hcons : ∃ first rest,
      cleanWithin letters room (firstOfTuple items) = .array (first :: rest)
  · obtain ⟨hroom, first, rest, hfirst⟩ := cleanWithin_eq_cons_iff.mp hcons
    obtain ⟨first', rest', heq⟩ := hcons
    refine iff_of_false ?_ ?_
    · rw [heq]
      exact cleanWithin_ne_of_first
    · rintro ⟨hnested, -⟩
      cases items with
      | array nested =>
        cases nested with
        | nil => cases hfirst
        | cons tuple others =>
          rw [show tuple = .array (first :: rest) from hfirst] at hnested
          exact hnested hroom first rest others rfl
      | _ => cases hfirst
  · have hsame : firstOfTuple (cleanWithin letters room (firstOfTuple items)) =
        cleanWithin letters room (firstOfTuple items) := by
      unfold firstOfTuple at hcons ⊢
      split
      · rename_i heq
        exact absurd ⟨_, _, heq⟩ hcons
      · rfl
    rw [hsame]
    refine ⟨fun h => ⟨?_, h⟩, fun h => h.2⟩
    rintro hroom first rest others rfl
    exact hcons (cleanWithin_eq_cons_iff.mpr ⟨hroom, first, rest, rfl⟩)

/-- A schema stays exactly if those right under it do and its items are no tuple of tuples. -/
theorem cleanWithin_again_succ_iff :
    cleanWithin letters (room + 1) (cleanWithin letters (room + 1) params) =
        cleanWithin letters (room + 1) params ↔
      (1 ≤ room → ¬ NestedTuple params) ∧ ∀ step child, Under firstOfTuple params step child →
        cleanWithin letters room (cleanWithin letters room child) =
          cleanWithin letters room child := by
  cases params with
  | object v =>
    obtain ⟨members, heq, hknown, htype⟩ := cleanWithin_object letters (room + 1) v
    have hsame : known letters members = members := known_eq_self hknown htype
    have hmembers : members = cleanFields (cleanWithin letters room) (known letters v) := by
      rw [cleanWithin_succ_object] at heq
      exact (Json.object.inj heq).symm
    have hproperties := lookup_properties (cleanWithin letters room) (known letters v)
    have hitems := lookup_items (cleanWithin letters room) (known letters v)
    have hanyOf := lookup_anyOf (cleanWithin letters room) (known letters v)
    rw [← hmembers, lookup_known (by decide) (by decide) (by decide)] at hproperties hitems hanyOf
    rw [heq, cleanWithin_succ_object, hsame, Json.object.injEq, cleanFields_eq_self_iff,
      hproperties, hitems, hanyOf]
    simp only [Option.map_eq_some_iff, forall_exists_index, and_imp, forall_apply_eq_imp_iff₂,
      eachProperty_again_iff, eachNested_again_iff, ofItems_again_iff]
    constructor
    · rintro ⟨hprops, hits, hnested⟩
      refine ⟨?_, ?_⟩
      · rintro hroom ⟨_, first, rest, others, ⟨rfl⟩, hlookup⟩
        exact (hits _ hlookup).1 hroom first rest others rfl
      · intro step child hunder
        cases hunder with
        | property h hchild => exact hprops _ h _ rfl _ hchild
        | items h => exact (hits _ h).2
        | anyOf h hchild => exact hnested _ h _ rfl _ (List.mem_of_getElem? hchild)
    · rintro ⟨htuple, hunder⟩
      refine ⟨?_, fun items h => ⟨?_, hunder _ _ (.items h)⟩, ?_⟩
      · rintro _ h props rfl prop hprop
        exact hunder _ _ (.property h hprop)
      · rintro hroom first rest others rfl
        exact htuple hroom ⟨v, first, rest, others, rfl, h⟩
      · rintro _ h nested rfl item hitem
        obtain ⟨i, hget⟩ := List.getElem?_of_mem hitem
        exact hunder _ _ (.anyOf h hget)
  | array items =>
    have hmap : cleanWithin letters (room + 1) (cleanWithin letters (room + 1) (.array items)) =
        cleanWithin letters (room + 1) (.array items) ↔
        ∀ item ∈ items, cleanWithin letters room (cleanWithin letters room item) =
          cleanWithin letters room item := by
      simp [cleanWithin]
    rw [hmap]
    constructor
    · intro h
      refine ⟨?_, ?_⟩
      · rintro - ⟨_, _, _, _, heq, -⟩
        cases heq
      · intro step child hunder
        cases hunder with
        | element hchild => exact h _ (List.mem_of_getElem? hchild)
    · rintro ⟨-, h⟩ item hitem
      obtain ⟨i, hget⟩ := List.getElem?_of_mem hitem
      exact h _ _ (.element hget)
  | _ =>
    refine iff_of_true rfl ⟨?_, ?_⟩
    · rintro - ⟨_, _, _, _, heq, -⟩
      cases heq
    · rintro step child ⟨⟩

theorem shallow_again : cleanWithin letters 0 (cleanWithin letters 0 params) =
    cleanWithin letters 0 params := by
  cases params with
  | object v =>
    obtain ⟨members, heq, hknown, htype⟩ := cleanWithin_object letters 0 v
    have hmembers : members =
        delete (delete (delete (known letters v) "properties") "items") "anyOf" :=
      (Json.object.inj heq).symm
    have hsame : known letters members = members := known_eq_self hknown htype
    rw [heq]
    show Json.object (delete (delete (delete (known letters members) "properties") "items")
      "anyOf") = .object members
    rw [hsame, @delete_eq_self "properties", @delete_eq_self "items",
      @delete_eq_self "anyOf"]
    · simp [hmembers, lookup_delete]
    · simp [hmembers, lookup_delete]
    · simp [hmembers, lookup_delete]
  | _ => rfl

/-- Cleaning again changes nothing exactly if there is no tuple of tuples above the limit. -/
theorem cleanWithin_again_iff : ∀ (room : ℕ) (params : Json),
    cleanWithin letters room (cleanWithin letters room params) =
        cleanWithin letters room params ↔
      ∀ path given, Given params path given → path.length + 1 < room → ¬ NestedTuple given
  | 0, params => iff_of_true shallow_again fun _ _ _ h => absurd h (Nat.not_lt_zero _)
  | room + 1, params => by
    rw [cleanWithin_again_succ_iff]
    constructor
    · rintro ⟨htuple, hunder⟩ path given hgiven hlen
      cases path with
      | nil =>
        have hroom : 1 ≤ room := Nat.lt_of_succ_lt_succ hlen
        rw [show given = params from hgiven]
        exact htuple hroom
      | cons step path =>
        obtain ⟨child, hchild, hgiven⟩ := hgiven
        rw [List.length_cons, Nat.add_lt_add_iff_right] at hlen
        exact (cleanWithin_again_iff room child).mp (hunder step child hchild) path given hgiven
          hlen
    · intro h
      refine ⟨fun hroom => ?_, fun step child hchild => ?_⟩
      · exact h [] params rfl (Nat.succ_lt_succ hroom)
      · refine (cleanWithin_again_iff room child).mpr fun path given hgiven hlen => ?_
        exact h (step :: path) given ⟨child, hchild, hgiven⟩ (by simpa using hlen)

end Again

/-! ## The result -/

/-- The parameters are cleaned as they should be exactly if, as deep as the limit, every type
is a text or a list, and above it no tuple of items begins with a list. -/
theorem cleaned_iff (letters : Letters) (params : Json) :
    Cleaned letters params ↔ ∀ path node, Given params path node →
      path.length ≤ geminiFunctionSchemaMaxDepth → TypeHandled node ∧
        (path.length + 1 < geminiFunctionSchemaMaxDepth → ¬ NestedTuple node) := by
  constructor
  · intro h path node hgiven hlen
    refine ⟨?_, fun hroom => ?_⟩
    · have hreached : Reached (cleanFunctionParameters letters params) path
          (cleanWithin letters (geminiFunctionSchemaMaxDepth - path.length) node) :=
        (reached_cleanWithin path _ params).mpr ⟨hlen, node, hgiven, rfl⟩
      exact supported_cleanWithin_iff.mp (h.supported path _ hreached)
    · exact (cleanWithin_again_iff _ params).mp h.again path node hgiven hroom
  · intro h
    refine ⟨?_, ?_, ?_, ?_⟩
    · intro path node hreached
      obtain ⟨hlen, given, hgiven, rfl⟩ := (reached_cleanWithin path _ params).mp hreached
      exact supported_cleanWithin_iff.mpr (h path given hgiven hlen).1
    · intro path node hgiven hlen
      obtain ⟨room, hroom⟩ := Nat.exists_eq_add_of_lt hlen
      have hleft : geminiFunctionSchemaMaxDepth - path.length = room + 1 := by omega
      refine ⟨cleanWithin letters (room + 1) node, ?_, propertyNames_cleanWithin,
        anyOfLength_cleanWithin⟩
      exact (reached_cleanWithin path _ params).mpr
        ⟨Nat.le_of_lt hlen, node, hgiven, by rw [← hleft]; rfl⟩
    · intro path node hreached
      exact ((reached_cleanWithin path _ params).mp hreached).1
    · refine (cleanWithin_again_iff _ params).mpr fun path given hgiven hlen => ?_
      exact (h path given hgiven (by omega)).2 hlen

theorem isUpper_induction {p : Char → Prop} (h : ∀ n < 26, p (Char.ofNat (65 + n))) {c : Char}
    (hc : c.isUpper) : p c := by
  have hrange : 65 ≤ c.toNat ∧ c.toNat ≤ 90 := of_decide_eq_true hc
  have hp := h (c.toNat - 65) (by omega)
  rwa [Nat.add_sub_cancel' hrange.1, Char.ofNat_toNat] at hp

def asciiLower (c : Char) : Char := if c.isUpper then Char.ofNat (c.toNat + 32) else c

/-- Letters of which only those of ASCII have a lower case. -/
def asciiLetters : Letters where
  casing :=
    { lower := asciiLower
      lower_lower := fun c => by
        by_cases hc : c.isUpper
        · exact isUpper_induction (p := fun c => asciiLower (asciiLower c) = asciiLower c)
            (by decide) hc
        · have hsame : asciiLower c = c := if_neg hc
          rw [hsame, hsame]
      isSpace_lower := fun c => by
        by_cases hc : c.isUpper
        · exact isUpper_induction (p := fun c => isSpace (asciiLower c) = isSpace c)
            (by decide) hc
        · rw [asciiLower, if_neg hc] }
  ascii c hc := by
    have hletters : ∀ n < 128, asciiLower (Char.ofNat n) = (Char.ofNat n).toLower := by decide
    have heq := hletters c.toNat hc
    rwa [Char.ofNat_toNat] at heq

/-- The first of the items is a list, which stays under `items`: when the parameters are
cleaned again, its first schema is taken. -/
theorem nested_tuple_stays : ¬ Cleaned asciiLetters
    (.object [("type", .string "array"),
      ("items", .array [.array [.object [("type", .string "string")]]])]) := by
  intro h
  have hagain := h.again
  have honce : cleanFunctionParameters asciiLetters
      (.object [("type", .string "array"),
        ("items", .array [.array [.object [("type", .string "string")]]])]) =
      .object [("type", .string "ARRAY"),
        ("items", .array [.object [("type", .string "STRING")]])] := rfl
  have htwice : cleanFunctionParameters asciiLetters
      (.object [("type", .string "ARRAY"),
        ("items", .array [.object [("type", .string "STRING")]])]) =
      .object [("type", .string "ARRAY"), ("items", .object [("type", .string "STRING")])] := rfl
  rw [honce, htwice] at hagain
  cases hagain

end Convert.GeminiSchema
