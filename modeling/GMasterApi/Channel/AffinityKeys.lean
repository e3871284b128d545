import GMasterApi.Lib.GoString

/-!
# The keys of the channel affinity

The channel that served a request is kept under the parts of the request that its rule includes,
joined by colons.  It is stored under the joined text behind the namespace and looked up under
the text alone, to which the cache puts the namespace unless it finds it there already; the
entries of a rule are cleared by its name.  `right_iff` says when the requests that find an entry
are those that agree with it, and the cleared entries those of the rule.
-/

namespace AffinityKeys

open GoString

abbrev Text := List Char

/-! ## The cache -/

/-- What the cache does not do itself: the pattern of a Redis scan, and which backend is used. -/
structure Backend where
  redis : Bool
  scan : Text → Text → Bool

/-- `Namespace.prefix` -/
def keyPrefix (namesp : Text) : Text :=
  let ns := (trim namesp).rdropWhile (· = ':')
  if ns = [] then [] else ns ++ [':']

def fullKey (namesp key : Text) : Text :=
  let key := trim key
  if key = [] then []
  else
    let p := keyPrefix namesp
    if p = [] then key.dropWhile (· = ':')
    else if p <+: key then key
    else p ++ key.dropWhile (· = ':')

abbrev Store := List (Text × ℤ)

def Store.get (store : Store) (namesp key : Text) : Option ℤ :=
  let full := fullKey namesp key
  if full = [] then none else store.lookup full

def Store.set (store : Store) (namesp key : Text) (v : ℤ) : Store :=
  let full := fullKey namesp key
  if full = [] then store else (full, v) :: store.filter (·.1 ≠ full)

def Store.deleteMany (store : Store) (namesp : Text) (keys : List Text) : Store :=
  let fullKeys := (keys.map (fullKey namesp)).filter (· ≠ [])
  store.filter fun entry => entry.1 ∉ fullKeys

/-- In memory the keys that begin so, on Redis those that match the pattern. -/
def Backend.matches (b : Backend) (full key : Text) : Bool :=
  if b.redis then b.scan (full ++ ['*']) key else full.isPrefixOf key

def Store.deleteByPrefix (store : Store) (b : Backend) (namesp name : Text) : Store :=
  let full := fullKey namesp name
  if full = [] then store
  else
    let full := if [':'] <:+ full then full else full ++ [':']
    store.deleteMany namesp ((store.map Prod.fst).filter (b.matches full))

/-! ## The rules -/

structure KeySource where
  type : Text
  key : Text
  path : Text

structure Rule where
  name : Text
  modelRegex : List Text
  pathRegex : List Text
  userAgentInclude : List Text
  keySources : List KeySource
  valueRegex : Text
  includeRuleName : Bool
  includeModelName : Bool
  includeUsingGroup : Bool

/-- `matchString` is `none` where the pattern does not compile. -/
structure Setting where
  backend : Backend
  matchString : Text → Text → Option Bool
  toLower : Text → Text
  enabled : Bool
  switchOnSuccess : Bool
  rules : List Rule

/-- A request; `gjson` is the printed result at a path of the body, or its JSON. -/
structure Request where
  modelName : Text
  usingGroup : Text
  path : Text
  userAgent : Text
  contextInt : Text → ℤ
  contextString : Text → Text
  header : Text → Text
  gjson : Text → Option Text

def channelAffinityCacheNamespace : Text := "g-master-api:channel_affinity:v1".toList

def extractChannelAffinityValue (req : Request) (src : KeySource) : Text :=
  let type := trim src.type
  if type = "context_int".toList then
    if src.key = [] ∨ req.contextInt src.key ≤ 0 then []
    else (req.contextInt src.key).toNat.repr.toList
  else if type = "context_string".toList then
    if src.key = [] then [] else trim (req.contextString src.key)
  else if type = "request_header".toList then
    let headerName := if trim src.key = [] then trim src.path else trim src.key
    if headerName = [] then [] else trim (req.header headerName)
  else if type = "gjson".toList then
    if src.path = [] then [] else ((req.gjson src.path).map trim).getD []
  else []

namespace Setting

variable (st : Setting)

def matchAnyRegexCached (patterns : List Text) (s : Text) : Bool :=
  decide (s ≠ []) && patterns.any fun pattern =>
    decide (pattern ≠ []) && (st.matchString pattern s).getD false

def matchAnyIncludeFold (patterns : List Text) (s : Text) : Bool :=
  decide (s ≠ []) && patterns.any fun p =>
    decide (trim p ≠ []) && decide (st.toLower (trim p) <:+: st.toLower s)

/-- The affinity value of a request under a rule that it matches. -/
def affinityValue (req : Request) (rule : Rule) : Option Text :=
  if !st.matchAnyRegexCached rule.modelRegex req.modelName then none
  else if !rule.pathRegex.isEmpty && !st.matchAnyRegexCached rule.pathRegex req.path then none
  else if !rule.userAgentInclude.isEmpty &&
      !st.matchAnyIncludeFold rule.userAgentInclude req.userAgent then none
  else
    ((rule.keySources.map (extractChannelAffinityValue req)).find? (· ≠ [])).filter fun value =>
      rule.valueRegex = [] ∨ st.matchAnyRegexCached [rule.valueRegex] value = true

/-- The first rule that the request matches, with its value. -/
def matched (req : Request) : Option (Rule × Text) :=
  st.rules.findSome? fun rule => (st.affinityValue req rule).map (rule, ·)

end Setting

def buildChannelAffinityCacheKeySuffix (rule : Rule) (modelName usingGroup value : Text) : Text :=
  [':'].intercalate ((if rule.includeRuleName ∧ rule.name ≠ [] then [rule.name] else []) ++
    (if rule.includeModelName ∧ modelName ≠ [] then [modelName] else []) ++
    (if rule.includeUsingGroup ∧ usingGroup ≠ [] then [usingGroup] else []) ++ [value])

namespace Setting

variable (st : Setting)

def getPreferredChannelByAffinity (store : Store) (req : Request) : Option ℤ :=
  if !st.enabled then none
  else (st.matched req).bind fun (rule, value) => store.get channelAffinityCacheNamespace
    (buildChannelAffinityCacheKeySuffix rule req.modelName req.usingGroup value)

/-- `successChannelID` is the `channel_id` of the context. -/
def recordedChannel (channelID successChannelID : ℤ) : ℤ :=
  if st.switchOnSuccess ∧ 0 < successChannelID then successChannelID else channelID

def recordChannelAffinity (store : Store) (req : Request) (channelID successChannelID : ℤ) :
    Store :=
  if channelID ≤ 0 ∨ !st.enabled then store
  else match st.matched req with
    | none => store
    | some (rule, value) => store.set channelAffinityCacheNamespace
        (channelAffinityCacheNamespace ++ ':' ::
          buildChannelAffinityCacheKeySuffix rule req.modelName req.usingGroup value)
        (st.recordedChannel channelID successChannelID)

def clearChannelAffinityCacheByRuleName (store : Store) (ruleName : Text) :
    Except String Store :=
  let ruleName := trim ruleName
  if ruleName = [] then .error "rule_name 不能为空"
  else match st.rules.find? fun rule => trim rule.name = ruleName with
    | none => .error "未知规则名称"
    | some rule =>
      if !rule.includeRuleName then .error "该规则未启用 include_rule_name，无法按规则清空缓存"
      else .ok (store.deleteByPrefix st.backend channelAffinityCacheNamespace ruleName)

end Setting

/-! ## What the entries are for -/

/-- The parts of a request that its rule includes, and its value. -/
structure Affinity where
  ruleName : Option Text
  modelName : Option Text
  usingGroup : Option Text
  value : Text
  deriving DecidableEq

namespace Affinity

/-- The parts that are not empty, and the value, with colons between them. -/
def text (a : Affinity) : Text :=
  ([a.ruleName, a.modelName, a.usingGroup].filterMap (Option.filter (· ≠ []))).flatMap
    (· ++ [':']) ++ a.value

def Named (a : Affinity) (name : Text) : Prop := ∃ n ∈ a.ruleName, trim n = trim name

end Affinity

namespace Setting

variable (st : Setting)

/-- What is enabled matches the request to, by the first rule it matches. -/
def affinity (req : Request) : Option Affinity :=
  if st.enabled then (st.matched req).map fun (rule, value) =>
    { ruleName := if rule.includeRuleName then some rule.name else none
      modelName := if rule.includeModelName then some req.modelName else none
      usingGroup := if rule.includeUsingGroup then some req.usingGroup else none
      value := value }
  else none

/-- The stores that recording and clearing lead to. -/
inductive Reachable : Store → Prop
  | empty : Reachable []
  | record {store : Store} (req : Request) (channelID successChannelID : ℤ) :
    Reachable store → Reachable (st.recordChannelAffinity store req channelID successChannelID)
  | clear {store cleared : Store} {name : Text} : Reachable store →
    st.clearChannelAffinityCacheByRuleName store name = .ok cleared → Reachable cleared

/-- The entry of one request is found by another iff they agree, and the clearing of a name
removes it iff its rule has the name and includes it. -/
def Right (req₁ req₂ : Request) (name : Text) : Prop :=
  ∀ a₁ ∈ st.affinity req₁, ∀ a₂ ∈ st.affinity req₂,
    ∀ store, st.Reachable store → ∀ channelID successChannelID : ℤ, 0 < channelID →
      let recorded := st.recordChannelAffinity store req₁ channelID successChannelID
      (a₁ = a₂ → st.getPreferredChannelByAffinity recorded req₂ =
        some (st.recordedChannel channelID successChannelID)) ∧
      (a₁ ≠ a₂ → st.getPreferredChannelByAffinity recorded req₂ =
        st.getPreferredChannelByAffinity store req₂) ∧
      ∀ entry ∈ recorded.head?,
        entry ∉ (st.clearChannelAffinityCacheByRuleName recorded name).toOption.getD recorded ↔
          a₁.Named name

end Setting

def colonNamespace : Text := channelAffinityCacheNamespace ++ [':']

/-- The text whose entry a lookup of a text reads. -/
def seen (text : Text) : Text :=
  let text := trim text
  if colonNamespace <+: text then text.drop colonNamespace.length else text.dropWhile (· = ':')

namespace Setting

variable (st : Setting)

/-- The first rule of the name includes it. -/
def Clearable (name : Text) : Prop :=
  trim name ≠ [] ∧
    ∃ rule ∈ st.rules.find? (fun rule => trim rule.name = trim name), rule.includeRuleName = true

def Cleared (name text : Text) : Prop :=
  let full := colonNamespace ++ seen name
  st.backend.matches (if [':'] <:+ full then full else full ++ [':'])
    (colonNamespace ++ text) = true

/-- When the texts of the requests keep their entries apart and together. -/
structure KeptRight (a₁ a₂ : Affinity) (name : Text) : Prop where
  together : a₁ = a₂ → ¬ colonNamespace <+: a₁.text ∧
    ∀ c ∈ a₁.text.head?, isSpace c = false ∧ c ≠ ':'
  apart : a₁ ≠ a₂ → seen a₂.text ≠ a₁.text
  cleared : st.Clearable name ∧ st.Cleared name a₁.text ↔ a₁.Named name

end Setting

/-! ## Texts -/

def Ends (l : Text) : Prop := ∃ c ∈ l.getLast?, isSpace c = false

theorem Ends.append_left {l : Text} (h : Ends l) (start : Text) : Ends (start ++ l) := by
  obtain ⟨c, hc, hs⟩ := h
  exact ⟨c, by simp_all [List.getLast?_append], hs⟩

theorem ends_trim {l : Text} (hne : trim l ≠ []) : Ends (trim l) :=
  ⟨(trim l).getLast hne, List.getLast?_eq_some_getLast hne,
    Bool.eq_false_iff.mpr (List.rdropWhile_last_not isSpace (l.dropWhile isSpace) hne)⟩

/-- What ends in no blank loses only the blanks it begins with. -/
theorem Ends.trim_eq {l : Text} (h : Ends l) : trim l = l.dropWhile isSpace ∧ trim l ≠ [] := by
  obtain ⟨c, hc, hs⟩ := h
  obtain ⟨start, rfl⟩ : ∃ start, l = start ++ [c] :=
    ⟨l.dropLast, (List.dropLast_append_getLast? c hc).symm⟩
  have hdrop : ((start ++ [c]).dropWhile isSpace) = start.dropWhile isSpace ++ [c] := by
    induction start with
    | nil => simp [hs]
    | cons d start ih => simp only [List.cons_append, List.dropWhile_cons]; split <;> simp_all
  simp [trim, hdrop, hs]

theorem keyPrefix_eq : keyPrefix channelAffinityCacheNamespace = colonNamespace := by
  decide +kernel

theorem head?_colonNamespace : colonNamespace.head? = some 'g' := by decide +kernel

theorem colonNamespace_ne : colonNamespace ≠ [] := by simp [colonNamespace]

theorem colonNamespace_eq (l : Text) :
    channelAffinityCacheNamespace ++ ':' :: l = colonNamespace ++ l := by
  simp [colonNamespace]

/-- A key is put behind the namespace as a lookup sees it. -/
theorem fullKey_eq {key : Text} (h : trim key ≠ []) :
    fullKey channelAffinityCacheNamespace key = colonNamespace ++ seen key := by
  have hne := colonNamespace_ne
  by_cases hstart : colonNamespace <+: trim key
  · obtain ⟨rest, hrest⟩ := hstart
    simp [fullKey, keyPrefix_eq, seen, ← hrest, hne]
  · simp [fullKey, keyPrefix_eq, seen, hstart, hne, h]

/-- A key that has the namespace already stays as it is. -/
theorem fullKey_namespace {text : Text} (h : Ends text) :
    fullKey channelAffinityCacheNamespace (colonNamespace ++ text) = colonNamespace ++ text := by
  obtain ⟨htrim, hne⟩ := (h.append_left colonNamespace).trim_eq
  have hg : (colonNamespace ++ text).dropWhile isSpace = colonNamespace ++ text := by
    obtain ⟨rest, hrest⟩ := List.head?_eq_some_iff.mp head?_colonNamespace
    rw [hrest]
    exact List.dropWhile_cons_of_neg (by decide)
  rw [fullKey_eq hne, seen, htrim, hg, if_pos (List.prefix_append ..), List.drop_left]

theorem seen_eq_self_iff {text : Text} (h : Ends text) : seen text = text ↔
    ¬ colonNamespace <+: text ∧ ∀ c ∈ text.head?, isSpace c = false ∧ c ≠ ':' := by
  have hblanks := (List.dropWhile_suffix isSpace (l := text)).length_le
  rw [seen, h.trim_eq.1]
  constructor
  · intro hseen
    by_cases hstart : colonNamespace <+: text.dropWhile isSpace
    · -- the namespace is gone from what is seen, so that it is shorter
      have hless := congrArg List.length hseen
      have hlen := hstart.length_le
      have := List.length_pos_iff.mpr colonNamespace_ne
      simp only [hstart, if_true, List.length_drop] at hless
      omega
    · simp only [hstart, if_false] at hseen
      have hcolons := (List.dropWhile_suffix (· = ':') (l := text.dropWhile isSpace)).length_le
      have hsame : text.dropWhile isSpace = text :=
        (List.dropWhile_suffix isSpace).eq_of_length (by rw [hseen] at hcolons; omega)
      rw [hsame] at hseen hstart
      refine ⟨hstart, fun c hc => ?_⟩
      obtain ⟨rest, rfl⟩ := List.head?_eq_some_iff.mp hc
      constructor
      · simpa using List.dropWhile_eq_self_iff.mp hsame
      · simpa using List.dropWhile_eq_self_iff.mp hseen
  · rintro ⟨hstart, hhead⟩
    obtain _ | ⟨c, rest⟩ := text
    · simp [colonNamespace_ne]
    · simp_all

/-! ## Requests -/

theorem text_eq (rule : Rule) (modelName usingGroup value : Text) :
    buildChannelAffinityCacheKeySuffix rule modelName usingGroup value =
      Affinity.text
        { ruleName := if rule.includeRuleName then some rule.name else none
          modelName := if rule.includeModelName then some modelName else none
          usingGroup := if rule.includeUsingGroup then some usingGroup else none
          value := value } := by
  have hparts (parts : List Text) :
      [':'].intercalate (parts ++ [value]) = parts.flatMap (· ++ [':']) ++ value := by
    induction parts with
    | nil => simp [List.intercalate]
    | cons part parts ih =>
      obtain _ | ⟨next, rest⟩ := parts
      · simp [List.intercalate]
      · simp_all [List.intercalate]
  rw [buildChannelAffinityCacheKeySuffix, hparts, Affinity.text]
  congr 2
  cases rule.includeRuleName <;> cases rule.includeModelName <;>
    cases rule.includeUsingGroup <;> simp [List.filterMap_cons, Option.filter] <;>
    split_ifs <;> rfl

theorem trim_ite {c : Prop} [Decidable c] {l m : Text} (hl : trim l = l) (hm : trim m = m) :
    trim (if c then l else m) = if c then l else m := by
  split
  · exact hl
  · exact hm

theorem trim_extractChannelAffinityValue (req : Request) (src : KeySource) :
    trim (extractChannelAffinityValue req src) = extractChannelAffinityValue req src := by
  have hrepr (n : ℕ) : trim n.repr.toList = n.repr.toList := by
    have hno : ∀ c ∈ n.repr.toList, isSpace c = false := fun c hc =>
      isSpace_of_isDigit (isDigit_of_mem_repr hc)
    simpa [trimSpace] using congrArg String.toList (trimSpace_of_no_space hno)
  have hgjson : trim (((req.gjson src.path).map trim).getD []) =
      ((req.gjson src.path).map trim).getD [] := by
    cases req.gjson src.path with
    | none => rfl
    | some text => exact trim_trim text
  exact trim_ite (trim_ite rfl (hrepr _)) (trim_ite (trim_ite rfl (trim_trim _))
    (trim_ite (trim_ite rfl (trim_trim _)) (trim_ite (trim_ite rfl hgjson) rfl)))

namespace Setting

variable {st : Setting} {req req₁ req₂ : Request} {a a₁ a₂ : Affinity}

/-- A request has the value of its rule, which is not empty and has no blanks around it. -/
theorem exists_matched (h : a ∈ st.affinity req) : st.enabled = true ∧ Ends a.text ∧
    ∃ rule value, st.matched req = some (rule, value) ∧ a.text =
      buildChannelAffinityCacheKeySuffix rule req.modelName req.usingGroup value := by
  obtain ⟨henabled, hmap⟩ : st.enabled = true ∧ _ := by
    simpa [affinity] using h
  obtain ⟨rule, value, hmatched, rfl⟩ := hmap
  refine ⟨henabled, ?_, rule, value, hmatched, (text_eq ..).symm⟩
  obtain ⟨rule', -, hvalue⟩ := List.exists_of_findSome?_eq_some hmatched
  have hfind : value ∈ (rule.keySources.map (extractChannelAffinityValue req)).find? (· ≠ []) := by
    simp only [Option.map_eq_some_iff, Prod.mk.injEq, affinityValue] at hvalue
    obtain ⟨_, hvalue, rfl, rfl⟩ := hvalue
    split_ifs at hvalue
    exact (Option.filter_eq_some_iff.mp hvalue).1
  obtain ⟨src, -, rfl⟩ := List.mem_map.mp (List.mem_of_find?_eq_some hfind)
  refine Ends.append_left ?_ _
  have hne : extractChannelAffinityValue req src ≠ [] := by simpa using List.find?_some hfind
  rw [← trim_extractChannelAffinityValue] at hne ⊢
  exact ends_trim hne

/-- A request looks up what its text is seen as. -/
theorem getPreferredChannelByAffinity_eq (h : a ∈ st.affinity req) (store : Store) :
    st.getPreferredChannelByAffinity store req = store.lookup (colonNamespace ++ seen a.text) := by
  obtain ⟨henabled, hends, rule, value, hmatched, htext⟩ := exists_matched h
  simp [getPreferredChannelByAffinity, henabled, hmatched, Store.get, ← htext,
    fullKey_eq hends.trim_eq.2, colonNamespace_ne]

/-- The entry of a request is put before the others, under its text. -/
theorem recordChannelAffinity_eq (h : a ∈ st.affinity req) (store : Store) {channelID : ℤ}
    (hpos : 0 < channelID) (successChannelID : ℤ) :
    st.recordChannelAffinity store req channelID successChannelID =
      (colonNamespace ++ a.text, st.recordedChannel channelID successChannelID) ::
        store.filter (·.1 ≠ colonNamespace ++ a.text) := by
  obtain ⟨henabled, hends, rule, value, hmatched, htext⟩ := exists_matched h
  simp [recordChannelAffinity, henabled, hmatched, Store.set, ← htext, colonNamespace_eq,
    fullKey_namespace hends, colonNamespace_ne, Int.not_le.mpr hpos]

theorem lookup_filter_ne {key full : Text} (hne : key ≠ full) (store : Store) :
    (store.filter (·.1 ≠ full)).lookup key = store.lookup key := by
  induction store with
  | nil => rfl
  | cons entry store ih =>
    obtain ⟨k, v⟩ := entry
    by_cases hk : k = full
    · simpa [hk, List.lookup_cons, beq_false_of_ne hne] using ih
    · by_cases hkey : key = k <;> simp_all [List.lookup_cons]

/-- A recorded entry is found by the texts that are seen as its own, and by no others. -/
theorem get_record (h₁ : a₁ ∈ st.affinity req₁) (h₂ : a₂ ∈ st.affinity req₂) (store : Store)
    {channelID : ℤ} (hpos : 0 < channelID) (successChannelID : ℤ) :
    st.getPreferredChannelByAffinity
        (st.recordChannelAffinity store req₁ channelID successChannelID) req₂ =
      if seen a₂.text = a₁.text then some (st.recordedChannel channelID successChannelID)
      else st.getPreferredChannelByAffinity store req₂ := by
  rw [recordChannelAffinity_eq h₁ store hpos, getPreferredChannelByAffinity_eq h₂,
    getPreferredChannelByAffinity_eq h₂]
  split
  case isTrue hseen => simp [hseen]
  case isFalse hseen =>
    have hne : colonNamespace ++ seen a₂.text ≠ colonNamespace ++ a₁.text := by simpa using hseen
    rw [List.lookup_cons, beq_false_of_ne hne, lookup_filter_ne hne]

/-! ## Clearing -/

theorem clear_of_clearable {name : Text} (h : st.Clearable name) (store : Store) :
    st.clearChannelAffinityCacheByRuleName store name =
      .ok (store.deleteByPrefix st.backend channelAffinityCacheNamespace (trim name)) := by
  obtain ⟨hne, rule, hfind, hincluded⟩ := h
  rw [Option.mem_def] at hfind
  simp [clearChannelAffinityCacheByRuleName, hne, hfind, hincluded]

theorem toOption_clear {name : Text} (h : ¬ st.Clearable name) (store : Store) :
    (st.clearChannelAffinityCacheByRuleName store name).toOption = none := by
  simp only [clearChannelAffinityCacheByRuleName]
  split_ifs with hne
  · rfl
  · split
    · rfl
    · rename_i rule hfind
      have hexcluded : rule.includeRuleName = false := by
        by_contra hincluded
        exact h ⟨hne, rule, hfind, by simpa using hincluded⟩
      simp [hexcluded, Except.toOption]

theorem deleteByPrefix_subset (store : Store) (b : Backend) (namesp name : Text) :
    store.deleteByPrefix b namesp name ⊆ store := by
  simp only [Store.deleteByPrefix]
  split
  · exact List.Subset.refl _
  · exact List.filter_subset_self _

/-- The keys of a store that recording and clearing lead to are full. -/
theorem Reachable.fullKey_eq {store : Store} (h : st.Reachable store) :
    ∀ entry ∈ store, fullKey channelAffinityCacheNamespace entry.1 = entry.1 := by
  induction h with
  | empty => simp
  | @record store req channelID successChannelID _ ih =>
    by_cases hpos : 0 < channelID
    · cases haff : st.affinity req with
      | none =>
        have hnone : st.enabled = false ∨ st.matched req = none := by
          cases henabled : st.enabled <;> simp_all [affinity]
        rcases hnone with h | h <;> simpa [recordChannelAffinity, h] using ih
      | some a =>
        rw [recordChannelAffinity_eq haff store hpos]
        intro entry hentry
        rcases List.mem_cons.mp hentry with rfl | hentry
        · exact fullKey_namespace (exists_matched haff).2.1
        · exact ih entry (List.mem_of_mem_filter hentry)
    · simpa [recordChannelAffinity, Int.not_lt.mp hpos] using ih
  | @clear store cleared name _ hcleared ih =>
    by_cases hname : st.Clearable name
    · rw [clear_of_clearable hname, Except.ok.injEq] at hcleared
      exact fun entry hentry => ih entry (deleteByPrefix_subset _ _ _ _ (hcleared ▸ hentry))
    · simpa [hcleared, Except.toOption] using toOption_clear hname store

/-- Full keys that a choice of the keys of a store has are removed with the choice. -/
theorem not_mem_deleteMany_iff {store : Store} {entry : Text × ℤ}
    (hfull : ∀ entry ∈ store, fullKey channelAffinityCacheNamespace entry.1 = entry.1)
    (hentry : entry ∈ store) (hne : entry.1 ≠ []) (p : Text → Bool) :
    entry ∉ store.deleteMany channelAffinityCacheNamespace ((store.map Prod.fst).filter p) ↔
      p entry.1 = true := by
  have hkeys : ((store.map Prod.fst).filter p).map (fullKey channelAffinityCacheNamespace) =
      (store.map Prod.fst).filter p := by
    refine (List.map_congr_left fun key hkey => ?_).trans (List.map_id _)
    obtain ⟨other, hother, rfl⟩ := List.mem_map.mp (List.mem_of_mem_filter hkey)
    exact hfull other hother
  have hmem : entry.1 ∈ store.map Prod.fst := List.mem_map_of_mem hentry
  simp only [Store.deleteMany, hkeys, List.mem_filter, hentry, hmem, hne, true_and,
    decide_eq_true_eq, ne_eq, not_false_eq_true, and_true, not_not]

/-- The clearing of a name removes the entries whose text begins with what the name is seen as. -/
theorem not_mem_cleared_iff {store : Store} {entry : Text × ℤ} {text name : Text}
    (hfull : ∀ entry ∈ store, fullKey channelAffinityCacheNamespace entry.1 = entry.1)
    (hentry : entry ∈ store) (htext : entry.1 = colonNamespace ++ text) :
    entry ∉ (st.clearChannelAffinityCacheByRuleName store name).toOption.getD store ↔
      st.Clearable name ∧ st.Cleared name text := by
  by_cases hname : st.Clearable name
  · have hseen : seen (trim name) = seen name := by simp [seen, trim_trim]
    have htrim : trim (trim name) ≠ [] := by simpa [trim_trim] using hname.1
    have hkey := AffinityKeys.fullKey_eq htrim
    have hne : fullKey channelAffinityCacheNamespace (trim name) ≠ [] := by
      simp [hkey, colonNamespace_ne]
    rw [clear_of_clearable hname, Except.toOption, Option.getD_some, Store.deleteByPrefix,
      if_neg hne, not_mem_deleteMany_iff hfull hentry (by simp [htext, colonNamespace_ne]), hkey,
      hseen, htext, and_iff_right hname, Cleared]
  · simp [toOption_clear hname, hname, hentry]

/-- The entry of a request is the first, and the clearing of a name removes it for its text. -/
theorem clears_iff (h : a ∈ st.affinity req) {store : Store} (hstore : st.Reachable store)
    {channelID : ℤ} (hpos : 0 < channelID) (successChannelID : ℤ) (name : Text) (P : Prop) :
    let recorded := st.recordChannelAffinity store req channelID successChannelID
    (∀ entry ∈ recorded.head?,
      (entry ∉ (st.clearChannelAffinityCacheByRuleName recorded name).toOption.getD recorded ↔ P)) ↔
      (st.Clearable name ∧ st.Cleared name a.text ↔ P) := by
  intro recorded
  have hfull : ∀ entry ∈ recorded, fullKey channelAffinityCacheNamespace entry.1 = entry.1 :=
    (hstore.record req channelID successChannelID).fullKey_eq
  have hrecorded : recorded = _ := recordChannelAffinity_eq h store hpos successChannelID
  have hhead : recorded.head? = some
      (colonNamespace ++ a.text, st.recordedChannel channelID successChannelID) := by
    rw [hrecorded, List.head?_cons]
  simp only [hhead, Option.mem_some_iff, forall_eq',
    not_mem_cleared_iff hfull (List.mem_of_head? hhead) rfl]

/-- The entries of two requests are kept apart and together, and cleared by the name of their
rule, exactly where their texts are. -/
theorem right_iff (st : Setting) (req₁ req₂ : Request) (name : Text) :
    st.Right req₁ req₂ name ↔
      ∀ a₁ ∈ st.affinity req₁, ∀ a₂ ∈ st.affinity req₂, st.KeptRight a₁ a₂ name := by
  refine forall₄_congr fun a₁ h₁ a₂ h₂ => ?_
  have hself := seen_eq_self_iff (exists_matched h₁).2.1
  constructor
  · -- in an empty store a request finds nothing but the entry
    intro hright
    obtain ⟨hsame, hother, hclear⟩ := hright [] .empty 1 0 Int.one_pos
    have hempty : st.getPreferredChannelByAffinity [] req₂ = none :=
      getPreferredChannelByAffinity_eq h₂ []
    rw [get_record h₁ h₂ [] Int.one_pos, hempty] at hsame hother
    refine ⟨?_, fun hne hseen => ?_, (clears_iff h₁ .empty Int.one_pos 0 name _).mp hclear⟩
    · rintro rfl
      exact hself.mp (by simpa using hsame rfl)
    · simpa [hseen] using hother hne
  · rintro ⟨hsame, hother, hclear⟩ store hstore channelID successChannelID hpos
    refine ⟨?_, fun hne => ?_, (clears_iff h₁ hstore hpos _ name _).mpr hclear⟩
    · rintro rfl
      rw [get_record h₁ h₂ store hpos, if_pos (hself.mpr (hsame rfl))]
    · rw [get_record h₁ h₂ store hpos, if_neg (hother hne)]

end Setting

/-- A rule that keeps the sessions of a header, and nothing else. -/
def sessions : Setting :=
  { backend := { redis := false, scan := fun _ _ => false }
    matchString := fun _ _ => some true
    toLower := id
    enabled := true
    switchOnSuccess := false
    rules := [{ name := ['s'], modelRegex := [['.']], pathRegex := [], userAgentInclude := []
                keySources := [{ type := "request_header".toList, key := ['S'], path := [] }]
                valueRegex := [], includeRuleName := false, includeModelName := false
                includeUsingGroup := false }] }

def colonSession : Request :=
  { modelName := ['m'], usingGroup := ['g'], path := ['/'], userAgent := []
    contextInt := fun _ => 0, contextString := fun _ => [], header := fun _ => [':', 'x']
    gjson := fun _ => none }

/-- A value that begins with a colon is recorded and not found again by its own request. -/
theorem leading_colon_lost : ¬ sessions.Right colonSession colonSession ['s'] := by
  intro h
  have haff : sessions.affinity colonSession = some ⟨none, none, none, [':', 'x']⟩ := by
    decide +kernel
  have hfound := (h _ haff _ haff [] .empty 1 0 Int.one_pos).1 rfl
  have hlost : sessions.getPreferredChannelByAffinity
      (sessions.recordChannelAffinity [] colonSession 1 0) colonSession = none := by
    decide +kernel
  rw [hlost] at hfound
  cases hfound

end AffinityKeys
