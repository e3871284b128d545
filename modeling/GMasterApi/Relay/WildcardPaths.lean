import GMasterApi.Lib.JsonEdit

/-!
# Wildcards in the paths of operations

A path with a `*` is resolved to the paths of what it matches, and an operation is made at one
of them after the other.  The keys on a path are joined by dots as they are, so that a key
with a dot in it, or with another letter that means something in a path, leads elsewhere; an
index is read by `Atoi`, which takes a sign; and `delete` moves the items of a list while its
paths are worked off.  Otherwise what is matched is changed, each node once
(`matchedExactly_iff`).
-/

namespace Override.WildcardPaths

open GoString JsonValue

/-! ## `resolveOperationPaths` -/

/-- `strconv.Atoi` of an index. -/
def atoiIndex (segment : String) : Option ℕ :=
  match atoi segment with
  | some index => if index < 0 then none else some index.toNat
  | none => none

def collectWildcardPaths (node : Json) : List String → List String → List String
  | [], before => [join before '.']
  | first :: rest, before =>
    let segment := trimSpace first
    if segment = "" then []
    else if segment = "*" then
      match node with
      | .object typed =>
        ((typed.map Prod.fst).insertionSort (· ≤ ·)).flatMap fun key =>
          match typed.lookup key with
          | some child => collectWildcardPaths child rest (before ++ [key])
          | none => []
      | .array typed =>
        (List.range typed.length).flatMap fun index =>
          match typed[index]? with
          | some child => collectWildcardPaths child rest (before ++ [index.repr])
          | none => []
      | _ => []
    else
      match node with
      | .object typed =>
        if rest = [] then [join (before ++ [segment]) '.']
        else
          match typed.lookup segment with
          | some next => collectWildcardPaths next rest (before ++ [segment])
          | none => []
      | .array typed =>
        match (atoiIndex segment).bind fun index => typed[index]? with
        | some next =>
          if rest = [] then [join (before ++ [segment]) '.']
          else collectWildcardPaths next rest (before ++ [segment])
        | none => []
      | _ => []

/-- `lo.Uniq(collectWildcardPaths(root, strings.Split(path, "."), nil))` -/
def expandWildcardPaths (data : Json) (path : String) : List String :=
  (collectWildcardPaths data (split path '.') []).eraseDups

def resolveOperationPaths (data : Json) (path : String) : List String :=
  if '*' ∈ path.toList then expandWildcardPaths data path else [path]

/-! ## `gjson` and `sjson` -/

/-- The keys of a path: a dot ends a key, a backslash takes the next letter as it is, and a `*`
or a `?` makes it a pattern, which is no place. -/
def readKeys : List Char → Option (List (List Char))
  | [] => some [[]]
  | ['\\'] => some [[]]
  | '\\' :: c :: l => (readKeys l).map (List.modifyHead (c :: ·))
  | c :: l =>
    if c = '.' then (readKeys l).map ([] :: ·)
    else if c = '*' ∨ c = '?' then none
    else (readKeys l).map (List.modifyHead (c :: ·))

/-- The place of a path that is not empty. -/
def readPath (path : String) : Option (List String) :=
  if path = "" then none else (readKeys path.toList).map (List.map String.ofList)

/-- What `sjson` makes of a place in what is not there, and of a path that is no place. -/
structure Sjson where
  absent : Edit → List String → Option (Option Json)
  elsewhere : Edit → String → Json → Option Json

/-- The value at the path is read, and what has been made of it is set. -/
def Sjson.editPath (sjson : Sjson) (edit : Edit) (data : Json) (path : String) : Option Json :=
  match readPath path with
  | some keys => (editAt (sjson.absent edit) edit keys (some data)).bind id
  | none => sjson.elsewhere edit path data

/-! ## `applyOperations` -/

def deleteValue (sjson : Sjson) (data : Json) (path : String) : Option Json :=
  if trimSpace path = "" then some data else sjson.editPath remove data path

/-- An operation other than `delete`, as it is made at one path: what is there stays there. -/
structure Operation where
  edit : Edit
  keeps : edit.Keeps

/-- The loop over `opPaths` of an operation; `none` where it fails. -/
def Sjson.applyOperation (sjson : Sjson) (op : Operation) (opPaths : List String) (data : Json) :
    Option Json :=
  opPaths.foldlM (sjson.editPath op.edit) data

def Sjson.applyDelete (sjson : Sjson) (opPaths : List String) (data : Json) : Option Json :=
  opPaths.foldlM (deleteValue sjson) data

def setValue (value : Json) (keepOrigin : Bool) : Operation where
  edit
    | some current => some (some (if keepOrigin then current else value))
    | none => some (some value)
  keeps _ := by simp

/-- An operation on a text; it fails on anything else. -/
def onString (change : String → Option String) : Operation where
  edit
    | some (.string s) => (change s).map fun s => some (.string s)
    | _ => none
  keeps v := by cases v <;> simp

def trimStringValue (value : String) (isPrefix : Bool) : Operation :=
  onString fun s => some (if isPrefix then trimPrefix s value else trimSuffix s value)

def ensureStringAffix (value : String) (isPrefix : Bool) : Operation :=
  onString fun s =>
    if value = "" then none
    else if isPrefix then some (if hasPrefix s value then s else value ++ s)
    else some (if hasSuffix s value then s else s ++ value)

def transformStringValue (transform : String → String) : Operation :=
  onString fun s => some (transform s)

def replaceStringValue (source target : String) : Operation :=
  onString fun s => if source = "" then none else some (replaceAll s source target)

/-- `compile` is `regexp.Compile` with `ReplaceAllString`. -/
def regexReplaceStringValue (compile : String → Option (String → String)) (pattern : String) :
    Operation :=
  onString fun s => if pattern = "" then none else (compile pattern).map fun replace => replace s

/-- `prune` is `pruneObjectsNode` at the root of what is pruned. -/
def pruneObjects (prune : Json → Option Json) : Operation where
  edit
    | some v => (prune v).map some
    | none => some none
  keeps v h := by
    obtain ⟨v', -, heq⟩ := Option.map_eq_some_iff.mp h
    cases heq

def mergeObjects (current : Members) (value : Json) (keepOrigin : Bool) : Option Json :=
  match value with
  | .object new =>
    some (.object (new.foldl (fun result entry =>
      if ¬ keepOrigin ∨ result.lookup entry.1 = none ∨
          (result.lookup entry.1).any (fun v => match v with | .null => true | _ => false) then
        GoMap.assign result entry.1 entry.2
      else result) current))
  | .null => some (.object current)
  | _ => none

/-- `prepend` and `append`; `text` is the value as `%v` prints it. -/
def modifyValue (value : Json) (text : String) (keepOrigin isPrepend : Bool) : Operation where
  edit
    | some (.array items) =>
      let added := match value with
        | .array items => items
        | value => [value]
      some (some (.array (if isPrepend then added ++ items else items ++ added)))
    | some (.string s) => some (some (.string (if isPrepend then text ++ s else s ++ text)))
    | some (.object members) => (mergeObjects members value keepOrigin).map some
    | _ => none
  keeps v := by cases v <;> simp

/-! ## What is promised -/

/-- The body of a request: an object has each of its names once. -/
structure Body where
  json : Json
  duplicateFree : json.DuplicateFree

/-- What a segment between two dots matches; an empty one matches nothing. -/
def toSegment (segment : String) : Segment :=
  if trimSpace segment = "" then .nothing
  else if trimSpace segment = "*" then .any
  else .name (trimSpace segment)

def pattern (path : String) : List Segment := (split path '.').map toSegment

/-- An index without a sign. -/
def digitsIndex (segment : String) : Option ℕ :=
  if arrayIndex segment = none then none else atoiIndex segment

/-- The nodes that a path matches in a body, each by the keys on the way to it. -/
def matched (body : Body) (path : String) : List (List String) :=
  places digitsIndex (pattern path) (some body.json)

/-- The operations act on what the path matches. -/
structure MatchedExactly (sjson : Sjson) (body : Body) (path : String) : Prop where
  /-- The paths are read as the nodes that are matched, each once. -/
  addressed : (resolveOperationPaths body.json path).map readPath = (matched body path).map some
  applied : ∀ op : Operation,
    sjson.applyOperation op (resolveOperationPaths body.json path) body.json =
      (rewrite digitsIndex op.edit (pattern path) (some body.json)).bind id
  deleted : sjson.applyDelete (resolveOperationPaths body.json path) body.json =
    (rewrite digitsIndex remove (pattern path) (some body.json)).bind id

/-- A key that stands in a path as it is. -/
def Plain (key : String) : Prop := ∀ c ∈ key.toList, c ∉ ['.', '*', '?', '\\']

instance (key : String) : Decidable (Plain key) := List.decidableBAll _ _

/-- Every node that is matched, with indexes that may have a sign, is matched without one and
has plain keys on a path that is not blank; and no list loses more than one item. -/
structure Matchable (body : Body) (path : String) : Prop where
  plain : ∀ place ∈ places atoiIndex (pattern path) (some body.json),
    place ∈ matched body path ∧ (∀ key ∈ place, Plain key) ∧ trimSpace (join place '.') ≠ ""
  single : Single digitsIndex (pattern path) (some body.json)

/-! ## Paths that are read back -/

section Read

variable {l : List Char} {parts : List (List Char)} {path : String} {keys : List String}

theorem intercalate_modifyHead (c : Char) (h : parts ≠ []) :
    ['.'].intercalate (parts.modifyHead (c :: ·)) = c :: ['.'].intercalate parts := by
  cases parts with
  | nil => exact absurd rfl h
  | cons part parts =>
    cases parts with
    | nil => simp
    | cons next parts =>
      rw [List.modifyHead_cons, List.intercalate_cons_cons, List.intercalate_cons_cons]
      rfl

/-- A path without backslashes and patterns is split at its dots. -/
theorem readKeys_eq (h : ∀ c ∈ l, c ∉ ['*', '?', '\\']) : readKeys l = some (l.splitOn '.') := by
  induction l with
  | nil => rfl
  | cons c l ih =>
    obtain ⟨hc, hl⟩ := List.forall_mem_cons.mp h
    simp only [List.mem_cons, List.not_mem_nil, or_false, not_or] at hc
    rw [readKeys, ih hl, List.splitOn_cons_eq_if_modifyHead]
    · by_cases hdot : c = '.'
      · simp [hdot]
      · simp [hdot, hc]
    · rintro rfl
      exact absurd rfl hc.2.2
    · intro c' l' heq
      exact absurd heq hc.2.2

theorem not_pattern_of_readKeys (h : readKeys l = some parts) (hslash : '\\' ∉ l) :
    ∀ c ∈ l, c ∉ ['*', '?', '\\'] := by
  fun_induction readKeys l generalizing parts with
  | case1 => exact nofun
  | case2 => exact absurd List.mem_cons_self hslash
  | case3 c l ih => exact absurd List.mem_cons_self hslash
  | case4 l _ _ ih =>
    obtain ⟨rest, hrest, -⟩ := Option.map_eq_some_iff.mp h
    refine List.forall_mem_cons.mpr ⟨by decide, ih hrest ?_⟩
    exact fun hmem => hslash (List.mem_cons_of_mem _ hmem)
  | case5 => cases h
  | case6 c l _ _ _ hpattern ih =>
    obtain ⟨rest, hrest, -⟩ := Option.map_eq_some_iff.mp h
    obtain ⟨hc, hl⟩ := List.ne_and_not_mem_of_not_mem_cons hslash
    refine List.forall_mem_cons.mpr ⟨?_, ih hrest hl⟩
    simp only [List.mem_cons, List.not_mem_nil, or_false, not_or]
    exact ⟨fun h => hpattern (.inl h), fun h => hpattern (.inr h), fun h => hc h.symm⟩

/-- The keys that are read are no longer than the path, and shorter if it has a backslash. -/
theorem length_readKeys (h : readKeys l = some parts) : parts ≠ [] ∧
    (['.'].intercalate parts).length ≤ l.length ∧
      ('\\' ∈ l → (['.'].intercalate parts).length < l.length) := by
  have hhead : ∀ (c : Char) {rest : List (List Char)}, rest ≠ [] →
      rest.modifyHead (c :: ·) ≠ [] ∧ (['.'].intercalate (rest.modifyHead (c :: ·))).length =
        (['.'].intercalate rest).length + 1 := by
    intro c rest hne
    rw [intercalate_modifyHead c hne]
    refine ⟨?_, List.length_cons⟩
    cases rest with
    | nil => exact absurd rfl hne
    | cons => exact List.cons_ne_nil _ _
  fun_induction readKeys l generalizing parts with
  | case1 =>
    cases h
    simp
  | case2 =>
    cases h
    simp
  | case3 c l ih =>
    obtain ⟨rest, hrest, rfl⟩ := Option.map_eq_some_iff.mp h
    obtain ⟨hne, hle, -⟩ := ih hrest
    obtain ⟨hne', hlength⟩ := hhead c hne
    refine ⟨hne', ?_, fun _ => ?_⟩ <;> simp only [hlength, List.length_cons] <;> omega
  | case4 l _ _ ih =>
    obtain ⟨rest, hrest, rfl⟩ := Option.map_eq_some_iff.mp h
    obtain ⟨hne, hle, hlt⟩ := ih hrest
    cases rest with
    | nil => exact absurd rfl hne
    | cons part rest =>
      rw [List.intercalate_cons_cons]
      refine ⟨List.cons_ne_nil _ _, by simpa using hle, fun hmem => ?_⟩
      have hl := hlt (List.mem_of_ne_of_mem (by decide) hmem)
      simpa using hl
  | case5 => cases h
  | case6 c l hnil hslash _ _ ih =>
    obtain ⟨rest, hrest, rfl⟩ := Option.map_eq_some_iff.mp h
    obtain ⟨hne, hle, hlt⟩ := ih hrest
    obtain ⟨hne', hlength⟩ := hhead c hne
    refine ⟨hne', ?_, fun hmem => ?_⟩
    · simp only [hlength, List.length_cons]
      omega
    · rw [hlength, List.length_cons]
      refine Nat.succ_lt_succ (hlt (List.mem_of_ne_of_mem ?_ hmem))
      rintro rfl
      cases l with
      | nil => exact hnil rfl rfl
      | cons c l => exact hslash c l rfl rfl

theorem toList_join : (join keys '.').toList = ['.'].intercalate (keys.map String.toList) :=
  String.toList_ofList

theorem readPath_eq (hne : path ≠ "") (h : ∀ c ∈ path.toList, c ∉ ['*', '?', '\\']) :
    readPath path = some (split path '.') := by
  rw [readPath, if_neg hne, readKeys_eq h]
  rfl

theorem of_readPath (h : readPath path = some keys) (hslash : '\\' ∉ path.toList) :
    keys = split path '.' ∧ path ≠ "" ∧ ∀ c ∈ path.toList, c ∉ ['*', '?', '\\'] := by
  have hne : path ≠ "" := by
    rintro rfl
    cases h
  have hkeys := h
  rw [readPath, if_neg hne] at hkeys
  obtain ⟨parts, hparts, -⟩ := Option.map_eq_some_iff.mp hkeys
  have hpattern := not_pattern_of_readKeys hparts hslash
  rw [readPath_eq hne hpattern] at h
  exact ⟨(Option.some.inj h).symm, hne, hpattern⟩

theorem length_readPath (h : readPath path = some keys) :
    (join keys '.').length ≤ path.length ∧
      ('\\' ∈ path.toList → (join keys '.').length < path.length) := by
  have hne : path ≠ "" := by
    rintro rfl
    cases h
  rw [readPath, if_neg hne] at h
  obtain ⟨parts, hparts, rfl⟩ := Option.map_eq_some_iff.mp h
  obtain ⟨-, hle, hlt⟩ := length_readKeys hparts
  have hjoin : (join (parts.map String.ofList) '.').length = (['.'].intercalate parts).length := by
    rw [← String.length_toList, toList_join, List.map_map]
    simp [Function.comp_def]
  rw [hjoin, ← String.length_toList]
  exact ⟨hle, hlt⟩

end Read

/-! ## The paths of what is matched -/

section Resolve

variable {index : String → Option ℕ} {node : Json} {segments : List String}

/-- The paths are those of the places, the keys on the way joined by dots. -/
theorem collectWildcardPaths_eq (before : List String) :
    collectWildcardPaths node segments before =
      (places atoiIndex (segments.map toSegment) (some node)).map fun place =>
        join (before ++ place) '.' := by
  induction segments generalizing node before with
  | nil => simp [collectWildcardPaths, places]
  | cons first rest ih =>
    unfold collectWildcardPaths
    rw [List.map_cons, places, List.map_flatMap]
    simp only [List.map_map, Function.comp_def]
    by_cases hblank : trimSpace first = ""
    · simp [hblank, toSegment, slots]
    · rw [if_neg hblank]
      by_cases hany : trimSpace first = "*"
      · rw [if_pos hany, toSegment, if_neg hblank, if_pos hany]
        cases node with
        | object members =>
          refine List.flatMap_congr fun key hkey => ?_
          obtain ⟨child, hchild⟩ := GoMap.exists_lookup ((List.mem_insertionSort _).mp hkey)
          have hchild' : childOf atoiIndex .any (.object members) key = some child := hchild
          rw [hchild']
          simp [hchild, ih]
        | array items =>
          show _ = ((List.range items.length).map Nat.repr).flatMap _
          rw [List.flatMap_map]
          refine List.flatMap_congr fun i hi => ?_
          have hget := List.getElem?_eq_getElem (List.mem_range.mp hi)
          have hchild' : childOf atoiIndex .any (.array items) i.repr = items[i]? := by
            show (arrayIndex i.repr).bind (fun i => items[i]?) = items[i]?
            rw [arrayIndex_repr]
            rfl
          rw [hchild', hget]
          simp [ih]
        | _ => rfl
      · rw [if_neg hany, toSegment, if_neg hblank, if_neg hany]
        cases node with
        | object members =>
          have hchild : childOf atoiIndex (.name (trimSpace first)) (.object members)
              (trimSpace first) = members.lookup (trimSpace first) := rfl
          show _ = [trimSpace first].flatMap _
          rw [List.flatMap_singleton, hchild]
          by_cases hrest : rest = []
          · simp [hrest, places]
          · obtain ⟨second, rest, rfl⟩ := List.exists_cons_of_ne_nil hrest
            cases hlookup : members.lookup (trimSpace first) with
            | none => simp [hlookup, places]
            | some next => simp [hlookup, ih]
        | array items =>
          have hchild : childOf atoiIndex (.name (trimSpace first)) (.array items)
              (trimSpace first) = (atoiIndex (trimSpace first)).bind fun i => items[i]? := rfl
          cases hnext : (atoiIndex (trimSpace first)).bind fun i => items[i]? with
          | none =>
            have hslots : slots atoiIndex (.name (trimSpace first)) (.array items) = [] := by
              refine if_neg fun hany => ?_
              obtain ⟨i, hi, hlt⟩ := (Option.any_eq_true ..).mp hany
              rw [hi, Option.bind_some, List.getElem?_eq_none_iff] at hnext
              exact absurd (of_decide_eq_true hlt) (Nat.not_lt.mpr hnext)
            simp [hnext, hslots]
          | some next =>
            have hslots : slots atoiIndex (.name (trimSpace first)) (.array items) =
                [trimSpace first] := by
              obtain ⟨i, hi, hget⟩ := Option.bind_eq_some_iff.mp hnext
              obtain ⟨hlt, -⟩ := List.getElem?_eq_some_iff.mp hget
              exact if_pos (by simpa [hi] using hlt)
            rw [hslots, List.flatMap_singleton, hchild, hnext]
            by_cases hrest : rest = []
            · simp [hrest, hnext, places]
            · simp [hrest, hnext, ih]
        | _ => rfl

end Resolve

/-! ## The nodes that the paths lead to -/

section Matched

variable {sjson : Sjson} {body : Body} {path : String} {place : List String}

/-- The places that are matched where an index may have a sign. -/
def candidates (body : Body) (path : String) : List (List String) :=
  places atoiIndex (pattern path) (some body.json)

theorem readsDigits_digitsIndex : ReadsDigits digitsIndex := by
  intro key i h
  unfold digitsIndex at h
  split at h
  · cases h
  · rename_i hsome
    obtain ⟨n, hn⟩ := Option.ne_none_iff_exists'.mp hsome
    have hdigits := hn
    unfold arrayIndex at hdigits
    split at hdigits
    · cases hdigits
    · rename_i hne
      unfold atoiIndex at h
      split at h
      · rename_i index hindex
        have hdecimal := (Option.filter_eq_some_iff.mp hindex).1
        rw [decimal_of_digits hne hdigits, Option.some.injEq] at hdecimal
        rw [← hdecimal, if_neg (by omega), Int.toNat_natCast] at h
        rw [hn, h]
      · cases h

theorem matched_sublist : (matched body path).Sublist (candidates body path) := by
  refine places_sublist (fun key i h => ?_) _ _
  unfold digitsIndex at h
  split at h
  · cases h
  · exact h

theorem pattern_ne_nil : pattern path ≠ [] := by
  simp [pattern, split]

theorem length_of_mem_candidates (h : place ∈ candidates body path) :
    place.length = (pattern path).length := length_of_mem_places h

theorem ne_nil_of_mem_candidates (h : place ∈ candidates body path) : place ≠ [] := by
  rintro rfl
  exact pattern_ne_nil (List.length_eq_zero_iff.mp (length_of_mem_candidates h).symm)

theorem nodup_candidates : (candidates body path).Nodup := by
  refine nodup_places _ _ ?_
  rintro _ ⟨rfl⟩
  exact body.duplicateFree

theorem nodup_matched : (matched body path).Nodup := nodup_candidates.sublist matched_sublist

theorem resolveOperationPaths_eq (h : '*' ∈ path.toList) : resolveOperationPaths body.json path =
    ((candidates body path).map fun place => join place '.').eraseDups := by
  rw [resolveOperationPaths, if_pos h, expandWildcardPaths, collectWildcardPaths_eq]
  rfl

theorem mem_resolveOperationPaths (h : '*' ∈ path.toList) (hplace : place ∈ candidates body path) :
    join place '.' ∈ resolveOperationPaths body.json path := by
  rw [resolveOperationPaths_eq h, List.mem_eraseDups]
  exact List.mem_map_of_mem hplace

theorem exists_matched (h : '*' ∈ path.toList)
    (haddressed : (resolveOperationPaths body.json path).map readPath =
      (matched body path).map some) (hplace : place ∈ candidates body path) :
    ∃ keys ∈ matched body path, readPath (join place '.') = some keys := by
  have hread : readPath (join place '.') ∈ (resolveOperationPaths body.json path).map readPath :=
    List.mem_map_of_mem (mem_resolveOperationPaths h hplace)
  rw [haddressed] at hread
  obtain ⟨keys, hkeys, heq⟩ := List.mem_map.mp hread
  exact ⟨keys, hkeys, heq.symm⟩

/-- Without a backslash a path is read as the keys that it is joined of. -/
theorem readPath_join (h : '*' ∈ path.toList)
    (haddressed : (resolveOperationPaths body.json path).map readPath =
      (matched body path).map some) (hplace : place ∈ candidates body path)
    (hslash : '\\' ∉ (join place '.').toList) :
    readPath (join place '.') = some place ∧ ∀ key ∈ place, '.' ∉ key.toList := by
  obtain ⟨keys, hkeys, hread⟩ := exists_matched h haddressed hplace
  obtain ⟨rfl, -⟩ := of_readPath hread hslash
  have hlength := length_of_mem_candidates (matched_sublist.subset hkeys)
  rw [← length_of_mem_candidates hplace] at hlength
  obtain ⟨hdots, hsplit⟩ := split_join_of_length (ne_nil_of_mem_candidates hplace) hlength
  rw [hread, hsplit]
  exact ⟨rfl, hdots⟩

/-- **No path has a backslash**, if the paths are read as what is matched.  The keys that one
with a backslash is read as are those of a shorter path, which is then read as the same. -/
theorem no_slash (h : '*' ∈ path.toList)
    (haddressed : (resolveOperationPaths body.json path).map readPath =
      (matched body path).map some) : ∀ (n : ℕ) (place : List String),
    place ∈ candidates body path → (join place '.').length < n →
      '\\' ∉ (join place '.').toList
  | 0, _, _, hlt => absurd hlt (Nat.not_lt_zero _)
  | n + 1, place, hplace, hlt => by
    intro hslash
    obtain ⟨keys, hkeys, hread⟩ := exists_matched h haddressed hplace
    have hshorter := (length_readPath hread).2 hslash
    have hkeys' := matched_sublist.subset hkeys
    have hrest := no_slash h haddressed n keys hkeys' (by omega)
    have hback := (readPath_join h haddressed hkeys' hrest).1
    have hnodup : ((resolveOperationPaths body.json path).map readPath).Nodup := by
      rw [haddressed]
      exact nodup_matched.map (Option.some_injective _)
    have hsame := List.inj_on_of_nodup_map hnodup (mem_resolveOperationPaths h hplace)
      (mem_resolveOperationPaths h hkeys') (hread.trans hback.symm)
    rw [hsame] at hshorter
    exact lt_irrefl _ hshorter

/-- What is matched is read back from its path. -/
theorem plain_of_addressed (h : '*' ∈ path.toList)
    (haddressed : (resolveOperationPaths body.json path).map readPath =
      (matched body path).map some) (hplace : place ∈ candidates body path) :
    place ∈ matched body path ∧ (∀ key ∈ place, Plain key) ∧ join place '.' ≠ "" := by
  have hslash := no_slash h haddressed _ place hplace (Nat.lt_succ_self _)
  obtain ⟨hread, hdots⟩ := readPath_join h haddressed hplace hslash
  obtain ⟨keys, hkeys, hread'⟩ := exists_matched h haddressed hplace
  obtain ⟨-, hne, hpattern⟩ := of_readPath hread hslash
  obtain rfl : place = keys := Option.some.inj (hread.symm.trans hread')
  refine ⟨hkeys, fun key hkey c hc hspecial => ?_, hne⟩
  rcases List.mem_cons.mp hspecial with rfl | hspecial
  · exact hdots key hkey hc
  · exact hpattern c (mem_join_of_mem hkey hc) hspecial

theorem readPath_of_plain (hne : place ≠ []) (hplain : ∀ key ∈ place, Plain key)
    (hpath : join place '.' ≠ "") : readPath (join place '.') = some place := by
  have hdots : ∀ key ∈ place, '.' ∉ key.toList := fun key hkey hdot =>
    hplain key hkey '.' hdot List.mem_cons_self
  rw [readPath_eq hpath, split_join hdots hne]
  intro c hc hspecial
  rcases mem_join hc with rfl | ⟨key, hkey, hc⟩
  · exact absurd hspecial (by decide)
  · exact hplain key hkey c hc (List.mem_cons_of_mem _ hspecial)

theorem eraseDups_eq_self {α : Type} [BEq α] [LawfulBEq α] {l : List α} (h : l.Nodup) :
    l.eraseDups = l := by
  induction l with
  | nil => rfl
  | cons a l ih =>
    obtain ⟨ha, hl⟩ := List.nodup_cons.mp h
    have hfilter : l.filter (fun b => !b == a) = l := by
      rw [List.filter_eq_self]
      intro b hb
      have hne : b ≠ a := fun heq => ha (heq ▸ hb)
      simp [hne]
    rw [List.eraseDups_cons, hfilter, ih hl]

/-- Where every candidate is matched and has plain keys, the paths are those of what is matched. -/
theorem resolveOperationPaths_of_plain (h : '*' ∈ path.toList)
    (hplain : ∀ place ∈ candidates body path, place ∈ matched body path ∧
      (∀ key ∈ place, Plain key) ∧ join place '.' ≠ "") :
    resolveOperationPaths body.json path = (matched body path).map (fun place => join place '.') ∧
      ∀ place ∈ matched body path, readPath (join place '.') = some place := by
  have hsame : matched body path = candidates body path := by
    refine matched_sublist.eq_of_length_le ?_
    have hsubset := fun place hplace => (hplain place hplace).1
    exact (List.subperm_of_subset nodup_candidates hsubset).length_le
  have hread : ∀ place ∈ matched body path, readPath (join place '.') = some place := by
    intro place hplace
    obtain ⟨-, hkeys, hne⟩ := hplain place (matched_sublist.subset hplace)
    exact readPath_of_plain (ne_nil_of_mem_candidates (matched_sublist.subset hplace)) hkeys hne
  have hnodup : ((matched body path).map fun place => join place '.').Nodup := by
    refine nodup_matched.map_on fun a ha b hb heq => Option.some.inj ?_
    rw [← hread a ha, ← hread b hb, heq]
  refine ⟨?_, hread⟩
  rw [resolveOperationPaths_eq h, ← hsame, eraseDups_eq_self hnodup]

/-- What is done at the paths of some places is the edit of these places. -/
theorem foldlM_paths {step : Json → String → Option Json} {edit : Edit}
    {ps : List (List String)} {data : Json} (hne : ∀ place ∈ ps, place ≠ [])
    (hstep : ∀ place ∈ ps, ∀ data, step data (join place '.') =
      (editAt (sjson.absent edit) edit place (some data)).bind id) :
    (ps.map fun place => join place '.').foldlM step data =
      (editAll (sjson.absent edit) edit ps (some data)).bind id := by
  induction ps generalizing data with
  | nil => rfl
  | cons place ps ih =>
    obtain ⟨hplace, hne⟩ := List.forall_mem_cons.mp hne
    obtain ⟨hhead, hstep⟩ := List.forall_mem_cons.mp hstep
    rw [List.map_cons, List.foldlM_cons, editAll_cons, hhead]
    cases hedit : editAt (sjson.absent edit) edit place (some data) with
    | none => rfl
    | some x =>
      obtain ⟨data', rfl⟩ := exists_of_editAt hplace hedit
      exact ih hne hstep

theorem applyOperation_eq (op : Operation)
    (hread : ∀ place ∈ matched body path, readPath (join place '.') = some place) :
    sjson.applyOperation op ((matched body path).map fun place => join place '.') body.json =
      (rewrite digitsIndex op.edit (pattern path) (some body.json)).bind id := by
  have hfree : ∀ v, some body.json = some v → v.DuplicateFree := by
    rintro _ ⟨rfl⟩
    exact body.duplicateFree
  have hne : ∀ place ∈ matched body path, place ≠ [] := fun place hplace =>
    ne_nil_of_mem_candidates (matched_sublist.subset hplace)
  have heach : editEach (sjson.absent op.edit) digitsIndex op.edit (pattern path)
      (some body.json) = rewrite digitsIndex op.edit (pattern path) (some body.json) :=
    editEach_eq_rewrite readsDigits_digitsIndex op.keeps _ _ hfree
  rw [← heach]
  refine foldlM_paths hne fun place hplace data => ?_
  rw [Sjson.editPath, hread place hplace]

theorem applyDelete_eq (hblank : ∀ place ∈ matched body path, trimSpace (join place '.') ≠ "")
    (hread : ∀ place ∈ matched body path, readPath (join place '.') = some place) :
    sjson.applyDelete ((matched body path).map fun place => join place '.') body.json =
      (editEach (sjson.absent remove) digitsIndex remove (pattern path)
        (some body.json)).bind id := by
  have hne : ∀ place ∈ matched body path, place ≠ [] := fun place hplace =>
    ne_nil_of_mem_candidates (matched_sublist.subset hplace)
  refine foldlM_paths hne fun place hplace data => ?_
  rw [deleteValue, if_neg (hblank place hplace), Sjson.editPath, hread place hplace]

/-- The paths that are not blank remove what is matched exactly if no list loses more than one
item. -/
theorem editEach_remove_bind_iff :
    (editEach (sjson.absent remove) digitsIndex remove (pattern path) (some body.json)).bind id =
        (rewrite digitsIndex remove (pattern path) (some body.json)).bind id ↔
      Single digitsIndex (pattern path) (some body.json) := by
  have hcode : Edit.Total (editEach (sjson.absent remove) digitsIndex remove (pattern path)) :=
    total_editEach_remove readsDigits_digitsIndex _ pattern_ne_nil
  have hspec : Edit.Total (rewrite digitsIndex remove (pattern path)) :=
    total_rewrite_remove pattern_ne_nil
  obtain ⟨v, hv⟩ := hcode.2 body.json body.duplicateFree
  obtain ⟨v', hv'⟩ := hspec.2 body.json body.duplicateFree
  have hfree : ∀ v, some body.json = some v → v.DuplicateFree := by
    rintro _ ⟨rfl⟩
    exact body.duplicateFree
  have hiff : editEach (sjson.absent remove) digitsIndex remove (pattern path) (some body.json) =
      rewrite digitsIndex remove (pattern path) (some body.json) ↔ _ :=
    editEach_remove_iff readsDigits_digitsIndex _ _ hfree
  rw [← hiff, hv, hv']
  simp

/-! ### Blank paths -/

/-- The name of a segment is not blank. -/
theorem trimSpace_name {name : String} (h : pattern path = [.name name]) : trimSpace name ≠ "" := by
  have hmem : Segment.name name ∈ pattern path := by
    rw [h]
    exact List.mem_singleton_self _
  obtain ⟨segment, -, hsegment⟩ := List.mem_map.mp hmem
  unfold toSegment at hsegment
  split at hsegment
  · cases hsegment
  · rename_i hne
    split at hsegment
    · cases hsegment
    · cases hsegment
      rwa [trimSpace_trimSpace]

/-- A blank path has one key, of an object all of whose members are matched. -/
theorem exists_of_blank (hplace : place ∈ matched body path) (hne : join place '.' ≠ "")
    (hblank : trimSpace (join place '.') = "") :
    ∃ key members, place = [key] ∧ pattern path = [.any] ∧ body.json = .object members ∧
      key ∈ members.map Prod.fst := by
  have hlength := length_of_mem_candidates (matched_sublist.subset hplace)
  have hspaces := isSpace_of_blank hblank
  rcases place with _ | ⟨key, _ | ⟨second, rest⟩⟩
  · exact absurd rfl (ne_nil_of_mem_candidates (matched_sublist.subset hplace))
  · obtain ⟨segment, hpattern⟩ := List.length_eq_one_iff.mp hlength.symm
    rw [join_singleton] at hne hblank hspaces
    have hslot : key ∈ slots digitsIndex segment body.json := by
      rw [matched, hpattern] at hplace
      obtain ⟨slot, hslot, hkeys⟩ := List.mem_flatMap.mp hplace
      obtain ⟨rest, -, heq⟩ := List.mem_map.mp hkeys
      rwa [← (List.cons.inj heq).1]
    cases segment with
    | any =>
      cases hjson : body.json with
      | object members =>
        rw [hjson] at hslot
        exact ⟨key, members, rfl, hpattern, rfl, mem_slots_any.mp hslot⟩
      | array items =>
        rw [hjson] at hslot
        obtain ⟨i, -, rfl⟩ := List.mem_map.mp hslot
        obtain ⟨c, hc⟩ := List.exists_mem_of_ne_nil _ (String.toList_eq_nil_iff.not.mpr hne)
        have hspace := hspaces c hc
        rw [isSpace_of_isDigit (isDigit_of_mem_repr hc)] at hspace
        cases hspace
      | _ =>
        rw [hjson] at hslot
        cases hslot
    | name name =>
      have hkey : key = name := by
        rcases slots_name_eq digitsIndex name body.json with heq | heq
        · rw [heq] at hslot
          cases hslot
        · rw [heq] at hslot
          exact List.mem_singleton.mp hslot
      exact absurd (hkey ▸ hblank) (trimSpace_name hpattern)
    | nothing => cases hjson : body.json <;> rw [hjson] at hslot <;> cases hslot
  · have hdot : '.' ∈ (join (key :: second :: rest) '.').toList := by
      rw [join_cons_cons]
      simp
    exact absurd (hspaces '.' hdot) (by decide)

theorem lookup_delete_path {key p : String} {data data' : Json} {members : Members}
    (hread : readPath p = some [p]) (hblank : trimSpace key = "") (hdata : data = .object members)
    (hmem : (members.lookup key).isSome) (h : deleteValue sjson data p = some data') :
    ∃ members', data' = .object members' ∧ (members'.lookup key).isSome := by
  rw [deleteValue] at h
  split at h
  · cases h
    exact ⟨members, hdata, hmem⟩
  · rename_i hp
    rw [Sjson.editPath, hread, hdata] at h
    refine ⟨putMember members p none, ?_, ?_⟩
    · exact (Option.some.inj h).symm
    · rwa [lookup_putMember_of_ne]
      rintro rfl
      exact hp hblank

/-- The name that is blank stays. -/
theorem lookup_of_blank {key : String} {data data' : Json} {members : Members} {ps : List String}
    (hps : ∀ p ∈ ps, readPath p = some [p]) (hblank : trimSpace key = "")
    (hdata : data = .object members) (hmem : (members.lookup key).isSome)
    (h : sjson.applyDelete ps data = some data') :
    ∃ members', data' = .object members' ∧ (members'.lookup key).isSome := by
  induction ps generalizing data members with
  | nil =>
    cases h
    exact ⟨members, hdata, hmem⟩
  | cons p ps ih =>
    obtain ⟨hp, hps⟩ := List.forall_mem_cons.mp hps
    rw [Sjson.applyDelete, List.foldlM_cons] at h
    obtain ⟨next, hnext, hrest⟩ := Option.bind_eq_some_iff.mp h
    obtain ⟨members', hdata', hmem'⟩ := lookup_delete_path hp hblank hdata hmem hnext
    exact ih hps hdata' hmem' hrest

theorem editMembers_remove {members : Members} :
    editMembers (fun _ => remove) members = some [] := by
  induction members with
  | nil => rfl
  | cons member members ih =>
    rw [editMembers, ih]
    rfl

/-- A path that is blank is left alone, so that what it leads to stays. -/
theorem not_blank_of_deleted
    (hpaths : resolveOperationPaths body.json path =
      (matched body path).map fun place => join place '.')
    (hread : ∀ place ∈ matched body path, readPath (join place '.') = some place)
    (hdeleted : sjson.applyDelete (resolveOperationPaths body.json path) body.json =
      (rewrite digitsIndex remove (pattern path) (some body.json)).bind id)
    (hplace : place ∈ matched body path) (hne : join place '.' ≠ "") :
    trimSpace (join place '.') ≠ "" := by
  intro hblank
  obtain ⟨key, members, rfl, hpattern, hjson, hkey⟩ := exists_of_blank hplace hne hblank
  rw [join_singleton] at hblank
  obtain ⟨value, hvalue⟩ := GoMap.exists_lookup hkey
  have hps : ∀ p ∈ resolveOperationPaths body.json path, readPath p = some [p] := by
    intro p hp
    rw [hpaths] at hp
    obtain ⟨keys, hkeys, rfl⟩ := List.mem_map.mp hp
    have hlength := length_of_mem_candidates (matched_sublist.subset hkeys)
    rw [hpattern] at hlength
    obtain ⟨k, rfl⟩ := List.length_eq_one_iff.mp hlength
    rw [hread [k] hkeys, join_singleton]
  have hempty : (rewrite digitsIndex remove (pattern path) (some body.json)).bind id =
      some (.object []) := by
    rw [hpattern, hjson]
    show ((Option.map Json.object (editMembers (fun _ => remove) members)).map some).bind id = _
    rw [editMembers_remove]
    rfl
  rw [hempty] at hdeleted
  obtain ⟨members', hmembers', hstays⟩ := lookup_of_blank hps hblank hjson
    (Option.isSome_iff_exists.mpr ⟨value, hvalue⟩) hdeleted
  cases hmembers'
  cases hstays

/-- **What is matched is changed, each node once**, exactly if every node has a path that leads
to it and no list loses more than one item. -/
theorem matchedExactly_iff (sjson : Sjson) (body : Body) (path : String)
    (h : '*' ∈ path.toList) : MatchedExactly sjson body path ↔ Matchable body path := by
  constructor
  · rintro ⟨haddressed, -, hdeleted⟩
    have hplain : ∀ place ∈ candidates body path, place ∈ matched body path ∧
        (∀ key ∈ place, Plain key) ∧ join place '.' ≠ "" := fun _ hplace =>
      plain_of_addressed h haddressed hplace
    obtain ⟨hpaths, hread⟩ := resolveOperationPaths_of_plain h hplain
    have hblank : ∀ place ∈ matched body path, trimSpace (join place '.') ≠ "" := by
      intro place hplace
      have hne := (hplain place (matched_sublist.subset hplace)).2.2
      exact not_blank_of_deleted hpaths hread hdeleted hplace hne
    constructor
    · intro place hplace
      obtain ⟨hmatched, hkeys, -⟩ := hplain place hplace
      exact ⟨hmatched, hkeys, hblank place hmatched⟩
    · rw [hpaths, applyDelete_eq hblank hread] at hdeleted
      exact editEach_remove_bind_iff.mp hdeleted
  · rintro ⟨hplain, hsingle⟩
    obtain ⟨hpaths, hread⟩ := resolveOperationPaths_of_plain h fun place hplace => by
      obtain ⟨hmatched, hkeys, hblank⟩ := hplain place hplace
      refine ⟨hmatched, hkeys, fun hempty => hblank ?_⟩
      rw [hempty]
      rfl
    have hblank : ∀ place ∈ matched body path, trimSpace (join place '.') ≠ "" :=
      fun place hplace => (hplain place (matched_sublist.subset hplace)).2.2
    constructor
    · rw [hpaths, List.map_map]
      exact List.map_congr_left hread
    · intro op
      rw [hpaths, applyOperation_eq op hread]
    · rw [hpaths, applyDelete_eq hblank hread]
      exact editEach_remove_bind_iff.mpr hsingle

end Matched

/-! ## Runs -/

/-- Nothing is done where nothing is. -/
def inPlace : Sjson := ⟨fun _ _ => none, fun _ _ _ => none⟩

/-- `{"a": {"b": "x"}}` -/
def oneMember : Body where
  json := .object [("a", .object [("b", .string "x")])]
  duplicateFree := by
    simp [Json.DuplicateFree, MembersDuplicateFree]

theorem matchedExactly_members : MatchedExactly inPlace oneMember "a.*" := by
  have hpattern : pattern "a.*" = [.name "a", .any] := by rfl
  refine (matchedExactly_iff inPlace oneMember "a.*" (by decide)).mpr ⟨?_, ?_⟩
  · have hplaces : places atoiIndex (pattern "a.*") (some oneMember.json) = [["a", "b"]] := by rfl
    have hmatched : matched oneMember "a.*" = [["a", "b"]] := by rfl
    rw [hplaces, hmatched]
    decide
  · rw [hpattern]
    have hmember : Single digitsIndex [.any] (some (.object [("b", .string "x")])) :=
      ⟨fun _ _ items h => (nomatch h), fun _ _ => trivial⟩
    exact ⟨fun h => (nomatch h), List.forall_mem_singleton.mpr hmember⟩

/-- `{"a": ["x", "y"]}` -/
def twoItems : Body where
  json := .object [("a", .array [.string "x", .string "y"])]
  duplicateFree := by
    simp [Json.DuplicateFree, MembersDuplicateFree, ItemsDuplicateFree]

/-- A list is not emptied: the second item has moved when its path is worked off. -/
theorem second_item_stays :
    inPlace.applyDelete (resolveOperationPaths twoItems.json "a.*") twoItems.json =
        some (.object [("a", .array [.string "y"])]) ∧
      ¬ MatchedExactly inPlace twoItems "a.*" := by
  have hresult : inPlace.applyDelete (resolveOperationPaths twoItems.json "a.*") twoItems.json =
      some (.object [("a", .array [.string "y"])]) := by rfl
  refine ⟨hresult, fun h => ?_⟩
  have hdeleted := h.deleted
  have hmatched : (rewrite digitsIndex remove (pattern "a.*") (some twoItems.json)).bind id =
      some (.object [("a", .array [])]) := by rfl
  rw [hresult, hmatched] at hdeleted
  cases hdeleted


end Override.WildcardPaths
