import GMasterApi.Lib.Binary64
import GMasterApi.Lib.JsonValue

/-!
# Fields that a channel disables

`RemoveDisabledFields` takes the fields that the settings of a channel do not allow out of
the body of a request.  Where `hasRemovableDisabledField` finds none of them the body stays
as it is; otherwise it is read into a map, with its numbers as `float64`, and written again.

`removes_exactly_iff` says of which bodies exactly these fields are removed.
-/

namespace Relay.Fields

open JsonValue Binary64 GoMap

/-- The settings of a channel that decide on fields. -/
structure ChannelOtherSettings where
  allowServiceTier : Bool
  allowInferenceGeo : Bool
  allowSpeed : Bool
  allowSafetyIdentifier : Bool
  disableStore : Bool
  allowIncludeObfuscation : Bool
  deriving DecidableEq

/-- The body of a request: an object without duplicate names. -/
structure Body where
  members : Members
  duplicateFree : (Json.object members).DuplicateFree

/-! ## `RemoveDisabledFields` -/

/-- `Exists` of the path `stream_options.include_obfuscation`. -/
def hasIncludeObfuscation (jsonData : Members) : Bool :=
  match jsonData.lookup "stream_options" with
  | some (.object streamOptions) => (streamOptions.lookup "include_obfuscation").isSome
  | _ => false

def hasRemovableDisabledField (s : ChannelOtherSettings) (jsonData : Members) : Bool :=
  (!s.allowServiceTier && (jsonData.lookup "service_tier").isSome) ||
  (!s.allowInferenceGeo && (jsonData.lookup "inference_geo").isSome) ||
  (!s.allowSpeed && (jsonData.lookup "speed").isSome) ||
  (s.disableStore && (jsonData.lookup "store").isSome) ||
  (!s.allowSafetyIdentifier && (jsonData.lookup "safety_identifier").isSome) ||
  (!s.allowIncludeObfuscation && hasIncludeObfuscation jsonData)

def maxNestingDepth : ℕ := 10000

/-- `common.Unmarshal` into a `map[string]interface`; `none` where it returns an error. -/
def unmarshal (jsonData : Members) : Option Members :=
  if (Json.object jsonData).depth ≤ maxNestingDepth then mapMembers parseFloat jsonData else none

/-- `common.Marshal`. -/
def marshal (data : Members) : Option Members := mapMembers (fun x => some (formatFloat x)) data

def deleteUnless (allowed : Bool) (name : String) (data : Members) : Members :=
  if allowed then data else delete data name

def removeServiceTier (s : ChannelOtherSettings) : Members → Members :=
  deleteUnless s.allowServiceTier "service_tier"

def removeInferenceGeo (s : ChannelOtherSettings) : Members → Members :=
  deleteUnless s.allowInferenceGeo "inference_geo"

def removeSpeed (s : ChannelOtherSettings) : Members → Members :=
  deleteUnless s.allowSpeed "speed"

def removeStore (s : ChannelOtherSettings) : Members → Members :=
  deleteUnless (!s.disableStore) "store"

def removeSafetyIdentifier (s : ChannelOtherSettings) : Members → Members :=
  deleteUnless s.allowSafetyIdentifier "safety_identifier"

def removeIncludeObfuscation (s : ChannelOtherSettings) (data : Members) : Members :=
  if s.allowIncludeObfuscation then data
  else match data.lookup "stream_options" with
    | some (.object streamOptions) =>
      let streamOptions := delete streamOptions "include_obfuscation"
      if streamOptions = [] then delete data "stream_options"
      else assign data "stream_options" (.object streamOptions)
    | _ => data

/-- What is taken out of the map. -/
def removeFields (s : ChannelOtherSettings) (data : Members) : Members :=
  removeIncludeObfuscation s (removeSafetyIdentifier s (removeStore s (removeSpeed s
    (removeInferenceGeo s (removeServiceTier s data)))))

/-- `RemoveDisabledFields` from where it has found a field to remove. -/
def removeFound (s : ChannelOtherSettings) (jsonData : Members) : Members :=
  match unmarshal jsonData with
  | none => jsonData
  | some data =>
    match marshal (removeFields s data) with
    | none => jsonData
    | some jsonDataAfter => jsonDataAfter

/-- `RemoveDisabledFields`; `passThrough` is the global or the channel's setting. -/
def removeDisabledFields (s : ChannelOtherSettings) (passThrough : Bool) (jsonData : Members) :
    Members :=
  if passThrough then jsonData
  else if !hasRemovableDisabledField s jsonData then jsonData
  else removeFound s jsonData

/-! ## What is promised -/

def nameUnless (allowed : Bool) (name : String) : List String := if allowed then [] else [name]

/-- The names that the settings do not allow. -/
def disabledNames (s : ChannelOtherSettings) : List String :=
  nameUnless s.allowServiceTier "service_tier" ++ nameUnless s.allowInferenceGeo "inference_geo" ++
    nameUnless s.allowSpeed "speed" ++ nameUnless (!s.disableStore) "store" ++
    nameUnless s.allowSafetyIdentifier "safety_identifier"

/-- Two objects with the same members. -/
def SameMembers (members members' : Members) : Prop :=
  ∀ name, members.lookup name = members'.lookup name

/-- What may become of `stream_options`: it loses `include_obfuscation` where that is not
allowed, and is dropped if it has lost all it had. -/
def StreamOptionsKept (s : ChannelOtherSettings) (before after : Option Json) : Prop :=
  match before with
  | some (.object streamOptions) =>
    if s.allowIncludeObfuscation ∨ streamOptions.lookup "include_obfuscation" = none then
      after = before
    else
      after = some (.object (delete streamOptions "include_obfuscation")) ∨
        delete streamOptions "include_obfuscation" = [] ∧ after = none
  | _ => after = before

/-- Exactly the disabled fields are removed from the body, with or without the fast path. -/
structure RemovesExactly (s : ChannelOtherSettings) (jsonData : Members) : Prop where
  absent : ∀ name ∈ disabledNames s, (removeDisabledFields s false jsonData).lookup name = none
  others : ∀ name, name ∉ disabledNames s → name ≠ "stream_options" →
    (removeDisabledFields s false jsonData).lookup name = jsonData.lookup name
  streamOptions : StreamOptionsKept s (jsonData.lookup "stream_options")
    ((removeDisabledFields s false jsonData).lookup "stream_options")
  found : SameMembers (removeDisabledFields s false jsonData) (removeFound s jsonData)
  twice : SameMembers (removeDisabledFields s false (removeDisabledFields s false jsonData))
    (removeDisabledFields s false jsonData)
  survives : ∀ name ∈ disabledNames s,
    ((removeDisabledFields s false (delete jsonData name)).lookup "stream_options").isSome =
      ((removeDisabledFields s false jsonData).lookup "stream_options").isSome

/-- The body is read without an error. -/
def Decodable (jsonData : Members) : Prop :=
  (Json.object jsonData).depth ≤ maxNestingDepth ∧
    ∀ q ∈ membersNumbers jsonData, (parseFloat q).isSome

/-- The condition on a body.  One with a disabled field can be read; and one that can be
read has, in what is not removed, only numbers that are printed as they were, and no empty
`stream_options`, unless `include_obfuscation` is allowed. -/
structure Rewritable (s : ChannelOtherSettings) (jsonData : Members) : Prop where
  decodable : hasRemovableDisabledField s jsonData = true → Decodable jsonData
  exact : Decodable jsonData →
    ∀ q ∈ membersNumbers (removeFields s jsonData), reprint q = some q
  notEmpty : Decodable jsonData → s.allowIncludeObfuscation = false →
    jsonData.lookup "stream_options" ≠ some (.object [])

/-! ## What is taken out -/

variable {s : ChannelOtherSettings} {name : String} {value : Json} {m m' data : Members}
  {f : ℚ → Option ℚ} {before : Option Json}

theorem mem_nameUnless {allowed : Bool} {field : String} :
    name ∈ nameUnless allowed field ↔ name = field ∧ allowed = false := by
  unfold nameUnless
  cases allowed <;> simp

theorem mem_disabledNames : name ∈ disabledNames s ↔
    name = "service_tier" ∧ s.allowServiceTier = false ∨
    name = "inference_geo" ∧ s.allowInferenceGeo = false ∨
    name = "speed" ∧ s.allowSpeed = false ∨
    name = "store" ∧ s.disableStore = true ∨
    name = "safety_identifier" ∧ s.allowSafetyIdentifier = false := by
  unfold disabledNames
  simp only [List.mem_append, mem_nameUnless, or_assoc, Bool.not_eq_false']

theorem streamOptions_not_disabled : "stream_options" ∉ disabledNames s := by
  rw [mem_disabledNames]
  simp

theorem lookup_deleteUnless (allowed : Bool) (field : String) :
    (deleteUnless allowed field data).lookup name =
      if name = field ∧ allowed = false then none else data.lookup name := by
  unfold deleteUnless
  cases allowed with
  | true => rw [if_pos rfl, if_neg (by simp)]
  | false => rw [if_neg (by simp), lookup_delete]; simp

/-- The fields of the object itself. -/
def removeTop (s : ChannelOtherSettings) (data : Members) : Members :=
  removeSafetyIdentifier s (removeStore s (removeSpeed s
    (removeInferenceGeo s (removeServiceTier s data))))

theorem lookup_removeTop :
    (removeTop s data).lookup name = if name ∈ disabledNames s then none else data.lookup name := by
  unfold removeTop removeSafetyIdentifier removeStore removeSpeed removeInferenceGeo
    removeServiceTier
  simp only [lookup_deleteUnless, Bool.not_eq_false']
  by_cases h : name ∈ disabledNames s
  · rw [if_pos h]
    rw [mem_disabledNames] at h
    rcases h with h | h | h | h | h <;> simp [h]
  · rw [if_neg h]
    rw [mem_disabledNames] at h
    simp only [not_or] at h
    obtain ⟨htier, hgeo, hspeed, hstore, hsafety⟩ := h
    rw [if_neg hsafety, if_neg hstore, if_neg hspeed, if_neg hgeo, if_neg htier]

/-- What `stream_options` is left as. -/
def keptOptions (s : ChannelOtherSettings) : Option Json → Option Json
  | some (.object streamOptions) =>
    if s.allowIncludeObfuscation then some (.object streamOptions)
    else if delete streamOptions "include_obfuscation" = [] then none
    else some (.object (delete streamOptions "include_obfuscation"))
  | before => before

/-- **What is taken out**, name by name. -/
theorem lookup_removeFields : (removeFields s data).lookup name =
    if name ∈ disabledNames s then none
    else if name = "stream_options" then keptOptions s (data.lookup "stream_options")
    else data.lookup name := by
  have htop : (removeTop s data).lookup "stream_options" = data.lookup "stream_options" := by
    rw [lookup_removeTop, if_neg streamOptions_not_disabled]
  show (removeIncludeObfuscation s (removeTop s data)).lookup name = _
  unfold removeIncludeObfuscation
  rw [htop]
  by_cases hallow : s.allowIncludeObfuscation = true
  · rw [if_pos hallow, lookup_removeTop]
    split
    · rfl
    · split
      · rename_i heq
        subst heq
        unfold keptOptions
        cases h : data.lookup "stream_options" with
        | none => rfl
        | some v => cases v <;> simp [hallow]
      · rfl
  · rw [if_neg hallow]
    by_cases hname : name = "stream_options"
    · subst hname
      rw [if_neg streamOptions_not_disabled, if_pos rfl]
      unfold keptOptions
      split
      · rename_i streamOptions _
        rw [if_neg hallow]
        dsimp only
        split
        · rw [lookup_delete, if_pos rfl]
        · rw [lookup_assign, if_pos rfl]
      · exact htop
    · rw [if_neg hname]
      split
      · dsimp only
        split
        · rw [lookup_delete, if_neg hname, lookup_removeTop]
        · rw [lookup_assign, if_neg hname, lookup_removeTop]
      · rw [lookup_removeTop]

/-! ## Reading and writing -/

theorem mapMembers_deleteUnless (allowed : Bool) (field : String)
    (h : mapMembers f m = some m') :
    mapMembers f (deleteUnless allowed field m) = some (deleteUnless allowed field m') := by
  unfold deleteUnless
  split
  · exact h
  · exact mapMembers_delete h field

/-- The fields may as well be taken out before the body is read. -/
theorem mapMembers_removeFields (h : mapMembers f m = some m') :
    mapMembers f (removeFields s m) = some (removeFields s m') := by
  have htop : mapMembers f (removeTop s m) = some (removeTop s m') :=
    mapMembers_deleteUnless _ _ (mapMembers_deleteUnless _ _ (mapMembers_deleteUnless _ _
      (mapMembers_deleteUnless _ _ (mapMembers_deleteUnless _ _ h))))
  show mapMembers f (removeIncludeObfuscation s (removeTop s m)) =
    some (removeIncludeObfuscation s (removeTop s m'))
  have hlookup := lookup_mapMembers htop "stream_options"
  unfold removeIncludeObfuscation
  split
  · exact htop
  · rw [hlookup]
    cases hbefore : (removeTop s m).lookup "stream_options" with
    | none => exact htop
    | some before =>
      obtain ⟨after, hafter⟩ := exists_mapNumbers htop hbefore
      rw [Option.bind_some, hafter]
      cases before with
      | object streamOptions =>
        rw [Json.mapNumbers] at hafter
        obtain ⟨streamOptions', hoptions, rfl⟩ := Option.map_eq_some_iff.mp hafter
        have hrest := mapMembers_delete hoptions "include_obfuscation"
        dsimp only
        have hkeys := keys_mapMembers hrest
        by_cases hempty : delete streamOptions "include_obfuscation" = []
        · have hempty' : delete streamOptions' "include_obfuscation" = [] := by
            rw [hempty, List.map_nil, List.map_eq_nil_iff] at hkeys
            exact hkeys
          rw [if_pos hempty, if_pos hempty']
          exact mapMembers_delete htop _
        · have hempty' : delete streamOptions' "include_obfuscation" ≠ [] := by
            intro hnil
            rw [hnil, List.map_nil, eq_comm, List.map_eq_nil_iff] at hkeys
            exact hempty hkeys
          rw [if_neg hempty, if_neg hempty']
          exact mapMembers_assign htop (by simp [Json.mapNumbers, hrest])
      | array items =>
        rw [Json.mapNumbers] at hafter
        obtain ⟨items', -, rfl⟩ := Option.map_eq_some_iff.mp hafter
        exact htop
      | number q =>
        rw [Json.mapNumbers] at hafter
        obtain ⟨q', -, rfl⟩ := Option.map_eq_some_iff.mp hafter
        exact htop
      | null => cases hafter; exact htop
      | bool b => cases hafter; exact htop
      | string text => cases hafter; exact htop

theorem decodable_iff : Decodable m ↔ ∃ data, unmarshal m = some data := by
  unfold Decodable unmarshal
  rw [← mapMembers_isSome_iff, Option.isSome_iff_exists]
  by_cases hdepth : (Json.object m).depth ≤ maxNestingDepth
  · simp [hdepth]
  · simp [hdepth]

theorem removeFound_of_not_decodable (h : ¬ Decodable m) : removeFound s m = m := by
  rw [decodable_iff, not_exists] at h
  unfold removeFound
  cases hdata : unmarshal m with
  | none => rfl
  | some data => exact absurd hdata (h data)

/-- **What is written** for a body that can be read: all that is kept, printed again. -/
theorem removeFound_of_decodable (h : Decodable m) :
    mapMembers reprint (removeFields s m) = some (removeFound s m) := by
  obtain ⟨data, hdata⟩ := decodable_iff.mp h
  have hparse : mapMembers parseFloat m = some data := by
    unfold unmarshal at hdata
    rw [if_pos h.1] at hdata
    exact hdata
  have hwritten : (marshal (removeFields s data)).isSome :=
    (mapMembers_isSome_iff _).mpr fun _ _ => rfl
  obtain ⟨after, hafter⟩ := Option.isSome_iff_exists.mp hwritten
  have hkept := mapMembers_removeFields (s := s) hparse
  have hboth : mapMembers reprint (removeFields s m) = marshal (removeFields s data) := by
    have hreprint : reprint = fun q => (parseFloat q).bind fun x => some (formatFloat x) :=
      funext fun q => Option.map_eq_bind
    rw [hreprint, ← mapMembers_bind, hkept]
    rfl
  unfold removeFound
  rw [hboth, hdata]
  dsimp only
  rw [hafter]

/-! ## The fast path -/

theorem hasRemovable_iff : hasRemovableDisabledField s m = true ↔
    (∃ name ∈ disabledNames s, m.lookup name ≠ none) ∨
      s.allowIncludeObfuscation = false ∧ hasIncludeObfuscation m = true := by
  have hnames : (∃ name ∈ disabledNames s, m.lookup name ≠ none) ↔
      s.allowServiceTier = false ∧ m.lookup "service_tier" ≠ none ∨
      s.allowInferenceGeo = false ∧ m.lookup "inference_geo" ≠ none ∨
      s.allowSpeed = false ∧ m.lookup "speed" ≠ none ∨
      s.disableStore = true ∧ m.lookup "store" ≠ none ∨
      s.allowSafetyIdentifier = false ∧ m.lookup "safety_identifier" ≠ none := by
    simp only [mem_disabledNames, or_and_right, exists_or, and_assoc, exists_eq_left]
  rw [hnames]
  unfold hasRemovableDisabledField
  simp only [Bool.or_eq_true, Bool.and_eq_true, Bool.not_eq_true', Option.isSome_iff_ne_none,
    or_assoc]

/-- Where nothing is found there is nothing to take out, but for an empty `stream_options`. -/
theorem lookup_removeFields_of_not_found (h : hasRemovableDisabledField s m = false)
    (hempty : s.allowIncludeObfuscation = false →
      m.lookup "stream_options" ≠ some (.object [])) :
    (removeFields s m).lookup name = m.lookup name := by
  rw [← Bool.not_eq_true, hasRemovable_iff, not_or, not_exists, not_and] at h
  obtain ⟨hnames, hoptions⟩ := h
  rw [lookup_removeFields]
  split
  · rename_i hname
    have := hnames name
    simp only [not_and, not_not] at this
    exact (this hname).symm
  · split
    · rename_i hname
      subst hname
      unfold keptOptions
      split
      · rename_i streamOptions hlookup
        split
        · exact hlookup.symm
        · rename_i hallow
          have hallow' := Bool.eq_false_iff.mpr hallow
          have hnone : streamOptions.lookup "include_obfuscation" = none := by
            have hio := hoptions hallow'
            unfold hasIncludeObfuscation at hio
            rw [hlookup] at hio
            exact Option.not_isSome_iff_eq_none.mp hio
          have hne : streamOptions ≠ [] := fun hnil => hempty hallow' (hnil ▸ hlookup)
          rw [delete_eq_self hnone, if_neg hne, hlookup]
      · rfl
    · rfl

/-- What is kept has nothing to take out. -/
theorem not_found_removeFields : hasRemovableDisabledField s (removeFields s m) = false := by
  rw [← Bool.not_eq_true, hasRemovable_iff]
  rintro (⟨name, hname, hlookup⟩ | ⟨hallow, hoptions⟩)
  · rw [lookup_removeFields, if_pos hname] at hlookup
    exact hlookup rfl
  · unfold hasIncludeObfuscation at hoptions
    rw [lookup_removeFields, if_neg streamOptions_not_disabled, if_pos rfl] at hoptions
    unfold keptOptions at hoptions
    cases h : m.lookup "stream_options" with
    | none => simp [h] at hoptions
    | some v =>
      cases v with
      | object streamOptions =>
        simp only [h, hallow, Bool.false_eq_true, if_false] at hoptions
        split at hoptions
        · rename_i hafter
          split at hafter
          · cases hafter
          · cases hafter
            rw [lookup_delete, if_pos rfl] at hoptions
            cases hoptions
        · cases hoptions
      | _ => simp [h] at hoptions

/-! ## `stream_options` -/

theorem streamOptionsKept_keptOptions
    (h : s.allowIncludeObfuscation = false → before ≠ some (.object [])) :
    StreamOptionsKept s before (keptOptions s before) := by
  unfold StreamOptionsKept keptOptions
  cases before with
  | none => rfl
  | some v =>
    cases v with
    | object streamOptions =>
      dsimp only
      by_cases hallow : s.allowIncludeObfuscation = true
      · rw [if_pos (.inl hallow), if_pos hallow]
      · rw [if_neg hallow]
        by_cases hnone : streamOptions.lookup "include_obfuscation" = none
        · have hne : streamOptions ≠ [] := fun hnil =>
            h (Bool.eq_false_iff.mpr hallow) (by rw [hnil])
          rw [if_pos (.inr hnone), delete_eq_self hnone, if_neg hne]
        · rw [if_neg (by simp [hallow, hnone])]
          split
          · rename_i hnil
            exact .inr ⟨hnil, rfl⟩
          · exact .inl rfl
    | _ => rfl

/-- What is kept as promised was not empty before, and its numbers are as they were. -/
theorem keptOptions_of_streamOptionsKept
    (h : StreamOptionsKept s before ((keptOptions s before).bind (Json.mapNumbers f))) :
    (s.allowIncludeObfuscation = false → before ≠ some (.object [])) ∧
      (keptOptions s before).bind (Json.mapNumbers f) = keptOptions s before := by
  unfold StreamOptionsKept keptOptions at *
  cases before with
  | none => exact ⟨fun _ => by simp, rfl⟩
  | some v =>
    cases v with
    | object streamOptions =>
      dsimp only at h ⊢
      by_cases hallow : s.allowIncludeObfuscation = true
      · rw [if_pos (.inl hallow), if_pos hallow] at h
        rw [if_pos hallow]
        exact ⟨fun hfalse => absurd hallow (by simp [hfalse]), h⟩
      · rw [if_neg hallow] at h ⊢
        by_cases hnone : streamOptions.lookup "include_obfuscation" = none
        · rw [if_pos (.inr hnone), delete_eq_self hnone] at h
          rw [delete_eq_self hnone]
          split at h
          · cases h
          · rename_i hne
            rw [if_neg hne]
            refine ⟨fun _ heq => hne ?_, h⟩
            cases heq
            rfl
        · rw [if_neg (by simp [hallow, hnone])] at h
          refine ⟨fun _ heq => hnone ?_, ?_⟩
          · cases heq
            rfl
          · split
            · rfl
            · rename_i hne
              rw [if_neg hne] at h
              rcases h with h | ⟨hnil, -⟩
              · exact h
              · exact absurd hnil hne
    | _ => exact ⟨fun _ => by simp, h⟩

/-! ## Which bodies are rewritten rightly -/

theorem nodup_removeFields (h : (m.map Prod.fst).Nodup) :
    ((removeFields s m).map Prod.fst).Nodup := by
  have hunless : ∀ allowed field {m : Members}, (m.map Prod.fst).Nodup →
      ((deleteUnless allowed field m).map Prod.fst).Nodup := by
    intro allowed field m h
    unfold deleteUnless
    split
    · exact h
    · exact nodup_delete h field
  have htop : ((removeTop s m).map Prod.fst).Nodup :=
    hunless _ _ (hunless _ _ (hunless _ _ (hunless _ _ (hunless _ _ h))))
  show ((removeIncludeObfuscation s (removeTop s m)).map Prod.fst).Nodup
  unfold removeIncludeObfuscation
  split
  · exact htop
  · split
    · dsimp only
      split
      · exact nodup_delete htop _
      · exact nodup_assign htop
    · exact htop

theorem decodable_delete (h : Decodable m) (name : String) : Decodable (delete m name) := by
  obtain ⟨hdepth, hnumbers⟩ := h
  constructor
  · have hle := membersDepth_delete_le m name
    rw [Json.depth] at hdepth ⊢
    omega
  · rw [← mapMembers_isSome_iff] at hnumbers ⊢
    obtain ⟨data, hdata⟩ := Option.isSome_iff_exists.mp hnumbers
    rw [mapMembers_delete hdata name]
    rfl

theorem remove_of_not_found (h : hasRemovableDisabledField s m = false) :
    removeDisabledFields s false m = m := by
  unfold removeDisabledFields
  rw [if_neg Bool.false_ne_true, h]
  rfl

theorem remove_of_found (h : hasRemovableDisabledField s m = true) :
    removeDisabledFields s false m = removeFound s m := by
  unfold removeDisabledFields
  rw [if_neg Bool.false_ne_true, h]
  rfl

/-- A body that can be read and is rewritten is left with what is kept. -/
theorem Rewritable.removeFound (h : Rewritable s m) (hdecodable : Decodable m) :
    removeFound s m = removeFields s m := by
  have hkept := (mapMembers_eq_self_iff (removeFields s m)).mpr (h.exact hdecodable)
  rw [removeFound_of_decodable hdecodable] at hkept
  exact Option.some.inj hkept

/-- Another disabled field does not decide on `stream_options`. -/
theorem Rewritable.survives (h : Rewritable s m) (hdecodable : Decodable m)
    (hname : name ∈ disabledNames s) :
    (removeDisabledFields s false (delete m name)).lookup "stream_options" =
      (removeFields s m).lookup "stream_options" := by
  have hbefore : (delete m name).lookup "stream_options" = m.lookup "stream_options" := by
    rw [lookup_delete, if_neg]
    exact fun heq => streamOptions_not_disabled (heq ▸ hname)
  have hkept : (removeFields s (delete m name)).lookup "stream_options" =
      (removeFields s m).lookup "stream_options" := by
    rw [lookup_removeFields, lookup_removeFields, hbefore]
  cases hfound : hasRemovableDisabledField s (delete m name) with
  | false =>
    rw [remove_of_not_found hfound, ← hkept]
    refine (lookup_removeFields_of_not_found hfound fun hallow => ?_).symm
    rw [hbefore]
    exact h.notEmpty hdecodable hallow
  | true =>
    rw [remove_of_found hfound,
      lookup_mapMembers (removeFound_of_decodable (decodable_delete hdecodable name)), hkept]
    have hexact := (mapMembers_eq_self_iff (removeFields s m)).mpr (h.exact hdecodable)
    exact (lookup_mapMembers hexact _).symm

theorem Rewritable.removesExactly (h : Rewritable s m) : RemovesExactly s m := by
  cases hfound : hasRemovableDisabledField s m with
  | false =>
    have hremove := remove_of_not_found hfound
    have hnames : ∀ name ∈ disabledNames s, m.lookup name = none := by
      intro name hname
      by_contra hlookup
      have := hasRemovable_iff.mpr (.inl ⟨name, hname, hlookup⟩)
      rw [hfound] at this
      cases this
    constructor
    · rw [hremove]
      exact hnames
    · intro name _ _
      rw [hremove]
    · rw [hremove]
      unfold StreamOptionsKept
      split
      · rename_i streamOptions hlookup
        rw [if_pos]
        by_contra hnot
        obtain ⟨hallow, hio⟩ := not_or.mp hnot
        have := hasRemovable_iff.mpr (.inr ⟨Bool.eq_false_iff.mpr hallow, by
          unfold hasIncludeObfuscation
          rw [hlookup]
          exact Option.isSome_iff_ne_none.mpr hio⟩)
        rw [hfound] at this
        cases this
      · rfl
    · intro name
      rw [hremove]
      by_cases hdecodable : Decodable m
      · rw [h.removeFound hdecodable]
        exact (lookup_removeFields_of_not_found hfound (h.notEmpty hdecodable)).symm
      · rw [removeFound_of_not_decodable hdecodable]
    · intro name
      rw [hremove, hremove]
    · intro name hname
      rw [delete_eq_self (hnames name hname)]
  | true =>
    have hdecodable := h.decodable hfound
    have hremove : removeDisabledFields s false m = removeFields s m := by
      rw [remove_of_found hfound, h.removeFound hdecodable]
    constructor
    · intro name hname
      rw [hremove, lookup_removeFields, if_pos hname]
    · intro name hname hne
      rw [hremove, lookup_removeFields, if_neg hname, if_neg hne]
    · rw [hremove, lookup_removeFields, if_neg streamOptions_not_disabled, if_pos rfl]
      exact streamOptionsKept_keptOptions (h.notEmpty hdecodable)
    · intro name
      rw [remove_of_found hfound]
    · intro name
      rw [hremove, remove_of_not_found not_found_removeFields]
    · intro name hname
      rw [h.survives hdecodable hname, hremove]

/-- Where what is written has the members that are kept, all their numbers are as they were. -/
theorem exact_of_lookup (hnodup : (m.map Prod.fst).Nodup) (hdecodable : Decodable m)
    (h : ∀ name, (removeFound s m).lookup name = (removeFields s m).lookup name) :
    ∀ q ∈ membersNumbers (removeFields s m), reprint q = some q := by
  have hwritten := removeFound_of_decodable (s := s) hdecodable
  rw [← mapMembers_eq_self_iff]
  rw [mapMembers_eq_self (nodup_removeFields hnodup) hwritten h] at hwritten
  exact hwritten

/-- A body with a disabled field is changed, so it was read. -/
theorem RemovesExactly.decodable (h : RemovesExactly s m)
    (hfound : hasRemovableDisabledField s m = true) : Decodable m := by
  by_contra hnot
  have hremove : removeDisabledFields s false m = m := by
    rw [remove_of_found hfound, removeFound_of_not_decodable hnot]
  rcases hasRemovable_iff.mp hfound with ⟨name, hname, hlookup⟩ | ⟨hallow, hio⟩
  · have habsent := h.absent name hname
    rw [hremove] at habsent
    exact hlookup habsent
  · have hoptions := h.streamOptions
    rw [hremove] at hoptions
    unfold hasIncludeObfuscation at hio
    split at hio
    · rename_i streamOptions hlookup
      have hsome : streamOptions.lookup "include_obfuscation" ≠ none :=
        Option.isSome_iff_ne_none.mp hio
      rw [hlookup] at hoptions
      unfold StreamOptionsKept at hoptions
      dsimp only at hoptions
      rw [if_neg (by simp only [hallow, hsome, Bool.false_eq_true, or_false, not_false_eq_true])]
        at hoptions
      rcases hoptions with hoptions | ⟨-, hoptions⟩
      · injection hoptions with hoptions
        injection hoptions with hsame
        apply hsome
        rw [hsame, lookup_delete, if_pos rfl]
      · cases hoptions
    · cases hio

theorem RemovesExactly.rewritable (hnodup : (m.map Prod.fst).Nodup) (h : RemovesExactly s m) :
    Rewritable s m := by
  have hoptions : Decodable m → (s.allowIncludeObfuscation = false →
      m.lookup "stream_options" ≠ some (.object [])) ∧
      (removeFound s m).lookup "stream_options" = (removeFields s m).lookup "stream_options" := by
    intro hdecodable
    have hkept := h.streamOptions
    rw [h.found, lookup_mapMembers (removeFound_of_decodable hdecodable)] at hkept
    rw [lookup_mapMembers (removeFound_of_decodable hdecodable)]
    rw [lookup_removeFields, if_neg streamOptions_not_disabled, if_pos rfl] at hkept ⊢
    exact keptOptions_of_streamOptionsKept hkept
  refine ⟨h.decodable, fun hdecodable => ?_, fun hdecodable => (hoptions hdecodable).1⟩
  refine exact_of_lookup hnodup hdecodable fun name => ?_
  by_cases hname : name ∈ disabledNames s
  · rw [← h.found, h.absent name hname, lookup_removeFields, if_pos hname]
  · by_cases hname' : name = "stream_options"
    · rw [hname']
      exact (hoptions hdecodable).2
    · rw [← h.found, h.others name hname hname', lookup_removeFields, if_neg hname, if_neg hname']

/-- A seed beyond 2^53 is changed when `service_tier` is removed. -/
def seedBody : Body where
  members := [("service_tier", .string "flex"), ("seed", .number 9007199254740993)]
  duplicateFree := by simp [Json.DuplicateFree, MembersDuplicateFree]

end Relay.Fields
