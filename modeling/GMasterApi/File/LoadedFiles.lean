import GMasterApi.Lib.BigEndian
import GMasterApi.Lib.GoString
import GMasterApi.Lib.Transition

/-!
# The files of a request

A file source keeps what was loaded for it, the context of the request keeps it under a digest,
and a large file is kept on the disk until the request ends.  The digest of an inline file
covers its length, its MIME type and its first 128 bytes: every call answers with the file of
its own source exactly where no file loaded before agrees in these and differs (`files_right`).
-/

namespace LoadedFiles

open BigEndian Transition

abbrev Bytes := List Byte

def ascii (s : String) : Bytes := s.toList.map fun c => BitVec.ofNat 8 c.toNat

inductive FileSource
  | url (url : Bytes)
  | base64 (base64Data mimeType : Bytes)
  deriving DecidableEq

/-- The content and the MIME type of a file. -/
structure File where
  base64Data : Bytes
  mimeType : Bytes
  deriving DecidableEq

structure Response where
  statusCode : ℕ
  header : String → String
  body : Except Bytes Bytes

/-- What the service calls: downloads, digests and decoders. -/
structure Env where
  maxFileDownloadMB : ℕ
  download : Bytes → Except Bytes Response
  smartDetectMimeType : Response → Bytes → Bytes → Bytes
  encodeToString : Bytes → Bytes
  decodeString : Bytes → Except Bytes Bytes
  decodeImageConfig : Bytes → Option Bytes
  generateHMAC : Bytes → String

variable (env : Env)

def loadFromURL (url : Bytes) : Except Bytes File := do
  let response ← (env.download url).mapError fun e =>
    ascii "failed to download file from " ++ url ++ ascii ": " ++ e
  if response.statusCode ≠ 200 then
    .error (ascii s!"failed to download file, status code: {response.statusCode}")
  else
    let fileBytes ← response.body.mapError (ascii "failed to read file content: " ++ ·)
    if env.maxFileDownloadMB * 1024 * 1024 < fileBytes.length then
      .error (ascii s!"file size exceeds maximum allowed size: {env.maxFileDownloadMB}MB")
    else
      let mimeType := env.smartDetectMimeType response url fileBytes
      let format := if ascii "image/" <+: mimeType then env.decodeImageConfig fileBytes else none
      .ok ⟨env.encodeToString fileBytes,
        if mimeType = ascii "application/octet-stream" ∨ mimeType = [] then
          format.elim mimeType (ascii "image/" ++ ·)
        else mimeType⟩

/-- The MIME type of a data URL, and the content behind it. -/
def splitDataURL (data : Bytes) : Bytes × Bytes :=
  if ascii "data:" <+: data then
    match data.findIdx? (· = 44) with
    | some comma =>
      let header := data.take comma
      let mimeType := match header.findIdx? (· = 58), header.findIdx? (· = 59) with
        | some colon, some semicolon =>
          if colon + 1 < semicolon then (header.take semicolon).drop (colon + 1) else []
        | _, _ => []
      (mimeType, data.drop (comma + 1))
    | none => ([], data)
  else ([], data)

def loadFromBase64 (base64String providedMimeType : Bytes) : Except Bytes File := do
  let (mimeType, cleanBase64) := splitDataURL base64String
  let mimeType := if providedMimeType ≠ [] then providedMimeType else mimeType
  let decoded ← (env.decodeString cleanBase64).mapError
    (ascii "failed to decode base64 data: " ++ ·)
  let format := if mimeType = [] ∨ ascii "image/" <+: mimeType then
    env.decodeImageConfig decoded else none
  .ok ⟨cleanBase64, if mimeType = [] then format.elim [] (ascii "image/" ++ ·) else mimeType⟩

def FileSource.load : FileSource → Except Bytes File
  | .url u => loadFromURL env u
  | .base64 data mimeType => loadFromBase64 env data mimeType

def getContextCacheKey (url : Bytes) : String := "file_cache_" ++ env.generateHMAC url

def keyMaterial (data mimeType : Bytes) : Bytes :=
  ascii data.length.repr ++ 58 :: (mimeType ++ 58 ::
    if data.length > 128 then data.take 128 else data)

def getBase64ContextCacheKey (data mimeType : Bytes) : String :=
  "b64_cache_" ++ env.generateHMAC (keyMaterial data mimeType)

def FileSource.contextKey : FileSource → String
  | .url u => getContextCacheKey env u
  | .base64 data mimeType => getBase64ContextCacheKey env data mimeType

/-- A file on the disk has a path of its own, the number of its object. -/
structure CachedFileData where
  base64Data : Bytes
  mimeType : Bytes
  isDisk : Bool
  diskClosed : Bool
  deriving DecidableEq

/-- A request: the object of each source, the objects in the context, the sources that are
registered, the objects, the files on the disk, the calls of `DecrementDiskFiles`, and what
`LoadFileSource` has answered. -/
structure State (ι : Type) where
  cache : ι → Option ℕ
  context : List (String × ℕ)
  registered : ι → Bool
  toCleanup : List ι
  heap : List CachedFileData
  disk : ℕ → Option Bytes
  decrements : List ℕ
  answers : List (ι × Except Bytes (Option File))

variable {ι : Type} [DecidableEq ι] (sources : ι → FileSource)

def State.initial : State ι := ⟨fun _ => none, [], fun _ => false, [], [], fun _ => none, [], []⟩

/-- `GetBase64Data` with the MIME type, of an object. -/
def State.served (s : State ι) (p : ℕ) : Option File :=
  s.heap[p]?.bind fun data =>
    if data.isDisk then
      if data.diskClosed then none else (s.disk p).map fun content => ⟨content, data.mimeType⟩
    else some ⟨data.base64Data, data.mimeType⟩

/-- A new object, in memory or on the disk. -/
def State.store (s : State ι) (file : File) (onDisk : Bool) : State ι :=
  { s with
    heap := s.heap ++ [⟨if onDisk then [] else file.base64Data, file.mimeType, onDisk, false⟩]
    disk := Function.update s.disk s.heap.length
      (if onDisk then some file.base64Data else none) }

def State.registerSourceForCleanup (s : State ι) (i : ι) : State ι :=
  if s.registered i then s
  else { s with toCleanup := s.toCleanup ++ [i], registered := Function.update s.registered i true }

def State.setCache (s : State ι) (i : ι) (p : ℕ) : State ι :=
  { s with cache := Function.update s.cache i (some p) }

def loadFileSource (s : State ι) (i : ι) (onDisk : Bool) : State ι × Except Bytes ℕ :=
  match s.cache i with
  | some p => (s.registerSourceForCleanup i, .ok p)
  | none =>
    let key := (sources i).contextKey env
    match s.context.lookup key with
    | some p => ((s.setCache i p).registerSourceForCleanup i, .ok p)
    | none =>
      match (sources i).load env with
      | .error e => (s, .error e)
      | .ok file =>
        let p := s.heap.length
        let s := (s.store file onDisk).setCache i p
        (State.registerSourceForCleanup { s with context := (key, p) :: s.context } i, .ok p)

/-- A call for a source, and whether a file that it loads goes to the disk. -/
structure Call (ι : Type) where
  source : ι
  onDisk : Bool

def step (s : State ι) (call : Call ι) : State ι :=
  let (t, answer) := loadFileSource env sources s call.source call.onDisk
  { t with answers := (call.source, answer.map t.served) :: t.answers }

def system : System (State ι) (Call ι) where
  step s call := some (step env sources s call)

/-- `Close`; the file is removed unless that fails. -/
def State.close (fails : ℕ → Bool) (s : State ι) (p : ℕ) : State ι :=
  match s.heap[p]? with
  | none => s
  | some data =>
    if data.isDisk then
      if data.diskClosed then s
      else
        let s := { s with heap := s.heap.set p { data with diskClosed := true } }
        if fails p then s
        else { s with disk := Function.update s.disk p none, decrements := p :: s.decrements }
    else { s with heap := s.heap.set p { data with base64Data := [] } }

def cleanupFileSources (fails : ℕ → Bool) (s : State ι) : State ι :=
  { s.toCleanup.foldl (fun s i => (s.cache i).elim s (s.close fails)) s with toCleanup := [] }

/-! ## The property -/

/-- A file was created for the object. -/
def State.created (s : State ι) (p : ℕ) : Bool := s.heap[p]?.any (·.isDisk)

/-- Every call has answered with the file of its own source. -/
def Answered (s : State ι) : Prop :=
  ∀ answer ∈ s.answers, answer.2 = ((sources answer.1).load env).map some

/-- And the end of the request decrements the counters once for every file on the disk. -/
def Right (fails : ℕ → Bool) (s : State ι) : Prop :=
  Answered env sources s ∧
    ∀ p, (cleanupFileSources fails s).decrements.count p = if s.created p then 1 else 0

/-- Two inline files that agree in all that the digest covers. -/
def SameStart : FileSource → FileSource → Prop
  | .base64 data mimeType, .base64 data' mimeType' =>
    data.length = data'.length ∧ mimeType = mimeType' ∧ data.take 128 = data'.take 128
  | _, _ => False

/-- A source that is not loaded yet agrees with no loaded one that has another file. -/
def Meets (s : State ι) (call : Call ι) : Prop :=
  s.cache call.source = none → ∀ j, s.cache j ≠ none →
    SameStart (sources j) (sources call.source) →
    (sources j).load env = (sources call.source).load env

/-! ## The digest -/

variable {env sources} {a b : FileSource} {d d' m m' : Bytes} {s t : State ι} {i j : ι} {p : ℕ}
  {fails : ℕ → Bool} {file : File} {key : String}

theorem toNat_of_mem_repr {n : ℕ} {c : Char} (h : c ∈ n.repr.toList) :
    48 ≤ c.toNat ∧ c.toNat ≤ 57 :=
  Char.isDigit_iff_toNat.mp (GoString.isDigit_of_mem_repr h)

theorem not_mem_ascii_repr (n : ℕ) : ∀ x ∈ ascii n.repr, x ≠ 58 := by
  intro x hx
  obtain ⟨c, hc, rfl⟩ := List.mem_map.mp hx
  have hdigit := toNat_of_mem_repr hc
  intro h
  have h := congrArg BitVec.toNat h
  rw [BitVec.toNat_ofNat, Nat.mod_eq_of_lt (by omega)] at h
  change c.toNat = 58 at h
  omega

theorem ascii_repr_inj {n n' : ℕ} (h : ascii n.repr = ascii n'.repr) : n = n' := by
  have hback : ∀ n : ℕ, (ascii n.repr).map (fun b => Char.ofNat b.toNat) = n.repr.toList := by
    intro n
    unfold ascii
    rw [List.map_map]
    refine (List.map_congr_left fun c hc => ?_).trans (List.map_id _)
    have hdigit := toNat_of_mem_repr hc
    rw [Function.comp_apply, BitVec.toNat_ofNat, Nat.mod_eq_of_lt (by omega), Char.ofNat_toNat]
    rfl
  have hrepr : n.repr = n'.repr := String.toList_inj.mp (by rw [← hback, h, hback])
  have hdecimal := GoString.decimal_repr n
  rw [hrepr, GoString.decimal_repr] at hdecimal
  exact Int.ofNat_inj.mp (Option.some.inj hdecimal).symm

theorem keyMaterial_eq_iff : keyMaterial d m = keyMaterial d' m' ↔
    d.length = d'.length ∧ m = m' ∧ d.take 128 = d'.take 128 := by
  have htake : ∀ d : Bytes, (if d.length > 128 then d.take 128 else d) = d.take 128 := by
    intro d
    split
    · rfl
    · exact (List.take_of_length_le (by omega)).symm
  unfold keyMaterial
  rw [htake, htake]
  constructor
  · intro h
    have hcolon := congrArg (List.takeWhile (· ≠ 58)) h
    rw [List.takeWhile_append_of_pos fun x hx => decide_eq_true (not_mem_ascii_repr _ x hx),
      List.takeWhile_append_of_pos fun x hx => decide_eq_true (not_mem_ascii_repr _ x hx),
      List.takeWhile_cons_of_neg (by decide), List.takeWhile_cons_of_neg (by decide),
      List.append_nil, List.append_nil] at hcolon
    have hlength := ascii_repr_inj hcolon
    rw [hcolon, List.append_cancel_left_eq, List.cons.injEq] at h
    obtain ⟨hmime, hstart⟩ := List.append_inj' h.2 (by simp [hlength])
    exact ⟨hlength, hmime, (List.cons.inj hstart).2⟩
  · rintro ⟨hlength, rfl, hstart⟩
    rw [hlength, hstart]

theorem contextKey_eq_iff (hinj : env.generateHMAC.Injective) :
    a.contextKey env = b.contextKey env ↔
      (∃ u, a = .url u ∧ b = .url u) ∨ SameStart a b := by
  unfold FileSource.contextKey getContextCacheKey getBase64ContextCacheKey
  have hkind : ∀ x y : String, "file_cache_" ++ x ≠ "b64_cache_" ++ y := by
    intro x y h
    have h := congrArg (fun s => s.toList.head?) h
    simp at h
  cases a <;> cases b
  · simp [SameStart, hinj.eq_iff, String.append_right_inj, eq_comm]
  · simp [SameStart, hkind]
  · simp [SameStart, (hkind _ _).symm]
  · simp [SameStart, hinj.eq_iff, String.append_right_inj, keyMaterial_eq_iff]

/-! ## The objects -/

/-- What holds after any calls: a source with an object is registered or is the one that is being
loaded, each object belongs to a source, and none is closed. -/
structure Kept (env : Env) (sources : ι → FileSource) (loading : Option ι) (s : State ι) :
    Prop where
  cached : ∀ i p, s.cache i = some p → (i ∈ loading ∨ i ∈ s.toCleanup) ∧
    s.context.lookup ((sources i).contextKey env) = some p
  listed : ∀ key p, s.context.lookup key = some p →
    ∃ i, (sources i).contextKey env = key ∧ s.cache i = some p
  registered : ∀ i, s.registered i = true → i ∈ s.toCleanup
  owned : ∀ p < s.heap.length, ∃ i, s.cache i = some p
  opened : ∀ data ∈ s.heap, data.diskClosed = false
  decrements : s.decrements = []

@[simp] theorem register_cache : (s.registerSourceForCleanup i).cache = s.cache := by
  unfold State.registerSourceForCleanup
  split <;> rfl

@[simp] theorem register_served : (s.registerSourceForCleanup i).served p = s.served p := by
  unfold State.registerSourceForCleanup
  split <;> rfl

@[simp] theorem register_answers : (s.registerSourceForCleanup i).answers = s.answers := by
  unfold State.registerSourceForCleanup
  split <;> rfl

theorem Kept.register (h : Kept env sources (some i) s) :
    Kept env sources none (s.registerSourceForCleanup i) := by
  unfold State.registerSourceForCleanup
  split
  · rename_i hregistered
    refine { h with cached := fun j p hj => ⟨.inr ?_, (h.cached j p hj).2⟩ }
    rcases (h.cached j p hj).1 with hji | hj
    · cases hji
      exact h.registered _ hregistered
    · exact hj
  · refine { h with cached := fun j p hj => ⟨.inr ?_, (h.cached j p hj).2⟩, registered := ?_ }
    · rcases (h.cached j p hj).1 with hji | hj
      · cases hji
        exact List.mem_append_right _ (List.mem_singleton.mpr rfl)
      · exact List.mem_append_left _ hj
    · intro j hj
      by_cases hji : j = i
      · exact List.mem_append_right _ (List.mem_singleton.mpr hji)
      · exact List.mem_append_left _
          (h.registered j ((Function.update_of_ne hji _ s.registered).symm.trans hj))

/-- The cases of a call. -/
theorem loadFileSource_cases (env : Env) (sources : ι → FileSource) (s : State ι) (i : ι)
    (onDisk : Bool) :
    (∃ p, s.cache i = some p ∧
      loadFileSource env sources s i onDisk = (s.registerSourceForCleanup i, .ok p)) ∨
    (s.cache i = none ∧ ∃ p, s.context.lookup ((sources i).contextKey env) = some p ∧
      loadFileSource env sources s i onDisk =
        ((s.setCache i p).registerSourceForCleanup i, .ok p)) ∨
    (s.cache i = none ∧ s.context.lookup ((sources i).contextKey env) = none ∧
      ((∃ e, (sources i).load env = .error e ∧
        loadFileSource env sources s i onDisk = (s, .error e)) ∨
      ∃ file, (sources i).load env = .ok file ∧ loadFileSource env sources s i onDisk =
        (State.registerSourceForCleanup { (s.store file onDisk).setCache i s.heap.length with
          context := ((sources i).contextKey env, s.heap.length) :: s.context } i,
          .ok s.heap.length))) := by
  unfold loadFileSource
  cases hcache : s.cache i with
  | some p => exact .inl ⟨p, rfl, rfl⟩
  | none =>
    dsimp only
    cases hlookup : s.context.lookup ((sources i).contextKey env) with
    | some p => exact .inr (.inl ⟨rfl, p, rfl, rfl⟩)
    | none =>
      dsimp only
      cases hload : (sources i).load env with
      | error e => exact .inr (.inr ⟨rfl, rfl, .inl ⟨e, rfl, rfl⟩⟩)
      | ok file => exact .inr (.inr ⟨rfl, rfl, .inr ⟨file, rfl, rfl⟩⟩)

/-- A source gets an object, which is in the context afterwards. -/
theorem Kept.give (h : Kept env sources none s) (hi : s.cache i = none)
    (hcache : t.cache = Function.update s.cache i (some p))
    (hcontext : ∀ key q, t.context.lookup key = some q ↔
      (key = (sources i).contextKey env ∧ q = p) ∨ s.context.lookup key = some q)
    (hregistered : t.registered = s.registered) (hclean : t.toCleanup = s.toCleanup)
    (howned : ∀ q < t.heap.length, q < s.heap.length ∨ q = p)
    (hopened : ∀ data ∈ t.heap, data.diskClosed = false) (hdecrements : t.decrements = []) :
    Kept env sources (some i) t := by
  have hother : ∀ j q, s.cache j = some q → t.cache j = some q := by
    intro j q hj
    have hji : j ≠ i := by
      rintro rfl
      cases hi.symm.trans hj
    rw [hcache, Function.update_of_ne hji, hj]
  have hself : t.cache i = some p := by rw [hcache, Function.update_self]
  refine ⟨fun j q hj => ?_, fun key q hq => ?_, ?_, fun q hq => ?_, hopened, hdecrements⟩
  · by_cases hji : j = i
    · subst hji
      cases hself.symm.trans hj
      exact ⟨.inl rfl, (hcontext _ _).mpr (.inl ⟨rfl, rfl⟩)⟩
    · rw [hcache, Function.update_of_ne hji] at hj
      obtain ⟨hmem, hlookup⟩ := h.cached j q hj
      refine ⟨.inr ?_, (hcontext _ _).mpr (.inr hlookup)⟩
      rw [hclean]
      exact hmem.resolve_left (by rintro ⟨⟩)
  · rcases (hcontext key q).mp hq with ⟨rfl, rfl⟩ | hq
    · exact ⟨i, rfl, hself⟩
    · obtain ⟨j, hkey, hj⟩ := h.listed key q hq
      exact ⟨j, hkey, hother j q hj⟩
  · rw [hregistered, hclean]
    exact h.registered
  · rcases howned q hq with hq | rfl
    · obtain ⟨j, hj⟩ := h.owned q hq
      exact ⟨j, hother j q hj⟩
    · exact ⟨i, hself⟩

theorem lookup_cons_iff {context : List (String × ℕ)} (h : context.lookup key = none)
    (key' : String) (q : ℕ) : ((key, p) :: context).lookup key' = some q ↔
      (key' = key ∧ q = p) ∨ context.lookup key' = some q := by
  rw [List.lookup_cons]
  by_cases hkey : key' = key
  · subst hkey
    simp [h, eq_comm]
  · rw [beq_false_of_ne hkey]
    simp [hkey]

theorem Kept.load (h : Kept env sources none s) (i : ι) (onDisk : Bool) :
    Kept env sources none (loadFileSource env sources s i onDisk).1 := by
  obtain ⟨p, hcache, heq⟩ | ⟨hcache, p, hlookup, heq⟩ |
    ⟨hcache, hlookup, ⟨e, hload, heq⟩ | ⟨file, hload, heq⟩⟩ :=
    loadFileSource_cases env sources s i onDisk <;> rw [heq]
  · exact Kept.register { h with
      cached := fun j p hj => ⟨(h.cached j p hj).1.imp (by rintro ⟨⟩) id, (h.cached j p hj).2⟩ }
  · refine (h.give (t := s.setCache i p) hcache rfl (fun key q => ⟨.inr, ?_⟩) rfl rfl
      (fun q => .inl) h.opened h.decrements).register
    rintro (⟨rfl, rfl⟩ | hq)
    · exact hlookup
    · exact hq
  · exact h
  · refine Kept.register (h.give hcache rfl (lookup_cons_iff hlookup) rfl rfl (fun q hq => ?_) ?_
      h.decrements)
    · have hlength : (s.store file onDisk).heap.length = s.heap.length + 1 := List.length_append
      change q < (s.store file onDisk).heap.length at hq
      omega
    · intro data hdata
      rcases List.mem_append.mp hdata with hdata | hdata
      · exact h.opened data hdata
      · rw [List.mem_singleton.mp hdata]

/-! ## What a call answers -/

/-- The object of a source is what the source has. -/
structure Served (env : Env) (sources : ι → FileSource) (s : State ι) : Prop where
  kept : Kept env sources none s
  right : ∀ i p, s.cache i = some p →
    ∃ file, (sources i).load env = .ok file ∧ s.served p = some file
  answers : Answered env sources s

omit [DecidableEq ι] in
theorem served_store (file : File) (onDisk : Bool) :
    (s.store file onDisk).served s.heap.length = some file := by
  cases onDisk <;> simp [State.served, State.store]

omit [DecidableEq ι] in
theorem served_store_of_lt (file : File) (onDisk : Bool) (hp : p < s.heap.length) :
    (s.store file onDisk).served p = s.served p := by
  simp [State.served, State.store, List.getElem?_append_left hp, Function.update_of_ne hp.ne]

/-- Two sources with one key have one file, where inline files do. -/
theorem load_eq (hinj : env.generateHMAC.Injective) (hkey : a.contextKey env = b.contextKey env)
    (h : SameStart a b → a.load env = b.load env) : a.load env = b.load env := by
  rcases (contextKey_eq_iff hinj).mp hkey with ⟨u, rfl, rfl⟩ | hsame
  · rfl
  · exact h hsame

theorem Served.call (hinj : env.generateHMAC.Injective) (h : Served env sources s) (i : ι)
    (onDisk : Bool) (hmeets : Meets env sources s ⟨i, onDisk⟩) :
    (∀ j p, (loadFileSource env sources s i onDisk).1.cache j = some p →
      ∃ file, (sources j).load env = .ok file ∧
        (loadFileSource env sources s i onDisk).1.served p = some file) ∧
    (loadFileSource env sources s i onDisk).2.map
      (loadFileSource env sources s i onDisk).1.served = ((sources i).load env).map some := by
  obtain ⟨p, hcache, heq⟩ | ⟨hcache, p, hlookup, heq⟩ |
    ⟨hcache, hlookup, ⟨e, hload, heq⟩ | ⟨file, hload, heq⟩⟩ :=
    loadFileSource_cases env sources s i onDisk <;> rw [heq] <;> dsimp only
  · obtain ⟨file, hload, hserved⟩ := h.right i p hcache
    refine ⟨fun j q hj => by simpa using h.right j q (by simpa using hj), ?_⟩
    rw [hload]
    simp [Except.map, hserved]
  · obtain ⟨k, hkey, hk⟩ := h.kept.listed _ p hlookup
    obtain ⟨file, hload, hserved⟩ := h.right k p hk
    have hsame := load_eq hinj hkey (hmeets hcache k (by rw [hk]; exact Option.some_ne_none p))
    have hload' := hsame.symm.trans hload
    refine ⟨fun j q hj => ?_, ?_⟩
    · rw [register_cache] at hj
      rw [register_served]
      by_cases hji : j = i
      · subst hji
        cases (Function.update_self j _ s.cache).symm.trans hj
        exact ⟨file, hload', hserved⟩
      · exact h.right j q ((Function.update_of_ne hji _ s.cache).symm.trans hj)
    · rw [hload']
      exact congrArg Except.ok (register_served.trans hserved)
  · exact ⟨h.right, by rw [hload]; rfl⟩
  · refine ⟨fun j q hj => ?_, ?_⟩
    · rw [register_cache] at hj
      rw [register_served]
      by_cases hji : j = i
      · subst hji
        cases (Function.update_self j _ s.cache).symm.trans hj
        exact ⟨file, hload, served_store file onDisk⟩
      · have hj := (Function.update_of_ne hji _ s.cache).symm.trans hj
        obtain ⟨other, hother, hserved⟩ := h.right j q hj
        have hq : q < s.heap.length := by
          by_contra hq
          unfold State.served at hserved
          rw [List.getElem?_eq_none (by omega)] at hserved
          cases hserved
        exact ⟨other, hother, (served_store_of_lt file onDisk hq).trans hserved⟩
    · rw [hload]
      exact congrArg Except.ok (register_served.trans (served_store file onDisk))

theorem loadFileSource_answers (i : ι) (onDisk : Bool) :
    (loadFileSource env sources s i onDisk).1.answers = s.answers := by
  obtain ⟨p, -, heq⟩ | ⟨-, p, -, heq⟩ | ⟨-, -, ⟨e, -, heq⟩ | ⟨file, -, heq⟩⟩ :=
    loadFileSource_cases env sources s i onDisk <;> rw [heq]
  · exact register_answers
  · exact register_answers
  · exact register_answers

theorem Served.after (hinj : env.generateHMAC.Injective) (h : Served env sources s) (c : Call ι)
    (hmeets : Meets env sources s c) : Served env sources (step env sources s c) := by
  obtain ⟨hright, hanswer⟩ := h.call hinj c.source c.onDisk hmeets
  refine ⟨{ h.kept.load c.source c.onDisk with }, hright, fun answer hmem => ?_⟩
  rcases List.mem_cons.mp hmem with rfl | hmem
  · exact hanswer
  · exact h.answers answer (loadFileSource_answers c.source c.onDisk ▸ hmem)

/-- Otherwise the call answers with the file of another source. -/
theorem Served.wrong (hinj : env.generateHMAC.Injective) (h : Served env sources s) (c : Call ι)
    (hmeets : ¬ Meets env sources s c) : ¬ Answered env sources (step env sources s c) := by
  unfold Meets at hmeets
  push Not at hmeets
  obtain ⟨hcache, j, hj, hsame, hload⟩ := hmeets
  obtain ⟨p, hp⟩ := Option.ne_none_iff_exists'.mp hj
  obtain ⟨file, hfile, hserved⟩ := h.right j p hp
  have hlookup := (h.kept.cached j p hp).2
  rw [(contextKey_eq_iff hinj).mpr (.inr hsame)] at hlookup
  have heq : loadFileSource env sources s c.source c.onDisk =
      ((s.setCache c.source p).registerSourceForCleanup c.source, .ok p) := by
    unfold loadFileSource
    rw [hcache]
    dsimp only
    rw [hlookup]
  intro hright
  have hanswer : (loadFileSource env sources s c.source c.onDisk).2.map
      (loadFileSource env sources s c.source c.onDisk).1.served =
        ((sources c.source).load env).map some := hright _ List.mem_cons_self
  rw [heq] at hanswer
  change Except.ok (((s.setCache c.source p).registerSourceForCleanup c.source).served p) = _
    at hanswer
  rw [register_served, show (s.setCache c.source p).served p = some file from hserved] at hanswer
  cases hother : (sources c.source).load env with
  | error e =>
    rw [hother] at hanswer
    cases hanswer
  | ok other =>
    rw [hother] at hanswer
    cases hanswer
    exact hload (hfile.trans hother.symm)

/-! ## The end of the request -/

/-- The objects in `pointers` are closed. -/
structure Closing (fails : ℕ → Bool) (s : State ι) (pointers : List ℕ) (t : State ι) : Prop where
  cache : t.cache = s.cache
  created : ∀ p : ℕ, t.heap[p]?.map CachedFileData.isDisk = s.heap[p]?.map CachedFileData.isDisk
  closed : ∀ (p : ℕ) (data : CachedFileData), t.heap[p]? = some data → data.isDisk = true →
    (data.diskClosed = true ↔ p ∈ pointers)
  count : ∀ p, t.decrements.count p =
    if s.created p = true ∧ p ∈ pointers ∧ fails p = false then 1 else 0

omit [DecidableEq ι] in
theorem created_eq (s : State ι) (p : ℕ) :
    s.created p = (s.heap[p]?.map CachedFileData.isDisk).getD false := by
  unfold State.created
  cases s.heap[p]? <;> rfl

omit [DecidableEq ι] in
theorem Closing.close {pointers : List ℕ} (h : Closing fails s pointers t) (p : ℕ) :
    Closing fails s (p :: pointers) (t.close fails p) := by
  -- an object that is no file on the disk, and no other object, counts
  have hnone : s.created p = false → ∀ q, t.decrements.count q =
      if s.created q = true ∧ q ∈ p :: pointers ∧ fails q = false then 1 else 0 := by
    intro hcreated q
    rw [h.count]
    by_cases hqp : q = p <;> simp [hqp, hcreated]
  unfold State.close
  cases hp : t.heap[p]? with
  | none =>
    refine ⟨h.cache, h.created, fun q data hq hdisk => ?_, hnone ?_⟩
    · have hqp : q ≠ p := by
        rintro rfl
        cases hp.symm.trans hq
      rw [h.closed q data hq hdisk, List.mem_cons]
      exact (or_iff_right hqp).symm
    · rw [created_eq, ← h.created, hp]
      rfl
  | some data =>
    have hcreated : s.created p = data.isDisk := by
      rw [created_eq, ← h.created, hp]
      rfl
    have hlt : p < t.heap.length := (List.getElem?_eq_some_iff.mp hp).1
    have hset : ∀ data' : CachedFileData, data'.isDisk = data.isDisk → ∀ q : ℕ,
        (t.heap.set p data')[q]?.map CachedFileData.isDisk =
          s.heap[q]?.map CachedFileData.isDisk := by
      intro data' hsame q
      rw [← h.created q]
      by_cases hqp : p = q
      · subst hqp
        rw [List.getElem?_set_self hlt, hp, Option.map_some, Option.map_some, hsame]
      · rw [List.getElem?_set_ne hqp]
    have hclosed : ∀ data' : CachedFileData, (data'.isDisk = true → data'.diskClosed = true) →
        ∀ q other, (t.heap.set p data')[q]? = some other → other.isDisk = true →
          (other.diskClosed = true ↔ q ∈ p :: pointers) := by
      intro data' hdata q other hq hdisk
      rw [List.mem_cons]
      by_cases hqp : p = q
      · subst hqp
        rw [List.getElem?_set_self hlt] at hq
        cases hq
        exact iff_of_true (hdata hdisk) (.inl rfl)
      · rw [List.getElem?_set_ne hqp] at hq
        rw [h.closed q other hq hdisk]
        exact (or_iff_right (Ne.symm hqp)).symm
    dsimp only
    by_cases hdisk : data.isDisk = true
    · rw [if_pos hdisk]
      by_cases hopen : data.diskClosed = true
      · have hmem : p ∈ pointers := (h.closed p data hp hdisk).mp hopen
        have hsame : ∀ q, q ∈ p :: pointers ↔ q ∈ pointers := by
          intro q
          rw [List.mem_cons]
          exact or_iff_right_of_imp fun heq => heq ▸ hmem
        rw [if_pos hopen]
        exact ⟨h.cache, h.created, fun q other hq hd => (h.closed q other hq hd).trans
          (hsame q).symm, fun q => by simp only [h.count, hsame]⟩
      · have hmem : p ∉ pointers := fun hmem => hopen ((h.closed p data hp hdisk).mpr hmem)
        have hcount : t.decrements.count p = 0 := by
          rw [h.count, if_neg fun hc => hmem hc.2.1]
        rw [if_neg hopen]
        refine ⟨by split <;> exact h.cache, ?_, ?_, fun q => ?_⟩
        · split <;> exact hset _ rfl
        · split <;> exact hclosed _ fun _ => rfl
        · by_cases hqp : q = p
          · subst hqp
            cases hfails : fails q <;> simp [hcount, hcreated, hdisk]
          · have hother := h.count q
            cases hfails : fails p <;> simp [hother, hqp, Ne.symm hqp]
    · rw [if_neg hdisk]
      exact ⟨h.cache, hset _ rfl, hclosed _ fun htrue => absurd htrue hdisk,
        hnone (hcreated.trans (Bool.not_eq_true _ ▸ hdisk))⟩

omit [DecidableEq ι] in
theorem Closing.all (l : List ι) {pointers : List ℕ} (h : Closing fails s pointers t) :
    ∃ all, Closing fails s all (l.foldl (fun s i => (s.cache i).elim s (s.close fails)) t) ∧
      (∀ p ∈ pointers, p ∈ all) ∧ ∀ i ∈ l, ∀ p, s.cache i = some p → p ∈ all := by
  induction l generalizing pointers t with
  | nil => exact ⟨pointers, h, fun _ => id, by simp⟩
  | cons i l ih =>
    rw [List.foldl_cons, h.cache]
    cases hi : s.cache i with
    | none =>
      obtain ⟨all, hall, hkept, hl⟩ := ih h
      refine ⟨all, hall, hkept, List.forall_mem_cons.mpr ⟨fun p hp => ?_, hl⟩⟩
      cases hi.symm.trans hp
    | some p =>
      obtain ⟨all, hall, hkept, hl⟩ := ih (h.close p)
      refine ⟨all, hall, fun q hq => hkept q (List.mem_cons_of_mem p hq),
        List.forall_mem_cons.mpr ⟨fun q hq => ?_, hl⟩⟩
      cases hi.symm.trans hq
      exact hkept p List.mem_cons_self

omit [DecidableEq ι] in
/-- The end of the request decrements the counters once for each file that it can remove. -/
theorem Kept.cleanup (h : Kept env sources none s) (fails : ℕ → Bool) (p : ℕ) :
    (cleanupFileSources fails s).decrements.count p =
      if s.created p = true ∧ fails p = false then 1 else 0 := by
  have hstart : Closing fails s [] s := by
    refine ⟨rfl, fun _ => rfl, fun q data hq _ => ?_, fun q => ?_⟩
    · rw [h.opened data (List.mem_of_getElem? hq)]
      simp
    · rw [h.decrements]
      simp
  obtain ⟨all, hall, -, hclosed⟩ := hstart.all s.toCleanup
  refine (hall.count p).trans
    (if_congr ⟨fun hc => ⟨hc.1, hc.2.2⟩, fun hc => ⟨hc.1, ?_, hc.2⟩⟩ rfl rfl)
  have hlt : p < s.heap.length := by
    by_contra hlt
    have hcreated := hc.1
    rw [created_eq, List.getElem?_eq_none (by omega)] at hcreated
    cases hcreated
  obtain ⟨i, hi⟩ := h.owned p hlt
  exact hclosed i ((h.cached i p hi).1.resolve_left (by rintro ⟨⟩)) p hi

/-! ## Every run -/

omit [DecidableEq ι] in
theorem kept_initial : Kept env sources none (State.initial : State ι) :=
  ⟨by rintro i p ⟨⟩, by rintro key p ⟨⟩, by rintro i ⟨⟩, by rintro p ⟨⟩, by rintro data ⟨⟩, rfl⟩

/-- **The files are the right ones** in a run, and each file on the disk is counted out once, if
and only if every call meets no other file under its digest and no removal fails. -/
theorem files_right (env : Env) (sources : ι → FileSource) (hinj : env.generateHMAC.Injective)
    (fails : ℕ → Bool) (calls : List (Call ι)) :
    (system env sources).EveryState (Right env sources fails) State.initial calls ↔
      (system env sources).EveryStep (Meets env sources) State.initial calls ∧
        (system env sources).EveryState (fun s => ∀ p, s.created p = true → fails p = false)
          State.initial calls := by
  have hkept : (system env sources).EveryState (Kept env sources none) State.initial calls :=
    System.everyState_of_step (fun s c t hs ht => by
      cases ht
      exact { hs.load c.source c.onDisk with }) kept_initial
  have hanswers : (system env sources).EveryState (Answered env sources) State.initial calls ↔
      (system env sources).EveryStep (Meets env sources) State.initial calls := by
    refine System.everyState_iff_everyStep (I := Served env sources) (fun s hs => hs.answers)
      (fun s c t hs hc ht => ?_) (fun s c t hs hc ht => ?_)
      ⟨kept_initial, by rintro i p ⟨⟩, by rintro answer ⟨⟩⟩
    · cases ht
      exact hs.after hinj c hc
    · cases ht
      exact hs.wrong hinj c hc
  have honce : ∀ s, Kept env sources none s →
      ((∀ p, (cleanupFileSources fails s).decrements.count p = if s.created p then 1 else 0) ↔
        ∀ p, s.created p = true → fails p = false) := by
    intro s hs
    refine forall_congr' fun p => ?_
    rw [hs.cleanup]
    cases s.created p <;> cases fails p <;> simp
  rw [← hanswers]
  simp only [System.everyState_iff_prefix] at hkept ⊢
  constructor
  · intro h
    exact ⟨fun bs t hbs ht => (h bs t hbs ht).1,
      fun bs t hbs ht => (honce t (hkept bs t hbs ht)).mp (h bs t hbs ht).2⟩
  · rintro ⟨hright, hfails⟩ bs t hbs ht
    exact ⟨hright bs t hbs ht, (honce t (hkept bs t hbs ht)).mpr (hfails bs t hbs ht)⟩

/-- A service whose digest shows what it is of, and whose files end in one byte. -/
def exampleEnv : Env where
  maxFileDownloadMB := 64
  download _ := .ok ⟨200, fun _ => "image/png", .ok [1, 2, 3]⟩
  smartDetectMimeType response _ _ := ascii (response.header "Content-Type")
  encodeToString _ := ascii "AQID"
  decodeString data := .ok (List.replicate 98 0 ++ [if data.getLast? = some 66 then 1 else 0])
  decodeImageConfig _ := none
  generateHMAC bytes := String.ofList (bytes.map fun b => Char.ofNat b.toNat)

theorem exampleEnv_injective : exampleEnv.generateHMAC.Injective := by
  have hback : ∀ n < 256, (Char.ofNat n).toNat = n := by decide +kernel
  intro a b h
  refine List.map_injective_iff.mpr (fun x y hxy => ?_) (String.ofList_injective h)
  have hnat := congrArg Char.toNat hxy
  rw [hback _ x.isLt, hback _ y.isLt] at hnat
  exact BitVec.eq_of_toNat_eq hnat

/-- Two sources of one request. -/
def pair (first second : FileSource) : Bool → FileSource
  | false => first
  | true => second

/-- An inline file of 132 bytes. -/
def inline (last : Byte) : FileSource :=
  .base64 (List.replicate 131 65 ++ [last]) (ascii "image/png")

theorem mixed_right : (system exampleEnv (pair (.url (ascii "https://a.example/b.png"))
      (inline 65))).EveryState
    (Right exampleEnv (pair (.url (ascii "https://a.example/b.png")) (inline 65)) fun _ => false)
    State.initial [⟨true, true⟩, ⟨false, false⟩, ⟨true, true⟩] := by
  refine (files_right _ _ exampleEnv_injective _ _).mpr ⟨?_, ?_⟩
  · refine System.everyStep_of_everyStep (I := fun _ => True) (C := fun _ _ => True)
      (fun _ _ _ _ _ _ => trivial) (fun s c _ _ _ j _ hsame => ?_) trivial
      (System.everyStep_of_forall (fun _ _ => trivial) _)
    obtain ⟨i, onDisk⟩ := c
    cases i with
    | false => cases j <;> exact hsame.elim
    | true =>
      cases j with
      | false => exact hsame.elim
      | true => rfl
  · exact System.everyState_of_step (fun _ _ _ _ _ _ _ => rfl) fun _ _ => rfl

theorem not_right_of_any {calls : List (Call ι)}
    (h : ((system env sources).run State.initial calls).any (fun s => s.answers.any fun answer =>
      answer.2.toOption ≠ ((sources answer.1).load env).toOption.map some) = true) :
    ¬ (system env sources).EveryState (Right env sources fails) State.initial calls := by
  intro hright
  obtain ⟨s, hs, hany⟩ := Option.any_eq_true _ _ |>.mp h
  obtain ⟨answer, hanswer, hne⟩ := List.any_eq_true.mp hany
  refine of_decide_eq_true hne ?_
  rw [(hright.run hs).1 answer hanswer]
  cases (sources answer.1).load env <;> rfl

/-- The second file answers with the first one, which differs in its last byte. -/
theorem same_start_shared : ¬ (system exampleEnv (pair (inline 65) (inline 66))).EveryState
    (Right exampleEnv (pair (inline 65) (inline 66)) fun _ => false) State.initial
    [⟨false, false⟩, ⟨true, false⟩] :=
  not_right_of_any (by decide +kernel)

end LoadedFiles
