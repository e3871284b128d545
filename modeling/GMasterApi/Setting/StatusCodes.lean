import GMasterApi.Lib.GoString
import GMasterApi.Lib.Ranges

/-!
# Rules of status codes

A rule has codes and ranges of codes between commas.  It is read into ranges with gaps
between them, in which the search for a code stops early, and these are printed as a rule
again (`rule_means`).
-/

namespace Setting.StatusCodes

open GoString Ranges

abbrev StatusCodeRange := Range

/-! ## Reading and printing -/

def alwaysSkipRetryStatusCodes : List ℤ := [504, 524]

def rangeText (r : StatusCodeRange) : String :=
  if r.start = r.stop then toString r.start else toString r.start ++ "-" ++ toString r.stop

def statusCodeRangesToString (ranges : List StatusCodeRange) : String :=
  join (ranges.map rangeText) ','

def shouldMatchStatusCodeRanges (ranges : List StatusCodeRange) (code : ℤ) : Bool :=
  if code < 100 ∨ 599 < code then false else search code ranges

def shouldDisableByStatusCode (ranges : List StatusCodeRange) (code : ℤ) : Bool :=
  shouldMatchStatusCodeRanges ranges code

def shouldRetryByStatusCode (ranges : List StatusCodeRange) (code : ℤ) : Bool :=
  if code ∈ alwaysSkipRetryStatusCodes then false else shouldMatchStatusCodeRanges ranges code

def parseHTTPStatusCodeToken (token : String) : Except String StatusCodeRange :=
  let token := removeAll (trimSpace token) " "
  if token = "" then .error "empty token"
  else if contains token "-" then
    match split token '-' with
    | [first, second] =>
      if first = "" ∨ second = "" then .error ("invalid range token: " ++ token)
      else match atoi first with
        | none => .error ("invalid range start: " ++ token)
        | some start =>
          match atoi second with
          | none => .error ("invalid range end: " ++ token)
          | some stop =>
            if stop < start then .error ("range start > end: " ++ token)
            else if start < 100 ∨ 599 < stop then .error ("range out of bounds: " ++ token)
            else .ok ⟨start, stop⟩
    | _ => .error ("invalid range token: " ++ token)
  else match atoi token with
    | none => .error ("invalid status code: " ++ token)
    | some code =>
      if code < 100 ∨ 599 < code then .error ("status code out of bounds: " ++ token)
      else .ok ⟨code, code⟩

def isInvalid (seg : String) : Bool := !(parseHTTPStatusCodeToken seg).isOk

/-- The segments of a rule that are not blank. -/
def segments (input : String) : List String :=
  ((split (replaceChar input '，' ',') ',').map trimSpace).filter fun seg => seg ≠ ""

def parseHTTPStatusCodeRanges (input : String) : Except String (List StatusCodeRange) :=
  let input := trimSpace input
  if input = "" then .ok []
  else
    let invalid := (segments input).filter isInvalid
    if invalid ≠ [] then
      .error ("invalid http status code rules: " ++ ", ".intercalate invalid)
    else .ok (normalize ((segments input).filterMap fun seg => (parseHTTPStatusCodeToken seg).toOption))

/-! ## What is written -/

/-- The text without spaces. -/
def letters (token : String) : String :=
  String.ofList (token.toList.filter fun c => !isSpace c)

/-- A token is a code, or a range that has the code. -/
inductive Denotes (token : String) (code : ℤ) : Prop
  | code (h : atoi (letters token) = some code)
  | range (first second : String) (start stop : ℤ)
      (h : (letters token).toList = first.toList ++ '-' :: second.toList)
      (hstart : atoi first = some start) (hstop : atoi second = some stop)
      (hcode : start ≤ code ∧ code ≤ stop)

/-- The texts between commas of both kinds. -/
def tokens (input : String) : List String :=
  (input.toList.splitOnP fun c => c = ',' || c = '，').map String.ofList

/-- **What is written**: the ranges have the codes that some token stands for, leave gaps
between them, and are read again as they are printed. -/
structure Means (input : String) (ranges : List StatusCodeRange) : Prop where
  codes : ∀ code, shouldMatchStatusCodeRanges ranges code = true ↔
    ∃ token ∈ tokens input, Denotes token code
  canonical : Canonical ranges
  printed : parseHTTPStatusCodeRanges (statusCodeRangesToString ranges) = .ok ranges

/-! ## One token -/

variable {token input : String} {r : StatusCodeRange} {code : ℤ}

/-- A status code, or several of them. -/
structure Valid (r : StatusCodeRange) : Prop where
  low : 100 ≤ r.start
  start_le : r.start ≤ r.stop
  high : r.stop ≤ 599

/-- What is read is the token without spaces, if it has no other ones. -/
theorem letters_eq (h : ∀ c ∈ (removeAll (trimSpace token) " ").toList, isSpace c = false) :
    letters token = removeAll (trimSpace token) " " := by
  have hlist : (removeAll (trimSpace token) " ").toList =
      (GoString.trim token.toList).filter (· ≠ ' ') := by
    rw [show " " = String.singleton ' ' from rfl, toList_removeAll_singleton, trimSpace,
      String.toList_ofList]
  have hself : (removeAll (trimSpace token) " ").toList.filter (fun c => !isSpace c) =
      (removeAll (trimSpace token) " ").toList :=
    List.filter_eq_self.mpr fun c hc => by rw [h c hc]; rfl
  unfold letters
  rw [← filter_trim, ← String.toList_inj, String.toList_ofList, ← hself, hlist, List.filter_filter]
  refine List.filter_congr fun c _ => ?_
  by_cases hc : c = ' '
  · subst hc
    decide
  · simp [hc]

/-- A token in two parts is a range. -/
theorem denotes_range {first second : String} {start stop : ℤ}
    (h : (letters token).toList = first.toList ++ '-' :: second.toList)
    (hfirst : '-' ∉ first.toList) (hsecond : '-' ∉ second.toList)
    (hstart : atoi first = some start) (hstop : atoi second = some stop) :
    Denotes token code ↔ start ≤ code ∧ code ≤ stop := by
  constructor
  · intro hdenotes
    cases hdenotes with
    | code hcode =>
      obtain ⟨c, cs, hcs, -, hdigits⟩ := chars_of_atoi hcode
      obtain ⟨d, ds, hds, -, -⟩ := chars_of_atoi hstart
      rw [h, hds, List.cons_append, List.cons.injEq] at hcs
      have hdigit := hdigits '-' (hcs.2 ▸ List.mem_append_right ds List.mem_cons_self)
      cases hdigit
    | range first' second' start' stop' h' hstart' hstop' hcode =>
      rw [h, List.append_cons_inj_of_notMem hfirst hsecond] at h'
      obtain ⟨hfirst', -, hsecond'⟩ := h'
      rw [← String.toList_inj.mp hfirst', hstart, Option.some.injEq] at hstart'
      rw [← String.toList_inj.mp hsecond', hstop, Option.some.injEq] at hstop'
      rw [hstart', hstop']
      exact hcode
  · exact .range first second start stop h hstart hstop

/-- A token without a hyphen is a code. -/
theorem denotes_code {n : ℤ} (h : '-' ∉ (letters token).toList)
    (hn : atoi (letters token) = some n) : Denotes token code ↔ n ≤ code ∧ code ≤ n := by
  constructor
  · intro hdenotes
    cases hdenotes with
    | code hcode =>
      cases hn.symm.trans hcode
      exact ⟨le_rfl, le_rfl⟩
    | range first second start stop h' hstart hstop hcode =>
      refine absurd ?_ h
      rw [h']
      exact List.mem_append_right _ List.mem_cons_self
  · rintro ⟨hle, hge⟩
    exact .code (hn.trans (congrArg some (le_antisymm hle hge)))

theorem valid_of_bounds {start stop : ℤ} (hle : ¬ stop < start)
    (hbounds : ¬ (start < 100 ∨ 599 < stop)) : Valid ⟨start, stop⟩ := by
  constructor
  · show 100 ≤ start
    omega
  · exact not_lt.mp hle
  · show stop ≤ 599
    omega

theorem parseHTTPStatusCodeToken_ok (h : parseHTTPStatusCodeToken token = .ok r) :
    Valid r ∧ ∀ code, Denotes token code ↔ r.Has code := by
  unfold parseHTTPStatusCodeToken at h
  dsimp only at h
  split at h
  · cases h
  split at h
  · split at h
    · rename_i first second hsplit
      split at h
      · cases h
      cases hstart : atoi first with
      | none =>
        rw [hstart] at h
        cases h
      | some start =>
        cases hstop : atoi second with
        | none =>
          rw [hstart, hstop] at h
          cases h
        | some stop =>
          rw [hstart, hstop] at h
          dsimp only at h
          split at h
          · cases h
          rename_i hle
          split at h
          · cases h
          rename_i hbounds
          cases h
          refine ⟨valid_of_bounds hle hbounds, fun code => ?_⟩
          have hparts : (removeAll (trimSpace token) " ").toList =
              first.toList ++ '-' :: second.toList := by
            rw [← join_split (removeAll (trimSpace token) " ") '-', hsplit, join_cons_cons,
              join_singleton]
          have hspaces : ∀ c ∈ (removeAll (trimSpace token) " ").toList, isSpace c = false := by
            rw [hparts]
            intro c hc
            rcases List.mem_append.mp hc with hc | hc
            · exact not_isSpace_of_atoi hstart c hc
            · rcases List.mem_cons.mp hc with rfl | hc
              · decide
              · exact not_isSpace_of_atoi hstop c hc
          have hletters : letters token = removeAll (trimSpace token) " " := letters_eq hspaces
          rw [← hletters] at hparts hsplit
          exact denotes_range hparts (not_mem_of_mem_split (hsplit ▸ List.mem_cons_self))
            (not_mem_of_mem_split (hsplit ▸ List.mem_cons_of_mem _ List.mem_cons_self))
            hstart hstop
    · cases h
  · rename_i hhyphen
    cases hn : atoi (removeAll (trimSpace token) " ") with
    | none =>
      rw [hn] at h
      cases h
    | some n =>
      rw [hn] at h
      dsimp only at h
      split at h
      · cases h
      rename_i hbounds
      cases h
      refine ⟨valid_of_bounds (lt_irrefl n) hbounds, fun code => ?_⟩
      have hletters : letters token = removeAll (trimSpace token) " " :=
        letters_eq (not_isSpace_of_atoi hn)
      rw [← hletters] at hn hhyphen
      rw [show "-" = String.singleton '-' from rfl, contains_singleton] at hhyphen
      exact denotes_code hhyphen hn

/-! ## A whole rule -/

/-- The separators are not spaces, so the spaces around a rule are those of its end tokens. -/
theorem letters_tokens (input : String) :
    (tokens (trimSpace input)).map letters = (tokens input).map letters := by
  have hseparators : ∀ c : Char, (c = ',' || c = '，') = true → (!isSpace c) = true := by
    intro c hc
    rcases Bool.or_eq_true_iff.mp hc with hc | hc
    · rw [of_decide_eq_true hc]
      decide
    · rw [of_decide_eq_true hc]
      decide
  have hmap : ∀ s : String, (tokens s).map letters =
      ((s.toList.filter fun c => !isSpace c).splitOnP fun c => c = ',' || c = '，').map
        String.ofList := by
    intro s
    rw [splitOnP_filter hseparators, tokens, List.map_map, List.map_map]
    refine List.map_congr_left fun l _ => ?_
    show letters (String.ofList l) = String.ofList (l.filter fun c => !isSpace c)
    rw [letters, String.toList_ofList]
  rw [hmap, hmap, trimSpace, String.toList_ofList, filter_trim]

theorem denotes_congr {token' : String} (h : letters token = letters token') :
    Denotes token code ↔ Denotes token' code := by
  constructor
  · rintro (hcode | ⟨first, second, start, stop, hparts, hstart, hstop, hcode⟩)
    · exact .code (h ▸ hcode)
    · exact .range first second start stop (h ▸ hparts) hstart hstop hcode
  · rintro (hcode | ⟨first, second, start, stop, hparts, hstart, hstop, hcode⟩)
    · exact .code (h ▸ hcode)
    · exact .range first second start stop (h ▸ hparts) hstart hstop hcode

theorem denotes_tokens_trimSpace : (∃ token ∈ tokens (trimSpace input), Denotes token code) ↔
    ∃ token ∈ tokens input, Denotes token code := by
  have hforward : ∀ s t : String, (tokens s).map letters = (tokens t).map letters →
      (∃ token ∈ tokens s, Denotes token code) → ∃ token ∈ tokens t, Denotes token code := by
    rintro s t heq ⟨token, htoken, hdenotes⟩
    have hmem : letters token ∈ (tokens t).map letters := heq ▸ List.mem_map_of_mem htoken
    obtain ⟨token', htoken', hletters⟩ := List.mem_map.mp hmem
    exact ⟨token', htoken', (denotes_congr hletters.symm).mp hdenotes⟩
  exact ⟨hforward _ _ (letters_tokens input), hforward _ _ (letters_tokens input).symm⟩

theorem letters_trimSpace (token : String) : letters (trimSpace token) = letters token := by
  unfold letters
  rw [trimSpace, String.toList_ofList, filter_trim]

/-- A blank token stands for nothing. -/
theorem not_denotes_of_blank (h : trimSpace token = "") : ¬ Denotes token code := by
  rw [← denotes_congr (letters_trimSpace token), h]
  rintro (hcode | ⟨first, second, start, stop, hparts, hstart, hstop, hcode⟩)
  · cases hcode
  · have hnil : ([] : List Char) = first.toList ++ '-' :: second.toList := hparts
    cases hnil.symm.trans rfl |> List.append_eq_nil_iff.mp |>.2

theorem segments_eq (input : String) :
    segments input = ((tokens input).map trimSpace).filter fun seg => seg ≠ "" := by
  unfold segments tokens
  rw [split_replaceChar]

/-- Every token of an accepted rule that is not blank is a range. -/
theorem parseHTTPStatusCodeRanges_ok {ranges : List StatusCodeRange}
    (h : parseHTTPStatusCodeRanges input = .ok ranges) :
    ∃ l : List StatusCodeRange, ranges = normalize l ∧ (∀ r ∈ l, Valid r) ∧
      ∀ code, Holds l code ↔ ∃ token ∈ tokens input, Denotes token code := by
  unfold parseHTTPStatusCodeRanges at h
  dsimp only at h
  split at h
  · rename_i hblank
    cases h
    refine ⟨[], rfl, nofun, fun code => ?_⟩
    rw [← denotes_tokens_trimSpace, hblank]
    refine iff_of_false (fun ⟨r, hr, _⟩ => absurd hr List.not_mem_nil) ?_
    rintro ⟨token, htoken, hdenotes⟩
    have htoken : token ∈ [""] := htoken
    rw [List.mem_singleton.mp htoken] at hdenotes
    have hempty : trimSpace "" = "" := by decide
    exact not_denotes_of_blank hempty hdenotes
  · split at h
    · cases h
    rename_i hinvalid
    rw [not_not, List.filter_eq_nil_iff] at hinvalid
    obtain rfl := Except.ok.inj h
    have hok : ∀ seg ∈ segments (trimSpace input), ∃ r, parseHTTPStatusCodeToken seg = .ok r := by
      intro seg hseg
      cases hparse : parseHTTPStatusCodeToken seg with
      | error e => exact absurd (by simp [isInvalid, hparse, Except.isOk, Except.toBool]) (hinvalid seg hseg)
      | ok r => exact ⟨r, rfl⟩
    have hmem : ∀ r, (r ∈ (segments (trimSpace input)).filterMap fun seg =>
        (parseHTTPStatusCodeToken seg).toOption) ↔
        ∃ seg ∈ segments (trimSpace input), parseHTTPStatusCodeToken seg = .ok r := by
      intro r
      rw [List.mem_filterMap]
      refine exists_congr fun seg => and_congr_right fun _ => ?_
      cases parseHTTPStatusCodeToken seg with
      | error e => exact iff_of_false nofun nofun
      | ok r' => simp [Except.toOption]
    refine ⟨_, rfl, fun r hr => ?_, fun code => ?_⟩
    · obtain ⟨seg, -, hparse⟩ := (hmem r).mp hr
      exact (parseHTTPStatusCodeToken_ok hparse).1
    · rw [← denotes_tokens_trimSpace]
      constructor
      · rintro ⟨r, hr, hcode⟩
        obtain ⟨seg, hseg, hparse⟩ := (hmem r).mp hr
        rw [segments_eq] at hseg
        obtain ⟨token, htoken, rfl⟩ := List.mem_map.mp (List.mem_filter.mp hseg).1
        refine ⟨token, htoken, (denotes_congr (letters_trimSpace token)).mp ?_⟩
        exact ((parseHTTPStatusCodeToken_ok hparse).2 code).mpr hcode
      · rintro ⟨token, htoken, hdenotes⟩
        have hseg : trimSpace token ∈ segments (trimSpace input) := by
          rw [segments_eq, List.mem_filter]
          refine ⟨List.mem_map_of_mem htoken, decide_eq_true fun hblank => ?_⟩
          exact not_denotes_of_blank hblank hdenotes
        obtain ⟨r, hparse⟩ := hok _ hseg
        refine ⟨r, (hmem r).mpr ⟨_, hseg, hparse⟩, ?_⟩
        refine ((parseHTTPStatusCodeToken_ok hparse).2 code).mp ?_
        exact (denotes_congr (letters_trimSpace token)).mpr hdenotes

/-! ## Printing -/

theorem Valid.of_normalize {l : List StatusCodeRange} (hl : ∀ r ∈ l, Valid r) :
    ∀ r ∈ normalize l, Valid r := by
  obtain ⟨hcanonical, hholds⟩ := normalize_spec fun r hr => (hl r hr).start_le
  intro r hr
  have hle := hcanonical.start_le r hr
  obtain ⟨s, hs, hstart⟩ := (hholds r.start).mp ⟨r, hr, le_rfl, hle⟩
  obtain ⟨t, ht, hstop⟩ := (hholds r.stop).mp ⟨r, hr, hle, le_rfl⟩
  exact ⟨(hl s hs).low.trans hstart.1, hle, hstop.2.trans (hl t ht).high⟩

theorem shouldMatchStatusCodeRanges_iff {ranges : List StatusCodeRange}
    (hvalid : ∀ r ∈ ranges, Valid r) (hcanonical : Canonical ranges) :
    shouldMatchStatusCodeRanges ranges code = true ↔ Holds ranges code := by
  unfold shouldMatchStatusCodeRanges
  split
  · rename_i hbounds
    refine iff_of_false Bool.false_ne_true ?_
    rintro ⟨r, hr, hcode⟩
    have hlow := (hvalid r hr).low.trans hcode.1
    have hhigh := hcode.2.trans (hvalid r hr).high
    omega
  · exact search_iff hcanonical

/-- A valid range as it is printed, by the numbers that it is printed from. -/
theorem rangeText_cases (hr : Valid r) : ∃ m n : ℕ, r = ⟨m, n⟩ ∧ n < 2 ^ 63 ∧ m ≤ n ∧
    (m = n ∧ rangeText r = m.repr ∨ rangeText r = m.repr ++ "-" ++ n.repr) := by
  obtain ⟨start, stop⟩ := r
  obtain ⟨hlow, hle, hhigh⟩ := hr
  dsimp only at hlow hle hhigh
  obtain ⟨m, rfl⟩ := Int.eq_ofNat_of_zero_le (show 0 ≤ start by omega)
  obtain ⟨n, rfl⟩ := Int.eq_ofNat_of_zero_le (show 0 ≤ stop by omega)
  refine ⟨m, n, rfl, by omega, by omega, ?_⟩
  unfold rangeText
  by_cases heq : (m : ℤ) = n
  · rw [if_pos heq]
    exact .inl ⟨by omega, rfl⟩
  · rw [if_neg heq]
    exact .inr rfl

theorem chars_rangeText (hr : Valid r) :
    ∀ c ∈ (rangeText r).toList, c.isDigit = true ∨ c = '-' := by
  obtain ⟨m, n, -, -, -, ⟨-, htext⟩ | htext⟩ := rangeText_cases hr
  · rw [htext]
    exact fun c hc => .inl (isDigit_of_mem_repr hc)
  · rw [htext, String.toList_append, String.toList_append]
    intro c hc
    rcases List.mem_append.mp hc with hc | hc
    · rcases List.mem_append.mp hc with hc | hc
      · exact .inl (isDigit_of_mem_repr hc)
      · exact .inr (List.mem_singleton.mp hc)
    · exact .inl (isDigit_of_mem_repr hc)

theorem rangeText_ne_empty (hr : Valid r) : rangeText r ≠ "" := by
  obtain ⟨m, n, -, -, -, ⟨-, htext⟩ | htext⟩ := rangeText_cases hr
  · rw [htext]
    exact Nat.repr_ne_empty
  · rw [htext]
    intro h
    have hlist := congrArg String.toList h
    simp at hlist

theorem not_isSpace_rangeText (hr : Valid r) : ∀ c ∈ (rangeText r).toList, isSpace c = false := by
  intro c hc
  rcases chars_rangeText hr c hc with hdigit | rfl
  · exact isSpace_of_isDigit hdigit
  · decide

/-- A range is read as it is printed. -/
theorem parse_rangeText (hr : Valid r) : parseHTTPStatusCodeToken (rangeText r) = .ok r := by
  have hspaces := not_isSpace_rangeText hr
  have htrimmed : removeAll (trimSpace (rangeText r)) " " = rangeText r := by
    rw [trimSpace_of_no_space hspaces, ← String.toList_inj,
      show " " = String.singleton ' ' from rfl, toList_removeAll_singleton, List.filter_eq_self]
    intro c hc
    have hspace := hspaces c hc
    rw [decide_eq_true_iff]
    rintro rfl
    cases hspace
  unfold parseHTTPStatusCodeToken
  rw [htrimmed]
  dsimp only
  rw [if_neg (rangeText_ne_empty hr)]
  obtain ⟨m, n, rfl, hn, hle, ⟨rfl, htext⟩ | htext⟩ := rangeText_cases hr
  · have hhyphen : ¬ contains (rangeText ⟨m, m⟩) "-" = true := by
      rw [htext, show "-" = String.singleton '-' from rfl, contains_singleton]
      exact fun h => absurd (isDigit_of_mem_repr h) (by decide)
    rw [if_neg hhyphen, htext, atoi_repr hn]
    dsimp only
    exact if_neg (not_or.mpr ⟨not_lt.mpr hr.low, not_lt.mpr hr.high⟩)
  · have hjoin : m.repr ++ "-" ++ n.repr = join [m.repr, n.repr] '-' := by
      rw [← String.toList_inj, join_cons_cons, join_singleton]
      simp
    have hparts : ∀ s ∈ [m.repr, n.repr], '-' ∉ s.toList := by
      intro s hs h
      simp only [List.mem_cons, List.not_mem_nil, or_false] at hs
      rcases hs with rfl | rfl
      · exact absurd (isDigit_of_mem_repr h) (by decide)
      · exact absurd (isDigit_of_mem_repr h) (by decide)
    have hhyphen : contains (m.repr ++ "-" ++ n.repr) "-" = true := by
      rw [show "-" = String.singleton '-' from rfl, contains_singleton]
      simp
    rw [htext, if_pos hhyphen, hjoin, split_join hparts (List.cons_ne_nil _ _)]
    dsimp only
    rw [if_neg (not_or.mpr ⟨Nat.repr_ne_empty, Nat.repr_ne_empty⟩), atoi_repr (hle.trans_lt hn),
      atoi_repr hn]
    dsimp only
    rw [if_neg (not_lt.mpr hr.start_le)]
    exact if_neg (not_or.mpr ⟨not_lt.mpr hr.low, not_lt.mpr hr.high⟩)

/-- The segments of a printed rule are its ranges. -/
theorem segments_printed {ranges : List StatusCodeRange} (hvalid : ∀ r ∈ ranges, Valid r)
    (hne : ranges ≠ []) :
    trimSpace (statusCodeRangesToString ranges) = statusCodeRangesToString ranges ∧
      segments (statusCodeRangesToString ranges) = ranges.map rangeText := by
  have htext : ∀ s ∈ ranges.map rangeText, ∃ r, Valid r ∧ s = rangeText r := by
    intro s hs
    obtain ⟨r, hr, rfl⟩ := List.mem_map.mp hs
    exact ⟨r, hvalid r hr, rfl⟩
  have hchars : ∀ c ∈ (statusCodeRangesToString ranges).toList,
      c = ',' ∨ c.isDigit = true ∨ c = '-' := by
    intro c hc
    refine (mem_join hc).imp_right fun ⟨s, hs, hcs⟩ => ?_
    obtain ⟨r, hr, rfl⟩ := htext s hs
    exact chars_rangeText hr c hcs
  constructor
  · refine trimSpace_of_no_space fun c hc => ?_
    rcases hchars c hc with rfl | hdigit | rfl
    · decide
    · exact isSpace_of_isDigit hdigit
    · decide
  · have hreplace : replaceChar (statusCodeRangesToString ranges) '，' ',' =
        statusCodeRangesToString ranges := by
      unfold replaceChar
      rw [← String.toList_inj, String.toList_ofList]
      refine (List.map_congr_left fun c hc => ?_).trans (List.map_id _)
      refine if_neg ?_
      rintro rfl
      rcases hchars _ hc with h | h | h
      · cases h
      · cases h
      · cases h
    have hcomma : ∀ s ∈ ranges.map rangeText, ',' ∉ s.toList := by
      intro s hs hc
      obtain ⟨r, hr, rfl⟩ := htext s hs
      rcases chars_rangeText hr _ hc with h | h
      · cases h
      · cases h
    have htrim : (ranges.map rangeText).map trimSpace = ranges.map rangeText := by
      refine (List.map_congr_left fun s hs => ?_).trans (List.map_id _)
      obtain ⟨r, hr, rfl⟩ := htext s hs
      exact trimSpace_of_no_space (not_isSpace_rangeText hr)
    unfold segments
    rw [hreplace, statusCodeRangesToString, split_join hcomma (by simpa using hne), htrim,
      List.filter_eq_self]
    intro s hs
    obtain ⟨r, hr, rfl⟩ := htext s hs
    exact decide_eq_true (rangeText_ne_empty hr)

theorem parse_printed {ranges : List StatusCodeRange} (hvalid : ∀ r ∈ ranges, Valid r)
    (hcanonical : Canonical ranges) :
    parseHTTPStatusCodeRanges (statusCodeRangesToString ranges) = .ok ranges := by
  by_cases hne : ranges = []
  · rw [hne]
    rfl
  obtain ⟨htrim, hsegments⟩ := segments_printed hvalid hne
  have hparse : ∀ s ∈ ranges.map rangeText, isInvalid s = false := by
    intro s hs
    obtain ⟨r, hr, rfl⟩ := List.mem_map.mp hs
    rw [isInvalid, parse_rangeText (hvalid r hr)]
    rfl
  have hinvalid : (ranges.map rangeText).filter isInvalid = [] := by
    rw [List.filter_eq_nil_iff]
    exact fun s hs => by rw [hparse s hs]; exact Bool.false_ne_true
  have hranges : ((ranges.map rangeText).filterMap fun seg =>
      (parseHTTPStatusCodeToken seg).toOption) = ranges := by
    rw [List.filterMap_map]
    refine (List.filterMap_congr fun r hr => ?_).trans List.filterMap_some
    rw [Function.comp_apply, parse_rangeText (hvalid r hr)]
    rfl
  have hblank : statusCodeRangesToString ranges ≠ "" := by
    intro hblank
    have hnil : segments "" = [] := by decide
    rw [hblank, hnil] at hsegments
    exact hne (List.map_eq_nil_iff.mp hsegments.symm)
  unfold parseHTTPStatusCodeRanges
  rw [htrim]
  dsimp only
  rw [hsegments, hinvalid, hranges, normalize_of_canonical hcanonical, if_neg hblank]
  exact if_neg (not_not.mpr rfl)

/-- **Rules of status codes** mean what is written. -/
theorem rule_means {ranges : List StatusCodeRange}
    (h : parseHTTPStatusCodeRanges input = .ok ranges) : Means input ranges := by
  obtain ⟨l, rfl, hl, hcodes⟩ := parseHTTPStatusCodeRanges_ok h
  obtain ⟨hcanonical, hholds⟩ := normalize_spec fun r hr => (hl r hr).start_le
  have hvalid := Valid.of_normalize hl
  refine ⟨fun code => ?_, hcanonical, parse_printed hvalid hcanonical⟩
  rw [shouldMatchStatusCodeRanges_iff hvalid hcanonical, hholds, hcodes]

/-- Both kinds of commas, spaces, ranges that overlap and touch. -/
theorem rule_means_mixed :
    Means " 500 - 505, 504，401 ,403, 402 " [⟨401, 403⟩, ⟨500, 505⟩] :=
  rule_means (by decide)

end Setting.StatusCodes
