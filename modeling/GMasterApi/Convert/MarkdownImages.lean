import GMasterApi.Convert.GeminiRequest
import GMasterApi.Lib.Occurrence

/-!
# Images in the text of a message to Gemini

`CovertOpenAI2Gemini` looks in a text part for `![`, then for `](data:` and then for `)`, and
sends what is between as an image.  What is behind the last image is not sent, and what is
between a `![` and the `](data:` of another image is taken as that image's text
(`images_kept_iff`).
-/

namespace Convert.MarkdownImages

open Gemini GoString Occurrence

/-- A part of a content, with what a text part of a message sets. -/
structure GeminiPart where
  text : String
  inlineData : Option GeminiInlineData
  thoughtSignature : String
  deriving DecidableEq

/-- An image in a text: what is shown for it, its URL, and what is behind it. -/
structure Image where
  alt : List Char
  url : List Char
  rest : List Char
  deriving DecidableEq

def opening : List Char := ['!', '[']

def closing : List Char := [']', '(']

def dataBracket : List Char := closing ++ "data:".toList

/-- The image as it is written, and what is behind it. -/
def Image.text (i : Image) : List Char := opening ++ i.alt ++ closing ++ i.url ++ ')' :: i.rest

/-! ## The loop -/

/-- The three searches: what is before the image, and the image. -/
def nextImage (text : List Char) : Option (List Char × Image) :=
  match cutAt opening text with
  | none => none
  | some (before, fromStart) =>
    match cutAt dataBracket fromStart with
    | none => none
    | some (shown, fromBracket) =>
      match cutAt [')'] (fromBracket.drop 2) with
      | none => none
      | some (url, fromClose) => some (before, ⟨shown.drop 2, url, fromClose.drop 1⟩)

variable {text before : List Char} {i : Image}

/-- The alternative text closes nothing and opens no other image. -/
def Plain (alt : List Char) : Prop := ¬ opening <:+: alt ∧ ¬ closing <:+: alt

instance (alt : List Char) : Decidable (Plain alt) :=
  inferInstanceAs (Decidable (¬ opening <:+: alt ∧ ¬ closing <:+: alt))

/-- A URL with data that ends where it is closed. -/
structure Image.Data (i : Image) : Prop where
  data : "data:".toList <+: i.url
  open_ : ')' ∉ i.url

theorem eq_of_dataBracket {b : List Char} (h : dataBracket <+: b) :
    ∃ d, b = closing ++ ("data:".toList ++ d) := by
  obtain ⟨d, rfl⟩ := h
  exact ⟨d, List.append_assoc _ _ _⟩

/-- There is no bracket at the opening. -/
theorem opening_append_of_closing {tail a b : List Char} (h : opening ++ tail = a ++ b)
    (hb : closing <+: b) : ∃ c, a = opening ++ c ∧ tail = c ++ b := by
  obtain ⟨d, rfl⟩ := hb
  cases a with
  | nil => cases h
  | cons x a =>
    cases a with
    | nil => cases h
    | cons y c =>
      injection h with hx h
      injection h with hy h
      exact ⟨c, by rw [← hx, ← hy]; rfl, h⟩

theorem data_prefix_of_append {d url after : List Char} (h : "data:".toList ++ d = url ++ ')' :: after) :
    "data:".toList <+: url := by
  rcases List.append_eq_append_iff.mp h with ⟨c, rfl, -⟩ | ⟨c, hc, hcd⟩
  · exact List.prefix_append _ c
  · cases c with
    | nil =>
      rw [List.append_nil] at hc
      rw [hc]
    | cons x c =>
      have hx : ')' ∈ "data:".toList := by
        injection hcd with hx
        rw [hc, hx]
        exact List.mem_append_right url List.mem_cons_self
      exact absurd hx (by decide)

theorem nextImage_spec (h : nextImage text = some (before, i)) :
    text = before ++ i.text ∧ i.Data ∧
      (∀ a b, text = a ++ b → opening <+: b → before.length ≤ a.length) ∧
      ∀ a b, i.text = opening ++ a ++ b → dataBracket <+: b → i.alt.length ≤ a.length := by
  unfold nextImage at h
  split at h
  · cases h
  rename_i before fromStart hstart
  split at h
  · cases h
  rename_i shown fromBracket hbracket
  split at h
  · cases h
  rename_i url fromClose hclose
  cases h
  obtain ⟨rfl, ⟨tail, rfl⟩, hfirst⟩ := cutAt_eq_some_iff.mp hstart
  obtain ⟨hshown, hdata, hfirst'⟩ := cutAt_eq_some_iff.mp hbracket
  obtain ⟨d, rfl⟩ := eq_of_dataBracket hdata
  obtain ⟨alt, rfl, rfl⟩ := opening_append_of_closing hshown (List.prefix_append _ _)
  obtain ⟨hurl, hhead, hnot⟩ := cutAt_singleton_iff.mp hclose
  obtain ⟨rest, rfl⟩ : ∃ rest, fromClose = ')' :: rest := by
    cases fromClose with
    | nil => cases hhead
    | cons c rest => exact ⟨rest, congrArg (· :: rest) (Option.some.inj hhead)⟩
  have hdrop : List.drop 2 (closing ++ ("data:".toList ++ d)) = "data:".toList ++ d := rfl
  rw [hdrop] at hurl
  have htext : (⟨alt, url, rest⟩ : Image).text = opening ++ (alt ++ (closing ++ ("data:".toList ++ d))) := by
    rw [hurl, Image.text]
    simp only [List.append_assoc]
  refine ⟨congrArg (before ++ ·) htext.symm, ⟨data_prefix_of_append hurl, hnot⟩, hfirst, ?_⟩
  intro a b hab hb
  have hle := hfirst' (opening ++ a) b (htext.symm.trans hab) hb
  have hle' : alt.length ≤ a.length := by simpa using hle
  exact hle'

theorem length_rest_lt (h : nextImage text = some (before, i)) : i.rest.length < text.length := by
  rw [(nextImage_spec h).1, Image.text]
  simp only [List.length_append, List.length_cons]
  omega

section Parts

-- `DecodeBase64ImageData` gives the format of an image and its data.
variable (decodeBase64ImageData : String → Except String (String × String))
  (shouldAttachThoughtSignature : Bool)

def decodeBase64FileData (base64String : String) : Except String (String × String) :=
  let ofImage (data : String) : Except String (String × String) :=
    (decodeBase64ImageData data).map fun image => ("image/" ++ image.1, image.2)
  match cut base64String ',' with
  | none => ofImage base64String
  | some (header, data) =>
    match cut header ';' with
    | none => ofImage data
    | some (header, _) =>
      match cut header ':' with
      | none => ofImage data
      | some (_, mimeType) => .ok (mimeType, data)

def thoughtSignatureBypassValue : String := "context_engineering_is_the_way_to_go"

def textPart (text : List Char) : GeminiPart := ⟨String.ofList text, none, ""⟩

def textBefore (text : List Char) : List GeminiPart := if text = [] then [] else [textPart text]

def imgPart (url : List Char) : Except String GeminiPart :=
  match decodeBase64FileData decodeBase64ImageData (String.ofList url) with
  | .error e => .error ("decode markdown base64 image data failed: " ++ e)
  | .ok (format, base64String) =>
    .ok ⟨"", some ⟨format, base64String⟩,
      if shouldAttachThoughtSignature then "\"" ++ thoughtSignatureBypassValue ++ "\"" else ""⟩

/-- The loop over the images of a text, with whether there is one. -/
def markdownImages (text : List Char) : Except String (List GeminiPart × Bool) :=
  match _h : nextImage text with
  | none => .ok ([], false)
  | some (before, i) =>
    match imgPart decodeBase64ImageData shouldAttachThoughtSignature i.url with
    | .error e => .error e
    | .ok part =>
      match markdownImages i.rest with
      | .error e => .error e
      | .ok (parts, _) => .ok (textBefore before ++ part :: parts, true)
termination_by text.length
decreasing_by exact length_rest_lt _h

/-- The parts that a text part of a message becomes. -/
def textParts (text : String) : Except String (List GeminiPart) :=
  if text = "" then .ok []
  else
    match markdownImages decodeBase64ImageData shouldAttachThoughtSignature text.toList with
    | .error e => .error e
    | .ok (parts, hasMarkdownImage) =>
      .ok (if hasMarkdownImage then parts else [textPart text.toList])

/-! ## What is promised -/

/-- The image that a text begins with: between its brackets none is closed and none opened. -/
def imageAt (text : List Char) : Option Image :=
  if opening.isPrefixOf text then
    match cutAt closing (text.drop 2) with
    | none => none
    | some (alt, fromBracket) =>
      if dataBracket.isPrefixOf fromBracket ∧ ¬ opening <:+: alt then
        match cutAt [')'] (fromBracket.drop 2) with
        | none => none
        | some (url, fromClose) => some ⟨alt, url, fromClose.drop 1⟩
      else none
  else none

def firstImage : List Char → Option (List Char × Image) := firstSome imageAt

/-- In a plain text the first closing bracket is the one behind it. -/
theorem length_le_of_closing {alt tail a b : List Char} (hplain : ¬ closing <:+: alt)
    (h : alt ++ (closing ++ tail) = a ++ b) (hb : closing <+: b) : alt.length ≤ a.length := by
  by_contra hlt
  rcases List.append_eq_append_iff.mp h with ⟨c, rfl, -⟩ | ⟨c, rfl, rfl⟩
  · rw [List.length_append] at hlt
    omega
  · obtain ⟨d, hd⟩ := hb
    cases c with
    | nil => simp at hlt
    | cons x c =>
      cases c with
      | nil => cases hd
      | cons y c =>
        injection hd with hx hd
        injection hd with hy hd
        refine hplain ⟨a, c, ?_⟩
        rw [← hx, ← hy, List.append_assoc]
        rfl

theorem Image.text_eq (i : Image) :
    i.text = opening ++ (i.alt ++ (closing ++ (i.url ++ ')' :: i.rest))) := by
  simp only [Image.text, List.append_assoc]

theorem Image.Data.dataBracket (h : i.Data) (l : List Char) :
    MarkdownImages.dataBracket <+: closing ++ (i.url ++ l) := by
  obtain ⟨d, hd⟩ := h.data
  refine ⟨d ++ l, ?_⟩
  rw [← hd, MarkdownImages.dataBracket]
  simp only [List.append_assoc]

theorem imageAt_eq_some_iff : imageAt text = some i ↔ text = i.text ∧ i.Data ∧ Plain i.alt := by
  unfold imageAt
  constructor
  · intro h
    split at h
    · rename_i hopening
      obtain ⟨tail, rfl⟩ := List.isPrefixOf_iff_prefix.mp hopening
      split at h
      · cases h
      rename_i alt fromBracket halt
      split at h
      · rename_i hbracket
        split at h
        · cases h
        rename_i url fromClose hclose
        cases h
        obtain ⟨htail, -, hfirst⟩ := cutAt_eq_some_iff.mp halt
        obtain ⟨d, rfl⟩ := eq_of_dataBracket (List.isPrefixOf_iff_prefix.mp hbracket.1)
        obtain ⟨hurl, hhead, hnot⟩ := cutAt_singleton_iff.mp hclose
        obtain ⟨rest, rfl⟩ : ∃ rest, fromClose = ')' :: rest := by
          cases fromClose with
          | nil => cases hhead
          | cons c rest => exact ⟨rest, congrArg (· :: rest) (Option.some.inj hhead)⟩
        have htail' : tail = alt ++ (closing ++ ("data:".toList ++ d)) := htail
        have hurl' : "data:".toList ++ d = url ++ ')' :: rest := hurl
        refine ⟨?_, ⟨data_prefix_of_append hurl', hnot⟩, hbracket.2, ?_⟩
        · rw [Image.text_eq, htail', hurl']
          rfl
        · rintro ⟨a, b, (hab : a ++ closing ++ b = alt)⟩
          have hle := hfirst a (closing ++ b ++ (closing ++ ("data:".toList ++ d)))
            (by rw [htail, ← hab]; simp only [List.append_assoc])
            (by rw [List.append_assoc]; exact List.prefix_append _ _)
          have hlength : a.length + 2 ≤ alt.length := by
            rw [← hab, List.length_append, List.length_append]
            exact Nat.le_add_right _ _
          omega
      · cases h
    · cases h
  · rintro ⟨rfl, hdata, hplain⟩
    have hopening : opening.isPrefixOf i.text = true := by
      rw [List.isPrefixOf_iff_prefix, Image.text_eq]
      exact List.prefix_append _ _
    have hdrop : i.text.drop 2 = i.alt ++ (closing ++ (i.url ++ ')' :: i.rest)) := by
      rw [Image.text_eq]
      rfl
    have halt : cutAt closing (i.text.drop 2) =
        some (i.alt, closing ++ (i.url ++ ')' :: i.rest)) := by
      rw [hdrop]
      exact cutAt_eq_some_iff.mpr ⟨rfl, List.prefix_append _ _,
        fun a b hab hb => length_le_of_closing hplain.2 hab hb⟩
    have hbracket : dataBracket.isPrefixOf (closing ++ (i.url ++ ')' :: i.rest)) = true :=
      List.isPrefixOf_iff_prefix.mpr (hdata.dataBracket _)
    have hclose : cutAt [')'] ((closing ++ (i.url ++ ')' :: i.rest)).drop 2) =
        some (i.url, ')' :: i.rest) :=
      cutAt_singleton_iff.mpr ⟨rfl, rfl, hdata.open_⟩
    rw [if_pos hopening, halt]
    dsimp only
    rw [if_pos ⟨hbracket, hplain.1⟩, hclose]
    rfl

theorem firstImage_spec (h : firstImage text = some (before, i)) :
    text = before ++ i.text ∧ i.Data ∧ Plain i.alt := by
  obtain ⟨after, htext, hafter, -⟩ := firstSome_eq_some_iff.mp h
  obtain ⟨rfl, hi⟩ := imageAt_eq_some_iff.mp hafter
  exact ⟨htext, hi⟩

theorem length_firstImage_lt (h : firstImage text = some (before, i)) :
    i.rest.length < text.length := by
  rw [(firstImage_spec h).1, Image.text]
  simp only [List.length_append, List.length_cons]
  omega

inductive Segment
  | text (text : List Char)
  | image (alt url : List Char)
  deriving DecidableEq

def textSegment (text : List Char) : List Segment := if text = [] then [] else [.text text]

/-- A text as its images and what is between them. -/
def segments (text : List Char) : List Segment :=
  match _h : firstImage text with
  | none => textSegment text
  | some (before, i) => textSegment before ++ .image i.alt i.url :: segments i.rest
termination_by text.length
decreasing_by exact length_firstImage_lt _h

def Segment.part : Segment → Except String GeminiPart
  | .text text => .ok (textPart text)
  | .image _ url => imgPart decodeBase64ImageData shouldAttachThoughtSignature url

def partsOf : List Segment → Except String (List GeminiPart)
  | [] => .ok []
  | segment :: rest =>
    match segment.part decodeBase64ImageData shouldAttachThoughtSignature with
    | .error e => .error e
    | .ok part =>
      match partsOf rest with
      | .error e => .error e
      | .ok parts => .ok (part :: parts)

/-- **Nothing is lost**: where the text is converted, each image is a part and so is each text
around images. -/
def Kept (text : String) : Prop :=
  ∀ parts, textParts decodeBase64ImageData shouldAttachThoughtSignature text = .ok parts →
    partsOf decodeBase64ImageData shouldAttachThoughtSignature (segments text.toList) = .ok parts

/-- The images that the searches find, and the text behind the last one. -/
def found (text : List Char) : List Image × List Char :=
  match _h : nextImage text with
  | none => ([], text)
  | some (_, i) => (i :: (found i.rest).1, (found i.rest).2)
termination_by text.length
decreasing_by all_goals exact length_rest_lt _h

/-! ## The searches and the images -/

theorem opening_of_imageAt (h : (imageAt text).isSome = true) : opening <+: text := by
  obtain ⟨i, hi⟩ := Option.isSome_iff_exists.mp h
  rw [(imageAt_eq_some_iff.mp hi).1, Image.text_eq]
  exact List.prefix_append _ _

/-- The searches find an image if its text is plain. -/
theorem firstImage_of_plain (h : nextImage text = some (before, i)) (hplain : Plain i.alt) :
    firstImage text = some (before, i) := by
  obtain ⟨rfl, hdata, hfirst, -⟩ := nextImage_spec h
  refine firstSome_append (fun a c hac hc => ?_) (imageAt_eq_some_iff.mpr ⟨rfl, hdata, hplain⟩)
  by_contra hsome
  have hopening := opening_of_imageAt (Option.ne_none_iff_isSome.mp hsome)
  have hle := hfirst a (c ++ i.text) (by rw [hac, List.append_assoc]) hopening
  rw [hac, List.length_append] at hle
  exact hc (List.eq_nil_of_length_eq_zero (by omega))

/-- They find something that ends as an image does, with more in its text, where it is not. -/
theorem length_lt_of_not_plain {before' : List Char} {j : Image}
    (h : nextImage text = some (before, i)) (hplain : ¬ Plain i.alt)
    (h' : firstImage text = some (before', j)) : before.length < before'.length := by
  obtain ⟨htext, -, hfirst, hbracket⟩ := nextImage_spec h
  obtain ⟨htext', hdata', hplain'⟩ := firstImage_spec h'
  have hopening : opening <+: j.text := by
    rw [Image.text_eq]
    exact List.prefix_append _ _
  refine (hfirst before' j.text htext' hopening).lt_of_ne fun hlength => hplain ?_
  obtain ⟨-, heq⟩ := List.append_inj (htext.symm.trans htext') hlength
  have hle := hbracket j.alt (closing ++ (j.url ++ ')' :: j.rest))
    (by rw [heq, Image.text_eq, List.append_assoc]) (hdata'.dataBracket _)
  have heq' : j.alt ++ (closing ++ (j.url ++ ')' :: j.rest)) =
      i.alt ++ (closing ++ (i.url ++ ')' :: i.rest)) := by
    rw [Image.text_eq, Image.text_eq] at heq
    exact (List.append_cancel_left heq).symm
  have hge := length_le_of_closing hplain'.2 heq' (List.prefix_append _ _)
  obtain ⟨halt, -⟩ := List.append_inj heq' (by omega)
  rw [← halt]
  exact hplain'

/-- The later part of a text is the end of the earlier one. -/
theorem suffix_of_append_eq {a b a' b' : List Char} (h : a ++ b = a' ++ b')
    (hle : a.length ≤ a'.length) : b' <:+ b := by
  refine List.suffix_of_suffix_length_le (List.suffix_append a' b') ?_ ?_
  · rw [← h]
    exact List.suffix_append a b
  · have hlength := congrArg List.length h
    rw [List.length_append, List.length_append] at hlength
    omega

/-- Where they find nothing there is no image. -/
theorem firstImage_of_none (h : nextImage text = none) : firstImage text = none := by
  by_contra hsome
  obtain ⟨⟨before, i⟩, hi⟩ := Option.ne_none_iff_exists'.mp hsome
  obtain ⟨htext, hdata, -⟩ := firstImage_spec hi
  have hopening : opening <+: i.text := by
    rw [Image.text_eq]
    exact List.prefix_append _ _
  have hbrackets : closing ++ (i.url ++ ')' :: i.rest) <:+ i.text := by
    rw [Image.text_eq, ← List.append_assoc]
    exact List.suffix_append_of_suffix (List.suffix_append _ _)
  have hclosed : ')' ∈ closing ++ (i.url ++ ')' :: i.rest) :=
    List.mem_append_right _ (List.mem_append_right _ List.mem_cons_self)
  unfold nextImage at h
  split at h
  · rename_i hnone
    refine cutAt_eq_none_iff.mp hnone ?_
    rw [htext]
    exact hopening.isInfix.trans (List.suffix_append _ _).isInfix
  rename_i before' fromStart hstart
  obtain ⟨hsplit, -, hfirst⟩ := cutAt_eq_some_iff.mp hstart
  have hsuffix : i.text <:+ fromStart :=
    suffix_of_append_eq (hsplit.symm.trans htext) (hfirst before i.text htext hopening)
  split at h
  · rename_i hnone
    refine cutAt_eq_none_iff.mp hnone ?_
    exact (hdata.dataBracket _).isInfix.trans (hbrackets.trans hsuffix).isInfix
  rename_i shown fromBracket hbracket
  obtain ⟨hsplit', hdataBracket, hfirst'⟩ := cutAt_eq_some_iff.mp hbracket
  obtain ⟨c, hc⟩ := hbrackets.trans hsuffix
  have hsuffix' : closing ++ (i.url ++ ')' :: i.rest) <:+ fromBracket :=
    suffix_of_append_eq (hsplit'.symm.trans hc.symm) (hfirst' c _ hc.symm (hdata.dataBracket _))
  split at h
  · rename_i hnone
    refine cutAt_eq_none_iff.mp hnone ?_
    obtain ⟨d, rfl⟩ := eq_of_dataBracket hdataBracket
    rw [List.singleton_infix_iff]
    exact (List.mem_append.mp (hsuffix'.subset hclosed)).resolve_left (by decide)
  · cases h

/-! ## The loop, image by image -/

section Equations

variable {decodeBase64ImageData : String → Except String (String × String)}
  {shouldAttachThoughtSignature : Bool}

theorem markdownImages_of_none (h : nextImage text = none) :
    markdownImages decodeBase64ImageData shouldAttachThoughtSignature text = .ok ([], false) := by
  rw [markdownImages]
  split
  · rfl
  · rename_i heq
    rw [h] at heq
    cases heq

theorem markdownImages_of_some (h : nextImage text = some (before, i)) :
    markdownImages decodeBase64ImageData shouldAttachThoughtSignature text =
      match imgPart decodeBase64ImageData shouldAttachThoughtSignature i.url with
      | .error e => .error e
      | .ok part =>
        match markdownImages decodeBase64ImageData shouldAttachThoughtSignature i.rest with
        | .error e => .error e
        | .ok (parts, _) => .ok (textBefore before ++ part :: parts, true) := by
  rw [markdownImages]
  split
  · rename_i heq
    rw [h] at heq
    cases heq
  · rename_i heq
    rw [h] at heq
    cases heq
    rfl

end Equations

theorem found_of_none (h : nextImage text = none) : found text = ([], text) := by
  rw [found]
  split
  · rfl
  · rename_i heq
    rw [h] at heq
    cases heq

theorem found_of_some (h : nextImage text = some (before, i)) :
    found text = (i :: (found i.rest).1, (found i.rest).2) := by
  rw [found]
  split
  · rename_i heq
    rw [h] at heq
    cases heq
  · rename_i heq
    rw [h] at heq
    cases heq
    rfl

theorem segments_of_none (h : firstImage text = none) : segments text = textSegment text := by
  rw [segments]
  split
  · rfl
  · rename_i heq
    rw [h] at heq
    cases heq

theorem segments_of_some (h : firstImage text = some (before, i)) :
    segments text = textSegment before ++ .image i.alt i.url :: segments i.rest := by
  rw [segments]
  split
  · rename_i heq
    rw [h] at heq
    cases heq
  · rename_i heq
    rw [h] at heq
    cases heq
    rfl

/-- What the searches take for an image that is none begins a longer text. -/
theorem segments_of_not_plain (h : nextImage text = some (before, i)) (hplain : ¬ Plain i.alt) :
    ∃ t rest, segments text = .text t :: rest ∧ before.length < t.length := by
  have hsegment : ∀ t : List Char, before.length < t.length → textSegment t = [.text t] := by
    intro t ht
    refine if_neg ?_
    rintro rfl
    exact absurd ht (Nat.not_lt_zero _)
  cases h' : firstImage text with
  | none =>
    have hlength : before.length < text.length := by
      rw [(nextImage_spec h).1, Image.text]
      simp only [List.length_append, List.length_cons]
      omega
    exact ⟨text, [], (segments_of_none h').trans (hsegment text hlength), hlength⟩
  | some x =>
    obtain ⟨before', j⟩ := x
    have hlength := length_lt_of_not_plain h hplain h'
    refine ⟨before', .image j.alt j.url :: segments j.rest, ?_, hlength⟩
    rw [segments_of_some h', hsegment before' hlength]
    rfl

section Conversion

variable {decodeBase64ImageData : String → Except String (String × String)}
  {shouldAttachThoughtSignature : Bool} {parts : List GeminiPart} {part : GeminiPart}

theorem imgPart_inlineData {url : List Char}
    (h : imgPart decodeBase64ImageData shouldAttachThoughtSignature url = .ok part) :
    part.inlineData ≠ none := by
  unfold imgPart at h
  split at h
  · cases h
  · cases h
    exact nofun

theorem partsOf_textSegment (t : List Char) (rest : List Segment) :
    partsOf decodeBase64ImageData shouldAttachThoughtSignature (textSegment t ++ rest) =
      (partsOf decodeBase64ImageData shouldAttachThoughtSignature rest).map
        (textBefore t ++ ·) := by
  unfold textSegment textBefore
  by_cases ht : t = []
  · rw [if_pos ht, if_pos ht]
    cases hrest : partsOf decodeBase64ImageData shouldAttachThoughtSignature rest with
    | error e => exact hrest
    | ok parts => exact hrest
  · rw [if_neg ht, if_neg ht, List.singleton_append, partsOf]
    dsimp only [Segment.part]
    cases partsOf decodeBase64ImageData shouldAttachThoughtSignature rest with
    | error e => rfl
    | ok parts => rfl

/-- The parts of the loop are not those of a text whose first segment is longer. -/
theorem partsOf_ne_of_not_plain {rest : List Segment} {t : List Char}
    (hlength : before.length < t.length) (hpart : part.inlineData ≠ none) :
    partsOf decodeBase64ImageData shouldAttachThoughtSignature (.text t :: rest) ≠
      .ok (textBefore before ++ part :: parts) := by
  intro h
  rw [partsOf] at h
  dsimp only [Segment.part] at h
  split at h
  · cases h
  · have hparts := Except.ok.inj h
    by_cases hbefore : before = []
    · rw [textBefore, if_pos hbefore, List.nil_append, List.cons.injEq] at hparts
      rw [← hparts.1] at hpart
      exact hpart rfl
    · rw [textBefore, if_neg hbefore, List.singleton_append, List.cons.injEq] at hparts
      have htext := String.ofList_injective (congrArg GeminiPart.text hparts.1)
      rw [htext] at hlength
      exact absurd hlength (Nat.lt_irrefl _)

/-- **The loop** makes the parts of a text exactly if what it finds are images and nothing is
left behind them. -/
theorem markdownImages_kept (text : List Char) {parts : List GeminiPart} {has : Bool}
    (h : markdownImages decodeBase64ImageData shouldAttachThoughtSignature text = .ok (parts, has)) :
    has = !(found text).1.isEmpty ∧
      (partsOf decodeBase64ImageData shouldAttachThoughtSignature (segments text) = .ok parts ↔
        (∀ i ∈ (found text).1, Plain i.alt) ∧ (found text).2 = []) := by
  cases hnext : nextImage text with
  | none =>
    rw [markdownImages_of_none hnext] at h
    cases h
    rw [found_of_none hnext, segments_of_none (firstImage_of_none hnext)]
    refine ⟨rfl, ?_⟩
    unfold textSegment
    by_cases htext : text = []
    · rw [if_pos htext]
      exact iff_of_true rfl ⟨nofun, htext⟩
    · rw [if_neg htext]
      exact iff_of_false nofun fun h => htext h.2
  | some x =>
    obtain ⟨before, i⟩ := x
    rw [markdownImages_of_some hnext] at h
    cases hpart : imgPart decodeBase64ImageData shouldAttachThoughtSignature i.url with
    | error e =>
      rw [hpart] at h
      cases h
    | ok part =>
      rw [hpart] at h
      cases hrest : markdownImages decodeBase64ImageData shouldAttachThoughtSignature i.rest with
      | error e =>
        rw [hrest] at h
        cases h
      | ok out =>
        obtain ⟨rest, has'⟩ := out
        rw [hrest] at h
        cases h
        obtain ⟨-, hkept⟩ := markdownImages_kept i.rest hrest
        rw [found_of_some hnext]
        refine ⟨rfl, ?_⟩
        rw [List.forall_mem_cons, and_assoc]
        by_cases hplain : Plain i.alt
        · rw [and_iff_right hplain, ← hkept,
            segments_of_some (firstImage_of_plain hnext hplain), partsOf_textSegment, partsOf,
            Segment.part, hpart]
          dsimp only
          cases hparts : partsOf decodeBase64ImageData shouldAttachThoughtSignature
              (segments i.rest) with
          | error e => exact iff_of_false nofun nofun
          | ok parts =>
            show Except.ok (textBefore before ++ part :: parts) = _ ↔ _
            rw [Except.ok.injEq, Except.ok.injEq, List.append_cancel_left_eq, List.cons.injEq]
            exact and_iff_right rfl
        · obtain ⟨t, rest', hsegments, hlength⟩ := segments_of_not_plain hnext hplain
          rw [hsegments]
          exact iff_of_false (partsOf_ne_of_not_plain hlength (imgPart_inlineData hpart))
            fun h => hplain h.1
termination_by text.length
decreasing_by exact length_rest_lt hnext

/-- The loop stops with an error exactly at an image that it cannot decode. -/
theorem markdownImages_error (text : List Char) :
    (∃ e, markdownImages decodeBase64ImageData shouldAttachThoughtSignature text = .error e) ↔
      ∃ i ∈ (found text).1,
        ∃ e, decodeBase64FileData decodeBase64ImageData (String.ofList i.url) = .error e := by
  cases hnext : nextImage text with
  | none =>
    rw [markdownImages_of_none hnext, found_of_none hnext]
    exact iff_of_false nofun nofun
  | some x =>
    obtain ⟨before, i⟩ := x
    rw [markdownImages_of_some hnext, found_of_some hnext, List.exists_mem_cons_iff,
      ← markdownImages_error i.rest]
    unfold imgPart
    cases decodeBase64FileData decodeBase64ImageData (String.ofList i.url) with
    | error e => exact iff_of_true ⟨_, rfl⟩ (.inl ⟨e, rfl⟩)
    | ok image =>
      dsimp only
      cases markdownImages decodeBase64ImageData shouldAttachThoughtSignature i.rest with
      | error e => exact iff_of_true ⟨e, rfl⟩ (.inr ⟨e, rfl⟩)
      | ok out => exact iff_of_false nofun (by rintro (⟨e, h⟩ | ⟨e, h⟩) <;> cases h)
termination_by text.length
decreasing_by exact length_rest_lt hnext

end Conversion

/-- **Images in a text**: where every image can be decoded, nothing is lost exactly if what the
searches find are images, and the text ends with the last of them if there is one. -/
theorem images_kept_iff (text : String) :
    Kept decodeBase64ImageData shouldAttachThoughtSignature text ↔
      (∃ i ∈ (found text.toList).1,
        ∃ e, decodeBase64FileData decodeBase64ImageData (String.ofList i.url) = .error e) ∨
      (∀ i ∈ (found text.toList).1, Plain i.alt) ∧
        ((found text.toList).1 = [] ∨ (found text.toList).2 = []) := by
  have herror := @markdownImages_error decodeBase64ImageData shouldAttachThoughtSignature text.toList
  rw [← herror]
  unfold Kept textParts
  by_cases htext : text = ""
  · have hnone : nextImage text.toList = none := by
      rw [htext]
      rfl
    rw [found_of_none hnone, segments_of_none (firstImage_of_none hnone), if_pos htext, htext]
    refine iff_of_true (fun parts hparts => hparts) (.inr ⟨nofun, .inl rfl⟩)
  rw [if_neg htext]
  cases hloop : markdownImages decodeBase64ImageData shouldAttachThoughtSignature text.toList with
  | error e => exact iff_of_true nofun (.inl ⟨e, rfl⟩)
  | ok out =>
    obtain ⟨parts, has⟩ := out
    obtain ⟨rfl, hkept⟩ := markdownImages_kept text.toList hloop
    have hno : ¬ ∃ e, (Except.ok (parts, !(found text.toList).1.isEmpty) :
        Except String (List GeminiPart × Bool)) = .error e := nofun
    rw [or_iff_right hno]
    cases hnext : nextImage text.toList with
    | none =>
      have hne : text.toList ≠ [] := by simpa using htext
      rw [found_of_none hnext, segments_of_none (firstImage_of_none hnext)]
      refine iff_of_true (fun parts' hparts => ?_) ⟨nofun, .inl rfl⟩
      rw [textSegment, if_neg hne]
      exact hparts
    | some x =>
      obtain ⟨before, i⟩ := x
      rw [found_of_some hnext] at hkept ⊢
      constructor
      · intro h
        obtain ⟨hplain, hrest⟩ := hkept.mp (h parts rfl)
        exact ⟨hplain, .inr hrest⟩
      · rintro ⟨hplain, hrest⟩ parts' hparts
        rw [← Except.ok.inj hparts]
        exact hkept.mpr ⟨hplain, hrest.resolve_left nofun⟩

end Parts

def pngUrl : String := "data:image/png;base64,AAAA"

def pngPart : GeminiPart := ⟨"", some ⟨"image/png", "AAAA"⟩, ""⟩

def noImage : String → Except String (String × String) := fun _ => .error "unknown format"

/-- The caption behind an image is lost, and so is an image of another kind before one. -/
theorem caption_is_lost :
    ¬ Kept noImage false ("![i](" ++ pngUrl ++ ") caption") ∧
      ¬ Kept noImage false ("![a](https://a.b/c.png)![i](" ++ pngUrl ++ ")") := by
  have hpart : imgPart noImage false pngUrl.toList = .ok pngPart := by decide
  constructor
  · have hnext : nextImage ("![i](" ++ pngUrl ++ ") caption").toList =
        some ([], ⟨['i'], pngUrl.toList, " caption".toList⟩) := by decide
    have hfirst : firstImage ("![i](" ++ pngUrl ++ ") caption").toList =
        some ([], ⟨['i'], pngUrl.toList, " caption".toList⟩) := by decide
    have hrest : nextImage " caption".toList = none := by decide
    intro h
    have hparts := h [pngPart] (by
      rw [textParts, if_neg (by decide), markdownImages_of_some hnext, hpart,
        markdownImages_of_none hrest]
      rfl)
    rw [segments_of_some hfirst, segments_of_none (firstImage_of_none hrest)] at hparts
    exact absurd hparts (by decide)
  · have hnext : nextImage ("![a](https://a.b/c.png)![i](" ++ pngUrl ++ ")").toList =
        some ([], ⟨"a](https://a.b/c.png)![i".toList, pngUrl.toList, []⟩) := by decide
    have hfirst : firstImage ("![a](https://a.b/c.png)![i](" ++ pngUrl ++ ")").toList =
        some ("![a](https://a.b/c.png)".toList, ⟨['i'], pngUrl.toList, []⟩) := by decide
    have hrest : nextImage [] = none := rfl
    intro h
    have hparts := h [pngPart] (by
      rw [textParts, if_neg (by decide), markdownImages_of_some hnext, hpart,
        markdownImages_of_none hrest]
      rfl)
    rw [segments_of_some hfirst, segments_of_none (firstImage_of_none hrest)] at hparts
    exact absurd hparts (by decide)

end Convert.MarkdownImages
