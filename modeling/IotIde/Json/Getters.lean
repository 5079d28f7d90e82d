import IotIde.Foundation.JsonScans
import IotIde.Json.Lookup

/-!
# What the getters read

On a JSON text every getter of `json_utils.c` is determined by one value: that of the
first member, in document order and at any depth, that the key search takes for the
key (`Json.Lookup`).  Here the value is cut out and copied.

* `jsonFindCompoundEndLoop_depthScan` — the bracket counter passes any parse tree with its
  depth unchanged, though it counts only one kind of bracket;
* `jsonGetRawValue_found` and its companions — each getter, at a value, copies exactly
  that value;
* `jsonGetString_doc`, `jsonGetRawValue_doc`, `jsonGetObject_doc`, `jsonGetArray_doc` — the
  four getters on a whole text;
* `firstNamed_of_top` — when that value is the one the object itself has under the key.
-/

namespace IotIde

open CText JsonText

/-! ## Passing a tree with the bracket counter -/

/-- The two kinds of bracket the counter is called with. -/
def IsPair (o c : UInt8) : Prop := (o = lbrace ∧ c = rbrace) ∨ (o = lbracket ∧ c = rbracket)

section Compound

variable {o c : UInt8}

/-- A byte that is neither a quote nor a bracket of the counted kind. -/
theorem jsonFindCompoundEndLoop_cons (d : ℤ) {b : UInt8} (hq : b ≠ quote) (ho : b ≠ o)
    (hc : b ≠ c) (rest : Bytes) :
    jsonFindCompoundEndLoop o c d false false (b :: rest) =
      jsonFindCompoundEndLoop o c d false false rest := by
  rw [jsonFindCompoundEndLoop]
  simp only [Bool.false_eq_true, if_false, hq, ho, hc]

/-- Inside a string nothing is counted. -/
theorem jsonFindCompoundEndLoop_strings (d : ℤ) :
    StringScan (jsonFindCompoundEndLoop o c d false false)
      (jsonFindCompoundEndLoop o c d true) where
  opening rest := by
    rw [jsonFindCompoundEndLoop]
    simp only [Bool.false_eq_true, if_false, if_true]
  closing rest := by
    have hne : quote ≠ backslash := by decide
    rw [jsonFindCompoundEndLoop]
    simp only [if_true, Bool.false_eq_true, if_false, hne]
  backslash rest := by
    rw [jsonFindCompoundEndLoop]
    simp only [if_true, Bool.false_eq_true, if_false]
  escaped b rest := by
    rw [jsonFindCompoundEndLoop]
    simp only [if_true]
  plain b rest hq hb := by
    rw [jsonFindCompoundEndLoop]
    simp only [if_true, Bool.false_eq_true, if_false, hq, hb]

variable (hp : IsPair o c)
include hp

/-- Commas and colons are not counted. -/
theorem IsPair.separator {b : UInt8} (hb : b = comma ∨ b = colon) :
    b ≠ quote ∧ b ≠ o ∧ b ≠ c := by
  rcases hp with ⟨rfl, rfl⟩ | ⟨rfl, rfl⟩ <;> rcases hb with rfl | rfl <;> decide

/-- Brackets of the other kind are not counted. -/
theorem IsPair.other {a b : UInt8} (hab : IsPair a b) (h : a ≠ o) :
    (a ≠ quote ∧ a ≠ o ∧ a ≠ c) ∧ b ≠ quote ∧ b ≠ o ∧ b ≠ c := by
  rcases hp with ⟨rfl, rfl⟩ | ⟨rfl, rfl⟩ <;> rcases hab with ⟨rfl, rfl⟩ | ⟨rfl, rfl⟩ <;>
    first | exact absurd rfl h | decide

/-- An opening and a closing bracket of either kind, around contents that are passed:
the counted kind raises the depth and lowers it again, the other kind is not seen. -/
theorem jsonFindCompoundEndLoop_brackets {a b : UInt8} (hab : IsPair a b) {d : ℤ} (hd : 1 ≤ d)
    {body : Bytes} (hbody : ∀ d', 1 ≤ d' → ∀ rest,
      jsonFindCompoundEndLoop o c d' false false (body ++ rest) =
        jsonFindCompoundEndLoop o c d' false false rest) (rest : Bytes) :
    jsonFindCompoundEndLoop o c d false false (a :: (body ++ b :: rest)) =
      jsonFindCompoundEndLoop o c d false false rest := by
  by_cases hsame : a = o
  · obtain ⟨hb, hq, hoc, hcq⟩ : b = c ∧ o ≠ quote ∧ c ≠ o ∧ c ≠ quote := by
      rcases hp with ⟨rfl, rfl⟩ | ⟨rfl, rfl⟩ <;> rcases hab with ⟨rfl, rfl⟩ | ⟨rfl, rfl⟩ <;>
        first | exact absurd hsame (by decide) | decide
    subst hsame hb
    rw [jsonFindCompoundEndLoop]
    simp only [Bool.false_eq_true, if_false, hq, if_true]
    rw [hbody (d + 1) (by omega), jsonFindCompoundEndLoop]
    simp only [Bool.false_eq_true, if_false, hcq, hoc, if_true]
    rw [if_neg (by omega), Int.add_sub_cancel]
  · obtain ⟨⟨haq, hao, hac⟩, hbq, hbo, hbc⟩ := hp.other hab hsame
    rw [jsonFindCompoundEndLoop_cons d haq hao hac, hbody d hd,
      jsonFindCompoundEndLoop_cons d hbq hbo hbc]

/-- Bytes of scalars and white space are not counted. -/
theorem IsPair.plain {b : UInt8} (hb : isScalarByte b = true ∨ isJsonWs b = true) :
    b ≠ quote ∧ b ≠ o ∧ b ≠ c := by
  rcases hp with ⟨rfl, rfl⟩ | ⟨rfl, rfl⟩
  · exact ⟨ne_of_plain hb (by decide), ne_of_plain hb (by decide), ne_of_plain hb (by decide)⟩
  · exact ⟨ne_of_plain hb (by decide), ne_of_plain hb (by decide), ne_of_plain hb (by decide)⟩

/-- Between the brackets that are counted, the counter passes whatever stands there. -/
theorem jsonFindCompoundEndLoop_depthScan :
    DepthScan 1 (fun d => jsonFindCompoundEndLoop o c d false false) where
  floor_le := le_rfl
  string d _ := (jsonFindCompoundEndLoop_strings d).strLit
  plain d _ b hb rest := by
    obtain ⟨hq, ho, hc⟩ := hp.plain hb
    exact jsonFindCompoundEndLoop_cons d hq ho hc rest
  separator d _ b hb rest := by
    obtain ⟨hq, ho, hc⟩ := hp.separator hb
    exact jsonFindCompoundEndLoop_cons d hq ho hc rest
  brackets d hd a b hab body hbody rest := jsonFindCompoundEndLoop_brackets hp hab hd hbody rest

/-- From an opening bracket the counter stops at the bracket that closes it. -/
theorem jsonFindCompoundEnd_brackets {body : Bytes} (hbody : ∀ d, 1 ≤ d → ∀ rest,
      jsonFindCompoundEndLoop o c d false false (body ++ rest) =
        jsonFindCompoundEndLoop o c d false false rest) (rest : Bytes) :
    jsonFindCompoundEnd (o :: (body ++ c :: rest)) o c = some (c :: rest) := by
  obtain ⟨hq, hco, hcq⟩ : o ≠ quote ∧ c ≠ o ∧ c ≠ quote := by
    rcases hp with ⟨rfl, rfl⟩ | ⟨rfl, rfl⟩ <;> decide
  rw [jsonFindCompoundEnd, jsonFindCompoundEndLoop]
  simp only [Bool.false_eq_true, if_false, hq, if_true]
  rw [hbody _ (by omega), jsonFindCompoundEndLoop]
  simp only [Bool.false_eq_true, if_false, hcq, hco, if_true]
  rw [if_pos (by omega)]

end Compound

/-! ## Copying a value -/

/-- A value ends with a byte that is not white space. -/
theorem exists_text_eq_concat (v : Doc .value) :
    ∃ bs b, v.text = bs ++ [b] ∧ isSpace b = false := by
  cases v with
  | scalar s =>
    refine ⟨s.text.dropLast, s.text.getLast s.ne_nil, (List.dropLast_append_getLast s.ne_nil).symm, ?_⟩
    have h := List.all_eq_true.1 s.ok _ (List.getLast_mem s.ne_nil)
    simp only [isScalarByte, Bool.and_eq_true, Bool.not_eq_true'] at h
    simp [h]
  | string s => exact ⟨quote :: s.raw, quote, by simp [Doc.text, StrLit.text], by decide⟩
  | emptyArray w => exact ⟨lbracket :: w.text, rbracket, by simp [Doc.text], by decide⟩
  | array es => exact ⟨lbracket :: es.text, rbracket, by simp [Doc.text], by decide⟩
  | emptyObject w => exact ⟨lbrace :: w.text, rbrace, by simp [Doc.text], by decide⟩
  | object ms => exact ⟨lbrace :: ms.text, rbrace, by simp [Doc.text], by decide⟩

/-- Trimming takes the white space behind a value and nothing of the value. -/
theorem trim_value (v : Doc .value) {ws : Bytes} (hws : ∀ b ∈ ws, isSpace b = true) :
    trim (v.text ++ ws) = v.text := by
  obtain ⟨bs, b, hlast, hb⟩ := exists_text_eq_concat v
  have hfront : (v.text ++ ws).dropWhile isSpace = v.text ++ ws := jsonSkipWs_value v ws
  have hback : (v.text ++ ws).reverse.dropWhile isSpace = v.text.reverse := by
    rw [List.reverse_append, List.dropWhile_append_of_pos
      (fun x hx => hws x (List.mem_reverse.1 hx)), hlast, List.reverse_append]
    simp [hb]
  rw [trim, hfront, List.rdropWhile, hback, List.reverse_reverse]

/-- What a buffer holds after `json_copy_trimmed` was asked for `text`: the text if it
fits, and otherwise what it held before. -/
def copiedWhole (text out : Bytes) : Extract :=
  if text.length < out.length then ⟨0, store out 0 (text ++ [0])⟩ else ⟨-1, out⟩

theorem jsonCopyTrimmed_value (v : Doc .value) {ws : Bytes} (hws : ∀ b ∈ ws, isSpace b = true)
    (stop : Bytes) {out : Bytes} (hout : out ≠ []) :
    jsonCopyTrimmed (v.text ++ (ws ++ stop)) stop out = copiedWhole v.text out := by
  have hpos : 0 < out.length := List.length_pos_iff.2 hout
  have hlen : ¬ (out.length = 0 ∨ (v.text ++ (ws ++ stop)).length < stop.length) := by
    simp only [List.length_append]
    omega
  rw [jsonCopyTrimmed, if_neg hlen, ← List.append_assoc, between_append]
  simp only [trim_value v hws, copiedWhole]
  by_cases h : v.text.length < out.length
  · rw [if_neg (by omega), if_pos h]
  · rw [if_pos (by omega), if_neg h]

theorem jsonGetCompoundAt_brackets {o c : UInt8} (hp : IsPair o c) {v : Doc .value} {body : Bytes}
    (hv : v.text = o :: (body ++ [c])) (hbody : ∀ d, 1 ≤ d → ∀ rest,
      jsonFindCompoundEndLoop o c d false false (body ++ rest) =
        jsonFindCompoundEndLoop o c d false false rest) (rest : Bytes) {out : Bytes}
    (hout : out ≠ []) :
    jsonGetCompoundAt o c (v.text ++ rest) out = copiedWhole v.text out := by
  have hcursor : v.text ++ rest = o :: (body ++ c :: rest) := by rw [hv]; simp
  have hend : jsonFindCompoundEnd (v.text ++ rest) o c = some (c :: rest) := by
    rw [hcursor, jsonFindCompoundEnd_brackets hp hbody]
  rw [jsonGetCompoundAt, hend]
  have hws : ∀ b ∈ ([] : Bytes), isSpace b = true := by simp
  exact jsonCopyTrimmed_value v hws rest hout

/-! ## The getters at a value -/

/-- `json_get_string`, by the value it stops at: only strings are read. -/
def readString (found : Option (Doc .value)) (out : Bytes) : Extract :=
  match found with
  | some (.string s) => copied (decode s.raw) out
  | _ => ⟨-1, out⟩

/-- `json_get_raw_value`, by the value it stops at. -/
def readRawValue (found : Option (Doc .value)) (out : Bytes) : Extract :=
  match found with
  | none => ⟨-1, out⟩
  | some (.string s) => copied (decode s.raw) out
  | some v => copiedWhole v.text out

theorem readRawValue_of_not_string {v : Doc .value} (h : ∀ t, v ≠ .string t) (out : Bytes) :
    readRawValue (some v) out = copiedWhole v.text out := by
  cases v with
  | string s => exact absurd rfl (h s)
  | _ => rfl

def isObject : Doc .value → Bool
  | .emptyObject _ => true
  | .object _ => true
  | _ => false

def isArray : Doc .value → Bool
  | .emptyArray _ => true
  | .array _ => true
  | _ => false

/-- `json_get_object` and `json_get_array`, by the value they stop at. -/
def readCompound (kind : Doc .value → Bool) (found : Option (Doc .value)) (out : Bytes) :
    Extract :=
  match found with
  | none => ⟨-1, out⟩
  | some v => if kind v then copiedWhole v.text out else ⟨-1, out⟩

/-- The first byte of a value tells what kind of value it is. -/
theorem head?_text (v : Doc .value) (rest : Bytes) :
    ((v.text ++ rest).head? = some quote ↔ ∃ s, v = .string s) ∧
    ((v.text ++ rest).head? = some lbrace ↔ isObject v = true) ∧
    ((v.text ++ rest).head? = some lbracket ↔ isArray v = true) := by
  have ne₁ : quote ≠ lbrace := by decide
  have ne₂ : quote ≠ lbracket := by decide
  have ne₃ : lbrace ≠ lbracket := by decide
  cases v with
  | scalar s =>
    obtain ⟨b, bs, hb⟩ := List.exists_cons_of_ne_nil s.ne_nil
    have hs := List.all_eq_true.1 s.ok b (by rw [hb]; simp)
    have hne : b ≠ quote ∧ b ≠ lbrace ∧ b ≠ lbracket := by
      refine ⟨?_, ?_, ?_⟩ <;> rintro rfl <;> exact absurd hs (by decide)
    simp [Doc.text, hb, hne, isObject, isArray]
  | string s => simp [Doc.text, StrLit.text, isObject, isArray, ne₁, ne₂]
  | emptyArray w => simp [Doc.text, isObject, isArray, ne₂.symm, ne₃.symm]
  | array es => simp [Doc.text, isObject, isArray, ne₂.symm, ne₃.symm]
  | emptyObject w => simp [Doc.text, isObject, isArray, ne₁.symm, ne₃]
  | object ms => simp [Doc.text, isObject, isArray, ne₁.symm, ne₃]

/-- Cutting out an object. -/
theorem jsonGetCompoundAt_object {v : Doc .value} (hv : isObject v = true) (rest : Bytes)
    {out : Bytes} (hout : out ≠ []) :
    jsonGetCompoundAt lbrace rbrace (v.text ++ rest) out = copiedWhole v.text out := by
  have hp : IsPair lbrace rbrace := Or.inl ⟨rfl, rfl⟩
  cases v with
  | emptyObject w =>
    exact jsonGetCompoundAt_brackets hp rfl
      (fun _ hd r => (jsonFindCompoundEndLoop_depthScan hp).ws hd w r) rest hout
  | object ms =>
    exact jsonGetCompoundAt_brackets hp rfl
      (fun _ hd r => (jsonFindCompoundEndLoop_depthScan hp).inside ms hd r) rest hout
  | _ => cases hv

/-- Cutting out an array. -/
theorem jsonGetCompoundAt_array {v : Doc .value} (hv : isArray v = true) (rest : Bytes)
    {out : Bytes} (hout : out ≠ []) :
    jsonGetCompoundAt lbracket rbracket (v.text ++ rest) out = copiedWhole v.text out := by
  have hp : IsPair lbracket rbracket := Or.inr ⟨rfl, rfl⟩
  cases v with
  | emptyArray w =>
    exact jsonGetCompoundAt_brackets hp rfl
      (fun _ hd r => (jsonFindCompoundEndLoop_depthScan hp).ws hd w r) rest hout
  | array es =>
    exact jsonGetCompoundAt_brackets hp rfl
      (fun _ hd r => (jsonFindCompoundEndLoop_depthScan hp).inside es hd r) rest hout
  | _ => cases hv

/-- Cutting out a number, `true`, `false` or `null`, with nothing behind it or a byte that
ends it. -/
theorem jsonCopyTrimmed_scalar (s : Scalar) {tail : Bytes} (htail : tail = [] ∨ Ended tail)
    {out : Bytes} (hout : out ≠ []) :
    jsonCopyTrimmed (s.text ++ tail) ((s.text ++ tail).dropWhile fun b => !endsScalar b) out =
      copiedWhole s.text out := by
  have hscalar : ∀ b ∈ s.text, (!endsScalar b) = true := by
    intro b hb
    have h := List.all_eq_true.1 s.ok b hb
    cases he : endsScalar b with
    | false => rfl
    | true =>
      rcases endsScalar_cases he with rfl | rfl | rfl <;> exact absurd h (by decide)
  rcases htail with rfl | ⟨w, c, u, rfl, hc⟩
  · have hstop : (s.text ++ []).dropWhile (fun b => !endsScalar b) = [] := by
      rw [List.append_nil]
      exact List.dropWhile_eq_nil_iff.2 hscalar
    rw [hstop]
    have hempty : ∀ b ∈ ([] : Bytes), isSpace b = true := fun b hb => absurd hb (by simp)
    exact jsonCopyTrimmed_value (.scalar s) hempty [] hout
  · have hstop : (s.text ++ (w.text ++ c :: u)).dropWhile (fun b => !endsScalar b) = c :: u := by
      rw [List.dropWhile_append_of_pos hscalar, List.dropWhile_append_of_pos,
        List.dropWhile_cons_of_neg (by simp [hc])]
      intro b hb
      have h := List.all_eq_true.1 w.ok b hb
      simp only [isJsonWs, Bool.or_eq_true, beq_iff_eq] at h
      rcases h with ((rfl | rfl) | rfl) | rfl <;> decide
    rw [hstop]
    exact jsonCopyTrimmed_value (.scalar s)
      (fun b hb => isSpace_of_isJsonWs (List.all_eq_true.1 w.ok b hb)) (c :: u) hout

section Found

variable {json key tail : Bytes} {u : Doc .value}
  (hfind : jsonFindAfterKey json key = some (u.text ++ tail)) {out : Bytes} (hout : out ≠ [])
include hfind hout

/-- `json_get_string`, where the search stops at a value. -/
theorem jsonGetString_found : jsonGetString json key out = readString (some u) out := by
  obtain ⟨hstr, -, -⟩ := head?_text u tail
  rw [jsonGetString, hfind]
  by_cases hu : ∃ s, u = .string s
  · obtain ⟨s, rfl⟩ := hu
    simp only [if_pos (hstr.2 ⟨s, rfl⟩)]
    exact jsonGetStringAt_text s tail hout
  · simp only [if_neg (mt hstr.1 hu)]
    cases u with
    | string s => exact absurd ⟨s, rfl⟩ hu
    | _ => rfl

/-- `json_get_raw_value`, where the search stops at a value. -/
theorem jsonGetRawValue_found (htail : tail = [] ∨ Ended tail) :
    jsonGetRawValue json key out = readRawValue (some u) out := by
  obtain ⟨hstr, hobj, harr⟩ := head?_text u tail
  rw [jsonGetRawValue, hfind]
  cases u with
  | scalar s =>
    simp only [if_neg (mt hstr.1 (by simp)), if_neg (mt hobj.1 (by simp [isObject])),
      if_neg (mt harr.1 (by simp [isArray]))]
    exact jsonCopyTrimmed_scalar s htail hout
  | string s =>
    simp only [if_pos (hstr.2 ⟨s, rfl⟩)]
    exact jsonGetStringAt_text s tail hout
  | emptyArray a =>
    simp only [if_neg (mt hstr.1 (by simp)), if_neg (mt hobj.1 (by simp [isObject])),
      if_pos (harr.2 rfl)]
    exact jsonGetCompoundAt_array rfl tail hout
  | array es =>
    simp only [if_neg (mt hstr.1 (by simp)), if_neg (mt hobj.1 (by simp [isObject])),
      if_pos (harr.2 rfl)]
    exact jsonGetCompoundAt_array rfl tail hout
  | emptyObject a =>
    simp only [if_neg (mt hstr.1 (by simp)), if_pos (hobj.2 rfl)]
    exact jsonGetCompoundAt_object rfl tail hout
  | object ms =>
    simp only [if_neg (mt hstr.1 (by simp)), if_pos (hobj.2 rfl)]
    exact jsonGetCompoundAt_object rfl tail hout

end Found

section Located

variable {json key : Bytes} {found : Option (Doc .value)} (h : Located json key found)
  {out : Bytes} (hout : out ≠ [])
include h hout

theorem jsonGetString_located : jsonGetString json key out = readString found out := by
  cases found with
  | none =>
    rw [jsonGetString, show jsonFindAfterKey json key = none from h]
    rfl
  | some u =>
    obtain ⟨tail, hfind, -⟩ := h
    exact jsonGetString_found hfind hout

theorem jsonGetRawValue_located : jsonGetRawValue json key out = readRawValue found out := by
  cases found with
  | none =>
    rw [jsonGetRawValue, show jsonFindAfterKey json key = none from h]
    rfl
  | some u =>
    obtain ⟨tail, hfind, htail⟩ := h
    exact jsonGetRawValue_found hfind hout (Or.inr htail)

theorem jsonGetObject_located : jsonGetObject json key out = readCompound isObject found out := by
  unfold jsonGetObject readCompound
  cases found with
  | none => rw [show jsonFindAfterKey json key = none from h]
  | some u =>
    obtain ⟨tail, hfind, -⟩ := h
    rw [hfind]
    obtain ⟨-, hobj, -⟩ := head?_text u tail
    by_cases hu : isObject u = true
    · simp only [if_pos (hobj.2 hu), if_pos hu]
      exact jsonGetCompoundAt_object hu tail hout
    · simp only [if_neg (mt hobj.1 hu), if_neg hu]

theorem jsonGetArray_located : jsonGetArray json key out = readCompound isArray found out := by
  unfold jsonGetArray readCompound
  cases found with
  | none => rw [show jsonFindAfterKey json key = none from h]
  | some u =>
    obtain ⟨tail, hfind, -⟩ := h
    rw [hfind]
    obtain ⟨-, -, harr⟩ := head?_text u tail
    by_cases hu : isArray u = true
    · simp only [if_pos (harr.2 hu), if_pos hu]
      exact jsonGetCompoundAt_array hu tail hout
    · simp only [if_neg (mt harr.1 hu), if_neg hu]

end Located

/-- White space in front of a text does not matter to the search. -/
theorem Located.of_ws {key json : Bytes} (hk : PatternKey key) {found : Option (Doc .value)}
    (h : Located json key found) (w₀ : Ws) : Located (w₀.text ++ json) key found := by
  unfold Located
  rwa [jsonFindAfterKey_append hk (quote_notMem_ws w₀)]

section Doc

variable {key : Bytes} (hk : SearchKey key) (w₀ : Ws) (v : Doc .value) (w : Ws) {out : Bytes}
  (hout : out ≠ [])
include hk

/-- The search on a text with white space around the value. -/
theorem jsonFindAfterKey_text :
    Located (w₀.text ++ (v.text ++ w.text)) key (firstNamed key v.allMembers) :=
  (jsonFindAfterKey_doc hk v w).of_ws hk.toPatternKey w₀

include hout

theorem jsonGetString_doc : jsonGetString (w₀.text ++ (v.text ++ w.text)) key out =
    readString (firstNamed key v.allMembers) out :=
  jsonGetString_located (jsonFindAfterKey_text hk w₀ v w) hout

theorem jsonGetRawValue_doc : jsonGetRawValue (w₀.text ++ (v.text ++ w.text)) key out =
    readRawValue (firstNamed key v.allMembers) out :=
  jsonGetRawValue_located (jsonFindAfterKey_text hk w₀ v w) hout

theorem jsonGetObject_doc : jsonGetObject (w₀.text ++ (v.text ++ w.text)) key out =
    readCompound isObject (firstNamed key v.allMembers) out :=
  jsonGetObject_located (jsonFindAfterKey_text hk w₀ v w) hout

theorem jsonGetArray_doc : jsonGetArray (w₀.text ++ (v.text ++ w.text)) key out =
    readCompound isArray (firstNamed key v.allMembers) out :=
  jsonGetArray_located (jsonFindAfterKey_text hk w₀ v w) hout

end Doc

/-! ## What any text leaves in the buffer -/

/-- The result leaves the array its size and a terminator. -/
structure Extract.Terminated (r : Extract) (size : ℕ) : Prop where
  size : r.out.length = size
  nul : 0 ∈ r.out

theorem Extract.Terminated.cstr_length_lt {r : Extract} {size : ℕ} (h : r.Terminated size) :
    (cstr r.out).length < size := by
  have := CText.cstr_length_lt h.nul
  rwa [h.size] at this

/-- An array whose last byte is zero holds a string, however far it is overwritten
before that byte. -/
theorem copied_terminated (text : Bytes) {out : Bytes} (hlast : out.getLast? = some 0) :
    (copied text out).Terminated out.length := by
  obtain ⟨init, rfl⟩ := List.getLast?_eq_some_iff.1 hlast
  unfold copied
  split
  · rename_i hlt
    refine ⟨store_length ?_, by simp [store]⟩
    simp only [List.length_append, List.length_singleton] at hlt ⊢
    omega
  · rename_i hge
    simp only [List.length_append, List.length_singleton] at hge ⊢
    have hlen : (text.take (init.length + 1 - 1)).length = init.length := by
      rw [List.length_take]
      omega
    refine ⟨?_, ?_⟩
    · rw [store_length]
      · simp
      · simp only [hlen, List.length_append, List.length_singleton]
        omega
    · have hdrop : (init ++ [0]).drop (0 + init.length) = [0] := by simp
      simp only [store, hlen, hdrop]
      simp

theorem unchanged_terminated {out : Bytes} (hlast : out.getLast? = some 0) (rc : ℤ) :
    Extract.Terminated ⟨rc, out⟩ out.length :=
  ⟨rfl, List.mem_of_getLast? hlast⟩

theorem jsonGetStringAt_terminated (cursor : Bytes) {out : Bytes}
    (hlast : out.getLast? = some 0) : (jsonGetStringAt cursor out).Terminated out.length := by
  have hpos : 0 < out.length := List.length_pos_of_mem (List.mem_of_getLast? hlast)
  unfold jsonGetStringAt
  split
  · exact unchanged_terminated hlast _
  · rename_i stop _
    unfold jsonCopyStringValue
    split
    · exact unchanged_terminated hlast _
    · rw [jsonCopyStringValueLoop_eq _ _ _ hpos]
      have h := copied_terminated (decode (between cursor.tail stop)) hlast
      unfold copied at h
      simpa only [zero_add, Nat.sub_zero] using h

/-- `json_get_string` leaves the array a C string, whatever it was given. -/
theorem jsonGetString_terminated (json key : Bytes) {out : Bytes}
    (hlast : out.getLast? = some 0) : (jsonGetString json key out).Terminated out.length := by
  unfold jsonGetString
  split
  · exact unchanged_terminated hlast _
  · split
    · exact jsonGetStringAt_terminated _ hlast
    · exact unchanged_terminated hlast _

/-- A field of a request: `json_get_string` into `char field[size]` that starts as
`initial`, with its return code ignored. -/
def readField (key : Bytes) (size : ℕ) (initial params : Bytes) : Bytes :=
  cstr (jsonGetString params key (initBuffer size initial)).out

theorem nul_notMem_readField (key : Bytes) (size : ℕ) (initial params : Bytes) :
    0 ∉ readField key size initial params :=
  nul_notMem_cstr _

theorem readField_length_lt {key : Bytes} {size : ℕ} {initial : Bytes} (h : initial.length < size)
    (params : Bytes) : (readField key size initial params).length < size := by
  have hterm := jsonGetString_terminated params key (initBuffer_getLast? h)
  rw [initBuffer_length h.le] at hterm
  exact hterm.cstr_length_lt

theorem jsonCopyTrimmed_terminated (start stop : Bytes) {out : Bytes}
    (hlast : out.getLast? = some 0) : (jsonCopyTrimmed start stop out).Terminated out.length := by
  unfold jsonCopyTrimmed
  split
  · exact unchanged_terminated hlast _
  · dsimp only
    split
    · exact unchanged_terminated hlast _
    · refine ⟨store_length ?_, by simp [store]⟩
      simp only [List.length_append, List.length_singleton]
      omega

theorem jsonGetCompoundAt_terminated (openChar closeChar : UInt8) (cursor : Bytes) {out : Bytes}
    (hlast : out.getLast? = some 0) :
    (jsonGetCompoundAt openChar closeChar cursor out).Terminated out.length := by
  unfold jsonGetCompoundAt
  split
  · exact unchanged_terminated hlast _
  · exact jsonCopyTrimmed_terminated _ _ hlast

theorem jsonGetObject_terminated (json key : Bytes) {out : Bytes} (hlast : out.getLast? = some 0) :
    (jsonGetObject json key out).Terminated out.length := by
  unfold jsonGetObject
  split
  · exact unchanged_terminated hlast _
  · split
    · exact jsonGetCompoundAt_terminated _ _ _ hlast
    · exact unchanged_terminated hlast _

theorem jsonGetArray_terminated (json key : Bytes) {out : Bytes} (hlast : out.getLast? = some 0) :
    (jsonGetArray json key out).Terminated out.length := by
  unfold jsonGetArray
  split
  · exact unchanged_terminated hlast _
  · split
    · exact jsonGetCompoundAt_terminated _ _ _ hlast
    · exact unchanged_terminated hlast _

/-- So does `json_get_raw_value`. -/
theorem jsonGetRawValue_terminated (json key : Bytes) {out : Bytes}
    (hlast : out.getLast? = some 0) : (jsonGetRawValue json key out).Terminated out.length := by
  unfold jsonGetRawValue
  split
  · exact unchanged_terminated hlast _
  · split
    · exact jsonGetStringAt_terminated _ hlast
    · split
      · exact jsonGetCompoundAt_terminated _ _ _ hlast
      · split
        · exact jsonGetCompoundAt_terminated _ _ _ hlast
        · exact jsonCopyTrimmed_terminated _ _ hlast

/-! ## Fresh buffers -/

theorem replicate_ne_nil {size : ℕ} (h : 0 < size) : List.replicate size (0 : UInt8) ≠ [] :=
  List.ne_nil_of_length_pos (by rwa [List.length_replicate])

theorem doc_text_eq (doc : Doc .value) : doc.text = Ws.none.text ++ (doc.text ++ Ws.none.text) := by
  simp [Ws.none]

/-- A getter that stores a text yields it. -/
theorem value?_of_store {getter : Bytes → Extract} {size : ℕ} {text : Bytes} (hnul : 0 ∉ text)
    (h : getter (List.replicate size 0) = ⟨0, store (List.replicate size 0) 0 (text ++ [0])⟩) :
    Extract.value? getter size = some text := by
  rw [Extract.value?, h]
  simp only [if_true, cstr_store_zero hnul]

theorem value?_copied {getter : Bytes → Extract} {size : ℕ} {text : Bytes} (hnul : 0 ∉ text)
    (hlen : text.length < size)
    (h : getter (List.replicate size 0) = copied text (List.replicate size 0)) :
    Extract.value? getter size = some text := by
  refine value?_of_store hnul (h.trans ?_)
  rw [copied, if_pos (by rwa [List.length_replicate])]

theorem value?_copiedWhole {getter : Bytes → Extract} {size : ℕ} {text : Bytes} (hnul : 0 ∉ text)
    (hlen : text.length < size)
    (h : getter (List.replicate size 0) = copiedWhole text (List.replicate size 0)) :
    Extract.value? getter size = some text := by
  refine value?_of_store hnul (h.trans ?_)
  rw [copiedWhole, if_pos (by rwa [List.length_replicate])]

theorem value?_failed {getter : Bytes → Extract} {size : ℕ} {out : Bytes}
    (h : getter (List.replicate size 0) = ⟨-1, out⟩) : Extract.value? getter size = none := by
  rw [Extract.value?, h]
  rfl

theorem getLast?_replicate_zero {size : ℕ} (h : 0 < size) :
    (List.replicate size (0 : UInt8)).getLast? = some 0 := by
  rw [List.getLast?_replicate, if_neg (by omega)]

/-- What a getter yields is a C string that fits the array. -/
theorem value?_bounded {getter : Bytes → Extract} {size : ℕ} {text : Bytes}
    (hterm : (getter (List.replicate size 0)).Terminated (List.replicate size (0 : UInt8)).length)
    (h : Extract.value? getter size = some text) : 0 ∉ text ∧ text.length < size := by
  unfold Extract.value? at h
  dsimp only at h
  split_ifs at h
  cases h
  refine ⟨nul_notMem_cstr _, ?_⟩
  have hlen := hterm.cstr_length_lt
  rwa [List.length_replicate] at hlen

/-- The first member of a text is found where it stands, whatever comes after it. -/
theorem jsonGetString_first {key : Bytes} (hk : SearchKey key) {before : Bytes}
    (hbefore : quote ∉ before) (s : StrLit) (rest : Bytes) {out : Bytes} (hout : out ≠ []) :
    jsonGetString (before ++ quote :: (key ++ quote :: colon :: (s.text ++ rest))) key out =
      copied (decode s.raw) out := by
  have hcolon : jsonSkipWs (colon :: (s.text ++ rest)) = colon :: (s.text ++ rest) :=
    jsonSkipWs_cons (by decide) _
  have hquote : jsonSkipWs (s.text ++ rest) = s.text ++ rest := by
    rw [StrLit.text, List.cons_append]
    exact jsonSkipWs_cons (by decide) _
  have hfind : jsonFindAfterKey (before ++ quote :: (key ++ quote :: colon :: (s.text ++ rest)))
      key = some (s.text ++ rest) := by
    rw [jsonFindAfterKey_append hk.toPatternKey hbefore,
      jsonFindAfterKey_key hk.toPatternKey, afterName, hcolon,
      List.head?_cons, if_pos rfl, List.tail_cons, hquote]
  have hhead : (s.text ++ rest).head? = some quote := rfl
  simp only [jsonGetString, hfind, hhead, if_true]
  exact jsonGetStringAt_text s rest hout

/-- Where an object stands does not depend on the array that it is copied to. -/
theorem jsonGetObject_eq (json key : Bytes) : ∃ object : Option Bytes, ∀ out : Bytes,
    jsonGetObject json key out =
      match object with
      | none => ⟨-1, out⟩
      | some text => copiedWhole text out := by
  unfold jsonGetObject
  cases jsonFindAfterKey json key with
  | none => exact ⟨none, fun _ => rfl⟩
  | some cursor =>
    by_cases hhead : cursor.head? = some lbrace
    · simp only [if_pos hhead, jsonGetCompoundAt]
      cases jsonFindCompoundEnd cursor lbrace rbrace with
      | none => exact ⟨none, fun _ => rfl⟩
      | some stop =>
        by_cases hstop : cursor.length < stop.tail.length
        · exact ⟨none, fun out => if_pos (Or.inr hstop)⟩
        · refine ⟨some (trim (between cursor stop.tail)), fun out => ?_⟩
          simp only [jsonCopyTrimmed, copiedWhole, hstop, or_false]
          split_ifs
          all_goals first
            | rfl
            | omega
    · exact ⟨none, fun _ => if_neg hhead⟩

/-- An object that fits an array is the same from every larger one. -/
theorem value?_jsonGetObject_mono {json key text : Bytes} {size size' : ℕ} (hle : size ≤ size')
    (h : Extract.value? (jsonGetObject json key) size = some text) :
    Extract.value? (jsonGetObject json key) size' = some text := by
  obtain ⟨object, hobject⟩ := jsonGetObject_eq json key
  rw [Extract.value?, hobject] at h ⊢
  cases object with
  | none => exact absurd h (by simp)
  | some whole =>
    simp only [copiedWhole, List.length_replicate] at h ⊢
    by_cases hfits : whole.length < size
    · rw [if_pos hfits] at h
      rw [if_pos (show whole.length < size' by omega)]
      simp only [if_true, cstr_store_nul] at h ⊢
      exact h
    · rw [if_neg hfits] at h
      exact absurd h (by simp)

/-- What is found, if it is of the kind asked for and shorter than the array. -/
def foundCompound (kind : Doc .value → Bool) (size : ℕ) (found : Option (Doc .value)) :
    Option Bytes :=
  found.bind fun v => if kind v = true ∧ v.text.length < size then some v.text else none

/-- What is found, if it is a string whose text is shorter than the array. -/
def foundString (size : ℕ) : Option (Doc .value) → Option Bytes
  | some (.string s) => if (decode s.raw).length < size then some (decode s.raw) else none
  | _ => none

/-- A value as `json_get_raw_value` gives it: strings are decoded. -/
def rawText : Doc .value → Bytes
  | .string s => decode s.raw
  | v => v.text

theorem rawText_of_not_string {v : Doc .value} (h : ∀ s, v ≠ .string s) : rawText v = v.text := by
  cases v with
  | string s => exact absurd rfl (h s)
  | _ => rfl

theorem mem_text_of_firstNamed {key : Bytes} {v u : Doc .value}
    (h : firstNamed key v.allMembers = some u) {b : UInt8} (hb : b ∈ u.text) : b ∈ v.text := by
  obtain ⟨m, hm, rfl⟩ := Option.map_eq_some_iff.1 h
  exact Doc.mem_text_of_mem_allMembers v (List.mem_of_find?_eq_some hm) hb

section FreshBuffers

variable {key : Bytes} (hk : SearchKey key) (w₀ : Ws) {v : Doc .value} (w : Ws)
  (hnul : 0 ∉ v.text) {size : ℕ} (hsize : 0 < size)

include hnul in
/-- A getter for one kind of value, into a fresh array, from a text without NUL. -/
theorem value?_readCompound {kind : Doc .value → Bool} {getter : Bytes → Extract}
    (h : getter (List.replicate size 0) =
      readCompound kind (firstNamed key v.allMembers) (List.replicate size 0)) :
    Extract.value? getter size = foundCompound kind size (firstNamed key v.allMembers) := by
  cases hfound : firstNamed key v.allMembers with
  | none =>
    rw [hfound] at h
    exact value?_failed h
  | some u =>
    rw [hfound] at h
    simp only [readCompound] at h
    simp only [foundCompound, Option.bind_some]
    by_cases hu : kind u = true
    · rw [if_pos hu] at h
      by_cases hlen : u.text.length < size
      · rw [if_pos ⟨hu, hlen⟩]
        exact value?_copiedWhole (fun h0 => hnul (mem_text_of_firstNamed hfound h0)) hlen h
      · rw [if_neg fun hboth => hlen hboth.2]
        rw [copiedWhole, if_neg (by rwa [List.length_replicate])] at h
        exact value?_failed h
    · rw [if_neg hu] at h
      rw [if_neg fun hboth => hu hboth.1]
      exact value?_failed h

include hk hnul hsize

/-- `json_get_string` into a fresh array: a string found whose text fits. -/
theorem value?_jsonGetString :
    Extract.value? (jsonGetString (w₀.text ++ (v.text ++ w.text)) key) size =
      foundString size (firstNamed key v.allMembers) := by
  have h := jsonGetString_doc hk w₀ v w (replicate_ne_nil hsize)
  cases hfound : firstNamed key v.allMembers with
  | none =>
    rw [hfound] at h
    exact value?_failed h
  | some u =>
    rw [hfound] at h
    cases u with
    | string s =>
      have hraw : 0 ∉ s.raw := fun h0 => hnul
        (mem_text_of_firstNamed hfound (by simp [Doc.text, StrLit.text, h0]))
      simp only [readString] at h
      simp only [foundString]
      by_cases hlen : (decode s.raw).length < size
      · rw [if_pos hlen]
        exact value?_copied (nul_notMem_decode hraw) hlen h
      · rw [if_neg hlen]
        rw [copied, if_neg (by rwa [List.length_replicate])] at h
        exact value?_failed h
    | scalar | emptyArray | array | emptyObject | object => exact value?_failed h

/-- `json_get_raw_value` into a fresh array: what is found, if it fits. -/
theorem value?_jsonGetRawValue :
    Extract.value? (jsonGetRawValue (w₀.text ++ (v.text ++ w.text)) key) size =
      (firstNamed key v.allMembers).bind fun u =>
        if (rawText u).length < size then some (rawText u) else none := by
  have h := jsonGetRawValue_doc hk w₀ v w (replicate_ne_nil hsize)
  cases hfound : firstNamed key v.allMembers with
  | none =>
    rw [hfound] at h
    exact value?_failed h
  | some u =>
    have hu : 0 ∉ u.text := fun h0 => hnul (mem_text_of_firstNamed hfound h0)
    rw [hfound] at h
    rw [Option.bind_some]
    by_cases hstring : ∃ s, u = .string s
    · obtain ⟨s, rfl⟩ := hstring
      have hraw : 0 ∉ s.raw := fun h0 => hu (by simp [Doc.text, StrLit.text, h0])
      rw [show rawText (.string s) = decode s.raw from rfl]
      simp only [readRawValue] at h
      by_cases hlen : (decode s.raw).length < size
      · rw [if_pos hlen]
        exact value?_copied (nul_notMem_decode hraw) hlen h
      · rw [if_neg hlen]
        rw [copied, if_neg (by rwa [List.length_replicate])] at h
        exact value?_failed h
    · have hno : ∀ s, u ≠ .string s := fun s hs => hstring ⟨s, hs⟩
      rw [readRawValue_of_not_string hno] at h
      rw [rawText_of_not_string hno]
      by_cases hlen : u.text.length < size
      · rw [if_pos hlen]
        exact value?_copiedWhole hu hlen h
      · rw [if_neg hlen]
        rw [copiedWhole, if_neg (by rwa [List.length_replicate])] at h
        exact value?_failed h

theorem value?_jsonGetObject :
    Extract.value? (jsonGetObject (w₀.text ++ (v.text ++ w.text)) key) size =
      foundCompound isObject size (firstNamed key v.allMembers) :=
  value?_readCompound hnul (jsonGetObject_doc hk w₀ v w (replicate_ne_nil hsize))

theorem value?_jsonGetArray :
    Extract.value? (jsonGetArray (w₀.text ++ (v.text ++ w.text)) key) size =
      foundCompound isArray size (firstNamed key v.allMembers) :=
  value?_readCompound hnul (jsonGetArray_doc hk w₀ v w (replicate_ne_nil hsize))

end FreshBuffers

/-! ## The object's own member -/

/-- A member of the object itself is the one that is read, if no member before it in
the text, at any depth, is taken for the key. -/
theorem firstNamed_of_top {key : Bytes} {v : Doc .value}
    {pre post : List (StrLit × Doc .value)} {K : StrLit} {u : Doc .value}
    (hown : v.ownMembers = pre ++ (K, u) :: post) (hK : K.raw = key)
    (hpre : ∀ m ∈ pre, namesKey key m.1 = false ∧
      ∀ m' ∈ m.2.allMembers, namesKey key m'.1 = false) :
    firstNamed key v.allMembers = some u := by
  have hname : namesKey key K = true := by
    rw [namesKey, hK]
    exact decide_eq_true (List.suffix_refl _)
  cases v with
  | object ms =>
    have hskip : (pre.flatMap fun m => m :: m.2.allMembers).find?
        (fun m => namesKey key m.1) = none := by
      refine List.find?_eq_none.2 fun m hm => ?_
      obtain ⟨t, ht, hm⟩ := List.mem_flatMap.1 hm
      obtain ⟨h₁, h₂⟩ := hpre t ht
      rcases List.mem_cons.1 hm with rfl | hm
      · simp [h₁]
      · simp [h₂ m hm]
    have hall : (Doc.object ms).allMembers = (pre.flatMap fun m => m :: m.2.allMembers) ++
        ((K, u) :: u.allMembers ++ post.flatMap fun m => m :: m.2.allMembers) := by
      rw [Doc.allMembers, Doc.allMembers_members, show ms.topMembers = pre ++ (K, u) :: post from hown,
        List.flatMap_append, List.flatMap_cons]
    rw [firstNamed, hall, List.find?_append, hskip, Option.none_or, List.cons_append,
      List.find?_cons, hname]
    rfl
  | _ => exact absurd hown (by simp [Doc.ownMembers])

end IotIde
