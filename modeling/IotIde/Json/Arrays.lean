import IotIde.Json.Getters

/-!
# What the array functions find

`json_array_size` and `json_array_get_item` count brackets of both kinds, and take a comma
outside of them for the end of an item.  On an array of a JSON text they therefore find its
elements.

* `jsonArraySizeLoop_depthScan`, `jsonArrayGetItemLoop_depthScan` — both pass any value;
* `jsonArraySize_array` — the number of the elements;
* `value?_jsonArrayGetItem` — an element, if it is shorter than the array it is copied to;
* `array_scanners_agree` — both, for the array of any list of elements;
* `filterMap_range` — so a loop over the indices visits the elements in their order.
-/

namespace IotIde

open CText JsonText

/-- A value does not start like the end of one. -/
theorem exists_start : ∀ v : Doc .value, ∃ b bs, v.text = b :: bs ∧ isSpace b = false ∧
    b ≠ comma ∧ b ≠ rbrace ∧ b ≠ rbracket
  | .scalar s => by
    obtain ⟨b, bs, hb⟩ := List.exists_cons_of_ne_nil s.ne_nil
    have hscalar : isScalarByte b = true := List.all_eq_true.1 s.ok b (by rw [hb]; simp)
    have hspace : isSpace b = false := by
      simp only [isScalarByte, Bool.and_eq_true, Bool.not_eq_true'] at hscalar
      simp [hscalar]
    exact ⟨b, bs, hb, hspace, ne_of_plain (Or.inl hscalar) (by decide),
      ne_of_plain (Or.inl hscalar) (by decide), ne_of_plain (Or.inl hscalar) (by decide)⟩
  | .string s => ⟨quote, s.raw ++ [quote], rfl, by decide⟩
  | .emptyArray w => ⟨lbracket, w.text ++ [rbracket], rfl, by decide⟩
  | .array es => ⟨lbracket, es.text ++ [rbracket], rfl, by decide⟩
  | .emptyObject w => ⟨lbrace, w.text ++ [rbrace], rfl, by decide⟩
  | .object ms => ⟨lbrace, ms.text ++ [rbrace], rfl, by decide⟩

/-! ## The size -/

section Size

variable (count : ℤ)

theorem jsonArraySizeLoop_strings (d : ℤ) :
    StringScan (jsonArraySizeLoop d false false count true)
      (fun escaped => jsonArraySizeLoop d true escaped count true) where
  opening rest := by
    have hspace : isSpace quote = false := by decide
    rw [jsonArraySizeLoop]
    simp only [Bool.false_eq_true, if_false, if_true, hspace]
  closing rest := by
    have hne : quote ≠ backslash := by decide
    rw [jsonArraySizeLoop]
    simp only [if_true, Bool.false_eq_true, if_false, hne]
  backslash rest := by
    rw [jsonArraySizeLoop]
    simp only [if_true, Bool.false_eq_true, if_false]
  escaped b rest := by
    rw [jsonArraySizeLoop]
    simp only [if_true]
  plain b rest hq hb := by
    rw [jsonArraySizeLoop]
    simp only [if_true, Bool.false_eq_true, if_false, hq, hb]

/-- A byte that is no space, quote or bracket belongs to an item, unless it is a comma of the
array itself. -/
theorem jsonArraySizeLoop_cons {d : ℤ} {b : UInt8} (hspace : isSpace b = false) (hq : b ≠ quote)
    (hlb : b ≠ lbrace) (hrb : b ≠ rbrace) (hlk : b ≠ lbracket) (hrk : b ≠ rbracket)
    (hcomma : b = comma → 1 ≤ d) (hasItem : Bool) (rest : Bytes) :
    jsonArraySizeLoop d false false count hasItem (b :: rest) =
      jsonArraySizeLoop d false false count true rest := by
  have hno : ¬ (b = comma ∧ d = 0) := fun h => absurd (hcomma h.1) (by omega)
  rw [jsonArraySizeLoop]
  simp only [Bool.false_eq_true, if_false, hspace, hq, hlb, hrb, hlk, hrk, or_self, hno]

theorem jsonArraySizeLoop_depthScan :
    DepthScan 0 (fun d => jsonArraySizeLoop d false false count true) where
  floor_le := zero_le_one
  string d _ := (jsonArraySizeLoop_strings count d).strLit
  plain d _ b hb rest := by
    by_cases hspace : isSpace b = true
    · rw [jsonArraySizeLoop]
      simp only [Bool.false_eq_true, if_false, hspace, if_true]
    · refine jsonArraySizeLoop_cons count (Bool.eq_false_iff.2 hspace) ?_ ?_ ?_ ?_ ?_
        (fun h => absurd h ?_) true rest
      all_goals exact ne_of_plain hb (by decide)
  separator d hd b hb rest := by
    rcases hb with rfl | rfl
    · exact jsonArraySizeLoop_cons count (by decide) (by decide) (by decide) (by decide)
        (by decide) (by decide) (fun _ => hd) true rest
    · exact jsonArraySizeLoop_cons count (by decide) (by decide) (by decide) (by decide)
        (by decide) (by decide) (fun h => absurd h (by decide)) true rest
  brackets d hd a b hab body hbody rest := by
    have hpos : 0 < d + 1 := by omega
    rcases hab with ⟨rfl, rfl⟩ | ⟨rfl, rfl⟩
    · have h₁ : isSpace lbrace = false := by decide
      have h₂ : isSpace rbrace = false := by decide
      have h₃ : lbrace ≠ quote ∧ rbrace ≠ quote ∧ rbrace ≠ lbrace ∧ rbrace ≠ lbracket := by decide
      rw [jsonArraySizeLoop]
      simp only [Bool.false_eq_true, if_false, h₁, h₃, true_or, if_true]
      rw [hbody (d + 1) (by omega), jsonArraySizeLoop]
      simp only [Bool.false_eq_true, if_false, h₂, h₃, true_or, or_self, if_true, hpos,
        add_sub_cancel_right]
    · have h₁ : isSpace lbracket = false := by decide
      have h₂ : isSpace rbracket = false := by decide
      have h₃ : lbracket ≠ quote ∧ rbracket ≠ quote ∧ rbracket ≠ lbrace ∧ rbracket ≠ lbracket := by
        decide
      rw [jsonArraySizeLoop]
      simp only [Bool.false_eq_true, if_false, h₁, h₃, or_true, if_true]
      rw [hbody (d + 1) (by omega), jsonArraySizeLoop]
      simp only [Bool.false_eq_true, if_false, h₂, h₃, or_true, or_self, if_true, hpos,
        add_sub_cancel_right]

/-- White space tells nothing about an item. -/
theorem jsonArraySizeLoop_ws (d : ℤ) (hasItem : Bool) (w : Ws) (rest : Bytes) :
    jsonArraySizeLoop d false false count hasItem (w.text ++ rest) =
      jsonArraySizeLoop d false false count hasItem rest := by
  have hpass : ∀ l : Bytes, l.all isJsonWs = true →
      jsonArraySizeLoop d false false count hasItem (l ++ rest) =
        jsonArraySizeLoop d false false count hasItem rest := by
    intro l
    induction l with
    | nil => exact fun _ => rfl
    | cons b bs ih =>
      intro hl
      simp only [List.all_cons, Bool.and_eq_true] at hl
      rw [List.cons_append, jsonArraySizeLoop]
      simp only [Bool.false_eq_true, if_false, isSpace_of_isJsonWs hl.1, if_true]
      exact ih hl.2
  exact hpass w.text w.ok

/-- The first byte of a value begins an item. -/
theorem jsonArraySizeLoop_value {d : ℤ} (hd : 0 ≤ d) (hasItem : Bool) (v : Doc .value)
    (rest : Bytes) : jsonArraySizeLoop d false false count hasItem (v.text ++ rest) =
      jsonArraySizeLoop d false false count true rest := by
  obtain ⟨b, bs, hcons, hspace, hcomma, hrb, hrk⟩ := exists_start v
  have hitem : jsonArraySizeLoop d false false count hasItem (v.text ++ rest) =
      jsonArraySizeLoop d false false count true (v.text ++ rest) := by
    have hno : ¬ (b = comma ∧ d = 0) := fun h => hcomma h.1
    rw [hcons, List.cons_append, jsonArraySizeLoop, jsonArraySizeLoop]
    simp only [Bool.false_eq_true, if_false, hspace, hrb, hrk, or_self, hno]
  rw [hitem]
  exact (jsonArraySizeLoop_depthScan count).value hd v rest

/-- One is counted for each element, at the comma behind it or at the closing bracket; an
`int` holds the sum. -/
theorem jsonArraySizeLoop_elements : ∀ (es : Doc .elements) (count : ℤ) (rest : Bytes),
    jsonArraySizeLoop 0 false false count false (es.text ++ rbracket :: rest) =
      (count + es.elements.length).bmod (2 ^ 32)
  | .element w v w', count, rest => by
    have hrk : isSpace rbracket = false := by decide
    have hne : rbracket ≠ quote ∧ rbracket ≠ lbrace ∧ rbracket ≠ lbracket := by decide
    have htext : (Doc.element w v w').text ++ rbracket :: rest =
        w.text ++ (v.text ++ (w'.text ++ rbracket :: rest)) := by simp [Doc.text]
    rw [htext, jsonArraySizeLoop_ws, jsonArraySizeLoop_value count le_rfl, jsonArraySizeLoop_ws,
      jsonArraySizeLoop]
    simp only [Bool.false_eq_true, if_false, hrk, hne, or_true, or_self, if_true, lt_irrefl]
    rfl
  | .moreElements w v w' more, count, rest => by
    have hspace : isSpace comma = false := by decide
    have hne : comma ≠ quote ∧ comma ≠ lbrace ∧ comma ≠ lbracket ∧ comma ≠ rbrace ∧
        comma ≠ rbracket := by decide
    have htext : (Doc.moreElements w v w' more).text ++ rbracket :: rest =
        w.text ++ (v.text ++ (w'.text ++ comma :: (more.text ++ rbracket :: rest))) := by
      simp [Doc.text]
    rw [htext, jsonArraySizeLoop_ws, jsonArraySizeLoop_value count le_rfl, jsonArraySizeLoop_ws,
      jsonArraySizeLoop]
    simp only [Bool.false_eq_true, if_false, hspace, hne, or_self, and_self, if_true]
    rw [jsonArraySizeLoop_elements more, Doc.elements, List.length_cons, Int.bmod_add_bmod]
    push_cast
    ring_nf

end Size

/-- The contents of an array start with white space and a value. -/
theorem exists_first (es : Doc .elements) (rest : Bytes) :
    ∃ (w : Ws) (v : Doc .value) (tail : Bytes), es.text ++ rest = w.text ++ (v.text ++ tail) := by
  cases es with
  | element w v w' => exact ⟨w, v, w'.text ++ rest, by simp [Doc.text]⟩
  | moreElements w v w' more =>
    exact ⟨w, v, w'.text ++ comma :: (more.text ++ rest), by simp [Doc.text]⟩

/-- `json_array_size` counts the elements of an array in an `int`, whatever stands behind it. -/
theorem jsonArraySize_append {v : Doc .value} (hv : isArray v = true) (w₀ : Ws) (rest : Bytes) :
    jsonArraySize (w₀.text ++ (v.text ++ rest)) = (v.elements.length : ℤ).bmod (2 ^ 32) := by
  have hopen : ∀ rest, jsonSkipWs (w₀.text ++ lbracket :: rest) = lbracket :: rest := fun rest => by
    rw [jsonSkipWs_ws, jsonSkipWs_cons (by decide)]
  cases v with
  | emptyArray w =>
    have hbody : jsonSkipWs (w.text ++ rbracket :: rest) = rbracket :: rest := by
      rw [jsonSkipWs_ws, jsonSkipWs_cons (by decide)]
    have hnone : ((Doc.emptyArray w).elements.length : ℤ) = 0 := rfl
    rw [hnone, Int.zero_bmod]
    simp only [jsonArraySize, Doc.text, List.cons_append, List.append_assoc, List.nil_append, hopen,
      List.head?_cons, List.tail_cons, hbody]
    rfl
  | array es =>
    obtain ⟨w, first, tail, hfirst⟩ := exists_first es (rbracket :: rest)
    obtain ⟨b, bs, hcons, -, -, -, hrk⟩ := exists_start first
    have hbody : jsonSkipWs (es.text ++ rbracket :: rest) = first.text ++ tail := by
      rw [hfirst, jsonSkipWs_ws, jsonSkipWs_value]
    have hloop := jsonArraySizeLoop_elements es 0 rest
    rw [hfirst, jsonArraySizeLoop_ws, zero_add] at hloop
    have hhead : (first.text ++ tail).head? ≠ some rbracket := by
      rw [hcons, List.cons_append, List.head?_cons]
      exact fun h => hrk (Option.some.inj h)
    have hne : first.text ++ tail ≠ [] := by
      rw [hcons]
      exact List.cons_ne_nil _ _
    simp only [jsonArraySize, Doc.text, List.cons_append, List.append_assoc, List.nil_append, hopen,
      List.head?_cons, List.tail_cons, hbody, hloop, ne_eq, not_true_eq_false, if_false, hne, hhead]
    rfl
  | _ => cases hv

/-- An array has no more elements than bytes. -/
theorem length_elements_le : ∀ {p : Part} (t : Doc p), t.elements.length ≤ t.text.length := by
  intro p t
  induction t with
  | element w v w' =>
    obtain ⟨b, bs, hcons, -⟩ := exists_start v
    simp only [Doc.elements, Doc.text, hcons, List.length_append, List.length_cons, List.length_nil]
    omega
  | moreElements w v w' more _ ih =>
    simp only [Doc.elements, Doc.text, List.length_append, List.length_cons]
    omega
  | array es ih =>
    simp only [Doc.elements, Doc.text, List.length_append, List.length_cons]
    omega
  | _ => exact Nat.zero_le _

/-- An `int` holds the number of the elements of an array of fewer than 2^31 bytes. -/
theorem elements_bmod {v : Doc .value} (hlen : v.text.length < 2 ^ 31) :
    (v.elements.length : ℤ).bmod (2 ^ 32) = v.elements.length := by
  have hle := length_elements_le v
  refine Int.bmod_eq_of_le ?_ ?_ <;> omega

theorem jsonArraySize_array {v : Doc .value} (hv : isArray v = true)
    (hlen : v.text.length < 2 ^ 31) : jsonArraySize v.text = v.elements.length := by
  have h := jsonArraySize_append hv .none []
  rwa [List.append_nil, elements_bmod hlen] at h

/-! ## The items -/

section Items

variable (index : ℕ) (out : Bytes)

theorem jsonArrayGetItemLoop_strings (d : ℤ) (current : ℕ) (itemStart : Bytes) :
    StringScan (jsonArrayGetItemLoop index out d false false current itemStart)
      (fun escaped => jsonArrayGetItemLoop index out d true escaped current itemStart) where
  opening rest := by
    rw [jsonArrayGetItemLoop]
    simp only [Bool.false_eq_true, if_false, if_true]
  closing rest := by
    have hne : quote ≠ backslash := by decide
    rw [jsonArrayGetItemLoop]
    simp only [if_true, Bool.false_eq_true, if_false, hne]
  backslash rest := by
    rw [jsonArrayGetItemLoop]
    simp only [if_true, Bool.false_eq_true, if_false]
  escaped b rest := by
    rw [jsonArrayGetItemLoop]
    simp only [if_true]
  plain b rest hq hb := by
    rw [jsonArrayGetItemLoop]
    simp only [if_true, Bool.false_eq_true, if_false, hq, hb]

/-- A byte that is no quote or bracket is passed, unless it is a comma of the array itself. -/
theorem jsonArrayGetItemLoop_cons {d : ℤ} (current : ℕ) (itemStart : Bytes) {b : UInt8}
    (hq : b ≠ quote) (hlb : b ≠ lbrace) (hrb : b ≠ rbrace) (hlk : b ≠ lbracket)
    (hrk : b ≠ rbracket) (hcomma : b = comma → 1 ≤ d) (rest : Bytes) :
    jsonArrayGetItemLoop index out d false false current itemStart (b :: rest) =
      jsonArrayGetItemLoop index out d false false current itemStart rest := by
  have hno : ¬ (b = comma ∧ d = 0) := fun h => absurd (hcomma h.1) (by omega)
  rw [jsonArrayGetItemLoop]
  simp only [Bool.false_eq_true, if_false, hq, hlb, hrb, hlk, hrk, or_self, hno]

theorem jsonArrayGetItemLoop_depthScan (current : ℕ) (itemStart : Bytes) :
    DepthScan 0 (fun d => jsonArrayGetItemLoop index out d false false current itemStart) where
  floor_le := zero_le_one
  string d _ := (jsonArrayGetItemLoop_strings index out d current itemStart).strLit
  plain d _ b hb rest := by
    refine jsonArrayGetItemLoop_cons index out current itemStart ?_ ?_ ?_ ?_ ?_
      (fun h => absurd h ?_) rest
    all_goals exact ne_of_plain hb (by decide)
  separator d hd b hb rest := by
    rcases hb with rfl | rfl
    · exact jsonArrayGetItemLoop_cons index out current itemStart (by decide) (by decide)
        (by decide) (by decide) (by decide) (fun _ => hd) rest
    · exact jsonArrayGetItemLoop_cons index out current itemStart (by decide) (by decide)
        (by decide) (by decide) (by decide) (fun h => absurd h (by decide)) rest
  brackets d hd a b hab body hbody rest := by
    have hpos : 0 < d + 1 := by omega
    rcases hab with ⟨rfl, rfl⟩ | ⟨rfl, rfl⟩
    · have hne : lbrace ≠ quote ∧ rbrace ≠ quote ∧ rbrace ≠ lbrace ∧ rbrace ≠ lbracket := by
        decide
      rw [jsonArrayGetItemLoop]
      simp only [Bool.false_eq_true, if_false, hne, true_or, if_true]
      rw [hbody (d + 1) (by omega), jsonArrayGetItemLoop]
      simp only [Bool.false_eq_true, if_false, hne, true_or, or_self, if_true, hpos,
        add_sub_cancel_right]
    · have hne : lbracket ≠ quote ∧ rbracket ≠ quote ∧ rbracket ≠ lbrace ∧
          rbracket ≠ lbracket := by decide
      rw [jsonArrayGetItemLoop]
      simp only [Bool.false_eq_true, if_false, hne, or_true, if_true]
      rw [hbody (d + 1) (by omega), jsonArrayGetItemLoop]
      simp only [Bool.false_eq_true, if_false, hne, or_true, or_self, if_true, hpos,
        add_sub_cancel_right]

/-- What is copied at an item, or the failure without one. -/
def copiedItem (item : Option (Doc .value)) (out : Bytes) : Extract :=
  match item with
  | none => ⟨-1, out⟩
  | some v => copiedWhole v.text out

variable {index out} (hout : out ≠ [])
include hout

/-- From the start of an item on, the loop copies the item that has the index. -/
theorem jsonArrayGetItemLoop_elements : ∀ (es : Doc .elements) (current : ℕ), current ≤ index →
    ∀ rest : Bytes, jsonArrayGetItemLoop index out 0 false false current
      (jsonSkipWs (es.text ++ rbracket :: rest)) (es.text ++ rbracket :: rest) =
        copiedItem es.elements[index - current]? out
  | .element w v w', current, hle, rest => by
    have hne : rbracket ≠ quote ∧ rbracket ≠ lbrace ∧ rbracket ≠ lbracket := by decide
    have hscan := jsonArrayGetItemLoop_depthScan index out current
      (v.text ++ (w'.text ++ rbracket :: rest))
    have htext : (Doc.element w v w').text ++ rbracket :: rest =
        w.text ++ (v.text ++ (w'.text ++ rbracket :: rest)) := by simp [Doc.text]
    have hspaces : ∀ b ∈ w'.text, isSpace b = true :=
      fun b hb => isSpace_of_isJsonWs (List.all_eq_true.1 w'.ok b hb)
    rw [htext, jsonSkipWs_ws, jsonSkipWs_value, hscan.ws le_rfl, hscan.value le_rfl,
      hscan.ws le_rfl, jsonArrayGetItemLoop]
    simp only [Bool.false_eq_true, if_false, hne, or_true, or_self, if_true, lt_irrefl]
    by_cases hindex : current = index
    · rw [if_pos hindex, jsonCopyTrimmed_value v hspaces _ hout, hindex, Nat.sub_self]
      rfl
    · obtain ⟨n, hn⟩ : ∃ n, index - current = n + 1 := ⟨index - current - 1, by omega⟩
      rw [if_neg hindex, hn]
      rfl
  | .moreElements w v w' more, current, hle, rest => by
    have hne : comma ≠ quote ∧ comma ≠ lbrace ∧ comma ≠ lbracket ∧ comma ≠ rbrace ∧
        comma ≠ rbracket := by decide
    have hscan := jsonArrayGetItemLoop_depthScan index out current
      (v.text ++ (w'.text ++ comma :: (more.text ++ rbracket :: rest)))
    have htext : (Doc.moreElements w v w' more).text ++ rbracket :: rest =
        w.text ++ (v.text ++ (w'.text ++ comma :: (more.text ++ rbracket :: rest))) := by
      simp [Doc.text]
    have hspaces : ∀ b ∈ w'.text, isSpace b = true :=
      fun b hb => isSpace_of_isJsonWs (List.all_eq_true.1 w'.ok b hb)
    rw [htext, jsonSkipWs_ws, jsonSkipWs_value, hscan.ws le_rfl, hscan.value le_rfl,
      hscan.ws le_rfl, jsonArrayGetItemLoop]
    simp only [Bool.false_eq_true, if_false, hne, or_self, and_self, if_true]
    by_cases hindex : current = index
    · rw [if_pos hindex, jsonCopyTrimmed_value v hspaces _ hout, hindex, Nat.sub_self]
      rfl
    · obtain ⟨n, hn⟩ : ∃ n, index - current = n + 1 := ⟨index - current - 1, by omega⟩
      rw [if_neg hindex, jsonArrayGetItemLoop_elements more (current + 1) (by omega), hn,
        show index - (current + 1) = n by omega]
      rfl

/-- `json_array_get_item` copies the element of the index, whatever stands behind the array. -/
theorem jsonArrayGetItem_append {v : Doc .value} (hv : isArray v = true) (w₀ : Ws)
    (rest : Bytes) : jsonArrayGetItem (w₀.text ++ (v.text ++ rest)) index out =
      copiedItem v.elements[index]? out := by
  have hopen : ∀ rest, jsonSkipWs (w₀.text ++ lbracket :: rest) = lbracket :: rest := fun rest => by
    rw [jsonSkipWs_ws, jsonSkipWs_cons (by decide)]
  have hlen : out.length ≠ 0 := fun h => hout (List.length_eq_zero_iff.1 h)
  cases v with
  | emptyArray w =>
    have hbody : jsonSkipWs (w.text ++ rbracket :: rest) = rbracket :: rest := by
      rw [jsonSkipWs_ws, jsonSkipWs_cons (by decide)]
    simp only [jsonArrayGetItem, hlen, Doc.text, List.cons_append, List.append_assoc,
      List.nil_append, hopen, List.head?_cons, List.tail_cons, hbody]
    rfl
  | array es =>
    obtain ⟨w, first, tail, hfirst⟩ := exists_first es (rbracket :: rest)
    obtain ⟨b, bs, hcons, -, -, -, hrk⟩ := exists_start first
    have hbody : jsonSkipWs (es.text ++ rbracket :: rest) = first.text ++ tail := by
      rw [hfirst, jsonSkipWs_ws, jsonSkipWs_value]
    have hloop := jsonArrayGetItemLoop_elements hout es 0 (Nat.zero_le index) rest
    rw [hbody, hfirst, (jsonArrayGetItemLoop_depthScan index out 0 _).ws le_rfl,
      Nat.sub_zero] at hloop
    have hno : ¬ (first.text ++ tail = [] ∨ (first.text ++ tail).head? = some rbracket) := by
      rw [hcons, List.cons_append, List.head?_cons]
      rintro (h | h)
      · cases h
      · exact hrk (Option.some.inj h)
    simp only [jsonArrayGetItem, hlen, Doc.text, List.cons_append, List.append_assoc,
      List.nil_append, hopen, List.head?_cons, List.tail_cons, hbody, hloop, ne_eq,
      not_true_eq_false, if_false, hno]
    rfl
  | _ => cases hv

theorem jsonArrayGetItem_array {v : Doc .value} (hv : isArray v = true) :
    jsonArrayGetItem v.text index out = copiedItem v.elements[index]? out := by
  have h : jsonArrayGetItem (v.text ++ []) index out = copiedItem v.elements[index]? out :=
    jsonArrayGetItem_append hout hv .none []
  rwa [List.append_nil] at h

end Items

/-- The bytes of an element are bytes of the array. -/
theorem mem_text_of_mem_elements {b : UInt8} : ∀ {p : Part} (t : Doc p) {u : Doc .value},
    u ∈ t.elements → b ∈ u.text → b ∈ t.text := by
  intro p t
  induction t with
  | element w v w' =>
    intro u hu hb
    rw [List.mem_singleton.1 hu] at hb
    simp [Doc.text, hb]
  | moreElements w v w' more _ ih =>
    intro u hu hb
    rcases List.mem_cons.1 hu with rfl | hu
    · simp [Doc.text, hb]
    · simp [Doc.text, ih hu hb]
  | array es ih =>
    intro u hu hb
    simp [Doc.text, ih hu hb]
  | _ =>
    intro u hu
    cases hu

/-- `json_array_get_item` into a fresh array. -/
theorem value?_jsonArrayGetItem {v : Doc .value} (hv : isArray v = true) (hnul : 0 ∉ v.text)
    {size : ℕ} (hsize : 0 < size) (index : ℕ) :
    Extract.value? (jsonArrayGetItem v.text index) size =
      v.elements[index]?.bind fun u => if u.text.length < size then some u.text else none := by
  have hitem : jsonArrayGetItem v.text index (List.replicate size 0) =
      copiedItem v.elements[index]? (List.replicate size 0) :=
    jsonArrayGetItem_array (replicate_ne_nil hsize) hv
  cases helement : v.elements[index]? with
  | none =>
    rw [helement] at hitem
    exact value?_failed hitem
  | some u =>
    rw [helement, copiedItem] at hitem
    have hu : 0 ∉ u.text :=
      fun h => hnul (mem_text_of_mem_elements v (List.mem_of_getElem? helement) h)
    rw [Option.bind_some]
    by_cases hlen : u.text.length < size
    · rw [if_pos hlen]
      exact value?_copiedWhole hu hlen hitem
    · rw [if_neg hlen]
      rw [copiedWhole, if_neg (by rwa [List.length_replicate])] at hitem
      exact value?_failed hitem

/-- A loop over the indices of a list visits its elements. -/
theorem filterMap_range {α β : Type*} (f : α → Option β) : ∀ l : List α,
    (List.range l.length).filterMap (fun i => l[i]?.bind f) = l.filterMap f := by
  intro l
  induction l with
  | nil => rfl
  | cons a l ih =>
    rw [List.length_cons, List.range_succ_eq_map, List.filterMap_cons, List.filterMap_map,
      List.filterMap_cons]
    simp only [Function.comp_def, List.getElem?_cons_zero, List.getElem?_cons_succ,
      Option.bind_some, Nat.succ_eq_add_one, ih]

/-! ## Arrays as they are written -/

/-- An element of an array, and the white space around it. -/
structure Spaced where
  before : Ws
  value : Doc .value
  after : Ws

def Spaced.text (e : Spaced) : Bytes := e.before.text ++ (e.value.text ++ e.after.text)

/-- Elements in brackets, with commas between them; white space alone without elements. -/
def arrayText (w : Ws) : List Spaced → Bytes
  | [] => lbracket :: (w.text ++ [rbracket])
  | e :: rest => lbracket :: ([comma].intercalate ((e :: rest).map Spaced.text) ++ [rbracket])

/-- The first elements of an array alone are no longer than the array. -/
theorem arrayText_take_length_le (w : Ws) (items : List Spaced) (n : ℕ) :
    (arrayText w (items.take (n + 1))).length ≤ (arrayText w items).length := by
  have hbody : ∀ (texts : List Bytes) (n : ℕ),
      [comma].intercalate (texts.take (n + 1)) <+: [comma].intercalate texts := by
    intro texts
    induction texts with
    | nil => exact fun n => List.prefix_refl _
    | cons text rest ih =>
      intro n
      rw [List.take_succ_cons]
      cases rest with
      | nil => rw [List.take_nil]
      | cons next rest =>
        rw [List.intercalate_cons_cons]
        cases n with
        | zero =>
          rw [List.take_zero, List.intercalate_singleton, List.append_assoc]
          exact List.prefix_append _ _
        | succ n =>
          have hnext := ih n
          rw [List.take_succ_cons] at hnext ⊢
          rw [List.intercalate_cons_cons]
          exact (List.prefix_append_right_inj _).2 hnext
  cases items with
  | nil => exact le_rfl
  | cons e rest =>
    have hle := (hbody ((e :: rest).map Spaced.text) n).length_le
    rw [← List.map_take, List.take_succ_cons] at hle
    simp only [List.take_succ_cons, arrayText, List.length_cons, List.length_append]
    exact Nat.succ_le_succ (Nat.add_le_add_right hle _)

/-- The tree of the contents of an array. -/
def elementsDoc : Spaced → List Spaced → Doc .elements
  | e, [] => .element e.before e.value e.after
  | e, e' :: rest => .moreElements e.before e.value e.after (elementsDoc e' rest)

/-- The tree of an array. -/
def arrayDoc (w : Ws) : List Spaced → Doc .value
  | [] => .emptyArray w
  | e :: rest => .array (elementsDoc e rest)

theorem elementsDoc_text (rest : List Spaced) : ∀ e : Spaced,
    (elementsDoc e rest).text = [comma].intercalate ((e :: rest).map Spaced.text) := by
  induction rest with
  | nil =>
    intro e
    simp [elementsDoc, Doc.text, Spaced.text]
  | cons e' rest ih =>
    intro e
    rw [elementsDoc, Doc.text, ih e', List.map_cons, List.map_cons, List.map_cons,
      List.intercalate_cons_cons,
      show e.text = e.before.text ++ (e.value.text ++ e.after.text) from rfl]
    simp only [List.append_assoc, List.singleton_append]

theorem arrayDoc_text (w : Ws) (items : List Spaced) :
    (arrayDoc w items).text = arrayText w items := by
  cases items with
  | nil => rfl
  | cons e rest => rw [arrayDoc, Doc.text, elementsDoc_text, arrayText]

theorem elementsDoc_elements (rest : List Spaced) : ∀ e : Spaced,
    (elementsDoc e rest).elements = (e :: rest).map Spaced.value := by
  induction rest with
  | nil => exact fun e => rfl
  | cons e' rest ih =>
    intro e
    rw [elementsDoc, Doc.elements, ih e', List.map_cons]
    rfl

theorem arrayDoc_elements (w : Ws) (items : List Spaced) :
    (arrayDoc w items).elements = items.map Spaced.value := by
  cases items with
  | nil => rfl
  | cons e rest => exact elementsDoc_elements rest e

theorem elementsDoc_legal (rest : List Spaced) : ∀ e : Spaced,
    (elementsDoc e rest).legal = (e :: rest).all fun e => e.value.legal := by
  induction rest with
  | nil =>
    intro e
    simp [elementsDoc, Doc.legal]
  | cons e' rest ih =>
    intro e
    rw [elementsDoc, Doc.legal, ih e', List.all_cons, List.all_cons, List.all_cons]

theorem arrayDoc_legal (w : Ws) (items : List Spaced) :
    (arrayDoc w items).legal = items.all fun e => e.value.legal := by
  cases items with
  | nil => rfl
  | cons e rest => exact elementsDoc_legal rest e

theorem isArray_arrayDoc (w : Ws) (items : List Spaced) : isArray (arrayDoc w items) = true := by
  cases items with
  | nil => rfl
  | cons e rest => rfl

/-- **Counting and indexing agree with the elements.**  Of an array with white space anywhere
around its brackets, commas and elements, in a text that an `int` can count,
`json_array_size` gives the number of elements, and `json_array_get_item` the text of the
element with the index, where it is one and fits. -/
theorem array_scanners_agree (w₀ w w₁ : Ws) (items : List Spaced)
    (hlen : (w₀.text ++ (arrayText w items ++ w₁.text)).length < 2 ^ 31) :
    jsonArraySize (w₀.text ++ (arrayText w items ++ w₁.text)) = items.length ∧
    ∀ (i : ℕ) (out : Bytes),
      match items[i]? with
      | none => (jsonArrayGetItem (w₀.text ++ (arrayText w items ++ w₁.text)) i out).rc = -1
      | some e =>
        if e.value.text.length < out.length then
          (jsonArrayGetItem (w₀.text ++ (arrayText w items ++ w₁.text)) i out).rc = 0 ∧
          ∃ rest, (jsonArrayGetItem (w₀.text ++ (arrayText w items ++ w₁.text)) i out).out =
            e.value.text ++ 0 :: rest
        else (jsonArrayGetItem (w₀.text ++ (arrayText w items ++ w₁.text)) i out).rc = -1 := by
  have harray := isArray_arrayDoc w items
  rw [← arrayDoc_text]
  refine ⟨?_, fun i out => ?_⟩
  · have hdoc : (arrayDoc w items).text.length < 2 ^ 31 := by
      rw [arrayDoc_text]
      simp only [List.length_append] at hlen
      omega
    rw [jsonArraySize_append harray, elements_bmod hdoc, arrayDoc_elements, List.length_map]
  have hitem : jsonArrayGetItem (w₀.text ++ ((arrayDoc w items).text ++ w₁.text)) i out =
      copiedItem (items.map Spaced.value)[i]? out := by
    by_cases hout : out = []
    · subst hout
      rw [jsonArrayGetItem, if_pos List.length_nil]
      cases (items.map Spaced.value)[i]? with
      | none => rfl
      | some v => rw [copiedItem, copiedWhole, if_neg (by simp)]
    · rw [jsonArrayGetItem_append hout harray, arrayDoc_elements]
  rw [hitem, List.getElem?_map]
  cases items[i]? with
  | none => rfl
  | some e =>
    simp only [Option.map_some, copiedItem, copiedWhole]
    by_cases hfits : e.value.text.length < out.length
    · simp only [if_pos hfits, true_and]
      exact ⟨out.drop (e.value.text.length + 1), by simp [store]⟩
    · simp only [if_neg hfits]

/-- A zero, with a blank before it. -/
def spacedZero : Spaced := ⟨⟨[32], rfl⟩, .scalar ⟨[48], by decide, rfl⟩, .none⟩

theorem array_scanners_agree_two :
    jsonArraySize (ascii "[ 0, 0]") = 2 ∧
    (jsonArrayGetItem (ascii "[ 0, 0]") 1 (List.replicate 2 7)).rc = 0 ∧
    (jsonArrayGetItem (ascii "[ 0, 0]") 2 (List.replicate 2 7)).rc = -1 := by
  have htext : Ws.none.text ++ (arrayText .none [spacedZero, spacedZero] ++ Ws.none.text) =
      ascii "[ 0, 0]" := by decide
  have h := array_scanners_agree .none .none .none [spacedZero, spacedZero] (by decide)
  rw [htext] at h
  exact ⟨h.1, (h.2 1 (List.replicate 2 7)).1, h.2 2 (List.replicate 2 7)⟩

/-- No `int` is the number of 2^31 elements: the count has wrapped around. -/
theorem array_size_wraps :
    let items := List.replicate (2 ^ 31) spacedZero
    (arrayDoc .none items).legal = true ∧ (arrayDoc .none items).text = arrayText .none items ∧
    (items.length : ℤ) = 2 ^ 31 ∧ jsonArraySize (arrayText .none items) = -2 ^ 31 := by
  intro items
  have hcount := jsonArraySize_append (isArray_arrayDoc .none items) .none []
  rw [List.append_nil, arrayDoc_elements, List.length_map, List.length_replicate,
    arrayDoc_text] at hcount
  refine ⟨?_, arrayDoc_text .none items, by rw [List.length_replicate]; rfl, hcount⟩
  rw [arrayDoc_legal, List.all_eq_true]
  intro e he
  rw [List.eq_of_mem_replicate he]
  rfl

end IotIde
