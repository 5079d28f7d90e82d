import IotIde.Foundation.JsonPlaces
import IotIde.Foundation.JsonStrings
import IotIde.Json.Defaults

/-!
# Nested values are cut out exactly

When the first place of a JSON text where the quoted key stands before a colon is the name
of a member, at whatever depth, the getters return the text of that member's value.

* `searchKey_of_word` — a key of letters, digits, `-` and `_` can be searched for;
* `firstNamed_of_first` — the first place is the member that the search stops at;
* `Extract.Cuts` — a getter returns a text when it is shorter than the array;
* `nested_value_cut` — what the three getters make of a value that is no string.
-/

namespace IotIde

open CText JsonText

/-! ## Keys -/

/-- A letter, a digit, `-` or `_`. -/
def isKeyByte (b : UInt8) : Bool :=
  (97 ≤ b && b ≤ 122) || (65 ≤ b && b ≤ 90) || isDigit b || b == 45 || b == 95

theorem searchKey_of_word {key : Bytes} (hword : key.all isKeyByte = true)
    (hlen : key.length ≤ 100) : SearchKey key := by
  have hnot : ∀ b, isKeyByte b = false → b ∉ key := by
    intro b hb hmem
    rw [List.all_eq_true.1 hword b hmem] at hb
    cases hb
  exact ⟨⟨by omega, hnot _ (by decide), hnot _ (by decide)⟩, hnot _ (by decide),
    hnot _ (by decide)⟩

/-! ## The first place -/

/-- What stands in a text stands in it with other text around. -/
theorem quotedAt_around {key text : Bytes} {i : ℕ} (hi : i < text.length)
    (h : QuotedAt key text i) (front behind : Bytes) :
    QuotedAt key (front ++ (text ++ behind)) (front.length + i) := by
  obtain ⟨ws, rest, hdrop, hws⟩ := h
  refine ⟨ws, rest ++ behind, ?_, hws⟩
  rw [List.drop_append, List.drop_eq_nil_of_le (Nat.le_add_right _ _), Nat.add_sub_cancel_left,
    List.nil_append, List.drop_append_of_le_length hi.le, hdrop]
  simp

/-- The site that no quoted key stands before is the member the search stops at. -/
theorem firstNamed_of_first {key : Bytes} (w₀ : Ws) {doc : Doc .value} (w : Ws) {s : Site}
    (hs : s ∈ doc.sites) (hname : s.name.raw = key)
    (hfirst : ∀ i < (w₀.text ++ s.before).length,
      ¬ QuotedAt key (w₀.text ++ (doc.text ++ w.text)) i) :
    firstNamed key doc.allMembers = some s.value := by
  have hinside : s.before.length < doc.text.length := by
    have hle := Doc.site_length_le doc hs
    have hpos : 0 < s.name.text.length := by simp [StrLit.text]
    omega
  obtain ⟨pre, post, hsplit, hpre⟩ := doc.first_of_mem_sites hs fun i hi hquoted =>
    hfirst (w₀.text.length + i) (by rw [List.length_append]; omega)
      (quotedAt_around (hi.trans hinside) hquoted w₀.text w.text)
  have hself : namesKey key s.name = true := by
    rw [namesKey, hname]
    exact decide_eq_true (List.suffix_refl _)
  have hnone : (pre.map fun a => (a.name, a.value)).find? (fun m => namesKey key m.1) = none := by
    refine List.find?_eq_none.2 fun m hm => ?_
    obtain ⟨a, ha, rfl⟩ := List.mem_map.1 hm
    simpa [namesKey] using hpre a ha
  rw [firstNamed, ← Doc.sites_members, hsplit, List.map_append, List.find?_append, hnone,
    Option.none_or, List.map_cons, List.find?_cons, hself]
  rfl

/-! ## Cutting -/

/-- The getter returns `text` when it is shorter than the array, and `-1` otherwise. -/
def Extract.Cuts (r : Extract) (text : Bytes) (size : ℕ) : Prop :=
  if text.length < size then r.rc = 0 ∧ cstr r.out = text else r.rc = -1

theorem copiedWhole_cuts {text : Bytes} (hnul : 0 ∉ text) (out : Bytes) :
    (copiedWhole text out).Cuts text out.length := by
  unfold Extract.Cuts copiedWhole
  by_cases hfits : text.length < out.length
  · rw [if_pos hfits, if_pos hfits]
    exact ⟨rfl, cstr_store_zero hnul⟩
  · rw [if_neg hfits, if_neg hfits]

theorem jsonGetCompoundAt_nil (openChar closeChar : UInt8) (cursor : Bytes) :
    (jsonGetCompoundAt openChar closeChar cursor []).rc = -1 := by
  unfold jsonGetCompoundAt
  cases jsonFindCompoundEnd cursor openChar closeChar with
  | none => rfl
  | some stop => rfl

theorem getters_nil (json key : Bytes) :
    (jsonGetRawValue json key []).rc = -1 ∧ (jsonGetObject json key []).rc = -1 ∧
      (jsonGetArray json key []).rc = -1 := by
  unfold jsonGetRawValue jsonGetObject jsonGetArray
  cases jsonFindAfterKey json key with
  | none => exact ⟨rfl, rfl, rfl⟩
  | some cursor =>
    have hcompound := fun a b => jsonGetCompoundAt_nil a b cursor
    dsimp only
    refine ⟨?_, ?_, ?_⟩
    · split_ifs
      · rw [jsonGetStringAt_eq]
        split
        · rfl
        · rw [copied_nil]
      · exact hcompound _ _
      · exact hcompound _ _
      · rfl
    · split_ifs
      · exact hcompound _ _
      · rfl
    · split_ifs
      · exact hcompound _ _
      · rfl

/-- A getter for one kind of value cuts out values of that kind and refuses the others. -/
theorem readCompound_cuts (kind : Doc .value → Bool) {v : Doc .value} (hnul : 0 ∉ v.text)
    (out : Bytes) : if kind v then (readCompound kind (some v) out).Cuts v.text out.length
      else (readCompound kind (some v) out).rc = -1 := by
  unfold readCompound
  dsimp only
  by_cases hkind : kind v = true
  · rw [if_pos hkind, if_pos hkind]
    exact copiedWhole_cuts hnul out
  · rw [if_neg hkind, if_neg hkind]

/-- **Nested values are cut out exactly.**  In a JSON text whose first quoted key before a
colon is the name of a member, and for a value that is no string, `json_get_raw_value`
returns the text of the value, and the two others do so exactly for objects and for
arrays. -/
theorem nested_value_cut {key : Bytes} (hword : key.all isKeyByte = true)
    (hlen : key.length ≤ 100) (w₀ w : Ws) {doc : Doc .value} (hlegal : doc.legal = true)
    {s : Site} (hs : s ∈ doc.sites) (hname : s.name.raw = key)
    (hfirst : ∀ i < (w₀.text ++ s.before).length,
      ¬ QuotedAt key (w₀.text ++ (doc.text ++ w.text)) i)
    (hvalue : ∀ t, s.value ≠ .string t) (out : Bytes) :
    let json := w₀.text ++ (doc.text ++ w.text)
    (jsonGetRawValue json key out).Cuts s.value.text out.length ∧
    (if isObject s.value then (jsonGetObject json key out).Cuts s.value.text out.length
      else (jsonGetObject json key out).rc = -1) ∧
    (if isArray s.value then (jsonGetArray json key out).Cuts s.value.text out.length
      else (jsonGetArray json key out).rc = -1) := by
  intro json
  have hkey := searchKey_of_word hword hlen
  have hfound := firstNamed_of_first w₀ w hs hname hfirst
  by_cases hout : out = []
  · obtain ⟨hraw, hobj, harr⟩ := getters_nil json key
    have hnone : ∀ r : Extract, r.rc = -1 → r.Cuts s.value.text 0 := fun r hr => by
      rw [Extract.Cuts, if_neg (Nat.not_lt_zero _)]
      exact hr
    subst hout
    refine ⟨hnone _ hraw, ?_, ?_⟩
    · split_ifs
      · exact hnone _ hobj
      · exact hobj
    · split_ifs
      · exact hnone _ harr
      · exact harr
  · have hnul : 0 ∉ s.value.text := fun h =>
      nul_notMem_text doc hlegal (mem_text_of_firstNamed hfound h)
    rw [show jsonGetRawValue json key out = _ from jsonGetRawValue_doc hkey w₀ doc w hout,
      show jsonGetObject json key out = _ from jsonGetObject_doc hkey w₀ doc w hout,
      show jsonGetArray json key out = _ from jsonGetArray_doc hkey w₀ doc w hout, hfound,
      readRawValue_of_not_string hvalue]
    exact ⟨copiedWhole_cuts hnul out, readCompound_cuts isObject hnul out,
      readCompound_cuts isArray hnul out⟩

/-- `{"a":[{"id":"]}"}],"id":1}` -/
def bracketsInString : Doc .value :=
  .object (.moreMembers (keyName "a")
    (.array (.element .none
      (.object (.member (keyName "id") (.string ⟨ascii "]\x7d", rfl⟩) .none)) .none))
    .none (.member (keyName "id") (.scalar (decimalScalar 1)) .none))

theorem nested_value_cut_brackets :
    (jsonGetArray (Ws.none.text ++ (bracketsInString.text ++ Ws.none.text)) (ascii "a")
      (List.replicate 32 0)).Cuts (ascii "[\x7b\"id\":\"]\x7d\"\x7d]") 32 := by
  have hfirst : ∀ i < (Ws.none.text ++ [lbrace]).length, ¬ QuotedAt (ascii "a")
      (Ws.none.text ++ (bracketsInString.text ++ Ws.none.text)) i := by
    intro i hi ⟨ws, rest, hdrop, _⟩
    have hzero : i = 0 := Nat.lt_one_iff.1 hi
    subst hzero
    exact absurd (List.cons.inj hdrop).1 (by decide)
  exact (nested_value_cut (s := ⟨[lbrace], ⟨ascii "a", rfl⟩, _⟩) (by decide) (by decide) .none
    .none (show bracketsInString.legal = true by decide +kernel) List.mem_cons_self rfl hfirst
    (fun t h => by cases h) (List.replicate 32 0)).2.2

end IotIde
