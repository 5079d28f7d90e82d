import IotIde.Foundation.JsonStrings
import IotIde.Json.Getters

/-!
# Fields of a request

A request is an object, and each of its fields is read into an array that holds a default.
The code that a getter returns is not looked at.

* `requestedField` — the value that the request gives for a field, or the default;
* `foundText` — the value that the search finds;
* `readField_eq` — what the array holds: the value found, as far as it goes;
* `FieldKept`, `readField_eq_requestedField_iff` — when that is the requested value;
* `fieldKept_of_own_iff` — for a field that no earlier name is taken for, when it is short.
-/

namespace IotIde

open CText JsonText

/-! ## Copies -/

/-- An array that starts as a shorter string holds what is copied to it, up to its last
byte. -/
theorem cstr_copied {text initial : Bytes} {size : ℕ} (h : 0 ∉ text)
    (hinitial : initial.length < size) :
    cstr (copied text (initBuffer size initial)).out = text.take (size - 1) := by
  have hbuffer : (initBuffer size initial).length = size := initBuffer_length hinitial.le
  unfold copied
  by_cases hfits : text.length < size
  · rw [if_pos (by rwa [hbuffer]), cstr_store_nul, cstr_of_nul_free h,
      List.take_of_length_le (by omega)]
  · rw [if_neg (by rwa [hbuffer]), hbuffer]
    obtain ⟨before, hsplit⟩ := List.getLast?_eq_some_iff.1 (initBuffer_getLast? hinitial)
    have hbefore : before.length = size - 1 := by
      rw [hsplit, List.length_append, List.length_singleton] at hbuffer
      omega
    have htake : (text.take (size - 1)).length = before.length := by
      rw [List.length_take]
      omega
    have hstore : store (initBuffer size initial) 0 (text.take (size - 1)) =
        text.take (size - 1) ++ 0 :: [] := by
      rw [store, htake, hsplit, List.take_zero, List.nil_append, Nat.zero_add, List.drop_left]
    rw [hstore, cstr_append_nul fun hmem => h (List.mem_of_mem_take hmem)]

/-- Without escapes of code units, the getters decode a string to its text. -/
theorem decode_eq_stringValue {raw : Bytes} (hraw : wellEscaped raw = true)
    (h : usesUnits raw = false) : decode raw = stringValue raw := by
  refine wellEscaped_induction (P := fun raw => usesUnits raw = false →
    decode raw = stringValue raw) ?_ ?_ ?_ raw hraw h
  · intro _
    rfl
  · intro b rest _ hb _ ih h
    rw [usesUnits.eq_def] at h
    dsimp only at h
    rw [if_neg hb] at h
    rw [decode_plain hb, stringValue_cons hb, ih h]
  · intro e rest _ ih h
    rw [usesUnits, if_pos rfl, Bool.or_eq_false_iff, beq_eq_false_iff_ne] at h
    rw [decode_escaped, stringValue_escape h.1, ih h.2]
    rfl

/-- No escape of the value is one of a code unit. -/
def WithoutUnits (v : Doc .value) : Prop := ∀ s, v = .string s → usesUnits s.raw = false

theorem withoutUnits_string {s : StrLit} (h : usesUnits s.raw = false) :
    WithoutUnits (.string s) := by
  intro t ht
  rw [← Doc.string.inj ht]
  exact h

/-! ## Values -/

/-- The value that an object has itself under a name, however the name is escaped. -/
def ownValue (key : Bytes) (v : Doc .value) : Option (Doc .value) :=
  (v.ownMembers.find? fun m => stringValue m.1.raw = key).map Prod.snd

/-- The text of a string. -/
def stringText : Doc .value → Option Bytes
  | .string s => some (stringValue s.raw)
  | _ => none

/-- The text of a string; any other value, or none, leaves the default. -/
def textOr (initial : Bytes) : Option (Doc .value) → Bytes
  | some (.string s) => stringValue s.raw
  | _ => initial

section Fields

variable (v : Doc .value) (key initial : Bytes)

/-- The value of the request's own member with that name. -/
def requestedField : Bytes :=
  textOr initial ((v.ownMembers.find? fun m => stringValue m.1.raw = key).map Prod.snd)

/-- The value of the first member, at any depth, that the search takes for the name. -/
def foundText : Bytes := textOr initial (firstNamed key v.allMembers)

/-- The value found is the requested one, and shorter than the array; or it is longer, and
the requested one is the part of it that fits. -/
def FieldKept (size : ℕ) : Prop :=
  (foundText v key initial = requestedField v key initial ∧
    (requestedField v key initial).length < size) ∨
  ((requestedField v key initial).length + 1 = size ∧
    requestedField v key initial <+: foundText v key initial)

instance (size : ℕ) : Decidable (FieldKept v key initial size) :=
  inferInstanceAs (Decidable (_ ∨ _))

end Fields

variable {v : Doc .value} {key initial : Bytes} {size : ℕ}

/-- The array holds the value found, up to its last byte. -/
theorem readField_eq (hk : SearchKey key) (hinitial : initial.length < size)
    (hnul : 0 ∉ initial) (w₀ w : Ws) (hlegal : v.legal = true)
    (hunits : ∀ m ∈ v.allMembers, WithoutUnits m.2) :
    readField key size initial (w₀.text ++ (v.text ++ w.text)) =
      (foundText v key initial).take (size - 1) := by
  have hbuffer : (initBuffer size initial).length = size := initBuffer_length hinitial.le
  have hne : initBuffer size initial ≠ [] := List.ne_nil_of_length_pos (by omega)
  have hinit : cstr (initBuffer size initial) = initial.take (size - 1) := by
    rw [cstr_initBuffer hnul hinitial, List.take_of_length_le (by omega)]
  rw [readField, jsonGetString_doc hk w₀ v w hne, foundText]
  cases hfound : firstNamed key v.allMembers with
  | none => exact hinit
  | some u =>
    cases u with
    | string s =>
      obtain ⟨m, hm, hvalue⟩ := Option.map_eq_some_iff.1 hfound
      have hunit : usesUnits s.raw = false := hunits m (List.mem_of_find?_eq_some hm) s hvalue
      have hraw : 0 ∉ s.raw := fun h => nul_notMem_text v hlegal
        (mem_text_of_firstNamed hfound (by simp [Doc.text, StrLit.text, h]))
      simp only [readString, textOr]
      rw [← decode_eq_stringValue s.escaped hunit]
      exact cstr_copied (nul_notMem_decode hraw) hinitial
    | scalar | emptyArray | array | emptyObject | object => exact hinit

theorem take_eq_iff {found requested : Bytes} (hsize : 0 < size) :
    found.take (size - 1) = requested ↔
      (found = requested ∧ requested.length < size) ∨
        (requested.length + 1 = size ∧ requested <+: found) := by
  constructor
  · intro h
    by_cases hlen : found.length < size
    · rw [List.take_of_length_le (by omega)] at h
      exact Or.inl ⟨h, h ▸ hlen⟩
    · refine Or.inr ⟨?_, h ▸ List.take_prefix _ _⟩
      have := congrArg List.length h
      rw [List.length_take] at this
      omega
  · rintro (⟨rfl, hlen⟩ | ⟨hlen, hprefix⟩)
    · exact List.take_of_length_le (by omega)
    · rw [List.prefix_iff_eq_take] at hprefix
      rw [show size - 1 = requested.length by omega, ← hprefix]

theorem readField_eq_requestedField_iff (hk : SearchKey key) (hinitial : initial.length < size)
    (hnul : 0 ∉ initial) (w₀ w : Ws) (hlegal : v.legal = true)
    (hunits : ∀ m ∈ v.allMembers, WithoutUnits m.2) :
    readField key size initial (w₀.text ++ (v.text ++ w.text)) = requestedField v key initial ↔
      FieldKept v key initial size := by
  rw [readField_eq hk hinitial hnul w₀ w hlegal hunits]
  exact take_eq_iff (by omega)

/-- A field that no earlier name is taken for, nor is the name of, is kept if it is shorter
than its array. -/
theorem fieldKept_of_own_iff {pre post : List (StrLit × Doc .value)} {K : StrLit} {s : StrLit}
    (hbackslash : backslash ∉ key) (hown : v.ownMembers = pre ++ (K, .string s) :: post)
    (hK : K.raw = key) (hpre : ∀ m ∈ pre, stringValue m.1.raw ≠ key ∧ namesKey key m.1 = false ∧
      ∀ m' ∈ m.2.allMembers, namesKey key m'.1 = false) :
    FieldKept v key initial size ↔ (stringValue s.raw).length < size := by
  have hfound : foundText v key initial = stringValue s.raw := by
    rw [foundText, firstNamed_of_top hown hK fun m hm => (hpre m hm).2]
    rfl
  have hrequested : requestedField v key initial = stringValue s.raw := by
    have hnone : pre.find? (fun m => stringValue m.1.raw = key) = none :=
      List.find?_eq_none.2 fun m hm => by simpa using (hpre m hm).1
    have hname : stringValue K.raw = key := by
      rw [hK, stringValue_plain hbackslash]
    rw [requestedField, hown, List.find?_append, hnone, Option.none_or,
      List.find?_cons_of_pos (by simpa using hname)]
    rfl
  rw [FieldKept, hfound, hrequested]
  constructor
  · rintro (⟨-, h⟩ | ⟨h, -⟩)
    · exact h
    · omega
  · exact fun h => Or.inl ⟨rfl, h⟩

end IotIde
