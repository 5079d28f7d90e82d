import IotIde.Json.Fields

/-!
# The member that a caller asks for

A caller that has cut an object out of a text asks it for a member by name.  What it gets
is the first member at any depth that the search takes for the name (`Json.Lookup`).

* `Reads`, `ReadsOwn` — the four getters give what the object has under the name itself;
* `Alike` — two values that every getter reads alike;
* `reads_located` — the getters give what the search finds;
* `getters_read_own_iff` — when that is what the object has itself.
-/

namespace IotIde

open CText JsonText

/-- What a getter that supports strings alone gives of a value. -/
def decodedString : Doc .value → Option Bytes
  | .string s => some (decode s.raw)
  | _ => none

/-- What a getter that supports one kind of brackets gives of a value. -/
def compoundText (kind : Doc .value → Bool) (v : Doc .value) : Option Bytes :=
  if kind v then some v.text else none

/-- The call succeeds with the text, or returns -1 where there is none to give. -/
def Reads (result : Extract) : Option Bytes → Prop
  | some text => result.rc = 0 ∧ cstr result.out = text
  | none => result.rc = -1

theorem Reads.unique {result : Extract} {a b : Option Bytes} (ha : Reads result a)
    (hb : Reads result b) : a = b := by
  cases a with
  | none =>
    cases b with
    | none => rfl
    | some t => exact absurd (hb.1.symm.trans ha) (by decide)
  | some s =>
    cases b with
    | none => exact absurd (ha.1.symm.trans hb) (by decide)
    | some t => rw [← ha.2, ← hb.2]

section Values

variable (json key out : Bytes) (value : Option (Doc .value))

/-- The buffer has room for the value. -/
def HasRoom : Prop := out ≠ [] ∧ ∀ u, value = some u → (rawText u).length < out.length

/-- Each of the four getters gives the value, if it is of a kind that the getter supports. -/
def ReadsValue : Prop :=
  Reads (jsonGetString json key out) (value.bind decodedString) ∧
  Reads (jsonGetRawValue json key out) (value.map rawText) ∧
  Reads (jsonGetObject json key out) (value.bind (compoundText isObject)) ∧
  Reads (jsonGetArray json key out) (value.bind (compoundText isArray))

/-- Into every buffer that has room for it, the getters read the value that the object has
under the key itself. -/
def ReadsOwn (json key : Bytes) (v : Doc .value) : Prop :=
  ∀ out, HasRoom out (ownValue key v) → ReadsValue json key out (ownValue key v)

end Values

/-- Two strings of one text, two other values of one text, or none twice. -/
def Alike (a b : Option (Doc .value)) : Prop :=
  a.bind decodedString = b.bind decodedString ∧ a.map rawText = b.map rawText

instance (a b : Option (Doc .value)) : Decidable (Alike a b) :=
  inferInstanceAs (Decidable (_ ∧ _))

/-- Values that are alike begin with the same bracket. -/
theorem Alike.compound {a b : Option (Doc .value)} (h : Alike a b)
    {kind : Doc .value → Bool} {bracket : UInt8}
    (hkind : ∀ u : Doc .value, kind u = true ↔ u.text.head? = some bracket)
    (hstring : ∀ s, kind (.string s) = false) :
    a.bind (compoundText kind) = b.bind (compoundText kind) := by
  obtain ⟨hdecoded, hraw⟩ := h
  cases a with
  | none =>
    cases b with
    | none => rfl
    | some v => cases hraw
  | some u =>
    cases b with
    | none => cases hraw
    | some v =>
      simp only [Option.bind_some, Option.map_some, Option.some.injEq] at hdecoded hraw ⊢
      by_cases hu : ∃ s, u = .string s
      · obtain ⟨s, rfl⟩ := hu
        cases v with
        | string t => rw [compoundText, compoundText, hstring, hstring]; rfl
        | _ => cases hdecoded
      · have hv : ∀ t, v ≠ .string t := by
          rintro t rfl
          cases u with
          | string s => exact hu ⟨s, rfl⟩
          | _ => cases hdecoded
        rw [rawText_of_not_string fun s hs => hu ⟨s, hs⟩, rawText_of_not_string hv] at hraw
        have hsame : kind u = kind v := by
          rw [Bool.eq_iff_iff, hkind, hkind, hraw]
        rw [compoundText, compoundText, hsame, hraw]

theorem reads_copied {text out : Bytes} (hnul : 0 ∉ text) (hroom : text.length < out.length) :
    Reads (copied text out) (some text) := by
  rw [copied, if_pos hroom]
  exact ⟨rfl, cstr_store_zero hnul⟩

theorem reads_copiedWhole {text out : Bytes} (hnul : 0 ∉ text)
    (hroom : text.length < out.length) : Reads (copiedWhole text out) (some text) := by
  rw [copiedWhole, if_pos hroom]
  exact ⟨rfl, cstr_store_zero hnul⟩

section Located

variable {json key : Bytes} {found : Option (Doc .value)} (h : Located json key found)
  (hnul : ∀ u, found = some u → 0 ∉ u.text) {out : Bytes} (hroom : HasRoom out found)
include h hnul hroom

/-- With room the getters give the value that the search finds. -/
theorem reads_located : ReadsValue json key out found := by
  rw [ReadsValue, jsonGetString_located h hroom.1, jsonGetRawValue_located h hroom.1,
    jsonGetObject_located h hroom.1, jsonGetArray_located h hroom.1]
  cases found with
  | none => exact ⟨rfl, rfl, rfl, rfl⟩
  | some u =>
    have hu : 0 ∉ u.text := hnul u rfl
    have hfits : (rawText u).length < out.length := hroom.2 u rfl
    have hcompound : ∀ kind : Doc .value → Bool, (kind u = true → rawText u = u.text) →
        Reads (readCompound kind (some u) out) ((some u).bind (compoundText kind)) := by
      intro kind hraw
      simp only [readCompound, Option.bind_some, compoundText]
      by_cases hkind : kind u = true
      · rw [if_pos hkind, if_pos hkind]
        rw [hraw hkind] at hfits
        exact reads_copiedWhole hu hfits
      · rw [if_neg hkind, if_neg hkind]
        rfl
    cases u with
    | string s =>
      have hraw : 0 ∉ decode s.raw :=
        nul_notMem_decode fun h0 => hu (by simp [Doc.text, StrLit.text, h0])
      have hobject : isObject (.string s) ≠ true := Bool.false_ne_true
      have harray : isArray (.string s) ≠ true := Bool.false_ne_true
      exact ⟨reads_copied hraw hfits, reads_copied hraw hfits,
        hcompound isObject fun h => absurd h hobject, hcompound isArray fun h => absurd h harray⟩
    | scalar | emptyArray | array | emptyObject | object =>
      exact ⟨rfl, reads_copiedWhole hu hfits, hcompound isObject fun _ => rfl,
        hcompound isArray fun _ => rfl⟩

end Located

theorem isObject_iff (u : Doc .value) : isObject u = true ↔ u.text.head? = some lbrace := by
  have h := (head?_text u []).2.1
  rw [List.append_nil] at h
  exact h.symm

theorem isArray_iff (u : Doc .value) : isArray u = true ↔ u.text.head? = some lbracket := by
  have h := (head?_text u []).2.2
  rw [List.append_nil] at h
  exact h.symm

/-- A buffer with room for two values. -/
theorem exists_room (a b : Option (Doc .value)) : ∃ out, HasRoom out a ∧ HasRoom out b := by
  let size : Option (Doc .value) → ℕ := fun v => ((v.map rawText).getD []).length
  have hroom : ∀ c n, size c < n → HasRoom (List.replicate n 0) c := by
    intro c n hlt
    refine ⟨List.ne_nil_of_length_pos (by rw [List.length_replicate]; omega), fun u hu => ?_⟩
    rw [List.length_replicate]
    subst hu
    exact hlt
  exact ⟨List.replicate (size a + size b + 1) 0, hroom a _ (by omega), hroom b _ (by omega)⟩

/-- **When the getters read the object's own member.**  For a key without commas and colons,
and for any other one that the search meets between no two strings of the text, that is
exactly when the first member at any depth that is taken for the key has a value like the one
that the object has under it, or there is neither. -/
theorem getters_read_own_iff {key : Bytes} (hk : PatternKey key) {v : Doc .value}
    (hlegal : v.legal = true) (w₀ w : Ws) (hclear : SearchKey key ∨ Clear key v w.text) :
    ReadsOwn (w₀.text ++ (v.text ++ w.text)) key v ↔
      Alike (firstNamed key v.allMembers) (ownValue key v) := by
  have hlocated : Located (w₀.text ++ (v.text ++ w.text)) key (firstNamed key v.allMembers) :=
    (located_clear hk v w (hclear.elim (fun h => clear_ws h v w) id)).of_ws hk w₀
  have hnul : ∀ u, firstNamed key v.allMembers = some u → 0 ∉ u.text :=
    fun u hu h0 => nul_notMem_text v hlegal (mem_text_of_firstNamed hu h0)
  constructor
  · intro hreads
    obtain ⟨out, hfound, hown⟩ := exists_room (firstNamed key v.allMembers) (ownValue key v)
    obtain ⟨hstring, hraw, -, -⟩ := reads_located hlocated hnul hfound
    obtain ⟨hstring', hraw', -, -⟩ := hreads out hown
    exact ⟨hstring.unique hstring', hraw.unique hraw'⟩
  · intro halike out hown
    have hroom : HasRoom out (firstNamed key v.allMembers) := by
      refine ⟨hown.1, fun u hu => ?_⟩
      have hraw := halike.2
      rw [hu, Option.map_some] at hraw
      obtain ⟨u', hu', hsame⟩ := Option.map_eq_some_iff.1 hraw.symm
      rw [← hsame]
      exact hown.2 u' hu'
    have h := reads_located hlocated hnul hroom
    rw [ReadsValue, halike.1, halike.2, halike.compound isObject_iff fun _ => rfl,
      halike.compound isArray_iff fun _ => rfl] at h
    exact h

/-- `{"l":["x","y"],",":12}`: the key `,` stands between two strings of the list, too. -/
def commaAfterList : Doc .value :=
  .object (.moreMembers (.bare ⟨ascii "l", rfl⟩)
    (.array (.moreElements .none (.string ⟨ascii "x", rfl⟩) .none
      (.element .none (.string ⟨ascii "y", rfl⟩) .none))) .none
    (.member (.bare ⟨ascii ",", rfl⟩) (.scalar ⟨ascii "12", by decide, rfl⟩) .none))

theorem getters_read_own_comma : ReadsOwn (Ws.none.text ++ (commaAfterList.text ++ Ws.none.text))
    (ascii ",") commaAfterList :=
  (getters_read_own_iff (by decide) rfl .none .none (Or.inr (by decide +kernel))).2
    (by decide +kernel)

/-- `{"a":{"id":1},"id":2}` -/
def nestedFirst : Doc .value :=
  .object (.moreMembers (.bare ⟨ascii "a", rfl⟩)
    (.object (.member (.bare ⟨ascii "id", rfl⟩) (.scalar ⟨ascii "1", by decide, rfl⟩) .none)) .none
    (.member (.bare ⟨ascii "id", rfl⟩) (.scalar ⟨ascii "2", by decide, rfl⟩) .none))

/-- `{"\"id":1,"id":2}` -/
def escapedFirst : Doc .value :=
  .object (.moreMembers (.bare ⟨ascii "\\\"id", rfl⟩) (.scalar ⟨ascii "1", by decide, rfl⟩) .none
    (.member (.bare ⟨ascii "id", rfl⟩) (.scalar ⟨ascii "2", by decide, rfl⟩) .none))

/-- `{"a":"b",",":2}` -/
def commaAfterString : Doc .value :=
  .object (.moreMembers (.bare ⟨ascii "a", rfl⟩) (.string ⟨ascii "b", rfl⟩) .none
    (.member (.bare ⟨ascii ",", rfl⟩) (.scalar ⟨ascii "2", by decide, rfl⟩) .none))

/-- The object's own `id` is `2`, but a member of the same name inside an earlier value is
read in its place, and so is one whose name ends in a quote and the key; an own member `,`
behind a string is not found. -/
theorem getter_misses_own_member :
    nestedFirst.legal = true ∧ escapedFirst.legal = true ∧ commaAfterString.legal = true ∧
    (ownValue (ascii "id") nestedFirst).map Doc.text = some (ascii "2") ∧
    (ownValue (ascii "id") escapedFirst).map Doc.text = some (ascii "2") ∧
    (ownValue (ascii ",") commaAfterString).map Doc.text = some (ascii "2") ∧
    Reads (jsonGetRawValue nestedFirst.text (ascii "id") (List.replicate 8 0))
      (some (ascii "1")) ∧
    Reads (jsonGetRawValue escapedFirst.text (ascii "id") (List.replicate 8 0))
      (some (ascii "1")) ∧
    Reads (jsonGetRawValue commaAfterString.text (ascii ",") (List.replicate 8 0)) none := by
  refine ⟨rfl, rfl, rfl, by decide +kernel, by decide +kernel, by decide +kernel, ?_, ?_, ?_⟩
  all_goals
    unfold Reads
    decide +kernel

end IotIde
