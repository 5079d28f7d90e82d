import IotIde.Json.Defaults
import IotIde.Json.Fields

/-!
# String literals of RFC 8259, read and written

The decoder of `json_copy_string_value` takes every escape for one of a single letter, and
the escaper of `json_escape_string` knows five bytes.  The grammar has more of both.

* `partsWeight_le_decode` — a literal with a code unit decodes to more than its text;
* `literal_read_iff` — a legal literal is read as its text when it has no code unit;
* `jsonEscapeString_yields` — escaping fails, or stores the whole escaped text;
* `legalRaw_escape_iff` — what bytes a text may have for its escaped form to be legal;
* `escape_legal_iff` — the same for what `json_escape_string` leaves in the array;
* `stringValue_escape_text`, `legalScalar_decimal` — what is escaped or printed reads back.
-/

namespace IotIde

open CText JsonText

/-! ## Reading -/

/-- A call that succeeds and leaves `text` in the array. -/
def Extract.Yields (r : Extract) (text : Bytes) : Prop := r.rc = 0 ∧ cstr r.out = text

instance (r : Extract) (text : Bytes) : Decidable (r.Yields text) :=
  inferInstanceAs (Decidable (_ ∧ _))

theorem copied_yields {text out : Bytes} (hnul : 0 ∉ text) (hlen : text.length < out.length) :
    (copied text out).Yields text := by
  rw [copied, if_pos hlen]
  exact ⟨rfl, cstr_store_zero hnul⟩

theorem value?_of_yields {getter : Bytes → Extract} {size : ℕ} {text : Bytes}
    (h : (getter (List.replicate size 0)).Yields text) : Extract.value? getter size = some text := by
  rw [Extract.value?, if_pos h.1, h.2]

theorem ne_backslash_of_isHex {b : UInt8} (h : Doc.isHex b = true) : b ≠ backslash := by
  rintro rfl
  exact absurd h (by decide)

/-- The five bytes that the decoder makes of a code unit. -/
theorem decode_unit {h₁ h₂ h₃ h₄ : UInt8} (hh₁ : Doc.isHex h₁ = true) (hh₂ : Doc.isHex h₂ = true)
    (hh₃ : Doc.isHex h₃ = true) (hh₄ : Doc.isHex h₄ = true) (rest : Bytes) :
    decode (backslash :: 117 :: h₁ :: h₂ :: h₃ :: h₄ :: rest) =
      117 :: h₁ :: h₂ :: h₃ :: h₄ :: decode rest := by
  rw [decode_escaped, decode_plain (ne_backslash_of_isHex hh₁),
    decode_plain (ne_backslash_of_isHex hh₂), decode_plain (ne_backslash_of_isHex hh₃),
    decode_plain (ne_backslash_of_isHex hh₄)]
  rfl

/-- Decoding is never shorter than the parts of a literal, and longer when one is a code
unit: the unit comes to four bytes at most, and is decoded to five. -/
theorem partsWeight_le_decode {raw : Bytes} (h : Doc.legalRaw raw = true) :
    partsWeight (stringParts raw) + (if usesUnits raw then 1 else 0) ≤ (decode raw).length := by
  fun_induction Doc.legalRaw raw with
  | case1 => exact le_refl 0
  | case2 h₁ h₂ h₃ h₄ rest ih =>
    simp only [Bool.and_eq_true] at h
    have hrest := ih h.2
    rw [decode_unit h.1.1.1.1 h.1.1.1.2 h.1.1.2 h.1.2]
    simp only [stringParts, usesUnits, if_true, partsWeight_cons, StringPart.weight,
      List.length_cons] at hrest ⊢
    split_ifs at hrest ⊢ <;> omega
  | case3 e rest _ ih =>
    simp only [Bool.and_eq_true] at h
    have he : e ≠ 117 := by
      rintro rfl
      exact absurd h.1 (by decide)
    have hrest := ih h.2
    rw [stringParts_escape he, decode_escaped, usesUnits, if_pos rfl]
    simp only [partsWeight_cons, he, StringPart.weight, List.length_cons, beq_iff_eq,
      Bool.or_eq_true, false_or]
    omega
  | case4 => cases h
  | case5 b rest hb ih =>
    simp only [Bool.and_eq_true] at h
    have hrest := ih h.2
    have hunits : usesUnits (b :: rest) = usesUnits rest := by
      rw [usesUnits.eq_def]
      exact if_neg hb
    rw [stringParts_cons hb, decode_plain hb, hunits]
    simp only [partsWeight_cons, StringPart.weight, List.length_cons]
    omega

/-- So a literal with a code unit is not decoded to its text. -/
theorem decode_eq_stringValue_iff {raw : Bytes} (hlegal : Doc.legalRaw raw = true)
    (hraw : wellEscaped raw = true) : decode raw = stringValue raw ↔ usesUnits raw = false := by
  refine ⟨fun heq => ?_, decode_eq_stringValue hraw⟩
  have hdecode := partsWeight_le_decode hlegal
  have hvalue := joinParts_length_le (stringParts raw)
  rw [show joinParts (stringParts raw) = stringValue raw from rfl, ← heq] at hvalue
  cases hunits : usesUnits raw with
  | false => rfl
  | true =>
    rw [hunits, if_pos rfl] at hdecode
    omega

/-- An array with room for the text of a literal yields it when it is what the decoder
makes of the literal. -/
theorem copied_yields_iff {raw out : Bytes} (hlegal : Doc.legalRaw raw = true)
    (hraw : wellEscaped raw = true) (hnul : 0 ∉ stringValue raw)
    (hroom : (stringValue raw).length < out.length) :
    (copied (decode raw) out).Yields (stringValue raw) ↔ usesUnits raw = false := by
  rw [← decode_eq_stringValue_iff hlegal hraw]
  unfold copied Extract.Yields
  constructor
  · intro h
    by_cases hfits : (decode raw).length < out.length
    · rw [if_pos hfits] at h
      have hdecoded : 0 ∉ decode raw := nul_notMem_decode (nul_notMem_legalRaw hlegal)
      rw [← h.2]
      exact (cstr_store_zero hdecoded).symm
    · rw [if_neg hfits] at h
      exact absurd h.1 (by simp)
  · intro heq
    rw [heq, if_pos hroom]
    exact ⟨rfl, cstr_store_zero hnul⟩

/-- **Which literals are read as their text.**  Where a legal literal follows the key, the
two getters yield its text, in every array with room for it, exactly when no escape of it
is one of a code unit. -/
theorem literal_read_iff {json key rest : Bytes} {s : StrLit}
    (hvalue : jsonFindAfterKey json key = some (s.text ++ rest))
    (hlegal : Doc.legalRaw s.raw = true) (hnul : 0 ∉ stringValue s.raw) {out : Bytes}
    (hroom : (stringValue s.raw).length < out.length) :
    ((jsonGetString json key out).Yields (stringValue s.raw) ∧
      (jsonGetRawValue json key out).Yields (stringValue s.raw)) ↔ usesUnits s.raw = false := by
  have hout : out ≠ [] := List.ne_nil_of_length_pos (Nat.zero_lt_of_lt hroom)
  have hquote : (s.text ++ rest).head? = some quote := rfl
  have hstring : jsonGetString json key out = copied (decode s.raw) out := by
    simp only [jsonGetString, hvalue, hquote, if_true]
    exact jsonGetStringAt_text s rest hout
  have hrawValue : jsonGetRawValue json key out = copied (decode s.raw) out := by
    simp only [jsonGetRawValue, hvalue, hquote, if_true]
    exact jsonGetStringAt_text s rest hout
  rw [hstring, hrawValue, and_self]
  exact copied_yields_iff hlegal s.escaped hnul hroom

/-- Contents of the three escapes `\"`, `\\` and `\n`. -/
def letterEscapes : StrLit := ⟨ascii "\\\"\\\\\\n", by decide⟩

theorem literal_read_letterEscapes :
    ((jsonGetString (ascii "\x7b\"k\":" ++ (letterEscapes.text ++ ascii "\x7d")) (ascii "k")
        (List.replicate 8 0)).Yields (stringValue letterEscapes.raw) ∧
      (jsonGetRawValue (ascii "\x7b\"k\":" ++ (letterEscapes.text ++ ascii "\x7d")) (ascii "k")
        (List.replicate 8 0)).Yields (stringValue letterEscapes.raw)) ↔
    usesUnits letterEscapes.raw = false :=
  have hfind : jsonFindAfterKey (ascii "\x7b\"k\":" ++ (letterEscapes.text ++ ascii "\x7d"))
      (ascii "k") = some (letterEscapes.text ++ ascii "\x7d") := by decide +kernel
  literal_read_iff hfind (by decide) (by decide) (by decide)

/-- The literal `"\u00e9"` stands for one character of two bytes, and is read as the five
letters of its escape. -/
theorem code_unit_misread :
    let s : StrLit := ⟨ascii "\\u00e9", by decide⟩
    let json := ascii "\x7b\"k\":" ++ (s.text ++ ascii "\x7d")
    Doc.legalRaw s.raw = true ∧ stringValue s.raw = [195, 169] ∧
    (jsonGetString json (ascii "k") (List.replicate 64 0)).Yields (ascii "u00e9") ∧
    (jsonGetRawValue json (ascii "k") (List.replicate 64 0)).Yields (ascii "u00e9") := by
  decide +kernel

/-! ## Writing -/

/-- The loop of `json_escape_string` fails, or stores all that it was given. -/
theorem jsonEscapeStringLoop_cases (text : Bytes) : ∀ (idx : ℕ) (out : Bytes), idx < out.length →
    (jsonEscapeStringLoop text idx out).rc = -1 ∨
      jsonEscapeStringLoop text idx out = ⟨0, store out idx (escape text ++ [0])⟩ := by
  induction text with
  | nil => exact fun idx out _ => Or.inr rfl
  | cons ch text ih =>
    intro idx out hidx
    -- both branches that go on have written `escapeByte ch`
    have hnext : idx + (escapeByte ch).length + 1 < out.length →
        (jsonEscapeStringLoop text (idx + (escapeByte ch).length)
          (store out idx (escapeByte ch))).rc = -1 ∨
        jsonEscapeStringLoop text (idx + (escapeByte ch).length)
          (store out idx (escapeByte ch)) = ⟨0, store out idx (escape (ch :: text) ++ [0])⟩ := by
      intro hroom
      have hlen : (store out idx (escapeByte ch)).length = out.length := store_length (by omega)
      rcases ih (idx + (escapeByte ch).length) (store out idx (escapeByte ch)) (by omega) with h | h
      · exact Or.inl h
      · refine Or.inr ?_
        rw [h, store_store (by omega), escape_cons, List.append_assoc]
    rw [jsonEscapeStringLoop]
    unfold escapeByte at hnext
    cases hr : replacement ch with
    | some rep =>
      rw [hr, Option.getD_some] at hnext
      dsimp only
      by_cases hfull : out.length ≤ idx + rep.length + 1
      · exact Or.inl (by rw [if_pos hfull])
      · rw [if_neg hfull]
        exact hnext (by omega)
    | none =>
      rw [hr, Option.getD_none, List.length_singleton] at hnext
      dsimp only
      by_cases hfull : out.length ≤ idx + 2
      · exact Or.inl (by rw [if_pos hfull])
      · rw [if_neg hfull]
        exact hnext (by omega)

/-- A call that succeeds leaves the whole escaped text in the array. -/
theorem jsonEscapeString_yields {text out : Bytes} (hnul : 0 ∉ text)
    (h : (jsonEscapeString text out).rc = 0) :
    cstr (jsonEscapeString text out).out = escape text := by
  unfold jsonEscapeString at h ⊢
  by_cases hout : out.length = 0
  · rw [if_pos hout] at h
    exact absurd h (by simp)
  · rw [if_neg hout] at h ⊢
    rcases jsonEscapeStringLoop_cases text 0 out (Nat.pos_of_ne_zero hout) with hfail | hstored
    · rw [hfail] at h
      exact absurd h (by simp)
    · rw [hstored]
      exact cstr_store_zero (nul_notMem_escape hnul)

/-- What the escaper leaves of a byte is legal, unless it is a control character that it
has no escape for. -/
def escapedLegally (b : UInt8) : Bool := 32 ≤ b || b == newline || b == 13 || b == 9

theorem legalRaw_plain {b : UInt8} (h : b ≠ backslash) (rest : Bytes) :
    Doc.legalRaw (b :: rest) = (32 ≤ b && b ≠ quote && Doc.legalRaw rest) := by
  rw [Doc.legalRaw.eq_def]
  exact if_neg h

theorem legalRaw_escaped {e : UInt8} (h : e ≠ 117) (rest : Bytes) :
    Doc.legalRaw (backslash :: e :: rest) = (Doc.isEscape e && Doc.legalRaw rest) := by
  rw [Doc.legalRaw.eq_def]
  dsimp only
  rw [if_pos rfl]
  split
  · rename_i heq
    exact absurd (List.cons.inj heq).1 h
  · rename_i heq
    obtain ⟨rfl, rfl⟩ := List.cons.inj heq
    rfl
  · rename_i heq
    cases heq

/-- The five replacements are escapes of the grammar. -/
theorem isEscape_of_replacement {b : UInt8} {rep : Bytes} (h : replacement b = some rep) :
    ∃ e, rep = [backslash, e] ∧ Doc.isEscape e = true ∧ e ≠ 117 ∧ escapedLegally b = true := by
  unfold replacement at h
  split_ifs at h with h₁ h₂ h₃ h₄ h₅
  · exact ⟨backslash, (Option.some.inj h).symm, by decide, by decide, by rw [h₁]; decide⟩
  · exact ⟨quote, (Option.some.inj h).symm, by decide, by decide, by rw [h₂]; decide⟩
  · exact ⟨110, (Option.some.inj h).symm, by decide, by decide, by rw [h₃]; decide⟩
  · exact ⟨114, (Option.some.inj h).symm, by decide, by decide, by rw [h₄]; decide⟩
  · exact ⟨116, (Option.some.inj h).symm, by decide, by decide, by rw [h₅]; decide⟩

/-- A byte without a replacement is copied, and is legal from 32 on. -/
theorem escapedLegally_of_copied {b : UInt8} (h : replacement b = none) :
    b ≠ quote ∧ b ≠ backslash ∧ escapedLegally b = decide (32 ≤ b) := by
  unfold replacement at h
  split_ifs at h with h₁ h₂ h₃ h₄ h₅
  refine ⟨h₂, h₁, ?_⟩
  simp only [escapedLegally, beq_false_of_ne h₃, beq_false_of_ne h₄, beq_false_of_ne h₅,
    Bool.or_false]

/-- **Which texts have a legal escaped form.**  Those whose control characters are new
line, carriage return and tab. -/
theorem legalRaw_escape_iff (text : Bytes) :
    Doc.legalRaw (escape text) = true ↔ text.all escapedLegally = true := by
  induction text with
  | nil => exact ⟨fun _ => rfl, fun _ => rfl⟩
  | cons b text ih =>
    rw [escape_cons, escapeByte, List.all_cons, Bool.and_eq_true, ← ih]
    cases hr : replacement b with
    | some rep =>
      obtain ⟨e, rfl, he, hne, hb⟩ := isEscape_of_replacement hr
      rw [Option.getD_some, List.cons_append, List.singleton_append, legalRaw_escaped hne, he, hb]
      simp
    | none =>
      obtain ⟨hquote, hbackslash, hb⟩ := escapedLegally_of_copied hr
      rw [Option.getD_none, List.singleton_append, legalRaw_plain hbackslash, hb]
      simp [hquote]

/-- **When escaped text is legal JSON.**  Whenever `json_escape_string` succeeds on a C
string, its output between quotes is a legal literal exactly when the string has no control
character but new line, carriage return and tab. -/
theorem escape_legal_iff {text out : Bytes} (hnul : 0 ∉ text)
    (hok : (jsonEscapeString text out).rc = 0) :
    Doc.legalRaw (cstr (jsonEscapeString text out).out) = true ↔
      ∀ b ∈ text, 32 ≤ b ∨ b = newline ∨ b = 13 ∨ b = 9 := by
  rw [jsonEscapeString_yields hnul hok, legalRaw_escape_iff, List.all_eq_true]
  simp only [escapedLegally, Bool.or_eq_true, decide_eq_true_eq, beq_iff_eq, or_assoc]

theorem escape_legal_newline :
    Doc.legalRaw (cstr (jsonEscapeString (ascii "a\"b\n") (List.replicate 16 0)).out) = true ↔
      ∀ b ∈ ascii "a\"b\n", 32 ≤ b ∨ b = newline ∨ b = 13 ∨ b = 9 :=
  escape_legal_iff (by decide) (by decide)

/-- A line that a compiler colours: the escape character, 27, is copied as it is. -/
theorem control_character_copied :
    let text := 27 :: ascii "[31merror"
    text.all (fun b => b ≠ 0 ∧ b < 128) = true ∧
    (jsonEscapeString text (List.replicate 64 0)).rc = 0 ∧
    cstr (jsonEscapeString text (List.replicate 64 0)).out = 27 :: ascii "[31merror" ∧
    Doc.legalRaw (cstr (jsonEscapeString text (List.replicate 64 0)).out) = false := by
  decide +kernel

/-! ## What the program writes -/

/-- Escaping makes no code units. -/
theorem usesUnits_escape (text : Bytes) : usesUnits (escape text) = false := by
  induction text with
  | nil => rfl
  | cons b text ih =>
    rw [escape_cons, escapeByte]
    cases hr : replacement b with
    | none =>
      rw [Option.getD_none, List.singleton_append, usesUnits.eq_def]
      simp only [if_neg (escapedLegally_of_copied hr).2.1, ih]
    | some rep =>
      obtain ⟨e, rfl, -, he, -⟩ := isEscape_of_replacement hr
      rw [Option.getD_some, List.cons_append, List.singleton_append, usesUnits.eq_def]
      simp only [if_true, ih, Bool.or_false, beq_eq_false_iff_ne]
      exact he

theorem stringValue_escape_text (text : Bytes) : stringValue (escape text) = text := by
  rw [← decode_eq_stringValue (wellEscaped_escape text) (usesUnits_escape text), decode_escape]

/-- A positive number does not start with a zero. -/
theorem exists_decimalNat_cons {n : ℕ} (h : 0 < n) :
    ∃ b bs, decimalNat n = b :: bs ∧ b ≠ 48 := by
  induction n using Nat.strongRecOn with
  | ind n ih =>
    by_cases hlt : n < 10
    · refine ⟨UInt8.ofNat n.digitChar.toNat, [], ?_, ?_⟩
      · rw [decimalNat, Nat.toDigits_of_lt_base hlt]
        rfl
      · interval_cases n <;> decide
    · obtain ⟨b, bs, hcons, hb⟩ := ih (n / 10) (by omega) (by omega)
      refine ⟨b, bs ++ [UInt8.ofNat (n % 10).digitChar.toNat], ?_, hb⟩
      rw [decimalNat, Nat.toDigits_of_base_le (by norm_num) (by omega), List.map_append,
        ← decimalNat, hcons]
      rfl

theorem stripInteger_decimalNat (n : ℕ) : Doc.stripInteger (decimalNat n) = some [] := by
  by_cases hzero : n = 0
  · subst hzero
    decide
  · obtain ⟨b, bs, hcons, hb⟩ := exists_decimalNat_cons (Nat.pos_of_ne_zero hzero)
    have hdigits : ∀ c ∈ b :: bs, isDigit c = true := by
      intro c hc
      rw [← hcons] at hc
      exact mem_decimalNat hc
    have hstrip : Doc.stripInteger (b :: bs) = Doc.stripDigits (b :: bs) := by
      unfold Doc.stripInteger
      split
      · rename_i heq
        exact absurd (List.cons.inj heq).1 hb
      · rfl
    have hnone : bs.dropWhile isDigit = [] :=
      List.dropWhile_eq_nil_iff.2 fun c hc => hdigits c (List.mem_cons_of_mem b hc)
    rw [hcons, hstrip, Doc.stripDigits, if_pos (hdigits b List.mem_cons_self), hnone]

/-- A number is printed as JSON has them. -/
theorem legalScalar_decimal (n : ℤ) : Doc.legalScalar (decimal n) = true := by
  have hnumber : Doc.isNumber (decimal n) = true := by
    have hbody : ∀ k : ℕ, ((Doc.stripInteger (decimalNat k)).bind fun t =>
        (Doc.stripFraction t).bind Doc.stripExponent) = some [] := by
      intro k
      rw [stripInteger_decimalNat]
      rfl
    unfold Doc.isNumber decimal
    split_ifs with hneg
    · simp only [hbody, beq_self_eq_true]
    · obtain ⟨b, bs, hcons⟩ := List.exists_cons_of_ne_nil (decimalNat_ne_nil n.natAbs)
      have hminus : b ≠ 45 := by
        rintro rfl
        have hdigit := mem_decimalNat (show (45 : UInt8) ∈ decimalNat n.natAbs by simp [hcons])
        exact absurd hdigit (by decide)
      have hdigits := hbody n.natAbs
      rw [hcons] at hdigits ⊢
      split
      · rename_i heq
        exact absurd (List.cons.inj heq).1 hminus
      · exact beq_iff_eq.2 hdigits
  rw [Doc.legalScalar, hnumber, Bool.or_true]

end IotIde
