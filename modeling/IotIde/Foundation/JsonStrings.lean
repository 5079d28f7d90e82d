import IotIde.Foundation.JsonText

/-!
# What a string literal stands for

The contents of a string literal are text with escapes, and RFC 8259 says what text they
stand for: an escape of one letter is a byte, and `\u` with four hexadecimal digits is a
UTF-16 code unit, where two units may form one character.

* `stringParts`, `joinParts`, `stringValue` — the text of raw contents, in UTF-8;
* `stringValue_length_lt` — an escape makes the text shorter than the contents;
* `stringValue_cons`, `stringValue_escape`, `stringValue_plain` — the text byte by byte;
* `isNumeric_of_isNumber`, `nul_notMem_text` — the bytes of numbers, and of legal texts.
-/

namespace JsonText

open CText

/-! ## The text of a literal -/

def hexValue (b : UInt8) : ℕ :=
  if isDigit b then b.toNat - 48 else if 97 ≤ b then b.toNat - 87 else b.toNat - 55

/-- The byte that an escape of one letter stands for. -/
def escapeMeaning (e : UInt8) : UInt8 :=
  if e = 98 then 8
  else if e = 102 then 12
  else if e = 110 then 10
  else if e = 114 then 13
  else if e = 116 then 9
  else e

/-- A byte of the text, or a code unit that is written as an escape. -/
inductive StringPart
  | byte (b : UInt8)
  | unit (n : ℕ)

def stringParts : Bytes → List StringPart
  | [] => []
  | b :: rest =>
    if b = backslash then
      match rest with
      | 117 :: h₁ :: h₂ :: h₃ :: h₄ :: rest' =>
        .unit (((hexValue h₁ * 16 + hexValue h₂) * 16 + hexValue h₃) * 16 + hexValue h₄) ::
          stringParts rest'
      | e :: rest' => .byte (escapeMeaning e) :: stringParts rest'
      | [] => []
    else .byte b :: stringParts rest

/-- A character in UTF-8; what is no character is the replacement character. -/
def utf8 (n : ℕ) : Bytes :=
  String.utf8EncodeChar (Char.ofNat (if n < 0xD800 ∨ 0xE000 ≤ n ∧ n < 0x110000 then n else 0xFFFD))

def isHigh (n : ℕ) : Bool := 0xD800 ≤ n && n < 0xDC00

def isLow (n : ℕ) : Bool := 0xDC00 ≤ n && n < 0xE000

/-- A high and a low surrogate are one character. -/
def joinParts : List StringPart → Bytes
  | [] => []
  | .byte b :: parts => b :: joinParts parts
  | .unit high :: .unit low :: parts =>
    if isHigh high && isLow low then
      utf8 (0x10000 + (high - 0xD800) * 0x400 + (low - 0xDC00)) ++ joinParts parts
    else utf8 high ++ joinParts (.unit low :: parts)
  | .unit n :: parts => utf8 n ++ joinParts parts

/-- The text that raw string contents stand for. -/
def stringValue (raw : Bytes) : Bytes := joinParts (stringParts raw)

/-- `"é\n😀"`, all escaped. -/
example : stringValue (ascii "\\u00e9\\n\\uD83D\\ude00") = [195, 169, 10, 240, 159, 152, 128] := by
  decide +kernel

/-! ## Lengths -/

theorem utf8_length_le (n : ℕ) : (utf8 n).length ≤ 4 := by
  rw [utf8, String.length_utf8EncodeChar]
  exact Char.utf8Size_le_four _

/-- The most bytes that a part can come to. -/
def StringPart.weight : StringPart → ℕ
  | byte _ => 1
  | unit _ => 4

def partsWeight (parts : List StringPart) : ℕ := (parts.map StringPart.weight).sum

theorem partsWeight_cons (part : StringPart) (parts : List StringPart) :
    partsWeight (part :: parts) = part.weight + partsWeight parts := by
  rw [partsWeight, List.map_cons, List.sum_cons, partsWeight]

theorem joinParts_length_le (parts : List StringPart) :
    (joinParts parts).length ≤ partsWeight parts := by
  fun_induction joinParts parts with
  | case1 => exact le_refl 0
  | case2 b parts ih =>
    simp only [partsWeight_cons, StringPart.weight, List.length_cons]
    omega
  | case3 high low parts hpair ih =>
    have hutf := utf8_length_le (0x10000 + (high - 0xD800) * 0x400 + (low - 0xDC00))
    simp only [partsWeight_cons, StringPart.weight, List.length_append]
    omega
  | case4 high low parts hpair ih =>
    have hutf := utf8_length_le high
    simp only [partsWeight_cons, StringPart.weight, List.length_append] at ih ⊢
    omega
  | case5 n parts hpair ih =>
    have hutf := utf8_length_le n
    simp only [partsWeight_cons, StringPart.weight, List.length_append]
    omega

theorem partsWeight_stringParts_le (raw : Bytes) : partsWeight (stringParts raw) ≤ raw.length := by
  fun_induction stringParts raw with
  | case1 => exact le_refl 0
  | case2 h₁ h₂ h₃ h₄ rest ih =>
    simp only [partsWeight_cons, StringPart.weight, List.length_cons]
    omega
  | case3 e rest _ ih =>
    simp only [partsWeight_cons, StringPart.weight, List.length_cons]
    omega
  | case4 => exact Nat.zero_le _
  | case5 b rest _ ih =>
    simp only [partsWeight_cons, StringPart.weight, List.length_cons]
    omega

theorem stringValue_length_le (raw : Bytes) : (stringValue raw).length ≤ raw.length :=
  (joinParts_length_le _).trans (partsWeight_stringParts_le raw)

/-- An escape is longer than what it stands for. -/
theorem stringValue_length_lt {raw : Bytes} (h : backslash ∈ raw) :
    (stringValue raw).length < raw.length := by
  refine (joinParts_length_le _).trans_lt ?_
  fun_induction stringParts raw with
  | case1 => cases h
  | case2 h₁ h₂ h₃ h₄ rest ih =>
    have hrest := partsWeight_stringParts_le rest
    simp only [partsWeight_cons, StringPart.weight, List.length_cons]
    omega
  | case3 e rest _ ih =>
    have hrest := partsWeight_stringParts_le rest
    simp only [partsWeight_cons, StringPart.weight, List.length_cons]
    omega
  | case4 => exact Nat.zero_lt_one
  | case5 b rest hb ih =>
    have hrest := ih ((List.mem_cons.1 h).resolve_left (Ne.symm hb))
    simp only [partsWeight_cons, StringPart.weight, List.length_cons]
    omega

/-! ## Byte by byte -/

theorem stringParts_cons {b : UInt8} (h : b ≠ backslash) (rest : Bytes) :
    stringParts (b :: rest) = .byte b :: stringParts rest := by
  rw [stringParts.eq_def]
  exact if_neg h

theorem stringParts_escape {e : UInt8} (h : e ≠ 117) (rest : Bytes) :
    stringParts (backslash :: e :: rest) = .byte (escapeMeaning e) :: stringParts rest := by
  rw [stringParts.eq_def]
  dsimp only
  rw [if_pos rfl]
  split
  · rename_i heq
    exact absurd (List.cons.inj heq).1 h
  · rename_i heq
    obtain ⟨rfl, rfl⟩ := List.cons.inj heq
    rfl
  · rename_i heq
    cases heq

theorem stringValue_cons {b : UInt8} (h : b ≠ backslash) (rest : Bytes) :
    stringValue (b :: rest) = b :: stringValue rest := by
  rw [stringValue, stringParts_cons h]
  rfl

theorem stringValue_escape {e : UInt8} (h : e ≠ 117) (rest : Bytes) :
    stringValue (backslash :: e :: rest) = escapeMeaning e :: stringValue rest := by
  rw [stringValue, stringParts_escape h]
  rfl

theorem stringValue_plain {raw : Bytes} (h : backslash ∉ raw) : stringValue raw = raw := by
  induction raw with
  | nil => rfl
  | cons b rest ih =>
    simp only [List.mem_cons, not_or] at h
    rw [stringValue_cons (Ne.symm h.1), ih h.2]

/-- Some escape is one of a code unit. -/
def usesUnits : Bytes → Bool
  | [] => false
  | b :: rest =>
    if b = backslash then
      match rest with
      | e :: rest' => e == 117 || usesUnits rest'
      | [] => false
    else usesUnits rest

/-- Text that may stand in a literal as it is. -/
def isPlainByte (b : UInt8) : Bool := 32 ≤ b && b != quote && b != backslash

theorem backslash_notMem_of_plain {text : Bytes} (h : text.all isPlainByte = true) :
    backslash ∉ text :=
  fun hmem => absurd (List.all_eq_true.1 h backslash hmem) (by decide)

theorem wellEscaped_of_plain {text : Bytes} (h : text.all isPlainByte = true) :
    wellEscaped text = true := by
  induction text with
  | nil => rfl
  | cons b rest ih =>
    simp only [List.all_cons, Bool.and_eq_true] at h
    obtain ⟨hb, hrest⟩ := h
    simp only [isPlainByte, Bool.and_eq_true, bne_iff_ne, ne_eq] at hb
    exact wellEscaped_plain hb.1.2 hb.2 (ih hrest)

/-- Contents without a backslash are legal exactly when they are plain. -/
theorem legalRaw_iff_plain {raw : Bytes} (h : backslash ∉ raw) :
    Doc.legalRaw raw = true ↔ raw.all isPlainByte = true := by
  induction raw with
  | nil => exact ⟨fun _ => rfl, fun _ => rfl⟩
  | cons b rest ih =>
    simp only [List.mem_cons, not_or] at h
    have hb : b ≠ backslash := Ne.symm h.1
    rw [Doc.legalRaw.eq_def]
    dsimp only
    rw [if_neg hb, List.all_cons, Bool.and_eq_true, Bool.and_eq_true, ih h.2]
    simp [isPlainByte, hb]

/-! ## The bytes of legal texts -/

def isNumeric (b : UInt8) : Bool :=
  isDigit b || b == 43 || b == 45 || b == 46 || b == 101 || b == 69

/-- `bs` is numeric up to `rest`. -/
def NumericTo (rest bs : Bytes) : Prop := ∃ ds, bs = ds ++ rest ∧ ds.all isNumeric = true

namespace NumericTo

theorem refl (bs : Bytes) : NumericTo bs bs := ⟨[], rfl, rfl⟩

theorem cons {rest bs : Bytes} {b : UInt8} (hb : isNumeric b = true) (h : NumericTo rest bs) :
    NumericTo rest (b :: bs) := by
  obtain ⟨ds, rfl, hds⟩ := h
  exact ⟨b :: ds, rfl, by rw [List.all_cons, hb, hds, Bool.and_true]⟩

theorem trans {rest mid bs : Bytes} (h : NumericTo mid bs) (h' : NumericTo rest mid) :
    NumericTo rest bs := by
  obtain ⟨ds, rfl, hds⟩ := h
  obtain ⟨es, rfl, hes⟩ := h'
  exact ⟨ds ++ es, by rw [List.append_assoc], by rw [List.all_append, hds, hes, Bool.and_true]⟩

theorem dropWhile (bs : Bytes) : NumericTo (bs.dropWhile isDigit) bs := by
  refine ⟨bs.takeWhile isDigit, List.takeWhile_append_dropWhile.symm, ?_⟩
  refine List.all_eq_true.2 fun b hb => ?_
  have hdigit : isDigit b = true := List.mem_takeWhile_imp hb
  simp [isNumeric, hdigit]

theorem stripDigits {bs rest : Bytes} (h : Doc.stripDigits bs = some rest) : NumericTo rest bs := by
  cases bs with
  | nil => cases h
  | cons b bs =>
    simp only [Doc.stripDigits] at h
    split_ifs at h with hb
    cases h
    exact (dropWhile bs).cons (by simp [isNumeric, hb])

theorem stripInteger {bs rest : Bytes} (h : Doc.stripInteger bs = some rest) :
    NumericTo rest bs := by
  unfold Doc.stripInteger at h
  split at h
  · cases h
    exact (refl _).cons (by decide)
  · exact stripDigits h

theorem stripFraction {bs rest : Bytes} (h : Doc.stripFraction bs = some rest) :
    NumericTo rest bs := by
  unfold Doc.stripFraction at h
  split at h
  · exact (stripDigits h).cons (by decide)
  · cases h
    exact refl _

theorem stripExponent {bs rest : Bytes} (h : Doc.stripExponent bs = some rest) :
    NumericTo rest bs := by
  cases bs with
  | nil =>
    cases h
    exact refl _
  | cons b bs =>
    simp only [Doc.stripExponent] at h
    split_ifs at h with hb
    · have hnumeric : isNumeric b = true := by rcases hb with rfl | rfl <;> decide
      refine cons hnumeric ?_
      split at h
      · exact (stripDigits h).cons (by decide)
      · exact (stripDigits h).cons (by decide)
      · exact stripDigits h
    · cases h
      exact refl _

end NumericTo

/-- A number is made of digits, signs, a point and an exponent. -/
theorem isNumeric_of_isNumber {text : Bytes} (h : Doc.isNumber text = true) :
    text.all isNumeric = true := by
  have hbody : ∀ bs : Bytes, ((Doc.stripInteger bs).bind fun t =>
      (Doc.stripFraction t).bind Doc.stripExponent) = some [] → bs.all isNumeric = true := by
    intro bs hbs
    obtain ⟨t, hinteger, hbs⟩ := Option.bind_eq_some_iff.1 hbs
    obtain ⟨t', hfraction, hexponent⟩ := Option.bind_eq_some_iff.1 hbs
    obtain ⟨ds, rfl, hds⟩ := ((NumericTo.stripInteger hinteger).trans
      (NumericTo.stripFraction hfraction)).trans (NumericTo.stripExponent hexponent)
    rwa [List.append_nil]
  unfold Doc.isNumber at h
  simp only [beq_iff_eq] at h
  split at h
  · rw [List.all_cons, hbody _ h]
    rfl
  · exact hbody _ h

theorem isPlainByte_of_isNumeric {b : UInt8} (h : isNumeric b = true) : isPlainByte b = true := by
  simp only [isNumeric, Bool.or_eq_true, beq_iff_eq] at h
  rcases h with ((((h | rfl) | rfl) | rfl) | rfl) | rfl
  · exact forall_isDigit (P := fun b => isPlainByte b = true) (by decide) h
  all_goals decide

/-- White space before another byte is no white space. -/
theorem Ws.text_eq_nil (w : Ws) {c : UInt8} {rest rest' : Bytes} (hc : isJsonWs c = false)
    (h : w.text ++ rest = c :: rest') : w.text = [] := by
  cases hw : w.text with
  | nil => rfl
  | cons b bs =>
    have hb : isJsonWs b = true := List.all_eq_true.1 w.ok b (by simp [hw])
    rw [hw] at h
    rw [(List.cons.inj h).1, hc] at hb
    cases hb

theorem nul_notMem_ws (w : Ws) : 0 ∉ w.text :=
  fun h => absurd (List.all_eq_true.1 w.ok 0 h) (by decide)

theorem nul_notMem_legalRaw {raw : Bytes} (h : Doc.legalRaw raw = true) : 0 ∉ raw := by
  fun_induction Doc.legalRaw raw with
  | case1 => exact List.not_mem_nil
  | case2 h₁ h₂ h₃ h₄ rest ih =>
    simp only [Bool.and_eq_true] at h
    have hhex : ∀ {b : UInt8}, Doc.isHex b = true → 0 ≠ b := by
      rintro b hb rfl
      exact absurd hb (by decide)
    simp only [List.mem_cons, not_or]
    exact ⟨by decide, by decide, hhex h.1.1.1.1, hhex h.1.1.1.2, hhex h.1.1.2, hhex h.1.2, ih h.2⟩
  | case3 e rest _ ih =>
    simp only [Bool.and_eq_true] at h
    simp only [List.mem_cons, not_or]
    refine ⟨by decide, ?_, ih h.2⟩
    rintro rfl
    exact absurd h.1 (by decide)
  | case4 => cases h
  | case5 b rest hb ih =>
    simp only [Bool.and_eq_true] at h
    simp only [List.mem_cons, not_or]
    refine ⟨?_, ih h.2⟩
    rintro rfl
    exact absurd h.1.1 (by decide)

theorem nul_notMem_legalScalar {text : Bytes} (h : Doc.legalScalar text = true) : 0 ∉ text := by
  simp only [Doc.legalScalar, Bool.or_eq_true, beq_iff_eq] at h
  rcases h with ((rfl | rfl) | rfl) | h
  · decide
  · decide
  · decide
  · exact fun hmem => absurd (List.all_eq_true.1 (isNumeric_of_isNumber h) 0 hmem) (by decide)

/-- A legal text is a C string. -/
theorem nul_notMem_text {p : Part} (t : Doc p) (h : t.legal = true) : 0 ∉ t.text := by
  have hlit : ∀ s : StrLit, Doc.legalRaw s.raw = true → 0 ∉ s.text := by
    intro s hs
    simp [StrLit.text, nul_notMem_legalRaw hs, quote]
  have hname : ∀ n : Name, Doc.legalRaw n.key.raw = true → 0 ∉ n.text := by
    intro n hn
    simp [Name.text, nul_notMem_ws, hlit n.key hn, colon]
  induction t with
  | scalar s => exact nul_notMem_legalScalar h
  | string s => exact hlit s h
  | emptyArray w => simp [Doc.text, nul_notMem_ws, lbracket, rbracket]
  | array es ih => simp [Doc.text, ih h, lbracket, rbracket]
  | emptyObject w => simp [Doc.text, nul_notMem_ws, lbrace, rbrace]
  | object ms ih => simp [Doc.text, ih h, lbrace, rbrace]
  | element w v w' ih => simp [Doc.text, nul_notMem_ws, ih h]
  | moreElements w v w' rest ihv ih =>
    simp only [Doc.legal, Bool.and_eq_true] at h
    simp [Doc.text, nul_notMem_ws, ihv h.1, ih h.2, comma]
  | member n v w ih =>
    simp only [Doc.legal, Bool.and_eq_true] at h
    simp [Doc.text, nul_notMem_ws, hname n h.1, ih h.2]
  | moreMembers n v w rest ihv ih =>
    simp only [Doc.legal, Bool.and_eq_true] at h
    simp [Doc.text, nul_notMem_ws, hname n h.1.1, ihv h.1.2, ih h.2, comma]

theorem legal_of_mem_topMembers : ∀ ms : Doc .members, ms.legal = true →
    ∀ m ∈ ms.topMembers, m.2.legal = true
  | .member n v w => by
    intro h m hm
    simp only [Doc.legal, Bool.and_eq_true] at h
    rw [List.mem_singleton.1 hm]
    exact h.2
  | .moreMembers n v w rest => by
    intro h m hm
    simp only [Doc.legal, Bool.and_eq_true] at h
    rcases List.mem_cons.1 hm with rfl | hm
    · exact h.1.2
    · exact legal_of_mem_topMembers rest h.2 m hm

/-- The members of a legal object are legal. -/
theorem legal_of_mem_ownMembers {v : Doc .value} (h : v.legal = true) {m : StrLit × Doc .value}
    (hm : m ∈ v.ownMembers) : m.2.legal = true := by
  cases v with
  | object ms => exact legal_of_mem_topMembers ms h m hm
  | _ => cases hm

end JsonText
