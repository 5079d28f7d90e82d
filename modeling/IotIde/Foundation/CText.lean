import Mathlib

/-!
# Byte strings, C strings and fixed-size buffers

The vocabulary in which the C sources are read.  A text is a list of bytes, a
pointer into a text is the suffix that starts there, and a `char` array is the
list of all its bytes, so that what a failed call leaves behind in a buffer can
be talked about.

* `ascii` — the bytes of a literal;
* `cstr` — the C string held by a buffer, and `cstr_fill` for reading back what
  `store` wrote;
* `snprintf` — formatting into an array of a given size, cut to fit;
* `strstr` — substring search, with `strstr_cons_ne` and `strstr_of_prefix` for
  moving it forward;
* `decimal` and `atoi` — numbers as text, and `atoi_decimal` for reading them back.
-/

namespace CText

/-- A byte string. -/
abbrev Bytes := List UInt8

/-! ## Bytes with a name -/

abbrev quote : UInt8 := 34
abbrev backslash : UInt8 := 92
abbrev comma : UInt8 := 44
abbrev colon : UInt8 := 58
abbrev lbrace : UInt8 := 123
abbrev rbrace : UInt8 := 125
abbrev lbracket : UInt8 := 91
abbrev rbracket : UInt8 := 93
abbrev newline : UInt8 := 10
abbrev slash : UInt8 := 47
abbrev dot : UInt8 := 46

/-- The bytes of an ASCII literal. -/
def ascii (s : String) : Bytes := s.toList.map fun c => UInt8.ofNat c.toNat

/-- `isspace` in the C locale: space, and tab to carriage return. -/
def isSpace (b : UInt8) : Bool := b == 32 || (9 ≤ b && b ≤ 13)

/-! ## Buffers -/

/-- The C string a buffer holds: everything before the first NUL. -/
def cstr (buf : Bytes) : Bytes := buf.takeWhile (· ≠ 0)

/-- `char buf[size] = "text"`: the rest of the array is zero. -/
def initBuffer (size : ℕ) (text : Bytes) : Bytes :=
  text ++ List.replicate (size - text.length) 0

/-- `memcpy(buf + idx, data, n)`. -/
def store (buf : Bytes) (idx : ℕ) (data : Bytes) : Bytes :=
  buf.take idx ++ data ++ buf.drop (idx + data.length)

/-- The C string `snprintf(buf, size, ...)` leaves in an array of `size > 0` bytes
when the whole formatted text is `text`. -/
def snprintf (size : ℕ) (text : Bytes) : Bytes := text.take (size - 1)

theorem snprintf_of_lt {size : ℕ} {text : Bytes} (h : text.length < size) :
    snprintf size text = text :=
  List.take_of_length_le (by omega)

theorem snprintf_length_lt {size : ℕ} (text : Bytes) (h : 0 < size) :
    (snprintf size text).length < size := by
  rw [snprintf, List.length_take]
  omega

theorem nul_notMem_snprintf {size : ℕ} {text : Bytes} (h : 0 ∉ text) : 0 ∉ snprintf size text :=
  fun hmem => h (List.mem_of_mem_take hmem)

theorem store_length {buf data : Bytes} {idx : ℕ} (h : idx + data.length ≤ buf.length) :
    (store buf idx data).length = buf.length := by
  simp only [store, List.length_append, List.length_take, List.length_drop]
  omega

/-- Two adjacent stores are one. -/
theorem store_store {buf a b : Bytes} {idx : ℕ} (h : idx + a.length ≤ buf.length) :
    store (store buf idx a) (idx + a.length) b = store buf idx (a ++ b) := by
  have hlen : (buf.take idx ++ a).length = idx + a.length := by
    rw [List.length_append, List.length_take]
    omega
  have htake : (store buf idx a).take (idx + a.length) = buf.take idx ++ a := by
    rw [store, List.take_append_of_le_length (by omega), ← hlen, List.take_length]
  have hdrop : (store buf idx a).drop (idx + a.length + b.length) =
      buf.drop (idx + (a ++ b).length) := by
    rw [store, List.drop_append, List.drop_eq_nil_of_le (by omega), hlen, List.nil_append,
      List.drop_drop, List.length_append]
    congr 1
    omega
  rw [store, htake, hdrop, store]
  simp only [List.append_assoc]

@[simp] theorem store_nil (buf : Bytes) (idx : ℕ) : store buf idx [] = buf := by
  simp [store]

/-- Reading back a string that was stored with its terminator. -/
theorem cstr_append_nul {text rest : Bytes} (h : 0 ∉ text) : cstr (text ++ 0 :: rest) = text := by
  induction text with
  | nil => simp [cstr]
  | cons b bs ih =>
    simp only [List.mem_cons, not_or] at h
    have hb : b ≠ 0 := Ne.symm h.1
    have htail : (bs ++ 0 :: rest).takeWhile (· ≠ 0) = bs := ih h.2
    simp only [cstr, List.cons_append, List.takeWhile_cons, hb, ne_eq, not_false_eq_true,
      decide_true, if_true]
    rw [htail]

/-- What stands behind a terminator is not part of the string. -/
theorem cstr_append_zero (text rest : Bytes) : cstr (text ++ 0 :: rest) = cstr text := by
  induction text with
  | nil => rfl
  | cons b bs ih =>
    simp only [cstr, List.cons_append, List.takeWhile_cons] at ih ⊢
    split
    · rw [ih]
    · rfl

/-- So a text stored with its terminator reads the same from every buffer. -/
theorem cstr_store_nul (buf text : Bytes) : cstr (store buf 0 (text ++ [0])) = cstr text := by
  rw [show store buf 0 (text ++ [0]) = text ++ 0 :: buf.drop (text.length + 1) by simp [store],
    cstr_append_zero]

/-- A string stored at the start of a buffer is the string the buffer holds. -/
theorem cstr_store_zero {buf text : Bytes} (h : 0 ∉ text) :
    cstr (store buf 0 (text ++ [0])) = text := by
  rw [show store buf 0 (text ++ [0]) = text ++ 0 :: buf.drop (text.length + 1) by simp [store]]
  exact cstr_append_nul h

/-- With a NUL inside it, the string held ends there. -/
theorem cstr_store_zero_length_le (buf text : Bytes) :
    (cstr (store buf 0 (text ++ [0]))).length ≤ text.length := by
  have hcut : ∀ (text rest : Bytes), (cstr (text ++ 0 :: rest)).length ≤ text.length := by
    intro text rest
    induction text with
    | nil => simp [cstr]
    | cons b bs ih =>
      simp only [cstr, List.cons_append, List.takeWhile_cons] at ih ⊢
      split
      · rw [List.length_cons, List.length_cons]
        omega
      · exact Nat.zero_le _
  have h := hcut text (buf.drop (text ++ [0]).length)
  rwa [store, List.take_zero, List.nil_append, Nat.zero_add, List.append_assoc,
    List.singleton_append]

theorem initBuffer_getLast? {size : ℕ} {text : Bytes} (h : text.length < size) :
    (initBuffer size text).getLast? = some 0 := by
  obtain ⟨n, hn⟩ : ∃ n, size - text.length = n + 1 := ⟨size - text.length - 1, by omega⟩
  rw [initBuffer, hn, List.replicate_succ', ← List.append_assoc, List.getLast?_concat]

theorem initBuffer_length {size : ℕ} {text : Bytes} (h : text.length ≤ size) :
    (initBuffer size text).length = size := by
  rw [initBuffer, List.length_append, List.length_replicate]
  omega

/-- An array holds the string it was initialised with. -/
theorem cstr_initBuffer {size : ℕ} {text : Bytes} (h : 0 ∉ text) (hlen : text.length < size) :
    cstr (initBuffer size text) = text := by
  obtain ⟨n, hn⟩ : ∃ n, size - text.length = n + 1 := ⟨size - text.length - 1, by omega⟩
  rw [initBuffer, hn, List.replicate_succ, cstr_append_nul h]

theorem cstr_of_nul_free {text : Bytes} (h : 0 ∉ text) : cstr text = text := by
  refine List.takeWhile_eq_self_iff.2 fun b hb => ?_
  simpa using fun hc : b = 0 => h (hc ▸ hb)

/-- A C string never contains its own terminator. -/
theorem nul_notMem_cstr (buf : Bytes) : 0 ∉ cstr buf := by
  intro h
  simpa using List.mem_takeWhile_imp h

/-- A terminated array holds a string shorter than itself. -/
theorem cstr_length_lt {buf : Bytes} (h : 0 ∈ buf) : (cstr buf).length < buf.length := by
  obtain ⟨u, v, rfl, hu⟩ := List.eq_append_cons_of_mem h
  rw [cstr_append_nul hu, List.length_append, List.length_cons]
  omega

/-! ## Searching -/

/-- `strstr`: the first suffix of the text that starts with `pat`. -/
def strstr (pat : Bytes) : Bytes → Option Bytes
  | [] => if pat = [] then some [] else none
  | c :: cs => if pat <+: c :: cs then some (c :: cs) else strstr pat cs

/-- A match can only start at the first byte of the pattern. -/
theorem strstr_cons_ne {p c : UInt8} {pat cs : Bytes} (h : c ≠ p) :
    strstr (p :: pat) (c :: cs) = strstr (p :: pat) cs := by
  rw [strstr, if_neg]
  intro hp
  exact h (List.cons_prefix_cons.1 hp).1.symm

theorem strstr_of_prefix {pat cs : Bytes} (h : pat <+: cs) : strstr pat cs = some cs := by
  cases cs with
  | nil => rw [strstr, if_pos (List.prefix_nil.1 h)]
  | cons c cs => rw [strstr, if_pos h]

theorem strstr_cons_of_not_prefix {pat cs : Bytes} {c : UInt8} (h : ¬ pat <+: c :: cs) :
    strstr pat (c :: cs) = strstr pat cs := by
  rw [strstr, if_neg h]

/-- What is found is a suffix of the text that starts with the pattern. -/
theorem strstr_some {pat : Bytes} : ∀ {cs found : Bytes}, strstr pat cs = some found →
    found <:+ cs ∧ pat <+: found := by
  intro cs
  induction cs with
  | nil =>
    intro found h
    rw [strstr] at h
    split at h
    · rename_i hp
      cases h
      exact ⟨List.suffix_refl _, hp ▸ List.prefix_refl _⟩
    · cases h
  | cons c cs ih =>
    intro found h
    rw [strstr] at h
    split at h
    · rename_i hp
      cases h
      exact ⟨List.suffix_refl _, hp⟩
    · obtain ⟨hs, hp⟩ := ih h
      exact ⟨hs.trans (List.suffix_cons c cs), hp⟩

/-! ## Numbers as text -/

/-- The digits of a natural number, as `%d` and `%lld` print them. -/
def decimalNat (n : ℕ) : Bytes := (Nat.toDigits 10 n).map fun c => UInt8.ofNat c.toNat

/-- `%d` and `%lld`. -/
def decimal (n : ℤ) : Bytes :=
  if n < 0 then 45 :: decimalNat n.natAbs else decimalNat n.natAbs

def isDigit (b : UInt8) : Bool := 48 ≤ b && b ≤ 57

/-- What holds of the ten digits holds of a digit. -/
theorem forall_isDigit {P : UInt8 → Prop} (h : ∀ n : Fin 10, P (UInt8.ofNat (48 + n)))
    {b : UInt8} (hb : isDigit b = true) : P b := by
  simp only [isDigit, Bool.and_eq_true, decide_eq_true_eq, UInt8.le_iff_toNat_le] at hb
  have hlo : 48 ≤ b.toNat := hb.1
  have hhi : b.toNat ≤ 57 := hb.2
  have hdigit := h ⟨b.toNat - 48, by omega⟩
  rwa [show 48 + (b.toNat - 48) = b.toNat by omega, UInt8.ofNat_toNat] at hdigit

/-- The value of a run of leading digits, most significant first. -/
def digitsValue (acc : ℕ) : Bytes → ℕ
  | [] => acc
  | b :: bs => if isDigit b then digitsValue (acc * 10 + (b.toNat - 48)) bs else acc

/-- `strtol(text, NULL, 10)` with a 64-bit `long`: leading white space, an optional
sign, digits, and saturation at the ends of the range. -/
def strtol (text : Bytes) : ℤ :=
  let body := text.dropWhile isSpace
  let value : ℤ := match body with
    | [] => 0
    | b :: bs =>
      if b = 45 then -(digitsValue 0 bs : ℤ)
      else if b = 43 then (digitsValue 0 bs : ℤ)
      else (digitsValue 0 (b :: bs) : ℤ)
  max (-2 ^ 63) (min (2 ^ 63 - 1) value)

/-- `atoi`: `strtol` cut down to a 32-bit `int`. -/
def atoi (text : Bytes) : ℤ := (strtol text).bmod (2 ^ 32)

theorem toNat_of_isDigit {c : Char} (h : c.isDigit = true) : 48 ≤ c.toNat ∧ c.toNat ≤ 57 := by
  simpa [Char.isDigit, UInt32.le_iff_toNat_le] using h

/-- A digit is one as a byte too. -/
theorem isDigit_ofNat {c : Char} (h : c.isDigit = true) :
    isDigit (UInt8.ofNat c.toNat) = true := by
  obtain ⟨hlo, hhi⟩ := toNat_of_isDigit h
  have hmod : c.toNat % 256 = c.toNat := Nat.mod_eq_of_lt (by omega)
  simp only [isDigit, Bool.and_eq_true, decide_eq_true_eq, UInt8.le_iff_toNat_le,
    UInt8.toNat_ofNat', hmod]
  exact ⟨hlo, hhi⟩

theorem isDigit_of_mem_toDigits {n : ℕ} {c : Char} (h : c ∈ Nat.toDigits 10 n) :
    c.isDigit = true :=
  Nat.isDigit_of_mem_toDigits (by norm_num) (by norm_num) h

theorem mem_decimalNat {n : ℕ} {b : UInt8} (h : b ∈ decimalNat n) : isDigit b = true := by
  obtain ⟨c, hc, rfl⟩ := List.mem_map.1 h
  exact isDigit_ofNat (isDigit_of_mem_toDigits hc)

/-- A printed number consists of digits and perhaps a minus sign. -/
theorem mem_decimal {n : ℤ} {b : UInt8} (h : b ∈ decimal n) : isDigit b = true ∨ b = 45 := by
  unfold decimal at h
  split at h
  · rcases List.mem_cons.1 h with rfl | h
    · exact Or.inr rfl
    · exact Or.inl (mem_decimalNat h)
  · exact Or.inl (mem_decimalNat h)

theorem nul_notMem_decimal (n : ℤ) : 0 ∉ decimal n := by
  intro h
  rcases mem_decimal h with h | h
  · exact absurd h (by decide)
  · exact absurd h (by decide)

/-- A number that fits a `long long` has at most nineteen digits. -/
theorem decimal_length_le {n : ℕ} (h : n < 2 ^ 63) : (decimal n).length ≤ 19 := by
  have hpos : ¬ (n : ℤ) < 0 := by omega
  rw [decimal, if_neg hpos, Int.natAbs_natCast, decimalNat, List.length_map]
  exact (Nat.length_toDigits_le_iff (by norm_num) (by norm_num)).2 (by omega)

theorem decimalNat_ne_nil (n : ℕ) : decimalNat n ≠ [] := by
  simp [decimalNat, Nat.toDigits_ne_nil]

theorem decimal_ne_nil (n : ℤ) : decimal n ≠ [] := by
  unfold decimal
  split_ifs
  · exact List.cons_ne_nil _ _
  · exact decimalNat_ne_nil _

/-! ## Reading a printed number -/

/-- Reading digits as bytes is reading them as characters. -/
theorem digitsValue_map {cs : List Char} (hcs : ∀ c ∈ cs, c.isDigit = true) : ∀ acc : ℕ,
    digitsValue acc (cs.map fun c => UInt8.ofNat c.toNat) = Nat.ofDigitChars 10 cs acc := by
  induction cs with
  | nil => exact fun _ => rfl
  | cons c cs ih =>
    intro acc
    have hc : c.isDigit = true := hcs c List.mem_cons_self
    obtain ⟨hlo, hhi⟩ := toNat_of_isDigit hc
    have hbyte : (UInt8.ofNat c.toNat).toNat = c.toNat := by
      rw [UInt8.toNat_ofNat', Nat.mod_eq_of_lt (by omega)]
    rw [List.map_cons, digitsValue, if_pos (isDigit_ofNat hc),
      ih fun c' hc' => hcs c' (List.mem_cons_of_mem _ hc'), Nat.ofDigitChars_cons, hbyte,
      mul_comm]
    rfl

theorem digitsValue_decimalNat (n : ℕ) : digitsValue 0 (decimalNat n) = n := by
  rw [decimalNat, digitsValue_map fun c hc => isDigit_of_mem_toDigits hc,
    Nat.ofDigitChars_ten_toDigits]

/-- The first digit of a number is neither white space nor a sign. -/
theorem strtol_decimalNat {n : ℕ} (h : n < 2 ^ 63) : strtol (decimalNat n) = n := by
  obtain ⟨b, bs, hb⟩ := List.exists_cons_of_ne_nil (decimalNat_ne_nil n)
  have hdigit : isDigit b = true := mem_decimalNat (n := n) (by rw [hb]; exact List.mem_cons_self)
  have hspace : isSpace b = false :=
    forall_isDigit (P := fun b => isSpace b = false) (by decide) hdigit
  have hminus : b ≠ 45 := forall_isDigit (P := fun b => b ≠ 45) (by decide) hdigit
  have hplus : b ≠ 43 := forall_isDigit (P := fun b => b ≠ 43) (by decide) hdigit
  have hvalue : digitsValue 0 (b :: bs) = n := hb ▸ digitsValue_decimalNat n
  rw [hb, strtol, List.dropWhile_cons_of_neg (by simp [hspace])]
  simp only [if_neg hminus, if_neg hplus, hvalue]
  omega

/-- A number that fits an `int` is read back as it was printed. -/
theorem atoi_decimal {n : ℤ} (hlo : -2 ^ 31 ≤ n) (hhi : n < 2 ^ 31) : atoi (decimal n) = n := by
  have hstrtol : strtol (decimal n) = n := by
    by_cases hneg : n < 0
    · have hminus : isSpace 45 = false := by decide
      rw [decimal, if_pos hneg, strtol, List.dropWhile_cons_of_neg (by simp [hminus])]
      simp only [if_true, digitsValue_decimalNat]
      omega
    · rw [decimal, if_neg hneg, strtol_decimalNat (by omega)]
      omega
  rw [atoi, hstrtol]
  refine Int.bmod_eq_of_le ?_ ?_ <;> omega

/-- A number has its digits, and perhaps a sign. -/
theorem decimal_length_le_succ {n : ℤ} {k : ℕ} (hk : 0 < k) (h : n.natAbs < 10 ^ k) :
    (decimal n).length ≤ k + 1 := by
  have hdigits : (decimalNat n.natAbs).length ≤ k := by
    rw [decimalNat, List.length_map]
    exact (Nat.length_toDigits_le_iff (by norm_num) hk).2 h
  unfold decimal
  split_ifs
  · rw [List.length_cons]
    omega
  · omega

/-- An `int` has at most ten digits, and perhaps a sign. -/
theorem decimal_int_length_le {n : ℤ} (hlo : -2 ^ 31 ≤ n) (hhi : n < 2 ^ 31) :
    (decimal n).length ≤ 11 :=
  decimal_length_le_succ (by norm_num) (by omega)

/-- A `long long` has at most nineteen digits, and perhaps a sign. -/
theorem decimal_long_length_le {n : ℤ} (hlo : -2 ^ 63 ≤ n) (hhi : n < 2 ^ 63) :
    (decimal n).length ≤ 20 :=
  decimal_length_le_succ (by norm_num) (by omega)

end CText
