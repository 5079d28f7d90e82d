import IotIde.Json.Utils

/-!
# String values: the decoder and the escaper

The loops of `json_copy_string_value` and `json_escape_string` write into fixed
buffers byte by byte.  Here they are reduced to two functions on texts, `decode` and
`escape`:

* `jsonGetStringAt_text` — reading a string literal puts its decoded contents in the
  buffer if they fit and otherwise leaves as many bytes of them as there was room for;
* `jsonEscapeString_of_fits` and `escapeAlloc_eq` — escaping succeeds whenever the
  buffer is large enough, and `escapeAlloc`'s always is;
* `decode_escape` and `wellEscaped_escape` — the escaped text is the contents of a
  string literal, and decodes to the original.
-/

namespace IotIde

open CText JsonText

/-! ## Decoding -/

/-- The text that `json_copy_string_value` makes of raw string contents. -/
def decode : Bytes → Bytes
  | [] => []
  | ch :: cursor =>
    if ch = backslash then
      match cursor with
      | esc :: cursor' => unescape esc :: decode cursor'
      | [] => [ch]
    else ch :: decode cursor

theorem decode_plain {ch : UInt8} (h : ch ≠ backslash) (cursor : Bytes) :
    decode (ch :: cursor) = ch :: decode cursor := by
  rw [decode.eq_def]
  exact if_neg h

theorem decode_escaped (esc : UInt8) (cursor : Bytes) :
    decode (backslash :: esc :: cursor) = unescape esc :: decode cursor := by
  rw [decode, if_pos rfl]

/-- Without a backslash there is nothing to decode. -/
theorem decode_of_notMem {raw : Bytes} (h : backslash ∉ raw) : decode raw = raw := by
  induction raw with
  | nil => rfl
  | cons ch cursor ih =>
    simp only [List.mem_cons, not_or] at h
    rw [decode_plain (Ne.symm h.1), ih h.2]

theorem unescape_ne_zero {b : UInt8} (h : b ≠ 0) : unescape b ≠ 0 := by
  unfold unescape
  split_ifs <;> first | decide | exact h

theorem decode_length_le (raw : Bytes) : (decode raw).length ≤ raw.length := by
  fun_induction decode raw with
  | case1 => exact le_rfl
  | case2 esc cursor' ih => simp only [List.length_cons]; omega
  | case3 => exact le_rfl
  | case4 ch cursor h ih => simp only [List.length_cons]; omega

/-- Decoding makes no terminator out of other bytes. -/
theorem nul_notMem_decode {raw : Bytes} (h : 0 ∉ raw) : 0 ∉ decode raw := by
  fun_induction decode raw with
  | case1 => exact h
  | case2 esc cursor' ih =>
    simp only [List.mem_cons, not_or] at h ⊢
    exact ⟨Ne.symm (unescape_ne_zero (Ne.symm h.2.1)), ih h.2.2⟩
  | case3 => exact h
  | case4 ch cursor hch ih =>
    simp only [List.mem_cons, not_or] at h ⊢
    exact ⟨h.1, ih h.2⟩

/-- The loop of `json_copy_string_value`, in one piece: the decoded text with its
terminator if it fits, and else the part of it that fits before the last byte. -/
theorem jsonCopyStringValueLoop_eq (src : Bytes) :
    ∀ (idx : ℕ) (out : Bytes), idx < out.length →
      jsonCopyStringValueLoop src idx out =
        if idx + (decode src).length < out.length then
          ⟨0, store out idx (decode src ++ [0])⟩
        else ⟨-1, store out idx ((decode src).take (out.length - 1 - idx))⟩ := by
  -- one byte written, whatever it was read from
  have hput : ∀ (b : UInt8) (d : Bytes) (idx : ℕ) (out : Bytes) (next : Bytes → Extract),
      idx < out.length →
      (∀ o, o.length = out.length → idx + 1 < o.length → next o =
        if idx + 1 + d.length < o.length then ⟨0, store o (idx + 1) (d ++ [0])⟩
        else ⟨-1, store o (idx + 1) (d.take (o.length - 1 - (idx + 1)))⟩) →
      (if out.length ≤ idx + 1 then ⟨-1, out⟩ else next (store out idx [b])) =
        if idx + (b :: d).length < out.length then ⟨0, store out idx (b :: d ++ [0])⟩
        else ⟨-1, store out idx ((b :: d).take (out.length - 1 - idx))⟩ := by
    intro b d idx out next hidx hnext
    by_cases hfull : out.length ≤ idx + 1
    · rw [if_pos hfull, if_neg (by simp only [List.length_cons]; omega),
        show out.length - 1 - idx = 0 by omega, List.take_zero, store_nil]
    · have hlen : (store out idx [b]).length = out.length :=
        store_length (by simp only [List.length_singleton]; omega)
      have hroom : idx + [b].length ≤ out.length := by
        simp only [List.length_singleton]; omega
      have hjoin : ∀ t, store (store out idx [b]) (idx + 1) t = store out idx (b :: t) :=
        fun t => store_store hroom
      rw [if_neg hfull, hnext _ hlen (by rw [hlen]; omega), hlen, hjoin, hjoin, List.length_cons,
        show idx + 1 + d.length = idx + (d.length + 1) by omega,
        show out.length - 1 - idx = out.length - 1 - (idx + 1) + 1 by omega,
        List.take_succ_cons]
      rfl
  fun_induction decode src with
  | case1 =>
    intro idx out hidx
    rw [jsonCopyStringValueLoop, List.length_nil, if_pos (by omega), List.nil_append]
  | case2 esc cursor' ih =>
    intro idx out hidx
    rw [jsonCopyStringValueLoop, if_pos rfl]
    exact hput _ _ idx out (jsonCopyStringValueLoop cursor' (idx + 1)) hidx
      fun o _ ho => ih (idx + 1) o ho
  | case3 =>
    intro idx out hidx
    rw [jsonCopyStringValueLoop, if_pos rfl]
    refine hput _ [] idx out (jsonCopyStringValueLoop [] (idx + 1)) hidx fun o _ ho => ?_
    rw [jsonCopyStringValueLoop, List.length_nil, if_pos (by omega), List.nil_append]
  | case4 ch cursor hch ih =>
    intro idx out hidx
    rw [jsonCopyStringValueLoop.eq_def]
    simp only [if_neg hch]
    exact hput _ _ idx out (jsonCopyStringValueLoop cursor (idx + 1)) hidx
      fun o _ ho => ih (idx + 1) o ho

/-! ## Where a string literal ends -/

theorem jsonFindStringEnd_raw {raw : Bytes} (h : wellEscaped raw = true) (rest : Bytes) :
    jsonFindStringEnd false (raw ++ quote :: rest) = some (quote :: rest) := by
  refine wellEscaped_induction
    (P := fun raw => jsonFindStringEnd false (raw ++ quote :: rest) = some (quote :: rest))
    ?_ ?_ ?_ raw h
  · rfl
  · intro b raw hq hb _ ih
    rw [List.cons_append, jsonFindStringEnd]
    simp only [Bool.false_eq_true, if_false, hb, hq]
    exact ih
  · intro b raw _ ih
    rw [List.cons_append, List.cons_append, jsonFindStringEnd]
    simp only [Bool.false_eq_true, if_false, if_true]
    rw [jsonFindStringEnd]
    simp only [if_true]
    exact ih

/-- So a literal ends in one place. -/
theorem wellEscaped_unique {raw raw' rest rest' : Bytes} (h : wellEscaped raw = true)
    (h' : wellEscaped raw' = true) (heq : raw ++ quote :: rest = raw' ++ quote :: rest') :
    raw = raw' ∧ rest = rest' := by
  have hend := jsonFindStringEnd_raw h rest
  rw [heq, jsonFindStringEnd_raw h' rest'] at hend
  obtain ⟨-, rfl⟩ := List.cons.inj (Option.some.inj hend)
  exact ⟨List.append_cancel_right heq, rfl⟩

/-- Where a literal ends that has a quote behind the bytes `raw`: at that quote, unless the
last of them escapes it or an earlier quote has ended the literal. -/
def EndsAround (raw rest : Bytes) (stop : Option Bytes) : Prop :=
  stop = some (quote :: rest) ∨ stop = jsonFindStringEnd false rest ∨
    ∃ inside, inside.length < raw.length ∧ stop = some (quote :: (inside ++ quote :: rest))

theorem EndsAround.cons {raw rest : Bytes} {stop : Option Bytes} (b : UInt8)
    (h : EndsAround raw rest stop) : EndsAround (b :: raw) rest stop := by
  rcases h with h | h | ⟨inside, hlen, h⟩
  · exact Or.inl h
  · exact Or.inr (Or.inl h)
  · exact Or.inr (Or.inr ⟨inside, Nat.lt_succ_of_lt hlen, h⟩)

theorem jsonFindStringEnd_around (rest raw : Bytes) : ∀ escaped : Bool,
    EndsAround raw rest (jsonFindStringEnd escaped (raw ++ quote :: rest)) := by
  induction raw with
  | nil =>
    intro escaped
    cases escaped with
    | false => exact Or.inl rfl
    | true => exact Or.inr (Or.inl rfl)
  | cons b raw ih =>
    intro escaped
    rw [List.cons_append, jsonFindStringEnd]
    split_ifs with hescaped hbackslash hquote
    · exact (ih false).cons b
    · exact (ih true).cons b
    · exact Or.inr (Or.inr ⟨raw, Nat.lt_succ_self _, by rw [hquote]⟩)
    · exact (ih false).cons b

theorem between_append (a b : Bytes) : between (a ++ b) b = a := by
  rw [between, List.length_append, Nat.add_sub_cancel, List.take_left']
  rfl

/-- What a buffer holds after `text` was copied into it as far as it goes. -/
def copied (text out : Bytes) : Extract :=
  if text.length < out.length then ⟨0, store out 0 (text ++ [0])⟩
  else ⟨-1, store out 0 (text.take (out.length - 1))⟩

/-- Reading the string literal at the cursor decodes exactly its contents. -/
theorem jsonGetStringAt_text (s : StrLit) (rest : Bytes) {out : Bytes} (hout : out ≠ []) :
    jsonGetStringAt (s.text ++ rest) out = copied (decode s.raw) out := by
  have hpos : 0 < out.length := List.length_pos_iff.2 hout
  have htail : (s.text ++ rest).tail = s.raw ++ quote :: rest := by
    simp [StrLit.text]
  rw [jsonGetStringAt, htail, jsonFindStringEnd_raw s.escaped]
  simp only
  rw [jsonCopyStringValue, if_neg, between_append, jsonCopyStringValueLoop_eq _ _ _ hpos, copied]
  · simp only [zero_add, Nat.sub_zero]
  · rw [List.length_append]
    omega

/-! ## Escaping -/

/-- What `json_escape_string` writes for one byte. -/
def escapeByte (ch : UInt8) : Bytes := (replacement ch).getD [ch]

/-- The text that `json_escape_string` makes of its input. -/
def escape (text : Bytes) : Bytes := text.flatMap escapeByte

@[simp] theorem escape_nil : escape [] = [] := rfl

@[simp] theorem escape_cons (ch : UInt8) (text : Bytes) :
    escape (ch :: text) = escapeByte ch ++ escape text := rfl

/-- A byte is either copied or replaced by a backslash and the letter that stands for
it. -/
theorem escapeByte_cases (ch : UInt8) :
    (escapeByte ch = [ch] ∧ ch ≠ quote ∧ ch ≠ backslash) ∨
      ∃ e, escapeByte ch = [backslash, e] ∧ unescape e = ch ∧ e ≠ 0 := by
  unfold escapeByte replacement
  split_ifs with h₁ h₂ h₃ h₄ h₅
  · exact Or.inr ⟨backslash, rfl, by rw [h₁]; decide, by decide⟩
  · exact Or.inr ⟨quote, rfl, by rw [h₂]; decide, by decide⟩
  · exact Or.inr ⟨110, rfl, by rw [h₃]; decide, by decide⟩
  · exact Or.inr ⟨114, rfl, by rw [h₄]; decide, by decide⟩
  · exact Or.inr ⟨116, rfl, by rw [h₅]; decide, by decide⟩
  · exact Or.inl ⟨rfl, h₂, h₁⟩

theorem escapeByte_length_le (ch : UInt8) : (escapeByte ch).length ≤ 2 := by
  rcases escapeByte_cases ch with ⟨h, -, -⟩ | ⟨e, h, -, -⟩ <;> rw [h] <;> simp

/-- Escaping at most doubles a text. -/
theorem escape_length_le (text : Bytes) : (escape text).length ≤ 2 * text.length := by
  induction text with
  | nil => simp
  | cons ch text ih =>
    have := escapeByte_length_le ch
    rw [escape_cons, List.length_append, List.length_cons]
    omega

/-- Decoding undoes escaping. -/
theorem decode_escape (text : Bytes) : decode (escape text) = text := by
  induction text with
  | nil => rfl
  | cons ch text ih =>
    rcases escapeByte_cases ch with ⟨h, -, hb⟩ | ⟨e, h, he, -⟩
    · rw [escape_cons, h, List.singleton_append, decode_plain hb, ih]
    · rw [escape_cons, h, List.cons_append, List.singleton_append, decode_escaped, he, ih]

theorem length_le_escape (text : Bytes) : text.length ≤ (escape text).length := by
  have h := decode_length_le (escape text)
  rwa [decode_escape] at h

/-- An escaped text is the contents of a string literal: none of its quotes can end
the literal. -/
theorem wellEscaped_escape (text : Bytes) : wellEscaped (escape text) = true := by
  induction text with
  | nil => rfl
  | cons ch text ih =>
    rcases escapeByte_cases ch with ⟨h, hq, hb⟩ | ⟨e, h, -, -⟩
    · rw [escape_cons, h, List.singleton_append]
      exact wellEscaped_plain hq hb ih
    · rw [escape_cons, h, List.cons_append, List.singleton_append]
      exact ih

theorem nul_notMem_escape {text : Bytes} (h : 0 ∉ text) : 0 ∉ escape text := by
  induction text with
  | nil => simp
  | cons ch text ih =>
    simp only [List.mem_cons, not_or] at h
    rw [escape_cons, List.mem_append, not_or]
    refine ⟨?_, ih h.2⟩
    rcases escapeByte_cases ch with ⟨he, -, -⟩ | ⟨e, he, -, hne⟩
    · rw [he, List.mem_singleton]; exact h.1
    · rw [he]
      simp only [List.mem_cons, List.not_mem_nil, or_false, not_or]
      exact ⟨by decide, Ne.symm hne⟩

/-- A text without quotes, backslashes and control characters is escaped as itself. -/
theorem escape_eq_self {text : Bytes} (h : ∀ b ∈ text, replacement b = none) :
    escape text = text := by
  induction text with
  | nil => rfl
  | cons b text ih =>
    simp only [List.forall_mem_cons] at h
    rw [escape_cons, ih h.2, escapeByte, h.1]
    rfl

theorem escape_append (text text' : Bytes) : escape (text ++ text') = escape text ++ escape text' :=
  List.flatMap_append

/-- What a text that is cut to `size` can grow to, when the bytes it begins with do not. -/
theorem escape_snprintf_length_le {before : Bytes} (h : ∀ b ∈ before, replacement b = none)
    (rest : Bytes) (size : ℕ) : (escape (snprintf size (before ++ rest))).length ≤
      2 * (size - 1) - min before.length (size - 1) := by
  have hcut : snprintf size (before ++ rest) =
      before.take (size - 1) ++ rest.take (size - 1 - before.length) := List.take_append
  have hplain : escape (before.take (size - 1)) = before.take (size - 1) :=
    escape_eq_self fun b hb => h b (List.mem_of_mem_take hb)
  have hrest := escape_length_le (rest.take (size - 1 - before.length))
  rw [List.length_take] at hrest
  rw [hcut, escape_append, hplain, List.length_append, List.length_take]
  omega

theorem replacement_of_mem_decimal {n : ℤ} {b : UInt8} (hb : b ∈ decimal n) :
    replacement b = none := by
  rcases mem_decimal hb with h | rfl
  · exact forall_isDigit (P := fun b => replacement b = none) (by decide) h
  · decide

theorem escape_decimal (n : ℤ) : escape (decimal n) = decimal n :=
  escape_eq_self fun _ hb => replacement_of_mem_decimal hb

/-- The escaped text as a string literal. -/
def escapedLit (text : Bytes) : StrLit := ⟨escape text, wellEscaped_escape text⟩

/-- The name of a member as a format string spells it. -/
def keyName (key : String) : Name := .bare (escapedLit (ascii key))

/-- A number as a scalar. -/
def decimalScalar (n : ℤ) : Scalar where
  text := decimal n
  ne_nil := decimal_ne_nil n
  ok := by
    refine List.all_eq_true.2 fun b hb => ?_
    rcases mem_decimal hb with h | rfl
    · exact forall_isDigit (P := fun b => isScalarByte b = true) (by decide) h
    · decide

def boolScalar (b : Bool) : Scalar where
  text := if b then ascii "true" else ascii "false"
  ne_nil := by cases b <;> decide
  ok := by cases b <;> decide

/-- The loop of `json_escape_string` with enough room. -/
theorem jsonEscapeStringLoop_of_fits (text : Bytes) :
    ∀ (idx : ℕ) (out : Bytes), idx + (escape text).length + 1 < out.length →
      jsonEscapeStringLoop text idx out = ⟨0, store out idx (escape text ++ [0])⟩ := by
  induction text with
  | nil => intro idx out _; rfl
  | cons ch text ih =>
    intro idx out hfit
    rw [escape_cons, List.length_append] at hfit
    -- both branches write `escapeByte ch` and go on behind it
    have hnext : jsonEscapeStringLoop text (idx + (escapeByte ch).length)
        (store out idx (escapeByte ch)) = ⟨0, store out idx (escape (ch :: text) ++ [0])⟩ := by
      rw [ih, store_store (by omega), escape_cons, List.append_assoc]
      rw [store_length (by omega)]
      omega
    rw [jsonEscapeStringLoop]
    unfold escapeByte at hnext hfit
    cases hr : replacement ch with
    | some rep =>
      rw [hr] at hnext hfit
      simp only [Option.getD_some] at hnext hfit ⊢
      rw [if_neg (by omega)]
      exact hnext
    | none =>
      rw [hr] at hnext hfit
      simp only [Option.getD_none, List.length_singleton] at hnext hfit ⊢
      rw [if_neg (by omega)]
      exact hnext

theorem jsonEscapeString_of_fits {text out : Bytes} (h : (escape text).length + 1 < out.length) :
    jsonEscapeString text out = ⟨0, store out 0 (escape text ++ [0])⟩ := by
  rw [jsonEscapeString, if_neg (by omega)]
  exact jsonEscapeStringLoop_of_fits text 0 out (by omega)

/-- `escape_alloc` never runs out of room: it fails only with its `malloc`. -/
theorem escapeAlloc_eq {text : Bytes} (h : 0 ∉ text) (allocOk : Bool) :
    escapeAlloc allocOk text = if allocOk then some (escape text) else none := by
  have hfit : (escape text).length + 1 <
      (List.replicate (text.length * 2 + 32) (0 : UInt8)).length := by
    have := escape_length_le text
    rw [List.length_replicate]
    omega
  rw [escapeAlloc, jsonEscapeString_of_fits hfit]
  simp only [if_true, cstr_store_zero (nul_notMem_escape h)]

end IotIde
