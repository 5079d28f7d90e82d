import IotIde.Json.Fields

/-!
# What a failed getter leaves

Callers put a default into the array they pass, and ignore the code that comes back.  That
works as long as a getter that fails has not written to the array.

* `Extract.Keeps` — a failed call has left the array alone;
* `literalAt` — the contents of the string that a key is followed by;
* `jsonGetString_eq`, `jsonGetRawValue_eq` — the getters by these contents;
* `jsonGetRawValue_length_le` — what is read is no longer than what is found;
* `getters_keep_iff` — they keep the array unless they find a string too long for it.
-/

namespace IotIde

open CText JsonText

/-- A call that fails leaves the array as it was. -/
def Extract.Keeps (r : Extract) (out : Bytes) : Prop := r.rc = -1 → r.out = out

instance (r : Extract) (out : Bytes) : Decidable (r.Keeps out) :=
  inferInstanceAs (Decidable (_ → _))

theorem Extract.Keeps.of_success {r : Extract} {out : Bytes} (h : r.rc = 0) : r.Keeps out := by
  intro hfail
  rw [h] at hfail
  cases hfail

/-- The contents of the string literal that the search for a key stops at. -/
def literalAt (json key : Bytes) : Option Bytes :=
  (jsonFindAfterKey json key).bind fun cursor =>
    if cursor.head? = some quote then
      (jsonFindStringEnd false cursor.tail).map fun stop => between cursor.tail stop
    else none

/-! ## The getters by what they find -/

/-- The end of a literal lies inside the text. -/
theorem jsonFindStringEnd_length_le {stop : Bytes} : ∀ {cursor : Bytes} {escaped : Bool},
    jsonFindStringEnd escaped cursor = some stop → stop.length ≤ cursor.length := by
  intro cursor
  induction cursor with
  | nil =>
    intro escaped h
    cases h
  | cons c cs ih =>
    intro escaped h
    rw [jsonFindStringEnd] at h
    split_ifs at h with hescaped hbackslash hquote
    · exact (ih h).trans (Nat.le_succ _)
    · exact (ih h).trans (Nat.le_succ _)
    · cases h
      exact le_rfl
    · exact (ih h).trans (Nat.le_succ _)

/-- Into an array without bytes nothing is copied. -/
theorem copied_nil (text : Bytes) : copied text [] = ⟨-1, []⟩ := by
  have hno : ¬ text.length < ([] : Bytes).length := Nat.not_lt_zero _
  rw [copied, if_neg hno]
  rfl

theorem jsonCopyStringValue_eq {start stop : Bytes} (h : stop.length ≤ start.length)
    (out : Bytes) :
    jsonCopyStringValue start stop out = copied (decode (between start stop)) out := by
  by_cases hout : out.length = 0
  · rw [List.length_eq_zero_iff.1 hout, copied_nil]
    rfl
  · rw [jsonCopyStringValue, if_neg (by omega),
      jsonCopyStringValueLoop_eq _ _ _ (Nat.pos_of_ne_zero hout), copied]
    simp only [zero_add, Nat.sub_zero]

/-- The string that opens at the cursor, by where it ends. -/
theorem jsonGetStringAt_eq (cursor out : Bytes) : jsonGetStringAt cursor out =
    match (jsonFindStringEnd false cursor.tail).map fun stop => between cursor.tail stop with
    | none => ⟨-1, out⟩
    | some raw => copied (decode raw) out := by
  rw [jsonGetStringAt]
  cases hstop : jsonFindStringEnd false cursor.tail with
  | none => rfl
  | some stop => exact jsonCopyStringValue_eq (jsonFindStringEnd_length_le hstop) out

theorem jsonGetString_eq (json key out : Bytes) : jsonGetString json key out =
    match literalAt json key with
    | none => ⟨-1, out⟩
    | some raw => copied (decode raw) out := by
  rw [jsonGetString, literalAt]
  cases jsonFindAfterKey json key with
  | none => rfl
  | some cursor =>
    simp only [Option.bind_some]
    by_cases hquote : cursor.head? = some quote
    · rw [if_pos hquote, if_pos hquote]
      exact jsonGetStringAt_eq cursor out
    · rw [if_neg hquote, if_neg hquote]

/-- What is not a string is written only once its length is known. -/
theorem jsonCopyTrimmed_keeps (start stop out : Bytes) :
    (jsonCopyTrimmed start stop out).Keeps out := by
  unfold jsonCopyTrimmed
  dsimp only
  by_cases hempty : out.length = 0 ∨ start.length < stop.length
  · rw [if_pos hempty]
    exact fun _ => rfl
  · rw [if_neg hempty]
    by_cases hlong : out.length ≤ (trim (between start stop)).length
    · rw [if_pos hlong]
      exact fun _ => rfl
    · rw [if_neg hlong]
      exact .of_success rfl

theorem jsonGetCompoundAt_keeps (openChar closeChar : UInt8) (cursor out : Bytes) :
    (jsonGetCompoundAt openChar closeChar cursor out).Keeps out := by
  unfold jsonGetCompoundAt
  cases jsonFindCompoundEnd cursor openChar closeChar with
  | none => exact fun _ => rfl
  | some stop => exact jsonCopyTrimmed_keeps cursor stop.tail out

theorem jsonGetObject_keeps (json key out : Bytes) : (jsonGetObject json key out).Keeps out := by
  unfold jsonGetObject
  cases jsonFindAfterKey json key with
  | none => exact fun _ => rfl
  | some cursor =>
    dsimp only
    by_cases hbrace : cursor.head? = some lbrace
    · rw [if_pos hbrace]
      exact jsonGetCompoundAt_keeps lbrace rbrace cursor out
    · rw [if_neg hbrace]
      exact fun _ => rfl

theorem jsonGetArray_keeps (json key out : Bytes) : (jsonGetArray json key out).Keeps out := by
  unfold jsonGetArray
  cases jsonFindAfterKey json key with
  | none => exact fun _ => rfl
  | some cursor =>
    dsimp only
    by_cases hbracket : cursor.head? = some lbracket
    · rw [if_pos hbracket]
      exact jsonGetCompoundAt_keeps lbracket rbracket cursor out
    · rw [if_neg hbracket]
      exact fun _ => rfl

/-- Where a string is found, `json_get_raw_value` does what `json_get_string` does. -/
theorem jsonGetRawValue_eq {json key raw : Bytes} (h : literalAt json key = some raw)
    (out : Bytes) : jsonGetRawValue json key out = copied (decode raw) out := by
  rw [jsonGetRawValue]
  unfold literalAt at h
  cases hcursor : jsonFindAfterKey json key with
  | none =>
    rw [hcursor] at h
    cases h
  | some cursor =>
    rw [hcursor, Option.bind_some] at h
    split_ifs at h with hquote
    simp only [if_pos hquote]
    rw [jsonGetStringAt_eq, h]

/-- Where none is found, it keeps the array. -/
theorem jsonGetRawValue_keeps {json key : Bytes} (h : literalAt json key = none)
    (out : Bytes) : (jsonGetRawValue json key out).Keeps out := by
  unfold jsonGetRawValue
  unfold literalAt at h
  cases hcursor : jsonFindAfterKey json key with
  | none => exact fun _ => rfl
  | some cursor =>
    rw [hcursor, Option.bind_some] at h
    dsimp only
    by_cases hquote : cursor.head? = some quote
    · rw [if_pos hquote] at h
      rw [if_pos hquote, jsonGetStringAt_eq, h]
      exact fun _ => rfl
    · rw [if_neg hquote]
      by_cases hbrace : cursor.head? = some lbrace
      · rw [if_pos hbrace]
        exact jsonGetCompoundAt_keeps lbrace rbrace cursor out
      · rw [if_neg hbrace]
        by_cases hbracket : cursor.head? = some lbracket
        · rw [if_pos hbracket]
          exact jsonGetCompoundAt_keeps lbracket rbracket cursor out
        · rw [if_neg hbracket]
          exact jsonCopyTrimmed_keeps _ _ out

/-! ## How much is read -/

theorem trim_length_le (text : Bytes) : (trim text).length ≤ text.length := by
  rw [trim, List.rdropWhile, List.length_reverse]
  refine (List.length_dropWhile_le _ _).trans ?_
  rw [List.length_reverse]
  exact List.length_dropWhile_le _ _

theorem between_length_le (start stop : Bytes) : (between start stop).length ≤ start.length := by
  rw [between, List.length_take]
  exact min_le_right _ _

theorem jsonCopyTrimmed_length_le (start stop out : Bytes) :
    (cstr (jsonCopyTrimmed start stop out).out).length ≤ max start.length (cstr out).length := by
  unfold jsonCopyTrimmed
  dsimp only
  by_cases hempty : out.length = 0 ∨ start.length < stop.length
  · rw [if_pos hempty]
    exact le_max_right _ _
  · rw [if_neg hempty]
    by_cases hlong : out.length ≤ (trim (between start stop)).length
    · rw [if_pos hlong]
      exact le_max_right _ _
    · rw [if_neg hlong]
      have htrim := (trim_length_le (between start stop)).trans (between_length_le start stop)
      exact ((cstr_store_zero_length_le out _).trans htrim).trans (le_max_left _ _)

theorem jsonGetCompoundAt_length_le (openChar closeChar : UInt8) (cursor out : Bytes) :
    (cstr (jsonGetCompoundAt openChar closeChar cursor out).out).length ≤
      max cursor.length (cstr out).length := by
  unfold jsonGetCompoundAt
  cases jsonFindCompoundEnd cursor openChar closeChar with
  | none => exact le_max_right _ _
  | some stop => exact jsonCopyTrimmed_length_le cursor stop.tail out

theorem jsonGetStringAt_length_le {cursor : Bytes} (hnul : 0 ∉ cursor) {size : ℕ}
    {initial : Bytes} (hinitial : initial.length < size) :
    (cstr (jsonGetStringAt cursor (initBuffer size initial)).out).length ≤
      max cursor.length (cstr (initBuffer size initial)).length := by
  rw [jsonGetStringAt_eq]
  cases jsonFindStringEnd false cursor.tail with
  | none => exact le_max_right _ _
  | some stop =>
    have hraw : 0 ∉ between cursor.tail stop :=
      fun h => hnul (List.mem_of_mem_tail (List.mem_of_mem_take h))
    simp only [Option.map_some]
    rw [cstr_copied (nul_notMem_decode hraw) hinitial]
    refine le_trans ?_ (le_max_left _ _)
    calc ((decode (between cursor.tail stop)).take (size - 1)).length
        ≤ (decode (between cursor.tail stop)).length := List.length_take_le' _ _
      _ ≤ (between cursor.tail stop).length := decode_length_le _
      _ ≤ cursor.tail.length := between_length_le _ _
      _ ≤ cursor.length := by
        rw [List.length_tail]
        exact Nat.sub_le _ _

/-- What `json_get_raw_value` leaves in the array is no longer than the text from the value
on, or than what the array held. -/
theorem jsonGetRawValue_length_le {json key cursor : Bytes}
    (hcursor : jsonFindAfterKey json key = some cursor) (hnul : 0 ∉ cursor) {size : ℕ}
    {initial : Bytes} (hinitial : initial.length < size) :
    (cstr (jsonGetRawValue json key (initBuffer size initial)).out).length ≤
      max cursor.length (cstr (initBuffer size initial)).length := by
  rw [jsonGetRawValue, hcursor]
  dsimp only
  by_cases hquote : cursor.head? = some quote
  · rw [if_pos hquote]
    exact jsonGetStringAt_length_le hnul hinitial
  · rw [if_neg hquote]
    by_cases hbrace : cursor.head? = some lbrace
    · rw [if_pos hbrace]
      exact jsonGetCompoundAt_length_le _ _ _ _
    · rw [if_neg hbrace]
      by_cases hbracket : cursor.head? = some lbracket
      · rw [if_pos hbracket]
        exact jsonGetCompoundAt_length_le _ _ _ _
      · rw [if_neg hbracket]
        exact jsonCopyTrimmed_length_le _ _ _

/-! ## When the array is kept -/

/-- Writing at the start changes nothing exactly when the bytes are there already. -/
theorem store_zero_eq_self_iff (out data : Bytes) :
    store out 0 data = out ↔ data = out.take data.length := by
  rw [store, List.take_zero, List.nil_append, Nat.zero_add]
  constructor
  · intro heq
    have htake := congrArg (List.take data.length) heq
    rwa [List.take_left'] at htake
    rfl
  · intro heq
    nth_rewrite 1 [heq]
    exact List.take_append_drop data.length out

/-- A string is copied byte by byte: one that does not fit overwrites all of the array but
its last byte. -/
theorem copied_keeps_iff (text out : Bytes) : (copied text out).Keeps out ↔
    text.length < out.length ∨ text.take (out.length - 1) = out.take (out.length - 1) := by
  by_cases hfits : text.length < out.length
  · exact ⟨fun _ => Or.inl hfits, fun _ => .of_success (by rw [copied, if_pos hfits])⟩
  · have hlen : (text.take (out.length - 1)).length = out.length - 1 := by
      rw [List.length_take]
      omega
    rw [copied, if_neg hfits, or_iff_right hfits]
    have hstore := store_zero_eq_self_iff out (text.take (out.length - 1))
    rw [hlen] at hstore
    exact ⟨fun h => hstore.1 (h rfl), fun h _ => hstore.2 h⟩

/-- **What a failed getter leaves.**  The four getters keep the array whenever they fail,
unless the key is followed by a string that is too long: of such a string the first bytes
are in the array already when the call fails. -/
theorem getters_keep_iff (json key out : Bytes) :
    ((jsonGetString json key out).Keeps out ∧ (jsonGetRawValue json key out).Keeps out ∧
      (jsonGetObject json key out).Keeps out ∧ (jsonGetArray json key out).Keeps out) ↔
    ∀ raw, literalAt json key = some raw → (decode raw).length < out.length ∨
      (decode raw).take (out.length - 1) = out.take (out.length - 1) := by
  have hobject := jsonGetObject_keeps json key out
  have harray := jsonGetArray_keeps json key out
  rw [jsonGetString_eq]
  cases hliteral : literalAt json key with
  | none =>
    have hraw := jsonGetRawValue_keeps hliteral out
    exact ⟨fun _ raw h => absurd h (by simp), fun _ => ⟨fun _ => rfl, hraw, hobject, harray⟩⟩
  | some raw =>
    rw [jsonGetRawValue_eq hliteral]
    have hcopied := copied_keeps_iff (decode raw) out
    constructor
    · rintro ⟨hstring, -⟩ raw' hraw'
      rw [← Option.some.inj hraw']
      exact hcopied.1 hstring
    · intro hfits
      have hkept := hcopied.2 (hfits raw rfl)
      exact ⟨hkept, hkept, hobject, harray⟩

/-- A client id of five bytes for an array of four: the call fails, and the default is gone. -/
theorem failed_getter_overwrites :
    let json := ascii "\x7b\"clientId\":\"abcde\"\x7d"
    let out := initBuffer 4 (ascii "non")
    (jsonGetString json (ascii "clientId") out).rc = -1 ∧
    (jsonGetRawValue json (ascii "clientId") out).rc = -1 ∧
    ¬ (jsonGetString json (ascii "clientId") out).Keeps out ∧
    ¬ (jsonGetRawValue json (ascii "clientId") out).Keeps out ∧
    cstr out = ascii "non" ∧
    cstr (jsonGetString json (ascii "clientId") out).out = ascii "abc" ∧
    cstr (jsonGetRawValue json (ascii "clientId") out).out = ascii "abc" := by
  decide +kernel

end IotIde
