import IotIde.Json.Strings

/-!
# Responses

The managers answer a request by formatting a small JSON text into an array of their
caller's.  The array may be missing, and it may be too small.

* `ResponseArg` — the two arguments that stand for it;
* `formatResponse`, `resultText` — what a manager writes;
* `formatResponse_of_fits` — a text that fits, with its terminator, is written.
-/

namespace IotIde

open CText JsonText

/-- `char *response_json, size_t response_size`: a null pointer with whatever size the
caller gave, or an array of that size. -/
inductive ResponseArg
  | null (size : ℕ)
  | array (bytes : Bytes)
  deriving DecidableEq

namespace ResponseArg

def array? : ResponseArg → Option Bytes
  | null _ => none
  | array bytes => some bytes

/-- The argument once a callee has written to its array. -/
def written (response : ResponseArg) : Option Bytes → ResponseArg
  | none => response
  | some bytes => array bytes

/-- `response_json == NULL ? "{}" : response_json` -/
def text : ResponseArg → Bytes
  | null _ => ascii "\x7b\x7d"
  | array bytes => cstr bytes

end ResponseArg

/-- `snprintf` into a response array: the array keeps its size, and the call succeeds when
the text and its terminator fit. -/
def formatResponse (text : Bytes) (response : Bytes) : ℤ × Bytes :=
  let written := (snprintf response.length text ++ [0]).take response.length
  (if text.length < response.length then 0 else -1, store response 0 written)

/-- The text of a plain result. -/
def resultText (success : Bool) (escapedMessage : Bytes) : Bytes :=
  ascii "\x7b\"success\":" ++ ((if success then ascii "1" else ascii "0") ++
    (ascii ",\"message\":\"" ++ (escapedMessage ++ ascii "\"\x7d")))

theorem resultText_length (success : Bool) (escapedMessage : Bytes) :
    (resultText success escapedMessage).length = escapedMessage.length + 26 := by
  have hdigit : (if success then ascii "1" else ascii "0").length = 1 := by
    cases success <;> rfl
  simp only [resultText, List.length_append, hdigit]
  have h₁ : (ascii "\x7b\"success\":").length = 11 := by decide
  have h₂ : (ascii ",\"message\":\"").length = 12 := by decide
  have h₃ : (ascii "\"\x7d").length = 2 := by decide
  omega

theorem formatResponse_of_fits {text response : Bytes} (h : text.length < response.length) :
    (formatResponse text response).1 = 0 :=
  if_pos h

/-- With memory, `escape_alloc` gives the escaped text, up to a NUL in it. -/
theorem escapeAlloc_true (text : Bytes) : escapeAlloc true text = some (cstr (escape text)) := by
  have hfit : (escape text).length + 1 <
      (List.replicate (text.length * 2 + 32) (0 : UInt8)).length := by
    have := escape_length_le text
    rw [List.length_replicate]
    omega
  rw [escapeAlloc, jsonEscapeString_of_fits hfit]
  simp only [if_true, cstr_store_nul]

theorem cstr_length_le (text : Bytes) : (cstr text).length ≤ text.length :=
  (List.takeWhile_prefix _).length_le

/-- `escape_alloc` at most doubles its text. -/
theorem escapeAlloc_length_le (text : Bytes) :
    ∃ escaped, escapeAlloc true text = some escaped ∧ escaped.length ≤ 2 * text.length :=
  ⟨_, escapeAlloc_true text, (cstr_length_le _).trans (escape_length_le text)⟩

/-- A response that is written reads the same from every array. -/
theorem cstr_formatResponse {text response : Bytes} (h : text.length < response.length) :
    cstr (formatResponse text response).2 = cstr text := by
  have hwritten : (snprintf response.length text ++ [0]).take response.length = text ++ [0] := by
    rw [snprintf_of_lt h, List.take_of_length_le]
    rw [List.length_append, List.length_singleton]
    omega
  rw [formatResponse, hwritten, cstr_store_nul]

end IotIde
