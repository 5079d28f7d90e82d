import IotIde.Foundation.JsonText

/-!
# `json_utils.c`

The JSON helpers every part of the program reads its input with.  They do not parse:
a key is found by searching for its quoted name, and a value is cut out by scanning
for its end.  All of them are translated as they stand, with the caller's buffer as
an argument and a result, because a call that fails may already have written to it
and most callers ignore the return code.

A pointer into a text is the suffix that starts there (`none` is `NULL`), the end of
the list is the terminating NUL, and `between start stop` is the text from one
pointer up to another.  The `int depth` of the scanners is an unbounded integer here,
which makes no difference for a text of fewer than 2^31 bytes; `int count` wraps around.
-/

namespace IotIde

open CText

/-- The result of a call that fills a caller's buffer: `0` or `-1`, and the buffer. -/
structure Extract where
  rc : ℤ
  out : Bytes

/-- The bytes from `start` up to the later pointer `stop`. -/
def between (start stop : Bytes) : Bytes := start.take (start.length - stop.length)

/-- `json_skip_ws` -/
def jsonSkipWs (cursor : Bytes) : Bytes := cursor.dropWhile isSpace

/-! ## Finding a key -/

/-- The search pattern, formatted into `char pattern[128]`. -/
def jsonPattern (key : Bytes) : Bytes := snprintf 128 (quote :: (key ++ [quote]))

/-- The `strstr` loop of `json_find_after_key`; every round consumes the pattern, so
the length of the text bounds the number of rounds. -/
def jsonFindAfterKeyLoop (pattern : Bytes) : ℕ → Bytes → Option Bytes
  | 0, _ => none
  | fuel + 1, cursor =>
    match strstr pattern cursor with
    | none => none
    | some found =>
      let after := jsonSkipWs (found.drop pattern.length)
      if after.head? = some colon then some (jsonSkipWs after.tail)
      else jsonFindAfterKeyLoop pattern fuel (found.drop pattern.length)

/-- `json_find_after_key`: the text after the first `"key"` that is followed by
optional white space and a colon. -/
def jsonFindAfterKey (json key : Bytes) : Option Bytes :=
  jsonFindAfterKeyLoop (jsonPattern key) (json.length + 1) json

/-! ## Finding the end of a value -/

/-- `json_find_string_end`: the first quote that is not escaped. -/
def jsonFindStringEnd (escaped : Bool) : Bytes → Option Bytes
  | [] => none
  | c :: cs =>
    if escaped then jsonFindStringEnd false cs
    else if c = backslash then jsonFindStringEnd true cs
    else if c = quote then some (c :: cs)
    else jsonFindStringEnd false cs

/-- The loop of `json_find_compound_end`; only one kind of bracket is counted. -/
def jsonFindCompoundEndLoop (openChar closeChar : UInt8) (depth : ℤ)
    (inString escaped : Bool) : Bytes → Option Bytes
  | [] => none
  | ch :: cs =>
    if inString then
      if escaped then jsonFindCompoundEndLoop openChar closeChar depth true false cs
      else if ch = backslash then jsonFindCompoundEndLoop openChar closeChar depth true true cs
      else if ch = quote then jsonFindCompoundEndLoop openChar closeChar depth false false cs
      else jsonFindCompoundEndLoop openChar closeChar depth true false cs
    else if ch = quote then jsonFindCompoundEndLoop openChar closeChar depth true escaped cs
    else if ch = openChar then
      jsonFindCompoundEndLoop openChar closeChar (depth + 1) false escaped cs
    else if ch = closeChar then
      if depth - 1 = 0 then some (ch :: cs)
      else jsonFindCompoundEndLoop openChar closeChar (depth - 1) false escaped cs
    else jsonFindCompoundEndLoop openChar closeChar depth false escaped cs

/-- `json_find_compound_end` -/
def jsonFindCompoundEnd (cursor : Bytes) (openChar closeChar : UInt8) : Option Bytes :=
  jsonFindCompoundEndLoop openChar closeChar 0 false false cursor

/-! ## Copying a value out -/

/-- White space off both ends. -/
def trim (text : Bytes) : Bytes := (text.dropWhile isSpace).rdropWhile isSpace

/-- `json_copy_trimmed` -/
def jsonCopyTrimmed (start stop out : Bytes) : Extract :=
  if out.length = 0 ∨ start.length < stop.length then ⟨-1, out⟩
  else
    let text := trim (between start stop)
    if out.length ≤ text.length then ⟨-1, out⟩
    else ⟨0, store out 0 (text ++ [0])⟩

/-- The byte an escape stands for; an unknown escape stands for itself. -/
def unescape (esc : UInt8) : UInt8 :=
  if esc = 98 then 8
  else if esc = 102 then 12
  else if esc = 110 then 10
  else if esc = 114 then 13
  else if esc = 116 then 9
  else esc

/-- The loop of `json_copy_string_value`: a byte is written before it is known
whether the rest fits. -/
def jsonCopyStringValueLoop : Bytes → ℕ → Bytes → Extract
  | [], idx, out => ⟨0, store out idx [0]⟩
  | ch :: cursor, idx, out =>
    if ch = backslash then
      match cursor with
      | esc :: cursor' =>
        if out.length ≤ idx + 1 then ⟨-1, out⟩
        else jsonCopyStringValueLoop cursor' (idx + 1) (store out idx [unescape esc])
      | [] =>
        if out.length ≤ idx + 1 then ⟨-1, out⟩
        else jsonCopyStringValueLoop [] (idx + 1) (store out idx [ch])
    else if out.length ≤ idx + 1 then ⟨-1, out⟩
    else jsonCopyStringValueLoop cursor (idx + 1) (store out idx [ch])

/-- `json_copy_string_value` -/
def jsonCopyStringValue (start stop out : Bytes) : Extract :=
  if out.length = 0 ∨ start.length < stop.length then ⟨-1, out⟩
  else jsonCopyStringValueLoop (between start stop) 0 out

/-! ## The getters -/

/-- Copying the string that opens at `cursor`, as both `json_get_string` and
`json_get_raw_value` do it. -/
def jsonGetStringAt (cursor out : Bytes) : Extract :=
  match jsonFindStringEnd false cursor.tail with
  | none => ⟨-1, out⟩
  | some stop => jsonCopyStringValue cursor.tail stop out

/-- Copying the object or array that opens at `cursor`. -/
def jsonGetCompoundAt (openChar closeChar : UInt8) (cursor out : Bytes) : Extract :=
  match jsonFindCompoundEnd cursor openChar closeChar with
  | none => ⟨-1, out⟩
  | some stop => jsonCopyTrimmed cursor stop.tail out

/-- `json_get_string` -/
def jsonGetString (json key out : Bytes) : Extract :=
  match jsonFindAfterKey json key with
  | none => ⟨-1, out⟩
  | some cursor =>
    if cursor.head? = some quote then jsonGetStringAt cursor out else ⟨-1, out⟩

/-- Where a value that is neither a string nor compound is taken to end. -/
def endsScalar (b : UInt8) : Bool := b == comma || b == rbrace || b == rbracket

/-- `json_get_raw_value` -/
def jsonGetRawValue (json key out : Bytes) : Extract :=
  match jsonFindAfterKey json key with
  | none => ⟨-1, out⟩
  | some cursor =>
    if cursor.head? = some quote then jsonGetStringAt cursor out
    else if cursor.head? = some lbrace then jsonGetCompoundAt lbrace rbrace cursor out
    else if cursor.head? = some lbracket then jsonGetCompoundAt lbracket rbracket cursor out
    else jsonCopyTrimmed cursor (cursor.dropWhile fun b => !endsScalar b) out

/-- `json_get_object` -/
def jsonGetObject (json key out : Bytes) : Extract :=
  match jsonFindAfterKey json key with
  | none => ⟨-1, out⟩
  | some cursor =>
    if cursor.head? = some lbrace then jsonGetCompoundAt lbrace rbrace cursor out else ⟨-1, out⟩

/-- `json_get_array` -/
def jsonGetArray (json key out : Bytes) : Extract :=
  match jsonFindAfterKey json key with
  | none => ⟨-1, out⟩
  | some cursor =>
    if cursor.head? = some lbracket then jsonGetCompoundAt lbracket rbracket cursor out
    else ⟨-1, out⟩

/-- What a getter yields to a caller that starts from an uninitialised buffer of
`size` bytes and looks at it only when the return code is `0`. -/
def Extract.value? (getter : Bytes → Extract) (size : ℕ) : Option Bytes :=
  let r := getter (List.replicate size 0)
  if r.rc = 0 then some (cstr r.out) else none

/-! ## Arrays -/

/-- The loop of `json_array_size`. -/
def jsonArraySizeLoop (depth : ℤ) (inString escaped : Bool) (count : ℤ) (hasItem : Bool) :
    Bytes → ℤ
  | [] => -1
  | ch :: cs =>
    if inString then
      if escaped then jsonArraySizeLoop depth true false count hasItem cs
      else if ch = backslash then jsonArraySizeLoop depth true true count hasItem cs
      else if ch = quote then jsonArraySizeLoop depth false false count hasItem cs
      else jsonArraySizeLoop depth true false count hasItem cs
    else if isSpace ch then jsonArraySizeLoop depth false escaped count hasItem cs
    else if ch = quote then jsonArraySizeLoop depth true escaped count true cs
    else if ch = lbrace ∨ ch = lbracket then
      jsonArraySizeLoop (depth + 1) false escaped count true cs
    else if ch = rbrace ∨ ch = rbracket then
      if 0 < depth then jsonArraySizeLoop (depth - 1) false escaped count hasItem cs
      else if ch = rbracket then (if hasItem then (count + 1).bmod (2 ^ 32) else count)
      else jsonArraySizeLoop depth false escaped count hasItem cs
    else if ch = comma ∧ depth = 0 then
      if hasItem then jsonArraySizeLoop depth false escaped ((count + 1).bmod (2 ^ 32)) false cs
      else jsonArraySizeLoop depth false escaped count hasItem cs
    else jsonArraySizeLoop depth false escaped count true cs

/-- `json_array_size` -/
def jsonArraySize (array : Bytes) : ℤ :=
  let cursor := jsonSkipWs array
  if cursor.head? ≠ some lbracket then -1
  else
    let body := jsonSkipWs cursor.tail
    if body = [] then -1
    else if body.head? = some rbracket then 0
    else jsonArraySizeLoop 0 false false 0 false body

/-- The loop of `json_array_get_item`; `itemStart` points at the current item.  A
comma of the array itself skips the white space after it only for `itemStart`, the
scan goes on at the next byte. -/
def jsonArrayGetItemLoop (index : ℕ) (out : Bytes) (depth : ℤ) (inString escaped : Bool)
    (current : ℕ) (itemStart : Bytes) : Bytes → Extract
  | [] => ⟨-1, out⟩
  | ch :: cs =>
    if inString then
      if escaped then jsonArrayGetItemLoop index out depth true false current itemStart cs
      else if ch = backslash then jsonArrayGetItemLoop index out depth true true current itemStart cs
      else if ch = quote then jsonArrayGetItemLoop index out depth false false current itemStart cs
      else jsonArrayGetItemLoop index out depth true false current itemStart cs
    else if ch = quote then jsonArrayGetItemLoop index out depth true escaped current itemStart cs
    else if ch = lbrace ∨ ch = lbracket then
      jsonArrayGetItemLoop index out (depth + 1) false escaped current itemStart cs
    else if ch = rbrace ∨ ch = rbracket then
      if 0 < depth then jsonArrayGetItemLoop index out (depth - 1) false escaped current itemStart cs
      else if ch = rbracket then
        if current = index then jsonCopyTrimmed itemStart (ch :: cs) out else ⟨-1, out⟩
      else jsonArrayGetItemLoop index out depth false escaped current itemStart cs
    else if ch = comma ∧ depth = 0 then
      if current = index then jsonCopyTrimmed itemStart (ch :: cs) out
      else jsonArrayGetItemLoop index out depth false escaped (current + 1) (jsonSkipWs cs) cs
    else jsonArrayGetItemLoop index out depth false escaped current itemStart cs

/-- `json_array_get_item` -/
def jsonArrayGetItem (array : Bytes) (index : ℕ) (out : Bytes) : Extract :=
  if out.length = 0 then ⟨-1, out⟩
  else
    let cursor := jsonSkipWs array
    if cursor.head? ≠ some lbracket then ⟨-1, out⟩
    else
      let body := jsonSkipWs cursor.tail
      if body = [] ∨ body.head? = some rbracket then ⟨-1, out⟩
      else jsonArrayGetItemLoop index out 0 false false 0 body body

/-! ## Escaping -/

/-- The replacement for a byte that `json_escape_string` does not copy as it is. -/
def replacement (ch : UInt8) : Option Bytes :=
  if ch = backslash then some [backslash, backslash]
  else if ch = quote then some [backslash, quote]
  else if ch = newline then some [backslash, 110]
  else if ch = 13 then some [backslash, 114]
  else if ch = 9 then some [backslash, 116]
  else none

/-- The loop of `json_escape_string`. -/
def jsonEscapeStringLoop : Bytes → ℕ → Bytes → Extract
  | [], idx, out => ⟨0, store out idx [0]⟩
  | ch :: input, idx, out =>
    match replacement ch with
    | some rep =>
      if out.length ≤ idx + rep.length + 1 then ⟨-1, out⟩
      else jsonEscapeStringLoop input (idx + rep.length) (store out idx rep)
    | none =>
      if out.length ≤ idx + 2 then ⟨-1, out⟩
      else jsonEscapeStringLoop input (idx + 1) (store out idx [ch])

/-- `json_escape_string` -/
def jsonEscapeString (input out : Bytes) : Extract :=
  if out.length = 0 then ⟨-1, out⟩ else jsonEscapeStringLoop input 0 out

/-- `ide_escape_alloc`, `deploy_escape_alloc` and `start_escape_alloc`, which are the
same function in three files: escape into a fresh buffer of twice the length and 32
bytes.  `allocOk` is the outcome of the `malloc`. -/
def escapeAlloc (allocOk : Bool) (text : Bytes) : Option Bytes :=
  if allocOk then
    let r := jsonEscapeString text (List.replicate (text.length * 2 + 32) 0)
    if r.rc = 0 then some (cstr r.out) else none
  else none

end IotIde
