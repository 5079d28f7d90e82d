import IotIde.Foundation.CText

/-!
# `shell_quote`

Putting a text between single quotes for a shell command line.

* `shellQuote` — the function, into an array of a given size;
* `shellQuote_eq_some` — when it succeeds, it has written the whole quoted text, and the
  array had room for it.
-/

namespace IotIde

open CText

abbrev singleQuote : UInt8 := 39

/-- `single_quote_escape`: it closes the quotes, puts a quoted quote, and opens them
again. -/
def singleQuoteEscape : Bytes := ascii "'\"'\"'"

/-- The loop of `shell_quote`; `out` is what is written so far. -/
def shellQuoteLoop (outSize : ℕ) : Bytes → Bytes → Option Bytes
  | [], out => some (out ++ [singleQuote])
  | c :: input, out =>
    if c = singleQuote then
      if out.length + singleQuoteEscape.length + 2 ≥ outSize then none
      else shellQuoteLoop outSize input (out ++ singleQuoteEscape)
    else if out.length + 2 ≥ outSize then none
    else shellQuoteLoop outSize input (out ++ [c])

/-- `shell_quote`: the string it leaves in `char out[outSize]`, or `none` for `-1`. -/
def shellQuote (input : Bytes) (outSize : ℕ) : Option Bytes :=
  if outSize < 3 then none else shellQuoteLoop outSize input [singleQuote]

/-- The text between its quotes. -/
def quotedBody (input : Bytes) : Bytes :=
  input.flatMap fun c => if c = singleQuote then singleQuoteEscape else [c]

theorem shellQuoteLoop_eq_some {outSize : ℕ} : ∀ {input out quoted : Bytes},
    out.length + 1 < outSize → shellQuoteLoop outSize input out = some quoted →
      quoted = out ++ (quotedBody input ++ [singleQuote]) ∧ quoted.length < outSize := by
  intro input
  induction input with
  | nil =>
    intro out quoted hroom h
    cases h
    exact ⟨rfl, by simpa using hroom⟩
  | cons c input ih =>
    intro out quoted hroom h
    rw [shellQuoteLoop] at h
    split at h
    · rename_i hc
      split at h
      · cases h
      · rename_i hfits
        obtain ⟨rfl, hlen⟩ := ih (by simp only [List.length_append]; omega) h
        exact ⟨by simp [quotedBody, hc], hlen⟩
    · rename_i hc
      split at h
      · cases h
      · rename_i hfits
        obtain ⟨rfl, hlen⟩ := ih (by simp only [List.length_append, List.length_singleton]; omega) h
        exact ⟨by simp [quotedBody, hc], hlen⟩

/-- A successful call has written the whole quoted text. -/
theorem shellQuote_eq_some {input quoted : Bytes} {outSize : ℕ}
    (h : shellQuote input outSize = some quoted) :
    quoted = singleQuote :: (quotedBody input ++ [singleQuote]) ∧ quoted.length < outSize := by
  rw [shellQuote] at h
  split at h
  · cases h
  · rename_i hsize
    exact shellQuoteLoop_eq_some (by simp only [List.length_singleton]; omega) h

theorem shellQuoteLoop_of_fits {outSize : ℕ} : ∀ {input out : Bytes},
    out.length + (quotedBody input).length + 2 < outSize →
      shellQuoteLoop outSize input out = some (out ++ (quotedBody input ++ [singleQuote])) := by
  intro input
  induction input with
  | nil => intro out _; rfl
  | cons c input ih =>
    intro out hfits
    have hescape : singleQuoteEscape.length = 5 := by decide
    rw [quotedBody, List.flatMap_cons, ← quotedBody, List.length_append] at hfits
    rw [shellQuoteLoop, quotedBody, List.flatMap_cons, ← quotedBody]
    by_cases hc : c = singleQuote
    · rw [if_pos hc] at hfits
      rw [if_pos hc, if_pos hc, if_neg (by omega),
        ih (by rw [List.length_append]; omega), List.append_assoc, List.append_assoc]
    · rw [if_neg hc, List.length_singleton] at hfits
      rw [if_neg hc, if_neg hc, if_neg (by omega),
        ih (by rw [List.length_append, List.length_singleton]; omega), List.append_assoc,
        List.append_assoc]

/-- With room for the quoted text, one byte to spare, the call succeeds. -/
theorem shellQuote_of_fits {input : Bytes} {outSize : ℕ}
    (h : (quotedBody input).length + 3 < outSize) :
    shellQuote input outSize = some (singleQuote :: (quotedBody input ++ [singleQuote])) := by
  rw [shellQuote, if_neg (by omega)]
  exact shellQuoteLoop_of_fits (by rw [List.length_singleton]; omega)

/-- Without quotes inside, the text stands between the quotes as it is. -/
theorem quotedBody_of_notMem {input : Bytes} (h : singleQuote ∉ input) :
    quotedBody input = input := by
  induction input with
  | nil => rfl
  | cons c input ih =>
    rw [List.mem_cons, not_or] at h
    rw [quotedBody, List.flatMap_cons, ← quotedBody, ih h.2, if_neg (Ne.symm h.1)]
    rfl

end IotIde
