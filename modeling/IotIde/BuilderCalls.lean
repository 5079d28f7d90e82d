import IotIde.Foundation.Doubling
import IotIde.Foundation.Runs
import IotIde.StringBuilder

/-!
# Any calls on a string builder

`string_builder.c` once more, in the arithmetic of the machine: sizes are `size_t`, the doubling
loop may overflow, and the bytes of a grown array are what `realloc` left there.

* `sbCall` — one call, for a number of rounds that its loop is given; `none` when the loop is
  not over by then;
* `sbMachine` — any calls on one builder, with their history;
* `heldText`, `hasMemory` — the text that the history has put into the builder, and whether
  some call since the last `sb_init` has found memory for it;
* `SbRun.Sound` — the builder holds that text;
* `sbAppendN64_eq`, `sbAppendf64_eq`, `sbInit64_eq` — within 2^62 bytes the calls are those of
  `StringBuilder.lean`;
* `builder_calls_sound` — over every sequence of calls.
-/

namespace IotIde

open CText Runs

/-! ## The calls -/

/-- `sizeof(size_t) * CHAR_BIT` -/
abbrev SIZE_WIDTH : ℕ := 64

/-- The result of a `realloc`: none, or the bytes that stand in the new part of the array. -/
abbrev Reallocated := Option (ℕ → UInt8)

/-- `sb_reserve` -/
def sbReserve64 (rounds : ℕ) (reallocated : Reallocated) (builder : StringBuilder) (needed : ℕ) :
    Option (ℤ × StringBuilder) :=
  if needed ≤ builder.capacity then some (0, builder)
  else
    (Doubling.double? SIZE_WIDTH needed rounds
      (if builder.capacity = 0 then 256 else builder.capacity)).map fun next =>
        match reallocated with
        | none => (-1, builder)
        | some fresh =>
          (0, { builder with
            data := builder.data ++ (List.range (next - builder.data.length)).map fresh
            capacity := next })

/-- `sb_init` -/
def sbInit64 (rounds : ℕ) (reallocated : Reallocated) (initialCapacity : ℕ) :
    Option (ℤ × StringBuilder) :=
  (sbReserve64 rounds reallocated ⟨[], 0, 0⟩
    (if initialCapacity = 0 then 256 else initialCapacity)).map fun (rc, builder) =>
      if rc ≠ 0 then (-1, builder) else (0, { builder with data := store builder.data 0 [0] })

/-- `sb_append_n` -/
def sbAppendN64 (rounds : ℕ) (reallocated : Reallocated) (builder : StringBuilder) (text : Bytes) :
    Option (ℤ × StringBuilder) :=
  (sbReserve64 rounds reallocated builder
    ((builder.length + text.length + 1) % 2 ^ SIZE_WIDTH)).map fun (rc, reserved) =>
      if rc ≠ 0 then (-1, builder)
      else
        let data := store reserved.data reserved.length text
        let length := (reserved.length + text.length) % 2 ^ SIZE_WIDTH
        (0, { reserved with data := store data length [0], length := length })

/-- `sb_appendf`, by what `vsnprintf` makes of its arguments; `none` stands for a negative
result. -/
def sbAppendf64 (rounds : ℕ) (reallocated : Reallocated) (builder : StringBuilder)
    (formatted : Option Bytes) : Option (ℤ × StringBuilder) :=
  match formatted.filter fun text => text.length ≤ INT_MAX with
  | none => some (-1, builder)
  | some text =>
    (sbReserve64 rounds reallocated builder
      ((builder.length + text.length + 1) % 2 ^ SIZE_WIDTH)).map fun (rc, reserved) =>
        if rc ≠ 0 then (-1, builder)
        else
          (0, { reserved with
            data := store reserved.data reserved.length
              (snprintf (reserved.capacity - reserved.length) text ++ [0])
            length := (reserved.length + text.length) % 2 ^ SIZE_WIDTH })

/-- A call on a builder.  A text that is missing is a null pointer; the text of `sb_append_n` is
the bytes that its length covers. -/
inductive SbCall
  | init (initialCapacity : ℕ)
  | append (text : Option Bytes)
  | appendN (text : Option Bytes)
  | appendf (formatted : Option Bytes)
  deriving DecidableEq

/-- What a call returns and leaves. -/
def sbCall (rounds : ℕ) (reallocated : Reallocated) (builder : StringBuilder) :
    SbCall → Option (ℤ × StringBuilder)
  | .init initialCapacity => sbInit64 rounds reallocated initialCapacity
  | .append none => some (-1, builder)
  | .append (some text) => sbAppendN64 rounds reallocated builder (cstr text)
  | .appendN none => some (-1, builder)
  | .appendN (some text) => sbAppendN64 rounds reallocated builder text
  | .appendf formatted => sbAppendf64 rounds reallocated builder formatted

/-! ## Runs of calls -/

namespace SbCall

/-- The text of a call. -/
def text : SbCall → Bytes
  | init _ => []
  | append text => cstr (text.getD [])
  | appendN text => text.getD []
  | appendf formatted => formatted.getD []

def isInit : SbCall → Bool
  | init _ => true
  | _ => false

end SbCall

/-- A builder, and the calls on it with what they returned. -/
structure SbRun where
  builder : StringBuilder
  history : List (SbCall × ℤ)

/-- Calls in any order, on a builder that may hold anything. -/
def sbMachine (rounds : ℕ) : Machine SbRun (SbCall × Reallocated) where
  init run := run.history = []
  step run label := (sbCall rounds label.2 run.builder label.1).map fun returned =>
    ⟨returned.2, run.history ++ [(label.1, returned.1)]⟩

/-- The texts of the calls since the last `sb_init` that returned 0, one behind the other. -/
def heldText (history : List (SbCall × ℤ)) : Bytes :=
  history.foldl (fun held returned =>
    if returned.1.isInit then [] else if returned.2 = 0 then held ++ returned.1.text else held) []

/-- Some call returned 0, `sb_init` the last time it was called or one after it. -/
def hasMemory (history : List (SbCall × ℤ)) : Bool :=
  history.foldl (fun memory returned =>
    if returned.1.isInit then returned.2 == 0 else memory || returned.2 == 0) false

/-- `sb_init` has been called. -/
def isStarted (history : List (SbCall × ℤ)) : Bool := history.any fun returned => returned.1.isInit

/-- `sb_init` comes first, its capacity is at most 2^63, and the total length stays below
2^62. -/
def InRange (run : SbRun) (label : SbCall × Reallocated) : Prop :=
  match label.1 with
  | .init initialCapacity => initialCapacity ≤ 2 ^ 63
  | call => isStarted run.history = true ∧ run.builder.length + call.text.length < 2 ^ 62

/-- A builder that was started holds the text of its history; without memory it is empty and
has no array. -/
def SbRun.Sound (run : SbRun) : Prop :=
  isStarted run.history = true →
    if hasMemory run.history then run.builder.Holds (heldText run.history)
    else run.builder = ⟨[], 0, 0⟩ ∧ heldText run.history = []

/-! ## What one call does -/

/-- The array has the stated size and starts with the text; there may be no room for a
terminator yet. -/
structure StringBuilder.Keeps (builder : StringBuilder) (text : Bytes) : Prop where
  size : builder.data.length = builder.capacity
  length_eq : builder.length = text.length
  contents : text <+: builder.data

theorem StringBuilder.Holds.keeps {builder : StringBuilder} {text : Bytes}
    (h : builder.Holds text) :
    builder.Keeps text :=
  ⟨h.size, h.length_eq, (List.prefix_append text [0]).trans h.contents⟩

theorem keeps_empty : StringBuilder.Keeps ⟨[], 0, 0⟩ [] := ⟨rfl, rfl, List.prefix_rfl⟩

section Calls

variable {rounds : ℕ} (hrounds : SIZE_WIDTH ≤ rounds) (reallocated : Reallocated)
  {builder : StringBuilder} {text : Bytes}
include hrounds

/-- The loop ends; `sb_reserve` makes room and keeps the text, or changes nothing. -/
theorem sbReserve64_cases (h : builder.Keeps text) {needed : ℕ} (hneeded : needed ≤ 2 ^ 63) :
    (∃ reserved, sbReserve64 rounds reallocated builder needed = some (0, reserved) ∧
      reserved.Keeps text ∧ needed ≤ reserved.capacity) ∨
    sbReserve64 rounds reallocated builder needed = some (-1, builder) := by
  unfold sbReserve64
  by_cases hfits : needed ≤ builder.capacity
  · exact Or.inl ⟨builder, if_pos hfits, h, hfits⟩
  rw [if_neg hfits]
  have hstart : 1 ≤ (if builder.capacity = 0 then 256 else builder.capacity) ∧
      builder.capacity ≤ (if builder.capacity = 0 then 256 else builder.capacity) := by
    split <;> omega
  generalize (if builder.capacity = 0 then 256 else builder.capacity) = start at hstart
  -- 63 doublings reach half of the range from any positive size
  have henough : needed ≤ start * 2 ^ 63 :=
    hneeded.trans (Nat.le_mul_of_pos_left _ hstart.1)
  obtain ⟨next, hnext, hle⟩ :=
    Doubling.exists_double? (w := SIZE_WIDTH) (by norm_num) hneeded henough
  have hroom := Doubling.le_of_double? hnext
  rw [Doubling.double?_mono hrounds hnext, Option.map_some]
  cases reallocated with
  | none => exact Or.inr rfl
  | some fresh =>
    refine Or.inl ⟨_, rfl, ⟨?_, h.length_eq, h.contents.trans (List.prefix_append _ _)⟩, hroom⟩
    have hsize := h.size
    simp only [List.length_append, List.length_map, List.length_range]
    omega

omit hrounds in
/-- A text and a terminator behind what an array keeps. -/
theorem StringBuilder.Keeps.store {reserved : StringBuilder} (h : reserved.Keeps text)
    {more : Bytes} (hroom : text.length + more.length + 1 ≤ reserved.capacity) :
    StringBuilder.Holds ⟨CText.store reserved.data reserved.length (more ++ [0]),
      reserved.length + more.length, reserved.capacity⟩ (text ++ more) := by
  have hsize := h.size
  have hlen := h.length_eq
  refine ⟨?_, ?_, ?_, ?_⟩
  · rw [store_length, hsize]
    rw [List.length_append, List.length_singleton]
    omega
  · rw [List.length_append, hlen]
  · show reserved.length + more.length < reserved.capacity
    omega
  · have htake : reserved.data.take reserved.length = text := by
      rw [hlen]
      exact (List.prefix_iff_eq_take.1 h.contents).symm
    rw [CText.store, htake, ← List.append_assoc]
    exact List.prefix_append _ _

/-- An append of any kind: it returns 0 and holds its text too, or -1 and changes nothing. -/
theorem sbAppendN64_cases (h : builder.Keeps text) {more : Bytes}
    (hlen : text.length + more.length < 2 ^ 62) :
    (∃ builder', sbAppendN64 rounds reallocated builder more = some (0, builder') ∧
      builder'.Holds (text ++ more)) ∨
    sbAppendN64 rounds reallocated builder more = some (-1, builder) := by
  have hlength := h.length_eq
  have hneeded : (builder.length + more.length + 1) % 2 ^ SIZE_WIDTH =
      text.length + more.length + 1 := by
    rw [hlength]
    exact Nat.mod_eq_of_lt (by norm_num; omega)
  unfold sbAppendN64
  rw [hneeded]
  rcases sbReserve64_cases hrounds reallocated h
    (show text.length + more.length + 1 ≤ 2 ^ 63 by omega) with ⟨reserved, heq, hkeeps, hroom⟩ | heq
  · have hreserved := hkeeps.length_eq
    have hsize := hkeeps.size
    have hend : (reserved.length + more.length) % 2 ^ SIZE_WIDTH = reserved.length + more.length :=
      Nat.mod_eq_of_lt (by norm_num; omega)
    refine Or.inl ⟨_, by rw [heq]; rfl, ?_⟩
    rw [hend, store_store (by omega)]
    exact hkeeps.store hroom
  · exact Or.inr (by rw [heq]; rfl)

theorem sbAppendf64_cases (h : builder.Keeps text) {formatted : Option Bytes}
    (hlen : text.length + (formatted.getD []).length < 2 ^ 62) :
    (∃ builder', sbAppendf64 rounds reallocated builder formatted = some (0, builder') ∧
      builder'.Holds (text ++ formatted.getD [])) ∨
    sbAppendf64 rounds reallocated builder formatted = some (-1, builder) := by
  have hlength := h.length_eq
  unfold sbAppendf64
  cases hmore : formatted.filter fun text => text.length ≤ INT_MAX with
  | none => exact Or.inr rfl
  | some more =>
    obtain ⟨rfl, -⟩ := Option.filter_eq_some_iff.1 hmore
    rw [Option.getD_some] at hlen ⊢
    have hneeded : (builder.length + more.length + 1) % 2 ^ SIZE_WIDTH =
        text.length + more.length + 1 := by
      rw [hlength]
      exact Nat.mod_eq_of_lt (by norm_num; omega)
    dsimp only
    rw [hneeded]
    have hbound : text.length + more.length + 1 ≤ 2 ^ 63 := by omega
    rcases sbReserve64_cases hrounds reallocated h hbound with ⟨reserved, heq, hkeeps, hroom⟩ | heq
    · have hreserved := hkeeps.length_eq
      have hend : (reserved.length + more.length) % 2 ^ SIZE_WIDTH =
          reserved.length + more.length := Nat.mod_eq_of_lt (by norm_num; omega)
      have hwhole : snprintf (reserved.capacity - reserved.length) more = more :=
        snprintf_of_lt (by omega)
      refine Or.inl ⟨_, by rw [heq]; rfl, ?_⟩
      rw [hend, hwhole]
      exact hkeeps.store hroom
    · exact Or.inr (by rw [heq]; rfl)

/-- `sb_init` leaves an empty builder, with an array or without. -/
theorem sbInit64_cases {initialCapacity : ℕ} (hcapacity : initialCapacity ≤ 2 ^ 63) :
    (∃ builder', sbInit64 rounds reallocated initialCapacity = some (0, builder') ∧
      builder'.Holds []) ∨
    sbInit64 rounds reallocated initialCapacity = some (-1, ⟨[], 0, 0⟩) := by
  have hneeded : 1 ≤ (if initialCapacity = 0 then 256 else initialCapacity) ∧
      (if initialCapacity = 0 then 256 else initialCapacity) ≤ 2 ^ 63 := by
    split <;> omega
  unfold sbInit64
  generalize (if initialCapacity = 0 then 256 else initialCapacity) = needed at hneeded
  rcases sbReserve64_cases hrounds reallocated keeps_empty hneeded.2 with
    ⟨reserved, heq, hkeeps, hroom⟩ | heq
  · obtain ⟨data, length, capacity⟩ := reserved
    obtain rfl : length = 0 := hkeeps.length_eq
    have hstored := hkeeps.store
      (show 0 + ([] : Bytes).length + 1 ≤ capacity from hneeded.1.trans hroom)
    exact Or.inl ⟨_, by rw [heq]; rfl, hstored⟩
  · exact Or.inr (by rw [heq]; rfl)

/-- A call on a builder that keeps a text. -/
theorem sbCall_cases (h : builder.Keeps text) {call : SbCall}
    (hlen : text.length + call.text.length < 2 ^ 62) (hinit : call.isInit = false) :
    (∃ builder', sbCall rounds reallocated builder call = some (0, builder') ∧
      builder'.Holds (text ++ call.text)) ∨
    sbCall rounds reallocated builder call = some (-1, builder) := by
  cases call with
  | init initialCapacity => cases hinit
  | append argument =>
    cases argument with
    | none => exact Or.inr rfl
    | some argument => exact sbAppendN64_cases hrounds reallocated h hlen
  | appendN argument =>
    cases argument with
    | none => exact Or.inr rfl
    | some argument => exact sbAppendN64_cases hrounds reallocated h hlen
  | appendf formatted => exact sbAppendf64_cases hrounds reallocated h hlen

end Calls

/-! ## What a history tells -/

section History

variable (history : List (SbCall × ℤ)) (call : SbCall) (rc : ℤ)

theorem heldText_concat : heldText (history ++ [(call, rc)]) =
    if call.isInit then [] else if rc = 0 then heldText history ++ call.text
      else heldText history := by
  rw [heldText, List.foldl_append]
  rfl

theorem hasMemory_concat : hasMemory (history ++ [(call, rc)]) =
    if call.isInit then rc == 0 else hasMemory history || rc == 0 := by
  rw [hasMemory, List.foldl_append]
  rfl

end History

/-! ## Any sequence of calls -/

namespace SbRun

variable {run : SbRun}

/-- A started builder keeps the text of its history. -/
theorem Sound.keeps (h : run.Sound) (hstarted : isStarted run.history = true) :
    run.builder.Keeps (heldText run.history) := by
  have hsound := h hstarted
  split_ifs at hsound
  · exact hsound.keeps
  · rw [hsound.1, hsound.2]
    exact keeps_empty

/-- The next call of a sequence: it returns, with 0 or -1, and a call that returns -1 leaves the
builder as it was, unless it is `sb_init`, which leaves it empty. -/
structure Returns (rounds : ℕ) (run : SbRun) (label : SbCall × Reallocated) (rc : ℤ)
    (builder : StringBuilder) : Prop where
  returned : sbCall rounds label.2 run.builder label.1 = some (rc, builder)
  rc_eq : rc = 0 ∨ rc = -1
  failed : rc = -1 → builder = if label.1.isInit then ⟨[], 0, 0⟩ else run.builder
  sound : Sound ⟨builder, run.history ++ [(label.1, rc)]⟩

/-- Every call returns and keeps the builder sound. -/
theorem Sound.returns {rounds : ℕ} (hrounds : SIZE_WIDTH ≤ rounds) (h : run.Sound)
    {label : SbCall × Reallocated} (hrange : InRange run label) :
    ∃ rc builder, run.Returns rounds label rc builder := by
  obtain ⟨call, reallocated⟩ := label
  cases hinit : call.isInit with
  | true =>
    obtain ⟨initialCapacity, rfl⟩ : ∃ initialCapacity, call = .init initialCapacity := by
      cases call with
      | init initialCapacity => exact ⟨initialCapacity, rfl⟩
      | _ => cases hinit
    rcases sbInit64_cases hrounds reallocated hrange with ⟨builder, heq, hholds⟩ | heq
    · refine ⟨0, builder, heq, Or.inl rfl, fun h => absurd h (by norm_num), fun _ => ?_⟩
      rw [hasMemory_concat, heldText_concat]
      exact hholds
    · refine ⟨-1, ⟨[], 0, 0⟩, heq, Or.inr rfl, fun _ => rfl, fun _ => ?_⟩
      rw [hasMemory_concat, heldText_concat]
      exact ⟨rfl, rfl⟩
  | false =>
    have hin : isStarted run.history = true ∧
        run.builder.length + call.text.length < 2 ^ 62 := by
      cases call with
      | init initialCapacity => cases hinit
      | append | appendN | appendf => exact hrange
    have hkeeps := h.keeps hin.1
    have hlen : (heldText run.history).length + call.text.length < 2 ^ 62 :=
      hkeeps.length_eq ▸ hin.2
    rcases sbCall_cases hrounds reallocated hkeeps hlen hinit with ⟨builder, heq, hholds⟩ | heq
    · refine ⟨0, builder, heq, Or.inl rfl, fun h => absurd h (by norm_num), fun _ => ?_⟩
      rw [hasMemory_concat, heldText_concat, hinit]
      simpa using hholds
    · refine ⟨-1, run.builder, heq, Or.inr rfl, fun _ => by rw [hinit]; rfl, fun _ => ?_⟩
      have hsame := h hin.1
      rw [hasMemory_concat, heldText_concat, hinit]
      simpa using hsame

end SbRun

/-- **Any calls on a builder.**  In every state of a sequence of calls that starts with
`sb_init`, whichever reallocations fail, the builder holds the texts of the calls that returned
0 since the last `sb_init`, or is empty without memory; and every next call returns. -/
theorem builder_calls_sound {rounds : ℕ} (hrounds : SIZE_WIDTH ≤ rounds) {run : SbRun}
    (hreachable : (sbMachine rounds).ReachableVia InRange run) :
    run.Sound ∧ ∀ label, InRange run label → ∃ rc builder, run.Returns rounds label rc builder := by
  have hsound : run.Sound := by
    refine Machine.invariant (P := SbRun.Sound) ?_ ?_ run hreachable
    · intro run hnew hstarted
      rw [show run.history = [] from hnew] at hstarted
      cases hstarted
    · intro run label run' h hrange hstep
      obtain ⟨rc, builder, hreturns⟩ := h.returns hrounds hrange
      simp only [sbMachine, hreturns.returned, Option.map_some, Option.some.injEq] at hstep
      rw [← hstep]
      exact hreturns.sound
  exact ⟨hsound, fun label hrange => hsound.returns hrounds hrange⟩

instance (run : SbRun) : ∀ label, Decidable (InRange run label)
  | (.init _, _) => inferInstanceAs (Decidable (_ ≤ _))
  | (.append _, _) | (.appendN _, _) | (.appendf _, _) => inferInstanceAs (Decidable (_ ∧ _))

/-- A text that is kept, one for which there is no memory, and one of a format. -/
def someCalls : List (SbCall × Reallocated) :=
  [(.init 128, some fun _ => 7), (.append (some (ascii "ab")), none),
    (.append (some (List.replicate 300 120)), none), (.appendf (some (ascii "c")), none)]

theorem builder_calls_sound_some :
    ∃ run, (sbMachine 64).run ⟨⟨[], 0, 0⟩, []⟩ someCalls = some run ∧
      run.history.map Prod.snd = [0, 0, -1, 0] ∧ heldText run.history = ascii "abc" ∧
      run.Sound ∧ ∀ label, InRange run label →
        ∃ rc builder, run.Returns 64 label rc builder := by
  have hmeets : (sbMachine 64).Meets InRange ⟨⟨[], 0, 0⟩, []⟩ someCalls := by decide +kernel
  have hran : ((sbMachine 64).run ⟨⟨[], 0, 0⟩, []⟩ someCalls).map (fun run =>
      (run.history.map Prod.snd, heldText run.history)) = some ([0, 0, -1, 0], ascii "abc") := by
    decide +kernel
  obtain ⟨run, hrun, heq⟩ := Option.map_eq_some_iff.1 hran
  obtain ⟨hreturned, hheld⟩ := Prod.mk.inj heq
  have hreachable : (sbMachine 64).ReachableVia InRange run :=
    .run_of_meets (.init rfl) hmeets hrun
  exact ⟨run, hrun, hreturned, hheld, builder_calls_sound le_rfl hreachable⟩

/-- `sb_init` does not append: it starts over, and when it fails nothing is left.  Beyond 2^63
bytes its loop runs through zero. -/
theorem init_starts_over :
    let fresh : Reallocated := some fun _ => 0
    let calls := [(SbCall.init 128, fresh), (.append (some (ascii "a")), fresh), (.init 128, none)]
    let ran := fun n => (sbMachine 64).run ⟨⟨[], 0, 0⟩, []⟩ (calls.take n)
    (ran 2).map (fun run => (run.history.map Prod.snd, run.builder.length, run.builder.capacity)) =
      some ([0, 0], 1, 256) ∧
    (ran 3).map (fun run => (run.history.map Prod.snd, run.builder.length, run.builder.capacity)) =
      some ([0, 0, -1], 0, 0) ∧
    ∀ rounds, sbInit64 rounds fresh (2 ^ 63 + 1) = none := by
  refine ⟨by decide +kernel, by decide +kernel, fun rounds => ?_⟩
  have hloop : Doubling.double? SIZE_WIDTH (2 ^ 63 + 1) rounds (2 ^ 8) = none :=
    Doubling.double?_pow (by norm_num) rounds (by norm_num)
  rw [sbInit64, if_neg (by norm_num), sbReserve64, if_neg (by norm_num), if_pos rfl,
    show (256 : ℕ) = 2 ^ 8 by norm_num, hloop]
  rfl

/-! ## The builder of the other modules -/

/-- Without an overflow the loop is the one that counts in ℕ. -/
theorem double?_eq_sbGrow {needed : ℕ} (hneeded : needed ≤ 2 ^ 63) : ∀ {rounds m size next : ℕ},
    rounds ≤ m + 1 → Doubling.double? SIZE_WIDTH needed rounds size = some next →
      sbGrow needed m size = next := by
  intro rounds
  induction rounds with
  | zero =>
    intro m size next _ h
    cases h
  | succ rounds ih =>
    intro m size next hle h
    rw [Doubling.double?] at h
    split_ifs at h with hsmall
    · rw [Doubling.mul_two_mod (by norm_num) hneeded hsmall] at h
      cases m with
      | zero =>
        obtain rfl : rounds = 0 := by omega
        cases h
      | succ m =>
        rw [sbGrow, if_pos hsmall]
        exact ih (by omega) h
    · cases h
      exact sbGrow_of_le (Nat.le_of_not_lt hsmall) m

section Refines

variable {rounds : ℕ} (hrounds : SIZE_WIDTH ≤ rounds) (allocOk : Bool)
  {builder : StringBuilder} {text : Bytes}

/-- A `realloc` that clears the new part of the array, if it succeeds. -/
def clearing (allocOk : Bool) : Reallocated := if allocOk then some fun _ => 0 else none

include hrounds

theorem sbReserve64_eq {needed : ℕ} (hneeded : needed ≤ 2 ^ 63) :
    sbReserve64 rounds (clearing allocOk) builder needed =
      some (sbReserve allocOk builder needed) := by
  unfold sbReserve64 sbReserve
  by_cases hfits : needed ≤ builder.capacity
  · rw [if_pos hfits, if_pos hfits]
  rw [if_neg hfits, if_neg hfits]
  have hpos : 1 ≤ (if builder.capacity = 0 then 256 else builder.capacity) := by
    split <;> omega
  generalize (if builder.capacity = 0 then 256 else builder.capacity) = start at hpos
  have henough : needed ≤ start * 2 ^ 63 := hneeded.trans (Nat.le_mul_of_pos_left _ hpos)
  have henough' : needed ≤ start * 2 ^ needed :=
    Nat.lt_two_pow_self.le.trans (Nat.le_mul_of_pos_left _ hpos)
  obtain ⟨next, hnext, -⟩ := Doubling.exists_double? (w := SIZE_WIDTH) (by norm_num) hneeded henough
  obtain ⟨next', hnext', -⟩ :=
    Doubling.exists_double? (w := SIZE_WIDTH) (by norm_num) hneeded henough'
  -- the same number, however many rounds the two are given
  have hgrow : sbGrow needed needed start = next := by
    rw [double?_eq_sbGrow hneeded le_rfl hnext']
    have h₁ := Doubling.double?_mono (Nat.le_max_left 64 (needed + 1)) hnext
    have h₂ := Doubling.double?_mono (Nat.le_max_right 64 (needed + 1)) hnext'
    exact Option.some.inj (h₂.symm.trans h₁)
  rw [Doubling.double?_mono hrounds hnext, Option.map_some]
  dsimp only
  rw [hgrow]
  cases allocOk with
  | false => rfl
  | true => simp [clearing]

theorem sbInit64_eq {initialCapacity : ℕ} (h : initialCapacity ≤ 2 ^ 63) :
    sbInit64 rounds (clearing allocOk) initialCapacity = some (sbInit allocOk initialCapacity) := by
  have hneeded : (if initialCapacity = 0 then 256 else initialCapacity) ≤ 2 ^ 63 := by
    split <;> omega
  rw [sbInit64, sbReserve64_eq hrounds allocOk hneeded, sbInit, Option.map_some]

theorem sbAppendN64_eq (h : builder.Holds text) {more : Bytes}
    (hlen : text.length + more.length < 2 ^ 62) :
    sbAppendN64 rounds (clearing allocOk) builder more = some (sbAppendN allocOk builder more) := by
  have hlength := h.length_eq
  have hneeded : (builder.length + more.length + 1) % 2 ^ SIZE_WIDTH =
      builder.length + more.length + 1 := Nat.mod_eq_of_lt (by norm_num; omega)
  rw [sbAppendN64, hneeded, sbReserve64_eq hrounds allocOk (by omega), Option.map_some,
    sbAppendN]
  rcases sbReserve_cases allocOk builder h.size (builder.length + more.length + 1) with
    ⟨reserved, heq, hsize, hreserved, hroom, -⟩ | ⟨-, -, heq⟩
  · have hend : (reserved.length + more.length) % 2 ^ SIZE_WIDTH = reserved.length + more.length :=
      Nat.mod_eq_of_lt (by norm_num; omega)
    simp only [heq, hend]
    rw [store_store (by omega)]
  · simp only [heq]
    rfl

theorem sbAppendf64_eq (h : builder.Holds text) {more : Bytes}
    (hlen : text.length + more.length < 2 ^ 62) :
    sbAppendf64 rounds (clearing allocOk) builder (some more) =
      some (sbAppendf allocOk builder more) := by
  have hlength := h.length_eq
  unfold sbAppendf64 sbAppendf
  by_cases hlong : INT_MAX < more.length
  · rw [if_pos hlong, Option.filter_some, if_neg (by simpa using hlong)]
  rw [if_neg hlong, Option.filter_some, if_pos (by simpa using hlong)]
  have hneeded : (builder.length + more.length + 1) % 2 ^ SIZE_WIDTH =
      builder.length + more.length + 1 := Nat.mod_eq_of_lt (by norm_num; omega)
  dsimp only
  rw [hneeded, sbReserve64_eq hrounds allocOk (by omega), Option.map_some]
  rcases sbReserve_cases allocOk builder h.size (builder.length + more.length + 1) with
    ⟨reserved, heq, -, hreserved, -, -⟩ | ⟨-, -, heq⟩
  · have hend : (reserved.length + more.length) % 2 ^ SIZE_WIDTH = reserved.length + more.length :=
      Nat.mod_eq_of_lt (by norm_num; omega)
    simp only [heq, hend]
  · simp only [heq]
    rfl

end Refines

end IotIde
