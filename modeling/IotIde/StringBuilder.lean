import IotIde.Foundation.CText

/-!
# `string_builder.c`

The growing text buffer in which payloads, logs and status records are put together.
The builder is translated with its allocated array, so that its terminator and its
spare capacity are there to be talked about; every call takes the outcome of the
`realloc` it may need.

* `StringBuilder.Holds` — the invariant: the array has the stated capacity, there is
  room for a terminator, and the array starts with the text and the terminator;
* `sbInit_holds`, `sbAppendN_holds`, `sbAppendf_holds` — a call that succeeds appends
  exactly its text, and a call that fails changes nothing; beyond the `INT_MAX` bytes that
  `vsnprintf` can report `sb_appendf` always fails.
-/

namespace IotIde

open CText

/-- The largest length `vsnprintf` can return. -/
def INT_MAX : ℕ := 2147483647

/-- `StringBuilder` -/
structure StringBuilder where
  data : Bytes
  length : ℕ
  capacity : ℕ

/-- The doubling loop of `sb_reserve`, given enough rounds. -/
def sbGrow (needed : ℕ) : ℕ → ℕ → ℕ
  | 0, capacity => capacity
  | rounds + 1, capacity =>
    if capacity < needed then sbGrow needed rounds (capacity * 2) else capacity

/-- `sb_reserve`; `allocOk` is the outcome of the `realloc`, should one be needed. -/
def sbReserve (allocOk : Bool) (builder : StringBuilder) (needed : ℕ) : ℤ × StringBuilder :=
  if needed ≤ builder.capacity then (0, builder)
  else
    let start := if builder.capacity = 0 then 256 else builder.capacity
    let next := sbGrow needed needed start
    if allocOk then
      (0, { builder with
        data := builder.data ++ List.replicate (next - builder.data.length) 0
        capacity := next })
    else (-1, builder)

/-- `sb_init` -/
def sbInit (allocOk : Bool) (initialCapacity : ℕ) : ℤ × StringBuilder :=
  let (rc, builder) := sbReserve allocOk ⟨[], 0, 0⟩ (if initialCapacity = 0 then 256 else initialCapacity)
  if rc ≠ 0 then (-1, builder) else (0, { builder with data := store builder.data 0 [0] })

/-- `sb_append_n` -/
def sbAppendN (allocOk : Bool) (builder : StringBuilder) (text : Bytes) : ℤ × StringBuilder :=
  let (rc, builder') := sbReserve allocOk builder (builder.length + text.length + 1)
  if rc ≠ 0 then (-1, builder)
  else (0, { builder' with
    data := store builder'.data builder'.length (text ++ [0])
    length := builder'.length + text.length })

/-- `sb_append` -/
def sbAppend (allocOk : Bool) (builder : StringBuilder) (text : Bytes) : ℤ × StringBuilder :=
  sbAppendN allocOk builder (cstr text)

/-- `sb_appendf`, where `text` is the whole formatted text.  The measuring `vsnprintf`
returns a negative number for a text longer than `INT_MAX`. -/
def sbAppendf (allocOk : Bool) (builder : StringBuilder) (text : Bytes) : ℤ × StringBuilder :=
  if INT_MAX < text.length then (-1, builder)
  else
    let (rc, builder') := sbReserve allocOk builder (builder.length + text.length + 1)
    if rc ≠ 0 then (-1, builder)
    else (0, { builder' with
      data := store builder'.data builder'.length
        (snprintf (builder'.capacity - builder'.length) text ++ [0])
      length := builder'.length + text.length })

/-! ## The invariant -/

/-- The builder holds `text`. -/
structure StringBuilder.Holds (builder : StringBuilder) (text : Bytes) : Prop where
  size : builder.data.length = builder.capacity
  length_eq : builder.length = text.length
  room : builder.length < builder.capacity
  contents : text ++ [0] <+: builder.data

/-- The C string at `data`. -/
theorem StringBuilder.Holds.cstr {builder : StringBuilder} {text : Bytes}
    (h : builder.Holds text) (hnul : 0 ∉ text) : cstr builder.data = text := by
  obtain ⟨rest, hrest⟩ := h.contents
  rw [← hrest, List.append_assoc, List.singleton_append, cstr_append_nul hnul]

theorem sbGrow_le (needed : ℕ) : ∀ rounds capacity : ℕ, capacity ≤ sbGrow needed rounds capacity := by
  intro rounds
  induction rounds with
  | zero => intro capacity; exact le_rfl
  | succ rounds ih =>
    intro capacity
    rw [sbGrow]
    split
    · exact le_trans (by omega) (ih (capacity * 2))
    · exact le_rfl

/-- The doubling loop ends with enough room: a positive capacity reaches `needed` in at
most `needed` rounds. -/
theorem le_sbGrow (needed : ℕ) : ∀ rounds capacity : ℕ, 0 < capacity →
    needed ≤ capacity + rounds → needed ≤ sbGrow needed rounds capacity := by
  intro rounds
  induction rounds with
  | zero => intro capacity _ h; rw [sbGrow]; omega
  | succ rounds ih =>
    intro capacity hpos h
    rw [sbGrow]
    split
    · exact ih (capacity * 2) (by omega) (by omega)
    · omega

/-- `sb_reserve` either makes room and keeps the contents, or changes nothing. -/
theorem sbReserve_cases (allocOk : Bool) (builder : StringBuilder)
    (hsize : builder.data.length = builder.capacity) (needed : ℕ) :
    (∃ builder', sbReserve allocOk builder needed = (0, builder') ∧
      builder'.data.length = builder'.capacity ∧ builder'.length = builder.length ∧
      needed ≤ builder'.capacity ∧ builder.data <+: builder'.data) ∨
    (allocOk = false ∧ builder.capacity < needed ∧
      sbReserve allocOk builder needed = (-1, builder)) := by
  unfold sbReserve
  by_cases hfits : needed ≤ builder.capacity
  · exact Or.inl ⟨builder, if_pos hfits, hsize, rfl, hfits, List.prefix_refl _⟩
  · rw [if_neg hfits]
    cases allocOk with
    | false => exact Or.inr ⟨rfl, by omega, rfl⟩
    | true =>
      have hpos : 0 < (if builder.capacity = 0 then 256 else builder.capacity) := by
        split <;> omega
      have hstart : builder.capacity ≤ (if builder.capacity = 0 then 256 else builder.capacity) := by
        split <;> omega
      have hle := sbGrow_le needed needed (if builder.capacity = 0 then 256 else builder.capacity)
      have hneed := le_sbGrow needed needed _ hpos (by omega)
      refine Or.inl ⟨_, rfl, ?_, rfl, hneed, List.prefix_append _ _⟩
      simp only [List.length_append, List.length_replicate]
      omega

/-- What a successful append does to the array, whichever call made it. -/
theorem StringBuilder.Holds.append {builder builder' : StringBuilder} {text more : Bytes}
    (h : builder.Holds text) (hsize : builder'.data.length = builder'.capacity)
    (hlen : builder'.length = builder.length)
    (hroom : builder.length + more.length + 1 ≤ builder'.capacity)
    (hpre : builder.data <+: builder'.data) :
    StringBuilder.Holds ⟨store builder'.data builder'.length (more ++ [0]),
      builder'.length + more.length, builder'.capacity⟩ (text ++ more) := by
  have hl := h.length_eq
  refine ⟨?_, ?_, ?_, ?_⟩
  · rw [store_length, hsize]
    rw [hlen, hsize, List.length_append, List.length_singleton]
    omega
  · rw [List.length_append, hlen, hl]
  · show builder'.length + more.length < builder'.capacity
    omega
  · have htake : builder'.data.take builder'.length = text := by
      obtain ⟨rest, hrest⟩ := h.contents.trans hpre
      rw [← hrest, hlen, hl, List.append_assoc, List.take_left]
    refine ⟨builder'.data.drop (builder'.length + (more ++ [0]).length), ?_⟩
    rw [store, htake]
    simp only [List.append_assoc]

/-- After `sb_init` the builder is empty. -/
theorem sbInit_holds (initialCapacity : ℕ) :
    ∃ builder, sbInit true initialCapacity = (0, builder) ∧ builder.Holds [] := by
  unfold sbInit
  rcases sbReserve_cases true ⟨[], 0, 0⟩ rfl
    (if initialCapacity = 0 then 256 else initialCapacity) with
    ⟨builder', heq, hsize, hlen, hroom, -⟩ | ⟨h, -, -⟩
  · have hcap : 0 < builder'.capacity := by
      have : 0 < (if initialCapacity = 0 then 256 else initialCapacity) := by split <;> omega
      omega
    simp only [heq]
    refine ⟨_, if_neg (by simp), ?_, ?_, ?_, ?_⟩
    · rw [store_length, hsize]
      rw [List.length_singleton]
      omega
    · exact hlen
    · show builder'.length < builder'.capacity
      rw [hlen]
      exact hcap
    · exact ⟨builder'.data.drop 1, by simp [store]⟩
  · cases h

theorem sbInit_false (initialCapacity : ℕ) : (sbInit false initialCapacity).1 = -1 := by
  have hneeded : ¬ (if initialCapacity = 0 then 256 else initialCapacity) ≤ 0 := by
    split <;> omega
  simp only [sbInit, sbReserve, if_neg hneeded]
  rfl

/-- `sb_append_n` appends its text or changes nothing. -/
theorem sbAppendN_holds (allocOk : Bool) {builder : StringBuilder} {text : Bytes}
    (h : builder.Holds text) (more : Bytes) :
    (∃ builder', sbAppendN allocOk builder more = (0, builder') ∧ builder'.Holds (text ++ more)) ∨
      (allocOk = false ∧ sbAppendN allocOk builder more = (-1, builder)) := by
  unfold sbAppendN
  rcases sbReserve_cases allocOk builder h.size (builder.length + more.length + 1) with
    ⟨builder', heq, hsize, hlen, hroom, hpre⟩ | ⟨hfail, -, heq⟩
  · simp only [heq]
    exact Or.inl ⟨_, if_neg (by simp), h.append hsize hlen hroom hpre⟩
  · simp only [heq]
    exact Or.inr ⟨hfail, if_pos (by simp)⟩

/-- `sb_appendf` appends its formatted text, unless that is longer than `INT_MAX` or
the allocation fails; then it changes nothing. -/
theorem sbAppendf_holds (allocOk : Bool) {builder : StringBuilder} {text : Bytes}
    (h : builder.Holds text) (more : Bytes) :
    (∃ builder', sbAppendf allocOk builder more = (0, builder') ∧ more.length ≤ INT_MAX ∧
      builder'.Holds (text ++ more)) ∨
    ((INT_MAX < more.length ∨ allocOk = false) ∧ sbAppendf allocOk builder more = (-1, builder)) := by
  unfold sbAppendf
  by_cases hmax : INT_MAX < more.length
  · exact Or.inr ⟨Or.inl hmax, if_pos hmax⟩
  · simp only [if_neg hmax]
    rcases sbReserve_cases allocOk builder h.size (builder.length + more.length + 1) with
      ⟨builder', heq, hsize, hlen, hroom, hpre⟩ | ⟨hfail, -, heq⟩
    · simp only [heq]
      have hwhole : snprintf (builder'.capacity - builder'.length) more = more :=
        snprintf_of_lt (by omega)
      rw [hwhole]
      exact Or.inl ⟨_, if_neg (by simp), by omega, h.append hsize hlen hroom hpre⟩
    · simp only [heq]
      exact Or.inr ⟨Or.inr hfail, if_pos (by simp)⟩

/-- With memory every append goes through. -/
theorem StringBuilder.Holds.appendf {builder : StringBuilder} {text : Bytes}
    (h : builder.Holds text) {more : Bytes} (hlen : more.length ≤ INT_MAX) :
    (sbAppendf true builder more).2.Holds (text ++ more) := by
  rcases sbAppendf_holds true h more with ⟨builder', heq, -, hholds⟩ | ⟨hlt | hfail, -⟩
  · rw [heq]
    exact hholds
  · omega
  · cases hfail

theorem StringBuilder.Holds.appendString {builder : StringBuilder} {text : Bytes}
    (h : builder.Holds text) {more : Bytes} (hnul : 0 ∉ more) :
    (sbAppend true builder more).2.Holds (text ++ more) := by
  rw [sbAppend, cstr_of_nul_free hnul]
  rcases sbAppendN_holds true h more with ⟨builder', heq, hholds⟩ | ⟨hfail, -⟩
  · rw [heq]
    exact hholds
  · cases hfail

/-! ## One text -/

/-- `sb_init`, one `sb_appendf`, and the string that the builder then holds. -/
def sbFormat (alloc : ℕ → Bool) (initialCapacity : ℕ) (text : Bytes) : Option Bytes :=
  let built := sbInit (alloc 0) initialCapacity
  if built.1 ≠ 0 then none else some (cstr (sbAppendf (alloc 1) built.2 text).2.data)

/-- With memory a text of at most `INT_MAX` bytes is formatted whole. -/
theorem sbFormat_eq (initialCapacity : ℕ) {text : Bytes} (hnul : 0 ∉ text)
    (hlen : text.length ≤ INT_MAX) : sbFormat (fun _ => true) initialCapacity text = some text := by
  obtain ⟨builder, hinit, hempty⟩ := sbInit_holds initialCapacity
  have happended : cstr (sbAppendf true builder text).2.data = text :=
    (hempty.appendf hlen).cstr hnul
  simp only [sbFormat, hinit, happended]
  rfl

/-- A longer text is not formatted at all. -/
theorem sbFormat_long (initialCapacity : ℕ) {text : Bytes} (hlen : INT_MAX < text.length) :
    sbFormat (fun _ => true) initialCapacity text = some [] := by
  obtain ⟨builder, hinit, hempty⟩ := sbInit_holds initialCapacity
  have hunchanged : (sbAppendf true builder text).2 = builder := by
    rw [sbAppendf, if_pos hlen]
  have hnil : cstr builder.data = [] := hempty.cstr List.not_mem_nil
  simp only [sbFormat, hinit, hunchanged, hnil]
  rfl

theorem sbGrow_of_le {needed capacity : ℕ} (h : needed ≤ capacity) (rounds : ℕ) :
    sbGrow needed rounds capacity = capacity := by
  cases rounds with
  | zero => rfl
  | succ rounds => rw [sbGrow, if_neg (by omega)]

/-- Nothing smaller than 256 bytes is allocated. -/
theorem sbInit_capacity {initialCapacity : ℕ} (h : initialCapacity ≤ 256) :
    (sbInit true initialCapacity).2.capacity = 256 := by
  have hneeded : 0 < (if initialCapacity = 0 then 256 else initialCapacity) ∧
      (if initialCapacity = 0 then 256 else initialCapacity) ≤ 256 := by
    split <;> omega
  unfold sbInit sbReserve
  generalize (if initialCapacity = 0 then 256 else initialCapacity) = needed at hneeded
  rw [if_neg (show ¬ needed ≤ 0 by omega)]
  simp only [if_true, sbGrow_of_le hneeded.2]
  rfl

/-- `sb_appendf` asks for memory only if the text does not fit. -/
theorem sbAppendf_of_fits {builder : StringBuilder} {text : Bytes} (allocOk : Bool)
    (h : builder.length + text.length < builder.capacity) :
    sbAppendf allocOk builder text = sbAppendf true builder text := by
  have hfits : builder.length + text.length + 1 ≤ builder.capacity := h
  simp only [sbAppendf, sbReserve, if_pos hfits]

theorem sbAppendf_refused {builder : StringBuilder} {text : Bytes}
    (h : builder.capacity ≤ builder.length + text.length) :
    sbAppendf false builder text = (-1, builder) := by
  have hfull : ¬ builder.length + text.length + 1 ≤ builder.capacity := by omega
  simp only [sbAppendf, sbReserve, if_neg hfull]
  exact ite_self _

/-- What becomes of a text in a fresh builder: it is whole if it needs no more than the first
256 bytes or more can be had, and dropped otherwise. -/
theorem sbFormat_cases (alloc : ℕ → Bool) {initialCapacity : ℕ} (hcapacity : initialCapacity ≤ 256)
    {text : Bytes} (hnul : 0 ∉ text) (hlen : text.length ≤ INT_MAX) :
    sbFormat alloc initialCapacity text =
      if alloc 0 = false then none
      else if text.length < 256 ∨ alloc 1 = true then some text else some [] := by
  unfold sbFormat
  cases halloc : alloc 0 with
  | false =>
    rw [if_pos rfl]
    exact if_pos (by rw [sbInit_false]; decide)
  | true =>
    rw [if_neg (show ¬ true = false by decide)]
    obtain ⟨builder, hinit, hempty⟩ := sbInit_holds initialCapacity
    have hroom := sbInit_capacity hcapacity
    have hlength : builder.length = 0 := hempty.length_eq
    simp only [hinit] at hroom ⊢
    rw [if_neg (show ¬ (0 : ℤ) ≠ 0 by decide)]
    by_cases hfits : text.length < 256 ∨ alloc 1 = true
    · -- the text is appended as with memory
      have htrue : sbAppendf (alloc 1) builder text = sbAppendf true builder text := by
        rcases hfits with h | h
        · exact sbAppendf_of_fits _ (by omega)
        · rw [h]
      have hwhole := sbFormat_eq initialCapacity hnul hlen
      rw [sbFormat, hinit, if_neg (show ¬ (0 : ℤ) ≠ 0 by decide)] at hwhole
      rw [htrue, if_pos hfits, hwhole]
    · rw [if_neg hfits]
      obtain ⟨hlong, hrefused⟩ := not_or.1 hfits
      rw [Bool.eq_false_iff.2 hrefused, sbAppendf_refused (by omega)]
      exact congrArg some (hempty.cstr List.not_mem_nil)

theorem sbFormat_true (initialCapacity : ℕ) (text : Bytes) :
    ∃ formatted, sbFormat (fun _ => true) initialCapacity text = some formatted := by
  obtain ⟨builder, hinit, -⟩ := sbInit_holds initialCapacity
  exact ⟨_, by rw [sbFormat, hinit, if_neg (not_not.2 rfl)]⟩

end IotIde
