import IotIde.Foundation.JsonText

/-!
# Scanning with a depth

Code that does not parse JSON still finds its way through it by skipping strings and counting
brackets.  Whatever such a scan computes, it passes every value of a text as if the value were
not there.

* `StringScan` — a scan outside and inside strings, and `StringScan.strLit`, that it passes them;
* `DepthScan` — a scan by what it does with strings, plain bytes, separators and brackets;
* `DepthScan.doc` — it passes every parse tree with its depth unchanged;
* `DepthScan.ws`, `DepthScan.value` — the cases that a caller needs.
-/

namespace JsonText

open CText

/-! ## Strings -/

/-- A scan of bytes outside strings, and inside them, behind a backslash or not. -/
structure StringScan {β : Type*} (outside : Bytes → β) (inside : Bool → Bytes → β) : Prop where
  opening : ∀ rest, outside (quote :: rest) = inside false rest
  closing : ∀ rest, inside false (quote :: rest) = outside rest
  backslash : ∀ rest, inside false (backslash :: rest) = inside true rest
  escaped : ∀ b rest, inside true (b :: rest) = inside false rest
  plain : ∀ b rest, b ≠ quote → b ≠ CText.backslash → inside false (b :: rest) = inside false rest

/-- The scan goes on behind the string where it was in front of it. -/
theorem StringScan.strLit {β : Type*} {outside : Bytes → β} {inside : Bool → Bytes → β}
    (h : StringScan outside inside) (s : StrLit) (rest : Bytes) :
    outside (s.text ++ rest) = outside rest := by
  have hraw : ∀ raw, wellEscaped raw = true →
      inside false (raw ++ quote :: rest) = outside rest := by
    refine wellEscaped_induction ?_ ?_ ?_
    · exact h.closing rest
    · intro b raw hq hb _ ih
      rw [List.cons_append, h.plain b _ hq hb, ih]
    · intro b raw _ ih
      rw [List.cons_append, List.cons_append, h.backslash, h.escaped, ih]
  have htext : s.text ++ rest = quote :: (s.raw ++ quote :: rest) := by simp [StrLit.text]
  rw [htext, h.opening, hraw s.raw s.escaped]

/-! ## Brackets -/

/-- A scan of bytes at a depth.  Values are passed from the depth `floor` on, and what stands
inside a compound value from the depth 1 on. -/
structure DepthScan {β : Type*} (floor : ℤ) (scan : ℤ → Bytes → β) : Prop where
  floor_le : floor ≤ 1
  string : ∀ d, floor ≤ d → ∀ (s : StrLit) (rest : Bytes), scan d (s.text ++ rest) = scan d rest
  plain : ∀ d, floor ≤ d → ∀ b, isScalarByte b = true ∨ isJsonWs b = true → ∀ rest,
    scan d (b :: rest) = scan d rest
  separator : ∀ d, 1 ≤ d → ∀ b, b = comma ∨ b = colon → ∀ rest, scan d (b :: rest) = scan d rest
  brackets : ∀ d, floor ≤ d → ∀ a b,
    (a = lbrace ∧ b = rbrace) ∨ (a = lbracket ∧ b = rbracket) → ∀ body,
    (∀ d', 1 ≤ d' → ∀ rest, scan d' (body ++ rest) = scan d' rest) → ∀ rest,
    scan d (a :: (body ++ b :: rest)) = scan d rest

/-- Bytes of scalars and white space are no quotes, separators or brackets. -/
theorem ne_of_plain {b : UInt8} (hb : isScalarByte b = true ∨ isJsonWs b = true) {a : UInt8}
    (ha : a ∈ [quote, comma, colon, lbrace, rbrace, lbracket, rbracket]) : b ≠ a := by
  have hno : ∀ a ∈ [quote, comma, colon, lbrace, rbrace, lbracket, rbracket],
      ¬ (isScalarByte a = true ∨ isJsonWs a = true) := by decide +kernel
  rintro rfl
  exact hno b ha hb

namespace DepthScan

variable {β : Type*} {floor : ℤ} {scan : ℤ → Bytes → β} (h : DepthScan floor scan)
include h

theorem plains {d : ℤ} (hd : floor ≤ d) {l : Bytes}
    (hl : ∀ b ∈ l, isScalarByte b = true ∨ isJsonWs b = true) (rest : Bytes) :
    scan d (l ++ rest) = scan d rest := by
  induction l with
  | nil => rfl
  | cons b bs ih =>
    rw [List.cons_append, h.plain d hd b (hl b List.mem_cons_self)]
    exact ih fun b hb => hl b (List.mem_cons_of_mem _ hb)

theorem ws {d : ℤ} (hd : floor ≤ d) (w : Ws) (rest : Bytes) :
    scan d (w.text ++ rest) = scan d rest :=
  h.plains hd (fun b hb => Or.inr (List.all_eq_true.1 w.ok b hb)) rest

theorem name {d : ℤ} (hd : 1 ≤ d) (n : Name) (rest : Bytes) :
    scan d (n.text ++ rest) = scan d rest := by
  have hfloor : floor ≤ d := h.floor_le.trans hd
  have htext : n.text ++ rest = n.before.text ++ (n.key.text ++
      (n.after.text ++ colon :: (n.pad.text ++ rest))) := by simp [Name.text]
  rw [htext, h.ws hfloor, h.string d hfloor, h.ws hfloor, h.separator d hd colon (Or.inr rfl),
    h.ws hfloor]

/-- The scan passes any parse tree: a value from its floor on, the contents of a compound
value at any depth inside it. -/
theorem doc {p : Part} (t : Doc p) : ∀ d : ℤ, floor ≤ d → (p ≠ .value → 1 ≤ d) → ∀ rest : Bytes,
    scan d (t.text ++ rest) = scan d rest := by
  have hinside : ∀ {d : ℤ}, 1 ≤ d → floor ≤ d := fun hd => h.floor_le.trans hd
  induction t with
  | scalar s =>
    intro d hd _ rest
    exact h.plains hd (fun b hb => Or.inl (List.all_eq_true.1 s.ok b hb)) rest
  | string s => exact fun d hd _ rest => h.string d hd s rest
  | emptyArray w =>
    intro d hd _ rest
    have hpass := h.brackets d hd _ _ (Or.inr ⟨rfl, rfl⟩) w.text
      (fun d' hd' r => h.ws (hinside hd') w r) rest
    simpa [Doc.text] using hpass
  | array es ih =>
    intro d hd _ rest
    have hpass := h.brackets d hd _ _ (Or.inr ⟨rfl, rfl⟩) es.text
      (fun d' hd' r => ih d' (hinside hd') (fun _ => hd') r) rest
    simpa [Doc.text] using hpass
  | emptyObject w =>
    intro d hd _ rest
    have hpass := h.brackets d hd _ _ (Or.inl ⟨rfl, rfl⟩) w.text
      (fun d' hd' r => h.ws (hinside hd') w r) rest
    simpa [Doc.text] using hpass
  | object ms ih =>
    intro d hd _ rest
    have hpass := h.brackets d hd _ _ (Or.inl ⟨rfl, rfl⟩) ms.text
      (fun d' hd' r => ih d' (hinside hd') (fun _ => hd') r) rest
    simpa [Doc.text] using hpass
  | element w v w' ih =>
    intro d hd _ rest
    rw [Doc.text, List.append_assoc, List.append_assoc, h.ws hd,
      ih d hd (fun hne => absurd rfl hne), h.ws hd]
  | moreElements w v w' more ihv ih =>
    intro d hd hin rest
    have hone : 1 ≤ d := hin (by simp)
    have htext : (Doc.moreElements w v w' more).text ++ rest =
        w.text ++ (v.text ++ (w'.text ++ comma :: (more.text ++ rest))) := by simp [Doc.text]
    rw [htext, h.ws hd, ihv d hd (fun hne => absurd rfl hne), h.ws hd,
      h.separator d hone comma (Or.inl rfl), ih d hd (fun _ => hone)]
  | member n v w ih =>
    intro d hd hin rest
    rw [Doc.text, List.append_assoc, List.append_assoc, h.name (hin (by simp)),
      ih d hd (fun hne => absurd rfl hne), h.ws hd]
  | moreMembers n v w more ihv ih =>
    intro d hd hin rest
    have hone : 1 ≤ d := hin (by simp)
    have htext : (Doc.moreMembers n v w more).text ++ rest =
        n.text ++ (v.text ++ (w.text ++ comma :: (more.text ++ rest))) := by simp [Doc.text]
    rw [htext, h.name hone, ihv d hd (fun hne => absurd rfl hne), h.ws hd,
      h.separator d hone comma (Or.inl rfl), ih d hd (fun _ => hone)]

theorem value {d : ℤ} (hd : floor ≤ d) (v : Doc .value) (rest : Bytes) :
    scan d (v.text ++ rest) = scan d rest :=
  h.doc v d hd (fun hne => absurd rfl hne) rest

/-- Inside a compound value every part of it is passed. -/
theorem inside {p : Part} (t : Doc p) {d : ℤ} (hd : 1 ≤ d) (rest : Bytes) :
    scan d (t.text ++ rest) = scan d rest :=
  h.doc t d (h.floor_le.trans hd) (fun _ => hd) rest

end DepthScan

end JsonText
