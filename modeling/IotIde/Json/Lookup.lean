import IotIde.Json.Strings

/-!
# What the key search finds

`json_find_after_key` looks for the quoted key as a substring, with no notion of
nesting or of being inside a string.  On a JSON text it nevertheless stops at one
particular member, and this file says which.

* `Passable`, `Clear` — the search does not take the gap between two strings of the text
  for the key; it never does for a key without commas and colons, a `SearchKey`;
* `Finds` — the search, started at one point of a text, passes some members and goes
  on at another point, or stops at the first of them it takes for the key;
* `finds_clear` — over a parse tree it passes all members of the tree at every depth in
  document order (one case per constructor);
* `located_clear`, `jsonFindAfterKey_doc` — so on a whole text it stops at the first member
  in document order whose name is the key, or ends in an escaped quote and the key.
-/

namespace IotIde

open CText JsonText

/-! ## The search, step by step -/

/-- A key that fits the pattern buffer and needs no escape. -/
structure PatternKey (key : Bytes) : Prop where
  fits : key.length ≤ 125
  quote_notMem : quote ∉ key
  backslash_notMem : backslash ∉ key

/-- A key the search can be trusted with: it has no byte that separates two strings of a
JSON text. -/
structure SearchKey (key : Bytes) : Prop extends PatternKey key where
  comma_notMem : comma ∉ key
  colon_notMem : colon ∉ key

instance (key : Bytes) : Decidable (PatternKey key) :=
  decidable_of_iff (key.length ≤ 125 ∧ quote ∉ key ∧ backslash ∉ key)
    ⟨fun ⟨a, b, c⟩ => ⟨a, b, c⟩, fun ⟨a, b, c⟩ => ⟨a, b, c⟩⟩

instance (key : Bytes) : Decidable (SearchKey key) :=
  decidable_of_iff (PatternKey key ∧ comma ∉ key ∧ colon ∉ key)
    ⟨fun ⟨a, b, c⟩ => ⟨a, b, c⟩, fun ⟨a, b, c⟩ => ⟨a, b, c⟩⟩

theorem jsonPattern_eq {key : Bytes} (h : key.length ≤ 125) :
    jsonPattern key = quote :: (key ++ [quote]) := by
  refine snprintf_of_lt ?_
  simp only [List.length_cons, List.length_append, List.length_nil]
  omega

theorem drop_length_lt {pat found cursor : Bytes} (hpat : pat ≠ []) (hs : found <:+ cursor)
    (hp : pat <+: found) : (found.drop pat.length).length < cursor.length := by
  have h₁ := hs.length_le
  have h₂ := hp.length_le
  have h₃ := List.length_pos_iff.2 hpat
  rw [List.length_drop]
  omega

/-- The number of rounds allowed does not matter once it exceeds the text's length. -/
theorem jsonFindAfterKeyLoop_fuel {pat : Bytes} (hpat : pat ≠ []) :
    ∀ (n m : ℕ) (cursor : Bytes), cursor.length < n → cursor.length < m →
      jsonFindAfterKeyLoop pat n cursor = jsonFindAfterKeyLoop pat m cursor := by
  intro n
  induction n with
  | zero => intro m cursor h; omega
  | succ n ih =>
    intro m cursor hn hm
    obtain ⟨m, rfl⟩ : ∃ k, m = k + 1 := ⟨m - 1, by omega⟩
    rw [jsonFindAfterKeyLoop, jsonFindAfterKeyLoop]
    cases hf : strstr pat cursor with
    | none => rfl
    | some found =>
      obtain ⟨hs, hp⟩ := strstr_some hf
      have hlt := drop_length_lt hpat hs hp
      simp only
      rw [ih m (found.drop pat.length) (by omega) (by omega)]

/-- Where the search goes from behind a quoted key: to the value if a colon follows,
and on with the text otherwise. -/
def afterName (key rest : Bytes) : Option Bytes :=
  if (jsonSkipWs rest).head? = some colon then some (jsonSkipWs (jsonSkipWs rest).tail)
  else jsonFindAfterKey rest key

theorem jsonFindAfterKey_eq {key : Bytes} (hk : PatternKey key) (json : Bytes) :
    jsonFindAfterKey json key =
      (strstr (quote :: (key ++ [quote])) json).bind
        fun found => afterName key (found.drop (key.length + 2)) := by
  have hpat : quote :: (key ++ [quote]) ≠ [] := by simp
  rw [jsonFindAfterKey, jsonPattern_eq hk.fits, jsonFindAfterKeyLoop]
  cases hf : strstr (quote :: (key ++ [quote])) json with
  | none => rfl
  | some found =>
    obtain ⟨hs, hp⟩ := strstr_some hf
    have hlt := drop_length_lt hpat hs hp
    simp only [Option.bind_some]
    have hlen : (quote :: (key ++ [quote])).length = key.length + 2 := by simp
    rw [jsonFindAfterKeyLoop_fuel hpat json.length
      ((found.drop (quote :: (key ++ [quote])).length).length + 1) _ hlt (Nat.lt_succ_self _),
      hlen, afterName, jsonFindAfterKey, jsonPattern_eq hk.fits]

section Search

variable {key : Bytes} (hk : PatternKey key)
include hk

theorem jsonFindAfterKey_nil : jsonFindAfterKey [] key = none := by
  rw [jsonFindAfterKey_eq hk, strstr, if_neg (by simp)]
  rfl

/-- The search passes every byte that is not a quote. -/
theorem jsonFindAfterKey_cons {c : UInt8} (hc : c ≠ quote) (cs : Bytes) :
    jsonFindAfterKey (c :: cs) key = jsonFindAfterKey cs key := by
  rw [jsonFindAfterKey_eq hk, strstr_cons_ne hc, ← jsonFindAfterKey_eq hk]

theorem jsonFindAfterKey_append {l : Bytes} (hl : quote ∉ l) (rest : Bytes) :
    jsonFindAfterKey (l ++ rest) key = jsonFindAfterKey rest key := by
  induction l with
  | nil => rfl
  | cons c cs ih =>
    simp only [List.mem_cons, not_or] at hl
    rw [List.cons_append, jsonFindAfterKey_cons hk (Ne.symm hl.1), ih hl.2]

/-- It passes a quote that the key and another quote do not follow. -/
theorem jsonFindAfterKey_quote_ne {cs : Bytes} (h : ¬ key ++ [quote] <+: cs) :
    jsonFindAfterKey (quote :: cs) key = jsonFindAfterKey cs key := by
  have hn : ¬ quote :: (key ++ [quote]) <+: quote :: cs := by
    rwa [List.cons_prefix_cons, eq_self_iff_true, true_and]
  rw [jsonFindAfterKey_eq hk, strstr_cons_of_not_prefix hn, ← jsonFindAfterKey_eq hk]

/-- At the quoted key it looks for the colon. -/
theorem jsonFindAfterKey_key (rest : Bytes) :
    jsonFindAfterKey (quote :: (key ++ quote :: rest)) key = afterName key rest := by
  have hp : quote :: (key ++ [quote]) <+: quote :: (key ++ quote :: rest) :=
    ⟨rest, by simp⟩
  rw [jsonFindAfterKey_eq hk, strstr_of_prefix hp, Option.bind_some]
  congr 1
  rw [List.drop_succ_cons, show key.length + 1 = (key ++ [quote]).length by simp,
    show key ++ quote :: rest = (key ++ [quote]) ++ rest by simp, List.drop_left]

end Search

/-! ## Passing a string literal -/

/-- Between here and the next quote there is a comma or a colon. -/
def separated : Bytes → Bool
  | [] => true
  | c :: cs => if c = quote then false else c = comma || c = colon || separated cs

theorem separated_append {l : Bytes} (hl : quote ∉ l) {rest : Bytes} (h : separated rest = true) :
    separated (l ++ rest) = true := by
  induction l with
  | nil => exact h
  | cons c cs ih =>
    simp only [List.mem_cons, not_or] at hl
    rw [List.cons_append, separated, if_neg (Ne.symm hl.1), ih hl.2, Bool.or_true]

theorem separated_comma (rest : Bytes) : separated (comma :: rest) = true := by
  rw [separated, if_neg (by decide)]
  rfl

theorem separated_colon (rest : Bytes) : separated (colon :: rest) = true := by
  rw [separated, if_neg (by decide)]
  rfl

/-- A comma or a colon lies between here and the next quote, and the key has neither. -/
theorem not_prefix_of_separated {key : Bytes} (hk : SearchKey key) {rest : Bytes}
    (h : separated rest = true) : ¬ key ++ [quote] <+: rest := by
  have main : ∀ (k rest : Bytes), comma ∉ k → colon ∉ k → separated rest = true →
      ¬ k ++ [quote] <+: rest := by
    intro k
    induction k with
    | nil =>
      intro rest _ _ h hp
      obtain ⟨u, rfl⟩ := hp
      exact absurd h (by simp [separated])
    | cons c cs ih =>
      intro rest h₁ h₂ h hp
      obtain ⟨u, rfl⟩ := hp
      simp only [List.mem_cons, not_or] at h₁ h₂
      simp only [List.cons_append, separated] at h
      split at h
      · cases h
      · simp only [Bool.or_eq_true, decide_eq_true_eq] at h
        rcases h with (h | h) | h
        · exact h₁.1 h.symm
        · exact h₂.1 h.symm
        · exact ih _ h₁.2 h₂.2 h ⟨u, rfl⟩
  exact main key rest hk.comma_notMem hk.colon_notMem h

/-- The closing quote in front of `rest` opens no match that matters: if the key alone stands
between it and the next quote, then the string that begins there neither begins with a colon
nor is the key. -/
def Passable (key rest : Bytes) : Prop :=
  key ++ [quote] <+: rest → (jsonSkipWs (rest.drop (key.length + 1))).head? ≠ some colon ∧
    ¬ key ++ [quote] <+: rest.drop (key.length + 1)

instance (key rest : Bytes) : Decidable (Passable key rest) :=
  inferInstanceAs (Decidable (_ → _))

theorem passable_of_separated {key : Bytes} (hk : SearchKey key) {rest : Bytes}
    (h : separated rest = true) : Passable key rest :=
  fun hp => absurd hp (not_prefix_of_separated hk h)

/-- A match that a closing quote opens, and that no colon follows, ends behind the opening
quote of the next string, which the search would have passed as well. -/
theorem jsonFindAfterKey_closing {key : Bytes} (hk : PatternKey key) {rest : Bytes}
    (h : Passable key rest) :
    jsonFindAfterKey (quote :: rest) key = jsonFindAfterKey rest key := by
  by_cases hp : key ++ [quote] <+: rest
  · obtain ⟨hcolon, hnext⟩ := h hp
    obtain ⟨cs, rfl⟩ := hp
    rw [show key.length + 1 = (key ++ [quote]).length by simp, List.drop_left] at hcolon hnext
    rw [List.append_assoc, List.singleton_append, jsonFindAfterKey_key hk, afterName,
      if_neg hcolon, jsonFindAfterKey_append hk hk.quote_notMem, jsonFindAfterKey_quote_ne hk hnext]
  · exact jsonFindAfterKey_quote_ne hk hp

/-- The search takes a literal for the key when its raw contents are the key, or end
in an (escaped) quote and the key. -/
def namesKey (key : Bytes) (s : StrLit) : Bool := decide (quote :: key <:+ quote :: s.raw)

/-- From an opening quote the whole key matches only if it is the whole literal. -/
theorem key_prefix_iff {key : Bytes} (hk : PatternKey key) {raw : Bytes}
    (hraw : wellEscaped raw = true) (rest : Bytes) :
    key ++ [quote] <+: raw ++ quote :: rest ↔ raw = key := by
  have main : ∀ raw, wellEscaped raw = true → ∀ k, quote ∉ k → backslash ∉ k →
      (k ++ [quote] <+: raw ++ quote :: rest ↔ raw = k) := by
    refine wellEscaped_induction ?_ ?_ ?_
    · intro k hq _
      cases k with
      | nil => simp
      | cons c cs =>
        simp only [List.mem_cons, not_or] at hq
        simp [List.cons_prefix_cons, Ne.symm hq.1]
    · intro b raw hbq _ _ ih k hq hb
      cases k with
      | nil => simp [List.cons_prefix_cons, Ne.symm hbq]
      | cons c cs =>
        simp only [List.mem_cons, not_or] at hq hb
        rw [List.cons_append, List.cons_append, List.cons_prefix_cons, ih cs hq.2 hb.2,
          List.cons.injEq, eq_comm (a := c)]
    · intro b raw _ _ k hq hb
      cases k with
      | nil =>
        have hne : quote ≠ backslash := by decide
        simp [List.cons_prefix_cons, hne]
      | cons c cs =>
        simp only [List.mem_cons, not_or] at hb
        simp [List.cons_prefix_cons, Ne.symm hb.1, hb.1]
  exact main raw hraw key hk.quote_notMem hk.backslash_notMem

/-- Passing the rest of a literal, from behind its opening quote or one of its escaped
quotes: only an escaped quote can still open a match. -/
theorem jsonFindAfterKey_raw {key : Bytes} (hk : PatternKey key) {raw : Bytes}
    (hraw : wellEscaped raw = true) {rest : Bytes} :
    quote :: key <:+ raw ∨ Passable key rest → jsonFindAfterKey (raw ++ quote :: rest) key =
      if quote :: key <:+ raw then afterName key rest else jsonFindAfterKey rest key := by
  refine wellEscaped_induction (P := fun raw => quote :: key <:+ raw ∨ Passable key rest →
    jsonFindAfterKey (raw ++ quote :: rest) key =
      if quote :: key <:+ raw then afterName key rest else jsonFindAfterKey rest key)
    ?_ ?_ ?_ raw hraw
  · intro hrest
    rw [List.nil_append, jsonFindAfterKey_closing hk (hrest.resolve_left (by simp)),
      if_neg (by simp)]
  · intro b raw hbq _ _ ih hrest
    have hsuf : quote :: key <:+ b :: raw ↔ quote :: key <:+ raw := by
      rw [List.suffix_cons_iff, or_iff_right]
      intro h
      exact hbq (List.cons.inj h).1.symm
    rw [hsuf] at hrest
    rw [List.cons_append, jsonFindAfterKey_cons hk hbq, ih hrest]
    simp only [hsuf]
  · intro b raw hw ih hrest
    have hne : backslash ≠ quote := by decide
    have hdrop : quote :: key <:+ backslash :: b :: raw ↔ quote :: key <:+ b :: raw := by
      rw [List.suffix_cons_iff, or_iff_right]
      intro h
      exact hne (List.cons.inj h).1.symm
    rw [hdrop] at hrest
    rw [List.cons_append, List.cons_append, jsonFindAfterKey_cons hk hne]
    simp only [hdrop]
    by_cases hb : b = quote
    · subst hb
      by_cases hkey : raw = key
      · subst hkey
        rw [jsonFindAfterKey_key hk, if_pos (List.suffix_refl _)]
      · have hsuf : quote :: key <:+ quote :: raw ↔ quote :: key <:+ raw := by
          rw [List.suffix_cons_iff, or_iff_right]
          intro h
          exact hkey (List.cons.inj h).2.symm
        rw [hsuf] at hrest
        rw [jsonFindAfterKey_quote_ne hk (by rwa [key_prefix_iff hk hw]), ih hrest]
        simp only [hsuf]
    · have hsuf : quote :: key <:+ b :: raw ↔ quote :: key <:+ raw := by
        rw [List.suffix_cons_iff, or_iff_right]
        intro h
        exact hb (List.cons.inj h).1.symm
      rw [hsuf] at hrest
      rw [jsonFindAfterKey_cons hk hb, ih hrest]
      simp only [hsuf]

/-- Passing a whole literal. -/
theorem jsonFindAfterKey_strLit {key : Bytes} (hk : PatternKey key) (s : StrLit) {rest : Bytes}
    (hrest : namesKey key s = true ∨ Passable key rest) :
    jsonFindAfterKey (s.text ++ rest) key =
      if namesKey key s then afterName key rest else jsonFindAfterKey rest key := by
  have htext : s.text ++ rest = quote :: (s.raw ++ quote :: rest) := by simp [StrLit.text]
  rw [htext]
  by_cases hkey : s.raw = key
  · have hn : namesKey key s = true := by
      rw [namesKey, hkey]
      exact decide_eq_true (List.suffix_refl _)
    rw [hkey, jsonFindAfterKey_key hk, if_pos hn]
  · have hsuf : namesKey key s = true ↔ quote :: key <:+ s.raw := by
      rw [namesKey, decide_eq_true_iff, List.suffix_cons_iff, or_iff_right]
      intro h
      exact hkey (List.cons.inj h).2.symm
    rw [hsuf] at hrest
    rw [jsonFindAfterKey_quote_ne hk (by rwa [key_prefix_iff hk s.escaped]),
      jsonFindAfterKey_raw hk s.escaped hrest]
    simp only [hsuf]

/-! ## White space and the ends of values -/

theorem jsonSkipWs_ws (w : Ws) (rest : Bytes) : jsonSkipWs (w.text ++ rest) = jsonSkipWs rest := by
  refine List.dropWhile_append_of_pos fun b hb => ?_
  exact isSpace_of_isJsonWs (List.all_eq_true.1 w.ok b hb)

theorem jsonSkipWs_cons {c : UInt8} (h : isSpace c = false) (cs : Bytes) :
    jsonSkipWs (c :: cs) = c :: cs :=
  List.dropWhile_cons_of_neg (by simp [h])

theorem quote_notMem_ws (w : Ws) : quote ∉ w.text := by
  intro h
  exact absurd (List.all_eq_true.1 w.ok quote h) (by decide)

/-- A member's value is followed by white space and a comma or a closing bracket. -/
def Ended (rest : Bytes) : Prop :=
  ∃ (w : Ws) (c : UInt8) (u : Bytes), rest = w.text ++ c :: u ∧ endsScalar c = true

theorem Ended.of_ws (w : Ws) {rest : Bytes} (h : Ended rest) : Ended (w.text ++ rest) := by
  obtain ⟨w', c, u, rfl, hc⟩ := h
  refine ⟨⟨w.text ++ w'.text, ?_⟩, c, u, by simp, hc⟩
  rw [List.all_append, w.ok, w'.ok, Bool.and_true]

theorem Ended.cons {c : UInt8} (h : endsScalar c = true) (u : Bytes) : Ended (c :: u) :=
  ⟨Ws.none, c, u, rfl, h⟩

theorem endsScalar_cases {c : UInt8} (h : endsScalar c = true) :
    c = comma ∨ c = rbrace ∨ c = rbracket := by
  simpa [endsScalar, or_assoc] using h

/-- No colon follows a value. -/
theorem Ended.head_ne_colon {rest : Bytes} (h : Ended rest) :
    (jsonSkipWs rest).head? ≠ some colon := by
  obtain ⟨w, c, u, rfl, hc⟩ := h
  rw [jsonSkipWs_ws]
  rcases endsScalar_cases hc with rfl | rfl | rfl <;>
    · rw [jsonSkipWs_cons (by decide), List.head?_cons, Ne, Option.some.injEq]
      decide

/-- A value starts with a byte that is not white space. -/
theorem exists_text_eq_cons : ∀ v : Doc .value, ∃ b bs, v.text = b :: bs ∧ isSpace b = false
  | .scalar ⟨b :: bs, _, ok⟩ => by
    simp only [List.all_cons, isScalarByte, Bool.and_eq_true, Bool.not_eq_true'] at ok
    exact ⟨b, bs, rfl, by simp [ok.1]⟩
  | .string s => ⟨quote, s.raw ++ [quote], rfl, by decide⟩
  | .emptyArray w => ⟨lbracket, w.text ++ [rbracket], rfl, by decide⟩
  | .array es => ⟨lbracket, es.text ++ [rbracket], rfl, by decide⟩
  | .emptyObject w => ⟨lbrace, w.text ++ [rbrace], rfl, by decide⟩
  | .object ms => ⟨lbrace, ms.text ++ [rbrace], rfl, by decide⟩

theorem jsonSkipWs_value (v : Doc .value) (rest : Bytes) :
    jsonSkipWs (v.text ++ rest) = v.text ++ rest := by
  obtain ⟨b, bs, h, hb⟩ := exists_text_eq_cons v
  rw [h, List.cons_append, jsonSkipWs_cons hb]

/-! ## Passing a parse tree -/

/-- The first of the members that the search takes for the key. -/
def firstNamed (key : Bytes) (ms : List (StrLit × Doc .value)) : Option (Doc .value) :=
  (ms.find? fun m => namesKey key m.1).map Prod.snd

/-- Started at `cursor`, the search passes the members `ms` and goes on at `rest`,
unless it stops at the value of one of them. -/
def Finds (key : Bytes) (ms : List (StrLit × Doc .value)) (cursor rest : Bytes) : Prop :=
  match firstNamed key ms with
  | none => jsonFindAfterKey cursor key = jsonFindAfterKey rest key
  | some v => ∃ tail, jsonFindAfterKey cursor key = some (v.text ++ tail) ∧ Ended tail

section Passing

variable {key : Bytes}

theorem Finds.nil {cursor rest : Bytes}
    (h : jsonFindAfterKey cursor key = jsonFindAfterKey rest key) : Finds key [] cursor rest := h

/-- Passing two stretches of text, one after the other. -/
theorem Finds.append {ms ms' : List (StrLit × Doc .value)} {a b c : Bytes}
    (h : Finds key ms a b) (h' : firstNamed key ms = none → Finds key ms' b c) :
    Finds key (ms ++ ms') a c := by
  unfold Finds firstNamed at *
  rw [List.find?_append]
  cases hm : ms.find? fun m => namesKey key m.1 with
  | none =>
    simp only [hm, Option.map_none, Option.none_or] at h ⊢
    rw [h]
    exact h' (by rw [hm, Option.map_none])
  | some m =>
    simp only [hm, Option.map_some, Option.some_or] at h ⊢
    exact h

variable (hk : PatternKey key)
include hk

/-- Text without quotes is passed. -/
theorem Finds.skip {ms : List (StrLit × Doc .value)} {l a b : Bytes} (hl : quote ∉ l)
    (h : Finds key ms a b) : Finds key ms (l ++ a) b := by
  unfold Finds at *
  rwa [jsonFindAfterKey_append hk hl]

/-- A string that is a value is passed whatever it contains. -/
theorem Finds.string (s : StrLit) {rest : Bytes}
    (hrest : namesKey key s = true ∨ Passable key rest)
    (hcolon : (jsonSkipWs rest).head? ≠ some colon) : Finds key [] (s.text ++ rest) rest := by
  refine Finds.nil ?_
  rw [jsonFindAfterKey_strLit hk s hrest, afterName, if_neg hcolon, ite_self]

/-- At a member the search stops if the name is the key, and otherwise goes on inside
the value. -/
theorem Finds.member (n : Name) (v : Doc .value) {ms : List (StrLit × Doc .value)}
    {mid rest : Bytes} (hmid : Ended mid)
    (hname : namesKey key n.key = true ∨
      Passable key (n.after.text ++ colon :: (n.pad.text ++ (v.text ++ mid))))
    (h : namesKey key n.key = false → Finds key ms (v.text ++ mid) rest) :
    Finds key ((n.key, v) :: ms) (n.text ++ (v.text ++ mid)) rest := by
  have htext : n.text ++ (v.text ++ mid) = n.before.text ++ (n.key.text ++
      (n.after.text ++ colon :: (n.pad.text ++ (v.text ++ mid)))) := by
    simp [Name.text]
  have hfind : jsonFindAfterKey (n.text ++ (v.text ++ mid)) key =
      if namesKey key n.key then some (v.text ++ mid)
      else jsonFindAfterKey (v.text ++ mid) key := by
    rw [htext, jsonFindAfterKey_append hk (quote_notMem_ws _), jsonFindAfterKey_strLit hk _ hname]
    congr 1
    · rw [afterName, jsonSkipWs_ws, jsonSkipWs_cons (by decide), List.head?_cons, if_pos rfl,
        List.tail_cons, jsonSkipWs_ws, jsonSkipWs_value]
    · rw [jsonFindAfterKey_append hk (quote_notMem_ws _), jsonFindAfterKey_cons hk (by decide),
        jsonFindAfterKey_append hk (quote_notMem_ws _)]
  unfold Finds firstNamed at *
  rw [List.find?_cons, hfind]
  cases hn : namesKey key n.key with
  | true => exact ⟨mid, by simp, hmid⟩
  | false => simpa using h hn

end Passing

/-- Up to the first member that is taken for the key, the closing quotes of a tree's strings
are passed when `rest` stands behind the tree. -/
def Clear (key : Bytes) : {p : Part} → Doc p → Bytes → Prop
  | _, .scalar _, _ => True
  | _, .string s, rest => namesKey key s = true ∨ Passable key rest
  | _, .emptyArray _, _ => True
  | _, .array es, rest => Clear key es (rbracket :: rest)
  | _, .emptyObject _, _ => True
  | _, .object ms, rest => Clear key ms (rbrace :: rest)
  | _, .element _ v w', rest => Clear key v (w'.text ++ rest)
  | _, .moreElements _ v w' more, rest =>
    Clear key v (w'.text ++ comma :: (more.text ++ rest)) ∧
      ((firstNamed key v.allMembers).isSome ∨ Clear key more rest)
  | _, .member n v w, rest =>
    namesKey key n.key = true ∨
      Passable key (n.after.text ++ colon :: (n.pad.text ++ (v.text ++ (w.text ++ rest)))) ∧
      Clear key v (w.text ++ rest)
  | _, .moreMembers n v w more, rest =>
    namesKey key n.key = true ∨
      Passable key (n.after.text ++ colon :: (n.pad.text ++ (v.text ++
        (w.text ++ comma :: (more.text ++ rest))))) ∧
      Clear key v (w.text ++ comma :: (more.text ++ rest)) ∧
      ((firstNamed key v.allMembers).isSome ∨ Clear key more rest)

instance decidableClear (key : Bytes) : ∀ {p : Part} (t : Doc p) (rest : Bytes),
    Decidable (Clear key t rest)
  | _, .scalar _, _ => isTrue trivial
  | _, .string _, _ => inferInstanceAs (Decidable (_ ∨ _))
  | _, .emptyArray _, _ => isTrue trivial
  | _, .array es, rest => decidableClear key es (rbracket :: rest)
  | _, .emptyObject _, _ => isTrue trivial
  | _, .object ms, rest => decidableClear key ms (rbrace :: rest)
  | _, .element _ v w', rest => decidableClear key v (w'.text ++ rest)
  | _, .moreElements _ v w' more, rest =>
    have := decidableClear key v (w'.text ++ comma :: (more.text ++ rest))
    have := decidableClear key more rest
    inferInstanceAs (Decidable (_ ∧ (_ ∨ _)))
  | _, .member _ v w, rest =>
    have := decidableClear key v (w.text ++ rest)
    inferInstanceAs (Decidable (_ ∨ _ ∧ _))
  | _, .moreMembers _ v w more, rest =>
    have := decidableClear key v (w.text ++ comma :: (more.text ++ rest))
    have := decidableClear key more rest
    inferInstanceAs (Decidable (_ ∨ _ ∧ _ ∧ (_ ∨ _)))

/-- A key without commas and colons is never met between two strings. -/
theorem clear_of_separated {key : Bytes} (hk : SearchKey key) {p : Part} (t : Doc p) :
    ∀ rest : Bytes, separated rest = true → Clear key t rest := by
  have hname : ∀ (n : Name) (rest : Bytes), Passable key (n.after.text ++ colon :: rest) :=
    fun n rest => passable_of_separated hk
      (separated_append (quote_notMem_ws _) (separated_colon _))
  have hmore : ∀ (w : Ws) (rest : Bytes), separated (w.text ++ comma :: rest) = true :=
    fun w rest => separated_append (quote_notMem_ws w) (separated_comma _)
  have hcons : ∀ {c : UInt8}, c ≠ quote → ∀ {rest : Bytes}, separated rest = true →
      separated (c :: rest) = true := fun {c} hc {rest} h => by
    simp [separated, hc, h]
  induction t with
  | scalar | emptyArray | emptyObject => exact fun _ _ => trivial
  | string s => exact fun rest h => Or.inr (passable_of_separated hk h)
  | array es ih => exact fun rest h => ih _ (hcons (by decide) h)
  | object ms ih => exact fun rest h => ih _ (hcons (by decide) h)
  | element w v w' ih => exact fun rest h => ih _ (separated_append (quote_notMem_ws w') h)
  | moreElements w v w' more ihv ih => exact fun rest h => ⟨ihv _ (hmore w' _), Or.inr (ih _ h)⟩
  | member n v w ih =>
    exact fun rest h => Or.inr ⟨hname n _, ih _ (separated_append (quote_notMem_ws w) h)⟩
  | moreMembers n v w more ihv ih =>
    exact fun rest h => Or.inr ⟨hname n _, ihv _ (hmore w _), Or.inr (ih _ h)⟩

/-- What the search finds in a text. -/
def Located (json key : Bytes) (found : Option (Doc .value)) : Prop :=
  match found with
  | none => jsonFindAfterKey json key = none
  | some u => ∃ tail, jsonFindAfterKey json key = some (u.text ++ tail) ∧ Ended tail

section Trees

variable {key : Bytes} (hk : PatternKey key)
include hk

/-- **What the search does with a parse tree.**  It passes every member of the tree, at
every depth and in document order, and stops at the first one it takes for the key. -/
theorem finds_clear {p : Part} (t : Doc p) : ∀ rest : Bytes, Clear key t rest →
    (jsonSkipWs rest).head? ≠ some colon → (p = .members → Ended rest) →
    Finds key t.allMembers (t.text ++ rest) rest := by
  have hq : ∀ {c : UInt8}, c ≠ quote → quote ∉ [c] := fun h => by simpa using h.symm
  have hempty : ∀ (w : Ws) {a b : UInt8}, a ≠ quote → b ≠ quote →
      quote ∉ a :: (w.text ++ [b]) := fun w a b ha hb => by
    simp [quote_notMem_ws w, ha.symm, hb.symm]
  have hnone : ∀ {ms : List (StrLit × Doc .value)}, firstNamed key ms = none →
      ¬ (firstNamed key ms).isSome := fun h => by simp [h]
  induction t with
  | scalar s =>
    intro rest _ _ _
    refine Finds.nil (jsonFindAfterKey_append hk ?_ rest)
    intro h
    exact absurd (List.all_eq_true.1 s.ok quote h) (by decide)
  | string s => exact fun rest hclear hcolon _ => Finds.string hk s hclear hcolon
  | emptyArray w =>
    exact fun rest _ _ _ =>
      Finds.nil (jsonFindAfterKey_append hk (hempty w (by decide) (by decide)) rest)
  | emptyObject w =>
    exact fun rest _ _ _ =>
      Finds.nil (jsonFindAfterKey_append hk (hempty w (by decide) (by decide)) rest)
  | array es ih =>
    intro rest hclear _ _
    have hin := ih ([rbracket] ++ rest) hclear
      ((Ended.cons (by decide) rest).head_ne_colon) (by simp)
    have hout : Finds key [] ([rbracket] ++ rest) rest :=
      Finds.nil (jsonFindAfterKey_append hk (hq (by decide)) rest)
    have h := (hin.append fun _ => hout).skip hk (hq (c := lbracket) (by decide))
    simpa [Doc.text, Doc.allMembers] using h
  | object ms ih =>
    intro rest hclear _ _
    have hend : Ended ([rbrace] ++ rest) := Ended.cons (by decide) rest
    have hin := ih ([rbrace] ++ rest) hclear hend.head_ne_colon (fun _ => hend)
    have hout : Finds key [] ([rbrace] ++ rest) rest :=
      Finds.nil (jsonFindAfterKey_append hk (hq (by decide)) rest)
    have h := (hin.append fun _ => hout).skip hk (hq (c := lbrace) (by decide))
    simpa [Doc.text, Doc.allMembers] using h
  | element w v w' ih =>
    intro rest hclear hcolon _
    have hin := ih (w'.text ++ rest) hclear (by rwa [jsonSkipWs_ws]) (by simp)
    have hout : Finds key [] (w'.text ++ rest) rest :=
      Finds.nil (jsonFindAfterKey_append hk (quote_notMem_ws w') rest)
    have h := (hin.append fun _ => hout).skip hk (quote_notMem_ws w)
    simpa [Doc.text, Doc.allMembers] using h
  | moreElements w v w' more ihv ih =>
    intro rest hclear hcolon _
    have hin := ihv (w'.text ++ comma :: (more.text ++ rest)) hclear.1
      (((Ended.cons (by decide) _).of_ws w').head_ne_colon) (by simp)
    have hout := fun h : firstNamed key v.allMembers = none =>
      (ih rest (hclear.2.resolve_left (hnone h)) hcolon (by simp)).skip hk
        (hq (c := comma) (by decide)) |>.skip hk (quote_notMem_ws w')
    have h := (hin.append hout).skip hk (quote_notMem_ws w)
    simpa [Doc.text, Doc.allMembers] using h
  | member n v w ih =>
    intro rest hclear _ hend
    have hmid : Ended (w.text ++ rest) := (hend rfl).of_ws w
    have hout : Finds key [] (w.text ++ rest) rest :=
      Finds.nil (jsonFindAfterKey_append hk (quote_notMem_ws w) rest)
    have h : Finds key ((n.key, v) :: v.allMembers) (n.text ++ (v.text ++ (w.text ++ rest))) rest := by
      refine Finds.member hk n v hmid (hclear.imp_right And.left) fun hn => ?_
      have hin := ih (w.text ++ rest) (hclear.resolve_left (by simp [hn])).2
        hmid.head_ne_colon (by simp)
      simpa using hin.append fun _ => hout
    simpa [Doc.text, Doc.allMembers] using h
  | moreMembers n v w more ihv ih =>
    intro rest hclear hcolon hend
    have hmid : Ended (w.text ++ comma :: (more.text ++ rest)) :=
      (Ended.cons (by decide) _).of_ws w
    have h : Finds key ((n.key, v) :: (v.allMembers ++ more.allMembers))
        (n.text ++ (v.text ++ (w.text ++ comma :: (more.text ++ rest)))) rest := by
      refine Finds.member hk n v hmid (hclear.imp_right And.left) fun hn => ?_
      obtain ⟨-, hv, hmore⟩ := hclear.resolve_left (by simp [hn])
      have hin := ihv (w.text ++ comma :: (more.text ++ rest)) hv hmid.head_ne_colon (by simp)
      refine hin.append fun hnone' => ?_
      exact (ih rest (hmore.resolve_left (hnone hnone')) hcolon hend).skip hk
        (hq (c := comma) (by decide)) |>.skip hk (quote_notMem_ws w)
    simpa [Doc.text, Doc.allMembers] using h

/-- On a whole text the search stops at the value of the first member in document order, at
whatever depth, that it takes for the key; without one it finds nothing. -/
theorem located_clear (v : Doc .value) (w : Ws) (hclear : Clear key v w.text) :
    Located (v.text ++ w.text) key (firstNamed key v.allMembers) := by
  have hskip : jsonSkipWs w.text = [] := by
    simpa [jsonSkipWs] using jsonSkipWs_ws w []
  have h := finds_clear hk v w.text hclear (by simp [hskip]) (by simp)
  unfold Finds at h
  unfold Located
  cases hm : firstNamed key v.allMembers with
  | none =>
    simp only [hm] at h ⊢
    rw [h, ← List.append_nil w.text, jsonFindAfterKey_append hk (quote_notMem_ws w),
      jsonFindAfterKey_nil hk]
  | some u =>
    simp only [hm] at h ⊢
    exact h

end Trees

section Trusted

variable {key : Bytes} (hk : SearchKey key)
include hk

theorem finds_doc {p : Part} (t : Doc p) (rest : Bytes) (hsep : separated rest = true)
    (hcolon : (jsonSkipWs rest).head? ≠ some colon) (hend : p = .members → Ended rest) :
    Finds key t.allMembers (t.text ++ rest) rest :=
  finds_clear hk.toPatternKey t rest (clear_of_separated hk t rest hsep) hcolon hend

theorem clear_ws (v : Doc .value) (w : Ws) : Clear key v w.text := by
  have hnil : separated [] = true := rfl
  refine clear_of_separated hk v w.text ?_
  simpa using separated_append (quote_notMem_ws w) hnil

/-- **The key search on a whole text**, for a key without commas and colons. -/
theorem jsonFindAfterKey_doc (v : Doc .value) (w : Ws) :
    Located (v.text ++ w.text) key (firstNamed key v.allMembers) :=
  located_clear hk.toPatternKey v w (clear_ws hk v w)

end Trusted

end IotIde
