import IotIde.Foundation.CText

/-!
# How a shell reads a line

Token recognition of a POSIX shell, byte by byte: single and double quotes, backslashes,
operators, comments, and the concatenation of what stands side by side.  A byte of a word
remembers whether it was quoted, since only an unquoted one can be expanded or make a
reserved word.  Expansions, here-documents and line continuations are not read: on them
`step` gives `none`.

* `State`, `step` — the reader, one byte at a time;
* `run`, `run_append` — a piece of text between two states;
* `tokens` — a whole text;
* `run_word_break`, `run_single` — the end of a word, the inside of quotes;
* `tokens_twice` — a text into which two words are put twice.
-/

namespace ShellWords

open CText

abbrev apostrophe : UInt8 := 39
abbrev dollar : UInt8 := 36
abbrev backquote : UInt8 := 96
abbrev hash : UInt8 := 35
abbrev ampersand : UInt8 := 38
abbrev lparen : UInt8 := 40
abbrev rparen : UInt8 := 41
abbrev semicolon : UInt8 := 59
abbrev less : UInt8 := 60
abbrev greater : UInt8 := 62
abbrev bar : UInt8 := 124

/-- A word as it is read: its bytes, and which of them were quoted. -/
abbrev Word := List (UInt8 × Bool)

/-- What the shell makes of its input. -/
inductive Token
  | word (w : Word)
  | ioNumber (digits : Bytes)
  | operator (text : Bytes)
  deriving DecidableEq

/-- A word without quotes. -/
def plain (text : Bytes) : Token := .word (text.map (·, false))

/-- A word that is quoted throughout. -/
def quoted (text : Bytes) : Token := .word (text.map (·, true))

/-- Where the reader is, with what it has of the token it is in. -/
inductive State
  | blank
  | word (w : Word)
  | single (w : Word)
  | double (w : Word)
  | escaped (w : Word)
  | doubleEscaped (w : Word)
  | operator (text : Bytes)
  | comment
  deriving DecidableEq

/-! ## One byte -/

def isBlank (b : UInt8) : Bool := b == 32 || b == 9

/-- A byte that, unquoted, is or begins an operator. -/
def isOperator (b : UInt8) : Bool :=
  b == ampersand || b == bar || b == semicolon || b == less || b == greater || b == lparen ||
    b == rparen || b == newline

/-- The operators of two bytes, but for the one that begins a here-document. -/
def longOperators : List Bytes :=
  [[ampersand, ampersand], [bar, bar], [semicolon, semicolon], [greater, greater],
    [less, ampersand], [greater, ampersand], [less, greater], [greater, bar]]

/-- A byte that, unquoted, belongs to no word. -/
def breaksWord (b : UInt8) : Bool := isBlank b || isOperator b

/-- An unquoted byte within a word. -/
def continueWord (w : Word) (b : UInt8) : Option State :=
  if b = apostrophe then some (.single w)
  else if b = quote then some (.double w)
  else if b = backslash then some (.escaped w)
  else if b = dollar ∨ b = backquote then none
  else some (.word (w ++ [(b, false)]))

/-- An unquoted byte where no token is begun. -/
def beginToken (b : UInt8) : Option State :=
  if isBlank b then some .blank
  else if isOperator b then some (.operator [b])
  else if b = hash then some .comment
  else continueWord [] b

/-- A word that ends before `b`: unquoted digits before a redirection are a number. -/
def endWord (w : Word) (b : UInt8) : Token :=
  if (b = less ∨ b = greater) ∧ w ≠ [] ∧ w.all (fun c => isDigit c.1 && !c.2) then
    .ioNumber (w.map Prod.fst)
  else .word w

/-- One byte: the tokens it completes, and where the reader is then. -/
def step : State → UInt8 → Option (List Token × State)
  | .blank, b => (beginToken b).map ([], ·)
  | .word w, b =>
    if breaksWord b then (beginToken b).map ([endWord w b], ·)
    else (continueWord w b).map ([], ·)
  | .single w, b => some ([], if b = apostrophe then .word w else .single (w ++ [(b, true)]))
  | .double w, b =>
    if b = quote then some ([], .word w)
    else if b = backslash then some ([], .doubleEscaped w)
    else if b = dollar ∨ b = backquote then none
    else some ([], .double (w ++ [(b, true)]))
  | .escaped w, b => if b = newline then none else some ([], .word (w ++ [(b, true)]))
  | .doubleEscaped w, b =>
    if b = newline then none
    else if b = dollar ∨ b = backquote ∨ b = quote ∨ b = backslash then
      some ([], .double (w ++ [(b, true)]))
    else some ([], .double (w ++ [(backslash, true), (b, true)]))
  | .operator text, b =>
    -- the longest operator is taken
    if text ++ [b] ∈ longOperators then some ([], .operator (text ++ [b]))
    else if text = [less] ∧ b = less then none
    else (beginToken b).map ([.operator text], ·)
  | .comment, b => some ([], if b = newline then .operator [newline] else .comment)

/-! ## Texts -/

/-- A piece of text: the tokens it completes, and where the reader is behind it. -/
def run : State → Bytes → Option (List Token × State)
  | s, [] => some ([], s)
  | s, b :: bs => (step s b).bind fun r => (run r.2 bs).map fun r' => (r.1 ++ r'.1, r'.2)

/-- At the end of the text no quote may be open. -/
def finish : State → Option (List Token)
  | .blank => some []
  | .comment => some []
  | .word w => some [.word w]
  | .operator text => some [.operator text]
  | _ => none

/-- The tokens of a text. -/
def tokens (text : Bytes) : Option (List Token) :=
  (run .blank text).bind fun r => (finish r.2).map (r.1 ++ ·)

theorem run_cons {s s' s'' : State} {b : UInt8} {bs : Bytes} {ts ts' : List Token}
    (hb : step s b = some (ts, s')) (hbs : run s' bs = some (ts', s'')) :
    run s (b :: bs) = some (ts ++ ts', s'') := by
  rw [run, hb, Option.bind_some, hbs, Option.map_some]

/-- Two pieces are read one after the other. -/
theorem run_append {s s' s'' : State} {a b : Bytes} {ts ts' : List Token}
    (ha : run s a = some (ts, s')) (hb : run s' b = some (ts', s'')) :
    run s (a ++ b) = some (ts ++ ts', s'') := by
  induction a generalizing s ts with
  | nil =>
    cases ha
    exact hb
  | cons c a ih =>
    obtain ⟨⟨first, t⟩, hstep, hrest⟩ := Option.bind_eq_some_iff.1 ha
    obtain ⟨⟨rest, t'⟩, hrun, heq⟩ := Option.map_eq_some_iff.1 hrest
    cases heq
    rw [List.cons_append, List.append_assoc]
    exact run_cons hstep (ih hrun)

theorem tokens_of_run {text : Bytes} {ts last : List Token} {s : State}
    (hrun : run .blank text = some (ts, s)) (hend : finish s = some last) :
    tokens text = some (ts ++ last) := by
  rw [tokens, hrun, Option.bind_some, hend, Option.map_some]

/-- A byte that breaks a word, and is no redirection, completes it. -/
theorem run_word_break {w : Word} {b : UInt8} {bs : Bytes} {s s' : State} {ts : List Token}
    (hbreak : breaksWord b = true) (hredirect : ¬ (b = less ∨ b = greater))
    (hbegin : beginToken b = some s) (hrest : run s bs = some (ts, s')) :
    run (.word w) (b :: bs) = some (.word w :: ts, s') := by
  have hend : endWord w b = .word w := if_neg fun h => hredirect h.1
  have hstep : step (.word w) b = some ([.word w], s) := by
    rw [step, if_pos hbreak, hbegin, hend]
    rfl
  exact run_cons hstep hrest

/-! ## Quotes -/

theorem step_open_single (w : Word) : step (.word w) apostrophe = some ([], .single w) := by
  have hbreak : breaksWord apostrophe = false := by decide +kernel
  rw [step, hbreak]
  rfl

theorem step_close_single (w : Word) : step (.single w) apostrophe = some ([], .word w) := rfl

theorem step_open_double (w : Word) : step (.word w) quote = some ([], .double w) := by
  have hbreak : breaksWord quote = false := by decide +kernel
  rw [step, hbreak]
  rfl

theorem step_close_double (w : Word) : step (.double w) quote = some ([], .word w) := rfl

/-- Between single quotes every byte stands for itself. -/
theorem run_single {body : Bytes} (h : apostrophe ∉ body) (w : Word) :
    run (.single w) body = some ([], .single (w ++ body.map (·, true))) := by
  induction body generalizing w with
  | nil => rw [List.map_nil, List.append_nil, run]
  | cons b body ih =>
    rw [List.mem_cons, not_or] at h
    have hstep : step (.single w) b = some ([], .single (w ++ [(b, true)])) := by
      rw [step, if_neg (Ne.symm h.1)]
    have hrun := run_cons hstep (ih h.2 _)
    rwa [List.append_assoc] at hrun

/-! ## Words put into a text -/

/-- Two words, each put twice between four fixed pieces of text, stay those two words. -/
theorem tokens_twice {q₁ q₂ p₁ p₂ p₃ p₄ : Bytes} {w₁ w₂ last : Word} {t₁ t₂ t₃ t₄ : List Token}
    (hq₁ : run .blank q₁ = some ([], .word w₁)) (hq₂ : run .blank q₂ = some ([], .word w₂))
    (hp₁ : run .blank p₁ = some (t₁, .blank))
    (hp₂ : ∀ w, run (.word w) p₂ = some (.word w :: t₂, .blank))
    (hp₃ : ∀ w, run (.word w) p₃ = some (.word w :: t₃, .blank))
    (hp₄ : ∀ w, run (.word w) p₄ = some (.word w :: t₄, .word last)) :
    tokens (p₁ ++ (q₁ ++ (p₂ ++ (q₂ ++ (p₃ ++ (q₁ ++ (p₂ ++ (q₂ ++ p₄)))))))) =
      some (t₁ ++ .word w₁ :: (t₂ ++ .word w₂ :: (t₃ ++ .word w₁ :: (t₂ ++ .word w₂ ::
        (t₄ ++ [.word last]))))) := by
  have hpair : ∀ {p : Bytes} {t : List Token} {s : State},
      (∀ w, run (.word w) p = some (.word w :: t, s)) →
        run .blank (q₁ ++ (p₂ ++ (q₂ ++ p))) =
          some (.word w₁ :: (t₂ ++ .word w₂ :: t), s) := by
    intro p t s hp
    have hsecond := run_append hq₂ (hp w₂)
    have hmiddle := run_append (hp₂ w₁) hsecond
    exact run_append hq₁ hmiddle
  have hthird : run .blank (q₁ ++ (p₂ ++ (q₂ ++ (p₃ ++ (q₁ ++ (p₂ ++ (q₂ ++ p₄))))))) =
      some (.word w₁ :: (t₂ ++ .word w₂ :: (t₃ ++ .word w₁ :: (t₂ ++ .word w₂ :: t₄))),
        .word last) := by
    have hlater := hpair hp₄
    have hboth := run_append (hpair hp₃) hlater
    simpa only [List.append_assoc, List.cons_append] using hboth
  have hall := tokens_of_run (run_append hp₁ hthird) rfl
  simpa only [List.append_assoc, List.cons_append] using hall

end ShellWords
