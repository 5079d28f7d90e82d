import IotIde.Foundation.CText

/-!
# JSON texts

The concrete syntax of JSON, white space and escapes included: a `Doc` is a parse
tree that remembers every byte of its text, so that a scanner working on bytes can
be compared with the structure it is meant to follow.

* `StrLit` — a string literal, as the raw bytes between its quotes; being well
  escaped is a field, so the literal always ends where it says it does;
* `Doc` — values, array contents and object contents, indexed by `Part`;
* `Doc.text` — the text of a tree;
* `Doc.allMembers` — every member at any depth, in the order their names occur in
  the text, and `Doc.topMembers` — those of the object itself;
* `Doc.legal` — the restrictions of RFC 8259 on literals, numbers and escapes.  The
  trees themselves are laxer (any byte may follow a backslash), so that a result
  about all trees covers all JSON texts and texts that are only almost JSON.
* `Doc.numberValue` — the number that a scalar is.
-/

namespace JsonText

open CText

/-! ## White space, literals and scalars -/

/-- The four white space bytes of JSON. -/
def isJsonWs (b : UInt8) : Bool := b == 32 || b == 9 || b == 10 || b == 13

theorem isSpace_of_isJsonWs {b : UInt8} (h : isJsonWs b = true) : isSpace b = true := by
  simp only [isJsonWs, Bool.or_eq_true, beq_iff_eq] at h
  rcases h with ((rfl | rfl) | rfl) | rfl <;> decide

/-- A run of white space. -/
structure Ws where
  text : Bytes
  ok : text.all isJsonWs = true

/-- No white space. -/
def Ws.none : Ws := ⟨[], rfl⟩

/-- Raw string contents: a quote only after a backslash, and a backslash always
followed by the byte it escapes. -/
def wellEscaped : Bytes → Bool
  | [] => true
  | b :: rest =>
    if b = backslash then
      match rest with
      | [] => false
      | _ :: rest' => wellEscaped rest'
    else b ≠ quote && wellEscaped rest

theorem wellEscaped_plain {b : UInt8} {rest : Bytes} (hq : b ≠ quote) (hb : b ≠ backslash)
    (h : wellEscaped rest = true) : wellEscaped (b :: rest) = true := by
  rw [wellEscaped.eq_def]
  simp only [if_neg hb, h, Bool.and_true]
  simpa using hq

/-- Induction along the escapes of well escaped contents. -/
theorem wellEscaped_induction {P : Bytes → Prop} (nil : P [])
    (plain : ∀ b rest, b ≠ quote → b ≠ backslash → wellEscaped rest = true → P rest →
      P (b :: rest))
    (escaped : ∀ b rest, wellEscaped rest = true → P rest → P (backslash :: b :: rest)) :
    ∀ raw, wellEscaped raw = true → P raw := by
  intro raw
  fun_induction wellEscaped raw with
  | case1 => intro _; exact nil
  | case2 => intro h; exact absurd h (by simp)
  | case3 b rest' ih => intro h; exact escaped b rest' h (ih h)
  | case4 b rest hb ih =>
    intro h
    simp only [ne_eq, decide_not, Bool.and_eq_true, Bool.not_eq_eq_eq_not, Bool.not_true,
      decide_eq_false_iff_not] at h
    exact plain b rest h.1 hb h.2 (ih h.2)

/-- A string literal, by the bytes between its quotes. -/
structure StrLit where
  raw : Bytes
  escaped : wellEscaped raw = true

/-- The literal with its quotes. -/
def StrLit.text (s : StrLit) : Bytes := quote :: (s.raw ++ [quote])

/-- A byte of a number, `true`, `false` or `null`: anything that is neither white
space nor structure. -/
def isScalarByte (b : UInt8) : Bool :=
  !isSpace b && b != quote && b != comma && b != colon && b != lbrace && b != rbrace &&
    b != lbracket && b != rbracket

/-- A value that is neither a string nor compound. -/
structure Scalar where
  text : Bytes
  ne_nil : text ≠ []
  ok : text.all isScalarByte = true

/-! ## Parse trees -/

/-- What a tree stands for. -/
inductive Part
  | value
  | elements
  | members

/-- The name of a member with everything up to its value. -/
structure Name where
  before : Ws
  key : StrLit
  after : Ws
  pad : Ws

/-- A name with no white space around it. -/
def Name.bare (key : StrLit) : Name := ⟨Ws.none, key, Ws.none, Ws.none⟩

/-- `ws "key" ws : ws` -/
def Name.text (n : Name) : Bytes :=
  n.before.text ++ (n.key.text ++ (n.after.text ++ colon :: n.pad.text))

/-- A parse tree: a value, the contents of a non-empty array, or the contents of a
non-empty object. -/
inductive Doc : Part → Type
  | scalar (s : Scalar) : Doc .value
  | string (s : StrLit) : Doc .value
  | emptyArray (w : Ws) : Doc .value
  | array (es : Doc .elements) : Doc .value
  | emptyObject (w : Ws) : Doc .value
  | object (ms : Doc .members) : Doc .value
  | element (w : Ws) (v : Doc .value) (w' : Ws) : Doc .elements
  | moreElements (w : Ws) (v : Doc .value) (w' : Ws) (rest : Doc .elements) : Doc .elements
  | member (n : Name) (v : Doc .value) (w : Ws) : Doc .members
  | moreMembers (n : Name) (v : Doc .value) (w : Ws) (rest : Doc .members) : Doc .members

namespace Doc

/-- The bytes of a tree. -/
def text : {p : Part} → Doc p → Bytes
  | _, scalar s => s.text
  | _, string s => s.text
  | _, emptyArray w => lbracket :: (w.text ++ [rbracket])
  | _, array es => lbracket :: (es.text ++ [rbracket])
  | _, emptyObject w => lbrace :: (w.text ++ [rbrace])
  | _, object ms => lbrace :: (ms.text ++ [rbrace])
  | _, element w v w' => w.text ++ (v.text ++ w'.text)
  | _, moreElements w v w' rest => w.text ++ (v.text ++ (w'.text ++ comma :: rest.text))
  | _, member n v w => n.text ++ (v.text ++ w.text)
  | _, moreMembers n v w rest => n.text ++ (v.text ++ (w.text ++ comma :: rest.text))

/-- Every member of the tree at any depth, in the order of the names in the text. -/
def allMembers : {p : Part} → Doc p → List (StrLit × Doc .value)
  | _, scalar _ => []
  | _, string _ => []
  | _, emptyArray _ => []
  | _, array es => es.allMembers
  | _, emptyObject _ => []
  | _, object ms => ms.allMembers
  | _, element _ v _ => v.allMembers
  | _, moreElements _ v _ rest => v.allMembers ++ rest.allMembers
  | _, member n v _ => (n.key, v) :: v.allMembers
  | _, moreMembers n v _ rest => (n.key, v) :: (v.allMembers ++ rest.allMembers)

/-- The members listed by the contents of an object, not those inside their values. -/
def topMembers : {p : Part} → Doc p → List (StrLit × Doc .value)
  | _, member n v _ => [(n.key, v)]
  | _, moreMembers n v _ rest => (n.key, v) :: rest.topMembers
  | _, _ => []

/-- The elements of an array; other values have none. -/
def elements : {p : Part} → Doc p → List (Doc .value)
  | _, array es => es.elements
  | _, element _ v _ => [v]
  | _, moreElements _ v _ rest => v :: rest.elements
  | _, _ => []

/-- The members of a value: none unless it is an object. -/
def ownMembers : Doc .value → List (StrLit × Doc .value)
  | object ms => ms.topMembers
  | _ => []

/-- The members of an object's contents, each followed by those inside its value. -/
theorem allMembers_members : ∀ ms : Doc .members,
    ms.allMembers = ms.topMembers.flatMap fun m => m :: m.2.allMembers
  | member n v w => by simp [allMembers, topMembers]
  | moreMembers n v w rest => by simp [allMembers, topMembers, allMembers_members rest]

/-- The bytes of a member's value are bytes of the text. -/
theorem mem_text_of_mem_allMembers {b : UInt8} : ∀ {p : Part} (t : Doc p)
    {m : StrLit × Doc .value}, m ∈ t.allMembers → b ∈ m.2.text → b ∈ t.text := by
  intro p t
  induction t with
  | scalar | string | emptyArray | emptyObject =>
    intro m hm
    cases hm
  | array es ih =>
    intro m hm hb
    simp [text, ih hm hb]
  | object ms ih =>
    intro m hm hb
    simp [text, ih hm hb]
  | element w v w' ih =>
    intro m hm hb
    simp [text, ih hm hb]
  | moreElements w v w' rest ihv ihrest =>
    intro m hm hb
    rcases List.mem_append.1 hm with hm | hm
    · simp [text, ihv hm hb]
    · simp [text, ihrest hm hb]
  | member n v w ih =>
    intro m hm hb
    rcases List.mem_cons.1 hm with rfl | hm
    · simp [text, hb]
    · simp [text, ih hm hb]
  | moreMembers n v w rest ihv ihrest =>
    intro m hm hb
    rcases List.mem_cons.1 hm with rfl | hm
    · simp [text, hb]
    rcases List.mem_append.1 hm with hm | hm
    · simp [text, ihv hm hb]
    · simp [text, ihrest hm hb]

/-! ## What RFC 8259 allows -/

def isHex (b : UInt8) : Bool :=
  isDigit b || (65 ≤ b && b ≤ 70) || (97 ≤ b && b ≤ 102)

/-- The bytes that may follow a backslash on their own. -/
def isEscape (b : UInt8) : Bool := b ∈ ascii "\"\\/bfnrt"

/-- String contents as RFC 8259 has them. -/
def legalRaw : Bytes → Bool
  | [] => true
  | b :: rest =>
    if b = backslash then
      match rest with
      | 117 :: h₁ :: h₂ :: h₃ :: h₄ :: rest' =>
        isHex h₁ && isHex h₂ && isHex h₃ && isHex h₄ && legalRaw rest'
      | e :: rest' => isEscape e && legalRaw rest'
      | [] => false
    else 32 ≤ b && b ≠ quote && legalRaw rest

/-- One or more digits; what follows them. -/
def stripDigits : Bytes → Option Bytes
  | [] => none
  | b :: bs => if isDigit b then some (bs.dropWhile isDigit) else none

/-- The fraction of a number, if there is one; what follows it. -/
def stripFraction : Bytes → Option Bytes
  | 46 :: bs => stripDigits bs
  | bs => some bs

/-- The exponent of a number, if there is one; what follows it. -/
def stripExponent : Bytes → Option Bytes
  | [] => some []
  | b :: bs =>
    if b = 101 ∨ b = 69 then
      match bs with
      | 43 :: ds => stripDigits ds
      | 45 :: ds => stripDigits ds
      | ds => stripDigits ds
    else some (b :: bs)

/-- The integer part: `0`, or digits that do not start with `0`. -/
def stripInteger : Bytes → Option Bytes
  | 48 :: bs => some bs
  | bs => stripDigits bs

def isNumber (t : Bytes) : Bool :=
  let body := match t with
    | 45 :: bs => bs
    | bs => bs
  ((stripInteger body).bind fun t => (stripFraction t).bind stripExponent) == some []

/-- The digits behind the point, if there is one. -/
def fractionDigits : Bytes → Bytes
  | 46 :: bs => bs.takeWhile isDigit
  | _ => []

/-- The exponent behind the letter, if there is one. -/
def exponentValue : Bytes → ℤ
  | [] => 0
  | _ :: 43 :: ds => digitsValue 0 ds
  | _ :: 45 :: ds => -digitsValue 0 ds
  | _ :: ds => digitsValue 0 ds

/-- The number that a text is, if it is one: all its digits, moved by the exponent and by the
digits of the fraction. -/
def numberValue (t : Bytes) : Option ℚ :=
  if isNumber t then
    let body := if t.head? = some 45 then t.tail else t
    let behind := body.dropWhile isDigit
    let digits := body.takeWhile isDigit ++ fractionDigits behind
    let exponent := exponentValue (behind.dropWhile fun b => b ≠ 101 ∧ b ≠ 69)
    let size : ℚ := digitsValue 0 digits * 10 ^ (exponent - (fractionDigits behind).length)
    some (if t.head? = some 45 then -size else size)
  else none

example : numberValue (ascii "-80.50e-1") = some (-161 / 20) ∧ numberValue (ascii "2E2") = some 200 ∧
    numberValue (ascii "null") = none := by decide +kernel

def legalScalar (t : Bytes) : Bool :=
  t == ascii "true" || t == ascii "false" || t == ascii "null" || isNumber t

/-- The tree is JSON as RFC 8259 defines it. -/
def legal : {p : Part} → Doc p → Bool
  | _, scalar s => legalScalar s.text
  | _, string s => legalRaw s.raw
  | _, emptyArray _ => true
  | _, array es => es.legal
  | _, emptyObject _ => true
  | _, object ms => ms.legal
  | _, element _ v _ => v.legal
  | _, moreElements _ v _ rest => v.legal && rest.legal
  | _, member n v _ => legalRaw n.key.raw && v.legal
  | _, moreMembers n v _ rest => legalRaw n.key.raw && v.legal && rest.legal

end Doc

end JsonText
