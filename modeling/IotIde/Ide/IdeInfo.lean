import IotIde.Ide.Reports
import IotIde.Json.Literals

/-!
# The IDE info that is posted

The client info of a connect request reaches the posted `IDEInfo` through a getter that decodes
strings and copies other values as they are.  What it leaves is put into the text as it is when
it starts like an object or an array, and as a string otherwise.

* `IsIdeInfo` — a text is an object of a client id, a client info and a time;
* `Carries` — a value carries a client info, or is an empty string;
* `takenInfo`, `Arrives` — what the array has room for of the value that the search takes, and
  when that is the client info of the request;
* `infoField_of_isIdeInfo` — the object can be read in one way only;
* `ide_info_well_formed_iff` — when the posted text is such an object that carries the request's
  own client info.
-/

namespace IotIde

open CText JsonText

/-! ## What a reader expects -/

/-- The `IDEInfo` of a posted text. -/
def ideInfoIn (post : Bytes) : Option Bytes :=
  Extract.value? (jsonGetString post (ascii "IDEInfo")) 4096

/-- The text is a legal object with the three members, of these values. -/
def IsIdeInfo (info clientId : Bytes) (clientInfo : Doc .value) (connectTime : ℤ) : Prop :=
  ∃ (doc : Doc .value) (id : StrLit) (time : Scalar), doc.legal = true ∧ doc.text = info ∧
    (doc.ownMembers.map fun m => (m.1.raw, m.2)) =
      [(ascii "clientId", .string id), (ascii "clientInfo", clientInfo),
        (ascii "connectTime", .scalar time)] ∧
    stringValue id.raw = clientId ∧ time.text = decimal connectTime

/-- The text of a client info: what a string says, and any other value as it stands. -/
def infoText : Doc .value → Bytes
  | .string s => stringValue s.raw
  | v => v.text

/-- A string that says the client info, or nothing, or the value that its text is; white space
behind that does not count. -/
def Carries (info : Bytes) : Doc .value → Prop
  | .string s => stringValue s.raw = [] ∨ stringValue s.raw = info
  | v => ∃ w : Ws, info = v.text ++ w.text

def isControlPart : StringPart → Bool
  | .byte b => b < 32
  | .unit n => n < 32

/-- No control character, escaped or not, if this is a string. -/
def freeOfControl : Doc .value → Bool
  | .string s => (stringParts s.raw).all fun p => !isControlPart p
  | _ => true

/-- No string among the values of the tree has a control character. -/
def FreeOfControl (doc : Doc .value) : Prop := ∀ m ∈ doc.allMembers, freeOfControl m.2 = true

/-! ## What the handler takes -/

/-- What `client_info` has room for of the value that the search takes. -/
def takenInfo : Option (Doc .value) → Bytes
  | none => []
  | some (.string s) => (decode s.raw).take 511
  | some v => if v.text.length < 512 then v.text else []

/-- It is the client info: either it is put in as a string, and is all of it or nothing, or it
is put in as it is, and is a JSON value. -/
def Arrives (info taken : Bytes) : Prop :=
  if taken.head? = some lbrace ∨ taken.head? = some lbracket then
    ∃ (u : Doc .value) (w w' : Ws), u.legal = true ∧ taken = u.text ++ w.text ∧
      info = u.text ++ w'.text
  else taken = [] ∨ taken = info

section Taken

variable (w₀ : Ws) {doc : Doc .value} (w : Ws) (hlegal : doc.legal = true)
include hlegal

theorem clientInfoOf_eq : clientInfoOf (w₀.text ++ (doc.text ++ w.text)) =
    takenInfo (firstNamed (ascii "clientInfo") doc.allMembers) := by
  have hkey : SearchKey (ascii "clientInfo") := by decide
  have hbuffer : (initBuffer 512 []).length = 512 := initBuffer_length (by norm_num)
  have hout : initBuffer 512 [] ≠ [] := List.ne_nil_of_length_pos (by rw [hbuffer]; norm_num)
  have hwhole : ∀ {text : Bytes}, 0 ∉ text → cstr (copiedWhole text (initBuffer 512 [])).out =
      if text.length < 512 then text else [] := by
    intro text hnul
    unfold copiedWhole
    rw [hbuffer]
    split_ifs
    · exact cstr_store_zero hnul
    · exact cstr_initBuffer (List.not_mem_nil) (by norm_num)
  rw [clientInfoOf, jsonGetRawValue_doc hkey w₀ doc w hout]
  cases hfound : firstNamed (ascii "clientInfo") doc.allMembers with
  | none => exact cstr_initBuffer (List.not_mem_nil) (by norm_num)
  | some v =>
    have hnul : 0 ∉ v.text := fun h => nul_notMem_text doc hlegal (mem_text_of_firstNamed hfound h)
    cases v with
    | string s =>
      have hraw : 0 ∉ s.raw := fun h => hnul (by simp [Doc.text, StrLit.text, h])
      exact cstr_copied (nul_notMem_decode hraw) (by norm_num)
    | scalar s => exact hwhole hnul
    | emptyArray w => exact hwhole hnul
    | array es => exact hwhole hnul
    | emptyObject w => exact hwhole hnul
    | object ms => exact hwhole hnul

end Taken

/-! ## Without control characters -/

theorem le_of_isPlainByte {b : UInt8} (h : isPlainByte b = true) : 32 ≤ b := by
  simp only [isPlainByte, Bool.and_eq_true, decide_eq_true_eq] at h
  exact h.1.1

section Plain

variable {text : Bytes} (h : text.all isPlainByte = true)
include h

theorem le_of_mem_plain {b : UInt8} (hb : b ∈ text) : 32 ≤ b :=
  le_of_isPlainByte (List.all_eq_true.1 h b hb)

theorem legalRaw_of_plain : Doc.legalRaw text = true :=
  (legalRaw_iff_plain (backslash_notMem_of_plain h)).2 h

/-- A text of plain bytes is put between quotes as it is. -/
theorem escape_of_plain : escape text = text := by
  refine escape_eq_self fun b hb => ?_
  have hplain := List.all_eq_true.1 h b hb
  simp only [isPlainByte, Bool.and_eq_true, decide_eq_true_eq, bne_iff_ne] at hplain
  obtain ⟨⟨hcontrol, hquote⟩, hbackslash⟩ := hplain
  have hne : ∀ c : UInt8, c < 32 → b ≠ c := by
    rintro c hc rfl
    exact absurd (UInt8.lt_of_lt_of_le hc hcontrol) (UInt8.lt_irrefl b)
  unfold replacement
  simp [hquote, hbackslash, hne 10 (by decide), hne 13 (by decide), hne 9 (by decide)]

end Plain

/-- The getters decode to a control character only where the literal has one. -/
theorem le_of_mem_decode {raw : Bytes} (hlegal : Doc.legalRaw raw = true)
    (hclean : ∀ p ∈ stringParts raw, isControlPart p = false) {b : UInt8} (hb : b ∈ decode raw) :
    32 ≤ b := by
  have hbyte : ∀ c : UInt8, isControlPart (.byte c) = false → 32 ≤ c := by
    intro c hc
    simpa [isControlPart] using hc
  fun_induction Doc.legalRaw raw with
  | case1 => cases hb
  | case2 h₁ h₂ h₃ h₄ rest ih =>
    simp only [Bool.and_eq_true] at hlegal
    obtain ⟨⟨⟨⟨hh₁, hh₂⟩, hh₃⟩, hh₄⟩, hrest⟩ := hlegal
    have hhex : ∀ c : UInt8, Doc.isHex c = true → 32 ≤ c := by
      intro c hc
      simp only [Doc.isHex, isDigit, Bool.or_eq_true, Bool.and_eq_true, decide_eq_true_eq] at hc
      rcases hc with (h | h) | h
      · exact UInt8.le_trans (show (32 : UInt8) ≤ 48 by decide) h.1
      · exact UInt8.le_trans (show (32 : UInt8) ≤ 65 by decide) h.1
      · exact UInt8.le_trans (show (32 : UInt8) ≤ 97 by decide) h.1
    rw [decode_unit hh₁ hh₂ hh₃ hh₄] at hb
    simp only [List.mem_cons] at hb
    rcases hb with rfl | rfl | rfl | rfl | rfl | hb
    · decide
    · exact hhex _ hh₁
    · exact hhex _ hh₂
    · exact hhex _ hh₃
    · exact hhex _ hh₄
    · exact ih hrest (fun p hp => hclean p (List.mem_cons_of_mem _ hp)) hb
  | case3 e rest hunit ih =>
    simp only [Bool.and_eq_true] at hlegal
    have he : e ≠ 117 := by
      rintro rfl
      exact absurd hlegal.1 (by decide)
    rw [stringParts_escape he] at hclean
    rw [decode_escaped] at hb
    rcases List.mem_cons.1 hb with rfl | hb
    · exact hbyte _ (hclean _ List.mem_cons_self)
    · exact ih hlegal.2 (fun p hp => hclean p (List.mem_cons_of_mem _ hp)) hb
  | case4 => cases hlegal
  | case5 c rest hc ih =>
    simp only [Bool.and_eq_true] at hlegal
    rw [stringParts_cons hc] at hclean
    rw [decode_plain hc] at hb
    rcases List.mem_cons.1 hb with rfl | hb
    · exact hbyte _ (hclean _ List.mem_cons_self)
    · exact ih hlegal.2 (fun p hp => hclean p (List.mem_cons_of_mem _ hp)) hb

/-- The values of a legal tree are legal, at any depth. -/
theorem legal_of_mem_allMembers {p : Part} (t : Doc p) (h : t.legal = true) :
    ∀ m ∈ t.allMembers, m.2.legal = true := by
  induction t with
  | scalar | string | emptyArray | emptyObject =>
    intro m hm
    cases hm
  | array es ih => exact ih h
  | object ms ih => exact ih h
  | element w v w' ih => exact ih h
  | moreElements w v w' rest ihv ihrest =>
    simp only [Doc.legal, Bool.and_eq_true] at h
    intro m hm
    rcases List.mem_append.1 hm with hm | hm
    · exact ihv h.1 m hm
    · exact ihrest h.2 m hm
  | member n v w ih =>
    simp only [Doc.legal, Bool.and_eq_true] at h
    intro m hm
    rcases List.mem_cons.1 hm with rfl | hm
    · exact h.2
    · exact ih h.2 m hm
  | moreMembers n v w rest ihv ihrest =>
    simp only [Doc.legal, Bool.and_eq_true] at h
    intro m hm
    rcases List.mem_cons.1 hm with rfl | hm
    · exact h.1.2
    · rcases List.mem_append.1 hm with hm | hm
      · exact ihv h.1.2 m hm
      · exact ihrest h.2 m hm

section Clean

variable {doc : Doc .value} (hlegal : doc.legal = true) (hclean : FreeOfControl doc)
include hlegal hclean

theorem le_of_mem_decode_firstNamed {key : Bytes} {s : StrLit}
    (hfound : firstNamed key doc.allMembers = some (.string s)) {b : UInt8}
    (hb : b ∈ decode s.raw) : 32 ≤ b := by
  obtain ⟨m, hm, hvalue⟩ := Option.map_eq_some_iff.1 hfound
  have hmem := List.mem_of_find?_eq_some hm
  have hraw : Doc.legalRaw s.raw = true := by
    have hlegal := legal_of_mem_allMembers doc hlegal m hmem
    rw [hvalue] at hlegal
    exact hlegal
  have hparts := hclean m hmem
  rw [hvalue, freeOfControl, List.all_eq_true] at hparts
  exact le_of_mem_decode hraw (fun p hp => by simpa using hparts p hp) hb

/-- The client id has no control characters either. -/
theorem le_of_mem_clientIdOf (w₀ w : Ws) {b : UInt8}
    (hb : b ∈ clientIdOf (w₀.text ++ (doc.text ++ w.text))) : 32 ≤ b := by
  have hkey : SearchKey (ascii "clientId") := by decide
  have hbuffer : (initBuffer 128 (ascii "unknown")).length = 128 := initBuffer_length (by decide)
  have hout : initBuffer 128 (ascii "unknown") ≠ [] :=
    List.ne_nil_of_length_pos (by rw [hbuffer]; norm_num)
  have hunknown : ∀ c ∈ cstr (initBuffer 128 (ascii "unknown")), 32 ≤ c := by
    rw [cstr_initBuffer (by decide) (by decide)]
    exact fun c hc => le_of_mem_plain rfl hc
  rw [clientIdOf, readClientId, readField, jsonGetString_doc hkey w₀ doc w hout] at hb
  cases hfound : firstNamed (ascii "clientId") doc.allMembers with
  | none =>
    rw [hfound] at hb
    exact hunknown b hb
  | some v =>
    rw [hfound] at hb
    cases v with
    | string s =>
      have hnul : 0 ∉ (Doc.string s).text :=
        fun h => nul_notMem_text doc hlegal (mem_text_of_firstNamed hfound h)
      have hraw : 0 ∉ s.raw := fun h => hnul (by simp [Doc.text, StrLit.text, h])
      rw [readString, cstr_copied (nul_notMem_decode hraw) (by decide)] at hb
      exact le_of_mem_decode_firstNamed hlegal hclean hfound (List.mem_of_mem_take hb)
    | scalar s => exact hunknown b hb
    | emptyArray w => exact hunknown b hb
    | array es => exact hunknown b hb
    | emptyObject w => exact hunknown b hb
    | object ms => exact hunknown b hb

end Clean

/-! ## One way to read it -/

theorem name_front {n : Name} {name r r' : Bytes} {b : UInt8} (hname : wellEscaped name = true)
    (hb : isJsonWs b = false) (h : n.text ++ r = quote :: (name ++ quote :: colon :: b :: r')) :
    n.key.raw = name ∧ r = b :: r' := by
  have hbefore : n.before.text = [] := by
    rw [Name.text, List.append_assoc] at h
    exact n.before.text_eq_nil (by decide) h
  rw [Name.text, hbefore] at h
  simp only [StrLit.text, List.nil_append, List.cons_append, List.append_assoc, List.cons.injEq,
    true_and] at h
  obtain ⟨hraw, hrest⟩ := wellEscaped_unique n.key.escaped hname h
  rw [n.after.text_eq_nil (by decide) hrest, List.nil_append] at hrest
  have hpad := (List.cons.inj hrest).2
  rw [n.pad.text_eq_nil hb hpad, List.nil_append] at hpad
  exact ⟨hraw, hpad⟩

theorem literal_front {s : StrLit} {raw r r' : Bytes} (hraw : wellEscaped raw = true)
    (h : s.text ++ r = quote :: (raw ++ quote :: r')) : s.raw = raw ∧ r = r' := by
  simp only [StrLit.text, List.cons_append, List.append_assoc, List.nil_append, List.cons.injEq,
    true_and] at h
  exact wellEscaped_unique s.escaped hraw h

theorem comma_front {w : Ws} {r r' : Bytes} (h : w.text ++ comma :: r = comma :: r') : r = r' := by
  rw [w.text_eq_nil (by decide) h, List.nil_append] at h
  exact (List.cons.inj h).2

/-- White space behind another byte is no white space. -/
theorem ws_end (w : Ws) {c : UInt8} {r r' : Bytes} (hc : isJsonWs c = false)
    (h : r ++ w.text = r' ++ [c]) : w.text = [] := by
  rcases List.eq_nil_or_concat w.text with hnil | ⟨bs, b, hconcat⟩
  · exact hnil
  · have hb : isJsonWs b = true := List.all_eq_true.1 w.ok b (by simp [hconcat])
    rw [hconcat, List.concat_eq_append, ← List.append_assoc] at h
    rw [(List.append_inj' h rfl).2 |> List.singleton_inj.1, hc] at hb
    cases hb

theorem name_end {n : Name} {name r r' : Bytes} (hraw : n.key.raw = name)
    (h : r ++ n.text = r' ++ quote :: (name ++ [quote, colon])) : r ++ n.before.text = r' := by
  have hpad : n.pad.text = [] := by
    have hends : (r ++ (n.before.text ++ (n.key.text ++ (n.after.text ++ [colon])))) ++ n.pad.text =
        (r' ++ quote :: (name ++ [quote])) ++ [colon] := by
      simpa [Name.text] using h
    exact ws_end n.pad (by decide) hends
  have hkey : (r ++ (n.before.text ++ n.key.text)) ++ n.after.text =
      (r' ++ quote :: (name ++ [quote])) := by
    refine (List.append_left_inj [colon]).1 ?_
    simpa [Name.text, hpad] using h
  have hafter : n.after.text = [] := by
    have hends : (r ++ (n.before.text ++ n.key.text)) ++ n.after.text =
        (r' ++ quote :: name) ++ [quote] := by
      simpa using hkey
    exact ws_end n.after (by decide) hends
  refine (List.append_left_inj (quote :: (name ++ [quote]))).1 ?_
  simpa [hafter, StrLit.text, hraw] using hkey

/-- The contents of an object of three members. -/
theorem exists_three {ms : Doc .members} {a b c : Bytes × Doc .value}
    (h : (ms.topMembers.map fun m => (m.1.raw, m.2)) = [a, b, c]) :
    ∃ (n₁ n₂ n₃ : Name) (w₁ w₂ w₃ : Ws), n₁.key.raw = a.1 ∧ n₂.key.raw = b.1 ∧ n₃.key.raw = c.1 ∧
      ms = .moreMembers n₁ a.2 w₁ (.moreMembers n₂ b.2 w₂ (.member n₃ c.2 w₃)) := by
  cases ms with
  | member n v w => simp [Doc.topMembers] at h
  | moreMembers n₁ v₁ w₁ rest =>
    cases rest with
    | member n v w => simp [Doc.topMembers] at h
    | moreMembers n₂ v₂ w₂ rest =>
      cases rest with
      | moreMembers n v w rest =>
        cases rest with
        | member => simp [Doc.topMembers] at h
        | moreMembers => simp [Doc.topMembers] at h
      | member n₃ v₃ w₃ =>
        simp only [Doc.topMembers, List.map_cons, List.map_nil, List.cons.injEq, and_true] at h
        obtain ⟨rfl, rfl, rfl⟩ := h
        exact ⟨n₁, n₂, n₃, w₁, w₂, w₃, rfl, rfl, rfl, rfl⟩

/-- The text of an `ide_info` byte by byte. -/
theorem ideInfoText_eq (escapedClientId quotes clientInfo : Bytes) (heartbeatMs : ℤ) :
    ideInfoText escapedClientId quotes clientInfo heartbeatMs =
      lbrace :: quote :: (ascii "clientId" ++ quote :: colon :: quote :: (escapedClientId ++
        quote :: comma :: quote :: (ascii "clientInfo" ++ quote :: colon ::
          ((quotes ++ (clientInfo ++ quotes)) ++ comma :: quote :: (ascii "connectTime" ++
            quote :: colon :: (decimal heartbeatMs ++ [rbrace])))))) := by
  have hid : ascii "\x7b\"clientId\":\"" =
      lbrace :: quote :: (ascii "clientId" ++ [quote, colon, quote]) := by decide
  have hinfo : ascii "\",\"clientInfo\":" =
      quote :: comma :: quote :: (ascii "clientInfo" ++ [quote, colon]) := by decide
  have htime : ascii ",\"connectTime\":" =
      comma :: quote :: (ascii "connectTime" ++ [quote, colon]) := by decide
  have hbrace : ascii "\x7d" = [rbrace] := by decide
  rw [ideInfoText, hid, hinfo, htime, hbrace]
  simp only [List.cons_append, List.append_assoc, List.nil_append]

theorem exists_decimal_concat (n : ℤ) :
    ∃ bs b, decimal n = bs ++ [b] ∧ isJsonWs b = false := by
  rcases List.eq_nil_or_concat (decimal n) with hnil | ⟨bs, b, hconcat⟩
  · exact absurd hnil (decimal_ne_nil n)
  · refine ⟨bs, b, by rw [hconcat, List.concat_eq_append], ?_⟩
    rcases mem_decimal (show b ∈ decimal n by simp [hconcat]) with h | rfl
    · exact forall_isDigit (P := fun b => isJsonWs b = false) (by decide) h
    · decide

/-- What stands for the client info is the value that is read there. -/
theorem infoField_of_isIdeInfo {escapedClientId quotes clientInfo clientId : Bytes} {b : UInt8}
    {rest : Bytes} {nowMs : ℤ} {u : Doc .value} (hid : wellEscaped escapedClientId = true)
    (hfield : quotes ++ (clientInfo ++ quotes) = b :: rest) (hb : isJsonWs b = false)
    (h : IsIdeInfo (ideInfoText escapedClientId quotes clientInfo nowMs) clientId u nowMs) :
    u.legal = true ∧ ∃ w : Ws, quotes ++ (clientInfo ++ quotes) = u.text ++ w.text := by
  obtain ⟨doc, id, time, hlegal, htext, hmembers, -, htime⟩ := h
  obtain ⟨ms, rfl⟩ : ∃ ms, doc = .object ms := by
    cases doc with
    | object ms => exact ⟨ms, rfl⟩
    | scalar | string | emptyArray | array | emptyObject => simp [Doc.ownMembers] at hmembers
  obtain ⟨n₁, n₂, n₃, w₁, w₂, w₃, -, -, hthird, rfl⟩ := exists_three hmembers
  have hu : u.legal = true := by
    simp only [Doc.legal, Bool.and_eq_true] at hlegal
    exact hlegal.2.1.2
  refine ⟨hu, w₂, ?_⟩
  rw [ideInfoText_eq, hfield] at htext
  simp only [Doc.text, List.cons.injEq, true_and, List.append_assoc, List.cons_append] at htext
  have hname₁ : wellEscaped (ascii "clientId") = true := wellEscaped_of_plain rfl
  have hname₂ : wellEscaped (ascii "clientInfo") = true := wellEscaped_of_plain rfl
  have hquote : isJsonWs quote = false := rfl
  -- from the front, up to the value
  obtain ⟨-, htext⟩ := name_front hname₁ hquote htext
  obtain ⟨-, htext⟩ := literal_front hid htext
  have htext := comma_front htext
  obtain ⟨-, htext⟩ := name_front hname₂ hb htext
  -- from the end, back to it
  obtain ⟨digits, d, hdigits, hd⟩ := exists_decimal_concat nowMs
  have htail : (u.text ++ (w₂.text ++ (comma :: n₃.text ++ decimal nowMs))) ++ w₃.text =
      b :: rest ++ (comma :: quote :: (ascii "connectTime" ++ [quote, colon]) ++ digits) ++
        [d] := by
    refine (List.append_left_inj [rbrace]).1 ?_
    simpa [htime, hdigits] using htext
  have hw₃ : w₃.text = [] := ws_end w₃ hd htail
  have hnames : (u.text ++ (w₂.text ++ [comma])) ++ n₃.text =
      (b :: rest ++ [comma]) ++ quote :: (ascii "connectTime" ++ [quote, colon]) := by
    refine (List.append_left_inj (decimal nowMs)).1 ?_
    simpa [hw₃, hdigits] using htail
  have hend := name_end hthird hnames
  have hbefore : n₃.before.text = [] := ws_end n₃.before (by decide) hend
  rw [hfield]
  refine ((List.append_left_inj [comma]).1 ?_).symm
  simpa [hbefore] using hend

theorem legalRaw_escape_of_le {text : Bytes} (h : ∀ b ∈ text, 32 ≤ b) :
    Doc.legalRaw (escape text) = true := by
  rw [legalRaw_escape_iff, List.all_eq_true]
  intro b hb
  simp only [escapedLegally, Bool.or_eq_true, decide_eq_true_eq]
  exact Or.inl (Or.inl (Or.inl (h b hb)))

theorem le_of_mem_legalScalar {text : Bytes} (h : Doc.legalScalar text = true) {b : UInt8}
    (hb : b ∈ text) : 32 ≤ b := by
  simp only [Doc.legalScalar, Bool.or_eq_true, beq_iff_eq] at h
  rcases h with ((rfl | rfl) | rfl) | hnumber
  · exact le_of_mem_plain (show (ascii "true").all isPlainByte = true from rfl) hb
  · exact le_of_mem_plain (show (ascii "false").all isPlainByte = true from rfl) hb
  · exact le_of_mem_plain (show (ascii "null").all isPlainByte = true from rfl) hb
  · exact le_of_isPlainByte (isPlainByte_of_isNumeric
      (List.all_eq_true.1 (isNumeric_of_isNumber hnumber) b hb))

/-- A client id without control characters, and a value, make an object. -/
theorem isIdeInfo_of_field {clientId quotes clientInfo : Bytes} {nowMs : ℤ} {u : Doc .value}
    {w : Ws} (hid : ∀ b ∈ clientId, 32 ≤ b) (hlegal : u.legal = true)
    (hfield : quotes ++ (clientInfo ++ quotes) = u.text ++ w.text) :
    IsIdeInfo (ideInfoText (escape clientId) quotes clientInfo nowMs) clientId u nowMs := by
  have hname₁ : escape (ascii "clientId") = ascii "clientId" := escape_of_plain rfl
  have hname₂ : escape (ascii "clientInfo") = ascii "clientInfo" := escape_of_plain rfl
  have hname₃ : escape (ascii "connectTime") = ascii "connectTime" := escape_of_plain rfl
  refine ⟨.object (.moreMembers (keyName "clientId") (.string (escapedLit clientId)) .none
    (.moreMembers (keyName "clientInfo") u w (.member (keyName "connectTime")
      (.scalar (decimalScalar nowMs)) .none))), escapedLit clientId, decimalScalar nowMs,
    ?_, ?_, ?_, stringValue_escape_text clientId, rfl⟩
  · have hraw := legalRaw_escape_of_le hid
    have hkey₁ : Doc.legalRaw (ascii "clientId") = true := legalRaw_of_plain rfl
    have hkey₂ : Doc.legalRaw (ascii "clientInfo") = true := legalRaw_of_plain rfl
    have hkey₃ : Doc.legalRaw (ascii "connectTime") = true := legalRaw_of_plain rfl
    simp only [Doc.legal, keyName, Name.bare, escapedLit, decimalScalar, hname₁, hname₂, hname₃,
      hkey₁, hkey₂, hkey₃, hraw, hlegal, legalScalar_decimal, Bool.and_self]
  · rw [ideInfoText_eq, hfield]
    simp only [Doc.text, keyName, Name.text, Name.bare, escapedLit, StrLit.text, decimalScalar,
      Ws.none, hname₁, hname₂, hname₃, List.nil_append, List.cons_append, List.append_assoc,
      List.append_nil]
  · simp only [Doc.ownMembers, Doc.topMembers, keyName, Name.bare, escapedLit, hname₁, hname₂,
      hname₃, List.map_cons, List.map_nil]

/-! ## What arrives -/

theorem carries_iff_of_not_string {info : Bytes} {u : Doc .value} (h : ∀ s, u ≠ .string s) :
    Carries info u ↔ ∃ w : Ws, info = u.text ++ w.text := by
  cases u with
  | string s => exact absurd rfl (h s)
  | _ => exact Iff.rfl

/-- The text of an `ide_info` is an object that carries a client info exactly when that is what
arrives. -/
theorem isIdeInfo_carries_iff {clientId taken info : Bytes} {nowMs : ℤ}
    (hid : ∀ b ∈ clientId, 32 ≤ b)
    (htaken : ¬ (taken.head? = some lbrace ∨ taken.head? = some lbracket) → ∀ b ∈ taken, 32 ≤ b) :
    (∃ u, IsIdeInfo (ideInfoOf clientId taken nowMs) clientId u nowMs ∧ Carries info u) ↔
      Arrives info taken := by
  have hescaped := wellEscaped_escape clientId
  unfold ideInfoOf Arrives
  split_ifs with hopens
  · -- put in as it is
    obtain ⟨b, rest, rfl, hws, hquote⟩ : ∃ b rest, taken = b :: rest ∧ isJsonWs b = false ∧
        b ≠ quote := by
      cases taken with
      | nil => simp at hopens
      | cons b rest =>
        rcases hopens with h | h
        · cases h
          exact ⟨lbrace, rest, rfl, by decide, by decide⟩
        · cases h
          exact ⟨lbracket, rest, rfl, by decide, by decide⟩
    have hnot : ∀ {u : Doc .value} {w : Ws}, b :: rest = u.text ++ w.text → ∀ s, u ≠ .string s := by
      rintro u w htext s rfl
      exact hquote (List.cons.inj htext).1
    constructor
    · rintro ⟨u, hinfo, hcarries⟩
      obtain ⟨hlegal, w, htext⟩ := infoField_of_isIdeInfo hescaped
        (show [] ++ ((b :: rest) ++ []) = b :: rest by simp) hws hinfo
      rw [List.nil_append, List.append_nil] at htext
      obtain ⟨w', hw'⟩ := (carries_iff_of_not_string (hnot htext)).1 hcarries
      exact ⟨u, w, w', hlegal, htext, hw'⟩
    · rintro ⟨u, w, w', hlegal, htext, hw'⟩
      refine ⟨u, isIdeInfo_of_field hid hlegal (by simpa using htext), ?_⟩
      exact (carries_iff_of_not_string (hnot htext)).2 ⟨w', hw'⟩
  · -- put in as a string
    have hfield : [quote] ++ (escape taken ++ [quote]) = (Doc.string (escapedLit taken)).text := rfl
    constructor
    · rintro ⟨u, hinfo, hcarries⟩
      obtain ⟨-, w, htext⟩ := infoField_of_isIdeInfo hescaped
        (show [quote] ++ (escape taken ++ [quote]) = quote :: (escape taken ++ [quote]) from rfl)
        (by decide) hinfo
      obtain ⟨s, rfl⟩ := (head?_text u w.text).1.1 (by rw [← htext]; rfl)
      have hraw : s.raw = escape taken := (literal_front (wellEscaped_escape taken) htext.symm).1
      rw [Carries, hraw, stringValue_escape_text] at hcarries
      exact hcarries
    · intro harrives
      have hlegal : (Doc.string (escapedLit taken)).legal = true :=
        legalRaw_escape_of_le (htaken hopens)
      refine ⟨.string (escapedLit taken), isIdeInfo_of_field (w := .none) hid hlegal ?_, ?_⟩
      · rw [hfield]
        exact (List.append_nil _).symm
      · rw [Carries, escapedLit, stringValue_escape_text]
        exact harrives

/-- A client info that is put in as a string has no control characters. -/
theorem le_of_mem_takenInfo {doc : Doc .value} (hlegal : doc.legal = true)
    (hclean : FreeOfControl doc)
    (hopens : ¬ ((takenInfo (firstNamed (ascii "clientInfo") doc.allMembers)).head? = some lbrace ∨
      (takenInfo (firstNamed (ascii "clientInfo") doc.allMembers)).head? = some lbracket)) {b : UInt8}
    (hb : b ∈ takenInfo (firstNamed (ascii "clientInfo") doc.allMembers)) : 32 ≤ b := by
  cases hfound : firstNamed (ascii "clientInfo") doc.allMembers with
  | none =>
    rw [hfound] at hb
    cases hb
  | some v =>
    rw [hfound] at hb hopens
    have hcompound : v.text.head? = some lbrace ∨ v.text.head? = some lbracket →
        (∀ s, v ≠ .string s) → False := by
      intro h hnot
      have htaken : takenInfo (some v) = if v.text.length < 512 then v.text else [] := by
        cases v with
        | string s => exact absurd rfl (hnot s)
        | _ => rfl
      rw [htaken] at hb hopens
      split_ifs at hb hopens with hfits
      · exact hopens h
      · cases hb
    cases v with
    | string s => exact le_of_mem_decode_firstNamed hlegal hclean hfound (List.mem_of_mem_take hb)
    | scalar s =>
      obtain ⟨m, hm, hvalue⟩ := Option.map_eq_some_iff.1 hfound
      have hscalar := legal_of_mem_allMembers doc hlegal m (List.mem_of_find?_eq_some hm)
      rw [hvalue] at hscalar
      have htaken : takenInfo (some (.scalar s)) = if s.text.length < 512 then s.text else [] := rfl
      refine le_of_mem_legalScalar hscalar ?_
      rw [htaken] at hb
      split_ifs at hb with hfits
      · exact hb
      · cases hb
    | emptyArray w => exact (hcompound (Or.inr rfl) (by simp)).elim
    | array es => exact (hcompound (Or.inr rfl) (by simp)).elim
    | emptyObject w => exact (hcompound (Or.inl rfl) (by simp)).elim
    | object ms => exact (hcompound (Or.inl rfl) (by simp)).elim

/-! ## What is posted -/

/-- Whichever allocation fails, a report that is posted is the whole one. -/
theorem ideReportFullState_whole {alloc : ℕ → Bool} {clientId clientInfo post : Bytes}
    (hid : 0 ∉ clientId) (hidlen : clientId.length ≤ 127) (hinfo : 0 ∉ clientInfo)
    (hinfolen : clientInfo.length ≤ 511) {heartbeatMs : ℤ}
    (hms : (decimal heartbeatMs).length ≤ 20)
    (h : ideReportFullState alloc true clientId clientInfo heartbeatMs = some post) :
    post = connectedParams (escape (ideInfoOf clientId clientInfo heartbeatMs)) heartbeatMs := by
  have hlen := ideInfoOf_length_lt hidlen hinfolen hms
  have hpost : ∀ {allocOk : Bool},
      postIdeInfo allocOk (ideInfoOf clientId clientInfo heartbeatMs) heartbeatMs = some post →
        post = connectedParams (escape (ideInfoOf clientId clientInfo heartbeatMs)) heartbeatMs := by
    intro allocOk h
    cases allocOk with
    | false => cases h
    | true =>
      rw [postIdeInfo_eq (nul_notMem_ideInfoOf hid hinfo) (by omega)
        (connectedParams_length_lt hidlen hinfolen hms)] at h
      exact (Option.some.inj h).symm
  unfold ideReportFullState at h
  unfold ideInfoOf at hpost ⊢
  rw [if_neg (by decide), escapeAlloc_eq hid, escapeAlloc_eq hinfo] at h
  split_ifs at h hpost ⊢ with hopens
  · exact hpost h
  · exact hpost h

section Posted

variable {doc : Doc .value} (w₀ w : Ws) (manager : IdeConnectionManager) {nowMs : ℤ}
  (hlo : -2 ^ 63 ≤ nowMs) (hhi : nowMs < 2 ^ 63) (response : Option Bytes)
include hlo hhi

/-- An accepted request is reported if there is memory. -/
theorem posted_length (params : Bytes) {alloc : ℕ → Bool}
    (haccepted :
      (requestConnectLocked manager (clientIdOf params) (clientInfoOf params) nowMs).success = true)
    (halloc : ∀ i < 3, alloc i = true) :
    (handleRequestConnect alloc manager params nowMs response).posted.length = 1 := by
  have hid : 0 ∉ clientIdOf params := nul_notMem_readClientId _ _
  have hinfo : 0 ∉ clientInfoOf params := nul_notMem_cstr _
  have heq := ideReportFullState_eq hid (Nat.le_of_lt_succ (clientIdOf_length_lt params)) hinfo
    (Nat.le_of_lt_succ (clientInfoOf_length_lt params)) (decimal_long_length_le hlo hhi) halloc
  change List.length (if _ then _ else _) = 1
  rw [if_pos haccepted, heq]
  rfl

/-- The `IDEInfo` of what is posted is made from what the handler takes. -/
theorem ideInfoIn_posted (hlegal : doc.legal = true) (alloc : ℕ → Bool) {post : Bytes}
    (hpost : post ∈ (handleRequestConnect alloc manager (w₀.text ++ (doc.text ++ w.text)) nowMs
      response).posted) :
    ideInfoIn post = some (ideInfoOf (clientIdOf (w₀.text ++ (doc.text ++ w.text)))
      (takenInfo (firstNamed (ascii "clientInfo") doc.allMembers)) nowMs) := by
  rw [← clientInfoOf_eq w₀ w hlegal]
  set params := w₀.text ++ (doc.text ++ w.text)
  have hms := decimal_long_length_le hlo hhi
  have hid : 0 ∉ clientIdOf params := nul_notMem_readClientId _ _
  have hidlen : (clientIdOf params).length ≤ 127 := Nat.le_of_lt_succ (clientIdOf_length_lt params)
  have hinfo : 0 ∉ clientInfoOf params := nul_notMem_cstr _
  have hinfolen : (clientInfoOf params).length ≤ 511 :=
    Nat.le_of_lt_succ (clientInfoOf_length_lt params)
  have hreport : ideReportFullState alloc true (clientIdOf params) (clientInfoOf params) nowMs =
      some post := by
    change post ∈ (if _ then _ else _) at hpost
    split_ifs at hpost
    · exact Option.mem_toList.1 hpost
    · cases hpost
  have hroom : (ideInfoOf (clientIdOf params) (clientInfoOf params) nowMs).length <
      (List.replicate 4096 (0 : UInt8)).length := by
    have hlen := ideInfoOf_length_lt hidlen hinfolen hms
    rw [List.length_replicate]
    omega
  have hread := value?_of_yields (ideInfo_yields (nul_notMem_ideInfoOf hid hinfo) hroom nowMs)
  rw [← ideReportFullState_whole hid hidlen hinfo hinfolen hms hreport] at hread
  exact hread

end Posted

/-- **The IDE info is well formed and carries the request's own** exactly when what the handler
takes arrives.  A request is any legal object without control characters that has a client info
of its own; an accepted one is reported if there is memory. -/
theorem ide_info_well_formed_iff {doc : Doc .value} (hlegal : doc.legal = true)
    (hclean : FreeOfControl doc) (w₀ w : Ws) (alloc : ℕ → Bool) (manager : IdeConnectionManager)
    {nowMs : ℤ} (hlo : -2 ^ 63 ≤ nowMs) (hhi : nowMs < 2 ^ 63) (response : Option Bytes) :
    let params := w₀.text ++ (doc.text ++ w.text)
    let posted := (handleRequestConnect alloc manager params nowMs response).posted
    ((requestConnectLocked manager (clientIdOf params) (clientInfoOf params) nowMs).success = true →
      (∀ i < 3, alloc i = true) → posted.length = 1) ∧
    ∀ post ∈ posted, ∀ own ∈ ownValue (ascii "clientInfo") doc,
      ((∃ info u, ideInfoIn post = some info ∧ IsIdeInfo info (clientIdOf params) u nowMs ∧
          Carries (infoText own) u) ↔
        Arrives (infoText own) (takenInfo (firstNamed (ascii "clientInfo") doc.allMembers))) := by
  intro params posted
  refine ⟨posted_length manager hlo hhi response params, fun post hpost own _ => ?_⟩
  have hread := ideInfoIn_posted w₀ w manager hlo hhi response hlegal alloc hpost
  have hid : ∀ b ∈ clientIdOf params, 32 ≤ b :=
    fun b hb => le_of_mem_clientIdOf hlegal hclean w₀ w hb
  have hexact := @isIdeInfo_carries_iff (clientIdOf params) _ (infoText own) nowMs hid
    fun hopens b hb => le_of_mem_takenInfo hlegal hclean hopens hb
  rw [← hexact]
  constructor
  · rintro ⟨info, u, hin, hinfo, hcarries⟩
    rw [Option.some.inj (hin.symm.trans hread)] at hinfo
    exact ⟨u, hinfo, hcarries⟩
  · rintro ⟨u, hinfo, hcarries⟩
    exact ⟨_, u, hread, hinfo, hcarries⟩

/-- `{"clientId":"a","clientInfo":…}` -/
def infoRequest (info : Doc .value) : Doc .value :=
  .object (.moreMembers (keyName "clientId") (.string (escapedLit (ascii "a"))) .none
    (.member (keyName "clientInfo") info .none))

/-- `{"clientId":"a","clientInfo":"vscode"}` -/
def textRequest : Doc .value := infoRequest (.string (escapedLit (ascii "vscode")))

theorem ide_info_well_formed_iff_text :
    let params := Ws.none.text ++ (textRequest.text ++ Ws.none.text)
    let posted := (handleRequestConnect (fun _ => true) .init params 0 none).posted
    ((requestConnectLocked .init (clientIdOf params) (clientInfoOf params) 0).success = true →
      (∀ i < 3, (fun _ => true) i = true) → posted.length = 1) ∧
    ∀ post ∈ posted, ∀ own ∈ ownValue (ascii "clientInfo") textRequest,
      ((∃ info u, ideInfoIn post = some info ∧ IsIdeInfo info (clientIdOf params) u 0 ∧
          Carries (infoText own) u) ↔
        Arrives (infoText own) (takenInfo (firstNamed (ascii "clientInfo")
          textRequest.allMembers))) := by
  have hlegal : textRequest.legal = true := by decide +kernel
  have hclean : FreeOfControl textRequest := by
    unfold FreeOfControl
    decide +kernel
  exact ide_info_well_formed_iff hlegal hclean .none .none (fun _ => true) .init (by norm_num)
    (by norm_num) none

/-- A JSON object in a string, as the header asks for, with 520 times `a` in it. -/
def longInfo : Bytes := ascii "\x7b\"note\":\"" ++ (List.replicate 520 97 ++ ascii "\"\x7d")

def longRequest : Doc .value := infoRequest (.string (escapedLit longInfo))

theorem ideInfoOf_of_opens {clientId taken : Bytes} {nowMs : ℤ}
    (hopens : taken.head? = some lbrace ∨ taken.head? = some lbracket) :
    ideInfoOf clientId taken nowMs = ideInfoText (escape clientId) [] taken nowMs :=
  if_pos hopens

/-- What is cut off in the middle of an object is no value. -/
theorem not_text_of_cut {u : Doc .value} {w : Ws} {front : Bytes} {c : UInt8}
    (hws : isJsonWs c = false) (hc : c ≠ rbrace) : lbrace :: (front ++ [c]) ≠ u.text ++ w.text := by
  intro h
  have hends : u.text ++ w.text = (lbrace :: front) ++ [c] := by
    rw [← h, List.cons_append]
  have hw : w.text = [] := ws_end w hws hends
  have hobject : isObject u = true := (head?_text u w.text).2.1.1 (by rw [← h]; rfl)
  rw [hw, List.append_nil] at h
  have hlast : ∀ {middle : Bytes}, lbrace :: (front ++ [c]) ≠ lbrace :: (middle ++ [rbrace]) := by
    intro middle h
    exact hc (List.singleton_inj.1 (List.append_inj' (List.cons.inj h).2 rfl).2)
  cases u with
  | emptyObject w => exact hlast h
  | object ms => exact hlast h
  | scalar | string | emptyArray | array => cases hobject

/-- The array takes 511 bytes of it, and these are put into the text as they are. -/
theorem long_info_cut :
    let params := Ws.none.text ++ (longRequest.text ++ Ws.none.text)
    let posted := (handleRequestConnect (fun _ => true) .init params 0 none).posted
    longRequest.legal = true ∧ posted.length = 1 ∧
    ¬ ∃ post ∈ posted, ∃ info clientId u, ideInfoIn post = some info ∧
      IsIdeInfo info clientId u 0 := by
  intro params posted
  have hlegal : longRequest.legal = true := by decide +kernel
  have haccepted :
      (requestConnectLocked .init (clientIdOf params) (clientInfoOf params) 0).success = true := by
    rw [requestConnectLocked, if_pos (show IdeConnectionManager.init.connected = false from rfl)]
  have hone : posted.length = 1 := posted_length .init (by norm_num) (by norm_num) none params
    haccepted (fun _ _ => rfl)
  refine ⟨hlegal, hone, ?_⟩
  rintro ⟨post, hpost, info, clientId, u, hin, hinfo⟩
  have hread := ideInfoIn_posted .none .none .init (by norm_num) (by norm_num) none hlegal
    (fun _ => true) hpost
  have hfirst : firstNamed (ascii "clientInfo") longRequest.allMembers =
      some (.string (escapedLit longInfo)) := rfl
  obtain ⟨front, htaken⟩ : ∃ front,
      takenInfo (some (.string (escapedLit longInfo))) = lbrace :: (front ++ [97]) := by
    refine ⟨ascii "\"note\":\"" ++ List.replicate 501 97, ?_⟩
    rw [takenInfo, escapedLit, decode_escape]
    decide +kernel
  rw [hfirst, htaken, hin] at hread
  have hraw : ideInfoOf (clientIdOf params) (lbrace :: (front ++ [97])) 0 =
      ideInfoText (escape (clientIdOf params)) [] (lbrace :: (front ++ [97])) 0 :=
    ideInfoOf_of_opens (Or.inl rfl)
  rw [Option.some.inj (hread.trans (congrArg some hraw))] at hinfo
  obtain ⟨-, w, htext⟩ := infoField_of_isIdeInfo (wellEscaped_escape _)
    (show [] ++ (lbrace :: (front ++ [97]) ++ []) = lbrace :: (front ++ [97]) by
      rw [List.nil_append, List.append_nil])
    (by decide) hinfo
  rw [List.nil_append, List.append_nil] at htext
  exact not_text_of_cut (by decide) (by decide) htext

end IotIde
