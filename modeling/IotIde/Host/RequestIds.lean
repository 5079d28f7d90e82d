import IotIde.Gateway.Properties
import IotIde.Host.App
import IotIde.Host.Runtime
import IotIde.Json.Fields

/-!
# The id of a reply

A reply carries the id of its request.  The id is found by searching for its name, decoded
into 64 bytes, and put between quotes again as it is, by three formatters.

* `HasId`, `CarriesId` — a request with an id, and a reply that carries it;
* `Replier` — the three formatters;
* `ReadsPlain` — the search finds a value whose text can be copied byte by byte;
* `carriesId_parse` — what a reply carries, read off its text;
* `reply_carries_id_iff` — which replies carry the id.
-/

namespace IotIde

open CText JsonText

/-! ## Ids -/

/-- The name, however it is escaped, of the member `id`. -/
def IsId (name : StrLit) : Prop := stringValue name.raw = ascii "id"

instance (name : StrLit) : Decidable (IsId name) :=
  inferInstanceAs (Decidable (stringValue name.raw = ascii "id"))

/-- The text of an id, which is a string or a number. -/
def idText : Doc .value → Option Bytes
  | .string s => some (stringValue s.raw)
  | .scalar s => if Doc.isNumber s.text then some s.text else none
  | _ => none

/-- A well-formed request whose own member `id` is `id`, with the text `text`. -/
structure HasId (request id : Doc .value) (text : Bytes) : Prop where
  legal : request.legal = true
  named : ∃ name, (name, id) ∈ request.ownMembers ∧ IsId name
  text : idText id = some text

/-- Well-formed JSON, an object whose member `id` has the text. -/
def CarriesId (payload text : Bytes) : Prop :=
  ∃ (w₀ : Ws) (v : Doc .value) (w : Ws), v.legal = true ∧
    payload = w₀.text ++ (v.text ++ w.text) ∧ (∃ m ∈ v.ownMembers, IsId m.1) ∧
    ∀ m ∈ v.ownMembers, IsId m.1 → idText m.2 = some text

/-- What formats replies: `iot_ide_gateway_reply_service`, `app_reply_service` and
`gateway_reply_sub_service`. -/
inductive Replier
  | runtime (o : RuntimeOutcomes) (host : RuntimeHost)
  | app (o : AppOutcomes) (app : AppContext)
  | subDevice (o : GatewayPublication.Outcomes) (config : SubDeviceConfig)

namespace Replier

/-- The largest array that the callers pass data from. -/
def dataSize : Replier → ℕ
  | runtime .. => 8192
  | app .. => 1024
  | subDevice .. => 1024

/-- The reply to a request, with memory for it. -/
def payloads (replier : Replier) (service request data : Bytes) : List Bytes :=
  match replier with
  | runtime o host =>
    (iotIdeGatewayReplyService { o with replyAlloc := true } host service (readRequestId request)
      data).map Prod.snd
  | app o context =>
    (appReplyService { o with replyAlloc := fun _ => true } context service (readRequestId request)
      data).map Prod.snd
  | subDevice o config =>
    ((GatewayPublication.replySubService config service (readRequestId request) data).payload
      o).toList

/-- No formatter cuts its text. -/
theorem payloads_eq (replier : Replier) (service request : Bytes) {data : Bytes}
    (hnul : 0 ∉ data) (hlen : data.length < replier.dataSize) :
    replier.payloads service request data = [replyText (readRequestId request) 200 data] := by
  have hid := readRequestId_length_lt request
  cases replier with
  | runtime o host =>
    have htext := replyText_length_le (readRequestId request) data
    rw [payloads, iotIdeGatewayReplyService, if_pos rfl, snprintf_of_lt (by omega)]
    rfl
  | app o context =>
    rw [payloads, appReplyService_eq _ context rfl service (nul_notMem_readRequestId request) hid
      hnul (le_of_lt hlen)]
    rfl
  | subDevice o config =>
    rw [payloads, payload_replySubService o config service (readRequestId_length_lt request) hlen]
    rfl

end Replier

/-! ## What is read -/

/-- The value that the search takes for the id. -/
def foundId (request : Doc .value) : Option (Doc .value) :=
  firstNamed (ascii "id") request.allMembers

theorem readRequestId_eq (w₀ : Ws) (request : Doc .value) (w : Ws) :
    readRequestId (w₀.text ++ (request.text ++ w.text)) =
      cstr (readRawValue (foundId request) (initBuffer 64 (ascii "0"))).out :=
  congrArg (fun extract => cstr (Extract.out extract))
    (jsonGetRawValue_doc (by decide) w₀ request w (by decide))

/-- A number is read whole or not at all. -/
theorem cstr_copiedWhole {text : Bytes} (h : 0 ∉ text) :
    cstr (copiedWhole text (initBuffer 64 (ascii "0"))).out =
      if text.length < 64 then text else ascii "0" := by
  have hbuffer : (initBuffer 64 (ascii "0")).length = 64 := rfl
  unfold copiedWhole
  rw [hbuffer]
  by_cases hfits : text.length < 64
  · rw [if_pos hfits, if_pos hfits, cstr_store_nul, cstr_of_nul_free h]
  · rw [if_neg hfits, if_neg hfits]
    rfl

/-- The text is copied as it is: it fits, and no byte of it needs an escape. -/
structure CopiedPlain (text : Bytes) : Prop where
  ne_nil : text ≠ []
  length_lt : text.length < 64
  plain : text.all isPlainByte = true

/-- The search finds a value with the text `text`, which can be copied as it is. -/
def ReadsPlain (request : Doc .value) (text : Bytes) : Prop :=
  ∃ id, foundId request = some id ∧ idText id = some text ∧ WithoutUnits id ∧ CopiedPlain text

/-- What is read of a string or a number. -/
theorem readRequestId_found {request id : Doc .value} {text : Bytes} (w₀ w : Ws)
    (hlegal : request.legal = true) (hfound : foundId request = some id)
    (htext : idText id = some text) (hunits : WithoutUnits id) :
    readRequestId (w₀.text ++ (request.text ++ w.text)) = text.take 63 ∨
      63 < text.length ∧ readRequestId (w₀.text ++ (request.text ++ w.text)) = ascii "0" := by
  have hnul : 0 ∉ id.text := fun h =>
    nul_notMem_text request hlegal (mem_text_of_firstNamed hfound h)
  rw [readRequestId_eq, hfound]
  cases id with
  | string s =>
    cases htext
    have hraw : 0 ∉ s.raw := fun h => hnul (by simp [Doc.text, StrLit.text, h])
    rw [← decode_eq_stringValue s.escaped (hunits s rfl)]
    exact Or.inl (cstr_copied (nul_notMem_decode hraw) (by decide))
  | scalar s =>
    simp only [idText, Option.ite_none_right_eq_some, Option.some.injEq] at htext
    obtain ⟨-, rfl⟩ := htext
    have hread := cstr_copiedWhole hnul
    rw [show (Doc.scalar s).text = s.text from rfl] at hread
    by_cases hfits : s.text.length < 64
    · rw [if_pos hfits] at hread
      rw [List.take_of_length_le (by omega)]
      exact Or.inl hread
    · rw [if_neg hfits] at hread
      exact Or.inr ⟨by omega, hread⟩
  | emptyArray | array | emptyObject | object => cases htext

/-! ## A reply, read back -/

/-- What a reply consists of, up to the first letter of `code`. -/
theorem replyText_eq (requestId data : Bytes) : ∃ rest, replyText requestId 200 data =
    lbrace :: quote :: (ascii "id" ++ quote :: colon :: quote ::
      (orElse requestId (ascii "0") ++ quote :: comma :: quote :: 99 :: rest)) := by
  refine ⟨ascii "ode\":" ++ (decimal 200 ++ (ascii ",\"data\":" ++
    (orElse data (ascii "\x7b\x7d") ++ ascii "\x7d"))), ?_⟩
  rw [replyText, show ascii "\x7b\"id\":\"" = lbrace :: quote :: (ascii "id" ++
    [quote, colon, quote]) by decide,
    show ascii "\",\"code\":" = quote :: comma :: quote :: 99 :: ascii "ode\":" by decide]
  simp only [List.cons_append, List.append_assoc, List.nil_append]

/-- The first name of an object, where no white space stands before it. -/
theorem ownMembers_of_text {v : Doc .value} {name rest tail : Bytes}
    (hname : wellEscaped name = true)
    (h : v.text ++ tail = lbrace :: quote :: (name ++ quote :: rest)) :
    ∃ key value post, v.ownMembers = (key, value) :: post ∧ key.raw = name := by
  have hfirst : ∀ (n : Name) (behind : Bytes),
      n.text ++ behind = quote :: (name ++ quote :: rest) → n.key.raw = name := by
    intro n behind heq
    have hbefore : n.before.text = [] := by
      rw [Name.text, List.append_assoc] at heq
      exact n.before.text_eq_nil (by decide) heq
    rw [Name.text, hbefore] at heq
    simp only [StrLit.text, List.nil_append, List.cons_append, List.append_assoc,
      List.cons.injEq, true_and] at heq
    exact (wellEscaped_unique n.key.escaped hname heq).1
  have hobject : isObject v = true := (head?_text v tail).2.1.1 (by rw [h]; rfl)
  cases v with
  | object ms =>
    have hms : ms.text ++ ([rbrace] ++ tail) = quote :: (name ++ quote :: rest) := by
      simpa [Doc.text] using h
    cases ms with
    | member n value w =>
      rw [Doc.text, List.append_assoc] at hms
      exact ⟨n.key, value, [], rfl, hfirst n _ hms⟩
    | moreMembers n value w more =>
      rw [Doc.text, List.append_assoc] at hms
      exact ⟨n.key, value, more.topMembers, rfl, hfirst n _ hms⟩
  | emptyObject w =>
    have hw : w.text ++ ([rbrace] ++ tail) = quote :: (name ++ quote :: rest) := by
      simpa [Doc.text] using h
    rw [w.text_eq_nil (by decide) hw] at hw
    exact absurd (List.cons.inj hw).1 (by decide)
  | scalar | string | emptyArray | array => cases hobject

/-- The id that a reply carries is the text of a legal literal, behind which a member or
the object ends. -/
theorem carriesId_parse {requestId data text : Bytes}
    (h : CarriesId (replyText requestId 200 data) text) :
    ∃ (s : StrLit) (tail rest : Bytes), Doc.legalRaw s.raw = true ∧ stringValue s.raw = text ∧
      Ended tail ∧ s.raw ++ quote :: tail =
        orElse requestId (ascii "0") ++ quote :: comma :: quote :: 99 :: rest := by
  obtain ⟨w₀, v, w, hlegal, htext, -, hall⟩ := h
  obtain ⟨rest, hreply⟩ := replyText_eq requestId data
  rw [hreply] at htext
  have hw₀ : w₀.text = [] := w₀.text_eq_nil (by decide) htext.symm
  have hkey : SearchKey (ascii "id") := by decide
  obtain ⟨key, value, post, hown, hraw⟩ := ownMembers_of_text
    (show wellEscaped (ascii "id") = true by decide)
    (show v.text ++ w.text = _ by rw [htext, hw₀]; rfl)
  have hmem : (key, value) ∈ v.ownMembers := by
    rw [hown]
    exact List.mem_cons_self
  have hvalue : idText value = some text := by
    refine hall (key, value) hmem ?_
    rw [IsId, hraw]
    decide
  -- the search of the getters stops at the same member
  have hfound : firstNamed (ascii "id") v.allMembers = some value :=
    firstNamed_of_top (show v.ownMembers = [] ++ (key, value) :: post from hown) hraw (by simp)
  have hsearch := jsonFindAfterKey_text hkey w₀ v w
  rw [hfound] at hsearch
  obtain ⟨tail, hsearch, hended⟩ := hsearch
  rw [← htext, ← List.singleton_append, jsonFindAfterKey_append hkey.toPatternKey (by decide),
    jsonFindAfterKey_key hkey.toPatternKey, afterName, jsonSkipWs_cons (by decide), List.head?_cons,
    if_pos rfl, List.tail_cons, jsonSkipWs_cons (by decide)] at hsearch
  have hsearch := Option.some.inj hsearch
  obtain ⟨s, rfl⟩ := (head?_text value tail).1.1 (by rw [← hsearch]; rfl)
  refine ⟨s, tail, rest, legal_of_mem_ownMembers hlegal hmem, Option.some.inj hvalue, hended, ?_⟩
  simpa [Doc.text, StrLit.text] using hsearch.symm

/-- A text that can be copied as it is makes a reply that carries it. -/
theorem carriesId_of_plain {text : Bytes} (h : CopiedPlain text) {data : Doc .value}
    (hdata : data.legal = true) : CarriesId (replyText text 200 data.text) text := by
  let id : StrLit := ⟨text, wellEscaped_of_plain h.plain⟩
  have hbackslash := backslash_notMem_of_plain h.plain
  have hraw : Doc.legalRaw text = true := (legalRaw_iff_plain hbackslash).2 h.plain
  have hname : stringValue (ascii "id") = ascii "id" := by decide
  have hne : data.text ≠ [] := by
    obtain ⟨b, bs, hcons, -⟩ := exists_text_eq_cons data
    rw [hcons]
    exact List.cons_ne_nil b bs
  refine ⟨.none, .object (.moreMembers (.bare ⟨ascii "id", by decide⟩) (.string id) .none
    (.moreMembers (.bare ⟨ascii "code", by decide⟩) (.scalar (decimalScalar 200)) .none
      (.member (.bare ⟨ascii "data", by decide⟩) data .none))), .none, ?_, ?_, ?_, ?_⟩
  · simp only [Doc.legal, hdata, Name.bare, Bool.and_true, Bool.and_eq_true]
    exact ⟨⟨by decide, hraw⟩, ⟨by decide, by decide⟩, by decide⟩
  · simp only [replyText, orElse, if_neg h.ne_nil, if_neg hne, Doc.text, Name.text, Name.bare,
      StrLit.text, Ws.none, List.nil_append, List.append_nil, id, decimalScalar]
    rw [show ascii "\x7b\"id\":\"" = lbrace :: quote :: (ascii "id" ++ [quote, colon, quote]) by
      decide, show ascii "\",\"code\":" = quote :: comma :: quote :: (ascii "code" ++
        [quote, colon]) by decide, show ascii ",\"data\":" = comma :: quote :: (ascii "data" ++
          [quote, colon]) by decide, show ascii "\x7d" = [rbrace] by decide]
    simp only [List.cons_append, List.append_assoc, List.nil_append]
  · exact ⟨_, List.mem_cons_self, hname⟩
  · intro m hm hid
    simp only [Doc.ownMembers, Doc.topMembers, List.mem_cons, List.not_mem_nil, or_false] at hm
    rcases hm with rfl | rfl | rfl
    · exact congrArg some (stringValue_plain hbackslash)
    · exact absurd hid (by decide)
    · exact absurd (show stringValue (ascii "data") = ascii "id" from hid) (by decide)

/-- It carries no other. -/
theorem carriesId_plain_iff {text text' : Bytes} (h : CopiedPlain text) {data : Doc .value}
    (hdata : data.legal = true) : CarriesId (replyText text 200 data.text) text' ↔ text = text' := by
  constructor
  · intro hcarries
    obtain ⟨s, tail, rest, -, hvalue, -, heq⟩ := carriesId_parse hcarries
    rw [orElse, if_neg h.ne_nil] at heq
    rw [← hvalue, (wellEscaped_unique s.escaped (wellEscaped_of_plain h.plain) heq).1,
      stringValue_plain (backslash_notMem_of_plain h.plain)]
  · rintro rfl
    exact carriesId_of_plain h hdata

/-- The literal in a reply is what was read, or a part of it. -/
theorem raw_of_carriesId {requestId data text : Bytes}
    (h : CarriesId (replyText requestId 200 data) text) :
    ∃ raw, Doc.legalRaw raw = true ∧ stringValue raw = text ∧
      (raw = orElse requestId (ascii "0") ∨
        raw.length < (orElse requestId (ascii "0")).length) := by
  obtain ⟨s, tail, rest, hlegal, hvalue, hended, heq⟩ := carriesId_parse h
  refine ⟨s.raw, hlegal, hvalue, ?_⟩
  have hend := jsonFindStringEnd_raw s.escaped tail
  rw [heq] at hend
  rcases jsonFindStringEnd_around (comma :: quote :: 99 :: rest)
    (orElse requestId (ascii "0")) false with hstop | hstop | ⟨inside, hinside, hstop⟩
  · rw [hstop] at hend
    obtain ⟨-, rfl⟩ := List.cons.inj (Option.some.inj hend)
    exact Or.inl (List.append_cancel_right heq)
  · -- the quote is escaped, and the literal ends before `code`, where no member ends
    rw [hstop] at hend
    have htail : 99 :: rest = tail := (List.cons.inj (Option.some.inj hend)).2
    obtain ⟨w, c, u, hsplit, hc⟩ := hended
    rw [← htail] at hsplit
    rw [w.text_eq_nil (by decide) hsplit.symm] at hsplit
    rw [← (List.cons.inj hsplit).1] at hc
    exact absurd hc (by decide)
  · rw [hstop] at hend
    obtain ⟨-, rfl⟩ := List.cons.inj (Option.some.inj hend)
    have hlen := congrArg List.length heq
    simp only [List.length_append, List.length_cons] at hlen
    exact Or.inr (by omega)

theorem copiedPlain_zero : CopiedPlain (ascii "0") := ⟨by decide, by decide, by decide⟩

/-- Where the search finds the request's own id, the reply carries it exactly when its text
can be copied as it is. -/
theorem carriesId_own_iff {request id data : Doc .value} {text : Bytes} (w₀ w : Ws)
    (h : HasId request id text) (hdata : data.legal = true) (hfound : foundId request = some id)
    (hunits : WithoutUnits id) :
    CarriesId (replyText (readRequestId (w₀.text ++ (request.text ++ w.text))) 200 data.text)
      text ↔ CopiedPlain text := by
  have hread := readRequestId_found w₀ w h.legal hfound h.text hunits
  have hzero : ∀ requestId, orElse requestId (ascii "0") = ascii "0" →
      CarriesId (replyText requestId 200 data.text) text → ascii "0" = text := by
    intro requestId hid hcarries
    refine (carriesId_plain_iff copiedPlain_zero hdata).1 ?_
    rw [replyText, hid] at hcarries
    exact hcarries
  constructor
  · intro hcarries
    rcases hread with hread | ⟨hlong, hread⟩
    · rw [hread] at hcarries
      by_cases hnil : text = []
      · have heq := hzero (text.take 63) (by rw [hnil]; rfl) hcarries
        rw [hnil] at heq
        cases heq
      · have htake : text.take 63 ≠ [] := by
          intro hempty
          rcases List.take_eq_nil_iff.1 hempty with h0 | h0
          · cases h0
          · exact hnil h0
        have hle : (text.take 63).length ≤ text.length := List.length_take_le' _ _
        obtain ⟨raw, hlegal, hvalue, hraw⟩ := raw_of_carriesId hcarries
        rw [orElse, if_neg htake] at hraw
        have hshort := congrArg List.length hvalue
        rcases hraw with rfl | hraw
        · -- an escape would make the id shorter than itself
          have hbackslash : backslash ∉ text.take 63 := by
            intro hmem
            have hlt := stringValue_length_lt hmem
            omega
          rw [stringValue_plain hbackslash] at hvalue
          rw [hvalue] at hlegal hbackslash
          have hlen := congrArg List.length hvalue
          rw [List.length_take] at hlen
          exact ⟨hnil, by omega, (legalRaw_iff_plain hbackslash).1 hlegal⟩
        · have hlt := stringValue_length_le raw
          omega
    · rw [hread] at hcarries
      have heq := hzero (ascii "0") rfl hcarries
      rw [← heq] at hlong
      exact absurd hlong (by decide)
  · intro hplain
    rcases hread with hread | ⟨hlong, -⟩
    · rw [hread, List.take_of_length_le (by have := hplain.length_lt; omega)]
      exact carriesId_of_plain hplain hdata
    · have := hplain.length_lt
      omega

/-- A reply carries the id of its request when the search finds a value with the same text,
and that text can be copied as it is; any other text that can be copied is carried in its
place.  Where the search finds the request's own id, written without escapes of code units,
there is no other case. -/
theorem reply_carries_id_iff (replier : Replier) (service : Bytes) (w₀ w : Ws)
    {request id data : Doc .value} {text : Bytes} (h : HasId request id text)
    (hdata : data.legal = true) (hsize : data.text.length < replier.dataSize) :
    let carried := ∀ payload ∈ replier.payloads service
      (w₀.text ++ (request.text ++ w.text)) data.text, CarriesId payload text
    (∀ text', ReadsPlain request text' → (carried ↔ text' = text)) ∧
      (foundId request = some id → WithoutUnits id → (carried ↔ ReadsPlain request text)) := by
  rw [replier.payloads_eq service _ (nul_notMem_text data hdata) hsize]
  simp only [List.mem_singleton, forall_eq]
  constructor
  · rintro text' ⟨found, hfound, htext, hunits, hplain⟩
    have hread : readRequestId (w₀.text ++ (request.text ++ w.text)) = text' := by
      have hlen := hplain.length_lt
      rcases readRequestId_found w₀ w h.legal hfound htext hunits with hread | ⟨hlong, -⟩
      · rw [hread, List.take_of_length_le (by omega)]
      · omega
    rw [hread]
    exact carriesId_plain_iff hplain hdata
  · intro hfound hunits
    rw [carriesId_own_iff w₀ w h hdata hfound hunits]
    constructor
    · exact fun hplain => ⟨id, hfound, h.text, hunits, hplain⟩
    · rintro ⟨found, -, -, -, hplain⟩
      exact hplain

/-- `{"id":…}` -/
def idRequest (id : Doc .value) : Doc .value :=
  .object (.member (keyName "id") id .none)

/-- `{}` -/
def emptyData : Doc .value := .emptyObject .none

def replierNames : DeviceNames := .sample

/-- The runtime of one device. -/
def runtimeReplier : Replier :=
  .runtime ⟨.smooth 0, 0, true, true⟩ ⟨replierNames, true, .created⟩

/-- `42` -/
def numberId : Doc .value := .scalar ⟨ascii "42", by decide, by decide⟩

theorem reply_carries_id_number :
    let payloads := runtimeReplier.payloads (ascii "ideHeartbeat")
      (Ws.none.text ++ ((idRequest numberId).text ++ Ws.none.text)) emptyData.text
    payloads.length = 1 ∧ ∀ payload ∈ payloads, CarriesId payload (ascii "42") := by
  intro payloads
  have h : HasId (idRequest numberId) numberId (ascii "42") :=
    ⟨by decide, ⟨_, List.mem_cons_self, by decide⟩, by decide⟩
  have hunits : WithoutUnits numberId := fun s hs => by cases hs
  have hplain : CopiedPlain (ascii "42") := ⟨by decide, by decide, by decide⟩
  have hreads : ReadsPlain (idRequest numberId) (ascii "42") :=
    ⟨numberId, rfl, by decide, hunits, hplain⟩
  have hempty : emptyData.legal = true := rfl
  have hone : payloads.length = 1 := by decide +kernel
  exact ⟨hone, ((reply_carries_id_iff runtimeReplier (ascii "ideHeartbeat") .none .none h hempty
    (by decide)).1 (ascii "42") hreads).2 rfl⟩

/-- `"a\"b"` -/
def quotedId : Doc .value := .string ⟨ascii "a\\\"b", by decide⟩

/-- The id `a"b` ends its literal in the reply early. -/
theorem quote_in_id_breaks_reply :
    HasId (idRequest quotedId) quotedId (ascii "a\"b") ∧
      runtimeReplier.payloads (ascii "ideHeartbeat") (idRequest quotedId).text emptyData.text =
        [ascii "\x7b\"id\":\"a\"b\",\"code\":200,\"data\":\x7b\x7d\x7d"] ∧
      ¬ CarriesId (ascii "\x7b\"id\":\"a\"b\",\"code\":200,\"data\":\x7b\x7d\x7d")
        (ascii "a\"b") := by
  have h : HasId (idRequest quotedId) quotedId (ascii "a\"b") :=
    ⟨by decide, ⟨_, List.mem_cons_self, by decide⟩, by decide⟩
  have hunits : WithoutUnits quotedId := by
    intro s hs
    cases hs
    decide
  have hempty : emptyData.legal = true := rfl
  have hread : replyText (readRequestId (Ws.none.text ++ ((idRequest quotedId).text ++
      Ws.none.text))) 200 emptyData.text =
        ascii "\x7b\"id\":\"a\"b\",\"code\":200,\"data\":\x7b\x7d\x7d" := by
    decide +kernel
  refine ⟨h, by decide +kernel, fun hcarries => ?_⟩
  rw [← hread] at hcarries
  have hplain := ((carriesId_own_iff .none .none h hempty rfl hunits).1 hcarries).plain
  exact absurd hplain (by decide)

end IotIde
