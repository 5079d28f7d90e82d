import IotIde.GatewayLib.Lifecycle
import IotIde.Host.App
import IotIde.Host.Runtime
import IotIde.Json.Defaults

/-!
# Replies on their way through the runtime

In library mode `app_reply_service` does not publish.  It emits an event, the runtime hands
the event to `iot_ide_gateway_forward_event`, and that takes the event apart and publishes
the reply.

* `AppReply`, `appReply` — `app_reply_service` in its two modes;
* `gatewayReplyService`, `forwardEvent` — the functions of the gateway;
* `PlainReply` — the arguments of a reply, with names that need no escape;
* `PlainReply.find_head`, `PlainReply.find_data` — where the searches stop in an event,
  whatever its data;
* `PlainReply.readData_whole`, `PlainReply.readData_cut` — the data of a whole event, and of
  a cut one;
* `forwarded_iff` — when the reply is the same on both ways.
-/

namespace IotIde

open CText JsonText

/-! ## The two ends -/

/-- `{"service":"%s","id":"%s","code":%d,"data":%s}` -/
def eventText (service requestId : Bytes) (code : ℤ) (data : Bytes) : Bytes :=
  ascii "\x7b\"service\":\"" ++ (service ++ (ascii "\",\"id\":\"" ++ (requestId ++
    (ascii "\",\"code\":" ++ (decimal code ++ (ascii ",\"data\":" ++ (data ++ ascii "\x7d")))))))

/-- What `app_reply_service` does with a reply. -/
inductive AppReply
  | event (name json : Bytes)
  | published (topic payload : Bytes)
  | failed

/-- `app_reply_service`; an event is formatted into `char event_json[4096]`. -/
def appReply (alloc : ℕ → Bool) (names : DeviceNames) (runtimeLibraryMode : Bool)
    (servicePath requestId : Bytes) (code : ℤ) (data : Bytes) : AppReply :=
  if runtimeLibraryMode then
    .event (ascii "service.reply") (snprintf 4096 (eventText servicePath
      (orElse requestId (ascii "0")) code (orElse data (ascii "\x7b\x7d"))))
  else
    match sbFormat alloc 512 (replyText requestId code data) with
    | none => .failed
    | some payload =>
      .published (replyTopic names.productKey names.deviceName servicePath) payload

def IOT_IDE_GATEWAY_ERR_NOT_STARTED : ℤ := -4

/-- What a call of the gateway meets: whether it is connected, the clock, and whether there
is memory for a payload. -/
structure ForwardOutcomes where
  connected : Bool
  nowMs : ℤ
  alloc : Bool

section Gateway

variable (o : ForwardOutcomes) (names : DeviceNames)

/-- `iot_ide_gateway_post_properties` -/
def gatewayPostProperties (params : Bytes) : ℤ × List (Bytes × Bytes) :=
  if !o.connected then (IOT_IDE_GATEWAY_ERR_NOT_STARTED, [])
  else if !o.alloc then (IOT_IDE_GATEWAY_ERR_NO_MEMORY, [])
  else
    (IOT_IDE_GATEWAY_OK, [(propertyPostTopic names.productKey names.deviceName,
      snprintf (params.length + 256) (propertyPostText o.nowMs params))])

/-- `iot_ide_gateway_publish_trace` -/
def gatewayPublishTrace (payload : Bytes) : ℤ × List (Bytes × Bytes) :=
  if !o.connected then (IOT_IDE_GATEWAY_ERR_NOT_STARTED, [])
  else
    (IOT_IDE_GATEWAY_OK, [(snprintf 320 (ascii "/" ++ (names.productKey ++ (ascii "/" ++
      (names.deviceName ++ ascii "/user/trace/data")))), payload)])

/-- `iot_ide_gateway_reply_service` -/
def gatewayReplyService (serviceName requestId : Bytes) (code : ℤ) (data : Bytes) :
    ℤ × List (Bytes × Bytes) :=
  if !o.connected then (IOT_IDE_GATEWAY_ERR_NOT_STARTED, [])
  else if !o.alloc then (IOT_IDE_GATEWAY_ERR_NO_MEMORY, [])
  else
    (IOT_IDE_GATEWAY_OK, [(replyTopic names.productKey names.deviceName serviceName,
      snprintf (data.length + requestId.length + 128) (replyText requestId code data))])

/-- `json_get_raw_value` into `char field[size]` that starts as `initial`, with its return
code ignored. -/
def readRaw (key : Bytes) (size : ℕ) (initial json : Bytes) : Bytes :=
  cstr (jsonGetRawValue json key (initBuffer size initial)).out

/-- `iot_ide_gateway_forward_event`; the JSON of an event is `none` where it is `NULL`. -/
def forwardEvent (eventName : Bytes) (eventJson : Option Bytes) : ℤ × List (Bytes × Bytes) :=
  if eventName = ascii "property.post" then
    gatewayPostProperties o names (eventJson.getD (ascii "\x7b\x7d"))
  else if eventName = ascii "trace.publish" then
    gatewayPublishTrace o names (eventJson.getD (ascii "\x7b\x7d"))
  else if eventName = ascii "service.reply" then
    match eventJson with
    | none => (IOT_IDE_GATEWAY_ERR_INVALID_ARGUMENT, [])
    | some event =>
      let serviceName := readField (ascii "service") 128 [] event
      let requestId := readField (ascii "id") 64 (ascii "0") event
      let codeText := readRaw (ascii "code") 32 (ascii "200") event
      let data := readRaw (ascii "data") 4096 (ascii "\x7b\x7d") event
      if serviceName = [] then (IOT_IDE_GATEWAY_ERR_INVALID_ARGUMENT, [])
      else gatewayReplyService o names serviceName requestId (atoi codeText) data
  else (IOT_IDE_GATEWAY_OK, [])

/-- What reaches the cloud of a reply when the runtime hands events on. -/
def forwarded : AppReply → List (Bytes × Bytes)
  | .event name json => (forwardEvent o names name (some json)).2
  | .published topic payload => [(topic, payload)]
  | .failed => []

end Gateway

/-- The replies of the program itself are those of its services. -/
theorem appReplyService_eq_appReply (o : AppOutcomes) (app : AppContext) (f : ForwardOutcomes)
    (service requestId data : Bytes) : appReplyService o app service requestId data =
      forwarded f app.names (appReply o.replyAlloc app.names false service requestId 200 data) := by
  unfold appReplyService appReply
  cases sbFormat o.replyAlloc 512 (replyText requestId 200 data) <;> rfl

/-- The replies of the gateway are those that the runtime sends with it. -/
theorem iotIdeGatewayReplyService_eq (o : RuntimeOutcomes) (host : RuntimeHost)
    (serviceName requestId data : Bytes) :
    iotIdeGatewayReplyService o host serviceName requestId data =
      (gatewayReplyService ⟨true, o.nowMs, o.replyAlloc⟩ host.names serviceName requestId 200
        data).2 := by
  unfold iotIdeGatewayReplyService gatewayReplyService
  cases o.replyAlloc <;> rfl

/-! ## Events -/

/-- The arguments of a reply: a name and an id that need no escape and fit their arrays, an
`int`, and any JSON value. -/
structure PlainReply where
  service : Bytes
  requestId : Bytes
  code : ℤ
  data : Doc .value
  service_plain : service.all isPlainByte = true
  service_length : service.length ≤ 127
  requestId_plain : requestId.all isPlainByte = true
  requestId_ne_nil : requestId ≠ []
  requestId_length : requestId.length ≤ 63
  le_code : -2 ^ 31 ≤ code
  code_lt : code < 2 ^ 31
  data_legal : data.legal = true

namespace PlainReply

variable (r : PlainReply)

def serviceLit : StrLit := ⟨r.service, wellEscaped_of_plain r.service_plain⟩

def idLit : StrLit := ⟨r.requestId, wellEscaped_of_plain r.requestId_plain⟩

/-- The members in front of the data. -/
def head : Doc .members :=
  .moreMembers (keyName "service") (.string r.serviceLit) .none
    (.moreMembers (keyName "id") (.string r.idLit) .none
      (.member (keyName "code") (.scalar (decimalScalar r.code)) .none))

/-- The text of the event up to its data. -/
def front : Bytes :=
  lbrace :: (r.head.text ++ comma :: quote :: (ascii "data" ++ [quote, colon]))

theorem escape_names : escape (ascii "service") = ascii "service" ∧
    escape (ascii "id") = ascii "id" ∧ escape (ascii "code") = ascii "code" := by
  decide

theorem eventText_eq (data : Bytes) :
    eventText r.service r.requestId r.code data = r.front ++ (data ++ [rbrace]) := by
  have hservice : ascii "\x7b\"service\":\"" =
      lbrace :: quote :: (ascii "service" ++ [quote, colon, quote]) := by decide
  have hid : ascii "\",\"id\":\"" =
      quote :: comma :: quote :: (ascii "id" ++ [quote, colon, quote]) := by decide
  have hcode : ascii "\",\"code\":" =
      quote :: comma :: quote :: (ascii "code" ++ [quote, colon]) := by decide
  have hdata : ascii ",\"data\":" = comma :: quote :: (ascii "data" ++ [quote, colon]) := by decide
  have hbrace : ascii "\x7d" = [rbrace] := by decide
  rw [eventText, hservice, hid, hcode, hdata, hbrace]
  simp [front, head, Doc.text, keyName, escapedLit, escape_names, Name.text, Name.bare,
    StrLit.text, Ws.none, serviceLit, idLit, decimalScalar]

theorem front_length :
    r.front.length = 37 + r.service.length + r.requestId.length + (decimal r.code).length := by
  have hservice : (ascii "service").length = 7 := by decide
  have hid : (ascii "id").length = 2 := by decide
  have hcode : (ascii "code").length = 4 := by decide
  have hdata : (ascii "data").length = 4 := by decide
  simp [front, head, Doc.text, keyName, escapedLit, escape_names, Name.text, Name.bare,
    StrLit.text, Ws.none, serviceLit, idLit, decimalScalar, hservice, hid, hcode, hdata]
  omega

theorem front_length_le : r.front.length ≤ 238 := by
  have hservice := r.service_length
  have hid := r.requestId_length
  have hcode := decimal_int_length_le r.le_code r.code_lt
  rw [front_length]
  omega

/-- The search passes the members in front of the data, or stops at one of them. -/
theorem finds_head {key : Bytes} (hk : SearchKey key) (data : Bytes) :
    Finds key r.head.allMembers (r.front ++ data)
      (comma :: quote :: (ascii "data" ++ quote :: colon :: data)) := by
  have hended : Ended (comma :: quote :: (ascii "data" ++ quote :: colon :: data)) :=
    Ended.cons (by decide) _
  have hpassed := finds_doc hk r.head _ (separated_comma _) hended.head_ne_colon fun _ => hended
  have htext : r.front ++ data =
      [lbrace] ++ (r.head.text ++ comma :: quote :: (ascii "data" ++ quote :: colon :: data)) := by
    simp [front]
  rw [htext]
  exact hpassed.skip hk.toPatternKey (by decide)

theorem find_head {key : Bytes} (hk : SearchKey key) {u : Doc .value}
    (hfirst : firstNamed key r.head.allMembers = some u) (data : Bytes) :
    ∃ tail, jsonFindAfterKey (r.front ++ data) key = some (u.text ++ tail) ∧ Ended tail := by
  have h := r.finds_head hk data
  rwa [Finds, hfirst] at h

/-- Whatever stands there, the search for the data stops at it. -/
theorem find_data (data : Bytes) :
    jsonFindAfterKey (r.front ++ data) (ascii "data") = some (jsonSkipWs data) := by
  have hk : SearchKey (ascii "data") := by decide
  have hnone : firstNamed (ascii "data") r.head.allMembers = none := by
    rfl
  have h := r.finds_head hk data
  rw [Finds, hnone] at h
  have hcolon : jsonSkipWs (colon :: data) = colon :: data := jsonSkipWs_cons (by decide) data
  rw [h, jsonFindAfterKey_cons hk.toPatternKey (by decide), jsonFindAfterKey_key hk.toPatternKey,
    afterName, hcolon, List.head?_cons, if_pos rfl, List.tail_cons]

/-! ## What is read from an event -/

/-- The event, as it is cut to its array. -/
def event : Bytes := snprintf 4096 (eventText r.service r.requestId r.code r.data.text)

/-- Only the data is ever cut. -/
theorem event_eq :
    r.event = r.front ++ (r.data.text ++ [rbrace]).take (4095 - r.front.length) := by
  have hfront := r.front_length_le
  rw [event, eventText_eq, snprintf, List.take_append, List.take_of_length_le (by omega)]

theorem service_nul : 0 ∉ r.service :=
  fun h => absurd (List.all_eq_true.1 r.service_plain 0 h) (by decide)

theorem requestId_nul : 0 ∉ r.requestId :=
  fun h => absurd (List.all_eq_true.1 r.requestId_plain 0 h) (by decide)

theorem readField_service (data : Bytes) :
    readField (ascii "service") 128 [] (r.front ++ data) = r.service := by
  obtain ⟨tail, hfind, -⟩ :=
    r.find_head (show SearchKey (ascii "service") by decide)
      (show firstNamed (ascii "service") r.head.allMembers = some (.string r.serviceLit) from rfl) data
  have hlen := r.service_length
  have hdecode : decode r.serviceLit.raw = r.service :=
    decode_of_notMem (backslash_notMem_of_plain r.service_plain)
  rw [readField, jsonGetString_found hfind (by decide), readString, hdecode,
    cstr_copied r.service_nul (by decide)]
  exact List.take_of_length_le (by omega)

theorem readField_id (data : Bytes) :
    readField (ascii "id") 64 (ascii "0") (r.front ++ data) = r.requestId := by
  obtain ⟨tail, hfind, -⟩ :=
    r.find_head (show SearchKey (ascii "id") by decide)
      (show firstNamed (ascii "id") r.head.allMembers = some (.string r.idLit) from rfl) data
  have hlen := r.requestId_length
  have hdecode : decode r.idLit.raw = r.requestId :=
    decode_of_notMem (backslash_notMem_of_plain r.requestId_plain)
  rw [readField, jsonGetString_found hfind (by decide), readString, hdecode,
    cstr_copied r.requestId_nul (by decide)]
  exact List.take_of_length_le (by omega)

/-- A value found, as it stands in an array that is long enough. -/
theorem cstr_readRawValue {u : Doc .value} (hnul : 0 ∉ u.text) {size : ℕ} {initial : Bytes}
    (hinitial : initial.length < size) (hfits : u.text.length < size) :
    cstr (readRawValue (some u) (initBuffer size initial)).out = rawText u := by
  have hbuffer : (initBuffer size initial).length = size := initBuffer_length hinitial.le
  by_cases hstring : ∃ s, u = .string s
  · obtain ⟨s, rfl⟩ := hstring
    have hraw : 0 ∉ s.raw := fun h => hnul (by simp [Doc.text, StrLit.text, h])
    have hdecoded := decode_length_le s.raw
    have hlen : s.raw.length + 2 = (Doc.string s).text.length := by simp [Doc.text, StrLit.text]
    rw [readRawValue, cstr_copied (nul_notMem_decode hraw) hinitial]
    exact List.take_of_length_le (by omega)
  · have hno : ∀ s, u ≠ .string s := fun s hs => hstring ⟨s, hs⟩
    rw [readRawValue_of_not_string hno, rawText_of_not_string hno, copiedWhole,
      if_pos (by rwa [hbuffer]), cstr_store_zero hnul]

theorem readRaw_code (data : Bytes) :
    readRaw (ascii "code") 32 (ascii "200") (r.front ++ data) = decimal r.code := by
  obtain ⟨tail, hfind, htail⟩ :=
    r.find_head (show SearchKey (ascii "code") by decide)
      (show firstNamed (ascii "code") r.head.allMembers = some (.scalar (decimalScalar r.code))
        from rfl) data
  have hlen := decimal_int_length_le r.le_code r.code_lt
  have htext : (Doc.scalar (decimalScalar r.code)).text = decimal r.code := rfl
  rw [readRaw, jsonGetRawValue_found hfind (by decide) (Or.inr htail),
    cstr_readRawValue (by rw [htext]; exact nul_notMem_decimal _) (by decide)
      (by rw [htext]; omega)]
  rfl

/-- `data_json` after `json_get_raw_value`. -/
def readData : Bytes := readRaw (ascii "data") 4096 (ascii "\x7b\x7d") r.event

/-- Of an event that has room for its data, the data is read as it is found. -/
theorem readData_whole (h : r.front.length + r.data.text.length ≤ 4095) :
    r.readData = rawText r.data := by
  have hnul : 0 ∉ r.data.text := nul_notMem_text r.data r.data_legal
  -- the brace of the event may be missing, and is not looked for
  obtain ⟨tail, htail, hevent⟩ : ∃ tail, (tail = [] ∨ Ended tail) ∧
      r.event = r.front ++ (r.data.text ++ tail) := by
    refine ⟨[rbrace].take (4095 - r.front.length - r.data.text.length), ?_, ?_⟩
    · cases 4095 - r.front.length - r.data.text.length with
      | zero => exact Or.inl rfl
      | succ n => exact Or.inr (by rw [List.take_succ_cons]; exact Ended.cons (by decide) _)
    · rw [event_eq, List.take_append, List.take_of_length_le (l := r.data.text) (by omega)]
  have hfind : jsonFindAfterKey r.event (ascii "data") = some (r.data.text ++ tail) := by
    rw [hevent, find_data, jsonSkipWs_value]
  rw [readData, readRaw, jsonGetRawValue_found hfind (by decide) htail,
    cstr_readRawValue hnul (by decide) (by omega)]

/-- Of an event without that room, less than the data is read. -/
theorem readData_cut (h : 4095 < r.front.length + r.data.text.length) :
    r.readData.length < r.data.text.length := by
  have hfront := r.front_length_le
  have hnul : 0 ∉ r.data.text := nul_notMem_text r.data r.data_legal
  have hcut : (r.data.text ++ [rbrace]).take (4095 - r.front.length) =
      r.data.text.take (4095 - r.front.length) := List.take_append_of_le_length (by omega)
  have hfind := r.find_data (r.data.text.take (4095 - r.front.length))
  rw [← hcut, ← event_eq, hcut] at hfind
  have hsuffix : jsonSkipWs (r.data.text.take (4095 - r.front.length)) <:+
      r.data.text.take (4095 - r.front.length) := List.dropWhile_suffix _
  have hread := jsonGetRawValue_length_le hfind
    (fun h0 => hnul (List.mem_of_mem_take (hsuffix.subset h0)))
    (show (ascii "\x7b\x7d").length < 4096 by decide)
  have hlen := hsuffix.length_le
  have hinitial : (cstr (initBuffer 4096 (ascii "\x7b\x7d"))).length = 2 := by
    rw [cstr_initBuffer (by decide) (by decide)]
    rfl
  rw [List.length_take] at hlen
  rw [hinitial] at hread
  rw [readData, readRaw]
  omega

/-- The data comes through unless it is a string, whose quotes are lost, or is cut. -/
theorem orElse_readData_iff : orElse r.readData (ascii "\x7b\x7d") = r.data.text ↔
    (∀ s, r.data ≠ .string s) ∧ r.front.length + r.data.text.length ≤ 4095 := by
  have hfront := r.front_length_le
  by_cases hroom : r.front.length + r.data.text.length ≤ 4095
  · rw [readData_whole r hroom, and_iff_left hroom]
    constructor
    · rintro h s hs
      rw [hs, orElse] at h
      by_cases hempty : rawText (.string s) = []
      · rw [if_pos hempty] at h
        exact absurd (List.cons.inj h).1 (by decide)
      · rw [if_neg hempty] at h
        have hdecoded := decode_length_le s.raw
        have hlen := congrArg List.length h
        simp only [rawText, Doc.text, StrLit.text, List.length_cons, List.length_append] at hlen
        omega
    · intro hno
      obtain ⟨b, bs, hcons, -⟩ := exists_text_eq_cons r.data
      rw [rawText_of_not_string hno, orElse, if_neg (by rw [hcons]; exact List.cons_ne_nil _ _)]
  · refine iff_of_false ?_ fun h => hroom h.2
    intro h
    have hcut := r.readData_cut (by omega)
    have hlen := congrArg List.length h
    unfold orElse at hlen
    split_ifs at hlen with hempty
    · have htwo : (ascii "\x7b\x7d").length = 2 := by decide
      omega
    · omega

/-! ## The two ways -/

theorem orElse_requestId : orElse r.requestId (ascii "0") = r.requestId :=
  if_neg r.requestId_ne_nil

theorem data_ne_nil : r.data.text ≠ [] := by
  obtain ⟨b, bs, hcons, -⟩ := exists_text_eq_cons r.data
  rw [hcons]
  exact List.cons_ne_nil b bs

/-- Through the runtime: the reply with the data that is read. -/
theorem forwarded_event (names : DeviceNames) (nowMs : ℤ) (alloc : ℕ → Bool) :
    forwarded ⟨true, nowMs, true⟩ names
        (appReply alloc names true r.service r.requestId r.code r.data.text) =
      if r.service = [] then []
      else [(replyTopic names.productKey names.deviceName r.service,
        replyText r.requestId r.code r.readData)] := by
  have hevent : appReply alloc names true r.service r.requestId r.code r.data.text =
      .event (ascii "service.reply") r.event := by
    rw [appReply, if_pos rfl, r.orElse_requestId, orElse, if_neg r.data_ne_nil, event]
  have hservice : readField (ascii "service") 128 [] r.event = r.service := by
    rw [event_eq, readField_service]
  have hid : readField (ascii "id") 64 (ascii "0") r.event = r.requestId := by
    rw [event_eq, readField_id]
  have hcode : atoi (readRaw (ascii "code") 32 (ascii "200") r.event) = r.code := by
    rw [event_eq, readRaw_code, atoi_decimal r.le_code r.code_lt]
  rw [hevent, forwarded, forwardEvent, if_neg (by decide +kernel), if_neg (by decide +kernel),
    if_pos rfl]
  simp only [hservice, hid, hcode]
  rw [← readData]
  by_cases hnone : r.service = []
  · rw [if_pos hnone, if_pos hnone]
  · have hlen := replyText_length_le_decimal r.requestId r.readData r.code
    have hdecimal := decimal_int_length_le r.le_code r.code_lt
    have hroom : (replyText r.requestId r.code r.readData).length <
        r.readData.length + r.requestId.length + 128 := by omega
    rw [if_neg hnone, if_neg hnone, gatewayReplyService, snprintf_of_lt hroom]
    rfl

/-- Without the runtime: the reply with its data, up to the length that can be formatted. -/
theorem forwarded_published (names : DeviceNames) (o : ForwardOutcomes) :
    forwarded o names
        (appReply (fun _ => true) names false r.service r.requestId r.code r.data.text) =
      [(replyTopic names.productKey names.deviceName r.service,
        if (replyText r.requestId r.code r.data.text).length ≤ INT_MAX then
          replyText r.requestId r.code r.data.text
        else [])] := by
  have hnul : 0 ∉ replyText r.requestId r.code r.data.text :=
    nul_notMem_replyText r.requestId_nul (nul_notMem_text r.data r.data_legal)
  rw [appReply, if_neg Bool.false_ne_true]
  by_cases hlen : (replyText r.requestId r.code r.data.text).length ≤ INT_MAX
  · rw [sbFormat_eq 512 hnul hlen, if_pos hlen]
    rfl
  · rw [sbFormat_long 512 (by omega), if_neg hlen]
    rfl

end PlainReply

/-- **Which replies come through the runtime as they are.**  The gateway publishes what the
program would publish itself exactly when the service has a name, the data is no string, and
the event is cut nowhere but behind its data. -/
theorem forwarded_iff (r : PlainReply) (names : DeviceNames) (nowMs : ℤ) :
    forwarded ⟨true, nowMs, true⟩ names
        (appReply (fun _ => true) names true r.service r.requestId r.code r.data.text) =
      forwarded ⟨true, nowMs, true⟩ names
        (appReply (fun _ => true) names false r.service r.requestId r.code r.data.text) ↔
    r.service ≠ [] ∧ (∀ s, r.data ≠ .string s) ∧
      r.service.length + r.requestId.length + (decimal r.code).length + r.data.text.length ≤
        4058 := by
  have hlength := r.front_length
  have hfront := r.front_length_le
  have hroom : r.front.length + r.data.text.length ≤ 4095 ↔
      r.service.length + r.requestId.length + (decimal r.code).length + r.data.text.length ≤
        4058 := by omega
  rw [r.forwarded_event, r.forwarded_published, ← hroom, ← r.orElse_readData_iff]
  by_cases hnone : r.service = []
  · rw [if_pos hnone]
    exact iff_of_false (List.cons_ne_nil _ _).symm fun h => h.1 hnone
  rw [if_neg hnone, List.singleton_inj, Prod.mk.injEq, eq_self_iff_true, true_and, ne_eq,
    and_iff_right hnone]
  have hsame : replyText r.requestId r.code r.readData =
      replyText r.requestId r.code r.data.text ↔
        orElse r.readData (ascii "\x7b\x7d") = r.data.text := by
    simp only [replyText, List.append_cancel_left_eq, List.append_cancel_right_eq]
    rw [show orElse r.data.text (ascii "\x7b\x7d") = r.data.text from if_neg r.data_ne_nil]
  by_cases hlen : (replyText r.requestId r.code r.data.text).length ≤ INT_MAX
  · rw [if_pos hlen, hsame]
  · -- such a reply is not formatted, and its data does not fit the event
    have hlong := replyText_length_le_decimal r.requestId r.data.text r.code
    have hid := r.requestId_length
    have hdecimal := decimal_int_length_le r.le_code r.code_lt
    rw [if_neg hlen]
    refine iff_of_false ?_ ?_
    · rw [replyText]
      exact List.cons_ne_nil _ _
    · rw [r.orElse_readData_iff]
      unfold INT_MAX at hlen
      rintro ⟨-, hfits⟩
      omega

/-- `"ok"`, for the service `s` of the device `pk`/`dn`. -/
def stringReply : PlainReply where
  service := ascii "s"
  requestId := ascii "7"
  code := 200
  data := .string ⟨ascii "ok", by decide⟩
  service_plain := by decide
  service_length := by decide
  requestId_plain := by decide
  requestId_ne_nil := by decide
  requestId_length := by decide
  le_code := by decide
  code_lt := by decide
  data_legal := by decide

/-- A string loses its quotes on the way, and the reply is no JSON any more. -/
theorem string_reply_unquoted :
    let names : DeviceNames := ⟨ascii "pk", ascii "dn", by decide, by decide⟩
    let reply := fun runtimeLibraryMode => forwarded ⟨true, 0, true⟩ names
      (appReply (fun _ => true) names runtimeLibraryMode stringReply.service
        stringReply.requestId stringReply.code stringReply.data.text)
    reply true = [(ascii "/sys/pk/dn/thing/service/s_reply",
      ascii "\x7b\"id\":\"7\",\"code\":200,\"data\":ok\x7d")] ∧
    reply false = [(ascii "/sys/pk/dn/thing/service/s_reply",
      ascii "\x7b\"id\":\"7\",\"code\":200,\"data\":\"ok\"\x7d")] ∧
    reply true ≠ reply false := by
  decide +kernel

end IotIde
