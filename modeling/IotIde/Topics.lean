import IotIde.Json.Getters

/-!
# Service topics and replies

Three parts of the program answer services, on topics they build in the same way: a prefix
with the device's names, the service, and `_reply` behind it.  All are cut to the arrays
they are formatted into.

* `DeviceNames` — the two names, as their arrays hold them;
* `servicePrefix`, `servicePath?`, `replyTopic`, `propertyPostTopic` — the topics;
* `readRequestId`, `replyText` — the id of a request, and the text of a reply;
* `servicePath?_replyTopic` — a reply topic, however cut, is itself a service topic;
* `replyTopic_replyTopic` — the reply to a cut reply topic goes to the same topic.
-/

namespace IotIde

open CText JsonText

/-- `char product_key[128]` and `char device_name[128]` of a loaded configuration. -/
structure DeviceNames where
  productKey : Bytes
  deviceName : Bytes
  productKey_length_lt : productKey.length < 128
  deviceName_length_lt : deviceName.length < 128

/-- A device to try things on. -/
def DeviceNames.sample : DeviceNames := ⟨ascii "pk", ascii "dn", by decide, by decide⟩

/-- `/sys/%s/%s/thing/service/%s` -/
def serviceTopic (productKey deviceName path : Bytes) : Bytes :=
  ascii "/sys/" ++ (productKey ++ (ascii "/" ++ (deviceName ++
    (ascii "/thing/service/" ++ path))))

/-- `/sys/%s/%s/thing/service/`, in `char prefix[320]`. -/
def servicePrefix (productKey deviceName : Bytes) : Bytes :=
  snprintf 320 (serviceTopic productKey deviceName [])

/-- `/sys/%s/%s/thing/service/%s_reply`, in `char topic[320]`. -/
def replyTopic (productKey deviceName path : Bytes) : Bytes :=
  snprintf 320 (serviceTopic productKey deviceName (path ++ ascii "_reply"))

/-- `/sys/%s/%s/thing/event/property/post`, in `char topic[320]`. -/
def propertyPostTopic (productKey deviceName : Bytes) : Bytes :=
  snprintf 320 (ascii "/sys/" ++ (productKey ++ (ascii "/" ++ (deviceName ++
    ascii "/thing/event/property/post"))))

/-- The service path of a topic, when it has the prefix: `strncmp` over the prefix, and
what follows it. -/
def servicePath? (productKey deviceName topic : Bytes) : Option Bytes :=
  if (servicePrefix productKey deviceName).isPrefixOf topic then
    some (topic.drop (servicePrefix productKey deviceName).length)
  else none

/-- `gateway_is_reply_topic` -/
def isReplyTopic (serviceName : Bytes) : Bool := (ascii "_reply").isSuffixOf serviceName

/-- `(text == NULL || *text == '\0') ? other : text` -/
def orElse (text other : Bytes) : Bytes := if text = [] then other else text

/-- `char request_id[64] = "0"` and what is read into it. -/
def readRequestId (payload : Bytes) : Bytes :=
  cstr (jsonGetRawValue payload (ascii "id") (initBuffer 64 (ascii "0"))).out

/-- `{"id":"%s","code":%d,"data":%s}` -/
def replyText (requestId : Bytes) (code : ℤ) (data : Bytes) : Bytes :=
  ascii "\x7b\"id\":\"" ++ (orElse requestId (ascii "0") ++ (ascii "\",\"code\":" ++
    (decimal code ++ (ascii ",\"data\":" ++ (orElse data (ascii "\x7b\x7d") ++ ascii "\x7d")))))

/-- `{"id":"%lld","version":"1.0","params":%s,"method":"thing.event.property.post"}` -/
def propertyPostText (nowMs : ℤ) (params : Bytes) : Bytes :=
  ascii "\x7b\"id\":\"" ++ (decimal nowMs ++ (ascii "\",\"version\":\"1.0\",\"params\":" ++
    (params ++ ascii ",\"method\":\"thing.event.property.post\"\x7d")))

theorem nul_notMem_readRequestId (payload : Bytes) : 0 ∉ readRequestId payload :=
  nul_notMem_cstr _

/-- Whatever the payload, the id fits its array. -/
theorem readRequestId_length_lt (payload : Bytes) : (readRequestId payload).length < 64 := by
  have hlast : (initBuffer 64 (ascii "0")).getLast? = some 0 := initBuffer_getLast? (by decide)
  have hterm := jsonGetRawValue_terminated payload (ascii "id") hlast
  rw [initBuffer_length (by decide)] at hterm
  exact hterm.cstr_length_lt

/-! ## Reply texts -/

theorem orElse_length_le (text other : Bytes) :
    (orElse text other).length ≤ text.length + other.length := by
  unfold orElse
  split_ifs <;> omega

theorem replyText_length_le_decimal (requestId data : Bytes) (code : ℤ) :
    (replyText requestId code data).length ≤
      requestId.length + data.length + (decimal code).length + 28 := by
  have hid := orElse_length_le requestId (ascii "0")
  have hdata := orElse_length_le data (ascii "\x7b\x7d")
  simp only [replyText, List.length_append]
  have h₁ : (ascii "\x7b\"id\":\"").length = 7 := by decide
  have h₂ : (ascii "\",\"code\":").length = 9 := by decide
  have h₃ : (ascii ",\"data\":").length = 8 := by decide
  have h₄ : (ascii "\x7d").length = 1 := by decide
  have h₅ : (ascii "0").length = 1 := by decide
  have h₆ : (ascii "\x7b\x7d").length = 2 := by decide
  omega

theorem replyText_length_le (requestId data : Bytes) :
    (replyText requestId 200 data).length ≤ requestId.length + data.length + 31 := by
  have h := replyText_length_le_decimal requestId data 200
  have hcode : (decimal 200).length = 3 := by decide
  omega

theorem nul_notMem_replyText {requestId data : Bytes} {code : ℤ} (hid : 0 ∉ requestId)
    (hdata : 0 ∉ data) : 0 ∉ replyText requestId code data := by
  have horElse : ∀ {text other : Bytes}, 0 ∉ text → 0 ∉ other → 0 ∉ orElse text other := by
    intro text other htext hother
    unfold orElse
    split_ifs
    · exact hother
    · exact htext
  simp only [replyText, List.mem_append, not_or]
  exact ⟨by decide, horElse hid (by decide), by decide, nul_notMem_decimal code, by decide,
    horElse hdata (by decide), by decide⟩

/-! ## Reply topics are service topics -/

section Topics

variable (productKey deviceName : Bytes)

theorem serviceTopic_eq (path : Bytes) : serviceTopic productKey deviceName path =
    serviceTopic productKey deviceName [] ++ path := by
  simp only [serviceTopic, List.append_assoc, List.append_nil]

theorem servicePath?_eq_some {topic path : Bytes} :
    servicePath? productKey deviceName topic = some path ↔
      topic = servicePrefix productKey deviceName ++ path := by
  unfold servicePath?
  constructor
  · intro h
    split_ifs at h with hprefix
    cases h
    obtain ⟨rest, rfl⟩ := List.isPrefixOf_iff_prefix.1 hprefix
    rw [List.drop_left]
  · rintro rfl
    rw [if_pos (List.isPrefixOf_iff_prefix.2 (List.prefix_append _ _)), List.drop_left]

theorem servicePath?_eq_none {topic : Bytes} : servicePath? productKey deviceName topic = none ↔
    (servicePrefix productKey deviceName).isPrefixOf topic = false := by
  unfold servicePath?
  split_ifs with h
  · simp [h]
  · simp [h]

theorem servicePrefix_prefix (path : Bytes) :
    servicePrefix productKey deviceName <+: replyTopic productKey deviceName path := by
  unfold servicePrefix replyTopic snprintf
  rw [serviceTopic_eq productKey deviceName (path ++ ascii "_reply")]
  exact (List.prefix_append _ _).take _

/-- A reply topic has the prefix of the services. -/
theorem servicePath?_replyTopic (path : Bytes) :
    ∃ path', servicePath? productKey deviceName (replyTopic productKey deviceName path) =
      some path' := by
  obtain ⟨path', h⟩ := servicePrefix_prefix productKey deviceName path
  exact ⟨path', (servicePath?_eq_some productKey deviceName).2 h.symm⟩

end Topics

namespace DeviceNames

variable (names : DeviceNames)

theorem serviceTopic_length_lt :
    (serviceTopic names.productKey names.deviceName []).length < 276 := by
  have h₁ := names.productKey_length_lt
  have h₂ := names.deviceName_length_lt
  simp only [serviceTopic, List.length_append, List.length_nil]
  have h₃ : (ascii "/sys/").length = 5 := by decide
  have h₄ : (ascii "/").length = 1 := by decide
  have h₅ : (ascii "/thing/service/").length = 15 := by decide
  omega

/-- The prefix of a configured device is not cut. -/
theorem servicePrefix_eq : servicePrefix names.productKey names.deviceName =
    serviceTopic names.productKey names.deviceName [] :=
  snprintf_of_lt (by have := names.serviceTopic_length_lt; omega)

theorem servicePath?_serviceTopic (path : Bytes) :
    servicePath? names.productKey names.deviceName
      (serviceTopic names.productKey names.deviceName path) = some path := by
  rw [servicePath?_eq_some, names.servicePrefix_eq, ← serviceTopic_eq]

/-- So the topic of a request, with `_reply` behind it, is cut to its reply topic. -/
theorem replyTopic_eq {topic path : Bytes}
    (h : servicePath? names.productKey names.deviceName topic = some path) :
    replyTopic names.productKey names.deviceName path =
      snprintf 320 (topic ++ ascii "_reply") := by
  rw [(servicePath?_eq_some _ _).1 h, names.servicePrefix_eq, replyTopic, serviceTopic_eq,
    List.append_assoc]

/-- Only a long service path makes a reply topic that no longer ends in `_reply`. -/
theorem le_length_of_cut {path path' : Bytes}
    (hpath : servicePath? names.productKey names.deviceName
      (replyTopic names.productKey names.deviceName path) = some path')
    (hcut : isReplyTopic path' = false) :
    320 ≤ (serviceTopic names.productKey names.deviceName (path ++ ascii "_reply")).length := by
  by_contra hshort
  rw [replyTopic, snprintf_of_lt (by omega), serviceTopic_eq, ← names.servicePrefix_eq,
    (servicePath?_eq_some _ _)] at hpath
  have hpath' : path ++ ascii "_reply" = path' := List.append_cancel_left hpath
  rw [isReplyTopic, ← hpath', ← Bool.not_eq_true, List.isSuffixOf_iff_suffix] at hcut
  exact hcut (List.suffix_append _ _)

/-- A reply topic that no longer ends in `_reply` is its own reply topic. -/
theorem replyTopic_replyTopic {path path' : Bytes}
    (hpath : servicePath? names.productKey names.deviceName
      (replyTopic names.productKey names.deviceName path) = some path')
    (hcut : isReplyTopic path' = false) :
    replyTopic names.productKey names.deviceName path' =
      replyTopic names.productKey names.deviceName path := by
  have hlong := names.le_length_of_cut hpath hcut
  have hlen : (replyTopic names.productKey names.deviceName path).length = 319 := by
    rw [replyTopic, snprintf, List.length_take]
    omega
  rw [names.replyTopic_eq hpath, snprintf, List.take_append_of_le_length (by omega),
    List.take_of_length_le (by omega)]

/-- Property posts are no services. -/
theorem servicePath?_propertyPostTopic :
    servicePath? names.productKey names.deviceName
      (propertyPostTopic names.productKey names.deviceName) = none := by
  have hshort : (ascii "/sys/" ++ (names.productKey ++ (ascii "/" ++ (names.deviceName ++
      ascii "/thing/event/property/post")))).length < 320 := by
    have h₁ := names.productKey_length_lt
    have h₂ := names.deviceName_length_lt
    simp only [List.length_append]
    have h₃ : (ascii "/sys/").length = 5 := by decide
    have h₄ : (ascii "/").length = 1 := by decide
    have h₅ : (ascii "/thing/event/property/post").length = 26 := by decide
    omega
  unfold servicePath?
  rw [if_neg]
  rw [List.isPrefixOf_iff_prefix, names.servicePrefix_eq, propertyPostTopic,
    snprintf_of_lt hshort, serviceTopic]
  simp only [List.prefix_append_right_inj]
  decide

end DeviceNames

end IotIde
