import IotIde.DeviceConfig
import IotIde.Gateway.Properties

/-!
# What the gateway sends

Client ids, timestamps, topics and payloads of the gateway are formatted into arrays of 64 to
1536 bytes.  None of them is cut, whatever the configuration that was loaded.

* `gatewayManagerStart` — the subscriptions and the first two requests;
* `deviceTopic`, `topoAddText`, `loginText`, … — the texts that the formats stand for;
* `GatewayPublication.Bounded` — what a handler can be given by its own arrays;
* `GatewayPublication.Whole` — a publication with nothing cut off;
* `whole_of_bounded` — every publication of such texts is whole;
* `gateway_texts_whole` — over every run from a loaded configuration.
-/

namespace IotIde

open CText JsonText Runs

/-! ## The start -/

namespace SubDeviceConfig

variable (config : SubDeviceConfig)

/-- `/sys/%s/%s/thing/service/#`, in `char topic[320]`. -/
def serviceSubscription : Bytes :=
  snprintf 320 (ascii "/sys/" ++ (config.productKey ++ (ascii "/" ++ (config.deviceName ++
    ascii "/thing/service/#"))))

/-- `/sys/%s/%s/thing/event/+/post_reply`, in `char topic[320]`. -/
def postReplySubscription : Bytes :=
  snprintf 320 (ascii "/sys/" ++ (config.productKey ++ (ascii "/" ++ (config.deviceName ++
    ascii "/thing/event/+/post_reply"))))

end SubDeviceConfig

namespace GatewayManager

variable (manager : GatewayManager)

/-- The topics that `gateway_manager_start` subscribes to, in its order. -/
def subscriptions : List Bytes :=
  manager.topoTopic (ascii "#") :: manager.listFoundReplyTopic ::
    manager.combineTopic (ascii "#") :: manager.subDevices.flatMap fun subDevice =>
      [subDevice.config.serviceSubscription, subDevice.config.postReplySubscription]

end GatewayManager

/-- `{"productKey":"%s","deviceName":"%s"}` -/
def foundItemText (config : SubDeviceConfig) : Bytes :=
  ascii "\x7b\"productKey\":\"" ++ (config.productKey ++ (ascii "\",\"deviceName\":\"" ++
    (config.deviceName ++ ascii "\"\x7d")))

/-- The loop of `gateway_request_list_found`, from the item at `index` on; its appends take
the allocations from `index` doubled on. -/
def listFoundItems (alloc : ℕ → Bool) :
    ℕ → StringBuilder → List SubDeviceConfig → StringBuilder
  | _, payload, [] => payload
  | index, payload, config :: rest =>
    let payload := if 0 < index then (sbAppend (alloc (2 * index)) payload (ascii ",")).2
      else payload
    listFoundItems alloc (index + 1)
      (sbAppendf (alloc (2 * index + 1)) payload (foundItemText config)).2 rest

/-- `gateway_request_list_found`: its topic and payload, or `none` without a builder.  The
return codes of the appends are ignored. -/
def gatewayRequestListFound (alloc : ℕ → Bool) (nowMs : ℤ) (manager : GatewayManager) :
    Option (Bytes × Bytes) :=
  let built := sbInit (alloc 0) 512
  if built.1 ≠ 0 then none
  else
    let payload := (sbAppendf (alloc 1) built.2 (ascii "\x7b\"id\":\"" ++ (decimal nowMs ++
      ascii "\",\"version\":\"1.0\",\"params\":["))).2
    let payload := listFoundItems (fun i => alloc (i + 2)) 0 payload manager.configs
    let payload := (sbAppend (alloc (2 * manager.configs.length + 2)) payload
      (ascii "],\"method\":\"thing.list.found\"\x7d")).2
    some (manager.listFoundTopic, cstr payload.data)

/-- `gateway_request_topo_get`: its topic and payload. -/
def gatewayRequestTopoGet (nowMs : ℤ) (manager : GatewayManager) : Bytes × Bytes :=
  (manager.topoTopic (ascii "get"),
    snprintf 256 (ascii "\x7b\"id\":\"" ++ (decimal nowMs ++
      ascii "\",\"version\":\"1.0\",\"params\":\x7b\x7d,\"method\":\"thing.topo.get\"\x7d")))

/-- How the calls of a start come out: the subscriptions by their place, the two publishes, the
two readings of the clock, and the allocations of the builder. -/
structure StartOutcomes where
  subscribed : ℕ → Bool
  published : ℕ → Bool
  listFoundMs : ℤ
  topoGetMs : ℤ
  alloc : ℕ → Bool

/-- What a start asks the broker for. -/
structure GatewayStarted where
  rc : ℤ
  subscribed : List Bytes
  published : List (Bytes × Bytes)

/-- Topics are subscribed to until one is refused. -/
def subscribeAll (subscribed : ℕ → Bool) : ℕ → List Bytes → List Bytes × Bool
  | _, [] => ([], true)
  | index, topic :: topics =>
    if subscribed index then
      let rest := subscribeAll subscribed (index + 1) topics
      (topic :: rest.1, rest.2)
    else ([topic], false)

/-- `gateway_manager_start` -/
def gatewayManagerStart (o : StartOutcomes) (manager : GatewayManager) : GatewayStarted :=
  if manager.subDevices = [] then ⟨0, [], []⟩
  else
    let (topics, ok) := subscribeAll o.subscribed 0 manager.subscriptions
    if ok = false then ⟨-1, topics, []⟩
    else
      match gatewayRequestListFound o.alloc o.listFoundMs manager with
      | none => ⟨-1, topics, []⟩
      | some listFound =>
        if o.published 0 = false then ⟨-1, topics, [listFound]⟩
        else ⟨if o.published 1 then 0 else -1, topics,
          [listFound, gatewayRequestTopoGet o.topoGetMs manager]⟩

/-! ## The texts -/

/-- `%s%s/%s%s`: a topic that names a device. -/
def deviceTopic (front productKey deviceName tail : Bytes) : Bytes :=
  front ++ (productKey ++ (ascii "/" ++ (deviceName ++ tail)))

namespace GatewayManager

variable (manager : GatewayManager)

def topoText (suffix : Bytes) : Bytes :=
  deviceTopic (ascii "/sys/") manager.productKey manager.deviceName
    (ascii "/thing/topo/" ++ suffix)

def combineText (suffix : Bytes) : Bytes :=
  deviceTopic (ascii "/ext/session/") manager.productKey manager.deviceName
    (ascii "/combine/" ++ suffix)

def listFoundText : Bytes :=
  deviceTopic (ascii "/sys/") manager.productKey manager.deviceName (ascii "/thing/list/found")

/-- The topics that a start subscribes to, written out. -/
def subscriptionTexts : List Bytes :=
  manager.topoText (ascii "#") :: (manager.listFoundText ++ ascii "_reply") ::
    manager.combineText (ascii "#") :: manager.configs.flatMap fun config =>
      [deviceTopic (ascii "/sys/") config.productKey config.deviceName (ascii "/thing/service/#"),
        deviceTopic (ascii "/sys/") config.productKey config.deviceName
          (ascii "/thing/event/+/post_reply")]

/-- The payload of the list-found request, written out. -/
def listFoundPayload (nowMs : ℤ) : Bytes :=
  ascii "\x7b\"id\":\"" ++ (decimal nowMs ++ (ascii "\",\"version\":\"1.0\",\"params\":[" ++
    ((ascii ",").intercalate (manager.configs.map foundItemText) ++
      ascii "],\"method\":\"thing.list.found\"\x7d")))

end GatewayManager

/-- `{"id":"%lld","version":"1.0","params":{},"method":"thing.topo.get"}` -/
def topoGetText (nowMs : ℤ) : Bytes :=
  ascii "\x7b\"id\":\"" ++ (decimal nowMs ++
    ascii "\",\"version\":\"1.0\",\"params\":\x7b\x7d,\"method\":\"thing.topo.get\"\x7d")

namespace SubDeviceConfig

variable (config : SubDeviceConfig)

def clientIdText : Bytes := config.productKey ++ (ascii "&" ++ config.deviceName)

/-- `clientId%sdeviceName%sproductKey%stimestamp%s` -/
def signedText (timestampMs : ℤ) : Bytes :=
  ascii "clientId" ++ (config.clientIdText ++ (ascii "deviceName" ++ (config.deviceName ++
    (ascii "productKey" ++ (config.productKey ++ (ascii "timestamp" ++ decimal timestampMs))))))

/-- The payload of a topo add. -/
def topoAddText (idMs : ℤ) (timestamp clientId sign : Bytes) : Bytes :=
  ascii "\x7b\"id\":\"" ++ (decimal idMs ++
    (ascii "\",\"version\":\"1.0\",\"params\":[\x7b\"productKey\":\"" ++ (config.productKey ++
      (ascii "\",\"deviceName\":\"" ++ (config.deviceName ++
        (ascii "\",\"sign\":\"" ++ (sign ++
          (ascii "\",\"signmethod\":\"hmacSha256\",\"timestamp\":\"" ++ (timestamp ++
            (ascii "\",\"clientId\":\"" ++ (clientId ++
              ascii "\"\x7d],\"method\":\"thing.topo.add\"\x7d")))))))))))

/-- The payload of a login. -/
def loginText (idMs : ℤ) (timestamp clientId sign : Bytes) : Bytes :=
  ascii "\x7b\"id\":\"" ++ (decimal idMs ++
    (ascii "\",\"params\":\x7b\"productKey\":\"" ++ (config.productKey ++
      (ascii "\",\"deviceName\":\"" ++ (config.deviceName ++
        (ascii "\",\"clientId\":\"" ++ (clientId ++
          (ascii "\",\"timestamp\":\"" ++ (timestamp ++
            (ascii "\",\"signMethod\":\"hmacSha256\",\"sign\":\"" ++ (sign ++
              ascii "\",\"cleanSession\":\"false\"\x7d\x7d")))))))))))

end SubDeviceConfig

/-- What a builder makes of a text: all of it, or nothing for want of memory. -/
def builtText (alloc : ℕ → Bool) (text : Bytes) : Option Bytes :=
  if alloc 0 = false then none
  else if text.length < 256 ∨ alloc 1 = true then some text else some []

namespace GatewayPublication

/-- The topic, written out. -/
def topicText (manager : GatewayManager) : GatewayPublication → Bytes
  | topoAdd _ => manager.topoText (ascii "add")
  | login _ => manager.combineText (ascii "login")
  | replyNotify suffix _ => manager.topoText suffix
  | postSubProperties config _ =>
    deviceTopic (ascii "/sys/") config.productKey config.deviceName
      (ascii "/thing/event/property/post")
  | replySubService config servicePath _ _ =>
    serviceTopic config.productKey config.deviceName (servicePath ++ ascii "_reply")

/-- The payload, written out. -/
def payloadText (o : Outcomes) : GatewayPublication → Option Bytes
  | topoAdd config =>
    (builtText o.alloc (config.signedText o.timestampMs)).map fun plain =>
      config.topoAddText o.idMs (decimal o.timestampMs) config.clientIdText
        (o.sign config.deviceSecret plain)
  | login config =>
    (builtText o.alloc (config.signedText o.timestampMs)).map fun plain =>
      config.loginText o.idMs (decimal o.timestampMs) config.clientIdText
        (o.sign config.deviceSecret plain)
  | replyNotify _ requestId => some (replyText requestId 200 [])
  | postSubProperties _ properties => builtText o.alloc (propertyPostText o.idMs properties)
  | replySubService _ _ requestId data => some (replyText requestId 200 data)

/-- The reply to a service other than the two of the properties. -/
def AnswersOther : GatewayPublication → Prop
  | replySubService _ servicePath _ _ => ∀ isSet, servicePath ≠ propertyPath isSet
  | _ => False

/-- A publication with nothing cut off. -/
structure Whole (manager : GatewayManager) (o : Outcomes) (publication : GatewayPublication) :
    Prop where
  topic : ¬ publication.AnswersOther → publication.topic manager = publication.topicText manager
  payload : publication.payload o = publication.payloadText o

/-- Signatures of 64 digits, and a clock of 64 bits. -/
structure Outcomes.Sized (o : Outcomes) : Prop where
  sign_length : ∀ secret text, (o.sign secret text).length = 64
  timestampMs : -2 ^ 63 ≤ o.timestampMs ∧ o.timestampMs < 2 ^ 63
  idMs : -2 ^ 63 ≤ o.idMs ∧ o.idMs < 2 ^ 63

end GatewayPublication

/-! ## What the handlers have room for -/

/-- The texts of a publication are as long as the arrays of the handlers allow. -/
def GatewayPublication.Bounded : GatewayPublication → Prop
  | topoAdd config => config.Bounded
  | login config => config.Bounded
  | replyNotify suffix requestId =>
    (suffix = ascii "add/notify_reply" ∨ suffix = ascii "change_reply") ∧ IsTextOf 64 requestId
  | postSubProperties config properties => config.Bounded ∧ IsTextOf 1024 properties
  | replySubService config _ requestId data =>
    config.Bounded ∧ IsTextOf 64 requestId ∧ IsTextOf 1024 data

/-- So are those of a manager. -/
structure GatewayManager.Bounded (manager : GatewayManager) : Prop where
  productKey : IsTextOf DEVICE_CONFIG_TEXT_SIZE manager.productKey
  deviceName : IsTextOf DEVICE_CONFIG_TEXT_SIZE manager.deviceName
  config : ∀ subDevice ∈ manager.subDevices, subDevice.config.Bounded
  properties : ∀ subDevice ∈ manager.subDevices, IsTextOf 1024 subDevice.lastPropertyJson

/-! ## Topics -/

section Topics

variable {productKey deviceName : Bytes} (hproduct : IsTextOf DEVICE_CONFIG_TEXT_SIZE productKey)
  (hdevice : IsTextOf DEVICE_CONFIG_TEXT_SIZE deviceName)
include hproduct hdevice

theorem deviceTopic_length_le (front tail : Bytes) :
    (deviceTopic front productKey deviceName tail).length ≤ front.length + tail.length + 255 := by
  have h₁ : productKey.length < 128 := hproduct.2
  have h₂ : deviceName.length < 128 := hdevice.2
  have h₃ : (ascii "/").length = 1 := rfl
  simp only [deviceTopic, List.length_append]
  omega

/-- With 64 bytes beside the two names a topic is whole. -/
theorem snprintf_deviceTopic {front tail : Bytes} (h : front.length + tail.length ≤ 64) :
    snprintf 320 (deviceTopic front productKey deviceName tail) =
      deviceTopic front productKey deviceName tail := by
  have hlen := deviceTopic_length_le hproduct hdevice front tail
  exact snprintf_of_lt (by omega)

end Topics

namespace GatewayManager.Bounded

variable {manager : GatewayManager} (h : manager.Bounded)
include h

theorem topoTopic_eq {suffix : Bytes} (hsuffix : suffix.length ≤ 40) :
    manager.topoTopic suffix = manager.topoText suffix := by
  refine snprintf_deviceTopic h.productKey h.deviceName ?_
  have h₁ : (ascii "/sys/").length = 5 := rfl
  have h₂ : (ascii "/thing/topo/").length = 12 := rfl
  rw [List.length_append]
  omega

theorem combineTopic_eq {suffix : Bytes} (hsuffix : suffix.length ≤ 40) :
    manager.combineTopic suffix = manager.combineText suffix := by
  refine snprintf_deviceTopic h.productKey h.deviceName ?_
  have h₁ : (ascii "/ext/session/").length = 13 := rfl
  have h₂ : (ascii "/combine/").length = 9 := rfl
  rw [List.length_append]
  omega

theorem listFoundTopic_eq : manager.listFoundTopic = manager.listFoundText :=
  snprintf_deviceTopic h.productKey h.deviceName (by decide)

/-- There is room behind the topic for `_reply`. -/
theorem listFoundReplyTopic_eq :
    manager.listFoundReplyTopic = manager.listFoundText ++ ascii "_reply" := by
  have hlen := deviceTopic_length_le h.productKey h.deviceName (ascii "/sys/")
    (ascii "/thing/list/found")
  have h₁ : (ascii "/sys/").length = 5 := rfl
  have h₂ : (ascii "/thing/list/found").length = 17 := rfl
  have h₃ : (ascii "_reply").length = 6 := rfl
  rw [GatewayManager.listFoundReplyTopic, h.listFoundTopic_eq, GatewayManager.listFoundText]
  refine snprintf_of_lt ?_
  rw [List.length_append]
  omega

theorem subscriptions_eq : manager.subscriptions = manager.subscriptionTexts := by
  have hdevices : (manager.subDevices.flatMap fun subDevice =>
      [subDevice.config.serviceSubscription, subDevice.config.postReplySubscription]) =
      manager.subDevices.flatMap fun subDevice =>
        [deviceTopic (ascii "/sys/") subDevice.config.productKey subDevice.config.deviceName
            (ascii "/thing/service/#"),
          deviceTopic (ascii "/sys/") subDevice.config.productKey subDevice.config.deviceName
            (ascii "/thing/event/+/post_reply")] := by
    refine List.flatMap_congr fun subDevice hmem => ?_
    have hconfig := h.config subDevice hmem
    exact congrArg₂ (fun x y => [x, y])
      (snprintf_deviceTopic hconfig.productKey hconfig.deviceName (by decide))
      (snprintf_deviceTopic hconfig.productKey hconfig.deviceName (by decide))
  rw [GatewayManager.subscriptions, hdevices, h.topoTopic_eq (by decide), h.listFoundReplyTopic_eq,
    h.combineTopic_eq (by decide), GatewayManager.subscriptionTexts, GatewayManager.configs,
    List.flatMap_map]

end GatewayManager.Bounded

/-! ## Payloads -/

theorem timestamp_eq {ms : ℤ} (h : -2 ^ 63 ≤ ms ∧ ms < 2 ^ 63) :
    snprintf 64 (decimal ms) = decimal ms :=
  snprintf_of_lt ((decimal_long_length_le h.1 h.2).trans_lt (by norm_num))

namespace SubDeviceConfig

theorem topoAddText_length (config : SubDeviceConfig) (idMs : ℤ) (timestamp clientId sign : Bytes) :
    (config.topoAddText idMs timestamp clientId sign).length =
      (decimal idMs).length + config.productKey.length + config.deviceName.length +
        timestamp.length + clientId.length + sign.length + 161 := by
  have h₁ : (ascii "\x7b\"id\":\"").length = 7 := rfl
  have h₂ : (ascii "\",\"version\":\"1.0\",\"params\":[\x7b\"productKey\":\"").length = 43 := rfl
  have h₃ : (ascii "\",\"deviceName\":\"").length = 16 := rfl
  have h₄ : (ascii "\",\"sign\":\"").length = 10 := rfl
  have h₅ : (ascii "\",\"signmethod\":\"hmacSha256\",\"timestamp\":\"").length = 41 := rfl
  have h₆ : (ascii "\",\"clientId\":\"").length = 14 := rfl
  have h₇ : (ascii "\"\x7d],\"method\":\"thing.topo.add\"\x7d").length = 30 := rfl
  simp only [topoAddText, List.length_append, h₁, h₂, h₃, h₄, h₅, h₆, h₇]
  omega

theorem loginText_length (config : SubDeviceConfig) (idMs : ℤ) (timestamp clientId sign : Bytes) :
    (config.loginText idMs timestamp clientId sign).length =
      (decimal idMs).length + config.productKey.length + config.deviceName.length +
        timestamp.length + clientId.length + sign.length + 140 := by
  have h₁ : (ascii "\x7b\"id\":\"").length = 7 := rfl
  have h₂ : (ascii "\",\"params\":\x7b\"productKey\":\"").length = 26 := rfl
  have h₃ : (ascii "\",\"deviceName\":\"").length = 16 := rfl
  have h₄ : (ascii "\",\"clientId\":\"").length = 14 := rfl
  have h₅ : (ascii "\",\"timestamp\":\"").length = 15 := rfl
  have h₆ : (ascii "\",\"signMethod\":\"hmacSha256\",\"sign\":\"").length = 36 := rfl
  have h₇ : (ascii "\",\"cleanSession\":\"false\"\x7d\x7d").length = 26 := rfl
  simp only [loginText, List.length_append, h₁, h₂, h₃, h₄, h₅, h₆, h₇]
  omega

namespace Bounded

variable {config : SubDeviceConfig} (h : config.Bounded)
include h

theorem clientIdText_length_le : config.clientIdText.length ≤ 255 := by
  have h₁ : config.productKey.length < 128 := h.productKey.2
  have h₂ : config.deviceName.length < 128 := h.deviceName.2
  have h₃ : (ascii "&").length = 1 := rfl
  simp only [clientIdText, List.length_append]
  omega

/-- The client id fills its array at most. -/
theorem clientId_eq : config.clientId = config.clientIdText :=
  snprintf_of_lt (Nat.lt_succ_of_le h.clientIdText_length_le)

theorem nul_notMem_signedText (timestampMs : ℤ) : 0 ∉ config.signedText timestampMs := by
  have hclient : 0 ∉ config.clientIdText := by
    simp only [clientIdText, List.mem_append, not_or]
    exact ⟨h.productKey.1, by decide, h.deviceName.1⟩
  simp only [signedText, List.mem_append, not_or]
  exact ⟨by decide, hclient, by decide, h.deviceName.1, by decide, h.productKey.1, by decide,
    nul_notMem_decimal _⟩

theorem signedText_length_le {timestampMs : ℤ}
    (hms : -2 ^ 63 ≤ timestampMs ∧ timestampMs < 2 ^ 63) :
    (config.signedText timestampMs).length ≤ 600 := by
  have hclient := h.clientIdText_length_le
  have h₁ : config.productKey.length < 128 := h.productKey.2
  have h₂ : config.deviceName.length < 128 := h.deviceName.2
  have h₃ := decimal_long_length_le hms.1 hms.2
  have h₄ : (ascii "clientId").length = 8 := rfl
  have h₅ : (ascii "deviceName").length = 10 := rfl
  have h₆ : (ascii "productKey").length = 10 := rfl
  have h₇ : (ascii "timestamp").length = 9 := rfl
  simp only [signedText, List.length_append]
  omega

end Bounded

end SubDeviceConfig

namespace GatewayPublication

theorem buildSign_eq_map (o : Outcomes) (config : SubDeviceConfig) (timestamp : Bytes) :
    buildSign o config timestamp = (sbFormat o.alloc 128 (config.plainText timestamp)).map
      fun plain => snprintf 65 (o.sign config.deviceSecret plain) := by
  unfold buildSign sbFormat
  dsimp only
  split_ifs <;> rfl

/-- The sign is the one of the whole text, as far as there is memory for it. -/
theorem buildSign_eq {o : Outcomes} (ho : o.Sized) {config : SubDeviceConfig} (h : config.Bounded) :
    buildSign o config (snprintf 64 (decimal o.timestampMs)) =
      (builtText o.alloc (config.signedText o.timestampMs)).map (o.sign config.deviceSecret) := by
  have hplain : config.plainText (snprintf 64 (decimal o.timestampMs)) =
      config.signedText o.timestampMs := by
    rw [SubDeviceConfig.plainText, h.clientId_eq, timestamp_eq ho.timestampMs]
    rfl
  have hlen := h.signedText_length_le ho.timestampMs
  have hmax : (config.signedText o.timestampMs).length ≤ INT_MAX := hlen.trans (by decide)
  rw [buildSign_eq_map, hplain, sbFormat_cases o.alloc (by norm_num)
    (h.nul_notMem_signedText _) hmax, builtText]
  refine congrFun (congrArg Option.map (funext fun plain => ?_)) _
  exact snprintf_of_lt (by rw [ho.sign_length]; norm_num)

/-- A signed request of at most 1023 bytes is whole. -/
theorem signed_request_eq {o : Outcomes} (ho : o.Sized) {config : SubDeviceConfig}
    (h : config.Bounded) {text : Bytes → Bytes → Bytes → Bytes}
    (htext : ∀ {timestamp clientId sign : Bytes}, timestamp.length ≤ 20 → clientId.length ≤ 255 →
      sign.length = 64 → (text timestamp clientId sign).length < 1024) :
    ((buildSign o config (snprintf 64 (decimal o.timestampMs))).map fun sign =>
        snprintf 1024 (text (snprintf 64 (decimal o.timestampMs)) config.clientId sign)) =
      (builtText o.alloc (config.signedText o.timestampMs)).map fun plain =>
        text (decimal o.timestampMs) config.clientIdText (o.sign config.deviceSecret plain) := by
  rw [buildSign_eq ho h, timestamp_eq ho.timestampMs, h.clientId_eq, Option.map_map]
  refine congrFun (congrArg Option.map (funext fun plain => ?_)) _
  exact snprintf_of_lt (htext (decimal_long_length_le ho.timestampMs.1 ho.timestampMs.2)
    h.clientIdText_length_le (ho.sign_length config.deviceSecret plain))

section Whole

variable {o : Outcomes} (ho : o.Sized)
include ho

theorem payload_topoAdd {config : SubDeviceConfig} (h : config.Bounded) :
    (topoAdd config).payload o = (topoAdd config).payloadText o := by
  have hfits : ∀ {timestamp clientId sign : Bytes}, timestamp.length ≤ 20 → clientId.length ≤ 255 →
      sign.length = 64 → (config.topoAddText o.idMs timestamp clientId sign).length < 1024 := by
    intro timestamp clientId sign htimestamp hclientId hsign
    have h₁ : config.productKey.length < 128 := h.productKey.2
    have h₂ : config.deviceName.length < 128 := h.deviceName.2
    have h₃ := decimal_long_length_le ho.idMs.1 ho.idMs.2
    rw [SubDeviceConfig.topoAddText_length]
    omega
  exact signed_request_eq ho h hfits

theorem payload_login {config : SubDeviceConfig} (h : config.Bounded) :
    (login config).payload o = (login config).payloadText o := by
  have hfits : ∀ {timestamp clientId sign : Bytes}, timestamp.length ≤ 20 → clientId.length ≤ 255 →
      sign.length = 64 → (config.loginText o.idMs timestamp clientId sign).length < 1024 := by
    intro timestamp clientId sign htimestamp hclientId hsign
    have h₁ : config.productKey.length < 128 := h.productKey.2
    have h₂ : config.deviceName.length < 128 := h.deviceName.2
    have h₃ := decimal_long_length_le ho.idMs.1 ho.idMs.2
    rw [SubDeviceConfig.loginText_length]
    omega
  exact signed_request_eq ho h hfits

omit ho in
theorem payload_replyNotify (suffix : Bytes) {requestId : Bytes} (h : IsTextOf 64 requestId) :
    (replyNotify suffix requestId).payload o = (replyNotify suffix requestId).payloadText o := by
  have htext : ascii "\x7b\"id\":\"" ++ (orElse requestId (ascii "0") ++
      ascii "\",\"code\":200,\"data\":\x7b\x7d\x7d") = replyText requestId 200 [] := by
    rw [replyText, show ascii "\",\"code\":200,\"data\":\x7b\x7d\x7d" =
      ascii "\",\"code\":" ++ (decimal 200 ++ (ascii ",\"data\":" ++
        (orElse [] (ascii "\x7b\x7d") ++ ascii "\x7d"))) by decide]
  have hlen := replyText_length_le requestId []
  have hid : requestId.length < 64 := h.2
  rw [List.length_nil] at hlen
  exact congrArg some (congrArg (snprintf 256) htext |>.trans (snprintf_of_lt (by omega)))

theorem payload_postSubProperties (config : SubDeviceConfig) {properties : Bytes}
    (h : IsTextOf 1024 properties) : (postSubProperties config properties).payload o =
      (postSubProperties config properties).payloadText o := by
  have hlen : (propertyPostText o.idMs properties).length ≤ INT_MAX := by
    have h₁ : properties.length < 1024 := h.2
    have h₂ := decimal_long_length_le ho.idMs.1 ho.idMs.2
    have h₃ : (ascii "\x7b\"id\":\"").length = 7 := rfl
    have h₄ : (ascii "\",\"version\":\"1.0\",\"params\":").length = 27 := rfl
    have h₅ : (ascii ",\"method\":\"thing.event.property.post\"\x7d").length = 38 := rfl
    simp only [propertyPostText, List.length_append, INT_MAX]
    omega
  have hnul : 0 ∉ propertyPostText o.idMs properties := by
    simp only [propertyPostText, List.mem_append, not_or]
    exact ⟨by decide, nul_notMem_decimal _, by decide, h.1, by decide⟩
  exact sbFormat_cases o.alloc (by norm_num) hnul hlen

/-- **Nothing is cut off** where the texts come from the arrays of the program. -/
theorem whole_of_bounded {manager : GatewayManager} (hmanager : manager.Bounded)
    {publication : GatewayPublication} (h : publication.Bounded) :
    publication.Whole manager o := by
  cases publication with
  | topoAdd config =>
    exact ⟨fun _ => hmanager.topoTopic_eq (by decide), payload_topoAdd ho h⟩
  | login config =>
    exact ⟨fun _ => hmanager.combineTopic_eq (by decide), payload_login ho h⟩
  | replyNotify suffix requestId =>
    have hsuffix : suffix.length ≤ 40 := by
      rcases h.1 with rfl | rfl
      · decide
      · decide
    exact ⟨fun _ => hmanager.topoTopic_eq hsuffix, payload_replyNotify suffix h.2⟩
  | postSubProperties config properties =>
    refine ⟨fun _ => ?_, payload_postSubProperties ho config h.2⟩
    exact snprintf_deviceTopic h.1.productKey h.1.deviceName (by decide)
  | replySubService config path requestId data =>
    refine ⟨fun hpath => ?_, payload_replySubService o config path h.2.1.2 h.2.2.2⟩
    obtain ⟨isSet, rfl⟩ : ∃ isSet, path = propertyPath isSet := by
      by_contra hnone
      exact hpath fun isSet hpath => hnone ⟨isSet, hpath⟩
    -- a reply to one of the two property services
    have htail : (ascii "/sys/").length +
        (ascii "/thing/service/" ++ (propertyPath isSet ++ ascii "_reply")).length ≤ 64 := by
      cases isSet
      · decide
      · decide
    exact snprintf_deviceTopic h.1.productKey h.1.deviceName htail

end Whole

end GatewayPublication

/-! ## The requests of a start -/

theorem intercalate_map_cons {α β : Type*} (separator : List β) (f : α → List β) (x : α)
    (xs : List α) : separator.intercalate ((x :: xs).map f) =
      f x ++ xs.flatMap fun y => separator ++ f y := by
  induction xs generalizing x with
  | nil => rw [List.map_singleton, List.intercalate_singleton, List.flatMap_nil, List.append_nil]
  | cons y ys ih =>
    have hrest := ih y
    rw [List.map_cons] at hrest
    rw [List.map_cons, List.map_cons, List.intercalate_cons_cons, hrest, List.flatMap_cons]
    simp only [List.append_assoc]

theorem foundItemText_bounded {config : SubDeviceConfig} (h : config.Bounded) :
    0 ∉ foundItemText config ∧ (foundItemText config).length ≤ INT_MAX := by
  have h₁ : config.productKey.length < 128 := h.productKey.2
  have h₂ : config.deviceName.length < 128 := h.deviceName.2
  have h₃ : (ascii "\x7b\"productKey\":\"").length = 15 := rfl
  have h₄ : (ascii "\",\"deviceName\":\"").length = 16 := rfl
  have h₅ : (ascii "\"\x7d").length = 2 := rfl
  constructor
  · simp only [foundItemText, List.mem_append, not_or]
    exact ⟨by decide, h.productKey.1, by decide, h.deviceName.1, by decide⟩
  · simp only [foundItemText, List.length_append, INT_MAX]
    omega

/-- Behind the first item each one comes after a comma. -/
theorem listFoundItems_holds {alloc : ℕ → Bool} (halloc : ∀ i, alloc i = true) :
    ∀ (configs : List SubDeviceConfig), (∀ config ∈ configs, config.Bounded) →
      ∀ (index : ℕ) (payload : StringBuilder) (text : Bytes), 0 < index → payload.Holds text →
        (listFoundItems alloc index payload configs).Holds
          (text ++ configs.flatMap fun config => ascii "," ++ foundItemText config) := by
  intro configs
  induction configs with
  | nil =>
    intro _ index payload text _ hholds
    rw [List.flatMap_nil, List.append_nil]
    exact hholds
  | cons config configs ih =>
    intro hbounded index payload text hindex hholds
    have hitem := foundItemText_bounded (hbounded config List.mem_cons_self)
    rw [listFoundItems, if_pos hindex, halloc, halloc, List.flatMap_cons, ← List.append_assoc,
      ← List.append_assoc]
    refine ih (fun c hc => hbounded c (List.mem_cons_of_mem _ hc)) _ _ _ index.succ_pos ?_
    exact (hholds.appendString (by decide)).appendf hitem.2

/-- The whole list, with its commas. -/
theorem listFoundItems_zero_holds {alloc : ℕ → Bool} (halloc : ∀ i, alloc i = true)
    {configs : List SubDeviceConfig} (hbounded : ∀ config ∈ configs, config.Bounded)
    {payload : StringBuilder} {text : Bytes} (hholds : payload.Holds text) :
    (listFoundItems alloc 0 payload configs).Holds
      (text ++ (ascii ",").intercalate (configs.map foundItemText)) := by
  cases configs with
  | nil =>
    rw [List.map_nil, List.intercalate_nil, List.append_nil]
    exact hholds
  | cons config configs =>
    have hitem := foundItemText_bounded (hbounded config List.mem_cons_self)
    have hrest : ∀ c ∈ configs, c.Bounded := fun c hc => hbounded c (List.mem_cons_of_mem _ hc)
    rw [listFoundItems, if_neg (Nat.lt_irrefl 0), halloc, intercalate_map_cons, ← List.append_assoc]
    exact listFoundItems_holds halloc configs hrest _ _ _ Nat.one_pos (hholds.appendf hitem.2)

section Start

variable {manager : GatewayManager} (h : manager.Bounded)
include h

theorem mem_configs_bounded : ∀ config ∈ manager.configs, config.Bounded := by
  intro config hconfig
  obtain ⟨subDevice, hmem, rfl⟩ := List.mem_map.1 hconfig
  exact h.config subDevice hmem

theorem nul_notMem_listFoundPayload (nowMs : ℤ) : 0 ∉ manager.listFoundPayload nowMs := by
  have hitems : 0 ∉ (ascii ",").intercalate (manager.configs.map foundItemText) := by
    cases hconfigs : manager.configs with
    | nil => exact List.not_mem_nil
    | cons config configs =>
      have hbounded := mem_configs_bounded h
      rw [hconfigs] at hbounded
      rw [intercalate_map_cons]
      simp only [List.mem_append, List.mem_flatMap, not_or, not_exists, not_and]
      refine ⟨(foundItemText_bounded (hbounded config List.mem_cons_self)).1, fun c hc =>
        ⟨by decide, (foundItemText_bounded (hbounded c (List.mem_cons_of_mem _ hc))).1⟩⟩
  simp only [GatewayManager.listFoundPayload, List.mem_append, not_or]
  exact ⟨by decide, nul_notMem_decimal _, by decide, hitems, by decide⟩

/-- With memory the list-found request names every sub-device. -/
theorem gatewayRequestListFound_eq {alloc : ℕ → Bool} (halloc : ∀ i, alloc i = true) {nowMs : ℤ}
    (hms : -2 ^ 63 ≤ nowMs ∧ nowMs < 2 ^ 63) : gatewayRequestListFound alloc nowMs manager =
      some (manager.listFoundText, manager.listFoundPayload nowMs) := by
  have hhead : (ascii "\x7b\"id\":\"" ++ (decimal nowMs ++
      ascii "\",\"version\":\"1.0\",\"params\":[")).length ≤ INT_MAX := by
    have h₁ := decimal_long_length_le hms.1 hms.2
    have h₂ : (ascii "\x7b\"id\":\"").length = 7 := rfl
    have h₃ : (ascii "\",\"version\":\"1.0\",\"params\":[").length = 28 := rfl
    simp only [List.length_append, INT_MAX]
    omega
  obtain ⟨builder, hinit, hempty⟩ := sbInit_holds 512
  have hlater : ∀ i, (fun i => alloc (i + 2)) i = true := fun i => halloc (i + 2)
  have hheld := (listFoundItems_zero_holds hlater (mem_configs_bounded h)
    (hempty.appendf hhead)).appendString
      (show 0 ∉ ascii "],\"method\":\"thing.list.found\"\x7d" by decide)
  have htext : [] ++ (ascii "\x7b\"id\":\"" ++ (decimal nowMs ++
        ascii "\",\"version\":\"1.0\",\"params\":[")) ++
      (ascii ",").intercalate (manager.configs.map foundItemText) ++
        ascii "],\"method\":\"thing.list.found\"\x7d" = manager.listFoundPayload nowMs := by
    simp only [GatewayManager.listFoundPayload, List.nil_append, List.append_assoc]
  rw [htext] at hheld
  have hpayload := hheld.cstr (nul_notMem_listFoundPayload h nowMs)
  obtain rfl : alloc = fun _ => true := funext halloc
  unfold gatewayRequestListFound
  simp only [hinit]
  rw [if_neg (show ¬ (0 : ℤ) ≠ 0 by decide), h.listFoundTopic_eq]
  exact congrArg (fun payload => some (manager.listFoundText, payload)) hpayload

theorem gatewayRequestTopoGet_eq {nowMs : ℤ} (hms : -2 ^ 63 ≤ nowMs ∧ nowMs < 2 ^ 63) :
    gatewayRequestTopoGet nowMs manager = (manager.topoText (ascii "get"), topoGetText nowMs) := by
  have hlen : (topoGetText nowMs).length < 256 := by
    have h₁ := decimal_long_length_le hms.1 hms.2
    have h₂ : (ascii "\x7b\"id\":\"").length = 7 := rfl
    have h₃ : (ascii
        "\",\"version\":\"1.0\",\"params\":\x7b\x7d,\"method\":\"thing.topo.get\"\x7d").length = 56 :=
      rfl
    simp only [topoGetText, List.length_append]
    omega
  exact Prod.ext (h.topoTopic_eq (by decide)) (snprintf_of_lt hlen)

end Start

/-- A start subscribes to the topics in their order, up to the first that is refused. -/
theorem subscribeAll_prefix (subscribed : ℕ → Bool) :
    ∀ (topics : List Bytes) (index : ℕ), (subscribeAll subscribed index topics).1 <+: topics := by
  intro topics
  induction topics with
  | nil => exact fun _ => List.prefix_rfl
  | cons topic topics ih =>
    intro index
    rw [subscribeAll]
    split_ifs
    · exact List.cons_prefix_cons.2 ⟨rfl, ih (index + 1)⟩
    · exact List.cons_prefix_cons.2 ⟨rfl, List.nil_prefix⟩

/-- What a start asks the broker for, with nothing cut off; for want of memory parts of the
list-found request can be missing. -/
structure GatewayStarted.Whole (manager : GatewayManager) (o : StartOutcomes)
    (started : GatewayStarted) : Prop where
  subscribed : started.subscribed <+: manager.subscriptionTexts
  published : ∃ listFound, started.published <+: [(manager.listFoundText, listFound),
      (manager.topoText (ascii "get"), topoGetText o.topoGetMs)] ∧
    ((∀ i, o.alloc i = true) → listFound = manager.listFoundPayload o.listFoundMs)

/-- A clock of 64 bits. -/
structure StartOutcomes.Sized (o : StartOutcomes) : Prop where
  listFoundMs : -2 ^ 63 ≤ o.listFoundMs ∧ o.listFoundMs < 2 ^ 63
  topoGetMs : -2 ^ 63 ≤ o.topoGetMs ∧ o.topoGetMs < 2 ^ 63

theorem gatewayManagerStart_whole {manager : GatewayManager} (h : manager.Bounded)
    {o : StartOutcomes} (ho : o.Sized) : (gatewayManagerStart o manager).Whole manager o := by
  have hnothing : ∀ {rc : ℤ} {topics : List Bytes}, topics <+: manager.subscriptionTexts →
      GatewayStarted.Whole manager o ⟨rc, topics, []⟩ := by
    intro rc topics htopics
    exact ⟨htopics, _, List.nil_prefix, fun _ => rfl⟩
  have htopics := subscribeAll_prefix o.subscribed manager.subscriptions 0
  rw [h.subscriptions_eq] at htopics
  unfold gatewayManagerStart
  rw [h.subscriptions_eq]
  by_cases hnone : manager.subDevices = []
  · rw [if_pos hnone]
    exact hnothing List.nil_prefix
  rw [if_neg hnone]
  dsimp only
  by_cases hrefused : (subscribeAll o.subscribed 0 manager.subscriptionTexts).2 = false
  · rw [if_pos hrefused]
    exact hnothing htopics
  rw [if_neg hrefused]
  cases hfound : gatewayRequestListFound o.alloc o.listFoundMs manager with
  | none => exact hnothing htopics
  | some listFound =>
    obtain ⟨topic, payload⟩ := listFound
    obtain rfl : manager.listFoundText = topic := by
      unfold gatewayRequestListFound at hfound
      dsimp only at hfound
      split_ifs at hfound
      cases hfound
      exact h.listFoundTopic_eq.symm
    have hpayload : (∀ i, o.alloc i = true) → payload = manager.listFoundPayload o.listFoundMs := by
      intro halloc
      rw [gatewayRequestListFound_eq h halloc ho.listFoundMs] at hfound
      exact (Prod.mk.inj (Option.some.inj hfound)).2.symm
    rw [gatewayRequestTopoGet_eq h ho.topoGetMs]
    by_cases hpublished : o.published 0 = false
    · simp only [if_pos hpublished]
      exact ⟨htopics, payload, List.prefix_append [_] [_], hpayload⟩
    · simp only [if_neg hpublished]
      exact ⟨htopics, payload, List.prefix_rfl, hpayload⟩

/-! ## The handlers -/

/-- What a handler leaves and what it published stay within the arrays. -/
structure GatewayHandled.Bounded (handled : GatewayHandled) : Prop where
  manager : handled.manager.Bounded
  published : ∀ publication ∈ handled.published, publication.Bounded

theorem bounded_topoAdd {config : SubDeviceConfig} (h : config.Bounded) :
    ∀ publication ∈ gatewayRequestTopoAdd config, publication.Bounded := by
  intro publication hmem
  unfold gatewayRequestTopoAdd at hmem
  split_ifs at hmem
  · rw [List.mem_singleton.1 hmem]
    exact h
  · cases hmem

theorem bounded_login {config : SubDeviceConfig} (h : config.Bounded) :
    ∀ publication ∈ gatewayRequestLogin config, publication.Bounded := by
  intro publication hmem
  unfold gatewayRequestLogin at hmem
  split_ifs at hmem
  · rw [List.mem_singleton.1 hmem]
    exact h
  · cases hmem

section Handlers

variable {manager : GatewayManager} (h : manager.Bounded)

include h in
/-- An update that keeps the configuration and a cached text that fits. -/
theorem GatewayManager.Bounded.modify {f : GatewaySubDeviceState → GatewaySubDeviceState}
    (hconfig : ∀ d, (f d).config = d.config)
    (hproperties : ∀ d, IsTextOf 1024 d.lastPropertyJson → IsTextOf 1024 (f d).lastPropertyJson)
    (index : ℕ) : (manager.modify index f).Bounded := by
  have hmem : ∀ d ∈ (manager.modify index f).subDevices, ∃ old ∈ manager.subDevices,
      d = old ∨ d = f old := by
    intro d hd
    obtain ⟨i, hi⟩ := List.mem_iff_getElem?.1 hd
    simp only [GatewayManager.modify, List.getElem?_modify] at hi
    obtain ⟨old, hold, rfl⟩ := Option.map_eq_some_iff.1 hi
    refine ⟨old, List.mem_of_getElem? hold, ?_⟩
    split_ifs
    · exact Or.inr rfl
    · exact Or.inl rfl
  refine ⟨h.productKey, h.deviceName, fun d hd => ?_, fun d hd => ?_⟩
  · obtain ⟨old, hold, rfl | rfl⟩ := hmem d hd
    · exact h.config d hold
    · rw [hconfig]
      exact h.config old hold
  · obtain ⟨old, hold, rfl | rfl⟩ := hmem d hd
    · exact h.properties d hold
    · exact hproperties old (h.properties old hold)

include h in
theorem bounded_requestFor {request : SubDeviceConfig → List GatewayPublication}
    (hrequest : ∀ {config : SubDeviceConfig}, config.Bounded →
      ∀ publication ∈ request config, publication.Bounded) (index : ℕ) :
    ∀ publication ∈ requestFor request manager index, publication.Bounded := by
  intro publication hmem
  unfold requestFor GatewayManager.config? at hmem
  cases hindex : manager.subDevices[index]? with
  | none =>
    rw [hindex] at hmem
    cases hmem
  | some subDevice =>
    rw [hindex] at hmem
    exact hrequest (h.config subDevice (List.mem_of_getElem? hindex)) publication hmem

/-- A loop over the devices that items name. -/
theorem bounded_visitItems {f : GatewaySubDeviceState → GatewaySubDeviceState}
    {request : SubDeviceConfig → List GatewayPublication} (hconfig : ∀ d, (f d).config = d.config)
    (hproperties : ∀ d, (f d).lastPropertyJson = d.lastPropertyJson)
    (hrequest : ∀ {config : SubDeviceConfig}, config.Bounded →
      ∀ publication ∈ request config, publication.Bounded) (items : List (Bytes × Bytes)) :
    ∀ manager : GatewayManager, manager.Bounded →
      (visitItems (visitWith f request) manager items).Bounded := by
  induction items with
  | nil =>
    intro manager h
    exact ⟨h, fun _ hmem => by cases hmem⟩
  | cons item items ih =>
    intro manager h
    rw [visitItems_cons]
    cases manager.indexOf? item with
    | none => exact ih manager h
    | some index =>
      have hrest := ih _ (h.modify hconfig (fun d hd => (hproperties d).symm ▸ hd) index)
      refine ⟨hrest.manager, fun publication hmem => ?_⟩
      rcases List.mem_append.1 hmem with hmem | hmem
      · exact bounded_requestFor h hrequest index publication hmem
      · exact hrest.published publication hmem

theorem isTextOf_readRequestId (payload : Bytes) : IsTextOf 64 (readRequestId payload) :=
  ⟨nul_notMem_readRequestId payload, readRequestId_length_lt payload⟩

theorem changeDevice_properties (status : ℤ) (d : GatewaySubDeviceState) :
    (changeDevice status d).lastPropertyJson = d.lastPropertyJson := by
  unfold changeDevice
  split_ifs <;> rfl

theorem bounded_changeRequest (status : ℤ) {config : SubDeviceConfig} (h : config.Bounded) :
    ∀ publication ∈ changeRequest status config, publication.Bounded := by
  intro publication hmem
  unfold changeRequest at hmem
  split_ifs at hmem
  · exact bounded_login h publication hmem
  · cases hmem

include h

theorem bounded_unchanged : GatewayHandled.Bounded ⟨manager, []⟩ := ⟨h, fun _ hmem => by cases hmem⟩

theorem bounded_resetSubDevices : (resetSubDevices manager).Bounded := by
  refine ⟨h.productKey, h.deviceName, fun d hd => ?_, fun d hd => ?_⟩
  · obtain ⟨old, hold, rfl⟩ := List.mem_map.1 hd
    exact h.config old hold
  · obtain ⟨old, hold, rfl⟩ := List.mem_map.1 hd
    exact h.properties old hold

theorem bounded_topoGetReply (payload : Bytes) :
    (gatewayHandleTopoGetReply manager payload).Bounded := by
  by_cases hok : replyOk payload = true
  · rw [topoGetReply_eq manager payload hok]
    have hnone : ∀ {config : SubDeviceConfig}, config.Bounded →
        ∀ publication ∈ ([] : List GatewayPublication), publication.Bounded := by
      intro config _ publication hmem
      cases hmem
    have hsynced := (bounded_visitItems (f := GatewaySubDeviceState.setTopo true false false)
      (fun _ => rfl) (fun _ => rfl) hnone (devicesIn payload (ascii "data")) _
      (bounded_resetSubDevices h)).manager
    refine ⟨hsynced, fun publication hmem => ?_⟩
    obtain ⟨subDevice, hdevice, hmem⟩ := List.mem_flatMap.1 hmem
    have hconfig := hsynced.config subDevice hdevice
    unfold requestAfterTopoGet at hmem
    split_ifs at hmem
    · cases hmem
    · exact bounded_login hconfig publication hmem
    · exact bounded_topoAdd hconfig publication hmem
  · rw [gatewayHandleTopoGetReply, if_pos (Bool.eq_false_iff.2 hok)]
    exact bounded_unchanged h

theorem bounded_topoAddReply (payload : Bytes) :
    (gatewayHandleTopoAddReply manager payload).Bounded := by
  by_cases hok : replyOk payload = true
  · rw [topoAddReply_eq manager payload hok]
    exact bounded_visitItems (f := GatewaySubDeviceState.setTopo true false false) (fun _ => rfl)
      (fun _ => rfl) bounded_login _ manager h
  · rw [gatewayHandleTopoAddReply, if_pos (Bool.eq_false_iff.2 hok)]
    exact bounded_unchanged h

theorem bounded_topoAddNotify (payload : Bytes) :
    (gatewayHandleTopoAddNotify manager payload).Bounded := by
  rw [topoAddNotify_eq]
  have hvisited := bounded_visitItems (f := id) (fun _ => rfl) (fun _ => rfl) bounded_topoAdd
    (devicesIn payload (ascii "params")) manager h
  refine ⟨hvisited.manager, fun publication hmem => ?_⟩
  rcases List.mem_cons.1 hmem with rfl | hmem
  · exact ⟨Or.inl rfl, isTextOf_readRequestId payload⟩
  · exact hvisited.published publication hmem

theorem bounded_topoChange (payload : Bytes) :
    (gatewayHandleTopoChange manager payload).Bounded := by
  have hreply : (GatewayPublication.replyNotify (ascii "change_reply")
      (readRequestId payload)).Bounded := ⟨Or.inr rfl, isTextOf_readRequestId payload⟩
  rw [topoChange_eq]
  cases topoChangeIn payload with
  | none =>
    refine ⟨h, fun publication hmem => ?_⟩
    rw [List.mem_singleton.1 hmem]
    exact hreply
  | some change =>
    have hvisited := bounded_visitItems (changeDevice_config change.1)
      (changeDevice_properties change.1) (bounded_changeRequest change.1) change.2 manager h
    refine ⟨hvisited.manager, fun publication hmem => ?_⟩
    rcases List.mem_cons.1 hmem with rfl | hmem
    · exact hreply
    · exact hvisited.published publication hmem

theorem bounded_combineReply (topic payload : Bytes) :
    (gatewayHandleCombineReply manager topic payload).Bounded := by
  unfold gatewayHandleCombineReply
  cases combineDevice manager payload with
  | none => exact bounded_unchanged h
  | some index =>
    exact ⟨h.modify (f := fun d => { d with online := isLogin topic }) (fun _ => rfl)
      (fun _ hd => hd) index, fun _ hmem => by cases hmem⟩

/-- The properties that are stored and answered are those of the arrays, whole. -/
theorem bounded_handleSubService {index : ℕ} {subDevice : GatewaySubDeviceState}
    (hsubDevice : subDevice ∈ manager.subDevices) (servicePath payload : Bytes) :
    (handleSubService manager index subDevice servicePath payload).Bounded := by
  have hconfig := h.config subDevice hsubDevice
  have hreply : ∀ {data : Bytes}, IsTextOf 1024 data →
      (GatewayPublication.replySubService subDevice.config servicePath (readRequestId payload)
        data).Bounded := fun hdata => ⟨hconfig, isTextOf_readRequestId payload, hdata⟩
  have hempty : IsTextOf 1024 (ascii "\x7b\x7d") := ⟨by decide, by decide⟩
  have honly : ∀ {data : Bytes}, IsTextOf 1024 data → GatewayHandled.Bounded ⟨manager,
      [.replySubService subDevice.config servicePath (readRequestId payload) data]⟩ := by
    intro data hdata
    refine ⟨h, fun publication hmem => ?_⟩
    rw [List.mem_singleton.1 hmem]
    exact hreply hdata
  unfold handleSubService
  dsimp only
  split_ifs
  · cases hparams : Extract.value? (jsonGetObject payload (ascii "params")) 1024 with
    | none => exact honly hempty
    | some params =>
      have hbounded : IsTextOf 1024 params := value?_bounded
        (jsonGetObject_terminated _ _ (getLast?_replicate_zero (by norm_num))) hparams
      have hstored : IsTextOf 1024 (snprintf 1024 params) := by
        rw [snprintf_of_lt hbounded.2]
        exact hbounded
      refine ⟨h.modify (f := fun d => { d with lastPropertyJson := snprintf 1024 params })
        (fun _ => rfl) (fun _ _ => hstored) index, fun publication hmem => ?_⟩
      rcases List.mem_cons.1 hmem with rfl | hmem
      · exact ⟨hconfig, hbounded⟩
      · rw [List.mem_singleton.1 hmem]
        exact hreply hempty
  · have hcached := h.properties subDevice hsubDevice
    exact honly ((snprintf_of_lt hcached.2).symm ▸ hcached)
  · exact honly hempty

theorem bounded_subServiceMessage (topic payload : Bytes) :
    ((gatewayHandleSubServiceMessage manager topic payload).getD ⟨manager, []⟩).Bounded := by
  cases hsub : gatewayHandleSubServiceMessage manager topic payload with
  | none => exact bounded_unchanged h
  | some handled =>
    unfold gatewayHandleSubServiceMessage at hsub
    split at hsub
    · cases hsub
    · obtain ⟨subDevice, hdevice, rfl⟩ := Option.map_eq_some_iff.1 hsub
      exact bounded_handleSubService h (List.mem_of_getElem? hdevice) _ _

/-- Whatever the message, state and publications stay within the arrays. -/
theorem bounded_handleMessage (topic payload : Bytes) :
    (gatewayManagerHandleMessage manager topic payload).2.Bounded := by
  rw [handleMessage_eq]
  cases manager.topicKind topic with
  | unhandled => exact bounded_unchanged h
  | topoGetReply => exact bounded_topoGetReply h payload
  | topoAddReply => exact bounded_topoAddReply h payload
  | topoAddNotify => exact bounded_topoAddNotify h payload
  | topoChange => exact bounded_topoChange h payload
  | listFoundReply => exact bounded_unchanged h
  | combineReply => exact bounded_combineReply h topic payload
  | subDevice => exact bounded_subServiceMessage h topic payload

end Handlers

/-- The manager of a loaded configuration. -/
def DeviceConfig.manager (config : DeviceConfig) : GatewayManager :=
  gatewayManagerInit config.productKey config.deviceName config.table

theorem bounded_manager {file : Option Bytes} {config : DeviceConfig}
    (h : deviceConfigLoad file = some config) : config.manager.Bounded := by
  obtain ⟨hproduct, hdevice, htable⟩ := deviceConfigLoad_bounded h
  refine ⟨hproduct, hdevice, fun d hd => ?_, fun d hd => ?_⟩
  · obtain ⟨c, hc, rfl⟩ := List.mem_map.1 hd
    exact htable c hc
  · obtain ⟨c, -, rfl⟩ := List.mem_map.1 hd
    have hempty : IsTextOf 1024 (ascii "\x7b\x7d") := ⟨by decide, by decide⟩
    exact hempty

theorem bounded_run {manager : GatewayManager} (h : manager.Bounded) :
    ∀ (messages : List (Bytes × Bytes)) {manager' : GatewayManager},
      gatewayMachine.run manager messages = some manager' → manager'.Bounded := by
  intro messages
  induction messages generalizing manager with
  | nil =>
    intro manager' hrun
    cases hrun
    exact h
  | cons message messages ih =>
    intro manager' hrun
    exact ih (bounded_handleMessage h message.1 message.2).manager hrun

/-- Nothing that a manager formats is cut off: a start asks for whole topics and whole requests;
what a handler publishes fits the arrays it was read into, and whatever does is whole; and the
cached properties are stored and read back whole. -/
structure GatewayManager.TextsWhole (manager : GatewayManager) : Prop where
  start : ∀ o : StartOutcomes, o.Sized → (gatewayManagerStart o manager).Whole manager o
  published : ∀ topic payload, ∀ publication ∈
    (gatewayManagerHandleMessage manager topic payload).2.published, publication.Bounded
  whole : ∀ publication : GatewayPublication, publication.Bounded →
    ∀ o : GatewayPublication.Outcomes, o.Sized → publication.Whole manager o
  stored : ∀ index properties, IsTextOf 1024 properties → manager.storeProperties index properties =
    manager.modify index fun subDevice => { subDevice with lastPropertyJson := properties }
  cached : ∀ subDevice ∈ manager.subDevices,
    snprintf 1024 subDevice.lastPropertyJson = subDevice.lastPropertyJson

/-- **No text of the gateway is cut**, in any state of a run from a loaded configuration. -/
theorem gateway_texts_whole {file : Option Bytes} {config : DeviceConfig}
    (hload : deviceConfigLoad file = some config) (messages : List (Bytes × Bytes))
    {manager : GatewayManager} (hrun : gatewayMachine.run config.manager messages = some manager) :
    manager.TextsWhole := by
  have hbounded := bounded_run (bounded_manager hload) messages hrun
  refine ⟨fun o ho => gatewayManagerStart_whole hbounded ho,
    fun topic payload => (bounded_handleMessage hbounded topic payload).published,
    fun publication h o ho => GatewayPublication.whole_of_bounded ho hbounded h,
    fun index properties h => ?_,
    fun subDevice hd => snprintf_of_lt (hbounded.properties subDevice hd).2⟩
  rw [GatewayManager.storeProperties, snprintf_of_lt h.2]

/-- A gateway with one sub-device. -/
def sampleConfigFile : Bytes :=
  ascii ("\x7b\"productKey\":\"pk\",\"deviceName\":\"dn\",\"deviceSecret\":\"s\"," ++
    "\"subDevice\":[\x7b\"productKey\":\"sp\",\"deviceName\":\"sd\",\"deviceSecret\":\"k\"\x7d]\x7d")

theorem table_sampleConfigFile : (deviceConfigLoad (some sampleConfigFile)).map DeviceConfig.table =
    some [⟨ascii "sp", ascii "sd", ascii "k", ascii "hmacsha256"⟩] := by
  decide +kernel

/-- The properties of the sub-device are set, and it is disabled. -/
def sampleMessages : List (Bytes × Bytes) :=
  [(ascii "/sys/sp/sd/thing/service/property/set",
      ascii "\x7b\"id\":\"1\",\"params\":\x7b\"t\":21\x7d\x7d"),
    (ascii "/sys/pk/dn/thing/topo/change",
      ascii ("\x7b\"params\":\x7b\"status\":8,\"subList\":[\x7b\"productKey\":\"sp\"," ++
        "\"deviceName\":\"sd\"\x7d]\x7d\x7d"))]

theorem run_sampleMessages : ((deviceConfigLoad (some sampleConfigFile)).bind fun config =>
      gatewayMachine.run config.manager sampleMessages).map GatewayManager.subDevices =
    some [⟨⟨ascii "sp", ascii "sd", ascii "k", ascii "hmacsha256"⟩, true, false, true,
      ascii "\x7b\"t\":21\x7d"⟩] := by
  decide +kernel

theorem gateway_texts_whole_sample : ∃ manager : GatewayManager,
    manager.subDevices = [⟨⟨ascii "sp", ascii "sd", ascii "k", ascii "hmacsha256"⟩, true, false,
      true, ascii "\x7b\"t\":21\x7d"⟩] ∧ manager.TextsWhole := by
  obtain ⟨manager, hmanager, hdevices⟩ := Option.map_eq_some_iff.1 run_sampleMessages
  obtain ⟨config, hload, hrun⟩ := Option.bind_eq_some_iff.1 hmanager
  exact ⟨manager, hdevices, gateway_texts_whole hload sampleMessages hrun⟩

end IotIde
