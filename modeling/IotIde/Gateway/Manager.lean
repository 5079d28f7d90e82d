import IotIde.Foundation.Runs
import IotIde.StringBuilder
import IotIde.Topics

/-!
# `gateway_manager.c`

The gateway keeps three flags and the last properties of each configured sub-device, and
changes them as the cloud's messages come in.

* `SubDeviceConfig`, `GatewaySubDeviceState`, `GatewayManager` — the state;
* `GatewayPublication` — what a handler publishes, with `topic` and `payload`;
* `gatewayHandleTopoGetReply`, …, `gatewayHandleSubServiceMessage` — the handlers;
* `gatewayManagerHandleMessage` — the dispatch on the topic;
* `gatewayMachine` — the manager from its initialisation on, message by message.
-/

namespace IotIde

open CText JsonText Runs

/-! ## State -/

/-- `DEVICE_CONFIG_TEXT_SIZE` -/
def DEVICE_CONFIG_TEXT_SIZE : ℕ := 128

/-- `SubDeviceConfig` -/
structure SubDeviceConfig where
  productKey : Bytes
  deviceName : Bytes
  deviceSecret : Bytes
  signMethod : Bytes
  deriving DecidableEq

/-- `GatewaySubDeviceState` -/
structure GatewaySubDeviceState where
  config : SubDeviceConfig
  topoAdded : Bool
  online : Bool
  disabled : Bool
  lastPropertyJson : Bytes
  deriving DecidableEq

/-- `GatewayManager`, with the two texts of the configuration that it builds topics from. -/
structure GatewayManager where
  productKey : Bytes
  deviceName : Bytes
  subDevices : List GatewaySubDeviceState
  deriving DecidableEq

/-- `gateway_manager_init` -/
def gatewayManagerInit (productKey deviceName : Bytes) (subDevices : List SubDeviceConfig) :
    GatewayManager where
  productKey := productKey
  deviceName := deviceName
  subDevices := subDevices.map fun config =>
    ⟨config, false, false, false, ascii "\x7b\x7d"⟩

/-! ## Topics -/

namespace GatewayManager

variable (manager : GatewayManager)

/-- `gateway_build_topo_topic` -/
def topoTopic (suffix : Bytes) : Bytes :=
  snprintf 320 (ascii "/sys/" ++ (manager.productKey ++ (ascii "/" ++ (manager.deviceName ++
    (ascii "/thing/topo/" ++ suffix)))))

/-- `gateway_build_list_found_topic` -/
def listFoundTopic : Bytes :=
  snprintf 320 (ascii "/sys/" ++ (manager.productKey ++ (ascii "/" ++ (manager.deviceName ++
    ascii "/thing/list/found"))))

/-- The same with `_reply` behind it. -/
def listFoundReplyTopic : Bytes := snprintf 320 (manager.listFoundTopic ++ ascii "_reply")

/-- `gateway_build_combine_topic` -/
def combineTopic (suffix : Bytes) : Bytes :=
  snprintf 320 (ascii "/ext/session/" ++ (manager.productKey ++ (ascii "/" ++
    (manager.deviceName ++ (ascii "/combine/" ++ suffix)))))

end GatewayManager

namespace SubDeviceConfig

variable (config : SubDeviceConfig)

/-- `gateway_build_sub_service_prefix` -/
def servicePrefix : Bytes := IotIde.servicePrefix config.productKey config.deviceName

/-- `gateway_build_sub_post_reply_prefix` -/
def postReplyPrefix : Bytes :=
  snprintf 320 (ascii "/sys/" ++ (config.productKey ++ (ascii "/" ++ (config.deviceName ++
    ascii "/thing/event/"))))

/-- `gateway_sub_device_has_secret` -/
def hasSecret : Bool := config.deviceSecret != []

/-- `char client_id[256]` -/
def clientId : Bytes := snprintf 256 (config.productKey ++ (ascii "&" ++ config.deviceName))

/-- The plain text that `gateway_build_sign` signs. -/
def plainText (timestamp : Bytes) : Bytes :=
  ascii "clientId" ++ (config.clientId ++ (ascii "deviceName" ++ (config.deviceName ++
    (ascii "productKey" ++ (config.productKey ++ (ascii "timestamp" ++ timestamp))))))

end SubDeviceConfig

/-! ## Publications -/

/-- What the manager publishes; a sub-device is given by its configuration. -/
inductive GatewayPublication
  | topoAdd (config : SubDeviceConfig)
  | login (config : SubDeviceConfig)
  | replyNotify (suffix requestId : Bytes)
  | postSubProperties (config : SubDeviceConfig) (properties : Bytes)
  | replySubService (config : SubDeviceConfig) (servicePath requestId data : Bytes)
  deriving DecidableEq

namespace GatewayPublication

/-- The topic, `char topic[320]`. -/
def topic (manager : GatewayManager) : GatewayPublication → Bytes
  | topoAdd _ => manager.topoTopic (ascii "add")
  | login _ => manager.combineTopic (ascii "login")
  | replyNotify suffix _ => manager.topoTopic suffix
  | postSubProperties config _ => propertyPostTopic config.productKey config.deviceName
  | replySubService config servicePath _ _ =>
    replyTopic config.productKey config.deviceName servicePath

/-- How the calls outside one publication come out: `sign` stands for `core_hmac_sha256` of
a text under a secret, in hexadecimal; the clock is read for the timestamp and for the
message id; `alloc` gives the allocations of a builder in order. -/
structure Outcomes where
  sign : Bytes → Bytes → Bytes
  timestampMs : ℤ
  idMs : ℤ
  alloc : ℕ → Bool

/-- The sign of a request, or `none` without a builder for its plain text. -/
def buildSign (o : Outcomes) (config : SubDeviceConfig) (timestamp : Bytes) : Option Bytes :=
  let built := sbInit (o.alloc 0) 128
  if built.1 ≠ 0 then none
  else
    let plain := (sbAppendf (o.alloc 1) built.2 (config.plainText timestamp)).2
    some (snprintf 65 (o.sign config.deviceSecret (cstr plain.data)))

/-- The payload, or `none` when the request is given up before it is published. -/
def payload (o : Outcomes) : GatewayPublication → Option Bytes
  | topoAdd config =>
    let timestamp := snprintf 64 (decimal o.timestampMs)
    (buildSign o config timestamp).map fun sign =>
      snprintf 1024 (ascii "\x7b\"id\":\"" ++ (decimal o.idMs ++
        (ascii "\",\"version\":\"1.0\",\"params\":[\x7b\"productKey\":\"" ++ (config.productKey ++
          (ascii "\",\"deviceName\":\"" ++ (config.deviceName ++
            (ascii "\",\"sign\":\"" ++ (sign ++
              (ascii "\",\"signmethod\":\"hmacSha256\",\"timestamp\":\"" ++ (timestamp ++
                (ascii "\",\"clientId\":\"" ++ (config.clientId ++
                  ascii "\"\x7d],\"method\":\"thing.topo.add\"\x7d"))))))))))))
  | login config =>
    let timestamp := snprintf 64 (decimal o.timestampMs)
    (buildSign o config timestamp).map fun sign =>
      snprintf 1024 (ascii "\x7b\"id\":\"" ++ (decimal o.idMs ++
        (ascii "\",\"params\":\x7b\"productKey\":\"" ++ (config.productKey ++
          (ascii "\",\"deviceName\":\"" ++ (config.deviceName ++
            (ascii "\",\"clientId\":\"" ++ (config.clientId ++
              (ascii "\",\"timestamp\":\"" ++ (timestamp ++
                (ascii "\",\"signMethod\":\"hmacSha256\",\"sign\":\"" ++ (sign ++
                  ascii "\",\"cleanSession\":\"false\"\x7d\x7d"))))))))))))
  | replyNotify _ requestId =>
    some (snprintf 256 (ascii "\x7b\"id\":\"" ++ (orElse requestId (ascii "0") ++
      ascii "\",\"code\":200,\"data\":\x7b\x7d\x7d")))
  | postSubProperties _ properties => sbFormat o.alloc 256 (propertyPostText o.idMs properties)
  | replySubService _ _ requestId data =>
    some (snprintf 1536 (ascii "\x7b\"id\":\"" ++ (orElse requestId (ascii "0") ++
      (ascii "\",\"code\":200,\"data\":" ++ (orElse data (ascii "\x7b\x7d") ++ ascii "\x7d")))))

end GatewayPublication

open GatewayPublication

/-- `gateway_request_topo_add`, before its sign is built. -/
def gatewayRequestTopoAdd (config : SubDeviceConfig) : List GatewayPublication :=
  if config.hasSecret then [topoAdd config] else []

/-- `gateway_request_login`, before its sign is built. -/
def gatewayRequestLogin (config : SubDeviceConfig) : List GatewayPublication :=
  if config.hasSecret then [login config] else []

/-! ## The sub-devices -/

namespace GatewayManager

variable (manager : GatewayManager)

/-- `gateway_find_sub_device_index` -/
def findSubDeviceIndex (productKey deviceName : Bytes) : Option ℕ :=
  manager.subDevices.findIdx? fun subDevice =>
    subDevice.config.productKey == productKey && subDevice.config.deviceName == deviceName

/-- An update of one sub-device; outside the table nothing happens. -/
def modify (index : ℕ) (f : GatewaySubDeviceState → GatewaySubDeviceState) : GatewayManager :=
  { manager with subDevices := manager.subDevices.modify index f }

/-- `gateway_update_topo_state` -/
def updateTopoState (index : ℕ) (topoAdded disabled online : Bool) : GatewayManager :=
  manager.modify index fun subDevice =>
    { subDevice with topoAdded := topoAdded, disabled := disabled, online := online }

/-- `gateway_update_online_state` -/
def updateOnlineState (index : ℕ) (online : Bool) : GatewayManager :=
  manager.modify index fun subDevice => { subDevice with online := online }

/-- `gateway_store_properties` -/
def storeProperties (index : ℕ) (properties : Bytes) : GatewayManager :=
  manager.modify index fun subDevice =>
    { subDevice with lastPropertyJson := snprintf 1024 properties }

/-- The configuration of a sub-device, when there is one. -/
def config? (index : ℕ) : Option SubDeviceConfig :=
  (manager.subDevices[index]?).map GatewaySubDeviceState.config

end GatewayManager

/-! ## Reading the messages -/

/-- The test that opens the reply handlers: a `code` that reads as 200. -/
def replyOk (payload : Bytes) : Bool :=
  match Extract.value? (jsonGetRawValue payload (ascii "code")) 64 with
  | none => false
  | some code => atoi code == 200

/-- `product_key` and `device_name` of an object. -/
def readDevice (object : Bytes) : Option (Bytes × Bytes) :=
  match Extract.value? (jsonGetString object (ascii "productKey")) DEVICE_CONFIG_TEXT_SIZE,
    Extract.value? (jsonGetString object (ascii "deviceName")) DEVICE_CONFIG_TEXT_SIZE with
  | some productKey, some deviceName => some (productKey, deviceName)
  | _, _ => none

/-- One round of the loops over an array: the device its item names, if it can be read. -/
def readItem (array : Bytes) (index : ℕ) : Option (Bytes × Bytes) :=
  match Extract.value? (jsonArrayGetItem array index) 512 with
  | none => none
  | some item => readDevice item

/-- The devices named by an array, in the order the loops visit them. -/
def readItems (array : Bytes) : List (Bytes × Bytes) :=
  (List.range (jsonArraySize array).toNat).filterMap (readItem array)

/-- What a handler leaves and what it published. -/
structure GatewayHandled where
  manager : GatewayManager
  published : List GatewayPublication
  deriving DecidableEq

/-- The loops over an array: `visit` is run for each configured sub-device that an item
names, on what the rounds before it left. -/
def visitItems (visit : GatewayManager → ℕ → GatewayHandled) :
    GatewayManager → List (Bytes × Bytes) → GatewayHandled
  | manager, [] => ⟨manager, []⟩
  | manager, (productKey, deviceName) :: items =>
    match manager.findSubDeviceIndex productKey deviceName with
    | none => visitItems visit manager items
    | some index =>
      let visited := visit manager index
      let rest := visitItems visit visited.manager items
      ⟨rest.manager, visited.published ++ rest.published⟩

/-- A request made for a sub-device. -/
def requestFor (request : SubDeviceConfig → List GatewayPublication) (manager : GatewayManager)
    (index : ℕ) : List GatewayPublication :=
  ((manager.config? index).map request).getD []

/-! ## The handlers -/

/-- The first loop of `gateway_handle_topo_get_reply`. -/
def resetSubDevices (manager : GatewayManager) : GatewayManager :=
  { manager with
    subDevices := manager.subDevices.map fun subDevice =>
      { subDevice with topoAdded := false, disabled := false, online := false } }

/-- A round of the last loop of `gateway_handle_topo_get_reply`. -/
def requestAfterTopoGet (snapshot : GatewaySubDeviceState) : List GatewayPublication :=
  if snapshot.disabled then []
  else if snapshot.topoAdded then gatewayRequestLogin snapshot.config
  else gatewayRequestTopoAdd snapshot.config

/-- `gateway_handle_topo_get_reply` -/
def gatewayHandleTopoGetReply (manager : GatewayManager) (payload : Bytes) : GatewayHandled :=
  if replyOk payload = false then ⟨manager, []⟩
  else
    let manager := resetSubDevices manager
    let manager :=
      match Extract.value? (jsonGetArray payload (ascii "data")) 4096 with
      | none => manager
      | some data =>
        (visitItems (fun manager index => ⟨manager.updateTopoState index true false false, []⟩)
          manager (readItems data)).manager
    ⟨manager, manager.subDevices.flatMap requestAfterTopoGet⟩

/-- `gateway_handle_topo_add_reply` -/
def gatewayHandleTopoAddReply (manager : GatewayManager) (payload : Bytes) : GatewayHandled :=
  if replyOk payload = false then ⟨manager, []⟩
  else
    match Extract.value? (jsonGetArray payload (ascii "data")) 4096 with
    | none => ⟨manager, []⟩
    | some data =>
      visitItems
        (fun manager index =>
          ⟨manager.updateTopoState index true false false,
            requestFor gatewayRequestLogin manager index⟩)
        manager (readItems data)

/-- `gateway_handle_topo_add_notify` -/
def gatewayHandleTopoAddNotify (manager : GatewayManager) (payload : Bytes) : GatewayHandled :=
  let reply := replyNotify (ascii "add/notify_reply") (readRequestId payload)
  match Extract.value? (jsonGetArray payload (ascii "params")) 4096 with
  | none => ⟨manager, [reply]⟩
  | some params =>
    let visited := visitItems
      (fun manager index => ⟨manager, requestFor gatewayRequestTopoAdd manager index⟩)
      manager (readItems params)
    ⟨visited.manager, reply :: visited.published⟩

/-- A round of the loop of `gateway_handle_topo_change`. -/
def visitTopoChange (status : ℤ) (manager : GatewayManager) (index : ℕ) : GatewayHandled :=
  if status = 0 ∨ status = 2 then
    ⟨manager.updateTopoState index true false false,
      requestFor gatewayRequestLogin manager index⟩
  else if status = 1 then ⟨manager.updateTopoState index false false false, []⟩
  else if status = 8 then ⟨manager.updateTopoState index true true false, []⟩
  else ⟨manager, []⟩

/-- `status` and `sub_list` of a change. -/
def readTopoChange (payload : Bytes) : Option (ℤ × Bytes) :=
  match Extract.value? (jsonGetObject payload (ascii "params")) 4096 with
  | none => none
  | some params =>
    match Extract.value? (jsonGetRawValue params (ascii "status")) 64,
      Extract.value? (jsonGetArray params (ascii "subList")) 4096 with
    | some status, some subList => some (atoi status, subList)
    | _, _ => none

/-- `gateway_handle_topo_change` -/
def gatewayHandleTopoChange (manager : GatewayManager) (payload : Bytes) : GatewayHandled :=
  let reply := replyNotify (ascii "change_reply") (readRequestId payload)
  match readTopoChange payload with
  | none => ⟨manager, [reply]⟩
  | some (status, subList) =>
    let visited := visitItems (visitTopoChange status) manager (readItems subList)
    ⟨visited.manager, reply :: visited.published⟩

/-- The configured sub-device that a successful combine reply is about. -/
def combineDevice (manager : GatewayManager) (payload : Bytes) : Option ℕ :=
  if replyOk payload = false then none
  else
    match Extract.value? (jsonGetObject payload (ascii "data")) 512 with
    | none => none
    | some data =>
      match readDevice data with
      | none => none
      | some (productKey, deviceName) => manager.findSubDeviceIndex productKey deviceName

/-- `is_login` -/
def isLogin (topic : Bytes) : Bool := (strstr (ascii "/login_reply") topic).isSome

/-- `gateway_handle_combine_reply` -/
def gatewayHandleCombineReply (manager : GatewayManager) (topic payload : Bytes) :
    GatewayHandled :=
  match combineDevice manager payload with
  | none => ⟨manager, []⟩
  | some index => ⟨manager.updateOnlineState index (isLogin topic), []⟩

/-- `gateway_handle_sub_service_message` for the sub-device at `index`, whose service
prefix the topic has. -/
def handleSubService (manager : GatewayManager) (index : ℕ) (subDevice : GatewaySubDeviceState)
    (servicePath payload : Bytes) : GatewayHandled :=
  let reply := replySubService subDevice.config servicePath (readRequestId payload)
  if servicePath = ascii "property/set" then
    match Extract.value? (jsonGetObject payload (ascii "params")) 1024 with
    | some params =>
      ⟨manager.storeProperties index params,
        [postSubProperties subDevice.config params, reply (ascii "\x7b\x7d")]⟩
    | none => ⟨manager, [reply (ascii "\x7b\x7d")]⟩
  else if servicePath = ascii "property/get" then
    ⟨manager, [reply (snprintf 1024 subDevice.lastPropertyJson)]⟩
  else ⟨manager, [reply (ascii "\x7b\x7d")]⟩

/-- `gateway_handle_sub_service_message`: the first sub-device whose prefix the topic has,
or `none` when there is none. -/
def gatewayHandleSubServiceMessage (manager : GatewayManager) (topic payload : Bytes) :
    Option GatewayHandled :=
  match manager.subDevices.findIdx? fun subDevice =>
      subDevice.config.servicePrefix.isPrefixOf topic with
  | none => none
  | some index =>
    (manager.subDevices[index]?).map fun subDevice =>
      handleSubService manager index subDevice
        (topic.drop subDevice.config.servicePrefix.length) payload

/-- `gateway_handle_sub_post_reply`, which only prints. -/
def gatewayHandleSubPostReply (manager : GatewayManager) (topic : Bytes) : Bool :=
  manager.subDevices.any fun subDevice =>
    subDevice.config.postReplyPrefix.isPrefixOf topic &&
      (strstr (ascii "/post_reply") topic).isSome

/-! ## The dispatch -/

/-- `gateway_manager_handle_message`: whether it took the message, and what it did. -/
def gatewayManagerHandleMessage (manager : GatewayManager) (topic payload : Bytes) :
    Bool × GatewayHandled :=
  if manager.subDevices = [] then (false, ⟨manager, []⟩)
  else if topic = manager.topoTopic (ascii "get_reply") then
    (true, gatewayHandleTopoGetReply manager payload)
  else if topic = manager.topoTopic (ascii "add_reply") then
    (true, gatewayHandleTopoAddReply manager payload)
  else if topic = manager.topoTopic (ascii "add/notify") then
    (true, gatewayHandleTopoAddNotify manager payload)
  else if topic = manager.topoTopic (ascii "change") then
    (true, gatewayHandleTopoChange manager payload)
  else if topic = manager.listFoundReplyTopic then (true, ⟨manager, []⟩)
  else if topic = manager.combineTopic (ascii "login_reply") ∨
      topic = manager.combineTopic (ascii "logout_reply") then
    (true, gatewayHandleCombineReply manager topic payload)
  else
    match gatewayHandleSubServiceMessage manager topic payload with
    | some handled => (true, handled)
    | none => (gatewayHandleSubPostReply manager topic, ⟨manager, []⟩)

/-- A manager and the messages that come in, in whatever order. -/
def gatewayMachine : Machine GatewayManager (Bytes × Bytes) where
  init manager := ∃ productKey deviceName subDevices,
    manager = gatewayManagerInit productKey deviceName subDevices
  step manager message := some (gatewayManagerHandleMessage manager message.1 message.2).2.manager

end IotIde
