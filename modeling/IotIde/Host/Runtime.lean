import IotIde.Library
import IotIde.Topics

/-!
# The services of `libiot_ide_gateway.c` and `iec_runtime.c`

The runtime answers the services of its device with two libraries: one receives the
messages and publishes, the other does the work, and the runtime passes between them.

* `RuntimeHost` — the state the services use;
* `iotIdeGatewayReplyService`, `iotIdeGatewayPostProperties` — what they publish;
* `runtimeOnService` — the services;
* `gatewayHandleService` — the filter and the dispatch on the topic.
-/

namespace IotIde

open CText JsonText

/-- The runtime with its two libraries started: the names of the device, whether the
gateway has a service handler, and the object of the other library. -/
structure RuntimeHost where
  names : DeviceNames
  hasHandler : Bool
  ide : LibIotIde

/-- How the calls outside one message come out: those of the library, the clock of a
property post, and the allocations of a post and of the reply. -/
structure RuntimeOutcomes where
  lib : LibOutcomes
  nowMs : ℤ
  postAlloc : Bool
  replyAlloc : Bool

/-- What a service does: the state it leaves, what it publishes, each with its topic, and
what it launches. -/
structure RuntimeHandled where
  host : RuntimeHost
  published : List (Bytes × Bytes)
  launched : List Launch

section Services

variable (o : RuntimeOutcomes) (host : RuntimeHost)

/-- `iot_ide_gateway_reply_service` with code 200 -/
def iotIdeGatewayReplyService (serviceName requestId data : Bytes) : List (Bytes × Bytes) :=
  if o.replyAlloc then
    [(replyTopic host.names.productKey host.names.deviceName serviceName,
      snprintf (data.length + requestId.length + 128) (replyText requestId 200 data))]
  else []

/-- `iot_ide_gateway_post_properties` -/
def iotIdeGatewayPostProperties (params : Bytes) : List (Bytes × Bytes) :=
  if o.postAlloc then
    [(propertyPostTopic host.names.productKey host.names.deviceName,
      snprintf (params.length + 256) (propertyPostText o.nowMs params))]
  else []

/-- `char response[8192]` -/
def runtimeResponse : Bytes :=
  initBuffer 8192 (ascii "\x7b\"success\":0,\"message\":\"not handled\"\x7d")

/-- A service that an entry point of the library handles; `runtime_on_iot_ide_event` passes
its property posts on, and the response is the answer. -/
def runtimeCallLibrary (call : LibCall) (serviceName requestId params : Bytes) :
    Option RuntimeHandled :=
  (call.run o.lib (some host.ide) (some params) (.array runtimeResponse)).map fun result =>
    ⟨{ host with ide := result.ide.getD host.ide },
      result.posted.flatMap (iotIdeGatewayPostProperties o host) ++
        iotIdeGatewayReplyService o host serviceName requestId result.response.text,
      result.launched⟩

/-- `runtime_on_service` -/
def runtimeOnService (serviceName requestId params : Bytes) : Option RuntimeHandled :=
  let answer data := iotIdeGatewayReplyService o host serviceName requestId data
  if serviceName = ascii "requestConnect" then
    runtimeCallLibrary o host .requestConnect serviceName requestId params
  else if serviceName = ascii "requestDisconnect" then
    runtimeCallLibrary o host .requestDisconnect serviceName requestId params
  else if serviceName = ascii "ideHeartbeat" then
    runtimeCallLibrary o host .heartbeat serviceName requestId params
  else if serviceName = ascii "deployProject" then
    runtimeCallLibrary o host .deployProject serviceName requestId params
  else if serviceName = ascii "startProject" then
    runtimeCallLibrary o host .startProject serviceName requestId params
  else if serviceName = ascii "property/get" then
    let snapshot := (libiotIdeGetConnectionSnapshot (some host.ide) (.array runtimeResponse)).2
    some ⟨host, answer snapshot.text, []⟩
  else if serviceName = ascii "property/set" then
    some ⟨host, iotIdeGatewayPostProperties o host params ++
      answer (ascii "\x7b\"success\":1,\"message\":\"property set accepted\"\x7d"), []⟩
  else
    some ⟨host, answer (ascii "\x7b\"success\":0,\"message\":\"unknown service\"\x7d"), []⟩

/-- `gateway_handle_service`; `none` stands for undefined behaviour in a manager. -/
def gatewayHandleService (topic payload : Bytes) : Option RuntimeHandled :=
  match servicePath? host.names.productKey host.names.deviceName topic with
  | none => some ⟨host, [], []⟩
  | some serviceName =>
    if isReplyTopic serviceName then some ⟨host, [], []⟩
    else
      let requestId := readRequestId payload
      let params := (Extract.value? (jsonGetObject payload (ascii "params")) 8192).getD
        (ascii "\x7b\x7d")
      if host.hasHandler then runtimeOnService o host serviceName requestId params
      else
        some ⟨host, iotIdeGatewayReplyService o host serviceName requestId
          (ascii "\x7b\"success\":0,\"message\":\"no service handler\"\x7d"), []⟩

end Services

end IotIde
