import IotIde.Library
import IotIde.Shadow.Manager

/-!
# The services of `iot_ide_app.c`

The standalone program answers the services of its own device.  Every service has an
answer, and a service it does not know has one too.

* `AppContext` — the state the services use;
* `appReplyService`, `appPostProperties` — what they publish;
* `appHandlePropertySet`, …, `appHandleStartService` — the services;
* `appDispatchService` — the dispatch on the topic;
* `appDispatchService_answers` — with no failure outside the program, every message under
  the prefix is answered on its reply topic.
-/

namespace IotIde

open CText JsonText

/-- `AppContext`: the names of the device, the switch, the managers, and the version of
the shadow. -/
structure AppContext where
  names : DeviceNames
  adasSwitch : Bool
  managers : LibIotIde
  shadowVersion : ℤ

/-- How the calls outside one message come out: those of the managers, the clock of a
property post, and the allocations of a post, of a shadow update and of the reply. -/
structure AppOutcomes where
  managers : LibOutcomes
  nowMs : ℤ
  postAlloc : ℕ → Bool
  shadowAlloc : ℕ → Bool
  replyAlloc : ℕ → Bool

/-- What a service does: the state it leaves, what it publishes, each with its topic, and
what it launches. -/
structure AppHandled where
  app : AppContext
  published : List (Bytes × Bytes)
  launched : List Launch

section Services

variable (o : AppOutcomes) (app : AppContext)

/-- `app_reply_service` with code 200 -/
def appReplyService (servicePath requestId data : Bytes) : List (Bytes × Bytes) :=
  ((sbFormat o.replyAlloc 512 (replyText requestId 200 data)).map fun payload =>
    (replyTopic app.names.productKey app.names.deviceName servicePath, payload)).toList

/-- `app_post_properties` -/
def appPostProperties (params : Bytes) : List (Bytes × Bytes) :=
  ((sbFormat o.postAlloc 512 (propertyPostText o.nowMs params)).map fun payload =>
    (propertyPostTopic app.names.productKey app.names.deviceName, payload)).toList

/-- A service that leaves the state as it is. -/
def appAnswer (service requestId data : Bytes) : AppHandled :=
  ⟨app, appReplyService o app service requestId data, []⟩

/-- `app_handle_property_set` -/
def appHandlePropertySet (requestId payload : Bytes) : AppHandled :=
  let params := (Extract.value? (jsonGetObject payload (ascii "params")) 2048).getD
    (ascii "\x7b\x7d")
  let adasSwitch :=
    match Extract.value? (jsonGetRawValue params (ascii "ADASSwitch")) 64 with
    | none => app.adasSwitch
    | some value => atoi value != 0
  ⟨{ app with adasSwitch := adasSwitch },
    appPostProperties o app params ++
      (shadowUpdateReported o.shadowAlloc app.names.productKey app.names.deviceName
        app.shadowVersion params ++
        appReplyService o app (ascii "property/set") requestId (ascii "\x7b\x7d")), []⟩

/-- The answer of `app_handle_property_get`. -/
def propertyGetText (escapedClientId : Bytes) : Bytes :=
  ascii "\x7b\"ADASSwitch\":" ++ ((if app.adasSwitch then ascii "1" else ascii "0") ++
    (ascii ",\"hasIDEConnected\":" ++
      ((if app.managers.ideManager.connected then ascii "1" else ascii "0") ++
        (ascii ",\"IDEInfo\":\"" ++ (escapedClientId ++ (ascii "\",\"IDEHeartbeat\":\"" ++
          (decimal app.managers.ideManager.lastHeartbeatMs ++ ascii "\"\x7d")))))))

/-- `app_handle_property_get` -/
def appHandlePropertyGet (requestId : Bytes) : AppHandled :=
  let escaped := jsonEscapeString app.managers.ideManager.currentClientId (initBuffer 256 [])
  appAnswer o app (ascii "property/get") requestId
    (snprintf 1024 (propertyGetText app (cstr escaped.out)))

/-- A service that a manager handles, in arrays of the given sizes; its answer starts as
`initial`. -/
def appHandleManaged (service : Bytes) (paramsSize responseSize : ℕ) (initial : Bytes)
    (manager : ManagerHandler) (requestId payload : Bytes) : Option AppHandled :=
  match Extract.value? (jsonGetObject payload (ascii "params")) paramsSize with
  | none => some (appAnswer o app service requestId initial)
  | some params =>
    (manager o.managers app.managers params (.array (initBuffer responseSize initial))).map
      fun handled =>
        ⟨{ app with managers := handled.effects.ide },
          handled.effects.posted.flatMap (appPostProperties o app) ++
            appReplyService o app service requestId handled.response.text,
          handled.effects.launched⟩

/-- `app_build_simple_result_json` with `success` 0: its code and the buffer. -/
def appBuildSimpleResultJson (message : Bytes) (buffer : Bytes) : ℤ × Bytes :=
  if buffer.length = 0 then (-1, buffer)
  else
    let escaped := jsonEscapeString message (List.replicate 512 0)
    if escaped.rc ≠ 0 then (-1, buffer)
    else (0, (formatResponse (resultText false (cstr escaped.out)) buffer).2)

/-- A service that a manager handles for the connected client only. -/
def appHandleGuarded (service : Bytes) (paramsSize responseSize : ℕ) (initial rejected : Bytes)
    (manager : ManagerHandler) (requestId payload : Bytes) : Option AppHandled :=
  match Extract.value? (jsonGetObject payload (ascii "params")) paramsSize with
  | none => some (appAnswer o app service requestId initial)
  | some params =>
    if checkActiveClient app.managers.ideManager params then
      appHandleManaged o app service paramsSize responseSize initial manager requestId payload
    else
      some (appAnswer o app service requestId
        (cstr (appBuildSimpleResultJson rejected (initBuffer responseSize initial)).2))

def appHandleConnectService (requestId payload : Bytes) : Option AppHandled :=
  appHandleManaged o app (ascii "requestConnect") 2048 512
    (ascii "\x7b\"success\":0,\"message\":\"requestConnect failed\"\x7d") connectManager
    requestId payload

def appHandleDisconnectService (requestId payload : Bytes) : Option AppHandled :=
  appHandleManaged o app (ascii "requestDisconnect") 1024 512
    (ascii "\x7b\"success\":0,\"message\":\"requestDisconnect failed\"\x7d") disconnectManager
    requestId payload

def appHandleHeartbeatService (requestId payload : Bytes) : Option AppHandled :=
  appHandleManaged o app (ascii "ideHeartbeat") 1024 512
    (ascii "\x7b\"success\":0,\"message\":\"ideHeartbeat failed\"\x7d") heartbeatManager
    requestId payload

def appHandleDeployService (requestId payload : Bytes) : Option AppHandled :=
  appHandleGuarded o app (ascii "deployProject") 4096 1024
    (ascii "\x7b\"success\":0,\"message\":\"deployProject failed\",\"deployLog\":\"\"\x7d")
    (ascii "deploy rejected, clientId is not the active IDE connection") deployManager
    requestId payload

def appHandleStartService (requestId payload : Bytes) : Option AppHandled :=
  appHandleGuarded o app (ascii "startProject") 2048 1024
    (ascii "\x7b\"success\":0,\"message\":\"startProject failed\"\x7d")
    (ascii "start rejected, clientId is not the active IDE connection") startManager
    requestId payload

/-- `app_dispatch_service`, past its prefix. -/
def appHandleService (servicePath payload : Bytes) : Option AppHandled :=
  let requestId := readRequestId payload
  if servicePath = ascii "property/set" then some (appHandlePropertySet o app requestId payload)
  else if servicePath = ascii "property/get" then some (appHandlePropertyGet o app requestId)
  else if servicePath = ascii "requestConnect" then
    appHandleConnectService o app requestId payload
  else if servicePath = ascii "requestDisconnect" then
    appHandleDisconnectService o app requestId payload
  else if servicePath = ascii "ideHeartbeat" then
    appHandleHeartbeatService o app requestId payload
  else if servicePath = ascii "deployProject" then
    appHandleDeployService o app requestId payload
  else if servicePath = ascii "startProject" then
    appHandleStartService o app requestId payload
  else
    some (appAnswer o app servicePath requestId
      (ascii "\x7b\"success\":0,\"message\":\"unknown service\"\x7d"))

/-- `app_dispatch_service`; `none` stands for undefined behaviour in a manager. -/
def appDispatchService (topic payload : Bytes) : Option AppHandled :=
  match servicePath? app.names.productKey app.names.deviceName topic with
  | none => some ⟨app, [], []⟩
  | some servicePath => appHandleService o app servicePath payload

end Services

/-! ## Every message is answered -/

/-- With memory, the standalone program replies with the whole text. -/
theorem appReplyService_eq (o : AppOutcomes) (app : AppContext)
    (halloc : o.replyAlloc = fun _ => true) (service : Bytes) {requestId data : Bytes}
    (hid : 0 ∉ requestId) (hidlen : requestId.length < 64) (hdata : 0 ∉ data)
    (hdatalen : data.length ≤ 1024) :
    appReplyService o app service requestId data =
      [(replyTopic app.names.productKey app.names.deviceName service,
        replyText requestId 200 data)] := by
  have hlen := replyText_length_le requestId data
  rw [appReplyService, halloc, sbFormat_eq 512 (nul_notMem_replyText hid hdata)
    (by unfold INT_MAX; omega)]
  rfl

/-- Outcomes without a failure. -/
def AppOutcomes.smooth : AppOutcomes :=
  ⟨.smooth 0, 0, fun _ => true, fun _ => true, fun _ => true⟩

/-- A manager whose handler is defined when no allocation fails. -/
def DefinedWhenSmooth (manager : ManagerHandler) : Prop :=
  ∀ ide params buffer, ∃ handled, manager (.smooth 0) ide params (.array buffer) = some handled

theorem deployManager_definedWhenSmooth : DefinedWhenSmooth deployManager := by
  intro ide params buffer
  have hcall : ∃ call, deployCall (fun _ => true) true 0 ide.deployBusy params = some call := by
    unfold deployCall
    rw [if_neg (by decide)]
    split_ifs with hurl hbusy
    · cases hreport : deployReportStatus (fun _ => true) false (ascii "downloadUrl is empty") []
          (readDeployTask params).projectName (readDeployTask params).deployPath 0 with
      | posted text => exact ⟨_, rfl⟩
      | skipped => exact ⟨_, rfl⟩
      | undefinedFree => exact absurd hreport (deployReportStatus_defined rfl)
    · exact ⟨_, rfl⟩
    · exact ⟨_, rfl⟩
    · exact ⟨_, rfl⟩
  obtain ⟨call, hcall⟩ := hcall
  have hcall' : deployCall (LibOutcomes.smooth 0).alloc (LibOutcomes.smooth 0).created
      (LibOutcomes.smooth 0).nowMs ide.deployBusy params = some call := hcall
  unfold deployManager
  rw [hcall']
  exact ⟨_, rfl⟩

theorem startManager_definedWhenSmooth : DefinedWhenSmooth startManager := by
  intro ide params buffer
  set call := startCall (LibOutcomes.smooth 0).alloc (LibOutcomes.smooth 0).verdict ide.startBusy
    params with hcall
  obtain ⟨escaped, hescaped, -⟩ := escapeAlloc_length_le call.message
  have hanswer : startBuildResultJson true call.success call.message (.array buffer) =
      some ((formatResponse (resultText call.success escaped) buffer).1,
        .array (formatResponse (resultText call.success escaped) buffer).2) := by
    simp only [startBuildResultJson, hescaped]
  unfold startManager
  simp only [← hcall]
  rw [show (LibOutcomes.smooth 0).responseAlloc 0 = true from rfl, hanswer]
  exact ⟨_, rfl⟩

section Answers

variable (app : AppContext)

/-- A service answered on its reply topic, under the same names. -/
def AnsweredOn (service : Bytes) (handled : Option AppHandled) : Prop :=
  ∃ result payload, handled = some result ∧ result.app.names = app.names ∧
    (replyTopic app.names.productKey app.names.deviceName service, payload) ∈ result.published

theorem mem_appReplyService (service requestId data : Bytes) :
    ∃ payload, (replyTopic app.names.productKey app.names.deviceName service, payload) ∈
      appReplyService .smooth app service requestId data := by
  obtain ⟨payload, hformat⟩ := sbFormat_true 512 (replyText requestId 200 data)
  refine ⟨payload, ?_⟩
  rw [appReplyService, show AppOutcomes.smooth.replyAlloc = fun _ => true from rfl, hformat]
  exact List.mem_singleton.2 rfl

theorem answeredOn_appAnswer (service requestId data : Bytes) :
    AnsweredOn app service (some (appAnswer .smooth app service requestId data)) := by
  obtain ⟨payload, hmem⟩ := mem_appReplyService app service requestId data
  exact ⟨_, payload, rfl, rfl, hmem⟩

theorem answeredOn_managed {manager : ManagerHandler} (hmanager : DefinedWhenSmooth manager)
    (service : Bytes) (paramsSize responseSize : ℕ) (initial requestId payload : Bytes) :
    AnsweredOn app service (appHandleManaged .smooth app service paramsSize responseSize initial
      manager requestId payload) := by
  unfold appHandleManaged
  cases Extract.value? (jsonGetObject payload (ascii "params")) paramsSize with
  | none => exact answeredOn_appAnswer app service requestId initial
  | some params =>
    obtain ⟨handled, hhandled⟩ := hmanager app.managers params (initBuffer responseSize initial)
    obtain ⟨reply, hmem⟩ := mem_appReplyService app service requestId handled.response.text
    simp only [show AppOutcomes.smooth.managers = .smooth 0 from rfl, hhandled, Option.map_some]
    exact ⟨_, reply, rfl, rfl, List.mem_append_right _ hmem⟩

theorem answeredOn_guarded {manager : ManagerHandler} (hmanager : DefinedWhenSmooth manager)
    (service : Bytes) (paramsSize responseSize : ℕ)
    (initial rejected requestId payload : Bytes) :
    AnsweredOn app service (appHandleGuarded .smooth app service paramsSize responseSize initial
      rejected manager requestId payload) := by
  unfold appHandleGuarded
  cases Extract.value? (jsonGetObject payload (ascii "params")) paramsSize with
  | none => exact answeredOn_appAnswer app service requestId initial
  | some params =>
    simp only
    split_ifs
    · exact answeredOn_managed app hmanager service paramsSize responseSize initial requestId
        payload
    · exact answeredOn_appAnswer app service requestId _

theorem appHandleService_answers (servicePath payload : Bytes) :
    AnsweredOn app servicePath (appHandleService .smooth app servicePath payload) := by
  unfold appHandleService
  split_ifs with h₁ h₂ h₃ h₄ h₅ h₆ h₇
  · obtain ⟨reply, hmem⟩ := mem_appReplyService app (ascii "property/set") (readRequestId payload)
      (ascii "\x7b\x7d")
    subst h₁
    exact ⟨_, reply, rfl, rfl, List.mem_append_right _ (List.mem_append_right _ hmem)⟩
  · rw [h₂]
    exact answeredOn_appAnswer app _ _ _
  · rw [h₃]
    exact answeredOn_managed app (fun _ _ _ => ⟨_, rfl⟩) _ _ _ _ _ _
  · rw [h₄]
    exact answeredOn_managed app (fun _ _ _ => ⟨_, rfl⟩) _ _ _ _ _ _
  · rw [h₅]
    exact answeredOn_managed app (fun _ _ _ => ⟨_, rfl⟩) _ _ _ _ _ _
  · rw [h₆]
    exact answeredOn_guarded app deployManager_definedWhenSmooth _ _ _ _ _ _ _
  · rw [h₇]
    exact answeredOn_guarded app startManager_definedWhenSmooth _ _ _ _ _ _ _
  · exact answeredOn_appAnswer app _ _ _

/-- With no failure outside the program, every message under the prefix is answered on its
reply topic. -/
theorem appDispatchService_answers {topic servicePath : Bytes}
    (hpath : servicePath? app.names.productKey app.names.deviceName topic = some servicePath)
    (payload : Bytes) :
    AnsweredOn app servicePath (appDispatchService .smooth app topic payload) := by
  rw [appDispatchService, hpath]
  exact appHandleService_answers app servicePath payload

end Answers

end IotIde
