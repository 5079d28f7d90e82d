import IotIde.Json.Getters
import IotIde.Response
import IotIde.StringBuilder

/-!
# `ide_connection_manager.c`

The lock that lets one IDE at a time work on the device.  Each handler is cut where the
source takes and releases its mutex: what it reads from the parameters, the locked
section, the property it posts, and the response it writes.

* `IdeConnectionManager` — the fields the mutex guards;
* `requestConnectLocked`, `disconnectLocked`, `heartbeatLocked`, `heartbeatCheck`,
  `clearCloudState` — the locked sections;
* `ideReportFullState`, `ideReportHeartbeat`, `ideBuildResultJson` — what is posted and
  answered, with the outcomes of the allocations;
* `handleRequestConnect`, `handleDisconnect`, `handleHeartbeat` — the handlers;
* `clientIdOf_length_lt` — whatever the parameters, the identity fits its array.
-/

namespace IotIde

open CText JsonText

/-- `HEARTBEAT_TIMEOUT_MS` -/
def HEARTBEAT_TIMEOUT_MS : ℤ := 2 * 60 * 1000

/-- `IdeConnectionManager`: the fields guarded by `lock`, the arrays as the strings they
hold. -/
structure IdeConnectionManager where
  connected : Bool
  currentClientId : Bytes
  currentClientInfo : Bytes
  lastHeartbeatMs : ℤ
  deriving DecidableEq

/-- What `ide_connection_manager_init` leaves. -/
def IdeConnectionManager.init : IdeConnectionManager := ⟨false, [], [], 0⟩

/-- `ide_unlock_internal`; it sets every field. -/
def ideUnlockInternal (_manager : IdeConnectionManager) : IdeConnectionManager :=
  ⟨false, [], [], 0⟩

/-! ## What a handler reads -/

/-- `json_get_string` into `char client_id[128]` that starts as `initial`. -/
def readClientId (initial params : Bytes) : Bytes :=
  readField (ascii "clientId") 128 initial params

/-- The client of a connect, disconnect or heartbeat request. -/
def clientIdOf (params : Bytes) : Bytes := readClientId (ascii "unknown") params

/-- `json_get_raw_value` into `char client_info[512] = ""`. -/
def clientInfoOf (params : Bytes) : Bytes :=
  cstr (jsonGetRawValue params (ascii "clientInfo") (initBuffer 512 [])).out

/-! ## The locked sections -/

/-- What a locked section leaves: the manager, the verdict, and `char message[256]`. -/
structure Locked where
  manager : IdeConnectionManager
  success : Bool
  message : Bytes

/-- The locked section of `ide_connection_manager_handle_request_connect`. -/
def requestConnectLocked (manager : IdeConnectionManager) (clientId clientInfo : Bytes)
    (nowMs : ℤ) : Locked :=
  if manager.connected = false then
    ⟨⟨true, snprintf 128 clientId, snprintf 512 clientInfo, nowMs⟩, true,
      ascii "connect accepted"⟩
  else if manager.currentClientId = clientId then
    ⟨{ manager with lastHeartbeatMs := nowMs, currentClientInfo := snprintf 512 clientInfo },
      true, ascii "reconnect accepted"⟩
  else if nowMs - manager.lastHeartbeatMs > HEARTBEAT_TIMEOUT_MS then
    ⟨⟨true, snprintf 128 clientId, snprintf 512 clientInfo, nowMs⟩, true,
      ascii "previous IDE heartbeat timed out, lock transferred"⟩
  else
    ⟨manager, false, snprintf 256 (ascii "device is occupied by " ++ manager.currentClientId)⟩

/-- The locked section of `ide_connection_manager_handle_disconnect`, and `should_clear`. -/
def disconnectLocked (manager : IdeConnectionManager) (clientId : Bytes) : Locked × Bool :=
  if manager.connected = false then
    (⟨manager, true, ascii "no active IDE connection"⟩, false)
  else if manager.currentClientId ≠ clientId then
    (⟨manager, false,
      snprintf 256 (ascii "disconnect rejected, active client is " ++ manager.currentClientId)⟩,
      false)
  else
    (⟨ideUnlockInternal manager, true, ascii "disconnect accepted"⟩, true)

/-- The locked section of `ide_connection_manager_handle_heartbeat`. -/
def heartbeatLocked (manager : IdeConnectionManager) (clientId : Bytes) (nowMs : ℤ) : Locked :=
  if manager.connected = false ∨ manager.currentClientId ≠ clientId then
    ⟨manager, false,
      snprintf 256 (ascii "heartbeat rejected, active client is " ++ manager.currentClientId)⟩
  else
    ⟨{ manager with lastHeartbeatMs := nowMs }, true, ascii "heartbeat updated"⟩

/-- One check of `ide_heartbeat_thread`, and `should_release`. -/
def heartbeatCheck (manager : IdeConnectionManager) (nowMs : ℤ) : IdeConnectionManager × Bool :=
  if manager.connected = true ∧ nowMs - manager.lastHeartbeatMs > HEARTBEAT_TIMEOUT_MS then
    (ideUnlockInternal manager, true)
  else (manager, false)

/-- The locked section of `ide_connection_manager_clear_cloud_state`. -/
def clearCloudState (manager : IdeConnectionManager) : IdeConnectionManager :=
  ideUnlockInternal manager

/-- `ide_connection_manager_is_connected_client` -/
def isConnectedClient (manager : IdeConnectionManager) (clientId : Bytes) : Bool :=
  clientId != [] && manager.connected && manager.currentClientId == clientId

/-- The test before `deployProject` and `startProject`, the same in
`libiot_ide_check_active_client` and in the `app_handle_*_service` functions. -/
def checkActiveClient (manager : IdeConnectionManager) (params : Bytes) : Bool :=
  isConnectedClient manager (readClientId [] params)

/-! ## What is posted -/

/-- The posted text without a connection. -/
def disconnectedParams : Bytes :=
  ascii "\x7b\"hasIDEConnected\":0,\"IDEInfo\":\"\",\"IDEHeartbeat\":\"0\"\x7d"

/-- The whole text of `ide_info`; `quotes` stands around a client info that is text. -/
def ideInfoText (escapedClientId quotes clientInfo : Bytes) (heartbeatMs : ℤ) : Bytes :=
  ascii "\x7b\"clientId\":\"" ++ (escapedClientId ++ (ascii "\",\"clientInfo\":" ++ (quotes ++
    (clientInfo ++ (quotes ++ (ascii ",\"connectTime\":" ++ (decimal heartbeatMs ++
      ascii "\x7d")))))))

/-- The whole posted text with a connection. -/
def connectedParams (escapedIdeInfo : Bytes) (heartbeatMs : ℤ) : Bytes :=
  ascii "\x7b\"hasIDEConnected\":1,\"IDEInfo\":\"" ++ (escapedIdeInfo ++
    (ascii "\",\"IDEHeartbeat\":\"" ++ (decimal heartbeatMs ++ ascii "\"\x7d")))

/-- The second half of `ide_report_full_state`: `char ide_info[2048]` is escaped and put
into `char params[4096]`. -/
def postIdeInfo (allocOk : Bool) (ideInfo : Bytes) (heartbeatMs : ℤ) : Option Bytes :=
  match escapeAlloc allocOk (snprintf 2048 ideInfo) with
  | none => none
  | some escapedIdeInfo => some (snprintf 4096 (connectedParams escapedIdeInfo heartbeatMs))

/-- `ide_report_full_state`: the text given to `app_post_properties`, or `none` when an
allocation fails; `alloc` gives their outcomes in order. -/
def ideReportFullState (alloc : ℕ → Bool) (connected : Bool) (clientId clientInfo : Bytes)
    (heartbeatMs : ℤ) : Option Bytes :=
  if connected = false then some disconnectedParams
  else if clientInfo.head? = some lbrace ∨ clientInfo.head? = some lbracket then
    match escapeAlloc (alloc 0) clientId with
    | none => none
    | some escapedClientId =>
      postIdeInfo (alloc 1) (ideInfoText escapedClientId [] clientInfo heartbeatMs) heartbeatMs
  else
    match escapeAlloc (alloc 0) clientId, escapeAlloc (alloc 1) clientInfo with
    | some escapedClientId, some escapedClientInfo =>
      postIdeInfo (alloc 2) (ideInfoText escapedClientId [quote] escapedClientInfo heartbeatMs)
        heartbeatMs
    | _, _ => none

/-- `ide_report_heartbeat` -/
def ideReportHeartbeat (heartbeatMs : ℤ) : Bytes :=
  snprintf 256 (ascii "\x7b\"IDEHeartbeat\":\"" ++ (decimal heartbeatMs ++ ascii "\"\x7d"))

/-! ## What is answered -/

/-- `ide_build_result_json` -/
def ideBuildResultJson (allocOk success : Bool) (message : Bytes) (response : Option Bytes) :
    ℤ × Option Bytes :=
  match response with
  | none => (-1, none)
  | some buffer =>
    if buffer.length = 0 then (-1, response)
    else
      match escapeAlloc allocOk message with
      | none => (-1, response)
      | some escaped =>
        let (rc, buffer') := formatResponse (resultText success escaped) buffer
        (rc, some buffer')

/-! ## The handlers -/

/-- What a handler does: its return code, the manager, what it posted, and the response
array. -/
structure Handled where
  rc : ℤ
  manager : IdeConnectionManager
  posted : List Bytes
  response : Option Bytes

/-- `ide_connection_manager_handle_request_connect`; `alloc 3` is the allocation of the
response. -/
def handleRequestConnect (alloc : ℕ → Bool) (manager : IdeConnectionManager) (params : Bytes)
    (nowMs : ℤ) (response : Option Bytes) : Handled :=
  let clientId := clientIdOf params
  let clientInfo := clientInfoOf params
  let locked := requestConnectLocked manager clientId clientInfo nowMs
  let posted := if locked.success then
    (ideReportFullState alloc true clientId clientInfo nowMs).toList else []
  let (rc, response') := ideBuildResultJson (alloc 3) locked.success locked.message response
  ⟨rc, locked.manager, posted, response'⟩

/-- `ide_connection_manager_handle_disconnect` -/
def handleDisconnect (alloc : ℕ → Bool) (manager : IdeConnectionManager) (params : Bytes)
    (response : Option Bytes) : Handled :=
  let (locked, shouldClear) := disconnectLocked manager (clientIdOf params)
  let posted := if shouldClear then (ideReportFullState alloc false [] [] 0).toList else []
  let (rc, response') := ideBuildResultJson (alloc 3) locked.success locked.message response
  ⟨rc, locked.manager, posted, response'⟩

/-- `ide_connection_manager_handle_heartbeat` -/
def handleHeartbeat (alloc : ℕ → Bool) (manager : IdeConnectionManager) (params : Bytes)
    (nowMs : ℤ) (response : Option Bytes) : Handled :=
  let locked := heartbeatLocked manager (clientIdOf params) nowMs
  let posted := if locked.success then [ideReportHeartbeat nowMs] else []
  let (rc, response') := ideBuildResultJson (alloc 3) locked.success locked.message response
  ⟨rc, locked.manager, posted, response'⟩

/-! ## Identities fit -/

theorem nul_notMem_readClientId (initial params : Bytes) : 0 ∉ readClientId initial params :=
  nul_notMem_cstr _

theorem clientIdOf_length_lt (params : Bytes) : (clientIdOf params).length < 128 :=
  readField_length_lt (by decide) params

theorem clientInfoOf_length_lt (params : Bytes) : (clientInfoOf params).length < 512 := by
  have hlast : (initBuffer 512 []).getLast? = some 0 := initBuffer_getLast? (by decide)
  have hterm := jsonGetRawValue_terminated params (ascii "clientInfo") hlast
  rw [initBuffer_length (by decide)] at hterm
  exact hterm.cstr_length_lt

/-- An accepted connect leaves its client connected, and its clock value. -/
theorem requestConnectLocked_accepted {manager : IdeConnectionManager} {clientId : Bytes}
    (hlen : clientId.length < 128) {clientInfo : Bytes} {nowMs : ℤ}
    (h : (requestConnectLocked manager clientId clientInfo nowMs).success = true) :
    (requestConnectLocked manager clientId clientInfo nowMs).manager =
      ⟨true, clientId, snprintf 512 clientInfo, nowMs⟩ := by
  unfold requestConnectLocked at h ⊢
  split_ifs with h₁ h₂ h₃
  · rw [snprintf_of_lt hlen]
  · obtain ⟨connected, id, info, last⟩ := manager
    simp only [Bool.not_eq_false] at h₁
    simp only at h₂
    rw [h₁, h₂]
  · rw [snprintf_of_lt hlen]
  · simp [h₁, h₂, h₃] at h

/-- A refused connect leaves the manager as it was. -/
theorem requestConnectLocked_refused {manager : IdeConnectionManager} {clientId clientInfo : Bytes}
    {nowMs : ℤ} (h : (requestConnectLocked manager clientId clientInfo nowMs).success = false) :
    (requestConnectLocked manager clientId clientInfo nowMs).manager = manager := by
  unfold requestConnectLocked at h ⊢
  split_ifs with h₁ h₂ h₃
  · simp [h₁] at h
  · simp [h₁, h₂] at h
  · simp [h₁, h₂, h₃] at h
  · rfl

/-! ## Messages and responses fit -/

theorem requestConnectLocked_message_length_lt (manager : IdeConnectionManager)
    (clientId clientInfo : Bytes) (nowMs : ℤ) :
    (requestConnectLocked manager clientId clientInfo nowMs).message.length < 256 := by
  unfold requestConnectLocked
  split_ifs
  · exact (by decide : (ascii "connect accepted").length < 256)
  · exact (by decide : (ascii "reconnect accepted").length < 256)
  · exact (by decide :
      (ascii "previous IDE heartbeat timed out, lock transferred").length < 256)
  · exact snprintf_length_lt _ (by omega)

theorem disconnectLocked_message_length_lt (manager : IdeConnectionManager) (clientId : Bytes) :
    (disconnectLocked manager clientId).1.message.length < 256 := by
  unfold disconnectLocked
  split_ifs
  · exact (by decide : (ascii "no active IDE connection").length < 256)
  · exact snprintf_length_lt _ (by omega)
  · exact (by decide : (ascii "disconnect accepted").length < 256)

theorem heartbeatLocked_message_length_lt (manager : IdeConnectionManager) (clientId : Bytes)
    (nowMs : ℤ) : (heartbeatLocked manager clientId nowMs).message.length < 256 := by
  unfold heartbeatLocked
  split_ifs
  · exact snprintf_length_lt _ (by omega)
  · exact (by decide : (ascii "heartbeat updated").length < 256)

theorem snprintf_append_length_le (size : ℕ) (head tail : Bytes) :
    (snprintf size (head ++ tail)).length ≤ head.length + tail.length := by
  rw [← List.length_append]
  exact List.length_take_le' _ _

section Messages

variable {manager : IdeConnectionManager} (h : manager.currentClientId.length < 128)
include h

theorem requestConnectLocked_message_length_le (clientId clientInfo : Bytes) (nowMs : ℤ) :
    (requestConnectLocked manager clientId clientInfo nowMs).message.length ≤ 165 := by
  unfold requestConnectLocked
  split_ifs
  · exact (by decide : (ascii "connect accepted").length ≤ 165)
  · exact (by decide : (ascii "reconnect accepted").length ≤ 165)
  · exact (by decide :
      (ascii "previous IDE heartbeat timed out, lock transferred").length ≤ 165)
  · refine (snprintf_append_length_le _ _ _).trans ?_
    have hlen : (ascii "device is occupied by ").length = 22 := by decide
    omega

theorem disconnectLocked_message_length_le (clientId : Bytes) :
    (disconnectLocked manager clientId).1.message.length ≤ 165 := by
  unfold disconnectLocked
  split_ifs
  · exact (by decide : (ascii "no active IDE connection").length ≤ 165)
  · refine (snprintf_append_length_le _ _ _).trans ?_
    have hlen : (ascii "disconnect rejected, active client is ").length = 38 := by decide
    omega
  · exact (by decide : (ascii "disconnect accepted").length ≤ 165)

theorem heartbeatLocked_message_length_le (clientId : Bytes) (nowMs : ℤ) :
    (heartbeatLocked manager clientId nowMs).message.length ≤ 165 := by
  unfold heartbeatLocked
  split_ifs
  · refine (snprintf_append_length_le _ _ _).trans ?_
    have hlen : (ascii "heartbeat rejected, active client is ").length = 37 := by decide
    omega
  · exact (by decide : (ascii "heartbeat updated").length ≤ 165)

end Messages

/-- With memory and room a response is written. -/
theorem ideBuildResultJson_of_fits (success : Bool) {message buffer : Bytes}
    (h : 2 * message.length + 26 < buffer.length) :
    (ideBuildResultJson true success message (some buffer)).1 = 0 := by
  obtain ⟨escaped, hescaped, hlen⟩ := escapeAlloc_length_le message
  simp only [ideBuildResultJson, hescaped]
  rw [if_neg (by omega)]
  exact formatResponse_of_fits (by rw [resultText_length]; omega)

end IotIde
