import IotIde.Foundation.Runs
import IotIde.Host.App
import IotIde.Host.Runtime

/-!
# The two hosts side by side

The standalone program and the runtime hand the same requests to the same managers, each
through its own dispatch, its own arrays and its own answer to a request without
parameters.

* `AnswersAlike` — a manager whose answer does not depend on the array it is written to;
* `HostEvent`, `appMachine`, `runtimeMachine` — the hosts, event by event;
* `SameIde` — equal states of the managers, and equal replies so far;
* `hosts_agree` — on requests whose parameters fit the arrays of the standalone program.
-/

namespace IotIde

open CText JsonText Runs

/-! ## Answers that do not depend on their array -/

/-- The effects of a handler, and the text of its answer. -/
def ManagerReturn.seen (handled : ManagerReturn) : Effects × Bytes :=
  (handled.effects, handled.response.text)

/-- With memory for the response, and `room` for it, the effects and the text of the answer
are the same for every array, and the text is a string that fits. -/
def AnswersAlike (manager : ManagerHandler) (room : ℕ) (ide : LibIotIde) : Prop :=
  ∀ (o : LibOutcomes) (params : Bytes), ∃ seen : Option (Effects × Bytes),
    (∀ result ∈ seen, 0 ∉ result.2 ∧ result.2.length ≤ room) ∧
    ∀ buffer : Bytes, room ≤ buffer.length →
      (manager o.granted ide params (.array buffer)).map ManagerReturn.seen = seen

/-- The text of a plain result, as a reader of its array sees it. -/
def resultSeen (success : Bool) (message : Bytes) : Bytes :=
  cstr (resultText success (cstr (escape message)))

theorem resultSeen_length_le (success : Bool) (message : Bytes) :
    (resultSeen success message).length ≤ (escape message).length + 26 := by
  have hlen := cstr_length_le (escape message)
  refine (cstr_length_le _).trans ?_
  rw [resultText_length]
  omega

theorem ideBuildResultJson_seen (success : Bool) {message buffer : Bytes}
    (h : 2 * message.length + 26 < buffer.length) :
    ∃ buffer', (ideBuildResultJson true success message (some buffer)).2 = some buffer' ∧
      cstr buffer' = resultSeen success message := by
  have hlen := (cstr_length_le (escape message)).trans (escape_length_le message)
  simp only [ideBuildResultJson, escapeAlloc_true]
  rw [if_neg (by omega)]
  exact ⟨_, rfl, cstr_formatResponse (by rw [resultText_length]; omega)⟩

/-- The handlers of the connection manager, as far as their messages are short. -/
theorem ideReturn_alike (ide : LibIotIde) {locked : Locked} (posted : List Bytes)
    (hmessage : locked.message.length ≤ 165) :
    let handled (response : Option Bytes) : Handled :=
      ⟨(ideBuildResultJson true locked.success locked.message response).1, locked.manager, posted,
        (ideBuildResultJson true locked.success locked.message response).2⟩
    ∃ seen : Option (Effects × Bytes),
      (∀ result ∈ seen, 0 ∉ result.2 ∧ result.2.length ≤ 512) ∧
      ∀ buffer : Bytes, 512 ≤ buffer.length →
        some (ideReturn ide (.array buffer) (handled (some buffer))).seen = seen := by
  refine ⟨some (⟨{ ide with ideManager := locked.manager }, posted, []⟩,
    resultSeen locked.success locked.message), ?_, ?_⟩
  · intro result hresult
    cases hresult
    have hlen := resultSeen_length_le locked.success locked.message
    have hescape := escape_length_le locked.message
    exact ⟨nul_notMem_cstr _, by dsimp only; omega⟩
  · intro buffer h
    have hroom : 2 * locked.message.length + 26 < buffer.length := by omega
    obtain ⟨written, hwritten, hseen⟩ := ideBuildResultJson_seen locked.success hroom
    simp only [ideReturn, ManagerReturn.seen, hwritten, ResponseArg.written, ResponseArg.text, hseen]

section Managers

variable {ide : LibIotIde} (hclient : ide.ideManager.currentClientId.length < 128)
include hclient

theorem connectManager_alike : AnswersAlike connectManager 512 ide := by
  intro o params
  have hmessage := requestConnectLocked_message_length_le hclient (clientIdOf params)
    (clientInfoOf params) o.granted.nowMs
  exact ideReturn_alike ide _ hmessage

theorem disconnectManager_alike : AnswersAlike disconnectManager 512 ide := by
  intro o params
  have hmessage := disconnectLocked_message_length_le hclient (clientIdOf params)
  exact ideReturn_alike ide _ hmessage

theorem heartbeatManager_alike : AnswersAlike heartbeatManager 512 ide := by
  intro o params
  have hmessage := heartbeatLocked_message_length_le hclient (clientIdOf params) o.granted.nowMs
  exact ideReturn_alike ide _ hmessage

omit hclient in
theorem deployManager_alike : AnswersAlike deployManager 1024 ide := by
  intro o params
  unfold deployManager
  cases deployCall o.granted.alloc o.granted.created o.granted.nowMs ide.deployBusy params with
  | none =>
    refine ⟨none, ?_, fun _ _ => rfl⟩
    intro result hresult
    cases hresult
  | some call =>
    have hmessage := call.answer.message_length_lt
    have hescaped := (cstr_length_le (escape call.answer.message)).trans
      (escape_length_le call.answer.message)
    have hempty : (cstr (escape [])).length = 0 := rfl
    have hlen : (deployResultText call.answer.success (cstr (escape call.answer.message))
        (cstr (escape []))).length < 1024 := by
      rw [deployResultText_length]
      omega
    refine ⟨some (⟨{ ide with deployBusy := call.busy }, call.posted,
      (call.worker.map Launch.deployTask).toList⟩, cstr (deployResultText call.answer.success
        (cstr (escape call.answer.message)) (cstr (escape [])))), ?_, ?_⟩
    · intro result hresult
      cases hresult
      exact ⟨nul_notMem_cstr _, ((cstr_length_le _).trans hlen.le)⟩
    · intro buffer h
      have hfits : (deployResultText call.answer.success (cstr (escape call.answer.message))
          (cstr (escape []))).length < buffer.length := by omega
      have hwritten : (deployBuildResultJson o.granted.responseAlloc call.answer.success
          call.answer.message [] (some buffer)).2 = some (formatResponse (deployResultText
            call.answer.success (cstr (escape call.answer.message)) (cstr (escape [])))
            buffer).2 := by
        simp only [deployBuildResultJson, show o.granted.responseAlloc = fun _ => true from rfl,
          escapeAlloc_true]
        rw [if_neg (by omega)]
      simp only [ResponseArg.array?, Option.map_some, ManagerReturn.seen, hwritten,
        ResponseArg.written, ResponseArg.text, cstr_formatResponse hfits]

omit hclient in
theorem startManager_alike : AnswersAlike startManager 1024 ide := by
  intro o params
  set call := startCall o.alloc o.verdict ide.startBusy params with hcall
  have hmessage : (escape call.message).length ≤ 992 :=
    escape_startCall_message_length_le o.alloc o.verdict ide.startBusy params
  refine ⟨some (⟨{ ide with startBusy := call.busy }, [], (call.launched.map
    fun launched => Launch.startCommand launched.1 launched.2).toList⟩,
    resultSeen call.success call.message), ?_, ?_⟩
  · intro result hresult
    cases hresult
    have hlen := resultSeen_length_le call.success call.message
    exact ⟨nul_notMem_cstr _, by dsimp only; omega⟩
  · intro buffer h
    have hescaped := cstr_length_le (escape call.message)
    have hfits : (resultText call.success (cstr (escape call.message))).length <
        buffer.length := by
      rw [resultText_length]
      omega
    have hcall' : startCall o.granted.alloc o.granted.verdict ide.startBusy params = call := rfl
    simp only [startManager, hcall', startBuildResultJson,
      show o.granted.responseAlloc 0 = true from rfl, escapeAlloc_true, Option.map_some]
    exact congrArg (fun text => some (_, text)) (cstr_formatResponse hfits)

end Managers

/-! ## The client stays a string of its array -/

/-- The manager leaves a client id that its array of 128 bytes holds. -/
def KeepsClient (manager : ManagerHandler) : Prop :=
  ∀ (o : LibOutcomes) (ide : LibIotIde) (params : Bytes) (response : ResponseArg)
    (handled : ManagerReturn), ide.ideManager.currentClientId.length < 128 →
    manager o ide params response = some handled →
    handled.effects.ide.ideManager.currentClientId.length < 128

theorem connectManager_keepsClient : KeepsClient connectManager := by
  intro o ide params response handled hclient h
  cases h
  change (requestConnectLocked _ _ _ _).manager.currentClientId.length < 128
  unfold requestConnectLocked
  split_ifs
  · exact snprintf_length_lt _ (by omega)
  · exact hclient
  · exact snprintf_length_lt _ (by omega)
  · exact hclient

theorem disconnectManager_keepsClient : KeepsClient disconnectManager := by
  intro o ide params response handled hclient h
  cases h
  change (disconnectLocked _ _).1.manager.currentClientId.length < 128
  unfold disconnectLocked
  split_ifs
  · exact hclient
  · exact hclient
  · exact Nat.zero_lt_succ _

theorem heartbeatManager_keepsClient : KeepsClient heartbeatManager := by
  intro o ide params response handled hclient h
  cases h
  change (heartbeatLocked _ _ _).manager.currentClientId.length < 128
  unfold heartbeatLocked
  split_ifs
  · exact hclient
  · exact hclient

theorem deployManager_keepsClient : KeepsClient deployManager := by
  intro o ide params response handled hclient h
  unfold deployManager at h
  cases hcall : deployCall o.alloc o.created o.nowMs ide.deployBusy params with
  | none =>
    rw [hcall] at h
    cases h
  | some call =>
    rw [hcall] at h
    cases h
    exact hclient

theorem startManager_keepsClient : KeepsClient startManager := by
  intro o ide params response handled hclient h
  simp only [startManager] at h
  split at h
  · cases h
  · cases h
    exact hclient

/-! ## Replies -/

section Replies

/-- The replies to a service among what was published. -/
def repliesTo (names : DeviceNames) (service : Bytes) (published : List (Bytes × Bytes)) :
    List (Bytes × Bytes) :=
  published.filter fun message =>
    message.1 = replyTopic names.productKey names.deviceName service

variable (names : DeviceNames) (service : Bytes)

theorem propertyPostTopic_ne_replyTopic :
    propertyPostTopic names.productKey names.deviceName ≠
      replyTopic names.productKey names.deviceName service := by
  intro heq
  obtain ⟨path, hpath⟩ := servicePath?_replyTopic names.productKey names.deviceName service
  rw [← heq, names.servicePath?_propertyPostTopic] at hpath
  cases hpath

/-- Behind property posts, a reply is the only reply. -/
theorem repliesTo_append {posts : List (Bytes × Bytes)} (payload : Bytes)
    (hposts : ∀ message ∈ posts,
      message.1 = propertyPostTopic names.productKey names.deviceName) :
    repliesTo names service
        (posts ++ [(replyTopic names.productKey names.deviceName service, payload)]) =
      [(replyTopic names.productKey names.deviceName service, payload)] := by
  have hnone : posts.filter (fun message =>
      message.1 = replyTopic names.productKey names.deviceName service) = [] := by
    refine List.filter_eq_nil_iff.2 fun message hmem => ?_
    rw [hposts message hmem, decide_eq_true_eq]
    exact propertyPostTopic_ne_replyTopic names service
  rw [repliesTo, List.filter_append, hnone]
  simp

end Replies

/-- With memory, both hosts reply with the whole text, on the same topic. -/
theorem reply_alike (o : AppOutcomes) (app : AppContext) (o' : RuntimeOutcomes)
    (host : RuntimeHost) (hnames : app.names = host.names) (halloc : o.replyAlloc = fun _ => true)
    (halloc' : o'.replyAlloc = true) (service : Bytes) {requestId data : Bytes}
    (hid : 0 ∉ requestId) (hidlen : requestId.length < 64) (hdata : 0 ∉ data)
    (hdatalen : data.length ≤ 1024) :
    let reply := [(replyTopic host.names.productKey host.names.deviceName service,
      replyText requestId 200 data)]
    appReplyService o app service requestId data = reply ∧
      iotIdeGatewayReplyService o' host service requestId data = reply := by
  constructor
  · rw [appReplyService_eq o app halloc service hid hidlen hdata hdatalen, hnames]
  · have hlen := replyText_length_le requestId data
    rw [iotIdeGatewayReplyService, if_pos halloc', snprintf_of_lt (by omega)]

/-! ## The hosts, event by event -/

namespace LibCall

/-- The service that an entry point handles. -/
def serviceName : LibCall → Bytes
  | requestConnect => ascii "requestConnect"
  | requestDisconnect => ascii "requestDisconnect"
  | heartbeat => ascii "ideHeartbeat"
  | deployProject => ascii "deployProject"
  | startProject => ascii "startProject"

/-- The array that the standalone program reads the parameters of a service into. -/
def appParamsSize : LibCall → ℕ
  | requestConnect => 2048
  | requestDisconnect => 1024
  | heartbeat => 1024
  | deployProject => 4096
  | startProject => 2048

end LibCall

/-- How the calls outside one message come out, in either host, with memory for the
response and for the reply. -/
structure HostOutcomes where
  managers : LibOutcomes
  nowMs : ℤ
  postAlloc : ℕ → Bool

namespace HostOutcomes

def app (o : HostOutcomes) : AppOutcomes :=
  ⟨o.managers.granted, o.nowMs, o.postAlloc, fun _ => true, fun _ => true⟩

def runtime (o : HostOutcomes) : RuntimeOutcomes :=
  ⟨o.managers.granted, o.nowMs, o.postAlloc 0, true⟩

end HostOutcomes

/-- A service message; the end of a deploy task; a check of the heartbeat thread. -/
inductive HostEvent
  | message (call : LibCall) (payload : Bytes) (o : HostOutcomes)
  | deployEnds
  | heartbeatCheck (nowMs : ℤ)

/-- What a deploy task and the heartbeat thread leave. -/
def LibIotIde.deployEnds (ide : LibIotIde) : LibIotIde := { ide with deployBusy := false }

def LibIotIde.heartbeatCheck (ide : LibIotIde) (nowMs : ℤ) : LibIotIde :=
  { ide with ideManager := (IotIde.heartbeatCheck ide.ideManager nowMs).1 }

/-- A host, and the replies it has sent. -/
structure HostRun (σ : Type) where
  host : σ
  replies : List (Bytes × Bytes)

/-- The standalone program. -/
def appMachine : Machine (HostRun AppContext) HostEvent where
  init run := run.replies = []
  step run event :=
    let app := run.host
    match event with
    | .message call payload o =>
      (appDispatchService o.app app (serviceTopic app.names.productKey app.names.deviceName
        call.serviceName) payload).map fun handled =>
          ⟨handled.app, run.replies ++ repliesTo app.names call.serviceName handled.published⟩
    | .deployEnds => some ⟨{ app with managers := app.managers.deployEnds }, run.replies⟩
    | .heartbeatCheck nowMs =>
      some ⟨{ app with managers := app.managers.heartbeatCheck nowMs }, run.replies⟩

/-- The runtime with its two libraries. -/
def runtimeMachine : Machine (HostRun RuntimeHost) HostEvent where
  init run := run.replies = []
  step run event :=
    let host := run.host
    match event with
    | .message call payload o =>
      (gatewayHandleService o.runtime host (serviceTopic host.names.productKey
        host.names.deviceName call.serviceName) payload).map fun handled =>
          ⟨handled.host, run.replies ++ repliesTo host.names call.serviceName handled.published⟩
    | .deployEnds => some ⟨{ host with ide := host.ide.deployEnds }, run.replies⟩
    | .heartbeatCheck nowMs =>
      some ⟨{ host with ide := host.ide.heartbeatCheck nowMs }, run.replies⟩

/-- Equal states of the managers under the same names, and equal replies so far. -/
structure SameIde (run : HostRun AppContext) (run' : HostRun RuntimeHost) : Prop where
  names : run.host.names = run'.host.names
  handler : run'.host.hasHandler = true
  ide : run.host.managers = run'.host.ide
  client : run'.host.ide.ideManager.currentClientId.length < 128
  replies : run.replies = run'.replies

/-- The parameters of a message fit the array of the standalone program. -/
def HostEvent.FitsApp : HostEvent → Prop
  | message call payload _ =>
    (Extract.value? (jsonGetObject payload (ascii "params")) call.appParamsSize).isSome = true
  | _ => True

instance (event : HostEvent) : Decidable event.FitsApp :=
  match event with
  | .message call payload _ => inferInstanceAs (Decidable
      ((Extract.value? (jsonGetObject payload (ascii "params")) call.appParamsSize).isSome = true))
  | .deployEnds => .isTrue trivial
  | .heartbeatCheck _ => .isTrue trivial

/-! ## One message -/

section Message

variable {o : HostOutcomes} {app : AppContext} {host : RuntimeHost} {payload params : Bytes}

/-- What a message leaves in either host, related. -/
def SameAfter (names : DeviceNames) (service : Bytes) (handled : AppHandled)
    (handled' : RuntimeHandled) : Prop :=
  SameIde ⟨handled.app, repliesTo names service handled.published⟩
    ⟨handled'.host, repliesTo names service handled'.published⟩

theorem appHandleService_call (o : AppOutcomes) (app : AppContext) (payload : Bytes)
    (call : LibCall) : appHandleService o app call.serviceName payload =
      match call with
      | .requestConnect => appHandleConnectService o app (readRequestId payload) payload
      | .requestDisconnect => appHandleDisconnectService o app (readRequestId payload) payload
      | .heartbeat => appHandleHeartbeatService o app (readRequestId payload) payload
      | .deployProject => appHandleDeployService o app (readRequestId payload) payload
      | .startProject => appHandleStartService o app (readRequestId payload) payload := by
  cases call <;> rfl

theorem runtimeOnService_call (o : RuntimeOutcomes) (host : RuntimeHost) (requestId params : Bytes)
    (call : LibCall) : runtimeOnService o host call.serviceName requestId params =
      runtimeCallLibrary o host call call.serviceName requestId params := by
  cases call <;> rfl

theorem runtimeResponse_length : runtimeResponse.length = 8192 :=
  initBuffer_length (by decide)

/-- Property posts go to their own topic, in either host. -/
theorem posts_topic (o : HostOutcomes) (app : AppContext) (host : RuntimeHost) (posted : List Bytes) :
    (∀ message ∈ posted.flatMap (appPostProperties o.app app),
      message.1 = propertyPostTopic app.names.productKey app.names.deviceName) ∧
    ∀ message ∈ posted.flatMap (iotIdeGatewayPostProperties o.runtime host),
      message.1 = propertyPostTopic host.names.productKey host.names.deviceName := by
  constructor
  · intro message hmem
    obtain ⟨text, -, hmem⟩ := List.mem_flatMap.1 hmem
    obtain ⟨payload, -, rfl⟩ := Option.map_eq_some_iff.1 (Option.mem_toList.1 hmem)
    rfl
  · intro message hmem
    obtain ⟨text, -, hmem⟩ := List.mem_flatMap.1 hmem
    unfold iotIdeGatewayPostProperties at hmem
    split_ifs at hmem
    · rw [List.mem_singleton.1 hmem]
    · cases hmem

/-- Both hosts write the same rejection. -/
theorem rejection_seen {message buffer : Bytes} (h : message.length < 200)
    (hroom : 512 ≤ buffer.length) :
    cstr (appBuildSimpleResultJson message buffer).2 = resultSeen false message ∧
      (libiotIdeWriteJson message (.array buffer)).2.text = resultSeen false message := by
  have hescape := escape_length_le message
  have hfit : (escape message).length + 1 < (List.replicate 512 (0 : UInt8)).length := by
    rw [List.length_replicate]
    omega
  have hcut := cstr_length_le (escape message)
  have hseen : cstr (formatResponse (resultText false (cstr (escape message))) buffer).2 =
      resultSeen false message :=
    cstr_formatResponse (by rw [resultText_length]; omega)
  have hne : ¬ buffer.length = 0 := by omega
  constructor
  · rw [appBuildSimpleResultJson, if_neg hne, jsonEscapeString_of_fits hfit]
    simp only [cstr_store_nul]
    exact hseen
  · rw [libiotIdeWriteJson]
    simp only [if_neg hne, jsonEscapeString_of_fits hfit, cstr_store_nul]
    exact hseen

variable (hnames : app.names = host.names) (hhandler : host.hasHandler = true)
  (hide : app.managers = host.ide) (hclient : host.ide.ideManager.currentClientId.length < 128)
include hnames hhandler hide hclient

/-- A request that both hosts hand to a manager. -/
theorem managed_rel {manager : ManagerHandler} {room paramsSize : ℕ} (call : LibCall)
    (event : Bytes) {initial : Bytes} (halike : AnswersAlike manager room host.ide)
    (hkeeps : KeepsClient manager) (hroom : room ≤ 1024) (hinitial : initial.length ≤ room)
    (hparams : Extract.value? (jsonGetObject payload (ascii "params")) paramsSize = some params)
    (hentry : call.run o.runtime.lib (some host.ide) (some params) (.array runtimeResponse) =
      (manager o.managers.granted host.ide params (.array runtimeResponse)).map
        (finishEntry event)) :
    Option.Rel (SameAfter host.names call.serviceName)
      (appHandleManaged o.app app call.serviceName paramsSize room initial manager
        (readRequestId payload) payload)
      (runtimeCallLibrary o.runtime host call call.serviceName (readRequestId payload)
        params) := by
  obtain ⟨seen, hseen, hbuffer⟩ := halike o.managers params
  have happ := hbuffer (initBuffer room initial) (initBuffer_length hinitial).ge
  have hruntime := hbuffer runtimeResponse (by rw [runtimeResponse_length]; omega)
  rw [appHandleManaged, hparams, runtimeCallLibrary, hentry]
  simp only [show o.app.managers = o.managers.granted from rfl, hide]
  cases hx : manager o.managers.granted host.ide params (.array (initBuffer room initial)) with
  | none =>
    rw [hx] at happ
    cases hy : manager o.managers.granted host.ide params (.array runtimeResponse) with
    | none => exact .none
    | some handled' =>
      rw [hy, ← happ] at hruntime
      cases hruntime
  | some handled =>
    rw [hx] at happ
    cases hy : manager o.managers.granted host.ide params (.array runtimeResponse) with
    | none =>
      rw [hy, ← happ] at hruntime
      cases hruntime
    | some handled' =>
      rw [hy, ← happ] at hruntime
      obtain ⟨heffects, htext⟩ := Prod.mk.inj (Option.some.inj hruntime)
      obtain ⟨hnul, hlen⟩ := hseen handled.seen (happ.symm)
      obtain ⟨hreply, hreply'⟩ := reply_alike o.app app o.runtime host hnames rfl rfl
        call.serviceName (nul_notMem_readRequestId payload) (readRequestId_length_lt payload) hnul
        (hlen.trans hroom)
      refine .some ⟨hnames, hhandler, ?_, ?_, ?_⟩
      · exact congrArg Effects.ide heffects.symm
      · exact hkeeps _ _ _ _ _ hclient hy
      · have hposts := hnames ▸ (posts_topic o app host handled.effects.posted).1
        have hposts' := (posts_topic o app host handled'.effects.posted).2
        have htext' : handled'.response.text = handled.seen.2 := htext
        have hseen' : handled.response.text = handled.seen.2 := rfl
        dsimp only [finishEntry]
        rw [htext', hseen', hreply, hreply',
          repliesTo_append host.names call.serviceName _ hposts,
          repliesTo_append host.names call.serviceName _ hposts']

/-- A request that both hosts hand to a manager for the connected client only. -/
theorem guarded_rel {manager : ManagerHandler} {paramsSize : ℕ} (call : LibCall)
    (operation event : Bytes) {initial rejected : Bytes}
    (halike : AnswersAlike manager 1024 host.ide) (hkeeps : KeepsClient manager)
    (hinitial : initial.length ≤ 1024)
    (hparams : Extract.value? (jsonGetObject payload (ascii "params")) paramsSize = some params)
    (hrejected : rejected = snprintf 256
      (operation ++ ascii " rejected, clientId is not the active IDE connection"))
    (hshort : rejected.length < 200)
    (hentry : call.run o.runtime.lib (some host.ide) (some params) (.array runtimeResponse) =
      guardedEntry o.managers.granted (some host.ide) (some params) (.array runtimeResponse)
        operation event manager) :
    Option.Rel (SameAfter host.names call.serviceName)
      (appHandleGuarded o.app app call.serviceName paramsSize 1024 initial rejected manager
        (readRequestId payload) payload)
      (runtimeCallLibrary o.runtime host call call.serviceName (readRequestId payload)
        params) := by
  rw [appHandleGuarded, hparams]
  simp only [hide]
  by_cases hcheck : checkActiveClient host.ide.ideManager params = true
  · rw [if_pos hcheck]
    refine managed_rel hnames hhandler hide hclient call event halike hkeeps le_rfl hinitial
      hparams ?_
    rw [hentry, guardedEntry]
    simp only [libiotIdeCheckActiveClient, if_pos hcheck]
    rfl
  · have happ : cstr (appBuildSimpleResultJson rejected (initBuffer 1024 initial)).2 =
        resultSeen false rejected := by
      have hbuffer : (initBuffer 1024 initial).length = 1024 := initBuffer_length hinitial
      exact (rejection_seen hshort (by omega)).1
    have hlib : (libiotIdeWriteJson rejected (.array runtimeResponse)).2.text =
        resultSeen false rejected :=
      (rejection_seen hshort (by rw [runtimeResponse_length]; omega)).2
    have hnul : 0 ∉ resultSeen false rejected := nul_notMem_cstr _
    have hlen : (resultSeen false rejected).length ≤ 1024 := by
      have h₁ := resultSeen_length_le false rejected
      have h₂ := escape_length_le rejected
      omega
    obtain ⟨hreply, hreply'⟩ := reply_alike o.app app o.runtime host hnames rfl rfl
      call.serviceName (nul_notMem_readRequestId payload) (readRequestId_length_lt payload) hnul
      hlen
    rw [if_neg hcheck, runtimeCallLibrary, hentry, guardedEntry]
    simp only [libiotIdeCheckActiveClient, if_neg hcheck, ← hrejected]
    rw [if_pos (by decide)]
    refine .some ⟨hnames, hhandler, hide, hclient, ?_⟩
    dsimp only [appAnswer, earlyReturn]
    rw [happ, hlib, hreply, hreply']
    rfl

/-- A message whose parameters fit the array of the standalone program. -/
theorem message_rel (call : LibCall)
    (hfits : (HostEvent.message call payload o).FitsApp) :
    Option.Rel (SameAfter host.names call.serviceName)
      (appDispatchService o.app app (serviceTopic app.names.productKey app.names.deviceName
        call.serviceName) payload)
      (gatewayHandleService o.runtime host (serviceTopic host.names.productKey
        host.names.deviceName call.serviceName) payload) := by
  obtain ⟨params, hparams⟩ := Option.isSome_iff_exists.1 hfits
  have hparams' : Extract.value? (jsonGetObject payload (ascii "params")) 8192 = some params :=
    value?_jsonGetObject_mono (by cases call <;> decide) hparams
  have hnotReply : isReplyTopic call.serviceName = false := by
    cases call <;> decide
  rw [appDispatchService, gatewayHandleService]
  simp only [DeviceNames.servicePath?_serviceTopic, hnotReply, hhandler, hparams',
    Option.getD_some, if_true, Bool.false_eq_true, if_false]
  rw [appHandleService_call, runtimeOnService_call]
  cases call with
  | requestConnect =>
    exact managed_rel hnames hhandler hide hclient .requestConnect _
      (connectManager_alike hclient) connectManager_keepsClient (by decide) (by decide) hparams rfl
  | requestDisconnect =>
    exact managed_rel hnames hhandler hide hclient .requestDisconnect _
      (disconnectManager_alike hclient) disconnectManager_keepsClient (by decide) (by decide)
      hparams rfl
  | heartbeat =>
    exact managed_rel hnames hhandler hide hclient .heartbeat _
      (heartbeatManager_alike hclient) heartbeatManager_keepsClient (by decide) (by decide)
      hparams rfl
  | deployProject =>
    exact guarded_rel hnames hhandler hide hclient .deployProject (ascii "deploy") _
      deployManager_alike deployManager_keepsClient (by decide) hparams (by decide) (by decide) rfl
  | startProject =>
    exact guarded_rel hnames hhandler hide hclient .startProject (ascii "start") _
      startManager_alike startManager_keepsClient (by decide) hparams (by decide) (by decide) rfl

end Message

/-! ## Runs -/

/-- One event takes hosts with the same managers to hosts with the same managers. -/
theorem step_rel {run : HostRun AppContext} {run' : HostRun RuntimeHost} {event : HostEvent}
    (h : SameIde run run') (hfits : event.FitsApp) :
    Option.Rel SameIde (appMachine.step run event) (runtimeMachine.step run' event) := by
  cases event with
  | message call payload o =>
    have hmessage := message_rel h.names h.handler h.ide h.client call hfits
    simp only [appMachine, runtimeMachine]
    -- the replies of the message go behind the equal ones of before
    cases happ : appDispatchService o.app run.host (serviceTopic run.host.names.productKey
        run.host.names.deviceName call.serviceName) payload <;>
      cases hruntime : gatewayHandleService o.runtime run'.host (serviceTopic
        run'.host.names.productKey run'.host.names.deviceName call.serviceName) payload <;>
      rw [happ, hruntime] at hmessage
    · exact .none
    · cases hmessage
    · cases hmessage
    · cases hmessage with
      | some hafter =>
        refine .some ⟨hafter.names, hafter.handler, hafter.ide, hafter.client, ?_⟩
        rw [h.names, h.replies]
        exact congrArg (run'.replies ++ ·) hafter.replies
  | deployEnds =>
    exact .some { h with ide := congrArg LibIotIde.deployEnds h.ide }
  | heartbeatCheck nowMs =>
    have hclient : (run'.host.ide.heartbeatCheck nowMs).ideManager.currentClientId.length <
        128 := by
      change (IotIde.heartbeatCheck run'.host.ide.ideManager nowMs).1.currentClientId.length < 128
      unfold IotIde.heartbeatCheck
      split_ifs
      · exact Nat.zero_lt_succ _
      · exact h.client
    exact .some { h with
      ide := congrArg (LibIotIde.heartbeatCheck · nowMs) h.ide
      client := hclient }

/-- The answer of the standalone program to a request whose parameters it cannot read. -/
def LibCall.failedText : LibCall → Bytes
  | requestConnect => ascii "\x7b\"success\":0,\"message\":\"requestConnect failed\"\x7d"
  | requestDisconnect => ascii "\x7b\"success\":0,\"message\":\"requestDisconnect failed\"\x7d"
  | heartbeat => ascii "\x7b\"success\":0,\"message\":\"ideHeartbeat failed\"\x7d"
  | deployProject =>
    ascii "\x7b\"success\":0,\"message\":\"deployProject failed\",\"deployLog\":\"\"\x7d"
  | startProject => ascii "\x7b\"success\":0,\"message\":\"startProject failed\"\x7d"

section Unfit

variable (o : AppOutcomes) (app : AppContext) {payload : Bytes} {paramsSize : ℕ}

theorem appHandleManaged_unfit (service initial : Bytes) (responseSize : ℕ)
    (manager : ManagerHandler) (requestId : Bytes)
    (h : Extract.value? (jsonGetObject payload (ascii "params")) paramsSize = none) :
    appHandleManaged o app service paramsSize responseSize initial manager requestId payload =
      some (appAnswer o app service requestId initial) := by
  rw [appHandleManaged, h]

theorem appHandleGuarded_unfit (service initial rejected : Bytes) (responseSize : ℕ)
    (manager : ManagerHandler) (requestId : Bytes)
    (h : Extract.value? (jsonGetObject payload (ascii "params")) paramsSize = none) :
    appHandleGuarded o app service paramsSize responseSize initial rejected manager requestId
      payload = some (appAnswer o app service requestId initial) := by
  rw [appHandleGuarded, h]

theorem appHandleService_unfit {call : LibCall}
    (h : Extract.value? (jsonGetObject payload (ascii "params")) call.appParamsSize = none) :
    appHandleService o app call.serviceName payload =
      some (appAnswer o app call.serviceName (readRequestId payload) call.failedText) := by
  rw [appHandleService_call]
  cases call with
  | requestConnect => exact appHandleManaged_unfit o app _ _ _ _ _ h
  | requestDisconnect => exact appHandleManaged_unfit o app _ _ _ _ _ h
  | heartbeat => exact appHandleManaged_unfit o app _ _ _ _ _ h
  | deployProject => exact appHandleGuarded_unfit o app _ _ _ _ _ _ h
  | startProject => exact appHandleGuarded_unfit o app _ _ _ _ _ _ h

end Unfit

/-- While the parameters of every message fit the arrays of the standalone program, the
hosts keep the same managers and send the same replies.  A message whose parameters do not
fit leaves the standalone program as it was, with a reply that says so. -/
theorem hosts_agree :
    (∀ (events : List HostEvent) (run : HostRun AppContext) (run' : HostRun RuntimeHost),
      SameIde run run' → (∀ event ∈ events, event.FitsApp) →
        Option.Rel SameIde (appMachine.run run events) (runtimeMachine.run run' events)) ∧
    ∀ (call : LibCall) (payload : Bytes) (o : HostOutcomes) (run : HostRun AppContext),
      ¬ (HostEvent.message call payload o).FitsApp →
        appMachine.step run (.message call payload o) = some ⟨run.host, run.replies ++
          [(replyTopic run.host.names.productKey run.host.names.deviceName call.serviceName,
            replyText (readRequestId payload) 200 call.failedText)]⟩ := by
  constructor
  · exact Machine.run_rel fun _ _ _ => step_rel
  · intro call payload o run hunfit
    have hnone : Extract.value? (jsonGetObject payload (ascii "params")) call.appParamsSize =
        none := by
      rwa [HostEvent.FitsApp, Bool.not_eq_true, Option.isSome_eq_false_iff,
        Option.isNone_iff_eq_none] at hunfit
    have hreply := appReplyService_eq o.app run.host rfl call.serviceName
      (nul_notMem_readRequestId payload) (readRequestId_length_lt payload)
      (by cases call <;> decide : 0 ∉ call.failedText) (by cases call <;> decide)
    have honly := repliesTo_append run.host.names call.serviceName
      (replyText (readRequestId payload) 200 call.failedText) (by simp : ∀ message ∈ [], _)
    simp only [appMachine, appDispatchService, DeviceNames.servicePath?_serviceTopic,
      appHandleService_unfit _ _ hnone, Option.map_some, appAnswer, hreply]
    exact congrArg (fun replies => some (HostRun.mk run.host (run.replies ++ replies))) honly

/-- `requestConnect` of a client, from hosts without one. -/
def connectRequest : Bytes :=
  ascii "\x7b\"id\":\"1\",\"params\":\x7b\"clientId\":\"A\"\x7d\x7d"

def calmOutcomes : HostOutcomes := ⟨.smooth 0, 0, fun _ => true⟩

def agreementNames : DeviceNames := .sample

/-- A connect, a heartbeat and a disconnect of the client. -/
theorem hosts_agree_session :
    Option.Rel SameIde
      (appMachine.run ⟨⟨agreementNames, false, .created, 0⟩, []⟩
        [.message .requestConnect connectRequest calmOutcomes,
          .message .heartbeat connectRequest calmOutcomes,
          .message .requestDisconnect connectRequest calmOutcomes])
      (runtimeMachine.run ⟨⟨agreementNames, true, .created⟩, []⟩
        [.message .requestConnect connectRequest calmOutcomes,
          .message .heartbeat connectRequest calmOutcomes,
          .message .requestDisconnect connectRequest calmOutcomes]) := by
  refine hosts_agree.1 _ _ _ ⟨rfl, rfl, rfl, by decide, rfl⟩ ?_
  simp only [List.forall_mem_cons, List.not_mem_nil, false_implies, implies_true, and_true]
  exact ⟨by decide +kernel, by decide +kernel, by decide +kernel⟩

/-- A `requestConnect` without parameters connects a client of the runtime only. -/
theorem connect_without_params :
    let message := HostEvent.message .requestConnect (ascii "\x7b\"id\":\"1\"\x7d") calmOutcomes
    ((appMachine.run ⟨⟨agreementNames, false, .created, 0⟩, []⟩ [message]).map fun run =>
        (run.host.managers.ideManager.connected, run.replies.map Prod.snd)) =
      some (false, [replyText (ascii "1") 200 (LibCall.failedText .requestConnect)]) ∧
    ((runtimeMachine.run ⟨⟨agreementNames, true, .created⟩, []⟩ [message]).map fun run =>
        (run.host.ide.ideManager.connected, run.replies.map Prod.snd)) =
      some (true, [replyText (ascii "1") 200 (resultText true (ascii "connect accepted"))]) := by
  decide +kernel

end IotIde
