import IotIde.Host.App
import IotIde.Json.Literals

/-!
# What the responses say

Each service is answered with a code and a message, formatted into an array of its host.
The texts come from the request, from the client that holds the lock and from the log of a
command, so that anything may have to be escaped.

* `Tells` — a text gives a code and a message to the getters;
* `LibCall.message`, `LibCall.Accepted` — the message of an entry point, and what it means that
  it accepted its request;
* `Answers` — what each of the five handlers does with an array that has room;
* `responses_fit_and_say` — nothing is cut, and the response says what happened.
-/

namespace IotIde

open CText JsonText

/-! ## Texts that say something -/

/-- The getters read the code and the message from the text. -/
structure Tells (text : Bytes) (success : Bool) (message : Bytes) : Prop where
  success : ∀ out : Bytes, 2 ≤ out.length → (jsonGetRawValue text (ascii "success") out).Yields
    (if success then ascii "1" else ascii "0")
  message : ∀ out : Bytes, message.length < out.length →
    (jsonGetString text (ascii "message") out).Yields message

/-- A plain result as a tree, with further members behind the message. -/
def resultDoc (success : Bool) (message : Bytes) (more : Option (Doc .members)) : Doc .value :=
  .object (.moreMembers (keyName "success") (.scalar (decimalScalar (if success then 1 else 0)))
    .none (match more with
      | none => .member (keyName "message") (.string (escapedLit message)) .none
      | some rest => .moreMembers (keyName "message") (.string (escapedLit message)) .none rest))

/-- Whatever stands behind them, the first two members are read. -/
theorem tells_resultDoc (success : Bool) {message : Bytes} (hnul : 0 ∉ message)
    (more : Option (Doc .members)) : Tells (resultDoc success message more).text success message where
  success out hlen := by
    have hout : out ≠ [] := List.ne_nil_of_length_pos (by omega)
    have hread := jsonGetRawValue_doc (show SearchKey (ascii "success") by decide) .none
      (resultDoc success message more) .none hout
    have hfound : firstNamed (ascii "success") (resultDoc success message more).allMembers =
        some (.scalar (decimalScalar (if success then 1 else 0))) := rfl
    have hdigit : (decimalScalar (if success then 1 else 0)).text =
        if success then ascii "1" else ascii "0" := by
      cases success <;> decide
    have hone : (if success then ascii "1" else ascii "0").length = 1 := by cases success <;> rfl
    rw [← doc_text_eq, hfound] at hread
    rw [hread, readRawValue_of_not_string (fun _ h => by cases h), copiedWhole, Doc.text, hdigit,
      if_pos (by omega)]
    refine ⟨rfl, cstr_store_zero ?_⟩
    cases success <;> decide
  message out hlen := by
    have hout : out ≠ [] := List.ne_nil_of_length_pos (by omega)
    have hread := jsonGetString_doc (show SearchKey (ascii "message") by decide) .none
      (resultDoc success message more) .none hout
    have hfound : firstNamed (ascii "message") (resultDoc success message more).allMembers =
        some (.string (escapedLit message)) := by cases more <;> rfl
    rw [← doc_text_eq, hfound, readString, escapedLit, decode_escape, copied, if_pos hlen] at hread
    rw [hread]
    exact ⟨rfl, cstr_store_zero hnul⟩

theorem resultDoc_text (success : Bool) (message : Bytes) :
    (resultDoc success message none).text = resultText success (escape message) := by
  have hdigit : (decimalScalar (if success then 1 else 0)).text =
      if success then ascii "1" else ascii "0" := by
    cases success <;> decide
  simp only [resultDoc, Doc.text, StrLit.text, escapedLit, List.append_assoc, List.cons_append,
    List.nil_append, Ws.none, keyName, Name.text, Name.bare, hdigit, resultText]
  rfl

/-- `"deployLog":""` -/
def emptyLog : Doc .members := .member (keyName "deployLog") (.string (escapedLit [])) .none

theorem resultDoc_deployText (success : Bool) (message : Bytes) :
    (resultDoc success message (some emptyLog)).text =
      deployResultText success (escape message) [] := by
  have hdigit : (decimalScalar (if success then 1 else 0)).text =
      if success then ascii "1" else ascii "0" := by
    cases success <;> decide
  simp only [resultDoc, emptyLog, Doc.text, StrLit.text, escapedLit, List.append_assoc,
    List.cons_append, List.nil_append, Ws.none, keyName, Name.text, Name.bare, hdigit,
    deployResultText]
  rfl

theorem tells_resultText (success : Bool) {message : Bytes} (hnul : 0 ∉ message) :
    Tells (resultText success (escape message)) success message :=
  resultDoc_text success message ▸ tells_resultDoc success hnul none

theorem tells_deployResultText (success : Bool) {message : Bytes} (hnul : 0 ∉ message) :
    Tells (deployResultText success (escape message) []) success message :=
  resultDoc_deployText success message ▸ tells_resultDoc success hnul (some emptyLog)

theorem nul_notMem_resultText (success : Bool) {message : Bytes} (hnul : 0 ∉ message) :
    0 ∉ resultText success (escape message) := by
  have hdigit : 0 ∉ (if success then ascii "1" else ascii "0") := by cases success <;> decide
  simp only [resultText, List.mem_append, not_or]
  exact ⟨by decide, hdigit, by decide, nul_notMem_escape hnul, by decide⟩

theorem nul_notMem_deployResultText (success : Bool) {message : Bytes} (hnul : 0 ∉ message) :
    0 ∉ deployResultText success (escape message) [] := by
  have hdigit : 0 ∉ (if success then ascii "1" else ascii "0") := by cases success <;> decide
  simp only [deployResultText, List.mem_append, not_or]
  exact ⟨by decide, hdigit, by decide, nul_notMem_escape hnul, by decide, List.not_mem_nil,
    by decide⟩

/-! ## The entry points -/

/-- What `start_background_command` can come to: nothing was started, or the supervisor
reported something. -/
def StartVerdict.Possible (verdict : StartVerdict) : Prop :=
  verdict = notStarted ∨ ∃ buffer, verdict = startVerdict buffer

/-- The command was started in the background, or finished with code 0. -/
def StartVerdict.WentWell (verdict : StartVerdict) : Prop :=
  verdict.startedInBackground = true ∨ verdict.exitCode = 0

theorem StartVerdict.Possible.rc_iff {verdict : StartVerdict} (h : verdict.Possible) :
    verdict.rc = 0 ↔ verdict.WentWell := by
  rcases h with rfl | ⟨buffer, rfl⟩
  · simp [notStarted, StartVerdict.WentWell]
  · unfold startVerdict StartVerdict.WentWell
    split_ifs with hstarted hexit
    · exact iff_of_true rfl (Or.inl rfl)
    · by_cases hcode : atoi (buffer.drop 5) = 0
      · simp [hcode]
      · simp [hcode]
    · simp

/-- Every allocation succeeds; the clock, the worker and the command are what they are. -/
structure LibOutcomes.Granted (o : LibOutcomes) : Prop where
  alloc : o.alloc = fun _ => true
  responseAlloc : o.responseAlloc = fun _ => true

namespace LibCall

/-- The handler behind an entry point. -/
def manager : LibCall → ManagerHandler
  | requestConnect => connectManager
  | requestDisconnect => disconnectManager
  | heartbeat => heartbeatManager
  | deployProject => deployManager
  | startProject => startManager

/-- The array that `iot_ide_app.c` has for the response; that of `iec_runtime` has 8192 bytes
for all of them. -/
def room : LibCall → ℕ
  | requestConnect => 512
  | requestDisconnect => 512
  | heartbeat => 512
  | deployProject => 1024
  | startProject => 1024

/-- The operation of an entry point that is for the connected client only. -/
def operation? : LibCall → Option Bytes
  | deployProject => some (ascii "deploy")
  | startProject => some (ascii "start")
  | _ => none

variable (o : LibOutcomes) (ide : LibIotIde) (params : Bytes)

/-- The message for a client that the entry point does not let through to its manager. -/
def refusal? (call : LibCall) : Option Bytes :=
  if checkActiveClient ide.ideManager params then none
  else call.operation?.map fun operation =>
    snprintf 256 (operation ++ ascii " rejected, clientId is not the active IDE connection")

/-- What the manager's handler has in `message` when it builds its response. -/
def handlerMessage : LibCall → Bytes
  | requestConnect => (requestConnectLocked ide.ideManager (clientIdOf params)
      (clientInfoOf params) o.nowMs).message
  | requestDisconnect => (disconnectLocked ide.ideManager (clientIdOf params)).1.message
  | heartbeat => (heartbeatLocked ide.ideManager (clientIdOf params) o.nowMs).message
  | deployProject =>
    ((deployCall o.alloc o.created o.nowMs ide.deployBusy params).map fun call =>
      call.answer.message).getD []
  | startProject => (startCall o.alloc o.verdict ide.startBusy params).message

def message (call : LibCall) : Bytes :=
  (call.refusal? ide params).getD (call.handlerMessage o ide params)

/-- The whole text of a handler's response. -/
def handlerText (success : Bool) : LibCall → Bytes
  | deployProject =>
    deployResultText success (escape (handlerMessage o ide params deployProject)) []
  | call => resultText success (escape (handlerMessage o ide params call))

/-- The whole text of a response. -/
def responseText (success : Bool) (call : LibCall) : Bytes :=
  ((call.refusal? ide params).map fun message => resultText success (escape message)).getD
    (call.handlerText o ide params success)

/-- The request was accepted: the caller holds the lock, the lock is free, the heartbeat is
stored, a deploy task was started, or a command was launched and went well. -/
def Accepted (after : LibIotIde) (launched : List Launch) : LibCall → Prop
  | requestConnect => after.ideManager.connected = true ∧
      after.ideManager.currentClientId = clientIdOf params
  | requestDisconnect => after.ideManager.connected = false
  | heartbeat => ide.ideManager.connected = true ∧
      ide.ideManager.currentClientId = clientIdOf params ∧
      after.ideManager = { ide.ideManager with lastHeartbeatMs := o.nowMs }
  | deployProject => ∃ task, launched = [.deployTask task]
  | startProject => (∃ command path, launched = [.startCommand command path]) ∧
      o.verdict.WentWell

end LibCall

/-! ## The handlers -/

/-- What a handler does with an array that has room: it succeeds, the array holds a text that
is not cut, with the code that says whether the request was accepted. -/
structure Answers (call : LibCall) (o : LibOutcomes) (ide : LibIotIde) (params : Bytes)
    (handled : ManagerReturn) (success : Bool) : Prop where
  rc : handled.rc = 0
  text : handled.response.text = call.handlerText o ide params success
  accepted : success = true ↔
    call.Accepted o ide params handled.effects.ide handled.effects.launched
  nul : 0 ∉ call.handlerMessage o ide params

theorem nul_notMem_ascii_append_snprintf {size : ℕ} {head text : Bytes} (hhead : 0 ∉ head)
    (htext : 0 ∉ text) : 0 ∉ snprintf size (head ++ text) :=
  nul_notMem_snprintf (List.not_mem_append hhead htext)

section Handlers

variable {o : LibOutcomes} (halloc : o.Granted) {ide : LibIotIde}
  (hid : 0 ∉ ide.ideManager.currentClientId) (hlen : ide.ideManager.currentClientId.length < 128)
  (params : Bytes) {buffer : Bytes}

include halloc in
/-- A handler of the connection manager, as far as its message is short. -/
theorem ideReturn_answers {call : LibCall} {locked : Locked} (posted : List Bytes)
    (hmessage : locked.message.length ≤ 165) (hnul : 0 ∉ locked.message)
    (hroom : 512 ≤ buffer.length)
    (heq : call.handlerMessage o ide params = locked.message)
    (htext : call.handlerText o ide params locked.success =
      resultText locked.success (escape locked.message))
    (haccepted : locked.success = true ↔
      call.Accepted o ide params { ide with ideManager := locked.manager } []) :
    Answers call o ide params (ideReturn ide (.array buffer)
      ⟨(ideBuildResultJson (o.ideAlloc 3) locked.success locked.message (some buffer)).1,
        locked.manager, posted,
        (ideBuildResultJson (o.ideAlloc 3) locked.success locked.message (some buffer)).2⟩)
      locked.success := by
  have hesc := escape_length_le locked.message
  have hfits : (resultText locked.success (escape locked.message)).length < buffer.length := by
    rw [resultText_length]
    omega
  have hgranted : o.ideAlloc 3 = true := by
    rw [LibOutcomes.ideAlloc, if_neg (by decide), halloc.responseAlloc]
  have hbuild : ideBuildResultJson (o.ideAlloc 3) locked.success locked.message (some buffer) =
      (0, some (formatResponse (resultText locked.success (escape locked.message)) buffer).2) := by
    rw [hgranted]
    simp only [ideBuildResultJson, escapeAlloc_true, cstr_of_nul_free (nul_notMem_escape hnul)]
    rw [if_neg (by omega), formatResponse_of_fits hfits]
  rw [hbuild]
  refine ⟨rfl, ?_, haccepted, heq ▸ hnul⟩
  rw [htext]
  exact (cstr_formatResponse hfits).trans (cstr_of_nul_free (nul_notMem_resultText _ hnul))

include halloc hid hlen

theorem connectManager_answers (hroom : 512 ≤ buffer.length) :
    ∃ handled success, connectManager o ide params (.array buffer) = some handled ∧
      Answers .requestConnect o ide params handled success := by
  have hclient := clientIdOf_length_lt params
  set locked := requestConnectLocked ide.ideManager (clientIdOf params) (clientInfoOf params)
    o.nowMs with hlocked
  have hnul : 0 ∉ locked.message := by
    rw [hlocked]
    unfold requestConnectLocked
    split_ifs
    · exact (by decide : 0 ∉ ascii "connect accepted")
    · exact (by decide : 0 ∉ ascii "reconnect accepted")
    · exact (by decide :
        0 ∉ ascii "previous IDE heartbeat timed out, lock transferred")
    · exact nul_notMem_ascii_append_snprintf (by decide) hid
  have haccepted : locked.success = true ↔ locked.manager.connected = true ∧
      locked.manager.currentClientId = clientIdOf params := by
    rw [hlocked]
    unfold requestConnectLocked
    split_ifs with hfree hsame htimeout
    · exact iff_of_true rfl ⟨rfl, snprintf_of_lt hclient⟩
    · exact iff_of_true rfl ⟨Bool.eq_true_of_not_eq_false hfree, hsame⟩
    · exact iff_of_true rfl ⟨rfl, snprintf_of_lt hclient⟩
    · exact iff_of_false not_false fun h => hsame h.2
  exact ⟨_, _, rfl, ideReturn_answers halloc params _
    (requestConnectLocked_message_length_le hlen _ _ _) hnul hroom rfl rfl haccepted⟩

theorem disconnectManager_answers (hroom : 512 ≤ buffer.length) :
    ∃ handled success, disconnectManager o ide params (.array buffer) = some handled ∧
      Answers .requestDisconnect o ide params handled success := by
  set locked := (disconnectLocked ide.ideManager (clientIdOf params)).1 with hlocked
  have hnul : 0 ∉ locked.message := by
    rw [hlocked]
    unfold disconnectLocked
    split_ifs
    · exact (by decide : 0 ∉ ascii "no active IDE connection")
    · exact nul_notMem_ascii_append_snprintf (by decide) hid
    · exact (by decide : 0 ∉ ascii "disconnect accepted")
  have haccepted : locked.success = true ↔ locked.manager.connected = false := by
    rw [hlocked]
    unfold disconnectLocked
    split_ifs with hfree hother
    · exact iff_of_true rfl hfree
    · exact iff_of_false not_false hfree
    · exact iff_of_true rfl rfl
  exact ⟨_, _, rfl, ideReturn_answers halloc params _
    (disconnectLocked_message_length_le hlen _) hnul hroom rfl rfl haccepted⟩

theorem heartbeatManager_answers (hroom : 512 ≤ buffer.length) :
    ∃ handled success, heartbeatManager o ide params (.array buffer) = some handled ∧
      Answers .heartbeat o ide params handled success := by
  set locked := heartbeatLocked ide.ideManager (clientIdOf params) o.nowMs with hlocked
  have hnul : 0 ∉ locked.message := by
    rw [hlocked]
    unfold heartbeatLocked
    split_ifs
    · exact nul_notMem_ascii_append_snprintf (by decide) hid
    · exact (by decide : 0 ∉ ascii "heartbeat updated")
  have haccepted : locked.success = true ↔ ide.ideManager.connected = true ∧
      ide.ideManager.currentClientId = clientIdOf params ∧
      locked.manager = { ide.ideManager with lastHeartbeatMs := o.nowMs } := by
    rw [hlocked]
    unfold heartbeatLocked
    split_ifs with hno
    · refine iff_of_false not_false ?_
      rintro ⟨hconnected, hsame, -⟩
      rcases hno with hno | hno
      · exact Bool.false_ne_true (hno.symm.trans hconnected)
      · exact hno hsame
    · rw [not_or, not_not] at hno
      exact iff_of_true rfl ⟨Bool.eq_true_of_not_eq_false hno.1, hno.2, rfl⟩
  exact ⟨_, _, rfl, ideReturn_answers halloc params _
    (heartbeatLocked_message_length_le hlen _ _) hnul hroom rfl rfl haccepted⟩

omit hid hlen

/-- With memory a deploy request is answered, and its answer says whether there is a worker. -/
theorem deployCall_granted : ∃ call,
    deployCall o.alloc o.created o.nowMs ide.deployBusy params = some call ∧
      (call.answer.success = true ↔ ∃ task, call.worker = some task) := by
  rw [halloc.alloc]
  unfold deployCall
  rw [if_neg (by decide)]
  split_ifs with hurl hbusy
  · cases hreport : deployReportStatus (fun _ => true) false (ascii "downloadUrl is empty") []
        (readDeployTask params).projectName (readDeployTask params).deployPath o.nowMs with
    | posted text => exact ⟨_, rfl, iff_of_false Bool.false_ne_true (by simp)⟩
    | skipped => exact ⟨_, rfl, iff_of_false Bool.false_ne_true (by simp)⟩
    | undefinedFree => exact absurd hreport (deployReportStatus_defined rfl)
  · exact ⟨_, rfl, iff_of_false Bool.false_ne_true (by simp)⟩
  · exact ⟨_, rfl, iff_of_true rfl ⟨_, rfl⟩⟩
  · exact ⟨_, rfl, iff_of_false Bool.false_ne_true (by simp)⟩

theorem deployManager_answers (hroom : 1024 ≤ buffer.length) :
    ∃ handled success, deployManager o ide params (.array buffer) = some handled ∧
      Answers .deployProject o ide params handled success := by
  obtain ⟨call, hcall, hworker⟩ : ∃ call,
      deployCall o.alloc o.created o.nowMs ide.deployBusy params = some call ∧
        (call.answer.success = true ↔ ∃ task, call.worker = some task) :=
    deployCall_granted halloc params
  have heq : LibCall.handlerMessage o ide params .deployProject = call.answer.message := by
    rw [LibCall.handlerMessage, hcall]
    rfl
  have hnul : 0 ∉ call.answer.message := by
    cases call.answer <;> decide
  have hmessage := call.answer.message_length_lt
  have hesc := escape_length_le call.answer.message
  have hfits : (deployResultText call.answer.success (escape call.answer.message) []).length <
      buffer.length := by
    rw [deployResultText_length, List.length_nil]
    omega
  have hbuild : deployBuildResultJson o.responseAlloc call.answer.success call.answer.message []
      (some buffer) = (0, some (formatResponse (deployResultText call.answer.success
        (escape call.answer.message) []) buffer).2) := by
    have hempty : cstr (escape []) = [] := rfl
    rw [halloc.responseAlloc]
    simp only [deployBuildResultJson, escapeAlloc_true, cstr_of_nul_free (nul_notMem_escape hnul),
      hempty]
    rw [if_neg (by omega), formatResponse_of_fits hfits]
  refine ⟨_, call.answer.success, by rw [deployManager, hcall], ?_, ?_, ?_, heq ▸ hnul⟩
  · simp only [ResponseArg.array?, hbuild]
  · simp only [ResponseArg.array?, hbuild, ResponseArg.written, ResponseArg.text,
      cstr_formatResponse hfits, cstr_of_nul_free (nul_notMem_deployResultText _ hnul),
      LibCall.handlerText, heq]
  · rw [hworker, LibCall.Accepted]
    cases call.worker <;> simp

/-- With memory a start request is answered, and its answer says whether a command was
launched and went well. -/
theorem startCall_success (hverdict : o.verdict.Possible) :
    (startCall o.alloc o.verdict ide.startBusy params).success = true ↔
      (startCall o.alloc o.verdict ide.startBusy params).launched.isSome = true ∧
        o.verdict.WentWell := by
  have hlog : (sbInit (o.alloc 0) 1024).1 = 0 := by
    obtain ⟨builder, hinit, -⟩ := sbInit_holds 1024
    rw [halloc.alloc, hinit]
  rw [← hverdict.rc_iff]
  simp only [startCall]
  split_ifs with hcommand hbusy
  · exact iff_of_false not_false fun h => Bool.false_ne_true h.1
  · exact iff_of_false Bool.false_ne_true fun h => Bool.false_ne_true h.1
  · contradiction
  · simp only [startResult]
    split_ifs with hrc hbackground
    · exact iff_of_true rfl ⟨rfl, hrc⟩
    · exact iff_of_true rfl ⟨rfl, hrc⟩
    · exact iff_of_false not_false fun h => hrc h.2

omit halloc in
theorem nul_notMem_startCall_message :
    0 ∉ (startCall o.alloc o.verdict ide.startBusy params).message := by
  simp only [startCall]
  split_ifs with hcommand hbusy
  · exact (by decide : 0 ∉ ascii "startCommand is empty")
  · exact (by decide : 0 ∉ ascii "another start task is still running")
  · exact (by decide : 0 ∉ ascii "failed to allocate log buffer")
  · simp only [startResult]
    split_ifs with hrc hbackground
    · exact nul_notMem_ascii_append_snprintf (by decide) (nul_notMem_decimal _)
    · exact (by decide : 0 ∉ ascii "start command finished successfully")
    · refine nul_notMem_ascii_append_snprintf (by decide) ?_
      simp only [List.mem_append, not_or]
      exact ⟨nul_notMem_decimal _, by decide, nul_notMem_cstr _⟩

theorem startManager_answers (hverdict : o.verdict.Possible) (hroom : 1024 ≤ buffer.length) :
    ∃ handled success, startManager o ide params (.array buffer) = some handled ∧
      Answers .startProject o ide params handled success := by
  have hnul : 0 ∉ (startCall o.alloc o.verdict ide.startBusy params).message :=
    nul_notMem_startCall_message params
  have haccepted : (startCall o.alloc o.verdict ide.startBusy params).success = true ↔
      (startCall o.alloc o.verdict ide.startBusy params).launched.isSome = true ∧
        o.verdict.WentWell := startCall_success halloc params hverdict
  have hesc := escape_startCall_message_length_le o.alloc o.verdict ide.startBusy params
  set call := startCall o.alloc o.verdict ide.startBusy params with hcall
  have hfits : (resultText call.success (escape call.message)).length < buffer.length := by
    rw [resultText_length]
    omega
  have hbuild : startBuildResultJson (o.responseAlloc 0) call.success call.message
      (.array buffer) = some (0, .array (formatResponse (resultText call.success
        (escape call.message)) buffer).2) := by
    rw [halloc.responseAlloc]
    simp only [startBuildResultJson, escapeAlloc_true, cstr_of_nul_free (nul_notMem_escape hnul),
      formatResponse_of_fits hfits]
  refine ⟨_, call.success, by rw [startManager, ← hcall, hbuild], rfl, ?_, ?_, hnul⟩
  · exact (cstr_formatResponse hfits).trans (cstr_of_nul_free (nul_notMem_resultText _ hnul))
  · rw [haccepted, LibCall.Accepted]
    refine and_congr_left fun _ => ?_
    rcases call.launched with - | ⟨command, path⟩ <;> simp

omit halloc in
/-- A handler's text says what its message and its code say. -/
theorem Answers.tells {call : LibCall} {handled : ManagerReturn} {success : Bool}
    (h : Answers call o ide params handled success) :
    Tells handled.response.text success (call.handlerMessage o ide params) := by
  rw [h.text]
  cases call with
  | deployProject => exact tells_deployResultText success h.nul
  | _ => exact tells_resultText success h.nul

include hid hlen in
/-- The handler of every entry point answers in the array that the hosts have for it. -/
theorem LibCall.answers (call : LibCall) (hverdict : o.verdict.Possible)
    (hroom : call.room ≤ buffer.length) :
    ∃ handled success, call.manager o ide params (.array buffer) = some handled ∧
      Answers call o ide params handled success := by
  cases call with
  | requestConnect => exact connectManager_answers halloc hid hlen params hroom
  | requestDisconnect => exact disconnectManager_answers halloc hid hlen params hroom
  | heartbeat => exact heartbeatManager_answers halloc hid hlen params hroom
  | deployProject => exact deployManager_answers halloc params hroom
  | startProject => exact startManager_answers halloc params hverdict hroom

end Handlers

/-! ## The responses -/

section Entries

variable {o : LibOutcomes} {ide : LibIotIde} {params buffer : Bytes}

/-- A refusal is short enough for the buffers of either host. -/
theorem refusal_fits {message : Bytes} (hlen : message.length ≤ 212) (hroom : 512 ≤ buffer.length) :
    (escape message).length + 1 < (List.replicate 512 (0 : UInt8)).length ∧
      (resultText false (escape message)).length < buffer.length := by
  have hescape := escape_length_le message
  rw [List.length_replicate, resultText_length]
  omega

/-- A client that is not let through is told so. -/
theorem checkActiveClient_refused (hactive : checkActiveClient ide.ideManager params = false)
    {operation : Bytes} (hlen : operation.length ≤ 160) (hnul : 0 ∉ operation)
    (hroom : 512 ≤ buffer.length) :
    let message := snprintf 256
      (operation ++ ascii " rejected, clientId is not the active IDE connection")
    ∃ buffer', libiotIdeCheckActiveClient ide params (.array buffer) operation =
        (LIBIOT_IDE_ERR_NOT_ACTIVE_CLIENT, .array buffer') ∧
      cstr buffer' = resultText false (escape message) ∧ 0 ∉ message := by
  intro message
  have hwords : (ascii " rejected, clientId is not the active IDE connection").length = 52 := rfl
  have hmessage : message.length ≤ 212 := by
    refine (snprintf_append_length_le _ _ _).trans ?_
    omega
  have hmessageNul : 0 ∉ message := nul_notMem_ascii_append_snprintf hnul (by decide)
  obtain ⟨hescapedFits, hfits⟩ := refusal_fits hmessage hroom
  have hescaped := jsonEscapeString_of_fits hescapedFits
  refine ⟨(formatResponse (resultText false (escape message)) buffer).2, ?_, ?_, hmessageNul⟩
  · have hwrite : libiotIdeWriteJson message (.array buffer) = (LIBIOT_IDE_OK,
        .array (formatResponse (resultText false (escape message)) buffer).2) := by
      simp only [libiotIdeWriteJson, hescaped, cstr_store_zero (nul_notMem_escape hmessageNul)]
      rw [if_neg (by omega), if_neg (by decide)]
    rw [libiotIdeCheckActiveClient, hactive, if_neg Bool.false_ne_true]
    exact congrArg (LIBIOT_IDE_ERR_NOT_ACTIVE_CLIENT, ·.2) hwrite
  · exact (cstr_formatResponse hfits).trans
      (cstr_of_nul_free (nul_notMem_resultText _ hmessageNul))

/-- The app writes a refusal of its own, in the same words and as whole. -/
theorem appBuildSimpleResultJson_tells {message : Bytes} (hlen : message.length ≤ 212)
    (hnul : 0 ∉ message) (hroom : 512 ≤ buffer.length) :
    (appBuildSimpleResultJson message buffer).1 = 0 ∧
      cstr (appBuildSimpleResultJson message buffer).2 = resultText false (escape message) ∧
      Tells (cstr (appBuildSimpleResultJson message buffer).2) false message := by
  obtain ⟨hescapedFits, hfits⟩ := refusal_fits hlen hroom
  have hwhole : cstr (formatResponse (resultText false (escape message)) buffer).2 =
      resultText false (escape message) :=
    (cstr_formatResponse hfits).trans (cstr_of_nul_free (nul_notMem_resultText _ hnul))
  have hwrite : appBuildSimpleResultJson message buffer =
      (0, (formatResponse (resultText false (escape message)) buffer).2) := by
    simp only [appBuildSimpleResultJson, jsonEscapeString_of_fits hescapedFits,
      cstr_store_zero (nul_notMem_escape hnul)]
    rw [if_neg (by omega), if_neg (by decide)]
  rw [hwrite, hwhole]
  exact ⟨rfl, rfl, tells_resultText false hnul⟩

/-- What an entry point does with an array that has room. -/
structure LibCall.Tells (call : LibCall) (o : LibOutcomes) (ide : LibIotIde) (params : Bytes)
    (result : LibReturn) (after : LibIotIde) (success : Bool) : Prop where
  object : result.ide = some after
  rc : result.rc ≠ LIBIOT_IDE_ERR_INTERNAL
  text : result.response.text = call.responseText o ide params success
  accepted : success = true ↔ call.Accepted o ide params after result.launched
  tells : IotIde.Tells result.response.text success (call.message o ide params)

/-- A client that is let through is answered by the handler. -/
theorem LibCall.tells_of_answers {call : LibCall} {handled : ManagerReturn} {success : Bool}
    (hthrough : call.refusal? ide params = none) (h : Answers call o ide params handled success)
    (event : Bytes) :
    call.Tells o ide params (finishEntry event handled) handled.effects.ide success where
  object := rfl
  rc := by
    rw [finishEntry, if_pos h.rc]
    exact (by decide : LIBIOT_IDE_OK ≠ LIBIOT_IDE_ERR_INTERNAL)
  text := by
    rw [LibCall.responseText, hthrough]
    exact h.text
  accepted := h.accepted
  tells := by
    rw [LibCall.message, hthrough]
    exact h.tells

/-- A client that is not let through is refused. -/
theorem LibCall.tells_refusal {call : LibCall} {message buffer' : Bytes}
    (hrefused : call.refusal? ide params = some message) (hnul : 0 ∉ message)
    (htext : cstr buffer' = resultText false (escape message)) :
    call.Tells o ide params
      (earlyReturn LIBIOT_IDE_ERR_NOT_ACTIVE_CLIENT (some ide) (.array buffer')) ide false where
  object := rfl
  rc := (by decide : LIBIOT_IDE_ERR_NOT_ACTIVE_CLIENT ≠ LIBIOT_IDE_ERR_INTERNAL)
  text := by
    rw [LibCall.responseText, hrefused]
    exact htext
  accepted := by
    refine iff_of_false Bool.false_ne_true ?_
    unfold LibCall.refusal? at hrefused
    split_ifs at hrefused with hactive
    -- only the two guarded entry points refuse, and they have launched nothing
    cases call with
    | requestConnect => cases hrefused
    | requestDisconnect => cases hrefused
    | heartbeat => cases hrefused
    | deployProject =>
      rintro ⟨task, htask⟩
      cases htask
    | startProject =>
      rintro ⟨⟨command, path, hlaunched⟩, -⟩
      cases hlaunched
  tells := by
    rw [LibCall.message, hrefused]
    have htells := tells_resultText false hnul
    rw [← htext] at htells
    exact htells

/-- An entry point for the connected client answers for its manager, or refuses. -/
theorem guardedEntry_tells {call : LibCall} {operation event : Bytes} {manager : ManagerHandler}
    (hoperation : call.operation? = some operation) (hlen : operation.length ≤ 160)
    (hnul : 0 ∉ operation) (hroom : 512 ≤ buffer.length)
    (hmanager : ∃ handled success, manager o ide params (.array buffer) = some handled ∧
      Answers call o ide params handled success) :
    ∃ result after success,
      guardedEntry o (some ide) (some params) (.array buffer) operation event manager =
          some result ∧
        call.Tells o ide params result after success := by
  unfold guardedEntry
  cases hactive : checkActiveClient ide.ideManager params with
  | true =>
    obtain ⟨handled, success, hhandled, hanswers⟩ := hmanager
    have hcheck : libiotIdeCheckActiveClient ide params (.array buffer) operation =
        (LIBIOT_IDE_OK, .array buffer) := if_pos hactive
    have hthrough : call.refusal? ide params = none := if_pos hactive
    simp only [hcheck, ne_eq, not_true, if_false, hhandled, Option.map_some]
    exact ⟨_, _, success, rfl, LibCall.tells_of_answers hthrough hanswers event⟩
  | false =>
    obtain ⟨buffer', hcheck, htext, hmessage⟩ :=
      checkActiveClient_refused hactive hlen hnul hroom
    have hrefused : call.refusal? ide params = some (snprintf 256
        (operation ++ ascii " rejected, clientId is not the active IDE connection")) := by
      rw [LibCall.refusal?, hactive, if_neg Bool.false_ne_true, hoperation]
      rfl
    have hcode : LIBIOT_IDE_ERR_NOT_ACTIVE_CLIENT ≠ LIBIOT_IDE_OK := by decide
    simp only [hcheck, ne_eq, hcode, not_false_iff, if_true]
    exact ⟨_, _, false, rfl, LibCall.tells_refusal hrefused hmessage htext⟩

end Entries

/-- There are two refusals. -/
theorem LibCall.refusal?_eq {call : LibCall} {ide : LibIotIde} {params rejected : Bytes}
    (h : call.refusal? ide params = some rejected) :
    rejected = ascii "deploy rejected, clientId is not the active IDE connection" ∨
      rejected = ascii "start rejected, clientId is not the active IDE connection" := by
  unfold LibCall.refusal? at h
  split_ifs at h
  obtain ⟨operation, hoperation, rfl⟩ := Option.map_eq_some_iff.1 h
  cases call with
  | deployProject =>
    cases hoperation
    exact Or.inl (by decide)
  | startProject =>
    cases hoperation
    exact Or.inr (by decide)
  | _ => cases hoperation

/-- **Responses fit and say what happened.**  With memory, and an array of the size that the
hosts have, no entry point fails to format its response: whatever the parameters, the state and
the command, the text is whole, `success` is read as 1 exactly when the request was accepted,
and `message` is read as it was written.  The app, which asks for the client itself, writes the
same refusal into its own array. -/
theorem responses_fit_and_say (call : LibCall) (o : LibOutcomes) (halloc : o.Granted)
    (hverdict : o.verdict.Possible) (ide : LibIotIde) (hid : 0 ∉ ide.ideManager.currentClientId)
    (hlen : ide.ideManager.currentClientId.length < 128) (params buffer : Bytes)
    (hroom : call.room ≤ buffer.length) :
    (∃ result after success, call.run o (some ide) (some params) (.array buffer) = some result ∧
      call.Tells o ide params result after success) ∧
    ∀ rejected, call.refusal? ide params = some rejected →
      (appBuildSimpleResultJson rejected buffer).1 = 0 ∧
      cstr (appBuildSimpleResultJson rejected buffer).2 = resultText false (escape rejected) ∧
      IotIde.Tells (cstr (appBuildSimpleResultJson rejected buffer).2) false rejected := by
  have hroom' : 512 ≤ buffer.length := le_trans (by cases call <;> decide) hroom
  refine ⟨?_, fun rejected hrefused => by
    rcases LibCall.refusal?_eq hrefused with rfl | rfl
    · exact appBuildSimpleResultJson_tells (by decide) (by decide) hroom'
    · exact appBuildSimpleResultJson_tells (by decide) (by decide) hroom'⟩
  have hmanager := call.answers halloc hid hlen params hverdict hroom
  have hopen : ∀ {event : Bytes}, call.operation? = none →
      ∃ result after success,
        openEntry o (some ide) (some params) (.array buffer) event call.manager = some result ∧
          call.Tells o ide params result after success := by
    intro event hoperation
    obtain ⟨handled, success, hhandled, hanswers⟩ := hmanager
    have hthrough : call.refusal? ide params = none := by
      rw [LibCall.refusal?, hoperation, Option.map_none, ite_self]
    refine ⟨_, _, success, ?_, LibCall.tells_of_answers hthrough hanswers event⟩
    rw [openEntry, hhandled, Option.map_some]
  cases call with
  | requestConnect => exact hopen rfl
  | requestDisconnect => exact hopen rfl
  | heartbeat => exact hopen rfl
  | deployProject => exact guardedEntry_tells rfl (by decide) (by decide) hroom' hmanager
  | startProject => exact guardedEntry_tells rfl (by decide) (by decide) hroom' hmanager

/-- The connection of `a"b`, whose name has to be escaped. -/
def heldByQuoted : LibIotIde := ⟨⟨true, ascii "a\"b", [], 0⟩, false, false⟩

/-- A second client asks for the connection, and for a deploy. -/
theorem responses_fit_and_say_occupied :
    (∃ result after success, LibCall.run ⟨0, fun _ => true, fun _ => true, true, notStarted⟩
        (some heldByQuoted) (some (ascii "\x7b\"clientId\":\"c\"\x7d"))
        (.array (List.replicate 512 0)) .requestConnect = some result ∧
      LibCall.Tells .requestConnect ⟨0, fun _ => true, fun _ => true, true, notStarted⟩
        heldByQuoted (ascii "\x7b\"clientId\":\"c\"\x7d") result after success) ∧
    Tells (cstr (appBuildSimpleResultJson
        (ascii "deploy rejected, clientId is not the active IDE connection")
        (List.replicate 1024 0)).2) false
      (ascii "deploy rejected, clientId is not the active IDE connection") := by
  constructor
  · exact (responses_fit_and_say .requestConnect _ ⟨rfl, rfl⟩ (Or.inl rfl) heldByQuoted (by decide)
      (by decide) _ _ (List.length_replicate.symm.le)).1
  · have hrefused : LibCall.deployProject.refusal? heldByQuoted
        (ascii "\x7b\"clientId\":\"c\"\x7d") =
          some (ascii "deploy rejected, clientId is not the active IDE connection") := by
      decide +kernel
    have hsaid := (responses_fit_and_say .deployProject
      ⟨0, fun _ => true, fun _ => true, true, notStarted⟩ ⟨rfl, rfl⟩ (Or.inl rfl) heldByQuoted
      (by decide) (by decide) (ascii "\x7b\"clientId\":\"c\"\x7d") (List.replicate 1024 0)
      (List.length_replicate.symm.le)).2
    exact (hsaid _ hrefused).2.2

end IotIde
