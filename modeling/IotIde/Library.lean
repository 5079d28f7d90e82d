import IotIde.Deploy.Manager
import IotIde.Ide.ConnectionManager
import IotIde.Start.Manager

/-!
# `libiot_ide.c`

The entry points of the library.  Each hands a request to a manager and turns the
manager's code into one of its own; two of them first ask whether the client may.

* `Effects` — what a call does besides answering;
* `libiotIdeRequestConnect`, `libiotIdeRequestDisconnect`, `libiotIdeHeartbeat`,
  `libiotIdeDeployProject`, `libiotIdeStartProject` — the entry points;
* `OnlyResponseFails` — a manager whose failure only says that the response could not be
  written, as all five are;
* `library_error_effects` — what an error code of an entry point says about its effects.
-/

namespace IotIde

open CText JsonText

/-! ## Codes and state -/

def LIBIOT_IDE_OK : ℤ := 0
def LIBIOT_IDE_ERR_INVALID_ARGUMENT : ℤ := -1
def LIBIOT_IDE_ERR_INTERNAL : ℤ := -3
def LIBIOT_IDE_ERR_NOT_ACTIVE_CLIENT : ℤ := -4

/-- `LibIotIde`: what its managers guard. -/
structure LibIotIde where
  ideManager : IdeConnectionManager
  deployBusy : Bool
  startBusy : Bool
  deriving DecidableEq

/-- Work that goes on outside the library. -/
inductive Launch
  | deployTask (task : DeployTask)
  | startCommand (command targetPath : Bytes)
  deriving DecidableEq

/-- What a call does besides answering: the state it leaves, the `property.post` events,
and what it launches. -/
structure Effects where
  ide : LibIotIde
  posted : List Bytes
  launched : List Launch
  deriving DecidableEq

/-- How the calls outside the library come out: the clock, the allocations before the
response and for it, the creation of the worker, and the started command. -/
structure LibOutcomes where
  nowMs : ℤ
  alloc : ℕ → Bool
  responseAlloc : ℕ → Bool
  created : Bool
  verdict : StartVerdict

/-- The same, with memory for the response. -/
def LibOutcomes.granted (o : LibOutcomes) : LibOutcomes :=
  { o with responseAlloc := fun _ => true }

/-- The allocations of a handler of the connection manager. -/
def LibOutcomes.ideAlloc (o : LibOutcomes) (i : ℕ) : Bool :=
  if i < 3 then o.alloc i else o.responseAlloc 0

/-! ## The managers -/

/-- What a manager's handler comes to. -/
structure ManagerReturn where
  rc : ℤ
  effects : Effects
  response : ResponseArg

/-- The return of a handler of the connection manager. -/
def ideReturn (ide : LibIotIde) (response : ResponseArg) (handled : Handled) : ManagerReturn :=
  ⟨handled.rc, ⟨{ ide with ideManager := handled.manager }, handled.posted, []⟩,
    response.written handled.response⟩

def connectManager (o : LibOutcomes) (ide : LibIotIde) (params : Bytes)
    (response : ResponseArg) : Option ManagerReturn :=
  some (ideReturn ide response
    (handleRequestConnect o.ideAlloc ide.ideManager params o.nowMs response.array?))

def disconnectManager (o : LibOutcomes) (ide : LibIotIde) (params : Bytes)
    (response : ResponseArg) : Option ManagerReturn :=
  some (ideReturn ide response
    (handleDisconnect o.ideAlloc ide.ideManager params response.array?))

def heartbeatManager (o : LibOutcomes) (ide : LibIotIde) (params : Bytes)
    (response : ResponseArg) : Option ManagerReturn :=
  some (ideReturn ide response
    (handleHeartbeat o.ideAlloc ide.ideManager params o.nowMs response.array?))

/-- `deploy_manager_handle_deploy` -/
def deployManager (o : LibOutcomes) (ide : LibIotIde) (params : Bytes)
    (response : ResponseArg) : Option ManagerReturn :=
  match deployCall o.alloc o.created o.nowMs ide.deployBusy params with
  | none => none
  | some call =>
    let answer := deployBuildResultJson o.responseAlloc call.answer.success call.answer.message []
      response.array?
    some ⟨answer.1,
      ⟨{ ide with deployBusy := call.busy }, call.posted,
        (call.worker.map Launch.deployTask).toList⟩,
      response.written answer.2⟩

/-- `start_manager_handle_start` -/
def startManager (o : LibOutcomes) (ide : LibIotIde) (params : Bytes)
    (response : ResponseArg) : Option ManagerReturn :=
  let call := startCall o.alloc o.verdict ide.startBusy params
  match startBuildResultJson (o.responseAlloc 0) call.success call.message response with
  | none => none
  | some answer =>
    some ⟨answer.1,
      ⟨{ ide with startBusy := call.busy }, [],
        (call.launched.map fun (command, path) => Launch.startCommand command path).toList⟩,
      answer.2⟩

/-! ## The entry points -/

/-- What an entry point comes to: its code, the object behind the handle, what it posted
and launched, the event with its response, and the response argument. -/
structure LibReturn where
  rc : ℤ
  ide : Option LibIotIde
  posted : List Bytes
  launched : List Launch
  event : Option (Bytes × Bytes)
  response : ResponseArg

/-- An entry point that returns before it has called a manager. -/
def earlyReturn (rc : ℤ) (ide : Option LibIotIde) (response : ResponseArg) : LibReturn :=
  ⟨rc, ide, [], [], none, response⟩

/-- The end of an entry point. -/
def finishEntry (event : Bytes) (handled : ManagerReturn) : LibReturn :=
  ⟨if handled.rc = 0 then LIBIOT_IDE_OK else LIBIOT_IDE_ERR_INTERNAL, some handled.effects.ide,
    handled.effects.posted, handled.effects.launched, some (event, handled.response.text),
    handled.response⟩

/-- `libiot_ide_write_json` with `success` 0: its code and the argument. -/
def libiotIdeWriteJson (message : Bytes) (response : ResponseArg) : ℤ × ResponseArg :=
  match response with
  | .null _ => (LIBIOT_IDE_ERR_INVALID_ARGUMENT, response)
  | .array buffer =>
    if buffer.length = 0 then (LIBIOT_IDE_ERR_INVALID_ARGUMENT, response)
    else
      let escaped := jsonEscapeString message (List.replicate 512 0)
      if escaped.rc ≠ 0 then (LIBIOT_IDE_ERR_INTERNAL, response)
      else
        (LIBIOT_IDE_OK,
          .array (formatResponse (resultText false (cstr escaped.out)) buffer).2)

/-- `libiot_ide_check_active_client`, once the arguments are there. -/
def libiotIdeCheckActiveClient (ide : LibIotIde) (params : Bytes) (response : ResponseArg)
    (operation : Bytes) : ℤ × ResponseArg :=
  if checkActiveClient ide.ideManager params then (LIBIOT_IDE_OK, response)
  else
    let message := snprintf 256
      (operation ++ ascii " rejected, clientId is not the active IDE connection")
    (LIBIOT_IDE_ERR_NOT_ACTIVE_CLIENT, (libiotIdeWriteJson message response).2)

/-- `libiot_ide_get_connection_snapshot` -/
def libiotIdeGetConnectionSnapshot (ide : Option LibIotIde) (response : ResponseArg) :
    ℤ × ResponseArg :=
  match ide, response with
  | some object, .array buffer =>
    if buffer.length = 0 then (LIBIOT_IDE_ERR_INVALID_ARGUMENT, response)
    else
      let escaped := jsonEscapeString object.ideManager.currentClientId (initBuffer 256 [])
      if escaped.rc ≠ 0 then (LIBIOT_IDE_ERR_INTERNAL, response)
      else
        let snapshot := ascii "\x7b\"connected\":" ++
          ((if object.ideManager.connected then ascii "1" else ascii "0") ++
            (ascii ",\"clientId\":\"" ++ (cstr escaped.out ++ (ascii "\",\"heartbeatMs\":" ++
              (decimal object.ideManager.lastHeartbeatMs ++ ascii "\x7d")))))
        (LIBIOT_IDE_OK, .array (formatResponse snapshot buffer).2)
  | _, _ => (LIBIOT_IDE_ERR_INVALID_ARGUMENT, response)

section Entries

/-- A manager's handler; `none` stands for undefined behaviour. -/
abbrev ManagerHandler :=
  LibOutcomes → LibIotIde → Bytes → ResponseArg → Option ManagerReturn

variable (o : LibOutcomes) (ide : Option LibIotIde) (params : Option Bytes)
  (response : ResponseArg)

/-- An entry point that leaves the client to its manager. -/
def openEntry (event : Bytes) (manager : ManagerHandler) : Option LibReturn :=
  match ide, params with
  | some object, some text => (manager o object text response).map (finishEntry event)
  | _, _ => some (earlyReturn LIBIOT_IDE_ERR_INVALID_ARGUMENT ide response)

/-- An entry point for the connected client only. -/
def guardedEntry (operation event : Bytes) (manager : ManagerHandler) : Option LibReturn :=
  match ide, params with
  | some object, some text =>
    let check := libiotIdeCheckActiveClient object text response operation
    if check.1 ≠ LIBIOT_IDE_OK then some (earlyReturn check.1 ide check.2)
    else (manager o object text check.2).map (finishEntry event)
  | _, _ => some (earlyReturn LIBIOT_IDE_ERR_INVALID_ARGUMENT ide response)

def libiotIdeRequestConnect : Option LibReturn :=
  openEntry o ide params response (ascii "requestConnect.response") connectManager

def libiotIdeRequestDisconnect : Option LibReturn :=
  openEntry o ide params response (ascii "requestDisconnect.response") disconnectManager

def libiotIdeHeartbeat : Option LibReturn :=
  openEntry o ide params response (ascii "ideHeartbeat.response") heartbeatManager

def libiotIdeDeployProject : Option LibReturn :=
  guardedEntry o ide params response (ascii "deploy") (ascii "deployProject.response")
    deployManager

def libiotIdeStartProject : Option LibReturn :=
  guardedEntry o ide params response (ascii "start") (ascii "startProject.response")
    startManager

/-- The entry points. -/
inductive LibCall
  | requestConnect
  | requestDisconnect
  | heartbeat
  | deployProject
  | startProject
  deriving DecidableEq

/-- A call of an entry point. -/
def LibCall.run : LibCall → Option LibReturn
  | requestConnect => libiotIdeRequestConnect o ide params response
  | requestDisconnect => libiotIdeRequestDisconnect o ide params response
  | heartbeat => libiotIdeHeartbeat o ide params response
  | deployProject => libiotIdeDeployProject o ide params response
  | startProject => libiotIdeStartProject o ide params response

end Entries

/-! ## Only the response fails -/

/-- `2048` bytes hold every response. -/
def RESPONSE_ROOM : ℕ := 2048

/-- A handler that fails only because its response could not be written: whatever came of
that, with memory and room for it the same call succeeds, to the same effects. -/
def OnlyResponseFails (manager : ManagerHandler) : Prop :=
  ∀ (o : LibOutcomes) (ide : LibIotIde) (params : Bytes) (response : ResponseArg)
    (handled : ManagerReturn) (buffer : Bytes),
    manager o ide params response = some handled → RESPONSE_ROOM ≤ buffer.length →
      ∃ handled', manager o.granted ide params (.array buffer) = some handled' ∧
        handled'.rc = 0 ∧ handled'.effects = handled.effects

theorem ide_response_written (success : Bool) {message buffer : Bytes}
    (hmessage : message.length < 256) (hroom : RESPONSE_ROOM ≤ buffer.length) :
    (ideBuildResultJson true success message (some buffer)).1 = 0 := by
  unfold RESPONSE_ROOM at hroom
  exact ideBuildResultJson_of_fits success (by omega)

theorem connectManager_onlyResponseFails : OnlyResponseFails connectManager := by
  intro o ide params response handled buffer h hroom
  cases h
  have hmessage := requestConnectLocked_message_length_lt ide.ideManager (clientIdOf params)
    (clientInfoOf params) o.nowMs
  exact ⟨_, rfl, ide_response_written _ hmessage hroom, rfl⟩

theorem disconnectManager_onlyResponseFails : OnlyResponseFails disconnectManager := by
  intro o ide params response handled buffer h hroom
  cases h
  have hmessage := disconnectLocked_message_length_lt ide.ideManager (clientIdOf params)
  have hwritten := ide_response_written
    (disconnectLocked ide.ideManager (clientIdOf params)).1.success hmessage hroom
  exact ⟨_, rfl, hwritten, rfl⟩

theorem heartbeatManager_onlyResponseFails : OnlyResponseFails heartbeatManager := by
  intro o ide params response handled buffer h hroom
  cases h
  have hmessage := heartbeatLocked_message_length_lt ide.ideManager (clientIdOf params) o.nowMs
  exact ⟨_, rfl, ide_response_written _ hmessage hroom, rfl⟩

theorem deployManager_onlyResponseFails : OnlyResponseFails deployManager := by
  intro o ide params response handled buffer h hroom
  unfold deployManager at h
  cases hcall : deployCall o.alloc o.created o.nowMs ide.deployBusy params with
  | none => rw [hcall] at h; cases h
  | some call =>
    rw [hcall] at h
    cases h
    have hcall' : deployCall o.granted.alloc o.granted.created o.granted.nowMs ide.deployBusy
        params = some call := hcall
    have hmessage := call.answer.message_length_lt
    have hanswer : (deployBuildResultJson o.granted.responseAlloc call.answer.success
        call.answer.message [] (some buffer)).1 = 0 := by
      refine deployBuildResultJson_of_fits _ ?_
      unfold RESPONSE_ROOM at hroom
      rw [List.length_nil]
      omega
    unfold deployManager
    rw [hcall']
    exact ⟨_, rfl, hanswer, rfl⟩

theorem startManager_onlyResponseFails : OnlyResponseFails startManager := by
  intro o ide params response handled buffer h hroom
  unfold startManager at h
  set call := startCall o.alloc o.verdict ide.startBusy params with hcall
  have hmessage : call.message.length < 512 := startCall_message_length_lt _ _ _ _
  have hanswer : ∃ buffer', startBuildResultJson true call.success call.message
      (.array buffer) = some (0, .array buffer') := by
    unfold RESPONSE_ROOM at hroom
    exact startBuildResultJson_of_fits call.success (by omega)
  obtain ⟨buffer', hanswer⟩ := hanswer
  cases hbuilt : startBuildResultJson (o.responseAlloc 0) call.success call.message response with
  | none => simp only [hbuilt] at h; cases h
  | some answer =>
    simp only [hbuilt] at h
    cases h
    refine ⟨⟨0, _, .array buffer'⟩, ?_, rfl, rfl⟩
    unfold startManager
    simp only [LibOutcomes.granted, ← hcall, hanswer]

/-! ## What a code says -/

/-- What the code of a call on `ide` says about its effects; `again` is the same call with
memory for the response and a given array for it. -/
structure CodeTells (ide : Option LibIotIde) (result : LibReturn)
    (again : Bytes → Option LibReturn) : Prop where
  codes : result.rc = LIBIOT_IDE_OK ∨ result.rc = LIBIOT_IDE_ERR_INVALID_ARGUMENT ∨
    result.rc = LIBIOT_IDE_ERR_INTERNAL ∨ result.rc = LIBIOT_IDE_ERR_NOT_ACTIVE_CLIENT
  refused : result.rc = LIBIOT_IDE_ERR_INVALID_ARGUMENT ∨
      result.rc = LIBIOT_IDE_ERR_NOT_ACTIVE_CLIENT →
    result.ide = ide ∧ result.posted = [] ∧ result.launched = []
  internal : result.rc = LIBIOT_IDE_ERR_INTERNAL → ∀ buffer : Bytes,
    RESPONSE_ROOM ≤ buffer.length → ∃ result', again buffer = some result' ∧
      result'.rc = LIBIOT_IDE_OK ∧ result'.ide = result.ide ∧
      result'.posted = result.posted ∧ result'.launched = result.launched

theorem finishEntry_rc (event : Bytes) (handled : ManagerReturn) :
    (finishEntry event handled).rc = LIBIOT_IDE_OK ∨
      (finishEntry event handled).rc = LIBIOT_IDE_ERR_INTERNAL := by
  unfold finishEntry
  by_cases h : handled.rc = 0
  · exact Or.inl (if_pos h)
  · exact Or.inr (if_neg h)

/-- An early return has no effects. -/
theorem codeTells_early {rc : ℤ} {ide : Option LibIotIde} {response : ResponseArg}
    {again : Bytes → Option LibReturn}
    (hrc : rc = LIBIOT_IDE_ERR_INVALID_ARGUMENT ∨ rc = LIBIOT_IDE_ERR_NOT_ACTIVE_CLIENT) :
    CodeTells ide (earlyReturn rc ide response) again where
  codes := by
    rcases hrc with h | h
    · exact Or.inr (Or.inl h)
    · exact Or.inr (Or.inr (Or.inr h))
  refused _ := ⟨rfl, rfl, rfl⟩
  internal h := by
    have h : rc = LIBIOT_IDE_ERR_INTERNAL := h
    rcases hrc with hrc | hrc <;> rw [hrc] at h <;> exact absurd h (by decide)

/-- The return of a manager whose only failure is its response. -/
theorem codeTells_finish {manager : ManagerHandler} (hmanager : OnlyResponseFails manager)
    {o : LibOutcomes} {object : LibIotIde} {text : Bytes} {response : ResponseArg}
    {handled : ManagerReturn} (hhandled : manager o object text response = some handled)
    (event : Bytes) {again : Bytes → Option LibReturn}
    (hagain : ∀ buffer, again buffer =
      (manager o.granted object text (.array buffer)).map (finishEntry event)) :
    CodeTells (some object) (finishEntry event handled) again where
  codes := by
    rcases finishEntry_rc event handled with h | h
    · exact Or.inl h
    · exact Or.inr (Or.inr (Or.inl h))
  refused h := by
    rcases finishEntry_rc event handled with hrc | hrc <;> rw [hrc] at h <;>
      exact absurd h (by decide)
  internal _ buffer hroom := by
    obtain ⟨handled', hsome, hrc, heffects⟩ := hmanager o object text response handled buffer
      hhandled hroom
    refine ⟨finishEntry event handled', ?_, if_pos hrc, ?_, ?_, ?_⟩
    · rw [hagain, hsome, Option.map_some]
    · exact congrArg (fun effects : Effects => some effects.ide) heffects
    · exact congrArg Effects.posted heffects
    · exact congrArg Effects.launched heffects

theorem openEntry_codeTells {manager : ManagerHandler} (hmanager : OnlyResponseFails manager)
    {o : LibOutcomes} {ide : Option LibIotIde} {params : Option Bytes} {response : ResponseArg}
    {event : Bytes} {result : LibReturn}
    (h : openEntry o ide params response event manager = some result) :
    CodeTells ide result fun buffer =>
      openEntry o.granted ide params (.array buffer) event manager := by
  cases ide with
  | none => cases h; exact codeTells_early (Or.inl rfl)
  | some object =>
    cases params with
    | none => cases h; exact codeTells_early (Or.inl rfl)
    | some text =>
      obtain ⟨handled, hhandled, rfl⟩ := Option.map_eq_some_iff.1 h
      exact codeTells_finish hmanager hhandled event fun _ => rfl

theorem guardedEntry_codeTells {manager : ManagerHandler} (hmanager : OnlyResponseFails manager)
    {o : LibOutcomes} {ide : Option LibIotIde} {params : Option Bytes} {response : ResponseArg}
    {operation event : Bytes} {result : LibReturn}
    (h : guardedEntry o ide params response operation event manager = some result) :
    CodeTells ide result fun buffer =>
      guardedEntry o.granted ide params (.array buffer) operation event manager := by
  cases ide with
  | none => cases h; exact codeTells_early (Or.inl rfl)
  | some object =>
    cases params with
    | none => cases h; exact codeTells_early (Or.inl rfl)
    | some text =>
      cases hactive : checkActiveClient object.ideManager text with
      | true =>
        -- the check leaves the response alone
        have hcheck : ∀ response, libiotIdeCheckActiveClient object text response operation =
            (LIBIOT_IDE_OK, response) := fun _ => if_pos hactive
        simp only [guardedEntry, hcheck, ne_eq, not_true, if_false] at h ⊢
        obtain ⟨handled, hhandled, rfl⟩ := Option.map_eq_some_iff.1 h
        exact codeTells_finish hmanager hhandled event fun _ => rfl
      | false =>
        have hrc : (libiotIdeCheckActiveClient object text response operation).1 =
            LIBIOT_IDE_ERR_NOT_ACTIVE_CLIENT := by
          rw [libiotIdeCheckActiveClient, hactive]
          rfl
        simp only [guardedEntry, hrc] at h
        rw [if_pos (by decide)] at h
        cases h
        exact codeTells_early (Or.inr rfl)

/-- A call that returns with a code of its own, before any manager, has no effects.  One
that returns `LIBIOT_IDE_ERR_INTERNAL` has those of the same call with memory and room for
its response, which succeeds. -/
theorem library_error_effects {call : LibCall} {o : LibOutcomes} {ide : Option LibIotIde}
    {params : Option Bytes} {response : ResponseArg} {result : LibReturn}
    (h : call.run o ide params response = some result) :
    CodeTells ide result fun buffer => call.run o.granted ide params (.array buffer) := by
  cases call with
  | requestConnect => exact openEntry_codeTells connectManager_onlyResponseFails h
  | requestDisconnect => exact openEntry_codeTells disconnectManager_onlyResponseFails h
  | heartbeat => exact openEntry_codeTells heartbeatManager_onlyResponseFails h
  | deployProject => exact guardedEntry_codeTells deployManager_onlyResponseFails h
  | startProject => exact guardedEntry_codeTells startManager_onlyResponseFails h

/-! ## One post at most -/

/-- A handler that posts at most one property. -/
def PostsOnce (manager : ManagerHandler) : Prop :=
  ∀ o ide params response handled, manager o ide params response = some handled →
    handled.effects.posted.length ≤ 1

theorem option_toList_length_le {α : Type*} (x : Option α) : x.toList.length ≤ 1 := by
  cases x with
  | none => exact Nat.zero_le _
  | some _ => exact le_refl 1

theorem connectManager_postsOnce : PostsOnce connectManager := by
  intro o ide params response handled h
  cases h
  simp only [ideReturn, handleRequestConnect]
  split_ifs
  · exact option_toList_length_le _
  · exact Nat.zero_le _

theorem disconnectManager_postsOnce : PostsOnce disconnectManager := by
  intro o ide params response handled h
  cases h
  simp only [ideReturn, handleDisconnect]
  split_ifs
  · exact option_toList_length_le _
  · exact Nat.zero_le _

theorem heartbeatManager_postsOnce : PostsOnce heartbeatManager := by
  intro o ide params response handled h
  cases h
  simp only [ideReturn, handleHeartbeat]
  split_ifs
  · exact le_refl 1
  · exact Nat.zero_le _

theorem deployCall_posted_length_le {alloc : ℕ → Bool} {created busy : Bool} {nowMs : ℤ}
    {params : Bytes} {call : DeployCall}
    (h : deployCall alloc created nowMs busy params = some call) : call.posted.length ≤ 1 := by
  unfold deployCall at h
  simp only at h
  split_ifs at h
  · cases h; exact Nat.zero_le _
  · split at h
    · cases h; exact le_refl 1
    · cases h; exact Nat.zero_le _
    · cases h
  all_goals cases h; exact Nat.zero_le _

theorem deployManager_postsOnce : PostsOnce deployManager := by
  intro o ide params response handled h
  unfold deployManager at h
  cases hcall : deployCall o.alloc o.created o.nowMs ide.deployBusy params with
  | none => rw [hcall] at h; cases h
  | some call =>
    rw [hcall] at h
    cases h
    exact deployCall_posted_length_le hcall

theorem startManager_postsOnce : PostsOnce startManager := by
  intro o ide params response handled h
  unfold startManager at h
  simp only at h
  split at h
  · cases h
  · cases h
    exact Nat.zero_le _

/-- A call of the library posts at most one property. -/
theorem LibCall.posted_length_le {call : LibCall} {o : LibOutcomes} {ide : Option LibIotIde}
    {params : Option Bytes} {response : ResponseArg} {result : LibReturn}
    (h : call.run o ide params response = some result) : result.posted.length ≤ 1 := by
  have hopen : ∀ {event manager}, PostsOnce manager →
      openEntry o ide params response event manager = some result →
        result.posted.length ≤ 1 := by
    intro event manager hmanager h
    unfold openEntry at h
    split at h
    · obtain ⟨handled, hhandled, rfl⟩ := Option.map_eq_some_iff.1 h
      exact hmanager _ _ _ _ handled hhandled
    · cases h
      exact Nat.zero_le _
  have hguarded : ∀ {operation event manager}, PostsOnce manager →
      guardedEntry o ide params response operation event manager = some result →
        result.posted.length ≤ 1 := by
    intro operation event manager hmanager h
    unfold guardedEntry at h
    split at h
    · simp only at h
      split_ifs at h
      · cases h
        exact Nat.zero_le _
      · obtain ⟨handled, hhandled, rfl⟩ := Option.map_eq_some_iff.1 h
        exact hmanager _ _ _ _ handled hhandled
    · cases h
      exact Nat.zero_le _
  cases call with
  | requestConnect => exact hopen connectManager_postsOnce h
  | requestDisconnect => exact hopen disconnectManager_postsOnce h
  | heartbeat => exact hopen heartbeatManager_postsOnce h
  | deployProject => exact hguarded deployManager_postsOnce h
  | startProject => exact hguarded startManager_postsOnce h

/-! ## A failed connect -/

/-- A runtime as `libiot_ide_create` leaves it. -/
def LibIotIde.created : LibIotIde := ⟨.init, false, false⟩

/-- Outcomes without a failure. -/
def LibOutcomes.smooth (nowMs : ℤ) : LibOutcomes :=
  ⟨nowMs, fun _ => true, fun _ => true, true, ⟨0, true, 0, 1, []⟩⟩

/-- What a failed call left: its code, whether an IDE is connected, how many properties it
posted, and how many commands or tasks it launched. -/
def LibReturn.summary (result : LibReturn) : ℤ × Option Bool × ℕ × ℕ :=
  (result.rc, result.ide.map (·.ideManager.connected), result.posted.length,
    result.launched.length)

/-- A connect without a response array returns an error and holds the lock. -/
theorem failed_connect_connects :
    LibIotIde.created.ideManager.connected = false ∧
      (LibCall.requestConnect.run (.smooth 0) (some .created)
          (some (ascii "\x7b\"clientId\":\"A\"\x7d")) (.null 0)).map LibReturn.summary =
        some (LIBIOT_IDE_ERR_INTERNAL, some true, 1, 0) := by
  decide +kernel

/-- The same call with a response array of eight bytes. -/
theorem library_error_effects_connect :
    ∃ result, LibCall.requestConnect.run (.smooth 0) (some .created)
        (some (ascii "\x7b\"clientId\":\"A\"\x7d")) (.array (List.replicate 8 0)) =
        some result ∧
      CodeTells (some .created) result fun buffer =>
        LibCall.requestConnect.run (LibOutcomes.smooth 0).granted (some .created)
          (some (ascii "\x7b\"clientId\":\"A\"\x7d")) (.array buffer) :=
  ⟨_, rfl, library_error_effects rfl⟩

end IotIde
