import IotIde.Json.Getters
import IotIde.Response
import IotIde.Shell.Background
import IotIde.StringBuilder

/-!
# `start_manager.c`

A start request names a command and the directory to run it in.  The manager runs it with
`start_background_command` and answers with what came of it.

* `StartRequest`, `readStartRequest` — the request;
* `startCall`, `startBuildResultJson` — one call and what it answers;
* `startCall_message_length_lt` — whatever the command wrote, the message fits its array.
-/

namespace IotIde

open CText JsonText

/-- The arrays that a call fills, as the strings they hold. -/
structure StartRequest where
  projectName : Bytes
  deployPath : Bytes
  startCommand : Bytes
  deriving DecidableEq

/-- The part of `start_manager_handle_start` that reads the parameters. -/
def readStartRequest (params : Bytes) : StartRequest where
  projectName := readField (ascii "projectName") 128 (ascii "project") params
  deployPath := readField (ascii "deployPath") 512 (ascii "/tmp/deploy") params
  startCommand := readField (ascii "startCommand") 1024 [] params

/-- `char target_path[768]` -/
def StartRequest.targetPath (request : StartRequest) : Bytes :=
  snprintf 768 (request.deployPath ++ (ascii "/" ++ request.projectName))

/-- The log of a call after `start_background_command`. -/
def startLog (alloc : ℕ → Bool) (request : StartRequest) (verdict : StartVerdict) :
    StringBuilder :=
  let log := (sbInit true 1024).2
  let log := (sbAppendf (alloc 1) log
    (ascii "targetPath=" ++ (request.targetPath ++ [newline]))).2
  let log := (sbAppendf (alloc 2) log
    (ascii "command=" ++ (request.startCommand ++ [newline]))).2
  if verdict.appended = [] then log else (sbAppend (alloc 3) log verdict.appended).2

/-- `success` and `char message[512]` of an answer. -/
def startResult (alloc : ℕ → Bool) (request : StartRequest) : StartAnswer → Bool × Bytes
  | .stillRunning => (false, ascii "another start task is still running")
  | .noLogBuffer => (false, ascii "failed to allocate log buffer")
  | .finished verdict =>
    if verdict.rc = 0 then
      if verdict.startedInBackground then
        (true, snprintf 512 (ascii "service started in background, pid=" ++
          decimal verdict.childPid))
      else (true, ascii "start command finished successfully")
    else
      (false, snprintf 512 (ascii "start failed, exitCode=" ++ (decimal verdict.exitCode ++
        (ascii ", log=" ++ cstr (startLog alloc request verdict).data))))

/-- What a call does before it writes its response: `launched` is the command it gave to
`start_background_command`, with its directory. -/
structure StartCall where
  success : Bool
  message : Bytes
  busy : Bool
  launched : Option (Bytes × Bytes)

/-- `start_manager_handle_start` without its response, while no other thread touches the
manager; `alloc 0` is the allocation of the log and `verdict` what came of the command. -/
def startCall (alloc : ℕ → Bool) (verdict : StartVerdict) (busy : Bool) (params : Bytes) :
    StartCall :=
  let request := readStartRequest params
  if request.startCommand = [] then ⟨false, ascii "startCommand is empty", busy, none⟩
  else if busy then
    let result := startResult alloc request .stillRunning
    ⟨result.1, result.2, busy, none⟩
  else if (sbInit (alloc 0) 1024).1 ≠ 0 then
    let result := startResult alloc request .noLogBuffer
    ⟨result.1, result.2, false, none⟩
  else
    let result := startResult alloc request (.finished verdict)
    ⟨result.1, result.2, false, some (request.startCommand, request.targetPath)⟩

/-- `start_build_result_json`.  It has no check for the null pointer: `snprintf` only
measures when the size is 0 too, and is undefined otherwise (`none`). -/
def startBuildResultJson (allocOk success : Bool) (message : Bytes) (response : ResponseArg) :
    Option (ℤ × ResponseArg) :=
  match escapeAlloc allocOk message with
  | none => some (-1, response)
  | some escaped =>
    match response with
    | .null 0 => some (-1, response)
    | .null (_ + 1) => none
    | .array buffer =>
      let (rc, buffer') := formatResponse (resultText success escaped) buffer
      some (rc, .array buffer')

/-! ## What fits -/

/-- `target_path` is never cut. -/
theorem StartRequest.targetPath_eq (params : Bytes) :
    (readStartRequest params).targetPath = (readStartRequest params).deployPath ++
      (ascii "/" ++ (readStartRequest params).projectName) := by
  have hpath : (readStartRequest params).deployPath.length < 512 :=
    readField_length_lt (by decide) params
  have hname : (readStartRequest params).projectName.length < 128 :=
    readField_length_lt (by decide) params
  have hslash : (ascii "/").length = 1 := by decide
  rw [StartRequest.targetPath, snprintf_of_lt]
  rw [List.length_append, List.length_append]
  omega

theorem startResult_length_lt (alloc : ℕ → Bool) (request : StartRequest) (answer : StartAnswer) :
    (startResult alloc request answer).2.length < 512 := by
  cases answer with
  | stillRunning => exact (by decide : (ascii "another start task is still running").length < 512)
  | noLogBuffer => exact (by decide : (ascii "failed to allocate log buffer").length < 512)
  | finished verdict =>
    simp only [startResult]
    split_ifs with hrc hbg
    · exact snprintf_length_lt _ (by omega)
    · exact (by decide : (ascii "start command finished successfully").length < 512)
    · exact snprintf_length_lt _ (by omega)

theorem startCall_message_length_lt (alloc : ℕ → Bool) (verdict : StartVerdict) (busy : Bool)
    (params : Bytes) : (startCall alloc verdict busy params).message.length < 512 := by
  simp only [startCall]
  split_ifs with hcmd hbusy hlog
  · exact (by decide : (ascii "startCommand is empty").length < 512)
  · exact startResult_length_lt alloc (readStartRequest params) .stillRunning
  · exact startResult_length_lt alloc (readStartRequest params) .noLogBuffer
  · exact startResult_length_lt alloc (readStartRequest params) (.finished verdict)

/-- Whatever the command wrote, the escaped message and the text around it fit 1024
bytes: a message that is cut begins with 30 bytes that are not escaped. -/
theorem escape_startResult_length_le (alloc : ℕ → Bool) (request : StartRequest)
    (answer : StartAnswer) : (escape (startResult alloc request answer).2).length ≤ 992 := by
  cases answer with
  | stillRunning =>
    have hlen : 2 * (ascii "another start task is still running").length ≤ 992 := by decide
    exact (escape_length_le _).trans hlen
  | noLogBuffer =>
    have hlen : 2 * (ascii "failed to allocate log buffer").length ≤ 992 := by decide
    exact (escape_length_le _).trans hlen
  | finished verdict =>
    simp only [startResult]
    split_ifs with hrc hbg
    · have hplain : ∀ b ∈ ascii "service started in background, pid=", replacement b = none := by
        decide +kernel
      have hlen : (ascii "service started in background, pid=").length = 35 := by decide
      have h := escape_snprintf_length_le hplain (decimal verdict.childPid) 512
      exact h.trans (by omega)
    · have hlen : 2 * (ascii "start command finished successfully").length ≤ 992 := by decide
      exact (escape_length_le _).trans hlen
    · set before := ascii "start failed, exitCode=" ++ (decimal verdict.exitCode ++
        ascii ", log=") with hbefore
      have hplain : ∀ b ∈ before, replacement b = none := by
        intro b hb
        rcases List.mem_append.1 hb with hb | hb
        · have hexit : ∀ b ∈ ascii "start failed, exitCode=", replacement b = none := by
            decide +kernel
          exact hexit b hb
        rcases List.mem_append.1 hb with hb | hb
        · exact replacement_of_mem_decimal hb
        · exact (by decide +kernel : ∀ b ∈ ascii ", log=", replacement b = none) b hb
      have hlen : 30 ≤ before.length := by
        have h₁ : (ascii "start failed, exitCode=").length = 23 := by decide
        have h₂ : (ascii ", log=").length = 6 := by decide
        have h₃ := List.length_pos_of_ne_nil (decimal_ne_nil verdict.exitCode)
        simp only [hbefore, List.length_append]
        omega
      have h := escape_snprintf_length_le hplain (cstr (startLog alloc request verdict).data) 512
      simp only [hbefore, List.append_assoc] at h hlen ⊢
      exact h.trans (by omega)

theorem escape_startCall_message_length_le (alloc : ℕ → Bool) (verdict : StartVerdict)
    (busy : Bool) (params : Bytes) :
    (escape (startCall alloc verdict busy params).message).length ≤ 992 := by
  simp only [startCall]
  split_ifs with hcmd hbusy hlog
  · exact (escape_length_le _).trans (by decide : 2 * (ascii "startCommand is empty").length ≤ 992)
  · exact escape_startResult_length_le alloc (readStartRequest params) .stillRunning
  · exact escape_startResult_length_le alloc (readStartRequest params) .noLogBuffer
  · exact escape_startResult_length_le alloc (readStartRequest params) (.finished verdict)

/-- With memory and room a response is written. -/
theorem startBuildResultJson_of_fits (success : Bool) {message buffer : Bytes}
    (h : 2 * message.length + 26 < buffer.length) :
    ∃ buffer', startBuildResultJson true success message (.array buffer) =
      some (0, .array buffer') := by
  obtain ⟨escaped, hescaped, hlen⟩ := escapeAlloc_length_le message
  have hfits : (formatResponse (resultText success escaped) buffer).1 = 0 :=
    formatResponse_of_fits (by rw [resultText_length]; omega)
  simp only [startBuildResultJson, hescaped]
  exact ⟨_, congrArg (fun rc => some (rc, _)) hfits⟩

end IotIde
