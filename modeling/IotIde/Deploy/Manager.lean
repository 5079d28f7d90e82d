import IotIde.Deploy.Report
import IotIde.Foundation.Runs
import IotIde.Response
import IotIde.Shell.Quote

/-!
# `deploy_manager.c`

A deploy request becomes a task that a worker thread carries out: it fetches an archive,
puts it in place of the project directory and runs a command.  A manager has one
worker at a time, by its `busy` flag.

* `DeployTask`, `readDeployTask` — the request;
* `DeployJob`, `stepJob` — a call of `deploy_manager_handle_deploy` and the worker it
  starts, cut where another thread can come between;
* `deployMachine` — any number of calls, their workers, and `deploy_manager_cleanup`;
* `deployCall`, `deployBuildResultJson` — one call by itself, and what it answers.
-/

namespace IotIde

open CText JsonText Runs

/-- `PATH_MAX` -/
def PATH_MAX : ℕ := 4096

/-! ## The request -/

/-- `DeployTask`, the arrays as the strings they hold. -/
structure DeployTask where
  projectName : Bytes
  downloadUrl : Bytes
  deployPath : Bytes
  deployCommand : Bytes
  deriving DecidableEq

/-- The part of `deploy_manager_handle_deploy` that fills the task. -/
def readDeployTask (params : Bytes) : DeployTask where
  projectName := readField (ascii "projectName") 128 (ascii "project") params
  downloadUrl := readField (ascii "downloadUrl") 1024 [] params
  deployPath := readField (ascii "deployPath") 512 (ascii "/tmp/deploy") params
  deployCommand := readField (ascii "deployCommand") 1024 [] params

/-- A byte that `deploy_sanitize_name` keeps. -/
def keepsInName (ch : UInt8) : Bool :=
  (97 ≤ ch && ch ≤ 122) || (65 ≤ ch && ch ≤ 90) || isDigit ch || ch == 45 || ch == 95

/-- `deploy_sanitize_name` into an array of `outputSize` bytes. -/
def deploySanitizeName (input : Bytes) (outputSize : ℕ) : Bytes :=
  if input = [] then snprintf outputSize (ascii "project")
  else
    let output := (input.map fun ch => if keepsInName ch then ch else 95).take (outputSize - 1)
    if output = [] then snprintf outputSize (ascii "project") else output

/-- `zip_path` -/
def zipPathOf (task : DeployTask) (nowMs : ℤ) : Bytes :=
  snprintf PATH_MAX (ascii "/tmp/" ++ (deploySanitizeName task.projectName 128 ++ (ascii "-" ++
    (decimal nowMs ++ ascii ".zip"))))

/-- `target_path` -/
def targetPathOf (task : DeployTask) : Bytes :=
  snprintf PATH_MAX (task.deployPath ++ (ascii "/" ++ task.projectName))

/-- The command of `deploy_download_zip`. -/
def downloadCommand (quotedZip quotedUrl : Bytes) : Bytes :=
  snprintf 65536 (ascii "if command -v curl >/dev/null 2>&1; then curl -L --fail -o " ++
    (quotedZip ++ (ascii " " ++ (quotedUrl ++
      (ascii "; elif command -v wget >/dev/null 2>&1; then wget -O " ++
        (quotedZip ++ (ascii " " ++ (quotedUrl ++
          ascii "; else echo 'curl or wget is required for deployProject' >&2; exit 127; fi"))))))))

/-- The command of `deploy_extract_zip`. -/
def extractCommand (quotedZip quotedTarget : Bytes) : Bytes :=
  snprintf 65536 (ascii "if command -v unzip >/dev/null 2>&1; then unzip -oq " ++
    (quotedZip ++ (ascii " -d " ++ (quotedTarget ++
      (ascii "; elif command -v busybox >/dev/null 2>&1; then busybox unzip -o " ++
        (quotedZip ++ (ascii " -d " ++ (quotedTarget ++
          ascii ("; else echo 'unzip or busybox unzip is required for deployProject' >&2; " ++
            "exit 127; fi")))))))))

/-! ## A call and its worker -/

/-- Where the call of `deploy_manager_handle_deploy`, and later the worker it started,
is.  `undefined` stands for a call of `free` on a builder that was never initialised. -/
inductive DeployPc
  | answered
  | locking
  | creating
  | createFailed
  | starting
  | ensuringRoot
  | downloading
  | removingTree
  | ensuringTarget
  | extracting
  | runningCommand
  | reporting (success : Bool) (message : Bytes)
  | clearing
  | returned
  | undefined
  deriving DecidableEq

/-- A call and the worker it started.  `download`, `extract` and `command` are the exit
codes of the commands that ran to their end; `launched` lists the commands with their
working directories, and `posts` what the worker posted. -/
structure DeployJob where
  task : DeployTask
  pc : DeployPc
  log : StringBuilder
  zipPath : Bytes
  targetPath : Bytes
  download : Option ℤ
  extract : Option ℤ
  command : Option ℤ
  launched : List (Bytes × Option Bytes)
  posts : List Bytes

/-- How the calls outside one step came out: `ok` of the one call that decides it,
`targetExists` of `access`, `exit` and `output` of a command that was run (`none` when
it could not be run or did not end in time), `alloc` of the allocations in order. -/
structure DeployOutcome where
  ok : Bool
  targetExists : Bool
  exit : Option ℤ
  output : List Bytes
  alloc : ℕ → Bool
  nowMs : ℤ

/-- What `run_command_capture` appends to its output. -/
def captureOutput (alloc : ℕ → Bool) : StringBuilder → List Bytes → StringBuilder
  | log, [] => log
  | log, chunk :: chunks =>
    captureOutput (fun i => alloc (i + 1)) (sbAppendN (alloc 0) log chunk).2 chunks

/-- A step that fails: a line for the log, and the report to make. -/
def failStep (job : DeployJob) (log : StringBuilder) (allocOk : Bool) (message : Bytes) :
    DeployJob :=
  { job with
    log := (sbAppend allocOk log (message ++ [newline])).2
    pc := .reporting false message }

/-- `deploy_download_zip` and what the worker does with its result. -/
def stepDownload (job : DeployJob) (o : DeployOutcome) : DeployJob :=
  match shellQuote job.task.downloadUrl 2048, shellQuote job.zipPath (PATH_MAX * 2) with
  | some quotedUrl, some quotedZip =>
    let log := (sbAppend (o.alloc 0) job.log (ascii "=== download ===\n")).2
    let log := (sbAppendf (o.alloc 1) log
      (ascii "url=" ++ (job.task.downloadUrl ++ [newline]))).2
    let log := captureOutput (fun i => o.alloc (i + 3)) log o.output
    let job := { job with
      download := o.exit
      launched := job.launched ++ [(downloadCommand quotedZip quotedUrl, none)] }
    if o.exit = some 0 then { job with log := log, pc := .removingTree }
    else failStep job log (o.alloc 2) (ascii "download step failed")
  | _, _ => failStep job job.log (o.alloc 2) (ascii "download step failed")

/-- The worker after its last command. -/
def finishJob (job : DeployJob) (log : StringBuilder) (allocOk : Bool) : DeployJob :=
  { job with
    log := (sbAppend allocOk log (ascii "deploy finished successfully\n")).2
    pc := .reporting true (ascii "deploy success") }

/-- The end of `deploy_extract_zip` and what the worker does with its result. -/
def stepExtract (job : DeployJob) (o : DeployOutcome) : DeployJob :=
  match shellQuote job.zipPath (PATH_MAX * 2), shellQuote job.targetPath (PATH_MAX * 2) with
  | some quotedZip, some quotedTarget =>
    let log := (sbAppend (o.alloc 0) job.log (ascii "=== extract ===\n")).2
    let log := captureOutput (fun i => o.alloc (i + 3)) log o.output
    let job := { job with
      extract := o.exit
      launched := job.launched ++ [(extractCommand quotedZip quotedTarget, none)] }
    if o.exit = some 0 then
      if job.task.deployCommand = [] then finishJob job log (o.alloc 2)
      else { job with log := log, pc := .runningCommand }
    else failStep job log (o.alloc 2) (ascii "extract step failed")
  | _, _ => failStep job job.log (o.alloc 2) (ascii "extract step failed")

/-- The deploy command. -/
def stepCommand (job : DeployJob) (o : DeployOutcome) : DeployJob :=
  let log := (sbAppend (o.alloc 0) job.log (ascii "=== deploy command ===\n")).2
  let log := (sbAppendf (o.alloc 1) log
    (ascii "$ " ++ (job.task.deployCommand ++ [newline]))).2
  let log := captureOutput (fun i => o.alloc (i + 3)) log o.output
  let job := { job with
    command := o.exit
    launched := job.launched ++ [(job.task.deployCommand, some job.targetPath)] }
  if o.exit = some 0 then finishJob job log (o.alloc 2)
  else
    { job with
      log := (sbAppendf (o.alloc 2) log (ascii "deploy command failed, exitCode=" ++
        (decimal (o.exit.getD (-1)) ++ [newline]))).2
      pc := .reporting false (ascii "deploy command failed") }

/-- The first part of `deploy_worker`. -/
def stepStart (job : DeployJob) (o : DeployOutcome) : DeployJob :=
  let (rc, log) := sbInit (o.alloc 0) 2048
  if rc ≠ 0 then { job with pc := .returned }
  else
    let targetPath := targetPathOf job.task
    let log := (sbAppendf (o.alloc 1) log
      (ascii "projectName=" ++ (job.task.projectName ++ [newline]))).2
    let log := (sbAppendf (o.alloc 2) log
      (ascii "deployPath=" ++ (job.task.deployPath ++ [newline]))).2
    let log := (sbAppendf (o.alloc 3) log (ascii "targetPath=" ++ (targetPath ++ [newline]))).2
    { job with
      log := log
      zipPath := zipPathOf job.task o.nowMs
      targetPath := targetPath
      pc := .ensuringRoot }

/-- The call of `deploy_report_status` at the end of the worker. -/
def stepReport (job : DeployJob) (success : Bool) (message : Bytes) (o : DeployOutcome) :
    DeployJob :=
  match deployReportStatus o.alloc success message (cstr job.log.data) job.task.projectName
    job.targetPath o.nowMs with
  | .posted params => { job with posts := job.posts ++ [params], pc := .clearing }
  | .skipped => { job with pc := .clearing }
  | .undefinedFree => { job with pc := .undefined }

/-- One step of a call or of its worker, on the manager's `busy`. -/
def stepJob (busy : Bool) (job : DeployJob) (o : DeployOutcome) : Option (Bool × DeployJob) :=
  match job.pc with
  | .locking =>
    some (if busy then (busy, { job with pc := .answered }) else (true, { job with pc := .creating }))
  | .creating =>
    some (busy, { job with pc := if o.ok then .starting else .createFailed })
  | .createFailed => some (false, { job with pc := .answered })
  | .starting => some (busy, stepStart job o)
  | .ensuringRoot =>
    some (busy, if o.ok then { job with pc := .downloading }
      else failStep job job.log (o.alloc 2) (ascii "failed to create deploy root directory"))
  | .downloading => some (busy, stepDownload job o)
  | .removingTree =>
    some (busy, if o.ok = true ∨ o.targetExists = false then { job with pc := .ensuringTarget }
      else failStep job job.log (o.alloc 2) (ascii "extract step failed"))
  | .ensuringTarget =>
    some (busy, if o.ok then { job with pc := .extracting }
      else failStep job job.log (o.alloc 2) (ascii "extract step failed"))
  | .extracting => some (busy, stepExtract job o)
  | .runningCommand => some (busy, stepCommand job o)
  | .reporting success message => some (busy, stepReport job success message o)
  | .clearing => some (false, { job with pc := .returned })
  | .answered => none
  | .returned => none
  | .undefined => none

/-! ## The manager -/

/-- Where the thread that calls `deploy_manager_cleanup` is. -/
inductive CleanupPc
  | notCalled
  | waiting
  | woken
  | left
  deriving DecidableEq

/-- The manager, every call made so far, and the thread that cleans up. -/
structure DeployState where
  busy : Bool
  jobs : List DeployJob
  cleanup : CleanupPc

/-- What may happen: a call comes in, a call or worker makes a step, or the clean-up
does. -/
inductive DeployStep
  | call (params : Bytes) (taskAlloc : Bool) (o : DeployOutcome)
  | step (job : ℕ) (o : DeployOutcome)
  | cleanup

/-- The call up to its locked section: it ends there without a task or a URL. -/
def startJob (params : Bytes) (taskAlloc : Bool) (o : DeployOutcome) : DeployJob :=
  let task := readDeployTask params
  let job : DeployJob := ⟨task, .answered, ⟨[], 0, 0⟩, [], [], none, none, none, [], []⟩
  if taskAlloc = false then job
  else if task.downloadUrl = [] then
    match deployReportStatus o.alloc false (ascii "downloadUrl is empty") [] task.projectName
      task.deployPath o.nowMs with
    | .posted params => { job with posts := [params] }
    | .skipped => job
    | .undefinedFree => { job with pc := .undefined }
  else { job with pc := .locking }

/-- A call that has not returned yet. -/
def DeployPc.inCall : DeployPc → Bool
  | locking => true
  | creating => true
  | createFailed => true
  | _ => false

/-- One step.  The signal of a clearing worker wakes the clean-up, which is only called
once no call is on its way, and after which there are none. -/
def deployStep (s : DeployState) : DeployStep → Option DeployState
  | .call params taskAlloc o =>
    if s.cleanup = .notCalled then
      some { s with jobs := s.jobs ++ [startJob params taskAlloc o] }
    else none
  | .step i o =>
    match s.jobs[i]? with
    | none => none
    | some job =>
      match stepJob s.busy job o with
      | none => none
      | some (busy, job') =>
        some ⟨busy, s.jobs.set i job',
          if job.pc = .clearing ∧ s.cleanup = .waiting then .woken else s.cleanup⟩
  | .cleanup =>
    match s.cleanup with
    | .notCalled =>
      if s.jobs.all (fun job => !job.pc.inCall) then
        some { s with cleanup := if s.busy then .waiting else .left }
      else none
    | .woken => some { s with cleanup := if s.busy then .waiting else .left }
    | _ => none

/-- The manager from its initialisation on. -/
def deployMachine : Machine DeployState DeployStep where
  init s := s = ⟨false, [], .notCalled⟩
  step := deployStep

/-! ## One call by itself -/

/-- How a call of `deploy_manager_handle_deploy` ends. -/
inductive DeployAnswer
  | noTask
  | emptyUrl
  | stillRunning
  | noWorker
  | received
  deriving DecidableEq

def DeployAnswer.success : DeployAnswer → Bool
  | received => true
  | _ => false

def DeployAnswer.message : DeployAnswer → Bytes
  | noTask => ascii "failed to allocate deploy task"
  | emptyUrl => ascii "downloadUrl is empty"
  | stillRunning => ascii "another deploy task is still running"
  | noWorker => ascii "failed to create deploy worker"
  | received => ascii "deploy task received, executing asynchronously"

/-- What a call does before it writes its response: `worker` is the task of a worker it
started. -/
structure DeployCall where
  answer : DeployAnswer
  busy : Bool
  posted : List Bytes
  worker : Option DeployTask

/-- `deploy_manager_handle_deploy` without its response, while no other thread touches the
manager; `alloc 0` is the task's allocation and `created` the outcome of `pthread_create`.
`none` stands for the undefined `free` in the report of an empty URL. -/
def deployCall (alloc : ℕ → Bool) (created : Bool) (nowMs : ℤ) (busy : Bool) (params : Bytes) :
    Option DeployCall :=
  let task := readDeployTask params
  if alloc 0 = false then some ⟨.noTask, busy, [], none⟩
  else if task.downloadUrl = [] then
    match deployReportStatus (fun i => alloc (i + 1)) false (ascii "downloadUrl is empty") []
      task.projectName task.deployPath nowMs with
    | .posted text => some ⟨.emptyUrl, busy, [text], none⟩
    | .skipped => some ⟨.emptyUrl, busy, [], none⟩
    | .undefinedFree => none
  else if busy then some ⟨.stillRunning, busy, [], none⟩
  else if created then some ⟨.received, true, [], some task⟩
  else some ⟨.noWorker, false, [], none⟩

/-- The text of a deploy result. -/
def deployResultText (success : Bool) (escapedMessage escapedLog : Bytes) : Bytes :=
  ascii "\x7b\"success\":" ++ ((if success then ascii "1" else ascii "0") ++
    (ascii ",\"message\":\"" ++ (escapedMessage ++
      (ascii "\",\"deployLog\":\"" ++ (escapedLog ++ ascii "\"\x7d")))))

/-- `deploy_build_result_json` -/
def deployBuildResultJson (alloc : ℕ → Bool) (success : Bool) (message deployLog : Bytes)
    (response : Option Bytes) : ℤ × Option Bytes :=
  match response with
  | none => (-1, none)
  | some buffer =>
    if buffer.length = 0 then (-1, response)
    else
      match escapeAlloc (alloc 0) message, escapeAlloc (alloc 1) deployLog with
      | some escapedMessage, some escapedLog =>
        let (rc, buffer') :=
          formatResponse (deployResultText success escapedMessage escapedLog) buffer
        (rc, some buffer')
      | _, _ => (-1, response)

theorem deployResultText_length (success : Bool) (escapedMessage escapedLog : Bytes) :
    (deployResultText success escapedMessage escapedLog).length =
      escapedMessage.length + escapedLog.length + 41 := by
  have hdigit : (if success then ascii "1" else ascii "0").length = 1 := by
    cases success <;> rfl
  simp only [deployResultText, List.length_append, hdigit]
  have h₁ : (ascii "\x7b\"success\":").length = 11 := by decide
  have h₂ : (ascii ",\"message\":\"").length = 12 := by decide
  have h₃ : (ascii "\",\"deployLog\":\"").length = 15 := by decide
  have h₄ : (ascii "\"\x7d").length = 2 := by decide
  omega

theorem DeployAnswer.message_length_lt (answer : DeployAnswer) : answer.message.length < 256 := by
  cases answer <;> decide

/-- With memory and room a response is written. -/
theorem deployBuildResultJson_of_fits (success : Bool) {message deployLog buffer : Bytes}
    (h : 2 * message.length + 2 * deployLog.length + 41 < buffer.length) :
    (deployBuildResultJson (fun _ => true) success message deployLog (some buffer)).1 = 0 := by
  obtain ⟨escapedMessage, hmessage, hlen₁⟩ := escapeAlloc_length_le message
  obtain ⟨escapedLog, hlog, hlen₂⟩ := escapeAlloc_length_le deployLog
  simp only [deployBuildResultJson, hmessage, hlog]
  rw [if_neg (by omega)]
  exact formatResponse_of_fits (by rw [deployResultText_length]; omega)

/-! ## The call as a run -/

/-- The steps of the machine that one call makes by itself. -/
def callSteps (alloc : ℕ → Bool) (created : Bool) (nowMs : ℤ) (s : DeployState) (params : Bytes) :
    List DeployStep :=
  let o : DeployOutcome := ⟨created, false, none, [], fun i => alloc (i + 1), nowMs⟩
  let call := DeployStep.call params (alloc 0) o
  if alloc 0 = false ∨ (readDeployTask params).downloadUrl = [] then [call]
  else if s.busy then [call, .step s.jobs.length o]
  else if created then [call, .step s.jobs.length o, .step s.jobs.length o]
  else [call, .step s.jobs.length o, .step s.jobs.length o, .step s.jobs.length o]

/-- A step of the last job. -/
theorem deployStep_last {busy busy' : Bool} (jobs : List DeployJob) {job job' : DeployJob}
    {o : DeployOutcome} (hstep : stepJob busy job o = some (busy', job')) :
    deployStep ⟨busy, jobs ++ [job], .notCalled⟩ (.step jobs.length o) =
      some ⟨busy', jobs ++ [job'], .notCalled⟩ := by
  simp [deployStep, hstep]

/-- A call by itself is a run of the machine: it leaves the flag as `deployCall` says, one
job more, with the posts it made, and that job's worker is about to start if and only if
the call started one. -/
theorem deployCall_run {alloc : ℕ → Bool} {created : Bool} {nowMs : ℤ} {s : DeployState}
    {params : Bytes} {call : DeployCall} (hclean : s.cleanup = .notCalled)
    (hcall : deployCall alloc created nowMs s.busy params = some call) :
    ∃ job, deployMachine.run s (callSteps alloc created nowMs s params) =
        some ⟨call.busy, s.jobs ++ [job], .notCalled⟩ ∧
      job.posts = call.posted ∧
      call.worker = (if job.pc = .starting then some job.task else none) := by
  obtain ⟨busy, jobs, cleanup⟩ := s
  simp only at hclean hcall
  subst hclean
  generalize ho : (⟨created, false, none, [], fun i => alloc (i + 1), nowMs⟩ : DeployOutcome) = o
  have hok : o.ok = created := by rw [← ho]
  have hfirst : deployMachine.step ⟨busy, jobs, .notCalled⟩ (.call params (alloc 0) o) =
      some ⟨busy, jobs ++ [startJob params (alloc 0) o], .notCalled⟩ := rfl
  have hnext : ∀ {b b' : Bool} {job job' : DeployJob}, stepJob b job o = some (b', job') →
      deployMachine.step ⟨b, jobs ++ [job], .notCalled⟩ (.step jobs.length o) =
        some ⟨b', jobs ++ [job'], .notCalled⟩ := fun h => deployStep_last jobs h
  simp only [callSteps, ho]
  simp only [deployCall] at hcall
  by_cases halloc : alloc 0 = false
  · rw [if_pos halloc] at hcall
    cases hcall
    refine ⟨startJob params (alloc 0) o, ?_, ?_, ?_⟩
    · rw [if_pos (Or.inl halloc)]
      simp only [Machine.run, hfirst, Option.bind_some]
    · simp [startJob, halloc]
    · simp [startJob, halloc]
  rw [if_neg halloc] at hcall
  by_cases hurl : (readDeployTask params).downloadUrl = []
  · rw [if_pos hurl] at hcall
    refine ⟨startJob params (alloc 0) o, ?_, ?_⟩
    · rw [if_pos (Or.inr hurl)]
      simp only [Machine.run, hfirst, Option.bind_some]
      split at hcall
      · cases hcall; rfl
      · cases hcall; rfl
      · cases hcall
    · simp only [startJob, if_neg halloc, if_pos hurl, ← ho]
      split at hcall
      · cases hcall; simp
      · cases hcall; simp
      · cases hcall
  rw [if_neg hurl] at hcall
  rw [if_neg (not_or.2 ⟨halloc, hurl⟩)]
  -- the call reaches its locked section
  obtain ⟨job, hjob, hpc, hposts, htask⟩ : ∃ job, startJob params (alloc 0) o = job ∧
      job.pc = .locking ∧ job.posts = [] ∧ job.task = readDeployTask params := by
    simp [startJob, halloc, hurl]
  rw [hjob] at hfirst
  cases busy with
  | true =>
    rw [if_pos rfl] at hcall
    cases hcall
    have hlock : stepJob true job o = some (true, { job with pc := .answered }) := by
      simp [stepJob, hpc]
    refine ⟨{ job with pc := .answered }, ?_, hposts, rfl⟩
    simp only [Machine.run, hfirst, hnext hlock, Option.bind_some, if_true]
  | false =>
    rw [if_neg (by decide)] at hcall
    have hlock : stepJob false job o = some (true, { job with pc := .creating }) := by
      simp [stepJob, hpc]
    have hcreate : stepJob true { job with pc := .creating } o =
        some (true, { job with pc := if created then .starting else .createFailed }) := by
      simp [stepJob, hok]
    cases created with
    | true =>
      rw [if_pos rfl] at hcall
      cases hcall
      refine ⟨{ job with pc := .starting }, ?_, hposts, by simp [htask]⟩
      simp only [Machine.run, hfirst, hnext hlock, hnext hcreate, Option.bind_some, if_true,
        Bool.false_eq_true, if_false]
    | false =>
      rw [if_neg (by decide)] at hcall
      cases hcall
      have hfail : stepJob true { job with pc := .createFailed } o =
          some (false, { job with pc := .answered }) := rfl
      simp only [Bool.false_eq_true, if_false] at hcreate
      refine ⟨{ job with pc := .answered }, ?_, hposts, rfl⟩
      simp only [Machine.run, hfirst, hnext hlock, hnext hcreate, hnext hfail, Option.bind_some,
        Bool.false_eq_true, if_false]

end IotIde
