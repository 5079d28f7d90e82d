import IotIde.Foundation.CText
import IotIde.Foundation.Descriptors
import IotIde.Foundation.Runs

/-!
# Starting a service

`start_background_command` of `shell_utils.c`, as `start_manager_handle_start` calls it:
three processes, the descriptor table of each, and the pipe between them.  A label says
which process makes its next system call and how that call came out, so a list of labels
is a schedule.

* `Background` — the state: each program's place, its descriptors, and the pipe;
* `Background.step` — one system call of one process;
* `backgroundMachine` — the three programs together.
-/

namespace IotIde

open CText Runs Descriptors

/-- What a descriptor can refer to. -/
inductive OpenFile
  | pipeRead
  | pipeWrite
  | startLog
  | other (id : ℕ)
  deriving DecidableEq

/-- What `start_background_command` returns, with its out parameters and what it appends
to the log. -/
structure StartVerdict where
  rc : ℤ
  startedInBackground : Bool
  exitCode : ℤ
  childPid : ℤ
  appended : Bytes
  deriving DecidableEq

/-- The verdict when nothing could be started. -/
def notStarted : StartVerdict := ⟨-1, false, -1, -1, []⟩

/-- The verdict on what the supervisor reported. -/
def startVerdict (buffer : Bytes) : StartVerdict :=
  if ascii "STARTED:" <+: buffer then ⟨0, true, 0, atoi (buffer.drop 8), cstr buffer⟩
  else if ascii "EXIT:" <+: buffer then
    let code := atoi (buffer.drop 5)
    ⟨if code = 0 then 0 else -1, false, code, -1, cstr buffer⟩
  else ⟨-1, false, -1, -1, cstr buffer⟩

/-- How a `startProject` call is answered, past its checks of the parameters. -/
inductive StartAnswer
  | stillRunning
  | noLogBuffer
  | finished (verdict : StartVerdict)
  deriving DecidableEq

/-- Where the calling thread is. -/
inductive CallerPc
  | entering
  | allocatingLog
  | piping
  | forking
  | closingWrite
  | reading (buffer : Bytes)
  | closingRead (buffer : Bytes)
  | waiting (buffer : Bytes)
  | clearingBusy (answer : StartAnswer)
  | answered (answer : StartAnswer)
  deriving DecidableEq

/-- Where the supervisor is; `started` marks the branch that leaves the worker running. -/
inductive SupervisorPc
  | notForked
  | closingRead
  | changingDir
  | forking
  | confirming (loops : ℕ)
  | writing (text : Bytes) (started : Bool)
  | exiting (started : Bool)
  | exited
  deriving DecidableEq

/-- Where the worker is; `redirected` says whether the log could be opened. -/
inductive WorkerPc
  | notForked
  | opening
  | dupOut (logFd : ℕ)
  | dupErr (logFd : ℕ)
  | closingLog (logFd : ℕ)
  | execing (redirected : Bool)
  | running (redirected : Bool)
  | exited (code : ℕ)
  deriving DecidableEq

/-- The three processes and what they share. -/
structure Background where
  busy : Bool
  readFd : ℕ
  writeFd : ℕ
  pipe : Bytes
  caller : CallerPc
  callerTable : Table OpenFile
  supervisor : SupervisorPc
  supervisorTable : Table OpenFile
  worker : WorkerPc
  workerTable : Table OpenFile
  deriving DecidableEq

/-- The parameters of a call that decide a branch, and the number the worker gets. -/
structure BackgroundCall where
  hasWorkdir : Bool
  confirmSec : ℤ
  workerPid : ℤ

/-- One system call of one process and its outcome. -/
inductive BackgroundStep
  | caller
  | callerSbInit (ok : Bool)
  | callerPipe (fds : Option (ℕ × ℕ))
  | callerFork (ok : Bool)
  | supervisor
  | supervisorChdir (error : Option Bytes)
  | supervisorFork (error : Option Bytes)
  | worker
  | workerOpen (fd : Option ℕ)
  | workerExec (ok : Bool)
  | workerEnd (code : ℕ)
  deriving DecidableEq

namespace Background

/-- Some process holds the write end of the pipe. -/
def WriteEndOpen (s : Background) : Prop :=
  s.callerTable.Holds .pipeWrite ∨ s.supervisorTable.Holds .pipeWrite ∨
    s.workerTable.Holds .pipeWrite

instance (s : Background) : Decidable s.WriteEndOpen :=
  inferInstanceAs (Decidable (_ ∨ _ ∨ _))

/-- The caller, where nothing outside decides its next step.  A `read` takes what there
is, up to the room left in `char buffer[256]`; it blocks on an empty pipe while some
process holds the write end, and so does `waitpid` while the supervisor lives. -/
def stepCaller (s : Background) : Option Background :=
  match s.caller with
  | .entering =>
    some (if s.busy then { s with caller := .answered .stillRunning }
      else { s with busy := true, caller := .allocatingLog })
  | .closingWrite =>
    some { s with callerTable := s.callerTable.close s.writeFd, caller := .reading [] }
  | .reading buffer =>
    if s.pipe ≠ [] then
      let buffer' := buffer ++ s.pipe.take (255 - buffer.length)
      some { s with
        pipe := s.pipe.drop (255 - buffer.length)
        caller := if 255 ≤ buffer'.length then .closingRead buffer' else .reading buffer' }
    else if s.WriteEndOpen then none
    else some { s with caller := .closingRead buffer }
  | .closingRead buffer =>
    some { s with callerTable := s.callerTable.close s.readFd, caller := .waiting buffer }
  | .waiting buffer =>
    if s.supervisor = .exited then
      some { s with caller := .clearingBusy (.finished (startVerdict buffer)) }
    else none
  | .clearingBusy answer => some { s with busy := false, caller := .answered answer }
  | _ => none

/-- The supervisor, where nothing outside decides its next step. -/
def stepSupervisor (call : BackgroundCall) (s : Background) : Option Background :=
  match s.supervisor with
  | .closingRead =>
    some { s with
      supervisorTable := s.supervisorTable.close s.readFd
      supervisor := .changingDir }
  | .changingDir => if call.hasWorkdir then none else some { s with supervisor := .forking }
  | .confirming 0 =>
    some { s with
      supervisor := .writing (ascii "STARTED:" ++ decimal call.workerPid ++ [newline]) true }
  | .confirming (loops + 1) =>
    match s.worker with
    | .exited code =>
      some { s with supervisor := .writing (ascii "EXIT:" ++ decimal code ++ [newline]) false }
    | _ => some { s with supervisor := .confirming loops }
  | .writing text started => some { s with pipe := s.pipe ++ text, supervisor := .exiting started }
  | .exiting _ => some { s with supervisorTable := [], supervisor := .exited }
  | _ => none

/-- The worker, where nothing outside decides its next step. -/
def stepWorker (s : Background) : Option Background :=
  match s.worker with
  | .dupOut logFd =>
    some { s with workerTable := s.workerTable.dup2 logFd 1, worker := .dupErr logFd }
  | .dupErr logFd =>
    some { s with workerTable := s.workerTable.dup2 logFd 2, worker := .closingLog logFd }
  | .closingLog logFd =>
    some { s with
      workerTable := if logFd > 2 then s.workerTable.close logFd else s.workerTable
      worker := .execing true }
  | _ => none

/-- One step of the three programs. -/
def step (call : BackgroundCall) (s : Background) : BackgroundStep → Option Background
  | .caller => s.stepCaller
  | .callerSbInit ok =>
    if s.caller = .allocatingLog then
      some { s with caller := if ok then .piping else .clearingBusy .noLogBuffer }
    else none
  | .callerPipe none =>
    if s.caller = .piping then some { s with caller := .clearingBusy (.finished notStarted) }
    else none
  | .callerPipe (some (r, w)) =>
    if s.caller = .piping ∧ r ≠ w ∧ s.callerTable.Free r ∧ s.callerTable.Free w then
      some { s with
        readFd := r
        writeFd := w
        callerTable := (s.callerTable.install r .pipeRead).install w .pipeWrite
        caller := .forking }
    else none
  | .callerFork ok =>
    if s.caller = .forking then
      some (if ok then
        { s with
          caller := .closingWrite
          supervisor := .closingRead
          supervisorTable := s.callerTable }
      else
        { s with
          callerTable := (s.callerTable.close s.readFd).close s.writeFd
          caller := .clearingBusy (.finished notStarted) })
    else none
  | .supervisor => s.stepSupervisor call
  | .supervisorChdir error =>
    if s.supervisor = .changingDir ∧ call.hasWorkdir = true then
      some { s with supervisor := match error with
        | none => .forking
        | some text => .writing (ascii "CHDIR:" ++ text ++ [newline]) false }
    else none
  | .supervisorFork error =>
    if s.supervisor = .forking then
      some (match error with
        | none =>
          { s with
            supervisor := .confirming (call.confirmSec * 10).toNat
            worker := .opening
            workerTable := s.supervisorTable }
        | some text =>
          { s with supervisor := .writing (ascii "FORK:" ++ text ++ [newline]) false })
    else none
  | .worker => s.stepWorker
  | .workerOpen none =>
    if s.worker = .opening then some { s with worker := .execing false } else none
  | .workerOpen (some fd) =>
    if s.worker = .opening ∧ s.workerTable.Free fd then
      some { s with
        workerTable := s.workerTable.install fd .startLog
        worker := .dupOut fd }
    else none
  | .workerExec ok =>
    match s.worker with
    | .execing redirected =>
      some (if ok then
        { s with workerTable := s.workerTable.exec, worker := .running redirected }
      else { s with workerTable := [], worker := .exited 127 })
    | _ => none
  | .workerEnd code =>
    match s.worker with
    | .running _ => some { s with workerTable := [], worker := .exited code }
    | _ => none

end Background

/-- The three programs, from a call of `start_manager_handle_start` on. -/
def backgroundMachine (call : BackgroundCall) : Machine Background BackgroundStep where
  init s := s.caller = .entering ∧ s.supervisor = .notForked ∧ s.worker = .notForked ∧
    s.supervisorTable = [] ∧ s.workerTable = [] ∧ s.pipe = [] ∧
    ¬ s.callerTable.Holds .pipeWrite
  step := Background.step call

end IotIde
