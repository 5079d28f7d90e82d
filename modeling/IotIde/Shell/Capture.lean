import IotIde.Foundation.Runs
import IotIde.StringBuilder

/-!
# The output of a command

`run_command_capture` of `shell_utils.c`: the parent polls a pipe and the child in turn,
and reads what is left once the child has been waited for.  The child writes what it
likes, when it likes, until it ends.  A label says which of the two moves and how its
call came out, so a list of labels is an interleaving.

* `Capture` — the parent's place, the child, the pipe between them, and what the child
  has written so far;
* `runCommandCapture` — the two together;
* `Uninterrupted` — no read is interrupted by a signal, and every allocation succeeds;
* `Capture.Captured` — the invariant: what is in the output and what is in the pipe is
  what the child has written;
* `capture_complete` — what the caller has when the call returns.
-/

namespace IotIde

open CText Runs

/-! ## How a child ends -/

/-- What `waitpid` learns of a child that has ended; Linux numbers signals from 1 to 64. -/
inductive ChildEnd
  | exited (code : UInt8)
  | signalled (signal : ℕ) (core : Bool) (numbered : 1 ≤ signal ∧ signal ≤ 64)

/-- The `status` of `waitpid`. -/
def ChildEnd.waitStatus : ChildEnd → ℕ
  | exited code => code.toNat * 256
  | signalled signal core _ => signal + if core then 128 else 0

/-- The exit status, or 128 plus the signal. -/
def ChildEnd.code : ChildEnd → ℤ
  | exited code => code.toNat
  | signalled signal _ _ => 128 + signal

/-- `WTERMSIG` -/
def wTermSig (status : ℕ) : ℕ := status % 128

/-- `WIFEXITED` -/
def wIfExited (status : ℕ) : Bool := wTermSig status == 0

/-- `WEXITSTATUS` -/
def wExitStatus (status : ℕ) : ℕ := status / 256 % 256

/-- `WIFSIGNALED`: 127 is kept for a child that has stopped. -/
def wIfSignaled (status : ℕ) : Bool := 0 < wTermSig status && wTermSig status < 127

/-- What `run_command_capture` stores in `*exit_code` at its end. -/
def exitCodeOf (status : ℕ) : ℤ :=
  if wIfExited status then wExitStatus status
  else if wIfSignaled status then 128 + wTermSig status
  else -1

theorem exitCodeOf_waitStatus (e : ChildEnd) : exitCodeOf e.waitStatus = e.code := by
  cases e with
  | exited code =>
    have hlt := code.toNat_lt
    have hsig : wTermSig (code.toNat * 256) = 0 := by rw [wTermSig]; omega
    have hstatus : wExitStatus (code.toNat * 256) = code.toNat := by rw [wExitStatus]; omega
    rw [ChildEnd.waitStatus, exitCodeOf, wIfExited, hsig, hstatus]
    rfl
  | signalled signal core numbered =>
    obtain ⟨hlo, hhi⟩ := numbered
    have hsig : wTermSig (signal + if core then 128 else 0) = signal := by
      rw [wTermSig]
      split <;> omega
    have hexited : ¬ (signal == 0) = true := by
      rw [beq_iff_eq]
      omega
    have hsignaled : (decide (0 < signal) && decide (signal < 127)) = true := by
      rw [Bool.and_eq_true, decide_eq_true_eq, decide_eq_true_eq]
      omega
    rw [ChildEnd.waitStatus, exitCodeOf, wIfExited, wIfSignaled, hsig, if_neg hexited,
      if_pos hsignaled]
    rfl

/-! ## Parent and child -/

/-- How the call returns. -/
inductive CaptureEnd
  | notStarted
  | finished
  | timedOut
  deriving DecidableEq

/-- What `run_command_capture` returns. -/
def CaptureEnd.rc : CaptureEnd → ℤ
  | notStarted => -1
  | finished => 0
  | timedOut => -1

/-- Where the parent is. -/
inductive CapturePc
  | entering
  | piping
  | forking
  | starting
  | selecting
  | reading
  | polling
  | checkingTime
  | killing
  | reaping
  | noting
  | draining
  | returned (how : CaptureEnd)
  deriving DecidableEq

/-- The child, up to its `waitpid`. -/
inductive CaptureChild
  | notForked
  | running
  | ended (e : ChildEnd)
  | reaped (e : ChildEnd)

/-- The parameters of a call that decide a branch. -/
structure CaptureCall where
  hasCommand : Bool
  timeoutSec : ℤ
  hasExitCode : Bool

/-- The two processes.  `written` is the history of the child's writes, `pipe` what of it
has not been read yet; without `output` the parent reads and forgets. -/
structure Capture where
  pc : CapturePc
  child : CaptureChild
  written : List Bytes
  pipe : Bytes
  output : Option StringBuilder
  startTime : ℤ
  status : ℕ
  exitCode : ℤ

/-- One system call of the parent, or one act of the child, and its outcome. -/
inductive CaptureStep
  | parent
  | pipe (ok : Bool)
  | fork (ok : Bool)
  | time (now : ℤ)
  | select (ready : Bool)
  | read (n : ℕ) (alloc : Bool)
  | readNone
  | note (alloc : Bool)
  | childWrite (chunk : Bytes)
  | childEnd (e : ChildEnd)

/-- What is appended when the time is up. -/
def timeoutNotice : Bytes := ascii "\ncommand timed out\n"

namespace Capture

/-- `sb_append_n` on `output`, where there is one; nobody looks at what it returns. -/
def append (s : Capture) (alloc : Bool) (text : Bytes) : Capture :=
  { s with output := s.output.map fun output => (sbAppendN alloc output text).2 }

/-- `waitpid` hands over the child. -/
def reap (s : Capture) (e : ChildEnd) : Capture :=
  { s with child := .reaped e, status := e.waitStatus }

/-- The parent, where nothing outside decides its next step.  `kill` leaves the child to
end when the signal gets there, and `waitpid` without `WNOHANG` blocks until it has. -/
def stepParent (call : CaptureCall) (s : Capture) : Option Capture :=
  match s.pc with
  | .entering =>
    some { s with pc := if call.hasCommand then .piping else .returned .notStarted }
  | .polling =>
    match s.child with
    | .ended e => some { s.reap e with pc := .draining }
    | _ => some { s with pc := if 0 < call.timeoutSec then .checkingTime else .selecting }
  | .killing => some { s with pc := .reaping }
  | .reaping =>
    match s.child with
    | .ended e => some { s.reap e with pc := .noting }
    | _ => none
  | _ => none

/-- A `read` that returned `n` bytes, in either loop. -/
def stepRead (s : Capture) (n : ℕ) (alloc : Bool) : Option Capture :=
  if (s.pc = .reading ∨ s.pc = .draining) ∧ 0 < n ∧ n ≤ 512 ∧ n ≤ s.pipe.length then
    some { s.append alloc (s.pipe.take n) with pipe := s.pipe.drop n }
  else none

/-- A `read` that returned nothing ends its loop. -/
def stepReadNone (call : CaptureCall) (s : Capture) : Option Capture :=
  match s.pc with
  | .reading => some { s with pc := .polling }
  | .draining =>
    some { s with
      exitCode := if call.hasExitCode then exitCodeOf s.status else s.exitCode
      pc := .returned .finished }
  | _ => none

/-- `time(NULL)` -/
def stepTime (call : CaptureCall) (s : Capture) (now : ℤ) : Option Capture :=
  match s.pc with
  | .starting => some { s with startTime := now, pc := .selecting }
  | .checkingTime =>
    some { s with pc := if call.timeoutSec ≤ now - s.startTime then .killing else .selecting }
  | _ => none

/-- One step of the two.  The answer of `select` only decides whether a read is tried. -/
def step (call : CaptureCall) (s : Capture) : CaptureStep → Option Capture
  | .parent => s.stepParent call
  | .pipe ok =>
    if s.pc = .piping then some { s with pc := if ok then .forking else .returned .notStarted }
    else none
  | .fork ok =>
    if s.pc = .forking then
      some (if ok then { s with child := .running, pc := .starting }
        else { s with pc := .returned .notStarted })
    else none
  | .time now => s.stepTime call now
  | .select ready =>
    if s.pc = .selecting then some { s with pc := if ready then .reading else .polling }
    else none
  | .read n alloc => s.stepRead n alloc
  | .readNone => s.stepReadNone call
  | .note alloc =>
    if s.pc = .noting then
      some { s.append alloc timeoutNotice with
        exitCode := if call.hasExitCode then -1 else s.exitCode
        pc := .returned .timedOut }
    else none
  | .childWrite chunk =>
    match s.child with
    | .running => some { s with written := s.written ++ [chunk], pipe := s.pipe ++ chunk }
    | _ => none
  | .childEnd e =>
    match s.child with
    | .running => some { s with child := .ended e }
    | _ => none

end Capture

/-- `run_command_capture`, called with an `output` that holds `before`. -/
def runCommandCapture (call : CaptureCall) (before : Bytes) : Machine Capture CaptureStep where
  init s := s.pc = .entering ∧ s.child = .notForked ∧ s.written = [] ∧ s.pipe = [] ∧
    ∀ output ∈ s.output, output.Holds before
  step := Capture.step call

/-- A read returns nothing only where there is nothing to read, and allocations succeed. -/
def Uninterrupted (s : Capture) : CaptureStep → Prop
  | .read _ alloc => alloc = true
  | .readNone => s.pipe = []
  | .note alloc => alloc = true
  | _ => True

/-! ## The invariant -/

/-- Past the loop that polls, or at one of its ends. -/
def CapturePc.late : CapturePc → Bool
  | draining => true
  | returned .finished => true
  | returned .timedOut => true
  | _ => false

namespace Capture

/-- What has been taken out of the pipe is in the output, and what has not is still in it. -/
def Captured (before : Bytes) (s : Capture) : Prop :=
  ∃ taken, taken ++ s.pipe = s.written.flatten ∧ ∀ output ∈ s.output, output.Holds (before ++ taken)

/-- The output ends in the notice, behind some of what the child wrote. -/
def CutOff (call : CaptureCall) (before : Bytes) (s : Capture) : Prop :=
  (∃ taken, taken <+: s.written.flatten ∧
    ∀ output ∈ s.output, output.Holds (before ++ (taken ++ timeoutNotice))) ∧
  (call.hasExitCode = true → s.exitCode = -1)

/-- What holds between two steps. -/
structure Inv (call : CaptureCall) (before : Bytes) (s : Capture) : Prop where
  captured : s.pc ≠ .returned .timedOut → s.Captured before
  reaped : s.pc = .draining ∨ s.pc = .returned .finished →
    ∃ e, s.child = .reaped e ∧ s.status = e.waitStatus
  drained : s.pc = .returned .finished →
    s.pipe = [] ∧ (call.hasExitCode = true → s.exitCode = exitCodeOf s.status)
  cutOff : s.pc = .returned .timedOut → s.CutOff call before

variable {call : CaptureCall} {before : Bytes} {s s' : Capture}

theorem Inv.of_captured (h : s.Captured before) (hpc : s.pc.late = false) : s.Inv call before := by
  refine ⟨fun _ => h, fun hlate => ?_, fun hlate => ?_, fun hlate => ?_⟩
  · rcases hlate with hlate | hlate <;> rw [hlate] at hpc <;> cases hpc
  · rw [hlate] at hpc
    cases hpc
  · rw [hlate] at hpc
    cases hpc

theorem Inv.captured_of_early (h : s.Inv call before) (hpc : s.pc.late = false) :
    s.Captured before := by
  refine h.captured fun hlate => ?_
  rw [hlate] at hpc
  cases hpc

/-- While the child runs, the parent has not seen its end. -/
theorem Inv.not_reaped (h : s.Inv call before) (hchild : s.child = .running) :
    ¬ (s.pc = .draining ∨ s.pc = .returned .finished) := by
  intro hlate
  obtain ⟨e, he, -⟩ := h.reaped hlate
  rw [hchild] at he
  cases he

/-! ### The child moves -/

theorem inv_childWrite (h : s.Inv call before) (hchild : s.child = .running) (chunk : Bytes) :
    Inv call before { s with written := s.written ++ [chunk], pipe := s.pipe ++ chunk } := by
  have hflatten : (s.written ++ [chunk]).flatten = s.written.flatten ++ chunk := by
    rw [List.flatten_append, List.flatten_singleton]
  have hnot := h.not_reaped hchild
  refine ⟨fun hpc => ?_, fun hlate => absurd hlate hnot, fun hlate => absurd (Or.inr hlate) hnot,
    fun hlate => ?_⟩
  · obtain ⟨taken, hsent, hholds⟩ := h.captured hpc
    refine ⟨taken, ?_, hholds⟩
    rw [hflatten, ← hsent, List.append_assoc]
  · obtain ⟨⟨taken, hprefix, hholds⟩, hcode⟩ := h.cutOff hlate
    refine ⟨⟨taken, ?_, hholds⟩, hcode⟩
    rw [hflatten]
    exact hprefix.trans (List.prefix_append _ _)

theorem inv_childEnd (h : s.Inv call before) (hchild : s.child = .running) (e : ChildEnd) :
    Inv call before { s with child := .ended e } := by
  have hnot := h.not_reaped hchild
  exact ⟨h.captured, fun hlate => absurd hlate hnot, fun hlate => absurd (Or.inr hlate) hnot,
    h.cutOff⟩

/-! ### The parent moves -/

theorem append_holds {text more : Bytes} (h : ∀ output ∈ s.output, output.Holds text) :
    ∀ output ∈ (s.append true more).output, output.Holds (text ++ more) := by
  intro output hmem
  obtain ⟨old, hold, rfl⟩ := Option.mem_map.1 hmem
  rcases sbAppendN_holds true (h old hold) more with ⟨builder, heq, hholds⟩ | ⟨hfailed, -⟩
  · rw [heq]
    exact hholds
  · cases hfailed

/-- What a read takes out of the pipe goes to the end of the output. -/
theorem Captured.take (h : s.Captured before) (n : ℕ) :
    Captured before { s.append true (s.pipe.take n) with pipe := s.pipe.drop n } := by
  obtain ⟨taken, hsent, hholds⟩ := h
  refine ⟨taken ++ s.pipe.take n, ?_, ?_⟩
  · show taken ++ s.pipe.take n ++ s.pipe.drop n = s.written.flatten
    rw [List.append_assoc, List.take_append_drop, hsent]
  · rw [← List.append_assoc]
    exact append_holds hholds

theorem inv_read (h : s.Inv call before) {n : ℕ} (hs : s.stepRead n true = some s') :
    s'.Inv call before := by
  obtain ⟨⟨hpc, -⟩, hs⟩ := Option.ite_none_right_eq_some.1 hs
  cases hs
  have hnot : ∀ how, s.pc ≠ .returned how := by
    rintro how hreturned
    rw [hreturned] at hpc
    rcases hpc with hpc | hpc <;> cases hpc
  exact ⟨fun hpc' => (h.captured hpc').take n, h.reaped, fun hlate => absurd hlate (hnot _),
    fun hlate => absurd hlate (hnot _)⟩

theorem inv_readNone (h : s.Inv call before) (hempty : s.pipe = [])
    (hs : s.stepReadNone call = some s') : s'.Inv call before := by
  unfold stepReadNone at hs
  split at hs
  · rename_i hpc
    cases hs
    exact .of_captured (h.captured_of_early (by rw [hpc]; rfl)) rfl
  · rename_i hpc
    cases hs
    have hcaptured := h.captured (by rw [hpc]; exact CapturePc.noConfusion)
    refine ⟨fun _ => hcaptured, fun _ => h.reaped (Or.inl hpc), fun _ => ⟨hempty, fun hhas => ?_⟩,
      fun hlate => ?_⟩
    · exact if_pos hhas
    · cases hlate
  · cases hs

/-- The notice goes behind what has been read; what is left in the pipe is lost. -/
theorem inv_note (h : s.Inv call before) (hpc : s.pc = .noting) :
    Inv call before { s.append true timeoutNotice with
      exitCode := if call.hasExitCode then -1 else s.exitCode
      pc := .returned .timedOut } := by
  obtain ⟨taken, hsent, hholds⟩ := h.captured_of_early (by rw [hpc]; rfl)
  refine ⟨fun hnot => absurd rfl hnot, fun hlate => ?_, fun hlate => ?_,
    fun _ => ⟨⟨taken, ?_, ?_⟩, ?_⟩⟩
  · rcases hlate with hlate | hlate <;> cases hlate
  · cases hlate
  · exact ⟨s.pipe, hsent⟩
  · rw [← List.append_assoc]
    exact append_holds hholds
  · exact fun hhas => if_pos hhas

theorem inv_parent (h : s.Inv call before) (hs : s.stepParent call = some s') :
    s'.Inv call before := by
  unfold stepParent at hs
  split at hs
  · rename_i hpc
    have hcaptured := h.captured_of_early (by rw [hpc]; rfl)
    cases hs
    refine .of_captured hcaptured ?_
    show CapturePc.late (if call.hasCommand then .piping else .returned .notStarted) = false
    split <;> rfl
  · rename_i hpc
    have hcaptured := h.captured_of_early (by rw [hpc]; rfl)
    split at hs
    · rename_i e hchild
      cases hs
      refine ⟨fun _ => hcaptured, fun _ => ⟨e, rfl, rfl⟩, fun hlate => ?_, fun hlate => ?_⟩
      · cases hlate
      · cases hlate
    · cases hs
      refine .of_captured hcaptured ?_
      show CapturePc.late (if 0 < call.timeoutSec then .checkingTime else .selecting) = false
      split <;> rfl
  · rename_i hpc
    cases hs
    exact .of_captured (h.captured_of_early (by rw [hpc]; rfl)) rfl
  · rename_i hpc
    have hcaptured := h.captured_of_early (by rw [hpc]; rfl)
    split at hs
    · cases hs
      exact .of_captured hcaptured rfl
    · cases hs
  · cases hs

theorem inv_time (h : s.Inv call before) {now : ℤ} (hs : s.stepTime call now = some s') :
    s'.Inv call before := by
  unfold stepTime at hs
  split at hs
  · rename_i hpc
    cases hs
    exact .of_captured (h.captured_of_early (by rw [hpc]; rfl)) rfl
  · rename_i hpc
    cases hs
    refine .of_captured (h.captured_of_early (by rw [hpc]; rfl)) ?_
    show CapturePc.late
      (if call.timeoutSec ≤ now - s.startTime then .killing else .selecting) = false
    split <;> rfl
  · cases hs

/-- **Every step keeps the invariant**, as long as nothing disturbs it. -/
theorem inv_step (h : s.Inv call before) {a : CaptureStep} (huninterrupted : Uninterrupted s a)
    (hs : s.step call a = some s') : s'.Inv call before := by
  cases a with
  | parent => exact inv_parent h hs
  | pipe ok =>
    obtain ⟨hpc, hs⟩ := Option.ite_none_right_eq_some.1 hs
    cases hs
    refine .of_captured (h.captured_of_early (by rw [hpc]; rfl)) ?_
    cases ok <;> rfl
  | fork ok =>
    obtain ⟨hpc, hs⟩ := Option.ite_none_right_eq_some.1 hs
    cases hs
    have hcaptured := h.captured_of_early (by rw [hpc]; rfl)
    cases ok
    · exact .of_captured hcaptured rfl
    · exact .of_captured hcaptured rfl
  | time now => exact inv_time h hs
  | select ready =>
    obtain ⟨hpc, hs⟩ := Option.ite_none_right_eq_some.1 hs
    cases hs
    refine .of_captured (h.captured_of_early (by rw [hpc]; rfl)) ?_
    cases ready <;> rfl
  | read n alloc =>
    obtain rfl : alloc = true := huninterrupted
    exact inv_read h hs
  | readNone => exact inv_readNone h huninterrupted hs
  | note alloc =>
    obtain rfl : alloc = true := huninterrupted
    obtain ⟨hpc, hs⟩ := Option.ite_none_right_eq_some.1 hs
    cases hs
    exact inv_note h hpc
  | childWrite chunk =>
    simp only [step] at hs
    split at hs
    · rename_i hchild
      cases hs
      exact inv_childWrite h hchild chunk
    · cases hs
  | childEnd e =>
    simp only [step] at hs
    split at hs
    · rename_i hchild
      cases hs
      exact inv_childEnd h hchild e
    · cases hs

end Capture

/-- **What the caller has when the call returns.**  On success it has everything that the
child wrote before its end, once and in order, and how it ended; when the time is up, the
beginning of that and the notice. -/
theorem capture_complete {call : CaptureCall} {before : Bytes} {s : Capture}
    (h : (runCommandCapture call before).ReachableVia Uninterrupted s) :
    (∀ how, s.pc = .returned how → how.rc = 0 → ∃ e, s.child = .reaped e ∧
      (∀ output ∈ s.output, output.Holds (before ++ s.written.flatten)) ∧
      (call.hasExitCode = true → s.exitCode = e.code)) ∧
    (s.pc = .returned .timedOut → CaptureEnd.timedOut.rc = -1 ∧
      (∃ taken, taken <+: s.written.flatten ∧
        ∀ output ∈ s.output, output.Holds (before ++ (taken ++ timeoutNotice))) ∧
      (call.hasExitCode = true → s.exitCode = -1)) := by
  have hinit : ∀ s, (runCommandCapture call before).init s → s.Inv call before := by
    rintro s ⟨hpc, -, hwritten, hpipe, hholds⟩
    refine .of_captured ⟨[], ?_, ?_⟩ (by rw [hpc]; rfl)
    · rw [hwritten, hpipe]
      rfl
    · rwa [List.append_nil]
  have hinv : s.Inv call before :=
    Machine.invariant hinit (fun _ _ _ h hcond hs => Capture.inv_step h hcond hs) s h
  refine ⟨fun how hpc hrc => ?_, fun hpc => ⟨rfl, hinv.cutOff hpc⟩⟩
  cases how with
  | notStarted => cases hrc
  | timedOut => cases hrc
  | finished =>
    obtain ⟨e, hchild, hstatus⟩ := hinv.reaped (Or.inr hpc)
    obtain ⟨hempty, hcode⟩ := hinv.drained hpc
    obtain ⟨taken, hsent, hholds⟩ := hinv.captured (by rw [hpc]; decide)
    rw [hempty, List.append_nil] at hsent
    subst hsent
    refine ⟨e, hchild, hholds, fun hhas => ?_⟩
    rw [hcode hhas, hstatus, exitCodeOf_waitStatus]

instance (s : Capture) : ∀ a : CaptureStep, Decidable (Uninterrupted s a)
  | .read _ alloc | .note alloc => inferInstanceAs (Decidable (alloc = true))
  | .readNone => inferInstanceAs (Decidable (s.pipe = []))
  | .parent | .pipe _ | .fork _ | .time _ | .select _ | .childWrite _ | .childEnd _ =>
    isTrue trivial

/-- A call with an empty output. -/
def Capture.fresh : Capture :=
  ⟨.entering, .notForked, [], [], some ⟨[0], 0, 1⟩, 0, 0, 0⟩

theorem Capture.init_fresh (call : CaptureCall) : (runCommandCapture call []).init .fresh := by
  refine ⟨rfl, rfl, rfl, rfl, fun output hmem => ?_⟩
  obtain rfl := Option.mem_some_iff.1 hmem
  exact ⟨rfl, rfl, Nat.one_pos, List.prefix_refl _⟩

/-- The child writes, is read byte by byte, writes again and ends before it is polled. -/
def lateWrite : List CaptureStep :=
  [.parent, .pipe true, .fork true, .time 0, .childWrite (ascii "ab"), .select true, .read 1 true,
    .read 1 true, .readNone, .childWrite (ascii "c"), .childEnd (.exited 3), .parent, .read 1 true,
    .readNone]

theorem capture_complete_lateWrite :
    ∃ s, (runCommandCapture ⟨true, 5, true⟩ []).ReachableVia Uninterrupted s ∧
      s.written = [ascii "ab", ascii "c"] ∧ s.exitCode = 3 ∧
      ∀ output ∈ s.output, output.Holds (ascii "abc") := by
  obtain ⟨s, hrun, hpc, hwritten, hchild⟩ : ∃ s,
      (runCommandCapture ⟨true, 5, true⟩ []).run .fresh lateWrite = some s ∧
        s.pc = .returned .finished ∧ s.written = [ascii "ab", ascii "c"] ∧
        s.child = .reaped (.exited 3) := ⟨_, rfl, rfl, rfl, rfl⟩
  have hmeets : (runCommandCapture ⟨true, 5, true⟩ []).Meets Uninterrupted .fresh lateWrite := by
    decide
  have hreach := Machine.ReachableVia.run_of_meets (.init (Capture.init_fresh ⟨true, 5, true⟩))
    hmeets hrun
  obtain ⟨e, he, hholds, hcode⟩ := (capture_complete hreach).1 _ hpc rfl
  rw [hchild] at he
  cases he
  rw [hwritten] at hholds
  exact ⟨s, hreach, hwritten, hcode rfl, hholds⟩

/-- A child that is still running after five seconds is killed. -/
example : ((runCommandCapture ⟨true, 5, true⟩ []).run .fresh
    [.parent, .pipe true, .fork true, .time 0, .childWrite (ascii "ab"), .select true, .read 2 true,
      .readNone, .parent, .time 5, .childWrite (ascii "c"), .parent,
      .childEnd (.signalled 9 false (by decide)), .parent, .note true]).map
    (fun s => (s.pc, s.exitCode, s.output.map fun output => cstr output.data)) =
    some (.returned .timedOut, -1, some (ascii "ab\ncommand timed out\n")) := rfl

end IotIde
