import IotIde.Deploy.Manager

/-!
# Deploy accounting

`busy` is set by the thread that accepts a task and cleared by the worker that carries it
out, so it is right only as long as every worker comes to its clean-up.

* `DeployJob.Ok` — what the place a job has reached says about it;
* `stepJob_ok`, `stepJob_moves` — one step keeps that, and moves `busy` with the job;
* `Accounting` — `busy` counts the tasks under way, and every worker that has returned
  has posted its outcome once;
* `deploy_accounting` — it holds in every run in which the log buffer and the reports get
  their memory;
* `deploy_wedged` — a worker without a log buffer leaves `busy` set for good.
-/

namespace IotIde

open CText Runs

/-! ## One job -/

/-- The task is accepted and not finished. -/
def DeployPc.active : DeployPc → Bool
  | answered => false
  | locking => false
  | returned => false
  | undefined => false
  | _ => true

/-- A worker has the task. -/
def DeployPc.working : DeployPc → Bool
  | creating => false
  | createFailed => false
  | pc => pc.active

theorem DeployPc.of_working {pc : DeployPc} (h : pc.working = true) :
    pc.active = true ∧ pc.inCall = false := by
  cases pc <;> first | exact ⟨rfl, rfl⟩ | cases h

/-- The download, the extraction and, if there is one, the command ended with exit
code `0`. -/
def DeployJob.Succeeded (job : DeployJob) : Prop :=
  job.download = some 0 ∧ job.extract = some 0 ∧
    (job.task.deployCommand ≠ [] → job.command = some 0)

instance (job : DeployJob) : Decidable job.Succeeded :=
  inferInstanceAs (Decidable (_ ∧ _ ∧ _))

/-- The worker has posted exactly one status, and its outcome is the one posted. -/
def DeployJob.Reported (job : DeployJob) : Prop :=
  ∃ post, job.posts = [post] ∧
    deployStatusSuccess post = some (if job.Succeeded then ascii "true" else ascii "false")

/-- What has been done by the time a job has come to a place. -/
def DeployJob.Done (job : DeployJob) : DeployPc → Prop
  | .answered => True
  | .undefined => False
  | .removingTree => job.posts = [] ∧ job.download = some 0 ∧ job.extract = none
  | .ensuringTarget => job.posts = [] ∧ job.download = some 0 ∧ job.extract = none
  | .extracting => job.posts = [] ∧ job.download = some 0 ∧ job.extract = none
  | .runningCommand => job.posts = [] ∧ job.download = some 0 ∧ job.extract = some 0 ∧
      job.task.deployCommand ≠ []
  | .reporting success message => job.posts = [] ∧ 0 ∉ message ∧
      (success = true ↔ job.Succeeded)
  | .clearing => job.Reported
  | .returned => job.Reported
  | _ => job.posts = [] ∧ job.download = none ∧ job.extract = none

/-- What holds of a job between steps. -/
structure DeployJob.Ok (job : DeployJob) : Prop where
  projectName : 0 ∉ job.task.projectName
  deployPath : 0 ∉ job.task.deployPath
  targetPath : 0 ∉ job.targetPath
  done : job.Done job.pc

/-- The condition on a step of a job: the log buffer can be allocated, and so can all
that a report needs, with a record that `vsnprintf` can measure. -/
def JobGranted (job : DeployJob) (o : DeployOutcome) : Prop :=
  match job.pc with
  | .starting => o.alloc 0 = true
  | .reporting success message => (∀ i, o.alloc i = true) ∧
      (deployParamsText (escape (deployStatus success message (cstr job.log.data) o.nowMs
        job.task.projectName job.targetPath))).length ≤ INT_MAX
  | _ => True

section Steps

variable {job : DeployJob} {o : DeployOutcome}

theorem failStep_ok (h : job.Ok) (hposts : job.posts = []) (hfailed : ¬ job.Succeeded)
    (log : StringBuilder) (allocOk : Bool) {message : Bytes} (hm : 0 ∉ message) :
    (failStep job log allocOk message).Ok :=
  ⟨h.projectName, h.deployPath, h.targetPath, hposts, hm, iff_of_false (by simp) hfailed⟩

theorem stepStart_ok (h : job.Ok) (hpc : job.pc = .starting) (hgranted : JobGranted job o) :
    (stepStart job o).Ok ∧ (stepStart job o).pc.working = true := by
  have hdone := h.done
  rw [hpc] at hdone
  rw [JobGranted, hpc] at hgranted
  obtain ⟨log, hlog, -⟩ := sbInit_holds 2048
  have htarget : 0 ∉ targetPathOf job.task := by
    refine nul_notMem_snprintf ?_
    simp only [List.mem_append, not_or]
    exact ⟨h.deployPath, by decide, h.projectName⟩
  simp only [stepStart, hgranted, hlog, ne_eq, not_true_eq_false, if_false]
  exact ⟨⟨h.projectName, h.deployPath, htarget, hdone⟩, rfl⟩

theorem stepDownload_ok (h : job.Ok) (hpc : job.pc = .downloading) :
    (stepDownload job o).Ok ∧ (stepDownload job o).pc.working = true := by
  obtain ⟨hposts, hdownload, hextract⟩ :
      job.posts = [] ∧ job.download = none ∧ job.extract = none := by
    have hdone := h.done
    rwa [hpc] at hdone
  have hm : 0 ∉ ascii "download step failed" := by decide
  unfold stepDownload
  split
  · dsimp only
    split
    · rename_i hexit
      exact ⟨⟨h.projectName, h.deployPath, h.targetPath, hposts, hexit, hextract⟩, rfl⟩
    · rename_i hexit
      exact ⟨⟨h.projectName, h.deployPath, h.targetPath, hposts, hm,
        iff_of_false (by simp) fun hs => hexit hs.1⟩, rfl⟩
  · refine ⟨failStep_ok h hposts (fun hs => ?_) _ _ hm, rfl⟩
    exact absurd (hdownload.symm.trans hs.1) (by simp)

theorem stepExtract_ok (h : job.Ok) (hpc : job.pc = .extracting) :
    (stepExtract job o).Ok ∧ (stepExtract job o).pc.working = true := by
  obtain ⟨hposts, hdownload, hextract⟩ :
      job.posts = [] ∧ job.download = some 0 ∧ job.extract = none := by
    have hdone := h.done
    rwa [hpc] at hdone
  have hm : 0 ∉ ascii "extract step failed" := by decide
  unfold stepExtract
  split
  · dsimp only
    split
    · rename_i hexit
      split
      · rename_i hcommand
        exact ⟨⟨h.projectName, h.deployPath, h.targetPath, hposts, by decide,
          iff_of_true rfl ⟨hdownload, hexit, fun hne => absurd hcommand hne⟩⟩, rfl⟩
      · rename_i hcommand
        exact ⟨⟨h.projectName, h.deployPath, h.targetPath, hposts, hdownload, hexit, hcommand⟩, rfl⟩
    · rename_i hexit
      exact ⟨⟨h.projectName, h.deployPath, h.targetPath, hposts, hm,
        iff_of_false (by simp) fun hs => hexit hs.2.1⟩, rfl⟩
  · refine ⟨failStep_ok h hposts (fun hs => ?_) _ _ hm, rfl⟩
    exact absurd (hextract.symm.trans hs.2.1) (by simp)

theorem stepCommand_ok (h : job.Ok) (hpc : job.pc = .runningCommand) :
    (stepCommand job o).Ok ∧ (stepCommand job o).pc.working = true := by
  obtain ⟨hposts, hdownload, hextract, hcommand⟩ : job.posts = [] ∧ job.download = some 0 ∧
      job.extract = some 0 ∧ job.task.deployCommand ≠ [] := by
    have hdone := h.done
    rwa [hpc] at hdone
  unfold stepCommand
  dsimp only
  split
  · rename_i hexit
    exact ⟨⟨h.projectName, h.deployPath, h.targetPath, hposts, by decide,
      iff_of_true rfl ⟨hdownload, hextract, fun _ => hexit⟩⟩, rfl⟩
  · rename_i hexit
    exact ⟨⟨h.projectName, h.deployPath, h.targetPath, hposts, by decide,
      iff_of_false (by simp) fun hs => hexit (hs.2.2 hcommand)⟩, rfl⟩

theorem stepReport_ok (h : job.Ok) {success : Bool} {message : Bytes}
    (hpc : job.pc = .reporting success message) (hgranted : JobGranted job o) :
    (stepReport job success message o).Ok ∧
      (stepReport job success message o).pc.working = true := by
  obtain ⟨hposts, hm, hsuccess⟩ :
      job.posts = [] ∧ 0 ∉ message ∧ (success = true ↔ job.Succeeded) := by
    have hdone := h.done
    rwa [hpc] at hdone
  rw [JobGranted, hpc] at hgranted
  obtain ⟨halloc, hmax⟩ := hgranted
  have hlog : 0 ∉ cstr job.log.data := nul_notMem_cstr _
  have hreport : deployReportStatus o.alloc success message (cstr job.log.data)
      job.task.projectName job.targetPath o.nowMs =
      .posted (deployParamsText (escape (deployStatus success message (cstr job.log.data) o.nowMs
        job.task.projectName job.targetPath))) := by
    rw [show o.alloc = fun _ => true from funext halloc]
    exact deployReportStatus_whole success o.nowMs hm hlog h.projectName h.targetPath hmax
  have hread := deployStatusSuccess_posted success o.nowMs hm hlog h.projectName h.targetPath
  rw [stepReport, hreport]
  refine ⟨⟨h.projectName, h.deployPath, h.targetPath, _, by simp [hposts], hread.trans ?_⟩, rfl⟩
  by_cases hs : job.Succeeded
  · rw [if_pos (hsuccess.2 hs)]
    exact congrArg some (if_pos hs).symm
  · rw [if_neg (mt hsuccess.1 hs)]
    exact congrArg some (if_neg hs).symm

/-- One step of a job, given its memory, keeps what its place says. -/
theorem stepJob_ok {busy busy' : Bool} {job' : DeployJob} (h : job.Ok)
    (hgranted : JobGranted job o) (hs : stepJob busy job o = some (busy', job')) : job'.Ok := by
  have hdone := h.done
  unfold stepJob at hs
  split at hs
  · rename_i hpc
    rw [hpc] at hdone
    cases busy <;> cases hs
    · exact ⟨h.projectName, h.deployPath, h.targetPath, hdone⟩
    · exact ⟨h.projectName, h.deployPath, h.targetPath, trivial⟩
  · rename_i hpc
    rw [hpc] at hdone
    cases hs
    cases o.ok <;> exact ⟨h.projectName, h.deployPath, h.targetPath, hdone⟩
  · cases hs
    exact ⟨h.projectName, h.deployPath, h.targetPath, trivial⟩
  · rename_i hpc
    cases hs
    exact (stepStart_ok h hpc hgranted).1
  · rename_i hpc
    rw [hpc] at hdone
    cases hs
    split
    · exact ⟨h.projectName, h.deployPath, h.targetPath, hdone⟩
    · refine failStep_ok h hdone.1 (fun hs => ?_) _ _ (by decide)
      exact absurd (hdone.2.1.symm.trans hs.1) (by simp)
  · rename_i hpc
    cases hs
    exact (stepDownload_ok h hpc).1
  · rename_i hpc
    rw [hpc] at hdone
    cases hs
    split
    · exact ⟨h.projectName, h.deployPath, h.targetPath, hdone⟩
    · refine failStep_ok h hdone.1 (fun hs => ?_) _ _ (by decide)
      exact absurd (hdone.2.2.symm.trans hs.2.1) (by simp)
  · rename_i hpc
    rw [hpc] at hdone
    cases hs
    split
    · exact ⟨h.projectName, h.deployPath, h.targetPath, hdone⟩
    · refine failStep_ok h hdone.1 (fun hs => ?_) _ _ (by decide)
      exact absurd (hdone.2.2.symm.trans hs.2.1) (by simp)
  · rename_i hpc
    cases hs
    exact (stepExtract_ok h hpc).1
  · rename_i hpc
    cases hs
    exact (stepCommand_ok h hpc).1
  · rename_i success message hpc
    cases hs
    exact (stepReport_ok h hpc hgranted).1
  · rename_i hpc
    rw [hpc] at hdone
    cases hs
    exact ⟨h.projectName, h.deployPath, h.targetPath, hdone⟩
  · cases hs
  · cases hs
  · cases hs

/-- What a step does to `busy`: nothing while the job goes on as it was, set it with the
acceptance of a task, or clear it with its end. -/
inductive Moves (busy busy' : Bool) (job job' : DeployJob) : Prop
  | goesOn : busy' = busy → job'.pc.active = job.pc.active →
      (job'.pc.inCall = true → job.pc.inCall = true) → Moves busy busy' job job'
  | accepted : job.pc = .locking → busy = false → busy' = true → job'.pc.active = true →
      Moves busy busy' job job'
  | finished : job.pc.active = true → job.pc.inCall = true ∨ job.pc = .clearing →
      busy' = false → job'.pc.active = false → job'.pc.inCall = false → Moves busy busy' job job'

theorem Moves.of_working {busy : Bool} {job' : DeployJob} (h : job.pc.working = true)
    (h' : job'.pc.working = true) : Moves busy busy job job' := by
  obtain ⟨hactive, -⟩ := DeployPc.of_working h
  obtain ⟨hactive', hcall'⟩ := DeployPc.of_working h'
  refine .goesOn rfl (hactive'.trans hactive.symm) fun hcall => ?_
  rw [hcall'] at hcall
  cases hcall

theorem stepJob_moves {busy busy' : Bool} {job' : DeployJob} (h : job.Ok)
    (hgranted : JobGranted job o) (hs : stepJob busy job o = some (busy', job')) :
    Moves busy busy' job job' := by
  unfold stepJob at hs
  split at hs <;> rename_i hpc
  · cases busy <;> cases hs
    · exact .accepted hpc rfl rfl rfl
    · exact .goesOn rfl (by rw [hpc]; rfl) (by simp [DeployPc.inCall])
  · cases hs
    cases o.ok <;> exact .goesOn rfl (by rw [hpc]; rfl) (fun _ => by rw [hpc]; rfl)
  · cases hs
    exact .finished (by rw [hpc]; rfl) (Or.inl (by rw [hpc]; rfl)) rfl rfl rfl
  · cases hs
    exact .of_working (by rw [hpc]; rfl) (stepStart_ok h hpc hgranted).2
  · cases hs
    exact .of_working (by rw [hpc]; rfl) (by split <;> rfl)
  · cases hs
    exact .of_working (by rw [hpc]; rfl) (stepDownload_ok h hpc).2
  · cases hs
    exact .of_working (by rw [hpc]; rfl) (by split <;> rfl)
  · cases hs
    exact .of_working (by rw [hpc]; rfl) (by split <;> rfl)
  · cases hs
    exact .of_working (by rw [hpc]; rfl) (stepExtract_ok h hpc).2
  · cases hs
    exact .of_working (by rw [hpc]; rfl) (stepCommand_ok h hpc).2
  · cases hs
    exact .of_working (by rw [hpc]; rfl) (stepReport_ok h hpc hgranted).2
  · cases hs
    exact .finished (by rw [hpc]; rfl) (Or.inr hpc) rfl rfl rfl
  · cases hs
  · cases hs
  · cases hs

end Steps

/-! ## The manager -/

/-- The tasks under way. -/
def DeployState.active (s : DeployState) : ℕ := s.jobs.countP fun job => job.pc.active

/-- The accounts are right: `busy` says whether there is a task under way, there is never
a second one, every worker that has returned has reported once and truly, and the thread
that cleans up waits only for a worker. -/
structure Accounting (s : DeployState) : Prop where
  busy : s.active = if s.busy then 1 else 0
  reported : ∀ job ∈ s.jobs, job.pc = .returned → job.Reported
  defined : ∀ job ∈ s.jobs, job.pc ≠ .undefined
  cleanup : s.cleanup = .waiting → s.busy = true

/-- The condition on a step: log buffers and reports get their memory. -/
def DeployGranted (s : DeployState) : DeployStep → Prop
  | .call params taskAlloc o =>
    taskAlloc = true → (readDeployTask params).downloadUrl = [] → o.alloc 0 = true
  | .step i o => ∀ job ∈ s.jobs[i]?, JobGranted job o
  | .cleanup => True

/-- The accounts, and what they rest on. -/
structure DeployState.Inv (s : DeployState) : Prop where
  busy : s.active = if s.busy then 1 else 0
  jobs : ∀ job ∈ s.jobs, job.Ok
  calls : s.cleanup ≠ .notCalled → ∀ job ∈ s.jobs, job.pc.inCall = false
  waiting : s.cleanup = .waiting → s.busy = true

theorem DeployState.Inv.accounting {s : DeployState} (h : s.Inv) : Accounting s where
  busy := h.busy
  reported job hmem hpc := by
    have hdone := (h.jobs job hmem).done
    rwa [hpc] at hdone
  defined job hmem hpc := by
    have hdone := (h.jobs job hmem).done
    rw [hpc] at hdone
    exact hdone
  cleanup := h.waiting

/-- A call starts outside the accounts. -/
theorem startJob_ok {params : Bytes} {taskAlloc : Bool} {o : DeployOutcome}
    (h : taskAlloc = true → (readDeployTask params).downloadUrl = [] → o.alloc 0 = true) :
    (startJob params taskAlloc o).Ok ∧ (startJob params taskAlloc o).pc.active = false := by
  have hname : 0 ∉ (readDeployTask params).projectName := nul_notMem_readField _ _ _ _
  have hpath : 0 ∉ (readDeployTask params).deployPath := nul_notMem_readField _ _ _ _
  unfold startJob
  dsimp only
  split
  · exact ⟨⟨hname, hpath, by simp, trivial⟩, rfl⟩
  · rename_i halloc
    split
    · rename_i hurl
      split
      · exact ⟨⟨hname, hpath, by simp, trivial⟩, rfl⟩
      · exact ⟨⟨hname, hpath, by simp, trivial⟩, rfl⟩
      · rename_i hreport
        have hgranted := h (by simpa using halloc) hurl
        exact absurd hreport (deployReportStatus_defined hgranted)
    · exact ⟨⟨hname, hpath, by simp, rfl, rfl, rfl⟩, rfl⟩

/-- A step of one job among the others. -/
theorem inv_step_job {s : DeployState} (h : s.Inv) {i : ℕ} {o : DeployOutcome} {job job' : DeployJob}
    {busy' : Bool} (hjob : s.jobs[i]? = some job) (hgranted : JobGranted job o)
    (hs : stepJob s.busy job o = some (busy', job')) :
    DeployState.Inv ⟨busy', s.jobs.set i job',
      if job.pc = .clearing ∧ s.cleanup = .waiting then .woken else s.cleanup⟩ := by
  obtain ⟨hi, hget⟩ := List.getElem?_eq_some_iff.1 hjob
  have hmem : job ∈ s.jobs := List.mem_of_getElem? hjob
  have hok := h.jobs job hmem
  have hok' := stepJob_ok hok hgranted hs
  have hmoves := stepJob_moves hok hgranted hs
  have hcount : (s.jobs.set i job').countP (fun job => job.pc.active) =
      s.active - (if job.pc.active then 1 else 0) + (if job'.pc.active then 1 else 0) := by
    rw [List.countP_set hi, hget]
    rfl
  have hpos : job.pc.active = true → 0 < s.active := fun hactive =>
    List.countP_pos_iff.2 ⟨job, hmem, hactive⟩
  have hbusy := h.busy
  have hjobs : ∀ j ∈ s.jobs.set i job', j.Ok := by
    intro j hj
    rcases List.mem_or_eq_of_mem_set hj with hj | rfl
    · exact h.jobs j hj
    · exact hok'
  have hcalls : s.cleanup ≠ .notCalled → (job'.pc.inCall = true → job.pc.inCall = true) →
      ∀ j ∈ s.jobs.set i job', j.pc.inCall = false := by
    intro hne hcall j hj
    rcases List.mem_or_eq_of_mem_set hj with hj | rfl
    · exact h.calls hne j hj
    · by_contra hin
      have hin' := hcall (by simpa using hin)
      rw [h.calls hne job hmem] at hin'
      cases hin'
  have hkept : (if job.pc = .clearing ∧ s.cleanup = .waiting then CleanupPc.woken
      else s.cleanup) ≠ .notCalled → s.cleanup ≠ .notCalled := by
    intro hne hnot
    exact hne (by rw [if_neg (by simp [hnot]), hnot])
  have hwaiting : (if job.pc = .clearing ∧ s.cleanup = .waiting then CleanupPc.woken
      else s.cleanup) = .waiting → s.cleanup = .waiting ∧ job.pc ≠ .clearing := by
    intro hw
    split at hw
    · cases hw
    · rename_i hnot
      exact ⟨hw, fun hpc => hnot ⟨hpc, hw⟩⟩
  cases hmoves with
  | goesOn hb hactive hcall =>
    refine ⟨?_, hjobs, fun hne => hcalls (hkept hne) hcall, fun hw => ?_⟩
    · rw [DeployState.active, hcount, hactive, hb, ← hbusy]
      split
      · have := hpos ‹_›
        omega
      · omega
    · rw [hb]
      exact h.waiting (hwaiting hw).1
  | accepted hpc hfree hset hactive =>
    rw [hfree] at hbusy
    have hnot : s.cleanup = .notCalled := by
      by_contra hne
      have := h.calls hne job hmem
      rw [hpc] at this
      cases this
    refine ⟨?_, hjobs, fun hne => absurd hnot (hkept hne), fun _ => hset⟩
    rw [DeployState.active, hcount, hbusy, hpc, hactive, hset]
    rfl
  | finished hactive hwhere hclear hinactive hcall =>
    have hone := hpos hactive
    have hset : s.busy = true := by
      by_contra hfree
      rw [if_neg hfree] at hbusy
      omega
    rw [if_pos hset] at hbusy
    refine ⟨?_, hjobs, fun hne => hcalls (hkept hne) fun hin => ?_, fun hw => ?_⟩
    · rw [DeployState.active, hcount, hbusy, hactive, hinactive, hclear]
      rfl
    · rw [hcall] at hin
      cases hin
    · obtain ⟨hw, hnot⟩ := hwaiting hw
      rcases hwhere with hin | hpc
      · rw [h.calls (by simp [hw]) job hmem] at hin
        cases hin
      · exact absurd hpc hnot

theorem inv_deployStep {s s' : DeployState} {a : DeployStep} (h : s.Inv) (hgranted : DeployGranted s a)
    (hs : deployStep s a = some s') : s'.Inv := by
  cases a with
  | call params taskAlloc o =>
    simp only [deployStep] at hs
    split at hs
    · rename_i hnot
      cases hs
      obtain ⟨hok, hinactive⟩ := startJob_ok hgranted
      refine ⟨?_, ?_, fun hne => absurd hnot hne, h.waiting⟩
      · have hbusy := h.busy
        simp only [DeployState.active, List.countP_append, List.countP_singleton, hinactive,
          Bool.false_eq_true, if_false, add_zero] at hbusy ⊢
        exact hbusy
      · intro job hjob
        rcases List.mem_append.1 hjob with hjob | hjob
        · exact h.jobs job hjob
        · rw [List.mem_singleton.1 hjob]
          exact hok
    · cases hs
  | step i o =>
    simp only [deployStep] at hs
    split at hs
    · cases hs
    · rename_i job hjob
      split at hs
      · cases hs
      · rename_i busy' job' hstep
        cases hs
        exact inv_step_job h hjob (hgranted job hjob) hstep
  | cleanup =>
    simp only [deployStep] at hs
    split at hs
    · split at hs
      · rename_i hcalls
        cases hs
        refine ⟨h.busy, h.jobs, fun _ job hjob => by simpa using List.all_eq_true.1 hcalls job hjob,
          fun hw => ?_⟩
        by_contra hfree
        rw [if_neg hfree] at hw
        cases hw
      · cases hs
    · rename_i hwoken
      cases hs
      refine ⟨h.busy, h.jobs, fun _ => h.calls (by simp [hwoken]), fun hw => ?_⟩
      by_contra hfree
      rw [if_neg hfree] at hw
      cases hw
    · cases hs

/-- **Deploy accounting.**  In every run of calls, workers and clean-up in which log
buffers and reports get their memory: `busy` is set exactly while one accepted task is
under way, never two; every worker that has returned has posted one status, a success
exactly if all its commands ended with exit code `0`; and with no task under way the next
one is accepted and the clean-up comes to its end. -/
theorem deploy_accounting (s : DeployState) (h : deployMachine.ReachableVia DeployGranted s) :
    Accounting s ∧
    (s.active = 0 →
      (∀ job o, job.pc = .locking → stepJob s.busy job o = some (true, { job with pc := .creating })) ∧
      s.cleanup ≠ .waiting ∧
      (s.cleanup = .woken → deployStep s .cleanup = some { s with cleanup := .left })) := by
  have hinit : ∀ s, deployMachine.init s → s.Inv := by
    rintro s rfl
    exact ⟨rfl, by simp, by simp, by simp⟩
  have hinv := (Machine.invariant hinit fun _ _ _ => inv_deployStep) s h
  refine ⟨hinv.accounting, fun hnone => ?_⟩
  have hfree : s.busy = false := by
    by_contra hset
    have hbusy := hinv.busy
    rw [if_pos (by simpa using hset)] at hbusy
    omega
  refine ⟨fun job o hpc => ?_, fun hw => ?_, fun hw => ?_⟩
  · simp [stepJob, hpc, hfree]
  · have := hinv.waiting hw
    rw [hfree] at this
    cases this
  · simp [deployStep, hw, hfree]

/-- A request for an archive. -/
def deployRequest : Bytes := ascii "\x7b\"downloadUrl\":\"http://host/app.zip\"\x7d"

/-- All calls come out well, except allocations where `alloc` says so. -/
def outcomeWith (alloc : ℕ → Bool) : DeployOutcome := ⟨true, true, some 0, [], alloc, 0⟩

/-- The request is accepted. -/
def acceptedJob : DeployJob :=
  { startJob deployRequest true (outcomeWith fun _ => true) with pc := .creating }

theorem deploy_accounting_accepted : Accounting ⟨true, [acceptedJob], .notCalled⟩ := by
  have hcall : deployMachine.step ⟨false, [], .notCalled⟩
      (.call deployRequest true (outcomeWith fun _ => true)) =
      some ⟨false, [startJob deployRequest true (outcomeWith fun _ => true)], .notCalled⟩ := rfl
  have hpc : (startJob deployRequest true (outcomeWith fun _ => true)).pc = .locking := by
    decide +kernel
  have hlock : deployMachine.step
      ⟨false, [startJob deployRequest true (outcomeWith fun _ => true)], .notCalled⟩
      (.step 0 (outcomeWith fun _ => true)) = some ⟨true, [acceptedJob], .notCalled⟩ := by
    simp [deployMachine, deployStep, stepJob, hpc, acceptedJob]
  have hgranted : DeployGranted
      ⟨false, [startJob deployRequest true (outcomeWith fun _ => true)], .notCalled⟩
      (.step 0 (outcomeWith fun _ => true)) := by
    intro job hjob
    have heq : startJob deployRequest true (outcomeWith fun _ => true) = job := Option.some.inj hjob
    rw [← heq, JobGranted, hpc]
    trivial
  have hstart : DeployGranted ⟨false, [], .notCalled⟩
      (.call deployRequest true (outcomeWith fun _ => true)) := fun _ _ => rfl
  exact (deploy_accounting _ (.step (.step (.init rfl) hstart hcall) hgranted hlock)).1

/-- The worker finds no memory for its log; another request follows, and the clean-up. -/
def wedgingRun : List DeployStep :=
  [.call deployRequest true (outcomeWith fun _ => true),
    .step 0 (outcomeWith fun _ => true), .step 0 (outcomeWith fun _ => true),
    .step 0 (outcomeWith fun _ => false),
    .call deployRequest true (outcomeWith fun _ => true), .step 1 (outcomeWith fun _ => true),
    .cleanup]

/-- No task is under way, and yet `busy` is set: the worker has returned without posting
anything, the next request was refused, and the clean-up waits for a signal that no one
will give. -/
theorem deploy_wedged :
    ∃ s, deployMachine.Reachable s ∧ s.active = 0 ∧ s.busy = true ∧ s.cleanup = .waiting ∧
      s.jobs.map (fun job => (job.pc, job.posts.length)) = [(.returned, 0), (.answered, 0)] ∧
      ∀ a, deployStep s a = none := by
  have hrun : ((deployMachine.run ⟨false, [], .notCalled⟩ wedgingRun).map fun s =>
      (s.busy, s.cleanup, s.jobs.map fun job => (job.pc, job.posts.length))) =
      some (true, .waiting, [(.returned, 0), (.answered, 0)]) := by decide +kernel
  obtain ⟨s, hs, heq⟩ := Option.map_eq_some_iff.1 hrun
  simp only [Prod.mk.injEq] at heq
  obtain ⟨hbusy, hcleanup, hjobs⟩ := heq
  have hpcs : ∀ job ∈ s.jobs, job.pc = .returned ∨ job.pc = .answered := by
    intro job hjob
    have hmem := List.mem_map_of_mem (f := fun job : DeployJob => (job.pc, job.posts.length)) hjob
    rw [hjobs] at hmem
    simp only [List.mem_cons, Prod.mk.injEq, List.not_mem_nil, or_false] at hmem
    exact hmem.imp And.left And.left
  refine ⟨s, Machine.reachable_of_run rfl hs, ?_, hbusy, hcleanup, hjobs, fun a => ?_⟩
  · refine List.countP_eq_zero.2 fun job hjob => ?_
    rcases hpcs job hjob with hpc | hpc <;> rw [hpc] <;> simp [DeployPc.active]
  · cases a with
    | call params taskAlloc o => simp [deployStep, hcleanup]
    | cleanup => simp [deployStep, hcleanup]
    | step i o =>
      cases hi : s.jobs[i]? with
      | none => simp [deployStep, hi]
      | some job =>
        rcases hpcs job (List.mem_of_getElem? hi) with hpc | hpc <;>
          simp [deployStep, hi, stepJob, hpc]

end IotIde
