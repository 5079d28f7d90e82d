import IotIde.Deploy.Manager

/-!
# What a worker runs

A worker goes through its places one by one, and all it runs is made of its task.

* `RunsFor` — the commands of a task;
* `DeployJob.WorksFor` — a job with that task, which has run nothing else;
* `stepJob_worksFor` — one step keeps that;
* `run_job`, `run_job_of_leadsTo` — what every step of a job keeps holds of it in every run.
-/

namespace IotIde

open CText Runs

/-! ## The commands of a task -/

/-- A command of the task, with its working directory. -/
inductive RunsFor (task : DeployTask) (nowMs : ℤ) : Bytes × Option Bytes → Prop
  | download {quotedZip quotedUrl : Bytes} :
      shellQuote (zipPathOf task nowMs) (PATH_MAX * 2) = some quotedZip →
      shellQuote task.downloadUrl 2048 = some quotedUrl →
      RunsFor task nowMs (downloadCommand quotedZip quotedUrl, none)
  | extract {quotedZip quotedTarget : Bytes} :
      shellQuote (zipPathOf task nowMs) (PATH_MAX * 2) = some quotedZip →
      shellQuote (targetPathOf task) (PATH_MAX * 2) = some quotedTarget →
      RunsFor task nowMs (extractCommand quotedZip quotedTarget, none)
  | command : RunsFor task nowMs (task.deployCommand, some (targetPathOf task))

/-- The places at which a worker has its paths and may still run something. -/
def DeployPc.underway : DeployPc → Bool
  | ensuringRoot => true
  | downloading => true
  | removingTree => true
  | ensuringTarget => true
  | extracting => true
  | runningCommand => true
  | _ => false

/-- The job has that task, and all it has run is of that task. -/
structure DeployJob.WorksFor (job : DeployJob) (task : DeployTask) : Prop where
  sameTask : job.task = task
  target : job.pc.underway = true → job.targetPath = targetPathOf task
  zip : job.pc.underway = true → ∃ nowMs, job.zipPath = zipPathOf task nowMs
  launched : ∀ entry ∈ job.launched, ∃ nowMs, RunsFor task nowMs entry

section Steps

variable {job : DeployJob} {task : DeployTask} {o : DeployOutcome}

/-- Going on to a place further on. -/
theorem DeployJob.WorksFor.moved (h : job.WorksFor task) {pc : DeployPc}
    (hpc : job.pc.underway = true ∨ pc.underway = false) :
    DeployJob.WorksFor { job with pc := pc } task where
  sameTask := h.sameTask
  target hpc' := h.target (hpc.resolve_right (by simp [show pc.underway = true from hpc']))
  zip hpc' := h.zip (hpc.resolve_right (by simp [show pc.underway = true from hpc']))
  launched := h.launched

/-- A place at which nothing more is run. -/
theorem DeployJob.WorksFor.ended {job' : DeployJob} (h : job.WorksFor task)
    (htask : job'.task = job.task) (hpc : job'.pc.underway = false)
    (hlaunched : job'.launched = job.launched) : job'.WorksFor task where
  sameTask := htask.trans h.sameTask
  target hpc' := by rw [hpc] at hpc'; cases hpc'
  zip hpc' := by rw [hpc] at hpc'; cases hpc'
  launched := hlaunched ▸ h.launched

/-- One command more. -/
theorem launched_append (h : job.WorksFor task) {entry : Bytes × Option Bytes}
    (hentry : ∃ nowMs, RunsFor task nowMs entry) :
    ∀ entry' ∈ job.launched ++ [entry], ∃ nowMs, RunsFor task nowMs entry' := by
  intro entry' hmem
  rcases List.mem_append.1 hmem with hmem | hmem
  · exact h.launched entry' hmem
  · rw [List.mem_singleton.1 hmem]
    exact hentry

theorem stepStart_worksFor (h : job.WorksFor task) : (stepStart job o).WorksFor task := by
  simp only [stepStart]
  split_ifs
  · exact h.ended rfl rfl rfl
  · exact ⟨h.sameTask, fun _ => congrArg targetPathOf h.sameTask,
      fun _ => ⟨o.nowMs, congrArg (zipPathOf · o.nowMs) h.sameTask⟩, h.launched⟩

theorem stepDownload_worksFor (h : job.WorksFor task) (hpc : job.pc = .downloading) :
    (stepDownload job o).WorksFor task := by
  have hunderway : job.pc.underway = true := by rw [hpc]; rfl
  obtain ⟨nowMs, hzip⟩ := h.zip hunderway
  unfold stepDownload
  split
  · rename_i quotedUrl quotedZip hurl hquoted
    rw [h.sameTask] at hurl
    rw [hzip] at hquoted
    have hlaunched := launched_append h ⟨nowMs, .download hquoted hurl⟩
    dsimp only
    split_ifs
    · exact ⟨h.sameTask, fun _ => h.target hunderway, fun _ => h.zip hunderway, hlaunched⟩
    · exact ⟨h.sameTask, fun hpc' => (by cases hpc'), fun hpc' => (by cases hpc'), hlaunched⟩
  · exact h.ended rfl rfl rfl

theorem stepExtract_worksFor (h : job.WorksFor task) (hpc : job.pc = .extracting) :
    (stepExtract job o).WorksFor task := by
  have hunderway : job.pc.underway = true := by rw [hpc]; rfl
  obtain ⟨nowMs, hzip⟩ := h.zip hunderway
  unfold stepExtract
  split
  · rename_i quotedZip quotedTarget hquoted htarget
    rw [hzip] at hquoted
    rw [h.target hunderway] at htarget
    have hlaunched := launched_append h ⟨nowMs, .extract hquoted htarget⟩
    dsimp only
    split_ifs
    · exact ⟨h.sameTask, fun hpc' => (by cases hpc'), fun hpc' => (by cases hpc'), hlaunched⟩
    · exact ⟨h.sameTask, fun _ => h.target hunderway, fun _ => h.zip hunderway, hlaunched⟩
    · exact ⟨h.sameTask, fun hpc' => (by cases hpc'), fun hpc' => (by cases hpc'), hlaunched⟩
  · exact h.ended rfl rfl rfl

theorem stepCommand_worksFor (h : job.WorksFor task) (hpc : job.pc = .runningCommand) :
    (stepCommand job o).WorksFor task := by
  have hunderway : job.pc.underway = true := by rw [hpc]; rfl
  have hentry : ∃ nowMs, RunsFor task nowMs (job.task.deployCommand, some job.targetPath) := by
    rw [h.sameTask, h.target hunderway]
    exact ⟨0, .command⟩
  have hlaunched := launched_append h hentry
  unfold stepCommand
  dsimp only
  split_ifs
  · exact ⟨h.sameTask, fun hpc' => (by cases hpc'), fun hpc' => (by cases hpc'), hlaunched⟩
  · exact ⟨h.sameTask, fun hpc' => (by cases hpc'), fun hpc' => (by cases hpc'), hlaunched⟩

theorem stepReport_worksFor (h : job.WorksFor task) (success : Bool) (message : Bytes) :
    (stepReport job success message o).WorksFor task := by
  unfold stepReport
  split
  · exact h.ended rfl rfl rfl
  · exact h.ended rfl rfl rfl
  · exact h.ended rfl rfl rfl

/-- One step of a job keeps it to its task. -/
theorem stepJob_worksFor {busy busy' : Bool} {job' : DeployJob} (h : job.WorksFor task)
    (hs : stepJob busy job o = some (busy', job')) : job'.WorksFor task := by
  unfold stepJob at hs
  split at hs
  · cases busy <;> cases hs
    · exact h.moved (Or.inr rfl)
    · exact h.moved (Or.inr rfl)
  · cases hs
    cases o.ok
    · exact h.moved (Or.inr rfl)
    · exact h.moved (Or.inr rfl)
  · cases hs
    exact h.moved (Or.inr rfl)
  · cases hs
    exact stepStart_worksFor h
  · rename_i hpc
    cases hs
    split
    · exact h.moved (Or.inl (by rw [hpc]; rfl))
    · exact h.ended rfl rfl rfl
  · rename_i hpc
    cases hs
    exact stepDownload_worksFor h hpc
  · rename_i hpc
    cases hs
    split
    · exact h.moved (Or.inl (by rw [hpc]; rfl))
    · exact h.ended rfl rfl rfl
  · rename_i hpc
    cases hs
    split
    · exact h.moved (Or.inl (by rw [hpc]; rfl))
    · exact h.ended rfl rfl rfl
  · rename_i hpc
    cases hs
    exact stepExtract_worksFor h hpc
  · rename_i hpc
    cases hs
    exact stepCommand_worksFor h hpc
  · cases hs
    exact stepReport_worksFor h _ _
  · cases hs
    exact h.moved (Or.inr rfl)
  · cases hs
  · cases hs
  · cases hs

end Steps

/-! ## Runs -/

/-- One step of the manager leaves a job, or is a step of it. -/
theorem deployStep_job {s s' : DeployState} {a : DeployStep} (h : deployStep s a = some s')
    {i : ℕ} {job : DeployJob} (hjob : s.jobs[i]? = some job) :
    ∃ job', s'.jobs[i]? = some job' ∧
      (job' = job ∨ ∃ busy' o, a = .step i o ∧ stepJob s.busy job o = some (busy', job')) := by
  have hlt : i < s.jobs.length := (List.getElem?_eq_some_iff.1 hjob).1
  cases a with
  | call params taskAlloc o =>
    simp only [deployStep] at h
    split_ifs at h
    cases h
    exact ⟨job, by rw [List.getElem?_append_left hlt, hjob], Or.inl rfl⟩
  | step j o =>
    simp only [deployStep] at h
    cases hj : s.jobs[j]? with
    | none => rw [hj] at h; cases h
    | some stepped =>
      simp only [hj] at h
      cases hstep : stepJob s.busy stepped o with
      | none => rw [hstep] at h; cases h
      | some result =>
        obtain ⟨busy, job'⟩ := result
        simp only [hstep] at h
        cases h
        by_cases hij : j = i
        · subst hij
          rw [hjob] at hj
          cases hj
          refine ⟨job', ?_, Or.inr ⟨busy, o, rfl, hstep⟩⟩
          dsimp only
          rw [List.getElem?_set_self hlt]
        · refine ⟨job, ?_, Or.inl rfl⟩
          dsimp only
          rw [List.getElem?_set_ne hij, hjob]
  | cleanup =>
    have hjobs : s'.jobs = s.jobs := by
      simp only [deployStep] at h
      split at h
      · split_ifs at h
        all_goals cases h; rfl
      · cases h; rfl
      · cases h
    exact ⟨job, by rw [hjobs, hjob], Or.inl rfl⟩

/-- A condition on the steps that jobs make. -/
def OnJobs (cond : DeployJob → DeployOutcome → Prop) (s : DeployState) : DeployStep → Prop
  | .step i o => ∀ job ∈ s.jobs[i]?, cond job o
  | _ => True

/-- What every step of a job that meets a condition keeps holds of it in every later state
of a run whose steps meet it. -/
theorem run_job_of_leadsTo {cond : DeployJob → DeployOutcome → Prop} {P : DeployJob → Prop}
    (hstep : ∀ {busy busy' : Bool} {job job' : DeployJob} {o : DeployOutcome}, P job → cond job o →
      stepJob busy job o = some (busy', job') → P job') {i : ℕ} :
    ∀ {s s' : DeployState}, deployMachine.LeadsTo (OnJobs cond) s s' →
      ∀ {job : DeployJob}, s.jobs[i]? = some job → P job →
        ∃ job', s'.jobs[i]? = some job' ∧ P job' := by
  rintro s s' ⟨steps, hmeets, h⟩
  induction steps generalizing s with
  | nil =>
    intro job hjob hP
    cases h
    exact ⟨job, hjob, hP⟩
  | cons a steps ih =>
    intro job hjob hP
    obtain ⟨t, ht, hrest⟩ := Option.bind_eq_some_iff.1 h
    obtain ⟨hcond, hlater⟩ := hmeets t ht
    obtain ⟨job', hjob', rfl | ⟨busy', o, rfl, hs⟩⟩ := deployStep_job ht hjob
    · exact ih hlater hrest hjob' hP
    · exact ih hlater hrest hjob' (hstep hP (hcond job hjob) hs)

/-- What every step of a job keeps holds of it in every later state. -/
theorem run_job {P : DeployJob → Prop}
    (hstep : ∀ {busy busy' : Bool} {job job' : DeployJob} {o : DeployOutcome}, P job →
      stepJob busy job o = some (busy', job') → P job') {i : ℕ} {steps : List DeployStep}
    {s s' : DeployState} (h : deployMachine.run s steps = some s') {job : DeployJob}
    (hjob : s.jobs[i]? = some job) (hP : P job) : ∃ job', s'.jobs[i]? = some job' ∧ P job' := by
  have hall : ∀ (s : DeployState) (a : DeployStep), OnJobs (fun _ _ => True) s a := by
    intro s a
    cases a with
    | step i o => exact fun _ _ => trivial
    | call params taskAlloc o => trivial
    | cleanup => trivial
  exact run_job_of_leadsTo (fun hP _ hs => hstep hP hs)
    ⟨steps, Machine.meets_of_forall hall _ _, h⟩ hjob hP

/-- The job of a call has the task that the call read. -/
theorem startJob_worksFor (params : Bytes) (taskAlloc : Bool) (o : DeployOutcome) :
    (startJob params taskAlloc o).WorksFor (readDeployTask params) := by
  have hnew : ∀ (pc : DeployPc) (posts : List Bytes), pc.underway = false →
      DeployJob.WorksFor ⟨readDeployTask params, pc, ⟨[], 0, 0⟩, [], [], none, none, none, [],
        posts⟩ (readDeployTask params) := by
    intro pc posts hpc
    exact ⟨rfl, fun h => by simp [hpc] at h, fun h => by simp [hpc] at h, fun _ h => by cases h⟩
  simp only [startJob]
  split_ifs
  · exact hnew _ _ rfl
  · split
    · exact hnew _ _ rfl
    · exact hnew _ _ rfl
    · exact hnew _ _ rfl
  · exact hnew _ _ rfl

theorem call_job {s s' : DeployState} {params : Bytes} {taskAlloc : Bool} {o : DeployOutcome}
    (h : deployMachine.step s (.call params taskAlloc o) = some s') :
    s'.jobs[s.jobs.length]? = some (startJob params taskAlloc o) := by
  simp only [deployMachine, deployStep] at h
  split_ifs at h
  cases h
  simp

theorem unstarted_step {busy busy' : Bool} {job job' : DeployJob} {o : DeployOutcome}
    (h : (job.pc = .answered ∨ job.pc = .undefined) ∧ job.launched = [])
    (hs : stepJob busy job o = some (busy', job')) :
    (job'.pc = .answered ∨ job'.pc = .undefined) ∧ job'.launched = [] := by
  unfold stepJob at hs
  rcases h.1 with hpc | hpc
  · rw [hpc] at hs
    cases hs
  · rw [hpc] at hs
    cases hs

/-- Without a URL there is no worker. -/
theorem call_unstarted {s s' s'' : DeployState} {params : Bytes} {taskAlloc : Bool}
    {o : DeployOutcome} {steps : List DeployStep} (hurl : (readDeployTask params).downloadUrl = [])
    (hcall : deployMachine.step s (.call params taskAlloc o) = some s')
    (hrun : deployMachine.run s' steps = some s'') :
    ∃ job, s''.jobs[s.jobs.length]? = some job ∧
      (job.pc = .answered ∨ job.pc = .undefined) ∧ job.launched = [] := by
  have hstart : ((startJob params taskAlloc o).pc = .answered ∨
      (startJob params taskAlloc o).pc = .undefined) ∧
        (startJob params taskAlloc o).launched = [] := by
    simp only [startJob, if_pos hurl]
    split_ifs
    · exact ⟨Or.inl rfl, rfl⟩
    · split
      · exact ⟨Or.inl rfl, rfl⟩
      · exact ⟨Or.inl rfl, rfl⟩
      · exact ⟨Or.inr rfl, rfl⟩
  exact run_job unstarted_step hrun (call_job hcall) hstart

/-- Whatever happens after a call, its worker runs only commands of the task it read. -/
theorem call_worksFor {s s' s'' : DeployState} {params : Bytes} {taskAlloc : Bool}
    {o : DeployOutcome} {steps : List DeployStep}
    (hcall : deployMachine.step s (.call params taskAlloc o) = some s')
    (hrun : deployMachine.run s' steps = some s'') :
    ∃ job, s''.jobs[s.jobs.length]? = some job ∧ job.WorksFor (readDeployTask params) :=
  run_job stepJob_worksFor hrun (call_job hcall) (startJob_worksFor params taskAlloc o)

end IotIde
