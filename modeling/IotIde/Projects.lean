import IotIde.Deploy.Accounting
import IotIde.Deploy.Jobs
import IotIde.Ide.ConnectionManager
import IotIde.Start.Manager

/-!
# Deploys and starts of one client

A deploy is answered when its worker has been created and goes on from there; a start has
a lock and a flag of its own.  Neither manager knows of the other.

* `StartJob`, `stepStartJob` — a call of `start_manager_handle_start`, cut where another
  thread can come between;
* `projectMachine` — the requests that pass the check of the client, the worker, and the
  start calls, in any order;
* `Undisturbed` — a step that launches nothing where a deploy is replacing files;
* `started_while_extracting` — not every step is;
* `undisturbed_of_apart` — requests for one directory that wait for each other are.
-/

namespace IotIde

open CText Runs

/-! ## A start call -/

/-- Where a call of `start_manager_handle_start` is. -/
inductive StartPc
  | entering
  | allocatingLog
  | launching
  | clearingBusy
  | answered
  deriving DecidableEq

/-- A call with what it has read. -/
structure StartJob where
  request : StartRequest
  pc : StartPc
  deriving DecidableEq

/-- The call up to its locked section. -/
def startStartJob (params : Bytes) : StartJob :=
  let request := readStartRequest params
  ⟨request, if request.startCommand = [] then .answered else .entering⟩

/-- One step of a call, on the manager's `busy`. -/
def stepStartJob (busy : Bool) (job : StartJob) (logAlloc : Bool) : Option (Bool × StartJob) :=
  match job.pc with
  | .entering =>
    some (if busy then (busy, { job with pc := .answered })
      else (true, { job with pc := .allocatingLog }))
  | .allocatingLog =>
    some (busy, { job with
      pc := if (sbInit logAlloc 1024).1 ≠ 0 then .clearingBusy else .launching })
  | .launching => some (busy, { job with pc := .clearingBusy })
  | .clearingBusy => some (false, { job with pc := .answered })
  | .answered => none

/-- What the next step of the call gives to `start_background_command`. -/
def StartJob.launches (job : StartJob) : Option (Bytes × Bytes) :=
  if job.pc = .launching then some (job.request.startCommand, job.request.targetPath) else none

theorem stepStartJob_request {busy busy' logAlloc : Bool} {job job' : StartJob}
    (h : stepStartJob busy job logAlloc = some (busy', job')) :
    job.pc ≠ .answered ∧ job'.request = job.request := by
  unfold stepStartJob at h
  split at h
  · rename_i hpc
    cases busy <;> cases h <;> exact ⟨by rw [hpc]; decide, rfl⟩
  · rename_i hpc
    cases h
    exact ⟨by rw [hpc]; decide, rfl⟩
  · rename_i hpc
    cases h
    exact ⟨by rw [hpc]; decide, rfl⟩
  · rename_i hpc
    cases h
    exact ⟨by rw [hpc]; decide, rfl⟩
  · cases h

/-- The steps of a call by itself, and what they launch. -/
def runStartJob (logAlloc : Bool) : ℕ → Bool → StartJob → Option (Bytes × Bytes)
  | 0, _, _ => none
  | n + 1, busy, job =>
    match stepStartJob busy job logAlloc with
    | none => none
    | some (busy', job') => job.launches <|> runStartJob logAlloc n busy' job'

/-- A call by itself launches what `startCall` says. -/
theorem runStartJob_eq (alloc : ℕ → Bool) (verdict : StartVerdict) (busy : Bool) (params : Bytes) :
    runStartJob (alloc 0) 4 busy (startStartJob params) =
      (startCall alloc verdict busy params).launched := by
  simp only [startStartJob, startCall]
  by_cases hcommand : (readStartRequest params).startCommand = []
  · rw [if_pos hcommand, if_pos hcommand]
    rfl
  rw [if_neg hcommand, if_neg hcommand]
  cases busy with
  | true => rfl
  | false =>
    by_cases hlog : (sbInit (alloc 0) 1024).1 ≠ 0
    · simp [runStartJob, stepStartJob, StartJob.launches, hlog]
    · simp [runStartJob, stepStartJob, StartJob.launches, hlog]

/-! ## Both managers -/

/-- The deploy manager, the start manager's flag, and every start call made so far. -/
structure ProjectState where
  deploy : DeployState
  startBusy : Bool
  starts : List StartJob

/-- What may happen: a request comes in, or a thread makes a step. -/
inductive ProjectStep
  | deployCall (params : Bytes) (taskAlloc : Bool) (o : DeployOutcome)
  | deployStep (job : ℕ) (o : DeployOutcome)
  | startCall (params : Bytes)
  | startStep (job : ℕ) (logAlloc : Bool)

/-- One step, while `ide` says who is connected. -/
def projectStep (ide : IdeConnectionManager) (s : ProjectState) : ProjectStep → Option ProjectState
  | .deployCall params taskAlloc o =>
    if checkActiveClient ide params then
      (deployStep s.deploy (.call params taskAlloc o)).map fun deploy => { s with deploy := deploy }
    else some s
  | .deployStep i o =>
    (deployStep s.deploy (.step i o)).map fun deploy => { s with deploy := deploy }
  | .startCall params =>
    if checkActiveClient ide params then
      some { s with starts := s.starts ++ [startStartJob params] }
    else some s
  | .startStep i logAlloc =>
    match s.starts[i]? with
    | none => none
    | some job =>
      match stepStartJob s.startBusy job logAlloc with
      | none => none
      | some (busy, job') => some { s with startBusy := busy, starts := s.starts.set i job' }

/-- The managers from their initialisation on. -/
def projectMachine (ide : IdeConnectionManager) : Machine ProjectState ProjectStep where
  init s := s = ⟨⟨false, [], .notCalled⟩, false, []⟩
  step := projectStep ide

/-- What a step launches for a start call, and where. -/
def ProjectState.launches (s : ProjectState) : ProjectStep → Option (Bytes × Bytes)
  | .startStep i _ => s.starts[i]?.bind StartJob.launches
  | _ => none

/-- The worker is at the removal of its target or past it, and not done yet. -/
def DeployPc.replacing : DeployPc → Bool
  | removingTree => true
  | ensuringTarget => true
  | extracting => true
  | runningCommand => true
  | _ => false

/-- The step launches nothing in a directory that a worker is replacing; `dirOf` tells
which directory a path is. -/
def Undisturbed {δ : Type*} (dirOf : Bytes → δ) (s : ProjectState) (a : ProjectStep) : Prop :=
  ∀ command path, s.launches a = some (command, path) →
    ∀ job ∈ s.deploy.jobs, job.pc.replacing = true → dirOf job.targetPath ≠ dirOf path

/-! ## A start in the middle of a deploy -/

/-- The connected client. -/
def activeIde : IdeConnectionManager := ⟨true, ascii "ide", [], 0⟩

/-- `{"clientId":"ide","downloadUrl":"http://host/app.zip"}` -/
def activeDeploy : Bytes :=
  ascii "\x7b\"clientId\":\"ide\",\"downloadUrl\":\"http://host/app.zip\"\x7d"

/-- `{"clientId":"ide","startCommand":"run"}` -/
def activeStart : Bytes := ascii "\x7b\"clientId\":\"ide\",\"startCommand\":\"run\"\x7d"

/-- The worker has removed and made its target; then a start call goes up to its command. -/
def disturbingRun (start : Bytes) : List ProjectStep :=
  .deployCall activeDeploy true (outcomeWith fun _ => true) ::
    (List.replicate 7 (.deployStep 0 (outcomeWith fun _ => true)) ++
      [.startCall start, .startStep 0 true, .startStep 0 true])

/-- A request is accepted, and its command launched in a directory that was removed for a
deploy and is not yet filled. -/
theorem started_while_extracting :
    ∃ s, (projectMachine activeIde).Reachable s ∧
      s.launches (.startStep 0 true) = some (ascii "run", ascii "/tmp/deploy/project") ∧
      (∃ s', projectStep activeIde s (.startStep 0 true) = some s') ∧
      s.deploy.jobs.map (fun job => (job.pc, job.targetPath)) =
        [(.extracting, ascii "/tmp/deploy/project")] ∧
      ¬ Undisturbed id s (.startStep 0 true) := by
  have hrun : (((projectMachine activeIde).run ⟨⟨false, [], .notCalled⟩, false, []⟩
      (disturbingRun activeStart)).map fun s => (s.launches (.startStep 0 true),
        (projectStep activeIde s (.startStep 0 true)).isSome,
        s.deploy.jobs.map fun job => (job.pc, job.targetPath))) =
      some (some (ascii "run", ascii "/tmp/deploy/project"), true,
        [(.extracting, ascii "/tmp/deploy/project")]) := by decide +kernel
  obtain ⟨s, hs, heq⟩ := Option.map_eq_some_iff.1 hrun
  simp only [Prod.mk.injEq] at heq
  obtain ⟨hlaunches, hstep, hjobs⟩ := heq
  refine ⟨s, Machine.reachable_of_run rfl hs, hlaunches, Option.isSome_iff_exists.1 hstep, hjobs,
    fun h => ?_⟩
  obtain ⟨job, hmem, hjob⟩ := List.mem_map.1 (hjobs ▸ List.mem_singleton_self
    (DeployPc.extracting, ascii "/tmp/deploy/project"))
  obtain ⟨hpc, htarget⟩ := Prod.mk.inj hjob
  exact h _ _ hlaunches job hmem (by rw [hpc]; rfl) htarget

/-! ## Requests that wait for each other -/

/-- The client has had no last word on the task. -/
def DeployPc.outstanding : DeployPc → Bool
  | answered => false
  | clearing => false
  | returned => false
  | undefined => false
  | _ => true

/-- A deploy comes in when every start call for its directory has been answered, and a
start when every deploy to its directory has been refused or has posted its outcome. -/
def Apart {δ : Type*} (dirOf : Bytes → δ) (s : ProjectState) : ProjectStep → Prop
  | .deployCall params _ _ => ∀ start ∈ s.starts, start.pc ≠ .answered →
      dirOf (targetPathOf (readDeployTask params)) ≠ dirOf start.request.targetPath
  | .startCall params => ∀ job ∈ s.deploy.jobs, job.pc.outstanding = true →
      dirOf (targetPathOf job.task) ≠ dirOf (readStartRequest params).targetPath
  | _ => True

instance {δ : Type*} [DecidableEq δ] (dirOf : Bytes → δ) (s : ProjectState) :
    ∀ a, Decidable (Apart dirOf s a)
  | .deployCall params _ _ => inferInstanceAs (Decidable (∀ start ∈ s.starts,
      start.pc ≠ .answered →
        dirOf (targetPathOf (readDeployTask params)) ≠ dirOf start.request.targetPath))
  | .startCall params => inferInstanceAs (Decidable (∀ job ∈ s.deploy.jobs,
      job.pc.outstanding = true →
        dirOf (targetPathOf job.task) ≠ dirOf (readStartRequest params).targetPath))
  | .deployStep _ _ => inferInstanceAs (Decidable True)
  | .startStep _ _ => inferInstanceAs (Decidable True)

section Apart

variable {δ : Type*} {dirOf : Bytes → δ} {ide : IdeConnectionManager}

/-- What that keeps up: no deploy and start call for one directory are both under way. -/
structure ProjectState.Separate (dirOf : Bytes → δ) (s : ProjectState) : Prop where
  works : ∀ job ∈ s.deploy.jobs, job.WorksFor job.task
  apart : ∀ job ∈ s.deploy.jobs, job.pc.outstanding = true → ∀ start ∈ s.starts,
    start.pc ≠ .answered → dirOf (targetPathOf job.task) ≠ dirOf start.request.targetPath

/-- A job that goes on was outstanding before. -/
theorem stepJob_outstanding {busy busy' : Bool} {job job' : DeployJob} {o : DeployOutcome}
    (hs : stepJob busy job o = some (busy', job')) (h : job'.pc.outstanding = true) :
    job.pc.outstanding = true := by
  cases hpc : job.pc with
  | answered => simp [stepJob, hpc] at hs
  | returned => simp [stepJob, hpc] at hs
  | undefined => simp [stepJob, hpc] at hs
  | clearing =>
    simp only [stepJob, hpc, Option.some.injEq, Prod.mk.injEq] at hs
    rw [← hs.2] at h
    cases h
  | _ => rfl

theorem mem_deployStep {s s' : DeployState} {i : ℕ} {o : DeployOutcome} {job' : DeployJob}
    (h : deployStep s (.step i o) = some s') (hmem : job' ∈ s'.jobs) :
    job' ∈ s.jobs ∨ ∃ job ∈ s.jobs, ∃ busy', stepJob s.busy job o = some (busy', job') := by
  simp only [deployStep] at h
  cases hi : s.jobs[i]? with
  | none => rw [hi] at h; cases h
  | some job =>
    simp only [hi] at h
    cases hstep : stepJob s.busy job o with
    | none => rw [hstep] at h; cases h
    | some result =>
      obtain ⟨busy', stepped⟩ := result
      simp only [hstep] at h
      cases h
      rcases List.mem_or_eq_of_mem_set hmem with hmem | rfl
      · exact Or.inl hmem
      · exact Or.inr ⟨job, List.mem_of_getElem? hi, busy', hstep⟩

theorem separate_deployCall {s : ProjectState} {params : Bytes} {taskAlloc : Bool}
    {o : DeployOutcome} (h : s.Separate dirOf)
    (hapart : Apart dirOf s (.deployCall params taskAlloc o)) {deploy : DeployState}
    (hs : deployStep s.deploy (.call params taskAlloc o) = some deploy) :
    ProjectState.Separate dirOf { s with deploy := deploy } := by
  simp only [deployStep] at hs
  split_ifs at hs
  cases hs
  have hnew := startJob_worksFor params taskAlloc o
  refine ⟨fun job hmem => ?_, fun job hmem hout start hstart hpc => ?_⟩
  · rcases List.mem_append.1 hmem with hmem | hmem
    · exact h.works job hmem
    · rw [List.mem_singleton.1 hmem, hnew.sameTask]
      exact hnew
  · rcases List.mem_append.1 hmem with hmem | hmem
    · exact h.apart job hmem hout start hstart hpc
    · rw [List.mem_singleton.1 hmem, hnew.sameTask]
      exact hapart start hstart hpc

theorem separate_deployStep {s : ProjectState} {i : ℕ} {o : DeployOutcome} (h : s.Separate dirOf)
    {deploy : DeployState} (hs : deployStep s.deploy (.step i o) = some deploy) :
    ProjectState.Separate dirOf { s with deploy := deploy } := by
  refine ⟨fun job' hmem => ?_, fun job' hmem hout start hstart hpc => ?_⟩
  · rcases mem_deployStep hs hmem with hmem | ⟨job, hmem, busy', hstep⟩
    · exact h.works job' hmem
    · have hworks := stepJob_worksFor (h.works job hmem) hstep
      rw [hworks.sameTask]
      exact hworks
  · rcases mem_deployStep hs hmem with hmem | ⟨job, hmem, busy', hstep⟩
    · exact h.apart job' hmem hout start hstart hpc
    · rw [(stepJob_worksFor (h.works job hmem) hstep).sameTask]
      exact h.apart job hmem (stepJob_outstanding hstep hout) start hstart hpc

theorem separate_startCall {s : ProjectState} {params : Bytes} (h : s.Separate dirOf)
    (hapart : Apart dirOf s (.startCall params)) :
    ProjectState.Separate dirOf { s with starts := s.starts ++ [startStartJob params] } := by
  refine ⟨h.works, fun job hmem hout start hstart hpc => ?_⟩
  rcases List.mem_append.1 hstart with hstart | hstart
  · exact h.apart job hmem hout start hstart hpc
  · rw [List.mem_singleton.1 hstart]
    exact hapart job hmem hout

theorem separate_startStep {s s' : ProjectState} {i : ℕ} {logAlloc : Bool} (h : s.Separate dirOf)
    (hs : projectStep ide s (.startStep i logAlloc) = some s') : s'.Separate dirOf := by
  simp only [projectStep] at hs
  cases hi : s.starts[i]? with
  | none => rw [hi] at hs; cases hs
  | some start =>
    simp only [hi] at hs
    cases hstep : stepStartJob s.startBusy start logAlloc with
    | none => rw [hstep] at hs; cases hs
    | some result =>
      obtain ⟨busy, start'⟩ := result
      simp only [hstep] at hs
      cases hs
      obtain ⟨hgoing, hrequest⟩ := stepStartJob_request hstep
      refine ⟨h.works, fun job hmem hout start₁ hstart₁ hpc => ?_⟩
      rcases List.mem_or_eq_of_mem_set hstart₁ with hstart₁ | rfl
      · exact h.apart job hmem hout start₁ hstart₁ hpc
      · rw [hrequest]
        exact h.apart job hmem hout start (List.mem_of_getElem? hi) hgoing

theorem separate_step {s s' : ProjectState} {a : ProjectStep} (h : s.Separate dirOf)
    (hapart : Apart dirOf s a) (hs : projectStep ide s a = some s') : s'.Separate dirOf := by
  cases a with
  | deployCall params taskAlloc o =>
    simp only [projectStep] at hs
    split_ifs at hs
    · obtain ⟨deploy, hdeploy, rfl⟩ := Option.map_eq_some_iff.1 hs
      exact separate_deployCall h hapart hdeploy
    · cases hs
      exact h
  | deployStep i o =>
    obtain ⟨deploy, hdeploy, rfl⟩ := Option.map_eq_some_iff.1 hs
    exact separate_deployStep h hdeploy
  | startCall params =>
    simp only [projectStep] at hs
    split_ifs at hs
    · cases hs
      exact separate_startCall h hapart
    · cases hs
      exact h
  | startStep i logAlloc => exact separate_startStep h hs

/-- **Nothing is started while it is being replaced**, if requests for one directory wait
for each other: in every run in which a start comes in only when no deploy to its directory
is outstanding, and a deploy only when no start call for its directory is unanswered, no
step launches a command in a directory that a worker is replacing. -/
theorem undisturbed_of_apart {s : ProjectState}
    (hs : (projectMachine ide).ReachableVia (Apart dirOf) s) (a : ProjectStep) :
    Undisturbed dirOf s a := by
  have hinit : ∀ s, (projectMachine ide).init s → s.Separate dirOf := by
    rintro s rfl
    exact ⟨by simp, by simp⟩
  have h := Machine.invariant hinit (fun _ _ _ => separate_step) s hs
  intro command path hlaunches job hmem hreplacing
  cases a with
  | startStep i logAlloc =>
    obtain ⟨start, hstart, hlaunch⟩ := Option.bind_eq_some_iff.1 hlaunches
    rw [StartJob.launches] at hlaunch
    split_ifs at hlaunch with hpc
    cases hlaunch
    have hwhere : job.pc.underway = true ∧ job.pc.outstanding = true := by
      cases hjob : job.pc <;> rw [hjob] at hreplacing <;> first | exact ⟨rfl, rfl⟩ | cases hreplacing
    rw [(h.works job hmem).target hwhere.1]
    exact h.apart job hmem hwhere.2 start (List.mem_of_getElem? hstart) (by rw [hpc]; decide)
  | deployCall params taskAlloc o => cases hlaunches
  | deployStep i o => cases hlaunches
  | startCall params => cases hlaunches

end Apart

/-- `{"clientId":"ide","startCommand":"run","projectName":"other"}` -/
def otherStart : Bytes :=
  ascii ("\x7b\"clientId\":\"ide\",\"startCommand\":\"run\"," ++ "\"projectName\":\"other\"\x7d")

/-- Meanwhile another project may be started. -/
theorem undisturbed_of_apart_other :
    ∃ s, s.launches (.startStep 0 true) = some (ascii "run", ascii "/tmp/deploy/other") ∧
      s.deploy.jobs.map (fun job => (job.pc, job.targetPath)) =
        [(.extracting, ascii "/tmp/deploy/project")] ∧
      Undisturbed id s (.startStep 0 true) := by
  have hmeets : (projectMachine activeIde).Meets (Apart id) ⟨⟨false, [], .notCalled⟩, false, []⟩
      (disturbingRun otherStart) := by decide +kernel
  have hrun : (((projectMachine activeIde).run ⟨⟨false, [], .notCalled⟩, false, []⟩
      (disturbingRun otherStart)).map fun s => (s.launches (.startStep 0 true),
        s.deploy.jobs.map fun job => (job.pc, job.targetPath))) =
      some (some (ascii "run", ascii "/tmp/deploy/other"),
        [(.extracting, ascii "/tmp/deploy/project")]) := by decide +kernel
  obtain ⟨s, hs, heq⟩ := Option.map_eq_some_iff.1 hrun
  obtain ⟨hlaunches, hjobs⟩ := Prod.mk.inj heq
  exact ⟨s, hlaunches, hjobs, undisturbed_of_apart ((Machine.ReachableVia.init rfl).run_of_meets
    hmeets hs) _⟩

end IotIde
