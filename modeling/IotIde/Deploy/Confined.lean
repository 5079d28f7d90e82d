import IotIde.Deploy.Accounting
import IotIde.Deploy.Jobs
import IotIde.Foundation.Paths

/-!
# Where a deploy works

A worker removes its target directory, makes it again and extracts into it.  The path is
the deploy path with the project name behind it, as the request has them.

* `ensureDirectory` — when the deploy path can be made at all;
* `Confined` — a request whose worker never touches anything but a strict descendant of
  its deploy path;
* `stepJob_reaches`, `leadsTo_removingTree` — how far the worker of a request can get;
* `confined_iff` — which requests are confined;
* `sanitised_below` — a sanitised name, as in the name of the archive, would do for all.
-/

namespace IotIde

open CText Paths Runs

/-! ## `ensure_directory` -/

/-- The directories that `ensure_directory` makes, one after the other. -/
def mkdirs (path : Bytes) : List Bytes :=
  ((List.range path.length).filter fun i => 0 < i ∧ path[i]? = some slash).map path.take ++ [path]

/-- `ensure_directory`; `made` says of each directory whether its `mkdir` left it there. -/
def ensureDirectory (made : Bytes → Bool) (path : Bytes) : Bool :=
  path ≠ [] && path.length < PATH_MAX && (mkdirs path).all made

/-- Where a job calls `ensure_directory`, the outcome is one that the path can have. -/
def DirectoriesMade (job : DeployJob) (o : DeployOutcome) : Prop :=
  (job.pc = .ensuringRoot → ∃ made, o.ok = ensureDirectory made job.task.deployPath) ∧
  (job.pc = .ensuringTarget → ∃ made, o.ok = ensureDirectory made job.targetPath)

theorem ensureDirectory_nil (made : Bytes → Bool) : ensureDirectory made [] = false := rfl

theorem ensureDirectory_of_made {path : Bytes} (hne : path ≠ []) (hlen : path.length < PATH_MAX) :
    ensureDirectory (fun _ => true) path = true := by
  simp [ensureDirectory, hne, hlen]

/-! ## The target -/

/-- The place in the file system that a text names, by its text alone. -/
def placeOf (path : Bytes) : Place Bytes := normalise slash dot path

/-- The worker is about to remove, make or fill its target directory. -/
def DeployPc.touchesTarget : DeployPc → Bool
  | removingTree => true
  | ensuringTarget => true
  | extracting => true
  | _ => false

/-- In every run the worker of the request touches only a strict descendant of its deploy
path. -/
def Confined (params : Bytes) : Prop :=
  ∀ {s s' s'' : DeployState} {taskAlloc : Bool} {o : DeployOutcome},
    deployMachine.step s (.call params taskAlloc o) = some s' →
      deployMachine.LeadsTo (OnJobs DirectoriesMade) s' s'' →
        ∀ job ∈ s''.jobs[s.jobs.length]?, job.pc.touchesTarget = true →
          (placeOf job.targetPath).Below (placeOf job.task.deployPath)

/-- The target path is never cut. -/
theorem targetPathOf_readDeployTask (params : Bytes) :
    targetPathOf (readDeployTask params) = (readDeployTask params).deployPath ++
      (slash :: (readDeployTask params).projectName) := by
  have hpath : (readDeployTask params).deployPath.length < 512 :=
    readField_length_lt (by decide) params
  have hname : (readDeployTask params).projectName.length < 128 :=
    readField_length_lt (by decide) params
  have hslash : ascii "/" ++ (readDeployTask params).projectName =
      slash :: (readDeployTask params).projectName := rfl
  rw [targetPathOf, hslash]
  refine snprintf_of_lt ?_
  rw [List.length_append, List.length_cons, PATH_MAX]
  omega

theorem target_below_iff {params : Bytes} (h : (readDeployTask params).deployPath ≠ []) :
    (placeOf (targetPathOf (readDeployTask params))).Below
        (placeOf (readDeployTask params).deployPath) ↔
      (placeOf (readDeployTask params).deployPath).Returns
        (relative slash dot (readDeployTask params).projectName) := by
  rw [targetPathOf_readDeployTask]
  exact normalise_append_below_iff h _

/-! ## How far a worker gets -/

/-- What the task must have for its worker to come to a place. -/
def DeployTask.Reaches (task : DeployTask) : DeployPc → Prop
  | .downloading => task.deployPath ≠ []
  | .removingTree => task.deployPath ≠ [] ∧ shellQuote task.downloadUrl 2048 ≠ none
  | .ensuringTarget => task.deployPath ≠ [] ∧ shellQuote task.downloadUrl 2048 ≠ none
  | .extracting => task.deployPath ≠ [] ∧ shellQuote task.downloadUrl 2048 ≠ none
  | _ => True

theorem DeployTask.Reaches.of_touches {task : DeployTask} {pc : DeployPc} (h : task.Reaches pc)
    (hpc : pc.touchesTarget = true) :
    task.deployPath ≠ [] ∧ shellQuote task.downloadUrl 2048 ≠ none := by
  cases pc <;> first | exact h | cases hpc

section Steps

variable {job job' : DeployJob} {task : DeployTask} {o : DeployOutcome} {busy busy' : Bool}

theorem stepStart_reaches (job : DeployJob) (o : DeployOutcome) :
    task.Reaches (stepStart job o).pc := by
  simp only [stepStart]
  split_ifs
  · trivial
  · trivial

theorem stepDownload_reaches (htask : job.task = task) (hpath : task.deployPath ≠ []) :
    task.Reaches (stepDownload job o).pc := by
  unfold stepDownload
  split
  · rename_i quotedUrl quotedZip hurl hzip
    dsimp only
    split_ifs
    · refine ⟨hpath, fun hnone => ?_⟩
      rw [← htask, hurl] at hnone
      cases hnone
    · trivial
  · trivial

theorem stepExtract_reaches (job : DeployJob) (o : DeployOutcome) :
    task.Reaches (stepExtract job o).pc := by
  unfold stepExtract
  split
  · dsimp only
    split_ifs
    · trivial
    · trivial
    · trivial
  · trivial

/-- A worker that keeps to its task comes to no place the task does not reach. -/
theorem stepJob_reaches (htask : job.task = task) (h : task.Reaches job.pc)
    (hmade : DirectoriesMade job o) (hs : stepJob busy job o = some (busy', job')) :
    task.Reaches job'.pc := by
  unfold stepJob at hs
  split at hs
  · cases busy <;> cases hs
    · trivial
    · trivial
  · cases hs
    cases o.ok
    · trivial
    · trivial
  · cases hs
    trivial
  · cases hs
    exact stepStart_reaches job o
  · rename_i hpc
    cases hs
    split
    · rename_i hok
      -- an empty deploy path is not made
      obtain ⟨made, hresult⟩ := hmade.1 hpc
      intro hnil
      rw [htask, hnil, ensureDirectory_nil, hok] at hresult
      cases hresult
    · trivial
  · rename_i hpc
    cases hs
    rw [hpc] at h
    exact stepDownload_reaches htask h
  · rename_i hpc
    cases hs
    rw [hpc] at h
    split
    · exact h
    · trivial
  · rename_i hpc
    cases hs
    rw [hpc] at h
    split
    · exact h
    · trivial
  · cases hs
    exact stepExtract_reaches job o
  · cases hs
    simp only [stepCommand]
    split_ifs
    · trivial
    · trivial
  · cases hs
    simp only [stepReport]
    split
    · trivial
    · trivial
    · trivial
  · cases hs
    trivial
  · cases hs
  · cases hs
  · cases hs

end Steps

/-- In every later state the worker of a call has kept to its task, and to the places that
the task reaches. -/
theorem call_reaches {s s' s'' : DeployState} {params : Bytes} {taskAlloc : Bool}
    {o : DeployOutcome} (hcall : deployMachine.step s (.call params taskAlloc o) = some s')
    (hleads : deployMachine.LeadsTo (OnJobs DirectoriesMade) s' s'') :
    ∃ job, s''.jobs[s.jobs.length]? = some job ∧ job.WorksFor (readDeployTask params) ∧
      (readDeployTask params).Reaches job.pc := by
  have hworks := startJob_worksFor params taskAlloc o
  have hstart : (readDeployTask params).Reaches (startJob params taskAlloc o).pc := by
    simp only [startJob]
    split_ifs
    · trivial
    · split
      · trivial
      · trivial
      · trivial
    · trivial
  refine run_job_of_leadsTo (fun hP hmade hs => ?_) hleads (call_job hcall) ⟨hworks, hstart⟩
  exact ⟨stepJob_worksFor hP.1 hs, stepJob_reaches hP.1.sameTask hP.2 hmade hs⟩

/-! ## Every step comes out well -/

theorem mem_deploySanitizeName {input : Bytes} {size : ℕ} {c : UInt8}
    (h : c ∈ deploySanitizeName input size) : keepsInName c = true := by
  have hproject : ∀ c ∈ ascii "project", keepsInName c = true := by decide +kernel
  have hkept : ∀ input : Bytes, ∀ c ∈ input.map fun ch => if keepsInName ch then ch else 95,
      keepsInName c = true := by
    intro input c hc
    obtain ⟨ch, -, rfl⟩ := List.mem_map.1 hc
    split
    · assumption
    · decide
  simp only [deploySanitizeName] at h
  split_ifs at h
  · exact hproject c (List.mem_of_mem_take h)
  · exact hproject c (List.mem_of_mem_take h)
  · exact hkept input c (List.mem_of_mem_take h)

/-- The path of the archive is always quoted. -/
theorem zipPath_quoted (task : DeployTask) (nowMs : ℤ) :
    ∃ quoted, shellQuote (zipPathOf task nowMs) (PATH_MAX * 2) = some quoted := by
  have hquote : singleQuote ∉ zipPathOf task nowMs := by
    intro h
    have hmem := List.mem_of_mem_take h
    simp only [List.mem_append] at hmem
    rcases hmem with h | h | h | h | h
    · exact absurd h (by decide)
    · exact absurd (mem_deploySanitizeName h) (by decide)
    · exact absurd h (by decide)
    · rcases mem_decimal h with h | h
      · exact absurd h (by decide)
      · exact absurd h (by decide)
    · exact absurd h (by decide)
  have hlen : (zipPathOf task nowMs).length < PATH_MAX :=
    snprintf_length_lt _ (by norm_num [PATH_MAX])
  refine ⟨_, shellQuote_of_fits ?_⟩
  rw [quotedBody_of_notMem hquote]
  simp only [PATH_MAX] at hlen ⊢
  omega

/-- One step of the only job there is. -/
theorem leadsTo_step {busy busy' : Bool} {job job' : DeployJob} {o : DeployOutcome}
    {s : DeployState} (hstep : stepJob busy job o = some (busy', job'))
    (hmade : DirectoriesMade job o)
    (h : deployMachine.LeadsTo (OnJobs DirectoriesMade) ⟨busy', [job'], .notCalled⟩ s) :
    deployMachine.LeadsTo (OnJobs DirectoriesMade) ⟨busy, [job], .notCalled⟩ s := by
  have hone : deployMachine.step ⟨busy, [job], .notCalled⟩ (.step 0 o) =
      some ⟨busy', [job'], .notCalled⟩ := deployStep_last [] hstep
  refine h.head hone ?_
  intro job₁ hjob₁
  cases hjob₁
  exact hmade

/-- A deploy path that is not empty and a URL that can be quoted bring the worker to the
removal of its target. -/
theorem leadsTo_removingTree {params : Bytes} (hurl : (readDeployTask params).downloadUrl ≠ [])
    (hquoted : shellQuote (readDeployTask params).downloadUrl 2048 ≠ none)
    (hpath : (readDeployTask params).deployPath ≠ []) :
    ∃ s' busy job, deployMachine.step ⟨false, [], .notCalled⟩
        (.call params true (outcomeWith fun _ => true)) = some s' ∧
      deployMachine.LeadsTo (OnJobs DirectoriesMade) s' ⟨busy, [job], .notCalled⟩ ∧
      job.pc = .removingTree ∧ job.task = readDeployTask params ∧
      job.targetPath = targetPathOf (readDeployTask params) := by
  obtain ⟨o, ho⟩ : ∃ o, o = outcomeWith fun _ => true := ⟨_, rfl⟩
  obtain ⟨quotedUrl, hquotedUrl⟩ := Option.ne_none_iff_exists'.1 hquoted
  obtain ⟨quotedZip, hquotedZip⟩ := zipPath_quoted (readDeployTask params) o.nowMs
  obtain ⟨job₀, hjob₀, hpc₀, htask₀⟩ : ∃ job, startJob params true o = job ∧
      job.pc = .locking ∧ job.task = readDeployTask params := by
    simp [startJob, hurl]
  have hok : o.ok = true := by rw [ho]; rfl
  have hexit : o.exit = some 0 := by rw [ho]; rfl
  have hroot : ∃ made, o.ok = ensureDirectory made (readDeployTask params).deployPath := by
    have hlen : (readDeployTask params).deployPath.length < 512 :=
      readField_length_lt (by decide) params
    exact ⟨fun _ => true, by rw [hok, ensureDirectory_of_made hpath (by rw [PATH_MAX]; omega)]⟩
  -- the lock, the thread and the log
  have hlock : stepJob false job₀ o = some (true, { job₀ with pc := .creating }) := by
    simp [stepJob, hpc₀]
  have hcreate : stepJob true { job₀ with pc := .creating } o =
      some (true, { job₀ with pc := .starting }) := by
    simp [stepJob, hok]
  obtain ⟨job₁, hstart, hpc₁, htask₁, hzip₁, htarget₁⟩ :
      ∃ job, stepJob true { job₀ with pc := .starting } o = some (true, job) ∧
        job.pc = .ensuringRoot ∧ job.task = readDeployTask params ∧
        job.zipPath = zipPathOf (readDeployTask params) o.nowMs ∧
        job.targetPath = targetPathOf (readDeployTask params) := by
    obtain ⟨log, hlog, -⟩ := sbInit_holds 2048
    have halloc : o.alloc 0 = true := by rw [ho]; rfl
    refine ⟨_, rfl, ?_⟩
    simp only [stepStart, halloc, hlog, ne_eq, not_true_eq_false, if_false, htask₀]
    exact ⟨trivial, trivial, trivial, trivial⟩
  -- the deploy path and the archive
  have hensure : stepJob true job₁ o = some (true, { job₁ with pc := .downloading }) := by
    simp [stepJob, hpc₁, hok]
  obtain ⟨job₂, hdownload, hpc₂, htask₂, htarget₂⟩ :
      ∃ job, stepJob true { job₁ with pc := .downloading } o = some (true, job) ∧
        job.pc = .removingTree ∧ job.task = readDeployTask params ∧
        job.targetPath = targetPathOf (readDeployTask params) := by
    refine ⟨_, rfl, ?_⟩
    simp only [stepDownload, htask₁, hzip₁, hquotedUrl, hquotedZip, hexit, if_true]
    exact ⟨trivial, trivial, htarget₁⟩
  have helsewhere : ∀ {job : DeployJob}, job.pc ≠ .ensuringRoot → job.pc ≠ .ensuringTarget →
      DirectoriesMade job o := fun h₁ h₂ => ⟨fun h => absurd h h₁, fun h => absurd h h₂⟩
  have hmade₁ : DirectoriesMade job₁ o := by
    refine ⟨fun _ => htask₁ ▸ hroot, fun h => ?_⟩
    rw [hpc₁] at h
    cases h
  refine ⟨⟨false, [job₀], .notCalled⟩, true, job₂, ?_, ?_, hpc₂, htask₂, htarget₂⟩
  · rw [← ho, ← hjob₀]
    rfl
  · refine leadsTo_step hlock (helsewhere (by simp [hpc₀]) (by simp [hpc₀])) ?_
    refine leadsTo_step hcreate (helsewhere (by simp) (by simp)) ?_
    refine leadsTo_step hstart (helsewhere (by simp) (by simp)) ?_
    refine leadsTo_step hensure hmade₁ ?_
    exact leadsTo_step hdownload (helsewhere (by simp) (by simp)) (.refl _)

/-! ## Which requests are confined -/

/-- A request that gets to its target is confined only if its project name returns to the
deploy path. -/
theorem returns_of_confined {params : Bytes} (h : Confined params)
    (hurl : (readDeployTask params).downloadUrl ≠ [])
    (hquoted : shellQuote (readDeployTask params).downloadUrl 2048 ≠ none)
    (hpath : (readDeployTask params).deployPath ≠ []) :
    (placeOf (readDeployTask params).deployPath).Returns
      (relative slash dot (readDeployTask params).projectName) := by
  obtain ⟨s', busy, job, hcall, hleads, hpc, htask, htarget⟩ :=
    leadsTo_removingTree hurl hquoted hpath
  have hbelow := h hcall hleads job rfl (by rw [hpc]; rfl)
  rw [htarget, htask] at hbelow
  exact (target_below_iff hpath).1 hbelow

/-- **A deploy touches only its own directory** exactly when it never gets there — without
a URL, with a URL that cannot be quoted, or with an empty deploy path — or its project
name, read from the deploy path, goes back down into it. -/
theorem confined_iff (params : Bytes) : Confined params ↔
    (readDeployTask params).downloadUrl = [] ∨
    shellQuote (readDeployTask params).downloadUrl 2048 = none ∨
    (readDeployTask params).deployPath = [] ∨
    (placeOf (readDeployTask params).deployPath).Returns
      (relative slash dot (readDeployTask params).projectName) := by
  constructor
  · intro h
    by_contra hnot
    simp only [not_or] at hnot
    obtain ⟨hurl, hquoted, hpath, hreturns⟩ := hnot
    exact hreturns (returns_of_confined h hurl hquoted hpath)
  · intro h s s' s'' taskAlloc o hcall hleads job hjob htouches
    by_cases hurl : (readDeployTask params).downloadUrl = []
    · obtain ⟨steps, -, hrun⟩ := hleads
      obtain ⟨job₁, hjob₁, hpc, -⟩ := call_unstarted hurl hcall hrun
      cases hjob.symm.trans hjob₁
      rcases hpc with hpc | hpc
      · rw [hpc] at htouches
        cases htouches
      · rw [hpc] at htouches
        cases htouches
    obtain ⟨job₁, hjob₁, hworks, hreaches⟩ := call_reaches hcall hleads
    cases hjob.symm.trans hjob₁
    obtain ⟨hpath, hquoted⟩ := hreaches.of_touches htouches
    have hunderway : job.pc.underway = true := by
      cases hpc : job.pc <;> rw [hpc] at htouches <;> first | rfl | cases htouches
    rw [hworks.target hunderway, hworks.sameTask]
    exact (target_below_iff hpath).2
      (((h.resolve_left hurl).resolve_left hquoted).resolve_left hpath)

/-- `{"downloadUrl":"http://host/app.zip","projectName":".."}` -/
def parentRequest : Bytes :=
  ascii "\x7b\"downloadUrl\":\"http://host/app.zip\",\"projectName\":\"..\"\x7d"

/-- The worker removes the directory that `/tmp/deploy` lies in. -/
theorem parent_removed :
    (readDeployTask parentRequest).deployPath = ascii "/tmp/deploy" ∧
      targetPathOf (readDeployTask parentRequest) = ascii "/tmp/deploy/.." ∧
      (placeOf (ascii "/tmp/deploy/..")).names = [ascii "tmp"] ∧ ¬ Confined parentRequest := by
  have hpath : (readDeployTask parentRequest).deployPath = ascii "/tmp/deploy" := by
    decide +kernel
  refine ⟨hpath, by decide +kernel, by decide +kernel, fun h => ?_⟩
  have hreturns := returns_of_confined h (by decide +kernel) (by decide +kernel)
    (by rw [hpath]; decide)
  revert hreturns
  rw [hpath, show (readDeployTask parentRequest).projectName = ascii ".." by decide +kernel]
  decide +kernel

/-- With the name that `deploy_sanitize_name` makes for the archive, every deploy path would
be left intact. -/
theorem sanitised_below {deployPath : Bytes} (h : deployPath ≠ []) (projectName : Bytes) :
    (placeOf (deployPath ++ slash :: deploySanitizeName projectName 128)).Below
      (placeOf deployPath) := by
  have hne : deploySanitizeName projectName 128 ≠ [] := by
    have hproject : snprintf 128 (ascii "project") ≠ [] := by decide
    simp only [deploySanitizeName]
    split_ifs with hinput houtput
    · exact hproject
    · exact hproject
    · exact houtput
  have hslash : slash ∉ deploySanitizeName projectName 128 := fun hmem =>
    absurd (mem_deploySanitizeName hmem) (by decide)
  have hdot : dot ∉ deploySanitizeName projectName 128 := fun hmem =>
    absurd (mem_deploySanitizeName hmem) (by decide)
  obtain ⟨hups, hnames⟩ := relative_of_plain hne hslash hdot
  exact (normalise_append_below_iff h _).2 (Place.returns_of_ups_eq_zero hups hnames)

end IotIde
