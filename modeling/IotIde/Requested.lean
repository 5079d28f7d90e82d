import IotIde.Deploy.Jobs
import IotIde.Json.Fields
import IotIde.Start.Manager

/-!
# What is run is what was requested

A deploy request and a start request name what is to be run, and where.  The values are
read into arrays of four sizes, and a value that is too long is cut.

* `requestedTask`, `requestedStart` — what a request asks for;
* `DeployServes`, `StartServes` — a call that runs nothing else, or refuses;
* `DeployKept`, `StartKept` — the fields that have to fit;
* `requested_only_iff` — when the calls serve the request.
-/

namespace IotIde

open CText JsonText

/-! ## The requests -/

/-- What a deploy request asks for. -/
def requestedTask (v : Doc .value) : DeployTask where
  projectName := requestedField v (ascii "projectName") (ascii "project")
  downloadUrl := requestedField v (ascii "downloadUrl") []
  deployPath := requestedField v (ascii "deployPath") (ascii "/tmp/deploy")
  deployCommand := requestedField v (ascii "deployCommand") []

/-- What a start request asks for. -/
def requestedStart (v : Doc .value) : StartRequest where
  projectName := requestedField v (ascii "projectName") (ascii "project")
  deployPath := requestedField v (ascii "deployPath") (ascii "/tmp/deploy")
  startCommand := requestedField v (ascii "startCommand") []

/-- The fields of a deploy request survive their arrays. -/
structure DeployKept (v : Doc .value) : Prop where
  projectName : FieldKept v (ascii "projectName") (ascii "project") 128
  downloadUrl : FieldKept v (ascii "downloadUrl") [] 1024
  deployPath : FieldKept v (ascii "deployPath") (ascii "/tmp/deploy") 512
  deployCommand : FieldKept v (ascii "deployCommand") [] 1024

/-- The fields of a start request survive their arrays. -/
structure StartKept (v : Doc .value) : Prop where
  projectName : FieldKept v (ascii "projectName") (ascii "project") 128
  deployPath : FieldKept v (ascii "deployPath") (ascii "/tmp/deploy") 512
  startCommand : FieldKept v (ascii "startCommand") [] 1024

/-! ## The calls -/

/-- The job has no worker, and has run nothing. -/
def DeployJob.Unstarted (job : DeployJob) : Prop :=
  (job.pc.inCall = true ∨ job.pc = .answered ∨ job.pc = .undefined) ∧ job.launched = []

/-- A call that starts a worker on exactly this task, or is answered with `success` 0 and
starts none; and in every run the worker runs only commands of the task. -/
structure DeployServes (params : Bytes) (task : DeployTask) : Prop where
  call : ∀ {alloc created nowMs busy call},
    deployCall alloc created nowMs busy params = some call →
      (call.worker = none ∧ call.answer.success = false) ∨
        (call.worker = some task ∧ call.answer.success = true)
  runs : ∀ {s s' s'' : DeployState} {taskAlloc : Bool} {o : DeployOutcome} {steps},
    deployMachine.step s (.call params taskAlloc o) = some s' →
      deployMachine.run s' steps = some s'' →
        ∃ job, s''.jobs[s.jobs.length]? = some job ∧ (job.Unstarted ∨ job.WorksFor task)

/-- A call that runs exactly this request, or is answered with `success` 0 and runs
nothing. -/
def StartServes (params : Bytes) (request : StartRequest) : Prop :=
  ∀ alloc verdict busy,
    ((startCall alloc verdict busy params).launched = none ∧
      (startCall alloc verdict busy params).success = false) ∨
    (readStartRequest params = request ∧ (startCall alloc verdict busy params).launched =
      some (request.startCommand, request.targetPath))

section Calls

variable {params : Bytes}

theorem deployCall_worker {alloc : ℕ → Bool} {created busy : Bool} {nowMs : ℤ} {call : DeployCall}
    (h : deployCall alloc created nowMs busy params = some call) :
    (call.worker = none ∧ call.answer.success = false) ∨
      ((readDeployTask params).downloadUrl ≠ [] ∧ call.worker = some (readDeployTask params) ∧
        call.answer.success = true) := by
  simp only [deployCall] at h
  split_ifs at h with halloc hurl hbusy hcreated
  · cases h
    exact Or.inl ⟨rfl, rfl⟩
  · split at h
    · cases h
      exact Or.inl ⟨rfl, rfl⟩
    · cases h
      exact Or.inl ⟨rfl, rfl⟩
    · cases h
  · cases h
    exact Or.inl ⟨rfl, rfl⟩
  · cases h
    exact Or.inr ⟨hurl, rfl, rfl⟩
  · cases h
    exact Or.inl ⟨rfl, rfl⟩

/-- With nothing in the way, a call with a URL starts a worker. -/
theorem deployCall_free (h : (readDeployTask params).downloadUrl ≠ []) :
    deployCall (fun _ => true) true 0 false params =
      some ⟨.received, true, [], some (readDeployTask params)⟩ := by
  simp only [deployCall]
  rw [if_neg (by decide), if_neg h, if_neg (by decide), if_pos trivial]

/-- A call serves its request exactly when what it read is what was requested, or it has no
URL to start from. -/
theorem deployServes_iff (task : DeployTask) : DeployServes params task ↔
    readDeployTask params = task ∨ (readDeployTask params).downloadUrl = [] := by
  constructor
  · intro h
    by_cases hurl : (readDeployTask params).downloadUrl = []
    · exact Or.inr hurl
    · rcases h.call (deployCall_free hurl) with ⟨hworker, -⟩ | ⟨hworker, -⟩
      · cases hworker
      · exact Or.inl (Option.some.inj hworker)
  · rintro (rfl | hurl)
    · refine ⟨fun hcall => ?_, fun hcall hrun => ?_⟩
      · rcases deployCall_worker hcall with hworker | ⟨-, hworker⟩
        · exact Or.inl hworker
        · exact Or.inr hworker
      · obtain ⟨job, hjob, hworks⟩ := call_worksFor hcall hrun
        exact ⟨job, hjob, Or.inr hworks⟩
    · refine ⟨fun hcall => ?_, fun hcall hrun => ?_⟩
      · rcases deployCall_worker hcall with hworker | ⟨hne, -⟩
        · exact Or.inl hworker
        · exact absurd hurl hne
      · obtain ⟨job, hjob, hpc, hlaunched⟩ := call_unstarted hurl hcall hrun
        exact ⟨job, hjob, Or.inl ⟨Or.inr hpc, hlaunched⟩⟩

theorem startServes_iff (request : StartRequest) : StartServes params request ↔
    readStartRequest params = request ∨ (readStartRequest params).startCommand = [] := by
  constructor
  · intro h
    by_cases hcommand : (readStartRequest params).startCommand = []
    · exact Or.inr hcommand
    · rcases h (fun _ => true) ⟨0, true, 0, 1, []⟩ false with ⟨hlaunched, -⟩ | ⟨hread, -⟩
      · simp only [startCall] at hlaunched
        rw [if_neg hcommand, if_neg (by decide), if_neg (by decide)] at hlaunched
        cases hlaunched
      · exact Or.inl hread
  · intro h alloc verdict busy
    simp only [startCall]
    split_ifs with hcommand hbusy hlog
    · exact Or.inl ⟨rfl, rfl⟩
    · exact Or.inl ⟨rfl, rfl⟩
    · exact Or.inl ⟨rfl, rfl⟩
    · rcases h with rfl | h
      · exact Or.inr ⟨rfl, rfl⟩
      · exact absurd h hcommand

end Calls

/-! ## The values -/

section Values

variable (w₀ w : Ws) {v : Doc .value} (hlegal : v.legal = true)
  (hunits : ∀ m ∈ v.allMembers, WithoutUnits m.2)
include hlegal hunits

theorem readDeployTask_eq_iff :
    readDeployTask (w₀.text ++ (v.text ++ w.text)) = requestedTask v ↔ DeployKept v := by
  have hname := readField_eq_requestedField_iff (by decide : SearchKey (ascii "projectName"))
    (by decide : (ascii "project").length < 128) (by decide) w₀ w hlegal hunits
  have hurl := readField_eq_requestedField_iff (by decide : SearchKey (ascii "downloadUrl"))
    (by decide : ([] : Bytes).length < 1024) (by decide) w₀ w hlegal hunits
  have hpath := readField_eq_requestedField_iff (by decide : SearchKey (ascii "deployPath"))
    (by decide : (ascii "/tmp/deploy").length < 512) (by decide) w₀ w hlegal hunits
  have hcommand := readField_eq_requestedField_iff (by decide : SearchKey (ascii "deployCommand"))
    (by decide : ([] : Bytes).length < 1024) (by decide) w₀ w hlegal hunits
  rw [readDeployTask, requestedTask, DeployTask.mk.injEq]
  constructor
  · rintro ⟨h₁, h₂, h₃, h₄⟩
    exact ⟨hname.1 h₁, hurl.1 h₂, hpath.1 h₃, hcommand.1 h₄⟩
  · rintro ⟨h₁, h₂, h₃, h₄⟩
    exact ⟨hname.2 h₁, hurl.2 h₂, hpath.2 h₃, hcommand.2 h₄⟩

theorem readStartRequest_eq_iff :
    readStartRequest (w₀.text ++ (v.text ++ w.text)) = requestedStart v ↔ StartKept v := by
  have hname := readField_eq_requestedField_iff (by decide : SearchKey (ascii "projectName"))
    (by decide : (ascii "project").length < 128) (by decide) w₀ w hlegal hunits
  have hpath := readField_eq_requestedField_iff (by decide : SearchKey (ascii "deployPath"))
    (by decide : (ascii "/tmp/deploy").length < 512) (by decide) w₀ w hlegal hunits
  have hcommand := readField_eq_requestedField_iff (by decide : SearchKey (ascii "startCommand"))
    (by decide : ([] : Bytes).length < 1024) (by decide) w₀ w hlegal hunits
  rw [readStartRequest, requestedStart, StartRequest.mk.injEq]
  constructor
  · rintro ⟨h₁, h₂, h₃⟩
    exact ⟨hname.1 h₁, hpath.1 h₂, hcommand.1 h₃⟩
  · rintro ⟨h₁, h₂, h₃⟩
    exact ⟨hname.2 h₁, hpath.2 h₂, hcommand.2 h₃⟩

/-- A field that starts empty is empty when the value found is. -/
theorem readField_eq_nil_iff {key : Bytes} (hk : SearchKey key) :
    readField key 1024 [] (w₀.text ++ (v.text ++ w.text)) = [] ↔ foundText v key [] = [] := by
  rw [readField_eq hk (by decide) (by decide) w₀ w hlegal hunits, List.take_eq_nil_iff]
  simp

/-- **Only what is requested is run.**  A deploy call serves its request exactly when every
field survives its array, or no URL is found; and a start call when every field does, or no
command is found. -/
theorem requested_only_iff :
    (DeployServes (w₀.text ++ (v.text ++ w.text)) (requestedTask v) ↔
      DeployKept v ∨ foundText v (ascii "downloadUrl") [] = []) ∧
    (StartServes (w₀.text ++ (v.text ++ w.text)) (requestedStart v) ↔
      StartKept v ∨ foundText v (ascii "startCommand") [] = []) := by
  have hurl : (readDeployTask (w₀.text ++ (v.text ++ w.text))).downloadUrl = [] ↔
      foundText v (ascii "downloadUrl") [] = [] :=
    readField_eq_nil_iff w₀ w hlegal hunits (by decide : SearchKey (ascii "downloadUrl"))
  have hcommand : (readStartRequest (w₀.text ++ (v.text ++ w.text))).startCommand = [] ↔
      foundText v (ascii "startCommand") [] = [] :=
    readField_eq_nil_iff w₀ w hlegal hunits (by decide : SearchKey (ascii "startCommand"))
  constructor
  · rw [deployServes_iff, readDeployTask_eq_iff w₀ w hlegal hunits]
    exact or_congr_right hurl
  · rw [startServes_iff, readStartRequest_eq_iff w₀ w hlegal hunits]
    exact or_congr_right hcommand

end Values

/-- `{"startCommand":"run","projectName":…}` -/
def startDoc (projectName : StrLit) : Doc .value :=
  .object (.moreMembers (.bare ⟨ascii "startCommand", by decide +kernel⟩)
    (.string ⟨ascii "run", by decide +kernel⟩) .none
    (.member (.bare ⟨ascii "projectName", by decide +kernel⟩) (.string projectName) .none))

theorem startDoc_units (projectName : StrLit) (h : usesUnits projectName.raw = false) :
    ∀ m ∈ (startDoc projectName).allMembers, WithoutUnits m.2 := by
  intro m hm
  simp only [startDoc, Doc.allMembers, List.nil_append, List.mem_cons, List.not_mem_nil,
    or_false] at hm
  rcases hm with hm | hm
  · rw [hm]
    exact withoutUnits_string (by decide +kernel)
  · rw [hm]
    exact withoutUnits_string h

def shortName : StrLit := ⟨ascii "demo", by decide +kernel⟩

theorem requested_only_short :
    StartServes (Ws.none.text ++ ((startDoc shortName).text ++ Ws.none.text))
      ⟨ascii "demo", ascii "/tmp/deploy", ascii "run"⟩ := by
  have hrequested : requestedStart (startDoc shortName) =
      ⟨ascii "demo", ascii "/tmp/deploy", ascii "run"⟩ := by decide +kernel
  have hkept : StartKept (startDoc shortName) :=
    ⟨by decide +kernel, by decide +kernel, by decide +kernel⟩
  rw [← hrequested]
  exact (requested_only_iff .none .none (by decide +kernel)
    (startDoc_units shortName (by decide +kernel))).2.2 (Or.inl hkept)

/-- A project name of 128 bytes. -/
def longName : StrLit := ⟨List.replicate 128 97, by decide +kernel⟩

/-- The command runs in the directory of a project that was not requested. -/
theorem long_name_cut :
    (startDoc longName).legal = true ∧
      requestedStart (startDoc longName) =
        ⟨List.replicate 128 97, ascii "/tmp/deploy", ascii "run"⟩ ∧
      (startCall (fun _ => true) ⟨0, true, 0, 1, []⟩ false (startDoc longName).text).success =
        true ∧
      (startCall (fun _ => true) ⟨0, true, 0, 1, []⟩ false (startDoc longName).text).launched =
        some (ascii "run", ascii "/tmp/deploy/" ++ List.replicate 127 97) ∧
      ¬ StartServes (startDoc longName).text (requestedStart (startDoc longName)) := by
  refine ⟨by decide +kernel, by decide +kernel, by decide +kernel, by decide +kernel, fun h => ?_⟩
  rcases (startServes_iff _).1 h with h | h
  · have hlen : (readStartRequest (startDoc longName).text).projectName.length =
        (requestedStart (startDoc longName)).projectName.length := by rw [h]
    exact absurd hlen (by decide +kernel)
  · exact absurd h (by decide +kernel)

end IotIde
