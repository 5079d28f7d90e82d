import IotIde.Shell.Background

/-!
# Who holds the write end of the pipe

The caller of `start_background_command` reads until no process holds the write end, so
it waits for every process that inherited it.

* `Background.Inv` — each process holds the write end at the one descriptor, from the
  call that gives it to the call that takes it away;
* `Background.inv_step` — every step of every process keeps this;
* `writeEnd_released_iff` — the write end is gone once the supervisor is, in exactly the
  runs in which the supervisor never leaves a worker behind, and there the caller alone
  can finish;
* `start_waits_for_service` — a run in which the service keeps the caller waiting.
-/

namespace IotIde

open CText Runs Descriptors

/-! ## What each place in a program says about the descriptors -/

/-- The caller has its own copy of the write end. -/
def CallerPc.HoldsWrite : CallerPc → Prop
  | .forking => True
  | .closingWrite => True
  | _ => False

/-- The caller uses the descriptors of its pipe. -/
def CallerPc.UsesPipe : CallerPc → Prop
  | .forking => True
  | .closingWrite => True
  | .reading _ => True
  | .closingRead _ => True
  | _ => False

/-- The caller may have forked. -/
def CallerPc.Forked : CallerPc → Prop
  | .closingWrite => True
  | .reading _ => True
  | .closingRead _ => True
  | .waiting _ => True
  | .clearingBusy (.finished _) => True
  | .answered (.finished _) => True
  | _ => False

/-- The supervisor has not come to its own `fork`. -/
def SupervisorPc.BeforeFork : SupervisorPc → Prop
  | .closingRead => True
  | .changingDir => True
  | .forking => True
  | _ => False

/-- The supervisor has reported that nothing was left running. -/
def SupervisorPc.NothingLeft : SupervisorPc → Prop
  | .writing _ false => True
  | .exiting false => True
  | _ => False

/-- The worker has no copy of the write end `w`: it was never forked, it has ended, or
the log was opened over it as standard output or error. -/
def WorkerPc.LetGo (w : ℕ) : WorkerPc → Prop
  | .notForked => True
  | .opening => False
  | .dupOut _ => False
  | .dupErr _ => w = 1
  | .closingLog _ => w = 1 ∨ w = 2
  | .execing redirected => redirected = true ∧ (w = 1 ∨ w = 2)
  | .running redirected => redirected = true ∧ (w = 1 ∨ w = 2)
  | .exited _ => True

/-- The descriptor of the log while the worker redirects its output. -/
def WorkerPc.logFd : WorkerPc → Option ℕ
  | .dupOut fd => some fd
  | .dupErr fd => some fd
  | .closingLog fd => some fd
  | _ => none

namespace Background

/-- Where the write end is in the table of a process that `holds` it or not. -/
structure WriteAt (w : ℕ) (holds : Prop) (t : Table OpenFile) : Prop where
  onlyAt : t.OnlyAt .pipeWrite w
  held : holds → (w, ⟨.pipeWrite, false⟩) ∈ t
  released : ¬ holds → ¬ t.Holds .pipeWrite

theorem WriteAt.of_not_holds {w : ℕ} {holds : Prop} {t : Table OpenFile} (hn : ¬ holds)
    (h : ¬ t.Holds .pipeWrite) : WriteAt w holds t :=
  ⟨.of_not_holds h, fun hh => absurd hh hn, fun _ => h⟩

theorem WriteAt.of_mem {w : ℕ} {holds : Prop} {t : Table OpenFile} (hh : holds)
    (honly : t.OnlyAt .pipeWrite w) (hmem : (w, ⟨.pipeWrite, false⟩) ∈ t) : WriteAt w holds t :=
  ⟨honly, fun _ => hmem, fun hn => absurd hh hn⟩

theorem WriteAt.congr {w : ℕ} {holds holds' : Prop} {t : Table OpenFile} (h : WriteAt w holds t)
    (hiff : holds ↔ holds') : WriteAt w holds' t :=
  ⟨h.onlyAt, fun hh => h.held (hiff.2 hh), fun hn => h.released (mt hiff.1 hn)⟩

theorem WriteAt.holds_iff {w : ℕ} {holds : Prop} {t : Table OpenFile} (h : WriteAt w holds t) :
    t.Holds .pipeWrite ↔ holds :=
  ⟨fun ht => by_contra fun hn => h.released hn ht, fun hh => Table.holds_of_mem (h.held hh)⟩

/-- Closing a descriptor other than the write end. -/
theorem WriteAt.close {w fd : ℕ} {holds : Prop} {t : Table OpenFile} (h : WriteAt w holds t)
    (hne : fd ≠ w) : WriteAt w holds (t.close fd) :=
  ⟨h.onlyAt.close fd, fun hh => Table.mem_close.2 ⟨h.held hh, Ne.symm hne⟩,
    fun hn => Table.not_holds_mono (h.released hn) fun _ hp => (Table.mem_close.1 hp).1⟩

/-- Opening another file at a descriptor other than the write end. -/
theorem WriteAt.install {w fd : ℕ} {holds : Prop} {t : Table OpenFile} {o : OpenFile}
    (h : WriteAt w holds t) (hne : fd ≠ w) (ho : o ≠ .pipeWrite) :
    WriteAt w holds (t.install fd o) :=
  ⟨h.onlyAt.install ho fd, fun hh => Table.mem_install.2 (Or.inr ⟨h.held hh, Ne.symm hne⟩),
    fun hn => by
      rintro ⟨p, hp, hpo⟩
      rcases Table.mem_install.1 hp with rfl | ⟨hp, -⟩
      · exact ho hpo
      · exact h.released hn ⟨p, hp, hpo⟩⟩

theorem WriteAt.exec {w : ℕ} {holds : Prop} {t : Table OpenFile} (h : WriteAt w holds t) :
    WriteAt w holds t.exec :=
  ⟨h.onlyAt.exec, fun hh => Table.mem_exec.2 ⟨h.held hh, rfl⟩,
    fun hn => Table.not_holds_mono (h.released hn) fun _ hp => (Table.mem_exec.1 hp).1⟩

/-- Redirecting `new` to the log: the write end goes if it was `new`. -/
theorem WriteAt.dup2 {w logFd : ℕ} {holds : Prop} {t : Table OpenFile} (h : WriteAt w holds t)
    (hlog : logFd ≠ w) (hopen : ¬ t.Free logFd) (new : ℕ) :
    WriteAt w (holds ∧ w ≠ new) (t.dup2 logFd new) ∧ ¬ (t.dup2 logFd new).Free logFd := by
  obtain ⟨d, hd⟩ : ∃ d, t.lookup logFd = some d := by
    simp only [Table.Free, not_forall, not_not] at hopen
    obtain ⟨p, hp, hfd⟩ := hopen
    cases hfind : t.lookup logFd with
    | some d => exact ⟨d, rfl⟩
    | none =>
      have := List.find?_eq_none.1 (Option.map_eq_none_iff.1 hfind) p hp
      exact absurd hfd (by simpa using this)
  have hfile : d.file ≠ .pipeWrite := fun ho => hlog (h.onlyAt _ (Table.lookup_mem hd) ho)
  by_cases hnew : logFd = new
  · have hsame : t.dup2 logFd new = t := by
      rw [Table.dup2, hd]
      exact if_pos hnew
    rw [hsame]
    refine ⟨h.congr ⟨fun hh => ⟨hh, ?_⟩, fun hh => hh.1⟩, hopen⟩
    rw [← hnew]
    exact Ne.symm hlog
  · rw [Table.dup2_eq hd hnew]
    constructor
    · by_cases hw : new = w
      · refine WriteAt.of_not_holds (fun hh => hh.2 hw.symm) ?_
        rw [hw]
        exact h.onlyAt.not_holds_install hfile
      · exact (h.install hw hfile).congr ⟨fun hh => ⟨hh, Ne.symm hw⟩, fun hh => hh.1⟩
    · intro hfree
      exact hfree _ (Table.mem_install.2 (Or.inr ⟨Table.lookup_mem hd, hnew⟩)) rfl

/-! ## The invariant -/

/-- What holds between steps. -/
structure Inv (s : Background) : Prop where
  caller : WriteAt s.writeFd s.caller.HoldsWrite s.callerTable
  supervisor : WriteAt s.writeFd (s.supervisor ≠ .notForked ∧ s.supervisor ≠ .exited)
    s.supervisorTable
  worker : WriteAt s.writeFd (¬ s.worker.LetGo s.writeFd) s.workerTable
  fdsDiffer : s.caller.UsesPipe ∨ s.supervisor ≠ .notForked → s.readFd ≠ s.writeFd
  log : ∀ fd, s.worker.logFd = some fd → fd ≠ s.writeFd ∧ ¬ s.workerTable.Free fd
  unforked : s.supervisor = .notForked ∨ s.supervisor.BeforeFork → s.worker = .notForked
  nothingLeft : s.supervisor.NothingLeft → s.worker.LetGo s.writeFd
  forked : s.supervisor ≠ .notForked → s.caller.Forked
  room : ∀ buffer, s.caller = .reading buffer → buffer.length < 255
  cleared : ∀ v, s.caller = .answered (.finished v) → s.busy = false

theorem inv_init {call : BackgroundCall} {s : Background} (h : (backgroundMachine call).init s) :
    Inv s := by
  obtain ⟨hcaller, hsup, hworker, hsupT, hworkerT, -, hnot⟩ := h
  have hnil : ¬ Table.Holds ([] : Table OpenFile) .pipeWrite := Table.not_holds_nil
  constructor
  · exact .of_not_holds (by simp [hcaller, CallerPc.HoldsWrite]) hnot
  · exact .of_not_holds (by simp [hsup]) (by rw [hsupT]; exact hnil)
  · exact .of_not_holds (by simp [hworker, WorkerPc.LetGo]) (by rw [hworkerT]; exact hnil)
  · simp [hcaller, hsup, CallerPc.UsesPipe]
  · simp [hworker, WorkerPc.logFd]
  · exact fun _ => hworker
  · simp [hsup, SupervisorPc.NothingLeft]
  · simp [hsup]
  · simp [hcaller]
  · simp [hcaller]

theorem inv_stepCaller {s s' : Background} (h : Inv s) (hs : s.stepCaller = some s') : Inv s' := by
  have hcaller := h.caller
  have hforked := h.forked
  have hfds := h.fdsDiffer
  unfold stepCaller at hs
  cases hpc : s.caller with
  | entering =>
    simp only [hpc, Option.some.injEq] at hs hcaller hforked
    subst hs
    split
    · exact { h with
        caller := hcaller, fdsDiffer := fun hh => hfds (hh.imp_left fun hu => hu.elim)
        forked := fun hne => (hforked hne).elim, room := by simp, cleared := by simp }
    · exact { h with
        caller := hcaller, fdsDiffer := fun hh => hfds (hh.imp_left fun hu => hu.elim)
        forked := fun hne => (hforked hne).elim, room := by simp, cleared := by simp }
  | closingWrite =>
    simp only [hpc, Option.some.injEq] at hs hcaller
    subst hs
    exact { h with
      caller := .of_not_holds (fun hh => hh) hcaller.onlyAt.not_holds_close
      fdsDiffer := fun _ => hfds (Or.inl (by rw [hpc]; trivial))
      forked := fun _ => trivial, room := by simp, cleared := by simp }
  | reading buffer =>
    have hne : s.readFd ≠ s.writeFd := hfds (Or.inl (by rw [hpc]; trivial))
    simp only [hpc] at hs hcaller
    split at hs
    · cases hs
      split
      · exact { h with
          caller := hcaller, fdsDiffer := fun _ => hne, forked := fun _ => trivial
          room := by simp, cleared := by simp }
      · rename_i hlt
        refine { h with
          caller := hcaller, fdsDiffer := fun _ => hne, forked := fun _ => trivial
          room := ?_, cleared := by simp }
        intro b hb
        cases hb
        omega
    · split at hs
      · cases hs
      · cases hs
        exact { h with
          caller := hcaller, fdsDiffer := fun _ => hne, forked := fun _ => trivial
          room := by simp, cleared := by simp }
  | closingRead buffer =>
    have hne : s.readFd ≠ s.writeFd := hfds (Or.inl (by rw [hpc]; trivial))
    simp only [hpc, Option.some.injEq] at hs hcaller
    subst hs
    exact { h with
      caller := hcaller.close hne, fdsDiffer := fun _ => hne, forked := fun _ => trivial
      room := by simp, cleared := by simp }
  | waiting buffer =>
    simp only [hpc] at hs hcaller
    split at hs
    · cases hs
      exact { h with
        caller := hcaller, fdsDiffer := fun hh => hfds (hh.imp_left fun hu => hu.elim)
        forked := fun _ => trivial, room := by simp, cleared := by simp }
    · cases hs
  | clearingBusy answer =>
    simp only [hpc, Option.some.injEq] at hs hcaller hforked
    subst hs
    exact { h with
      caller := hcaller, fdsDiffer := fun hh => hfds (hh.imp_left fun hu => hu.elim)
      forked := fun hne => by cases answer <;> exact hforked hne
      room := by simp, cleared := fun _ _ => rfl }
  | _ => simp [hpc] at hs

theorem inv_stepSupervisor {call : BackgroundCall} {s s' : Background} (h : Inv s)
    (hs : s.stepSupervisor call = some s') : Inv s' := by
  have hsup := h.supervisor
  have hforked := h.forked
  have hfds := h.fdsDiffer
  have hunforked := h.unforked
  have hnothing := h.nothingLeft
  unfold stepSupervisor at hs
  split at hs
  · rename_i hpc
    rw [hpc] at hsup hforked hfds hunforked
    cases hs
    exact { h with
      supervisor := (hsup.congr (by simp)).close (hfds (Or.inr (by simp)))
      fdsDiffer := fun _ => hfds (Or.inr (by simp)), unforked := fun _ => hunforked (Or.inr trivial)
      nothingLeft := fun hh => hh.elim, forked := fun _ => hforked (by simp) }
  · rename_i hpc
    rw [hpc] at hsup hforked hfds hunforked
    split at hs
    · cases hs
    · cases hs
      exact { h with
        supervisor := hsup.congr (by simp), fdsDiffer := fun _ => hfds (Or.inr (by simp))
        unforked := fun _ => hunforked (Or.inr trivial), nothingLeft := fun hh => hh.elim
        forked := fun _ => hforked (by simp) }
  · rename_i hpc
    rw [hpc] at hsup hforked hfds
    cases hs
    exact { h with
      supervisor := hsup.congr (by simp), fdsDiffer := fun _ => hfds (Or.inr (by simp))
      unforked := fun hh => by simp [SupervisorPc.BeforeFork] at hh
      nothingLeft := fun hh => hh.elim, forked := fun _ => hforked (by simp) }
  · rename_i loops hpc
    rw [hpc] at hsup hforked hfds
    split at hs
    · rename_i code hworker
      cases hs
      exact { h with
        supervisor := hsup.congr (by simp), fdsDiffer := fun _ => hfds (Or.inr (by simp))
        unforked := fun hh => by simp [SupervisorPc.BeforeFork] at hh
        nothingLeft := fun _ => by rw [hworker]; trivial
        forked := fun _ => hforked (by simp) }
    · cases hs
      exact { h with
        supervisor := hsup.congr (by simp), fdsDiffer := fun _ => hfds (Or.inr (by simp))
        unforked := fun hh => by simp [SupervisorPc.BeforeFork] at hh
        nothingLeft := fun hh => hh.elim, forked := fun _ => hforked (by simp) }
  · rename_i text started hpc
    rw [hpc] at hsup hforked hfds hnothing
    cases hs
    exact { h with
      supervisor := hsup.congr (by simp), fdsDiffer := fun _ => hfds (Or.inr (by simp))
      unforked := fun hh => by simp [SupervisorPc.BeforeFork] at hh
      nothingLeft := fun hh => by
        cases started with
        | true => exact hh.elim
        | false => exact hnothing trivial
      forked := fun _ => hforked (by simp) }
  · rename_i started hpc
    rw [hpc] at hforked hfds
    cases hs
    exact { h with
      supervisor := .of_not_holds (by simp) Table.not_holds_nil
      fdsDiffer := fun _ => hfds (Or.inr (by simp))
      unforked := fun hh => by simp [SupervisorPc.BeforeFork] at hh
      nothingLeft := fun hh => hh.elim, forked := fun _ => hforked (by simp) }
  · cases hs

/-- What a worker has let go it does not get back. -/
theorem inv_worker {s : Background} (h : Inv s) {pc : WorkerPc} {t : Table OpenFile}
    (hforked : s.worker ≠ .notForked) (htable : WriteAt s.writeFd (¬ pc.LetGo s.writeFd) t)
    (hlog : ∀ fd, pc.logFd = some fd → fd ≠ s.writeFd ∧ ¬ t.Free fd)
    (hmono : s.worker.LetGo s.writeFd → pc.LetGo s.writeFd) :
    Inv { s with worker := pc, workerTable := t } :=
  { h with
    worker := htable, log := hlog, unforked := fun hh => absurd (h.unforked hh) hforked
    nothingLeft := fun hh => hmono (h.nothingLeft hh) }

theorem inv_stepWorker {s s' : Background} (h : Inv s) (hs : s.stepWorker = some s') : Inv s' := by
  have hworker := h.worker
  have hlog := h.log
  unfold stepWorker at hs
  split at hs
  · rename_i logFd hpc
    rw [hpc] at hworker hlog
    cases hs
    obtain ⟨hne, hopen⟩ := hlog logFd rfl
    obtain ⟨htable, hopen'⟩ := hworker.dup2 hne hopen 1
    refine inv_worker h (by simp [hpc]) (htable.congr (by simp [WorkerPc.LetGo])) ?_
      (by simp [hpc, WorkerPc.LetGo])
    rintro fd hfd
    cases hfd
    exact ⟨hne, hopen'⟩
  · rename_i logFd hpc
    rw [hpc] at hworker hlog
    cases hs
    obtain ⟨hne, hopen⟩ := hlog logFd rfl
    obtain ⟨htable, hopen'⟩ := hworker.dup2 hne hopen 2
    refine inv_worker h (by simp [hpc]) (htable.congr (by simp [WorkerPc.LetGo])) ?_
      (by simp only [hpc, WorkerPc.LetGo]; exact Or.inl)
    rintro fd hfd
    cases hfd
    exact ⟨hne, hopen'⟩
  · rename_i logFd hpc
    rw [hpc] at hworker hlog
    cases hs
    refine inv_worker h (by simp [hpc]) ?_ (by simp [WorkerPc.logFd])
      (by simp [hpc, WorkerPc.LetGo])
    have htable : WriteAt s.writeFd (¬ (WorkerPc.execing true).LetGo s.writeFd) s.workerTable :=
      hworker.congr (by simp [WorkerPc.LetGo])
    split
    · exact htable.close (hlog logFd rfl).1
    · exact htable
  · cases hs

/-- Every step of every process keeps the invariant. -/
theorem inv_step {call : BackgroundCall} {s s' : Background} {a : BackgroundStep} (h : Inv s)
    (hs : s.step call a = some s') : Inv s' := by
  cases a with
  | caller => exact inv_stepCaller h hs
  | supervisor => exact inv_stepSupervisor h hs
  | worker => exact inv_stepWorker h hs
  | callerSbInit ok =>
    have hcaller := h.caller
    have hforked := h.forked
    simp only [step] at hs
    split at hs
    · rename_i hpc
      rw [hpc] at hcaller hforked
      cases hs
      cases ok with
      | true =>
        exact { h with
          caller := hcaller, fdsDiffer := fun hh => h.fdsDiffer (hh.imp_left fun hu => hu.elim)
          forked := fun hne => (hforked hne).elim, room := by simp, cleared := by simp }
      | false =>
        exact { h with
          caller := hcaller, fdsDiffer := fun hh => h.fdsDiffer (hh.imp_left fun hu => hu.elim)
          forked := fun hne => (hforked hne).elim, room := by simp, cleared := by simp }
    · cases hs
  | callerPipe fds =>
    have hcaller := h.caller
    have hforked := h.forked
    cases fds with
    | none =>
      simp only [step] at hs
      split at hs
      · rename_i hpc
        rw [hpc] at hcaller
        cases hs
        exact { h with
          caller := hcaller, fdsDiffer := fun hh => h.fdsDiffer (hh.imp_left fun hu => hu.elim)
          forked := fun _ => trivial, room := by simp, cleared := by simp }
      · cases hs
    | some rw =>
      obtain ⟨r, w⟩ := rw
      simp only [step] at hs
      split at hs
      · rename_i hpc
        obtain ⟨hpc, hrw, hr, hw⟩ := hpc
        rw [hpc] at hcaller hforked
        have hnone : s.supervisor = .notForked := by
          by_contra hne
          exact hforked hne
        have hnot : ¬ s.callerTable.Holds .pipeWrite := hcaller.released fun hh => hh
        have hnot' : ¬ (s.callerTable.install r .pipeRead).Holds .pipeWrite :=
          (WriteAt.of_not_holds (w := w) (fun hh => hh) hnot).install hrw (by simp) |>.released
            fun hh => hh
        have hnw := h.unforked (Or.inl hnone)
        have hsup := h.supervisor.released (by simp [hnone])
        have hwork := h.worker.released (by simp [hnw, WorkerPc.LetGo])
        cases hs
        exact { h with
          caller := .of_mem trivial (.install_self hnot' w) (Table.mem_install.2 (Or.inl rfl))
          supervisor := .of_not_holds (by simp [hnone]) hsup
          worker := .of_not_holds (by simp [hnw, WorkerPc.LetGo]) hwork
          fdsDiffer := fun _ => hrw, log := by simp [hnw, WorkerPc.logFd]
          nothingLeft := by simp [hnone, SupervisorPc.NothingLeft], forked := by simp [hnone]
          room := by simp, cleared := by simp }
      · cases hs
  | callerFork ok =>
    have hcaller := h.caller
    have hforked := h.forked
    simp only [step] at hs
    split at hs
    · rename_i hpc
      rw [hpc] at hcaller hforked
      have hne : s.readFd ≠ s.writeFd := h.fdsDiffer (Or.inl (by rw [hpc]; trivial))
      have hnone : s.supervisor = .notForked := by
        by_contra hne
        exact hforked hne
      have hmem := hcaller.held trivial
      cases hs
      cases ok with
      | true =>
        exact { h with
          caller := .of_mem trivial hcaller.onlyAt hmem
          supervisor := .of_mem (by simp) hcaller.onlyAt hmem
          fdsDiffer := fun _ => hne, unforked := fun _ => h.unforked (Or.inl hnone)
          nothingLeft := fun hh => hh.elim, forked := fun _ => trivial
          room := by simp, cleared := by simp }
      | false =>
        exact { h with
          caller := .of_not_holds (fun hh => hh) (hcaller.onlyAt.close s.readFd).not_holds_close
          fdsDiffer := fun _ => hne, forked := fun _ => trivial
          room := by simp, cleared := by simp }
    · cases hs
  | supervisorChdir error =>
    have hsup := h.supervisor
    have hforked := h.forked
    have hfds := h.fdsDiffer
    simp only [step] at hs
    split at hs
    · rename_i hpc
      have hnw := h.unforked (Or.inr (by rw [hpc.1]; trivial))
      rw [hpc.1] at hsup hforked hfds
      cases hs
      cases error with
      | none =>
        exact { h with
          supervisor := hsup.congr (by simp), fdsDiffer := fun _ => hfds (Or.inr (by simp))
          unforked := fun _ => hnw, nothingLeft := fun hh => hh.elim
          forked := fun _ => hforked (by simp) }
      | some text =>
        exact { h with
          supervisor := hsup.congr (by simp), fdsDiffer := fun _ => hfds (Or.inr (by simp))
          unforked := fun _ => hnw, nothingLeft := fun _ => by rw [hnw]; trivial
          forked := fun _ => hforked (by simp) }
    · cases hs
  | supervisorFork error =>
    have hsup := h.supervisor
    have hforked := h.forked
    have hfds := h.fdsDiffer
    simp only [step] at hs
    split at hs
    · rename_i hpc
      have hnw := h.unforked (Or.inr (by rw [hpc]; trivial))
      rw [hpc] at hsup hforked hfds
      cases hs
      cases error with
      | none =>
        exact { h with
          supervisor := hsup.congr (by simp), fdsDiffer := fun _ => hfds (Or.inr (by simp))
          worker := .of_mem (fun hh => hh) hsup.onlyAt (hsup.held (by simp))
          log := by simp [WorkerPc.logFd]
          unforked := fun hh => by simp [SupervisorPc.BeforeFork] at hh
          nothingLeft := fun hh => hh.elim, forked := fun _ => hforked (by simp) }
      | some text =>
        exact { h with
          supervisor := hsup.congr (by simp), fdsDiffer := fun _ => hfds (Or.inr (by simp))
          unforked := fun hh => by simp [SupervisorPc.BeforeFork] at hh
          nothingLeft := fun _ => by rw [hnw]; trivial
          forked := fun _ => hforked (by simp) }
    · cases hs
  | workerOpen fd =>
    have hworker := h.worker
    cases fd with
    | none =>
      simp only [step] at hs
      split at hs
      · rename_i hpc
        rw [hpc] at hworker
        cases hs
        exact inv_worker h (by simp [hpc]) (hworker.congr (by simp [WorkerPc.LetGo]))
          (by simp [WorkerPc.logFd]) (by simp [hpc, WorkerPc.LetGo])
      · cases hs
    | some fd =>
      simp only [step] at hs
      split at hs
      · rename_i hpc
        obtain ⟨hpc, hfree⟩ := hpc
        rw [hpc] at hworker
        have hne : fd ≠ s.writeFd := fun he =>
          hfree _ (hworker.held fun hh => hh) he.symm
        cases hs
        refine inv_worker h (by simp [hpc]) (hworker.install hne (by simp)) ?_
          (by simp [hpc, WorkerPc.LetGo])
        rintro fd' hfd
        cases hfd
        exact ⟨hne, fun hf => hf _ (Table.mem_install.2 (Or.inl rfl)) rfl⟩
      · cases hs
  | workerExec ok =>
    have hworker := h.worker
    simp only [step] at hs
    split at hs
    · rename_i redirected hpc
      rw [hpc] at hworker
      cases hs
      cases ok with
      | true =>
        exact inv_worker h (by simp [hpc]) hworker.exec (by simp [WorkerPc.logFd])
          (by rw [hpc]; exact fun hh => hh)
      | false =>
        exact inv_worker h (by simp [hpc])
          (.of_not_holds (by simp [WorkerPc.LetGo]) Table.not_holds_nil)
          (by simp [WorkerPc.logFd]) (fun _ => trivial)
    · cases hs
  | workerEnd code =>
    simp only [step] at hs
    split at hs
    · rename_i redirected hpc
      cases hs
      exact inv_worker h (by simp [hpc])
        (.of_not_holds (by simp [WorkerPc.LetGo]) Table.not_holds_nil)
        (by simp [WorkerPc.logFd]) (fun _ => trivial)
    · cases hs

/-! ## Who is waited for -/

/-- Once the supervisor has exited no other process holds the write end, but for the
caller itself before it closes its own copy. -/
def WriteEndReleased (s : Background) : Prop :=
  s.supervisor = .exited →
    ¬ s.workerTable.Holds .pipeWrite ∧
      (s.caller ≠ .closingWrite → ¬ s.callerTable.Holds .pipeWrite)

/-- The supervisor exits only when it leaves no worker behind. -/
def LeavesNoWorker (s : Background) (a : BackgroundStep) : Prop :=
  a = .supervisor → s.supervisor = .exiting true → s.worker.LetGo s.writeFd

theorem writeEndReleased_iff {s : Background} (h : Inv s) :
    s.WriteEndReleased ↔ (s.supervisor = .exited → s.worker.LetGo s.writeFd) := by
  refine forall_congr' fun hexited => ?_
  rw [h.worker.holds_iff, not_not]
  refine and_iff_left fun hne => h.caller.released fun hholds => ?_
  have hforked := h.forked (by simp [hexited])
  cases hpc : s.caller <;> simp_all [CallerPc.HoldsWrite, CallerPc.Forked]

/-- The caller's own steps touch neither child. -/
theorem stepCaller_frame {s s' : Background} (hs : s.stepCaller = some s') :
    s'.supervisor = s.supervisor ∧ s'.worker = s.worker ∧ s'.writeFd = s.writeFd := by
  unfold stepCaller at hs
  split at hs
  · cases hs
    split <;> exact ⟨rfl, rfl, rfl⟩
  · cases hs
    exact ⟨rfl, rfl, rfl⟩
  · split at hs
    · cases hs
      exact ⟨rfl, rfl, rfl⟩
    · split at hs
      · cases hs
      · cases hs
        exact ⟨rfl, rfl, rfl⟩
  · cases hs
    exact ⟨rfl, rfl, rfl⟩
  · split at hs
    · cases hs
      exact ⟨rfl, rfl, rfl⟩
    · cases hs
  · cases hs
    exact ⟨rfl, rfl, rfl⟩
  · cases hs

/-- The worker's own steps leave the supervisor alone, and do not get the write end
back. -/
theorem stepWorker_frame {s s' : Background} (hs : s.stepWorker = some s') :
    s'.supervisor = s.supervisor ∧ s'.writeFd = s.writeFd ∧
      (s.worker.LetGo s.writeFd → s'.worker.LetGo s'.writeFd) := by
  unfold stepWorker at hs
  split at hs
  · rename_i hpc
    cases hs
    exact ⟨rfl, rfl, by simp [hpc, WorkerPc.LetGo]⟩
  · rename_i hpc
    cases hs
    exact ⟨rfl, rfl, by simp only [hpc, WorkerPc.LetGo]; exact Or.inl⟩
  · rename_i hpc
    cases hs
    exact ⟨rfl, rfl, by simp [hpc, WorkerPc.LetGo]⟩
  · cases hs

/-- The supervisor exits by its own last step, which touches nothing else. -/
theorem stepSupervisor_exits {call : BackgroundCall} {s s' : Background}
    (hs : s.stepSupervisor call = some s') :
    s.supervisor ≠ .exited ∧ s'.worker = s.worker ∧ s'.writeFd = s.writeFd ∧
      (s'.supervisor = .exited ↔ ∃ started, s.supervisor = .exiting started) := by
  unfold stepSupervisor at hs
  split at hs <;> rename_i hpc
  · cases hs
    simp [hpc]
  · split at hs
    · cases hs
    · cases hs
      simp [hpc]
  · cases hs
    simp [hpc]
  · split at hs <;> cases hs <;> simp [hpc]
  · cases hs
    simp [hpc]
  · cases hs
    simp [hpc]
  · cases hs

/-- After the supervisor has exited, what the worker let go stays gone. -/
theorem exited_step {call : BackgroundCall} {s s' : Background} {a : BackgroundStep} (h : Inv s)
    (hs : s.step call a = some s') (hexited : s.supervisor = .exited) :
    s'.supervisor = .exited ∧ (s.worker.LetGo s.writeFd → s'.worker.LetGo s'.writeFd) := by
  have hforked := h.forked (by simp [hexited])
  cases a with
  | caller =>
    obtain ⟨hsup, hworker, hfd⟩ := stepCaller_frame hs
    rw [hsup, hworker, hfd]
    exact ⟨hexited, fun hgo => hgo⟩
  | supervisor => exact absurd hexited (stepSupervisor_exits hs).1
  | worker =>
    obtain ⟨hsup, -, hgo⟩ := stepWorker_frame hs
    exact ⟨hsup.trans hexited, hgo⟩
  | callerSbInit ok =>
    simp only [step] at hs
    split at hs
    · cases hs
      exact ⟨hexited, fun hgo => hgo⟩
    · cases hs
  | callerPipe fds =>
    cases fds with
    | none =>
      simp only [step] at hs
      split at hs
      · cases hs
        exact ⟨hexited, fun hgo => hgo⟩
      · cases hs
    | some fds =>
      simp only [step] at hs
      split at hs
      · rename_i hpc
        rw [hpc.1] at hforked
        exact hforked.elim
      · cases hs
  | callerFork ok =>
    simp only [step] at hs
    split at hs
    · rename_i hpc
      rw [hpc] at hforked
      exact hforked.elim
    · cases hs
  | supervisorChdir error => simp [step, hexited] at hs
  | supervisorFork error => simp [step, hexited] at hs
  | workerOpen fd =>
    cases fd <;> simp only [step] at hs <;> split at hs <;> cases hs
    · rename_i hpc
      exact ⟨hexited, by simp [hpc, WorkerPc.LetGo]⟩
    · rename_i hpc
      exact ⟨hexited, by simp [hpc.1, WorkerPc.LetGo]⟩
  | workerExec ok =>
    simp only [step] at hs
    split at hs
    · rename_i redirected hpc
      cases hs
      cases ok with
      | true => exact ⟨hexited, by rw [hpc]; exact fun hgo => hgo⟩
      | false => exact ⟨hexited, fun _ => trivial⟩
    · cases hs
  | workerEnd code =>
    simp only [step] at hs
    split at hs
    · cases hs
      exact ⟨hexited, fun _ => trivial⟩
    · cases hs

/-- Before the supervisor has exited, only its own exit can end it. -/
theorem exits_step {call : BackgroundCall} {s s' : Background} {a : BackgroundStep}
    (hs : s.step call a = some s') (hexited : s'.supervisor = .exited)
    (hnot : s.supervisor ≠ .exited) :
    a = .supervisor ∧ (∃ started, s.supervisor = .exiting started) ∧
      s'.worker = s.worker ∧ s'.writeFd = s.writeFd := by
  cases a with
  | caller => exact absurd ((stepCaller_frame hs).1.symm.trans hexited) hnot
  | supervisor =>
    obtain ⟨-, hworker, hfd, hiff⟩ := stepSupervisor_exits hs
    exact ⟨rfl, hiff.1 hexited, hworker, hfd⟩
  | worker => exact absurd ((stepWorker_frame hs).1.symm.trans hexited) hnot
  | callerSbInit ok =>
    simp only [step] at hs
    split at hs <;> cases hs
    exact absurd hexited hnot
  | callerPipe fds =>
    cases fds <;> simp only [step] at hs <;> split at hs <;> cases hs <;> exact absurd hexited hnot
  | callerFork ok =>
    simp only [step] at hs
    split at hs <;> cases hs
    cases ok with
    | true => cases hexited
    | false => exact absurd hexited hnot
  | supervisorChdir error =>
    simp only [step] at hs
    split at hs <;> cases hs
    cases error <;> cases hexited
  | supervisorFork error =>
    simp only [step] at hs
    split at hs <;> cases hs
    cases error <;> cases hexited
  | workerOpen fd =>
    cases fd <;> simp only [step] at hs <;> split at hs <;> cases hs <;> exact absurd hexited hnot
  | workerExec ok =>
    simp only [step] at hs
    split at hs <;> cases hs
    cases ok <;> exact absurd hexited hnot
  | workerEnd code =>
    simp only [step] at hs
    split at hs <;> cases hs
    exact absurd hexited hnot

/-- One step keeps the property exactly when the supervisor leaves no worker behind. -/
theorem released_step_iff {call : BackgroundCall} {s s' : Background} {a : BackgroundStep}
    (h : Inv s) (hP : s.WriteEndReleased) (hs : s.step call a = some s') :
    s'.WriteEndReleased ↔ s.LeavesNoWorker a := by
  have h' := inv_step h hs
  rw [writeEndReleased_iff h] at hP
  rw [writeEndReleased_iff h']
  by_cases hexited : s.supervisor = .exited
  · obtain ⟨-, hgo⟩ := exited_step h hs hexited
    refine iff_of_true (fun _ => hgo (hP hexited)) fun _ hstarted => ?_
    rw [hexited] at hstarted
    cases hstarted
  · by_cases hexited' : s'.supervisor = .exited
    · obtain ⟨rfl, ⟨started, hpc⟩, hworker, hfd⟩ := exits_step hs hexited' hexited
      rw [hworker, hfd]
      cases started with
      | true => exact ⟨fun hgo _ _ => hgo hexited', fun hgo _ => hgo rfl hpc⟩
      | false =>
        have hgo := h.nothingLeft (by rw [hpc]; trivial)
        exact iff_of_true (fun _ => hgo) fun _ _ => hgo
    · refine iff_of_true (fun hh => absurd hh hexited') ?_
      rintro rfl hpc
      exact absurd ((stepSupervisor_exits hs).2.2.2.2 ⟨true, hpc⟩) hexited'

/-! ## The caller finishes -/

/-- On its own the caller comes to its answer and clears `busy`. -/
def CallerFinishes (call : BackgroundCall) (s : Background) : Prop :=
  ∃ (k : ℕ) (s' : Background) (v : StartVerdict),
    (backgroundMachine call).run s (List.replicate k .caller) = some s' ∧
      s'.caller = .answered (.finished v) ∧ s'.busy = false

theorem CallerFinishes.step {call : BackgroundCall} {s s' : Background}
    (hs : s.stepCaller = some s') (h : CallerFinishes call s') : CallerFinishes call s := by
  obtain ⟨k, final, v, hrun, hpc, hbusy⟩ := h
  refine ⟨k + 1, final, v, ?_, hpc, hbusy⟩
  have hstep : (backgroundMachine call).step s .caller = some s' := hs
  simp only [List.replicate_succ, Machine.run, hstep, Option.bind_some]
  exact hrun

section Finishing

variable {call : BackgroundCall} {s : Background}

theorem finishes_of_answered {v : StartVerdict} (hpc : s.caller = .answered (.finished v))
    (hbusy : s.busy = false) : CallerFinishes call s :=
  ⟨0, s, v, rfl, hpc, hbusy⟩

theorem finishes_of_clearing {v : StartVerdict} (hpc : s.caller = .clearingBusy (.finished v)) :
    CallerFinishes call s := by
  have hs : s.stepCaller = some { s with busy := false, caller := .answered (.finished v) } := by
    rw [stepCaller, hpc]
  exact .step hs (finishes_of_answered rfl rfl)

theorem finishes_of_waiting {buffer : Bytes} (hpc : s.caller = .waiting buffer)
    (hexited : s.supervisor = .exited) : CallerFinishes call s := by
  have hs : s.stepCaller =
      some { s with caller := .clearingBusy (.finished (startVerdict buffer)) } := by
    rw [stepCaller, hpc]
    exact if_pos hexited
  exact .step hs (finishes_of_clearing rfl)

theorem finishes_of_closingRead {buffer : Bytes} (hpc : s.caller = .closingRead buffer)
    (hexited : s.supervisor = .exited) : CallerFinishes call s := by
  have hs : s.stepCaller = some { s with
      callerTable := s.callerTable.close s.readFd
      caller := .waiting buffer } := by
    rw [stepCaller, hpc]
  exact .step hs (finishes_of_waiting rfl hexited)

/-- The read loop ends: each `read` takes something from the pipe, and an empty pipe
without a writer is at its end. -/
theorem finishes_of_reading : ∀ (n : ℕ) {s : Background} {buffer : Bytes}, s.pipe.length ≤ n →
    s.caller = .reading buffer → buffer.length < 255 → s.supervisor = .exited →
    ¬ s.WriteEndOpen → CallerFinishes call s := by
  intro n
  induction n with
  | zero =>
    intro s buffer hlen hpc _ hexited hopen
    have hempty : s.pipe = [] := List.length_eq_zero_iff.1 (by omega)
    have hs : s.stepCaller = some { s with caller := .closingRead buffer } := by
      rw [stepCaller, hpc]
      simp only [hempty, ne_eq, not_true_eq_false, if_false, if_neg hopen]
    exact .step hs (finishes_of_closingRead rfl hexited)
  | succ n ih =>
    intro s buffer hlen hpc hroom hexited hopen
    by_cases hempty : s.pipe = []
    · exact ih (by rw [hempty]; exact Nat.zero_le n) hpc hroom hexited hopen
    · have hpos : 0 < s.pipe.length := List.length_pos_iff.2 hempty
      have hs : s.stepCaller = some { s with
          pipe := s.pipe.drop (255 - buffer.length)
          caller := if 255 ≤ (buffer ++ s.pipe.take (255 - buffer.length)).length then
            .closingRead (buffer ++ s.pipe.take (255 - buffer.length))
            else .reading (buffer ++ s.pipe.take (255 - buffer.length)) } := by
        rw [stepCaller, hpc]
        exact if_pos hempty
      refine .step hs ?_
      split
      · exact finishes_of_closingRead rfl hexited
      · rename_i hlt
        refine ih ?_ rfl (by omega) hexited hopen
        rw [List.length_drop]
        omega

/-- With the supervisor gone and the write end released, nothing keeps the caller
waiting. -/
theorem finishes_of_released (h : Inv s) (hexited : s.supervisor = .exited)
    (hP : s.WriteEndReleased) : CallerFinishes call s := by
  have hforked := h.forked (by simp [hexited])
  obtain ⟨hworker, hcaller⟩ := hP hexited
  have hsup := h.supervisor.released (by simp [hexited])
  cases hpc : s.caller with
  | closingWrite =>
    have hs : s.stepCaller = some { s with
        callerTable := s.callerTable.close s.writeFd
        caller := .reading [] } := by
      rw [stepCaller, hpc]
    refine .step hs (finishes_of_reading s.pipe.length le_rfl rfl (by decide) hexited ?_)
    rintro (hh | hh | hh)
    · exact h.caller.onlyAt.not_holds_close hh
    · exact hsup hh
    · exact hworker hh
  | reading buffer =>
    refine finishes_of_reading s.pipe.length le_rfl hpc (h.room buffer hpc) hexited ?_
    rintro (hh | hh | hh)
    · exact hcaller (by simp [hpc]) hh
    · exact hsup hh
    · exact hworker hh
  | closingRead buffer => exact finishes_of_closingRead hpc hexited
  | waiting buffer => exact finishes_of_waiting hpc hexited
  | clearingBusy answer =>
    cases answer with
    | finished v => exact finishes_of_clearing hpc
    | _ => rw [hpc] at hforked; exact hforked.elim
  | answered answer =>
    cases answer with
    | finished v => exact finishes_of_answered hpc (h.cleared v hpc)
    | _ => rw [hpc] at hforked; exact hforked.elim
  | _ => rw [hpc] at hforked; exact hforked.elim

end Finishing

/-- Until the worker ends, a caller that is reading an empty pipe stays where it is. -/
def Blocked (s : Background) : Prop :=
  s.busy = true ∧ (∃ buffer, s.caller = .reading buffer) ∧ s.pipe = [] ∧
    s.supervisor = .exited ∧ (∃ redirected, s.worker = .running redirected) ∧
    s.workerTable.Holds .pipeWrite

theorem blocked_step {call : BackgroundCall} {s s' : Background} {a : BackgroundStep}
    (h : s.Blocked) (hs : s.step call a = some s') : ∃ code, a = .workerEnd code := by
  obtain ⟨-, ⟨buffer, hcaller⟩, hpipe, hsup, ⟨redirected, hworker⟩, hholds⟩ := h
  cases a with
  | workerEnd code => exact ⟨code, rfl⟩
  | caller =>
    have hopen : s.WriteEndOpen := Or.inr (Or.inr hholds)
    simp [step, stepCaller, hcaller, hpipe, hopen] at hs
  | callerSbInit ok => simp [step, hcaller] at hs
  | callerPipe fds => cases fds <;> simp [step, hcaller] at hs
  | callerFork ok => simp [step, hcaller] at hs
  | supervisor => simp [step, stepSupervisor, hsup] at hs
  | supervisorChdir error => simp [step, hsup] at hs
  | supervisorFork error => simp [step, hsup] at hs
  | worker => simp [step, stepWorker, hworker] at hs
  | workerOpen fd => cases fd <;> simp [step, hworker] at hs
  | workerExec ok => simp [step, hworker] at hs

end Background

open Background in
/-- **When the caller is kept waiting.**  In every run of the three programs, with any
parameters and any outcomes: the write end is gone in every state in which the
supervisor is, exactly if the supervisor never exits with a worker still running behind
it; and in a run of that kind the caller finishes on its own from every state in which
the supervisor has exited. -/
theorem writeEnd_released_iff (call : BackgroundCall) (s : Background)
    (h : (backgroundMachine call).init s) (schedule : List BackgroundStep) :
    ((backgroundMachine call).Along WriteEndReleased s schedule ↔
      (backgroundMachine call).Meets LeavesNoWorker s schedule) ∧
    ((backgroundMachine call).Meets LeavesNoWorker s schedule →
      (backgroundMachine call).Along (fun s => s.supervisor = .exited → CallerFinishes call s) s
        schedule) := by
  have hinv := inv_init h
  have hnot : s.WriteEndReleased := fun hexited => by
    rw [h.2.1] at hexited
    cases hexited
  refine ⟨Machine.along_iff_meets (fun _ _ _ hI _ hs => inv_step hI hs)
    (fun _ _ _ hI hP hs => released_step_iff hI hP hs) schedule s hinv hnot, ?_⟩
  refine Machine.Along.of_meets (fun t ht hexited => ?_) schedule s (.init h)
  have hboth : t.Inv ∧ t.WriteEndReleased :=
    Machine.invariant (P := fun t => t.Inv ∧ t.WriteEndReleased)
      (fun t hinit => ⟨inv_init hinit, fun hexited => by rw [hinit.2.1] at hexited; cases hexited⟩)
      (fun t a t' hP hcond hs =>
        ⟨inv_step hP.1 hs, (released_step_iff hP.1 hP.2 hs).2 hcond⟩) t ht
  exact finishes_of_released hboth.1 hexited hboth.2

/-- A process with its three standard descriptors open calls `startProject`. -/
def startProjectCalled : Background where
  busy := false
  readFd := 0
  writeFd := 0
  pipe := []
  caller := .entering
  callerTable := [(0, ⟨.other 0, false⟩), (1, ⟨.other 1, false⟩), (2, ⟨.other 2, false⟩)]
  supervisor := .notForked
  supervisorTable := []
  worker := .notForked
  workerTable := []

/-- The steps up to the `exec` of the service. -/
def serviceStarted : List BackgroundStep :=
  [.caller, .callerSbInit true, .callerPipe (some (3, 4)), .callerFork true, .caller,
    .supervisor, .supervisorChdir none, .supervisorFork none, .workerOpen (some 3), .worker,
    .worker, .worker, .workerExec true]

/-- The service runs through the two seconds of confirmation. -/
def serviceKeepsRunning : List BackgroundStep :=
  serviceStarted ++ (List.replicate 23 BackgroundStep.supervisor).concat BackgroundStep.caller

/-- What that leads to. -/
def waitingOnService : Background where
  busy := true
  readFd := 3
  writeFd := 4
  pipe := []
  caller := .reading (ascii "STARTED:100\n")
  callerTable := [(3, ⟨.pipeRead, false⟩), (0, ⟨.other 0, false⟩), (1, ⟨.other 1, false⟩),
    (2, ⟨.other 2, false⟩)]
  supervisor := .exited
  supervisorTable := []
  worker := .running true
  workerTable := [(2, ⟨.startLog, false⟩), (1, ⟨.startLog, false⟩), (4, ⟨.pipeWrite, false⟩),
    (0, ⟨.other 0, false⟩)]

theorem startProjectCalled_init : (backgroundMachine ⟨true, 2, 100⟩).init startProjectCalled :=
  ⟨rfl, rfl, rfl, rfl, rfl, rfl, by decide⟩

theorem writeEnd_released_iff_startProject :
    (backgroundMachine ⟨true, 2, 100⟩).Along Background.WriteEndReleased startProjectCalled
        serviceKeepsRunning ↔
      (backgroundMachine ⟨true, 2, 100⟩).Meets Background.LeavesNoWorker startProjectCalled
        serviceKeepsRunning :=
  (writeEnd_released_iff ⟨true, 2, 100⟩ startProjectCalled startProjectCalled_init
    serviceKeepsRunning).1

/-- The supervisor has reported the service as started and exited; the service still
holds the write end, so the caller reads on, `busy` stays set, and no step is possible
until the service ends. -/
theorem start_waits_for_service :
    (backgroundMachine ⟨true, 2, 100⟩).Reachable waitingOnService ∧
      waitingOnService.supervisor = .exited ∧ waitingOnService.worker = .running true ∧
      waitingOnService.workerTable.Holds .pipeWrite ∧ waitingOnService.busy = true ∧
      waitingOnService.caller = .reading (ascii "STARTED:100\n") ∧
      ∀ a s, waitingOnService.step ⟨true, 2, 100⟩ a = some s → ∃ code, a = .workerEnd code := by
  have hrun : (backgroundMachine ⟨true, 2, 100⟩).run startProjectCalled serviceKeepsRunning =
      some waitingOnService := by decide +kernel
  have hblocked : waitingOnService.Blocked :=
    ⟨rfl, ⟨_, rfl⟩, rfl, rfl, ⟨true, rfl⟩, by decide⟩
  exact ⟨Machine.reachable_of_run startProjectCalled_init hrun, rfl, rfl, by decide, rfl, rfl,
    fun a s hs => Background.blocked_step hblocked hs⟩

end IotIde
