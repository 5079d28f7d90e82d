import IotIde.Ide.Identity
import IotIde.Ide.Reports

/-!
# The cloud's view of the lock

A locked section of the connection manager changes the device; what the cloud is told of
it is a later step of the same thread.  Between the two, another thread can change the
device and tell the cloud first.

* `CloudState`, `cloudMachine` — the manager, the reports that threads still owe, and
  the posts made so far;
* `PostsInOrder` — no step posts a full state while an older one is owed;
* `cloud_agrees_in_order` — under it the last full state in the cloud is the device's
  whenever nothing is owed;
* `cloud_keeps_stale_state` — a run out of order, after which the cloud is wrong.
-/

namespace IotIde

open CText Runs

/-- The threads that take the manager's lock. -/
inductive IdeThread
  | message
  | heartbeat
  | startup
  deriving DecidableEq

/-- What a thread posts after its locked section. -/
inductive Report
  | fullState (connected : Bool) (clientId clientInfo : Bytes) (heartbeatMs : ℕ)
  | heartbeat (heartbeatMs : ℕ)
  deriving DecidableEq

/-- The posted text, or `none` when an allocation fails. -/
def Report.text (alloc : ℕ → Bool) : Report → Option Bytes
  | fullState connected clientId clientInfo heartbeatMs =>
    ideReportFullState alloc connected clientId clientInfo heartbeatMs
  | heartbeat heartbeatMs => some (ideReportHeartbeat heartbeatMs)

def Report.isFullState : Report → Bool
  | fullState .. => true
  | heartbeat _ => false

/-- The thread that runs a locked section, and the clock value it has read. -/
def IdeStep.thread : IdeStep → IdeThread
  | .requestConnect .. => .message
  | .requestDisconnect _ => .message
  | .ideHeartbeat .. => .message
  | .heartbeatCheck _ => .heartbeat
  | .clearCloudState => .startup

def IdeStep.clock : IdeStep → ℕ
  | .requestConnect _ nowMs => nowMs
  | .requestDisconnect _ => 0
  | .ideHeartbeat _ nowMs => nowMs
  | .heartbeatCheck nowMs => nowMs
  | .clearCloudState => 0

/-- What the locked section leaves its thread to post. -/
def lockedReport (manager : IdeConnectionManager) : IdeStep → Option Report
  | .requestConnect params nowMs =>
    if (requestConnectLocked manager (clientIdOf params) (clientInfoOf params) nowMs).success then
      some (.fullState true (clientIdOf params) (clientInfoOf params) nowMs)
    else none
  | .requestDisconnect params =>
    if (disconnectLocked manager (clientIdOf params)).2 then some (.fullState false [] [] 0)
    else none
  | .ideHeartbeat params nowMs =>
    if (heartbeatLocked manager (clientIdOf params) nowMs).success then some (.heartbeat nowMs)
    else none
  | .heartbeatCheck nowMs =>
    if (heartbeatCheck manager nowMs).2 then some (.fullState false [] [] 0) else none
  | .clearCloudState => some (.fullState false [] [] 0)

/-- The device, the reports still owed in the order of their locked sections, and the
posts in the order they were made. -/
structure CloudState where
  manager : IdeConnectionManager
  owed : List (IdeThread × Report)
  posts : List Bytes
  deriving DecidableEq

/-- A locked section, or the post that follows one. -/
inductive CloudStep
  | locked (s : IdeStep)
  | post (thread : IdeThread) (alloc : ℕ → Bool)

/-- A thread enters its next locked section when it owes nothing; clock values fit a
`long long`. -/
def cloudStep (s : CloudState) : CloudStep → Option CloudState
  | .locked a =>
    if a.clock < 2 ^ 63 ∧ ∀ e ∈ s.owed, e.1 ≠ a.thread then
      some { s with
        manager := (ideStep s.manager a).1
        owed := s.owed ++ (lockedReport s.manager a).toList.map fun r => (a.thread, r) }
    else none
  | .post thread alloc =>
    match s.owed.dropWhile fun e => e.1 ≠ thread with
    | [] => none
    | e :: later =>
      some { s with
        owed := (s.owed.takeWhile fun e => e.1 ≠ thread) ++ later
        posts := s.posts ++ (e.2.text alloc).toList }

/-- The manager and its threads, from the start on. -/
def cloudMachine : Machine CloudState CloudStep where
  init s := s = ⟨.init, [], []⟩
  step := cloudStep

/-- The last posted full state. -/
def lastFullState (posts : List Bytes) : Option Bytes :=
  (posts.filter fun post => (hasIdeConnected post).isSome).getLast?

/-- The last full state in the cloud is the device's; before the first one, nothing is
connected. -/
def CloudState.Agrees (s : CloudState) : Prop :=
  match lastFullState s.posts with
  | none => s.manager.connected = false
  | some post => Shows post s.manager.connected s.manager.currentClientId

/-- The condition on a step: if it posts a full state, its allocations succeed and no
older full state is still owed. -/
def PostsInOrder (s : CloudState) : CloudStep → Prop
  | .locked _ => True
  | .post thread alloc =>
    ∀ e ∈ (s.owed.dropWhile fun e => e.1 ≠ thread).head?, e.2.isFullState = true →
      (∀ i < 3, alloc i = true) ∧
        ∀ older ∈ s.owed.takeWhile fun e => e.1 ≠ thread, older.2.isFullState = false

/-! ## What is owed describes the device -/

/-- The report is one a handler can owe: its texts and its clock value fit. -/
def Report.Fits : Report → Prop
  | fullState _ clientId clientInfo heartbeatMs =>
    (0 ∉ clientId ∧ clientId.length < 128) ∧ (0 ∉ clientInfo ∧ clientInfo.length < 512) ∧
      heartbeatMs < 2 ^ 63
  | heartbeat heartbeatMs => heartbeatMs < 2 ^ 63

/-- The report tells what the manager holds. -/
def Report.Describes (manager : IdeConnectionManager) : Report → Prop
  | fullState connected clientId _ _ =>
    connected = manager.connected ∧ (connected = true → clientId = manager.currentClientId)
  | heartbeat _ => False

/-- The two managers show the same connection. -/
def SameView (m m' : IdeConnectionManager) : Prop :=
  m'.connected = m.connected ∧ m'.currentClientId = m.currentClientId

/-- A locked section either owes a full state that describes the device, or leaves the
connection as it was and owes no full state. -/
theorem lockedReport_cases (m : IdeConnectionManager) {a : IdeStep} (hclock : a.clock < 2 ^ 63) :
    (∃ r, lockedReport m a = some r ∧ r.isFullState = true ∧ r.Fits ∧
      r.Describes (ideStep m a).1) ∨
    ((∀ r ∈ lockedReport m a, r.isFullState = false ∧ r.Fits) ∧ SameView m (ideStep m a).1) := by
  have hempty : Report.Fits (.fullState false [] [] 0) := by
    simp [Report.Fits]
  cases a with
  | requestConnect params nowMs =>
    simp only [lockedReport, ideStep]
    cases h : (requestConnectLocked m (clientIdOf params) (clientInfoOf params) nowMs).success with
    | true =>
      rw [requestConnectLocked_accepted (clientIdOf_length_lt params) h]
      exact Or.inl ⟨_, rfl, rfl, ⟨⟨nul_notMem_readClientId _ _, clientIdOf_length_lt params⟩,
        ⟨nul_notMem_cstr _, clientInfoOf_length_lt params⟩, hclock⟩, rfl, fun _ => rfl⟩
    | false =>
      rw [requestConnectLocked_refused h]
      exact Or.inr ⟨by simp, rfl, rfl⟩
  | requestDisconnect params =>
    by_cases h₁ : m.connected = false
    · simp only [lockedReport, ideStep, disconnectLocked, if_pos h₁]
      exact Or.inr ⟨by simp, rfl, rfl⟩
    · by_cases h₂ : m.currentClientId ≠ clientIdOf params
      · simp only [lockedReport, ideStep, disconnectLocked, if_neg h₁, if_pos h₂]
        exact Or.inr ⟨by simp, rfl, rfl⟩
      · simp only [lockedReport, ideStep, disconnectLocked, if_neg h₁, if_neg h₂]
        exact Or.inl ⟨_, rfl, rfl, hempty, rfl, fun h => by cases h⟩
  | ideHeartbeat params nowMs =>
    by_cases h : m.connected = false ∨ m.currentClientId ≠ clientIdOf params
    · simp only [lockedReport, ideStep, heartbeatLocked, if_pos h]
      exact Or.inr ⟨by simp, rfl, rfl⟩
    · simp only [lockedReport, ideStep, heartbeatLocked, if_neg h]
      refine Or.inr ⟨fun r hr => ?_, rfl, rfl⟩
      cases hr
      exact ⟨rfl, hclock⟩
  | heartbeatCheck nowMs =>
    by_cases h : m.connected = true ∧ (nowMs : ℤ) - m.lastHeartbeatMs > HEARTBEAT_TIMEOUT_MS
    · simp only [lockedReport, ideStep, heartbeatCheck, if_pos h]
      exact Or.inl ⟨_, rfl, rfl, hempty, rfl, fun h => by cases h⟩
    · simp only [lockedReport, ideStep, heartbeatCheck, if_neg h]
      exact Or.inr ⟨by simp, rfl, rfl⟩
  | clearCloudState => exact Or.inl ⟨_, rfl, rfl, hempty, rfl, fun h => by cases h⟩

/-! ## The invariant -/

/-- The full states still owed, oldest first. -/
def CloudState.owedStates (s : CloudState) : List Report :=
  (s.owed.map Prod.snd).filter Report.isFullState

/-- Once everything owed is posted in order, the cloud agrees: the newest full state
describes the device, and if none is owed the cloud agrees already. -/
structure CloudState.Inv (s : CloudState) : Prop where
  fits : ∀ e ∈ s.owed, e.2.Fits
  newest : match s.owedStates.getLast? with
    | some r => r.Describes s.manager
    | none => s.Agrees

theorem lastFullState_concat_shows {post : Bytes} {connected : Bool} {clientId : Bytes}
    (h : Shows post connected clientId) (posts : List Bytes) :
    lastFullState (posts ++ [post]) = some post := by
  simp [lastFullState, h.1]

theorem lastFullState_concat_other {post : Bytes} (h : hasIdeConnected post = none)
    (posts : List Bytes) : lastFullState (posts ++ [post]) = lastFullState posts := by
  simp [lastFullState, h]

/-- What agrees with the device keeps agreeing while the connection stays. -/
theorem CloudState.Agrees.of_sameView {s : CloudState} (h : s.Agrees) {m : IdeConnectionManager}
    (hview : SameView s.manager m) (owed : List (IdeThread × Report)) :
    CloudState.Agrees ⟨m, owed, s.posts⟩ := by
  unfold Agrees at h ⊢
  dsimp only
  rw [hview.1, hview.2]
  exact h

theorem inv_locked {s : CloudState} (h : s.Inv) {a : IdeStep} (hclock : a.clock < 2 ^ 63) :
    CloudState.Inv ⟨(ideStep s.manager a).1,
      s.owed ++ (lockedReport s.manager a).toList.map fun r => (a.thread, r), s.posts⟩ := by
  rcases lockedReport_cases s.manager hclock with ⟨r, hr, hfull, hfits, hdesc⟩ | ⟨hnone, hview⟩
  · rw [hr]
    refine ⟨?_, ?_⟩
    · intro e he
      rcases List.mem_append.1 he with he | he
      · exact h.fits e he
      · simp only [Option.toList_some, List.map_cons, List.map_nil, List.mem_singleton] at he
        rw [he]
        exact hfits
    · simp [CloudState.owedStates, hfull, hdesc]
  · have hstates : CloudState.owedStates ⟨(ideStep s.manager a).1,
        s.owed ++ (lockedReport s.manager a).toList.map fun r => (a.thread, r), s.posts⟩ =
        s.owedStates := by
      cases hr : lockedReport s.manager a with
      | none => simp [CloudState.owedStates]
      | some r => simp [CloudState.owedStates, (hnone r (by simp [hr])).1]
    refine ⟨?_, ?_⟩
    · intro e he
      rcases List.mem_append.1 he with he | he
      · exact h.fits e he
      · obtain ⟨r, hr, rfl⟩ := List.mem_map.1 he
        exact (hnone r (Option.mem_toList.1 hr)).2
    · have hnewest := h.newest
      rw [hstates]
      cases hlast : s.owedStates.getLast? with
      | none =>
        rw [hlast] at hnewest
        exact CloudState.Agrees.of_sameView hnewest hview _
      | some r =>
        rw [hlast] at hnewest
        cases r with
        | fullState connected clientId clientInfo heartbeatMs =>
          exact ⟨hnewest.1.trans hview.1.symm, fun hc => (hnewest.2 hc).trans hview.2.symm⟩
        | heartbeat _ => exact hnewest

/-- Posting what a thread owes, in order. -/
theorem inv_post {s : CloudState} (h : s.Inv) {alloc : ℕ → Bool}
    {before later : List (IdeThread × Report)} {e : IdeThread × Report}
    (howed : s.owed = before ++ e :: later)
    (horder : e.2.isFullState = true →
      (∀ i < 3, alloc i = true) ∧ ∀ older ∈ before, older.2.isFullState = false) :
    CloudState.Inv ⟨s.manager, before ++ later, s.posts ++ (e.2.text alloc).toList⟩ := by
  obtain ⟨owner, r⟩ := e
  have hfits : r.Fits := h.fits (owner, r) (by rw [howed]; simp)
  refine ⟨fun e he => h.fits e ?_, ?_⟩
  · rw [howed]
    rcases List.mem_append.1 he with he | he
    · exact List.mem_append_left _ he
    · exact List.mem_append_right _ (List.mem_cons_of_mem _ he)
  · have hnewest := h.newest
    cases r with
    | heartbeat heartbeatMs =>
      have hstates : CloudState.owedStates ⟨s.manager, before ++ later,
          s.posts ++ ((Report.heartbeat heartbeatMs).text alloc).toList⟩ = s.owedStates := by
        simp [CloudState.owedStates, howed, Report.isFullState]
      rw [hstates]
      cases hlast : s.owedStates.getLast? with
      | some r =>
        rw [hlast] at hnewest
        exact hnewest
      | none =>
        rw [hlast] at hnewest
        have hkeep := lastFullState_concat_other (hasIdeConnected_heartbeat hfits) s.posts
        simp only [CloudState.Agrees, Report.text, Option.toList_some] at hnewest ⊢
        rw [hkeep]
        exact hnewest
    | fullState connected clientId clientInfo heartbeatMs =>
      obtain ⟨halloc, hbefore⟩ := horder rfl
      obtain ⟨⟨hid, hidlen⟩, ⟨hinfo, hinfolen⟩, hclock⟩ := hfits
      obtain ⟨post, hpost, hshows⟩ :=
        ideReportFullState_shows halloc connected hid hidlen hinfo hinfolen
          ((decimal_length_le hclock).trans (by decide))
      have hnothing : (before.map Prod.snd).filter Report.isFullState = [] := by
        refine List.filter_eq_nil_iff.2 fun r hr => ?_
        obtain ⟨e, he, rfl⟩ := List.mem_map.1 hr
        simp [hbefore e he]
      have hstates : s.owedStates = .fullState connected clientId clientInfo heartbeatMs ::
          (later.map Prod.snd).filter Report.isFullState := by
        simp only [CloudState.owedStates, howed, List.map_append, List.filter_append, hnothing,
          List.map_cons, List.nil_append, List.filter_cons, Report.isFullState, if_true]
      have hleft : CloudState.owedStates ⟨s.manager, before ++ later,
          s.posts ++ ((Report.fullState connected clientId clientInfo heartbeatMs).text
            alloc).toList⟩ = (later.map Prod.snd).filter Report.isFullState := by
        simp only [CloudState.owedStates, List.map_append, List.filter_append, hnothing,
          List.nil_append]
      rw [hleft]
      rw [hstates, List.getLast?_cons] at hnewest
      cases hlast : ((later.map Prod.snd).filter Report.isFullState).getLast? with
      | some r =>
        rw [hlast] at hnewest
        exact hnewest
      | none =>
        -- it was the newest: the cloud now shows it, and it describes the device
        rw [hlast] at hnewest
        simp only [CloudState.Agrees, Report.text, hpost, Option.toList_some,
          lastFullState_concat_shows hshows]
        obtain ⟨hconn, hclient⟩ := hnewest
        refine ⟨hconn ▸ hshows.1, fun hc => ?_⟩
        rw [hshows.2 (hconn.trans hc), hclient (hconn.trans hc)]

theorem inv_cloudStep {s s' : CloudState} {a : CloudStep} (h : s.Inv) (horder : PostsInOrder s a)
    (hs : cloudStep s a = some s') : s'.Inv := by
  cases a with
  | locked a =>
    simp only [cloudStep] at hs
    split at hs
    · rename_i henabled
      cases hs
      exact inv_locked h henabled.1
    · cases hs
  | post thread alloc =>
    simp only [cloudStep] at hs
    split at hs
    · cases hs
    · rename_i e later hdrop
      cases hs
      have howed : s.owed = s.owed.takeWhile (fun e => e.1 ≠ thread) ++ e :: later := by
        rw [← hdrop, List.takeWhile_append_dropWhile]
      refine inv_post h howed (horder e ?_)
      simp only [hdrop, List.head?_cons, Option.mem_def]

/-- **The cloud agrees when posts keep the order of the locked sections.**  In every run
of the threads whose full-state posts are made with memory, and never while an older one
is owed, the last full state in the cloud is the device's whenever no thread owes a
post. -/
theorem cloud_agrees_in_order (s : CloudState) (h : cloudMachine.ReachableVia PostsInOrder s)
    (hnone : s.owed = []) : s.Agrees := by
  have hinit : ∀ s, cloudMachine.init s → s.Inv := by
    rintro s rfl
    exact ⟨by simp, rfl⟩
  have hinv := (Machine.invariant hinit fun _ _ _ => inv_cloudStep) s h
  have hnewest := hinv.newest
  simp only [CloudState.owedStates, hnone] at hnewest
  exact hnewest

/-- `A` is connected and its report is owed. -/
def owesA : CloudState :=
  ⟨⟨true, ascii "A", [], 0⟩, [(.message, .fullState true (ascii "A") [] 0)], []⟩

def connectA : CloudStep := .locked (.requestConnect (namedClient (ascii "A")).text 0)

theorem cloud_agrees_connectA : ∃ s, cloudStep owesA (.post .message fun _ => true) = some s ∧
    s.manager.connected = true ∧ s.Agrees := by
  have hconnect : cloudMachine.step ⟨.init, [], []⟩ connectA = some owesA := by
    show cloudStep ⟨.init, [], []⟩ connectA = some owesA
    decide +kernel
  obtain ⟨s, hs, hconn, hnone⟩ : ∃ s, cloudStep owesA (.post .message fun _ => true) = some s ∧
      s.manager.connected = true ∧ s.owed = [] := ⟨_, rfl, rfl, rfl⟩
  have hlocked : PostsInOrder ⟨.init, [], []⟩ connectA := trivial
  have horder : PostsInOrder owesA (.post .message fun _ => true) := by
    rintro e - -
    exact ⟨fun _ _ => rfl, by decide⟩
  exact ⟨s, hs, hconn, cloud_agrees_in_order s
    (.step (.step (.init rfl) hlocked hconnect) horder hs) hnone⟩

/-- `A` is connected and reported.  A check finds its heartbeat timed out; before that
report is posted, `B` connects and its report is. -/
def overtaken : List CloudStep :=
  [connectA, .post .message fun _ => true, .locked (.heartbeatCheck 200000),
    .locked (.requestConnect (namedClient (ascii "B")).text 200001),
    .post .message fun _ => true, .post .heartbeat fun _ => true]

/-- Nothing is owed, `B` is connected, and the last full state in the cloud says that no
IDE is. -/
theorem cloud_keeps_stale_state :
    ∃ s, cloudMachine.Reachable s ∧ s.owed = [] ∧ s.manager.connected = true ∧
      s.manager.currentClientId = ascii "B" ∧ lastFullState s.posts = some disconnectedParams ∧
      hasIdeConnected disconnectedParams = some (ascii "0") ∧ ¬ s.Agrees := by
  have hrun : ((cloudMachine.run ⟨.init, [], []⟩ overtaken).map fun s =>
      (s.owed, s.manager.connected, s.manager.currentClientId, lastFullState s.posts)) =
      some ([], true, ascii "B", some disconnectedParams) := by decide +kernel
  obtain ⟨s, hs, heq⟩ := Option.map_eq_some_iff.1 hrun
  simp only [Prod.mk.injEq] at heq
  obtain ⟨howed, hconn, hclient, hlast⟩ := heq
  have hzero := shows_disconnected.1
  refine ⟨s, Machine.reachable_of_run rfl hs, howed, hconn, hclient, hlast, hzero, fun h => ?_⟩
  simp only [CloudState.Agrees, hlast, hconn] at h
  have hone := h.1.symm.trans hzero
  exact absurd hone (by decide)

end IotIde
