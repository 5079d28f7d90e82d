import IotIde.Foundation.Lease
import IotIde.Ide.ConnectionManager

/-!
# One client at a time

The locked sections of the connection manager in any order, by any number of clients
and the heartbeat thread, with any clock values.  A run keeps the history of what was
asked and how it was answered.

* `ideStep`, `ideRun` — one locked section, and a run of them with its history;
* `IdeConnectionManager.lease` — the manager as a lease, and `lease_ideRun`: it is the
  lease its own history leaves;
* `ide_lock_exclusive` — who passes `ide_connection_manager_is_connected_client` after
  any run, and when another client can take over.
-/

namespace IotIde

open CText Lease Runs

/-- A locked section with what decides it. -/
inductive IdeStep
  | requestConnect (params : Bytes) (nowMs : ℕ)
  | requestDisconnect (params : Bytes)
  | ideHeartbeat (params : Bytes) (nowMs : ℕ)
  | heartbeatCheck (nowMs : ℕ)
  | clearCloudState

/-- Runs one locked section; the flag is its `success` or `should_release`. -/
def ideStep (manager : IdeConnectionManager) : IdeStep → IdeConnectionManager × Bool
  | .requestConnect params nowMs =>
    let locked := requestConnectLocked manager (clientIdOf params) (clientInfoOf params) nowMs
    (locked.manager, locked.success)
  | .requestDisconnect params =>
    let locked := (disconnectLocked manager (clientIdOf params)).1
    (locked.manager, locked.success)
  | .ideHeartbeat params nowMs =>
    let locked := heartbeatLocked manager (clientIdOf params) nowMs
    (locked.manager, locked.success)
  | .heartbeatCheck nowMs => heartbeatCheck manager nowMs
  | .clearCloudState => (clearCloudState manager, true)

/-- A step of the past and its flag. -/
structure Entry where
  step : IdeStep
  flag : Bool

/-- A run and its history. -/
def ideRun : IdeConnectionManager → List IdeStep → IdeConnectionManager × List Entry
  | manager, [] => (manager, [])
  | manager, s :: ss =>
    let (manager', flag) := ideStep manager s
    let (final, history) := ideRun manager' ss
    (final, ⟨s, flag⟩ :: history)

/-! ## Reading a history -/

namespace Entry

/-- An accepted `requestConnect` of `c`. -/
def AcceptedConnect (c : Bytes) : Entry → Prop
  | ⟨.requestConnect params _, true⟩ => clientIdOf params = c
  | _ => False

/-- An accepted `requestDisconnect` of `c`. -/
def AcceptedDisconnect (c : Bytes) : Entry → Prop
  | ⟨.requestDisconnect params, true⟩ => clientIdOf params = c
  | _ => False

/-- A check that found the heartbeat timed out. -/
def TimedOut : Entry → Prop
  | ⟨.heartbeatCheck _, true⟩ => True
  | _ => False

def Cleared : Entry → Prop
  | ⟨.clearCloudState, _⟩ => True
  | _ => False

/-- What ends the connection of `c`. -/
def EndsFor (c : Bytes) (e : Entry) : Prop :=
  e.AcceptedDisconnect c ∨ e.Cleared ∨ e.TimedOut ∨ ∃ d, d ≠ c ∧ e.AcceptedConnect d

/-- An accepted connect or heartbeat of `c` with clock value `t`. -/
def SignOfLife (c : Bytes) (t : ℤ) : Entry → Prop
  | ⟨.requestConnect params nowMs, true⟩ => clientIdOf params = c ∧ (nowMs : ℤ) = t
  | ⟨.ideHeartbeat params nowMs, true⟩ => clientIdOf params = c ∧ (nowMs : ℤ) = t
  | _ => False

/-- The entry as a decision about a lease. -/
def event : Entry → Event Bytes
  | ⟨.requestConnect params nowMs, true⟩ => .granted (clientIdOf params) nowMs
  | ⟨.requestDisconnect params, true⟩ => .released (clientIdOf params)
  | ⟨.ideHeartbeat params nowMs, true⟩ => .renewed (clientIdOf params) nowMs
  | ⟨.heartbeatCheck _, true⟩ => .withdrawn
  | ⟨.clearCloudState, _⟩ => .withdrawn
  | ⟨_, false⟩ => .refused

theorem grants_event (c : Bytes) : ∀ e : Entry, e.event.Grants c ↔ e.AcceptedConnect c
  | ⟨.requestConnect _ _, true⟩ => Iff.rfl
  | ⟨.requestConnect _ _, false⟩ => Iff.rfl
  | ⟨.requestDisconnect _, true⟩ => Iff.rfl
  | ⟨.requestDisconnect _, false⟩ => Iff.rfl
  | ⟨.ideHeartbeat _ _, true⟩ => Iff.rfl
  | ⟨.ideHeartbeat _ _, false⟩ => Iff.rfl
  | ⟨.heartbeatCheck _, true⟩ => Iff.rfl
  | ⟨.heartbeatCheck _, false⟩ => Iff.rfl
  | ⟨.clearCloudState, _⟩ => Iff.rfl

theorem stamps_event (c : Bytes) (t : ℤ) : ∀ e : Entry, e.event.Stamps c t ↔ e.SignOfLife c t
  | ⟨.requestConnect _ _, true⟩ => Iff.rfl
  | ⟨.requestConnect _ _, false⟩ => Iff.rfl
  | ⟨.requestDisconnect _, true⟩ => Iff.rfl
  | ⟨.requestDisconnect _, false⟩ => Iff.rfl
  | ⟨.ideHeartbeat _ _, true⟩ => Iff.rfl
  | ⟨.ideHeartbeat _ _, false⟩ => Iff.rfl
  | ⟨.heartbeatCheck _, true⟩ => Iff.rfl
  | ⟨.heartbeatCheck _, false⟩ => Iff.rfl
  | ⟨.clearCloudState, _⟩ => Iff.rfl

theorem ends_event (c : Bytes) (e : Entry) : e.event.Ends c ↔ e.EndsFor c := by
  obtain ⟨s, flag⟩ := e
  cases s <;> cases flag <;>
    simp [event, Event.Ends, EndsFor, AcceptedDisconnect, Cleared, TimedOut, AcceptedConnect]

end Entry

/-! ## The manager is a lease -/

/-- The manager as a lease. -/
def IdeConnectionManager.lease (manager : IdeConnectionManager) : Option (Holding Bytes) :=
  if manager.connected then some ⟨manager.currentClientId, manager.lastHeartbeatMs⟩ else none

theorem isConnectedClient_iff (manager : IdeConnectionManager) (c : Bytes) :
    isConnectedClient manager c = true ↔ c ≠ [] ∧ HeldBy c manager.lease := by
  simp only [isConnectedClient, IdeConnectionManager.lease, HeldBy, Bool.and_eq_true, bne_iff_ne,
    beq_iff_eq, and_assoc]
  refine and_congr_right fun _ => ?_
  cases manager.connected <;> simp

/-- Each locked section does to the lease what its flag says. -/
theorem lease_ideStep (manager : IdeConnectionManager) (s : IdeStep) :
    (ideStep manager s).1.lease =
      (Entry.event ⟨s, (ideStep manager s).2⟩).apply manager.lease := by
  cases s with
  | requestConnect params nowMs =>
    simp only [ideStep]
    cases h : (requestConnectLocked manager (clientIdOf params) (clientInfoOf params) nowMs).success
    · rw [requestConnectLocked_refused h]
      rfl
    · rw [requestConnectLocked_accepted (clientIdOf_length_lt params) h]
      rfl
  | requestDisconnect params =>
    simp only [ideStep, disconnectLocked]
    split_ifs with h₁ h₂
    · simp [Entry.event, Event.apply, IdeConnectionManager.lease, h₁]
    · rfl
    · simp only [Bool.not_eq_false] at h₁
      rw [not_not] at h₂
      simp [Entry.event, Event.apply, IdeConnectionManager.lease, ideUnlockInternal, Option.filter,
        h₁, h₂]
  | ideHeartbeat params nowMs =>
    simp only [ideStep, heartbeatLocked]
    split_ifs with h
    · rfl
    · simp only [not_or, Bool.not_eq_false, not_not] at h
      simp [Entry.event, Event.apply, IdeConnectionManager.lease, h.1, h.2]
  | heartbeatCheck nowMs =>
    simp only [ideStep, heartbeatCheck]
    split_ifs <;> rfl
  | clearCloudState => rfl

/-- A run does to the lease what its history says. -/
theorem lease_ideRun (steps : List IdeStep) : ∀ manager : IdeConnectionManager,
    (ideRun manager steps).1.lease =
      ((ideRun manager steps).2.map Entry.event).foldl Event.apply manager.lease := by
  induction steps with
  | nil => intro manager; rfl
  | cons s ss ih =>
    intro manager
    have hrun := ih (ideStep manager s).1
    rw [lease_ideStep] at hrun
    exact hrun

/-- From the start, the manager is the lease its history leaves. -/
theorem lease_ideRun_init (steps : List IdeStep) :
    (ideRun .init steps).1.lease = after ((ideRun .init steps).2.map Entry.event) :=
  lease_ideRun steps .init

/-- Against a connected client another one is accepted exactly after the timeout. -/
theorem requestConnect_of_other {manager : IdeConnectionManager} {c : Bytes}
    (hc : isConnectedClient manager c = true) {params : Bytes} (hne : clientIdOf params ≠ c)
    (nowMs : ℕ) : (ideStep manager (.requestConnect params nowMs)).2 = true ↔
      (nowMs : ℤ) - manager.lastHeartbeatMs > HEARTBEAT_TIMEOUT_MS := by
  simp only [isConnectedClient, Bool.and_eq_true, beq_iff_eq] at hc
  obtain ⟨⟨-, hconn⟩, rfl⟩ := hc
  simp only [ideStep, requestConnectLocked]
  rw [if_neg (by simp [hconn]), if_neg (Ne.symm hne)]
  split_ifs with h <;> simp [h]

/-- A check releases exactly a lock that is held and timed out. -/
theorem heartbeatCheck_iff (manager : IdeConnectionManager) (nowMs : ℕ) :
    (ideStep manager (.heartbeatCheck nowMs)).2 = true ↔ manager.connected = true ∧
      (nowMs : ℤ) - manager.lastHeartbeatMs > HEARTBEAT_TIMEOUT_MS := by
  simp only [ideStep, heartbeatCheck]
  split_ifs with h <;> simp [h]

/-- **The IDE lock over whole runs.**  After any run from the start: at most one client
passes; a client passes exactly when its last accepted connect has not since been ended; a
check ends a connection exactly when the clock value kept is past by more than the timeout;
and the clock value kept for a client is that of its last accepted connect or heartbeat, past
which by more than the timeout, and only then, another client is accepted. -/
theorem ide_lock_exclusive (steps : List IdeStep) :
    let final := (ideRun .init steps).1
    let history := (ideRun .init steps).2
    (∀ c d, isConnectedClient final c = true → isConnectedClient final d = true → c = d) ∧
    (∀ c, c ≠ [] → (isConnectedClient final c = true ↔
      Since (Entry.AcceptedConnect c) (fun e => ¬ e.AcceptedConnect c ∧ ¬ e.EndsFor c) history)) ∧
    (∀ nowMs, (ideStep final (.heartbeatCheck nowMs)).2 = true ↔ final.connected = true ∧
      (nowMs : ℤ) - final.lastHeartbeatMs > HEARTBEAT_TIMEOUT_MS) ∧
    (∀ c, isConnectedClient final c = true →
      Since (Entry.SignOfLife c final.lastHeartbeatMs) (fun e => ∀ t, ¬ e.SignOfLife c t) history ∧
      ∀ params nowMs, clientIdOf params ≠ c →
        ((ideStep final (.requestConnect params nowMs)).2 = true ↔
          (nowMs : ℤ) - final.lastHeartbeatMs > HEARTBEAT_TIMEOUT_MS)) := by
  intro final history
  have hlease : final.lease = after (history.map Entry.event) := lease_ideRun_init steps
  refine ⟨?_, ?_, heartbeatCheck_iff final, ?_⟩
  · intro c d hc hd
    exact ((isConnectedClient_iff _ _).1 hc).2.unique ((isConnectedClient_iff _ _).1 hd).2
  · intro c hc
    rw [isConnectedClient_iff, and_iff_right hc, hlease, held_iff, since_map]
    simp only [Entry.grants_event, Entry.ends_event]
  · intro c hc
    refine ⟨?_, fun params nowMs hne => requestConnect_of_other hc hne nowMs⟩
    obtain ⟨-, t, ht⟩ := (isConnectedClient_iff _ _).1 hc
    have hstamp : final.lastHeartbeatMs = t := by
      unfold IdeConnectionManager.lease at ht
      split at ht
      · cases ht
        rfl
      · cases ht
    have hsince := stamp_of_held (hlease.symm.trans ht)
    rw [since_map] at hsince
    simp only [Entry.stamps_event] at hsince
    rw [hstamp]
    exact hsince

/-- `a` connects and sends a heartbeat; `b` is refused, and a check keeps the lock, as long as
the heartbeat is no older than the timeout; the next check releases it and `b` connects. -/
def handoverRun : List IdeStep :=
  let a := ascii "\x7b\"clientId\":\"a\"\x7d"
  let b := ascii "\x7b\"clientId\":\"b\"\x7d"
  [.requestConnect a 1000, .ideHeartbeat a 61000, .requestConnect b 181000,
    .heartbeatCheck 181000, .heartbeatCheck 181001, .requestConnect b 181001]

theorem ide_lock_exclusive_handover :
    (ideRun .init handoverRun).2.map Entry.flag = [true, true, false, false, true, true] ∧
    (∀ d, isConnectedClient (ideRun .init handoverRun).1 d = true → ascii "b" = d) ∧
    ∀ nowMs : ℕ, (ideStep (ideRun .init (handoverRun.take 4)).1 (.heartbeatCheck nowMs)).2 = true ↔
      nowMs > 181000 := by
  refine ⟨by decide +kernel, fun d => (ide_lock_exclusive handoverRun).1 (ascii "b") d
    (by decide +kernel), fun nowMs => ?_⟩
  obtain ⟨-, -, hcheck, -⟩ := ide_lock_exclusive (handoverRun.take 4)
  have hconnected : (ideRun .init (handoverRun.take 4)).1.connected = true := by decide +kernel
  have hlast : (ideRun .init (handoverRun.take 4)).1.lastHeartbeatMs = 61000 := by decide +kernel
  rw [hcheck nowMs, hlast, HEARTBEAT_TIMEOUT_MS, and_iff_right hconnected]
  omega

end IotIde
