import IotIde.Foundation.Custody

/-!
# The life of the standalone app

`main` of `iot_ide_demo.c` calls `app_init`, `app_start` and, whether that failed or not,
`app_shutdown`.  Three threads are created on the way, and the flags of `AppContext`
decide which of them are joined.

* `appInit`, `appStart`, `appShutdown` — the functions, with the threads that they create
  and join;
* `demoMain` — the program;
* `joined_iff` — when every thread is joined once;
* `process_thread_missing` — it is not when a thread cannot be created.
-/

namespace IotIde

open Custody

/-- The threads of the app; the workers of deploys are detached. -/
inductive AppThread
  | heartbeat
  | mqttProcess
  | mqttRecv
  deriving DecidableEq

/-- Which of the calls of `app_init` succeed. -/
structure InitOutcomes where
  mqttLock : Bool
  configLoad : Bool
  buildMqttHost : Bool
  ideLocks : Bool
  heartbeatThread : Bool
  deployManager : Bool
  startManager : Bool
  shadowManager : Bool
  gatewayManager : Bool
  traceSimulator : Bool

/-- Which of the calls of `app_start` succeed. -/
structure AppStartOutcomes where
  mqttHandle : Bool
  connect : Bool
  subscribeReply : Bool
  subscribeService : Bool
  processThread : Bool
  recvThread : Bool
  shadowStart : Bool
  gatewayStart : Bool

/-- The flags of `AppContext` that decide what `app_shutdown` joins. -/
structure AppFlags where
  mqttProcessThreadRunning : Bool
  mqttRecvThreadRunning : Bool
  deriving DecidableEq

/-- `ide_connection_manager_init`: whether it succeeds, and what it creates. -/
def ideConnectionManagerInit (o : InitOutcomes) : Bool × List (Event AppThread) :=
  if !o.ideLocks then (false, [])
  else if o.heartbeatThread then (true, [.take .heartbeat])
  else (false, [])

/-- `app_init`.  What fails behind the connection manager goes to `init_failed`, where the
managers that there are are cleaned up. -/
def appInit (o : InitOutcomes) : Bool × List (Event AppThread) :=
  if !o.mqttLock then (false, [])
  else if !o.configLoad then (false, [])
  else if !o.buildMqttHost then (false, [])
  else
    let ide := ideConnectionManagerInit o
    if !ide.1 then (false, ide.2)
    else if o.deployManager && o.startManager && o.shadowManager && o.gatewayManager &&
        o.traceSimulator then (true, ide.2)
    else (false, ide.2 ++ [.give .heartbeat])

/-- `app_start` on the flags that `app_init` leaves at 0. -/
def appStart (o : AppStartOutcomes) : Bool × AppFlags × List (Event AppThread) :=
  if !o.mqttHandle then (false, ⟨false, false⟩, [])
  else if !o.connect then (false, ⟨false, false⟩, [])
  else if !o.subscribeReply || !o.subscribeService then (false, ⟨false, false⟩, [])
  -- both flags are set before either thread is created
  else if !o.processThread then (false, ⟨true, true⟩, [])
  else if !o.recvThread then (false, ⟨true, true⟩, [.take .mqttProcess])
  else (o.shadowStart && o.gatewayStart, ⟨true, true⟩, [.take .mqttProcess, .take .mqttRecv])

/-- `app_shutdown` -/
def appShutdown (flags : AppFlags) : List (Event AppThread) :=
  (if flags.mqttProcessThreadRunning then [.give .mqttProcess] else []) ++
    (if flags.mqttRecvThreadRunning then [.give .mqttRecv] else []) ++ [.give .heartbeat]

/-- `main`: its exit code, and the threads that it creates and joins. -/
def demoMain (init : InitOutcomes) (start : AppStartOutcomes) : ℤ × List (Event AppThread) :=
  if !(appInit init).1 then (-1, (appInit init).2)
  else
    (if (appStart start).1 then 0 else -1,
      (appInit init).2 ++ ((appStart start).2.2 ++ appShutdown (appStart start).2.1))

/-- Every thread that is created is joined once, and no other thread is joined. -/
def EachJoinedOnce (events : List (Event AppThread)) : Prop := Settled (fun _ => ∅) events

instance (events : List (Event AppThread)) : Decidable (EachJoinedOnce events) :=
  inferInstanceAs (Decidable (Settled _ _))

/-! ## When the threads are joined -/

/-- `app_init` succeeds. -/
def InitOutcomes.Succeeds (o : InitOutcomes) : Prop :=
  o.mqttLock = true ∧ o.configLoad = true ∧ o.buildMqttHost = true ∧ o.ideLocks = true ∧
    o.heartbeatThread = true ∧ o.deployManager = true ∧ o.startManager = true ∧
    o.shadowManager = true ∧ o.gatewayManager = true ∧ o.traceSimulator = true

/-- `app_start` comes to the creation of its threads. -/
def AppStartOutcomes.Connects (o : AppStartOutcomes) : Prop :=
  o.mqttHandle = true ∧ o.connect = true ∧ o.subscribeReply = true ∧ o.subscribeService = true

/-- `app_init` either leaves the heartbeat thread running or no thread at all. -/
theorem appInit_ledger (o : InitOutcomes) :
    (o.Succeeds ∧ appInit o = (true, [.take .heartbeat])) ∨
      (¬ o.Succeeds ∧ (appInit o).1 = false ∧ EachJoinedOnce (appInit o).2) := by
  unfold appInit ideConnectionManagerInit InitOutcomes.Succeeds
  cases o.mqttLock with
  | false => exact Or.inr ⟨by simp, rfl, rfl⟩
  | true =>
  cases o.configLoad with
  | false => exact Or.inr ⟨by simp, rfl, rfl⟩
  | true =>
  cases o.buildMqttHost with
  | false => exact Or.inr ⟨by simp, rfl, rfl⟩
  | true =>
  cases o.ideLocks with
  | false => exact Or.inr ⟨by simp, rfl, rfl⟩
  | true =>
  cases o.heartbeatThread with
  | false => exact Or.inr ⟨by simp, rfl, rfl⟩
  | true =>
    by_cases hmanagers : (o.deployManager && o.startManager && o.shadowManager &&
        o.gatewayManager && o.traceSimulator) = true
    · refine Or.inl ⟨?_, by simp [hmanagers]⟩
      simpa [and_assoc] using hmanagers
    · refine Or.inr ⟨?_, by simp [hmanagers], ?_⟩
      · simpa [and_assoc] using hmanagers
      · simp only [Bool.not_true, Bool.false_eq_true, if_false, if_true, if_neg hmanagers]
        decide

/-- `app_start` sets neither flag before it is connected, and then both. -/
theorem appStart_cases (o : AppStartOutcomes) :
    (¬ o.Connects ∧ (appStart o).2 = (⟨false, false⟩, [])) ∨
    (o.Connects ∧ (appStart o).2 = (⟨true, true⟩,
      if o.processThread then
        if o.recvThread then [.take .mqttProcess, .take .mqttRecv] else [.take .mqttProcess]
      else [])) := by
  by_cases h : o.Connects
  · obtain ⟨hhandle, hconnect, hreply, hservice⟩ := id h
    refine Or.inr ⟨h, ?_⟩
    simp only [appStart, hhandle, hconnect, hreply, hservice]
    cases o.processThread <;> cases o.recvThread <;> rfl
  · refine Or.inl ⟨h, ?_⟩
    cases hhandle : o.mqttHandle with
    | false => simp [appStart, hhandle]
    | true =>
    cases hconnect : o.connect with
    | false => simp [appStart, hhandle, hconnect]
    | true =>
      have hsubscribe : (!o.subscribeReply || !o.subscribeService) = true := by
        by_contra hsubscribed
        simp only [Bool.or_eq_true, Bool.not_eq_true', not_or, Bool.not_eq_false] at hsubscribed
        exact h ⟨hhandle, hconnect, hsubscribed.1, hsubscribed.2⟩
      simp [appStart, hhandle, hconnect, hsubscribe]

/-- With both threads there, or neither flag set, the shutdown leaves nothing behind. -/
theorem start_shutdown_ledger (o : AppStartOutcomes) :
    ledger (fun _ => ∅) {AppThread.heartbeat} ((appStart o).2.2 ++ appShutdown (appStart o).2.1) =
      some ∅ ↔ (o.Connects → o.processThread = true ∧ o.recvThread = true) := by
  rcases appStart_cases o with ⟨hconnects, heq⟩ | ⟨hconnects, heq⟩
  · rw [heq]
    exact iff_of_true (by decide) fun h => absurd h hconnects
  · rw [heq]
    cases o.processThread with
    | false =>
      rw [if_neg (by decide)]
      exact iff_of_false (by decide) fun h => absurd (h hconnects).1 (by decide)
    | true =>
      cases o.recvThread with
      | false => exact iff_of_false (by decide) fun h => absurd (h hconnects).2 (by decide)
      | true => exact iff_of_true (by decide) fun _ => ⟨rfl, rfl⟩

/-- **The threads of the app are joined** — each one that is created once, and no other —
exactly when no creation of a thread that `app_start` comes to fails. -/
theorem joined_iff (init : InitOutcomes) (start : AppStartOutcomes) :
    EachJoinedOnce (demoMain init start).2 ↔
      (init.Succeeds → start.Connects → start.processThread = true ∧ start.recvThread = true) := by
  rcases appInit_ledger init with ⟨hinit, heq⟩ | ⟨hinit, hfailed, hsettled⟩
  · have hfirst : ledger (fun _ : AppThread => ∅) ∅ [.take .heartbeat] = some {.heartbeat} := by
      decide
    have hledger : ledger (fun _ => ∅) ∅ (demoMain init start).2 =
        ledger (fun _ => ∅) {AppThread.heartbeat}
          ((appStart start).2.2 ++ appShutdown (appStart start).2.1) := by
      rw [← ledger_append hfirst, demoMain, heq]
      rfl
    rw [EachJoinedOnce, Settled, hledger, start_shutdown_ledger]
    exact ⟨fun h _ => h, fun h => h hinit⟩
  · have hevents : (demoMain init start).2 = (appInit init).2 := by
      rw [demoMain, hfailed]
      rfl
    rw [hevents]
    exact iff_of_true hsettled fun h => absurd h hinit

/-- Everything comes out well but the creation of the first thread: two threads are joined
that were never created. -/
theorem process_thread_missing :
    (demoMain ⟨true, true, true, true, true, true, true, true, true, true⟩
      ⟨true, true, true, true, false, true, true, true⟩).2 =
        [.take .heartbeat, .give .mqttProcess, .give .mqttRecv, .give .heartbeat] ∧
    ¬ EachJoinedOnce (demoMain ⟨true, true, true, true, true, true, true, true, true, true⟩
      ⟨true, true, true, true, false, true, true, true⟩).2 := by
  decide

end IotIde
