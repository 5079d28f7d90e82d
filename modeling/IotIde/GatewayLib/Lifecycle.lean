import IotIde.Foundation.Custody
import IotIde.Foundation.Runs

/-!
# The life of a gateway object

`iot_ide_gateway_create`, `_start`, `_stop` and `_destroy` of `libiot_ide_gateway.c`, as a
thread calls them that is not one of the two the object creates.

* `Gateway` — the flags and the handle of `IotIdeGateway`;
* `gatewayStart`, `gatewayStop`, `gatewayCreate`, `gatewayDestroy` — the functions, with
  what they take and give back on the way;
* `lifeMachine` — any calls on any number of objects;
* `Gateway.Holds` — an object is either as it was created or fully started;
* `lifecycle_balanced` — so no sequence of calls leaves anything behind.
-/

namespace IotIde

open Custody Runs

def IOT_IDE_GATEWAY_OK : ℤ := 0
def IOT_IDE_GATEWAY_ERR_INVALID_ARGUMENT : ℤ := -1
def IOT_IDE_GATEWAY_ERR_NO_MEMORY : ℤ := -2
def IOT_IDE_GATEWAY_ERR_INTERNAL : ℤ := -3

/-- What an object takes in its life. -/
inductive GatewayResource
  | object
  | mqttLock
  | mqttHandle
  | mqttProcessThread
  | mqttRecvThread
  deriving DecidableEq

/-- The lock and the handle are in the object, and the threads work on the handle. -/
def GatewayResource.needs : GatewayResource → Finset GatewayResource
  | object => ∅
  | mqttLock => {object}
  | mqttHandle => {object}
  | mqttProcessThread => {mqttHandle}
  | mqttRecvThread => {mqttHandle}

/-- The fields of `IotIdeGateway` that change; `mqttHandle` says that it is not `NULL`. -/
structure Gateway where
  mqttHandle : Bool
  mqttProcessThreadRunning : Bool
  mqttRecvThreadRunning : Bool
  mqttLockInitialized : Bool
  started : Bool
  deriving DecidableEq

/-- Which of the calls of `iot_ide_gateway_create` succeed. -/
structure CreateOutcomes where
  alloc : Bool
  mqttLock : Bool
  configLoad : Bool
  buildMqttHost : Bool

/-- Which of the calls of `iot_ide_gateway_start` succeed. -/
structure GatewayStartOutcomes where
  mqttHandle : Bool
  connect : Bool
  subscribe : Bool
  processThread : Bool
  recvThread : Bool

/-- What is taken and given back, in order. -/
abbrev GatewayTrace := List (Event GatewayResource)

/-- `calloc` and what is set before anything else can fail. -/
def Gateway.created : Gateway := ⟨false, false, false, true, false⟩

/-- An object that is connected and has its threads. -/
def Gateway.running : Gateway := ⟨true, true, true, true, true⟩

/-- `iot_ide_gateway_stop` -/
def gatewayStop (gateway : Gateway) : Gateway × GatewayTrace :=
  ({ gateway with
      mqttHandle := false
      mqttProcessThreadRunning := false
      mqttRecvThreadRunning := false
      started := false },
    (if gateway.mqttProcessThreadRunning then [.give .mqttProcessThread] else []) ++
      (if gateway.mqttRecvThreadRunning then [.give .mqttRecvThread] else []) ++
      (if gateway.mqttHandle then [.give .mqttHandle] else []))

/-- `iot_ide_gateway_destroy` -/
def gatewayDestroy (gateway : Gateway) : GatewayTrace :=
  (gatewayStop gateway).2 ++
    (if gateway.mqttLockInitialized then [.give .mqttLock] else []) ++ [.give .object]

/-- `iot_ide_gateway_create`: its code, the object behind the pointer, and the trace. -/
def gatewayCreate (o : CreateOutcomes) : ℤ × Option Gateway × GatewayTrace :=
  if !o.alloc then (IOT_IDE_GATEWAY_ERR_NO_MEMORY, none, [])
  else if !o.mqttLock then
    (IOT_IDE_GATEWAY_ERR_INTERNAL, none, [.take .object, .give .object])
  else
    let trace := [.take .object, .take .mqttLock]
    if !o.configLoad || !o.buildMqttHost then
      (IOT_IDE_GATEWAY_ERR_INTERNAL, none, trace ++ gatewayDestroy .created)
    else (IOT_IDE_GATEWAY_OK, some .created, trace)

/-- `iot_ide_gateway_start` -/
def gatewayStart (o : GatewayStartOutcomes) (gateway : Gateway) : ℤ × Gateway × GatewayTrace :=
  if gateway.started then (IOT_IDE_GATEWAY_OK, gateway, [])
  else if !o.mqttHandle then
    (IOT_IDE_GATEWAY_ERR_INTERNAL, { gateway with mqttHandle := false }, [])
  else if !o.connect then
    (IOT_IDE_GATEWAY_ERR_INTERNAL, { gateway with mqttHandle := false },
      [.take .mqttHandle, .give .mqttHandle])
  else if !o.subscribe then
    (IOT_IDE_GATEWAY_ERR_INTERNAL, { gateway with mqttHandle := false },
      [.take .mqttHandle, .give .mqttHandle])
  else if !o.processThread then
    (IOT_IDE_GATEWAY_ERR_INTERNAL,
      { gateway with
        mqttHandle := false
        mqttProcessThreadRunning := false
        mqttRecvThreadRunning := false },
      [.take .mqttHandle, .give .mqttHandle])
  else if !o.recvThread then
    (IOT_IDE_GATEWAY_ERR_INTERNAL,
      { gateway with
        mqttHandle := false
        mqttProcessThreadRunning := false
        mqttRecvThreadRunning := false },
      [.take .mqttHandle, .take .mqttProcessThread, .give .mqttProcessThread, .give .mqttHandle])
  else
    (IOT_IDE_GATEWAY_OK,
      { gateway with
        mqttHandle := true
        mqttProcessThreadRunning := true
        mqttRecvThreadRunning := true
        started := true },
      [.take .mqttHandle, .take .mqttProcessThread, .take .mqttRecvThread])

/-! ## Any calls -/

/-- What an object pointer points to. -/
inductive GatewaySlot
  | null
  | live (gateway : Gateway)
  | destroyed

/-- A pointer, and all that was taken and given back behind it. -/
structure GatewayObject where
  slot : GatewaySlot
  trace : GatewayTrace

/-- A call; objects are numbered in the order of their creation. -/
inductive GatewayCall
  | create (o : CreateOutcomes)
  | start (i : ℕ) (o : GatewayStartOutcomes)
  | stop (i : ℕ)
  | destroy (i : ℕ)

/-- A call on one object.  On `NULL` nothing happens; a destroyed object is not called. -/
def callObject (object : GatewayObject) : GatewayCall → Option GatewayObject
  | .create _ => none
  | .start _ o =>
    match object.slot with
    | .null => some object
    | .live gateway =>
      let result := gatewayStart o gateway
      some ⟨.live result.2.1, object.trace ++ result.2.2⟩
    | .destroyed => none
  | .stop _ =>
    match object.slot with
    | .null => some object
    | .live gateway =>
      let result := gatewayStop gateway
      some ⟨.live result.1, object.trace ++ result.2⟩
    | .destroyed => none
  | .destroy _ =>
    match object.slot with
    | .null => some object
    | .live gateway => some ⟨.destroyed, object.trace ++ gatewayDestroy gateway⟩
    | .destroyed => none

/-- The object a call is on. -/
def GatewayCall.target : GatewayCall → Option ℕ
  | create _ => none
  | start i _ => some i
  | stop i => some i
  | destroy i => some i

/-- The object that a creation makes. -/
def newObject (o : CreateOutcomes) : GatewayObject :=
  let result := gatewayCreate o
  ⟨match result.2.1 with
    | none => .null
    | some gateway => .live gateway, result.2.2⟩

def lifeStep (objects : List GatewayObject) (call : GatewayCall) : Option (List GatewayObject) :=
  match call, call.target with
  | .create o, _ => some (objects ++ [newObject o])
  | _, none => none
  | _, some i =>
    match objects[i]? with
    | none => none
    | some object => (callObject object call).map fun object' => objects.set i object'

/-- Any sequence of calls. -/
def lifeMachine : Machine (List GatewayObject) GatewayCall where
  init objects := objects = []
  step := lifeStep

/-! ## One call -/

/-- What an object holds between calls: its memory and its lock, or everything. -/
inductive Gateway.Holds : Gateway → Finset GatewayResource → Prop
  | created : Holds .created {.object, .mqttLock}
  | running : Holds .running
      {.object, .mqttLock, .mqttHandle, .mqttProcessThread, .mqttRecvThread}

/-- A start leaves the object running or as it was created; if it fails, as created. -/
theorem gatewayStart_holds {gateway : Gateway} {held : Finset GatewayResource}
    (h : gateway.Holds held) (o : GatewayStartOutcomes) :
    ∃ held', ledger GatewayResource.needs held (gatewayStart o gateway).2.2 = some held' ∧
      (gatewayStart o gateway).2.1.Holds held' ∧
      ((gatewayStart o gateway).1 ≠ IOT_IDE_GATEWAY_OK →
        (gatewayStart o gateway).2.1 = .created ∧ held' = {.object, .mqttLock}) := by
  cases h with
  | running => exact ⟨_, rfl, .running, fun hne => absurd rfl hne⟩
  | created =>
    have hreleased : ledger GatewayResource.needs {.object, .mqttLock}
        [.take .mqttHandle, .give .mqttHandle] = some {.object, .mqttLock} := by decide
    obtain ⟨handle, connect, subscribe, process, recv⟩ := o
    cases handle with
    | false => exact ⟨_, rfl, .created, fun _ => ⟨rfl, rfl⟩⟩
    | true =>
    cases connect with
    | false => exact ⟨_, hreleased, .created, fun _ => ⟨rfl, rfl⟩⟩
    | true =>
    cases subscribe with
    | false => exact ⟨_, hreleased, .created, fun _ => ⟨rfl, rfl⟩⟩
    | true =>
    cases process with
    | false => exact ⟨_, hreleased, .created, fun _ => ⟨rfl, rfl⟩⟩
    | true =>
    cases recv with
    | false => exact ⟨_, by decide, .created, fun _ => ⟨rfl, rfl⟩⟩
    | true => exact ⟨_, by decide, .running, fun hne => absurd rfl hne⟩

/-- A stop leaves it as it was created. -/
theorem gatewayStop_holds {gateway : Gateway} {held : Finset GatewayResource}
    (h : gateway.Holds held) : (gatewayStop gateway).1 = .created ∧
      ledger GatewayResource.needs held (gatewayStop gateway).2 = some {.object, .mqttLock} := by
  cases h with
  | created => exact ⟨rfl, rfl⟩
  | running => exact ⟨rfl, by decide⟩

/-- The end gives back the rest. -/
theorem gatewayDestroy_holds {gateway : Gateway} {held : Finset GatewayResource}
    (h : gateway.Holds held) :
    ledger GatewayResource.needs held (gatewayDestroy gateway) = some ∅ := by
  cases h with
  | created => decide
  | running => decide

theorem gatewayCreate_holds (o : CreateOutcomes) :
    ((gatewayCreate o).2.1 = none ∧
      ledger GatewayResource.needs ∅ (gatewayCreate o).2.2 = some ∅) ∨
    ((gatewayCreate o).2.1 = some .created ∧
      ledger GatewayResource.needs ∅ (gatewayCreate o).2.2 = some {.object, .mqttLock}) := by
  have hfreed : ledger GatewayResource.needs ∅ [.take .object, .give .object] = some ∅ := by decide
  have hdestroyed : ledger GatewayResource.needs ∅
      ([.take .object, .take .mqttLock] ++ gatewayDestroy .created) = some ∅ := by decide
  obtain ⟨alloc, mqttLock, configLoad, buildMqttHost⟩ := o
  cases alloc with
  | false => exact Or.inl ⟨rfl, rfl⟩
  | true =>
  cases mqttLock with
  | false => exact Or.inl ⟨rfl, hfreed⟩
  | true =>
  cases configLoad with
  | false => exact Or.inl ⟨rfl, hdestroyed⟩
  | true =>
  cases buildMqttHost with
  | false => exact Or.inl ⟨rfl, by decide⟩
  | true => exact Or.inr ⟨rfl, by decide⟩

/-! ## Any sequence of calls -/

/-- Where an object has come to, what it holds is what its state says. -/
def GatewayObject.Kept (object : GatewayObject) : Prop :=
  ∃ held, ledger GatewayResource.needs ∅ object.trace = some held ∧
    match object.slot with
    | .live gateway => gateway.Holds held
    | _ => held = ∅

theorem newObject_kept (o : CreateOutcomes) : (newObject o).Kept := by
  rcases gatewayCreate_holds o with ⟨hnone, hledger⟩ | ⟨hsome, hledger⟩
  · refine ⟨_, hledger, ?_⟩
    simp only [newObject, hnone]
  · refine ⟨_, hledger, ?_⟩
    simp only [newObject, hsome]
    exact .created

theorem callObject_kept {object object' : GatewayObject} {call : GatewayCall} (h : object.Kept)
    (hcall : callObject object call = some object') : object'.Kept := by
  obtain ⟨slot, trace⟩ := object
  obtain ⟨held, hledger, hslot⟩ := h
  cases slot with
  | destroyed => cases call <;> cases hcall
  | null =>
    cases call with
    | create o => cases hcall
    | _ =>
      cases hcall
      exact ⟨held, hledger, hslot⟩
  | live gateway =>
    cases call with
    | create o => cases hcall
    | start i o =>
      cases hcall
      obtain ⟨held', hstart, hholds, -⟩ := gatewayStart_holds hslot o
      exact ⟨held', (ledger_append hledger _).trans hstart, hholds⟩
    | stop i =>
      cases hcall
      obtain ⟨hcreated, hstop⟩ := gatewayStop_holds hslot
      refine ⟨_, (ledger_append hledger _).trans hstop, ?_⟩
      simp only [hcreated]
      exact .created
    | destroy i =>
      cases hcall
      exact ⟨∅, (ledger_append hledger _).trans (gatewayDestroy_holds hslot), rfl⟩

theorem lifeStep_kept {objects objects' : List GatewayObject} {call : GatewayCall}
    (h : ∀ object ∈ objects, object.Kept) (hstep : lifeStep objects call = some objects') :
    ∀ object ∈ objects', object.Kept := by
  unfold lifeStep at hstep
  split at hstep
  · cases hstep
    intro object hmem
    rcases List.mem_append.1 hmem with hmem | hmem
    · exact h object hmem
    · rw [List.mem_singleton.1 hmem]
      exact newObject_kept _
  · cases hstep
  · split at hstep
    · cases hstep
    · rename_i object hget
      obtain ⟨object', hcall, rfl⟩ := Option.map_eq_some_iff.1 hstep
      intro object₁ hmem
      rcases List.mem_or_eq_of_mem_set hmem with hmem | rfl
      · exact h object₁ hmem
      · exact callObject_kept (h object (List.mem_of_getElem? hget)) hcall

/-- What an object is left with: no threads, no handle, and the state of a new one. -/
def LeftAsCreated (gateway : Gateway) (held : Option (Finset GatewayResource)) : Prop :=
  gateway = .created ∧ held = some {.object, .mqttLock}

/-- **Nothing is left behind.**  In every sequence of calls the history of every object is
one of a program that takes nothing twice, joins only threads it has created and joins them
before it releases the handle.  `started` is 1 exactly when both threads and the handle are
there; a start that fails and a stop leave the object as it was created; and when it has
been destroyed, or was not created, everything has been given back as often as it was
taken. -/
theorem lifecycle_balanced {objects : List GatewayObject} (h : lifeMachine.Reachable objects) :
    ∀ object ∈ objects, ∃ held, ledger GatewayResource.needs ∅ object.trace = some held ∧
      match object.slot with
      | .live gateway =>
        (gateway.started = true ↔ .mqttProcessThread ∈ held ∧ .mqttRecvThread ∈ held ∧
          gateway.mqttHandle = true) ∧
        (gateway.mqttHandle = true ↔ .mqttHandle ∈ held) ∧
        (∀ o, (gatewayStart o gateway).1 ≠ IOT_IDE_GATEWAY_OK →
          LeftAsCreated (gatewayStart o gateway).2.1
            (ledger GatewayResource.needs held (gatewayStart o gateway).2.2)) ∧
        LeftAsCreated (gatewayStop gateway).1
          (ledger GatewayResource.needs held (gatewayStop gateway).2)
      | _ => ∀ r, r ∉ held ∧ object.trace.count (.take r) = object.trace.count (.give r) := by
  have hinit : ∀ objects, lifeMachine.init objects → ∀ object ∈ objects, object.Kept := by
    rintro objects rfl
    simp
  have hkept := Machine.invariant hinit (fun _ _ _ hkept _ => lifeStep_kept hkept) objects h
  intro object hmem
  obtain ⟨held, hledger, hslot⟩ := hkept object hmem
  refine ⟨held, hledger, ?_⟩
  cases hobject : object.slot with
  | live gateway =>
    simp only [hobject] at hslot
    refine ⟨?_, ?_, fun o hne => ?_, gatewayStop_holds hslot⟩
    · cases hslot <;> decide
    · cases hslot <;> decide
    · obtain ⟨held', hstart, -, hfailed⟩ := gatewayStart_holds hslot o
      obtain ⟨hcreated, rfl⟩ := hfailed hne
      exact ⟨hcreated, hstart⟩
  | null =>
    simp only [hobject] at hslot
    subst hslot
    exact fun r => ⟨Finset.notMem_empty r, given_of_settled hledger r⟩
  | destroyed =>
    simp only [hobject] at hslot
    subst hslot
    exact fun r => ⟨Finset.notMem_empty r, given_of_settled hledger r⟩

/-- A start whose second thread cannot be created, one that succeeds, a stop, and the end. -/
def restartingCalls : List GatewayCall :=
  [.create ⟨true, true, true, true⟩, .start 0 ⟨true, true, true, true, false⟩,
    .start 0 ⟨true, true, true, true, true⟩, .stop 0, .destroy 0]

/-- What is taken and given back on the way. -/
def restartingTrace : GatewayTrace :=
  [.take .object, .take .mqttLock,
    .take .mqttHandle, .take .mqttProcessThread, .give .mqttProcessThread, .give .mqttHandle,
    .take .mqttHandle, .take .mqttProcessThread, .take .mqttRecvThread,
    .give .mqttProcessThread, .give .mqttRecvThread, .give .mqttHandle,
    .give .mqttLock, .give .object]

theorem lifecycle_balanced_restarting :
    restartingTrace.count (.take .mqttProcessThread) = 2 ∧
      restartingTrace.count (.give .mqttProcessThread) = 2 := by
  have hrun : lifeMachine.run [] restartingCalls = some [⟨.destroyed, restartingTrace⟩] := rfl
  obtain ⟨held, -, hend⟩ := lifecycle_balanced (Machine.reachable_of_run rfl hrun)
    ⟨.destroyed, restartingTrace⟩ (List.mem_singleton_self _)
  have htaken : restartingTrace.count (.take .mqttProcessThread) = 2 := by decide
  exact ⟨htaken, (hend .mqttProcessThread).2.symm.trans htaken⟩

end IotIde
