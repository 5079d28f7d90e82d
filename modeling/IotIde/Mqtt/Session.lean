import IotIde.Mqtt.Connect
import IotIde.Mqtt.Link

/-!
# A session of the MQTT client

The three threads that share the handle: one calls `aiot_mqtt_recv`, one `aiot_mqtt_process`, and
the application connects and disconnects.  The steps of a thread are cut at its locks, at its tests
of what other threads write, and between the test behind an event and the telling of it.

* `Notifier` — what the application is told, with the flags `has_connected` and `disconnected`;
* `Heartbeat`, `Reconnect` — the counts of the lost heartbeats and of the failed attempts;
* `Session`, `sessionMachine` — all of it, with the steps of each thread.
-/

namespace IotIde

open CText Frames Runs

def CORE_MQTT_DEFAULT_RECONN_MAX_COUNTERS : ℕ := 60

/-! ## What the application is told -/

/-- The threads that tell the application something. -/
inductive SessionThread
  | recv
  | app
  deriving DecidableEq

/-- Why the connection is gone. -/
inductive DisconnectReason
  | network
  | heartbeat
  deriving DecidableEq

/-- The events of the application's handler. -/
inductive AppEvent
  | connect
  | reconnect
  | disconnect (reason : DisconnectReason)
  deriving DecidableEq

def AppEvent.isDisconnect : AppEvent → Bool
  | .disconnect _ => true
  | _ => false

/-- The flags behind the events, the events so far, and for each thread the event that it is about
to tell. -/
structure Notifier where
  hasConnected : Bool
  disconnected : Bool
  pending : SessionThread → Option AppEvent
  told : List AppEvent

namespace Notifier

/-- `_core_mqtt_connect_event_notify`, up to its test. -/
def connectEventNotify (n : Notifier) (t : SessionThread) : Notifier :=
  { n with
    disconnected := false
    pending := Function.update n.pending t
      (some (if n.hasConnected then .reconnect else .connect)) }

/-- `_core_mqtt_disconnect_event_notify`, up to its test. -/
def disconnectEventNotify (n : Notifier) (t : SessionThread) (reason : DisconnectReason) :
    Notifier :=
  if n.hasConnected ∧ ¬ n.disconnected then
    { n with pending := Function.update n.pending t (some (.disconnect reason)) }
  else n

/-- The rest of either: the flag is set and the handler called. -/
def tell (n : Notifier) (t : SessionThread) : Notifier :=
  match n.pending t with
  | none => n
  | some event =>
    { hasConnected := n.hasConnected || event = .connect
      disconnected := n.disconnected || (event ≠ .connect && event ≠ .reconnect)
      pending := Function.update n.pending t none
      told := n.told ++ [event] }

end Notifier

/-! ## Heartbeats and attempts -/

/-- What happens to the heartbeats: one is sent, well or not, it is counted as lost, the count
starts again, it is found too large. -/
inductive HeartbeatLog
  | sent
  | counted
  | answered
  | lost
  deriving DecidableEq

/-- `core_mqtt_heartbeat_t`, with what happened, the last first. -/
structure Heartbeat where
  intervalMs : ℕ
  maxLostTimes : ℕ
  lostTimes : ℕ
  lastSendTime : ℕ
  log : List HeartbeatLog

/-- A round of `_core_mqtt_connect` that `_core_mqtt_reconnect` makes. -/
structure Attempt where
  start : ℕ
  stop : ℕ
  success : Bool

/-- `core_mqtt_reconnect_t`, with the attempts made, the last first. -/
structure Reconnect where
  enabled : Bool
  intervalMs : ℕ
  lastRetryTime : ℕ
  backoffEnabled : Bool
  randMs : ℤ
  reconnectCounter : ℕ
  attempts : List Attempt

/-- `interval_ms` of `_core_mqtt_reconnect`. -/
def Reconnect.delay (r : Reconnect) : ℕ :=
  if r.backoffEnabled then
    ((r.intervalMs * (r.reconnectCounter + 1) + r.randMs) % 2 ^ 32 : ℤ).toNat
  else r.intervalMs

/-- `_core_mqtt_reconnect`, from its locks on: the time of its test, the time behind the attempt
and the code of the attempt. -/
def Reconnect.next (r : Reconnect) (now stop : ℕ) (res : ℤ) : Reconnect :=
  { r with
    lastRetryTime := stop
    reconnectCounter :=
      if r.backoffEnabled then
        if res = STATE_MQTT_CONNECT_SUCCESS then 0
        else if r.reconnectCounter < CORE_MQTT_DEFAULT_RECONN_MAX_COUNTERS then
          r.reconnectCounter + 1
        else r.reconnectCounter
      else r.reconnectCounter
    attempts := ⟨now, stop, decide (res = STATE_MQTT_CONNECT_SUCCESS)⟩ :: r.attempts }

/-! ## The threads -/

/-- Where the thread that receives stands in `aiot_mqtt_recv`. -/
inductive RecvPc
  | idle
  | closed (reason : DisconnectReason)
  | begun
  | reconnecting
  | attempting
  | linked (relinked : Bool)
  | beating
  | lost
  | relinking
  | reading
  | closing
  deriving DecidableEq

/-- Where the application stands in `aiot_mqtt_connect` or `aiot_mqtt_disconnect`. -/
inductive AppPc
  | idle
  | connecting
  | closing
  | notice (success : Bool)
  deriving DecidableEq

/-- Where the thread that processes stands in `aiot_mqtt_process`: it is about to send the heartbeat
of a time, or to count it. -/
inductive ProcessPc
  | idle
  | sending (now : ℕ)
  | counting (now : ℕ)
  deriving DecidableEq

/-- The handle as the threads share it, and where each of them stands. -/
structure Session where
  networkHandle : Option Net
  fields : ConnectFields
  disconnectApiCalled : Bool
  notifier : Notifier
  heartbeat : Heartbeat
  reconnect : Reconnect
  recvPc : RecvPc
  appPc : AppPc
  processPc : ProcessPc

/-- The steps of the threads, with what the clock, the network and the memory answer. -/
inductive SessionEvent
  | tell (t : SessionThread)
  | recvBegin
  | recvClosed
  | recvReconnect
  | recvCheck
  | recvAttempt (now stop : ℕ) (env : ConnectEnv)
  | recvLinked
  | recvBeat
  | recvLost
  | recvRelink (env : ConnectEnv)
  | recvRead (mallocOk : Bool)
  | recvClose
  | processBeat (now : ℕ)
  | processSend
  | processCount
  | writeFails
  | appConnect
  | appLink (env : ConnectEnv)
  | appDisconnect
  | appClose
  | appNotice

namespace Session

/-- `_core_mqtt_connect` -/
def connect (s : Session) (env : ConnectEnv) : ℤ × Session :=
  let (res, networkHandle) := coreMqttConnect s.networkHandle s.fields env
  (res, { s with networkHandle := networkHandle })

/-- What `aiot_mqtt_recv` does with the code of an attempt: it goes on or returns. -/
def afterConnect (s : Session) (res : ℤ) (relinked : Bool) : Session :=
  { s with
    recvPc :=
      if res < STATE_SUCCESS then
        if res = STATE_MQTT_CONNECT_SUCCESS then .linked relinked else .idle
      else if relinked then .reading else .beating }

/-- A new connection: `lost_times` starts again, and the application is told. -/
def recvLinked (s : Session) (relinked : Bool) : Session :=
  { s with
    notifier := s.notifier.connectEventNotify .recv
    heartbeat := { s.heartbeat with lostTimes := 0, log := .answered :: s.heartbeat.log }
    recvPc := if relinked then .reading else .beating }

/-- `_core_mqtt_reconnect` under its locks. -/
def recvAttempt (s : Session) (now stop : ℕ) (env : ConnectEnv) : Session :=
  let lastRetryTime := if now < s.reconnect.lastRetryTime then now else s.reconnect.lastRetryTime
  if (lastRetryTime + s.reconnect.delay) % 2 ^ 64 ≤ now then
    let (res, s) := s.connect env
    { s with reconnect := s.reconnect.next now stop res }.afterConnect res false
  else { s with
    reconnect := { s.reconnect with lastRetryTime := lastRetryTime }
    recvPc := .idle }

/-- The test of the heartbeats. -/
def recvBeat (s : Session) : Session :=
  if s.heartbeat.maxLostTimes < s.heartbeat.lostTimes then
    { s with
      heartbeat := { s.heartbeat with log := .lost :: s.heartbeat.log }
      recvPc := .closed .heartbeat }
  else { s with recvPc := .reading }

/-- The attempt for the heartbeats, which knows no delay. -/
def recvRelink (s : Session) (env : ConnectEnv) : Session :=
  let (res, s) := s.connect env
  s.afterConnect res true

/-- The reads of `aiot_mqtt_recv`, and the handler of the packet. -/
def recvRead (s : Session) (mallocOk : Bool) : Session :=
  match s.networkHandle with
  | none => { s with recvPc := .closing }
  | some net =>
    match recvPacket mallocOk net with
    | (.error _, net) => { s with networkHandle := some net, recvPc := .closing }
    | (.ok none, net) => { s with networkHandle := some net, recvPc := .idle }
    | (.ok (some (header, remain)), net) => { s with
        networkHandle := some net
        heartbeat := { s.heartbeat with lostTimes := 0, log := .answered :: s.heartbeat.log }
        recvPc := if (handlePacket none header remain).1 < STATE_SUCCESS then .closing else .idle }

/-- `aiot_mqtt_process`, up to the test of the interval. -/
def processBeat (s : Session) (now : ℕ) : Session :=
  let lastSendTime := if now < s.heartbeat.lastSendTime then now else s.heartbeat.lastSendTime
  { s with
    heartbeat := { s.heartbeat with lastSendTime := lastSendTime }
    processPc := if s.heartbeat.intervalMs ≤ now - lastSendTime then .sending now else .idle }

/-- `_core_mqtt_heartbeat`; whether its write succeeds is not asked. -/
def processSend (s : Session) (now : ℕ) : Session :=
  { s with
    heartbeat := { s.heartbeat with log := .sent :: s.heartbeat.log }
    processPc := .counting now }

/-- What `aiot_mqtt_process` notes behind it. -/
def processCount (s : Session) (now : ℕ) : Session :=
  { s with
    heartbeat := { s.heartbeat with
      lastSendTime := now
      lostTimes := (s.heartbeat.lostTimes + 1) % 2 ^ 32
      log := .counted :: s.heartbeat.log }
    processPc := .idle }

/-- `aiot_mqtt_connect` under its locks. -/
def appLink (s : Session) (env : ConnectEnv) : Session :=
  let (res, s) := s.connect env
  { s with appPc := .notice (decide (res = STATE_MQTT_CONNECT_SUCCESS)) }

def appNotice (s : Session) (success : Bool) : Session :=
  { s with
    notifier := if success then s.notifier.connectEventNotify .app
      else s.notifier.disconnectEventNotify .app .network
    appPc := .idle }

/-- The thread that receives stands here, and has nothing to tell. -/
def At (s : Session) (pc : RecvPc) : Prop :=
  s.notifier.pending .recv = none ∧ s.recvPc = pc

instance (s : Session) (pc : RecvPc) : Decidable (s.At pc) :=
  inferInstanceAs (Decidable (_ ∧ _))

/-- The application stands here, and has nothing to tell. -/
def AppAt (s : Session) (pc : AppPc) : Prop :=
  s.notifier.pending .app = none ∧ s.appPc = pc

instance (s : Session) (pc : AppPc) : Decidable (s.AppAt pc) :=
  inferInstanceAs (Decidable (_ ∧ _))

end Session

/-- The options of the handle, and the random part of the delay. -/
structure SessionConfig where
  fields : ConnectFields
  heartbeatIntervalMs : ℕ
  maxLostTimes : ℕ
  reconnectEnabled : Bool
  reconnectIntervalMs : ℕ
  randMs : ℤ

/-- The handle as `aiot_mqtt_init` and the options leave it. -/
def Session.new (config : SessionConfig) : Session where
  networkHandle := none
  fields := config.fields
  disconnectApiCalled := false
  notifier := ⟨false, false, fun _ => none, []⟩
  heartbeat := ⟨config.heartbeatIntervalMs, config.maxLostTimes, 0, 0, []⟩
  reconnect := ⟨config.reconnectEnabled, config.reconnectIntervalMs, 0, true, config.randMs, 0, []⟩
  recvPc := .idle
  appPc := .idle
  processPc := .idle

/-- What each step does where it can happen. -/
def Session.step (s : Session) : SessionEvent → Option Session
  | .tell t => if (s.notifier.pending t).isSome then some { s with notifier := s.notifier.tell t }
    else none
  | .recvBegin =>
    if s.At .idle then
      some { s with recvPc := if s.networkHandle.isNone then .closed .network else .begun }
    else none
  | .recvClosed =>
    if s.At (.closed .network) then some { s with
      notifier := s.notifier.disconnectEventNotify .recv .network, recvPc := .begun }
    else if s.At (.closed .heartbeat) then some { s with
      notifier := s.notifier.disconnectEventNotify .recv .heartbeat, recvPc := .lost }
    else none
  | .recvReconnect =>
    if s.At .begun then some { s with
      recvPc := if s.reconnect.enabled ∧ ¬ s.disconnectApiCalled then .reconnecting else .beating }
    else none
  | .recvCheck =>
    if s.At .reconnecting then
      some { s with recvPc := if s.networkHandle.isNone then .attempting else .beating }
    else none
  | .recvAttempt now stop env =>
    if s.At .attempting then some (s.recvAttempt now stop env) else none
  | .recvLinked =>
    if s.At (.linked false) then some (s.recvLinked false)
    else if s.At (.linked true) then some (s.recvLinked true)
    else none
  | .recvBeat => if s.At .beating then some s.recvBeat else none
  | .recvLost =>
    if s.At .lost then some { s with
      recvPc := if s.reconnect.enabled ∧ ¬ s.disconnectApiCalled then .relinking else .reading }
    else none
  | .recvRelink env => if s.At .relinking then some (s.recvRelink env) else none
  | .recvRead mallocOk => if s.At .reading then some (s.recvRead mallocOk) else none
  | .recvClose =>
    if s.At .closing then some { s with networkHandle := none, recvPc := .idle } else none
  | .processBeat now => if s.processPc = .idle then some (s.processBeat now) else none
  | .processSend =>
    match s.processPc with
    | .sending now => some (s.processSend now)
    | _ => none
  | .processCount =>
    match s.processPc with
    | .counting now => some (s.processCount now)
    | _ => none
  -- a thread whose write failed
  | .writeFails => some { s with networkHandle := none }
  | .appConnect =>
    if s.AppAt .idle then some { s with disconnectApiCalled := false, appPc := .connecting }
    else none
  | .appLink env => if s.AppAt .connecting then some (s.appLink env) else none
  | .appDisconnect =>
    if s.AppAt .idle then some { s with disconnectApiCalled := true, appPc := .closing } else none
  | .appClose =>
    if s.AppAt .closing then some { s with networkHandle := none, appPc := .notice false }
    else none
  | .appNotice =>
    if s.AppAt (.notice true) then some (s.appNotice true)
    else if s.AppAt (.notice false) then some (s.appNotice false)
    else none

theorem Session.processSend_of_step {s s' : Session} (h : s.step .processSend = some s') :
    ∃ now, s.processPc = .sending now ∧ s' = s.processSend now := by
  simp only [step] at h
  split at h
  · rename_i now hpc
    cases h
    exact ⟨now, hpc, rfl⟩
  · cases h

theorem Session.processCount_of_step {s s' : Session} (h : s.step .processCount = some s') :
    ∃ now, s.processPc = .counting now ∧ s' = s.processCount now := by
  simp only [step] at h
  split at h
  · rename_i now hpc
    cases h
    exact ⟨now, hpc, rfl⟩
  · cases h

/-- One thread receives, one processes, and the application is in one call at a time. -/
def sessionMachine (config : SessionConfig) : Machine Session SessionEvent where
  init s := s = Session.new config
  step := Session.step

end IotIde
