import IotIde.Gateway.Manager

/-!
# When a sub-device is online

A sub-device should be online only while it belongs to the topology and is not disabled.
Every handler that changes those two flags takes the device offline with them; the handler
of the login and logout replies looks at neither.

* `OnlineUsable` — the property, of one state;
* `LoginUsable` — the login replies that keep it: their device is usable when they come;
* `handleMessage_onlineUsable_iff` — one message;
* `online_usable_iff` — any sequence of messages, from any configuration.
-/

namespace IotIde

open CText Runs

/-- A sub-device that may be online. -/
def GatewaySubDeviceState.Usable (subDevice : GatewaySubDeviceState) : Prop :=
  subDevice.topoAdded = true ∧ subDevice.disabled = false

instance (subDevice : GatewaySubDeviceState) : Decidable subDevice.Usable :=
  inferInstanceAs (Decidable (_ ∧ _))

/-- Every sub-device that is online is usable. -/
def OnlineUsable (manager : GatewayManager) : Prop :=
  ∀ subDevice ∈ manager.subDevices, subDevice.online = true → subDevice.Usable

instance (manager : GatewayManager) : Decidable (OnlineUsable manager) :=
  inferInstanceAs (Decidable (∀ subDevice ∈ manager.subDevices, _ → _))

/-- The sub-device that a message logs in: the message comes on one of the two combine
reply topics, which contains `/login_reply`, with code 200 and a configured device. -/
def logsIn (manager : GatewayManager) (message : Bytes × Bytes) : Option ℕ :=
  if (message.1 = manager.combineTopic (ascii "login_reply") ∨
      message.1 = manager.combineTopic (ascii "logout_reply")) ∧ isLogin message.1 = true then
    combineDevice manager message.2
  else none

/-- The sub-device that a message logs in, if any, is usable. -/
def LoginUsable (manager : GatewayManager) (message : Bytes × Bytes) : Prop :=
  ∀ index subDevice, logsIn manager message = some index →
    manager.subDevices[index]? = some subDevice → subDevice.Usable

/-! ## Updates of the table -/

section Updates

variable {manager : GatewayManager} {index : ℕ}

/-- An update keeps the property if what it makes of its device has it. -/
theorem OnlineUsable.modify {f : GatewaySubDeviceState → GatewaySubDeviceState}
    (h : OnlineUsable manager)
    (hf : ∀ subDevice, manager.subDevices[index]? = some subDevice →
      (f subDevice).online = true → (f subDevice).Usable) :
    OnlineUsable (manager.modify index f) := by
  intro subDevice hmem honline
  obtain ⟨i, hi⟩ := List.mem_iff_getElem?.1 hmem
  simp only [GatewayManager.modify, List.getElem?_modify] at hi
  obtain ⟨old, hold, rfl⟩ := Option.map_eq_some_iff.1 hi
  by_cases hindex : index = i
  · rw [if_pos hindex] at honline ⊢
    exact hf old (hindex ▸ hold) honline
  · rw [if_neg hindex] at honline ⊢
    exact h old (List.mem_of_getElem? hold) honline

theorem OnlineUsable.updateTopoState (h : OnlineUsable manager) (topoAdded disabled : Bool) :
    OnlineUsable (manager.updateTopoState index topoAdded disabled false) :=
  h.modify fun _ _ honline => absurd honline Bool.false_ne_true

theorem OnlineUsable.storeProperties (h : OnlineUsable manager) (properties : Bytes) :
    OnlineUsable (manager.storeProperties index properties) :=
  h.modify fun subDevice hget honline => h subDevice (List.mem_of_getElem? hget) honline

theorem OnlineUsable.updateOnlineState_false (h : OnlineUsable manager) :
    OnlineUsable (manager.updateOnlineState index false) :=
  h.modify fun _ _ honline => absurd honline Bool.false_ne_true

/-- Taking a device online keeps the property exactly when the device is usable. -/
theorem OnlineUsable.updateOnlineState_true_iff (h : OnlineUsable manager) :
    OnlineUsable (manager.updateOnlineState index true) ↔
      ∀ subDevice, manager.subDevices[index]? = some subDevice → subDevice.Usable := by
  constructor
  · intro hafter subDevice hget
    have hget' : (manager.updateOnlineState index true).subDevices[index]? =
        some { subDevice with online := true } := by
      simp [GatewayManager.updateOnlineState, GatewayManager.modify, hget]
    have husable : ({ subDevice with online := true } : GatewaySubDeviceState).Usable :=
      hafter _ (List.mem_of_getElem? hget') rfl
    exact husable
  · intro husable
    exact h.modify fun subDevice hget _ => husable subDevice hget

theorem onlineUsable_resetSubDevices (manager : GatewayManager) :
    OnlineUsable (resetSubDevices manager) := by
  intro subDevice hmem honline
  obtain ⟨_, -, rfl⟩ := List.mem_map.1 hmem
  cases honline

/-- The loops keep the property if a round does. -/
theorem OnlineUsable.visitItems {visit : GatewayManager → ℕ → GatewayHandled}
    (hvisit : ∀ manager index, OnlineUsable manager →
      OnlineUsable (visit manager index).manager) (items : List (Bytes × Bytes)) :
    ∀ {manager : GatewayManager}, OnlineUsable manager →
      OnlineUsable (visitItems visit manager items).manager := by
  induction items with
  | nil => exact fun h => h
  | cons item items ih =>
    intro manager h
    obtain ⟨productKey, deviceName⟩ := item
    unfold IotIde.visitItems
    cases manager.findSubDeviceIndex productKey deviceName with
    | none => exact ih h
    | some index => exact ih (hvisit manager index h)

end Updates

/-! ## The handlers -/

section Handlers

variable {manager : GatewayManager}

theorem OnlineUsable.topoGetReply (h : OnlineUsable manager) (payload : Bytes) :
    OnlineUsable (gatewayHandleTopoGetReply manager payload).manager := by
  unfold gatewayHandleTopoGetReply
  split
  · exact h
  · have hreset := onlineUsable_resetSubDevices manager
    cases Extract.value? (jsonGetArray payload (ascii "data")) 4096 with
    | none => exact hreset
    | some data =>
      exact OnlineUsable.visitItems (fun _ _ h => h.updateTopoState true false) _ hreset

theorem OnlineUsable.topoAddReply (h : OnlineUsable manager) (payload : Bytes) :
    OnlineUsable (gatewayHandleTopoAddReply manager payload).manager := by
  unfold gatewayHandleTopoAddReply
  split
  · exact h
  · cases Extract.value? (jsonGetArray payload (ascii "data")) 4096 with
    | none => exact h
    | some data => exact OnlineUsable.visitItems (fun _ _ h => h.updateTopoState true false) _ h

theorem OnlineUsable.topoAddNotify (h : OnlineUsable manager) (payload : Bytes) :
    OnlineUsable (gatewayHandleTopoAddNotify manager payload).manager := by
  unfold gatewayHandleTopoAddNotify
  cases Extract.value? (jsonGetArray payload (ascii "params")) 4096 with
  | none => exact h
  | some params => exact OnlineUsable.visitItems (fun _ _ h => h) _ h

theorem OnlineUsable.visitTopoChange (h : OnlineUsable manager) (status : ℤ) (index : ℕ) :
    OnlineUsable (visitTopoChange status manager index).manager := by
  unfold IotIde.visitTopoChange
  split_ifs
  · exact h.updateTopoState true false
  · exact h.updateTopoState false false
  · exact h.updateTopoState true true
  · exact h

theorem OnlineUsable.topoChange (h : OnlineUsable manager) (payload : Bytes) :
    OnlineUsable (gatewayHandleTopoChange manager payload).manager := by
  unfold gatewayHandleTopoChange
  cases readTopoChange payload with
  | none => exact h
  | some change =>
    exact OnlineUsable.visitItems (fun _ index h => h.visitTopoChange change.1 index) _ h

theorem OnlineUsable.subServiceMessage (h : OnlineUsable manager) {topic payload : Bytes}
    {handled : GatewayHandled}
    (hhandled : gatewayHandleSubServiceMessage manager topic payload = some handled) :
    OnlineUsable handled.manager := by
  unfold gatewayHandleSubServiceMessage at hhandled
  split at hhandled
  · cases hhandled
  · obtain ⟨subDevice, -, rfl⟩ := Option.map_eq_some_iff.1 hhandled
    simp only [handleSubService]
    split_ifs
    · split
      · exact h.storeProperties _
      · exact h
    · exact h
    · exact h

/-- The combine replies keep the property exactly when the device they log in is usable. -/
theorem OnlineUsable.combineReply_iff (h : OnlineUsable manager) (topic payload : Bytes) :
    OnlineUsable (gatewayHandleCombineReply manager topic payload).manager ↔
      (isLogin topic = true → ∀ index subDevice, combineDevice manager payload = some index →
        manager.subDevices[index]? = some subDevice → subDevice.Usable) := by
  unfold gatewayHandleCombineReply
  cases combineDevice manager payload with
  | none =>
    refine ⟨fun _ _ index _ hnone => ?_, fun _ => h⟩
    cases hnone
  | some index =>
    cases isLogin topic with
    | false =>
      refine ⟨fun _ hfalse => ?_, fun _ => h.updateOnlineState_false⟩
      cases hfalse
    | true =>
      refine h.updateOnlineState_true_iff.trans ⟨?_, ?_⟩
      · rintro husable - i subDevice hi hget
        cases hi
        exact husable subDevice hget
      · intro husable subDevice hget
        exact husable rfl index subDevice rfl hget

end Handlers

/-! ## Messages and runs -/

/-- The topics asked for before the combine topics begin with `/s`, these with `/e`. -/
theorem combineTopic_ne (manager : GatewayManager) (suffix : Bytes) :
    (∀ suffix', manager.combineTopic suffix ≠ manager.topoTopic suffix') ∧
      manager.combineTopic suffix ≠ manager.listFoundReplyTopic := by
  have hcombine : (manager.combineTopic suffix)[1]? = some 101 := rfl
  have htopo : ∀ suffix', (manager.topoTopic suffix')[1]? = some 115 := fun _ => rfl
  have hlist : manager.listFoundReplyTopic[1]? = some 115 := rfl
  constructor
  · intro suffix' heq
    rw [heq, htopo] at hcombine
    exact absurd hcombine (by decide)
  · intro heq
    rw [heq, hlist] at hcombine
    exact absurd hcombine (by decide)

/-- A message on any other topic keeps the property. -/
theorem OnlineUsable.handleMessage_other {manager : GatewayManager} (h : OnlineUsable manager)
    {topic : Bytes} (payload : Bytes)
    (htopic : ¬ (topic = manager.combineTopic (ascii "login_reply") ∨
      topic = manager.combineTopic (ascii "logout_reply"))) :
    OnlineUsable (gatewayManagerHandleMessage manager topic payload).2.manager := by
  unfold gatewayManagerHandleMessage
  split_ifs
  · exact h
  · exact h.topoGetReply payload
  · exact h.topoAddReply payload
  · exact h.topoAddNotify payload
  · exact h.topoChange payload
  · exact h
  · cases hsub : gatewayHandleSubServiceMessage manager topic payload with
    | none => exact h
    | some handled => exact h.subServiceMessage hsub

/-- A message on a combine topic reaches its handler. -/
theorem handleMessage_combine {manager : GatewayManager} (hne : manager.subDevices ≠ [])
    {topic : Bytes} (payload : Bytes)
    (htopic : topic = manager.combineTopic (ascii "login_reply") ∨
      topic = manager.combineTopic (ascii "logout_reply")) :
    gatewayManagerHandleMessage manager topic payload =
      (true, gatewayHandleCombineReply manager topic payload) := by
  have htopo : ∀ suffix, topic ≠ manager.topoTopic suffix := by
    intro suffix
    rcases htopic with rfl | rfl <;> exact (combineTopic_ne manager _).1 suffix
  have hlist : topic ≠ manager.listFoundReplyTopic := by
    rcases htopic with rfl | rfl <;> exact (combineTopic_ne manager _).2
  rw [gatewayManagerHandleMessage, if_neg hne, if_neg (htopo _), if_neg (htopo _),
    if_neg (htopo _), if_neg (htopo _), if_neg hlist, if_pos htopic]

/-- One message keeps the property exactly when the device it logs in is usable. -/
theorem handleMessage_onlineUsable_iff {manager : GatewayManager} (h : OnlineUsable manager)
    (message : Bytes × Bytes) :
    OnlineUsable (gatewayManagerHandleMessage manager message.1 message.2).2.manager ↔
      LoginUsable manager message := by
  by_cases htopic : message.1 = manager.combineTopic (ascii "login_reply") ∨
      message.1 = manager.combineTopic (ascii "logout_reply")
  · by_cases hnil : manager.subDevices = []
    · refine ⟨fun _ index subDevice _ hget => ?_, fun _ => ?_⟩
      · rw [hnil] at hget
        cases hget
      · rw [gatewayManagerHandleMessage, if_pos hnil]
        exact h
    · rw [handleMessage_combine hnil message.2 htopic, h.combineReply_iff]
      unfold LoginUsable logsIn
      by_cases hlogin : isLogin message.1 = true
      · rw [if_pos ⟨htopic, hlogin⟩]
        exact ⟨fun husable => husable hlogin, fun husable _ => husable⟩
      · rw [if_neg fun hboth => hlogin hboth.2]
        refine ⟨fun _ index _ hnone => ?_, fun _ htrue => absurd htrue hlogin⟩
        cases hnone
  · refine ⟨fun _ index subDevice hlogs => ?_, fun _ => h.handleMessage_other message.2 htopic⟩
    rw [logsIn, if_neg fun hboth => htopic hboth.1] at hlogs
    cases hlogs

/-- In any sequence of messages, from any configuration, every sub-device that is online
is usable in every state if and only if every login reply finds its device usable. -/
theorem online_usable_iff (productKey deviceName : Bytes) (subDevices : List SubDeviceConfig)
    (messages : List (Bytes × Bytes)) :
    gatewayMachine.Along OnlineUsable (gatewayManagerInit productKey deviceName subDevices)
        messages ↔
      gatewayMachine.Meets LoginUsable (gatewayManagerInit productKey deviceName subDevices)
        messages := by
  refine Machine.along_iff_meets (I := fun _ => True) (fun _ _ _ _ _ _ => trivial) ?_ messages _
    trivial ?_
  · rintro manager message manager' - h hstep
    cases hstep
    exact handleMessage_onlineUsable_iff h message
  · intro subDevice hmem honline
    obtain ⟨_, -, rfl⟩ := List.mem_map.1 hmem
    cases honline

/-- A sub-device is added, its login is asked for, the cloud disables it, and the answer to
the login comes last. -/
def lateLoginReply : List (Bytes × Bytes) :=
  [(ascii "/sys/gp/gd/thing/topo/add_reply",
      ascii "\x7b\"code\":200,\"data\":[\x7b\"productKey\":\"sp\",\"deviceName\":\"sd\"\x7d]\x7d"),
    (ascii "/sys/gp/gd/thing/topo/change",
      ascii ("\x7b\"params\":\x7b\"status\":8,\"subList\":[\x7b\"productKey\":\"sp\"," ++
        "\"deviceName\":\"sd\"\x7d]\x7d\x7d")),
    (ascii "/ext/session/gp/gd/combine/login_reply",
      ascii "\x7b\"code\":200,\"data\":\x7b\"productKey\":\"sp\",\"deviceName\":\"sd\"\x7d\x7d")]

/-- The disabled device is online then. -/
theorem disabled_device_online :
    (gatewayMachine.run (gatewayManagerInit (ascii "gp") (ascii "gd")
        [⟨ascii "sp", ascii "sd", ascii "secret", ascii "hmacsha256"⟩]) lateLoginReply).map
      (fun manager => manager.subDevices.map fun subDevice =>
        (subDevice.topoAdded, subDevice.disabled, subDevice.online)) =
      some [(true, true, true)] := by
  decide +kernel

end IotIde
