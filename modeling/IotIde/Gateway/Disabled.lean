import IotIde.Gateway.Messages

/-!
# When a disabled sub-device is left alone

The cloud disables a sub-device with a change of status 8 and enables it again with status
0 or 2.  In between the flag should stay, and nothing should be asked for the device.  The
handler of the get reply clears every flag before it asks which devices are disabled; the
handlers of the add reply and of the notification do not ask, and a change of status 1
clears the flag too.  What a change says is not always what is read of it.

* `Watched`, `watchMachine` — the manager with what the changes have said about a device;
* `LeftAlone` — the property, of one state; `Overrides` — the messages that are read as ones
  that enable the device or ask for it; `Disables` — the changes that are read as they are;
* `handleMessage_alone_iff` — one message to a disabled device;
* `disabled_left_alone_iff` — any sequence of messages, from any configuration.
-/

namespace IotIde

open CText JsonText Runs

variable {manager : GatewayManager} {key : Bytes × Bytes}

/-- The flag of a device, as far as it is configured. -/
def GatewayManager.disabled? (manager : GatewayManager) (key : Bytes × Bytes) : Option Bool :=
  (manager.device? key).map GatewaySubDeviceState.disabled

/-- The device is disabled and nothing was asked for it. -/
def GatewayHandled.Alone (key : Bytes × Bytes) (handled : GatewayHandled) : Prop :=
  handled.manager.disabled? key = some true ∧ ¬ AskedFor key handled.published

instance (key : Bytes × Bytes) (handled : GatewayHandled) : Decidable (handled.Alone key) :=
  inferInstanceAs (Decidable (_ ∧ _))

instance lawfulBEq_key : LawfulBEq (Bytes × Bytes) := inferInstance

/-- The messages that are read as ones that clear the flag, or ask for the device without
looking at it. -/
def Overrides (key : Bytes × Bytes) (manager : GatewayManager) (topic payload : Bytes) : Prop :=
  match manager.topicKind topic with
  | .topoGetReply => replyOk payload = true
  | .topoAddReply => replyOk payload = true ∧ key ∈ devicesIn payload (ascii "data")
  | .topoAddNotify => key ∈ devicesIn payload (ascii "params") ∧
      ∃ subDevice, manager.device? key = some subDevice ∧ subDevice.config.hasSecret = true
  | .topoChange => ∃ status, ReadsChange payload status key ∧
      (status = 0 ∨ status = 2 ∨ status = 1)
  | _ => False

/-! ## The handlers on a disabled device -/

/-- An update that leaves the flag of its device leaves the flag of every device. -/
theorem disabled?_modify {f : GatewaySubDeviceState → GatewaySubDeviceState}
    (hconfig : ∀ subDevice, (f subDevice).config = subDevice.config)
    (hdisabled : ∀ subDevice, (f subDevice).disabled = subDevice.disabled) (index : ℕ) :
    (manager.modify index f).disabled? key = manager.disabled? key := by
  rw [GatewayManager.disabled?, device?_modify hconfig, GatewayManager.disabled?]
  split_ifs
  · rw [Option.map_map]
    exact congrArg (Option.map · (manager.device? key)) (funext hdisabled)
  · rfl

theorem disabled?_updateOnlineState (index : ℕ) (online : Bool) :
    (manager.updateOnlineState index online).disabled? key = manager.disabled? key :=
  disabled?_modify (f := fun subDevice => { subDevice with online := online })
    (fun _ => rfl) (fun _ => rfl) index

theorem disabled?_storeProperties (index : ℕ) (properties : Bytes) :
    (manager.storeProperties index properties).disabled? key = manager.disabled? key :=
  disabled?_modify
    (f := fun subDevice => { subDevice with lastPropertyJson := snprintf 1024 properties })
    (fun _ => rfl) (fun _ => rfl) index

theorem device?_resetSubDevices (manager : GatewayManager) (key : Bytes × Bytes) :
    (resetSubDevices manager).device? key =
      (manager.device? key).map (GatewaySubDeviceState.setTopo false false false) := by
  rw [GatewayManager.device?, indexOf?_congr (configs_resetSubDevices manager),
    GatewayManager.device?, Option.map_bind]
  simp only [resetSubDevices, List.getElem?_map, Function.comp_def]
  rfl

theorem askedFor_replyNotify {suffix requestId : Bytes} {published : List GatewayPublication} :
    AskedFor key (.replyNotify suffix requestId :: published) ↔ AskedFor key published := by
  simp [AskedFor, GatewayPublication.AsksFor]

theorem ReadsChange.unique {payload : Bytes} {status status' : ℤ}
    (h : ReadsChange payload status key) (h' : ReadsChange payload status' key) :
    status = status' := by
  obtain ⟨items, hin, -⟩ := h
  obtain ⟨items', hin', -⟩ := h'
  cases hin.symm.trans hin'
  rfl

/-- After a change a device is disabled if it is read as one that disables it, or if it was
disabled and the change is not read as one that clears the flag. -/
theorem disabled?_topoChange_iff {subDevice : GatewaySubDeviceState}
    (hdevice : manager.device? key = some subDevice) (payload : Bytes) :
    (gatewayHandleTopoChange manager payload).manager.disabled? key = some true ↔
      ReadsChange payload 8 key ∨ subDevice.disabled = true ∧
        ¬ ∃ status, ReadsChange payload status key ∧ (status = 0 ∨ status = 2 ∨ status = 1) := by
  rw [topoChange_eq]
  cases hin : topoChangeIn payload with
  | none =>
    have hno : ∀ status, ¬ ReadsChange payload status key := by
      rintro status ⟨items, hin', -⟩
      cases hin.symm.trans hin'
    simp [GatewayManager.disabled?, hdevice, hno]
  | some change =>
    obtain ⟨status, items⟩ := change
    have hread : ∀ status', ReadsChange payload status' key ↔ status = status' ∧ key ∈ items := by
      intro status'
      simp only [ReadsChange, hin, Option.some.injEq, Prod.mk.injEq]
      exact ⟨fun ⟨items', ⟨hs, hi⟩, hmem⟩ => ⟨hs, hi ▸ hmem⟩,
        fun ⟨hs, hmem⟩ => ⟨items, ⟨hs, rfl⟩, hmem⟩⟩
    dsimp only
    rw [GatewayManager.disabled?, device?_visitItems (changeDevice_config status)
      (changeDevice_idem status), hdevice]
    by_cases hmem : key ∈ items
    · simp only [hread, hmem, if_true, Option.map_some, Option.some.injEq, and_true,
        exists_eq_left']
      unfold changeDevice
      split_ifs with henable hremove hdisable
      · refine iff_of_false Bool.false_ne_true ?_
        rintro (rfl | ⟨-, hno⟩)
        · omega
        · exact hno (henable.imp_right Or.inl)
      · refine iff_of_false Bool.false_ne_true ?_
        rintro (rfl | ⟨-, hno⟩)
        · omega
        · exact hno (Or.inr (Or.inr hremove))
      · exact iff_of_true rfl (Or.inl hdisable)
      · have hnone : ¬ (status = 0 ∨ status = 2 ∨ status = 1) := by tauto
        simp [hdisable, hnone]
    · simp [hread, hmem]

section Handlers

variable (h : manager.disabled? key = some true)
include h

theorem alone_unchanged : GatewayHandled.Alone key ⟨manager, []⟩ := ⟨h, not_askedFor_nil key⟩

/-- The loops that set one value of the flag. -/
theorem disabled?_visitItems {f : GatewaySubDeviceState → GatewaySubDeviceState}
    {request : SubDeviceConfig → List GatewayPublication}
    (hconfig : ∀ subDevice, (f subDevice).config = subDevice.config)
    (hidem : ∀ subDevice, f (f subDevice) = f subDevice) {disabled : Bool}
    (hdisabled : ∀ subDevice, (f subDevice).disabled = disabled) (items : List (Bytes × Bytes)) :
    (visitItems (visitWith f request) manager items).manager.disabled? key =
      some (if key ∈ items then disabled else true) := by
  obtain ⟨subDevice, hdevice, htrue⟩ := Option.map_eq_some_iff.1 h
  rw [GatewayManager.disabled?, device?_visitItems hconfig hidem]
  by_cases hmem : key ∈ items
  · simp [hmem, hdevice, hdisabled]
  · simp [hmem, hdevice, htrue]

/-- The reset comes first, so a successful get reply enables the device, listed or not. -/
theorem alone_topoGetReply_iff (payload : Bytes) :
    (gatewayHandleTopoGetReply manager payload).Alone key ↔ ¬ replyOk payload = true := by
  by_cases hok : replyOk payload = true
  · refine iff_of_false ?_ (fun hnot => hnot hok)
    obtain ⟨subDevice, hdevice, -⟩ := Option.map_eq_some_iff.1 h
    rw [topoGetReply_eq manager payload hok, GatewayHandled.Alone, GatewayManager.disabled?,
      device?_visitItems (setTopo_config true false false) (setTopo_idem true false false),
      device?_resetSubDevices, hdevice]
    rintro ⟨hflag, -⟩
    split_ifs at hflag
    all_goals exact Bool.false_ne_true (Option.some.inj hflag)
  · refine iff_of_true ?_ hok
    rw [gatewayHandleTopoGetReply, if_pos (Bool.eq_false_iff.2 hok)]
    exact alone_unchanged h

theorem alone_topoAddReply_iff (payload : Bytes) :
    (gatewayHandleTopoAddReply manager payload).Alone key ↔
      ¬ (replyOk payload = true ∧ key ∈ devicesIn payload (ascii "data")) := by
  by_cases hok : replyOk payload = true
  · rw [topoAddReply_eq manager payload hok]
    have hflag : (visitItems (visitWith (GatewaySubDeviceState.setTopo true false false)
        gatewayRequestLogin) manager (devicesIn payload (ascii "data"))).manager.disabled? key =
          some (if key ∈ devicesIn payload (ascii "data") then false else true) :=
      disabled?_visitItems h (setTopo_config true false false) (setTopo_idem true false false)
        (fun _ => rfl) _
    by_cases hmem : key ∈ devicesIn payload (ascii "data")
    · refine iff_of_false ?_ (fun hnot => hnot ⟨hok, hmem⟩)
      rintro ⟨htrue, -⟩
      rw [hflag, if_pos hmem] at htrue
      exact Bool.false_ne_true (Option.some.inj htrue)
    · refine iff_of_true ⟨?_, ?_⟩ (fun hboth => hmem hboth.2)
      · rw [hflag, if_neg hmem]
      · rw [askedFor_visitItems (setTopo_config true false false) key_of_askedFor_login]
        exact fun hasked => hmem hasked.1
  · refine iff_of_true ?_ (fun hboth => hok hboth.1)
    rw [gatewayHandleTopoAddReply, if_pos (Bool.eq_false_iff.2 hok)]
    exact alone_unchanged h

theorem alone_topoAddNotify_iff (payload : Bytes) :
    (gatewayHandleTopoAddNotify manager payload).Alone key ↔
      ¬ (key ∈ devicesIn payload (ascii "params") ∧
        ∃ subDevice, manager.device? key = some subDevice ∧
          subDevice.config.hasSecret = true) := by
  rw [topoAddNotify_eq]
  have hflag : (visitItems (visitWith id gatewayRequestTopoAdd) manager
      (devicesIn payload (ascii "params"))).manager.disabled? key = some true := by
    rw [GatewayManager.disabled?, device?_visitItems (f := id) (fun _ => rfl) (fun _ => rfl),
      Option.map_id, id, ite_self]
    exact h
  refine (and_iff_right hflag).trans (not_congr ?_)
  rw [askedFor_replyNotify,
    askedFor_visitItems (f := id) (fun _ => rfl) key_of_askedFor_topoAdd]
  refine and_congr_right fun _ => exists_congr fun subDevice => and_congr_right fun hdevice => ?_
  rw [askedFor_topoAdd, and_iff_left (device?_key hdevice)]

/-- A change breaks it by enabling the device or by removing it. -/
theorem alone_topoChange_iff (payload : Bytes) :
    (gatewayHandleTopoChange manager payload).Alone key ↔
      ¬ ∃ status, ReadsChange payload status key ∧ (status = 0 ∨ status = 2 ∨ status = 1) := by
  obtain ⟨subDevice, hdevice, htrue⟩ := Option.map_eq_some_iff.1 h
  rw [GatewayHandled.Alone, disabled?_topoChange_iff hdevice,
    and_iff_left_of_imp, htrue, eq_self_iff_true, true_and]
  · constructor
    · rintro (hread | hno) ⟨status, hread', hstatus⟩
      · obtain rfl : status = 8 := hread'.unique hread
        omega
      · exact hno ⟨status, hread', hstatus⟩
    · exact Or.inr
  · intro hflag
    rw [topoChange_eq]
    cases hin : topoChangeIn payload with
    | none =>
      rw [askedFor_replyNotify]
      exact not_askedFor_nil key
    | some change =>
      have hreq : ∀ config, AskedFor key (changeRequest change.1 config) → config.key = key := by
        intro config hasked
        unfold changeRequest at hasked
        split_ifs at hasked
        · exact (askedFor_login.1 hasked).2
        · exact absurd hasked (not_askedFor_nil key)
      rw [askedFor_replyNotify, askedFor_visitItems (changeDevice_config change.1) hreq]
      rintro ⟨hmem, _, -, hasked⟩
      have hread : ReadsChange payload change.1 key := ⟨change.2, hin, hmem⟩
      have hstatus : change.1 ≠ 0 ∧ change.1 ≠ 2 := by
        rcases hflag with hread' | ⟨-, hno⟩
        · rw [hread.unique hread']
          decide
        · exact ⟨fun h0 => hno ⟨_, hread, Or.inl h0⟩, fun h2 => hno ⟨_, hread, Or.inr (Or.inl h2)⟩⟩
      rw [changeRequest, if_neg fun henable => henable.elim hstatus.1 hstatus.2] at hasked
      exact not_askedFor_nil key hasked

theorem alone_combineReply (topic payload : Bytes) :
    (gatewayHandleCombineReply manager topic payload).Alone key := by
  unfold gatewayHandleCombineReply
  cases combineDevice manager payload with
  | none => exact alone_unchanged h
  | some index =>
    exact ⟨(disabled?_updateOnlineState index _).trans h, not_askedFor_nil key⟩

theorem alone_subServiceMessage (topic payload : Bytes) :
    ((gatewayHandleSubServiceMessage manager topic payload).getD ⟨manager, []⟩).Alone key := by
  cases hsub : gatewayHandleSubServiceMessage manager topic payload with
  | none => exact alone_unchanged h
  | some handled =>
    unfold gatewayHandleSubServiceMessage at hsub
    split at hsub
    · cases hsub
    · obtain ⟨subDevice, -, rfl⟩ := Option.map_eq_some_iff.1 hsub
      simp only [Option.getD_some, handleSubService]
      split_ifs
      · split
        · refine ⟨(disabled?_storeProperties _ _).trans h, ?_⟩
          simp [AskedFor, GatewayPublication.AsksFor]
        · refine ⟨h, ?_⟩
          simp [AskedFor, GatewayPublication.AsksFor]
      · refine ⟨h, ?_⟩
        simp [AskedFor, GatewayPublication.AsksFor]
      · refine ⟨h, ?_⟩
        simp [AskedFor, GatewayPublication.AsksFor]

end Handlers

/-! ## Messages and runs -/

/-- A message leaves a disabled device alone exactly when it is none of those that override
the flag. -/
theorem handleMessage_alone_iff (h : manager.disabled? key = some true) (topic payload : Bytes) :
    (gatewayManagerHandleMessage manager topic payload).2.Alone key ↔
      ¬ Overrides key manager topic payload := by
  rw [handleMessage_eq]
  unfold Overrides
  cases manager.topicKind topic with
  | unhandled => exact iff_of_true (alone_unchanged h) id
  | topoGetReply => exact alone_topoGetReply_iff h payload
  | topoAddReply => exact alone_topoAddReply_iff h payload
  | topoAddNotify => exact alone_topoAddNotify_iff h payload
  | topoChange => exact alone_topoChange_iff h payload
  | listFoundReply => exact iff_of_true (alone_unchanged h) id
  | combineReply => exact iff_of_true (alone_combineReply h topic payload) id
  | subDevice => exact iff_of_true (alone_subServiceMessage h topic payload) id

/-- A message on the topic of the changes that gives the device the status itself. -/
def GivesStatus (key : Bytes × Bytes) (status : ℤ) (manager : GatewayManager)
    (message : GatewayMessage) : Prop :=
  manager.topicKind message.topic = .topoChange ∧ message.Says key status

instance (key : Bytes × Bytes) (status : ℤ) (manager : GatewayManager)
    (message : GatewayMessage) : Decidable (GivesStatus key status manager message) :=
  inferInstanceAs (Decidable (_ ∧ _))

/-- The manager, whether the last change that named the device to enable or disable it
disabled it, and whether anything was asked for it in between by the last message. -/
structure Watched where
  manager : GatewayManager
  held : Bool
  asked : Bool
  deriving DecidableEq

/-- Status 8 begins it, status 0 or 2 ends it. -/
def heldAfter (key : Bytes × Bytes) (watched : Watched) (message : GatewayMessage) : Bool :=
  if GivesStatus key 8 watched.manager message then true
  else if GivesStatus key 0 watched.manager message ∨ GivesStatus key 2 watched.manager message
    then false
  else watched.held

/-- The manager and the messages that come in, watched for one device. -/
def watchMachine (key : Bytes × Bytes) : Machine Watched GatewayMessage where
  init watched := ∃ productKey deviceName subDevices,
    watched = ⟨gatewayManagerInit productKey deviceName subDevices, false, false⟩
  step watched message :=
    let handled := (gatewayManagerHandleMessage watched.manager message.topic message.payload).2
    let held := heldAfter key watched message
    some ⟨handled.manager, held, watched.held && held && decide (AskedFor key handled.published)⟩

/-- From the change that disables it to the one that enables it, the device is disabled and
nothing is asked for it. -/
def LeftAlone (key : Bytes × Bytes) (watched : Watched) : Prop :=
  watched.held = true → watched.manager.disabled? key = some true ∧ watched.asked = false

/-- The change is seen as one that disables the device, or finds it disabled and is not seen
as one that clears the flag. -/
def Disables (key : Bytes × Bytes) (manager : GatewayManager) (message : GatewayMessage) : Prop :=
  ∃ d, message.doc? = some d ∧ (ChangeSeen d 8 key ∨ manager.disabled? key = some true ∧
    ¬ ∃ status, ChangeSeen d status key ∧ (status = 0 ∨ status = 2 ∨ status = 1))

/-- The change that begins it disables the device, and no message up to the one that ends it
overrides the flag. -/
def Respected (key : Bytes × Bytes) (watched : Watched) (message : GatewayMessage) : Prop :=
  heldAfter key watched message = true →
    if watched.held then ¬ Overrides key watched.manager message.topic message.payload
    else Disables key watched.manager message

theorem Respected.of_begin {watched : Watched} {message : GatewayMessage}
    (hheld : watched.held = false) (h : Disables key watched.manager message) :
    Respected key watched message := by
  intro _
  rw [if_neg (by simp [hheld])]
  exact h

theorem Respected.of_held {watched : Watched} {message : GatewayMessage}
    (hheld : watched.held = true)
    (h : ¬ Overrides key watched.manager message.topic message.payload) :
    Respected key watched message := by
  intro _
  rwa [if_pos hheld]

theorem Respected.of_released {watched : Watched} {message : GatewayMessage}
    (h : heldAfter key watched message = false) : Respected key watched message :=
  fun hafter => absurd (h.symm.trans hafter) Bool.false_ne_true

/-- The change that begins it leaves the device disabled exactly when it is seen as it is. -/
theorem disabled?_begin_iff (hdevice : (manager.device? key).isSome = true)
    {message : GatewayMessage} (h : GivesStatus key 8 manager message) :
    (gatewayManagerHandleMessage manager message.topic message.payload).2.manager.disabled? key =
      some true ↔ Disables key manager message := by
  obtain ⟨hkind, change, hchange, -⟩ := h
  obtain ⟨d, hd, -⟩ := Option.bind_eq_some_iff.1 hchange
  obtain ⟨subDevice, hget⟩ := Option.isSome_iff_exists.1 hdevice
  rw [handleMessage_eq, hkind]
  dsimp only
  rw [disabled?_topoChange_iff hget, Disables]
  simp only [readsChange_iff (message.isText d hd), hd, Option.some.injEq, exists_eq_left',
    GatewayManager.disabled?, hget, Option.map_some]

/-- One message keeps the property exactly when it respects the flag. -/
theorem leftAlone_step_iff {watched watched' : Watched} {message : GatewayMessage}
    (hdevice : (watched.manager.device? key).isSome = true) (h : LeftAlone key watched)
    (hstep : (watchMachine key).step watched message = some watched') :
    LeftAlone key watched' ↔ Respected key watched message := by
  cases hstep
  by_cases hafter : heldAfter key watched message = true
  · by_cases hheld : watched.held = true
    · have hone := handleMessage_alone_iff (h hheld).1 message.topic message.payload
      simp only [LeftAlone, Respected, hafter, hheld, Bool.true_and, forall_const, if_true,
        decide_eq_false_iff_not]
      exact hone
    · have hbegin : GivesStatus key 8 watched.manager message := by
        by_contra hno
        rw [heldAfter, if_neg hno] at hafter
        split_ifs at hafter
        exact hheld hafter
      simp only [LeftAlone, Respected, hafter, hheld, Bool.false_and, forall_const, if_false,
        and_true, Bool.false_eq_true]
      exact disabled?_begin_iff hdevice hbegin
  · exact iff_of_true (fun htrue => absurd htrue hafter) (fun htrue => absurd htrue hafter)

/-- **When a disabled sub-device is left alone.**  In any sequence of messages, from any
configuration, a disabled sub-device is left alone in every state if and only if the change
that disables it is seen as it is, and no message up to the one that enables it overrides
the flag. -/
theorem disabled_left_alone_iff (productKey deviceName : Bytes)
    (subDevices : List SubDeviceConfig) (config : SubDeviceConfig) (h : config ∈ subDevices)
    (messages : List GatewayMessage) :
    (watchMachine config.key).Along (LeftAlone config.key)
        ⟨gatewayManagerInit productKey deviceName subDevices, false, false⟩ messages ↔
      (watchMachine config.key).Meets (Respected config.key)
        ⟨gatewayManagerInit productKey deviceName subDevices, false, false⟩ messages := by
  refine Machine.along_iff_meets (I := fun watched : Watched => config ∈ watched.manager.configs)
    ?_ ?_ messages _ ?_ ?_
  · rintro watched message watched' hconfig - hstep
    cases hstep
    rw [configs_handleMessage]
    exact hconfig
  · rintro watched message watched' hconfig halone hstep
    exact leftAlone_step_iff (device?_isSome hconfig) halone hstep
  · have hconfigs : (gatewayManagerInit productKey deviceName subDevices).configs = subDevices := by
      simp [GatewayManager.configs, gatewayManagerInit, Function.comp_def]
    rw [hconfigs]
    exact h
  · intro hheld
    cases hheld

/-! ## A device that is disabled and enabled, and one that is not disabled -/

/-- `{"productKey":"sp","deviceName":"sd"}` -/
def namedItem : Doc .value :=
  .object (.moreMembers (keyName "productKey") (.string (escapedLit (ascii "sp"))) .none
    (.member (keyName "deviceName") (.string (escapedLit (ascii "sd"))) .none))

/-- The item once and `n` times more. -/
def namedItems : ℕ → Doc .elements
  | 0 => .element .none namedItem .none
  | n + 1 => .moreElements .none namedItem .none (namedItems n)

/-- `{"params":{"status":…,"subList":[…]}}` -/
def changeDoc (status : ℤ) (n : ℕ) : Doc .value :=
  .object (.member (keyName "params") (.object
    (.moreMembers (keyName "status") (.scalar (decimalScalar status)) .none
      (.member (keyName "subList") (.array (namedItems n)) .none))) .none)

/-- `{"code":200,"data":[…]}` -/
def syncDoc : Doc .value :=
  .object (.moreMembers (keyName "code") (.scalar (decimalScalar 200)) .none
    (.member (keyName "data") (.array (namedItems 0)) .none))

def changeMessage (status : ℤ) (n : ℕ) (h : (changeDoc status n).legal = true) : GatewayMessage :=
  .ofDoc (ascii "/sys/gp/gd/thing/topo/change") (changeDoc status n) h

/-- The cloud disables the device, and the answer to the request for the topology lists it. -/
def disableThenSync : List GatewayMessage :=
  [changeMessage 8 0 (by decide +kernel),
    .ofDoc (ascii "/sys/gp/gd/thing/topo/get_reply") syncDoc (by decide +kernel)]

/-- The cloud disables the device, and its list names it 120 times. -/
def disableLong : List GatewayMessage := [changeMessage 8 119 (by decide +kernel)]

/-- A configuration with one sub-device. -/
def oneSubDevice : SubDeviceConfig := ⟨ascii "sp", ascii "sd", ascii "secret", ascii "hmacsha256"⟩

/-- What is watched of the device, and its flag, after the messages. -/
def watchedAfter (messages : List GatewayMessage) : Option (Bool × Option Bool × Bool) :=
  ((watchMachine oneSubDevice.key).run
      ⟨gatewayManagerInit (ascii "gp") (ascii "gd") [oneSubDevice], false, false⟩ messages).map
    fun watched => (watched.held, watched.manager.disabled? oneSubDevice.key, watched.asked)

/-- After the answer the device is enabled, and its login has been asked for; after the long
list it has not been disabled. -/
theorem disabled_device_logs_in :
    watchedAfter disableThenSync = some (true, some false, true) ∧
    watchedAfter disableLong = some (true, some false, false) := by
  decide +kernel

/-- The gateway with its device, told apart by the flag of the device. -/
def oneDeviceManager (topoAdded disabled : Bool) : GatewayManager where
  productKey := ascii "gp"
  deviceName := ascii "gd"
  subDevices := [⟨oneSubDevice, topoAdded, false, disabled, ascii "\x7b\x7d"⟩]

/-- Disabled, disabled again, enabled and synchronised, the device is left alone. -/
theorem disabled_left_alone_change :
    (watchMachine oneSubDevice.key).Along (LeftAlone oneSubDevice.key)
      ⟨gatewayManagerInit (ascii "gp") (ascii "gd") [oneSubDevice], false, false⟩
      [changeMessage 8 0 (by decide +kernel), changeMessage 8 0 (by decide +kernel),
        changeMessage 0 0 (by decide +kernel),
        .ofDoc (ascii "/sys/gp/gd/thing/topo/get_reply") syncDoc (by decide +kernel)] := by
  refine (disabled_left_alone_iff _ _ [oneSubDevice] oneSubDevice
    (List.mem_singleton_self _) _).2 ?_
  have hread : ReadsChange (changeDoc 8 0).text 8 oneSubDevice.key :=
    ⟨[oneSubDevice.key], by decide +kernel, List.mem_singleton_self _⟩
  have hseen : ChangeSeen (changeDoc 8 0) 8 oneSubDevice.key :=
    (readsChange_iff ((changeMessage 8 0 (by decide +kernel)).isText _ rfl) 8 _).1 hread
  have hdisable : ∀ topoAdded disabled held, (watchMachine oneSubDevice.key).step
      ⟨oneDeviceManager topoAdded disabled, held, false⟩ (changeMessage 8 0 (by decide +kernel)) =
        some ⟨oneDeviceManager true true, true, false⟩ := by decide +kernel
  have henable : (watchMachine oneSubDevice.key).step ⟨oneDeviceManager true true, true, false⟩
      (changeMessage 0 0 (by decide +kernel)) =
        some ⟨oneDeviceManager true false, false, false⟩ := by decide +kernel
  have hsync : (watchMachine oneSubDevice.key).step ⟨oneDeviceManager true false, false, false⟩
      (.ofDoc (ascii "/sys/gp/gd/thing/topo/get_reply") syncDoc (by decide +kernel)) =
        some ⟨oneDeviceManager true false, false, false⟩ := by decide +kernel
  refine .cons (hdisable false false false) ?_ (.cons (hdisable true true true) ?_
    (.cons henable ?_ (.cons hsync ?_ trivial)))
  · exact Respected.of_begin rfl ⟨changeDoc 8 0, rfl, Or.inl hseen⟩
  · exact Respected.of_held rfl ((handleMessage_alone_iff rfl _ _).1 (by decide +kernel))
  · exact Respected.of_released (by decide +kernel)
  · exact Respected.of_released (by decide +kernel)

end IotIde
