import IotIde.Gateway.Disabled

/-!
# What a message leaves alone

The handlers write to the table of sub-devices by index, in loops over what a message
lists.  A frame says of two tables, place by place, what may differ between them.  The code
of a reply is the first one that is found, at whatever depth, and need not be its own.

* `Differs`, `Frames` — the frame of one sub-device, and of the table;
* `Frames.refl`, `Frames.trans`, `Frames.modify` — no change, two in a row, one place;
* `Frames.visitItems` — a loop changes the places of the devices that its items name;
* `itemsIn` — the devices that a handler reads from a message;
* `message_frames` — the frame of every message, by the code that is read;
* `ChangesOnlyNamed`, `message_frame_iff` — the frame by the code that a reply has itself.
-/

namespace IotIde

open CText JsonText

/-! ## Frames -/

/-- What may differ between two states of a sub-device: its flags under one condition, and
its properties under another. -/
structure Differs (flags properties : Prop) (old new : GatewaySubDeviceState) : Prop where
  config : new.config = old.config
  flags : ¬ flags → new.topoAdded = old.topoAdded ∧ new.disabled = old.disabled ∧
    new.online = old.online
  properties : ¬ properties → new.lastPropertyJson = old.lastPropertyJson

/-- Two tables of the same sub-devices, each of them within its frame. -/
def Frames (flags properties : SubDeviceConfig → Prop) (manager manager' : GatewayManager) : Prop :=
  List.Forall₂ (fun old new => Differs (flags old.config) (properties old.config) old new)
    manager.subDevices manager'.subDevices

theorem Differs.refl (flags properties : Prop) (d : GatewaySubDeviceState) :
    Differs flags properties d d :=
  ⟨rfl, fun _ => ⟨rfl, rfl, rfl⟩, fun _ => rfl⟩

theorem Differs.trans {flags properties : SubDeviceConfig → Prop} {a b c : GatewaySubDeviceState}
    (h : Differs (flags a.config) (properties a.config) a b)
    (h' : Differs (flags b.config) (properties b.config) b c) :
    Differs (flags a.config) (properties a.config) a c := by
  obtain ⟨hconfig, hflags, hproperties⟩ := h'
  rw [h.config] at hflags hproperties
  refine ⟨hconfig.trans h.config, fun hno => ?_, fun hno => ?_⟩
  · obtain ⟨h₁, h₂, h₃⟩ := h.flags hno
    obtain ⟨h₁', h₂', h₃'⟩ := hflags hno
    exact ⟨h₁'.trans h₁, h₂'.trans h₂, h₃'.trans h₃⟩
  · exact (hproperties hno).trans (h.properties hno)

theorem Differs.mono {flags flags' properties properties' : Prop} (hf : flags → flags')
    (hp : properties → properties') {old new : GatewaySubDeviceState}
    (h : Differs flags properties old new) : Differs flags' properties' old new :=
  ⟨h.config, fun hno => h.flags (mt hf hno), fun hno => h.properties (mt hp hno)⟩

section Tables

variable {flags properties : SubDeviceConfig → Prop} {manager manager' manager'' : GatewayManager}

theorem Frames.refl (flags properties : SubDeviceConfig → Prop) (manager : GatewayManager) :
    Frames flags properties manager manager :=
  List.forall₂_same.2 fun _ _ => Differs.refl _ _ _

theorem Frames.trans (h : Frames flags properties manager manager')
    (h' : Frames flags properties manager' manager'') :
    Frames flags properties manager manager'' := by
  refine List.forall₂_iff_get.2 ⟨h.length_eq.trans h'.length_eq, fun i hi hi'' => ?_⟩
  have hi' : i < manager'.subDevices.length := h.length_eq ▸ hi
  exact ((List.forall₂_iff_get.1 h).2 i hi hi').trans ((List.forall₂_iff_get.1 h').2 i hi' hi'')

theorem Frames.mono {flags' properties' : SubDeviceConfig → Prop}
    (hf : ∀ config, flags config → flags' config)
    (hp : ∀ config, properties config → properties' config)
    (h : Frames flags properties manager manager') : Frames flags' properties' manager manager' :=
  h.imp fun _ _ hdiffers => hdiffers.mono (hf _) (hp _)

/-- An update of one place. -/
theorem Frames.modify {index : ℕ} {f : GatewaySubDeviceState → GatewaySubDeviceState}
    (hf : ∀ d, manager.subDevices[index]? = some d →
      Differs (flags d.config) (properties d.config) d (f d)) :
    Frames flags properties manager (manager.modify index f) := by
  refine List.forall₂_iff_get.2 ⟨(List.length_modify ..).symm, fun i hi hi' => ?_⟩
  simp only [GatewayManager.modify, List.get_eq_getElem, List.getElem_modify]
  split_ifs with hindex
  · subst hindex
    exact hf _ (List.getElem?_eq_getElem hi)
  · exact Differs.refl _ _ _

/-- A loop changes the places of the devices that its items name. -/
theorem Frames.visitItems {f : GatewaySubDeviceState → GatewaySubDeviceState}
    {request : SubDeviceConfig → List GatewayPublication} {items : List (Bytes × Bytes)}
    (hf : ∀ d, Differs True (properties d.config) d (f d)) :
    ∀ manager : GatewayManager, Frames (fun config => config.key ∈ items) properties manager
      (visitItems (visitWith f request) manager items).manager := by
  induction items with
  | nil => exact fun manager => Frames.refl _ _ manager
  | cons item items ih =>
    intro manager
    have hrest : ∀ manager, Frames (fun config => config.key ∈ item :: items) properties manager
        (IotIde.visitItems (visitWith f request) manager items).manager :=
      fun manager => (ih manager).mono (fun _ h => List.mem_cons_of_mem _ h) fun _ h => h
    rw [visitItems_cons]
    cases hitem : manager.indexOf? item with
    | none => exact hrest manager
    | some index =>
      obtain ⟨d, hget, hkey⟩ := configs_of_indexOf? hitem
      refine Frames.trans (Frames.modify fun d' hget' => ?_) (hrest _)
      cases hget.symm.trans hget'
      exact (hf d).mono (fun _ => hkey ▸ List.mem_cons_self) fun h => h

end Tables

/-! ## The handlers -/

theorem setTopo_differs (topoAdded disabled online : Bool) (properties : Prop)
    (d : GatewaySubDeviceState) : Differs True properties d (d.setTopo topoAdded disabled online) :=
  ⟨rfl, fun h => absurd trivial h, fun _ => rfl⟩

theorem changeDevice_differs (status : ℤ) (properties : Prop) (d : GatewaySubDeviceState) :
    Differs True properties d (changeDevice status d) := by
  unfold changeDevice
  split_ifs
  · exact setTopo_differs _ _ _ _ d
  · exact setTopo_differs _ _ _ _ d
  · exact setTopo_differs _ _ _ _ d
  · exact Differs.refl _ _ d

/-- The device that a combine reply names. -/
def combineItem (payload : Bytes) : Option (Bytes × Bytes) :=
  (Extract.value? (jsonGetObject payload (ascii "data")) 512).bind readDevice

/-- The devices that a message names, as the handler of its topic reads them. -/
def itemsIn (manager : GatewayManager) (topic payload : Bytes) : List (Bytes × Bytes) :=
  match manager.topicKind topic with
  | .topoGetReply | .topoAddReply => devicesIn payload (ascii "data")
  | .topoAddNotify => devicesIn payload (ascii "params")
  | .topoChange => ((topoChangeIn payload).map Prod.snd).getD []
  | .combineReply => (combineItem payload).toList
  | .unhandled | .listFoundReply | .subDevice => []

/-- A topic that sets the properties of a sub-device. -/
def SubDeviceConfig.SetsProperties (topic : Bytes) (config : SubDeviceConfig) : Prop :=
  topic = config.servicePrefix ++ ascii "property/set"

section Handlers

variable (manager : GatewayManager) (payload : Bytes) {properties : SubDeviceConfig → Prop}

theorem frames_topoAddReply :
    Frames (fun config => config.key ∈ devicesIn payload (ascii "data")) properties manager
      (gatewayHandleTopoAddReply manager payload).manager := by
  by_cases hok : replyOk payload = true
  · rw [topoAddReply_eq manager payload hok]
    exact Frames.visitItems (fun d => setTopo_differs _ _ _ _ d) manager
  · rw [gatewayHandleTopoAddReply, if_pos (Bool.eq_false_iff.2 hok)]
    exact Frames.refl _ _ manager

theorem frames_topoAddNotify :
    Frames (fun config => config.key ∈ devicesIn payload (ascii "params")) properties manager
      (gatewayHandleTopoAddNotify manager payload).manager := by
  rw [topoAddNotify_eq]
  exact Frames.visitItems (fun d => Differs.refl _ _ d) manager

theorem frames_topoChange :
    Frames (fun config => config.key ∈ ((topoChangeIn payload).map Prod.snd).getD []) properties
      manager (gatewayHandleTopoChange manager payload).manager := by
  rw [topoChange_eq]
  cases topoChangeIn payload with
  | none => exact Frames.refl _ _ manager
  | some change => exact Frames.visitItems (fun d => changeDevice_differs _ _ d) manager

theorem combineDevice_eq : combineDevice manager payload =
    if replyOk payload = false then none else (combineItem payload).bind manager.indexOf? := by
  unfold combineDevice combineItem
  split_ifs
  · rfl
  · cases Extract.value? (jsonGetObject payload (ascii "data")) 512 with
    | none => rfl
    | some data =>
      simp only [Option.bind_some]
      cases readDevice data <;> rfl

theorem frames_combineReply (topic : Bytes) :
    Frames (fun config => config.key ∈ (combineItem payload).toList) properties manager
      (gatewayHandleCombineReply manager topic payload).manager := by
  unfold gatewayHandleCombineReply
  cases hdevice : combineDevice manager payload with
  | none => exact Frames.refl _ _ manager
  | some index =>
    rw [combineDevice_eq] at hdevice
    split_ifs at hdevice
    obtain ⟨item, hitem, hindex⟩ := Option.bind_eq_some_iff.1 hdevice
    obtain ⟨d, hget, hkey⟩ := configs_of_indexOf? hindex
    refine Frames.modify fun d' hget' => ⟨rfl, fun hno => absurd ?_ hno, fun _ => rfl⟩
    cases hget.symm.trans hget'
    rw [hkey, hitem]
    exact List.mem_singleton_self item

/-- Properties are stored for the sub-device that the message is handed to, on its topic. -/
theorem frames_handleSubService {flags : SubDeviceConfig → Prop} {index : ℕ}
    {d : GatewaySubDeviceState} (hget : manager.subDevices[index]? = some d) {topic path : Bytes}
    (htopic : topic = d.config.servicePrefix ++ path) :
    Frames flags (SubDeviceConfig.SetsProperties topic) manager
      (handleSubService manager index d path payload).manager := by
  unfold handleSubService
  dsimp only
  by_cases hset : path = ascii "property/set"
  · rw [if_pos hset]
    cases Extract.value? (jsonGetObject payload (ascii "params")) 1024 with
    | none => exact Frames.refl _ _ manager
    | some params =>
      refine Frames.modify fun d' hget' => ⟨rfl, fun _ => ⟨rfl, rfl, rfl⟩, fun hno => absurd ?_ hno⟩
      cases hget.symm.trans hget'
      rw [SubDeviceConfig.SetsProperties, htopic, hset]
  · rw [if_neg hset]
    split_ifs
    · exact Frames.refl _ _ manager
    · exact Frames.refl _ _ manager

theorem frames_subService (topic : Bytes) (flags : SubDeviceConfig → Prop) :
    Frames flags (SubDeviceConfig.SetsProperties topic) manager
      ((gatewayHandleSubServiceMessage manager topic payload).getD ⟨manager, []⟩).manager := by
  cases hsub : gatewayHandleSubServiceMessage manager topic payload with
  | none => exact Frames.refl _ _ manager
  | some handled =>
    unfold gatewayHandleSubServiceMessage at hsub
    cases hindex : manager.subDevices.findIdx? fun d => d.config.servicePrefix.isPrefixOf topic with
    | none =>
      rw [hindex] at hsub
      cases hsub
    | some index =>
      rw [hindex] at hsub
      obtain ⟨d, hget, rfl⟩ := Option.map_eq_some_iff.1 hsub
      obtain ⟨hlt, hprefix, -⟩ := List.findIdx?_eq_some_iff_getElem.1 hindex
      rw [List.getElem?_eq_getElem hlt, Option.some.injEq] at hget
      rw [hget] at hprefix
      obtain ⟨path, rfl⟩ := List.isPrefixOf_iff_prefix.1 hprefix
      rw [List.drop_left, Option.getD_some]
      exact frames_handleSubService manager payload
        (by rw [List.getElem?_eq_getElem hlt, hget]) rfl

/-- A topo get reply that is not successful does nothing. -/
theorem topoGetReply_refused (h : replyOk payload = false) :
    gatewayHandleTopoGetReply manager payload = ⟨manager, []⟩ := by
  rw [gatewayHandleTopoGetReply, if_pos h]

theorem topoAddReply_refused (h : replyOk payload = false) :
    gatewayHandleTopoAddReply manager payload = ⟨manager, []⟩ := by
  rw [gatewayHandleTopoAddReply, if_pos h]

theorem combineReply_refused (topic : Bytes) (h : replyOk payload = false) :
    gatewayHandleCombineReply manager topic payload = ⟨manager, []⟩ := by
  rw [gatewayHandleCombineReply, combineDevice_eq, if_pos h]

end Handlers

/-! ## Every message -/

/-- A topo get reply whose code is read as 200, which may change the flags of every device. -/
def TopoGetSucceeded (manager : GatewayManager) (topic payload : Bytes) : Prop :=
  topic = manager.topoTopic (ascii "get_reply") ∧ replyOk payload = true

/-- The reply topics of the four requests that carry a code. -/
def IsCodedReply (manager : GatewayManager) (topic : Bytes) : Prop :=
  topic = manager.topoTopic (ascii "get_reply") ∨ topic = manager.topoTopic (ascii "add_reply") ∨
    topic = manager.combineTopic (ascii "login_reply") ∨
    topic = manager.combineTopic (ascii "logout_reply")

section Messages

variable (manager : GatewayManager) (topic payload : Bytes)

theorem topicKind_topoGetReply {manager : GatewayManager} {topic : Bytes}
    (h : manager.topicKind topic = .topoGetReply) :
    topic = manager.topoTopic (ascii "get_reply") := by
  unfold GatewayManager.topicKind at h
  split_ifs at h with _ hget
  exact hget

/-- The frame of a message: the flags of the devices it names, and the properties of the
device that its topic sets them for. -/
theorem message_frames (h : ¬ TopoGetSucceeded manager topic payload) :
    Frames (fun config => config.key ∈ itemsIn manager topic payload)
      (SubDeviceConfig.SetsProperties topic) manager
      (gatewayManagerHandleMessage manager topic payload).2.manager := by
  rw [handleMessage_eq]
  unfold itemsIn
  cases hkind : manager.topicKind topic with
  | unhandled => exact Frames.refl _ _ manager
  | topoGetReply =>
    have hrefused : replyOk payload = false := by
      rw [← Bool.not_eq_true]
      exact fun hok => h ⟨topicKind_topoGetReply hkind, hok⟩
    simp only [topoGetReply_refused manager payload hrefused]
    exact Frames.refl _ _ manager
  | topoAddReply => exact frames_topoAddReply manager payload
  | topoAddNotify => exact frames_topoAddNotify manager payload
  | topoChange => exact frames_topoChange manager payload
  | listFoundReply => exact Frames.refl _ _ manager
  | combineReply => exact frames_combineReply manager payload topic
  | subDevice => exact frames_subService manager payload topic _

theorem frames_resetSubDevices (properties : SubDeviceConfig → Prop) :
    Frames (fun _ => True) properties manager (resetSubDevices manager) :=
  List.forall₂_map_right_iff.2 (List.forall₂_same.2 fun d _ => setTopo_differs _ _ _ _ d)

/-- No message changes any properties but those that its topic sets. -/
theorem message_frames_properties :
    Frames (fun _ => True) (SubDeviceConfig.SetsProperties topic) manager
      (gatewayManagerHandleMessage manager topic payload).2.manager := by
  by_cases hget : TopoGetSucceeded manager topic payload
  · rw [gatewayManagerHandleMessage]
    by_cases hnone : manager.subDevices = []
    · rw [if_pos hnone]
      exact Frames.refl _ _ manager
    · rw [if_neg hnone, if_pos hget.1]
      simp only [topoGetReply_eq manager payload hget.2]
      exact (frames_resetSubDevices manager _).trans
        ((Frames.visitItems (fun d => setTopo_differs _ _ _ _ d) _).mono (fun _ _ => trivial)
          fun _ h => h)
  · exact (message_frames manager topic payload hget).mono (fun _ _ => trivial) fun _ h => h

theorem combineTopic_ne_topoTopic (suffix suffix' : Bytes) :
    manager.combineTopic suffix ≠ manager.topoTopic suffix' := by
  intro h
  have hat := congrArg (fun text : Bytes => text[1]?) h
  simp only [GatewayManager.combineTopic, GatewayManager.topoTopic, snprintf] at hat
  rw [List.getElem?_take_of_lt (by decide), List.getElem?_take_of_lt (by decide),
    List.getElem?_append_left (by decide), List.getElem?_append_left (by decide)] at hat
  exact absurd hat (by decide)

/-- What a reply that carries a code leads to. -/
theorem codedReply_kind (h : IsCodedReply manager topic) :
    manager.topicKind topic = .unhandled ∨ manager.topicKind topic = .topoGetReply ∨
      manager.topicKind topic = .topoAddReply ∨ manager.topicKind topic = .listFoundReply ∨
      manager.topicKind topic = .combineReply := by
  have hcombine : ∀ suffix, topic = manager.topoTopic suffix →
      topic ≠ manager.topoTopic (ascii "get_reply") →
      topic ≠ manager.topoTopic (ascii "add_reply") → False := by
    rintro suffix htopo hget hadd
    rcases h with h | h | h | h
    · exact hget h
    · exact hadd h
    · exact combineTopic_ne_topoTopic manager _ _ (h.symm.trans htopo)
    · exact combineTopic_ne_topoTopic manager _ _ (h.symm.trans htopo)
  unfold GatewayManager.topicKind
  split_ifs with _ hget hadd hnotify hchange _ hsession
  · simp
  · simp
  · simp
  · exact absurd (hcombine _ hnotify hget hadd) not_false
  · exact absurd (hcombine _ hchange hget hadd) not_false
  · simp
  · simp
  · rcases h with h | h | h
    · exact absurd h hget
    · exact absurd h hadd
    · exact absurd h hsession

/-- A reply whose code is not read as 200 does nothing. -/
theorem codedReply_refused (h : IsCodedReply manager topic) (hno : replyOk payload = false) :
    (gatewayManagerHandleMessage manager topic payload).2 = ⟨manager, []⟩ := by
  rw [handleMessage_eq]
  rcases codedReply_kind manager topic h with hkind | hkind | hkind | hkind | hkind <;> rw [hkind]
  · exact topoGetReply_refused manager payload hno
  · exact topoAddReply_refused manager payload hno
  · exact combineReply_refused manager payload topic hno

/-- A loop over devices that are not configured does nothing. -/
theorem visitItems_unknown (visit : GatewayManager → ℕ → GatewayHandled)
    {items : List (Bytes × Bytes)} (h : ∀ item ∈ items, manager.indexOf? item = none) :
    visitItems visit manager items = ⟨manager, []⟩ := by
  induction items with
  | nil => rfl
  | cons item items ih =>
    rw [visitItems_cons, h item List.mem_cons_self]
    exact ih fun other hother => h other (List.mem_cons_of_mem _ hother)

/-- What is not configured is not found. -/
theorem indexOf?_unknown {key : Bytes × Bytes}
    (h : key ∉ manager.configs.map SubDeviceConfig.key) : manager.indexOf? key = none := by
  rw [indexOf?_eq, List.findIdx?_eq_none_iff]
  intro config hconfig
  exact beq_eq_false_iff_ne.2 fun hkey => h (hkey ▸ List.mem_map_of_mem hconfig)

/-- Nor does a reply that is read as successful, and names no device that is configured,
unless it is a topo get reply. -/
theorem codedReply_unknown (h : IsCodedReply manager topic) (hget : topic ≠
      manager.topoTopic (ascii "get_reply")) (hok : replyOk payload = true)
    (hitems : ∀ key ∈ itemsIn manager topic payload,
      key ∉ manager.configs.map SubDeviceConfig.key) :
    (gatewayManagerHandleMessage manager topic payload).2 = ⟨manager, []⟩ := by
  rw [handleMessage_eq]
  unfold itemsIn at hitems
  rcases codedReply_kind manager topic h with hkind | hkind | hkind | hkind | hkind <;>
    rw [hkind] <;> rw [hkind] at hitems
  · exact absurd (topicKind_topoGetReply hkind) hget
  · dsimp only
    rw [topoAddReply_eq manager payload hok]
    exact visitItems_unknown manager _ fun item hitem =>
      indexOf?_unknown manager (hitems item hitem)
  · have hnone : combineDevice manager payload = none := by
      rw [combineDevice_eq, if_neg (by simp [hok])]
      cases hitem : combineItem payload with
      | none => rfl
      | some item =>
        exact indexOf?_unknown manager (hitems item (by simp [hitem]))
    dsimp only
    rw [gatewayHandleCombineReply, hnone]

end Messages

/-! ## The codes that replies have themselves -/

/-- The two managers have the same sub-devices, whatever their states are. -/
structure SameDevices (manager manager' : GatewayManager) : Prop where
  productKey : manager'.productKey = manager.productKey
  deviceName : manager'.deviceName = manager.deviceName
  configs : manager'.configs = manager.configs

/-- No message changes how many sub-devices there are or their configurations.  But for a topo
get reply with code 200 it changes the flags of a sub-device only if it names the device, and
it changes the properties of a sub-device only on the topic that sets them.  A coded reply
without code 200 changes nothing at all. -/
structure ChangesOnlyNamed (manager : GatewayManager) (message : GatewayMessage)
    (handled : GatewayHandled) : Prop where
  count : handled.manager.subDevices.length = manager.subDevices.length
  configs : handled.manager.configs = manager.configs
  flags : (message.topic = manager.topoTopic (ascii "get_reply") → ¬ message.HasCode200) →
    ∀ (j : ℕ) (old new : GatewaySubDeviceState), manager.subDevices[j]? = some old →
      handled.manager.subDevices[j]? = some new →
      new.topoAdded ≠ old.topoAdded ∨ new.disabled ≠ old.disabled ∨ new.online ≠ old.online →
      old.config.key ∈ itemsIn manager message.topic message.payload
  properties : ∀ (j : ℕ) (old new : GatewaySubDeviceState),
    manager.subDevices[j]? = some old → handled.manager.subDevices[j]? = some new →
      new.lastPropertyJson ≠ old.lastPropertyJson → old.config.SetsProperties message.topic
  refused : IsCodedReply manager message.topic → ¬ message.HasCode200 → handled = ⟨manager, []⟩

/-- A coded reply without code 200 is not read as one with code 200, unless it then meets no
sub-device: there is none, or it is no topo get reply and names none that is configured. -/
def CodeReadRight (manager : GatewayManager) (message : GatewayMessage) : Prop :=
  IsCodedReply manager message.topic → ¬ message.HasCode200 → replyOk message.payload = true →
    manager.subDevices = [] ∨ message.topic ≠ manager.topoTopic (ascii "get_reply") ∧
      ∀ key ∈ itemsIn manager message.topic message.payload,
        key ∉ manager.configs.map SubDeviceConfig.key

section Codes

variable {manager manager' : GatewayManager} {message : GatewayMessage}

theorem SameDevices.subDevices_eq_nil (h : SameDevices manager manager') :
    manager'.subDevices = [] ↔ manager.subDevices = [] := by
  have hconfigs := h.configs
  unfold GatewayManager.configs at hconfigs
  rw [← List.map_eq_nil_iff, hconfigs, List.map_eq_nil_iff]

theorem SameDevices.topoTopic (h : SameDevices manager manager') (suffix : Bytes) :
    manager'.topoTopic suffix = manager.topoTopic suffix := by
  rw [GatewayManager.topoTopic, GatewayManager.topoTopic, h.productKey, h.deviceName]

theorem SameDevices.isCodedReply (h : SameDevices manager manager') (topic : Bytes) :
    IsCodedReply manager' topic ↔ IsCodedReply manager topic := by
  simp only [IsCodedReply, h.topoTopic, GatewayManager.combineTopic, h.productKey, h.deviceName]

theorem SameDevices.topicKind (h : SameDevices manager manager') (topic : Bytes) :
    manager'.topicKind topic = manager.topicKind topic := by
  have hnone := h.subDevices_eq_nil
  obtain ⟨productKey, deviceName, subDevices⟩ := manager
  obtain ⟨productKey', deviceName', subDevices'⟩ := manager'
  obtain ⟨rfl, rfl, -⟩ := h
  unfold GatewayManager.topicKind
  by_cases hnil : subDevices = []
  · rw [if_pos hnil, if_pos (hnone.2 hnil)]
  · rw [if_neg hnil, if_neg (mt hnone.1 hnil)]
    rfl

theorem SameDevices.itemsIn (h : SameDevices manager manager') (topic payload : Bytes) :
    itemsIn manager' topic payload = itemsIn manager topic payload := by
  rw [IotIde.itemsIn, IotIde.itemsIn, h.topicKind]

theorem SameDevices.codeReadRight (h : SameDevices manager manager')
    (hright : CodeReadRight manager message) : CodeReadRight manager' message := by
  unfold CodeReadRight at hright ⊢
  rwa [h.isCodedReply, h.subDevices_eq_nil, h.topoTopic, h.itemsIn, h.configs]

/-- A reply that is read right changes only what it names. -/
theorem changesOnlyNamed (hright : CodeReadRight manager message) :
    ChangesOnlyNamed manager message
      (gatewayManagerHandleMessage manager message.topic message.payload).2 := by
  have hproperties := message_frames_properties manager message.topic message.payload
  have hat : ∀ {flags properties : SubDeviceConfig → Prop} {j : ℕ}
      {old new : GatewaySubDeviceState}, Frames flags properties manager
        (gatewayManagerHandleMessage manager message.topic message.payload).2.manager →
      manager.subDevices[j]? = some old →
      (gatewayManagerHandleMessage manager message.topic
        message.payload).2.manager.subDevices[j]? = some new →
        Differs (flags old.config) (properties old.config) old new := by
    intro flags properties j old new hframes hold hnew
    obtain ⟨hj, hget⟩ := List.getElem?_eq_some_iff.1 hold
    obtain ⟨hj', hget'⟩ := List.getElem?_eq_some_iff.1 hnew
    have hdiffers := (List.forall₂_iff_get.1 hframes).2 j hj hj'
    rwa [List.get_eq_getElem, List.get_eq_getElem, hget, hget'] at hdiffers
  refine ⟨hproperties.length_eq.symm, configs_handleMessage manager _ _, ?_, ?_, ?_⟩
  · intro hother j old new hold hnew hflags
    by_contra hno
    have hsucceeded : ¬ TopoGetSucceeded manager message.topic message.payload := by
      rintro ⟨htopic, hok⟩
      rcases hright (Or.inl htopic) (hother htopic) hok with hnone | ⟨hne, -⟩
      · rw [hnone] at hold
        cases hold
      · exact hne htopic
    obtain ⟨h₁, h₂, h₃⟩ :=
      (hat (message_frames manager _ _ hsucceeded) hold hnew).flags hno
    rcases hflags with h | h | h
    · exact h h₁
    · exact h h₂
    · exact h h₃
  · intro j old new hold hnew hchanged
    by_contra hno
    exact hchanged ((hat hproperties hold hnew).properties hno)
  · intro hcoded hcode
    cases hok : replyOk message.payload with
    | false => exact codedReply_refused manager _ _ hcoded hok
    | true =>
      rcases hright hcoded hcode hok with hnone | ⟨hget, hitems⟩
      · rw [gatewayManagerHandleMessage, if_pos hnone]
      · exact codedReply_unknown manager _ _ hcoded hget hok hitems

/-- The manager in a state that every successful reply changes: all devices are disabled, and
online if the reply is not that of a login. -/
def unsettled (manager : GatewayManager) (topic : Bytes) : GatewayManager :=
  { manager with
    subDevices := manager.subDevices.map fun d =>
      { d with disabled := true, online := !isLogin topic } }

theorem sameDevices_unsettled (manager : GatewayManager) (topic : Bytes) :
    SameDevices manager (unsettled manager topic) :=
  ⟨rfl, rfl, by simp [GatewayManager.configs, unsettled, Function.comp_def]⟩

/-- What a name leads to there. -/
theorem device?_unsettled {manager : GatewayManager} (topic : Bytes) {key : Bytes × Bytes}
    (hkey : key ∈ manager.configs.map SubDeviceConfig.key) :
    ∃ d, (unsettled manager topic).device? key = some d ∧ d.disabled = true ∧
      d.online = !isLogin topic := by
  obtain ⟨config, hconfig, rfl⟩ := List.mem_map.1 hkey
  rw [← (sameDevices_unsettled manager topic).configs] at hconfig
  obtain ⟨d, hd⟩ := Option.isSome_iff_exists.1 (device?_isSome hconfig)
  obtain ⟨index, -, hget⟩ := Option.bind_eq_some_iff.1 hd
  obtain ⟨old, -, rfl⟩ := List.mem_map.1 (List.mem_of_getElem? hget)
  exact ⟨_, hd, rfl, rfl⟩

/-- A reply to a login or a logout sets the flag of its device to what it is not. -/
theorem combineReply_unsettled {topic payload : Bytes} {key : Bytes × Bytes}
    (hkey : key ∈ manager.configs.map SubDeviceConfig.key) (hok : replyOk payload = true)
    (hitem : combineItem payload = some key) :
    gatewayHandleCombineReply (unsettled manager topic) topic payload ≠
      ⟨unsettled manager topic, []⟩ := by
  intro hunchanged
  obtain ⟨d, hd, -, honline⟩ := device?_unsettled topic hkey
  obtain ⟨index, hindex, hat⟩ := Option.bind_eq_some_iff.1 hd
  have hdevice : combineDevice (unsettled manager topic) payload = some index := by
    rw [combineDevice_eq, if_neg (by simp [hok]), hitem, Option.bind_some, hindex]
  rw [gatewayHandleCombineReply, hdevice] at hunchanged
  have hafter := congrArg (fun handled : GatewayHandled =>
    (handled.manager.subDevices[index]?).map GatewaySubDeviceState.online) hunchanged
  simp only [GatewayManager.updateOnlineState, GatewayManager.modify, List.getElem?_modify, hat,
    Option.map_some, if_true, honline] at hafter
  exact absurd hafter (by simp)

/-- Such a state shows that a successful reply changes something. -/
theorem unsettled_changes {topic payload : Bytes} {key : Bytes × Bytes}
    (hkey : key ∈ manager.configs.map SubDeviceConfig.key) (hcoded : IsCodedReply manager topic)
    (hok : replyOk payload = true) (hnamed : topic = manager.topoTopic (ascii "get_reply") ∨
      key ∈ itemsIn manager topic payload) :
    (gatewayManagerHandleMessage (unsettled manager topic) topic payload).2 ≠
      ⟨unsettled manager topic, []⟩ := by
  have hsame := sameDevices_unsettled manager topic
  obtain ⟨d, hd, hdisabled, -⟩ := device?_unsettled topic hkey
  have hflag : (unsettled manager topic).disabled? key = some true := by
    rw [GatewayManager.disabled?, hd, Option.map_some, hdisabled]
  have hne : manager.subDevices ≠ [] := by
    intro hnone
    rw [GatewayManager.configs, hnone] at hkey
    cases hkey
  rw [← hsame.isCodedReply] at hcoded
  rw [← hsame.topoTopic, ← hsame.itemsIn] at hnamed
  rw [handleMessage_eq]
  intro hunchanged
  have hget : topic ≠ (unsettled manager topic).topoTopic (ascii "get_reply") := by
    intro htopic
    have hkind : (unsettled manager topic).topicKind topic = .topoGetReply := by
      rw [GatewayManager.topicKind, if_neg (mt hsame.subDevices_eq_nil.1 hne), if_pos htopic]
    rw [hkind] at hunchanged
    have halone := alone_unchanged hflag
    rw [← hunchanged] at halone
    exact (alone_topoGetReply_iff hflag payload).1 halone hok
  have hmem := hnamed.resolve_left hget
  unfold itemsIn at hmem
  rcases codedReply_kind _ topic hcoded with hkind | hkind | hkind | hkind | hkind <;>
    rw [hkind] at hunchanged hmem
  · cases hmem
  · exact hget (topicKind_topoGetReply hkind)
  · have halone := alone_unchanged hflag
    rw [← hunchanged] at halone
    exact (alone_topoAddReply_iff hflag payload).1 halone ⟨hok, hmem⟩
  · cases hmem
  · exact combineReply_unsettled hkey hok (Option.mem_toList.1 hmem) hunchanged

/-- **Gateway messages change only what they name.**  A message does so in every state of the
sub-devices exactly when it is no coded reply without code 200 that is read as one with code
200 and then meets a sub-device. -/
theorem message_frame_iff (manager : GatewayManager) (message : GatewayMessage) :
    (∀ manager', SameDevices manager manager' → ChangesOnlyNamed manager' message
      (gatewayManagerHandleMessage manager' message.topic message.payload).2) ↔
    CodeReadRight manager message := by
  constructor
  · intro h hcoded hcode hok
    by_contra hno
    obtain ⟨hne, hnamed⟩ := not_or.1 hno
    have hunchanged := (h _ (sameDevices_unsettled manager message.topic)).refused
      (((sameDevices_unsettled manager message.topic).isCodedReply _).2 hcoded) hcode
    obtain ⟨d, ds, hcons⟩ := List.exists_cons_of_ne_nil hne
    have hfirst : d.config.key ∈ manager.configs.map SubDeviceConfig.key := by
      simp [GatewayManager.configs, hcons]
    by_cases hget : message.topic = manager.topoTopic (ascii "get_reply")
    · exact unsettled_changes hfirst hcoded hok (Or.inl hget) hunchanged
    · simp only [ne_eq, hget, not_false_eq_true, true_and, not_forall, not_not] at hnamed
      obtain ⟨key, hmem, hkey⟩ := hnamed
      exact unsettled_changes hkey hcoded hok (Or.inr hmem) hunchanged
  · exact fun hright manager' hsame => changesOnlyNamed (hsame.codeReadRight hright)

end Codes

/-- `{"data":[{"productKey":"sp","deviceName":"sd","code":200}],"code":500}` -/
def refusedDoc : Doc .value :=
  .object (.moreMembers (keyName "data") (.array (.element .none (.object
    (.moreMembers (keyName "productKey") (.string (escapedLit (ascii "sp"))) .none
      (.moreMembers (keyName "deviceName") (.string (escapedLit (ascii "sd"))) .none
        (.member (keyName "code") (.scalar (decimalScalar 200)) .none)))) .none)) .none
    (.member (keyName "code") (.scalar (decimalScalar 500)) .none))

/-- A reply on one of the topics of the topology, with code 500. -/
def refusedReply (suffix : String) : GatewayMessage :=
  .ofDoc ((oneDeviceManager true true).topoTopic (ascii suffix)) refusedDoc (by decide +kernel)

/-- After such a reply to the request for the topology, or to a topo add, the device is
enabled, and its login is asked for. -/
theorem refused_reply_changes :
    ¬ (refusedReply "get_reply").HasCode200 ∧ ¬ (refusedReply "add_reply").HasCode200 ∧
    (gatewayManagerHandleMessage (oneDeviceManager true true) (refusedReply "get_reply").topic
      (refusedReply "get_reply").payload).2 =
        ⟨oneDeviceManager true false, [.login oneSubDevice]⟩ ∧
    (gatewayManagerHandleMessage (oneDeviceManager true true) (refusedReply "add_reply").topic
      (refusedReply "add_reply").payload).2 =
        ⟨oneDeviceManager true false, [.login oneSubDevice]⟩ :=
  ⟨by decide +kernel, by decide +kernel, by decide +kernel, by decide +kernel⟩

end IotIde
