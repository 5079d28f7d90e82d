import IotIde.Gateway.Manager

/-!
# The sub-devices by name

A message names a sub-device by its product key and device name, and every loop over such
names does one thing to the first sub-device of that name and asks for one thing.

* `GatewayManager.device?` — the sub-device a name leads to;
* `visitWith` — a round of such a loop, by what it does and what it asks for;
* `device?_visitItems`, `askedFor_visitItems` — the whole loop, seen from one device;
* `devicesIn`, `topoGetReply_eq`, … — the handlers as such loops;
* `GatewayTopic`, `handleMessage_eq` — the dispatch by the kind of topic;
* `configs_handleMessage` — no message changes what is configured.
-/

namespace IotIde

open CText

/-- The name of a sub-device: its product key and device name. -/
def SubDeviceConfig.key (config : SubDeviceConfig) : Bytes × Bytes :=
  (config.productKey, config.deviceName)

namespace GatewayManager

/-- The configurations, in the order of the table. -/
def configs (manager : GatewayManager) : List SubDeviceConfig :=
  manager.subDevices.map GatewaySubDeviceState.config

/-- The index of the first sub-device of a name. -/
def indexOf? (manager : GatewayManager) (key : Bytes × Bytes) : Option ℕ :=
  manager.findSubDeviceIndex key.1 key.2

/-- The first sub-device of a name. -/
def device? (manager : GatewayManager) (key : Bytes × Bytes) : Option GatewaySubDeviceState :=
  (manager.indexOf? key).bind fun index => manager.subDevices[index]?

end GatewayManager

/-! ## Looking up -/

section Lookup

variable {manager manager' : GatewayManager}

/-- A search looks at the configurations only. -/
theorem indexOf?_eq (manager : GatewayManager) (key : Bytes × Bytes) :
    manager.indexOf? key = manager.configs.findIdx? fun config => config.key == key := by
  rw [GatewayManager.configs, List.findIdx?_map]
  rfl

theorem indexOf?_congr (h : manager.configs = manager'.configs) (key : Bytes × Bytes) :
    manager.indexOf? key = manager'.indexOf? key := by
  rw [indexOf?_eq, indexOf?_eq, h]

/-- What is found has the name. -/
theorem configs_of_indexOf? {key : Bytes × Bytes} {index : ℕ}
    (h : manager.indexOf? key = some index) :
    ∃ subDevice, manager.subDevices[index]? = some subDevice ∧ subDevice.config.key = key := by
  obtain ⟨hlt, hkey, -⟩ := List.findIdx?_eq_some_iff_getElem.1 h
  refine ⟨manager.subDevices[index], List.getElem?_eq_getElem hlt, ?_⟩
  obtain ⟨hproduct, hdevice⟩ := (Bool.and_eq_true _ _).mp hkey
  exact Prod.ext (eq_of_beq hproduct) (eq_of_beq hdevice)

/-- Two names do not lead to one place. -/
theorem key_eq_of_indexOf? {key key' : Bytes × Bytes} {index : ℕ}
    (h : manager.indexOf? key = some index) (h' : manager.indexOf? key' = some index) :
    key = key' := by
  obtain ⟨subDevice, hget, hkey⟩ := configs_of_indexOf? h
  obtain ⟨subDevice', hget', hkey'⟩ := configs_of_indexOf? h'
  cases hget.symm.trans hget'
  exact hkey.symm.trans hkey'

theorem device?_of_indexOf? {key : Bytes × Bytes} {index : ℕ}
    (h : manager.indexOf? key = some index) :
    manager.device? key = manager.subDevices[index]? := by
  rw [GatewayManager.device?, h]
  rfl

theorem device?_key {key : Bytes × Bytes} {subDevice : GatewaySubDeviceState}
    (h : manager.device? key = some subDevice) : subDevice.config.key = key := by
  obtain ⟨index, hindex, hget⟩ := Option.bind_eq_some_iff.1 h
  obtain ⟨subDevice', hget', hkey⟩ := configs_of_indexOf? hindex
  cases hget.symm.trans hget'
  exact hkey

/-- A configured name is found. -/
theorem device?_isSome {config : SubDeviceConfig} (h : config ∈ manager.configs) :
    (manager.device? config.key).isSome = true := by
  have hfound : (manager.indexOf? config.key).isSome = true := by
    rw [indexOf?_eq, List.findIdx?_isSome]
    exact List.any_eq_true.2 ⟨config, h, beq_self_eq_true _⟩
  obtain ⟨index, hindex⟩ := Option.isSome_iff_exists.1 hfound
  obtain ⟨subDevice, hget, -⟩ := configs_of_indexOf? hindex
  rw [device?_of_indexOf? hindex, hget]
  rfl

end Lookup

/-! ## Updating -/

section Updates

variable {manager : GatewayManager} {f : GatewaySubDeviceState → GatewaySubDeviceState}

theorem configs_modify (hf : ∀ subDevice, (f subDevice).config = subDevice.config) (index : ℕ) :
    (manager.modify index f).configs = manager.configs := by
  refine List.ext_getElem? fun i => ?_
  simp only [GatewayManager.configs, GatewayManager.modify, List.getElem?_map,
    List.getElem?_modify]
  cases manager.subDevices[i]? with
  | none => rfl
  | some subDevice =>
    by_cases hi : index = i
    · simp [hi, hf]
    · simp [hi]

/-- An update of one place, seen from a name. -/
theorem device?_modify (hf : ∀ subDevice, (f subDevice).config = subDevice.config) (index : ℕ)
    (key : Bytes × Bytes) :
    (manager.modify index f).device? key =
      if manager.indexOf? key = some index then (manager.device? key).map f
      else manager.device? key := by
  simp only [GatewayManager.device?, indexOf?_congr (configs_modify hf index)]
  cases manager.indexOf? key with
  | none => rfl
  | some i =>
    simp only [Option.bind_some, Option.some.injEq, GatewayManager.modify, List.getElem?_modify]
    by_cases hi : i = index
    · simp [hi]
    · simp [hi, Ne.symm hi]

end Updates

/-! ## One round of a loop -/

/-- A round that does `f` to its sub-device and asks for `request`. -/
def visitWith (f : GatewaySubDeviceState → GatewaySubDeviceState)
    (request : SubDeviceConfig → List GatewayPublication) (manager : GatewayManager)
    (index : ℕ) : GatewayHandled :=
  ⟨manager.modify index f, requestFor request manager index⟩

/-- The flags of a sub-device set. -/
def GatewaySubDeviceState.setTopo (topoAdded disabled online : Bool)
    (subDevice : GatewaySubDeviceState) : GatewaySubDeviceState :=
  { subDevice with topoAdded := topoAdded, disabled := disabled, online := online }

theorem setTopo_config (topoAdded disabled online : Bool) (subDevice : GatewaySubDeviceState) :
    (subDevice.setTopo topoAdded disabled online).config = subDevice.config := rfl

theorem setTopo_idem (topoAdded disabled online : Bool) (subDevice : GatewaySubDeviceState) :
    (subDevice.setTopo topoAdded disabled online).setTopo topoAdded disabled online =
      subDevice.setTopo topoAdded disabled online := rfl

theorem modify_id (manager : GatewayManager) (index : ℕ) : manager.modify index id = manager := by
  rw [GatewayManager.modify, List.modify_id]

theorem requestFor_nil (manager : GatewayManager) (index : ℕ) :
    requestFor (fun _ => []) manager index = [] := by
  unfold requestFor
  cases manager.config? index <;> rfl

/-- What a change of a status does to a device. -/
def changeDevice (status : ℤ) (subDevice : GatewaySubDeviceState) : GatewaySubDeviceState :=
  if status = 0 ∨ status = 2 then subDevice.setTopo true false false
  else if status = 1 then subDevice.setTopo false false false
  else if status = 8 then subDevice.setTopo true true false
  else subDevice

/-- What a change of a status asks for. -/
def changeRequest (status : ℤ) (config : SubDeviceConfig) : List GatewayPublication :=
  if status = 0 ∨ status = 2 then gatewayRequestLogin config else []

theorem changeDevice_config (status : ℤ) (subDevice : GatewaySubDeviceState) :
    (changeDevice status subDevice).config = subDevice.config := by
  unfold changeDevice
  split_ifs <;> rfl

theorem changeDevice_idem (status : ℤ) (subDevice : GatewaySubDeviceState) :
    changeDevice status (changeDevice status subDevice) = changeDevice status subDevice := by
  unfold changeDevice
  split_ifs <;> rfl

theorem visitTopoChange_eq (status : ℤ) :
    visitTopoChange status = visitWith (changeDevice status) (changeRequest status) := by
  funext manager index
  unfold visitTopoChange visitWith changeDevice changeRequest
  split_ifs with henable hremove hdisable
  · rfl
  · rw [requestFor_nil]; rfl
  · rw [requestFor_nil]; rfl
  · rw [requestFor_nil]
    exact congrArg (fun manager => GatewayHandled.mk manager []) (modify_id manager index).symm

/-! ## A whole loop -/

/-- A publication that asks for the login or the topo add of a name. -/
def GatewayPublication.AsksFor (key : Bytes × Bytes) : GatewayPublication → Prop
  | topoAdd config => config.key = key
  | login config => config.key = key
  | _ => False

instance (key : Bytes × Bytes) : ∀ publication : GatewayPublication,
    Decidable (publication.AsksFor key)
  | .topoAdd config | .login config => inferInstanceAs (Decidable (config.key = key))
  | .replyNotify .. | .postSubProperties .. | .replySubService .. =>
    inferInstanceAs (Decidable False)

/-- Some publication asks for the login or the topo add of a name. -/
def AskedFor (key : Bytes × Bytes) (published : List GatewayPublication) : Prop :=
  ∃ publication ∈ published, publication.AsksFor key

instance (key : Bytes × Bytes) (published : List GatewayPublication) :
    Decidable (AskedFor key published) :=
  inferInstanceAs (Decidable (∃ publication ∈ published, _))

theorem askedFor_append {key : Bytes × Bytes} {published published' : List GatewayPublication} :
    AskedFor key (published ++ published') ↔ AskedFor key published ∨ AskedFor key published' := by
  simp only [AskedFor, List.mem_append, or_and_right, exists_or]

theorem not_askedFor_nil (key : Bytes × Bytes) : ¬ AskedFor key [] := by
  rintro ⟨_, hmem, -⟩
  cases hmem

theorem askedFor_topoAdd {config : SubDeviceConfig} {key : Bytes × Bytes} :
    AskedFor key (gatewayRequestTopoAdd config) ↔ config.hasSecret = true ∧ config.key = key := by
  unfold gatewayRequestTopoAdd
  split_ifs with h <;> simp [AskedFor, GatewayPublication.AsksFor, h]

theorem askedFor_login {config : SubDeviceConfig} {key : Bytes × Bytes} :
    AskedFor key (gatewayRequestLogin config) ↔ config.hasSecret = true ∧ config.key = key := by
  unfold gatewayRequestLogin
  split_ifs with h <;> simp [AskedFor, GatewayPublication.AsksFor, h]

theorem key_of_askedFor_topoAdd {key : Bytes × Bytes} (config : SubDeviceConfig)
    (h : AskedFor key (gatewayRequestTopoAdd config)) : config.key = key :=
  (askedFor_topoAdd.1 h).2

theorem key_of_askedFor_login {key : Bytes × Bytes} (config : SubDeviceConfig)
    (h : AskedFor key (gatewayRequestLogin config)) : config.key = key :=
  (askedFor_login.1 h).2

section Loops

variable {f : GatewaySubDeviceState → GatewaySubDeviceState}
  {request : SubDeviceConfig → List GatewayPublication} {manager : GatewayManager}
  {items : List (Bytes × Bytes)} {key : Bytes × Bytes}

theorem visitItems_cons (visit : GatewayManager → ℕ → GatewayHandled) (item : Bytes × Bytes) :
    visitItems visit manager (item :: items) =
      match manager.indexOf? item with
      | none => visitItems visit manager items
      | some index =>
        ⟨(visitItems visit (visit manager index).manager items).manager,
          (visit manager index).published ++
            (visitItems visit (visit manager index).manager items).published⟩ := rfl

theorem configs_visitItems (hf : ∀ subDevice, (f subDevice).config = subDevice.config) :
    ∀ manager : GatewayManager,
      (visitItems (visitWith f request) manager items).manager.configs = manager.configs := by
  induction items with
  | nil => intro manager; rfl
  | cons item items ih =>
    intro manager
    rw [visitItems_cons]
    cases manager.indexOf? item with
    | none => exact ih manager
    | some index => exact (ih _).trans (configs_modify hf index)

/-- A loop does `f` to the device if some item names it, and nothing otherwise; doing it
more than once makes no difference. -/
theorem device?_visitItems (hf : ∀ subDevice, (f subDevice).config = subDevice.config)
    (hidem : ∀ subDevice, f (f subDevice) = f subDevice) :
    ∀ manager : GatewayManager,
      (visitItems (visitWith f request) manager items).manager.device? key =
        if key ∈ items then (manager.device? key).map f else manager.device? key := by
  induction items with
  | nil => intro manager; rfl
  | cons item items ih =>
    intro manager
    rw [visitItems_cons]
    cases hitem : manager.indexOf? item with
    | none =>
      refine (ih manager).trans ?_
      by_cases hkey : key = item
      · have hnone : manager.device? key = none := by
          rw [hkey, GatewayManager.device?, hitem]
          rfl
        simp [hnone]
      · simp [hkey]
    | some index =>
      refine (ih _).trans ?_
      have hmodify : (visitWith f request manager index).manager.device? key =
          if key = item then (manager.device? key).map f else manager.device? key := by
        refine (device?_modify hf index key).trans ?_
        by_cases hkey : key = item
        · rw [if_pos hkey, if_pos (hkey ▸ hitem)]
        · rw [if_neg hkey, if_neg fun h => hkey (key_eq_of_indexOf? h hitem)]
      rw [hmodify]
      by_cases hkey : key = item
      · simp [hkey, Function.comp_def, hidem]
      · simp [hkey]

theorem askedFor_requestFor (hreq : ∀ config, AskedFor key (request config) → config.key = key)
    {item : Bytes × Bytes} {index : ℕ} (hitem : manager.indexOf? item = some index) :
    AskedFor key (requestFor request manager index) ↔
      key = item ∧ ∃ subDevice, manager.device? key = some subDevice ∧
        AskedFor key (request subDevice.config) := by
  obtain ⟨subDevice, hget, hkey⟩ := configs_of_indexOf? hitem
  have hrequest : requestFor request manager index = request subDevice.config := by
    simp [requestFor, GatewayManager.config?, hget]
  rw [hrequest]
  constructor
  · intro hasked
    have heq : key = item := (hreq _ hasked).symm.trans hkey
    refine ⟨heq, subDevice, ?_, hasked⟩
    rw [heq, device?_of_indexOf? hitem, hget]
  · rintro ⟨rfl, subDevice', hdevice, hasked⟩
    rw [device?_of_indexOf? hitem, hget] at hdevice
    cases hdevice
    exact hasked

/-- A loop asks for the device if some item names it and the request is made for it. -/
theorem askedFor_visitItems (hf : ∀ subDevice, (f subDevice).config = subDevice.config)
    (hreq : ∀ config, AskedFor key (request config) → config.key = key) :
    ∀ manager : GatewayManager,
      AskedFor key (visitItems (visitWith f request) manager items).published ↔
        key ∈ items ∧ ∃ subDevice, manager.device? key = some subDevice ∧
          AskedFor key (request subDevice.config) := by
  induction items with
  | nil =>
    intro manager
    refine ⟨fun h => absurd h (not_askedFor_nil key), fun h => ?_⟩
    cases h.1
  | cons item items ih =>
    intro manager
    rw [visitItems_cons, List.mem_cons]
    cases hitem : manager.indexOf? item with
    | none =>
      refine (ih manager).trans ⟨fun h => ⟨Or.inr h.1, h.2⟩, ?_⟩
      rintro ⟨rfl | hmem, subDevice, hdevice, hasked⟩
      · rw [GatewayManager.device?, hitem] at hdevice
        cases hdevice
      · exact ⟨hmem, subDevice, hdevice, hasked⟩
    | some index =>
      -- the configuration of the device is the same after the round
      have hconfig : (∃ subDevice,
            (visitWith f request manager index).manager.device? key = some subDevice ∧
              AskedFor key (request subDevice.config)) ↔
          ∃ subDevice, manager.device? key = some subDevice ∧
            AskedFor key (request subDevice.config) := by
        have hmodify : (manager.modify index f).device? key =
            if manager.indexOf? key = some index then (manager.device? key).map f
            else manager.device? key := device?_modify hf index key
        rw [show (visitWith f request manager index).manager = manager.modify index f from rfl,
          hmodify]
        split_ifs
        · constructor
          · rintro ⟨subDevice, hdevice, hasked⟩
            obtain ⟨old, hold, rfl⟩ := Option.map_eq_some_iff.1 hdevice
            exact ⟨old, hold, hf old ▸ hasked⟩
          · rintro ⟨subDevice, hdevice, hasked⟩
            exact ⟨f subDevice, by rw [hdevice]; rfl, (hf subDevice).symm ▸ hasked⟩
        · exact Iff.rfl
      rw [askedFor_append, ih, hconfig,
        show (visitWith f request manager index).published = requestFor request manager index
          from rfl, askedFor_requestFor hreq hitem, or_and_right]

end Loops

/-! ## The handlers as loops -/

/-- The devices that an array member of a message names. -/
def devicesIn (payload key : Bytes) : List (Bytes × Bytes) :=
  ((Extract.value? (jsonGetArray payload key) 4096).map readItems).getD []

section Handlers

variable (manager : GatewayManager) (payload : Bytes)

/-- The table after a successful get reply: the flags reset, then the listed ones set. -/
theorem topoGetReply_eq (h : replyOk payload = true) :
    gatewayHandleTopoGetReply manager payload =
      let synced := (visitItems (visitWith (GatewaySubDeviceState.setTopo true false false)
        fun _ => []) (resetSubDevices manager) (devicesIn payload (ascii "data"))).manager
      ⟨synced, synced.subDevices.flatMap requestAfterTopoGet⟩ := by
  have hvisit : (fun manager index => ⟨GatewayManager.updateTopoState manager index true false
      false, []⟩) = visitWith (GatewaySubDeviceState.setTopo true false false) fun _ => [] := by
    funext manager index
    rw [visitWith, requestFor_nil]
    rfl
  rw [gatewayHandleTopoGetReply, if_neg (by rw [h]; decide), hvisit, devicesIn]
  cases Extract.value? (jsonGetArray payload (ascii "data")) 4096 <;> rfl

theorem topoAddReply_eq (h : replyOk payload = true) :
    gatewayHandleTopoAddReply manager payload =
      visitItems (visitWith (GatewaySubDeviceState.setTopo true false false) gatewayRequestLogin)
        manager (devicesIn payload (ascii "data")) := by
  -- the login is asked for after the update, which leaves the configuration
  have hvisit : (fun manager index => GatewayHandled.mk (GatewayManager.updateTopoState manager
      index true false false) (requestFor gatewayRequestLogin manager index)) =
      visitWith (GatewaySubDeviceState.setTopo true false false) gatewayRequestLogin := rfl
  rw [gatewayHandleTopoAddReply, if_neg (by rw [h]; decide), hvisit, devicesIn]
  cases Extract.value? (jsonGetArray payload (ascii "data")) 4096 <;> rfl

theorem topoAddNotify_eq :
    gatewayHandleTopoAddNotify manager payload =
      let visited := visitItems (visitWith id gatewayRequestTopoAdd) manager
        (devicesIn payload (ascii "params"))
      ⟨visited.manager, .replyNotify (ascii "add/notify_reply") (readRequestId payload) ::
        visited.published⟩ := by
  have hvisit : (fun manager index => GatewayHandled.mk manager
      (requestFor gatewayRequestTopoAdd manager index)) = visitWith id gatewayRequestTopoAdd := by
    funext manager index
    rw [visitWith, modify_id]
  rw [gatewayHandleTopoAddNotify, hvisit, devicesIn]
  cases Extract.value? (jsonGetArray payload (ascii "params")) 4096 <;> rfl

/-- The status of a change, and the devices it names. -/
def topoChangeIn : Option (ℤ × List (Bytes × Bytes)) :=
  (readTopoChange payload).map fun change => (change.1, readItems change.2)

theorem topoChange_eq :
    gatewayHandleTopoChange manager payload =
      let reply := GatewayPublication.replyNotify (ascii "change_reply") (readRequestId payload)
      match topoChangeIn payload with
      | none => ⟨manager, [reply]⟩
      | some change =>
        let visited := visitItems (visitWith (changeDevice change.1) (changeRequest change.1))
          manager change.2
        ⟨visited.manager, reply :: visited.published⟩ := by
  unfold gatewayHandleTopoChange topoChangeIn
  cases readTopoChange payload with
  | none => rfl
  | some change => simp only [visitTopoChange_eq, Option.map_some]

end Handlers

/-! ## The dispatch by kind -/

/-- The handler that a topic leads to. -/
inductive GatewayTopic
  | unhandled
  | topoGetReply
  | topoAddReply
  | topoAddNotify
  | topoChange
  | listFoundReply
  | combineReply
  | subDevice
  deriving DecidableEq

/-- The kind of a topic, asked for in the order of the dispatch. -/
def GatewayManager.topicKind (manager : GatewayManager) (topic : Bytes) : GatewayTopic :=
  if manager.subDevices = [] then .unhandled
  else if topic = manager.topoTopic (ascii "get_reply") then .topoGetReply
  else if topic = manager.topoTopic (ascii "add_reply") then .topoAddReply
  else if topic = manager.topoTopic (ascii "add/notify") then .topoAddNotify
  else if topic = manager.topoTopic (ascii "change") then .topoChange
  else if topic = manager.listFoundReplyTopic then .listFoundReply
  else if topic = manager.combineTopic (ascii "login_reply") ∨
      topic = manager.combineTopic (ascii "logout_reply") then .combineReply
  else .subDevice

/-- What a message does, by the kind of its topic. -/
theorem handleMessage_eq (manager : GatewayManager) (topic payload : Bytes) :
    (gatewayManagerHandleMessage manager topic payload).2 =
      match manager.topicKind topic with
      | .topoGetReply => gatewayHandleTopoGetReply manager payload
      | .topoAddReply => gatewayHandleTopoAddReply manager payload
      | .topoAddNotify => gatewayHandleTopoAddNotify manager payload
      | .topoChange => gatewayHandleTopoChange manager payload
      | .combineReply => gatewayHandleCombineReply manager topic payload
      | .subDevice =>
        (gatewayHandleSubServiceMessage manager topic payload).getD ⟨manager, []⟩
      | .unhandled | .listFoundReply => ⟨manager, []⟩ := by
  unfold gatewayManagerHandleMessage GatewayManager.topicKind
  split_ifs
  all_goals try rfl
  cases gatewayHandleSubServiceMessage manager topic payload <;> rfl

/-! ## The configurations stay -/

section Configs

variable (manager : GatewayManager)

theorem configs_resetSubDevices : (resetSubDevices manager).configs = manager.configs := by
  simp [GatewayManager.configs, resetSubDevices, Function.comp_def]

theorem configs_topoGetReply (payload : Bytes) :
    (gatewayHandleTopoGetReply manager payload).manager.configs = manager.configs := by
  by_cases hok : replyOk payload = true
  · rw [topoGetReply_eq manager payload hok]
    exact (configs_visitItems (setTopo_config true false false) _).trans
      (configs_resetSubDevices manager)
  · rw [gatewayHandleTopoGetReply, if_pos (Bool.eq_false_iff.2 hok)]

theorem configs_topoAddReply (payload : Bytes) :
    (gatewayHandleTopoAddReply manager payload).manager.configs = manager.configs := by
  by_cases hok : replyOk payload = true
  · rw [topoAddReply_eq manager payload hok]
    exact configs_visitItems (setTopo_config true false false) manager
  · rw [gatewayHandleTopoAddReply, if_pos (Bool.eq_false_iff.2 hok)]

theorem configs_topoAddNotify (payload : Bytes) :
    (gatewayHandleTopoAddNotify manager payload).manager.configs = manager.configs := by
  rw [topoAddNotify_eq]
  exact configs_visitItems (f := id) (fun _ => rfl) manager

theorem configs_topoChange (payload : Bytes) :
    (gatewayHandleTopoChange manager payload).manager.configs = manager.configs := by
  rw [topoChange_eq]
  cases topoChangeIn payload with
  | none => rfl
  | some change => exact configs_visitItems (changeDevice_config change.1) manager

theorem configs_combineReply (topic payload : Bytes) :
    (gatewayHandleCombineReply manager topic payload).manager.configs = manager.configs := by
  unfold gatewayHandleCombineReply
  cases combineDevice manager payload with
  | none => rfl
  | some index =>
    exact configs_modify (f := fun subDevice => { subDevice with online := isLogin topic })
      (fun _ => rfl) index

theorem configs_subServiceMessage (topic payload : Bytes) :
    ((gatewayHandleSubServiceMessage manager topic payload).getD ⟨manager, []⟩).manager.configs =
      manager.configs := by
  cases hsub : gatewayHandleSubServiceMessage manager topic payload with
  | none => rfl
  | some handled =>
    unfold gatewayHandleSubServiceMessage at hsub
    split at hsub
    · cases hsub
    · obtain ⟨subDevice, -, rfl⟩ := Option.map_eq_some_iff.1 hsub
      simp only [Option.getD_some, handleSubService]
      split_ifs
      · split
        · exact configs_modify
            (f := fun subDevice => { subDevice with lastPropertyJson := snprintf 1024 _ })
            (fun _ => rfl) _
        · rfl
      · rfl
      · rfl

/-- No message changes what is configured. -/
theorem configs_handleMessage (topic payload : Bytes) :
    (gatewayManagerHandleMessage manager topic payload).2.manager.configs = manager.configs := by
  rw [handleMessage_eq]
  cases manager.topicKind topic with
  | unhandled => rfl
  | topoGetReply => exact configs_topoGetReply manager payload
  | topoAddReply => exact configs_topoAddReply manager payload
  | topoAddNotify => exact configs_topoAddNotify manager payload
  | topoChange => exact configs_topoChange manager payload
  | listFoundReply => rfl
  | combineReply => exact configs_combineReply manager topic payload
  | subDevice => exact configs_subServiceMessage manager topic payload

end Configs

end IotIde
