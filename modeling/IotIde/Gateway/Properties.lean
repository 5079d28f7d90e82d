import IotIde.Gateway.Devices

/-!
# Reading back the properties of a sub-device

A property/set is answered with code 200 whether or not its parameters could be read; a
property/get is answered with what was read last.

* `SubDeviceConfig.Loaded`, `Separate` — configurations whose service topics are whole, and
  lead to the sub-device they are made for;
* `handleMessage_property` — a property message reaches its sub-device;
* `PropertyRun`, `propertyMachine` — the manager, with what was set last;
* `ReadsBack` — the property, of one state; `ReadsParams` — the sets that keep it;
* `properties_read_back_iff` — any sequence of property messages.
-/

namespace IotIde

open CText JsonText Runs

/-! ## Topics that lead to their sub-device -/

/-- The names fit the arrays they were loaded into. -/
def SubDeviceConfig.Loaded (config : SubDeviceConfig) : Prop :=
  config.productKey.length < DEVICE_CONFIG_TEXT_SIZE ∧
    config.deviceName.length < DEVICE_CONFIG_TEXT_SIZE

/-- No service prefix begins the service prefix of a sub-device of another name. -/
def Separate (configs : List SubDeviceConfig) : Prop :=
  ∀ config ∈ configs, ∀ config' ∈ configs,
    config.servicePrefix <+: config'.servicePrefix → config.key = config'.key

theorem SubDeviceConfig.Loaded.servicePrefix_eq {config : SubDeviceConfig} (h : config.Loaded) :
    config.servicePrefix = serviceTopic config.productKey config.deviceName [] :=
  DeviceNames.servicePrefix_eq ⟨config.productKey, config.deviceName, h.1, h.2⟩

/-- Up to a byte that both sides lack, a prefix is an equation. -/
theorem prefix_append_cons {b : UInt8} {x y x' y' : Bytes} (hx : b ∉ x) (hx' : b ∉ x')
    (h : x ++ b :: y <+: x' ++ b :: y') : x = x' ∧ y <+: y' := by
  induction x generalizing x' with
  | nil =>
    cases x' with
    | nil => exact ⟨rfl, (List.cons_prefix_cons.1 h).2⟩
    | cons c x' =>
      have hb : b = c := (List.cons_prefix_cons.1 h).1
      exact absurd (hb ▸ List.mem_cons_self) hx'
  | cons c x ih =>
    cases x' with
    | nil =>
      have hb : c = b := (List.cons_prefix_cons.1 h).1
      exact absurd (hb ▸ List.mem_cons_self) hx
    | cons c' x' =>
      obtain ⟨hc, hrest⟩ := List.cons_prefix_cons.1 h
      obtain ⟨heq, hy⟩ := ih (fun hmem => hx (List.mem_cons_of_mem _ hmem))
        (fun hmem => hx' (List.mem_cons_of_mem _ hmem)) hrest
      exact ⟨by rw [hc, heq], hy⟩

/-- Names without a slash keep the topics apart. -/
theorem separate_of_slash {configs : List SubDeviceConfig}
    (hloaded : ∀ config ∈ configs, config.Loaded)
    (hslash : ∀ config ∈ configs, 47 ∉ config.productKey ∧ 47 ∉ config.deviceName) :
    Separate configs := by
  intro config hmem config' hmem' hbegins
  rw [(hloaded config hmem).servicePrefix_eq, (hloaded config' hmem').servicePrefix_eq,
    serviceTopic, serviceTopic, List.prefix_append_right_inj] at hbegins
  obtain ⟨hproduct, hdevice⟩ :=
    prefix_append_cons (hslash config hmem).1 (hslash config' hmem').1 hbegins
  obtain ⟨hname, -⟩ :=
    prefix_append_cons (hslash config hmem).2 (hslash config' hmem').2 hdevice
  exact Prod.ext hproduct hname

/-! ## The dispatch of a property message -/

theorem getLast?_of_suffix {text suffix : Bytes} (h : suffix <:+ text) (hne : suffix ≠ []) :
    text.getLast? = suffix.getLast? := by
  obtain ⟨before, rfl⟩ := h
  exact List.getLast?_append_of_ne_nil _ hne

section Dispatch

variable {manager : GatewayManager} (hproduct : manager.productKey.length < 128)
  (hdevice : manager.deviceName.length < 128)
include hproduct hdevice

/-- With whole names no topic of the gateway itself is cut. -/
theorem suffix_topoTopic {suffix : Bytes} (hsuffix : suffix.length < 20) :
    suffix <:+ manager.topoTopic suffix := by
  rw [GatewayManager.topoTopic, snprintf_of_lt]
  · exact ⟨ascii "/sys/" ++ (manager.productKey ++ (ascii "/" ++ (manager.deviceName ++
      ascii "/thing/topo/"))), by simp only [List.append_assoc]⟩
  · simp only [List.length_append]
    have h₁ : (ascii "/sys/").length = 5 := by decide
    have h₂ : (ascii "/").length = 1 := by decide
    have h₃ : (ascii "/thing/topo/").length = 12 := by decide
    omega

theorem suffix_listFoundReplyTopic : ascii "_reply" <:+ manager.listFoundReplyTopic := by
  have hwhole : manager.listFoundTopic.length < 300 := by
    rw [GatewayManager.listFoundTopic, snprintf, List.length_take]
    simp only [List.length_append]
    have h₁ : (ascii "/sys/").length = 5 := by decide
    have h₂ : (ascii "/").length = 1 := by decide
    have h₃ : (ascii "/thing/list/found").length = 17 := by decide
    omega
  rw [GatewayManager.listFoundReplyTopic, snprintf_of_lt]
  · exact List.suffix_append _ _
  · rw [List.length_append]
    have h₁ : (ascii "_reply").length = 6 := by decide
    omega

/-- A topic under `/sys/` that ends in `t` is none of the gateway's own. -/
theorem topicKind_subDevice (hne : manager.subDevices ≠ []) {topic : Bytes}
    (hsecond : topic[1]? = some 115) (hlast : topic.getLast? = some 116) :
    manager.topicKind topic = .subDevice := by
  have htopo : ∀ suffix : Bytes, suffix.length < 20 → suffix ≠ [] →
      suffix.getLast? ≠ some 116 → topic ≠ manager.topoTopic suffix := by
    intro suffix hlen hne hsuffix heq
    rw [heq, getLast?_of_suffix (suffix_topoTopic hproduct hdevice hlen) hne] at hlast
    exact hsuffix hlast
  have hlist : topic ≠ manager.listFoundReplyTopic := by
    intro heq
    rw [heq, getLast?_of_suffix (suffix_listFoundReplyTopic hproduct hdevice) (by decide)] at hlast
    exact absurd hlast (by decide)
  have hcombine : ∀ suffix, topic ≠ manager.combineTopic suffix := by
    intro suffix heq
    have hext : (manager.combineTopic suffix)[1]? = some 101 := rfl
    rw [heq, hext] at hsecond
    exact absurd hsecond (by decide)
  rw [GatewayManager.topicKind, if_neg hne,
    if_neg (htopo _ (by decide) (by decide) (by decide)),
    if_neg (htopo _ (by decide) (by decide) (by decide)),
    if_neg (htopo _ (by decide) (by decide) (by decide)),
    if_neg (htopo _ (by decide) (by decide) (by decide)), if_neg hlist,
    if_neg (not_or.2 ⟨hcombine _, hcombine _⟩)]

end Dispatch

/-- The two services of a sub-device that this is about. -/
def propertyPath (isSet : Bool) : Bytes :=
  if isSet then ascii "property/set" else ascii "property/get"

/-- The topic of a property message. -/
def propertyTopic (key : Bytes × Bytes) (isSet : Bool) : Bytes :=
  serviceTopic key.1 key.2 (propertyPath isSet)

/-- Where names are loaded and separate, a property message reaches the first sub-device
of the name it is for. -/
theorem handleMessage_property {manager : GatewayManager}
    (hproduct : manager.productKey.length < 128) (hdevice : manager.deviceName.length < 128)
    (hloaded : ∀ config ∈ manager.configs, config.Loaded) (hseparate : Separate manager.configs)
    {config : SubDeviceConfig} (hconfig : config ∈ manager.configs) (isSet : Bool)
    (payload : Bytes) :
    ∃ index subDevice, manager.indexOf? config.key = some index ∧
      manager.device? config.key = some subDevice ∧
      (gatewayManagerHandleMessage manager (propertyTopic config.key isSet) payload).2 =
        handleSubService manager index subDevice (propertyPath isSet) payload := by
  obtain ⟨subDevice, hsubDevice⟩ := Option.isSome_iff_exists.1 (device?_isSome hconfig)
  obtain ⟨index, hindex, hget⟩ := Option.bind_eq_some_iff.1 hsubDevice
  have hkey := device?_key hsubDevice
  have hpath : propertyPath isSet ≠ [] ∧ (propertyPath isSet).getLast? = some 116 := by
    cases isSet <;> decide
  have hne : manager.subDevices ≠ [] := by
    rintro hnil
    rw [hnil] at hget
    cases hget
  have hkind : manager.topicKind (propertyTopic config.key isSet) = .subDevice := by
    refine topicKind_subDevice hproduct hdevice hne rfl ?_
    rw [propertyTopic, serviceTopic_eq, List.getLast?_append_of_ne_nil _ hpath.1, hpath.2]
  have hbegins : ∀ other ∈ manager.configs,
      other.servicePrefix <+: propertyTopic config.key isSet ↔ other.key = config.key := by
    intro other hother
    have hown : config.servicePrefix <+: propertyTopic config.key isSet := by
      rw [(hloaded config hconfig).servicePrefix_eq]
      exact ⟨propertyPath isSet, (serviceTopic_eq _ _ _).symm⟩
    constructor
    · intro hmatch
      rcases List.prefix_or_prefix_of_prefix hmatch hown with hle | hle
      · exact hseparate other hother config hconfig hle
      · exact (hseparate config hconfig other hother hle).symm
    · intro heq
      have hsame : other.servicePrefix = config.servicePrefix := by
        rw [(hloaded other hother).servicePrefix_eq, (hloaded config hconfig).servicePrefix_eq]
        exact congrArg₂ (fun product device => serviceTopic product device [])
          (congrArg Prod.fst heq) (congrArg Prod.snd heq)
      rwa [hsame]
  -- the search by prefix and the search by name stop at the same place
  have hfind : manager.subDevices.findIdx? (fun other =>
      other.config.servicePrefix.isPrefixOf (propertyTopic config.key isSet)) = some index := by
    obtain ⟨hlt, hat, hbefore⟩ := List.findIdx?_eq_some_iff_getElem.1 hindex
    refine List.findIdx?_eq_some_iff_getElem.2 ⟨hlt, ?_, fun i hi => ?_⟩
    · have hself : manager.subDevices[index] = subDevice :=
        Option.some.inj ((List.getElem?_eq_getElem hlt).symm.trans hget)
      rw [hself, List.isPrefixOf_iff_prefix]
      exact (hbegins _ (List.mem_map_of_mem (List.mem_of_getElem? hget))).2 hkey
    · have hmem : manager.subDevices[i] ∈ manager.subDevices := List.getElem_mem _
      intro hmatch
      have hname := (hbegins _ (List.mem_map_of_mem hmem)).1 (List.isPrefixOf_iff_prefix.1 hmatch)
      refine hbefore i hi ((Bool.and_eq_true _ _).mpr ⟨?_, ?_⟩)
      · exact beq_iff_eq.2 (congrArg Prod.fst hname)
      · exact beq_iff_eq.2 (congrArg Prod.snd hname)
  have hdrop : (propertyTopic config.key isSet).drop subDevice.config.servicePrefix.length =
      propertyPath isSet := by
    have hmem : subDevice.config ∈ manager.configs :=
      List.mem_map_of_mem (List.mem_of_getElem? hget)
    rw [(hloaded _ hmem).servicePrefix_eq, propertyTopic, ← hkey,
      serviceTopic_eq _ _ (propertyPath isSet)]
    exact List.drop_left
  refine ⟨index, subDevice, hindex, hsubDevice, ?_⟩
  rw [handleMessage_eq, hkind]
  simp only [gatewayHandleSubServiceMessage, hfind, hget, Option.map_some, Option.getD_some, hdrop]

/-! ## The replies -/

/-- The reply of a sub-device is not cut when its id and its data fit the arrays they are read
into. -/
theorem payload_replySubService (o : GatewayPublication.Outcomes) (config : SubDeviceConfig)
    (path : Bytes) {requestId data : Bytes} (hid : requestId.length < 64)
    (hdata : data.length < 1024) :
    (GatewayPublication.replySubService config path requestId data).payload o =
      some (replyText requestId 200 data) := by
  have htext : ascii "\x7b\"id\":\"" ++ (orElse requestId (ascii "0") ++
      (ascii "\",\"code\":200,\"data\":" ++ (orElse data (ascii "\x7b\x7d") ++ ascii "\x7d"))) =
      replyText requestId 200 data := by
    rw [replyText, show ascii "\",\"code\":200,\"data\":" =
      ascii "\",\"code\":" ++ (decimal 200 ++ ascii ",\"data\":") by decide +kernel]
    simp only [List.append_assoc]
  have hlen := replyText_length_le requestId data
  exact congrArg some (congrArg (snprintf 1536) htext |>.trans (snprintf_of_lt (by omega)))

theorem replyText_inj {requestId : Bytes} {code : ℤ} {data data' : Bytes} (h : data ≠ [])
    (h' : data' ≠ []) (heq : replyText requestId code data = replyText requestId code data') :
    data = data' := by
  simpa only [replyText, orElse, if_neg h, if_neg h', List.append_cancel_left_eq,
    List.append_cancel_right_eq] using heq

/-! ## Messages and what they set -/

/-- A property message: the sub-device it is for, and its payload, an object with `params`
of its own, which is an object too. -/
structure PropertyMessage where
  key : Bytes × Bytes
  isSet : Bool
  before : Ws
  doc : Doc .value
  after : Ws
  params : Doc .value
  own : ∃ member ∈ doc.ownMembers, member.1.raw = ascii "params" ∧ member.2 = params
  object : isObject params = true
  nul : 0 ∉ doc.text

namespace PropertyMessage

variable (message : PropertyMessage)

def payload : Bytes := message.before.text ++ (message.doc.text ++ message.after.text)

/-- What the search for `params` finds, when it is an object that fits its array. -/
def found : Option Bytes :=
  foundCompound isObject 1024 (firstNamed (ascii "params") message.doc.allMembers)

theorem value?_params :
    Extract.value? (jsonGetObject message.payload (ascii "params")) 1024 = message.found :=
  value?_jsonGetObject (by decide) message.before message.after message.nul (by decide)

theorem found_eq_some {text : Bytes} (h : message.found = some text) :
    text ≠ [] ∧ text.length < 1024 := by
  obtain ⟨v, -, hv⟩ := Option.bind_eq_some_iff.1 h
  split_ifs at hv with hboth
  cases hv
  obtain ⟨b, bs, htext, -⟩ := exists_text_eq_cons v
  exact ⟨by rw [htext]; exact List.cons_ne_nil b bs, hboth.2⟩

/-- What a message does to its sub-device. -/
def cache (subDevice : GatewaySubDeviceState) : GatewaySubDeviceState :=
  match message.isSet, message.found with
  | true, some text => { subDevice with lastPropertyJson := snprintf 1024 text }
  | _, _ => subDevice

theorem cache_config (subDevice : GatewaySubDeviceState) :
    (message.cache subDevice).config = subDevice.config := by
  unfold cache
  split <;> rfl

/-- What has been set last, after a message. -/
def record (lastSet : Bytes × Bytes → Bytes) (key : Bytes × Bytes) : Bytes :=
  if message.isSet = true ∧ key = message.key then message.params.text else lastSet key

end PropertyMessage

/-- A manager, with the parameters that were set last for each name. -/
structure PropertyRun where
  manager : GatewayManager
  lastSet : Bytes × Bytes → Bytes

/-- Property messages to configured sub-devices. -/
def propertyMachine : Machine PropertyRun PropertyMessage where
  init run := ∃ (names : DeviceNames) (subDevices : List SubDeviceConfig),
    run = ⟨gatewayManagerInit names.productKey names.deviceName subDevices,
      fun _ => ascii "\x7b\x7d"⟩
  step run message :=
    if (run.manager.device? message.key).isSome then
      some ⟨(gatewayManagerHandleMessage run.manager
            (propertyTopic message.key message.isSet) message.payload).2.manager,
        message.record run.lastSet⟩
    else none

/-- Whatever sub-device is asked, with whatever request, the reply has code 200 and the
parameters set last as its data. -/
def ReadsBack (run : PropertyRun) : Prop :=
  ∀ config ∈ run.manager.configs, ∀ (payload : Bytes) (o : GatewayPublication.Outcomes),
    (gatewayManagerHandleMessage run.manager (propertyTopic config.key false)
        payload).2.published.map (GatewayPublication.payload o) =
      [some (replyText (readRequestId payload) 200 (run.lastSet config.key))]

/-- A set whose `params` are what the search finds; or the search finds nothing that fits,
and they are set already. -/
def ReadsParams (run : PropertyRun) (message : PropertyMessage) : Prop :=
  message.isSet = true →
    match message.found with
    | some text => text = message.params.text
    | none => run.lastSet message.key = message.params.text

/-! ## One step -/

/-- What holds in every state of a run: the names are whole and separate, and neither what
was set nor what is cached is ever empty. -/
structure PropertyRun.Wf (run : PropertyRun) : Prop where
  productKey : run.manager.productKey.length < 128
  deviceName : run.manager.deviceName.length < 128
  loaded : ∀ config ∈ run.manager.configs, config.Loaded
  separate : Separate run.manager.configs
  nonempty : ∀ key, run.lastSet key ≠ []
  cached : ∀ subDevice ∈ run.manager.subDevices, subDevice.lastPropertyJson ≠ []

theorem snprintf_ne_nil {text : Bytes} (h : text ≠ []) : snprintf 1024 text ≠ [] := by
  obtain ⟨b, bs, rfl⟩ := List.exists_cons_of_ne_nil h
  exact List.cons_ne_nil b (bs.take 1022)

theorem mem_subDevices_of_device? {manager : GatewayManager} {key : Bytes × Bytes}
    {subDevice : GatewaySubDeviceState} (h : manager.device? key = some subDevice) :
    subDevice ∈ manager.subDevices := by
  obtain ⟨index, -, hget⟩ := Option.bind_eq_some_iff.1 h
  exact List.mem_of_getElem? hget

section Steps

variable {run : PropertyRun} (hwf : run.Wf)
include hwf

/-- The reply is right exactly when the cache is. -/
theorem readsBack_iff : ReadsBack run ↔ ∀ config ∈ run.manager.configs,
    ∃ subDevice, run.manager.device? config.key = some subDevice ∧
      snprintf 1024 subDevice.lastPropertyJson = run.lastSet config.key := by
  refine forall₂_congr fun config hconfig => ?_
  have hreply : ∀ (payload : Bytes) (o : GatewayPublication.Outcomes), ∃ subDevice,
      run.manager.device? config.key = some subDevice ∧
      (gatewayManagerHandleMessage run.manager (propertyTopic config.key false)
        payload).2.published.map (GatewayPublication.payload o) =
      [some (replyText (readRequestId payload) 200
        (snprintf 1024 subDevice.lastPropertyJson))] := by
    intro payload o
    obtain ⟨index, subDevice, -, hdevice, hhandled⟩ := handleMessage_property hwf.productKey
      hwf.deviceName hwf.loaded hwf.separate hconfig false payload
    refine ⟨subDevice, hdevice, ?_⟩
    rw [hhandled, handleSubService, if_neg (by decide),
      if_pos (show propertyPath false = ascii "property/get" from rfl), List.map_singleton,
      payload_replySubService o _ _ (readRequestId_length_lt _) (snprintf_length_lt _ (by decide))]
  constructor
  · intro hread
    let o : GatewayPublication.Outcomes := ⟨fun _ _ => [], 0, 0, fun _ => true⟩
    obtain ⟨subDevice, hdevice, hmap⟩ := hreply [] o
    refine ⟨subDevice, hdevice, ?_⟩
    have heq := Option.some.inj (List.cons.inj (hmap.symm.trans (hread [] o))).1
    exact replyText_inj (snprintf_ne_nil (hwf.cached _ (mem_subDevices_of_device? hdevice)))
      (hwf.nonempty config.key) heq
  · rintro ⟨subDevice, hdevice, hcache⟩ payload o
    obtain ⟨subDevice', hdevice', hmap⟩ := hreply payload o
    cases hdevice.symm.trans hdevice'
    rw [hmap, hcache]

/-- What a message leaves of the manager. -/
theorem property_manager_eq {message : PropertyMessage}
    (hdevice : (run.manager.device? message.key).isSome = true) :
    ∃ index, run.manager.indexOf? message.key = some index ∧
      (gatewayManagerHandleMessage run.manager (propertyTopic message.key message.isSet)
        message.payload).2.manager = run.manager.modify index message.cache := by
  obtain ⟨subDevice, hget⟩ := Option.isSome_iff_exists.1 hdevice
  have hconfig : subDevice.config ∈ run.manager.configs :=
    List.mem_map_of_mem (mem_subDevices_of_device? hget)
  obtain ⟨index, subDevice', hindex, -, hhandled⟩ := handleMessage_property hwf.productKey
    hwf.deviceName hwf.loaded hwf.separate hconfig message.isSet message.payload
  rw [device?_key hget] at hindex hhandled
  refine ⟨index, hindex, ?_⟩
  have hsame : (∀ subDevice, message.cache subDevice = subDevice) →
      run.manager = run.manager.modify index message.cache := by
    intro hid
    rw [show message.cache = id from funext hid, modify_id]
  rw [hhandled, handleSubService, message.value?_params]
  cases hset : message.isSet with
  | true =>
    rw [if_pos (show propertyPath true = ascii "property/set" from rfl)]
    cases hfound : message.found with
    | none => exact hsame fun _ => by rw [PropertyMessage.cache, hset, hfound]
    | some text =>
      refine congrArg (run.manager.modify index) (funext fun subDevice => ?_)
      rw [PropertyMessage.cache, hset, hfound]
  | false =>
    rw [if_neg (by decide), if_pos (show propertyPath false = ascii "property/get" from rfl)]
    exact hsame fun _ => by rw [PropertyMessage.cache, hset]

/-- The invariant is kept. -/
theorem PropertyRun.Wf.step {run' : PropertyRun} {message : PropertyMessage}
    (hstep : propertyMachine.step run message = some run') :
    run'.Wf ∧ run'.manager.configs = run.manager.configs := by
  simp only [propertyMachine] at hstep
  split_ifs at hstep with hdevice
  cases hstep
  obtain ⟨index, -, hmanager⟩ := property_manager_eq hwf hdevice
  have hconfigs : (run.manager.modify index message.cache).configs = run.manager.configs :=
    configs_modify message.cache_config index
  rw [hmanager]
  refine ⟨⟨hwf.productKey, hwf.deviceName, ?_, ?_, ?_, ?_⟩, hconfigs⟩
  · exact hconfigs ▸ hwf.loaded
  · exact hconfigs ▸ hwf.separate
  · intro key
    change message.record run.lastSet key ≠ []
    unfold PropertyMessage.record
    split_ifs
    · obtain ⟨b, bs, htext, -⟩ := exists_text_eq_cons message.params
      rw [htext]
      exact List.cons_ne_nil b bs
    · exact hwf.nonempty key
  · intro subDevice hmem
    obtain ⟨i, hi⟩ := List.mem_iff_getElem?.1 hmem
    simp only [GatewayManager.modify, List.getElem?_modify] at hi
    obtain ⟨old, hold, rfl⟩ := Option.map_eq_some_iff.1 hi
    have hcached := hwf.cached old (List.mem_of_getElem? hold)
    split_ifs
    · unfold PropertyMessage.cache
      split
      · exact snprintf_ne_nil (message.found_eq_some ‹_›).1
      · exact hcached
    · exact hcached

/-- A message keeps the property exactly when it is no set, or its parameters are found. -/
theorem readsBack_step_iff {run' : PropertyRun} {message : PropertyMessage}
    (h : ReadsBack run) (hstep : propertyMachine.step run message = some run') :
    ReadsBack run' ↔ ReadsParams run message := by
  obtain ⟨hwf', hconfigs⟩ := hwf.step hstep
  rw [readsBack_iff hwf', hconfigs]
  simp only [propertyMachine] at hstep
  split_ifs at hstep with hdevice
  cases hstep
  obtain ⟨index, hindex, hmanager⟩ := property_manager_eq hwf hdevice
  have hcached := (readsBack_iff hwf).1 h
  have hafter : ∀ key, (run.manager.modify index message.cache).device? key =
      if key = message.key then (run.manager.device? key).map message.cache
      else run.manager.device? key := by
    intro key
    rw [device?_modify message.cache_config index key]
    by_cases hkey : key = message.key
    · rw [if_pos (hkey ▸ hindex), if_pos hkey]
    · rw [if_neg fun h => hkey (key_eq_of_indexOf? h hindex), if_neg hkey]
  obtain ⟨subDevice, hget⟩ := Option.isSome_iff_exists.1 hdevice
  have hconfig : subDevice.config ∈ run.manager.configs :=
    List.mem_map_of_mem (mem_subDevices_of_device? hget)
  have hkey := device?_key hget
  have hold : snprintf 1024 subDevice.lastPropertyJson = run.lastSet message.key := by
    obtain ⟨subDevice', hget', hcache⟩ := hcached subDevice.config hconfig
    rw [hkey] at hget' hcache
    cases hget.symm.trans hget'
    exact hcache
  rw [hmanager]
  -- only the sub-device of the message can differ
  have hself : (∀ config ∈ run.manager.configs, ∃ subDevice,
        (run.manager.modify index message.cache).device? config.key = some subDevice ∧
          snprintf 1024 subDevice.lastPropertyJson = message.record run.lastSet config.key) ↔
      snprintf 1024 (message.cache subDevice).lastPropertyJson =
        message.record run.lastSet message.key := by
    constructor
    · intro hall
      obtain ⟨subDevice', hget', hcache⟩ := hall subDevice.config hconfig
      rw [hafter, hkey, if_pos rfl, hget] at hget'
      cases hget'
      rwa [hkey] at hcache
    · intro hcache config hmem
      rw [hafter]
      by_cases heq : config.key = message.key
      · rw [if_pos heq, heq, hget]
        exact ⟨_, rfl, hcache⟩
      · rw [if_neg heq, PropertyMessage.record, if_neg fun hboth => heq hboth.2]
        exact hcached config hmem
  refine hself.trans ?_
  unfold PropertyMessage.record PropertyMessage.cache ReadsParams
  cases message.isSet with
  | false => simpa using hold
  | true =>
    cases hfound : message.found with
    | none => simp [hold]
    | some text =>
      have hlen := (message.found_eq_some hfound).2
      simp [snprintf_of_lt hlen]

end Steps

/-- In any sequence of property messages to the sub-devices of a configuration whose topics
lead to them, every reply reads back what was set last, in every state, if and only if of
every set the parameters are found or are set already. -/
theorem properties_read_back_iff (names : DeviceNames) (subDevices : List SubDeviceConfig)
    (hloaded : ∀ config ∈ subDevices, config.Loaded) (hseparate : Separate subDevices)
    (messages : List PropertyMessage) :
    propertyMachine.Along ReadsBack
        ⟨gatewayManagerInit names.productKey names.deviceName subDevices,
          fun _ => ascii "\x7b\x7d"⟩ messages ↔
      propertyMachine.Meets ReadsParams
        ⟨gatewayManagerInit names.productKey names.deviceName subDevices,
          fun _ => ascii "\x7b\x7d"⟩ messages := by
  have hconfigs : (gatewayManagerInit names.productKey names.deviceName subDevices).configs =
      subDevices := by
    simp [GatewayManager.configs, gatewayManagerInit, Function.comp_def]
  have hcached : ∀ subDevice ∈ (gatewayManagerInit names.productKey names.deviceName
      subDevices).subDevices, subDevice.lastPropertyJson = ascii "\x7b\x7d" := by
    intro subDevice hmem
    obtain ⟨config, -, rfl⟩ := List.mem_map.1 hmem
    rfl
  have hwf : PropertyRun.Wf ⟨gatewayManagerInit names.productKey names.deviceName subDevices,
      fun _ => ascii "\x7b\x7d"⟩ :=
    ⟨names.productKey_length_lt, names.deviceName_length_lt, hconfigs.symm ▸ hloaded,
      hconfigs.symm ▸ hseparate, fun _ => show ascii "\x7b\x7d" ≠ [] by decide,
      fun subDevice hmem => by rw [hcached subDevice hmem]; decide⟩
  refine Machine.along_iff_meets (I := PropertyRun.Wf) ?_ ?_ messages _ hwf ?_
  · rintro run message run' hwf - hstep
    exact (hwf.step hstep).1
  · rintro run message run' hwf h hstep
    exact readsBack_step_iff hwf h hstep
  · rw [readsBack_iff hwf]
    intro config hconfig
    obtain ⟨subDevice, hdevice⟩ := Option.isSome_iff_exists.1 (device?_isSome hconfig)
    refine ⟨subDevice, hdevice, ?_⟩
    rw [hcached subDevice (mem_subDevices_of_device? hdevice)]
    rfl

/-- A configuration with one sub-device, `sp` and `sd`. -/
def propertyConfig : SubDeviceConfig := ⟨ascii "sp", ascii "sd", [], []⟩

/-- `{"id":"7","params":{"note":"aaa…"}}`, with 1100 times `a`. -/
def longSet : PropertyMessage :=
  let note : Doc .value := .object (.member (keyName "note")
    (.string ⟨List.replicate 1100 97, by decide +kernel⟩) .none)
  { key := propertyConfig.key
    isSet := true
    before := .none
    doc := .object (.moreMembers (keyName "id") (.string (escapedLit (ascii "7"))) .none
      (.member (keyName "params") note .none))
    after := .none
    params := note
    own := ⟨(escapedLit (ascii "params"), note), List.mem_cons_of_mem _ (List.mem_singleton_self _),
      rfl, rfl⟩
    object := rfl
    nul := by decide +kernel }

/-- The device of `propertyConfig`, before anything was set. -/
def propertyStart : PropertyRun :=
  ⟨gatewayManagerInit (ascii "gp") (ascii "gd") [propertyConfig], fun _ => ascii "\x7b\x7d"⟩

/-- What a property message is answered with in a state. -/
def propertyAnswer (run : PropertyRun) (isSet : Bool) (payload : Bytes) : List (Option Bytes) :=
  ((gatewayManagerHandleMessage run.manager (propertyTopic propertyConfig.key isSet)
    payload).2.published.filter fun publication => publication matches .replySubService ..).map
      (GatewayPublication.payload ⟨fun _ _ => [], 0, 0, fun _ => true⟩)

/-- The set is answered with code 200, and the get after it reads back an empty object. -/
theorem set_acknowledged_not_read_back :
    propertyAnswer propertyStart true longSet.payload =
      [some (ascii "\x7b\"id\":\"7\",\"code\":200,\"data\":\x7b\x7d\x7d")] ∧
    (propertyMachine.run propertyStart [longSet]).map (fun run =>
        (propertyAnswer run false (ascii "\x7b\"id\":\"8\",\"params\":\x7b\x7d\x7d"),
          (run.lastSet propertyConfig.key).length)) =
      some ([some (ascii "\x7b\"id\":\"8\",\"code\":200,\"data\":\x7b\x7d\x7d")], 1111) := by
  decide +kernel

/-- `{"params":{"on":1}}` -/
def shortSet : PropertyMessage :=
  let params : Doc .value := .object (.member (keyName "on") (.scalar (decimalScalar 1)) .none)
  { key := propertyConfig.key
    isSet := true
    before := .none
    doc := .object (.member (keyName "params") params .none)
    after := .none
    params := params
    own := ⟨(escapedLit (ascii "params"), params), List.mem_singleton_self _, rfl, rfl⟩
    object := rfl
    nul := by decide }

theorem properties_read_back_short :
    propertyMachine.Along ReadsBack propertyStart [shortSet] := by
  have hloaded : ∀ config ∈ [propertyConfig], config.Loaded := by
    intro config hmem
    rw [List.mem_singleton.1 hmem]
    exact ⟨by decide, by decide⟩
  have hslash : ∀ config ∈ [propertyConfig], 47 ∉ config.productKey ∧ 47 ∉ config.deviceName := by
    intro config hmem
    rw [List.mem_singleton.1 hmem]
    exact ⟨by decide, by decide⟩
  refine (properties_read_back_iff ⟨ascii "gp", ascii "gd", by decide, by decide⟩ [propertyConfig]
    hloaded (separate_of_slash hloaded hslash) [shortSet]).2 ?_
  refine fun run' _ => ⟨fun _ => ?_, trivial⟩
  have hfound : shortSet.found = some shortSet.params.text := by decide +kernel
  rw [hfound]

end IotIde
