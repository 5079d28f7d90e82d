import IotIde.Gateway.Devices
import IotIde.Host.App

/-!
# Messages reach the right device

The standalone program offers a message to the manager of its shadow, then to the manager
of its sub-devices, and then to its own services.  Each compares the topic with topics that
it builds from names, so that names without a slash keep the devices apart.

* `under`, `under_inj` — the topics below a device, and that they are below one only;
* `StandaloneApp`, `appHandlePub` — the program, and what it does with a message;
* `Destination`, `deliver` — who a message is for, and what that one does with it;
* `handlePub_eq_deliver` — a service message goes to its destination and to nobody else;
* `message_routed` — and nothing is changed or published for any other device.
-/

namespace IotIde

open CText JsonText

/-! ## Topics below a device -/

/-- `/sys/P/D/rest` -/
def under (productKey deviceName rest : Bytes) : Bytes :=
  ascii "/sys/" ++ (productKey ++ slash :: (deviceName ++ slash :: rest))

/-- Two names of a device, without a slash and short enough for their arrays. -/
structure PlainNames (productKey deviceName : Bytes) : Prop where
  productKey_length_lt : productKey.length < 128
  deviceName_length_lt : deviceName.length < 128
  slash_notMem_productKey : slash ∉ productKey
  slash_notMem_deviceName : slash ∉ deviceName

/-- What stands in front of the first separator. -/
theorem append_cons_inj_of_notMem {α : Type*} {x : α} {a b r s : List α} (ha : x ∉ a) (hb : x ∉ b)
    (h : a ++ x :: r = b ++ x :: s) : a = b ∧ r = s := by
  induction a generalizing b with
  | nil =>
    cases b with
    | nil => exact ⟨rfl, (List.cons.inj h).2⟩
    | cons c cs => exact absurd (List.cons.inj h).1 fun hc => hb (hc ▸ List.mem_cons_self)
  | cons c cs ih =>
    cases b with
    | nil => exact absurd (List.cons.inj h).1 fun hc => ha (hc ▸ List.mem_cons_self)
    | cons d ds =>
      obtain ⟨rfl, htail⟩ := List.cons.inj h
      obtain ⟨rfl, rfl⟩ := ih (fun hm => ha (List.mem_cons_of_mem _ hm))
        (fun hm => hb (List.mem_cons_of_mem _ hm)) htail
      exact ⟨rfl, rfl⟩

/-- A search looks at its list only. -/
theorem findIdx?_congr {α : Type*} {p q : α → Bool} {l : List α} (h : ∀ a ∈ l, p a = q a) :
    l.findIdx? p = l.findIdx? q := by
  induction l with
  | nil => rfl
  | cons a l ih =>
    rw [List.findIdx?_cons, List.findIdx?_cons, h a List.mem_cons_self,
      ih fun b hb => h b (List.mem_cons_of_mem _ hb)]

section Under

variable {P D P' D' : Bytes}

/-- A topic is below one device only. -/
theorem under_inj (hP : slash ∉ P) (hD : slash ∉ D) (hP' : slash ∉ P') (hD' : slash ∉ D')
    {rest rest' : Bytes} (h : under P D rest = under P' D' rest') :
    P = P' ∧ D = D' ∧ rest = rest' := by
  obtain ⟨rfl, hdevice⟩ := append_cons_inj_of_notMem hP hP' (List.append_cancel_left h)
  obtain ⟨rfl, rfl⟩ := append_cons_inj_of_notMem hD hD' hdevice
  exact ⟨rfl, rfl, rfl⟩

theorem under_append (rest rest' : Bytes) : under P D (rest ++ rest') = under P D rest ++ rest' := by
  simp [under]

theorem under_length (rest : Bytes) :
    (under P D rest).length = P.length + D.length + rest.length + 7 := by
  have hsys : (ascii "/sys/").length = 5 := rfl
  simp only [under, List.length_append, List.length_cons, hsys]
  omega

theorem serviceTopic_eq_under (path : Bytes) :
    serviceTopic P D path = under P D (ascii "thing/service/" ++ path) := by
  have hone : ascii "/" = [slash] := by decide
  have hservice : ascii "/thing/service/" = slash :: ascii "thing/service/" := rfl
  rw [serviceTopic, under, hone, hservice]
  rfl

/-- Below a device, nothing but its services stands below `thing/service/`. -/
theorem not_prefix_service {kind : Bytes} {b : UInt8} (hkind : kind[6]? = some b) (hb : b ≠ 115)
    (hP : slash ∉ P) (hD : slash ∉ D) (hP' : slash ∉ P') (hD' : slash ∉ D') (S : Bytes) :
    ¬ under P' D' kind <+: serviceTopic P D S := by
  rintro ⟨rest, h⟩
  rw [serviceTopic_eq_under, ← under_append] at h
  obtain ⟨-, -, hrest⟩ := under_inj hP' hD' hP hD h
  have hlen : 6 < kind.length := (List.getElem?_eq_some_iff.1 hkind).1
  have hsix := congrArg (fun text : Bytes => text[6]?) hrest
  rw [List.getElem?_append_left hlen, hkind, List.getElem?_append_left (by decide)] at hsix
  exact hb (Option.some.inj (hsix.trans (by decide)))

end Under

namespace PlainNames

variable {P D : Bytes} (h : PlainNames P D)
include h

/-- A topic of a device that is not too long is not cut. -/
theorem snprintf_under {rest : Bytes} (hrest : rest.length ≤ 40) :
    snprintf 320 (under P D rest) = under P D rest := by
  have h₁ := h.productKey_length_lt
  have h₂ := h.deviceName_length_lt
  exact snprintf_of_lt (by rw [under_length]; omega)

theorem servicePrefix_eq : servicePrefix P D = under P D (ascii "thing/service/") := by
  rw [servicePrefix, serviceTopic_eq_under, List.append_nil]
  exact h.snprintf_under (by decide)

theorem serviceTopic_eq (S : Bytes) : serviceTopic P D S = servicePrefix P D ++ S := by
  rw [h.servicePrefix_eq, serviceTopic_eq_under, under_append]

theorem postReplyPrefix_eq (config : SubDeviceConfig) (hP : config.productKey = P)
    (hD : config.deviceName = D) : config.postReplyPrefix = under P D (ascii "thing/event/") := by
  have hone : ascii "/" = [slash] := by decide
  have hevent : ascii "/thing/event/" = slash :: ascii "thing/event/" := rfl
  rw [SubDeviceConfig.postReplyPrefix, hP, hD, hone, hevent]
  exact h.snprintf_under (by decide)

theorem topoTopic_eq {manager : GatewayManager} (hP : manager.productKey = P)
    (hD : manager.deviceName = D) {suffix : Bytes} (hsuffix : suffix.length ≤ 20) :
    manager.topoTopic suffix = under P D (ascii "thing/topo/" ++ suffix) := by
  have hone : ascii "/" = [slash] := by decide
  have htopo : ascii "/thing/topo/" = slash :: ascii "thing/topo/" := rfl
  have hlen : (ascii "thing/topo/").length = 11 := rfl
  have hfits : (ascii "thing/topo/" ++ suffix).length ≤ 40 := by
    rw [List.length_append]
    omega
  rw [GatewayManager.topoTopic, hP, hD, hone, htopo]
  exact h.snprintf_under hfits

theorem listFoundReplyTopic_eq {manager : GatewayManager} (hP : manager.productKey = P)
    (hD : manager.deviceName = D) :
    manager.listFoundReplyTopic = under P D (ascii "thing/list/found_reply") := by
  have hone : ascii "/" = [slash] := by decide
  have hlist : ascii "/thing/list/found" = slash :: ascii "thing/list/found" := rfl
  have hreply : ascii "thing/list/found" ++ ascii "_reply" = ascii "thing/list/found_reply" := rfl
  have hfound : manager.listFoundTopic = under P D (ascii "thing/list/found") := by
    rw [GatewayManager.listFoundTopic, hP, hD, hone, hlist]
    exact h.snprintf_under (by decide)
  rw [GatewayManager.listFoundReplyTopic, hfound, ← under_append, hreply]
  exact h.snprintf_under (by decide)

/-- The service prefix of a device is a prefix of the service topics of that device only. -/
theorem servicePrefix_prefix_iff {P' D' : Bytes} (hP' : slash ∉ P') (hD' : slash ∉ D')
    (S : Bytes) : (servicePrefix P D).isPrefixOf (serviceTopic P' D' S) = true ↔
      P = P' ∧ D = D' := by
  rw [List.isPrefixOf_iff_prefix, h.servicePrefix_eq]
  constructor
  · rintro ⟨rest, heq⟩
    rw [serviceTopic_eq_under, ← under_append] at heq
    obtain ⟨hP, hD, -⟩ := under_inj h.slash_notMem_productKey h.slash_notMem_deviceName hP' hD' heq
    exact ⟨hP, hD⟩
  · rintro ⟨rfl, rfl⟩
    rw [serviceTopic_eq_under, under_append]
    exact List.prefix_append _ _

end PlainNames

/-! ## The program -/

/-- The standalone program: its services and its sub-devices.  The two managers share its
names, and the shadow its version. -/
structure StandaloneApp where
  app : AppContext
  subDevices : List GatewaySubDeviceState

namespace StandaloneApp

variable (host : StandaloneApp)

/-- `shadow_manager` -/
def shadow : DeviceShadowManager :=
  ⟨host.app.names.productKey, host.app.names.deviceName, host.app.shadowVersion⟩

/-- `gateway_manager` -/
def gateway : GatewayManager :=
  ⟨host.app.names.productKey, host.app.names.deviceName, host.subDevices⟩

end StandaloneApp

/-- What a message does: the program it leaves, what the program publishes with its topic,
what the manager of the sub-devices publishes, and what is launched. -/
structure Received where
  host : StandaloneApp
  published : List (Bytes × Bytes)
  requested : List GatewayPublication
  launched : List Launch

/-- The topics of all that is published. -/
def Received.topics (received : Received) : List Bytes :=
  received.published.map Prod.fst ++ received.requested.map (·.topic received.host.gateway)

section Handling

variable (o : AppOutcomes) (host : StandaloneApp)

/-- What a message of the shadow does to the program. -/
def receiveShadow (handled : ShadowHandled) : Received :=
  let app : AppContext :=
    { host.app with
      shadowVersion := handled.manager.version
      adasSwitch := handled.adasSwitch.getD host.app.adasSwitch }
  let updates := (handled.update.bind (handled.manager.publish ⟨o.shadowAlloc, true⟩)).map
    fun update => (shadowUpdateTopic app.names.productKey app.names.deviceName, update.1)
  ⟨{ host with app := app },
    handled.posted.toList.flatMap (appPostProperties o app) ++ updates.toList, [], []⟩

/-- What a message that the manager of the sub-devices takes does to the program. -/
def receiveGateway (handled : GatewayHandled) : Received :=
  ⟨{ host with subDevices := handled.manager.subDevices }, [], handled.published, []⟩

/-- What a service of the program does to it. -/
def receiveApp (handled : AppHandled) : Received :=
  ⟨{ host with app := handled.app }, handled.published, [], handled.launched⟩

/-- A publication in `app_mqtt_recv_handler`, past the copies of its topic and payload;
`none` stands for undefined behaviour in a manager. -/
def appHandlePub (topic payload : Bytes) : Option Received :=
  let shadow := shadowHandleMessage host.shadow topic payload
  if shadow.taken then some (receiveShadow o host shadow)
  else
    let gateway := gatewayManagerHandleMessage host.gateway topic payload
    if gateway.1 then some (receiveGateway host gateway.2)
    else (appDispatchService o host.app topic payload).map (receiveApp host)

end Handling

/-! ## Destinations -/

/-- Who a service message is for. -/
inductive Destination
  | subDevice (index : ℕ)
  | app
  | nobody
  deriving DecidableEq

/-- The first sub-device of that name, or else the program if the name is its own. -/
def destination (host : StandaloneApp) (productKey deviceName : Bytes) : Destination :=
  match host.gateway.findSubDeviceIndex productKey deviceName with
  | some index => .subDevice index
  | none =>
    if productKey = host.app.names.productKey ∧ deviceName = host.app.names.deviceName then .app
    else .nobody

/-- What the destination alone does with the service `path`. -/
def deliver (o : AppOutcomes) (host : StandaloneApp) (path payload : Bytes) :
    Destination → Option Received
  | .subDevice index => (host.subDevices[index]?).map fun subDevice =>
    receiveGateway host (handleSubService host.gateway index subDevice path payload)
  | .app => (appHandleService o host.app path payload).map (receiveApp host)
  | .nobody => some ⟨host, [], [], []⟩

/-- The names of a loaded configuration, none of them with a slash. -/
structure StandaloneApp.Plain (host : StandaloneApp) : Prop where
  app : PlainNames host.app.names.productKey host.app.names.deviceName
  subDevices : ∀ subDevice ∈ host.subDevices,
    PlainNames subDevice.config.productKey subDevice.config.deviceName

section Routing

variable {host : StandaloneApp} (hplain : host.Plain) {P D : Bytes} (hP : slash ∉ P)
  (hD : slash ∉ D)

/-- A topic that starts with another text is no service topic. -/
theorem serviceTopic_ne_snprintf {front : Bytes} {i : ℕ} {b : UInt8} (hfront : front[i]? = some b)
    (hi : i < 5) (hb : (ascii "/sys/")[i]? ≠ some b) (S rest : Bytes) :
    serviceTopic P D S ≠ snprintf 320 (front ++ rest) := by
  intro h
  have hlen : i < front.length := (List.getElem?_eq_some_iff.1 hfront).1
  have hat := congrArg (fun text : Bytes => text[i]?) h
  have hsys : i < (ascii "/sys/").length := hi
  simp only [serviceTopic, snprintf] at hat
  rw [List.getElem?_append_left hsys, List.getElem?_take_of_lt (by omega),
    List.getElem?_append_left hlen, hfront] at hat
  exact hb hat

/-- No service topic is the topic of the shadow. -/
theorem shadow_passes (host : StandaloneApp) (S payload : Bytes) :
    (shadowHandleMessage host.shadow (serviceTopic P D S) payload).taken = false := by
  have hne : serviceTopic P D S ≠
      shadowGetTopic host.shadow.productKey host.shadow.deviceName :=
    serviceTopic_ne_snprintf (i := 2) (b := 104) (by decide) (by decide) (by decide) S _
  rw [shadowHandleMessage, if_pos hne]

/-- No service topic is one that the sessions of the sub-devices are answered on. -/
theorem serviceTopic_ne_combineTopic (manager : GatewayManager) (S suffix : Bytes) :
    serviceTopic P D S ≠ manager.combineTopic suffix :=
  serviceTopic_ne_snprintf (i := 1) (b := 101) (by decide) (by decide) (by decide) S _

include hplain hP hD

theorem serviceTopic_ne_topoTopic (S : Bytes) {suffix : Bytes} (hsuffix : suffix.length ≤ 20) :
    serviceTopic P D S ≠ host.gateway.topoTopic suffix := by
  rw [hplain.app.topoTopic_eq rfl rfl hsuffix]
  intro h
  have hkind : (ascii "thing/topo/" ++ suffix)[6]? = some 116 := by
    rw [List.getElem?_append_left (by decide)]
    decide
  exact not_prefix_service hkind (by decide) hP hD hplain.app.slash_notMem_productKey
    hplain.app.slash_notMem_deviceName S (h ▸ List.prefix_refl _)

theorem serviceTopic_ne_listFoundReplyTopic (S : Bytes) :
    serviceTopic P D S ≠ host.gateway.listFoundReplyTopic := by
  rw [hplain.app.listFoundReplyTopic_eq rfl rfl]
  intro h
  have hkind : (ascii "thing/list/found_reply")[6]? = some 108 := by decide
  exact not_prefix_service hkind (by decide) hP hD hplain.app.slash_notMem_productKey
    hplain.app.slash_notMem_deviceName S (h ▸ List.prefix_refl _)

/-- The first sub-device with the prefix of the topic is the first one of the name. -/
theorem subServiceMessage_eq (S payload : Bytes) :
    gatewayHandleSubServiceMessage host.gateway (serviceTopic P D S) payload =
      (host.gateway.findSubDeviceIndex P D).bind fun index =>
        (host.subDevices[index]?).map fun subDevice =>
          handleSubService host.gateway index subDevice S payload := by
  have hsearch : (host.subDevices.findIdx? fun subDevice =>
      subDevice.config.servicePrefix.isPrefixOf (serviceTopic P D S)) =
      host.gateway.findSubDeviceIndex P D := by
    refine findIdx?_congr fun subDevice hmem => ?_
    have hiff := (hplain.subDevices subDevice hmem).servicePrefix_prefix_iff hP hD S
    rw [Bool.eq_iff_iff, Bool.and_eq_true, beq_iff_eq, beq_iff_eq]
    exact hiff
  rw [gatewayHandleSubServiceMessage, show host.gateway.subDevices = host.subDevices from rfl,
    hsearch]
  cases hindex : host.gateway.findSubDeviceIndex P D with
  | none => rfl
  | some index =>
    have hkey : host.gateway.indexOf? (P, D) = some index := hindex
    obtain ⟨subDevice, hget, hname⟩ := configs_of_indexOf? hkey
    have hget' : host.subDevices[index]? = some subDevice := hget
    have hmem : subDevice ∈ host.subDevices := List.mem_of_getElem? hget'
    obtain ⟨rfl, rfl⟩ := Prod.mk.inj hname
    simp only [hget', Option.map_some, Option.bind_some]
    rw [(hplain.subDevices subDevice hmem).serviceTopic_eq, SubDeviceConfig.servicePrefix,
      List.drop_left]

/-- Property events are no services, so nobody else takes the message either. -/
theorem postReply_passes (S : Bytes) :
    gatewayHandleSubPostReply host.gateway (serviceTopic P D S) = false := by
  refine List.any_eq_false.2 fun subDevice hmem => ?_
  have hnames := hplain.subDevices subDevice hmem
  have hkind : (ascii "thing/event/")[6]? = some 101 := by decide
  have hno := not_prefix_service hkind (by decide) hP hD hnames.slash_notMem_productKey
    hnames.slash_notMem_deviceName S
  rw [hnames.postReplyPrefix_eq subDevice.config rfl rfl, Bool.and_eq_true,
    List.isPrefixOf_iff_prefix]
  exact fun h => hno h.1

/-- None of the fixed topics takes the message before the sub-devices see it. -/
theorem gatewayManagerHandleMessage_service (S payload : Bytes) :
    gatewayManagerHandleMessage host.gateway (serviceTopic P D S) payload =
      match gatewayHandleSubServiceMessage host.gateway (serviceTopic P D S) payload with
      | some handled => (true, handled)
      | none => (false, ⟨host.gateway, []⟩) := by
  have htopo : ∀ suffix : Bytes, suffix.length ≤ 20 →
      serviceTopic P D S ≠ host.gateway.topoTopic suffix :=
    fun _ h => serviceTopic_ne_topoTopic hplain hP hD S h
  rw [gatewayManagerHandleMessage]
  by_cases hnone : host.gateway.subDevices = []
  · have hno : gatewayHandleSubServiceMessage host.gateway (serviceTopic P D S) payload = none := by
      rw [gatewayHandleSubServiceMessage, hnone]
      rfl
    rw [if_pos hnone, hno]
  · rewrite [if_neg hnone, if_neg (htopo _ (by decide)), if_neg (htopo _ (by decide)),
      if_neg (htopo _ (by decide)), if_neg (htopo _ (by decide)),
      if_neg (serviceTopic_ne_listFoundReplyTopic hplain hP hD S),
      if_neg (not_or.2 ⟨serviceTopic_ne_combineTopic _ _ _, serviceTopic_ne_combineTopic _ _ _⟩),
      postReply_passes hplain hP hD S]
    rfl

/-- **A service message goes to its destination**, and to nobody else. -/
theorem handlePub_eq_deliver (o : AppOutcomes) (S payload : Bytes) :
    appHandlePub o host (serviceTopic P D S) payload =
      deliver o host S payload (destination host P D) := by
  rw [appHandlePub, shadow_passes host S payload, if_neg (by decide),
    gatewayManagerHandleMessage_service hplain hP hD, subServiceMessage_eq hplain hP hD,
    destination]
  cases hindex : host.gateway.findSubDeviceIndex P D with
  | some index =>
    have hkey : host.gateway.indexOf? (P, D) = some index := hindex
    obtain ⟨subDevice, hget, -⟩ := configs_of_indexOf? hkey
    have hget' : host.subDevices[index]? = some subDevice := hget
    simp only [Option.bind_some, deliver, hget', Option.map_some, if_true]
  | none =>
    simp only [Option.bind_none, Bool.false_eq_true, if_false, appDispatchService]
    by_cases hself : P = host.app.names.productKey ∧ D = host.app.names.deviceName
    · have hpath := host.app.names.servicePath?_serviceTopic S
      rw [← hself.1, ← hself.2] at hpath
      rw [if_pos hself, ← hself.1, ← hself.2, hpath]
      rfl
    · have hpath : servicePath? host.app.names.productKey host.app.names.deviceName
          (serviceTopic P D S) = none := by
        rw [servicePath?_eq_none, ← Bool.not_eq_true,
          hplain.app.servicePrefix_prefix_iff hP hD S]
        exact fun h => hself ⟨h.1.symm, h.2.symm⟩
      rw [if_neg hself, hpath]
      rfl

end Routing

/-! ## Nobody else is concerned -/

/-- A topic below a device, or of its shadow. -/
def OfDevice (productKey deviceName topic : Bytes) : Prop :=
  (∃ rest, topic = under productKey deviceName rest) ∨
    topic = ascii "/shadow/update/" ++ (productKey ++ slash :: deviceName)

/-- A topic is of one device only. -/
theorem ofDevice_unique {P D P' D' topic : Bytes} (hP : slash ∉ P) (hD : slash ∉ D)
    (hP' : slash ∉ P') (hD' : slash ∉ D') (h : OfDevice P D topic) (h' : OfDevice P' D' topic) :
    P = P' ∧ D = D' := by
  have hthird : ∀ P D P' D' rest : Bytes,
      under P D rest ≠ ascii "/shadow/update/" ++ (P' ++ slash :: D') := by
    intro P D P' D' rest heq
    have hat := congrArg (fun text : Bytes => text[2]?) heq
    rw [under, List.getElem?_append_left (by decide), List.getElem?_append_left (by decide)] at hat
    exact absurd hat (by decide)
  rcases h with ⟨rest, rfl⟩ | rfl
  · rcases h' with ⟨rest', h'⟩ | h'
    · obtain ⟨hproduct, hdevice, -⟩ := under_inj hP hD hP' hD' h'
      exact ⟨hproduct, hdevice⟩
    · exact absurd h' (hthird _ _ _ _ _)
  · rcases h' with ⟨rest', h'⟩ | h'
    · exact absurd h'.symm (hthird _ _ _ _ _)
    · exact append_cons_inj_of_notMem hP hP' (List.append_cancel_left h')

namespace PlainNames

variable {P D : Bytes} (h : PlainNames P D)
include h

/-- However a topic below a device is cut, it stays below that device. -/
theorem ofDevice_snprintf_under (rest : Bytes) : OfDevice P D (snprintf 320 (under P D rest)) := by
  have h₁ := h.productKey_length_lt
  have h₂ := h.deviceName_length_lt
  have hlen : (under P D []).length ≤ 319 := by
    rw [under_length, List.length_nil]
    omega
  refine Or.inl ⟨rest.take (319 - (under P D []).length), ?_⟩
  rw [← List.nil_append rest, under_append, snprintf, List.take_append,
    List.take_of_length_le hlen, List.nil_append, ← under_append, List.nil_append]

theorem ofDevice_replyTopic (path : Bytes) : OfDevice P D (replyTopic P D path) := by
  rw [replyTopic, serviceTopic_eq_under]
  exact h.ofDevice_snprintf_under _

theorem ofDevice_propertyPostTopic : OfDevice P D (propertyPostTopic P D) := by
  have hone : ascii "/" = [slash] := by decide
  have hpost : ascii "/thing/event/property/post" =
      slash :: ascii "thing/event/property/post" := by decide
  rw [propertyPostTopic, hone, hpost]
  exact h.ofDevice_snprintf_under _

theorem ofDevice_shadowUpdateTopic : OfDevice P D (shadowUpdateTopic P D) := by
  have h₁ := h.productKey_length_lt
  have h₂ := h.deviceName_length_lt
  have hone : ascii "/" = [slash] := by decide
  have hlen : (ascii "/shadow/update/").length = 15 := rfl
  refine Or.inr ?_
  rw [shadowUpdateTopic, hone]
  refine snprintf_of_lt ?_
  simp only [List.length_append, List.length_cons, List.length_nil]
  omega

end PlainNames

/-- All that is published has a topic of the device. -/
def PublishedFor (names : DeviceNames) (published : List (Bytes × Bytes)) : Prop :=
  ∀ message ∈ published, OfDevice names.productKey names.deviceName message.1

theorem PublishedFor.append {names : DeviceNames} {published published' : List (Bytes × Bytes)}
    (h : PublishedFor names published) (h' : PublishedFor names published') :
    PublishedFor names (published ++ published') := by
  intro message hmem
  rcases List.mem_append.1 hmem with hmem | hmem
  · exact h message hmem
  · exact h' message hmem

section Services

variable {o : AppOutcomes} {app : AppContext}
  (hnames : PlainNames app.names.productKey app.names.deviceName)
include hnames

theorem publishedFor_reply (path requestId data : Bytes) :
    PublishedFor app.names (appReplyService o app path requestId data) := by
  intro message hmem
  obtain ⟨payload, -, rfl⟩ := Option.map_eq_some_iff.1 (Option.mem_toList.1 hmem)
  exact hnames.ofDevice_replyTopic path

theorem publishedFor_post (params : Bytes) :
    PublishedFor app.names (appPostProperties o app params) := by
  intro message hmem
  obtain ⟨payload, -, rfl⟩ := Option.map_eq_some_iff.1 (Option.mem_toList.1 hmem)
  exact hnames.ofDevice_propertyPostTopic

theorem publishedFor_update (alloc : ℕ → Bool) (version : ℤ) (reported : Bytes) :
    PublishedFor app.names (shadowUpdateReported alloc app.names.productKey app.names.deviceName
      version reported) := by
  intro message hmem
  rw [shadowUpdateReported_eq] at hmem
  obtain ⟨published, -, rfl⟩ := Option.map_eq_some_iff.1 (Option.mem_toList.1 hmem)
  exact hnames.ofDevice_shadowUpdateTopic

theorem publishedFor_managed {manager : ManagerHandler} {service initial requestId payload : Bytes}
    {paramsSize responseSize : ℕ} {handled : AppHandled}
    (h : appHandleManaged o app service paramsSize responseSize initial manager requestId payload =
      some handled) : PublishedFor app.names handled.published := by
  unfold appHandleManaged at h
  cases hparams : Extract.value? (jsonGetObject payload (ascii "params")) paramsSize with
  | none =>
    rw [hparams] at h
    cases h
    exact publishedFor_reply hnames service requestId initial
  | some params =>
    rw [hparams] at h
    obtain ⟨result, -, rfl⟩ := Option.map_eq_some_iff.1 h
    refine PublishedFor.append (fun message hmem => ?_)
      (publishedFor_reply hnames service requestId _)
    obtain ⟨posted, -, hmem⟩ := List.mem_flatMap.1 hmem
    exact publishedFor_post hnames posted message hmem

theorem publishedFor_guarded {manager : ManagerHandler}
    {service initial rejected requestId payload : Bytes} {paramsSize responseSize : ℕ}
    {handled : AppHandled} (h : appHandleGuarded o app service paramsSize responseSize initial
      rejected manager requestId payload = some handled) :
    PublishedFor app.names handled.published := by
  unfold appHandleGuarded at h
  cases hparams : Extract.value? (jsonGetObject payload (ascii "params")) paramsSize with
  | none =>
    rw [hparams] at h
    cases h
    exact publishedFor_reply hnames service requestId initial
  | some params =>
    rw [hparams] at h
    dsimp only at h
    split_ifs at h
    · exact publishedFor_managed hnames h
    · cases h
      exact publishedFor_reply hnames service requestId _

/-- A service publishes for its own device. -/
theorem publishedFor_service {path payload : Bytes} {handled : AppHandled}
    (h : appHandleService o app path payload = some handled) :
    PublishedFor app.names handled.published := by
  unfold appHandleService at h
  dsimp only at h
  split_ifs at h
  · cases h
    exact (publishedFor_post hnames _).append ((publishedFor_update hnames _ _ _).append
      (publishedFor_reply hnames _ _ _))
  · cases h
    exact publishedFor_reply hnames _ _ _
  · exact publishedFor_managed hnames h
  · exact publishedFor_managed hnames h
  · exact publishedFor_managed hnames h
  · exact publishedFor_guarded hnames h
  · exact publishedFor_guarded hnames h
  · cases h
    exact publishedFor_reply hnames _ _ _

end Services

section SubDevices

variable {manager : GatewayManager} {index : ℕ} {subDevice : GatewaySubDeviceState}
  {path payload : Bytes}

/-- A sub-device that handles a message leaves the others alone. -/
theorem handleSubService_other {j : ℕ} (hj : index ≠ j) :
    (handleSubService manager index subDevice path payload).manager.subDevices[j]? =
      manager.subDevices[j]? := by
  unfold handleSubService
  dsimp only
  by_cases hset : path = ascii "property/set"
  · rw [if_pos hset]
    cases Extract.value? (jsonGetObject payload (ascii "params")) 1024 with
    | none => rfl
    | some params =>
      simp only [GatewayManager.storeProperties, GatewayManager.modify, List.getElem?_modify,
        if_neg hj, Option.map_eq_map, Option.map_id']
  · rw [if_neg hset]
    split_ifs
    · rfl
    · rfl

/-- It publishes for itself. -/
theorem handleSubService_ofDevice
    (hnames : PlainNames subDevice.config.productKey subDevice.config.deviceName)
    (manager' : GatewayManager) {publication : GatewayPublication}
    (h : publication ∈ (handleSubService manager index subDevice path payload).published) :
    OfDevice subDevice.config.productKey subDevice.config.deviceName
      (publication.topic manager') := by
  have hreply : ∀ requestId data, OfDevice subDevice.config.productKey subDevice.config.deviceName
      ((GatewayPublication.replySubService subDevice.config path requestId data).topic manager') :=
    fun _ _ => hnames.ofDevice_replyTopic path
  have hpost : ∀ params, OfDevice subDevice.config.productKey subDevice.config.deviceName
      ((GatewayPublication.postSubProperties subDevice.config params).topic manager') :=
    fun _ => hnames.ofDevice_propertyPostTopic
  unfold handleSubService at h
  dsimp only at h
  by_cases hset : path = ascii "property/set"
  · rw [if_pos hset] at h
    cases hparams : Extract.value? (jsonGetObject payload (ascii "params")) 1024 with
    | none =>
      rw [hparams] at h
      rw [List.mem_singleton.1 h]
      exact hreply _ _
    | some params =>
      rw [hparams] at h
      rcases List.mem_cons.1 h with rfl | h
      · exact hpost _
      · rw [List.mem_singleton.1 h]
        exact hreply _ _
  · rw [if_neg hset] at h
    split_ifs at h
    · rw [List.mem_singleton.1 h]
      exact hreply _ _
    · rw [List.mem_singleton.1 h]
      exact hreply _ _

end SubDevices

section Delivered

variable {o : AppOutcomes} {host : StandaloneApp} {path payload : Bytes} {received : Received}

/-- Only its destination is changed by a message. -/
theorem deliver_frame {d : Destination} (h : deliver o host path payload d = some received) :
    (d ≠ .app → received.host.app = host.app) ∧
      ∀ j, d ≠ .subDevice j → received.host.subDevices[j]? = host.subDevices[j]? := by
  cases d with
  | subDevice index =>
    obtain ⟨subDevice, -, rfl⟩ := Option.map_eq_some_iff.1 h
    refine ⟨fun _ => rfl, fun j hj => handleSubService_other fun hindex => hj (hindex ▸ rfl)⟩
  | app =>
    obtain ⟨handled, -, rfl⟩ := Option.map_eq_some_iff.1 h
    exact ⟨fun hne => absurd rfl hne, fun _ _ => rfl⟩
  | nobody =>
    cases h
    exact ⟨fun _ => rfl, fun _ _ => rfl⟩

/-- What is published has a topic of the device the message was for. -/
theorem deliver_ofDevice (hplain : host.Plain) {P D : Bytes}
    (h : deliver o host path payload (destination host P D) = some received) :
    ∀ topic ∈ received.topics, OfDevice P D topic := by
  unfold destination at h
  cases hindex : host.gateway.findSubDeviceIndex P D with
  | some index =>
    rw [hindex] at h
    obtain ⟨subDevice, hget, rfl⟩ := Option.map_eq_some_iff.1 h
    have hkey : host.gateway.indexOf? (P, D) = some index := hindex
    obtain ⟨subDevice', hget', hname⟩ := configs_of_indexOf? hkey
    cases hget.symm.trans hget'
    obtain ⟨rfl, rfl⟩ := Prod.mk.inj hname
    intro topic htopic
    obtain ⟨publication, hmem, rfl⟩ := List.mem_map.1 htopic
    exact handleSubService_ofDevice (hplain.subDevices subDevice (List.mem_of_getElem? hget)) _ hmem
  | none =>
    rw [hindex] at h
    dsimp only at h
    split_ifs at h with hself
    · obtain ⟨handled, hhandled, rfl⟩ := Option.map_eq_some_iff.1 h
      intro topic htopic
      simp only [Received.topics, receiveApp, List.map_nil, List.append_nil] at htopic
      obtain ⟨message, hmem, rfl⟩ := List.mem_map.1 htopic
      rw [hself.1, hself.2]
      exact publishedFor_service hplain.app hhandled message hmem
    · cases h
      intro topic htopic
      cases htopic

end Delivered

/-- **Messages reach the right device.**  In a program whose names have no slash, a service
message is handled by its destination alone: the first sub-device of its names, or else the
program if the names are its own, or else nobody.  No other device is changed, and nothing
is published on the topic of any other. -/
theorem message_routed {host : StandaloneApp} (hplain : host.Plain) {P D : Bytes}
    (hP : slash ∉ P) (hD : slash ∉ D) (o : AppOutcomes) (S payload : Bytes) :
    appHandlePub o host (serviceTopic P D S) payload =
      deliver o host S payload (destination host P D) ∧
    ∀ received, appHandlePub o host (serviceTopic P D S) payload = some received →
      (destination host P D ≠ .app → received.host.app = host.app) ∧
      (∀ j, destination host P D ≠ .subDevice j →
        received.host.subDevices[j]? = host.subDevices[j]?) ∧
      ∀ topic ∈ received.topics, ∀ P' D', slash ∉ P' → slash ∉ D' → OfDevice P' D' topic →
        P' = P ∧ D' = D := by
  have hdeliver := handlePub_eq_deliver hplain hP hD o S payload
  refine ⟨hdeliver, fun received hreceived => ?_⟩
  rw [hdeliver] at hreceived
  obtain ⟨happ, hothers⟩ := deliver_frame hreceived
  refine ⟨happ, hothers, fun topic htopic P' D' hP' hD' hof => ?_⟩
  exact ofDevice_unique hP' hD' hP hD hof (deliver_ofDevice hplain hreceived topic htopic)

/-- A gateway `g` with the sub-devices `a` and `b`, all under one product. -/
def threeDevices : StandaloneApp where
  app := ⟨⟨ascii "p", ascii "g", by decide, by decide⟩, false, ⟨.init, false, false⟩, 0⟩
  subDevices := [ascii "a", ascii "b"].map fun name =>
    ⟨⟨ascii "p", name, ascii "s", []⟩, true, true, false, ascii "\x7b\x7d"⟩

theorem message_routed_second :
    (appHandlePub .smooth threeDevices (serviceTopic (ascii "p") (ascii "b") (ascii "go"))
        (ascii "\x7b\x7d") =
      deliver .smooth threeDevices (ascii "go") (ascii "\x7b\x7d")
        (destination threeDevices (ascii "p") (ascii "b"))) ∧
    destination threeDevices (ascii "p") (ascii "b") = .subDevice 1 ∧
    destination threeDevices (ascii "p") (ascii "g") = .app ∧
    destination threeDevices (ascii "q") (ascii "b") = .nobody := by
  have hplain : threeDevices.Plain := by
    refine ⟨⟨by decide, by decide, by decide, by decide⟩, fun subDevice hmem => ?_⟩
    rcases List.mem_pair.1 hmem with rfl | rfl
    · exact ⟨by decide, by decide, by decide, by decide⟩
    · exact ⟨by decide, by decide, by decide, by decide⟩
  exact ⟨(message_routed hplain (by decide) (by decide) _ _ _).1, by decide, by decide, by decide⟩

end IotIde
