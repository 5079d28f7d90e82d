import IotIde.Foundation.Echo
import IotIde.Gateway.Manager
import IotIde.Host.App
import IotIde.Host.Runtime

/-!
# Replies to replies

Each of the three dispatchers subscribes to all services of its device, so the broker hands
its own replies back to it.  One of them passes over topics that end in `_reply`; the other
two answer them as services they do not know.

* `runtimeDispatcher`, `appDispatcher`, `subDevicesDispatcher` — the dispatchers with their
  subscriptions;
* `ServiceHost` — one of them in some state, with the property and its condition;
* `replies_settle_iff` — which of them leave replies alone, and from which incoming
  messages they come to rest.
-/

namespace IotIde

open CText Echo

/-! ## The dispatchers -/

/-- The subscription `/sys/%s/%s/thing/service/#`, which takes its own level in too. -/
def subscribesTo (productKey deviceName topic : Bytes) : Bool :=
  topic ++ ascii "/" == servicePrefix productKey deviceName ||
    (servicePath? productKey deviceName topic).isSome

def runtimeDispatcher (names : DeviceNames) :
    Dispatcher RuntimeHost (Bytes × Bytes) RuntimeOutcomes where
  handle o host message := (gatewayHandleService o host message.1 message.2).map fun handled =>
    (handled.host, handled.published)
  subscribed message := subscribesTo names.productKey names.deviceName message.1

def appDispatcher (names : DeviceNames) :
    Dispatcher AppContext (Bytes × Bytes) AppOutcomes where
  handle o app message := (appDispatchService o app message.1 message.2).map fun handled =>
    (handled.app, handled.published)
  subscribed message := subscribesTo names.productKey names.deviceName message.1

/-- A publication with its topic, if it is made. -/
def GatewayPublication.message (o : GatewayPublication.Outcomes) (manager : GatewayManager)
    (publication : GatewayPublication) : Option (Bytes × Bytes) :=
  (publication.payload o).map fun payload => (publication.topic manager, payload)

def subDevicesDispatcher (configs : List SubDeviceConfig) :
    Dispatcher GatewayManager (Bytes × Bytes) GatewayPublication.Outcomes where
  handle o manager message :=
    match gatewayHandleSubServiceMessage manager message.1 message.2 with
    | none => some (manager, [])
    | some handled => some (handled.manager, handled.published.filterMap (·.message o manager))
  subscribed message := configs.any fun config =>
    subscribesTo config.productKey config.deviceName message.1

/-- A dispatcher in some state. -/
inductive ServiceHost
  | runtime (host : RuntimeHost)
  | app (context : AppContext)
  | subDevices (manager : GatewayManager)

/-- Under any outcomes, the message publishes nothing and leaves the state as it is. -/
def Quiet {σ ι : Type*} (D : Dispatcher σ (Bytes × Bytes) ι) (s : σ)
    (message : Bytes × Bytes) : Prop :=
  ∀ o result, D.handle o s message = some result → result = (s, [])

/-- The service path of a reply, under one device. -/
def RepliesUnder (productKey deviceName : Bytes) (message : Bytes × Bytes) : Prop :=
  ∃ path, servicePath? productKey deviceName message.1 = some path ∧ isReplyTopic path = true

namespace ServiceHost

/-- A message on a topic under a device's service prefix whose path ends in `_reply`. -/
def IsReply (message : Bytes × Bytes) : ServiceHost → Prop
  | runtime host => RepliesUnder host.names.productKey host.names.deviceName message
  | .app context => RepliesUnder context.names.productKey context.names.deviceName message
  | subDevices manager => ∃ subDevice ∈ manager.subDevices,
      RepliesUnder subDevice.config.productKey subDevice.config.deviceName message

/-- The message is handled without effect. -/
def LeavesAlone (message : Bytes × Bytes) : ServiceHost → Prop
  | runtime host => Quiet (runtimeDispatcher host.names) host message
  | .app context => Quiet (appDispatcher context.names) context message
  | subDevices manager =>
    Quiet (subDevicesDispatcher (manager.subDevices.map (·.config))) manager message

/-- From some incoming messages on, boundedly many are published. -/
def FinitelyMany (incoming : List (Bytes × Bytes)) : ServiceHost → Prop
  | runtime host => (runtimeDispatcher host.names).FinitelyMany host incoming
  | .app context => (appDispatcher context.names).FinitelyMany context incoming
  | subDevices manager =>
    (subDevicesDispatcher (manager.subDevices.map (·.config))).FinitelyMany manager incoming

/-- The dispatcher is `gateway_handle_service`. -/
def FiltersReplies : ServiceHost → Prop
  | runtime _ => True
  | _ => False

/-- The message is for no device, or, with `gateway_handle_service`, it is a reply, or its
reply topic, cut to its array, still ends in `_reply`. -/
def Settles (message : Bytes × Bytes) : ServiceHost → Prop
  | runtime host =>
    ∀ path, servicePath? host.names.productKey host.names.deviceName message.1 = some path →
      isReplyTopic path = true ∨
        RepliesUnder host.names.productKey host.names.deviceName
          (replyTopic host.names.productKey host.names.deviceName path, [])
  | .app context =>
    servicePath? context.names.productKey context.names.deviceName message.1 = none
  | subDevices manager => ∀ subDevice ∈ manager.subDevices,
      servicePath? subDevice.config.productKey subDevice.config.deviceName message.1 = none

end ServiceHost

/-! ## The runtime -/

section Runtime

/-- What a service publishes: at most one post, and the reply. -/
structure RepliesOnce (host : RuntimeHost) (serviceName : Bytes) (handled : RuntimeHandled) :
    Prop where
  names : handled.host.names = host.names
  length_le : handled.published.length ≤ 2
  topics : ∀ message ∈ handled.published,
    message.1 = propertyPostTopic host.names.productKey host.names.deviceName ∨
      message.1 = replyTopic host.names.productKey host.names.deviceName serviceName

variable {o : RuntimeOutcomes} {host : RuntimeHost}

theorem replyService_cases (serviceName requestId data : Bytes) :
    (iotIdeGatewayReplyService o host serviceName requestId data).length ≤ 1 ∧
      ∀ message ∈ iotIdeGatewayReplyService o host serviceName requestId data,
        message.1 = replyTopic host.names.productKey host.names.deviceName serviceName := by
  unfold iotIdeGatewayReplyService
  split_ifs
  · refine ⟨le_refl 1, fun message hmem => ?_⟩
    rw [List.mem_singleton.1 hmem]
  · exact ⟨Nat.zero_le _, fun message hmem => by cases hmem⟩

theorem postProperties_cases (params : Bytes) :
    (iotIdeGatewayPostProperties o host params).length ≤ 1 ∧
      ∀ message ∈ iotIdeGatewayPostProperties o host params,
        message.1 = propertyPostTopic host.names.productKey host.names.deviceName := by
  unfold iotIdeGatewayPostProperties
  split_ifs
  · refine ⟨le_refl 1, fun message hmem => ?_⟩
    rw [List.mem_singleton.1 hmem]
  · exact ⟨Nat.zero_le _, fun message hmem => by cases hmem⟩

/-- The posts of at most one property, and a reply. -/
theorem repliesOnce_of_posts {host' : RuntimeHost} (hnames : host'.names = host.names)
    {posted : List Bytes} (hposted : posted.length ≤ 1) (serviceName requestId data : Bytes)
    (launched : List Launch) :
    RepliesOnce host serviceName ⟨host', posted.flatMap (iotIdeGatewayPostProperties o host) ++
      iotIdeGatewayReplyService o host serviceName requestId data, launched⟩ where
  names := hnames
  length_le := by
    have hreply : (iotIdeGatewayReplyService o host serviceName requestId data).length ≤ 1 :=
      (replyService_cases serviceName requestId data).1
    have hposts : (posted.flatMap (iotIdeGatewayPostProperties o host)).length ≤ 1 := by
      match posted, hposted with
      | [], _ => exact Nat.zero_le _
      | [params], _ =>
        rw [List.flatMap_singleton]
        exact (postProperties_cases params).1
    rw [List.length_append]
    omega
  topics message hmem := by
    rcases List.mem_append.1 hmem with h | h
    · obtain ⟨params, -, h⟩ := List.mem_flatMap.1 h
      exact Or.inl ((postProperties_cases params).2 message h)
    · exact Or.inr ((replyService_cases serviceName requestId data).2 message h)

theorem runtimeCallLibrary_repliesOnce {call : LibCall} {serviceName requestId params : Bytes}
    {handled : RuntimeHandled}
    (h : runtimeCallLibrary o host call serviceName requestId params = some handled) :
    RepliesOnce host serviceName handled := by
  obtain ⟨result, hresult, rfl⟩ := Option.map_eq_some_iff.1 h
  have hnames : ({ host with ide := result.ide.getD host.ide } : RuntimeHost).names =
      host.names := rfl
  exact repliesOnce_of_posts hnames (LibCall.posted_length_le hresult) serviceName requestId _ _

theorem runtimeOnService_repliesOnce {serviceName requestId params : Bytes}
    {handled : RuntimeHandled}
    (h : runtimeOnService o host serviceName requestId params = some handled) :
    RepliesOnce host serviceName handled := by
  have hnone : ([] : List Bytes).length ≤ 1 := Nat.zero_le 1
  unfold runtimeOnService at h
  simp only at h
  split_ifs at h
  · exact runtimeCallLibrary_repliesOnce h
  · exact runtimeCallLibrary_repliesOnce h
  · exact runtimeCallLibrary_repliesOnce h
  · exact runtimeCallLibrary_repliesOnce h
  · exact runtimeCallLibrary_repliesOnce h
  · cases h
    exact repliesOnce_of_posts rfl hnone serviceName requestId _ _
  · cases h
    have hpost : [params].flatMap (iotIdeGatewayPostProperties o host) =
        iotIdeGatewayPostProperties o host params := List.flatMap_singleton _ _
    rw [← hpost]
    exact repliesOnce_of_posts rfl (le_refl [params].length) serviceName requestId _ _
  · cases h
    exact repliesOnce_of_posts rfl hnone serviceName requestId _ _

/-- A request is answered with at most one post and one reply. -/
theorem gatewayHandleService_repliesOnce {topic payload serviceName : Bytes}
    (hpath : servicePath? host.names.productKey host.names.deviceName topic = some serviceName)
    (hreply : isReplyTopic serviceName = false) {handled : RuntimeHandled}
    (h : gatewayHandleService o host topic payload = some handled) :
    RepliesOnce host serviceName handled := by
  rw [gatewayHandleService, hpath] at h
  simp only [hreply, Bool.false_eq_true, if_false] at h
  split_ifs at h
  · exact runtimeOnService_repliesOnce h
  · have hnone : ([] : List Bytes).length ≤ 1 := Nat.zero_le 1
    cases h
    exact repliesOnce_of_posts rfl hnone serviceName _ _ _

/-- What a message can still cause: a post and a reply, if it is a request. -/
def runtimeWeight (names : DeviceNames) (message : Bytes × Bytes) : ℕ :=
  match servicePath? names.productKey names.deviceName message.1 with
  | none => 0
  | some path => if isReplyTopic path then 0 else 2

/-- Messages that settle lead to boundedly many publications. -/
theorem runtime_finitelyMany (host : RuntimeHost) {incoming : List (Bytes × Bytes)}
    (h : ∀ message ∈ incoming, (ServiceHost.runtime host).Settles message) :
    (ServiceHost.runtime host).FinitelyMany incoming := by
  refine Dispatcher.finitelyMany_of_weight (fun host' => host'.names = host.names)
    (fun message => (ServiceHost.runtime host).Settles message) (runtimeWeight host.names) ?_ rfl h
  intro o host' message host'' out hnames hsettles hhandle
  obtain ⟨handled, hhandled, heq⟩ := Option.map_eq_some_iff.1 hhandle
  cases heq
  -- neither a post nor a reply of a message that settles causes anything more
  have hquiet : ∀ path, servicePath? host.names.productKey host.names.deviceName message.1 =
      some path → isReplyTopic path = false → RepliesOnce host' path handled →
        ∀ message' ∈ handled.published,
          (ServiceHost.runtime host).Settles message' ∧ runtimeWeight host.names message' = 0 := by
    intro path hpath hreply honce message' hmem
    rcases honce.topics message' hmem with htopic | htopic
    · rw [hnames] at htopic
      have hnone : servicePath? host.names.productKey host.names.deviceName message'.1 = none := by
        rw [htopic]
        exact host.names.servicePath?_propertyPostTopic
      refine ⟨fun path' hpath' => ?_, ?_⟩
      · rw [hnone] at hpath'
        cases hpath'
      · rw [runtimeWeight, hnone]
    · rw [hnames] at htopic
      rcases hsettles path hpath with hreply' | ⟨path', hpath', hreply'⟩
      · rw [hreply] at hreply'
        cases hreply'
      · rw [← htopic] at hpath'
        refine ⟨fun path'' hpath'' => ?_, ?_⟩
        · rw [hpath'] at hpath''
          cases hpath''
          exact Or.inl hreply'
        · rw [runtimeWeight, hpath']
          exact if_pos hreply'
  cases hpath : servicePath? host.names.productKey host.names.deviceName message.1 with
  | none =>
    rw [gatewayHandleService, hnames, hpath] at hhandled
    cases hhandled
    exact ⟨hnames, fun _ hmem => (by cases hmem), Nat.zero_le _⟩
  | some path =>
    cases hreply : isReplyTopic path with
    | true =>
      rw [gatewayHandleService, hnames, hpath] at hhandled
      simp only [hreply, if_true] at hhandled
      cases hhandled
      exact ⟨hnames, fun _ hmem => (by cases hmem), Nat.zero_le _⟩
    | false =>
      have honce := gatewayHandleService_repliesOnce (by rw [hnames]; exact hpath) hreply hhandled
      refine ⟨honce.names.trans hnames, fun message' hmem => ?_, ?_⟩
      · exact (hquiet path hpath hreply honce message' (List.mem_of_mem_filter hmem)).1
      · have hzero : ((handled.published.filter (runtimeDispatcher host.names).subscribed).map
            (runtimeWeight host.names)).sum = 0 := by
          refine List.sum_eq_zero fun weight hweight => ?_
          obtain ⟨message', hmem, rfl⟩ := List.mem_map.1 hweight
          exact (hquiet path hpath hreply honce message' (List.mem_of_mem_filter hmem)).2
        have hlength := honce.length_le
        rw [hzero, runtimeWeight, hpath]
        simp only [hreply, Bool.false_eq_true, if_false]
        omega

/-- Outcomes without a failure. -/
def RuntimeOutcomes.smooth : RuntimeOutcomes := ⟨.smooth 0, 0, true, true⟩

/-- With no failure outside the program, a request whose path is longer than that of every
known service is answered on its reply topic. -/
theorem gatewayHandleService_answers (host : RuntimeHost) {topic path : Bytes}
    (hpath : servicePath? host.names.productKey host.names.deviceName topic = some path)
    (hreply : isReplyTopic path = false) (hlong : 17 < path.length) (payload : Bytes) :
    ∃ handled reply, gatewayHandleService .smooth host topic payload = some handled ∧
      handled.host.names = host.names ∧
      (replyTopic host.names.productKey host.names.deviceName path, reply) ∈
        handled.published := by
  have hunknown : ∀ service : Bytes, service.length ≤ 17 → path ≠ service := by
    rintro service hle rfl
    omega
  have hmem : ∀ data, ∃ reply, (replyTopic host.names.productKey host.names.deviceName path,
      reply) ∈ iotIdeGatewayReplyService .smooth host path (readRequestId payload) data :=
    fun data => ⟨_, List.mem_singleton.2 rfl⟩
  rw [gatewayHandleService, hpath]
  simp only [hreply, Bool.false_eq_true, if_false]
  split_ifs
  · rw [runtimeOnService]
    rw [if_neg (hunknown _ (by decide)), if_neg (hunknown _ (by decide)),
      if_neg (hunknown _ (by decide)), if_neg (hunknown _ (by decide)),
      if_neg (hunknown _ (by decide)), if_neg (hunknown _ (by decide)),
      if_neg (hunknown _ (by decide))]
    obtain ⟨reply, hreply⟩ := hmem (ascii "\x7b\"success\":0,\"message\":\"unknown service\"\x7d")
    exact ⟨_, reply, rfl, rfl, hreply⟩
  · obtain ⟨reply, hreply⟩ :=
      hmem (ascii "\x7b\"success\":0,\"message\":\"no service handler\"\x7d")
    exact ⟨_, reply, rfl, rfl, hreply⟩

/-- A request whose cut reply topic is a request again is answered without end. -/
theorem runtime_not_finitelyMany (host : RuntimeHost) {incoming : List (Bytes × Bytes)}
    {message : Bytes × Bytes} (hmem : message ∈ incoming)
    (h : ¬ (ServiceHost.runtime host).Settles message) :
    ¬ (ServiceHost.runtime host).FinitelyMany incoming := by
  refine Dispatcher.not_finitelyMany_of_live (fun host' message => host'.names = host.names ∧
    ¬ (ServiceHost.runtime host).Settles message) ?_ hmem ⟨rfl, h⟩
  rintro host' message ⟨hnames, hlive⟩
  obtain ⟨path, hpath, hnot⟩ : ∃ path, servicePath? host.names.productKey host.names.deviceName
      message.1 = some path ∧ ¬ (isReplyTopic path = true ∨
        RepliesUnder host.names.productKey host.names.deviceName
          (replyTopic host.names.productKey host.names.deviceName path, [])) := by
    by_contra hnone
    exact hlive fun path hpath => by_contra fun hnot => hnone ⟨path, hpath, hnot⟩
  obtain ⟨hreply, hcut⟩ := not_or.1 hnot
  rw [Bool.not_eq_true] at hreply
  -- the reply topic is a service topic that does not end in `_reply`
  obtain ⟨path', hpath'⟩ := servicePath?_replyTopic host.names.productKey host.names.deviceName path
  have hreply' : isReplyTopic path' = false := by
    rw [← Bool.not_eq_true]
    exact fun htrue => hcut ⟨path', hpath', htrue⟩
  have hagain := host.names.replyTopic_replyTopic hpath' hreply'
  have hlong : 17 < path.length := by
    have hle := host.names.le_length_of_cut hpath' hreply'
    have hlt := host.names.serviceTopic_length_lt
    have hsuffix : (ascii "_reply").length = 6 := by decide
    rw [serviceTopic_eq, List.length_append, List.length_append] at hle
    omega
  obtain ⟨handled, reply, hhandled, hnames', hpublished⟩ :=
    gatewayHandleService_answers host' (by rw [hnames]; exact hpath) hreply hlong message.2
  rw [hnames] at hpublished
  refine ⟨.smooth, handled.host, handled.published, _, ?_, hpublished, ?_, hnames'.trans hnames, ?_⟩
  · exact congrArg (Option.map fun handled => (handled.host, handled.published)) hhandled
  · simp only [runtimeDispatcher, subscribesTo, hpath', Option.isSome_some, Bool.or_true]
  · intro hsettles
    rcases hsettles path' hpath' with htrue | hunder
    · rw [hreply'] at htrue
      cases htrue
    · rw [hagain] at hunder
      exact hcut hunder

/-- The runtime leaves replies alone. -/
theorem runtime_leavesAlone (host : RuntimeHost) {message : Bytes × Bytes}
    (h : (ServiceHost.runtime host).IsReply message) :
    (ServiceHost.runtime host).LeavesAlone message := by
  obtain ⟨path, hpath, hreply⟩ := h
  intro o result hresult
  obtain ⟨handled, hhandled, rfl⟩ := Option.map_eq_some_iff.1 hresult
  rw [gatewayHandleService, hpath] at hhandled
  simp only [hreply, if_true] at hhandled
  cases hhandled
  rfl

end Runtime

/-! ## The standalone program -/

section App

/-- A message for no service of the program has no effect. -/
theorem app_finitelyMany (context : AppContext) {incoming : List (Bytes × Bytes)}
    (h : ∀ message ∈ incoming, (ServiceHost.app context).Settles message) :
    (ServiceHost.app context).FinitelyMany incoming := by
  refine Dispatcher.finitelyMany_of_weight (fun context' => context'.names = context.names)
    (fun message => (ServiceHost.app context).Settles message) (fun _ => 0) ?_ rfl h
  intro o context' message context'' out hnames hsettles hhandle
  obtain ⟨handled, hhandled, heq⟩ := Option.map_eq_some_iff.1 hhandle
  have hnone : servicePath? context.names.productKey context.names.deviceName message.1 = none :=
    hsettles
  rw [appDispatchService, hnames, hnone] at hhandled
  cases hhandled
  cases heq
  exact ⟨hnames, fun _ hmem => (by cases hmem), le_refl 0⟩

/-- Any other one is answered without end. -/
theorem app_not_finitelyMany (context : AppContext) {incoming : List (Bytes × Bytes)}
    {message : Bytes × Bytes} (hmem : message ∈ incoming)
    (h : ¬ (ServiceHost.app context).Settles message) :
    ¬ (ServiceHost.app context).FinitelyMany incoming := by
  refine Dispatcher.not_finitelyMany_of_live (fun context' message =>
    context'.names = context.names ∧ ¬ (ServiceHost.app context).Settles message) ?_ hmem ⟨rfl, h⟩
  rintro context' message ⟨hnames, hlive⟩
  obtain ⟨path, hpath⟩ := Option.ne_none_iff_exists'.1 hlive
  obtain ⟨handled, reply, hhandled, hnames', hpublished⟩ :=
    appDispatchService_answers context' (by rw [hnames]; exact hpath) message.2
  obtain ⟨path', hpath'⟩ := servicePath?_replyTopic context.names.productKey
    context.names.deviceName path
  rw [hnames] at hpublished
  refine ⟨.smooth, handled.app, handled.published, _, ?_, hpublished, ?_, hnames'.trans hnames, ?_⟩
  · exact congrArg (Option.map fun handled => (handled.app, handled.published)) hhandled
  · simp only [appDispatcher, subscribesTo, hpath', Option.isSome_some, Bool.or_true]
  · intro hsettles
    have hnone : servicePath? context.names.productKey context.names.deviceName
        (replyTopic context.names.productKey context.names.deviceName path) = none := hsettles
    rw [hpath'] at hnone
    cases hnone

/-- A reply is answered. -/
theorem app_not_leavesAlone (context : AppContext) {message : Bytes × Bytes}
    (h : (ServiceHost.app context).IsReply message) :
    ¬ (ServiceHost.app context).LeavesAlone message := by
  obtain ⟨path, hpath, -⟩ := h
  intro hquiet
  obtain ⟨handled, reply, hhandled, -, hpublished⟩ :=
    appDispatchService_answers context hpath message.2
  have hhandle : (appDispatcher context.names).handle .smooth context message =
      some (handled.app, handled.published) :=
    congrArg (Option.map fun handled : AppHandled => (handled.app, handled.published)) hhandled
  rw [(Prod.mk.inj (hquiet _ _ hhandle)).2] at hpublished
  cases hpublished

end App

/-! ## The sub-devices -/

section SubDevices

variable {manager : GatewayManager}

/-- A service of a sub-device publishes its reply, whatever the outcomes. -/
theorem handleSubService_answers (o : GatewayPublication.Outcomes) (index : ℕ)
    (subDevice : GatewaySubDeviceState) (servicePath payload : Bytes) :
    (handleSubService manager index subDevice servicePath payload).manager.subDevices.map
        (·.config) = manager.subDevices.map (·.config) ∧
      ∃ reply, (replyTopic subDevice.config.productKey subDevice.config.deviceName servicePath,
        reply) ∈ (handleSubService manager index subDevice servicePath payload).published.filterMap
          (·.message o manager) := by
  have hreply : ∀ {published : List GatewayPublication} {requestId data : Bytes},
      .replySubService subDevice.config servicePath requestId data ∈ published →
        ∃ reply, (replyTopic subDevice.config.productKey subDevice.config.deviceName servicePath,
          reply) ∈ published.filterMap (·.message o manager) :=
    fun hmem => ⟨_, List.mem_filterMap.2 ⟨_, hmem, rfl⟩⟩
  have hconfigs : ∀ properties, (manager.storeProperties index properties).subDevices.map
      (·.config) = manager.subDevices.map (·.config) := by
    intro properties
    simp only [GatewayManager.storeProperties, GatewayManager.modify]
    refine List.ext_getElem? fun i => ?_
    rw [List.getElem?_map, List.getElem?_map, List.getElem?_modify]
    cases manager.subDevices[i]? with
    | none => rfl
    | some other =>
      simp only [Option.map_eq_map, Option.map_some]
      split_ifs <;> rfl
  unfold handleSubService
  split_ifs
  · split
    · exact ⟨hconfigs _, hreply (List.mem_cons_of_mem _ (List.mem_singleton.2 rfl))⟩
    · exact ⟨rfl, hreply (List.mem_singleton.2 rfl)⟩
  · exact ⟨rfl, hreply (List.mem_singleton.2 rfl)⟩
  · exact ⟨rfl, hreply (List.mem_singleton.2 rfl)⟩

/-- A message under the prefix of a sub-device is answered by a sub-device, on a topic
under its prefix, whatever the outcomes. -/
theorem subService_answers (o : GatewayPublication.Outcomes) {subDevice : GatewaySubDeviceState}
    (hdevice : subDevice ∈ manager.subDevices) {topic path : Bytes}
    (hpath : servicePath? subDevice.config.productKey subDevice.config.deviceName topic =
      some path) (payload : Bytes) :
    ∃ handled answering path' reply,
      gatewayHandleSubServiceMessage manager topic payload = some handled ∧
      answering ∈ manager.subDevices ∧
      handled.manager.subDevices.map (·.config) = manager.subDevices.map (·.config) ∧
      (replyTopic answering.config.productKey answering.config.deviceName path', reply) ∈
        handled.published.filterMap (·.message o manager) := by
  have hbegins : subDevice.config.servicePrefix.isPrefixOf topic = true := by
    rw [List.isPrefixOf_iff_prefix, (servicePath?_eq_some _ _).1 hpath]
    exact List.prefix_append _ _
  unfold gatewayHandleSubServiceMessage
  cases hfind : manager.subDevices.findIdx? fun subDevice =>
      subDevice.config.servicePrefix.isPrefixOf topic with
  | none =>
    have hno := List.findIdx?_eq_none_iff.1 hfind subDevice hdevice
    rw [hbegins] at hno
    cases hno
  | some index =>
    obtain ⟨hlt, -⟩ := List.findIdx?_eq_some_iff_getElem.1 hfind
    have hget := List.getElem?_eq_getElem hlt
    obtain ⟨hconfigs, reply, hmem⟩ := @handleSubService_answers manager o index
      manager.subDevices[index]
      (topic.drop manager.subDevices[index].config.servicePrefix.length) payload
    exact ⟨_, _, _, reply, by simp only [hget, Option.map_some], List.getElem_mem hlt, hconfigs,
      hmem⟩

theorem subDevices_finitelyMany (manager : GatewayManager) {incoming : List (Bytes × Bytes)}
    (h : ∀ message ∈ incoming, (ServiceHost.subDevices manager).Settles message) :
    (ServiceHost.subDevices manager).FinitelyMany incoming := by
  refine Dispatcher.finitelyMany_of_weight
    (fun manager' => manager'.subDevices.map (·.config) = manager.subDevices.map (·.config))
    (fun message => (ServiceHost.subDevices manager).Settles message) (fun _ => 0) ?_ rfl h
  intro o manager' message manager'' out hconfigs hsettles hhandle
  have hnone : gatewayHandleSubServiceMessage manager' message.1 message.2 = none := by
    unfold gatewayHandleSubServiceMessage
    have hfind : (manager'.subDevices.findIdx? fun subDevice =>
        subDevice.config.servicePrefix.isPrefixOf message.1) = none := by
      refine List.findIdx?_eq_none_iff.2 fun subDevice' hmem' => ?_
      -- some sub-device of `manager` has the same configuration
      have hconfig : subDevice'.config ∈ manager.subDevices.map (·.config) := by
        rw [← hconfigs]
        exact List.mem_map.2 ⟨subDevice', hmem', rfl⟩
      obtain ⟨subDevice, hmem, heq⟩ := List.mem_map.1 hconfig
      have hpath := hsettles subDevice hmem
      rw [heq] at hpath
      exact (servicePath?_eq_none _ _).1 hpath
    rw [hfind]
  simp only [subDevicesDispatcher, hnone] at hhandle
  cases hhandle
  exact ⟨hconfigs, fun _ hmem => (by cases hmem), le_refl 0⟩

theorem subDevices_not_finitelyMany (manager : GatewayManager) {incoming : List (Bytes × Bytes)}
    {message : Bytes × Bytes} (hmem : message ∈ incoming)
    (h : ¬ (ServiceHost.subDevices manager).Settles message) :
    ¬ (ServiceHost.subDevices manager).FinitelyMany incoming := by
  have hpath : ∀ {message : Bytes × Bytes}, ¬ (ServiceHost.subDevices manager).Settles message →
      ∃ config ∈ manager.subDevices.map (·.config), ∃ path,
        servicePath? config.productKey config.deviceName message.1 = some path := by
    intro message hlive
    by_contra hnone
    refine hlive fun subDevice hmem => ?_
    by_contra hne
    exact hnone ⟨_, List.mem_map.2 ⟨subDevice, hmem, rfl⟩, Option.ne_none_iff_exists'.1 hne⟩
  refine Dispatcher.not_finitelyMany_of_live (fun manager' message =>
    manager'.subDevices.map (·.config) = manager.subDevices.map (·.config) ∧
      ¬ (ServiceHost.subDevices manager).Settles message) ?_ hmem ⟨rfl, h⟩
  rintro manager' message ⟨hconfigs, hlive⟩
  obtain ⟨config, hconfig, path, hpath⟩ := hpath hlive
  rw [← hconfigs] at hconfig
  obtain ⟨subDevice, hdevice, rfl⟩ := List.mem_map.1 hconfig
  let o : GatewayPublication.Outcomes := ⟨fun _ _ => [], 0, 0, fun _ => true⟩
  obtain ⟨handled, answering, path', reply, hhandled, hanswering, hkept, hpublished⟩ :=
    subService_answers o hdevice hpath message.2
  obtain ⟨path'', hpath''⟩ := servicePath?_replyTopic answering.config.productKey
    answering.config.deviceName path'
  have hmember : answering.config ∈ manager.subDevices.map (·.config) := by
    rw [← hconfigs]
    exact List.mem_map.2 ⟨answering, hanswering, rfl⟩
  refine ⟨o, handled.manager, _, _, ?_, hpublished, ?_, hkept.trans hconfigs, ?_⟩
  · simp only [subDevicesDispatcher, hhandled]
  · refine List.any_eq_true.2 ⟨answering.config, hmember, ?_⟩
    simp only [subscribesTo, hpath'', Option.isSome_some, Bool.or_true]
  · intro hsettles
    obtain ⟨configured, hconfigured, heq⟩ := List.mem_map.1 hmember
    have hnone := hsettles configured hconfigured
    rw [heq, hpath''] at hnone
    cases hnone

/-- A reply is answered. -/
theorem subDevices_not_leavesAlone (manager : GatewayManager) {message : Bytes × Bytes}
    (h : (ServiceHost.subDevices manager).IsReply message) :
    ¬ (ServiceHost.subDevices manager).LeavesAlone message := by
  obtain ⟨subDevice, hdevice, path, hpath, -⟩ := h
  intro hquiet
  let o : GatewayPublication.Outcomes := ⟨fun _ _ => [], 0, 0, fun _ => true⟩
  obtain ⟨handled, answering, path', reply, hhandled, -, -, hpublished⟩ :=
    subService_answers o hdevice hpath message.2
  have hhandle : (subDevicesDispatcher (manager.subDevices.map (·.config))).handle o manager
      message = some (handled.manager, handled.published.filterMap (·.message o manager)) := by
    simp only [subDevicesDispatcher, hhandled]
  rw [(Prod.mk.inj (hquiet _ _ hhandle)).2] at hpublished
  cases hpublished

end SubDevices

/-! ## All three -/

theorem leavesAlone_iff (host : ServiceHost) {message : Bytes × Bytes}
    (h : host.IsReply message) : host.LeavesAlone message ↔ host.FiltersReplies := by
  cases host with
  | runtime host => exact ⟨fun _ => trivial, fun _ => runtime_leavesAlone host h⟩
  | app context =>
    exact ⟨fun hquiet => app_not_leavesAlone context h hquiet, fun hfalse => hfalse.elim⟩
  | subDevices manager =>
    exact ⟨fun hquiet => subDevices_not_leavesAlone manager h hquiet, fun hfalse => hfalse.elim⟩

theorem finitelyMany_iff (host : ServiceHost) (incoming : List (Bytes × Bytes)) :
    host.FinitelyMany incoming ↔ ∀ message ∈ incoming, host.Settles message := by
  constructor
  · intro hfinite message hmem
    by_contra hlive
    cases host with
    | runtime host => exact runtime_not_finitelyMany host hmem hlive hfinite
    | app context => exact app_not_finitelyMany context hmem hlive hfinite
    | subDevices manager => exact subDevices_not_finitelyMany manager hmem hlive hfinite
  · intro hsettles
    cases host with
    | runtime host => exact runtime_finitelyMany host hsettles
    | app context => exact app_finitelyMany context hsettles
    | subDevices manager => exact subDevices_finitelyMany manager hsettles

/-- A message on a reply topic is handled without effect exactly by the dispatcher that
filters replies, and the publications that follow some incoming messages are bounded
exactly when every one of those settles. -/
theorem replies_settle_iff (host : ServiceHost) :
    (∀ message, host.IsReply message → (host.LeavesAlone message ↔ host.FiltersReplies)) ∧
      ∀ incoming, host.FinitelyMany incoming ↔ ∀ message ∈ incoming, host.Settles message :=
  ⟨fun _ h => leavesAlone_iff host h, finitelyMany_iff host⟩

/-- A device for examples. -/
def sampleNames : DeviceNames := .sample

/-- The runtime passes over a reply topic. -/
theorem replies_settle_iff_sample :
    (ServiceHost.runtime ⟨sampleNames, true, .created⟩).LeavesAlone
      (ascii "/sys/pk/dn/thing/service/x_reply", []) :=
  ((replies_settle_iff (.runtime ⟨sampleNames, true, .created⟩)).1
    (ascii "/sys/pk/dn/thing/service/x_reply", [])
    ⟨ascii "x_reply", by decide +kernel, by decide⟩).2 trivial

/-- The standalone program answers one. -/
theorem reply_is_answered :
    (appDispatchService .smooth ⟨sampleNames, false, .created, 0⟩
        (ascii "/sys/pk/dn/thing/service/x_reply") (ascii "\x7b\x7d")).map
      (fun handled => handled.published.map Prod.fst) =
      some [ascii "/sys/pk/dn/thing/service/x_reply_reply"] := by
  decide +kernel

end IotIde
