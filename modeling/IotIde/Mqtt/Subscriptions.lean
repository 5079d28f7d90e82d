import IotIde.Foundation.Runs
import IotIde.Mqtt.Publications
import IotIde.Mqtt.Topics

/-!
# Subscriptions of the MQTT client

The list of filters with their handlers, and what is called for a message.

* `coreMqttSublistInsert`, `coreMqttSublistRemove`, `coreMqttSublistRemoveHandler` — the list;
* `aiotMqttSub`, `aiotMqttUnsub`, `coreMqttAppendTopicMap`, `coreMqttRemoveTopicMap` — the calls
  that change it, with their checks;
* `coreMqttCallUserHandler` — the handlers that a message is passed to;
* `SubListWf`, `SubChange.Done` — no filter stands twice in the list and no handler twice under a
  filter, and what each change does to who is registered;
* `subscriptionsMachine`, `Registered` — the list through the calls, and who is registered by what
  was asked for;
* `handlers_called` — in every run a message is passed once to each handler for each filter that
  covers its topic under which the handler is registered, and to the default handler if there is
  none.
-/

namespace IotIde

open CText Runs

section List

variable {H U : Type} [DecidableEq H]

/-- `core_mqtt_sub_handler_node_t` -/
structure SubHandlerNode (H U : Type) where
  handler : H
  userdata : Option U

/-- `core_mqtt_sub_node_t` -/
structure SubNode (H U : Type) where
  topic : Bytes
  handleList : List (SubHandlerNode H U)

/-- The `malloc`s of one insertion: the entry, its topic, the entry of the handler. -/
structure SubMallocs where
  nodeOk : Bool
  topicOk : Bool
  handlerOk : Bool

/-! ## The list -/

/-- `_core_mqtt_handlerlist_insert`; nothing when its `malloc` fails. -/
def coreMqttHandlerlistInsert (handlerOk : Bool) (handler : H) (userdata : Option U) :
    List (SubHandlerNode H U) → Option (List (SubHandlerNode H U))
  | [] => if handlerOk then some [⟨handler, userdata⟩] else none
  | node :: nodes =>
    -- exist handler, replace userdata
    if node.handler = handler then some ({ node with userdata := userdata } :: nodes)
    else (coreMqttHandlerlistInsert handlerOk handler userdata nodes).map (node :: ·)

/-- `_core_mqtt_sublist_insert`; nothing when a `malloc` fails. -/
def coreMqttSublistInsert (mallocs : SubMallocs) (topic : Bytes) (handler : Option H)
    (userdata : Option U) : List (SubNode H U) → Option (List (SubNode H U))
  | [] =>
    if mallocs.nodeOk ∧ mallocs.topicOk then
      match handler with
      | some handler => (coreMqttHandlerlistInsert mallocs.handlerOk handler userdata []).map
          fun handleList => [⟨topic, handleList⟩]
      | none => some [⟨topic, []⟩]
    else none
  | node :: nodes =>
    if node.topic = topic then
      match handler with
      | some handler =>
        (coreMqttHandlerlistInsert mallocs.handlerOk handler userdata node.handleList).map
          fun handleList => { node with handleList := handleList } :: nodes
      | none => some (node :: nodes)
    else (coreMqttSublistInsert mallocs topic handler userdata nodes).map (node :: ·)

/-- `_core_mqtt_sublist_remove` -/
def coreMqttSublistRemove (topic : Bytes) (subList : List (SubNode H U)) : List (SubNode H U) :=
  subList.filter fun node => node.topic ≠ topic

/-- `_core_mqtt_sublist_remove_handler` -/
def coreMqttSublistRemoveHandler (topic : Bytes) (handler : Option H)
    (subList : List (SubNode H U)) : List (SubNode H U) :=
  subList.map fun node =>
    if node.topic = topic then
      { node with handleList := node.handleList.filter fun n => some n.handler ≠ handler }
    else node

/-! ## The calls -/

/-- The checks of `aiot_mqtt_sub` and `_core_mqtt_sub`, on a handle and with pointers that are not
`NULL`. -/
def coreMqttSubCheck (execEnabled : Bool) (topic : Bytes) (qos : ℕ) : ℤ :=
  if CORE_MQTT_TOPIC_MAXLEN ≤ topic.length then STATE_MQTT_TOPIC_TOO_LONG
  else if topic.length = 0 ∨ CORE_MQTT_QOS_MAX < qos then STATE_USER_INPUT_OUT_RANGE
  else if coreMqttTopicIsValid true topic < STATE_SUCCESS then STATE_MQTT_TOPIC_INVALID
  else if ¬ execEnabled then STATE_USER_INPUT_EXEC_DISABLED
  else STATE_SUCCESS

/-- `aiot_mqtt_sub`, up to the packet that it sends. -/
def aiotMqttSub (execEnabled : Bool) (mallocs : SubMallocs) (topic : Bytes) (handler : Option H)
    (qos : ℕ) (userdata : Option U) (subList : List (SubNode H U)) : ℤ × List (SubNode H U) :=
  let res := coreMqttSubCheck execEnabled topic qos
  if res < STATE_SUCCESS then (res, subList)
  else
    match coreMqttSublistInsert mallocs topic handler userdata subList with
    | some subList => (STATE_SUCCESS, subList)
    | none => (STATE_SYS_DEPEND_MALLOC_FAILED, subList)

/-- `aiot_mqtt_unsub`, up to the packet that it sends. -/
def aiotMqttUnsub (execEnabled : Bool) (topic : Bytes) (subList : List (SubNode H U)) :
    ℤ × List (SubNode H U) :=
  let res := coreMqttSubCheck execEnabled topic 0
  if res < STATE_SUCCESS then (res, subList)
  else (STATE_SUCCESS, coreMqttSublistRemove topic subList)

/-- The checks of the topic of `aiot_mqtt_topic_map_t`. -/
def topicMapCheck (topic : Bytes) : ℤ :=
  if CORE_MQTT_TOPIC_MAXLEN ≤ topic.length then STATE_MQTT_TOPIC_TOO_LONG
  else coreMqttTopicIsValid true topic

/-- `_core_mqtt_append_topic_map` -/
def coreMqttAppendTopicMap (mallocs : SubMallocs) (topic : Bytes) (handler : Option H)
    (userdata : Option U) (subList : List (SubNode H U)) : ℤ × List (SubNode H U) :=
  let res := topicMapCheck topic
  if res < STATE_SUCCESS then (res, subList)
  else
    match coreMqttSublistInsert mallocs topic handler userdata subList with
    | some subList => (STATE_SUCCESS, subList)
    | none => (STATE_SYS_DEPEND_MALLOC_FAILED, subList)

/-- `_core_mqtt_remove_topic_map` -/
def coreMqttRemoveTopicMap (topic : Bytes) (handler : Option H) (subList : List (SubNode H U)) :
    ℤ × List (SubNode H U) :=
  let res := topicMapCheck topic
  if res < STATE_SUCCESS then (res, subList)
  else (STATE_SUCCESS, coreMqttSublistRemoveHandler topic handler subList)

/-- A call of a handler, with the `userdata` that it gets. -/
inductive HandlerCall (H U : Type)
  | subscribed (handler : H) (userdata : Option U)
  | recvHandler (userdata : Option U)
  deriving DecidableEq

/-- The copies that `_core_mqtt_handlerlist_append` makes, by the numbers of their `malloc`s: one
that fails leaves its entry out. -/
def handlerlistAppend {α : Type} (mallocOk : ℕ → Bool) (nodes : List α) : List α :=
  (nodes.zipIdx.filter fun n => mallocOk n.2).map Prod.fst

/-- `_core_mqtt_call_user_handler` -/
def coreMqttCallUserHandler (recvHandler : Bool) (userdata : Option U) (mallocOk : ℕ → Bool)
    (subList : List (SubNode H U)) (topic : Bytes) : List (HandlerCall H U) :=
  let found := subList.filter fun node => coreMqttTopicCompare node.topic topic = STATE_SUCCESS
  let handlerListCopy := handlerlistAppend mallocOk (found.flatMap SubNode.handleList)
  handlerListCopy.map (fun node => .subscribed node.handler (node.userdata.or userdata)) ++
    if recvHandler ∧ handlerListCopy = [] then [.recvHandler userdata] else []

/-! ## Who is registered -/

/-- The filters with their handlers, in the order in which they are called. -/
def registrations (subList : List (SubNode H U)) : List (Bytes × H × Option U) :=
  subList.flatMap fun node => node.handleList.map fun n => (node.topic, n.handler, n.userdata)

/-- No filter stands twice in the list, and no handler twice under a filter. -/
structure SubListWf (subList : List (SubNode H U)) : Prop where
  topics : (subList.map SubNode.topic).Nodup
  handlers : ∀ node ∈ subList, (node.handleList.map SubHandlerNode.handler).Nodup

omit [DecidableEq H] in
@[simp] theorem registrations_cons (node : SubNode H U) (nodes : List (SubNode H U)) :
    registrations (node :: nodes) =
      (node.handleList.map fun n => (node.topic, n.handler, n.userdata)) ++ registrations nodes :=
  List.flatMap_cons

omit [DecidableEq H] in
theorem mem_registrations_of_handleList {topic topic' : Bytes} {handler : H} {userdata : Option U}
    {handleList : List (SubHandlerNode H U)} :
    (topic', handler, userdata) ∈ (handleList.map fun n => (topic, n.handler, n.userdata)) ↔
      topic' = topic ∧ ⟨handler, userdata⟩ ∈ handleList := by
  simp only [List.mem_map, Prod.mk.injEq]
  constructor
  · rintro ⟨n, hn, rfl, rfl, rfl⟩
    exact ⟨rfl, hn⟩
  · rintro ⟨rfl, hn⟩
    exact ⟨_, hn, rfl, rfl, rfl⟩

omit [DecidableEq H] in
/-- A filter with a registration stands in the list. -/
theorem topic_mem_of_registrations {subList : List (SubNode H U)} {e : Bytes × H × Option U}
    (h : e ∈ registrations subList) : e.1 ∈ subList.map SubNode.topic := by
  obtain ⟨node, hnode, he⟩ := List.mem_flatMap.1 h
  obtain ⟨n, -, rfl⟩ := List.mem_map.1 he
  exact List.mem_map_of_mem hnode

omit [DecidableEq H] in
theorem SubListWf.of_cons {node : SubNode H U} {nodes : List (SubNode H U)}
    (h : SubListWf (node :: nodes)) : SubListWf nodes :=
  ⟨(List.nodup_cons.1 h.topics).2, fun n hn => h.handlers n (List.mem_cons_of_mem _ hn)⟩

omit [DecidableEq H] in
theorem SubListWf.not_mem_registrations {node : SubNode H U} {nodes : List (SubNode H U)}
    (h : SubListWf (node :: nodes)) (handler : H) (userdata : Option U) :
    (node.topic, handler, userdata) ∉ registrations nodes := fun hmem =>
  (List.nodup_cons.1 h.topics).1 (topic_mem_of_registrations hmem)

omit [DecidableEq H] in
theorem SubListWf.cons {node : SubNode H U} {nodes : List (SubNode H U)} (h : SubListWf nodes)
    (htopic : node.topic ∉ nodes.map SubNode.topic)
    (hhandlers : (node.handleList.map SubHandlerNode.handler).Nodup) : SubListWf (node :: nodes) :=
  ⟨List.nodup_cons.2 ⟨htopic, h.topics⟩, List.forall_mem_cons.2 ⟨hhandlers, h.handlers⟩⟩

omit [DecidableEq H] in
theorem mem_cons_iff_of_new (node : SubHandlerNode H U) {nodes : List (SubHandlerNode H U)}
    (hnew : node.handler ∉ nodes.map SubHandlerNode.handler) {handler : H} {userdata : Option U} :
    ⟨handler, userdata⟩ ∈ node :: nodes ↔
      (handler = node.handler ∧ userdata = node.userdata) ∨
        (handler ≠ node.handler ∧ ⟨handler, userdata⟩ ∈ nodes) := by
  rw [List.mem_cons]
  constructor
  · rintro (rfl | hmem)
    · exact Or.inl ⟨rfl, rfl⟩
    · refine Or.inr ⟨?_, hmem⟩
      rintro rfl
      exact hnew (List.mem_map.2 ⟨_, hmem, rfl⟩)
  · rintro (⟨rfl, rfl⟩ | ⟨-, hmem⟩)
    · exact Or.inl rfl
    · exact Or.inr hmem

/-- A handler is put under a filter. -/
theorem handlerlistInsert_spec {handlerOk : Bool} {handler : H} {userdata : Option U}
    {nodes nodes' : List (SubHandlerNode H U)}
    (hnodup : (nodes.map SubHandlerNode.handler).Nodup)
    (h : coreMqttHandlerlistInsert handlerOk handler userdata nodes = some nodes') :
    (nodes'.map SubHandlerNode.handler).Nodup ∧
      (∀ x ∈ nodes'.map SubHandlerNode.handler,
        x = handler ∨ x ∈ nodes.map SubHandlerNode.handler) ∧
      ∀ handler' userdata', ⟨handler', userdata'⟩ ∈ nodes' ↔
        if handler' = handler then userdata' = userdata else ⟨handler', userdata'⟩ ∈ nodes := by
  induction nodes generalizing nodes' with
  | nil =>
    rw [coreMqttHandlerlistInsert] at h
    split_ifs at h
    cases h
    simp
  | cons node nodes ih =>
    obtain ⟨hnew, hnodup⟩ := List.nodup_cons.1 hnodup
    rw [coreMqttHandlerlistInsert] at h
    split_ifs at h with heq
    · cases h
      refine ⟨List.nodup_cons.2 ⟨hnew, hnodup⟩, fun x hx => Or.inr hx, fun handler' userdata' => ?_⟩
      rw [mem_cons_iff_of_new ⟨node.handler, userdata⟩ hnew, mem_cons_iff_of_new node hnew, heq]
      split_ifs with hhandler <;> simp [hhandler]
    · obtain ⟨rest, hrest, rfl⟩ := Option.map_eq_some_iff.1 h
      obtain ⟨hnodup', hmem, hiff⟩ := ih hnodup hrest
      have hnew' : node.handler ∉ rest.map SubHandlerNode.handler := fun hx =>
        (hmem _ hx).elim heq hnew
      refine ⟨List.nodup_cons.2 ⟨hnew', hnodup'⟩, fun x hx => ?_, fun handler' userdata' => ?_⟩
      · rcases List.mem_cons.1 hx with rfl | hx
        · exact Or.inr List.mem_cons_self
        · exact (hmem x hx).imp_right (List.mem_cons_of_mem _)
      · rw [mem_cons_iff_of_new node hnew', mem_cons_iff_of_new node hnew, hiff]
        split_ifs with hhandler
        · subst hhandler
          simp [Ne.symm heq]
        · rfl

/-- Under a filter that is new a handler is put as the only one. -/
theorem handlerlistInsert_nil {handlerOk : Bool} {handler : H} {userdata : Option U}
    {nodes : List (SubHandlerNode H U)}
    (h : coreMqttHandlerlistInsert handlerOk handler userdata [] = some nodes) :
    nodes = [⟨handler, userdata⟩] := by
  rw [coreMqttHandlerlistInsert] at h
  split_ifs at h
  exact (Option.some.inj h).symm

/-- What an insertion does: the handler, if there is one, is registered under the filter with its
`userdata`, and everything else stays. -/
theorem sublistInsert_spec {mallocs : SubMallocs} {topic : Bytes} {handler : Option H}
    {userdata : Option U} {subList subList' : List (SubNode H U)} (hwf : SubListWf subList)
    (h : coreMqttSublistInsert mallocs topic handler userdata subList = some subList') :
    SubListWf subList' ∧
      (∀ t ∈ subList'.map SubNode.topic, t = topic ∨ t ∈ subList.map SubNode.topic) ∧
      ∀ t handler' userdata', (t, handler', userdata') ∈ registrations subList' ↔
        if t = topic ∧ some handler' = handler then userdata' = userdata
        else (t, handler', userdata') ∈ registrations subList := by
  induction subList generalizing subList' with
  | nil =>
    unfold coreMqttSublistInsert at h
    split_ifs at h
    cases handler with
    | none =>
      cases h
      exact ⟨⟨by simp, by simp⟩, by simp, by simp [registrations]⟩
    | some handler =>
      obtain ⟨nodes, hnodes, rfl⟩ := Option.map_eq_some_iff.1 h
      obtain rfl := handlerlistInsert_nil hnodes
      refine ⟨⟨by simp, by simp⟩, by simp, fun t handler' userdata' => ?_⟩
      simp only [registrations, List.flatMap_cons, List.map_cons, List.map_nil, List.flatMap_nil,
        List.append_nil, List.mem_singleton, Prod.mk.injEq, Option.some_inj, List.not_mem_nil]
      split_ifs with hboth
      · simp [hboth]
      · simpa [← and_assoc] using fun ht hh _ => hboth ⟨ht, hh⟩
  | cons node nodes ih =>
    unfold coreMqttSublistInsert at h
    split_ifs at h with heq
    · subst heq
      have hnodup := hwf.handlers node List.mem_cons_self
      have hnew := (List.nodup_cons.1 hwf.topics).1
      cases handler with
      | none =>
        cases h
        exact ⟨hwf, fun t ht => Or.inr ht, by simp⟩
      | some handler =>
        obtain ⟨handleList, hlist, rfl⟩ := Option.map_eq_some_iff.1 h
        obtain ⟨hnodup', -, hiff⟩ := handlerlistInsert_spec hnodup hlist
        refine ⟨hwf.of_cons.cons hnew hnodup', fun t ht => Or.inr ht,
          fun t handler' userdata' => ?_⟩
        simp only [registrations_cons, List.mem_append, mem_registrations_of_handleList, hiff,
          Option.some_inj]
        by_cases ht : t = node.topic
        · subst ht
          simp [hwf.not_mem_registrations]
        · simp [ht]
    · obtain ⟨rest, hrest, rfl⟩ := Option.map_eq_some_iff.1 h
      obtain ⟨hwf', htopics, hiff⟩ := ih hwf.of_cons hrest
      have hnew := (List.nodup_cons.1 hwf.topics).1
      have hnew' : node.topic ∉ rest.map SubNode.topic := fun ht =>
        (htopics _ ht).elim heq hnew
      refine ⟨hwf'.cons hnew' (hwf.handlers node List.mem_cons_self), fun t ht => ?_,
        fun t handler' userdata' => ?_⟩
      · rcases List.mem_cons.1 ht with rfl | ht
        · exact Or.inr List.mem_cons_self
        · exact (htopics t ht).imp_right (List.mem_cons_of_mem _)
      · rw [registrations_cons, registrations_cons, List.mem_append, List.mem_append, hiff]
        split_ifs with hboth
        · have hne : t ≠ node.topic := fun ht => heq (ht.symm.trans hboth.1)
          simp [mem_registrations_of_handleList, hne]
        · rfl

omit [DecidableEq H] in
theorem mem_registrations {subList : List (SubNode H U)} {topic : Bytes} {handler : H}
    {userdata : Option U} : (topic, handler, userdata) ∈ registrations subList ↔
      ∃ node ∈ subList, topic = node.topic ∧ ⟨handler, userdata⟩ ∈ node.handleList := by
  simp only [registrations, List.mem_flatMap, mem_registrations_of_handleList]

omit [DecidableEq H] in
/-- Nobody is registered under a filter that was removed. -/
theorem sublistRemove_spec {topic : Bytes} {subList : List (SubNode H U)}
    (hwf : SubListWf subList) :
    SubListWf (coreMqttSublistRemove topic subList) ∧
      ∀ t handler userdata, (t, handler, userdata) ∈
          registrations (coreMqttSublistRemove topic subList) ↔
        t ≠ topic ∧ (t, handler, userdata) ∈ registrations subList := by
  refine ⟨⟨hwf.topics.sublist (List.filter_sublist.map _), fun node hnode =>
    hwf.handlers node (List.mem_of_mem_filter hnode)⟩, fun t handler userdata => ?_⟩
  simp only [coreMqttSublistRemove, mem_registrations, List.mem_filter, decide_eq_true_eq]
  constructor
  · rintro ⟨node, ⟨hnode, hne⟩, rfl, hmem⟩
    exact ⟨hne, node, hnode, rfl, hmem⟩
  · rintro ⟨hne, node, hnode, rfl, hmem⟩
    exact ⟨node, ⟨hnode, hne⟩, rfl, hmem⟩

/-- What `_core_mqtt_sublist_remove_handler` makes of an entry. -/
def SubNode.without (topic : Bytes) (handler : Option H) (node : SubNode H U) : SubNode H U :=
  if node.topic = topic then
    { node with handleList := node.handleList.filter fun n => some n.handler ≠ handler }
  else node

@[simp] theorem SubNode.without_topic (topic : Bytes) (handler : Option H) (node : SubNode H U) :
    (node.without topic handler).topic = node.topic := by
  rw [without]
  split_ifs <;> rfl

theorem SubNode.mem_without {topic : Bytes} {handler : Option H} {node : SubNode H U}
    {n : SubHandlerNode H U} : n ∈ (node.without topic handler).handleList ↔
      ¬ (node.topic = topic ∧ some n.handler = handler) ∧ n ∈ node.handleList := by
  rw [without]
  split_ifs with heq
  · simp [heq, and_comm]
  · simp [heq]

/-- One handler is taken from under a filter. -/
theorem sublistRemoveHandler_spec {topic : Bytes} {handler : Option H}
    {subList : List (SubNode H U)} (hwf : SubListWf subList) :
    SubListWf (coreMqttSublistRemoveHandler topic handler subList) ∧
      ∀ t handler' userdata, (t, handler', userdata) ∈
          registrations (coreMqttSublistRemoveHandler topic handler subList) ↔
        ¬ (t = topic ∧ some handler' = handler) ∧
          (t, handler', userdata) ∈ registrations subList := by
  have hmap : coreMqttSublistRemoveHandler topic handler subList =
      subList.map (SubNode.without topic handler) := rfl
  rw [hmap]
  refine ⟨⟨?_, ?_⟩, fun t handler' userdata => ?_⟩
  · simpa [Function.comp_def] using hwf.topics
  · rintro _ hmem
    obtain ⟨node, hnode, rfl⟩ := List.mem_map.1 hmem
    have hsub : (node.without topic handler).handleList.Sublist node.handleList := by
      rw [SubNode.without]
      split_ifs
      · exact List.filter_sublist
      · exact List.Sublist.refl _
    exact (hwf.handlers node hnode).sublist (hsub.map _)
  · simp only [mem_registrations, List.mem_map]
    constructor
    · rintro ⟨_, ⟨node, hnode, rfl⟩, rfl, hmem⟩
      obtain ⟨hkept, hmem⟩ := SubNode.mem_without.1 hmem
      exact ⟨by simpa using hkept, node, hnode, by simp, hmem⟩
    · rintro ⟨hkept, node, hnode, rfl, hmem⟩
      exact ⟨_, ⟨node, hnode, rfl⟩, by simp, SubNode.mem_without.2 ⟨hkept, hmem⟩⟩

omit [DecidableEq H] in
/-- Under a filter a handler is registered once. -/
theorem SubListWf.nodup_registrations {subList : List (SubNode H U)} (hwf : SubListWf subList) :
    ((registrations subList).map fun e => (e.1, e.2.1)).Nodup := by
  induction subList with
  | nil => exact List.nodup_nil
  | cons node nodes ih =>
    rw [registrations_cons, List.map_append, List.map_map]
    refine List.nodup_append.2 ⟨?_, ih hwf.of_cons, ?_⟩
    · have hinj : Function.Injective fun h : H => (node.topic, h) := fun _ _ h =>
        (Prod.ext_iff.1 h).2
      simpa [Function.comp_def] using (hwf.handlers node List.mem_cons_self).map hinj
    · rintro _ hleft _ hright rfl
      obtain ⟨n, -, rfl⟩ := List.mem_map.1 hleft
      obtain ⟨⟨t, h, u⟩, hmem, heq⟩ := List.mem_map.1 hright
      obtain ⟨rfl, -⟩ := Prod.ext_iff.1 heq
      exact hwf.not_mem_registrations h u hmem

omit [DecidableEq H] in
theorem handlerlistAppend_map {α β : Type} (mallocOk : ℕ → Bool) (f : α → β) (nodes : List α) :
    handlerlistAppend mallocOk (nodes.map f) = (handlerlistAppend mallocOk nodes).map f := by
  simp [handlerlistAppend, List.zipIdx_map, List.filter_map, Function.comp_def]

/-! ## Runs -/

variable (H U) in
/-- A call, with what it is given and how it goes. -/
inductive SubCall
  | sub (execEnabled : Bool) (mallocs : SubMallocs) (topic : Bytes) (handler : Option H) (qos : ℕ)
      (userdata : Option U)
  | unsub (execEnabled : Bool) (topic : Bytes)
  | appendTopicMap (mallocs : SubMallocs) (topic : Bytes) (handler : Option H)
      (userdata : Option U)
  | removeTopicMap (topic : Bytes) (handler : Option H)

variable (H U) in
/-- What a call asked for, if it was not turned down. -/
inductive SubChange
  | put (topic : Bytes) (handler : Option H) (userdata : Option U)
  | taken (topic : Bytes)
  | handlerTaken (topic : Bytes) (handler : Option H)

variable (H U) in
/-- The list, and what was asked for so far. -/
structure Subscriptions where
  subList : List (SubNode H U)
  history : List (SubChange H U)

/-- What a call returns, and the list after it. -/
def SubCall.apply (subList : List (SubNode H U)) : SubCall H U → ℤ × List (SubNode H U)
  | sub execEnabled mallocs topic handler qos userdata =>
    aiotMqttSub execEnabled mallocs topic handler qos userdata subList
  | unsub execEnabled topic => aiotMqttUnsub execEnabled topic subList
  | appendTopicMap mallocs topic handler userdata =>
    coreMqttAppendTopicMap mallocs topic handler userdata subList
  | removeTopicMap topic handler => coreMqttRemoveTopicMap topic handler subList

/-- What a call asks for. -/
def SubCall.change : SubCall H U → SubChange H U
  | sub _ _ topic handler _ userdata => .put topic handler userdata
  | unsub _ topic => .taken topic
  | appendTopicMap _ topic handler userdata => .put topic handler userdata
  | removeTopicMap topic handler => .handlerTaken topic handler

/-- A call, by itself under `sub_mutex`. -/
def Subscriptions.step (s : Subscriptions H U) (call : SubCall H U) : Subscriptions H U where
  subList := (call.apply s.subList).2
  history :=
    if (call.apply s.subList).1 < STATE_SUCCESS then s.history else s.history ++ [call.change]

/-- The list through the calls. -/
def subscriptionsMachine : Machine (Subscriptions H U) (SubCall H U) where
  init s := s = ⟨[], []⟩
  step s call := some (s.step call)

theorem reachable_foldl (calls : List (SubCall H U)) :
    subscriptionsMachine.Reachable (calls.foldl Subscriptions.step ⟨[], []⟩) := by
  induction calls using List.reverseRecOn with
  | nil => exact .init rfl
  | append_singleton calls call ih =>
    rw [List.foldl_append]
    exact .step ih trivial rfl

/-- Whether the change takes a handler from under a filter, or puts it there anew. -/
def SubChange.Overrides (topic : Bytes) (handler : H) : SubChange H U → Prop
  | put t h _ => t = topic ∧ h = some handler
  | taken t => t = topic
  | handlerTaken t h => t = topic ∧ h = some handler

/-- The handler was put under the filter with this `userdata`, and since then it was neither taken
from there nor put there anew. -/
def Registered (history : List (SubChange H U)) (topic : Bytes) (handler : H)
    (userdata : Option U) : Prop :=
  Since (fun e => e = .put topic (some handler) userdata)
    (fun e => ¬ e.Overrides topic handler) history

theorem topicCompare_eq_success {filter topic : Bytes} :
    coreMqttTopicCompare filter topic = STATE_SUCCESS ↔ topicCompareLoop filter topic = true := by
  have hcodes : STATE_MQTT_TOPIC_COMPARE_FAILED ≠ STATE_SUCCESS := by decide
  rw [coreMqttTopicCompare]
  split_ifs with h
  · exact iff_of_true rfl h
  · exact iff_of_false hcodes h

omit [DecidableEq H] in
theorem registered_concat {history : List (SubChange H U)} {e : SubChange H U} {topic : Bytes}
    {handler : H} {userdata : Option U} : Registered (history ++ [e]) topic handler userdata ↔
      e = .put topic (some handler) userdata ∨
        ¬ e.Overrides topic handler ∧ Registered history topic handler userdata :=
  since_concat

theorem topicIsValid_of_nonneg {topic : Bytes}
    (h : ¬ coreMqttTopicIsValid true topic < STATE_SUCCESS) :
    coreMqttTopicIsValid true topic = STATE_SUCCESS := by
  have hinvalid : STATE_MQTT_TOPIC_INVALID < STATE_SUCCESS := by decide
  unfold coreMqttTopicIsValid at h ⊢
  split_ifs at h ⊢
  · exact absurd hinvalid h
  · cases topic with
    | nil => rfl
    | cons ch topic =>
      dsimp only at h ⊢
      split_ifs at h ⊢
      · rfl
      · exact absurd hinvalid h

theorem mallocFailed_neg : STATE_SYS_DEPEND_MALLOC_FAILED < STATE_SUCCESS := by decide

theorem subCheck_topicIsValid {execEnabled : Bool} {topic : Bytes} {qos : ℕ}
    (h : ¬ coreMqttSubCheck execEnabled topic qos < STATE_SUCCESS) :
    coreMqttTopicIsValid true topic = STATE_SUCCESS := by
  refine topicIsValid_of_nonneg fun hinvalid => h ?_
  rw [coreMqttSubCheck, if_pos hinvalid]
  split_ifs <;> decide

theorem topicMapCheck_topicIsValid {topic : Bytes} (h : ¬ topicMapCheck topic < STATE_SUCCESS) :
    coreMqttTopicIsValid true topic = STATE_SUCCESS := by
  refine topicIsValid_of_nonneg fun hinvalid => h ?_
  rw [topicMapCheck]
  split_ifs
  · decide
  · exact hinvalid

/-- What a list is after a change: still without doubles, with no filter but the old ones and one
that was checked, and with the registrations that the change asks for. -/
structure SubChange.Done (change : SubChange H U) (subList subList' : List (SubNode H U)) :
    Prop where
  wf : SubListWf subList'
  topics : ∀ t ∈ subList'.map SubNode.topic,
    coreMqttTopicIsValid true t = STATE_SUCCESS ∨ t ∈ subList.map SubNode.topic
  registrations : ∀ t handler userdata, (t, handler, userdata) ∈ registrations subList' ↔
    change = .put t (some handler) userdata ∨
      ¬ change.Overrides t handler ∧ (t, handler, userdata) ∈ registrations subList

theorem done_put {mallocs : SubMallocs} {topic : Bytes} {handler : Option H} {userdata : Option U}
    {subList subList' : List (SubNode H U)} (hwf : SubListWf subList)
    (hvalid : coreMqttTopicIsValid true topic = STATE_SUCCESS)
    (h : coreMqttSublistInsert mallocs topic handler userdata subList = some subList') :
    (SubChange.put topic handler userdata).Done subList subList' := by
  obtain ⟨hwf', htopics, hiff⟩ := sublistInsert_spec hwf h
  refine ⟨hwf', fun t ht => ?_, fun t handler' userdata' => (hiff t handler' userdata').trans ?_⟩
  · rcases htopics t ht with rfl | ht
    · exact Or.inl hvalid
    · exact Or.inr ht
  · simp only [SubChange.Overrides, SubChange.put.injEq]
    split_ifs with hboth
    · obtain ⟨rfl, rfl⟩ := hboth
      simp [eq_comm]
    · have hboth' : ¬ (topic = t ∧ handler = some handler') := fun h => hboth ⟨h.1.symm, h.2.symm⟩
      simp only [hboth', not_false_iff, true_and, ← and_assoc, false_and, false_or]

omit [DecidableEq H] in
theorem done_taken {topic : Bytes} {subList : List (SubNode H U)} (hwf : SubListWf subList) :
    (SubChange.taken topic).Done subList (coreMqttSublistRemove topic subList) := by
  obtain ⟨hwf', hiff⟩ := sublistRemove_spec hwf
  refine ⟨hwf', fun t ht => Or.inr ?_, fun t handler userdata => (hiff t handler userdata).trans ?_⟩
  · exact (List.filter_sublist.map _).subset ht
  · simp [SubChange.Overrides, eq_comm]

theorem done_handlerTaken {topic : Bytes} {handler : Option H} {subList : List (SubNode H U)}
    (hwf : SubListWf subList) : (SubChange.handlerTaken topic handler).Done subList
      (coreMqttSublistRemoveHandler topic handler subList) := by
  obtain ⟨hwf', hiff⟩ := sublistRemoveHandler_spec hwf
  refine ⟨hwf', fun t ht => Or.inr ?_,
    fun t handler' userdata => (hiff t handler' userdata).trans ?_⟩
  · have hmap : (coreMqttSublistRemoveHandler topic handler subList).map SubNode.topic =
        subList.map SubNode.topic := by
      have hdef : coreMqttSublistRemoveHandler topic handler subList =
          subList.map (SubNode.without topic handler) := rfl
      simp [hdef, Function.comp_def]
    rwa [hmap] at ht
  · simp [SubChange.Overrides, eq_comm]

/-- A call that is turned down changes nothing; any other does what it asks for. -/
theorem SubCall.apply_cases (call : SubCall H U) {subList : List (SubNode H U)}
    (hwf : SubListWf subList) :
    ((call.apply subList).1 < STATE_SUCCESS ∧ (call.apply subList).2 = subList) ∨
      (¬ (call.apply subList).1 < STATE_SUCCESS ∧
        call.change.Done subList (call.apply subList).2) := by
  cases call with
  | sub execEnabled mallocs topic handler qos userdata =>
    simp only [apply, aiotMqttSub, change]
    split_ifs with hcheck
    · exact Or.inl ⟨hcheck, rfl⟩
    · cases hinsert : coreMqttSublistInsert mallocs topic handler userdata subList with
      | none => exact Or.inl ⟨mallocFailed_neg, rfl⟩
      | some subList' =>
        exact Or.inr ⟨lt_irrefl _, done_put hwf (subCheck_topicIsValid hcheck) hinsert⟩
  | unsub execEnabled topic =>
    simp only [apply, aiotMqttUnsub, change]
    split_ifs with hcheck
    · exact Or.inl ⟨hcheck, rfl⟩
    · exact Or.inr ⟨lt_irrefl _, done_taken hwf⟩
  | appendTopicMap mallocs topic handler userdata =>
    simp only [apply, coreMqttAppendTopicMap, change]
    split_ifs with hcheck
    · exact Or.inl ⟨hcheck, rfl⟩
    · cases hinsert : coreMqttSublistInsert mallocs topic handler userdata subList with
      | none => exact Or.inl ⟨mallocFailed_neg, rfl⟩
      | some subList' =>
        exact Or.inr ⟨lt_irrefl _, done_put hwf (topicMapCheck_topicIsValid hcheck) hinsert⟩
  | removeTopicMap topic handler =>
    simp only [apply, coreMqttRemoveTopicMap, change]
    split_ifs with hcheck
    · exact Or.inl ⟨hcheck, rfl⟩
    · exact Or.inr ⟨lt_irrefl _, done_handlerTaken hwf⟩

/-- What holds of the list in every run. -/
structure Subscriptions.Inv (s : Subscriptions H U) : Prop where
  wf : SubListWf s.subList
  topics : ∀ t ∈ s.subList.map SubNode.topic, coreMqttTopicIsValid true t = STATE_SUCCESS
  registrations : ∀ t handler userdata,
    (t, handler, userdata) ∈ registrations s.subList ↔ Registered s.history t handler userdata

theorem Subscriptions.Inv.step {s : Subscriptions H U} (hinv : s.Inv) (call : SubCall H U) :
    (s.step call).Inv := by
  unfold Subscriptions.step
  rcases call.apply_cases hinv.wf with ⟨hres, hsame⟩ | ⟨hres, hdone⟩
  · rw [if_pos hres, hsame]
    exact hinv
  · rw [if_neg hres]
    refine ⟨hdone.wf, fun t ht => (hdone.topics t ht).elim id (hinv.topics t),
      fun t handler userdata => ?_⟩
    rw [hdone.registrations, hinv.registrations, registered_concat]

theorem subscriptions_inv {s : Subscriptions H U}
    (hs : subscriptionsMachine.Reachable s) : s.Inv := by
  refine Machine.invariant ?_ (fun _ call _ hinv _ hstep => ?_) s hs
  · rintro _ rfl
    exact ⟨⟨List.nodup_nil, by simp⟩, by simp, by simp [registrations, Registered, not_since_nil]⟩
  · cases hstep
    exact hinv.step call

/-! ## Who is called -/

/-- The calls for the registrations whose copies could be made. -/
def handlerCalls (recvHandler : Bool) (userdata : Option U) (regs : List (Bytes × H × Option U)) :
    List (HandlerCall H U) :=
  regs.map (fun e => .subscribed e.2.1 (e.2.2.or userdata)) ++
    if recvHandler ∧ regs = [] then [.recvHandler userdata] else []

omit [DecidableEq H] in
/-- The calls, from the registrations under the filters that compare with the topic. -/
theorem callUserHandler_eq (recvHandler : Bool) (userdata : Option U) (mallocOk : ℕ → Bool)
    (subList : List (SubNode H U)) (topic : Bytes) :
    coreMqttCallUserHandler recvHandler userdata mallocOk subList topic =
      handlerCalls recvHandler userdata (handlerlistAppend mallocOk (registrations
        (subList.filter fun node => coreMqttTopicCompare node.topic topic = STATE_SUCCESS))) := by
  set found := subList.filter fun node => coreMqttTopicCompare node.topic topic = STATE_SUCCESS
  have hlist : found.flatMap SubNode.handleList =
      (registrations found).map fun e => ⟨e.2.1, e.2.2⟩ := by
    simp [registrations, List.map_flatMap, Function.comp_def]
  rw [coreMqttCallUserHandler, hlist, handlerlistAppend_map, handlerCalls]
  simp [Function.comp_def]

/-- **A message goes to the handlers that its topic is subscribed for.**  Whatever was subscribed
and unsubscribed before, a message is passed, once each, to the handlers that are registered under
the filters that cover its topic, with the `userdata` that was last given for them, save those
whose copy finds no memory; and to the default handler exactly if none of them is called. -/
theorem handlers_called {s : Subscriptions H U} (hs : subscriptionsMachine.Reachable s)
    (recvHandler : Bool) (userdata : Option U) (mallocOk : ℕ → Bool) (topic : Bytes) :
    ∃ regs : List (Bytes × H × Option U),
      (regs.map fun e => (e.1, e.2.1)).Nodup ∧
      (∀ f handler u, (f, handler, u) ∈ regs ↔ Registered s.history f handler u ∧
        mqttSymbols.Covers f topic ∧
          ¬ EmptyAtWildcard (mqttSymbols.filter f) (topic.splitOn slash)) ∧
      coreMqttCallUserHandler recvHandler userdata mallocOk s.subList topic =
        handlerCalls recvHandler userdata (handlerlistAppend mallocOk regs) := by
  have hinv := subscriptions_inv hs
  refine ⟨_, ?_, fun f handler u => ?_, callUserHandler_eq recvHandler userdata mallocOk _ _⟩
  · refine SubListWf.nodup_registrations ⟨?_, fun node hnode => ?_⟩
    · exact hinv.wf.topics.sublist (List.filter_sublist.map _)
    · exact hinv.wf.handlers node (List.mem_of_mem_filter hnode)
  · rw [← hinv.registrations]
    simp only [mem_registrations, List.mem_filter, decide_eq_true_eq]
    constructor
    · rintro ⟨node, ⟨hnode, hcompare⟩, rfl, hmem⟩
      have hvalid := hinv.topics _ (List.mem_map_of_mem hnode)
      exact ⟨⟨node, hnode, rfl, hmem⟩, (topicCompareLoop_iff (wellFormed_of_topicIsValid hvalid)
        topic).1 (topicCompare_eq_success.1 hcompare)⟩
    · rintro ⟨⟨node, hnode, rfl, hmem⟩, hcovers⟩
      have hvalid := hinv.topics _ (List.mem_map_of_mem hnode)
      exact ⟨node, ⟨hnode, topicCompare_eq_success.2 ((topicCompareLoop_iff
        (wellFormed_of_topicIsValid hvalid) topic).2 hcovers)⟩, rfl, hmem⟩

end List

/-- Two filters cover the topic, the handler of the third was taken from there again. -/
theorem handlers_called_two :
    let calls : List (SubCall ℕ ℕ) :=
      [.appendTopicMap ⟨true, true, true⟩ (ascii "/a/+") (some 1) none,
        .appendTopicMap ⟨true, true, true⟩ (ascii "/a/#") (some 2) none,
        .sub true ⟨true, true, true⟩ (ascii "/a/b") (some 1) 1 (some 5),
        .removeTopicMap (ascii "/a/#") (some 2)]
    let s := calls.foldl Subscriptions.step ⟨[], []⟩
    coreMqttCallUserHandler true (some 7) (fun _ => true) s.subList (ascii "/a/b") =
        [.subscribed 1 (some 7), .subscribed 1 (some 5)] ∧
      ∃ regs : List (Bytes × ℕ × Option ℕ),
        (regs.map fun e => (e.1, e.2.1)).Nodup ∧
        (∀ f handler u, (f, handler, u) ∈ regs ↔ Registered s.history f handler u ∧
          mqttSymbols.Covers f (ascii "/a/b") ∧
            ¬ EmptyAtWildcard (mqttSymbols.filter f) ((ascii "/a/b").splitOn slash)) ∧
        coreMqttCallUserHandler true (some 7) (fun _ => true) s.subList (ascii "/a/b") =
          handlerCalls true (some 7) (handlerlistAppend (fun _ => true) regs) :=
  ⟨by decide, handlers_called (reachable_foldl _) true (some 7) _ (ascii "/a/b")⟩

end IotIde
