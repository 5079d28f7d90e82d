import IotIde.Mqtt.Inbound

/-!
# Publications and their packet ids

How the client sends: the writes, the ids of its packets, and the list in which it keeps its
publications of quality of service 1 until they are acknowledged.

* `writeOrClose` — a write, and what every caller does when it fails;
* `coreMqttPacketId` — the next id, with `packetId_iterate`, the cycle of the ids;
* `coreMqttPublistInsert`, `coreMqttPublistRemove`, `coreMqttRepub` — the list;
* `aiotMqttPub`, `coreMqttPub` — a publication, and `aiotMqttPub_cases`, all that it can do.
-/

namespace IotIde

open CText Frames

def STATE_USER_INPUT_OUT_RANGE : ℤ := -0x0102
def STATE_USER_INPUT_EXEC_DISABLED : ℤ := -0x0109
def STATE_SYS_DEPEND_NWK_WRITE_LESSDATA : ℤ := -0x0206
def STATE_SYS_DEPEND_NWK_SEND_ERR : ℤ := -0x0209
def STATE_MQTT_PUBLIST_PACKET_ID_ROLL : ℤ := -0x0307
def STATE_MQTT_TOPIC_TOO_LONG : ℤ := -0x031B
def STATE_MQTT_PUB_PAYLOAD_TOO_LONG : ℤ := -0x031C
def STATE_QOS_CACHE_EXCEEDS_LIMIT : ℤ := -0x0F28

def CORE_MQTT_TOPIC_MAXLEN : ℕ := 128
def CORE_MQTT_PAYLOAD_MAXLEN : ℕ := 1024 * 1024 + 1
def CORE_MQTT_QOS_MAX : ℕ := 1

/-! ## Writes -/

/-- How the port's write ends: everything was written, or the timeout came after `n` bytes, or
a negative code after `n` bytes. -/
inductive WriteOutcome
  | whole
  | short (n : ℕ)
  | failed (code n : ℕ)

/-- An entry of `pub_list`. -/
structure PubNode where
  packetId : ℕ
  packet : Bytes
  lastSendTime : ℕ

/-- What of the handle the functions below read and write.  `wire` is what has been written on
the connection and not been read by the server. -/
structure Sender where
  packetId : ℕ
  repubListLimit : ℕ
  repubTimeoutMs : ℕ
  pubList : List PubNode
  isOpen : Bool
  wire : Bytes

/-- `_core_mqtt_write`: the code, and the bytes that went out. -/
def coreMqttWrite (isOpen : Bool) (buffer : Bytes) (outcome : WriteOutcome) : ℤ × Bytes :=
  if ¬ isOpen then (STATE_SYS_DEPEND_NWK_CLOSED, [])
  else
    match outcome with
    | .whole => (buffer.length, buffer)
    | .short n =>
      let sent := buffer.take n
      (if sent.length ≠ buffer.length then STATE_SYS_DEPEND_NWK_WRITE_LESSDATA else sent.length, sent)
    | .failed code n =>
      (coreMqttSysdepReturn (.negSucc code) STATE_SYS_DEPEND_NWK_SEND_ERR, buffer.take n)

/-- A write, and what its callers do then: a failure closes the connection, unless the write
fell short. -/
def writeOrClose (s : Sender) (pkt : Bytes) (outcome : WriteOutcome) : ℤ × Sender :=
  let (res, sent) := coreMqttWrite s.isOpen pkt outcome
  (res, { s with
    wire := s.wire ++ sent
    isOpen := s.isOpen && (decide (STATE_SUCCESS ≤ res) ||
      decide (res = STATE_SYS_DEPEND_NWK_WRITE_LESSDATA)) })

theorem coreMqttSysdepReturn_send (code : ℤ) :
    coreMqttSysdepReturn code STATE_SYS_DEPEND_NWK_SEND_ERR < STATE_SUCCESS ∧
      coreMqttSysdepReturn code STATE_SYS_DEPEND_NWK_SEND_ERR ≠
        STATE_SYS_DEPEND_NWK_WRITE_LESSDATA := by
  simp only [coreMqttSysdepReturn, STATE_PORT_BASE, STATE_SUCCESS, STATE_SYS_DEPEND_NWK_SEND_ERR,
    STATE_SYS_DEPEND_NWK_WRITE_LESSDATA]
  split_ifs <;> omega

theorem coreMqttWrite_failed (buffer : Bytes) (code n : ℕ) :
    coreMqttWrite true buffer (.failed code n) =
      (coreMqttSysdepReturn (.negSucc code) STATE_SYS_DEPEND_NWK_SEND_ERR, buffer.take n) := by
  rw [coreMqttWrite.eq_def, if_neg (not_not.2 rfl)]

theorem coreMqttWrite_prefix (isOpen : Bool) (buffer : Bytes) (outcome : WriteOutcome) :
    (coreMqttWrite isOpen buffer outcome).2 <+: buffer := by
  cases isOpen with
  | false => exact List.nil_prefix
  | true =>
    cases outcome with
    | whole => exact List.prefix_rfl
    | short n => exact List.take_prefix n buffer
    | failed code n => exact List.take_prefix n buffer

/-- Without an error everything went out. -/
theorem coreMqttWrite_success {isOpen : Bool} {buffer : Bytes} {outcome : WriteOutcome}
    (h : STATE_SUCCESS ≤ (coreMqttWrite isOpen buffer outcome).1) :
    isOpen = true ∧ (coreMqttWrite isOpen buffer outcome).2 = buffer := by
  cases isOpen with
  | false => simp [coreMqttWrite, STATE_SUCCESS, STATE_SYS_DEPEND_NWK_CLOSED] at h
  | true =>
    refine ⟨rfl, ?_⟩
    cases outcome with
    | whole => rfl
    | short n =>
      have h : STATE_SUCCESS ≤ if (buffer.take n).length ≠ buffer.length then
          STATE_SYS_DEPEND_NWK_WRITE_LESSDATA else ((buffer.take n).length : ℤ) := h
      split_ifs at h with hlen
      · simp [STATE_SUCCESS, STATE_SYS_DEPEND_NWK_WRITE_LESSDATA] at h
      · exact (List.take_prefix n buffer).eq_of_length (not_not.1 hlen)
    | failed code n =>
      have hneg := (coreMqttSysdepReturn_send (.negSucc code)).1
      simp only [coreMqttWrite_failed] at h
      omega

/-- A write on an open connection falls short only at a timeout. -/
theorem coreMqttWrite_lessData {buffer : Bytes} {outcome : WriteOutcome}
    (h : (coreMqttWrite true buffer outcome).1 = STATE_SYS_DEPEND_NWK_WRITE_LESSDATA) :
    ∃ n, outcome = .short n := by
  cases outcome with
  | whole =>
    have h : (buffer.length : ℤ) = STATE_SYS_DEPEND_NWK_WRITE_LESSDATA := h
    rw [STATE_SYS_DEPEND_NWK_WRITE_LESSDATA] at h
    omega
  | short n => exact ⟨n, rfl⟩
  | failed code n =>
    have hless := (coreMqttSysdepReturn_send (.negSucc code)).2
    simp only [coreMqttWrite_failed] at h
    exact absurd h hless

/-- What a write does to the sender: a front of the packet goes out, all of it where the code is
no error, and all of it too where the connection stays open and no timeout came. -/
theorem writeOrClose_spec (s : Sender) (pkt : Bytes) (outcome : WriteOutcome) :
    ∃ sent isOpen, (writeOrClose s pkt outcome).2 =
        { s with wire := s.wire ++ sent, isOpen := isOpen } ∧
      sent <+: pkt ∧ (s.isOpen = false → sent = [] ∧ isOpen = false) ∧
      (STATE_SUCCESS ≤ (writeOrClose s pkt outcome).1 → isOpen = true ∧ sent = pkt) ∧
      (isOpen = true → (∀ n, outcome ≠ .short n) → sent = pkt) := by
  refine ⟨_, _, rfl, coreMqttWrite_prefix .., ?_, ?_, ?_⟩
  · intro hclosed
    rw [hclosed]
    exact ⟨rfl, rfl⟩
  · intro h
    have h : STATE_SUCCESS ≤ (coreMqttWrite s.isOpen pkt outcome).1 := h
    obtain ⟨hopen, hsent⟩ := coreMqttWrite_success h
    refine ⟨?_, hsent⟩
    rw [Bool.and_eq_true, Bool.or_eq_true, decide_eq_true_eq]
    exact ⟨hopen, Or.inl h⟩
  · intro hopen hshort
    simp only [Bool.and_eq_true, Bool.or_eq_true, decide_eq_true_eq] at hopen
    obtain ⟨hwas, hres | hres⟩ := hopen
    · exact (coreMqttWrite_success hres).2
    · rw [hwas] at hres
      obtain ⟨n, rfl⟩ := coreMqttWrite_lessData hres
      exact absurd rfl (hshort n)

@[simp] theorem writeOrClose_pubList (s : Sender) (pkt : Bytes) (outcome : WriteOutcome) :
    (writeOrClose s pkt outcome).2.pubList = s.pubList := rfl

/-! ## Packet ids -/

/-- `_core_mqtt_packet_id`, on the 16-bit number of the handle. -/
def coreMqttPacketId (packetId : ℕ) : ℕ :=
  let packetId := if (packetId + 1) % 2 ^ 16 = 0 then 0 else packetId
  (packetId + 1) % 2 ^ 16

theorem coreMqttPacketId_eq {packetId : ℕ} (h : packetId < 2 ^ 16) :
    coreMqttPacketId packetId = packetId % 65535 + 1 := by
  simp only [coreMqttPacketId]
  split_ifs <;> omega

theorem coreMqttPacketId_range {packetId : ℕ} (h : packetId < 2 ^ 16) :
    1 ≤ coreMqttPacketId packetId ∧ coreMqttPacketId packetId ≤ 65535 := by
  rw [coreMqttPacketId_eq h]
  omega

/-- **The ids go round from 1 to 65535.** -/
theorem packetId_iterate {packetId : ℕ} (h : packetId < 2 ^ 16) (n : ℕ) :
    coreMqttPacketId^[n + 1] packetId = (packetId + n) % 65535 + 1 := by
  induction n with
  | zero => exact coreMqttPacketId_eq h
  | succ n ih =>
    rw [Function.iterate_succ_apply', ih, coreMqttPacketId_eq (by omega)]
    omega

/-! ## The list -/

/-- The loop of `_core_mqtt_publist_insert`, from the entry `packNum` on. -/
def publistCheck (repubListLimit packetId : ℕ) : ℕ → List PubNode → ℤ
  | _, [] => STATE_SUCCESS
  | packNum, node :: nodes =>
    if node.packetId = packetId then STATE_MQTT_PUBLIST_PACKET_ID_ROLL
    else if repubListLimit < packNum then STATE_QOS_CACHE_EXCEEDS_LIMIT
    else publistCheck repubListLimit packetId ((packNum + 1) % 2 ^ 16) nodes

/-- `_core_mqtt_publist_insert`, with the outcome of its `malloc` calls and the time. -/
def coreMqttPublistInsert (s : Sender) (packet : Bytes) (packetId : ℕ) (mallocOk : Bool)
    (time : ℕ) : ℤ × Sender :=
  let res := publistCheck s.repubListLimit packetId 0 s.pubList
  if res < STATE_SUCCESS then (res, s)
  else if ¬ mallocOk then (STATE_SYS_DEPEND_MALLOC_FAILED, s)
  else (STATE_SUCCESS, { s with pubList := s.pubList ++ [⟨packetId, packet, time⟩] })

/-- `_core_mqtt_publist_remove` -/
def coreMqttPublistRemove (s : Sender) (packetId : ℕ) : Sender :=
  { s with pubList := s.pubList.eraseP (·.packetId = packetId) }

/-- The loop of `_core_mqtt_repub`, behind the entries `done`.  Each entry has a reading of the
clock and the outcome of a write. -/
def repubLoop (s : Sender) (readings : ℕ → ℕ × WriteOutcome) :
    List PubNode → List PubNode → ℤ × Sender
  | done, [] => (STATE_SUCCESS, { s with pubList := done })
  | done, node :: nodes =>
    let (timeNow, outcome) := readings 0
    let node := if timeNow < node.lastSendTime then { node with lastSendTime := timeNow } else node
    if s.repubTimeoutMs ≤ timeNow - node.lastSendTime then
      let (res, s) := writeOrClose s node.packet outcome
      let node := { node with lastSendTime := timeNow }
      if res < STATE_SUCCESS then (res, { s with pubList := done ++ node :: nodes })
      else repubLoop s (fun i => readings (i + 1)) (done ++ [node]) nodes
    else repubLoop s (fun i => readings (i + 1)) (done ++ [node]) nodes

/-- `_core_mqtt_repub` -/
def coreMqttRepub (s : Sender) (readings : ℕ → ℕ × WriteOutcome) : ℤ × Sender :=
  repubLoop s readings [] s.pubList

/-! ## A publication -/

/-- What a call of `aiot_mqtt_pub` meets: whether each `malloc` succeeds, the clock and the
write. -/
structure PubEnv where
  pktMallocOk : Bool
  nodeMallocOk : Bool
  time : ℕ
  outcome : WriteOutcome

/-- `_core_mqtt_pub` -/
def coreMqttPub (s : Sender) (msg : CoreMqttMsg) (qos : ℕ) (env : PubEnv) : ℤ × Sender :=
  if ¬ env.pktMallocOk then (STATE_SYS_DEPEND_MALLOC_FAILED, s)
  else if qos = 1 then
    let packetId := coreMqttPacketId s.packetId
    let s := { s with packetId := packetId }
    let pkt := pubPkt msg.topic msg.payload qos packetId
    let (res, s) := coreMqttPublistInsert s pkt packetId env.nodeMallocOk env.time
    if res < STATE_SUCCESS then (res, s)
    else
      let (res, s) := writeOrClose s pkt env.outcome
      (if res < STATE_SUCCESS then res else packetId, s)
  else
    let (res, s) := writeOrClose s (pubPkt msg.topic msg.payload qos 0) env.outcome
    (if res < STATE_SUCCESS then res else STATE_SUCCESS, s)

/-- `_core_mqtt_pub_params_check`, on a handle and with pointers that are not `NULL`. -/
def coreMqttPubParamsCheck (execEnabled isOpen : Bool) (msg : CoreMqttMsg) (qos : ℕ) : ℤ :=
  if CORE_MQTT_TOPIC_MAXLEN ≤ msg.topic.length then STATE_MQTT_TOPIC_TOO_LONG
  else if msg.topic.length = 0 ∨ CORE_MQTT_QOS_MAX < qos then STATE_USER_INPUT_OUT_RANGE
  else if CORE_MQTT_PAYLOAD_MAXLEN ≤ msg.payload.length then STATE_MQTT_PUB_PAYLOAD_TOO_LONG
  else if ¬ isOpen then STATE_SYS_DEPEND_NWK_CLOSED
  else if ¬ execEnabled then STATE_USER_INPUT_EXEC_DISABLED
  else STATE_SUCCESS

/-- The options of a handle that change what is published: `append_requestid`, with the time and
the random number of this call where its `malloc` succeeds, and the compression. -/
structure PubOptions where
  appendRequestid : Option (ℕ × ℕ)
  compress : Option (CoreMqttMsg → ℤ × CoreMqttMsg)

/-- `_core_mqtt_append_rid` -/
def coreMqttAppendRid (topic : Bytes) (timestamp rand : ℕ) : Bytes :=
  topic ++ ascii "?_rid=" ++ decimalNat timestamp ++ decimalNat rand

/-- `aiot_mqtt_pub` -/
def aiotMqttPub (opts : PubOptions) (execEnabled : Bool) (s : Sender) (msg : CoreMqttMsg) (qos : ℕ)
    (env : PubEnv) : ℤ × Sender :=
  let res := coreMqttPubParamsCheck execEnabled s.isOpen msg qos
  if res ≠ STATE_SUCCESS then (res, s)
  else
    let topic := match opts.appendRequestid with
      | some (timestamp, rand) => coreMqttAppendRid msg.topic timestamp rand
      | none => msg.topic
    match opts.compress with
    | some handler =>
      let (res, dest) := handler ⟨topic, msg.payload⟩
      if res < STATE_SUCCESS then (res, s) else coreMqttPub s ⟨topic, dest.payload⟩ qos env
    | none => coreMqttPub s ⟨topic, msg.payload⟩ qos env

/-! ## The other packets -/

/-- `_core_mqtt_heartbeat` -/
def coreMqttHeartbeat (s : Sender) (outcome : WriteOutcome) : ℤ × Sender :=
  let (res, s) := writeOrClose s pingreqPkt outcome
  (if res < STATE_SUCCESS then res else STATE_SUCCESS, s)

/-- `_core_mqtt_puback_send` -/
def coreMqttPubackSend (s : Sender) (packetId : ℕ) (outcome : WriteOutcome) : ℤ × Sender :=
  let (res, s) := writeOrClose s (pubackPkt packetId) outcome
  (if res < STATE_SUCCESS then res else STATE_SUCCESS, s)

/-- `_core_mqtt_subunsub` -/
def coreMqttSubunsub (s : Sender) (topic : Bytes) (qos pktType : ℕ) (mallocOk : Bool)
    (outcome : WriteOutcome) : ℤ × Sender :=
  if ¬ mallocOk then (STATE_SYS_DEPEND_MALLOC_FAILED, s)
  else
    let packetId := coreMqttPacketId s.packetId
    let (res, s) := writeOrClose { s with packetId := packetId }
      (subunsubPkt topic qos packetId pktType) outcome
    (if res < STATE_SUCCESS then res else packetId, s)

/-! ## What the list holds -/

/-- An entry is taken up when its id is not in the list and the list is not over its limit. -/
theorem publistCheck_eq_success_iff {limit packetId packNum : ℕ} {nodes : List PubNode}
    (hlen : packNum + nodes.length < 2 ^ 16) (hpackNum : packNum ≤ limit + 1) :
    publistCheck limit packetId packNum nodes = STATE_SUCCESS ↔
      (∀ node ∈ nodes, node.packetId ≠ packetId) ∧ packNum + nodes.length ≤ limit + 1 := by
  induction nodes generalizing packNum with
  | nil => simpa [publistCheck] using hpackNum
  | cons node nodes ih =>
    rw [List.length_cons] at hlen
    rw [publistCheck]
    split_ifs with hid hlimit
    · simp [STATE_MQTT_PUBLIST_PACKET_ID_ROLL, STATE_SUCCESS, hid]
    · simp only [STATE_QOS_CACHE_EXCEEDS_LIMIT, STATE_SUCCESS, List.length_cons]
      omega
    · rw [Nat.mod_eq_of_lt (by omega), ih (by omega) (by omega)]
      simp only [List.forall_mem_cons, List.length_cons]
      have hassoc : packNum + 1 + nodes.length = packNum + (nodes.length + 1) := by omega
      rw [hassoc]
      tauto

theorem publistCheck_neg {limit packetId packNum : ℕ} {nodes : List PubNode}
    (h : publistCheck limit packetId packNum nodes ≠ STATE_SUCCESS) :
    publistCheck limit packetId packNum nodes < STATE_SUCCESS := by
  induction nodes generalizing packNum with
  | nil => exact absurd rfl h
  | cons node nodes ih =>
    rw [publistCheck] at h ⊢
    split_ifs at h ⊢
    · simp [STATE_MQTT_PUBLIST_PACKET_ID_ROLL, STATE_SUCCESS]
    · simp [STATE_QOS_CACHE_EXCEEDS_LIMIT, STATE_SUCCESS]
    · exact ih h

/-- A list that the sender can have: ids are distinct and in their range, and the entries are no
more than two over the limit. -/
structure Sender.Wf (s : Sender) : Prop where
  packetId_lt : s.packetId < 2 ^ 16
  nodup : (s.pubList.map PubNode.packetId).Nodup
  ids : ∀ node ∈ s.pubList, 1 ≤ node.packetId ∧ node.packetId ≤ 65535
  length_le : s.pubList.length ≤ s.repubListLimit + 2

theorem Sender.Wf.length_lt {s : Sender} (h : s.Wf) : s.pubList.length < 2 ^ 16 := by
  have hsub : (s.pubList.map PubNode.packetId).toFinset ⊆ Finset.Icc 1 65535 := by
    intro i hi
    obtain ⟨node, hnode, rfl⟩ := List.mem_map.1 (List.mem_toFinset.1 hi)
    exact Finset.mem_Icc.2 (h.ids node hnode)
  have hcard := Finset.card_le_card hsub
  rw [List.toFinset_card_of_nodup h.nodup, List.length_map, Nat.card_Icc] at hcard
  omega

/-- The insertion is refused and nothing changes, or the entry is new and goes to the end. -/
theorem coreMqttPublistInsert_cases {s : Sender} (h : s.Wf) (packet : Bytes) (packetId : ℕ)
    (mallocOk : Bool) (time : ℕ) :
    ((coreMqttPublistInsert s packet packetId mallocOk time).1 < STATE_SUCCESS ∧
      (coreMqttPublistInsert s packet packetId mallocOk time).2 = s) ∨
    ((∀ node ∈ s.pubList, node.packetId ≠ packetId) ∧ s.pubList.length ≤ s.repubListLimit + 1 ∧
      coreMqttPublistInsert s packet packetId mallocOk time =
        (STATE_SUCCESS, { s with pubList := s.pubList ++ [⟨packetId, packet, time⟩] })) := by
  rw [coreMqttPublistInsert]
  by_cases hcheck : publistCheck s.repubListLimit packetId 0 s.pubList = STATE_SUCCESS
  · have hnew := (publistCheck_eq_success_iff (by have := h.length_lt; omega) (by omega)).1 hcheck
    rw [zero_add] at hnew
    simp only [hcheck, lt_irrefl, if_false]
    split_ifs with hmalloc
    · exact Or.inr ⟨hnew.1, hnew.2, rfl⟩
    · exact Or.inl ⟨by simp [STATE_SYS_DEPEND_MALLOC_FAILED, STATE_SUCCESS], rfl⟩
  · have hneg := publistCheck_neg hcheck
    rw [if_pos hneg]
    exact Or.inl ⟨hneg, rfl⟩

/-- A handle without the two options. -/
def PubOptions.plain : PubOptions := ⟨none, none⟩

theorem coreMqttPubParamsCheck_success {execEnabled isOpen : Bool} {msg : CoreMqttMsg} {qos : ℕ}
    (h : coreMqttPubParamsCheck execEnabled isOpen msg qos = STATE_SUCCESS) :
    msg.topic.length < CORE_MQTT_TOPIC_MAXLEN ∧ qos ≤ CORE_MQTT_QOS_MAX ∧
      msg.payload.length < CORE_MQTT_PAYLOAD_MAXLEN ∧ isOpen = true := by
  rw [coreMqttPubParamsCheck] at h
  split_ifs at h with h₁ h₂ h₃ h₄ h₅
  · cases h
  · cases h
  · cases h
  · exact ⟨not_le.1 h₁, by omega, not_le.1 h₃, h₄⟩
  · cases h
  · cases h

/-- What a publication does: nothing but take an id; or it writes its packet; or it takes a new
id, keeps its packet under it, and writes it. -/
theorem aiotMqttPub_cases {s : Sender} (h : s.Wf) (execEnabled : Bool) (msg : CoreMqttMsg)
    (qos : ℕ) (env : PubEnv) :
    (∃ id, (id = s.packetId ∨ id = coreMqttPacketId s.packetId) ∧
      (aiotMqttPub .plain execEnabled s msg qos env).2 = { s with packetId := id }) ∨
    (qos = 0 ∧ s.isOpen = true ∧ (ClientPacket.publish msg.topic msg.payload none).Fits ∧
      (aiotMqttPub .plain execEnabled s msg qos env).2 =
        (writeOrClose s (ClientPacket.publish msg.topic msg.payload none).bytes env.outcome).2) ∨
    (qos = 1 ∧ s.isOpen = true ∧ s.pubList.length ≤ s.repubListLimit + 1 ∧
      (∀ node ∈ s.pubList, node.packetId ≠ coreMqttPacketId s.packetId) ∧
      (ClientPacket.publish msg.topic msg.payload (some (coreMqttPacketId s.packetId))).Fits ∧
      (aiotMqttPub .plain execEnabled s msg qos env).2 =
        (writeOrClose { s with
            packetId := coreMqttPacketId s.packetId
            pubList := s.pubList ++ [⟨coreMqttPacketId s.packetId,
              pubPkt msg.topic msg.payload 1 (coreMqttPacketId s.packetId), env.time⟩] }
          (ClientPacket.publish msg.topic msg.payload (some (coreMqttPacketId s.packetId))).bytes
          env.outcome).2) := by
  by_cases hcheck : coreMqttPubParamsCheck execEnabled s.isOpen msg qos = STATE_SUCCESS
  swap
  · rw [aiotMqttPub, if_pos hcheck]
    exact Or.inl ⟨_, Or.inl rfl, rfl⟩
  obtain ⟨htopic, hqos, hpayload, hopen⟩ := coreMqttPubParamsCheck_success hcheck
  simp only [CORE_MQTT_TOPIC_MAXLEN] at htopic
  simp only [CORE_MQTT_QOS_MAX] at hqos
  simp only [CORE_MQTT_PAYLOAD_MAXLEN] at hpayload
  have hcall : aiotMqttPub .plain execEnabled s msg qos env = coreMqttPub s msg qos env := by
    simp only [aiotMqttPub, hcheck, ne_eq, not_true_eq_false, if_false, PubOptions.plain]
  rw [hcall, coreMqttPub]
  by_cases hmalloc : env.pktMallocOk = true
  swap
  · rw [if_pos hmalloc]
    exact Or.inl ⟨_, Or.inl rfl, rfl⟩
  rw [if_neg (not_not.2 hmalloc)]
  by_cases hone : qos = 1
  · subst hone
    have hrange := coreMqttPacketId_range h.packetId_lt
    have hid : coreMqttPacketId s.packetId < 2 ^ 16 := by omega
    have hwf : Sender.Wf { s with packetId := coreMqttPacketId s.packetId } :=
      { h with packetId_lt := hid }
    simp only [if_true]
    rcases coreMqttPublistInsert_cases hwf
        (pubPkt msg.topic msg.payload 1 (coreMqttPacketId s.packetId)) (coreMqttPacketId s.packetId)
        env.nodeMallocOk env.time with ⟨hneg, hsame⟩ | ⟨hnew, hlimit, hinsert⟩
    · simp only [hneg, if_true, hsame]
      exact Or.inl ⟨_, Or.inr rfl, rfl⟩
    · simp only [hinsert, lt_irrefl, if_false]
      refine Or.inr (Or.inr ⟨trivial, hopen, hlimit, hnew, ⟨by omega, by omega, ?_⟩, rfl⟩)
      rintro _ ⟨⟩
      exact hid
  · obtain rfl : qos = 0 := by omega
    rw [if_neg hone]
    exact Or.inr (Or.inl ⟨rfl, hopen, ⟨by omega, by omega, by simp⟩, rfl⟩)

/-! ## Sending again -/

/-- What of an entry the sending again leaves as it is. -/
def PubNode.key (node : PubNode) : ℕ × Bytes := (node.packetId, node.packet)

/-- The loop writes packets of the list one after the other, and changes nothing else but the
times. -/
theorem repubLoop_induction {P : Sender → Prop} {readings : ℕ → ℕ × WriteOutcome} {s : Sender}
    {done nodes : List PubNode}
    (hwrite : ∀ s node i, P s → node ∈ nodes → P (writeOrClose s node.packet (readings i).2).2)
    (hs : P s) :
    ∃ t pubList, P t ∧ (repubLoop s readings done nodes).2 = { t with pubList := pubList } ∧
      pubList.map PubNode.key = (done ++ nodes).map PubNode.key := by
  induction nodes generalizing readings s done with
  | nil => exact ⟨s, done, hs, rfl, by simp⟩
  | cons node nodes ih =>
    have hlater : ∀ s node' i, P s → node' ∈ nodes →
        P (writeOrClose s node'.packet (readings (i + 1)).2).2 := fun s node' i hP hmem =>
      hwrite s node' (i + 1) hP (List.mem_cons_of_mem _ hmem)
    obtain ⟨node', hnode', hkey⟩ : ∃ node' : PubNode,
        (if (readings 0).1 < node.lastSendTime then
          { node with lastSendTime := (readings 0).1 } else node) = node' ∧
        node'.key = node.key := by
      refine ⟨_, rfl, ?_⟩
      split_ifs <;> rfl
    have hpacket : node'.packet = node.packet := congrArg Prod.snd hkey
    have hwritten : P (writeOrClose s node'.packet (readings 0).2).2 :=
      hpacket ▸ hwrite s node 0 hs List.mem_cons_self
    have hkeys : ∀ time, PubNode.key { node' with lastSendTime := time } = node.key :=
      fun _ => hkey
    simp only [repubLoop, hnode']
    split_ifs with hdue hres
    · exact ⟨_, _, hwritten, rfl, by simp [hkeys]⟩
    · obtain ⟨t, pubList, ht, heq, hmap⟩ := @ih
        _ _ (done ++ [{ node' with lastSendTime := (readings 0).1 }]) hlater hwritten
      exact ⟨t, pubList, ht, heq, by simp [hmap, hkeys]⟩
    · obtain ⟨t, pubList, ht, heq, hmap⟩ := @ih _ _ (done ++ [node']) hlater hs
      exact ⟨t, pubList, ht, heq, by simp [hmap, hkey]⟩

theorem coreMqttRepub_induction {P : Sender → Prop} {readings : ℕ → ℕ × WriteOutcome} {s : Sender}
    (hwrite : ∀ t node i, P t → node ∈ s.pubList → P (writeOrClose t node.packet (readings i).2).2)
    (hs : P s) :
    ∃ t pubList, P t ∧ (coreMqttRepub s readings).2 = { t with pubList := pubList } ∧
      pubList.map PubNode.key = s.pubList.map PubNode.key :=
  repubLoop_induction hwrite hs

end IotIde
