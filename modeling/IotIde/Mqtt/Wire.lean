import IotIde.Foundation.CText
import IotIde.Foundation.Frames
import IotIde.Mqtt.Topics

/-!
# Packets of the MQTT client

How the client writes its packets, byte by byte, and how it takes the publications that arrive
apart.

* `coreMqttRemainLenEncode`, `setUtf8EncodedStr`, `connPkt`, `subunsubPkt`, `pubPkt`,
  `pubackPkt`, `pingreqPkt`, `disconnectPkt` — the packets it writes;
* `ClientPacket` — one of them, with fields that fit;
* `client_stream_unambiguous` — a stream of such packets was written from one sequence only;
* `readPublish` — a publication that arrives, taken apart;
* `readPublish_iff` — it accepts exactly the bodies that the format allows.
-/

namespace IotIde

open CText Frames

/-! ## Numbers and texts -/

def CORE_MQTT_CONN_PKT_TYPE : ℕ := 0x10
def CORE_MQTT_CONNACK_PKT_TYPE : ℕ := 0x20
def CORE_MQTT_PUBLISH_PKT_TYPE : ℕ := 0x30
def CORE_MQTT_PUBACK_PKT_TYPE : ℕ := 0x40
def CORE_MQTT_PUBREC_PKT_TYPE : ℕ := 0x50
def CORE_MQTT_PUBREL_PKT_TYPE : ℕ := 0x60
def CORE_MQTT_PUBCOMP_PKT_TYPE : ℕ := 0x70
def CORE_MQTT_SUB_PKT_TYPE : ℕ := 0x80
def CORE_MQTT_SUBACK_PKT_TYPE : ℕ := 0x90
def CORE_MQTT_UNSUB_PKT_TYPE : ℕ := 0xA0
def CORE_MQTT_UNSUBACK_PKT_TYPE : ℕ := 0xB0
def CORE_MQTT_PINGREQ_PKT_TYPE : ℕ := 0xC0
def CORE_MQTT_PINGRESP_PKT_TYPE : ℕ := 0xD0
def CORE_MQTT_DISCONNECT_PKT_TYPE : ℕ := 0xE0

/-- `CORE_MQTT_SUB_PKT_RESERVE` and `CORE_MQTT_UNSUB_PKT_RESERVE` -/
def CORE_MQTT_SUB_PKT_RESERVE : ℕ := 0x02

def STATE_MQTT_RECV_INVALID_PUBLISH_PACKET : ℤ := -0x031F

/-- The two bytes of a 16-bit number, the higher one first. -/
def msbLsb (n : ℕ) : Bytes := [UInt8.ofNat (n / 256), UInt8.ofNat n]

/-- `input[idx] << 8 | input[idx + 1]` -/
def readMsbLsb (input : Bytes) (idx : ℕ) : ℕ :=
  (input.getD idx 0).toNat * 256 + (input.getD (idx + 1) 0).toNat

/-- `_core_mqtt_set_utf8_encoded_str` at the index of a zeroed packet, up to where the index
goes: the length is cast to 16 bits, the step of the index is not. -/
def setUtf8EncodedStr (input : Bytes) : Bytes :=
  let inputLen := input.length % 2 ^ 16
  msbLsb inputLen ++ (input.take inputLen ++ List.replicate (input.length - inputLen) 0)

/-- `_core_mqtt_remain_len_encode` -/
def coreMqttRemainLenEncode (input : ℕ) : Bytes :=
  let encodedByte := input % 128
  if 0 < input / 128 then
    UInt8.ofNat (encodedByte ||| 128) :: coreMqttRemainLenEncode (input / 128)
  else [UInt8.ofNat encodedByte]
termination_by input
decreasing_by omega

/-! ## Packets -/

/-- What `_core_mqtt_conn_pkt` reads of the handle. -/
structure ConnectFields where
  clientid : Bytes
  username : Bytes
  password : Bytes
  keepAliveS : ℕ
  cleanSession : ℕ

/-- `_core_mqtt_conn_pkt` -/
def connPkt (fields : ConnectFields) : Bytes :=
  let payloadLen := (fields.clientid.length + fields.username.length + fields.password.length +
    3 * 2) % 2 ^ 32
  let remainlen := (6 + 1 + 1 + 2 + payloadLen) % 2 ^ 32
  UInt8.ofNat CORE_MQTT_CONN_PKT_TYPE :: (coreMqttRemainLenEncode remainlen ++
    -- protocol name, protocol level, connect flag, keep alive
    (([0x00, 0x04, 0x4D, 0x51, 0x54, 0x54] : Bytes) ++ (([0x04] : Bytes) ++
      ([UInt8.ofNat (0xC0 ||| fields.cleanSession <<< 1)] ++ (msbLsb fields.keepAliveS ++
        (setUtf8EncodedStr fields.clientid ++ (setUtf8EncodedStr fields.username ++
          setUtf8EncodedStr fields.password)))))))

/-- The packet of `_core_mqtt_subunsub`. -/
def subunsubPkt (topic : Bytes) (qos packetId pktType : ℕ) : Bytes :=
  let topicLen := topic.length % 2 ^ 16
  let remainlen := 2 + 2 + topicLen + if pktType = CORE_MQTT_SUB_PKT_TYPE then 1 else 0
  UInt8.ofNat (pktType ||| CORE_MQTT_SUB_PKT_RESERVE) :: (coreMqttRemainLenEncode remainlen ++
    (msbLsb packetId ++ (msbLsb topicLen ++ (topic.take topicLen ++
      if pktType = CORE_MQTT_SUB_PKT_TYPE then [UInt8.ofNat qos] else []))))

/-- The packet of `_core_mqtt_pub`. -/
def pubPkt (topic payload : Bytes) (qos packetId : ℕ) : Bytes :=
  let remainlen := (topic.length + payload.length + 2 + if qos = 1 then 2 else 0) % 2 ^ 32
  UInt8.ofNat (CORE_MQTT_PUBLISH_PKT_TYPE ||| qos <<< 1) :: (coreMqttRemainLenEncode remainlen ++
    (setUtf8EncodedStr topic ++ ((if qos = 1 then msbLsb packetId else []) ++ payload)))

/-- The packet of `_core_mqtt_puback_send`. -/
def pubackPkt (packetId : ℕ) : Bytes :=
  [UInt8.ofNat CORE_MQTT_PUBACK_PKT_TYPE, 2] ++ msbLsb packetId

/-- The packet of `_core_mqtt_heartbeat`. -/
def pingreqPkt : Bytes := [UInt8.ofNat CORE_MQTT_PINGREQ_PKT_TYPE, 0x00]

/-- The packet of `_core_mqtt_disconnect`. -/
def disconnectPkt : Bytes := [UInt8.ofNat CORE_MQTT_DISCONNECT_PKT_TYPE, 0x00]

/-! ## The parts read back -/

theorem readMsbLsb_msbLsb {n : ℕ} (h : n < 2 ^ 16) (rest : Bytes) :
    readMsbLsb (msbLsb n ++ rest) 0 = n := by
  simp only [readMsbLsb, msbLsb, List.cons_append, List.getD_cons_zero, zero_add,
    List.getD_cons_succ, UInt8.toNat_ofNat']
  omega

theorem length_msbLsb (n : ℕ) : (msbLsb n).length = 2 := rfl

theorem msbLsb_inj {m n : ℕ} (hm : m < 2 ^ 16) (hn : n < 2 ^ 16) (h : msbLsb m = msbLsb n) :
    m = n := by
  rw [← readMsbLsb_msbLsb hm [], h, readMsbLsb_msbLsb hn]

/-- Two bytes are the bytes of the number that they are read as. -/
theorem msbLsb_readMsbLsb (a b : UInt8) (rest : Bytes) :
    msbLsb (readMsbLsb (a :: b :: rest) 0) = [a, b] := by
  have ha := a.toNat_lt
  have hb := b.toNat_lt
  simp only [msbLsb, readMsbLsb, List.getD_cons_zero, zero_add, List.getD_cons_succ,
    List.cons.injEq, and_true]
  constructor
  · apply UInt8.toNat_inj.1
    rw [UInt8.toNat_ofNat']
    omega
  · apply UInt8.toNat_inj.1
    rw [UInt8.toNat_ofNat']
    omega

theorem readMsbLsb_lt (input : Bytes) (idx : ℕ) : readMsbLsb input idx < 2 ^ 16 := by
  have ha := (input.getD idx 0).toNat_lt
  have hb := (input.getD (idx + 1) 0).toNat_lt
  rw [readMsbLsb]
  omega

theorem setUtf8EncodedStr_of_lt {input : Bytes} (h : input.length < 2 ^ 16) :
    setUtf8EncodedStr input = msbLsb input.length ++ input := by
  rw [setUtf8EncodedStr, Nat.mod_eq_of_lt h, List.take_length, Nat.sub_self, List.replicate_zero,
    List.append_nil]

/-- A text with its length in front ends where the length says. -/
theorem setUtf8EncodedStr_append_inj {s t : Bytes} (hs : s.length < 2 ^ 16)
    (ht : t.length < 2 ^ 16) {r r' : Bytes}
    (h : setUtf8EncodedStr s ++ r = setUtf8EncodedStr t ++ r') : s = t ∧ r = r' := by
  rw [setUtf8EncodedStr_of_lt hs, setUtf8EncodedStr_of_lt ht, List.append_assoc,
    List.append_assoc] at h
  obtain ⟨hlen, hrest⟩ := List.append_inj h rfl
  exact List.append_inj hrest (msbLsb_inj hs ht hlen)

theorem setUtf8EncodedStr_inj {s t : Bytes} (hs : s.length < 2 ^ 16) (ht : t.length < 2 ^ 16)
    (h : setUtf8EncodedStr s = setUtf8EncodedStr t) : s = t :=
  (setUtf8EncodedStr_append_inj hs ht (congrArg (· ++ []) h)).1

/-- The code's digits are the shortest ones. -/
theorem coreMqttRemainLenEncode_eq (input : ℕ) : coreMqttRemainLenEncode input = encode input := by
  induction input using Nat.strongRecOn with
  | ind input ih =>
    have hor : input % 128 ||| 128 = input % 128 + 128 := by
      have h := Nat.two_pow_add_eq_or_of_lt (show input % 128 < 2 ^ 7 by omega) 1
      rw [Nat.or_comm, Nat.add_comm]
      exact h.symm
    rw [coreMqttRemainLenEncode, encode]
    by_cases h : input < 128
    · rw [if_neg (by omega), if_pos h, Nat.mod_eq_of_lt h]
    · rw [if_pos (by omega), if_neg h, hor, ih _ (by omega)]

theorem subunsubPkt_of_lt {topic : Bytes} (h : topic.length < 2 ^ 16) (qos packetId pktType : ℕ) :
    subunsubPkt topic qos packetId pktType =
      let body := msbLsb packetId ++ (setUtf8EncodedStr topic ++
        if pktType = CORE_MQTT_SUB_PKT_TYPE then [UInt8.ofNat qos] else [])
      UInt8.ofNat (pktType ||| CORE_MQTT_SUB_PKT_RESERVE) :: (encode body.length ++ body) := by
  have hlen : ∀ tail : Bytes,
      (msbLsb packetId ++ (msbLsb topic.length ++ (topic ++ tail))).length =
        2 + 2 + topic.length + tail.length := by
    intro tail
    simp only [List.length_append, length_msbLsb]
    omega
  simp only [subunsubPkt, setUtf8EncodedStr_of_lt h, Nat.mod_eq_of_lt h, List.take_length,
    coreMqttRemainLenEncode_eq, List.append_assoc, hlen]
  split_ifs <;> rfl

/-! ## The packets of the client -/

/-- A packet that the client writes. -/
inductive ClientPacket
  | connect (fields : ConnectFields)
  | publish (topic payload : Bytes) (packetId : Option ℕ)
  | puback (packetId : ℕ)
  | subscribe (topic : Bytes) (qos packetId : ℕ)
  | unsubscribe (topic : Bytes) (packetId : ℕ)
  | pingreq
  | disconnect

namespace ClientPacket

/-- The bytes that the code builds; a publication with an id has quality of service 1. -/
def bytes : ClientPacket → Bytes
  | connect fields => connPkt fields
  | publish topic payload none => pubPkt topic payload 0 0
  | publish topic payload (some packetId) => pubPkt topic payload 1 packetId
  | puback packetId => pubackPkt packetId
  | subscribe topic qos packetId => subunsubPkt topic qos packetId CORE_MQTT_SUB_PKT_TYPE
  | unsubscribe topic packetId => subunsubPkt topic 0 packetId CORE_MQTT_UNSUB_PKT_TYPE
  | pingreq => pingreqPkt
  | disconnect => disconnectPkt

/-- The fields fit the places that the packet has for them. -/
def Fits : ClientPacket → Prop
  | connect fields => fields.clientid.length < 2 ^ 16 ∧ fields.username.length < 2 ^ 16 ∧
      fields.password.length < 2 ^ 16 ∧ fields.keepAliveS < 2 ^ 16 ∧ fields.cleanSession ≤ 1
  | publish topic payload packetId => topic.length < 2 ^ 16 ∧
      topic.length + payload.length + 4 < 128 ^ 4 ∧ ∀ id ∈ packetId, id < 2 ^ 16
  | puback packetId => packetId < 2 ^ 16
  | subscribe topic qos packetId => topic.length < 2 ^ 16 ∧ qos ≤ 1 ∧ packetId < 2 ^ 16
  | unsubscribe topic packetId => topic.length < 2 ^ 16 ∧ packetId < 2 ^ 16
  | pingreq => True
  | disconnect => True

/-- The first byte: the type and its flags. -/
def header : ClientPacket → UInt8
  | connect _ => 0x10
  | publish _ _ none => 0x30
  | publish _ _ (some _) => 0x32
  | puback _ => 0x40
  | subscribe _ _ _ => 0x82
  | unsubscribe _ _ => 0xA2
  | pingreq => 0xC0
  | disconnect => 0xE0

/-- What follows the length. -/
def body : ClientPacket → Bytes
  | connect fields => ([0x00, 0x04, 0x4D, 0x51, 0x54, 0x54] : Bytes) ++ (([0x04] : Bytes) ++
      ([UInt8.ofNat (0xC0 ||| fields.cleanSession <<< 1)] ++ (msbLsb fields.keepAliveS ++
        (setUtf8EncodedStr fields.clientid ++ (setUtf8EncodedStr fields.username ++
          setUtf8EncodedStr fields.password)))))
  | publish topic payload packetId =>
      setUtf8EncodedStr topic ++ ((packetId.map msbLsb).getD [] ++ payload)
  | puback packetId => msbLsb packetId
  | subscribe topic qos packetId =>
      msbLsb packetId ++ (setUtf8EncodedStr topic ++ [UInt8.ofNat qos])
  | unsubscribe topic packetId => msbLsb packetId ++ setUtf8EncodedStr topic
  | pingreq => []
  | disconnect => []

theorem length_setUtf8EncodedStr {input : Bytes} (h : input.length < 2 ^ 16) :
    (setUtf8EncodedStr input).length = 2 + input.length := by
  rw [setUtf8EncodedStr_of_lt h, List.length_append, length_msbLsb]

/-- **What the code builds is one frame.** -/
theorem bytes_eq_text {p : ClientPacket} (h : p.Fits) :
    p.bytes = (Frame.ofBody p.header p.body).text := by
  have hframe : ∀ {header : UInt8} {n : ℕ} {body : Bytes}, n = body.length →
      header :: (coreMqttRemainLenEncode n ++ body) = (Frame.ofBody header body).text := by
    rintro header _ body rfl
    rw [coreMqttRemainLenEncode_eq]
    rfl
  cases p with
  | connect fields =>
    obtain ⟨hclient, huser, hpassword, -, -⟩ := h
    refine hframe ?_
    simp only [List.length_append, length_setUtf8EncodedStr, hclient, huser, hpassword,
      length_msbLsb, List.length_cons, List.length_nil]
    omega
  | publish topic payload packetId =>
    obtain ⟨htopic, htotal, -⟩ := h
    cases packetId with
    | none =>
      refine hframe ?_
      simp only [List.length_append, length_setUtf8EncodedStr htopic, List.length_nil,
        if_neg (show ¬ (0 = 1) by decide)]
      norm_num at htotal ⊢
      omega
    | some packetId =>
      refine hframe ?_
      simp only [List.length_append, length_setUtf8EncodedStr htopic, length_msbLsb, if_true]
      norm_num at htotal ⊢
      omega
  | puback packetId =>
    show ([0x40] : Bytes) ++ ([2] ++ msbLsb packetId) = _
    rw [show ([2] : Bytes) = encode 2 from (encode_of_lt (by norm_num)).symm]
    rfl
  | subscribe topic qos packetId => exact subunsubPkt_of_lt h.1 qos packetId _
  | unsubscribe topic packetId =>
    refine (subunsubPkt_of_lt h.1 0 packetId _).trans ?_
    rw [if_neg (by decide), List.append_nil]
    rfl
  | pingreq =>
    show ([0xC0] : Bytes) ++ ([0] ++ []) = _
    rw [show ([0] : Bytes) = encode 0 from (encode_of_lt (by norm_num)).symm]
    rfl
  | disconnect =>
    show ([0xE0] : Bytes) ++ ([0] ++ []) = _
    rw [show ([0] : Bytes) = encode 0 from (encode_of_lt (by norm_num)).symm]
    rfl

/-- Packets with the same header and body are the same. -/
theorem eq_of_body_eq {p q : ClientPacket} (hp : p.Fits) (hq : q.Fits)
    (hheader : p.header = q.header) (hbody : p.body = q.body) : p = q := by
  cases p <;> cases q
  case connect.connect f g =>
    obtain ⟨h₁, h₂, h₃, h₄, h₅⟩ := hp
    obtain ⟨h₁', h₂', h₃', h₄', h₅'⟩ := hq
    simp only [body, List.append_cancel_left_eq] at hbody
    obtain ⟨hflags, hbody⟩ := List.append_inj hbody rfl
    obtain ⟨halive, hbody⟩ := List.append_inj hbody rfl
    obtain ⟨hclient, hbody⟩ := setUtf8EncodedStr_append_inj h₁ h₁' hbody
    obtain ⟨huser, hbody⟩ := setUtf8EncodedStr_append_inj h₂ h₂' hbody
    have hpassword := setUtf8EncodedStr_inj h₃ h₃' (by simpa using hbody)
    have hclean : f.cleanSession = g.cleanSession := by
      have hflag : ∀ a b : Fin 2,
          UInt8.ofNat (0xC0 ||| a.1 <<< 1) = UInt8.ofNat (0xC0 ||| b.1 <<< 1) → a = b := by decide
      exact Fin.mk.inj (hflag ⟨_, Nat.lt_succ_of_le h₅⟩ ⟨_, Nat.lt_succ_of_le h₅'⟩
        (by simpa using hflags))
    cases f
    cases g
    simp only at hclient huser hpassword hclean halive h₄ h₄' ⊢
    rw [hclient, huser, hpassword, hclean, msbLsb_inj h₄ h₄' halive]
  case publish.publish topic payload packetId topic' payload' packetId' =>
    obtain ⟨htopic, hrest⟩ := setUtf8EncodedStr_append_inj hp.1 hq.1 hbody
    cases packetId with
    | none =>
      cases packetId' with
      | none =>
        have hpayload : payload = payload' := hrest
        rw [htopic, hpayload]
      | some _ => exact absurd hheader (by simp [header])
    | some id =>
      cases packetId' with
      | none => exact absurd hheader (by simp [header])
      | some id' =>
        obtain ⟨hid, hpayload⟩ : msbLsb id = msbLsb id' ∧ payload = payload' :=
          List.append_inj hrest rfl
        rw [htopic, msbLsb_inj (hp.2.2 id rfl) (hq.2.2 id' rfl) hid, hpayload]
  case puback.puback => rw [msbLsb_inj hp hq hbody]
  case subscribe.subscribe =>
    obtain ⟨hid, hrest⟩ := List.append_inj hbody rfl
    obtain ⟨htopic, hqos⟩ := setUtf8EncodedStr_append_inj hp.1 hq.1 hrest
    have hqos := congrArg UInt8.toNat (List.cons.inj hqos).1
    rw [UInt8.toNat_ofNat', UInt8.toNat_ofNat', Nat.mod_eq_of_lt (by have := hp.2.1; omega),
      Nat.mod_eq_of_lt (by have := hq.2.1; omega)] at hqos
    rw [msbLsb_inj hp.2.2 hq.2.2 hid, htopic, hqos]
  case unsubscribe.unsubscribe =>
    obtain ⟨hid, hrest⟩ := List.append_inj hbody rfl
    have htopic := setUtf8EncodedStr_inj hp.1 hq.1 (by simpa using hrest)
    rw [msbLsb_inj hp.2 hq.2 hid, htopic]
  case pingreq.pingreq => rfl
  case disconnect.disconnect => rfl
  -- packets of different types have different headers
  all_goals refine absurd hheader ?_
  all_goals
    first
    | done
    | cases ‹Option ℕ› <;> simp [header]
    | simp [header]

theorem prefixFree : PrefixFree fun p : {p : ClientPacket // p.Fits} => p.1.bytes where
  ne_nil p := by
    rw [bytes_eq_text p.2]
    exact List.cons_ne_nil _ _
  inj := by
    rintro ⟨p, hp⟩ ⟨q, hq⟩ r s h
    simp only [bytes_eq_text hp, bytes_eq_text hq] at h
    have hframe := (Frame.text_append_inj h).1
    exact Subtype.ext (eq_of_body_eq hp hq (congrArg Frame.header hframe)
      (congrArg Frame.body hframe))

end ClientPacket

/-- **A stream of packets that the client wrote was written from one sequence of packets
only.** -/
theorem client_stream_unambiguous (ps qs : List {p : ClientPacket // p.Fits}) :
    ps.flatMap (fun p => p.1.bytes) = qs.flatMap (fun p => p.1.bytes) ↔ ps = qs :=
  ⟨ClientPacket.prefixFree.flatMap_inj, congrArg _⟩

/-! ## Publications that arrive -/

/-- `core_mqtt_msg_t` -/
@[ext] structure CoreMqttMsg where
  topic : Bytes
  payload : Bytes

/-- How `_core_mqtt_pub_handler` takes its input apart: the message and its packet id, which
stays 0 when the quality of service is 0. -/
def readPublish (input : Bytes) (qos : ℕ) : Except ℤ (CoreMqttMsg × ℕ) :=
  let len := input.length
  if len = 0 ∨ 1 < qos then .error STATE_MQTT_RECV_INVALID_PUBLISH_PACKET
  else if len < 2 then .error STATE_MQTT_RECV_INVALID_PUBLISH_PACKET
  else
    let utf8Strlen := readMsbLsb input 0
    let topic := (input.drop 2).take utf8Strlen
    let idx := 2 + utf8Strlen
    if len < idx then .error STATE_MQTT_RECV_INVALID_PUBLISH_PACKET
    else if qos = 1 then
      if len < idx + 2 then .error STATE_MQTT_RECV_INVALID_PUBLISH_PACKET
      else .ok (⟨topic, (input.drop (idx + 2)).take (len - 2 - utf8Strlen - 2)⟩,
        readMsbLsb input idx)
    else .ok (⟨topic, (input.drop idx).take (len - 2 - utf8Strlen)⟩, 0)

/-- The body of a publication: the topic, the packet id at quality of service 1, the payload. -/
def publishBody (msg : CoreMqttMsg) (qos packetId : ℕ) : Bytes :=
  setUtf8EncodedStr msg.topic ++ ((if qos = 1 then msbLsb packetId else []) ++ msg.payload)

theorem readMsbLsb_drop (input : Bytes) (idx : ℕ) :
    readMsbLsb (input.drop idx) 0 = readMsbLsb input idx := by
  simp [readMsbLsb]

/-- The two bytes at an index, and what follows them. -/
theorem msbLsb_append_drop {input : Bytes} {idx : ℕ} (h : idx + 2 ≤ input.length) :
    msbLsb (readMsbLsb input idx) ++ input.drop (idx + 2) = input.drop idx := by
  rw [← readMsbLsb_drop, ← List.drop_drop]
  cases hrest : input.drop idx with
  | nil => rw [List.drop_eq_nil_iff] at hrest; omega
  | cons a rest =>
    cases rest with
    | nil =>
      have hlen := congrArg List.length hrest
      rw [List.length_drop, List.length_singleton] at hlen
      omega
    | cons b rest => rw [msbLsb_readMsbLsb]; rfl

theorem readPublish_publishBody (msg : CoreMqttMsg) {qos packetId : ℕ}
    (htopic : msg.topic.length < 2 ^ 16) (hid : packetId < 2 ^ 16) (hqos : qos ≤ 1) :
    readPublish (publishBody msg qos packetId) qos =
      .ok (msg, if qos = 1 then packetId else 0) := by
  have hbody : publishBody msg qos packetId = msbLsb msg.topic.length ++
      (msg.topic ++ ((if qos = 1 then msbLsb packetId else []) ++ msg.payload)) := by
    rw [publishBody, setUtf8EncodedStr_of_lt htopic, List.append_assoc]
  have hlen : (publishBody msg qos packetId).length =
      2 + msg.topic.length + ((if qos = 1 then 2 else 0) + msg.payload.length) := by
    rw [hbody]
    split_ifs <;> simp [length_msbLsb] <;> omega
  have hstrlen : readMsbLsb (publishBody msg qos packetId) 0 = msg.topic.length := by
    rw [hbody, readMsbLsb_msbLsb htopic]
  have htake : ((publishBody msg qos packetId).drop 2).take msg.topic.length = msg.topic := by
    rw [hbody, List.drop_left' (length_msbLsb _), List.take_left]
  have hdrop : (publishBody msg qos packetId).drop (2 + msg.topic.length) =
      (if qos = 1 then msbLsb packetId else []) ++ msg.payload := by
    rw [← List.drop_drop, hbody, List.drop_left' (length_msbLsb _), List.drop_left]
  simp only [readPublish, hstrlen, htake, hlen]
  rw [if_neg (by omega), if_neg (by omega), if_neg (by omega)]
  split_ifs with hone hshort
  · omega
  · have hid' : readMsbLsb (publishBody msg qos packetId) (2 + msg.topic.length) = packetId := by
      rw [← readMsbLsb_drop, hdrop, if_pos hone, readMsbLsb_msbLsb hid]
    rw [hid', ← List.drop_drop, hdrop, if_pos hone, List.drop_left' (length_msbLsb _),
      List.take_of_length_le (by omega)]
  · rw [hdrop, if_neg hone, List.nil_append, List.take_of_length_le (by omega)]

theorem eq_publishBody_of_readPublish {input : Bytes} {qos packetId : ℕ} {msg : CoreMqttMsg}
    (h : readPublish input qos = .ok (msg, packetId)) :
    qos ≤ 1 ∧ msg.topic.length < 2 ^ 16 ∧ packetId < 2 ^ 16 ∧ (qos = 0 → packetId = 0) ∧
      input = publishBody msg qos packetId := by
  simp only [readPublish] at h
  split_ifs at h with hempty hshort hlen hone hid
  all_goals
    simp only [Except.ok.injEq, Prod.mk.injEq] at h
    obtain ⟨rfl, rfl⟩ := h
    have hstrlen := readMsbLsb_lt input 0
    have htopic : ((input.drop 2).take (readMsbLsb input 0)).length = readMsbLsb input 0 := by
      rw [List.length_take, List.length_drop]
      omega
    -- the topic's length, the topic and the rest
    have hinput : input = setUtf8EncodedStr ((input.drop 2).take (readMsbLsb input 0)) ++
        input.drop (2 + readMsbLsb input 0) := by
      have hhead := @msbLsb_append_drop input 0 (by omega)
      rw [zero_add, List.drop_zero] at hhead
      rw [setUtf8EncodedStr_of_lt (by omega), htopic, List.append_assoc, ← List.drop_drop,
        List.take_append_drop, hhead]
  · have hpayload : (input.drop (2 + readMsbLsb input 0 + 2)).take
        (input.length - 2 - readMsbLsb input 0 - 2) = input.drop (2 + readMsbLsb input 0 + 2) :=
      List.take_of_length_le (by rw [List.length_drop]; omega)
    refine ⟨by omega, htopic.trans_lt hstrlen, readMsbLsb_lt _ _, by omega, hinput.trans ?_⟩
    rw [publishBody, if_pos hone, hpayload, msbLsb_append_drop (by omega)]
  · have hpayload : (input.drop (2 + readMsbLsb input 0)).take
        (input.length - 2 - readMsbLsb input 0) = input.drop (2 + readMsbLsb input 0) :=
      List.take_of_length_le (by rw [List.length_drop]; omega)
    refine ⟨by omega, htopic.trans_lt hstrlen, by norm_num, fun _ => rfl, hinput.trans ?_⟩
    rw [publishBody, if_neg hone, hpayload, List.nil_append]

/-- **A publication is accepted just when its body is that of the message it is read as.** -/
theorem readPublish_iff (input : Bytes) (qos : ℕ) (msg : CoreMqttMsg) (packetId : ℕ) :
    readPublish input qos = .ok (msg, packetId) ↔
      qos ≤ 1 ∧ msg.topic.length < 2 ^ 16 ∧ packetId < 2 ^ 16 ∧ (qos = 0 → packetId = 0) ∧
        input = publishBody msg qos packetId := by
  constructor
  · exact eq_publishBody_of_readPublish
  · rintro ⟨hqos, htopic, hid, hzero, rfl⟩
    rw [readPublish_publishBody msg htopic hid hqos]
    split_ifs with hone
    · rfl
    · rw [hzero (by omega)]

end IotIde
