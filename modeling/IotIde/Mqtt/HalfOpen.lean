import IotIde.Mqtt.Connect
import IotIde.Mqtt.Link

/-!
# A handshake that fails and leaves the connection open

Most failures of the handshake leave the network handle as it is, with the server's answer on it
in part or as a whole, and `aiot_mqtt_recv` reads on from there.

* `coreMqttConnect_leaves` — what is left begins with a byte of the answer;
* `closed_of_unknown` — a connection whose first byte is no type of packet is closed with the
  first packet that is taken from it;
* `failed_connect_silent` — so nothing is ever passed on from a connection whose handshake failed.
-/

namespace IotIde

open CText Frames Runs

/-- The server's answer. -/
def connackPkt (flags code : UInt8) : Bytes := [0x20, 2, flags, code]

/-- A read of one byte that fails has taken nothing. -/
theorem coreMqttRead_one_error {net net' : Net} {res : ℤ}
    (h : coreMqttRead net 1 = (.error res, net')) : net'.stream = net.stream := by
  cases hres : net.outcomes 0 with
  | negSucc n =>
    rw [coreMqttRead_of_negSucc hres] at h
    rw [← (Prod.mk.inj h).2]
  | ofNat n =>
    have hless : res = STATE_SYS_DEPEND_NWK_READ_LESSDATA := by
      rw [coreMqttRead_of_ofNat hres] at h
      split_ifs at h
      · cases h
      · exact (Except.error.inj (Prod.mk.inj h).1).symm
    rw [hless] at h
    exact coreMqttRead_lessData h

/-- A read of two bytes that fails has taken one of them at most. -/
theorem coreMqttRead_two_error {net net' : Net} {res : ℤ} {a b : UInt8} {rest : Bytes}
    (hstream : net.stream = a :: b :: rest) (h : coreMqttRead net 2 = (.error res, net')) :
    net'.stream = a :: b :: rest ∨ net'.stream = b :: rest := by
  cases hres : net.outcomes 0 with
  | negSucc n =>
    rw [coreMqttRead_of_negSucc hres] at h
    rw [← (Prod.mk.inj h).2]
    exact Or.inl hstream
  | ofNat n =>
    rw [coreMqttRead_of_ofNat hres, hstream] at h
    match n with
    | 0 => exact Or.inl (by rw [← (Prod.mk.inj h).2]; rfl)
    | 1 => exact Or.inr (by rw [← (Prod.mk.inj h).2]; rfl)
    | n + 2 => simp at h

/-- One byte is read, or the read fails and the byte stays. -/
theorem coreMqttRead_one_cases {net : Net} {ch : UInt8} {rest : Bytes}
    (hstream : net.stream = ch :: rest) :
    (∃ res net', coreMqttRead net 1 = (.error res, net') ∧ net'.stream = ch :: rest) ∨
      ∃ net', coreMqttRead net 1 = (.ok [ch], net') ∧ net'.stream = rest := by
  cases hread : coreMqttRead net 1 with
  | mk result net' =>
    cases result with
    | error res => exact Or.inl ⟨res, net', rfl, (coreMqttRead_one_error hread).trans hstream⟩
    | ok buffer =>
      obtain ⟨hsplit, hlen⟩ := coreMqttRead_ok hread
      obtain ⟨b, rfl⟩ := List.length_eq_one_iff.1 hlen
      obtain ⟨rfl, hrest⟩ := List.cons.inj (hstream.symm.trans hsplit)
      exact Or.inr ⟨net', rfl, hrest.symm⟩

/-- The length of the answer is read as two, or not at all. -/
theorem coreMqttReadRemainlen_cases {net : Net} {rest : Bytes} (hstream : net.stream = 2 :: rest) :
    (∃ res net', coreMqttReadRemainlen net = (.error res, net') ∧ net'.stream = 2 :: rest) ∨
      ∃ net', coreMqttReadRemainlen net = (.ok 2, net') ∧ net'.stream = rest := by
  rcases coreMqttRead_one_cases hstream with ⟨res, net', hread, hrest⟩ | ⟨net', hread, hrest⟩
  · exact Or.inl ⟨res, net', by simp [coreMqttReadRemainlen, readRemainlenLoop, hread], hrest⟩
  · exact Or.inr ⟨net', by simp [coreMqttReadRemainlen, readRemainlenLoop, hread], hrest⟩

/-- What a failed reading of the answer leaves begins with one of its four bytes. -/
theorem readConnack_leaves {connackMallocOk : Bool} {net net' : Net} {flags code : UInt8}
    {rest : Bytes} {res : ℤ} (hstream : net.stream = connackPkt flags code ++ rest)
    (h : readConnack connackMallocOk net = (res, some net'))
    (hres : res ≠ STATE_MQTT_CONNECT_SUCCESS) :
    ∃ b ∈ connackPkt flags code, ∃ tail, net'.stream = b :: tail := by
  rw [readConnack] at h
  rcases coreMqttRead_one_cases hstream with ⟨err, net₁, hread, hrest⟩ | ⟨net₁, hread, hrest⟩
  · simp only [hread, Prod.mk.injEq] at h
    split_ifs at h
    · obtain rfl := Option.some.inj h.2
      exact ⟨0x20, by simp [connackPkt], _, hrest⟩
    · cases h.2
  simp only [hread, List.headD_cons, if_neg (not_not.2 ((toNat_eq_connack_iff 0x20).2 rfl))] at h
  rcases coreMqttReadRemainlen_cases hrest with ⟨err, net₂, hlen, hrest⟩ | ⟨net₂, hlen, hrest⟩
  · simp only [hlen, Prod.mk.injEq, Option.some.injEq] at h
    obtain ⟨-, rfl⟩ := h
    exact ⟨2, by simp [connackPkt], _, hrest⟩
  simp only [hlen, ne_eq, not_true_eq_false, if_false] at h
  cases connackMallocOk with
  | false =>
    simp only [Bool.false_eq_true, not_false_eq_true, if_true, Prod.mk.injEq,
      Option.some.injEq] at h
    obtain ⟨-, rfl⟩ := h
    exact ⟨flags, by simp [connackPkt], _, hrest⟩
  | true =>
    simp only [not_true_eq_false, if_false] at h
    cases hbytes : coreMqttRead net₂ 2 with
    | mk result net₃ =>
      cases result with
      | error err =>
        simp only [hbytes, Prod.mk.injEq, Option.some.injEq] at h
        obtain ⟨-, rfl⟩ := h
        rcases coreMqttRead_two_error hrest hbytes with hrest | hrest
        · exact ⟨flags, by simp [connackPkt], _, hrest⟩
        · exact ⟨code, by simp [connackPkt], _, hrest⟩
      | ok connack =>
        simp only [hbytes] at h
        split_ifs at h
        · cases (Prod.mk.inj h).2
        · exact absurd (Prod.mk.inj h).1.symm hres

/-- A call that comes as far as the network leaves nothing open or something that begins with a
byte of the answer. -/
theorem coreMqttConnect_leaves {networkHandle : Option Net} {fields : ConnectFields}
    {env : ConnectEnv} {net' : Net} {flags code : UInt8} {rest : Bytes} {res : ℤ}
    (hready : env.unready = none) (hstream : env.net.stream = connackPkt flags code ++ rest)
    (h : coreMqttConnect networkHandle fields env = (res, some net'))
    (hres : res ≠ STATE_MQTT_CONNECT_SUCCESS) :
    ∃ b ∈ connackPkt flags code, ∃ tail, net'.stream = b :: tail := by
  have hnet : ∀ {code' : ℤ}, (code', some env.net) = (res, some net') →
      ∃ b ∈ connackPkt flags code, ∃ tail, net'.stream = b :: tail := by
    rintro _ ⟨⟩
    exact ⟨0x20, by simp [connackPkt], _, hstream⟩
  simp only [coreMqttConnect, hready] at h
  rcases ite_eq_iff.1 h with ⟨-, h⟩ | ⟨-, h⟩
  · cases h
  rcases ite_eq_iff.1 h with ⟨-, h⟩ | ⟨-, h⟩
  · cases h
  rcases ite_eq_iff.1 h with ⟨-, h⟩ | ⟨-, h⟩
  · exact hnet h
  rcases ite_eq_iff.1 h with ⟨-, h⟩ | ⟨-, h⟩
  · exact hnet h
  rcases ite_eq_iff.1 h with ⟨-, h⟩ | ⟨-, h⟩
  · cases h
  rcases ite_eq_iff.1 h with ⟨-, h⟩ | ⟨-, h⟩
  · exact hnet h
  rcases ite_eq_iff.1 h with ⟨-, h⟩ | ⟨-, h⟩
  · exact hnet h
  rcases ite_eq_iff.1 h with ⟨-, h⟩ | ⟨-, h⟩
  · split_ifs at h
    · exact hnet h
    · cases h
  · exact readConnack_leaves hstream h hres

/-! ## What is read from it later -/

/-- None of the bytes of an answer is the type of a packet that the client knows. -/
theorem handlePacket_connack {flags code b : UInt8} (hflags : flags.toNat < 16)
    (hcode : code.toNat < 16) (hb : b ∈ connackPkt flags code) (decompress : Decompress)
    (remain : Bytes) : handlePacket decompress b remain = (STATE_MQTT_PACKET_TYPE_UNKNOWN, []) := by
  have hsmall : ∀ n < 16, n &&& 0xF0 = 0 := by decide
  have htype : b.toNat &&& 0xF0 = 0 ∨ b.toNat &&& 0xF0 = 0x20 := by
    simp only [connackPkt, List.mem_cons, List.not_mem_nil, or_false] at hb
    rcases hb with rfl | rfl | rfl | rfl
    · exact Or.inr rfl
    · exact Or.inl rfl
    · exact Or.inl (hsmall _ hflags)
    · exact Or.inl (hsmall _ hcode)
  rcases htype with h | h <;> simp [handlePacket, h, CORE_MQTT_PINGRESP_PKT_TYPE,
    CORE_MQTT_PUBLISH_PKT_TYPE, CORE_MQTT_PUBACK_PKT_TYPE, CORE_MQTT_SUBACK_PKT_TYPE,
    CORE_MQTT_UNSUBACK_PKT_TYPE, CORE_MQTT_PUBREC_PKT_TYPE, CORE_MQTT_PUBREL_PKT_TYPE,
    CORE_MQTT_PUBCOMP_PKT_TYPE]

variable {decompress : Decompress}

/-- All packets that were taken before the last one were handled without an error, and while the
connection is open the last one too. -/
def AllHandled (decompress : Decompress) (s : Link) : Prop :=
  (∀ p ∈ s.packets.dropLast, STATE_SUCCESS ≤ (handlePacket decompress p.1 p.2).1) ∧
    (s.isOpen = true → ∀ p ∈ s.packets, STATE_SUCCESS ≤ (handlePacket decompress p.1 p.2).1)

theorem handled_aiotMqttRecv {mallocOk : Bool} {outcomes : ℕ → ℤ} {s : Link}
    (h : AllHandled decompress s) :
    AllHandled decompress (aiotMqttRecv decompress mallocOk outcomes s).2 := by
  rw [aiotMqttRecv]
  by_cases hopen : s.isOpen = true
  swap
  · rwa [if_pos hopen]
  rw [if_neg (not_not.2 hopen)]
  cases hrecv : recvPacket mallocOk ⟨s.stream, outcomes⟩ with
  | mk result net =>
    cases result with
    | error res => exact ⟨h.1, by simp⟩
    | ok packet =>
      cases packet with
      | none => exact h
      | some packet =>
        refine ⟨?_, fun hres p hp => ?_⟩
        · rw [List.dropLast_concat]
          exact h.2 hopen
        · rcases List.mem_append.1 hp with hp | hp
          · exact h.2 hopen p hp
          · rw [List.mem_singleton.1 hp]
            exact of_decide_eq_true hres

theorem handled_of_reachable {s : Link} (hs : (linkMachine decompress).Reachable s) :
    AllHandled decompress s := by
  refine Machine.invariant (P := AllHandled decompress) ?_ ?_ s hs
  · rintro s rfl
    exact ⟨by simp, by simp⟩
  · intro s e s' h _ hstep
    cases e with
    | write bytes =>
      cases hstep
      exact h
    | recv mallocOk outcomes =>
      cases hstep
      exact handled_aiotMqttRecv h
    | close =>
      cases hstep
      exact ⟨h.1, by simp⟩

/-- A connection whose first byte begins no packet that the client knows: one packet at most is
taken from it, and that closes it. -/
theorem closed_of_unknown {s : Link} (hs : (linkMachine decompress).Reachable s) {b : UInt8}
    {tail : Bytes} (hsent : s.sent <+: b :: tail)
    (hunknown : ∀ remain, (handlePacket decompress b remain).1 < STATE_SUCCESS) :
    s.packets = [] ∨ s.isOpen = false ∧ ∃ remain, s.packets = [(b, remain)] := by
  obtain ⟨hbefore, hall⟩ := handled_of_reachable hs
  obtain ⟨frames, hpackets, hfront, -⟩ := framed_of_reachable hs
  cases frames with
  | nil => exact Or.inl hpackets
  | cons f frames =>
    have hheader : f.header = b := by
      have hprefix := hfront.trans hsent
      rw [List.flatMap_cons, Frame.text, List.cons_append, List.cons_prefix_cons] at hprefix
      exact hprefix.1
    rw [List.map_cons, hheader] at hpackets
    right
    cases frames with
    | nil =>
      refine ⟨?_, f.body, hpackets⟩
      by_contra hopen
      have hres := hall (by simpa using hopen) (b, f.body) (by rw [hpackets]; simp)
      exact absurd (hunknown f.body) (not_lt.2 hres)
    | cons g frames =>
      have hres := hbefore (b, f.body) (by rw [hpackets]; simp)
      exact absurd (hunknown f.body) (not_lt.2 hres)

/-- **From a connection whose handshake failed, however much of the server's answer was read,
nothing is ever passed on: the first packet that is taken from it closes it.** -/
theorem failed_connect_silent {networkHandle : Option Net} {fields : ConnectFields}
    {env : ConnectEnv} {net' : Net} {flags code : UInt8} {rest : Bytes} {res : ℤ}
    (hready : env.unready = none) (hanswer : env.net.stream = connackPkt flags code ++ rest)
    (hflags : flags.toNat < 16) (hcode : code.toNat < 16)
    (hfailed : coreMqttConnect networkHandle fields env = (res, some net'))
    (hres : res ≠ STATE_MQTT_CONNECT_SUCCESS) {s : Link}
    (hs : (linkMachine decompress).Reachable s) (hsent : s.sent <+: net'.stream) :
    s.actions = [] ∧ (s.packets ≠ [] → s.isOpen = false) := by
  obtain ⟨b, hb, tail, htail⟩ := coreMqttConnect_leaves hready hanswer hfailed hres
  rw [htail] at hsent
  have hunknown := fun decompress => handlePacket_connack hflags hcode hb decompress
  rcases closed_of_unknown hs hsent (fun remain => by rw [hunknown]; decide) with
    hnone | ⟨hclosed, remain, hone⟩
  · exact ⟨by simp [Link.actions, hnone], fun h => absurd hnone h⟩
  · exact ⟨by simp [Link.actions, hone, hunknown], fun _ => hclosed⟩

/-- The body of the answer comes too late. -/
def lateEnv : ConnectEnv :=
  ⟨none, true, 0, true, 0, 0, true, true, .whole,
    ⟨connackPkt 0 0, fun i => if i < 2 then 1 else 0⟩, true⟩

theorem coreMqttConnect_lateEnv (fields : ConnectFields) :
    coreMqttConnect none fields lateEnv =
      (STATE_SYS_DEPEND_NWK_READ_LESSDATA, some ⟨[0, 0], fun _ => 0⟩) := by
  have hlater : (fun i => if i + 1 + 1 + 1 < 2 then (1 : ℤ) else 0) = fun _ => 0 :=
    funext fun i => if_neg (by omega)
  have hready : lateEnv.Ready fields :=
    ⟨⟨rfl, rfl, le_rfl, rfl, le_rfl, le_rfl⟩, rfl, rfl, Int.natCast_nonneg _⟩
  rw [coreMqttConnect_of_ready hready, ← hlater]
  rfl

theorem failed_connect_silent_late :
    Link.actions ⟨[0, 0], [], false, [(0, [])]⟩ = [] ∧
      ((Link.mk [0, 0] [] false [(0, [])]).packets ≠ [] → false = false) :=
  @failed_connect_silent none none ⟨[99], [117], [112], 1200, 1⟩ lateEnv _ 0 0 [] _ rfl rfl
    (by decide) (by decide) (coreMqttConnect_lateEnv _) (by decide) _
    (@Machine.reachable_of_run _ _ (linkMachine none) _ _ [.write [0, 0], .recv true fun _ => 2]
      rfl rfl) List.prefix_rfl

end IotIde
