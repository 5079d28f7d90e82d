import IotIde.Mqtt.Delivery

/-!
# The list of publications can be emptied

From every state that an orderly run reaches, the client and the server can go on to a state in
which nothing is kept: connect again, send everything that is kept, let the server read it and
the client read the acknowledgements.

* `repubLoop_all` — a round in which everything is due sends everything;
* `serverReads_packet` — the server takes a packet that is whole;
* `can_settle` — such a run, in which the server receives each message that was kept once more,
  in order.
-/

namespace IotIde

open CText Frames Runs Outboxes

/-- A round in which everything is due and every write is whole. -/
theorem repubLoop_all {time : ℕ} {nodes : List PubNode} (done : List PubNode) {s : Sender}
    (hopen : s.isOpen = true) (hdue : ∀ node ∈ nodes, node.lastSendTime + s.repubTimeoutMs ≤ time) :
    ∃ pubList, (repubLoop s (fun _ => (time, .whole)) done nodes).2 =
        { s with wire := s.wire ++ nodes.flatMap PubNode.packet, pubList := pubList } ∧
      pubList.map PubNode.key = (done ++ nodes).map PubNode.key := by
  induction nodes generalizing done s with
  | nil => exact ⟨done, by simp [repubLoop], by simp⟩
  | cons node nodes ih =>
    have hnode := hdue node List.mem_cons_self
    have hwrite : writeOrClose s node.packet .whole =
        ((node.packet.length : ℤ), { s with wire := s.wire ++ node.packet }) := by
      simp [writeOrClose, coreMqttWrite, hopen, STATE_SUCCESS]
    obtain ⟨pubList, heq, hkeys⟩ := @ih (done ++ [{ node with lastSendTime := time }])
      { s with wire := s.wire ++ node.packet } hopen
      (fun node' hmem => hdue node' (List.mem_cons_of_mem _ hmem))
    refine ⟨pubList, ?_, ?_⟩
    · simp only [repubLoop, if_neg (show ¬ time < node.lastSendTime by omega),
        if_pos (show s.repubTimeoutMs ≤ time - node.lastSendTime by omega), hwrite]
      rw [if_neg (by simp [STATE_SUCCESS]), heq]
      simp
    · rw [hkeys]
      simp [PubNode.key]

/-- The server takes a packet of quality of service 1 that stands on the wire. -/
theorem serverReads_packet {s : Exchange} {msg : CoreMqttMsg} {packetId : ℕ} {rest : Bytes}
    (hfits : (ClientPacket.publish msg.topic msg.payload (some packetId)).Fits)
    (hwire : s.sender.wire =
      (ClientPacket.publish msg.topic msg.payload (some packetId)).bytes ++ rest) :
    exchangeMachine.step s .serverReads = some { s with
      sender := { s.sender with wire := rest }
      acks := s.acks ++ [packetId]
      received := s.received ++ [msg] } := by
  have hbody : (publishBody msg 1 packetId).length < 128 ^ 4 := by
    obtain ⟨htopic, htotal, -⟩ := hfits
    simp only [publishBody, List.length_append, ClientPacket.length_setUtf8EncodedStr htopic,
      if_true, length_msbLsb]
    omega
  have hread : readPublish (publishBody msg 1 packetId) 1 = .ok (msg, packetId) :=
    readPublish_publishBody msg hfits.1 (hfits.2.2 packetId rfl) le_rfl
  rw [ClientPacket.bytes_eq_text hfits] at hwire
  obtain ⟨net, hrecv, rfl⟩ := @recvPacket_text (.ofBody 0x32 (publishBody msg 1 packetId)) rest
    ((length_encode_le_iff (by norm_num)).2 hbody) (fun _ => (s.sender.wire.length : ℤ)) (fun _ => by
      rw [hwire, List.length_append]
      exact_mod_cast Nat.le_add_right _ _)
  have hwire' : s.sender.wire = (Frame.ofBody 0x32 (publishBody msg 1 packetId)).text ++ net.stream :=
    hwire
  rw [← hwire'] at hrecv
  have hread : readPublish (Frame.ofBody 0x32 (publishBody msg 1 packetId)).body 1 =
      .ok (msg, packetId) := hread
  have hheader : (Frame.ofBody 0x32 (publishBody msg 1 packetId)).header = 0x32 := rfl
  simp only [exchangeMachine, serverReads, hrecv, hheader, if_true, hread]

/-- The client reads the acknowledgements of all that it keeps. -/
theorem leadsTo_pubacks {nodes : List PubNode} {s : Exchange} (hopen : s.sender.isOpen = true)
    (hlist : s.sender.pubList = nodes) (hacks : s.acks = nodes.map PubNode.packetId) :
    exchangeMachine.LeadsTo Orderly s { s with
      sender := { s.sender with pubList := [] }, acks := [] } := by
  induction nodes generalizing s with
  | nil =>
    obtain ⟨sender, acks, accepted, received⟩ := s
    obtain ⟨packetId, limit, timeout, pubList, isOpen, wire⟩ := sender
    simp only [List.map_nil] at hlist hacks
    subst hlist hacks
    exact .refl _
  | cons node nodes ih =>
    have hstep : exchangeMachine.step s .puback = some { s with
        sender := { s.sender with pubList := nodes }, acks := nodes.map PubNode.packetId } := by
      simp [exchangeMachine, hopen, hacks, coreMqttPublistRemove, hlist]
    exact .head hstep trivial (ih hopen rfl rfl)

/-- The server reads all that was sent, and then the client what the server has answered. -/
theorem leadsTo_reads {nodes : List PubNode} {messages : List CoreMqttMsg} {s : Exchange}
    (hkept : KeptMessages nodes messages) {t : Exchange}
    (hwire : s.sender.wire = nodes.flatMap PubNode.packet)
    (hlater : exchangeMachine.LeadsTo Orderly { s with
      sender := { s.sender with wire := [] }
      acks := s.acks ++ nodes.map PubNode.packetId
      received := s.received ++ messages } t) :
    exchangeMachine.LeadsTo Orderly s t := by
  induction hkept generalizing s with
  | nil =>
    obtain ⟨sender, acks, accepted, received⟩ := s
    obtain ⟨packetId, limit, timeout, pubList, isOpen, wire⟩ := sender
    simp only [List.flatMap_nil] at hwire
    subst hwire
    simpa using hlater
  | @cons node msg nodes messages hnode _ ih =>
    obtain ⟨hfits, hpacket⟩ := hnode
    rw [List.flatMap_cons, hpacket] at hwire
    refine .head (serverReads_packet hfits hwire) trivial (ih rfl ?_)
    simpa using hlater

theorem exists_time (nodes : List PubNode) (timeout : ℕ) :
    ∃ time, ∀ node ∈ nodes, node.lastSendTime + timeout ≤ time := by
  induction nodes with
  | nil => exact ⟨0, by simp⟩
  | cons node nodes ih =>
    obtain ⟨time, htime⟩ := ih
    refine ⟨max (node.lastSendTime + timeout) time, fun node' hmem => ?_⟩
    rcases List.mem_cons.1 hmem with rfl | hmem
    · exact le_max_left _ _
    · exact (htime node' hmem).trans (le_max_right _ _)

/-- **From every state of an orderly run the two can go on to one in which the list is empty and
the server has received each message that it held once more, in order.** -/
theorem can_settle {s : Exchange} (hs : exchangeMachine.ReachableVia Orderly s) :
    ∃ s' messages, exchangeMachine.LeadsTo Orderly s s' ∧ KeptMessages s.sender.pubList messages ∧
      s'.sender.pubList = [] ∧ s'.received = s.received ++ messages ∧ s'.accepted = s.accepted := by
  obtain ⟨-, a, -, hsim⟩ := exists_simulates hs
  have hkept := keptMessages_of_forall₂ hsim.pending
  obtain ⟨time, htime⟩ := exists_time s.sender.pubList s.sender.repubTimeoutMs
  obtain ⟨pubList, heq, hkeys⟩ := @repubLoop_all _ s.sender.pubList []
    { s.sender with isOpen := true, wire := [] } rfl htime
  have hids : pubList.map PubNode.packetId = s.sender.pubList.map PubNode.packetId := by
    have hfst := congrArg (List.map Prod.fst) hkeys
    rwa [List.map_map, List.map_map] at hfst
  have hlead : exchangeMachine.LeadsTo Orderly s { s with
      sender := { s.sender with isOpen := true, wire := [], pubList := [] }
      acks := []
      received := s.received ++ a.pending.filterMap fun e => s.accepted[e.2]? } := by
    refine .head (a := .reconnect) rfl trivial ?_
    refine .head (a := .repub fun _ => (time, .whole)) rfl (fun _ _ h => by cases h) ?_
    refine @leadsTo_reads s.sender.pubList _ _ hkept _ ?_ ?_
    · simp only [coreMqttRepub, heq, List.nil_append]
    · simp only [coreMqttRepub, heq, List.nil_append]
      exact leadsTo_pubacks rfl rfl hids.symm
  exact ⟨_, _, hlead, hkept, rfl, rfl, rfl⟩

theorem can_settle_first :
    ∃ s' messages, exchangeMachine.LeadsTo Orderly firstPublication s' ∧
      KeptMessages firstPublication.sender.pubList messages ∧ s'.sender.pubList = [] ∧
      s'.received = firstPublication.received ++ messages ∧
      s'.accepted = firstPublication.accepted :=
  can_settle firstPublication_reachable

end IotIde
