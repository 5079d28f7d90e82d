import IotIde.Mqtt.Wire

/-!
# Packets that arrive

How the client reads a packet from its connection.  The port's reads may come back late, short
or not at all.

* `Net`, `coreMqttRead`, `coreMqttReadRemainlen`, `coreMqttReadRemainbytes`, `recvPacket` — the
  reads of one packet;
* `recvPacket_ok`, `recvPacket_none` — what is read is a frame from the front of the stream, and
  a read that comes back with nothing has taken nothing;
* `recvPacket_iff` — with reads that wait, a packet is read just when a frame stands at the
  front of the stream whose length has four digits at most.
-/

namespace IotIde

open CText Frames

/-! ## Codes -/

def STATE_SYS_DEPEND_MALLOC_FAILED : ℤ := -0x0201
def STATE_SYS_DEPEND_NWK_CLOSED : ℤ := -0x0204
def STATE_SYS_DEPEND_NWK_READ_LESSDATA : ℤ := -0x0205
def STATE_SYS_DEPEND_NWK_RECV_ERR : ℤ := -0x020A
def STATE_MQTT_MALFORMED_REMAINING_LEN : ℤ := -0x030C
def STATE_MQTT_MALFORMED_REMAINING_BYTES : ℤ := -0x030D
def STATE_PORT_BASE : ℤ := -0x0F00

/-- `_core_mqtt_sysdep_return` -/
def coreMqttSysdepReturn (sysdepCode coreCode : ℤ) : ℤ :=
  if STATE_PORT_BASE - 0x00FF ≤ sysdepCode ∧ sysdepCode < STATE_PORT_BASE then sysdepCode
  else coreCode

/-! ## Reads -/

/-- An open connection: the bytes that were not read yet, and what the port's next reads come
back with, a count or a negative code. -/
structure Net where
  stream : Bytes
  outcomes : ℕ → ℤ

/-- `core_sysdep_network_recv`: the code, the bytes read, and the connection after it.  The
port stops at the timeout, so it may read fewer bytes than it was asked for. -/
def Net.networkRecv (net : Net) (len : ℕ) : ℤ × Bytes × Net :=
  let later := fun i => net.outcomes (i + 1)
  match net.outcomes 0 with
  | .negSucc n => (.negSucc n, [], ⟨net.stream, later⟩)
  | .ofNat n =>
    let buffer := net.stream.take (min n len)
    (buffer.length, buffer, ⟨net.stream.drop (min n len), later⟩)

/-- `_core_mqtt_read` on a connection that is open. -/
def coreMqttRead (net : Net) (len : ℕ) : Except ℤ Bytes × Net :=
  let (res, buffer, net) := net.networkRecv len
  if res < STATE_SUCCESS then
    (.error (coreMqttSysdepReturn res STATE_SYS_DEPEND_NWK_RECV_ERR), net)
  else if res ≠ len then (.error STATE_SYS_DEPEND_NWK_READ_LESSDATA, net)
  else (.ok buffer, net)

/-- The loop of `_core_mqtt_read_remainlen`; five rounds are the most that it makes. -/
def readRemainlenLoop : ℕ → ℕ → ℕ → Net → Except ℤ ℕ × Net
  | 0, _, _, net => (.error STATE_MQTT_MALFORMED_REMAINING_LEN, net)
  | rounds + 1, multiplier, mqttRemainlen, net =>
    match coreMqttRead net 1 with
    | (.error res, net) => (.error res, net)
    | (.ok buffer, net) =>
      let ch := (buffer.headD 0).toNat
      let mqttRemainlen := (mqttRemainlen + (ch &&& 127) * multiplier) % 2 ^ 32
      if 128 * 128 * 128 < multiplier then (.error STATE_MQTT_MALFORMED_REMAINING_LEN, net)
      else if ch &&& 128 ≠ 0 then
        readRemainlenLoop rounds (multiplier * 128 % 2 ^ 32) mqttRemainlen net
      else (.ok mqttRemainlen, net)

/-- `_core_mqtt_read_remainlen` -/
def coreMqttReadRemainlen (net : Net) : Except ℤ ℕ × Net := readRemainlenLoop 5 1 0 net

/-- `_core_mqtt_read_remainbytes`, with the outcome of its `malloc`. -/
def coreMqttReadRemainbytes (mallocOk : Bool) (net : Net) (remainlen : ℕ) :
    Except ℤ Bytes × Net :=
  if 0 < remainlen then
    if ¬ mallocOk then (.error STATE_SYS_DEPEND_MALLOC_FAILED, net)
    else
      match coreMqttRead net remainlen with
      | (.error res, net) =>
        (.error (if res = STATE_SYS_DEPEND_NWK_READ_LESSDATA then
          STATE_MQTT_MALFORMED_REMAINING_BYTES else res), net)
      | (.ok remain, net) => (.ok remain, net)
  else (.ok [], net)

/-- The reads of `aiot_mqtt_recv`: the fixed header and the remaining bytes, or nothing when no
byte came in time. -/
def recvPacket (mallocOk : Bool) (net : Net) : Except ℤ (Option (UInt8 × Bytes)) × Net :=
  match coreMqttRead net 1 with
  | (.error res, net) =>
    if res = STATE_SYS_DEPEND_NWK_READ_LESSDATA then (.ok none, net) else (.error res, net)
  | (.ok header, net) =>
    match coreMqttReadRemainlen net with
    | (.error res, net) => (.error res, net)
    | (.ok remainlen, net) =>
      match coreMqttReadRemainbytes mallocOk net remainlen with
      | (.error res, net) => (.error res, net)
      | (.ok remain, net) => (.ok (some (header.headD 0, remain)), net)

/-! ## What a read can do -/

theorem coreMqttRead_of_negSucc {net : Net} {n : ℕ} (h : net.outcomes 0 = .negSucc n) (len : ℕ) :
    coreMqttRead net len =
      (.error (coreMqttSysdepReturn (.negSucc n) STATE_SYS_DEPEND_NWK_RECV_ERR),
        ⟨net.stream, fun i => net.outcomes (i + 1)⟩) := by
  simp [coreMqttRead, Net.networkRecv, h, STATE_SUCCESS, Int.negSucc_lt_zero]

theorem coreMqttRead_of_ofNat {net : Net} {n : ℕ} (h : net.outcomes 0 = .ofNat n) (len : ℕ) :
    coreMqttRead net len =
      (if (net.stream.take (min n len)).length = len then .ok (net.stream.take (min n len))
        else .error STATE_SYS_DEPEND_NWK_READ_LESSDATA,
        ⟨net.stream.drop (min n len), fun i => net.outcomes (i + 1)⟩) := by
  simp only [coreMqttRead, Net.networkRecv, h, STATE_SUCCESS, ne_eq, Nat.cast_inj, ite_not]
  rw [if_neg (by omega)]
  split_ifs <;> rfl

theorem coreMqttRead_ok {net net' : Net} {len : ℕ} {buffer : Bytes}
    (h : coreMqttRead net len = (.ok buffer, net')) :
    net.stream = buffer ++ net'.stream ∧ buffer.length = len := by
  cases hres : net.outcomes 0 with
  | negSucc n => simp [coreMqttRead_of_negSucc hres] at h
  | ofNat n =>
    rw [coreMqttRead_of_ofNat hres] at h
    split_ifs at h with hlen
    · cases h
      exact ⟨(List.take_append_drop _ _).symm, hlen⟩
    · cases h

/-- A read of one byte that falls short has read nothing. -/
theorem coreMqttRead_lessData {net net' : Net}
    (h : coreMqttRead net 1 = (.error STATE_SYS_DEPEND_NWK_READ_LESSDATA, net')) :
    net'.stream = net.stream := by
  cases hres : net.outcomes 0 with
  | negSucc n =>
    rw [coreMqttRead_of_negSucc hres] at h
    rw [← (Prod.mk.inj h).2]
  | ofNat n =>
    rw [coreMqttRead_of_ofNat hres] at h
    split_ifs at h with hlen
    · cases h
    · obtain ⟨-, rfl⟩ := Prod.mk.inj h
      have hnone : (net.stream.take (min n 1)).length = 0 := by
        have := List.length_take_le (min n 1) net.stream
        omega
      have htake := List.take_append_drop (min n 1) net.stream
      rwa [List.length_eq_zero_iff.1 hnone, List.nil_append] at htake

/-- A read that waits gets what it asks for, where there is so much. -/
theorem coreMqttRead_append (buffer rest : Bytes) {outcomes : ℕ → ℤ} {len : ℕ}
    (hlen : buffer.length = len) (hwait : (len : ℤ) ≤ outcomes 0) :
    coreMqttRead ⟨buffer ++ rest, outcomes⟩ len =
      (.ok buffer, ⟨rest, fun i => outcomes (i + 1)⟩) := by
  obtain ⟨n, hn⟩ := Int.eq_ofNat_of_zero_le (le_trans (Int.natCast_nonneg len) hwait)
  have hle : min n len = buffer.length := by omega
  rw [coreMqttRead_of_ofNat hn]
  simp only [hle, List.take_left, List.drop_left, if_pos hlen]

theorem coreMqttRead_cons (ch : UInt8) (rest : Bytes) {outcomes : ℕ → ℤ}
    (hwait : 1 ≤ outcomes 0) :
    coreMqttRead ⟨ch :: rest, outcomes⟩ 1 = (.ok [ch], ⟨rest, fun i => outcomes (i + 1)⟩) :=
  coreMqttRead_append [ch] rest rfl hwait

/-! ## Reading a packet -/

theorem toNat_and_128_eq_zero_iff (b : UInt8) : b.toNat &&& 128 = 0 ↔ b.toNat < 128 := by
  have hb := b.toNat_lt
  have h : (b.toNat &&& 2 ^ 7) = (b.toNat.testBit 7).toNat * 2 ^ 7 := Nat.and_two_pow _ _
  have ht : b.toNat.testBit 7 = decide (b.toNat / 128 % 2 = 1) := Nat.testBit_eq_decide_div_mod_eq
  rw [show (128 : ℕ) = 2 ^ 7 by norm_num] at *
  rw [h, ht]
  by_cases hbit : b.toNat / 2 ^ 7 % 2 = 1
  · simp only [hbit, decide_true, Bool.toNat_true]
    omega
  · simp only [hbit, decide_false, Bool.toNat_false]
    omega

theorem toNat_and_127 (b : UInt8) : b.toNat &&& 127 = b.toNat % 128 :=
  Nat.and_two_pow_sub_one_eq_mod b.toNat 7

theorem acc_add_lt {acc i : ℕ} (hacc : acc < 128 ^ i) (ch : UInt8) :
    acc + 128 ^ i * (ch.toNat % 128) < 128 ^ (i + 1) := by
  have hdigit := Nat.mod_lt ch.toNat (show 0 < 128 by norm_num)
  rw [pow_succ]
  nlinarith

/-- One round, behind `i` digits. -/
theorem readRemainlenLoop_step {rounds i acc : ℕ} {net net' : Net} {ch : UInt8} (hi : i ≤ 3)
    (hacc : acc < 128 ^ i) (hread : coreMqttRead net 1 = (.ok [ch], net')) :
    readRemainlenLoop (rounds + 1) (128 ^ i) acc net =
      if ch.toNat < 128 then (.ok (acc + 128 ^ i * (ch.toNat % 128)), net')
      else readRemainlenLoop rounds (128 ^ (i + 1)) (acc + 128 ^ i * (ch.toNat % 128)) net' := by
  have hpow : 128 ^ (i + 1) ≤ 128 ^ 4 := Nat.pow_le_pow_right (by norm_num) (by omega)
  have hmult : ¬ 128 * 128 * 128 < 128 ^ i := by
    have := Nat.pow_le_pow_right (show 0 < 128 by norm_num) hi
    omega
  have hsum := (acc_add_lt hacc ch).trans_le (hpow.trans (show 128 ^ 4 ≤ 2 ^ 32 by norm_num))
  have hnext := hpow.trans_lt (show 128 ^ 4 < 2 ^ 32 by norm_num)
  rw [readRemainlenLoop, hread]
  simp only [List.headD_cons, toNat_and_127, if_neg hmult, Nat.mul_comm (_ % 128),
    Nat.mod_eq_of_lt hsum, ← pow_succ, Nat.mod_eq_of_lt hnext, ne_eq, toNat_and_128_eq_zero_iff,
    ite_not]

/-- What the loop reads behind `i` digits. -/
theorem readRemainlenLoop_ok {rounds i acc remainlen : ℕ} {net net' : Net} (hi : rounds + i = 5)
    (hacc : acc < 128 ^ i)
    (h : readRemainlenLoop rounds (128 ^ i) acc net = (.ok remainlen, net')) :
    ∃ digits, IsVarint digits ∧ i + digits.length ≤ 4 ∧ net.stream = digits ++ net'.stream ∧
      remainlen = acc + 128 ^ i * value digits := by
  induction rounds generalizing i acc net with
  | zero => cases h
  | succ rounds ih =>
    obtain ⟨ch, net₁, hread⟩ : ∃ ch net₁, coreMqttRead net 1 = (.ok [ch], net₁) := by
      cases hread : coreMqttRead net 1 with
      | mk result net₁ =>
        cases result with
        | error res => simp [readRemainlenLoop, hread] at h
        | ok buffer =>
          obtain ⟨ch, rfl⟩ := List.length_eq_one_iff.1 (coreMqttRead_ok hread).2
          exact ⟨ch, net₁, rfl⟩
    have hstream := (coreMqttRead_ok hread).1
    have hi3 : i ≤ 3 := by
      by_contra hlt
      obtain rfl : i = 4 := by omega
      simp [readRemainlenLoop, hread] at h
    rw [readRemainlenLoop_step hi3 hacc hread] at h
    split_ifs at h with hlast
    · obtain ⟨hvalue, rfl⟩ : acc + 128 ^ i * (ch.toNat % 128) = remainlen ∧ net₁ = net' := by
        simpa using h
      exact ⟨[ch], .last hlast, Nat.succ_le_succ hi3, hstream, by simp [value, hvalue]⟩
    · obtain ⟨digits, hdigits, hle, hrest, rfl⟩ := ih (by omega) (acc_add_lt hacc ch) h
      refine ⟨ch :: digits, .more (not_lt.1 hlast) hdigits, ?_, ?_, ?_⟩
      · rw [List.length_cons]
        omega
      · rw [hstream, hrest]
        rfl
      · rw [value]
        ring

/-- With reads that wait, the loop reads every length of four digits at most. -/
theorem readRemainlenLoop_append {rounds i acc : ℕ} {digits rest : Bytes} {outcomes : ℕ → ℤ}
    (hi : rounds + i = 5) (hacc : acc < 128 ^ i) (hdigits : IsVarint digits)
    (hle : i + digits.length ≤ 4) (hwait : ∀ j, 1 ≤ outcomes j) :
    readRemainlenLoop rounds (128 ^ i) acc ⟨digits ++ rest, outcomes⟩ =
      (.ok (acc + 128 ^ i * value digits), ⟨rest, fun j => outcomes (j + digits.length)⟩) := by
  induction hdigits generalizing rounds i acc outcomes with
  | @last ch hch =>
    rw [List.length_singleton] at hle
    obtain ⟨rounds, rfl⟩ : ∃ k, rounds = k + 1 := ⟨rounds - 1, by omega⟩
    have hread := coreMqttRead_cons ch rest (hwait 0)
    rw [List.singleton_append, readRemainlenLoop_step (by omega) hacc hread, if_pos hch]
    simp [value]
  | @more ch digits hch hdigits ih =>
    rw [List.length_cons] at hle
    obtain ⟨rounds, rfl⟩ : ∃ k, rounds = k + 1 := ⟨rounds - 1, by omega⟩
    have hread := coreMqttRead_cons ch (digits ++ rest) (hwait 0)
    rw [List.cons_append, readRemainlenLoop_step (by omega) hacc hread, if_neg (not_lt.2 hch),
      ih (by omega) (acc_add_lt hacc ch) (by omega) (fun j => hwait (j + 1))]
    simp only [value, List.length_cons, Prod.mk.injEq, Except.ok.injEq, Net.mk.injEq, true_and]
    exact ⟨by ring, funext fun j => congrArg outcomes (by omega)⟩

theorem coreMqttReadRemainlen_ok {net net' : Net} {remainlen : ℕ}
    (h : coreMqttReadRemainlen net = (.ok remainlen, net')) :
    ∃ digits, IsVarint digits ∧ digits.length ≤ 4 ∧ net.stream = digits ++ net'.stream ∧
      remainlen = value digits := by
  simpa using readRemainlenLoop_ok (i := 0) rfl (by norm_num) h

theorem coreMqttReadRemainbytes_ok {mallocOk : Bool} {net net' : Net} {remainlen : ℕ}
    {remain : Bytes} (h : coreMqttReadRemainbytes mallocOk net remainlen = (.ok remain, net')) :
    net.stream = remain ++ net'.stream ∧ remain.length = remainlen := by
  rw [coreMqttReadRemainbytes] at h
  split_ifs at h with hpos hmalloc
  · cases hread : coreMqttRead net remainlen with
    | mk result net₁ =>
      cases result with
      | error res => simp [hread] at h
      | ok buffer =>
        rw [hread] at h
        cases h
        exact coreMqttRead_ok hread
  · cases h
  · cases h
    exact ⟨rfl, by simp; omega⟩

/-- What was read is a frame from the front of the stream. -/
theorem recvPacket_ok {mallocOk : Bool} {net net' : Net} {header : UInt8} {remain : Bytes}
    (h : recvPacket mallocOk net = (.ok (some (header, remain)), net')) :
    ∃ f : Frame, f.size.length ≤ 4 ∧ f.header = header ∧ f.body = remain ∧
      net.stream = f.text ++ net'.stream := by
  rw [recvPacket] at h
  cases hread : coreMqttRead net 1 with
  | mk result net₁ =>
    cases result with
    | error res => simp only [hread] at h; split_ifs at h <;> cases h
    | ok buffer =>
      obtain ⟨hstream₁, hlen⟩ := coreMqttRead_ok hread
      obtain ⟨ch, rfl⟩ := List.length_eq_one_iff.1 hlen
      cases hlen : coreMqttReadRemainlen net₁ with
      | mk result net₂ =>
        cases result with
        | error res => simp [hread, hlen] at h
        | ok remainlen =>
          obtain ⟨digits, hdigits, hle, hstream₂, rfl⟩ := coreMqttReadRemainlen_ok hlen
          cases hbytes : coreMqttReadRemainbytes mallocOk net₂ (value digits) with
          | mk result net₃ =>
            cases result with
            | error res => simp [hread, hlen, hbytes] at h
            | ok bytes =>
              obtain ⟨hstream₃, hbody⟩ := coreMqttReadRemainbytes_ok hbytes
              simp only [hread, hlen, hbytes, Prod.mk.injEq, Except.ok.injEq, Option.some.injEq,
                List.headD_cons] at h
              obtain ⟨⟨rfl, rfl⟩, rfl⟩ := h
              refine ⟨⟨ch, digits, bytes, hdigits, hbody.symm⟩, hle, rfl, rfl, ?_⟩
              rw [hstream₁, hstream₂, hstream₃]
              simp [Frame.text]

/-- Nothing was read, and nothing was taken from the stream. -/
theorem recvPacket_none {mallocOk : Bool} {net net' : Net}
    (h : recvPacket mallocOk net = (.ok none, net')) : net'.stream = net.stream := by
  rw [recvPacket] at h
  cases hread : coreMqttRead net 1 with
  | mk result net₁ =>
    cases result with
    | error res =>
      simp only [hread] at h
      split_ifs at h with hless
      · obtain ⟨-, rfl⟩ := Prod.mk.inj h
        rw [hless] at hread
        exact coreMqttRead_lessData hread
      · cases h
    | ok buffer =>
      simp only [hread] at h
      split at h
      · cases h
      · split at h <;> cases h

/-- With reads that wait, every frame whose length has four digits at most is read. -/
theorem recvPacket_text {f : Frame} (rest : Bytes) (hsize : f.size.length ≤ 4)
    {outcomes : ℕ → ℤ} (hwait : ∀ j, (f.text.length : ℤ) ≤ outcomes j) :
    ∃ net', recvPacket true ⟨f.text ++ rest, outcomes⟩ = (.ok (some (f.header, f.body)), net') ∧
      net'.stream = rest := by
  have hlen := f.length_text
  have hone : ∀ j, 1 ≤ outcomes j := fun j => le_trans (by omega) (hwait j)
  have hheader := coreMqttRead_cons f.header (f.size ++ (f.body ++ rest)) (hone 0)
  have hremainlen : readRemainlenLoop 5 1 0
      ⟨f.size ++ (f.body ++ rest), fun j => outcomes (j + 1)⟩ =
        (.ok f.body.length, ⟨f.body ++ rest, fun j => outcomes (j + f.size.length + 1)⟩) := by
    have h := @readRemainlenLoop_append 5 0 0 f.size (f.body ++ rest)
      (fun j => outcomes (j + 1)) rfl (by norm_num) f.size_isVarint (by omega)
      (fun j => hone (j + 1))
    simpa only [pow_zero, zero_add, one_mul, f.size_value] using h
  have htext : f.text ++ rest = f.header :: (f.size ++ (f.body ++ rest)) := by
    simp [Frame.text]
  rw [recvPacket, htext, hheader]
  simp only [coreMqttReadRemainlen, hremainlen, coreMqttReadRemainbytes, List.headD_cons]
  by_cases hbody : 0 < f.body.length
  · have hlast : (f.body.length : ℤ) ≤ outcomes (0 + f.size.length + 1) :=
      le_trans (by omega) (hwait _)
    have hread := @coreMqttRead_append f.body rest
      (fun j => outcomes (j + f.size.length + 1)) _ rfl hlast
    simp only [if_pos hbody, not_true_eq_false, if_false, hread]
    exact ⟨_, rfl, rfl⟩
  · have hnil : f.body = [] := List.length_eq_zero_iff.1 (by omega)
    simp only [hnil, List.length_nil, lt_irrefl, if_false]
    exact ⟨_, rfl, rfl⟩

/-- **With reads that wait, a packet is read just when a frame stands at the front of the
stream whose length has four digits at most.** -/
theorem recvPacket_iff {stream : Bytes} {outcomes : ℕ → ℤ}
    (hwait : ∀ j, (stream.length : ℤ) ≤ outcomes j) (header : UInt8) (remain rest : Bytes) :
    (∃ net', recvPacket true ⟨stream, outcomes⟩ = (.ok (some (header, remain)), net') ∧
      net'.stream = rest) ↔
    ∃ f : Frame, f.size.length ≤ 4 ∧ f.header = header ∧ f.body = remain ∧
      stream = f.text ++ rest := by
  constructor
  · rintro ⟨net', h, rfl⟩
    exact recvPacket_ok h
  · rintro ⟨f, hsize, rfl, rfl, rfl⟩
    refine recvPacket_text _ hsize fun j => le_trans ?_ (hwait j)
    simp

/-- A body whose length has two digits, and the next packet behind it. -/
theorem recvPacket_iff_two_digits :
    ∃ net', recvPacket true
        ⟨0x30 :: 0x82 :: 1 :: (List.replicate 130 97 ++ [0xD0, 0]), fun _ => 135⟩ =
      (.ok (some (0x30, List.replicate 130 97)), net') ∧ net'.stream = [0xD0, 0] := by
  have hencode : encode 130 = [0x82, 1] := by
    rw [encode, if_neg (by norm_num), encode_of_lt (by norm_num)]
    rfl
  generalize hbody : List.replicate 130 (97 : UInt8) = body
  have hlen : body.length = 130 := by rw [← hbody, List.length_replicate]
  have hsize : (Frame.ofBody 0x30 body).size = [0x82, 1] := by
    show encode body.length = _
    rw [hlen, hencode]
  refine (recvPacket_iff (fun _ => ?_) _ _ _).2 ⟨.ofBody 0x30 body, by simp [hsize], rfl, rfl, ?_⟩
  · simp [hlen]
  · rw [Frame.text, hsize]
    rfl

end IotIde
