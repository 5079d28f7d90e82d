import IotIde.Mqtt.Publications

/-!
# The handshake

How the client connects: a network handle with its options, the connection itself, the client's
packet, and the server's answer.

* `coreMqttConnect` — all of it, with every point at which it gives up, and what is left of the
  network handle then;
* `coreMqttConnect_success_iff` — it reports a connection just when it gets as far as the server's
  answer, and that is accepted;
* `aiotMqttConnect_noError_iff` — with reads that wait, `aiot_mqtt_connect` returns no error just
  then, and also where the network stands and the client id cannot be made.
-/

namespace IotIde

open CText Frames

def STATE_USER_INPUT_MISSING_PRODUCT_KEY : ℤ := -0x0104
def STATE_USER_INPUT_MISSING_DEVICE_NAME : ℤ := -0x0105
def STATE_USER_INPUT_MISSING_DEVICE_SECRET : ℤ := -0x0106
def STATE_USER_INPUT_MISSING_HOST : ℤ := -0x0108
def STATE_SYS_DEPEND_NWK_INVALID_OPTION : ℤ := -0x0202
def STATE_SYS_DEPEND_NWK_EST_FAILED : ℤ := -0x0203
def STATE_MQTT_CONNACK_FMT_ERROR : ℤ := -0x0301
def STATE_MQTT_CONNACK_RCODE_UNACCEPTABLE_PROTOCOL_VERSION : ℤ := -0x0302
def STATE_MQTT_CONNACK_RCODE_SERVER_UNAVAILABLE : ℤ := -0x0303
def STATE_MQTT_CONNACK_RCODE_BAD_USERNAME_PASSWORD : ℤ := -0x0304
def STATE_MQTT_CONNACK_RCODE_NOT_AUTHORIZED : ℤ := -0x0305
def STATE_MQTT_CONNACK_RCODE_UNKNOWN : ℤ := -0x0306
def STATE_MQTT_CONNECT_SUCCESS : ℤ := -0x030B

/-- Why a connection is not even tried: something that the application had to set is missing, or
the user name or the password could not be made. -/
inductive Unready
  | host
  | productKey
  | deviceName
  | deviceSecret
  | sign

def Unready.code : Unready → ℤ
  | .host => STATE_USER_INPUT_MISSING_HOST
  | .productKey => STATE_USER_INPUT_MISSING_PRODUCT_KEY
  | .deviceName => STATE_USER_INPUT_MISSING_DEVICE_NAME
  | .deviceSecret => STATE_USER_INPUT_MISSING_DEVICE_SECRET
  | .sign => STATE_SYS_DEPEND_MALLOC_FAILED

/-- What one call of `_core_mqtt_connect` meets: the port's codes, whether each `malloc`
succeeds, the write, and the connection to read from. -/
structure ConnectEnv where
  unready : Option Unready
  networkInitOk : Bool
  setopt : ℤ
  pskMallocOk : Bool
  setoptPsk : ℤ
  establish : ℤ
  clientidOk : Bool
  connPktOk : Bool
  write : WriteOutcome
  net : Net
  connackMallocOk : Bool

/-- `_core_mqtt_connack_handle` -/
def coreMqttConnackHandle (connack : Bytes) : ℤ :=
  let rcode := (connack.getD 1 0).toNat
  if rcode = 0 then STATE_SUCCESS
  else if rcode = 1 then STATE_MQTT_CONNACK_RCODE_UNACCEPTABLE_PROTOCOL_VERSION
  else if rcode = 2 then STATE_MQTT_CONNACK_RCODE_SERVER_UNAVAILABLE
  else if rcode = 3 then STATE_MQTT_CONNACK_RCODE_BAD_USERNAME_PASSWORD
  else if rcode = 4 then STATE_MQTT_CONNACK_RCODE_NOT_AUTHORIZED
  else STATE_MQTT_CONNACK_RCODE_UNKNOWN

/-- The last part of `_core_mqtt_connect`: the server's answer, the code and the network handle
after it.  Only a port error on the first byte and a refusal close the connection. -/
def readConnack (connackMallocOk : Bool) (net : Net) : ℤ × Option Net :=
  match coreMqttRead net 1 with
  | (.error res, net) =>
    (res, if res = STATE_SYS_DEPEND_NWK_READ_LESSDATA then some net else none)
  | (.ok header, net) =>
    if (header.headD 0).toNat ≠ CORE_MQTT_CONNACK_PKT_TYPE then
      (STATE_MQTT_CONNACK_FMT_ERROR, some net)
    else
      match coreMqttReadRemainlen net with
      | (.error res, net) => (res, some net)
      | (.ok remainLen, net) =>
        if remainLen ≠ 2 then (STATE_MQTT_CONNACK_FMT_ERROR, some net)
        else if ¬ connackMallocOk then (STATE_SYS_DEPEND_MALLOC_FAILED, some net)
        else
          match coreMqttRead net remainLen with
          | (.error res, net) => (res, some net)
          | (.ok connack, net) =>
            let res := coreMqttConnackHandle connack
            if res < STATE_SUCCESS then (res, none) else (STATE_MQTT_CONNECT_SUCCESS, some net)

/-- The part of `_core_mqtt_connect` behind the connection to the network. -/
def mqttHandshake (fields : ConnectFields) (env : ConnectEnv) : ℤ × Option Net :=
  -- the code is still that of the connection
  if ¬ env.clientidOk then (env.establish, some env.net)
  else if ¬ env.connPktOk then (STATE_SYS_DEPEND_MALLOC_FAILED, some env.net)
  else
    let (res, _) := coreMqttWrite true (connPkt fields) env.write
    if res < STATE_SUCCESS then
      (res, if res = STATE_SYS_DEPEND_NWK_WRITE_LESSDATA then some env.net else none)
    else readConnack env.connackMallocOk env.net

/-- `_core_mqtt_connect`: the code, and the network handle that it leaves. -/
def coreMqttConnect (networkHandle : Option Net) (fields : ConnectFields) (env : ConnectEnv) :
    ℤ × Option Net :=
  match env.unready with
  | some reason => (reason.code, networkHandle)
  | none =>
    if ¬ env.networkInitOk then (STATE_SYS_DEPEND_MALLOC_FAILED, none)
    else if env.setopt < STATE_SUCCESS then
      (coreMqttSysdepReturn env.setopt STATE_SYS_DEPEND_NWK_INVALID_OPTION, none)
    else if ¬ env.pskMallocOk then (STATE_SYS_DEPEND_MALLOC_FAILED, some env.net)
    else if env.setoptPsk < STATE_SUCCESS then
      (coreMqttSysdepReturn env.setoptPsk STATE_SYS_DEPEND_NWK_INVALID_OPTION, some env.net)
    else if env.establish < STATE_SUCCESS then
      (coreMqttSysdepReturn env.establish STATE_SYS_DEPEND_NWK_EST_FAILED, none)
    else mqttHandshake fields env

/-- `aiot_mqtt_connect`, without the events. -/
def aiotMqttConnect (networkHandle : Option Net) (fields : ConnectFields) (env : ConnectEnv) :
    ℤ × Option Net :=
  let (res, networkHandle) := coreMqttConnect networkHandle fields env
  (if res = STATE_MQTT_CONNECT_SUCCESS then STATE_SUCCESS else res, networkHandle)

/-- The connection to the network stands. -/
structure ConnectEnv.Established (env : ConnectEnv) : Prop where
  unready : env.unready = none
  networkInitOk : env.networkInitOk = true
  setopt : STATE_SUCCESS ≤ env.setopt
  pskMallocOk : env.pskMallocOk = true
  setoptPsk : STATE_SUCCESS ≤ env.setoptPsk
  establish : STATE_SUCCESS ≤ env.establish

/-- Everything up to the server's answer goes well. -/
structure ConnectEnv.Ready (env : ConnectEnv) (fields : ConnectFields) : Prop extends
    env.Established where
  clientidOk : env.clientidOk = true
  connPktOk : env.connPktOk = true
  write : STATE_SUCCESS ≤ (coreMqttWrite true (connPkt fields) env.write).1

/-- Neither a success nor the code for a connection. -/
def IsError (res : ℤ) : Prop := res < STATE_SUCCESS ∧ res ≠ STATE_MQTT_CONNECT_SUCCESS

instance (res : ℤ) : Decidable (IsError res) := inferInstanceAs (Decidable (_ ∧ _))

/-! ## The codes -/

theorem coreMqttSysdepReturn_eq (code coreCode : ℤ) :
    coreMqttSysdepReturn code coreCode = coreCode ∨
      coreMqttSysdepReturn code coreCode < STATE_PORT_BASE := by
  rw [coreMqttSysdepReturn]
  split_ifs with h
  · exact Or.inr h.2
  · exact Or.inl rfl

theorem Unready.isError_code (reason : Unready) : IsError reason.code := by
  cases reason <;> decide

theorem isError_mallocFailed : IsError STATE_SYS_DEPEND_MALLOC_FAILED := by decide

theorem isError_fmtError : IsError STATE_MQTT_CONNACK_FMT_ERROR := by decide

theorem isError_sysdepReturn {code coreCode : ℤ} (h : IsError coreCode) :
    IsError (coreMqttSysdepReturn code coreCode) := by
  rcases coreMqttSysdepReturn_eq code coreCode with heq | hlt
  · rwa [heq]
  · rw [STATE_PORT_BASE] at hlt
    rw [IsError, STATE_SUCCESS, STATE_MQTT_CONNECT_SUCCESS]
    omega

/-- A read fails with an error. -/
theorem coreMqttRead_error {net net' : Net} {len : ℕ} {res : ℤ}
    (h : coreMqttRead net len = (.error res, net')) : IsError res := by
  cases hres : net.outcomes 0 with
  | negSucc n =>
    rw [coreMqttRead_of_negSucc hres] at h
    obtain ⟨hcode, -⟩ := Prod.mk.inj h
    rw [← Except.error.inj hcode]
    exact isError_sysdepReturn (by decide)
  | ofNat n =>
    rw [coreMqttRead_of_ofNat hres] at h
    split_ifs at h
    · cases h
    · obtain ⟨hcode, -⟩ := Prod.mk.inj h
      rw [← Except.error.inj hcode]
      decide

theorem readRemainlenLoop_error {rounds multiplier acc : ℕ} {net net' : Net} {res : ℤ}
    (h : readRemainlenLoop rounds multiplier acc net = (.error res, net')) : IsError res := by
  induction rounds generalizing multiplier acc net with
  | zero =>
    obtain ⟨hcode, -⟩ := Prod.mk.inj h
    rw [← Except.error.inj hcode]
    decide
  | succ rounds ih =>
    rw [readRemainlenLoop] at h
    split at h
    · rename_i hread
      obtain ⟨hcode, -⟩ := Prod.mk.inj h
      rw [← Except.error.inj hcode]
      exact coreMqttRead_error hread
    · simp only at h
      split_ifs at h
      · obtain ⟨hcode, -⟩ := Prod.mk.inj h
        rw [← Except.error.inj hcode]
        decide
      · exact ih h
      · cases h

/-! ## The server's answer -/

/-- The answer begins with this frame. -/
def Accepting (f : Frame) : Prop :=
  f.size.length ≤ 4 ∧ f.header = 0x20 ∧ ∃ flags, f.body = [flags, 0]

theorem coreMqttConnackHandle_success_iff (connack : Bytes) :
    STATE_SUCCESS ≤ coreMqttConnackHandle connack ↔ connack.getD 1 0 = 0 := by
  rw [coreMqttConnackHandle, ← UInt8.toNat_inj]
  simp only [STATE_SUCCESS, STATE_MQTT_CONNACK_RCODE_UNACCEPTABLE_PROTOCOL_VERSION,
    STATE_MQTT_CONNACK_RCODE_SERVER_UNAVAILABLE, STATE_MQTT_CONNACK_RCODE_BAD_USERNAME_PASSWORD,
    STATE_MQTT_CONNACK_RCODE_NOT_AUTHORIZED, STATE_MQTT_CONNACK_RCODE_UNKNOWN]
  split_ifs with h
  all_goals simp_all

theorem coreMqttConnackHandle_ne_success (connack : Bytes) :
    coreMqttConnackHandle connack ≠ STATE_MQTT_CONNECT_SUCCESS := by
  rw [coreMqttConnackHandle]
  split_ifs <;> decide

theorem toNat_eq_connack_iff (header : UInt8) :
    header.toNat = CORE_MQTT_CONNACK_PKT_TYPE ↔ header = 0x20 := by
  rw [← UInt8.toNat_inj]
  rfl

/-- The answer is accepted just when each of its three parts is read and is as it must be. -/
theorem readConnack_eq_success_iff {connackMallocOk : Bool} {net : Net} :
    (readConnack connackMallocOk net).1 = STATE_MQTT_CONNECT_SUCCESS ↔
      connackMallocOk = true ∧ ∃ net₁ net₂ net₃ connack,
        coreMqttRead net 1 = (.ok [0x20], net₁) ∧ coreMqttReadRemainlen net₁ = (.ok 2, net₂) ∧
        coreMqttRead net₂ 2 = (.ok connack, net₃) ∧ connack.getD 1 0 = 0 := by
  constructor
  · intro h
    unfold readConnack at h
    cases hheader : coreMqttRead net 1 with
    | mk result net₁ =>
      cases result with
      | error res =>
        simp only [hheader] at h
        exact absurd h (coreMqttRead_error hheader).2
      | ok header =>
        obtain ⟨ch, rfl⟩ := List.length_eq_one_iff.1 (coreMqttRead_ok hheader).2
        simp only [hheader, List.headD_cons] at h
        by_cases hch : ch.toNat = CORE_MQTT_CONNACK_PKT_TYPE
        · rw [if_neg (not_not.2 hch)] at h
          cases hlen : coreMqttReadRemainlen net₁ with
          | mk result net₂ =>
            cases result with
            | error res =>
              simp only [hlen] at h
              exact absurd h (readRemainlenLoop_error hlen).2
            | ok remainLen =>
              simp only [hlen] at h
              by_cases htwo : remainLen = 2
              · subst htwo
                cases connackMallocOk with
                | false => simp [STATE_SYS_DEPEND_MALLOC_FAILED, STATE_MQTT_CONNECT_SUCCESS] at h
                | true =>
                  cases hbytes : coreMqttRead net₂ 2 with
                  | mk result net₃ =>
                    cases result with
                    | error res =>
                      simp only [hbytes] at h
                      exact absurd h (coreMqttRead_error hbytes).2
                    | ok connack =>
                      refine ⟨rfl, net₁, net₂, net₃, connack, ?_, hlen, hbytes, ?_⟩
                      · rw [(toNat_eq_connack_iff ch).1 hch]
                      · refine (coreMqttConnackHandle_success_iff connack).1 (not_lt.1 fun hlt => ?_)
                        simp only [hbytes, if_pos hlt] at h
                        exact coreMqttConnackHandle_ne_success connack h
              · simp [htwo, STATE_MQTT_CONNACK_FMT_ERROR, STATE_MQTT_CONNECT_SUCCESS] at h
        · simp [hch, STATE_MQTT_CONNACK_FMT_ERROR, STATE_MQTT_CONNECT_SUCCESS] at h
  · rintro ⟨rfl, net₁, net₂, net₃, connack, hheader, hlen, hbytes, hcode⟩
    have hres := not_lt.2 ((coreMqttConnackHandle_success_iff connack).2 hcode)
    simp only [readConnack, hheader, List.headD_cons, hlen, hbytes, hres]
    simp [CORE_MQTT_CONNACK_PKT_TYPE]

/-- With reads that wait, the answer is accepted just when the stream begins with an accepting
frame. -/
theorem readConnack_success_iff {connackMallocOk : Bool} {net : Net}
    (hwait : ∀ j, (net.stream.length : ℤ) ≤ net.outcomes j) :
    (readConnack connackMallocOk net).1 = STATE_MQTT_CONNECT_SUCCESS ↔
      connackMallocOk = true ∧ ∃ f rest, Accepting f ∧ net.stream = f.text ++ rest := by
  rw [readConnack_eq_success_iff]
  refine and_congr_right fun _ => ⟨?_, ?_⟩
  · rintro ⟨net₁, net₂, net₃, connack, hheader, hlen, hbytes, hcode⟩
    obtain ⟨hstream₁, -⟩ := coreMqttRead_ok hheader
    obtain ⟨digits, hdigits, hle, hstream₂, hvalue⟩ := coreMqttReadRemainlen_ok hlen
    obtain ⟨hstream₃, hbody⟩ := coreMqttRead_ok hbytes
    obtain ⟨flags, code, rfl⟩ := List.length_eq_two.1 hbody
    rw [List.getD_cons_succ, List.getD_cons_zero] at hcode
    subst hcode
    refine ⟨⟨0x20, digits, [flags, 0], hdigits, hvalue.symm⟩, net₃.stream, ⟨hle, rfl, flags, rfl⟩,
      ?_⟩
    rw [hstream₁, hstream₂, hstream₃]
    simp [Frame.text]
  · rintro ⟨⟨header, digits, body, hdigits, hvalue⟩, rest, ⟨hle, hheader, flags, hbody⟩, hstream⟩
    obtain ⟨stream, outcomes⟩ := net
    simp only at hle hheader hbody hstream hwait
    subst hheader hbody
    have hlen : stream.length = 1 + digits.length + 2 + rest.length := by
      rw [hstream]
      simp [Frame.text]
      omega
    have hone : ∀ j, 1 ≤ outcomes j := fun j => le_trans (by omega) (hwait j)
    have htwo : (([flags, 0] : Bytes).length : ℤ) ≤ outcomes (0 + digits.length + 1) :=
      le_trans (by simp; omega) (hwait _)
    have hremainlen := @readRemainlenLoop_append 5 0 0 digits ([flags, 0] ++ rest)
      (fun j => outcomes (j + 1)) rfl (by norm_num) hdigits (by omega) (fun j => hone (j + 1))
    rw [hvalue] at hremainlen
    refine ⟨_, _, _, [flags, 0], ?_, hremainlen, coreMqttRead_append _ rest rfl htwo, rfl⟩
    have hsplit : stream = 0x20 :: (digits ++ ([flags, 0] ++ rest)) := by
      rw [hstream]
      simp [Frame.text]
    rw [hsplit]
    exact coreMqttRead_cons 0x20 _ (hone 0)

/-- Every other code of the answer is an error. -/
theorem readConnack_isError {connackMallocOk : Bool} {net : Net}
    (h : (readConnack connackMallocOk net).1 ≠ STATE_MQTT_CONNECT_SUCCESS) :
    IsError (readConnack connackMallocOk net).1 := by
  unfold readConnack at h ⊢
  split
  · rename_i hheader
    exact coreMqttRead_error hheader
  · rename_i header net₁ hheader
    by_cases hch : (header.headD 0).toNat = CORE_MQTT_CONNACK_PKT_TYPE
    swap
    · rw [if_pos hch]
      exact isError_fmtError
    simp only [hheader, if_neg (not_not.2 hch)] at h ⊢
    split
    · rename_i hlen
      exact readRemainlenLoop_error hlen
    · rename_i remainLen net₂ hlen
      by_cases htwo : remainLen = 2
      swap
      · rw [if_pos htwo]
        exact isError_fmtError
      simp only [hlen, if_neg (not_not.2 htwo)] at h ⊢
      cases connackMallocOk with
      | false => exact isError_mallocFailed
      | true =>
        simp only [not_true_eq_false, if_false] at h ⊢
        split
        · rename_i hbytes
          exact coreMqttRead_error hbytes
        · rename_i connack net₃ hbytes
          by_cases hcode : coreMqttConnackHandle connack < STATE_SUCCESS
          · rw [if_pos hcode]
            exact ⟨hcode, coreMqttConnackHandle_ne_success connack⟩
          · simp [hbytes, hcode] at h

/-! ## The whole connection -/

theorem coreMqttWrite_isError {buffer : Bytes} {outcome : WriteOutcome}
    (h : (coreMqttWrite true buffer outcome).1 < STATE_SUCCESS) :
    IsError (coreMqttWrite true buffer outcome).1 := by
  cases outcome with
  | whole =>
    have h : (buffer.length : ℤ) < STATE_SUCCESS := h
    rw [STATE_SUCCESS] at h
    omega
  | short n =>
    have hcode : (coreMqttWrite true buffer (.short n)).1 =
        if (buffer.take n).length ≠ buffer.length then STATE_SYS_DEPEND_NWK_WRITE_LESSDATA
        else ((buffer.take n).length : ℤ) := rfl
    rw [hcode] at h ⊢
    split_ifs at h ⊢
    · decide
    · rw [STATE_SUCCESS] at h
      omega
  | failed code n =>
    have hsend : IsError STATE_SYS_DEPEND_NWK_SEND_ERR := by decide
    simpa only [coreMqttWrite_failed] using isError_sysdepReturn hsend

/-- A check that gives up with an error was passed. -/
theorem of_ite_not_isError {p : Prop} [Decidable p] {a b : ℤ × Option Net}
    (h : ¬ IsError (if p then a else b).1) (ha : IsError a.1) : ¬ p ∧ ¬ IsError b.1 := by
  by_cases hp : p
  · rw [if_pos hp] at h
    exact absurd ha h
  · rw [if_neg hp] at h
    exact ⟨hp, h⟩

theorem coreMqttConnect_of_established {fields : ConnectFields} {env : ConnectEnv}
    (h : env.Established) (networkHandle : Option Net) :
    coreMqttConnect networkHandle fields env = mqttHandshake fields env := by
  simp only [coreMqttConnect, h.unready, h.networkInitOk, h.pskMallocOk,
    if_neg (not_lt.2 h.setopt), if_neg (not_lt.2 h.setoptPsk), if_neg (not_lt.2 h.establish)]
  rfl

/-- Without an error the client got as far as the handshake. -/
theorem established_of_not_isError {networkHandle : Option Net} {fields : ConnectFields}
    {env : ConnectEnv} (h : ¬ IsError (coreMqttConnect networkHandle fields env).1) :
    env.Established := by
  rw [coreMqttConnect] at h
  split at h
  · rename_i reason _
    exact absurd reason.isError_code h
  · rename_i hunready
    have hoption : IsError STATE_SYS_DEPEND_NWK_INVALID_OPTION := by decide
    have hestFailed : IsError STATE_SYS_DEPEND_NWK_EST_FAILED := by decide
    obtain ⟨hinit, h⟩ := of_ite_not_isError h isError_mallocFailed
    obtain ⟨hsetopt, h⟩ := of_ite_not_isError h (isError_sysdepReturn hoption)
    obtain ⟨hpsk, h⟩ := of_ite_not_isError h isError_mallocFailed
    obtain ⟨hsetoptPsk, h⟩ := of_ite_not_isError h (isError_sysdepReturn hoption)
    obtain ⟨hestablish, -⟩ := of_ite_not_isError h (isError_sysdepReturn hestFailed)
    exact ⟨hunready, not_not.1 hinit, not_lt.1 hsetopt, not_not.1 hpsk, not_lt.1 hsetoptPsk,
      not_lt.1 hestablish⟩

/-- Where nothing fails before it, the answer decides. -/
theorem coreMqttConnect_of_ready {fields : ConnectFields} {env : ConnectEnv}
    (h : env.Ready fields) (networkHandle : Option Net) :
    coreMqttConnect networkHandle fields env = readConnack env.connackMallocOk env.net := by
  have hwrite := not_lt.2 h.write
  rw [coreMqttConnect_of_established h.toEstablished]
  simp only [mqttHandshake, h.clientidOk, h.connPktOk, if_neg hwrite]
  rfl

/-- What the call ends with: without a client id the code of the connection to the network, else
an error or the code of the server's answer. -/
theorem coreMqttConnect_cases (networkHandle : Option Net) (fields : ConnectFields)
    (env : ConnectEnv) :
    IsError (coreMqttConnect networkHandle fields env).1 ∨
      (env.Established ∧ env.clientidOk = false ∧
        (coreMqttConnect networkHandle fields env).1 = env.establish) ∨
      (env.Ready fields ∧
        (coreMqttConnect networkHandle fields env).1 = STATE_MQTT_CONNECT_SUCCESS) := by
  by_cases h : IsError (coreMqttConnect networkHandle fields env).1
  · exact Or.inl h
  right
  have hestablished := established_of_not_isError h
  rw [coreMqttConnect_of_established hestablished] at h ⊢
  cases hclientid : env.clientidOk with
  | false => exact Or.inl ⟨hestablished, rfl, by rw [mqttHandshake, hclientid]; rfl⟩
  | true =>
    right
    have h' := h
    rw [mqttHandshake, if_neg (not_not.2 hclientid)] at h'
    obtain ⟨hconnPkt, h'⟩ := of_ite_not_isError h' isError_mallocFailed
    have hwrite : STATE_SUCCESS ≤ (coreMqttWrite true (connPkt fields) env.write).1 := by
      by_contra hlt
      exact (of_ite_not_isError h' (coreMqttWrite_isError (not_le.1 hlt))).1 (not_le.1 hlt)
    have hready : env.Ready fields := ⟨hestablished, hclientid, not_not.1 hconnPkt, hwrite⟩
    refine ⟨hready, ?_⟩
    rw [← coreMqttConnect_of_established hestablished networkHandle,
      coreMqttConnect_of_ready hready] at h ⊢
    by_contra hne
    exact h (readConnack_isError hne)

theorem coreMqttConnect_success_iff (networkHandle : Option Net) (fields : ConnectFields)
    (env : ConnectEnv) :
    (coreMqttConnect networkHandle fields env).1 = STATE_MQTT_CONNECT_SUCCESS ↔
      env.Ready fields ∧
        (readConnack env.connackMallocOk env.net).1 = STATE_MQTT_CONNECT_SUCCESS := by
  constructor
  · intro h
    rcases coreMqttConnect_cases networkHandle fields env with herror | ⟨hest, -, heq⟩ | ⟨hready, -⟩
    · exact absurd h herror.2
    · have hnonneg := hest.establish
      rw [← heq, h] at hnonneg
      exact absurd hnonneg (by decide)
    · rw [coreMqttConnect_of_ready hready] at h
      exact ⟨hready, h⟩
  · rintro ⟨hready, hconnack⟩
    rwa [coreMqttConnect_of_ready hready]

/-- **With reads that wait, `aiot_mqtt_connect` returns no error just when nothing fails on the
way and the first packet of the server accepts the connection, or when the network stands and the
client id cannot be made.** -/
theorem aiotMqttConnect_noError_iff {env : ConnectEnv}
    (hwait : ∀ j, (env.net.stream.length : ℤ) ≤ env.net.outcomes j)
    (networkHandle : Option Net) (fields : ConnectFields) :
    STATE_SUCCESS ≤ (aiotMqttConnect networkHandle fields env).1 ↔
      (env.Ready fields ∧ env.connackMallocOk = true ∧
        ∃ f rest, Accepting f ∧ env.net.stream = f.text ++ rest) ∨
      (env.Established ∧ env.clientidOk = false) := by
  rw [← readConnack_success_iff hwait, ← coreMqttConnect_success_iff networkHandle]
  show STATE_SUCCESS ≤ (if (coreMqttConnect networkHandle fields env).1 =
    STATE_MQTT_CONNECT_SUCCESS then STATE_SUCCESS
      else (coreMqttConnect networkHandle fields env).1) ↔ _
  by_cases h : (coreMqttConnect networkHandle fields env).1 = STATE_MQTT_CONNECT_SUCCESS
  · simp [h]
  rw [if_neg h, or_iff_right h]
  constructor
  · intro hnonneg
    rcases coreMqttConnect_cases networkHandle fields env with herror | ⟨hest, hid, -⟩ | ⟨-, heq⟩
    · exact absurd herror.1 (not_lt.2 hnonneg)
    · exact ⟨hest, hid⟩
    · exact absurd heq h
  · rintro ⟨hest, hid⟩
    rw [coreMqttConnect_of_established hest, mqttHandshake, hid]
    exact hest.establish

/-- A server that accepts, and has sent a first byte of what follows. -/
def acceptingEnv : ConnectEnv :=
  ⟨none, true, 0, true, 0, 0, true, true, .whole, ⟨[0x20, 2, 0, 0, 0x30], fun _ => 5⟩, true⟩

theorem acceptingEnv_ready (fields : ConnectFields) : acceptingEnv.Ready fields :=
  ⟨⟨rfl, rfl, le_rfl, rfl, le_rfl, le_rfl⟩, rfl, rfl, Int.natCast_nonneg _⟩

theorem coreMqttConnect_acceptingEnv (networkHandle : Option Net) (fields : ConnectFields) :
    coreMqttConnect networkHandle fields acceptingEnv =
      (STATE_MQTT_CONNECT_SUCCESS, some ⟨[0x30], fun _ => 5⟩) := by
  rw [coreMqttConnect_of_ready (acceptingEnv_ready fields)]
  rfl

theorem aiotMqttConnect_noError_accepting :
    STATE_SUCCESS ≤ (aiotMqttConnect none ⟨[99], [117], [112], 1200, 1⟩ acceptingEnv).1 := by
  refine (aiotMqttConnect_noError_iff (fun _ => le_rfl) none _).2 (Or.inl ⟨acceptingEnv_ready _,
    rfl, .ofBody 0x20 [0, 0], [0x30], ?_, ?_⟩)
  · exact ⟨by simp [Frame.ofBody, encode_of_lt], rfl, 0, rfl⟩
  · simp [acceptingEnv, Frame.ofBody, Frame.text, encode_of_lt]

end IotIde
