import IotIde.Ide.Exclusivity

/-!
# Whom a request is taken for

A client is known by what `json_get_string` makes of its `clientId`: the string itself,
or a default when the member is no string.

* `Identifies` — parameters whose own `clientId` is the member that is read, and a value
  that is read whole;
* `clientIdOf_identifies`, `checkActiveClient_identifies` — what the handlers make of it;
* `other_identity_rejected` — against a connected client, a request under another
  identity is refused by every handler;
* `numbers_share_the_lock` — clients that identify themselves by numbers are one client.
-/

namespace IotIde

open CText JsonText

/-- No `\u` among the escapes of the string. -/
def plainEscapes : Bytes → Bool
  | [] => true
  | b :: rest =>
    if b = backslash then
      match rest with
      | [] => false
      | e :: rest' => e != 117 && plainEscapes rest'
    else plainEscapes rest

/-- The identity that goes with the value of `clientId`. -/
inductive IdentityOf : Doc .value → Bytes → Prop
  | string {s : StrLit} : 0 ∉ s.raw → plainEscapes s.raw = true →
      (decode s.raw).length < 128 → IdentityOf (.string s) (decode s.raw)
  | other {v : Doc .value} : (∀ s, v ≠ .string s) → IdentityOf v (ascii "unknown")

/-- `params` is a JSON text with a `clientId` of its own, which no earlier member hides,
and that stands for `identity`. -/
def Identifies (params identity : Bytes) : Prop :=
  ∃ (w₀ : Ws) (doc : Doc .value) (w : Ws) (pre post : List (StrLit × Doc .value)) (K : StrLit)
    (v : Doc .value), params = w₀.text ++ (doc.text ++ w.text) ∧
      doc.ownMembers = pre ++ (K, v) :: post ∧ K.raw = ascii "clientId" ∧
      (∀ m ∈ pre, namesKey (ascii "clientId") m.1 = false ∧
        ∀ m' ∈ m.2.allMembers, namesKey (ascii "clientId") m'.1 = false) ∧
      IdentityOf v identity

/-- What is read from a `clientId` that is a string, and from one that is not. -/
theorem readClientId_identifies {params identity : Bytes} (h : Identifies params identity)
    {initial : Bytes} (hinit : initial.length < 128) (hnul : 0 ∉ initial) :
    readClientId initial params = identity ∨
      identity = ascii "unknown" ∧ readClientId initial params = initial := by
  obtain ⟨w₀, doc, w, pre, post, K, v, rfl, hown, hK, hpre, hv⟩ := h
  have hlen := initBuffer_length hinit.le
  have hout : initBuffer 128 initial ≠ [] := List.ne_nil_of_length_pos (by omega)
  have hkey : SearchKey (ascii "clientId") := by decide
  have hread := jsonGetString_doc hkey w₀ doc w hout
  rw [firstNamed_of_top hown hK hpre] at hread
  unfold readClientId readField
  rw [hread]
  cases hv with
  | @string s hs _ hshort =>
    have hfits : (decode s.raw).length < (initBuffer 128 initial).length := by omega
    refine Or.inl ?_
    simp only [readString, copied, if_pos hfits]
    exact cstr_store_zero (nul_notMem_decode hs)
  | other hother =>
    have hkept : readString (some v) (initBuffer 128 initial) = ⟨-1, initBuffer 128 initial⟩ := by
      cases v with
      | string s => exact absurd rfl (hother s)
      | _ => rfl
    rw [hkept]
    exact Or.inr ⟨rfl, cstr_initBuffer hnul hinit⟩

theorem clientIdOf_identifies {params identity : Bytes} (h : Identifies params identity) :
    clientIdOf params = identity := by
  have hlen : (ascii "unknown").length < 128 := by decide
  have hnul : 0 ∉ ascii "unknown" := by decide
  rcases readClientId_identifies h hlen hnul with heq | ⟨hid, heq⟩
  · exact heq
  · exact heq.trans hid.symm

/-- The guard of deploy and start takes a `clientId` that is no string for none at all. -/
theorem checkActiveClient_identifies {params identity : Bytes} (h : Identifies params identity)
    {manager : IdeConnectionManager} (hne : manager.currentClientId ≠ identity) :
    checkActiveClient manager params = false := by
  unfold checkActiveClient isConnectedClient
  have hlen : ([] : Bytes).length < 128 := by decide
  have hnul : (0 : UInt8) ∉ [] := by simp
  rcases readClientId_identifies h hlen hnul with heq | ⟨-, heq⟩
  · rw [heq]
    simp [hne]
  · rw [heq]
    rfl

/-- **Clients under different identities never share the lock.**  Once a client is
connected on a free device, every request that identifies another one is refused until
the heartbeat times out, and changes nothing; heartbeat, disconnect, deploy and start are
refused at any time. -/
theorem other_identity_rejected {p q i j : Bytes} (hp : Identifies p i) (hq : Identifies q j)
    (hne : i ≠ j) {free : IdeConnectionManager} (hfree : free.connected = false) {t₀ t : ℕ}
    (ht : (t : ℤ) - t₀ ≤ HEARTBEAT_TIMEOUT_MS) :
    let m := (ideStep free (.requestConnect p t₀)).1
    (ideStep free (.requestConnect p t₀)).2 = true ∧
    ideStep m (.requestConnect q t) = (m, false) ∧
    ideStep m (.ideHeartbeat q t) = (m, false) ∧
    ideStep m (.requestDisconnect q) = (m, false) ∧
    checkActiveClient m q = false := by
  intro m
  have hid : m = ⟨true, i, snprintf 512 (clientInfoOf p), t₀⟩ := by
    have hi := clientIdOf_identifies hp
    have hlen := clientIdOf_length_lt p
    rw [hi] at hlen
    simp only [m, ideStep, requestConnectLocked, if_pos hfree, hi, snprintf_of_lt hlen]
  have hj := clientIdOf_identifies hq
  rw [hid]
  refine ⟨?_, ?_, ?_, ?_, ?_⟩
  · simp only [ideStep, requestConnectLocked, if_pos hfree]
  · simp only [ideStep, requestConnectLocked, hj, if_neg hne, Bool.true_eq_false, if_false]
    rw [if_neg (by omega)]
  · simp only [ideStep, heartbeatLocked, hj]
    rw [if_pos (Or.inr hne)]
  · simp only [ideStep, disconnectLocked, hj, Bool.true_eq_false, if_false]
    rw [if_pos hne]
  · exact checkActiveClient_identifies hq hne

/-- `{"clientId":n}` -/
def numberedClient (n : ℤ) : Doc .value :=
  .object (.member (keyName "clientId") (.scalar (decimalScalar n)) .none)

/-- `{"clientId":"name"}` -/
def namedClient (name : Bytes) : Doc .value :=
  .object (.member (keyName "clientId") (.string (escapedLit name)) .none)

theorem numberedClient_identifies (n : ℤ) :
    Identifies (numberedClient n).text (ascii "unknown") :=
  ⟨.none, numberedClient n, .none, [], [], _, _, by simp [Ws.none], rfl, rfl, by simp,
    .other fun _ h => by cases h⟩

theorem other_identity_rejected_named :
    let m := (ideStep .init (.requestConnect (namedClient (ascii "a")).text 0)).1
    ideStep m (.requestConnect (numberedClient 1).text 5) = (m, false) := by
  have ha : Identifies (namedClient (ascii "a")).text (ascii "a") :=
    ⟨.none, namedClient (ascii "a"), .none, [], [], _, _, by simp [Ws.none], rfl, rfl, by simp,
      .string (by decide) (by decide) (by decide)⟩
  exact (other_identity_rejected ha (numberedClient_identifies 1) (by decide) rfl
    (by decide)).2.1

/-- Two clients with the numbers `1` and `2` for ids: the second takes part in the
connection of the first, keeps it alive, and ends it. -/
theorem numbers_share_the_lock :
    (numberedClient 1).legal = true ∧ (numberedClient 2).legal = true ∧
    (numberedClient 1).ownMembers.map (fun m => (m.1.raw, m.2.text)) =
      [(ascii "clientId", ascii "1")] ∧
    (numberedClient 2).ownMembers.map (fun m => (m.1.raw, m.2.text)) =
      [(ascii "clientId", ascii "2")] ∧
    let m := (ideStep .init (.requestConnect (numberedClient 1).text 0)).1
    m.connected = true ∧
    (ideStep m (.requestConnect (numberedClient 2).text 1)).2 = true ∧
    (ideStep m (.ideHeartbeat (numberedClient 2).text 1)).2 = true ∧
    (ideStep m (.requestDisconnect (numberedClient 2).text)).2 = true := by
  refine ⟨by decide +kernel, by decide +kernel, by decide +kernel, by decide +kernel, ?_⟩
  have h₁ := clientIdOf_identifies (numberedClient_identifies 1)
  have h₂ := clientIdOf_identifies (numberedClient_identifies 2)
  simp only [ideStep, requestConnectLocked, heartbeatLocked, disconnectLocked, h₁, h₂,
    IdeConnectionManager.init, if_true]
  decide

end IotIde
