import IotIde.Ide.Identity
import IotIde.Json.Defaults
import IotIde.Json.Fields

/-!
# The client that may connect, and the client that may work

Connect, disconnect and heartbeat read the client id over the default `unknown`, and the
check before deploy and start reads it over no text at all, which it then refuses.

* `foundClientId`, `ownClientId` — the client id that the search finds in a request, and the
  one that the request has itself;
* `readClientId_doc` — what each handler reads;
* `checkActiveClient_accepted` — what passes the check after an accepted connect;
* `may_work_iff` — when the five handlers take two requests for the same client.
-/

namespace IotIde

open CText JsonText

/-- The key of the client id. -/
abbrev clientIdKey : Bytes := ascii "clientId"

/-- A text that may be put into `char client_id[128]` as its default. -/
structure ClientDefault (initial : Bytes) : Prop where
  fits : initial.length < 128
  nul_notMem : 0 ∉ initial

theorem clientDefault_unknown : ClientDefault (ascii "unknown") := ⟨by decide, by decide⟩

theorem clientDefault_nil : ClientDefault [] := ⟨by decide, by decide⟩

/-- The member that the search takes for the client id: the first one, at any depth. -/
def foundClientId (v : Doc .value) : Option (Doc .value) := firstNamed clientIdKey v.allMembers

/-- The client id that the object has itself. -/
def ownClientId (v : Doc .value) : Option (Doc .value) := ownValue clientIdKey v

/-- The text of a string as the getters decode it, or the default. -/
def clientIdText (initial : Bytes) : Option (Doc .value) → Bytes
  | some (.string s) => decode s.raw
  | _ => initial

section Requests

variable {p q : Doc .value} (hp : p.legal = true) (hq : q.legal = true) (w₀ w u₀ u : Ws)

include hp in
/-- What a handler reads for the client id: the string found, cut to its array, or the
default. -/
theorem readClientId_doc {initial : Bytes} (hinitial : ClientDefault initial) :
    readClientId initial (w₀.text ++ (p.text ++ w.text)) =
      (clientIdText initial (foundClientId p)).take 127 := by
  have hkey : SearchKey clientIdKey := by decide
  have hbuffer : (initBuffer 128 initial).length = 128 := initBuffer_length hinitial.fits.le
  have hdefault : cstr (initBuffer 128 initial) = initial.take 127 := by
    rw [cstr_initBuffer hinitial.nul_notMem hinitial.fits,
      List.take_of_length_le (Nat.le_of_lt_succ hinitial.fits)]
  rw [readClientId, readField,
    jsonGetString_doc hkey w₀ p w (List.ne_nil_of_length_pos (by omega)), foundClientId]
  cases hfound : firstNamed clientIdKey p.allMembers with
  | none => exact hdefault
  | some v =>
    cases v with
    | string s =>
      have hraw : 0 ∉ s.raw := fun h => nul_notMem_text p hp
        (mem_text_of_firstNamed hfound (by simp [Doc.text, StrLit.text, h]))
      exact cstr_copied (nul_notMem_decode hraw) hinitial.fits
    | scalar | emptyArray | array | emptyObject | object => exact hdefault

/-- After an accepted connect of a client, the check before deploy and start lets that client
pass unless its identity is empty. -/
theorem checkActiveClient_accepted {manager : IdeConnectionManager} {p : Bytes} {nowMs : ℕ}
    (haccepted : (ideStep manager (.requestConnect p nowMs)).2 = true) (q : Bytes) :
    checkActiveClient (ideStep manager (.requestConnect p nowMs)).1 q = true ↔
      readClientId [] q ≠ [] ∧ readClientId [] q = clientIdOf p := by
  have hconnected := requestConnectLocked_accepted (clientIdOf_length_lt p) haccepted
  have hmanager : (ideStep manager (.requestConnect p nowMs)).1 =
      ⟨true, clientIdOf p, snprintf 512 (clientInfoOf p), nowMs⟩ := hconnected
  rw [hmanager, checkActiveClient, isConnectedClient]
  simp only [Bool.and_eq_true, bne_iff_ne, ne_eq, beq_iff_eq, and_true, eq_comm (a := clientIdOf p)]

/-- A string that is not empty is not decoded to nothing. -/
theorem decode_ne_nil (s : StrLit) (h : s.raw ≠ []) : decode s.raw ≠ [] := by
  refine wellEscaped_induction (P := fun raw => raw ≠ [] → decode raw ≠ [])
    (fun h => absurd rfl h) ?_ ?_ s.raw s.escaped h
  · intro b rest _ hb _ _ _
    rw [decode_plain hb]
    exact List.cons_ne_nil _ _
  · intro b rest _ _ _
    rw [decode_escaped]
    exact List.cons_ne_nil _ _

/-- The later request is found to carry a string that is not empty and, as far as the array
goes, the identity that the connect request is found to carry. -/
def FoundAlike (p q : Doc .value) : Prop :=
  ∃ s, foundClientId q = some (.string s) ∧ s.raw ≠ [] ∧
    (decode s.raw).take 127 = (clientIdText (ascii "unknown") (foundClientId p)).take 127

/-- The check before deploy and start lets the later request pass, and all five handlers take
the two requests for the same client. -/
def TakenAlike (manager : IdeConnectionManager) (connect later : Bytes) (nowMs : ℕ) : Prop :=
  checkActiveClient (ideStep manager (.requestConnect connect nowMs)).1 later = true ∧
    readClientId [] later = clientIdOf connect ∧ clientIdOf later = clientIdOf connect

include hp hq

theorem takenAlike_iff {manager : IdeConnectionManager} {nowMs : ℕ} (haccepted :
      (ideStep manager (.requestConnect (w₀.text ++ (p.text ++ w.text)) nowMs)).2 = true) :
    TakenAlike manager (w₀.text ++ (p.text ++ w.text)) (u₀.text ++ (q.text ++ u.text)) nowMs ↔
      FoundAlike p q := by
  rw [TakenAlike, checkActiveClient_accepted haccepted, clientIdOf, clientIdOf,
    readClientId_doc hp w₀ w clientDefault_unknown, readClientId_doc hq u₀ u clientDefault_unknown,
    readClientId_doc hq u₀ u clientDefault_nil]
  constructor
  · rintro ⟨⟨hne, hsame⟩, -, -⟩
    cases hfound : foundClientId q with
    | none =>
      rw [hfound] at hne
      exact absurd rfl hne
    | some v =>
      rw [hfound] at hne hsame
      cases v with
      | string s =>
        refine ⟨s, hfound, fun hraw => hne ?_, hsame⟩
        rw [clientIdText, hraw]
        rfl
      | scalar | emptyArray | array | emptyObject | object => exact absurd rfl hne
  · rintro ⟨s, hfound, hraw, hsame⟩
    have hdecoded : (decode s.raw).take 127 ≠ [] := by
      rw [ne_eq, List.take_eq_nil_iff, or_iff_right (by omega)]
      exact decode_ne_nil s hraw
    rw [hfound]
    exact ⟨⟨hdecoded, hsame⟩, hsame, hsame⟩

/-- **When the client that connected may work.**  After an accepted connect request, a deploy
or start request passes the check, and all five handlers take the two requests for the same
client, exactly when what is found for the client id of the later one is a string that is not
empty and agrees with what is found for the first.  For two requests that carry the same
client id themselves, and in which no other member is found in its place, that is: it is a
string that is not empty. -/
theorem may_work_iff {manager : IdeConnectionManager} {nowMs : ℕ} (haccepted :
      (ideStep manager (.requestConnect (w₀.text ++ (p.text ++ w.text)) nowMs)).2 = true) :
    (TakenAlike manager (w₀.text ++ (p.text ++ w.text)) (u₀.text ++ (q.text ++ u.text)) nowMs ↔
      FoundAlike p q) ∧
    (ownClientId p = ownClientId q → foundClientId p = ownClientId p →
      foundClientId q = ownClientId q →
      (FoundAlike p q ↔ ∃ s, ownClientId q = some (.string s) ∧ s.raw ≠ [])) := by
  refine ⟨takenAlike_iff hp hq w₀ w u₀ u haccepted, fun hsame hfoundp hfoundq => ?_⟩
  rw [FoundAlike, hfoundp, hfoundq, hsame]
  constructor
  · rintro ⟨s, hs, hne, -⟩
    exact ⟨s, hs, hne⟩
  · rintro ⟨s, hs, hne⟩
    exact ⟨s, hs, hne, by rw [hs, clientIdText]⟩

end Requests

theorem may_work_named :
    TakenAlike .init (Ws.none.text ++ ((namedClient (ascii "a")).text ++ Ws.none.text))
      (Ws.none.text ++ ((namedClient (ascii "a")).text ++ Ws.none.text)) 0 :=
  ((may_work_iff (p := namedClient (ascii "a")) (q := namedClient (ascii "a")) (by decide +kernel)
    (by decide +kernel) .none .none .none .none rfl).1).2
    ⟨escapedLit (ascii "a"), rfl, by decide, rfl⟩

/-- The same parameters are accepted by connect and heartbeat, and refused by the check. -/
def ConnectedButRefused (p : Bytes) : Prop :=
  (ideStep .init (.requestConnect p 0)).2 = true ∧
    (ideStep (ideStep .init (.requestConnect p 0)).1 (.ideHeartbeat p 1)).2 = true ∧
    checkActiveClient (ideStep .init (.requestConnect p 0)).1 p = false

/-- Without a client id, with an empty one and with a number for one; and a client of the same
id that has another one inside an earlier member. -/
theorem same_client_refused :
    ConnectedButRefused (ascii "\x7b\x7d") ∧
    ConnectedButRefused (ascii "\x7b\"clientId\":\"\"\x7d") ∧
    ConnectedButRefused (ascii "\x7b\"clientId\":7\x7d") ∧
    let p := ascii "\x7b\"clientId\":\"A\"\x7d"
    let q := ascii "\x7b\"clientInfo\":\x7b\"clientId\":\"B\"\x7d,\"clientId\":\"A\"\x7d"
    (ideStep .init (.requestConnect p 0)).2 = true ∧
    checkActiveClient (ideStep .init (.requestConnect p 0)).1 q = false := by
  unfold ConnectedButRefused
  decide +kernel

end IotIde
