import IotIde.Ide.ConnectionManager
import IotIde.Json.Literals

/-!
# What the cloud reads

The full-state property as its receiver reads it: whether an IDE is connected, and which
one.

* `hasIdeConnected`, `ideInfoClientId` — the two readings of a posted text;
* `Shows` — a posted text shows a given connection;
* `ideReportFullState_eq` — with its allocations granted, a report is posted as a whole:
  nothing is cut off by its fixed arrays;
* `ideReportFullState_shows` — it shows the connection it was made for;
* `full_state_complete` — the bounds, and the two readings, for every client and clock.
-/

namespace IotIde

open CText JsonText

/-- The value of `hasIDEConnected`, if the text has one. -/
def hasIdeConnected (post : Bytes) : Option Bytes :=
  Extract.value? (jsonGetRawValue post (ascii "hasIDEConnected")) 4096

/-- The `clientId` inside the `IDEInfo` of the text. -/
def ideInfoClientId (post : Bytes) : Option Bytes :=
  (Extract.value? (jsonGetString post (ascii "IDEInfo")) 4096).bind fun ideInfo =>
    Extract.value? (jsonGetString ideInfo (ascii "clientId")) 4096

/-- The text shows `connected`, and with a connection also its client. -/
def Shows (post : Bytes) (connected : Bool) (clientId : Bytes) : Prop :=
  hasIdeConnected post = some (if connected then ascii "1" else ascii "0") ∧
    (connected = true → ideInfoClientId post = some clientId)

/-! ## The posted texts as parse trees -/

def disconnectedDoc : Doc .value :=
  .object (.moreMembers (keyName "hasIDEConnected") (.scalar (decimalScalar 0)) .none
    (.moreMembers (keyName "IDEInfo") (.string (escapedLit [])) .none
      (.member (keyName "IDEHeartbeat") (.string (escapedLit (ascii "0"))) .none)))

def connectedDoc (ideInfo : Bytes) (heartbeatMs : ℤ) : Doc .value :=
  .object (.moreMembers (keyName "hasIDEConnected") (.scalar (decimalScalar 1)) .none
    (.moreMembers (keyName "IDEInfo") (.string (escapedLit ideInfo)) .none
      (.member (keyName "IDEHeartbeat") (.string (escapedLit (decimal heartbeatMs))) .none)))

def heartbeatDoc (heartbeatMs : ℤ) : Doc .value :=
  .object (.member (keyName "IDEHeartbeat") (.string (escapedLit (decimal heartbeatMs))) .none)

theorem disconnectedDoc_text : disconnectedDoc.text = disconnectedParams := by
  decide +kernel

theorem connectedDoc_text (ideInfo : Bytes) (heartbeatMs : ℤ) :
    (connectedDoc ideInfo heartbeatMs).text = connectedParams (escape ideInfo) heartbeatMs := by
  simp only [connectedDoc, Doc.text, StrLit.text, escapedLit, List.append_assoc,
    List.cons_append, List.nil_append, Ws.none, keyName, Name.text, Name.bare, escape_decimal]
  rfl

theorem heartbeatDoc_text (heartbeatMs : ℤ) : (heartbeatDoc heartbeatMs).text =
    ascii "\x7b\"IDEHeartbeat\":\"" ++ (decimal heartbeatMs ++ ascii "\"\x7d") := by
  simp only [heartbeatDoc, Doc.text, StrLit.text, escapedLit, List.append_assoc,
    List.cons_append, List.nil_append, Ws.none, keyName, Name.text, Name.bare, escape_decimal]
  rfl

/-! ## What they show -/

theorem shows_disconnected : Shows disconnectedParams false [] := by
  refine ⟨?_, fun h => by cases h⟩
  have hkey : SearchKey (ascii "hasIDEConnected") := by decide
  have hfound : firstNamed (ascii "hasIDEConnected") disconnectedDoc.allMembers =
      some (.scalar (decimalScalar 0)) := rfl
  have hread := jsonGetRawValue_doc hkey .none disconnectedDoc .none
    (replicate_ne_nil (show 0 < 4096 by norm_num))
  rw [← doc_text_eq, disconnectedDoc_text, hfound] at hread
  exact value?_copiedWhole (by decide) (by decide) hread

theorem hasIdeConnected_connected (ideInfo : Bytes) (heartbeatMs : ℤ) :
    hasIdeConnected (connectedParams (escape ideInfo) heartbeatMs) = some (ascii "1") := by
  have hkey : SearchKey (ascii "hasIDEConnected") := by decide
  have hfound : firstNamed (ascii "hasIDEConnected") (connectedDoc ideInfo heartbeatMs).allMembers =
      some (.scalar (decimalScalar 1)) := rfl
  have hread := jsonGetRawValue_doc hkey .none (connectedDoc ideInfo heartbeatMs) .none
    (replicate_ne_nil (show 0 < 4096 by norm_num))
  rw [← doc_text_eq, connectedDoc_text, hfound] at hread
  exact value?_copiedWhole (by decide) (by decide) hread

/-- The `IDEInfo` of a posted text, into any array that has room for it. -/
theorem ideInfo_yields {ideInfo out : Bytes} (hnul : 0 ∉ ideInfo)
    (hlen : ideInfo.length < out.length) (heartbeatMs : ℤ) :
    (jsonGetString (connectedParams (escape ideInfo) heartbeatMs) (ascii "IDEInfo") out).Yields
      ideInfo := by
  have hkey : SearchKey (ascii "IDEInfo") := by decide
  have hfound : firstNamed (ascii "IDEInfo") (connectedDoc ideInfo heartbeatMs).allMembers =
      some (.string (escapedLit ideInfo)) := rfl
  have hout : out ≠ [] := List.ne_nil_of_length_pos (Nat.zero_lt_of_lt hlen)
  have hread := jsonGetString_doc hkey .none (connectedDoc ideInfo heartbeatMs) .none hout
  rw [← doc_text_eq, connectedDoc_text, hfound, readString, escapedLit, decode_escape] at hread
  rw [hread]
  exact copied_yields hnul hlen

/-- The `clientId` of an `ide_info`, into any array that has room for it. -/
theorem clientId_yields {clientId out : Bytes} (hnul : 0 ∉ clientId)
    (hlen : clientId.length < out.length) (quotes clientInfo : Bytes) (heartbeatMs : ℤ) :
    (jsonGetString (ideInfoText (escape clientId) quotes clientInfo heartbeatMs)
      (ascii "clientId") out).Yields clientId := by
  have hkey : SearchKey (ascii "clientId") := by decide
  have hbefore : quote ∉ [lbrace] := by decide
  have hout : out ≠ [] := List.ne_nil_of_length_pos (Nat.zero_lt_of_lt hlen)
  have hread := jsonGetString_first hkey hbefore (escapedLit clientId)
    (ascii ",\"clientInfo\":" ++ (quotes ++ (clientInfo ++ (quotes ++
      (ascii ",\"connectTime\":" ++ (decimal heartbeatMs ++ ascii "\x7d")))))) hout
  have htext : [lbrace] ++ quote :: (ascii "clientId" ++ quote :: colon ::
      ((escapedLit clientId).text ++ (ascii ",\"clientInfo\":" ++ (quotes ++ (clientInfo ++
        (quotes ++ (ascii ",\"connectTime\":" ++ (decimal heartbeatMs ++ ascii "\x7d")))))))) =
      ideInfoText (escape clientId) quotes clientInfo heartbeatMs := by
    simp only [ideInfoText, StrLit.text, escapedLit, List.append_assoc, List.cons_append,
      List.nil_append]
    rfl
  rw [htext, escapedLit, decode_escape] at hread
  rw [hread]
  exact copied_yields hnul hlen

/-- A heartbeat report says nothing about the connection. -/
theorem hasIdeConnected_heartbeat {heartbeatMs : ℕ} (h : heartbeatMs < 2 ^ 63) :
    hasIdeConnected (ideReportHeartbeat heartbeatMs) = none := by
  have hkey : SearchKey (ascii "hasIDEConnected") := by decide
  have hlen := decimal_length_le h
  have hfits : (ascii "\x7b\"IDEHeartbeat\":\"" ++ (decimal heartbeatMs ++ ascii "\"\x7d")).length <
      256 := by
    have h₁ : (ascii "\x7b\"IDEHeartbeat\":\"").length = 17 := rfl
    have h₂ : (ascii "\"\x7d").length = 2 := rfl
    rw [List.length_append, List.length_append, h₁, h₂]
    omega
  have hfound : firstNamed (ascii "hasIDEConnected") (heartbeatDoc heartbeatMs).allMembers = none :=
    rfl
  have hread := jsonGetRawValue_doc hkey .none (heartbeatDoc heartbeatMs) .none
    (replicate_ne_nil (show 0 < 4096 by norm_num))
  rw [← doc_text_eq, heartbeatDoc_text, hfound] at hread
  rw [ideReportHeartbeat, snprintf_of_lt hfits]
  exact value?_failed hread

/-! ## Nothing is cut off -/

/-- The text of `ide_info`: a client info that starts like an object or an array is put in as
it is, and any other as a string. -/
def ideInfoOf (clientId clientInfo : Bytes) (heartbeatMs : ℤ) : Bytes :=
  if clientInfo.head? = some lbrace ∨ clientInfo.head? = some lbracket then
    ideInfoText (escape clientId) [] clientInfo heartbeatMs
  else ideInfoText (escape clientId) [quote] (escape clientInfo) heartbeatMs

section Connected

variable {clientId clientInfo : Bytes} (hid : 0 ∉ clientId) (hidlen : clientId.length ≤ 127)
  (hinfo : 0 ∉ clientInfo) (hinfolen : clientInfo.length ≤ 511)
  {heartbeatMs : ℤ} (hms : (decimal heartbeatMs).length ≤ 20)

include hid hinfo in
theorem nul_notMem_ideInfoOf : 0 ∉ ideInfoOf clientId clientInfo heartbeatMs := by
  have hfields : ∀ {quotes info : Bytes}, 0 ∉ quotes → 0 ∉ info →
      0 ∉ ideInfoText (escape clientId) quotes info heartbeatMs := by
    intro quotes info hquotes hinfo
    simp only [ideInfoText, List.mem_append, not_or]
    exact ⟨by decide, nul_notMem_escape hid, by decide, hquotes, hinfo, hquotes, by decide,
      nul_notMem_decimal _, by decide⟩
  unfold ideInfoOf
  split_ifs
  · exact hfields List.not_mem_nil hinfo
  · exact hfields (by decide) (nul_notMem_escape hinfo)

include hidlen hinfolen hms in
/-- Whatever mixture of bytes has to be escaped, `ide_info` has 2048 bytes and this needs fewer
than 1400. -/
theorem ideInfoOf_length_lt : (ideInfoOf clientId clientInfo heartbeatMs).length < 1400 := by
  have hid := escape_length_le clientId
  have hinfo := escape_length_le clientInfo
  have h₁ : (ascii "\x7b\"clientId\":\"").length = 13 := rfl
  have h₂ : (ascii "\",\"clientInfo\":").length = 15 := rfl
  have h₃ : (ascii ",\"connectTime\":").length = 15 := rfl
  have h₄ : (ascii "\x7d").length = 1 := rfl
  unfold ideInfoOf
  split_ifs
  · simp only [ideInfoText, List.length_append, List.length_nil, h₁, h₂, h₃, h₄]
    omega
  · simp only [ideInfoText, List.length_append, List.length_singleton, h₁, h₂, h₃, h₄]
    omega

include hidlen hinfolen hms in
/-- Escaped a second time, it leaves room in the 4096 bytes of `params`. -/
theorem connectedParams_length_lt :
    (connectedParams (escape (ideInfoOf clientId clientInfo heartbeatMs)) heartbeatMs).length <
      4096 := by
  have hinfo := ideInfoOf_length_lt hidlen hinfolen hms
  have hesc := escape_length_le (ideInfoOf clientId clientInfo heartbeatMs)
  have h₁ : (ascii "\x7b\"hasIDEConnected\":1,\"IDEInfo\":\"").length = 32 := rfl
  have h₂ : (ascii "\",\"IDEHeartbeat\":\"").length = 18 := rfl
  have h₃ : (ascii "\"\x7d").length = 2 := rfl
  simp only [connectedParams, List.length_append, h₁, h₂, h₃]
  omega

/-- The second half of the report, on an `ide_info` that fits. -/
theorem postIdeInfo_eq {ideInfo : Bytes} (hnul : 0 ∉ ideInfo) (hlen : ideInfo.length < 2048)
    (hpost : (connectedParams (escape ideInfo) heartbeatMs).length < 4096) :
    postIdeInfo true ideInfo heartbeatMs = some (connectedParams (escape ideInfo) heartbeatMs) := by
  rw [postIdeInfo, snprintf_of_lt hlen, escapeAlloc_eq hnul]
  simp only [if_true]
  rw [snprintf_of_lt hpost]

include hid hidlen hinfo hinfolen hms

theorem ideReportFullState_eq {alloc : ℕ → Bool} (halloc : ∀ i < 3, alloc i = true) :
    ideReportFullState alloc true clientId clientInfo heartbeatMs =
      some (connectedParams (escape (ideInfoOf clientId clientInfo heartbeatMs)) heartbeatMs) := by
  have hlen := ideInfoOf_length_lt hidlen hinfolen hms
  have hwhole := postIdeInfo_eq (nul_notMem_ideInfoOf hid hinfo) (by omega)
    (connectedParams_length_lt hidlen hinfolen hms)
  unfold ideInfoOf at hwhole ⊢
  simp only [ideReportFullState, Bool.true_eq_false, if_false, escapeAlloc_eq hid,
    escapeAlloc_eq hinfo, halloc 0 (by omega), halloc 1 (by omega), halloc 2 (by omega), if_true]
  split_ifs at hwhole ⊢
  · exact hwhole
  · exact hwhole

/-- The posted text shows the client. -/
theorem connected_shows : Shows
    (connectedParams (escape (ideInfoOf clientId clientInfo heartbeatMs)) heartbeatMs) true
    clientId := by
  refine ⟨hasIdeConnected_connected _ _, fun _ => ?_⟩
  have hlen := ideInfoOf_length_lt hidlen hinfolen hms
  have hread := value?_of_yields (ideInfo_yields (nul_notMem_ideInfoOf hid hinfo)
    (show (ideInfoOf clientId clientInfo heartbeatMs).length < (List.replicate 4096 0).length by
      rw [List.length_replicate]; omega) heartbeatMs)
  have hroom : clientId.length < (List.replicate 4096 (0 : UInt8)).length := by
    rw [List.length_replicate]
    omega
  rw [ideInfoClientId, hread, Option.bind_some]
  unfold ideInfoOf
  split_ifs
  · exact value?_of_yields (clientId_yields hid hroom _ _ _)
  · exact value?_of_yields (clientId_yields hid hroom _ _ _)

end Connected

/-- **A full-state report shows what it was made for**, for every client id and info the
handlers can pass it, if its allocations succeed. -/
theorem ideReportFullState_shows {alloc : ℕ → Bool} (halloc : ∀ i < 3, alloc i = true)
    (connected : Bool) {clientId clientInfo : Bytes} (hid : 0 ∉ clientId)
    (hidlen : clientId.length < 128) (hinfo : 0 ∉ clientInfo) (hinfolen : clientInfo.length < 512)
    {heartbeatMs : ℤ} (hms : (decimal heartbeatMs).length ≤ 20) :
    ∃ post, ideReportFullState alloc connected clientId clientInfo heartbeatMs = some post ∧
      Shows post connected clientId := by
  cases connected with
  | false => exact ⟨_, rfl, shows_disconnected.1, fun hc => by cases hc⟩
  | true =>
    have hid' : clientId.length ≤ 127 := Nat.le_of_lt_succ hidlen
    have hinfo' : clientInfo.length ≤ 511 := Nat.le_of_lt_succ hinfolen
    exact ⟨_, ideReportFullState_eq hid hid' hinfo hinfo' hms halloc,
      connected_shows hid hid' hinfo hinfo' hms⟩

/-- **The reported state is complete and names the holder of the lock**, whatever bytes are in
the client's id and info, whichever of the two ways the info is put in, and for every value of
the clock. -/
theorem full_state_complete {clientId clientInfo : Bytes} (hid : 0 ∉ clientId)
    (hidlen : clientId.length ≤ 127) (hinfo : 0 ∉ clientInfo) (hinfolen : clientInfo.length ≤ 511)
    {heartbeatMs : ℤ} (hlo : -2 ^ 63 ≤ heartbeatMs) (hhi : heartbeatMs < 2 ^ 63)
    {alloc : ℕ → Bool} (halloc : ∀ i < 3, alloc i = true) :
    let ideInfo := ideInfoOf clientId clientInfo heartbeatMs
    let post := connectedParams (escape ideInfo) heartbeatMs
    ideInfo.length < 2048 ∧ post.length < 4096 ∧
    ideReportFullState alloc true clientId clientInfo heartbeatMs = some post ∧
    ∀ out out' : Bytes, ideInfo.length < out.length → clientId.length < out'.length →
      (jsonGetString post (ascii "IDEInfo") out).Yields ideInfo ∧
      (jsonGetString (cstr (jsonGetString post (ascii "IDEInfo") out).out) (ascii "clientId")
        out').Yields clientId := by
  intro ideInfo post
  have hms := decimal_long_length_le hlo hhi
  have hlen := ideInfoOf_length_lt hidlen hinfolen hms
  refine ⟨hlen.trans (by norm_num), connectedParams_length_lt hidlen hinfolen hms,
    ideReportFullState_eq hid hidlen hinfo hinfolen hms halloc, ?_⟩
  intro out out' hout hout'
  have hread := ideInfo_yields (nul_notMem_ideInfoOf hid hinfo) hout heartbeatMs
  refine ⟨hread, ?_⟩
  rw [hread.2]
  -- the client id is read in both branches, whatever stands behind it
  unfold ideInfoOf
  split_ifs
  · exact clientId_yields hid hout' _ _ _
  · exact clientId_yields hid hout' _ _ _

/-- An id of nothing but quotes, and an info of nothing but backslashes. -/
theorem full_state_complete_quotes :
    let clientId := List.replicate 127 quote
    let clientInfo := List.replicate 511 backslash
    let ideInfo := ideInfoOf clientId clientInfo (-2 ^ 63)
    let post := connectedParams (escape ideInfo) (-2 ^ 63)
    ideInfo.length < 2048 ∧ post.length < 4096 ∧
    ideReportFullState (fun _ => true) true clientId clientInfo (-2 ^ 63) = some post ∧
    ∀ out out' : Bytes, ideInfo.length < out.length → clientId.length < out'.length →
      (jsonGetString post (ascii "IDEInfo") out).Yields ideInfo ∧
      (jsonGetString (cstr (jsonGetString post (ascii "IDEInfo") out).out) (ascii "clientId")
        out').Yields clientId :=
  full_state_complete (fun h => absurd (List.eq_of_mem_replicate h) (by decide))
    (List.length_replicate.le) (fun h => absurd (List.eq_of_mem_replicate h) (by decide))
    (List.length_replicate.le) (le_refl _) (by norm_num) (fun _ _ => rfl)

end IotIde
