import IotIde.Gateway.Disabled

/-!
# What a topo get reply leaves

The reply lists the sub-devices that the cloud has under the gateway.  The handler clears
all flags, sets those of the devices that it reads from the list, and then asks for a login
or a topo add of each device.

* `TopoGetReply`, `TopoGetReply.listed` — a successful reply, and the devices that it lists;
* `TopoGetReply.CodeSeen`, `TopoGetReply.Sees` — what the getters see of it;
* `Synchronised` — the table and the requests are those of the list;
* `subDevices_visitItems` — the table after the loop, place by place;
* `synchronised_iff` — when they are.
-/

namespace IotIde

open CText JsonText

/-! ## Replies -/

/-- Both names have 1 to 127 bytes. -/
def SizedNames (key : Bytes × Bytes) : Prop :=
  (1 ≤ key.1.length ∧ key.1.length ≤ 127) ∧ 1 ≤ key.2.length ∧ key.2.length ≤ 127

instance (key : Bytes × Bytes) : Decidable (SizedNames key) :=
  inferInstanceAs (Decidable (_ ∧ _))

/-- A well-formed reply to `thing.topo.get` with the code 200 and a list of devices. -/
structure TopoGetReply where
  doc : Doc .value
  code : Scalar
  data : Doc .value
  legal : doc.legal = true
  ownCode : ownValue (ascii "code") doc = some (.scalar code)
  code_text : code.text = ascii "200"
  ownData : ownValue (ascii "data") doc = some data
  isArray : isArray data = true
  named : ∀ item ∈ data.elements, ∃ key ∈ itemDevice item, SizedNames key

namespace TopoGetReply

variable (reply : TopoGetReply)

/-- The devices that the reply lists. -/
def listed : List (Bytes × Bytes) := reply.data.elements.filterMap itemDevice

/-- The code that the search finds first, at whatever depth, is 200. -/
def CodeSeen : Prop :=
  ∃ u, firstNamed (ascii "code") reply.doc.allMembers = some u ∧ (rawText u).length < 64 ∧
    atoi (rawText u) = 200

/-- The array that the search finds first, at whatever depth, fits `char data_array[4096]`,
and one of its items is read as the device. -/
def Sees (key : Bytes × Bytes) : Prop :=
  ∃ array, firstNamed (ascii "data") reply.doc.allMembers = some array ∧
    IotIde.isArray array = true ∧ array.text.length < 4096 ∧
    ∃ item ∈ array.elements, ReadAs item key

end TopoGetReply

/-! ## Reading the reply -/

namespace TopoGetReply

variable (reply : TopoGetReply) (w₀ w : Ws)

theorem nul_notMem : 0 ∉ reply.doc.text := nul_notMem_text reply.doc reply.legal

theorem replyOk_iff :
    replyOk (w₀.text ++ (reply.doc.text ++ w.text)) = true ↔ reply.CodeSeen := by
  rw [replyOk, value?_jsonGetRawValue (by decide) w₀ w reply.nul_notMem (by decide), CodeSeen]
  cases firstNamed (ascii "code") reply.doc.allMembers with
  | none => simp
  | some u =>
    simp only [Option.bind_some, Option.some.injEq, exists_eq_left']
    by_cases hfits : (rawText u).length < 64
    · simp [hfits]
    · simp [hfits]

theorem mem_devicesIn (key : Bytes × Bytes) :
    key ∈ devicesIn (w₀.text ++ (reply.doc.text ++ w.text)) (ascii "data") ↔ reply.Sees key := by
  rw [devicesIn, value?_jsonGetArray (by decide) w₀ w reply.nul_notMem (by decide), Sees]
  cases hfound : firstNamed (ascii "data") reply.doc.allMembers with
  | none => simp [foundCompound]
  | some array =>
    have hnul : 0 ∉ array.text := fun h => reply.nul_notMem (mem_text_of_firstNamed hfound h)
    simp only [foundCompound, Option.bind_some, Option.some.injEq, exists_eq_left']
    by_cases hboth : IotIde.isArray array = true ∧ array.text.length < 4096
    · rw [if_pos hboth, Option.map_some, Option.getD_some, mem_readItems hboth.1 hnul
          (hboth.2.trans (by decide)), and_iff_right hboth.1, and_iff_right hboth.2]
    · rw [if_neg hboth]
      exact iff_of_false List.not_mem_nil fun h => hboth ⟨h.1, h.2.1⟩

end TopoGetReply

/-! ## The table and the requests -/

/-- What is asked for a device with a secret: a login if it is listed, and else a topo add. -/
def syncRequest (listed : List (Bytes × Bytes)) (config : SubDeviceConfig) :
    List GatewayPublication :=
  if config.hasSecret then [if config.key ∈ listed then .login config else .topoAdd config]
  else []

/-- The table and the requests are those of a list of devices. -/
structure Synchronised (listed : List (Bytes × Bytes)) (manager : GatewayManager)
    (handled : GatewayHandled) : Prop where
  configs : handled.manager.configs = manager.configs
  topoAdded : ∀ d ∈ handled.manager.subDevices, (d.topoAdded = true ↔ d.config.key ∈ listed)
  offline : ∀ d ∈ handled.manager.subDevices, d.online = false
  requests : handled.published.Perm (manager.configs.flatMap (syncRequest listed))

/-- The table is that of the list already, and there is nothing to ask for. -/
def StandsRight (listed : List (Bytes × Bytes)) (manager : GatewayManager) : Prop :=
  ∀ d ∈ manager.subDevices, (d.topoAdded = true ↔ d.config.key ∈ listed) ∧ d.online = false ∧
    d.config.hasSecret = false

section Table

variable {manager : GatewayManager}

/-- With distinct names, each place is the one that its name leads to. -/
theorem device?_of_getElem? (hdistinct : (manager.configs.map SubDeviceConfig.key).Nodup) {i : ℕ}
    {d : GatewaySubDeviceState} (h : manager.subDevices[i]? = some d) :
    manager.device? d.config.key = some d := by
  have hconfig : d.config ∈ manager.configs := List.mem_map_of_mem (List.mem_of_getElem? h)
  obtain ⟨found, hfound⟩ := Option.isSome_iff_exists.1 (device?_isSome hconfig)
  obtain ⟨index, -, hget⟩ := Option.bind_eq_some_iff.1 hfound
  have hkeys : ∀ {j : ℕ} {e : GatewaySubDeviceState}, manager.subDevices[j]? = some e →
      (manager.configs.map SubDeviceConfig.key)[j]? = some e.config.key := by
    intro j e he
    simp [GatewayManager.configs, he]
  have hlt := (List.getElem?_eq_some_iff.1 (hkeys hget)).1
  have hplace : index = i :=
    (List.getElem?_inj hlt hdistinct).1 (by rw [hkeys hget, hkeys h, device?_key hfound])
  rw [hfound, ← hget, hplace, h]

variable (hdistinct : (manager.configs.map SubDeviceConfig.key).Nodup)
include hdistinct

/-- After the reset and the loop, each place has the flags that the items give it. -/
theorem subDevices_visitItems (items : List (Bytes × Bytes)) :
    (visitItems (visitWith (GatewaySubDeviceState.setTopo true false false) fun _ => [])
      (resetSubDevices manager) items).manager.subDevices =
        manager.subDevices.map fun d => d.setTopo (decide (d.config.key ∈ items)) false false := by
  have hconfigs : (visitItems (visitWith (GatewaySubDeviceState.setTopo true false false)
      fun _ => []) (resetSubDevices manager) items).manager.configs = manager.configs :=
    (configs_visitItems (setTopo_config true false false) _).trans
      (configs_resetSubDevices manager)
  refine List.ext_getElem? fun i => ?_
  have hconfig := congrArg (fun configs : List SubDeviceConfig => configs[i]?) hconfigs
  simp only [GatewayManager.configs, List.getElem?_map] at hconfig
  rw [List.getElem?_map]
  cases hold : manager.subDevices[i]? with
  | none =>
    rw [hold] at hconfig
    exact Option.map_eq_none_iff.1 hconfig
  | some d =>
    rw [hold, Option.map_some] at hconfig
    obtain ⟨d', hnew, hsame⟩ := Option.map_eq_some_iff.1 hconfig
    have hdistinct' := hdistinct
    rw [← hconfigs] at hdistinct'
    have hafter := device?_of_getElem? hdistinct' hnew
    rw [hsame, device?_visitItems (setTopo_config true false false)
      (setTopo_idem true false false), device?_resetSubDevices,
      device?_of_getElem? hdistinct hold] at hafter
    rw [hnew, ← hafter]
    by_cases hmem : d.config.key ∈ items
    · simp [hmem, GatewaySubDeviceState.setTopo]
    · simp [hmem, GatewaySubDeviceState.setTopo]

omit hdistinct in
theorem requestAfterTopoGet_setTopo (items : List (Bytes × Bytes)) (d : GatewaySubDeviceState) :
    requestAfterTopoGet (d.setTopo (decide (d.config.key ∈ items)) false false) =
      syncRequest items d.config := by
  unfold requestAfterTopoGet syncRequest gatewayRequestLogin gatewayRequestTopoAdd
  by_cases hmem : d.config.key ∈ items
  · simp [hmem, GatewaySubDeviceState.setTopo]
  · simp [hmem, GatewaySubDeviceState.setTopo]

/-- The table and the requests are those of the devices that are read. -/
theorem synchronised_read {payload : Bytes} (hok : replyOk payload = true) :
    Synchronised (devicesIn payload (ascii "data")) manager
      (gatewayHandleTopoGetReply manager payload) := by
  have htable := subDevices_visitItems hdistinct (devicesIn payload (ascii "data"))
  have hconfigs := configs_topoGetReply manager payload
  rw [topoGetReply_eq manager payload hok] at hconfigs ⊢
  refine ⟨hconfigs, ?_, ?_, List.Perm.of_eq ?_⟩
  · dsimp only
    rw [htable]
    intro d hd
    obtain ⟨old, -, rfl⟩ := List.mem_map.1 hd
    exact decide_eq_true_iff
  · dsimp only
    rw [htable]
    intro d hd
    obtain ⟨old, -, rfl⟩ := List.mem_map.1 hd
    rfl
  · dsimp only
    rw [htable, List.flatMap_map, GatewayManager.configs, List.flatMap_map]
    exact congrArg (List.flatMap · manager.subDevices)
      (funext fun d => requestAfterTopoGet_setTopo _ d)

omit hdistinct in
/-- Two lists that agree about the configured devices ask for the same. -/
theorem flatMap_syncRequest {items listed : List (Bytes × Bytes)}
    (h : ∀ config ∈ manager.configs, (config.key ∈ items ↔ config.key ∈ listed)) :
    manager.configs.flatMap (syncRequest items) = manager.configs.flatMap (syncRequest listed) :=
  List.flatMap_congr fun config hconfig => by
    unfold syncRequest
    simp only [h config hconfig]

omit hdistinct in
theorem mem_configs_of_mem {d : GatewaySubDeviceState} (h : d ∈ manager.subDevices) :
    d.config ∈ manager.configs :=
  List.mem_map_of_mem h

/-- A successful reply synchronises the table exactly when what is read agrees with what is
listed about every configured device. -/
theorem synchronised_iff_read {payload : Bytes} (hok : replyOk payload = true)
    (listed : List (Bytes × Bytes)) :
    Synchronised listed manager (gatewayHandleTopoGetReply manager payload) ↔
      ∀ config ∈ manager.configs,
        (config.key ∈ devicesIn payload (ascii "data") ↔ config.key ∈ listed) := by
  have hread := synchronised_read hdistinct hok
  constructor
  · intro h config hconfig
    rw [← hread.configs] at hconfig
    obtain ⟨d, hd, rfl⟩ := List.mem_map.1 hconfig
    rw [← hread.topoAdded d hd, h.topoAdded d hd]
  · intro h
    refine ⟨hread.configs, fun d hd => ?_, hread.offline, ?_⟩
    · have hconfig := mem_configs_of_mem hd
      rw [hread.configs] at hconfig
      rw [hread.topoAdded d hd, h _ hconfig]
    · rw [← flatMap_syncRequest h]
      exact hread.requests

omit hdistinct in
/-- A handler that does nothing leaves the table synchronised if it was, and if there is no
device to ask for. -/
theorem synchronised_unchanged_iff (listed : List (Bytes × Bytes)) :
    Synchronised listed manager ⟨manager, []⟩ ↔ StandsRight listed manager := by
  constructor
  · intro h d hd
    refine ⟨h.topoAdded d hd, h.offline d hd, ?_⟩
    by_contra hsecret
    have hnil := List.flatMap_eq_nil_iff.1 h.requests.nil_eq.symm d.config (mem_configs_of_mem hd)
    rw [syncRequest, if_pos (Bool.eq_true_of_not_eq_false hsecret)] at hnil
    cases hnil
  · intro h
    refine ⟨rfl, fun d hd => (h d hd).1, fun d hd => (h d hd).2.1, List.Perm.of_eq ?_⟩
    refine (List.flatMap_eq_nil_iff.2 fun config hconfig => ?_).symm
    obtain ⟨d, hd, rfl⟩ := List.mem_map.1 hconfig
    rw [syncRequest, (h d hd).2.2]
    rfl

end Table

/-! ## Replies that are read as they are -/

/-- The names that the searches stop at first are the reply's own ones, and no name of a
device is written with escapes of code units. -/
structure TopoGetReply.Direct (reply : TopoGetReply) : Prop where
  code : firstNamed (ascii "code") reply.doc.allMembers = ownValue (ascii "code") reply.doc
  data : firstNamed (ascii "data") reply.doc.allMembers = ownValue (ascii "data") reply.doc
  names : ∀ item ∈ reply.data.elements, ∀ name ∈ [ascii "productKey", ascii "deviceName"],
    firstNamed name item.allMembers = ownValue name item ∧
      ∀ s, ownValue name item = some (.string s) → usesUnits s.raw = false

theorem bind_stringText {found : Option (Doc .value)} {text : Bytes}
    (h : found.bind stringText = some text) :
    ∃ s, found = some (.string s) ∧ stringValue s.raw = text := by
  obtain ⟨v, hv, htext⟩ := Option.bind_eq_some_iff.1 h
  cases v with
  | string s => exact ⟨s, hv, Option.some.inj htext⟩
  | _ => cases htext

namespace TopoGetReply.Direct

variable {reply : TopoGetReply} (h : reply.Direct)
include h

theorem codeSeen : reply.CodeSeen := by
  have htext : rawText (.scalar reply.code) = ascii "200" := reply.code_text
  refine ⟨.scalar reply.code, h.code.trans reply.ownCode, ?_, ?_⟩
  · rw [htext]
    decide
  · rw [htext]
    decide

/-- An item that fits is read as the device that it names. -/
theorem readAs_iff {item : Doc .value} (hitem : item ∈ reply.data.elements)
    (key : Bytes × Bytes) :
    ReadAs item key ↔ item.text.length < 512 ∧ itemDevice item = some key := by
  obtain ⟨⟨productKey, deviceName⟩, hdevice, hsized⟩ := reply.named item hitem
  have hread : ∀ name ∈ [ascii "productKey", ascii "deviceName"], ∀ {text : Bytes},
      (ownValue name item).bind stringText = some text → text.length ≤ 127 →
        foundString DEVICE_CONFIG_TEXT_SIZE (firstNamed name item.allMembers) = some text := by
    intro name hname text htext hlen
    obtain ⟨hfirst, hunits⟩ := h.names item hitem name hname
    obtain ⟨s, hown, rfl⟩ := bind_stringText htext
    have hfits : (stringValue s.raw).length < DEVICE_CONFIG_TEXT_SIZE := Nat.lt_succ_of_le hlen
    rw [hfirst, hown, foundString, decode_eq_stringValue s.escaped (hunits s hown), if_pos hfits]
  obtain ⟨p, hp, hdevice'⟩ := Option.bind_eq_some_iff.1 hdevice
  obtain ⟨d, hd, hboth⟩ := Option.map_eq_some_iff.1 hdevice'
  cases hboth
  have hproductKey := hread _ List.mem_cons_self hp hsized.1.2
  have hdeviceName := hread _ (List.mem_cons_of_mem _ List.mem_cons_self) hd hsized.2.2
  rw [Option.mem_def.1 hdevice]
  constructor
  · rintro ⟨hfits, hfirst, hsecond⟩
    rw [hproductKey] at hfirst
    rw [hdeviceName] at hsecond
    exact ⟨hfits, congrArg some (Prod.ext (Option.some.inj hfirst) (Option.some.inj hsecond))⟩
  · rintro ⟨hfits, hkey⟩
    cases hkey
    exact ⟨hfits, hproductKey, hdeviceName⟩

theorem sees_iff (key : Bytes × Bytes) : reply.Sees key ↔ reply.data.text.length < 4096 ∧
    ∃ item ∈ reply.data.elements, item.text.length < 512 ∧ itemDevice item = some key := by
  rw [TopoGetReply.Sees, h.data.trans reply.ownData]
  simp only [Option.some.injEq, exists_eq_left', reply.isArray, true_and]
  exact and_congr_right fun _ => exists_congr fun item => and_congr_right fun hitem =>
    h.readAs_iff hitem key

/-- Of such a reply nothing is seen that is not listed. -/
theorem sees_agrees_iff (key : Bytes × Bytes) : (reply.Sees key ↔ key ∈ reply.listed) ↔
    (key ∈ reply.listed → reply.data.text.length < 4096 ∧
      ∃ item ∈ reply.data.elements, item.text.length < 512 ∧ itemDevice item = some key) := by
  rw [← h.sees_iff]
  refine ⟨fun hagree => hagree.2, fun hseen => ⟨fun hsees => ?_, hseen⟩⟩
  obtain ⟨-, item, hitem, -, hdevice⟩ := (h.sees_iff key).1 hsees
  exact List.mem_filterMap.2 ⟨item, hitem, hdevice⟩

end TopoGetReply.Direct

section Main

variable {manager : GatewayManager}
  (hdistinct : (manager.configs.map SubDeviceConfig.key).Nodup)
include hdistinct

theorem synchronised_of_codeSeen_iff {reply : TopoGetReply} (hcode : reply.CodeSeen) (w₀ w : Ws) :
    Synchronised reply.listed manager
        (gatewayHandleTopoGetReply manager (w₀.text ++ (reply.doc.text ++ w.text))) ↔
      ∀ config ∈ manager.configs, (reply.Sees config.key ↔ config.key ∈ reply.listed) := by
  rw [synchronised_iff_read hdistinct ((reply.replyOk_iff w₀ w).2 hcode)]
  simp only [reply.mem_devicesIn]

/-- **When the topology is synchronised.**  If the code of a reply is seen, exactly when what
is seen of its list agrees with the list about every configured device; if it is not seen,
exactly when there was nothing to do.  Of a reply that is read as it is, every configured
device that is listed must have an item of less than 512 bytes in a list of less than 4096
bytes. -/
theorem synchronised_iff (reply : TopoGetReply) (w₀ w : Ws) :
    let handled := gatewayHandleTopoGetReply manager (w₀.text ++ (reply.doc.text ++ w.text))
    (Synchronised reply.listed manager handled ↔
      (reply.CodeSeen ∧
        ∀ config ∈ manager.configs, (reply.Sees config.key ↔ config.key ∈ reply.listed)) ∨
      (¬ reply.CodeSeen ∧ StandsRight reply.listed manager)) ∧
    (reply.Direct → (Synchronised reply.listed manager handled ↔
      ∀ config ∈ manager.configs, config.key ∈ reply.listed →
        reply.data.text.length < 4096 ∧ ∃ item ∈ reply.data.elements,
          item.text.length < 512 ∧ itemDevice item = some config.key)) := by
  intro handled
  constructor
  · by_cases hcode : reply.CodeSeen
    · rw [synchronised_of_codeSeen_iff hdistinct hcode w₀ w]
      simp [hcode]
    · have hno : replyOk (w₀.text ++ (reply.doc.text ++ w.text)) = false :=
        Bool.eq_false_iff.2 (mt (reply.replyOk_iff w₀ w).1 hcode)
      have hhandled : handled = ⟨manager, []⟩ := by
        rw [show handled = gatewayHandleTopoGetReply manager
          (w₀.text ++ (reply.doc.text ++ w.text)) from rfl, gatewayHandleTopoGetReply, if_pos hno]
      rw [hhandled, synchronised_unchanged_iff]
      simp [hcode]
  · intro hdirect
    rw [synchronised_of_codeSeen_iff hdistinct hdirect.codeSeen w₀ w]
    exact forall_congr' fun config => imp_congr_right fun _ => hdirect.sees_agrees_iff config.key

end Main

/-! ## A short and a long list -/

/-- `{"productKey":"pk","deviceName":"d`n`"}` -/
def numberedItem (n : ℕ) : Doc .value :=
  .object (.moreMembers (keyName "productKey") (.string (escapedLit (ascii "pk"))) .none
    (.member (keyName "deviceName") (.string (escapedLit (ascii "d" ++ decimal n))) .none))

/-- The devices from number `n` down to 0. -/
def numberedList : ℕ → Doc .elements
  | 0 => .element .none (numberedItem 0) .none
  | n + 1 => .moreElements .none (numberedItem (n + 1)) .none (numberedList n)

/-- `{"code":200,"data":[…]}` -/
def numberedDoc (n : ℕ) : Doc .value :=
  .object (.moreMembers (keyName "code") (.scalar (decimalScalar 200)) .none
    (.member (keyName "data") (.array (numberedList n)) .none))

def numberedReply (n : ℕ) (hlegal : (numberedDoc n).legal = true)
    (hnamed : ∀ item ∈ (numberedList n).elements, ∃ key ∈ itemDevice item, SizedNames key) :
    TopoGetReply where
  doc := numberedDoc n
  code := decimalScalar 200
  data := .array (numberedList n)
  legal := hlegal
  ownCode := rfl
  code_text := by decide
  ownData := rfl
  isArray := rfl
  named := hnamed

/-- The list of three devices. -/
def shortReply : TopoGetReply := numberedReply 2 (by decide +kernel) (by decide +kernel)

/-- The list of 120 devices. -/
def longReply : TopoGetReply := numberedReply 119 (by decide +kernel) (by decide +kernel)

/-- A gateway with the device of number 0. -/
def numberedManager : GatewayManager :=
  gatewayManagerInit (ascii "gk") (ascii "gw") [⟨ascii "pk", ascii "d0", ascii "s", []⟩]

/-- A gateway with a device that is listed, and one that is not. -/
def mixedManager : GatewayManager :=
  gatewayManagerInit (ascii "gk") (ascii "gw")
    [⟨ascii "pk", ascii "d1", ascii "s", []⟩, ⟨ascii "pk", ascii "d7", ascii "s", []⟩]

/-- The names stand where the searches stop, and are written without escapes. -/
theorem numberedItem_direct {n : ℕ} (hunits : usesUnits (escapedLit (ascii "d" ++ decimal n)).raw =
    false) : ∀ name ∈ [ascii "productKey", ascii "deviceName"],
      firstNamed name (numberedItem n).allMembers = ownValue name (numberedItem n) ∧
        ∀ s, ownValue name (numberedItem n) = some (.string s) → usesUnits s.raw = false := by
  intro name hname
  have hplain : ∀ l : StrLit, firstNamed name (numberedItem n).allMembers = some (.string l) →
      ownValue name (numberedItem n) = some (.string l) → usesUnits l.raw = false →
        firstNamed name (numberedItem n).allMembers = ownValue name (numberedItem n) ∧
          ∀ s, ownValue name (numberedItem n) = some (.string s) → usesUnits s.raw = false := by
    intro l hfirst hown hunits
    refine ⟨hfirst.trans hown.symm, fun s hs => ?_⟩
    rw [hown] at hs
    rwa [← Doc.string.inj (Option.some.inj hs)]
  have hname₁ : namesKey (ascii "productKey") (keyName "productKey").key = true ∧
      stringValue (keyName "productKey").key.raw = ascii "productKey" := by decide +kernel
  have hname₂ : namesKey (ascii "deviceName") (keyName "productKey").key = false ∧
      ¬ stringValue (keyName "productKey").key.raw = ascii "deviceName" := by decide +kernel
  have hname₃ : namesKey (ascii "deviceName") (keyName "deviceName").key = true ∧
      stringValue (keyName "deviceName").key.raw = ascii "deviceName" := by decide +kernel
  rcases List.mem_pair.1 hname with hname | hname
  · subst hname
    refine hplain (escapedLit (ascii "pk")) ?_ ?_ (by decide +kernel)
    · simp [firstNamed, numberedItem, Doc.allMembers, hname₁]
    · simp [ownValue, numberedItem, Doc.ownMembers, Doc.topMembers, hname₁]
  · subst hname
    refine hplain (escapedLit (ascii "d" ++ decimal n)) ?_ ?_ hunits
    · simp [firstNamed, numberedItem, Doc.allMembers, hname₂, hname₃]
    · simp [ownValue, numberedItem, Doc.ownMembers, Doc.topMembers, hname₂, hname₃]

theorem shortReply_direct : shortReply.Direct := by
  refine ⟨rfl, rfl, ?_⟩
  intro item hitem
  have hitems : item ∈ [numberedItem 2, numberedItem 1, numberedItem 0] := hitem
  simp only [List.mem_cons, List.not_mem_nil, or_false] at hitems
  rcases hitems with rfl | rfl | rfl
  · exact numberedItem_direct (by decide +kernel)
  · exact numberedItem_direct (by decide +kernel)
  · exact numberedItem_direct (by decide +kernel)

/-- The device that is listed is marked as added, and the other one is asked for. -/
theorem synchronised_iff_mixed :
    Synchronised shortReply.listed mixedManager (gatewayHandleTopoGetReply mixedManager
      (Ws.none.text ++ (shortReply.doc.text ++ Ws.none.text))) :=
  ((synchronised_iff (by decide) shortReply .none .none).2 shortReply_direct).2 (by decide +kernel)

/-- The list of 120 devices does not fit its array.  The handler goes on as if the reply had
listed none, and asks for the device to be added though it is listed. -/
theorem long_list_dropped :
    let handled := gatewayHandleTopoGetReply numberedManager
      (Ws.none.text ++ (longReply.doc.text ++ Ws.none.text))
    (numberedManager.configs.map SubDeviceConfig.key).Nodup ∧
    (ascii "pk", ascii "d0") ∈ longReply.listed ∧
    ¬ Synchronised longReply.listed numberedManager handled ∧
    Synchronised [] numberedManager handled := by
  intro handled
  have hdistinct : (numberedManager.configs.map SubDeviceConfig.key).Nodup := by decide
  have hlisted : (ascii "pk", ascii "d0") ∈ longReply.listed := by decide +kernel
  have hcode : longReply.CodeSeen :=
    ⟨.scalar (decimalScalar 200), rfl, by decide, by decide⟩
  have hdata : firstNamed (ascii "data") longReply.doc.allMembers =
      some (.array (numberedList 119)) := rfl
  have hlong : ¬ (Doc.array (numberedList 119)).text.length < 4096 := by decide +kernel
  have hunseen : ∀ key, ¬ longReply.Sees key := by
    rintro key ⟨array, hfound, -, hfits, -⟩
    rw [hdata] at hfound
    cases hfound
    exact hlong hfits
  refine ⟨hdistinct, hlisted, fun h => ?_, ?_⟩
  · have hagree := (synchronised_of_codeSeen_iff hdistinct hcode .none .none).1 h
    exact hunseen _ ((hagree _ List.mem_cons_self).2 hlisted)
  · rw [synchronised_iff_read hdistinct ((longReply.replyOk_iff .none .none).2 hcode)]
    intro config _
    rw [longReply.mem_devicesIn]
    exact iff_of_false (hunseen _) List.not_mem_nil

end IotIde
