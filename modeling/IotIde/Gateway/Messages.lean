import IotIde.Gateway.Devices
import IotIde.Json.Arrays
import IotIde.Json.Fields

/-!
# What the cloud's messages say

A message has a topic and a payload.  What a payload says itself, if it is a JSON text, and
what the handlers see of it, are two things: the handlers search for names at any depth and
copy what they find into arrays.

* `GatewayMessage` — a message, with the JSON value that its payload is, if it is one;
* `GatewayMessage.HasCode200`, `GatewayMessage.Says` — the code of a reply, and the status
  that a change gives a device;
* `ReadAs`, `mem_readItems` — the devices that the loops over an array visit;
* `ChangeSeen`, `readsChange_iff` — what the handler of the changes sees.
-/

namespace IotIde

open CText JsonText

/-! ## Messages -/

/-- The payload is the text of a JSON value. -/
def IsText (payload : Bytes) (d : Doc .value) : Prop :=
  d.legal = true ∧ ∃ w₀ w : Ws, payload = w₀.text ++ (d.text ++ w.text)

/-- A message from the cloud, and the value that its payload is, unless it is no JSON text. -/
structure GatewayMessage where
  topic : Bytes
  payload : Bytes
  doc? : Option (Doc .value)
  isText : ∀ d, doc? = some d → IsText payload d
  notText : doc? = none → ∀ d, ¬ IsText payload d

/-- Whatever comes in is a message. -/
theorem GatewayMessage.exists_of (topic payload : Bytes) :
    ∃ message : GatewayMessage, message.topic = topic ∧ message.payload = payload := by
  by_cases h : ∃ d, IsText payload d
  · obtain ⟨d, hd⟩ := h
    refine ⟨⟨topic, payload, some d, fun d' hd' => ?_, fun hnone => ?_⟩, rfl, rfl⟩
    · cases hd'
      exact hd
    · cases hnone
  · exact ⟨⟨topic, payload, none, fun d hd => (by cases hd), fun _ d hd => h ⟨d, hd⟩⟩, rfl, rfl⟩

/-- The message with a JSON value for a payload. -/
def GatewayMessage.ofDoc (topic : Bytes) (d : Doc .value) (h : d.legal = true) :
    GatewayMessage where
  topic := topic
  payload := d.text
  doc? := some d
  isText := fun d' hd => by
    cases hd
    exact ⟨h, .none, .none, by simp [Ws.none]⟩
  notText := fun hnone => by cases hnone

/-- The device that an item of the list names. -/
def itemDevice (item : Doc .value) : Option (Bytes × Bytes) :=
  ((ownValue (ascii "productKey") item).bind stringText).bind fun productKey =>
    ((ownValue (ascii "deviceName") item).bind stringText).map fun deviceName =>
      (productKey, deviceName)

/-- The number that a value is, however it is written. -/
def number? : Doc .value → Option ℚ
  | .scalar s => Doc.numberValue s.text
  | _ => none

/-- The status of a change and the devices of its list, by the names that the message has
itself. -/
def ownChange (d : Doc .value) : Option (ℚ × List (Bytes × Bytes)) :=
  (ownValue (ascii "params") d).bind fun params =>
    ((ownValue (ascii "status") params).bind number?).bind fun status =>
      (ownValue (ascii "subList") params).map fun list =>
        (status, list.elements.filterMap itemDevice)

namespace GatewayMessage

variable (message : GatewayMessage)

/-- The code of the message itself is the number 200. -/
def HasCode200 : Prop :=
  (message.doc?.bind (ownValue (ascii "code"))).bind number? = some 200

/-- The change gives the device the status. -/
def Says (key : Bytes × Bytes) (status : ℤ) : Prop :=
  ∃ change ∈ message.doc?.bind ownChange, change.1 = status ∧ key ∈ change.2

instance : Decidable message.HasCode200 := inferInstanceAs (Decidable (_ = _))

instance (key : Bytes × Bytes) (status : ℤ) : Decidable (message.Says key status) :=
  match h : message.doc?.bind ownChange with
  | none => isFalse fun ⟨change, hchange, _⟩ => by
    rw [h] at hchange
    cases hchange
  | some change =>
    decidable_of_iff (change.1 = status ∧ key ∈ change.2)
      ⟨fun hboth => ⟨change, h, hboth⟩, fun ⟨change', hchange', hboth⟩ => by
        cases h.symm.trans hchange'
        exact hboth⟩

end GatewayMessage

/-! ## What the loops read -/

/-- The strings that the getters find in an item first, at whatever depth, are the names, in
an item that fits `char item_json[512]`. -/
structure ReadAs (item : Doc .value) (key : Bytes × Bytes) : Prop where
  fits : item.text.length < 512
  productKey : foundString DEVICE_CONFIG_TEXT_SIZE
    (firstNamed (ascii "productKey") item.allMembers) = some key.1
  deviceName : foundString DEVICE_CONFIG_TEXT_SIZE
    (firstNamed (ascii "deviceName") item.allMembers) = some key.2

theorem readDevice_text {item : Doc .value} (hnul : 0 ∉ item.text) (key : Bytes × Bytes) :
    readDevice item.text = some key ↔
      foundString DEVICE_CONFIG_TEXT_SIZE (firstNamed (ascii "productKey") item.allMembers) =
        some key.1 ∧
      foundString DEVICE_CONFIG_TEXT_SIZE (firstNamed (ascii "deviceName") item.allMembers) =
        some key.2 := by
  have hread : ∀ {name : Bytes}, SearchKey name →
      Extract.value? (jsonGetString item.text name) DEVICE_CONFIG_TEXT_SIZE =
        foundString DEVICE_CONFIG_TEXT_SIZE (firstNamed name item.allMembers) := by
    intro name hname
    have h := value?_jsonGetString hname .none .none hnul
      (show 0 < DEVICE_CONFIG_TEXT_SIZE by decide)
    rwa [← doc_text_eq] at h
  rw [readDevice, hread (by decide), hread (by decide)]
  cases foundString DEVICE_CONFIG_TEXT_SIZE (firstNamed (ascii "productKey") item.allMembers) with
  | none => simp
  | some productKey =>
    cases foundString DEVICE_CONFIG_TEXT_SIZE (firstNamed (ascii "deviceName") item.allMembers) with
    | none => simp
    | some deviceName => simp [Prod.ext_iff]

/-- A round of the loops over an array reads the element of its index, if it fits. -/
theorem readItem_array {array : Doc .value} (harray : isArray array = true)
    (hnul : 0 ∉ array.text) (index : ℕ) :
    readItem array.text index = array.elements[index]?.bind fun u =>
      if u.text.length < 512 then readDevice u.text else none := by
  have hsize : 0 < 512 := by norm_num
  have hitem := value?_jsonArrayGetItem harray hnul hsize index
  unfold readItem
  rw [hitem]
  cases array.elements[index]? with
  | none => rfl
  | some u =>
    simp only [Option.bind_some]
    by_cases hfits : u.text.length < 512
    · rw [if_pos hfits, if_pos hfits]
    · rw [if_neg hfits, if_neg hfits]

/-- The loops visit the devices that the items are read as. -/
theorem mem_readItems {array : Doc .value} (harray : isArray array = true)
    (hnul : 0 ∉ array.text) (hlen : array.text.length < 2 ^ 31) (key : Bytes × Bytes) :
    key ∈ readItems array.text ↔ ∃ item ∈ array.elements, ReadAs item key := by
  rw [readItems, jsonArraySize_array harray hlen, Int.toNat_natCast,
    funext (readItem_array harray hnul), filterMap_range, List.mem_filterMap]
  refine exists_congr fun item => and_congr_right fun hmem => ?_
  have hitem : 0 ∉ item.text := fun h => hnul (mem_text_of_mem_elements array hmem h)
  by_cases hfits : item.text.length < 512
  · rw [if_pos hfits, readDevice_text hitem]
    exact ⟨fun h => ⟨hfits, h.1, h.2⟩, fun h => ⟨h.productKey, h.deviceName⟩⟩
  · rw [if_neg hfits]
    exact iff_of_false (Option.some_ne_none key).symm fun h => hfits h.fits

/-! ## Changes -/

/-- The object that the search finds first for the parameters fits `char params_json[4096]`;
in it, at whatever depth, the status that is found first fits `char status_raw[64]` and reads
as the number, and the array that is found first fits `char sub_list[4096]` and has an item
that is read as the device. -/
def ChangeSeen (d : Doc .value) (status : ℤ) (key : Bytes × Bytes) : Prop :=
  ∃ params, firstNamed (ascii "params") d.allMembers = some params ∧
    isObject params = true ∧ params.text.length < 4096 ∧
    (∃ u, firstNamed (ascii "status") params.allMembers = some u ∧ (rawText u).length < 64 ∧
      atoi (rawText u) = status) ∧
    ∃ list, firstNamed (ascii "subList") params.allMembers = some list ∧
      isArray list = true ∧ list.text.length < 4096 ∧ ∃ item ∈ list.elements, ReadAs item key

/-- What a change is read as. -/
def ReadsChange (payload : Bytes) (status : ℤ) (key : Bytes × Bytes) : Prop :=
  ∃ items, topoChangeIn payload = some (status, items) ∧ key ∈ items

/-- A kind of brackets found whole, or nothing. -/
theorem foundCompound_eq_some {kind : Doc .value → Bool} {size : ℕ} {found : Option (Doc .value)}
    {text : Bytes} : foundCompound kind size found = some text ↔
      ∃ v, found = some v ∧ kind v = true ∧ v.text.length < size ∧ v.text = text := by
  cases found with
  | none => simp [foundCompound]
  | some v =>
    simp only [foundCompound, Option.bind_some, Option.some.injEq, exists_eq_left']
    split_ifs with hboth
    · simp [hboth]
    · exact iff_of_false (by simp) fun h => hboth ⟨h.1, h.2.1⟩

/-- A raw value that is short enough, or nothing. -/
theorem foundRaw_eq_some {size : ℕ} {found : Option (Doc .value)} {text : Bytes} :
    (found.bind fun u => if (rawText u).length < size then some (rawText u) else none) = some text ↔
      ∃ u, found = some u ∧ (rawText u).length < size ∧ rawText u = text := by
  rw [Option.bind_eq_some_iff]
  refine exists_congr fun u => and_congr_right fun _ => ?_
  rw [Option.ite_none_right_eq_some, Option.some.injEq]

theorem readTopoChange_eq_some {payload : Bytes} {change : ℤ × Bytes} :
    readTopoChange payload = some change ↔
      ∃ params, Extract.value? (jsonGetObject payload (ascii "params")) 4096 = some params ∧
        (∃ raw, Extract.value? (jsonGetRawValue params (ascii "status")) 64 = some raw ∧
          atoi raw = change.1) ∧
        Extract.value? (jsonGetArray params (ascii "subList")) 4096 = some change.2 := by
  unfold readTopoChange
  cases Extract.value? (jsonGetObject payload (ascii "params")) 4096 with
  | none => simp
  | some params =>
    simp only [Option.some.injEq, exists_eq_left']
    cases Extract.value? (jsonGetRawValue params (ascii "status")) 64 with
    | none => simp
    | some raw =>
      cases Extract.value? (jsonGetArray params (ascii "subList")) 4096 with
      | none => simp
      | some subList => simp [Prod.ext_iff]

section Params

variable {params : Doc .value} (hnul : 0 ∉ params.text)
include hnul

theorem readStatus_iff (raw : Bytes) :
    Extract.value? (jsonGetRawValue params.text (ascii "status")) 64 = some raw ↔
      ∃ u, firstNamed (ascii "status") params.allMembers = some u ∧ (rawText u).length < 64 ∧
        rawText u = raw := by
  have h := value?_jsonGetRawValue (show SearchKey (ascii "status") by decide) .none .none hnul
    (show 0 < 64 by norm_num)
  rw [← doc_text_eq] at h
  rw [h, foundRaw_eq_some]

theorem readSubList_iff (text : Bytes) :
    Extract.value? (jsonGetArray params.text (ascii "subList")) 4096 = some text ↔
      ∃ list, firstNamed (ascii "subList") params.allMembers = some list ∧
        isArray list = true ∧ list.text.length < 4096 ∧ list.text = text := by
  have h := value?_jsonGetArray (show SearchKey (ascii "subList") by decide) .none .none hnul
    (show 0 < 4096 by norm_num)
  rw [← doc_text_eq] at h
  rw [h, foundCompound_eq_some]

end Params

/-- What the handler reads of a change is what it sees. -/
theorem readsChange_iff {payload : Bytes} {d : Doc .value} (h : IsText payload d) (status : ℤ)
    (key : Bytes × Bytes) : ReadsChange payload status key ↔ ChangeSeen d status key := by
  obtain ⟨hlegal, w₀, w, rfl⟩ := h
  have hd : 0 ∉ d.text := nul_notMem_text d hlegal
  have hobject := value?_jsonGetObject (show SearchKey (ascii "params") by decide) w₀ w hd
    (show 0 < 4096 by norm_num)
  have hinside : ∀ {name : Bytes} {v u : Doc .value}, 0 ∉ v.text →
      firstNamed name v.allMembers = some u → 0 ∉ u.text :=
    fun hv hfound h0 => hv (mem_text_of_firstNamed hfound h0)
  constructor
  · rintro ⟨items, hin, hmem⟩
    obtain ⟨⟨status', subList⟩, hread, hboth⟩ := Option.map_eq_some_iff.1 hin
    cases hboth
    obtain ⟨text, hparams, ⟨raw, hraw, rfl⟩, harray⟩ := readTopoChange_eq_some.1 hread
    rw [hobject, foundCompound_eq_some] at hparams
    obtain ⟨params, hfound, hkind, hfits, rfl⟩ := hparams
    have hp := hinside hd hfound
    obtain ⟨u, hu, hshort, rfl⟩ := (readStatus_iff hp raw).1 hraw
    obtain ⟨list, hlist, hlistKind, hlistFits, rfl⟩ := (readSubList_iff hp subList).1 harray
    exact ⟨params, hfound, hkind, hfits, ⟨u, hu, hshort, rfl⟩, list, hlist, hlistKind, hlistFits,
      (mem_readItems hlistKind (hinside hp hlist) (hlistFits.trans (by norm_num)) key).1 hmem⟩
  · rintro ⟨params, hfound, hkind, hfits, ⟨u, hu, hshort, rfl⟩, list, hlist, hlistKind, hlistFits,
      hitem⟩
    have hp := hinside hd hfound
    have hread : readTopoChange (w₀.text ++ (d.text ++ w.text)) =
        some (atoi (rawText u), list.text) := by
      refine readTopoChange_eq_some.2 ⟨params.text, ?_, ⟨rawText u, ?_, rfl⟩, ?_⟩
      · rw [hobject, foundCompound_eq_some]
        exact ⟨params, hfound, hkind, hfits, rfl⟩
      · exact (readStatus_iff hp _).2 ⟨u, hu, hshort, rfl⟩
      · exact (readSubList_iff hp _).2 ⟨list, hlist, hlistKind, hlistFits, rfl⟩
    refine ⟨readItems list.text, by rw [topoChangeIn, hread, Option.map_some], ?_⟩
    exact (mem_readItems hlistKind (hinside hp hlist) (hlistFits.trans (by norm_num)) key).2 hitem

end IotIde
