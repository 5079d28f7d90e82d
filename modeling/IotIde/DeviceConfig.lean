import IotIde.Gateway.Manager
import IotIde.Json.Arrays
import IotIde.Json.Fields
import IotIde.Json.Literals

/-!
# `device_config.c`

The configuration is read from a JSON file once, into arrays of fixed sizes.  Its list of
sub-devices is read item by item into a table of eight places.

* `DeviceConfig`, `deviceConfigLoad` — the configuration, and how it is read;
* `table_loadItems` — the table after the loop, for any list of items;
* `deviceConfigLoad_bounded` — the texts of a loaded configuration fit their arrays;
* `validEntry`, `readEntry` — the entry that an item's own members give, and the one of the
  members that the searches take;
* `readEntry_of_plainKeys` — they are the same whatever the values look like, unless a key of
  the item ends in an escaped quote and the name of a field;
* `sub_devices_iff` — when the table is the valid part of the configuration.
-/

namespace IotIde

open CText JsonText

/-! ## The configuration -/

/-- `DEVICE_CONFIG_REGION_SIZE` -/
def DEVICE_CONFIG_REGION_SIZE : ℕ := 64

/-- `DEVICE_CONFIG_SIGN_METHOD_SIZE` -/
def DEVICE_CONFIG_SIGN_METHOD_SIZE : ℕ := 32

/-- `DEVICE_CONFIG_MAX_SUB_DEVICES` -/
abbrev DEVICE_CONFIG_MAX_SUB_DEVICES : ℕ := 8

/-- `DEVICE_CONFIG_ARRAY_BUFFER_SIZE` -/
def DEVICE_CONFIG_ARRAY_BUFFER_SIZE : ℕ := 8192

/-- `DEVICE_CONFIG_ITEM_BUFFER_SIZE` -/
def DEVICE_CONFIG_ITEM_BUFFER_SIZE : ℕ := 1024

/-- `DeviceConfig` -/
structure DeviceConfig where
  productKey : Bytes
  deviceName : Bytes
  deviceSecret : Bytes
  instanceId : Bytes
  region : Bytes
  subDeviceCount : ℕ
  subDevices : Vector SubDeviceConfig DEVICE_CONFIG_MAX_SUB_DEVICES

namespace DeviceConfig

/-- `memset(config, 0, sizeof(*config))` -/
def zero : DeviceConfig := ⟨[], [], [], [], [], 0, Vector.replicate _ ⟨[], [], [], []⟩⟩

/-- The places of the table that are in use. -/
def table (config : DeviceConfig) : List SubDeviceConfig :=
  config.subDevices.toList.take config.subDeviceCount

/-- `config->sub_devices[config->sub_device_count++] = sub_device` -/
def append (config : DeviceConfig) (subDevice : SubDeviceConfig) : DeviceConfig :=
  { config with
    subDeviceCount := config.subDeviceCount + 1
    subDevices := config.subDevices.setIfInBounds config.subDeviceCount subDevice }

end DeviceConfig

/-- `sign_method`, after the default is put in the place of a missing or an empty one. -/
def readSignMethod (itemJson : Bytes) : Bytes :=
  match Extract.value? (jsonGetString itemJson (ascii "signMethod"))
    DEVICE_CONFIG_SIGN_METHOD_SIZE with
  | none => snprintf DEVICE_CONFIG_SIGN_METHOD_SIZE (ascii "hmacsha256")
  | some signMethod =>
    if signMethod = [] then snprintf DEVICE_CONFIG_SIGN_METHOD_SIZE (ascii "hmacsha256")
    else signMethod

/-- The rest of a round of `device_config_load_sub_devices`, once `item_json` is read. -/
def readSubDevice (itemJson : Bytes) : Option SubDeviceConfig :=
  match readDevice itemJson with
  | none => none
  | some (productKey, deviceName) =>
    if productKey = [] ∨ deviceName = [] then none
    else some
      { productKey := productKey
        deviceName := deviceName
        deviceSecret := readField (ascii "deviceSecret") DEVICE_CONFIG_TEXT_SIZE [] itemJson
        signMethod := readSignMethod itemJson }

/-- A round of `device_config_load_sub_devices`: the sub-device of an item, if it has one. -/
def readSubDeviceItem (arrayJson : Bytes) (index : ℕ) : Option SubDeviceConfig :=
  (Extract.value? (jsonArrayGetItem arrayJson index) DEVICE_CONFIG_ITEM_BUFFER_SIZE).bind
    readSubDevice

/-- The loop of `device_config_load_sub_devices` over the indices that are left. -/
def loadItems (arrayJson : Bytes) : List ℕ → DeviceConfig → DeviceConfig
  | [], config => config
  | index :: rest, config =>
    if DEVICE_CONFIG_MAX_SUB_DEVICES ≤ config.subDeviceCount then config
    else loadItems arrayJson rest
      ((readSubDeviceItem arrayJson index).elim config config.append)

/-- The part of `device_config_load_sub_devices` that follows the search for the array. -/
def loadArray (config : DeviceConfig) (arrayJson : Bytes) : DeviceConfig :=
  let itemCount := jsonArraySize arrayJson
  if itemCount ≤ 0 then config
  else loadItems arrayJson (List.range itemCount.toNat) config

/-- `device_config_load_sub_devices` -/
def deviceConfigLoadSubDevices (json : Bytes) (config : DeviceConfig) : DeviceConfig :=
  (Extract.value? (jsonGetArray json (ascii "subDevice")) DEVICE_CONFIG_ARRAY_BUFFER_SIZE).elim
    config (loadArray config)

/-- `device_config_load`, by the contents of the file, if it can be read; without a
configuration the call returns -1. -/
def deviceConfigLoad (file : Option Bytes) : Option DeviceConfig :=
  match file with
  | none => none
  | some contents =>
    let json := cstr contents
    match Extract.value? (jsonGetString json (ascii "productKey")) DEVICE_CONFIG_TEXT_SIZE,
      Extract.value? (jsonGetString json (ascii "deviceName")) DEVICE_CONFIG_TEXT_SIZE,
      Extract.value? (jsonGetString json (ascii "deviceSecret")) DEVICE_CONFIG_TEXT_SIZE with
    | some productKey, some deviceName, some deviceSecret =>
      some (deviceConfigLoadSubDevices json
        { DeviceConfig.zero with
          productKey := productKey
          deviceName := deviceName
          deviceSecret := deviceSecret
          instanceId := readField (ascii "instanceId") DEVICE_CONFIG_TEXT_SIZE [] json
          region := readField (ascii "region") DEVICE_CONFIG_REGION_SIZE [] json })
    | _, _, _ => none

/-! ## The table -/

namespace DeviceConfig

theorem table_length (config : DeviceConfig) (h : config.subDeviceCount ≤ 8) :
    config.table.length = config.subDeviceCount := by
  rw [table, List.length_take, Vector.length_toList]
  exact min_eq_left h

/-- A new entry stands behind the others. -/
theorem table_append (config : DeviceConfig) (subDevice : SubDeviceConfig)
    (h : config.subDeviceCount < 8) :
    (config.append subDevice).table = config.table ++ [subDevice] := by
  have hlen : config.subDevices.toList.length = 8 := Vector.length_toList
  rw [table, append, Vector.toList_setIfInBounds, List.take_add_one, table,
    List.take_set_of_le le_rfl, List.getElem?_set_self (by omega)]
  rfl

end DeviceConfig

/-- **The table after the loop**: the entries of the items, as long as there is room. -/
theorem table_loadItems (arrayJson : Bytes) (indices : List ℕ) :
    ∀ config : DeviceConfig, config.subDeviceCount ≤ 8 →
      (loadItems arrayJson indices config).subDeviceCount ≤ 8 ∧
      (loadItems arrayJson indices config).table = config.table ++
        (indices.filterMap (readSubDeviceItem arrayJson)).take (8 - config.subDeviceCount) := by
  induction indices with
  | nil =>
    intro config h
    rw [loadItems, List.filterMap_nil, List.take_nil, List.append_nil]
    exact ⟨h, rfl⟩
  | cons index rest ih =>
    intro config h
    rw [loadItems]
    by_cases hfull : 8 ≤ config.subDeviceCount
    · rw [if_pos hfull, show 8 - config.subDeviceCount = 0 by omega, List.take_zero,
        List.append_nil]
      exact ⟨h, rfl⟩
    rw [if_neg hfull, List.filterMap_cons]
    have hroom : config.subDeviceCount < 8 := Nat.lt_of_not_le hfull
    cases readSubDeviceItem arrayJson index with
    | none => exact ih config h
    | some subDevice =>
      obtain ⟨hcount, htable⟩ := ih (config.append subDevice) hroom
      refine ⟨hcount, htable.trans ?_⟩
      have hsub : 8 - config.subDeviceCount = 8 - (config.subDeviceCount + 1) + 1 := by omega
      rw [DeviceConfig.table_append config subDevice hroom, hsub, List.take_succ_cons,
        List.append_assoc]
      rfl

/-! ## The arrays of a loaded configuration -/

/-- A C string in an array of `size` bytes. -/
def IsTextOf (size : ℕ) (text : Bytes) : Prop := 0 ∉ text ∧ text.length < size

/-- The texts of a sub-device that go into its messages, in their arrays. -/
structure SubDeviceConfig.Bounded (config : SubDeviceConfig) : Prop where
  productKey : IsTextOf DEVICE_CONFIG_TEXT_SIZE config.productKey
  deviceName : IsTextOf DEVICE_CONFIG_TEXT_SIZE config.deviceName
  deviceSecret : IsTextOf DEVICE_CONFIG_TEXT_SIZE config.deviceSecret

theorem isTextOf_of_value? {json key text : Bytes}
    (h : Extract.value? (jsonGetString json key) DEVICE_CONFIG_TEXT_SIZE = some text) :
    IsTextOf DEVICE_CONFIG_TEXT_SIZE text :=
  value?_bounded (jsonGetString_terminated json key
    (getLast?_replicate_zero (show 0 < DEVICE_CONFIG_TEXT_SIZE by decide))) h

theorem bounded_of_readSubDevice {itemJson : Bytes} {config : SubDeviceConfig}
    (h : readSubDevice itemJson = some config) : config.Bounded := by
  unfold readSubDevice readDevice at h
  split at h
  · cases h
  · rename_i productKey deviceName hread
    split at hread
    · rename_i _ _ hproduct hdevice
      cases hread
      split_ifs at h
      cases h
      exact ⟨isTextOf_of_value? hproduct, isTextOf_of_value? hdevice,
        nul_notMem_readField _ _ _ _, readField_length_lt (by decide) _⟩
    · cases hread

theorem bounded_of_mem_loadArray {config : DeviceConfig} (hempty : config.subDeviceCount = 0)
    (arrayJson : Bytes) : ∀ c ∈ (loadArray config arrayJson).table, c.Bounded := by
  intro c hc
  have hnone : config.table = [] := by rw [DeviceConfig.table, hempty, List.take_zero]
  unfold loadArray at hc
  dsimp only at hc
  split_ifs at hc
  · rw [hnone] at hc
    cases hc
  · rw [(table_loadItems arrayJson _ config (by omega)).2, hnone, List.nil_append] at hc
    obtain ⟨index, -, hitem⟩ := List.mem_filterMap.1 (List.mem_of_mem_take hc)
    obtain ⟨item, -, hread⟩ := Option.bind_eq_some_iff.1 hitem
    exact bounded_of_readSubDevice hread

/-- The list leaves the texts of the gateway itself alone. -/
theorem loadItems_names (arrayJson : Bytes) (indices : List ℕ) : ∀ config : DeviceConfig,
    (loadItems arrayJson indices config).productKey = config.productKey ∧
      (loadItems arrayJson indices config).deviceName = config.deviceName := by
  induction indices with
  | nil => exact fun _ => ⟨rfl, rfl⟩
  | cons index rest ih =>
    intro config
    rw [loadItems]
    split_ifs
    · exact ⟨rfl, rfl⟩
    · cases readSubDeviceItem arrayJson index with
      | none => exact ih config
      | some subDevice => exact ih (config.append subDevice)

theorem deviceConfigLoadSubDevices_names (json : Bytes) (config : DeviceConfig) :
    (deviceConfigLoadSubDevices json config).productKey = config.productKey ∧
      (deviceConfigLoadSubDevices json config).deviceName = config.deviceName := by
  unfold deviceConfigLoadSubDevices
  cases Extract.value? (jsonGetArray json (ascii "subDevice")) DEVICE_CONFIG_ARRAY_BUFFER_SIZE with
  | none => exact ⟨rfl, rfl⟩
  | some arrayJson =>
    rw [Option.elim_some]
    unfold loadArray
    dsimp only
    split_ifs
    · exact ⟨rfl, rfl⟩
    · exact loadItems_names _ _ _

theorem bounded_of_mem_loadSubDevices {config : DeviceConfig} (hempty : config.subDeviceCount = 0)
    (json : Bytes) : ∀ c ∈ (deviceConfigLoadSubDevices json config).table, c.Bounded := by
  unfold deviceConfigLoadSubDevices
  cases Extract.value? (jsonGetArray json (ascii "subDevice")) DEVICE_CONFIG_ARRAY_BUFFER_SIZE with
  | none =>
    intro c hc
    rw [Option.elim_none, DeviceConfig.table, hempty, List.take_zero] at hc
    cases hc
  | some arrayJson => exact bounded_of_mem_loadArray hempty arrayJson

/-- Whatever the file, names and secrets of a loaded configuration are C strings in their
arrays. -/
theorem deviceConfigLoad_bounded {file : Option Bytes} {config : DeviceConfig}
    (h : deviceConfigLoad file = some config) :
    IsTextOf DEVICE_CONFIG_TEXT_SIZE config.productKey ∧ IsTextOf DEVICE_CONFIG_TEXT_SIZE config.deviceName ∧
      ∀ c ∈ config.table, c.Bounded := by
  unfold deviceConfigLoad at h
  split at h
  · cases h
  · dsimp only at h
    split at h
    · rename_i productKey deviceName deviceSecret hproduct hdevice _
      cases h
      refine ⟨?_, ?_, bounded_of_mem_loadSubDevices rfl _⟩
      · rw [(deviceConfigLoadSubDevices_names _ _).1]
        exact isTextOf_of_value? hproduct
      · rw [(deviceConfigLoadSubDevices_names _ _).2]
        exact isTextOf_of_value? hdevice
    · cases h

/-! ## The entries of an array -/

/-- What the texts of the four fields come to: both names have to be there and to fit. -/
def subDeviceEntry (text : Bytes → Option Bytes) : Option SubDeviceConfig :=
  match text (ascii "productKey"), text (ascii "deviceName") with
  | some productKey, some deviceName =>
    if (1 ≤ productKey.length ∧ productKey.length ≤ 127) ∧
        1 ≤ deviceName.length ∧ deviceName.length ≤ 127 then
      some
        { productKey := productKey
          deviceName := deviceName
          deviceSecret := (text (ascii "deviceSecret")).getD []
          signMethod := ((text (ascii "signMethod")).filter fun signMethod =>
            1 ≤ signMethod.length ∧ signMethod.length ≤ 31).getD (ascii "hmacsha256") }
    else none
  | _, _ => none

/-- The string that an item has itself under a name. -/
def ownText (item : Doc .value) (name : Bytes) : Option Bytes :=
  (ownValue name item).bind stringText

/-- The string that the search finds in an item. -/
def takenText (item : Doc .value) (name : Bytes) : Option Bytes :=
  (firstNamed name item.allMembers).bind stringText

/-- The entry of an item, if it is valid. -/
def validEntry (item : Doc .value) : Option SubDeviceConfig :=
  if item.text.length < 1024 then subDeviceEntry (ownText item) else none

/-- `deviceSecret` up to the end of its array. -/
def SubDeviceConfig.cutSecret (config : SubDeviceConfig) : SubDeviceConfig :=
  { config with deviceSecret := config.deviceSecret.take 127 }

/-- The entry by the members that the searches take. -/
def readEntry (item : Doc .value) : Option SubDeviceConfig :=
  if item.text.length < 1024 then (subDeviceEntry (takenText item)).map SubDeviceConfig.cutSecret
  else none

/-- A well-formed object whose values are strings without escapes of code units. -/
structure FlatItem (item : Doc .value) : Prop where
  isObject : IotIde.isObject item = true
  legal : item.legal = true
  strings : ∀ m ∈ item.ownMembers, ∃ s, m.2 = .string s ∧ usesUnits s.raw = false

namespace FlatItem

variable {item : Doc .value} (h : FlatItem item)
include h

theorem allMembers_eq : item.allMembers = item.ownMembers := by
  cases item with
  | object ms =>
    have hstrings : ∀ m ∈ ms.topMembers, (m :: m.2.allMembers) = [m] := by
      intro m hm
      obtain ⟨s, hs, -⟩ := h.strings m hm
      rw [hs]
      rfl
    show ms.allMembers = ms.topMembers
    rw [Doc.allMembers_members, List.flatMap_congr hstrings, List.flatMap_singleton']
  | emptyObject w => rfl
  | _ => exact absurd h.isObject (by simp [IotIde.isObject])

theorem withoutUnits : ∀ m ∈ item.allMembers, WithoutUnits m.2 := by
  intro m hm
  rw [h.allMembers_eq] at hm
  obtain ⟨s, hs, hunits⟩ := h.strings m hm
  rw [hs]
  exact withoutUnits_string hunits

theorem nul_notMem : 0 ∉ item.text := nul_notMem_text item h.legal

/-- `json_get_string` into a fresh array: the string taken, if it fits. -/
theorem value?_taken {name : Bytes} (hname : SearchKey name) {size : ℕ} (hsize : 0 < size) :
    Extract.value? (jsonGetString item.text name) size =
      (takenText item name).filter fun text => text.length < size := by
  have hread := value?_jsonGetString hname .none .none h.nul_notMem hsize
  rw [← doc_text_eq] at hread
  rw [hread, takenText]
  cases hfound : firstNamed name item.allMembers with
  | none => rfl
  | some u =>
    obtain ⟨m, hm, rfl⟩ := Option.map_eq_some_iff.1 hfound
    have hmem := List.mem_of_find?_eq_some hm
    rw [h.allMembers_eq] at hmem
    obtain ⟨s, hs, hunits⟩ := h.strings m hmem
    rw [hs]
    simp only [foundString, Option.bind_some, stringText,
      ← decode_eq_stringValue s.escaped hunits]
    by_cases hlen : (decode s.raw).length < size
    · rw [if_pos hlen, Option.filter_some, if_pos (decide_eq_true hlen)]
    · rw [if_neg hlen, Option.filter_some, if_neg (by simpa using hlen)]

theorem readSignMethod_eq : readSignMethod item.text =
    ((takenText item (ascii "signMethod")).filter fun signMethod =>
      1 ≤ signMethod.length ∧ signMethod.length ≤ 31).getD (ascii "hmacsha256") := by
  have hdefault : snprintf DEVICE_CONFIG_SIGN_METHOD_SIZE (ascii "hmacsha256") =
      ascii "hmacsha256" := by decide +kernel
  have hread : Extract.value? (jsonGetString item.text (ascii "signMethod"))
      DEVICE_CONFIG_SIGN_METHOD_SIZE =
        (takenText item (ascii "signMethod")).filter fun text => text.length < 32 :=
    h.value?_taken (by decide) (by decide)
  rw [readSignMethod, hread, hdefault]
  cases takenText item (ascii "signMethod") with
  | none => rfl
  | some signMethod =>
    simp only [Option.filter_some, decide_eq_true_eq, Bool.decide_and, Bool.and_eq_true]
    by_cases hlen : signMethod.length < 32
    · by_cases hnil : signMethod = []
      · subst hnil
        rfl
      · have hpos : 1 ≤ signMethod.length := List.length_pos_iff.2 hnil
        simp only [if_pos hlen, if_neg hnil, if_pos (And.intro hpos (Nat.le_of_lt_succ hlen))]
        rfl
    · have hno : ¬ (1 ≤ signMethod.length ∧ signMethod.length ≤ 31) := by omega
      rw [if_neg hlen, if_neg hno]
      rfl

/-- A round of the loop gives the entry of the members that the searches take. -/
theorem readSubDevice_eq : readSubDevice item.text =
    (subDeviceEntry (takenText item)).map SubDeviceConfig.cutSecret := by
  have hsecret : readField (ascii "deviceSecret") DEVICE_CONFIG_TEXT_SIZE [] item.text =
      ((takenText item (ascii "deviceSecret")).getD []).take 127 := by
    have hread := readField_eq (show SearchKey (ascii "deviceSecret") by decide +kernel)
      (show ([] : Bytes).length < DEVICE_CONFIG_TEXT_SIZE by decide) List.not_mem_nil .none .none
      h.legal h.withoutUnits
    rw [← doc_text_eq] at hread
    rw [hread, foundText, takenText]
    cases firstNamed (ascii "deviceSecret") item.allMembers with
    | none => rfl
    | some u => cases u <;> rfl
  have hread : ∀ {name : Bytes}, SearchKey name →
      Extract.value? (jsonGetString item.text name) DEVICE_CONFIG_TEXT_SIZE =
        (takenText item name).filter fun text => text.length < 128 :=
    fun hname => h.value?_taken hname (by decide)
  rw [readSubDevice, readDevice, hread (by decide), hread (by decide), hsecret,
    h.readSignMethod_eq, subDeviceEntry]
  cases takenText item (ascii "productKey") with
  | none => rfl
  | some productKey =>
    cases takenText item (ascii "deviceName") with
    | none =>
      rw [Option.filter_none]
      cases Option.filter _ (some productKey) <;> rfl
    | some deviceName =>
      simp only [Option.filter_some, decide_eq_true_eq]
      by_cases hproduct : productKey.length < 128
      · by_cases hdevice : deviceName.length < 128
        · have hnames : (productKey = [] ∨ deviceName = []) ↔
              ¬ ((1 ≤ productKey.length ∧ productKey.length ≤ 127) ∧
                1 ≤ deviceName.length ∧ deviceName.length ≤ 127) := by
            rw [← List.length_eq_zero_iff, ← List.length_eq_zero_iff]
            omega
          by_cases hempty : productKey = [] ∨ deviceName = []
          · simp only [if_pos hproduct, if_pos hdevice, if_pos hempty, if_neg (hnames.1 hempty)]
            rfl
          · simp only [if_pos hproduct, if_pos hdevice, if_neg hempty,
              if_pos (not_not.1 (mt hnames.2 hempty))]
            rfl
        · have hno : ¬ ((1 ≤ productKey.length ∧ productKey.length ≤ 127) ∧
              1 ≤ deviceName.length ∧ deviceName.length ≤ 127) := by omega
          simp only [if_pos hproduct, if_neg hdevice, if_neg hno]
          rfl
      · have hno : ¬ ((1 ≤ productKey.length ∧ productKey.length ≤ 127) ∧
            1 ≤ deviceName.length ∧ deviceName.length ≤ 127) := by omega
        simp only [if_neg hproduct, if_neg hno]
        rfl

end FlatItem

/-! ## Keys and values -/

def isLetter (b : UInt8) : Bool := (65 ≤ b && b ≤ 90) || (97 ≤ b && b ≤ 122)

/-- Contents that stand for a name of letters are that name, unless a letter is written as a
code unit. -/
theorem raw_eq_of_stringValue {raw : Bytes} (hescaped : wellEscaped raw = true)
    (hlegal : Doc.legalRaw raw = true) (hunits : usesUnits raw = false) {name : Bytes}
    (hname : name.all isLetter = true) (h : stringValue raw = name) : raw = name := by
  subst h
  revert hlegal hunits hname
  refine wellEscaped_induction (P := fun raw => Doc.legalRaw raw = true →
    usesUnits raw = false → (stringValue raw).all isLetter = true → raw = stringValue raw)
    ?_ ?_ ?_ raw hescaped
  · intro _ _ _
    rfl
  · intro b rest _ hb _ ih hlegal hunits hname
    rw [legalRaw_plain hb, Bool.and_eq_true] at hlegal
    rw [usesUnits.eq_def] at hunits
    dsimp only at hunits
    rw [if_neg hb] at hunits
    rw [stringValue_cons hb] at hname ⊢
    rw [List.all_cons, Bool.and_eq_true] at hname
    exact congrArg (b :: ·) (ih hlegal.2 hunits hname.2)
  · intro e rest _ _ hlegal hunits hname
    -- no escape of one byte stands for a letter
    rw [usesUnits, if_pos rfl, Bool.or_eq_false_iff, beq_eq_false_iff_ne] at hunits
    rw [legalRaw_escaped hunits.1, Bool.and_eq_true] at hlegal
    rw [stringValue_escape hunits.1, List.all_cons, Bool.and_eq_true] at hname
    have hno : ∀ e ∈ ascii "\"\\/bfnrt", isLetter (escapeMeaning e) = false := by
      decide +kernel
    rw [hno e (of_decide_eq_true hlegal.1)] at hname
    cases hname.1

theorem legalRaw_of_mem_topMembers : ∀ ms : Doc .members, ms.legal = true →
    ∀ m ∈ ms.topMembers, Doc.legalRaw m.1.raw = true
  | .member n v w => by
    intro h m hm
    simp only [Doc.legal, Bool.and_eq_true] at h
    rw [List.mem_singleton.1 hm]
    exact h.1
  | .moreMembers n v w rest => by
    intro h m hm
    simp only [Doc.legal, Bool.and_eq_true] at h
    rcases List.mem_cons.1 hm with rfl | hm
    · exact h.1.1
    · exact legalRaw_of_mem_topMembers rest h.2 m hm

/-- The names of the fields. -/
def subDeviceFields : List Bytes :=
  [ascii "productKey", ascii "deviceName", ascii "deviceSecret", ascii "signMethod"]

/-- No key ends in an escaped quote and the name of a field, and none has a code unit. -/
def PlainKeys (item : Doc .value) : Prop :=
  ∀ m ∈ item.ownMembers, usesUnits m.1.raw = false ∧
    ∀ name ∈ subDeviceFields, ¬ quote :: name <:+ m.1.raw

/-- With plain keys the searches take the item's own members. -/
theorem FlatItem.takenText_eq {item : Doc .value} (h : FlatItem item) (hkeys : PlainKeys item)
    {name : Bytes} (hname : name ∈ subDeviceFields) : takenText item name = ownText item name := by
  have hletters : ∀ name ∈ subDeviceFields, name.all isLetter = true := by decide +kernel
  have hplain : ∀ name ∈ subDeviceFields, backslash ∉ name := by decide +kernel
  have hlegal : ∀ m ∈ item.ownMembers, Doc.legalRaw m.1.raw = true := by
    cases item with
    | object ms => exact legalRaw_of_mem_topMembers ms h.legal
    | _ =>
      intro m hm
      cases hm
  have hsame : ∀ m ∈ item.ownMembers,
      namesKey name m.1 = decide (stringValue m.1.raw = name) := by
    intro m hm
    obtain ⟨hunits, hsuffix⟩ := hkeys m hm
    rw [namesKey, decide_eq_decide, List.suffix_cons_iff, or_iff_left (hsuffix name hname),
      List.cons.injEq, and_iff_right rfl]
    constructor
    · intro heq
      rw [← heq, stringValue_plain (hplain name hname)]
    · exact fun heq => (raw_eq_of_stringValue m.1.escaped (hlegal m hm) hunits
        (hletters name hname) heq).symm
  rw [takenText, ownText, firstNamed, ownValue, h.allMembers_eq, List.find?_congr hsame]

/-- **The lookups are immune to values that look like keys.**  Only a key can mislead them. -/
theorem readEntry_of_plainKeys {item : Doc .value} (h : FlatItem item) (hkeys : PlainKeys item)
    (hsecret : ∀ secret ∈ ownText item (ascii "deviceSecret"), secret.length ≤ 127) :
    readEntry item = validEntry item := by
  have hfields : ∀ name ∈ subDeviceFields, takenText item name = ownText item name :=
    fun name hname => h.takenText_eq hkeys hname
  have hentry : subDeviceEntry (takenText item) = subDeviceEntry (ownText item) := by
    unfold subDeviceEntry
    rw [hfields _ (by decide), hfields _ (by decide), hfields _ (by decide), hfields _ (by decide)]
  have hcut : (subDeviceEntry (ownText item)).map SubDeviceConfig.cutSecret =
      subDeviceEntry (ownText item) := by
    have hlen : ((ownText item (ascii "deviceSecret")).getD []).length ≤ 127 := by
      cases hown : ownText item (ascii "deviceSecret") with
      | none => exact Nat.zero_le _
      | some secret => exact hsecret secret hown
    unfold subDeviceEntry
    split
    · split
      · rw [Option.map_some, SubDeviceConfig.cutSecret, List.take_of_length_le hlen]
      · rfl
    · rfl
  rw [readEntry, validEntry, hentry, hcut]

/-! ## Tables with a last place -/

/-- Two tables of `k` places are the same after every part of a list exactly when every item
that still finds a place in the second one gives the same to both. -/
theorem filterMap_take_iff {α β : Type*} (f g : α → Option β) (k : ℕ) (l : List α) :
    (∀ n ≤ l.length, ((l.take n).filterMap f).take k = ((l.take n).filterMap g).take k) ↔
      ∀ i a, l[i]? = some a → ((l.take i).filterMap g).length < k → f a = g a := by
  have hnext : ∀ {i : ℕ} {a : α}, l[i]? = some a → ∀ h : α → Option β,
      (l.take (i + 1)).filterMap h = (l.take i).filterMap h ++ (h a).toList := by
    intro i a hi h
    rw [List.take_add_one, hi, List.filterMap_append]
    cases hh : h a <;> simp [hh]
  constructor
  · intro h i a hi hroom
    have hlt : i < l.length := (List.getElem?_eq_some_iff.1 hi).1
    have hbefore := h i hlt.le
    have hafter := h (i + 1) hlt
    rw [List.take_of_length_le hroom.le] at hbefore
    have hlen := congrArg List.length hbefore
    rw [List.length_take] at hlen
    rw [List.take_of_length_le (by omega)] at hbefore
    have hwhole : ∀ o : Option β, ((l.take i).filterMap g ++ o.toList).take k =
        (l.take i).filterMap g ++ o.toList := by
      intro o
      refine List.take_of_length_le ?_
      cases o with
      | none => simpa using hroom.le
      | some b => simpa using hroom
    rw [hnext hi, hnext hi, hbefore, hwhole, hwhole] at hafter
    have hsame := List.append_cancel_left hafter
    cases hf : f a <;> cases hg : g a <;> simp_all
  · intro h n
    induction n with
    | zero => exact fun _ => rfl
    | succ n ih =>
      intro hn
      have hi : l[n]? = some l[n] := List.getElem?_eq_getElem hn
      have hbefore := ih (Nat.le_of_succ_le hn)
      rw [hnext hi, hnext hi]
      by_cases hroom : ((l.take n).filterMap g).length < k
      · rw [h n _ hi hroom]
        have hlen := congrArg List.length hbefore
        rw [List.length_take, List.length_take] at hlen
        rw [List.take_of_length_le hroom.le, List.take_of_length_le (by omega)] at hbefore
        rw [hbefore]
      · -- the table is full in both
        have hlen := congrArg List.length hbefore
        rw [List.length_take, List.length_take] at hlen
        rw [List.take_append_of_le_length (by omega), List.take_append_of_le_length (by omega),
          hbefore]

/-! ## The table of a configuration -/

section Array

variable {array : Doc .value} (harray : isArray array = true) (hnul : 0 ∉ array.text)
  (hflat : ∀ item ∈ array.elements, FlatItem item)
include harray hnul hflat

theorem readSubDeviceItem_array (index : ℕ) :
    readSubDeviceItem array.text index = array.elements[index]?.bind readEntry := by
  have hitem : Extract.value? (jsonArrayGetItem array.text index) DEVICE_CONFIG_ITEM_BUFFER_SIZE =
      array.elements[index]?.bind fun u => if u.text.length < 1024 then some u.text else none :=
    value?_jsonArrayGetItem harray hnul (show 0 < 1024 by norm_num) index
  rw [readSubDeviceItem, hitem]
  cases hget : array.elements[index]? with
  | none => rfl
  | some item =>
    rw [Option.bind_some, Option.bind_some, readEntry]
    by_cases hfits : item.text.length < 1024
    · rw [if_pos hfits, if_pos hfits, Option.bind_some]
      exact (hflat item (List.mem_of_getElem? hget)).readSubDevice_eq
    · rw [if_neg hfits, if_neg hfits, Option.bind_none]

/-- The table holds the first eight entries that are read. -/
theorem table_loadSubDevices {json : Bytes} {config : DeviceConfig}
    (hempty : config.subDeviceCount = 0)
    (hread : Extract.value? (jsonGetArray json (ascii "subDevice"))
      DEVICE_CONFIG_ARRAY_BUFFER_SIZE = some array.text) :
    (deviceConfigLoadSubDevices json config).subDeviceCount ≤ 8 ∧
    (deviceConfigLoadSubDevices json config).table =
      (array.elements.filterMap readEntry).take 8 := by
  have htable : config.table = [] := by rw [DeviceConfig.table, hempty, List.take_zero]
  have hlen : array.text.length < 8192 :=
    (value?_bounded (jsonGetArray_terminated json (ascii "subDevice")
      (getLast?_replicate_zero (by decide))) hread).2
  have hload : deviceConfigLoadSubDevices json config =
      loadItems array.text (List.range array.elements.length) config := by
    rw [deviceConfigLoadSubDevices, hread, Option.elim_some, loadArray]
    simp only [jsonArraySize_array harray (hlen.trans (by norm_num)), Int.toNat_natCast]
    by_cases hnone : (array.elements.length : ℤ) ≤ 0
    · rw [if_pos hnone, show array.elements.length = 0 by omega, List.range_zero, loadItems]
    · rw [if_neg hnone]
  have hcount : config.subDeviceCount ≤ 8 := hempty ▸ Nat.zero_le 8
  obtain ⟨hle, hloop⟩ := table_loadItems array.text (List.range array.elements.length) config hcount
  rw [hload]
  refine ⟨hle, ?_⟩
  rw [hloop, htable, List.nil_append, hempty, Nat.sub_zero,
    funext (readSubDeviceItem_array harray hnul hflat), filterMap_range]

end Array

/-- A configuration with nothing but a list. -/
def listOnly (array : Doc .value) : Doc .value :=
  .object (.member (.bare ⟨ascii "subDevice", by decide +kernel⟩) array .none)

theorem value?_getArray_subDevice {array : Doc .value} (harray : isArray array = true)
    (hnul : 0 ∉ array.text) (hlen : array.text.length < DEVICE_CONFIG_ARRAY_BUFFER_SIZE) :
    Extract.value? (jsonGetArray (listOnly array).text (ascii "subDevice"))
      DEVICE_CONFIG_ARRAY_BUFFER_SIZE = some array.text := by
  have hkey : SearchKey (ascii "subDevice") := by decide
  have hlist : 0 ∉ (listOnly array).text := by
    have hname : 0 ∉ (Name.bare ⟨ascii "subDevice", by decide +kernel⟩).text := by decide +kernel
    simp [listOnly, Doc.text, hname, hnul, nul_notMem_ws, lbrace, rbrace]
  have hname : namesKey (ascii "subDevice") ⟨ascii "subDevice", by decide +kernel⟩ = true := by
    decide +kernel
  have hfound : firstNamed (ascii "subDevice") (listOnly array).allMembers = some array := by
    rw [firstNamed, listOnly, Doc.allMembers, Doc.allMembers, Name.bare, List.find?_cons, hname]
    rfl
  have hread := value?_jsonGetArray hkey .none .none hlist (Nat.zero_lt_of_lt hlen)
  rw [← doc_text_eq, hfound, foundCompound, Option.bind_some, if_pos ⟨harray, hlen⟩] at hread
  exact hread

/-- **The sub-device table.**  The table of a configuration is the valid part of its list, and
so is the table of every configuration that lists only the first of these items, exactly when
each item that still finds a place is read by its own members. -/
theorem sub_devices_iff (w : Ws) (items : List Spaced) (hflat : ∀ e ∈ items, FlatItem e.value)
    (hfits : (arrayText w items).length < 8192) :
    (∀ n ≤ items.length, ∀ (json : Bytes) (config : DeviceConfig), config.subDeviceCount = 0 →
      Extract.value? (jsonGetArray json (ascii "subDevice")) DEVICE_CONFIG_ARRAY_BUFFER_SIZE =
        some (arrayText w (items.take n)) →
      (deviceConfigLoadSubDevices json config).table =
        ((items.take n).filterMap fun e => validEntry e.value).take 8 ∧
      (deviceConfigLoadSubDevices json config).subDeviceCount =
        (deviceConfigLoadSubDevices json config).table.length) ↔
    ∀ i e, items[i]? = some e →
      ((items.take i).filterMap fun e => validEntry e.value).length < 8 →
        readEntry e.value = validEntry e.value := by
  refine Iff.trans (forall₂_congr fun n hn => ?_)
    (filterMap_take_iff (fun e => readEntry e.value) (fun e => validEntry e.value) 8 items)
  set array := arrayDoc w (items.take n) with harrayDoc
  have hisArray : isArray array = true := isArray_arrayDoc w _
  have htext : array.text = arrayText w (items.take n) := arrayDoc_text w _
  have hmem : ∀ e ∈ items.take n, FlatItem e.value := fun e he => hflat e (List.mem_of_mem_take he)
  have hlegal : array.legal = true := by
    rw [harrayDoc, arrayDoc_legal]
    exact List.all_eq_true.2 fun e he => (hmem e he).legal
  have hnul : 0 ∉ array.text := nul_notMem_text array hlegal
  have helements : array.elements = (items.take n).map Spaced.value := arrayDoc_elements w _
  have hitems : ∀ item ∈ array.elements, FlatItem item := by
    rw [helements]
    intro item hitem
    obtain ⟨e, he, rfl⟩ := List.mem_map.1 hitem
    exact hmem e he
  constructor
  · intro h
    cases n with
    | zero => rfl
    | succ n =>
      -- a configuration with this list
      have hlen : array.text.length < 8192 := by
        have hle := (arrayText_take_length_le w items n)
        rw [htext]
        omega
      have hread := value?_getArray_subDevice hisArray hnul hlen
      rw [htext] at hread
      have hempty : DeviceConfig.zero.subDeviceCount = 0 := rfl
      obtain ⟨htable, -⟩ := h _ .zero hempty hread
      rw [← htext] at hread
      obtain ⟨-, hloop⟩ := table_loadSubDevices hisArray hnul hitems hempty hread
      rw [htable, helements, List.filterMap_map] at hloop
      exact hloop.symm
  · intro h json config hempty hread
    rw [← htext] at hread
    obtain ⟨hcount, hloop⟩ := table_loadSubDevices hisArray hnul hitems hempty hread
    refine ⟨?_, (DeviceConfig.table_length _ hcount).symm⟩
    rw [hloop, helements, List.filterMap_map]
    exact h

/-- A member of strings without white space. -/
def bareMember (key value : StrLit) (more : Option (Doc .members)) : Doc .members :=
  match more with
  | none => .member (.bare key) (.string value) .none
  | some rest => .moreMembers (.bare key) (.string value) .none rest

/-- `{"productKey":"pk","deviceName":"dn"}` -/
def plainItem : Doc .value :=
  .object (bareMember ⟨ascii "productKey", by decide +kernel⟩ ⟨ascii "pk", rfl⟩
    (some (bareMember ⟨ascii "deviceName", by decide +kernel⟩ ⟨ascii "dn", rfl⟩ none)))

/-- `{"x\"productKey":"evil","productKey":"pk","deviceName":"dn"}` -/
def escapedKeyItem : Doc .value :=
  .object (bareMember ⟨ascii "x\\\"productKey", by decide +kernel⟩ ⟨ascii "evil", rfl⟩
    (some (bareMember ⟨ascii "productKey", by decide +kernel⟩ ⟨ascii "pk", rfl⟩
      (some (bareMember ⟨ascii "deviceName", by decide +kernel⟩ ⟨ascii "dn", rfl⟩ none)))))

theorem plainItem_flat : FlatItem plainItem where
  isObject := rfl
  legal := by decide +kernel
  strings m hm := by
    rcases List.mem_cons.1 hm with rfl | hm
    · exact ⟨_, rfl, by decide +kernel⟩
    rcases List.mem_cons.1 hm with rfl | hm
    · exact ⟨_, rfl, by decide +kernel⟩
    cases hm

theorem escapedKeyItem_flat : FlatItem escapedKeyItem where
  isObject := rfl
  legal := by decide +kernel
  strings m hm := by
    rcases List.mem_cons.1 hm with rfl | hm
    · exact ⟨_, rfl, by decide +kernel⟩
    rcases List.mem_cons.1 hm with rfl | hm
    · exact ⟨_, rfl, by decide +kernel⟩
    rcases List.mem_cons.1 hm with rfl | hm
    · exact ⟨_, rfl, by decide +kernel⟩
    cases hm

/-- A list of one item, without white space. -/
def oneItem (item : Doc .value) : List Spaced := [⟨.none, item, .none⟩]

/-- `{"productKey":"xy"}`, which names no device. -/
def namelessItem : Doc .value :=
  .object (bareMember ⟨ascii "productKey", by decide +kernel⟩ ⟨ascii "xy", rfl⟩ none)

theorem namelessItem_flat : FlatItem namelessItem where
  isObject := rfl
  legal := by decide +kernel
  strings m hm := by
    rcases List.mem_cons.1 hm with rfl | hm
    · exact ⟨_, rfl, by decide +kernel⟩
    cases hm

/-- Eight usable items behind one that names no device, and one usable item too many. -/
def mixedItems : List Spaced :=
  oneItem namelessItem ++ (List.replicate 9 (oneItem plainItem)).flatten

theorem mixedItems_flat : ∀ e ∈ mixedItems, FlatItem e.value := by
  intro e he
  rcases List.mem_append.1 he with hnameless | hplain
  · exact List.mem_singleton.1 hnameless ▸ namelessItem_flat
  · obtain ⟨item, hitem, hmem⟩ := List.mem_flatten.1 hplain
    rw [List.eq_of_mem_replicate hitem] at hmem
    exact List.mem_singleton.1 hmem ▸ plainItem_flat

theorem sub_devices_iff_mixed :
    ((mixedItems.filterMap fun e => validEntry e.value).length = 9 ∧
      ∀ i e, mixedItems[i]? = some e →
        ((mixedItems.take i).filterMap fun e => validEntry e.value).length < 8 →
          readEntry e.value = validEntry e.value) ∧
    ∀ n ≤ mixedItems.length, ∀ (json : Bytes) (config : DeviceConfig),
      config.subDeviceCount = 0 →
      Extract.value? (jsonGetArray json (ascii "subDevice")) DEVICE_CONFIG_ARRAY_BUFFER_SIZE =
        some (arrayText .none (mixedItems.take n)) →
      (deviceConfigLoadSubDevices json config).table =
        ((mixedItems.take n).filterMap fun e => validEntry e.value).take 8 ∧
      (deviceConfigLoadSubDevices json config).subDeviceCount =
        (deviceConfigLoadSubDevices json config).table.length := by
  have hread : ∀ e ∈ mixedItems, readEntry e.value = validEntry e.value := by decide +kernel
  have hitems : ∀ i e, mixedItems[i]? = some e →
      ((mixedItems.take i).filterMap fun e => validEntry e.value).length < 8 →
        readEntry e.value = validEntry e.value := fun i e he _ =>
    hread e (List.mem_of_getElem? he)
  exact ⟨⟨by decide +kernel, hitems⟩,
    (sub_devices_iff .none mixedItems mixedItems_flat (by decide +kernel)).2 hitems⟩

/-- The key of another member ends in an escaped quote and `productKey`: its value is taken
for the product key, though the keys of the item are distinct. -/
theorem escaped_key_misread :
    let array := arrayDoc .none (oneItem escapedKeyItem)
    let config := deviceConfigLoadSubDevices (listOnly array).text .zero
    (FlatItem escapedKeyItem ∧
      (escapedKeyItem.ownMembers.map fun m => stringValue m.1.raw).Nodup ∧
      (∀ m ∈ escapedKeyItem.ownMembers, usesUnits m.1.raw = false) ∧
      ownText escapedKeyItem (ascii "deviceSecret") = none ∧
      Extract.value? (jsonGetArray (listOnly array).text (ascii "subDevice"))
        DEVICE_CONFIG_ARRAY_BUFFER_SIZE = some array.text) ∧
    config.table = [⟨ascii "evil", ascii "dn", [], ascii "hmacsha256"⟩] ∧
    ((oneItem escapedKeyItem).filterMap fun e => validEntry e.value).take 8 =
      [⟨ascii "pk", ascii "dn", [], ascii "hmacsha256"⟩] := by
  intro array config
  have harray : isArray array = true := isArray_arrayDoc .none _
  have hlegal : array.legal = true := by decide +kernel
  have hnul : 0 ∉ array.text := nul_notMem_text array hlegal
  have hlen : array.text.length < DEVICE_CONFIG_ARRAY_BUFFER_SIZE := by decide +kernel
  have hread := value?_getArray_subDevice harray hnul hlen
  have hitems : ∀ item ∈ array.elements, FlatItem item :=
    fun _ hitem => List.mem_singleton.1 hitem ▸ escapedKeyItem_flat
  have hempty : DeviceConfig.zero.subDeviceCount = 0 := rfl
  obtain ⟨-, htable⟩ := table_loadSubDevices harray hnul hitems hempty hread
  refine ⟨⟨escapedKeyItem_flat, by decide +kernel, by decide +kernel, by decide +kernel, hread⟩,
    htable.trans ?_, by decide +kernel⟩
  have hentry : readEntry escapedKeyItem =
      some ⟨ascii "evil", ascii "dn", [], ascii "hmacsha256"⟩ := by decide +kernel
  show ([escapedKeyItem].filterMap readEntry).take 8 = _
  rw [List.filterMap_cons_some hentry]
  rfl

end IotIde
