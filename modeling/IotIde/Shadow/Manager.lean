import IotIde.StringBuilder
import IotIde.Topics

/-!
# `device_shadow_manager.c`

The manager of the device shadow numbers what it publishes by the last version the cloud
told it.

* `shadowNextVersion` — the number of the next update;
* `shadowUpdateReported` — the update a service makes;
* `ShadowUpdate`, `DeviceShadowManager.publish` — the three calls that publish, with the
  number that what they publish carries;
* `shadowHandleMessage` — what the cloud sends.
-/

namespace IotIde

open CText

/-- `device_shadow_manager_get_next_version`; 0 stands for none. -/
def shadowNextVersion (version : ℤ) : ℤ := if version > 0 then version + 1 else 0

/-- `device_shadow_manager_build_update_topic` -/
def shadowUpdateTopic (productKey deviceName : Bytes) : Bytes :=
  snprintf 320 (ascii "/shadow/update/" ++ (productKey ++ (ascii "/" ++ deviceName)))

/-- The text of an update. -/
def shadowUpdateText (reported : Bytes) (version : ℤ) : Bytes :=
  if version > 0 then
    ascii "\x7b\"method\":\"update\",\"state\":\x7b\"reported\":" ++ (reported ++
      (ascii "\x7d,\"version\":" ++ (decimal version ++ ascii "\x7d")))
  else
    ascii "\x7b\"method\":\"update\",\"state\":\x7b\"reported\":" ++ (reported ++ ascii "\x7d\x7d")

/-- `device_shadow_manager_update_reported`: what it publishes, with its topic. -/
def shadowUpdateReported (alloc : ℕ → Bool) (productKey deviceName : Bytes) (version : ℤ)
    (reported : Bytes) : List (Bytes × Bytes) :=
  ((sbFormat alloc 256 (shadowUpdateText reported (shadowNextVersion version))).map
    fun payload => (shadowUpdateTopic productKey deviceName, payload)).toList

/-- `DeviceShadowManager`, with the names its topics are built from. -/
structure DeviceShadowManager where
  productKey : Bytes
  deviceName : Bytes
  version : ℤ

/-- `device_shadow_manager_init` -/
def shadowManagerInit (productKey deviceName : Bytes) : DeviceShadowManager :=
  ⟨productKey, deviceName, 0⟩

/-! ## Updates and deletions -/

/-- The calls that publish, by their argument. -/
inductive ShadowUpdate
  | updateReported (reported : Bytes)
  | deleteKey (key : Bytes)
  | deleteAll

namespace ShadowUpdate

/-- The capacity a call's builder starts with. -/
def capacity : ShadowUpdate → ℕ
  | updateReported _ | deleteKey _ => 256
  | deleteAll => 128

/-- The text of a call, or `none` when the key does not fit `char escaped_key[256]`. -/
def text (version : ℤ) : ShadowUpdate → Option Bytes
  | updateReported reported => some (shadowUpdateText reported version)
  | deleteKey key =>
    let escaped := jsonEscapeString key (List.replicate 256 0)
    if escaped.rc ≠ 0 then none
    else
      let deleted := ascii "\x7b\"method\":\"delete\",\"state\":\x7b\"reported\":\x7b\"" ++
        (cstr escaped.out ++ ascii "\":\"null\"\x7d\x7d")
      some (if version > 0 then
          deleted ++ (ascii ",\"version\":" ++ (decimal version ++ ascii "\x7d"))
        else deleted ++ ascii "\x7d")
  | deleteAll =>
    let deleted := ascii "\x7b\"method\":\"delete\",\"state\":\x7b\"reported\":\"null\"\x7d"
    some (if version > 0 then
        deleted ++ (ascii ",\"version\":" ++ (decimal version ++ ascii "\x7d"))
      else deleted ++ ascii "\x7d")

end ShadowUpdate

/-- How the calls outside one publication come out: the allocations of its builder, and
whether `app_publish_topic` publishes. -/
structure ShadowOutcomes where
  alloc : ℕ → Bool
  publishes : Bool

namespace ShadowUpdate

variable (o : ShadowOutcomes) (update : ShadowUpdate)

/-- The call gets as far as `device_shadow_manager_get_next_version`. -/
def drawsVersion : Bool :=
  (update.text 0).isSome && (sbInit (o.alloc 0) update.capacity).1 == 0

/-- The whole text is published: an append that fails is not noticed, and leaves the
payload empty. -/
def Whole (text : Bytes) : Prop :=
  o.publishes = true ∧ sbFormat o.alloc update.capacity text = some text

instance (text : Bytes) : Decidable (update.Whole o text) := inferInstanceAs (Decidable (_ ∧ _))

end ShadowUpdate

/-- What a call publishes, and the number that it carries; 0 is never written. -/
def DeviceShadowManager.publish (o : ShadowOutcomes) (manager : DeviceShadowManager)
    (update : ShadowUpdate) : Option (Bytes × Option ℤ) :=
  let version := shadowNextVersion manager.version
  match update.text version with
  | none => none
  | some text =>
    match sbFormat o.alloc update.capacity text with
    | none => none
    | some payload =>
      if o.publishes then
        some (payload, if payload = text ∧ version > 0 then some version else none)
      else none

/-- The update a service makes is the first of the calls, published. -/
theorem shadowUpdateReported_eq (alloc : ℕ → Bool) (productKey deviceName : Bytes) (version : ℤ)
    (reported : Bytes) :
    shadowUpdateReported alloc productKey deviceName version reported =
      (((DeviceShadowManager.mk productKey deviceName version).publish ⟨alloc, true⟩
        (.updateReported reported)).map fun published =>
          (shadowUpdateTopic productKey deviceName, published.1)).toList := by
  simp only [shadowUpdateReported, DeviceShadowManager.publish, ShadowUpdate.text,
    show (ShadowUpdate.updateReported reported).capacity = 256 from rfl]
  cases sbFormat alloc 256 (shadowUpdateText reported (shadowNextVersion version)) <;> rfl

/-- `manager->version + 1` leaves the range of an `int`. -/
def DeviceShadowManager.overflows (o : ShadowOutcomes) (manager : DeviceShadowManager)
    (update : ShadowUpdate) : Bool :=
  update.drawsVersion o && manager.version == (INT_MAX : ℤ)

/-! ## Messages -/

/-- `device_shadow_manager_build_get_topic` -/
def shadowGetTopic (productKey deviceName : Bytes) : Bytes :=
  snprintf 320 (ascii "/shadow/get/" ++ (productKey ++ (ascii "/" ++ deviceName)))

/-- `device_shadow_manager_update_version` -/
def DeviceShadowManager.updateVersion (manager : DeviceShadowManager) (version : ℤ) :
    DeviceShadowManager :=
  if version ≤ 0 then manager else { manager with version := version }

/-- The version of a message, if it has one. -/
def readVersion (payload : Bytes) : Option ℤ :=
  (Extract.value? (jsonGetRawValue payload (ascii "version")) 64).map atoi

/-- `desired_json` of a control message. -/
def readDesired (payload : Bytes) : Option Bytes :=
  if cstr (jsonGetString payload (ascii "method") (initBuffer 64 [])).out = ascii "control" then
    ((Extract.value? (jsonGetObject payload (ascii "payload")) 4096).bind fun object =>
      Extract.value? (jsonGetObject object (ascii "state")) 3072).bind fun state =>
        Extract.value? (jsonGetObject state (ascii "desired")) 2048
  else none

/-- What a message does: whether it was taken, the manager it leaves, the switch it sets,
the properties it posts, and the update it makes. -/
structure ShadowHandled where
  taken : Bool
  manager : DeviceShadowManager
  adasSwitch : Option Bool
  posted : Option Bytes
  update : Option ShadowUpdate

/-- `device_shadow_manager_handle_message` -/
def shadowHandleMessage (manager : DeviceShadowManager) (topic payload : Bytes) :
    ShadowHandled :=
  if topic ≠ shadowGetTopic manager.productKey manager.deviceName then
    ⟨false, manager, none, none, none⟩
  else
    let manager :=
      match readVersion payload with
      | none => manager
      | some version => manager.updateVersion version
    match readDesired payload with
    | none => ⟨true, manager, none, none, none⟩
    | some desired =>
      match Extract.value? (jsonGetRawValue desired (ascii "ADASSwitch")) 64 with
      | none => ⟨true, manager, none, none, some (.updateReported desired)⟩
      | some value =>
        ⟨true, manager, some (atoi value != 0), some desired, some (.updateReported desired)⟩

end IotIde
