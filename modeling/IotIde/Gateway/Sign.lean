import IotIde.Foundation.Hmac
import IotIde.Gateway.Requests

/-!
# The signs of topo add and login

A sub-device signs its requests with its secret.  The helper that computes the keyed hash
returns early for a secret that does not fit a block, and leaves the digest what the stack held
before.

* `coreHmacSha256`, `coreHex2str` — the two helpers, over any `sha256` with digests of 32 bytes;
* `SignStack` — what `gateway_build_sign` finds in its uninitialised arrays;
* `expectedSign` — the keyed hash of the request in upper-case hexadecimal;
* `SignedRight` — the requests carry that sign, whatever the stack held;
* `signed_right_iff` — when they do.
-/

namespace IotIde

open CText

/-! ## The helpers -/

/-- `SHA256_KEY_IOPAD_SIZE` -/
def SHA256_KEY_IOPAD_SIZE : ℕ := 64

/-- `core_hmac_sha256`, by what it leaves in `output`; the hash of a context is the one of all
that it was updated with. -/
def coreHmacSha256 (sha256 : Bytes → Bytes) (msg key output : Bytes) : Bytes :=
  if SHA256_KEY_IOPAD_SIZE < key.length then output
  else
    let pad := key ++ List.replicate (SHA256_KEY_IOPAD_SIZE - key.length) 0
    let inner := sha256 (pad.map (· ^^^ 0x36) ++ msg)
    sha256 (pad.map (· ^^^ 0x5c) ++ inner)

/-- `encode` of `core_hex2str`. -/
def hexEncode (lowercase : Bool) : Bytes :=
  if lowercase then ascii "0123456789abcdef" else ascii "0123456789ABCDEF"

/-- `core_hex2str`: two digits a byte, and no terminator. -/
def coreHex2str (lowercase : Bool) (input : Bytes) : Bytes :=
  input.flatMap fun b : UInt8 => [(hexEncode lowercase).getD ((b >>> 4) &&& 0xf).toNat 0,
    (hexEncode lowercase).getD (b &&& 0xf).toNat 0]

/-- The stack of `gateway_build_sign`: what `sign[32]` held before, and what stands behind the
64 digits in `sign_string` and after it. -/
structure SignStack where
  sign : Bytes
  beyond : Bytes
  sign_length : sign.length = 32

/-- The string at `sign_string`. -/
def signString (sha256 : Bytes → Bytes) (stack : SignStack) (secret text : Bytes) : Bytes :=
  cstr (coreHex2str false (coreHmacSha256 sha256 text secret stack.sign) ++ stack.beyond)

/-- The calls of a request, with the sign that this stack gives. -/
def signOutcomes (sha256 : Bytes → Bytes) (timestampMs idMs : ℤ) (alloc : ℕ → Bool)
    (stack : SignStack) : GatewayPublication.Outcomes :=
  ⟨signString sha256 stack, timestampMs, idMs, alloc⟩

/-! ## What a request should carry -/

/-- HMAC-SHA256 in upper-case hexadecimal. -/
def expectedSign (sha256 : Bytes → Bytes) (secret text : Bytes) : Bytes :=
  Hmac.hex (Hmac.hmac sha256 64 secret text)

/-- Whatever the stack held, the two requests of a sub-device carry the keyed hash of its client
id, names and timestamp. -/
def SignedRight (sha256 : Bytes → Bytes) (timestampMs idMs : ℤ) (alloc : ℕ → Bool)
    (config : SubDeviceConfig) : Prop :=
  let sign := expectedSign sha256 config.deviceSecret (config.signedText timestampMs)
  ∀ stack : SignStack,
    (∀ payload ∈ (GatewayPublication.topoAdd config).payload
        (signOutcomes sha256 timestampMs idMs alloc stack),
      payload = config.topoAddText idMs (decimal timestampMs) config.clientIdText sign) ∧
    ∀ payload ∈ (GatewayPublication.login config).payload
        (signOutcomes sha256 timestampMs idMs alloc stack),
      payload = config.loginText idMs (decimal timestampMs) config.clientIdText sign

/-! ## The digits -/

theorem coreHex2str_eq (input : Bytes) : coreHex2str false input = Hmac.hex input :=
  Hmac.hex_eq_flatMap (by decide +kernel) input

section Sign

variable {sha256 : Bytes → Bytes} (hsize : ∀ m, (sha256 m).length = 32) (stack : SignStack)
  (secret text : Bytes)
include hsize

/-- The digest that is put into digits. -/
theorem coreHmacSha256_length :
    (coreHmacSha256 sha256 text secret stack.sign).length = 32 := by
  unfold coreHmacSha256
  split_ifs
  · exact stack.sign_length
  · exact hsize _

/-- The 64 digits are kept, whatever stands behind them. -/
theorem snprintf_signString : snprintf 65 (signString sha256 stack secret text) =
    Hmac.hex (coreHmacSha256 sha256 text secret stack.sign) := by
  have hlen : (Hmac.hex (coreHmacSha256 sha256 text secret stack.sign)).length = 64 := by
    rw [Hmac.hex_length, coreHmacSha256_length hsize]
  have hdigits : cstr (Hmac.hex (coreHmacSha256 sha256 text secret stack.sign) ++ stack.beyond) =
      Hmac.hex (coreHmacSha256 sha256 text secret stack.sign) ++ cstr stack.beyond :=
    List.takeWhile_append_of_pos fun b hb => by
      have hne : b ≠ 0 := fun h => Hmac.zero_notMem_hex _ (h ▸ hb)
      simpa using hne
  rw [signString, coreHex2str_eq, hdigits, snprintf, show 65 - 1 = 64 by norm_num]
  exact List.take_left' hlen

end Sign

/-! ## The requests -/

namespace GatewayPublication

/-- The sign as its array `char sign[65]` holds it. -/
def Outcomes.cutSign (o : Outcomes) : Outcomes :=
  { o with sign := fun secret text => snprintf 65 (o.sign secret text) }

theorem buildSign_cutSign (o : Outcomes) (config : SubDeviceConfig) (timestamp : Bytes) :
    buildSign o.cutSign config timestamp = buildSign o config timestamp := by
  rw [buildSign_eq_map, buildSign_eq_map]
  refine congrFun (congrArg Option.map (funext fun plain => ?_)) _
  simp only [Outcomes.cutSign, snprintf, List.take_take, min_self]

end GatewayPublication

section Requests

variable {sha256 : Bytes → Bytes} (hsize : ∀ m, (sha256 m).length = 32) {config : SubDeviceConfig}
  (h : config.Bounded) {timestampMs idMs : ℤ}
  (htimestamp : -2 ^ 63 ≤ timestampMs ∧ timestampMs < 2 ^ 63)
  (hid : -2 ^ 63 ≤ idMs ∧ idMs < 2 ^ 63) (alloc : ℕ → Bool) (stack : SignStack)
include hsize htimestamp hid

theorem sized_cutSign : (signOutcomes sha256 timestampMs idMs alloc stack).cutSign.Sized where
  sign_length secret text := by
    show (snprintf 65 (signString sha256 stack secret text)).length = 64
    rw [snprintf_signString hsize, Hmac.hex_length, coreHmacSha256_length hsize]
  timestampMs := htimestamp
  idMs := hid

omit htimestamp hid in
/-- What a request is with the cut sign in it, it is with the digits of what the helper leaves. -/
theorem map_cutSign (text : Bytes → Bytes) (plain : Option Bytes) :
    plain.map (fun plain =>
      text ((signOutcomes sha256 timestampMs idMs alloc stack).cutSign.sign config.deviceSecret plain)) =
    plain.map fun plain =>
      text (Hmac.hex (coreHmacSha256 sha256 plain config.deviceSecret stack.sign)) := by
  refine congrFun (congrArg Option.map (funext fun plain => ?_)) _
  exact congrArg text (snprintf_signString hsize stack config.deviceSecret plain)

include h

/-- The topo add carries the digits of what the helper leaves. -/
theorem payload_topoAdd_sign : (GatewayPublication.topoAdd config).payload
    (signOutcomes sha256 timestampMs idMs alloc stack) =
      (builtText alloc (config.signedText timestampMs)).map fun plain =>
        config.topoAddText idMs (decimal timestampMs) config.clientIdText
          (Hmac.hex (coreHmacSha256 sha256 plain config.deviceSecret stack.sign)) :=
  calc (GatewayPublication.topoAdd config).payload
        (signOutcomes sha256 timestampMs idMs alloc stack)
      = (GatewayPublication.topoAdd config).payload
          (signOutcomes sha256 timestampMs idMs alloc stack).cutSign :=
        (congrArg (Option.map _) (GatewayPublication.buildSign_cutSign _ config _)).symm
    _ = _ := GatewayPublication.payload_topoAdd (sized_cutSign hsize htimestamp hid alloc stack) h
    _ = _ := map_cutSign hsize alloc stack _ _

theorem payload_login_sign : (GatewayPublication.login config).payload
    (signOutcomes sha256 timestampMs idMs alloc stack) =
      (builtText alloc (config.signedText timestampMs)).map fun plain =>
        config.loginText idMs (decimal timestampMs) config.clientIdText
          (Hmac.hex (coreHmacSha256 sha256 plain config.deviceSecret stack.sign)) :=
  calc (GatewayPublication.login config).payload (signOutcomes sha256 timestampMs idMs alloc stack)
      = (GatewayPublication.login config).payload
          (signOutcomes sha256 timestampMs idMs alloc stack).cutSign :=
        (congrArg (Option.map _) (GatewayPublication.buildSign_cutSign _ config _)).symm
    _ = _ := GatewayPublication.payload_login (sized_cutSign hsize htimestamp hid alloc stack) h
    _ = _ := map_cutSign hsize alloc stack _ _

end Requests

namespace SubDeviceConfig

variable {config : SubDeviceConfig} {idMs : ℤ} {timestamp clientId sign sign' : Bytes}

theorem topoAddText_inj (h : config.topoAddText idMs timestamp clientId sign =
    config.topoAddText idMs timestamp clientId sign') : sign = sign' := by
  simpa only [topoAddText, List.append_cancel_left_eq, List.append_cancel_right_eq] using h

end SubDeviceConfig

/-! ## When the sign is right -/

/-- The helper is the keyed hash for a secret that fits a block. -/
theorem coreHmacSha256_of_le (sha256 : Bytes → Bytes) {secret : Bytes} (hsecret : secret.length ≤ 64)
    (text output : Bytes) :
    coreHmacSha256 sha256 text secret output = Hmac.hmac sha256 64 secret text := by
  rw [Hmac.hmac_of_le sha256 64 hsecret]
  exact if_neg (Nat.not_lt.2 hsecret)

/-- For a longer one it is whatever the stack held. -/
theorem coreHmacSha256_of_lt (sha256 : Bytes → Bytes) {secret : Bytes} (hsecret : 64 < secret.length)
    (text output : Bytes) : coreHmacSha256 sha256 text secret output = output :=
  if_pos hsecret

/-- Which text is hashed does not depend on the stack, and the right one is as well. -/
theorem forall_stack_iff {sha256 : Bytes → Bytes} {secret plain text : Bytes} :
    (∀ stack : SignStack, Hmac.hex (coreHmacSha256 sha256 plain secret stack.sign) =
      expectedSign sha256 secret text) ↔
    secret.length ≤ 64 ∧ Hmac.hmac sha256 64 secret plain = Hmac.hmac sha256 64 secret text := by
  constructor
  · intro hall
    have hdigest : ∀ stack : SignStack, coreHmacSha256 sha256 plain secret stack.sign =
        Hmac.hmac sha256 64 secret text := fun stack => Hmac.hex_injective (hall stack)
    have hsecret : secret.length ≤ 64 := by
      by_contra hlong
      have hlong : 64 < secret.length := Nat.lt_of_not_le hlong
      -- two stacks, one sign
      have h₀ := hdigest ⟨List.replicate 32 0, [], List.length_replicate⟩
      have h₁ := hdigest ⟨List.replicate 32 1, [], List.length_replicate⟩
      rw [coreHmacSha256_of_lt sha256 hlong] at h₀ h₁
      exact absurd (h₀.trans h₁.symm) (by decide)
    refine ⟨hsecret, ?_⟩
    have hone := hdigest ⟨List.replicate 32 0, [], List.length_replicate⟩
    rwa [coreHmacSha256_of_le sha256 hsecret] at hone
  · rintro ⟨hsecret, hhash⟩ stack
    rw [coreHmacSha256_of_le sha256 hsecret, hhash, expectedSign]

/-- **When the requests are signed right**: the secret fits a block, and the text to sign was put
together, for which memory is needed from 256 bytes on, or has the hash of the empty text. -/
theorem signed_right_iff {sha256 : Bytes → Bytes} (hsize : ∀ m, (sha256 m).length = 32)
    {file : Option Bytes} {config : DeviceConfig} (hload : deviceConfigLoad file = some config)
    {subDevice : SubDeviceConfig} (hmem : subDevice ∈ config.table) {timestampMs idMs : ℤ}
    (htimestamp : -2 ^ 63 ≤ timestampMs ∧ timestampMs < 2 ^ 63)
    (hid : -2 ^ 63 ≤ idMs ∧ idMs < 2 ^ 63) (alloc : ℕ → Bool) :
    SignedRight sha256 timestampMs idMs alloc subDevice ↔
      (alloc 0 = true → subDevice.deviceSecret.length ≤ 64 ∧
        ((subDevice.signedText timestampMs).length < 256 ∨ alloc 1 = true ∨
          Hmac.hmac sha256 64 subDevice.deviceSecret [] =
            Hmac.hmac sha256 64 subDevice.deviceSecret (subDevice.signedText timestampMs))) := by
  have hbounded := (deviceConfigLoad_bounded hload).2.2 subDevice hmem
  -- what is hashed: the whole text, or nothing
  have hsigned : ∀ plain, builtText alloc (subDevice.signedText timestampMs) = some plain →
      (SignedRight sha256 timestampMs idMs alloc subDevice ↔
        subDevice.deviceSecret.length ≤ 64 ∧ Hmac.hmac sha256 64 subDevice.deviceSecret plain =
          Hmac.hmac sha256 64 subDevice.deviceSecret (subDevice.signedText timestampMs)) := by
    intro plain hplain
    rw [← forall_stack_iff]
    refine forall_congr' fun stack => ?_
    rw [payload_topoAdd_sign hsize hbounded htimestamp hid, hplain,
      payload_login_sign hsize hbounded htimestamp hid, hplain, Option.map_some, Option.map_some]
    constructor
    · intro hright
      exact SubDeviceConfig.topoAddText_inj (hright.1 _ rfl)
    · intro hsign
      rw [hsign]
      exact ⟨fun payload hpayload => (Option.mem_some_iff.1 hpayload).symm,
        fun payload hpayload => (Option.mem_some_iff.1 hpayload).symm⟩
  cases halloc : alloc 0 with
  | false =>
    have hnone : builtText alloc (subDevice.signedText timestampMs) = none := if_pos halloc
    refine iff_of_true (fun stack => ?_) (fun h => by cases h)
    rw [payload_topoAdd_sign hsize hbounded htimestamp hid,
      payload_login_sign hsize hbounded htimestamp hid, hnone]
    constructor
    · intro payload hpayload
      cases hpayload
    · intro payload hpayload
      cases hpayload
  | true =>
    have hbuilt : builtText alloc (subDevice.signedText timestampMs) =
        if (subDevice.signedText timestampMs).length < 256 ∨ alloc 1 = true then
          some (subDevice.signedText timestampMs) else some [] := if_neg (by simp [halloc])
    by_cases hmemory : (subDevice.signedText timestampMs).length < 256 ∨ alloc 1 = true
    · rw [hsigned _ (hbuilt.trans (if_pos hmemory))]
      exact ⟨fun h _ => ⟨h.1, hmemory.imp_right Or.inl⟩, fun h => ⟨(h rfl).1, rfl⟩⟩
    · rw [hsigned _ (hbuilt.trans (if_neg hmemory))]
      refine ⟨fun h _ => ⟨h.1, Or.inr (Or.inr h.2)⟩, fun h => ⟨(h rfl).1, ?_⟩⟩
      rcases (h rfl).2 with hshort | halloc' | hhash
      · exact absurd (Or.inl hshort) hmemory
      · exact absurd (Or.inr halloc') hmemory
      · exact hhash

/-! ## Instances -/

/-- SHA-256 where the sample device is signed. -/
def sampleSha256 (message : Bytes) : Bytes :=
  let pad : Bytes := ascii "k" ++ List.replicate 63 0
  let inner : Bytes := [60, 169, 33, 192, 83, 168, 237, 68, 28, 233, 169, 190, 137, 130, 53, 194, 164,
    224, 208, 161, 185, 122, 245, 188, 71, 206, 203, 104, 150, 133, 221, 116]
  if message = pad.map (· ^^^ 0x36) ++ ascii "clientIdsp&sddeviceNamesdproductKeysptimestamp0" then
    inner
  else if message = pad.map (· ^^^ 0x5c) ++ inner then
    [120, 134, 91, 8, 201, 183, 92, 40, 86, 238, 68, 118, 116, 232, 67, 19, 103, 77, 179, 200, 82,
      91, 176, 109, 196, 37, 83, 178, 254, 91, 196, 39]
  else List.replicate 32 0

theorem sampleSha256_length (message : Bytes) : (sampleSha256 message).length = 32 := by
  unfold sampleSha256
  dsimp only
  split_ifs
  · rfl
  · rfl
  · exact List.length_replicate

/-- The sub-device of the sample configuration. -/
def sampleSubDevice : SubDeviceConfig := ⟨ascii "sp", ascii "sd", ascii "k", ascii "hmacsha256"⟩

theorem signed_right_iff_sample :
    (expectedSign sampleSha256 sampleSubDevice.deviceSecret (sampleSubDevice.signedText 0) =
      ascii "78865B08C9B75C2856EE447674E84313674DB3C8525BB06DC42553B2FE5BC427") ∧
    (SignedRight sampleSha256 0 0 (fun _ => true) sampleSubDevice ↔
      (true = true → sampleSubDevice.deviceSecret.length ≤ 64 ∧
        ((sampleSubDevice.signedText 0).length < 256 ∨ true = true ∨
          Hmac.hmac sampleSha256 64 sampleSubDevice.deviceSecret [] =
            Hmac.hmac sampleSha256 64 sampleSubDevice.deviceSecret
              (sampleSubDevice.signedText 0)))) := by
  refine ⟨by decide +kernel, ?_⟩
  obtain ⟨config, hload, htable⟩ := Option.map_eq_some_iff.1 table_sampleConfigFile
  exact signed_right_iff sampleSha256_length hload (htable ▸ List.mem_singleton.2 rfl) (by norm_num)
    (by norm_num) fun _ => true

/-- A secret of 65 bytes, which a configuration has room for. -/
def longSecretFile : Bytes :=
  ascii "\x7b\"productKey\":\"pk\",\"deviceName\":\"dn\",\"deviceSecret\":\"s\"," ++
    (ascii "\"subDevice\":[\x7b\"productKey\":\"sp\",\"deviceName\":\"sd\",\"deviceSecret\":\"" ++
      (List.replicate 65 107 ++ ascii "\"\x7d]\x7d"))

def longSecretDevice : SubDeviceConfig :=
  ⟨ascii "sp", ascii "sd", List.replicate 65 107, ascii "hmacsha256"⟩

/-- The same request of the same device is signed in two ways, by what two stacks held. -/
theorem long_secret_unsigned :
    let payload := fun b : UInt8 => (GatewayPublication.topoAdd longSecretDevice).payload
      (signOutcomes sampleSha256 0 0 (fun _ => true)
        ⟨List.replicate 32 b, [], List.length_replicate⟩)
    (deviceConfigLoad (some longSecretFile)).map DeviceConfig.table = some [longSecretDevice] ∧
      payload 0 ≠ payload 1 ∧ ¬ SignedRight sampleSha256 0 0 (fun _ => true) longSecretDevice := by
  intro payload
  have hsome : (payload 0).isSome = true ∧ (payload 1).isSome = true := by decide +kernel
  have hne : payload 0 ≠ payload 1 := by decide +kernel
  refine ⟨by decide +kernel, hne, fun hright => hne ?_⟩
  obtain ⟨text₀, h₀⟩ := Option.isSome_iff_exists.1 hsome.1
  obtain ⟨text₁, h₁⟩ := Option.isSome_iff_exists.1 hsome.2
  rw [h₀, h₁, (hright _).1 text₀ h₀, (hright _).1 text₁ h₁]

end IotIde
