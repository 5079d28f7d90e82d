import IotIde.Core.Sha256
import IotIde.Mqtt.Publications

/-!
# Credentials of the core

`core_sprintf` of `core_string.c`, and the text that `core_auth_mqtt_password` signs.  No text holds
a zero byte.

* `sprintfLoop`, `coreSprintf` — the code, with its index of one byte and the end of its buffer;
* `formatText`, `filledText` — a format by the pieces between its places, and the same filled in;
* `sprintfLoop_long`, `coreSprintf_iff` — when a format is filled in;
* `passwordPlainText`, `passwordText` — the text that is signed for the password;
* `password_text_inj`, `passwordText_shared` — when it names one device only;
* `coreAuthMqttPassword_eq` — the password, and what it is for a secret that is too long.
-/

namespace IotIde

open CText

/-! ## The code -/

/-- The loop of `core_sprintf`, on an index of type `uint8_t`; `buffer` is what was put in so far.
Nothing when the fuel is used up, `src` is read past its end, or a byte is written past
`bufferLen`. -/
def sprintfLoop (fmt : Bytes) (src : List (Option Bytes)) (bufferLen : ℕ) :
    ℕ → ℕ → ℕ → Bytes → Option Bytes
  | 0, _, _, _ => none
  | fuel + 1, idx, percentIdx, buffer =>
    match fmt.drop idx with
    | [] => some buffer
    | ch :: rest =>
      if ch = 37 ∧ rest.head? = some 115 then
        match src[percentIdx]? with
        | none => none
        | some value =>
          if bufferLen < (buffer ++ value.getD []).length then none
          else sprintfLoop fmt src bufferLen fuel ((idx + 2) % 256) (percentIdx + 1)
            (buffer ++ value.getD [])
      else if bufferLen < (buffer ++ [ch]).length then none
      else sprintfLoop fmt src bufferLen fuel ((idx + 1) % 256) percentIdx (buffer ++ [ch])

/-- `core_sprintf`: the code that it returns, or the text. -/
def coreSprintf (fuel : ℕ) (mallocOk : Bool) (fmt : Bytes) (src : List (Option Bytes)) :
    Option (Except ℤ Bytes) :=
  if fmt.length < 2 * src.length then some (.error STATE_USER_INPUT_OUT_RANGE)
  else
    let bufferLen := fmt.length - 2 * src.length +
      (src.map fun value => (value.getD []).length).sum
    if ¬ mallocOk then some (.error STATE_SYS_DEPEND_MALLOC_FAILED)
    else (sprintfLoop fmt src bufferLen fuel 0 0 []).map .ok

/-- `CORE_AUTH_TIMESTAMP` -/
def CORE_AUTH_TIMESTAMP : Bytes := ascii "2524608000000"

/-- `plain_text` of `core_auth_mqtt_password`. -/
def passwordPlainText (fuel : ℕ) (mallocOk : Bool) (productKey deviceName : Bytes) :
    Option (Except ℤ Bytes) :=
  coreSprintf fuel mallocOk (ascii "clientId%s.%sdeviceName%sproductKey%stimestamp%s")
    [some productKey, some deviceName, some deviceName, some productKey, some CORE_AUTH_TIMESTAMP]

/-- `core_auth_mqtt_password`, whose array `sign[32]` starts as zeros. -/
def coreAuthMqttPassword (fuel : ℕ) (mallocOk destOk : Bool)
    (productKey deviceName deviceSecret : Bytes) : Option (Except ℤ Bytes) :=
  (passwordPlainText fuel mallocOk productKey deviceName).map fun plainText =>
    plainText.bind fun plainText =>
      if ¬ destOk then .error STATE_SYS_DEPEND_MALLOC_FAILED
      else .ok (coreHex2str false
        (coreHmacSha256Contexts plainText deviceSecret (List.replicate 32 0)))

/-! ## Formats -/

/-- A format, by its first piece and the pieces behind its places. -/
def formatText (piece : Bytes) (pieces : List Bytes) : Bytes :=
  piece ++ pieces.flatMap fun q => 37 :: 115 :: q

/-- The same with values in its places. -/
def filledText (piece : Bytes) (values : List (Option Bytes)) (pieces : List Bytes) : Bytes :=
  piece ++ (values.zip pieces).flatMap fun e => e.1.getD [] ++ e.2

section Loop

variable {fmt : Bytes} {src : List (Option Bytes)} {room : ℕ}

/-- A piece without a place is copied. -/
theorem sprintfLoop_piece {piece tail : Bytes} (hplain : ¬ [37, 115] <:+: piece)
    (htail : tail.head? ≠ some 115) {fuel idx percentIdx : ℕ} {buffer : Bytes}
    (hdrop : fmt.drop idx = piece ++ tail) (hidx : idx + piece.length < 256)
    (hroom : buffer.length + piece.length ≤ room) :
    sprintfLoop fmt src room (fuel + piece.length) idx percentIdx buffer =
      sprintfLoop fmt src room fuel (idx + piece.length) percentIdx (buffer ++ piece) := by
  induction piece generalizing idx buffer with
  | nil => simp
  | cons ch piece ih =>
    rw [List.length_cons] at hidx hroom
    have hplace : ¬ (ch = 37 ∧ (piece ++ tail).head? = some 115) := by
      rintro ⟨rfl, hhead⟩
      cases piece with
      | nil => exact htail hhead
      | cons c piece =>
        obtain rfl := Option.some.inj hhead
        exact hplain ⟨[], piece, rfl⟩
    have hrest : fmt.drop (idx + 1) = piece ++ tail := by
      rw [← List.drop_drop, hdrop]
      rfl
    have hplain' : ¬ [37, 115] <:+: piece := fun h =>
      hplain (h.trans (List.suffix_cons ch piece).isInfix)
    rw [List.length_cons, ← Nat.add_assoc, sprintfLoop, hdrop, List.cons_append]
    simp only [if_neg hplace]
    rw [if_neg (by rw [List.length_append, List.length_singleton]; omega),
      Nat.mod_eq_of_lt (by omega), ih hplain' hrest (by omega)
        (by rw [List.length_append, List.length_singleton]; omega), List.append_assoc,
      List.singleton_append, Nat.add_right_comm, Nat.add_assoc]

/-- From a place on the values are put in, each before its piece. -/
theorem sprintfLoop_values {pieces : List Bytes} (hplain : ∀ q ∈ pieces, ¬ [37, 115] <:+: q)
    {values : List (Option Bytes)} (hlength : values.length = pieces.length)
    {fuel idx percentIdx : ℕ} {buffer : Bytes}
    (hdrop : fmt.drop idx = pieces.flatMap fun q => 37 :: 115 :: q)
    (hsrc : src.drop percentIdx = values)
    (hidx : idx + (pieces.flatMap fun q => 37 :: 115 :: q).length < 256)
    (hfuel : (pieces.flatMap fun q => 37 :: 115 :: q).length < fuel)
    (hroom : buffer.length +
      ((values.zip pieces).flatMap fun e => e.1.getD [] ++ e.2).length ≤ room) :
    sprintfLoop fmt src room fuel idx percentIdx buffer =
      some (buffer ++ (values.zip pieces).flatMap fun e => e.1.getD [] ++ e.2) := by
  induction pieces generalizing values fuel idx percentIdx buffer with
  | nil =>
    obtain ⟨fuel, rfl⟩ : ∃ g, fuel = g + 1 := ⟨fuel - 1, by omega⟩
    rw [List.flatMap_nil] at hdrop
    rw [sprintfLoop, hdrop]
    simp
  | cons q pieces ih =>
    cases values with
    | nil => cases hlength
    | cons value values =>
      set rest := pieces.flatMap fun q : Bytes => 37 :: 115 :: q with hrest
      have hplaces : ((q :: pieces).flatMap fun q : Bytes => 37 :: 115 :: q) =
          37 :: 115 :: (q ++ rest) := by
        rw [List.flatMap_cons]
        rfl
      have hvalues : (((value :: values).zip (q :: pieces)).flatMap fun e => e.1.getD [] ++ e.2) =
          value.getD [] ++ (q ++ (values.zip pieces).flatMap fun e => e.1.getD [] ++ e.2) := by
        simp
      rw [hplaces] at hdrop hidx hfuel
      rw [hvalues] at hroom ⊢
      simp only [List.length_cons, List.length_append] at hidx hfuel hroom
      obtain ⟨fuel, rfl⟩ : ∃ g, fuel = g + q.length + 1 := ⟨fuel - q.length - 1, by omega⟩
      have hvalue : src[percentIdx]? = some value := by
        rw [← List.head?_drop, hsrc]
        rfl
      have hsrc' : src.drop (percentIdx + 1) = values := by
        rw [← List.drop_drop, hsrc]
        rfl
      have hpiece : fmt.drop (idx + 2) = q ++ rest := by
        rw [← List.drop_drop, hdrop]
        rfl
      have hlater : fmt.drop (idx + 2 + q.length) = rest := by
        rw [← List.drop_drop, hpiece, List.drop_left]
      have hhead : rest.head? ≠ some 115 := by
        cases pieces <;> simp [hrest]
      rw [sprintfLoop, hdrop]
      simp only [List.head?_cons, and_self, if_true, hvalue]
      rw [if_neg (by rw [List.length_append]; omega), Nat.mod_eq_of_lt (by omega),
        sprintfLoop_piece (hplain q List.mem_cons_self) hhead hpiece (by omega)
          (by rw [List.length_append]; omega),
        ih (fun p hp => hplain p (List.mem_cons_of_mem _ hp)) (by simpa using hlength) hlater hsrc'
          (by omega) (by omega) (by simp only [List.length_append]; omega)]
      simp only [List.append_assoc]

end Loop

/-- On a format of 256 bytes or more the loop does not come to its end. -/
theorem sprintfLoop_long {fmt : Bytes} (hlong : 256 ≤ fmt.length) (src : List (Option Bytes))
    (room fuel : ℕ) {idx : ℕ} (hidx : idx < 256) (percentIdx : ℕ) (buffer : Bytes) :
    sprintfLoop fmt src room fuel idx percentIdx buffer = none := by
  induction fuel generalizing idx percentIdx buffer with
  | zero => rfl
  | succ fuel ih =>
    have hmod : ∀ n, n % 256 < 256 := fun n => Nat.mod_lt n (by norm_num)
    obtain ⟨ch, rest, hdrop⟩ := List.exists_cons_of_length_pos
      (show 0 < (fmt.drop idx).length by rw [List.length_drop]; omega)
    rw [sprintfLoop, hdrop]
    dsimp only
    split_ifs
    · cases src[percentIdx]? with
      | none => rfl
      | some value =>
        dsimp only
        split_ifs
        · rfl
        · exact ih (hmod _) _ _
    · rfl
    · exact ih (hmod _) _ _

theorem length_places (pieces : List Bytes) :
    (pieces.flatMap fun q => 37 :: 115 :: q).length =
      2 * pieces.length + (pieces.map List.length).sum := by
  induction pieces with
  | nil => rfl
  | cons q pieces ih =>
    rw [List.flatMap_cons, List.length_append, ih]
    simp only [List.length_cons, List.map_cons, List.sum_cons]
    omega

theorem length_filled {values : List (Option Bytes)} {pieces : List Bytes}
    (hlength : values.length = pieces.length) :
    ((values.zip pieces).flatMap fun e => e.1.getD [] ++ e.2).length =
      (values.map fun value => (value.getD []).length).sum + (pieces.map List.length).sum := by
  induction pieces generalizing values with
  | nil =>
    obtain rfl := List.length_eq_zero_iff.1 hlength
    rfl
  | cons q pieces ih =>
    cases values with
    | nil => cases hlength
    | cons value values =>
      rw [List.zip_cons_cons, List.flatMap_cons, List.length_append,
        ih (by simpa using hlength)]
      simp only [List.length_append, List.map_cons, List.sum_cons]
      omega

theorem coreSprintf_filled {piece : Bytes} {pieces : List Bytes}
    (hplain : ∀ q ∈ piece :: pieces, ¬ [37, 115] <:+: q) {values : List (Option Bytes)}
    (hlength : values.length = pieces.length) (hshort : (formatText piece pieces).length < 256)
    {fuel : ℕ} (hfuel : (formatText piece pieces).length < fuel) :
    coreSprintf fuel true (formatText piece pieces) values =
      some (.ok (filledText piece values pieces)) := by
  have hfilled := length_filled hlength
  have hplaces := length_places pieces
  have hlen : (formatText piece pieces).length =
      piece.length + (2 * pieces.length + (pieces.map List.length).sum) := by
    rw [formatText, List.length_append, hplaces]
  have hhead : (pieces.flatMap fun q : Bytes => 37 :: 115 :: q).head? ≠ some 115 := by
    cases pieces <;> simp
  obtain ⟨fuel, rfl⟩ : ∃ g, fuel = g + piece.length := ⟨fuel - piece.length, by omega⟩
  rw [coreSprintf, if_neg (by omega)]
  simp only [not_true, if_false]
  rw [sprintfLoop_piece (hplain piece List.mem_cons_self) hhead rfl (by omega)
      (by rw [List.length_nil]; omega),
    sprintfLoop_values (fun q hq => hplain q (List.mem_cons_of_mem _ hq)) hlength
      (by rw [Nat.zero_add, formatText, List.drop_left]) rfl (by omega) (by omega)
      (by rw [hfilled, List.length_append, List.length_nil]; omega)]
  rfl

theorem coreSprintf_long {piece : Bytes} {pieces : List Bytes} {values : List (Option Bytes)}
    (hlong : 256 ≤ (formatText piece pieces).length) (hlength : values.length = pieces.length)
    (fuel : ℕ) : coreSprintf fuel true (formatText piece pieces) values = none := by
  have hplaces := length_places pieces
  rw [coreSprintf, if_neg (by rw [formatText, List.length_append, hplaces]; omega)]
  simp only [not_true, if_false]
  rw [sprintfLoop_long hlong _ _ _ (by norm_num)]
  rfl

/-- **`core_sprintf` fills a format in, without leaving its buffer, just when the format has less
than 256 bytes.**  On a longer one its index never gets to the end, in whatever number of
rounds. -/
theorem coreSprintf_iff {piece : Bytes} {pieces : List Bytes}
    (hplain : ∀ q ∈ piece :: pieces, ¬ [37, 115] <:+: q) {values : List (Option Bytes)}
    (hlength : values.length = pieces.length) :
    ((∃ fuel, coreSprintf fuel true (formatText piece pieces) values =
      some (.ok (filledText piece values pieces))) ↔ (formatText piece pieces).length < 256) ∧
    (256 ≤ (formatText piece pieces).length → ∀ fuel,
      coreSprintf fuel true (formatText piece pieces) values = none) := by
  refine ⟨⟨?_, fun hshort => ?_⟩, fun hlong fuel => coreSprintf_long hlong hlength fuel⟩
  · rintro ⟨fuel, h⟩
    by_contra hlong
    rw [coreSprintf_long (not_lt.1 hlong) hlength] at h
    cases h
  · exact ⟨_, coreSprintf_filled hplain hlength hshort (Nat.lt_succ_self _)⟩

theorem coreSprintf_iff_names :
    (∃ fuel, coreSprintf fuel true (formatText [] [ascii "&", []])
      [some (ascii "lamp"), some (ascii "a1")] =
        some (.ok (filledText [] [some (ascii "lamp"), some (ascii "a1")] [ascii "&", []]))) ∧
    ∀ fuel, coreSprintf fuel true (formatText (List.replicate 256 97) [[]])
      [some (ascii "lamp")] = none := by
  have hlong : ∀ q ∈ [List.replicate 256 (97 : UInt8), []], ¬ [37, 115] <:+: q := by
    intro q hq hinfix
    have hmem : (37 : UInt8) ∈ q := hinfix.subset List.mem_cons_self
    rcases List.mem_cons.1 hq with rfl | hq
    · exact absurd (List.eq_of_mem_replicate hmem) (by decide)
    · obtain rfl := List.mem_singleton.1 hq
      cases hmem
  refine ⟨(coreSprintf_iff (by decide) rfl).1.2 (by decide), (coreSprintf_iff hlong rfl).2 ?_⟩
  rw [formatText, List.length_append, List.length_replicate]
  exact Nat.le_add_right 256 _

/-! ## The text under the password -/

/-- What `core_auth_mqtt_password` signs. -/
def passwordText (productKey deviceName : Bytes) : Bytes :=
  ascii "clientId" ++ (productKey ++ 46 :: (deviceName ++ (ascii "deviceName" ++ (deviceName ++
    (ascii "productKey" ++ (productKey ++ (ascii "timestamp" ++ CORE_AUTH_TIMESTAMP)))))))

theorem passwordPlainText_eq (productKey deviceName : Bytes) {fuel : ℕ} (hfuel : 48 < fuel) :
    passwordPlainText fuel true productKey deviceName =
      some (.ok (passwordText productKey deviceName)) := by
  have hfmt : ascii "clientId%s.%sdeviceName%sproductKey%stimestamp%s" =
      formatText (ascii "clientId") [ascii ".", ascii "deviceName", ascii "productKey",
        ascii "timestamp", []] := by decide
  have hdot : ascii "." = [46] := by decide
  rw [passwordPlainText, hfmt, coreSprintf_filled (by decide) rfl (by decide)
    (lt_of_le_of_lt (by decide) hfuel)]
  simp [filledText, passwordText, hdot]

theorem takeWhile_key {key rest : Bytes} (h : 46 ∉ key) :
    (key ++ 46 :: rest).takeWhile (· ≠ 46) = key := by
  have hall : ∀ b ∈ key, decide (b ≠ 46) = true := by
    intro b hb
    rw [decide_eq_true_eq]
    rintro rfl
    exact h hb
  rw [List.takeWhile_append_of_pos hall, List.takeWhile_cons_of_neg (by simp), List.append_nil]

/-- **The text under the password names one device only, as long as product keys hold no dot.** -/
theorem password_text_inj {productKey productKey' : Bytes} (h : 46 ∉ productKey)
    (h' : 46 ∉ productKey') (deviceName deviceName' : Bytes) {fuel : ℕ} (hfuel : 48 < fuel) :
    passwordPlainText fuel true productKey deviceName =
        passwordPlainText fuel true productKey' deviceName' ↔
      productKey = productKey' ∧ deviceName = deviceName' := by
  rw [passwordPlainText_eq _ _ hfuel, passwordPlainText_eq _ _ hfuel]
  constructor
  · intro heq
    have htext : passwordText productKey deviceName = passwordText productKey' deviceName' :=
      Except.ok.inj (Option.some.inj heq)
    simp only [passwordText, List.append_cancel_left_eq] at htext
    have hkey := congrArg (List.takeWhile (· ≠ 46)) htext
    rw [takeWhile_key h, takeWhile_key h'] at hkey
    subst hkey
    have hrest := (List.cons.inj (List.append_cancel_left htext)).2
    have hlen := congrArg List.length hrest
    simp only [List.length_append] at hlen
    exact ⟨rfl, (List.append_inj hrest (by omega)).1⟩
  · rintro ⟨rfl, rfl⟩
    rfl

theorem password_text_inj_lamp :
    passwordPlainText 49 true (ascii "a1") (ascii "lamp") =
        passwordPlainText 49 true (ascii "a1") (ascii "fan") ↔
      ascii "a1" = ascii "a1" ∧ ascii "lamp" = ascii "fan" :=
  password_text_inj (by decide) (by decide) _ _ (by norm_num)

/-- With a dot in its product key a device may share the text of another one. -/
theorem passwordText_shared :
    passwordText (ascii "B") (ascii "AproductKeyB.A") =
      passwordText (ascii "B.AproductKeyB") (ascii "A") := by
  decide

/-! ## The password -/

/-- **The password is the keyed hash of the text in digits, for a secret that fits a block; every
longer secret gives the same password, 64 zeros.** -/
theorem coreAuthMqttPassword_eq {productKey deviceName : Bytes}
    (htext : (passwordText productKey deviceName).length < 2 ^ 32) (deviceSecret : Bytes)
    {fuel : ℕ} (hfuel : 48 < fuel) :
    coreAuthMqttPassword fuel true true productKey deviceName deviceSecret =
      some (.ok (if deviceSecret.length ≤ 64 then
        Hmac.hex (Hmac.hmac Sha2.hash 64 deviceSecret (passwordText productKey deviceName))
      else List.replicate 64 48)) := by
  rw [coreAuthMqttPassword, passwordPlainText_eq _ _ hfuel]
  show some (Except.ok (coreHex2str false _)) = _
  rw [coreHex2str_eq, hmacContexts_eq htext]
  split_ifs with hsecret
  · rw [coreHmacSha256_of_le Sha2.hash hsecret]
  · rw [coreHmacSha256_of_lt Sha2.hash (not_le.1 hsecret)]
    rfl

theorem coreAuthMqttPassword_eq_long :
    coreAuthMqttPassword 49 true true (ascii "a1") (ascii "lamp") (List.replicate 65 115) =
      some (.ok (if (List.replicate 65 (115 : UInt8)).length ≤ 64 then
        Hmac.hex (Hmac.hmac Sha2.hash 64 (List.replicate 65 115)
          (passwordText (ascii "a1") (ascii "lamp")))
      else List.replicate 64 48)) :=
  coreAuthMqttPassword_eq (by decide) _ (by norm_num)

end IotIde
