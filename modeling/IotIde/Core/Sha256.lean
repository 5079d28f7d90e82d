import IotIde.Foundation.Sha2
import IotIde.Gateway.Sign

/-!
# SHA-256 of the core

`core_sha256.c`: a context that is updated with the pieces of a message and then finished.

* `CoreSha256Context`, `coreSha256Process`, `coreSha256Update`, `coreSha256Finish` — the code;
* `coreSha256Process_eq` — a block is processed as the standard has it;
* `Tracks` — the context holds the pieces that it was updated with;
* `coreSha256_pieces` — the digest of a message in any pieces;
* `coreHmacSha256Contexts_eq` — the keyed hash over contexts.
-/

namespace IotIde

open CText BlockHash Sha2

/-! ## The code -/

/-- `core_sha256_context_t`; `state` holds its eight words. -/
structure CoreSha256Context where
  total₀ : UInt32
  total₁ : UInt32
  state : State
  buffer : Bytes
  is224 : UInt8

/-- `core_sha256_init` -/
def coreSha256Init : CoreSha256Context :=
  ⟨0, 0, ⟨0, 0, 0, 0, 0, 0, 0, 0⟩, List.replicate 64 0, 0⟩

/-- `core_sha256_starts` -/
def coreSha256Starts (ctx : CoreSha256Context) : CoreSha256Context :=
  { ctx with
    total₀ := 0
    total₁ := 0
    state := ⟨0x6A09E667, 0xBB67AE85, 0x3C6EF372, 0xA54FF53A, 0x510E527F, 0x9B05688C, 0x1F83D9AB,
      0x5BE0CD19⟩
    is224 := 0 }

namespace CoreSha256

/-- `K` -/
def K : List UInt32 :=
  [0x428A2F98, 0x71374491, 0xB5C0FBCF, 0xE9B5DBA5,
    0x3956C25B, 0x59F111F1, 0x923F82A4, 0xAB1C5ED5,
    0xD807AA98, 0x12835B01, 0x243185BE, 0x550C7DC3,
    0x72BE5D74, 0x80DEB1FE, 0x9BDC06A7, 0xC19BF174,
    0xE49B69C1, 0xEFBE4786, 0x0FC19DC6, 0x240CA1CC,
    0x2DE92C6F, 0x4A7484AA, 0x5CB0A9DC, 0x76F988DA,
    0x983E5152, 0xA831C66D, 0xB00327C8, 0xBF597FC7,
    0xC6E00BF3, 0xD5A79147, 0x06CA6351, 0x14292967,
    0x27B70A85, 0x2E1B2138, 0x4D2C6DFC, 0x53380D13,
    0x650A7354, 0x766A0ABB, 0x81C2C92E, 0x92722C85,
    0xA2BFE8A1, 0xA81A664B, 0xC24B8B70, 0xC76C51A3,
    0xD192E819, 0xD6990624, 0xF40E3585, 0x106AA070,
    0x19A4C116, 0x1E376C08, 0x2748774C, 0x34B0BCB5,
    0x391C0CB3, 0x4ED8AA4A, 0x5B9CCA4F, 0x682E6FF3,
    0x748F82EE, 0x78A5636F, 0x84C87814, 0x8CC70208,
    0x90BEFFFA, 0xA4506CEB, 0xBEF9A3F7, 0xC67178F2]

/-- `SHR` -/
def shr (x n : UInt32) : UInt32 := (x &&& 0xFFFFFFFF) >>> n

/-- `ROTR` -/
def rotrWord (x n : UInt32) : UInt32 := shr x n ||| x <<< (32 - n)

/-- `S0` -/
def s0 (x : UInt32) : UInt32 := rotrWord x 7 ^^^ rotrWord x 18 ^^^ shr x 3

/-- `S1` -/
def s1 (x : UInt32) : UInt32 := rotrWord x 17 ^^^ rotrWord x 19 ^^^ shr x 10

/-- `S2` -/
def s2 (x : UInt32) : UInt32 := rotrWord x 2 ^^^ rotrWord x 13 ^^^ rotrWord x 22

/-- `S3` -/
def s3 (x : UInt32) : UInt32 := rotrWord x 6 ^^^ rotrWord x 11 ^^^ rotrWord x 25

/-- `F0` -/
def f0 (x y z : UInt32) : UInt32 := (x &&& y) ||| (z &&& (x ||| y))

/-- `F1` -/
def f1 (x y z : UInt32) : UInt32 := z ^^^ (x &&& (y ^^^ z))

/-- `GET_UINT32_BE` -/
def getUint32Be (data : Bytes) (i : ℕ) : UInt32 :=
  (data.getD i 0).toUInt32 <<< 24 ||| (data.getD (i + 1) 0).toUInt32 <<< 16 |||
    (data.getD (i + 2) 0).toUInt32 <<< 8 ||| (data.getD (i + 3) 0).toUInt32

/-- `PUT_UINT32_BE` -/
def putUint32Be (n : UInt32) : Bytes :=
  [(n >>> 24).toUInt8, (n >>> 16).toUInt8, (n >>> 8).toUInt8, n.toUInt8]

end CoreSha256

open CoreSha256

/-- A round of the loop of `core_sha256_process`: `R` or a word of the data, `P`, and the places of
`A` moved on by one. -/
def processRound (data : Bytes) (aw : State × List UInt32) (i : ℕ) : State × List UInt32 :=
  let (A, W) := aw
  let x := if i < 16 then getUint32Be data (4 * i)
    else s1 (W.getD (i - 2) 0) + W.getD (i - 7) 0 + s0 (W.getD (i - 15) 0) + W.getD (i - 16) 0
  let temp₁ := A.h + s3 A.e + f1 A.e A.f A.g + K.getD i 0 + x
  let temp₂ := s2 A.a + f0 A.a A.b A.c
  (⟨temp₁ + temp₂, A.a, A.b, A.c, A.d + temp₁, A.e, A.f, A.g⟩, W ++ [x])

/-- `core_sha256_process`, on the words of the state. -/
def coreSha256Process (state : State) (data : Bytes) : State :=
  state.add ((List.range 64).foldl (processRound data) (state, [])).1

/-- The loop of `core_sha256_update`, with what is left of the input. -/
def processBlocks : ℕ → State → Bytes → State × Bytes
  | 0, state, input => (state, input)
  | n + 1, state, input =>
    processBlocks n (coreSha256Process state (input.take 64)) (input.drop 64)

/-- What `core_sha256_update` does once no full block waits in its buffer. -/
def updateTail (ctx : CoreSha256Context) (left : ℕ) (input : Bytes) : CoreSha256Context :=
  let (state, input) := processBlocks (input.length / 64) ctx.state input
  { ctx with
    state := state
    buffer := ctx.buffer.take left ++ input ++ ctx.buffer.drop (left + input.length) }

/-- `core_sha256_update` -/
def coreSha256Update (ctx : CoreSha256Context) (input : Bytes) : CoreSha256Context :=
  let ilen := input.length
  if ilen = 0 then ctx
  else
    let left := (ctx.total₀ &&& 0x3F).toNat
    let fill := 64 - left
    let total₀ := ctx.total₀ + UInt32.ofNat ilen
    let total₁ := if total₀ < UInt32.ofNat ilen then ctx.total₁ + 1 else ctx.total₁
    let ctx := { ctx with total₀ := total₀, total₁ := total₁ }
    if left ≠ 0 ∧ fill ≤ ilen then
      let buffer := ctx.buffer.take left ++ input.take fill
      updateTail { ctx with buffer := buffer, state := coreSha256Process ctx.state buffer } 0
        (input.drop fill)
    else updateTail ctx left input

/-- `sha256_padding` -/
def sha256Padding : Bytes := 0x80 :: List.replicate 63 0

/-- `core_sha256_finish`, by what it leaves in `output`, which held the given bytes. -/
def coreSha256Finish (ctx : CoreSha256Context) (output : Bytes) : Bytes :=
  let high := ctx.total₀ >>> 29 ||| ctx.total₁ <<< 3
  let low := ctx.total₀ <<< 3
  let msglen := putUint32Be high ++ putUint32Be low
  let last := (ctx.total₀ &&& 0x3F).toNat
  let padn := if last < 56 then 56 - last else 120 - last
  let ctx := coreSha256Update (coreSha256Update ctx (sha256Padding.take padn)) msglen
  let s := ctx.state
  [s.a, s.b, s.c, s.d, s.e, s.f, s.g].flatMap putUint32Be ++
    if ctx.is224 = 0 then putUint32Be s.h else output.drop 28

/-- `core_sha256` -/
def coreSha256 (input output : Bytes) : Bytes :=
  coreSha256Finish (coreSha256Update (coreSha256Starts coreSha256Init) input) output

/-- `core_hmac_sha256`, by what it leaves in `output`. -/
def coreHmacSha256Contexts (msg key output : Bytes) : Bytes :=
  if SHA256_KEY_IOPAD_SIZE < key.length then output
  else
    let pad := key ++ List.replicate (SHA256_KEY_IOPAD_SIZE - key.length) 0
    let start := coreSha256Starts coreSha256Init
    let context := coreSha256Update (coreSha256Update start (pad.map (· ^^^ 0x36))) msg
    let output := coreSha256Finish context output
    let context := coreSha256Update (coreSha256Update start (pad.map (· ^^^ 0x5c))) output
    coreSha256Finish context output

/-! ## One block -/

namespace CoreSha256

theorem shr_eq (x n : UInt32) : shr x n = x >>> n := by
  have hmask : x &&& 0xFFFFFFFF = x := by
    have hones : (0xFFFFFFFF : UInt32).toNat = 2 ^ 32 - 1 := rfl
    rw [← UInt32.toNat_inj, UInt32.toNat_and, hones, Nat.and_two_pow_sub_one_eq_mod,
      Nat.mod_eq_of_lt x.toNat_lt]
  rw [shr, hmask]

theorem rotrWord_eq (x : UInt32) {n : ℕ} (h₀ : 0 < n) (h : n < 32) :
    rotrWord x (UInt32.ofNat n) = rotr n x := by
  have hn : (UInt32.ofNat n).toNat = n := by
    rw [UInt32.toNat_ofNat', Nat.mod_eq_of_lt (by omega)]
  have h32 : (32 : UInt32).toNat = 32 := rfl
  have hsub : (32 - UInt32.ofNat n).toNat = 32 - n := by
    rw [UInt32.toNat_sub_of_le _ _ (UInt32.le_iff_toNat_le.2 (by rw [hn, h32]; omega)), hn, h32]
  have hright : (x >>> UInt32.ofNat n).toBitVec = x.toBitVec >>> n := by
    rw [UInt32.toBitVec_shiftRight, BitVec.ushiftRight_eq', BitVec.toNat_umod]
    show x.toBitVec >>> ((UInt32.ofNat n).toNat % 32) = _
    rw [hn, Nat.mod_eq_of_lt h]
  have hleft : (x <<< (32 - UInt32.ofNat n)).toBitVec = x.toBitVec <<< (32 - n) := by
    rw [UInt32.toBitVec_shiftLeft, BitVec.shiftLeft_eq', BitVec.toNat_umod]
    show x.toBitVec <<< ((32 - UInt32.ofNat n).toNat % 32) = _
    rw [hsub, Nat.mod_eq_of_lt (by omega)]
  rw [← UInt32.toBitVec_inj, rotrWord, shr_eq, rotr, BitVec.rotateRight_def, Nat.mod_eq_of_lt h,
    UInt32.toBitVec_or, hright, hleft]

theorem f0_eq (x y z : UInt32) : f0 x y z = maj x y z := by
  rw [← UInt32.toBitVec_inj]
  ext i
  simp only [f0, maj, UInt32.toBitVec_or, UInt32.toBitVec_and, UInt32.toBitVec_xor,
    BitVec.getElem_or, BitVec.getElem_and, BitVec.getElem_xor]
  cases x.toBitVec[i] <;> cases y.toBitVec[i] <;> cases z.toBitVec[i] <;> rfl

theorem f1_eq (x y z : UInt32) : f1 x y z = ch x y z := by
  rw [← UInt32.toBitVec_inj]
  ext i
  simp only [f1, ch, UInt32.toBitVec_not, UInt32.toBitVec_and, UInt32.toBitVec_xor,
    BitVec.getElem_not, BitVec.getElem_and, BitVec.getElem_xor]
  cases x.toBitVec[i] <;> cases y.toBitVec[i] <;> cases z.toBitVec[i] <;> rfl

theorem s0_eq (x : UInt32) : s0 x = smallSigma0 x := by
  rw [s0, smallSigma0, shr_eq, ← rotrWord_eq x (by norm_num) (by norm_num),
    ← rotrWord_eq x (by norm_num) (by norm_num)]
  rfl

theorem s1_eq (x : UInt32) : s1 x = smallSigma1 x := by
  rw [s1, smallSigma1, shr_eq, ← rotrWord_eq x (by norm_num) (by norm_num),
    ← rotrWord_eq x (by norm_num) (by norm_num)]
  rfl

theorem s2_eq (x : UInt32) : s2 x = bigSigma0 x := by
  rw [s2, bigSigma0, ← rotrWord_eq x (by norm_num) (by norm_num),
    ← rotrWord_eq x (by norm_num) (by norm_num), ← rotrWord_eq x (by norm_num) (by norm_num)]
  rfl

theorem s3_eq (x : UInt32) : s3 x = bigSigma1 x := by
  rw [s3, bigSigma1, ← rotrWord_eq x (by norm_num) (by norm_num),
    ← rotrWord_eq x (by norm_num) (by norm_num), ← rotrWord_eq x (by norm_num) (by norm_num)]
  rfl

/-- The table holds the constants of the standard. -/
theorem K_eq : K = roundConstants := by decide +kernel

end CoreSha256

theorem starts_state (ctx : CoreSha256Context) : (coreSha256Starts ctx).state = initialState := by
  have hinit : (coreSha256Starts coreSha256Init).state = initialState := by decide +kernel
  exact hinit

/-- The rounds, on the schedule as far as they have filled it. -/
theorem foldl_processRound (data : Bytes) (state : State) {n : ℕ} (hn : n ≤ 64) :
    (List.range n).foldl (processRound data) (state, []) =
      (((roundConstants.take n).zip (schedule data n)).foldl round state, schedule data n) := by
  induction n with
  | zero => rfl
  | succ n ih =>
    have hlen : roundConstants.length = 64 := K_eq ▸ rfl
    have hk : roundConstants[n]? = some (K.getD n 0) := by
      rw [K_eq, List.getD_eq_getElem?_getD, List.getElem?_eq_getElem (by omega)]
      rfl
    rw [List.range_succ, List.foldl_append, ih (by omega), List.foldl_cons, List.foldl_nil,
      List.take_add_one, hk, schedule, List.zip_append (by
        rw [schedule_length, List.length_take, hlen]; omega)]
    simp only [Option.toList_some, List.zip_cons_cons, List.zip_nil_right, List.foldl_append,
      List.foldl_cons, List.foldl_nil, processRound, Sha2.round, s0_eq, s1_eq, s2_eq, s3_eq, f0_eq,
      f1_eq, getUint32Be, word]

/-- **A block is processed as the standard has it.** -/
theorem coreSha256Process_eq (state : State) (data : Bytes) :
    coreSha256Process state data = compress state data := by
  have htake : roundConstants.take 64 = roundConstants :=
    List.take_of_length_le (K_eq ▸ le_rfl)
  rw [coreSha256Process, foldl_processRound data state le_rfl, htake, compress]

theorem processBlocks_eq (n : ℕ) (state : State) (input : Bytes) :
    processBlocks n state input =
      ((blocks 64 n input).foldl compress state, input.drop (64 * n)) := by
  induction n generalizing state input with
  | zero => rfl
  | succ n ih =>
    rw [processBlocks, ih, coreSha256Process_eq, blocks, List.foldl_cons, List.drop_drop,
      Nat.mul_succ, Nat.add_comm]

/-! ## The pieces of a message -/

/-- The context stands where the text leads to. -/
structure Tracks (ctx : CoreSha256Context) (text : Bytes) : Prop where
  total : ctx.total₀.toNat + 2 ^ 32 * ctx.total₁.toNat = text.length % 2 ^ 64
  buffer_length : ctx.buffer.length = 64
  absorbed : absorb compress 64 (initialState, []) text =
    (ctx.state, ctx.buffer.take (text.length % 64))
  is224 : ctx.is224 = 0

theorem tracks_starts {ctx : CoreSha256Context} (hbuffer : ctx.buffer.length = 64) :
    Tracks (coreSha256Starts ctx) [] where
  total := rfl
  buffer_length := hbuffer
  absorbed := by rw [starts_state]; rfl
  is224 := rfl

theorem Tracks.left {ctx : CoreSha256Context} {text : Bytes} (h : Tracks ctx text) :
    (ctx.total₀ &&& 0x3F).toNat = text.length % 64 := by
  have htotal := h.total
  rw [UInt32.toNat_and, show (0x3F : UInt32).toNat = 2 ^ 6 - 1 from rfl,
    Nat.and_two_pow_sub_one_eq_mod]
  omega

/-- What the tail of an update leaves. -/
theorem updateTail_absorb {ctx : CoreSha256Context} {left : ℕ} {input : Bytes}
    (hbuffer : ctx.buffer.length = 64) (hleft : left = 0 ∨ left + input.length < 64) :
    (updateTail ctx left input).buffer.length = 64 ∧
      absorb compress 64 (ctx.state, ctx.buffer.take left) input =
        ((updateTail ctx left input).state,
          (updateTail ctx left input).buffer.take ((left + input.length) % 64)) := by
  have hrest : (input.drop (64 * (input.length / 64))).length = input.length % 64 := by
    rw [List.length_drop]
    omega
  have hfront : (ctx.buffer.take left).length = left := by
    rw [List.length_take]
    omega
  simp only [updateTail, processBlocks_eq]
  refine ⟨?_, ?_⟩
  · simp only [List.length_append, List.length_drop, hfront]
    omega
  · rw [List.take_left' (by rw [List.length_append, hfront, hrest]; omega)]
    rcases hleft with rfl | hshort
    · have hopen : ([] : Bytes).length + (input.drop (64 * (input.length / 64))).length < 64 := by
        rw [List.length_nil, hrest]
        omega
      rw [List.take_zero, absorb_blocks (by norm_num) _ (input.length / 64) (by omega),
        absorb_short hopen, List.nil_append]
    · rw [absorb_short (by rw [hfront]; exact hshort), show input.length / 64 = 0 by omega]
      rfl

theorem tracks_updateTail {ctx : CoreSha256Context} {left : ℕ} {input text : Bytes}
    (htotal : ctx.total₀.toNat + 2 ^ 32 * ctx.total₁.toNat = text.length % 2 ^ 64)
    (his224 : ctx.is224 = 0) (hbuffer : ctx.buffer.length = 64)
    (hleft : left = 0 ∨ left + input.length < 64)
    (habsorbed : absorb compress 64 (initialState, []) text =
      absorb compress 64 (ctx.state, ctx.buffer.take left) input)
    (hlength : text.length % 64 = (left + input.length) % 64) :
    Tracks (updateTail ctx left input) text := by
  obtain ⟨hbuffer', htail⟩ := updateTail_absorb hbuffer hleft
  refine ⟨?_, hbuffer', ?_, ?_⟩
  · simpa [updateTail] using htotal
  · rw [habsorbed, htail, hlength]
  · simpa [updateTail] using his224

/-- The carry of the count of bytes. -/
theorem total_add {t₀ t₁ : UInt32} {length n : ℕ} (hn : n < 2 ^ 32)
    (h : t₀.toNat + 2 ^ 32 * t₁.toNat = length % 2 ^ 64) :
    (t₀ + UInt32.ofNat n).toNat + 2 ^ 32 *
      (if t₀ + UInt32.ofNat n < UInt32.ofNat n then t₁ + 1 else t₁).toNat =
        (length + n) % 2 ^ 64 := by
  have h₀ := t₀.toNat_lt
  have h₁ := t₁.toNat_lt
  have hsum : (t₀ + UInt32.ofNat n).toNat = (t₀.toNat + n) % 2 ^ 32 := by
    rw [UInt32.toNat_add, UInt32.toNat_ofNat', Nat.mod_eq_of_lt hn]
  have hnext : (t₁ + 1).toNat = (t₁.toNat + 1) % 2 ^ 32 := by
    rw [UInt32.toNat_add]
    rfl
  split_ifs with hcarry <;>
    rw [UInt32.lt_iff_toNat_lt, hsum, UInt32.toNat_ofNat', Nat.mod_eq_of_lt hn] at hcarry
  · rw [hsum, hnext]
    omega
  · rw [hsum]
    omega

/-- **An update adds its piece to the text.** -/
theorem Tracks.update {ctx : CoreSha256Context} {text : Bytes} (h : Tracks ctx text)
    {input : Bytes} (hinput : input.length < 2 ^ 32) :
    Tracks (coreSha256Update ctx input) (text ++ input) := by
  have hlt : text.length % 64 < 64 := Nat.mod_lt _ (by norm_num)
  have htotal := total_add hinput h.total
  rw [← List.length_append] at htotal
  have hfront : (ctx.buffer.take (text.length % 64)).length = text.length % 64 := by
    rw [List.length_take, h.buffer_length]
    omega
  simp only [coreSha256Update, h.left]
  generalize (if ctx.total₀ + UInt32.ofNat input.length < UInt32.ofNat input.length then
    ctx.total₁ + 1 else ctx.total₁) = total₁ at htotal ⊢
  split_ifs with hzero hfull
  · obtain rfl := List.length_eq_zero_iff.1 hzero
    rwa [List.append_nil]
  · -- the block that waits is filled and processed, the rest starts a new one
    have htake : (input.take (64 - text.length % 64)).length = 64 - text.length % 64 :=
      List.length_take_of_le hfull.2
    refine tracks_updateTail htotal h.is224 ?_ (Or.inl rfl) ?_ ?_
    · rw [List.length_append, hfront, htake]
      omega
    · have hne : input.take (64 - text.length % 64) ≠ [] := by
        intro hnil
        rw [hnil, List.length_nil] at htake
        omega
      have hfill : (ctx.buffer.take (text.length % 64)).length +
          (input.take (64 - text.length % 64)).length = 64 := by
        rw [hfront, htake]
        omega
      rw [absorb_append, h.absorbed, List.take_zero, coreSha256Process_eq,
        ← absorb_fill hne hfill, ← absorb_append, List.take_append_drop]
    · rw [List.length_append, List.length_drop]
      omega
  · refine tracks_updateTail htotal h.is224 h.buffer_length ?_ ?_ ?_
    · by_cases hleft : text.length % 64 = 0
      · exact Or.inl hleft
      · rw [not_and, not_le] at hfull
        have := hfull hleft
        omega
    · rw [absorb_append, h.absorbed]
    · rw [List.length_append]
      omega

/-! ## The digest -/

theorem Tracks.msglen {ctx : CoreSha256Context} {text : Bytes} (h : Tracks ctx text) :
    putUint32Be (ctx.total₀ >>> 29 ||| ctx.total₁ <<< 3) ++ putUint32Be (ctx.total₀ <<< 3) =
      lengthBytes (8 * text.length) := by
  have htotal := h.total
  have h₀ := ctx.total₀.toNat_lt
  have h₁ := ctx.total₁.toNat_lt
  have hhigh :
      ctx.total₀ >>> 29 ||| ctx.total₁ <<< 3 = UInt32.ofNat (8 * text.length / 2 ^ 32) := by
    rw [← UInt32.toNat_inj, UInt32.toNat_or, UInt32.toNat_shiftRight, UInt32.toNat_shiftLeft,
      UInt32.toNat_ofNat']
    have hshift : ctx.total₁.toNat <<< 3 % 2 ^ 32 = (ctx.total₁.toNat % 2 ^ 29) <<< 3 := by
      rw [Nat.shiftLeft_eq, Nat.shiftLeft_eq]
      omega
    show ctx.total₀.toNat >>> 29 ||| ctx.total₁.toNat <<< 3 % 2 ^ 32 = _
    rw [hshift, Nat.or_comm, Nat.shiftRight_eq_div_pow, ← Nat.shiftLeft_add_eq_or_of_lt (by omega),
      Nat.shiftLeft_eq]
    omega
  have hlow : ctx.total₀ <<< 3 = UInt32.ofNat (8 * text.length) := by
    rw [← UInt32.toNat_inj, UInt32.toNat_shiftLeft, UInt32.toNat_ofNat']
    show ctx.total₀.toNat <<< 3 % 2 ^ 32 = _
    rw [Nat.shiftLeft_eq]
    omega
  rw [hhigh, hlow]
  rfl

theorem padding_eq (last : ℕ) (h : last < 64) :
    sha256Padding.take (if last < 56 then 56 - last else 120 - last) =
      0x80 :: List.replicate ((119 - last) % 64) 0 := by
  obtain ⟨n, hn, hlt⟩ : ∃ n, (if last < 56 then 56 - last else 120 - last) = n + 1 ∧ n ≤ 63 := by
    split_ifs
    · exact ⟨55 - last, by omega, by omega⟩
    · exact ⟨119 - last, by omega, by omega⟩
  rw [hn, sha256Padding, List.take_succ_cons, List.take_replicate]
  congr 2
  split_ifs at hn <;> omega

theorem Tracks.finish {ctx : CoreSha256Context} {text : Bytes} (h : Tracks ctx text)
    (output : Bytes) : coreSha256Finish ctx output = Sha2.hash text := by
  have hlast := padding_eq (text.length % 64) (Nat.mod_lt _ (by norm_num))
  have hpadded : Tracks (coreSha256Update (coreSha256Update ctx
      (0x80 :: List.replicate ((119 - text.length % 64) % 64) 0))
        (lengthBytes (8 * text.length))) (pad text) :=
    (h.update (by simp; omega)).update (by simp [lengthBytes, wordBytes])
  have habsorbed := hpadded.absorbed
  rw [absorb_pad, Prod.mk.injEq] at habsorbed
  simp only [coreSha256Finish, h.left, hlast, h.msglen, hpadded.is224, if_true, ← habsorbed.1]
  rfl

theorem Tracks.pieces {ctx : CoreSha256Context} {text : Bytes} (h : Tracks ctx text)
    {pieces : List Bytes} (hpieces : ∀ piece ∈ pieces, piece.length < 2 ^ 32) :
    Tracks (pieces.foldl coreSha256Update ctx) (text ++ pieces.flatten) := by
  induction pieces generalizing ctx text with
  | nil => simpa using h
  | cons piece pieces ih =>
    obtain ⟨hpiece, hpieces⟩ := List.forall_mem_cons.1 hpieces
    rw [List.foldl_cons, List.flatten_cons, ← List.append_assoc]
    exact ih (h.update hpiece) hpieces

/-- **Whatever pieces a message is given in, the digest is the standard's.** -/
theorem coreSha256_pieces (pieces : List Bytes) (hpieces : ∀ piece ∈ pieces, piece.length < 2 ^ 32)
    {ctx : CoreSha256Context} (hbuffer : ctx.buffer.length = 64) (output : Bytes) :
    coreSha256Finish (pieces.foldl coreSha256Update (coreSha256Starts ctx)) output =
      Sha2.hash pieces.flatten :=
  ((tracks_starts hbuffer).pieces hpieces).finish output

theorem coreSha256_pieces_abc :
    coreSha256Finish ([ascii "a", ascii "bc"].foldl coreSha256Update
        (coreSha256Starts coreSha256Init)) [] =
      [0xba, 0x78, 0x16, 0xbf, 0x8f, 0x01, 0xcf, 0xea, 0x41, 0x41, 0x40, 0xde, 0x5d, 0xae, 0x22,
        0x23, 0xb0, 0x03, 0x61, 0xa3, 0x96, 0x17, 0x7a, 0x9c, 0xb4, 0x10, 0xff, 0x61, 0xf2, 0x00,
        0x15, 0xad] :=
  (coreSha256_pieces _ (by decide) rfl []).trans (by decide +kernel)

theorem coreSha256_eq {input : Bytes} (hinput : input.length < 2 ^ 32) (output : Bytes) :
    coreSha256 input output = Sha2.hash input :=
  ((tracks_starts rfl).update hinput).finish output

/-! ## The keyed hash -/

/-- Over contexts `core_hmac_sha256` is what it is over the standard's hash. -/
theorem hmacContexts_eq {msg : Bytes} (hmsg : msg.length < 2 ^ 32) (key output : Bytes) :
    coreHmacSha256Contexts msg key output = coreHmacSha256 Sha2.hash msg key output := by
  unfold coreHmacSha256Contexts coreHmacSha256
  split_ifs with hkey
  · rfl
  · have hlong : ∀ x : UInt8, ((key ++ List.replicate (SHA256_KEY_IOPAD_SIZE - key.length) 0).map
        (· ^^^ x)).length < 2 ^ 32 := by
      intro x
      rw [List.length_map, List.length_append, List.length_replicate]
      have hsize : SHA256_KEY_IOPAD_SIZE = 64 := rfl
      omega
    have hinner := (((@tracks_starts coreSha256Init rfl).update (hlong 0x36)).update
      hmsg).finish output
    simp only [hinner, List.nil_append]
    have hdigest := Sha2.hash_length ((key ++ List.replicate (SHA256_KEY_IOPAD_SIZE - key.length)
      0).map (· ^^^ 0x36) ++ msg)
    exact (((@tracks_starts coreSha256Init rfl).update (hlong 0x5c)).update
      (by rw [hdigest]; norm_num)).finish _

/-- **For a key that fits a block `core_hmac_sha256` leaves the keyed hash of the message, over the
standard's hash; for a longer one it leaves what was there.** -/
theorem coreHmacSha256Contexts_eq {msg : Bytes} (hmsg : msg.length < 2 ^ 32) (key output : Bytes) :
    coreHmacSha256Contexts msg key output =
      if key.length ≤ 64 then Hmac.hmac Sha2.hash 64 key msg else output := by
  rw [hmacContexts_eq hmsg]
  split_ifs with hkey
  · exact coreHmacSha256_of_le Sha2.hash hkey msg output
  · exact coreHmacSha256_of_lt Sha2.hash (not_le.1 hkey) msg output

theorem coreHmacSha256Contexts_eq_jefe :
    coreHmacSha256Contexts (ascii "what do ya want for nothing?") (ascii "Jefe") [] =
      [0x5b, 0xdc, 0xc1, 0x46, 0xbf, 0x60, 0x75, 0x4e, 0x6a, 0x04, 0x24, 0x26, 0x08, 0x95, 0x75,
        0xc7, 0x5a, 0x00, 0x3f, 0x08, 0x9d, 0x27, 0x39, 0x83, 0x9d, 0xec, 0x58, 0xb9, 0x64, 0xec,
        0x38, 0x43] :=
  (coreHmacSha256Contexts_eq (by decide) (ascii "Jefe") []).trans (by decide +kernel)

end IotIde
