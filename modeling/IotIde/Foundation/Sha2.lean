import IotIde.Foundation.BlockHash

/-!
# SHA-256

The hash function as the standard states it, on texts of bytes.

* `root`, `roundConstants`, `initialState` — the constants, from the roots of the first primes;
* `schedule`, `round`, `compress` — one block of 64 bytes;
* `pad` — the text with a one bit, zeros and its length in bits behind it;
* `hash` — the digest of a text; `hash_length`.
-/

namespace Sha2

open BlockHash

/-- Eight words. -/
@[ext] structure State where
  a : UInt32
  b : UInt32
  c : UInt32
  d : UInt32
  e : UInt32
  f : UInt32
  g : UInt32
  h : UInt32
  deriving DecidableEq

/-! ## The constants -/

/-- A root rounded down, by its binary digits. -/
def root (degree : ℕ) : ℕ → ℕ → ℕ
  | 0, _ => 0
  | bits + 1, n =>
    let r := 2 * root degree bits (n / 2 ^ degree)
    if (r + 1) ^ degree ≤ n then r + 1 else r

theorem root_spec {degree : ℕ} (hdegree : degree ≠ 0) (bits n : ℕ) (h : n < 2 ^ (degree * bits)) :
    root degree bits n ^ degree ≤ n ∧ n < (root degree bits n + 1) ^ degree := by
  induction bits generalizing n with
  | zero =>
    obtain rfl : n = 0 := by simpa using h
    simp [root, hdegree]
  | succ bits ih =>
    have hpos : 0 < 2 ^ degree := by positivity
    have hhalf : n / 2 ^ degree < 2 ^ (degree * bits) := by
      rw [Nat.div_lt_iff_lt_mul hpos, ← pow_add, ← Nat.mul_succ]
      exact h
    obtain ⟨hlow, hhigh⟩ := ih _ hhalf
    set r := root degree bits (n / 2 ^ degree)
    have hle : (2 * r) ^ degree ≤ n := by
      rw [mul_pow, mul_comm]
      exact (Nat.le_div_iff_mul_le hpos).1 hlow
    have hlt : n < (2 * r + 1 + 1) ^ degree := by
      rw [show 2 * r + 1 + 1 = 2 * (r + 1) by ring, mul_pow, mul_comm]
      exact (Nat.div_lt_iff_lt_mul hpos).1 hhigh
    rw [root]
    split_ifs with hnext
    · exact ⟨hnext, hlt⟩
    · exact ⟨hle, not_le.1 hnext⟩

/-- The first 32 bits behind the point of a root of a number below 512. -/
def fractionWord (degree n : ℕ) : UInt32 := UInt32.ofNat (root degree 35 (n * 2 ^ (32 * degree)))

/-- The first 64 primes. -/
def primes : List ℕ :=
  [2, 3, 5, 7, 11, 13, 17, 19, 23, 29, 31, 37, 41, 43, 47, 53, 59, 61, 67, 71, 73, 79, 83, 89,
    97, 101, 103, 107, 109, 113, 127, 131, 137, 139, 149, 151, 157, 163, 167, 173, 179, 181, 191,
    193, 197, 199, 211, 223, 227, 229, 233, 239, 241, 251, 257, 263, 269, 271, 277, 281, 283,
    293, 307, 311]

/-- From the cube roots. -/
def roundConstants : List UInt32 := primes.map (fractionWord 3)

/-- From the square roots of the first eight. -/
def initialState : State where
  a := fractionWord 2 2
  b := fractionWord 2 3
  c := fractionWord 2 5
  d := fractionWord 2 7
  e := fractionWord 2 11
  f := fractionWord 2 13
  g := fractionWord 2 17
  h := fractionWord 2 19

/-! ## One block -/

/-- Rotation to the right. -/
def rotr (n : ℕ) (x : UInt32) : UInt32 := ⟨x.toBitVec.rotateRight n⟩

def ch (x y z : UInt32) : UInt32 := (x &&& y) ^^^ (~~~x &&& z)

def maj (x y z : UInt32) : UInt32 := (x &&& y) ^^^ (x &&& z) ^^^ (y &&& z)

def bigSigma0 (x : UInt32) : UInt32 := rotr 2 x ^^^ rotr 13 x ^^^ rotr 22 x

def bigSigma1 (x : UInt32) : UInt32 := rotr 6 x ^^^ rotr 11 x ^^^ rotr 25 x

def smallSigma0 (x : UInt32) : UInt32 := rotr 7 x ^^^ rotr 18 x ^^^ x >>> 3

def smallSigma1 (x : UInt32) : UInt32 := rotr 17 x ^^^ rotr 19 x ^^^ x >>> 10

/-- A word from four bytes, the highest first. -/
def word (b₀ b₁ b₂ b₃ : UInt8) : UInt32 :=
  b₀.toUInt32 <<< 24 ||| b₁.toUInt32 <<< 16 ||| b₂.toUInt32 <<< 8 ||| b₃.toUInt32

/-- The first words of the schedule of a block. -/
def schedule (block : List UInt8) : ℕ → List UInt32
  | 0 => []
  | t + 1 =>
    let w := schedule block t
    w ++ [if t < 16 then
        word (block.getD (4 * t) 0) (block.getD (4 * t + 1) 0) (block.getD (4 * t + 2) 0)
          (block.getD (4 * t + 3) 0)
      else smallSigma1 (w.getD (t - 2) 0) + w.getD (t - 7) 0 + smallSigma0 (w.getD (t - 15) 0) +
        w.getD (t - 16) 0]

/-- One round, with its constant and its word of the schedule. -/
def round (v : State) (kw : UInt32 × UInt32) : State :=
  let t₁ := v.h + bigSigma1 v.e + ch v.e v.f v.g + kw.1 + kw.2
  let t₂ := bigSigma0 v.a + maj v.a v.b v.c
  ⟨t₁ + t₂, v.a, v.b, v.c, v.d + t₁, v.e, v.f, v.g⟩

/-- Word by word. -/
def State.add (s v : State) : State :=
  ⟨s.a + v.a, s.b + v.b, s.c + v.c, s.d + v.d, s.e + v.e, s.f + v.f, s.g + v.g, s.h + v.h⟩

/-- The state after one block. -/
def compress (s : State) (block : List UInt8) : State :=
  s.add ((roundConstants.zip (schedule block 64)).foldl round s)

theorem schedule_length (block : List UInt8) (t : ℕ) : (schedule block t).length = t := by
  induction t with
  | zero => rfl
  | succ t ih => rw [schedule, List.length_append, List.length_singleton, ih]

/-! ## A text -/

/-- The bytes of a word, the highest first. -/
def wordBytes (x : UInt32) : List UInt8 :=
  [(x >>> 24).toUInt8, (x >>> 16).toUInt8, (x >>> 8).toUInt8, x.toUInt8]

/-- The bytes of eight words. -/
def State.bytes (s : State) : List UInt8 :=
  [s.a, s.b, s.c, s.d, s.e, s.f, s.g, s.h].flatMap wordBytes

theorem State.bytes_length (s : State) : s.bytes.length = 32 := rfl

/-- A number below `2 ^ 64` in eight bytes, the highest first. -/
def lengthBytes (n : ℕ) : List UInt8 :=
  wordBytes (UInt32.ofNat (n / 2 ^ 32)) ++ wordBytes (UInt32.ofNat n)

/-- The text, a one bit, as few zeros as make whole blocks, and the length in bits. -/
def pad (text : List UInt8) : List UInt8 :=
  text ++ (0x80 :: List.replicate ((119 - text.length % 64) % 64) 0) ++
    lengthBytes (8 * text.length)

/-- The digest of a text. -/
def hash (text : List UInt8) : List UInt8 :=
  let padded := pad text
  ((blocks 64 (padded.length / 64) padded).foldl compress initialState).bytes

theorem hash_length (text : List UInt8) : (hash text).length = 32 := State.bytes_length _

/-- The padding of a text ends with a block. -/
theorem pad_length (text : List UInt8) : (pad text).length % 64 = 0 := by
  simp only [pad, lengthBytes, wordBytes, List.length_append, List.length_cons,
    List.length_replicate, List.length_nil]
  omega

/-- The digest, by what the padded text is absorbed to. -/
theorem absorb_pad (text : List UInt8) :
    absorb compress 64 (initialState, []) (pad text) =
      ((blocks 64 ((pad text).length / 64) (pad text)).foldl compress initialState, []) := by
  have hlen := pad_length text
  rw [absorb_blocks (by norm_num) _ ((pad text).length / 64) (by omega),
    List.drop_eq_nil_of_le (by omega), absorb_nil]

end Sha2
