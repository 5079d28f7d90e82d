import Mathlib

/-!
# Keyed hashes

HMAC over any hash function, as RFC 2104 defines it, and digests written in hexadecimal.

* `keyBlock`, `hmac` — the key in a block, and the keyed hash;
* `hmac_of_le` — a key that fits the block is only padded;
* `hex` — two upper-case digits a byte; `hex_length`, `hex_injective`.
-/

namespace IotIde
namespace Hmac

section Keyed

variable (hash : List UInt8 → List UInt8) (blockSize : ℕ)

/-- The key as it is padded to a block; a longer one is hashed first. -/
def keyBlock (key : List UInt8) : List UInt8 :=
  let short := if blockSize < key.length then hash key else key
  short ++ List.replicate (blockSize - short.length) 0

/-- `H(K XOR opad, H(K XOR ipad, text))` -/
def hmac (key text : List UInt8) : List UInt8 :=
  let block := keyBlock hash blockSize key
  hash (block.map (· ^^^ 0x5c) ++ hash (block.map (· ^^^ 0x36) ++ text))

theorem keyBlock_of_le {key : List UInt8} (h : key.length ≤ blockSize) :
    keyBlock hash blockSize key = key ++ List.replicate (blockSize - key.length) 0 := by
  rw [keyBlock, if_neg (by omega)]

theorem hmac_of_le {key : List UInt8} (h : key.length ≤ blockSize) (text : List UInt8) :
    hmac hash blockSize key text =
      let block := key ++ List.replicate (blockSize - key.length) 0
      hash (block.map (· ^^^ 0x5c) ++ hash (block.map (· ^^^ 0x36) ++ text)) := by
  rw [hmac, keyBlock_of_le hash blockSize h]

end Keyed

/-- The character of a number below 16. -/
def hexDigit (n : ℕ) : UInt8 := UInt8.ofNat (if n < 10 then 48 + n else 55 + n)

/-- Upper-case hexadecimal, the high half of a byte first. -/
def hex (bytes : List UInt8) : List UInt8 :=
  bytes.flatMap fun b => [hexDigit (b.toNat / 16), hexDigit (b.toNat % 16)]

theorem hexDigit_ne_zero {n : ℕ} (h : n < 16) : hexDigit n ≠ 0 := by
  have hall : ∀ n : Fin 16, hexDigit n ≠ 0 := by decide
  exact hall ⟨n, h⟩

theorem hex_length (bytes : List UInt8) : (hex bytes).length = 2 * bytes.length := by
  induction bytes with
  | nil => rfl
  | cons b bytes ih =>
    rw [hex, List.flatMap_cons, List.length_append, ← hex, ih, List.length_cons]
    simp only [List.length_cons, List.length_nil]
    omega

theorem zero_notMem_hex (bytes : List UInt8) : 0 ∉ hex bytes := by
  intro h
  obtain ⟨b, -, hdigit⟩ := List.mem_flatMap.1 h
  have hb := b.toNat_lt
  rcases List.mem_cons.1 hdigit with hhigh | hdigit
  · exact hexDigit_ne_zero (by omega) hhigh.symm
  · exact hexDigit_ne_zero (by omega) (List.mem_singleton.1 hdigit).symm

theorem hexDigit_inj {m n : ℕ} (hm : m < 16) (hn : n < 16) (h : hexDigit m = hexDigit n) :
    m = n := by
  have hall : ∀ m n : Fin 16, hexDigit m = hexDigit n → m = n := by decide
  exact Fin.mk.inj (hall ⟨m, hm⟩ ⟨n, hn⟩ h)

/-- Different bytes have different digits. -/
theorem hex_injective : Function.Injective hex := by
  intro bytes
  induction bytes with
  | nil =>
    intro bytes' h
    cases bytes' with
    | nil => rfl
    | cons b bytes' => cases h
  | cons b bytes ih =>
    intro bytes' h
    cases bytes' with
    | nil => cases h
    | cons b' bytes' =>
      have hb := b.toNat_lt
      have hb' := b'.toNat_lt
      obtain ⟨hhigh, htail⟩ := List.cons.inj h
      obtain ⟨hlow, hrest⟩ := List.cons.inj htail
      have h₁ := hexDigit_inj (by omega) (by omega) hhigh
      have h₂ := hexDigit_inj (by omega) (by omega) hlow
      rw [UInt8.toNat_inj.1 (show b.toNat = b'.toNat by omega), ih hrest]

/-- A function that writes every byte so writes every text so. -/
theorem hex_eq_flatMap {f : UInt8 → List UInt8}
    (h : ∀ n : Fin 256, f (UInt8.ofNat n) = hex [UInt8.ofNat n]) (bytes : List UInt8) :
    bytes.flatMap f = hex bytes := by
  refine List.flatMap_congr fun b _ => ?_
  have hb := h ⟨b.toNat, b.toNat_lt⟩
  simp only [UInt8.ofNat_toNat] at hb
  rw [hb, hex, List.flatMap_singleton]

end Hmac
end IotIde
