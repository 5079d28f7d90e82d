import Mathlib

/-!
# Frames on a byte stream

Messages on a stream that say how long they are.  The length is written to the base 128, the
lowest digit first, and every digit but the last carries a flag; so a reader knows where it
ends, and then where the message ends.

* `IsVarint`, `value`, `encode` — such lengths, what they say, and the shortest one;
* `length_encode_le_iff` — how many digits a number needs;
* `PrefixFree` — codes that can be read from a stream, with `flatMap_inj` and
  `prefix_of_flatMap_prefix` for a sequence of them;
* `Frame` — a header, a length and a body, with `Frame.prefixFree`.
-/

namespace Frames

/-! ## Lengths -/

/-- Flagged digits, and one without a flag behind them. -/
inductive IsVarint : List UInt8 → Prop
  | last {b : UInt8} : b.toNat < 128 → IsVarint [b]
  | more {b : UInt8} {digits : List UInt8} : 128 ≤ b.toNat → IsVarint digits →
      IsVarint (b :: digits)

/-- What the digits say. -/
def value : List UInt8 → ℕ
  | [] => 0
  | b :: digits => b.toNat % 128 + 128 * value digits

/-- The shortest digits of a number. -/
def encode (n : ℕ) : List UInt8 :=
  if n < 128 then [UInt8.ofNat n] else UInt8.ofNat (n % 128 + 128) :: encode (n / 128)
termination_by n
decreasing_by omega

theorem encode_of_lt {n : ℕ} (h : n < 128) : encode n = [UInt8.ofNat n] := by
  rw [encode, if_pos h]

theorem IsVarint.ne_nil {digits : List UInt8} (h : IsVarint digits) : digits ≠ [] := by
  cases h <;> simp

theorem isVarint_encode (n : ℕ) : IsVarint (encode n) := by
  induction n using Nat.strongRecOn with
  | ind n ih =>
    rw [encode]
    split_ifs with h
    · refine .last ?_
      rw [UInt8.toNat_ofNat']
      omega
    · refine .more ?_ (ih _ (by omega))
      rw [UInt8.toNat_ofNat']
      omega

theorem value_encode (n : ℕ) : value (encode n) = n := by
  induction n using Nat.strongRecOn with
  | ind n ih =>
    rw [encode]
    split_ifs with h
    · rw [value, value, UInt8.toNat_ofNat']
      omega
    · rw [value, ih _ (by omega), UInt8.toNat_ofNat']
      omega

theorem length_encode_pos (n : ℕ) : 0 < (encode n).length :=
  List.length_pos_of_ne_nil (isVarint_encode n).ne_nil

/-- **Digits of a number.** -/
theorem length_encode_le_iff {k n : ℕ} (hk : 0 < k) :
    (encode n).length ≤ k ↔ n < 128 ^ k := by
  obtain ⟨k, rfl⟩ : ∃ j, k = j + 1 := ⟨k - 1, by omega⟩
  induction k generalizing n with
  | zero =>
    rw [encode]
    split_ifs with h
    · simpa using h
    · have hpos := length_encode_pos (n / 128)
      simp only [List.length_cons]
      omega
  | succ k ih =>
    rw [encode]
    split_ifs with h
    · refine iff_of_true (by simp) (h.trans_le ?_)
      exact Nat.le_self_pow (by omega) 128
    · rw [List.length_cons, Nat.add_le_add_iff_right, ih (Nat.succ_pos k),
        Nat.div_lt_iff_lt_mul (by norm_num), ← pow_succ]

/-- Where a length ends can be seen from its digits. -/
theorem IsVarint.append_inj {a b r s : List UInt8} (ha : IsVarint a) (hb : IsVarint b)
    (h : a ++ r = b ++ s) : a = b ∧ r = s := by
  induction ha generalizing b with
  | last hlast =>
    cases hb with
    | last _ => simpa using h
    | more hmore _ =>
      simp only [List.cons_append, List.nil_append, List.cons.injEq] at h
      rw [h.1] at hlast
      omega
  | more hmore _ ih =>
    cases hb with
    | last hlast =>
      simp only [List.cons_append, List.nil_append, List.cons.injEq] at h
      rw [h.1] at hmore
      omega
    | more _ hb =>
      simp only [List.cons_append, List.cons.injEq] at h
      obtain ⟨rfl, rfl⟩ := ih hb h.2
      exact ⟨by rw [h.1], rfl⟩

/-! ## Codes that can be read from a stream -/

section PrefixFree

variable {α β : Type*}

/-- What stands at the front of a stream is one value's code only, and no code is empty. -/
structure PrefixFree (code : α → List β) : Prop where
  ne_nil : ∀ x, code x ≠ []
  inj : ∀ {x y : α} {r s : List β}, code x ++ r = code y ++ s → x = y

variable {code : α → List β} (hcode : PrefixFree code)
include hcode

/-- **Values whose codes fill the front of a stream are the first that the stream was
written from.** -/
theorem PrefixFree.prefix_of_flatMap_prefix {xs ys : List α}
    (h : xs.flatMap code <+: ys.flatMap code) : xs <+: ys := by
  induction xs generalizing ys with
  | nil => exact List.nil_prefix
  | cons x xs ih =>
    obtain ⟨tail, heq⟩ := h
    rw [List.flatMap_cons, List.append_assoc] at heq
    cases ys with
    | nil => exact absurd (List.append_eq_nil_iff.1 heq).1 (hcode.ne_nil x)
    | cons y ys =>
      rw [List.flatMap_cons] at heq
      obtain rfl := hcode.inj heq
      exact (List.prefix_cons_inj x).2 (ih ⟨tail, List.append_cancel_left heq⟩)

/-- A stream was written from one sequence of values only. -/
theorem PrefixFree.flatMap_inj {xs ys : List α} (h : xs.flatMap code = ys.flatMap code) :
    xs = ys := by
  induction xs generalizing ys with
  | nil =>
    cases ys with
    | nil => rfl
    | cons y ys =>
      exact absurd (List.append_eq_nil_iff.1 (h.symm : code y ++ _ = [])).1 (hcode.ne_nil y)
  | cons x xs ih =>
    cases ys with
    | nil => exact absurd (List.append_eq_nil_iff.1 (h : code x ++ _ = [])).1 (hcode.ne_nil x)
    | cons y ys =>
      simp only [List.flatMap_cons] at h
      obtain rfl := hcode.inj h
      rw [ih (List.append_cancel_left h)]

end PrefixFree

/-! ## Frames -/

/-- A header, the digits of the body's length, and the body. -/
structure Frame where
  header : UInt8
  size : List UInt8
  body : List UInt8
  size_isVarint : IsVarint size
  size_value : value size = body.length

namespace Frame

/-- The frame on the stream. -/
def text (f : Frame) : List UInt8 := f.header :: (f.size ++ f.body)

/-- The frame with the shortest length. -/
def ofBody (header : UInt8) (body : List UInt8) : Frame :=
  ⟨header, encode body.length, body, isVarint_encode _, value_encode _⟩

@[ext] theorem ext' {f g : Frame} (hheader : f.header = g.header) (hsize : f.size = g.size)
    (hbody : f.body = g.body) : f = g := by
  cases f
  cases g
  simp only at hheader hsize hbody
  subst hheader hsize hbody
  rfl

theorem length_text (f : Frame) : f.text.length = 1 + f.size.length + f.body.length := by
  simp only [text, List.length_cons, List.length_append]
  omega

/-- Where a frame ends can be seen from the frame. -/
theorem text_append_inj {f g : Frame} {r s : List UInt8} (h : f.text ++ r = g.text ++ s) :
    f = g ∧ r = s := by
  simp only [text, List.cons_append, List.append_assoc, List.cons.injEq] at h
  obtain ⟨hheader, hrest⟩ := h
  obtain ⟨hsize, hrest⟩ := f.size_isVarint.append_inj g.size_isVarint hrest
  have hlen : f.body.length = g.body.length := by
    rw [← f.size_value, ← g.size_value, hsize]
  obtain ⟨hbody, rfl⟩ := List.append_inj hrest hlen
  exact ⟨ext' hheader hsize hbody, rfl⟩

theorem prefixFree : PrefixFree text where
  ne_nil _ := List.cons_ne_nil _ _
  inj h := (text_append_inj h).1

end Frame

end Frames
