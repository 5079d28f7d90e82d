import Mathlib

/-!
# Doubling until it is enough

The loop `while (size < needed) size *= 2;` on unsigned numbers of `w` bits.  Whether it ends
is decided by the top bit: up to half of the range a doubling cannot overflow before it is
enough, and beyond it a power of two runs through zero and stays there.

* `double?` — the loop, for at most so many tests of its condition;
* `exists_double?` — from a positive size it ends with enough, up to half of the range;
* `double?_pow` — beyond half of the range no number of doublings of a power of two is enough.
-/

namespace IotIde
namespace Doubling

variable {w needed : ℕ}

/-- The loop, as long as it tests its condition at most `rounds` times; `none` when it is not
over by then. -/
def double? (w needed : ℕ) : ℕ → ℕ → Option ℕ
  | 0, _ => none
  | rounds + 1, size =>
    if size < needed then double? w needed rounds (size * 2 % 2 ^ w) else some size

/-- More tests than are made do not matter. -/
theorem double?_mono : ∀ {rounds rounds' size result : ℕ}, rounds ≤ rounds' →
    double? w needed rounds size = some result → double? w needed rounds' size = some result := by
  intro rounds
  induction rounds with
  | zero =>
    intro rounds' size result _ h
    cases h
  | succ rounds ih =>
    intro rounds' size result hle h
    obtain ⟨rounds', rfl⟩ : ∃ more, rounds' = more + 1 := ⟨rounds' - 1, by omega⟩
    rw [double?] at h ⊢
    split_ifs at h ⊢ with hsmall
    · exact ih (Nat.le_of_succ_le_succ hle) h
    · exact h

/-- A loop that ends has found enough. -/
theorem le_of_double? : ∀ {rounds size result : ℕ},
    double? w needed rounds size = some result → needed ≤ result := by
  intro rounds
  induction rounds with
  | zero =>
    intro size result h
    cases h
  | succ rounds ih =>
    intro size result h
    rw [double?] at h
    split_ifs at h with hsmall
    · exact ih h
    · cases h
      exact Nat.le_of_not_lt hsmall

/-- Up to half of the range nothing overflows before it is enough. -/
theorem mul_two_mod (hw : 0 < w) (hneeded : needed ≤ 2 ^ (w - 1)) {size : ℕ} (h : size < needed) :
    size * 2 % 2 ^ w = size * 2 := by
  have hpow : 2 ^ w = 2 ^ (w - 1) * 2 := by rw [← pow_succ, Nat.sub_add_cancel hw]
  exact Nat.mod_eq_of_lt (by omega)

/-- With enough doublings the loop ends, and no smaller than it started. -/
theorem exists_double? (hw : 0 < w) (hneeded : needed ≤ 2 ^ (w - 1)) : ∀ {rounds size : ℕ},
    needed ≤ size * 2 ^ rounds →
      ∃ result, double? w needed (rounds + 1) size = some result ∧ size ≤ result := by
  intro rounds
  induction rounds with
  | zero =>
    intro size h
    rw [pow_zero, mul_one] at h
    exact ⟨size, if_neg (by omega), le_rfl⟩
  | succ rounds ih =>
    intro size h
    by_cases hsmall : size < needed
    · have hnext : needed ≤ size * 2 * 2 ^ rounds := by
        rw [mul_assoc, ← pow_succ']
        exact h
      obtain ⟨result, hresult, hle⟩ := ih hnext
      refine ⟨result, ?_, by omega⟩
      rw [double?, if_pos hsmall, mul_two_mod hw hneeded hsmall]
      exact hresult
    · exact ⟨size, if_neg hsmall, le_rfl⟩

/-- Zero is never doubled to anything else. -/
theorem double?_zero (hneeded : 0 < needed) (rounds : ℕ) : double? w needed rounds 0 = none := by
  induction rounds with
  | zero => rfl
  | succ rounds ih => rw [double?, if_pos hneeded, Nat.zero_mul, Nat.zero_mod, ih]

/-- Beyond half of the range a power of two is doubled past the top bit. -/
theorem double?_pow (hneeded : 2 ^ (w - 1) < needed) (rounds : ℕ) :
    ∀ {k : ℕ}, k < w → double? w needed rounds (2 ^ k) = none := by
  induction rounds with
  | zero => exact fun _ => rfl
  | succ rounds ih =>
    intro k hk
    have hsmall : 2 ^ k < needed :=
      lt_of_le_of_lt (Nat.pow_le_pow_right (by norm_num) (by omega)) hneeded
    rw [double?, if_pos hsmall, ← pow_succ]
    by_cases htop : k + 1 < w
    · rw [Nat.mod_eq_of_lt (Nat.pow_lt_pow_right (by norm_num) htop)]
      exact ih htop
    · rw [show k + 1 = w by omega, Nat.mod_self]
      exact double?_zero (Nat.zero_lt_of_lt hneeded) rounds

end Doubling
end IotIde
