import Mathlib

/-!
# Hashes by blocks

A text is taken block by block into a state.  The state, the symbols and what is done with one
block are parameters.

* `feed`, `absorb` — symbol by symbol, with the symbols of a block that is not yet full;
* `absorb_short`, `absorb_fill` — a piece that leaves the block open, and one that fills it;
* `blocks`, `absorb_blocks` — a text of whole blocks.
-/

namespace BlockHash

variable {σ α : Type*} (compress : σ → List α → σ) (size : ℕ)

/-- One symbol more, behind those that wait for the rest of their block. -/
def feed (p : σ × List α) (x : α) : σ × List α :=
  if p.2.length + 1 < size then (p.1, p.2 ++ [x]) else (compress p.1 (p.2 ++ [x]), [])

/-- A text more. -/
def absorb (p : σ × List α) (text : List α) : σ × List α := text.foldl (feed compress size) p

/-- The first blocks of a text. -/
def blocks : ℕ → List α → List (List α)
  | 0, _ => []
  | n + 1, text => text.take size :: blocks n (text.drop size)

variable {compress size}

@[simp] theorem absorb_nil (p : σ × List α) : absorb compress size p [] = p := rfl

theorem absorb_append (p : σ × List α) (xs ys : List α) :
    absorb compress size p (xs ++ ys) = absorb compress size (absorb compress size p xs) ys :=
  List.foldl_append

/-- A piece that leaves the block open. -/
theorem absorb_short {s : σ} {front piece : List α} (h : front.length + piece.length < size) :
    absorb compress size (s, front) piece = (s, front ++ piece) := by
  induction piece generalizing front with
  | nil => simp
  | cons x piece ih =>
    rw [List.length_cons] at h
    have hopen : feed compress size (s, front) x = (s, front ++ [x]) := if_pos (by simp only; omega)
    have hrest : (front ++ [x]).length + piece.length < size := by
      rw [List.length_append, List.length_singleton]
      omega
    rw [absorb, List.foldl_cons, hopen]
    exact (ih hrest).trans (by rw [List.append_assoc, List.singleton_append])

/-- A piece that fills the block. -/
theorem absorb_fill {s : σ} {front piece : List α} (hne : piece ≠ [])
    (h : front.length + piece.length = size) :
    absorb compress size (s, front) piece = (compress s (front ++ piece), []) := by
  obtain ⟨init, x, rfl⟩ := (List.eq_nil_or_concat' piece).resolve_left hne
  rw [List.length_append, List.length_singleton] at h
  have hfull : ¬ (front ++ init).length + 1 < size := by
    rw [List.length_append]
    omega
  have hinit : absorb compress size (s, front) init = (s, front ++ init) := absorb_short (by omega)
  rw [absorb_append, hinit, ← List.append_assoc]
  exact if_neg hfull

/-- Whole blocks are taken one after the other. -/
theorem absorb_blocks (hsize : 0 < size) (s : σ) (n : ℕ) {text : List α}
    (h : size * n ≤ text.length) :
    absorb compress size (s, []) text =
      absorb compress size ((blocks size n text).foldl compress s, []) (text.drop (size * n)) := by
  induction n generalizing s text with
  | zero => rfl
  | succ n ih =>
    rw [Nat.mul_succ] at h
    have htake : (text.take size).length = size := List.length_take_of_le (by omega)
    have hne : text.take size ≠ [] := by
      intro hnil
      rw [hnil, List.length_nil] at htake
      omega
    have hdrop : size * n ≤ (text.drop size).length := by
      rw [List.length_drop]
      omega
    conv_lhs => rw [← List.take_append_drop size text]
    rw [absorb_append, absorb_fill hne (by simpa using htake), List.nil_append, ih _ hdrop,
      List.drop_drop, blocks, List.foldl_cons, Nat.mul_succ, Nat.add_comm]

end BlockHash
