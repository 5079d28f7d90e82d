import IotIde.Foundation.Runs

/-!
# Messages that come back

A dispatcher handles messages and publishes messages, and a broker hands back to it every
message it publishes on a topic it is subscribed to.  Whether such a network comes to rest
depends on the messages alone.

* `Dispatcher`, `Dispatcher.network` — a dispatcher and its broker, which delivers the
  pending messages one by one in any order;
* `Dispatcher.FinitelyMany` — a bound on the publications of all runs;
* `Dispatcher.finitelyMany_of_weight` — there is one if a weight on messages pays for
  everything a message causes;
* `Dispatcher.not_finitelyMany_of_live` — there is none if some message always leads to
  another one like it.
-/

namespace IotIde
namespace Echo

open Runs

variable {σ μ ι : Type*}

/-- A dispatcher: what it does with a message, given how the calls outside it come out
(`none` is a step that has no next state), and the messages it is subscribed to. -/
structure Dispatcher (σ μ ι : Type*) where
  handle : ι → σ → μ → Option (σ × List μ)
  subscribed : μ → Bool

/-- The state of the dispatcher, the messages on their way to it, and how many messages it
has published. -/
structure Network (σ μ : Type*) where
  state : σ
  pending : List μ
  published : ℕ

namespace Dispatcher

variable (D : Dispatcher σ μ ι)

/-- Delivery of one pending message. -/
def deliver (n : Network σ μ) (index : ℕ) (outcome : ι) : Option (Network σ μ) :=
  match n.pending[index]? with
  | none => none
  | some message =>
    (D.handle outcome n.state message).map fun result =>
      ⟨result.1, n.pending.eraseIdx index ++ result.2.filter D.subscribed,
        n.published + result.2.length⟩

/-- The dispatcher with its broker, from some incoming messages on. -/
def network (s : σ) (incoming : List μ) : Machine (Network σ μ) (ℕ × ι) where
  init n := n = ⟨s, incoming, 0⟩
  step n label := D.deliver n label.1 label.2

/-- All runs together publish a bounded number of messages. -/
def FinitelyMany (s : σ) (incoming : List μ) : Prop :=
  ∃ bound, ∀ n, (D.network s incoming).Reachable n → n.published ≤ bound

variable {D}

/-- What a delivery does. -/
theorem deliver_cases {n n' : Network σ μ} {index : ℕ} {outcome : ι}
    (h : D.deliver n index outcome = some n') :
    ∃ message s' out, message ∈ n.pending ∧ D.handle outcome n.state message = some (s', out) ∧
      (message :: n.pending.eraseIdx index).Perm n.pending ∧
      n' = ⟨s', n.pending.eraseIdx index ++ out.filter D.subscribed,
        n.published + out.length⟩ := by
  unfold deliver at h
  cases hget : n.pending[index]? with
  | none => rw [hget] at h; cases h
  | some message =>
    rw [hget] at h
    obtain ⟨⟨s', out⟩, hhandle, rfl⟩ := Option.map_eq_some_iff.1 h
    obtain ⟨hlt, rfl⟩ := List.getElem?_eq_some_iff.1 hget
    exact ⟨_, s', out, List.getElem_mem hlt, hhandle, List.getElem_cons_eraseIdx_perm hlt, rfl⟩

/-- If in the states of an invariant the weight of a good message pays for what it
publishes and for what comes back of that, and what comes back is good again, then the
weights of the incoming messages bound all publications. -/
theorem finitelyMany_of_weight (I : σ → Prop) (good : μ → Prop) (w : μ → ℕ)
    (hstep : ∀ o s m s' out, I s → good m → D.handle o s m = some (s', out) →
      I s' ∧ (∀ m' ∈ out.filter D.subscribed, good m') ∧
        out.length + ((out.filter D.subscribed).map w).sum ≤ w m)
    {s : σ} (hs : I s) {incoming : List μ} (hgood : ∀ m ∈ incoming, good m) :
    D.FinitelyMany s incoming := by
  refine ⟨(incoming.map w).sum, fun n hn => ?_⟩
  have hinv : I n.state ∧ (∀ m ∈ n.pending, good m) ∧
      n.published + (n.pending.map w).sum ≤ (incoming.map w).sum := by
    revert n
    refine Machine.invariant (fun n hn => ?_) ?_
    · rw [hn]
      exact ⟨hs, hgood, by rw [Nat.zero_add]⟩
    · rintro n ⟨index, o⟩ n' ⟨hI, hpending, hle⟩ - hdeliver
      obtain ⟨m, s', out, hm, hhandle, hperm, rfl⟩ := deliver_cases hdeliver
      obtain ⟨hI', hout, hpays⟩ := hstep o n.state m s' out hI (hpending m hm) hhandle
      refine ⟨hI', fun m' hm' => ?_, ?_⟩
      · rcases List.mem_append.1 hm' with h | h
        · exact hpending m' (List.mem_of_mem_eraseIdx h)
        · exact hout m' h
      · have hsum := (hperm.map w).sum_eq
        simp only [List.map_cons, List.sum_cons] at hsum
        simp only [List.map_append, List.sum_append]
        omega
  have := hinv.2.2
  omega

/-- If a live message can always be handled so that a live one comes back, the
publications have no bound. -/
theorem not_finitelyMany_of_live (live : σ → μ → Prop)
    (hstep : ∀ s m, live s m → ∃ o s' out m', D.handle o s m = some (s', out) ∧
      m' ∈ out ∧ D.subscribed m' = true ∧ live s' m')
    {s : σ} {incoming : List μ} {m : μ} (hm : m ∈ incoming) (hlive : live s m) :
    ¬ D.FinitelyMany s incoming := by
  -- every number of publications is reached with a live message still pending
  have hreach : ∀ k, ∃ n, (D.network s incoming).Reachable n ∧ k ≤ n.published ∧
      ∃ m ∈ n.pending, live n.state m := by
    intro k
    induction k with
    | zero => exact ⟨_, .init rfl, Nat.zero_le _, m, hm, hlive⟩
    | succ k ih =>
      obtain ⟨n, hn, hk, m, hm, hlive⟩ := ih
      obtain ⟨o, s', out, m', hhandle, hmem, hsub, hlive'⟩ := hstep n.state m hlive
      obtain ⟨index, hget⟩ := List.mem_iff_getElem?.1 hm
      have hdeliver : D.deliver n index o = some ⟨s', n.pending.eraseIdx index ++
          out.filter D.subscribed, n.published + out.length⟩ := by
        rw [deliver, hget]
        simp only [hhandle, Option.map_some]
      have hpos : 0 < out.length := List.length_pos_of_mem hmem
      refine ⟨_, .step (a := (index, o)) hn trivial hdeliver, ?_, m', ?_, hlive'⟩
      · exact Nat.add_le_add hk hpos
      · exact List.mem_append_right _ (List.mem_filter.2 ⟨hmem, hsub⟩)
  rintro ⟨bound, hbound⟩
  obtain ⟨n, hn, hk, -⟩ := hreach (bound + 1)
  have := hbound n hn
  omega

end Dispatcher

end Echo
end IotIde
