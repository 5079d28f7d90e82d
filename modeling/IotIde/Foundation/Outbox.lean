import Mathlib

/-!
# An outbox with acknowledgements

A sender keeps what it has accepted until the receiver acknowledges it, and sends it again and
again meanwhile.  The network loses what it likes.  Acknowledgements name an identifier, which
the sender gives out afresh.

* `Outbox`, `Outbox.Step` — the sender, the network, the receiver, and what they do;
* `Safe`, `safe_of_steps` — the invariant of every run;
* `le_pending_add_received` — so every message that was accepted is still kept or was received,
  as often as it was accepted.
-/

namespace Outboxes

variable {ι μ : Type*}

/-- Messages are numbered in the order in which they were accepted. -/
structure Outbox (ι μ : Type*) where
  accepted : List μ
  pending : List (ι × ℕ)
  flight : List (ι × ℕ)
  acks : List ι
  received : List ℕ

namespace Outbox

/-- A new message gets an identifier that nothing in the system carries; what is kept is sent;
what arrives is received and acknowledged; an acknowledgement that arrives strikes what it
names; and the network loses messages and acknowledgements. -/
inductive Step : Outbox ι μ → Outbox ι μ → Prop
  | accept {s : Outbox ι μ} (i : ι) (m : μ) : (∀ e ∈ s.pending, e.1 ≠ i) →
      (∀ e ∈ s.flight, e.1 ≠ i) → i ∉ s.acks →
      Step s { s with
        accepted := s.accepted ++ [m], pending := s.pending ++ [(i, s.accepted.length)] }
  | send {s : Outbox ι μ} {e : ι × ℕ} : e ∈ s.pending → Step s { s with flight := s.flight ++ [e] }
  | deliver {s : Outbox ι μ} {e : ι × ℕ} {rest : List (ι × ℕ)} : s.flight = e :: rest →
      Step s { s with flight := rest, acks := s.acks ++ [e.1], received := s.received ++ [e.2] }
  | settle {s : Outbox ι μ} {i : ι} {rest : List ι} {kept : List (ι × ℕ)} : s.acks = i :: rest →
      kept.Sublist s.pending → (∀ e ∈ s.pending, e.1 ≠ i → e ∈ kept) →
      Step s { s with acks := rest, pending := kept }
  | lose {s : Outbox ι μ} {flight : List (ι × ℕ)} {acks : List ι} : flight.Sublist s.flight →
      acks.Sublist s.acks → Step s { s with flight := flight, acks := acks }

/-- Nothing accepted is lost, and what is under way agrees with what is kept. -/
structure Safe (s : Outbox ι μ) : Prop where
  kept : ∀ n < s.accepted.length, n ∈ s.pending.map Prod.snd ∨ n ∈ s.received
  nodup : (s.pending.map Prod.fst).Nodup
  pending_lt : ∀ e ∈ s.pending, e.2 < s.accepted.length
  flight_lt : ∀ e ∈ s.flight, e.2 < s.accepted.length
  flight_agrees : ∀ e ∈ s.flight, ∀ e' ∈ s.pending, e.1 = e'.1 → e.2 = e'.2
  acked : ∀ e ∈ s.pending, e.1 ∈ s.acks → e.2 ∈ s.received
  received_lt : ∀ n ∈ s.received, n < s.accepted.length

theorem safe_empty : Safe (⟨[], [], [], [], []⟩ : Outbox ι μ) where
  kept := by simp
  nodup := by simp
  pending_lt := by simp
  flight_lt := by simp
  flight_agrees := by simp
  acked := by simp
  received_lt := by simp

theorem Safe.accept {s : Outbox ι μ} (h : s.Safe) {i : ι} (m : μ)
    (hpending : ∀ e ∈ s.pending, e.1 ≠ i) (hflight : ∀ e ∈ s.flight, e.1 ≠ i) (hacks : i ∉ s.acks) :
    Safe { s with
      accepted := s.accepted ++ [m], pending := s.pending ++ [(i, s.accepted.length)] } where
  kept n hn := by
    simp only [List.length_append, List.length_singleton] at hn
    simp only [List.map_append, List.map_singleton, List.mem_append, List.mem_singleton]
    rcases Nat.lt_succ_iff_lt_or_eq.1 hn with hlt | rfl
    · exact (h.kept n hlt).imp_left Or.inl
    · exact Or.inl (Or.inr rfl)
  nodup := by
    rw [List.map_append, List.map_singleton, List.nodup_append]
    refine ⟨h.nodup, List.nodup_singleton _, fun j hj k hk hjk => ?_⟩
    obtain ⟨e, he, rfl⟩ := List.mem_map.1 hj
    exact hpending e he (hjk.trans (List.mem_singleton.1 hk))
  pending_lt e he := by
    rw [List.length_append, List.length_singleton]
    rcases List.mem_append.1 he with he | he
    · exact (h.pending_lt e he).trans (Nat.lt_succ_self _)
    · rw [List.mem_singleton.1 he]
      exact Nat.lt_succ_self _
  flight_lt e he := by
    rw [List.length_append, List.length_singleton]
    exact (h.flight_lt e he).trans (Nat.lt_succ_self _)
  flight_agrees e he e' he' heq := by
    rcases List.mem_append.1 he' with he' | he'
    · exact h.flight_agrees e he e' he' heq
    · rw [List.mem_singleton.1 he'] at heq
      exact absurd heq (hflight e he)
  acked e he hmem := by
    rcases List.mem_append.1 he with he | he
    · exact h.acked e he hmem
    · rw [List.mem_singleton.1 he] at hmem
      exact absurd hmem hacks
  received_lt n hn := by
    rw [List.length_append, List.length_singleton]
    exact (h.received_lt n hn).trans (Nat.lt_succ_self _)

theorem Safe.send {s : Outbox ι μ} (h : s.Safe) {e : ι × ℕ} (he : e ∈ s.pending) :
    Safe { s with flight := s.flight ++ [e] } where
  __ := h
  flight_lt e' he' := by
    rcases List.mem_append.1 he' with he' | he'
    · exact h.flight_lt e' he'
    · rw [List.mem_singleton.1 he']
      exact h.pending_lt e he
  flight_agrees e₁ he₁ e₂ he₂ heq := by
    rcases List.mem_append.1 he₁ with he₁ | he₁
    · exact h.flight_agrees e₁ he₁ e₂ he₂ heq
    · rw [List.mem_singleton.1 he₁] at heq ⊢
      -- identifiers of what is kept are distinct
      exact congrArg Prod.snd (List.inj_on_of_nodup_map h.nodup he he₂ heq)

theorem Safe.deliver {s : Outbox ι μ} (h : s.Safe) {e : ι × ℕ} {rest : List (ι × ℕ)}
    (hflight : s.flight = e :: rest) :
    Safe { s with flight := rest, acks := s.acks ++ [e.1], received := s.received ++ [e.2] } where
  __ := h
  kept n hn := (h.kept n hn).imp_right (List.mem_append_left _)
  flight_lt e' he' := h.flight_lt e' (hflight ▸ List.mem_cons_of_mem _ he')
  flight_agrees e' he' := h.flight_agrees e' (hflight ▸ List.mem_cons_of_mem _ he')
  acked e' he' hmem := by
    rcases List.mem_append.1 hmem with hmem | hmem
    · exact List.mem_append_left _ (h.acked e' he' hmem)
    · have hagree := h.flight_agrees e (hflight ▸ List.mem_cons_self) e' he'
        (List.mem_singleton.1 hmem).symm
      exact List.mem_append_right _ (List.mem_singleton.2 hagree.symm)
  received_lt n hn := by
    rcases List.mem_append.1 hn with hn | hn
    · exact h.received_lt n hn
    · rw [List.mem_singleton.1 hn]
      exact h.flight_lt e (hflight ▸ List.mem_cons_self)

theorem Safe.settle {s : Outbox ι μ} (h : s.Safe) {i : ι} {rest : List ι} {kept : List (ι × ℕ)}
    (hacks : s.acks = i :: rest) (hsub : kept.Sublist s.pending)
    (hkept : ∀ e ∈ s.pending, e.1 ≠ i → e ∈ kept) :
    Safe { s with acks := rest, pending := kept } where
  __ := h
  kept n hn := by
    rcases h.kept n hn with hmem | hmem
    · obtain ⟨e, he, rfl⟩ := List.mem_map.1 hmem
      by_cases hi : e.1 = i
      · exact Or.inr (h.acked e he (by rw [hacks, hi]; exact List.mem_cons_self))
      · exact Or.inl (List.mem_map_of_mem (hkept e he hi))
    · exact Or.inr hmem
  nodup := h.nodup.sublist (hsub.map _)
  pending_lt e he := h.pending_lt e (hsub.subset he)
  flight_agrees e he e' he' := h.flight_agrees e he e' (hsub.subset he')
  acked e he hmem := h.acked e (hsub.subset he) (hacks ▸ List.mem_cons_of_mem _ hmem)

theorem Safe.lose {s : Outbox ι μ} (h : s.Safe) {flight : List (ι × ℕ)} {acks : List ι}
    (hflight : flight.Sublist s.flight) (hacks : acks.Sublist s.acks) :
    Safe { s with flight := flight, acks := acks } where
  __ := h
  flight_lt e he := h.flight_lt e (hflight.subset he)
  flight_agrees e he := h.flight_agrees e (hflight.subset he)
  acked e he hmem := h.acked e he (hacks.subset hmem)

theorem Safe.step {s s' : Outbox ι μ} (h : s.Safe) (hstep : Step s s') : s'.Safe := by
  cases hstep with
  | accept i m hpending hflight hacks => exact h.accept m hpending hflight hacks
  | send he => exact h.send he
  | deliver hflight => exact h.deliver hflight
  | settle hacks hsub hkept => exact h.settle hacks hsub hkept
  | lose hflight hacks => exact h.lose hflight hacks

/-- **Every run keeps the invariant.** -/
theorem safe_of_steps {s s' : Outbox ι μ} (h : s.Safe) (hsteps : Relation.ReflTransGen Step s s') :
    s'.Safe := by
  induction hsteps with
  | refl => exact h
  | tail _ hstep ih => exact ih.step hstep

theorem filterMap_getElem?_range (l : List μ) :
    (List.range l.length).filterMap (fun n => l[n]?) = l := by
  induction l using List.reverseRecOn with
  | nil => rfl
  | append_singleton l m ih =>
    rw [List.length_append, List.length_singleton, List.range_succ, List.filterMap_append]
    have hfront : (List.range l.length).filterMap (fun n => (l ++ [m])[n]?) =
        (List.range l.length).filterMap (fun n => l[n]?) :=
      List.filterMap_congr fun n hn => List.getElem?_append_left (List.mem_range.1 hn)
    rw [hfront, ih]
    simp

/-- **What was accepted is still kept or was received, as often as it was accepted.** -/
theorem Safe.le_pending_add_received {s : Outbox ι μ} (h : s.Safe) :
    (s.accepted : Multiset μ) ≤
      ↑(s.pending.filterMap fun e => s.accepted[e.2]?) +
        ↑(s.received.filterMap fun n => s.accepted[n]?) := by
  have hnumbers : (List.range s.accepted.length : Multiset ℕ) ≤
      ↑(s.pending.map Prod.snd) + ↑s.received := by
    rw [Multiset.le_iff_subset (Multiset.coe_nodup.2 List.nodup_range)]
    intro n hn
    simpa using h.kept n (List.mem_range.1 hn)
  have hmap := Multiset.filterMap_le_filterMap (fun n => s.accepted[n]?) hnumbers
  rw [Multiset.coe_add, Multiset.filterMap_coe, Multiset.filterMap_coe, filterMap_getElem?_range,
    List.filterMap_append, List.filterMap_map] at hmap
  rwa [Multiset.coe_add]

end Outbox

end Outboxes
