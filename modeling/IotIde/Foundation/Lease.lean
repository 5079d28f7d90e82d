import IotIde.Foundation.Runs

/-!
# Leases

A lease has at most one holder and the time of the holder's last sign of life.  This
module knows nothing about how requests are decided: it reads off a history of
decisions who holds the lease and since when.

* `Lease.after` — the lease a history of events leaves;
* `Lease.held_iff` — `c` holds it exactly when it was granted to `c` and nothing since
  has granted it again, released it, withdrawn it or given it to another;
* `Lease.stamp_of_held` — the holder's time stamp is that of its last grant or renewal.
-/

namespace Lease

open Runs

variable {Id : Type*}

/-- A held lease. -/
structure Holding (Id : Type*) where
  holder : Id
  stamp : ℤ

/-- What was decided. -/
inductive Event (Id : Type*)
  | granted (c : Id) (t : ℤ)
  | renewed (c : Id) (t : ℤ)
  | released (c : Id)
  | withdrawn
  | refused

namespace Event

/-- The event grants the lease to `c`. -/
def Grants (c : Id) : Event Id → Prop
  | granted d _ => d = c
  | _ => False

/-- The event ends a lease of `c`. -/
def Ends (c : Id) : Event Id → Prop
  | granted d _ => d ≠ c
  | released d => d = c
  | withdrawn => True
  | _ => False

/-- The event is a sign of life of `c` at time `t`. -/
def Stamps (c : Id) (t : ℤ) : Event Id → Prop
  | granted d t' => d = c ∧ t' = t
  | renewed d t' => d = c ∧ t' = t
  | _ => False

end Event

/-- `c` holds the lease. -/
def HeldBy (c : Id) (lease : Option (Holding Id)) : Prop := ∃ t, lease = some ⟨c, t⟩

/-- At most one holds a lease. -/
theorem HeldBy.unique {c d : Id} {lease : Option (Holding Id)} (hc : HeldBy c lease)
    (hd : HeldBy d lease) : c = d := by
  obtain ⟨t, rfl⟩ := hc
  obtain ⟨u, hu⟩ := hd
  cases hu
  rfl

variable [DecidableEq Id]

/-- What an event does to the lease. -/
def Event.apply (lease : Option (Holding Id)) : Event Id → Option (Holding Id)
  | granted c t => some ⟨c, t⟩
  | renewed c t => lease.map fun held => if held.holder = c then ⟨c, t⟩ else held
  | released c => lease.filter fun held => held.holder ≠ c
  | withdrawn => none
  | refused => lease

/-- The lease a history leaves. -/
def after (history : List (Event Id)) : Option (Holding Id) :=
  history.foldl Event.apply none

@[simp] theorem after_concat (h : List (Event Id)) (e : Event Id) :
    after (h ++ [e]) = e.apply (after h) := by
  simp [after]

/-- One event: it grants the lease, or leaves it where it was. -/
theorem heldBy_apply (c : Id) (lease : Option (Holding Id)) (e : Event Id) :
    HeldBy c (e.apply lease) ↔ e.Grants c ∨ (¬ e.Grants c ∧ ¬ e.Ends c) ∧ HeldBy c lease := by
  cases e with
  | granted d t => by_cases h : d = c <;> simp [HeldBy, Event.apply, Event.Grants, Event.Ends, h]
  | renewed d t =>
    simp only [HeldBy, Event.apply, Event.Grants, Event.Ends, not_false_eq_true, true_and,
      false_or]
    rcases lease with - | ⟨b, u⟩
    · simp
    · by_cases h : b = d
      · subst h
        simp
      · simp [h]
  | released d =>
    simp only [HeldBy, Event.apply, Event.Grants, Event.Ends, not_false_eq_true, true_and,
      false_or]
    rcases lease with - | ⟨b, u⟩
    · simp
    · by_cases h : b = d
      · subst h
        by_cases hc : b = c <;> simp [Option.filter, hc]
      · by_cases hc : b = c
        · subst hc
          simp [Option.filter, h, Ne.symm h]
        · simp [Option.filter, h, hc]
  | withdrawn => simp [HeldBy, Event.apply, Event.Grants, Event.Ends]
  | refused => simp [Event.apply, Event.Grants, Event.Ends]

/-- Who holds the lease is written in the history. -/
theorem held_iff (c : Id) (h : List (Event Id)) :
    HeldBy c (after h) ↔ Since (Event.Grants c) (fun e => ¬ e.Grants c ∧ ¬ e.Ends c) h := by
  induction h using List.reverseRecOn with
  | nil => exact ⟨fun ⟨_, h⟩ => absurd h (by simp [after]), fun h => absurd h not_since_nil⟩
  | append_singleton h e ih => rw [after_concat, heldBy_apply, since_concat, ih]

theorem stamp_apply {c : Id} {t : ℤ} {lease : Option (Holding Id)} {e : Event Id}
    (h : e.apply lease = some ⟨c, t⟩) :
    e.Stamps c t ∨ (∀ u, ¬ e.Stamps c u) ∧ lease = some ⟨c, t⟩ := by
  cases e with
  | granted d u =>
    cases h
    exact Or.inl ⟨rfl, rfl⟩
  | renewed d u =>
    obtain ⟨held, rfl, hheld⟩ := Option.map_eq_some_iff.1 h
    split at hheld
    · cases hheld
      exact Or.inl ⟨rfl, rfl⟩
    · rename_i hne
      subst hheld
      exact Or.inr ⟨fun u hu => hne hu.1.symm, rfl⟩
  | released d =>
    obtain ⟨rfl, -⟩ := Option.filter_eq_some_iff.1 h
    exact Or.inr ⟨fun _ hu => hu, rfl⟩
  | withdrawn => cases h
  | refused => exact Or.inr ⟨fun _ hu => hu, h⟩

/-- The stamp of a held lease is that of the holder's last sign of life. -/
theorem stamp_of_held {c : Id} {t : ℤ} : ∀ {h : List (Event Id)}, after h = some ⟨c, t⟩ →
    Since (Event.Stamps c t) (fun e => ∀ u, ¬ e.Stamps c u) h := by
  intro h
  induction h using List.reverseRecOn with
  | nil => intro h; cases h
  | append_singleton h e ih =>
    intro hheld
    rw [after_concat] at hheld
    rw [since_concat]
    rcases stamp_apply hheld with he | ⟨he, hlease⟩
    · exact Or.inl he
    · exact Or.inr ⟨he, ih hlease⟩

end Lease
