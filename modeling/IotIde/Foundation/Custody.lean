import Mathlib

/-!
# What is taken is given back

A program takes resources and gives them back: memory, locks, handles, threads.  One
resource may rest on others; it is taken after them and given back before.

* `ledger` — what is held after a history, or `none` if the history is not one a correct
  program makes: nothing is taken twice, given back without having been taken, taken
  without what it rests on, or given back from under something that rests on it;
* `ledger_append` — one history after another;
* `count_take_ledger` — every resource has been given back as often as it was taken, once
  more if it is still held;
* `given_of_settled` — so in a history that ends with nothing held, each time once.
-/

namespace Custody

/-- A resource is taken, or given back. -/
inductive Event (ρ : Type*)
  | take (r : ρ)
  | give (r : ρ)
  deriving DecidableEq

section Ledger

variable {ρ : Type*} [DecidableEq ρ] (needs : ρ → Finset ρ)

/-- What is held after one event. -/
def book (held : Finset ρ) : Event ρ → Option (Finset ρ)
  | .take r => if r ∉ held ∧ needs r ⊆ held then some (insert r held) else none
  | .give r => if r ∈ held ∧ ∀ s ∈ held, r ∉ needs s then some (held.erase r) else none

/-- What is held after a history. -/
def ledger (held : Finset ρ) : List (Event ρ) → Option (Finset ρ)
  | [] => some held
  | e :: es => (book needs held e).bind fun held' => ledger held' es

/-- A history that starts and ends with nothing held. -/
def Settled (events : List (Event ρ)) : Prop := ledger needs ∅ events = some ∅

instance (events : List (Event ρ)) : Decidable (Settled needs events) :=
  inferInstanceAs (Decidable (_ = _))

variable {needs}

theorem ledger_append {held held' : Finset ρ} {es : List (Event ρ)}
    (h : ledger needs held es = some held') (es' : List (Event ρ)) :
    ledger needs held (es ++ es') = ledger needs held' es' := by
  induction es generalizing held with
  | nil =>
    cases h
    rfl
  | cons e es ih =>
    obtain ⟨t, ht, hrest⟩ := Option.bind_eq_some_iff.1 h
    rw [List.cons_append, ledger, ht, Option.bind_some]
    exact ih hrest

/-- One event adds a resource to the count, or takes it off. -/
theorem count_take_book {held held' : Finset ρ} {e : Event ρ} (h : book needs held e = some held')
    (r : ρ) : [e].count (.take r) + (if r ∈ held then 1 else 0) =
      [e].count (.give r) + (if r ∈ held' then 1 else 0) := by
  cases e with
  | take s =>
    rw [book] at h
    split at h
    · rename_i htaken
      cases h
      by_cases hr : r = s
      · subst hr
        simp [htaken.1]
      · simp [hr, Ne.symm hr]
    · cases h
  | give s =>
    rw [book] at h
    split at h
    · rename_i hgiven
      cases h
      by_cases hr : r = s
      · subst hr
        simp [hgiven.1]
      · simp [hr, Ne.symm hr]
    · cases h

/-- What was taken and what was given back differ by what is held. -/
theorem count_take_ledger {held held' : Finset ρ} {es : List (Event ρ)}
    (h : ledger needs held es = some held') (r : ρ) :
    es.count (.take r) + (if r ∈ held then 1 else 0) =
      es.count (.give r) + (if r ∈ held' then 1 else 0) := by
  induction es generalizing held with
  | nil =>
    cases h
    rfl
  | cons e es ih =>
    obtain ⟨t, ht, hrest⟩ := Option.bind_eq_some_iff.1 h
    have hone := count_take_book ht r
    have hlater := ih hrest
    rw [← List.singleton_append, List.count_append, List.count_append]
    omega

/-- In a settled history every resource is given back as often as it was taken. -/
theorem given_of_settled {es : List (Event ρ)} (h : Settled needs es) (r : ρ) :
    es.count (.take r) = es.count (.give r) := by
  have := count_take_ledger h r
  simpa using this

end Ledger

end Custody
