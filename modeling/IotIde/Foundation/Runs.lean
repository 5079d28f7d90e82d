import Mathlib

/-!
# Runs of a labelled machine

A machine whose labels carry everything that decides a step: which thread moves, what
it was given, and how each call outside the program came out.  A run is then a list
of labels, and a property of all schedules is a property of all lists.

* `Machine.ReachableVia` — the states of the runs all of whose steps meet a condition,
  and `Machine.invariant`, the induction over them;
* `Machine.run` — one run, with `reachable_of_run`;
* `Machine.Along`, `Machine.Meets` — a property of every state of one run, a condition on
  every step of it, and `along_iff_meets`, which compares the two;
* `Machine.LeadsTo` — that there is a run of such steps from one state to another;
* `run_rel` — two machines that take related states to related states;
* `Since` — "something happened, and since then nothing of a second kind did" over a
  history, with the recursion `since_concat`.
-/

namespace Runs

/-- A machine: where it may start, and what each label does where it can happen. -/
structure Machine (σ α : Type*) where
  init : σ → Prop
  step : σ → α → Option σ

namespace Machine

variable {σ α : Type*} (M : Machine σ α)

/-- The states of the runs all of whose steps meet `cond`. -/
inductive ReachableVia (cond : σ → α → Prop) : σ → Prop
  | init {s : σ} : M.init s → ReachableVia cond s
  | step {s s' : σ} {a : α} : ReachableVia cond s → cond s a → M.step s a = some s' →
      ReachableVia cond s'

/-- The states of all runs. -/
def Reachable (s : σ) : Prop := M.ReachableVia (fun _ _ => True) s

variable {M}

/-- What holds at the start and survives every step that meets the condition holds
throughout. -/
theorem invariant {cond : σ → α → Prop} {P : σ → Prop} (hinit : ∀ s, M.init s → P s)
    (hstep : ∀ s a s', P s → cond s a → M.step s a = some s' → P s') :
    ∀ s, M.ReachableVia cond s → P s := by
  intro s h
  induction h with
  | init h => exact hinit _ h
  | step _ hcond hs ih => exact hstep _ _ _ ih hcond hs

theorem ReachableVia.mono {cond cond' : σ → α → Prop} (hle : ∀ s a, cond s a → cond' s a)
    {s : σ} (h : M.ReachableVia cond s) : M.ReachableVia cond' s := by
  induction h with
  | init h => exact .init h
  | step _ hcond hs ih => exact .step ih (hle _ _ hcond) hs

variable (M)

/-- One run, by its labels. -/
def run : σ → List α → Option σ
  | s, [] => some s
  | s, a :: as => (M.step s a).bind fun s' => run s' as

variable {M}

theorem ReachableVia.run {s : σ} (hs : M.Reachable s) :
    ∀ {as : List α} {s' : σ}, M.run s as = some s' → M.Reachable s' := by
  intro as
  induction as generalizing s with
  | nil =>
    intro s' h
    cases h
    exact hs
  | cons a as ih =>
    intro s' h
    obtain ⟨t, ht, h⟩ := Option.bind_eq_some_iff.1 h
    exact ih (.step hs trivial ht) h

theorem reachable_of_run {s s' : σ} {as : List α} (hinit : M.init s)
    (h : M.run s as = some s') : M.Reachable s' :=
  ReachableVia.run (.init hinit) h

/-! ## One run, state by state -/

variable (M)

/-- Every state of the run has `P`; a label that cannot happen ends the run. -/
def Along (P : σ → Prop) : σ → List α → Prop
  | s, [] => P s
  | s, a :: as => P s ∧ ∀ s', M.step s a = some s' → Along P s' as

/-- Every step of the run meets `cond`. -/
def Meets (cond : σ → α → Prop) : σ → List α → Prop
  | _, [] => True
  | s, a :: as => ∀ s', M.step s a = some s' → cond s a ∧ Meets cond s' as

variable {M}

theorem meets_of_forall {cond : σ → α → Prop} (h : ∀ s a, cond s a) :
    ∀ (as : List α) (s : σ), M.Meets cond s as := by
  intro as
  induction as with
  | nil => intro s; trivial
  | cons a as ih => exact fun s s' _ => ⟨h s a, ih s'⟩

/-- A step that meets the condition, and then a run that does. -/
theorem Meets.cons {cond : σ → α → Prop} {s s' : σ} {a : α} {as : List α}
    (hstep : M.step s a = some s') (hcond : cond s a) (hrest : M.Meets cond s' as) :
    M.Meets cond s (a :: as) := by
  intro t ht
  rw [hstep, Option.some.injEq] at ht
  exact ⟨hcond, ht ▸ hrest⟩

instance decidableMeets {cond : σ → α → Prop} [∀ s a, Decidable (cond s a)] :
    ∀ (as : List α) (s : σ), Decidable (M.Meets cond s as)
  | [], _ => isTrue trivial
  | a :: as, s =>
    match h : M.step s a with
    | none => isTrue fun s' hs => by rw [h] at hs; cases hs
    | some t =>
      have : Decidable (M.Meets cond t as) := decidableMeets as t
      decidable_of_iff (cond s a ∧ M.Meets cond t as)
        ⟨fun hmeets s' hs => by cases h.symm.trans hs; exact hmeets, fun hmeets => hmeets t h⟩

theorem ReachableVia.run_of_meets {cond : σ → α → Prop} {s : σ} (hs : M.ReachableVia cond s)
    {as : List α} {s' : σ} (hmeets : M.Meets cond s as) (hrun : M.run s as = some s') :
    M.ReachableVia cond s' := by
  induction as generalizing s with
  | nil =>
    cases hrun
    exact hs
  | cons a as ih =>
    obtain ⟨t, ht, hrest⟩ := Option.bind_eq_some_iff.1 hrun
    obtain ⟨hcond, hlater⟩ := hmeets t ht
    exact ih (.step hs hcond ht) hlater hrest

variable (M)

/-- Some run whose steps meet the condition goes from one state to the other. -/
def LeadsTo (cond : σ → α → Prop) (s s' : σ) : Prop :=
  ∃ as, M.Meets cond s as ∧ M.run s as = some s'

variable {M}

theorem LeadsTo.refl {cond : σ → α → Prop} (s : σ) : M.LeadsTo cond s s := ⟨[], trivial, rfl⟩

theorem LeadsTo.head {cond : σ → α → Prop} {s s' s'' : σ} {a : α} (hstep : M.step s a = some s')
    (hcond : cond s a) (h : M.LeadsTo cond s' s'') : M.LeadsTo cond s s'' := by
  obtain ⟨as, hmeets, hrun⟩ := h
  refine ⟨a :: as, fun t ht => ?_, ?_⟩
  · cases hstep.symm.trans ht
    exact ⟨hcond, hmeets⟩
  · rw [run, hstep]
    exact hrun

theorem LeadsTo.trans {cond : σ → α → Prop} {s s' s'' : σ} (h : M.LeadsTo cond s s')
    (h' : M.LeadsTo cond s' s'') : M.LeadsTo cond s s'' := by
  obtain ⟨as, hmeets, hrun⟩ := h
  induction as generalizing s with
  | nil =>
    cases hrun
    exact h'
  | cons a as ih =>
    obtain ⟨t, ht, hrest⟩ := Option.bind_eq_some_iff.1 hrun
    obtain ⟨hcond, hlater⟩ := hmeets t ht
    exact .head ht hcond (ih hlater hrest)

/-- If under an invariant a step keeps `P` exactly when it meets the condition, then so
does a run. -/
theorem along_iff_meets {I P : σ → Prop} {cond : σ → α → Prop}
    (hinv : ∀ s a s', I s → P s → M.step s a = some s' → I s')
    (hexact : ∀ s a s', I s → P s → M.step s a = some s' → (P s' ↔ cond s a)) :
    ∀ (as : List α) (s : σ), I s → P s → (M.Along P s as ↔ M.Meets cond s as) := by
  intro as
  induction as with
  | nil => intro s _ hP; exact ⟨fun _ => trivial, fun _ => hP⟩
  | cons a as ih =>
    intro s hI hP
    constructor
    · rintro ⟨-, hrest⟩ s' hs
      have hI' := hinv s a s' hI hP hs
      have hP' : P s' := by
        have h := hrest s' hs
        cases as with
        | nil => exact h
        | cons _ _ => exact h.1
      exact ⟨(hexact s a s' hI hP hs).1 hP', (ih s' hI' hP').1 (hrest s' hs)⟩
    · intro h
      refine ⟨hP, fun s' hs => ?_⟩
      obtain ⟨hcond, hmeets⟩ := h s' hs
      exact (ih s' (hinv s a s' hI hP hs) ((hexact s a s' hI hP hs).2 hcond)).2 hmeets

/-- A run whose steps meet the condition reaches only states that such runs reach. -/
theorem Along.of_meets {cond : σ → α → Prop} {P : σ → Prop}
    (hP : ∀ s, M.ReachableVia cond s → P s) :
    ∀ (as : List α) (s : σ), M.ReachableVia cond s → M.Meets cond s as → M.Along P s as := by
  intro as
  induction as with
  | nil => intro s hs _; exact hP s hs
  | cons a as ih =>
    intro s hs h
    refine ⟨hP s hs, fun s' hstep => ?_⟩
    obtain ⟨hcond, hmeets⟩ := h s' hstep
    exact ih s' (.step hs hcond hstep) hmeets

/-! ## Two machines side by side -/

/-- If two machines go from related states to related states, or stop together, on every
label that meets a condition, they do so over every run of such labels. -/
theorem run_rel {τ : Type*} {M : Machine σ α} {N : Machine τ α} {R : σ → τ → Prop}
    {cond : α → Prop}
    (hstep : ∀ s t a, R s t → cond a → Option.Rel R (M.step s a) (N.step t a)) :
    ∀ (as : List α) (s : σ) (t : τ), R s t → (∀ a ∈ as, cond a) →
      Option.Rel R (M.run s as) (N.run t as) := by
  intro as
  induction as with
  | nil => intro s t h _; exact .some h
  | cons a as ih =>
    intro s t h hcond
    have hone := hstep s t a h (hcond a List.mem_cons_self)
    unfold Machine.run
    cases hs : M.step s a <;> cases ht : N.step t a <;> rw [hs, ht] at hone
    · exact .none
    · cases hone
    · cases hone
    · cases hone with
      | some h' => exact ih _ _ h' fun b hb => hcond b (List.mem_cons_of_mem _ hb)

end Machine

/-! ## What has held since -/

section Since

variable {α β : Type*} {P Q : α → Prop}

/-- Some entry of the history is a `P`, and every later one is a `Q`. -/
def Since (P Q : α → Prop) (history : List α) : Prop :=
  ∃ pre x post, history = pre ++ x :: post ∧ P x ∧ ∀ y ∈ post, Q y

theorem not_since_nil : ¬ Since P Q [] := by
  rintro ⟨pre, x, post, h, -⟩
  simp at h

/-- The newest entry either starts it or keeps it up. -/
theorem since_concat {h : List α} {e : α} : Since P Q (h ++ [e]) ↔ P e ∨ Q e ∧ Since P Q h := by
  constructor
  · rintro ⟨pre, x, post, heq, hx, hpost⟩
    rcases List.eq_nil_or_concat post with rfl | ⟨post, y, rfl⟩
    · obtain ⟨-, hxe⟩ := List.append_inj' heq rfl
      cases hxe
      exact Or.inl hx
    · rw [List.concat_eq_append, ← List.cons_append, ← List.append_assoc] at heq
      obtain ⟨hh, hye⟩ := List.append_inj' heq rfl
      cases hye
      refine Or.inr ⟨hpost e (by simp), pre, x, post, hh, hx, fun z hz => hpost z ?_⟩
      rw [List.concat_eq_append]
      exact List.mem_append_left _ hz
  · rintro (he | ⟨he, pre, x, post, rfl, hx, hpost⟩)
    · exact ⟨h, e, [], rfl, he, by simp⟩
    · refine ⟨pre, x, post ++ [e], by simp, hx, fun y hy => ?_⟩
      rcases List.mem_append.1 hy with hy | hy
      · exact hpost y hy
      · rw [List.mem_singleton.1 hy]
        exact he

/-- A history of readings is read entry by entry. -/
theorem since_map {f : β → α} {h : List β} :
    Since P Q (h.map f) ↔ Since (fun b => P (f b)) (fun b => Q (f b)) h := by
  induction h using List.reverseRecOn with
  | nil => exact ⟨fun h => absurd h not_since_nil, fun h => absurd h not_since_nil⟩
  | append_singleton h e ih =>
    rw [List.map_append, List.map_singleton, since_concat, since_concat, ih]

end Since

end Runs
