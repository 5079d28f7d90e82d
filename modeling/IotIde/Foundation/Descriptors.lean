import Mathlib

/-!
# Descriptor tables

The open descriptors of a process, as POSIX has them.  `fork` hands the child a copy of
the whole table and `exec` drops what is close-on-exec, so who still holds a file is a
matter of which table entries survive.

* `Table.close`, `Table.install`, `Table.dup2`, `Table.exec` — the calls, with a
  membership lemma for each;
* `Table.Holds` — the process holds a file at some descriptor;
* `Table.OnlyAt` — a file is held at one given descriptor if at all, kept by every call
  that does not duplicate that descriptor.
-/

namespace Descriptors

variable {File : Type*}

/-- An open descriptor. -/
structure Descriptor (File : Type*) where
  file : File
  cloexec : Bool
  deriving DecidableEq

/-- The open descriptors of a process, by number. -/
abbrev Table (File : Type*) := List (ℕ × Descriptor File)

namespace Table

variable {t : Table File} {o : File} {w : ℕ}

/-- The descriptor `fd`, if it is open. -/
def lookup (t : Table File) (fd : ℕ) : Option (Descriptor File) :=
  (t.find? fun p => p.1 = fd).map Prod.snd

/-- `fd` is not open. -/
def Free (t : Table File) (fd : ℕ) : Prop := ∀ p ∈ t, p.1 ≠ fd

instance (t : Table File) (fd : ℕ) : Decidable (t.Free fd) :=
  inferInstanceAs (Decidable (∀ p ∈ t, p.1 ≠ fd))

/-- `close` -/
def close (t : Table File) (fd : ℕ) : Table File := t.filter fun p => p.1 ≠ fd

/-- What `open` and `pipe` do once they have picked a number: the new descriptor is not
close-on-exec. -/
def install (t : Table File) (fd : ℕ) (file : File) : Table File :=
  (fd, ⟨file, false⟩) :: t.close fd

/-- `dup2` -/
def dup2 (t : Table File) (old new : ℕ) : Table File :=
  match t.lookup old with
  | none => t
  | some d => if old = new then t else t.install new d.file

/-- What `exec` leaves. -/
def exec (t : Table File) : Table File := t.filter fun p => !p.2.cloexec

/-- The process holds the file. -/
def Holds (t : Table File) (o : File) : Prop := ∃ p ∈ t, p.2.file = o

instance [DecidableEq File] (t : Table File) (o : File) : Decidable (t.Holds o) :=
  inferInstanceAs (Decidable (∃ p ∈ t, p.2.file = o))

/-- If the process holds the file, then at descriptor `w`. -/
def OnlyAt (t : Table File) (o : File) (w : ℕ) : Prop := ∀ p ∈ t, p.2.file = o → p.1 = w

/-! ## What the calls leave open -/

@[simp] theorem mem_close {p : ℕ × Descriptor File} {fd : ℕ} :
    p ∈ t.close fd ↔ p ∈ t ∧ p.1 ≠ fd := by
  simp [close]

@[simp] theorem mem_install {p : ℕ × Descriptor File} {fd : ℕ} :
    p ∈ t.install fd o ↔ p = (fd, ⟨o, false⟩) ∨ p ∈ t ∧ p.1 ≠ fd := by
  simp [install]

@[simp] theorem mem_exec {p : ℕ × Descriptor File} : p ∈ t.exec ↔ p ∈ t ∧ p.2.cloexec = false := by
  simp [exec]

theorem lookup_mem {fd : ℕ} {d : Descriptor File} (h : t.lookup fd = some d) : (fd, d) ∈ t := by
  obtain ⟨p, hp, rfl⟩ := Option.map_eq_some_iff.1 h
  have hfd : p.1 = fd := by simpa using List.find?_some hp
  rw [← hfd]
  exact List.mem_of_find?_eq_some hp

/-! ## Who holds a file -/

theorem not_holds_nil : ¬ Holds ([] : Table File) o := by
  simp [Holds]

theorem holds_of_mem (h : (w, ⟨o, false⟩) ∈ t) : t.Holds o := ⟨_, h, rfl⟩

theorem OnlyAt.nil : OnlyAt ([] : Table File) o w := by
  simp [OnlyAt]

theorem OnlyAt.of_not_holds (h : ¬ t.Holds o) : t.OnlyAt o w :=
  fun p hp ho => absurd ⟨p, hp, ho⟩ h

theorem OnlyAt.close (h : t.OnlyAt o w) (fd : ℕ) : (t.close fd).OnlyAt o w :=
  fun p hp ho => h p (mem_close.1 hp).1 ho

theorem OnlyAt.exec (h : t.OnlyAt o w) : t.exec.OnlyAt o w :=
  fun p hp ho => h p (mem_exec.1 hp).1 ho

/-- Closing the one descriptor lets the file go. -/
theorem OnlyAt.not_holds_close (h : t.OnlyAt o w) : ¬ (t.close w).Holds o := by
  rintro ⟨p, hp, ho⟩
  rw [mem_close] at hp
  exact hp.2 (h p hp.1 ho)

theorem OnlyAt.install {o' : File} (h : t.OnlyAt o w) (hne : o' ≠ o) (fd : ℕ) :
    (t.install fd o').OnlyAt o w := by
  intro p hp ho
  rcases mem_install.1 hp with rfl | ⟨hp, -⟩
  · exact absurd ho hne
  · exact h p hp ho

/-- Opening another file over the one descriptor lets the first go. -/
theorem OnlyAt.not_holds_install {o' : File} (h : t.OnlyAt o w) (hne : o' ≠ o) :
    ¬ (t.install w o').Holds o := by
  rintro ⟨p, hp, ho⟩
  rcases mem_install.1 hp with rfl | ⟨hp, hfd⟩
  · exact hne ho
  · exact hfd (h p hp ho)

theorem OnlyAt.install_self (h : ¬ t.Holds o) (fd : ℕ) : (t.install fd o).OnlyAt o fd := by
  intro p hp ho
  rcases mem_install.1 hp with rfl | ⟨hp, -⟩
  · rfl
  · exact absurd ⟨p, hp, ho⟩ h

/-- Duplicating another descriptor is opening another file. -/
theorem dup2_eq {old new : ℕ} {d : Descriptor File} (h : t.lookup old = some d) (hne : old ≠ new) :
    t.dup2 old new = t.install new d.file := by
  rw [dup2, h]
  exact if_neg hne

theorem not_holds_mono {t' : Table File} (h : ¬ t.Holds o) (hsub : ∀ p ∈ t', p ∈ t) :
    ¬ t'.Holds o := fun ⟨p, hp, ho⟩ => h ⟨p, hsub p hp, ho⟩

end Table

end Descriptors
