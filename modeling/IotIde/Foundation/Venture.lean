import IotIde.Foundation.FileTree

/-!
# Going where nothing is yet

A walk along a path for which every name that is missing is made a directory, on a tree of
files.  It tells what the directories on the way to a path's last name come to without
making them one path after the other.

* `Tree.venture` — the walk, with the tree that it makes;
* `Tree.ventureParent` — the directory that a path's last name is looked up in, with
  everything on the way;
* `walk_of_venture`, `venture_of_walk`, `venture_kind` — what is made can be walked to, only
  directories are made, and nothing where everything is there;
* `ventureParent_cases` — without `..` the last name of a path is missing, or nothing was.
-/

namespace FileTrees

namespace Tree

variable {α : Type*} [DecidableEq α] {slash dot : α} {t : Tree slash dot}

/-- Component by component like a walk, but a name that is missing is made a directory. -/
def venture : List (List α) → Tree slash dot → ℕ × Position α →
    Option (Tree slash dot × ℕ × Position α)
  | [], t, r => some (t, r)
  | c :: cs, t, r =>
    if h : IsName slash dot c ∧ t.kind r.2 = some .dir ∧ t.kind (r.2 ++ [c]) = none then
      venture cs (t.add r.2 c .dir h.1 h.2.1 h.2.2) (r.1, r.2 ++ [c])
    else
      match t.walk r.1 r.2 [c] with
      | .ok r' => venture cs t r'
      | .error _ => none

/-- `parentOf`, where the directories that are missing on the way are made; the tree with
these comes with it. -/
def ventureParent (t : Tree slash dot) (cwd : Position α) (path : List α) :
    Option (Tree slash dot × Position α × List α) :=
  if path = [] then none
  else if pathMax ≤ path.length then none
  else
    let components := (path.splitOn slash).rdropWhile fun c => c = []
    (venture components.dropLast t (linksMax, start slash cwd path)).map fun s =>
      (s.1, s.2.2, components.getLastD [])

section Parent

variable {cwd : Position α} {path : List α}

/-- The last name of a path that ends with one. -/
theorem parentOf_name {cs : List (List α)} {c : List α} (hnil : path ≠ [])
    (hlen : path.length < pathMax) (hsplit : path.splitOn slash = cs ++ [c]) (hc : c ≠ []) :
    t.parentOf cwd path =
      (t.walk linksMax (start slash cwd path) cs).map fun r => (r.2, c) := by
  have hkept := List.rdropWhile_concat_neg (fun c => decide (c = [])) cs c (by simpa using hc)
  rw [parentOf, if_neg hnil, if_neg (Nat.not_le.2 hlen), hsplit]
  simp only [hkept, List.dropLast_concat, List.getLastD_concat]

theorem ventureParent_name {cs : List (List α)} {c : List α} (hnil : path ≠ [])
    (hlen : path.length < pathMax) (hsplit : path.splitOn slash = cs ++ [c]) (hc : c ≠ []) :
    t.ventureParent cwd path =
      (venture cs t (linksMax, start slash cwd path)).map fun s => (s.1, s.2.2, c) := by
  have hkept := List.rdropWhile_concat_neg (fun c => decide (c = [])) cs c (by simpa using hc)
  rw [ventureParent, if_neg hnil, if_neg (Nat.not_le.2 hlen), hsplit]
  simp only [hkept, List.dropLast_concat, List.getLastD_concat]

variable (hnil : path ≠ []) (hlen : (path ++ [slash]).length < pathMax)
include hnil hlen

/-- A slash at the end changes nothing. -/
theorem parentOf_slash : t.parentOf cwd (path ++ [slash]) = t.parentOf cwd path := by
  have hdrop := List.rdropWhile_concat_pos (fun c : List α => decide (c = []))
    (path.splitOn slash) [] (decide_eq_true rfl)
  have hlen' : path.length < pathMax := by
    rw [List.length_append] at hlen
    exact (Nat.le_add_right _ _).trans_lt hlen
  rw [parentOf, parentOf, if_neg hnil, if_neg (List.append_ne_nil_of_left_ne_nil hnil _),
    if_neg (Nat.not_le.2 hlen), if_neg (Nat.not_le.2 hlen'), start_append hnil,
    splitOn_further path List.not_mem_nil, hdrop]

theorem ventureParent_slash : t.ventureParent cwd (path ++ [slash]) = t.ventureParent cwd path := by
  have hdrop := List.rdropWhile_concat_pos (fun c : List α => decide (c = []))
    (path.splitOn slash) [] (decide_eq_true rfl)
  have hlen' : path.length < pathMax := by
    rw [List.length_append] at hlen
    exact (Nat.le_add_right _ _).trans_lt hlen
  rw [ventureParent, ventureParent, if_neg hnil,
    if_neg (List.append_ne_nil_of_left_ne_nil hnil _), if_neg (Nat.not_le.2 hlen),
    if_neg (Nat.not_le.2 hlen'), start_append hnil, splitOn_further path List.not_mem_nil, hdrop]

end Parent

theorem venture_append (cs ds : List (List α)) : ∀ (t : Tree slash dot) (r : ℕ × Position α),
    venture (cs ++ ds) t r = (venture cs t r).bind fun s => venture ds s.1 s.2 := by
  induction cs with
  | nil => exact fun t r => rfl
  | cons c cs ih =>
    intro t r
    rw [List.cons_append, venture, venture]
    split
    · exact ih _ _
    · split
      · exact ih _ _
      · rfl

/-- What is not there cannot be walked to. -/
theorem walk_missing {c : List α} {r : ℕ × Position α}
    (h : IsName slash dot c ∧ t.kind r.2 = some .dir ∧ t.kind (r.2 ++ [c]) = none) :
    t.walk r.1 r.2 [c] = .error .ENOENT := by
  obtain ⟨hname, hdir, hfree⟩ := h
  have henter : t.enter r.2 c = .error .ENOENT := by
    rw [enter, hdir]
    dsimp only
    rw [if_neg (not_or.2 ⟨hname.1, hname.2.2.2.1⟩), if_neg hname.2.2.2.2,
      if_neg (Nat.not_lt.2 hname.2.1), if_neg (by rw [hfree]; exact Bool.false_ne_true)]
  rw [walk_cons, henter]

/-- Where everything is there, nothing is made. -/
theorem venture_of_walk {cs : List (List α)} : ∀ {r r' : ℕ × Position α},
    t.walk r.1 r.2 cs = .ok r' → venture cs t r = some (t, r') := by
  induction cs with
  | nil =>
    intro r r' h
    rw [walk_nil] at h
    cases h
    rfl
  | cons c cs ih =>
    intro r r' h
    rw [← List.singleton_append, walk_append] at h
    cases hone : t.walk r.1 r.2 [c] with
    | error e =>
      rw [hone] at h
      cases h
    | ok r₁ =>
      rw [hone] at h
      have hthere : ¬ (IsName slash dot c ∧ t.kind r.2 = some .dir ∧
          t.kind (r.2 ++ [c]) = none) := by
        intro hmissing
        rw [walk_missing hmissing] at hone
        cases hone
      rw [venture, dif_neg hthere, hone]
      exact ih h

/-- Only directories are made. -/
theorem venture_kind {cs : List (List α)} : ∀ {t : Tree slash dot} {r : ℕ × Position α}
    {s : Tree slash dot × ℕ × Position α}, venture cs t r = some s →
      ∀ y, s.1.kind y = t.kind y ∨ t.kind y = none ∧ s.1.kind y = some .dir := by
  induction cs with
  | nil =>
    intro t r s h y
    cases h
    exact Or.inl rfl
  | cons c cs ih =>
    intro t r s h y
    rw [venture] at h
    split at h
    · rename_i hmissing
      have hlater := ih h y
      rw [kind_add] at hlater
      split at hlater
      · rename_i hy
        right
        rw [hy] at hlater ⊢
        exact ⟨hmissing.2.2, hlater.elim id fun hmade => hmade.2⟩
      · exact hlater
    · split at h
      · exact ih h y
      · cases h

theorem venture_sub {cs : List (List α)} {r : ℕ × Position α}
    {s : Tree slash dot × ℕ × Position α} (h : venture cs t r = some s) : t.Sub s.1 := by
  intro y k hk
  rcases venture_kind h y with heq | ⟨hnone, -⟩
  · rw [heq, hk]
  · rw [hnone] at hk
    cases hk

/-- What was made can be walked to. -/
theorem walk_of_venture {cs : List (List α)} : ∀ {t : Tree slash dot} {r : ℕ × Position α}
    {s : Tree slash dot × ℕ × Position α}, venture cs t r = some s →
      s.1.walk r.1 r.2 cs = .ok s.2 := by
  induction cs with
  | nil =>
    intro t r s h
    cases h
    exact walk_nil t r.1 r.2
  | cons c cs ih =>
    intro t r s h
    have hsub := venture_sub h
    rw [venture] at h
    rw [← List.singleton_append, walk_append]
    split at h
    · rename_i hmissing
      have hnew : s.1.kind (r.2 ++ [c]) = some .dir :=
        venture_sub h _ _ (by rw [kind_add, if_pos rfl])
      have hentry : c ∈ s.1.entries r.2 := (mem_entries s.1).2 (by rw [hnew]; rfl)
      have hone : s.1.walk r.1 r.2 [c] = .ok (r.1, r.2 ++ [c]) := by
        rw [walk_cons, enter_of_mem_entries hentry]
        simp only [hnew, walk_nil]
      rw [hone]
      exact ih h
    · split at h
      · rename_i r₁ hone
        rw [walk_mono hsub _ _ _ _ hone]
        exact ih h
      · cases h

/-- Below what is missing nothing is there. -/
theorem kind_below_missing {y z : Position α} (hyz : y <+: z) (h : t.kind y = none) :
    t.kind z = none := by
  obtain ⟨zs, rfl⟩ := hyz
  induction zs using List.reverseRecOn with
  | nil => rwa [List.append_nil]
  | append_singleton zs c ih =>
    by_contra hthere
    rw [← List.append_assoc] at hthere
    have hentry : c ∈ t.entries (y ++ zs) :=
      (mem_entries t).2 (Option.ne_none_iff_isSome.1 hthere)
    rw [kind_of_mem_entries t hentry] at ih
    cases ih

section Parent

variable {cwd x : Position α} {path c : List α} {s : Tree slash dot}

/-- Where everything is there on the way, `parentOf` says the same. -/
theorem ventureParent_of_parentOf (h : t.parentOf cwd path = .ok (x, c)) :
    t.ventureParent cwd path = some (t, x, c) := by
  unfold parentOf at h
  unfold ventureParent
  split_ifs at h ⊢
  dsimp only at h ⊢
  generalize ((path.splitOn slash).rdropWhile fun c => decide (c = [])) = front at h ⊢
  cases hwalk : t.walk linksMax (start slash cwd path) front.dropLast with
  | error e =>
    rw [hwalk] at h
    cases h
  | ok r =>
    rw [hwalk] at h
    rw [venture_of_walk (r := (linksMax, start slash cwd path)) hwalk]
    cases h
    rfl

theorem parentOf_of_ventureParent (h : t.ventureParent cwd path = some (s, x, c)) :
    s.parentOf cwd path = .ok (x, c) := by
  unfold ventureParent at h
  unfold parentOf
  split_ifs at h ⊢
  dsimp only at h ⊢
  generalize ((path.splitOn slash).rdropWhile fun c => decide (c = [])) = front at h ⊢
  obtain ⟨v, hventure, heq⟩ := Option.map_eq_some_iff.1 h
  cases heq
  rw [walk_of_venture hventure]
  rfl

theorem ventureParent_kind (h : t.ventureParent cwd path = some (s, x, c)) (y : Position α) :
    s.kind y = t.kind y ∨ t.kind y = none ∧ s.kind y = some .dir := by
  unfold ventureParent at h
  split_ifs at h
  obtain ⟨v, hventure, heq⟩ := Option.map_eq_some_iff.1 h
  cases heq
  exact venture_kind hventure y

end Parent

/-- No name but `..` leads up. -/
theorem prefix_of_enter {x y z : Position α} {c : List α} (hup : [dot, dot] ≠ c) (hy : y <+: x)
    (h : t.enter x c = .ok z) : y <+: z := by
  unfold enter at h
  split at h
  · cases h
  · split_ifs at h with hstay hdots hlong hthere
    · cases h
      exact hy
    · exact absurd hdots.symm hup
    · cases h
      exact hy.trans (List.prefix_append _ _)
  · cases h

/-- From a place below which there are only directories nothing but `..` leads away. -/
theorem venture_below {y : Position α} {cs : List (List α)} (hup : [dot, dot] ∉ cs) :
    ∀ {t : Tree slash dot} {r : ℕ × Position α} {s : Tree slash dot × ℕ × Position α},
      (∀ z, y <+: z → t.kind z = none ∨ t.kind z = some .dir) → y <+: r.2 →
        venture cs t r = some s → y <+: s.2.2 := by
  induction cs with
  | nil =>
    intro t r s _ hy h
    cases h
    exact hy
  | cons c cs ih =>
    intro t r s hbelow hy h
    rw [List.mem_cons, not_or] at hup
    rw [venture] at h
    split at h
    · refine ih hup.2 (fun z hz => ?_) (hy.trans (List.prefix_append _ _)) h
      rw [kind_add]
      split
      · exact Or.inr rfl
      · exact hbelow z hz
    · split at h
      · rename_i r₁ hone
        refine ih hup.2 hbelow ?_ h
        rw [walk_cons] at hone
        cases henter : t.enter r.2 c with
        | error e =>
          rw [henter] at hone
          cases hone
        | ok x =>
          have hx : y <+: x := prefix_of_enter hup.1 hy henter
          have hdir : t.kind x = some .dir := by
            refine (hbelow x hx).resolve_left fun hnone => ?_
            have hthere := enter_isSome henter
            rw [hnone] at hthere
            cases hthere
          rw [henter] at hone
          simp only [hdir, walk_nil] at hone
          cases hone
          exact hx
      · cases h

/-- Without `..` a walk either makes nothing, or it ends below a directory that it has made. -/
theorem venture_cases {cs : List (List α)} (hup : [dot, dot] ∉ cs) :
    ∀ {r : ℕ × Position α} {s : Tree slash dot × ℕ × Position α}, venture cs t r = some s →
      s.1 = t ∨ ∃ y, t.kind y = none ∧ y <+: s.2.2 := by
  induction cs with
  | nil =>
    intro r s h
    cases h
    exact Or.inl rfl
  | cons c cs ih =>
    intro r s h
    rw [List.mem_cons, not_or] at hup
    rw [venture] at h
    split at h
    · rename_i hmissing
      refine Or.inr ⟨r.2 ++ [c], hmissing.2.2, venture_below hup.2 (fun z hz => ?_)
        (List.prefix_refl _) h⟩
      rw [kind_add]
      split
      · exact Or.inr rfl
      · exact Or.inl (kind_below_missing hz hmissing.2.2)
    · split at h
      · exact ih hup.2 h
      · cases h

/-- So without `..` either nothing was missing on the way, or the last name is missing too. -/
theorem ventureParent_cases {cwd x : Position α} {path c : List α} {s : Tree slash dot}
    (hup : [dot, dot] ∉ path.splitOn slash) (h : t.ventureParent cwd path = some (s, x, c)) :
    s = t ∨ t.kind (x ++ [c]) = none := by
  unfold ventureParent at h
  split_ifs at h
  obtain ⟨v, hventure, heq⟩ := Option.map_eq_some_iff.1 h
  cases heq
  have hway : [dot, dot] ∉
      ((path.splitOn slash).rdropWhile fun c => decide (c = [])).dropLast :=
    fun hmem => hup ((List.rdropWhile_prefix _ _).subset (List.dropLast_subset _ hmem))
  refine (venture_cases hway hventure).imp_right fun ⟨y, hnone, hy⟩ => ?_
  exact kind_below_missing (hy.trans (List.prefix_append _ _)) hnone

end Tree

end FileTrees
