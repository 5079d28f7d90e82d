import IotIde.Deploy.Confined
import IotIde.Foundation.Venture
import IotIde.Shell.RemoveTree

/-!
# Making a directory

`ensure_directory` of `shell_utils.c` on a file system: `mkdir` for every prefix of the
path that ends before a slash, and for the path.  What is there already is taken for a
directory.

* `mkdir`, `ensureDirectoryIn` — the call, and the function;
* `EnsuresDirectory` — success means that the path leads to a directory, and nothing has
  changed but for new directories that prefixes lead to;
* `Taken` — the last name of the path is that of a file, or of a link to no directory;
* `madeAlong_mkdirs`, `makeEach_parent` — the calls of `mkdir` make what is missing on the
  way, or fail, or stand before a link that leads nowhere;
* `ensure_directory_iff` — where success means that there is a directory.
-/

namespace IotIde

open CText FileTrees

variable (cwd : Position UInt8)

/-- `mkdir`.  A link under the name is in the way like any other node. -/
def mkdir (t : FileTree) (path : Bytes) : Except Errno FileTree :=
  match t.parentOf cwd path with
  | .error e => .error e
  | .ok (x, c) =>
    if h : IsName slash dot c ∧ t.kind x = some .dir ∧ t.kind (x ++ [c]) = none then
      .ok (t.add x c .dir h.1 h.2.1 h.2.2)
    else
      match t.kind x with
      | none => .error .ENOENT
      | some .dir => .error (if nameMax < c.length then .ENAMETOOLONG else .EEXIST)
      | some _ => .error .ENOTDIR

/-- `mkdir(buffer, 0755) != 0 && errno != EEXIST`, one path after the other. -/
def makeEach : List Bytes → FileTree → ℤ × FileTree
  | [], t => (0, t)
  | path :: paths, t =>
    match mkdir cwd t path with
    | .ok t' => makeEach paths t'
    | .error .EEXIST => makeEach paths t
    | .error _ => (-1, t)

/-- `ensure_directory` -/
def ensureDirectoryIn (t : FileTree) (path : Bytes) : ℤ × FileTree :=
  if path = [] then (-1, t)
  else if PATH_MAX ≤ path.length then (-1, t)
  else makeEach cwd (mkdirs path) t

/-- The path leads to a directory. -/
def LeadsToDirectory (t : FileTree) (path : Bytes) : Prop :=
  ∃ x, t.follow cwd path = .ok x ∧ t.kind x = some .dir

/-- A prefix of the path that ends with one of its components. -/
def IsFront (front path : Bytes) : Prop := front = path ∨ front ++ [slash] <+: path

/-- Nothing has changed but for new directories, and prefixes of the path lead to these. -/
def MakesPrefixes (t : FileTree) (path : Bytes) (t' : FileTree) : Prop :=
  ∀ y, t'.kind y = t.kind y ∨ t.kind y = none ∧ t'.kind y = some .dir ∧
    ∃ front, IsFront front path ∧ t'.follow cwd front = .ok y

/-- What `ensure_directory` should do: its success means a directory, and whatever it
returns, it only makes prefixes of the path. -/
def EnsuresDirectory (t : FileTree) (path : Bytes) : Prop :=
  ((ensureDirectoryIn cwd t path).1 = 0 →
      LeadsToDirectory cwd (ensureDirectoryIn cwd t path).2 path) ∧
    MakesPrefixes cwd t path (ensureDirectoryIn cwd t path).2

/-- The last name of the path, with the directory its other components lead to, is that of a
file, or of a link that leads to no directory. -/
def Taken (t : FileTree) (path : Bytes) (x : Position UInt8) (name : Bytes) : Prop :=
  t.kind (x ++ [name]) = some .file ∨
    (∃ target, t.kind (x ++ [name]) = some (.link target)) ∧ ¬ LeadsToDirectory cwd t path

variable {cwd} {t t' : FileTree} {path : Bytes}

theorem MakesPrefixes.sub (h : MakesPrefixes cwd t path t') : t.Sub t' := by
  intro y k hk
  rcases h y with heq | ⟨hnone, -⟩
  · rw [heq, hk]
  · rw [hnone] at hk
    cases hk

theorem MakesPrefixes.refl (cwd : Position UInt8) (t : FileTree) (path : Bytes) :
    MakesPrefixes cwd t path t :=
  fun _ => Or.inl rfl

theorem MakesPrefixes.trans {t'' : FileTree} (h : MakesPrefixes cwd t path t')
    (h' : MakesPrefixes cwd t' path t'') : MakesPrefixes cwd t path t'' := by
  intro y
  rcases h y with heq | ⟨hnone, hdir, front, hfront, hfollow⟩
  · rcases h' y with heq' | ⟨hnone', hmade⟩
    · exact Or.inl (heq'.trans heq)
    · exact Or.inr ⟨heq ▸ hnone', hmade⟩
  · exact Or.inr ⟨hnone, h'.sub _ _ hdir, front, hfront, Tree.follow_mono h'.sub hfollow⟩

/-! ## One directory -/

/-- What `mkdir` makes. -/
theorem mkdir_ok (h : mkdir cwd t path = .ok t') : ∃ x c, t.parentOf cwd path = .ok (x, c) ∧
    ∃ hname hdir hfree, t' = t.add x c .dir hname hdir hfree := by
  unfold mkdir at h
  split at h
  · cases h
  · rename_i x c hparent
    split at h
    · cases h
      exact ⟨x, c, hparent, _, _, _, rfl⟩
    · split at h
      · cases h
      · cases h
      · cases h

theorem leadsToDirectory_of_mkdir (h : mkdir cwd t path = .ok t') :
    LeadsToDirectory cwd t' path := by
  obtain ⟨x, c, hparent, hname, hdir, hfree, rfl⟩ := mkdir_ok h
  refine ⟨x ++ [c], Tree.follow_add hparent hname hdir hfree, ?_⟩
  rw [Tree.kind_add, if_pos rfl]

theorem makesPrefixes_of_mkdir {front : Bytes} (hfront : IsFront front path)
    (h : mkdir cwd t front = .ok t') : MakesPrefixes cwd t path t' := by
  obtain ⟨x, c, hparent, hname, hdir, hfree, rfl⟩ := mkdir_ok h
  intro y
  rw [Tree.kind_add]
  split
  · rename_i hy
    rw [hy]
    exact Or.inr ⟨hfree, rfl, front, hfront, Tree.follow_add hparent hname hdir hfree⟩
  · exact Or.inl rfl

/-- A path whose last name is in the way of `mkdir`. -/
theorem mkdir_exists_iff {x : Position UInt8} {name : Bytes}
    (hparent : t.parentOf cwd path = .ok (x, name)) :
    mkdir cwd t path = .error .EEXIST ↔ t.kind x = some .dir ∧
      ¬ (IsName slash dot name ∧ t.kind (x ++ [name]) = none) ∧ name.length ≤ nameMax := by
  rw [mkdir, hparent]
  dsimp only
  split
  · rename_i h
    exact ⟨fun h' => (by cases h'), fun h' => absurd ⟨h.1, h.2.2⟩ h'.2.1⟩
  · rename_i h
    cases hkind : t.kind x with
    | none => exact ⟨fun h' => (by cases h'), fun h' => (by cases h'.1)⟩
    | some k =>
      cases k with
      | dir =>
        dsimp only
        split
        · rename_i hlong
          exact ⟨fun h' => (by cases h'), fun h' => absurd h'.2.2 (Nat.not_le.2 hlong)⟩
        · rename_i hshort
          exact ⟨fun _ => ⟨rfl, fun h' => h ⟨h'.1, hkind, h'.2⟩, Nat.not_lt.1 hshort⟩,
            fun _ => rfl⟩
      | file | link => exact ⟨fun h' => (by cases h'), fun h' => (by cases h'.1)⟩

/-- Once made, a path is in the way. -/
theorem mkdir_again (h : mkdir cwd t path = .ok t') : mkdir cwd t' path = .error .EEXIST := by
  obtain ⟨x, c, hparent, hname, hdir, hfree, rfl⟩ := mkdir_ok h
  have hsub := Tree.sub_add (k := .dir) hname hdir hfree
  refine (mkdir_exists_iff (Tree.parentOf_mono hsub hparent)).2 ⟨hsub _ _ hdir, ?_, hname.2.1⟩
  rintro ⟨-, hnone⟩
  rw [Tree.kind_add, if_pos rfl] at hnone
  cases hnone

/-- `mkdir` looks at nothing but the last name and the directory it is looked up in. -/
theorem mkdir_congr {path' : Bytes} (h : t.parentOf cwd path = t.parentOf cwd path') :
    mkdir cwd t path = mkdir cwd t path' := by
  rw [mkdir, mkdir, h]

/-! ## One after the other -/

theorem makeEach_append (paths paths' : List Bytes) : ∀ t : FileTree,
    makeEach cwd (paths ++ paths') t =
      if (makeEach cwd paths t).1 = 0 then makeEach cwd paths' (makeEach cwd paths t).2
      else makeEach cwd paths t := by
  induction paths with
  | nil => exact fun t => rfl
  | cons path paths ih =>
    intro t
    rw [List.cons_append, makeEach, makeEach]
    split
    · exact ih _
    · exact ih _
    · rfl

theorem makeEach_makesPrefixes {paths : List Bytes} (h : ∀ front ∈ paths, IsFront front path) :
    ∀ t : FileTree, MakesPrefixes cwd t path (makeEach cwd paths t).2 := by
  induction paths with
  | nil => exact fun t => .refl cwd t path
  | cons front paths ih =>
    intro t
    have ih' := ih fun p hp => h p (List.mem_cons_of_mem _ hp)
    rw [makeEach]
    split
    · rename_i t' hmade
      exact (makesPrefixes_of_mkdir (h front List.mem_cons_self) hmade).trans (ih' t')
    · exact ih' t
    · exact .refl cwd t path

theorem isFront_of_mem_mkdirs {front : Bytes} (h : front ∈ mkdirs path) : IsFront front path := by
  rw [mkdirs, List.mem_append, List.mem_singleton] at h
  rcases h with h | rfl
  · obtain ⟨i, hi, rfl⟩ := List.mem_map.1 h
    have hslash : path[i]? = some slash := (of_decide_eq_true (List.mem_filter.1 hi).2).2
    right
    rw [← Option.toList_some, ← hslash, ← List.take_add_one]
    exact List.take_prefix _ path
  · exact Or.inl rfl

theorem ensureDirectoryIn_makesPrefixes (cwd : Position UInt8) (t : FileTree) (path : Bytes) :
    MakesPrefixes cwd t path (ensureDirectoryIn cwd t path).2 := by
  unfold ensureDirectoryIn
  split_ifs
  · exact .refl cwd t path
  · exact .refl cwd t path
  · exact makeEach_makesPrefixes (fun front h => isFront_of_mem_mkdirs h) t

/-- The outcome is one that a worker's path can have. -/
theorem ensureDirectoryIn_outcome (cwd : Position UInt8) (t : FileTree) (path : Bytes) :
    ∃ made, decide ((ensureDirectoryIn cwd t path).1 = 0) = ensureDirectory made path := by
  by_cases hrc : (ensureDirectoryIn cwd t path).1 = 0
  · refine ⟨fun _ => true, ?_⟩
    rw [decide_eq_true hrc]
    unfold ensureDirectoryIn at hrc
    split_ifs at hrc with hnil hlen
    · cases hrc
    · cases hrc
    · exact (ensureDirectory_of_made hnil (Nat.lt_of_not_le hlen)).symm
  · refine ⟨fun _ => false, ?_⟩
    rw [decide_eq_false hrc, ensureDirectory, mkdirs, List.all_append]
    simp

/-! ## Along the components -/

/-- Only the last component follows the last slash. -/
theorem exists_last_slash (h : slash ∈ path) :
    ∃ front name, path = front ++ slash :: name ∧ slash ∉ name := by
  obtain ⟨back, tnorf, heq, hback⟩ := List.eq_append_cons_of_mem (List.mem_reverse.2 h)
  refine ⟨tnorf.reverse, back.reverse, ?_, fun hmem => hback (List.mem_reverse.1 hmem)⟩
  rw [← List.reverse_reverse path, heq]
  simp

theorem mkdirs_of_notMem (h : slash ∉ path) : mkdirs path = [path] := by
  have hnone : ((List.range path.length).filter fun i => 0 < i ∧ path[i]? = some slash) = [] := by
    refine List.filter_eq_nil_iff.2 fun i _ hi => ?_
    exact h (List.mem_of_getElem? (of_decide_eq_true hi).2)
  rw [mkdirs, hnone]
  rfl

/-- One component more is one directory more; nothing stands before the first slash of an
absolute path. -/
theorem mkdirs_further (front : Bytes) {name : Bytes} (hname : slash ∉ name) :
    mkdirs (front ++ slash :: name) =
      (if front = [] then [] else mkdirs front) ++ [front ++ slash :: name] := by
  have hleft : (((List.range front.length).filter fun i =>
        0 < i ∧ (front ++ slash :: name)[i]? = some slash).map (front ++ slash :: name).take) =
      ((List.range front.length).filter fun i => 0 < i ∧ front[i]? = some slash).map
        front.take := by
    have hfilter : ((List.range front.length).filter fun i =>
          0 < i ∧ (front ++ slash :: name)[i]? = some slash) =
        (List.range front.length).filter fun i => 0 < i ∧ front[i]? = some slash := by
      refine List.filter_congr fun i hi => ?_
      rw [List.getElem?_append_left (List.mem_range.1 hi)]
    rw [hfilter]
    refine List.map_congr_left fun i hi => ?_
    have hlt := List.mem_range.1 (List.mem_filter.1 hi).1
    exact List.take_append_of_le_length hlt.le
  have hright : ((List.range name.length).filter fun j =>
      0 < front.length + (j + 1) ∧ (front ++ slash :: name)[front.length + (j + 1)]? = some slash) =
        [] := by
    refine List.filter_eq_nil_iff.2 fun j _ hj => ?_
    have hget := (of_decide_eq_true hj).2
    rw [List.getElem?_append_right (Nat.le_add_right _ _), Nat.add_sub_cancel_left,
      List.getElem?_cons_succ] at hget
    exact hname (List.mem_of_getElem? hget)
  rw [mkdirs, List.length_append, List.length_cons, List.range_add, List.filter_append,
    List.map_append, hleft, List.filter_map, List.range_succ_eq_map, List.filter_cons,
    List.filter_map]
  simp only [Function.comp_def, Nat.succ_eq_add_one]
  rw [hright]
  by_cases hfront : front = []
  · simp [hfront]
  · have hpos := List.length_pos_iff.2 hfront
    simp [hfront, hpos, mkdirs]

/-- A path grows by names behind a slash, and by slashes. -/
theorem path_induction {P : Bytes → Prop}
    (single : ∀ name, name ≠ [] → slash ∉ name → P name) (root : P [slash])
    (absolute : ∀ name, name ≠ [] → slash ∉ name → P (slash :: name))
    (further : ∀ front name, front ≠ [] → name ≠ [] → slash ∉ name → P front →
      P (front ++ slash :: name))
    (slashed : ∀ front, front ≠ [] → P front → P (front ++ [slash])) :
    ∀ path : Bytes, path ≠ [] → P path := by
  intro path
  induction hn : path.length using Nat.strong_induction_on generalizing path with
  | _ n ih =>
    intro hnil
    by_cases hslash : slash ∈ path
    · obtain ⟨front, name, rfl, hname⟩ := exists_last_slash hslash
      by_cases hfront : front = []
      · subst hfront
        by_cases hempty : name = []
        · subst hempty
          exact root
        · exact absolute name hempty hname
      · have hshorter : front.length < n := by
          rw [← hn, List.length_append, List.length_cons]
          omega
        have hP := ih front.length hshorter front rfl hfront
        by_cases hempty : name = []
        · subst hempty
          exact slashed front hfront hP
        · exact further front name hfront hempty hname hP
    · exact single path hnil hslash

/-- What was made is in the way. -/
theorem makeEach_last {paths : List Bytes} (h : makeEach cwd (paths ++ [path]) t = (0, t')) :
    mkdir cwd t' path = .error .EEXIST := by
  rw [makeEach_append] at h
  split at h
  · rw [makeEach] at h
    split at h
    · rename_i s hmade
      cases h
      exact mkdir_again hmade
    · rename_i hexists
      cases h
      exact hexists
    · cases h
  · rename_i hrc
    rw [h] at hrc
    exact absurd rfl hrc

/-- What was made or found is found again. -/
theorem makeEach_again (path : Bytes) (t : FileTree) :
    (if (makeEach cwd [path] t).1 = 0 then makeEach cwd [path] (makeEach cwd [path] t).2
      else makeEach cwd [path] t) = makeEach cwd [path] t := by
  split
  · rename_i hrc
    have hmade : makeEach cwd ([] ++ [path]) t = (0, (makeEach cwd [path] t).2) :=
      Prod.ext hrc rfl
    rw [makeEach, makeEach_last hmade]
    exact hmade.symm
  · rfl

/-- Where the way to the last name leads nowhere, nothing is made. -/
theorem makeEach_nowhere {x : Position UInt8} {links : ℕ} {cs : List Bytes} {name : Bytes}
    {e : Errno} (hparent : t.parentOf cwd path = (t.walk links x cs).map fun r => (r.2, name))
    (hwalk : t.walk links x cs = .error e) : (makeEach cwd [path] t).1 ≠ 0 := by
  have hfail : mkdir cwd t path = .error e := by
    rw [mkdir, hparent, hwalk]
    rfl
  rw [makeEach, hfail]
  cases e with
  | EEXIST => exact absurd rfl (Tree.walk_error _ _ _ _ hwalk)
  | ENOENT | ENOTDIR | ENAMETOOLONG | ELOOP => exact fun hrc => by cases hrc

/-- A name that a walk goes on from is in the way. -/
theorem mkdir_of_walk {x : Position UInt8} {name : Bytes} {links : ℕ} {r : ℕ × Position UInt8}
    (hparent : t.parentOf cwd path = .ok (x, name))
    (hthere : ¬ (IsName slash dot name ∧ t.kind x = some .dir ∧ t.kind (x ++ [name]) = none))
    (hwalk : t.walk links x [name] = .ok r) : mkdir cwd t path = .error .EEXIST := by
  rw [Tree.walk_cons] at hwalk
  cases henter : t.enter x name with
  | error e =>
    rw [henter] at hwalk
    cases hwalk
  | ok y =>
    obtain ⟨hdir, hshort⟩ := Tree.enter_ok henter
    exact (mkdir_exists_iff hparent).2 ⟨hdir, fun hnot => hthere ⟨hnot.1, hdir, hnot.2⟩, hshort⟩

/-- One `mkdir` is one name of a venture; where that fails, `mkdir` makes nothing, though it may
find the name taken. -/
theorem makeEach_one_venture {x : Position UInt8} {name : Bytes} (links : ℕ)
    (hparent : t.parentOf cwd path = .ok (x, name)) :
    match Tree.venture [name] t (links, x) with
    | some s => makeEach cwd [path] t = (0, s.1)
    | none => (makeEach cwd [path] t).1 = 0 →
        (makeEach cwd [path] t).2 = t ∧ ∃ e, t.walk links x [name] = .error e := by
  rw [Tree.venture]
  dsimp only
  by_cases hmissing : IsName slash dot name ∧ t.kind x = some .dir ∧ t.kind (x ++ [name]) = none
  · have hmade : mkdir cwd t path =
        .ok (t.add x name .dir hmissing.1 hmissing.2.1 hmissing.2.2) := by
      rw [mkdir, hparent]
      exact dif_pos hmissing
    rw [dif_pos hmissing, Tree.venture, makeEach, hmade]
    rfl
  · rw [dif_neg hmissing]
    cases hwalk : t.walk links x [name] with
    | ok r =>
      dsimp only
      rw [Tree.venture, makeEach, mkdir_of_walk hparent hmissing hwalk]
      rfl
    | error e =>
      rw [makeEach]
      cases hmade : mkdir cwd t path with
      | ok t' =>
        obtain ⟨y, c, hparent', hname, hdir, hfree, -⟩ := mkdir_ok hmade
        cases hparent.symm.trans hparent'
        exact absurd ⟨hname, hdir, hfree⟩ hmissing
      | error e' =>
        cases e' with
        | EEXIST => exact fun _ => ⟨rfl, e, rfl⟩
        | ENOENT | ENOTDIR | ENAMETOOLONG | ELOOP => exact fun hrc => by cases hrc

/-- The directories made one after the other are those that a venture along the components
makes; where it fails, they are not all made, or the components lead nowhere all the same, as
a link to nothing at their end does. -/
def MadeAlong (cwd : Position UInt8) (t : FileTree) (start : Position UInt8)
    (paths cs : List Bytes) : Prop :=
  match Tree.venture cs t (linksMax, start) with
  | some s => makeEach cwd paths t = (0, s.1)
  | none => (makeEach cwd paths t).1 = 0 →
      ∃ e, (makeEach cwd paths t).2.walk linksMax start cs = .error e

section MadeAlong

variable {start : Position UInt8} {paths cs : List Bytes} {name : Bytes}

/-- One name further. -/
theorem MadeAlong.further (h : MadeAlong cwd t start paths cs)
    (hparent : ∀ s : FileTree, s.parentOf cwd path =
      (s.walk linksMax start cs).map fun r => (r.2, name)) :
    MadeAlong cwd t start (paths ++ [path]) (cs ++ [name]) := by
  unfold MadeAlong at h ⊢
  rw [Tree.venture_append, makeEach_append]
  cases hventure : Tree.venture cs t (linksMax, start) with
  | none =>
    rw [hventure] at h
    simp only [Option.bind_none]
    split
    · rename_i hmade
      obtain ⟨e, hwalk⟩ := h hmade
      exact fun hrc => absurd hrc (makeEach_nowhere (hparent _) hwalk)
    · rename_i hfailed
      exact fun hrc => absurd hrc hfailed
  | some v =>
    obtain ⟨s, r⟩ := v
    rw [hventure] at h
    simp only [Option.bind_some] at h ⊢
    have hwalk : s.walk linksMax start cs = .ok r := Tree.walk_of_venture hventure
    have hone := makeEach_one_venture r.1 (show s.parentOf cwd path = .ok (r.2, name) by
      rw [hparent, hwalk]
      rfl)
    rw [h, if_pos rfl]
    cases hnext : Tree.venture [name] s r with
    | some v' =>
      rw [hnext] at hone
      exact hone
    | none =>
      rw [hnext] at hone
      intro hrc
      obtain ⟨hsame, e, hstep⟩ := hone hrc
      refine ⟨e, ?_⟩
      rw [hsame, Tree.walk_append, hwalk]
      exact hstep

/-- A slash further, behind a path that is in the way. -/
theorem MadeAlong.slashed (h : MadeAlong cwd t start paths cs)
    (hexists : ∀ s, makeEach cwd paths t = (0, s) → mkdir cwd s path = .error .EEXIST) :
    MadeAlong cwd t start (paths ++ [path]) (cs ++ [[]]) := by
  have hsame : makeEach cwd (paths ++ [path]) t = makeEach cwd paths t := by
    rw [makeEach_append]
    split
    · rename_i hrc
      rw [makeEach, hexists (makeEach cwd paths t).2 (Prod.ext hrc rfl)]
      exact Prod.ext hrc.symm rfl
    · rfl
  unfold MadeAlong at h ⊢
  rw [hsame, Tree.venture_append]
  cases hventure : Tree.venture cs t (linksMax, start) with
  | none =>
    rw [hventure] at h
    intro hrc
    obtain ⟨e, hwalk⟩ := h hrc
    exact ⟨e, by rw [Tree.walk_append, hwalk]; rfl⟩
  | some v =>
    obtain ⟨s, r⟩ := v
    rw [hventure] at h
    simp only [Option.bind_some] at h ⊢
    have hwalk : s.walk linksMax start cs = .ok r := Tree.walk_of_venture hventure
    rw [Tree.venture, dif_neg fun hname => hname.1.1 rfl]
    cases hone : s.walk r.1 r.2 [[]] with
    | ok r' => exact h
    | error e =>
      intro _
      refine ⟨e, ?_⟩
      rw [h]
      show s.walk linksMax start (cs ++ [[]]) = _
      rw [Tree.walk_append, hwalk]
      exact hone

/-- What comes of the last name is what `mkdir` makes of it in the tree of the venture. -/
theorem MadeAlong.parent (h : MadeAlong cwd t start paths cs)
    (hparent : ∀ s : FileTree, s.parentOf cwd path =
      (s.walk linksMax start cs).map fun r => (r.2, name))
    (hventure : t.ventureParent cwd path =
      (Tree.venture cs t (linksMax, start)).map fun s => (s.1, s.2.2, name)) :
    match t.ventureParent cwd path with
    | some s => makeEach cwd (paths ++ [path]) t = makeEach cwd [path] s.1
    | none => (makeEach cwd (paths ++ [path]) t).1 ≠ 0 := by
  unfold MadeAlong at h
  rw [hventure, makeEach_append]
  cases hv : Tree.venture cs t (linksMax, start) with
  | some v =>
    rw [hv] at h
    simp only [Option.map_some] at h ⊢
    rw [h, if_pos rfl]
  | none =>
    rw [hv] at h
    simp only [Option.map_none] at h ⊢
    split
    · rename_i hmade
      obtain ⟨e, hwalk⟩ := h hmade
      exact makeEach_nowhere (hparent _) hwalk
    · rename_i hfailed
      exact hfailed

theorem MadeAlong.nil (t : FileTree) (start : Position UInt8) :
    MadeAlong cwd t start [] [] := rfl

/-- In front of an absolute path. -/
theorem MadeAlong.root (t : FileTree) (start : Position UInt8) :
    MadeAlong cwd t start [] [[]] := by
  unfold MadeAlong
  rw [Tree.venture, dif_neg fun hname => hname.1.1 rfl]
  cases hone : t.walk linksMax start [[]] with
  | ok r => rfl
  | error e => exact fun _ => ⟨e, hone⟩

end MadeAlong

theorem mkdir_root (hroot : t.kind [] = some .dir) : mkdir cwd t [slash] = .error .EEXIST :=
  (mkdir_exists_iff (show t.parentOf cwd [slash] = .ok ([], []) from rfl)).2
    ⟨hroot, fun hname => hname.1.1 rfl, Nat.zero_le _⟩

/-- The calls of `mkdir` for a path. -/
theorem madeAlong_mkdirs (cwd : Position UInt8) (t : FileTree) : ∀ path : Bytes, path ≠ [] →
    path.length < PATH_MAX → MadeAlong cwd t (Tree.start slash cwd path) (mkdirs path)
      (path.splitOn slash) := by
  refine path_induction ?single ?root ?absolute ?further ?slashed
  case single =>
    intro name hempty hname hlen
    have hsplit : name.splitOn slash = [] ++ [name] := List.splitOn_eq_singleton hname
    rw [mkdirs_of_notMem hname, hsplit]
    exact (MadeAlong.nil t _).further fun s => Tree.parentOf_name hempty hlen hsplit hempty
  case root =>
    intro hlen
    show MadeAlong cwd t [] ([] ++ [[slash]]) ([[]] ++ [[]])
    by_cases hroot : t.kind [] = some .dir
    · refine (MadeAlong.root t []).slashed fun s hs => ?_
      cases hs
      exact mkdir_root hroot
    · unfold MadeAlong
      rw [List.singleton_append, Tree.venture, dif_neg fun hname => hname.1.1 rfl]
      cases hone : t.walk linksMax [] [[]] with
      | ok r =>
        rw [Tree.walk_cons] at hone
        cases henter : t.enter [] [] with
        | error e =>
          rw [henter] at hone
          cases hone
        | ok x => exact absurd (Tree.enter_ok henter).1 hroot
      | error e =>
        rw [List.nil_append, makeEach]
        cases hmade : mkdir cwd t [slash] with
        | ok t' =>
          obtain ⟨x, c, hparent, hname, -⟩ := mkdir_ok hmade
          cases hparent
          exact absurd rfl hname.1
        | error e' =>
          cases e' with
          | EEXIST => exact absurd ((mkdir_exists_iff rfl).1 hmade).1 hroot
          | ENOENT | ENOTDIR | ENAMETOOLONG | ELOOP => exact fun hrc => by cases hrc
  case absolute =>
    intro name hempty hname hlen
    have hsplit : (slash :: name).splitOn slash = [[]] ++ [name] := Tree.splitOn_further [] hname
    rw [show mkdirs (slash :: name) = [] ++ [slash :: name] from mkdirs_further [] hname, hsplit]
    exact (MadeAlong.root t _).further fun s =>
      Tree.parentOf_name (List.cons_ne_nil _ _) hlen hsplit hempty
  case further =>
    intro front name hfront hempty hname hP hlen
    have hsplit := Tree.splitOn_further front hname
    have hshorter : front.length < PATH_MAX := by
      rw [List.length_append] at hlen
      omega
    rw [mkdirs_further front hname, if_neg hfront, Tree.start_append hfront, hsplit]
    refine (hP hshorter).further fun s => ?_
    rw [← Tree.start_append hfront cwd (slash :: name)]
    exact Tree.parentOf_name (by simp) hlen hsplit hempty
  case slashed =>
    intro front hfront hP hlen
    have hshorter : front.length < PATH_MAX := by
      rw [List.length_append] at hlen
      omega
    rw [mkdirs_further front List.not_mem_nil, if_neg hfront, Tree.start_append hfront,
      Tree.splitOn_further front List.not_mem_nil]
    refine (hP hshorter).slashed fun s hs => ?_
    rw [mkdir_congr (Tree.parentOf_slash hfront hlen)]
    exact makeEach_last hs

/-- The calls of `mkdir` come down to the last one, in the tree with everything on the way. -/
theorem makeEach_parent (cwd : Position UInt8) (t : FileTree) : ∀ path : Bytes, path ≠ [] →
    path.length < PATH_MAX →
      match t.ventureParent cwd path with
      | some s => makeEach cwd (mkdirs path) t = makeEach cwd [path] s.1
      | none => (makeEach cwd (mkdirs path) t).1 ≠ 0 := by
  refine path_induction ?single ?root ?absolute ?further ?slashed
  case single =>
    intro name hempty hname hlen
    have hsplit : name.splitOn slash = [] ++ [name] := List.splitOn_eq_singleton hname
    rw [mkdirs_of_notMem hname]
    exact (MadeAlong.nil t _).parent (fun s => Tree.parentOf_name hempty hlen hsplit hempty)
      (Tree.ventureParent_name hempty hlen hsplit hempty)
  case root => exact fun _ => rfl
  case absolute =>
    intro name hempty hname hlen
    have hnil : slash :: name ≠ [] := List.cons_ne_nil _ _
    have hsplit : (slash :: name).splitOn slash = [[]] ++ [name] := Tree.splitOn_further [] hname
    rw [show mkdirs (slash :: name) = [] ++ [slash :: name] from mkdirs_further [] hname]
    exact (MadeAlong.root t _).parent (fun s => Tree.parentOf_name hnil hlen hsplit hempty)
      (Tree.ventureParent_name hnil hlen hsplit hempty)
  case further =>
    intro front name hfront hempty hname _ hlen
    have hnil : front ++ slash :: name ≠ [] := by simp
    have hsplit := Tree.splitOn_further front hname
    have hshorter : front.length < PATH_MAX := by
      rw [List.length_append] at hlen
      omega
    have hmade := madeAlong_mkdirs cwd t front hfront hshorter
    rw [← Tree.start_append hfront cwd (slash :: name)] at hmade
    rw [mkdirs_further front hname, if_neg hfront]
    exact hmade.parent (fun s => Tree.parentOf_name hnil hlen hsplit hempty)
      (Tree.ventureParent_name hnil hlen hsplit hempty)
  case slashed =>
    intro front hfront hP hlen
    have hshorter : front.length < PATH_MAX := by
      rw [List.length_append] at hlen
      omega
    have hP := hP hshorter
    have hsame : ∀ s : FileTree, mkdir cwd s (front ++ [slash]) = mkdir cwd s front :=
      fun s => mkdir_congr (Tree.parentOf_slash hfront hlen)
    rw [Tree.ventureParent_slash hfront hlen, mkdirs_further front List.not_mem_nil, if_neg hfront,
      makeEach_append]
    cases hventure : t.ventureParent cwd front with
    | none =>
      rw [hventure] at hP
      rwa [if_neg hP]
    | some v =>
      rw [hventure] at hP
      dsimp only at hP ⊢
      have hone : makeEach cwd [front] v.1 = makeEach cwd [front ++ [slash]] v.1 := by
        simp only [makeEach, hsame]
      rw [hP, hone]
      exact makeEach_again _ v.1

/-! ## What has the last name -/

/-- A path that ends with no entry's name leads to the directory before, or to the one above. -/
theorem leadsToDirectory_of_not_isName {x : Position UInt8} {name : Bytes}
    (hparent : t.parentOf cwd path = .ok (x, name)) (hdir : t.kind x = some .dir)
    (hshort : name.length ≤ nameMax) (hname : ¬ IsName slash dot name) :
    LeadsToDirectory cwd t path := by
  obtain ⟨links, n, hfollow⟩ := Tree.follow_of_parentOf hparent
  have hslash := Tree.slash_notMem_of_parentOf hparent
  have henter : ∃ z, t.enter x name = .ok z ∧ t.kind z = some .dir := by
    rw [Tree.enter, hdir]
    dsimp only
    by_cases hstay : name = [] ∨ name = [dot]
    · exact ⟨x, if_pos hstay, hdir⟩
    · rw [not_or] at hstay
      have hup : name = [dot, dot] := by
        by_contra hup
        exact hname ⟨hstay.1, hshort, hslash, hstay.2, hup⟩
      refine ⟨x.dropLast, by rw [if_neg (not_or.2 hstay), if_pos hup], ?_⟩
      by_cases hroot : x = []
      · rwa [hroot, List.dropLast_nil, ← hroot]
      · exact Tree.kind_dropLast t hroot (by rw [hdir]; rfl)
  obtain ⟨z, hz, hdir'⟩ := henter
  refine ⟨z, ?_, hdir'⟩
  rw [hfollow, Tree.walk_cons, hz]
  simp only [hdir', Tree.walk_replicate_nil t hdir']
  rfl

/-- A file's path leads to no directory, and with a slash behind it nowhere. -/
theorem not_leadsToDirectory_of_file {x : Position UInt8} {name : Bytes}
    (hparent : t.parentOf cwd path = .ok (x, name)) (hfile : t.kind (x ++ [name]) = some .file) :
    ¬ LeadsToDirectory cwd t path := by
  rintro ⟨z, hz, hdir⟩
  obtain ⟨links, n, hfollow⟩ := Tree.follow_of_parentOf hparent
  have hentry : name ∈ t.entries x := (Tree.mem_entries t).2 (by rw [hfile]; rfl)
  rw [hfollow, Tree.walk_cons, Tree.enter_of_mem_entries hentry] at hz
  simp only [hfile] at hz
  cases n with
  | zero =>
    rw [List.replicate_zero, Tree.walk_nil] at hz
    cases hz
    rw [hfile] at hdir
    cases hdir
  | succ n =>
    have henter : t.enter (x ++ [name]) [] = .error .ENOTDIR := by rw [Tree.enter, hfile]
    rw [List.replicate_succ, Tree.walk_cons, henter] at hz
    cases hz

/-- A name in the way is that of a directory or leads to one, or it is taken. -/
theorem leadsToDirectory_iff {x : Position UInt8} {name : Bytes}
    (hparent : t.parentOf cwd path = .ok (x, name)) (hexists : mkdir cwd t path = .error .EEXIST) :
    LeadsToDirectory cwd t path ↔ ¬ Taken cwd t path x name := by
  obtain ⟨hdir, hthere, hshort⟩ := (mkdir_exists_iff hparent).1 hexists
  unfold Taken
  cases hkind : t.kind (x ++ [name]) with
  | none =>
    have hname : ¬ IsName slash dot name := fun hname => hthere ⟨hname, hkind⟩
    have hleads := leadsToDirectory_of_not_isName hparent hdir hshort hname
    exact ⟨fun _ => by simp, fun _ => hleads⟩
  | some k =>
    cases k with
    | file =>
      have hnot := not_leadsToDirectory_of_file hparent hkind
      exact ⟨fun h => absurd h hnot, fun h => absurd (Or.inl rfl) h⟩
    | dir =>
      have hleads : LeadsToDirectory cwd t path :=
        ⟨_, Tree.follow_of_resolve (Tree.resolve_of_parentOf hparent hkind) hkind, hkind⟩
      exact ⟨fun _ => by simp, fun _ => hleads⟩
    | link target => simp

/-- What the last call of `mkdir` leaves. -/
theorem makeEach_one_iff {x : Position UInt8} {name : Bytes}
    (hparent : t.parentOf cwd path = .ok (x, name)) :
    ((makeEach cwd [path] t).1 = 0 → LeadsToDirectory cwd (makeEach cwd [path] t).2 path) ↔
      ¬ Taken cwd t path x name := by
  rw [makeEach]
  cases hmade : mkdir cwd t path with
  | ok t' =>
    obtain ⟨x', name', hparent', -, -, hfree, -⟩ := mkdir_ok hmade
    cases hparent.symm.trans hparent'
    have hleads := leadsToDirectory_of_mkdir hmade
    exact ⟨fun _ => by simp [Taken, hfree], fun _ _ => hleads⟩
  | error e =>
    by_cases hexists : e = .EEXIST
    · subst hexists
      rw [← leadsToDirectory_iff hparent hmade]
      exact ⟨fun h => h rfl, fun h _ => h⟩
    · have hfree : t.kind (x ++ [name]) = none := by
        by_contra hthere
        have hentry : name ∈ t.entries x :=
          (Tree.mem_entries t).2 (Option.ne_none_iff_isSome.1 hthere)
        have hname := Tree.isName_of_mem_entries t hentry
        have hexists' := (mkdir_exists_iff hparent).2
          ⟨Tree.kind_of_mem_entries t hentry, fun h => hthere h.2, hname.2.1⟩
        cases hmade.symm.trans hexists'
        exact hexists rfl
      refine ⟨fun _ => by simp [Taken, hfree], fun _ hrc => ?_⟩
      cases e with
      | EEXIST => exact absurd rfl hexists
      | ENOENT | ENOTDIR | ENAMETOOLONG | ELOOP => cases hrc

theorem ensuresDirectory_iff (cwd : Position UInt8) (t : FileTree) (path : Bytes) :
    EnsuresDirectory cwd t path ↔
      ∀ s x name, t.ventureParent cwd path = some (s, x, name) → ¬ Taken cwd s path x name := by
  rw [EnsuresDirectory, and_iff_left (ensureDirectoryIn_makesPrefixes cwd t path)]
  by_cases hnil : path = []
  · subst hnil
    exact ⟨fun _ s x name h => (by cases h), fun _ hrc => by cases hrc⟩
  · by_cases hlen : PATH_MAX ≤ path.length
    · have hnone : t.ventureParent cwd path = none := by
        rw [Tree.ventureParent, if_neg hnil]
        exact if_pos hlen
      rw [ensureDirectoryIn, if_neg hnil, if_pos hlen, hnone]
      exact ⟨fun _ s x name h => (by cases h), fun _ hrc => by cases hrc⟩
    · have hparent := makeEach_parent cwd t path hnil (Nat.lt_of_not_le hlen)
      rw [ensureDirectoryIn, if_neg hnil, if_neg hlen]
      cases hventure : t.ventureParent cwd path with
      | none =>
        rw [hventure] at hparent
        exact ⟨fun _ s x name h => (by cases h), fun _ hrc => absurd hrc hparent⟩
      | some v =>
        rw [hventure] at hparent
        dsimp only at hparent
        rw [hparent, makeEach_one_iff (Tree.parentOf_of_ventureParent hventure)]
        constructor
        · intro h s x name heq
          cases heq
          exact h
        · exact fun h => h v.1 v.2.1 v.2.2 rfl

/-- **Where the success of `ensure_directory` means a directory**, and it makes nothing but
prefixes of the path: unless the last name of the path, when every name that is missing on the
way stands for a new directory, is that of a file or of a link that leads to no directory.
Where nothing is missing on the way, and for every path without `..`, that can be seen in the
file system as it is before the call. -/
theorem ensure_directory_iff (cwd : Position UInt8) (t : FileTree) (path : Bytes) :
    (EnsuresDirectory cwd t path ↔
      ∀ s x name, t.ventureParent cwd path = some (s, x, name) → ¬ Taken cwd s path x name) ∧
    ([dot, dot] ∉ path.splitOn slash ∨ (∃ r, t.parentOf cwd path = .ok r) →
      (EnsuresDirectory cwd t path ↔
        ∀ x name, t.parentOf cwd path = .ok (x, name) → ¬ Taken cwd t path x name)) := by
  refine ⟨ensuresDirectory_iff cwd t path, fun hplain => ?_⟩
  rw [ensuresDirectory_iff]
  constructor
  · exact fun h x name hparent => h t x name (Tree.ventureParent_of_parentOf hparent)
  · intro h s x name hventure htaken
    rcases hplain with hup | ⟨⟨x', name'⟩, hparent⟩
    · rcases Tree.ventureParent_cases hup hventure with hsame | hnone
      · subst hsame
        exact h x name (Tree.parentOf_of_ventureParent hventure) htaken
      · -- there is a new directory above the last name
        have hkind := Tree.ventureParent_kind hventure (x ++ [name])
        rw [hnone] at hkind
        rcases htaken with hfile | ⟨⟨target, hlink⟩, -⟩
        · simp [hfile] at hkind
        · simp [hlink] at hkind
    · have hthere := Tree.ventureParent_of_parentOf hparent
      cases hthere.symm.trans hventure
      exact h x name hparent htaken

/-- A file `f` in the root. -/
def fileTree : FileTree := Tree.root.add [] [102] .file isName_f Tree.kind_root rfl

/-- It is taken for a directory. -/
theorem file_taken_for_directory :
    (ensureDirectoryIn [] fileTree [102]).1 = 0 ∧
      ¬ LeadsToDirectory [] (ensureDirectoryIn [] fileTree [102]).2 [102] := by
  have hsame : ensureDirectoryIn [] fileTree [102] = (0, fileTree) := rfl
  rw [hsame]
  refine ⟨rfl, ?_⟩
  rintro ⟨x, hfollow, hdir⟩
  have hfile : fileTree.follow [] [102] = .ok [[102]] := rfl
  have hboth := hfile.symm.trans hfollow
  cases hboth
  cases hdir

end IotIde
