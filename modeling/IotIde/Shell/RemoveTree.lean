import IotIde.Foundation.CText
import IotIde.Foundation.FileTree

/-!
# Removing a tree

`remove_tree` of `shell_utils.c`, on a file system that nobody else changes.  Each call
puts the path of every entry together in an array of its own and calls itself on it; the
order in which `readdir` returns the entries is not specified, and is a parameter here.

* `removeTree` — the function, with the levels of recursion it may use;
* `StaysInside` — nothing is gone but what was at or below the path;
* `FileTree.LinkAtEnd` — the last name of the path is that of a link;
* `FileTree.Descends` — the paths that are put together from a path, entry by entry;
* `removeTree_inside`, `removeTree_opened`, `removeTree_gone` — what a call that returns has
  done;
* `remove_tree_iff` — where every call returns, and opens no link for a directory.
-/

namespace IotIde

open CText FileTrees

/-- The file system. -/
abbrev FileTree := Tree slash dot

/-- The order of `readdir`, for each directory that is opened. -/
structure ReaddirOrder where
  of : Bytes → List Bytes → List Bytes
  perm : ∀ path names, (of path names).Perm names

/-- The entries as they were made. -/
def ReaddirOrder.inPlace : ReaddirOrder := ⟨fun _ names => names, fun _ names => .refl names⟩

/-- `.` and `..`, which `readdir` returns with the entries. -/
def isDots (name : Bytes) : Bool := name = [dot] ∨ name = [dot, dot]

/-- `snprintf(child, sizeof(child), "%s/%s", path, entry->d_name)` -/
def childPath (path name : Bytes) : Bytes := snprintf pathMax (path ++ slash :: name)

section Calls

variable (cwd : Position UInt8)

/-- `opendir`, and what `readdir` has for it. -/
def opendir (t : FileTree) (path : Bytes) : Option (List Bytes) :=
  match t.follow cwd path with
  | .ok x => if t.kind x = some .dir then some ([dot] :: [dot, dot] :: t.entries x) else none
  | .error _ => none

/-- `unlink` -/
def unlink (t : FileTree) (path : Bytes) : ℤ × FileTree :=
  match t.resolve cwd path with
  | .ok x =>
    if h : t.kind x ≠ some .dir then (0, t.remove x (Tree.entries_of_kind_ne_dir t h)) else (-1, t)
  | .error _ => (-1, t)

/-- `rmdir`.  It looks the last name up in its directory, so that a link with slashes behind
it is not the directory it leads to, and no entry has the name `.` or `..`. -/
def rmdir (t : FileTree) (path : Bytes) : ℤ × FileTree :=
  match t.parentOf cwd path with
  | .ok (x, name) =>
    if h : t.kind (x ++ [name]) = some .dir ∧ t.entries (x ++ [name]) = [] then
      (0, t.remove (x ++ [name]) h.2)
    else (-1, t)
  | .error _ => (-1, t)

/-- What a call leaves: its result, the file system, and the paths it gave to `opendir`
with success. -/
structure Removal where
  rc : ℤ
  tree : FileTree
  opened : List Bytes

/-- The loop of `remove_tree` over a directory; `remove` is its call of itself.  The
length that `snprintf` returns is never negative. -/
def removeEntries (remove : FileTree → Bytes → Option Removal) (path : Bytes) :
    List Bytes → FileTree → Option Removal
  | [], t => some ⟨0, t, []⟩
  | name :: names, t =>
    if isDots name then removeEntries remove path names t
    else
      (remove t (childPath path name)).bind fun r =>
        if r.rc ≠ 0 then some { r with rc := -1 }
        else
          (removeEntries remove path names r.tree).map fun s =>
            { s with opened := r.opened ++ s.opened }

/-- `remove_tree`, where it returns within `depth` levels of recursion. -/
def removeTree (order : ReaddirOrder) : ℕ → FileTree → Bytes → Option Removal
  | 0, _, _ => none
  | depth + 1, t, path =>
    if path = [] then some ⟨-1, t, []⟩
    else
      match t.resolve cwd path with
      | .error e => some ⟨if e = .ENOENT then 0 else -1, t, []⟩
      | .ok x =>
        if t.kind x = some .dir then
          match opendir cwd t path with
          | none => some ⟨-1, t, []⟩
          | some names =>
            (removeEntries (removeTree order depth) path (order.of path names) t).map fun r =>
              if r.rc ≠ 0 then ⟨-1, r.tree, path :: r.opened⟩
              else ⟨(rmdir cwd r.tree path).1, (rmdir cwd r.tree path).2, path :: r.opened⟩
        else some ⟨(unlink cwd t path).1, (unlink cwd t path).2, []⟩

/-! ## What may be gone -/

/-- Nothing has changed but that nodes at or below a place are gone. -/
def LostBelow (x : Position UInt8) (t t' : FileTree) : Prop :=
  ∀ y, t'.kind y = t.kind y ∨ t'.kind y = none ∧ x <+: y

/-- Nothing has changed but that nodes at or below the path are gone; a link on the path's
end is itself. -/
def StaysInside (t : FileTree) (path : Bytes) (t' : FileTree) : Prop :=
  t' = t ∨ ∃ x, t.resolve cwd path = .ok x ∧ LostBelow x t t'

/-- The last name of the path is that of a link, whatever slashes and dots stand behind it. -/
def FileTree.LinkAtEnd (t : FileTree) (path : Bytes) : Prop :=
  ∃ x target, t.lastNode cwd path = .ok x ∧ t.kind x = some (.link target)

/-- The names in the directory that a path names. -/
def FileTree.entriesAt (t : FileTree) (path : Bytes) : List Bytes :=
  match t.resolve cwd path with
  | .ok x => t.entries x
  | .error _ => []

/-- The paths that are put together from a path, entry by entry. -/
inductive FileTree.Descends (t : FileTree) : Bytes → Bytes → Prop
  | refl (path : Bytes) : Descends t path path
  | child {path name path' : Bytes} : name ∈ FileTree.entriesAt cwd t path →
      Descends t (childPath path name) path' → Descends t path path'

end Calls

theorem LostBelow.refl (x : Position UInt8) (t : FileTree) : LostBelow x t t := fun _ => Or.inl rfl

theorem LostBelow.trans {x : Position UInt8} {t t' t'' : FileTree} (h : LostBelow x t t')
    (h' : LostBelow x t' t'') : LostBelow x t t'' := by
  intro y
  rcases h' y with heq' | hgone
  · rcases h y with heq | ⟨hnone, hbelow⟩
    · exact Or.inl (heq'.trans heq)
    · exact Or.inr ⟨heq'.trans hnone, hbelow⟩
  · exact Or.inr hgone

theorem LostBelow.mono {x z : Position UInt8} {t t' : FileTree} (h : LostBelow z t t')
    (hxz : x <+: z) : LostBelow x t t' :=
  fun y => (h y).imp_right fun hgone => ⟨hgone.1, hxz.trans hgone.2⟩

theorem LostBelow.sub {x : Position UInt8} {t t' : FileTree} (h : LostBelow x t t') : t'.Sub t := by
  intro y k hk
  rcases h y with heq | ⟨hnone, -⟩
  · rw [← heq, hk]
  · rw [hnone] at hk
    cases hk

theorem lostBelow_remove {t : FileTree} {x : Position UInt8} (hempty : t.entries x = []) :
    LostBelow x t (t.remove x hempty) := by
  intro y
  rw [Tree.kind_remove]
  split
  · rename_i h
    exact Or.inr ⟨rfl, h ▸ List.prefix_refl _⟩
  · exact Or.inl rfl

theorem StaysInside.sub {cwd : Position UInt8} {t t' : FileTree} {path : Bytes}
    (h : StaysInside cwd t path t') : t'.Sub t := by
  rcases h with rfl | ⟨x, -, hlost⟩
  · exact .refl t'
  · exact hlost.sub

/-! ## The path of an entry -/

theorem childPath_length (path name : Bytes) :
    (childPath path name).length = min (pathMax - 1) (path.length + name.length + 1) := by
  rw [childPath, snprintf, List.length_take, List.length_append, List.length_cons, ← Nat.add_assoc]

/-- The array holds the path itself, or the path and the beginning of the name; if that is
not the whole name, the array is full. -/
theorem childPath_cases {path : Bytes} (hlen : path.length < pathMax) (name : Bytes) :
    childPath path name = path ∨
    ∃ rest, rest <+: name ∧ childPath path name = path ++ slash :: rest ∧
      (rest = name ∨ (childPath path name).length + 1 = pathMax) := by
  have htotal := childPath_length path name
  have hmax : pathMax = 4096 := rfl
  by_cases hfull : path.length + 1 = pathMax
  · refine Or.inl (List.take_left' ?_)
    omega
  · have hroom : pathMax - 1 - path.length = (pathMax - 2 - path.length) + 1 := by omega
    refine Or.inr ⟨name.take (pathMax - 2 - path.length), List.take_prefix _ _, ?_, ?_⟩
    · rw [childPath, snprintf, List.take_append, List.take_of_length_le (by omega), hroom,
        List.take_succ_cons]
    · by_cases hfits : name.length ≤ pathMax - 2 - path.length
      · exact Or.inl (List.take_of_length_le hfits)
      · right
        omega

section Place

variable {cwd : Position UInt8} {t t' : FileTree} {path name : Bytes} {x z : Position UInt8}

/-- Where the path of an entry leads, now or later: to the directory or below it, or, where
the array took `..` of a longer name, to the directory above. -/
theorem place_of_child (hsub : t'.Sub t) (hx : t.resolve cwd path = .ok x)
    (hdir : t.kind x = some .dir) (hname : IsName slash dot name)
    (hz : t'.resolve cwd (childPath path name) = .ok z) :
    x <+: z ∨ (childPath path name).length + 1 = pathMax ∧ t'.entries z ≠ [] := by
  obtain ⟨hpath, hlen, links, hwalk⟩ := Tree.walk_of_resolve hx hdir
  rcases childPath_cases hlen name with hsame | ⟨rest, hrest, hchild, hwhole⟩
  · rw [hsame] at hz
    have hboth := (Tree.resolve_mono hsub hz).symm.trans hx
    cases hboth
    exact Or.inl (List.prefix_refl _)
  · have hslash : slash ∉ rest := fun h => hname.2.2.1 (hrest.subset h)
    rw [hchild, Tree.resolve_append hpath hslash] at hz
    split_ifs at hz
    cases hwalk' : t'.walk linksMax (Tree.start slash cwd path) (path.splitOn slash) with
    | error e =>
      rw [hwalk'] at hz
      cases hz
    | ok r =>
      rw [hwalk'] at hz
      have hboth := (Tree.walk_mono hsub _ _ _ _ hwalk').symm.trans hwalk
      cases hboth
      have henter : t'.enter x rest = .ok z := hz
      unfold Tree.enter at henter
      split at henter
      · cases henter
      · rename_i hdir'
        split_ifs at henter with hstay hup hlong hthere
        · cases henter
          exact Or.inl (List.prefix_refl _)
        · cases henter
          by_cases hroot : x = []
          · rw [hroot]
            exact Or.inl List.nil_prefix
          · have hcut : rest ≠ name := by
              rintro rfl
              exact hname.2.2.2.2 hup
            have hlast : x.getLast hroot ∈ t'.entries x.dropLast := by
              rw [Tree.mem_entries, List.dropLast_append_getLast hroot, hdir']
              rfl
            exact Or.inr ⟨hwhole.resolve_left hcut, List.ne_nil_of_mem hlast⟩
        · cases henter
          exact Or.inl (List.prefix_append _ _)
      · cases henter

end Place

/-! ## One call -/

section Call

variable {cwd : Position UInt8} {order : ReaddirOrder} {t t' : FileTree} {path : Bytes}
  {x : Position UInt8}

theorem opendir_of_resolve (hx : t.resolve cwd path = .ok x) (hdir : t.kind x = some .dir) :
    opendir cwd t path = some ([dot] :: [dot, dot] :: t.entries x) := by
  rw [opendir, Tree.follow_of_resolve hx hdir]
  exact if_pos hdir

/-- A call on a directory. -/
theorem removeTree_dir (hx : t.resolve cwd path = .ok x) (hdir : t.kind x = some .dir) (depth : ℕ) :
    removeTree cwd order (depth + 1) t path =
      (removeEntries (removeTree cwd order depth) path
        (order.of path ([dot] :: [dot, dot] :: t.entries x)) t).map fun r =>
          if r.rc ≠ 0 then ⟨-1, r.tree, path :: r.opened⟩
          else ⟨(rmdir cwd r.tree path).1, (rmdir cwd r.tree path).2, path :: r.opened⟩ := by
  have hnil := (Tree.walk_of_resolve hx hdir).1
  rw [removeTree, if_neg hnil, hx]
  dsimp only
  rw [if_pos hdir, opendir_of_resolve hx hdir]

/-- What a directory is found to list. -/
theorem mem_listing {name : Bytes} :
    name ∈ order.of path ([dot] :: [dot, dot] :: t.entries x) ↔
      isDots name = true ∨ name ∈ t.entries x := by
  rw [(order.perm _ _).mem_iff, List.mem_cons, List.mem_cons, isDots, decide_eq_true_eq, or_assoc]

theorem isDots_of_isName {name : Bytes} (h : IsName slash dot name) : isDots name = false := by
  rw [isDots, decide_eq_false_iff_not, not_or]
  exact h.2.2.2

/-- If no call on an entry returns, the loop does not. -/
theorem removeEntries_none {remove : FileTree → Bytes → Option Removal} {names : List Bytes}
    (hnone : ∀ name ∈ names, remove t (childPath path name) = none)
    (hsome : ∃ name ∈ names, isDots name = false) : removeEntries remove path names t = none := by
  induction names with
  | nil =>
    obtain ⟨name, hmem, -⟩ := hsome
    cases hmem
  | cons name names ih =>
    rw [removeEntries]
    by_cases hdots : isDots name = true
    · rw [if_pos hdots]
      refine ih (fun n hn => hnone n (List.mem_cons_of_mem _ hn)) ?_
      obtain ⟨n, hmem, hn⟩ := hsome
      rcases List.mem_cons.1 hmem with rfl | hmem
      · rw [hdots] at hn
        cases hn
      · exact ⟨n, hmem, hn⟩
    · rw [if_neg hdots, hnone name List.mem_cons_self]
      rfl

/-- A path that fills the array and names a directory with an entry is put together again. -/
theorem removeTree_full (hlen : path.length + 1 = pathMax) (hx : t.resolve cwd path = .ok x)
    (hentries : t.entries x ≠ []) (depth : ℕ) : removeTree cwd order depth t path = none := by
  obtain ⟨name, hmem⟩ := List.exists_mem_of_ne_nil _ hentries
  have hsame : ∀ name, childPath path name = path := by
    intro name
    exact List.take_left' (by omega)
  induction depth with
  | zero => rfl
  | succ depth ih =>
    rw [removeTree_dir hx (Tree.kind_of_mem_entries t hmem), removeEntries_none]
    · rfl
    · intro name _
      rw [hsame, ih]
    · have hname := Tree.isName_of_mem_entries t hmem
      exact ⟨name, mem_listing.2 (Or.inr hmem), isDots_of_isName hname⟩

/-! ## Calls that return -/

/-- What `unlink` and `rmdir` do: they fail, or remove what the path names. -/
def OneRemoval (cwd : Position UInt8) (t : FileTree) (path : Bytes) (r : ℤ × FileTree) : Prop :=
  r = (-1, t) ∨
    ∃ x, ∃ hempty : t.entries x = [], t.resolve cwd path = .ok x ∧ r = (0, t.remove x hempty)

theorem unlink_oneRemoval (cwd : Position UInt8) (t : FileTree) (path : Bytes) :
    OneRemoval cwd t path (unlink cwd t path) := by
  unfold unlink
  split
  · rename_i x hx
    split
    · exact Or.inr ⟨x, _, hx, rfl⟩
    · exact Or.inl rfl
  · exact Or.inl rfl

theorem rmdir_oneRemoval (cwd : Position UInt8) (t : FileTree) (path : Bytes) :
    OneRemoval cwd t path (rmdir cwd t path) := by
  unfold rmdir
  split
  · rename_i x name hparent
    split
    · rename_i h
      exact Or.inr ⟨x ++ [name], _, Tree.resolve_of_parentOf hparent h.1, rfl⟩
    · exact Or.inl rfl
  · exact Or.inl rfl

theorem OneRemoval.inside {r : ℤ × FileTree} (h : OneRemoval cwd t path r) :
    StaysInside cwd t path r.2 := by
  rcases h with rfl | ⟨x, hempty, hx, rfl⟩
  · exact Or.inl rfl
  · exact Or.inr ⟨x, hx, lostBelow_remove hempty⟩

theorem OneRemoval.gone {r : ℤ × FileTree} (h : OneRemoval cwd t path r) (hrc : r.1 = 0)
    (y : Position UInt8) : r.2.resolve cwd path ≠ .ok y := by
  rcases h with rfl | ⟨x, hempty, hx, rfl⟩
  · cases hrc
  · exact Tree.resolve_remove hx hempty y

/-- The loop loses what its calls lose. -/
theorem removeEntries_inside {remove : FileTree → Bytes → Option Removal} {names : List Bytes}
    (hremove : ∀ name ∈ names, isDots name = false → ∀ t₁ r, t₁.Sub t →
      remove t₁ (childPath path name) = some r → LostBelow x t₁ r.tree) :
    ∀ t₁ r, t₁.Sub t → removeEntries remove path names t₁ = some r → LostBelow x t₁ r.tree := by
  induction names with
  | nil =>
    intro t₁ r _ h
    cases h
    exact .refl x t₁
  | cons name names ih =>
    intro t₁ r hsub h
    have ih' := ih fun n hn => hremove n (List.mem_cons_of_mem _ hn)
    rw [removeEntries] at h
    by_cases hdots : isDots name = true
    · rw [if_pos hdots] at h
      exact ih' t₁ r hsub h
    · rw [if_neg hdots] at h
      obtain ⟨r₁, hone, h⟩ := Option.bind_eq_some_iff.1 h
      have hlost := hremove name List.mem_cons_self (Bool.eq_false_iff.2 hdots) t₁ r₁ hsub hone
      split at h
      · cases h
        exact hlost
      · obtain ⟨r₂, hrest, rfl⟩ := Option.map_eq_some_iff.1 h
        exact hlost.trans (ih' r₁.tree r₂ (hlost.sub.trans hsub) hrest)

/-- It opens what its calls open. -/
theorem removeEntries_opened {remove : FileTree → Bytes → Option Removal} {names : List Bytes}
    {good : Bytes → Prop}
    (hremove : ∀ name ∈ names, isDots name = false → ∀ t₁ r, t₁.Sub t →
      remove t₁ (childPath path name) = some r → r.tree.Sub t₁ ∧ ∀ p ∈ r.opened, good p) :
    ∀ t₁ r, t₁.Sub t → removeEntries remove path names t₁ = some r → ∀ p ∈ r.opened, good p := by
  induction names with
  | nil =>
    intro t₁ r _ h p hp
    cases h
    cases hp
  | cons name names ih =>
    intro t₁ r hsub h
    have ih' := ih fun n hn => hremove n (List.mem_cons_of_mem _ hn)
    rw [removeEntries] at h
    by_cases hdots : isDots name = true
    · rw [if_pos hdots] at h
      exact ih' t₁ r hsub h
    · rw [if_neg hdots] at h
      obtain ⟨r₁, hone, h⟩ := Option.bind_eq_some_iff.1 h
      obtain ⟨hsub₁, hgood⟩ :=
        hremove name List.mem_cons_self (Bool.eq_false_iff.2 hdots) t₁ r₁ hsub hone
      split at h
      · cases h
        exact hgood
      · obtain ⟨r₂, hrest, rfl⟩ := Option.map_eq_some_iff.1 h
        intro p hp
        rcases List.mem_append.1 hp with hp | hp
        · exact hgood p hp
        · exact ih' r₁.tree r₂ (hsub₁.trans hsub) hrest p hp

/-- A call on what is no directory opens nothing, and removes one node at most. -/
theorem removeTree_node {depth : ℕ} {r : Removal}
    (hnode : ∀ x, t.resolve cwd path = .ok x → t.kind x ≠ some .dir)
    (h : removeTree cwd order depth t path = some r) :
    r.opened = [] ∧ StaysInside cwd t path r.tree ∧
      (r.rc = 0 → ∀ y, r.tree.resolve cwd path ≠ .ok y) := by
  cases depth with
  | zero => cases h
  | succ depth =>
    rw [removeTree] at h
    cases hx : t.resolve cwd path with
    | error e =>
      rw [hx] at h
      split at h
      · cases h
        exact ⟨rfl, Or.inl rfl, fun hrc => by cases hrc⟩
      · cases h
        refine ⟨rfl, Or.inl rfl, fun _ y hy => ?_⟩
        rw [hx] at hy
        cases hy
    | ok x =>
      rw [hx] at h
      simp only [if_neg (hnode x hx)] at h
      have hone := unlink_oneRemoval cwd t path
      split at h
      · cases h
        exact ⟨rfl, Or.inl rfl, fun hrc => by cases hrc⟩
      · cases h
        exact ⟨rfl, hone.inside, hone.gone⟩

/-- **A call that returns stays inside**: it removes nothing but what is at or below its path. -/
theorem removeTree_inside (depth : ℕ) : ∀ (t : FileTree) (path : Bytes) (r : Removal),
    removeTree cwd order depth t path = some r → StaysInside cwd t path r.tree := by
  induction depth with
  | zero =>
    intro t path r h
    cases h
  | succ depth ih =>
    intro t path r h
    by_cases hdirectory : ∃ x, t.resolve cwd path = .ok x ∧ t.kind x = some .dir
    · obtain ⟨x, hx, hdir⟩ := hdirectory
      rw [removeTree_dir hx hdir] at h
      obtain ⟨r₁, hloop, rfl⟩ := Option.map_eq_some_iff.1 h
      have hlost : LostBelow x t r₁.tree := by
        refine removeEntries_inside (t := t) (fun name hmem hdots t₁ r₂ hsub hone => ?_) t r₁
          (.refl t) hloop
        have hentry : name ∈ t.entries x :=
          (mem_listing.1 hmem).resolve_left (by rw [hdots]; exact Bool.false_ne_true)
        rcases ih t₁ _ r₂ hone with hsame | ⟨z, hz, hlost⟩
        · rw [hsame]
          exact .refl x t₁
        · rcases place_of_child hsub hx hdir (Tree.isName_of_mem_entries t hentry) hz with
            hbelow | ⟨hfull, hentries⟩
          · exact hlost.mono hbelow
          · -- the call on the directory above never returns
            rw [removeTree_full hfull hz hentries] at hone
            cases hone
      split
      · exact Or.inr ⟨x, hx, hlost⟩
      · rcases (rmdir_oneRemoval cwd r₁.tree path).inside with hsame | ⟨y, hy, hremoved⟩
        · rw [hsame]
          exact Or.inr ⟨x, hx, hlost⟩
        · have hboth := (Tree.resolve_mono hlost.sub hy).symm.trans hx
          cases hboth
          exact Or.inr ⟨x, hx, hlost.trans hremoved⟩
    · exact (removeTree_node (fun x hx hdir => hdirectory ⟨x, hx, hdir⟩) h).2.1

/-- **A call that returns 0 leaves nothing at its path.** -/
theorem removeTree_gone {depth : ℕ} {r : Removal}
    (h : removeTree cwd order depth t path = some r) (hrc : r.rc = 0) (y : Position UInt8) :
    r.tree.resolve cwd path ≠ .ok y := by
  by_cases hdirectory : ∃ x, t.resolve cwd path = .ok x ∧ t.kind x = some .dir
  · obtain ⟨x, hx, hdir⟩ := hdirectory
    cases depth with
    | zero => cases h
    | succ depth =>
      rw [removeTree_dir hx hdir] at h
      obtain ⟨r₁, -, rfl⟩ := Option.map_eq_some_iff.1 h
      split at hrc
      · cases hrc
      · rename_i hloop
        rw [if_neg hloop]
        exact (rmdir_oneRemoval cwd r₁.tree path).gone hrc y
  · exact (removeTree_node (fun x hx hdir => hdirectory ⟨x, hx, hdir⟩) h).2.2 hrc y

/-! ## Links -/

/-- The path does not lead to a directory through a link under its last name. -/
def FileTree.Direct (cwd : Position UInt8) (t : FileTree) (path : Bytes) : Prop :=
  t.LinkAtEnd cwd path → ∀ x, t.resolve cwd path = .ok x → t.kind x ≠ some .dir

/-- The path of an entry names it, or has the last name of the path it was put together from. -/
theorem FileTree.Direct.child {name : Bytes} (h : t.Direct cwd path)
    (hx : t.resolve cwd path = .ok x) (hdir : t.kind x = some .dir)
    (hname : IsName slash dot name) : t.Direct cwd (childPath path name) := by
  obtain ⟨hpath, hlen, -⟩ := Tree.walk_of_resolve hx hdir
  rcases childPath_cases hlen name with hsame | ⟨rest, hrest, hchild, -⟩
  · rwa [hsame]
  · have hslash : slash ∉ rest := fun h => hname.2.2.1 (hrest.subset h)
    rw [hchild]
    rintro ⟨y, target, hlast, hlink⟩ z hz hdir'
    by_cases hsilent : rest = [] ∨ rest = [dot]
    · rw [Tree.lastNode_append_silent hpath hslash hsilent] at hlast
      exact h ⟨y, target, hlast, hlink⟩ x hx hdir
    · have hboth := hlast.symm.trans (Tree.lastNode_append hpath hslash hsilent hz)
      cases hboth
      rw [hlink] at hdir'
      cases hdir'

/-- **A call that returns has opened no link for a directory**, if its own path is not one. -/
theorem removeTree_opened (depth : ℕ) : ∀ (t₁ : FileTree) (path : Bytes) (r : Removal),
    t₁.Sub t → t.Direct cwd path → removeTree cwd order depth t₁ path = some r →
      ∀ p ∈ r.opened, ¬ t.LinkAtEnd cwd p := by
  induction depth with
  | zero =>
    intro t₁ path r _ _ h
    cases h
  | succ depth ih =>
    intro t₁ path r hsub hdirect h
    by_cases hdirectory : ∃ x, t₁.resolve cwd path = .ok x ∧ t₁.kind x = some .dir
    · obtain ⟨x, hx, hdir⟩ := hdirectory
      have hx' := Tree.resolve_mono hsub hx
      have hdir' := hsub x _ hdir
      rw [removeTree_dir hx hdir] at h
      obtain ⟨r₁, hloop, rfl⟩ := Option.map_eq_some_iff.1 h
      have hentries : ∀ p ∈ r₁.opened, ¬ t.LinkAtEnd cwd p := by
        refine removeEntries_opened (t := t₁) (fun name hmem hdots t₂ r₂ hsub₂ hone => ?_) t₁ r₁
          (.refl t₁) hloop
        have hentry : name ∈ t₁.entries x :=
          (mem_listing.1 hmem).resolve_left (by rw [hdots]; exact Bool.false_ne_true)
        have hchild := hdirect.child hx' hdir' (Tree.isName_of_mem_entries t₁ hentry)
        exact ⟨(removeTree_inside depth _ _ _ hone).sub,
          ih t₂ _ r₂ (hsub₂.trans hsub) hchild hone⟩
      have hall : ∀ p ∈ path :: r₁.opened, ¬ t.LinkAtEnd cwd p := by
        intro p hp
        rcases List.mem_cons.1 hp with rfl | hp
        · exact fun hlink => hdirect hlink x hx' hdir'
        · exact hentries p hp
      split
      · exact hall
      · exact hall
    · rw [(removeTree_node (fun x hx hdir => hdirectory ⟨x, hx, hdir⟩) h).1]
      exact fun p hp => by cases hp

end Call

/-! ## Where every call returns -/

section Returns

variable {cwd : Position UInt8} {order : ReaddirOrder} {t : FileTree} {path : Bytes}

/-- Among the paths that are put together from a path there is one that one of its own
entries is put together to. -/
def FileTree.Doomed (cwd : Position UInt8) (t : FileTree) (path : Bytes) : Prop :=
  ∃ path' name, t.Descends cwd path path' ∧ name ∈ t.entriesAt cwd path' ∧
    childPath path' name = path'

theorem entriesAt_of_resolve {x : Position UInt8} (hx : t.resolve cwd path = .ok x) :
    t.entriesAt cwd path = t.entries x := by
  rw [FileTree.entriesAt, hx]

theorem exists_of_mem_entriesAt {name : Bytes} (h : name ∈ t.entriesAt cwd path) :
    ∃ x, t.resolve cwd path = .ok x ∧ name ∈ t.entries x := by
  unfold FileTree.entriesAt at h
  split at h
  · rename_i x hx
    exact ⟨x, hx, h⟩
  · cases h

theorem FileTree.Descends.snoc {path' name : Bytes} (h : t.Descends cwd path path')
    (hname : name ∈ t.entriesAt cwd path') : t.Descends cwd path (childPath path' name) := by
  induction h with
  | refl path => exact .child hname (.refl _)
  | child hmem _ ih => exact .child hmem (ih hname)

/-- The loop returns if its calls do. -/
theorem removeEntries_returns {remove : FileTree → Bytes → Option Removal} {names : List Bytes}
    (hremove : ∀ name ∈ names, isDots name = false → ∀ t₁, t₁.Sub t →
      ∃ r, remove t₁ (childPath path name) = some r ∧ r.tree.Sub t₁) :
    ∀ t₁, t₁.Sub t → ∃ r, removeEntries remove path names t₁ = some r := by
  induction names with
  | nil => exact fun t₁ _ => ⟨_, rfl⟩
  | cons name names ih =>
    intro t₁ hsub
    have ih' := ih fun n hn => hremove n (List.mem_cons_of_mem _ hn)
    rw [removeEntries]
    by_cases hdots : isDots name = true
    · rw [if_pos hdots]
      exact ih' t₁ hsub
    · obtain ⟨r₁, hone, hsub₁⟩ :=
        hremove name List.mem_cons_self (Bool.eq_false_iff.2 hdots) t₁ hsub
      rw [if_neg hdots, hone, Option.bind_some]
      by_cases hrc : r₁.rc ≠ 0
      · exact ⟨_, if_pos hrc⟩
      · obtain ⟨r₂, hrest⟩ := ih' r₁.tree (hsub₁.trans hsub)
        rw [if_neg hrc, hrest]
        exact ⟨_, rfl⟩

theorem removeTree_returns_of_entries {depth : ℕ}
    (hcalls : ∀ x, t.resolve cwd path = .ok x → ∀ name ∈ t.entries x, ∀ t₁, t₁.Sub t →
      ∃ r, removeTree cwd order depth t₁ (childPath path name) = some r) :
    ∃ r, removeTree cwd order (depth + 1) t path = some r := by
  cases hx : t.resolve cwd path with
  | error e =>
    rw [removeTree, hx]
    split
    · exact ⟨_, rfl⟩
    · exact ⟨_, rfl⟩
  | ok x =>
    by_cases hdir : t.kind x = some .dir
    · have hentries : ∀ name ∈ order.of path ([dot] :: [dot, dot] :: t.entries x),
          isDots name = false → ∀ t₁, t₁.Sub t →
            ∃ r, removeTree cwd order depth t₁ (childPath path name) = some r ∧
              r.tree.Sub t₁ := by
        intro name hmem hdots t₁ hsub
        have hentry : name ∈ t.entries x :=
          (mem_listing.1 hmem).resolve_left (by rw [hdots]; exact Bool.false_ne_true)
        obtain ⟨r, hr⟩ := hcalls x hx name hentry t₁ hsub
        exact ⟨r, hr, (removeTree_inside depth _ _ _ hr).sub⟩
      obtain ⟨r, hloop⟩ := removeEntries_returns hentries t (.refl t)
      rw [removeTree_dir hx hdir, hloop]
      exact ⟨_, rfl⟩
    · rw [removeTree, hx]
      simp only [if_neg hdir]
      split
      · exact ⟨_, rfl⟩
      · exact ⟨_, rfl⟩

/-- Every level of recursion makes the path longer, as long as it still fits. -/
theorem removeTree_returns (hsafe : ¬ t.Doomed cwd path) (depth : ℕ) :
    ∀ (t₁ : FileTree) (path' : Bytes), t₁.Sub t → t.Descends cwd path path' →
      pathMax ≤ path'.length + depth + 1 →
        ∃ r, removeTree cwd order (depth + 1) t₁ path' = some r := by
  induction depth with
  | zero =>
    intro t₁ path' hsub hdesc hlen
    refine removeTree_returns_of_entries fun x hx name hmem => ?_
    obtain ⟨-, hlt, -⟩ := Tree.walk_of_resolve hx (Tree.kind_of_mem_entries t₁ hmem)
    -- the path fills the array
    have hsame : childPath path' name = path' := List.take_left' (by omega)
    have hentry : name ∈ t.entriesAt cwd path' := by
      rw [entriesAt_of_resolve (Tree.resolve_mono hsub hx)]
      exact hsub.mem_entries hmem
    exact absurd ⟨path', name, hdesc, hentry, hsame⟩ hsafe
  | succ depth ih =>
    intro t₁ path' hsub hdesc hlen
    refine removeTree_returns_of_entries fun x hx name hmem t₂ hsub₂ => ?_
    have hentry : name ∈ t.entriesAt cwd path' := by
      rw [entriesAt_of_resolve (Tree.resolve_mono hsub hx)]
      exact hsub.mem_entries hmem
    refine ih t₂ _ (hsub₂.trans hsub) (hdesc.snoc hentry) ?_
    rw [childPath_length]
    omega

/-- A doomed directory has an entry that is doomed. -/
theorem FileTree.Doomed.entry (h : t.Doomed cwd path) :
    ∃ name ∈ t.entriesAt cwd path, t.Doomed cwd (childPath path name) := by
  obtain ⟨path', name, hdesc, hmem, hsame⟩ := h
  cases hdesc with
  | refl =>
    refine ⟨name, hmem, ?_⟩
    rw [hsame]
    exact ⟨path, name, .refl path, hmem, hsame⟩
  | child hmem' hdesc => exact ⟨_, hmem', path', name, hdesc, hmem, hsame⟩

open Classical in
/-- The order that has a doomed entry first. -/
noncomputable def doomedFirst (cwd : Position UInt8) (t : FileTree) : ReaddirOrder where
  of path names :=
    if h : ∃ name, name ∈ names ∧ isDots name = false ∧ t.Doomed cwd (childPath path name) then
      h.choose :: names.erase h.choose
    else names
  perm path names := by
    split
    · rename_i h
      exact (List.perm_cons_erase h.choose_spec.1).symm
    · exact .refl _

theorem removeTree_doomed (depth : ℕ) : ∀ path : Bytes, t.Doomed cwd path →
    removeTree cwd (doomedFirst cwd t) depth t path = none := by
  induction depth with
  | zero => exact fun path _ => rfl
  | succ depth ih =>
    intro path h
    obtain ⟨name, hmem, hdoomed⟩ := h.entry
    obtain ⟨x, hx, hentry⟩ := exists_of_mem_entriesAt hmem
    have hdots := isDots_of_isName (Tree.isName_of_mem_entries t hentry)
    have hfirst : ∃ name, name ∈ [dot] :: [dot, dot] :: t.entries x ∧ isDots name = false ∧
        t.Doomed cwd (childPath path name) :=
      ⟨name, List.mem_cons_of_mem _ (List.mem_cons_of_mem _ hentry), hdots, hdoomed⟩
    rw [removeTree_dir hx (Tree.kind_of_mem_entries t hentry), doomedFirst]
    simp only [dif_pos hfirst]
    obtain ⟨-, hdots', hdoomed'⟩ := hfirst.choose_spec
    rw [removeEntries, if_neg (by rw [hdots']; exact Bool.false_ne_true)]
    have hnone := ih _ hdoomed'
    rw [doomedFirst] at hnone
    rw [hnone]
    rfl

end Returns

/-- **Where `remove_tree` does what it should**, whatever the order of its directories: it
returns, nothing is gone but what was at or below the path, no link was opened for the
directory it leads to, and a path of which it says so names nothing any more.  That is so
unless an entry is put together to the path of its directory, for which that path must fill
the array, or the path itself, by slashes or dots behind the name of a link, leads on to a
directory. -/
theorem remove_tree_iff (cwd : Position UInt8) (t : FileTree) (path : Bytes) :
    (∀ order : ReaddirOrder, (∃ depth r, removeTree cwd order depth t path = some r) ∧
      ∀ depth r, removeTree cwd order depth t path = some r →
        StaysInside cwd t path r.tree ∧ (∀ p ∈ r.opened, ¬ t.LinkAtEnd cwd p) ∧
          (r.rc = 0 → ∀ x, r.tree.resolve cwd path ≠ .ok x)) ↔
    (∀ path' name, t.Descends cwd path path' → name ∈ t.entriesAt cwd path' →
      childPath path' name ≠ path') ∧
    (t.LinkAtEnd cwd path → ∀ x, t.resolve cwd path = .ok x → t.kind x ≠ some .dir) := by
  constructor
  · intro h
    constructor
    · intro path' name hdesc hmem hsame
      obtain ⟨depth, r, hr⟩ := (h (doomedFirst cwd t)).1
      rw [removeTree_doomed depth path ⟨path', name, hdesc, hmem, hsame⟩] at hr
      cases hr
    · intro hlink x hx hdir
      obtain ⟨⟨depth, r, hr⟩, hall⟩ := h .inPlace
      refine (hall depth r hr).2.1 path ?_ hlink
      -- the directory is opened first of all
      cases depth with
      | zero => cases hr
      | succ depth =>
        rw [removeTree_dir hx hdir] at hr
        obtain ⟨r₁, -, rfl⟩ := Option.map_eq_some_iff.1 hr
        split
        · exact List.mem_cons_self
        · exact List.mem_cons_self
  · rintro ⟨h, hdirect⟩ order
    have hsafe : ¬ t.Doomed cwd path := by
      rintro ⟨path', name, hdesc, hmem, hsame⟩
      exact h path' name hdesc hmem hsame
    have hreturns : ∃ r, removeTree cwd order (pathMax + 1) t path = some r :=
      removeTree_returns hsafe pathMax t path (.refl t) (.refl path) (by omega)
    obtain ⟨r, hr⟩ := hreturns
    refine ⟨⟨_, r, hr⟩, fun depth r hrun => ⟨removeTree_inside depth t path _ hrun, ?_, ?_⟩⟩
    · exact removeTree_opened depth t path r (.refl t) hdirect hrun
    · exact fun hrc => removeTree_gone hrun hrc

theorem isName_d : IsName slash dot [100] := by decide

theorem isName_f : IsName slash dot [102] := by decide

/-- A directory `d` in the root. -/
def outerTree : FileTree := Tree.root.add [] [100] .dir isName_d Tree.kind_root rfl

theorem kind_outerTree :
    outerTree.kind [[100]] = some .dir ∧ outerTree.kind [[100], [102]] = none := ⟨rfl, rfl⟩

/-- With a file `f` in it. -/
def innerTree : FileTree :=
  outerTree.add [[100]] [102] .file isName_f kind_outerTree.1 kind_outerTree.2

/-- `d`, behind so many slashes that one more fills the array. -/
def slashedPath : Bytes := List.replicate 4093 slash ++ [100]

theorem resolve_slashedPath : innerTree.resolve [] slashedPath = .ok [[100]] := by
  have hsplit : ∀ n, (List.replicate n slash ++ [100]).splitOn slash =
      List.replicate n [] ++ [[100]] := by
    intro n
    induction n with
    | zero => rfl
    | succ n ih =>
      have happend :=
        List.splitOn_append_cons_self (a := slash) [] (List.replicate n slash ++ [100])
      rw [List.replicate_succ, List.cons_append, List.replicate_succ, List.cons_append, ← ih]
      exact happend
  have hlen : slashedPath.length = 4094 := by
    rw [slashedPath, List.length_append, List.length_replicate]
    rfl
  have hnil : slashedPath ≠ [] := List.ne_nil_of_length_pos (by omega)
  have hstart : Tree.start slash [] slashedPath = ([] : Position UInt8) := by
    rw [Tree.start, ite_self]
  have hroot : innerTree.kind [] = some .dir := rfl
  rw [Tree.resolve, if_neg hnil, if_neg (by rw [hlen]; decide), hstart, slashedPath, hsplit,
    List.dropLast_concat, Tree.walk_replicate_nil innerTree hroot]
  simp only [List.getLastD_concat]
  rfl

/-- With one slash more the entry of `d` is put together to `d` again, and again. -/
theorem slashedPath_never_returns :
    slashedPath.length < pathMax ∧ 0 ∉ slashedPath ∧
      ∀ order depth, removeTree [] order depth innerTree slashedPath = none := by
  have hlen : slashedPath.length = 4094 := by
    rw [slashedPath, List.length_append, List.length_replicate]
    rfl
  have hnul : 0 ∉ slashedPath := by
    rw [slashedPath, List.mem_append, not_or, List.mem_replicate]
    exact ⟨fun h => absurd h.2 (by decide), by decide⟩
  refine ⟨by rw [hlen]; decide, hnul, fun order depth => ?_⟩
  have hdir : innerTree.kind [[100]] = some .dir := rfl
  have hentries : innerTree.entries [[100]] = [[102]] := rfl
  have hnext : ∀ name, childPath slashedPath name = slashedPath ++ slash :: [] := by
    intro name
    rw [childPath, snprintf, List.take_append, hlen, List.take_of_length_le (by rw [hlen]; decide)]
    rfl
  have hfull : (slashedPath ++ slash :: []).length + 1 = pathMax := by
    rw [List.length_append, hlen]
    rfl
  -- the same directory, with a slash behind
  obtain ⟨hnil, -, links, hwalk⟩ := Tree.walk_of_resolve resolve_slashedPath hdir
  have hsame : innerTree.resolve [] (slashedPath ++ slash :: []) = .ok [[100]] := by
    rw [Tree.resolve_append hnil List.not_mem_nil, hwalk, if_neg (by rw [← hfull]; omega)]
    rfl
  cases depth with
  | zero => rfl
  | succ depth =>
    rw [removeTree_dir resolve_slashedPath hdir, removeEntries_none]
    · rfl
    · intro name _
      rw [hnext, removeTree_full hfull hsame (by rw [hentries]; exact List.cons_ne_nil _ _)]
    · exact ⟨[102], mem_listing.2 (Or.inr (hentries ▸ List.mem_singleton_self _)), rfl⟩

theorem isName_l : IsName slash dot [108] := by decide

theorem kind_innerTree : innerTree.kind [] = some .dir ∧ innerTree.kind [[108]] = none :=
  ⟨rfl, rfl⟩

/-- With a link `l` to `d` in the root. -/
def linkTree : FileTree :=
  innerTree.add [] [108] (.link [100]) isName_l kind_innerTree.1 kind_innerTree.2

/-- `d` is emptied through the link, which stays. -/
theorem linkTree_emptied :
    linkTree.LinkAtEnd [] [108, slash] ∧
      ∃ r, removeTree [] .inPlace 2 linkTree [108, slash] = some r ∧ r.rc = -1 ∧
        [108, slash] ∈ r.opened ∧ linkTree.kind [[100], [102]] = some .file ∧
          r.tree.kind [[100], [102]] = none ∧ r.tree.kind [[108]] = some (.link [100]) :=
  ⟨⟨[[108]], [100], rfl, rfl⟩, _, rfl, rfl, List.mem_cons_self, rfl, rfl, rfl⟩

/-- Either way `remove_tree` goes wrong: it does not return, or it follows a link. -/
theorem remove_tree_strays :
    (∀ order depth, removeTree [] order depth innerTree slashedPath = none) ∧
      ∃ r, removeTree [] .inPlace 2 linkTree [108, slash] = some r ∧
        r.tree.kind [[100], [102]] = none ∧
          ∃ p ∈ r.opened, linkTree.LinkAtEnd [] p := by
  obtain ⟨hlink, r, hr, -, hopened, -, hgone, -⟩ := linkTree_emptied
  exact ⟨slashedPath_never_returns.2.2, r, hr, hgone, _, hopened, hlink⟩

end IotIde
