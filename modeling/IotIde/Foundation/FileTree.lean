import Mathlib

/-!
# A tree of files, and what a path names in it

Nodes are kept by their places, a place being the names from the root down.  A path is
resolved component by component, as the manual page on path resolution has it: links on
the way are followed, `.` stays, `..` goes up, and a slash at the end asks for a directory.
The slash, the dot and the alphabet are parameters.

* `Tree` — the nodes, each below a directory and under a name that can be one;
* `Tree.walk` — component by component, with `walk_append`;
* `Tree.resolve`, `Tree.follow` — what a path names, with a link at the end left alone or
  followed;
* `Tree.lastNode` — the node under the last name of a path, whatever stands behind the name;
* `Sub`, `walk_mono` — a tree with fewer nodes resolves no path otherwise;
* `Tree.remove`, `Tree.add` — the changes that keep it a tree.
-/

namespace FileTrees

variable {α : Type*} [DecidableEq α]

/-- The names from the root down. -/
abbrev Position (α : Type*) := List (List α)

/-- What a node is. -/
inductive Kind (α : Type*)
  | file
  | link (target : List α)
  | dir
  deriving DecidableEq

/-- Why a call fails. -/
inductive Errno
  | ENOENT
  | ENOTDIR
  | ENAMETOOLONG
  | ELOOP
  | EEXIST
  deriving DecidableEq

/-- The longest name. -/
def nameMax : ℕ := 255

/-- The first length that is too long for a path. -/
def pathMax : ℕ := 4096

/-- How many links are followed for one path. -/
def linksMax : ℕ := 40

/-- A directory can have an entry of this name. -/
def IsName (slash dot : α) (name : List α) : Prop :=
  name ≠ [] ∧ name.length ≤ nameMax ∧ slash ∉ name ∧ name ≠ [dot] ∧ name ≠ [dot, dot]

instance (slash dot : α) (name : List α) : Decidable (IsName slash dot name) :=
  inferInstanceAs (Decidable (_ ∧ _ ∧ _ ∧ _ ∧ _))

/-- Finitely many nodes, in the order of their making. -/
structure Tree (slash dot : α) where
  nodes : List (Position α × Kind α)
  unique : (nodes.map Prod.fst).Nodup
  named : ∀ x c, x ++ [c] ∈ nodes.map Prod.fst → IsName slash dot c
  parented : ∀ x c, x ++ [c] ∈ nodes.map Prod.fst → (x, Kind.dir) ∈ nodes

namespace Tree

variable {slash dot : α}

/-- The node at a place. -/
def kind (t : Tree slash dot) (x : Position α) : Option (Kind α) :=
  (t.nodes.find? fun n => n.1 = x).map Prod.snd

/-- The names in the directory at a place. -/
def entries (t : Tree slash dot) (x : Position α) : List (List α) :=
  t.nodes.filterMap fun n => if n.1.dropLast = x then n.1.getLast? else none

variable (t : Tree slash dot)

theorem kind_eq_some_iff {x : Position α} {k : Kind α} : t.kind x = some k ↔ (x, k) ∈ t.nodes := by
  constructor
  · intro h
    obtain ⟨⟨y, l⟩, hfind, rfl⟩ := Option.map_eq_some_iff.1 h
    obtain rfl : y = x := by simpa using List.find?_some hfind
    exact List.mem_of_find?_eq_some hfind
  · intro h
    obtain ⟨⟨y, l⟩, hfind⟩ : ∃ n, (t.nodes.find? fun n => n.1 = x) = some n := by
      rw [← Option.isSome_iff_exists, List.find?_isSome]
      exact ⟨_, h, by simp⟩
    obtain rfl : y = x := by simpa using List.find?_some hfind
    have hsame := List.inj_on_of_nodup_map t.unique h (List.mem_of_find?_eq_some hfind) rfl
    rw [kind, hfind]
    exact congrArg (fun n => some n.2) hsame.symm

theorem kind_isSome_iff {x : Position α} : (t.kind x).isSome ↔ x ∈ t.nodes.map Prod.fst := by
  simp only [Option.isSome_iff_exists, kind_eq_some_iff, List.mem_map, Prod.exists,
    exists_eq_right, exists_and_right]

theorem mem_entries {x : Position α} {c : List α} :
    c ∈ t.entries x ↔ (t.kind (x ++ [c])).isSome := by
  rw [kind_isSome_iff, entries, List.mem_filterMap, List.mem_map]
  refine exists_congr fun n => and_congr_right fun _ => ?_
  constructor
  · intro h
    obtain ⟨hdrop, hlast⟩ := Option.ite_none_right_eq_some.1 h
    rw [← hdrop]
    exact (List.dropLast_append_getLast? c hlast).symm
  · intro h
    rw [h, List.dropLast_concat, if_pos rfl, List.getLast?_concat]

theorem isName_of_mem_entries {x : Position α} {c : List α} (h : c ∈ t.entries x) :
    IsName slash dot c :=
  t.named x c ((kind_isSome_iff t).1 ((mem_entries t).1 h))

/-- What has an entry is a directory. -/
theorem kind_of_mem_entries {x : Position α} {c : List α} (h : c ∈ t.entries x) :
    t.kind x = some .dir :=
  (kind_eq_some_iff t).2 (t.parented x c ((kind_isSome_iff t).1 ((mem_entries t).1 h)))

theorem entries_of_kind_ne_dir {x : Position α} (h : t.kind x ≠ some .dir) : t.entries x = [] := by
  refine List.eq_nil_iff_forall_not_mem.2 fun c hc => ?_
  exact h (kind_of_mem_entries t hc)

/-- Above a node there is a directory; the root is above itself. -/
theorem kind_dropLast {x : Position α} (hx : x ≠ []) (h : (t.kind x).isSome) :
    t.kind x.dropLast = some .dir := by
  obtain ⟨y, c, rfl⟩ := List.eq_nil_or_concat' x |>.resolve_left hx
  rw [List.dropLast_concat]
  exact kind_of_mem_entries t ((mem_entries t).2 h)

/-! ## Resolution -/

/-- Where the resolution of a path starts. -/
def start (slash : α) (pos : Position α) (path : List α) : Position α :=
  if path.head? = some slash then [] else pos

/-- One component, from a directory. -/
def enter (pos : Position α) (c : List α) : Except Errno (Position α) :=
  match t.kind pos with
  | none => .error .ENOENT
  | some .dir =>
    if c = [] ∨ c = [dot] then .ok pos
    else if c = [dot, dot] then .ok pos.dropLast
    else if nameMax < c.length then .error .ENAMETOOLONG
    else if (t.kind (pos ++ [c])).isSome then .ok (pos ++ [c])
    else .error .ENOENT
  | some _ => .error .ENOTDIR

/-- Component by component; `next` goes on from a link. -/
def walkFrom (next : Position α → List (List α) → Except Errno (ℕ × Position α)) (links : ℕ) :
    Position α → List (List α) → Except Errno (ℕ × Position α)
  | pos, [] => .ok (links, pos)
  | pos, c :: cs =>
    match t.enter pos c with
    | .error e => .error e
    | .ok x =>
      match t.kind x with
      | some (.link target) => next (start slash pos target) (target.splitOn slash ++ cs)
      | _ => walkFrom next links x cs

/-- Follows a list of components with every link, while there are `links` left. -/
def walk : ℕ → Position α → List (List α) → Except Errno (ℕ × Position α)
  | 0 => t.walkFrom (fun _ _ => .error .ELOOP) 0
  | links + 1 => t.walkFrom (walk links) (links + 1)

/-- What a path names; a link at its end is itself. -/
def resolve (cwd : Position α) (path : List α) : Except Errno (Position α) :=
  if path = [] then .error .ENOENT
  else if pathMax ≤ path.length then .error .ENAMETOOLONG
  else
    (t.walk linksMax (start slash cwd path) (path.splitOn slash).dropLast).bind fun r =>
      t.enter r.2 ((path.splitOn slash).getLastD [])

/-- What a path leads to, through a link at its end. -/
def follow (cwd : Position α) (path : List α) : Except Errno (Position α) :=
  if path = [] then .error .ENOENT
  else if pathMax ≤ path.length then .error .ENAMETOOLONG
  else (t.walk linksMax (start slash cwd path) (path.splitOn slash)).map Prod.snd

/-- The directory that a path would have a new directory in, and its name there; slashes
at the end say nothing. -/
def parentOf (cwd : Position α) (path : List α) : Except Errno (Position α × List α) :=
  if path = [] then .error .ENOENT
  else if pathMax ≤ path.length then .error .ENAMETOOLONG
  else
    let components := (path.splitOn slash).rdropWhile fun c => c = []
    (t.walk linksMax (start slash cwd path) components.dropLast).map fun r =>
      (r.2, components.getLastD [])

/-- The node under the last name of a path, a link being itself.  A slash behind the name, or
a dot, says no other name, though it asks for a directory and so goes on from a link. -/
def lastNode (cwd : Position α) (path : List α) : Except Errno (Position α) :=
  let components := (path.splitOn slash).rdropWhile fun c => c = [] ∨ c = [dot]
  (t.walk linksMax (start slash cwd path) components.dropLast).bind fun r =>
    t.enter r.2 (components.getLastD [])

/-- Where a walk goes on from a link. -/
def next : ℕ → Position α → List (List α) → Except Errno (ℕ × Position α)
  | 0 => fun _ _ => .error .ELOOP
  | links + 1 => t.walk links

theorem walk_eq (links : ℕ) : t.walk links = t.walkFrom (t.next links) links := by
  cases links <;> rfl

@[simp] theorem walk_nil (links : ℕ) (pos : Position α) :
    t.walk links pos [] = .ok (links, pos) := by
  rw [walk_eq, walkFrom]

theorem walk_cons (links : ℕ) (pos : Position α) (c : List α) (cs : List (List α)) :
    t.walk links pos (c :: cs) =
      match t.enter pos c with
      | .error e => .error e
      | .ok x =>
        match t.kind x with
        | some (.link target) => t.next links (start slash pos target) (target.splitOn slash ++ cs)
        | _ => t.walk links x cs := by
  rw [walk_eq, walkFrom]

section Append

variable {t} {ds : List (List α)}

theorem walk_append_of_next {links : ℕ}
    (hnext : ∀ cs pos, t.next links pos (cs ++ ds) =
      (t.next links pos cs).bind fun r => t.walk r.1 r.2 ds) (cs : List (List α)) :
    ∀ pos : Position α, t.walk links pos (cs ++ ds) =
      (t.walk links pos cs).bind fun r => t.walk r.1 r.2 ds := by
  induction cs with
  | nil =>
    intro pos
    rw [List.nil_append, walk_nil]
    rfl
  | cons c cs ih =>
    intro pos
    rw [List.cons_append, walk_cons, walk_cons]
    cases t.enter pos c with
    | error e => rfl
    | ok x =>
      dsimp only
      split
      · rw [← List.append_assoc]
        exact hnext _ _
      · exact ih x

theorem walk_append (links : ℕ) : ∀ (cs : List (List α)) (pos : Position α),
    t.walk links pos (cs ++ ds) = (t.walk links pos cs).bind fun r => t.walk r.1 r.2 ds := by
  induction links with
  | zero => exact fun cs pos => walk_append_of_next (fun _ _ => rfl) cs pos
  | succ links ih => exact fun cs pos => walk_append_of_next ih cs pos

end Append

/-- Repeated slashes stay where they are. -/
theorem walk_replicate_nil {pos : Position α} (hdir : t.kind pos = some .dir) (links n : ℕ) :
    t.walk links pos (List.replicate n []) = .ok (links, pos) := by
  induction n with
  | zero => exact walk_nil t links pos
  | succ n ih =>
    have hstay : t.enter pos [] = .ok pos := by
      rw [enter, hdir]
      exact if_pos (Or.inl rfl)
    rw [List.replicate_succ, walk_cons, hstay]
    simp only [hdir]
    exact ih

/-! ### What is named is there -/

variable {t}

theorem enter_isSome {pos x : Position α} {c : List α} (h : t.enter pos c = .ok x) :
    (t.kind x).isSome := by
  unfold enter at h
  split at h
  · cases h
  · rename_i hdir
    split_ifs at h with hstay hup hlong hthere
    · cases h
      rw [hdir]
      rfl
    · cases h
      by_cases hroot : pos = []
      · rw [hroot] at hdir ⊢
        rw [List.dropLast_nil, hdir]
        rfl
      · rw [kind_dropLast t hroot (by rw [hdir]; rfl)]
        rfl
    · cases h
      exact hthere
  · cases h

theorem enter_ok {pos x : Position α} {c : List α} (h : t.enter pos c = .ok x) :
    t.kind pos = some .dir ∧ c.length ≤ nameMax := by
  unfold enter at h
  split at h
  · cases h
  · rename_i hdir
    refine ⟨hdir, ?_⟩
    have hmax : nameMax = 255 := rfl
    split_ifs at h with hstay hup hlong hthere
    · rcases hstay with rfl | rfl
      · exact Nat.zero_le _
      · rw [hmax, List.length_singleton]
        omega
    · rw [hup, hmax, List.length_cons, List.length_singleton]
      omega
    · exact Nat.not_lt.1 hlong
  · cases h

theorem enter_error {pos : Position α} {c : List α} {e : Errno} (h : t.enter pos c = .error e) :
    e ≠ .EEXIST := by
  rintro rfl
  unfold enter at h
  split at h
  · cases h
  · split_ifs at h
    · cases h
    · cases h
  · cases h

theorem walkFrom_error {links : ℕ}
    {next : Position α → List (List α) → Except Errno (ℕ × Position α)}
    (hnext : ∀ pos cs e, next pos cs = .error e → e ≠ .EEXIST) (cs : List (List α)) :
    ∀ pos e, t.walkFrom next links pos cs = .error e → e ≠ .EEXIST := by
  induction cs with
  | nil => exact fun pos e h => by cases h
  | cons c cs ih =>
    intro pos e h
    rw [walkFrom] at h
    cases henter : t.enter pos c with
    | error e' =>
      rw [henter] at h
      cases h
      exact enter_error henter
    | ok x =>
      rw [henter] at h
      dsimp only at h
      split at h
      · exact hnext _ _ _ h
      · exact ih _ _ h

/-- No walk fails because something exists. -/
theorem walk_error (links : ℕ) : ∀ (cs : List (List α)) (pos : Position α) (e : Errno),
    t.walk links pos cs = .error e → e ≠ .EEXIST := by
  induction links with
  | zero =>
    refine walkFrom_error fun pos cs e h => ?_
    cases h
    exact fun h => by cases h
  | succ links ih => exact walkFrom_error fun pos cs e h => ih cs pos e h

theorem resolve_isSome {cwd x : Position α} {path : List α} (h : t.resolve cwd path = .ok x) :
    (t.kind x).isSome := by
  unfold resolve at h
  split_ifs at h
  cases hwalk : t.walk linksMax (start slash cwd path) (path.splitOn slash).dropLast with
  | error e =>
    rw [hwalk] at h
    cases h
  | ok r =>
    rw [hwalk] at h
    exact enter_isSome h

/-- What names a directory leads to it. -/
theorem walk_of_resolve {cwd x : Position α} {path : List α} (h : t.resolve cwd path = .ok x)
    (hdir : t.kind x = some .dir) :
    path ≠ [] ∧ path.length < pathMax ∧
      ∃ links, t.walk linksMax (start slash cwd path) (path.splitOn slash) = .ok (links, x) := by
  unfold resolve at h
  split_ifs at h with hnil hlen
  have hsplit : (path.splitOn slash).dropLast ++ [(path.splitOn slash).getLastD []] =
      path.splitOn slash := by
    have hne := List.splitOn_ne_nil slash path
    rw [List.getLastD_eq_getLast?, List.getLast?_eq_some_getLast hne, Option.getD_some]
    exact List.dropLast_append_getLast hne
  cases hwalk : t.walk linksMax (start slash cwd path) (path.splitOn slash).dropLast with
  | error e =>
    rw [hwalk] at h
    cases h
  | ok r =>
    rw [hwalk] at h
    refine ⟨hnil, Nat.lt_of_not_le hlen, r.1, ?_⟩
    rw [← hsplit, walk_append, hwalk]
    show t.walk r.1 r.2 [(path.splitOn slash).getLastD []] = _
    have hlast : t.enter r.2 ((path.splitOn slash).getLastD []) = .ok x := h
    rw [walk_cons, hlast]
    simp only [hdir, walk_nil]

theorem follow_of_resolve {cwd x : Position α} {path : List α} (h : t.resolve cwd path = .ok x)
    (hdir : t.kind x = some .dir) : t.follow cwd path = .ok x := by
  obtain ⟨hnil, hlen, links, hwalk⟩ := walk_of_resolve h hdir
  rw [follow, if_neg hnil, if_neg (Nat.not_le.2 hlen), hwalk]
  rfl

theorem start_append {path : List α} (hpath : path ≠ []) (cwd : Position α) (rest : List α) :
    start slash cwd (path ++ rest) = start slash cwd path := by
  cases path with
  | nil => exact absurd rfl hpath
  | cons c path => rfl

theorem splitOn_further (path : List α) {name : List α} (hname : slash ∉ name) :
    (path ++ slash :: name).splitOn slash = path.splitOn slash ++ [name] := by
  rw [List.splitOn_append_cons_self, List.splitOn_eq_singleton hname]

section OneFurther

variable {cwd x : Position α} {path name : List α} (hpath : path ≠ []) (hname : slash ∉ name)
include hpath hname

/-- One name further. -/
theorem resolve_append :
    t.resolve cwd (path ++ slash :: name) =
      if pathMax ≤ (path ++ slash :: name).length then .error .ENAMETOOLONG
      else (t.walk linksMax (start slash cwd path) (path.splitOn slash)).bind fun r =>
        t.enter r.2 name := by
  have hnil : path ++ slash :: name ≠ [] := by simp
  rw [resolve, if_neg hnil, start_append hpath, splitOn_further path hname, List.dropLast_concat]
  simp only [List.getLastD_concat]

/-- A slash at the end, or a dot, leaves the last name as it is. -/
theorem lastNode_append_silent (hsilent : name = [] ∨ name = [dot]) :
    t.lastNode cwd (path ++ slash :: name) = t.lastNode cwd path := by
  have hdrop := List.rdropWhile_concat_pos (fun c => decide (c = [] ∨ c = [dot]))
    (path.splitOn slash) name (decide_eq_true hsilent)
  rw [lastNode, lastNode, start_append hpath, splitOn_further path hname, hdrop]

/-- A name is the last one, and what has it is what the path names. -/
theorem lastNode_append (hspoken : ¬ (name = [] ∨ name = [dot]))
    (h : t.resolve cwd (path ++ slash :: name) = .ok x) :
    t.lastNode cwd (path ++ slash :: name) = .ok x := by
  rw [resolve_append hpath hname] at h
  split_ifs at h
  have hkept := List.rdropWhile_concat_neg (fun c => decide (c = [] ∨ c = [dot]))
    (path.splitOn slash) name (by simpa using hspoken)
  rw [lastNode, start_append hpath, splitOn_further path hname, hkept, List.dropLast_concat]
  simpa only [List.getLastD_concat] using h

end OneFurther

theorem enter_of_mem_entries {x : Position α} {c : List α} (h : c ∈ t.entries x) :
    t.enter x c = .ok (x ++ [c]) := by
  have hname := isName_of_mem_entries t h
  rw [enter, kind_of_mem_entries t h]
  dsimp only
  rw [if_neg (not_or.2 ⟨hname.1, hname.2.2.2.1⟩), if_neg hname.2.2.2.2,
    if_neg (Nat.not_lt.2 hname.2.1), if_pos ((mem_entries t).1 h)]

theorem notMem_of_mem_splitOn {path c : List α} (h : c ∈ path.splitOn slash) : slash ∉ c := by
  induction path generalizing c with
  | nil =>
    rw [List.splitOn_nil, List.mem_singleton] at h
    rw [h]
    exact List.not_mem_nil
  | cons b path ih =>
    obtain ⟨d, ds, hsplit⟩ := List.exists_cons_of_ne_nil (List.splitOn_ne_nil slash path)
    rw [List.splitOn_cons_eq_if_modifyHead] at h
    split at h
    · rcases List.mem_cons.1 h with rfl | h
      · exact List.not_mem_nil
      · exact ih h
    · rename_i hb
      rw [hsplit, List.modifyHead_cons] at h
      rcases List.mem_cons.1 h with rfl | h
      · rw [List.mem_cons, not_or]
        exact ⟨fun heq => hb (beq_iff_eq.2 heq.symm), ih (hsplit ▸ List.mem_cons_self)⟩
      · exact ih (hsplit ▸ List.mem_cons_of_mem _ h)

/-- The components of a path, and the slashes at its end. -/
theorem exists_splitOn_eq (slash : α) (path : List α) : ∃ n, path.splitOn slash =
    (path.splitOn slash).rdropWhile (fun c => decide (c = [])) ++ List.replicate n [] := by
  refine ⟨((path.splitOn slash).rtakeWhile fun c => decide (c = [])).length, ?_⟩
  have hslashes : (path.splitOn slash).rtakeWhile (fun c => decide (c = [])) =
      List.replicate ((path.splitOn slash).rtakeWhile fun c => decide (c = [])).length [] :=
    List.eq_replicate_iff.2 ⟨rfl, fun d hd => by simpa using List.mem_rtakeWhile_imp hd⟩
  rw [← hslashes, List.rdropWhile_append_rtakeWhile]

/-- A directory's path, with slashes at the end or without, names it. -/
theorem resolve_of_parentOf {cwd x : Position α} {path c : List α}
    (hparent : t.parentOf cwd path = .ok (x, c)) (hdir : t.kind (x ++ [c]) = some .dir) :
    t.resolve cwd path = .ok (x ++ [c]) := by
  have hentry : c ∈ t.entries x := (mem_entries t).2 (by rw [hdir]; rfl)
  have hstep := enter_of_mem_entries hentry
  unfold parentOf at hparent
  unfold resolve
  split_ifs at hparent ⊢
  dsimp only at hparent
  obtain ⟨n, hsplit⟩ := exists_splitOn_eq slash path
  generalize (path.splitOn slash).rdropWhile (fun c => decide (c = [])) = front at hsplit hparent
  rw [hsplit]
  cases hwalk : t.walk linksMax (start slash cwd path) front.dropLast with
  | error e =>
    rw [hwalk] at hparent
    cases hparent
  | ok r =>
    rw [hwalk] at hparent
    obtain ⟨rfl, hlast⟩ := Prod.mk.inj (Except.ok.inj hparent)
    have hne : front ≠ [] := by
      rintro rfl
      exact (isName_of_mem_entries t hentry).1 hlast.symm
    have hfront : front.dropLast ++ [c] = front := by
      rw [← hlast, List.getLastD_eq_getLast?, List.getLast?_eq_some_getLast hne, Option.getD_some]
      exact List.dropLast_append_getLast hne
    cases n with
    | zero =>
      rw [List.replicate_zero, List.append_nil, hwalk, hlast]
      exact hstep
    | succ n =>
      have hpassed : t.walk r.1 r.2 ([c] ++ List.replicate n []) = .ok (r.1, r.2 ++ [c]) := by
        rw [List.singleton_append, walk_cons, hstep]
        simp only [hdir]
        exact walk_replicate_nil t hdir r.1 n
      rw [List.replicate_succ', ← List.append_assoc, List.dropLast_concat, List.getLastD_concat,
        ← hfront, List.append_assoc, walk_append, hwalk]
      show ((t.walk r.1 r.2 ([c] ++ List.replicate n [])).bind fun r => t.enter r.2 []) = _
      rw [hpassed]
      show t.enter (r.2 ++ [c]) [] = _
      rw [enter, hdir]
      exact if_pos (Or.inl rfl)

/-! ## Fewer nodes -/

/-- Every node of the one tree is in the other. -/
def Sub (t' t : Tree slash dot) : Prop := ∀ x k, t'.kind x = some k → t.kind x = some k

variable {t' : Tree slash dot}

theorem Sub.refl (t : Tree slash dot) : t.Sub t := fun _ _ h => h

theorem Sub.trans {t'' : Tree slash dot} (h : t''.Sub t') (h' : t'.Sub t) : t''.Sub t :=
  fun x k hx => h' x k (h x k hx)

theorem Sub.isSome (h : t'.Sub t) {x : Position α} (hx : (t'.kind x).isSome) :
    (t.kind x).isSome := by
  obtain ⟨k, hk⟩ := Option.isSome_iff_exists.1 hx
  rw [h x k hk]
  rfl

theorem Sub.mem_entries (h : t'.Sub t) {x : Position α} {c : List α} (hc : c ∈ t'.entries x) :
    c ∈ t.entries x :=
  (Tree.mem_entries t).2 (h.isSome ((Tree.mem_entries t').1 hc))

theorem enter_mono (hsub : t'.Sub t) {pos x : Position α} {c : List α}
    (h : t'.enter pos c = .ok x) : t.enter pos c = .ok x := by
  unfold enter at h ⊢
  split at h
  · cases h
  · rename_i hdir
    rw [hsub pos _ hdir]
    dsimp only
    by_cases hstay : c = [] ∨ c = [dot]
    · rwa [if_pos hstay] at h ⊢
    rw [if_neg hstay] at h ⊢
    by_cases hup : c = [dot, dot]
    · rwa [if_pos hup] at h ⊢
    rw [if_neg hup] at h ⊢
    by_cases hlong : nameMax < c.length
    · rwa [if_pos hlong] at h ⊢
    rw [if_neg hlong] at h ⊢
    by_cases hthere : (t'.kind (pos ++ [c])).isSome = true
    · rw [if_pos hthere] at h
      rwa [if_pos (hsub.isSome hthere)]
    · rw [if_neg hthere] at h
      cases h
  · cases h

theorem walkFrom_mono (hsub : t'.Sub t) {links : ℕ}
    {next' next : Position α → List (List α) → Except Errno (ℕ × Position α)}
    (hnext : ∀ pos cs r, next' pos cs = .ok r → next pos cs = .ok r) (cs : List (List α)) :
    ∀ pos r, t'.walkFrom next' links pos cs = .ok r → t.walkFrom next links pos cs = .ok r := by
  induction cs with
  | nil => exact fun pos r h => h
  | cons c cs ih =>
    intro pos r h
    rw [walkFrom] at h ⊢
    cases henter : t'.enter pos c with
    | error e =>
      rw [henter] at h
      cases h
    | ok x =>
      rw [henter] at h
      rw [enter_mono hsub henter]
      dsimp only at h ⊢
      obtain ⟨k, hk⟩ := Option.isSome_iff_exists.1 (enter_isSome henter)
      rw [hk] at h
      rw [hsub x k hk]
      cases k with
      | link target => exact hnext _ _ _ h
      | file => exact ih _ _ h
      | dir => exact ih _ _ h

/-- What is resolved among fewer nodes is resolved to the same among more. -/
theorem walk_mono (hsub : t'.Sub t) (links : ℕ) : ∀ (cs : List (List α)) (pos : Position α)
    (r : ℕ × Position α), t'.walk links pos cs = .ok r → t.walk links pos cs = .ok r := by
  induction links with
  | zero => exact walkFrom_mono hsub fun _ _ _ h => h
  | succ links ih => exact walkFrom_mono hsub fun pos cs r h => ih cs pos r h

theorem resolve_mono (hsub : t'.Sub t) {cwd x : Position α} {path : List α}
    (h : t'.resolve cwd path = .ok x) : t.resolve cwd path = .ok x := by
  unfold resolve at h ⊢
  split_ifs at h ⊢
  cases hwalk : t'.walk linksMax (start slash cwd path) (path.splitOn slash).dropLast with
  | error e =>
    rw [hwalk] at h
    cases h
  | ok r =>
    rw [hwalk] at h
    rw [walk_mono hsub _ _ _ _ hwalk]
    exact enter_mono hsub h

theorem follow_mono (hsub : t'.Sub t) {cwd x : Position α} {path : List α}
    (h : t'.follow cwd path = .ok x) : t.follow cwd path = .ok x := by
  unfold follow at h ⊢
  split_ifs at h ⊢
  cases hwalk : t'.walk linksMax (start slash cwd path) (path.splitOn slash) with
  | error e =>
    rw [hwalk] at h
    cases h
  | ok r =>
    rw [hwalk] at h
    rw [walk_mono hsub _ _ _ _ hwalk]
    exact h

/-! ## Changes -/

/-- Nothing but the root. -/
def root : Tree slash dot where
  nodes := [([], .dir)]
  unique := List.nodup_singleton _
  named x c h := by simp at h
  parented x c h := by simp at h

theorem kind_root : (root : Tree slash dot).kind [] = some .dir := rfl

/-- Without a node that has nothing below it. -/
def remove (t : Tree slash dot) (x : Position α) (hempty : t.entries x = []) : Tree slash dot where
  nodes := t.nodes.filter fun n => n.1 ≠ x
  unique := t.unique.sublist (List.filter_sublist.map Prod.fst)
  named y c h := t.named y c (List.filter_sublist.map Prod.fst |>.subset h)
  parented y c h := by
    have hmem := List.filter_sublist.map Prod.fst |>.subset h
    refine List.mem_filter.2 ⟨t.parented y c hmem, ?_⟩
    have hne : y ≠ x := by
      rintro rfl
      have hc := (mem_entries t).2 ((kind_isSome_iff t).2 hmem)
      rw [hempty] at hc
      cases hc
    simpa using hne

/-- With a new entry in a directory. -/
def add (t : Tree slash dot) (x : Position α) (c : List α) (k : Kind α) (hname : IsName slash dot c)
    (hdir : t.kind x = some .dir) (hfree : t.kind (x ++ [c]) = none) : Tree slash dot where
  nodes := t.nodes ++ [(x ++ [c], k)]
  unique := by
    have hnot : x ++ [c] ∉ t.nodes.map Prod.fst := by
      rw [← kind_isSome_iff, hfree]
      exact Bool.false_ne_true
    rw [List.map_append, List.nodup_append]
    refine ⟨t.unique, List.nodup_singleton _, ?_⟩
    rintro y hy z hz rfl
    rw [List.map_singleton, List.mem_singleton] at hz
    obtain rfl : y = x ++ [c] := hz
    exact hnot hy
  named y d h := by
    rw [List.map_append, List.mem_append, List.map_singleton, List.mem_singleton] at h
    rcases h with h | h
    · exact t.named y d h
    · rw [(List.append_inj' h rfl).2 |> List.singleton_inj.1]
      exact hname
  parented y d h := by
    rw [List.map_append, List.mem_append, List.map_singleton, List.mem_singleton] at h
    rcases h with h | h
    · exact List.mem_append_left _ (t.parented y d h)
    · rw [(List.append_inj' h rfl).1]
      exact List.mem_append_left _ ((kind_eq_some_iff t).1 hdir)

theorem kind_remove {x : Position α} (hempty : t.entries x = []) (y : Position α) :
    (t.remove x hempty).kind y = if y = x then none else t.kind y := by
  refine Option.ext fun k => ?_
  rw [kind_eq_some_iff, remove, List.mem_filter, ← kind_eq_some_iff]
  split
  · rename_i h
    simp [h]
  · rename_i h
    simp [h]

theorem kind_add {x : Position α} {c : List α} {k : Kind α} (hname : IsName slash dot c)
    (hdir : t.kind x = some .dir) (hfree : t.kind (x ++ [c]) = none) (y : Position α) :
    (t.add x c k hname hdir hfree).kind y = if y = x ++ [c] then some k else t.kind y := by
  refine Option.ext fun l => ?_
  rw [kind_eq_some_iff, add, List.mem_append, List.mem_singleton, ← kind_eq_some_iff, Prod.mk.injEq]
  split
  · rename_i h
    rw [h, hfree]
    simp [eq_comm]
  · rename_i h
    simp [h]

theorem remove_sub {x : Position α} (hempty : t.entries x = []) : (t.remove x hempty).Sub t := by
  intro y k h
  rw [kind_remove] at h
  split at h
  · cases h
  · exact h

/-- Once a node is removed, the path that named it names nothing. -/
theorem resolve_remove {cwd x : Position α} {path : List α} (h : t.resolve cwd path = .ok x)
    (hempty : t.entries x = []) (y : Position α) :
    (t.remove x hempty).resolve cwd path ≠ .ok y := by
  intro hy
  have hsame := (resolve_mono (remove_sub hempty) hy).symm.trans h
  cases hsame
  have hthere := resolve_isSome hy
  rw [kind_remove, if_pos rfl] at hthere
  cases hthere

theorem sub_add {x : Position α} {c : List α} {k : Kind α} (hname : IsName slash dot c)
    (hdir : t.kind x = some .dir) (hfree : t.kind (x ++ [c]) = none) :
    t.Sub (t.add x c k hname hdir hfree) := by
  intro y l h
  rw [kind_add]
  split
  · rename_i heq
    rw [heq, hfree] at h
    cases h
  · exact h

theorem slash_notMem_of_parentOf {cwd x : Position α} {path c : List α}
    (h : t.parentOf cwd path = .ok (x, c)) : slash ∉ c := by
  unfold parentOf at h
  split_ifs at h
  dsimp only at h
  cases hwalk : t.walk linksMax (start slash cwd path)
      ((path.splitOn slash).rdropWhile fun c => decide (c = [])).dropLast with
  | error e =>
    rw [hwalk] at h
    cases h
  | ok r =>
    rw [hwalk] at h
    obtain ⟨-, rfl⟩ := Prod.mk.inj (Except.ok.inj h)
    rcases List.eq_nil_or_concat' ((path.splitOn slash).rdropWhile fun c => decide (c = [])) with
      hempty | ⟨cs, c, hfront⟩
    · rw [hempty]
      exact List.not_mem_nil
    · have hmem : c ∈ path.splitOn slash := by
        refine (List.rdropWhile_prefix (fun c => decide (c = [])) _).subset ?_
        rw [hfront]
        exact List.mem_append_right _ (List.mem_singleton_self c)
      rw [hfront, List.getLastD_concat]
      exact notMem_of_mem_splitOn hmem

/-- A path leads where its last name leads, and on through the slashes behind it. -/
theorem follow_of_parentOf {cwd x : Position α} {path c : List α}
    (h : t.parentOf cwd path = .ok (x, c)) : ∃ links n, t.follow cwd path =
      (t.walk links x (c :: List.replicate n [])).map Prod.snd := by
  obtain ⟨n, hsplit⟩ := exists_splitOn_eq slash path
  unfold parentOf at h
  unfold follow
  split_ifs at h ⊢
  dsimp only at h
  generalize (path.splitOn slash).rdropWhile (fun c => decide (c = [])) = front at hsplit h
  cases hwalk : t.walk linksMax (start slash cwd path) front.dropLast with
  | error e =>
    rw [hwalk] at h
    cases h
  | ok r =>
    rw [hwalk] at h
    obtain ⟨rfl, hlast⟩ := Prod.mk.inj (Except.ok.inj h)
    rcases List.eq_nil_or_concat' front with rfl | ⟨cs, d, rfl⟩
    · -- nothing but slashes
      have hpos : n ≠ 0 := by
        rintro rfl
        exact List.splitOn_ne_nil slash path hsplit
      obtain ⟨m, rfl⟩ := Nat.exists_eq_succ_of_ne_zero hpos
      rw [List.dropLast_nil, walk_nil] at hwalk
      cases hwalk
      refine ⟨linksMax, m, ?_⟩
      rw [hsplit, List.nil_append, List.replicate_succ, ← hlast]
      rfl
    · rw [List.dropLast_concat] at hwalk
      rw [List.getLastD_concat] at hlast
      refine ⟨r.1, n, ?_⟩
      rw [hsplit, List.append_assoc, walk_append, hwalk, hlast]
      rfl

theorem parentOf_mono (hsub : t'.Sub t) {cwd : Position α} {path : List α}
    {r : Position α × List α} (h : t'.parentOf cwd path = .ok r) : t.parentOf cwd path = .ok r := by
  unfold parentOf at h ⊢
  split_ifs at h ⊢
  dsimp only at h ⊢
  generalize ((path.splitOn slash).rdropWhile fun c => decide (c = [])) = front at h ⊢
  cases hwalk : t'.walk linksMax (start slash cwd path) front.dropLast with
  | error e =>
    rw [hwalk] at h
    cases h
  | ok r =>
    rw [hwalk] at h
    rw [walk_mono hsub _ _ _ _ hwalk]
    exact h

/-- A new directory is what its path leads to. -/
theorem follow_add {cwd x : Position α} {path c : List α}
    (hparent : t.parentOf cwd path = .ok (x, c)) (hname : IsName slash dot c)
    (hdir : t.kind x = some .dir) (hfree : t.kind (x ++ [c]) = none) :
    (t.add x c .dir hname hdir hfree).follow cwd path = .ok (x ++ [c]) := by
  have hnew : (t.add x c .dir hname hdir hfree).kind (x ++ [c]) = some .dir := by
    rw [kind_add, if_pos rfl]
  have hparent' := parentOf_mono (sub_add (k := .dir) hname hdir hfree) hparent
  exact follow_of_resolve (resolve_of_parentOf hparent' hnew) hnew

end Tree

end FileTrees
