import Mathlib

/-!
# Paths by their text

What a path names when only its text is looked at: repeated slashes and `.` say nothing,
and `..` takes back the name before it.  The slash, the dot and the alphabet are
parameters.

* `Place` — a path after normalisation: up, and then down along names;
* `Place.follow` — one place as seen from another, and `walk_eq_follow`;
* `Place.Below` — a strict descendant, and `follow_below_iff`, which says when following
  a path from a place ends below it;
* `normalise` — from a text to its place, with `normalise_append`.
-/

namespace Paths

variable {ν : Type*}

/-- What one component of a path says. -/
inductive Segment (ν : Type*)
  | up
  | name (n : ν)

/-- A normalised path.  It starts at the root or at the working directory, goes `ups`
levels up and from there down along `names`; above the root there is nothing. -/
structure Place (ν : Type*) where
  rooted : Bool
  ups : ℕ
  names : List ν
  rooted_ups : rooted = true → ups = 0

namespace Place

@[ext] theorem ext' {p q : Place ν} (hrooted : p.rooted = q.rooted) (hups : p.ups = q.ups)
    (hnames : p.names = q.names) : p = q := by
  cases p
  cases q
  simp only at hrooted hups hnames
  subst hrooted hups hnames
  rfl

/-- The root, or the working directory. -/
def origin (rooted : Bool) : Place ν := ⟨rooted, 0, [], fun _ => rfl⟩

/-- `k` levels up.  What cannot be taken back from the names is climbed at the start, and
at the root it is lost. -/
def climb (p : Place ν) (k : ℕ) : Place ν where
  rooted := p.rooted
  ups := if p.rooted then 0 else p.ups + (k - p.names.length)
  names := p.names.take (p.names.length - k)
  rooted_ups h := if_pos h

/-- Down along names. -/
def descend (p : Place ν) (names : List ν) : Place ν :=
  { p with names := p.names ++ names }

/-- One component further. -/
def enter (p : Place ν) : Segment ν → Place ν
  | .up => p.climb 1
  | .name n => p.descend [n]

/-- Component by component. -/
def walk (p : Place ν) (segments : List (Segment ν)) : Place ν := segments.foldl enter p

/-- The place that `q` names when it is read from `p`. -/
def follow (p q : Place ν) : Place ν :=
  if q.rooted then q else (p.climb q.ups).descend q.names

@[simp] theorem climb_rooted (p : Place ν) (k : ℕ) : (p.climb k).rooted = p.rooted := rfl

@[simp] theorem climb_names (p : Place ν) (k : ℕ) :
    (p.climb k).names = p.names.take (p.names.length - k) := rfl

@[simp] theorem descend_rooted (p : Place ν) (names : List ν) :
    (p.descend names).rooted = p.rooted := rfl

@[simp] theorem descend_ups (p : Place ν) (names : List ν) : (p.descend names).ups = p.ups := rfl

@[simp] theorem descend_names (p : Place ν) (names : List ν) :
    (p.descend names).names = p.names ++ names := rfl

theorem climb_ups (p : Place ν) (k : ℕ) :
    (p.climb k).ups = if p.rooted then 0 else p.ups + (k - p.names.length) := rfl

theorem climb_zero (p : Place ν) : p.climb 0 = p := by
  refine ext' rfl ?_ (by rw [climb_names, Nat.sub_zero, List.take_length])
  rw [climb_ups]
  split
  · rename_i h
    rw [p.rooted_ups h]
  · omega

/-- Two climbs are one. -/
theorem climb_climb (p : Place ν) (j k : ℕ) : (p.climb j).climb k = p.climb (j + k) := by
  refine ext' rfl ?_ ?_
  · simp only [climb_ups, climb_rooted, climb_names, List.length_take]
    split
    · rfl
    · omega
  · simp only [climb_names, List.length_take, List.take_take]
    congr 1
    omega

/-- A name just entered is left again. -/
theorem climb_descend (p : Place ν) {names : List ν} {k : ℕ} (h : k ≤ names.length) :
    (p.descend names).climb k = p.descend (names.take (names.length - k)) := by
  refine ext' rfl ?_ ?_
  · simp only [climb_ups, descend_rooted, descend_ups, descend_names, List.length_append]
    split
    · rename_i hrooted
      rw [p.rooted_ups hrooted]
    · omega
  · simp only [climb_names, descend_names, List.length_append]
    rw [List.take_append, List.take_of_length_le (by omega)]
    congr 2
    omega

theorem follow_of_rooted (p : Place ν) {q : Place ν} (h : q.rooted = true) : p.follow q = q :=
  if_pos h

theorem follow_of_relative (p : Place ν) {q : Place ν} (h : ¬ q.rooted = true) :
    p.follow q = (p.climb q.ups).descend q.names :=
  if_neg h

theorem descend_nil (p : Place ν) : p.descend [] = p := ext' rfl rfl (List.append_nil _)

@[simp] theorem enter_rooted (p : Place ν) (s : Segment ν) : (p.enter s).rooted = p.rooted := by
  cases s <;> rfl

/-- Following a path and one component more is following the longer path. -/
theorem enter_follow (p q : Place ν) (s : Segment ν) :
    (p.follow q).enter s = p.follow (q.enter s) := by
  by_cases hq : q.rooted = true
  · rw [follow_of_rooted p hq, follow_of_rooted p (by rwa [enter_rooted])]
  rw [follow_of_relative p hq, follow_of_relative p (by rwa [enter_rooted])]
  cases s with
  | name n => exact ext' rfl rfl (List.append_assoc _ _ _)
  | up =>
    -- `..` takes back a name of `q`, or goes one level further up
    by_cases hnames : q.names = []
    · simp only [enter, climb_names, climb_ups, if_neg hq, hnames, List.length_nil, List.take_nil,
        descend_nil, climb_climb, Nat.sub_zero]
    · have hlen : 1 ≤ q.names.length := List.length_pos_iff.2 hnames
      simp only [enter, climb_descend _ hlen, climb_names, climb_ups, if_neg hq,
        Nat.sub_eq_zero_of_le hlen, Nat.add_zero]

/-- A walk from a place follows the path that the same walk makes by itself. -/
theorem walk_eq_follow (p : Place ν) (segments : List (Segment ν)) :
    p.walk segments = p.follow ((origin false).walk segments) := by
  have hstart : p.follow (origin false) = p := by
    rw [follow_of_relative p (by simp [origin])]
    exact (descend_nil _).trans (climb_zero p)
  have hhom := @List.foldl_hom _ _ _ p.follow enter enter segments (origin false)
    fun q s => enter_follow p q s
  rwa [hstart] at hhom

theorem walk_append (p : Place ν) (segments segments' : List (Segment ν)) :
    p.walk (segments ++ segments') = (p.walk segments).walk segments' :=
  List.foldl_append

theorem walk_rooted (p : Place ν) (segments : List (Segment ν)) :
    (p.walk segments).rooted = p.rooted := by
  induction segments generalizing p with
  | nil => rfl
  | cons s segments ih => exact (ih (p.enter s)).trans (enter_rooted p s)

/-! ## Strict descendants -/

/-- `q` is a strict descendant of `p`. -/
def Below (q p : Place ν) : Prop :=
  q.rooted = p.rooted ∧ q.ups = p.ups ∧ p.names <+: q.names ∧ p.names.length < q.names.length

instance [DecidableEq ν] (q p : Place ν) : Decidable (q.Below p) :=
  inferInstanceAs (Decidable (_ ∧ _ ∧ _ ∧ _))

/-- The path `q` climbs no higher than `p` is deep, and then goes down along the names it
has come up by, and further. -/
def Returns (p q : Place ν) : Prop :=
  (p.rooted = true ∨ q.ups ≤ p.names.length) ∧
    p.names.drop (p.names.length - q.ups) <+: q.names ∧
    (p.names.drop (p.names.length - q.ups)).length < q.names.length

instance [DecidableEq ν] (p q : Place ν) : Decidable (p.Returns q) :=
  inferInstanceAs (Decidable (_ ∧ _ ∧ _))

/-- Following a relative path from `p` ends below `p` exactly when the path returns. -/
theorem follow_below_iff {p q : Place ν} (hq : q.rooted = false) :
    (p.follow q).Below p ↔ p.Returns q := by
  have hfollow := follow_of_relative p (q := q) (by simp [hq])
  have hups : (p.climb q.ups).ups = p.ups ↔ (p.rooted = true ∨ q.ups ≤ p.names.length) := by
    rw [climb_ups]
    by_cases hp : p.rooted = true
    · rw [if_pos hp, p.rooted_ups hp]
      exact iff_of_true rfl (Or.inl hp)
    · rw [if_neg hp]
      constructor
      · intro h
        exact Or.inr (by omega)
      · intro h
        have := h.resolve_left hp
        omega
  have hnames := List.take_append_drop (p.names.length - q.ups) p.names
  rw [Below, Returns, hfollow, descend_ups, hups, descend_rooted, descend_names, climb_names]
  generalize p.names.drop (p.names.length - q.ups) = back at hnames ⊢
  generalize p.names.take (p.names.length - q.ups) = kept at hnames ⊢
  rw [← hnames, List.prefix_append_right_inj, List.length_append, List.length_append]
  constructor
  · rintro ⟨-, h⟩
    exact ⟨h.1, h.2.1, by have := h.2.2; omega⟩
  · rintro ⟨h, hprefix, hlen⟩
    exact ⟨rfl, h, hprefix, by omega⟩

/-- A path without a `..` left returns if it names anything at all. -/
theorem returns_of_ups_eq_zero {p q : Place ν} (hups : q.ups = 0) (hnames : q.names ≠ []) :
    p.Returns q := by
  rw [Returns, hups, Nat.sub_zero, List.drop_length]
  exact ⟨Or.inr (Nat.zero_le _), List.nil_prefix, List.length_pos_iff.2 hnames⟩

end Place

/-! ## Texts -/

section Text

variable {α : Type*} [DecidableEq α] (slash dot : α)

/-- What the text between two slashes says. -/
def segment (component : List α) : Option (Segment (List α)) :=
  if component = [] ∨ component = [dot] then none
  else if component = [dot, dot] then some .up
  else some (.name component)

/-- The components that say something. -/
def segments (path : List α) : List (Segment (List α)) :=
  (path.splitOn slash).filterMap (segment dot)

/-- What a path says when it is not read from the root. -/
def relative (path : List α) : Place (List α) := (Place.origin false).walk (segments slash dot path)

/-- The place that a text names. -/
def normalise (path : List α) : Place (List α) :=
  (Place.origin (path.head? == some slash)).walk (segments slash dot path)

variable {slash dot}

theorem segments_append (directory path : List α) :
    segments slash dot (directory ++ slash :: path) =
      segments slash dot directory ++ segments slash dot path := by
  rw [segments, List.splitOn_append_cons_self, List.filterMap_append]
  rfl

theorem relative_rooted (path : List α) : (relative slash dot path).rooted = false :=
  Place.walk_rooted _ _

/-- A path put behind a directory is followed from there. -/
theorem normalise_append {directory : List α} (h : directory ≠ []) (path : List α) :
    normalise slash dot (directory ++ slash :: path) =
      (normalise slash dot directory).follow (relative slash dot path) := by
  have hhead : (directory ++ slash :: path).head? = directory.head? := by
    cases directory with
    | nil => exact absurd rfl h
    | cons c directory => rfl
  rw [normalise, hhead, segments_append, Place.walk_append, Place.walk_eq_follow]
  rfl

/-- So it ends strictly below the directory exactly when it returns there. -/
theorem normalise_append_below_iff {directory : List α} (h : directory ≠ []) (path : List α) :
    (normalise slash dot (directory ++ slash :: path)).Below (normalise slash dot directory) ↔
      (normalise slash dot directory).Returns (relative slash dot path) := by
  rw [normalise_append h]
  exact Place.follow_below_iff (relative_rooted path)

/-- A text without slashes and dots is one name. -/
theorem relative_of_plain {path : List α} (hne : path ≠ []) (hslash : slash ∉ path)
    (hdot : dot ∉ path) :
    (relative slash dot path).ups = 0 ∧ (relative slash dot path).names ≠ [] := by
  have hsegment : segment dot path = some (.name path) := by
    have hone : path ≠ [dot] := fun h => hdot (h ▸ List.mem_singleton_self dot)
    have htwo : path ≠ [dot, dot] := fun h => hdot (h ▸ List.mem_cons_self)
    rw [segment, if_neg (not_or.2 ⟨hne, hone⟩), if_neg htwo]
  have hsegments : segments slash dot path = [.name path] := by
    rw [segments, List.splitOn_eq_singleton hslash, List.filterMap_cons_some hsegment,
      List.filterMap_nil]
  rw [relative, hsegments]
  exact ⟨rfl, List.cons_ne_nil path []⟩

end Text

end Paths
