import Mathlib

/-!
# Filters over names with levels

A name is a text of levels with a separator between them.  In a filter a level may stand
for any one level, or, at the end, for everything that follows.  The alphabet and the three
symbols are parameters.

* `Level`, `Matches` — a filter level by level, and the names it covers;
* `Symbols.Covers` — the same of texts;
* `Symbols.WellFormed` — where the two wildcards may stand;
* `Symbols.levels_induction` — induction over the levels of a text;
* `Symbols.covers_of_plain` — a filter without wildcards covers only itself.
-/

namespace TopicFilter

/-- What one level of a filter asks for: a name, any one level, or all that follows. -/
inductive Level (α : Type*)
  | name (n : List α)
  | one
  | rest
  deriving DecidableEq

section Matches

variable {α : Type*}

/-- The names that a filter covers.  A level for all that follows also covers the name that
ends before it. -/
def Matches : List (Level α) → List (List α) → Prop
  | [], names => names = []
  | .rest :: _, _ => True
  | .one :: _, [] => False
  | .one :: levels, _ :: names => Matches levels names
  | .name _ :: _, [] => False
  | .name n :: levels, m :: names => n = m ∧ Matches levels names

@[simp] theorem matches_nil {names : List (List α)} : Matches [] names ↔ names = [] := by
  rw [Matches]

@[simp] theorem matches_rest {levels : List (Level α)} {names : List (List α)} :
    Matches (.rest :: levels) names := by
  rw [Matches]
  trivial

@[simp] theorem matches_one_nil {levels : List (Level α)} : ¬ Matches (.one :: levels) [] := by
  rw [Matches]
  exact not_false

@[simp] theorem matches_one_cons {levels : List (Level α)} {m : List α} {names : List (List α)} :
    Matches (.one :: levels) (m :: names) ↔ Matches levels names := by
  rw [Matches]

@[simp] theorem matches_name_nil {n : List α} {levels : List (Level α)} :
    ¬ Matches (.name n :: levels) [] := by
  rw [Matches]
  exact not_false

@[simp] theorem matches_name_cons {n m : List α} {levels : List (Level α)}
    {names : List (List α)} :
    Matches (.name n :: levels) (m :: names) ↔ n = m ∧ Matches levels names := by
  rw [Matches]

instance decidableMatches [DecidableEq α] :
    ∀ (levels : List (Level α)) (names : List (List α)), Decidable (Matches levels names)
  | [], _ => decidable_of_iff' _ matches_nil
  | .rest :: _, _ => isTrue matches_rest
  | .one :: _, [] => isFalse matches_one_nil
  | .one :: levels, _ :: names =>
    have := decidableMatches levels names
    decidable_of_iff' _ matches_one_cons
  | .name _ :: _, [] => isFalse matches_name_nil
  | .name _ :: levels, _ :: names =>
    have := decidableMatches levels names
    decidable_of_iff' _ matches_name_cons

/-- Leading names are matched one by one. -/
theorem matches_map_name_append {before : List (List α)} {levels : List (Level α)}
    {names : List (List α)} :
    Matches (before.map .name ++ levels) names ↔
      ∃ after, names = before ++ after ∧ Matches levels after := by
  induction before generalizing names with
  | nil => simp
  | cons n before ih =>
    cases names with
    | nil => simp
    | cons m names =>
      simp only [List.map_cons, List.cons_append, matches_name_cons, ih, List.cons.injEq]
      constructor
      · rintro ⟨rfl, after, rfl, h⟩
        exact ⟨after, ⟨rfl, rfl⟩, h⟩
      · rintro ⟨after, ⟨rfl, rfl⟩, h⟩
        exact ⟨rfl, after, rfl, h⟩

end Matches

/-- The symbols of a syntax: the separator and the two wildcards. -/
structure Symbols (α : Type*) where
  sep : α
  one : α
  rest : α
  sep_ne_one : sep ≠ one
  sep_ne_rest : sep ≠ rest
  one_ne_rest : one ≠ rest

namespace Symbols

variable {α : Type*} [DecidableEq α] (S : Symbols α)

/-- What a level of a filter's text asks for. -/
def level (text : List α) : Level α :=
  if text = [S.one] then .one else if text = [S.rest] then .rest else .name text

/-- The levels of a filter. -/
def filter (text : List α) : List (Level α) := (text.splitOn S.sep).map S.level

/-- The filter covers the name. -/
def Covers (filter name : List α) : Prop := Matches (S.filter filter) (name.splitOn S.sep)

instance decidableCovers (filter name : List α) : Decidable (S.Covers filter name) :=
  decidableMatches _ _

/-- Neither wildcard nor separator. -/
def Plain (text : List α) : Prop := S.sep ∉ text ∧ S.one ∉ text ∧ S.rest ∉ text

/-- A wildcard fills its level, and the second one stands only at the end. -/
def LevelsOk : List (List α) → Prop
  | [] => True
  | l :: ls => (S.one ∈ l → l = [S.one]) ∧ (S.rest ∈ l → l = [S.rest] ∧ ls = []) ∧ LevelsOk ls

/-- The filter's wildcards stand where they may. -/
def WellFormed (text : List α) : Prop := S.LevelsOk (text.splitOn S.sep)

/-- A text is one level, or one level and further ones behind a separator. -/
theorem levels_induction {P : List α → Prop} (last : ∀ l, S.sep ∉ l → P l)
    (more : ∀ l text, S.sep ∉ l → P text → P (l ++ S.sep :: text)) (text : List α) : P text := by
  induction h : text.length using Nat.strongRecOn generalizing text with
  | ind n ih =>
    by_cases hmem : S.sep ∈ text
    · obtain ⟨l, rest, rfl, hl⟩ := List.eq_append_cons_of_mem hmem
      refine more l rest hl (ih rest.length ?_ rest rfl)
      rw [← h, List.length_append, List.length_cons]
      omega
    · exact last text hmem

theorem level_one : S.level [S.one] = .one := if_pos rfl

theorem level_rest : S.level [S.rest] = .rest := by
  rw [level, if_neg fun h => S.one_ne_rest (List.cons.inj h).1.symm, if_pos rfl]

variable {S}

theorem level_of_plain {text : List α} (h : S.Plain text) : S.level text = .name text := by
  have hone : text ≠ [S.one] := by
    rintro rfl
    exact h.2.1 List.mem_cons_self
  have hrest : text ≠ [S.rest] := by
    rintro rfl
    exact h.2.2 List.mem_cons_self
  rw [level, if_neg hone, if_neg hrest]

theorem filter_single {l : List α} (h : S.sep ∉ l) : S.filter l = [S.level l] := by
  rw [filter, List.splitOn_eq_singleton h, List.map_singleton]

theorem filter_more {l : List α} (h : S.sep ∉ l) (text : List α) :
    S.filter (l ++ S.sep :: text) = S.level l :: S.filter text := by
  rw [filter, List.splitOn_append_cons_self_of_not_mem h, List.map_cons, filter]

theorem wellFormed_single {l : List α} (h : S.sep ∉ l) :
    S.WellFormed l ↔ (S.one ∈ l → l = [S.one]) ∧ (S.rest ∈ l → l = [S.rest]) := by
  simp [WellFormed, List.splitOn_eq_singleton h, LevelsOk]

theorem wellFormed_more {l : List α} (h : S.sep ∉ l) (text : List α) :
    S.WellFormed (l ++ S.sep :: text) ↔
      (S.one ∈ l → l = [S.one]) ∧ S.rest ∉ l ∧ S.WellFormed text := by
  simp [WellFormed, List.splitOn_append_cons_self_of_not_mem h, LevelsOk, List.splitOn_ne_nil]

/-- A level of a well-formed filter is a wildcard or free of them. -/
theorem plain_of_levelsOk {l : List α} (hsep : S.sep ∉ l) (hone : S.one ∈ l → l = [S.one])
    (hrest : S.rest ∈ l → l = [S.rest]) : l = [S.one] ∨ l = [S.rest] ∨ S.Plain l := by
  by_cases h₁ : S.one ∈ l
  · exact Or.inl (hone h₁)
  by_cases h₂ : S.rest ∈ l
  · exact Or.inr (Or.inl (hrest h₂))
  · exact Or.inr (Or.inr ⟨hsep, h₁, h₂⟩)

/-- Of the well-formed filters only the one of all names covers the end of a name. -/
theorem matches_filter_nil {text : List α} (hwell : S.WellFormed text) :
    Matches (S.filter text) [] ↔ text = [S.rest] := by
  induction text using S.levels_induction with
  | last l hsep =>
    rw [filter_single hsep]
    rw [wellFormed_single hsep] at hwell
    rcases plain_of_levelsOk hsep hwell.1 hwell.2 with rfl | rfl | hplain
    · simp [level_one, S.one_ne_rest]
    · simp [level_rest]
    · rw [level_of_plain hplain]
      refine iff_of_false matches_name_nil ?_
      rintro rfl
      exact hplain.2.2 List.mem_cons_self
  | more l text hsep ih =>
    rw [filter_more hsep]
    rw [wellFormed_more hsep] at hwell
    have hne : l ++ S.sep :: text ≠ [S.rest] := fun h => by
      have hmem : S.sep ∈ [S.rest] := h ▸ List.mem_append_right _ List.mem_cons_self
      exact S.sep_ne_rest (List.mem_singleton.1 hmem)
    by_cases hone : S.one ∈ l
    · simp [hwell.1 hone, level_one, S.one_ne_rest]
    · simp [level_of_plain (S := S) ⟨hsep, hone, hwell.2.1⟩, hne]

/-- Names that are equal level by level are equal. -/
theorem splitOn_injective (sep : α) : Function.Injective fun text : List α => text.splitOn sep := by
  intro a b h
  have hjoin := congrArg (List.intercalate [sep]) (show a.splitOn sep = b.splitOn sep from h)
  rwa [List.intercalate_splitOn, List.intercalate_splitOn] at hjoin

/-- Without wildcards, level by level. -/
theorem filter_of_noWildcard {text : List α} (hone : S.one ∉ text) (hrest : S.rest ∉ text) :
    S.filter text = (text.splitOn S.sep).map .name := by
  induction text using S.levels_induction with
  | last l hsep =>
    rw [filter_single hsep, level_of_plain ⟨hsep, hone, hrest⟩, List.splitOn_eq_singleton hsep,
      List.map_singleton]
  | more l text hsep ih =>
    simp only [List.mem_append, List.mem_cons, not_or] at hone hrest
    rw [filter_more hsep, level_of_plain ⟨hsep, hone.1, hrest.1⟩, ih hone.2.2 hrest.2.2,
      List.splitOn_append_cons_self_of_not_mem hsep, List.map_cons]

/-- **A filter without wildcards covers only itself.** -/
theorem covers_of_plain {filter : List α} (hone : S.one ∉ filter) (hrest : S.rest ∉ filter)
    (name : List α) : S.Covers filter name ↔ name = filter := by
  rw [Covers, filter_of_noWildcard hone hrest]
  have happend := @matches_map_name_append _ (filter.splitOn S.sep) [] (name.splitOn S.sep)
  rw [List.append_nil] at happend
  rw [happend]
  constructor
  · rintro ⟨after, hname, hafter⟩
    rw [matches_nil.1 hafter, List.append_nil] at hname
    exact splitOn_injective S.sep hname
  · rintro rfl
    exact ⟨[], by simp⟩

end Symbols

end TopicFilter
