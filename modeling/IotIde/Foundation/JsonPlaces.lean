import IotIde.Foundation.JsonText

/-!
# Where the members of a JSON text stand

`Doc.allMembers` lists the members of a tree in the order of the text.  Here each of them
comes with its place, so that it can be compared with what a search of the text finds.

* `Site` — a member and the text in front of the opening quote of its name;
* `Doc.sites` — the sites of a tree, and `Doc.sites_members`, that they are its members;
* `Doc.text_of_mem_sites` — what the text is from a site on;
* `Doc.pairwise_sites` — each site begins behind the name of the one before it;
* `QuotedAt` — a quoted key with a colon stands at an offset;
* `Doc.first_of_mem_sites` — a site with no earlier such offset is the first of its name.
-/

namespace JsonText

open CText

/-- A member of a tree, by the text in front of its name. -/
structure Site where
  before : Bytes
  name : StrLit
  value : Doc .value

namespace Site

/-- The same site when more text stands in front. -/
def behind (front : Bytes) (s : Site) : Site := { s with before := front ++ s.before }

/-- `b` begins behind the name of `a`. -/
def Ahead (a b : Site) : Prop := a.before.length + a.name.text.length ≤ b.before.length

@[simp] theorem behind_before (front : Bytes) (s : Site) :
    (s.behind front).before = front ++ s.before := rfl

@[simp] theorem behind_name (front : Bytes) (s : Site) : (s.behind front).name = s.name := rfl

@[simp] theorem behind_value (front : Bytes) (s : Site) : (s.behind front).value = s.value := rfl

theorem Ahead.behind {a b : Site} (h : a.Ahead b) (front : Bytes) :
    (a.behind front).Ahead (b.behind front) := by
  simp only [Ahead, behind_before, behind_name, List.length_append] at h ⊢
  omega

theorem map_behind_members (front : Bytes) (sites : List Site) :
    (sites.map (behind front)).map (fun s => (s.name, s.value)) =
      sites.map fun s => (s.name, s.value) := by
  rw [List.map_map]
  rfl

theorem pairwise_behind {sites : List Site} (h : sites.Pairwise Ahead) (front : Bytes) :
    (sites.map (behind front)).Pairwise Ahead :=
  List.pairwise_map.2 (h.imp fun hab => hab.behind front)

end Site

namespace Doc

/-- The members of the tree at any depth, with their places. -/
def sites : {p : Part} → Doc p → List Site
  | _, scalar _ => []
  | _, string _ => []
  | _, emptyArray _ => []
  | _, array es => es.sites.map (.behind [lbracket])
  | _, emptyObject _ => []
  | _, object ms => ms.sites.map (.behind [lbrace])
  | _, element w v _ => v.sites.map (.behind w.text)
  | _, moreElements w v w' rest =>
    v.sites.map (.behind w.text) ++
      rest.sites.map (.behind (w.text ++ (v.text ++ (w'.text ++ [comma]))))
  | _, member n v _ => ⟨n.before.text, n.key, v⟩ :: v.sites.map (.behind n.text)
  | _, moreMembers n v w rest =>
    ⟨n.before.text, n.key, v⟩ :: (v.sites.map (.behind n.text) ++
      rest.sites.map (.behind (n.text ++ (v.text ++ (w.text ++ [comma])))))

/-- The sites are the members, in the same order. -/
theorem sites_members : ∀ {p : Part} (t : Doc p),
    t.sites.map (fun s => (s.name, s.value)) = t.allMembers := by
  intro p t
  induction t with
  | scalar | string | emptyArray | emptyObject => rfl
  | array es ih => rw [sites, Site.map_behind_members, ih, allMembers]
  | object ms ih => rw [sites, Site.map_behind_members, ih, allMembers]
  | element w v w' ih => rw [sites, Site.map_behind_members, ih, allMembers]
  | moreElements w v w' rest ihv ih =>
    rw [sites, List.map_append, Site.map_behind_members, Site.map_behind_members, ihv, ih,
      allMembers]
  | member n v w ih => rw [sites, List.map_cons, Site.map_behind_members, ih, allMembers]
  | moreMembers n v w rest ihv ih =>
    rw [sites, List.map_cons, List.map_append, Site.map_behind_members,
      Site.map_behind_members, ihv, ih, allMembers]

/-- A text that goes on with a member: its name, a colon, and its value. -/
def GoesOn (text : Bytes) (s : Site) : Prop :=
  ∃ (a p : Ws) (rest : Bytes), text =
    s.before ++ (s.name.text ++ (a.text ++ colon :: (p.text ++ (s.value.text ++ rest))))

theorem GoesOn.append {text : Bytes} {s : Site} (h : GoesOn text s) (front behind : Bytes) :
    GoesOn (front ++ (text ++ behind)) (s.behind front) := by
  obtain ⟨a, p, rest, rfl⟩ := h
  exact ⟨a, p, rest ++ behind, by simp⟩

/-- The text of a name, and of the value behind it. -/
theorem goesOn_name (n : Name) (v : Doc .value) (behind : Bytes) :
    GoesOn (n.text ++ (v.text ++ behind)) ⟨n.before.text, n.key, v⟩ :=
  ⟨n.after, n.pad, behind, by simp [Name.text]⟩

/-- What stands behind the place of a site. -/
theorem text_of_mem_sites : ∀ {p : Part} (t : Doc p) {s : Site}, s ∈ t.sites →
    GoesOn t.text s := by
  intro p t
  induction t with
  | scalar | string | emptyArray | emptyObject =>
    intro s hs
    cases hs
  | array es ih =>
    intro s hs
    obtain ⟨s', hs', rfl⟩ := List.mem_map.1 hs
    exact (ih hs').append [lbracket] [rbracket]
  | object ms ih =>
    intro s hs
    obtain ⟨s', hs', rfl⟩ := List.mem_map.1 hs
    exact (ih hs').append [lbrace] [rbrace]
  | element w v w' ih =>
    intro s hs
    obtain ⟨s', hs', rfl⟩ := List.mem_map.1 hs
    exact (ih hs').append w.text w'.text
  | moreElements w v w' rest ihv ih =>
    intro s hs
    rcases List.mem_append.1 hs with hs | hs
    · obtain ⟨s', hs', rfl⟩ := List.mem_map.1 hs
      exact (ihv hs').append w.text _
    · obtain ⟨s', hs', rfl⟩ := List.mem_map.1 hs
      have h := (ih hs').append (w.text ++ (v.text ++ (w'.text ++ [comma]))) []
      simpa [text] using h
  | member n v w ih =>
    intro s hs
    rcases List.mem_cons.1 hs with rfl | hs
    · exact goesOn_name n v w.text
    · obtain ⟨s', hs', rfl⟩ := List.mem_map.1 hs
      exact (ih hs').append n.text w.text
  | moreMembers n v w rest ihv ih =>
    intro s hs
    rcases List.mem_cons.1 hs with rfl | hs
    · exact goesOn_name n v _
    rcases List.mem_append.1 hs with hs | hs
    · obtain ⟨s', hs', rfl⟩ := List.mem_map.1 hs
      exact (ihv hs').append n.text _
    · obtain ⟨s', hs', rfl⟩ := List.mem_map.1 hs
      have h := (ih hs').append (n.text ++ (v.text ++ (w.text ++ [comma]))) []
      simpa [text] using h

/-- A name ends inside the text. -/
theorem site_length_le {p : Part} (t : Doc p) {s : Site} (hs : s ∈ t.sites) :
    s.before.length + s.name.text.length ≤ t.text.length := by
  obtain ⟨a, p, rest, h⟩ := text_of_mem_sites t hs
  rw [h]
  simp only [List.length_append]
  omega

/-- The sites of a value are ahead of those behind it. -/
theorem ahead_of_mem_sites {v : Doc .value} {front mid : Bytes} {a b : Site}
    (ha : a ∈ v.sites.map (.behind front))
    (hb : ∃ b', b = Site.behind (front ++ (v.text ++ mid)) b') : a.Ahead b := by
  obtain ⟨a', ha', rfl⟩ := List.mem_map.1 ha
  obtain ⟨b', rfl⟩ := hb
  have hle := site_length_le v ha'
  simp only [Site.Ahead, Site.behind_before, Site.behind_name, List.length_append]
  omega

/-- A name is ahead of the sites behind it. -/
theorem ahead_of_name (n : Name) (v : Doc .value) {b : Site}
    (hb : ∃ mid b', b = Site.behind (n.text ++ mid) b') :
    Site.Ahead ⟨n.before.text, n.key, v⟩ b := by
  obtain ⟨mid, b', rfl⟩ := hb
  simp only [Site.Ahead, Site.behind_before, Name.text, List.length_append]
  omega

/-- The sites stand one behind the other. -/
theorem pairwise_sites : ∀ {p : Part} (t : Doc p), t.sites.Pairwise Site.Ahead := by
  intro p t
  induction t with
  | scalar | string | emptyArray | emptyObject => exact List.Pairwise.nil
  | array es ih => exact Site.pairwise_behind ih _
  | object ms ih => exact Site.pairwise_behind ih _
  | element w v w' ih => exact Site.pairwise_behind ih _
  | moreElements w v w' rest ihv ih =>
    refine List.pairwise_append.2 ⟨Site.pairwise_behind ihv _, Site.pairwise_behind ih _, ?_⟩
    intro a ha b hb
    obtain ⟨b', -, rfl⟩ := List.mem_map.1 hb
    exact ahead_of_mem_sites ha ⟨b', rfl⟩
  | member n v w ih =>
    refine List.pairwise_cons.2 ⟨?_, Site.pairwise_behind ih _⟩
    intro b hb
    obtain ⟨b', -, rfl⟩ := List.mem_map.1 hb
    exact ahead_of_name n v ⟨[], b', by rw [List.append_nil]⟩
  | moreMembers n v w rest ihv ih =>
    refine List.pairwise_cons.2 ⟨?_, List.pairwise_append.2
      ⟨Site.pairwise_behind ihv _, Site.pairwise_behind ih _, ?_⟩⟩
    · intro b hb
      rcases List.mem_append.1 hb with hb | hb
      · obtain ⟨b', -, rfl⟩ := List.mem_map.1 hb
        exact ahead_of_name n v ⟨[], b', by rw [List.append_nil]⟩
      · obtain ⟨b', -, rfl⟩ := List.mem_map.1 hb
        exact ahead_of_name n v ⟨_, b', rfl⟩
    · intro a ha b hb
      obtain ⟨b', -, rfl⟩ := List.mem_map.1 hb
      exact ahead_of_mem_sites ha ⟨b', rfl⟩

end Doc

/-! ## Searching the text -/

/-- At offset `i` of the text stands the quoted key, and behind optional white space a
colon. -/
def QuotedAt (key text : Bytes) (i : ℕ) : Prop :=
  ∃ ws rest : Bytes, text.drop i = quote :: (key ++ quote :: (ws ++ colon :: rest)) ∧
    ws.all isSpace = true

/-- A name that ends in a quote and the key has the quoted key inside it. -/
theorem quotedAt_of_suffix {text key : Bytes} {s : Site} (hs : Doc.GoesOn text s)
    (hkey : quote :: key <:+ quote :: s.name.raw) :
    ∃ i, i < s.before.length + s.name.text.length ∧ QuotedAt key text i := by
  obtain ⟨a, p, rest, rfl⟩ := hs
  obtain ⟨pre, hpre⟩ := hkey
  have hlen := congrArg List.length hpre
  simp only [List.length_append, List.length_cons] at hlen
  refine ⟨(s.before ++ pre).length, ?_, a.text, p.text ++ (s.value.text ++ rest), ?_, ?_⟩
  · simp only [List.length_append, StrLit.text, List.length_cons, List.length_nil]
    omega
  · have hname : s.name.text = pre ++ quote :: (key ++ [quote]) := by
      rw [StrLit.text, ← List.cons_append, ← hpre]
      simp
    rw [hname, show s.before ++ (pre ++ quote :: (key ++ [quote]) ++
        (a.text ++ colon :: (p.text ++ (s.value.text ++ rest)))) =
      s.before ++ pre ++ (quote :: (key ++ quote :: (a.text ++ colon ::
        (p.text ++ (s.value.text ++ rest))))) by simp, List.drop_left]
  · exact List.all_eq_true.2 fun b hb => isSpace_of_isJsonWs (List.all_eq_true.1 a.ok b hb)

/-- When nothing stands before a site that looks like its key, no site before it has a name
that ends in the key. -/
theorem Doc.first_of_mem_sites {p : Part} (t : Doc p) {s : Site} (hs : s ∈ t.sites)
    {key : Bytes} (hfirst : ∀ i < s.before.length, ¬ QuotedAt key t.text i) :
    ∃ pre post, t.sites = pre ++ s :: post ∧
      ∀ a ∈ pre, ¬ quote :: key <:+ quote :: a.name.raw := by
  obtain ⟨pre, post, hsplit⟩ := List.append_of_mem hs
  refine ⟨pre, post, hsplit, fun a ha hkey => ?_⟩
  have hahead : a.Ahead s := by
    have hpairwise := pairwise_sites t
    rw [hsplit, List.pairwise_append] at hpairwise
    exact hpairwise.2.2 a ha s List.mem_cons_self
  have hmem : a ∈ t.sites := by
    rw [hsplit]
    exact List.mem_append_left _ ha
  obtain ⟨i, hi, hquoted⟩ := quotedAt_of_suffix (text_of_mem_sites t hmem) hkey
  exact hfirst i (hi.trans_le hahead) hquoted

end JsonText
