import IotIde.Foundation.CText
import IotIde.Foundation.TopicFilter

/-!
# Topics and filters of the MQTT client

A subscription is a filter with levels between slashes, in which `+` stands for one level and
a final `#` for all that follow.  The client checks a filter before it subscribes, and compares
it with the topic of every message that arrives.

* `coreMqttTopicIsValid`, `coreMqttTopicCompare` — the two functions;
* `topicIsValid_iff` — the check accepts exactly the well-formed filters that begin with a slash;
* `topicCompare_iff` — on those, the comparison is the covering of MQTT, except that an empty
  last level is not met by a wildcard.
-/

namespace IotIde

open CText TopicFilter

/-! ## Codes and symbols -/

def STATE_SUCCESS : ℤ := 0
def STATE_MQTT_TOPIC_INVALID : ℤ := -0x0308
def STATE_MQTT_TOPIC_COMPARE_FAILED : ℤ := -0x0311

abbrev plus : UInt8 := 43
abbrev sharp : UInt8 := 35

theorem slash_ne_plus : slash ≠ plus := by decide

theorem slash_ne_sharp : slash ≠ sharp := by decide

theorem plus_ne_sharp : plus ≠ sharp := by decide

/-- The symbols of MQTT. -/
def mqttSymbols : Symbols UInt8 := ⟨slash, plus, sharp, slash_ne_plus, slash_ne_sharp, plus_ne_sharp⟩

/-! ## The two functions -/

/-- The loop of `_core_mqtt_topic_is_valid`, from the byte behind `prev` on. -/
def topicValidLoop : UInt8 → Bytes → Bool
  | _, [] => true
  | prev, ch :: topic =>
    -- '/+/' in the middle or '/+' in the end
    if ch = plus ∧ (prev ≠ slash ∨ (topic ≠ [] ∧ topic.head? ≠ some slash)) then false
    -- '/#' in the end
    else if ch = sharp ∧ (prev ≠ slash ∨ topic ≠ []) then false
    else topicValidLoop ch topic

/-- `_core_mqtt_topic_is_valid`, with the handle's `topic_header_check`. -/
def coreMqttTopicIsValid (topicHeaderCheck : Bool) (topic : Bytes) : ℤ :=
  if topicHeaderCheck = true ∧ topic.head? ≠ some slash then STATE_MQTT_TOPIC_INVALID
  else
    match topic with
    | [] => STATE_SUCCESS
    | ch :: topic => if topicValidLoop ch topic then STATE_SUCCESS else STATE_MQTT_TOPIC_INVALID

/-- The loop of `_core_mqtt_topic_compare`, on what is left of the filter and of the topic. -/
def topicCompareLoop : Bytes → Bytes → Bool
  -- the compared topic should be at its end
  | [], cmpTopic => cmpTopic.isEmpty
  | ch :: topic, [] => ch :: topic = [slash, sharp]
  | ch :: topic, cmp :: cmpTopic =>
    if ch = sharp then true
    else if ch = plus then
      let left := (cmp :: cmpTopic).dropWhile (· ≠ slash)
      if left ≠ [] ∧ topic = [] then false else topicCompareLoop topic left
    else if ch ≠ cmp then false
    else topicCompareLoop topic cmpTopic

/-- `_core_mqtt_topic_compare` -/
def coreMqttTopicCompare (topic cmpTopic : Bytes) : ℤ :=
  if topicCompareLoop topic cmpTopic then STATE_SUCCESS else STATE_MQTT_TOPIC_COMPARE_FAILED

/-! ## Which filters are valid -/

theorem topicValidLoop_cons {prev ch : UInt8} {topic : Bytes} :
    topicValidLoop prev (ch :: topic) = true ↔
      (ch = plus → prev = slash ∧ (topic = [] ∨ topic.head? = some slash)) ∧
      (ch = sharp → prev = slash ∧ topic = []) ∧ topicValidLoop ch topic = true := by
  rw [topicValidLoop]
  split_ifs with h₁ h₂
  · rw [false_iff]
    tauto
  · rw [false_iff]
    tauto
  · tauto

/-- Inside a level there is no wildcard. -/
theorem topicValidLoop_append {prev : UInt8} {level rest : Bytes} (hprev : prev ≠ slash)
    (hlevel : slash ∉ level) :
    topicValidLoop prev (level ++ slash :: rest) = true ↔
      plus ∉ level ∧ sharp ∉ level ∧ topicValidLoop slash rest = true := by
  induction level generalizing prev with
  | nil => simp [topicValidLoop_cons, slash_ne_plus, slash_ne_sharp]
  | cons ch level ih =>
    simp only [List.mem_cons, not_or] at hlevel
    rw [List.cons_append, topicValidLoop_cons, ih (Ne.symm hlevel.1) hlevel.2]
    simp only [List.mem_cons, not_or, hprev, false_and, imp_false]
    tauto

theorem topicValidLoop_last {prev : UInt8} {level : Bytes} (hprev : prev ≠ slash)
    (hlevel : slash ∉ level) :
    topicValidLoop prev level = true ↔ plus ∉ level ∧ sharp ∉ level := by
  induction level generalizing prev with
  | nil => simp [topicValidLoop]
  | cons ch level ih =>
    simp only [List.mem_cons, not_or] at hlevel
    rw [topicValidLoop_cons, ih (Ne.symm hlevel.1) hlevel.2]
    simp only [List.mem_cons, not_or, hprev, false_and, imp_false]
    tauto

/-- Behind a slash the loop accepts the well-formed rests. -/
theorem topicValidLoop_slash (topic : Bytes) :
    topicValidLoop slash topic = true ↔ mqttSymbols.WellFormed topic := by
  induction topic using mqttSymbols.levels_induction with
  | last level hsep =>
    have hlevel : slash ∉ level := hsep
    rw [Symbols.wellFormed_single hsep]
    cases level with
    | nil => simp [topicValidLoop]
    | cons ch level =>
      simp only [List.mem_cons, not_or] at hlevel
      have hhead : level.head? ≠ some slash := fun h => hlevel.2 (List.mem_of_head? h)
      rw [topicValidLoop_cons, topicValidLoop_last (Ne.symm hlevel.1) hlevel.2]
      show _ ↔ (plus ∈ ch :: level → ch :: level = [plus]) ∧
        (sharp ∈ ch :: level → ch :: level = [sharp])
      simp only [List.mem_cons, List.cons.injEq, true_and, hhead, or_false]
      constructor
      · rintro ⟨hplus, hhash, h₁, h₂⟩
        exact ⟨fun h => ⟨(h.resolve_right h₁).symm, hplus (h.resolve_right h₁).symm⟩,
          fun h => ⟨(h.resolve_right h₂).symm, hhash (h.resolve_right h₂).symm⟩⟩
      · rintro ⟨hplus, hhash⟩
        refine ⟨fun h => (hplus (Or.inl h.symm)).2, fun h => (hhash (Or.inl h.symm)).2,
          fun h => ?_, fun h => ?_⟩
        · rw [(hplus (Or.inr h)).2] at h
          cases h
        · rw [(hhash (Or.inr h)).2] at h
          cases h
  | more level topic hsep ih =>
    have hlevel : slash ∉ level := hsep
    rw [Symbols.wellFormed_more hsep, ← ih]
    show topicValidLoop slash (level ++ slash :: topic) = true ↔ (plus ∈ level → level = [plus]) ∧
      sharp ∉ level ∧ topicValidLoop slash topic = true
    cases level with
    | nil => simp [topicValidLoop_cons, slash_ne_plus, slash_ne_sharp]
    | cons ch level =>
      simp only [List.mem_cons, not_or] at hlevel
      have hhead : (level ++ slash :: topic).head? = some slash ↔ level = [] := by
        cases level with
        | nil => simp
        | cons b level => simpa using fun h : b = slash => hlevel.2 (by simp [h])
      rw [List.cons_append, topicValidLoop_cons,
        topicValidLoop_append (Ne.symm hlevel.1) hlevel.2, hhead]
      simp only [List.mem_cons, List.cons.injEq, not_or, true_and, List.append_eq_nil_iff,
        reduceCtorEq, and_false, false_or, imp_false]
      constructor
      · rintro ⟨hplus, hhash, h₁, h₂, hrest⟩
        exact ⟨fun h => ⟨(h.resolve_right h₁).symm, hplus (h.resolve_right h₁).symm⟩,
          ⟨Ne.symm hhash, h₂⟩, hrest⟩
      · rintro ⟨hplus, ⟨h₁, h₂⟩, hrest⟩
        refine ⟨fun h => (hplus (Or.inl h.symm)).2, Ne.symm h₁, fun h => ?_, h₂, hrest⟩
        rw [(hplus (Or.inr h)).2] at h
        cases h

theorem wellFormed_slash (topic : Bytes) :
    mqttSymbols.WellFormed (slash :: topic) ↔ mqttSymbols.WellFormed topic :=
  (Symbols.wellFormed_more (l := []) List.not_mem_nil topic).trans (by simp)

theorem topicIsValid_cons (ch : UInt8) (topic : Bytes) :
    coreMqttTopicIsValid true (ch :: topic) = STATE_SUCCESS ↔
      ch = slash ∧ mqttSymbols.WellFormed topic := by
  have hcodes : STATE_MQTT_TOPIC_INVALID ≠ STATE_SUCCESS := by decide
  by_cases hch : ch = slash
  · subst hch
    simp [coreMqttTopicIsValid, ← topicValidLoop_slash, hcodes]
  · simp [coreMqttTopicIsValid, hch, hcodes]

theorem wellFormed_of_topicIsValid {topic : Bytes}
    (h : coreMqttTopicIsValid true topic = STATE_SUCCESS) : mqttSymbols.WellFormed topic := by
  cases topic with
  | nil => cases h
  | cons ch topic =>
    obtain ⟨rfl, hwell⟩ := (topicIsValid_cons ch topic).1 h
    exact (wellFormed_slash topic).2 hwell

/-- **The check accepts exactly the well-formed filters that begin with a slash.** -/
theorem topicIsValid_iff (topic : Bytes) :
    coreMqttTopicIsValid true topic = STATE_SUCCESS ↔
      topic.head? = some slash ∧ mqttSymbols.WellFormed topic := by
  cases topic with
  | nil =>
    refine iff_of_false (fun h => ?_) fun h => ?_
    · cases h
    · cases h.1
  | cons ch topic =>
    rw [topicIsValid_cons, List.head?_cons, Option.some_inj]
    refine and_congr_right ?_
    rintro rfl
    exact (wellFormed_slash topic).symm

/-- Without the check of the header the first byte is never looked at. -/
example : coreMqttTopicIsValid false (ascii "+abc/d") = STATE_SUCCESS := by decide

/-! ## What the comparison accepts -/

/-- The last level of the name is empty, and stands against a wildcard. -/
def EmptyAtWildcard (levels : List (Level UInt8)) (names : List Bytes) : Prop :=
  names.getLast? = some [] ∧
    (levels[names.length - 1]? = some .one ∨ levels[names.length - 1]? = some .rest)

theorem emptyAtWildcard_single {level : Level UInt8} {levels : List (Level UInt8)} {n : Bytes} :
    EmptyAtWildcard (level :: levels) [n] ↔ n = [] ∧ (level = .one ∨ level = .rest) := by
  simp [EmptyAtWildcard]

theorem emptyAtWildcard_cons {level : Level UInt8} {levels : List (Level UInt8)} {m : Bytes}
    {names : List Bytes} (h : names ≠ []) :
    EmptyAtWildcard (level :: levels) (m :: names) ↔ EmptyAtWildcard levels names := by
  obtain ⟨n, names, rfl⟩ := List.exists_cons_of_ne_nil h
  simp [EmptyAtWildcard]

/-- A level without wildcards is compared byte by byte; where the topic ends inside it, what is
left of the filter is not `/#`. -/
theorem topicCompareLoop_plain {level : Bytes} (hlevel : mqttSymbols.Plain level)
    (rest cmpTopic : Bytes) :
    topicCompareLoop (level ++ rest) cmpTopic = true ↔
      ∃ left, cmpTopic = level ++ left ∧ topicCompareLoop rest left = true := by
  induction level generalizing cmpTopic with
  | nil => simp
  | cons ch level ih =>
    obtain ⟨hsep, hone, hrest⟩ := hlevel
    simp only [List.mem_cons, not_or] at hsep hone hrest
    have hplus : ch ≠ plus := Ne.symm hone.1
    have hsharp : ch ≠ sharp := Ne.symm hrest.1
    have hslash : ch ≠ slash := Ne.symm hsep.1
    cases cmpTopic with
    | nil => simp [topicCompareLoop, hslash]
    | cons cmp cmpTopic =>
      rw [List.cons_append, topicCompareLoop, if_neg hsharp, if_neg hplus]
      by_cases hcmp : ch = cmp
      · subst hcmp
        simpa using ih ⟨hsep.2, hone.2, hrest.2⟩ cmpTopic
      · simp [hcmp, Ne.symm hcmp]

/-- A slash of the filter. -/
theorem topicCompareLoop_slash (filter cmpTopic : Bytes) :
    topicCompareLoop (slash :: filter) cmpTopic = true ↔
      cmpTopic = [] ∧ filter = [sharp] ∨
        ∃ below, cmpTopic = slash :: below ∧ topicCompareLoop filter below = true := by
  cases cmpTopic with
  | nil => simp [topicCompareLoop]
  | cons cmp cmpTopic =>
    rw [topicCompareLoop, if_neg slash_ne_sharp, if_neg slash_ne_plus]
    by_cases hcmp : slash = cmp
    · subst hcmp
      simp
    · simp [hcmp, Ne.symm hcmp]

/-- A `+` takes what is left of a level. -/
theorem topicCompareLoop_plus {level : Bytes} (hlevel : slash ∉ level) (filter below : Bytes) :
    (topicCompareLoop (plus :: filter) level = true ↔
      level ≠ [] ∧ topicCompareLoop filter [] = true) ∧
    (topicCompareLoop (plus :: filter) (level ++ slash :: below) = true ↔
      filter ≠ [] ∧ topicCompareLoop filter (slash :: below) = true) := by
  have hall : ∀ b ∈ level, (b ≠ slash : Bool) = true := fun b hb => by
    simpa using fun h : b = slash => hlevel (h ▸ hb)
  have hend : level.dropWhile (· ≠ slash) = [] := List.dropWhile_eq_nil_iff.2 hall
  have hmore : (level ++ slash :: below).dropWhile (· ≠ slash) = slash :: below := by
    rw [List.dropWhile_append_of_pos hall]
    simp
  constructor
  · cases level with
    | nil => simp [topicCompareLoop, Ne.symm slash_ne_plus]
    | cons b level =>
      rw [topicCompareLoop, if_neg plus_ne_sharp, if_pos rfl, hend]
      simp
  · obtain ⟨b, rest, hcons⟩ : ∃ b rest, level ++ slash :: below = b :: rest :=
      List.exists_cons_of_ne_nil (by simp)
    rw [hcons, topicCompareLoop, if_neg plus_ne_sharp, if_pos rfl, ← hcons, hmore]
    by_cases hfilter : filter = []
    · simp [hfilter]
    · simp [hfilter]

theorem level_cons_inj {level level' below below' : Bytes} (h : slash ∉ level)
    (h' : slash ∉ level') (heq : level ++ slash :: below = level' ++ slash :: below') :
    level = level' ∧ below = below' := by
  have hsplit := congrArg (List.splitOn slash) heq
  rw [List.splitOn_append_cons_self_of_not_mem h, List.splitOn_append_cons_self_of_not_mem h',
    List.cons.injEq] at hsplit
  exact ⟨hsplit.1, Symbols.splitOn_injective slash hsplit.2⟩

/-- A topic is one level, or one level and more behind a slash. -/
theorem topic_cases (topic : Bytes) :
    slash ∉ topic ∨ ∃ level below, slash ∉ level ∧ topic = level ++ slash :: below := by
  by_cases h : slash ∈ topic
  · obtain ⟨level, below, rfl, hlevel⟩ := List.eq_append_cons_of_mem h
    exact Or.inr ⟨level, below, hlevel, rfl⟩
  · exact Or.inl h

/-- Level by level the loop is the covering, up to an empty last level at a wildcard. -/
theorem topicCompareLoop_iff {filter : Bytes} (hwell : mqttSymbols.WellFormed filter)
    (topic : Bytes) :
    topicCompareLoop filter topic = true ↔ mqttSymbols.Covers filter topic ∧
      ¬ EmptyAtWildcard (mqttSymbols.filter filter) (topic.splitOn slash) := by
  unfold Symbols.Covers
  show _ ↔ Matches (mqttSymbols.filter filter) (topic.splitOn slash) ∧ _
  induction filter using mqttSymbols.levels_induction generalizing topic with
  | last level hsep =>
    rw [Symbols.wellFormed_single hsep] at hwell
    rw [Symbols.filter_single hsep]
    rcases Symbols.plain_of_levelsOk hsep hwell.1 hwell.2 with rfl | rfl | hplain
    · -- '+' at the end
      rw [Symbols.level_one]
      rcases topic_cases topic with htopic | ⟨name, below, hname, rfl⟩
      · rw [List.splitOn_eq_singleton htopic, emptyAtWildcard_single]
        refine (topicCompareLoop_plus htopic [] []).1.trans ?_
        simp [topicCompareLoop]
      · rw [List.splitOn_append_cons_self_of_not_mem hname]
        refine (topicCompareLoop_plus hname [] below).2.trans ?_
        simp [List.splitOn_ne_nil]
    · -- '#' at the end
      rw [Symbols.level_rest]
      rcases topic_cases topic with htopic | ⟨name, below, hname, rfl⟩
      · rw [List.splitOn_eq_singleton htopic, emptyAtWildcard_single]
        cases topic with
        | nil => simp [topicCompareLoop, mqttSymbols]
        | cons b topic => simp [topicCompareLoop, mqttSymbols]
      · obtain ⟨b, rest, hcons⟩ : ∃ b rest, name ++ slash :: below = b :: rest :=
          List.exists_cons_of_ne_nil (by simp)
        have hempty : ¬ EmptyAtWildcard [.rest] ((name ++ slash :: below).splitOn slash) := by
          obtain ⟨n, names, hnames⟩ := List.exists_cons_of_ne_nil (List.splitOn_ne_nil slash below)
          rw [List.splitOn_append_cons_self_of_not_mem hname, emptyAtWildcard_cons
            (List.splitOn_ne_nil slash below)]
          simp [EmptyAtWildcard]
        have hloop : topicCompareLoop [mqttSymbols.rest] (name ++ slash :: below) = true := by
          rw [hcons]
          simp [topicCompareLoop, mqttSymbols]
        simp [hloop, hempty]
    · -- a name at the end
      have hloop := topicCompareLoop_plain hplain [] topic
      rw [List.append_nil] at hloop
      have hcovers := Symbols.covers_of_plain hplain.2.1 hplain.2.2 topic
      rw [Symbols.Covers, Symbols.filter_single hsep] at hcovers
      rw [hloop, show Matches [mqttSymbols.level level] (topic.splitOn slash) ↔ _ from hcovers,
        Symbols.level_of_plain hplain]
      simp only [topicCompareLoop, List.isEmpty_iff, exists_eq_right, List.append_nil]
      refine (and_iff_left_of_imp ?_).symm
      rintro rfl
      have htopic : slash ∉ topic := hsep
      rw [List.splitOn_eq_singleton htopic, emptyAtWildcard_single]
      simp
  | more level filter hsep ih =>
    have hlevel : slash ∉ level := hsep
    rw [Symbols.wellFormed_more hsep] at hwell
    obtain ⟨hone, hrest, hfilter⟩ := hwell
    have hend := Symbols.matches_filter_nil hfilter
    rw [Symbols.filter_more hsep]
    by_cases hplus : mqttSymbols.one ∈ level
    · -- '+' before a slash
      obtain rfl := hone hplus
      rw [Symbols.level_one]
      rcases topic_cases topic with htopic | ⟨name, below, hname, rfl⟩
      · rw [List.splitOn_eq_singleton htopic, emptyAtWildcard_single, matches_one_cons, hend]
        refine (topicCompareLoop_plus htopic (slash :: filter) []).1.trans ?_
        simp [topicCompareLoop_slash, mqttSymbols, and_comm]
      · rw [List.splitOn_append_cons_self_of_not_mem hname, matches_one_cons,
          emptyAtWildcard_cons (List.splitOn_ne_nil _ _), ← ih hfilter]
        refine (topicCompareLoop_plus hname (slash :: filter) below).2.trans ?_
        simp [topicCompareLoop_slash]
    · -- a name before a slash
      have hplain : mqttSymbols.Plain level := ⟨hsep, hplus, hrest⟩
      rw [Symbols.level_of_plain hplain]
      refine (topicCompareLoop_plain hplain (slash :: filter) topic).trans ?_
      simp only [topicCompareLoop_slash]
      rcases topic_cases topic with htopic | ⟨name, below, hname, rfl⟩
      · rw [List.splitOn_eq_singleton htopic, emptyAtWildcard_single, matches_name_cons, hend]
        constructor
        · rintro ⟨left, rfl, ⟨rfl, rfl⟩ | ⟨below, rfl, -⟩⟩
          · simp [mqttSymbols]
          · exact absurd (List.mem_append_right _ List.mem_cons_self) htopic
        · rintro ⟨⟨rfl, rfl⟩, -⟩
          exact ⟨[], (List.append_nil _).symm, Or.inl ⟨rfl, rfl⟩⟩
      · rw [List.splitOn_append_cons_self_of_not_mem hname, matches_name_cons,
          emptyAtWildcard_cons (List.splitOn_ne_nil _ _), and_assoc, ← ih hfilter]
        constructor
        · rintro ⟨left, heq, ⟨rfl, -⟩ | ⟨below', rfl, h⟩⟩
          · rw [List.append_nil] at heq
            exact absurd (heq ▸ List.mem_append_right _ List.mem_cons_self) hlevel
          · obtain ⟨rfl, rfl⟩ := level_cons_inj hname hlevel heq
            exact ⟨rfl, h⟩
        · rintro ⟨rfl, h⟩
          exact ⟨slash :: below, rfl, Or.inr ⟨below, rfl, h⟩⟩

/-- **On a valid filter the comparison is the covering of MQTT, but an empty last level of the
topic is not met by a wildcard.** -/
theorem topicCompare_iff {filter : Bytes}
    (hvalid : coreMqttTopicIsValid true filter = STATE_SUCCESS) (topic : Bytes) :
    coreMqttTopicCompare filter topic = STATE_SUCCESS ↔ mqttSymbols.Covers filter topic ∧
      ¬ EmptyAtWildcard (mqttSymbols.filter filter) (topic.splitOn slash) := by
  rw [← topicCompareLoop_iff (wellFormed_of_topicIsValid hvalid), coreMqttTopicCompare]
  have hcodes : STATE_MQTT_TOPIC_COMPARE_FAILED ≠ STATE_SUCCESS := by decide
  split_ifs with h
  · exact iff_of_true rfl h
  · exact iff_of_false hcodes h

/-- The filter covers the topic that ends in an empty level, and the comparison fails. -/
theorem topicCompare_emptyEnd :
    coreMqttTopicIsValid true (ascii "/a/#") = STATE_SUCCESS ∧
      mqttSymbols.Covers (ascii "/a/#") (ascii "/a/") ∧
      coreMqttTopicCompare (ascii "/a/#") (ascii "/a/") ≠ STATE_SUCCESS := by
  have hvalid : coreMqttTopicIsValid true (ascii "/a/#") = STATE_SUCCESS := by decide
  refine ⟨hvalid, by decide, fun h => ((topicCompare_iff hvalid _).1 h).2 ?_⟩
  simp [EmptyAtWildcard]
  decide

end IotIde
