import TivaAws.Mqtt.Topic

/-!
# Matching topics level by level

The rule of MQTT for topic filters, and which topics `prvDoesTopicMatchTopicFilter` accepts. It
follows the rule except at the end of a filter with `/#`: a topic that stops where the `#` would
begin is missed if it stops with a `/`, or if the level before is a `+` (`topic_match_iff`).
-/

namespace TivaAws.Mqtt

/-! ## The rule -/

/-- The levels of a topic match those of a filter: `+` stands for one level and `#` at the end for
any number of them. -/
inductive LevelsMatch : List (List UInt8) → List (List UInt8) → Prop where
  | rest (topic) : LevelsMatch topic [[numberSign]]
  | nil : LevelsMatch [] []
  | plus {topic filter} (level) :
      LevelsMatch topic filter → LevelsMatch (level :: topic) ([plusSign] :: filter)
  | same {topic filter} (level) :
      LevelsMatch topic filter → LevelsMatch (level :: topic) (level :: filter)

/-- The topic matches the filter, level by level. -/
def TopicMatches (topic filter : List UInt8) : Prop :=
  LevelsMatch (topic.splitOn slash) (filter.splitOn slash)

/-- The rule as a test. -/
def levelsMatch : List (List UInt8) → List (List UInt8) → Bool
  | topic, [] => topic.isEmpty
  | [], level :: filter => level == [numberSign] && filter.isEmpty
  | first :: topic, level :: filter =>
      level == [numberSign] && filter.isEmpty ||
        (level == [plusSign] || level == first) && levelsMatch topic filter

theorem levels_match_iff {topic filter : List (List UInt8)} :
    levelsMatch topic filter = true ↔ LevelsMatch topic filter := by
  constructor
  · intro h
    induction filter generalizing topic with
    | nil =>
        cases topic with
        | nil => exact .nil
        | cons first topic => cases h
    | cons level filter ih =>
        cases topic with
        | nil =>
            obtain ⟨hlevel, hlast⟩ := Bool.and_eq_true_iff.mp h
            cases eq_of_beq hlevel
            cases List.isEmpty_iff.mp hlast
            exact .rest []
        | cons first topic =>
            obtain hrest | hlevel := Bool.or_eq_true_iff.mp h
            · obtain ⟨hlevel, hlast⟩ := Bool.and_eq_true_iff.mp hrest
              cases eq_of_beq hlevel
              cases List.isEmpty_iff.mp hlast
              exact .rest (first :: topic)
            · obtain ⟨hlevel, hmatches⟩ := Bool.and_eq_true_iff.mp hlevel
              obtain hplus | hsame := Bool.or_eq_true_iff.mp hlevel
              · cases eq_of_beq hplus
                exact .plus first (ih hmatches)
              · cases eq_of_beq hsame
                exact .same level (ih hmatches)
  · intro h
    induction h with
    | rest topic => cases topic <;> rfl
    | nil => rfl
    | plus level _ ih => simp [levelsMatch, ih]
    | same level _ ih => simp [levelsMatch, ih]

instance (topic filter : List UInt8) : Decidable (TopicMatches topic filter) :=
  decidable_of_iff _ levels_match_iff

/-- The filter ends with `/#`, and the topic either ends with a `/` and matches without it what is
before that, or matches it as it is, with a `+` at the end. -/
def StopsAtNumberSign (topic filter : List UInt8) : Prop :=
  ∃ stem, filter = stem ++ [slash, numberSign] ∧
    ((∃ start, topic = start ++ [slash] ∧ TopicMatches start stem) ∨
      (stem.getLast? = some plusSign ∧ TopicMatches topic stem))

/-! ## Levels -/

section Levels

variable {c d : UInt8} {topic filter : List UInt8}

theorem split_cons_slash (bytes : List UInt8) :
    (slash :: bytes).splitOn slash = [] :: bytes.splitOn slash := by
  rw [List.splitOn_cons_eq_if_modifyHead, if_pos (BEq.rfl)]

/-- A byte that is no separator goes to the first level. -/
theorem split_cons (hc : c ≠ slash) (bytes : List UInt8) :
    ∃ level levels, bytes.splitOn slash = level :: levels ∧
      (c :: bytes).splitOn slash = (c :: level) :: levels := by
  obtain ⟨level, levels, hsplit⟩ := List.exists_cons_of_ne_nil (List.splitOn_ne_nil slash bytes)
  refine ⟨level, levels, hsplit, ?_⟩
  rw [List.splitOn_cons_eq_if_modifyHead, if_neg (by simpa using hc), hsplit]
  rfl

/-- The first level starts with the first byte. -/
theorem head_of_split {bytes level : List UInt8} {levels : List (List UInt8)}
    (h : bytes.splitOn slash = (c :: level) :: levels) : bytes.head? = some c := by
  cases bytes with
  | nil => simp at h
  | cons d bytes =>
      by_cases hd : d = slash
      · subst hd
        rw [split_cons_slash] at h
        simp at h
      · obtain ⟨first, rest, -, hsplit⟩ := split_cons hd bytes
        rw [hsplit] at h
        injection h with hlevel
        injection hlevel with hhead
        rw [hhead]
        rfl

theorem split_eq_nil_singleton {bytes : List UInt8} (h : bytes.splitOn slash = [[]]) :
    bytes = [] := by
  have hback : [slash].intercalate (bytes.splitOn slash) = bytes := List.intercalate_splitOn slash
  rw [h] at hback
  simpa using hback.symm

/-- What follows the first level. -/
def afterLevel (topic : List UInt8) : List UInt8 := topic.dropWhile (· ≠ slash)

theorem split_after_level (topic : List UInt8) :
    ∃ level levels, topic.splitOn slash = level :: levels ∧
      (afterLevel topic).splitOn slash = [] :: levels := by
  induction topic with
  | nil => exact ⟨[], [], List.splitOn_nil _, List.splitOn_nil _⟩
  | cons c topic ih =>
      by_cases hc : c = slash
      · subst hc
        refine ⟨[], _, split_cons_slash topic, ?_⟩
        simp [afterLevel, split_cons_slash]
      · obtain ⟨level, levels, hsplit, hafter⟩ := ih
        obtain ⟨first, rest, hsplit', hcons⟩ := split_cons hc topic
        rw [hsplit] at hsplit'
        injection hsplit' with hfirst hrest
        subst hfirst
        subst hrest
        refine ⟨_, _, hcons, ?_⟩
        simpa [afterLevel, hc] using hafter

theorem split_number_sign : [numberSign].splitOn slash = [[numberSign]] :=
  List.splitOn_eq_singleton (by decide)

/-! ## Matching byte by byte -/

theorem matches_number_sign (topic : List UInt8) : TopicMatches topic [numberSign] := by
  unfold TopicMatches
  rw [split_number_sign]
  exact .rest _

theorem matches_nil_iff : TopicMatches topic [] ↔ topic = [] := by
  unfold TopicMatches
  rw [List.splitOn_nil]
  constructor
  · intro h
    generalize hsplit : topic.splitOn slash = levels at h
    cases h with
    | same level h =>
        cases h
        exact split_eq_nil_singleton hsplit
  · rintro rfl
    rw [List.splitOn_nil]
    exact .same [] .nil

theorem matches_slash_iff :
    TopicMatches (slash :: topic) (slash :: filter) ↔ TopicMatches topic filter := by
  unfold TopicMatches
  rw [split_cons_slash, split_cons_slash]
  constructor
  · intro h
    cases h with
    | same _ h => exact h
  · exact .same []

/-- A byte that is no wild card is matched by itself, as long as a wild card does not follow it in
the same level. -/
theorem matches_cons_iff (hplus : c ≠ plusSign) (hnumber : c ≠ numberSign)
    (hhead : c = slash ∨ (filter.head? ≠ some plusSign ∧ filter.head? ≠ some numberSign)) :
    TopicMatches (c :: topic) (c :: filter) ↔ TopicMatches topic filter := by
  -- A slash ends a level that is empty in both, any other byte begins or continues one.
  by_cases hc : c = slash
  · subst hc
    exact matches_slash_iff
  · obtain ⟨hheadPlus, hheadNumber⟩ := hhead.resolve_left hc
    obtain ⟨level, levels, hsplit, hcons⟩ := split_cons hc topic
    obtain ⟨first, rest, hsplit', hcons'⟩ := split_cons hc filter
    unfold TopicMatches
    rw [hsplit, hcons, hsplit', hcons']
    constructor
    · intro h
      generalize hfirst : (c :: first) :: rest = right at h
      generalize hleft : (c :: level) :: levels = left at h
      cases h with
      | rest => simp_all
      | nil => simp at hfirst
      | plus => simp_all
      | same _ h =>
          simp only [List.cons.injEq] at hfirst hleft
          obtain ⟨hsame, rfl⟩ := hfirst
          obtain ⟨hsame', rfl⟩ := hleft
          rw [← hsame', List.cons.injEq] at hsame
          rw [hsame.2]
          exact .same _ h
    · intro h
      generalize hfirst : first :: rest = right at h
      generalize hleft : level :: levels = left at h
      cases h with
      | rest =>
          rw [hfirst] at hsplit'
          exact absurd (head_of_split hsplit') hheadNumber
      | nil => simp at hfirst
      | plus =>
          injection hfirst with hlevel
          rw [hlevel] at hsplit'
          exact absurd (head_of_split hsplit') hheadPlus
      | same _ h =>
          injection hfirst with hsame hrest
          injection hleft with hsame' hrest'
          subst hrest
          subst hrest'
          rw [hsame, hsame']
          exact .same _ h

/-- `+` matches one level. -/
theorem matches_plus_iff (hend : filter = [] ∨ filter.head? = some slash) :
    TopicMatches topic (plusSign :: filter) ↔ TopicMatches (afterLevel topic) filter := by
  obtain ⟨level, levels, hsplit, hafter⟩ := split_after_level topic
  obtain ⟨rest, hrest⟩ : ∃ rest, filter.splitOn slash = [] :: rest := by
    rcases hend with rfl | hhead
    · exact ⟨[], List.splitOn_nil _⟩
    · obtain ⟨filter, rfl⟩ := List.head?_eq_some_iff.mp hhead
      exact ⟨_, split_cons_slash filter⟩
  obtain ⟨first, others, hsplit', hcons⟩ := split_cons (show plusSign ≠ slash by decide) filter
  rw [hrest] at hsplit'
  injection hsplit' with hfirst hothers
  subst hfirst
  subst hothers
  unfold TopicMatches
  rw [hsplit, hafter, hrest, hcons]
  constructor
  · intro h
    cases h with
    | plus _ h => exact .same [] h
    | same _ h => exact .same [] h
  · intro h
    cases h with
    | same _ h => exact .plus level h

/-- Nothing else matches a different byte. -/
theorem not_matches_of_ne (hne : c ≠ d) (hplus : d ≠ plusSign) (hnumber : d ≠ numberSign) :
    ¬ TopicMatches (c :: topic) (d :: filter) := by
  unfold TopicMatches
  intro h
  by_cases hd : d = slash
  · subst hd
    obtain ⟨level, levels, -, hcons⟩ := split_cons hne topic
    rw [hcons, split_cons_slash] at h
    cases h
  · obtain ⟨first, rest, -, hcons'⟩ := split_cons hd filter
    rw [hcons'] at h
    by_cases hc : c = slash
    · subst hc
      rw [split_cons_slash] at h
      cases h with
      | rest => exact hnumber rfl
      | plus => exact hplus rfl
    · obtain ⟨level, levels, -, hcons⟩ := split_cons hc topic
      rw [hcons] at h
      cases h with
      | rest => exact hnumber rfl
      | plus => exact hplus rfl
      | same => exact hne rfl

/-- A filter that matches the empty topic. -/
theorem matches_empty_topic (h : TopicMatches [] filter) :
    filter = [] ∨ filter = [numberSign] ∨ filter = [plusSign] ∨
      filter = [slash, numberSign] ∨ filter = [plusSign, slash, numberSign] := by
  have hback : [slash].intercalate (filter.splitOn slash) = filter := List.intercalate_splitOn slash
  unfold TopicMatches at h
  rw [List.splitOn_nil] at h
  generalize filter.splitOn slash = levels at h hback
  subst hback
  cases h with
  | rest => exact Or.inr (Or.inl rfl)
  | plus _ h =>
      cases h with
      | rest => exact Or.inr (Or.inr (Or.inr (Or.inr rfl)))
      | nil => exact Or.inr (Or.inr (Or.inl rfl))
  | same _ h =>
      cases h with
      | rest => exact Or.inr (Or.inr (Or.inr (Or.inl rfl)))
      | nil => exact Or.inl rfl

end Levels

/-! ## Valid filters -/

/-- The wild cards of the rest of a filter are where they may be; `start` says whether a level
starts there. -/
def WildCardsPlaced : Bool → List UInt8 → Prop
  | _, [] => True
  | start, c :: filter =>
      (c = plusSign → start = true ∧ (filter = [] ∨ filter.head? = some slash)) ∧
        (c = numberSign → start = true ∧ filter = []) ∧ WildCardsPlaced (c = slash) filter

/-- Whether a level starts at an index of a filter. -/
def startsLevel (filter : List UInt8) (x : Nat) : Bool :=
  x = 0 ∨ filter.getD (x - 1) 0 = slash

theorem starts_level_succ {filter : List UInt8} (x : Nat) :
    startsLevel filter (x + 1) = decide (filter.getD x 0 = slash) := by
  simp [startsLevel]

theorem drop_eq_cons {filter : List UInt8} {x : Nat} (h : x < filter.length) :
    filter.drop x = filter.getD x 0 :: filter.drop (x + 1) := by
  rw [List.drop_eq_getElem_cons h, List.getD_eq_getElem?_getD, List.getElem?_eq_getElem h]
  rfl

theorem next_ends_level {filter : List UInt8} {x : Nat}
    (h : x + 1 = filter.length ∨ filter.getD (x + 1) 0 = slash) :
    filter.drop (x + 1) = [] ∨ (filter.drop (x + 1)).head? = some slash := by
  rcases h with hlast | hslash
  · exact Or.inl (List.drop_eq_nil_of_le (Nat.le_of_eq hlast.symm))
  · right
    have hlt : x + 1 < filter.length := by
      by_contra hge
      rw [List.getD_eq_getElem?_getD, List.getElem?_eq_none (Nat.le_of_not_lt hge)] at hslash
      exact absurd hslash (by decide)
    rw [drop_eq_cons hlt, hslash]
    rfl

theorem wild_cards_placed_loop {filter : List UInt8} {rounds x : Nat}
    {filterType : MQTTTopicFilterType} (hrounds : filter.length ≤ x + rounds)
    (h : topicFilterTypeLoop filter rounds x filterType ≠ .invalid) :
    WildCardsPlaced (startsLevel filter x) (filter.drop x) := by
  -- On the rounds: the loop looks at each byte with its neighbours.
  induction rounds generalizing x filterType with
  | zero =>
      rw [List.drop_eq_nil_of_le (by omega)]
      trivial
  | succ rounds ih =>
      by_cases hx : x < filter.length
      · unfold topicFilterTypeLoop at h
        rw [if_pos hx] at h
        rw [drop_eq_cons hx]
        simp only [WildCardsPlaced, ← starts_level_succ]
        by_cases hplus : filter.getD x 0 = plusSign
        · rw [if_pos hplus] at h
          rw [hplus]
          split_ifs at h with hstart hend
          · exact ⟨fun _ => ⟨decide_eq_true hstart, next_ends_level hend⟩,
              fun heq => absurd heq (by decide), ih (by omega) h⟩
          · exact absurd rfl h
          · exact absurd rfl h
        · rw [if_neg hplus] at h
          by_cases hnumber : filter.getD x 0 = numberSign
          · rw [if_pos hnumber] at h
            rw [hnumber]
            split_ifs at h with hstart hend
            · have hnil : filter.drop (x + 1) = [] :=
                List.drop_eq_nil_of_le (Nat.le_of_eq hend.symm)
              rw [hnil]
              exact ⟨fun heq => absurd heq (by decide), fun _ => ⟨decide_eq_true hstart, rfl⟩,
                trivial⟩
            · exact absurd rfl h
            · exact absurd rfl h
          · rw [if_neg hnumber] at h
            exact ⟨fun heq => absurd heq hplus, fun heq => absurd heq hnumber,
              ih (by omega) h⟩
      · rw [List.drop_eq_nil_of_le (Nat.le_of_not_lt hx)]
        trivial

/-- The wild cards of a filter with a valid type are placed well. -/
theorem wild_cards_placed {filter : List UInt8}
    (h : prvGetTopicFilterType filter ≠ .invalid) : WildCardsPlaced true filter :=
  wild_cards_placed_loop (x := 0) (by omega) h

/-! ## The loop on what is left -/

/-- What the loop computes from the rest of the topic and of the filter. -/
def acceptsRest : List UInt8 → List UInt8 → Bool
  | topic, [] => topic = []
  | [], _ :: _ => false
  | c :: topic, d :: filter =>
      if c = d then
        topic = [] ∧ (filter = [slash, numberSign] ∨ filter = [plusSign]) ∨
          acceptsRest topic filter
      else if d = plusSign then acceptsRest (afterLevel (c :: topic)) filter
      else d = numberSign

theorem skip_topic_level_spec {topic : List UInt8} {rounds topicIndex : Nat}
    (hle : topicIndex ≤ topic.length) (hrounds : topic.length ≤ topicIndex + rounds) :
    topic.drop (skipTopicLevel topic rounds topicIndex) = afterLevel (topic.drop topicIndex) ∧
      skipTopicLevel topic rounds topicIndex ≤ topic.length := by
  induction rounds generalizing topicIndex with
  | zero =>
      have heq : topicIndex = topic.length := by omega
      subst heq
      simp [skipTopicLevel, afterLevel]
  | succ rounds ih =>
      unfold skipTopicLevel
      split_ifs with h
      · rw [drop_eq_cons h.1]
        have hnext := @ih (topicIndex + 1) (by omega) (by omega)
        refine ⟨?_, hnext.2⟩
        rw [hnext.1]
        unfold afterLevel
        rw [List.dropWhile_cons_of_pos (by simpa using h.2)]
      · refine ⟨?_, hle⟩
        by_cases hlt : topicIndex < topic.length
        · have hslash : topic.getD topicIndex 0 = slash := by
            by_contra hne
            exact h ⟨hlt, hne⟩
          rw [drop_eq_cons hlt, hslash]
          rfl
        · rw [List.drop_eq_nil_of_le (Nat.le_of_not_lt hlt)]
          rfl

/-- The rest of a list is these bytes. -/
theorem drop_eq_iff {filter : List UInt8} {x : Nat} (hx : x < filter.length) :
    (filter.drop (x + 1) = [plusSign] ↔ x + 2 = filter.length ∧ filter.getD (x + 1) 0 = plusSign) ∧
      (filter.drop (x + 1) = [slash, numberSign] ↔ x + 3 = filter.length ∧
        filter.getD (x + 1) 0 = slash ∧ filter.getD (x + 2) 0 = numberSign) := by
  refine ⟨⟨fun h => ?_, fun h => ?_⟩, ⟨fun h => ?_, fun h => ?_⟩⟩
  · have hlength := congrArg List.length h
    rw [List.length_drop] at hlength
    have hlast : x + 1 < filter.length := by simp at hlength; omega
    rw [drop_eq_cons hlast] at h
    injection h with hhead
    exact ⟨by simp at hlength; omega, hhead⟩
  · rw [drop_eq_cons (by omega), h.2, List.drop_eq_nil_of_le (by omega)]
  · have hlength := congrArg List.length h
    rw [List.length_drop] at hlength
    have hlast : x + 2 < filter.length := by simp at hlength; omega
    rw [drop_eq_cons (by omega), drop_eq_cons hlast] at h
    injection h with hhead htail
    injection htail with hsecond
    exact ⟨by simp at hlength; omega, hhead, hsecond⟩
  · rw [drop_eq_cons (by omega), h.2.1, drop_eq_cons (by omega), h.2.2,
      List.drop_eq_nil_of_le (by omega)]

/-- The loop ends on a match, or with both used up, exactly if the rest is accepted. -/
theorem topic_match_loop_iff {topic filter : List UInt8} {rounds topicIndex filterIndex : Nat}
    (htopic : topicIndex ≤ topic.length) (hfilter : filterIndex ≤ filter.length)
    (hrounds : filter.length < filterIndex + rounds) :
    ((topicMatchLoop topic filter rounds topicIndex filterIndex).1 = true ∨
        topic.length ≤ (topicMatchLoop topic filter rounds topicIndex filterIndex).2.1 ∧
          filter.length ≤ (topicMatchLoop topic filter rounds topicIndex filterIndex).2.2) ↔
      acceptsRest (topic.drop topicIndex) (filter.drop filterIndex) = true := by
  induction rounds generalizing topicIndex filterIndex with
  | zero => omega
  | succ rounds ih =>
      unfold topicMatchLoop
      -- The loop ends when one of the two is used up, and both must be.
      by_cases hin : topicIndex < topic.length ∧ filterIndex < filter.length
      · obtain ⟨hplus, hnumber⟩ := drop_eq_iff hin.2
        have hlast : topic.drop (topicIndex + 1) = [] ↔ topicIndex + 1 = topic.length := by
          rw [List.drop_eq_nil_iff]
          omega
        rw [if_pos hin, drop_eq_cons hin.1, drop_eq_cons hin.2]
        unfold acceptsRest
        rw [← drop_eq_cons hin.1]
        simp only [hplus, hnumber, hlast]
        split_ifs with hsame hparent hempty hwild hrest
        · exact iff_of_true (Or.inl rfl)
            (decide_eq_true (Or.inl ⟨hparent.1, Or.inl hparent.2⟩))
        · exact iff_of_true (Or.inl rfl)
            (decide_eq_true (Or.inl ⟨hempty.1, Or.inr hempty.2⟩))
        · rw [ih (by omega) (by omega) (by omega)]
          have hno : ¬ (topicIndex + 1 = topic.length ∧
              ((filterIndex + 3 = filter.length ∧ filter.getD (filterIndex + 1) 0 = slash ∧
                filter.getD (filterIndex + 2) 0 = numberSign) ∨
              (filterIndex + 2 = filter.length ∧
                filter.getD (filterIndex + 1) 0 = plusSign))) := by
            rintro ⟨htopic, hor | hor⟩
            · exact hparent ⟨htopic, hor⟩
            · exact hempty ⟨htopic, hor⟩
          simp only [hno, false_or, Bool.decide_eq_true]
        · obtain ⟨hdrop, hle⟩ := skip_topic_level_spec htopic
            (show topic.length ≤ topicIndex + topic.length by omega)
          rw [ih hle (by omega) (by omega), hdrop]
        · exact iff_of_true (Or.inl rfl) (decide_eq_true hrest)
        · simp only [false_or, decide_eq_true_eq]
          constructor
          · intro h
            omega
          · intro h
            exact absurd h hrest
      · rw [if_neg hin]
        by_cases hused : filter.length ≤ filterIndex
        · rw [List.drop_eq_nil_of_le hused]
          simp only [Bool.false_eq_true, false_or, acceptsRest, decide_eq_true_eq,
            List.drop_eq_nil_iff, hused, and_true]
        · have htopicUsed : topic.length ≤ topicIndex := by omega
          rw [List.drop_eq_nil_of_le htopicUsed, drop_eq_cons (by omega)]
          simp only [acceptsRest]
          simp [hused]

/-- `prvDoesTopicMatchTopicFilter` accepts what its loop accepts from the start. -/
theorem does_topic_match_iff {topic filter : List UInt8} (hne : topic ≠ []) :
    prvDoesTopicMatchTopicFilter topic filter = true ↔ acceptsRest topic filter = true := by
  have hloop := topic_match_loop_iff (Nat.zero_le topic.length) (Nat.zero_le filter.length)
    (show filter.length < 0 + (filter.length + 1) by omega)
  simp only [List.drop_zero] at hloop
  rw [← hloop]
  unfold prvDoesTopicMatchTopicFilter
  have hpos := List.length_pos_iff.mpr hne
  generalize hended : topicMatchLoop topic filter (filter.length + 1) 0 0 = ended at hloop ⊢
  obtain ⟨matched, topicIndex, filterIndex⟩ := ended
  simp only [Bool.or_eq_true, Bool.and_eq_true, decide_eq_true_eq]
  constructor
  · rintro (h | ⟨⟨-, h⟩, -, h'⟩)
    · exact Or.inl h
    · exact Or.inr ⟨h, h'⟩
  · rintro (h | ⟨h, h'⟩)
    · exact Or.inl h
    · refine Or.inr ⟨⟨by omega, h⟩, ?_, h'⟩
      by_contra hzero
      have hnil : filter = [] := List.length_eq_zero_iff.mp (by omega)
      subst hnil
      have hstart : topicMatchLoop topic [] 1 0 0 = (false, 0, 0) := by
        simp [topicMatchLoop]
      rw [List.length_nil, Nat.zero_add, hstart] at hended
      injection hended with _ hindexes
      injection hindexes with htopicIndex
      omega

/-! ## What is missed -/

section Missed

variable {c : UInt8} {topic filter stem : List UInt8}

theorem stops_cons (h : c :: filter = stem ++ [slash, numberSign]) :
    (stem = [] ∧ c = slash ∧ filter = [numberSign]) ∨
      ∃ rest, stem = c :: rest ∧ filter = rest ++ [slash, numberSign] := by
  cases stem with
  | nil =>
      injection h with hc hrest
      exact Or.inl ⟨rfl, hc, hrest⟩
  | cons d rest =>
      injection h with hc hrest
      subst hc
      exact Or.inr ⟨rest, rfl, hrest⟩

/-- The stem of a filter starts as the filter does. -/
theorem head_of_stem (hfilter : filter = stem ++ [slash, numberSign]) {d : UInt8}
    (h : stem.head? = some d) : filter.head? = some d := by
  obtain ⟨rest, rfl⟩ := List.head?_eq_some_iff.mp h
  rw [hfilter]
  rfl

theorem not_matches_separator : ¬ TopicMatches [] [slash] := by
  intro h
  rcases matches_empty_topic h with h | h | h | h | h <;> exact absurd h (by decide)

theorem last_of_cons (hstem : stem ≠ []) : (c :: stem).getLast? = stem.getLast? := by
  obtain ⟨d, rest, rfl⟩ := List.exists_cons_of_ne_nil hstem
  rfl

/-- No wild card follows in the middle of a level. -/
theorem head_of_placed (hplaced : WildCardsPlaced (c = slash) filter) :
    c = slash ∨ (filter.head? ≠ some plusSign ∧ filter.head? ≠ some numberSign) := by
  by_cases hc : c = slash
  · exact Or.inl hc
  · right
    rw [decide_eq_false hc] at hplaced
    constructor
    · intro h
      obtain ⟨rest, rfl⟩ := List.head?_eq_some_iff.mp h
      exact absurd (hplaced.1 rfl).1 (by decide)
    · intro h
      obtain ⟨rest, rfl⟩ := List.head?_eq_some_iff.mp h
      exact absurd (hplaced.2.1 rfl).1 (by decide)

/-- A byte that is no wild card and matches itself is one more byte before the stop, unless
nothing of the topic is left. -/
theorem stops_cons_iff (hplus : c ≠ plusSign) (hnumber : c ≠ numberSign)
    (hplaced : WildCardsPlaced (c = slash) filter) (hmatches : TopicMatches topic filter)
    (hparent : ¬ (topic = [] ∧ (filter = [slash, numberSign] ∨ filter = [plusSign]))) :
    StopsAtNumberSign (c :: topic) (c :: filter) ↔
      topic = [] ∧ filter ≠ [] ∨ StopsAtNumberSign topic filter := by
  have hhead := head_of_placed hplaced
  have hstem : ∀ {rest : List UInt8}, filter = rest ++ [slash, numberSign] →
      c = slash ∨ (rest.head? ≠ some plusSign ∧ rest.head? ≠ some numberSign) := by
    intro rest hrest
    refine hhead.imp_right fun h => ⟨?_, ?_⟩
    · exact fun hd => h.1 (head_of_stem hrest hd)
    · exact fun hd => h.2 (head_of_stem hrest hd)
  constructor
  · rintro ⟨stem, hfilter, hstops⟩
    rcases stops_cons hfilter with ⟨rfl, rfl, rfl⟩ | ⟨rest, rfl, hrest⟩
    · left
      refine ⟨?_, by simp⟩
      rcases hstops with ⟨start, htopic, hstart⟩ | ⟨hlast, -⟩
      · rw [matches_nil_iff] at hstart
        subst hstart
        injection htopic
      · exact absurd hlast (by simp)
    · rcases hstops with ⟨start, htopic, hstart⟩ | ⟨hlast, htopic⟩
      · cases start with
        | nil =>
            injection htopic with _ hnil
            refine Or.inl ⟨hnil, ?_⟩
            rw [hrest]
            simp
        | cons d start =>
            injection htopic with hd htopic
            subst hd
            exact Or.inr ⟨rest, hrest, Or.inl ⟨start, htopic,
              (matches_cons_iff hplus hnumber (hstem hrest)).mp hstart⟩⟩
      · right
        have hne : rest ≠ [] := by
          rintro rfl
          exact hplus (Option.some.inj hlast)
        rw [last_of_cons hne] at hlast
        exact ⟨rest, hrest, Or.inr ⟨hlast,
          (matches_cons_iff hplus hnumber (hstem hrest)).mp htopic⟩⟩
  · rintro (⟨rfl, hne⟩ | ⟨stem, hfilter, hstops⟩)
    · -- What is left of the filter matches an empty level at most.
      have hslash : ∀ start, filter = numberSign :: start ∨ filter = plusSign :: start →
          c = slash := by
        intro start hstart
        refine hhead.resolve_right fun h => ?_
        rcases hstart with rfl | rfl
        · exact h.2 rfl
        · exact h.1 rfl
      rcases matches_empty_topic hmatches with h | h | h | h | h
      · exact absurd h hne
      · rw [hslash _ (Or.inl h), h]
        exact ⟨[], rfl, Or.inl ⟨[], rfl, matches_nil_iff.mpr rfl⟩⟩
      · exact absurd ⟨rfl, Or.inr h⟩ hparent
      · exact absurd ⟨rfl, Or.inl h⟩ hparent
      · rw [hslash _ (Or.inr h), h]
        refine ⟨[slash, plusSign], rfl, Or.inr ⟨rfl, ?_⟩⟩
        rw [matches_slash_iff, matches_plus_iff (Or.inl rfl)]
        exact matches_nil_iff.mpr rfl
    · refine ⟨c :: stem, by rw [hfilter]; rfl, ?_⟩
      rcases hstops with ⟨start, rfl, hstart⟩ | ⟨hlast, htopic⟩
      · exact Or.inl ⟨c :: start, rfl,
          (matches_cons_iff hplus hnumber (hstem hfilter)).mpr hstart⟩
      · have hne : stem ≠ [] := by
          rintro rfl
          exact absurd hlast (by simp)
        rw [← last_of_cons (c := c) hne] at hlast
        exact Or.inr ⟨hlast, (matches_cons_iff hplus hnumber (hstem hfilter)).mpr htopic⟩

theorem after_level_append (start : List UInt8) :
    afterLevel (start ++ [slash]) = afterLevel start ++ [slash] := by
  induction start with
  | nil => rfl
  | cons c start ih =>
      by_cases hc : c = slash
      · subst hc
        rfl
      · simpa [afterLevel, hc] using ih

/-- What follows the first level starts with a separator. -/
theorem after_level_starts (topic : List UInt8) :
    afterLevel topic = [] ∨ ∃ rest, afterLevel topic = slash :: rest := by
  induction topic with
  | nil => exact Or.inl rfl
  | cons c topic ih =>
      by_cases hc : c = slash
      · subst hc
        exact Or.inr ⟨topic, rfl⟩
      · simpa [afterLevel, hc] using ih

/-- The first level is what is before. -/
theorem exists_level (topic : List UInt8) :
    ∃ level, slash ∉ level ∧ topic = level ++ afterLevel topic := by
  induction topic with
  | nil => exact ⟨[], by simp, rfl⟩
  | cons c topic ih =>
      by_cases hc : c = slash
      · subst hc
        exact ⟨[], by simp, rfl⟩
      · obtain ⟨level, hlevel, htopic⟩ := ih
        refine ⟨c :: level, by simp [Ne.symm hc, hlevel], ?_⟩
        have hafter : afterLevel (c :: topic) = afterLevel topic := by simp [afterLevel, hc]
        rw [hafter, List.cons_append, ← htopic]

theorem after_level_of_level {level rest : List UInt8} (hlevel : slash ∉ level)
    (hrest : rest = [] ∨ rest.head? = some slash) : afterLevel (level ++ rest) = rest := by
  induction level with
  | nil =>
      rcases hrest with rfl | hhead
      · rfl
      · obtain ⟨more, rfl⟩ := List.head?_eq_some_iff.mp hhead
        rfl
  | cons c level ih =>
      have hc : c ≠ slash := fun h => hlevel (h ▸ List.mem_cons_self)
      simpa [afterLevel, hc] using ih fun h => hlevel (List.mem_cons_of_mem _ h)

/-- `+` takes the first level away, which may have been the last one. -/
theorem stops_plus_iff (hend : filter = [] ∨ filter.head? = some slash)
    (hmatches : TopicMatches (afterLevel topic) filter) :
    StopsAtNumberSign topic (plusSign :: filter) ↔
      afterLevel topic = [] ∧ filter ≠ [] ∨ StopsAtNumberSign (afterLevel topic) filter := by
  have hstem : ∀ {rest : List UInt8}, filter = rest ++ [slash, numberSign] →
      rest = [] ∨ rest.head? = some slash := by
    intro rest hrest
    cases rest with
    | nil => exact Or.inl rfl
    | cons d rest =>
        right
        rcases hend with hnil | hhead
        · rw [hnil] at hrest
          exact absurd hrest (by simp)
        · rw [hrest] at hhead
          exact hhead
  constructor
  · rintro ⟨stem, hfilter, hstops⟩
    rcases stops_cons hfilter with ⟨-, habsurd, -⟩ | ⟨rest, rfl, hrest⟩
    · exact absurd habsurd (by decide)
    · rcases hstops with ⟨start, rfl, hstart⟩ | ⟨hlast, htopic⟩
      · right
        rw [matches_plus_iff (hstem hrest)] at hstart
        exact ⟨rest, hrest, Or.inl ⟨_, after_level_append start, hstart⟩⟩
      · rw [matches_plus_iff (hstem hrest)] at htopic
        by_cases hne : rest = []
        · subst hne
          refine Or.inl ⟨matches_nil_iff.mp htopic, ?_⟩
          rw [hrest]
          simp
        · rw [last_of_cons hne] at hlast
          exact Or.inr ⟨rest, hrest, Or.inr ⟨hlast, htopic⟩⟩
  · rintro (⟨hnil, hne⟩ | ⟨stem, hfilter, hstops⟩)
    -- Nothing of the topic is left, so what is left of the filter is the end with the number sign.
    · rw [hnil] at hmatches
      rcases matches_empty_topic hmatches with h | h | h | h | h
      · exact absurd h hne
      · exact absurd (hend.resolve_left hne) (by rw [h]; decide)
      · exact absurd (hend.resolve_left hne) (by rw [h]; decide)
      · rw [h]
        refine ⟨[plusSign], rfl, Or.inr ⟨rfl, ?_⟩⟩
        rw [matches_plus_iff (Or.inl rfl)]
        exact matches_nil_iff.mpr hnil
      · exact absurd (hend.resolve_left hne) (by rw [h]; decide)
    · refine ⟨plusSign :: stem, by rw [hfilter]; rfl, ?_⟩
      rcases hstops with ⟨start, hstart, hmatch⟩ | ⟨hlast, hmatch⟩
      · left
        -- What the plus sign stands for is put back in front.
        obtain ⟨level, hlevel, htopic⟩ := exists_level topic
        refine ⟨level ++ start, ?_, ?_⟩
        · rw [List.append_assoc, ← hstart]
          exact htopic
        · have hbegins : start = [] ∨ start.head? = some slash := by
            cases start with
            | nil => exact Or.inl rfl
            | cons d start =>
                right
                rcases after_level_starts topic with hnil | ⟨rest, hrest⟩
                · rw [hnil] at hstart
                  exact absurd hstart (by simp)
                · rw [hrest] at hstart
                  injection hstart with hd
                  rw [← hd]
                  rfl
          rw [matches_plus_iff (hstem hfilter), after_level_of_level hlevel hbegins]
          exact hmatch
      · have hne : stem ≠ [] := by
          rintro rfl
          exact absurd hlast (by simp)
        rw [← last_of_cons (c := plusSign) hne] at hlast
        exact Or.inr ⟨hlast, (matches_plus_iff (hstem hfilter)).mpr hmatch⟩

theorem matches_parent : TopicMatches [] [slash, numberSign] := by
  unfold TopicMatches
  rw [split_cons_slash, split_number_sign]
  exact .same [] (.rest [])

/-- The parent level and the empty level that are provided for are not missed. -/
theorem not_stops_parent (hplus : c ≠ plusSign)
    (hfilter : filter = [slash, numberSign] ∨ filter = [plusSign]) :
    ¬ StopsAtNumberSign [c] (c :: filter) := by
  rintro ⟨stem, hstem, hstops⟩
  rcases stops_cons hstem with ⟨-, -, rfl⟩ | ⟨rest, rfl, hrest⟩
  · rcases hfilter with h | h <;> exact absurd h (by decide)
  · have hnil : rest = [] := by
      have hlength := congrArg List.length hrest
      rw [List.length_append] at hlength
      rcases hfilter with rfl | rfl
      · exact List.length_eq_zero_iff.mp (by simpa using hlength.symm)
      · simp at hlength
    subst hnil
    rcases hstops with ⟨start, htopic, hmatch⟩ | ⟨hlast, -⟩
    · cases start with
      | nil =>
          injection htopic with hc
          subst hc
          exact not_matches_separator hmatch
      | cons d start =>
          injection htopic with _ hnil
          exact absurd hnil (by simp)
    · exact hplus (Option.some.inj hlast)

theorem not_stops_singleton : ¬ StopsAtNumberSign topic [c] := by
  rintro ⟨stem, hfilter, -⟩
  have hlength := congrArg List.length hfilter
  rw [List.length_append] at hlength
  simp at hlength

theorem afterLevel_subset {d : UInt8} (h : d ∈ afterLevel topic) : d ∈ topic :=
  (List.dropWhile_suffix _).subset h

/-- What is accepted is what matches, up to what is missed. -/
theorem accepts_rest_iff {start : Bool} (hplaced : WildCardsPlaced start filter)
    (hplus : plusSign ∉ topic) (hnumber : numberSign ∉ topic) :
    acceptsRest topic filter = true ↔ TopicMatches topic filter ∧
      ¬ (topic = [] ∧ filter ≠ [] ∨ StopsAtNumberSign topic filter) := by
  -- On the filter: each byte of it is one round, and a plus sign takes a whole level.
  induction filter generalizing topic start with
  | nil =>
      have hstops : ¬ StopsAtNumberSign topic [] := by
        rintro ⟨stem, hfilter, -⟩
        exact absurd hfilter (by simp)
      rw [matches_nil_iff]
      simp [acceptsRest, hstops]
  | cons d filter ih =>
      obtain ⟨hplusPlaced, hnumberPlaced, hrest⟩ := hplaced
      cases topic with
      | nil => simp [acceptsRest]
      | cons c topic =>
          have hfree : c ≠ plusSign ∧ c ≠ numberSign := by
            constructor
            · rintro rfl
              exact hplus List.mem_cons_self
            · rintro rfl
              exact hnumber List.mem_cons_self
          have hplus' : plusSign ∉ topic := fun h => hplus (List.mem_cons_of_mem _ h)
          have hnumber' : numberSign ∉ topic := fun h => hnumber (List.mem_cons_of_mem _ h)
          unfold acceptsRest
          split_ifs with hsame hwild
          · subst hsame
            have hhead : c = slash ∨
                (filter.head? ≠ some plusSign ∧ filter.head? ≠ some numberSign) :=
              head_of_placed hrest
            rw [decide_eq_true_eq, matches_cons_iff hfree.1 hfree.2 hhead]
            -- The two shortcuts of the source for a topic that is used up.
            by_cases hparent : topic = [] ∧ (filter = [slash, numberSign] ∨ filter = [plusSign])
            · refine iff_of_true (Or.inl hparent) ⟨?_, ?_⟩
              · rw [hparent.1]
                rcases hparent.2 with rfl | rfl
                · exact matches_parent
                · exact (matches_plus_iff (Or.inl rfl)).mpr (matches_nil_iff.mpr rfl)
              · rintro (⟨hnil, -⟩ | hstops)
                · exact absurd hnil (by simp)
                · rw [hparent.1] at hstops
                  exact not_stops_parent hfree.1 hparent.2 hstops
            · rw [or_iff_right hparent, ih hrest hplus' hnumber']
              refine and_congr_right fun hmatches => not_congr ?_
              rw [stops_cons_iff hfree.1 hfree.2 hrest hmatches hparent]
              simp
          · subst hwild
            obtain ⟨-, hend⟩ := hplusPlaced rfl
            rw [matches_plus_iff hend, ih hrest (fun h => hplus (afterLevel_subset h))
              (fun h => hnumber (afterLevel_subset h))]
            refine and_congr_right fun hmatches => not_congr ?_
            rw [stops_plus_iff hend hmatches]
            simp
          · rw [decide_eq_true_eq]
            by_cases hd : d = numberSign
            · subst hd
              obtain ⟨-, rfl⟩ := hnumberPlaced rfl
              refine iff_of_true rfl ⟨matches_number_sign _, ?_⟩
              rintro (⟨hnil, -⟩ | hstops)
              · exact absurd hnil (by simp)
              · exact not_stops_singleton hstops
            · exact iff_of_false hd fun h => not_matches_of_ne hsame hwild hd h.1

/-- There is no `#` before the end of a filter. -/
theorem number_sign_not_mem {start : Bool} {rest : List UInt8} (hrest : rest ≠ [])
    (h : WildCardsPlaced start (stem ++ rest)) : numberSign ∉ stem := by
  induction stem generalizing start with
  | nil => simp
  | cons c stem ih =>
      rw [List.mem_cons]
      rintro (hc | hmem)
      · have hnil := (h.2.1 hc.symm).2
        exact hrest (List.append_eq_nil_iff.mp hnil).2
      · exact ih h.2.2 hmem

theorem mem_of_mem_split {level : List UInt8} {bytes : List UInt8}
    (h : level ∈ bytes.splitOn slash) (hc : c ∈ level) : c ∈ bytes := by
  have hback : [slash].intercalate (bytes.splitOn slash) = bytes := List.intercalate_splitOn slash
  rw [← hback]
  generalize bytes.splitOn slash = levels at h
  induction levels with
  | nil => exact absurd h List.not_mem_nil
  | cons first levels ih =>
      cases levels with
      | nil =>
          rw [List.mem_singleton] at h
          subst h
          simpa using hc
      | cons second levels =>
          rw [List.intercalate_cons_cons]
          rcases List.mem_cons.mp h with rfl | h
          · simp [hc]
          · simp [ih h]

/-- Levels that match go on to match under a `#` with whatever follows. -/
theorem LevelsMatch.append {levels filterLevels : List (List UInt8)}
    (h : LevelsMatch levels filterLevels) (hnumber : [numberSign] ∉ filterLevels)
    (more : List (List UInt8)) :
    LevelsMatch (levels ++ more) (filterLevels ++ [[numberSign]]) := by
  induction h with
  | rest => exact absurd List.mem_cons_self hnumber
  | nil => exact .rest more
  | plus level _ ih => exact .plus level (ih fun h => hnumber (List.mem_cons_of_mem _ h))
  | same level _ ih => exact .same level (ih fun h => hnumber (List.mem_cons_of_mem _ h))

/-- What is missed matches by the rule. -/
theorem StopsAtNumberSign.topic_matches {start : Bool} (hplaced : WildCardsPlaced start filter)
    (h : StopsAtNumberSign topic filter) : TopicMatches topic filter := by
  obtain ⟨stem, rfl, hstops⟩ := h
  have hnumber : [numberSign] ∉ stem.splitOn slash := fun hmem =>
    number_sign_not_mem (List.cons_ne_nil _ _) hplaced (mem_of_mem_split hmem List.mem_cons_self)
  have hfilter : (stem ++ [slash, numberSign]).splitOn slash =
      stem.splitOn slash ++ [[numberSign]] := by
    rw [List.splitOn_append_cons_self, split_number_sign]
  unfold TopicMatches
  rw [hfilter]
  rcases hstops with ⟨begins, rfl, hmatch⟩ | ⟨-, hmatch⟩
  · rw [List.splitOn_append_cons_self]
    exact hmatch.append hnumber _
  · have h := hmatch.append hnumber []
    rwa [List.append_nil] at h

end Missed

/-- What is accepted is what matches by the rule and does not stop at a `#`. -/
theorem topic_match_accepts_iff {topic filter : List UInt8}
    (hvalid : prvGetTopicFilterType filter ≠ .invalid) (hne : topic ≠ [])
    (hplus : plusSign ∉ topic) (hnumber : numberSign ∉ topic) :
    prvDoesTopicMatchTopicFilter topic filter = true ↔
      TopicMatches topic filter ∧ ¬ StopsAtNumberSign topic filter := by
  rw [does_topic_match_iff hne, accepts_rest_iff (wild_cards_placed hvalid) hplus hnumber]
  refine and_congr_right fun _ => not_congr ?_
  exact or_iff_right fun h => hne h.1

/-- A topic is matched as the rule says, except where it stops at a `#`. -/
theorem topic_match_iff {topic filter : List UInt8}
    (hvalid : prvGetTopicFilterType filter ≠ .invalid) (hne : topic ≠ [])
    (hplus : plusSign ∉ topic) (hnumber : numberSign ∉ topic) :
    (prvDoesTopicMatchTopicFilter topic filter = true ↔ TopicMatches topic filter) ↔
      ¬ StopsAtNumberSign topic filter := by
  have hplaced := wild_cards_placed hvalid
  rw [topic_match_accepts_iff hvalid hne hplus hnumber]
  constructor
  · intro h hstops
    exact (h.mpr (hstops.topic_matches hplaced)).2 hstops
  · intro hstops
    exact and_iff_left hstops

/-- `a/b` matches `a/#`. -/
theorem topic_match_below_number_sign :
    (prvDoesTopicMatchTopicFilter [0x61, slash, 0x62] [0x61, slash, numberSign] = true ↔
      TopicMatches [0x61, slash, 0x62] [0x61, slash, numberSign]) := by
  refine (topic_match_iff (by decide) (by decide) (by decide) (by decide)).mpr ?_
  rintro ⟨stem, hfilter, hstops⟩
  have hstem : stem = [0x61] := by
    have h : [0x61] ++ [slash, numberSign] = stem ++ [slash, numberSign] := hfilter
    exact (List.append_cancel_right h).symm
  subst hstem
  rcases hstops with ⟨begins, htopic, -⟩ | ⟨hlast, -⟩
  · have h := congrArg List.getLast? htopic
    rw [List.getLast?_concat] at h
    exact absurd h (by decide)
  · exact absurd hlast (by decide)

/-- `a/` matches `a/#` by the rule, as `#` stands for an empty level too, but is not accepted. -/
theorem topic_match_missed :
    prvGetTopicFilterType [0x61, slash, numberSign] ≠ .invalid ∧
      ¬ (prvDoesTopicMatchTopicFilter [0x61, slash] [0x61, slash, numberSign] = true ↔
        TopicMatches [0x61, slash] [0x61, slash, numberSign]) := by
  refine ⟨by decide, fun h => ?_⟩
  have hmatches : TopicMatches [0x61, slash] [0x61, slash, numberSign] := by
    unfold TopicMatches
    rw [show [0x61, slash] = [0x61] ++ slash :: [] from rfl,
      show [0x61, slash, numberSign] = [0x61] ++ slash :: [numberSign] from rfl,
      List.splitOn_append_cons_self_of_not_mem (by decide),
      List.splitOn_append_cons_self_of_not_mem (by decide),
      List.splitOn_eq_singleton (show slash ∉ [numberSign] by decide)]
    exact .same _ (.rest _)
  exact absurd (h.mpr hmatches) (by decide)

end TivaAws.Mqtt
