import TivaAws.Mqtt.TopicMatch

/-!
# The type of a topic filter, level by level

`prvGetTopicFilterType` looks at one byte and its two neighbours at a time. Level by level it says
that a wild card is alone in its level and that `#` comes last (`topic_filter_type_exact`), and it
reads nothing outside the filter.
-/

namespace TivaAws.Mqtt

/-! ## The grammar -/

/-- Some level has a wild card together with other bytes, or a `#` although it is not the last. -/
def WildCardMisplaced (levels : List (List UInt8)) : Prop :=
  (∃ level ∈ levels, plusSign ∈ level ∧ level ≠ [plusSign] ∨
    numberSign ∈ level ∧ level ≠ [numberSign]) ∨
    ∃ level ∈ levels.dropLast, numberSign ∈ level

/-- Some level is a wild card. -/
def HasWildCardLevel (levels : List (List UInt8)) : Prop :=
  [plusSign] ∈ levels ∨ [numberSign] ∈ levels

/-- Every wild card is alone in its level, and no level follows a `#`. -/
def LevelsPlaced : List (List UInt8) → Prop
  | [] => True
  | level :: rest =>
      (plusSign ∈ level → level = [plusSign]) ∧
        (numberSign ∈ level → level = [numberSign] ∧ rest = []) ∧ LevelsPlaced rest

section Levels

variable {c : UInt8} {filter level : List UInt8} {levels : List (List UInt8)} {start : Bool}

theorem levels_placed_iff : LevelsPlaced levels ↔ ¬ WildCardMisplaced levels := by
  induction levels with
  | nil => simp [LevelsPlaced, WildCardMisplaced]
  | cons level rest ih =>
      constructor
      · rintro ⟨hplus, hnumber, hrest⟩ (⟨other, hother, hmixed⟩ | ⟨other, hother, hmem⟩)
        · rcases List.mem_cons.mp hother with rfl | hother
          · rcases hmixed with ⟨hmem, hne⟩ | ⟨hmem, hne⟩
            · exact hne (hplus hmem)
            · exact hne (hnumber hmem).1
          · exact ih.mp hrest (Or.inl ⟨other, hother, hmixed⟩)
        · cases rest with
          | nil => exact absurd hother List.not_mem_nil
          | cons next rest =>
              rw [List.dropLast_cons_of_ne_nil (List.cons_ne_nil _ _)] at hother
              rcases List.mem_cons.mp hother with rfl | hother
              · exact absurd (hnumber hmem).2 (List.cons_ne_nil _ _)
              · exact ih.mp hrest (Or.inr ⟨other, hother, hmem⟩)
      · intro h
        refine ⟨?_, ?_, ih.mpr ?_⟩
        · intro hmem
          by_contra hne
          exact h (Or.inl ⟨level, List.mem_cons_self, Or.inl ⟨hmem, hne⟩⟩)
        · intro hmem
          refine ⟨?_, ?_⟩
          · by_contra hne
            exact h (Or.inl ⟨level, List.mem_cons_self, Or.inr ⟨hmem, hne⟩⟩)
          · by_contra hne
            refine h (Or.inr ⟨level, ?_, hmem⟩)
            rw [List.dropLast_cons_of_ne_nil hne]
            exact List.mem_cons_self
        · rintro (⟨other, hother, hmixed⟩ | ⟨other, hother, hmem⟩)
          · exact h (Or.inl ⟨other, List.mem_cons_of_mem _ hother, hmixed⟩)
          · refine h (Or.inr ⟨other, ?_, hmem⟩)
            have hne : rest ≠ [] := by
              rintro rfl
              exact absurd hother List.not_mem_nil
            rw [List.dropLast_cons_of_ne_nil hne]
            exact List.mem_cons_of_mem _ hother

/-! ## Bytes and levels -/

/-- The first level is empty exactly where the filter ends or a separator comes. -/
theorem first_level_empty_iff (h : filter.splitOn slash = level :: levels) :
    (filter = [] ∨ filter.head? = some slash) ↔ level = [] := by
  cases filter with
  | nil =>
      rw [List.splitOn_nil] at h
      cases h
      exact iff_of_true (Or.inl rfl) rfl
  | cons d filter =>
      by_cases hd : d = slash
      · subst hd
        rw [split_cons_slash] at h
        cases h
        exact iff_of_true (Or.inr rfl) rfl
      · obtain ⟨first, rest, -, hsplit⟩ := split_cons hd filter
        rw [hsplit] at h
        cases h
        refine iff_of_false ?_ (List.cons_ne_nil _ _)
        simpa using hd

/-- Only the empty filter has one empty level. -/
theorem single_level_empty_iff (h : filter.splitOn slash = level :: levels) :
    filter = [] ↔ level = [] ∧ levels = [] := by
  constructor
  · rintro rfl
    rw [List.splitOn_nil] at h
    cases h
    exact ⟨rfl, rfl⟩
  · rintro ⟨rfl, rfl⟩
    exact split_eq_nil_singleton h

/-- The placement of wild cards byte by byte and level by level; where a level has begun before, it
must have no wild card. -/
theorem wild_cards_placed_iff (h : filter.splitOn slash = level :: levels) :
    WildCardsPlaced start filter ↔
      (if start then LevelsPlaced (level :: levels)
      else plusSign ∉ level ∧ numberSign ∉ level ∧ LevelsPlaced levels) := by
  induction filter generalizing start level levels with
  | nil =>
      rw [List.splitOn_nil] at h
      cases h
      cases start <;> simp [WildCardsPlaced, LevelsPlaced]
  | cons d filter ih =>
      obtain ⟨next, rest, hnext⟩ := List.exists_cons_of_ne_nil (List.splitOn_ne_nil slash filter)
      by_cases hd : d = slash
      · subst hd
        rw [split_cons_slash] at h
        cases h
        have hih : WildCardsPlaced true filter ↔ LevelsPlaced (next :: rest) := ih hnext
        rw [← hnext] at hih
        have hstep : WildCardsPlaced start (slash :: filter) ↔
            WildCardsPlaced true filter := by
          simp [WildCardsPlaced, show slash ≠ plusSign by decide,
            show slash ≠ numberSign by decide]
        rw [hstep, hih]
        cases start <;> simp [LevelsPlaced]
      · obtain ⟨first, others, hfirst, hsplit⟩ := split_cons hd filter
        rw [hsplit] at h
        cases h
        have hih : WildCardsPlaced false filter ↔
            plusSign ∉ first ∧ numberSign ∉ first ∧ LevelsPlaced levels := ih hfirst
        unfold WildCardsPlaced
        rw [first_level_empty_iff hfirst, single_level_empty_iff hfirst, decide_eq_false hd, hih]
        have hdistinct : plusSign ≠ numberSign := by decide
        by_cases hplus : d = plusSign
        · subst hplus
          cases start with
          | true =>
              show _ ↔ LevelsPlaced ((plusSign :: first) :: levels)
              simp only [LevelsPlaced]
              grind
          | false => grind
        · by_cases hnumber : d = numberSign
          · subst hnumber
            cases start with
            | true =>
                show _ ↔ LevelsPlaced ((numberSign :: first) :: levels)
                simp only [LevelsPlaced]
                grind
            | false => grind
          · cases start with
            | true =>
                show _ ↔ LevelsPlaced ((d :: first) :: levels)
                simp only [LevelsPlaced]
                grind
            | false => grind

/-- Where the wild cards are placed well, the loop says whether there are any. -/
theorem topic_filter_type_loop_placed {rounds x : Nat} {filterType : MQTTTopicFilterType}
    (hrounds : filter.length ≤ x + rounds)
    (h : WildCardsPlaced (startsLevel filter x) (filter.drop x)) :
    topicFilterTypeLoop filter rounds x filterType =
      if plusSign ∈ filter.drop x ∨ numberSign ∈ filter.drop x then .wildCard else filterType := by
  induction rounds generalizing x filterType with
  | zero =>
      rw [List.drop_eq_nil_of_le (by omega)]
      simp [topicFilterTypeLoop]
  | succ rounds ih =>
      unfold topicFilterTypeLoop
      by_cases hx : x < filter.length
      · rw [if_pos hx]
        rw [drop_eq_cons hx] at h
        obtain ⟨hplus, hnumber, hrest⟩ := h
        rw [← starts_level_succ] at hrest
        have hlater := fun filterType => @ih (x + 1) filterType (by omega) hrest
        rw [drop_eq_cons hx]
        by_cases hc : filter.getD x 0 = plusSign
        · obtain ⟨hstart, hend⟩ := hplus hc
          have hnext : x + 1 = filter.length ∨ filter.getD (x + 1) 0 = slash := by
            rcases hend with hnil | hslash
            · left
              have hle := List.drop_eq_nil_iff.mp hnil
              omega
            · right
              have hlt : x + 1 < filter.length := by
                by_contra hge
                rw [List.drop_eq_nil_of_le (Nat.le_of_not_lt hge)] at hslash
                cases hslash
              rw [drop_eq_cons hlt] at hslash
              exact Option.some.inj hslash
          rw [if_pos hc, if_pos (of_decide_eq_true hstart), if_pos hnext,
            hlater .wildCard, ite_self, if_pos (Or.inl (hc ▸ List.mem_cons_self))]
        · rw [if_neg hc]
          by_cases hc' : filter.getD x 0 = numberSign
          · obtain ⟨hstart, hnil⟩ := hnumber hc'
            have hlast : x + 1 = filter.length := by
              have hle := List.drop_eq_nil_iff.mp hnil
              omega
            rw [if_pos hc', if_pos (of_decide_eq_true hstart), if_pos hlast,
              if_pos (Or.inr (hc' ▸ List.mem_cons_self))]
          · rw [if_neg hc', hlater filterType]
            simp only [List.mem_cons, Ne.symm hc, Ne.symm hc', false_or]
      · rw [if_neg hx, List.drop_eq_nil_of_le (Nat.le_of_not_lt hx)]
        simp

theorem topic_filter_type_placed (h : WildCardsPlaced true filter) :
    prvGetTopicFilterType filter =
      if plusSign ∈ filter ∨ numberSign ∈ filter then .wildCard else .simple :=
  topic_filter_type_loop_placed (x := 0) (by omega) h

/-- Every byte that is no separator is in a level. -/
theorem mem_level_of_mem (hc : c ≠ slash) (h : c ∈ filter) :
    ∃ level ∈ filter.splitOn slash, c ∈ level := by
  induction filter with
  | nil => exact absurd h List.not_mem_nil
  | cons d filter ih =>
      by_cases hd : d = slash
      · subst hd
        rw [split_cons_slash]
        obtain ⟨level, hlevel, hmem⟩ := ih ((List.mem_cons.mp h).resolve_left hc)
        exact ⟨level, List.mem_cons_of_mem _ hlevel, hmem⟩
      · obtain ⟨first, rest, hfirst, hsplit⟩ := split_cons hd filter
        rw [hsplit]
        rcases List.mem_cons.mp h with rfl | h
        · exact ⟨_, List.mem_cons_self, List.mem_cons_self⟩
        · obtain ⟨level, hlevel, hmem⟩ := ih h
          rw [hfirst] at hlevel
          rcases List.mem_cons.mp hlevel with rfl | hlevel
          · exact ⟨_, List.mem_cons_self, List.mem_cons_of_mem _ hmem⟩
          · exact ⟨level, List.mem_cons_of_mem _ hlevel, hmem⟩

/-- Where wild cards are alone in their levels, there is one exactly if a level is one. -/
theorem has_wild_card_iff (h : ¬ WildCardMisplaced (filter.splitOn slash)) :
    (plusSign ∈ filter ∨ numberSign ∈ filter) ↔ HasWildCardLevel (filter.splitOn slash) := by
  have halone : ∀ level ∈ filter.splitOn slash,
      (plusSign ∈ level → level = [plusSign]) ∧ (numberSign ∈ level → level = [numberSign]) := by
    intro level hlevel
    refine ⟨fun hmem => ?_, fun hmem => ?_⟩
    · by_contra hne
      exact h (Or.inl ⟨level, hlevel, Or.inl ⟨hmem, hne⟩⟩)
    · by_contra hne
      exact h (Or.inl ⟨level, hlevel, Or.inr ⟨hmem, hne⟩⟩)
  constructor
  · rintro (hmem | hmem)
    · obtain ⟨level, hlevel, hin⟩ := mem_level_of_mem (by decide) hmem
      exact Or.inl ((halone level hlevel).1 hin ▸ hlevel)
    · obtain ⟨level, hlevel, hin⟩ := mem_level_of_mem (by decide) hmem
      exact Or.inr ((halone level hlevel).2 hin ▸ hlevel)
  · rintro (hlevel | hlevel)
    · exact Or.inl (mem_of_mem_split hlevel List.mem_cons_self)
    · exact Or.inr (mem_of_mem_split hlevel List.mem_cons_self)

end Levels

/-! ## Reading the filter -/

/-- Whether the byte at an index is the separator; `none` if there is no such byte. -/
def readsSlash (filter : List UInt8) (x : Nat) : Option Bool :=
  filter[x]?.map fun c => decide (c = slash)

/-- The test for the start of a level, which reads the byte before if there is one. -/
def readsLevelStart (filter : List UInt8) (x : Nat) : Option Bool :=
  if x = 0 then some true else readsSlash filter (x - 1)

/-- The test for the end of a level, which reads the byte after if there is one. -/
def readsLevelEnd (filter : List UInt8) (x : Nat) : Option Bool :=
  if x + 1 = filter.length then some true else readsSlash filter (x + 1)

/-- The loop of `prvGetTopicFilterType` with every read checked: `none` if one is outside the
filter. -/
def checkedTopicFilterTypeLoop (filter : List UInt8) :
    Nat → Nat → MQTTTopicFilterType → Option MQTTTopicFilterType
  | 0, _, filterType => some filterType
  | rounds + 1, x, filterType =>
      if x < filter.length then do
        let c ← filter[x]?
        if c = plusSign then
          let starts ← readsLevelStart filter x
          if starts then
            let ends ← readsLevelEnd filter x
            if ends then checkedTopicFilterTypeLoop filter rounds (x + 1) .wildCard
            else some .invalid
          else some .invalid
        else if c = numberSign then
          let starts ← readsLevelStart filter x
          if starts then
            if x + 1 = filter.length then some .wildCard else some .invalid
          else some .invalid
        else checkedTopicFilterTypeLoop filter rounds (x + 1) filterType
      else some filterType

section Reads

variable {filter : List UInt8} {x : Nat}

theorem reads_slash (hx : x < filter.length) :
    readsSlash filter x = some (decide (filter.getD x 0 = slash)) := by
  unfold readsSlash
  rw [List.getD_eq_getElem?_getD, List.getElem?_eq_getElem hx]
  rfl

theorem reads_level_start (hx : x < filter.length) :
    readsLevelStart filter x = some (decide (x = 0 ∨ filter.getD (x - 1) 0 = slash)) := by
  unfold readsLevelStart
  by_cases hzero : x = 0
  · simp [hzero]
  · rw [if_neg hzero, reads_slash (by omega)]
    simp [hzero]

theorem reads_level_end (hx : x < filter.length) :
    readsLevelEnd filter x =
      some (decide (x + 1 = filter.length ∨ filter.getD (x + 1) 0 = slash)) := by
  unfold readsLevelEnd
  by_cases hlast : x + 1 = filter.length
  · simp [hlast]
  · rw [if_neg hlast, reads_slash (by omega)]
    simp [hlast]

/-- No read is outside the filter. -/
theorem checked_topic_filter_type_loop (filter : List UInt8) (rounds x : Nat)
    (filterType : MQTTTopicFilterType) :
    checkedTopicFilterTypeLoop filter rounds x filterType =
      some (topicFilterTypeLoop filter rounds x filterType) := by
  induction rounds generalizing x filterType with
  | zero => rfl
  | succ rounds ih =>
      unfold checkedTopicFilterTypeLoop topicFilterTypeLoop
      by_cases hx : x < filter.length
      · have hread : filter[x]? = some (filter.getD x 0) := by
          rw [List.getD_eq_getElem?_getD, List.getElem?_eq_getElem hx]
          rfl
        simp only [if_pos hx, hread, reads_level_start hx, reads_level_end hx,
          Option.bind_eq_bind, Option.bind_some, decide_eq_true_eq, ih]
        simp only [apply_ite some]
      · rw [if_neg hx, if_neg hx]

end Reads

/-- A filter is invalid exactly if a level has a wild card together with other bytes or a `#` before
the last level; otherwise it has the type WildCard exactly if a level is a wild card, and Simple if
none is. No read is outside the filter. -/
theorem topic_filter_type_exact (filter : List UInt8) :
    (prvGetTopicFilterType filter = .invalid ↔ WildCardMisplaced (filter.splitOn slash)) ∧
    (prvGetTopicFilterType filter = .wildCard ↔
      ¬ WildCardMisplaced (filter.splitOn slash) ∧ HasWildCardLevel (filter.splitOn slash)) ∧
    (prvGetTopicFilterType filter = .simple ↔
      ¬ WildCardMisplaced (filter.splitOn slash) ∧ ¬ HasWildCardLevel (filter.splitOn slash)) ∧
    checkedTopicFilterTypeLoop filter filter.length 0 .simple =
      some (prvGetTopicFilterType filter) := by
  have hplaced : WildCardsPlaced true filter ↔ ¬ WildCardMisplaced (filter.splitOn slash) := by
    obtain ⟨level, levels, hsplit⟩ := List.exists_cons_of_ne_nil (List.splitOn_ne_nil slash filter)
    rw [wild_cards_placed_iff hsplit, if_pos rfl, levels_placed_iff, hsplit]
  have hchecked := checked_topic_filter_type_loop filter filter.length 0 .simple
  by_cases hmisplaced : WildCardMisplaced (filter.splitOn slash)
  · have hinvalid : prvGetTopicFilterType filter = .invalid := by
      by_contra hvalid
      exact hplaced.mp (wild_cards_placed hvalid) hmisplaced
    refine ⟨iff_of_true hinvalid hmisplaced, ?_, ?_, hchecked⟩
    · rw [hinvalid]
      exact iff_of_false MQTTTopicFilterType.noConfusion fun h => h.1 hmisplaced
    · rw [hinvalid]
      exact iff_of_false MQTTTopicFilterType.noConfusion fun h => h.1 hmisplaced
  · have htype := topic_filter_type_placed (hplaced.mpr hmisplaced)
    rw [and_iff_right hmisplaced, and_iff_right hmisplaced, ← has_wild_card_iff hmisplaced]
    by_cases hwild : plusSign ∈ filter ∨ numberSign ∈ filter
    · rw [if_pos hwild] at htype
      refine ⟨?_, iff_of_true htype hwild, ?_, hchecked⟩
      · rw [htype]
        exact iff_of_false MQTTTopicFilterType.noConfusion hmisplaced
      · rw [htype]
        exact iff_of_false MQTTTopicFilterType.noConfusion (not_not.mpr hwild)
    · rw [if_neg hwild] at htype
      refine ⟨?_, ?_, iff_of_true htype hwild, hchecked⟩
      · rw [htype]
        exact iff_of_false MQTTTopicFilterType.noConfusion hmisplaced
      · rw [htype]
        exact iff_of_false MQTTTopicFilterType.noConfusion hwild

/-- `a/+/#` has wild cards, `a/b` has none, and `a+` is invalid. -/
example : prvGetTopicFilterType [0x61, slash, plusSign, slash, numberSign] = .wildCard ∧
    prvGetTopicFilterType [0x61, slash, 0x62] = .simple ∧
    prvGetTopicFilterType [0x61, plusSign] = .invalid := by decide

end TivaAws.Mqtt
