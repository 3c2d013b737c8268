import TivaAws.Shadow.Registered
import TivaAws.Shadow.TopicStrings

/-!
# Searching the callback catalog

`prvMatchCallbackTopic` compares a topic with those of the registered Things over the longer of two
lengths, and with an old buffer where a topic does not fit. So what lies behind the topic, or on the
stack, can decide whether a callback is called. `Decided` describes the catalogs and topics for
which it does not, and for which the right callback is found (`dispatched_exactly_iff`).
-/

namespace TivaAws.Shadow

open ByteMemory

/-! ## What the search should do -/

/-- What the search returns. -/
abbrev MatchResult := Option (CallbackCatalogEntry × ShadowOperationName)

/-- What the search can return for a topic, whatever lies behind it and on the stack. -/
def CanMatch (catalog : List CallbackCatalogEntry) (topic : List UInt8) (result : MatchResult) :
    Prop :=
  ∃ (environment : Environment) (client : ShadowClient) (received : ByteMemory),
    client.callbackCatalog = catalog ∧ received.readBytes 0 topic.length = topic ∧
      prvMatchCallbackTopic environment client received topic.length = result

/-- A callback is found for exactly the registered Thing and callback whose topic it is, and nothing
but the catalog and the topic decides. -/
structure DispatchedExactly (catalog : List CallbackCatalogEntry) (topic : List UInt8)
    (Can : MatchResult → Prop) : Prop where
  exact : ∀ result, Can result → ∀ (kind : CallbackKind) (name : List UInt8),
    (∃ entry, result = some (entry, kind.operationName) ∧ entry.thingName.bytes = name) ↔
      topic = kind.topic name ∧ ∃ entry ∈ catalog, entry.isFor name = true
  same : ∀ result result', Can result → Can result' → result = result'

/-- A comparison of a string with a topic over the length of the topic finds no difference. -/
def Meets (string topic : List UInt8) : Prop :=
  topic <+: string ++ [0] ∨ string ++ [0] <+: topic

/-- For a topic that begins with the prefix of an entry, the topics of the entry decide. -/
structure DecidedBy (topic begun : List UInt8) (entry : CallbackCatalogEntry)
    (rest : List CallbackCatalogEntry) : Prop where
  made : ∀ (kind : CallbackKind) (created : List UInt8),
    createdTopic kind.suffix entry.thingName = some created → Meets created topic → topic = created
  unmade : ∀ kind : CallbackKind, createdTopic kind.suffix entry.thingName = none →
    ¬ Meets begun topic
  own : ∀ kind : CallbackKind, createdTopic kind.suffix entry.thingName = some topic →
    topic = kind.topic entry.thingName.bytes
  others : ∀ (kind : CallbackKind), ∀ other ∈ entry :: rest, other.inUse = true →
    topic = kind.topic other.thingName.bytes →
      createdTopic kind.suffix entry.thingName = some topic ∧
        other.thingName.bytes = entry.thingName.bytes

/-- The catalogs for which the topic alone decides. The flag tells whether the prefix of an earlier
Thing is in the buffer. -/
inductive Decided (topic : List UInt8) : Bool → List CallbackCatalogEntry → Prop where
  | nil {filled : Bool} : Decided topic filled []
  | unused {filled : Bool} {entry : CallbackCatalogEntry} {rest : List CallbackCatalogEntry} :
      entry.inUse = false → Decided topic filled rest → Decided topic filled (entry :: rest)
  | passed {filled : Bool} {entry : CallbackCatalogEntry} {rest : List CallbackCatalogEntry}
      {begun : List UInt8} : entry.inUse = true → createdTopic [] entry.thingName = some begun →
      ¬ begun <+: topic → ¬ topic <+: begun → Decided topic true rest →
      Decided topic filled (entry :: rest)
  | found {filled : Bool} {entry : CallbackCatalogEntry} {rest : List CallbackCatalogEntry}
      {begun : List UInt8} : entry.inUse = true → createdTopic [] entry.thingName = some begun →
      begun <+: topic → DecidedBy topic begun entry rest → Decided topic filled (entry :: rest)
  | tooLong {entry : CallbackCatalogEntry} {rest : List CallbackCatalogEntry} :
      entry.inUse = true → createdTopic [] entry.thingName = none →
      (∀ (kind : CallbackKind), ∀ other ∈ entry :: rest, other.inUse = true →
        topic ≠ kind.topic other.thingName.bytes) →
      Decided topic true (entry :: rest)

/-! ## Comparisons -/

section Compare

variable {topic string begun : List UInt8} {received buffer : ByteMemory} {kind : CallbackKind}
  {name : CString}

/-- A buffer with a string in it. -/
structure HoldsString (buffer : ByteMemory) (string : List UInt8) : Prop where
  no_nul : 0 ∉ string
  bytes : buffer.readBytes 0 (string.length + 1) = string ++ [0]

theorem holds_created {suffix : List UInt8} (hsuffix : TopicSuffix suffix)
    (h : createdTopic suffix name = some string) (buffer : ByteMemory) :
    HoldsString (buffer.writeBytes 0 (string ++ [0])) string :=
  ⟨(created_topic_string hsuffix h).1, string_in_buffer buffer⟩

theorem suffix_callback (kind : CallbackKind) : TopicSuffix kind.suffix := by
  constructor <;> cases kind <;> decide

/-- What a memory holds that begins with a topic. -/
theorem readBytes_of_begins (hreceived : received.readBytes 0 topic.length = topic) {count : Nat}
    (hcount : count ≤ topic.length) : received.readBytes 0 count = topic.take count := by
  have htake := take_readBytes received 0 hcount
  rw [hreceived] at htake
  exact htake.symm

/-- A string in the buffer is compared with the topic alone. -/
theorem compare_stale (hstring : HoldsString buffer string)
    (hreceived : received.readBytes 0 topic.length = topic) :
    strncmp buffer received 0 topic.length = true ↔ Meets string topic := by
  have hlength : (string ++ [0]).length = string.length + 1 := by
    rw [List.length_append, List.length_singleton]
  have htake : (string ++ [0]).take topic.length =
      (string ++ [0]).take (min topic.length (string.length + 1)) := by
    rw [← hlength]
    exact List.take_eq_take_min
  rw [strncmp_string hstring.no_nul hstring.bytes, Meets, ← take_min_eq_iff, hlength,
    Nat.min_comm (string.length + 1), readBytes_of_begins hreceived (Nat.min_le_left _ _), htake]

/-- A created topic is compared with the topic and with what lies behind it. -/
theorem compare_made (hnul : 0 ∉ string) (buffer : ByteMemory)
    (hreceived : received.readBytes 0 topic.length = topic) :
    strncmp (buffer.writeBytes 0 (string ++ [0])) received 0 (max string.length topic.length) =
        true ↔
      topic <+: string ∧ received.readBytes 0 string.length = string ∨ string ++ [0] <+: topic := by
  rcases Nat.lt_or_ge string.length topic.length with hlt | hge
  · have hbeyond : ¬ topic <+: string := fun h => Nat.not_lt.mpr h.length_le hlt
    rw [Nat.max_eq_right (Nat.le_of_lt hlt), strncmp_beyond hnul buffer hlt,
      readBytes_of_begins hreceived hlt, or_iff_right fun h => hbeyond h.1,
        @eq_comm _ _ (string ++ [0]),
      @List.prefix_iff_eq_take _ (string ++ [0]), List.length_append, List.length_singleton]
  · have hwithin := @strncmp_within received string hnul buffer _ (Nat.le_refl _)
    rw [List.take_length] at hwithin
    rw [Nat.max_eq_left hge, hwithin]
    constructor
    · intro hread
      refine Or.inl ⟨?_, hread⟩
      have htake := take_readBytes received 0 hge
      rw [hread, hreceived] at htake
      rw [← htake]
      exact List.take_prefix _ _
    · intro h
      refine (h.resolve_right fun hnot => ?_).2
      have hle := hnot.length_le
      rw [List.length_append, List.length_singleton] at hle
      omega

/-- Strings that meet begin alike. -/
theorem Meets.comparable (h : Meets string topic) : string <+: topic ∨ topic <+: string := by
  rcases h with hends | hbegins
  · exact List.prefix_or_prefix_of_prefix (List.prefix_append _ _) hends
  · exact Or.inl ((List.prefix_append _ _).trans hbegins)

/-- The buffer holds a string that does not meet the topic. -/
def Stale (topic : List UInt8) (buffer : ByteMemory) : Prop :=
  ∃ string, HoldsString buffer string ∧ ¬ Meets string topic

/-- The comparison with the topic of a callback. -/
def compareKind (kind : CallbackKind) (name : CString) (received : ByteMemory) (length : Nat)
    (buffer : ByteMemory) : Bool × ByteMemory :=
  compareTopic kind.topicFormat name received (max · length) buffer

theorem compare_kind_some {created : List UInt8} (h : createdTopic kind.suffix name = some created)
    (received : ByteMemory) (length : Nat) (buffer : ByteMemory) :
    compareKind kind name received length buffer =
      (strncmp (buffer.writeBytes 0 (created ++ [0])) received 0 (max created.length length),
        buffer.writeBytes 0 (created ++ [0])) := by
  rw [compareKind, callback_topic_format, compare_topic_some (suffix_callback kind) h]

theorem compare_kind_none (h : createdTopic kind.suffix name = none) (received : ByteMemory)
    (length : Nat) (buffer : ByteMemory) :
    compareKind kind name received length buffer = (strncmp buffer received 0 length, buffer) := by
  rw [compareKind, callback_topic_format, compare_topic_none (suffix_callback kind) h, Nat.zero_max]

/-- The three comparisons, in their order. -/
theorem match_operation_kinds (name : CString) (received : ByteMemory) (length : Nat)
    (buffer : ByteMemory) :
    matchOperation name received length buffer =
      let documents := compareKind .updated name received length buffer
      if documents.1 then CallbackKind.updated.operationName
      else
        let delta := compareKind .delta name received length documents.2
        if delta.1 then CallbackKind.delta.operationName
        else
          let deleted := compareKind .deleted name received length delta.2
          if deleted.1 then CallbackKind.deleted.operationName else .other := rfl

/-- Where the topic decides, a comparison succeeds for the topic of the callback only, and leaves a
string in the buffer that does not meet the topic. -/
theorem compare_kind_decided
    (hmade : ∀ created, createdTopic kind.suffix name = some created → Meets created topic →
      topic = created)
    (hunmade : createdTopic kind.suffix name = none → Stale topic buffer)
    (hreceived : received.readBytes 0 topic.length = topic) :
    ((compareKind kind name received topic.length buffer).1 = true ↔
        createdTopic kind.suffix name = some topic) ∧
      ((compareKind kind name received topic.length buffer).1 = false →
        Stale topic (compareKind kind name received topic.length buffer).2) := by
  cases hcreated : createdTopic kind.suffix name with
  | some created =>
      have hholds := holds_created (suffix_callback kind) hcreated buffer
      rw [compare_kind_some hcreated]
      simp only
      have hcompare : strncmp (buffer.writeBytes 0 (created ++ [0])) received 0
          (max created.length topic.length) = true ↔ some created = some topic := by
        rw [compare_made hholds.no_nul buffer hreceived]
        constructor
        · intro h
          have hmeets : Meets created topic :=
            h.imp (fun hwithin => hwithin.1.trans (List.prefix_append _ _)) id
          rw [hmade created hcreated hmeets]
        · intro heq
          cases heq
          exact Or.inl ⟨List.prefix_rfl, hreceived⟩
      refine ⟨hcompare, fun hdiffers => ⟨created, hholds, fun hmeets => ?_⟩⟩
      have hequal := hcompare.mpr (by rw [hmade created hcreated hmeets])
      rw [hdiffers] at hequal
      cases hequal
  | none =>
      obtain ⟨string, hstring, hmeets⟩ := hunmade hcreated
      rw [compare_kind_none hcreated]
      simp only
      have hcompare := mt (compare_stale hstring hreceived).mp hmeets
      exact ⟨iff_of_false hcompare fun h => (by cases h), fun _ => ⟨string, hstring, hmeets⟩⟩

end Compare

/-! ## Searches that the topic decides -/

/-- The operation whose topic for a Thing has been received. -/
def callbackOf (topic : List UInt8) (name : CString) : ShadowOperationName :=
  if createdTopic CallbackKind.updated.suffix name = some topic then .updateDocuments
  else if createdTopic CallbackKind.delta.suffix name = some topic then .updateDelta
  else if createdTopic CallbackKind.deleted.suffix name = some topic then .deletedByAnother
  else .other

/-- The result of a search that looks at nothing but the catalog and the topic. -/
def expectedMatch (topic : List UInt8) : List CallbackCatalogEntry → MatchResult
  | [] => none
  | entry :: rest =>
      if entry.inUse then
        match createdTopic [] entry.thingName with
        | none => some (entry, .other)
        | some begun =>
            if begun <+: topic then some (entry, callbackOf topic entry.thingName)
            else expectedMatch topic rest
      else expectedMatch topic rest

section Sufficient

variable {topic begun : List UInt8} {received buffer : ByteMemory} {kind kind' : CallbackKind}
  {name : CString} {entry : CallbackCatalogEntry} {rest catalog : List CallbackCatalogEntry}
  {filled : Bool}

/-- Different callbacks have different topics. -/
theorem created_kind_inj (h : createdTopic kind.suffix name = some topic)
    (h' : createdTopic kind'.suffix name = some topic) : kind = kind' := by
  obtain ⟨-, rfl⟩ := created_topic_some h
  obtain ⟨-, heq⟩ := created_topic_some h'
  exact (@callback_topic_inj kind kind' _ _ heq).1

theorem callback_of_iff :
    callbackOf topic name = kind.operationName ↔ createdTopic kind.suffix name = some topic := by
  unfold callbackOf
  split_ifs with hupdated hdelta hdeleted
  · constructor
    · intro h
      cases kind with
      | updated => exact hupdated
      | _ => cases h
    · intro h
      rw [created_kind_inj h hupdated]
      rfl
  · constructor
    · intro h
      cases kind with
      | delta => exact hdelta
      | _ => cases h
    · intro h
      rw [created_kind_inj h hdelta]
      rfl
  · constructor
    · intro h
      cases kind with
      | deleted => exact hdeleted
      | _ => cases h
    · intro h
      rw [created_kind_inj h hdeleted]
      rfl
  · cases kind with
    | updated => exact iff_of_false (fun h => (by cases h)) hupdated
    | deleted => exact iff_of_false (fun h => (by cases h)) hdeleted
    | delta => exact iff_of_false (fun h => (by cases h)) hdelta

/-- If the prefix in the buffer, or something else that does not meet the topic, stands for the
topics that do not fit, the operation is the one whose topic it is. -/
theorem match_operation_decided
    (hmade : ∀ (kind : CallbackKind) (created : List UInt8),
      createdTopic kind.suffix name = some created → Meets created topic → topic = created)
    (hunmade : ∀ kind : CallbackKind, createdTopic kind.suffix name = none → Stale topic buffer)
    (hreceived : received.readBytes 0 topic.length = topic) :
    matchOperation name received topic.length buffer = callbackOf topic name := by
  obtain ⟨hdocuments, hstale⟩ := compare_kind_decided (hmade .updated) (hunmade .updated) hreceived
  rw [match_operation_kinds]
  simp only
  unfold callbackOf
  rw [if_congr hdocuments rfl rfl]
  by_cases hupdated : createdTopic CallbackKind.updated.suffix name = some topic
  · rw [if_pos hupdated, if_pos hupdated]
    rfl
  rw [if_neg hupdated, if_neg hupdated]
  have hbuffer := hstale (Bool.eq_false_iff.mpr (mt hdocuments.mp hupdated))
  obtain ⟨hdelta, hstale'⟩ := compare_kind_decided (hmade .delta) (fun _ => hbuffer) hreceived
  rw [if_congr hdelta rfl rfl]
  by_cases hdelta' : createdTopic CallbackKind.delta.suffix name = some topic
  · rw [if_pos hdelta', if_pos hdelta']
    rfl
  rw [if_neg hdelta', if_neg hdelta']
  have hbuffer' := hstale' (Bool.eq_false_iff.mpr (mt hdelta.mp hdelta'))
  obtain ⟨hdeleted, -⟩ := compare_kind_decided (hmade .deleted) (fun _ => hbuffer') hreceived
  rw [if_congr hdeleted rfl rfl]
  rfl

theorem begins_of_read (hreceived : received.readBytes 0 topic.length = topic)
    (hread : received.readBytes 0 begun.length = begun) : begun <+: topic ∨ topic <+: begun := by
  rcases Nat.le_total begun.length topic.length with hle | hle
  · have htake := readBytes_of_begins hreceived hle
    rw [hread] at htake
    exact Or.inl (htake ▸ List.take_prefix _ _)
  · have htake := take_readBytes received 0 hle
    rw [hread, hreceived] at htake
    exact Or.inr (htake ▸ List.take_prefix _ _)

/-- A longer topic than one that does not fit does not fit. -/
theorem created_topic_longer {suffix suffix' : List UInt8}
    (hlength : suffix.length ≤ suffix'.length) (h : createdTopic suffix name = none) :
    createdTopic suffix' name = none := by
  unfold createdTopic at h ⊢
  split_ifs at h with hfits
  exact if_neg fun hfits' => hfits (hfits'.shorter hlength)

/-- An entry whose prefix and the topic differ is passed over. -/
theorem match_catalog_passed (hused : entry.inUse = true)
    (hcreated : createdTopic [] entry.thingName = some begun) (hbegins : ¬ begun <+: topic)
    (hends : ¬ topic <+: begun) (hreceived : received.readBytes 0 topic.length = topic) :
    matchCatalog received topic.length (entry :: rest) buffer =
      matchCatalog received topic.length rest (buffer.writeBytes 0 (begun ++ [0])) := by
  have hdiffers : ¬ (compareTopic topicPrefix entry.thingName received id buffer).1 = true := by
    intro hequal
    have hread := (compare_thing hcreated received buffer).mp hequal
    exact (begins_of_read hreceived hread).elim hbegins hends
  rw [matchCatalog, if_pos hused]
  simp only [if_neg hdiffers]
  rw [compare_begun hcreated]

/-- No operation is found in an old buffer if none of the topics fits. -/
theorem match_operation_stale (hcreated : createdTopic [] name = none)
    (hstale : Stale topic buffer) (hreceived : received.readBytes 0 topic.length = topic) :
    matchOperation name received topic.length buffer = .other := by
  have hnone : ∀ kind : CallbackKind, createdTopic kind.suffix name = none :=
    fun kind => created_topic_longer (Nat.zero_le _) hcreated
  have hother : callbackOf topic name = .other := by
    unfold callbackOf
    rw [hnone, hnone, hnone]
    rfl
  rw [match_operation_decided (fun kind created hmade _ => by rw [hnone] at hmade; cases hmade)
    (fun _ _ => hstale) hreceived, hother]

/-- The search finds what it should if the topic alone decides. -/
theorem match_catalog_decided (h : Decided topic filled catalog)
    (hbuffer : filled = true → Stale topic buffer)
    (hreceived : received.readBytes 0 topic.length = topic) :
    matchCatalog received topic.length catalog buffer = expectedMatch topic catalog := by
  induction h generalizing buffer with
  | nil => rfl
  | unused hunused _ ih =>
      rw [matchCatalog, expectedMatch, hunused, if_neg Bool.false_ne_true,
        if_neg Bool.false_ne_true, ih hbuffer]
  | @passed filled entry rest begun hused hcreated hbegins hends _ ih =>
      have hstale : Stale topic (buffer.writeBytes 0 (begun ++ [0])) :=
        ⟨begun, holds_created suffix_nil hcreated buffer,
          fun hmeets => hmeets.comparable.elim hbegins hends⟩
      rw [match_catalog_passed hused hcreated hbegins hends hreceived, expectedMatch, if_pos hused]
      simp only [hcreated, if_neg hbegins]
      exact ih fun _ => hstale
  | @found filled entry rest begun hused hcreated hbegins hdecided =>
      have hread : received.readBytes 0 begun.length = begun := by
        rw [readBytes_of_begins hreceived hbegins.length_le]
        exact (List.prefix_iff_eq_take.mp hbegins).symm
      have hstring := holds_created suffix_nil hcreated buffer
      rw [matchCatalog, expectedMatch, if_pos hused, if_pos hused]
      simp only [hcreated, if_pos hbegins,
        if_pos ((compare_thing hcreated received buffer).mpr hread)]
      rw [compare_begun hcreated]
      simp only
      rw [match_operation_decided hdecided.made
        (fun kind hnone => ⟨begun, hstring, hdecided.unmade kind hnone⟩) hreceived]
  | @tooLong entry rest hused hcreated _ =>
      rw [matchCatalog, expectedMatch, if_pos hused, if_pos hused]
      simp only [hcreated, compare_begun_none hcreated, if_true]
      rw [match_operation_stale hcreated (hbuffer rfl) hreceived]

/-- The name of a Thing whose topic is short enough to be received is not cut. -/
theorem name_short (hlength : topic.length < 2 ^ 16) {name : List UInt8}
    (h : topic = kind.topic name) : name.length < 2 ^ 16 := by
  have hmade := length_shadow_topic name kind.suffix
  have hprefix : 2 ≤ topicPrefix.length := by decide
  rw [h, CallbackKind.topic] at hlength
  rw [List.length_append] at hmade
  omega

/-- The topic of a Thing whose prefix has been made begins with it. -/
theorem begun_of_topic (hlength : topic.length < 2 ^ 16) (h : topic = kind.topic name.bytes)
    (hcreated : createdTopic [] name = some begun) : begun = shadowTopic name.bytes [] := by
  obtain ⟨-, hbegun⟩ := created_topic_some hcreated
  rw [hbegun, cut_name_of_short (name_short hlength h)]

/-- What the search should find is the registered Thing and callback whose topic it is. -/
theorem expected_exact (h : Decided topic filled catalog) (hlength : topic.length < 2 ^ 16)
    (kind : CallbackKind) (name : List UInt8) :
    (∃ entry, expectedMatch topic catalog = some (entry, kind.operationName) ∧
        entry.thingName.bytes = name) ↔
      topic = kind.topic name ∧ ∃ entry ∈ catalog, entry.isFor name = true := by
  -- On the decided catalog: an entry that is passed is not that of the topic, and behind one that
  -- is found the rest is not looked at.
  induction h with
  | nil =>
      constructor
      · intro ⟨_, hsome, _⟩
        cases hsome
      · intro ⟨_, _, hmem, _⟩
        exact absurd hmem List.not_mem_nil
  | unused hunused _ ih =>
      rw [expectedMatch, hunused, if_neg Bool.false_ne_true, ih, List.exists_mem_cons_iff,
        or_iff_right]
      intro hfor
      rw [CallbackCatalogEntry.isFor, hunused] at hfor
      cases hfor
  | @passed filled entry rest begun hused hcreated hbegins _ _ ih =>
      rw [expectedMatch, if_pos hused]
      simp only [hcreated, if_neg hbegins]
      rw [ih, List.exists_mem_cons_iff]
      refine and_congr_right fun htopic => ?_
      rw [or_iff_right]
      intro hfor
      have hname : entry.thingName.bytes = name := beq_iff_eq.mp (Bool.and_eq_true_iff.mp hfor).2
      subst hname
      refine hbegins ?_
      rw [begun_of_topic hlength htopic hcreated, htopic, CallbackKind.topic,
        shadow_topic_append _ kind.suffix]
      exact List.prefix_append _ _
  | @found filled entry rest begun hused hcreated hbegins hdecided =>
      rw [expectedMatch, if_pos hused]
      simp only [hcreated, if_pos hbegins]
      constructor
      · intro ⟨found, hfound, hname⟩
        obtain ⟨rfl, hoperation⟩ := Prod.mk.inj (Option.some.inj hfound)
        have hown := hdecided.own kind (callback_of_iff.mp hoperation)
        rw [hname] at hown
        refine ⟨hown, entry, List.mem_cons_self, ?_⟩
        exact Bool.and_eq_true_iff.mpr ⟨hused, beq_iff_eq.mpr hname⟩
      · intro ⟨htopic, other, hmem, hfor⟩
        obtain ⟨hother, hname⟩ := Bool.and_eq_true_iff.mp hfor
        have hname := beq_iff_eq.mp hname
        subst hname
        obtain ⟨hmade, hsame⟩ := hdecided.others kind other hmem hother htopic
        exact ⟨entry, by rw [callback_of_iff.mpr hmade], hsame.symm⟩
  | @tooLong entry rest hused hcreated hothers =>
      rw [expectedMatch, if_pos hused]
      simp only [hcreated]
      constructor
      · intro ⟨_, hfound, _⟩
        cases kind <;> cases hfound
      · intro ⟨htopic, other, hmem, hfor⟩
        obtain ⟨hother, hname⟩ := Bool.and_eq_true_iff.mp hfor
        have hname := beq_iff_eq.mp hname
        subst hname
        exact absurd htopic (hothers kind other hmem hother)

/-- If the topic alone decides, every callback is called for its topic. -/
theorem dispatched_of_decided (h : Decided topic false catalog)
    (hlength : topic.length < 2 ^ 16) :
    DispatchedExactly catalog topic (CanMatch catalog topic) := by
  have hresult :
      ∀ result, CanMatch catalog topic result → result = expectedMatch topic catalog := by
    intro result ⟨environment, client, received, hcatalog, hreceived, hmatch⟩
    rw [← hmatch, prvMatchCallbackTopic, hcatalog]
    exact match_catalog_decided h (fun hfilled => (by cases hfilled)) hreceived
  constructor
  · intro result hcan kind name
    rw [hresult result hcan]
    exact expected_exact h hlength kind name
  · intro result result' hcan hcan'
    rw [hresult result hcan, hresult result' hcan']

end Sufficient

/-! ## Searches that something else decides -/

/-- What a search over a part of the catalog can return, with one of some buffers. -/
def Reaches (buffers : ByteMemory → Prop) (catalog : List CallbackCatalogEntry)
    (topic : List UInt8) (result : MatchResult) : Prop :=
  ∃ received buffer, received.readBytes 0 topic.length = topic ∧ buffers buffer ∧
    matchCatalog received topic.length catalog buffer = result

/-- A memory with some bytes in it. -/
def memoryOf (bytes : List UInt8) : ByteMemory := ByteMemory.writeBytes (fun _ => 0) 0 bytes

section Necessary

variable {topic begun created : List UInt8} {received buffer : ByteMemory} {kind : CallbackKind}
  {name : CString} {entry : CallbackCatalogEntry} {rest catalog : List CallbackCatalogEntry}
  {buffers : ByteMemory → Prop}

theorem memory_of_read (bytes : List UInt8) : (memoryOf bytes).readBytes 0 bytes.length = bytes :=
  readBytes_writeBytes _ 0 bytes

theorem memory_of_begins {bytes : List UInt8} (h : topic <+: bytes) :
    (memoryOf bytes).readBytes 0 topic.length = topic := by
  rw [readBytes_of_begins (memory_of_read bytes) h.length_le]
  exact (List.prefix_iff_eq_take.mp h).symm

theorem match_operation_cases (name : CString) (received : ByteMemory) (length : Nat)
    (buffer : ByteMemory) :
    matchOperation name received length buffer = .other ∨
      ∃ kind : CallbackKind, matchOperation name received length buffer = kind.operationName := by
  rw [match_operation_kinds]
  simp only
  split_ifs
  · exact Or.inr ⟨.updated, rfl⟩
  · exact Or.inr ⟨.delta, rfl⟩
  · exact Or.inr ⟨.deleted, rfl⟩
  · exact Or.inl rfl

/-- An operation is found if a topic that is made compares equal, whatever was in the buffer. -/
theorem match_operation_made (hcreated : createdTopic kind.suffix name = some created)
    (hreceived : received.readBytes 0 topic.length = topic)
    (hequal : topic <+: created ∧ received.readBytes 0 created.length = created ∨
      created ++ [0] <+: topic) (buffer : ByteMemory) :
    matchOperation name received topic.length buffer ≠ .other := by
  have hcompare : ∀ buffer, (compareKind kind name received topic.length buffer).1 = true := by
    intro buffer
    have hholds := holds_created (suffix_callback kind) hcreated buffer
    rw [compare_kind_some hcreated]
    exact (compare_made hholds.no_nul buffer hreceived).mpr hequal
  intro hother
  rw [match_operation_kinds] at hother
  simp only at hother
  split_ifs at hother with hupdated hdelta hdeleted
  · cases hother
  · cases hother
  · cases hother
  · cases kind with
    | updated => exact hupdated (hcompare _)
    | delta => exact hdelta (hcompare _)
    | deleted => exact hdeleted (hcompare _)

/-- An operation is found if the topics do not fit and what is in the buffer compares equal. -/
theorem match_operation_unmade (hcreated : createdTopic kind.suffix name = none)
    (hequal : strncmp buffer received 0 topic.length = true) :
    matchOperation name received topic.length buffer = .updateDocuments := by
  have hlongest : createdTopic CallbackKind.updated.suffix name = none :=
    created_topic_longer (by cases kind <;> decide) hcreated
  rw [match_operation_kinds]
  simp only
  rw [if_pos]
  · rfl
  · rw [compare_kind_none hlongest]
    exact hequal

/-- No topic of a callback is the beginning of another. -/
theorem kind_of_begins {kind kind' : CallbackKind} {name : List UInt8}
    (h : kind.topic name <+: kind'.topic name) : kind = kind' := by
  rw [CallbackKind.topic, CallbackKind.topic, shadow_topic_append _ kind.suffix,
    shadow_topic_append _ kind'.suffix, List.prefix_append_right_inj] at h
  revert h
  cases kind <;> cases kind' <;> decide

theorem callback_topic_no_nul (kind : CallbackKind) (name : CString) :
    0 ∉ kind.topic name.bytes := shadow_topic_no_nul name.no_nul (suffix_callback kind).no_nul

/-- A topic without NUL only meets a string that it begins. -/
theorem Meets.begins {string : List UInt8} (h : Meets string topic) (hnul : 0 ∉ topic) :
    topic <+: string := by
  rcases h with hends | hbegins
  · refine (List.prefix_concat_iff.mp hends).resolve_left fun heq => hnul ?_
    rw [heq]
    exact List.mem_append_right _ List.mem_cons_self
  · exact absurd (hbegins.subset (List.mem_append_right _ List.mem_cons_self)) hnul

/-- With something suitable behind it, a topic compares equal to a string that it meets. -/
theorem received_of_meets (h : Meets created topic) :
    ∃ received : ByteMemory, received.readBytes 0 topic.length = topic ∧
      (topic <+: created ∧ received.readBytes 0 created.length = created ∨
        created ++ [0] <+: topic) := by
  rcases h with hends | hbegins
  · refine ⟨memoryOf (created ++ [0]), memory_of_begins hends, ?_⟩
    rcases List.prefix_concat_iff.mp hends with heq | hwithin
    · rw [heq]
      exact Or.inr List.prefix_rfl
    · exact Or.inl ⟨hwithin, memory_of_begins (List.prefix_append _ _)⟩
  · exact ⟨memoryOf topic, memory_of_read topic, Or.inr hbegins⟩

/-- The search stops at an entry with whose prefix the received bytes begin. -/
theorem reaches_found (rest : List CallbackCatalogEntry) (hused : entry.inUse = true)
    (hcreated : createdTopic [] entry.thingName = some begun)
    (hreceived : received.readBytes 0 topic.length = topic)
    (hread : received.readBytes 0 begun.length = begun) (hbuffer : buffers buffer) :
    Reaches buffers (entry :: rest) topic (some (entry,
      matchOperation entry.thingName received topic.length
        (buffer.writeBytes 0 (begun ++ [0])))) := by
  refine ⟨received, buffer, hreceived, hbuffer, ?_⟩
  rw [matchCatalog, if_pos hused]
  simp only [if_pos ((compare_thing hcreated received buffer).mpr hread)]
  rw [compare_begun hcreated]

/-- If an operation is found, the topic is that of a callback of the Thing. -/
theorem topic_of_operation (hexact : DispatchedExactly (entry :: rest) topic
      (Reaches buffers (entry :: rest) topic))
    (hused : entry.inUse = true) (hcreated : createdTopic [] entry.thingName = some begun)
    (hreceived : received.readBytes 0 topic.length = topic)
    (hread : received.readBytes 0 begun.length = begun) (hbuffer : buffers buffer)
    (hfound : matchOperation entry.thingName received topic.length
      (buffer.writeBytes 0 (begun ++ [0])) ≠ .other) :
    ∃ kind : CallbackKind, topic = kind.topic entry.thingName.bytes := by
  have hreaches := reaches_found rest hused hcreated hreceived hread hbuffer
  rcases match_operation_cases entry.thingName received topic.length
    (buffer.writeBytes 0 (begun ++ [0])) with hother | ⟨kind, hkind⟩
  · exact absurd hother hfound
  · rw [hkind] at hreaches
    exact ⟨kind, ((hexact.exact _ hreaches kind _).mp ⟨entry, rfl, rfl⟩).1⟩

/-- If the right callbacks are found for a topic that begins with the prefix of an entry, the topics
of the entry decide. -/
theorem decided_by_of_exact (hexact : DispatchedExactly (entry :: rest) topic
      (Reaches buffers (entry :: rest) topic))
    (hlength : topic.length < 2 ^ 16) (hbuffer : buffers buffer) (hused : entry.inUse = true)
    (hcreated : createdTopic [] entry.thingName = some begun) (hbegins : begun <+: topic) :
    DecidedBy topic begun entry rest := by
  -- The bytes behind the received topic may be any, so each condition comes from bytes chosen to
  -- violate it.
  have hread : ∀ received : ByteMemory, received.readBytes 0 topic.length = topic →
      received.readBytes 0 begun.length = begun := by
    intro received hreceived
    rw [readBytes_of_begins hreceived hbegins.length_le]
    exact (List.prefix_iff_eq_take.mp hbegins).symm
  have hnamed : ∀ received : ByteMemory, received.readBytes 0 topic.length = topic →
      matchOperation entry.thingName received topic.length (buffer.writeBytes 0 (begun ++ [0])) ≠
        .other → ∃ kind : CallbackKind, topic = kind.topic entry.thingName.bytes :=
    fun received hreceived =>
      topic_of_operation hexact hused hcreated hreceived (hread received hreceived) hbuffer
  have hown : ∀ {kind kind' : CallbackKind} {created : List UInt8},
      topic = kind'.topic entry.thingName.bytes →
        createdTopic kind.suffix entry.thingName = some created →
          created = kind.topic entry.thingName.bytes := by
    intro kind kind' created htopic hmade
    obtain ⟨-, hcut⟩ := created_topic_some hmade
    rw [hcut, cut_name_of_short (name_short hlength htopic)]
    rfl
  have hmadeAll : ∀ (kind : CallbackKind) (created : List UInt8),
      createdTopic kind.suffix entry.thingName = some created → Meets created topic →
        topic = created := by
    intro kind created hmade hmeets
    obtain ⟨received, hreceived, hequal⟩ := received_of_meets hmeets
    obtain ⟨kind', htopic⟩ := hnamed received hreceived
      (match_operation_made hmade hreceived hequal _)
    have hnul : 0 ∉ topic := htopic ▸ callback_topic_no_nul kind' entry.thingName
    have hbegun := hmeets.begins hnul
    have heq := hown htopic hmade
    rw [htopic, heq] at hbegun
    rw [htopic, heq, kind_of_begins hbegun]
  have hunmadeAll : ∀ kind : CallbackKind, createdTopic kind.suffix entry.thingName = none →
      ¬ Meets begun topic := by
    intro kind hunmade hmeets
    have hholds := holds_created suffix_nil hcreated buffer
    have hfound := match_operation_unmade hunmade
      ((compare_stale hholds (memory_of_read topic)).mpr hmeets)
    obtain ⟨kind', htopic⟩ := hnamed (memoryOf topic) (memory_of_read topic)
      (by rw [hfound]; exact fun h => (by cases h))
    have hnul : 0 ∉ topic := htopic ▸ callback_topic_no_nul kind' entry.thingName
    have hle := (hmeets.begins hnul).length_le
    rw [begun_of_topic hlength htopic hcreated, htopic, CallbackKind.topic, shadow_topic_append _
      kind'.suffix, List.length_append] at hle
    have hsuffix : 0 < kind'.suffix.length := by cases kind' <;> decide
    omega
  -- The last two conditions come from the topic itself as the received one.
  refine ⟨hmadeAll, hunmadeAll, ?_, ?_⟩
  · intro kind hmade
    obtain ⟨kind', htopic⟩ := hnamed (memoryOf topic) (memory_of_read topic)
      (match_operation_made hmade (memory_of_read topic)
        (Or.inl ⟨List.prefix_rfl, memory_of_read topic⟩) _)
    exact hown htopic hmade
  · intro kind other hmem hother htopic
    have hreaches := reaches_found rest hused hcreated (memory_of_read topic)
      (hread _ (memory_of_read topic)) hbuffer
    have hholds := holds_created suffix_nil hcreated buffer
    rw [match_operation_decided hmadeAll
      (fun kind hunmade => ⟨begun, hholds, hunmadeAll kind hunmade⟩) (memory_of_read topic)]
      at hreaches
    obtain ⟨found, hfound, hname⟩ := (hexact.exact _ hreaches kind _).mpr ⟨htopic, other, hmem,
      Bool.and_eq_true_iff.mpr ⟨hother, beq_self_eq_true _⟩⟩
    obtain ⟨rfl, hoperation⟩ := Prod.mk.inj (Option.some.inj hfound)
    exact ⟨callback_of_iff.mp hoperation, hname.symm⟩

/-- If the right callbacks are found, the topic does not end within the prefix of an entry. -/
theorem not_within_of_exact (hexact : DispatchedExactly (entry :: rest) topic
      (Reaches buffers (entry :: rest) topic))
    (hlength : topic.length < 2 ^ 16) (hbuffer : buffers buffer) (hused : entry.inUse = true)
    (hcreated : createdTopic [] entry.thingName = some begun) (hbegins : ¬ begun <+: topic) :
    ¬ topic <+: begun := by
  intro hends
  have hnamed : ∃ kind : CallbackKind, topic = kind.topic entry.thingName.bytes := by
    cases hmade : createdTopic CallbackKind.updated.suffix entry.thingName with
    | some created =>
        have hwithin : begun <+: created := by
          obtain ⟨-, rfl⟩ := created_topic_some hcreated
          obtain ⟨-, rfl⟩ := created_topic_some hmade
          rw [shadow_topic_append _ CallbackKind.updated.suffix]
          exact List.prefix_append _ _
        have hreceived := memory_of_begins (hends.trans hwithin)
        exact topic_of_operation hexact hused hcreated hreceived (memory_of_begins hwithin) hbuffer
          (match_operation_made hmade hreceived
            (Or.inl ⟨hends.trans hwithin, memory_of_read created⟩) _)
    | none =>
        have hholds := holds_created suffix_nil hcreated buffer
        have hmeets : Meets begun topic := Or.inl (hends.trans (List.prefix_append _ _))
        have hfound := match_operation_unmade hmade
          ((compare_stale hholds (memory_of_begins hends)).mpr hmeets)
        exact topic_of_operation hexact hused hcreated (memory_of_begins hends)
          (memory_of_read begun) hbuffer (by rw [hfound]; exact fun h => (by cases h))
  obtain ⟨kind, htopic⟩ := hnamed
  refine hbegins ?_
  rw [begun_of_topic hlength htopic hcreated, htopic, CallbackKind.topic,
    shadow_topic_append _ kind.suffix]
  exact List.prefix_append _ _

/-- An entry that is not in use is passed over. -/
theorem Reaches.unused {result : MatchResult} (h : Reaches buffers rest topic result)
    (hunused : entry.inUse = false) : Reaches buffers (entry :: rest) topic result := by
  obtain ⟨received, buffer, hreceived, hbuffer, hmatch⟩ := h
  refine ⟨received, buffer, hreceived, hbuffer, ?_⟩
  rw [matchCatalog, hunused, if_neg Bool.false_ne_true]
  exact hmatch

/-- An entry whose prefix and the topic differ is passed over, and leaves its prefix behind. -/
theorem Reaches.passed {result : MatchResult} (h : Reaches (fun written => ∃ buffer,
      buffers buffer ∧ buffer.writeBytes 0 (begun ++ [0]) = written) rest topic result)
    (hused : entry.inUse = true) (hcreated : createdTopic [] entry.thingName = some begun)
    (hbegins : ¬ begun <+: topic) (hends : ¬ topic <+: begun) :
    Reaches buffers (entry :: rest) topic result := by
  obtain ⟨received, _, hreceived, ⟨buffer, hbuffer, rfl⟩, hmatch⟩ := h
  refine ⟨received, buffer, hreceived, hbuffer, ?_⟩
  rw [match_catalog_passed hused hcreated hbegins hends hreceived]
  exact hmatch

/-- An entry whose prefix does not fit is found for every topic. -/
theorem reaches_too_long (rest : List CallbackCatalogEntry) (hused : entry.inUse = true)
    (hcreated : createdTopic [] entry.thingName = none)
    (hreceived : received.readBytes 0 topic.length = topic) (hbuffer : buffers buffer) :
    Reaches buffers (entry :: rest) topic (some (entry,
      matchOperation entry.thingName received topic.length buffer)) := by
  refine ⟨received, buffer, hreceived, hbuffer, ?_⟩
  rw [matchCatalog, if_pos hused]
  simp only [compare_begun_none hcreated, if_true]

theorem strncmp_self (memory : ByteMemory) (i count : Nat) :
    strncmp memory memory i count = true := by
  induction count generalizing i with
  | zero => rfl
  | succ count ih =>
      rw [strncmp, if_neg (not_not.mpr rfl)]
      split_ifs
      · rfl
      · exact ih (i + 1)

/-- With an arbitrary buffer, an entry whose prefix does not fit is not decided by the topic. -/
theorem filled_of_exact (hexact : DispatchedExactly (entry :: rest) topic
      (Reaches buffers (entry :: rest) topic))
    (hused : entry.inUse = true) (hcreated : createdTopic [] entry.thingName = none) :
    ¬ ∀ buffer, buffers buffer := by
  intro hany
  have hunmade : ∀ kind : CallbackKind, createdTopic kind.suffix entry.thingName = none :=
    fun kind => created_topic_longer (Nat.zero_le _) hcreated
  have hfirst := reaches_too_long rest hused hcreated (memory_of_read topic)
    (hany (memoryOf topic))
  rw [match_operation_unmade (hunmade .updated) (strncmp_self _ 0 _)] at hfirst
  obtain ⟨htopic, -⟩ := (hexact.exact _ hfirst .updated _).mp ⟨entry, rfl, rfl⟩
  obtain ⟨byte, bytes, hcons⟩ := List.exists_cons_of_ne_nil
    (htopic ▸ callback_topic_ne_nil .updated entry.thingName.bytes)
  -- With another first byte on the stack, no operation is found.
  have hsecond := reaches_too_long rest hused hcreated (memory_of_read topic)
    (hany fun _ => byte + 1)
  have hdiffers : strncmp (fun _ => byte + 1) (memoryOf topic) 0 topic.length = false := by
    have hbyte : memoryOf topic 0 = byte := by
      rw [hcons]
      rfl
    rw [hcons, List.length_cons, strncmp, ← hcons, hbyte, if_pos]
    simp
  have hother : matchOperation entry.thingName (memoryOf topic) topic.length (fun _ => byte + 1) =
      .other := by
    rw [match_operation_kinds]
    simp only [compare_kind_none (hunmade _), hdiffers, Bool.false_eq_true, if_false]
  rw [hother] at hsecond
  have hsame := hexact.same _ _ hfirst hsecond
  cases hsame

/-- If the right callbacks are found, the topic alone decides. -/
theorem decided_of_exact {filled : Bool} (hlength : topic.length < 2 ^ 16)
    (hsome : ∃ buffer, buffers buffer)
    (hstale : filled = true → ∀ buffer, buffers buffer → Stale topic buffer)
    (hany : filled = false → ∀ buffer, buffers buffer)
    (hexact : DispatchedExactly catalog topic (Reaches buffers catalog topic)) :
    Decided topic filled catalog := by
  -- On the catalog. What is known of the buffers changes with the first entry whose topic has been
  -- written to them.
  induction catalog generalizing buffers filled with
  | nil => exact .nil
  | cons entry rest ih =>
      obtain ⟨buffer, hbuffer⟩ := hsome
      cases hused : entry.inUse with
      | false =>
          refine .unused hused (ih ⟨buffer, hbuffer⟩ hstale hany ⟨?_, ?_⟩)
          · intro result hreaches kind name
            rw [hexact.exact result (hreaches.unused hused) kind name, List.exists_mem_cons_iff,
              or_iff_right]
            intro hfor
            rw [CallbackCatalogEntry.isFor, hused] at hfor
            cases hfor
          · intro result result' hreaches hreaches'
            exact hexact.same _ _ (hreaches.unused hused) (hreaches'.unused hused)
      | true =>
          cases hcreated : createdTopic [] entry.thingName with
          | some begun =>
              by_cases hbegins : begun <+: topic
              · exact .found hused hcreated hbegins
                  (decided_by_of_exact hexact hlength hbuffer hused hcreated hbegins)
              have hends := not_within_of_exact hexact hlength hbuffer hused hcreated hbegins
              refine .passed hused hcreated hbegins hends ?_
              refine @ih (fun written => ∃ buffer, buffers buffer ∧
                buffer.writeBytes 0 (begun ++ [0]) = written) true ⟨_, buffer, hbuffer, rfl⟩ ?_
                (fun hfalse => (by cases hfalse)) ⟨?_, ?_⟩
              · intro _ written ⟨buffer, _, hwritten⟩
                refine ⟨begun, hwritten ▸ holds_created suffix_nil hcreated buffer, ?_⟩
                exact fun hmeets => hmeets.comparable.elim hbegins hends
              · intro result hreaches kind name
                rw [hexact.exact result (hreaches.passed hused hcreated hbegins hends) kind name,
                  List.exists_mem_cons_iff]
                refine and_congr_right fun htopic => ?_
                rw [or_iff_right]
                intro hfor
                have hname : entry.thingName.bytes = name :=
                  beq_iff_eq.mp (Bool.and_eq_true_iff.mp hfor).2
                subst hname
                refine hbegins ?_
                rw [begun_of_topic hlength htopic hcreated, htopic, CallbackKind.topic,
                  shadow_topic_append _ kind.suffix]
                exact List.prefix_append _ _
              · intro result result' hreaches hreaches'
                exact hexact.same _ _ (hreaches.passed hused hcreated hbegins hends)
                  (hreaches'.passed hused hcreated hbegins hends)
          | none =>
              -- A topic that is not made leaves the buffer as it was, so before the first one it
              -- may hold anything.
              cases filled with
              | false => exact absurd (hany rfl) (filled_of_exact hexact hused hcreated)
              | true =>
                  refine .tooLong hused hcreated ?_
                  intro kind other hmem hother htopic
                  have hreaches := reaches_too_long rest hused hcreated
                    (memory_of_read topic) hbuffer
                  obtain ⟨found, hfound, -⟩ := (hexact.exact _ hreaches kind _).mpr ⟨htopic, other,
                    hmem, Bool.and_eq_true_iff.mpr ⟨hother, beq_self_eq_true _⟩⟩
                  have hoperation := (Prod.mk.inj (Option.some.inj hfound)).2
                  rw [match_operation_stale hcreated (hstale rfl buffer hbuffer)
                    (memory_of_read topic)] at hoperation
                  cases kind <;> cases hoperation

end Necessary

/-- The callbacks are called for exactly their own topics, whatever lies behind the received topic
and on the stack, if and only if the catalog and the topic decide the search. -/
theorem dispatched_exactly_iff (catalog : List CallbackCatalogEntry) (topic : List UInt8)
    (hlength : topic.length < 2 ^ 16) :
    DispatchedExactly catalog topic (CanMatch catalog topic) ↔ Decided topic false catalog := by
  constructor
  · intro hexact
    have hcan : ∀ result, Reaches (fun _ => True) catalog topic result →
        CanMatch catalog topic result := by
      intro result ⟨received, buffer, hreceived, _, hmatch⟩
      exact ⟨{ benchEnvironment with stack := buffer }, (createdClient catalog fun _ => 0).client,
        received, rfl, hreceived, hmatch⟩
    refine decided_of_exact hlength ⟨fun _ => 0, trivial⟩ (fun hfalse => (by cases hfalse))
      (fun _ _ => trivial) ⟨?_, ?_⟩
    · exact fun result hreaches => hexact.exact result (hcan result hreaches)
    · exact fun result result' hreaches hreaches' =>
        hexact.same result result' (hcan result hreaches) (hcan result' hreaches')
  · intro hdecided
    exact dispatched_of_decided hdecided hlength

instance (string topic : List UInt8) : Decidable (Meets string topic) :=
  inferInstanceAs (Decidable (_ ∨ _))

/-- The Thing `T`, registered without callbacks. -/
def thingEntry : CallbackCatalogEntry := { CallbackCatalogEntry.unused with
  inUse := true
  thingName := ⟨[84], by decide⟩ }

/-- The topic for changes of the Thing is decided. -/
theorem thing_delta_decided :
    Decided (CallbackKind.delta.topic [84]) false [CallbackCatalogEntry.unused, thingEntry] := by
  have hmade : ∀ kind : CallbackKind, createdTopic kind.suffix thingEntry.thingName =
      some (kind.topic [84]) := by
    intro kind
    cases kind <;> decide
  refine .unused rfl (@Decided.found _ _ _ _ (shadowTopic [84] []) rfl (by decide) (by decide)
    ⟨?_, ?_, ?_, ?_⟩)
  · intro kind created hcreated hmeets
    rw [hmade] at hcreated
    cases hcreated
    revert hmeets
    cases kind <;> decide
  · intro kind hnone
    rw [hmade] at hnone
    cases hnone
  · intro kind hcreated
    rw [hmade] at hcreated
    exact (Option.some.inj hcreated).symm
  · intro kind other hmem _ htopic
    rw [List.mem_singleton.mp hmem] at htopic ⊢
    rw [hmade]
    exact ⟨congrArg some htopic.symm, rfl⟩

theorem dispatched_exactly_delta :
    DispatchedExactly [CallbackCatalogEntry.unused, thingEntry] (CallbackKind.delta.topic [84])
      (CanMatch [CallbackCatalogEntry.unused, thingEntry] (CallbackKind.delta.topic [84])) :=
  (dispatched_exactly_iff _ _ (by decide)).mpr thing_delta_decided

/-- A topic that is cut short is dispatched if the rest lies behind it. -/
theorem cut_topic_dispatched :
    ¬ DispatchedExactly [thingEntry] (ascii "$aws/things/T/shadow/update/doc")
      (CanMatch [thingEntry] (ascii "$aws/things/T/shadow/update/doc")) := by
  intro hexact
  have hmatch : (prvMatchCallbackTopic benchEnvironment
      (createdClient [thingEntry] fun _ => 0).client
      (memoryOf (ascii "$aws/things/T/shadow/update/documents"))
      (ascii "$aws/things/T/shadow/update/doc").length).any
        (fun found => decide (found.2 = .updateDocuments)) = true := by
    decide +kernel
  obtain ⟨⟨entry, operation⟩, hfound, hoperation⟩ := (Option.any_eq_true _ _).mp hmatch
  have hoperation : operation = CallbackKind.updated.operationName := of_decide_eq_true hoperation
  subst hoperation
  have hcan : CanMatch [thingEntry] (ascii "$aws/things/T/shadow/update/doc")
      (some (entry, CallbackKind.updated.operationName)) :=
    ⟨benchEnvironment, (createdClient [thingEntry] fun _ => 0).client, _, rfl,
      by decide +kernel, hfound⟩
  obtain ⟨htopic, other, hmem, hfor⟩ :=
    (hexact.exact _ hcan .updated entry.thingName.bytes).mp ⟨entry, rfl, rfl⟩
  obtain ⟨-, hname⟩ := Bool.and_eq_true_iff.mp hfor
  rw [List.mem_singleton.mp hmem] at hname
  rw [← beq_iff_eq.mp hname] at htopic
  exact absurd htopic (by decide)

end TivaAws.Shadow
