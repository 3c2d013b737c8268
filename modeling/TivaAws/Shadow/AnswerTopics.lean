import TivaAws.Shadow.Calls
import TivaAws.Shadow.Semaphore
import TivaAws.Shadow.TopicStrings

/-!
# Telling answers by their topics

While an operation waits, a received topic is compared with the topic buffer over the shorter of the
two lengths, and what lies nine bytes in front of its end with the two suffixes. So topics that are
too short, or that have more or fewer levels than the answers, can be taken for one, and the bytes
in front of a topic can be read (`answer_exact_iff`).
-/

namespace TivaAws.Shadow

open ByteMemory Labelled

/-! ## The decision -/

/-- The two answers of the service. -/
inductive Answer where
  | accepted
  | rejected
  deriving DecidableEq, Repr

/-- The end of the topic of an answer. -/
def Answer.suffix : Answer → List UInt8
  | .accepted => topicSuffixAccepted
  | .rejected => topicSuffixRejected

/-- The result that an answer stands for. -/
def Answer.result : Answer → ShadowReturnCode
  | .accepted => shadowSuccess
  | .rejected => shadowFailure

/-- The message is handed to the operation in progress as an answer. -/
def TakenAs (answer : Answer) (publish : MQTTPublishData) (client : ShadowClient) : Prop :=
  (matchOperationInProgress publish client).isSome = true ∧
    prvParseShadowOperationStatus publish = answer.result

/-- The string in the topic buffer. -/
def ShadowClient.buffered (client : ShadowClient) : List UInt8 :=
  stringIn client.topicBuffer topicBufferLength

/-- The topic passes for that of an answer: it begins with the string in the topic buffer or is a
beginning of it, and the nine bytes in front of its end are the suffix of the answer. -/
def PassesFor (answer : Answer) (publish : MQTTPublishData) (client : ShadowClient) : Prop :=
  (publish.topicBytes <+: client.buffered ∨ client.buffered <+: publish.topicBytes) ∧
    publish.memory.readBytes (publish.topic + publish.topicLength - 9) 9 = answer.suffix

instance (answer : Answer) (publish : MQTTPublishData) (client : ShadowClient) :
    Decidable (PassesFor answer publish client) :=
  inferInstanceAs (Decidable
    ((publish.topicBytes <+: client.buffered ∨ client.buffered <+: publish.topicBytes) ∧
      publish.memory.readBytes (publish.topic + publish.topicLength - 9) 9 = answer.suffix))

/-- The indices at which `strncmp` reads its two strings. -/
def strncmpReads (first second : ByteMemory) : Nat → Nat → List Nat
  | _, 0 => []
  | i, count + 1 =>
      i :: if first i ≠ second i ∨ first i = 0 then [] else strncmpReads first second (i + 1) count

/-- Where the comparison with a suffix begins. -/
def statusPointer (publish : MQTTPublishData) (suffix : List UInt8) : Nat :=
  publish.topic + publish.topicLength - suffix.length

/-- The addresses that the comparison with a suffix reads. -/
def suffixReads (publish : MQTTPublishData) (suffix : List UInt8) : List Nat :=
  (strncmpReads (fun i => publish.memory (statusPointer publish suffix + i))
    (fun i => suffix.getD i 0) 0 suffix.length).map (statusPointer publish suffix + ·)

/-- The addresses that `prvParseShadowOperationStatus` reads. -/
def statusReads (publish : MQTTPublishData) : List Nat :=
  suffixReads publish topicSuffixAccepted ++
    if prvParseShadowOperationStatus publish = shadowSuccess then []
    else suffixReads publish topicSuffixRejected

/-- The addresses that `prvShadowMQTTCallback` reads to decide whether a message is an answer. -/
def decisionReads (publish : MQTTPublishData) (client : ShadowClient) : List Nat :=
  let count := min (strlen client.topicBuffer topicBufferLength) publish.topicLength
  if client.operationData.isNone then []
  else
    (strncmpReads publish.topicPointer client.topicBuffer 0 count).map (publish.topic + ·) ++
      if strncmp publish.topicPointer client.topicBuffer 0 count then statusReads publish else []

/-- The answers are told exactly, from the bytes of the topic. -/
structure AnswerExact (call : ShadowOperationCallParams) (publish : MQTTPublishData)
    (client : ShadowClient) : Prop where
  taken : ∀ answer : Answer, TakenAs answer publish client ↔
    publish.topicBytes =
      shadowTopic call.operationParams.thingName.bytes call.operation.word ++ answer.suffix
  reads : ∀ address ∈ decisionReads publish client,
    publish.topic ≤ address ∧ address < publish.topic + publish.topicLength

/-- The topics with which the decision goes wrong: those shorter than the suffixes, those that end
within the topic in the buffer, those with further levels, and the answers themselves if the buffer
holds something else than the topic of the operation. -/
inductive Misleading (operationTopic buffered topic : List UInt8) : Prop where
  | short : topic.length < 9 → topic <+: buffered ∨ buffered <+: topic →
      Misleading operationTopic buffered topic
  | within (answer : Answer) : topic <+: buffered → answer.suffix <:+ topic →
      Misleading operationTopic buffered topic
  | beyond (answer : Answer) : buffered <+: topic → answer.suffix <:+ topic →
      topic ≠ operationTopic ++ answer.suffix → Misleading operationTopic buffered topic
  | missed (answer : Answer) : topic = operationTopic ++ answer.suffix → ¬ buffered <+: topic →
      Misleading operationTopic buffered topic

/-! ## What is read -/

section Reads

variable {first second : ByteMemory} {i count index : Nat}

theorem strncmp_reads_range (h : index ∈ strncmpReads first second i count) :
    i ≤ index ∧ index < i + count := by
  induction count generalizing i with
  | zero => exact absurd h List.not_mem_nil
  | succ count ih =>
      unfold strncmpReads at h
      rcases List.mem_cons.mp h with rfl | hrest
      · exact ⟨Nat.le_refl _, by omega⟩
      · split_ifs at hrest
        · exact absurd hrest List.not_mem_nil
        · have hrange := ih hrest
          exact ⟨by omega, by omega⟩

theorem strncmp_reads_first (first second : ByteMemory) (i : Nat) (h : 0 < count) :
    i ∈ strncmpReads first second i count := by
  obtain ⟨count, rfl⟩ := Nat.exists_eq_succ_of_ne_zero (Nat.ne_of_gt h)
  exact List.mem_cons_self

theorem length_suffix (answer : Answer) : answer.suffix.length = 9 := by
  cases answer <;> rfl

variable {publish : MQTTPublishData} {answer : Answer} {address : Nat}

/-- A suffix is looked for in the last nine bytes. -/
theorem suffix_reads_range (h : address ∈ suffixReads publish answer.suffix) :
    publish.topic + publish.topicLength - 9 ≤ address ∧
      address < publish.topic + publish.topicLength - 9 + 9 := by
  obtain ⟨index, hindex, rfl⟩ := List.mem_map.mp h
  have hrange := strncmp_reads_range hindex
  unfold statusPointer
  rw [length_suffix] at hrange ⊢
  exact ⟨by omega, by omega⟩

theorem status_reads_range (h : address ∈ statusReads publish) :
    publish.topic + publish.topicLength - 9 ≤ address ∧
      address < publish.topic + publish.topicLength - 9 + 9 := by
  unfold statusReads at h
  rcases List.mem_append.mp h with haccepted | hrejected
  · exact @suffix_reads_range publish .accepted address haccepted
  · split_ifs at hrejected
    · exact absurd hrejected List.not_mem_nil
    · exact @suffix_reads_range publish .rejected address hrejected

theorem status_reads_first (publish : MQTTPublishData) :
    publish.topic + publish.topicLength - 9 ∈ statusReads publish := by
  refine List.mem_append_left _ (List.mem_map.mpr ⟨0, strncmp_reads_first _ _ 0 ?_, rfl⟩)
  decide

end Reads

/-! ## The result in a topic -/

section Status

variable {publish : MQTTPublishData} {answer : Answer}

@[simp] theorem length_topic_bytes (publish : MQTTPublishData) :
    publish.topicBytes.length = publish.topicLength := length_readBytes _ _ _

/-- The comparison with a suffix. -/
theorem ends_with_iff (publish : MQTTPublishData) (answer : Answer) :
    strncmp (fun i => publish.memory
        (publish.topic + publish.topicLength - answer.suffix.length + i))
      (fun i => answer.suffix.getD i 0) 0 answer.suffix.length = true ↔
      publish.memory.readBytes (publish.topic + publish.topicLength - 9) 9 = answer.suffix := by
  have hnul : ∀ j < answer.suffix.length, answer.suffix.getD (0 + j) 0 ≠ 0 := by
    cases answer <;> decide
  have hsuffix : ByteMemory.readBytes (fun i => answer.suffix.getD i 0) 0 answer.suffix.length =
      answer.suffix := by
    cases answer <;> decide
  rw [strncmp_bytes hnul, hsuffix, length_suffix]
  unfold readBytes
  simp only [Nat.zero_add]

theorem suffix_accepted_ne_rejected : Answer.accepted.suffix ≠ Answer.rejected.suffix := by decide

/-- The status is read from the nine bytes in front of the end. -/
theorem status_iff (publish : MQTTPublishData) (answer : Answer) :
    prvParseShadowOperationStatus publish = answer.result ↔
      publish.memory.readBytes (publish.topic + publish.topicLength - 9) 9 = answer.suffix := by
  have haccepted := ends_with_iff publish .accepted
  have hrejected := ends_with_iff publish .rejected
  unfold prvParseShadowOperationStatus
  simp only
  unfold Answer.suffix at haccepted hrejected
  simp only at haccepted hrejected
  split_ifs with hsuccess hfailure
  · have hread := haccepted.mp hsuccess
    cases answer with
    | accepted => exact iff_of_true rfl hread
    | rejected =>
        refine iff_of_false (by decide) fun h => ?_
        exact suffix_accepted_ne_rejected (hread.symm.trans h)
  · have hread := hrejected.mp hfailure
    cases answer with
    | accepted => exact iff_of_false (by decide) fun h => hsuccess (haccepted.mpr h)
    | rejected => exact iff_of_true rfl hread
  · cases answer with
    | accepted => exact iff_of_false (by decide) fun h => hsuccess (haccepted.mpr h)
    | rejected => exact iff_of_false (by decide) fun h => hfailure (hrejected.mpr h)

/-- In a topic that is long enough, the status is its end. -/
theorem status_suffix_iff (hlong : 9 ≤ publish.topicLength) :
    prvParseShadowOperationStatus publish = answer.result ↔
      answer.suffix <:+ publish.topicBytes := by
  have hlength : publish.topicLength - (publish.topicLength - 9) = 9 := by omega
  rw [status_iff, List.suffix_iff_eq_drop, length_topic_bytes, length_suffix,
    MQTTPublishData.topicBytes, drop_readBytes _ _ (Nat.sub_le _ _), hlength,
    Nat.add_sub_assoc hlong]
  exact eq_comm

end Status

/-! ## Exact decisions -/

section Exact

variable {publish : MQTTPublishData} {client : ShadowClient} {answer : Answer}
  {call : ShadowOperationCallParams}

/-- What a client keeps for an operation that waits for its answer. -/
structure Awaits (client : ShadowClient) (call : ShadowOperationCallParams) : Prop where
  data : ∃ data, client.operationData = some data ∧
    data.operationInProgress = call.operation.toName
  buffer : ∃ memory, client.topicBuffer =
    fillTopic call.operation.word call.operationParams.thingName memory

/-- The topic of an operation. -/
def ShadowOperationCallParams.topic (call : ShadowOperationCallParams) : List UInt8 :=
  shadowTopic call.operationParams.thingName.bytes call.operation.word

/-- A topic that has been made is the string in the buffer. -/
theorem fill_topic_buffered {suffix topic : List UInt8} {name : CString}
    (hsuffix : TopicSuffix suffix) (h : createdTopic suffix name = some topic)
    (memory : ByteMemory) : stringIn (fillTopic suffix name memory) topicBufferLength = topic := by
  obtain ⟨hnul, hlength⟩ := created_topic_string hsuffix h
  unfold fillTopic stringIn
  rw [create_topic_some hsuffix memory h,
    strlen_string hnul (Nat.lt_of_succ_lt hlength) (string_in_buffer memory)]
  exact readBytes_writeBytes_append memory 0 topic [0]

/-- The string in the buffer is shorter than the answers. -/
theorem Awaits.buffered_lt (h : Awaits client call) :
    client.buffered.length < call.topic.length + 9 := by
  obtain ⟨memory, hbuffer⟩ := h.buffer
  have hsuffix := suffix_word call.operation
  have hlength := length_shadow_topic call.operationParams.thingName.bytes call.operation.word
  have hcut : (cutName call.operationParams.thingName.bytes).length ≤
      call.operationParams.thingName.bytes.length := by
    rw [length_cut_name]
    exact Nat.mod_le _ _
  unfold ShadowClient.buffered ShadowOperationCallParams.topic
  rw [hbuffer]
  cases hcreated : createdTopic call.operation.word call.operationParams.thingName with
  | some topic =>
      rw [fill_topic_buffered hsuffix hcreated]
      obtain ⟨-, rfl⟩ := created_topic_some hcreated
      have hmade := length_shadow_topic (cutName call.operationParams.thingName.bytes)
        call.operation.word
      omega
  | none =>
      have hlong : ¬ TopicFits call.operation.word call.operationParams.thingName.bytes := by
        intro hfits
        rw [createdTopic, if_pos hfits] at hcreated
        cases hcreated
      have hbound := strlen_le (fillTopic call.operation.word call.operationParams.thingName memory)
        topicBufferLength
      unfold TopicFits at hlong
      unfold stringIn
      rw [length_readBytes]
      omega

/-- With a name that is not cut, a topic that fits is the string in the buffer. -/
theorem Awaits.buffered_eq (h : Awaits client call)
    (hshort : call.operationParams.thingName.bytes.length < 2 ^ 16)
    (hfits : TopicFits call.operation.word call.operationParams.thingName.bytes) :
    client.buffered = call.topic := by
  obtain ⟨memory, hbuffer⟩ := h.buffer
  have hcreated : createdTopic call.operation.word call.operationParams.thingName =
      some call.topic := by
    rw [createdTopic, if_pos hfits, cut_name_of_short hshort]
    rfl
  unfold ShadowClient.buffered
  rw [hbuffer]
  exact fill_topic_buffered (suffix_word call.operation) hcreated memory

/-- The topic is compared with the string in the buffer over the shorter of the two lengths. -/
theorem compare_buffered :
    strncmp publish.topicPointer client.topicBuffer 0
        (min (strlen client.topicBuffer topicBufferLength) publish.topicLength) = true ↔
      publish.topicBytes <+: client.buffered ∨ client.buffered <+: publish.topicBytes := by
  have hbytes : publish.topicPointer.readBytes 0 publish.topicLength = publish.topicBytes := by
    unfold MQTTPublishData.topicPointer MQTTPublishData.topicBytes readBytes
    simp only [Nat.zero_add]
  rw [strncmp_shorter, hbytes]
  exact Iff.rfl

/-- This comparison stays within the topic. -/
theorem topic_reads_range {address : Nat}
    (h : address ∈ (strncmpReads publish.topicPointer client.topicBuffer 0
      (min (strlen client.topicBuffer topicBufferLength) publish.topicLength)).map
        (publish.topic + ·)) :
    publish.topic ≤ address ∧ address < publish.topic + publish.topicLength := by
  obtain ⟨index, hindex, rfl⟩ := List.mem_map.mp h
  have hrange := strncmp_reads_range hindex
  have hle := Nat.min_le_right (strlen client.topicBuffer topicBufferLength) publish.topicLength
  exact ⟨by omega, by omega⟩

/-- A message is taken for an answer if its topic compares equal and has the status. -/
theorem taken_as_iff (h : Awaits client call) :
    TakenAs answer publish client ↔
      (publish.topicBytes <+: client.buffered ∨ client.buffered <+: publish.topicBytes) ∧
        prvParseShadowOperationStatus publish = answer.result := by
  obtain ⟨data, hdata, hname⟩ := h.data
  have hoperation : (data.operationInProgress != .other) = true := by
    rw [hname]
    cases call.operation <;> rfl
  unfold TakenAs matchOperationInProgress
  rw [hdata, ← compare_buffered]
  refine and_congr_left fun hstatus => ?_
  have hknown : (prvParseShadowOperationStatus publish != shadowUnknown) = true := by
    rw [hstatus]
    cases answer <;> decide
  rw [Option.filter_some, hoperation, hknown, Bool.and_true, Bool.and_true]
  cases strncmp publish.topicPointer client.topicBuffer 0
    (min (strlen client.topicBuffer topicBufferLength) publish.topicLength) <;> simp

/-- What is taken for an answer passes for it by its topic. -/
theorem TakenAs.passes (h : TakenAs answer publish client) : PassesFor answer publish client := by
  obtain ⟨hmatch, hstatus⟩ := h
  obtain ⟨data, hdata⟩ := Option.isSome_iff_exists.mp hmatch
  obtain ⟨-, hpasses⟩ := Option.filter_eq_some_iff.mp hdata
  obtain ⟨hpasses, -⟩ := Bool.and_eq_true_iff.mp hpasses
  obtain ⟨hcompares, -⟩ := Bool.and_eq_true_iff.mp hpasses
  exact ⟨compare_buffered.mp hcompares, (status_iff publish answer).mp hstatus⟩

/-- While an operation waits, what passes for an answer by its topic is taken for it. -/
theorem taken_iff_passes (h : Awaits client call) :
    TakenAs answer publish client ↔ PassesFor answer publish client := by
  rw [taken_as_iff h, status_iff]
  exact Iff.rfl

/-- With a misleading topic, an answer is missed or made up, or bytes in front of the topic are
read. -/
theorem Misleading.not_exact (hawaits : Awaits client call)
    (h : Misleading call.topic client.buffered publish.topicBytes) :
    ¬ AnswerExact call publish client := by
  intro hexact
  have hshorter := hawaits.buffered_lt
  have htaken : ∀ answer : Answer,
      (publish.topicBytes <+: client.buffered ∨ client.buffered <+: publish.topicBytes) →
        answer.suffix <:+ publish.topicBytes → publish.topicBytes =
          call.topic ++ answer.suffix := by
    intro answer hbegins hends
    have hlong : 9 ≤ publish.topicLength := by
      have hle := hends.length_le
      rw [length_suffix, length_topic_bytes] at hle
      exact hle
    exact (hexact.taken answer).mp ((taken_as_iff hawaits).mpr
      ⟨hbegins, (status_suffix_iff hlong).mpr hends⟩)
  -- Each way to mislead reads in front of the topic, makes up an answer or misses one.
  cases h with
  | short hshort hbegins =>
      obtain ⟨data, hdata, -⟩ := hawaits.data
      have hread : publish.topic + publish.topicLength - 9 ∈ decisionReads publish client := by
        unfold decisionReads
        rw [hdata]
        refine List.mem_append_right _ ?_
        rw [if_pos (compare_buffered.mpr hbegins)]
        exact status_reads_first publish
      have hinside := (hexact.reads _ hread).1
      have hmetadata : 9 ≤ publish.topic := publish.suffix_le_topic
      rw [length_topic_bytes] at hshort
      omega
  | within answer hbegins hends =>
      have heq := congrArg List.length (htaken answer (Or.inl hbegins) hends)
      have hle := hbegins.length_le
      rw [List.length_append, length_suffix] at heq
      omega
  | beyond answer hbegins hends hne => exact hne (htaken answer (Or.inr hbegins) hends)
  | missed answer heq hbegins =>
      obtain ⟨hcompares, -⟩ := (taken_as_iff hawaits).mp ((hexact.taken answer).mpr heq)
      have hle := (hcompares.resolve_right hbegins).length_le
      rw [heq, List.length_append, length_suffix] at hle
      omega

/-- Without one, the answers are told exactly. -/
theorem exact_of_not_misleading (hawaits : Awaits client call)
    (h : ¬ Misleading call.topic client.buffered publish.topicBytes) :
    AnswerExact call publish client := by
  have hlong : publish.topicBytes <+: client.buffered ∨ client.buffered <+: publish.topicBytes →
      9 ≤ publish.topicLength := by
    intro hbegins
    by_contra hshort
    rw [← length_topic_bytes] at hshort
    exact h (.short (Nat.not_le.mp hshort) hbegins)
  constructor
  · intro answer
    rw [taken_as_iff hawaits]
    constructor
    · intro ⟨hbegins, hstatus⟩
      have hends := (status_suffix_iff (hlong hbegins)).mp hstatus
      by_contra hne
      rcases hbegins with hwithin | hbeyond
      · exact h (.within answer hwithin hends)
      · exact h (.beyond answer hbeyond hends hne)
    · intro heq
      have hbegins : client.buffered <+: publish.topicBytes := by
        by_contra hnot
        exact h (.missed answer heq hnot)
      refine ⟨Or.inr hbegins, (status_suffix_iff (hlong (Or.inr hbegins))).mpr ?_⟩
      rw [heq]
      exact List.suffix_append _ _
  · intro address haddress
    unfold decisionReads at haddress
    simp only at haddress
    split_ifs at haddress with hnone hcompares
    · exact absurd haddress List.not_mem_nil
    · rcases List.mem_append.mp haddress with hfront | hstatus
      · exact topic_reads_range hfront
      · have hrange := status_reads_range hstatus
        have hends := hlong (compare_buffered.mp hcompares)
        exact ⟨by omega, by omega⟩
    · rw [List.append_nil] at haddress
      exact topic_reads_range haddress

end Exact

/-! ## Runs -/

section Runs

variable {environment : Environment} {s s' : ShadowSystem} {running running' : Running}
  {labels : List ShadowOutput} {client : ShadowClient} {call : ShadowOperationCallParams}

/-- The operation is in its request or waits for the answer. -/
def Running.Waits (running : Running) : Prop :=
  running.phase = .publishing ∨ running.phase = .waiting

instance (running : Running) : Decidable running.Waits := inferInstanceAs (Decidable (_ ∨ _))

/-- An operation that waits for its answer has left its data and its topic in the client. -/
structure Awaiting (s : ShadowSystem) (running : Running) : Prop where
  params : ∃ operation params, running.params = shadowOperationCallParams operation params
  awaits : running.Waits → Awaits s.client running.params

/-- An operation that does not wait yet, or no longer. -/
theorem Awaiting.aside (hawaiting : Awaiting s running) (hparams : running'.params = running.params)
    (hpublishing : running'.phase ≠ .publishing) (hwaiting : running'.phase ≠ .waiting) :
    Awaiting s' running' := by
  refine ⟨hparams ▸ hawaiting.params, ?_⟩
  intro hwaits
  rcases hwaits with hphase | hphase
  · exact absurd hphase hpublishing
  · exact absurd hphase hwaiting

/-- What the client keeps for the operation is left alone. -/
theorem Awaiting.congr (hawaiting : Awaiting s running)
    (hdata : s'.client.operationData = s.client.operationData)
    (hbuffer : s'.client.topicBuffer = s.client.topicBuffer) : Awaiting s' running := by
  refine ⟨hawaiting.params, ?_⟩
  intro hwaits
  obtain ⟨data, buffer⟩ := hawaiting.awaits hwaits
  constructor
  · rw [hdata]
    exact data
  · rw [hbuffer]
    exact buffer

/-- The request leaves the data and the topic. -/
theorem Awaiting.publish (hawaiting : Awaiting s running)
    (hrunning' : (callPublish running s).1.running = some running') :
    Awaiting (callPublish running s).1 running' := by
  obtain ⟨operation, params, hparams⟩ := hawaiting.params
  cases hrunning'
  refine ⟨⟨operation, params, hparams⟩, fun _ => ⟨⟨_, rfl, rfl⟩, s.client.topicBuffer, ?_⟩⟩
  show (prvCreateTopic s.client.topicBuffer topicBufferLength running.params.operationTopic
    running.params.operationParams.thingName).2 = _
  rw [hparams]
  rfl

theorem Awaiting.clean_up (hawaiting : Awaiting s running)
    (hrunning' : (startCleanUp environment running s).1.running = some running') :
    Awaiting (startCleanUp environment running s).1 running' := by
  unfold startCleanUp at hrunning' ⊢
  simp only at hrunning' ⊢
  split_ifs at hrunning' ⊢ with hkeep hdelete hnone
  · cases hrunning'
    exact hawaiting.aside rfl (fun h => (by cases h)) fun h => (by cases h)
  · cases hrunning'
    exact hawaiting.aside rfl (fun h => (by cases h)) fun h => (by cases h)
  · cases hrunning'
    exact hawaiting.aside rfl (fun h => (by cases h)) fun h => (by cases h)
  · cases hrunning'
    exact hawaiting.aside rfl (fun h => (by cases h)) fun h => (by cases h)

theorem Awaiting.proceed (hawaiting : Awaiting s running)
    (h : proceedOperation environment running s = some (s', labels))
    (hrunning' : s'.running = some running') : Awaiting s' running' := by
  cases proceed_cases h with
  | publish => exact hawaiting.publish hrunning'
  | cleanUp => exact hawaiting.clean_up hrunning'
  | finish => cases hrunning'
  | setFlag | takeSemaphore | collect | giveSemaphore =>
      cases hrunning'
      exact hawaiting.aside rfl (fun h => (by cases h)) fun h => (by cases h)

/-- Only a request that succeeds goes on to wait. -/
theorem Awaiting.returns {code : MQTTAgentReturnCode} (hawaiting : Awaiting s running)
    (h : returnMQTT code running s = some (s', labels)) (hrunning' : s'.running = some running') :
    Awaiting s' running' := by
  cases return_cases h with
  -- The operation waits once its request is published. Behind every other call it does not.
  | published hphase =>
      cases hrunning'
      exact ⟨hawaiting.params, fun _ => hawaiting.awaits (Or.inl hphase)⟩
  | acceptedSubscribed | acceptedFails | rejectedSubscribed | rejectedFails | undone | publishFails
  | acceptedUnsubscribed | rejectedUnsubscribed | rejectedStays =>
      cases hrunning'
      exact hawaiting.aside rfl (fun h => (by cases h)) fun h => (by cases h)

/-- An answer keeps the name of the operation. -/
theorem answered_data_name (data : ShadowOperationData) (publish : MQTTPublishData) :
    (answeredData data publish).operationInProgress = data.operationInProgress := by
  unfold answeredData
  split_ifs <;> rfl

theorem Awaiting.message (hawaiting : Awaiting s running) (publish : MQTTPublishData)
    (halted : Bool) :
    Awaiting
      { s with
        client := (shadowMQTTCallbackPublish environment publish s.client).2.1
        halted } running := by
  rcases handled_cases environment publish s.client with ⟨hsame, -, -⟩ |
    ⟨data, hmatch, -, hchange, -⟩
  · rw [hsame]
    exact hawaiting.congr rfl rfl
  · rw [hchange]
    refine ⟨hawaiting.params, ?_⟩
    intro hwaits
    obtain ⟨⟨before, hbefore, hname⟩, buffer⟩ := hawaiting.awaits hwaits
    refine ⟨⟨answeredData data publish, rfl, ?_⟩, buffer⟩
    have hdata := (status_of_match hmatch).1
    rw [hbefore] at hdata
    rw [answered_data_name, ← Option.some.inj hdata]
    exact hname

/-- A step keeps the data and the topic of an operation that waits. -/
theorem Executes.awaiting (h : Executes environment s labels s')
    (hinv : ∀ running, s.running = some running → Awaiting s running)
    (hrunning' : s'.running = some running') : Awaiting s' running' := by
  obtain ⟨event, hevent⟩ := h
  obtain ⟨-, hcases⟩ := step_cases hevent
  cases event with
  | start operation params =>
      obtain ⟨-, -, -, hstart⟩ := hcases
      have hs : (startOperation operation params s).1 = s' := congrArg Prod.fst hstart
      subst hs
      have hbegun :
          ∀ phase, phase = .subscribeAccepted ∨ phase = .setFlag → running'.phase = phase →
          running'.params = shadowOperationCallParams operation params →
          Awaiting (startOperation operation params s).1 running' := by
        intro phase hphase heq hparams
        refine ⟨⟨operation, params, hparams⟩, fun hwaits => ?_⟩
        rcases hphase with rfl | rfl <;> rcases hwaits with hwaits | hwaits <;>
          rw [heq] at hwaits <;> cases hwaits
      unfold startOperation at hrunning'
      simp only at hrunning'
      split_ifs at hrunning'
      · cases hrunning'
        exact hbegun _ (Or.inl rfl) rfl rfl
      · cases hrunning'
        exact hbegun _ (Or.inr rfl) rfl rfl
  | proceed =>
      obtain ⟨running, hrunning, hproceed⟩ := hcases
      exact (hinv running hrunning).proceed hproceed hrunning'
  | mqttReturns code effect =>
      obtain ⟨-, -, running, hrunning, hreturn⟩ := hcases
      refine Awaiting.returns ((hinv running hrunning).congr ?_ ?_) hreturn hrunning'
      · cases effect <;> rfl
      · cases effect <;> rfl
  | timeOut =>
      obtain ⟨running, hrunning, -, -, rfl, -⟩ := hcases
      cases hrunning'
      exact (hinv running hrunning).aside rfl (fun h => (by cases h)) fun h => (by cases h)
  -- A message leaves the data and the topic of the operation as they are.
  | message publish =>
      obtain ⟨-, rfl, -⟩ := hcases
      exact (hinv running' hrunning').message publish _
  | connect =>
      obtain ⟨-, rfl, -⟩ := hcases
      exact (hinv running' hrunning').congr rfl rfl
  | disconnect =>
      obtain ⟨-, rfl, -⟩ := hcases
      exact (hinv running' hrunning').congr rfl rfl

/-- In every run, an operation that waits for its answer has left its data and its topic in the
client. -/
theorem awaits_of_steps {callbackCatalog : List CallbackCatalogEntry} {topicBuffer : ByteMemory}
    (hrun : Steps (Executes environment) (createdClient callbackCatalog topicBuffer) labels s)
    (hrunning : s.running = some running) (hwaits : running.Waits) :
    Awaits s.client running.params := by
  have hinv := Steps.preserves
    (fun (s : ShadowSystem) => ∀ running, s.running = some running → Awaiting s running)
    (fun hbefore hstep running' hrunning' => hstep.awaiting hbefore hrunning') hrun
    fun _ hnone => (by cases hnone)
  exact (hinv running hrunning).awaits hwaits

end Runs

/-- While an operation waits for its answer, a message is taken for the accepted or the rejected
answer exactly if it is on that topic, and only the topic is read for it, if and only if its topic
is not misleading. -/
theorem answer_exact_iff {environment : Environment}
    {callbackCatalog : List CallbackCatalogEntry} {topicBuffer : ByteMemory}
    {labels : List ShadowOutput} {s : ShadowSystem} {running : Running}
    (hrun : Steps (Executes environment) (createdClient callbackCatalog topicBuffer) labels s)
    (hrunning : s.running = some running) (hwaits : running.Waits) (publish : MQTTPublishData) :
    AnswerExact running.params publish s.client ↔
      ¬ Misleading running.params.topic s.client.buffered publish.topicBytes := by
  have hawaits := awaits_of_steps hrun hrunning hwaits
  constructor
  · intro hexact hmisleading
    exact hmisleading.not_exact hawaits hexact
  · exact exact_of_not_misleading hawaits

/-- The topic of a get on the Thing `T`. -/
def getTopic : List UInt8 := ascii "$aws/things/T/shadow/get"

/-- The topic of the accepted answer to a get is not misleading. -/
theorem accepted_get_not_misleading :
    ¬ Misleading getTopic getTopic acceptedGet.topicBytes := by
  have htopic : acceptedGet.topicBytes = getTopic ++ Answer.accepted.suffix := by decide +kernel
  rw [htopic]
  intro h
  cases h with
  | short hshort _ => exact absurd hshort (by decide)
  | within answer hbegins _ => exact absurd hbegins (by decide)
  | beyond answer _ hends hne =>
      cases answer with
      | accepted => exact hne rfl
      | rejected => exact absurd hends (by decide)
  | missed answer _ hbegins => exact hbegins (List.prefix_append _ _)

theorem answer_exact_accepted_get :
    ∃ labels s running, Steps (Executes benchEnvironment) benchClient labels s ∧
      s.running = some running ∧ running.Waits ∧
        AnswerExact running.params acceptedGet s.client := by
  have hrun : ((replay (step benchEnvironment) waitingGet benchClient).any fun last =>
      last.1.running.any fun running => decide running.Waits &&
        decide (running.params.topic = getTopic) &&
          decide (running.params.operationParams.thingName.bytes.length < 2 ^ 16 ∧
            TopicFits running.params.operation.word
              running.params.operationParams.thingName.bytes)) = true := by
    decide +kernel
  obtain ⟨⟨s, labels⟩, hlast, hcheck⟩ := (Option.any_eq_true _ _).mp hrun
  obtain ⟨running, hrunning, hcheck⟩ := (Option.any_eq_true _ _).mp hcheck
  obtain ⟨hcheck, hname⟩ := Bool.and_eq_true_iff.mp hcheck
  obtain ⟨hwaits, htopic⟩ := Bool.and_eq_true_iff.mp hcheck
  have hsteps := steps_of_replay hlast
  obtain ⟨hshort, hfits⟩ := of_decide_eq_true hname
  have hbuffered := (awaits_of_steps hsteps hrunning (of_decide_eq_true hwaits)).buffered_eq
    hshort hfits
  refine ⟨labels, s, running, hsteps, hrunning, of_decide_eq_true hwaits, ?_⟩
  refine (answer_exact_iff hsteps hrunning (of_decide_eq_true hwaits) acceptedGet).mpr ?_
  rw [hbuffered, of_decide_eq_true htopic]
  exact accepted_get_not_misleading

/-- A message one level below the topic of a get. -/
def deeperGet : MQTTPublishData := benchMessage (ascii "$aws/things/T/shadow/get/x/accepted")

/-- It is taken for the accepted answer. -/
theorem answer_taken_deeper :
    ∃ labels s running, Steps (Executes benchEnvironment) benchClient labels s ∧
      s.running = some running ∧ running.Waits ∧
      ¬ AnswerExact running.params deeperGet s.client := by
  have hrun : ((replay (step benchEnvironment) waitingGet benchClient).any fun last =>
      last.1.running.any fun running => decide running.Waits &&
        decide (running.params.topic = getTopic) &&
          (matchOperationInProgress deeperGet last.1.client).isSome) = true := by
    decide +kernel
  obtain ⟨⟨s, labels⟩, hlast, hcheck⟩ := (Option.any_eq_true _ _).mp hrun
  obtain ⟨running, hrunning, hcheck⟩ := (Option.any_eq_true _ _).mp hcheck
  obtain ⟨hcheck, hmatch⟩ := Bool.and_eq_true_iff.mp hcheck
  obtain ⟨hwaits, htopic⟩ := Bool.and_eq_true_iff.mp hcheck
  refine ⟨labels, s, running, steps_of_replay hlast, hrunning, of_decide_eq_true hwaits, ?_⟩
  intro hexact
  have hstatus : prvParseShadowOperationStatus deeperGet = Answer.accepted.result := by
    decide +kernel
  have heq := (hexact.taken .accepted).mp ⟨hmatch, hstatus⟩
  have hne : deeperGet.topicBytes ≠ getTopic ++ Answer.accepted.suffix := by decide +kernel
  have hparams : running.params.topic = getTopic := of_decide_eq_true htopic
  exact hne (hparams ▸ heq)

end TivaAws.Shadow
