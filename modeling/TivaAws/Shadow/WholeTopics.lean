import Mathlib.Data.List.Chain
import TivaAws.Shadow.CatalogMatch

/-!
# Whole topics

`prvCreateTopic` for any format with one `%s` and any Thing name, and the topics that the operations
and registrations of a client pass to the MQTT agent. The lengths of both strings are cut to 16
bits, so a longer name makes a shorter topic. Where a topic does not fit, nothing is made, but the
result is not looked at and the empty topic is passed on.
-/

namespace TivaAws.Shadow

open ByteMemory Runs

/-! ## Formats -/

/-- A format with exactly one `%s`: what stands in front of it and behind it. -/
structure TopicFormat where
  front : List UInt8
  back : List UInt8
  front_chain : ('0'.toUInt8 :: (front ++ ['%'.toUInt8])).IsChain NotDirective
  back_chain : ('s'.toUInt8 :: back).IsChain NotDirective
  no_nul : 0 ∉ front ++ back

namespace TopicFormat

variable (format : TopicFormat)

/-- The string of a format. -/
def bytes : List UInt8 := format.front ++ '%'.toUInt8 :: 's'.toUInt8 :: format.back

/-- The name in the place of `%s`. -/
def fill (name : List UInt8) : List UInt8 := format.front ++ (name ++ format.back)

end TopicFormat

/-- `prvCreateTopic` writes only into the buffer, and fills it with the substitution and a NUL or
returns 0. -/
def CreatesTopic (bufferLength : Nat) (format : TopicFormat) (name : CString) : Prop :=
  ∀ memory : ByteMemory,
    let created := prvCreateTopic memory bufferLength format.bytes name
    (∀ i, bufferLength ≤ i → created.2 i = memory i) ∧
      (created.1 = 0 ∨
        (created.1 = (format.fill name.bytes).length ∧
          created.2.readBytes 0 (created.1 + 1) = format.fill name.bytes ++ [0]))

section Format

variable {memory : ByteMemory} {bufferLength : Nat} {format : TopicFormat} {name : CString}

theorem length_format : format.bytes.length = format.front.length + 2 + format.back.length := by
  simp only [TopicFormat.bytes, List.length_append, List.length_cons]
  omega

theorem length_fill (name : List UInt8) :
    (format.fill name).length + 2 = format.bytes.length + name.length := by
  simp only [TopicFormat.bytes, TopicFormat.fill, List.length_append, List.length_cons]
  omega

theorem fill_no_nul : 0 ∉ format.fill name.bytes := by
  have hformat := format.no_nul
  have hname := name.no_nul
  simp only [TopicFormat.fill, List.mem_append, not_or] at hformat ⊢
  exact ⟨hformat.1, hname, hformat.2⟩

/-- Only the first characters of a format count. -/
theorem create_topic_cut_format (memory : ByteMemory) (bufferLength : Nat)
    (topicFormat : List UInt8) (name : CString) :
    prvCreateTopic memory bufferLength topicFormat name =
      prvCreateTopic memory bufferLength (topicFormat.take (topicFormat.length % 2 ^ 16)) name := by
  have hle := Nat.mod_le topicFormat.length (2 ^ 16)
  have hlength : (topicFormat.take (topicFormat.length % 2 ^ 16)).length % 2 ^ 16 =
      topicFormat.length % 2 ^ 16 := by
    rw [List.length_take, Nat.min_eq_left hle, Nat.mod_mod]
  have htake : (topicFormat.take (topicFormat.length % 2 ^ 16)).take
      (topicFormat.length % 2 ^ 16) = topicFormat.take (topicFormat.length % 2 ^ 16) := by
    rw [List.take_take, Nat.min_self]
  unfold prvCreateTopic
  simp only [hlength, htake]

/-- Without a directive, a format is copied. -/
theorem create_topic_copy {topicFormat : List UInt8}
    (hformat : ('0'.toUInt8 :: topicFormat).IsChain NotDirective) (hbuffer : bufferLength < 2 ^ 16)
    (hroom : topicFormat.length + name.bytes.length < bufferLength) :
    prvCreateTopic memory bufferLength topicFormat name =
      ((topicFormat.length + name.bytes.length + 2 ^ 16 - 2) % 2 ^ 16,
        memory.writeBytes 0 (topicFormat ++ [0])) := by
  unfold prvCreateTopic
  simp only
  rw [Nat.mod_eq_of_lt (show topicFormat.length < 2 ^ 16 by omega),
    Nat.mod_eq_of_lt (show name.bytes.length < 2 ^ 16 by omega), if_neg (by omega),
    List.take_length, List.take_length, create_topic_loop_end hformat (by omega)]
  refine Prod.ext rfl ?_
  exact writeBytes_append memory 0 topicFormat [0]

/-- The lengths that count for the buffer. -/
def cutLengths (format : TopicFormat) (name : List UInt8) : Nat :=
  format.bytes.length % 2 ^ 16 + name.length % 2 ^ 16

/-- What is made in a buffer with room for it. -/
theorem create_topic_room (hbuffer : bufferLength < 2 ^ 16)
    (hroom : cutLengths format name.bytes < bufferLength) :
    ∃ string : List UInt8, string.length ≤ cutLengths format name.bytes ∧
      ∀ memory, prvCreateTopic memory bufferLength format.bytes name =
        ((cutLengths format name.bytes + 2 ^ 16 - 2) % 2 ^ 16,
          memory.writeBytes 0 (string ++ [0])) := by
  have hcutName := length_cut_name name.bytes
  have hcut : ∀ memory, prvCreateTopic memory bufferLength format.bytes name =
      prvCreateTopic memory bufferLength (format.bytes.take (format.bytes.length % 2 ^ 16))
        ⟨cutName name.bytes, cut_name_no_nul name⟩ := fun memory => by
    rw [create_topic_cut, create_topic_cut_format]
  unfold cutLengths at hroom ⊢
  have hle := Nat.mod_le format.bytes.length (2 ^ 16)
  generalize format.bytes.length % 2 ^ 16 = size at hcut hroom hle ⊢
  by_cases hdirective : size < format.front.length + 2
  · -- The directive is cut off.
    have htake : format.bytes.take size = (format.front ++ ['%'.toUInt8]).take size := by
      rw [TopicFormat.bytes, show format.front ++ '%'.toUInt8 :: 's'.toUInt8 :: format.back =
        (format.front ++ ['%'.toUInt8]) ++ 's'.toUInt8 :: format.back by simp,
        List.take_append_of_le_length (by simp; omega)]
    have hlength : (format.bytes.take size).length = size :=
      List.length_take_of_le hle
    have hchain : ('0'.toUInt8 :: format.bytes.take size).IsChain NotDirective := by
      rw [htake]
      exact format.front_chain.take (size + 1)
    refine ⟨format.bytes.take size, by omega, fun memory => ?_⟩
    rw [hcut, create_topic_copy hchain hbuffer (by rw [hlength, hcutName]; exact hroom), hlength,
      hcutName]
  · -- It is kept, and what is behind it may be cut.
    obtain ⟨rest, rfl⟩ := Nat.exists_eq_add_of_le (Nat.not_lt.mp hdirective)
    have htake : format.bytes.take (format.front.length + 2 + rest) =
        format.front ++ '%'.toUInt8 :: 's'.toUInt8 :: format.back.take rest := by
      rw [TopicFormat.bytes, Nat.add_assoc, List.take_length_add_append, Nat.add_comm 2 rest]
      rfl
    have hrest : (format.back.take rest).length = rest := by
      rw [length_format] at hle
      exact List.length_take_of_le (by omega)
    have hcreated := fun memory => @create_topic_eq memory bufferLength format.front
      (format.back.take rest) ⟨cutName name.bytes, cut_name_no_nul name⟩ format.front_chain
      (format.back_chain.take (rest + 1)) hbuffer (by
        simp only [List.length_append, List.length_cons, hrest, hcutName]
        omega)
    refine ⟨format.front ++ (cutName name.bytes ++ format.back.take rest), ?_, fun memory => ?_⟩
    · simp only [List.length_append, hrest, hcutName]
      omega
    · rw [hcut, htake, hcreated]
      refine Prod.ext ?_ rfl
      simp only [List.length_append, hrest, hcutName]
      omega

/-- What is made, if nothing is cut. -/
theorem create_topic_whole (hbuffer : bufferLength < 2 ^ 16)
    (hroom : format.bytes.length + name.bytes.length < bufferLength) (memory : ByteMemory) :
    prvCreateTopic memory bufferLength format.bytes name =
      ((format.fill name.bytes).length, memory.writeBytes 0 (format.fill name.bytes ++ [0])) :=
  create_topic_eq format.front_chain format.back_chain hbuffer hroom

/-- A topic is created for a buffer just when nothing is cut, nothing is made, or 0 is returned
although something is made. -/
theorem creates_topic_iff (hbuffer : bufferLength < 2 ^ 16) :
    CreatesTopic bufferLength format name ↔
      (format.bytes.length < 2 ^ 16 ∧ name.bytes.length < 2 ^ 16) ∨
        bufferLength ≤ cutLengths format name.bytes ∨ cutLengths format name.bytes = 2 := by
  by_cases hroom : cutLengths format name.bytes < bufferLength
  · obtain ⟨string, hstring, hcreated⟩ := create_topic_room hbuffer hroom
    have hlength := @length_fill format name.bytes
    unfold cutLengths at hstring hcreated hroom ⊢
    constructor
    · intro hcreates
      obtain ⟨-, hresult⟩ := hcreates fun _ => 0
      rw [hcreated] at hresult
      simp only at hresult
      obtain hzero | ⟨hsame, hread⟩ := hresult
      · exact .inr (.inr (by omega))
      · refine .inl ?_
        by_contra hlong
        -- The topic that is made is shorter than the length that is returned.
        have hshorter : string.length + 1 ≤ (format.fill name.bytes).length := by omega
        have htake := congrArg (List.take (string.length + 1)) hread
        rw [take_readBytes _ _ (by omega), string_in_buffer,
          List.take_append_of_le_length hshorter] at htake
        have hnul : 0 ∈ (format.fill name.bytes).take (string.length + 1) := by
          rw [← htake]
          exact List.mem_append_right _ (List.mem_singleton_self 0)
        exact fill_no_nul (List.mem_of_mem_take hnul)
    · intro hcondition memory
      have hinside : ∀ i, bufferLength ≤ i →
          (prvCreateTopic memory bufferLength format.bytes name).2 i = memory i := by
        intro i hi
        rw [hcreated]
        show memory.writeBytes 0 (string ++ [0]) i = memory i
        refine writeBytes_above memory ?_
        rw [List.length_append, List.length_singleton]
        omega
      refine ⟨hinside, ?_⟩
      obtain ⟨hformat, hname⟩ | hnone | hzero := hcondition
      · rw [create_topic_whole hbuffer (by omega)]
        exact .inr ⟨rfl, string_in_buffer memory⟩
      · omega
      · rw [hcreated, hzero]
        exact .inl rfl
  · refine iff_of_true (fun memory => ?_) (.inr (.inl (Nat.not_lt.mp hroom)))
    have hnone : prvCreateTopic memory bufferLength format.bytes name = (0, memory) := by
      unfold prvCreateTopic
      exact if_pos (Nat.not_lt.mp hroom)
    rw [hnone]
    exact ⟨fun _ _ => rfl, .inl rfl⟩

end Format

/-! ## Topics of calls -/

/-- The whole topic of a Thing, with its NUL, fits in the buffer. -/
def HasRoom (suffix name : List UInt8) : Prop :=
  (topicPrefix ++ suffix).length + name.length < topicBufferLength

instance (suffix name : List UInt8) : Decidable (HasRoom suffix name) :=
  inferInstanceAs (Decidable (_ < _))

/-- The topic of a call is that of its Thing just when it fits. -/
theorem topic_bytes_iff {suffix : List UInt8} {name : CString} :
    topicBytes suffix name = shadowTopic name.bytes suffix ↔ HasRoom suffix name.bytes := by
  have hcut := length_cut_name name.bytes
  unfold topicBytes createdTopic
  constructor
  · intro htopic
    split_ifs at htopic with hfits
    · have hname : cutName name.bytes = name.bytes :=
        List.append_cancel_right (List.append_cancel_left htopic)
      unfold TopicFits at hfits
      rw [hname] at hfits
      exact hfits
    · have hfront := congrArg List.length htopic
      simp [shadowTopic, ascii] at hfront
  · intro hroom
    have hshort : name.bytes.length < 2 ^ 16 :=
      Nat.lt_of_le_of_lt (Nat.le_add_left _ _) (Nat.lt_trans hroom (by decide))
    have hfits : TopicFits suffix name.bytes := by
      unfold TopicFits
      rw [cut_name_of_short hshort]
      exact hroom
    rw [if_pos hfits, cut_name_of_short hshort]
    rfl

theorem callback_fits_iff {kind : CallbackKind} {name : List UInt8} :
    kind.Fits name ↔ HasRoom kind.suffix name := by
  unfold CallbackKind.Fits HasRoom
  rw [callback_topic_format]

/-- The topic of a registration. -/
theorem registration_topic_bytes (stack : ByteMemory) (kind : CallbackKind)
    (registration : Registration) :
    registration.topic stack kind = topicBytes kind.suffix registration.params.thingName := by
  unfold Registration.topic
  rw [callback_topic_format]
  exact call_topic_bytes (suffix_callback kind) stack registration.params.thingName

theorem registration_topic_whole {stack : ByteMemory} {kind : CallbackKind}
    {registration : Registration} :
    registration.topic stack kind = kind.topic registration.thing ↔
      kind.Fits registration.thing := by
  rw [registration_topic_bytes, callback_fits_iff]
  exact topic_bytes_iff

/-- The suffix of the topic that an operation passes to the MQTT agent in a phase. -/
def Phase.suffix (operation : Operation) : Phase → Option (List UInt8)
  | .subscribeAccepted | .undoAccepted | .unsubscribeAccepted =>
      some (operation.word ++ topicSuffixAccepted)
  | .subscribeRejected | .unsubscribeRejected => some (operation.word ++ topicSuffixRejected)
  | .publishing => some operation.word
  | .setFlag | .takeSemaphore | .publish | .waiting | .giveSemaphore | .cleanUp | .finish => none

/-- The callback for which a registration is in a call of the MQTT agent. -/
def RegistrationPhase.calls : RegistrationPhase → Option CallbackKind
  | .unsubscribing kind | .subscribing kind => some kind
  | .found _ | .enter _ | .store _ _ | .test | .clear => none

/-- The operation passes the whole topic. -/
def Running.PassesWhole (running : Running) : Prop :=
  ∀ suffix ∈ running.phase.suffix running.params.operation,
    running.topic = shadowTopic running.params.operationParams.thingName.bytes suffix

/-- The registration passes the whole topic. -/
def Registration.PassesWhole (stack : ByteMemory) (registration : Registration) : Prop :=
  ∀ kind ∈ registration.phase.calls,
    registration.topic stack kind = kind.topic registration.thing

/-- All topics in calls of the MQTT agent are whole. -/
structure TopicsWhole (environment : Environment) (s : CallbackSystem) : Prop where
  operation : ∀ running ∈ s.system.running, running.PassesWhole
  registrations : ∀ registration ∈ s.registrations, registration.PassesWhole environment.stack

/-- The suffix of the topic that an operation goes on to pass by itself. -/
def nextSuffix (environment : Environment) (running : Running) (s : ShadowSystem) :
    Option (List UInt8) :=
  let call := running.params
  match running.phase with
  | .publish => some call.operation.word
  | .cleanUp =>
      if call.operationParams.keepSubscriptions then none
      else if call.operation = .delete then
        let created := prvCreateTopic s.client.topicBuffer topicBufferLength
          Operation.delete.acceptedTopic call.operationParams.thingName
        let s := { s with client.topicBuffer := created.2 }
        if (prvMatchCallbackTopic environment s.client s.client.topicBuffer
            (strlen s.client.topicBuffer topicBufferLength)).isNone then
          some (call.operation.word ++ topicSuffixRejected)
        else none
      else some (call.operation.word ++ topicSuffixAccepted)
  | _ => none

/-- The topic fits that an operation is the first to need: to subscribe, for its request, or to
clean up. -/
def OperationRoom (environment : Environment) (s : ShadowSystem) : Event → Prop
  | .start operation params =>
      prvGetSubscribedFlag operation.toName s.client = false →
        HasRoom (operation.word ++ topicSuffixAccepted) params.thingName.bytes
  | .proceed =>
      ∀ running ∈ s.running, ∀ suffix ∈ nextSuffix environment running s,
        HasRoom suffix running.params.operationParams.thingName.bytes
  | _ => True

/-- The topic fits that the event is the first to need, of an operation or of a callback with an old
or a new function. -/
def TopicRoom (environment : Environment) (s : CallbackSystem) : CallbackEvent → Prop
  | .shadow event => OperationRoom environment s.system event
  | .proceed i =>
      ∀ registration ∈ s.registrations[i]?, ∀ entry ∈ s.entry registration,
        ∀ kind ∈ CallbackKind.all, registration.phase = .enter kind →
          (entry.callback kind).isSome ∨ (registration.params.callback kind).isSome →
            kind.Fits registration.thing
  | _ => True

instance (environment : Environment) (s : ShadowSystem) :
    (event : Event) → Decidable (OperationRoom environment s event)
  | .start operation params => inferInstanceAs (Decidable (
      prvGetSubscribedFlag operation.toName s.client = false →
        HasRoom (operation.word ++ topicSuffixAccepted) params.thingName.bytes))
  | .proceed => inferInstanceAs (Decidable (∀ running ∈ s.running,
      ∀ suffix ∈ nextSuffix environment running s,
        HasRoom suffix running.params.operationParams.thingName.bytes))
  | .mqttReturns _ _ | .timeOut | .message _ | .connect | .disconnect => isTrue trivial

instance (environment : Environment) (s : CallbackSystem) :
    (event : CallbackEvent) → Decidable (TopicRoom environment s event)
  | .shadow event => inferInstanceAs (Decidable (OperationRoom environment s.system event))
  | .proceed i => inferInstanceAs (Decidable (∀ registration ∈ s.registrations[i]?,
      ∀ entry ∈ s.entry registration, ∀ kind ∈ CallbackKind.all,
        registration.phase = .enter kind →
          (entry.callback kind).isSome ∨ (registration.params.callback kind).isSome →
            kind.topicFormat.length + registration.thing.length < topicBufferLength))
  | .register _ | .mqttReturns _ _ _ => isTrue trivial

/-! ## Operations -/

section Operations

variable {environment : Environment} {s s' : ShadowSystem} {running : Running} {phase : Phase}
  {labels : List ShadowOutput} {event : Event} {room : Prop}

/-- An operation that has been started, in a call with a topic made for it or in none. -/
structure Running.Made (running : Running) : Prop where
  params : running.params =
    shadowOperationCallParams running.params.operation running.params.operationParams
  topic : ∀ suffix ∈ running.phase.suffix running.params.operation,
    running.topic = topicBytes suffix running.params.operationParams.thingName

/-- The topic of the call that the operation is in fits. -/
def Running.Room (running : Running) : Prop :=
  ∀ suffix ∈ running.phase.suffix running.params.operation,
    HasRoom suffix running.params.operationParams.thingName.bytes

theorem Running.Made.whole_iff (hmade : running.Made) : running.PassesWhole ↔ running.Room :=
  forall₂_congr fun suffix hsuffix => by
    rw [hmade.topic suffix hsuffix]
    exact topic_bytes_iff

/-- The operation goes on or comes to its end, and the topic it then needs fits under a
condition. -/
structure GoesOn (s' : ShadowSystem) (room : Prop) : Prop where
  made : ∀ running ∈ s'.running, running.Made
  room : (∀ running ∈ s'.running, running.Room) ↔ room

/-- It goes on to a call. -/
theorem goes_on_call {suffix topicFormat : List UInt8} (hsuffix : TopicSuffix suffix)
    (hparams : running.params =
      shadowOperationCallParams running.params.operation running.params.operationParams)
    (hphase : phase.suffix running.params.operation = some suffix)
    (hformat : topicFormat = topicPrefix ++ suffix) :
    GoesOn (callWithTopic phase topicFormat running s)
      (HasRoom suffix running.params.operationParams.thingName.bytes) := by
  subst hformat
  constructor
  · intro running' hrunning'
    cases hrunning'
    refine ⟨hparams, fun suffix' hsuffix' => ?_⟩
    cases hphase.symm.trans hsuffix'
    exact call_topic_bytes hsuffix s.client.topicBuffer _
  · constructor
    · exact fun hroom => hroom _ rfl suffix hphase
    · intro hroom running' hrunning' suffix' hsuffix'
      cases hrunning'
      cases hphase.symm.trans hsuffix'
      exact hroom

/-- It goes on by itself. -/
theorem goes_on_idle {running' : Running} (hrunning' : s'.running = some running')
    (hstarted : running.params =
      shadowOperationCallParams running.params.operation running.params.operationParams)
    (hparams : running'.params = running.params)
    (hphase : running'.phase.suffix running'.params.operation = none) : GoesOn s' True := by
  constructor
  · intro other hother
    cases hrunning'.symm.trans hother
    refine ⟨?_, fun suffix hsuffix => (by cases hphase.symm.trans hsuffix)⟩
    rw [hparams]
    exact hstarted
  · refine iff_of_true (fun other hother suffix hsuffix => ?_) trivial
    cases hrunning'.symm.trans hother
    cases hphase.symm.trans hsuffix

theorem goes_on_none (hrunning' : s'.running = none) : GoesOn s' True :=
  ⟨fun _ h => (by cases hrunning'.symm.trans h),
    iff_of_true (fun _ h => (by cases hrunning'.symm.trans h)) trivial⟩

theorem GoesOn.congr {room' : Prop} (h : GoesOn s' room) (hroom : room ↔ room') :
    GoesOn s' room' := ⟨h.made, h.room.trans hroom⟩

theorem goes_on_start {operation : Operation} {params : ShadowOperationParams} :
    GoesOn (startOperation operation params s).1
      (OperationRoom environment s (.start operation params)) := by
  unfold startOperation OperationRoom
  simp only
  split_ifs with hflag
  · exact GoesOn.congr (goes_on_call (suffix_accepted operation) rfl rfl (List.append_assoc ..))
      ⟨fun h _ => h, fun h => h hflag⟩
  · refine GoesOn.congr (@goes_on_idle _ ⟨.setFlag, shadowOperationCallParams operation params,
      shadowSuccess, []⟩ _ rfl rfl rfl rfl) (iff_of_true trivial fun h => absurd h hflag)

/-- The topics for the answers. -/
theorem Running.Made.answer_topics (hmade : running.Made) :
    running.params.operationAcceptedTopic =
        topicPrefix ++ (running.params.operation.word ++ topicSuffixAccepted) ∧
      running.params.operationRejectedTopic =
        topicPrefix ++ (running.params.operation.word ++ topicSuffixRejected) := by
  rw [hmade.params]
  exact ⟨List.append_assoc .., List.append_assoc ..⟩

/-- The clean-up. -/
theorem goes_on_clean_up (hmade : running.Made) (hphase : running.phase = .cleanUp) :
    GoesOn (startCleanUp environment running s).1
      (∀ suffix ∈ nextSuffix environment running s,
        HasRoom suffix running.params.operationParams.thingName.bytes) := by
  obtain ⟨haccepted, hrejected⟩ := hmade.answer_topics
  unfold startCleanUp nextSuffix
  rw [hphase]
  simp only
  split_ifs with hkeep hdelete hnone
  · exact GoesOn.congr (goes_on_idle rfl hmade.params rfl rfl)
      (iff_of_true trivial fun suffix hsuffix => nomatch hsuffix)
  · exact GoesOn.congr (goes_on_call (suffix_rejected _) hmade.params rfl hrejected)
      ⟨fun h suffix hsuffix => Option.some.inj hsuffix ▸ h, fun h => h _ rfl⟩
  · exact GoesOn.congr (goes_on_idle rfl hmade.params rfl rfl)
      (iff_of_true trivial fun suffix hsuffix => nomatch hsuffix)
  · exact GoesOn.congr (goes_on_call (suffix_accepted _) hmade.params rfl haccepted)
      ⟨fun h suffix hsuffix => Option.some.inj hsuffix ▸ h, fun h => h _ rfl⟩

/-- What the operation does by itself. -/
theorem goes_on_proceed (hmade : running.Made) (hrunning : s.running = some running)
    (h : proceedOperation environment running s = some (s', labels)) :
    GoesOn s' (OperationRoom environment s .proceed) := by
  have hroom : OperationRoom environment s .proceed ↔
      ∀ suffix ∈ nextSuffix environment running s,
        HasRoom suffix running.params.operationParams.thingName.bytes := by
    constructor
    · exact fun hall => hall running hrunning
    · intro hall other hother
      cases hrunning.symm.trans hother
      exact hall
  -- A topic is made for the request and at the beginning of the clean-up only.
  have hidle : running.phase ≠ .publish → running.phase ≠ .cleanUp →
      OperationRoom environment s .proceed := by
    intro hpublish hcleanUp
    rw [hroom]
    unfold nextSuffix
    cases hphase : running.phase with
    | publish => exact absurd hphase hpublish
    | cleanUp => exact absurd hphase hcleanUp
    | _ =>
        intro suffix hsuffix
        cases hsuffix
  cases proceed_cases h with
  | publish hphase =>
      have htopic : running.params.operationTopic =
          topicPrefix ++ running.params.operation.word := by
        rw [hmade.params]
        rfl
      have hcalled := @goes_on_call s running .publishing _ _
        (suffix_word running.params.operation) hmade.params rfl htopic
      refine GoesOn.congr ⟨hcalled.made, hcalled.room⟩ ?_
      rw [hroom, nextSuffix, hphase]
      exact ⟨fun h suffix hsuffix => Option.some.inj hsuffix ▸ h, fun h => h _ rfl⟩
  | cleanUp hphase => exact (goes_on_clean_up hmade hphase).congr hroom.symm
  | finish hphase =>
      exact GoesOn.congr (goes_on_none rfl)
        (iff_of_true trivial (hidle (by rw [hphase]; decide) (by rw [hphase]; decide)))
  | setFlag hphase | takeSemaphore hphase | collect hphase | giveSemaphore hphase =>
      exact GoesOn.congr (goes_on_idle rfl hmade.params rfl rfl)
        (iff_of_true trivial (hidle (by rw [hphase]; decide) (by rw [hphase]; decide)))

/-- The answers to an operation have topics of one length. -/
theorem room_rejected_iff {operation : Operation} {name : List UInt8} :
    HasRoom (operation.word ++ topicSuffixRejected) name ↔
      HasRoom (operation.word ++ topicSuffixAccepted) name := by
  have hlength : topicSuffixRejected.length = topicSuffixAccepted.length := by decide
  unfold HasRoom
  simp only [List.length_append, hlength]

/-- The call of the operation returns. -/
theorem goes_on_return {code : MQTTAgentReturnCode} (hmade : running.Made) (hroom : running.Room)
    (h : returnMQTT code running s = some (s', labels)) : GoesOn s' True := by
  obtain ⟨haccepted, hrejected⟩ := hmade.answer_topics
  -- The two answer topics of an operation have the same length, so what holds of the one in the
  -- buffer holds of the next one.
  cases return_cases h with
  | acceptedSubscribed hphase | acceptedUnsubscribed hphase =>
      have hfits := hroom _ (by rw [hphase]; rfl)
      exact GoesOn.congr (goes_on_call (suffix_rejected _) hmade.params rfl hrejected)
        (iff_of_true (room_rejected_iff.mpr hfits) trivial)
  | rejectedFails hphase =>
      have hfits := hroom _ (by rw [hphase]; rfl)
      exact GoesOn.congr (goes_on_call (suffix_accepted _) hmade.params rfl haccepted)
        (iff_of_true (room_rejected_iff.mp hfits) trivial)
  | acceptedFails | rejectedSubscribed | undone | published | publishFails | rejectedUnsubscribed
  | rejectedStays => exact goes_on_idle rfl hmade.params rfl rfl

/-- An event lets the operation go on under a condition on the topic it needs then. -/
theorem goes_on_step (hmade : ∀ running ∈ s.running, running.Made)
    (hroom : ∀ running ∈ s.running, running.Room)
    (h : step environment s event = some (s', labels)) :
    GoesOn s' (OperationRoom environment s event) := by
  have hsame : s'.running = s.running → GoesOn s' True := fun hrunning => by
    constructor
    · rw [hrunning]
      exact hmade
    · rw [hrunning]
      exact iff_of_true hroom trivial
  obtain ⟨-, hcases⟩ := step_cases h
  cases event with
  | start operation params =>
      obtain ⟨-, -, -, hstart⟩ := hcases
      have hs : (startOperation operation params s).1 = s' := congrArg Prod.fst hstart
      subst hs
      exact goes_on_start
  | proceed =>
      obtain ⟨running, hrunning, hproceed⟩ := hcases
      exact goes_on_proceed (hmade running hrunning) hrunning hproceed
  | mqttReturns code effect =>
      obtain ⟨-, -, running, hrunning, hreturn⟩ := hcases
      exact goes_on_return (hmade running hrunning) (hroom running hrunning) hreturn
  | timeOut =>
      obtain ⟨running, hrunning, -, -, rfl, -⟩ := hcases
      exact goes_on_idle rfl (hmade running hrunning).params rfl rfl
  | message publish =>
      obtain ⟨-, rfl, -⟩ := hcases
      exact hsame rfl
  | connect =>
      obtain ⟨-, rfl, -⟩ := hcases
      exact hsame rfl
  | disconnect =>
      obtain ⟨-, rfl, -⟩ := hcases
      exact hsame rfl

end Operations

/-! ## Registrations -/

section Registrations

variable {environment : Environment} {s s' : CallbackSystem} {registration : Registration}
  {kind : CallbackKind} {i : Nat}

/-- A registration that goes on is the only one whose topic counts. -/
theorem whole_set_iff {next : Registration} {stack : ByteMemory}
    (hwhole : ∀ registration ∈ s.registrations, registration.PassesWhole stack)
    (hregistration : s.registrations[i]? = some registration) :
    (∀ registration ∈ s.registrations.set i next, registration.PassesWhole stack) ↔
      next.PassesWhole stack := by
  obtain ⟨hi, -⟩ := List.getElem?_eq_some_iff.mp hregistration
  constructor
  · exact fun hall => hall next (List.mem_set hi next)
  · intro hnext other hother
    obtain hmem | rfl := List.mem_or_eq_of_mem_set hother
    · exact hwhole other hmem
    · exact hnext

/-- A registration in no call of the MQTT agent. -/
theorem passes_whole_idle {stack : ByteMemory} (h : registration.phase.calls = none) :
    registration.PassesWhole stack := fun _ hkind => (by cases h.symm.trans hkind)

/-- A registration in a call for a callback. -/
theorem passes_whole_call {stack : ByteMemory} (h : registration.phase.calls = some kind) :
    registration.PassesWhole stack ↔ kind.Fits registration.thing := by
  rw [← @registration_topic_whole stack]
  constructor
  · exact fun hwhole => hwhole kind h
  · intro htopic other hother
    cases h.symm.trans hother
    exact htopic

theorem calls_after_unsubscribe (returnCode : ShadowReturnCode) :
    (registration.afterUnsubscribe kind returnCode).calls =
      if (registration.params.callback kind).isSome then some kind else none := by
  unfold Registration.afterUnsubscribe
  split_ifs <;> rfl

theorem calls_after_store (returnCode : ShadowReturnCode) :
    (afterStore kind returnCode).calls = none := by
  unfold afterStore
  split_ifs
  · cases kind <;> rfl
  · rfl

/-- What a registration does by itself. -/
theorem whole_proceed_iff
    (hwhole : ∀ registration ∈ s.registrations, registration.PassesWhole environment.stack)
    (hregistration : s.registrations[i]? = some registration)
    (h : s.proceed i registration = some s') :
    (∀ registration ∈ s'.registrations, registration.PassesWhole environment.stack) ↔
      TopicRoom environment s (.proceed i) := by
  obtain ⟨entry, hentry, hproceeds⟩ := registration_proceed_cases h
  have hroom : TopicRoom environment s (.proceed i) ↔ ∀ kind, registration.phase = .enter kind →
      (entry.callback kind).isSome = true ∨ (registration.params.callback kind).isSome = true →
        kind.Fits registration.thing := by
    constructor
    · exact fun hall kind => hall registration hregistration entry hentry kind kind.mem_all
    · intro hall other hother otherEntry hotherEntry kind _
      cases hregistration.symm.trans hother
      cases hentry.symm.trans hotherEntry
      exact hall kind
  have hidle : (∀ kind, registration.phase ≠ .enter kind) →
      TopicRoom environment s (.proceed i) := fun hnot =>
    hroom.mpr fun kind hphase => absurd hphase (hnot kind)
  have hset : ∀ {phase : RegistrationPhase}, phase.calls = none →
      ∀ other ∈ s.registrations.set i { registration with phase },
        other.PassesWhole environment.stack := fun hphase =>
    (whole_set_iff hwhole hregistration).mpr (passes_whole_idle hphase)
  have herase : ∀ registration ∈ s.registrations.eraseIdx i,
      registration.PassesWhole environment.stack := fun registration hmem =>
    hwhole registration (List.mem_of_mem_eraseIdx hmem)
  cases hproceeds with
  | @enter kind hphase =>
      refine (whole_set_iff hwhole hregistration).trans ?_
      have hfits : TopicRoom environment s (.proceed i) ↔
          ((entry.callback kind).isSome = true ∨ (registration.params.callback kind).isSome = true →
            kind.Fits registration.thing) := by
        rw [hroom]
        constructor
        · exact fun hall => hall kind hphase
        · intro hall other hother
          cases hphase.symm.trans hother
          exact hall
      rw [hfits]
      by_cases hold : (entry.callback kind).isSome = true
      · rw [if_pos hold, forall_prop_of_true (.inl hold)]
        exact passes_whole_call rfl
      · rw [if_neg hold]
        have hcalls := @calls_after_unsubscribe registration kind shadowSuccess
        -- Without an old callback the topic is made only if there is a new one.
        by_cases hnew : (registration.params.callback kind).isSome = true
        · rw [forall_prop_of_true (.inr hnew)]
          exact passes_whole_call (hcalls.trans (if_pos hnew))
        · refine iff_of_true (passes_whole_idle (hcalls.trans (if_neg hnew))) fun hneeded => ?_
          exact absurd hneeded (not_or.mpr ⟨hold, hnew⟩)
  -- At the other places no topic is made.
  | found hphase | mark hphase | isEmpty hphase =>
      exact iff_of_true (hset rfl) (hidle fun kind hother => by cases hphase.symm.trans hother)
  | store hphase | keep hphase =>
      exact iff_of_true (hset (calls_after_store _))
        (hidle fun kind hother => by cases hphase.symm.trans hother)
  | finish hphase | clear hphase =>
      exact iff_of_true herase (hidle fun kind hother => by cases hphase.symm.trans hother)

/-- The call of a registration returns. The topic of the next call is the same. -/
theorem whole_return {stack : ByteMemory} {code : MQTTAgentReturnCode} {effect : Bool}
    (hwhole : ∀ registration ∈ s.registrations, registration.PassesWhole stack)
    (hregistration : s.registrations[i]? = some registration)
    (h : s.mqttReturns stack i registration code effect = some s') :
    ∀ registration ∈ s'.registrations, registration.PassesWhole stack := by
  have hset : ∀ {phase : RegistrationPhase},
      ({ registration with phase } : Registration).PassesWhole stack →
      ∀ other ∈ s.registrations.set i { registration with phase }, other.PassesWhole stack :=
    (whole_set_iff hwhole hregistration).mpr
  have hbefore := hwhole registration (List.mem_of_getElem? hregistration)
  cases registration_return_cases h with
  | @unsubscribed kind hphase =>
      have hfits := (passes_whole_call (by rw [hphase]; rfl)).mp hbefore
      have hcalls := @calls_after_unsubscribe registration kind (prvConvertMQTTReturnCode code)
      have hnext : ({ registration with
          phase := registration.afterUnsubscribe kind (prvConvertMQTTReturnCode code) } :
            Registration).PassesWhole stack := by
        by_cases hnew : (registration.params.callback kind).isSome = true
        · exact (passes_whole_call (hcalls.trans (if_pos hnew))).mpr hfits
        · exact passes_whole_idle (hcalls.trans (if_neg hnew))
      cases effect <;> exact hset hnext
  | subscribed => cases effect <;> exact hset (passes_whole_idle rfl)

end Registrations

/-! ## Every run -/

section Runs

variable {environment : Environment} {s s' : CallbackSystem} {event : CallbackEvent}

/-- Outside of its own events an operation stays as it is. -/
theorem running_of_registration (hstep : callbackStep environment s event = some s')
    (hevent : ∀ other, event ≠ .shadow other) : s'.system.running = s.system.running := by
  have hcases := callback_step_cases hstep
  cases event with
  | shadow other => exact absurd rfl (hevent other)
  | register params =>
      obtain ⟨-, rfl⟩ := hcases
      unfold CallbackSystem.register
      split <;> rfl
  | proceed i =>
      obtain ⟨-, registration, -, hproceeds⟩ := hcases
      obtain ⟨entry, -, hproceeds⟩ := registration_proceed_cases hproceeds
      cases hproceeds <;> rfl
  | mqttReturns i code effect =>
      obtain ⟨-, -, -, registration, -, hreturns⟩ := hcases
      cases registration_return_cases hreturns <;> cases effect <;> rfl

/-- An event of an operation or of the connection lets the operation go on and leaves the
registrations alone. -/
theorem shadow_goes_on {event : Event} (hmade : ∀ running ∈ s.system.running, running.Made)
    (hwhole : TopicsWhole environment s)
    (hstep : callbackStep environment s (.shadow event) = some s') :
    GoesOn s'.system (OperationRoom environment s.system event) ∧
      s'.registrations = s.registrations := by
  obtain ⟨-, system, labels, hsystem, rfl⟩ := callback_step_cases hstep
  refine ⟨goes_on_step hmade (fun running hrunning => ?_) hsystem, rfl⟩
  exact (hmade running hrunning).whole_iff.mp (hwhole.operation running hrunning)

/-- The operation stays started, as long as the topics of its calls fit. -/
theorem made_step (hmade : ∀ running ∈ s.system.running, running.Made)
    (hwhole : TopicsWhole environment s) (hstep : callbackStep environment s event = some s') :
    ∀ running ∈ s'.system.running, running.Made := by
  cases event with
  | shadow event => exact (shadow_goes_on hmade hwhole hstep).1.made
  | register | proceed | mqttReturns =>
      rw [running_of_registration hstep fun other => nofun]
      exact hmade

/-- What an event does to the registrations. -/
theorem whole_registrations_iff (hwhole : TopicsWhole environment s)
    (hstep : callbackStep environment s event = some s') (hevent : ∀ other, event ≠ .shadow other) :
    (∀ registration ∈ s'.registrations, registration.PassesWhole environment.stack) ↔
      TopicRoom environment s event := by
  have hcases := callback_step_cases hstep
  cases event with
  | shadow other => exact absurd rfl (hevent other)
  | register params =>
      obtain ⟨-, rfl⟩ := hcases
      refine iff_of_true ?_ trivial
      unfold CallbackSystem.register
      split
      · exact hwhole.registrations
      · intro registration hmem
        obtain hold | hnew := List.mem_append.mp hmem
        · exact hwhole.registrations registration hold
        · cases List.mem_singleton.mp hnew
          exact passes_whole_idle rfl
  | proceed i =>
      obtain ⟨-, registration, hregistration, hproceeds⟩ := hcases
      exact whole_proceed_iff hwhole.registrations hregistration hproceeds
  | mqttReturns i code effect =>
      obtain ⟨-, -, -, registration, hregistration, hreturns⟩ := hcases
      exact iff_of_true (whole_return hwhole.registrations hregistration hreturns) trivial

/-- A step keeps all topics whole just when the topic that it is the first to need fits. -/
theorem topics_whole_step_iff (hmade : ∀ running ∈ s.system.running, running.Made)
    (hwhole : TopicsWhole environment s) (hstep : callbackStep environment s event = some s') :
    TopicsWhole environment s' ↔ TopicRoom environment s event := by
  cases event with
  | shadow event =>
      obtain ⟨hgoesOn, hregistrations⟩ := shadow_goes_on hmade hwhole hstep
      refine Iff.trans ?_ hgoesOn.room
      have hwholes : (∀ running ∈ s'.system.running, running.PassesWhole) ↔
          ∀ running ∈ s'.system.running, running.Room :=
        forall₂_congr fun running hrunning => (hgoesOn.made running hrunning).whole_iff
      rw [← hwholes]
      constructor
      · exact fun h => h.operation
      · refine fun h => ⟨h, ?_⟩
        rw [hregistrations]
        exact hwhole.registrations
  | register | proceed | mqttReturns =>
      rw [← whole_registrations_iff hwhole hstep fun other => nofun]
      constructor
      · exact fun h => h.registrations
      · refine fun h => ⟨?_, h⟩
        rw [running_of_registration hstep fun other => nofun]
        exact hwhole.operation

theorem always_whole_iff (environment : Environment) (things : Nat) (topicBuffer : ByteMemory)
    (events : List CallbackEvent) :
    Always (callbackStep environment) (TopicsWhole environment) (.created things topicBuffer)
        events ↔
      Throughout (callbackStep environment) (TopicRoom environment) (.created things topicBuffer)
        events := by
  refine always_iff_throughout
    (fun s : CallbackSystem => ∀ running ∈ s.system.running, running.Made)
    (fun hmade hwhole _ hstep => made_step hmade hwhole hstep) topics_whole_step_iff ?_ ?_
  · exact fun running hrunning => (by cases hrunning)
  · exact ⟨fun running hrunning => (by cases hrunning), fun _ h => absurd h List.not_mem_nil⟩

/-- A topic is created for a buffer, a format and a name just when nothing is cut, nothing is made
or 0 is returned. In every run all topics in calls of the MQTT agent are whole just when the topics
fit. -/
theorem topics_whole_iff (usBufferLength : UInt16) (format : TopicFormat) (name : CString)
    (environment : Environment) (things : Nat) (topicBuffer : ByteMemory)
    (events : List CallbackEvent) :
    (CreatesTopic usBufferLength.toNat format name ↔
      (format.bytes.length < 2 ^ 16 ∧ name.bytes.length < 2 ^ 16) ∨
        usBufferLength.toNat ≤ cutLengths format name.bytes ∨
          cutLengths format name.bytes = 2) ∧
    (Always (callbackStep environment) (TopicsWhole environment) (.created things topicBuffer)
        events ↔
      Throughout (callbackStep environment) (TopicRoom environment) (.created things topicBuffer)
        events) :=
  ⟨creates_topic_iff usBufferLength.toNat_lt,
    always_whole_iff environment things topicBuffer events⟩

end Runs

/-- A get on a Thing with a name of 200 letters. -/
def longGet : CallbackEvent :=
  .shadow (.start .get { benchParams 84 bench_thing_ne_zero false with
    thingName := ⟨List.replicate 200 97, by decide⟩ })

/-- It subscribes to the empty topic. -/
theorem long_name_subscribes_nothing :
    ¬ Always (callbackStep benchEnvironment) (TopicsWhole benchEnvironment) (.created 1 fun _ => 0)
      [.shadow .connect, longGet] := by
  rw [always_whole_iff]
  decide +kernel

end TivaAws.Shadow
