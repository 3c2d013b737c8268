import TivaAws.Foundation.Offers
import TivaAws.Mqtt.HandlerSteps
import TivaAws.Mqtt.Replay
import TivaAws.Mqtt.SubscriptionTable
import TivaAws.Mqtt.TopicMatch

/-!
# Delivering a publish

A received publish is offered to the callbacks of the subscriptions: to those whose filter is the
topic, and then to those whose wild cards match it, until one of them takes the buffer. The generic
callback gets it if there was nobody to offer it to. The Rx buffer goes back to the pool if nobody
took it.

Wild cards match as `prvDoesTopicMatchTopicFilter` decides. For a topic that may be published that
is the rule of MQTT without the topics that stop at a `#` (`MQTTSubscription.Covers`).
-/

namespace TivaAws.Mqtt

open Session Offers

variable {W : Type} {s : Session W}

/-! ## Subscription callbacks -/

/-- The callback of a subscription, if it has one, with its context. -/
def MQTTSubscription.candidate (subscription : MQTTSubscription) :
    Option (FunctionPointer × CallbackContext) :=
  subscription.publishCallback.map fun callback => (callback, subscription.publishCallbackContext)

/-- The callbacks of the entries with a property, in the order of the table. -/
def candidatesOf (isMatch : MQTTSubscription → Bool) (entries : List MQTTSubscription) :
    List (FunctionPointer × CallbackContext) :=
  (entries.filter isMatch).filterMap MQTTSubscription.candidate

/-- The callbacks that a publish on a topic is offered to: those of the entries without wild cards
first. -/
def MQTTSubscriptionManager.candidates (topic : List UInt8) (manager : MQTTSubscriptionManager) :
    List (FunctionPointer × CallbackContext) :=
  candidatesOf (MQTTSubscription.matchesExactly topic) manager.subscriptions.toList ++
    candidatesOf (MQTTSubscription.matchesWildCard topic) manager.subscriptions.toList

/-- The subscription is in use and its filter, which has no wild cards, is the topic. -/
def MQTTSubscription.Names (topic : List UInt8) (subscription : MQTTSubscription) : Prop :=
  subscription.inUse = true ∧ subscription.topicFilterType = .simple ∧
    subscription.topicFilter = topic

/-- The subscription is in use and its filter, which has wild cards, matches the topic level by
level. A topic that stops where the `#` of the filter would begin is missed. -/
def MQTTSubscription.Covers (topic : List UInt8) (subscription : MQTTSubscription) : Prop :=
  subscription.inUse = true ∧ subscription.topicFilterType = .wildCard ∧
    TopicMatches topic subscription.topicFilter ∧
    ¬ StopsAtNumberSign topic subscription.topicFilter

/-- The topic may be published: it has characters, and no wild cards among them. -/
def IsTopicName (topic : List UInt8) : Prop :=
  topic ≠ [] ∧ plusSign ∉ topic ∧ numberSign ∉ topic

/-- The filters in use are valid, as in every table that subscribing leads to. -/
def MQTTSubscriptionManager.FiltersValid (manager : MQTTSubscriptionManager) : Prop :=
  ∀ subscription ∈ manager.subscriptions.toList, subscription.inUse = true →
    prvGetTopicFilterType subscription.topicFilter ≠ .invalid

instance (manager : MQTTSubscriptionManager) : Decidable manager.FiltersValid :=
  inferInstanceAs (Decidable (∀ subscription ∈ manager.subscriptions.toList, _))

theorem MQTTSubscriptionManager.Sound.filters_valid {manager : MQTTSubscriptionManager}
    (h : manager.Sound) : manager.FiltersValid := by
  intro subscription hmem hinUse
  obtain ⟨i, hi, rfl⟩ := Vector.mem_iff_getElem.mp (Vector.mem_toList_iff.mp hmem)
  exact (h.valid ⟨i, hi⟩ hinUse).accepted

theorem matches_exactly_iff {topic : List UInt8} {subscription : MQTTSubscription} :
    MQTTSubscription.matchesExactly topic subscription = true ↔ subscription.Names topic := by
  unfold MQTTSubscription.matchesExactly MQTTSubscription.Names
  rw [Bool.and_eq_true, Bool.and_eq_true, beq_iff_eq, beq_iff_eq, and_assoc]

/-- For a topic that may be published and a valid filter, the test of the second loop is the rule
without the topics that stop at a `#`. -/
theorem matches_wild_card_iff {topic : List UInt8} {subscription : MQTTSubscription}
    (htopic : IsTopicName topic)
    (hvalid : subscription.inUse = true →
      prvGetTopicFilterType subscription.topicFilter ≠ .invalid) :
    MQTTSubscription.matchesWildCard topic subscription = true ↔ subscription.Covers topic := by
  unfold MQTTSubscription.matchesWildCard MQTTSubscription.Covers
  rw [Bool.and_eq_true, Bool.and_eq_true, beq_iff_eq, and_assoc]
  refine and_congr_right fun hinUse => and_congr_right fun _ => ?_
  exact topic_match_accepts_iff (hvalid hinUse) htopic.1 htopic.2.1 htopic.2.2

/-- The call of a callback that has answered whether it takes the buffer. -/
def publishCall (publish : MQTTPublishData)
    (answer : (FunctionPointer × CallbackContext) × Bool) : MQTTOutput :=
  .publishCallback answer.1.1 answer.1.2 publish answer.2

theorem candidates_of_cons_none {isMatch : MQTTSubscription → Bool}
    {subscription : MQTTSubscription} {rest : List MQTTSubscription}
    (h : isMatch subscription = true → subscription.publishCallback = none) :
    candidatesOf isMatch (subscription :: rest) = candidatesOf isMatch rest := by
  unfold candidatesOf
  by_cases hmatch : isMatch subscription = true
  · rw [List.filter_cons_of_pos hmatch, List.filterMap_cons_none]
    unfold MQTTSubscription.candidate
    rw [h hmatch]
    rfl
  · rw [List.filter_cons_of_neg hmatch]

theorem candidates_of_cons_some {isMatch : MQTTSubscription → Bool}
    {subscription : MQTTSubscription} {rest : List MQTTSubscription} {callback : FunctionPointer}
    (hmatch : isMatch subscription = true)
    (hcallback : subscription.publishCallback = some callback) :
    candidatesOf isMatch (subscription :: rest) =
      (callback, subscription.publishCallbackContext) :: candidatesOf isMatch rest := by
  unfold candidatesOf
  rw [List.filter_cons_of_pos hmatch, List.filterMap_cons_some]
  unfold MQTTSubscription.candidate
  rw [hcallback]
  rfl

/-- One loop of `prvInvokeSubscriptionCallbacks` offers the publish to its candidates. -/
theorem invoke_matching_offers (user : MQTTInitParams W) (publish : MQTTPublishData)
    (isMatch : MQTTSubscription → Bool) (entries : List MQTTSubscription) (invoked : Bool)
    (s : Session W) :
    let result := invokeMatching user publish isMatch entries invoked s
    ∃ answers, Offered (candidatesOf isMatch entries) answers ∧
      Calls user s (answers.map (publishCall publish)) result.2.2 ∧
      result.2.2.context = s.context ∧ result.1 = isTaken answers ∧
      result.2.1 = (invoked || !answers.isEmpty) := by
  induction entries generalizing invoked s with
  | nil => exact ⟨[], .nil, .refl s, rfl, rfl, by simp [invokeMatching]⟩
  | cons subscription rest ih =>
      unfold invokeMatching
      by_cases hmatch : isMatch subscription = true
      · rw [if_pos hmatch]
        cases hcallback : subscription.publishCallback with
        | none =>
            rw [candidates_of_cons_none fun _ => hcallback]
            exact ih invoked s
        | some callback =>
            rw [candidates_of_cons_some hmatch hcallback]
            simp only
            cases hanswer : user.publishCallback callback subscription.publishCallbackContext
              publish s.world with
            | mk takes w =>
                have hcall : Calls user s
                    [.publishCallback callback subscription.publishCallbackContext publish takes]
                    _ := calls_emit hanswer
                cases takes with
                | true =>
                    rw [if_pos rfl]
                    exact ⟨[((callback, _), true)], .taken _ _, hcall, rfl, rfl, by simp⟩
                | false =>
                    rw [if_neg Bool.false_ne_true]
                    obtain ⟨answers, hoffered, hcalls, hcontext, hresult, hinvoked⟩ := ih true
                      (Session.emit (.publishCallback callback subscription.publishCallbackContext
                        publish false) { s with world := w })
                    refine ⟨((callback, _), false) :: answers, .refused _ hoffered,
                      hcall.trans hcalls, hcontext, hresult, ?_⟩
                    rw [hinvoked]
                    simp
      · rw [if_neg hmatch, candidates_of_cons_none fun h => absurd h hmatch]
        exact ih invoked s

/-- `prvInvokeSubscriptionCallbacks` offers the publish to the exact matches and then to the wild
cards. -/
theorem invoke_subscription_callbacks_offers (user : MQTTInitParams W) (publish : MQTTPublishData)
    (s : Session W) :
    let result := prvInvokeSubscriptionCallbacks user publish s
    ∃ answers,
      Offered (s.context.subscriptionManager.candidates publish.topic) answers ∧
      Calls user s (answers.map (publishCall publish)) result.2.2 ∧
      result.2.2.context = s.context ∧ result.1 = isTaken answers ∧
      result.2.1 = !answers.isEmpty := by
  obtain ⟨answers, hoffered, hcalls, hcontext, htaken, hinvoked⟩ := invoke_matching_offers
    user publish (MQTTSubscription.matchesExactly publish.topic)
    s.context.subscriptionManager.subscriptions.toList false s
  unfold prvInvokeSubscriptionCallbacks
  simp only
  generalize invokeMatching user publish (MQTTSubscription.matchesExactly publish.topic)
    s.context.subscriptionManager.subscriptions.toList false s = exact
    at hcalls hcontext htaken hinvoked ⊢
  by_cases hexact : exact.1 = true
  · rw [if_pos hexact]
    exact ⟨answers, hoffered.append_taken (htaken.symm.trans hexact) _, hcalls, hcontext, htaken,
      by rw [hinvoked, Bool.false_or]⟩
  · rw [if_neg hexact]
    obtain ⟨others, hothers, hcalls', hcontext', htaken', hinvoked'⟩ := invoke_matching_offers
      user publish (MQTTSubscription.matchesWildCard publish.topic)
      s.context.subscriptionManager.subscriptions.toList exact.2.1 exact.2.2
    have hrefused : isTaken answers = false := htaken.symm.trans (Bool.not_eq_true _ ▸ hexact)
    refine ⟨answers ++ others, hoffered.append hrefused hothers, ?_, hcontext'.trans hcontext,
      ?_, ?_⟩
    · rw [List.map_append]
      exact hcalls.trans hcalls'
    · rw [htaken', is_taken_append, hrefused, Bool.false_or]
    · rw [hinvoked', hinvoked]
      cases answers <;> cases others <;> rfl

/-! ## The generic callback -/

/-- What is put out for the generic callback: it is called if it is registered and no callback of
a subscription has been. -/
def genericCall (user : MQTTInitParams W) (publish : MQTTPublishData)
    (answers : List ((FunctionPointer × CallbackContext) × Bool)) (takes : Bool) :
    List MQTTOutput :=
  if answers = [] ∧ user.callback.isSome then [.eventCallback (.publish publish) takes] else []

/-- The buffer has been taken by a callback of a subscription or by the generic one. -/
def deliveryTaken (user : MQTTInitParams W)
    (answers : List ((FunctionPointer × CallbackContext) × Bool)) (takes : Bool) : Bool :=
  isTaken answers || (answers.isEmpty && (user.callback.isSome && takes))

/-- `prvInvokeCallback` on a publish. -/
theorem invoke_callback_delivers (user : MQTTInitParams W) (publish : MQTTPublishData)
    (s : Session W) :
    let result := prvInvokeCallback user (.publish publish) s
    ∃ answers takes,
      Offered (s.context.subscriptionManager.candidates publish.topic) answers ∧
      Calls user s (.event (.publish publish) ::
        (answers.map (publishCall publish) ++ genericCall user publish answers takes)) result.2 ∧
      result.2.context = s.context ∧ result.1 = deliveryTaken user answers takes := by
  have hemit : Calls user s [.event (.publish publish)] (s.emit (.event (.publish publish))) :=
    calls_emit rfl
  obtain ⟨answers, hoffered, hcalls, hcontext, htaken, hinvoked⟩ :=
    invoke_subscription_callbacks_offers user publish (s.emit (.event (.publish publish)))
  unfold prvInvokeCallback
  simp only
  generalize prvInvokeSubscriptionCallbacks user publish (s.emit (.event (.publish publish))) =
    answer at hcalls hcontext htaken hinvoked ⊢
  cases answers with
  | nil =>
      rw [hinvoked, if_neg (by simp)]
      obtain ⟨hgeneric, hcontext'⟩ :=
        invoke_event_callback_spec user (.publish publish) answer.2.2
      refine ⟨[], (invokeEventCallback user (.publish publish) answer.2.2).1, hoffered, ?_,
        hcontext'.trans hcontext, ?_⟩
      · have hall := hemit.trans (hcalls.trans hgeneric)
        simpa [genericCall] using hall
      · unfold deliveryTaken invokeEventCallback
        cases user.callback with
        | none => rfl
        | some callback => rfl
  | cons first rest =>
      rw [hinvoked, if_pos (by simp)]
      refine ⟨first :: rest, false, hoffered, ?_, hcontext, ?_⟩
      · have hall := hemit.trans hcalls
        simpa [genericCall] using hall
      · rw [htaken]
        simp [deliveryTaken]

/-! ## A received publish -/

/-- The output is made before a publish is delivered: bytes of it are read, and a PUBACK is sent. -/
def MQTTOutput.IsPreparation : MQTTOutput → Prop
  | .access _ _ | .sent _ _ | .ticks _ => True
  | _ => False

theorem transmitted_preparation (user : MQTTInitParams W) (data : List UInt8) (count : Nat)
    (t : UInt64) : ∀ output ∈ user.transmitted data count t, output.IsPreparation := by
  intro output hmem
  unfold MQTTInitParams.transmitted MQTTInitParams.clock at hmem
  rcases List.mem_cons.mp hmem with rfl | hmem
  · trivial
  · split_ifs at hmem
    · rw [List.mem_singleton.mp hmem]
      trivial
    · exact absurd hmem List.not_mem_nil
    · exact absurd hmem List.not_mem_nil

/-- Before it delivers the publish, the handler reads it and acknowledges it, which changes neither
the Rx buffer nor the subscriptions. -/
theorem acknowledge_prepares (user : MQTTInitParams W) (rxBuffer : MQTTBuffer) (qos : MQTTQoS)
    (identifierOffset : Nat) (s : Session W) :
    let acknowledged :=
      if qos = .qos1 then
        (prvSendData user (pubACKPacket (rxBuffer.data identifierOffset)
          (rxBuffer.data (identifierOffset + 1))) (s.emit (.access identifierOffset 2))).2
      else s
    ∃ before, Calls user s before acknowledged ∧ (∀ output ∈ before, output.IsPreparation) ∧
      acknowledged.context.rxBuffer = s.context.rxBuffer ∧
      acknowledged.context.subscriptionManager = s.context.subscriptionManager := by
  intro acknowledged
  by_cases hqos : qos = .qos1
  · obtain ⟨count, t, hcalls, hcontext, -⟩ := send_data_spec user
      (pubACKPacket (rxBuffer.data identifierOffset) (rxBuffer.data (identifierOffset + 1)))
      (s.emit (.access identifierOffset 2))
    simp only [acknowledged, if_pos hqos]
    refine ⟨_, (calls_access identifierOffset 2).trans hcalls, ?_, ?_, ?_⟩
    · intro output hmem
      rcases List.mem_append.mp hmem with hmem | hmem
      · rw [List.mem_singleton.mp hmem]
        trivial
      · exact transmitted_preparation user _ count t output hmem
    · rw [hcontext]
      split_ifs <;> rfl
    · rw [hcontext]
      split_ifs <;> rfl
  · simp only [acknowledged, if_neg hqos]
    exact ⟨[], .refl s, fun output hmem => absurd hmem List.not_mem_nil, trivial, trivial⟩

/-- Whatever the table, the packet and the answers are, the publish is offered to the callbacks of
the entries without wild cards whose filter is the topic and then to those of the entries whose wild
cards match it, one after the other until one takes the buffer. The generic callback is called,
once, exactly if it is registered and no callback of a subscription was called. In the end the Rx
buffer has either been taken or been returned, once. -/
theorem publish_delivered (user : MQTTInitParams W) {rxBuffer : MQTTBuffer} {s : Session W}
    {qos : MQTTQoS} (hqos : publishQoS rxBuffer.controlByte = some qos)
    (hrx : s.context.rxBuffer = some rxBuffer) :
    let publish := receivedPublishData qos rxBuffer s.context.rxMessageState
    let manager := s.context.subscriptionManager
    ∃ before named covering answers takes,
      (∀ output ∈ before, output.IsPreparation) ∧
      Picks (MQTTSubscription.Names publish.topic) MQTTSubscription.candidate
        manager.subscriptions.toList named ∧
      Picks (fun subscription => subscription.matchesWildCard publish.topic = true)
        MQTTSubscription.candidate manager.subscriptions.toList covering ∧
      (IsTopicName publish.topic → manager.FiltersValid →
        Picks (MQTTSubscription.Covers publish.topic) MQTTSubscription.candidate
          manager.subscriptions.toList covering) ∧
      Offered (named ++ covering) answers ∧
      Calls user s
        (before ++ .event (.publish publish) ::
          (answers.map (publishCall publish) ++ (genericCall user publish answers takes ++
            [if deliveryTaken user answers takes then .taken rxBuffer.handle
              else .returned rxBuffer.handle])))
        (prvProcessReceivedPublish user rxBuffer s) := by
  unfold prvProcessReceivedPublish
  rw [hqos]
  simp only
  -- The topic and the data do not matter from here on.
  generalize receivedPublishData qos rxBuffer s.context.rxMessageState = publish
  have hheader : Calls user s _ (s.emit (.access (publish.topicOffset - 2) 2)) :=
    calls_access (publish.topicOffset - 2) 2
  obtain ⟨acknowledging, hack, hprepares, hackRx, hackTable⟩ := acknowledge_prepares user
    rxBuffer qos (publish.topicOffset + publish.topicLength)
    (s.emit (.access (publish.topicOffset - 2) 2))
  have hhanded := (hheader.trans hack).trans
    ((calls_access publish.topicOffset publish.topicLength).trans
      (calls_access publish.dataOffset publish.dataLength))
  generalize hsession : Session.emit (.access publish.dataOffset publish.dataLength)
    (Session.emit (.access publish.topicOffset publish.topicLength) _) = handed at hhanded ⊢
  -- What is done before the publish is handed on keeps the Rx buffer and the table.
  have hbuffer : handed.context.rxBuffer = some rxBuffer := by
    rw [← hsession, emit_context, emit_context, hackRx]
    exact hrx
  have htable : handed.context.subscriptionManager = s.context.subscriptionManager := by
    rw [← hsession, emit_context, emit_context, hackTable]
    rfl
  obtain ⟨answers, takes, hoffered, hcalls, hcontext, htaken⟩ :=
    invoke_callback_delivers user publish handed
  rw [htable] at hoffered
  have hnamed := (picks_filter MQTTSubscription.candidate
    (MQTTSubscription.matchesExactly publish.topic)
    s.context.subscriptionManager.subscriptions.toList).congr fun _ _ => matches_exactly_iff
  have hcovering := picks_filter MQTTSubscription.candidate
    (MQTTSubscription.matchesWildCard publish.topic)
    s.context.subscriptionManager.subscriptions.toList
  refine ⟨[.access (publish.topicOffset - 2) 2] ++ acknowledging ++
    ([.access publish.topicOffset publish.topicLength] ++
      [.access publish.dataOffset publish.dataLength]), _, _, answers, takes, ?_, hnamed,
    hcovering, fun htopic hvalid => hcovering.congr fun subscription hmem =>
      matches_wild_card_iff htopic (hvalid subscription hmem), hoffered, ?_⟩
  · intro output hmem
    simp only [List.append_assoc, List.mem_append, List.mem_singleton] at hmem
    rcases hmem with rfl | hmem | rfl | rfl
    · trivial
    · exact hprepares output hmem
    · trivial
    · trivial
  · have hdelivered := hhanded.trans hcalls
    generalize prvInvokeCallback user (.publish publish) handed = answer
      at hdelivered hcontext htaken ⊢
    -- The buffer is the user's if a callback has taken it, and is returned otherwise.
    by_cases hown : answer.1 = true
    · rw [if_pos hown, if_pos (htaken.symm.trans hown)]
      have hend : Calls user answer.2 [.taken rxBuffer.handle]
        (answer.2.emit (.taken rxBuffer.handle)) := calls_emit rfl
      simpa only [List.append_assoc, List.cons_append] using hdelivered.trans hend
    · rw [if_neg hown, if_neg fun h => hown (htaken.trans h)]
      have hhandle : answer.2.context.rxHandle = some rxBuffer.handle := by
        unfold MQTTContext.rxHandle
        rw [hcontext, hbuffer]
        rfl
      rw [hhandle]
      simpa only [List.append_assoc, List.cons_append] using
        hdelivered.trans (calls_return_buffer rxBuffer.handle answer.2)

/-- A received publish of one byte with a topic of one character. -/
def benchPublished : MQTTBuffer where
  handle := 5
  bufferState := ⟨0, 0, 0⟩
  bufferLength := 38
  dataLength := 6
  data := ByteMemory.writeBytes (fun _ => 0) 0 [controlPUBLISH, 4, 0, 1, 0x61, 0x62]

/-- A subscription of the bench. -/
def benchEntry (topicFilter : List UInt8) (callback : Option FunctionPointer) :
    MQTTSubscription where
  topicFilter := topicFilter
  publishCallbackContext := 0
  publishCallback := callback
  inUse := true
  topicFilterType := prvGetTopicFilterType topicFilter

/-- Subscriptions to `+` without a callback, to `#`, to `a` and to `a/#`, that all match `a`, and
one to `b`. -/
def benchManager : MQTTSubscriptionManager where
  subscriptions := #v[benchEntry [plusSign] none, benchEntry [numberSign] (some 2),
    benchEntry [0x61] (some 1), benchEntry [0x61, slash, numberSign] (some 3),
    benchEntry [0x62] (some 4), { benchEntry [] none with inUse := false },
    { benchEntry [] none with inUse := false }, { benchEntry [] none with inUse := false }]
  inUseSubscriptions := 5

/-- A client with these subscriptions that has received it. -/
def benchReceived : Session Bench where
  context := { blankContext with
    rxBuffer := some benchPublished
    rxMessageState := ⟨.message, .store, 1, 6⟩
    subscriptionManager := benchManager }
  world := ⟨6, 0, 0, true⟩
  outputs := []

/-- Only the second callback takes buffers. -/
def benchTaker : MQTTInitParams Bench :=
  { benchUser with publishCallback := fun callback _ _ w => (callback == 2, w) }

/-- A callback that has been asked has answered as the user does. -/
theorem Responses.answer {user : MQTTInitParams W} {w w' : W} {labels : List MQTTOutput}
    (h : Responses user w labels w') {publish : MQTTPublishData}
    {answer : (FunctionPointer × CallbackContext) × Bool}
    (hmem : publishCall publish answer ∈ labels) :
    ∃ asked, (user.publishCallback answer.1.1 answer.1.2 publish asked).1 = answer.2 := by
  induction h with
  | nil => exact absurd hmem List.not_mem_nil
  | cons hresponds _ ih =>
      rcases List.mem_cons.mp hmem with rfl | hmem
      · exact ⟨_, congrArg Prod.fst hresponds⟩
      · exact ih hmem

/-- The subscription to `a` is asked first and refuses, the one to `+` has no callback, and the
one to `#` takes the buffer, so that the one to `a/#` and the generic callback are not asked. -/
theorem publish_delivered_taken :
    let publish := receivedPublishData .qos0 benchPublished benchReceived.context.rxMessageState
    ∃ before,
      (∀ output ∈ before, MQTTOutput.IsPreparation output) ∧
      Picks (MQTTSubscription.Covers publish.topic) MQTTSubscription.candidate
        benchManager.subscriptions.toList [(2, 0), (3, 0)] ∧
      Calls benchTaker benchReceived
        (before ++ [.event (.publish publish), .publishCallback 1 0 publish false,
          .publishCallback 2 0 publish true, .taken benchPublished.handle])
        (prvProcessReceivedPublish benchTaker benchPublished benchReceived) := by
  have hqos : publishQoS benchPublished.controlByte = some .qos0 := by decide
  obtain ⟨before, named, covering, answers, takes, hprepares, hnamed, hmatching, hcovering,
    hoffered, hcalls⟩ := publish_delivered benchTaker (s := benchReceived) hqos rfl
  generalize hpublish : receivedPublishData .qos0 benchPublished
    benchReceived.context.rxMessageState = publish at *
  have htopic : publish.topic = [0x61] := by
    rw [← hpublish]
    decide
  rw [htopic] at hnamed hmatching hcovering
  have hone : named = [(1, 0)] :=
    ((picks_filter _ (MQTTSubscription.matchesExactly [0x61]) _).congr
      fun _ _ => matches_exactly_iff).unique hnamed
  have htwo : covering = [(2, 0), (3, 0)] :=
    (picks_filter _ (MQTTSubscription.matchesWildCard [0x61]) _).unique hmatching
  subst hone htwo
  have hname : IsTopicName [0x61] := ⟨by decide, by decide, by decide⟩
  have hvalid : benchManager.FiltersValid := by decide
  refine ⟨before, hprepares, htopic ▸ hcovering hname hvalid, ?_⟩
  -- The first callback refuses and the second one takes the buffer.
  have hanswer : ∀ answer ∈ answers, (answer.1.1 == 2) = answer.2 := by
    intro answer hmem
    obtain ⟨_, h⟩ := hcalls.responses.answer
      (List.mem_append_right _ (List.mem_cons_of_mem _
        (List.mem_append_left _ (List.mem_map_of_mem hmem))))
    exact h
  have hanswers : answers = [((1, 0), false), ((2, 0), true)] := by
    cases hoffered with
    | taken => exact absurd (hanswer _ List.mem_cons_self) (by decide)
    | refused _ hoffered =>
        cases hoffered with
        | taken => rfl
        | refused =>
            have hsecond := hanswer _ (List.mem_cons_of_mem _ List.mem_cons_self)
            exact absurd hsecond (by decide)
  subst hanswers
  simpa [genericCall, deliveryTaken, isTaken, publishCall] using hcalls

end TivaAws.Mqtt
