import TivaAws.Shadow.Callbacks

/-!
# Subscriptions for callbacks

The topic of a callback tells the callback and the Thing, and a registration subscribes to the topic
of its own Thing. The operations of a client leave the catalog of callbacks alone. They change the
subscriptions by their own topics, and only a message that is not an answer to them reaches a
callback.
-/

namespace TivaAws.Shadow

open ByteMemory

variable {environment : Environment} {kind kind' : CallbackKind} {name name' : List UInt8}

/-! ## Topics of callbacks -/

/-- The topic of a callback of a Thing fits in the buffer. -/
def CallbackKind.Fits (kind : CallbackKind) (name : List UInt8) : Prop :=
  kind.topicFormat.length + name.length < topicBufferLength

theorem callback_topic_format (kind : CallbackKind) :
    kind.topicFormat = topicPrefix ++ kind.suffix := by
  cases kind with
  | updated => exact List.append_assoc topicPrefix _ _
  | deleted => exact List.append_assoc topicPrefix _ _
  | delta => exact List.append_assoc topicPrefix _ _

/-- The topic of a callback tells the callback and the Thing. -/
theorem callback_topic_inj (h : kind.topic name = kind'.topic name') :
    kind = kind' ∧ name = name' := by
  have hkind : kind = kind' := by
    by_contra hne
    refine shadow_topic_ne 12 ?_ ?_ ?_ h <;> revert hne <;> cases kind <;> cases kind' <;> decide
  subst hkind
  have hsame : name ++ (ascii "/shadow/" ++ kind.suffix) =
      name' ++ (ascii "/shadow/" ++ kind.suffix) := List.append_cancel_left h
  exact ⟨rfl, List.append_cancel_right hsame⟩

theorem callback_topic_ne_nil (kind : CallbackKind) (name : List UInt8) : kind.topic name ≠ [] := by
  intro h
  have hfront : ascii "$aws/things/" = [] := (List.append_eq_nil_iff.mp h).1
  exact absurd hfront (by decide)

/-- The Thing of a registration. -/
def Registration.thing (registration : Registration) : List UInt8 :=
  registration.params.thingName.bytes

/-- A registration subscribes to the topic of its Thing, or to the empty topic if it does not
fit. -/
theorem registration_topic_cases (stack : ByteMemory) (kind : CallbackKind)
    {registration : Registration} (hshort : registration.thing.length < 2 ^ 16) :
    (kind.Fits registration.thing ∧
      registration.topic stack kind = kind.topic registration.thing) ∨
    (¬ kind.Fits registration.thing ∧ registration.topic stack kind = []) := by
  by_cases hfits : kind.Fits registration.thing
  · refine .inl ⟨hfits, ?_⟩
    unfold CallbackKind.Fits at hfits
    unfold Registration.topic
    simp only
    rw [callback_topic_format] at hfits ⊢
    rw [create_shadow_topic (by cases kind <;> decide) hfits]
    exact readBytes_writeBytes_append _ 0 _ [0]
  · refine .inr ⟨hfits, ?_⟩
    have hformat : kind.topicFormat.length < 2 ^ 16 := by cases kind <;> decide
    unfold CallbackKind.Fits Registration.thing at hfits
    unfold Registration.thing at hshort
    unfold Registration.topic prvCreateTopic
    simp only
    rw [Nat.mod_eq_of_lt hformat, Nat.mod_eq_of_lt hshort, if_pos (Nat.not_lt.mp hfits)]
    rfl

/-- Only a registration of a callback of a Thing has its topic. -/
theorem registration_topic_only {stack : ByteMemory} {registration : Registration}
    (hshort : registration.thing.length < 2 ^ 16)
    (h : registration.topic stack kind = kind'.topic name) :
    kind = kind' ∧ registration.thing = name ∧ kind.Fits name := by
  obtain ⟨hfits, htopic⟩ | ⟨-, htopic⟩ := registration_topic_cases stack kind hshort
  · obtain ⟨rfl, rfl⟩ := callback_topic_inj (htopic.symm.trans h)
    exact ⟨rfl, rfl, hfits⟩
  · exact absurd (h.symm.trans htopic) (callback_topic_ne_nil kind' name)

/-! ## Operations -/

section Operations

variable {s s' : ShadowSystem} {running : Running} {labels : List ShadowOutput} {event : Event}

/-- The catalog and the broker are left alone, and no user is notified. -/
structure Quiet (s s' : ShadowSystem) (labels : List ShadowOutput) : Prop where
  catalog : s'.client.callbackCatalog = s.client.callbackCatalog
  subscriptions : s'.subscriptions = s.subscriptions
  silent : ∀ callback operation, ShadowOutput.notify callback operation ∉ labels

theorem subscribe_quiet (phase : Phase) (topicFormat : List UInt8) (running : Running)
    (s : ShadowSystem) :
    Quiet s (callSubscribe phase topicFormat running s).1
      (callSubscribe phase topicFormat running s).2 :=
  ⟨rfl, rfl, fun _ _ hmem => by cases List.mem_singleton.mp hmem⟩

theorem unsubscribe_quiet (phase : Phase) (topicFormat : List UInt8) (running : Running)
    (s : ShadowSystem) :
    Quiet s (callUnsubscribe phase topicFormat running s).1
      (callUnsubscribe phase topicFormat running s).2 :=
  ⟨rfl, rfl, fun _ _ hmem => by cases List.mem_singleton.mp hmem⟩

theorem enter_quiet (phase : Phase) (running : Running) (s : ShadowSystem) :
    Quiet s (s.enter phase running) [] :=
  ⟨rfl, rfl, fun _ _ => List.not_mem_nil⟩

theorem set_flag_catalog (operation : ShadowOperationName) (value : Bool) (client : ShadowClient) :
    (prvSetSubscribedFlag operation value client).callbackCatalog = client.callbackCatalog := by
  cases operation <;> rfl

theorem start_quiet (operation : Operation) (params : ShadowOperationParams) (s : ShadowSystem) :
    Quiet s (startOperation operation params s).1 (startOperation operation params s).2 := by
  unfold startOperation
  simp only
  split_ifs
  · exact subscribe_quiet _ _ _ s
  · exact enter_quiet _ _ s

theorem clean_up_quiet (environment : Environment) (running : Running) (s : ShadowSystem) :
    Quiet s (startCleanUp environment running s).1 (startCleanUp environment running s).2 := by
  unfold startCleanUp
  simp only
  split_ifs
  · exact enter_quiet _ _ s
  · exact ⟨rfl, rfl, fun _ _ hmem => by cases List.mem_singleton.mp hmem⟩
  · exact ⟨rfl, rfl, fun _ _ => List.not_mem_nil⟩
  · exact unsubscribe_quiet _ _ _ s

theorem proceed_quiet (h : proceedOperation environment running s = some (s', labels)) :
    Quiet s s' labels := by
  cases proceed_cases h with
  | setFlag => exact ⟨set_flag_catalog _ _ _, rfl, fun _ _ => List.not_mem_nil⟩
  | cleanUp => exact clean_up_quiet environment running s
  | takeSemaphore | publish | collect | giveSemaphore | finish =>
      exact ⟨rfl, rfl, fun _ _ hmem => by cases List.mem_singleton.mp hmem⟩

theorem return_quiet {code : MQTTAgentReturnCode}
    (h : returnMQTT code running s = some (s', labels)) : Quiet s s' labels := by
  cases return_cases h with
  | acceptedSubscribed => exact subscribe_quiet _ _ _ s
  | rejectedFails | acceptedUnsubscribed => exact unsubscribe_quiet _ _ _ s
  | acceptedFails | rejectedSubscribed | undone | published | rejectedStays =>
      exact enter_quiet _ _ s
  | publishFails => exact ⟨rfl, rfl, fun _ _ hmem => by cases List.mem_singleton.mp hmem⟩
  | rejectedUnsubscribed => exact ⟨set_flag_catalog _ _ _, rfl, fun _ _ => List.not_mem_nil⟩

/-- An answer to the operation in progress notifies nobody. -/
theorem answer_quiet (environment : Environment) (data : ShadowOperationData)
    (publish : MQTTPublishData) (client : ShadowClient) :
    (answerOperation environment data publish client).2.1.callbackCatalog =
        client.callbackCatalog ∧
      ∀ callback operation, ShadowOutput.notify callback operation ∉
        (answerOperation environment data publish client).2.2 := by
  unfold answerOperation
  simp only
  split
  · unfold prvShadowUpdateCallback
    cases clientTokenMatches environment data.operationParams publish with
    | true => exact ⟨rfl, by simp [giveCallbackSemaphore]⟩
    | false => exact ⟨rfl, fun _ _ => List.not_mem_nil⟩
  · exact ⟨rfl, by simp [prvShadowGetCallback, giveCallbackSemaphore]⟩
  · exact ⟨rfl, by simp [prvShadowDeleteCallback, giveCallbackSemaphore]⟩
  · exact ⟨rfl, fun _ _ => List.not_mem_nil⟩

/-- A message leaves the catalog alone, and a user is notified by the callback for which the topic
of the message is taken. -/
theorem message_notifies (environment : Environment) (publish : MQTTPublishData)
    (client : ShadowClient) :
    (shadowMQTTCallbackPublish environment publish client).2.1.callbackCatalog =
        client.callbackCatalog ∧
      ∀ callback operation, ShadowOutput.notify callback operation ∈
          (shadowMQTTCallbackPublish environment publish client).2.2 →
        matchOperationInProgress publish client = none ∧
          ∃ found ∈ prvMatchCallbackTopic environment client publish.topicPointer
              publish.topicLength,
            ∃ kind : CallbackKind, found.2 = kind.operationName ∧ found.1.callback kind =
              callback := by
  unfold shadowMQTTCallbackPublish
  cases hmatch : matchOperationInProgress publish client with
  | none =>
      simp only [notifyUser]
      split
      case h_1 entry hfound =>
        refine ⟨rfl, fun callback operation hmem => ⟨trivial, _, hfound, .updated, rfl, ?_⟩⟩
        cases List.mem_singleton.mp hmem
        rfl
      case h_2 entry hfound =>
        refine ⟨rfl, fun callback operation hmem => ⟨trivial, _, hfound, .delta, rfl, ?_⟩⟩
        cases List.mem_singleton.mp hmem
        rfl
      case h_3 entry hfound =>
        refine ⟨rfl, fun callback operation hmem => ⟨trivial, _, hfound, .deleted, rfl, ?_⟩⟩
        cases List.mem_singleton.mp hmem
        rfl
      case h_4 => exact ⟨rfl, fun _ _ hmem => absurd hmem List.not_mem_nil⟩
  | some data =>
      obtain ⟨hcatalog, hsilent⟩ := answer_quiet environment data publish client
      exact ⟨hcatalog, fun callback operation hmem => absurd hmem (hsilent callback operation)⟩

/-- What an event does to the catalog and at the broker, and who is notified. -/
structure StepEffect (environment : Environment) (s : ShadowSystem) (event : Event)
    (s' : ShadowSystem) (labels : List ShadowOutput) : Prop where
  catalog : s'.client.callbackCatalog = s.client.callbackCatalog
  subscriptions : s'.subscriptions = s.effectOn s.subscriptions event
  notifies : ∀ callback operation, ShadowOutput.notify callback operation ∈ labels →
    ∃ publish, event = .message publish ∧ matchOperationInProgress publish s.client = none ∧
      ∃ found ∈ prvMatchCallbackTopic environment s.client publish.topicPointer
          publish.topicLength,
        ∃ kind : CallbackKind, found.2 = kind.operationName ∧ found.1.callback kind = callback

theorem Quiet.effect (hquiet : Quiet s s' labels)
    (hsame : s.effectOn s.subscriptions event = s.subscriptions) :
    StepEffect environment s event s' labels where
  catalog := hquiet.catalog
  subscriptions := hquiet.subscriptions.trans hsame.symm
  notifies callback operation hmem := absurd hmem (hquiet.silent callback operation)

theorem step_effect (h : step environment s event = some (s', labels)) :
    StepEffect environment s event s' labels := by
  obtain ⟨-, hcases⟩ := step_cases h
  cases event with
  | start operation params =>
      obtain ⟨-, -, -, hbegins⟩ := hcases
      have hstart := start_quiet operation params s
      rw [hbegins] at hstart
      exact hstart.effect rfl
  | proceed =>
      obtain ⟨running, -, hproceed⟩ := hcases
      exact (proceed_quiet hproceed).effect rfl
  | mqttReturns code effect =>
      obtain ⟨-, -, running, hrunning, hreturn⟩ := hcases
      have hquiet := return_quiet hreturn
      cases effect with
      | false => exact hquiet.effect rfl
      | true =>
          refine ⟨hquiet.catalog, ?_, fun callback operation hmem =>
            absurd hmem (hquiet.silent callback operation)⟩
          rw [hquiet.subscriptions]
          unfold ShadowSystem.effectOn
          rw [hrunning]
          rfl
  | timeOut =>
      obtain ⟨running, -, -, -, rfl, rfl⟩ := hcases
      exact ⟨rfl, rfl, fun _ _ hmem => by cases List.mem_singleton.mp hmem⟩
  | message publish =>
      -- The only event that a callback is notified of.
      obtain ⟨-, rfl, rfl⟩ := hcases
      obtain ⟨hcatalog, hnotifies⟩ := message_notifies environment publish s.client
      exact ⟨hcatalog, rfl, fun callback operation hmem =>
        ⟨publish, rfl, hnotifies callback operation hmem⟩⟩
  | connect =>
      obtain ⟨-, rfl, rfl⟩ := hcases
      exact ⟨rfl, rfl, fun _ _ hmem => absurd hmem List.not_mem_nil⟩
  | disconnect =>
      obtain ⟨-, rfl, rfl⟩ := hcases
      exact ⟨rfl, rfl, fun _ _ hmem => absurd hmem List.not_mem_nil⟩

end Operations

end TivaAws.Shadow
