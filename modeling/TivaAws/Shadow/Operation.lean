import TivaAws.Foundation.Labelled
import TivaAws.Shadow.Client

/-!
# Shadow operations among other events

`prvShadowOperation` as a machine that stops wherever the MQTT task can come in between: in the
calls of the MQTT agent, while it waits for the semaphore, and between the accesses to what it
shares with `prvShadowMQTTCallback`. The events are what the operation does next, the results of its
MQTT calls, received messages, and the connection coming and going.
-/

namespace TivaAws.Shadow

open ByteMemory Labelled

/-- Where `prvShadowOperation` is. -/
inductive Phase where
  /-- In `MQTT_AGENT_Subscribe` for the accepted topic. -/
  | subscribeAccepted
  /-- In `MQTT_AGENT_Subscribe` for the rejected topic. -/
  | subscribeRejected
  /-- In `MQTT_AGENT_Unsubscribe` for the accepted topic, after the rejected one has failed. -/
  | undoAccepted
  | setFlag
  | takeSemaphore
  | publish
  /-- In `MQTT_AGENT_Publish`. -/
  | publishing
  /-- In `xSemaphoreTake` for the answer. -/
  | waiting
  | giveSemaphore
  | cleanUp
  /-- In `MQTT_AGENT_Unsubscribe` for the accepted topic. -/
  | unsubscribeAccepted
  /-- In `MQTT_AGENT_Unsubscribe` for the rejected topic. -/
  | unsubscribeRejected
  | finish
  deriving DecidableEq, Repr

/-- `ShadowOperationCallParams_t` without the client, the name for debug messages and the ticks. -/
structure ShadowOperationCallParams where
  operation : Operation
  operationTopic : List UInt8
  operationAcceptedTopic : List UInt8
  operationRejectedTopic : List UInt8
  publishMessage : Option Document
  operationParams : ShadowOperationParams

/-- The parameters that `SHADOW_Update`, `SHADOW_Get` and `SHADOW_Delete` call
`prvShadowOperation` with; `none` stands for the empty message. -/
def shadowOperationCallParams (operation : Operation) (params : ShadowOperationParams) :
    ShadowOperationCallParams where
  operation
  operationTopic := operation.topic
  operationAcceptedTopic := operation.acceptedTopic
  operationRejectedTopic := operation.rejectedTopic
  publishMessage := match operation with
    | .update => params.data
    | _ => none
  operationParams := params

/-- The operation that is running. `topic` is the topic of the MQTT call it is in. -/
structure Running where
  phase : Phase
  params : ShadowOperationCallParams
  returnCode : ShadowReturnCode
  topic : List UInt8

/-- A client, the operation it is in, its connection and the topics the broker has subscriptions of
the client for. After a failed assertion nothing happens any more. -/
structure ShadowSystem where
  client : ShadowClient
  running : Option Running
  connected : Bool
  subscriptions : List (List UInt8)
  halted : Bool

/-- What happens next. An MQTT call may have had its effect at the broker even if it fails. -/
inductive Event where
  | start (operation : Operation) (params : ShadowOperationParams)
  | proceed
  | mqttReturns (returnCode : MQTTAgentReturnCode) (effect : Bool)
  | timeOut
  | message (publish : MQTTPublishData)
  | connect
  | disconnect

/-! ## Steps of an operation -/

/-- Fill the topic buffer for an MQTT call and make the call. -/
def callWithTopic (phase : Phase) (topicFormat : List UInt8) (running : Running)
    (s : ShadowSystem) : ShadowSystem :=
  let created := prvCreateTopic s.client.topicBuffer topicBufferLength topicFormat
    running.params.operationParams.thingName
  { s with
    client.topicBuffer := created.2
    running := some { running with phase, topic := created.2.readBytes 0 created.1 } }

/-- Call `MQTT_AGENT_Subscribe`. -/
def callSubscribe (phase : Phase) (topicFormat : List UInt8) (running : Running)
    (s : ShadowSystem) : ShadowSystem × List ShadowOutput :=
  let called := callWithTopic phase topicFormat running s
  (called, (called.running.map fun running => ShadowOutput.subscribe running.topic).toList)

/-- Call `MQTT_AGENT_Unsubscribe`. -/
def callUnsubscribe (phase : Phase) (topicFormat : List UInt8) (running : Running)
    (s : ShadowSystem) : ShadowSystem × List ShadowOutput :=
  let called := callWithTopic phase topicFormat running s
  (called, (called.running.map fun running => ShadowOutput.unsubscribe running.topic).toList)

/-- Go on to another phase. -/
def ShadowSystem.enter (phase : Phase) (running : Running) (s : ShadowSystem) : ShadowSystem :=
  { s with running := some { running with phase } }

/-- The start of `prvShadowOperation`, under the operation mutex. -/
def startOperation (operation : Operation) (params : ShadowOperationParams) (s : ShadowSystem) :
    ShadowSystem × List ShadowOutput :=
  let call := shadowOperationCallParams operation params
  let running : Running := ⟨.setFlag, call, shadowSuccess, []⟩
  if prvGetSubscribedFlag operation.toName s.client = false then
    callSubscribe .subscribeAccepted call.operationAcceptedTopic running s
  else (s.enter .setFlag running, [])

/-- Set the data of the operation and call `MQTT_AGENT_Publish`. -/
def callPublish (running : Running) (s : ShadowSystem) : ShadowSystem × List ShadowOutput :=
  let called := callWithTopic .publishing running.params.operationTopic running s
  ({ called with
      client.operationData :=
        some ⟨running.params.operation.toName, running.params.operationParams⟩ },
    (called.running.map fun published =>
      ShadowOutput.request published.topic running.params.publishMessage).toList)

/-- The clean-up unsubscribes, which depend on the operation and on the registered callbacks. -/
def startCleanUp (environment : Environment) (running : Running) (s : ShadowSystem) :
    ShadowSystem × List ShadowOutput :=
  let call := running.params
  if call.operationParams.keepSubscriptions then (s.enter .finish running, [])
  else if call.operation = .delete then
    let created := prvCreateTopic s.client.topicBuffer topicBufferLength
      Operation.delete.acceptedTopic call.operationParams.thingName
    let s := { s with client.topicBuffer := created.2 }
    if (prvMatchCallbackTopic environment s.client s.client.topicBuffer
        (strlen s.client.topicBuffer topicBufferLength)).isNone then
      callUnsubscribe .unsubscribeRejected call.operationRejectedTopic running s
    else (s.enter .finish running, [])
  else callUnsubscribe .unsubscribeAccepted call.operationAcceptedTopic running s

/-- The end of `prvShadowOperation`. -/
def finishOperation (running : Running) (s : ShadowSystem) : ShadowSystem × List ShadowOutput :=
  let params := match s.client.operationData with
    | some data => data.operationParams
    | none => running.params.operationParams
  ({ s with
      client :=
        { s.client with
          operationData := none
          operationResult := shadowSuccess
          topicBuffer := s.client.topicBuffer.writeBytes 0 (List.replicate topicBufferLength 0) }
      running := none },
    [.finished running.returnCode params])

/-- What the operation does next by itself, if it is not in an MQTT call. -/
def proceedOperation (environment : Environment) (running : Running) (s : ShadowSystem) :
    Option (ShadowSystem × List ShadowOutput) :=
  match running.phase with
  | .setFlag =>
      some ({ s with
        client := prvSetSubscribedFlag running.params.operation.toName true s.client
        running := some { running with phase := .takeSemaphore } }, [])
  | .takeSemaphore =>
      some ({ s with
        client.callbackSemaphore := false
        running := some { running with phase := .publish }
        halted := !s.client.callbackSemaphore }, [.take s.client.callbackSemaphore])
  | .publish => some (callPublish running s)
  | .waiting =>
      if s.client.callbackSemaphore then
        some ({ s with
          client.callbackSemaphore := false
          running := some
            { running with phase := .giveSemaphore, returnCode := s.client.operationResult } },
          [.take true])
      else none
  | .giveSemaphore =>
      let given := giveCallbackSemaphore s.client
      some ({ s with
        client := given.1
        running := some { running with phase := .cleanUp }
        halted := s.client.callbackSemaphore }, given.2)
  | .cleanUp => some (startCleanUp environment running s)
  | .finish => some (finishOperation running s)
  | _ => none

/-- The MQTT call that the operation is in returns. -/
def returnMQTT (code : MQTTAgentReturnCode) (running : Running) (s : ShadowSystem) :
    Option (ShadowSystem × List ShadowOutput) :=
  let call := running.params
  match running.phase with
  | .subscribeAccepted =>
      let running := { running with returnCode := prvConvertMQTTReturnCode code }
      if code = .success then
        some (callSubscribe .subscribeRejected call.operationRejectedTopic running s)
      else some (s.enter .cleanUp running, [])
  | .subscribeRejected =>
      let running := { running with returnCode := prvConvertMQTTReturnCode code }
      if code = .success then some (s.enter .setFlag running, [])
      else some (callUnsubscribe .undoAccepted call.operationAcceptedTopic running s)
  | .undoAccepted => some (s.enter .cleanUp running, [])
  | .publishing =>
      let running := { running with returnCode := prvConvertMQTTReturnCode code }
      if code = .success then some (s.enter .waiting running, [])
      else some (s.enter .giveSemaphore running, [.requestFailed])
  | .unsubscribeAccepted =>
      some (callUnsubscribe .unsubscribeRejected call.operationRejectedTopic running s)
  | .unsubscribeRejected =>
      if code = .success then
        some ({ s with
          client := prvSetSubscribedFlag call.operation.toName false s.client
          running := some { running with phase := .finish } }, [])
      else some (s.enter .finish running, [])
  | _ => none

/-- The effect of the MQTT call at the broker. -/
def brokerEffect (running : Running) (subscriptions : List (List UInt8)) : List (List UInt8) :=
  match running.phase with
  | .subscribeAccepted | .subscribeRejected => running.topic :: subscriptions
  | .undoAccepted | .unsubscribeAccepted | .unsubscribeRejected =>
      subscriptions.filter (· ≠ running.topic)
  | _ => subscriptions

/-- The output is a give that fails. -/
def ShadowOutput.failedGive : ShadowOutput → Bool
  | .give passed => !passed
  | _ => false

/-- Whether an assertion has failed. -/
def failed (outputs : List ShadowOutput) : Bool :=
  outputs.any ShadowOutput.failedGive

/-- What an event does, `none` if it cannot happen. -/
def step (environment : Environment) (s : ShadowSystem) (event : Event) :
    Option (ShadowSystem × List ShadowOutput) :=
  if s.halted then none
  else
    match event with
    | .start operation params =>
        match s.running with
        | none =>
            -- The parameters are asserted.
            if params.qos ≠ .qos2 ∧ (operation = .update → params.data.isSome) then
              some (startOperation operation params s)
            else none
        | some _ => none
    | .proceed => s.running.bind fun running => proceedOperation environment running s
    | .mqttReturns code effect =>
        -- Without a connection there is no effect, and without an effect no success.
        if (code = .success → effect) ∧ (effect → s.connected) then
          s.running.bind fun running =>
            returnMQTT code running
              (if effect then { s with subscriptions := brokerEffect running s.subscriptions }
              else s)
        else none
    | .timeOut =>
        s.running.bind fun running =>
          if running.phase = .waiting ∧ s.client.callbackSemaphore = false then
            some (s.enter .giveSemaphore { running with returnCode := shadowTimeout }, [.timedOut])
          else none
    | .message publish =>
        if s.connected then
          let handled := (shadowMQTTCallbackPublish environment publish s.client).2
          some ({ s with client := handled.1, halted := failed handled.2 }, handled.2)
        else none
    | .connect =>
        if s.connected then none else some ({ s with connected := true, subscriptions := [] }, [])
    | .disconnect =>
        if s.connected then
          some ({ s with
            client := shadowMQTTCallbackDisconnect s.client
            connected := false
            subscriptions := [] }, [])
        else none

/-- Runs of a client. -/
def Executes (environment : Environment) (s : ShadowSystem) (labels : List ShadowOutput)
    (s' : ShadowSystem) : Prop :=
  ∃ event, step environment s event = some (s', labels)

/-- A client as `SHADOW_ClientCreate` leaves it, with any registered callbacks. -/
def createdClient (callbackCatalog : List CallbackCatalogEntry) (topicBuffer : ByteMemory) :
    ShadowSystem where
  client :=
    { updateSubscribed := false
      getSubscribed := false
      deleteSubscribed := false
      callbackSemaphore := true
      operationData := none
      operationResult := shadowSuccess
      callbackCatalog
      topicBuffer }
  running := none
  connected := false
  subscriptions := []
  halted := false

/-! ## What an event does -/

/-- The guards and the effect of each event. -/
theorem step_cases {environment : Environment} {s s' : ShadowSystem} {event : Event}
    {labels : List ShadowOutput} (h : step environment s event = some (s', labels)) :
    s.halted = false ∧
      match event with
      | .start operation params =>
          s.running = none ∧ params.qos ≠ .qos2 ∧ (operation = .update → params.data.isSome) ∧
            startOperation operation params s = (s', labels)
      | .proceed => ∃ running, s.running = some running ∧
          proceedOperation environment running s = some (s', labels)
      | .mqttReturns code effect =>
          (code = .success → effect = true) ∧ (effect = true → s.connected = true) ∧
            ∃ running, s.running = some running ∧
              returnMQTT code running
                (if effect then { s with subscriptions := brokerEffect running s.subscriptions }
                else s) = some (s', labels)
      | .timeOut => ∃ running, s.running = some running ∧ running.phase = .waiting ∧
          s.client.callbackSemaphore = false ∧
            s.enter .giveSemaphore { running with returnCode := shadowTimeout } = s' ∧
            [.timedOut] = labels
      | .message publish =>
          s.connected = true ∧
            { s with
              client := (shadowMQTTCallbackPublish environment publish s.client).2.1
              halted := failed (shadowMQTTCallbackPublish environment publish s.client).2.2 } =
              s' ∧
            (shadowMQTTCallbackPublish environment publish s.client).2.2 = labels
      | .connect =>
          s.connected = false ∧ { s with connected := true, subscriptions := [] } = s' ∧ [] = labels
      | .disconnect =>
          s.connected = true ∧
            { s with
              client := shadowMQTTCallbackDisconnect s.client
              connected := false
              subscriptions := [] } = s' ∧
            [] = labels := by
  unfold step at h
  by_cases hhalted : s.halted = true
  · rw [if_pos hhalted] at h
    cases h
  rw [if_neg hhalted] at h
  refine ⟨Bool.eq_false_iff.mpr hhalted, ?_⟩
  cases event with
  | start operation params =>
      cases hrunning : s.running with
      | some running =>
          rw [hrunning] at h
          cases h
      | none =>
          rw [hrunning] at h
          simp only at h
          split_ifs at h with hparams
          exact ⟨rfl, hparams.1, hparams.2, Option.some.inj h⟩
  | proceed => exact Option.bind_eq_some_iff.mp h
  | mqttReturns code effect =>
      have hguard : (code = .success → effect = true) ∧ (effect = true → s.connected = true) := by
        by_contra hguard
        simp only [if_neg hguard] at h
        cases h
      simp only [if_pos hguard] at h
      exact ⟨hguard.1, hguard.2, Option.bind_eq_some_iff.mp h⟩
  | timeOut =>
      obtain ⟨running, hrunning, htimeout⟩ := Option.bind_eq_some_iff.mp h
      split_ifs at htimeout with hwaiting
      obtain ⟨hs, hlabels⟩ := Prod.mk.inj (Option.some.inj htimeout)
      exact ⟨running, hrunning, hwaiting.1, hwaiting.2, hs, hlabels⟩
  | message publish =>
      simp only at h
      split_ifs at h with hconnected
      exact ⟨hconnected, Prod.mk.inj (Option.some.inj h)⟩
  | connect =>
      simp only at h
      split_ifs at h with hconnected
      exact ⟨Bool.eq_false_iff.mpr hconnected, Prod.mk.inj (Option.some.inj h)⟩
  | disconnect =>
      simp only at h
      split_ifs at h with hconnected
      exact ⟨hconnected, Prod.mk.inj (Option.some.inj h)⟩

/-- What the operation does by itself, by the phase it is in. It goes on from waiting only when the
semaphore is there. -/
inductive OperationProceeds (environment : Environment) (running : Running) (s : ShadowSystem) :
    ShadowSystem → List ShadowOutput → Prop where
  | setFlag : running.phase = .setFlag → OperationProceeds environment running s
      { s with
        client := prvSetSubscribedFlag running.params.operation.toName true s.client
        running := some { running with phase := .takeSemaphore } } []
  | takeSemaphore : running.phase = .takeSemaphore → OperationProceeds environment running s
      { s with
        client.callbackSemaphore := false
        running := some { running with phase := .publish }
        halted := !s.client.callbackSemaphore } [.take s.client.callbackSemaphore]
  | publish : running.phase = .publish → OperationProceeds environment running s
      (callPublish running s).1 (callPublish running s).2
  | collect : running.phase = .waiting → s.client.callbackSemaphore = true →
      OperationProceeds environment running s
        { s with
          client.callbackSemaphore := false
          running := some
            { running with phase := .giveSemaphore, returnCode := s.client.operationResult } }
        [.take true]
  | giveSemaphore : running.phase = .giveSemaphore → OperationProceeds environment running s
      { s with
        client := (giveCallbackSemaphore s.client).1
        running := some { running with phase := .cleanUp }
        halted := s.client.callbackSemaphore } (giveCallbackSemaphore s.client).2
  | cleanUp : running.phase = .cleanUp → OperationProceeds environment running s
      (startCleanUp environment running s).1 (startCleanUp environment running s).2
  | finish : running.phase = .finish → OperationProceeds environment running s
      (finishOperation running s).1 (finishOperation running s).2

theorem proceed_cases {environment : Environment} {running : Running} {s s' : ShadowSystem}
    {labels : List ShadowOutput}
    (h : proceedOperation environment running s = some (s', labels)) :
    OperationProceeds environment running s s' labels := by
  unfold proceedOperation at h
  cases hphase : running.phase with
  | setFlag =>
      rw [hphase] at h
      cases h
      exact .setFlag hphase
  | takeSemaphore =>
      rw [hphase] at h
      cases h
      exact .takeSemaphore hphase
  | publish =>
      rw [hphase] at h
      cases h
      exact .publish hphase
  | waiting =>
      rw [hphase] at h
      simp only at h
      split_ifs at h with hsemaphore
      cases h
      exact .collect hphase hsemaphore
  | giveSemaphore =>
      rw [hphase] at h
      cases h
      exact .giveSemaphore hphase
  | cleanUp =>
      rw [hphase] at h
      obtain ⟨rfl, rfl⟩ := Prod.mk.inj (Option.some.inj h)
      exact .cleanUp hphase
  | finish =>
      rw [hphase] at h
      cases h
      exact .finish hphase
  | _ =>
      rw [hphase] at h
      cases h

/-- What the operation does behind an MQTT call, by the call and by whether it has succeeded. -/
inductive CallReturns (code : MQTTAgentReturnCode) (running : Running) (s : ShadowSystem) :
    ShadowSystem → List ShadowOutput → Prop where
  | acceptedSubscribed : running.phase = .subscribeAccepted → code = .success →
      CallReturns code running s
        (callSubscribe .subscribeRejected running.params.operationRejectedTopic
          { running with returnCode := prvConvertMQTTReturnCode code } s).1
        (callSubscribe .subscribeRejected running.params.operationRejectedTopic
          { running with returnCode := prvConvertMQTTReturnCode code } s).2
  | acceptedFails : running.phase = .subscribeAccepted → code ≠ .success →
      CallReturns code running s
        (s.enter .cleanUp { running with returnCode := prvConvertMQTTReturnCode code }) []
  | rejectedSubscribed : running.phase = .subscribeRejected → code = .success →
      CallReturns code running s
        (s.enter .setFlag { running with returnCode := prvConvertMQTTReturnCode code }) []
  | rejectedFails : running.phase = .subscribeRejected → code ≠ .success →
      CallReturns code running s
        (callUnsubscribe .undoAccepted running.params.operationAcceptedTopic
          { running with returnCode := prvConvertMQTTReturnCode code } s).1
        (callUnsubscribe .undoAccepted running.params.operationAcceptedTopic
          { running with returnCode := prvConvertMQTTReturnCode code } s).2
  | undone : running.phase = .undoAccepted →
      CallReturns code running s (s.enter .cleanUp running) []
  | published : running.phase = .publishing → code = .success →
      CallReturns code running s
        (s.enter .waiting { running with returnCode := prvConvertMQTTReturnCode code }) []
  | publishFails : running.phase = .publishing → code ≠ .success →
      CallReturns code running s
        (s.enter .giveSemaphore { running with returnCode := prvConvertMQTTReturnCode code })
        [.requestFailed]
  | acceptedUnsubscribed : running.phase = .unsubscribeAccepted →
      CallReturns code running s
        (callUnsubscribe .unsubscribeRejected running.params.operationRejectedTopic running s).1
        (callUnsubscribe .unsubscribeRejected running.params.operationRejectedTopic running s).2
  | rejectedUnsubscribed : running.phase = .unsubscribeRejected → code = .success →
      CallReturns code running s
        { s with
          client := prvSetSubscribedFlag running.params.operation.toName false s.client
          running := some { running with phase := .finish } } []
  | rejectedStays : running.phase = .unsubscribeRejected → code ≠ .success →
      CallReturns code running s (s.enter .finish running) []

theorem return_cases {code : MQTTAgentReturnCode} {running : Running} {s s' : ShadowSystem}
    {labels : List ShadowOutput} (h : returnMQTT code running s = some (s', labels)) :
    CallReturns code running s s' labels := by
  unfold returnMQTT at h
  cases hphase : running.phase with
  | subscribeAccepted =>
      rw [hphase] at h
      simp only at h
      split_ifs at h with hcode
      · cases h
        exact .acceptedSubscribed hphase hcode
      · cases h
        exact .acceptedFails hphase hcode
  | subscribeRejected =>
      rw [hphase] at h
      simp only at h
      split_ifs at h with hcode
      · cases h
        exact .rejectedSubscribed hphase hcode
      · cases h
        exact .rejectedFails hphase hcode
  | undoAccepted =>
      rw [hphase] at h
      cases h
      exact .undone hphase
  | publishing =>
      rw [hphase] at h
      simp only at h
      split_ifs at h with hcode
      · cases h
        exact .published hphase hcode
      · cases h
        exact .publishFails hphase hcode
  | unsubscribeAccepted =>
      rw [hphase] at h
      cases h
      exact .acceptedUnsubscribed hphase
  | unsubscribeRejected =>
      rw [hphase] at h
      simp only at h
      split_ifs at h with hcode
      · cases h
        exact .rejectedUnsubscribed hphase hcode
      · cases h
        exact .rejectedStays hphase hcode
  | _ =>
      rw [hphase] at h
      cases h

/-! ## A client to replay events on -/

/-- Client tokens always match, rejections have the code 404 and memory is zero. -/
def benchEnvironment : Environment where
  docClientTokenMatch := fun _ _ => true
  errorCodeAndMessage := fun _ => 404
  notify := fun _ _ => false
  stack := fun _ => 0

/-- A client without registered callbacks. -/
def benchClient : ShadowSystem := createdClient [] fun _ => 0

theorem bench_thing_ne_zero : (84 : UInt8) ≠ 0 := by decide

theorem other_thing_ne_zero : (85 : UInt8) ≠ 0 := by decide

theorem bench_name_no_nul : (0 : UInt8) ∉ ([84] : List UInt8) := by decide

/-- An operation on the Thing with a name of one letter. -/
def benchParams (thing : UInt8) (h : thing ≠ 0) (keepSubscriptions : Bool) :
    ShadowOperationParams where
  thingName := ⟨[thing], by simpa using h.symm⟩
  data := some ⟨fun _ => 0, 0, 0⟩
  buffer := 0
  keepSubscriptions
  qos := .qos1

/-- A message on a topic, with its buffer at address 7. -/
def benchMessage (topic : List UInt8) : MQTTPublishData where
  memory := fun i => topic.getD (i - 20) 0
  topic := 20
  topicLength := topic.length
  data := 100
  dataLength := 0
  buffer := 7
  suffix_le_topic := by decide

/-- An MQTT call that succeeds. -/
def succeeds : Event := .mqttReturns .success true

/-- A get that subscribes, publishes its request and waits for the answer. -/
def waitingGet : List Event :=
  [.connect, .start .get (benchParams 84 (by decide) false), succeeds, succeeds, .proceed, .proceed,
    .proceed, succeeds]

end TivaAws.Shadow
