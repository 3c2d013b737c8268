import TivaAws.Foundation.Runs
import TivaAws.Shadow.Operation

/-!
# The protocol of one call

What passes between an operation and the callback of the MQTT task: the semaphore, the result and
the data of the operation. A `Call` is a client seen that way, with the messages that have been
delivered since the operation was started and those whose buffer the callback has taken for it.
`CallStep` has the steps of the protocol, and every step of a client is one of them.
-/

namespace TivaAws.Shadow

open ByteMemory Runs

variable {environment : Environment}

/-! ## History -/

/-- What `pucTopic` and `usTopicLength` describe. -/
def MQTTPublishData.topicBytes (publish : MQTTPublishData) : List UInt8 :=
  publish.memory.readBytes publish.topic publish.topicLength

/-- The callback takes the buffer of a message for the operation in progress. -/
def takesBuffer (environment : Environment) (publish : MQTTPublishData) (client : ShadowClient) :
    Bool :=
  match matchOperationInProgress publish client with
  | some data => (answerOperation environment data publish client).1
  | none => false

/-- A client with the messages delivered since the start of its last operation, and those whose
buffer was taken for the operation. -/
structure CallHistory where
  system : ShadowSystem
  delivered : List MQTTPublishData
  taken : List MQTTPublishData

/-- What an event does to a history, `none` if it cannot happen. -/
def callStep (environment : Environment) (h : CallHistory) (event : Event) : Option CallHistory :=
  (step environment h.system event).map fun (system, _) =>
    match event with
    | .start _ _ => ⟨system, [], []⟩
    | .message publish =>
        ⟨system, h.delivered ++ [publish],
          if takesBuffer environment publish h.system.client then h.taken ++ [publish]
          else h.taken⟩
    | _ => ⟨system, h.delivered, h.taken⟩

/-- A client as `SHADOW_ClientCreate` leaves it. -/
def CallHistory.created (callbackCatalog : List CallbackCatalogEntry) (topicBuffer : ByteMemory) :
    CallHistory :=
  ⟨createdClient callbackCatalog topicBuffer, [], []⟩

/-! ## Protocol -/

/-- How far an operation is with its request; the return code is known once the request is done
with. -/
inductive CallStage where
  | preparing
  | ready
  | requested
  | releasing (returnCode : ShadowReturnCode)
  | ending (returnCode : ShadowReturnCode)
  deriving DecidableEq

/-- The stage of an operation in a phase. -/
def Running.callStage (running : Running) : CallStage :=
  match running.phase with
  | .subscribeAccepted | .subscribeRejected | .setFlag | .takeSemaphore => .preparing
  | .publish => .ready
  | .publishing | .waiting => .requested
  | .giveSemaphore => .releasing running.returnCode
  | .undoAccepted | .cleanUp | .unsubscribeAccepted | .unsubscribeRejected | .finish =>
      .ending running.returnCode

theorem phase_of_requested {running : Running} (h : running.callStage = .requested) :
    running.phase = .publishing ∨ running.phase = .waiting := by
  unfold Running.callStage at h
  cases hphase : running.phase with
  | publishing => exact .inl rfl
  | waiting => exact .inr rfl
  | _ =>
      rw [hphase] at h
      cases h

/-- The protocol's view of a client. -/
structure Call where
  running : Option (ShadowOperationCallParams × CallStage)
  semaphore : Bool
  result : ShadowReturnCode
  data : Option ShadowOperationData
  halted : Bool
  delivered : List MQTTPublishData
  taken : List MQTTPublishData

/-- The protocol's view of a running operation. -/
def Running.call (running : Running) : ShadowOperationCallParams × CallStage :=
  (running.params, running.callStage)

/-- The protocol's view of a history. -/
def CallHistory.call (h : CallHistory) : Call where
  running := h.system.running.map Running.call
  semaphore := h.system.client.callbackSemaphore
  result := h.system.client.operationResult
  data := h.system.client.operationData
  halted := h.system.halted
  delivered := h.delivered
  taken := h.taken

theorem CallHistory.running_of_call {h : CallHistory} {call : ShadowOperationCallParams}
    {stage : CallStage} (hcall : h.call.running = some (call, stage)) :
    ∃ running, h.system.running = some running ∧ running.params = call ∧
      running.callStage = stage := by
  obtain ⟨running, hrunning, heq⟩ := Option.map_eq_some_iff.mp hcall
  exact ⟨running, hrunning, Prod.mk.inj heq⟩

/-- An operation that is about to return. -/
theorem CallHistory.call_of_finish {h : CallHistory} {running : Running}
    (hrunning : h.system.running = some running) (hphase : running.phase = .finish) :
    h.call.running = some (running.params, .ending running.returnCode) := by
  unfold CallHistory.call
  rw [hrunning]
  show some (running.params, running.callStage) = _
  unfold Running.callStage
  rw [hphase]

/-- The result that the callback reports for a message. -/
def reportedResult (environment : Environment) (publish : MQTTPublishData) : ShadowReturnCode :=
  if prvParseShadowOperationStatus publish = shadowSuccess then shadowSuccess
  else prvGetErrorCodeAndMessage environment publish.document

/-- The data of the operation after an answer, which fills in the parameters of a get. -/
def answeredData (data : ShadowOperationData) (publish : MQTTPublishData) : ShadowOperationData :=
  if data.operationInProgress = .get then
    { data with
      operationParams :=
        if prvParseShadowOperationStatus publish = shadowSuccess then
          { data.operationParams with data := some publish.document, buffer := publish.buffer }
        else { data.operationParams with data := none } }
  else data

/-- A message is taken for the answer: its result is reported, the semaphore is given, and the
buffer is taken if it answers a get with success. -/
def Call.answered (environment : Environment) (data : ShadowOperationData)
    (publish : MQTTPublishData) (c : Call) : Call :=
  { c with
    semaphore := true
    result := reportedResult environment publish
    data := some (answeredData data publish)
    halted := c.semaphore
    delivered := c.delivered ++ [publish]
    taken :=
      if data.operationInProgress = .get ∧
          prvParseShadowOperationStatus publish = shadowSuccess then c.taken ++ [publish]
      else c.taken }

/-- The steps of the protocol. `passes` are the messages that are taken for the operation in
progress by their topics. -/
inductive CallStep (environment : Environment) (passes : MQTTPublishData → Prop) (c : Call) :
    Event → Call → Prop where
  | start {operation : Operation} {params : ShadowOperationParams} : c.running = none →
      CallStep environment passes c (.start operation params)
        { c with
          running := some (shadowOperationCallParams operation params, .preparing)
          delivered := []
          taken := [] }
  | proceed : CallStep environment passes c .proceed c
  | returns {code : MQTTAgentReturnCode} {effect : Bool} :
      CallStep environment passes c (.mqttReturns code effect) c
  | connect : CallStep environment passes c .connect c
  | disconnect : CallStep environment passes c .disconnect c
  | subscribeFails {call : ShadowOperationCallParams} {code : MQTTAgentReturnCode}
      {effect : Bool} : c.running = some (call, .preparing) → code ≠ .success →
      CallStep environment passes c (.mqttReturns code effect)
        { c with running := some (call, .ending (prvConvertMQTTReturnCode code)) }
  | take {call : ShadowOperationCallParams} : c.running = some (call, .preparing) →
      CallStep environment passes c .proceed
        { c with
          running := some (call, .ready)
          semaphore := false
          halted := !c.semaphore }
  | request {call : ShadowOperationCallParams} : c.running = some (call, .ready) →
      CallStep environment passes c .proceed
        { c with
          running := some (call, .requested)
          data := some ⟨call.operation.toName, call.operationParams⟩ }
  | requestFails {call : ShadowOperationCallParams} {code : MQTTAgentReturnCode}
      {effect : Bool} : c.running = some (call, .requested) → code ≠ .success →
      CallStep environment passes c (.mqttReturns code effect)
        { c with running := some (call, .releasing (prvConvertMQTTReturnCode code)) }
  | collect {call : ShadowOperationCallParams} : c.running = some (call, .requested) →
      c.semaphore = true →
      CallStep environment passes c .proceed
        { c with running := some (call, .releasing c.result), semaphore := false }
  | timeOut {call : ShadowOperationCallParams} : c.running = some (call, .requested) →
      c.semaphore = false →
      CallStep environment passes c .timeOut
        { c with running := some (call, .releasing shadowTimeout) }
  | give {call : ShadowOperationCallParams} {code : ShadowReturnCode} :
      c.running = some (call, .releasing code) →
      CallStep environment passes c .proceed
        { c with
          running := some (call, .ending code)
          semaphore := true
          halted := c.semaphore }
  | finish {call : ShadowOperationCallParams} {code : ShadowReturnCode} :
      c.running = some (call, .ending code) →
      CallStep environment passes c .proceed
        { c with running := none, data := none, result := shadowSuccess }
  | ignore {publish : MQTTPublishData} :
      CallStep environment passes c (.message publish)
        { c with delivered := c.delivered ++ [publish] }
  | answer {publish : MQTTPublishData} {data : ShadowOperationData} : c.data = some data →
      passes publish →
      (data.operationInProgress = .update →
        clientTokenMatches environment data.operationParams publish = true) →
      CallStep environment passes c (.message publish) (c.answered environment data publish)

/-! ## The client follows the protocol -/

section Follows

variable {passes : MQTTPublishData → Prop} {s s' : ShadowSystem} {running : Running}
  {labels : List ShadowOutput} {delivered taken : List MQTTPublishData}

theorem set_flag_call (operation : ShadowOperationName) (value : Bool) (client : ShadowClient) :
    (prvSetSubscribedFlag operation value client).callbackSemaphore = client.callbackSemaphore ∧
      (prvSetSubscribedFlag operation value client).operationResult = client.operationResult ∧
      (prvSetSubscribedFlag operation value client).operationData = client.operationData := by
  cases operation <;> exact ⟨rfl, rfl, rfl⟩

/-- The protocol's view of a client whose operation is in some stage. -/
theorem call_running (hrunning : s.running = some running) :
    (CallHistory.call ⟨s, delivered, taken⟩).running =
      some (running.params, running.callStage) := by
  unfold CallHistory.call
  rw [hrunning]
  rfl

/-- A step that changes nothing but the phase, within the stage, is not seen. -/
theorem call_same {running' : Running} (hrunning : s.running = some running)
    (hrunning' : s'.running = some running') (hparams : running'.params = running.params)
    (hstage : running'.callStage = running.callStage)
    (hsemaphore : s'.client.callbackSemaphore = s.client.callbackSemaphore)
    (hresult : s'.client.operationResult = s.client.operationResult)
    (hdata : s'.client.operationData = s.client.operationData) (hhalted : s'.halted = s.halted) :
    CallHistory.call ⟨s', delivered, taken⟩ = CallHistory.call ⟨s, delivered, taken⟩ := by
  unfold CallHistory.call
  rw [hrunning, hrunning', Option.map_some, Option.map_some, Running.call, Running.call, hparams,
    hstage, hsemaphore, hresult, hdata, hhalted]

/-- Starting the clean-up stays in the stage. -/
theorem clean_up_call (environment : Environment) (hrunning : s.running = some running)
    (hphase : running.phase = .cleanUp) :
    CallHistory.call ⟨(startCleanUp environment running s).1, delivered, taken⟩ =
      CallHistory.call ⟨s, delivered, taken⟩ := by
  have hstage : running.callStage = .ending running.returnCode := by
    unfold Running.callStage
    rw [hphase]
  unfold startCleanUp
  simp only
  split_ifs
  · exact call_same hrunning rfl rfl hstage.symm rfl rfl rfl rfl
  · exact call_same hrunning rfl rfl hstage.symm rfl rfl rfl rfl
  · exact call_same hrunning rfl rfl hstage.symm rfl rfl rfl rfl
  · exact call_same hrunning rfl rfl hstage.symm rfl rfl rfl rfl

/-- What the operation does next by itself. -/
theorem proceed_call (hrunning : s.running = some running)
    (h : proceedOperation environment running s = some (s', labels)) :
    CallStep environment passes (CallHistory.call ⟨s, delivered, taken⟩) .proceed
      (CallHistory.call ⟨s', delivered, taken⟩) := by
  have hview := @call_running s running delivered taken hrunning
  unfold Running.callStage at hview
  cases proceed_cases h with
  -- Before the request and in the clean-up the protocol sees nothing.
  | setFlag hphase =>
      have hstage : running.callStage = .preparing := by
        unfold Running.callStage
        rw [hphase]
      have hsame := @call_same s
        { s with
          client := prvSetSubscribedFlag running.params.operation.toName true s.client
          running := some { running with phase := .takeSemaphore } }
        running delivered taken { running with phase := .takeSemaphore } hrunning rfl rfl
        hstage.symm (set_flag_call _ _ _).1 (set_flag_call _ _ _).2.1 (set_flag_call _ _ _).2.2 rfl
      rw [hsame]
      exact .proceed
  | cleanUp hphase =>
      rw [clean_up_call environment hrunning hphase]
      exact .proceed
  | takeSemaphore hphase =>
      rw [hphase] at hview
      exact .take hview
  | publish hphase =>
      rw [hphase] at hview
      exact .request hview
  | collect hphase havailable =>
      rw [hphase] at hview
      exact .collect hview havailable
  | giveSemaphore hphase =>
      rw [hphase] at hview
      exact .give hview
  | finish hphase =>
      rw [hphase] at hview
      exact .finish hview

/-- An MQTT call returns. -/
theorem return_call {code : MQTTAgentReturnCode} {effect : Bool}
    (hrunning : s.running = some running) (h : returnMQTT code running s = some (s', labels)) :
    CallStep environment passes (CallHistory.call ⟨s, delivered, taken⟩)
      (.mqttReturns code effect) (CallHistory.call ⟨s', delivered, taken⟩) := by
  have hview := @call_running s running delivered taken hrunning
  -- Most calls that return move the operation on within its stage.
  have hquiet : ∀ {running' : Running}, s'.running = some running' →
      running'.params = running.params → running'.callStage = running.callStage →
      s'.client.callbackSemaphore = s.client.callbackSemaphore →
      s'.client.operationResult = s.client.operationResult →
      s'.client.operationData = s.client.operationData → s'.halted = s.halted →
      CallStep environment passes (CallHistory.call ⟨s, delivered, taken⟩)
        (.mqttReturns code effect) (CallHistory.call ⟨s', delivered, taken⟩) := by
    intro running' hnext hparams hstage hsemaphore hresult hdata hhalted
    rw [call_same hrunning hnext hparams hstage hsemaphore hresult hdata hhalted]
    exact .returns
  unfold Running.callStage at hview
  cases return_cases h with
  | acceptedSubscribed hphase | rejectedSubscribed hphase | undone hphase | published hphase
  | acceptedUnsubscribed hphase | rejectedStays hphase =>
      refine hquiet rfl rfl ?_ rfl rfl rfl rfl
      unfold Running.callStage
      rw [hphase]
  | acceptedFails hphase hcode | rejectedFails hphase hcode =>
      rw [hphase] at hview
      exact .subscribeFails hview hcode
  | publishFails hphase hcode =>
      rw [hphase] at hview
      exact .requestFails hview hcode
  | rejectedUnsubscribed hphase =>
      refine hquiet rfl rfl ?_ (set_flag_call _ _ _).1 (set_flag_call _ _ _).2.1
        (set_flag_call _ _ _).2.2 rfl
      unfold Running.callStage
      rw [hphase]

/-- An operation starts. -/
theorem start_call (operation : Operation) (params : ShadowOperationParams)
    (hrunning : s.running = none) :
    CallStep environment passes (CallHistory.call ⟨s, delivered, taken⟩)
      (.start operation params)
      (CallHistory.call ⟨(startOperation operation params s).1, [], []⟩) := by
  have hview : (CallHistory.call ⟨s, delivered, taken⟩).running = none := by
    unfold CallHistory.call
    rw [hrunning]
    rfl
  unfold startOperation
  simp only
  split_ifs
  · exact .start hview
  · exact .start hview

/-- The status of a message that passes for an answer. -/
theorem status_of_match {publish : MQTTPublishData} {client : ShadowClient}
    {data : ShadowOperationData} (h : matchOperationInProgress publish client = some data) :
    client.operationData = some data ∧
      (prvParseShadowOperationStatus publish = shadowSuccess ∨
        prvParseShadowOperationStatus publish = shadowFailure) := by
  obtain ⟨hdata, hmatch⟩ := Option.filter_eq_some_iff.mp h
  refine ⟨hdata, ?_⟩
  have hknown : prvParseShadowOperationStatus publish ≠ shadowUnknown := by
    simp only [Bool.and_eq_true, bne_iff_ne] at hmatch
    exact hmatch.1.2
  unfold prvParseShadowOperationStatus at hknown ⊢
  simp only at hknown ⊢
  split_ifs at hknown ⊢
  · exact .inl rfl
  · exact .inr rfl
  · exact absurd rfl hknown

theorem answered_data_same {data : ShadowOperationData} {publish : MQTTPublishData}
    (h : data.operationInProgress ≠ .get) : answeredData data publish = data :=
  if_neg h

/-- A message is ignored, or it passes for the answer to the operation in progress. -/
theorem handled_cases (environment : Environment) (publish : MQTTPublishData)
    (client : ShadowClient) :
    ((shadowMQTTCallbackPublish environment publish client).2.1 = client ∧
        failed (shadowMQTTCallbackPublish environment publish client).2.2 = false ∧
        takesBuffer environment publish client = false) ∨
      ∃ data, matchOperationInProgress publish client = some data ∧
        (data.operationInProgress = .update →
          clientTokenMatches environment data.operationParams publish = true) ∧
        (shadowMQTTCallbackPublish environment publish client).2.1 =
          { client with
            callbackSemaphore := true
            operationResult := reportedResult environment publish
            operationData := some (answeredData data publish) } ∧
        failed (shadowMQTTCallbackPublish environment publish client).2.2 =
          client.callbackSemaphore ∧
        takesBuffer environment publish client = decide (data.operationInProgress = .get ∧
          prvParseShadowOperationStatus publish = shadowSuccess) := by
  unfold shadowMQTTCallbackPublish takesBuffer
  -- Without an operation that the message answers only a callback is notified.
  cases hmatch : matchOperationInProgress publish client with
  | none =>
      left
      simp only [notifyUser]
      split <;> exact ⟨rfl, by simp [failed, ShadowOutput.failedGive], by simp⟩
  | some data =>
      obtain ⟨hdata, hstatus⟩ := status_of_match hmatch
      obtain ⟨name, params⟩ := data
      have hreported : (if prvParseShadowOperationStatus publish = shadowFailure then
          prvGetErrorCodeAndMessage environment publish.document
            else prvParseShadowOperationStatus publish) = reportedResult environment publish := by
        unfold reportedResult
        rcases hstatus with hstatus | hstatus <;> rw [hstatus] <;> rfl
      cases name with
      | update =>
          -- An update whose client token is another one stays open.
          cases htoken : clientTokenMatches environment params publish with
          | false =>
              left
              simp [answerOperation, prvShadowUpdateCallback, htoken, failed]
          | true =>
              refine .inr ⟨_, rfl, fun _ => htoken, ?_, ?_, ?_⟩
              · simp only [answerOperation, prvShadowUpdateCallback, giveCallbackSemaphore, htoken,
                  hreported, hdata, if_true,
                  @answered_data_same ⟨.update, params⟩ publish fun h => (by cases h)]
              · cases h : client.callbackSemaphore <;>
                  simp [answerOperation, prvShadowUpdateCallback, giveCallbackSemaphore, failed,
                    ShadowOutput.failedGive, h, htoken]
              · simp [answerOperation]
      | get =>
          refine .inr ⟨_, rfl, fun h => (by cases h), ?_, ?_, ?_⟩
          · simp only [answerOperation, prvShadowGetCallback, giveCallbackSemaphore, answeredData,
              reportedResult]
            rcases hstatus with hstatus | hstatus <;> rw [hstatus] <;> rfl
          · cases h : client.callbackSemaphore <;>
              simp [answerOperation, prvShadowGetCallback, giveCallbackSemaphore, failed,
                ShadowOutput.failedGive, h]
          · simp [answerOperation]
      | delete =>
          refine .inr ⟨_, rfl, fun h => (by cases h), ?_, ?_, ?_⟩
          · simp only [answerOperation, prvShadowDeleteCallback, giveCallbackSemaphore, hreported,
              hdata, @answered_data_same ⟨.delete, params⟩ publish fun h => (by cases h)]
          · cases h : client.callbackSemaphore <;>
              simp [answerOperation, prvShadowDeleteCallback, giveCallbackSemaphore, failed,
                ShadowOutput.failedGive, h]
          · simp [answerOperation]
      | _ => exact .inl ⟨rfl, rfl, rfl⟩

/-- A message is delivered. -/
theorem message_call (environment : Environment) (publish : MQTTPublishData)
    (hhalted : s.halted = false) :
    CallStep environment (fun publish => (matchOperationInProgress publish s.client).isSome = true)
      (CallHistory.call ⟨s, delivered, taken⟩) (.message publish)
      (CallHistory.call
        ⟨{ s with
          client := (shadowMQTTCallbackPublish environment publish s.client).2.1
          halted := failed (shadowMQTTCallbackPublish environment publish s.client).2.2 },
          delivered ++ [publish],
          if takesBuffer environment publish s.client then taken ++ [publish] else taken⟩) := by
  rcases handled_cases environment publish s.client with
    ⟨hclient, hfailed, htakes⟩ | ⟨data, hmatch, htoken, hclient, hfailed, htakes⟩
  · have hsame : CallHistory.call
        ⟨{ s with client := s.client, halted := false }, delivered ++ [publish], taken⟩ =
        { CallHistory.call ⟨s, delivered, taken⟩ with delivered := delivered ++ [publish] } := by
      unfold CallHistory.call
      rw [hhalted]
    rw [hclient, hfailed, htakes, if_neg Bool.false_ne_true, hsame]
    exact .ignore
  · have hanswer := @CallStep.answer environment
      (fun publish => (matchOperationInProgress publish s.client).isSome = true)
      (CallHistory.call ⟨s, delivered, taken⟩) publish data (status_of_match hmatch).1
      (by rw [hmatch]; rfl) htoken
    rw [hclient, hfailed, htakes]
    have hsame : CallHistory.call
        ⟨{ s with
          client := { s.client with
            callbackSemaphore := true
            operationResult := reportedResult environment publish
            operationData := some (answeredData data publish) }
          halted := s.client.callbackSemaphore }, delivered ++ [publish],
          if decide (data.operationInProgress = .get ∧
              prvParseShadowOperationStatus publish = shadowSuccess) = true then
            taken ++ [publish] else taken⟩ =
        (CallHistory.call ⟨s, delivered, taken⟩).answered environment data publish := by
      unfold CallHistory.call Call.answered
      simp only [decide_eq_true_eq]
    rw [hsame]
    exact hanswer

/-- Every step of a client is a step of the protocol, and no step follows a failed assertion. -/
theorem call_step {h h' : CallHistory} {event : Event}
    (hstep : callStep environment h event = some h') :
    CallStep environment
        (fun publish => (matchOperationInProgress publish h.system.client).isSome = true) h.call
        event h'.call ∧ h.system.halted = false := by
  obtain ⟨system, delivered, taken⟩ := h
  obtain ⟨⟨s', labels⟩, hs, hh'⟩ := Option.map_eq_some_iff.mp hstep
  obtain ⟨hhalted, hcases⟩ := step_cases hs
  refine ⟨?_, hhalted⟩
  cases event with
  | start operation params =>
      obtain ⟨hrunning, -, -, hbegins⟩ := hcases
      cases hh'
      have hstart := @start_call environment
        (fun publish => (matchOperationInProgress publish system.client).isSome = true) system
        delivered taken operation params hrunning
      rw [hbegins] at hstart
      exact hstart
  | proceed =>
      obtain ⟨running, hrunning, hproceed⟩ := hcases
      cases hh'
      exact proceed_call hrunning hproceed
  | mqttReturns code effect =>
      obtain ⟨-, -, running, hrunning, hreturn⟩ := hcases
      cases hh'
      -- What a call does at the broker is not part of the protocol.
      cases effect with
      | false => exact return_call hrunning hreturn
      | true =>
          exact @return_call environment _
            { system with subscriptions := brokerEffect running system.subscriptions } s' running
            labels delivered taken code true hrunning hreturn
  | timeOut =>
      obtain ⟨running, hrunning, hwaiting, hsemaphore, rfl, -⟩ := hcases
      cases hh'
      have hview := @call_running system running delivered taken hrunning
      unfold Running.callStage at hview
      rw [hwaiting] at hview
      exact .timeOut hview hsemaphore
  | message publish =>
      obtain ⟨-, rfl, rfl⟩ := hcases
      cases hh'
      exact message_call environment publish hhalted
  | connect =>
      obtain ⟨-, rfl, -⟩ := hcases
      cases hh'
      exact .connect
  | disconnect =>
      obtain ⟨-, rfl, -⟩ := hcases
      cases hh'
      exact .disconnect

end Follows

end TivaAws.Shadow
