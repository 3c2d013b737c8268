import TivaAws.Shadow.AnswerTopics

/-!
# Updates that succeed

`SHADOW_Update` succeeds because of a message on the accepted topic of the Thing that has the client
token of the update and is delivered during the call. The result and the semaphore carry nothing
over from one operation to the next, and a rejection never has the code of success. But a message is
recognised by the beginning and the end of its topic, so this needs that no other topic passes for
the accepted topic of the Thing.
-/

namespace TivaAws.Shadow

open ByteMemory Runs

variable {environment : Environment} {c c' : Call} {event : Event}

/-- A message with the client token of the update was delivered on the accepted topic. -/
def AnsweredUpdate (environment : Environment) (params : ShadowOperationParams)
    (delivered : List MQTTPublishData) : Prop :=
  ∃ publish ∈ delivered, publish.topicBytes = Operation.update.accepted params.thingName.bytes ∧
    clientTokenMatches environment params publish = true

instance (environment : Environment) (params : ShadowOperationParams)
    (delivered : List MQTTPublishData) :
    Decidable (AnsweredUpdate environment params delivered) :=
  inferInstanceAs (Decidable (∃ publish ∈ delivered,
    publish.topicBytes = Operation.update.accepted params.thingName.bytes ∧
      clientTokenMatches environment params publish = true))

/-- An update that is about to return success was answered during the call. -/
def UpdatesAnswered (environment : Environment) (h : CallHistory) : Prop :=
  ∀ running ∈ h.system.running, running.phase = .finish → running.params.operation = .update →
    running.returnCode = shadowSuccess →
    AnsweredUpdate environment running.params.operationParams h.delivered

instance (environment : Environment) (h : CallHistory) :
    Decidable (UpdatesAnswered environment h) :=
  inferInstanceAs (Decidable (∀ running ∈ h.system.running, running.phase = .finish →
    running.params.operation = .update → running.returnCode = shadowSuccess →
    AnsweredUpdate environment running.params.operationParams h.delivered))

/-- A message that passes for the acceptance of an update, by its topic and by its client token, is
on the accepted topic of the Thing. -/
def RecognisesUpdates (environment : Environment) (h : CallHistory) : Event → Prop
  | .message publish =>
      ∀ running ∈ h.system.running, running.Waits → running.params.operation = .update →
        PassesFor .accepted publish h.system.client →
        clientTokenMatches environment running.params.operationParams publish = true →
        publish.topicBytes =
          Operation.update.accepted running.params.operationParams.thingName.bytes
  | _ => True

instance (environment : Environment) (h : CallHistory) :
    (event : Event) → Decidable (RecognisesUpdates environment h event)
  | .message publish => inferInstanceAs (Decidable (∀ running ∈ h.system.running,
      running.Waits → running.params.operation = .update →
      PassesFor .accepted publish h.system.client →
      clientTokenMatches environment running.params.operationParams publish = true →
      publish.topicBytes =
        Operation.update.accepted running.params.operationParams.thingName.bytes))
  | .start _ _ | .proceed | .mqttReturns _ _ | .timeOut | .connect | .disconnect =>
      isTrue trivial

/-! ## Invariant -/

/-- A rejection does not have the code of success. -/
theorem error_code_ne_success (environment : Environment) (document : Document) :
    prvGetErrorCodeAndMessage environment document ≠ shadowSuccess := by
  unfold prvGetErrorCodeAndMessage
  simp only
  split_ifs with hzero
  · decide
  · exact hzero

theorem reported_result_success {publish : MQTTPublishData}
    (h : reportedResult environment publish = shadowSuccess) :
    prvParseShadowOperationStatus publish = shadowSuccess := by
  unfold reportedResult at h
  split_ifs at h with hstatus
  · exact hstatus
  · exact absurd h (error_code_ne_success environment publish.document)

/-- What holds of an update in each stage. -/
def UpdateHolds (environment : Environment) (c : Call) (call : ShadowOperationCallParams) :
    CallStage → Prop
  | .preparing => c.data = none
  | .ready => c.data = none ∧ c.semaphore = false
  | .requested => call.operation = .update →
      c.data = some ⟨.update, call.operationParams⟩ ∧
        (c.semaphore = true → c.result = shadowSuccess →
          AnsweredUpdate environment call.operationParams c.delivered)
  | .releasing returnCode | .ending returnCode => call.operation = .update →
      returnCode = shadowSuccess → AnsweredUpdate environment call.operationParams c.delivered

/-- Nothing is left of an operation when the next one starts, and an update that has succeeded was
answered. -/
def UpdateInvariant (environment : Environment) (c : Call) : Prop :=
  match c.running with
  | none => c.data = none
  | some (call, stage) => UpdateHolds environment c call stage

theorem UpdateInvariant.holds {call : ShadowOperationCallParams} {stage : CallStage}
    (h : UpdateInvariant environment c) (hrunning : c.running = some (call, stage)) :
    UpdateHolds environment c call stage := by
  unfold UpdateInvariant at h
  rw [hrunning] at h
  exact h

theorem AnsweredUpdate.later {params : ShadowOperationParams}
    {delivered : List MQTTPublishData} (h : AnsweredUpdate environment params delivered)
    (publish : MQTTPublishData) :
    AnsweredUpdate environment params (delivered ++ [publish]) := by
  obtain ⟨answer, hmem, htopic, htoken⟩ := h
  exact ⟨answer, List.mem_append_left _ hmem, htopic, htoken⟩

/-- A message that is ignored changes nothing but the list of messages. -/
theorem UpdateInvariant.ignore {publish : MQTTPublishData} (h : UpdateInvariant environment c) :
    UpdateInvariant environment { c with delivered := c.delivered ++ [publish] } := by
  unfold UpdateInvariant at h ⊢
  cases hrunning : c.running with
  | none =>
      rw [hrunning] at h
      exact h
  | some running =>
      obtain ⟨call, stage⟩ := running
      rw [hrunning] at h
      cases stage with
      | preparing => exact h
      | ready => exact h
      | requested =>
          intro hupdate
          obtain ⟨hdata, hanswered⟩ := h hupdate
          exact ⟨hdata, fun hsemaphore hresult => (hanswered hsemaphore hresult).later publish⟩
      | releasing returnCode => exact fun hupdate hcode => (h hupdate hcode).later publish
      | ending returnCode => exact fun hupdate hcode => (h hupdate hcode).later publish

/-- A message that passes for an answer. -/
theorem UpdateInvariant.answer {publish : MQTTPublishData} {data : ShadowOperationData}
    (h : UpdateInvariant environment c) (hdata : c.data = some data)
    (htoken : data.operationInProgress = .update →
      clientTokenMatches environment data.operationParams publish = true)
    (htopic : ∀ call, c.running = some (call, .requested) → call.operation = .update →
      prvParseShadowOperationStatus publish = shadowSuccess →
      clientTokenMatches environment call.operationParams publish = true →
      publish.topicBytes = Operation.update.accepted call.operationParams.thingName.bytes) :
    UpdateInvariant environment (c.answered environment data publish) := by
  unfold UpdateInvariant at h ⊢
  show match c.running with
    | none => some (answeredData data publish) = none
    | some (call, stage) => UpdateHolds environment (c.answered environment data publish) call stage
  cases hrunning : c.running with
  | none =>
      rw [hrunning] at h
      cases h.symm.trans hdata
  | some running =>
      obtain ⟨call, stage⟩ := running
      rw [hrunning] at h
      cases stage with
      | preparing => cases Eq.trans (Eq.symm h) hdata
      | ready => cases h.1.symm.trans hdata
      | requested =>
          intro hupdate
          obtain ⟨hcall, -⟩ := h hupdate
          cases hcall.symm.trans hdata
          have htoken := htoken rfl
          refine ⟨congrArg some (answered_data_same fun hname => by cases hname), ?_⟩
          intro _ hresult
          have hstatus := reported_result_success hresult
          exact ⟨publish, List.mem_append_right _ List.mem_cons_self,
            htopic call hrunning hupdate hstatus htoken, htoken⟩
      | releasing returnCode => exact fun hupdate hcode => (h hupdate hcode).later publish
      | ending returnCode => exact fun hupdate hcode => (h hupdate hcode).later publish

/-- A step of the protocol keeps the invariant if acceptances are recognised. -/
theorem UpdateInvariant.step {passes : MQTTPublishData → Prop}
    (h : UpdateInvariant environment c)
    (htopic : ∀ publish call, event = .message publish → c.running = some (call, .requested) →
      call.operation = .update → passes publish →
      prvParseShadowOperationStatus publish = shadowSuccess →
      clientTokenMatches environment call.operationParams publish = true →
      publish.topicBytes = Operation.update.accepted call.operationParams.thingName.bytes)
    (hstep : CallStep environment passes c event c') : UpdateInvariant environment c' := by
  cases hstep with
  | start hrunning =>
      unfold UpdateInvariant at h
      rw [hrunning] at h
      exact h
  | proceed => exact h
  | returns => exact h
  | connect => exact h
  | disconnect => exact h
  | subscribeFails _ hcode =>
      exact fun _ hsuccess => absurd hsuccess (mt convert_eq_success_iff.mp hcode)
  | take hrunning => exact ⟨h.holds hrunning, rfl⟩
  | request hrunning =>
      intro hupdate
      have hready : c.data = none ∧ c.semaphore = false := h.holds hrunning
      refine ⟨?_, fun hsemaphore => ?_⟩
      · rw [hupdate]
        rfl
      · cases hready.2.symm.trans hsemaphore
  | requestFails _ hcode =>
      exact fun _ hsuccess => absurd hsuccess (mt convert_eq_success_iff.mp hcode)
  | collect hrunning hsemaphore =>
      exact fun hupdate hsuccess => ((h.holds hrunning) hupdate).2 hsemaphore hsuccess
  | timeOut _ _ => exact fun _ hsuccess => absurd hsuccess (by decide)
  | give hrunning => exact h.holds hrunning
  | finish _ => exact rfl
  | ignore => exact h.ignore
  | answer hdata hpasses htoken =>
      exact h.answer hdata htoken fun call hrunning hupdate hstatus htoken =>
        htopic _ call rfl hrunning hupdate hpasses hstatus htoken

/-! ## Every run -/

/-- A step of a client keeps the invariant if acceptances are recognised. -/
theorem update_invariant_step {h h' : CallHistory} (hinv : UpdateInvariant environment h.call)
    (hrecognises : RecognisesUpdates environment h event)
    (hstep : callStep environment h event = some h') : UpdateInvariant environment h'.call := by
  refine hinv.step (fun publish call hevent hrunning hupdate hpasses hstatus htoken => ?_)
    (call_step hstep).1
  subst hevent
  obtain ⟨running, hsystem, rfl, hstage⟩ := CallHistory.running_of_call hrunning
  exact hrecognises running hsystem (phase_of_requested hstage) hupdate
    (TakenAs.passes ⟨hpasses, hstatus⟩) htoken

/-- In every run in which acceptances are recognised, every update that succeeds was answered during
the call. -/
theorem updates_answered (environment : Environment)
    (callbackCatalog : List CallbackCatalogEntry) (topicBuffer : ByteMemory)
    (events : List Event)
    (hrecognises : Throughout (callStep environment) (RecognisesUpdates environment)
      (.created callbackCatalog topicBuffer) events) :
    Always (callStep environment) (UpdatesAnswered environment)
      (.created callbackCatalog topicBuffer) events := by
  refine always_of_throughout (fun h => UpdateInvariant environment h.call)
    (fun hinv hrecognises hstep => update_invariant_step hinv hrecognises hstep)
    (fun {h} hinv => ?_) rfl hrecognises
  intro running hrunning hphase hupdate hcode
  exact hinv.holds (CallHistory.call_of_finish hrunning hphase) hupdate hcode

/-- The acceptance of an update of the Thing `T`. -/
def acceptedUpdate : MQTTPublishData :=
  benchMessage (Operation.update.accepted (ascii "T"))

/-- An update of the Thing `T` with its answer, up to where it returns. -/
def answeredUpdate : List Event :=
  [.connect, .start .update (benchParams 84 bench_thing_ne_zero true), succeeds, succeeds, .proceed,
    .proceed, .proceed, succeeds, .message acceptedUpdate, .proceed, .proceed, .proceed]

theorem updates_answered_once :
    (∃ h, run (callStep benchEnvironment) answeredUpdate (.created [] fun _ => 0) = some h ∧
        h.system.running.any fun running =>
          running.phase = .finish && running.returnCode = shadowSuccess) ∧
      Always (callStep benchEnvironment) (UpdatesAnswered benchEnvironment)
        (.created [] fun _ => 0) answeredUpdate := by
  have hrun : ((run (callStep benchEnvironment) answeredUpdate (.created [] fun _ => 0)).any
      fun h => h.system.running.any fun running =>
        running.phase = .finish && running.returnCode = shadowSuccess) = true := by
    decide +kernel
  refine ⟨(Option.any_eq_true _ _).mp hrun, updates_answered benchEnvironment [] (fun _ => 0)
    answeredUpdate ?_⟩
  decide +kernel

/-- An update of a Thing that has the name of an update topic of the Thing `T`. -/
def nestedParams : ShadowOperationParams where
  thingName := ⟨ascii "T/shadow/update", by decide⟩
  data := some ⟨fun _ => 0, 0, 0⟩
  buffer := 0
  keepSubscriptions := true
  qos := .qos1

/-- The acceptance of an update of that Thing. -/
def acceptedNested : MQTTPublishData :=
  benchMessage (Operation.update.accepted (ascii "T/shadow/update"))

/-- An update of each of the two Things, and two acceptances for the first one. -/
def nestedUpdates : List Event :=
  [.connect, .start .update nestedParams, succeeds, succeeds, .proceed, .proceed, .proceed,
    succeeds, .message acceptedNested, .proceed, .proceed, .proceed, .proceed,
    .start .update (benchParams 84 bench_thing_ne_zero true), .proceed, .proceed, .proceed,
    succeeds,
    .message acceptedNested, .proceed, .proceed, .proceed]

/-- The second update succeeds without an answer. -/
theorem nested_update_succeeds :
    ¬ Always (callStep benchEnvironment) (UpdatesAnswered benchEnvironment)
      (.created [] fun _ => 0) nestedUpdates := by
  have hrun : ((run (callStep benchEnvironment) nestedUpdates (.created [] fun _ => 0)).any
      fun h => decide (¬ UpdatesAnswered benchEnvironment h)) = true := by
    decide +kernel
  obtain ⟨h, hlast, hnot⟩ := (Option.any_eq_true _ _).mp hrun
  exact fun halways => of_decide_eq_true hnot (halways.reached hlast)

end TivaAws.Shadow
