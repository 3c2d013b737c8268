import TivaAws.Shadow.Updates

/-!
# What a get leaves behind

A get that succeeds holds the document and the buffer of the one message that was taken for its
answer, and one that has been rejected holds nothing. The parameters are left as they were if no
answer came, so a get holds nothing then only if the caller has passed no document. A message that
comes after the answer, or after the time is up, takes no buffer away from the call: it halts the
device while the operation is still known, and is not looked at afterwards.
-/

namespace TivaAws.Shadow

open ByteMemory Runs

variable {environment : Environment} {c c' : Call} {event : Event}

/-- The parameters that a call leaves to the caller. -/
def finalParams (call : ShadowOperationCallParams) (data : Option ShadowOperationData) :
    ShadowOperationParams :=
  match data with
  | some data => data.operationParams
  | none => call.operationParams

/-- The parameters hold the document and the buffer of a delivered message on the accepted topic,
and no other buffer has been taken. -/
def HoldsAnswer (name : List UInt8) (params : ShadowOperationParams)
    (delivered taken : List MQTTPublishData) : Prop :=
  ∃ publish ∈ delivered, publish.topicBytes = Operation.get.accepted name ∧ taken = [publish] ∧
    params.data = some publish.document ∧ params.buffer = publish.buffer

/-- The parameters hold no document, and no buffer has been taken. -/
def HoldsNothing (params : ShadowOperationParams) (taken : List MQTTPublishData) : Prop :=
  params.data = none ∧ taken = []

/-- What a get leaves behind when it returns. -/
def GetOutcome (returnCode : ShadowReturnCode) (name : List UInt8)
    (params : ShadowOperationParams) (delivered taken : List MQTTPublishData) : Prop :=
  (returnCode = shadowSuccess ↔ HoldsAnswer name params delivered taken) ∧
    (returnCode ≠ shadowSuccess → HoldsNothing params taken)

/-- A get that is about to return has the outcome that its return code says, and no message takes a
buffer when no operation is running. -/
def GetsAccounted (environment : Environment) (h : CallHistory) : Prop :=
  h.system.halted = false →
    (∀ running ∈ h.system.running, running.phase = .finish → running.params.operation = .get →
      GetOutcome running.returnCode running.params.operationParams.thingName.bytes
        (finalParams running.params h.system.client.operationData) h.delivered h.taken) ∧
    (h.system.running = none → ∀ publish, takesBuffer environment publish h.system.client = false)

/-- A get that ends without an answer was called without a document, and a message that passes for
the acceptance of a get by its topic is on the accepted topic of the Thing. -/
def EndsClean (h : CallHistory) : Event → Prop
  | .mqttReturns code _ =>
      ∀ running ∈ h.system.running, running.params.operation = .get → code ≠ .success →
        running.callStage = .preparing ∨
          running.callStage = .requested ∧ h.system.client.callbackSemaphore = false →
        running.params.operationParams.data = none
  | .timeOut =>
      ∀ running ∈ h.system.running, running.params.operation = .get →
        running.params.operationParams.data = none
  | .message publish =>
      ∀ running ∈ h.system.running, running.Waits → running.params.operation = .get →
        PassesFor .accepted publish h.system.client →
        publish.topicBytes = Operation.get.accepted running.params.operationParams.thingName.bytes
  | _ => True

instance (h : CallHistory) : (event : Event) → Decidable (EndsClean h event)
  | .mqttReturns code _ => inferInstanceAs (Decidable (∀ running ∈ h.system.running,
      running.params.operation = .get → code ≠ .success →
      running.callStage = .preparing ∨
        running.callStage = .requested ∧ h.system.client.callbackSemaphore = false →
      running.params.operationParams.data = none))
  | .timeOut => inferInstanceAs (Decidable (∀ running ∈ h.system.running,
      running.params.operation = .get → running.params.operationParams.data = none))
  | .message publish => inferInstanceAs (Decidable (∀ running ∈ h.system.running,
      running.Waits → running.params.operation = .get →
      PassesFor .accepted publish h.system.client →
      publish.topicBytes =
        Operation.get.accepted running.params.operationParams.thingName.bytes))
  | .start _ _ | .proceed | .connect | .disconnect => isTrue trivial

/-! ## Invariant -/

/-- How a get stands that has its answer, or will not get one. -/
def Settled (returnCode : ShadowReturnCode) (call : ShadowOperationCallParams) (c : Call) : Prop :=
  call.operation = .get →
    returnCode = shadowSuccess ∧
        HoldsAnswer call.operationParams.thingName.bytes (finalParams call c.data) c.delivered
          c.taken ∨
      returnCode ≠ shadowSuccess ∧ HoldsNothing (finalParams call c.data) c.taken

/-- What holds of an operation in each stage. -/
def GetHolds (c : Call) (call : ShadowOperationCallParams) : CallStage → Prop
  | .preparing => c.semaphore = true ∧ c.data = none ∧ c.taken = []
  | .ready => c.semaphore = false ∧ c.data = none ∧ c.taken = []
  | .requested =>
      (c.semaphore = false → c.data = some ⟨call.operation.toName, call.operationParams⟩ ∧
          c.taken = []) ∧
        (c.semaphore = true → Settled c.result call c)
  | .releasing returnCode => c.semaphore = false → Settled returnCode call c
  | .ending returnCode => c.semaphore = true ∧ Settled returnCode call c

/-- While nothing has failed the semaphore is where it belongs, and a get is as its return code
says. -/
def GetInvariant (c : Call) : Prop :=
  c.halted = false →
    match c.running with
    | none => c.semaphore = true ∧ c.data = none
    | some (call, stage) => GetHolds c call stage

theorem GetInvariant.idle (h : GetInvariant c) (hhalted : c.halted = false)
    (hrunning : c.running = none) : c.semaphore = true ∧ c.data = none := by
  have hcase := h hhalted
  rw [hrunning] at hcase
  exact hcase

theorem GetInvariant.holds {call : ShadowOperationCallParams} {stage : CallStage}
    (h : GetInvariant c) (hhalted : c.halted = false) (hrunning : c.running = some (call, stage)) :
    GetHolds c call stage := by
  have hcase := h hhalted
  rw [hrunning] at hcase
  exact hcase

/-- The messages that are delivered later change nothing. -/
theorem HoldsAnswer.later {name : List UInt8} {params : ShadowOperationParams}
    {delivered taken : List MQTTPublishData} (h : HoldsAnswer name params delivered taken)
    (publish : MQTTPublishData) : HoldsAnswer name params (delivered ++ [publish]) taken := by
  obtain ⟨answer, hmem, hrest⟩ := h
  exact ⟨answer, List.mem_append_left _ hmem, hrest⟩

theorem Settled.later {returnCode : ShadowReturnCode} {call : ShadowOperationCallParams}
    (h : Settled returnCode call c) (publish : MQTTPublishData) :
    Settled returnCode call { c with delivered := c.delivered ++ [publish] } := by
  intro hget
  rcases h hget with ⟨hsuccess, hholds⟩ | hnothing
  · exact .inl ⟨hsuccess, hholds.later publish⟩
  · exact .inr hnothing

theorem GetInvariant.ignore {publish : MQTTPublishData} (h : GetInvariant c) :
    GetInvariant { c with delivered := c.delivered ++ [publish] } := by
  intro hhalted
  have hcase := h hhalted
  show match c.running with
    | none => c.semaphore = true ∧ c.data = none
    | some (call, stage) => GetHolds { c with delivered := c.delivered ++ [publish] } call stage
  cases hrunning : c.running with
  | none =>
      rw [hrunning] at hcase
      exact hcase
  | some running =>
      obtain ⟨call, stage⟩ := running
      rw [hrunning] at hcase
      cases stage with
      | preparing => exact hcase
      | ready => exact hcase
      | requested =>
          obtain ⟨hopen, hsettled⟩ := hcase
          exact ⟨hopen, fun hsemaphore => (hsettled hsemaphore).later publish⟩
      | releasing returnCode => exact fun hsemaphore => (hcase hsemaphore).later publish
      | ending returnCode => exact ⟨hcase.1, hcase.2.later publish⟩

/-- A message that passes for the answer. If the semaphore is available the device halts. -/
theorem GetInvariant.answer {publish : MQTTPublishData} {data : ShadowOperationData}
    (h : GetInvariant c) (hrunning : c.halted = false) (hdata : c.data = some data)
    (htopic : ∀ call, c.running = some (call, .requested) → call.operation = .get →
      prvParseShadowOperationStatus publish = shadowSuccess →
      publish.topicBytes = Operation.get.accepted call.operationParams.thingName.bytes) :
    GetInvariant (c.answered environment data publish) := by
  intro hfree
  have hsemaphore : c.semaphore = false := hfree
  have hcase := h hrunning
  show match c.running with
    | none => true = true ∧ some (answeredData data publish) = none
    | some (call, stage) => GetHolds (c.answered environment data publish) call stage
  cases hrunning : c.running with
  | none =>
      rw [hrunning] at hcase
      cases hcase.1.symm.trans hsemaphore
  | some running =>
      obtain ⟨call, stage⟩ := running
      rw [hrunning] at hcase
      cases stage with
      -- An answer is taken only while the request is open.
      | preparing => cases hcase.1.symm.trans hsemaphore
      | ready => cases hcase.2.1.symm.trans hdata
      | requested =>
          obtain ⟨hcall, htaken⟩ := hcase.1 hsemaphore
          cases hcall.symm.trans hdata
          refine ⟨fun h => ?_, fun _ hget => ?_⟩
          · cases h
          -- An accepted answer leaves the document and its buffer, a rejected one nothing.
          · have hname : call.operation.toName = .get := by rw [hget]; rfl
            by_cases hstatus : prvParseShadowOperationStatus publish = shadowSuccess
            · left
              have hanswered : answeredData ⟨call.operation.toName, call.operationParams⟩ publish =
                  ⟨call.operation.toName, { call.operationParams with
                    data := some publish.document, buffer := publish.buffer }⟩ := by
                unfold answeredData
                rw [if_pos hname, if_pos hstatus]
              refine ⟨if_pos hstatus, publish, List.mem_append_right _ List.mem_cons_self,
                htopic call hrunning hget hstatus, ?_, ?_, ?_⟩
              · show (if _ then c.taken ++ [publish] else c.taken) = [publish]
                rw [if_pos ⟨hname, hstatus⟩, htaken]
                rfl
              · show (answeredData _ publish).operationParams.data = _
                rw [hanswered]
              · show (answeredData _ publish).operationParams.buffer = _
                rw [hanswered]
            · right
              have hanswered : answeredData ⟨call.operation.toName, call.operationParams⟩ publish =
                  ⟨call.operation.toName, { call.operationParams with data := none }⟩ := by
                unfold answeredData
                rw [if_pos hname, if_neg hstatus]
              refine ⟨?_, ?_, ?_⟩
              · intro hsuccess
                exact hstatus (reported_result_success hsuccess)
              · show (answeredData _ publish).operationParams.data = _
                rw [hanswered]
              · show (if _ then c.taken ++ [publish] else c.taken) = []
                rw [if_neg fun h => hstatus h.2, htaken]
      | releasing returnCode => exact fun h => (by cases h)
      | ending returnCode => cases hcase.1.symm.trans hsemaphore

/-- What the protocol needs of an event. -/
structure CleanEnd (passes : MQTTPublishData → Prop) (c : Call) (event : Event) : Prop where
  subscribe : ∀ code effect call, event = .mqttReturns code effect → code ≠ .success →
    c.running = some (call, .preparing) → call.operation = .get →
    call.operationParams.data = none
  request : ∀ code effect call, event = .mqttReturns code effect → code ≠ .success →
    c.running = some (call, .requested) → c.semaphore = false → call.operation = .get →
    call.operationParams.data = none
  timeOut : ∀ call, event = .timeOut → c.running = some (call, .requested) →
    call.operation = .get → call.operationParams.data = none
  topic : ∀ publish call, event = .message publish → c.running = some (call, .requested) →
    call.operation = .get → passes publish →
    prvParseShadowOperationStatus publish = shadowSuccess →
    publish.topicBytes = Operation.get.accepted call.operationParams.thingName.bytes

/-- A step of the protocol keeps the invariant. -/
theorem GetInvariant.step {passes : MQTTPublishData → Prop} (h : GetInvariant c)
    (hhalted : c.halted = false) (hclean : CleanEnd passes c event)
    (hstep : CallStep environment passes c event c') : GetInvariant c' := by
  cases hstep with
  | start hrunning =>
      obtain ⟨hsemaphore, hdata⟩ := h.idle hhalted hrunning
      exact fun _ => ⟨hsemaphore, hdata, rfl⟩
  | proceed => exact h
  | returns => exact h
  | connect => exact h
  | disconnect => exact h
  -- No answer has come, so the parameters are the ones of the caller.
  | @subscribeFails call code effect hrunning hcode =>
      obtain ⟨hsemaphore, hdata, htaken⟩ := h.holds hhalted hrunning
      refine fun _ =>
        ⟨hsemaphore, fun hget => .inr ⟨mt convert_eq_success_iff.mp hcode, ?_, htaken⟩⟩
      show (finalParams call c.data).data = none
      rw [hdata]
      exact hclean.subscribe code effect call rfl hcode hrunning hget
  | take hrunning =>
      obtain ⟨-, hdata, htaken⟩ := h.holds hhalted hrunning
      exact fun _ => ⟨rfl, hdata, htaken⟩
  | request hrunning =>
      obtain ⟨hsemaphore, -, htaken⟩ := h.holds hhalted hrunning
      refine fun _ => ⟨fun _ => ⟨rfl, htaken⟩, fun havailable => ?_⟩
      cases hsemaphore.symm.trans havailable
  | @requestFails call code effect hrunning hcode =>
      obtain ⟨hopen, -⟩ := h.holds hhalted hrunning
      intro _ hsemaphore hget
      obtain ⟨hdata, htaken⟩ := hopen hsemaphore
      refine .inr ⟨mt convert_eq_success_iff.mp hcode, ?_, htaken⟩
      show (finalParams call c.data).data = none
      rw [hdata]
      exact hclean.request code effect call rfl hcode hrunning hsemaphore hget
  -- The answer that the callback has left is the one that the operation ends with.
  | collect hrunning hsemaphore =>
      obtain ⟨-, hsettled⟩ := h.holds hhalted hrunning
      exact fun _ _ => hsettled hsemaphore
  | @timeOut call hrunning hsemaphore =>
      obtain ⟨hopen, -⟩ := h.holds hhalted hrunning
      intro _ _ hget
      obtain ⟨hdata, htaken⟩ := hopen hsemaphore
      refine .inr ⟨by decide, ?_, htaken⟩
      show (finalParams call c.data).data = none
      rw [hdata]
      exact hclean.timeOut call rfl hrunning hget
  | give hrunning =>
      have hsettled := h.holds hhalted hrunning
      exact fun hfree => ⟨rfl, hsettled hfree⟩
  | finish hrunning =>
      obtain ⟨hsemaphore, -⟩ := h.holds hhalted hrunning
      exact fun _ => ⟨hsemaphore, rfl⟩
  | ignore => exact h.ignore
  | answer hdata hpasses htoken =>
      exact h.answer hhalted hdata fun call hrunning hget hstatus =>
        hclean.topic _ call rfl hrunning hget hpasses hstatus

/-! ## Every run -/

/-- What an event meets for a client it meets for the protocol. -/
theorem clean_end {h : CallHistory} (hclean : EndsClean h event) :
    CleanEnd (fun publish => (matchOperationInProgress publish h.system.client).isSome = true)
      h.call event := by
  constructor
  · rintro code effect call rfl hcode hcall hget
    obtain ⟨running, hrunning, rfl, hstage⟩ := CallHistory.running_of_call hcall
    exact hclean running hrunning hget hcode (.inl hstage)
  · rintro code effect call rfl hcode hcall hsemaphore hget
    obtain ⟨running, hrunning, rfl, hstage⟩ := CallHistory.running_of_call hcall
    exact hclean running hrunning hget hcode (.inr ⟨hstage, hsemaphore⟩)
  · rintro call rfl hcall hget
    obtain ⟨running, hrunning, rfl, -⟩ := CallHistory.running_of_call hcall
    exact hclean running hrunning hget
  · rintro publish call rfl hcall hget hpasses hstatus
    obtain ⟨running, hrunning, rfl, hstage⟩ := CallHistory.running_of_call hcall
    exact hclean running hrunning (phase_of_requested hstage) hget
      (TakenAs.passes ⟨hpasses, hstatus⟩)

/-- No message takes a buffer when there is no operation. -/
theorem takes_no_buffer {publish : MQTTPublishData} {client : ShadowClient}
    (h : client.operationData = none) : takesBuffer environment publish client = false := by
  unfold takesBuffer matchOperationInProgress
  rw [h]
  rfl

/-- A get is accounted for under the invariant. -/
theorem GetInvariant.accounted {h : CallHistory} (hinv : GetInvariant h.call) :
    GetsAccounted environment h := by
  intro hhalted
  constructor
  · intro running hrunning hphase hget
    obtain ⟨-, hsettled⟩ := hinv.holds hhalted (CallHistory.call_of_finish hrunning hphase)
    rcases hsettled hget with ⟨hsuccess, hholds⟩ | ⟨hfailure, hnothing⟩
    · exact ⟨⟨fun _ => hholds, fun _ => hsuccess⟩, fun hne => absurd hsuccess hne⟩
    · refine ⟨⟨fun hsuccess => absurd hsuccess hfailure, ?_⟩, fun _ => hnothing⟩
      rintro ⟨publish, -, -, htaken, -⟩
      have hempty : h.taken = [] := hnothing.2
      rw [hempty] at htaken
      cases htaken
  · intro hrunning publish
    have hidle : h.call.running = none := by
      unfold CallHistory.call
      rw [hrunning]
      rfl
    exact takes_no_buffer (hinv.idle hhalted hidle).2

/-- A step of a client keeps the invariant. -/
theorem get_invariant_step {h h' : CallHistory} (hinv : GetInvariant h.call)
    (hclean : EndsClean h event) (hstep : callStep environment h event = some h') :
    GetInvariant h'.call :=
  hinv.step (call_step hstep).2 (clean_end hclean) (call_step hstep).1

/-! ## Calls that have to wait -/

/-- What happens next, or a get that does not get the operation mutex in time. -/
inductive GetEvent where
  | event (event : Event)
  | refused (params : ShadowOperationParams)

/-- A history with the parameters of the gets that did not get the mutex. -/
structure GetHistory where
  history : CallHistory
  refused : List ShadowOperationParams

/-- What an event does, `none` if it cannot happen. `prvShadowOperation` does nothing without the
mutex, which only another operation can have. -/
def getStep (environment : Environment) (h : GetHistory) : GetEvent → Option GetHistory
  | .event event => (callStep environment h.history event).map fun history => { h with history }
  | .refused params =>
      if h.history.system.running.isSome then
        some { h with refused := h.refused ++ [params] }
      else none

/-- All gets are accounted for. -/
def AllGetsAccounted (environment : Environment) (h : GetHistory) : Prop :=
  GetsAccounted environment h.history ∧
    ∀ params ∈ h.refused, GetOutcome shadowFailure params.thingName.bytes params [] []

/-- Gets end clean, also those that have not begun. -/
def AllEndClean (h : GetHistory) : GetEvent → Prop
  | .event event => EndsClean h.history event
  | .refused params => params.data = none

instance (h : GetHistory) : (event : GetEvent) → Decidable (AllEndClean h event)
  | .event event => inferInstanceAs (Decidable (EndsClean h.history event))
  | .refused params => inferInstanceAs (Decidable (params.data = none))

theorem refused_outcome {params : ShadowOperationParams} (h : params.data = none) :
    GetOutcome shadowFailure params.thingName.bytes params [] [] := by
  refine ⟨⟨fun hsuccess => absurd hsuccess (by decide), ?_⟩, fun _ => ⟨h, rfl⟩⟩
  rintro ⟨publish, hmem, -⟩
  exact absurd hmem List.not_mem_nil

/-- A client as `SHADOW_ClientCreate` leaves it. -/
def GetHistory.created (callbackCatalog : List CallbackCatalogEntry) (topicBuffer : ByteMemory) :
    GetHistory :=
  ⟨.created callbackCatalog topicBuffer, []⟩

/-- A get on the Thing `T` with its answer, up to where it returns. -/
def acceptedGetEvents : List GetEvent :=
  (waitingGet ++ [.message (benchMessage (Operation.get.accepted (ascii "T"))), .proceed, .proceed,
    .proceed, succeeds, succeeds]).map .event

/-- A get on the Thing `T` without an answer, called with a document, up to where it returns. -/
def unansweredGetEvents : List GetEvent :=
  (waitingGet ++ [.timeOut, .proceed, .proceed, succeeds, succeeds]).map .event

end TivaAws.Shadow
