import TivaAws.Shadow.BlockingTime
import TivaAws.Shadow.Operation

/-!
# The course of an operation

The operations that stop in their calls, and the operations seen as the calls they block in, are two
views of `prvShadowOperation`. Whatever comes in between, an operation that has run to its end has
made the calls of one course, in the order of that course, and returns what the course does, so the
time that it may block is that of its course.
-/

namespace TivaAws.Shadow

open ByteMemory Labelled

/-! ## The calls of a running operation -/

/-- The call that an operation is in. -/
def Phase.blockingCall : Phase → Option BlockingCall
  | .subscribeAccepted => some .subscribeAccepted
  | .subscribeRejected => some .subscribeRejected
  | .undoAccepted => some .undoAccepted
  | .takeSemaphore => some .callbackSemaphore
  | .publishing => some .publish
  | .waiting => some .answer
  | .unsubscribeAccepted => some .unsubscribeAccepted
  | .unsubscribeRejected => some .unsubscribeRejected
  | .setFlag | .publish | .giveSemaphore | .cleanUp | .finish => none

/-- The call that ends with an event, if any. -/
def callEnded (running : Running) : Event → List BlockingCall
  | .proceed | .mqttReturns _ _ | .timeOut => running.phase.blockingCall.toList
  | .start _ _ | .message _ | .connect | .disconnect => []

/-- An event while an operation runs and goes on, with the call that it ends. -/
def blockingStep (environment : Environment) (s : ShadowSystem) (event : Event) :
    Option (ShadowSystem × List BlockingCall) :=
  s.running.bind fun running =>
    ((step environment s event).filter fun next => next.1.running.isSome).map fun next =>
      (next.1, callEnded running event)

/-- Runs of one operation. -/
def Blocks (environment : Environment) (s : ShadowSystem) (calls : List BlockingCall)
    (s' : ShadowSystem) : Prop :=
  ∃ event, blockingStep environment s event = some (s', calls)

/-! ## What is left of a course -/

/-- The calls without their ticks. -/
def callsOf (calls : List (BlockingCall × TickType)) : List BlockingCall :=
  calls.map Prod.fst

/-- The ticks that a call is given. -/
def ticksFor (timeoutTicks : TickType) : BlockingCall → TickType
  | .undoAccepted => cleanUpTicks
  | .unsubscribeAccepted | .unsubscribeRejected => configMax timeoutTicks cleanUpTicks
  | .operationMutex | .subscribeAccepted | .subscribeRejected | .callbackSemaphore | .publish
  | .answer => timeoutTicks

namespace OperationCourse

variable (course : OperationCourse)

/-- The calls of the clean-up. -/
def cleanUp : List BlockingCall := callsOf (cleanUpCalls course 0)

/-- What the operation returns once it has published. -/
def answered : ShadowReturnCode := course.answer.getD shadowTimeout

/-- From the publish on: what the operation returns, and its calls. -/
def fromPublish : ShadowReturnCode × List BlockingCall :=
  if course.publish = .success then (course.answered, .publish :: .answer :: course.cleanUp)
  else (prvConvertMQTTReturnCode course.publish, .publish :: course.cleanUp)

/-- From the callback semaphore on. -/
def fromSemaphore : ShadowReturnCode × List BlockingCall :=
  (course.fromPublish.1, .callbackSemaphore :: course.fromPublish.2)

/-- From the subscribe to the rejected topic on. -/
def fromRejected : ShadowReturnCode × List BlockingCall :=
  if course.subscribeRejected = .success then
    (course.fromSemaphore.1, .subscribeRejected :: course.fromSemaphore.2)
  else
    (prvConvertMQTTReturnCode course.subscribeRejected,
      .subscribeRejected :: .undoAccepted :: course.cleanUp)

/-- From the subscribe to the accepted topic on. -/
def fromAccepted : ShadowReturnCode × List BlockingCall :=
  if course.subscribeAccepted = .success then
    (course.fromRejected.1, .subscribeAccepted :: course.fromRejected.2)
  else
    (prvConvertMQTTReturnCode course.subscribeAccepted, .subscribeAccepted :: course.cleanUp)

/-- The phase behind the mutex. -/
def firstPhase : Phase :=
  if course.subscribed then .setFlag else .subscribeAccepted

/-- What an operation with a return code still does from a phase on. -/
def remaining (returnCode : ShadowReturnCode) : Phase → ShadowReturnCode × List BlockingCall
  | .subscribeAccepted => course.fromAccepted
  | .subscribeRejected => course.fromRejected
  | .undoAccepted => (returnCode, .undoAccepted :: course.cleanUp)
  | .setFlag | .takeSemaphore => course.fromSemaphore
  | .publish | .publishing => course.fromPublish
  | .waiting => (course.answered, .answer :: course.cleanUp)
  | .giveSemaphore | .cleanUp => (returnCode, course.cleanUp)
  | .unsubscribeAccepted => (returnCode, [.unsubscribeAccepted, .unsubscribeRejected])
  | .unsubscribeRejected => (returnCode, [.unsubscribeRejected])
  | .finish => (returnCode, [])

end OperationCourse

section Remaining

variable {course : OperationCourse} {ticks : TickType}

/-- The calls of the clean-up are the same for all ticks. -/
theorem clean_up_calls : callsOf (cleanUpCalls course ticks) = course.cleanUp := by
  unfold OperationCourse.cleanUp cleanUpCalls
  split_ifs <;> rfl

/-- The request and the clean-up are what is left from the semaphore on. -/
theorem request_remaining :
    ((requestCalls course ticks).1, callsOf (requestCalls course ticks).2 ++ course.cleanUp) =
      course.fromSemaphore := by
  unfold requestCalls OperationCourse.fromSemaphore OperationCourse.fromPublish
  simp only [convert_eq_success_iff]
  split_ifs with hpublish
  · rfl
  · rfl

/-- The subscribes come before what is left from the semaphore on, or before the clean-up. -/
theorem subscribe_remaining :
    course.fromAccepted =
      let subscribed := prvShadowSubscribeToAcceptedRejected course ticks
      if subscribed.1 = shadowSuccess then
        (course.fromSemaphore.1, callsOf subscribed.2 ++ course.fromSemaphore.2)
      else (subscribed.1, callsOf subscribed.2 ++ course.cleanUp) := by
  unfold prvShadowSubscribeToAcceptedRejected OperationCourse.fromAccepted
    OperationCourse.fromRejected
  by_cases haccepted : course.subscribeAccepted = .success
  · by_cases hrejected : course.subscribeRejected = .success
    · simp [convert_eq_success_iff, haccepted, hrejected, callsOf]
    · simp [convert_eq_success_iff, haccepted, hrejected, callsOf]
  · simp [convert_eq_success_iff, haccepted, callsOf]

/-- Behind the mutex, the operation does what is left from its first phase on. -/
theorem operation_remaining (hmutex : course.operationMutex = true) :
    ((prvShadowOperation course ticks).1, callsOf (prvShadowOperation course ticks).2) =
      ((course.remaining shadowSuccess course.firstPhase).1,
        .operationMutex :: (course.remaining shadowSuccess course.firstPhase).2) := by
  have hcleanUp := @clean_up_calls course ticks
  unfold prvShadowOperation OperationCourse.firstPhase
  rw [if_pos hmutex]
  cases hsubscribed : course.subscribed with
  | true =>
      rw [if_pos rfl, if_pos rfl]
      simp only [OperationCourse.remaining, ← @request_remaining course ticks, ← hcleanUp]
      simp [callsOf]
  | false =>
      rw [if_neg Bool.false_ne_true, if_neg Bool.false_ne_true]
      simp only [OperationCourse.remaining, @subscribe_remaining course ticks]
      split_ifs with hsubscribes
      · simp only [← @request_remaining course ticks, ← hcleanUp]
        simp [callsOf]
      · simp only [← hcleanUp]
        simp [callsOf]

/-- Each of the calls is given its ticks. -/
theorem operation_ticks : ∀ call ∈ (prvShadowOperation course ticks).2,
    call.2 = ticksFor ticks call.1 := by
  have hsubscribe : ∀ call ∈ (prvShadowSubscribeToAcceptedRejected course ticks).2,
      call.2 = ticksFor ticks call.1 := by
    unfold prvShadowSubscribeToAcceptedRejected
    simp only
    split_ifs <;> simp [ticksFor]
  have hrequest : ∀ call ∈ (requestCalls course ticks).2, call.2 = ticksFor ticks call.1 := by
    unfold requestCalls
    simp only
    split_ifs <;> simp [ticksFor]
  have hcleanUp : ∀ call ∈ cleanUpCalls course ticks, call.2 = ticksFor ticks call.1 := by
    unfold cleanUpCalls
    split_ifs <;> simp [ticksFor, prvShadowUnsubscribeFromAcceptedRejected]
  unfold prvShadowOperation
  simp only
  by_cases hmutex : course.operationMutex = true
  · rw [if_pos hmutex]
    intro call hmem
    simp only [List.mem_cons, List.mem_append] at hmem
    obtain rfl | (hmem | hmem) | hmem := hmem
    · rfl
    · split_ifs at hmem with hsubscribed
      · exact absurd hmem List.not_mem_nil
      · exact hsubscribe call hmem
    · split_ifs at hmem
      · exact hrequest call hmem
      · exact absurd hmem List.not_mem_nil
      · exact hrequest call hmem
      · exact absurd hmem List.not_mem_nil
    · exact hcleanUp call hmem
  · rw [if_neg hmutex]
    exact List.forall_mem_singleton.mpr rfl

/-- The operation is given by what is left from its first phase on. -/
theorem operation_of_remaining (hmutex : course.operationMutex = true)
    {returnCode : ShadowReturnCode} {calls : List BlockingCall}
    (hremaining : course.remaining shadowSuccess course.firstPhase = (returnCode, calls)) :
    prvShadowOperation course ticks =
      (returnCode, (.operationMutex :: calls).map fun call => (call, ticksFor ticks call)) := by
  have hleft := @operation_remaining course ticks hmutex
  rw [hremaining] at hleft
  obtain ⟨hcode, hcalls⟩ := Prod.mk.inj hleft
  refine Prod.ext hcode ?_
  calc (prvShadowOperation course ticks).2
      = (prvShadowOperation course ticks).2.map id := (List.map_id _).symm
    _ = (callsOf (prvShadowOperation course ticks).2).map
          fun call => (call, ticksFor ticks call) := by
        rw [callsOf, List.map_map]
        exact List.map_congr_left fun call hmem => Prod.ext rfl (operation_ticks call hmem)
    _ = (BlockingCall.operationMutex :: calls).map fun call => (call, ticksFor ticks call) := by
        rw [hcalls]

end Remaining

/-! ## One event -/

/-- An operation in a course has a return code and calls left. -/
structure OperationCourse.Leaves (course : OperationCourse) (running : Running)
    (left : ShadowReturnCode × List BlockingCall) : Prop where
  operation : course.operation = running.params.operation
  keepSubscriptions : course.keepSubscriptions = running.params.operationParams.keepSubscriptions
  remaining : course.remaining running.returnCode running.phase = left

section Event

variable {environment : Environment} {s s' : ShadowSystem} {labels : List ShadowOutput}
  {running running' : Running} {course : OperationCourse}
  {left : ShadowReturnCode × List BlockingCall}

/-- The clean-up makes the calls of a course in which a callback is registered if one is found. -/
theorem course_clean_up (hphase : running.phase = .cleanUp)
    (hrunning : (startCleanUp environment running s).1.running = some running')
    (hleaves : course.Leaves running' left) : ∃ earlier : OperationCourse,
    earlier.Leaves running left := by
  obtain ⟨hoperation, hkeep, rfl⟩ := hleaves
  unfold startCleanUp at hrunning
  by_cases hkeeps : running.params.operationParams.keepSubscriptions = true
  · rw [if_pos hkeeps] at hrunning
    cases hrunning
    refine ⟨course, hoperation, hkeep, ?_⟩
    rw [hphase]
    simp [OperationCourse.remaining, OperationCourse.cleanUp, cleanUpCalls, hkeep, hkeeps, callsOf]
  rw [if_neg hkeeps] at hrunning
  by_cases hdelete : running.params.operation = .delete
  · rw [if_pos hdelete] at hrunning
    simp only at hrunning
    -- The course is one in which the search finds what it finds here.
    split_ifs at hrunning with hfound
    · cases hrunning
      refine ⟨{ course with callbackRegistered := false }, hoperation, hkeep, ?_⟩
      rw [hphase]
      simp [OperationCourse.remaining, OperationCourse.cleanUp, cleanUpCalls, hoperation, hkeep,
        hkeeps, hdelete, callsOf, prvShadowUnsubscribeFromAcceptedRejected]
    · cases hrunning
      refine ⟨{ course with callbackRegistered := true }, hoperation, hkeep, ?_⟩
      rw [hphase]
      simp [OperationCourse.remaining, OperationCourse.cleanUp, cleanUpCalls, hoperation, hkeep,
        hkeeps, hdelete, callsOf]
  · rw [if_neg hdelete] at hrunning
    cases hrunning
    refine ⟨course, hoperation, hkeep, ?_⟩
    rw [hphase]
    simp [OperationCourse.remaining, OperationCourse.cleanUp, cleanUpCalls, hoperation, hkeep,
      hkeeps, hdelete, callsOf, prvShadowUnsubscribeFromAcceptedRejected]

theorem course_proceed (hproceeds : proceedOperation environment running s = some (s', labels))
    (hrunning : s'.running = some running') (hleaves : course.Leaves running' left) :
    ∃ earlier : OperationCourse,
      earlier.Leaves running (left.1, running.phase.blockingCall.toList ++ left.2) := by
  obtain ⟨hoperation, hkeep, rfl⟩ := hleaves
  cases proceed_cases hproceeds with
  | setFlag hphase | takeSemaphore hphase | publish hphase | giveSemaphore hphase =>
      cases hrunning
      exact ⟨course, hoperation, hkeep, by rw [hphase]; rfl⟩
  -- The answer that the operation has found, if the time is not up.
  | collect hphase =>
      cases hrunning
      exact ⟨{ course with answer := some s.client.operationResult }, hoperation, hkeep,
        by rw [hphase]; rfl⟩
  | cleanUp hphase =>
      rw [hphase]
      exact course_clean_up hphase hrunning ⟨hoperation, hkeep, rfl⟩
  | finish => cases hrunning

/-- What the MQTT call returns is what it returns in the course. -/
theorem course_return {code : MQTTAgentReturnCode}
    (hreturns : returnMQTT code running s = some (s', labels))
    (hrunning : s'.running = some running') (hleaves : course.Leaves running' left) :
    ∃ earlier : OperationCourse,
      earlier.Leaves running (left.1, running.phase.blockingCall.toList ++ left.2) := by
  obtain ⟨hoperation, hkeep, rfl⟩ := hleaves
  -- The course in front of a call is the one behind it with the result of this call. What it does
  -- then is the same on both sides, in both branches.
  cases return_cases hreturns with
  | acceptedSubscribed hphase hcode =>
      cases hrunning
      refine ⟨{ course with subscribeAccepted := code }, hoperation, hkeep, ?_⟩
      rw [hphase]
      exact if_pos hcode
  | acceptedFails hphase hcode =>
      cases hrunning
      refine ⟨{ course with subscribeAccepted := code }, hoperation, hkeep, ?_⟩
      rw [hphase]
      exact if_neg hcode
  | rejectedSubscribed hphase hcode =>
      cases hrunning
      refine ⟨{ course with subscribeRejected := code }, hoperation, hkeep, ?_⟩
      rw [hphase]
      exact if_pos hcode
  | rejectedFails hphase hcode =>
      cases hrunning
      refine ⟨{ course with subscribeRejected := code }, hoperation, hkeep, ?_⟩
      rw [hphase]
      exact if_neg hcode
  | published hphase hcode =>
      cases hrunning
      refine ⟨{ course with publish := code }, hoperation, hkeep, ?_⟩
      rw [hphase]
      exact if_pos hcode
  | publishFails hphase hcode =>
      cases hrunning
      refine ⟨{ course with publish := code }, hoperation, hkeep, ?_⟩
      rw [hphase]
      exact if_neg hcode
  | undone hphase | acceptedUnsubscribed hphase | rejectedUnsubscribed hphase
  | rejectedStays hphase =>
      cases hrunning
      exact ⟨course, hoperation, hkeep, by rw [hphase]; rfl⟩

/-- An operation that waits for its answer in vain does so in the course. -/
theorem course_time_out (hphase : running.phase = .waiting)
    (hleaves : course.Leaves
      { running with phase := .giveSemaphore, returnCode := shadowTimeout } left) :
    ∃ earlier : OperationCourse,
      earlier.Leaves running (left.1, running.phase.blockingCall.toList ++ left.2) := by
  obtain ⟨hoperation, hkeep, rfl⟩ := hleaves
  refine ⟨{ course with answer := none }, hoperation, hkeep, ?_⟩
  rw [hphase]
  rfl

/-- An event while an operation runs is one in a course of the operation. -/
theorem course_step {event : Event} (hrunning : s.running = some running)
    (hstep : step environment s event = some (s', labels))
    (hrunning' : s'.running = some running') (hleaves : course.Leaves running' left) :
    ∃ earlier : OperationCourse,
      earlier.Leaves running (left.1, callEnded running event ++ left.2) := by
  obtain ⟨-, hstep⟩ := step_cases hstep
  cases event with
  | start operation params => cases hrunning.symm.trans hstep.1
  | proceed =>
      obtain ⟨_, hsame, hproceeds⟩ := hstep
      cases hrunning.symm.trans hsame
      exact course_proceed hproceeds hrunning' hleaves
  | mqttReturns code effect =>
      obtain ⟨-, -, _, hsame, hreturns⟩ := hstep
      cases hrunning.symm.trans hsame
      exact course_return hreturns hrunning' hleaves
  | timeOut =>
      obtain ⟨_, hsame, hphase, -, rfl, -⟩ := hstep
      cases hrunning.symm.trans hsame
      cases hrunning'
      exact course_time_out hphase hleaves
  | message publish =>
      obtain ⟨-, rfl, -⟩ := hstep
      cases hrunning.symm.trans hrunning'
      exact ⟨course, hleaves⟩
  | connect =>
      obtain ⟨-, rfl, -⟩ := hstep
      cases hrunning.symm.trans hrunning'
      exact ⟨course, hleaves⟩
  | disconnect =>
      obtain ⟨-, rfl, -⟩ := hstep
      cases hrunning.symm.trans hrunning'
      exact ⟨course, hleaves⟩

end Event

/-! ## Whole operations -/

/-- A run of an operation, up to a phase in which it has something left, is one in a course. -/
theorem course_run {environment : Environment} {s s' : ShadowSystem} {calls : List BlockingCall}
    (hrun : Steps (Blocks environment) s calls s') {running running' : Running}
    (hrunning : s.running = some running) (hrunning' : s'.running = some running')
    {course : OperationCourse} {left : ShadowReturnCode × List BlockingCall}
    (hleaves : course.Leaves running' left) :
    ∃ earlier : OperationCourse, earlier.Leaves running (left.1, calls ++ left.2) := by
  induction hrun generalizing running with
  | refl =>
      cases hrunning.symm.trans hrunning'
      exact ⟨course, hleaves⟩
  | cons hfirst _ ih =>
      obtain ⟨event, hevent⟩ := hfirst
      obtain ⟨_, hsame, hnext⟩ := Option.bind_eq_some_iff.mp hevent
      cases hrunning.symm.trans hsame
      obtain ⟨⟨middle, labels⟩, hfiltered, hmiddle⟩ := Option.map_eq_some_iff.mp hnext
      cases hmiddle
      obtain ⟨hstep, hgoes⟩ := Option.filter_eq_some_iff.mp hfiltered
      obtain ⟨next, hnext⟩ := Option.isSome_iff_exists.mp hgoes
      obtain ⟨later, hlater⟩ := ih hnext hrunning'
      rw [List.append_assoc]
      exact course_step hrunning hstep hnext hlater

/-- An operation that has run to its end has made the calls of a course, in their order, and returns
what the course does. -/
theorem operation_in_course {environment : Environment} {s begun ended : ShadowSystem}
    {operation : Operation} {params : ShadowOperationParams} {labels : List ShadowOutput}
    {calls : List BlockingCall} {running : Running}
    (hstart : step environment s (.start operation params) = some (begun, labels))
    (hrun : Steps (Blocks environment) begun calls ended)
    (hrunning : ended.running = some running) (hfinish : running.phase = .finish) :
    ∃ course : OperationCourse, course.operation = operation ∧
      course.keepSubscriptions = params.keepSubscriptions ∧ course.operationMutex = true ∧
      course.subscribed = prvGetSubscribedFlag operation.toName s.client ∧
      ∀ timeoutTicks, prvShadowOperation course timeoutTicks =
        (running.returnCode,
          (.operationMutex :: calls).map fun call => (call, ticksFor timeoutTicks call)) := by
  have hends : OperationCourse.Leaves
      { operation := running.params.operation
        keepSubscriptions := running.params.operationParams.keepSubscriptions
        operationMutex := true
        subscribed := false
        subscribeAccepted := .success
        subscribeRejected := .success
        publish := .success
        answer := none
        callbackRegistered := false } running (running.returnCode, []) :=
    ⟨rfl, rfl, by rw [hfinish]; rfl⟩
  obtain ⟨-, -, -, -, hbegins⟩ := step_cases hstart
  unfold startOperation at hbegins
  split_ifs at hbegins with hflag
  · cases hbegins
    obtain ⟨course, hoperation, hkeep, hremaining⟩ := course_run hrun rfl hrunning hends
    rw [List.append_nil] at hremaining
    exact ⟨{ course with operationMutex := true, subscribed := false }, hoperation, hkeep, rfl,
      hflag.symm, fun timeoutTicks => operation_of_remaining rfl hremaining⟩
  · cases hbegins
    obtain ⟨course, hoperation, hkeep, hremaining⟩ := course_run hrun rfl hrunning hends
    rw [List.append_nil] at hremaining
    exact ⟨{ course with operationMutex := true, subscribed := true }, hoperation, hkeep, rfl,
      (Bool.eq_true_of_not_eq_false hflag).symm,
      fun timeoutTicks => operation_of_remaining rfl hremaining⟩

/-- A connected client without registered callbacks. -/
def connectedClient : ShadowSystem := { benchClient with connected := true }

/-- A get of the Thing from its first MQTT call to its end: it is accepted and cleans up, and the
connection is lost before the last call returns. -/
def wholeGet : List Event :=
  [succeeds, succeeds, .proceed, .proceed, .proceed, succeeds,
    .message (benchMessage (Operation.get.accepted [84])), .proceed, .proceed, .proceed, succeeds,
    .disconnect, .mqttReturns .failure false]

theorem operation_in_course_get :
    ∃ begun ended running,
      (∃ labels, step benchEnvironment connectedClient
        (.start .get (benchParams 84 bench_thing_ne_zero false)) = some (begun, labels)) ∧
      Steps (Blocks benchEnvironment) begun
        [.subscribeAccepted, .subscribeRejected, .callbackSemaphore, .publish, .answer,
          .unsubscribeAccepted, .unsubscribeRejected] ended ∧
      ended.running = some running ∧ running.returnCode = shadowSuccess ∧
      ∃ course : OperationCourse, course.operation = .get ∧ course.keepSubscriptions = false ∧
        course.operationMutex = true ∧ course.subscribed = false ∧
        ∀ timeoutTicks, prvShadowOperation course timeoutTicks =
          (running.returnCode,
            [.operationMutex, .subscribeAccepted, .subscribeRejected, .callbackSemaphore, .publish,
              .answer, .unsubscribeAccepted, .unsubscribeRejected].map
              fun call => (call, ticksFor timeoutTicks call)) := by
  have hrun : ((step benchEnvironment connectedClient
        (.start .get (benchParams 84 bench_thing_ne_zero false))).any fun begun =>
      (replay (blockingStep benchEnvironment) wholeGet begun.1).any fun last =>
        decide (last.2 = [.subscribeAccepted, .subscribeRejected, .callbackSemaphore, .publish,
          .answer, .unsubscribeAccepted, .unsubscribeRejected]) &&
        last.1.running.any fun running =>
          decide (running.phase = .finish ∧ running.returnCode = shadowSuccess)) = true := by
    decide +kernel
  obtain ⟨⟨begun, labels⟩, hbegun, hends⟩ := (Option.any_eq_true _ _).mp hrun
  obtain ⟨⟨ended, calls⟩, hlast, hcheck⟩ := (Option.any_eq_true _ _).mp hends
  obtain ⟨hcalls, hfinish⟩ := Bool.and_eq_true_iff.mp hcheck
  obtain ⟨running, hrunning, hfinish⟩ := (Option.any_eq_true _ _).mp hfinish
  obtain ⟨hphase, hcode⟩ := of_decide_eq_true hfinish
  have hsame : calls = _ := of_decide_eq_true hcalls
  subst hsame
  have hsteps := steps_of_replay hlast
  exact ⟨begun, ended, running, ⟨labels, hbegun⟩, hsteps, hrunning, hcode,
    operation_in_course hbegun hsteps hrunning hphase⟩

end TivaAws.Shadow
