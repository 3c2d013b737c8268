import TivaAws.Shadow.Operation

/-!
# The callback semaphore

A Shadow operation takes the callback semaphore before its request, takes it a second time to wait
for the answer, and gives it back. The callback gives it for every answer. `Handshake` is that
protocol alone, and every step of a client is a step of it. The gives succeed if at most one answer
comes to a request, while the operation is still waiting for it or the request is still being
published, and the request does not fail then. The callback checks none of this: a second answer, or
one that comes too late, halts the device.
-/

namespace TivaAws.Shadow

open Labelled

/-! ## The protocol -/

/-- Who has the semaphore: nobody, the operation, or whoever comes first. -/
inductive Stage where
  | free
  | taken
  | shared
  deriving DecidableEq, Repr

/-- The stage and whether the semaphore is available. -/
structure Handshake where
  stage : Stage
  available : Bool

/-- An output that has nothing to do with the semaphore. -/
def ShadowOutput.IsQuiet : ShadowOutput → Prop
  | .subscribe _ | .unsubscribe _ | .notify _ _ | .finished _ _ => True
  | _ => False

/-- The steps of the protocol. -/
inductive HandshakeStep : Handshake → List ShadowOutput → Handshake → Prop where
  | quiet {h labels} : (∀ output ∈ labels, output.IsQuiet) → HandshakeStep h labels h
  | take {available} :
      HandshakeStep ⟨.free, available⟩ [.take available] ⟨.taken, false⟩
  | request {available topic message} :
      HandshakeStep ⟨.taken, available⟩ [.request topic message] ⟨.shared, available⟩
  | requestFailed {available} :
      HandshakeStep ⟨.shared, available⟩ [.requestFailed] ⟨.taken, available⟩
  | collect : HandshakeStep ⟨.shared, true⟩ [.take true] ⟨.taken, false⟩
  | timeOut : HandshakeStep ⟨.shared, false⟩ [.timedOut] ⟨.taken, false⟩
  | give {available} : HandshakeStep ⟨.taken, available⟩ [.give !available] ⟨.free, true⟩
  | answer {stage available result} :
      HandshakeStep ⟨stage, available⟩ [.answer result, .give !available] ⟨stage, true⟩

theorem HandshakeStep.silent {h : Handshake} : HandshakeStep h [] h :=
  .quiet fun _ hmem => absurd hmem List.not_mem_nil

/-! ## Answers in time -/

/-- What has become of the last request. -/
inductive Awaited where
  | nothing
  | answer
  | answered
  deriving DecidableEq, Repr

/-- What is awaited after an output. -/
def await (awaited : Awaited) : ShadowOutput → Awaited
  | .request _ _ => .answer
  | .answer _ => if awaited = .answer then .answered else awaited
  | .requestFailed | .timedOut | .take _ => .nothing
  | _ => awaited

/-- A message is taken for an answer only when an answer is awaited, and a request that has been
answered does not fail. -/
def InTime (awaited : Awaited) : ShadowOutput → Prop
  | .answer _ => awaited = .answer
  | .requestFailed => awaited ≠ .answered
  | _ => True

instance (awaited : Awaited) : (output : ShadowOutput) → Decidable (InTime awaited output)
  | .answer _ => inferInstanceAs (Decidable (awaited = .answer))
  | .requestFailed => inferInstanceAs (Decidable (awaited ≠ .answered))
  | .subscribe _ | .unsubscribe _ | .request _ _ | .take _ | .timedOut | .give _ | .notify _ _
  | .finished _ _ => isTrue trivial

/-- An assertion on the semaphore holds. -/
def Passes (_ : Awaited) : ShadowOutput → Prop
  | .give passed | .take passed => passed = true
  | _ => True

/-- The semaphore is available when nobody has it, and when the answer is there. -/
def Handshake.Tracks (h : Handshake) (awaited : Awaited) : Prop :=
  match h.stage with
  | .free => h.available = true ∧ awaited = .nothing
  | .taken => h.available = false ∧ awaited = .nothing
  | .shared => h.available = false ∧ awaited = .answer ∨ h.available = true ∧ awaited = .answered

/-- A quiet output changes nothing. -/
theorem quiet_passes {labels : List ShadowOutput} {awaited : Awaited}
    (h : ∀ output ∈ labels, output.IsQuiet) :
    Guarded await Passes awaited labels ∧ labels.foldl await awaited = awaited := by
  induction labels with
  | nil => exact ⟨trivial, rfl⟩
  | cons output rest ih =>
      obtain ⟨hguarded, hfold⟩ := ih fun other hmem => h other (List.mem_cons_of_mem _ hmem)
      have hquiet := h output List.mem_cons_self
      have hsame : await awaited output = awaited ∧ Passes awaited output := by
        cases output <;> first | exact ⟨rfl, trivial⟩ | exact absurd hquiet id
      refine ⟨⟨hsame.2, ?_⟩, ?_⟩
      · rw [hsame.1]
        exact hguarded
      · rw [List.foldl_cons, hsame.1]
        exact hfold

/-- A step of the protocol with answers in time passes its assertions. -/
theorem HandshakeStep.passes {h h' : Handshake} {labels : List ShadowOutput} {awaited : Awaited}
    (hstep : HandshakeStep h labels h') (hintime : Guarded await InTime awaited labels)
    (htracks : h.Tracks awaited) :
    Guarded await Passes awaited labels ∧ h'.Tracks (labels.foldl await awaited) := by
  cases hstep with
  | quiet hquiet =>
      obtain ⟨hguarded, hfold⟩ := @quiet_passes _ awaited hquiet
      rw [hfold]
      exact ⟨hguarded, htracks⟩
  | take =>
      obtain ⟨havailable, -⟩ := htracks
      exact ⟨⟨havailable, trivial⟩, rfl, rfl⟩
  | request =>
      obtain ⟨havailable, -⟩ := htracks
      exact ⟨⟨trivial, trivial⟩, .inl ⟨havailable, rfl⟩⟩
  | requestFailed =>
      rcases htracks with ⟨havailable, -⟩ | ⟨-, hanswered⟩
      · exact ⟨⟨trivial, trivial⟩, havailable, rfl⟩
      · exact absurd hanswered hintime.1
  | collect => exact ⟨⟨rfl, trivial⟩, rfl, rfl⟩
  | timeOut => exact ⟨⟨trivial, trivial⟩, rfl, rfl⟩
  | @give available =>
      have havailable : available = false := htracks.1
      subst havailable
      exact ⟨⟨rfl, trivial⟩, rfl, htracks.2⟩
  | @answer stage available result =>
      have hawaited : awaited = .answer := hintime.1
      subst hawaited
      cases stage with
      | free => exact absurd htracks.2 (by decide)
      | taken => exact absurd htracks.2 (by decide)
      | shared =>
          rcases htracks with ⟨havailable, -⟩ | ⟨-, hanswered⟩
          · have havailable : available = false := havailable
            subst havailable
            exact ⟨⟨trivial, rfl, trivial⟩, .inr ⟨rfl, rfl⟩⟩
          · cases hanswered

/-! ## The client follows the protocol -/

/-- The stage of the protocol in a phase of the operation. -/
def Phase.stage : Phase → Stage
  | .publish | .giveSemaphore => .taken
  | .publishing | .waiting => .shared
  | _ => .free

/-- The protocol's view of a client. -/
def ShadowSystem.handshake (s : ShadowSystem) : Handshake where
  stage := match s.running with
    | some running => running.phase.stage
    | none => .free
  available := s.client.callbackSemaphore

variable {environment : Environment} {s s' : ShadowSystem} {labels : List ShadowOutput}
  {running : Running}

@[simp] theorem set_flag_semaphore (operation : ShadowOperationName) (value : Bool)
    (client : ShadowClient) : (prvSetSubscribedFlag operation value client).callbackSemaphore =
      client.callbackSemaphore := by
  cases operation <;> rfl

/-- A message is quiet or an answer. -/
theorem message_handshake (environment : Environment) (publish : MQTTPublishData)
    (client : ShadowClient) (stage : Stage) :
    HandshakeStep ⟨stage, client.callbackSemaphore⟩
      (shadowMQTTCallbackPublish environment publish client).2.2
      ⟨stage, (shadowMQTTCallbackPublish environment publish client).2.1.callbackSemaphore⟩ := by
  unfold shadowMQTTCallbackPublish
  cases matchOperationInProgress publish client with
  | none =>
      simp only [notifyUser]
      split <;> exact .quiet (by simp [ShadowOutput.IsQuiet])
  | some data =>
      simp only [answerOperation]
      split
      · unfold prvShadowUpdateCallback
        cases clientTokenMatches environment data.operationParams publish with
        | false => exact .silent
        | true => exact .answer
      · exact .answer
      · exact .answer
      · exact .silent

/-- A call of the MQTT agent to subscribe or unsubscribe is quiet. -/
theorem subscribe_handshake (phase : Phase) (topicFormat : List UInt8) (running : Running)
    (s : ShadowSystem) :
    (∀ output ∈ (callSubscribe phase topicFormat running s).2, output.IsQuiet) ∧
      (callSubscribe phase topicFormat running s).1.handshake =
        ⟨phase.stage, s.client.callbackSemaphore⟩ :=
  ⟨by simp [callSubscribe, callWithTopic, ShadowOutput.IsQuiet], rfl⟩

theorem unsubscribe_handshake (phase : Phase) (topicFormat : List UInt8) (running : Running)
    (s : ShadowSystem) :
    (∀ output ∈ (callUnsubscribe phase topicFormat running s).2, output.IsQuiet) ∧
      (callUnsubscribe phase topicFormat running s).1.handshake =
        ⟨phase.stage, s.client.callbackSemaphore⟩ :=
  ⟨by simp [callUnsubscribe, callWithTopic, ShadowOutput.IsQuiet], rfl⟩

/-- Starting the clean-up is quiet. -/
theorem clean_up_handshake (environment : Environment) (running : Running) (s : ShadowSystem) :
    HandshakeStep ⟨.free, s.client.callbackSemaphore⟩ (startCleanUp environment running s).2
      (startCleanUp environment running s).1.handshake := by
  unfold startCleanUp
  simp only
  split_ifs
  · exact .silent
  · exact .quiet (unsubscribe_handshake _ _ _ _).1
  · exact .silent
  · exact .quiet (unsubscribe_handshake _ _ _ _).1

/-- What the operation does next by itself. -/
theorem proceed_handshake (hrunning : s.running = some running)
    (h : proceedOperation environment running s = some (s', labels)) :
    HandshakeStep s.handshake labels s'.handshake := by
  have hbefore : s.handshake = ⟨running.phase.stage, s.client.callbackSemaphore⟩ := by
    unfold ShadowSystem.handshake
    rw [hrunning]
  rw [hbefore]
  cases proceed_cases h with
  | setFlag hphase =>
      rw [hphase]
      show HandshakeStep _ [] ⟨.free, (prvSetSubscribedFlag _ _ _).callbackSemaphore⟩
      rw [set_flag_semaphore]
      exact .silent
  | takeSemaphore hphase =>
      rw [hphase]
      exact .take
  | publish hphase =>
      rw [hphase]
      exact .request
  | collect hphase havailable =>
      rw [hphase, havailable]
      exact .collect
  | giveSemaphore hphase =>
      rw [hphase]
      exact .give
  | cleanUp hphase =>
      rw [hphase]
      exact clean_up_handshake environment running s
  | finish hphase =>
      rw [hphase]
      exact .quiet (by simp [finishOperation, ShadowOutput.IsQuiet])

/-- An MQTT call returns. -/
theorem return_handshake {code : MQTTAgentReturnCode} (hrunning : s.running = some running)
    (h : returnMQTT code running s = some (s', labels)) :
    HandshakeStep s.handshake labels s'.handshake := by
  have hbefore : s.handshake = ⟨running.phase.stage, s.client.callbackSemaphore⟩ := by
    unfold ShadowSystem.handshake
    rw [hrunning]
  rw [hbefore]
  cases return_cases h with
  | acceptedSubscribed hphase =>
      rw [hphase]
      exact .quiet (subscribe_handshake _ _ _ _).1
  | rejectedFails hphase | acceptedUnsubscribed hphase =>
      rw [hphase]
      exact .quiet (unsubscribe_handshake _ _ _ _).1
  | acceptedFails hphase | rejectedSubscribed hphase | undone hphase | published hphase
  | rejectedStays hphase =>
      rw [hphase]
      exact .silent
  | publishFails hphase =>
      rw [hphase]
      exact .requestFailed
  | rejectedUnsubscribed hphase =>
      rw [hphase]
      show HandshakeStep _ [] ⟨.free, (prvSetSubscribedFlag _ _ _).callbackSemaphore⟩
      rw [set_flag_semaphore]
      exact .silent

/-- Starting an operation is quiet. -/
theorem start_handshake (operation : Operation) (params : ShadowOperationParams)
    (s : ShadowSystem) :
    HandshakeStep ⟨.free, s.client.callbackSemaphore⟩ (startOperation operation params s).2
      (startOperation operation params s).1.handshake := by
  unfold startOperation
  simp only
  split_ifs
  · exact .quiet (subscribe_handshake _ _ _ _).1
  · exact .silent

/-- Every step of a client is a step of the protocol. -/
theorem Executes.handshake (h : Executes environment s labels s') :
    HandshakeStep s.handshake labels s'.handshake := by
  obtain ⟨event, hstep⟩ := h
  obtain ⟨-, hcases⟩ := step_cases hstep
  cases event with
  | start operation params =>
      obtain ⟨hrunning, -, -, hbegins⟩ := hcases
      have hbefore : s.handshake = ⟨.free, s.client.callbackSemaphore⟩ := by
        unfold ShadowSystem.handshake
        rw [hrunning]
      have hstart := start_handshake operation params s
      rw [hbegins] at hstart
      rw [hbefore]
      exact hstart
  | proceed =>
      obtain ⟨running, hrunning, hproceed⟩ := hcases
      exact proceed_handshake hrunning hproceed
  | mqttReturns code effect =>
      obtain ⟨-, -, running, hrunning, hreturn⟩ := hcases
      -- What a call does at the broker is not part of the protocol.
      have hsame : s.handshake = ShadowSystem.handshake
          (if effect then { s with subscriptions := brokerEffect running s.subscriptions }
            else s) := by
        cases effect <;> rfl
      rw [hsame]
      exact return_handshake (by cases effect <;> exact hrunning) hreturn
  | timeOut =>
      obtain ⟨running, hrunning, hwaiting, hsemaphore, rfl, rfl⟩ := hcases
      have hbefore : s.handshake = ⟨.shared, false⟩ := by
        unfold ShadowSystem.handshake
        rw [hrunning, hsemaphore]
        simp only [hwaiting]
        rfl
      rw [hbefore]
      show HandshakeStep _ [.timedOut] ⟨.taken, s.client.callbackSemaphore⟩
      rw [hsemaphore]
      exact .timeOut
  | message publish =>
      obtain ⟨-, rfl, rfl⟩ := hcases
      exact message_handshake environment publish s.client _
  | connect =>
      obtain ⟨-, rfl, rfl⟩ := hcases
      exact .silent
  | disconnect =>
      obtain ⟨-, rfl, rfl⟩ := hcases
      exact .silent

/-! ## Every run -/

/-- In every run of a client in which answers come in time, every asserted take and give of the
callback semaphore succeeds. -/
theorem callback_semaphore_given (environment : Environment)
    (callbackCatalog : List CallbackCatalogEntry) (topicBuffer : ByteMemory)
    {labels : List ShadowOutput} {s : ShadowSystem}
    (h : Steps (Executes environment) (createdClient callbackCatalog topicBuffer) labels s)
    (hintime : Guarded await InTime .nothing labels) (passed : Bool)
    (hmem : .give passed ∈ labels ∨ .take passed ∈ labels) : passed = true := by
  obtain ⟨hpasses, -⟩ := Steps.preserves_guarded
    (fun (s : ShadowSystem) awaited => s.handshake.Tracks awaited)
    (fun htracks hguard hexecutes => hexecutes.handshake.passes hguard htracks) h hintime
    ⟨rfl, rfl⟩
  have hall := guarded_mem hpasses
  rcases hmem with hmem | hmem
  · obtain ⟨_, hpassed⟩ := hall _ hmem
    exact hpassed
  · obtain ⟨_, hpassed⟩ := hall _ hmem
    exact hpassed

/-- The answer to a get on the Thing `T`. -/
def acceptedGet : MQTTPublishData := benchMessage (ascii "$aws/things/T/shadow/get/accepted")

/-- A get with one answer, up to the end of its clean-up. -/
def answeredGet : List Event :=
  waitingGet ++ [.message acceptedGet, .proceed, .proceed, .proceed, succeeds, succeeds, .proceed]

theorem callback_semaphore_given_answered :
    ∃ labels s, Steps (Executes benchEnvironment) benchClient labels s ∧ s.running.isNone ∧
      ∀ passed, .give passed ∈ labels ∨ .take passed ∈ labels → passed = true := by
  have hrun : ((replay (step benchEnvironment) answeredGet benchClient).any fun last =>
      last.1.running.isNone && decide (Guarded await InTime .nothing last.2)) = true := by
    decide +kernel
  obtain ⟨⟨s, labels⟩, hlast, hcheck⟩ := (Option.any_eq_true _ _).mp hrun
  obtain ⟨hidle, hintime⟩ := Bool.and_eq_true_iff.mp hcheck
  have hsteps := steps_of_replay hlast
  exact ⟨labels, s, hsteps, hidle, callback_semaphore_given benchEnvironment [] (fun _ => 0) hsteps
    (of_decide_eq_true hintime)⟩

/-- The second of two answers in a row halts the device. -/
theorem second_answer_halts :
    ∃ labels s, Steps (Executes benchEnvironment) benchClient labels s ∧ s.halted = true ∧
      .give false ∈ labels := by
  have hrun : ((replay (step benchEnvironment)
      (waitingGet ++ [.message acceptedGet, .message acceptedGet]) benchClient).any fun last =>
      last.1.halted && last.2.any ShadowOutput.failedGive) = true := by
    decide +kernel
  obtain ⟨⟨s, labels⟩, hlast, hcheck⟩ := (Option.any_eq_true _ _).mp hrun
  obtain ⟨hhalted, hfailed⟩ := Bool.and_eq_true_iff.mp hcheck
  obtain ⟨output, hmem, hgive⟩ := List.any_eq_true.mp hfailed
  refine ⟨labels, s, steps_of_replay hlast, hhalted, ?_⟩
  cases output with
  | give passed =>
      cases passed with
      | false => exact hmem
      | true => cases hgive
  | _ => cases hgive

end TivaAws.Shadow
