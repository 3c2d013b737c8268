import TivaAws.Shadow.Operation

/-!
# Subscriptions when a request is published

A client decides by three flags whether it has to subscribe to the answers of an operation, but the
subscriptions are those of one Thing, and the flag stays when a clean-up has removed only one of
them. The flags say enough if an operation that finds its flag set is for the Thing of the operation
of its kind before, no clean-up fails after it has removed a subscription, and the connection does
not change while an operation is on its way to its request.
-/

namespace TivaAws.Shadow

open ByteMemory Labelled

/-! ## Histories -/

/-- A client and the name of the last Thing of each operation. -/
structure History where
  system : ShadowSystem
  last : Operation → Option (List UInt8)

/-- The subscribed flag of an operation. -/
def ShadowSystem.flag (s : ShadowSystem) (operation : Operation) : Bool :=
  prvGetSubscribedFlag operation.toName s.client

/-- The client is subscribed to both answers of an operation on a Thing. -/
def ShadowSystem.SubscribedTo (s : ShadowSystem) (operation : Operation) (name : List UInt8) :
    Prop :=
  operation.accepted name ∈ s.subscriptions ∧ operation.rejected name ∈ s.subscriptions

instance (s : ShadowSystem) (operation : Operation) (name : List UInt8) :
    Decidable (s.SubscribedTo operation name) :=
  inferInstanceAs (Decidable (_ ∧ _))

/-- Events under which the flags keep their meaning. -/
def Orderly (h : History) : Event → Prop
  | .start operation params =>
      operation.Fits params.thingName.bytes ∧
        (h.system.flag operation = true → h.last operation = some params.thingName.bytes)
  | .mqttReturns code effect =>
      ∀ running ∈ h.system.running, running.phase = .unsubscribeRejected →
        code ≠ .success → h.system.flag running.params.operation = true →
        effect = false ∧
          running.params.operation.accepted running.params.operationParams.thingName.bytes ∈
            h.system.subscriptions
  | .connect =>
      ∀ running ∈ h.system.running,
        running.phase ∉ [.subscribeRejected, .takeSemaphore, .publish, .publishing]
  | .disconnect =>
      ∀ running ∈ h.system.running, running.phase ≠ .setFlag
  | _ => True

instance (h : History) : (event : Event) → Decidable (Orderly h event)
  | .start operation params => inferInstanceAs (Decidable (operation.Fits params.thingName.bytes ∧
      (h.system.flag operation = true → h.last operation = some params.thingName.bytes)))
  | .mqttReturns code effect => inferInstanceAs (Decidable
      (∀ running ∈ h.system.running, running.phase = .unsubscribeRejected →
        code ≠ .success → h.system.flag running.params.operation = true →
        effect = false ∧
          running.params.operation.accepted running.params.operationParams.thingName.bytes ∈
            h.system.subscriptions))
  | .connect => inferInstanceAs (Decidable (∀ running ∈ h.system.running,
      running.phase ∉ [.subscribeRejected, .takeSemaphore, .publish, .publishing]))
  | .disconnect =>
      inferInstanceAs (Decidable (∀ running ∈ h.system.running, running.phase ≠ .setFlag))
  | .proceed | .timeOut | .message _ => isTrue trivial

/-- Remember the Thing of an operation. -/
def remember (last : Operation → Option (List UInt8)) : Event → Operation → Option (List UInt8)
  | .start operation params => fun other =>
      if other = operation then some params.thingName.bytes else last other
  | _ => last

/-- What an orderly event does to a history, `none` if it cannot happen. -/
def orderlyStep (environment : Environment) (h : History) (event : Event) :
    Option (History × List ShadowOutput) :=
  if Orderly h event then
    (step environment h.system event).map fun (system, outputs) =>
      (⟨system, remember h.last event⟩, outputs)
  else none

/-- Orderly runs of a client. -/
def OrderlyExecutes (environment : Environment) (h : History) (labels : List ShadowOutput)
    (h' : History) : Prop :=
  ∃ event, orderlyStep environment h event = some (h', labels)

/-! ## The invariant -/

/-- A flag that is set means that the client is subscribed to both answers of the last operation. -/
def Kept (h : History) (operation : Operation) : Prop :=
  h.system.flag operation = true → h.system.connected = true ∧
    ∃ name, h.last operation = some name ∧ h.system.SubscribedTo operation name

/-- What holds in the phases of an operation on a Thing. -/
def PhaseHolds (s : ShadowSystem) (operation : Operation) (name topic : List UInt8) :
    Phase → Prop
  | .subscribeAccepted =>
      topic = operation.accepted name ∧ s.flag operation = false
  | .subscribeRejected =>
      topic = operation.rejected name ∧ s.flag operation = false ∧
        (s.connected = true → operation.accepted name ∈ s.subscriptions)
  | .undoAccepted => topic = operation.accepted name ∧ s.flag operation = false
  | .setFlag => s.connected = true ∧ s.SubscribedTo operation name
  | .takeSemaphore | .publish | .publishing => s.connected = true → s.SubscribedTo operation name
  | .unsubscribeAccepted => topic = operation.accepted name
  | .unsubscribeRejected =>
      topic = operation.rejected name ∧
        (s.flag operation = true →
          s.connected = true ∧ operation.rejected name ∈ s.subscriptions)
  | _ => True

/-- The Thing of an operation. -/
def Running.thing (running : Running) : List UInt8 :=
  running.params.operationParams.thingName.bytes

/-- An operation that has been started as the last one of its kind. -/
structure Underway (last : Operation → Option (List UInt8)) (running : Running) : Prop where
  params : running.params =
    shadowOperationCallParams running.params.operation running.params.operationParams
  fits : running.params.operation.Fits running.thing
  last : last running.params.operation = some running.thing

/-- What holds of the running operation. -/
structure RunningHolds (h : History) (running : Running) : Prop
    extends Underway h.last running where
  phase : PhaseHolds h.system running.params.operation running.thing running.topic running.phase

/-- The running operation is unsubscribing from its rejected topic. -/
def ShadowSystem.Unsubscribing (s : ShadowSystem) (operation : Operation) : Prop :=
  ∃ running, s.running = some running ∧ running.phase = .unsubscribeRejected ∧
    running.params.operation = operation

/-- The invariant of orderly runs. -/
structure Subscribed (h : History) : Prop where
  kept : ∀ operation, ¬ h.system.Unsubscribing operation → Kept h operation
  running : ∀ running, h.system.running = some running → RunningHolds h running

variable {environment : Environment} {h h' : History} {s s' : ShadowSystem} {running : Running}
  {operation : Operation}

/-- A flag keeps its meaning if nothing it speaks of is lost. -/
theorem Kept.mono (hkept : Kept h operation)
    (hflag : h'.system.flag operation = true → h.system.flag operation = true)
    (hconnected : h'.system.connected = h.system.connected)
    (hlast : h'.last operation = h.last operation)
    (hsubscribed : ∀ name, h.system.SubscribedTo operation name →
      h'.system.SubscribedTo operation name) : Kept h' operation := by
  intro hset
  obtain ⟨hopen, name, hname, hboth⟩ := hkept (hflag hset)
  exact ⟨hconnected.trans hopen, name, hlast.trans hname, hsubscribed name hboth⟩

/-- The invariant when the operation goes on in some phase. -/
theorem Subscribed.of_running (hrunning : h'.system.running = some running)
    (hholds : RunningHolds h' running)
    (hkept : ∀ operation, (running.phase = .unsubscribeRejected →
      operation ≠ running.params.operation) → Kept h' operation) : Subscribed h' := by
  constructor
  · intro operation hnot
    refine hkept operation fun hphase heq => hnot ⟨running, hrunning, hphase, heq.symm⟩
  · intro other hother
    cases hrunning.symm.trans hother
    exact hholds

/-- Outside of that unsubscribe every flag keeps its meaning. -/
theorem Subscribed.kept_all (hinv : Subscribed h) (hrunning : h.system.running = some running)
    (hphase : running.phase ≠ .unsubscribeRejected) (operation : Operation) : Kept h operation := by
  refine hinv.kept operation ?_
  rintro ⟨other, hother, hunsubscribing, -⟩
  cases hrunning.symm.trans hother
  exact hphase hunsubscribing

/-- A topic stays subscribed unless it is the one that is unsubscribed from. -/
theorem mem_broker_effect {topic : List UInt8} {subscriptions : List (List UInt8)}
    (hmem : topic ∈ subscriptions) (hne : topic ≠ running.topic) :
    topic ∈ brokerEffect running subscriptions := by
  unfold brokerEffect
  split
  · exact List.mem_cons_of_mem _ hmem
  · exact List.mem_cons_of_mem _ hmem
  · exact List.mem_filter.mpr ⟨hmem, by simpa using hne⟩
  · exact List.mem_filter.mpr ⟨hmem, by simpa using hne⟩
  · exact List.mem_filter.mpr ⟨hmem, by simpa using hne⟩
  · exact hmem

/-! ## Calls -/

/-- A call changes neither the flags nor the broker. -/
theorem call_flag (phase : Phase) (topicFormat : List UInt8) (running : Running) (s : ShadowSystem)
    (operation : Operation) :
    (callWithTopic phase topicFormat running s).flag operation = s.flag operation := by
  cases operation <;> rfl

/-! ## Events -/

/-- A message changes no flag. -/
theorem message_flag (environment : Environment) (publish : MQTTPublishData)
    (client : ShadowClient) (operation : Operation) :
    prvGetSubscribedFlag operation.toName
        (shadowMQTTCallbackPublish environment publish client).2.1 =
      prvGetSubscribedFlag operation.toName client := by
  have hsame : (shadowMQTTCallbackPublish environment publish client).2.1.updateSubscribed =
        client.updateSubscribed ∧
      (shadowMQTTCallbackPublish environment publish client).2.1.getSubscribed =
        client.getSubscribed ∧
      (shadowMQTTCallbackPublish environment publish client).2.1.deleteSubscribed =
        client.deleteSubscribed := by
    unfold shadowMQTTCallbackPublish
    cases matchOperationInProgress publish client with
    | none =>
        simp only [notifyUser]
        split <;> exact ⟨rfl, rfl, rfl⟩
    | some data =>
        simp only [answerOperation]
        split
        · unfold prvShadowUpdateCallback
          cases clientTokenMatches environment data.operationParams publish <;>
            exact ⟨rfl, rfl, rfl⟩
        · exact ⟨rfl, rfl, rfl⟩
        · exact ⟨rfl, rfl, rfl⟩
        · exact ⟨rfl, rfl, rfl⟩
  cases operation with
  | update => exact hsame.1
  | get => exact hsame.2.1
  | delete => exact hsame.2.2

/-- Setting a flag sets that flag and no other. -/
theorem get_set_flag (operation other : Operation) (value : Bool) (client : ShadowClient) :
    prvGetSubscribedFlag other.toName (prvSetSubscribedFlag operation.toName value client) =
      if other = operation then value else prvGetSubscribedFlag other.toName client := by
  cases operation <;> cases other <;> rfl

/-- A phase holds as long as the flag, the connection and the subscriptions are the same. -/
theorem PhaseHolds.same {name topic : List UInt8} {phase : Phase}
    (hphase : PhaseHolds s operation name topic phase)
    (hflag : s'.flag operation = s.flag operation) (hconnected : s'.connected = s.connected)
    (hsubscriptions : s'.subscriptions = s.subscriptions) :
    PhaseHolds s' operation name topic phase := by
  unfold PhaseHolds ShadowSystem.SubscribedTo
  rw [hflag, hconnected, hsubscriptions]
  exact hphase

section Calls

variable {last : Operation → Option (List UInt8)} {phase : Phase}

/-- An operation that goes on is still the last one of its kind. -/
theorem Underway.goes_on {running' : Running} (hunderway : Underway last running)
    (hparams : running'.params = running.params) : Underway last running' := by
  cases running
  cases running'
  cases hparams
  exact ⟨hunderway.params, hunderway.fits, hunderway.last⟩

/-- A call with the accepted topic of the operation. -/
theorem Underway.accepted_running (hunderway : Underway last running) :
    (callWithTopic phase running.params.operationAcceptedTopic running s).running =
      some { running with phase, topic := running.params.operation.accepted running.thing } := by
  have htopic : running.params.operationAcceptedTopic = running.params.operation.acceptedTopic :=
    congrArg (·.operationAcceptedTopic) hunderway.params
  unfold callWithTopic
  rw [htopic, create_accepted hunderway.fits]
  simp only
  rw [readBytes_writeBytes_append]
  rfl

/-- A call with the rejected topic of the operation. -/
theorem Underway.rejected_running (hunderway : Underway last running) :
    (callWithTopic phase running.params.operationRejectedTopic running s).running =
      some { running with phase, topic := running.params.operation.rejected running.thing } := by
  have htopic : running.params.operationRejectedTopic = running.params.operation.rejectedTopic :=
    congrArg (·.operationRejectedTopic) hunderway.params
  unfold callWithTopic
  rw [htopic, create_rejected hunderway.fits]
  simp only
  rw [readBytes_writeBytes_append]
  rfl

/-- The invariant in a call. -/
theorem Underway.call {topicFormat topic : List UInt8} (hunderway : Underway last running)
    (hcall : (callWithTopic phase topicFormat running s).running =
      some { running with phase, topic })
    (hphase : PhaseHolds s running.params.operation running.thing topic phase)
    (hkept : ∀ operation, (phase = .unsubscribeRejected →
      operation ≠ running.params.operation) → Kept ⟨s, last⟩ operation) :
    Subscribed ⟨callWithTopic phase topicFormat running s, last⟩ := by
  refine Subscribed.of_running hcall ⟨hunderway.goes_on rfl, ?_⟩ fun operation hother => ?_
  · exact hphase.same (call_flag _ _ _ _ _) rfl rfl
  · refine (hkept operation hother).mono (fun hset => ?_) rfl rfl fun _ hboth => hboth
    exact (call_flag _ _ _ _ _).symm.trans hset

end Calls

/-! ## Events -/

/-- The state after the effect of an MQTT call. -/
def afterEffect (running : Running) (effect : Bool) (s : ShadowSystem) : ShadowSystem :=
  if effect then { s with subscriptions := brokerEffect running s.subscriptions } else s

/-- The start of an operation. -/
theorem Subscribed.start {params : ShadowOperationParams} (hinv : Subscribed h)
    (hrunning : h.system.running = none) (horderly : Orderly h (.start operation params)) :
    Subscribed ⟨(startOperation operation params h.system).1,
      remember h.last (.start operation params)⟩ := by
  obtain ⟨hfits, hsame⟩ := horderly
  have hkept : ∀ operation, Kept h operation := by
    refine fun operation => hinv.kept operation ?_
    rintro ⟨other, hother, -⟩
    cases hrunning.symm.trans hother
  have hlast : remember h.last (.start operation params) operation =
      some params.thingName.bytes := if_pos rfl
  have hunderway : Underway (remember h.last (.start operation params))
      ⟨.setFlag, shadowOperationCallParams operation params, shadowSuccess, []⟩ :=
    ⟨rfl, hfits, hlast⟩
  unfold startOperation
  simp only
  split_ifs with hflag
  · -- The flag is not set: subscribe.
    refine hunderway.call hunderway.accepted_running ⟨rfl, hflag⟩ fun other _ hset => ?_
    have hne : other ≠ operation := by
      rintro rfl
      exact absurd (hset.symm.trans hflag) (by decide)
    obtain ⟨hopen, name, hname, hboth⟩ := hkept other hset
    exact ⟨hopen, name, (if_neg hne).trans hname, hboth⟩
  · -- The flag is set: the last operation of the kind was for the same Thing.
    have hset : h.system.flag operation = true := Bool.eq_true_of_not_eq_false hflag
    obtain ⟨hopen, name, hname, hboth⟩ := hkept operation hset
    have heq : name = params.thingName.bytes :=
      Option.some.inj (hname.symm.trans (hsame hset))
    subst heq
    refine Subscribed.of_running rfl ⟨hunderway, hopen, hboth⟩ fun other _ hother => ?_
    obtain ⟨hopen', kept, hkept', hboth'⟩ := hkept other hother
    refine ⟨hopen', kept, ?_, hboth'⟩
    by_cases heq : other = operation
    · subst heq
      exact hlast.trans ((hsame hother).symm.trans hkept')
    · exact (if_neg heq).trans hkept'

/-- Starting the clean-up. -/
theorem Subscribed.clean_up (environment : Environment) (hinv : Subscribed h)
    (hrunning : h.system.running = some running) (hphase : running.phase = .cleanUp) :
    Subscribed ⟨(startCleanUp environment running h.system).1, h.last⟩ := by
  have hunderway : Underway h.last running := (hinv.running running hrunning).toUnderway
  have hkept := hinv.kept_all hrunning (by rw [hphase]; decide)
  -- A set flag speaks of the Thing of this operation.
  have hunsubscribe : PhaseHolds h.system running.params.operation running.thing
      (running.params.operation.rejected running.thing) .unsubscribeRejected := by
    refine ⟨rfl, fun hflag => ?_⟩
    obtain ⟨hopen, name, hname, -, hrejected⟩ := hkept _ hflag
    rw [Option.some.inj (hunderway.last.symm.trans hname)]
    exact ⟨hopen, hrejected⟩
  unfold startCleanUp
  simp only
  split_ifs with hkeep hdelete
  · exact Subscribed.of_running rfl ⟨hunderway.goes_on rfl, trivial⟩
      fun operation _ => hkept operation
  · refine hunderway.call hunderway.rejected_running
      (hunsubscribe.same (by cases running.params.operation <;> rfl) rfl rfl) fun other _ => ?_
    exact (hkept other).mono (fun hset => by cases other <;> exact hset) rfl rfl fun _ hboth =>
      hboth
  · exact Subscribed.of_running rfl ⟨hunderway.goes_on rfl, trivial⟩
      fun other _ => (hkept other).mono (fun hset => by cases other <;> exact hset) rfl rfl
        fun _ hboth => hboth
  · exact hunderway.call hunderway.accepted_running rfl fun operation _ => hkept operation

/-- An operation goes on without a change of the flags, the connection or the subscriptions. -/
theorem Subscribed.goes_on {running' : Running} (hinv : Subscribed h)
    (hrunning : h.system.running = some running) (hphase : running.phase ≠ .unsubscribeRejected)
    (hnext : s'.running = some running') (hparams : running'.params = running.params)
    (hflag : ∀ operation, s'.flag operation = h.system.flag operation)
    (hconnected : s'.connected = h.system.connected)
    (hsubscriptions : s'.subscriptions = h.system.subscriptions)
    (hholds : PhaseHolds h.system running.params.operation running.thing running'.topic
      running'.phase) : Subscribed ⟨s', h.last⟩ := by
  have hunderway : Underway h.last running := (hinv.running running hrunning).toUnderway
  refine Subscribed.of_running hnext ⟨hunderway.goes_on hparams, ?_⟩ fun other _ => ?_
  · unfold Running.thing
    rw [hparams]
    exact hholds.same (hflag _) hconnected hsubscriptions
  · refine (hinv.kept_all hrunning hphase other).mono (fun hset => (hflag other).symm.trans hset)
      hconnected rfl fun _ hboth => ?_
    unfold ShadowSystem.SubscribedTo
    rw [hsubscriptions]
    exact hboth

/-- What the operation does next by itself. -/
theorem Subscribed.proceed {labels : List ShadowOutput} (hinv : Subscribed h)
    (hrunning : h.system.running = some running)
    (hproceed : proceedOperation environment running h.system = some (s', labels)) :
    Subscribed ⟨s', h.last⟩ := by
  have hholds := hinv.running running hrunning
  have hunderway : Underway h.last running := hholds.toUnderway
  have hphaseHolds := hholds.phase
  cases proceed_cases hproceed with
  -- The flag is set once both subscriptions are there.
  | setFlag hphase =>
      rw [hphase] at hphaseHolds
      obtain ⟨hopen, hboth⟩ := hphaseHolds
      refine Subscribed.of_running rfl ⟨hunderway.goes_on rfl, fun _ => hboth⟩ fun other _ hset =>
        ?_
      by_cases heq : other = running.params.operation
      · subst heq
        exact ⟨hopen, running.thing, hunderway.last, hboth⟩
      · have hsame := get_set_flag running.params.operation other true h.system.client
        rw [if_neg heq] at hsame
        exact hinv.kept_all hrunning (by rw [hphase]; decide) other (hsame.symm.trans hset)
  | takeSemaphore hphase | publish hphase =>
      rw [hphase] at hphaseHolds
      exact hinv.goes_on hrunning (by rw [hphase]; decide) rfl rfl
        (fun operation => by cases operation <;> rfl) rfl rfl hphaseHolds
  | collect hphase | giveSemaphore hphase =>
      exact hinv.goes_on hrunning (by rw [hphase]; decide) rfl rfl
        (fun operation => by cases operation <;> rfl) rfl rfl trivial
  | cleanUp hphase => exact hinv.clean_up environment hrunning hphase
  | finish hphase =>
      have hkept := hinv.kept_all hrunning (by rw [hphase]; decide)
      refine ⟨fun other _ => ?_, fun running' hrunning' => by cases hrunning'⟩
      exact (hkept other).mono (fun hset => by cases other <;> exact hset) rfl rfl
        fun _ hboth => hboth

/-- The broker acts on a call with a topic of one operation: the others keep their subscriptions. -/
theorem Kept.effect {effect : Bool} (hkept : Kept h operation)
    (haccepted : ∀ name, operation.accepted name ≠ running.topic)
    (hrejected : ∀ name, operation.rejected name ≠ running.topic) :
    Kept ⟨afterEffect running effect h.system, h.last⟩ operation := by
  unfold afterEffect
  cases effect with
  | false => exact hkept
  | true =>
      refine hkept.mono id rfl rfl fun name hboth => ?_
      exact ⟨mem_broker_effect hboth.1 (haccepted name), mem_broker_effect hboth.2 (hrejected name)⟩

/-- The flags of the other operations keep their meaning in a call for an operation. -/
theorem Kept.effect_other {other : Operation} {effect : Bool} (hkept : Kept h other)
    (htopic : running.topic = running.params.operation.accepted running.thing ∨
      running.topic = running.params.operation.rejected running.thing)
    (hne : other ≠ running.params.operation) :
    Kept ⟨afterEffect running effect h.system, h.last⟩ other := by
  rcases htopic with htopic | htopic
  · refine hkept.effect (fun name => ?_) fun name => ?_
    · rw [htopic]
      exact accepted_ne hne _ _
    · rw [htopic]
      exact (accepted_ne_rejected _ _ _ _).symm
  · refine hkept.effect (fun name => ?_) fun name => ?_
    · rw [htopic]
      exact accepted_ne_rejected _ _ _ _
    · rw [htopic]
      exact rejected_ne hne _ _

theorem after_effect_flag (running : Running) (effect : Bool) (s : ShadowSystem)
    (operation : Operation) :
    (afterEffect running effect s).flag operation = s.flag operation := by
  cases effect <;> rfl

theorem after_effect_connected (running : Running) (effect : Bool) (s : ShadowSystem) :
    (afterEffect running effect s).connected = s.connected := by
  cases effect <;> rfl

theorem mem_after_effect {topic : List UInt8} {effect : Bool} (hmem : topic ∈ s.subscriptions)
    (hne : topic ≠ running.topic) : topic ∈ (afterEffect running effect s).subscriptions := by
  cases effect with
  | false => exact hmem
  | true => exact mem_broker_effect hmem hne

theorem mem_after_subscribe
    (hphase : running.phase = .subscribeAccepted ∨ running.phase = .subscribeRejected) :
    running.topic ∈ (afterEffect running true s).subscriptions := by
  show running.topic ∈ brokerEffect running s.subscriptions
  unfold brokerEffect
  rcases hphase with hphase | hphase <;> rw [hphase] <;> exact List.mem_cons_self

/-- All flags keep their meaning in a call for an operation whose flag is not set. -/
theorem Kept.effect_all (effect : Bool) (hkept : ∀ other, Kept h other)
    (htopic : running.topic = running.params.operation.accepted running.thing ∨
      running.topic = running.params.operation.rejected running.thing)
    (hflag : h.system.flag running.params.operation = false) (other : Operation) :
    Kept ⟨afterEffect running effect h.system, h.last⟩ other := by
  by_cases hne : other = running.params.operation
  · intro hset
    have hset' : h.system.flag other = true := (after_effect_flag _ _ _ _).symm.trans hset
    rw [hne, hflag] at hset'
    cases hset'
  · exact (hkept other).effect_other htopic hne

/-- The return of an MQTT call. -/
theorem Subscribed.returns {code : MQTTAgentReturnCode} {effect : Bool}
    {labels : List ShadowOutput} (hinv : Subscribed h)
    (hrunning : h.system.running = some running)
    (horderly : Orderly h (.mqttReturns code effect)) (heffect : code = .success → effect = true)
    (hopen : effect = true → h.system.connected = true)
    (hreturn : returnMQTT code running (afterEffect running effect h.system) =
      some (s', labels)) : Subscribed ⟨s', h.last⟩ := by
  have hholds := hinv.running running hrunning
  have hunderway : Underway h.last running := hholds.toUnderway
  have hreturned : Underway h.last
      { running with returnCode := prvConvertMQTTReturnCode code } := hunderway.goes_on rfl
  have hphaseHolds := hholds.phase
  have hall : running.phase ≠ .unsubscribeRejected → ∀ other, Kept h other :=
    hinv.kept_all hrunning
  -- A Publish changes no subscription.
  have hpublish : running.phase = .publishing → afterEffect running effect h.system = h.system := by
    intro hphase
    cases effect with
    | false => rfl
    | true =>
        show { h.system with
          subscriptions := brokerEffect running h.system.subscriptions } = h.system
        rw [brokerEffect, hphase]
  -- When it unsubscribes from the second topic, the others have what their flags say.
  have hothers : running.phase = .unsubscribeRejected →
      ∀ other, other ≠ running.params.operation → Kept h other := by
    refine fun hphase other hne => hinv.kept other ?_
    rintro ⟨running', hrunning', -, hsame⟩
    cases hrunning.symm.trans hrunning'
    exact hne hsame.symm
  cases return_cases hreturn with
  -- The first subscription is there, and the flag is still not set.
  | acceptedSubscribed hphase hsuccess =>
      rw [hphase] at hphaseHolds hall
      obtain ⟨htopic, hflag⟩ := hphaseHolds
      have hkept := Kept.effect_all effect (hall (by decide)) (.inl htopic) hflag
      refine hreturned.call hreturned.rejected_running
        ⟨rfl, (after_effect_flag _ _ _ _).trans hflag, fun _ => ?_⟩ fun other _ => hkept other
      show running.params.operation.accepted running.thing ∈ _
      rw [heffect hsuccess, ← htopic]
      exact mem_after_subscribe (.inl hphase)
  | acceptedFails hphase | undone hphase =>
      rw [hphase] at hphaseHolds hall
      obtain ⟨htopic, hflag⟩ := hphaseHolds
      have hkept := Kept.effect_all effect (hall (by decide)) (.inl htopic) hflag
      exact Subscribed.of_running rfl ⟨hunderway.goes_on rfl, trivial⟩ fun other _ => hkept other
  | rejectedSubscribed hphase hsuccess =>
      rw [hphase] at hphaseHolds hall
      obtain ⟨htopic, hflag, hbefore⟩ := hphaseHolds
      have hkept := Kept.effect_all effect (hall (by decide)) (.inr htopic) hflag
      have hconnected := hopen (heffect hsuccess)
      refine Subscribed.of_running rfl ⟨hunderway.goes_on rfl, ?_, ?_, ?_⟩
        fun other _ => hkept other
      · exact (after_effect_connected _ _ _).trans hconnected
      · exact mem_after_effect (hbefore hconnected) (htopic ▸ accepted_ne_rejected _ _ _ _)
      · show running.params.operation.rejected running.thing ∈ _
        rw [heffect hsuccess, ← htopic]
        exact mem_after_subscribe (.inr hphase)
  | rejectedFails hphase =>
      rw [hphase] at hphaseHolds hall
      obtain ⟨htopic, hflag, -⟩ := hphaseHolds
      have hkept := Kept.effect_all effect (hall (by decide)) (.inr htopic) hflag
      exact hreturned.call hreturned.accepted_running
        ⟨rfl, (after_effect_flag _ _ _ _).trans hflag⟩ fun other _ => hkept other
  | published hphase | publishFails hphase =>
      rw [hphase] at hall
      rw [hpublish hphase]
      exact Subscribed.of_running rfl ⟨hunderway.goes_on rfl, trivial⟩
        fun other _ => hall (by decide) other
  | acceptedUnsubscribed hphase =>
      rw [hphase] at hphaseHolds hall
      have htopic : running.topic = running.params.operation.accepted running.thing := hphaseHolds
      refine hunderway.call hunderway.rejected_running ⟨rfl, fun hset => ?_⟩ fun other hne =>
        (hall (by decide) other).effect_other (.inl htopic) (hne rfl)
      obtain ⟨hconnected, name, hname, -, hrejected⟩ :=
        hall (by decide) _ ((after_effect_flag _ _ _ _).symm.trans hset)
      rw [Option.some.inj (hunderway.last.symm.trans hname)]
      refine ⟨(after_effect_connected _ _ _).trans hconnected, mem_after_effect hrejected ?_⟩
      rw [htopic]
      exact (accepted_ne_rejected _ _ _ _).symm
  | rejectedUnsubscribed hphase =>
      rw [hphase] at hphaseHolds
      obtain ⟨htopic, -⟩ := hphaseHolds
      refine Subscribed.of_running rfl ⟨hunderway.goes_on rfl, trivial⟩ fun other _ hset => ?_
      have hsame := get_set_flag running.params.operation other false
        (afterEffect running effect h.system).client
      have hne : other ≠ running.params.operation := by
        intro heq
        rw [if_pos heq] at hsame
        exact absurd (hset.symm.trans hsame) (by decide)
      rw [if_neg hne] at hsame
      exact (hothers hphase other hne).effect_other (.inr htopic) hne (hsame.symm.trans hset)
  -- A failed clean-up leaves the flag set, so both subscriptions must still be there.
  | rejectedStays hphase hfails =>
      have hcleaned := horderly running hrunning hphase hfails
      rw [hphase] at hphaseHolds
      obtain ⟨htopic, hheld⟩ := hphaseHolds
      refine Subscribed.of_running rfl ⟨hunderway.goes_on rfl, trivial⟩ fun other _ => ?_
      by_cases hne : other = running.params.operation
      · subst hne
        intro hset
        have hflag : h.system.flag running.params.operation = true :=
          (after_effect_flag _ _ _ _).symm.trans hset
        obtain ⟨hnone, haccepted⟩ := hcleaned hflag
        subst hnone
        exact ⟨(hheld hflag).1, running.thing, hunderway.last, haccepted, (hheld hflag).2⟩
      · exact (hothers hphase other hne).effect_other (.inr htopic) hne

/-- The connection is established. -/
theorem Subscribed.connect (hinv : Subscribed h) (horderly : Orderly h .connect)
    (hclosed : h.system.connected = false) :
    Subscribed ⟨{ h.system with connected := true, subscriptions := [] }, h.last⟩ := by
  have hunset : ∀ operation, Kept h operation → h.system.flag operation = false := by
    refine fun operation hkept => Bool.eq_false_of_not_eq_true fun hset => ?_
    exact absurd ((hkept hset).1.symm.trans hclosed) (by decide)
  have hnever : ∀ {p : Prop}, h.system.connected = true → p :=
    fun hopen => absurd (hopen.symm.trans hclosed) (by decide)
  constructor
  · intro operation hnot hset
    exact absurd (hset.symm.trans (hunset operation (hinv.kept operation hnot))) (by decide)
  · intro running hrunning
    have hholds := hinv.running running hrunning
    have hphases := horderly running hrunning
    refine ⟨hholds.toUnderway, ?_⟩
    have hphaseHolds := hholds.phase
    show PhaseHolds _ running.params.operation running.thing running.topic running.phase
    cases hphase : running.phase with
    | subscribeRejected | takeSemaphore | publish | publishing =>
        rw [hphase] at hphases
        exact absurd (by decide) hphases
    | setFlag =>
        rw [hphase] at hphaseHolds
        exact hnever hphaseHolds.1
    | unsubscribeRejected =>
        rw [hphase] at hphaseHolds
        exact ⟨hphaseHolds.1, fun hset => hnever (hphaseHolds.2 hset).1⟩
    | subscribeAccepted | undoAccepted | unsubscribeAccepted =>
        rw [hphase] at hphaseHolds
        exact hphaseHolds
    | _ => trivial

/-- The connection is lost. -/
theorem Subscribed.disconnect (hinv : Subscribed h) (horderly : Orderly h .disconnect) :
    Subscribed ⟨{ h.system with
      client := shadowMQTTCallbackDisconnect h.system.client
      connected := false
      subscriptions := [] }, h.last⟩ := by
  have hunset : ∀ operation : Operation,
      prvGetSubscribedFlag operation.toName (shadowMQTTCallbackDisconnect h.system.client) =
        false := by
    intro operation
    cases operation <;> rfl
  constructor
  · intro operation _ hset
    exact absurd (hset.symm.trans (hunset operation)) (by decide)
  · intro running hrunning
    have hholds := hinv.running running hrunning
    refine ⟨hholds.toUnderway, ?_⟩
    have hphaseHolds := hholds.phase
    show PhaseHolds _ running.params.operation running.thing running.topic running.phase
    cases hphase : running.phase with
    | setFlag => exact absurd hphase (horderly running hrunning)
    | takeSemaphore | publish | publishing => exact fun hopen => by cases hopen
    | subscribeAccepted | undoAccepted =>
        rw [hphase] at hphaseHolds
        exact ⟨hphaseHolds.1, hunset _⟩
    | subscribeRejected =>
        rw [hphase] at hphaseHolds
        exact ⟨hphaseHolds.1, hunset _, fun hopen => by cases hopen⟩
    | unsubscribeAccepted =>
        rw [hphase] at hphaseHolds
        exact hphaseHolds
    | unsubscribeRejected =>
        rw [hphase] at hphaseHolds
        exact ⟨hphaseHolds.1, fun hset => absurd (hset.symm.trans (hunset _)) (by decide)⟩
    | _ => trivial

/-- Orderly events keep the invariant. -/
theorem OrderlyExecutes.subscribed {labels : List ShadowOutput}
    (hexecutes : OrderlyExecutes environment h labels h') (hinv : Subscribed h) :
    Subscribed h' := by
  obtain ⟨event, hexecutes⟩ := hexecutes
  unfold orderlyStep at hexecutes
  split_ifs at hexecutes with horderly
  obtain ⟨⟨s', outputs⟩, hstep, heq⟩ := Option.map_eq_some_iff.mp hexecutes
  cases heq
  obtain ⟨-, hcases⟩ := step_cases hstep
  cases event with
  | start operation params =>
      obtain ⟨hrunning, -, -, hbegins⟩ := hcases
      have hstart := hinv.start hrunning horderly
      rw [hbegins] at hstart
      exact hstart
  | proceed =>
      obtain ⟨running, hrunning, hproceed⟩ := hcases
      exact hinv.proceed hrunning hproceed
  | mqttReturns code effect =>
      obtain ⟨hcode, hopen, running, hrunning, hreturn⟩ := hcases
      exact hinv.returns hrunning horderly hcode hopen hreturn
  | timeOut =>
      obtain ⟨running, hrunning, hwaiting, -, rfl, -⟩ := hcases
      exact hinv.goes_on hrunning (by rw [hwaiting]; decide) rfl rfl
        (fun operation => by cases operation <;> rfl) rfl rfl trivial
  | message publish =>
      obtain ⟨-, rfl, -⟩ := hcases
      have hflag := message_flag environment publish h.system.client
      refine ⟨fun operation hnot => ?_, fun running hrunning => ?_⟩
      · exact (hinv.kept operation hnot).mono (fun hset => (hflag operation).symm.trans hset) rfl
          rfl fun _ hboth => hboth
      · have hholds := hinv.running running hrunning
        exact ⟨hholds.toUnderway, hholds.phase.same (hflag _) rfl rfl⟩
  | connect =>
      obtain ⟨hclosed, rfl, -⟩ := hcases
      exact hinv.connect horderly hclosed
  | disconnect =>
      obtain ⟨-, rfl, -⟩ := hcases
      exact hinv.disconnect horderly

/-! ## Every run -/

/-- A created client and no operations so far. -/
def createdHistory (callbackCatalog : List CallbackCatalogEntry) (topicBuffer : ByteMemory) :
    History where
  system := createdClient callbackCatalog topicBuffer
  last := fun _ => none

/-- In every orderly run, a client with a connection that is about to publish a request, or in the
call that publishes it, is subscribed to both answers of the operation for its Thing. -/
theorem request_subscribed (environment : Environment)
    (callbackCatalog : List CallbackCatalogEntry) (topicBuffer : ByteMemory)
    {labels : List ShadowOutput} {h : History}
    (hrun : Steps (OrderlyExecutes environment)
      (createdHistory callbackCatalog topicBuffer) labels h)
    {running : Running} (hrunning : h.system.running = some running)
    (hpublish : running.phase = .publish ∨ running.phase = .publishing)
    (hconnected : h.system.connected = true) :
    h.system.SubscribedTo running.params.operation
      running.params.operationParams.thingName.bytes := by
  have hstart : Subscribed (createdHistory callbackCatalog topicBuffer) := by
    refine ⟨fun operation _ hset => ?_, fun running hrunning => by cases hrunning⟩
    cases operation <;> cases hset
  have hinv : Subscribed h :=
    Steps.preserves Subscribed (fun hinv hstep => hstep.subscribed hinv) hrun hstart
  have hphase := (hinv.running running hrunning).phase
  rcases hpublish with hpublish | hpublish <;> rw [hpublish] at hphase <;> exact hphase hconnected

/-- Two gets on one Thing, the first of which keeps its subscriptions. -/
def keptGet : List Event :=
  [.connect, .start .get (benchParams 84 bench_thing_ne_zero true), succeeds, succeeds, .proceed,
    .proceed, .proceed, succeeds, .timeOut, .proceed, .proceed, .proceed,
    .start .get (benchParams 84 bench_thing_ne_zero false), .proceed, .proceed]

theorem request_subscribed_again :
    ∃ labels h running, Steps (OrderlyExecutes benchEnvironment)
        (createdHistory [] fun _ => 0) labels h ∧ h.system.running = some running ∧
      running.phase = .publish ∧ h.system.SubscribedTo .get [84] := by
  have hrun : ((replay (orderlyStep benchEnvironment) keptGet
      (createdHistory [] fun _ => 0)).any fun last =>
        last.1.system.connected && last.1.system.running.any fun running =>
          decide (running.phase = .publish) && decide (running.params.operation = .get) &&
            decide (running.params.operationParams.thingName.bytes = [84])) = true := by
    decide +kernel
  obtain ⟨⟨h, labels⟩, hlast, hcheck⟩ := (Option.any_eq_true _ _).mp hrun
  obtain ⟨hconnected, hcheck⟩ := Bool.and_eq_true_iff.mp hcheck
  obtain ⟨running, hrunning, hcheck⟩ := (Option.any_eq_true _ _).mp hcheck
  obtain ⟨hcheck, hthing⟩ := Bool.and_eq_true_iff.mp hcheck
  obtain ⟨hphase, hoperation⟩ := Bool.and_eq_true_iff.mp hcheck
  have hsteps : Steps (OrderlyExecutes benchEnvironment) (createdHistory [] fun _ => 0) labels h :=
    steps_of_replay hlast
  have hboth := request_subscribed benchEnvironment [] (fun _ => 0) hsteps hrunning
    (.inl (of_decide_eq_true hphase)) hconnected
  rw [of_decide_eq_true hoperation, of_decide_eq_true hthing] at hboth
  exact ⟨labels, h, running, hsteps, hrunning, of_decide_eq_true hphase, hboth⟩

/-- A get on one Thing that keeps its subscriptions, and then a get on another Thing. -/
def otherThing : List Event :=
  [.connect, .start .get (benchParams 84 bench_thing_ne_zero true), succeeds, succeeds, .proceed,
    .proceed, .proceed, succeeds, .timeOut, .proceed, .proceed, .proceed,
    .start .get (benchParams 85 other_thing_ne_zero true), .proceed, .proceed]

/-- The request for the other Thing is published without a subscription to its answers. -/
theorem request_not_subscribed :
    ∃ labels s running, Steps (Executes benchEnvironment) benchClient labels s ∧
      s.connected = true ∧ s.running = some running ∧ running.phase = .publish ∧
        ¬ s.SubscribedTo running.params.operation
          running.params.operationParams.thingName.bytes := by
  have hrun : ((replay (step benchEnvironment) otherThing benchClient).any fun last =>
      last.1.connected && last.1.running.any fun running =>
        decide (running.phase = .publish) && decide (¬ last.1.SubscribedTo running.params.operation
          running.params.operationParams.thingName.bytes)) = true := by
    decide +kernel
  obtain ⟨⟨s, labels⟩, hlast, hcheck⟩ := (Option.any_eq_true _ _).mp hrun
  obtain ⟨hconnected, hcheck⟩ := Bool.and_eq_true_iff.mp hcheck
  obtain ⟨running, hrunning, hcheck⟩ := (Option.any_eq_true _ _).mp hcheck
  obtain ⟨hphase, hnot⟩ := Bool.and_eq_true_iff.mp hcheck
  exact ⟨labels, s, running, steps_of_replay hlast, hconnected, hrunning,
    of_decide_eq_true hphase, of_decide_eq_true hnot⟩

end TivaAws.Shadow
