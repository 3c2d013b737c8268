import TivaAws.Mqtt.TopicMatch
import TivaAws.Shadow.Calls

/-!
# Registering callbacks

`SHADOW_RegisterCallbacks` as a machine that stops in the calls of the MQTT agent and between its
accesses to the callback catalog, for any number of calls at once, among the operations of the
client and the messages it receives. A message is delivered on a topic that matches a filter which
the broker has a subscription for, or which the client is just subscribing to. For the reasoning a
client keeps the topics it has been subscribed to by operations or by a Subscribe that has failed,
and all outputs.
-/

namespace TivaAws.Shadow

open ByteMemory
open Mqtt (FunctionPointer TopicMatches)

/-! ## Callbacks -/

/-- The callbacks of a Thing, in the order in which they are registered. -/
inductive CallbackKind where
  | updated
  | deleted
  | delta
  deriving DecidableEq, Repr

namespace CallbackKind

/-- The callback that is registered next. -/
def next : CallbackKind → Option CallbackKind
  | .updated => some .deleted
  | .deleted => some .delta
  | .delta => none

/-- All of them. -/
def all : List CallbackKind := [.updated, .deleted, .delta]

theorem mem_all (kind : CallbackKind) : kind ∈ all := by
  cases kind <;> decide

/-- The end of the topic of a callback. -/
def suffix : CallbackKind → List UInt8
  | .updated => Operation.update.word ++ ascii "/documents"
  | .deleted => Operation.delete.word ++ topicSuffixAccepted
  | .delta => Operation.update.word ++ ascii "/delta"

/-- `shadowTOPIC_UPDATE_DOCUMENTS`, `shadowTOPIC_DELETE_ACCEPTED` and `shadowTOPIC_UPDATE_DELTA`. -/
def topicFormat : CallbackKind → List UInt8
  | .updated => topicUpdateDocuments
  | .deleted => Operation.delete.acceptedTopic
  | .delta => topicUpdateDelta

/-- The topic of a callback of a Thing. -/
def topic (kind : CallbackKind) (name : List UInt8) : List UInt8 :=
  shadowTopic name kind.suffix

/-- The operation that `prvMatchCallbackTopic` finds in the topic. -/
def operationName : CallbackKind → ShadowOperationName
  | .updated => .updateDocuments
  | .deleted => .deletedByAnother
  | .delta => .updateDelta

end CallbackKind

/-- A callback of a catalog entry. -/
def CallbackCatalogEntry.callback (entry : CallbackCatalogEntry) :
    CallbackKind → Option FunctionPointer
  | .updated => entry.shadowUpdatedCallback
  | .deleted => entry.shadowDeletedCallback
  | .delta => entry.shadowDeltaCallback

/-- Change a callback of a catalog entry. -/
def CallbackCatalogEntry.withCallback (kind : CallbackKind) (callback : Option FunctionPointer)
    (entry : CallbackCatalogEntry) : CallbackCatalogEntry :=
  match kind with
  | .updated => { entry with shadowUpdatedCallback := callback }
  | .deleted => { entry with shadowDeletedCallback := callback }
  | .delta => { entry with shadowDeltaCallback := callback }

/-- An entry of the catalog that is not in use. -/
def CallbackCatalogEntry.unused : CallbackCatalogEntry where
  inUse := false
  thingName := ⟨[], List.not_mem_nil⟩
  shadowUpdatedCallback := none
  shadowDeletedCallback := none
  shadowDeltaCallback := none

/-- `ShadowCallbackParams_t`. -/
structure ShadowCallbackParams where
  thingName : CString
  shadowUpdatedCallback : Option FunctionPointer
  shadowDeletedCallback : Option FunctionPointer
  shadowDeltaCallback : Option FunctionPointer

/-- A callback of the parameters. -/
def ShadowCallbackParams.callback (params : ShadowCallbackParams) :
    CallbackKind → Option FunctionPointer
  | .updated => params.shadowUpdatedCallback
  | .deleted => params.shadowDeletedCallback
  | .delta => params.shadowDeltaCallback

/-! ## The catalog -/

/-- The entry of a Thing. -/
def CallbackCatalogEntry.isFor (name : List UInt8) (entry : CallbackCatalogEntry) : Bool :=
  entry.inUse && entry.thingName.bytes == name

/-- The loop of `prvGetCallbackCatalogEntry` from an index on: an index, and whether it is that of
the entry of the Thing. Otherwise it is the last index that is not in use. -/
def getCallbackCatalogEntry (name : List UInt8) :
    List CallbackCatalogEntry → Nat → Option Nat → Option Nat × Bool
  | [], _, unused => (unused, false)
  | entry :: rest, index, unused =>
      if entry.inUse = false then getCallbackCatalogEntry name rest (index + 1) (some index)
      else if entry.isFor name then (some index, true)
      else getCallbackCatalogEntry name rest (index + 1) unused

/-- The critical section of `prvGetCallbackCatalogEntry`; no index stands for -1. -/
def prvGetCallbackCatalogEntry (catalog : List CallbackCatalogEntry) (thingName : CString) :
    Option Nat × Bool :=
  getCallbackCatalogEntry thingName.bytes catalog 0 none

/-! ## Registrations -/

/-- Where `SHADOW_RegisterCallbacks` is. -/
inductive RegistrationPhase where
  /-- Behind the critical section of `prvGetCallbackCatalogEntry`. -/
  | found (thingNameFound : Bool)
  /-- At the beginning of `prvRegisterCallback`. -/
  | enter (kind : CallbackKind)
  /-- In `MQTT_AGENT_Unsubscribe`. -/
  | unsubscribing (kind : CallbackKind)
  /-- In `MQTT_AGENT_Subscribe`. -/
  | subscribing (kind : CallbackKind)
  /-- Before the change of the callback. -/
  | store (kind : CallbackKind) (returnCode : ShadowReturnCode)
  /-- Before the last test of the callbacks. -/
  | test
  /-- Before the critical section that clears the entry. -/
  | clear
  deriving DecidableEq

/-- A call of `SHADOW_RegisterCallbacks`. -/
structure Registration where
  params : ShadowCallbackParams
  index : Nat
  phase : RegistrationPhase

/-- A client with the registrations that are going on, the topics of subscriptions that do not come
from a registration that has succeeded, and what the client has done. -/
structure CallbackSystem where
  system : ShadowSystem
  registrations : List Registration
  leftover : List (List UInt8)
  outputs : List ShadowOutput

/-- What happens next. A registration is known by its place in the list. -/
inductive CallbackEvent where
  | shadow (event : Event)
  | register (params : ShadowCallbackParams)
  | proceed (i : Nat)
  | mqttReturns (i : Nat) (returnCode : MQTTAgentReturnCode) (effect : Bool)

/-- The topic that a registration subscribes to or unsubscribes from. -/
def Registration.topic (stack : ByteMemory) (kind : CallbackKind) (registration : Registration) :
    List UInt8 :=
  let created := prvCreateTopic stack topicBufferLength kind.topicFormat
    registration.params.thingName
  created.2.readBytes 0 created.1

/-- The phase behind the test of the new callback. -/
def Registration.afterUnsubscribe (kind : CallbackKind) (returnCode : ShadowReturnCode)
    (registration : Registration) : RegistrationPhase :=
  if (registration.params.callback kind).isSome then .subscribing kind
  else .store kind returnCode

/-- The phase behind a call of `prvRegisterCallback`. -/
def afterStore (kind : CallbackKind) (returnCode : ShadowReturnCode) : RegistrationPhase :=
  if returnCode = shadowSuccess then
    match kind.next with
    | some next => .enter next
    | none => .test
  else .test

/-- Change an entry of the catalog of a client. -/
def ShadowClient.modifyEntry (index : Nat) (f : CallbackCatalogEntry → CallbackCatalogEntry)
    (client : ShadowClient) : ShadowClient :=
  { client with callbackCatalog := client.callbackCatalog.modify index f }

/-- All callbacks of an entry are `NULL`. -/
def CallbackCatalogEntry.isEmpty (entry : CallbackCatalogEntry) : Bool :=
  entry.shadowUpdatedCallback.isNone && entry.shadowDeltaCallback.isNone &&
    entry.shadowDeletedCallback.isNone

namespace CallbackSystem

variable (s : CallbackSystem)

/-- A registration goes on to another phase. -/
def enter (i : Nat) (registration : Registration) (phase : RegistrationPhase) : CallbackSystem :=
  { s with registrations := s.registrations.set i { registration with phase } }

/-- The entry of a registration. -/
def entry (registration : Registration) : Option CallbackCatalogEntry :=
  s.system.client.callbackCatalog[registration.index]?

/-- Change the entry of a registration. -/
def modifyEntry (registration : Registration)
    (f : CallbackCatalogEntry → CallbackCatalogEntry) : CallbackSystem :=
  { s with system.client := s.system.client.modifyEntry registration.index f }

/-- `SHADOW_RegisterCallbacks` up to the end of the critical section of
`prvGetCallbackCatalogEntry`. It is asserted that there is an entry. -/
def register (params : ShadowCallbackParams) : CallbackSystem :=
  match prvGetCallbackCatalogEntry s.system.client.callbackCatalog params.thingName with
  | (none, _) => { s with system.halted := true }
  | (some index, thingNameFound) =>
      { s with registrations := s.registrations ++ [⟨params, index, .found thingNameFound⟩] }

/-- What a registration does next by itself. -/
def proceed (i : Nat) (registration : Registration) : Option CallbackSystem :=
  (s.entry registration).bind fun entry =>
    match registration.phase with
    | .found thingNameFound =>
        let s := s.enter i registration (.enter .updated)
        some (if thingNameFound then s
          else s.modifyEntry registration fun entry =>
            { entry with inUse := true, thingName := registration.params.thingName })
    | .enter kind =>
        some (s.enter i registration
          (if (entry.callback kind).isSome then .unsubscribing kind
          else registration.afterUnsubscribe kind shadowSuccess))
    | .store kind returnCode =>
        let s := s.enter i registration (afterStore kind returnCode)
        some (if returnCode = shadowSuccess then
            s.modifyEntry registration fun entry =>
              entry.withCallback kind (registration.params.callback kind)
          else s)
    | .test =>
        some (if entry.isEmpty then s.enter i registration .clear
          else { s with registrations := s.registrations.eraseIdx i })
    | .clear =>
        some { s.modifyEntry registration fun _ => .unused with
          registrations := s.registrations.eraseIdx i }
    | .unsubscribing _ | .subscribing _ => none

/-- The MQTT call that a registration is in returns, with or without an effect at the broker. -/
def mqttReturns (stack : ByteMemory) (i : Nat) (registration : Registration)
    (code : MQTTAgentReturnCode) (effect : Bool) : Option CallbackSystem :=
  let returnCode := prvConvertMQTTReturnCode code
  match registration.phase with
  | .unsubscribing kind =>
      let topic := registration.topic stack kind
      let s := s.enter i registration (registration.afterUnsubscribe kind returnCode)
      some (if effect then
        { s with
          system.subscriptions := s.system.subscriptions.filter (· ≠ topic)
          leftover := s.leftover.filter (· ≠ topic) }
      else s)
  | .subscribing kind =>
      let topic := registration.topic stack kind
      let s := s.enter i registration (.store kind returnCode)
      some (if effect then
        { s with
          system.subscriptions := topic :: s.system.subscriptions
          leftover := if code = .success then s.leftover else topic :: s.leftover }
      else s)
  | _ => none

/-- The operation is just subscribing to a topic. -/
def OperationSubscribing (topic : List UInt8) : Prop :=
  ∃ running ∈ s.system.running,
    (running.phase = .subscribeAccepted ∨ running.phase = .subscribeRejected) ∧
      running.topic = topic

/-- The topic filters that the broker has, or may have already, for the client. -/
def filters (stack : ByteMemory) : List (List UInt8) :=
  s.system.subscriptions ++
    (s.registrations.filterMap fun registration => match registration.phase with
      | .subscribing kind => some (registration.topic stack kind)
      | _ => none) ++
    ((s.system.running.filter fun running =>
      running.phase = .subscribeAccepted ∨ running.phase = .subscribeRejected).map
        Running.topic).toList

/-- The broker may send a message on a topic. -/
def Delivers (stack : ByteMemory) (topic : List UInt8) : Prop :=
  ∃ filter ∈ s.filters stack, TopicMatches topic filter

/-- Messages come on topics that the broker may send them on. -/
def Permits (stack : ByteMemory) : Event → Prop
  | .message publish => s.Delivers stack publish.topicBytes
  | _ => True

instance (topic : List UInt8) : Decidable (s.OperationSubscribing topic) :=
  inferInstanceAs (Decidable (∃ running ∈ s.system.running,
    (running.phase = .subscribeAccepted ∨ running.phase = .subscribeRejected) ∧
      running.topic = topic))

instance (stack : ByteMemory) : (event : Event) → Decidable (s.Permits stack event)
  | .message publish => inferInstanceAs (Decidable
      (∃ filter ∈ s.filters stack, TopicMatches publish.topicBytes filter))
  | .start _ _ | .proceed | .mqttReturns _ _ | .timeOut | .connect | .disconnect => isTrue trivial

end CallbackSystem

/-- What an event of an operation or of the connection does to a list of subscriptions. -/
def ShadowSystem.effectOn (s : ShadowSystem) (topics : List (List UInt8)) :
    Event → List (List UInt8)
  | .mqttReturns _ true =>
      match s.running with
      | some running => brokerEffect running topics
      | none => topics
  | .connect | .disconnect => []
  | _ => topics

/-- What an event does, `none` if it cannot happen. -/
def callbackStep (environment : Environment) (s : CallbackSystem) :
    CallbackEvent → Option CallbackSystem
  | .shadow event =>
      if s.Permits environment.stack event then
        (step environment s.system event).map fun (system, labels) =>
          { s with
            system
            leftover := s.system.effectOn s.leftover event
            outputs := s.outputs ++ labels }
      else none
  | .register params => if s.system.halted then none else some (s.register params)
  | .proceed i =>
      if s.system.halted then none
      else s.registrations[i]?.bind fun registration => s.proceed i registration
  | .mqttReturns i code effect =>
      -- As in an operation, there is no success without an effect and none without a connection.
      if s.system.halted = false ∧ (code = .success → effect) ∧ (effect → s.system.connected) then
        s.registrations[i]?.bind fun registration =>
          s.mqttReturns environment.stack i registration code effect
      else none

/-- A client as `SHADOW_ClientCreate` leaves it, with a catalog of some size. -/
def CallbackSystem.created (things : Nat) (topicBuffer : ByteMemory) : CallbackSystem where
  system := createdClient (List.replicate things .unused) topicBuffer
  registrations := []
  leftover := []
  outputs := []

/-! ## What an event does -/

section Cases

variable {environment : Environment} {s s' : CallbackSystem} {i : Nat} {registration : Registration}

/-- What a registration does by itself, by the phase it is in and by its entry. -/
inductive RegistrationProceeds (s : CallbackSystem) (i : Nat) (registration : Registration)
    (entry : CallbackCatalogEntry) : CallbackSystem → Prop where
  | found : registration.phase = .found true → RegistrationProceeds s i registration entry
      (s.enter i registration (.enter .updated))
  | mark : registration.phase = .found false → RegistrationProceeds s i registration entry
      ((s.enter i registration (.enter .updated)).modifyEntry registration fun entry =>
        { entry with inUse := true, thingName := registration.params.thingName })
  | enter {kind : CallbackKind} : registration.phase = .enter kind →
      RegistrationProceeds s i registration entry
        (s.enter i registration
          (if (entry.callback kind).isSome then .unsubscribing kind
          else registration.afterUnsubscribe kind shadowSuccess))
  | store {kind : CallbackKind} : registration.phase = .store kind shadowSuccess →
      RegistrationProceeds s i registration entry
        ((s.enter i registration (afterStore kind shadowSuccess)).modifyEntry registration
          fun entry => entry.withCallback kind (registration.params.callback kind))
  | keep {kind : CallbackKind} {returnCode : ShadowReturnCode} :
      registration.phase = .store kind returnCode → returnCode ≠ shadowSuccess →
      RegistrationProceeds s i registration entry
        (s.enter i registration (afterStore kind returnCode))
  | isEmpty : registration.phase = .test → entry.isEmpty = true →
      RegistrationProceeds s i registration entry (s.enter i registration .clear)
  | finish : registration.phase = .test → ¬ entry.isEmpty = true →
      RegistrationProceeds s i registration entry
        { s with registrations := s.registrations.eraseIdx i }
  | clear : registration.phase = .clear → RegistrationProceeds s i registration entry
      { s.modifyEntry registration fun _ => .unused with
        registrations := s.registrations.eraseIdx i }

theorem registration_proceed_cases (h : s.proceed i registration = some s') :
    ∃ entry, s.entry registration = some entry ∧
      RegistrationProceeds s i registration entry s' := by
  obtain ⟨entry, hentry, h⟩ := Option.bind_eq_some_iff.mp h
  refine ⟨entry, hentry, ?_⟩
  cases hphase : registration.phase with
  | found thingNameFound =>
      rw [hphase] at h
      cases thingNameFound with
      | true =>
          cases h
          exact .found hphase
      | false =>
          cases h
          exact .mark hphase
  | enter kind =>
      rw [hphase] at h
      cases h
      exact .enter hphase
  | store kind returnCode =>
      rw [hphase] at h
      simp only at h
      by_cases hcode : returnCode = shadowSuccess
      · subst hcode
        cases h
        exact .store hphase
      · rw [if_neg hcode] at h
        cases h
        exact .keep hphase hcode
  | test =>
      rw [hphase] at h
      simp only at h
      by_cases hempty : entry.isEmpty = true
      · rw [if_pos hempty] at h
        cases h
        exact .isEmpty hphase hempty
      · rw [if_neg hempty] at h
        cases h
        exact .finish hphase hempty
  | clear =>
      rw [hphase] at h
      cases h
      exact .clear hphase
  | unsubscribing kind | subscribing kind =>
      rw [hphase] at h
      cases h

/-- What the return of an MQTT call does, by the call that the registration is in. -/
inductive RegistrationReturns (s : CallbackSystem) (stack : ByteMemory) (i : Nat)
    (registration : Registration) (code : MQTTAgentReturnCode) (effect : Bool) :
    CallbackSystem → Prop where
  | unsubscribed {kind : CallbackKind} : registration.phase = .unsubscribing kind →
      RegistrationReturns s stack i registration code effect
        (let next := s.enter i registration
          (registration.afterUnsubscribe kind (prvConvertMQTTReturnCode code))
        if effect then
          { next with
            system.subscriptions :=
              s.system.subscriptions.filter (· ≠ registration.topic stack kind)
            leftover := s.leftover.filter (· ≠ registration.topic stack kind) }
        else next)
  | subscribed {kind : CallbackKind} : registration.phase = .subscribing kind →
      RegistrationReturns s stack i registration code effect
        (let next := s.enter i registration (.store kind (prvConvertMQTTReturnCode code))
        if effect then
          { next with
            system.subscriptions := registration.topic stack kind :: s.system.subscriptions
            leftover := if code = .success then s.leftover
              else registration.topic stack kind :: s.leftover }
        else next)

theorem registration_return_cases {stack : ByteMemory} {code : MQTTAgentReturnCode} {effect : Bool}
    (h : s.mqttReturns stack i registration code effect = some s') :
    RegistrationReturns s stack i registration code effect s' := by
  unfold CallbackSystem.mqttReturns at h
  cases hphase : registration.phase with
  | unsubscribing kind =>
      rw [hphase] at h
      cases h
      exact .unsubscribed hphase
  | subscribing kind =>
      rw [hphase] at h
      cases h
      exact .subscribed hphase
  | found _ | enter _ | store _ _ | test | clear =>
      rw [hphase] at h
      cases h

/-- The guards and the effect of each event. -/
theorem callback_step_cases {event : CallbackEvent}
    (h : callbackStep environment s event = some s') :
    match event with
    | .shadow event => s.Permits environment.stack event ∧
        ∃ system labels, step environment s.system event = some (system, labels) ∧
          { s with
            system
            leftover := s.system.effectOn s.leftover event
            outputs := s.outputs ++ labels } = s'
    | .register params => s.system.halted = false ∧ s.register params = s'
    | .proceed i => s.system.halted = false ∧
        ∃ registration, s.registrations[i]? = some registration ∧
          s.proceed i registration = some s'
    | .mqttReturns i code effect => s.system.halted = false ∧
        (code = .success → effect = true) ∧ (effect = true → s.system.connected = true) ∧
          ∃ registration, s.registrations[i]? = some registration ∧
            s.mqttReturns environment.stack i registration code effect = some s' := by
  unfold callbackStep at h
  cases event with
  | shadow event =>
      simp only at h
      split_ifs at h with hpermits
      obtain ⟨⟨system, labels⟩, hsystem, hnext⟩ := Option.map_eq_some_iff.mp h
      exact ⟨hpermits, system, labels, hsystem, hnext⟩
  | register params =>
      simp only at h
      split_ifs at h with hhalted
      exact ⟨Bool.eq_false_iff.mpr hhalted, Option.some.inj h⟩
  | proceed i =>
      simp only at h
      split_ifs at h with hhalted
      exact ⟨Bool.eq_false_iff.mpr hhalted, Option.bind_eq_some_iff.mp h⟩
  | mqttReturns i code effect =>
      simp only at h
      split_ifs at h with hpossible
      exact ⟨hpossible.1, hpossible.2.1, hpossible.2.2, Option.bind_eq_some_iff.mp h⟩

end Cases

end TivaAws.Shadow
