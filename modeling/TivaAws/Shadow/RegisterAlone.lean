import TivaAws.Foundation.Labelled
import TivaAws.Shadow.RegisterCallbacks

/-!
# A registration that is alone

The registrations that stop in the calls of the MQTT agent, and `SHADOW_RegisterCallbacks` from
beginning to end, are two views of one function. Whatever messages arrive and whatever an operation
does in between, a registration to which no other one comes ends as `shadowRegisterCallbacks` does
for what its MQTT calls return, with the same calls in the same order.
-/

namespace TivaAws.Shadow

open ByteMemory Labelled

/-! ## A registration and nothing else -/

/-- The events of an operation and of the connection that leave the subscriptions as they are. -/
def Event.KeepsSubscriptions : Event → Prop
  | .start _ _ | .proceed | .timeOut | .message _ => True
  | .mqttReturns _ effect => effect = false
  | .connect | .disconnect => False

instance : (event : Event) → Decidable event.KeepsSubscriptions
  | .start _ _ | .proceed | .timeOut | .message _ => isTrue trivial
  | .mqttReturns _ effect => inferInstanceAs (Decidable (effect = false))
  | .connect | .disconnect => isFalse id

/-- The events beside which a registration is alone. -/
def CallbackEvent.Alone : CallbackEvent → Prop
  | .shadow event => event.KeepsSubscriptions
  | .proceed _ | .mqttReturns _ _ _ => True
  | .register _ => False

instance : (event : CallbackEvent) → Decidable event.Alone
  | .shadow event => inferInstanceAs (Decidable event.KeepsSubscriptions)
  | .proceed _ | .mqttReturns _ _ _ => isTrue trivial
  | .register _ => isFalse id

/-- The call of the MQTT agent that ends with an event, if any. -/
def Registration.callEnded (registration : Registration) : CallbackEvent → List CallbackCall
  | .mqttReturns _ _ _ =>
      match registration.phase with
      | .unsubscribing kind => [.unsubscribe kind]
      | .subscribing kind => [.subscribe kind]
      | _ => []
  | _ => []

/-- An event while there is one registration, with the call that it ends. -/
def aloneStep (environment : Environment) (s : CallbackSystem) (event : CallbackEvent) :
    Option (CallbackSystem × List CallbackCall) :=
  match s.registrations with
  | [registration] =>
      if event.Alone then
        (callbackStep environment s event).map fun s' => (s', registration.callEnded event)
      else none
  | _ => none

/-- Runs of one registration. -/
def RegistersAlone (environment : Environment) (s : CallbackSystem) (calls : List CallbackCall)
    (s' : CallbackSystem) : Prop :=
  ∃ event, aloneStep environment s event = some (s', calls)

/-! ## What is left of a registration -/

section Rest

variable (stack : ByteMemory) (params : ShadowCallbackParams)
  (results : CallbackKind → CallbackResults)

/-- The Unsubscribe of `prvRegisterCallback` returns. -/
def unsubscribeReturns (kind : CallbackKind) (s : RegisterState) :
    ShadowReturnCode × RegisterState :=
  (prvConvertMQTTReturnCode (results kind).unsubscribe.code,
    { s with
      subscriptions :=
        if (results kind).unsubscribe.effect then
          s.subscriptions.filter (· ≠ registrationTopic stack params kind)
        else s.subscriptions
      calls := s.calls ++ [.unsubscribe kind] })

/-- The Subscribe of `prvRegisterCallback` returns. -/
def subscribeReturns (kind : CallbackKind) (s : RegisterState) :
    ShadowReturnCode × RegisterState :=
  (prvConvertMQTTReturnCode (results kind).subscribe.code,
    { s with
      subscriptions :=
        if (results kind).subscribe.effect then
          registrationTopic stack params kind :: s.subscriptions
        else s.subscriptions
      calls := s.calls ++ [.subscribe kind] })

/-- The end of `SHADOW_RegisterCallbacks`: an entry without callbacks is cleared. -/
def clearEmpty (s : RegisterState) : RegisterState :=
  { s with entry := if s.entry.isEmpty then .unused else s.entry }

/-- The end of `prvRegisterCallback`, and what comes after it. -/
def fromStore (kind : CallbackKind) (subscribed : ShadowReturnCode × RegisterState) :
    RegisterState :=
  clearEmpty
    (if subscribed.1 = shadowSuccess then
      (registerKinds stack params results kind.later { subscribed.2 with
        entry := subscribed.2.entry.withCallback kind (params.callback kind) }).2
    else subscribed.2)

/-- `prvRegisterCallback` from the test of the new callback on, and what comes after it. -/
def fromSubscribe (kind : CallbackKind) (unsubscribed : ShadowReturnCode × RegisterState) :
    RegisterState :=
  fromStore stack params results kind
    (if (params.callback kind).isSome then subscribeReturns stack params results kind unsubscribed.2
    else unsubscribed)

/-- `prvRegisterCallback` from its beginning on, and what comes after it. -/
def fromUnsubscribe (kind : CallbackKind) (s : RegisterState) : RegisterState :=
  fromSubscribe stack params results kind
    (if (s.entry.callback kind).isSome then unsubscribeReturns stack params results kind s
    else (shadowSuccess, s))

/-- What a registration still does from a phase on. -/
def fromPhase (s : RegisterState) : RegistrationPhase → RegisterState
  | .found thingNameFound =>
      fromUnsubscribe stack params results .updated
        (if thingNameFound then s
        else { s with entry := { s.entry with inUse := true, thingName := params.thingName } })
  | .enter kind => fromUnsubscribe stack params results kind s
  | .unsubscribing kind =>
      fromSubscribe stack params results kind (unsubscribeReturns stack params results kind s)
  | .subscribing kind =>
      fromStore stack params results kind (subscribeReturns stack params results kind s)
  | .store kind returnCode => fromStore stack params results kind (returnCode, s)
  | .test => clearEmpty s
  | .clear => { s with entry := .unused }

end Rest

section Rest

variable {stack : ByteMemory} {params : ShadowCallbackParams}
  {results results' : CallbackKind → CallbackResults} {kind : CallbackKind}
  {kinds : List CallbackKind} {s : RegisterState}

/-- The callbacks from one on are registered from its beginning on. -/
theorem register_kinds_from :
    clearEmpty (registerKinds stack params results (kind :: kind.later) s).2 =
      fromUnsubscribe stack params results kind s := by
  have hsubscribed : fromUnsubscribe stack params results kind s =
      fromStore stack params results kind (subscribeNew stack params results kind
        (unsubscribeOld stack params results kind s).1
        (unsubscribeOld stack params results kind s).2) := rfl
  rw [hsubscribed]
  unfold registerKinds prvRegisterCallback fromStore
  simp only
  generalize subscribeNew stack params results kind _ _ = subscribed
  by_cases hcode : subscribed.1 = shadowSuccess
  · simp only [if_pos hcode]
  · simp only [if_neg hcode]

/-- Behind an Unsubscribe. -/
theorem from_unsubscribed (registration : Registration) (returnCode : ShadowReturnCode) :
    fromSubscribe stack registration.params results kind (returnCode, s) =
      fromPhase stack registration.params results s
        (registration.afterUnsubscribe kind returnCode) := by
  unfold fromSubscribe Registration.afterUnsubscribe
  split_ifs with hnew
  · rfl
  · rfl

/-- Behind the beginning of `prvRegisterCallback`. -/
theorem from_enter (registration : Registration) :
    fromPhase stack registration.params results s (.enter kind) =
      fromPhase stack registration.params results s
        (if (s.entry.callback kind).isSome then .unsubscribing kind
        else registration.afterUnsubscribe kind shadowSuccess) := by
  by_cases hold : (s.entry.callback kind).isSome = true
  · rw [if_pos hold]
    exact congrArg (fromSubscribe stack registration.params results kind) (if_pos hold)
  rw [if_neg hold]
  exact (congrArg (fromSubscribe stack registration.params results kind) (if_neg hold)).trans
    (from_unsubscribed registration shadowSuccess)

/-- Behind the change of a callback. -/
theorem from_stored :
    fromPhase stack params results s (.store kind shadowSuccess) =
      fromPhase stack params results
        { s with entry := s.entry.withCallback kind (params.callback kind) }
        (afterStore kind shadowSuccess) := by
  cases kind with
  | updated => exact register_kinds_from
  | deleted => exact register_kinds_from
  | delta => rfl

/-- Behind a callback that is not changed. -/
theorem from_failed {returnCode : ShadowReturnCode} (hcode : returnCode ≠ shadowSuccess) :
    fromPhase stack params results s (.store kind returnCode) =
      fromPhase stack params results s (afterStore kind returnCode) := by
  unfold afterStore
  rw [if_neg hcode]
  exact congrArg clearEmpty (if_neg hcode)

/-- Behind the last test, if no callback is left. -/
theorem from_empty (hempty : s.entry.isEmpty = true) :
    fromPhase stack params results s .test = fromPhase stack params results s .clear :=
  congrArg (fun entry => { s with entry }) (if_pos hempty)

/-- Only the results for the callbacks count that are registered. -/
theorem register_kinds_congr (hresults : ∀ kind ∈ kinds, results kind = results' kind) :
    registerKinds stack params results kinds s = registerKinds stack params results' kinds s := by
  induction kinds generalizing s with
  | nil => rfl
  | cons kind rest ih =>
      have hkind := hresults kind List.mem_cons_self
      have hsame : prvRegisterCallback stack params results kind s =
          prvRegisterCallback stack params results' kind s := by
        unfold prvRegisterCallback subscribeNew unsubscribeOld
        rw [hkind]
      unfold registerKinds
      rw [hsame]
      simp only [ih fun kind hmem => hresults kind (List.mem_cons_of_mem _ hmem)]

theorem later_ne {later : CallbackKind} (hlater : later ∈ kind.later) : later ≠ kind := by
  rintro rfl
  cases later with
  | updated => exact absurd hlater (by decide)
  | deleted => exact absurd hlater (by decide)
  | delta => exact absurd hlater (by decide)

theorem from_store_congr {subscribed : ShadowReturnCode × RegisterState}
    (hresults : ∀ later ∈ kind.later, results later = results' later) :
    fromStore stack params results kind subscribed =
      fromStore stack params results' kind subscribed := by
  unfold fromStore
  rw [register_kinds_congr hresults]

/-- The result of the Unsubscribe does not count behind it. -/
theorem from_unsubscribed_congr (registration : Registration) {returnCode : ShadowReturnCode}
    (hsubscribe : (results kind).subscribe = (results' kind).subscribe)
    (hresults : ∀ later ∈ kind.later, results later = results' later) :
    fromPhase stack params results s (registration.afterUnsubscribe kind returnCode) =
      fromPhase stack params results' s (registration.afterUnsubscribe kind returnCode) := by
  unfold Registration.afterUnsubscribe
  split_ifs with hnew
  · refine (from_store_congr hresults).trans ?_
    unfold subscribeReturns
    rw [hsubscribe]
    rfl
  · exact from_store_congr hresults

end Rest

/-! ## One event -/

/-- A registration of an entry leaves the entry, the subscriptions and the calls of a state behind,
whatever calls it has made before, and a catalog. -/
structure Registration.Leaves (registration : Registration) (stack : ByteMemory)
    (results : CallbackKind → CallbackResults) (s : CallbackSystem) (entry : CallbackCatalogEntry)
    (last : RegisterState) (catalog : List CallbackCatalogEntry) : Prop where
  found : s.catalog[registration.index]? = some entry
  finishes : ∀ before, fromPhase stack registration.params results
    ⟨entry, s.system.subscriptions, before⟩ registration.phase =
      { last with calls := before ++ last.calls }
  catalog : catalog = s.catalog.set registration.index last.entry

section Event

variable {environment : Environment} {stack : ByteMemory} {s s' : CallbackSystem}
  {registration : Registration} {entry : CallbackCatalogEntry} {phase : RegistrationPhase}
  {results : CallbackKind → CallbackResults} {last : RegisterState}
  {catalog : List CallbackCatalogEntry}

/-- A registration that goes on to another phase, from which it does the same. -/
theorem Registration.Leaves.enter {entry' : CallbackCatalogEntry}
    (hentry : s.catalog[registration.index]? = some entry)
    (hleaves : ({ registration with phase } : Registration).Leaves stack results s' entry' last
      catalog)
    (hcatalog : s'.catalog = s.catalog)
    (hsubscriptions : s'.system.subscriptions = s.system.subscriptions)
    (hsame : ∀ before, fromPhase stack registration.params results
        ⟨entry, s.system.subscriptions, before⟩ registration.phase =
      fromPhase stack registration.params results ⟨entry, s.system.subscriptions, before⟩ phase) :
    registration.Leaves stack results s entry last catalog := by
  obtain ⟨hfound, hfinishes, hset⟩ := hleaves
  rw [hcatalog] at hfound hset
  cases hentry.symm.trans hfound
  refine ⟨hentry, fun before => ?_, hset⟩
  rw [hsame, ← hsubscriptions]
  exact hfinishes before

/-- A registration that changes its entry and goes on to another phase. -/
theorem Registration.Leaves.modify {f : CallbackCatalogEntry → CallbackCatalogEntry}
    {entry' : CallbackCatalogEntry}
    (hentry : s.catalog[registration.index]? = some entry)
    (hleaves : ({ registration with phase } : Registration).Leaves stack results s' entry' last
      catalog)
    (hcatalog : s'.catalog = s.catalog.modify registration.index f)
    (hsubscriptions : s'.system.subscriptions = s.system.subscriptions)
    (hsame : ∀ before, fromPhase stack registration.params results
        ⟨entry, s.system.subscriptions, before⟩ registration.phase =
      fromPhase stack registration.params results ⟨f entry, s.system.subscriptions, before⟩
        phase) :
    registration.Leaves stack results s entry last catalog := by
  obtain ⟨hfound, hfinishes, hset⟩ := hleaves
  rw [hcatalog] at hfound hset
  replace hfound : (s.catalog.modify registration.index f)[registration.index]? = some entry' :=
    hfound
  rw [List.getElem?_modify_eq, hentry] at hfound
  cases hfound
  refine ⟨hentry, fun before => ?_, hset.trans ?_⟩
  · rw [hsame, ← hsubscriptions]
    exact hfinishes before
  · refine List.ext_getElem? fun i => ?_
    simp only [List.getElem?_set, List.getElem?_modify, List.length_modify]
    split_ifs <;> simp

/-- What a registration does next by itself is part of what it does. -/
theorem leaves_proceed {registration' : Registration} {entry' : CallbackCatalogEntry}
    (hproceeds : s.proceed 0 registration = some s')
    (halone : s.registrations = [registration]) (halone' : s'.registrations = [registration'])
    (hleaves : registration'.Leaves stack results s' entry' last catalog) :
    ∃ entry, registration.Leaves stack results s entry last catalog := by
  obtain ⟨entry, hentry, hproceeds⟩ := registration_proceed_cases hproceeds
  have hnext : ∀ phase, (s.enter 0 registration phase).registrations =
      [{ registration with phase }] := fun phase => by
    unfold CallbackSystem.enter
    rw [halone]
    rfl
  refine ⟨entry, ?_⟩
  -- One case a place where the registration stops by itself: it writes its entry or goes on behind
  -- the write.
  cases hproceeds with
  | found hphase =>
      cases halone'.symm.trans (hnext _)
      exact .enter hentry hleaves rfl rfl fun before => by rw [hphase]; rfl
  | mark hphase =>
      cases halone'.symm.trans (hnext _)
      exact .modify hentry hleaves rfl rfl fun before => by rw [hphase]; rfl
  | enter hphase =>
      cases halone'.symm.trans (hnext _)
      refine .enter hentry hleaves rfl rfl fun before => ?_
      rw [hphase]
      exact from_enter registration
  | store hphase =>
      cases halone'.symm.trans (hnext _)
      refine .modify hentry hleaves rfl rfl fun before => ?_
      rw [hphase]
      exact from_stored
  | keep hphase hcode =>
      cases halone'.symm.trans (hnext _)
      refine .enter hentry hleaves rfl rfl fun before => ?_
      rw [hphase]
      exact from_failed hcode
  | isEmpty hphase hempty =>
      cases halone'.symm.trans (hnext _)
      refine .enter hentry hleaves rfl rfl fun before => ?_
      rw [hphase]
      exact from_empty hempty
  -- Behind the last place there is no registration any more.
  | finish | clear =>
      rw [halone] at halone'
      cases halone'

/-- A registration that goes on behind a call. -/
theorem Registration.Leaves.returned {earlier : CallbackKind → CallbackResults}
    {call : CallbackCall}
    (hleaves : ({ registration with phase } : Registration).Leaves stack results s' entry last
      catalog)
    (hcatalog : s'.catalog = s.catalog)
    (hsame : ∀ before, fromPhase stack registration.params earlier
        ⟨entry, s.system.subscriptions, before⟩ registration.phase =
      fromPhase stack registration.params results
        ⟨entry, s'.system.subscriptions, before ++ [call]⟩ phase) :
    registration.Leaves stack earlier s entry { last with calls := call :: last.calls }
      catalog := by
  obtain ⟨hfound, hfinishes, hset⟩ := hleaves
  rw [hcatalog] at hfound hset
  refine ⟨hfound, fun before => ?_, hset⟩
  rw [hsame, hfinishes, List.append_assoc]
  rfl

/-- What an Unsubscribe returns is its result. -/
theorem leaves_unsubscribed {registration' : Registration} {kind : CallbackKind}
    {code : MQTTAgentReturnCode} {effect : Bool} (hphase : registration.phase = .unsubscribing kind)
    (hsuccess : code = .success → effect = true)
    (hreturns : s.mqttReturns stack 0 registration code effect = some s')
    (halone : s.registrations = [registration]) (halone' : s'.registrations = [registration'])
    (hleaves : registration'.Leaves stack results s' entry last catalog) :
    ∃ earlier, registration.Leaves stack earlier s entry
      { last with calls := .unsubscribe kind :: last.calls } catalog := by
  let earlier := Function.update results kind ⟨⟨code, effect, hsuccess⟩, (results kind).subscribe⟩
  have hkind : earlier kind = ⟨⟨code, effect, hsuccess⟩, (results kind).subscribe⟩ :=
    Function.update_self kind _ results
  have hlater : ∀ later ∈ kind.later, earlier later = results later := fun later hmem =>
    Function.update_of_ne (later_ne hmem) _ results
  unfold CallbackSystem.mqttReturns CallbackSystem.enter at hreturns
  rw [hphase, halone] at hreturns
  have hsubscriptions : s'.system.subscriptions =
      if effect then s.system.subscriptions.filter (· ≠ registration.topic stack kind)
      else s.system.subscriptions := by
    cases effect <;> cases hreturns <;> rfl
  have hcatalog : s'.catalog = s.catalog := by cases effect <;> cases hreturns <;> rfl
  have hnext : registration' = { registration with
      phase := registration.afterUnsubscribe kind (prvConvertMQTTReturnCode code) } := by
    cases effect <;> cases hreturns <;> exact (List.singleton_inj.mp halone').symm
  subst hnext
  refine ⟨earlier, hleaves.returned hcatalog fun before => ?_⟩
  rw [hphase, hsubscriptions, ← from_unsubscribed_congr registration (by rw [hkind]) hlater,
    ← from_unsubscribed]
  show fromSubscribe _ _ _ _ (unsubscribeReturns _ _ _ _ _) = _
  unfold unsubscribeReturns
  rw [hkind]
  rfl

/-- What a Subscribe returns is its result. -/
theorem leaves_subscribed {registration' : Registration} {kind : CallbackKind}
    {code : MQTTAgentReturnCode} {effect : Bool} (hphase : registration.phase = .subscribing kind)
    (hsuccess : code = .success → effect = true)
    (hreturns : s.mqttReturns stack 0 registration code effect = some s')
    (halone : s.registrations = [registration]) (halone' : s'.registrations = [registration'])
    (hleaves : registration'.Leaves stack results s' entry last catalog) :
    ∃ earlier, registration.Leaves stack earlier s entry
      { last with calls := .subscribe kind :: last.calls } catalog := by
  let earlier :=
    Function.update results kind ⟨(results kind).unsubscribe, ⟨code, effect, hsuccess⟩⟩
  have hkind : earlier kind = ⟨(results kind).unsubscribe, ⟨code, effect, hsuccess⟩⟩ :=
    Function.update_self kind _ results
  have hlater : ∀ later ∈ kind.later, earlier later = results later := fun later hmem =>
    Function.update_of_ne (later_ne hmem) _ results
  unfold CallbackSystem.mqttReturns CallbackSystem.enter at hreturns
  rw [hphase, halone] at hreturns
  have hsubscriptions : s'.system.subscriptions =
      if effect then registration.topic stack kind :: s.system.subscriptions
      else s.system.subscriptions := by
    cases effect <;> cases hreturns <;> rfl
  have hcatalog : s'.catalog = s.catalog := by cases effect <;> cases hreturns <;> rfl
  have hnext : registration' = { registration with
      phase := .store kind (prvConvertMQTTReturnCode code) } := by
    cases effect <;> cases hreturns <;> exact (List.singleton_inj.mp halone').symm
  subst hnext
  refine ⟨earlier, hleaves.returned hcatalog fun before => ?_⟩
  rw [hphase, hsubscriptions]
  show fromStore _ _ _ _ (subscribeReturns _ _ _ _ _) = fromStore _ _ _ _ _
  rw [from_store_congr hlater]
  unfold subscribeReturns
  rw [hkind]
  rfl

/-- What an MQTT call returns is the result of the call. -/
theorem leaves_return {registration' : Registration} {code : MQTTAgentReturnCode} {effect : Bool}
    (hsuccess : code = .success → effect = true)
    (hreturns : s.mqttReturns stack 0 registration code effect = some s')
    (halone : s.registrations = [registration]) (halone' : s'.registrations = [registration'])
    (hleaves : registration'.Leaves stack results s' entry last catalog) :
    ∃ earlier, registration.Leaves stack earlier s entry
      { last with calls := registration.callEnded (.mqttReturns 0 code effect) ++ last.calls }
      catalog := by
  unfold Registration.callEnded
  cases registration_return_cases hreturns with
  | unsubscribed hphase =>
      rw [hphase]
      exact leaves_unsubscribed hphase hsuccess hreturns halone halone' hleaves
  | subscribed hphase =>
      rw [hphase]
      exact leaves_subscribed hphase hsuccess hreturns halone halone' hleaves

/-- Events that are not the registration's own leave its entry and the subscriptions alone. -/
theorem leaves_shadow {event : Event} (hkeeps : event.KeepsSubscriptions)
    (hstep : callbackStep environment s (.shadow event) = some s') :
    s'.registrations = s.registrations ∧ s'.catalog = s.catalog ∧
      s'.system.subscriptions = s.system.subscriptions := by
  obtain ⟨-, system, labels, hsystem, rfl⟩ := callback_step_cases hstep
  have heffect := step_effect hsystem
  refine ⟨rfl, heffect.catalog, heffect.subscriptions.trans ?_⟩
  cases event with
  | mqttReturns code effect =>
      cases hkeeps
      rfl
  | connect | disconnect => exact absurd hkeeps id
  | start _ _ | proceed | timeOut | message _ => rfl

/-- What happens in an event while there is one registration. -/
theorem alone_step {event : CallbackEvent} {calls : List CallbackCall}
    (halone : s.registrations = [registration]) :
    aloneStep environment s event = some (s', calls) → calls = registration.callEnded event ∧
      match event with
      | .shadow event => event.KeepsSubscriptions ∧
          callbackStep environment s (.shadow event) = some s'
      | .register _ => False
      | .proceed _ => s.proceed 0 registration = some s'
      | .mqttReturns _ code effect => (code = .success → effect = true) ∧
          s.mqttReturns environment.stack 0 registration code effect = some s' := by
  intro hstep
  unfold aloneStep at hstep
  rw [halone] at hstep
  simp only at hstep
  split_ifs at hstep with hevent
  obtain ⟨_, hnext, hsame⟩ := Option.map_eq_some_iff.mp hstep
  cases hsame
  refine ⟨rfl, ?_⟩
  have hcases := callback_step_cases hnext
  cases event with
  | shadow event => exact ⟨hevent, hnext⟩
  | register params => exact hevent
  | proceed i =>
      obtain ⟨-, other, hother, hproceeds⟩ := hcases
      rw [halone] at hother
      cases i with
      | zero =>
          cases hother
          exact hproceeds
      | succ i => cases hother
  | mqttReturns i code effect =>
      obtain ⟨-, hsuccess, -, other, hother, hreturns⟩ := hcases
      rw [halone] at hother
      cases i with
      | zero =>
          cases hother
          exact ⟨hsuccess, hreturns⟩
      | succ i => cases hother

/-- An event while there is one registration is part of what the registration does. -/
theorem leaves_step {event : CallbackEvent} {registration' : Registration}
    {calls : List CallbackCall} (hstep : aloneStep environment s event = some (s', calls))
    (halone : s.registrations = [registration]) (halone' : s'.registrations = [registration'])
    (hleaves : registration'.Leaves environment.stack results s' entry last catalog) :
    ∃ earlier entry, registration.Leaves environment.stack earlier s entry
      { last with calls := calls ++ last.calls } catalog := by
  obtain ⟨rfl, hnext⟩ := alone_step halone hstep
  cases event with
  | shadow event =>
      obtain ⟨hregistrations, hcatalog, hsubscriptions⟩ := leaves_shadow hnext.1 hnext.2
      rw [hregistrations, halone] at halone'
      cases halone'
      obtain ⟨hfound, hfinishes, hset⟩ := hleaves
      rw [hcatalog] at hfound hset
      rw [hsubscriptions] at hfinishes
      exact ⟨results, entry, hfound, hfinishes, hset⟩
  | register params => exact absurd hnext id
  | proceed i =>
      obtain ⟨entry, hleaves⟩ := leaves_proceed hnext halone halone' hleaves
      exact ⟨results, entry, hleaves⟩
  | mqttReturns i code effect =>
      obtain ⟨earlier, hleaves⟩ := leaves_return hnext.1 hnext.2 halone halone' hleaves
      exact ⟨earlier, entry, hleaves⟩

/-- The last event of a registration, behind which there is none. -/
theorem leaves_last {event : CallbackEvent} {calls : List CallbackCall}
    (hstep : aloneStep environment s event = some (s', calls))
    (halone : s.registrations = [registration]) (hnone : s'.registrations = []) :
    ∃ entry lastEntry, registration.Leaves environment.stack results s entry
      ⟨lastEntry, s'.system.subscriptions, calls⟩ s'.catalog := by
  obtain ⟨rfl, hnext⟩ := alone_step halone hstep
  have hgoes : ∀ phase, (s.enter 0 registration phase).registrations ≠ [] := fun phase => by
    unfold CallbackSystem.enter
    rw [halone]
    exact List.cons_ne_nil _ _
  cases event with
  | shadow event =>
      rw [(leaves_shadow hnext.1 hnext.2).1, halone] at hnone
      cases hnone
  | register params => exact absurd hnext id
  | proceed i =>
      obtain ⟨entry, hentry, hproceeds⟩ := registration_proceed_cases hnext
      cases hproceeds with
      -- An entry that is still in use stays, and the registration is over.
      | finish hphase hempty =>
          refine ⟨entry, entry, hentry, fun before => ?_, ?_⟩
          · rw [hphase]
            simp [fromPhase, clearEmpty, hempty, Registration.callEnded]
          · obtain ⟨hindex, rfl⟩ := List.getElem?_eq_some_iff.mp hentry
            exact (List.set_getElem_self hindex).symm
      | clear hphase =>
          refine ⟨entry, .unused, hentry, fun before => ?_, ?_⟩
          · rw [hphase]
            simp [fromPhase, Registration.callEnded, CallbackSystem.modifyEntry]
          · exact (List.set_eq_modify _ _ s.catalog).symm
      | found | mark | enter | store | keep | isEmpty => exact absurd hnone (hgoes _)
  -- Behind a call the entry is still written, so no call is the last event.
  | mqttReturns i code effect =>
      cases registration_return_cases hnext.2 <;> cases effect <;> exact absurd hnone (hgoes _)

end Event

/-! ## A whole registration -/

theorem failure_no_effect (h : MQTTAgentReturnCode.failure = .success) : false = true := by
  cases h

/-- A call that fails and does nothing. -/
def failedCall : MQTTResult where
  code := .failure
  effect := false
  effect_of_success := failure_no_effect

/-- A run goes on only while there is one registration. -/
theorem alone_goes_on {environment : Environment} {s finished : CallbackSystem}
    {calls : List CallbackCall} (hrun : Steps (RegistersAlone environment) s calls finished) :
    (calls = [] ∧ s = finished) ∨ ∃ registration, s.registrations = [registration] := by
  cases hrun with
  | refl => exact .inl ⟨rfl, rfl⟩
  | cons hfirst _ =>
      obtain ⟨_, hevent⟩ := hfirst
      unfold aloneStep at hevent
      split at hevent
      · exact .inr ⟨_, by assumption⟩
      · cases hevent

/-- A run of one registration to its end is what it still does at its beginning. -/
theorem leaves_run {environment : Environment} {s finished : CallbackSystem}
    {calls : List CallbackCall} {registration : Registration}
    (hrun : Steps (RegistersAlone environment) s calls finished)
    (halone : s.registrations = [registration]) (hnone : finished.registrations = []) :
    ∃ results entry lastEntry, registration.Leaves environment.stack results s entry
      ⟨lastEntry, finished.system.subscriptions, calls⟩ finished.catalog := by
  -- On the run, from its end: each event adds what it does to what is left behind it.
  induction hrun generalizing registration with
  | refl =>
      rw [halone] at hnone
      cases hnone
  | cons hfirst hrest ih =>
      obtain ⟨event, hevent⟩ := hfirst
      rcases alone_goes_on hrest with ⟨rfl, rfl⟩ | ⟨next, hmiddle⟩
      · -- The results of calls that are not made may be any.
        obtain ⟨entry, lastEntry, hleaves⟩ := leaves_last hevent halone hnone
        rw [List.append_nil]
        exact ⟨fun _ => ⟨failedCall, failedCall⟩, entry, lastEntry, hleaves⟩
      · obtain ⟨results, entry, lastEntry, hleaves⟩ := ih hmiddle hnone
        obtain ⟨earlier, entry, hleaves⟩ := leaves_step hevent halone hmiddle hleaves
        exact ⟨earlier, entry, lastEntry, hleaves⟩

section Whole

variable {environment : Environment} {s begun finished : CallbackSystem}
  {params : ShadowCallbackParams} {calls : List CallbackCall}

/-- The beginning of a registration for which there is an entry. -/
theorem register_alone (hidle : s.registrations = [])
    (hentry : (s.register params).system.halted = false) :
    ∃ index thingNameFound,
      prvGetCallbackCatalogEntry s.catalog params.thingName = (some index, thingNameFound) ∧
      s.register params = { s with registrations := [⟨params, index, .found thingNameFound⟩] } := by
  unfold CallbackSystem.register at hentry ⊢
  cases hfound : prvGetCallbackCatalogEntry s.system.client.callbackCatalog params.thingName with
  | mk index thingNameFound =>
      rw [hfound] at hentry
      cases index with
      | none => cases hentry
      | some index =>
          refine ⟨index, thingNameFound, rfl, ?_⟩
          rw [hidle]
          rfl

/-- What a registration does from its beginning on is what `SHADOW_RegisterCallbacks` does. -/
theorem outcome_of_leaves {stack : ByteMemory} {results : CallbackKind → CallbackResults}
    {index : Nat} {thingNameFound : Bool} {entry : CallbackCatalogEntry} {last : RegisterState}
    {catalog : List CallbackCatalogEntry}
    (hfound : prvGetCallbackCatalogEntry s.catalog params.thingName = (some index, thingNameFound))
    (hleaves : (⟨params, index, .found thingNameFound⟩ : Registration).Leaves stack results s entry
      last catalog) :
    ∃ outcome,
      shadowRegisterCallbacks stack params results s.catalog s.system.subscriptions =
        some outcome ∧
      catalog = outcome.catalog ∧ last.subscriptions = outcome.subscriptions ∧
      last.calls = outcome.calls := by
  obtain ⟨hentry, hfinishes, hset⟩ := hleaves
  have hlast : clearEmpty (registerKinds stack params results CallbackKind.all
      ⟨if thingNameFound then entry
        else { entry with inUse := true, thingName := params.thingName },
        s.system.subscriptions, []⟩).2 = last := by
    show clearEmpty
      (registerKinds _ _ _ (CallbackKind.updated :: CallbackKind.updated.later) _).2 = _
    rw [register_kinds_from]
    refine Eq.trans ?_ (hfinishes [])
    cases thingNameFound <;> rfl
  unfold shadowRegisterCallbacks
  rw [hfound]
  simp only [Option.bind_some]
  rw [hentry]
  refine ⟨_, rfl, ?_, ?_, ?_⟩
  · rw [hset, ← hlast]
    rfl
  · rw [← hlast]
    rfl
  · rw [← hlast]
    rfl

end Whole

/-- A connected client with room for one Thing. -/
def connectedCallbacks : CallbackSystem :=
  { CallbackSystem.created 1 fun _ => 0 with
    system := { createdClient [.unused] fun _ => 0 with connected := true } }

/-- Callbacks for the updates and the deltas of the Thing `T`. -/
def twoCallbacks : ShadowCallbackParams :=
  { benchCallbacks with shadowDeltaCallback := some 6 }

/-- The first callback is registered and called, and the Subscribe for the other one fails. -/
def interruptedRegistration : List CallbackEvent :=
  [.proceed 0, .proceed 0, .mqttReturns 0 .success true, .proceed 0, updatedDocument, .proceed 0,
    .proceed 0, .proceed 0, .mqttReturns 0 .failure false, .proceed 0, .proceed 0]

end TivaAws.Shadow
