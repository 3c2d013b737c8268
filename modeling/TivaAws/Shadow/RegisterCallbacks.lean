import TivaAws.Shadow.CatalogEntries
import TivaAws.Shadow.WholeTopics

/-!
# Registering three callbacks

`SHADOW_RegisterCallbacks` from beginning to end, without other calls in between. Each callback
needs an Unsubscribe for the old one and a Subscribe for the new one, and the callback is changed if
the last of these calls succeeds. A failure ends the whole call, where the callbacks left over
should still be registered, and an Unsubscribe that succeeds before a Subscribe that fails leaves a
callback without its subscription. `register_callbacks_iff` tells exactly when nothing of this
happens.
-/

namespace TivaAws.Shadow

open ByteMemory
open Mqtt (FunctionPointer)

/-! ## The call -/

/-- What a call of the MQTT agent returns, and whether the broker has done it. There is no success
without an effect. -/
structure MQTTResult where
  code : MQTTAgentReturnCode
  effect : Bool
  effect_of_success : code = .success → effect = true

/-- What the calls for a callback return if they are made. -/
structure CallbackResults where
  unsubscribe : MQTTResult
  subscribe : MQTTResult

/-- A call of the MQTT agent for a callback. -/
inductive CallbackCall where
  | unsubscribe (kind : CallbackKind)
  | subscribe (kind : CallbackKind)
  deriving DecidableEq

/-- What the registration of a callback works on. -/
structure RegisterState where
  entry : CallbackCatalogEntry
  subscriptions : List (List UInt8)
  calls : List CallbackCall

section Register

variable (stack : ByteMemory) (params : ShadowCallbackParams)
  (results : CallbackKind → CallbackResults)

/-- The topic that `prvRegisterCallback` passes to the MQTT agent. -/
def registrationTopic (kind : CallbackKind) : List UInt8 :=
  let created := prvCreateTopic stack topicBufferLength kind.topicFormat params.thingName
  created.2.readBytes 0 created.1

/-- The Unsubscribe of `prvRegisterCallback`, if there is an old callback. -/
def unsubscribeOld (kind : CallbackKind) (s : RegisterState) : ShadowReturnCode × RegisterState :=
  if (s.entry.callback kind).isSome then
    let result := (results kind).unsubscribe
    (prvConvertMQTTReturnCode result.code,
      { s with
        subscriptions :=
          if result.effect then s.subscriptions.filter (· ≠ registrationTopic stack params kind)
          else s.subscriptions
        calls := s.calls ++ [.unsubscribe kind] })
  else (shadowSuccess, s)

/-- The Subscribe of `prvRegisterCallback`, if there is a new callback. -/
def subscribeNew (kind : CallbackKind) (returnCode : ShadowReturnCode) (s : RegisterState) :
    ShadowReturnCode × RegisterState :=
  if (params.callback kind).isSome then
    let result := (results kind).subscribe
    (prvConvertMQTTReturnCode result.code,
      { s with
        subscriptions :=
          if result.effect then registrationTopic stack params kind :: s.subscriptions
          else s.subscriptions
        calls := s.calls ++ [.subscribe kind] })
  else (returnCode, s)

/-- `prvRegisterCallback`. -/
def prvRegisterCallback (kind : CallbackKind) (s : RegisterState) :
    ShadowReturnCode × RegisterState :=
  let unsubscribed := unsubscribeOld stack params results kind s
  let subscribed := subscribeNew stack params results kind unsubscribed.1 unsubscribed.2
  if subscribed.1 = shadowSuccess then
    (subscribed.1, { subscribed.2 with
      entry := subscribed.2.entry.withCallback kind (params.callback kind) })
  else subscribed

/-- The calls of `prvRegisterCallback` in `SHADOW_RegisterCallbacks`, each made only if the one
before succeeds. -/
def registerKinds : List CallbackKind → RegisterState → ShadowReturnCode × RegisterState
  | [], s => (shadowSuccess, s)
  | kind :: rest, s =>
      let registered := prvRegisterCallback stack params results kind s
      if registered.1 = shadowSuccess then registerKinds rest registered.2 else registered

/-- What `SHADOW_RegisterCallbacks` returns and leaves behind. -/
structure RegisterOutcome where
  returnCode : ShadowReturnCode
  index : Nat
  catalog : List CallbackCatalogEntry
  subscriptions : List (List UInt8)
  calls : List CallbackCall

/-- `SHADOW_RegisterCallbacks`. It is asserted that there is an entry. -/
def shadowRegisterCallbacks (catalog : List CallbackCatalogEntry)
    (subscriptions : List (List UInt8)) : Option RegisterOutcome :=
  let found := prvGetCallbackCatalogEntry catalog params.thingName
  found.1.bind fun index => catalog[index]?.map fun entry =>
    let entry := if found.2 then entry
      else { entry with inUse := true, thingName := params.thingName }
    let registered := registerKinds stack params results CallbackKind.all
      ⟨entry, subscriptions, []⟩
    let last := registered.2.entry
    { returnCode := registered.1
      index
      catalog := catalog.set index (if last.isEmpty then .unused else last)
      subscriptions := registered.2.subscriptions
      calls := registered.2.calls }

end Register

/-! ## What it should do -/

/-- The callback of the entry that is found for a Thing. -/
def oldCallback (catalog : List CallbackCatalogEntry) (thingName : CString) (kind : CallbackKind) :
    Option FunctionPointer :=
  ((prvGetCallbackCatalogEntry catalog thingName).1.bind (catalog[·]?)).bind (·.callback kind)

/-- The callback that the outcome has stored. -/
def RegisterOutcome.callback (outcome : RegisterOutcome) (kind : CallbackKind) :
    Option FunctionPointer :=
  outcome.catalog[outcome.index]?.bind (·.callback kind)

section Callback

variable (old new : Option FunctionPointer) (results : CallbackResults)

/-- The calls that a callback needs succeed. -/
def Succeeds : Prop :=
  (old.isSome → results.unsubscribe.code = .success) ∧
    (new.isSome → results.subscribe.code = .success)

/-- The calls that a callback needs. -/
def callsFor (kind : CallbackKind) : List CallbackCall :=
  (if old.isSome then [.unsubscribe kind] else []) ++ (if new.isSome then [.subscribe kind] else [])

/-- What the last of the calls for a callback returns. -/
def lastCode : ShadowReturnCode :=
  if new.isSome then prvConvertMQTTReturnCode results.subscribe.code
  else if old.isSome then prvConvertMQTTReturnCode results.unsubscribe.code
  else shadowSuccess

/-- The calls for a callback leave the callback and the subscription in step. A single call that
succeeds is for a topic that fits, and one that fails has no effect on it. Behind an Unsubscribe
with an effect, the Subscribe has one as well. -/
def KeepsStep (fits : Prop) : Prop :=
  match old.isSome, new.isSome with
  | false, false => True
  | false, true =>
      if results.subscribe.code = .success then fits else results.subscribe.effect → ¬ fits
  | true, false =>
      if results.unsubscribe.code = .success then fits else results.unsubscribe.effect → ¬ fits
  | true, true => results.unsubscribe.effect → fits → results.subscribe.effect

end Callback

/-- The callbacks that are registered behind one. -/
def CallbackKind.later : CallbackKind → List CallbackKind
  | .updated => [.deleted, .delta]
  | .deleted => [.delta]
  | .delta => []

section Treats

variable (old new : CallbackKind → Option FunctionPointer)
  (results : CallbackKind → CallbackResults)

/-- The callbacks are treated one after the other, each on its own. -/
structure TreatsEach (name : List UInt8) (outcome : RegisterOutcome) : Prop where
  attempts : outcome.calls =
    CallbackKind.all.flatMap fun kind => callsFor (old kind) (new kind) kind
  stored : ∀ kind, Succeeds (old kind) (new kind) (results kind) →
    outcome.callback kind = new kind ∧
      (kind.topic name ∈ outcome.subscriptions ↔ (new kind).isSome = true)
  inStep : ∀ kind, ¬ Succeeds (old kind) (new kind) (results kind) →
    ((outcome.callback kind).isSome = true ↔ kind.topic name ∈ outcome.subscriptions)
  returns : outcome.returnCode = shadowSuccess ↔
    ∀ kind, Succeeds (old kind) (new kind) (results kind)

/-- No call that is needed comes behind a callback whose last call fails, each callback stays in
step with its subscription, and an Unsubscribe that fails before a Subscribe that succeeds is told
by the failure of another callback. -/
structure CallsSettle (name : List UInt8) : Prop where
  last : ∀ kind, lastCode (old kind) (new kind) (results kind) ≠ shadowSuccess →
    ∀ later ∈ kind.later, old later = none ∧ new later = none
  step : ∀ kind, KeepsStep (old kind) (new kind) (results kind) (kind.Fits name)
  told : ∀ kind, lastCode (old kind) (new kind) (results kind) = shadowSuccess →
    ¬ Succeeds (old kind) (new kind) (results kind) →
    ∃ other, lastCode (old other) (new other) (results other) ≠ shadowSuccess

end Treats

/-- The Thing has subscriptions for just the callbacks of its entry. -/
def InStep (catalog : List CallbackCatalogEntry) (thingName : CString)
    (subscriptions : List (List UInt8)) : Prop :=
  ∀ kind : CallbackKind, (oldCallback catalog thingName kind).isSome = true ↔
    kind.topic thingName.bytes ∈ subscriptions

/-- From any subscriptions that are in step, `SHADOW_RegisterCallbacks` returns and treats each
callback on its own. -/
def RegistersEach (stack : ByteMemory) (catalog : List CallbackCatalogEntry)
    (params : ShadowCallbackParams) (results : CallbackKind → CallbackResults) : Prop :=
  ∀ subscriptions : List (List UInt8), InStep catalog params.thingName subscriptions →
    ∃ outcome, shadowRegisterCallbacks stack params results catalog subscriptions = some outcome ∧
      TreatsEach (oldCallback catalog params.thingName) params.callback results
        params.thingName.bytes outcome

/-! ## One callback -/

section Callback

variable {stack : ByteMemory} {params : ShadowCallbackParams}
  {results : CallbackKind → CallbackResults} {kind kind' : CallbackKind} {s : RegisterState}

/-- The topic is the one of a callback of the Thing just when it fits. -/
theorem registration_topic_iff :
    registrationTopic stack params kind = kind'.topic params.thingName.bytes ↔
      kind = kind' ∧ kind.Fits params.thingName.bytes := by
  rw [show registrationTopic stack params kind = topicBytes kind.suffix params.thingName from
    registration_topic_bytes stack kind ⟨params, 0, .test⟩]
  constructor
  · intro htopic
    have hkind : kind = kind' := by
      unfold topicBytes at htopic
      cases hcreated : createdTopic kind.suffix params.thingName with
      | none =>
          rw [hcreated] at htopic
          exact absurd htopic.symm (callback_topic_ne_nil kind' _)
      | some topic =>
          rw [hcreated, Option.getD_some, (created_topic_some hcreated).2] at htopic
          exact (callback_topic_inj htopic).1
    subst hkind
    exact ⟨rfl, callback_fits_iff.mpr (topic_bytes_iff.mp htopic)⟩
  · rintro ⟨rfl, hfits⟩
    exact topic_bytes_iff.mpr (callback_fits_iff.mp hfits)

@[simp]
theorem callback_with_callback (callback : Option FunctionPointer) (entry : CallbackCatalogEntry) :
    (entry.withCallback kind callback).callback kind' =
      if kind' = kind then callback else entry.callback kind' := by
  cases kind <;> cases kind' <;> rfl

/-- Whether there is a subscription to the topic of a callback behind the calls for it. -/
def SubscribedAfter (old new : Option FunctionPointer) (results : CallbackResults)
    (fits subscribed : Prop) : Prop :=
  (new.isSome = true ∧ results.subscribe.effect = true ∧ fits) ∨
    (subscribed ∧ ¬ (old.isSome = true ∧ results.unsubscribe.effect = true ∧ fits))

/-- What `prvRegisterCallback` does: to the callback, to the subscriptions for the Thing, and the
calls that it makes. -/
structure Registered (params : ShadowCallbackParams) (results : CallbackResults)
    (kind : CallbackKind) (s : RegisterState) (registered : ShadowReturnCode × RegisterState) :
    Prop where
  code : registered.1 = lastCode (s.entry.callback kind) (params.callback kind) results
  callback : registered.2.entry.callback kind =
    if registered.1 = shadowSuccess then params.callback kind else s.entry.callback kind
  otherCallback : ∀ other, other ≠ kind →
    registered.2.entry.callback other = s.entry.callback other
  subscribed : kind.topic params.thingName.bytes ∈ registered.2.subscriptions ↔
    SubscribedAfter (s.entry.callback kind) (params.callback kind) results
      (kind.Fits params.thingName.bytes) (kind.topic params.thingName.bytes ∈ s.subscriptions)
  otherSubscribed : ∀ other, other ≠ kind →
    (CallbackKind.topic other params.thingName.bytes ∈ registered.2.subscriptions ↔
      other.topic params.thingName.bytes ∈ s.subscriptions)
  calls : registered.2.calls =
    s.calls ++ callsFor (s.entry.callback kind) (params.callback kind) kind

theorem unsubscribe_old_spec :
    let unsubscribed := unsubscribeOld stack params results kind s
    unsubscribed.1 = lastCode (s.entry.callback kind) none (results kind) ∧
      unsubscribed.2.entry = s.entry ∧
      (∀ other : CallbackKind, other.topic params.thingName.bytes ∈ unsubscribed.2.subscriptions ↔
        other.topic params.thingName.bytes ∈ s.subscriptions ∧
          ¬ (other = kind ∧ (s.entry.callback kind).isSome = true ∧
            (results kind).unsubscribe.effect = true ∧ kind.Fits params.thingName.bytes)) ∧
      unsubscribed.2.calls = s.calls ++ callsFor (s.entry.callback kind) none kind := by
  have htopic := @registration_topic_iff stack params kind
  unfold unsubscribeOld
  by_cases hold : (s.entry.callback kind).isSome = true
  · rw [if_pos hold]
    refine ⟨by simp [lastCode, hold], rfl, fun other => ?_, by simp [callsFor, hold]⟩
    by_cases heffect : (results kind).unsubscribe.effect = true
    · simp only [heffect, if_true, List.mem_filter, decide_eq_true_eq, hold, true_and, ne_eq]
      rw [@eq_comm _ (other.topic _), htopic, @eq_comm _ kind other]
    · simp [heffect]
  · rw [if_neg hold]
    exact ⟨by simp [lastCode, hold], rfl, fun other => by simp [hold], by simp [callsFor, hold]⟩

theorem subscribe_new_spec (returnCode : ShadowReturnCode) :
    let subscribed := subscribeNew stack params results kind returnCode s
    subscribed.1 = (if (params.callback kind).isSome then
        lastCode none (params.callback kind) (results kind) else returnCode) ∧
      subscribed.2.entry = s.entry ∧
      (∀ other : CallbackKind, other.topic params.thingName.bytes ∈ subscribed.2.subscriptions ↔
        (other = kind ∧ (params.callback kind).isSome = true ∧
            (results kind).subscribe.effect = true ∧ kind.Fits params.thingName.bytes) ∨
          other.topic params.thingName.bytes ∈ s.subscriptions) ∧
      subscribed.2.calls = s.calls ++ callsFor none (params.callback kind) kind := by
  have htopic := @registration_topic_iff stack params kind
  unfold subscribeNew
  by_cases hnew : (params.callback kind).isSome = true
  · rw [if_pos hnew, if_pos hnew]
    refine ⟨by simp [lastCode, hnew], rfl, fun other => ?_, by simp [callsFor, hnew]⟩
    by_cases heffect : (results kind).subscribe.effect = true
    · simp only [heffect, if_true, List.mem_cons, hnew, true_and]
      rw [@eq_comm _ (other.topic _), htopic, @eq_comm _ kind other]
    · simp [heffect]
  · rw [if_neg hnew, if_neg hnew]
    exact ⟨rfl, rfl, fun other => by simp [hnew], by simp [callsFor, hnew]⟩

theorem register_callback_registered :
    Registered params (results kind) kind s (prvRegisterCallback stack params results kind s) := by
  obtain ⟨hcode, hentry, hsubscribed, hcalls⟩ :=
    @unsubscribe_old_spec stack params results kind s
  obtain ⟨hcode', hentry', hsubscribed', hcalls'⟩ :=
    @subscribe_new_spec stack params results kind
      (unsubscribeOld stack params results kind s).2 (unsubscribeOld stack params results kind s).1
  unfold prvRegisterCallback
  simp only
  generalize subscribeNew stack params results kind _ _ = subscribed at *
  generalize unsubscribeOld stack params results kind s = unsubscribed at *
  have hlast : subscribed.1 = lastCode (s.entry.callback kind) (params.callback kind)
      (results kind) := by
    rw [hcode', hcode]
    -- The code of the Unsubscribe counts only if there is no new callback to subscribe for.
    by_cases hnew : (params.callback kind).isSome = true <;> simp [lastCode, hnew]
  have hafter : ∀ other : CallbackKind,
      other.topic params.thingName.bytes ∈ subscribed.2.subscriptions ↔
        if other = kind then SubscribedAfter (s.entry.callback kind) (params.callback kind)
            (results kind) (kind.Fits params.thingName.bytes)
            (kind.topic params.thingName.bytes ∈ s.subscriptions)
          else other.topic params.thingName.bytes ∈ s.subscriptions := by
    intro other
    rw [hsubscribed', hsubscribed]
    unfold SubscribedAfter
    split_ifs with hother
    · subst hother
      simp
    · simp [hother]
  have hmade : subscribed.2.calls =
      s.calls ++ callsFor (s.entry.callback kind) (params.callback kind) kind := by
    rw [hcalls', hcalls]
    simp [callsFor]
  have hold : subscribed.2.entry = s.entry := hentry'.trans hentry
  -- The callback is stored behind the two calls, and only if the last one has succeeded.
  split_ifs with hsuccess
  · refine ⟨hlast, ?_, fun other hother => ?_, ?_, fun other hother => ?_, hmade⟩
    · show (subscribed.2.entry.withCallback kind _).callback kind = _
      rw [callback_with_callback, if_pos rfl, if_pos hsuccess]
    · show (subscribed.2.entry.withCallback kind _).callback other = _
      rw [callback_with_callback, if_neg hother, hold]
    · exact (hafter kind).trans (iff_of_eq (if_pos rfl))
    · exact (hafter other).trans (iff_of_eq (if_neg hother))
  · refine ⟨hlast, ?_, fun other _ => ?_, ?_, fun other hother => ?_, hmade⟩
    · rw [if_neg hsuccess, hold]
    · rw [hold]
    · exact (hafter kind).trans (iff_of_eq (if_pos rfl))
    · exact (hafter other).trans (iff_of_eq (if_neg hother))

end Callback

/-! ## All callbacks -/

section Kinds

variable {stack : ByteMemory} {params : ShadowCallbackParams}
  {results : CallbackKind → CallbackResults} {kind : CallbackKind} {kinds : List CallbackKind}
  {old : CallbackKind → Option FunctionPointer}

/-- The callbacks for which `prvRegisterCallback` is called. -/
def attempted (last : CallbackKind → ShadowReturnCode) : List CallbackKind → List CallbackKind
  | [] => []
  | kind :: rest => kind :: if last kind = shadowSuccess then attempted last rest else []

theorem mem_of_mem_attempted {last : CallbackKind → ShadowReturnCode}
    (h : kind ∈ attempted last kinds) : kind ∈ kinds := by
  induction kinds with
  | nil => exact h
  | cons first rest ih =>
      unfold attempted at h
      obtain rfl | hrest := List.mem_cons.mp h
      · exact List.mem_cons_self
      · split at hrest
        · exact List.mem_cons_of_mem _ (ih hrest)
        · cases hrest

/-- What is done for the callbacks that are reached, in this order, and for no others. -/
theorem register_kinds_spec (hnodup : kinds.Nodup) {s : RegisterState}
    (hold : ∀ kind ∈ kinds, s.entry.callback kind = old kind) :
    let last := fun kind => lastCode (old kind) (params.callback kind) (results kind)
    let registered := registerKinds stack params results kinds s
    (registered.1 = shadowSuccess ↔ ∀ kind ∈ kinds, last kind = shadowSuccess) ∧
      registered.2.calls = s.calls ++ (attempted last kinds).flatMap (fun kind =>
        callsFor (old kind) (params.callback kind) kind) ∧
      (∀ kind ∈ attempted last kinds,
        (registered.2.entry.callback kind =
          if last kind = shadowSuccess then params.callback kind else old kind) ∧
        (kind.topic params.thingName.bytes ∈ registered.2.subscriptions ↔
          SubscribedAfter (old kind) (params.callback kind) (results kind)
            (kind.Fits params.thingName.bytes)
            (kind.topic params.thingName.bytes ∈ s.subscriptions))) ∧
      ∀ kind ∉ attempted last kinds,
        registered.2.entry.callback kind = s.entry.callback kind ∧
        (kind.topic params.thingName.bytes ∈ registered.2.subscriptions ↔
          kind.topic params.thingName.bytes ∈ s.subscriptions) := by
  intro last
  -- On the kinds that are left. The first of them changes nothing that the others read.
  induction kinds generalizing s with
  | nil =>
      exact ⟨iff_of_true rfl fun _ h => absurd h List.not_mem_nil, (List.append_nil _).symm,
        fun _ h => absurd h List.not_mem_nil, fun _ _ => ⟨rfl, Iff.rfl⟩⟩
  | cons first rest ih =>
      have hfirst := @register_callback_registered stack params results first s
      rw [List.nodup_cons] at hnodup
      rw [List.forall_mem_cons] at hold
      unfold registerKinds attempted
      simp only
      generalize prvRegisterCallback stack params results first s = registered at *
      have hlast : registered.1 = last first := by
        rw [hfirst.code, hold.1]
      have hcallback := hfirst.callback
      have hsubscribed := hfirst.subscribed
      have hcalls := hfirst.calls
      rw [hold.1, hlast] at hcallback
      rw [hold.1] at hsubscribed hcalls
      by_cases hsuccess : registered.1 = shadowSuccess
      · have hne : ∀ kind ∈ rest, kind ≠ first := fun kind hmem h => hnodup.1 (h ▸ hmem)
        obtain ⟨hrestCode, hrestCalls, hreached, hothers⟩ := @ih hnodup.2 registered.2
          fun kind hmem => (hfirst.otherCallback kind (hne kind hmem)).trans (hold.2 kind hmem)
        rw [if_pos hsuccess, if_pos (hlast ▸ hsuccess)]
        refine ⟨?_, ?_, fun kind hmem => ?_, fun kind hnot => ?_⟩
        · rw [hrestCode, List.forall_mem_cons, and_iff_right (hlast ▸ hsuccess)]
        · rw [hrestCalls, hcalls, List.flatMap_cons, List.append_assoc]
        · obtain rfl | hmem := List.mem_cons.mp hmem
          · obtain ⟨hkept, hkeptTopic⟩ :=
              hothers kind fun hmem => hnodup.1 (mem_of_mem_attempted hmem)
            exact ⟨hkept.trans hcallback, hkeptTopic.trans hsubscribed⟩
          · obtain ⟨hdone, htopic⟩ := hreached kind hmem
            refine ⟨hdone, htopic.trans ?_⟩
            rw [SubscribedAfter, SubscribedAfter,
              hfirst.otherSubscribed kind (hne kind (mem_of_mem_attempted hmem))]
        · rw [List.mem_cons, not_or] at hnot
          obtain ⟨hkept, hkeptTopic⟩ := hothers kind hnot.2
          exact ⟨hkept.trans (hfirst.otherCallback kind hnot.1),
            hkeptTopic.trans (hfirst.otherSubscribed kind hnot.1)⟩
      -- No further kind is attempted behind the first failure.
      · rw [if_neg hsuccess, if_neg (hlast ▸ hsuccess)]
        refine ⟨iff_of_false hsuccess fun h => hsuccess (hlast.trans (h first List.mem_cons_self)),
          ?_, fun kind hmem => ?_, fun kind hnot => ?_⟩
        · rw [hcalls, List.flatMap_singleton]
        · cases List.mem_singleton.mp hmem
          exact ⟨hcallback, hsubscribed⟩
        · have hne : kind ≠ first := fun h => hnot (List.mem_singleton.mpr h)
          exact ⟨hfirst.otherCallback kind hne, hfirst.otherSubscribed kind hne⟩

theorem forall_kind_iff {P : CallbackKind → Prop} :
    (∀ kind, P kind) ↔ P .updated ∧ P .deleted ∧ P .delta :=
  ⟨fun h => ⟨h _, h _, h _⟩, fun ⟨hupdated, hdeleted, hdelta⟩ kind => by
    cases kind
    · exact hupdated
    · exact hdeleted
    · exact hdelta⟩

theorem calls_for_nil_iff {old new : Option FunctionPointer} :
    callsFor old new kind = [] ↔ old = none ∧ new = none := by
  cases old <;> cases new <;> simp [callsFor]

/-- All calls that are needed are made just when none is needed behind a failure. -/
theorem attempts_iff {new : CallbackKind → Option FunctionPointer}
    {last : CallbackKind → ShadowReturnCode} :
    (attempted last CallbackKind.all).flatMap (fun kind => callsFor (old kind) (new kind) kind) =
        CallbackKind.all.flatMap (fun kind => callsFor (old kind) (new kind) kind) ↔
      ∀ kind, last kind ≠ shadowSuccess → ∀ later ∈ kind.later,
        old later = none ∧ new later = none := by
  rw [forall_kind_iff]
  unfold CallbackKind.all
  by_cases hupdated : last .updated = shadowSuccess
  · by_cases hdeleted : last .deleted = shadowSuccess
    · simp [attempted, CallbackKind.later, hupdated, hdeleted]
    · simp [attempted, CallbackKind.later, hupdated, hdeleted, calls_for_nil_iff]
  · simp only [attempted, hupdated, if_false, List.flatMap_cons, List.flatMap_nil, List.append_nil,
      List.self_eq_append_right, List.append_eq_nil_iff, calls_for_nil_iff,
      CallbackKind.later, List.forall_mem_cons]
    tauto

/-- A callback that is not reached needs no calls if all calls that are needed are made. -/
theorem idle_of_not_attempted {new : CallbackKind → Option FunctionPointer}
    {last : CallbackKind → ShadowReturnCode}
    (h : ∀ kind, last kind ≠ shadowSuccess →
      ∀ later ∈ kind.later, old later = none ∧ new later = none)
    (hnot : kind ∉ attempted last CallbackKind.all) : old kind = none ∧ new kind = none := by
  unfold CallbackKind.all attempted at hnot
  by_cases hupdated : last .updated = shadowSuccess
  · by_cases hdeleted : last .deleted = shadowSuccess
    · refine absurd ?_ hnot
      cases kind <;> simp [attempted, hupdated, hdeleted]
    · cases kind with
      | updated => simp at hnot
      | deleted => simp [attempted, hupdated] at hnot
      | delta => exact h .deleted hdeleted .delta (by simp [CallbackKind.later])
  · cases kind with
    | updated => simp at hnot
    | deleted => exact h .updated hupdated .deleted (by simp [CallbackKind.later])
    | delta => exact h .updated hupdated .delta (by simp [CallbackKind.later])

end Kinds

theorem last_code_success {old new : Option FunctionPointer} {results : CallbackResults}
    (h : Succeeds old new results) : lastCode old new results = shadowSuccess := by
  unfold lastCode
  split_ifs with hnew hold
  · exact convert_eq_success_iff.mpr (h.2 hnew)
  · exact convert_eq_success_iff.mpr (h.1 hold)
  · rfl

/-- The calls for a callback do what they should just when they leave it in step. -/
theorem keeps_step_iff {old new : Option FunctionPointer} {results : CallbackResults}
    {fits subscribed : Prop} (hstep : old.isSome = true ↔ subscribed)
    {after : Option FunctionPointer}
    (hafter : after = if lastCode old new results = shadowSuccess then new else old) :
    ((Succeeds old new results → after = new ∧
        (SubscribedAfter old new results fits subscribed ↔ new.isSome = true)) ∧
      (¬ Succeeds old new results →
        (after.isSome = true ↔ SubscribedAfter old new results fits subscribed))) ↔
      KeepsStep old new results fits := by
  obtain ⟨⟨ucode, ueffect, hu⟩, ⟨scode, seffect, hs⟩⟩ := results
  subst hafter
  cases old with
  | none =>
      cases new with
      | none => simp [Succeeds, SubscribedAfter, KeepsStep, lastCode, ← hstep]
      | some new =>
          by_cases hsucceeds : scode = .success
          · simp [Succeeds, SubscribedAfter, KeepsStep, lastCode, ← hstep, hsucceeds, hs,
              convert_eq_success_iff]
          · simp [Succeeds, SubscribedAfter, KeepsStep, lastCode, ← hstep, hsucceeds,
              convert_eq_success_iff]
  | some old =>
      cases new with
      | none =>
          by_cases hsucceeds : ucode = .success
          · simp [Succeeds, SubscribedAfter, KeepsStep, lastCode, ← hstep, hsucceeds, hu,
              convert_eq_success_iff]
          · simp [Succeeds, SubscribedAfter, KeepsStep, lastCode, ← hstep, hsucceeds,
              convert_eq_success_iff]
      | some new =>
          by_cases hsucceeds : scode = .success
          · simp [Succeeds, SubscribedAfter, KeepsStep, lastCode, ← hstep, hsucceeds, hs,
              convert_eq_success_iff]
            tauto
          · simp [Succeeds, SubscribedAfter, KeepsStep, lastCode, ← hstep, hsucceeds,
              convert_eq_success_iff]
            tauto

/-! ## The whole call -/

section Outcome

variable {stack : ByteMemory} {catalog : List CallbackCatalogEntry} {params : ShadowCallbackParams}
  {results : CallbackKind → CallbackResults} {subscriptions : List (List UInt8)}

/-- An entry whose callbacks are all `NULL` loses none when it is cleared. -/
theorem callback_cleared (kind : CallbackKind) (entry : CallbackCatalogEntry) :
    (if entry.isEmpty then .unused else entry).callback kind = entry.callback kind := by
  split_ifs with hempty
  · unfold CallbackCatalogEntry.isEmpty at hempty
    simp only [Bool.and_eq_true, Option.isNone_iff_eq_none] at hempty
    obtain ⟨⟨hupdated, hdelta⟩, hdeleted⟩ := hempty
    cases kind with
    | updated => exact hupdated.symm
    | deleted => exact hdeleted.symm
    | delta => exact hdelta.symm
  · rfl

/-- With an entry, the call returns what the registrations of the three callbacks lead to. -/
theorem register_outcome (hroom : ∃ entry ∈ catalog,
      entry.isFor params.thingName.bytes = true ∨ entry.inUse = false)
    (subscriptions : List (List UInt8)) :
    ∃ (outcome : RegisterOutcome) (s : RegisterState),
      shadowRegisterCallbacks stack params results catalog subscriptions = some outcome ∧
      (∀ kind, s.entry.callback kind = oldCallback catalog params.thingName kind) ∧
      s.subscriptions = subscriptions ∧ s.calls = [] ∧
      let registered := registerKinds stack params results CallbackKind.all s
      outcome.returnCode = registered.1 ∧ outcome.subscriptions = registered.2.subscriptions ∧
        outcome.calls = registered.2.calls ∧
        ∀ kind, outcome.callback kind = registered.2.entry.callback kind := by
  obtain ⟨index, thingNameFound, entry, hget, hentry⟩ := found_of_room hroom
  unfold shadowRegisterCallbacks oldCallback
  simp only [hget, Option.bind_some, hentry, Option.map_some]
  refine ⟨_, ⟨if thingNameFound then entry
      else { entry with inUse := true, thingName := params.thingName }, subscriptions, []⟩, rfl,
    fun kind => ?_, rfl, rfl, rfl, rfl, rfl, fun kind => ?_⟩
  · cases thingNameFound <;> cases kind <;> rfl
  · obtain ⟨hindex, -⟩ := List.getElem?_eq_some_iff.mp hentry
    show ((catalog.set index _)[index]?).bind _ = _
    rw [List.getElem?_set_self hindex]
    exact callback_cleared kind _

/-- Without an entry, the call does not return. -/
theorem room_of_outcome {outcome : RegisterOutcome}
    (h : shadowRegisterCallbacks stack params results catalog subscriptions = some outcome) :
    ∃ entry ∈ catalog, entry.isFor params.thingName.bytes = true ∨ entry.inUse = false := by
  unfold shadowRegisterCallbacks at h
  obtain ⟨index, hindex, -⟩ := Option.bind_eq_some_iff.mp h
  exact room_of_found hindex

/-- There are such subscriptions for every catalog. -/
theorem exists_in_step (catalog : List CallbackCatalogEntry) (thingName : CString) :
    ∃ subscriptions, InStep catalog thingName subscriptions := by
  refine ⟨(CallbackKind.all.filter fun kind => (oldCallback catalog thingName kind).isSome).map
    fun kind => kind.topic thingName.bytes, fun kind => ?_⟩
  rw [List.mem_map]
  constructor
  · exact fun hold => ⟨kind, List.mem_filter.mpr ⟨kind.mem_all, hold⟩, rfl⟩
  · rintro ⟨other, hother, htopic⟩
    cases (callback_topic_inj htopic).1
    exact (List.mem_filter.mp hother).2

/-- What the call returns and leaves behind, as long as no call is needed behind a failure. -/
theorem outcome_spec {outcome : RegisterOutcome}
    (houtcome : shadowRegisterCallbacks stack params results catalog subscriptions = some outcome) :
    let old := oldCallback catalog params.thingName
    let last := fun kind => lastCode (old kind) (params.callback kind) (results kind)
    (outcome.returnCode = shadowSuccess ↔ ∀ kind, last kind = shadowSuccess) ∧
      (outcome.calls = CallbackKind.all.flatMap
          (fun kind => callsFor (old kind) (params.callback kind) kind) ↔
        ∀ kind, last kind ≠ shadowSuccess →
          ∀ later ∈ kind.later, old later = none ∧ params.callback later = none) ∧
      ((∀ kind, last kind ≠ shadowSuccess →
          ∀ later ∈ kind.later, old later = none ∧ params.callback later = none) →
        ∀ kind, outcome.callback kind =
            (if last kind = shadowSuccess then params.callback kind else old kind) ∧
          (kind.topic params.thingName.bytes ∈ outcome.subscriptions ↔
            SubscribedAfter (old kind) (params.callback kind) (results kind)
              (kind.Fits params.thingName.bytes)
              (kind.topic params.thingName.bytes ∈ subscriptions))) := by
  intro old last
  obtain ⟨outcome', s, hsome, hold, hsubscriptions, hnone, hcode, htopics, hcalls, hcallbacks⟩ :=
    @register_outcome stack catalog params results (room_of_outcome houtcome) subscriptions
  cases houtcome.symm.trans hsome
  obtain ⟨hreturns, hmade, hreached, hothers⟩ := @register_kinds_spec stack params results
    CallbackKind.all old (by decide) s fun kind _ => hold kind
  rw [hnone, List.nil_append] at hmade
  refine ⟨?_, ?_, fun hlast kind => ?_⟩
  · rw [hcode, hreturns]
    exact ⟨fun h kind => h kind kind.mem_all, fun h kind _ => h kind⟩
  · rw [hcalls, hmade]
    exact attempts_iff
  · rw [hcallbacks, htopics, ← hsubscriptions]
    -- A kind that is not attempted must be one with no callback, old or new.
    by_cases hmem : kind ∈ attempted last CallbackKind.all
    · exact hreached kind hmem
    · obtain ⟨holdNone, hnewNone⟩ := idle_of_not_attempted hlast hmem
      obtain ⟨hkept, hkeptTopic⟩ := hothers kind hmem
      refine ⟨?_, ?_⟩
      · rw [hkept, hold kind, hnewNone]
        split_ifs
        · exact holdNone
        · rfl
      · rw [hkeptTopic, SubscribedAfter, holdNone, hnewNone]
        simp

/-- The callbacks are treated each on its own just when no call is needed behind a failure, and each
keeps in step. -/
theorem treats_each_iff {outcome : RegisterOutcome}
    (houtcome : shadowRegisterCallbacks stack params results catalog subscriptions = some outcome)
    (hstep : InStep catalog params.thingName subscriptions) :
    TreatsEach (oldCallback catalog params.thingName) params.callback results
        params.thingName.bytes outcome ↔
      CallsSettle (oldCallback catalog params.thingName) params.callback results
        params.thingName.bytes := by
  obtain ⟨hcode, hcalls, hkinds⟩ := outcome_spec houtcome
  constructor
  · intro htreats
    have hlast := hcalls.mp htreats.attempts
    refine ⟨hlast, fun kind => ?_, fun kind hsuccess hnot => ?_⟩
    · obtain ⟨hcallback, htopic⟩ := hkinds hlast kind
      refine (keeps_step_iff (hstep kind) hcallback).mp ⟨fun hsucceeds => ?_, fun hnot => ?_⟩
      · rw [← htopic]
        exact htreats.stored kind hsucceeds
      · rw [← htopic]
        exact htreats.inStep kind hnot
    · by_contra hall
      simp only [not_exists, not_not] at hall
      exact hnot (htreats.returns.mp (hcode.mpr hall) kind)
  · intro hsettle
    have hkind := fun kind => (keeps_step_iff (hstep kind)
      (hkinds hsettle.last kind).1).mpr (hsettle.step kind)
    refine ⟨hcalls.mpr hsettle.last, fun kind hsucceeds => ?_, fun kind hnot => ?_, ?_⟩
    · rw [(hkinds hsettle.last kind).2]
      exact (hkind kind).1 hsucceeds
    · rw [(hkinds hsettle.last kind).2]
      exact (hkind kind).2 hnot
    · rw [hcode]
      constructor
      · intro hall kind
        by_contra hnot
        obtain ⟨other, hother⟩ := hsettle.told kind (hall kind) hnot
        exact hother (hall other)
      · exact fun hall kind => last_code_success (hall kind)

end Outcome

/-- `SHADOW_RegisterCallbacks` treats each callback on its own just when the catalog has an entry
for the Thing and the calls settle. -/
theorem register_callbacks_iff (stack : ByteMemory) (catalog : List CallbackCatalogEntry)
    (params : ShadowCallbackParams) (results : CallbackKind → CallbackResults) :
    RegistersEach stack catalog params results ↔
      (∃ entry ∈ catalog, entry.isFor params.thingName.bytes = true ∨ entry.inUse = false) ∧
        CallsSettle (oldCallback catalog params.thingName) params.callback results
          params.thingName.bytes := by
  constructor
  · intro hregisters
    obtain ⟨subscriptions, hstep⟩ := exists_in_step catalog params.thingName
    obtain ⟨outcome, houtcome, htreats⟩ := hregisters subscriptions hstep
    exact ⟨room_of_outcome houtcome, (treats_each_iff houtcome hstep).mp htreats⟩
  · rintro ⟨hroom, hsettle⟩ subscriptions hstep
    obtain ⟨outcome, -, houtcome, -⟩ := register_outcome hroom subscriptions
    exact ⟨outcome, houtcome, (treats_each_iff houtcome hstep).mpr hsettle⟩

/-- The call of the MQTT agent for the document callback fails, and all others would succeed. -/
def firstSubscribeFails (kind : CallbackKind) : CallbackResults where
  unsubscribe := ⟨.success, true, fun _ => rfl⟩
  subscribe := if kind = .updated then ⟨.failure, false, fun h => nomatch h⟩
    else ⟨.success, true, fun _ => rfl⟩

/-- The callback for deletions is then not registered. -/
theorem later_callback_not_attempted :
    ¬ RegistersEach (fun _ => 0) [.unused] { benchCallbacks with shadowDeletedCallback := some 6 }
      firstSubscribeFails := by
  intro hregisters
  obtain ⟨outcome, houtcome, htreats⟩ := hregisters [] fun kind => by
    cases kind <;> decide
  have hcalls := congrArg (Option.map RegisterOutcome.calls) houtcome
  rw [Option.map_some, htreats.attempts] at hcalls
  revert hcalls
  decide +kernel

end TivaAws.Shadow
