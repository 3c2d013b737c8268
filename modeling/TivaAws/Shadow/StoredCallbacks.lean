import Mathlib.Data.List.Nodup
import Mathlib.Data.List.Perm.Basic
import TivaAws.Shadow.Registered

/-!
# Callbacks that are not stored

`prvShadowMQTTCallback` calls the callback that it finds in the catalog, whether or not there is
one. `SHADOW_RegisterCallbacks` subscribes before it stores the callback, a Subscribe that fails or
the operation that shares the topic may leave a subscription without a callback behind, and a Thing
name with wild cards gets the messages of other Things. These are the only ways to a call of `NULL`,
apart from topics that are misread and calls that overlap.
-/

namespace TivaAws.Shadow

open ByteMemory Runs
open scoped List
open Mqtt (TopicMatches)

variable {environment : Environment}

/-! ## Callbacks that may be missing -/

/-- The registration subscribes to the topic of a callback, or has done so, and has not stored the
callback. -/
def RegistrationPhase.AwaitsStore (kind : CallbackKind) (phase : RegistrationPhase) : Prop :=
  phase = .subscribing kind ∨ phase = .store kind shadowSuccess

instance (kind : CallbackKind) (phase : RegistrationPhase) : Decidable (phase.AwaitsStore kind) :=
  inferInstanceAs (Decidable (_ ∨ _))

/-- A topic matches a filter with wild cards that is subscribed to, as for a Thing named `+`. -/
def CallbackSystem.MatchesWild (stack : ByteMemory) (s : CallbackSystem) (topic : List UInt8) :
    Prop :=
  ∃ filter ∈ s.filters stack, filter ≠ topic ∧ TopicMatches topic filter

instance (stack : ByteMemory) (s : CallbackSystem) (topic : List UInt8) :
    Decidable (s.MatchesWild stack topic) :=
  inferInstanceAs
    (Decidable (∃ filter ∈ s.filters stack, filter ≠ topic ∧ TopicMatches topic filter))

/-- There may be a subscription for a callback of a Thing without the callback: it is not stored
yet, or the subscription comes from an operation or from a Subscribe that has failed, or it is one
with wild cards. -/
def Exposed (stack : ByteMemory) (s : CallbackSystem) (kind : CallbackKind) (name : List UInt8) :
    Prop :=
  (∃ registration ∈ s.registrations,
      registration.thing = name ∧ registration.phase.AwaitsStore kind) ∨
    kind.topic name ∈ s.leftover ∨ s.OperationSubscribing (kind.topic name) ∨
    s.MatchesWild stack (kind.topic name)

instance (stack : ByteMemory) (s : CallbackSystem) (kind : CallbackKind) (name : List UInt8) :
    Decidable (Exposed stack s kind name) :=
  inferInstanceAs (Decidable ((∃ registration ∈ s.registrations,
    registration.thing = name ∧ registration.phase.AwaitsStore kind) ∨
      kind.topic name ∈ s.leftover ∨ s.OperationSubscribing (kind.topic name) ∨
      s.MatchesWild stack (kind.topic name)))

/-- A message for a callback that is not stored would be on its topic, which has no subscription
without a callback. A registration works on an entry and a Thing of its own, whose name has less
than 2^16 characters. -/
def CallbacksReady (environment : Environment) (s : CallbackSystem) : CallbackEvent → Prop
  | .shadow (.message publish) =>
      matchOperationInProgress publish s.system.client = none →
        ∀ found ∈ prvMatchCallbackTopic environment s.system.client publish.topicPointer
            publish.topicLength,
          ∀ kind ∈ CallbackKind.all, found.2 = kind.operationName →
            found.1.callback kind = none →
            publish.topicBytes = kind.topic found.1.thingName.bytes ∧
              ¬ Exposed environment.stack s kind found.1.thingName.bytes
  | .register params =>
      params.thingName.bytes.length < 2 ^ 16 ∧
        ∀ registration ∈ s.registrations, registration.thing ≠ params.thingName.bytes ∧
          some registration.index ≠
            (prvGetCallbackCatalogEntry s.system.client.callbackCatalog params.thingName).1
  | _ => True

instance (environment : Environment) (s : CallbackSystem) :
    (event : CallbackEvent) → Decidable (CallbacksReady environment s event)
  | .shadow (.message publish) => inferInstanceAs (Decidable
      (matchOperationInProgress publish s.system.client = none →
        ∀ found ∈ prvMatchCallbackTopic environment s.system.client publish.topicPointer
            publish.topicLength,
          ∀ kind ∈ CallbackKind.all, found.2 = kind.operationName →
            found.1.callback kind = none →
            publish.topicBytes = kind.topic found.1.thingName.bytes ∧
              ¬ Exposed environment.stack s kind found.1.thingName.bytes))
  | .register params => inferInstanceAs (Decidable (params.thingName.bytes.length < 2 ^ 16 ∧
        ∀ registration ∈ s.registrations, registration.thing ≠ params.thingName.bytes ∧
          some registration.index ≠
            (prvGetCallbackCatalogEntry s.system.client.callbackCatalog params.thingName).1))
  | .proceed _ | .mqttReturns _ _ _ | .shadow .proceed | .shadow (.start _ _)
  | .shadow (.mqttReturns _ _) | .shadow .timeOut | .shadow .connect | .shadow .disconnect =>
      isTrue trivial

/-- Every message that is dispatched is on the topic of its callback, which has no subscription
without a callback. This asks more than `CallbacksReady`, whether or not the callback is stored. -/
def DispatchesUnexposed (environment : Environment) (s : CallbackSystem) : CallbackEvent → Prop
  | .shadow (.message publish) =>
      ∀ found ∈ prvMatchCallbackTopic environment s.system.client publish.topicPointer
          publish.topicLength,
        ∀ kind ∈ CallbackKind.all, found.2 = kind.operationName →
          publish.topicBytes = kind.topic found.1.thingName.bytes ∧
            ¬ Exposed environment.stack s kind found.1.thingName.bytes
  | event => CallbacksReady environment s event

theorem DispatchesUnexposed.ready {s : CallbackSystem} {event : CallbackEvent}
    (h : DispatchesUnexposed environment s event) : CallbacksReady environment s event := by
  cases event with
  | shadow event =>
      cases event with
      | message publish =>
          exact fun _ found hfound kind hkind hname _ => h found hfound kind hkind hname
      | _ => exact trivial
  | _ => exact h

/-- No callback has been called that is `NULL`. -/
def NoNullCallback (s : CallbackSystem) : Prop :=
  ∀ operation, ShadowOutput.notify none operation ∉ s.outputs

/-! ## Invariant -/

section Invariant

variable {s s' : CallbackSystem} {registration moved : Registration} {kind : CallbackKind}
  {name : List UInt8}

/-- The catalog of the client. -/
abbrev CallbackSystem.catalog (s : CallbackSystem) : List CallbackCatalogEntry :=
  s.system.client.callbackCatalog

/-- A subscription to the topic does not come from a registration that has succeeded. -/
def CallbackSystem.OnlyLeftover (s : CallbackSystem) (topic : List UInt8) : Prop :=
  topic ∈ s.system.subscriptions → topic ∈ s.leftover

/-- The catalog has a callback of a Thing. -/
def CallbackSystem.HasCallback (s : CallbackSystem) (kind : CallbackKind) (name : List UInt8) :
    Prop :=
  ∃ (i : Nat) (entry : CallbackCatalogEntry), s.catalog[i]? = some entry ∧
    entry.isFor name = true ∧ (entry.callback kind).isSome = true

/-- A registration has subscribed to the topic of a callback and is going to store it. -/
def CallbackSystem.WillStore (s : CallbackSystem) (kind : CallbackKind) (name : List UInt8) :
    Prop :=
  ∃ registration ∈ s.registrations, registration.thing = name ∧
    registration.phase = .store kind shadowSuccess ∧
    (registration.params.callback kind).isSome = true

/-- Where a subscription for a callback may come from. -/
def CallbackSystem.Sourced (s : CallbackSystem) (kind : CallbackKind) (name : List UInt8) : Prop :=
  kind.topic name ∈ s.system.subscriptions →
    kind.topic name ∈ s.leftover ∨
      (kind.Fits name ∧ (s.HasCallback kind name ∨ s.WillStore kind name))

/-- What holds of the entry of a registration. -/
def EntryHolds (s : CallbackSystem) (registration : Registration) (entry : CallbackCatalogEntry) :
    RegistrationPhase → Prop
  | .found false =>
      entry.inUse = false ∧
        ∀ (j : Nat) (other : CallbackCatalogEntry), s.catalog[j]? = some other →
          other.isFor registration.thing = false
  | .found true | .enter _ | .unsubscribing _ | .test => entry.isFor registration.thing = true
  | .subscribing kind =>
      entry.isFor registration.thing = true ∧ (registration.params.callback kind).isSome = true
  | .store kind returnCode =>
      entry.isFor registration.thing = true ∧
        (returnCode = shadowSuccess → registration.params.callback kind = none →
          s.OnlyLeftover (kind.topic registration.thing))
  | .clear => entry.isFor registration.thing = true ∧ entry.isEmpty = true

/-- What holds of a registration. -/
def RegistrationHolds (s : CallbackSystem) (registration : Registration) : Prop :=
  registration.thing.length < 2 ^ 16 ∧
    ∃ entry, s.entry registration = some entry ∧ EntryHolds s registration entry registration.phase

/-- A Thing has at most one entry in the catalog. -/
def Distinct (catalog : List CallbackCatalogEntry) : Prop :=
  ∀ (name : List UInt8) (i j : Nat) (entry other : CallbackCatalogEntry),
    catalog[i]? = some entry → catalog[j]? = some other →
    entry.isFor name = true → other.isFor name = true → i = j

/-- Between any two steps every subscription for a callback comes from somewhere, and registrations
work on entries and Things of their own. -/
structure Backed (s : CallbackSystem) : Prop where
  distinct : Distinct s.catalog
  indices : (s.registrations.map Registration.index).Nodup
  things : (s.registrations.map Registration.thing).Nodup
  holds : ∀ registration ∈ s.registrations, RegistrationHolds s registration
  sourced : ∀ kind name, s.Sourced kind name
  silent : NoNullCallback s

theorem is_for_unique {entry : CallbackCatalogEntry} {name name' : List UInt8}
    (h : entry.isFor name = true) (h' : entry.isFor name' = true) : name = name' := by
  unfold CallbackCatalogEntry.isFor at h h'
  simp only [Bool.and_eq_true, beq_iff_eq] at h h'
  exact h.2.symm.trans h'.2

/-- The entry of a registration is for its Thing or not in use. -/
theorem EntryHolds.is_for_or_unused {entry : CallbackCatalogEntry} {phase : RegistrationPhase}
    (h : EntryHolds s registration entry phase) :
    entry.isFor registration.thing = true ∨
      (entry.inUse = false ∧
        ∀ (j : Nat) (other : CallbackCatalogEntry), s.catalog[j]? = some other →
          other.isFor registration.thing = false) := by
  cases phase with
  | found thingNameFound =>
      cases thingNameFound with
      | true => exact .inl h
      | false => exact .inr h
  | enter => exact .inl h
  | unsubscribing => exact .inl h
  | subscribing => exact .inl h.1
  | store => exact .inl h.1
  | test => exact .inl h
  | clear => exact .inl h.1

/-- What holds of an entry does not depend on the rest of the catalog, as long as the Thing gets no
other entry, nor on the subscriptions, as long as those for the Thing come from nowhere else. -/
theorem EntryHolds.mono {entry : CallbackCatalogEntry} {phase : RegistrationPhase}
    (h : EntryHolds s registration entry phase)
    (hnone : (∀ (j : Nat) (other : CallbackCatalogEntry), s.catalog[j]? = some other →
        other.isFor registration.thing = false) →
      ∀ (j : Nat) (other : CallbackCatalogEntry), s'.catalog[j]? = some other →
        other.isFor registration.thing = false)
    (honly : ∀ kind : CallbackKind, s.OnlyLeftover (kind.topic registration.thing) →
      s'.OnlyLeftover (kind.topic registration.thing)) :
    EntryHolds s' registration entry phase := by
  cases phase with
  | found thingNameFound =>
      cases thingNameFound with
      | true => exact h
      | false => exact ⟨h.1, hnone h.2⟩
  | store kind returnCode => exact ⟨h.1, fun hcode hnew => honly kind (h.2 hcode hnew)⟩
  | enter kind => exact h
  | unsubscribing kind => exact h
  | subscribing kind => exact h
  | test => exact h
  | clear => exact h

/-- No other entry is for the Thing of a registration. -/
theorem RegistrationHolds.alone {entry : CallbackCatalogEntry} {j : Nat}
    (hholds : RegistrationHolds s registration) (hdistinct : Distinct s.catalog)
    (hj : j ≠ registration.index) (hentry : s.catalog[j]? = some entry) :
    entry.isFor registration.thing = false := by
  obtain ⟨-, own, hown, hphase⟩ := hholds
  obtain hfor | ⟨-, hnone⟩ := hphase.is_for_or_unused
  · by_contra hother
    exact hj (hdistinct _ _ _ _ _ hentry hown (by simpa using hother) hfor)
  · exact hnone j entry hentry

/-! ## Steps of a registration -/

/-- A registration goes on or returns, and changes nothing but its own entry and the subscriptions
for its own Thing. -/
structure Moves (s s' : CallbackSystem) (registration : Registration)
    (moved : Option Registration) : Prop where
  registrations : ∃ others, s.registrations ~ registration :: others ∧
    s'.registrations ~ moved.toList ++ others
  same : ∀ next ∈ moved, next.index = registration.index ∧ next.thing = registration.thing
  elsewhere : ∀ j, j ≠ registration.index → s'.catalog[j]? = s.catalog[j]?
  here : ∀ (entry : CallbackCatalogEntry) (name : List UInt8),
    s'.catalog[registration.index]? = some entry → entry.isFor name = true →
    name = registration.thing
  topics : ∀ (kind : CallbackKind) (name : List UInt8), name ≠ registration.thing →
    kind.topic name ∈ s'.system.subscriptions →
    kind.topic name ∈ s.system.subscriptions ∧
      (kind.topic name ∈ s.leftover → kind.topic name ∈ s'.leftover)
  outputs : s'.outputs = s.outputs

theorem Moves.mem_before {moved : Option Registration} (hmoves : Moves s s' registration moved) :
    registration ∈ s.registrations := by
  obtain ⟨others, hfrom, -⟩ := hmoves.registrations
  exact hfrom.mem_iff.mpr List.mem_cons_self

/-- The other registrations are the same, and work on other entries and Things. -/
theorem Moves.others {moved : Option Registration} {other : Registration} (hbacked : Backed s)
    (hmoves : Moves s s' registration moved) (hmem : other ∈ s'.registrations)
    (hne : other ∉ moved) :
    other ∈ s.registrations ∧ other.index ≠ registration.index ∧
      other.thing ≠ registration.thing := by
  obtain ⟨others, hfrom, hto⟩ := hmoves.registrations
  have hother : other ∈ others := by
    obtain hmoved | hother := List.mem_append.mp (hto.mem_iff.mp hmem)
    · exact absurd (Option.mem_toList.mp hmoved) hne
    · exact hother
  have hindices := ((hfrom.map Registration.index).nodup_iff.mp hbacked.indices)
  have hthings := ((hfrom.map Registration.thing).nodup_iff.mp hbacked.things)
  rw [List.map_cons, List.nodup_cons] at hindices hthings
  refine ⟨hfrom.mem_iff.mpr (List.mem_cons_of_mem _ hother), fun hsame => ?_, fun hsame => ?_⟩
  · exact hindices.1 (List.mem_map.mpr ⟨other, hother, hsame⟩)
  · exact hthings.1 (List.mem_map.mpr ⟨other, hother, hsame⟩)

/-- An entry for another Thing is where it was. -/
theorem Moves.entry_other {moved : Option Registration} {entry : CallbackCatalogEntry} {j : Nat}
    (hmoves : Moves s s' registration moved) (hentry : s'.catalog[j]? = some entry)
    (hfor : entry.isFor name = true) (hname : name ≠ registration.thing) :
    s.catalog[j]? = some entry := by
  have hj : j ≠ registration.index := by
    intro hj
    subst hj
    exact hname (hmoves.here entry name hentry hfor)
  rw [← hmoves.elsewhere j hj]
  exact hentry

theorem Moves.distinct {moved : Option Registration} (hbacked : Backed s)
    (hmoves : Moves s s' registration moved) : Distinct s'.catalog := by
  have hholds := hbacked.holds registration hmoves.mem_before
  -- An entry for the Thing of the registration is its own.
  have hown : ∀ (j : Nat) (entry : CallbackCatalogEntry), s'.catalog[j]? = some entry →
      entry.isFor registration.thing = true → j = registration.index := by
    intro j entry hentry hfor
    by_contra hj
    rw [hmoves.elsewhere j hj] at hentry
    rw [hholds.alone hbacked.distinct hj hentry] at hfor
    cases hfor
  intro name i j entry other hentry hother hfor hfor'
  by_cases hname : name = registration.thing
  · subst hname
    exact (hown i entry hentry hfor).trans (hown j other hother hfor').symm
  · exact hbacked.distinct name i j entry other (hmoves.entry_other hentry hfor hname)
      (hmoves.entry_other hother hfor' hname) hfor hfor'

/-- What holds of another registration still holds. -/
theorem Moves.holds {moved : Option Registration} {other : Registration}
    (hmoves : Moves s s' registration moved) (hindex : other.index ≠ registration.index)
    (hthing : other.thing ≠ registration.thing) (hholds : RegistrationHolds s other) :
    RegistrationHolds s' other := by
  obtain ⟨hshort, entry, hentry, hphase⟩ := hholds
  refine ⟨hshort, entry, (hmoves.elsewhere _ hindex).trans hentry,
    hphase.mono (fun hnone j candidate hcandidate => ?_) fun kind honly hmem => ?_⟩
  · by_contra hfor
    have hfor : candidate.isFor other.thing = true := by simpa using hfor
    rw [hnone j candidate (hmoves.entry_other hcandidate hfor hthing)] at hfor
    cases hfor
  · obtain ⟨hmem, hleftover⟩ := hmoves.topics kind other.thing hthing hmem
    exact hleftover (honly hmem)

/-- A subscription for a callback of another Thing still comes from somewhere. -/
theorem Moves.sourced {moved : Option Registration} (hbacked : Backed s)
    (hmoves : Moves s s' registration moved) (hname : name ≠ registration.thing) :
    s'.Sourced kind name := by
  intro hmem
  obtain ⟨hmem, hleftover⟩ := hmoves.topics kind name hname hmem
  obtain hleft | ⟨hfits, hsource⟩ := hbacked.sourced kind name hmem
  · exact .inl (hleftover hleft)
  refine .inr ⟨hfits, ?_⟩
  obtain ⟨i, entry, hentry, hfor, hcallback⟩ | ⟨other, hother, hthing, hphase⟩ := hsource
  · refine .inl ⟨i, entry, ?_, hfor, hcallback⟩
    obtain ⟨-, own, hown, hphase⟩ := hbacked.holds registration hmoves.mem_before
    have hi : i ≠ registration.index := by
      intro hi
      subst hi
      cases hown.symm.trans hentry
      obtain hself | ⟨hunused, -⟩ := hphase.is_for_or_unused
      · exact hname (is_for_unique hfor hself)
      · unfold CallbackCatalogEntry.isFor at hfor
        rw [hunused] at hfor
        cases hfor
    rw [hmoves.elsewhere i hi]
    exact hentry
  · refine .inr ⟨other, ?_, hthing, hphase⟩
    obtain ⟨others, hfrom, hto⟩ := hmoves.registrations
    refine hto.mem_iff.mpr (List.mem_append_right _ ?_)
    refine List.mem_of_ne_of_mem (fun heq => ?_) (hfrom.mem_iff.mp hother)
    subst heq
    exact hname hthing.symm

theorem Moves.nodup {β : Type*} {moved : Option Registration} (f : Registration → β)
    (hmoves : Moves s s' registration moved) (hsame : ∀ next ∈ moved, f next = f registration)
    (h : (s.registrations.map f).Nodup) : (s'.registrations.map f).Nodup := by
  obtain ⟨others, hfrom, hto⟩ := hmoves.registrations
  have hcons := (hfrom.map f).nodup_iff.mp h
  rw [(hto.map f).nodup_iff]
  cases moved with
  | none => exact (List.nodup_cons.mp hcons).2
  | some next =>
      show (f next :: others.map f).Nodup
      rw [hsame next rfl]
      exact hcons

/-- A step of a registration keeps the invariant if what holds of it holds in its next phase and the
subscriptions for its own Thing come from somewhere. -/
theorem Backed.moves {moved : Option Registration} (hbacked : Backed s)
    (hmoves : Moves s s' registration moved)
    (hholds : ∀ next ∈ moved, RegistrationHolds s' next)
    (hsourced : ∀ kind, s'.Sourced kind registration.thing) : Backed s' where
  distinct := hmoves.distinct hbacked
  indices := hmoves.nodup _ (fun next hnext => (hmoves.same next hnext).1) hbacked.indices
  things := hmoves.nodup _ (fun next hnext => (hmoves.same next hnext).2) hbacked.things
  holds other hmem := by
    by_cases hmoved : other ∈ moved
    · exact hholds other hmoved
    · obtain ⟨hold, hindex, hthing⟩ := hmoves.others hbacked hmem hmoved
      exact hmoves.holds hindex hthing (hbacked.holds other hold)
  sourced kind name := by
    by_cases hname : name = registration.thing
    · rw [hname]
      exact hsourced kind
    · exact hmoves.sourced hbacked hname
  silent := by
    unfold NoNullCallback
    rw [hmoves.outputs]
    exact hbacked.silent

/-- A registration that goes on to another phase. -/
theorem set_registrations {i : Nat} (next : Registration)
    (hregistration : s.registrations[i]? = some registration) :
    ∃ others, s.registrations ~ registration :: others ∧
      s.registrations.set i next ~ (some next).toList ++ others := by
  obtain ⟨hi, rfl⟩ := List.getElem?_eq_some_iff.mp hregistration
  exact ⟨s.registrations.eraseIdx i, (List.getElem_cons_eraseIdx_perm hi).symm,
    List.set_perm_cons_eraseIdx hi next⟩

/-- A registration that returns. -/
theorem erase_registrations {i : Nat}
    (hregistration : s.registrations[i]? = some registration) :
    ∃ others, s.registrations ~ registration :: others ∧
      s.registrations.eraseIdx i ~ (none : Option Registration).toList ++ others := by
  obtain ⟨hi, rfl⟩ := List.getElem?_eq_some_iff.mp hregistration
  exact ⟨s.registrations.eraseIdx i, (List.getElem_cons_eraseIdx_perm hi).symm, .refl _⟩

/-- The entry of a registration is for no other Thing. -/
theorem RegistrationHolds.here {entry : CallbackCatalogEntry}
    (hholds : RegistrationHolds s registration)
    (hentry : s.catalog[registration.index]? = some entry) (hfor : entry.isFor name = true) :
    name = registration.thing := by
  obtain ⟨-, own, hown, hphase⟩ := hholds
  cases hown.symm.trans hentry
  obtain hself | ⟨hunused, -⟩ := hphase.is_for_or_unused
  · exact is_for_unique hfor hself
  · unfold CallbackCatalogEntry.isFor at hfor
    rw [hunused] at hfor
    cases hfor

/-- Only the registration itself stores callbacks of its Thing. -/
theorem Backed.will_store (hbacked : Backed s) (hmem : registration ∈ s.registrations)
    (h : s.WillStore kind registration.thing) :
    registration.phase = .store kind shadowSuccess ∧
      (registration.params.callback kind).isSome = true := by
  obtain ⟨other, hother, hthing, hphase⟩ := h
  cases List.inj_on_of_nodup_map hbacked.things hother hmem hthing
  exact hphase

/-- Only the entry of a registration has callbacks of its Thing. -/
theorem Backed.own_callback {entry : CallbackCatalogEntry} (hbacked : Backed s)
    (hentry : s.catalog[registration.index]? = some entry)
    (hfor : entry.isFor registration.thing = true) (h : s.HasCallback kind registration.thing) :
    (entry.callback kind).isSome = true := by
  obtain ⟨i, other, hother, hotherFor, hcallback⟩ := h
  cases hbacked.distinct _ _ _ _ _ hentry hother hfor hotherFor
  cases hentry.symm.trans hother
  exact hcallback

/-- Before a registration stores a callback, a subscription for it is left over or the callback is
there. -/
theorem Backed.before_store (hbacked : Backed s) (hmem : registration ∈ s.registrations)
    (hphase : registration.phase ≠ .store kind shadowSuccess)
    (h : kind.topic registration.thing ∈ s.system.subscriptions) :
    kind.topic registration.thing ∈ s.leftover ∨
      (kind.Fits registration.thing ∧ s.HasCallback kind registration.thing) := by
  obtain hleft | ⟨hfits, hcallback | hstore⟩ := hbacked.sourced kind _ h
  · exact .inl hleft
  · exact .inr ⟨hfits, hcallback⟩
  · exact absurd (hbacked.will_store hmem hstore).1 hphase

/-- A registration that changes nothing but its phase. -/
theorem enter_moves {i : Nat} (hbacked : Backed s) (phase : RegistrationPhase)
    (hregistration : s.registrations[i]? = some registration) :
    Moves s (s.enter i registration phase) registration (some { registration with phase }) where
  registrations := set_registrations _ hregistration
  same next hnext := by
    cases hnext
    exact ⟨rfl, rfl⟩
  elsewhere _ _ := rfl
  here entry name hentry hfor :=
    (hbacked.holds registration (List.mem_of_getElem? hregistration)).here hentry hfor
  topics _ _ _ hmem := ⟨hmem, id⟩
  outputs := rfl

/-- A registration that changes its entry. -/
theorem modify_moves {moved : Option Registration}
    {f : CallbackCatalogEntry → CallbackCatalogEntry}
    (hregistrations : ∃ others, s.registrations ~ registration :: others ∧
      s'.registrations ~ moved.toList ++ others)
    (hsame : ∀ next ∈ moved, next.index = registration.index ∧ next.thing = registration.thing)
    (hsystem : s'.system = (s.modifyEntry registration f).system)
      (hleftover : s'.leftover = s.leftover)
    (houtputs : s'.outputs = s.outputs)
    (hhere : ∀ entry name, s.entry registration = some entry → (f entry).isFor name = true →
      name = registration.thing) : Moves s s' registration moved where
  registrations := hregistrations
  same := hsame
  elsewhere j hj := by
    show s'.system.client.callbackCatalog[j]? = _
    rw [hsystem]
    exact List.getElem?_modify_ne f _ hj.symm
  here entry name hentry hfor := by
    replace hentry : s'.system.client.callbackCatalog[registration.index]? = some entry := hentry
    rw [hsystem] at hentry
    have hmodified := (List.getElem?_modify_eq f registration.index s.catalog).symm.trans hentry
    obtain ⟨old, hold, rfl⟩ := Option.map_eq_some_iff.mp hmodified
    exact hhere old name hold hfor
  topics kind name _ hmem := by
    rw [hsystem] at hmem
    rw [hleftover]
    exact ⟨hmem, id⟩
  outputs := houtputs

/-- The entry of a registration after a change. -/
theorem modify_entry {entry : CallbackCatalogEntry}
    (f : CallbackCatalogEntry → CallbackCatalogEntry) (hentry : s.entry registration = some entry) :
    (s.modifyEntry registration f).entry registration = some (f entry) := by
  have hmodified := List.getElem?_modify_eq f registration.index s.catalog
  rw [show s.catalog[registration.index]? = some entry from hentry] at hmodified
  exact hmodified

/-- A registration that goes on without a change to the catalog and at the broker, and has not
subscribed. -/
theorem Backed.enter {i : Nat} {entry : CallbackCatalogEntry} {phase : RegistrationPhase}
    (hbacked : Backed s) (hregistration : s.registrations[i]? = some registration)
    (hentry : s.entry registration = some entry)
    (hphase : ∀ kind, registration.phase ≠ .store kind shadowSuccess)
    (hnext : EntryHolds s registration entry phase) : Backed (s.enter i registration phase) := by
  have hmem := List.mem_of_getElem? hregistration
  refine hbacked.moves (enter_moves hbacked phase hregistration) (fun next hmoved => ?_)
    (fun kind hsubscribed => ?_)
  · cases hmoved
    refine ⟨(hbacked.holds registration hmem).1, entry, hentry, ?_⟩
    cases phase with
    | found thingNameFound => cases thingNameFound <;> exact hnext
    | _ => exact hnext
  · obtain hleft | ⟨hfits, hcallback⟩ := hbacked.before_store hmem (hphase kind) hsubscribed
    · exact .inl hleft
    · exact .inr ⟨hfits, .inl hcallback⟩

/-- The entry of a new Thing is marked. -/
theorem Backed.mark {i : Nat} {entry : CallbackCatalogEntry} (hbacked : Backed s)
    (hregistration : s.registrations[i]? = some registration)
    (hphase : registration.phase = .found false) (hentry : s.entry registration = some entry) :
    Backed ((s.enter i registration (.enter .updated)).modifyEntry registration fun entry =>
      { entry with inUse := true, thingName := registration.params.thingName }) := by
  have hmem := List.mem_of_getElem? hregistration
  obtain ⟨hshort, own, hown, hnone⟩ := hbacked.holds registration hmem
  rw [hphase] at hnone
  have hmarked : ∀ entry : CallbackCatalogEntry,
      { entry with inUse := true, thingName := registration.params.thingName }.isFor
        registration.thing = true := fun entry => by
    simp [CallbackCatalogEntry.isFor, Registration.thing]
  refine hbacked.moves (modify_moves (set_registrations _ hregistration) (fun next hnext => ?_) rfl
    rfl rfl fun entry name _ hfor => is_for_unique hfor (hmarked entry)) (fun next hmoved => ?_)
    (fun kind hsubscribed => ?_)
  · cases hnext
    exact ⟨rfl, rfl⟩
  · cases hmoved
    exact ⟨hshort, _, modify_entry _ hentry, hmarked entry⟩
  · obtain hleft | ⟨-, j, other, hother, hfor, -⟩ :=
      hbacked.before_store hmem (fun h => by cases hphase.symm.trans h) hsubscribed
    · exact .inl hleft
    · rw [hnone.2 j other hother] at hfor
      cases hfor

/-- A registration stores its callback. -/
theorem Backed.store {i : Nat} {entry : CallbackCatalogEntry} (hbacked : Backed s)
    (hregistration : s.registrations[i]? = some registration)
    (hphase : registration.phase = .store kind shadowSuccess)
    (hentry : s.entry registration = some entry) :
    Backed ((s.enter i registration (afterStore kind shadowSuccess)).modifyEntry registration
      fun entry => entry.withCallback kind (registration.params.callback kind)) := by
  have hmem := List.mem_of_getElem? hregistration
  obtain ⟨hshort, own, hown, hstore⟩ := hbacked.holds registration hmem
  cases hown.symm.trans hentry
  rw [hphase] at hstore
  obtain ⟨hfor, hnone⟩ := hstore
  have hsame : ∀ (entry : CallbackCatalogEntry) (name : List UInt8),
      (entry.withCallback kind (registration.params.callback kind)).isFor name =
        entry.isFor name := fun entry name => by cases kind <;> rfl
  refine hbacked.moves (modify_moves (set_registrations _ hregistration) (fun next hnext => ?_) rfl
    rfl rfl fun entry name hentry hfor => ?_) (fun next hmoved => ?_) (fun kind' hsubscribed => ?_)
  · cases hnext
    exact ⟨rfl, rfl⟩
  · rw [hsame] at hfor
    exact (hbacked.holds registration hmem).here hentry hfor
  · cases hmoved
    refine ⟨hshort, _, modify_entry _ hentry, ?_⟩
    have hkept := (hsame entry registration.thing).trans hfor
    cases kind with
    | updated => exact hkept
    | deleted => exact hkept
    | delta => exact hkept
  · -- Another callback of the Thing stays as it is.
    have hother : kind' ≠ kind → (entry.callback kind').isSome = true →
        ((entry.withCallback kind (registration.params.callback kind)).callback kind').isSome =
          true := by
      intro hne hcallback
      revert hne hcallback
      cases kind <;> cases kind' <;> simp [CallbackCatalogEntry.callback,
        CallbackCatalogEntry.withCallback]
    have hself : ((entry.withCallback kind (registration.params.callback kind)).callback kind) =
        registration.params.callback kind := by
      cases kind <;> rfl
    have hkept := (hsame entry registration.thing).trans hfor
    obtain hleft | ⟨hfits, hsource⟩ := hbacked.sourced kind' registration.thing hsubscribed
    · exact .inl hleft
    -- The callback that is stored now, and the other ones of the Thing.
    by_cases hkind : kind' = kind
    · subst hkind
      by_cases hnew : registration.params.callback kind' = none
      · exact .inl (hnone rfl hnew hsubscribed)
      · refine .inr ⟨hfits, .inl ⟨_, _, modify_entry _ hentry, hkept, ?_⟩⟩
        rw [hself]
        exact Option.isSome_iff_ne_none.mpr hnew
    · refine .inr ⟨hfits, .inl ⟨_, _, modify_entry _ hentry, hkept, hother hkind ?_⟩⟩
      obtain hcallback | hstore := hsource
      · exact hbacked.own_callback hentry hfor hcallback
      · cases hphase.symm.trans (hbacked.will_store hmem hstore).1
        exact absurd rfl hkind

/-- A registration returns. -/
theorem Backed.finish {i : Nat} (hbacked : Backed s)
    (hregistration : s.registrations[i]? = some registration)
    (hphase : ∀ kind, registration.phase ≠ .store kind shadowSuccess) :
    Backed { s with registrations := s.registrations.eraseIdx i } := by
  have hmem := List.mem_of_getElem? hregistration
  refine hbacked.moves ⟨erase_registrations hregistration, fun next hnext => (by cases hnext),
    fun _ _ => rfl,
      fun entry name hentry hfor => (hbacked.holds registration hmem).here hentry hfor,
    fun _ _ _ hsubscribed => ⟨hsubscribed, id⟩, rfl⟩ (fun next hmoved => by cases hmoved)
    (fun kind hsubscribed => ?_)
  obtain hleft | ⟨hfits, hcallback⟩ := hbacked.before_store hmem (hphase kind) hsubscribed
  · exact .inl hleft
  · exact .inr ⟨hfits, .inl hcallback⟩

/-- An entry without callbacks is cleared. -/
theorem Backed.clear {i : Nat} {entry : CallbackCatalogEntry} (hbacked : Backed s)
    (hregistration : s.registrations[i]? = some registration)
    (hphase : registration.phase = .clear) (hentry : s.entry registration = some entry) :
    Backed { s.modifyEntry registration fun _ => .unused with
      registrations := s.registrations.eraseIdx i } := by
  have hmem := List.mem_of_getElem? hregistration
  obtain ⟨-, own, hown, hclear⟩ := hbacked.holds registration hmem
  cases hown.symm.trans hentry
  rw [hphase] at hclear
  obtain ⟨hfor, hempty⟩ := hclear
  refine hbacked.moves (modify_moves (erase_registrations hregistration)
    (fun next hnext => by cases hnext) rfl rfl rfl fun entry name _ hunused => by cases hunused)
    (fun next hmoved => by cases hmoved) (fun kind hsubscribed => ?_)
  obtain hleft | ⟨-, hcallback⟩ := hbacked.before_store hmem (fun h => by
    cases hphase.symm.trans h) hsubscribed
  · exact .inl hleft
  · have hsome := hbacked.own_callback hentry hfor hcallback
    unfold CallbackCatalogEntry.isEmpty at hempty
    simp only [Bool.and_eq_true, Option.isNone_iff_eq_none] at hempty
    cases kind with
    | updated => simp [CallbackCatalogEntry.callback, hempty.1.1] at hsome
    | deleted => simp [CallbackCatalogEntry.callback, hempty.2] at hsome
    | delta => simp [CallbackCatalogEntry.callback, hempty.1.2] at hsome

/-- The phases behind the test of the new callback. -/
theorem after_unsubscribe_holds {entry : CallbackCatalogEntry} {returnCode : ShadowReturnCode}
    (hfor : entry.isFor registration.thing = true)
    (hnone : returnCode = shadowSuccess → registration.params.callback kind = none →
      s.OnlyLeftover (kind.topic registration.thing)) :
    EntryHolds s registration entry (registration.afterUnsubscribe kind returnCode) := by
  unfold Registration.afterUnsubscribe
  split_ifs with hnew
  · exact ⟨hfor, hnew⟩
  · exact ⟨hfor, hnone⟩

/-- What a registration does next by itself keeps the invariant. -/
theorem Backed.proceed {i : Nat} (hbacked : Backed s)
    (hregistration : s.registrations[i]? = some registration)
    (h : s.proceed i registration = some s') : Backed s' := by
  have hmem := List.mem_of_getElem? hregistration
  obtain ⟨hshort, entry, hentry, hholds⟩ := hbacked.holds registration hmem
  obtain ⟨found, hfound, hproceeds⟩ := registration_proceed_cases h
  cases hentry.symm.trans hfound
  -- One case a place where the registration stops by itself. What its next phase asks for has been
  -- asked for by this one, or is what it has just written.
  cases hproceeds with
  | found hphase =>
      rw [hphase] at hholds
      exact hbacked.enter hregistration hentry (fun kind hstore => by
        cases hphase.symm.trans hstore) hholds
  | mark hphase => exact hbacked.mark hregistration hphase hentry
  | enter hphase =>
      rw [hphase] at hholds
      refine hbacked.enter hregistration hentry (fun kind hstore => by
        cases hphase.symm.trans hstore) ?_
      split_ifs with hold
      · exact hholds
      · refine after_unsubscribe_holds hholds fun _ _ hsubscribed => ?_
        obtain hleft | ⟨-, hcallback⟩ := hbacked.before_store hmem (fun hstore => by
          cases hphase.symm.trans hstore) hsubscribed
        · exact hleft
        · exact absurd (hbacked.own_callback hentry hholds hcallback) hold
  | store hphase => exact hbacked.store hregistration hphase hentry
  | keep hphase hcode =>
      rw [hphase] at hholds
      refine hbacked.enter hregistration hentry (fun kind hstore => ?_) ?_
      · cases hphase.symm.trans hstore
        exact hcode rfl
      · unfold afterStore
        rw [if_neg hcode]
        exact hholds.1
  | isEmpty hphase hempty =>
      rw [hphase] at hholds
      exact hbacked.enter hregistration hentry (fun kind hstore => by
        cases hphase.symm.trans hstore) ⟨hholds, hempty⟩
  | finish hphase =>
      exact hbacked.finish hregistration fun kind hstore => by cases hphase.symm.trans hstore
  | clear hphase => exact hbacked.clear hregistration hphase hentry

/-- An Unsubscribe of a registration returns. -/
theorem Backed.unsubscribed {i : Nat} {stack : ByteMemory} {code : MQTTAgentReturnCode}
    {effect : Bool} (hbacked : Backed s)
    (hregistration : s.registrations[i]? = some registration)
    (hphase : registration.phase = .unsubscribing kind) (heffect : code = .success → effect = true)
    (h : s.mqttReturns stack i registration code effect = some s') : Backed s' := by
  have hmem := List.mem_of_getElem? hregistration
  obtain ⟨hshort, entry, hentry, hholds⟩ := hbacked.holds registration hmem
  rw [hphase] at hholds
  have hnot : ∀ kind, registration.phase ≠ .store kind shadowSuccess := fun kind hstore => by
    cases hphase.symm.trans hstore
  unfold CallbackSystem.mqttReturns at h
  rw [hphase] at h
  cases effect with
  | false =>
      cases h
      refine hbacked.enter hregistration hentry hnot
        (after_unsubscribe_holds hholds fun hcode => ?_)
      cases heffect (convert_eq_success_iff.mp hcode)
  | true =>
      cases h
      have hkeep : ∀ topic, topic ∈ s.system.subscriptions.filter
            (· ≠ registration.topic stack kind) → topic ∈ s.system.subscriptions ∧
          (topic ∈ s.leftover → topic ∈ s.leftover.filter (· ≠ registration.topic stack kind)) := by
        intro topic htopic
        obtain ⟨hsubscribed, hne⟩ := List.mem_filter.mp htopic
        exact ⟨hsubscribed, fun hleft => List.mem_filter.mpr ⟨hleft, hne⟩⟩
      refine hbacked.moves ⟨set_registrations _ hregistration, fun next hnext => ?_,
        fun _ _ => rfl, fun entry name hentry hfor =>
          (hbacked.holds registration hmem).here hentry hfor,
        fun kind name _ htopic => hkeep _ htopic, rfl⟩ (fun next hmoved => ?_)
        (fun kind' htopic => ?_)
      · cases hnext
        exact ⟨rfl, rfl⟩
      · cases hmoved
        refine ⟨hshort, entry, hentry, after_unsubscribe_holds hholds fun _ _ htopic => ?_⟩
        obtain ⟨hsubscribed, hleftover⟩ := hkeep _ htopic
        -- The topic has been unsubscribed from, unless it does not fit.
        obtain ⟨-, hown⟩ | ⟨hlong, -⟩ := registration_topic_cases stack kind hshort
        · have hne := (List.mem_filter.mp htopic).2
          rw [hown] at hne
          simp [Registration.thing] at hne
        · obtain hleft | ⟨hfits, -⟩ := hbacked.before_store hmem (hnot kind) hsubscribed
          · exact hleftover hleft
          · exact absurd hfits hlong
      · obtain ⟨hsubscribed, hleftover⟩ := hkeep _ htopic
        obtain hleft | ⟨hfits, hcallback⟩ := hbacked.before_store hmem (hnot kind') hsubscribed
        · exact .inl (hleftover hleft)
        · exact .inr ⟨hfits, .inl hcallback⟩

/-- A Subscribe of a registration returns. -/
theorem Backed.subscribed {i : Nat} {stack : ByteMemory} {code : MQTTAgentReturnCode}
    {effect : Bool} (hbacked : Backed s)
    (hregistration : s.registrations[i]? = some registration)
    (hphase : registration.phase = .subscribing kind) (heffect : code = .success → effect = true)
    (h : s.mqttReturns stack i registration code effect = some s') : Backed s' := by
  have hmem := List.mem_of_getElem? hregistration
  obtain ⟨hshort, entry, hentry, hholds⟩ := hbacked.holds registration hmem
  rw [hphase] at hholds
  obtain ⟨hfor, hnew⟩ := hholds
  have hnot : ∀ kind, registration.phase ≠ .store kind shadowSuccess := fun kind hstore => by
    cases hphase.symm.trans hstore
  have hsome : registration.params.callback kind ≠ none := Option.isSome_iff_ne_none.mp hnew
  unfold CallbackSystem.mqttReturns at h
  rw [hphase] at h
  cases effect with
  | false =>
      cases h
      exact hbacked.enter hregistration hentry hnot ⟨hfor, fun _ hnone => absurd hnone hsome⟩
  | true =>
      cases h
      have hleftover : ∀ topic ∈ s.leftover, topic ∈ (if code = .success then s.leftover
          else registration.topic stack kind :: s.leftover) := by
        intro topic hleft
        split_ifs
        · exact hleft
        · exact List.mem_cons_of_mem _ hleft
      refine hbacked.moves ⟨set_registrations _ hregistration, fun next hnext => ?_,
        fun _ _ => rfl, fun entry name hentry hfor =>
          (hbacked.holds registration hmem).here hentry hfor,
        fun kind' name hname htopic => ?_, rfl⟩ (fun next hmoved => ?_) (fun kind' htopic => ?_)
      · cases hnext
        exact ⟨rfl, rfl⟩
      · obtain htopic | htopic := List.mem_cons.mp htopic
        · exact absurd (registration_topic_only hshort htopic.symm).2.1.symm hname
        · exact ⟨htopic, hleftover _⟩
      · cases hmoved
        exact ⟨hshort, entry, hentry, hfor, fun _ hnone => absurd hnone hsome⟩
      · obtain htopic | htopic := List.mem_cons.mp htopic
        · obtain ⟨rfl, -, hfits⟩ := registration_topic_only hshort htopic.symm
          by_cases hcode : code = .success
          · -- The callback is going to be stored.
            subst hcode
            obtain ⟨hi, -⟩ := List.getElem?_eq_some_iff.mp hregistration
            exact .inr ⟨hfits, .inr ⟨_, List.mem_set hi _, rfl, rfl, hnew⟩⟩
          · refine .inl ?_
            show _ ∈ (if code = .success then s.leftover
              else registration.topic stack kind :: s.leftover)
            rw [if_neg hcode, htopic]
            exact List.mem_cons_self
        · obtain hleft | ⟨hfits, hcallback⟩ := hbacked.before_store hmem (hnot kind') htopic
          · exact .inl (hleftover _ hleft)
          · exact .inr ⟨hfits, .inl hcallback⟩

/-! ## The other steps -/

/-- Entries from an index on are looked at one after the other. -/
theorem get_entry_found (name : List UInt8) (catalog : List CallbackCatalogEntry) (index : Nat)
    (unused : Option Nat) {found : Nat}
    (h : getCallbackCatalogEntry name catalog index unused = (some found, true)) :
    ∃ entry, catalog[found - index]? = some entry ∧ index ≤ found ∧ entry.isFor name = true := by
  induction catalog generalizing index unused with
  | nil => cases h
  | cons entry rest ih =>
      unfold getCallbackCatalogEntry at h
      split_ifs at h with hunused hfor
      · obtain ⟨own, hown, hle, hfor⟩ := ih (index + 1) _ h
        refine ⟨own, ?_, by omega, hfor⟩
        rw [show found - index = (found - (index + 1)) + 1 by omega, List.getElem?_cons_succ]
        exact hown
      · cases h
        exact ⟨entry, by simp, le_refl _, hfor⟩
      · obtain ⟨own, hown, hle, hfor⟩ := ih (index + 1) _ h
        refine ⟨own, ?_, by omega, hfor⟩
        rw [show found - index = (found - (index + 1)) + 1 by omega, List.getElem?_cons_succ]
        exact hown

/-- Without an entry of the Thing, the index is one that is not in use. -/
theorem get_entry_unused (name : List UInt8) (catalog : List CallbackCatalogEntry) (index : Nat)
    (unused : Option Nat) {found : Option Nat}
    (h : getCallbackCatalogEntry name catalog index unused = (found, false)) :
    (∀ entry ∈ catalog, entry.isFor name = false) ∧
      (found = unused ∨ ∃ j entry, found = some (index + j) ∧ catalog[j]? = some entry ∧
        entry.inUse = false) := by
  induction catalog generalizing index unused with
  | nil =>
      cases h
      exact ⟨fun _ hmem => absurd hmem List.not_mem_nil, .inl rfl⟩
  | cons entry rest ih =>
      unfold getCallbackCatalogEntry at h
      split_ifs at h with hunused hfor
      · obtain ⟨hnone, hfound⟩ := ih (index + 1) _ h
        refine ⟨List.forall_mem_cons.mpr ⟨?_, hnone⟩, .inr ?_⟩
        · unfold CallbackCatalogEntry.isFor
          rw [hunused]
          rfl
        · obtain hfound | ⟨j, other, hfound, hother, hfree⟩ := hfound
          · exact ⟨0, entry, hfound, rfl, hunused⟩
          · exact ⟨j + 1, other, by rw [hfound, Nat.add_assoc, Nat.add_comm 1], hother, hfree⟩
      · cases h
      · obtain ⟨hnone, hfound⟩ := ih (index + 1) _ h
        refine ⟨List.forall_mem_cons.mpr ⟨by simpa using hfor, hnone⟩, ?_⟩
        obtain hfound | ⟨j, other, hfound, hother, hfree⟩ := hfound
        · exact .inl hfound
        · exact .inr
            ⟨j + 1, other, by rw [hfound, Nat.add_assoc, Nat.add_comm 1], hother, hfree⟩

/-- A step that leaves the catalog and the registrations alone. -/
theorem Backed.broker (hbacked : Backed s) (hcatalog : s'.catalog = s.catalog)
    (hregistrations : s'.registrations = s.registrations)
    (htopics : ∀ topic ∈ s'.system.subscriptions, topic ∈ s'.leftover ∨
      (topic ∈ s.system.subscriptions ∧ (topic ∈ s.leftover → topic ∈ s'.leftover)))
    (hsilent : NoNullCallback s') : Backed s' where
  distinct := by
    rw [hcatalog]
    exact hbacked.distinct
  indices := by
    rw [hregistrations]
    exact hbacked.indices
  things := by
    rw [hregistrations]
    exact hbacked.things
  holds registration hmem := by
    rw [hregistrations] at hmem
    obtain ⟨hshort, entry, hentry, hphase⟩ := hbacked.holds registration hmem
    refine ⟨hshort, entry, ?_, hphase.mono (fun hnone => ?_) fun kind honly hsubscribed => ?_⟩
    · show s'.catalog[registration.index]? = some entry
      rw [hcatalog]
      exact hentry
    · rw [hcatalog]
      exact hnone
    · obtain hleft | ⟨hsubscribed, hleftover⟩ := htopics _ hsubscribed
      · exact hleft
      · exact hleftover (honly hsubscribed)
  sourced kind name hsubscribed := by
    unfold CallbackSystem.HasCallback CallbackSystem.WillStore
    rw [hcatalog, hregistrations]
    obtain hleft | ⟨hsubscribed, hleftover⟩ := htopics _ hsubscribed
    · exact .inl hleft
    · exact (hbacked.sourced kind name hsubscribed).imp_left hleftover
  silent := hsilent

/-- A new registration has an index and a Thing of its own. -/
theorem nodup_append_new {β : Type*} {registrations : List Registration} (f : Registration → β)
    (registration : Registration) (h : (registrations.map f).Nodup)
    (hnew : ∀ other ∈ registrations, f other ≠ f registration) :
    ((registrations ++ [registration]).map f).Nodup := by
  rw [((List.perm_append_singleton registration registrations).map f).nodup_iff, List.map_cons,
    List.nodup_cons]
  refine ⟨fun hmem => ?_, h⟩
  obtain ⟨other, hother, hsame⟩ := List.mem_map.mp hmem
  exact hnew other hother hsame

/-- A call of `SHADOW_RegisterCallbacks` that works on an entry and a Thing of its own. -/
theorem Backed.register {params : ShadowCallbackParams} (hbacked : Backed s)
    (hready : CallbacksReady environment s (.register params)) : Backed (s.register params) := by
  obtain ⟨hshort, hapart⟩ := hready
  unfold CallbackSystem.register
  cases hget : prvGetCallbackCatalogEntry s.system.client.callbackCatalog params.thingName with
  | mk found thingNameFound =>
      rw [hget] at hapart
      cases found with
      | none =>
          exact hbacked.broker rfl rfl (fun topic hmem => .inr ⟨hmem, id⟩) hbacked.silent
      | some index =>
          -- The entry is found or taken behind the search that has returned its index.
          have hnew : RegistrationHolds s ⟨params, index, .found thingNameFound⟩ := by
            refine ⟨hshort, ?_⟩
            cases thingNameFound with
            | true =>
                obtain ⟨entry, hentry, -, hfor⟩ := get_entry_found _ _ _ _ hget
                exact ⟨entry, hentry, hfor⟩
            | false =>
                obtain ⟨hnone, hfound | ⟨j, entry, hfound, hentry, hfree⟩⟩ :=
                  get_entry_unused _ _ _ _ hget
                · cases hfound
                · cases hfound
                  refine ⟨entry, ?_, hfree, fun j other hother =>
                    hnone other (List.mem_of_getElem? hother)⟩
                  show s.catalog[0 + j]? = some entry
                  rw [Nat.zero_add]
                  exact hentry
          refine ⟨hbacked.distinct, ?_, ?_, fun registration hmem => ?_,
            fun kind name hsubscribed => ?_, hbacked.silent⟩
          · exact nodup_append_new _ _ hbacked.indices fun other hother hsame =>
              (hapart other hother).2 (congrArg some hsame)
          · exact nodup_append_new _ _ hbacked.things fun other hother => (hapart other hother).1
          · have hholds : RegistrationHolds s registration := by
              obtain hold | hmem := List.mem_append.mp hmem
              · exact hbacked.holds registration hold
              · cases List.mem_singleton.mp hmem
                exact hnew
            obtain ⟨hshort, entry, hentry, hphase⟩ := hholds
            exact ⟨hshort, entry, hentry, hphase.mono id fun _ => id⟩
          · obtain hleft | ⟨hfits, hcallback | ⟨other, hother, hstore⟩⟩ :=
              hbacked.sourced kind name hsubscribed
            · exact .inl hleft
            · exact .inr ⟨hfits, .inl hcallback⟩
            · exact .inr ⟨hfits, .inr ⟨other, List.mem_append_left _ hother, hstore⟩⟩

/-- What an operation does to the subscription to a topic does not depend on the other
subscriptions. -/
theorem mem_operation_effect {running : Running} {topics : List (List UInt8)} {topic : List UInt8}
    (h : topic ∈ brokerEffect running topics) :
    (∀ others, topic ∈ brokerEffect running others) ∨
      (topic ∈ topics ∧ ∀ others, topic ∈ others → topic ∈ brokerEffect running others) := by
  have hsubscribe : topic ∈ running.topic :: topics →
      (∀ others, topic ∈ running.topic :: others) ∨
        (topic ∈ topics ∧ ∀ others, topic ∈ others → topic ∈ running.topic :: others) := by
    intro hmem
    obtain hsame | hmem := List.mem_cons.mp hmem
    · exact .inl fun others => List.mem_cons.mpr (.inl hsame)
    · exact .inr ⟨hmem, fun others => List.mem_cons_of_mem _⟩
  have hunsubscribe : topic ∈ topics.filter (· ≠ running.topic) →
      topic ∈ topics ∧
        ∀ others : List (List UInt8),
          topic ∈ others → topic ∈ others.filter (· ≠ running.topic) := by
    intro hmem
    obtain ⟨hmem, hne⟩ := List.mem_filter.mp hmem
    exact ⟨hmem, fun others hother => List.mem_filter.mpr ⟨hother, hne⟩⟩
  -- A subscription is new and there whatever there has been, or it is an old one that stays.
  unfold brokerEffect at h ⊢
  cases hphase : running.phase with
  | subscribeAccepted =>
      rw [hphase] at h
      exact hsubscribe h
  | subscribeRejected =>
      rw [hphase] at h
      exact hsubscribe h
  | undoAccepted =>
      rw [hphase] at h
      exact .inr (hunsubscribe h)
  | unsubscribeAccepted =>
      rw [hphase] at h
      exact .inr (hunsubscribe h)
  | unsubscribeRejected =>
      rw [hphase] at h
      exact .inr (hunsubscribe h)
  | _ =>
      rw [hphase] at h
      exact .inr ⟨h, fun _ => id⟩

theorem mem_effect_on {system : ShadowSystem} {topics : List (List UInt8)} {event : Event}
    {topic : List UInt8} (h : topic ∈ system.effectOn topics event) :
    (∀ others, topic ∈ system.effectOn others event) ∨
      (topic ∈ topics ∧ ∀ others, topic ∈ others → topic ∈ system.effectOn others event) := by
  cases event with
  | mqttReturns code effect =>
      cases effect with
      | false => exact .inr ⟨h, fun _ => id⟩
      | true =>
          unfold ShadowSystem.effectOn at h ⊢
          cases hrunning : system.running with
          | none =>
              rw [hrunning] at h
              exact .inr ⟨h, fun _ => id⟩
          | some running =>
              rw [hrunning] at h
              exact mem_operation_effect h
  | connect => cases h
  | disconnect => cases h
  | start operation params => exact .inr ⟨h, fun _ => id⟩
  | proceed => exact .inr ⟨h, fun _ => id⟩
  | timeOut => exact .inr ⟨h, fun _ => id⟩
  | message publish => exact .inr ⟨h, fun _ => id⟩

/-- The entry of a match is an entry of the catalog in use. -/
theorem match_catalog_mem {topic : ByteMemory} {topicLength : Nat}
    {catalog : List CallbackCatalogEntry} {buffer : ByteMemory}
    {found : CallbackCatalogEntry × ShadowOperationName}
    (h : matchCatalog topic topicLength catalog buffer = some found) :
    found.1 ∈ catalog ∧ found.1.inUse = true := by
  induction catalog generalizing buffer with
  | nil => cases h
  | cons entry rest ih =>
      unfold matchCatalog at h
      simp only at h
      split_ifs at h with hunused hprefix
      · cases h
        exact ⟨List.mem_cons_self, hunused⟩
      · exact ⟨List.mem_cons_of_mem _ (ih h).1, (ih h).2⟩
      · exact ⟨List.mem_cons_of_mem _ (ih h).1, (ih h).2⟩

/-- Where the filters come from. -/
theorem mem_filters {stack : ByteMemory} {filter : List UInt8} (h : filter ∈ s.filters stack) :
    filter ∈ s.system.subscriptions ∨
      (∃ registration ∈ s.registrations, ∃ kind, registration.phase = .subscribing kind ∧
        registration.topic stack kind = filter) ∨
      s.OperationSubscribing filter := by
  unfold CallbackSystem.filters at h
  rw [List.mem_append, List.mem_append] at h
  obtain (hsubscribed | hregistration) | hoperation := h
  · exact .inl hsubscribed
  · obtain ⟨registration, hmem, hfilter⟩ := List.mem_filterMap.mp hregistration
    cases hphase : registration.phase with
    | subscribing kind =>
        rw [hphase] at hfilter
        exact .inr (.inl ⟨registration, hmem, kind, hphase, Option.some.inj hfilter⟩)
    | _ =>
        rw [hphase] at hfilter
        cases hfilter
  · obtain ⟨running, hrunning, rfl⟩ := Option.map_eq_some_iff.mp (Option.mem_toList.mp hoperation)
    obtain ⟨hrunning, hphase⟩ := Option.filter_eq_some_iff.mp hrunning
    exact .inr (.inr ⟨running, hrunning, of_decide_eq_true hphase, rfl⟩)

/-- A message that is delivered for a callback that is not stored comes because of a subscription
that is exposed. -/
theorem Backed.stored {entry : CallbackCatalogEntry}
    (hbacked : Backed s) (hmem : entry ∈ s.catalog) (hunused : entry.inUse = true)
    (hdelivers : s.Delivers environment.stack (kind.topic entry.thingName.bytes))
    (hnone : entry.callback kind = none) :
    Exposed environment.stack s kind entry.thingName.bytes := by
  obtain ⟨filter, hfilter, hmatches⟩ := hdelivers
  by_cases hwild : filter = kind.topic entry.thingName.bytes
  swap
  · exact .inr (.inr (.inr ⟨filter, hfilter, hwild, hmatches⟩))
  subst hwild
  obtain hsubscribed | ⟨registration, hregistration, kind', hphase, htopic⟩ | hoperation :=
    mem_filters hfilter
  · obtain hleft | ⟨-, hcallback | ⟨registration, hregistration, hthing, hphase, -⟩⟩ :=
      hbacked.sourced kind _ hsubscribed
    · exact .inr (.inl hleft)
    · obtain ⟨i, hentry⟩ := List.mem_iff_getElem?.mp hmem
      obtain ⟨j, other, hother, hfor, hsome⟩ := hcallback
      have hown : entry.isFor entry.thingName.bytes = true := by
        unfold CallbackCatalogEntry.isFor
        rw [hunused]
        simp
      cases hbacked.distinct _ _ _ _ _ hentry hother hown hfor
      cases hentry.symm.trans hother
      rw [hnone] at hsome
      cases hsome
    · exact .inl ⟨registration, hregistration, hthing, .inr hphase⟩
  · have hshort := (hbacked.holds registration hregistration).1
    obtain ⟨rfl, hthing, -⟩ := registration_topic_only hshort htopic
    exact .inl ⟨registration, hregistration, hthing, .inl hphase⟩
  · exact .inr (.inr (.inl hoperation))

/-- An event of an operation or of the connection. -/
theorem Backed.shadow {event : Event} {system : ShadowSystem} {labels : List ShadowOutput}
    (hbacked : Backed s) (hready : CallbacksReady environment s (.shadow event))
    (hpermits : s.Permits environment.stack event)
    (hstep : step environment s.system event = some (system, labels)) :
    Backed { s with
      system
      leftover := s.system.effectOn s.leftover event
      outputs := s.outputs ++ labels } := by
  have heffect := step_effect hstep
  refine hbacked.broker heffect.catalog rfl (fun topic hmem => ?_) fun operation hmem => ?_
  · replace hmem : topic ∈ system.subscriptions := hmem
    rw [heffect.subscriptions] at hmem
    exact (mem_effect_on hmem).imp (fun hall => hall _) fun ⟨hold, hkept⟩ => ⟨hold, hkept _⟩
  · obtain hold | hnew := List.mem_append.mp hmem
    · exact hbacked.silent operation hold
    obtain ⟨publish, rfl, hmatch, found, hfound, kind, hkind, hnone⟩ :=
      heffect.notifies none operation hnew
    obtain ⟨htopic, hexposed⟩ := hready hmatch found hfound kind kind.mem_all hkind hnone
    obtain ⟨hcatalog, hunused⟩ := match_catalog_mem hfound
    replace hpermits : s.Delivers environment.stack publish.topicBytes := hpermits
    rw [htopic] at hpermits
    exact hexposed (hbacked.stored hcatalog hunused hpermits hnone)

/-- A step that meets the condition keeps the invariant. -/
theorem Backed.step {event : CallbackEvent} (hbacked : Backed s)
    (hready : CallbacksReady environment s event)
    (hstep : callbackStep environment s event = some s') : Backed s' := by
  have hcases := callback_step_cases hstep
  cases event with
  | shadow event =>
      obtain ⟨hpermits, system, labels, hsystem, rfl⟩ := hcases
      exact hbacked.shadow hready hpermits hsystem
  | register params =>
      obtain ⟨-, rfl⟩ := hcases
      exact hbacked.register hready
  | proceed i =>
      obtain ⟨-, registration, hregistration, hproceeds⟩ := hcases
      exact hbacked.proceed hregistration hproceeds
  | mqttReturns i code effect =>
      obtain ⟨-, heffect, -, registration, hregistration, hreturns⟩ := hcases
      cases registration_return_cases hreturns with
      | unsubscribed hphase => exact hbacked.unsubscribed hregistration hphase heffect hreturns
      | subscribed hphase => exact hbacked.subscribed hregistration hphase heffect hreturns

end Invariant

/-! ## Every run -/

/-- The catalog of a new client is empty. -/
theorem created_backed (things : Nat) (topicBuffer : ByteMemory) :
    Backed (.created things topicBuffer) where
  distinct name i j entry other hentry _ hfor _ := by
    rw [List.eq_of_mem_replicate (List.mem_of_getElem? hentry)] at hfor
    cases hfor
  indices := List.nodup_nil
  things := List.nodup_nil
  holds _ hmem := absurd hmem List.not_mem_nil
  sourced _ _ hmem := absurd hmem List.not_mem_nil
  silent _ := List.not_mem_nil

/-- In every run that meets the condition, no callback is called that is `NULL`. -/
theorem callbacks_not_null (environment : Environment) (things : Nat) (topicBuffer : ByteMemory)
    (events : List CallbackEvent)
    (hready : Throughout (callbackStep environment) (CallbacksReady environment)
      (.created things topicBuffer) events) :
    Always (callbackStep environment) NoNullCallback (.created things topicBuffer) events :=
  always_of_throughout Backed (fun hbacked hready hstep => hbacked.step hready hstep)
    (fun hbacked => hbacked.silent) (created_backed things topicBuffer) hready

/-- In particular none is called if every dispatched message is on the topic of its callback and
the callback is not exposed. -/
theorem no_null_callback_of_unexposed {things : Nat} {topicBuffer : ByteMemory}
    {events : List CallbackEvent}
    (h : Throughout (callbackStep environment) (DispatchesUnexposed environment)
      (.created things topicBuffer) events) :
    Always (callbackStep environment) NoNullCallback (.created things topicBuffer) events :=
  always_of_throughout Backed (fun hbacked hplain hstep => hbacked.step hplain.ready hstep)
    (fun hbacked => hbacked.silent) (created_backed things topicBuffer) h

/-- A callback for the updates of the Thing `T`, at address 5. -/
def benchCallbacks : ShadowCallbackParams where
  thingName := ⟨ascii "T", by decide⟩
  shadowUpdatedCallback := some 5
  shadowDeletedCallback := none
  shadowDeltaCallback := none

/-- A document of the Thing `T` after an update. -/
def updatedDocument : CallbackEvent :=
  .shadow (.message (benchMessage (CallbackKind.updated.topic (ascii "T"))))

/-- The callback is registered up to where its Subscribe returns. -/
def subscribedCallback : List CallbackEvent :=
  [.shadow .connect, .register benchCallbacks, .proceed 0, .proceed 0, .mqttReturns 0 .success true]

/-- The callback has been stored and is called. -/
def callbackCalled (s : CallbackSystem) : Bool :=
  s.outputs.any fun
    | .notify callback .updateDocuments => callback == some 5
    | _ => false

theorem callbacks_not_null_stored :
    (∃ s, run (callbackStep benchEnvironment) (subscribedCallback ++ [.proceed 0, updatedDocument])
        (.created 1 fun _ => 0) = some s ∧ callbackCalled s = true) ∧
      Always (callbackStep benchEnvironment) NoNullCallback (.created 1 fun _ => 0)
        (subscribedCallback ++ [.proceed 0, updatedDocument]) := by
  have hrun : ((run (callbackStep benchEnvironment)
      (subscribedCallback ++ [.proceed 0, updatedDocument]) (.created 1 fun _ => 0)).any
        callbackCalled) = true := by
    decide +kernel
  refine ⟨(Option.any_eq_true _ _).mp hrun, callbacks_not_null benchEnvironment 1 (fun _ => 0) _ ?_⟩
  decide +kernel

/-- A document that arrives before the callback is stored. -/
theorem null_callback_called :
    ¬ Always (callbackStep benchEnvironment) NoNullCallback (.created 1 fun _ => 0)
      (subscribedCallback ++ [updatedDocument]) := by
  have hrun : ((run (callbackStep benchEnvironment) (subscribedCallback ++ [updatedDocument])
      (.created 1 fun _ => 0)).any fun s => s.outputs.any fun
        | .notify none .updateDocuments => true
        | _ => false) = true := by
    decide +kernel
  obtain ⟨s, hlast, houtput⟩ := (Option.any_eq_true _ _).mp hrun
  obtain ⟨output, hmem, hnull⟩ := List.any_eq_true.mp houtput
  intro halways
  split at hnull
  · exact halways.reached hlast _ hmem
  · cases hnull

end TivaAws.Shadow
