import TivaAws.Mqtt.OperationSteps
import TivaAws.Mqtt.Replay
import TivaAws.Mqtt.SubscriptionTable

/-!
# A subscribe that fails

`MQTT_Subscribe` stores its subscription before it sends, over an entry for the same filter if there
is one, and takes the entry for the filter away when it fails, also one that it has not stored. So
the entries are as before exactly if the filter had none, or the subscription is refused by the
manager of an open connection (`failed_subscribe_iff`).
-/

namespace TivaAws.Mqtt

open Session Table

/-- The entries in use. -/
def MQTTSubscriptionManager.entries (manager : MQTTSubscriptionManager) : List MQTTSubscription :=
  manager.subscriptions.toList.filterMap (Option.guard MQTTSubscription.inUse)

/-- The checks of `prvStoreSubscription`. -/
def MQTTSubscriptionManager.Admits (topic : List UInt8) (manager : MQTTSubscriptionManager) :
    Prop :=
  manager.inUseSubscriptions < UInt32.ofNat subscriptionManagerMaxSubscriptions ∧
    topic.length ≤ subscriptionManagerMaxTopicLength ∧ prvGetTopicFilterType topic ≠ .invalid

/-- No entry in use is for the filter. -/
def MQTTSubscriptionManager.Lacks (topic : List UInt8) (manager : MQTTSubscriptionManager) :
    Prop :=
  ∀ i : Fin _, MQTTSubscription.isFor topic (getElem manager.subscriptions i i.isLt) = false

instance (topic : List UInt8) (manager : MQTTSubscriptionManager) :
    Decidable (manager.Lacks topic) :=
  inferInstanceAs (Decidable (∀ _ : Fin _, _))

variable {topic : List UInt8} {manager : MQTTSubscriptionManager}

theorem entries_set (manager : MQTTSubscriptionManager) (x : Fin _)
    (subscription : MQTTSubscription) (count : UInt32) :
    ((Option.guard MQTTSubscription.inUse (getElem manager.subscriptions x x.isLt)).toList ++
        (MQTTSubscriptionManager.mk
          (manager.subscriptions.set x subscription x.isLt) count).entries).Perm
      ((Option.guard MQTTSubscription.inUse subscription).toList ++ manager.entries) :=
  filterMap_set_perm _ manager.subscriptions x subscription

theorem guard_in_use {subscription : MQTTSubscription} (h : subscription.inUse = true) :
    Option.guard MQTTSubscription.inUse subscription = some subscription := by
  simp [Option.guard, h]

theorem guard_free {subscription : MQTTSubscription} (h : subscription.inUse = false) :
    Option.guard MQTTSubscription.inUse subscription = none := by
  simp [Option.guard, h]

/-- A removal takes an entry for the filter away, if there is one. -/
theorem entries_remove (topic : List UInt8) (manager : MQTTSubscriptionManager) :
    (manager.Lacks topic ∧ prvRemoveSubscription topic manager = manager) ∨
    ∃ subscription, MQTTSubscription.isFor topic subscription = true ∧
      subscription ∈ manager.entries ∧
      (subscription :: (prvRemoveSubscription topic manager).entries).Perm manager.entries := by
  rcases remove_subscription_cases topic manager with hlacks | ⟨i, hi, heq⟩
  · exact Or.inl hlacks
  · right
    have hinUse := (is_for_iff.mp hi).1
    have hset := entries_set manager i
      { manager.subscriptions[i] with inUse := false } (manager.inUseSubscriptions - 1)
    rw [guard_in_use hinUse, guard_free rfl] at hset
    rw [heq]
    exact ⟨_, hi, hset.mem_iff.mp List.mem_cons_self, hset⟩

theorem mem_entries_iff {subscription : MQTTSubscription} :
    subscription ∈ manager.entries ↔
      subscription.inUse = true ∧ ∃ i : Fin _, manager.subscriptions[i] = subscription := by
  unfold MQTTSubscriptionManager.entries
  rw [List.mem_filterMap]
  constructor
  · rintro ⟨other, hmem, hguard⟩
    obtain ⟨rfl, hinUse⟩ := Option.guard_eq_some_iff.mp hguard
    obtain ⟨i, hi, rfl⟩ := Vector.mem_iff_getElem.mp (Vector.mem_toList_iff.mp hmem)
    exact ⟨hinUse, ⟨i, hi⟩, rfl⟩
  · rintro ⟨hinUse, i, rfl⟩
    exact ⟨_, Vector.mem_toList_iff.mpr (Vector.getElem_mem i.isLt), guard_in_use hinUse⟩

theorem lacks_iff : manager.Lacks topic ↔
    ∀ subscription ∈ manager.entries, MQTTSubscription.isFor topic subscription = false := by
  constructor
  · rintro h subscription hmem
    obtain ⟨-, i, rfl⟩ := mem_entries_iff.mp hmem
    exact h i
  · intro h i
    cases hi : MQTTSubscription.isFor topic manager.subscriptions[i] with
    | false => rfl
    | true =>
        rw [← hi]
        exact h _ (mem_entries_iff.mpr ⟨(is_for_iff.mp hi).1, i, rfl⟩)

/-- The subscription is stored after the entry for its filter has been removed, or nothing is done
because the filter is not admitted or there is neither an entry for it nor a free one. -/
theorem store_outcome (topic : List UInt8) (context : CallbackContext)
    (callback : Option FunctionPointer) (manager : MQTTSubscriptionManager) :
    let stored := prvStoreSubscription topic context callback manager
    (stored = (false, manager) ∧ (manager.Lacks topic ∨ ¬ manager.Admits topic)) ∨
    (manager.Admits topic ∧ stored.1 = true ∧ ∃ subscription,
      MQTTSubscription.isFor topic subscription = true ∧
      stored.2.entries.Perm (subscription :: (prvRemoveSubscription topic manager).entries)) := by
  intro stored
  by_cases hadmits : manager.Admits topic
  · obtain ⟨hroom, hlength, htype⟩ := hadmits
    simp only [stored, prvStoreSubscription, if_pos hroom, if_pos hlength, if_pos htype]
    cases hfirst : firstIndex (fun subscription => !subscription.inUse)
        (prvRemoveSubscription topic manager).subscriptions with
    | none =>
        left
        rcases remove_subscription_cases topic manager with ⟨hlacks, hsame⟩ | ⟨i, -, heq⟩
        · exact ⟨by rw [hsame], Or.inl hlacks⟩
        · -- The removal has freed an entry.
          rw [heq] at hfirst
          have hfree := firstIndex_eq_none_iff.mp hfirst i
          rw [getElem_set, if_pos rfl] at hfree
          exact absurd hfree (by simp)
    | some x =>
        right
        have hfree := firstIndex_satisfies hfirst
        simp only [Bool.not_eq_true'] at hfree
        have hset := entries_set (prvRemoveSubscription topic manager) x
          { topicFilter := topic
            publishCallbackContext := context
            publishCallback := callback
            inUse := true
            topicFilterType := prvGetTopicFilterType topic }
          ((prvRemoveSubscription topic manager).inUseSubscriptions + 1)
        rw [guard_free hfree, guard_in_use rfl] at hset
        exact ⟨⟨hroom, hlength, htype⟩, rfl, _, is_for_iff.mpr ⟨rfl, rfl⟩, hset⟩
  · left
    refine ⟨?_, Or.inr hadmits⟩
    simp only [stored, prvStoreSubscription]
    split_ifs with hroom hlength htype
    · exact absurd ⟨hroom, hlength, htype⟩ hadmits
    · rfl
    · rfl
    · rfl

/-- What is removed after a store are the entries for the filter: the new one, and the old one. -/
theorem remove_stored_iff {stored : MQTTSubscriptionManager} {subscription : MQTTSubscription}
    (hfor : MQTTSubscription.isFor topic subscription = true)
    (hstored : stored.entries.Perm
      (subscription :: (prvRemoveSubscription topic manager).entries)) :
    (prvRemoveSubscription topic stored).entries.Perm manager.entries ↔ manager.Lacks topic := by
  have hmem : subscription ∈ stored.entries := hstored.mem_iff.mpr List.mem_cons_self
  obtain ⟨removed, hremovedFor, hremoved, hfinal⟩ :=
    (entries_remove topic stored).resolve_left fun h => by
      have hnot := lacks_iff.mp h.1 subscription hmem
      rw [hfor] at hnot
      exact absurd hnot (by decide)
  rcases entries_remove topic manager with ⟨hlacks, hsame⟩ | ⟨old, holdFor, holdMem, hold⟩
  · refine iff_of_true ?_ hlacks
    rw [hsame] at hstored
    have hnew : removed = subscription := by
      rcases List.mem_cons.mp (hstored.mem_iff.mp hremoved) with h | h
      · exact h
      · have hnot := lacks_iff.mp hlacks removed h
        rw [hremovedFor] at hnot
        exact absurd hnot (by decide)
    rw [hnew] at hfinal
    exact (hfinal.trans hstored).cons_inv
  · refine iff_of_false ?_ ?_
    · intro hperm
      have hlengths := And.intro hold.length_eq
        (And.intro hstored.length_eq (And.intro hfinal.length_eq hperm.length_eq))
      simp only [List.length_cons] at hlengths
      omega
    · intro hlacks
      have hnot := lacks_iff.mp hlacks old holdMem
      rw [holdFor] at hnot
      exact absurd hnot (by decide)

/-- A subscribe that fails leaves the entries as they were exactly if there was none for its filter,
or it was refused by the manager of an open connection. -/
theorem failed_subscribe_iff {W : Type} (user : MQTTInitParams W) (params : MQTTSubscribeParams)
    (s : Session W) (hfailed : (mqttSubscribe user params s).1 ≠ .success) :
    (mqttSubscribe user params s).2.context.subscriptionManager.entries.Perm
        s.context.subscriptionManager.entries ↔
      s.context.subscriptionManager.Lacks params.topic.bytes ∨
        s.context.connectionState = .connected ∧
          ¬ s.context.subscriptionManager.Admits params.topic.bytes := by
  unfold mqttSubscribe at hfailed ⊢
  by_cases hstate : s.context.connectionState = .connected
  · rw [if_neg (by simpa using hstate)] at hfailed ⊢
    rcases store_outcome params.topic.bytes params.publishCallbackContext params.publishCallback
      s.context.subscriptionManager with ⟨hstored, hwhy⟩ | ⟨hadmits, hstored, sub, hfor, hperm⟩
    · simp only [hstored, Bool.false_eq_true, if_false]
      exact iff_of_true (.refl _) (hwhy.imp_right fun h => ⟨hstate, h⟩)
    -- The subscription is stored before the packet is made, so the entry for the filter is the new
    -- one.
    · simp only [hstored, if_true] at hfailed ⊢
      generalize hstoring : (s.update fun context => { context with
        subscriptionManager := (prvStoreSubscription params.topic.bytes
          params.publishCallbackContext params.publishCallback
          s.context.subscriptionManager).2 }) = storing at hfailed ⊢
      have hmanager : storing.context.subscriptionManager = (prvStoreSubscription
          params.topic.bytes params.publishCallbackContext params.publishCallback
          s.context.subscriptionManager).2 := by
        rw [← hstoring]
        rfl
      have hconnected : storing.context.connectionState = .connected := by
        rw [← hstoring]
        exact hstate
      have houtcome := submit_outcome user params.timeoutTicks params.packetIdentifier
        (.subscribe params) (fun _ h => h) true (fun _ => rfl) storing
        (Or.inr ⟨id, hconnected⟩)
      generalize submitPacket user params.remainingLength params.timeoutTicks
        params.packetIdentifier params.write true storing = sent at houtcome hfailed ⊢
      cases houtcome with
      | pending => exact absurd rfl hfailed
      | gone _ hacknowledged => exact absurd hacknowledged (by decide)
      | failed hcode _ hcontext =>
          rw [if_pos hcode]
          simp only [update_context, MQTTContext.removeSubscription, hcontext, hmanager]
          rw [remove_stored_iff hfor hperm]
          constructor
          · exact Or.inl
          · rintro (hlacks | ⟨-, hnot⟩)
            · exact hlacks
            · exact absurd hadmits hnot
  -- Without a connection nothing is stored, but an old entry is removed.
  · rw [if_pos hstate]
    simp only [update_context, MQTTContext.removeSubscription]
    rcases entries_remove params.topic.bytes s.context.subscriptionManager with
      ⟨hlacks, hsame⟩ | ⟨old, hfor, hmem, hperm⟩
    · rw [hsame]
      exact iff_of_true (.refl _) (Or.inl hlacks)
    · refine iff_of_false ?_ ?_
      · intro h
        have hlengths := And.intro hperm.length_eq h.length_eq
        simp only [List.length_cons] at hlengths
        omega
      · rintro (hlacks | ⟨hconnected, -⟩)
        · have hnot := lacks_iff.mp hlacks old hmem
          rw [hfor] at hnot
          exact absurd hnot (by decide)
        · exact hstate hconnected

/-- A connected context. -/
def freshContext : MQTTContext := { blankContext with connectionState := .connected }

/-- A connected context with a subscription to the filter of the bench. -/
def subscribedContext : MQTTContext :=
  { freshContext with
    subscriptionManager :=
      (prvStoreSubscription benchSubscribe.topic.bytes 7 (some 9)
        freshContext.subscriptionManager).2 }

/-- A connected context with a subscription to another filter. -/
def elsewhereContext : MQTTContext :=
  { freshContext with
    subscriptionManager :=
      (prvStoreSubscription [0x62] 8 (some 6) freshContext.subscriptionManager).2 }

/-- A subscribe to a new filter that is not sent keeps the entry of another one. -/
theorem failed_subscribe_new_filter :
    elsewhereContext.subscriptionManager.entries.length = 1 ∧
      (mqttSubscribe benchUser benchSubscribe
          ⟨elsewhereContext, ⟨1, 10, 0, false⟩, []⟩).2.context.subscriptionManager.entries.Perm
        elsewhereContext.subscriptionManager.entries :=
  ⟨by decide, (failed_subscribe_iff benchUser benchSubscribe
    ⟨elsewhereContext, ⟨1, 10, 0, false⟩, []⟩ (by decide)).mpr (Or.inl (by decide))⟩

/-- A subscribe to a filter with an entry that is not sent takes the entry away. -/
theorem failed_subscribe_loses_entry :
    (mqttSubscribe benchUser benchSubscribe
        ⟨subscribedContext, ⟨1, 10, 0, false⟩, []⟩).1 ≠ .success ∧
      ¬ (mqttSubscribe benchUser benchSubscribe
          ⟨subscribedContext, ⟨1, 10, 0, false⟩, []⟩).2.context.subscriptionManager.entries.Perm
        subscribedContext.subscriptionManager.entries := by
  refine ⟨by decide, fun h => ?_⟩
  exact absurd h.length_eq (by decide)

end TivaAws.Mqtt
