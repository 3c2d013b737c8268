import TivaAws.Mqtt.Replay
import TivaAws.Mqtt.SubscriptionTable

/-!
# The subscription manager in every reachable state

No transition of any operation leaves the subscription manager in an unsound state: the count of
entries in use is right, a filter has one entry at most and every entry is valid. So a removal
never counts below zero and a store that passes its three checks has a free entry.

`prvStoreSubscription` asks for room before it removes the entry of the same filter, so a manager
that is full takes no subscription, not even one for a filter that it has. Apart from that it takes
every filter that is valid and short enough (`store_subscription_exact`).
-/

namespace TivaAws.Mqtt

open Session Labelled Table

variable {W : Type} {user : MQTTInitParams W} {op : Op} {c c' : MQTTContext}
  {labels : List MQTTOutput}

/-- The end of an operation keeps the manager sound, whatever filter it removes. -/
theorem MQTTSubscriptionManager.Sound.settled {manager : MQTTSubscriptionManager}
    (h : manager.Sound) (buffer : MQTTBuffer) (event : MQTTEvent) :
    (settledManager buffer event manager).Sound := by
  unfold settledManager
  split
  · exact h.remove _
  · exact h.remove _
  · split_ifs
    · exact h.remove _
    · exact h
  · exact h

/-- Every transition keeps the subscription manager sound. -/
theorem Transition.manager_sound (h : Transition user op c labels c')
    (hsound : c.subscriptionManager.Sound) : c'.subscriptionManager.Sound := by
  have hreset : ∀ context : MQTTContext, context.reset.subscriptionManager.Sound :=
    fun context => MQTTSubscriptionManager.Sound.clear context.subscriptionManager
  cases h with
  | quiet => exact hsound
  | configure => exact hsound
  | connect => exact hsound
  | request => exact hsound
  | transient =>
      split_ifs
      · exact hsound
      · exact hsound
  | send =>
      split_ifs
      · exact hsound
      · exact hsound
  | ping => exact hsound
  | pong => exact hsound
  | pingTimedOut => exact hsound
  | elapse => exact hsound
  | store params => exact hsound.store _ _ _
  | remove params => exact hsound.remove _
  | stamp => exact hsound
  | settle buffer event => exact hsound.settled buffer event
  | accept => exact hsound
  | drop => exact hreset c
  | refuse => exact hreset c
  | leave =>
      split_ifs
      · exact hreset _
      · exact hreset c
  | idle => exact hreset c
  | receive hop hstate hframe =>
      rw [hframe]
      exact hsound
  | obtainRx rxBuffer hop hstate hrx hframe =>
      rw [hframe]
      exact hsound
  | releaseRx => exact hsound
  | takeRx => exact hsound
  | giveBack => exact hsound

/-- The subscription manager is sound after every operation of a run. -/
theorem Run.manager_sound {memory : MQTTContext} {history : List (Op × List MQTTOutput)}
    (h : Run user memory history c) : c.subscriptionManager.Sound := by
  have hinv : BaseInvariant c ∧ c.subscriptionManager.Sound := by
    refine Steps.preserves (fun context => BaseInvariant context ∧
      context.subscriptionManager.Sound) ?_ h
      ⟨base_invariant_init memory, MQTTSubscriptionManager.Sound.clear _⟩
    intro context entry context' hkeep hexecutes
    obtain ⟨op, outputs, -, hsteps⟩ := hexecutes.steps hkeep.1
    exact ⟨hexecutes.base_invariant hkeep.1,
      hsteps.preserves (fun context => context.subscriptionManager.Sound)
        (fun hsound hstep => hstep.manager_sound hsound) hkeep.2⟩
  exact hinv.2

/-- A removal that finds an entry counts one entry less. -/
theorem MQTTSubscriptionManager.WellKept.remove_count {manager : MQTTSubscriptionManager}
    (h : manager.WellKept) {topic : List UInt8} {i : Fin _}
    (hfound : firstIndex (MQTTSubscription.isFor topic) manager.subscriptions = some i) :
    (prvRemoveSubscription topic manager).inUseSubscriptions.toNat + 1 =
      manager.inUseSubscriptions.toNat := by
  have hone := h.one_le_count (firstIndex_satisfies hfound)
  have hle : 1 ≤ manager.inUseSubscriptions.toNat := UInt32.le_iff_toNat_le.mp hone
  unfold prvRemoveSubscription
  rw [hfound]
  show (manager.inUseSubscriptions - 1).toNat + 1 = _
  rw [UInt32.toNat_sub_of_le _ _ hone]
  exact Nat.sub_add_cancel hle

/-- A store that passes its three checks finds a free entry and succeeds. -/
theorem MQTTSubscriptionManager.WellKept.store_succeeds {manager : MQTTSubscriptionManager}
    (h : manager.WellKept) {topic : List UInt8} (context : CallbackContext)
    (callback : Option FunctionPointer)
    (hroom : manager.inUseSubscriptions < UInt32.ofNat subscriptionManagerMaxSubscriptions)
    (hlength : topic.length ≤ subscriptionManagerMaxTopicLength)
    (htype : prvGetTopicFilterType topic ≠ .invalid) :
    (∃ x, firstIndex (fun subscription => !subscription.inUse)
      (prvRemoveSubscription topic manager).subscriptions = some x) ∧
    (prvStoreSubscription topic context callback manager).1 = true := by
  obtain ⟨x, hx⟩ := h.free_entry topic hroom
  refine ⟨⟨x, hx⟩, ?_⟩
  unfold prvStoreSubscription
  rw [if_pos hroom, if_pos hlength]
  simp only
  rw [if_pos htype, hx]

/-- The subscription manager after every operation of every run, and after every transition of an
operation that follows: its count is the number of entries in use, their filters differ, and each
is valid. No removal counts below zero, and a store that passes its checks finds a free entry. -/
theorem subscription_manager_consistent (user : MQTTInitParams W) (memory : MQTTContext)
    {history : List (Op × List MQTTOutput)} (hrun : Run user memory history c) (op : Op)
    (hsteps : Steps (Transition user op) c labels c') :
    let manager := c'.subscriptionManager
    manager.inUseSubscriptions.toNat = manager.subscriptions.countP MQTTSubscription.inUse ∧
    (∀ i j : Fin _, manager.subscriptions[i].inUse = true →
      manager.subscriptions[j].inUse = true →
      manager.subscriptions[i].topicFilter = manager.subscriptions[j].topicFilter → i = j) ∧
    (∀ i : Fin _, manager.subscriptions[i].inUse = true → manager.subscriptions[i].Valid) ∧
    (∀ topic i, firstIndex (MQTTSubscription.isFor topic) manager.subscriptions = some i →
      (prvRemoveSubscription topic manager).inUseSubscriptions.toNat + 1 =
        manager.inUseSubscriptions.toNat) ∧
    ∀ topic context callback,
      manager.inUseSubscriptions < UInt32.ofNat subscriptionManagerMaxSubscriptions →
      topic.length ≤ subscriptionManagerMaxTopicLength →
      prvGetTopicFilterType topic ≠ .invalid →
      (∃ x, firstIndex (fun subscription => !subscription.inUse)
        (prvRemoveSubscription topic manager).subscriptions = some x) ∧
      (prvStoreSubscription topic context callback manager).1 = true := by
  intro manager
  have hsound : manager.Sound :=
    hsteps.preserves (fun context => context.subscriptionManager.Sound)
      (fun hsound hstep => hstep.manager_sound hsound) hrun.manager_sound
  refine ⟨hsound.counted, ?_, hsound.valid, ?_, ?_⟩
  · intro i j hi hj hfilter
    exact (hsound.unique _ i j (is_for_iff.mpr ⟨hi, rfl⟩)
      (is_for_iff.mpr ⟨hj, hfilter.symm⟩)).symm
  · exact fun topic i hfound => hsound.remove_count hfound
  · exact fun topic context callback hroom hlength htype =>
      hsound.store_succeeds context callback hroom hlength htype

/-- Accept a connection, subscribe to a filter twice and have the broker acknowledge the first
subscribe. -/
def subscribedTwice : List (Bench × Op) :=
  [(⟨1, 10, 100, false⟩, .connect benchConnect),
    (⟨2, 11, 100, false⟩, .parseReceivedData [controlCONNACK, 2, 0, 0]),
    (⟨3, 12, 100, false⟩, .subscribe benchSubscribe),
    (⟨4, 13, 100, false⟩, .subscribe benchSubscribe),
    (⟨5, 14, 100, false⟩, .parseReceivedData [controlSUBACK, 3, 0, 3, 1])]

theorem subscription_manager_consistent_twice :
    ∃ history c, Run benchUser blankContext history c ∧
      c.subscriptionManager.inUseSubscriptions = 1 ∧
      c.subscriptionManager.subscriptions.countP MQTTSubscription.inUse = 1 := by
  have hrun : Run benchUser blankContext _ _ :=
    run_of_replayed (show (replay benchUser subscribedTwice _).isSome by decide +kernel)
  have hcount : (replayed benchUser subscribedTwice
      (mqttInit blankContext)).2.subscriptionManager.inUseSubscriptions = 1 := by decide +kernel
  have hconsistent := subscription_manager_consistent benchUser blankContext hrun .disconnect
    (.refl _)
  refine ⟨_, _, hrun, hcount, ?_⟩
  rw [← hconsistent.1, hcount]
  rfl

/-! ## When a subscription is stored -/

variable {manager : MQTTSubscriptionManager}

/-- A removal frees the entry of its filter and leaves the others alone. -/
theorem MQTTSubscriptionManager.WellKept.remove_entries (h : manager.WellKept) (topic : List UInt8)
    (i : Fin _) :
    (prvRemoveSubscription topic manager).subscriptions[i] =
      if MQTTSubscription.isFor topic manager.subscriptions[i] then
        { manager.subscriptions[i] with inUse := false }
      else manager.subscriptions[i] := by
  rcases remove_subscription_cases topic manager with ⟨hnone, hsame⟩ | ⟨x, hx, heq⟩
  · rw [hsame, hnone i]
    rfl
  · rw [heq]
    show (manager.subscriptions.set x _)[i] = _
    rw [getElem_set]
    by_cases hix : i = x
    · subst hix
      rw [if_pos rfl, if_pos hx]
    · have hother : ¬ MQTTSubscription.isFor topic manager.subscriptions[i] = true :=
        fun hi => hix (h.unique topic x i hx hi)
      rw [if_neg hix, if_neg hother]

/-- The count says whether there is room. -/
theorem MQTTSubscriptionManager.WellKept.room_iff (h : manager.WellKept) :
    manager.inUseSubscriptions < UInt32.ofNat subscriptionManagerMaxSubscriptions ↔
      manager.subscriptions.countP MQTTSubscription.inUse <
        subscriptionManagerMaxSubscriptions := by
  rw [UInt32.lt_iff_toNat_lt, h.counted]
  rfl

/-- A store that has failed has failed one of its checks and changes nothing. -/
theorem MQTTSubscriptionManager.WellKept.store_iff (h : manager.WellKept) (topic : List UInt8)
    (context : CallbackContext) (callback : Option FunctionPointer) :
    (prvStoreSubscription topic context callback manager).1 = true ↔
      prvGetTopicFilterType topic ≠ .invalid ∧ topic.length ≤ subscriptionManagerMaxTopicLength ∧
        manager.subscriptions.countP MQTTSubscription.inUse <
          subscriptionManagerMaxSubscriptions := by
  constructor
  · intro hstored
    unfold prvStoreSubscription at hstored
    split_ifs at hstored with hroom hlength
    simp only at hstored
    split_ifs at hstored with htype
    exact ⟨htype, hlength, h.room_iff.mp hroom⟩
  · rintro ⟨htype, hlength, hroom⟩
    exact (h.store_succeeds context callback (h.room_iff.mpr hroom) hlength htype).2

/-- A subscription that is stored takes a free entry or the one of its filter, and leaves the
others alone. -/
theorem MQTTSubscriptionManager.WellKept.store_entries (h : manager.WellKept) {topic : List UInt8}
    {context : CallbackContext} {callback : Option FunctionPointer}
    (hstored : (prvStoreSubscription topic context callback manager).1 = true) :
    ∃ x : Fin _,
      (manager.subscriptions[x].inUse = false ∨
        MQTTSubscription.isFor topic manager.subscriptions[x] = true) ∧
      (prvStoreSubscription topic context callback manager).2.subscriptions[x] =
        { topicFilter := topic
          publishCallbackContext := context
          publishCallback := callback
          inUse := true
          topicFilterType := prvGetTopicFilterType topic } ∧
      ∀ i : Fin _, i ≠ x →
        (prvStoreSubscription topic context callback manager).2.subscriptions[i] =
          if MQTTSubscription.isFor topic manager.subscriptions[i] then
            { manager.subscriptions[i] with inUse := false }
          else manager.subscriptions[i] := by
  obtain ⟨htype, hlength, hroom⟩ := (h.store_iff topic context callback).mp hstored
  obtain ⟨x, hx⟩ := h.free_entry topic (h.room_iff.mpr hroom)
  have hfree : (prvRemoveSubscription topic manager).subscriptions[x].inUse = false := by
    simpa using firstIndex_satisfies hx
  have hresult : (prvStoreSubscription topic context callback manager).2.subscriptions =
      (prvRemoveSubscription topic manager).subscriptions.set x
        { topicFilter := topic
          publishCallbackContext := context
          publishCallback := callback
          inUse := true
          topicFilterType := prvGetTopicFilterType topic } := by
    unfold prvStoreSubscription
    rw [if_pos (h.room_iff.mpr hroom), if_pos hlength]
    simp only
    rw [if_pos htype, hx]
  refine ⟨x, ?_, ?_, ?_⟩
  · rw [h.remove_entries topic x] at hfree
    split_ifs at hfree with hfor
    · exact Or.inr hfor
    · exact Or.inl hfree
  · rw [hresult, getElem_set, if_pos rfl]
  · intro i hi
    rw [hresult, getElem_set, if_neg hi]
    exact h.remove_entries topic i

/-- In every reachable state of the subscription manager, a store succeeds exactly if the filter is
valid and short enough and not all entries are in use, whether one of them is for the filter or not.
It then takes a free entry or the one of its filter and leaves the others alone; otherwise it
changes nothing. -/
theorem store_subscription_exact (user : MQTTInitParams W) (memory : MQTTContext)
    {history : List (Op × List MQTTOutput)} (hrun : Run user memory history c) (op : Op)
    (hsteps : Steps (Transition user op) c labels c') (topic : List UInt8)
    (context : CallbackContext) (callback : Option FunctionPointer) :
    let manager := c'.subscriptionManager
    let stored := prvStoreSubscription topic context callback manager
    (stored.1 = true ↔
      prvGetTopicFilterType topic ≠ .invalid ∧ topic.length ≤ subscriptionManagerMaxTopicLength ∧
        manager.subscriptions.countP MQTTSubscription.inUse <
          subscriptionManagerMaxSubscriptions) ∧
    (stored.1 = false → stored.2 = manager) ∧
    (stored.1 = true → ∃ x : Fin _,
      (manager.subscriptions[x].inUse = false ∨
        MQTTSubscription.isFor topic manager.subscriptions[x] = true) ∧
      stored.2.subscriptions[x] =
        { topicFilter := topic
          publishCallbackContext := context
          publishCallback := callback
          inUse := true
          topicFilterType := prvGetTopicFilterType topic } ∧
      ∀ i : Fin _, i ≠ x → stored.2.subscriptions[i] =
        if MQTTSubscription.isFor topic manager.subscriptions[i] then
          { manager.subscriptions[i] with inUse := false }
        else manager.subscriptions[i]) := by
  intro manager stored
  have hsound : manager.Sound :=
    hsteps.preserves (fun context => context.subscriptionManager.Sound)
      (fun hsound hstep => hstep.manager_sound hsound) hrun.manager_sound
  refine ⟨hsound.store_iff topic context callback, fun hfailed => ?_, hsound.store_entries⟩
  rcases hsound.store_cases topic context callback with hsame | ⟨x, entry, -, -, -, -, -, -, heq⟩
  · exact congrArg Prod.snd hsame
  · have habsurd := hfailed.symm.trans (congrArg Prod.fst heq)
    cases habsurd

/-- SUBSCRIBE to one of eight filters of one character. -/
def subscribeTo (x : Fin subscriptionManagerMaxSubscriptions) : Bench × Op :=
  (⟨3 + x.val, 12, 100, false⟩,
    .subscribe
      { benchSubscribe with
        topic := ⟨[0x61 + UInt8.ofNat x.val], show 1 < 2 ^ 16 by decide⟩
        packetIdentifier := 3 + UInt16.ofNat x.val })

/-- Accept a connection and subscribe to as many filters as there are entries. -/
def subscribedToAll : List (Bench × Op) :=
  (⟨1, 10, 100, false⟩, .connect benchConnect) ::
    (⟨2, 11, 100, false⟩, .parseReceivedData [controlCONNACK, 2, 0, 0]) ::
    (List.finRange subscriptionManagerMaxSubscriptions).map subscribeTo

/-- A store with room for it succeeds. -/
theorem store_subscription_exact_room :
    ∃ history c, Run benchUser blankContext history c ∧
      (prvStoreSubscription [0x62] 7 none c.subscriptionManager).1 = true := by
  have hrun : Run benchUser blankContext _ _ :=
    run_of_replayed (show (replay benchUser subscribedTwice _).isSome by decide +kernel)
  refine ⟨_, _, hrun, ?_⟩
  exact (store_subscription_exact benchUser blankContext hrun .disconnect (.refl _) [0x62] 7
    none).1.mpr ⟨by decide, by decide, by decide +kernel⟩

/-- A full manager refuses a filter that it has, although the filter is valid and short enough. -/
theorem full_manager_refuses_its_filter :
    ∃ history c, Run benchUser blankContext history c ∧
      prvGetTopicFilterType [0x61] ≠ .invalid ∧ [0x61].length ≤ subscriptionManagerMaxTopicLength ∧
      (∃ x : Fin _,
        MQTTSubscription.isFor [0x61] c.subscriptionManager.subscriptions[x] = true) ∧
      (prvStoreSubscription [0x61] 7 none c.subscriptionManager).1 = false := by
  have hrun : Run benchUser blankContext _ _ :=
    run_of_replayed (show (replay benchUser subscribedToAll _).isSome by decide +kernel)
  exact ⟨_, _, hrun, by decide, by decide, ⟨⟨0, by decide⟩, by decide +kernel⟩, by decide +kernel⟩

end TivaAws.Mqtt
