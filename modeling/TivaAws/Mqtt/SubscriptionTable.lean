import TivaAws.Mqtt.Subscription

/-!
# The subscription manager as a map

A well-kept subscription manager has one entry in use for a filter at most and counts its entries
right. It is then a map from filters to callbacks: `prvStoreSubscription` sets the value of a filter
or changes nothing, and `prvRemoveSubscription` takes it away.
-/

namespace TivaAws.Mqtt

open Table

/-- What a subscription says to do with a publish: the callback and its context. -/
abbrev SubscriptionEntry := Option FunctionPointer × CallbackContext

def MQTTSubscription.entry (subscription : MQTTSubscription) : SubscriptionEntry :=
  (subscription.publishCallback, subscription.publishCallbackContext)

/-- The entry in use for a filter. -/
def MQTTSubscriptionManager.entryFor (topic : List UInt8) (manager : MQTTSubscriptionManager) :
    Option SubscriptionEntry :=
  (lookup (MQTTSubscription.isFor topic) manager.subscriptions).map MQTTSubscription.entry

/-- A filter has one entry in use at most, and the entries in use are counted. -/
structure MQTTSubscriptionManager.WellKept (manager : MQTTSubscriptionManager) : Prop where
  unique : ∀ topic (i j : Fin _),
    MQTTSubscription.isFor topic (getElem manager.subscriptions i i.isLt) = true →
    MQTTSubscription.isFor topic (getElem manager.subscriptions j j.isLt) = true → j = i
  counted : manager.inUseSubscriptions.toNat =
    manager.subscriptions.countP MQTTSubscription.inUse

/-- The filter fits into its array, is valid, and its type is stored with it. -/
structure MQTTSubscription.Valid (subscription : MQTTSubscription) : Prop where
  length_le : subscription.topicFilter.length ≤ subscriptionManagerMaxTopicLength
  accepted : prvGetTopicFilterType subscription.topicFilter ≠ .invalid
  type_eq : subscription.topicFilterType = prvGetTopicFilterType subscription.topicFilter

/-- A well-kept manager whose entries in use are valid. -/
structure MQTTSubscriptionManager.Sound (manager : MQTTSubscriptionManager) : Prop
    extends manager.WellKept where
  valid : ∀ i : Fin _, manager.subscriptions[i].inUse = true → manager.subscriptions[i].Valid

theorem is_for_iff {topic : List UInt8} {subscription : MQTTSubscription} :
    MQTTSubscription.isFor topic subscription = true ↔
      subscription.inUse = true ∧ subscription.topicFilter = topic := by
  rw [MQTTSubscription.isFor, Bool.and_eq_true, beq_iff_eq]

theorem is_for_free (topic : List UInt8) {subscription : MQTTSubscription}
    (h : subscription.inUse = false) : MQTTSubscription.isFor topic subscription = false := by
  rw [MQTTSubscription.isFor, h, Bool.false_and]

theorem well_kept_clear (manager : MQTTSubscriptionManager) : manager.clear.WellKept := by
  have hunused : ∀ i : Fin _, manager.clear.subscriptions[i].inUse = false := by
    intro i
    simp [MQTTSubscriptionManager.clear]
  refine ⟨?_, ?_⟩
  · intro topic i j hi
    rw [is_for_free topic (hunused i)] at hi
    exact absurd hi Bool.false_ne_true
  · have hnone : manager.clear.subscriptions.countP MQTTSubscription.inUse = 0 := by
      rw [Vector.countP_eq_zero]
      intro subscription hmem
      obtain ⟨i, hi, rfl⟩ := Vector.mem_iff_getElem.mp hmem
      have hfree := hunused ⟨i, hi⟩
      simpa using hfree
    rw [hnone]
    rfl

/-- The entry that a removal frees, if there is one. -/
theorem remove_subscription_cases (topic : List UInt8) (manager : MQTTSubscriptionManager) :
    ((∀ i : Fin _, MQTTSubscription.isFor topic (getElem manager.subscriptions i i.isLt) = false) ∧
      prvRemoveSubscription topic manager = manager) ∨
    ∃ i : Fin _, MQTTSubscription.isFor topic (getElem manager.subscriptions i i.isLt) = true ∧
      prvRemoveSubscription topic manager =
        { subscriptions :=
            manager.subscriptions.set i
              { getElem manager.subscriptions i i.isLt with inUse := false } i.isLt
          inUseSubscriptions := manager.inUseSubscriptions - 1 } := by
  unfold prvRemoveSubscription
  cases hfirst : firstIndex (MQTTSubscription.isFor topic) manager.subscriptions with
  | none => exact Or.inl ⟨firstIndex_eq_none_iff.mp hfirst, rfl⟩
  | some i => exact Or.inr ⟨i, firstIndex_satisfies hfirst, rfl⟩

namespace MQTTSubscriptionManager.WellKept

variable {manager : MQTTSubscriptionManager} (h : manager.WellKept)

include h

/-- An entry in use is counted. -/
theorem one_le_count {topic : List UInt8} {i : Fin _}
    (hi : MQTTSubscription.isFor topic manager.subscriptions[i] = true) :
    1 ≤ manager.inUseSubscriptions := by
  rw [UInt32.le_iff_toNat_le, h.counted]
  exact Vector.countP_pos_iff.mpr ⟨_, Vector.getElem_mem i.isLt, (is_for_iff.mp hi).1⟩

theorem remove (topic : List UInt8) : (prvRemoveSubscription topic manager).WellKept := by
  rcases remove_subscription_cases topic manager with ⟨-, hsame⟩ | ⟨i, hi, heq⟩
  · rw [hsame]
    exact h
  · have hinUse := (is_for_iff.mp hi).1
    rw [heq]
    refine ⟨?_, ?_⟩
    · intro other j k hj hk
      simp only [getElem_set] at hj hk
      split_ifs at hj hk
      · exact absurd (is_for_iff.mp hj).1 (by simp)
      · exact absurd (is_for_iff.mp hj).1 (by simp)
      · exact absurd (is_for_iff.mp hk).1 (by simp)
      · exact h.unique other j k hj hk
    · have hfree : ({ manager.subscriptions[i] with inUse := false } : MQTTSubscription).inUse ≠
          true := Bool.false_ne_true
      rw [UInt32.toNat_sub_of_le _ _ (h.one_le_count hi), h.counted, Vector.countP_set,
        if_neg hfree, if_pos (show manager.subscriptions[i.val].inUse = true from hinUse)]
      rfl

/-- After a removal there is no entry for the filter, and the others are as before. -/
theorem entry_for_remove (topic other : List UInt8) :
    (prvRemoveSubscription topic manager).entryFor other =
      if other = topic then none else manager.entryFor other := by
  rcases remove_subscription_cases topic manager with ⟨hnone, hsame⟩ | ⟨i, hi, heq⟩
  · rw [hsame]
    split_ifs with heq
    · rw [heq, entryFor, Option.map_eq_none_iff, lookup_eq_none_iff]
      exact hnone
    · rfl
  · have hfreed : ∀ topic, MQTTSubscription.isFor topic
        { manager.subscriptions[i] with inUse := false } = false :=
        fun topic => is_for_free topic rfl
    rw [heq]
    split_ifs with hother
    · rw [hother, entryFor, Option.map_eq_none_iff]
      exact lookup_set_none (hfreed topic) fun j hj => h.unique topic i j hi hj
    · rw [entryFor, lookup_set_of_not ?_ (hfreed other), entryFor]
      rw [MQTTSubscription.isFor, (is_for_iff.mp hi).2, Bool.and_eq_false_iff]
      exact Or.inr (beq_eq_false_iff_ne.mpr (Ne.symm hother))

theorem remove_count_le (topic : List UInt8) :
    (prvRemoveSubscription topic manager).inUseSubscriptions.toNat ≤
      manager.inUseSubscriptions.toNat := by
  rcases remove_subscription_cases topic manager with ⟨-, hsame⟩ | ⟨i, hi, heq⟩
  · rw [hsame]
  · rw [heq, UInt32.toNat_sub_of_le _ _ (h.one_le_count hi)]
    exact Nat.sub_le _ _

/-- A manager that is not full has a free entry, also after a removal. -/
theorem free_entry (topic : List UInt8)
    (hroom : manager.inUseSubscriptions < UInt32.ofNat subscriptionManagerMaxSubscriptions) :
    ∃ x, firstIndex (fun subscription => !subscription.inUse)
      (prvRemoveSubscription topic manager).subscriptions = some x := by
  refine firstIndex_not_isSome ?_
  rw [← (h.remove topic).counted]
  exact Nat.lt_of_le_of_lt (h.remove_count_le topic) (UInt32.lt_iff_toNat_lt.mp hroom)

/-- A subscription is stored in a free entry after the old one for its filter is removed, or
nothing changes. -/
theorem store_cases (topic : List UInt8) (context : CallbackContext)
    (callback : Option FunctionPointer) :
    prvStoreSubscription topic context callback manager = (false, manager) ∨
    ∃ (x : Fin _) (subscription : MQTTSubscription),
      (getElem (prvRemoveSubscription topic manager).subscriptions x x.isLt).inUse = false ∧
      (prvRemoveSubscription topic manager).inUseSubscriptions <
        UInt32.ofNat subscriptionManagerMaxSubscriptions ∧
      subscription.inUse = true ∧ subscription.topicFilter = topic ∧ subscription.Valid ∧
      subscription.entry = (callback, context) ∧
      prvStoreSubscription topic context callback manager =
        (true,
          { subscriptions :=
              (prvRemoveSubscription topic manager).subscriptions.set x subscription x.isLt
            inUseSubscriptions :=
              (prvRemoveSubscription topic manager).inUseSubscriptions + 1 }) := by
  have hcount : manager.inUseSubscriptions < UInt32.ofNat subscriptionManagerMaxSubscriptions →
      (prvRemoveSubscription topic manager).inUseSubscriptions <
        UInt32.ofNat subscriptionManagerMaxSubscriptions :=
    fun hroom => UInt32.lt_iff_toNat_lt.mpr
      (Nat.lt_of_le_of_lt (h.remove_count_le topic) (UInt32.lt_iff_toNat_lt.mp hroom))
  unfold prvStoreSubscription
  by_cases hroom : manager.inUseSubscriptions < UInt32.ofNat subscriptionManagerMaxSubscriptions
  · rw [if_pos hroom]
    by_cases hlength : topic.length ≤ subscriptionManagerMaxTopicLength
    · rw [if_pos hlength]
      simp only
      by_cases htype : prvGetTopicFilterType topic ≠ .invalid
      · rw [if_pos htype]
        obtain ⟨x, hx⟩ := h.free_entry topic hroom
        have hfree := firstIndex_satisfies hx
        rw [hx]
        exact Or.inr
          ⟨x, _, by simpa using hfree, hcount hroom, rfl, rfl, ⟨hlength, htype, rfl⟩, rfl, rfl⟩
      · rw [if_neg htype]
        exact Or.inl rfl
    · rw [if_neg hlength]
      exact Or.inl rfl
  · rw [if_neg hroom]
    exact Or.inl rfl

/-- A store sets the entry of its filter if it succeeds and changes nothing if it fails. -/
theorem store (topic : List UInt8) (context : CallbackContext)
    (callback : Option FunctionPointer) :
    let stored := prvStoreSubscription topic context callback manager
    stored.2.WellKept ∧ ∀ other, stored.2.entryFor other =
      if stored.1 = true ∧ other = topic then some (callback, context)
      else manager.entryFor other := by
  intro stored
  rcases h.store_cases topic context callback with
    heq | ⟨x, subscription, hfree, hcount, hinUse, hfilter, -, hentry, heq⟩
  · simp only [stored, heq]
    exact ⟨h, fun other => by simp⟩
  · have hremoved := h.remove topic
    have hnone : ∀ j : Fin _, MQTTSubscription.isFor topic
        (prvRemoveSubscription topic manager).subscriptions[j] = false := by
      have hentries := h.entry_for_remove topic topic
      rw [if_pos rfl, entryFor, Option.map_eq_none_iff, lookup_eq_none_iff] at hentries
      exact hentries
    have hself : MQTTSubscription.isFor topic subscription = true :=
      is_for_iff.mpr ⟨hinUse, hfilter⟩
    have hothers : ∀ other ≠ topic, MQTTSubscription.isFor other subscription = false := by
      intro other hne
      rw [MQTTSubscription.isFor, hfilter, Bool.and_eq_false_iff]
      exact Or.inr (beq_eq_false_iff_ne.mpr (Ne.symm hne))
    simp only [stored, heq]
    refine ⟨⟨?_, ?_⟩, ?_⟩
    · intro other i j hi hj
      simp only [getElem_set] at hi hj
      split_ifs at hi hj with hix hjx hjx
      · rw [hix, hjx]
      · rw [(is_for_iff.mp hi).2.symm.trans hfilter, hnone j] at hj
        exact absurd hj Bool.false_ne_true
      · rw [(is_for_iff.mp hj).2.symm.trans hfilter, hnone i] at hi
        exact absurd hi Bool.false_ne_true
      · exact hremoved.unique other i j hi hj
    · have hstored : ¬ (prvRemoveSubscription topic manager).subscriptions[x.val].inUse = true := by
        rw [show (prvRemoveSubscription topic manager).subscriptions[x.val].inUse =
          false from hfree]
        exact Bool.false_ne_true
      have hmax := UInt32.lt_iff_toNat_lt.mp hcount
      rw [Vector.countP_set, if_neg hstored, if_pos hinUse, ← hremoved.counted,
        UInt32.toNat_add]
      exact Nat.mod_eq_of_lt (by
        have hbound : (UInt32.ofNat subscriptionManagerMaxSubscriptions).toNat = 8 := rfl
        have hone : (1 : UInt32).toNat = 1 := rfl
        omega)
    · intro other
      by_cases hother : other = topic
      · rw [if_pos ⟨trivial, hother⟩, hother, entryFor, lookup_set_self hself hnone,
          Option.map_some, hentry]
      · rw [if_neg (fun hand => hother hand.2), entryFor,
          lookup_set_of_not (is_for_free other hfree) (hothers other hother)]
        have hentries := h.entry_for_remove topic other
        rw [if_neg hother] at hentries
        exact hentries

end MQTTSubscriptionManager.WellKept

namespace MQTTSubscriptionManager.Sound

variable {manager : MQTTSubscriptionManager}

theorem clear (manager : MQTTSubscriptionManager) : manager.clear.Sound := by
  refine ⟨well_kept_clear manager, ?_⟩
  intro i hinUse
  simp [MQTTSubscriptionManager.clear] at hinUse

theorem remove (h : manager.Sound) (topic : List UInt8) :
    (prvRemoveSubscription topic manager).Sound := by
  refine ⟨h.toWellKept.remove topic, ?_⟩
  intro j hinUse
  rcases remove_subscription_cases topic manager with ⟨-, hsame⟩ | ⟨i, -, heq⟩
  · rw [hsame] at hinUse ⊢
    exact h.valid j hinUse
  · rw [heq] at hinUse ⊢
    simp only [getElem_set] at hinUse ⊢
    split_ifs at hinUse ⊢ with hij
    · exact h.valid j hinUse

theorem store (h : manager.Sound) (topic : List UInt8) (context : CallbackContext)
    (callback : Option FunctionPointer) :
    (prvStoreSubscription topic context callback manager).2.Sound := by
  refine ⟨(h.toWellKept.store topic context callback).1, ?_⟩
  intro j hinUse
  rcases h.toWellKept.store_cases topic context callback with
    heq | ⟨x, subscription, -, -, -, -, hvalid, -, heq⟩
  · rw [heq] at hinUse ⊢
    exact h.valid j hinUse
  · rw [heq] at hinUse ⊢
    simp only [getElem_set] at hinUse ⊢
    split_ifs at hinUse ⊢ with hij
    · exact hvalid
    · exact (h.remove topic).valid j hinUse

end MQTTSubscriptionManager.Sound

end TivaAws.Mqtt
